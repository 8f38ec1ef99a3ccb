import Strata.Text.Resemblance

/-!
# Switches

Arguments that start with a dash are switches: `--long`, `--long value`, `--long=value`, `-s`, `-s value`,
`-svalue`, and several short ones together, as in `-abc`. Two dashes alone end the switches.
-/

namespace Strata.CommandLine

/-- A switch of a command; `id` tells what it is for. -/
structure Switch (κ : Type) where
  id : κ
  long : String
  short : Option Char := none
  takesValue : Bool := false

/-- What is wrong with a switch. -/
inductive SwitchError where
  /-- There is no such switch; `near` are those that resemble it. -/
  | unknown (name : String) (near : List String)
  | needsValue (name : String)
  | takesNoValue (name : String)
  deriving Repr, DecidableEq

/-- The switches of a command line in the order in which they stand, each with its value if it takes one,
and the other arguments. -/
structure Parsed (κ : Type) where
  switches : List (κ × Option String)
  rest : List String

/-- What an argument says: some switches, and maybe, as the last one, a switch whose value is the next
argument. -/
structure Reading (κ : Type) where
  switches : List (κ × Option String)
  /-- The switch that waits for a value, and the name by which it was called. -/
  waiting : Option (κ × String) := none

variable {κ : Type}

/-- The short switches in an argument behind its dash. A switch that takes a value takes what is left of
the argument. -/
def readShort (switches : List (Switch κ)) : List Char → Except SwitchError (Reading κ)
  | [] => .ok ⟨[], none⟩
  | c :: cs =>
    let name := String.ofList ['-', c]
    match switches.find? fun s => s.short = some c with
    | none => .error (.unknown name [])
    | some s =>
      if s.takesValue then
        if cs.isEmpty then .ok ⟨[], some (s.id, name)⟩ else .ok ⟨[(s.id, some (String.ofList cs))], none⟩
      else
        match readShort switches cs with
        | .error e => .error e
        | .ok r => .ok { r with switches := (s.id, none) :: r.switches }

/-- The switches in an argument that starts with a dash. -/
def readSwitch (switches : List (Switch κ)) (argument : String) : Except SwitchError (Reading κ) :=
  let cs := argument.toList
  let name := String.ofList (cs.takeWhile fun c => c != '=')
  let value := (cs.dropWhile fun c => c != '=').tail?.map String.ofList
  match switches.find? fun s => s.long = name with
  | some s =>
    if s.takesValue then
      match value with
      | some v => .ok ⟨[(s.id, some v)], none⟩
      | none => .ok ⟨[], some (s.id, name)⟩
    else if value.isSome then .error (.takesNoValue name)
    else .ok ⟨[(s.id, none)], none⟩
  | none =>
    match cs with
    | '-' :: '-' :: _ => .error (.unknown name (Text.closeMatches name (switches.map Switch.long)))
    | _ => readShort switches (cs.drop 1)

/-- Does the argument hold switches? A dash alone does not. -/
def isSwitch (argument : String) : Bool :=
  match argument.toList with
  | '-' :: _ :: _ => true
  | _ => false

/-- Reads a command line. If switches may be `mixed` with other arguments, those may stand anywhere before
two dashes; otherwise the first other argument ends the switches. -/
def parse (switches : List (Switch κ)) (mixed : Bool) : List String → Except SwitchError (Parsed κ)
  | [] => .ok ⟨[], []⟩
  | argument :: more =>
    if argument = "--" then .ok ⟨[], more⟩
    else if isSwitch argument then
      match readSwitch switches argument with
      | .error e => .error e
      | .ok reading =>
        match reading.waiting, more with
        | none, more =>
          (parse switches mixed more).map fun p => { p with switches := reading.switches ++ p.switches }
        | some (_, name), [] => .error (.needsValue name)
        | some (id, _), value :: more =>
          (parse switches mixed more).map fun p =>
            { p with switches := reading.switches ++ (id, some value) :: p.switches }
    else if mixed then
      (parse switches mixed more).map fun p => { p with rest := argument :: p.rest }
    else .ok ⟨[], argument :: more⟩

namespace Parsed

variable [DecidableEq κ]

/-- Is the switch given? -/
def has (p : Parsed κ) (id : κ) : Bool :=
  p.switches.any fun s => s.1 = id

/-- The value that is given last for a switch. -/
def value? (p : Parsed κ) (id : κ) : Option String :=
  (p.switches.reverse.find? fun s => s.1 = id).bind fun s => s.2

/-- The switches that are given, each once, in the order in which they are given first. -/
def given (p : Parsed κ) : List κ :=
  p.switches.foldl (fun ids s => if ids.contains s.1 then ids else ids ++ [s.1]) []

end Parsed

end Strata.CommandLine
