import Strata.Value.Basic

/-!
# The order of sets

A set is shown in the order in which its items lie in a hash table. The table has a power of two as its size, with
room for more than twice the items if there are more than four. An item goes to the slot that its hash names, or else
to the first free slot of a sequence that begins there.

Equal numbers have the same hash, whatever their kind. All other hashes are drawn anew for each run of the program,
so that a set which holds anything but numbers has no order that could be told beforehand; it is shown in the order
of its document.
-/

namespace Strata.Value

/-- Hashes of numbers are remainders of this prime, `2^61 - 1`. -/
def hashPrime : Nat := 2305843009213693951

/-- The hash of an integer. There is none of -1. -/
def hashOf (negative : Bool) (n : Nat) : Int :=
  let size : Int := (n % hashPrime : Nat)
  if !negative then size else if size = 1 then -2 else -size

/-- The hash of a number. Since `2^61` leaves the remainder 1, so do all powers of it, and the exponent of a double
counts up to multiples of 61. -/
def hash? : Value → Option Int
  | .bool b => some (if b then 1 else 0)
  | .int n => some (hashOf (n < 0) n.natAbs)
  | .float x =>
    match Decimal.Binary.ofFloat x with
    | .nan => none
    | .infinite negative => some (if negative then -314159 else 314159)
    | .finite negative mantissa exponent _ => some (hashOf negative (mantissa <<< (exponent % 61).toNat))
  | _ => none

/-- The slots that are tried together: ten in a row, or the last ones of the table one by one. -/
def neighbours (size slot : Nat) : List Nat :=
  if slot + 9 < size then List.range' slot 10 else [slot]

/-- The first slot of the sequence from `slot` on that is not taken. What is left of the hash scatters the sequence,
and once nothing is left it comes to all slots; `fuel` bounds how often it jumps. -/
def freeSlot (size : Nat) (taken : List Nat) : Nat → Nat → Nat → Nat
  | 0, slot, _ => slot
  | fuel + 1, slot, hash =>
    match (neighbours size slot).find? fun k => !taken.contains k with
    | some free => free
    | none => freeSlot size taken fuel ((slot * 5 + 1 + hash / 32) % size) (hash / 32)

/-- The size of the table for so many items. -/
def tableSize (count : Nat) : Nat :=
  if count < 5 then 8 else (2 * count + 1).nextPowerOfTwo

/-- The slots of items with these hashes, which are put into the table one after the other. -/
def slotsFrom (size : Nat) (taken : List Nat) : List Int → List Nat
  | [] => []
  | hash :: rest =>
    let word := (hash % 2 ^ 64).toNat
    let slot := freeSlot size taken (size + 13) (word % size) word
    slot :: slotsFrom size (slot :: taken) rest

/-- What belongs to the items of a set, in the order in which the set is shown. -/
def inHashOrder {α : Type} (items : List Value) (parts : List α) : List α :=
  match items.mapM hash? with
  | none => parts
  | some hashes =>
    let slots := slotsFrom (tableSize items.length) [] hashes
    ((slots.zip parts).mergeSort fun a b => a.1 ≤ b.1).map Prod.snd

end Strata.Value
