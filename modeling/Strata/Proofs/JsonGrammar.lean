import Strata.Proofs.Numerals

/-!
# The grammar of JSON

`IsTextOf v cs` says by the rules of the format that the characters are a text of the document `v`: white space may
stand around every token, a character of a string may be escaped in several ways, and a character outside the basic
plane is escaped by two units. The reader gives back the document of every such text (`parse?_of_isTextOf`), so that no
text has two documents (`IsTextOf.unique`). Of the control characters, a text holds none but white space
(`IsTextOf.isClean`).
-/

namespace Strata.Json

/-! ## Strings -/

/-- Four hexadecimal digits and the unit that they stand for. -/
inductive IsUnit : Nat → List Char → Prop where
  | mk {a b c d : Char} {i j k l : Nat} (ha : hexValue? a = some i) (hb : hexValue? b = some j)
      (hc : hexValue? c = some k) (hd : hexValue? d = some l) :
      IsUnit (((i * 16 + j) * 16 + k) * 16 + l) [a, b, c, d]

/-- The letters that may follow a backslash, each with what it stands for. -/
def shortEscapes : List (Char × Char) :=
  [('"', '"'), ('\\', '\\'), ('/', '/'), ('b', '\x08'), ('f', '\x0c'), ('n', '\n'), ('r', '\r'), ('t', '\t')]

/-- `hi` and `lo` are the two units of a character outside the basic plane. -/
structure IsPair (c : Char) (hi lo : Nat) : Prop where
  high : 0xD800 ≤ hi ∧ hi < 0xDC00
  low : 0xDC00 ≤ lo ∧ lo < 0xE000
  value : c.toNat = 0x10000 + (hi - 0xD800) * 1024 + (lo - 0xDC00)

/-- A character as it may be written in a string. -/
inductive Spells : Char → List Char → Prop where
  | plain {c : Char} (hcontrol : 0x20 ≤ c.toNat) (hquote : c ≠ '"') (hescape : c ≠ '\\') : Spells c [c]
  | short {c letter : Char} (h : (letter, c) ∈ shortEscapes) : Spells c ['\\', letter]
  | unit {c : Char} {ds : List Char} (h : IsUnit c.toNat ds) : Spells c ('\\' :: 'u' :: ds)
  | pair {c : Char} {hi lo : Nat} {ds es : List Char} (h : IsPair c hi lo) (hhi : IsUnit hi ds) (hlo : IsUnit lo es) :
      Spells c ('\\' :: 'u' :: ds ++ '\\' :: 'u' :: es)

/-- Characters as they may be written in a string, one after the other. -/
inductive SpellsAll : List Char → List Char → Prop where
  | nil : SpellsAll [] []
  | cons {c : Char} {cs text rest : List Char} (h : Spells c text) (hrest : SpellsAll cs rest) :
      SpellsAll (c :: cs) (text ++ rest)

/-- A string with its quotes. -/
inductive IsQuoted : String → List Char → Prop where
  | mk {s : String} {text : List Char} (h : SpellsAll s.toList text) : IsQuoted s ('"' :: (text ++ ['"']))

/-! ## Documents -/

/-- White space between tokens. -/
def IsSpace (cs : List Char) : Prop :=
  ∀ c ∈ cs, c = ' ' ∨ c = '\n' ∨ c = '\r' ∨ c = '\t'

mutual

/-- The characters are a document, with no white space around it. -/
inductive Writes : Json → List Char → Prop where
  | null : Writes .null "null".toList
  | true : Writes (.bool .true) "true".toList
  | false : Writes (.bool .false) "false".toList
  | int {n : Int} {cs : List Char} (h : IsInteger n cs) : Writes (.int n) cs
  | real {numeral : String} (h : IsReal numeral.toList) : Writes (.real numeral) numeral.toList
  | string {s : String} {cs : List Char} (h : IsQuoted s cs) : Writes (.string s) cs
  | emptyArray {space : List Char} (h : IsSpace space) : Writes (.array []) ('[' :: (space ++ [']']))
  | array {items : List Json} {cs : List Char} (h : WritesItems items cs) :
      Writes (.array items) ('[' :: (cs ++ [']']))
  | emptyObject {space : List Char} (h : IsSpace space) : Writes (.object []) ('\x7b' :: (space ++ ['\x7d']))
  | object {fields : List (String × Json)} {cs : List Char} (h : WritesFields fields cs) :
      Writes (.object fields) ('\x7b' :: (cs ++ ['\x7d']))

/-- The characters are documents with commas between them. -/
inductive WritesItems : List Json → List Char → Prop where
  | last {v : Json} {before cs after : List Char} (hbefore : IsSpace before) (h : Writes v cs)
      (hafter : IsSpace after) : WritesItems [v] (before ++ (cs ++ after))
  | more {v : Json} {rest : List Json} {before cs after tail : List Char} (hbefore : IsSpace before) (h : Writes v cs)
      (hafter : IsSpace after) (hrest : WritesItems rest tail) :
      WritesItems (v :: rest) (before ++ (cs ++ (after ++ ',' :: tail)))

/-- The characters are names and documents with colons and commas between them. -/
inductive WritesFields : List (String × Json) → List Char → Prop where
  | last {name : String} {v : Json} {before quoted behind between cs after : List Char} (hbefore : IsSpace before)
      (hname : IsQuoted name quoted) (hbehind : IsSpace behind) (hbetween : IsSpace between) (h : Writes v cs)
      (hafter : IsSpace after) :
      WritesFields [(name, v)] (before ++ (quoted ++ (behind ++ ':' :: (between ++ (cs ++ after)))))
  | more {name : String} {v : Json} {rest : List (String × Json)}
      {before quoted behind between cs after tail : List Char} (hbefore : IsSpace before)
      (hname : IsQuoted name quoted) (hbehind : IsSpace behind) (hbetween : IsSpace between) (h : Writes v cs)
      (hafter : IsSpace after) (hrest : WritesFields rest tail) :
      WritesFields ((name, v) :: rest)
        (before ++ (quoted ++ (behind ++ ':' :: (between ++ (cs ++ (after ++ ',' :: tail))))))

end

/-- The characters are a text of the document. -/
inductive IsTextOf : Json → List Char → Prop where
  | mk {v : Json} {before cs after : List Char} (hbefore : IsSpace before) (h : Writes v cs) (hafter : IsSpace after) :
      IsTextOf v (before ++ (cs ++ after))

/-! ## The lexer reads tokens -/

section Lexer

variable {found : List Token} {rest : List Char}

theorem lexFrom_of_step {st st' : LexState} {c : Char} {ts : List Token} (h : lexStep st c = some (ts, st')) :
    lexFrom found st (c :: rest) = lexFrom (ts ++ found) st' rest := by
  rw [lexFrom, h]

theorem lexFrom_space {space : List Char} (h : IsSpace space) :
    lexFrom found .between (space ++ rest) = lexFrom found .between rest := by
  induction space with
  | nil => rfl
  | cons c space ih =>
    have hstart : startToken c = ([], .between) := by
      rw [startToken, if_pos (h c List.mem_cons_self)]
    have hstep : lexStep .between c = some ([], .between) := congrArg some hstart
    rw [List.cons_append, lexFrom_of_step hstep]
    exact ih fun d hd => h d (List.mem_cons_of_mem c hd)

/-! ### Words -/

/-- The characters do not go on with a word. -/
def IsBounded (cs : List Char) : Prop :=
  ∀ c ∈ cs.head?, endsWord c = true

/-- The characters may stand in a word. -/
structure IsWord (letters : List Char) : Prop where
  ne_nil : letters ≠ []
  inside : ∀ c ∈ letters, endsWord c = false

theorem IsWord.of_all {letters : List Char} (hne : letters ≠ []) (h : letters.all (fun c => !endsWord c) = true) :
    IsWord letters := by
  refine ⟨hne, ?_⟩
  simpa using h

theorem startToken_of_inside {c : Char} (h : endsWord c = false) : startToken c = ([], .word [c]) := by
  simp only [endsWord, Bool.or_eq_false_iff, decide_eq_false_iff_not, Option.isSome_eq_false_iff,
    Option.isNone_iff_eq_none] at h
  obtain ⟨⟨⟨⟨⟨hblank, hline⟩, hreturn⟩, htab⟩, hquote⟩, hmark⟩ := h
  rw [startToken, if_neg (by simp [hblank, hline, hreturn, htab]), if_neg hquote, hmark]

/-- A word ends where something else begins. -/
theorem lexFrom_word_end {letters : List Char} (hrest : IsBounded rest) :
    lexFrom found (.word letters) rest = lexFrom (.word letters.reverse :: found) .between rest := by
  cases rest with
  | nil => rfl
  | cons c rest =>
    have hends : endsWord c = true := hrest c rfl
    have hstep : lexStep (.word letters) c =
        some ((startToken c).1 ++ [.word letters.reverse], (startToken c).2) := by
      rw [lexStep, if_pos hends]
    have hbetween : lexStep .between c = some ((startToken c).1, (startToken c).2) := rfl
    rw [lexFrom_of_step hstep, lexFrom_of_step hbetween, List.append_assoc, List.singleton_append]

theorem lexFrom_letters {letters before : List Char} (h : ∀ c ∈ letters, endsWord c = false) :
    lexFrom found (.word before) (letters ++ rest) = lexFrom found (.word (letters.reverse ++ before)) rest := by
  induction letters generalizing before with
  | nil => rfl
  | cons c letters ih =>
    have hstep : lexStep (.word before) c = some ([], .word (c :: before)) := by
      rw [lexStep, if_neg (by simp [h c List.mem_cons_self])]
    rw [List.cons_append, lexFrom_of_step hstep, List.nil_append, ih fun d hd => h d (List.mem_cons_of_mem c hd),
      List.reverse_cons, List.append_assoc, List.singleton_append]

theorem lexFrom_word {letters : List Char} (h : IsWord letters) (hrest : IsBounded rest) :
    lexFrom found .between (letters ++ rest) = lexFrom (.word letters :: found) .between rest := by
  obtain ⟨c, tail, rfl⟩ := List.exists_cons_of_ne_nil h.ne_nil
  have hstep : lexStep .between c = some ([], .word [c]) :=
    congrArg some (startToken_of_inside (h.inside c List.mem_cons_self))
  have htail : ∀ d ∈ tail, endsWord d = false := fun d hd => h.inside d (List.mem_cons_of_mem c hd)
  rw [List.cons_append, lexFrom_of_step hstep, List.nil_append, lexFrom_letters htail, lexFrom_word_end hrest,
    List.reverse_append, List.reverse_reverse, List.reverse_singleton, List.singleton_append]

/-! ### Strings -/

theorem lexFrom_text_plain {units : List Nat} {c : Char} (hquote : c ≠ '"') (hescape : c ≠ '\\') :
    lexFrom found (.text units) (c :: rest) = lexFrom found (.text (c.toNat :: units)) rest := by
  have hstep : lexStep (.text units) c = some ([], .text (c.toNat :: units)) := by
    rw [lexStep, if_neg hquote, if_neg hescape]
  rw [lexFrom_of_step hstep, List.nil_append]

theorem lexFrom_text_escape {units : List Nat} {letter : Char} {u : Nat} (hu : letter ≠ 'u')
    (h : unescape? letter = some u) :
    lexFrom found (.text units) ('\\' :: letter :: rest) = lexFrom found (.text (u :: units)) rest := by
  have hslash : lexStep (.text units) '\\' = some ([], .escape units) := rfl
  have hletter : lexStep (.escape units) letter = some ([], .text (u :: units)) := by
    rw [lexStep, if_neg hu, h, Option.map_some]
  rw [lexFrom_of_step hslash, lexFrom_of_step hletter, List.nil_append, List.nil_append]

theorem lexFrom_text_unit {units : List Nat} {u : Nat} {ds : List Char} (h : IsUnit u ds) :
    lexFrom found (.text units) ('\\' :: 'u' :: (ds ++ rest)) = lexFrom found (.text (u :: units)) rest := by
  obtain @⟨a, b, c, d, i, j, k, l, ha, hb, hc, hd⟩ := h
  have hslash : lexStep (.text units) '\\' = some ([], .escape units) := rfl
  have hu : lexStep (.escape units) 'u' = some ([], .unit units 0 0) := rfl
  have hfirst : lexStep (.unit units 0 0) a = some ([], .unit units i 1) := by simp [lexStep, ha]
  have hsecond : lexStep (.unit units i 1) b = some ([], .unit units (i * 16 + j) 2) := by simp [lexStep, hb]
  have hthird : lexStep (.unit units (i * 16 + j) 2) c = some ([], .unit units ((i * 16 + j) * 16 + k) 3) := by
    simp [lexStep, hc]
  have hfourth : lexStep (.unit units ((i * 16 + j) * 16 + k) 3) d =
      some ([], .text ((((i * 16 + j) * 16 + k) * 16 + l) :: units)) := by
    simp [lexStep, hd]
  rw [lexFrom_of_step hslash, lexFrom_of_step hu]
  simp only [List.cons_append, List.nil_append]
  rw [lexFrom_of_step hfirst, lexFrom_of_step hsecond, lexFrom_of_step hthird, lexFrom_of_step hfourth]
  rfl

/-- The units that a character of a string is read as: itself, or the two units of its pair. -/
inductive IsUnitsOf : Char → List Nat → Prop where
  | one {c : Char} : IsUnitsOf c [c.toNat]
  | two {c : Char} {hi lo : Nat} (h : IsPair c hi lo) : IsUnitsOf c [hi, lo]

theorem lexFrom_spells {c : Char} {text : List Char} (h : Spells c text) :
    ∃ us, IsUnitsOf c us ∧ ∀ (found : List Token) (units : List Nat) (rest : List Char),
      lexFrom found (.text units) (text ++ rest) = lexFrom found (.text (us.reverse ++ units)) rest := by
  cases h with
  | plain hcontrol hquote hescape =>
    refine ⟨[c.toNat], .one, fun found units rest => ?_⟩
    exact lexFrom_text_plain hquote hescape
  | @short letter h =>
    have hall : ∀ e ∈ shortEscapes, e.1 ≠ 'u' ∧ unescape? e.1 = some e.2.toNat := by decide
    obtain ⟨hu, hletter⟩ := hall _ h
    refine ⟨[c.toNat], .one, fun found units rest => ?_⟩
    exact lexFrom_text_escape hu hletter
  | unit h =>
    refine ⟨[c.toNat], .one, fun found units rest => ?_⟩
    exact lexFrom_text_unit h
  | @pair hi lo ds es h hhi hlo =>
    refine ⟨[hi, lo], .two h, fun found units rest => ?_⟩
    simp only [List.cons_append, List.append_assoc]
    rw [lexFrom_text_unit hhi, lexFrom_text_unit hlo]
    rfl

/-- A character is a code point and no surrogate. -/
theorem toNat_lt_or (c : Char) : c.toNat < 0xD800 ∨ 0xE000 ≤ c.toNat ∧ c.toNat < 0x110000 := by
  have hvalid := c.valid
  have htoNat : c.toNat = c.val.toNat := rfl
  simp only [UInt32.isValidChar, Nat.isValidChar] at hvalid
  omega

theorem ofUnits_append {c : Char} {us : List Nat} (h : IsUnitsOf c us) (more : List Nat) :
    ofUnits (us ++ more) = c :: ofUnits more := by
  cases h with
  | one =>
    -- what is no surrogate is not taken for the first unit of a pair, whatever comes next
    have hscalar := toNat_lt_or c
    have hc : ¬ (0xD800 ≤ c.toNat ∧ c.toNat < 0xE000) := by omega
    cases more with
    | nil => simp only [List.append_nil, ofUnits, if_neg hc, Char.ofNat_toNat]
    | cons u more =>
      have hpair : ¬ (0xD800 ≤ c.toNat ∧ c.toNat < 0xDC00 ∧ 0xDC00 ≤ u ∧ u < 0xE000) := by omega
      rw [List.singleton_append, ofUnits, if_neg hpair, if_neg hc, Char.ofNat_toNat]
  | @two hi lo h =>
    have hpair : 0xD800 ≤ hi ∧ hi < 0xDC00 ∧ 0xDC00 ≤ lo ∧ lo < 0xE000 := ⟨h.high.1, h.high.2, h.low⟩
    rw [List.cons_append, List.singleton_append, ofUnits, if_pos hpair, ← h.value, Char.ofNat_toNat]

/-- The units of a string are collected and joined at its end, so they are described by what they give in front of any
others. -/
theorem lexFrom_spellsAll {cs text : List Char} (h : SpellsAll cs text) :
    ∃ us, (∀ more, ofUnits (us ++ more) = cs ++ ofUnits more) ∧
      ∀ (found : List Token) (units : List Nat) (rest : List Char),
        lexFrom found (.text units) (text ++ rest) = lexFrom found (.text (us.reverse ++ units)) rest := by
  induction h with
  | nil => exact ⟨[], fun more => rfl, fun found units rest => rfl⟩
  | cons h hrest ih =>
    obtain ⟨us, hus, hread⟩ := lexFrom_spells h
    obtain ⟨vs, hvs, hreadRest⟩ := ih
    refine ⟨us ++ vs, fun more => ?_, fun found units rest => ?_⟩
    · rw [List.append_assoc, ofUnits_append hus, hvs, List.cons_append]
    · rw [List.append_assoc, hread, hreadRest, List.reverse_append, List.append_assoc]

theorem lexFrom_quoted {s : String} {cs : List Char} (h : IsQuoted s cs) :
    lexFrom found .between (cs ++ rest) = lexFrom (.string s :: found) .between rest := by
  obtain ⟨h⟩ := h
  obtain ⟨us, hus, hread⟩ := lexFrom_spellsAll h
  have hopen : lexStep .between '"' = some ([], .text []) := rfl
  have hclose : lexStep (.text us.reverse) '"' = some ([.string s], .between) := by
    have hvalue := hus []
    rw [List.append_nil] at hvalue
    simp [lexStep, hvalue, ofUnits]
  rw [List.cons_append, lexFrom_of_step hopen, List.append_assoc, List.nil_append, hread, List.append_nil,
    List.singleton_append, lexFrom_of_step hclose, List.singleton_append]

end Lexer

/-! ### Numerals are words -/

theorem inside_of_isDigit {c : Char} (h : c.isDigit = true) : endsWord c = false := by
  by_contra hends
  have hmarks : c = ' ' ∨ c = '\n' ∨ c = '\r' ∨ c = '\t' ∨ c = '"' ∨ c = '[' ∨ c = ']' ∨ c = '\x7b' ∨ c = '\x7d' ∨
      c = ',' ∨ c = ':' := by
    by_contra hnone
    simp only [not_or] at hnone
    simp [endsWord, punctuation?, hnone] at hends
  rcases hmarks with rfl | rfl | rfl | rfl | rfl | rfl | rfl | rfl | rfl | rfl | rfl <;> cases h

theorem IsDigits.inside {ds : List Char} (h : IsDigits ds) : ∀ c ∈ ds, endsWord c = false :=
  fun c hc => inside_of_isDigit (h.isDigit c hc)

theorem IsInteger.isWord {n : Int} {cs : List Char} (h : IsInteger n cs) : IsWord cs := by
  cases h with
  | plain h => exact ⟨h.ne_nil, h.inside⟩
  | minus h => exact ⟨by simp, List.forall_mem_cons.mpr ⟨by decide, h.inside⟩⟩

theorem IsFraction.inside {cs : List Char} (h : IsFraction cs) : ∀ c ∈ cs, endsWord c = false := by
  cases h with
  | none => simp
  | point h => exact List.forall_mem_cons.mpr ⟨by decide, h.inside⟩

theorem IsExponent.inside {cs : List Char} (h : IsExponent cs) : ∀ c ∈ cs, endsWord c = false := by
  have hmark : ∀ mark : Char, mark = 'e' ∨ mark = 'E' → endsWord mark = false := by
    rintro mark (rfl | rfl) <;> decide
  cases h with
  | none => simp
  | unsigned hm h => exact List.forall_mem_cons.mpr ⟨hmark _ hm, h.inside⟩
  | signed hm hsign h =>
    refine List.forall_mem_cons.mpr ⟨hmark _ hm, List.forall_mem_cons.mpr ⟨?_, h.inside⟩⟩
    rcases hsign with rfl | rfl <;> decide

theorem IsReal.isWord {cs : List Char} (h : IsReal cs) : IsWord cs := by
  cases h with
  | numeral hsign hwhole hfraction hexponent hne =>
    refine ⟨by simp [hwhole.ne_nil], ?_⟩
    have hminus : ∀ c ∈ ['-'], endsWord c = false := List.forall_mem_singleton.mpr rfl
    rw [List.forall_mem_append, List.forall_mem_append, List.forall_mem_append]
    refine ⟨⟨?_, hwhole.inside⟩, hfraction.inside, hexponent.inside⟩
    rcases hsign with rfl | rfl
    · simp
    · exact hminus
  | name h =>
    have hnames : ∀ name ∈ ["NaN".toList, "Infinity".toList, "-Infinity".toList],
        name ≠ [] ∧ name.all (fun c => !endsWord c) = true := by decide
    exact .of_all (hnames _ h).1 (hnames _ h).2

/-! ### Token by token -/

theorem isBounded_cons {c : Char} {rest : List Char} (h : endsWord c = true) : IsBounded (c :: rest) := by
  intro d hd
  cases hd
  exact h

theorem isBounded_space {space rest : List Char} (h : IsSpace space) (hrest : IsBounded rest) :
    IsBounded (space ++ rest) := by
  cases space with
  | nil => exact hrest
  | cons c space =>
    refine isBounded_cons ?_
    rcases h c List.mem_cons_self with rfl | rfl | rfl | rfl <;> rfl

/-- The characters are cut into these tokens, whatever was read before them and whatever follows, unless a word goes
on there. -/
def Lexes (cs : List Char) (ts : List Token) : Prop :=
  ∀ (found : List Token) (rest : List Char), IsBounded rest →
    lexFrom found .between (cs ++ rest) = lexFrom (ts.reverse ++ found) .between rest

theorem lexes_nil : Lexes [] [] :=
  fun _ _ _ => rfl

theorem Lexes.space {space cs : List Char} {ts : List Token} (hspace : IsSpace space) (h : Lexes cs ts) :
    Lexes (space ++ cs) ts := by
  intro found rest hrest
  rw [List.append_assoc, lexFrom_space hspace]
  exact h found rest hrest

theorem Lexes.mark {c : Char} {t : Token} {cs : List Char} {ts : List Token}
    (ht : lexStep .between c = some ([t], .between)) (h : Lexes cs ts) : Lexes (c :: cs) (t :: ts) := by
  intro found rest hrest
  rw [List.cons_append, lexFrom_of_step ht, List.singleton_append, h _ _ hrest, List.reverse_cons,
    List.append_assoc, List.singleton_append]

theorem Lexes.append {a b : List Char} {ts us : List Token} (ha : Lexes a ts) (hb : Lexes b us)
    (hbounded : ∀ rest, IsBounded rest → IsBounded (b ++ rest)) : Lexes (a ++ b) (ts ++ us) := by
  intro found rest hrest
  rw [List.append_assoc, ha _ _ (hbounded rest hrest), hb _ _ hrest, List.reverse_append, List.append_assoc]

theorem IsWord.lexes {letters : List Char} (h : IsWord letters) : Lexes letters [.word letters] :=
  fun _ _ hrest => lexFrom_word h hrest

theorem IsQuoted.lexes {s : String} {cs : List Char} (h : IsQuoted s cs) : Lexes cs [.string s] :=
  fun _ _ _ => lexFrom_quoted h

/-- White space behind a token is skipped. -/
theorem Lexes.spaceAfter {cs space : List Char} {ts : List Token} (h : Lexes cs ts) (hspace : IsSpace space) :
    Lexes (cs ++ space) ts := by
  have hskip : Lexes (space ++ []) [] := lexes_nil.space hspace
  rw [List.append_nil] at hskip
  have happend := h.append hskip fun rest hrest => isBounded_space hspace hrest
  rwa [List.append_nil] at happend

/-- A token, white space and a mark. -/
theorem Lexes.spaceMark {cs space tail : List Char} {ts us : List Token} {c : Char} {t : Token} (h : Lexes cs ts)
    (hspace : IsSpace space) (ht : lexStep .between c = some ([t], .between)) (hends : endsWord c = true)
    (htail : Lexes tail us) : Lexes (cs ++ (space ++ c :: tail)) (ts ++ t :: us) := by
  refine h.append ((htail.mark ht).space hspace) fun rest _ => ?_
  rw [List.append_assoc]
  exact isBounded_space hspace (isBounded_cons hends)

/-- Tokens and the mark that closes them. -/
theorem Lexes.close {cs : List Char} {ts : List Token} {c : Char} {t : Token} (h : Lexes cs ts)
    (ht : lexStep .between c = some ([t], .between)) (hends : endsWord c = true) : Lexes (cs ++ [c]) (ts ++ [t]) :=
  h.append (lexes_nil.mark ht) fun _ _ => isBounded_cons hends

/-! ## The reader gives documents back -/

/-- The document is assembled from the tokens. -/
structure Assembles (v : Json) (ts : List Token) : Prop where
  value : ∀ frames more, assemble .value frames (ts ++ more) = assemble (.after v) frames more
  starts : ∃ t tail, ts = t :: tail ∧ t ≠ .closeArray

/-- The items of an array, or what is left of them, are assembled from the tokens. -/
structure AssemblesItems (items : List Json) (ts : List Token) : Prop where
  items : ∀ before frames more, assemble .value (.items before :: frames) (ts ++ .closeArray :: more) =
    assemble (.after (.array (before.reverse ++ items))) frames more
  starts : ∃ t tail, ts = t :: tail ∧ t ≠ .closeArray

/-- The fields of an object, or what is left of them, are assembled from the tokens. -/
def AssemblesFields (fields : List (String × Json)) (ts : List Token) : Prop :=
  ∀ before first frames more, assemble (.name before first) frames (ts ++ .closeObject :: more) =
    assemble (.after (.object (before.reverse ++ fields))) frames more

theorem assemble_value {frames : List Frame} {t : Token} {ts : List Token} {next : Expect}
    (h : startValue? t = some next) : assemble .value frames (t :: ts) = assemble next frames ts := by
  rw [assemble, h]

theorem assembles_of_startValue {v : Json} {t : Token} (h : startValue? t = some (.after v)) : Assembles v [t] := by
  refine ⟨fun frames more => ?_, t, [], rfl, ?_⟩
  · rw [List.singleton_append, assemble_value h]
  · rintro rfl
    cases h

-- behind an opening bracket the array may also be closed, which is why the tokens of a document are known to begin
-- with something else
theorem assemble_item {frames : List Frame} {t : Token} {ts : List Token} (h : t ≠ .closeArray) :
    assemble .item frames (t :: ts) = assemble .value (.items [] :: frames) (t :: ts) := by
  rw [assemble, assemble]
  exact h

theorem assembles_emptyArray : Assembles (.array []) [.openArray, .closeArray] :=
  ⟨fun frames more => by simp [assemble, startValue?], .openArray, _, rfl, by simp⟩

theorem assembles_emptyObject : Assembles (.object []) [.openObject, .closeObject] :=
  ⟨fun frames more => by simp [assemble, startValue?], .openObject, _, rfl, by simp⟩

theorem AssemblesItems.array {items : List Json} {ts : List Token} (h : AssemblesItems items ts) :
    Assembles (.array items) (.openArray :: (ts ++ [.closeArray])) := by
  refine ⟨fun frames more => ?_, .openArray, _, rfl, by simp⟩
  obtain ⟨t, tail, rfl, ht⟩ := h.starts
  have hitems := h.items [] frames more
  rw [List.cons_append] at hitems
  have hopen : startValue? .openArray = some .item := rfl
  rw [List.cons_append, assemble_value hopen, List.append_assoc, List.cons_append, assemble_item ht,
    List.singleton_append, hitems, List.reverse_nil, List.nil_append]

theorem AssemblesFields.object {fields : List (String × Json)} {ts : List Token} (h : AssemblesFields fields ts) :
    Assembles (.object fields) (.openObject :: (ts ++ [.closeObject])) := by
  refine ⟨fun frames more => ?_, .openObject, _, rfl, by simp⟩
  have hopen : startValue? .openObject = some (.name [] true) := rfl
  rw [List.cons_append, assemble_value hopen, List.append_assoc, List.singleton_append, h, List.reverse_nil,
    List.nil_append]

theorem Assembles.lastItem {v : Json} {ts : List Token} (h : Assembles v ts) : AssemblesItems [v] ts := by
  refine ⟨fun before frames more => ?_, h.starts⟩
  rw [h.value, assemble, List.reverse_cons]

theorem Assembles.item {v : Json} {rest : List Json} {ts us : List Token} (h : Assembles v ts)
    (hrest : AssemblesItems rest us) : AssemblesItems (v :: rest) (ts ++ .comma :: us) := by
  obtain ⟨t, tail, hts, ht⟩ := h.starts
  refine ⟨fun before frames more => ?_, t, tail ++ .comma :: us, by rw [hts, List.cons_append], ht⟩
  rw [List.append_assoc, h.value, List.cons_append, assemble, hrest.items, List.reverse_cons, List.append_assoc,
    List.singleton_append]

theorem Assembles.lastField {name : String} {v : Json} {ts : List Token} (h : Assembles v ts) :
    AssemblesFields [(name, v)] (.string name :: .colon :: ts) := by
  intro before first frames more
  have hname : assemble (.name before first) frames (.string name :: .colon :: (ts ++ .closeObject :: more)) =
      assemble .value (.fields before name :: frames) (ts ++ .closeObject :: more) := by
    cases first <;> rw [assemble, assemble]
  rw [List.cons_append, List.cons_append, hname, h.value, assemble, List.reverse_cons]

theorem Assembles.field {name : String} {v : Json} {rest : List (String × Json)} {ts us : List Token}
    (h : Assembles v ts) (hrest : AssemblesFields rest us) :
    AssemblesFields ((name, v) :: rest) (.string name :: .colon :: (ts ++ .comma :: us)) := by
  intro before first frames more
  have hname : ∀ tail, assemble (.name before first) frames (.string name :: .colon :: tail) =
      assemble .value (.fields before name :: frames) tail := by
    intro tail
    cases first <;> rw [assemble, assemble]
  rw [List.cons_append, List.cons_append, hname, List.append_assoc, h.value, List.cons_append, assemble, hrest,
    List.reverse_cons, List.append_assoc, List.singleton_append]

theorem IsWord.assembles {letters : List Char} {v : Json} (h : ofWord? letters = some v) :
    Assembles v [.word letters] :=
  assembles_of_startValue (by rw [startValue?, h, Option.map_some])

mutual

-- The lexer and the reader go through all tokens of a text, so neither can be run on a document alone. `Lexes` and
-- `Assembles` speak of the tokens of a document in front of any others, and that is what the induction carries.
/-- The tokens of a document, and the document assembled from them. -/
theorem Writes.tokens : ∀ {v : Json} {cs : List Char}, Writes v cs → ∃ ts, Lexes cs ts ∧ Assembles v ts
  | _, _, .null => ⟨_, (IsWord.of_all (by decide) (by decide)).lexes, IsWord.assembles rfl⟩
  | _, _, .true => ⟨_, (IsWord.of_all (by decide) (by decide)).lexes, IsWord.assembles rfl⟩
  | _, _, .false => ⟨_, (IsWord.of_all (by decide) (by decide)).lexes, IsWord.assembles rfl⟩
  | _, _, .int h => ⟨_, h.isWord.lexes, IsWord.assembles (ofWord?_of_isInteger h)⟩
  | _, _, .real h => by
    have hword := ofWord?_of_isReal h
    rw [String.ofList_toList] at hword
    exact ⟨_, h.isWord.lexes, IsWord.assembles hword⟩
  | _, _, .string h => ⟨_, h.lexes, assembles_of_startValue rfl⟩
  | _, _, .emptyArray hspace =>
    ⟨_, Lexes.mark rfl ((lexes_nil.mark rfl).space hspace), assembles_emptyArray⟩
  | _, _, .array h => by
    obtain ⟨ts, hlexes, hitems⟩ := h.tokens
    exact ⟨_, (hlexes.close rfl rfl).mark rfl, hitems.array⟩
  | _, _, .emptyObject hspace =>
    ⟨_, Lexes.mark rfl ((lexes_nil.mark rfl).space hspace), assembles_emptyObject⟩
  | _, _, .object h => by
    obtain ⟨ts, hlexes, hfields⟩ := h.tokens
    exact ⟨_, (hlexes.close rfl rfl).mark rfl, hfields.object⟩

theorem WritesItems.tokens : ∀ {items : List Json} {cs : List Char}, WritesItems items cs →
    ∃ ts, Lexes cs ts ∧ AssemblesItems items ts
  | _, _, .last hbefore h hafter => by
    obtain ⟨ts, hlexes, hv⟩ := h.tokens
    exact ⟨ts, (hlexes.spaceAfter hafter).space hbefore, hv.lastItem⟩
  | _, _, .more hbefore h hafter hrest => by
    obtain ⟨ts, hlexes, hv⟩ := h.tokens
    obtain ⟨us, hlexesRest, hitems⟩ := hrest.tokens
    exact ⟨_, (hlexes.spaceMark hafter rfl rfl hlexesRest).space hbefore, hv.item hitems⟩

theorem WritesFields.tokens : ∀ {fields : List (String × Json)} {cs : List Char}, WritesFields fields cs →
    ∃ ts, Lexes cs ts ∧ AssemblesFields fields ts
  | _, _, .last hbefore hname hbehind hbetween h hafter => by
    obtain ⟨ts, hlexes, hv⟩ := h.tokens
    have htail := (hlexes.spaceAfter hafter).space hbetween
    exact ⟨_, (hname.lexes.spaceMark hbehind rfl rfl htail).space hbefore, hv.lastField⟩
  | _, _, .more hbefore hname hbehind hbetween h hafter hrest => by
    obtain ⟨ts, hlexes, hv⟩ := h.tokens
    obtain ⟨us, hlexesRest, hfields⟩ := hrest.tokens
    have htail := (hlexes.spaceMark (c := ',') (t := .comma) hafter rfl rfl hlexesRest).space hbetween
    exact ⟨_, (hname.lexes.spaceMark hbehind rfl rfl htail).space hbefore, hv.field hfields⟩

end

/-- The reader gives back the document of every text. -/
theorem parse?_of_isTextOf {v : Json} {cs : List Char} (h : IsTextOf v cs) :
    parse? (String.ofList cs) = some v := by
  obtain ⟨hbefore, h, hafter⟩ := h
  obtain ⟨ts, hlexes, hv⟩ := h.tokens
  have hlex := ((hlexes.spaceAfter hafter).space hbefore) [] [] (by intro c hc; cases hc)
  have hassemble := hv.value [] []
  rw [List.append_nil] at hlex hassemble
  rw [parse?, String.toList_ofList, lex, hlex, List.append_nil, lexFrom, List.reverse_reverse]
  exact hassemble

/-- A text has one document at most. -/
theorem IsTextOf.unique {v w : Json} {cs : List Char} (hv : IsTextOf v cs) (hw : IsTextOf w cs) : v = w :=
  Option.some.inj ((parse?_of_isTextOf hv).symm.trans (parse?_of_isTextOf hw))

/-! ## Control characters -/

/-- There are no control characters but those of white space. -/
def IsClean (cs : List Char) : Prop :=
  ∀ c ∈ cs, 0x20 ≤ c.toNat ∨ c = '\n' ∨ c = '\r' ∨ c = '\t'

theorem isClean_nil : IsClean [] := by
  simp [IsClean]

theorem isClean_cons {c : Char} {cs : List Char} (hc : 0x20 ≤ c.toNat) (h : IsClean cs) : IsClean (c :: cs) :=
  List.forall_mem_cons.mpr ⟨.inl hc, h⟩

theorem IsClean.append {cs ds : List Char} (hcs : IsClean cs) (hds : IsClean ds) : IsClean (cs ++ ds) :=
  List.forall_mem_append.mpr ⟨hcs, hds⟩

theorem isClean_of_all {cs : List Char} (h : cs.all (fun c => 0x20 ≤ c.toNat) = true) : IsClean cs := by
  intro c hc
  exact .inl (of_decide_eq_true (List.all_eq_true.mp h c hc))

theorem IsSpace.isClean {cs : List Char} (h : IsSpace cs) : IsClean cs := by
  intro c hc
  rcases h c hc with rfl | hfeed
  · exact .inl (by decide)
  · exact .inr hfeed

theorem IsDigits.isClean {ds : List Char} (h : IsDigits ds) : IsClean ds := by
  intro c hc
  have hbounds := toNat_of_isDigit (h.isDigit c hc)
  exact .inl (by omega)

theorem IsInteger.isClean {n : Int} {cs : List Char} (h : IsInteger n cs) : IsClean cs := by
  cases h with
  | plain h => exact h.isClean
  | minus h => exact isClean_cons (by decide) h.isClean

theorem IsReal.isClean {cs : List Char} (h : IsReal cs) : IsClean cs := by
  cases h with
  | numeral hsign hwhole hfraction hexponent hne =>
    refine .append (.append ?_ hwhole.isClean) (.append ?_ ?_)
    · rcases hsign with rfl | rfl <;> exact isClean_of_all (by decide)
    · cases hfraction with
      | none => exact isClean_nil
      | point h => exact isClean_cons (by decide) h.isClean
    · cases hexponent with
      | none => exact isClean_nil
      | unsigned hmark h =>
        refine isClean_cons ?_ h.isClean
        rcases hmark with rfl | rfl <;> decide
      | signed hmark hsign h =>
        refine isClean_cons ?_ (isClean_cons ?_ h.isClean)
        · rcases hmark with rfl | rfl <;> decide
        · rcases hsign with rfl | rfl <;> decide
  | name h =>
    have hnames : ∀ name ∈ ["NaN".toList, "Infinity".toList, "-Infinity".toList],
        name.all (fun c => 0x20 ≤ c.toNat) = true := by decide
    exact isClean_of_all (hnames _ h)

theorem le_of_hexValue? {c : Char} {n : Nat} (h : hexValue? c = some n) : 0x20 ≤ c.toNat := by
  unfold hexValue? at h
  split at h
  · next hdigit => exact le_trans (by decide) (show '0'.toNat ≤ c.toNat from hdigit.1)
  · split at h
    · next hlower => exact le_trans (by decide) (show 'a'.toNat ≤ c.toNat from hlower.1)
    · split at h
      · next hupper => exact le_trans (by decide) (show 'A'.toNat ≤ c.toNat from hupper.1)
      · cases h

theorem IsUnit.isClean {n : Nat} {ds : List Char} (h : IsUnit n ds) : IsClean ds := by
  obtain ⟨ha, hb, hc, hd⟩ := h
  exact isClean_cons (le_of_hexValue? ha) (isClean_cons (le_of_hexValue? hb) (isClean_cons (le_of_hexValue? hc)
    (isClean_cons (le_of_hexValue? hd) isClean_nil)))

theorem Spells.isClean {c : Char} {text : List Char} (h : Spells c text) : IsClean text := by
  cases h with
  | plain hcontrol hquote hescape => exact isClean_cons hcontrol isClean_nil
  | short h =>
    have hletters : ∀ e ∈ shortEscapes, 0x20 ≤ e.1.toNat := by decide
    exact isClean_cons (by decide) (isClean_cons (hletters _ h) isClean_nil)
  | unit h => exact isClean_cons (by decide) (isClean_cons (by decide) h.isClean)
  | pair h hhi hlo =>
    refine .append ?_ ?_
    · exact isClean_cons (by decide) (isClean_cons (by decide) hhi.isClean)
    · exact isClean_cons (by decide) (isClean_cons (by decide) hlo.isClean)

theorem SpellsAll.isClean {cs text : List Char} (h : SpellsAll cs text) : IsClean text := by
  induction h with
  | nil => exact isClean_nil
  | cons h hrest ih => exact h.isClean.append ih

theorem IsQuoted.isClean {s : String} {cs : List Char} (h : IsQuoted s cs) : IsClean cs := by
  obtain ⟨h⟩ := h
  exact isClean_cons (by decide) (h.isClean.append (isClean_of_all (by decide)))

mutual

theorem Writes.isClean : ∀ {v : Json} {cs : List Char}, Writes v cs → IsClean cs
  | _, _, .null => isClean_of_all (by decide)
  | _, _, .true => isClean_of_all (by decide)
  | _, _, .false => isClean_of_all (by decide)
  | _, _, .int h => h.isClean
  | _, _, .real h => h.isClean
  | _, _, .string h => h.isClean
  | _, _, .emptyArray hspace => isClean_cons (by decide) (hspace.isClean.append (isClean_of_all (by decide)))
  | _, _, .array h => isClean_cons (by decide) (h.isClean.append (isClean_of_all (by decide)))
  | _, _, .emptyObject hspace => isClean_cons (by decide) (hspace.isClean.append (isClean_of_all (by decide)))
  | _, _, .object h => isClean_cons (by decide) (h.isClean.append (isClean_of_all (by decide)))

theorem WritesItems.isClean : ∀ {items : List Json} {cs : List Char}, WritesItems items cs → IsClean cs
  | _, _, .last hbefore h hafter => hbefore.isClean.append (h.isClean.append hafter.isClean)
  | _, _, .more hbefore h hafter hrest =>
    hbefore.isClean.append (h.isClean.append (hafter.isClean.append (isClean_cons (by decide) hrest.isClean)))

theorem WritesFields.isClean : ∀ {fields : List (String × Json)} {cs : List Char}, WritesFields fields cs →
    IsClean cs
  | _, _, .last hbefore hname hbehind hbetween h hafter =>
    hbefore.isClean.append (hname.isClean.append (hbehind.isClean.append (isClean_cons (by decide)
      (hbetween.isClean.append (h.isClean.append hafter.isClean)))))
  | _, _, .more hbefore hname hbehind hbetween h hafter hrest =>
    hbefore.isClean.append (hname.isClean.append (hbehind.isClean.append (isClean_cons (by decide)
      (hbetween.isClean.append (h.isClean.append (hafter.isClean.append
        (isClean_cons (by decide) hrest.isClean)))))))

end

/-- No text of a document holds a control character but white space. -/
theorem IsTextOf.isClean {v : Json} {cs : List Char} (h : IsTextOf v cs) : IsClean cs := by
  obtain ⟨hbefore, h, hafter⟩ := h
  exact hbefore.isClean.append (h.isClean.append hafter.isClean)

end Strata.Json
