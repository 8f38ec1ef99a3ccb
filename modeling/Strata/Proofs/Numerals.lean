import Mathlib.Tactic
import Strata.Decimal.Numeral
import Strata.Json.Reader

/-!
# Numerals

Integers are written with their digits and doubles with a point or an exponent. What is written is a numeral of JSON:
no zero stands in front of other digits, and a numeral is an integer exactly if it has neither fraction nor exponent.
So the kind of a number, and the value of an integer, can be read back (`ofWord?_of_isInteger`, `ofWord?_of_isReal`).
-/

namespace Strata

namespace Json

/-! ## The numerals of JSON -/

/-- At least one digit. -/
structure IsDigits (ds : List Char) : Prop where
  ne_nil : ds ≠ []
  isDigit : ∀ c ∈ ds, c.isDigit = true

/-- Digits without a zero in front of others. -/
structure IsWhole (ds : List Char) : Prop extends IsDigits ds where
  no_leading_zero : ds.head? = some '0' → ds = ['0']

/-- The numeral of an integer: an optional minus sign and its digits. -/
inductive IsInteger : Int → List Char → Prop where
  | plain {ds : List Char} (h : IsWhole ds) : IsInteger (Nat.ofDigitChars 10 ds 0) ds
  | minus {ds : List Char} (h : IsWhole ds) : IsInteger (-(Nat.ofDigitChars 10 ds 0 : Nat)) ('-' :: ds)

/-- The fraction of a numeral: nothing, or a point and digits. -/
inductive IsFraction : List Char → Prop where
  | none : IsFraction []
  | point {ds : List Char} (h : IsDigits ds) : IsFraction ('.' :: ds)

/-- The exponent of a numeral: nothing, or a mark, an optional sign and digits. -/
inductive IsExponent : List Char → Prop where
  | none : IsExponent []
  | unsigned {mark : Char} {ds : List Char} (hmark : mark = 'e' ∨ mark = 'E') (h : IsDigits ds) :
      IsExponent (mark :: ds)
  | signed {mark sign : Char} {ds : List Char} (hmark : mark = 'e' ∨ mark = 'E') (hsign : sign = '+' ∨ sign = '-')
      (h : IsDigits ds) : IsExponent (mark :: sign :: ds)

/-- The numeral of a number that is not written as an integer: it has a fraction or an exponent, or it is one of the
names that readers know besides the numerals. -/
inductive IsReal : List Char → Prop where
  | numeral {sign whole fraction exponent : List Char} (hsign : sign = [] ∨ sign = ['-']) (hwhole : IsWhole whole)
      (hfraction : IsFraction fraction) (hexponent : IsExponent exponent) (hne : fraction ++ exponent ≠ []) :
      IsReal (sign ++ whole ++ (fraction ++ exponent))
  | name {cs : List Char} (h : cs ∈ ["NaN".toList, "Infinity".toList, "-Infinity".toList]) : IsReal cs

theorem toNat_of_isDigit {c : Char} (h : c.isDigit = true) : 48 ≤ c.toNat ∧ c.toNat ≤ 57 := by
  have hbounds := Bool.and_eq_true_iff.mp h
  exact ⟨of_decide_eq_true hbounds.1, of_decide_eq_true hbounds.2⟩

theorem isDigits_zero : IsDigits ['0'] :=
  ⟨by simp, List.forall_mem_singleton.mpr rfl⟩

theorem isWhole_zero : IsWhole ['0'] :=
  ⟨isDigits_zero, fun _ => rfl⟩

theorem natOfDigits_eq (ds : List Char) : Text.natOfDigits ds = Nat.ofDigitChars 10 ds 0 := by
  rw [Text.natOfDigits, Nat.ofDigitChars_eq_foldl]
  congr 1
  funext n d
  rw [Nat.mul_comm]

theorem isDigits_iff {ds : List Char} : isDigits ds = true ↔ IsDigits ds := by
  simp only [isDigits, Bool.and_eq_true, Bool.not_eq_true', List.isEmpty_eq_false_iff, List.all_eq_true]
  exact ⟨fun h => ⟨h.1, h.2⟩, fun h => ⟨h.ne_nil, h.isDigit⟩⟩

/-- Does a word begin as numerals do, with a digit or with a minus sign and a digit? -/
def beginsAsNumeral : List Char → Bool
  | '-' :: d :: _ => d.isDigit
  | d :: _ => d.isDigit
  | [] => false

theorem IsDigits.beginsAsNumeral {ds sign : List Char} (h : IsDigits ds) (hsign : sign = [] ∨ sign = ['-'])
    (rest : List Char) : beginsAsNumeral (sign ++ ds ++ rest) = true := by
  obtain ⟨d, tail, rfl⟩ := List.exists_cons_of_ne_nil h.ne_nil
  have hd : d.isDigit = true := h.isDigit d List.mem_cons_self
  rcases hsign with rfl | rfl
  · have hne : d ≠ '-' := by
      rintro rfl
      cases hd
    unfold Json.beginsAsNumeral
    split <;> simp_all
  · exact hd

/-- A word that begins as numerals do is none of the names. -/
theorem ofWord?_of_beginsAsNumeral {cs : List Char} (h : beginsAsNumeral cs = true) :
    ofWord? cs = (intOfWord? cs).elim (if isNumeral cs then some (.real (String.ofList cs)) else none)
      fun n => some (.int n) := by
  have hne : ∀ name : String, beginsAsNumeral name.toList = false → String.ofList cs ≠ name := by
    rintro name hname rfl
    rw [String.toList_ofList, h] at hname
    cases hname
  have hnull := hne "null" (by decide)
  have htrue := hne "true" (by decide)
  have hfalse := hne "false" (by decide)
  have hnan := hne "NaN" (by decide)
  have hinfinity := hne "Infinity" (by decide)
  have hminus := hne "-Infinity" (by decide)
  simp only [ofWord?, hnull, htrue, hfalse, hnan, hinfinity, hminus, if_false, or_self]
  cases intOfWord? cs <;> rfl

theorem intOfWord?_of_isInteger {n : Int} {cs : List Char} (h : IsInteger n cs) : intOfWord? cs = some n := by
  cases h with
  | plain h =>
    obtain ⟨d, tail, hds⟩ := List.exists_cons_of_ne_nil h.ne_nil
    have hd : d ≠ '-' := by
      rintro rfl
      have := h.isDigit '-' (by simp [hds])
      cases this
    rw [intOfWord?, if_pos (isDigits_iff.mpr h.toIsDigits), natOfDigits_eq]
    rintro ds rfl
    cases hds
    exact hd rfl
  | minus h => rw [intOfWord?, if_pos (isDigits_iff.mpr h.toIsDigits), natOfDigits_eq]

/-- The numeral of an integer is read as that integer. -/
theorem ofWord?_of_isInteger {n : Int} {cs : List Char} (h : IsInteger n cs) : ofWord? cs = some (.int n) := by
  have hbegins : beginsAsNumeral cs = true := by
    cases h with
    | plain h => simpa using h.beginsAsNumeral (Or.inl rfl) []
    | minus h => simpa using h.beginsAsNumeral (Or.inr rfl) []
  rw [ofWord?_of_beginsAsNumeral hbegins, intOfWord?_of_isInteger h, Option.elim_some]

/-- Digits end where something else follows them. -/
theorem span_isDigit {ds rest : List Char} (hds : ∀ c ∈ ds, c.isDigit = true)
    (hrest : ∀ c ∈ rest.head?, c.isDigit = false) : (ds ++ rest).span Char.isDigit = (ds, rest) := by
  rw [List.span_eq_takeWhile_dropWhile, List.takeWhile_append_of_pos hds, List.dropWhile_append_of_pos hds]
  cases rest with
  | nil => simp
  | cons c rest =>
    have hc : c.isDigit = false := hrest c rfl
    rw [List.takeWhile_cons_of_neg (by simp [hc]), List.dropWhile_cons_of_neg (by simp [hc]), List.append_nil]

theorem IsExponent.head? {cs : List Char} (h : IsExponent cs) : ∀ c ∈ cs.head?, c = 'e' ∨ c = 'E' := by
  intro c hc
  cases h with
  | none => cases hc
  | unsigned hmark h =>
    cases hc
    exact hmark
  | signed hmark hsign h =>
    cases hc
    exact hmark

/-- Behind the whole part of a numeral there is no digit. -/
theorem head?_fraction_append {fraction exponent : List Char} (hfraction : IsFraction fraction)
    (hexponent : IsExponent exponent) : ∀ c ∈ (fraction ++ exponent).head?, c.isDigit = false := by
  intro c hc
  cases hfraction with
  | none =>
    rcases hexponent.head? c hc with rfl | rfl <;> rfl
  | point h =>
    cases hc
    rfl

/-- The sign of a numeral is told from its digits. -/
theorem IsDigits.unsigned_eq {sign ds : List Char} (h : IsDigits ds) (hsign : sign = [] ∨ sign = ['-'])
    (rest : List Char) :
    (if (sign ++ ds ++ rest).head? = some '-' then (sign ++ ds ++ rest).tail else sign ++ ds ++ rest) =
      ds ++ rest := by
  obtain ⟨d, tail, rfl⟩ := List.exists_cons_of_ne_nil h.ne_nil
  have hd : d ≠ '-' := by
    rintro rfl
    cases h.isDigit '-' List.mem_cons_self
  rcases hsign with rfl | rfl
  · simp [hd]
  · simp

theorem splitFraction_append {fraction exponent : List Char} (hfraction : IsFraction fraction)
    (hexponent : IsExponent exponent) :
    ∃ ds, splitFraction (fraction ++ exponent) = (ds, exponent) ∧ IsDigits ds := by
  cases hfraction with
  | none =>
    refine ⟨['0'], ?_, isDigits_zero⟩
    rw [List.nil_append, splitFraction]
    rintro rest rfl
    rcases hexponent.head? '.' rfl with h | h <;> cases h
  | point h =>
    have hhead : ∀ c ∈ exponent.head?, c.isDigit = false := by
      intro c hc
      rcases hexponent.head? c hc with rfl | rfl <;> rfl
    exact ⟨_, span_isDigit h.isDigit hhead, h⟩

theorem IsExponent.exponentDigits? {exponent : List Char} (h : IsExponent exponent) :
    ∃ ds, exponentDigits? exponent = some ds ∧ IsDigits ds := by
  cases h with
  | none => exact ⟨['0'], rfl, isDigits_zero⟩
  | @unsigned mark ds hmark h =>
    have hsign : ¬ (ds.head? = some '+' ∨ ds.head? = some '-') := by
      rintro (hhead | hhead) <;> cases h.isDigit _ (List.mem_of_mem_head? hhead)
    exact ⟨ds, by rw [Json.exponentDigits?, if_pos hmark, if_neg hsign], h⟩
  | @signed mark sign ds hmark hsign h =>
    have hhead : (sign :: ds).head? = some '+' ∨ (sign :: ds).head? = some '-' := by simpa using hsign
    exact ⟨ds, by rw [Json.exponentDigits?, if_pos hmark, if_pos hhead, List.tail_cons], h⟩

theorem isNumeral_of_parts {sign whole fraction exponent : List Char} (hsign : sign = [] ∨ sign = ['-'])
    (hwhole : IsWhole whole) (hfraction : IsFraction fraction) (hexponent : IsExponent exponent) :
    isNumeral (sign ++ whole ++ (fraction ++ exponent)) = true := by
  have hspan := span_isDigit hwhole.isDigit (head?_fraction_append hfraction hexponent)
  obtain ⟨ds, hsplit, hds⟩ := splitFraction_append hfraction hexponent
  obtain ⟨es, hes, hdigits⟩ := hexponent.exponentDigits?
  simp only [isNumeral, hwhole.unsigned_eq hsign, hspan, hsplit, hes, Option.any_some, Bool.and_eq_true,
    isDigits_iff]
  exact ⟨⟨hwhole.toIsDigits, hds⟩, hdigits⟩

/-- A numeral with a fraction or an exponent does not consist of digits. -/
theorem intOfWord?_of_parts {sign whole fraction exponent : List Char} (hsign : sign = [] ∨ sign = ['-'])
    (hwhole : IsWhole whole) (hfraction : IsFraction fraction) (hexponent : IsExponent exponent)
    (hne : fraction ++ exponent ≠ []) : intOfWord? (sign ++ whole ++ (fraction ++ exponent)) = none := by
  have hdigits : isDigits (whole ++ (fraction ++ exponent)) = false := by
    obtain ⟨c, rest, hrest⟩ := List.exists_cons_of_ne_nil hne
    have hc := head?_fraction_append hfraction hexponent c (by rw [hrest]; rfl)
    rw [← Bool.not_eq_true, isDigits_iff, hrest]
    intro h
    have hdigit := h.isDigit c (by simp)
    rw [hc] at hdigit
    cases hdigit
  rcases hsign with rfl | rfl
  · rw [List.nil_append, intOfWord?, hdigits]
    · rfl
    · intro ds heq
      have hunsigned := hwhole.unsigned_eq (Or.inl rfl) (fraction ++ exponent)
      rw [List.nil_append, heq] at hunsigned
      simp at hunsigned
  · rw [List.singleton_append, List.cons_append, intOfWord?, hdigits]
    rfl

/-- A numeral that is no integer is read as it is written. -/
theorem ofWord?_of_isReal {cs : List Char} (h : IsReal cs) : ofWord? cs = some (.real (String.ofList cs)) := by
  cases h with
  | numeral hsign hwhole hfraction hexponent hne =>
    rw [ofWord?_of_beginsAsNumeral (hwhole.beginsAsNumeral hsign _),
      intOfWord?_of_parts hsign hwhole hfraction hexponent hne, Option.elim_none,
      if_pos (isNumeral_of_parts hsign hwhole hfraction hexponent)]
  | name h =>
    simp only [List.mem_cons, List.not_mem_nil, or_false] at h
    rcases h with rfl | rfl | rfl <;> rfl

/-! ## How integers are written -/

theorem isDigits_toDigits (n : Nat) : IsDigits (Nat.toDigits 10 n) :=
  ⟨Nat.toDigits_ne_nil, fun _ hc => Nat.isDigit_of_mem_toDigits (by decide) (by decide) hc⟩

/-- The digits of a positive number do not begin with a zero. -/
theorem head?_toDigits {n : Nat} (h : 0 < n) : (Nat.toDigits 10 n).head? ≠ some '0' := by
  induction n using Nat.strong_induction_on with
  | _ n ih =>
    by_cases hn : n < 10
    · rw [Nat.toDigits_of_lt_base hn]
      have hdigit : ∀ k < 10, 0 < k → Nat.digitChar k ≠ '0' := by decide
      intro heq
      exact hdigit n hn h (Option.some.inj heq)
    · have hstep := ih (n / 10) (by omega) (by omega)
      rw [Nat.toDigits_of_base_le (by decide) (by omega), List.head?_append_of_ne_nil _ Nat.toDigits_ne_nil]
      exact hstep

theorem isWhole_toDigits (n : Nat) : IsWhole (Nat.toDigits 10 n) where
  toIsDigits := isDigits_toDigits n
  no_leading_zero hhead := by
    rcases Nat.eq_zero_or_pos n with rfl | hn
    · rfl
    · exact absurd hhead (head?_toDigits hn)

/-- An integer is written as a numeral of that integer. -/
theorem isInteger_toString (n : Int) : IsInteger n (toString n).toList := by
  rw [Int.toString_eq_repr]
  cases n with
  | ofNat k =>
    have h := IsInteger.plain (isWhole_toDigits k)
    rw [Nat.ofDigitChars_ten_toDigits] at h
    rw [Int.repr, Nat.toList_repr]
    exact h
  | negSucc k =>
    have h := IsInteger.minus (isWhole_toDigits (k + 1))
    rw [Nat.ofDigitChars_ten_toDigits] at h
    rw [Int.repr, String.toList_append, Nat.toList_repr]
    exact h

/-- Integers that are written alike are equal. -/
theorem toString_int_injective {m n : Int} (h : toString m = toString n) : m = n := by
  have hm := ofWord?_of_isInteger (isInteger_toString m)
  have hn := ofWord?_of_isInteger (isInteger_toString n)
  rw [h, hn] at hm
  cases hm
  rfl

theorem mem_toString_int {n : Int} {c : Char} (h : c ∈ (toString n).toList) : c = '-' ∨ c.isDigit = true := by
  have hinteger := isInteger_toString n
  generalize (toString n).toList = cs at h hinteger
  cases hinteger with
  | plain hwhole => exact Or.inr (hwhole.isDigit c h)
  | minus hwhole =>
    rcases List.mem_cons.mp h with rfl | h
    · exact Or.inl rfl
    · exact Or.inr (hwhole.isDigit c h)

end Json

/-! ## How doubles are written -/

namespace Decimal

open Json (IsDigits IsWhole IsFraction IsExponent IsReal)

theorem scaleTwo_num_pos {n : Nat} (h : 0 < n) (q : Int) : 0 < (Ratio.scaleTwo n q).num := by
  unfold Ratio.scaleTwo
  split
  · exact Nat.mul_pos h (Nat.pow_pos (by decide))
  · exact h

theorem scaleTen_num_pos {r : Ratio} (h : 0 < r.num) (e : Int) : 0 < (r.scaleTen e).num := by
  unfold Ratio.scaleTen
  split
  · exact Nat.mul_pos h (Nat.pow_pos (by decide))
  · exact h

theorem dropZeros_pos {n : Nat} (h : 0 < n) (fuel : Nat) : 0 < dropZeros fuel n := by
  induction fuel generalizing n with
  | zero => exact h
  | succ fuel ih =>
    rw [dropZeros]
    split
    · exact ih (by omega)
    · exact h

/-- What lies in the rounding interval of a positive value is positive. -/
theorem candidate_pos {value low high : Ratio} {closed : Bool} {magnitude : Int} {count n : Nat}
    (hlow : 0 < low.num) (h : candidate value low high closed magnitude count = some n) : 0 < n := by
  have hlo := scaleTen_num_pos hlow ((count : Int) - 1 - magnitude)
  simp only [candidate] at h
  generalize value.scaleTen ((count : Int) - 1 - magnitude) = v at h
  generalize low.scaleTen ((count : Int) - 1 - magnitude) = lo at h hlo
  generalize high.scaleTen ((count : Int) - 1 - magnitude) = hi at h
  generalize v.num / v.den = below at h
  by_cases hin : if closed = true then lo.num ≤ below * lo.den else lo.num < below * lo.den
  · have hpos : 0 < below := by
      rcases Nat.eq_zero_or_pos below with rfl | hpos
      · rw [Nat.zero_mul] at hin
        split at hin <;> omega
      · exact hpos
    split_ifs at h <;> cases h <;> omega
  · -- only the neighbour above is left
    simp only [hin, decide_false, Bool.false_and, Bool.false_eq_true, if_false, Option.ite_none_right_eq_some,
      Option.some.injEq] at h
    omega

theorem firstGrid_pos {value low high : Ratio} {closed : Bool} {magnitude : Int} (hlow : 0 < low.num)
    (fuel count : Nat) : 0 < (firstGrid value low high closed magnitude fuel count).digits := by
  induction fuel generalizing count with
  | zero => exact Nat.one_pos
  | succ fuel ih =>
    rw [firstGrid]
    split
    · next n hn => exact dropZeros_pos (candidate_pos hlow hn) _
    · exact ih (count + 1)

theorem shortest_pos {mantissa : Nat} (h : mantissa ≠ 0) (exponent : Int) (narrow : Bool) :
    0 < (shortest mantissa exponent narrow).digits := by
  refine firstGrid_pos (scaleTwo_num_pos ?_ _) _ _
  split <;> omega

theorem isDigits_append_replicate {ds : List Char} (h : IsDigits ds) (k : Nat) :
    IsDigits (ds ++ List.replicate k '0') where
  ne_nil := by simp [h.ne_nil]
  isDigit c hc := by
    rcases List.mem_append.mp hc with hc | hc
    · exact h.isDigit c hc
    · rw [List.eq_of_mem_replicate hc]
      rfl

theorem isDigits_replicate_append {ds : List Char} (h : IsDigits ds) (k : Nat) :
    IsDigits (List.replicate k '0' ++ ds) where
  ne_nil := by simp [h.ne_nil]
  isDigit c hc := by
    rcases List.mem_append.mp hc with hc | hc
    · rw [List.eq_of_mem_replicate hc]
      rfl
    · exact h.isDigit c hc

/-- The digits behind the first ones, if there are any, are digits. -/
theorem isDigits_drop {ds : List Char} (h : IsDigits ds) {k : Nat} (hne : ¬ (ds.drop k).isEmpty = true) :
    IsDigits (ds.drop k) :=
  ⟨by simpa using hne, fun c hc => h.isDigit c (List.mem_of_mem_drop hc)⟩

theorem isExponent_padded (width : Nat) (e : Int) :
    IsExponent ('e' :: (if e < 0 then '-' else '+') :: Text.padded width e.natAbs) := by
  have hdigits : IsDigits (Text.padded width e.natAbs) := isDigits_replicate_append (Json.isDigits_toDigits _) _
  refine .signed (Or.inl rfl) ?_ hdigits
  split
  · exact Or.inr rfl
  · exact Or.inl rfl

/-- The first digits of a positive number do not begin with a zero, whatever number of zeros follows them. -/
theorem isWhole_take {n : Nat} (hn : 0 < n) (k zeros : Nat) :
    IsWhole ((Nat.toDigits 10 n).take (k + 1) ++ List.replicate zeros '0') := by
  have hdigits := Json.isDigits_toDigits n
  have hhead := Json.head?_toDigits hn
  obtain ⟨d, rest, hds⟩ := List.exists_cons_of_ne_nil hdigits.ne_nil
  rw [hds] at hdigits hhead ⊢
  have htake : IsDigits ((d :: rest).take (k + 1)) :=
    ⟨by simp, fun c hc => hdigits.isDigit c (List.mem_of_mem_take hc)⟩
  refine ⟨isDigits_append_replicate htake zeros, ?_⟩
  intro h
  exact absurd h hhead

/-- Digits with a point or an exponent are a numeral. -/
theorem isReal_layout (style : Style) {d : Digits} (hd : 0 < d.digits) {sign : List Char}
    (hsign : sign = [] ∨ sign = ['-']) : IsReal (sign ++ style.layout d) := by
  simp only [Style.layout]
  have hwhole := isWhole_take hd
  have hdigits := Json.isDigits_toDigits d.digits
  generalize Nat.toDigits 10 d.digits = ds at hdigits hwhole ⊢
  by_cases hpositional : style.positionalFrom ≤ d.exponent ∧ d.exponent < style.positionalTo
  · rw [if_pos hpositional]
    by_cases hexponent : 0 ≤ d.exponent
    · -- the point stands behind some of the digits, or behind all of them and some zeros
      have hfraction : IsDigits (if (ds.drop (d.exponent.toNat + 1)).isEmpty then ['0']
          else ds.drop (d.exponent.toNat + 1)) := by
        split
        · exact Json.isDigits_zero
        · next hne => exact isDigits_drop hdigits hne
      have h := IsReal.numeral hsign (hwhole d.exponent.toNat (d.exponent.toNat + 1 - ds.length))
        (.point hfraction) .none (by simp)
      rw [if_pos hexponent]
      simpa only [List.append_assoc, List.cons_append, List.append_nil] using h
    · -- the point stands in front of all digits
      have hplaces := isDigits_replicate_append hdigits ((-d.exponent).toNat - 1)
      have h := IsReal.numeral hsign Json.isWhole_zero (.point hplaces) .none (by simp)
      rw [if_neg hexponent]
      simpa only [List.append_assoc, List.cons_append, List.append_nil, List.nil_append] using h
  · have hpoint : IsFraction (if (ds.drop 1).isEmpty then [] else '.' :: ds.drop 1) := by
      split
      · exact .none
      · next hne => exact .point (isDigits_drop hdigits hne)
    have h := IsReal.numeral hsign (hwhole 0 0) hpoint (isExponent_padded style.exponentWidth d.exponent) (by simp)
    rw [if_neg hpositional]
    simpa only [List.replicate_zero, List.append_nil, List.append_assoc, List.cons_append] using h

theorem isReal_zero {sign : List Char} (hsign : sign = [] ∨ sign = ['-']) : IsReal (sign ++ ['0', '.', '0']) := by
  have h := IsReal.numeral hsign Json.isWhole_zero (.point Json.isDigits_zero) .none (by simp)
  simpa only [List.append_assoc, List.cons_append, List.append_nil, List.nil_append] using h

/-- In every style a double is written as a numeral or by one of the names of the style. -/
theorem render_cases (style : Style) (x : Float) :
    (style.render x).toList ∈ [style.nan.toList, style.infinity.toList, '-' :: style.infinity.toList] ∨
      IsReal (style.render x).toList := by
  have hsign : ∀ negative : Bool, (if negative then ['-'] else []) = [] ∨
      (if negative then ['-'] else []) = ['-'] := by decide
  have hsigned : ∀ (negative : Bool) (cs : List Char),
      (String.ofList (if negative then '-' :: cs else cs)).toList = (if negative then ['-'] else []) ++ cs := by
    intro negative cs
    cases negative <;> simp
  simp only [Style.render]
  cases Binary.ofFloat x with
  | nan => exact Or.inl (by simp)
  | infinite negative => cases negative <;> exact Or.inl (by simp)
  | finite negative m q narrow =>
    right
    cases m with
    | zero =>
      have h := isReal_zero (hsign negative)
      rw [← hsigned] at h
      exact h
    | succ k =>
      have h := isReal_layout style (shortest_pos k.succ_ne_zero q narrow) (hsign negative)
      rw [← hsigned] at h
      exact h

/-- Every double is written as a numeral or by one of the names. -/
theorem isReal_render (x : Float) : IsReal (json.render x).toList := by
  rcases render_cases json x with hname | hreal
  · exact .name hname
  · exact hreal

end Decimal

end Strata
