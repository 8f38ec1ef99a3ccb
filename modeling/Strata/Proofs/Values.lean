import Mathlib.Data.List.TakeWhile
import Mathlib.Tactic
import Strata.Value.Basic

/-!
# Setting values: keys, the number one

What the schema of settings asks of values, in words of its own. A mapping has a value under a key that is a text if
its first entry with that key has it (`Value.Under`). Three kinds of values are the number one (`Value.IsOne`), among
them one double.
-/

namespace Strata

namespace Decimal

/-- Of the powers of two, one lies in the range of the mantissas that begin with a one bit. -/
theorem eq_of_mantissa_eq_pow {fraction k : ℕ} (hfraction : fraction < 2 ^ 52) (h : 2 ^ 52 + fraction = 2 ^ k) :
    fraction = 0 ∧ k = 52 := by
  have hlow : 2 ^ 52 ≤ 2 ^ k := by omega
  have hhigh : 2 ^ k < 2 ^ 53 := by omega
  have hlow := (Nat.pow_le_pow_iff_right (by norm_num : 1 < 2)).mp hlow
  have hhigh := (Nat.pow_lt_pow_iff_right (by norm_num : 1 < 2)).mp hhigh
  have hk : k = 52 := by omega
  subst hk
  omega

theorem scaleTwo_den_pos (n : ℕ) (q : Int) : 0 < (Ratio.scaleTwo n q).den := by
  rw [Ratio.scaleTwo]
  split
  · exact Nat.one_pos
  · exact Nat.pow_pos (by norm_num)

/-- If `n · 2^q` is one, then `n` is a power of two, and `q` undoes it. -/
theorem exists_pow_of_scaleTwo {n : ℕ} {q : Int} (h : (Ratio.scaleTwo n q).num = (Ratio.scaleTwo n q).den) :
    ∃ k : ℕ, n = 2 ^ k ∧ q = -k := by
  rw [Ratio.scaleTwo] at h
  split at h
  · next hq =>
    have hn : n = 1 := Nat.eq_one_of_mul_eq_one_right h
    have hpow : 2 ^ q.toNat = 1 := Nat.eq_one_of_mul_eq_one_left h
    have hzero : q.toNat = 0 := by
      rcases Nat.pow_eq_one.mp hpow with htwo | hzero
      · omega
      · exact hzero
    exact ⟨0, by simpa using hn, by omega⟩
  · next hq => exact ⟨(-q).toNat, h, by omega⟩

/-- A double that is one has the exponent bits of one, and neither a sign nor a fraction. -/
theorem bits_of_ofFloat {x : Float} {narrow : Bool} {k : ℕ} 
    (h : Binary.ofFloat x = .finite false (2 ^ k) (-k) narrow) : x.toBits.toNat = 1023 * 2 ^ 52 := by
  have hlt : x.toBits.toNat < 2 ^ 64 := x.toBits.toNat_lt
  unfold Binary.ofFloat at h
  generalize x.toBits.toNat = bits at h hlt
  simp only [Nat.pow_eq] at h
  have hfraction : bits % 2 ^ 52 < 2 ^ 52 := Nat.mod_lt _ (by norm_num)
  split at h
  · split at h <;> cases h
  · split at h
    · next hzero =>
      rw [Binary.finite.injEq] at h
      obtain ⟨-, hmantissa, hexponent, -⟩ := h
      have hlarge : 2 ^ 52 < 2 ^ k := Nat.pow_lt_pow_right Nat.one_lt_two (by omega)
      omega
    · next hne =>
      rw [Binary.finite.injEq] at h
      obtain ⟨hsign, hmantissa, hexponent, -⟩ := h
      obtain ⟨hzero, rfl⟩ := eq_of_mantissa_eq_pow hfraction hmantissa
      have hsign : bits / 2 ^ 63 ≠ 1 := by simpa using hsign
      omega

theorem ofFloat_of_bits {x : Float} (h : x.toBits.toNat = 1023 * 2 ^ 52) :
    Binary.ofFloat x = .finite false (2 ^ 52) (-52) true := by
  unfold Binary.ofFloat
  rw [h]
  decide

end Decimal

namespace Value

open Decimal

/-! ## The number one -/

/-- A double is the integer one iff it has the bits of one. -/
theorem floatIsInt_one_iff {x : Float} : floatIsInt x 1 = true ↔ x.toBits = 0x3FF0000000000000 := by
  have hbits : x.toBits = 0x3FF0000000000000 ↔ x.toBits.toNat = 1023 * 2 ^ 52 := by
    rw [← UInt64.toNat_inj]
    rfl
  rw [hbits]
  constructor
  · intro h
    unfold floatIsInt at h
    split at h
    · next negative mantissa exponent narrow hx =>
      have hden := scaleTwo_den_pos mantissa exponent
      have hpositive : negative = false ∧
          (Ratio.scaleTwo mantissa exponent).num = (Ratio.scaleTwo mantissa exponent).den := by
        cases negative <;> simp at h ⊢ <;> omega
      obtain ⟨rfl, hone⟩ := hpositive
      obtain ⟨k, rfl, rfl⟩ := exists_pow_of_scaleTwo hone
      exact bits_of_ofFloat hx
    · cases h
  · intro h
    rw [floatIsInt, ofFloat_of_bits h]
    decide

/-- The value is the number one: the integer, the truth value that counts as one, or the double with the bits of
one. -/
inductive IsOne : Value → Prop
  | int : IsOne (.int 1)
  | bool : IsOne (.bool true)
  | float {x : Float} (hx : x.toBits = 0x3FF0000000000000) : IsOne (.float x)

theorem sameKey_one_iff {v : Value} : v.sameKey (.int 1) = true ↔ v.IsOne := by
  cases v with
  | int n =>
    have hsame : (Value.int n).sameKey (.int 1) = (n == 1) := rfl
    rw [hsame, beq_iff_eq]
    constructor
    · rintro rfl
      exact .int
    · rintro ⟨⟩
      rfl
  | bool b =>
    cases b with
    | false => exact ⟨nofun, nofun⟩
    | true => exact ⟨fun _ => .bool, fun _ => rfl⟩
  | float x =>
    have hsame : (Value.float x).sameKey (.int 1) = floatIsInt x 1 := rfl
    rw [hsame, floatIsInt_one_iff]
    constructor
    · exact .float
    · rintro ⟨⟩
      assumption
  | _ => exact ⟨nofun, nofun⟩

/-! ## Keys -/

theorem sameKey_string_iff {v : Value} {s : String} : v.sameKey (.string s) = true ↔ v = .string s := by
  cases v <;> simp [sameKey, integer?]

instance (v : Value) (s : String) : Decidable (v = .string s) :=
  decidable_of_iff _ sameKey_string_iff

/-- What a mapping with these entries has under a key that is a text: the value of the first entry with that key, or
nothing if there is none. -/
inductive Under (entries : List (Value × Value)) (key : String) : Option Value → Prop
  | absent (hnone : ∀ e ∈ entries, e.1 ≠ .string key) : Under entries key none
  | given {before after : List (Value × Value)} {v : Value} (hentries : entries = before ++ (.string key, v) :: after)
      (hbefore : ∀ e ∈ before, e.1 ≠ .string key) : Under entries key (some v)

theorem get?_append {before : List (Value × Value)} {key : String} (hbefore : ∀ e ∈ before, e.1 ≠ .string key)
    (rest : List (Value × Value)) : get? key (before ++ rest) = get? key rest := by
  induction before with
  | nil => rfl
  | cons e before ih =>
    rw [List.forall_mem_cons] at hbefore
    have hne : ¬ e.1.sameKey (.string key) = true := fun h => hbefore.1 (sameKey_string_iff.mp h)
    have hskip : get? key (e :: (before ++ rest)) = get? key (before ++ rest) := if_neg hne
    rw [List.cons_append, hskip, ih hbefore.2]

theorem Under.cons {entries : List (Value × Value)} {key : String} {o : Option Value} (h : Under entries key o)
    {e : Value × Value} (he : e.1 ≠ .string key) : Under (e :: entries) key o := by
  rcases h with hnone | ⟨hentries, hbefore⟩
  · exact .absent (List.forall_mem_cons.mpr ⟨he, hnone⟩)
  · exact .given (congrArg (e :: ·) hentries) (List.forall_mem_cons.mpr ⟨he, hbefore⟩)

theorem under_iff {entries : List (Value × Value)} {key : String} {o : Option Value} :
    Under entries key o ↔ get? key entries = o := by
  constructor
  · rintro (hnone | ⟨rfl, hbefore⟩)
    · have hget := get?_append hnone []
      rwa [List.append_nil] at hget
    · rw [get?_append hbefore]
      exact if_pos (sameKey_string_iff.mpr rfl)
  · rintro rfl
    induction entries with
    | nil => exact .absent (by simp)
    | cons e entries ih =>
      by_cases hkey : e.1 = .string key
      · have hget : get? key (e :: entries) = some e.2 := if_pos (sameKey_string_iff.mpr hkey)
        rw [hget]
        have hentries : e :: entries = [] ++ (.string key, e.2) :: entries := by
          rw [← hkey]
          rfl
        exact .given hentries (by simp)
      · have hsingle : ∀ d ∈ [e], d.1 ≠ .string key := by simpa using hkey
        have hget : get? key (e :: entries) = get? key entries := get?_append hsingle entries
        rw [hget]
        exact ih.cons hkey

theorem exists_under_iff {entries : List (Value × Value)} {key : String} {P : Option Value → Prop} :
    (∃ o, Under entries key o ∧ P o) ↔ P (get? key entries) := by
  simp [under_iff]

end Value

end Strata
