import Mathlib.Tactic
import Strata.Text.Utf8

/-!
# Decoding UTF-8: the decoder accepts exactly the encodings of texts

A byte sequence decodes to a text iff it is the encoding of that text (`decode_eq_ok_iff`), so the decoder
reports a fault exactly for the sequences that encode nothing (`exists_decode_error_iff`).

The bytes are read one at a time, so the argument goes through the states: what a state `within` a sequence still
accepts is said by `decodeFrom_last` and `decodeFrom_more`, and the four lengths of a sequence are matched with
the four cases of the encoding.
-/

namespace Strata.Text.Utf8

/-! ## Sequences of several bytes -/

/-- A byte from `C2` to `DF` starts a sequence of two. -/
theorem start?_two {b : UInt8} (h : 0xC2 ≤ b.toNat ∧ b.toNat ≤ 0xDF) :
    start? b = some (.within b 0 1 (b.toNat - 0xC0) 0x80 0xBF) := by
  simp only [start?]
  rw [if_pos h]

/-- A byte from `E0` to `EF` starts a sequence of three. After `E0` the second byte must be high, lest there be a
shorter encoding, and after `ED` it must be low, lest a surrogate be encoded. -/
theorem start?_three {b : UInt8} (h : 0xE0 ≤ b.toNat ∧ b.toNat ≤ 0xEF) :
    start? b = some (.within b 0 2 (b.toNat - 0xE0) (if b.toNat = 0xE0 then 0xA0 else 0x80)
      (if b.toNat = 0xED then 0x9F else 0xBF)) := by
  simp only [start?]
  rw [if_neg (by omega)]
  by_cases h0 : b.toNat = 0xE0
  · simp [h0]
  · by_cases hd : b.toNat = 0xED
    · simp [hd]
    · rw [if_neg h0, if_neg hd, if_pos (by omega), if_neg h0, if_neg hd]

/-- A byte from `F0` to `F4` starts a sequence of four. After `F0` the second byte must be high, and after `F4` it
must be low, lest the code point be too large. -/
theorem start?_four {b : UInt8} (h : 0xF0 ≤ b.toNat ∧ b.toNat ≤ 0xF4) :
    start? b = some (.within b 0 3 (b.toNat - 0xF0) (if b.toNat = 0xF0 then 0x90 else 0x80)
      (if b.toNat = 0xF4 then 0x8F else 0xBF)) := by
  simp only [start?]
  rw [if_neg (by omega), if_neg (by omega), if_neg (by omega), if_neg (by omega)]
  by_cases h0 : b.toNat = 0xF0
  · simp [h0]
  · by_cases h4 : b.toNat = 0xF4
    · simp [h4]
    · rw [if_neg h0, if_neg h4, if_pos (by omega), if_neg h0, if_neg h4]

/-- No other byte starts a sequence of several. -/
theorem start?_none {b : UInt8} (h : b.toNat < 0xC2 ∨ 0xF4 < b.toNat) : start? b = none := by
  simp only [start?]
  rw [if_neg (by omega), if_neg (by omega), if_neg (by omega), if_neg (by omega), if_neg (by omega),
    if_neg (by omega), if_neg (by omega)]

/-- A sequence that misses one byte goes on with a byte in the range of its state, and then a character is
complete. -/
theorem decodeFrom_last {offset more value low high : Nat} {first : UInt8} {found r : List Char}
    {bs : List UInt8} :
    decodeFrom offset found (.within first more 1 value low high) bs = .ok r ↔
      ∃ b rest, bs = b :: rest ∧ (low ≤ b.toNat ∧ b.toNat ≤ high) ∧
        decodeFrom (offset + 1) (Char.ofNat (value * 64 + (b.toNat - 0x80)) :: found) .ready rest = .ok r := by
  cases bs with
  | nil => simp [decodeFrom]
  | cons b rest =>
    by_cases h : low ≤ b.toNat ∧ b.toNat ≤ high
    · simp [decodeFrom, step, h]
    · simp [decodeFrom, step, h]

/-- A sequence that misses more bytes goes on with a byte in the range of its state, and the next one may be any
that continues a sequence. -/
theorem decodeFrom_more {offset more missing value low high : Nat} {first : UInt8} {found r : List Char}
    {bs : List UInt8} :
    decodeFrom offset found (.within first more (missing + 2) value low high) bs = .ok r ↔
      ∃ b rest, bs = b :: rest ∧ (low ≤ b.toNat ∧ b.toNat ≤ high) ∧
        decodeFrom (offset + 1) found (.within first (more + 1) (missing + 1)
          (value * 64 + (b.toNat - 0x80)) 0x80 0xBF) rest = .ok r := by
  cases bs with
  | nil => simp [decodeFrom]
  | cons b rest =>
    by_cases h : low ≤ b.toNat ∧ b.toNat ≤ high
    · simp [decodeFrom, step, h]
    · simp [decodeFrom, step, h]

/-- The first byte of a sequence of several. -/
theorem decodeFrom_start {offset : Nat} {found : List Char} {b : UInt8} {bs : List UInt8} {st : State}
    (hb : ¬ b.toNat < 0x80) (hs : start? b = some st) :
    decodeFrom offset found .ready (b :: bs) = decodeFrom (offset + 1) found st bs := by
  simp only [decodeFrom, step, hb, if_false, hs]

/-! ## The encoding of a decoded character -/

theorem toNat_ofNat_of_valid {n : Nat} (h : n.isValidChar) : (Char.ofNat n).val.toNat = n := by
  rw [Char.ofNat, dif_pos h]
  rfl

theorem ofNat_eq_byte {b : UInt8} {n : Nat} (h : n = b.toNat) : UInt8.ofNat n = b := by
  rw [h, UInt8.ofNat_toNat]

theorem encodeChar_one {b : UInt8} (hb : b.toNat < 0x80) :
    String.utf8EncodeChar (Char.ofNat b.toNat) = [b] := by
  have hv : (Char.ofNat b.toNat).val.toNat = b.toNat := toNat_ofNat_of_valid (Or.inl (by omega))
  simp only [String.utf8EncodeChar, hv]
  rw [if_pos (by omega), UInt8.ofNat_toNat]

theorem encodeChar_two {b c : UInt8} (hb : 0xC2 ≤ b.toNat ∧ b.toNat ≤ 0xDF)
    (hc : 0x80 ≤ c.toNat ∧ c.toNat ≤ 0xBF) :
    String.utf8EncodeChar (Char.ofNat ((b.toNat - 0xC0) * 64 + (c.toNat - 0x80))) = [b, c] := by
  have hv : (Char.ofNat ((b.toNat - 0xC0) * 64 + (c.toNat - 0x80))).val.toNat =
      (b.toNat - 0xC0) * 64 + (c.toNat - 0x80) := toNat_ofNat_of_valid (Or.inl (by omega))
  simp only [String.utf8EncodeChar, hv]
  rw [if_neg (by omega), if_pos (by omega), ofNat_eq_byte (b := b) (by omega),
    ofNat_eq_byte (b := c) (by omega)]

theorem encodeChar_three {b c d : UInt8} (hb : 0xE0 ≤ b.toNat ∧ b.toNat ≤ 0xEF)
    (hc : (if b.toNat = 0xE0 then 0xA0 else 0x80) ≤ c.toNat ∧
      c.toNat ≤ (if b.toNat = 0xED then 0x9F else 0xBF))
    (hd : 0x80 ≤ d.toNat ∧ d.toNat ≤ 0xBF) :
    String.utf8EncodeChar (Char.ofNat
      (((b.toNat - 0xE0) * 64 + (c.toNat - 0x80)) * 64 + (d.toNat - 0x80))) = [b, c, d] := by
  have hlow : 0x80 ≤ c.toNat ∧ c.toNat ≤ 0xBF := by split at hc <;> split at hc <;> omega
  have hlong : b.toNat = 0xE0 → 0xA0 ≤ c.toNat := by
    intro h
    simpa [h] using hc.1
  have hsurrogate : b.toNat = 0xED → c.toNat ≤ 0x9F := by
    intro h
    simpa [h] using hc.2
  have hv : (Char.ofNat (((b.toNat - 0xE0) * 64 + (c.toNat - 0x80)) * 64 + (d.toNat - 0x80))).val.toNat =
      ((b.toNat - 0xE0) * 64 + (c.toNat - 0x80)) * 64 + (d.toNat - 0x80) := by
    apply toNat_ofNat_of_valid
    unfold Nat.isValidChar
    omega
  simp only [String.utf8EncodeChar, hv]
  rw [if_neg (by omega), if_neg (by omega), if_pos (by omega), ofNat_eq_byte (b := b) (by omega),
    ofNat_eq_byte (b := c) (by omega), ofNat_eq_byte (b := d) (by omega)]

theorem encodeChar_four {b c d e : UInt8} (hb : 0xF0 ≤ b.toNat ∧ b.toNat ≤ 0xF4)
    (hc : (if b.toNat = 0xF0 then 0x90 else 0x80) ≤ c.toNat ∧
      c.toNat ≤ (if b.toNat = 0xF4 then 0x8F else 0xBF))
    (hd : 0x80 ≤ d.toNat ∧ d.toNat ≤ 0xBF) (he : 0x80 ≤ e.toNat ∧ e.toNat ≤ 0xBF) :
    String.utf8EncodeChar (Char.ofNat ((((b.toNat - 0xF0) * 64 + (c.toNat - 0x80)) * 64 +
      (d.toNat - 0x80)) * 64 + (e.toNat - 0x80))) = [b, c, d, e] := by
  have hlow : 0x80 ≤ c.toNat ∧ c.toNat ≤ 0xBF := by split at hc <;> split at hc <;> omega
  have hlong : b.toNat = 0xF0 → 0x90 ≤ c.toNat := by
    intro h
    simpa [h] using hc.1
  have hlarge : b.toNat = 0xF4 → c.toNat ≤ 0x8F := by
    intro h
    simpa [h] using hc.2
  have hv : (Char.ofNat ((((b.toNat - 0xF0) * 64 + (c.toNat - 0x80)) * 64 + (d.toNat - 0x80)) * 64 +
      (e.toNat - 0x80))).val.toNat = (((b.toNat - 0xF0) * 64 + (c.toNat - 0x80)) * 64 +
      (d.toNat - 0x80)) * 64 + (e.toNat - 0x80) := by
    apply toNat_ofNat_of_valid
    unfold Nat.isValidChar
    omega
  simp only [String.utf8EncodeChar, hv]
  rw [if_neg (by omega), if_neg (by omega), if_neg (by omega), ofNat_eq_byte (b := b) (by omega),
    ofNat_eq_byte (b := c) (by omega), ofNat_eq_byte (b := d) (by omega),
    ofNat_eq_byte (b := e) (by omega)]

/-! ## One character -/

/-- Bytes that decode begin with the encoding of a character, and what follows it decodes as well. -/
theorem decodeFrom_ready_cons {offset : Nat} {found r : List Char} {b : UInt8} {bs : List UInt8}
    (h : decodeFrom offset found .ready (b :: bs) = .ok r) :
    ∃ c rest offset', b :: bs = String.utf8EncodeChar c ++ rest ∧
      decodeFrom offset' (c :: found) .ready rest = .ok r := by
  by_cases h1 : b.toNat < 0x80
  · simp only [decodeFrom, step, h1, if_true] at h
    exact ⟨_, bs, _, by rw [encodeChar_one h1]; rfl, h⟩
  · -- the first byte decides how many follow
    by_cases h2 : 0xC2 ≤ b.toNat ∧ b.toNat ≤ 0xDF
    · rw [decodeFrom_start h1 (start?_two h2)] at h
      obtain ⟨c, rest, rfl, hc, h⟩ := decodeFrom_last.1 h
      exact ⟨_, rest, _, by rw [encodeChar_two h2 hc]; rfl, h⟩
    · by_cases h3 : 0xE0 ≤ b.toNat ∧ b.toNat ≤ 0xEF
      · rw [decodeFrom_start h1 (start?_three h3)] at h
        obtain ⟨c, rest, rfl, hc, h⟩ := decodeFrom_more.1 h
        obtain ⟨d, rest, rfl, hd, h⟩ := decodeFrom_last.1 h
        exact ⟨_, rest, _, by rw [encodeChar_three h3 hc hd]; rfl, h⟩
      · by_cases h4 : 0xF0 ≤ b.toNat ∧ b.toNat ≤ 0xF4
        · rw [decodeFrom_start h1 (start?_four h4)] at h
          obtain ⟨c, rest, rfl, hc, h⟩ := decodeFrom_more.1 h
          obtain ⟨d, rest, rfl, hd, h⟩ := decodeFrom_more.1 h
          obtain ⟨e, rest, rfl, he, h⟩ := decodeFrom_last.1 h
          exact ⟨_, rest, _, by rw [encodeChar_four h4 hc hd he]; rfl, h⟩
        · simp only [decodeFrom, step, h1, if_false, start?_none (b := b) (by omega)] at h
          cases h

/-- The encoding of a character decodes to it, whatever follows. -/
theorem decodeFrom_encodeChar (c : Char) {offset : Nat} {found r : List Char} {rest : List UInt8}
    (h : ∀ offset', decodeFrom offset' (c :: found) .ready rest = .ok r) :
    decodeFrom offset found .ready (String.utf8EncodeChar c ++ rest) = .ok r := by
  have hvalid : c.val.toNat < 0xD800 ∨ 0xDFFF < c.val.toNat ∧ c.val.toNat < 0x110000 := c.valid
  have hchar : ∀ n, n = c.val.toNat → Char.ofNat n = c := by
    rintro n rfl
    exact c.ofNat_toNat
  have hbyte : ∀ n, n < 256 → (UInt8.ofNat n).toNat = n := fun n hn => UInt8.toNat_ofNat_of_lt' hn
  simp only [String.utf8EncodeChar]
  generalize c.val.toNat = v at hvalid hchar ⊢
  by_cases h1 : v ≤ 127
  · have hb := hbyte v (by omega)
    rw [if_pos h1]
    simp only [List.cons_append, List.nil_append, decodeFrom, step, hb, hchar v rfl]
    rw [if_pos (by omega)]
    exact h _
  · rw [if_neg h1]
    by_cases h2 : v ≤ 2047
    · have hb := hbyte (v / 64 % 32 + 192) (by omega)
      have hc := hbyte (v % 64 + 128) (by omega)
      rw [if_pos h2, List.cons_append, decodeFrom_start (by omega) (start?_two (by omega))]
      refine decodeFrom_last.2 ⟨_, _, rfl, by omega, ?_⟩
      rw [hb, hc, hchar _ (by omega)]
      exact h _
    · rw [if_neg h2]
      by_cases h3 : v ≤ 65535
      · have hb := hbyte (v / 4096 % 16 + 224) (by omega)
        have hc := hbyte (v / 64 % 64 + 128) (by omega)
        have hd := hbyte (v % 64 + 128) (by omega)
        rw [if_pos h3, List.cons_append, decodeFrom_start (by omega) (start?_three (by omega))]
        refine decodeFrom_more.2 ⟨_, _, rfl, by rw [hb, hc]; split <;> split <;> omega, ?_⟩
        refine decodeFrom_last.2 ⟨_, _, rfl, by omega, ?_⟩
        rw [hb, hc, hd, hchar _ (by omega)]
        exact h _
      · have hb := hbyte (v / 262144 % 8 + 240) (by omega)
        have hc := hbyte (v / 4096 % 64 + 128) (by omega)
        have hd := hbyte (v / 64 % 64 + 128) (by omega)
        have he := hbyte (v % 64 + 128) (by omega)
        rw [if_neg h3, List.cons_append, decodeFrom_start (by omega) (start?_four (by omega))]
        refine decodeFrom_more.2 ⟨_, _, rfl, by rw [hb, hc]; split <;> split <;> omega, ?_⟩
        refine decodeFrom_more.2 ⟨_, _, rfl, by omega, ?_⟩
        refine decodeFrom_last.2 ⟨_, _, rfl, by omega, ?_⟩
        rw [hb, hc, hd, he, hchar _ (by omega)]
        exact h _

/-! ## Whole texts -/

/-- From between two characters, the bytes that decode are the encodings of texts. -/
theorem decodeFrom_eq_ok_iff {offset : Nat} {found r : List Char} {bs : List UInt8} :
    decodeFrom offset found .ready bs = .ok r ↔
      ∃ cs : List Char, bs = cs.flatMap String.utf8EncodeChar ∧ r = found.reverse ++ cs := by
  constructor
  · -- every turn takes a whole character off, so the induction is on the number of bytes
    intro h
    induction hn : bs.length using Nat.strong_induction_on generalizing offset found bs with
    | _ n ih =>
      cases bs with
      | nil =>
        simp only [decodeFrom, Except.ok.injEq] at h
        exact ⟨[], rfl, by simp [h]⟩
      | cons b bs =>
        obtain ⟨c, rest, offset', hbs, hrest⟩ := decodeFrom_ready_cons h
        have hlen : rest.length < n := by
          have hne := List.length_pos_iff.2 (String.utf8EncodeChar_ne_nil (c := c))
          have := congrArg List.length hbs
          rw [List.length_append] at this
          omega
        obtain ⟨cs, rfl, rfl⟩ := ih rest.length hlen hrest rfl
        exact ⟨c :: cs, by simpa using hbs, by simp⟩
  · rintro ⟨cs, rfl, rfl⟩
    induction cs generalizing offset found with
    | nil => simp [decodeFrom]
    | cons c cs ih =>
      rw [List.flatMap_cons]
      refine decodeFrom_encodeChar c fun offset' => ?_
      rw [ih]
      simp

/-- The decoder accepts exactly the encodings of texts, and gives the text that was encoded. -/
theorem decode_eq_ok_iff {bytes : ByteArray} {s : String} : decode bytes = .ok s ↔ bytes = s.toUTF8 := by
  have hmap : decode bytes = .ok s ↔ decodeFrom 0 [] .ready bytes.data.toList = .ok s.toList := by
    unfold decode
    cases decodeFrom 0 [] .ready bytes.data.toList with
    | error f => simp [Except.map]
    | ok cs =>
      simp only [Except.map, Except.ok.injEq]
      exact ⟨fun h => by rw [← h, String.toList_ofList], fun h => by rw [h, String.ofList_toList]⟩
  have hutf8 : s.toUTF8 = s.toList.utf8Encode := String.utf8Encode_toList.symm
  rw [hmap, decodeFrom_eq_ok_iff, hutf8]
  constructor
  · rintro ⟨cs, hbytes, hcs⟩
    simp only [List.reverse_nil, List.nil_append] at hcs
    apply ByteArray.ext
    apply Array.ext'
    rw [hbytes, hcs, List.utf8Encode]
    simp
  · intro h
    refine ⟨s.toList, ?_, rfl⟩
    rw [h, List.utf8Encode]
    simp

theorem decode_toUTF8 (s : String) : decode s.toUTF8 = .ok s :=
  decode_eq_ok_iff.2 rfl

/-- The decoder reports a fault exactly for the byte sequences that are no UTF-8. -/
theorem exists_decode_error_iff {bytes : ByteArray} : (∃ f, decode bytes = .error f) ↔ ¬ bytes.IsValidUTF8 := by
  constructor
  · rintro ⟨f, hf⟩ ⟨cs, rfl⟩
    have hok : decode cs.utf8Encode = .ok (String.ofList cs) := by
      rw [decode_eq_ok_iff, ← String.toByteArray_ofList]
      rfl
    rw [hok] at hf
    cases hf
  · intro h
    cases hd : decode bytes with
    | error f => exact ⟨f, rfl⟩
    | ok s =>
      rw [decode_eq_ok_iff.1 hd] at h
      exact absurd s.isValidUTF8 h

end Strata.Text.Utf8
