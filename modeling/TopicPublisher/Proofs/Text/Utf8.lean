import TopicPublisher.Text.Utf8

/-!
# Reading is the inverse of writing

Bytes are a text exactly when they are what some text is written as, and then it is that text that is
read. In between stands the syntax of UTF-8 (`Spells`): the forms that one character can have, with the
number that each of them stands for.

Results:
1. `decodeChar_of_spells`, `spells_of_decodeChar`: what is read is one of the forms.
2. `Spells.encodeChar`, `Spells.eq`: a character has one form, the one that it is written in.
3. `decodeChars_encodeChars`, `eq_of_decodeChars`: all characters.
4. `decode_eq_ok_iff`: texts.
5. `encode_eq_toUTF8`: the bytes of a text are those that the standard library gives it.
-/

namespace TopicPublisher

namespace Utf8

/-- The bytes are a form of the character of that number. -/
inductive Spells : Bytes → Nat → Prop
  | one {a : UInt8} : a.toNat < 0x80 → Spells [a] a.toNat
  | two {a b : UInt8} : 0xC2 ≤ a.toNat → a.toNat ≤ 0xDF → isTail b = true →
      Spells [a, b] (a.toNat % 32 * 64 + low6 b)
  | three {a b c : UInt8} : 0xE0 ≤ a.toNat → a.toNat ≤ 0xEF → isSecondOfThree a b = true →
      isTail c = true → Spells [a, b, c] (a.toNat % 16 * 4096 + low6 b * 64 + low6 c)
  | four {a b c d : UInt8} : 0xF0 ≤ a.toNat → a.toNat ≤ 0xF4 → isSecondOfFour a b = true →
      isTail c = true → isTail d = true →
      Spells [a, b, c, d] (a.toNat % 8 * 262144 + low6 b * 4096 + low6 c * 64 + low6 d)

/-! ## 1. The forms that are read -/

theorem decodeChar_of_spells {bs : Bytes} {n : Nat} (h : Spells bs n) (rest : Bytes) :
    decodeChar (bs ++ rest) = .ok (Char.ofNat n, rest) := by
  cases h with
  | one ha => simp [decodeChar, UInt8.lt_iff_toNat_lt, ha]
  | @two a b ha ha' hb =>
    have h₁ : ¬ a.toNat < 128 := by omega
    simp [decodeChar, UInt8.lt_iff_toNat_lt, UInt8.le_iff_toNat_le, h₁, ha, ha', hb]
  | @three a b c ha ha' hb hc =>
    have h₁ : ¬ a.toNat < 128 := by omega
    have h₂ : ¬ a.toNat ≤ 223 := by omega
    simp [decodeChar, UInt8.lt_iff_toNat_lt, UInt8.le_iff_toNat_le, h₁, h₂, ha, ha', hb, hc]
  | @four a b c d ha ha' hb hc hd =>
    have h₁ : ¬ a.toNat < 128 := by omega
    have h₂ : ¬ a.toNat ≤ 223 := by omega
    have h₃ : ¬ a.toNat ≤ 239 := by omega
    simp [decodeChar, UInt8.lt_iff_toNat_lt, UInt8.le_iff_toNat_le, h₁, h₂, h₃, ha, ha', hb, hc, hd]

theorem spells_of_decodeChar {bs rest : Bytes} {c : Char} (h : decodeChar bs = .ok (c, rest)) :
    ∃ pre n, bs = pre ++ rest ∧ Spells pre n ∧ c = Char.ofNat n := by
  unfold decodeChar at h
  simp only [UInt8.lt_iff_toNat_lt, UInt8.le_iff_toNat_le, Bool.and_eq_true, decide_eq_true_eq,
    Bool.not_eq_true'] at h
  split at h
  · cases h
  · next a rest' =>
    split at h
    · next ha =>
      cases h
      exact ⟨[a], _, rfl, .one ha, rfl⟩
    split at h
    · next ha =>
      split at h
      · cases h
      · next b rest' =>
        split at h
        · next hb =>
          cases h
          exact ⟨[a, b], _, rfl, .two ha.1 ha.2 hb, rfl⟩
        · cases h
    split at h
    · next ha =>
      split at h
      · cases h
      · next b rest' =>
        split at h
        · cases h
        · next hb =>
          split at h
          · cases h
          · next c rest' =>
            split at h
            · next hc =>
              cases h
              exact ⟨[a, b, c], _, rfl, .three ha.1 ha.2 (by simpa using hb) hc, rfl⟩
            · cases h
    split at h
    · next ha =>
      split at h
      · cases h
      · next b rest' =>
        split at h
        · cases h
        · next hb =>
          split at h
          · cases h
          · next c rest' =>
            split at h
            · cases h
            · next hc =>
              split at h
              · cases h
              · next d rest' =>
                split at h
                · next hd =>
                  cases h
                  exact ⟨[a, b, c, d], _, rfl,
                    .four ha.1 ha.2 (by simpa using hb) (by simpa using hc) hd, rfl⟩
                · cases h
    · cases h

/-! ## 2. The form that is written -/

theorem toNat_ofNat {n : Nat} (h : n.isValidChar) : (Char.ofNat n).toNat = n := by
  unfold Char.ofNat
  rw [dif_pos h]
  rfl

theorem toNat_byte {n : Nat} (h : n < 256) : (UInt8.ofNat n).toNat = n := by
  rw [UInt8.toNat_ofNat', Nat.mod_eq_of_lt h]

theorem byte_eq {b : UInt8} {n : Nat} (h : n = b.toNat) : UInt8.ofNat n = b := by
  rw [h, UInt8.ofNat_toNat]

theorem isTail_iff {b : UInt8} : isTail b = true ↔ 0x80 ≤ b.toNat ∧ b.toNat ≤ 0xBF := by
  simp [isTail, UInt8.le_iff_toNat_le]

theorem isSecondOfThree_iff {a b : UInt8} : isSecondOfThree a b = true ↔
    0x80 ≤ b.toNat ∧ b.toNat ≤ 0xBF ∧ (a.toNat = 0xE0 → 0xA0 ≤ b.toNat) ∧
      (a.toNat = 0xED → b.toNat ≤ 0x9F) := by
  unfold isSecondOfThree
  have h₁ : a = 0xE0 ↔ a.toNat = 0xE0 := by rw [← UInt8.toNat_inj]; rfl
  have h₂ : a = 0xED ↔ a.toNat = 0xED := by rw [← UInt8.toNat_inj]; rfl
  simp only [h₁, h₂]
  split
  · simp [UInt8.le_iff_toNat_le]; omega
  · split
    · simp [UInt8.le_iff_toNat_le]; omega
    · rw [isTail_iff]; omega

theorem isSecondOfFour_iff {a b : UInt8} : isSecondOfFour a b = true ↔
    0x80 ≤ b.toNat ∧ b.toNat ≤ 0xBF ∧ (a.toNat = 0xF0 → 0x90 ≤ b.toNat) ∧
      (a.toNat = 0xF4 → b.toNat ≤ 0x8F) := by
  unfold isSecondOfFour
  have h₁ : a = 0xF0 ↔ a.toNat = 0xF0 := by rw [← UInt8.toNat_inj]; rfl
  have h₂ : a = 0xF4 ↔ a.toNat = 0xF4 := by rw [← UInt8.toNat_inj]; rfl
  simp only [h₁, h₂]
  split
  · simp [UInt8.le_iff_toNat_le]; omega
  · split
    · simp [UInt8.le_iff_toNat_le]; omega
    · rw [isTail_iff]; omega

/-- A form is that of a number with the bytes that it stands for. -/
theorem Spells.of_eq {bs : Bytes} {n n' : Nat} (h : Spells bs n) (hn : n = n') : Spells bs n' :=
  hn ▸ h

/-- A character is written in one of the forms. -/
theorem spells_encodeChar (c : Char) : Spells (encodeChar c) c.toNat := by
  have hvalid : c.toNat.isValidChar := c.valid
  unfold encodeChar
  generalize c.toNat = n at hvalid
  unfold Nat.isValidChar at hvalid
  have htail : ∀ m, (UInt8.ofNat (0x80 + m % 64)).toNat = 0x80 + m % 64 := fun m =>
    toNat_byte (by omega)
  simp only
  split
  · have ha := toNat_byte (n := n) (by omega)
    exact (Spells.one (a := UInt8.ofNat n) (by omega)).of_eq ha
  split
  · have ha := toNat_byte (n := 0xC0 + n / 64) (by omega)
    have hb := htail n
    refine (Spells.two (by omega) (by omega) (isTail_iff.2 ⟨by omega, by omega⟩)).of_eq ?_
    unfold low6
    omega
  split
  · have ha := toNat_byte (n := 0xE0 + n / 4096) (by omega)
    have hb := htail (n / 64)
    have hc := htail n
    refine (Spells.three (by omega) (by omega)
      (isSecondOfThree_iff.2 ⟨by omega, by omega, by omega, by omega⟩)
      (isTail_iff.2 ⟨by omega, by omega⟩)).of_eq ?_
    unfold low6
    omega
  · have ha := toNat_byte (n := 0xF0 + n / 262144) (by omega)
    have hb := htail (n / 4096)
    have hc := htail (n / 64)
    have hd := htail n
    refine (Spells.four (by omega) (by omega)
      (isSecondOfFour_iff.2 ⟨by omega, by omega, by omega, by omega⟩)
      (isTail_iff.2 ⟨by omega, by omega⟩) (isTail_iff.2 ⟨by omega, by omega⟩)).of_eq ?_
    unfold low6
    omega

/-- A form is the one in which its character is written. -/
theorem Spells.eq {bs : Bytes} {n : Nat} (h : Spells bs n) : bs = encodeChar (Char.ofNat n) := by
  have hval : n.isValidChar → (Char.ofNat n).toNat = n := toNat_ofNat
  unfold Nat.isValidChar at hval
  unfold encodeChar
  cases h with
  | @one a ha =>
    rw [hval (by omega), if_pos ha, byte_eq rfl]
  | @two a b ha ha' hb =>
    obtain ⟨hb, hb'⟩ := isTail_iff.1 hb
    unfold low6 at hval ⊢
    rw [hval (by omega), if_neg (by omega), if_pos (by omega), byte_eq (b := a) (by omega),
      byte_eq (b := b) (by omega)]
  | @three a b c ha ha' hb hc =>
    obtain ⟨hb, hb', hlow, hhigh⟩ := isSecondOfThree_iff.1 hb
    obtain ⟨hc, hc'⟩ := isTail_iff.1 hc
    unfold low6 at hval ⊢
    rw [hval (by omega), if_neg (by omega), if_neg (by omega), if_pos (by omega),
      byte_eq (b := a) (by omega), byte_eq (b := b) (by omega), byte_eq (b := c) (by omega)]
  | @four a b c d ha ha' hb hc hd =>
    obtain ⟨hb, hb', hlow, hhigh⟩ := isSecondOfFour_iff.1 hb
    obtain ⟨hc, hc'⟩ := isTail_iff.1 hc
    obtain ⟨hd, hd'⟩ := isTail_iff.1 hd
    unfold low6 at hval ⊢
    rw [hval (by omega), if_neg (by omega), if_neg (by omega), if_neg (by omega),
      byte_eq (b := a) (by omega), byte_eq (b := b) (by omega), byte_eq (b := c) (by omega),
      byte_eq (b := d) (by omega)]

theorem decodeChar_encodeChar (c : Char) (rest : Bytes) :
    decodeChar (encodeChar c ++ rest) = .ok (c, rest) := by
  rw [decodeChar_of_spells (spells_encodeChar c), Char.ofNat_toNat]

theorem eq_of_decodeChar {bs rest : Bytes} {c : Char} (h : decodeChar bs = .ok (c, rest)) :
    bs = encodeChar c ++ rest := by
  obtain ⟨pre, n, rfl, hs, rfl⟩ := spells_of_decodeChar h
  rw [← hs.eq]

/-! ## 3. All characters -/

theorem encodeChar_ne_nil (c : Char) : encodeChar c ≠ [] := by
  unfold encodeChar
  simp only
  split
  · exact List.cons_ne_nil _ _
  split
  · exact List.cons_ne_nil _ _
  split <;> exact List.cons_ne_nil _ _

theorem encodeChars_cons (c : Char) (cs : List Char) :
    encodeChars (c :: cs) = encodeChar c ++ encodeChars cs := List.flatMap_cons

theorem length_le_encodeChars (cs : List Char) : cs.length ≤ (encodeChars cs).length := by
  induction cs with
  | nil => exact Nat.le_refl 0
  | cons c cs ih =>
    rw [encodeChars_cons, List.length_append, List.length_cons]
    have hpos := List.length_pos_iff.2 (encodeChar_ne_nil c)
    omega

theorem decodeFrom_encodeChars {fuel : Nat} (offset : Nat) {cs : List Char} (h : cs.length ≤ fuel) :
    decodeFrom fuel offset (encodeChars cs) = .ok cs := by
  induction cs generalizing fuel offset with
  | nil => cases fuel <;> rfl
  | cons c cs ih =>
    rw [encodeChars_cons]
    have hread := decodeChar_encodeChar c (encodeChars cs)
    obtain ⟨b, bs, hb⟩ := List.exists_cons_of_ne_nil (encodeChar_ne_nil c)
    rw [hb, List.cons_append] at hread ⊢
    cases fuel with
    | zero => cases h
    | succ fuel =>
      simp only [decodeFrom, hread, ih _ (Nat.le_of_succ_le_succ h)]
      rfl

theorem eq_of_decodeFrom {fuel offset : Nat} {bs : Bytes} {cs : List Char} (hfuel : bs.length ≤ fuel)
    (h : decodeFrom fuel offset bs = .ok cs) : bs = encodeChars cs := by
  induction fuel generalizing offset bs cs with
  | zero =>
    cases List.length_eq_zero_iff.1 (Nat.le_zero.1 hfuel)
    cases h
    rfl
  | succ fuel ih =>
    cases bs with
    | nil =>
      cases h
      rfl
    | cons b bs =>
      unfold decodeFrom at h
      split at h
      · cases h
      · next c rest hread =>
        have heq := eq_of_decodeChar hread
        have hpos := List.length_pos_iff.2 (encodeChar_ne_nil c)
        have hlen := congrArg List.length heq
        rw [List.length_append] at hlen
        cases hrest : decodeFrom fuel (offset + c.utf8Size) rest with
        | error => simp [hrest, Except.map] at h
        | ok ds =>
          simp only [hrest, Except.map, Except.ok.injEq] at h
          rw [heq, ih (by omega) hrest, ← h, encodeChars_cons]

theorem decodeChars_encodeChars (cs : List Char) : decodeChars (encodeChars cs) = .ok cs :=
  decodeFrom_encodeChars 0 (length_le_encodeChars cs)

theorem eq_of_decodeChars {bs : Bytes} {cs : List Char} (h : decodeChars bs = .ok cs) :
    bs = encodeChars cs := eq_of_decodeFrom (Nat.le_refl _) h

/-- The text of bytes is the one that they are written as. -/
theorem decode_eq_ok_iff {bs : Bytes} {text : String} : decode bs = .ok text ↔ bs = encode text := by
  unfold decode encode
  constructor
  · intro h
    cases hcs : decodeChars bs with
    | error => simp [hcs, Except.map] at h
    | ok cs =>
      simp only [hcs, Except.map, Except.ok.injEq] at h
      rw [eq_of_decodeChars hcs, ← h, String.toList_ofList]
  · rintro rfl
    rw [decodeChars_encodeChars]
    simp [Except.map]

theorem text?_eq_some_iff {bs : Bytes} {text : String} : text? bs = some text ↔ bs = encode text := by
  rw [← decode_eq_ok_iff, text?]
  cases decode bs <;> simp [Except.toOption]

example : text? [0x61, 0xC3, 0xA9, 0xF0, 0x9F, 0xA6, 0x80] = some "aé🦀" := by decide +kernel

/-! ## 4. The bytes of the standard library -/

theorem encodeChar_eq_utf8EncodeChar (c : Char) : encodeChar c = String.utf8EncodeChar c := by
  have hvalid : c.toNat.isValidChar := c.valid
  have hval : c.val.toNat = c.toNat := rfl
  unfold encodeChar String.utf8EncodeChar
  rw [hval]
  generalize c.toNat = n at hvalid
  unfold Nat.isValidChar at hvalid
  simp only
  split
  · rw [if_pos (by omega)]
  split
  · rw [if_neg (by omega), if_pos (by omega), show n / 64 % 32 + 192 = 0xC0 + n / 64 by omega,
      Nat.add_comm (n % 64)]
  split
  · rw [if_neg (by omega), if_neg (by omega), if_pos (by omega),
      show n / 4096 % 16 + 224 = 0xE0 + n / 4096 by omega, Nat.add_comm (n / 64 % 64),
      Nat.add_comm (n % 64)]
  · rw [if_neg (by omega), if_neg (by omega), if_neg (by omega),
      show n / 262144 % 8 + 240 = 0xF0 + n / 262144 by omega, Nat.add_comm (n / 4096 % 64),
      Nat.add_comm (n / 64 % 64), Nat.add_comm (n % 64)]

theorem encode_eq_toUTF8 (s : String) : encode s = s.toUTF8.data.toList := by
  have hchars : s.toUTF8 = s.toList.utf8Encode := String.utf8Encode_toList.symm
  have hchar : encodeChar = String.utf8EncodeChar := funext encodeChar_eq_utf8EncodeChar
  rw [hchars, encode, encodeChars, hchar, List.utf8Encode, List.data_toByteArray]

end Utf8

end TopicPublisher
