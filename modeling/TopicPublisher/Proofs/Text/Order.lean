import TopicPublisher.Proofs.Text.Utf8

/-!
# The order of texts

Texts are ordered by their characters. What they are written as has the same order: of two forms of
characters, the one of the lesser number has the lesser byte where they first differ, and neither is a
start of the other.

Results:
1. `Spells.append_lt`: the forms of two characters.
2. `encode_lt_encode_iff`: texts.
-/

namespace TopicPublisher

namespace Utf8

/-! ## 1. Characters -/

/-- The form of a lesser character comes first, whatever follows. -/
theorem Spells.append_lt {bs bs' : Bytes} {m n : Nat} (h : Spells bs m) (h' : Spells bs' n)
    (hlt : m < n) (r s : Bytes) : bs ++ r < bs' ++ s := by
  cases h <;> cases h' <;>
    simp only [isTail_iff, isSecondOfThree_iff, isSecondOfFour_iff, low6, List.cons_append,
      List.nil_append, List.cons_lt_cons_iff, UInt8.lt_iff_toNat_lt, ← UInt8.toNat_inj] at * <;>
    omega

theorem encodeChar_append_lt {c d : Char} (h : c < d) (r s : Bytes) :
    encodeChar c ++ r < encodeChar d ++ s :=
  (spells_encodeChar c).append_lt (spells_encodeChar d) h r s

/-! ## 2. Texts -/

theorem encodeChars_lt {cs ds : List Char} (h : cs < ds) : encodeChars cs < encodeChars ds := by
  induction h with
  | @nil d ds =>
    rw [encodeChars_cons]
    obtain ⟨b, bs, hb⟩ := List.exists_cons_of_ne_nil (encodeChar_ne_nil d)
    rw [hb]
    exact List.nil_lt_cons _ _
  | rel h =>
    rw [encodeChars_cons, encodeChars_cons]
    exact encodeChar_append_lt h _ _
  | cons _ ih =>
    rw [encodeChars_cons, encodeChars_cons]
    exact List.append_left_lt ih

theorem encode_lt {a b : String} (h : a < b) : encode a < encode b := encodeChars_lt h

/-- Texts are in the order of their bytes. -/
theorem encode_lt_encode_iff {a b : String} : encode a < encode b ↔ a < b := by
  refine ⟨fun h => ?_, encode_lt⟩
  rcases Decidable.em (a < b) with hlt | hlt
  · exact hlt
  · rcases Decidable.em (b < a) with hgt | hgt
    · exact absurd (encode_lt hgt) (List.lt_asymm h)
    · have heq := String.le_antisymm (String.not_lt.1 hgt) (String.not_lt.1 hlt)
      exact absurd h (heq ▸ List.lt_irrefl _)

end Utf8

end TopicPublisher
