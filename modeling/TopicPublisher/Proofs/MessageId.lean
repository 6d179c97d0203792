import Mathlib.Data.List.Forall2
import TopicPublisher.MessageId

/-!
# Identifiers and their texts

A text can be taken apart at its colons in one way only, and a numeral has neither a colon in it nor more
than one value. So the text of an identifier, read as numerals between colons, is the four numbers of the
identifier in their order, and no other numbers, nor more or less of them. The numbers are those of the
words, negative ones included, so that they tell identifiers apart.

Nothing here depends on how many digits are written: a numeral may have leading zeros.

Results:
1. `decimal_toString`, `Decimal.unique`: numerals.
2. `reads_text`, `Reads.unique`: numerals between colons.
3. `text_identifies`: identifiers.
-/

namespace TopicPublisher

namespace MessageId

/-! ## Definitions -/

/-- `Decimal cs n`: the decimal numeral `cs` stands for `n`. -/
inductive Decimal : List Char → Int → Prop
  | positive {ds : List Char} : ds ≠ [] → (∀ d ∈ ds, d.isDigit = true) → Decimal ds (Nat.ofDigitChars 10 ds 0)
  | negative {ds : List Char} : ds ≠ [] → (∀ d ∈ ds, d.isDigit = true) →
      Decimal ('-' :: ds) (-(Nat.ofDigitChars 10 ds 0 : Int))

/-- `Reads text ns`: the text is numerals with colons between them, which stand for the numbers `ns`. -/
def Reads (text : String) (ns : List Int) : Prop :=
  ∃ parts, text.toList = [':'].intercalate parts ∧ List.Forall₂ Decimal parts ns

/-- The four numbers of an identifier. -/
def numbers (m : MessageId) : List Int :=
  [m.ledger.toNat, m.entry.toNat, m.partition.toInt, m.batchIndex.toInt]

/-! ## 1. Numerals -/

theorem isDigit_of_mem_decimal {n : Nat} : ∀ d ∈ Nat.toDigits 10 n, d.isDigit = true :=
  fun _ hd => Nat.isDigit_of_mem_toDigits (by decide) (by decide) hd

theorem decimal_toString_nat (n : Nat) : Decimal (toString n).toList n := by
  have hdigits : Decimal (Nat.toDigits 10 n) (Nat.ofDigitChars 10 (Nat.toDigits 10 n) 0) :=
    .positive Nat.toDigits_ne_nil isDigit_of_mem_decimal
  rw [Nat.ofDigitChars_ten_toDigits] at hdigits
  rwa [Nat.toString_eq_ofList_toDigits, String.toList_ofList]

theorem decimal_toString (n : Int) : Decimal (toString n).toList n := by
  cases n with
  | ofNat n => exact decimal_toString_nat n
  | negSucc n =>
    have htext : (toString (Int.negSucc n)).toList = '-' :: Nat.toDigits 10 (n + 1) := by
      simp [Int.toString_eq_repr, Int.repr]
    have hvalue : Int.negSucc n = -(Nat.ofDigitChars 10 (Nat.toDigits 10 (n + 1)) 0 : Int) := by
      rw [Nat.ofDigitChars_ten_toDigits]
      exact Int.negSucc_eq n
    rw [htext, hvalue]
    exact .negative Nat.toDigits_ne_nil isDigit_of_mem_decimal

theorem Decimal.colon_not_mem {cs : List Char} {n : Int} (h : Decimal cs n) : ':' ∉ cs := by
  have hdigits : ∀ {ds : List Char}, (∀ d ∈ ds, d.isDigit = true) → ':' ∉ ds :=
    fun hds hmem => absurd (hds _ hmem) (by decide)
  cases h with
  | positive _ hds => exact hdigits hds
  | negative _ hds => simpa using hdigits hds

/-- A numeral with a sign is none without one. -/
theorem Decimal.unique : Relator.RightUnique Decimal := by
  intro cs n m hn hm
  have hsign : ∀ {ds : List Char}, ¬ ∀ d ∈ '-' :: ds, d.isDigit = true :=
    fun hds => absurd (hds '-' (.head _)) (by decide)
  cases hn with
  | positive _ hds =>
    cases hm with
    | positive => rfl
    | negative => exact (hsign hds).elim
  | negative _ _ =>
    cases hm with
    | positive _ hds => exact (hsign hds).elim
    | negative => rfl

/-! ## 2. Numerals between colons -/

theorem reads_text (m : MessageId) : Reads m.text m.numbers := by
  refine ⟨m.numbers.map fun n => (toString n).toList, ?_, ?_⟩
  · have hnat : ∀ n : Nat, (n : Int).repr = n.repr := fun _ => rfl
    simp [text, numbers, hnat, List.intercalate]
  · rw [List.forall₂_map_left_iff]
    exact List.forall₂_same.2 fun n _ => decimal_toString n

example : text ⟨12, 7, -1, -1⟩ = "12:7:-1:-1" := by decide +kernel

/-- The parts of a text are those between its colons, and each of them is one number. -/
theorem Reads.unique {text : String} {ns ms : List Int} (hn : Reads text ns) (hm : Reads text ms)
    (hne : text ≠ "") : ns = ms := by
  have hparts : ∀ {parts ns}, text.toList = [':'].intercalate parts → List.Forall₂ Decimal parts ns →
      parts = text.toList.splitOn ':' := by
    intro parts ns htext hparts
    have hcolon : ∀ part ∈ parts, ':' ∉ part :=
      ((List.forall₂_and_left _ _).1 (hparts.imp fun _ _ h => ⟨h.colon_not_mem, h⟩)).1
    have hnil : parts ≠ [] := by
      rintro rfl
      exact hne (String.toList_inj.1 htext)
    rw [htext, List.splitOn_intercalate ':' hcolon hnil]
  obtain ⟨parts, htext, hns⟩ := hn
  obtain ⟨parts', htext', hms⟩ := hm
  obtain rfl : parts = parts' := (hparts htext hns).trans (hparts htext' hms).symm
  exact List.right_unique_forall₂' Decimal.unique hns hms

/-! ## 3. Identifiers -/

theorem numbers_inj {a b : MessageId} (h : a.numbers = b.numbers) : a = b := by
  obtain ⟨ledger, entry, partition, batchIndex⟩ := a
  obtain ⟨ledger', entry', partition', batchIndex'⟩ := b
  simp only [numbers, List.cons.injEq, Int.natCast_inj, UInt64.toNat_inj, Int32.toInt_inj, and_true] at h
  obtain ⟨rfl, rfl, rfl, rfl⟩ := h
  rfl

/-- Two identifiers have the same text only if they are the same, and the text of an identifier reads as its
four numbers in order, and as no other numbers. -/
theorem text_identifies (a b : MessageId) :
    (a.text = b.text ↔ a = b) ∧ ∀ ns, Reads a.text ns ↔ ns = a.numbers := by
  have hne : ∀ m : MessageId, m.text ≠ "" := fun m hempty => by
    have hcolon : ':' ∈ m.text.toList := by simp [text]
    simp [hempty] at hcolon
  refine ⟨⟨fun h => ?_, fun h => h ▸ rfl⟩, fun ns => ⟨fun h => ?_, fun h => h ▸ reads_text a⟩⟩
  · have hb : Reads a.text b.numbers := h ▸ reads_text b
    exact numbers_inj ((reads_text a).unique hb (hne a))
  · exact h.unique (reads_text a) (hne a)

end MessageId

end TopicPublisher
