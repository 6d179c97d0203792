import TopicPublisher.Proofs.Json.Literals

/-!
# What is written as JSON spells it

Each character stands inside quotes as one piece: as itself, behind a backslash, or by its number. The
pieces of a quoted text are those of its characters, and they spell the text again, whatever is in it. No
escape that is written is half of a character, as only control characters are written by their number.

Results:
1. `hexDigit_hexDigit`: digits.
2. `escapeChar_cases`, `spells_escapeChar`: how a character is written, and the piece that spells it.
3. `spellsString_quote`: a quoted text.
-/

namespace TopicPublisher.Json

/-! ## Definitions -/

/-- The piece as which a character is read that was written inside quotes. -/
inductive StandsFor : Piece → Char → Prop
  | char (c : Char) : StandsFor (.char c) c
  | unit {c : Char} : c.toNat < 32 → StandsFor (.unit c.toNat) c

/-- The characters that are written behind a backslash, and the letters for them. -/
def shortForms : List (Char × Char) :=
  [('"', '"'), ('\\', '\\'), ('\x08', 'b'), ('\t', 't'), ('\n', 'n'), ('\x0c', 'f'), ('\r', 'r')]

/-! ## 1. Digits -/

theorem hexDigit_hexDigit {n : Nat} (h : n < 16) : HexDigit (hexDigit n) n := by
  have hvalue : ∀ n, n < 16 → hexValue (hexDigit n) = some n := by decide
  exact hexValue_eq_some_iff.1 (hvalue n h)

/-! ## 2. Pieces -/

/-- How a character is written: with a letter for it, by its number, or as it is. -/
theorem escapeChar_cases (c : Char) :
    (∃ e, (c, e) ∈ shortForms ∧ escapeChar c = ['\\', e]) ∨
    (c.toNat < 32 ∧
      escapeChar c = ['\\', 'u', '0', '0', hexDigit (c.toNat / 16), hexDigit (c.toNat % 16)]) ∨
    (c ≠ '"' ∧ c ≠ '\\' ∧ ¬ c.toNat < 32) ∧ escapeChar c = [c] := by
  by_cases hmem : ∃ e, (c, e) ∈ shortForms
  · obtain ⟨e, he⟩ := hmem
    have hform : ∀ p ∈ shortForms, escapeChar p.1 = ['\\', p.2] := by decide
    exact .inl ⟨e, he, hform _ he⟩
  · have hne : ∀ p ∈ shortForms, c ≠ p.1 := by
      rintro p hp rfl
      exact hmem ⟨p.2, hp⟩
    simp only [shortForms, List.forall_mem_cons] at hne
    obtain ⟨hquote, hbackslash, h₁, h₂, h₃, h₄, h₅, -⟩ := hne
    unfold escapeChar
    rw [if_neg hquote, if_neg hbackslash, if_neg h₁, if_neg h₂, if_neg h₃, if_neg h₄, if_neg h₅]
    by_cases hcontrol : c.toNat < 32
    · exact .inr (.inl ⟨hcontrol, if_pos hcontrol⟩)
    · exact .inr (.inr ⟨⟨hquote, hbackslash, hcontrol⟩, if_neg hcontrol⟩)

/-- Each character is written in a form of one piece, which stands for it. -/
theorem spells_escapeChar (c : Char) : ∃ p : Piece, StandsFor p c ∧ p.Spells (escapeChar c) := by
  rcases escapeChar_cases c with
    ⟨e, he, hform⟩ | ⟨hcontrol, hform⟩ | ⟨⟨hquote, hbackslash, hcontrol⟩, hform⟩
  · have hletter : ∀ p ∈ shortForms, (p.2, p.1) ∈ shortEscapes := by decide
    rw [hform]
    exact ⟨_, .char c, .short (hletter _ he)⟩
  · have hzero : HexDigit '0' 0 := .decimal (by decide) rfl
    have hspells := Piece.Spells.unit hzero hzero (hexDigit_hexDigit (n := c.toNat / 16) (by omega))
      (hexDigit_hexDigit (n := c.toNat % 16) (by omega))
    have hvalue : ((0 * 16 + 0) * 16 + c.toNat / 16) * 16 + c.toNat % 16 = c.toNat := by omega
    rw [hvalue] at hspells
    rw [hform]
    exact ⟨_, .unit hcontrol, hspells⟩
  · rw [hform]
    exact ⟨_, .char c, .raw hquote hbackslash hcontrol⟩

/-! ## 3. Texts -/

theorem StandsFor.denotes {p : Piece} {c : Char} {ps : List Piece} {cs : List Char} (hp : StandsFor p c)
    (h : Denotes ps cs) : Denotes (p :: ps) (c :: cs) := by
  cases hp with
  | char => exact .char h
  | unit => exact .unit h

theorem spellsInside_escape (s : List Char) : ∃ ps, SpellsInside (escape s) ps ∧ Denotes ps s := by
  induction s with
  | nil => exact ⟨[], .nil, .nil⟩
  | cons c s ih =>
    obtain ⟨ps, hspells, hdenotes⟩ := ih
    obtain ⟨p, hp, hform⟩ := spells_escapeChar c
    exact ⟨p :: ps, .cons hform hspells, hp.denotes hdenotes⟩

/-- A text between its quotes is a string, and of no other text. -/
theorem spellsString_quote (s : String) : SpellsString (quote s).toList (some s) := by
  obtain ⟨ps, hspells, hdenotes⟩ := spellsInside_escape s.toList
  have hjoin : join ps = some s.toList := (join_eq_some_iff hspells.unit_lt).2 hdenotes
  refine ⟨escape s.toList, ps, String.toList_ofList, hspells, (eq_map_join_iff hspells).1 ?_⟩
  rw [hjoin, Option.map_some, String.ofList_toList]

end TopicPublisher.Json
