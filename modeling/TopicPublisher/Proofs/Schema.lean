import TopicPublisher.Proofs.Json.Grammar
import TopicPublisher.Proofs.Json.Written
import TopicPublisher.Schema

/-!
# Schemas and their texts

A schema is written as an object of its two fields, and read back from it, whatever its definition is: the
inside of a definition is quoted, even where it looks like JSON itself. So the text of a schema is the text
of no other one.

Results:
1. `isText_text`, `parse_text`: the document that the text of a schema is.
2. `ofDocument?_document`: what is read from the document.
3. `schema_round_trip`: schemas and texts.
-/

namespace TopicPublisher

namespace Schema

open Json (Document quote spellsString_quote)

/-! ## Definitions -/

/-- The document of a definition: a text, or null where there is none. -/
def definitionDocument : Option String → Document
  | some s => .string (some s)
  | none => .null

/-- The document of a schema. -/
def document (s : Schema) : Document :=
  .object [(some "type", .string (some s.type.text)), (some "definition", definitionDocument s.definition)]

/-- A definition as it stands in the text of a schema. -/
def definitionText : Option String → String
  | some s => quote s
  | none => "null"

/-! ## 1. The document of a text -/

theorem toList_text (s : Schema) : s.text.toList =
    '{' :: ((quote "type").toList ++ ':' :: ((quote s.type.text).toList ++ ',' ::
      ((quote "definition").toList ++ ':' :: ((definitionText s.definition).toList ++ ['}'])))) := by
  obtain ⟨type, definition⟩ := s
  cases definition <;>
    simp [text, fields, Json.text, Json.textEntries, definitionText]

theorem spells_definitionText (d : Option String) :
    (definitionDocument d).Spells [(definitionText d).toList] := by
  cases d with
  | none => exact .null
  | some s => exact .string (spellsString_quote s)

/-- The text of a schema has no blank space between its lexemes. -/
theorem isText_text (s : Schema) : s.document.IsText s.text := by
  have hlast := Document.SpellsEntries.last (spellsString_quote "definition")
    (spells_definitionText s.definition)
  have hentries := Document.SpellsEntries.cons (spellsString_quote "type")
    (.string (spellsString_quote s.type.text)) hlast
  refine ⟨_, .object hentries, Json.isLayout_of_flatten ?_⟩
  simp [toList_text]

theorem parse_text (s : Schema) : Document.parse s.text = some s.document :=
  Document.parse_eq_some_iff.2 s.isText_text

/-! ## 2. The schema of a document -/

theorem ofText?_text (t : SchemaType) : SchemaType.ofText? t.text = some t := by
  cases t <;> decide

theorem ofDocument?_document (s : Schema) : ofDocument? s.document = some s := by
  obtain ⟨type, definition⟩ := s
  have htype : typeOf? (.string (some type.text)) = some type := ofText?_text type
  have hdefinition : definitionOf? (definitionDocument definition) = some definition := by
    cases definition <;> rfl
  have hne : "definition" ≠ "type" := by decide
  simp only [document, ofDocument?, readEntries, htype, hdefinition, if_true, if_neg hne]
  rfl

/-! ## 3. Texts -/

/-- A schema is read back from its text, whatever its definition has in it, and two schemas have one text
only if they are one schema. -/
theorem schema_round_trip (s s' : Schema) :
    parse? s.text = some s ∧ (s.text = s'.text ↔ s = s') := by
  have hread : ∀ s : Schema, parse? s.text = some s := fun s => by
    rw [parse?, parse_text]
    exact ofDocument?_document s
  refine ⟨hread s, fun h => ?_, fun h => h ▸ rfl⟩
  have hs' : parse? s.text = some s' := h.symm ▸ hread s'
  exact Option.some.inj ((hread s).symm.trans hs')

example : text ⟨.avro, some "\x7b\"\\\x00"⟩ =
    "\x7b\"type\":\"avro\",\"definition\":\"\x7b\\\"\\\\\\u0000\"\x7d" := by decide

end Schema

end TopicPublisher
