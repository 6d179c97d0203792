import Mathlib.Data.List.Perm.Basic
import TopicPublisher.Proofs.Json.Grammar
import TopicPublisher.Schema

/-!
# The fields of a schema

Two names count in an object that a schema is read from. The walk over the entries passes over all others,
and what it makes of the entries of one of the two does not depend on those of the other (`readEntries_eq`):
a second one is refused, and one alone is read or refused by its value. So the entries can be taken in any
order, and what stands under other names is free, repetitions and strings that are no text included.

The grammar of documents carries this over to texts. Names are compared as texts, whatever escapes they are
written with.

Results:
1. `typeOf?_eq_some_iff`, `definitionOf?_eq_some_iff`: values.
2. `ofDocument?_objectOf_eq_some_iff`, `ofDocument?_congr`: entries.
3. `schema_of_fields`: texts.
-/

namespace TopicPublisher

namespace Schema

open Json (Document)

/-! ## Definitions -/

/-- The names of the families, letter for letter. -/
def typeNames : List (String × SchemaType) :=
  [("bytes", .bytes), ("string", .string), ("json", .json), ("avro", .avro), ("protobuf", .protobuf)]

/-- A family is given by its name, or by an object whose only entry has that name and the value null. -/
inductive GivesType : Document → SchemaType → Prop
  | name {name : String} {t : SchemaType} : (name, t) ∈ typeNames → GivesType (.string (some name)) t
  | entry {name : String} {t : SchemaType} : (name, t) ∈ typeNames →
      GivesType (.object [(some name, .null)]) t

/-- A definition is given by a text, and that there is none by null. -/
inductive GivesDefinition : Document → Option String → Prop
  | text (s : String) : GivesDefinition (.string (some s)) (some s)
  | null : GivesDefinition .null none

/-- The values of the entries of a name. -/
def valuesOf (name : String) (es : List (String × Document)) : List Document :=
  (es.filter (·.1 = name)).map (·.2)

/-- The names that count. -/
def fieldNames : List String := ["type", "definition"]

/-- An object whose names are texts. -/
def objectOf (es : List (String × Document)) : Document := .object (es.map fun e => (some e.1, e.2))

/-- What the entries of a schema must be. -/
structure Readable (es : List (String × Document)) : Prop where
  typeOnce : (valuesOf "type" es).length ≤ 1
  definitionOnce : (valuesOf "definition" es).length ≤ 1
  type : ∀ x ∈ valuesOf "type" es, ∃ t, GivesType x t
  definition : ∀ x ∈ valuesOf "definition" es, ∃ d, GivesDefinition x d

/-- What a schema has from the entries. -/
structure Means (es : List (String × Document)) (s : Schema) : Prop where
  type : ∀ x ∈ valuesOf "type" es, GivesType x s.type
  noType : valuesOf "type" es = [] → s.type = .bytes
  definition : ∀ x ∈ valuesOf "definition" es, GivesDefinition x s.definition
  noDefinition : valuesOf "definition" es = [] → s.definition = none

/-- Settles a field that may have been read already from the values that are still to come. -/
def settle {α : Type} (f : Document → Option α) : Option α → List Document → Option (Option α)
  | a, [] => some a
  | none, [x] => (f x).map some
  | _, _ => none

/-! ## 1. Values -/

theorem ofText?_eq_some_iff {name : String} {t : SchemaType} :
    SchemaType.ofText? name = some t ↔ (name, t) ∈ typeNames := by
  constructor
  · intro h
    have htext : t.text = name := by simpa using List.find?_some h
    subst htext
    cases t <;> decide
  · have hread : ∀ p ∈ typeNames, SchemaType.ofText? p.1 = some p.2 := by decide
    exact fun h => hread (name, t) h

theorem typeOf?_eq_some_iff (x : Document) (t : SchemaType) : typeOf? x = some t ↔ GivesType x t := by
  constructor
  · intro h
    unfold typeOf? at h
    split at h
    · exact .name (ofText?_eq_some_iff.1 h)
    · exact .entry (ofText?_eq_some_iff.1 h)
    · cases h
  · rintro (h | h) <;> exact ofText?_eq_some_iff.2 h

theorem definitionOf?_eq_some_iff (x : Document) (d : Option String) :
    definitionOf? x = some d ↔ GivesDefinition x d := by
  constructor
  · intro h
    unfold definitionOf? at h
    split at h
    · cases h
      exact .text _
    · cases h
      exact .null
    · cases h
  · rintro (s | -) <;> rfl

/-! ## 2. Entries -/

section Settle

variable {α : Type} {f : Document → Option α} {a : α} {x : Document} {xs ys : List Document}

theorem settle_some_cons : settle f (some a) (x :: xs) = none := by
  cases xs <;> rfl

theorem settle_cons (h : f x = some a) : settle f none (x :: xs) = settle f (some a) xs := by
  cases xs with
  | nil => simp [settle, h]
  | cons y xs => rw [settle_some_cons]; rfl

theorem settle_cons_of_none (h : f x = none) : settle f none (x :: xs) = none := by
  cases xs with
  | nil => simp [settle, h]
  | cons y xs => rfl

theorem settle_perm (h : xs.Perm ys) : settle f none xs = settle f none ys := by
  match xs, ys, h with
  | [], ys, h => rw [List.nil_perm.1 h]
  | [x], ys, h => rw [List.singleton_perm.1 h]
  | x :: y :: xs, ys, h =>
    match ys, h.length_eq with
    | _ :: _ :: _, _ => rfl

end Settle

theorem valuesOf_cons_self (name : String) (x : Document) (es : List (String × Document)) :
    valuesOf name ((name, x) :: es) = x :: valuesOf name es := by
  simp [valuesOf]

theorem valuesOf_cons_of_ne {name name' : String} (h : name' ≠ name) (x : Document)
    (es : List (String × Document)) : valuesOf name ((name', x) :: es) = valuesOf name es := by
  simp [valuesOf, h]

/-- The walk over the entries settles each of the two fields for itself. -/
theorem readEntries_eq (d : Draft) (es : List (String × Document)) :
    readEntries d (es.map fun e => (some e.1, e.2)) =
      (settle typeOf? d.type (valuesOf "type" es)).bind fun t =>
        (settle definitionOf? d.definition (valuesOf "definition" es)).map fun f => Draft.finish ⟨t, f⟩ := by
  induction es generalizing d with
  | nil => rfl
  | cons e es ih =>
    obtain ⟨name, x⟩ := e
    obtain ⟨t, f⟩ := d
    have hne : "definition" ≠ "type" := by decide
    rw [List.map_cons, readEntries]
    by_cases htype : name = "type"
    · subst htype
      rw [if_pos rfl, valuesOf_cons_self, valuesOf_cons_of_ne hne.symm]
      cases t with
      | some t => rw [settle_some_cons]; rfl
      | none =>
        cases hx : typeOf? x with
        | none => rw [settle_cons_of_none hx]; rfl
        | some t =>
          rw [settle_cons hx]
          exact ih ⟨some t, f⟩
    · rw [if_neg htype, valuesOf_cons_of_ne htype]
      by_cases hdefinition : name = "definition"
      · subst hdefinition
        rw [if_pos rfl, valuesOf_cons_self]
        cases f with
        | some f => rw [settle_some_cons]; simp
        | none =>
          cases hx : definitionOf? x with
          | none => rw [settle_cons_of_none hx]; simp
          | some f =>
            rw [settle_cons hx]
            exact ih ⟨t, some f⟩
      · rw [if_neg hdefinition, valuesOf_cons_of_ne hdefinition, ih]

/-- What a schema is read from: the values of the two names. -/
theorem ofDocument?_objectOf (es : List (String × Document)) : ofDocument? (objectOf es) =
    (settle typeOf? none (valuesOf "type" es)).bind fun t =>
      (settle definitionOf? none (valuesOf "definition" es)).map fun f =>
        ⟨t.getD .bytes, f.getD none⟩ :=
  readEntries_eq {} es

/-- A field is settled where there is at most one value, by that value or else by default. -/
theorem exists_settle_iff {α : Type} {f : Document → Option α} {gives : Document → α → Prop}
    (hf : ∀ x a, f x = some a ↔ gives x a) (xs : List Document) (default a : α) :
    (∃ b, settle f none xs = some b ∧ b.getD default = a) ↔
      xs.length ≤ 1 ∧ (∀ x ∈ xs, gives x a) ∧ (xs = [] → a = default) := by
  match xs with
  | [] => simp [settle, eq_comm]
  | [x] => simp [settle, hf]
  | x :: y :: xs => simp [settle]

theorem ofDocument?_objectOf_eq_some_iff {es : List (String × Document)} {s : Schema} :
    ofDocument? (objectOf es) = some s ↔ Readable es ∧ Means es s := by
  have htype := exists_settle_iff typeOf?_eq_some_iff (valuesOf "type" es) .bytes s.type
  have hdefinition :=
    exists_settle_iff definitionOf?_eq_some_iff (valuesOf "definition" es) none s.definition
  have hfields : ofDocument? (objectOf es) = some s ↔
      (∃ t, settle typeOf? none (valuesOf "type" es) = some t ∧ t.getD .bytes = s.type) ∧
      ∃ f, settle definitionOf? none (valuesOf "definition" es) = some f ∧ f.getD none = s.definition := by
    rw [ofDocument?_objectOf]
    obtain ⟨type, definition⟩ := s
    simp only [Option.bind_eq_some_iff, Option.map_eq_some_iff, mk.injEq]
    grind
  rw [hfields, htype, hdefinition]
  constructor
  · rintro ⟨⟨ht, htype, hno⟩, hd, hdefinition, hno'⟩
    exact ⟨⟨ht, hd, fun x hx => ⟨_, htype x hx⟩, fun x hx => ⟨_, hdefinition x hx⟩⟩,
      htype, hno, hdefinition, hno'⟩
  · rintro ⟨hreadable, hmeans⟩
    exact ⟨⟨hreadable.typeOnce, hmeans.type, hmeans.noType⟩, hreadable.definitionOnce, hmeans.definition,
      hmeans.noDefinition⟩

/-- At most one value says what a field is, or leaves it as it is by default. -/
theorem exists_given {α : Type} {gives : Document → α → Prop} {xs : List Document} (default : α)
    (honce : xs.length ≤ 1) (hgives : ∀ x ∈ xs, ∃ a, gives x a) :
    ∃ a, (∀ x ∈ xs, gives x a) ∧ (xs = [] → a = default) := by
  match xs, honce with
  | [], _ => exact ⟨default, nofun, fun _ => rfl⟩
  | [x], _ =>
    obtain ⟨a, ha⟩ := hgives x (.head _)
    exact ⟨a, by simpa using ha, nofun⟩

theorem Readable.means {es : List (String × Document)} (h : Readable es) : ∃ s, Means es s := by
  obtain ⟨t, ht, hnoType⟩ := exists_given .bytes h.typeOnce h.type
  obtain ⟨d, hd, hnoDefinition⟩ := exists_given none h.definitionOnce h.definition
  exact ⟨⟨t, d⟩, ht, hnoType, hd, hnoDefinition⟩

/-- What is read depends on the entries under the two names only, and not on their order. -/
theorem ofDocument?_congr {es es' : List (String × Document)}
    (h : (es'.filter (·.1 ∈ fieldNames)).Perm (es.filter (·.1 ∈ fieldNames))) :
    ofDocument? (objectOf es') = ofDocument? (objectOf es) := by
  have hvalues : ∀ name ∈ fieldNames, (valuesOf name es').Perm (valuesOf name es) := by
    intro name hname
    have hfilter : ∀ es : List (String × Document),
        valuesOf name es = ((es.filter (·.1 ∈ fieldNames)).filter (·.1 = name)).map (·.2) := by
      intro es
      rw [valuesOf, List.filter_filter]
      refine congrArg _ (List.filter_congr fun e _ => ?_)
      by_cases he : e.1 = name
      · simp [he, hname]
      · simp [he]
    rw [hfilter, hfilter]
    exact (h.filter _).map _
  rw [ofDocument?_objectOf, ofDocument?_objectOf, settle_perm (hvalues "type" (by decide)),
    settle_perm (hvalues "definition" (by decide))]

/-! ## 3. Texts -/

theorem parse?_of_isText {es : List (String × Document)} {text : String} (h : (objectOf es).IsText text) :
    parse? text = ofDocument? (objectOf es) := by
  rw [parse?, Document.parse_eq_some_iff.2 h]
  rfl

example :
    parse? "\x7b\"x\":[\"\\ud800\",1e999],\"type\":\x7b\"avro\":null\x7d\x7d" = some ⟨.avro, none⟩ := by
  decide +kernel

/-- An object is read as a schema if and only if its entries are readable, and the schema is then what they
say. Neither blank space, nor the order of the entries, nor entries of other names make a difference. -/
theorem schema_of_fields {es : List (String × Document)} {text : String} (h : (objectOf es).IsText text) :
    ((∃ s, parse? text = some s) ↔ Readable es) ∧
    (∀ s, parse? text = some s → Means es s) ∧
    (∀ text', Document.Respaced text text' → parse? text' = parse? text) ∧
    ∀ es' text', (objectOf es').IsText text' →
      (es'.filter (·.1 ∈ fieldNames)).Perm (es.filter (·.1 ∈ fieldNames)) → parse? text' = parse? text := by
  have hread : ∀ s, parse? text = some s ↔ Readable es ∧ Means es s := fun s => by
    rw [parse?_of_isText h, ofDocument?_objectOf_eq_some_iff]
  refine ⟨?_, fun s hs => ((hread s).1 hs).2, fun text' htext' => ?_, fun es' text' h' hes => ?_⟩
  · constructor
    · rintro ⟨s, hs⟩
      exact ((hread s).1 hs).1
    · intro hreadable
      obtain ⟨s, hs⟩ := hreadable.means
      exact ⟨s, (hread s).2 ⟨hreadable, hs⟩⟩
  · rw [parse?, parse?, Document.parse_eq_of_respaced htext']
  · rw [parse?_of_isText h, parse?_of_isText h', ofDocument?_congr hes]

/-- The name of the field in escapes, between two entries of another name, one of which has a field of that
name inside and the other a number beyond the doubles; and the same field alone, with blank space. -/
theorem schema_of_fields_escaped :
    let type : String × Document := ("type", .object [(some "avro", .null)])
    let inner : String × Document := ("x", .array [.object [(some "type", .bool false)]])
    let number : String × Document := ("x", .number ⟨false, ['1'], none, some (false, ['9', '9', '9'])⟩)
    let text := "\x7b\"x\":[\x7b\"type\":false\x7d],\"\\u0074ype\":\x7b\"avro\":null\x7d,\"x\":1e999\x7d"
    let text' := "\n\x7b \"type\" : \x7b\"avro\"\t:null\x7d\x7d "
    (objectOf [inner, type, number]).IsText text ∧ (objectOf [type]).IsText text' ∧
    parse? text = some ⟨.avro, none⟩ ∧ parse? text' = parse? text ∧ Readable [inner, type, number] := by
  intro type inner number text text'
  have htext : (objectOf [inner, type, number]).IsText text := by
    have hvalue : Document.value 8 text.toList = some (objectOf [inner, type, number], []) := by
      simp [text, inner, type, number, objectOf, Document.value, Document.entries, Document.items,
        Document.skipBlank, Document.isBlank, Json.readQuoted, Json.pieces, Json.join, Json.hexUnit, Json.hexValue,
        Json.isHighSurrogate, Json.isLowSurrogate, Document.numeral?, Document.whole?, Document.fraction?,
        Document.exponent?, Document.digits?, List.span, List.span.loop, Document.isDigit]
    exact Document.isText_of_value hvalue (by simp [Json.Blank])
  have htext' : (objectOf [type]).IsText text' := by
    have hvalue : Document.value 8 text'.toList = some (objectOf [type], [' ']) := by
      simp [text', type, objectOf, Document.value, Document.entries, Document.skipBlank, Document.isBlank,
        Json.readQuoted, Json.pieces, Json.join]
    exact Document.isText_of_value hvalue (by simp [Json.Blank])
  have hread : parse? text = some ⟨.avro, none⟩ := by decide +kernel
  obtain ⟨hreadable, -, -, hsame⟩ := schema_of_fields htext
  exact ⟨htext, htext', hread, hsame [type] text' htext' (.refl _), hreadable.1 ⟨_, hread⟩⟩

end Schema

end TopicPublisher
