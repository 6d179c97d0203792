import TopicPublisher.Proofs.Json.Literals
import TopicPublisher.Proofs.Json.Numerals

/-!
# The grammar of documents

A document is a row of lexemes (`Document.Spells`), and the text of a document is such a row with blank space
before, between and behind its lexemes (`Document.IsText`). The reader knows nothing of lexemes; it skips
blank space wherever it looks for the next sign. It reads each document from every text of it, and reads
nothing from any other text: in particular no text is of two documents, and blank space makes no difference.

The reader counts down as it goes deeper and from item to item. It begins with twice the length of the text,
and each step that counts two takes at least one character away (`Complete`).

Results:
1. `lays_append`, `lays_flatten`, `value_of_blank`: blank space.
2. `Sound.succ`, `sound`: what is read is a document that stands there.
3. `Complete.succ`, `complete`: a document that stands there is read.
4. `parse_eq_some_iff`, `parse_eq_of_respaced`: texts.
-/

namespace TopicPublisher.Json

/-! ## Definitions -/

/-- Blank space, perhaps none. -/
def Blank (cs : List Char) : Prop := ∀ c ∈ cs, c ∈ [' ', '\n', '\t', '\r']

/-- `Lays ts cs rest`: the lexemes `ts` stand in front of `rest` in `cs`, with blank space before each of
them. -/
inductive Lays : List (List Char) → List Char → List Char → Prop
  | nil {rest : List Char} : Lays [] rest rest
  | cons {ts : List (List Char)} {blank lexeme cs rest : List Char} :
      Blank blank → Lays ts cs rest → Lays (lexeme :: ts) (blank ++ (lexeme ++ cs)) rest

/-- The text is the lexemes with blank space before, between and behind them. -/
def IsLayout (ts : List (List Char)) (text : String) : Prop := ∃ rest, Lays ts text.toList rest ∧ Blank rest

namespace Document

mutual

/-- `Spells ts d`: the lexemes `ts` are the document `d`. -/
inductive Spells : List (List Char) → Document → Prop
  | null : Spells ["null".toList] .null
  | true : Spells ["true".toList] (.bool true)
  | false : Spells ["false".toList] (.bool false)
  | number {cs : List Char} {n : Numeral} : n.Spells cs → Spells [cs] (.number n)
  | string {cs : List Char} {s : Option String} : SpellsString cs s → Spells [cs] (.string s)
  | emptyArray : Spells [['['], [']']] (.array [])
  | array {ts : List (List Char)} {xs : List Document} : SpellsItems ts xs → Spells (['['] :: ts) (.array xs)
  | emptyObject : Spells [['{'], ['}']] (.object [])
  | object {ts : List (List Char)} {es : List (Option String × Document)} :
      SpellsEntries ts es → Spells (['{'] :: ts) (.object es)

/-- Items with commas between them, and the closing bracket. -/
inductive SpellsItems : List (List Char) → List Document → Prop
  | last {ts : List (List Char)} {x : Document} : Spells ts x → SpellsItems (ts ++ [[']']]) [x]
  | cons {ts us : List (List Char)} {x : Document} {xs : List Document} :
      Spells ts x → SpellsItems us xs → SpellsItems (ts ++ [','] :: us) (x :: xs)

/-- Entries with commas between them, and the closing brace. -/
inductive SpellsEntries : List (List Char) → List (Option String × Document) → Prop
  | last {key : List Char} {ts : List (List Char)} {name : Option String} {x : Document} :
      SpellsString key name → Spells ts x → SpellsEntries (key :: [':'] :: (ts ++ [['}']])) [(name, x)]
  | cons {key : List Char} {ts us : List (List Char)} {name : Option String} {x : Document}
      {es : List (Option String × Document)} : SpellsString key name → Spells ts x → SpellsEntries us es →
      SpellsEntries (key :: [':'] :: (ts ++ [','] :: us)) ((name, x) :: es)

end

/-- The text is the document, with blank space wherever it may stand. -/
def IsText (d : Document) (text : String) : Prop := ∃ ts, Spells ts d ∧ IsLayout ts text

/-- The texts are the same lexemes of a document, with other blank space perhaps. -/
def Respaced (text text' : String) : Prop := ∃ d ts, Spells ts d ∧ IsLayout ts text ∧ IsLayout ts text'

/-- What the reader takes with this count is a document that stands there. -/
structure Sound (fuel : Nat) : Prop where
  value : ∀ {cs rest d}, value fuel cs = some (d, rest) → ∃ ts, Spells ts d ∧ Lays ts cs rest
  items : ∀ {cs rest xs}, items fuel cs = some (xs, rest) → ∃ ts, SpellsItems ts xs ∧ Lays ts cs rest
  entries : ∀ {cs rest es}, entries fuel cs = some (es, rest) → ∃ ts, SpellsEntries ts es ∧ Lays ts cs rest

/-- With this count the reader takes every document that stands in a text short enough. -/
structure Complete (fuel : Nat) : Prop where
  value : ∀ {ts cs rest d}, Spells ts d → Lays ts cs rest → Ends rest → 2 * cs.length < fuel →
    value fuel cs = some (d, rest)
  items : ∀ {ts cs rest xs}, SpellsItems ts xs → Lays ts cs rest → 2 * cs.length + 1 < fuel →
    items fuel cs = some (xs, rest)
  entries : ∀ {ts cs rest es}, SpellsEntries ts es → Lays ts cs rest → 2 * cs.length + 1 < fuel →
    entries fuel cs = some (es, rest)

end Document

/-! ## 1. Blank space -/

variable {ts us : List (List Char)} {t cs rest blank : List Char}

theorem lays_singleton : Lays [t] cs rest ↔ ∃ blank, Blank blank ∧ cs = blank ++ (t ++ rest) := by
  constructor
  · rintro (_ | ⟨hblank, ⟨⟩⟩)
    exact ⟨_, hblank, rfl⟩
  · rintro ⟨blank, hblank, rfl⟩
    exact .cons hblank .nil

theorem lays_append : Lays (ts ++ us) cs rest ↔ ∃ mid, Lays ts cs mid ∧ Lays us mid rest := by
  induction ts generalizing cs with
  | nil =>
    constructor
    · exact fun h => ⟨cs, .nil, h⟩
    · rintro ⟨mid, ⟨⟩, h⟩
      exact h
  | cons t ts ih =>
    constructor
    · rintro (_ | ⟨hblank, h⟩)
      obtain ⟨mid, hts, hus⟩ := ih.1 h
      exact ⟨mid, .cons hblank hts, hus⟩
    · rintro ⟨mid, _ | ⟨hblank, hts⟩, hus⟩
      exact .cons hblank (ih.2 ⟨mid, hts, hus⟩)

theorem lays_cons : Lays (t :: ts) cs rest ↔ ∃ mid, Lays [t] cs mid ∧ Lays ts mid rest := by
  rw [← List.singleton_append, lays_append]

theorem lays_entry {key : List Char} : Lays (key :: [':'] :: (ts ++ us)) cs rest ↔
    ∃ mid₁ mid₂ mid₃, Lays [key] cs mid₁ ∧ Lays [[':']] mid₁ mid₂ ∧ Lays ts mid₂ mid₃ ∧
      Lays us mid₃ rest := by
  constructor
  · intro h
    obtain ⟨mid₁, h₁, h⟩ := lays_cons.1 h
    obtain ⟨mid₂, h₂, h⟩ := lays_cons.1 h
    obtain ⟨mid₃, h₃, h⟩ := lays_append.1 h
    exact ⟨mid₁, mid₂, mid₃, h₁, h₂, h₃, h⟩
  · rintro ⟨mid₁, mid₂, mid₃, h₁, h₂, h₃, h⟩
    exact lays_cons.2 ⟨mid₁, h₁, lays_cons.2 ⟨mid₂, h₂, lays_append.2 ⟨mid₃, h₃, h⟩⟩⟩

/-- Lexemes may stand without blank space. -/
theorem lays_flatten (ts : List (List Char)) (rest : List Char) : Lays ts (ts.flatten ++ rest) rest := by
  induction ts with
  | nil => exact .nil
  | cons t ts ih =>
    have hcons : Lays (t :: ts) ([] ++ (t ++ (ts.flatten ++ rest))) rest := .cons nofun ih
    rwa [List.nil_append, ← List.append_assoc, ← List.flatten_cons] at hcons

theorem isLayout_of_flatten {text : String} (h : text.toList = ts.flatten) : IsLayout ts text := by
  have hlays := lays_flatten ts []
  rw [List.append_nil, ← h] at hlays
  exact ⟨[], hlays, nofun⟩

namespace Document

theorem isBlank_iff {c : Char} : isBlank c = true ↔ c ∈ [' ', '\n', '\t', '\r'] := by
  simp [isBlank, or_assoc]

theorem skipBlank_append (h : Blank blank) (cs : List Char) : skipBlank (blank ++ cs) = skipBlank cs :=
  List.dropWhile_append_of_pos fun c hc => isBlank_iff.2 (h c hc)

theorem exists_skipBlank (cs : List Char) : ∃ blank, Blank blank ∧ cs = blank ++ skipBlank cs :=
  ⟨cs.takeWhile isBlank, fun _ hc => isBlank_iff.1 (List.mem_takeWhile_imp hc),
    List.takeWhile_append_dropWhile.symm⟩

/-- A lexeme that is found behind blank space stands there. -/
theorem lays_of_skipBlank (h : skipBlank cs = t ++ rest) : Lays [t] cs rest := by
  obtain ⟨blank, hblank, hcs⟩ := exists_skipBlank cs
  exact lays_singleton.2 ⟨blank, hblank, hcs.trans (congrArg (blank ++ ·) h)⟩

/-- Where a lexeme stands there is nothing but blank space before it. -/
theorem skipBlank_of_lays {c : Char} (h : Lays [c :: t] cs rest) (hc : isBlank c = false) :
    skipBlank cs = c :: (t ++ rest) := by
  obtain ⟨blank, hblank, rfl⟩ := lays_singleton.1 h
  rw [skipBlank_append hblank]
  exact List.dropWhile_cons_of_neg (by simp [hc])

variable {fuel : Nat}

theorem value_of_blank (h : Blank blank) : value fuel (blank ++ cs) = value fuel cs := by
  cases fuel with
  | zero => rfl
  | succ fuel =>
    conv => lhs; unfold value
    conv => rhs; unfold value
    rw [skipBlank_append h]

theorem value_of_lays (h : Lays [t] cs rest) : value fuel cs = value fuel (t ++ rest) := by
  obtain ⟨blank, hblank, rfl⟩ := lays_singleton.1 h
  exact value_of_blank hblank

theorem items_of_blank (h : Blank blank) : items fuel (blank ++ cs) = items fuel cs := by
  cases fuel with
  | zero => rfl
  | succ fuel => rw [items, items, value_of_blank h]

theorem entries_of_blank (h : Blank blank) : entries fuel (blank ++ cs) = entries fuel cs := by
  cases fuel with
  | zero => rfl
  | succ fuel =>
    conv => lhs; unfold entries
    conv => rhs; unfold entries
    rw [skipBlank_append h]

/-! ## 2. What is read stands there -/

theorem Sound.value_succ (h : Sound fuel) {d : Document}
    (hd : Document.value (fuel + 1) cs = some (d, rest)) : ∃ ts, Spells ts d ∧ Lays ts cs rest := by
  unfold Document.value at hd
  split at hd
  · next hcs =>
    cases hd
    exact ⟨_, .null, lays_of_skipBlank hcs⟩
  · next hcs =>
    cases hd
    exact ⟨_, .true, lays_of_skipBlank hcs⟩
  · next hcs =>
    cases hd
    exact ⟨_, .false, lays_of_skipBlank hcs⟩
  · next mid hcs =>
    obtain ⟨⟨s, rest'⟩, hs, heq⟩ := Option.map_eq_some_iff.1 hd
    cases heq
    obtain ⟨quoted, hquoted, hspells⟩ := readQuoted_eq_some_iff.1 hs
    exact ⟨_, .string hspells, lays_of_skipBlank (hcs.trans hquoted)⟩
  · next mid hcs =>
    have hopen : Lays [['[']] cs mid := lays_of_skipBlank hcs
    split at hd
    · next hmid =>
      cases hd
      exact ⟨_, .emptyArray, lays_cons.2 ⟨_, hopen, lays_of_skipBlank hmid⟩⟩
    · obtain ⟨⟨xs, rest'⟩, hxs, heq⟩ := Option.map_eq_some_iff.1 hd
      cases heq
      obtain ⟨blank, hblank, hmid⟩ := exists_skipBlank mid
      rw [← items_of_blank hblank, ← hmid] at hxs
      obtain ⟨ts, hts, hlays⟩ := h.items hxs
      exact ⟨_, .array hts, lays_cons.2 ⟨_, hopen, hlays⟩⟩
  · next mid hcs =>
    have hopen : Lays [['{']] cs mid := lays_of_skipBlank hcs
    split at hd
    · next hmid =>
      cases hd
      exact ⟨_, .emptyObject, lays_cons.2 ⟨_, hopen, lays_of_skipBlank hmid⟩⟩
    · obtain ⟨⟨es, rest'⟩, hes, heq⟩ := Option.map_eq_some_iff.1 hd
      cases heq
      obtain ⟨blank, hblank, hmid⟩ := exists_skipBlank mid
      rw [← entries_of_blank hblank, ← hmid] at hes
      obtain ⟨ts, hts, hlays⟩ := h.entries hes
      exact ⟨_, .object hts, lays_cons.2 ⟨_, hopen, hlays⟩⟩
  · obtain ⟨⟨n, rest'⟩, hn, heq⟩ := Option.map_eq_some_iff.1 hd
    cases heq
    obtain ⟨numeral, hcs, hspells⟩ := eq_of_numeral? hn
    exact ⟨_, .number hspells, lays_of_skipBlank hcs⟩

theorem Sound.items_succ (h : Sound fuel) {xs : List Document}
    (hxs : Document.items (fuel + 1) cs = some (xs, rest)) : ∃ ts, SpellsItems ts xs ∧ Lays ts cs rest := by
  unfold Document.items at hxs
  obtain ⟨⟨x, mid⟩, hx, hxs⟩ := Option.bind_eq_some_iff.1 hxs
  obtain ⟨ts, hts, hlays⟩ := h.value hx
  simp only at hxs
  split at hxs
  · next mid' hmid =>
    obtain ⟨⟨xs', rest'⟩, hxs', heq⟩ := Option.map_eq_some_iff.1 hxs
    cases heq
    obtain ⟨us, hus, hlays'⟩ := h.items hxs'
    have hcomma : Lays [[',']] mid mid' := lays_of_skipBlank hmid
    exact ⟨_, .cons hts hus, lays_append.2 ⟨_, hlays, lays_cons.2 ⟨_, hcomma, hlays'⟩⟩⟩
  · next mid' hmid =>
    cases hxs
    exact ⟨_, .last hts, lays_append.2 ⟨_, hlays, lays_of_skipBlank hmid⟩⟩
  · cases hxs

theorem Sound.entries_succ (h : Sound fuel) {es : List (Option String × Document)}
    (hes : Document.entries (fuel + 1) cs = some (es, rest)) :
    ∃ ts, SpellsEntries ts es ∧ Lays ts cs rest := by
  unfold Document.entries at hes
  split at hes
  · next hcs =>
    obtain ⟨⟨name, mid⟩, hname, hes⟩ := Option.bind_eq_some_iff.1 hes
    obtain ⟨key, hkey, hspells⟩ := readQuoted_eq_some_iff.1 hname
    have hlays : Lays [key] cs mid := lays_of_skipBlank (hcs.trans hkey)
    simp only at hes
    split at hes
    · next mid' hmid =>
      obtain ⟨⟨x, mid''⟩, hx, hes⟩ := Option.bind_eq_some_iff.1 hes
      obtain ⟨ts, hts, hlays'⟩ := h.value hx
      have hcolon : Lays [[':']] mid mid' := lays_of_skipBlank hmid
      have hentry : ∀ {us}, Lays us mid'' rest → Lays (key :: [':'] :: (ts ++ us)) cs rest := fun hus =>
        lays_entry.2 ⟨mid, mid', mid'', hlays, hcolon, hlays', hus⟩
      simp only at hes
      split at hes
      · next r hr =>
        obtain ⟨⟨es', rest'⟩, hes', heq⟩ := Option.map_eq_some_iff.1 hes
        cases heq
        obtain ⟨us, hus, hlays''⟩ := h.entries hes'
        have hcomma : Lays [[',']] mid'' r := lays_of_skipBlank hr
        exact ⟨_, .cons hspells hts hus, hentry (lays_cons.2 ⟨_, hcomma, hlays''⟩)⟩
      · next r hr =>
        cases hes
        exact ⟨_, .last hspells hts, hentry (lays_of_skipBlank hr)⟩
      · cases hes
    · cases hes
  · cases hes

theorem sound : ∀ fuel, Sound fuel
  | 0 => ⟨nofun, nofun, nofun⟩
  | fuel + 1 => ⟨(sound fuel).value_succ, (sound fuel).items_succ, (sound fuel).entries_succ⟩

/-! ## 3. What stands there is read -/

theorem length_lt_of_lays {c : Char} (h : Lays [c :: t] cs rest) : rest.length < cs.length := by
  obtain ⟨blank, -, rfl⟩ := lays_singleton.1 h
  simp only [List.length_append, List.length_cons]
  omega

theorem length_le_of_lays (h : Lays ts cs rest) : rest.length ≤ cs.length := by
  induction h with
  | nil => exact Nat.le_refl _
  | cons _ _ ih =>
    simp only [List.length_append]
    omega

theorem ends_of_blank (h : Blank blank) (hcs : Ends cs) : Ends (blank ++ cs) := by
  cases blank with
  | nil => exact hcs
  | cons b blank => exact List.mem_append_left [',', ']', '}'] (h b (.head _))

/-- The sign behind a value is no more of it. -/
theorem ends_of_lays {c : Char} (h : Lays [[c]] cs rest) (hc : c ∈ [',', ']', '}']) : Ends cs := by
  obtain ⟨blank, hblank, rfl⟩ := lays_singleton.1 h
  have hcs : Ends ([c] ++ rest) := List.mem_append_right [' ', '\n', '\t', '\r'] hc
  exact ends_of_blank hblank hcs

theorem value_string {quoted : List Char} {str : Option String} (h : SpellsString quoted str) :
    value (fuel + 1) (quoted ++ rest) = some (.string str, rest) := by
  obtain ⟨inside, rfl, hread⟩ := exists_cons_of_spellsString h
  exact congrArg (Option.map _) (hread rest)

theorem value_number {n : Numeral} (h : n.Spells t) (hrest : Ends rest) :
    value (fuel + 1) (t ++ rest) = some (.number n, rest) := by
  have hread := numeral?_append h hrest
  obtain ⟨c, r, rfl, hc⟩ := exists_cons_of_spells h
  have hblank : ∀ b ∈ [' ', '\n', '\t', '\r'], ¬ (b = '-' ∨ isDigit b = true) := by simp [isDigit]
  have hother : ∀ b ∈ ['n', 't', 'f', '"', '[', '{'], ¬ (b = '-' ∨ isDigit b = true) := by simp [isDigit]
  have hskip : skipBlank (c :: r ++ rest) = c :: r ++ rest :=
    List.dropWhile_cons_of_neg fun hb => hblank c (isBlank_iff.1 hb) hc
  unfold value
  rw [hskip]
  split
  iterate 6
    next heq =>
      rw [(List.cons.inj heq).1] at hc
      exact absurd hc (hother _ (by decide))
  rw [hread]
  rfl

theorem value_emptyArray (h : Lays [[']']] cs rest) : value (fuel + 1) ('[' :: cs) = some (.array [], rest) := by
  have hopen : skipBlank ('[' :: cs) = '[' :: cs := rfl
  unfold value
  rw [hopen]
  simp only [skipBlank_of_lays h rfl]
  rfl

theorem value_emptyObject (h : Lays [['}']] cs rest) :
    value (fuel + 1) ('{' :: cs) = some (.object [], rest) := by
  have hopen : skipBlank ('{' :: cs) = '{' :: cs := rfl
  unfold value
  rw [hopen]
  simp only [skipBlank_of_lays h rfl]
  rfl

theorem value_of_items {xs : List Document} (h : items fuel cs = some (xs, rest)) :
    value (fuel + 1) ('[' :: cs) = some (.array xs, rest) := by
  have hopen : skipBlank ('[' :: cs) = '[' :: cs := rfl
  obtain ⟨blank, hblank, hcs⟩ := exists_skipBlank cs
  unfold value
  rw [hopen]
  rw [hcs, items_of_blank hblank] at h
  simp only
  split
  · next r hr =>
    rw [hr] at h
    match fuel, h with
    | 0, h => cases h
    | 1, h => cases h
    | fuel + 2, h => cases h
  · rw [h]
    rfl

theorem value_of_entries {es : List (Option String × Document)} (h : entries fuel cs = some (es, rest)) :
    value (fuel + 1) ('{' :: cs) = some (.object es, rest) := by
  have hopen : skipBlank ('{' :: cs) = '{' :: cs := rfl
  obtain ⟨blank, hblank, hcs⟩ := exists_skipBlank cs
  unfold value
  rw [hopen]
  rw [hcs, entries_of_blank hblank] at h
  simp only
  split
  · next r hr =>
    rw [hr] at h
    match fuel, h with
    | 0, h => cases h
    | fuel + 1, h => cases h
  · rw [h]
    rfl

theorem Complete.value_succ (h : Complete fuel) {d : Document} (hd : Spells ts d) (hlays : Lays ts cs rest)
    (hrest : Ends rest) (hfuel : 2 * cs.length < fuel + 1) :
    Document.value (fuel + 1) cs = some (d, rest) := by
  cases hd with
  | null | true | false => exact value_of_lays hlays
  | number hn => rw [value_of_lays hlays, value_number hn hrest]
  | string hs => rw [value_of_lays hlays, value_string hs]
  | emptyArray =>
    obtain ⟨mid, hopen, hclose⟩ := lays_cons.1 hlays
    exact (value_of_lays hopen).trans (value_emptyArray hclose)
  | array hxs =>
    obtain ⟨mid, hopen, hitems⟩ := lays_cons.1 hlays
    have hlt := length_lt_of_lays hopen
    have hread := h.items hxs hitems (by omega)
    exact (value_of_lays hopen).trans (value_of_items hread)
  | emptyObject =>
    obtain ⟨mid, hopen, hclose⟩ := lays_cons.1 hlays
    exact (value_of_lays hopen).trans (value_emptyObject hclose)
  | object hes =>
    obtain ⟨mid, hopen, hentries⟩ := lays_cons.1 hlays
    have hlt := length_lt_of_lays hopen
    have hread := h.entries hes hentries (by omega)
    exact (value_of_lays hopen).trans (value_of_entries hread)

theorem Complete.items_succ (h : Complete fuel) {xs : List Document} (hxs : SpellsItems ts xs)
    (hlays : Lays ts cs rest) (hfuel : 2 * cs.length + 1 < fuel + 1) :
    Document.items (fuel + 1) cs = some (xs, rest) := by
  cases hxs with
  | last hx =>
    obtain ⟨mid, hts, hclose⟩ := lays_append.1 hlays
    have hvalue := h.value hx hts (ends_of_lays hclose (by decide)) (by omega)
    rw [Document.items, hvalue]
    simp only [Option.bind_some, skipBlank_of_lays hclose rfl]
    rfl
  | cons hx hxs =>
    obtain ⟨mid, hts, hus⟩ := lays_append.1 hlays
    obtain ⟨mid', hcomma, hus⟩ := lays_cons.1 hus
    have hle := length_le_of_lays hts
    have hlt := length_lt_of_lays hcomma
    have hvalue := h.value hx hts (ends_of_lays hcomma (by decide)) (by omega)
    rw [Document.items, hvalue]
    simp only [Option.bind_some, skipBlank_of_lays hcomma rfl]
    rw [List.nil_append, h.items hxs hus (by omega)]
    rfl

section Entry

variable {key mid₁ mid₂ mid₃ r : List Char} {name : Option String} {x : Document}
  {es : List (Option String × Document)}

theorem entries_last (hkey : SpellsString key name) (hmid₁ : Lays [key] cs mid₁)
    (hmid₂ : Lays [[':']] mid₁ mid₂) (hx : value fuel mid₂ = some (x, mid₃)) (hmid₃ : Lays [['}']] mid₃ rest) :
    entries (fuel + 1) cs = some ([(name, x)], rest) := by
  obtain ⟨inside, rfl, hname⟩ := exists_cons_of_spellsString hkey
  unfold entries
  simp only [skipBlank_of_lays hmid₁ rfl, hname, Option.bind_some, skipBlank_of_lays hmid₂ rfl,
    List.nil_append, hx, skipBlank_of_lays hmid₃ rfl]

theorem entries_cons (hkey : SpellsString key name) (hmid₁ : Lays [key] cs mid₁)
    (hmid₂ : Lays [[':']] mid₁ mid₂) (hx : value fuel mid₂ = some (x, mid₃)) (hmid₃ : Lays [[',']] mid₃ r)
    (hes : entries fuel r = some (es, rest)) : entries (fuel + 1) cs = some ((name, x) :: es, rest) := by
  obtain ⟨inside, rfl, hname⟩ := exists_cons_of_spellsString hkey
  unfold entries
  simp only [skipBlank_of_lays hmid₁ rfl, hname, Option.bind_some, skipBlank_of_lays hmid₂ rfl,
    List.nil_append, hx, skipBlank_of_lays hmid₃ rfl, hes, Option.map_some]

end Entry

theorem Complete.entries_succ (h : Complete fuel) {es : List (Option String × Document)}
    (hes : SpellsEntries ts es) (hlays : Lays ts cs rest) (hfuel : 2 * cs.length + 1 < fuel + 1) :
    Document.entries (fuel + 1) cs = some (es, rest) := by
  cases hes with
  | last hkey hx =>
    obtain ⟨mid₁, mid₂, mid₃, h₁, h₂, h₃, hclose⟩ := lays_entry.1 hlays
    have hle := length_le_of_lays h₁
    have hlt := length_lt_of_lays h₂
    have hvalue := h.value hx h₃ (ends_of_lays hclose (by decide)) (by omega)
    exact entries_last hkey h₁ h₂ hvalue hclose
  | cons hkey hx hes =>
    obtain ⟨mid₁, mid₂, mid₃, h₁, h₂, h₃, hus⟩ := lays_entry.1 hlays
    obtain ⟨mid₄, hcomma, hus⟩ := lays_cons.1 hus
    have hle₁ := length_le_of_lays h₁
    have hlt₂ := length_lt_of_lays h₂
    have hle₃ := length_le_of_lays h₃
    have hlt₄ := length_lt_of_lays hcomma
    have hvalue := h.value hx h₃ (ends_of_lays hcomma (by decide)) (by omega)
    exact entries_cons hkey h₁ h₂ hvalue hcomma (h.entries hes hus (by omega))

theorem complete : ∀ fuel, Complete fuel
  | 0 => ⟨nofun, nofun, nofun⟩
  | fuel + 1 => ⟨(complete fuel).value_succ, (complete fuel).items_succ, (complete fuel).entries_succ⟩

/-! ## 4. Texts -/

theorem isEmpty_skipBlank_iff : (skipBlank cs).isEmpty = true ↔ Blank cs := by
  rw [List.isEmpty_iff, skipBlank, List.dropWhile_eq_nil_iff]
  exact forall₂_congr fun _ _ => isBlank_iff

theorem isText_of_value {text : String} {d : Document} (h : value fuel text.toList = some (d, rest))
    (hrest : Blank rest) : d.IsText text := by
  obtain ⟨ts, hts, hlays⟩ := (sound fuel).value h
  exact ⟨ts, hts, rest, hlays, hrest⟩

/-- The reader makes a document of exactly the texts of the document. -/
theorem parse_eq_some_iff {text : String} {d : Document} : parse text = some d ↔ d.IsText text := by
  have hread : parse text = some d ↔
      ∃ rest, value (2 * text.toList.length + 2) text.toList = some (d, rest) ∧ Blank rest := by
    simp only [← isEmpty_skipBlank_iff]
    unfold parse
    grind
  rw [hread]
  constructor
  · rintro ⟨rest, hd, hrest⟩
    exact isText_of_value hd hrest
  · rintro ⟨ts, hts, rest, hlays, hrest⟩
    have hends : Ends rest := List.append_nil rest ▸ ends_of_blank hrest trivial
    exact ⟨rest, (complete _).value hts hlays hends (by omega), hrest⟩

theorem parse_eq_of_respaced {text text' : String} (h : Respaced text text') : parse text' = parse text := by
  obtain ⟨d, ts, hts, htext, htext'⟩ := h
  rw [parse_eq_some_iff.2 ⟨ts, hts, htext⟩, parse_eq_some_iff.2 ⟨ts, hts, htext'⟩]

end Document

end TopicPublisher.Json
