import TopicPublisher.Topic

/-!
# The grammar of topics

A text names a topic in one of three shapes: `domain://tenant/namespace/name`, `tenant/namespace/name`
and `name`. `Spells` has one rule for each of them. The reader knows nothing of rules: it looks for the
first `://`, counts slashes, and tries the shapes one after the other, each on the whole text. A text that
fails in the full shape may thus be read in another one, and a name may have colons in it; that this
never lets a text in that no rule has, or reads one by two rules, is shown here.

Results:
1. `slashParts_eq_iff`: the parts between the slashes of a text.
2. `splitScheme?_append`, `eq_of_splitScheme?`: what stands around the first `://`.
3. `Shape.read?_eq_some_iff`: each reader accepts what the rule of its shape has.
4. `Spells.unique`: no text is of two shapes, or names two topics.
5. `topic_grammar`: what `parse?` and `canonicalize` make of every text.
-/

namespace TopicPublisher

namespace TopicName

/-! ## Definitions -/

/-- What may stand between the slashes of a topic. -/
def IsSegment (s : String) : Prop := s ≠ "" ∧ '/' ∉ s.toList

instance (s : String) : Decidable (IsSegment s) := inferInstanceAs (Decidable (_ ∧ _))

/-- The shapes of a topic. -/
inductive Shape where
  | full
  /-- Without the domain. -/
  | short
  /-- The name alone. -/
  | bare
  deriving DecidableEq, Repr

/-- The reader of a shape. -/
def Shape.read? : Shape → List Char → Option TopicName
  | .full => parseFull?
  | .short => parseSegments?
  | .bare => parseLocal?

/-- `Spells σ raw t`: the text `raw` is of shape `σ` and names the topic `t`. -/
inductive Spells : Shape → String → TopicName → Prop
  | full {d : TopicDomain} {a b c : String} : IsSegment a → IsSegment b → IsSegment c →
      Spells .full (d.text ++ "://" ++ a ++ "/" ++ b ++ "/" ++ c) ⟨d, a, b, c⟩
  | short {a b c : String} : IsSegment a → IsSegment b → IsSegment c →
      Spells .short (a ++ "/" ++ b ++ "/" ++ c) ⟨.persistent, a, b, c⟩
  | bare {n : String} : IsSegment n → Spells .bare n ⟨.persistent, "public", "default", n⟩

/-! ## 1. Slashes -/

theorem slashParts_eq_splitOn (cs : List Char) : slashParts cs = cs.splitOn '/' := by
  induction cs with
  | nil => rfl
  | cons c cs ih =>
    rw [slashParts, List.splitOn_cons_eq_if_modifyHead, ih]
    by_cases hc : c = '/'
    · simp [hc]
    · rw [if_neg hc, if_neg (by simpa using hc)]
      cases hp : cs.splitOn '/' with
      | nil => exact (List.splitOn_ne_nil _ _ hp).elim
      | cons part parts => rfl

theorem not_mem_of_mem_slashParts {cs part : List Char} (hp : part ∈ slashParts cs) : '/' ∉ part := by
  induction cs generalizing part with
  | nil => simp_all [slashParts]
  | cons c cs ih =>
    rw [slashParts] at hp
    split at hp
    · rcases List.mem_cons.1 hp with rfl | hp
      · exact List.not_mem_nil
      · exact ih hp
    · next hc =>
      split at hp
      · next hnil => exact (List.splitOn_ne_nil _ _ ((slashParts_eq_splitOn cs).symm.trans hnil)).elim
      · next first parts hparts =>
        rw [hparts] at ih
        rcases List.mem_cons.1 hp with rfl | hp
        · simp only [List.mem_cons, not_or]
          exact ⟨Ne.symm hc, ih List.mem_cons_self⟩
        · exact ih (List.mem_cons_of_mem _ hp)

/-- A text has the parts whose join it is, if no part has a slash. -/
theorem slashParts_eq_iff {cs : List Char} {parts : List (List Char)} : slashParts cs = parts ↔
    parts ≠ [] ∧ (∀ p ∈ parts, '/' ∉ p) ∧ cs = ['/'].intercalate parts := by
  constructor
  · rintro rfl
    refine ⟨?_, fun p hp => not_mem_of_mem_slashParts hp, ?_⟩
    · rw [slashParts_eq_splitOn]
      exact List.splitOn_ne_nil _ _
    · rw [slashParts_eq_splitOn, List.intercalate_splitOn]
  · rintro ⟨hne, hno, rfl⟩
    rw [slashParts_eq_splitOn, List.splitOn_intercalate '/' hno hne]

/-- Three segments with slashes between them. -/
theorem segments?_eq_some_iff {cs a b c : List Char} : segments? cs = some (a, b, c) ↔
    ((a ≠ [] ∧ '/' ∉ a) ∧ (b ≠ [] ∧ '/' ∉ b) ∧ (c ≠ [] ∧ '/' ∉ c)) ∧
      cs = a ++ '/' :: (b ++ '/' :: c) := by
  have hthree : slashParts cs = [a, b, c] ↔
      ('/' ∉ a ∧ '/' ∉ b ∧ '/' ∉ c) ∧ cs = a ++ '/' :: (b ++ '/' :: c) := by
    rw [slashParts_eq_iff]
    simp
  constructor
  · intro h
    unfold segments? at h
    split at h
    · next a' b' c' hparts =>
      split at h
      · cases h
      · next hne =>
        cases h
        obtain ⟨⟨ha, hb, hc⟩, rfl⟩ := hthree.1 hparts
        simp only [not_or] at hne
        exact ⟨⟨⟨hne.1, ha⟩, ⟨hne.2.1, hb⟩, ⟨hne.2.2, hc⟩⟩, rfl⟩
    · cases h
  · rintro ⟨⟨⟨ha, ha'⟩, ⟨hb, hb'⟩, ⟨hc, hc'⟩⟩, he⟩
    unfold segments?
    rw [hthree.2 ⟨⟨ha', hb', hc'⟩, he⟩]
    simp [ha, hb, hc]

/-! ## 2. Schemes -/

/-- The first `://` of a text is the one after a scheme without colons. -/
theorem splitScheme?_append {scheme : List Char} (hs : ':' ∉ scheme) (rest : List Char) :
    splitScheme? (scheme ++ ':' :: '/' :: '/' :: rest) = some (scheme, rest) := by
  induction scheme with
  | nil => rfl
  | cons c scheme ih =>
    simp only [List.mem_cons, not_or] at hs
    obtain ⟨hc, hs⟩ := hs
    rw [List.cons_append, splitScheme?, ih hs]
    · rfl
    · rintro r rfl
      exact (hc rfl).elim

theorem eq_of_splitScheme? {cs scheme rest : List Char} (h : splitScheme? cs = some (scheme, rest)) :
    cs = scheme ++ ':' :: '/' :: '/' :: rest := by
  induction cs using splitScheme?.induct generalizing scheme with
  | case1 => cases h
  | case2 => cases h; rfl
  | case3 c cs hc ih =>
    rw [splitScheme?] at h
    · obtain ⟨⟨scheme', rest'⟩, hr, he⟩ := Option.map_eq_some_iff.1 h
      cases he
      rw [ih hr, List.cons_append]
    · exact hc

/-! ## 3. Readers -/

theorem colon_not_mem_text (d : TopicDomain) : ':' ∉ d.text.toList := by
  cases d <;> decide

theorem ofScheme?_eq_some_iff {scheme : List Char} {d : TopicDomain} :
    TopicDomain.ofScheme? scheme = some d ↔ scheme = d.text.toList := by
  constructor
  · intro h
    unfold TopicDomain.ofScheme? at h
    split at h
    · next he => cases h; exact he
    · split at h
      · next he => cases h; exact he
      · cases h
  · rintro rfl
    cases d <;> decide

theorem isSegment_iff {s : String} : IsSegment s ↔ s.toList ≠ [] ∧ '/' ∉ s.toList := by
  unfold IsSegment
  rw [Ne, Ne, String.toList_eq_nil_iff]

theorem isSegment_ofList {cs : List Char} (h : cs ≠ [] ∧ '/' ∉ cs) : IsSegment (String.ofList cs) := by
  rw [isSegment_iff, String.toList_ofList]
  exact h

theorem toList_full (d a b c : String) : (d ++ "://" ++ a ++ "/" ++ b ++ "/" ++ c).toList =
    d.toList ++ ':' :: '/' :: '/' :: (a.toList ++ '/' :: (b.toList ++ '/' :: c.toList)) := by
  simp

theorem toList_short (a b c : String) : (a ++ "/" ++ b ++ "/" ++ c).toList =
    a.toList ++ '/' :: (b.toList ++ '/' :: c.toList) := by
  simp

theorem ofParts_toList (d : TopicDomain) (a b c : String) :
    ofParts d (a.toList, b.toList, c.toList) = ⟨d, a, b, c⟩ := by
  simp [ofParts]

theorem parseFull?_eq_some_iff {raw : String} {t : TopicName} :
    parseFull? raw.toList = some t ↔ Spells .full raw t := by
  constructor
  · intro h
    obtain ⟨⟨scheme, rest⟩, hscheme, h⟩ := Option.bind_eq_some_iff.1 h
    obtain ⟨d, hd, h⟩ := Option.bind_eq_some_iff.1 h
    obtain ⟨⟨a, b, c⟩, hparts, h⟩ := Option.bind_eq_some_iff.1 h
    cases h
    obtain ⟨⟨ha, hb, hc⟩, rfl⟩ := segments?_eq_some_iff.1 hparts
    have hraw : raw = d.text ++ "://" ++ String.ofList a ++ "/" ++ String.ofList b ++ "/" ++
        String.ofList c := by
      apply String.ext
      rw [toList_full, eq_of_splitScheme? hscheme, ofScheme?_eq_some_iff.1 hd]
      simp only [String.toList_ofList]
    rw [hraw]
    exact .full (isSegment_ofList ha) (isSegment_ofList hb) (isSegment_ofList hc)
  · intro h
    cases h with
    | @full d a b c ha hb hc =>
      rw [toList_full, ← ofParts_toList d a b c]
      have hparts := segments?_eq_some_iff.2
        ⟨⟨isSegment_iff.1 ha, isSegment_iff.1 hb, isSegment_iff.1 hc⟩, rfl⟩
      exact Option.bind_eq_some_iff.2 ⟨_, splitScheme?_append (colon_not_mem_text d) _,
        Option.bind_eq_some_iff.2 ⟨d, ofScheme?_eq_some_iff.2 rfl,
          Option.bind_eq_some_iff.2 ⟨_, hparts, rfl⟩⟩⟩

theorem parseSegments?_eq_some_iff {raw : String} {t : TopicName} :
    parseSegments? raw.toList = some t ↔ Spells .short raw t := by
  constructor
  · intro h
    obtain ⟨⟨a, b, c⟩, hparts, h⟩ := Option.map_eq_some_iff.1 h
    cases h
    obtain ⟨⟨ha, hb, hc⟩, he⟩ := segments?_eq_some_iff.1 hparts
    have hraw : raw = String.ofList a ++ "/" ++ String.ofList b ++ "/" ++ String.ofList c := by
      apply String.ext
      rw [toList_short, he]
      simp only [String.toList_ofList]
    rw [hraw]
    exact .short (isSegment_ofList ha) (isSegment_ofList hb) (isSegment_ofList hc)
  · intro h
    cases h with
    | @short a b c ha hb hc =>
      rw [toList_short, ← ofParts_toList .persistent a b c]
      have hparts := segments?_eq_some_iff.2
        ⟨⟨isSegment_iff.1 ha, isSegment_iff.1 hb, isSegment_iff.1 hc⟩, rfl⟩
      exact Option.map_eq_some_iff.2 ⟨_, hparts, rfl⟩

theorem parseLocal?_eq_some_iff {raw : String} {t : TopicName} :
    parseLocal? raw.toList = some t ↔ Spells .bare raw t := by
  unfold parseLocal?
  split
  · next hno =>
    refine ⟨nofun, fun h => ?_⟩
    cases h with
    | bare hn =>
      obtain ⟨hne, hslash⟩ := isSegment_iff.1 hn
      exact (hno.elim hne hslash).elim
  · next hraw =>
    rw [String.ofList_toList, Option.some_inj]
    constructor
    · rintro rfl
      exact .bare (isSegment_iff.2 (not_or.1 hraw))
    · intro h
      cases h
      rfl

/-- The reader of a shape accepts what the rule of the shape has, and nothing else. -/
theorem Shape.read?_eq_some_iff {σ : Shape} {raw : String} {t : TopicName} :
    σ.read? raw.toList = some t ↔ Spells σ raw t := by
  cases σ with
  | full => exact parseFull?_eq_some_iff
  | short => exact parseSegments?_eq_some_iff
  | bare => exact parseLocal?_eq_some_iff

/-! ## 4. Shapes -/

/-- The shapes differ in how many parts there are between slashes. -/
def Shape.size : Shape → Nat
  | .full => 5
  | .short => 3
  | .bare => 1

theorem Spells.length_slashParts {σ : Shape} {raw : String} {t : TopicName} (h : Spells σ raw t) :
    (slashParts raw.toList).length = σ.size := by
  cases h with
  | @full d a b c ha hb hc =>
    have hparts : slashParts (d.text ++ "://" ++ a ++ "/" ++ b ++ "/" ++ c).toList =
        [d.text.toList ++ [':'], [], a.toList, b.toList, c.toList] := by
      rw [toList_full, slashParts_eq_iff]
      have hd : '/' ∉ d.text.toList := by cases d <;> decide
      simp [hd, ha.2, hb.2, hc.2]
    rw [hparts]
    rfl
  | @short a b c ha hb hc =>
    have hparts : slashParts (a ++ "/" ++ b ++ "/" ++ c).toList = [a.toList, b.toList, c.toList] := by
      rw [toList_short, slashParts_eq_iff]
      simp [ha.2, hb.2, hc.2]
    rw [hparts]
    rfl
  | bare hn =>
    have hparts : slashParts raw.toList = [raw.toList] := by
      rw [slashParts_eq_iff]
      simp [hn.2]
    rw [hparts]
    rfl

/-- No text is of two shapes, or names two topics. -/
theorem Spells.unique {σ σ' : Shape} {raw : String} {t t' : TopicName} (h : Spells σ raw t)
    (h' : Spells σ' raw t') : σ = σ' ∧ t = t' := by
  have hsize : σ.size = σ'.size := h.length_slashParts.symm.trans h'.length_slashParts
  have hσ : σ = σ' := by
    cases σ <;> cases σ' <;> first | rfl | cases hsize
  subst hσ
  exact ⟨rfl, Option.some.inj ((Shape.read?_eq_some_iff.2 h).symm.trans (Shape.read?_eq_some_iff.2 h'))⟩

/-- In whatever order the shapes are tried, the topic that is found is the one that the text names. -/
theorem findSome?_read?_eq_some_iff {shapes : List Shape} (hall : ∀ σ, σ ∈ shapes) {raw : String}
    {t : TopicName} :
    shapes.findSome? (fun σ => σ.read? raw.toList) = some t ↔ ∃ σ, Spells σ raw t := by
  constructor
  · intro h
    obtain ⟨σ, -, hσ⟩ := List.exists_of_findSome?_eq_some h
    exact ⟨σ, Shape.read?_eq_some_iff.1 hσ⟩
  · rintro ⟨σ, hσ⟩
    have hsome : (shapes.findSome? fun σ => σ.read? raw.toList).isSome := by
      rw [List.findSome?_isSome_iff]
      exact ⟨σ, hall σ, by rw [Shape.read?_eq_some_iff.2 hσ]; rfl⟩
    obtain ⟨t', ht'⟩ := Option.isSome_iff_exists.1 hsome
    obtain ⟨σ', -, hσ'⟩ := List.exists_of_findSome?_eq_some ht'
    rw [ht', (hσ.unique (Shape.read?_eq_some_iff.1 hσ')).2]

/-! ## 5. The grammar -/

theorem parse?_eq_findSome? (raw : String) :
    parse? raw = [Shape.full, .short, .bare].findSome? fun σ => σ.read? raw.toList := by
  unfold parse?
  simp only [List.findSome?, Shape.read?]
  cases parseFull? raw.toList with
  | some t => rfl
  | none =>
    cases parseSegments? raw.toList with
    | some t => rfl
    | none => cases parseLocal? raw.toList <;> rfl

theorem parse?_eq_some_iff {raw : String} {t : TopicName} : parse? raw = some t ↔ ∃ σ, Spells σ raw t := by
  rw [parse?_eq_findSome?]
  exact findSome?_read?_eq_some_iff fun σ => by cases σ <;> decide

theorem text_mk (d : TopicDomain) (a b c : String) :
    text ⟨d, a, b, c⟩ = d.text ++ "://" ++ a ++ "/" ++ b ++ "/" ++ c := rfl

theorem canonicalize_of_parse? {raw : String} {t : TopicName} (h : parse? raw = some t) :
    canonicalize raw = t.text := by
  rw [canonicalize, h]

example : canonicalize "persistent:x" = "persistent://public/default/persistent:x" := by
  decide +kernel

theorem canonicalize_of_not_parse? {raw : String} (h : parse? raw = none) : canonicalize raw = raw := by
  rw [canonicalize, h]

example : canonicalize "a://b" = "a://b" := by decide +kernel

/-- What is made of a text:
* of `domain://tenant/namespace/name` and of `tenant/namespace/name`, with parts that are not empty and
  have no slash, the topic of these parts; the first is canonical as it is, and the second under
  `persistent`;
* of a name without slashes, the topic of that name in the default tenant and namespace;
* of all other texts no topic, and they stay as they are.

The shapes exclude each other, and trying them in another order, or more often than once, changes
nothing. -/
theorem topic_grammar (raw : String) :
    (∀ d a b c, IsSegment a → IsSegment b → IsSegment c →
      raw = d.text ++ "://" ++ a ++ "/" ++ b ++ "/" ++ c →
      parse? raw = some ⟨d, a, b, c⟩ ∧ canonicalize raw = raw) ∧
    (∀ a b c, IsSegment a → IsSegment b → IsSegment c → raw = a ++ "/" ++ b ++ "/" ++ c →
      parse? raw = some ⟨.persistent, a, b, c⟩ ∧ canonicalize raw = "persistent://" ++ raw) ∧
    (IsSegment raw → parse? raw = some ⟨.persistent, "public", "default", raw⟩ ∧
      canonicalize raw = "persistent://public/default/" ++ raw) ∧
    ((∀ σ t, ¬ Spells σ raw t) → parse? raw = none ∧ canonicalize raw = raw) ∧
    (∀ σ σ' t t', Spells σ raw t → Spells σ' raw t' → σ = σ' ∧ t = t') ∧
    ∀ shapes : List Shape, (∀ σ, σ ∈ shapes) →
      shapes.findSome? (fun σ => σ.read? raw.toList) = parse? raw := by
  refine ⟨?_, ?_, ?_, ?_, fun σ σ' t t' h h' => h.unique h', fun shapes hall => ?_⟩
  · rintro d a b c ha hb hc rfl
    have hparse := parse?_eq_some_iff.2 ⟨_, @Spells.full d a b c ha hb hc⟩
    refine ⟨hparse, ?_⟩
    rw [canonicalize_of_parse? hparse, text_mk]
  · rintro a b c ha hb hc rfl
    have hparse := parse?_eq_some_iff.2 ⟨_, Spells.short ha hb hc⟩
    refine ⟨hparse, ?_⟩
    rw [canonicalize_of_parse? hparse, text_mk]
    simp only [TopicDomain.text, String.append_assoc]
    rfl
  · intro hraw
    have hparse := parse?_eq_some_iff.2 ⟨_, Spells.bare hraw⟩
    refine ⟨hparse, ?_⟩
    rw [canonicalize_of_parse? hparse, text_mk]
    rfl
  · intro hno
    have hparse : parse? raw = none := by
      refine Option.eq_none_iff_forall_ne_some.2 fun t ht => ?_
      obtain ⟨σ, hσ⟩ := parse?_eq_some_iff.1 ht
      exact hno σ t hσ
    exact ⟨hparse, canonicalize_of_not_parse? hparse⟩
  · refine Option.ext fun t => ?_
    rw [findSome?_read?_eq_some_iff hall, parse?_eq_some_iff]

/-- A colon before the first slash, a scheme without slashes behind it, and a scheme that is none. -/
theorem topic_grammar_of_colons :
    parse? "non-persistent://a:b/c/:" = some ⟨.nonPersistent, "a:b", "c", ":"⟩ ∧
    canonicalize "persistent:/b/c" = "persistent://persistent:/b/c" ∧
    parse? "persistent:" = some ⟨.persistent, "public", "default", "persistent:"⟩ ∧
    canonicalize "kafka://a/b/c" = "kafka://a/b/c" := by
  refine ⟨?_, ?_, ?_, ?_⟩
  · exact ((topic_grammar _).1 .nonPersistent "a:b" "c" ":" (by decide) (by decide) (by decide) rfl).1
  · exact ((topic_grammar _).2.1 "persistent:" "b" "c" (by decide) (by decide) (by decide) rfl).2
  · exact ((topic_grammar _).2.2.1 (by decide)).1
  · refine ((topic_grammar _).2.2.2.1 fun σ t h => ?_).2
    have hread := Shape.read?_eq_some_iff.2 h
    have hnone : σ.read? "kafka://a/b/c".toList = none := by cases σ <;> decide +kernel
    cases hnone.symm.trans hread

end TopicName

end TopicPublisher
