import TopicPublisher.Proofs.Factory.Orderly
import TopicPublisher.Proofs.Topic.Grammar

/-!
# Keys of topics

The factory keeps producers under the canonical texts of topics. A canonical text of a topic is itself a
spelling of the topic, and of no other; a text that names no topic is its own key. So the key of a text
says which topic the text names, and two texts have one key only where they name one topic, or are one
text.

Results:
1. `parse?_text`, `parse?_canonicalize`: the text of a topic names that topic, and so does the key of a text.
2. `canonicalize_eq_iff`: which texts have the same key.
3. `Run.topic_of_handle`: the handle that a call is given is of the call's topic.
4. `key_identifies_topic`: keys, and the producers kept under them.
-/

namespace TopicPublisher

namespace TopicName

/-! ## Definitions -/

/-- Two texts name the same topic. -/
def SameTopic (x y : String) : Prop := ∃ t, parse? x = some t ∧ parse? y = some t

/-! ## 1. Texts of topics -/

/-- The text of a topic that is named by some text is of the full shape. -/
theorem Spells.text {σ : Shape} {raw : String} {t : TopicName} (h : Spells σ raw t) :
    Spells .full t.text t := by
  cases h with
  | full ha hb hc | short ha hb hc => exact .full ha hb hc
  | bare hn =>
    have hpublic : IsSegment "public" := by decide
    have hdefault : IsSegment "default" := by decide
    exact .full hpublic hdefault hn

theorem parse?_text {raw : String} {t : TopicName} (h : parse? raw = some t) :
    parse? t.text = some t := by
  obtain ⟨σ, hσ⟩ := parse?_eq_some_iff.1 h
  exact parse?_eq_some_iff.2 ⟨.full, hσ.text⟩

/-- The key of a text names what the text names. -/
theorem parse?_canonicalize (raw : String) : parse? (canonicalize raw) = parse? raw := by
  cases h : parse? raw with
  | none => rw [canonicalize_of_not_parse? h, h]
  | some t => rw [canonicalize_of_parse? h, parse?_text h]

theorem canonicalize_canonicalize (raw : String) :
    canonicalize (canonicalize raw) = canonicalize raw := by
  cases h : parse? raw with
  | none => rw [canonicalize_of_not_parse? h, canonicalize_of_not_parse? h]
  | some t => rw [canonicalize_of_parse? h, canonicalize_of_parse? (parse?_text h)]

/-! ## 2. Keys -/

/-- Two texts have one key only where they are one text or name one topic. -/
theorem canonicalize_eq_iff {x y : String} :
    canonicalize x = canonicalize y ↔ x = y ∨ SameTopic x y := by
  constructor
  · intro h
    have hparse : parse? x = parse? y := by
      rw [← parse?_canonicalize x, h, parse?_canonicalize y]
    cases hx : parse? x with
    | none =>
      rw [canonicalize_of_not_parse? hx, canonicalize_of_not_parse? (hparse.symm.trans hx)] at h
      exact .inl h
    | some t => exact .inr ⟨t, hx, hparse.symm.trans hx⟩
  · rintro (rfl | ⟨t, hx, hy⟩)
    · rfl
    · rw [canonicalize_of_parse? hx, canonicalize_of_parse? hy]

/-- A text that names no topic has the key of no text that names one. -/
theorem canonicalize_ne {x y : String} {t : TopicName} (hx : parse? x = none)
    (hy : parse? y = some t) : canonicalize x ≠ canonicalize y := by
  intro h
  rcases canonicalize_eq_iff.1 h with rfl | ⟨t', hx', -⟩
  · cases hx.symm.trans hy
  · cases hx.symm.trans hx'

end TopicName

/-! ## 3. Handles -/

namespace Factory

open SoundLemmas TopicName

/-- The handle that a call ended with is of the topic that the call was made for. -/
theorem Run.topic_of_handle {tr : List (Label × Factory)} {s : Factory} (h : Run PublicOnly tr s) :
    ∀ c w v, Made tr c (.want w) → s.calls.get? c = some (.ended (.handle v)) →
      s.topic? v = some w.topic := by
  refine (Run.induct_orderly (I := fun tr s _ => ∀ c w v, Made tr c (.want w) →
    s.calls.get? c = some (.ended (.handle v)) → s.topic? v = some w.topic) ?_ ?_ ?_ h).2
  · rintro c w v ⟨s₀, hm, -⟩
    cases hm
  · intro tr s s₁ l run o ih _ hb c w v hmade hc
    rcases hb.moves hc with hc' | henters
    · -- The call had ended before, so it is not the one that was made just now.
      have hmade' : Made tr c (.want w) := by
        obtain ⟨s₀, hm, hsize⟩ := hmade
        rcases List.mem_cons.1 hm with he | hm
        · cases he
          exact absurd (Registry.lt_size_of_get? hc') (by omega)
        · exact ⟨s₀, hm, hsize⟩
      exact topic?_later hb.later (ih c w v hmade' hc')
    · cases henters with
      | ended hno => exact (hno v rfl).elim
  · intro tr s s₁ c' a next o ih ht c w v hmade hc
    obtain ⟨owner, hs⟩ := o.sound
    rcases ht.yields hs hc with hc' | ⟨rfl, hy⟩
    · exact topic?_later ht.later (ih c w v hmade hc')
    · cases hy with
      | handle =>
        obtain ⟨r, hmade', hr⟩ := (o.storied.act _ _ rfl).made
        cases o.storied.requested.once c _ _ hmade (hr ▸ hmade')
        exact topic?_later ht.later (hs.act _ _ rfl).1

/-- A handle that is in the map under one key is in it under no other. -/
theorem Run.key_of_handle {tr : List (Label × Factory)} {s : Factory} (h : Run PublicOnly tr s)
    {t t' : String} {v : HandleId} (hv : s.cache.handle? t = some v)
    (hv' : s.cache.handle? t' = some v) : t = t' := by
  obtain ⟨owner, hs⟩ := h.orderly.sound
  exact Option.some.inj ((topic?_of_handle? hs hv).symm.trans (topic?_of_handle? hs hv'))

/-- The key of a text is a spelling of the same topic, and its own key. Two texts have the same key
exactly if they are the same text or name the same topic; so a text that names a topic has no key in
common with one that names none. Requests for the producers of two texts are one request exactly in that
case, and in every run so are the producers: those that the map has for the two texts, and those that
callers are given for them. -/
theorem key_identifies_topic (x y : String) :
    canonicalize (canonicalize x) = canonicalize x ∧ parse? (canonicalize x) = parse? x ∧
    (canonicalize x = canonicalize y ↔ x = y ∨ SameTopic x y) ∧
    (∀ t, parse? x = none → parse? y = some t → canonicalize x ≠ canonicalize y) ∧
    (Request.createProducer x = Request.createProducer y ↔ x = y ∨ SameTopic x y) ∧
    ∀ tr s, Run PublicOnly tr s →
      (∀ v, s.cache.handle? (canonicalize x) = some v →
        (s.cache.handle? (canonicalize y) = some v ↔ x = y ∨ SameTopic x y)) ∧
      ∀ c c' v, Made tr c (.createProducer x) → Made tr c' (.createProducer y) →
        s.calls.get? c = some (.ended (.handle v)) → s.calls.get? c' = some (.ended (.handle v)) →
        x = y ∨ SameTopic x y := by
  refine ⟨canonicalize_canonicalize x, parse?_canonicalize x, canonicalize_eq_iff,
    fun t hx hy => canonicalize_ne hx hy, ?_, fun tr s h => ⟨fun v hv => ?_, ?_⟩⟩
  · rw [← canonicalize_eq_iff]
    constructor
    · exact fun he => congrArg Want.topic (Request.want.inj he)
    · intro he
      unfold Request.createProducer
      rw [he]
  · rw [← canonicalize_eq_iff]
    constructor
    · exact fun hv' => h.key_of_handle hv hv'
    · exact fun he => he ▸ hv
  · intro c c' v hmade hmade' hc hc'
    have ht := h.topic_of_handle c _ v hmade hc
    have ht' := h.topic_of_handle c' _ v hmade' hc'
    exact canonicalize_eq_iff.1 (Option.some.inj (ht.symm.trans ht'))

/-- A producer that was opened for a name, and is given to a caller who spells the topic out. -/
theorem key_identifies_topic_shared :
    ∃ tr s, Run PublicOnly tr s ∧ s.calls.get? 0 = some (.ended (.handle 0)) ∧
      s.calls.get? 1 = some (.ended (.handle 0)) ∧
      SameTopic "t" "persistent://public/default/t" ∧
      s.cache.handle? (canonicalize "persistent://public/default/t") = some 0 := by
  have h : Run PublicOnly _ _ :=
    Run.new.play [.call (.createProducer "t"), .resume 0, .answer 0 0 (.opened (.ok .sequential)),
      .call (.createProducer "persistent://public/default/t"), .resume 1]
      (by simp [PublicOnly, Request.IsPublic, Request.createProducer]) rfl
  have hkeys := (key_identifies_topic "t" "persistent://public/default/t").2.2.2.2.2 _ _ h
  have hshared := hkeys.2 0 1 0 ⟨_, List.mem_of_getElem? (i := 4) rfl, rfl⟩
    ⟨_, List.mem_of_getElem? (i := 1) rfl, rfl⟩ rfl rfl
  refine ⟨_, _, h, rfl, rfl, hshared.resolve_left (by decide), ?_⟩
  exact (hkeys.1 0 rfl).2 hshared

end Factory

end TopicPublisher
