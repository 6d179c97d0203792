import TopicPublisher.Proofs.Topic.Grammar

/-!
# Names and their texts

Parts of any kind can be put together to a name, and every name has a text. Only a proper name, one whose
parts are segments, is read back from its text; the text of any other name is refused. It cannot be read as
some other name by accident: parts with slashes in them make the text longer by as many slashes, and no
shape has more of them than the full one.

Results:
1. `length_slashParts`: how many parts a text has.
2. `parse?_text_eq_some_iff`: what is read from the text of a name.
3. `Proper.eq_of_text`: no other name has the text of a proper one.
4. `text_round_trip`: texts and names.
-/

namespace TopicPublisher

namespace TopicName

/-! ## Definitions -/

/-- All parts of the name are segments. -/
structure Proper (t : TopicName) : Prop where
  tenant : IsSegment t.tenant
  namespaceName : IsSegment t.namespaceName
  localName : IsSegment t.localName

/-! ## 1. Counting slashes -/

variable {σ : Shape} {raw : String} {t t' : TopicName}

theorem length_slashParts (cs : List Char) : (slashParts cs).length = cs.count '/' + 1 := by
  induction cs with
  | nil => rfl
  | cons c cs ih =>
    rw [slashParts]
    split
    · next hc => rw [hc, List.length_cons, ih, List.count_cons_self]
    · next hc =>
      rw [List.count_cons_of_ne hc, ← ih]
      split
      · next hnil => rw [hnil] at ih; cases ih
      · next part parts hparts => rw [hparts]; rfl

/-- The slashes of a text are the four of its shape and those in the parts. -/
theorem count_text (t : TopicName) : t.text.toList.count '/' =
    4 + t.tenant.toList.count '/' + t.namespaceName.toList.count '/' + t.localName.toList.count '/' := by
  have hd : t.domain.text.toList.count '/' = 0 := by cases t.domain <;> decide
  have hcolon : ∀ cs : List Char, (':' :: cs).count '/' = cs.count '/' := fun cs =>
    List.count_cons_of_ne (by decide)
  have hslash : ∀ cs : List Char, ('/' :: cs).count '/' = cs.count '/' + 1 := fun cs =>
    List.count_cons_self
  rw [text, toList_full]
  simp only [List.count_append, hcolon, hslash, hd]
  omega

/-! ## 2. Reading a text -/

theorem Spells.proper (h : Spells σ raw t) : t.Proper := by
  cases h with
  | full ha hb hc | short ha hb hc => exact ⟨ha, hb, hc⟩
  | bare hn =>
    have hpublic : IsSegment "public" := by decide
    have hdefault : IsSegment "default" := by decide
    exact ⟨hpublic, hdefault, hn⟩

theorem Proper.spells (h : t.Proper) : Spells .full t.text t :=
  .full h.tenant h.namespaceName h.localName

theorem Spells.eq_text (h : Spells .full raw t) : raw = t.text := by
  cases h
  rfl

/-- The parts around the slashes of a text whose name has none in its own parts. -/
theorem slashParts_text (ha : '/' ∉ t.tenant.toList) (hb : '/' ∉ t.namespaceName.toList)
    (hc : '/' ∉ t.localName.toList) : slashParts t.text.toList =
      [t.domain.text.toList ++ [':'], [], t.tenant.toList, t.namespaceName.toList, t.localName.toList] := by
  have hd : '/' ∉ t.domain.text.toList := by cases t.domain <;> decide
  rw [text, toList_full, slashParts_eq_iff]
  simp [hd, ha, hb, hc]

theorem domain_text_inj {d d' : TopicDomain} (h : d.text.toList ++ [':'] = d'.text.toList ++ [':']) :
    d = d' := by
  cases d <;> cases d' <;> first | rfl | (revert h; decide)

/-- What is read from the text of a name is that name, and the name is proper. -/
theorem eq_of_spells_text (h : Spells σ t.text t') : t' = t := by
  have hsize : σ.size = t.text.toList.count '/' + 1 :=
    h.length_slashParts.symm.trans (length_slashParts _)
  rw [count_text] at hsize
  -- No shape has more than five parts, so there are no slashes besides the four.
  have hle : σ.size ≤ 5 := by cases σ <;> decide
  have hfull : 5 ≤ σ.size → σ = .full := by cases σ <;> decide
  have hσ : σ = .full := hfull (by omega)
  subst hσ
  have hparts := slashParts_text (t := t) (List.count_eq_zero.1 (by omega))
    (List.count_eq_zero.1 (by omega)) (List.count_eq_zero.1 (by omega))
  have hp := h.proper
  have hparts' := slashParts_text hp.tenant.2 hp.namespaceName.2 hp.localName.2
  rw [← h.eq_text, hparts] at hparts'
  simp only [List.cons.injEq, String.toList_inj, and_true, true_and] at hparts'
  obtain ⟨hd, ha, hb, hc⟩ := hparts'
  obtain ⟨d, a, b, c⟩ := t
  obtain ⟨d', a', b', c'⟩ := t'
  cases domain_text_inj hd
  simp only at ha hb hc
  rw [ha, hb, hc]

theorem parse?_text_eq_some_iff : parse? t.text = some t' ↔ t' = t ∧ t.Proper := by
  rw [parse?_eq_some_iff]
  constructor
  · rintro ⟨σ, h⟩
    have heq := eq_of_spells_text h
    exact ⟨heq, heq ▸ h.proper⟩
  · rintro ⟨rfl, h⟩
    exact ⟨.full, h.spells⟩

theorem parse?_text_eq_none (h : ¬ t.Proper) : parse? t.text = none :=
  Option.eq_none_iff_forall_ne_some.2 fun _ ht => h (parse?_text_eq_some_iff.1 ht).2

/-- A name that is read from a text is proper. -/
theorem proper_of_parse? (h : parse? raw = some t) : t.Proper := by
  obtain ⟨σ, hσ⟩ := parse?_eq_some_iff.1 h
  exact hσ.proper

/-! ## 3. Texts -/

/-- No other name has the text of a proper one. -/
theorem Proper.eq_of_text (h : t.Proper) (htext : t.text = t'.text) : t = t' := by
  have hread : parse? t'.text = some t := htext ▸ parse?_text_eq_some_iff.2 ⟨rfl, h⟩
  exact (parse?_text_eq_some_iff.1 hread).1

/-- Three parts are read back from the text of their name exactly if none of them is empty or has a slash
in it; otherwise the text of the name is read as no name at all. A name that is read from any text has such
parts, so it is read again from its own text, and this text is the text of no other name. -/
theorem text_round_trip :
    (∀ d a b c, parse? (text ⟨d, a, b, c⟩) = some ⟨d, a, b, c⟩ ↔
      (a ≠ "" ∧ '/' ∉ a.toList) ∧ (b ≠ "" ∧ '/' ∉ b.toList) ∧ (c ≠ "" ∧ '/' ∉ c.toList)) ∧
    (∀ t : TopicName, ¬ t.Proper → parse? t.text = none) ∧
    (∀ raw t, parse? raw = some t → t.Proper ∧ parse? t.text = some t) ∧
    ∀ t t' : TopicName, t.Proper → t.text = t'.text → t = t' := by
  refine ⟨fun d a b c => ?_, fun t h => parse?_text_eq_none h, fun raw t h => ?_,
    fun t t' h htext => h.eq_of_text htext⟩
  · rw [parse?_text_eq_some_iff]
    constructor
    · exact fun ⟨_, h⟩ => ⟨h.tenant, h.namespaceName, h.localName⟩
    · exact fun ⟨ha, hb, hc⟩ => ⟨rfl, ha, hb, hc⟩
  · have hp := proper_of_parse? h
    exact ⟨hp, parse?_text_eq_some_iff.2 ⟨rfl, hp⟩⟩

/-- A name whose tenant looks like a scheme, one whose first part is cut in two by a slash, and the name
that is read from a bare text. -/
theorem text_round_trip_of_schemes :
    parse? "non-persistent://persistent:/b/c" = some ⟨.nonPersistent, "persistent:", "b", "c"⟩ ∧
    parse? "persistent://x://y/b/c" = none ∧
    parse? "persistent://public/default/:" = parse? ":" ∧
    ∀ t : TopicName, text ⟨.persistent, "a", "b", "c"⟩ = t.text → ⟨.persistent, "a", "b", "c"⟩ = t := by
  refine ⟨?_, ?_, ?_, fun t h => ?_⟩
  · exact (text_round_trip.1 .nonPersistent "persistent:" "b" "c").2 (by decide)
  · exact text_round_trip.2.1 ⟨.persistent, "x://y", "b", "c"⟩ fun h => absurd h.tenant (by decide)
  · have hbare : parse? ":" = some ⟨.persistent, "public", "default", ":"⟩ := by decide +kernel
    rw [hbare]
    exact (text_round_trip.2.2.1 ":" _ hbare).2
  · exact text_round_trip.2.2.2 ⟨.persistent, "a", "b", "c"⟩ t ⟨by decide, by decide, by decide⟩ h

end TopicName

end TopicPublisher
