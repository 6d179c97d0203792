import Mathlib.Logic.Relation
import TopicPublisher.Proofs.Factory.Orderly
import TopicPublisher.Template

/-!
# Sends that fail by themselves

A send makes its message before it turns to the factory, and where no message can be made it fails there.
Such a call is made and ends, and that is all: the cache, the handles with their borrows, what callers were
given and what was asked of the wire client are as they were, whatever state the factory is in and whatever
other calls do meanwhile. So it cannot find out that the factory is closed either.

Results:
1. `Template.outbound_eq_error_iff`: when a send fails by itself, and with which error.
2. `Refused.step`: a refused call stays one, and its steps touch nothing.
3. `refusals_touch_nothing`: sends, in every state.
-/

namespace TopicPublisher

/-! ## Definitions -/

/-- How a send fails by itself. -/
inductive Template.FailsBefore (t : Template) : SendForm → Error → Prop
  | noDefaultTopic {spec : MessageSpec} : t.defaultTopic = none →
      FailsBefore t (.toDefault spec) .noDefaultTopic
  /-- The converter finds a header malformed, or no topic, or has an error of its own. -/
  | unconverted {env : Envelope} {e : Error} : t.converter env t.defaultTopic = .error e →
      FailsBefore t (.envelope env) e
  | unwritten {topic text : String} {value : Writable} : value.write = .error text →
      FailsBefore t (.json topic value) (.serialization text)

namespace Factory

/-- Nothing is changed but where call `c` is, and nothing is asked of the wire client. -/
structure Inert (c : CallId) (s s' : Factory) : Prop where
  cache : s'.cache = s.cache
  handles : s'.handles = s.handles
  leases : s'.leases = s.leases
  pending : s'.pending = s.pending
  tickets : s'.tickets = s.tickets
  deeds : s'.deeds = s.deeds
  calls : ∀ i, i ≠ c → s'.calls.get? i = s.calls.get? i

/-- The points that a call gets to which is refused with error `e`. -/
inductive Refused (e : Error) : Progress → Prop
  | fresh : Refused e (.fresh (.refuse e))
  | failed : Refused e (.ended (.failed e))
  | aborted : Refused e .aborted
  | crashed : Refused e .crashed

/-- What may become of a factory. -/
def Becomes : Factory → Factory → Prop := Relation.ReflTransGen fun s s' => ∃ l, s.step l = some s'

end Factory

/-! ## 1. The reasons -/

/-- A send fails before it turns to the factory exactly for one of the reasons. -/
theorem Template.outbound_eq_error_iff {t : Template} {form : SendForm} {e : Error} :
    t.outbound form = .error e ↔ t.FailsBefore form e := by
  constructor
  · intro h
    cases form with
    | message => cases h
    | toDefault spec =>
      cases hd : t.defaultTopic with
      | some topic => simp [outbound, hd] at h
      | none =>
        simp only [outbound, hd, Except.error.injEq] at h
        exact h ▸ .noDefaultTopic hd
    | envelope env => exact .unconverted h
    | json topic value =>
      cases hw : value.write with
      | ok text => simp [outbound, hw] at h
      | error text =>
        simp only [outbound, hw, Except.error.injEq] at h
        exact h ▸ .unwritten hw
  · intro h
    cases h with
    | noDefaultTopic hd => simp only [outbound, hd]
    | unconverted h => exact h
    | unwritten hw => simp only [outbound, hw]

theorem Template.request_of_failsBefore {t : Template} {form : SendForm} {e : Error}
    (h : t.FailsBefore form e) (delivery : Delivery) : t.request form delivery = .refuse e := by
  unfold request
  rw [outbound_eq_error_iff.2 h]
  rfl

theorem Template.request_of_not_failsBefore {t : Template} {form : SendForm}
    (h : ∀ e, ¬ t.FailsBefore form e) (delivery : Delivery) : ∃ w, t.request form delivery = .want w := by
  unfold request
  cases hout : t.outbound form with
  | error e => exact absurd (outbound_eq_error_iff.1 hout) (h e)
  | ok m => exact ⟨_, rfl⟩

/-! ## 2. Refused calls -/

namespace Factory

variable {s s' s₁ s₂ : Factory} {c i : CallId} {l : Label} {e : Error} {p : Progress}
  {run : Option (CallId × Act)}

theorem Inert.trans (h : Inert c s s₁) (h' : Inert c s₁ s₂) : Inert c s s₂ where
  cache := h'.cache.trans h.cache
  handles := h'.handles.trans h.handles
  leases := h'.leases.trans h.leases
  pending := h'.pending.trans h.pending
  tickets := h'.tickets.trans h.tickets
  deeds := h'.deeds.trans h.deeds
  calls i hi := (h'.calls i hi).trans (h.calls i hi)

/-- A call is made. -/
theorem inert_start (s : Factory) (p : Progress) : Inert s.calls.size s (s.start p) where
  cache := rfl
  handles := rfl
  leases := rfl
  pending := rfl
  tickets := rfl
  deeds := by simp [start, deeds_note, Deed]
  calls i hi := (Registry.get?_add _ _ _).trans (if_neg hi)

/-- A call is over, in whatever way. -/
theorem inert_over (s : Factory) (c : CallId) (p : Progress) :
    Inert c s ((s.goTo c p).note (.finished c)) where
  cache := rfl
  handles := rfl
  leases := rfl
  pending := rfl
  tickets := rfl
  deeds := by simp [goTo, deeds_note, Deed]
  calls i hi := (Registry.get?_update _ _ _ _).trans (if_neg (Ne.symm hi))

/-- A step moves no call but the one that it is about. -/
theorem step_others (hs : s.step l = some s') (hi : l.actor? ≠ some i)
    (hp : s.calls.get? i = some p) : s'.calls.get? i = some p := by
  have hpath : ∀ {s₁ run}, Path s l s₁ run →
      s₁.calls.get? i = some p ∧ ∀ c a, run = some (c, a) → l.actor? = some c := by
    intro s₁ run h
    induction h with
    | begin hb =>
      refine ⟨hb.others hi hp, ?_⟩
      rintro c a rfl
      exact hb.runs
    | @turn s₁ s₂ c a next _ ht ih =>
      have hc := ih.2 c a rfl
      refine ⟨ht.others (fun hic => hi (hic ▸ hc)) ih.1, fun c' a' hrun => ?_⟩
      obtain ⟨_, -, he⟩ := Option.map_eq_some_iff.1 hrun
      cases he
      exact hc
  exact (hpath (path_of_step hs)).1

/-- A refused call stays one, and what it does touches nothing. -/
theorem Refused.step (h : Refused e p) (hp : s.calls.get? c = some p) (hs : s.step l = some s') :
    (∃ p', s'.calls.get? c = some p' ∧ Refused e p') ∧ (l.actor? = some c → Inert c s s') := by
  by_cases hl : l.actor? = some c
  · obtain ⟨p', hp', rfl⟩ : ∃ p', Refused e p' ∧ s' = (s.goTo c p').note (.finished c) := by
      cases h with
      | fresh =>
        cases l with
        | call | lease | release => cases hl
        | resume =>
          cases hl
          rw [Factory.step, hp] at hs
          cases hs
          exact ⟨_, .failed, rfl⟩
        | answer =>
          cases hl
          rw [Factory.step, hp] at hs
          cases hs
        | abort =>
          cases hl
          rw [Factory.step, hp] at hs
          cases hs
          exact ⟨_, .aborted, rfl⟩
        | crash =>
          cases hl
          rw [Factory.step, hp] at hs
          cases hs
          exact ⟨_, .crashed, rfl⟩
      | failed | aborted | crashed =>
        -- A call that is over takes no step.
        obtain ⟨s₁, run, hb, -⟩ := begins_of_step hs
        obtain ⟨q, hq, hno⟩ := hb.active hl
        cases hp.symm.trans hq
        cases hno
    exact ⟨⟨p', get?_goTo hp, hp'⟩, fun _ => inert_over s c p'⟩
  · exact ⟨⟨p, step_others hs hl hp, h⟩, fun hc => absurd hc hl⟩

/-- So it is however much happens. -/
theorem Refused.becomes (h : Refused e p) (hp : s.calls.get? c = some p) (hs : s.Becomes s₁) :
    ∃ p', s₁.calls.get? c = some p' ∧ Refused e p' := by
  induction hs with
  | refl => exact ⟨p, hp, h⟩
  | tail _ hstep ih =>
    obtain ⟨l, hl⟩ := hstep
    obtain ⟨p', hp', h'⟩ := ih
    exact (h'.step hp' hl).1

/-! ## 3. Sends -/

/-- In whatever state a factory is, a call for a send of any form, acknowledged or promised, can be made and
touches nothing by that. If there is a reason for the send to fail by itself, it fails with that error as
soon as it goes on, be the factory open or closed, and touches nothing by that either. Whatever else
happens before and afterwards, all that becomes of the call is that it fails with this error, is aborted or
crashes, and no step of it ever touches anything. Only without such a reason does a send find out that the
factory is closed, and fail because of that. -/
theorem refusals_touch_nothing (t : Template) (form : SendForm) (delivery : Delivery) (s : Factory) :
    ∃ s₀, s.step (.call (t.request form delivery)) = some s₀ ∧ Inert s.calls.size s s₀ ∧
      (∀ e, t.FailsBefore form e →
        (∃ s₁, s₀.step (.resume s.calls.size) = some s₁ ∧
          s₁.calls.get? s.calls.size = some (.ended (.failed e)) ∧ Inert s.calls.size s s₁) ∧
        ∀ s₁, s₀.Becomes s₁ →
          (∃ p, s₁.calls.get? s.calls.size = some p ∧ Refused e p) ∧
          ∀ l s₂, l.actor? = some s.calls.size → s₁.step l = some s₂ → Inert s.calls.size s₁ s₂) ∧
      ((∀ e, ¬ t.FailsBefore form e) → s.cache.closed = true →
        ∃ s₁, s₀.step (.resume s.calls.size) = some s₁ ∧
          s₁.calls.get? s.calls.size = some (.ended (.failed .factoryClosed))) := by
  have hfresh : ∀ r, (s.start (.fresh r)).calls.get? s.calls.size = some (.fresh r) := fun r =>
    (Registry.get?_add _ _ _).trans (if_pos rfl)
  refine ⟨_, rfl, inert_start s _, fun e he => ?_, fun hno hclosed => ?_⟩
  · rw [Template.request_of_failsBefore he]
    have hstep : (s.start (.fresh (.refuse e))).step (.resume s.calls.size) = _ :=
      congrArg (Option.bind · _) (hfresh (.refuse e))
    refine ⟨⟨_, hstep, get?_goTo (hfresh _), (inert_start s _).trans (inert_over _ _ _)⟩,
      fun s₁ hs₁ => ?_⟩
    obtain ⟨p, hp, h⟩ := Refused.fresh.becomes (hfresh (.refuse e)) hs₁
    exact ⟨⟨p, hp, h⟩, fun l s₂ hl hs => (h.step hp hs).2 hl⟩
  · obtain ⟨w, hw⟩ := Template.request_of_not_failsBefore hno delivery
    rw [hw]
    have hlook : (s.start (.fresh (.want w))).look s.calls.size w =
        ((s.start (.fresh (.want w))).note (.lookedUp s.calls.size w.topic)).finish s.calls.size
          (.failed .factoryClosed) := if_pos hclosed
    have hstep : (s.start (.fresh (.want w))).step (.resume s.calls.size) = _ :=
      congrArg (Option.bind · _) (hfresh (.want w))
    refine ⟨_, hstep, ?_⟩
    show ((s.start (.fresh (.want w))).look s.calls.size w).calls.get? s.calls.size = _
    rw [hlook]
    exact get?_goTo (hfresh _)

/-- A closed factory, and an envelope whose topic is no text. -/
theorem refusals_touch_nothing_closed :
    ∃ s₀ s₁ : Factory, step { cache := { closed := true } }
        (.call (Template.request {} (.envelope ⟨[(Envelope.topicHeader, .integer 7)], []⟩) .promised)) =
          some s₀ ∧
      s₀.step (.resume 0) = some s₁ ∧
      s₁.calls.get? 0 = some (.ended (.failed (.malformedHeader "pulsar_topic" "integer"))) ∧
      Inert 0 { cache := { closed := true } } s₁ := by
  obtain ⟨s₀, hcall, -, hfails, -⟩ := refusals_touch_nothing {}
    (.envelope ⟨[(Envelope.topicHeader, .integer 7)], []⟩) .promised { cache := { closed := true } }
  obtain ⟨⟨s₁, hresume, hended, hinert⟩, -⟩ := hfails _ (.unconverted rfl)
  exact ⟨s₀, s₁, hcall, hresume, hended, hinert⟩

end Factory

end TopicPublisher
