import TopicPublisher.Proofs.Factory.Storied

/-!
# Resets are invisible to senders

A reset may fall anywhere into a send: before its look-up, while it waits for another call's creation,
between the creation and the placement, between the lease and the dispatch, or while the receipt is
pending. Whatever the order, a send ends as it would have without the reset: with the error of a creation
of its own, or with the result of its one message. A handle that a reset took is as good as gone: nobody
gets it or a lease on it any more, and only those hand it messages that had a lease on it before.

Results:
1. `Turn.hands`, `Begins.hands`: who hands over messages at a moment.
2. `Run.unclosed`: no message is handed to a producer that was closed.
3. `Turn.bars`, `Begins.bars`, `Run.left`: what is left of a handle that was taken out of the map.
4. `resets_invisible`: all this, and how sends end, in runs without a shutdown or a crash.
-/

namespace TopicPublisher

namespace Factory

/-! ## Definitions -/

/-- A message is handed to a producer. -/
def Hands (v : HandleId) : Event → Bool
  | .asked _ _ d => d.receiver? = some v
  | _ => false

/-- What is left of a handle that was taken out of the map in state `s₀`.

* `messages`: only calls that held a lease on it handed messages to its producer.
* `tasks`: no call was begun to dispatch a message through it.
* `handles`: no call ended with it.
* `leases`: no call ended with a lease on it. -/
structure Left (s₀ s : Factory) (v : HandleId) : Prop where
  retiring : s.isRetiring v = true
  messages : ∃ later, s.deeds = s₀.deeds ++ later ∧ ∀ i t d, .asked i t d ∈ later →
    d.receiver? = some v → ∃ p, s₀.calls.get? i = some p ∧ p.held? = some v
  tasks : ∀ i m p, s.calls.get? i = some (.fresh (.dispatch v m p)) →
    s₀.calls.get? i = some (.fresh (.dispatch v m p))
  handles : ∀ i, s.calls.get? i = some (.ended (.handle v)) →
    s₀.calls.get? i = some (.ended (.handle v))
  leases : ∀ i l y, s.calls.get? i = some (.ended (.lease l)) → s.leases.get? l = some y →
    y.handle = v → s₀.calls.get? i = some (.ended (.lease l))

section

variable (tr : List (Label × Factory)) (s : Factory) (c : CallId)

/-- The outcome of a message that call `c` promised to send is what its one request to the producer gave.
Call `c` has the message queued, or leaves it to the one call that was begun to dispatch it. -/
inductive Gives (topic : String) (m : MessageSpec) (p : PendingId) : Except Error MessageId → Prop
  | rejected {h : HandleId} {t : Ticket} {e : ClientError} : handed s c = [(t, .enqueue h m)] →
      (∀ i, ¬ Tasked tr p i) → s.topic? h = some topic → Answered tr c t (.accepted (.error e)) →
      Gives topic m p (.error (.ofSend topic e))
  | enqueued {h : HandleId} {t : Ticket} {d : CallId} {r : Except ClientError MessageId} :
      handed s c = [(t, .enqueue h m)] → (∀ i, ¬ Tasked tr p i) → s.topic? h = some topic →
      Answered tr d t (.receipt r) → Gives topic m p (resultOf topic r)
  | dispatched {h : HandleId} {t : Ticket} {d : CallId} {r : Except ClientError MessageId} :
      handed s c = [] → handed s d = [(t, .send h m)] → (∀ i, Tasked tr p i ↔ i = d) →
      s.topic? h = some topic → Answered tr d t (.receipt r) → Gives topic m p (resultOf topic r)

/-- How call `c`, made to send a message, ended. -/
inductive Sent (w : Want) (m : MessageSpec) : Delivery → Outcome → Prop
  /-- The producer that the call itself asked for was not opened. -/
  | uncreated {d : Delivery} {t : Ticket} {e : ClientError} : handed s c = [] →
      .asked c t (.openProducer w.topic) ∈ s.events → Answered tr c t (.opened (.error e)) →
      Sent w m d (.failed (.producerCreation w.topic e))
  | receipt {h : HandleId} {t : Ticket} {r : Except ClientError MessageId} :
      handed s c = [(t, .send h m)] → s.topic? h = some w.topic → Answered tr c t (.receipt r) →
      Sent w m .acknowledged (endOf (resultOf w.topic r))
  | promised {p : PendingId} {q : Pending} : s.pending.get? p = some q →
      (∀ r, q.outcome? = some r → Gives tr s c w.topic m p r) → Sent w m .promised (.promised p)

end

/-- Callers open producers, take leases, send, reset and wait; they do not shut the factory down. They may
abort their own calls. The wire client does not crash. -/
def Steady (s : Factory) : Label → Prop
  | .call (.want w) => w.purpose ≠ .peek
  | .call .reset => True
  | .call (.await _) => True
  | .call _ => False
  | .abort c => ∀ p, s.calls.get? c = some p → p.pending? = none
  | .crash _ => False
  | _ => True

/-- A call is about to take all handles out of the map. -/
def Drains (s : Factory) (c : CallId) : Prop :=
  ∃ r, s.calls.get? c = some (.fresh r) ∧ (r = .reset ∨ r = .shutdown)

/-- Resets, as senders see them.

* `unrefused`: no call fails because the factory is closed.
* `unclosed`: no message is handed to a producer that was closed before.
* `left`: a handle that a reset took out of the map is gone, but for those who had a lease on it.
* `sends`: a send ends with the error of a creation of its own, or with the result of its one message.
* `awaits`: who waits for a promised send is told its outcome. -/
structure Seamless (tr : List (Label × Factory)) (s : Factory) : Prop where
  unrefused : ∀ c, s.calls.get? c ≠ some (.ended (.failed .factoryClosed))
  unclosed : s.deeds.Pairwise fun e e' => ∀ v, Closes v e = true → Hands v e' = false
  left : ∀ c s₀ v, (.resume c, s₀) ∈ tr → s₀.calls.get? c = some (.fresh .reset) →
    v ∈ s₀.cache.handles → Left s₀ s v
  sends : ∀ c w m d o, Made tr c (.want w) → w.purpose = .send m d →
    s.calls.get? c = some (.ended o) → Sent tr s c w m d o
  awaits : ∀ c p o, Made tr c (.await p) → s.calls.get? c = some (.ended o) →
    ∃ q r, s.pending.get? p = some q ∧ q.outcome? = some r ∧ o = endOf r

/-! ## 1. Who hands over messages -/

/-- A message is handed over, if at all, by a call that was just granted a lease or was begun with one. -/
def HandsOver (s s' : Factory) : Prop :=
  s'.deeds = s.deeds ∨ ∃ e, s'.deeds = s.deeds ++ [e] ∧ ∀ i t d v, e = .asked i t d →
    d.receiver? = some v →
      s.isRetiring v = false ∨ ∃ m p, s.calls.get? i = some (.fresh (.dispatch v m p))

namespace ResetLemmas

theorem handsOver_mute {s s' : Factory} {e : Event} (he : s'.deeds = s.deeds ++ [e])
    (hno : ∀ i t d, e = .asked i t d → d.receiver? = none) : HandsOver s s' := by
  refine .inr ⟨e, he, fun i t d v h hv => ?_⟩
  rw [hno i t d h] at hv
  cases hv

theorem handsOver_leased {s s' : Factory} {c : CallId} {t : Ticket} {d : Demand} {v : HandleId}
    (he : s'.deeds = s.deeds ++ [.asked c t d]) (hd : d.receiver? = some v)
    (hv : s.isRetiring v = false) : HandsOver s s' := by
  refine .inr ⟨_, he, ?_⟩
  rintro i t' d' v' h hv'
  cases h
  cases hd.symm.trans hv'
  exact .inl hv

end ResetLemmas

open SoundLemmas StoryLemmas ResetLemmas

section

variable {s s' : Factory} {c : CallId} {v : HandleId}

theorem Turn.hands {a : Act} {next : Option Act} (ht : Turn c s a s' next) : HandsOver s s' := by
  cases ht with
  | @create w =>
    refine handsOver_mute (e := .asked c s.tickets (.openProducer w.topic)) (by simp; rfl) ?_
    rintro i t d h
    cases h
    rfl
  | @close _ _ r =>
    refine handsOver_mute (e := .asked c s.tickets (.close r.handle)) (by simp) ?_
    rintro i t d h
    cases h
    rfl
  | @send w v x m _ hx hr =>
    exact handsOver_leased (c := c) (t := s.tickets) (d := .send v m) (by simp; rfl) rfl
      ((isRetiring_eq hx).trans hr)
  | @enqueue w v x m _ hx hr =>
    exact handsOver_leased (c := c) (t := s.tickets) (d := .enqueue v m) (by simp; rfl) rfl
      ((isRetiring_eq hx).trans hr)
  | _ => exact .inl (by simp)

theorem Begins.hands {l : Label} {run : Option (CallId × Act)} (hb : Begins s l s' run) :
    HandsOver s s' := by
  cases hb with
  | @drain c r taken =>
    exact handsOver_mute (e := .drained c taken.2) (by simp) fun _ _ _ h => nomatch h
  | @created c =>
    exact handsOver_mute (e := .opened c s.handles.size) (by simp) fun _ _ _ h => nomatch h
  | @create c w =>
    refine handsOver_mute (e := .asked c s.tickets (.openProducer w.topic)) (by simp) ?_
    rintro i t d h
    cases h
    rfl
  | @dispatch c v m p hc =>
    refine .inr ⟨.asked c s.tickets (.send v m), by simp; rfl, ?_⟩
    rintro i t d v' h hv
    cases h
    cases hv
    exact .inr ⟨m, p, hc⟩
  | stop _ _ hs => exact .inl (by simp [hs.deeds_eq])
  | _ => exact .inl (by simp)

/-- A producer to which a message is handed was not closed. -/
theorem HandsOver.unclosed {run : Option (CallId × Act)} (ho : HandsOver s s') (b : Balanced s run)
    (hp : s.deeds.Pairwise fun e e' => ∀ v, Closes v e = true → Hands v e' = false) :
    s'.deeds.Pairwise fun e e' => ∀ v, Closes v e = true → Hands v e' = false := by
  rcases ho with he | ⟨e, he, hfrom⟩
  · rw [he]
    exact hp
  · rw [he, List.pairwise_append]
    refine ⟨hp, List.pairwise_singleton _ _, fun e₁ he₁ e₂ he₂ v hclose => ?_⟩
    rw [List.mem_singleton.1 he₂]
    refine Bool.eq_false_iff.2 fun hh => ?_
    have hcount : s.closesOf v ≠ 0 := by
      rw [← b.closes v]
      exact Nat.ne_of_gt (List.countP_pos_iff.2 ⟨e₁, (mem_deeds.1 he₁).1, hclose⟩)
    -- A closed handle is retiring, and nobody has a lease on it.
    obtain ⟨x, hx, hclosed⟩ : ∃ x, s.handles.get? v = some x ∧ x.closed = true := by
      unfold closesOf at hcount
      cases hx : s.handles.get? v with
      | none => simp [hx] at hcount
      | some x =>
        refine ⟨x, rfl, (Bool.not_eq_false x.closed).mp fun hcl => hcount ?_⟩
        rw [hx]
        exact (b.settled v x hx).closes.trans (by rw [hcl]; rfl)
    obtain ⟨hret, hborrows⟩ := (b.settled v x hx).closed hclosed
    cases e with
    | asked i t d =>
      have hv : d.receiver? = some v := of_decide_eq_true hh
      rcases hfrom i t d v rfl hv with hr | ⟨m, p, hi⟩
      · exact absurd ((isRetiring_eq hx).symm.trans hr) (hret ▸ nofun)
      · have hpos : 0 < s.leaseCount v := by
          refine Nat.add_pos_left (Registry.count_pos_of_get? hi ?_) _
          simp [Progress.held?]
        rw [b.balance v] at hpos
        unfold borrowsOf at hpos
        rw [hx] at hpos
        exact absurd hborrows (Nat.ne_of_gt hpos)
    | _ => cases hh

/-! ## 2. Handles that were taken out of the map -/

/-- A point that has nothing to do with handle `v`. Leases from number `n` on are not on it. -/
def Spares (n : Nat) (v : HandleId) : Progress → Prop
  | .fresh (.dispatch h _ _) => h ≠ v
  | .ended (.handle h) => h ≠ v
  | .ended (.lease l) => n ≤ l
  | _ => True

/-- No lease on handle `v` is handed out. -/
def BarsLeases (a b : Registry Lease) (v : HandleId) : Prop :=
  ∀ l y, b.get? l = some y → y.handle = v → ∃ y', a.get? l = some y' ∧ y'.handle = v

/-- Nobody gets handle `v`, or a lease on it. -/
structure Bars (s s' : Factory) (v : HandleId) : Prop where
  calls : ∀ i q, s'.calls.get? i = some q → Spares s.leases.size v q ∨ s.calls.get? i = some q
  leases : BarsLeases s.leases s'.leases v

theorem bars_of (hcalls : ∀ i q, s'.calls.get? i = some q →
      Spares s.leases.size v q ∨ (i ≠ c ∧ s.calls.get? i = some q))
    (hl : BarsLeases s.leases s'.leases v) : Bars s s' v :=
  ⟨fun i q hq => (hcalls i q hq).imp_right And.right, hl⟩

theorem barsLeases_refl (a : Registry Lease) (v : HandleId) : BarsLeases a a v :=
  fun _ y hy hv => ⟨y, hy, hv⟩

theorem barsLeases_add (a : Registry Lease) {h : HandleId} (hne : h ≠ v) :
    BarsLeases a (a.add { handle := h }) v := by
  intro l y hy hv
  rw [Registry.get?_add] at hy
  split at hy
  · cases hy
    exact absurd hv hne
  · exact ⟨y, hy, hv⟩

theorem barsLeases_release (a : Registry Lease) (l : LeaseId) (v : HandleId) :
    BarsLeases a (a.update l fun y => { y with released := true }) v := by
  intro l' y hy hv
  rw [Registry.get?_update] at hy
  split at hy
  · obtain ⟨y', hy', rfl⟩ := Option.map_eq_some_iff.1 hy
    exact ⟨y', hy', hv⟩
  · exact ⟨y, hy, hv⟩

theorem ne_of_leasing {h : HandleId} {x : Handle} (hv : s.isRetiring v = true)
    (hx : s.handles.get? h = some x) (hr : x.retiring = false) : h ≠ v := by
  rintro rfl
  exact absurd (hv.symm.trans ((isRetiring_eq hx).trans hr)) nofun

theorem spares_endOf (n : Nat) (v : HandleId) (r : Except Error MessageId) :
    Spares n v (.ended (endOf r)) := by
  cases r <;> trivial

theorem Turn.bars {a : Act} {next : Option Act} (hv : s.isRetiring v = true)
    (hgrant : ∀ w h, a = .grant w h → h ≠ v) (ht : Turn c s a s' next) : Bars s s' v := by
  have hsame := barsLeases_refl s.leases v
  cases ht with
  | handle => exact bars_of (fits_goTo (hgrant _ _ rfl)) hsame
  | lease _ hx hr =>
    exact bars_of (fits_goTo (Nat.le_refl _)) (barsLeases_add _ (ne_of_leasing hv hx hr))
  | promise _ hx hr => exact bars_of (fits_start_goTo trivial (ne_of_leasing hv hx hr)) hsame
  | refused | spin | create | queue | denied | send | enqueue | fail | count | wait =>
    exact bars_of (fits_goTo trivial) hsame
  | _ => exact bars_of fits_same hsame

theorem Begins.bars {l : Label} {run : Option (CallId × Act)} (hv : s.isRetiring v = true)
    (hl : ∀ r, l = .call r → r.IsPublic) (hb : Begins s l s' run) : Bars s s' v := by
  have hsame := barsLeases_refl s.leases v
  cases hb with
  | @call r =>
    refine bars_of (fits_start ?_) hsame
    have hr := hl r rfl
    cases r with
    | dispatch => exact hr.elim
    | _ => trivial
  | settled | receipt => exact bars_of (fits_goTo (spares_endOf _ v _)) hsame
  | refuse | await | dispatch | create | failed | rejected | completed =>
    exact bars_of (fits_goTo trivial) hsame
  | accepted => exact bars_of (fits_start_goTo trivial trivial) hsame
  | @stop _ _ _ final _ hl _ hs =>
    have hfinal : Spares s.leases.size v final := by
      rcases hl with ⟨-, rfl⟩ | ⟨-, rfl⟩ <;> trivial
    cases hs <;> exact bars_of (fits_goTo hfinal) hsame
  | leased hx hr => exact bars_of fits_same (barsLeases_add _ (ne_of_leasing hv hx hr))
  | @released l => exact bars_of fits_same (barsLeases_release s.leases l v)
  | _ => exact bars_of fits_same hsame

theorem Left.pass {s₀ : Factory} (h : Left s₀ s v) (ho : HandsOver s s') (b : Bars s s' v)
    (hl : HandlesLater s.handles s'.handles) : Left s₀ s' v where
  retiring := isRetiring_later hl h.retiring
  messages := by
    obtain ⟨later, heq, hfrom⟩ := h.messages
    rcases ho with he | ⟨e, he, hask⟩
    · exact ⟨later, he.trans heq, hfrom⟩
    · refine ⟨later ++ [e], by rw [he, heq, List.append_assoc], fun i t d hm hv => ?_⟩
      rcases List.mem_append.1 hm with hm | hm
      · exact hfrom i t d hm hv
      · rcases hask i t d v (List.mem_singleton.1 hm).symm hv with hr | ⟨m, p, hi⟩
        · exact absurd (h.retiring.symm.trans hr) nofun
        · exact ⟨_, h.tasks i m p hi, rfl⟩
  tasks i m p hi := by
    rcases b.calls i _ hi with hs | hi
    · exact absurd rfl hs
    · exact h.tasks i m p hi
  handles i hi := by
    rcases b.calls i _ hi with hs | hi
    · exact absurd rfl hs
    · exact h.handles i hi
  leases i l y hi hy hv := by
    obtain ⟨y', hy', hv'⟩ := b.leases l y hy hv
    -- A lease that is handed out now has a number that no lease on the handle has.
    rcases b.calls i _ hi with hs | hi
    · exact absurd (Registry.lt_size_of_get? hy') (Nat.not_lt.2 hs)
    · exact h.leases i l y' hi hy' hv'

/-- A call takes all handles out of the map. -/
theorem Begins.left {owner : CellId → String} {run : Option (CallId × Act)} (h : Sound owner s none)
    (hd : Drains s c) (hm : v ∈ s.cache.handles) (hb : Begins s (.resume c) s' run) : Left s s' v := by
  obtain ⟨r, hc, hr⟩ := hd
  cases hb with
  | @drain _ r taken hc' htaken =>
    have htaken : taken.2 = s.cache.handles := by rcases htaken with ⟨-, rfl⟩ | ⟨-, rfl⟩ <;> rfl
    obtain ⟨t, ht⟩ := h.tidy.mem_handles_iff.1 hm
    exact {
      retiring := isRetiring_stopAll rfl (topic?_of_handle? h ht) (htaken ▸ hm)
      messages := by
        refine ⟨[.drained c taken.2], by simp, fun i t d hm => ?_⟩
        cases List.mem_singleton.1 hm
      tasks := fun _ _ _ h => h
      handles := fun _ h => h
      leases := fun _ _ _ h _ _ => h }
  | want hc' | refuse hc' | await hc' | dispatch hc' =>
    cases hc.symm.trans hc'
    rcases hr with h | h <;> cases h
  | filled hc' | create hc' | retire hc' | settled hc' => cases hc.symm.trans hc'
  | stop hl => rcases hl with ⟨h, -⟩ | ⟨h, -⟩ <;> cases h

end

/-! ## 3. Runs -/

/-- What is left of a handle that was taken out of the map stays so, whatever comes. -/
theorem Run.left {ok : Factory → Label → Prop} {tr : List (Label × Factory)} {s : Factory}
    (hok : ∀ s r, ok s (.call r) → r.IsPublic)
    (hpeek : ∀ s w, ok s (.call (.want w)) → w.purpose ≠ .peek) (h : Run ok tr s) :
    ∀ c s₀ v, (.resume c, s₀) ∈ tr → Drains s₀ c → v ∈ s₀.cache.handles → Left s₀ s v := by
  have hall : (∃ owner, Sound owner s none) ∧ Storied tr s none ∧
      ∀ c s₀ v, (.resume c, s₀) ∈ tr → Drains s₀ c → v ∈ s₀.cache.handles → Left s₀ s v := by
    refine h.induct (I := fun tr s run => (∃ owner, Sound owner s run) ∧ Storied tr s run ∧
      ∀ c s₀ v, (.resume c, s₀) ∈ tr → Drains s₀ c → v ∈ s₀.cache.handles → Left s₀ s v)
      ⟨⟨_, sound_new⟩, storied_new, fun _ _ _ hm => nomatch hm⟩ ?_ ?_
    · rintro tr s s₁ l run - hl ⟨⟨owner, hs⟩, h, hleft⟩ hb
      have hpublic : ∀ r, l = .call r → r.IsPublic := fun r hr => hok s r (hr ▸ hl)
      refine ⟨⟨owner, hs.begins hb⟩, h.begins hpublic hb, fun c s₀ v hm hd hv => ?_⟩
      rcases List.mem_cons.1 hm with he | hm
      · cases he
        exact hb.left hs hd hv
      · have hold := hleft c s₀ v hm hd hv
        exact hold.pass hb.hands (hb.bars hold.retiring hpublic) hb.later
    · rintro tr s s₁ s₂ l c a next hrun hl ⟨⟨owner, hs⟩, h, hleft⟩ ht
      refine ⟨hs.turn ht, h.turn hs ht, fun c₀ s₀ v hm hd hv => ?_⟩
      have hold := hleft c₀ s₀ v hm hd hv
      refine hold.pass ht.hands (ht.bars hold.retiring fun w g ha => ?_) ht.later
      subst ha
      obtain ⟨⟨r, ⟨s', hm', -⟩, rfl⟩, -, -⟩ := h.act c _ rfl
      have hw : w.purpose ≠ .peek := by
        rcases List.mem_cons.1 hm' with he | hm'
        · cases he
          exact hpeek s w hl
        · exact hpeek s' w (hrun.ok_of_mem hm')
      -- A call is granted a handle only while that grants leases.
      rintro rfl
      have hr := (hs.act c _ rfl).2.resolve_left hw
      exact absurd (hold.retiring.symm.trans hr) nofun
  exact hall.2.2

/-- A cache that nobody shuts down is never closed. -/
theorem Run.open {ok : Factory → Label → Prop} {tr : List (Label × Factory)} {s : Factory}
    (hok : ∀ s r, ok s (.call r) → r.IsPublic) (hshut : ∀ s, ¬ ok s (.call .shutdown))
    (h : Run ok tr s) : s.cache.closed = false := by
  refine h.induct (I := fun _ s _ => s.cache.closed = false) rfl ?_ ?_
  · rintro tr s s₁ l run hrun - ho hb
    rcases hb.closed_or with hc | ⟨-, c, hc⟩
    · exact hc.trans ho
    · -- The call that closes the cache was made by a caller.
      cases (hrun.storied hok).story c _ hc (fun _ => nofun) with
      | fresh _ hmade _ =>
        obtain ⟨s₀, hm, -⟩ := hmade
        exact (hshut s₀ (hrun.ok_of_mem hm)).elim
  · rintro tr s s₁ s₂ l c a next - - ho ht
    exact ht.closed_eq.trans ho

/-- What is known of a pending send does not come from its being given up, or from a closed factory. -/
def Decent : PendingState → Prop
  | .unknown => True
  | .settled r => r ≠ .error .factoryClosed
  | .abandoned => False

/-- So it is with all pending sends. -/
def AllDecent (a : Registry Pending) : Prop := ∀ p q, a.get? p = some q → Decent q.state

namespace ResetLemmas

theorem allDecent_add {a : Registry Pending} (h : AllDecent a) {x : Pending} (hx : Decent x.state) :
    AllDecent (a.add x) := by
  intro p q hq
  rw [Registry.get?_add] at hq
  split at hq
  · cases hq
    exact hx
  · exact h p q hq

theorem allDecent_update {a : Registry Pending} (h : AllDecent a) (p : PendingId)
    {f : Pending → Pending} (hf : ∀ x, Decent x.state → Decent (f x).state) :
    AllDecent (a.update p f) := by
  intro p' q hq
  rw [Registry.get?_update] at hq
  split at hq
  · obtain ⟨x, hx, rfl⟩ := Option.map_eq_some_iff.1 hq
    exact hf x (h p' x hx)
  · exact h p' q hq

theorem decent_outcomeOf (s : Factory) (h : HandleId) (r : Except ClientError MessageId) :
    Decent (.settled (s.outcomeOf h r)) := by
  cases r <;> exact nofun

end ResetLemmas

/-- Only a call that is ended before its time gives up a pending send. -/
theorem Begins.allDecent {s s₁ : Factory} {l : Label} {run : Option (CallId × Act)}
    (hl : ∀ c p, l = .abort c ∨ l = .crash c → s.calls.get? c = some p → p.pending? = none)
    (h : AllDecent s.pending) (hb : Begins s l s₁ run) : AllDecent s₁.pending := by
  cases hb with
  | await => exact allDecent_update h _ fun _ hx => hx
  | rejected => exact allDecent_add h nofun
  | accepted => exact allDecent_add h trivial
  | completed => exact allDecent_update h _ fun _ _ => decent_outcomeOf s _ _
  | @stop c _ p _ _ hfinal hc hs =>
    have hp := hl c p (hfinal.imp And.left And.left) hc
    cases hs with
    | dispatch | completing => cases hp
    | awaiting => exact allDecent_update h _ fun _ hx => hx
    | _ => exact h
  | _ => exact h

theorem Turn.allDecent {s s₁ : Factory} {c : CallId} {a : Act} {next : Option Act}
    (h : AllDecent s.pending) (ht : Turn c s a s₁ next) : AllDecent s₁.pending := by
  cases ht with
  | promise => exact allDecent_add h trivial
  | _ => exact h

namespace ResetLemmas

variable {tr : List (Label × Factory)} {s : Factory}

theorem steady_public {s : Factory} {r : Request} (h : Steady s (.call r)) : r.IsPublic := by
  cases r with
  | dispatch => exact h.elim
  | _ => trivial

theorem allDecent_of_run (h : Run Steady tr s) : AllDecent s.pending := by
  refine h.induct (I := fun _ s _ => AllDecent s.pending) ?_ ?_ ?_
  · intro p q hq
    simp [new] at hq
  · rintro tr s s₁ l run - hl h hb
    refine hb.allDecent (fun c p ha hc => ?_) h
    rcases ha with rfl | rfl
    · exact hl p hc
    · exact hl.elim
  · rintro tr s s₁ s₂ l c a next - - h ht
    exact ht.allDecent h

theorem unclosed_of_run (h : Run Steady tr s) :
    s.deeds.Pairwise fun e e' => ∀ v, Closes v e = true → Hands v e' = false := by
  have hall : (∃ owner, Sound owner s none) ∧ Balanced s none ∧
      s.deeds.Pairwise fun e e' => ∀ v, Closes v e = true → Hands v e' = false := by
    refine h.induct (I := fun _ s run => (∃ owner, Sound owner s run) ∧ Balanced s run ∧
      s.deeds.Pairwise fun e e' => ∀ v, Closes v e = true → Hands v e' = false)
      ⟨⟨_, sound_new⟩, balanced_new, List.Pairwise.nil⟩ ?_ ?_
    · rintro tr s s₁ l run - hl ⟨⟨owner, hs⟩, b, hp⟩ hb
      exact ⟨⟨owner, hs.begins hb⟩, b.begins (fun r hr => steady_public (hr ▸ hl)) hb,
        HandsOver.unclosed hb.hands b hp⟩
    · rintro tr s s₁ s₂ l c a next - - ⟨⟨owner, hs⟩, b, hp⟩ ht
      exact ⟨hs.turn ht, b.turn hs ht, HandsOver.unclosed ht.hands b hp⟩
  exact hall.2.2

/-- What a promised send's outcome is when there is one. -/
theorem gives_of_promise {c : CallId} {topic : String} {m : MessageSpec} {p : PendingId} {q : Pending}
    (A : Assigned tr s) (hlost : Decent q.state) (pr : Promise tr s c topic m p q.state)
    {r : Except Error MessageId} (hr : q.outcome? = some r) : Gives tr s c topic m p r := by
  unfold Pending.outcome? at hr
  generalize q.state = st at pr hr hlost
  cases pr with
  | rejected hm ht ha hno =>
    cases hr
    exact .rejected hm hno ht ha
  | enqueued hm ht ha hno rec =>
    cases rec with
    | waiting => cases hr
    | settled hans =>
      cases hr
      exact .enqueued hm hno ht hans
    | abandoned => exact hlost.elim
  | begun => cases hr
  | dispatched hm ht hd hd' rec =>
    cases rec with
    | waiting => cases hr
    | settled hans =>
      cases hr
      refine .dispatched hm hd' (fun i => ⟨fun hi => A.tasks p i _ hi (.inl hd), ?_⟩) ht hans
      rintro rfl
      exact hd
    | abandoned => exact hlost.elim
  | lost => exact hlost.elim

theorem endOf_ne_closed {r : Except Error MessageId} (hr : r ≠ .error .factoryClosed) :
    endOf r ≠ .failed .factoryClosed := by
  cases r with
  | ok => exact nofun
  | error e =>
    intro h
    cases h
    exact hr rfl

theorem resultOf_ne_closed (topic : String) (r : Except ClientError MessageId) :
    resultOf topic r ≠ .error .factoryClosed := by
  cases r <;> exact nofun

/-- No call ends with the error of a closed factory while the cache is open. -/
theorem Ends.unrefused {c : CallId} {r : Request} {o : Outcome} (he : Ends tr s c r o)
    (hr : ∀ e, r ≠ .refuse e) (hopen : s.cache.closed = false) (hdecent : AllDecent s.pending) :
    o ≠ .failed .factoryClosed := by
  cases he with
  | refused hcl => exact absurd (hopen.symm.trans hcl) nofun
  | receipt => exact endOf_ne_closed (resultOf_ne_closed _ _)
  | refuse => exact absurd rfl (hr _)
  | await hq ho =>
    refine endOf_ne_closed ?_
    rintro rfl
    have hd := hdecent _ _ hq
    unfold Pending.outcome? at ho
    split at ho
    · cases ho
    · next hst =>
      cases ho
      rw [hst] at hd
      exact hd rfl
    · cases ho
  | _ => exact nofun

end ResetLemmas

/-- Resets are invisible to senders in every run without a shutdown or a crash, whatever the order of
steps, and whichever calls are aborted by their callers. -/
theorem resets_invisible {tr : List (Label × Factory)} {s : Factory} (h : Run Steady tr s) :
    Seamless tr s := by
  have hopen := h.open (fun _ _ => steady_public) fun _ hs => hs
  have hstoried := h.storied fun _ _ => steady_public
  have hdecent := allDecent_of_run h
  have hends : ∀ c r o, Made tr c r → s.calls.get? c = some (.ended o) → Ends tr s c r o := by
    intro c r o hmade hc
    cases hstoried.story c _ hc nofun with
    | ended hmade' he => exact hstoried.requested.once c r _ hmade hmade' ▸ he
    | delivered hno => exact (hno r hmade).elim
  exact {
    unrefused := by
      intro c hc
      cases hstoried.story c _ hc nofun with
      | ended hmade he =>
        refine Ends.unrefused he ?_ hopen hdecent rfl
        rintro e rfl
        obtain ⟨s₀, hm, -⟩ := hmade
        exact h.ok_of_mem hm
    unclosed := unclosed_of_run h
    left := fun c s₀ v hm hc => h.left (fun _ _ => steady_public) (fun _ _ hw => hw) c s₀ v hm
      ⟨_, hc, .inl rfl⟩
    sends := by
      intro c w m d o hmade hp hc
      cases hends c _ o hmade hc with
      | handle hp' => rcases hp' with hp' | hp' <;> cases hp.symm.trans hp'
      | lease hp' => cases hp.symm.trans hp'
      | refused hcl => exact absurd (hopen.symm.trans hcl) nofun
      | uncreated hm ha hans => exact .uncreated hm ha hans
      | receipt hp' ht hm hans =>
        cases hp.symm.trans hp'
        exact .receipt hm ht hans
      | promised hp' hpr =>
        cases hp.symm.trans hp'
        obtain ⟨q, hq, -, pr⟩ := hpr
        exact .promised hq fun r hr => gives_of_promise hstoried.assigned (hdecent _ q hq) pr hr
      | count hr => rcases hr with hr | hr <;> cases hr
    awaits := by
      intro c p o hmade hc
      cases hends c _ o hmade hc with
      | await hq ho => exact ⟨_, _, hq, ho, rfl⟩
      | count hr => rcases hr with hr | hr <;> cases hr }

/-- A reset while the receipt of a promised send is pending: the outcome comes before the reset closes the
producer. A send after the reset asks for a producer of its own. -/
theorem resets_invisible_in_flight :
    ∃ tr s, Run Steady tr s ∧ Seamless tr s ∧
      s.calls.get? 0 = some (.ended (.promised 0)) ∧ s.calls.get? 2 = some (.ended (.closed 1)) ∧
      s.calls.get? 3 = some (.ended (.acknowledged ⟨7, 2, -1, -1⟩)) ∧
      ∃ q, s.pending.get? 0 = some q ∧ q.outcome? = some (.ok ⟨7, 1, -1, -1⟩) := by
  have h : Run Steady _ _ :=
    Run.new.play [.call (.want ⟨"t", .send {} .promised⟩), .resume 0,
      .answer 0 0 (.opened (.ok .pipelined)), .answer 0 1 (.accepted (.ok ())), .call .reset, .resume 2,
      .answer 1 1 (.receipt (.ok ⟨7, 1, -1, -1⟩)), .resume 2, .answer 2 2 (.closed (.ok ())),
      .call (.want ⟨"t", .send {} .acknowledged⟩), .resume 3, .answer 3 3 (.opened (.ok .sequential)),
      .answer 3 4 (.receipt (.ok ⟨7, 2, -1, -1⟩))] (by simp [Steady]) rfl
  exact ⟨_, _, h, resets_invisible h, rfl, rfl, rfl, _, rfl, rfl⟩

end Factory

end TopicPublisher
