import TopicPublisher.Proofs.Factory.Dispatch
import TopicPublisher.Proofs.Factory.Leases
import TopicPublisher.Proofs.Wire.Window

/-!
# A factory and one of its producers

The factory knows its producers by handles and tickets, and a wire producer knows nothing of a factory.
Here the two are joined at one handle: what the factory asks of the handle is a call on the producer, what
the producer makes of the call is what the factory can be told, and a request that is withdrawn is a call
that is given up. Others may use the same producer.

The proof goes step by step of the factory. What a step writes about the handle is nothing, or one request
by a call that waits for it from then on, or withdrawals by a call that is stopped (`Talks`). So a permit
that is held for the factory always has a call of the factory that waits under its ticket (`Line.Sound`),
that call has a lease, and the account of the leases says whose send it is for.

Results:
1. `Begins.talks`, `Turn.talks`, `talks_of_step`: what a step asks of one handle.
2. `Begins.waitsUnder`, `Turn.waitsUnder`: whom a call that waits for a request leaves it to.
3. `Joint.sound`: the window is kept to, and every permit held for the factory has its call.
4. `Joint.returned`: it is free again before the outcome of its send can be seen.
5. `Joint.alone`: so who waits for each outcome never finds the queue full.
6. `window_exact`: all this in every run.
-/

namespace TopicPublisher

/-- The message that a request hands to a producer. -/
def Demand.message? : Demand → Option (HandleId × MessageSpec)
  | .send h m => some (h, m)
  | .enqueue h m => some (h, m)
  | _ => none

/-- The request that a call waits for with a lease: the handle that it is on, and the ticket. -/
def Progress.request? : Progress → Option (HandleId × Ticket)
  | .sending h t => some (h, t)
  | .enqueuing h t => some (h, t)
  | .completing h t _ => some (h, t)
  | _ => none

/-- What the factory can be told of a call on a producer. -/
inductive Attempt.Tells : Attempt → Answer → Prop
  | taken {i : SendId} : Attempt.Tells (.waiting i) (.accepted (.ok ()))
  | refused {e : ClientError} : Attempt.Tells (.failed e) (.accepted (.error e))
  | failed {e : ClientError} : Attempt.Tells (.failed e) (.receipt (.error e))
  | receipt {r : Except ClientError MessageId} : Attempt.Tells (.resolved r) (.receipt r)

/-- A producer as the factory uses it: which of the factory's requests are which calls on it. -/
structure Line where
  window : Window
  /-- What happened to the producer, the last first. -/
  past : List (Window.Label × Window) := []
  bound : List (Ticket × AttemptId) := []

namespace Line

/-- A request is made. -/
def ask (x : Line) (t : Ticket) (spec : MessageSpec) : Line :=
  { window := x.window.start spec
    past := (.start spec, x.window) :: x.past
    bound := (t, x.window.attempts.size) :: x.bound }

/-- A request is withdrawn: its call gives up, if it is not over. -/
def withdraw (x : Line) (t : Ticket) : Line :=
  match x.bound.find? fun b => b.1 = t with
  | none => x
  | some (_, n) =>
    match (x.window.attempts.get? n).bind Attempt.send? with
    | none => x
    | some i =>
      { x with
        window := x.window.goTo n (x.window.producer.finish i) .dropped
        past := (.drop n, x.window) :: x.past }

/-- What the producer behind a handle hears of what the factory writes. -/
def hear (v : HandleId) (x : Line) : Event → Line
  | .asked _ t d =>
    match d.message? with
    | some (h, spec) => if h = v then x.ask t spec else x
    | none => x
  | .withdrawn t => x.withdraw t
  | _ => x

/-- What happens to the factory agrees with what the producer did. -/
def Allows (x : Line) (l : Factory.Label) : Prop :=
  ∀ c t a n, l = .answer c t a → (t, n) ∈ x.bound → ∃ b, x.window.attempts.get? n = some b ∧ b.Tells a

end Line

namespace Factory

/-! ## Definitions -/

/-- A run of a factory with the producer behind handle `v`. In between, others may use the producer, and
anything may become of the calls on it. -/
inductive Joint (v : HandleId) (w₀ : Window) : List (Label × Factory) → Factory → Line → Prop
  | new : Joint v w₀ [] Factory.new { window := w₀ }
  | factory {tr : List (Label × Factory)} {s s' : Factory} {x : Line} {l : Label} {es : List Event} :
      Joint v w₀ tr s x → PublicOnly s l → x.Allows l → s.step l = some s' →
      s'.events = s.events ++ es → Joint v w₀ ((l, s) :: tr) s' (es.foldl (Line.hear v) x)
  | wire {tr : List (Label × Factory)} {s : Factory} {x : Line} {l : Window.Label} {w : Window} :
      Joint v w₀ tr s x → Window.Step x.window l w →
      Joint v w₀ tr s { x with window := w, past := (l, x.window) :: x.past }

/-- The outcome of a send can be seen: its call is over, and what it promised is settled. -/
inductive Visible (s : Factory) (c : CallId) : Prop
  | returned {q : Progress} : s.calls.get? c = some q → Progress.isOver q = true →
      (∀ p, q ≠ .ended (.promised p)) → Visible s c
  | readable {p : PendingId} {x : Pending} {r : Except Error MessageId} :
      s.calls.get? c = some (.ended (.promised p)) → s.pending.get? p = some x →
      x.outcome? = some r → Visible s c

/-- A call was made to send a message to a topic. -/
def SendsTo (tr : List (Label × Factory)) (topic : String) (c : CallId) : Prop :=
  ∃ w m d, Made tr c (.want w) ∧ w.purpose = .send m d ∧ w.topic = topic

/-- Whoever sends to a topic waits for the outcome of all sends before. -/
def OneByOne (topic : String) : List (Label × Factory) → Prop
  | [] => True
  | (l, s) :: tr =>
    OneByOne topic tr ∧ ∀ w m d, l = .call (.want w) → w.purpose = .send m d → w.topic = topic →
      ∀ c, SendsTo tr topic c → Visible s c

/-- The window of a producer, as it is kept to by a factory and others.

* `exact`: the free permits and the calls that hold one make up the window.
* `full`: the calls that begin when all permits are held, and no others, find the queue full.
* `bound`: the factory made one call for each request on the handle.
* `returned`: while a call on the producer holds a permit, nobody sees the outcome of the send that it
  is for.
* `alone`: who uses the producer alone and waits for each outcome never finds the queue full. -/
structure Windowed (v : HandleId) (room : Nat) (tr : List (Label × Factory)) (s : Factory) (x : Line) :
    Prop where
  exact : Window.Exact room x.window
  full : Window.Full room x.past x.window
  bound : ∀ t, (∃ n, (t, n) ∈ x.bound) ↔
    ∃ i d spec, .asked i t d ∈ s.events ∧ d.message? = some (v, spec)
  one : ∀ t n n', (t, n) ∈ x.bound → (t, n') ∈ x.bound → n = n'
  returned : ∀ t n a, (t, n) ∈ x.bound → x.window.attempts.get? n = some a → a.send?.isSome = true →
    ∀ i d c, .asked i t d ∈ s.events → ActsFor tr s i c → ¬ Visible s c
  alone : ∀ topic, s.topic? v = some topic → OneByOne topic tr → 0 < room →
    (∀ n, n < x.window.attempts.size → ∃ t, (t, n) ∈ x.bound) → ∀ n, ¬ x.window.Refused n

/-- What a step writes about a handle: messages handed to its producer, and requests withdrawn. -/
def Talk (v : HandleId) : Event → Bool
  | .asked _ _ d => d.message?.any fun m => m.1 = v
  | .withdrawn _ => true
  | _ => false

/-- What was written about a handle. -/
def talk (v : HandleId) (s : Factory) : List Event := s.events.filter (Talk v)

/-- A call waits for a request on a handle. -/
def WaitsUnder (s : Factory) (i : CallId) (v : HandleId) (t : Ticket) : Prop :=
  ∃ q, s.calls.get? i = some q ∧ q.request? = some (v, t)

/-- What a step by `l` has written about handle `v` at a moment `s₁` of it. -/
inductive Talks (v : HandleId) (s : Factory) (l : Label) (s₁ : Factory) (run : Option (CallId × Act)) :
    List Event → Prop
  | silent : (∀ c, l ≠ .abort c ∧ l ≠ .crash c) → Talks v s l s₁ run []
  | asks {i : CallId} {t : Ticket} {d : Demand} {spec : MessageSpec} : run = none →
      (∀ c, l ≠ .abort c ∧ l ≠ .crash c) → d.message? = some (v, spec) → s.tickets ≤ t → t < s₁.tickets →
      WaitsUnder s₁ i v t → Talks v s l s₁ run [.asked i t d]
  /-- A call is stopped, and withdraws what it waits for. -/
  | stops {c : CallId} {q : Progress} {ts : List Ticket} : run = none → l = .abort c ∨ l = .crash c →
      s.calls.get? c = some q → (∀ g t, q.request? = some (g, t) → t ∈ ts) →
      Talks v s l s₁ run (ts.map .withdrawn)

open SoundLemmas StoryLemmas

section

variable {v : HandleId} {s s' s₁ s₂ : Factory} {l : Label} {run : Option (CallId × Act)} {c i : CallId}
  {t : Ticket} {tr : List (Label × Factory)}

/-! ## 1. What a step says of a handle -/

@[simp] theorem talk_mk (v : HandleId) (s : Factory) (cache : Cache) (handles : Registry Handle)
    (calls : Registry Progress) (leases : Registry Lease) (pending : Registry Pending) (n : Nat) :
    talk v ⟨cache, handles, calls, leases, pending, n, s.journal⟩ = s.talk v := rfl

theorem talk_write (v : HandleId) (s : Factory) (es : List Event) :
    (s.write es).talk v = s.talk v ++ es.filter (Talk v) := by
  simp [talk, events, write]

@[simp] theorem talk_note (v : HandleId) (s : Factory) (e : Event) :
    (s.note e).talk v = s.talk v ++ [e].filter (Talk v) := by
  simp [talk, events, note]

@[simp] theorem talk_rouse (v : HandleId) (s : Factory) (cs : List CallId) :
    (s.rouse cs).talk v = s.talk v := by
  unfold rouse
  rw [talk_write, List.filter_eq_nil_iff.2, List.append_nil]
  intro e he
  obtain ⟨c, -, rfl⟩ := List.mem_map.1 he
  exact Bool.false_ne_true

theorem talk_withdraw (v : HandleId) (s : Factory) (ts : List Ticket) :
    (s.write (ts.map .withdrawn)).talk v = s.talk v ++ ts.map .withdrawn := by
  rw [talk_write, List.filter_eq_self.2]
  intro e he
  obtain ⟨t, -, rfl⟩ := List.mem_map.1 he
  rfl

@[simp] theorem talk_goTo (v : HandleId) (s : Factory) (c : CallId) (p : Progress) :
    (s.goTo c p).talk v = s.talk v := rfl

@[simp] theorem talk_finish (v : HandleId) (s : Factory) (c : CallId) (o : Outcome) :
    (s.finish c o).talk v = s.talk v := (talk_note v _ _).trans (List.append_nil _)

@[simp] theorem talk_start (v : HandleId) (s : Factory) (p : Progress) :
    (s.start p).talk v = s.talk v := (talk_note v _ _).trans (List.append_nil _)

@[simp] theorem talk_ask (v : HandleId) (s : Factory) (c : CallId) (d : Demand) :
    (s.ask c d).talk v = s.talk v ++ [Event.asked c s.tickets d].filter (Talk v) := talk_note v _ _

@[simp] theorem talk_create (v : HandleId) (s : Factory) (c : CallId) (w : Want) (k : CellId) :
    (s.create c w k).talk v = s.talk v := (talk_note v _ _).trans (List.append_nil _)

@[simp] theorem talk_handOver (v : HandleId) (s : Factory) (h : HandleId) :
    (s.handOver h).talk v = s.talk v := rfl

theorem LetsGo.talk_eq {q : Progress} (hs : LetsGo s c q s₁) : ∃ ts : List Ticket,
    s₁.talk v = s.talk v ++ ts.map .withdrawn ∧ ∀ g t, q.request? = some (g, t) → t ∈ ts := by
  cases hs with
  | retiring =>
    rename_i ts _ _
    exact ⟨ts, (talk_withdraw v _ ts), nofun⟩
  | fresh | dispatch | queued | awaiting | spinning =>
    refine ⟨[], by simp, ?_⟩
    exact nofun
  | creating =>
    rename_i t cs
    exact ⟨[t], by simp [Talk], nofun⟩
  | sending hp =>
    rename_i h t cs
    refine ⟨[t], by simp [Talk], fun g u hu => ?_⟩
    rcases hp with rfl | rfl <;> cases hu <;> exact List.mem_singleton.2 rfl
  | completing =>
    rename_i h t p cs
    refine ⟨[t], by simp [Talk], fun g u hu => ?_⟩
    cases hu
    exact List.mem_singleton.2 rfl

/-- What is written last is a request on the handle, or on another one. -/
theorem filter_asked {d : Demand} {h : HandleId} {spec : MessageSpec} (hd : d.message? = some (h, spec)) :
    (h = v ∧ [Event.asked c t d].filter (Talk v) = [.asked c t d]) ∨
      [Event.asked c t d].filter (Talk v) = [] := by
  by_cases hv : h = v
  · exact .inl ⟨hv, List.filter_eq_self.2 (by simp [Talk, hd, hv])⟩
  · exact .inr (List.filter_eq_nil_iff.2 (by simp [Talk, hd, hv]))

theorem Begins.talks (v : HandleId) (hb : Begins s l s₁ run) :
    ∃ es, s₁.talk v = s.talk v ++ es ∧ Talks v s l s₁ run es := by
  cases hb with
  | @dispatch c h m p hc =>
    have hd : (Demand.send h m).message? = some (h, m) := rfl
    rcases filter_asked (c := c) (t := s.tickets) (v := v) hd with ⟨rfl, hf⟩ | hf
    · refine ⟨[.asked c s.tickets (.send h m)], ?_, ?_⟩
      · rw [talk_ask, talk_goTo]
        exact congrArg _ hf
      · refine .asks rfl (fun _ => ⟨nofun, nofun⟩) hd (Nat.le_refl _) (Nat.lt_succ_self _) ?_
        exact ⟨_, get?_goTo hc, rfl⟩
    · refine ⟨[], ?_, .silent fun _ => ⟨nofun, nofun⟩⟩
      rw [talk_ask, talk_goTo]
      exact congrArg _ hf
  | stop hl hc hs =>
    obtain ⟨ts, ht, hq⟩ := LetsGo.talk_eq (v := v) hs
    refine ⟨ts.map .withdrawn, ?_, .stops rfl ?_ hc hq⟩
    · rw [talk_note, talk_goTo, ht]
      exact List.append_nil _
    · exact hl.imp And.left And.left
  | _ => exact ⟨[], by simp [Talk], .silent fun _ => ⟨nofun, nofun⟩⟩

theorem Turn.talks {a : Act} {next : Option Act} (v : HandleId) (o : Orderly tr s (some (c, a)))
    (ht : Turn c s a s' next) : s'.talk v = s.talk v ∨ ∃ d spec, next = none ∧
      d.message? = some (v, spec) ∧ s'.talk v = s.talk v ++ [.asked c s.tickets d] ∧
      s.tickets < s'.tickets ∧ WaitsUnder s' c v s.tickets := by
  obtain ⟨q, hc, -⟩ := (o.storied.act c a rfl).stale
  have hasked : ∀ {d : Demand} {h : HandleId} {spec : MessageSpec} {r : Progress}, next = none →
      d.message? = some (h, spec) → r.request? = some (h, s.tickets) →
      s'.talk v = s.talk v ++ [Event.asked c s.tickets d].filter (Talk v) →
      s'.tickets = s.tickets + 1 → s'.calls = (s.calls.update c fun _ => r) →
      s'.talk v = s.talk v ∨ ∃ d spec, next = none ∧ d.message? = some (v, spec) ∧
        s'.talk v = s.talk v ++ [.asked c s.tickets d] ∧ s.tickets < s'.tickets ∧
        WaitsUnder s' c v s.tickets := by
    intro d h spec r hnext hd hr htalk htickets hcalls
    rcases filter_asked (c := c) (t := s.tickets) (v := v) hd with ⟨rfl, hf⟩ | hf
    · refine .inr ⟨d, spec, hnext, hd, hf ▸ htalk, htickets ▸ Nat.lt_succ_self _, r, ?_, hr⟩
      rw [hcalls]
      exact get?_goTo hc
    · exact .inl (htalk.trans (by rw [hf, List.append_nil]))
  cases ht with
  | @send w h x m =>
    exact hasked (d := .send h m) (r := .sending h s.tickets) rfl rfl rfl (by simp; rfl) rfl rfl
  | @enqueue w h x m =>
    exact hasked (d := .enqueue h m) (r := .enqueuing h s.tickets) rfl rfl rfl (by simp; rfl) rfl rfl
  | _ => exact .inl (by simp [Talk, Demand.message?])

end

theorem Numbers.le {s s' : Factory} {es : List Event} (h : Numbers s s' es) :
    s.tickets ≤ s'.tickets := by
  rcases h with ⟨-, h⟩ | ⟨-, h⟩
  · exact Nat.le_of_eq h.symm
  · exact h ▸ Nat.le_succ _

theorem talks_of_step {tr : List (Label × Factory)} {s s' : Factory} {l : Label}
    (h : Run PublicOnly tr s) (hl : PublicOnly s l) (hs : s.step l = some s') (v : HandleId) :
    s.tickets ≤ s'.tickets ∧ ∃ es, s'.talk v = s.talk v ++ es ∧ Talks v s l s' none es := by
  refine h.step_induct (J := fun s₁ run => s.tickets ≤ s₁.tickets ∧
    ∃ es, s₁.talk v = s.talk v ++ es ∧ Talks v s l s₁ run es) hl hs ?_ ?_
  · intro s₁ run o hb
    obtain ⟨_, -, hn, -⟩ := hb.writes
    exact ⟨hn.le, hb.talks v⟩
  · rintro s₁ s₂ c a next o ⟨hle, es, hes, htalks⟩ ht
    obtain ⟨owner, hsound⟩ := o.sound
    obtain ⟨_, -, hn, -⟩ := ht.writes hsound
    refine ⟨Nat.le_trans hle hn.le, ?_⟩
    -- Where a call runs on, nothing was written about the handle so far.
    cases htalks with
    | asks hrun | stops hrun => cases hrun
    | silent hno =>
      rw [List.append_nil] at hes
      rcases ht.talks v o with hsame | ⟨d, spec, rfl, hd, hnew, hlt, hw⟩
      · exact ⟨[], by rw [hsame, hes, List.append_nil], .silent hno⟩
      · exact ⟨_, hes ▸ hnew, .asks rfl hno hd hle hlt hw⟩

theorem talks_of_events {tr : List (Label × Factory)} {s s' : Factory} {l : Label} {es : List Event}
    (h : Run PublicOnly tr s) (hl : PublicOnly s l) (hs : s.step l = some s')
    (he : s'.events = s.events ++ es) (v : HandleId) :
    s.tickets ≤ s'.tickets ∧ Talks v s l s' none (es.filter (Talk v)) := by
  obtain ⟨hle, es', hes', htalks⟩ := talks_of_step h hl hs v
  refine ⟨hle, ?_⟩
  unfold talk at hes'
  rw [he, List.filter_append] at hes'
  exact List.append_cancel_left hes' ▸ htalks

/-! ## 2. Whom a request is left to -/

section

variable {v : HandleId} {s s' : Factory} {l : Label} {run : Option (CallId × Act)} {c i : CallId}
  {t : Ticket} {tr : List (Label × Factory)}

theorem request?_held {q : Progress} (hq : q.request? = some (v, t)) : q.held? = some v := by
  cases q with
  | sending | enqueuing | completing =>
    cases hq
    rfl
  | _ => cases hq

/-- How a call that waits for a request goes on: it waits on, or another call waits in its place, or it
was told the outcome, or it was stopped. -/
inductive Leaves (v : HandleId) (s' : Factory) (l : Label) (i : CallId) (t : Ticket) : Prop
  | waits {j : CallId} : WaitsUnder s' j v t → Leaves v s' l i t
  | told {a : Answer} : l = .answer i t a → a ≠ .accepted (.ok ()) → Leaves v s' l i t
  | stopped : l = .abort i ∨ l = .crash i → Leaves v s' l i t

theorem Begins.waitsUnder (hb : Begins s l s' run) (hi : WaitsUnder s i v t) : Leaves v s' l i t := by
  obtain ⟨q, hq, hr⟩ := hi
  by_cases hactor : l.actor? = some i
  · cases hb with
    | stop hl => exact .stopped (by
        rcases hl with ⟨rfl, -⟩ | ⟨rfl, -⟩ <;> cases hactor
        · exact .inl rfl
        · exact .inr rfl)
    | call | leased | denied | released => cases hactor
    | accepted hc =>
      cases hactor
      cases hc.symm.trans hq
      cases hr
      refine .waits (j := s.calls.size) ⟨.completing v t s.pending.size, ?_, rfl⟩
      refine calls_goTo _ _ (Nat.ne_of_gt (Registry.lt_size_of_get? hc)) ?_
      exact (Registry.get?_add _ _ _).trans (if_pos rfl)
    | receipt hc | rejected hc | completed hc =>
      cases hactor
      cases hc.symm.trans hq
      cases hr
      exact .told rfl nofun
    | want hc | refuse hc | drain hc | await hc | dispatch hc | filled hc | create hc | retire hc
    | settled hc | created hc | failed hc | closed hc =>
      cases hactor
      cases hc.symm.trans hq
      cases hr
  · exact .waits ⟨q, hb.others hactor hq, hr⟩

theorem Turn.waitsUnder {a : Act} {next : Option Act} {j : CallId} (b : Balanced s (some (c, a)))
    (ht : Turn c s a s' next) (hj : WaitsUnder s j v t) : WaitsUnder s' j v t := by
  obtain ⟨q, hq, hr⟩ := hj
  refine ⟨q, ht.others ?_ hq, hr⟩
  rintro rfl
  obtain ⟨p, hp, hnone⟩ := b.runs j a rfl
  cases hp.symm.trans hq
  cases hnone.symm.trans (request?_held hr)

end

theorem waitsUnder_of_step {tr : List (Label × Factory)} {s s' : Factory} {l : Label} {v : HandleId}
    {i : CallId} {t : Ticket} (h : Run PublicOnly tr s) (hl : PublicOnly s l)
    (hs : s.step l = some s') (hi : WaitsUnder s i v t) : Leaves v s' l i t := by
  refine h.step_induct (J := fun s₁ _ => Leaves v s₁ l i t) hl hs ?_ ?_
  · intro s₁ run _ hb
    exact hb.waitsUnder hi
  · intro s₁ s₂ c a next o hleaves ht
    cases hleaves with
    | waits hj => exact .waits (ht.waitsUnder o.balanced hj)
    | told hl ha => exact .told hl ha
    | stopped hl => exact .stopped hl

end Factory

/-! ## 3. The calls behind the requests -/

namespace Window

variable {w w' : Window} {l : Label} {n : AttemptId} {a : Attempt}

theorem get?_start_of_lt (spec : MessageSpec) (hn : n < w.attempts.size) :
    (w.start spec).attempts.get? n = w.attempts.get? n := by
  unfold start
  split <;> exact (Registry.get?_add _ _ _).trans (if_neg (Nat.ne_of_lt hn))

/-- A call that holds a permit after a step, and is not a new one, held one before. -/
theorem Step.held (hs : Step w l w') (hn : n < w.attempts.size) (ha : w'.attempts.get? n = some a)
    (hheld : a.send?.isSome = true) :
    ∃ b, w.attempts.get? n = some b ∧ b.send?.isSome = true := by
  have hgoTo : ∀ {k : AttemptId} {p : WireProducer} {b c : Attempt}, w.attempts.get? k = some b →
      b.send?.isSome = true → (w.goTo k p c).attempts.get? n = some a →
      ∃ b, w.attempts.get? n = some b ∧ b.send?.isSome = true := by
    intro k p b c hk hb hget
    rcases Registry.get?_update_const hget with ⟨rfl, -⟩ | ⟨-, hget⟩
    · exact ⟨b, hk, hb⟩
    · exact ⟨a, hget, hheld⟩
  cases hs with
  | start => exact ⟨a, get?_start_of_lt _ hn ▸ ha, hheld⟩
  | enqueued hk =>
    unfold Window.enqueued at ha
    split at ha <;> exact hgoTo hk rfl ha
  | receive hk | expire hk => exact hgoTo hk rfl ha
  | drop hk hsend => exact hgoTo hk (hsend ▸ rfl) ha
  | await | advance => exact ⟨a, ha, hheld⟩

theorem Step.size_le (hs : Step w l w') : w.attempts.size ≤ w'.attempts.size := by
  by_cases hl : ∃ spec, l = .start spec
  · obtain ⟨spec, rfl⟩ := hl
    cases hs
    rw [(start_refused w spec).1]
    exact Nat.le_succ _
  · exact Nat.le_of_eq (hs.same fun spec h => hl ⟨spec, h⟩).1.symm

end Window

namespace Line

open Factory

/-- The producer keeps to its window, and no request is two calls on it. -/
structure Kept (room : Nat) (x : Line) : Prop where
  exact : Window.Exact room x.window
  full : Window.Full room x.past x.window
  one : ∀ t n n', (t, n) ∈ x.bound → (t, n') ∈ x.bound → n = n'

/-- What the withdrawal of some requests leaves. -/
structure Withdraws (room : Nat) (ts : List Ticket) (x x' : Line) : Prop where
  kept : Kept room x'
  bound : x'.bound = x.bound
  size : x'.window.attempts.size = x.window.attempts.size
  refused : ∀ n, x'.window.Refused n ↔ x.window.Refused n
  /-- Who holds a permit afterwards held it before, and the request was not withdrawn. -/
  held : ∀ n a, x'.window.attempts.get? n = some a → a.send?.isSome = true →
    x.window.attempts.get? n = some a ∧ ∀ t, t ∈ ts → (t, n) ∉ x.bound

variable {room : Nat} {x x' : Line} {t : Ticket} {ts : List Ticket} {v : HandleId}

theorem Kept.withdraw (k : Kept room x) (t : Ticket) : Withdraws room [t] x (x.withdraw t) := by
  have hstay : (∀ n a, (t, n) ∈ x.bound → x.window.attempts.get? n = some a → a.send? = none) →
      Withdraws room [t] x x := by
    refine fun hno => ⟨k, rfl, rfl, fun _ => Iff.rfl, fun n a ha hheld => ⟨ha, fun u hu hn => ?_⟩⟩
    cases List.mem_singleton.1 hu
    rw [hno n a hn ha] at hheld
    cases hheld
  unfold Line.withdraw
  split
  · next hnone =>
    refine hstay fun n a hn _ => ?_
    have := List.find?_eq_none.1 hnone _ hn
    simp at this
  · next u n hfind =>
    obtain rfl : u = t := by simpa using List.find?_some hfind
    have hn := List.mem_of_find?_eq_some hfind
    split
    · next hnone =>
      refine hstay fun m a hm ha => ?_
      cases k.one _ _ _ hm hn
      rw [ha] at hnone
      exact hnone
    · next i hsome =>
      obtain ⟨a, ha, hi⟩ := Option.bind_eq_some_iff.1 hsome
      have hs : Window.Step x.window (.drop n) _ := .drop ha hi
      refine ⟨⟨k.exact.step hs, k.full.step k.exact hs, k.one⟩, rfl, (hs.same fun _ => nofun).1,
        fun _ => hs.refused_iff (fun _ => nofun), fun m b hb hheld => ?_⟩
      rcases Registry.get?_update_const hb with ⟨-, rfl⟩ | ⟨hne, hb⟩
      · cases hheld
      · refine ⟨hb, fun w hw hm => ?_⟩
        cases List.mem_singleton.1 hw
        exact hne (k.one _ _ _ hn hm)

theorem Kept.withdrawAll (k : Kept room x) (v : HandleId) (ts : List Ticket) :
    Withdraws room ts x ((ts.map Event.withdrawn).foldl (hear v) x) := by
  induction ts generalizing x with
  | nil => exact ⟨k, rfl, rfl, fun _ => Iff.rfl, fun n a ha _ => ⟨ha, nofun⟩⟩
  | cons t ts ih =>
    have h := k.withdraw t
    have hrest := ih h.kept
    refine ⟨hrest.kept, hrest.bound.trans h.bound, hrest.size.trans h.size,
      fun n => (hrest.refused n).trans (h.refused n), fun n a ha hheld => ?_⟩
    obtain ⟨ha, hno⟩ := hrest.held n a ha hheld
    obtain ⟨ha, hfirst⟩ := h.held n a ha hheld
    refine ⟨ha, fun u hu => ?_⟩
    rcases List.mem_cons.1 hu with rfl | hu
    · exact hfirst u (List.mem_singleton.2 rfl)
    · exact fun hn => hno u hu (h.bound ▸ hn)

theorem hear_asked {i : CallId} {d : Demand} {spec : MessageSpec} (hd : d.message? = some (v, spec)) :
    x.hear v (.asked i t d) = x.ask t spec := by
  simp [hear, hd]

theorem hear_of_not_talk {e : Event} (he : ¬ Talk v e = true) : x.hear v e = x := by
  cases e with
  | asked i t d =>
    unfold hear
    cases hd : d.message? with
    | none => simp [hd]
    | some m =>
      have hm : m.1 ≠ v := fun h => he (by simp [Talk, hd, h])
      simp [hd, hm]
  | withdrawn => exact absurd rfl he
  | _ => rfl

theorem foldl_hear (es : List Event) :
    es.foldl (hear v) x = (es.filter (Talk v)).foldl (hear v) x := by
  induction es generalizing x with
  | nil => rfl
  | cons e es ih =>
    by_cases he : Talk v e = true
    · rw [List.filter_cons_of_pos he]
      exact ih
    · rw [List.filter_cons_of_neg he, List.foldl_cons, hear_of_not_talk he]
      exact ih

@[simp] theorem bound_withdraw (x : Line) (t : Ticket) : (x.withdraw t).bound = x.bound := by
  unfold withdraw
  split
  · rfl
  · split <;> rfl

theorem bound_hear (e : Event) : (∃ n, (t, n) ∈ (x.hear v e).bound) ↔
    (∃ n, (t, n) ∈ x.bound) ∨ ∃ i d spec, .asked i t d = e ∧ d.message? = some (v, spec) := by
  by_cases he : Talk v e = true
  · cases e with
    | asked i u d =>
      obtain ⟨⟨h, spec⟩, hd, hv⟩ := (Option.any_eq_true _ _).1 he
      obtain rfl : h = v := of_decide_eq_true hv
      rw [hear_asked hd]
      constructor
      · rintro ⟨n, hn⟩
        rcases List.mem_cons.1 hn with heq | hn
        · cases heq
          exact .inr ⟨i, d, spec, rfl, hd⟩
        · exact .inl ⟨n, hn⟩
      · rintro (⟨n, hn⟩ | ⟨_, _, _, heq, -⟩)
        · exact ⟨n, List.mem_cons_of_mem _ hn⟩
        · cases heq
          exact ⟨_, List.mem_cons_self⟩
    | withdrawn u => simp [hear]
    | _ => cases he
  · rw [hear_of_not_talk he]
    refine (or_iff_left ?_).symm
    rintro ⟨i, d, spec, rfl, hd⟩
    exact he (by simp [Talk, hd])

/-- Every request on the handle gets a call. -/
theorem bound_foldl (es : List Event) : (∃ n, (t, n) ∈ (es.foldl (hear v) x).bound) ↔
    (∃ n, (t, n) ∈ x.bound) ∨ ∃ i d spec, .asked i t d ∈ es ∧ d.message? = some (v, spec) := by
  induction es generalizing x with
  | nil => simp
  | cons e es ih =>
    rw [List.foldl_cons, ih, bound_hear]
    simp only [List.mem_cons, or_and_right, exists_or, or_assoc]

/-- The producer keeps to its window, and a call of the factory waits for each request that a permit is
held for. -/
structure Sound (v : HandleId) (room : Nat) (s : Factory) (x : Line) : Prop where
  kept : Kept room x
  fresh : ∀ t n, (t, n) ∈ x.bound → t < s.tickets ∧ n < x.window.attempts.size
  held : ∀ t n a, (t, n) ∈ x.bound → x.window.attempts.get? n = some a → a.send?.isSome = true →
    ∃ i, WaitsUnder s i v t

section

variable {s s' : Factory} {l : Label} {tr : List (Label × Factory)} {w : Window} {i : CallId}
  {n : AttemptId} {a : Attempt}

/-- While a call on the producer holds a permit, the factory is told nothing that would end the wait. -/
theorem Allows.waits (hx : x.Allows l) (h : Run PublicOnly tr s) (hl : PublicOnly s l)
    (hs : s.step l = some s') (hn : (t, n) ∈ x.bound) (ha : x.window.attempts.get? n = some a)
    (hheld : a.send?.isSome = true) (hi : WaitsUnder s i v t) :
    (∃ j, WaitsUnder s' j v t) ∨ l = .abort i ∨ l = .crash i := by
  cases waitsUnder_of_step h hl hs hi with
  | waits hj => exact .inl ⟨_, hj⟩
  | stopped hl => exact .inr hl
  | told hl hne =>
    obtain ⟨b, hb, htells⟩ := hx _ _ _ n hl hn
    cases ha.symm.trans hb
    cases htells with
    | taken => exact absurd rfl hne
    | refused | failed | receipt => cases hheld

theorem Kept.ask (k : Kept room x) (spec : MessageSpec) (hnew : ∀ n, (t, n) ∉ x.bound) :
    Kept room (x.ask t spec) := by
  refine ⟨k.exact.start spec, k.full.start k.exact spec, fun u n n' hn hn' => ?_⟩
  rcases List.mem_cons.1 hn with he | hn <;> rcases List.mem_cons.1 hn' with he' | hn'
  · cases he
    cases he'
    rfl
  · cases he
    exact absurd hn' (hnew n')
  · cases he'
    exact absurd hn (hnew n)
  · exact k.one u n n' hn hn'

theorem Sound.factory (x₀ : Sound v room s x) (h : Run PublicOnly tr s) (hl : PublicOnly s l)
    (hx : x.Allows l) (hs : s.step l = some s') {es : List Event} (he : s'.events = s.events ++ es) :
    Sound v room s' (es.foldl (hear v) x) := by
  obtain ⟨hle, htalks⟩ := talks_of_events h hl hs he v
  rw [foldl_hear]
  generalize es.filter (Talk v) = es at htalks
  have hwaits : ∀ t n a, (t, n) ∈ x.bound → x.window.attempts.get? n = some a →
      a.send?.isSome = true → (∃ j, WaitsUnder s' j v t) ∨
        ∃ i, WaitsUnder s i v t ∧ (l = .abort i ∨ l = .crash i) := by
    intro t n a hn ha hheld
    obtain ⟨i, hi⟩ := x₀.held t n a hn ha hheld
    exact (hx.waits h hl hs hn ha hheld hi).imp_right fun hl => ⟨i, hi, hl⟩
  have hgoesOn : (∀ c, l ≠ .abort c ∧ l ≠ .crash c) → ∀ t n a, (t, n) ∈ x.bound →
      x.window.attempts.get? n = some a → a.send?.isSome = true → ∃ j, WaitsUnder s' j v t := by
    intro hno t n a hn ha hheld
    rcases hwaits t n a hn ha hheld with hj | ⟨i, -, hl⟩
    · exact hj
    · exact (hl.elim (hno i).1 (hno i).2).elim
  cases htalks with
  | silent hno =>
    exact ⟨x₀.kept, fun t n hn => ⟨Nat.lt_of_lt_of_le (x₀.fresh t n hn).1 hle, (x₀.fresh t n hn).2⟩,
      hgoesOn hno⟩
  | @asks i t d spec _ hno hd hge hlt hi =>
    rw [List.foldl_cons, hear_asked hd, List.foldl_nil]
    have hnew : ∀ n, (t, n) ∉ x.bound := fun n hn => absurd (x₀.fresh t n hn).1 (Nat.not_lt.2 hge)
    have hsize := (Window.start_refused x.window spec).1
    refine ⟨x₀.kept.ask spec hnew, fun u n hn => ?_, fun u n a hn ha hheld => ?_⟩
    · show _ ∧ _ < (x.window.start spec).attempts.size
      rw [hsize]
      rcases List.mem_cons.1 hn with heq | hn
      · cases heq
        exact ⟨hlt, Nat.lt_succ_self _⟩
      · obtain ⟨hu, hn⟩ := x₀.fresh u n hn
        exact ⟨Nat.lt_of_lt_of_le hu hle, Nat.lt_succ_of_lt hn⟩
    · rcases List.mem_cons.1 hn with heq | hn
      · cases heq
        exact ⟨i, hi⟩
      · refine hgoesOn hno u n a hn ?_ hheld
        rw [← Window.get?_start_of_lt spec (x₀.fresh u n hn).2]
        exact ha
  | @stops c q ts _ hl' hq hts =>
    have hw := x₀.kept.withdrawAll v ts
    refine ⟨hw.kept, fun t n hn => ?_, fun t n a hn ha hheld => ?_⟩
    · rw [hw.bound] at hn
      exact ⟨Nat.lt_of_lt_of_le (x₀.fresh t n hn).1 hle, hw.size ▸ (x₀.fresh t n hn).2⟩
    · rw [hw.bound] at hn
      obtain ⟨ha, hno⟩ := hw.held n a ha hheld
      rcases hwaits t n a hn ha hheld with hj | ⟨i, ⟨r, hr, hreq⟩, hli⟩
      · exact hj
      · -- The call that is stopped is the one that waited, and so it withdraws its request.
        obtain rfl : i = c := by
          rcases hl' with rfl | rfl <;> rcases hli with hli | hli <;> cases hli <;> rfl
        cases hq.symm.trans hr
        exact absurd hn (hno t (hts v t hreq))

theorem Sound.wire {l : Window.Label} (x₀ : Sound v room s x) (hs : Window.Step x.window l w) :
    Sound v room s { x with window := w, past := (l, x.window) :: x.past } := by
  refine ⟨⟨x₀.kept.exact.step hs, x₀.kept.full.step x₀.kept.exact hs, x₀.kept.one⟩, fun t n hn => ?_,
    fun t n a hn ha hheld => ?_⟩
  · obtain ⟨ht, hlt⟩ := x₀.fresh t n hn
    exact ⟨ht, Nat.lt_of_lt_of_le hlt hs.size_le⟩
  · obtain ⟨b, hb, hheld⟩ := hs.held (x₀.fresh t n hn).2 ha hheld
    exact x₀.held t n b hn hb hheld

end

end Line

namespace Factory

open SoundLemmas StoryLemmas

section

variable {v : HandleId} {w₀ : Window} {tr : List (Label × Factory)} {s : Factory} {x : Line}

theorem Joint.run (h : Joint v w₀ tr s x) : Run PublicOnly tr s := by
  induction h with
  | new => exact .new
  | factory _ hl _ hs _ ih => exact .step ih hl hs
  | wire _ _ ih => exact ih

theorem Joint.sound {topic : String} {room timeout : Nat}
    (h : Joint v (Window.opened topic room timeout) tr s x) : Line.Sound v room s x := by
  induction h with
  | new =>
    exact ⟨⟨Window.exact_opened topic room timeout, Window.full_opened topic room timeout, fun _ _ => nofun⟩,
      (fun _ _ => nofun), fun _ _ => nofun⟩
  | factory h hl hx hs he ih => exact ih.factory h.run hl hx hs he
  | wire _ hs ih => exact ih.wire hs

/-- What became of the call of a request can be told. -/
theorem Joint.allows {topic : String} {room timeout : Nat} {t : Ticket} {n : AttemptId} {b : Attempt}
    {c : CallId} {a : Answer} (h : Joint v (Window.opened topic room timeout) tr s x)
    (hn : (t, n) ∈ x.bound) (hb : x.window.attempts.get? n = some b) (ha : b.Tells a) :
    x.Allows (.answer c t a) := by
  intro _ _ _ m heq hm
  cases heq
  cases h.sound.kept.one t m n hm hn
  exact ⟨b, hb, ha⟩

theorem Joint.bound (h : Joint v w₀ tr s x) (t : Ticket) : (∃ n, (t, n) ∈ x.bound) ↔
    ∃ i d spec, .asked i t d ∈ s.events ∧ d.message? = some (v, spec) := by
  induction h with
  | new => simp [Factory.new, events]
  | wire _ _ ih => exact ih
  | factory _ _ _ _ he ih =>
    rw [Line.bound_foldl, ih, he]
    simp only [List.mem_append, or_and_right, exists_or]

end

/-! ## 4. What can be seen -/

section

variable {tr : List (Label × Factory)} {s s' : Factory} {c i j : CallId} {p : PendingId} {v : HandleId}
  {t : Ticket} {l : Label} {run : Option (CallId × Act)}

/-- Only a call that was made to send promises a pending send. -/
theorem Storied.promises_send (st : Storied tr s none)
    (hc : s.calls.get? c = some (.ended (.promised p))) :
    ∃ w m, Made tr c (.want w) ∧ w.purpose = .send m .promised ∧ Promised tr s c w.topic m p := by
  have hmade : ∃ w, Made tr c (.want w) := by
    generalize ho : Outcome.promised p = o at hc
    cases st.story c _ hc nobody_runs with
    | delivered => cases ho
    | ended hmade he =>
      cases he with
      | promised => exact ⟨_, hmade⟩
      | @receipt _ _ _ _ r => cases r <;> cases ho
      | @await _ _ r => cases r <;> cases ho
      | _ => cases ho
  obtain ⟨w, hmade⟩ := hmade
  obtain ⟨m, hp, hpr⟩ := st.promised hmade hc
  exact ⟨w, m, hmade, hp, hpr⟩

/-- The outcome of a promised send cannot be seen before it is known. -/
theorem not_visible_of_unknown {x : Pending} (hc : s.calls.get? c = some (.ended (.promised p)))
    (hx : s.pending.get? p = some x) (hu : x.state = .unknown) : ¬ Visible s c := by
  intro hv
  cases hv with
  | returned hq _ hno =>
    cases hc.symm.trans hq
    exact hno p rfl
  | readable hq hy hr =>
    cases hc.symm.trans hq
    cases hx.symm.trans hy
    simp [Pending.outcome?, hu] at hr

/-- While a call is not over, nobody sees the outcome of the send that it acts for. -/
theorem ActsFor.not_visible {q : Progress} (ha : ActsFor tr s i c) (st : Storied tr s none)
    (hi : s.calls.get? i = some q) (ho : Progress.isOver q = false) : ¬ Visible s c := by
  have hover : ¬ Over s i := by
    rintro ⟨r, hr, hover⟩
    cases hi.symm.trans hr
    exact absurd (hover.symm.trans ho) nofun
  rcases ha with rfl | ⟨p, hc, htask⟩
  · intro hv
    cases hv with
    | returned hr hover' => exact hover ⟨_, hr, hover'⟩
    | readable hr => exact hover ⟨_, hr, rfl⟩
  · obtain ⟨w, m, hmade, -, x, hx, -, pr⟩ := st.promises_send hc
    refine not_visible_of_unknown hc hx ?_
    have hreceives : ∀ {v : HandleId} {t : Ticket} {state : PendingState},
        Receives tr s w.topic v t i p state → state = .unknown := by
      intro v t state hr
      cases hr with
      | waiting => rfl
      | settled _ h | abandoned h => exact absurd h hover
    generalize x.state = state at pr
    cases pr with
    | rejected _ _ _ hno | enqueued _ _ _ hno => exact absurd htask (hno i)
    | begun => rfl
    | dispatched _ _ hd _ hr =>
      cases st.assigned.tasks p i _ htask (.inl hd)
      exact hreceives hr
    | lost _ hd _ h =>
      cases st.assigned.tasks p i _ htask (.inl hd)
      exact absurd h hover

/-- The request that a call waits for was made by itself, or by the call that promised the send. -/
theorem WaitsUnder.asker (hj : WaitsUnder s j v t) (h : Run PublicOnly tr s) {d : Demand}
    (hasked : .asked i t d ∈ s.events) :
    i = j ∨ ∃ p, s.calls.get? i = some (.ended (.promised p)) ∧ Serves s p j := by
  have st := h.orderly.storied
  obtain ⟨q, hq, hreq⟩ := hj
  have hby : ∀ {k : CallId} {e : Demand}, handed s k = [(t, e)] → i = k := by
    intro k e hk
    exact (h.ticket_unique hasked (mem_handed.1 (hk ▸ List.mem_cons_self)).1).1
  cases q with
  | sending g u =>
    cases hreq
    obtain ⟨_, _, -, -, -, hone⟩ := (st.story j _ hq nobody_runs).of_sending
    exact .inl (hby hone)
  | enqueuing g u =>
    cases hreq
    obtain ⟨_, _, -, -, -, hone⟩ := (st.story j _ hq nobody_runs).of_enqueuing
    exact .inl (hby hone)
  | completing g u p =>
    cases hreq
    have hserves : Serves s p j := ⟨_, hq, rfl⟩
    obtain ⟨c, w, m, hc, hmade, -⟩ := h.promiser p j hserves
    obtain ⟨m', -, x, hx, -, pr⟩ := st.promised hmade hc
    rw [st.assigned.unknown hx hserves] at pr
    have hreceives : ∀ {g : HandleId} {u : Ticket} {d : CallId},
        Receives tr s w.topic g u d p .unknown → d = j ∧ u = t := by
      intro g u d hr
      cases hr with
      | waiting hd =>
        cases st.assigned.unique p j d hserves ⟨_, hd, rfl⟩
        cases hq.symm.trans hd
        exact ⟨rfl, rfl⟩
    cases pr with
    | enqueued hone _ _ _ hr =>
      obtain ⟨-, rfl⟩ := hreceives hr
      exact .inr ⟨p, hby hone ▸ hc, hserves⟩
    | dispatched _ _ _ hone hr =>
      obtain ⟨rfl, rfl⟩ := hreceives hr
      exact .inl (hby hone)
    | begun _ _ hd =>
      cases st.assigned.unique p j _ hserves ⟨_, hd, rfl⟩
      cases hq.symm.trans hd
  | _ => cases hreq

/-- While a call waits for a request, nobody sees the outcome of the send that the request was for. -/
theorem WaitsUnder.not_visible (hj : WaitsUnder s j v t) (h : Run PublicOnly tr s) {d : Demand}
    (hasked : .asked i t d ∈ s.events) (ha : ActsFor tr s i c) : ¬ Visible s c := by
  have st := h.orderly.storied
  rcases hj.asker h hasked with rfl | ⟨p, hi, hserves⟩
  · obtain ⟨q, hq, hreq⟩ := hj
    refine ha.not_visible st hq ?_
    cases q with
    | sending | enqueuing | completing => rfl
    | _ => cases hreq
  · obtain ⟨w, m, hmade, -, x, hx, -⟩ := st.promises_send hi
    rcases ha with rfl | ⟨p', -, htask⟩
    · exact not_visible_of_unknown hi hx (st.assigned.unknown hx hserves)
    · exact absurd hmade ((h.once.begun p' i htask).2 _)

theorem Joint.returned {topic : String} {room timeout : Nat} {x : Line} {n : AttemptId} {a : Attempt}
    (h : Joint v (Window.opened topic room timeout) tr s x) (hn : (t, n) ∈ x.bound)
    (ha : x.window.attempts.get? n = some a) (hheld : a.send?.isSome = true) {d : Demand}
    (hasked : .asked i t d ∈ s.events) (hc : ActsFor tr s i c) : ¬ Visible s c := by
  obtain ⟨j, hj⟩ := h.sound.held t n a hn ha hheld
  exact hj.not_visible h.run hasked hc

end

/-! ## 5. One send after the other -/

section

variable {tr : List (Label × Factory)} {s s' : Factory} {c i j : CallId} {p : PendingId} {v : HandleId}
  {l : Label} {run : Option (CallId × Act)} {topic : String}

/-- What can be seen can always be seen. -/
theorem Visible.step (hv : Visible s c) (h : Run PublicOnly tr s) (hl : PublicOnly s l)
    (hs : s.step l = some s') : Visible s' c := by
  have hlasts : Lasts s s' := (h.step hl hs).lasts List.mem_cons_self
  cases hv with
  | returned hq ho hno => exact .returned (hlasts.ended hq ho) ho hno
  | readable hq hx hr =>
    obtain ⟨y, hy, hr⟩ := hlasts.outcome hx hr
    exact .readable (hlasts.ended hq rfl) hy hr

/-- Of two sends to a topic that go one after the other, the outcome of one can be seen. -/
theorem Run.one_visible (h : Run PublicOnly tr s) (hone : OneByOne topic tr)
    (hi : SendsTo tr topic i) (hj : SendsTo tr topic j) (hne : i ≠ j) : Visible s i ∨ Visible s j := by
  induction h with
  | new =>
    obtain ⟨_, _, _, ⟨_, hm, -⟩, -⟩ := hi
    cases hm
  | @step tr s s' l h hl hs ih =>
    have hlast : ∀ {k : CallId}, SendsTo ((l, s) :: tr) topic k → SendsTo tr topic k ∨
        (k = s.calls.size ∧ ∀ c, SendsTo tr topic c → Visible s c) := by
      rintro k ⟨w, m, d, ⟨s₀, hm, hk⟩, hp, ht⟩
      rcases List.mem_cons.1 hm with heq | hm
      · cases heq
        exact .inr ⟨hk.symm, hone.2 w m d rfl hp ht⟩
      · exact .inl ⟨w, m, d, ⟨s₀, hm, hk⟩, hp, ht⟩
    rcases hlast hi with hi | ⟨rfl, hseen⟩ <;> rcases hlast hj with hj | ⟨rfl, hseen'⟩
    · exact (ih hone.1 hi hj).imp (·.step h hl hs) (·.step h hl hs)
    · exact .inl ((hseen' i hi).step h hl hs)
    · exact .inr ((hseen j hj).step h hl hs)
    · exact absurd rfl hne

/-- Of sends that go one after the other, one at most waits for a request. -/
theorem WaitsUnder.eq_of_oneByOne {t u : Ticket} (h : Run PublicOnly tr s)
    (htopic : s.topic? v = some topic) (hone : OneByOne topic tr) (hi : WaitsUnder s i v t)
    (hj : WaitsUnder s j v u) : t = u := by
  have hholds : ∀ {k : CallId} {t : Ticket}, WaitsUnder s k v t → ∃ u c, Holds s k u v ∧
      SendsTo tr topic c ∧ WorksFor s k c ∧ ¬ Visible s c := by
    rintro k t ⟨q, hq, hreq⟩
    obtain ⟨u, hu⟩ := held?_eq_some_iff.1 (request?_held hreq)
    have hk : Holds s k u v := ⟨q, hq, hu⟩
    obtain ⟨c, w, ⟨hmade, m, hp⟩, ht, hw⟩ := h.holder hk
    cases htopic.symm.trans ht
    refine ⟨u, c, hk, ⟨w, m, _, hmade, hp, rfl⟩, hw, fun hv => ?_⟩
    cases hv with
    | returned hc ho hno =>
      obtain ⟨p, rfl, -⟩ := hw.of_over hk hc ho
      exact hno p rfl
    | readable hc hx hr => cases (h.outcome_of_lease hw hk hc hx).symm.trans hr
  obtain ⟨y, c, hik, hc, hwc, hcno⟩ := hholds hi
  obtain ⟨y', c', hjk, hc', hwc', hcno'⟩ := hholds hj
  by_cases hcc : c = c'
  · subst hcc
    obtain ⟨rfl, -, -⟩ := h.one_lease hwc hwc' hik hjk
    obtain ⟨q, hq, hreq⟩ := hi
    obtain ⟨q', hq', hreq'⟩ := hj
    cases hq.symm.trans hq'
    cases hreq.symm.trans hreq'
    rfl
  · exact ((h.one_visible hone hc hc' hcc).elim hcno hcno').elim

theorem topic?_of_step (h : Run PublicOnly tr s) (hl : PublicOnly s l) (hs : s.step l = some s')
    (ht : s.topic? v = some topic) : s'.topic? v = some topic := by
  refine h.step_induct (J := fun s₁ _ => s₁.topic? v = some topic) hl hs ?_ ?_
  · exact fun _ hb => topic?_later hb.later ht
  · exact fun _ ht hturn => topic?_later hturn.later ht

theorem WaitsUnder.topic? {t : Ticket} (h : Run PublicOnly tr s) (hi : WaitsUnder s i v t) :
    ∃ topic, s.topic? v = some topic := by
  obtain ⟨q, hq, hreq⟩ := hi
  obtain ⟨y, hy⟩ := held?_eq_some_iff.1 (request?_held hreq)
  obtain ⟨_, w, -, ht, -⟩ := h.holder ⟨q, hq, hy⟩
  exact ⟨w.topic, ht⟩

/-- When all permits are held, one of the requests is still waited for after a step, unless the step ends
a call before its time. -/
theorem crowded {room : Nat} {x : Line} (k : Line.Sound v room s x) (h : Run PublicOnly tr s)
    (hl : PublicOnly s l) (hx : x.Allows l) (hs : s.step l = some s')
    (hno : ∀ c, l ≠ .abort c ∧ l ≠ .crash c) (hroom : 0 < room)
    (hours : ∀ n, n < x.window.attempts.size → ∃ u, (u, n) ∈ x.bound)
    (hfree : x.window.producer.free = 0) : ∃ u n j, (u, n) ∈ x.bound ∧ WaitsUnder s' j v u := by
  have hholders := k.kept.exact.free_eq_zero_iff.1 hfree
  obtain ⟨n, a, hn, ha⟩ := Registry.exists_get?_of_count_pos (hholders.symm ▸ hroom)
  obtain ⟨u, hu⟩ := hours n (Registry.lt_size_of_get? hn)
  obtain ⟨i, hi⟩ := k.held u n a hu hn ha
  obtain ⟨j, hj⟩ := (hx.waits h hl hs hu hn ha hi).resolve_right fun hl =>
    hl.elim (hno i).1 (hno i).2
  exact ⟨u, n, j, hu, hj⟩

/-- Where sends to the topic go one after the other and nobody else uses the producer, a request finds a
permit. -/
theorem Joint.alone {x : Line} {room timeout : Nat} {t : String}
    (h : Joint v (Window.opened t room timeout) tr s x)
    (htopic : ∀ t', s.topic? v = some t' → t' = topic) (hone : OneByOne topic tr) (hroom : 0 < room)
    (hours : ∀ n, n < x.window.attempts.size → ∃ t, (t, n) ∈ x.bound) (n : AttemptId) :
    ¬ x.window.Refused n := by
  generalize hw₀ : Window.opened t room timeout = w₀ at h
  induction h generalizing n with
  | new =>
    subst hw₀
    rintro ⟨_, hn⟩
    simp [Window.opened] at hn
  | @wire tr s x l w hj hs ih =>
    subst hw₀
    have hstart : ∀ spec, l ≠ .start spec := by
      rintro spec rfl
      cases hs
      obtain ⟨u, hu⟩ := hours x.window.attempts.size
        (Nat.lt_of_lt_of_eq (Nat.lt_succ_self _) (Window.start_refused _ _).1.symm)
      exact Nat.lt_irrefl _ (hj.sound.fresh u _ hu).2
    intro hr
    refine ih htopic hone (fun m hm => hours m ?_) n ((hs.refused_iff hstart).1 hr)
    exact (hs.same hstart).1.symm ▸ hm
  | @factory tr s s' x l es hj hl hx hs he ih =>
    subst hw₀
    have hold := ih (fun t' ht => htopic t' (topic?_of_step hj.run hl hs ht)) hone.1
    have h' : Run PublicOnly ((l, s) :: tr) s' := .step hj.run hl hs
    obtain ⟨-, htalks⟩ := talks_of_events hj.run hl hs he v
    rw [Line.foldl_hear] at hours ⊢
    generalize es.filter (Talk v) = es' at htalks hours
    cases htalks with
    | silent => exact hold hours n
    | @stops c q ts =>
      have hw := hj.sound.kept.withdrawAll v ts
      rw [hw.refused]
      refine hold (fun m hm => ?_) n
      rw [← hw.bound]
      exact hours m (hw.size.symm ▸ hm)
    | @asks i t' d spec _ hno hd hge hlt hi =>
      rw [List.foldl_cons, Line.hear_asked hd, List.foldl_nil] at hours ⊢
      obtain ⟨hsize, hnew, hother, -⟩ := Window.start_refused x.window spec
      have hours' : ∀ m, m < x.window.attempts.size → ∃ u, (u, m) ∈ x.bound := by
        intro m hm
        obtain ⟨u, hu⟩ := hours m (hsize.symm ▸ Nat.lt_succ_of_lt hm)
        rcases List.mem_cons.1 hu with heq | hu
        · cases heq
          exact absurd hm (Nat.lt_irrefl _)
        · exact ⟨u, hu⟩
      by_cases hn : n = x.window.attempts.size
      · subst hn
        intro hr
        obtain ⟨u, m, j, hu, hj'⟩ :=
          crowded hj.sound hj.run hl hx hs hno hroom hours' (hnew.1 hr)
        obtain ⟨t'', ht⟩ := hi.topic? h'
        obtain rfl := htopic _ ht
        obtain rfl := hi.eq_of_oneByOne h' ht hone hj'
        exact absurd (hj.sound.fresh _ _ hu).1 (Nat.not_lt.2 hge)
      · exact fun hr => hold hours' n ((hother n hn).1 hr)

end

/-- In every run of a factory and others with a producer, the window of the producer is kept to, the queue
is full for exactly those calls that begin when every permit is held, and a permit is free again before
anybody sees the outcome of the send that it was for. -/
theorem window_exact {v : HandleId} {topic : String} {room timeout : Nat}
    {tr : List (Label × Factory)} {s : Factory} {x : Line}
    (h : Joint v (Window.opened topic room timeout) tr s x) : Windowed v room tr s x where
  exact := h.sound.kept.exact
  full := h.sound.kept.full
  bound := h.bound
  one := h.sound.kept.one
  returned _ _ _ hn ha hheld _ _ _ hasked hc := h.returned hn ha hheld hasked hc
  alone _ ht hone hroom hours :=
    h.alone (fun _ ht' => Option.some.inj (ht'.symm.trans ht)) hone hroom hours

/-- The window is one message wide, and two are sent at once: the second finds the queue full, and the
permit of the first is back when its receipt can be read. -/
theorem window_exact_for_two :
    ∃ tr s x, Joint 0 (Window.opened "t" 1 10) tr s x ∧ Windowed 0 1 tr s x ∧ x.window.Refused 1 ∧
      x.window.producer.free = 1 ∧ Visible s 0 := by
  have h₁ : Joint 0 (Window.opened "t" 1 10) _ _ _ :=
    .factory (l := .resume 0)
      (.factory (l := .call (.want ⟨"t", .send {} .promised⟩)) .new trivial nofun rfl
        (show _ = _ ++ [.started 0] from rfl)) trivial nofun rfl
      (show _ = _ ++ [.lookedUp 0 "t", .asked 0 0 (.openProducer "t")] from rfl)
  have h₂ : Joint 0 (Window.opened "t" 1 10) _ _ _ :=
    .factory (l := .answer 0 0 (.opened (.ok .pipelined))) h₁ trivial nofun rfl
      (show _ = _ ++ [.opened 0 0, .asked 0 1 (.enqueue 0 {})] from rfl)
  have h₃ : Joint 0 (Window.opened "t" 1 10) _ _ _ :=
    .wire h₂ (.enqueued (n := 0) (r := .ok ()) rfl)
  have h₄ : Joint 0 (Window.opened "t" 1 10) _ _ _ :=
    .factory (l := .answer 0 1 (.accepted (.ok ()))) h₃ trivial
      (h₃.allows List.mem_cons_self rfl .taken) rfl (show _ = _ ++ [.started 1, .finished 0] from rfl)
  have h₅ : Joint 0 (Window.opened "t" 1 10) _ _ _ :=
    .factory (l := .resume 2)
      (.factory (l := .call (.want ⟨"t", .send {} .acknowledged⟩)) h₄ trivial nofun rfl
        (show _ = _ ++ [.started 2] from rfl)) trivial nofun rfl
      (show _ = _ ++ [.lookedUp 2 "t", .asked 2 2 (.send 0 {})] from rfl)
  have h₆ : Joint 0 (Window.opened "t" 1 10) _ _ _ :=
    .wire (.wire h₅ (.await (n := 0) rfl))
      (.receive (n := 0) (r := .ok (some { ledger := 7, entry := 1 })) rfl)
  have h₇ : Joint 0 (Window.opened "t" 1 10) _ _ _ :=
    .factory (l := .answer 1 1 (.receipt (.ok { ledger := 7, entry := 1 }))) h₆ trivial
      (h₆.allows (List.mem_cons_of_mem _ List.mem_cons_self) rfl .receipt) rfl
      (show _ = _ ++ [.finished 1] from rfl)
  exact ⟨_, _, _, h₇, window_exact h₇, ⟨_, rfl⟩, rfl, .readable rfl rfl rfl⟩

end Factory

end TopicPublisher
