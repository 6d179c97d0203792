import TopicPublisher.Proofs.Factory.Frame

/-!
# The moments of a step

A step of the factory takes a call from one point where it waits to the next, through the code of several
operations. Here a step is cut into moments: `Begins` says how a step can begin and what the call that
runs is about to do then (`Act`), and `Turn` says what becomes of an act, with one case for each branch
of the code. What holds of every moment is proved from these cases alone.

Results:
1. `turn_of_act`: every act takes one of the turns, until none is left.
2. `begins_of_step`: every step begins in one of the ways.
3. `path_of_step`: so every step is a path of moments.
4. `Run.induct`: what holds of all moments of a run, by what one of them leaves to the next.
-/

namespace TopicPublisher

namespace Factory

/-! ## Definitions -/

/-- What a call that runs is about to do.

* `give`: to go on with a handle that a look-up gave.
* `grant`: to do with a handle what it is wanted for.
* `place`: to place the handle that a cell was filled with.
* `retire`: to close what can be closed. The handles in `done` were looked at. -/
inductive Act where
  | look (w : Want)
  | give (w : Want) (h : HandleId)
  | grant (w : Want) (h : HandleId)
  | place (w : Want) (k : CellId) (h : HandleId)
  | retire (done todo : List Retirement) (next : AfterRetiring)

/-- How a call ends with the outcome of its message. -/
def endOf : Except Error MessageId → Outcome
  | .ok id => .acknowledged id
  | .error e => .failed e

/-- What the code makes of an act. -/
def carryOut (s : Factory) (c : CallId) : Act → Factory
  | .look w => s.look c w
  | .give w h => s.give c w h
  | .grant w h => s.grant c w h
  | .place w k h => s.place c w k h
  | .retire done todo next => (s.closeFree c todo).1.retired c (done ++ (s.closeFree c todo).2) next

/-- What becomes of an act: the state after it, and the act that follows, if any. -/
inductive Turn (c : CallId) (s : Factory) : Act → Factory → Option Act → Prop
  | refused {w : Want} : s.cache.closed = true →
      Turn c s (.look w) ((s.note (.lookedUp c w.topic)).finish c (.failed .factoryClosed)) none
  | found {w : Want} {h : HandleId} : s.cache.closed = false → s.cache.handle? w.topic = some h →
      w.purpose = .peek ∨ s.isRetiring h = false →
      Turn c s (.look w) (s.note (.lookedUp c w.topic)) (some (.grant w h))
  | spin {w : Want} {h : HandleId} : s.cache.closed = false → s.cache.handle? w.topic = some h →
      w.purpose ≠ .peek → s.isRetiring h = true →
      Turn c s (.look w) ((s.note (.lookedUp c w.topic)).goTo c .spinning) none
  /-- The cell is empty and the turn at it is taken. -/
  | create {w : Want} {cache : Cache} {k : CellId} {x : Cell} : s.cache.closed = false →
      s.cache.CellFor w.topic (cache, k) → cache.cells.get? k = some x → x.value = none →
      (x.enter c).1 = true →
      Turn c s (.look w)
        ({ s.note (.lookedUp c w.topic) with
          cache := cache.setCell k fun x => (x.enter c).2 }.create c w k) none
  | queue {w : Want} {cache : Cache} {k : CellId} {x : Cell} : s.cache.closed = false →
      s.cache.CellFor w.topic (cache, k) → cache.cells.get? k = some x → x.value = none →
      (x.enter c).1 = false →
      Turn c s (.look w)
        ({ s.note (.lookedUp c w.topic) with
          cache := cache.setCell k fun x => (x.enter c).2 }.goTo c (.queued w k)) none
  /-- The map has a cell that there is not. -/
  | lost {w : Want} {cache : Cache} {k : CellId} : s.cache.CellFor w.topic (cache, k) →
      cache.cells.get? k = none →
      Turn c s (.look w) { s.note (.lookedUp c w.topic) with cache } none
  | keep {w : Want} {h : HandleId} : w.purpose = .peek ∨ s.isRetiring h = false →
      Turn c s (.give w h) s (some (.grant w h))
  | again {w : Want} {h : HandleId} : w.purpose ≠ .peek → s.isRetiring h = true →
      Turn c s (.give w h) s (some (.look w))
  | handle {w : Want} {h : HandleId} : w.purpose = .peek ∨ w.purpose = .open →
      Turn c s (.grant w h) (s.finish c (.handle h)) none
  | denied {w : Want} {h : HandleId} {cs : List CallId} : w.purpose ≠ .peek →
      (∀ x, s.handles.get? h = some x → x.retiring = true) →
      Turn c s (.grant w h)
        (({ s with handles := s.handles.update h fun x => x.beginBorrow.endBorrow.1 }.rouse cs).goTo c
          .spinning) none
  | lease {w : Want} {h : HandleId} {x : Handle} : w.purpose = .lease →
      s.handles.get? h = some x → x.retiring = false →
      Turn c s (.grant w h)
        (({ s with handles := s.handles.update h Handle.beginBorrow }.handOver h).finish c
          (.lease s.leases.size)) none
  | send {w : Want} {h : HandleId} {x : Handle} {m : MessageSpec} :
      w.purpose = .send m .acknowledged → s.handles.get? h = some x → x.retiring = false →
      Turn c s (.grant w h)
        (({ s with handles := s.handles.update h Handle.beginBorrow }.goTo c
          (.sending h s.tickets)).ask c (.send h m)) none
  | enqueue {w : Want} {h : HandleId} {x : Handle} {m : MessageSpec} :
      w.purpose = .send m .promised → s.handles.get? h = some x → x.retiring = false →
      x.mode = .pipelined →
      Turn c s (.grant w h)
        (({ s with handles := s.handles.update h Handle.beginBorrow }.goTo c
          (.enqueuing h s.tickets)).ask c (.enqueue h m)) none
  | promise {w : Want} {h : HandleId} {x : Handle} {m : MessageSpec} :
      w.purpose = .send m .promised → s.handles.get? h = some x → x.retiring = false →
      x.mode = .sequential →
      Turn c s (.grant w h)
        (({ s with
            handles := s.handles.update h Handle.beginBorrow
            pending := s.pending.add { topic := x.topic } }.start
          (.fresh (.dispatch h m s.pending.size))).finish c (.promised s.pending.size)) none
  | placed {w : Want} {k : CellId} {h v : HandleId} {p : Placement} {cache : Cache} :
      s.cache.place (s.isRetiring h) w.topic k h = (p, cache) → p = .cached v ∨ p = .retired v →
      Turn c s (.place w k h) { s with cache } (some (.give w v))
  | superseded {w : Want} {k : CellId} {h winner loser : HandleId} {cache : Cache} :
      s.cache.place (s.isRetiring h) w.topic k h = (.superseded winner loser, cache) →
      Turn c s (.place w k h) { s with cache, handles := stopAll s.handles [loser] }
        (some (.retire [] [{ handle := loser }] (.give w winner)))
  | shut {w : Want} {k : CellId} {h v : HandleId} {cache : Cache} :
      s.cache.place (s.isRetiring h) w.topic k h = (.closed v, cache) →
      Turn c s (.place w k h) { s with cache, handles := stopAll s.handles [v] }
        (some (.retire [] [{ handle := v }] .refuse))
  | skip {done todo : List Retirement} {r : Retirement} {next : AfterRetiring} :
      r.stage ≠ .waiting ∨ s.handles.get? r.handle = none →
      Turn c s (.retire done (r :: todo) next) s (some (.retire (done ++ [r]) todo next))
  | elsewhere {done todo : List Retirement} {r : Retirement} {next : AfterRetiring} {x : Handle} :
      r.stage = .waiting → s.handles.get? r.handle = some x → x.borrows = 0 → x.closed = true →
      Turn c s (.retire done (r :: todo) next) s
        (some (.retire (done ++ [{ r with stage := .finished .elsewhere }]) todo next))
  | close {done todo : List Retirement} {r : Retirement} {next : AfterRetiring} {x : Handle} :
      r.stage = .waiting → s.handles.get? r.handle = some x → x.borrows = 0 → x.closed = false →
      Turn c s (.retire done (r :: todo) next)
        ({ s with
          handles := s.handles.update r.handle fun x =>
            { x.claimClose.2 with closes := x.closes + 1 } }.ask c (.close r.handle))
        (some (.retire (done ++ [{ r with stage := .closing s.tickets }]) todo next))
  | park {done todo : List Retirement} {r : Retirement} {next : AfterRetiring} {x : Handle} :
      r.stage = .waiting → s.handles.get? r.handle = some x → x.borrows ≠ 0 →
      Turn c s (.retire done (r :: todo) next)
        { s with handles := s.handles.update r.handle fun x => x.park c }
        (some (.retire (done ++ [r]) todo next))
  | goOn {done : List Retirement} {w : Want} {h : HandleId} : allOver done = true →
      Turn c s (.retire done [] (.give w h)) s (some (.give w h))
  | fail {done : List Retirement} : allOver done = true →
      Turn c s (.retire done [] .refuse) (s.finish c (.failed .factoryClosed)) none
  | count {done : List Retirement} : allOver done = true →
      Turn c s (.retire done [] .count) (s.finish c (.closed (closedCount done))) none
  | wait {done : List Retirement} {next : AfterRetiring} : allOver done = false →
      Turn c s (.retire done [] next) (s.goTo c (.retiring done next)) none

/-- What is left when call `c` lets go of all that it holds at a point. -/
inductive LetsGo (s : Factory) (c : CallId) : Progress → Factory → Prop
  | dispatch {h : HandleId} {m : MessageSpec} {p : PendingId} {cs : List CallId} :
      LetsGo s c (.fresh (.dispatch h m p))
        ({ s with
          handles := s.handles.update h fun x => x.endBorrow.1
          pending := s.pending.update p fun q => { q with state := .abandoned, awaiter := none }
          }.rouse cs)
  | fresh {r : Request} : (∀ h m p, r ≠ .dispatch h m p) → LetsGo s c (.fresh r) s
  | queued {w : Want} {k : CellId} {cs : List CallId} :
      LetsGo s c (.queued w k)
        ({ s with cache := s.cache.setCell k fun x => (x.leave c).1 }.rouse cs)
  | creating {w : Want} {k : CellId} {t : Ticket} {cs : List CallId} :
      LetsGo s c (.creating w k t)
        (({ s with cache := s.cache.setCell k fun x => (x.leave c).1 }.note (.withdrawn t)).rouse cs)
  | retiring {rs : List Retirement} {next : AfterRetiring} {handles : Registry Handle}
      {ts : List Ticket} :
      (∀ h, ∃ ps, handles.get? h = (s.handles.get? h).map fun x => { x with parked := ps }) →
      handles.size = s.handles.size →
      LetsGo s c (.retiring rs next) ({ s with handles }.write (ts.map .withdrawn))
  | sending {h : HandleId} {t : Ticket} {p : Progress} {cs : List CallId} :
      p = .sending h t ∨ p = .enqueuing h t →
      LetsGo s c p
        (({ s with handles := s.handles.update h fun x => x.endBorrow.1 }.note (.withdrawn t)).rouse cs)
  | completing {h : HandleId} {t : Ticket} {p : PendingId} {cs : List CallId} :
      LetsGo s c (.completing h t p)
        (({ s with
          handles := s.handles.update h fun x => x.endBorrow.1
          pending := s.pending.update p fun q => { q with state := .abandoned, awaiter := none }
          }.note (.withdrawn t)).rouse cs)
  | awaiting {p : PendingId} :
      LetsGo s c (.awaiting p)
        { s with pending := s.pending.update p fun q => { q with awaiter := none } }
  | spinning : LetsGo s c .spinning s

/-- How a step begins: the state after that, and the call that runs, if any, with its act. -/
inductive Begins (s : Factory) : Label → Factory → Option (CallId × Act) → Prop
  | call {r : Request} : Begins s (.call r) (s.start (.fresh r)) none
  | want {c : CallId} {w : Want} : s.calls.get? c = some (.fresh (.want w)) →
      Begins s (.resume c) s (some (c, .look w))
  | refuse {c : CallId} {e : Error} : s.calls.get? c = some (.fresh (.refuse e)) →
      Begins s (.resume c) (s.finish c (.failed e)) none
  | drain {c : CallId} {r : Request} {taken : Cache × List HandleId} :
      s.calls.get? c = some (.fresh r) →
      (r = .reset ∧ taken = s.cache.take) ∨ (r = .shutdown ∧ taken = s.cache.shut) →
      Begins s (.resume c)
        ({ s with cache := taken.1, handles := stopAll s.handles taken.2 }.note (.drained c taken.2))
        (some (c, .retire [] (taken.2.map fun h => { handle := h }) .count))
  | await {c : CallId} {p : PendingId} : s.calls.get? c = some (.fresh (.await p)) →
      Begins s (.resume c)
        ({ s with pending := s.pending.update p fun q => { q with awaiter := some c } }.goTo c
          (.awaiting p)) none
  | dispatch {c : CallId} {h : HandleId} {m : MessageSpec} {p : PendingId} :
      s.calls.get? c = some (.fresh (.dispatch h m p)) →
      Begins s (.resume c) ((s.goTo c (.completing h s.tickets p)).ask c (.send h m)) none
  | filled {c : CallId} {w : Want} {k : CellId} {h : HandleId} :
      s.calls.get? c = some (.queued w k) → s.cache.value? k = some h →
      Begins s (.resume c) s (some (c, .place w k h))
  | create {c : CallId} {w : Want} {k : CellId} : s.calls.get? c = some (.queued w k) →
      s.cache.HasTurn c k → Begins s (.resume c) (s.create c w k) none
  | retire {c : CallId} {rs : List Retirement} {next : AfterRetiring} :
      s.calls.get? c = some (.retiring rs next) →
      Begins s (.resume c) s (some (c, .retire [] rs next))
  | settled {c : CallId} {p : PendingId} {q : Pending} {r : Except Error MessageId} :
      s.calls.get? c = some (.awaiting p) → s.pending.get? p = some q → q.outcome? = some r →
      Begins s (.resume c) (s.finish c (endOf r)) none
  | created {c : CallId} {t : Ticket} {w : Want} {k : CellId} {m : DispatchMode} {cs : List CallId} :
      s.calls.get? c = some (.creating w k t) →
      Begins s (.answer c t (.opened (.ok m)))
        (({ s with
            handles := s.handles.add { topic := w.topic, mode := m }
            cache := s.cache.setCell k fun x => (x.fill s.handles.size).1 }.note
          (.opened c s.handles.size)).rouse cs)
        (some (c, .place w k s.handles.size))
  | failed {c : CallId} {t : Ticket} {w : Want} {k : CellId} {e : ClientError} {cs : List CallId} :
      s.calls.get? c = some (.creating w k t) →
      Begins s (.answer c t (.opened (.error e)))
        (({ s with cache := s.cache.setCell k fun x => x.pass.1 }.rouse cs).finish c
          (.failed (.producerCreation w.topic e))) none
  | receipt {c : CallId} {t : Ticket} {h : HandleId} {r : Except ClientError MessageId}
      {cs : List CallId} : s.calls.get? c = some (.sending h t) →
      Begins s (.answer c t (.receipt r))
        (({ s with handles := s.handles.update h fun x => x.endBorrow.1 }.rouse cs).finish c
          (endOf (s.outcomeOf h r))) none
  | rejected {c : CallId} {t : Ticket} {h : HandleId} {e : ClientError} {cs : List CallId} :
      s.calls.get? c = some (.enqueuing h t) →
      Begins s (.answer c t (.accepted (.error e)))
        (({ s with
            handles := s.handles.update h fun x => x.endBorrow.1
            pending := s.pending.add
              { topic := s.topicOf h, state := .settled (.error (.ofSend (s.topicOf h) e)) }
            }.rouse cs).finish c (.promised s.pending.size)) none
  | accepted {c : CallId} {t : Ticket} {h : HandleId} :
      s.calls.get? c = some (.enqueuing h t) →
      Begins s (.answer c t (.accepted (.ok ())))
        (({ s with pending := s.pending.add { topic := s.topicOf h } }.start
          (.completing h t s.pending.size)).finish c (.promised s.pending.size)) none
  | completed {c : CallId} {t : Ticket} {h : HandleId} {p : PendingId}
      {r : Except ClientError MessageId} {cs : List CallId} :
      s.calls.get? c = some (.completing h t p) →
      Begins s (.answer c t (.receipt r))
        (({ s with
            handles := s.handles.update h fun x => x.endBorrow.1
            pending := s.pending.update p fun q =>
              { q with state := .settled (s.outcomeOf h r), awaiter := none }
            }.rouse cs).finish c .delivered) none
  | closed {c : CallId} {t : Ticket} {rs : List Retirement} {next : AfterRetiring}
      {r : Except ClientError Unit} : s.calls.get? c = some (.retiring rs next) →
      (∃ x ∈ rs, x.stage = .closing t) →
      Begins s (.answer c t (.closed r)) s (some (c, .retire [] (rs.map (closeOver t r)) next))
  | stop {c : CallId} {l : Label} {p final : Progress} {s₁ : Factory} :
      (l = .abort c ∧ final = .aborted) ∨ (l = .crash c ∧ final = .crashed) →
      s.calls.get? c = some p → LetsGo s c p s₁ →
      Begins s l ((s₁.goTo c final).note (.finished c)) none
  | leased {h : HandleId} {x : Handle} : s.handles.get? h = some x → x.retiring = false →
      Begins s (.lease h)
        ({ s with handles := s.handles.update h Handle.beginBorrow }.handOver h) none
  | denied {h : HandleId} {cs : List CallId} : (∀ x, s.handles.get? h = some x → x.retiring = true) →
      Begins s (.lease h)
        ({ s with handles := s.handles.update h fun x => x.beginBorrow.endBorrow.1 }.rouse cs) none
  | released {l : LeaseId} {y : Lease} {cs : List CallId} : s.leases.get? l = some y →
      y.released = false →
      Begins s (.release l)
        ({ s with
          leases := s.leases.update l fun y => { y with released := true }
          handles := s.handles.update y.handle fun x => x.endBorrow.1 }.rouse cs) none

/-- `Run ok tr s`: a run from a new factory to `s`. `tr` has what happened, the last first, each with the
state that it happened in; `ok` says what can happen there. -/
inductive Run (ok : Factory → Label → Prop) : List (Label × Factory) → Factory → Prop
  | new : Run ok [] new
  | step {tr : List (Label × Factory)} {s s' : Factory} {l : Label} :
      Run ok tr s → ok s l → s.step l = some s' → Run ok ((l, s) :: tr) s'

/-- What comes of a run when these things happen next, in order; none where one of them cannot. -/
def play (tr : List (Label × Factory)) (s : Factory) :
    List Label → Option (List (Label × Factory) × Factory)
  | [] => some (tr, s)
  | l :: ls => (s.step l).bind fun s' => play ((l, s) :: tr) s' ls

theorem play_induct {motive : List (Label × Factory) → Factory → Prop} {ls : List Label}
    {tr tr' : List (Label × Factory)} {s s' : Factory} (h : motive tr s)
    (hstep : ∀ l ∈ ls, ∀ tr s s', motive tr s → s.step l = some s' → motive ((l, s) :: tr) s')
    (hs : play tr s ls = some (tr', s')) : motive tr' s' := by
  induction ls generalizing tr s with
  | nil =>
    cases hs
    exact h
  | cons l ls ih =>
    obtain ⟨s₁, hs₁, hs⟩ := Option.bind_eq_some_iff.1 hs
    exact ih (hstep l List.mem_cons_self _ _ _ h hs₁)
      (fun l' hl' => hstep l' (List.mem_cons_of_mem l hl')) hs

theorem Run.play {ok : Factory → Label → Prop} {tr tr' : List (Label × Factory)} {s s' : Factory}
    (h : Run ok tr s) (ls : List Label) (hok : ∀ l ∈ ls, ∀ s, ok s l)
    (hs : Factory.play tr s ls = some (tr', s')) : Run ok tr' s' :=
  play_induct h (fun l hl _ s _ hr hs => hr.step (hok l hl s) hs) hs

/-- A step as it goes: the state at a moment of it, and the call that runs then, if any. -/
inductive Path (s : Factory) (l : Label) : Factory → Option (CallId × Act) → Prop
  | begin {s₁ : Factory} {run : Option (CallId × Act)} : Begins s l s₁ run → Path s l s₁ run
  | turn {s₁ s₂ : Factory} {c : CallId} {a : Act} {next : Option Act} :
      Path s l s₁ (some (c, a)) → Turn c s₁ a s₂ next → Path s l s₂ (next.map fun a => (c, a))

/-! ## 1. Turns -/

/-- How many acts may follow an act, at most. -/
def Act.rank : Act → Nat
  | .grant _ _ => 0
  | .look _ => 1
  | .give _ _ => 2
  | .retire _ todo _ => todo.length + 3
  | .place _ _ _ => 5

/-- What is left to do, carried out. -/
def conclude (s : Factory) (c : CallId) : Option Act → Factory
  | none => s
  | some a => s.carryOut c a

/-- The turn that an act takes in the code. -/
def Takes (c : CallId) (s : Factory) (a : Act) : Prop :=
  ∃ s₁ next, Turn c s a s₁ next ∧ s.carryOut c a = s₁.conclude c next ∧
    ∀ a₁, next = some a₁ → a₁.rank < a.rank

namespace MomentLemmas

theorem takes_grant (c : CallId) (s : Factory) (w : Want) (h : HandleId) : Takes c s (.grant w h) := by
  cases hp : w.purpose with
  | peek => exact ⟨_, none, .handle (.inl hp), by simp only [carryOut, grant, hp, conclude], fun _ => nofun⟩
  | «open» => exact ⟨_, none, .handle (.inr hp), by simp only [carryOut, grant, hp, conclude], fun _ => nofun⟩
  | lease =>
    by_cases hg : ∃ x, s.handles.get? h = some x ∧ x.retiring = false
    · obtain ⟨x, hx, hr⟩ := hg
      refine ⟨_, none, .lease hp hx hr, ?_, fun _ => nofun⟩
      simp only [carryOut, grant, hp, borrow_granted hx hr, if_true, conclude]
    · obtain ⟨cs, hb⟩ := borrow_refused (s := s) (h := h) (by simpa using hg)
      refine ⟨_, none, @Turn.denied c s w h cs (by simp [hp]) (by simpa using hg), ?_, fun _ => nofun⟩
      simp only [carryOut, grant, hp, hb, Bool.false_eq_true, if_false, conclude]
  | send m d =>
    by_cases hg : ∃ x, s.handles.get? h = some x ∧ x.retiring = false
    · obtain ⟨x, hx, hr⟩ := hg
      have hx' : (s.handles.update h Handle.beginBorrow).get? h = some x.beginBorrow := by
        rw [Registry.get?_update, if_pos rfl, hx]
        rfl
      cases d with
      | acknowledged =>
        refine ⟨_, none, .send hp hx hr, ?_, fun _ => nofun⟩
        simp only [carryOut, grant, hp, borrow_granted hx hr, if_true, dispatch, conclude]
      | promised =>
        cases hm : x.mode with
        | pipelined =>
          refine ⟨_, none, .enqueue hp hx hr hm, ?_, fun _ => nofun⟩
          simp only [carryOut, grant, hp, borrow_granted hx hr, if_true, dispatch, modeOf, hx',
            Option.map_some, Option.getD_some, Handle.beginBorrow, hm, conclude]
        | sequential =>
          refine ⟨_, none, .promise hp hx hr hm, ?_, fun _ => nofun⟩
          simp only [carryOut, grant, hp, borrow_granted hx hr, if_true, dispatch, modeOf, topicOf, hx',
            Option.map_some, Option.getD_some, Handle.beginBorrow, hm, conclude]
    · obtain ⟨cs, hb⟩ := borrow_refused (s := s) (h := h) (by simpa using hg)
      refine ⟨_, none, @Turn.denied c s w h cs (by simp [hp]) (by simpa using hg), ?_, fun _ => nofun⟩
      simp only [carryOut, grant, hp, hb, Bool.false_eq_true, if_false, conclude]

theorem takes_give (c : CallId) (s : Factory) (w : Want) (h : HandleId) : Takes c s (.give w h) := by
  by_cases hp : w.purpose = .peek
  · refine ⟨s, some (.grant w h), .keep (.inl hp), ?_, ?_⟩
    · simp only [carryOut, conclude, give, grant, hp]
    · intro a ha
      cases ha
      exact Nat.zero_lt_succ _
  · have hgive : s.give c w h = if s.isRetiring h then s.look c w else s.grant c w h := by
      unfold give
      split
      · next he => exact absurd he hp
      · rfl
    cases hr : s.isRetiring h with
    | false =>
      refine ⟨s, some (.grant w h), .keep (.inr hr), ?_, ?_⟩
      · simp only [carryOut, conclude, hgive, hr, Bool.false_eq_true, if_false]
      · intro a ha
        cases ha
        exact Nat.zero_lt_succ _
    | true =>
      refine ⟨s, some (.look w), .again hp hr, ?_, ?_⟩
      · simp only [carryOut, conclude, hgive, hr, if_true]
      · intro a ha
        cases ha
        exact Nat.lt_succ_self _

/-- A look-up of a topic that the map has no handle for. -/
theorem takes_look_miss {c : CallId} {s : Factory} {w : Want} {cache : Cache} {k : CellId}
    (ho : s.cache.closed = false) (hfor : s.cache.cellFor w.topic = (cache, k))
    (hv : cache.value? k = none) : Takes c s (.look w) := by
  have hcell := Cache.cellFor_spec s.cache w.topic
  rw [hfor] at hcell
  cases hx : cache.cells.get? k with
  | none =>
    refine ⟨_, none, .lost hcell hx, ?_, fun _ => nofun⟩
    simp only [carryOut, look, note, ho, Bool.false_eq_true, if_false, hfor, hv, hx, conclude]
  | some x =>
    have hnone : x.value = none := by
      unfold Cache.value? at hv
      rw [hx] at hv
      exact hv
    have hset : (cache.cells.update k fun _ => (x.enter c).2) =
        cache.cells.update k fun x => (x.enter c).2 :=
      Registry.update_const_eq hx fun x => (x.enter c).2
    cases ht : (x.enter c).1 with
    | true =>
      refine ⟨_, none, .create ho hcell hx hnone ht, ?_, fun _ => nofun⟩
      simp only [carryOut, look, note, ho, Bool.false_eq_true, if_false, hfor, hv, hx, ht, if_true,
        hset, conclude, Cache.setCell]
    | false =>
      refine ⟨_, none, .queue ho hcell hx hnone ht, ?_, fun _ => nofun⟩
      simp only [carryOut, look, note, ho, Bool.false_eq_true, if_false, hfor, hv, hx, ht, hset,
        conclude, Cache.setCell]

theorem takes_look (c : CallId) (s : Factory) (w : Want) : Takes c s (.look w) := by
  cases ho : s.cache.closed with
  | true =>
    refine ⟨_, none, .refused ho, ?_, fun _ => nofun⟩
    simp only [carryOut, look, note, ho, if_true, conclude]
  | false =>
    have hcell := Cache.cellFor_spec s.cache w.topic
    rcases hfor : s.cache.cellFor w.topic with ⟨cache, k⟩
    cases hv : cache.value? k with
    | none => exact takes_look_miss ho hfor hv
    | some h =>
      rw [hfor] at hcell
      cases hcell with
      | added hnone =>
        rw [Cache.value?_addCell, if_pos rfl] at hv
        cases hv
      | found hk =>
        have hh : s.cache.handle? w.topic = some h := Cache.handle?_eq_some_iff.2 ⟨k, hk, hv⟩
        by_cases hp : w.purpose = .peek
        · refine ⟨_, some (.grant w h), .found ho hh (.inl hp), ?_, ?_⟩
          · simp only [carryOut, look, note, ho, Bool.false_eq_true, if_false, hfor, hv, hp, grant,
              conclude]
          · intro a ha
            cases ha
            exact Nat.zero_lt_succ _
        · have hlook : s.look c w = if s.isRetiring h then
              (s.note (.lookedUp c w.topic)).goTo c .spinning
              else (s.note (.lookedUp c w.topic)).grant c w h := by
            cases hw : w.purpose with
            | peek => exact absurd hw hp
            | _ =>
              simp only [look, note, ho, Bool.false_eq_true, if_false, hfor, hv, hw]
              rfl
          cases hr : s.isRetiring h with
          | false =>
            refine ⟨_, some (.grant w h), .found ho hh (.inr hr), ?_, ?_⟩
            · simp only [carryOut, hlook, hr, Bool.false_eq_true, if_false, conclude]
            · intro a ha
              cases ha
              exact Nat.zero_lt_succ _
          | true =>
            refine ⟨_, none, .spin ho hh hp hr, ?_, fun _ => nofun⟩
            simp only [carryOut, hlook, hr, if_true, conclude]

theorem takes_place (c : CallId) (s : Factory) (w : Want) (k : CellId) (h : HandleId) :
    Takes c s (.place w k h) := by
  rcases hp : s.cache.place (s.isRetiring h) w.topic k h with ⟨p, cache⟩
  cases p with
  | cached v =>
    refine ⟨_, _, .placed hp (.inl rfl), ?_, ?_⟩
    · simp only [carryOut, place, hp, conclude]
    · intro a ha
      cases ha
      exact (by decide : 2 < 5)
  | retired v =>
    refine ⟨_, _, .placed hp (.inr rfl), ?_, ?_⟩
    · simp only [carryOut, place, hp, conclude]
    · intro a ha
      cases ha
      exact (by decide : 2 < 5)
  | superseded winner loser =>
    refine ⟨_, _, .superseded hp, ?_, ?_⟩
    · simp only [carryOut, place, hp, conclude, beginRetiring, stopLeasing_eq]
      rfl
    · intro a ha
      cases ha
      exact Nat.lt_succ_self _
  | closed v =>
    refine ⟨_, _, .shut hp, ?_, ?_⟩
    · simp only [carryOut, place, hp, conclude, beginRetiring, stopLeasing_eq]
      rfl
    · intro a ha
      cases ha
      exact Nat.lt_succ_self _

/-- What comes after the retiring when there is nothing left to look at. -/
theorem takes_retire_nil (c : CallId) (s : Factory) (done : List Retirement) (next : AfterRetiring) :
    Takes c s (.retire done [] next) := by
  cases ho : allOver done with
  | false =>
    refine ⟨_, none, .wait ho, ?_, fun _ => nofun⟩
    simp only [carryOut, closeFree, List.append_nil, retired, ho, Bool.false_eq_true, if_false,
      conclude]
  | true =>
    cases next with
    | give w h =>
      refine ⟨_, some (.give w h), .goOn ho, ?_, ?_⟩
      · simp only [carryOut, closeFree, List.append_nil, retired, ho, if_true, conclude]
      · intro a ha
        cases ha
        exact Nat.lt_succ_self _
    | refuse =>
      refine ⟨_, none, .fail ho, ?_, fun _ => nofun⟩
      simp only [carryOut, closeFree, List.append_nil, retired, ho, if_true, conclude]
    | count =>
      refine ⟨_, none, .count ho, ?_, fun _ => nofun⟩
      simp only [carryOut, closeFree, List.append_nil, retired, ho, if_true, conclude]

theorem takes_retire_cons (c : CallId) (s : Factory) (done : List Retirement) (r : Retirement)
    (todo : List Retirement) (next : AfterRetiring) : Takes c s (.retire done (r :: todo) next) := by
  suffices ∃ s₁ r₁, Turn c s (.retire done (r :: todo) next) s₁
      (some (.retire (done ++ [r₁]) todo next)) ∧
      s.closeFree c (r :: todo) = ((s₁.closeFree c todo).1, r₁ :: (s₁.closeFree c todo).2) by
    obtain ⟨s₁, r₁, hturn, hfree⟩ := this
    refine ⟨s₁, _, hturn, ?_, ?_⟩
    · simp only [carryOut, hfree, conclude, List.append_assoc, List.singleton_append]
    · intro a ha
      cases ha
      exact Nat.lt_succ_self _
  by_cases hw : r.stage = .waiting
  · cases hx : s.handles.get? r.handle with
    | none =>
      refine ⟨s, r, .skip (.inr hx), ?_⟩
      simp only [closeFree, hw, hx]
    | some x =>
      by_cases hb : x.borrows = 0
      · cases hc : x.closed with
        | true =>
          refine ⟨_, _, .elsewhere hw hx hb hc, ?_⟩
          simp only [closeFree, hw, hx, hb, hc, if_true]
        | false =>
          refine ⟨_, _, .close hw hx hb hc, ?_⟩
          simp only [closeFree, hw, hx, hb, hc, if_true, Bool.false_eq_true, if_false, setHandle]
      · refine ⟨_, _, .park hw hx hb, ?_⟩
        simp only [closeFree, hw, hx, hb, if_false, setHandle]
  · refine ⟨s, r, .skip (.inl hw), ?_⟩
    rw [closeFree]
    split
    next heq =>
      split at heq
      · next hst _ => exact absurd hst hw
      · cases heq
        rfl

end MomentLemmas

open MomentLemmas

theorem turn_of_act (c : CallId) (s : Factory) (a : Act) : Takes c s a := by
  cases a with
  | look w => exact takes_look c s w
  | give w h => exact takes_give c s w h
  | grant w h => exact takes_grant c s w h
  | place w k h => exact takes_place c s w k h
  | retire done todo next =>
    cases todo with
    | nil => exact takes_retire_nil c s done next
    | cons r todo => exact takes_retire_cons c s done r todo next

/-! ## 2. Beginnings -/

/-- What is left of a step after its beginning, carried out. -/
def concludeStep (s : Factory) : Option (CallId × Act) → Factory
  | none => s
  | some (c, a) => s.carryOut c a

namespace MomentLemmas

/-- A step that begins in one of the ways and goes on from there. -/
def Opens (s : Factory) (l : Label) (s' : Factory) : Prop :=
  ∃ s₁ run, Begins s l s₁ run ∧ s' = s₁.concludeStep run

theorem opens_done {s s₁ : Factory} {l : Label} (h : Begins s l s₁ none) : Opens s l s₁ :=
  ⟨s₁, none, h, rfl⟩

theorem retire_eq (s : Factory) (c : CallId) (rs : List Retirement) (next : AfterRetiring) :
    s.retire c rs next = s.carryOut c (.retire [] rs next) := rfl

theorem drain_eq (s : Factory) (c : CallId) (taken : Cache × List HandleId) :
    s.drain c taken =
      ({ s with cache := taken.1, handles := stopAll s.handles taken.2 }.note
        (.drained c taken.2)).carryOut c (.retire [] (taken.2.map fun h => { handle := h }) .count) := by
  unfold drain beginRetiring
  rw [stopLeasing_eq, retire_eq]
  rfl

theorem opens_begin {s : Factory} {c : CallId} {r : Request}
    (hc : s.calls.get? c = some (.fresh r)) : Opens s (.resume c) (s.begin c r) := by
  cases r with
  | want w => exact ⟨s, _, .want hc, rfl⟩
  | refuse e => exact opens_done (.refuse hc)
  | reset => exact ⟨_, _, .drain hc (.inl ⟨rfl, rfl⟩), drain_eq s c _⟩
  | shutdown => exact ⟨_, _, .drain hc (.inr ⟨rfl, rfl⟩), drain_eq s c _⟩
  | await p => exact opens_done (.await hc)
  | dispatch h m p => exact opens_done (.dispatch hc)

theorem opens_resume {s s' : Factory} {c : CallId} {p : Progress} (hc : s.calls.get? c = some p)
    (hs : s.resume c p = some s') : Opens s (.resume c) s' := by
  cases p with
  | fresh r =>
    cases hs
    exact opens_begin hc
  | queued w k =>
    simp only [resume] at hs
    split at hs
    · cases hs
    · next cell hcell =>
      split at hs
      · next h hv =>
        cases hs
        exact ⟨s, _, .filled hc (Option.bind_eq_some_iff.2 ⟨cell, hcell, hv⟩), rfl⟩
      · next hv =>
        split at hs
        · next ht =>
          cases hs
          exact opens_done (.create hc ⟨cell, hcell, ht, hv⟩)
        · cases hs
  | retiring rs next =>
    simp only [resume] at hs
    split at hs
    · cases hs
      exact ⟨s, _, .retire hc, rfl⟩
    · cases hs
  | awaiting p =>
    simp only [resume] at hs
    split at hs
    · cases hs
    · next id ho =>
      cases hs
      obtain ⟨q, hq, hr⟩ := Option.bind_eq_some_iff.1 ho
      exact opens_done (.settled (r := .ok id) hc hq hr)
    · next e ho =>
      cases hs
      obtain ⟨q, hq, hr⟩ := Option.bind_eq_some_iff.1 ho
      exact opens_done (.settled (r := .error e) hc hq hr)
  | _ => cases hs

theorem outcomeOf_endBorrow (s : Factory) (h : HandleId) (r : Except ClientError MessageId) :
    (s.endBorrow h).outcomeOf h r = s.outcomeOf h r := by
  have htopic : (s.endBorrow h).topicOf h = s.topicOf h := by
    obtain ⟨cs, hb⟩ := s.endBorrow_eq h
    rw [hb]
    show (((s.handles.update h fun x => x.endBorrow.1).get? h).map Handle.topic).getD "" =
      ((s.handles.get? h).map Handle.topic).getD ""
    rw [Registry.get?_update, if_pos rfl]
    cases s.handles.get? h with
    | none => rfl
    | some x =>
      simp only [Option.map_some, Handle.endBorrow]
      split <;> rfl
  unfold outcomeOf
  rw [htopic]

theorem opens_opened {s : Factory} {c : CallId} {w : Want} {k : CellId} {t : Ticket}
    (hc : s.calls.get? c = some (.creating w k t)) (r : Except ClientError DispatchMode) :
    Opens s (.answer c t (.opened r)) (s.opened c w k r) := by
  cases r with
  | error e =>
    obtain ⟨cs, hcell⟩ := s.setCell_eq k Cell.pass
    have hb : Begins s (.answer c t (.opened (.error e))) _ none := @Begins.failed s c t w k e cs hc
    refine ⟨_, none, hb, ?_⟩
    simp only [opened, created, hcell, concludeStep]
  | ok m =>
    obtain ⟨cs, hcell⟩ := setCell_eq
      ((s.addHandle w.topic m).1.note (.opened c s.handles.size)) k
      fun cell => cell.fill s.handles.size
    refine ⟨_, _, @Begins.created s c t w k m cs hc, ?_⟩
    show place (setCell ((s.addHandle w.topic m).1.note (.opened c s.handles.size)) k _) c w k _ = _
    rw [hcell]
    rfl

theorem opens_receipt {s : Factory} {c : CallId} {h : HandleId} {t : Ticket}
    (hc : s.calls.get? c = some (.sending h t)) (r : Except ClientError MessageId) :
    Opens s (.answer c t (.receipt r)) ((s.endBorrow h).finish c (endOf (s.outcomeOf h r))) := by
  obtain ⟨cs, hb⟩ := s.endBorrow_eq h
  rw [hb]
  exact opens_done (.receipt hc)

theorem opens_accepted {s : Factory} {c : CallId} {h : HandleId} {t : Ticket}
    (hc : s.calls.get? c = some (.enqueuing h t)) (r : Except ClientError Unit) :
    Opens s (.answer c t (.accepted r)) (s.accepted c h t r) := by
  cases r with
  | error e =>
    obtain ⟨cs, hb⟩ := s.endBorrow_eq h
    refine ⟨_, none, @Begins.rejected s c t h e cs hc, ?_⟩
    simp only [accepted, hb, concludeStep]
    rfl
  | ok _ => exact opens_done (.accepted hc)

theorem opens_completed {s : Factory} {c : CallId} {h : HandleId} {t : Ticket} {p : PendingId}
    (hc : s.calls.get? c = some (.completing h t p)) (r : Except ClientError MessageId) :
    Opens s (.answer c t (.receipt r))
      (((s.endBorrow h).settle p (.settled (s.outcomeOf h r))).finish c .delivered) := by
  obtain ⟨cs, hb⟩ := s.endBorrow_settle_eq h p (.settled (s.outcomeOf h r))
  rw [hb]
  exact opens_done (.completed hc)

theorem opens_answer {s s' : Factory} {c : CallId} {t : Ticket} {p : Progress} {a : Answer}
    (hc : s.calls.get? c = some p) (hs : s.answer c t p a = some s') :
    Opens s (.answer c t a) s' := by
  unfold answer at hs
  split at hs
  · next w k u r =>
    split at hs
    · next ht =>
      cases hs
      subst ht
      exact opens_opened hc r
    · cases hs
  · next h u r =>
    split at hs
    · next ht =>
      subst ht
      have ho := opens_receipt hc r
      simp only [outcomeOf_endBorrow] at hs
      split at hs
      · next hr =>
        cases hs
        rw [hr] at ho
        exact ho
      · next hr =>
        cases hs
        rw [hr] at ho
        exact ho
    · cases hs
  · next h u r =>
    split at hs
    · next ht =>
      cases hs
      subst ht
      exact opens_accepted hc r
    · cases hs
  · next h u p r =>
    split at hs
    · next ht =>
      cases hs
      subst ht
      rw [outcomeOf_endBorrow]
      exact opens_completed hc r
    · cases hs
  · next rs next r =>
    split at hs
    · next hany =>
      cases hs
      refine ⟨s, _, .closed hc ?_, ?_⟩
      · obtain ⟨x, hx, ht⟩ := List.any_eq_true.1 hany
        exact ⟨x, hx, by simpa using ht⟩
      · show s.retire c _ next = _
        rw [retire_eq]
        cases r <;> rfl
    · cases hs
  · cases hs

/-- Unparking a call and withdrawing its tickets, over a list of retirements. -/
theorem letsGo_retiring (c : CallId) (rs : List Retirement) (s : Factory) :
    ∃ (handles : Registry Handle) (ts : List Ticket), (s.relinquish c (.retiring rs .count) =
        { s with handles }.write (ts.map .withdrawn)) ∧
      handles.size = s.handles.size ∧
      ∀ h, ∃ ps, handles.get? h = (s.handles.get? h).map fun x => { x with parked := ps } := by
  unfold relinquish
  dsimp only
  induction rs generalizing s with
  | nil =>
    refine ⟨s.handles, [], by simp [write], rfl, fun h => ?_⟩
    cases hx : s.handles.get? h with
    | none => exact ⟨[], rfl⟩
    | some x => exact ⟨x.parked, rfl⟩
  | cons r rs ih =>
    rw [List.foldl_cons]
    cases r.stage with
    | waiting =>
      obtain ⟨handles, ts, heq, hsize, hget⟩ := ih (s.setHandle r.handle fun x => x.unpark c)
      refine ⟨handles, ts, heq, hsize.trans (Registry.size_update _ _ _), fun h => ?_⟩
      obtain ⟨ps, hps⟩ := hget h
      refine ⟨ps, hps.trans ?_⟩
      show ((s.handles.update r.handle fun x => x.unpark c).get? h).map _ = _
      rw [Registry.get?_update]
      split
      · cases s.handles.get? h <;> rfl
      · rfl
    | closing t =>
      obtain ⟨handles, ts, heq, hsize, hget⟩ := ih (s.note (.withdrawn t))
      refine ⟨handles, t :: ts, heq.trans ?_, hsize, hget⟩
      show write { s.note (.withdrawn t) with handles } _ = _
      unfold write note
      congr 1
      apply Array.ext'
      simp
    | finished x => exact ih s

theorem letsGo_relinquish {s : Factory} {c : CallId} {p : Progress}
    (ho : Progress.isOver p = false) : LetsGo s c p (s.relinquish c p) := by
  cases p with
  | fresh r =>
    cases r with
    | dispatch h m p =>
      obtain ⟨cs, hb⟩ := s.endBorrow_settle_eq h p .abandoned
      have heq : s.relinquish c (.fresh (.dispatch h m p)) = _ := hb
      rw [heq]
      exact .dispatch
    | _ => exact .fresh fun _ _ => nofun
  | queued w k =>
    obtain ⟨cs, hk⟩ := s.setCell_eq k fun cell => cell.leave c
    have heq : s.relinquish c (.queued w k) = _ := hk
    rw [heq]
    exact .queued
  | creating w k t =>
    obtain ⟨cs, hk⟩ := (s.note (.withdrawn t)).setCell_eq k fun cell => cell.leave c
    have heq : s.relinquish c (.creating w k t) = _ := hk
    rw [heq]
    exact .creating
  | retiring rs next =>
    obtain ⟨handles, ts, heq, hsize, hget⟩ := letsGo_retiring c rs s
    have heq' : s.relinquish c (.retiring rs next) = _ := heq
    rw [heq']
    exact .retiring hget hsize
  | sending h t =>
    obtain ⟨cs, hb⟩ := (s.note (.withdrawn t)).endBorrow_eq h
    have heq : s.relinquish c (.sending h t) = _ := hb
    rw [heq]
    exact .sending (.inl rfl)
  | enqueuing h t =>
    obtain ⟨cs, hb⟩ := (s.note (.withdrawn t)).endBorrow_eq h
    have heq : s.relinquish c (.enqueuing h t) = _ := hb
    rw [heq]
    exact .sending (.inr rfl)
  | completing h t p =>
    obtain ⟨cs, hb⟩ := (s.note (.withdrawn t)).endBorrow_settle_eq h p .abandoned
    have heq : s.relinquish c (.completing h t p) = _ := hb
    rw [heq]
    exact .completing
  | awaiting p => exact .awaiting
  | spinning => exact .spinning
  | ended | aborted | crashed => cases ho

theorem opens_stop {s s' : Factory} {c : CallId} {l : Label} {p final : Progress}
    (hl : (l = .abort c ∧ final = .aborted) ∨ (l = .crash c ∧ final = .crashed))
    (hc : s.calls.get? c = some p) (hs : s.stop c p final = some s') : Opens s l s' := by
  unfold stop at hs
  split at hs
  · cases hs
  · next ho =>
    cases hs
    exact opens_done (.stop hl hc (letsGo_relinquish (by simpa using ho)))

theorem opens_lease (s : Factory) (h : HandleId) :
    Opens s (.lease h) (if (s.borrow h).1 then (s.borrow h).2.handOver h else (s.borrow h).2) := by
  by_cases hg : ∃ x, s.handles.get? h = some x ∧ x.retiring = false
  · obtain ⟨x, hx, hr⟩ := hg
    rw [borrow_granted hx hr]
    exact opens_done (.leased hx hr)
  · have hr : ∀ x, s.handles.get? h = some x → x.retiring = true := by simpa using hg
    obtain ⟨cs, hb⟩ := borrow_refused hr
    rw [hb]
    exact opens_done (.denied hr)

theorem opens_release {s s' : Factory} {l : LeaseId} (hs : s.release l = some s') :
    Opens s (.release l) s' := by
  unfold release at hs
  split at hs
  · cases hs
  · next y hy =>
    split at hs
    · cases hs
    · next hr =>
      obtain ⟨cs, hb⟩ := endBorrow_eq
        { s with leases := s.leases.update l fun x => { x with released := true } } y.handle
      rw [hb] at hs
      cases hs
      exact opens_done (.released hy (by simpa using hr))

end MomentLemmas

theorem begins_of_step {s s' : Factory} {l : Label} (hs : s.step l = some s') :
    Opens s l s' := by
  cases l with
  | call r =>
    cases hs
    exact opens_done .call
  | resume c =>
    obtain ⟨p, hc, hs⟩ := Option.bind_eq_some_iff.1 hs
    exact opens_resume hc hs
  | answer c t a =>
    obtain ⟨p, hc, hs⟩ := Option.bind_eq_some_iff.1 hs
    exact opens_answer hc hs
  | abort c =>
    obtain ⟨p, hc, hs⟩ := Option.bind_eq_some_iff.1 hs
    exact opens_stop (.inl ⟨rfl, rfl⟩) hc hs
  | crash c =>
    obtain ⟨p, hc, hs⟩ := Option.bind_eq_some_iff.1 hs
    exact opens_stop (.inr ⟨rfl, rfl⟩) hc hs
  | lease h =>
    have hl := opens_lease s h
    simp only [step] at hs
    split at hs <;> simp_all
  | release l => exact opens_release hs

/-! ## 3. Steps -/

/-- From any moment of a step on, the rest of the step is a path of moments. -/
theorem Path.carryOut {s s₁ : Factory} {l : Label} {c : CallId} {a : Act}
    (h : Path s l s₁ (some (c, a))) : Path s l (s₁.carryOut c a) none := by
  induction hn : a.rank using Nat.strongRecOn generalizing s₁ a with
  | ind n ih =>
    obtain ⟨s₂, next, hturn, heq, hrank⟩ := turn_of_act c s₁ a
    rw [heq]
    cases next with
    | none => exact h.turn hturn
    | some a₁ => exact ih a₁.rank (hn ▸ hrank a₁ rfl) (h.turn hturn) rfl

theorem path_of_step {s s' : Factory} {l : Label} (hs : s.step l = some s') : Path s l s' none := by
  obtain ⟨s₁, run, hb, rfl⟩ := begins_of_step hs
  cases run with
  | none => exact .begin hb
  | some run => exact (Path.begin hb).carryOut

/-- What is so in a new factory, after the beginning of each step and after each turn is so in every
run. -/
theorem Run.induct {ok : Factory → Label → Prop}
    {I : List (Label × Factory) → Factory → Option (CallId × Act) → Prop} (new : I [] Factory.new none)
    (begins : ∀ {tr : List (Label × Factory)} {s s₁ : Factory} {l : Label}
      {run : Option (CallId × Act)}, Run ok tr s → ok s l → I tr s none → Begins s l s₁ run →
      I ((l, s) :: tr) s₁ run)
    (turn : ∀ {tr : List (Label × Factory)} {s s₁ s₂ : Factory} {l : Label} {c : CallId} {a : Act}
      {next : Option Act}, Run ok tr s → ok s l → I ((l, s) :: tr) s₁ (some (c, a)) →
      Turn c s₁ a s₂ next → I ((l, s) :: tr) s₂ (next.map fun a => (c, a)))
    {tr : List (Label × Factory)} {s : Factory} (h : Run ok tr s) : I tr s none := by
  induction h with
  | new => exact new
  | @step tr s s' l h hok hs ih =>
    have hpath := path_of_step hs
    clear hs
    generalize (none : Option (CallId × Act)) = run at hpath
    induction hpath with
    | begin hb => exact begins h hok ih hb
    | turn _ ht ih => exact turn h hok ih ht

/-! ## 4. Runs -/

section

variable {ok : Factory → Label → Prop} {tr : List (Label × Factory)} {s s₀ : Factory} {l : Label}

theorem Run.ok_of_mem (h : Run ok tr s) (hm : (l, s₀) ∈ tr) : ok s₀ l := by
  induction h with
  | new => cases hm
  | step _ hok _ ih =>
    rcases List.mem_cons.1 hm with he | hm
    · cases he
      exact hok
    · exact ih hm

theorem Run.mono {ok' : Factory → Label → Prop} (h : Run ok tr s) (hok : ∀ s l, ok s l → ok' s l) :
    Run ok' tr s := by
  induction h with
  | new => exact .new
  | step _ hl hs ih => exact .step ih (hok _ _ hl) hs

/-- What was before a step that was taken. -/
theorem Run.before (h : Run ok tr s) (hm : (l, s₀) ∈ tr) :
    ∃ before, Run ok before s₀ := by
  induction h with
  | new => cases hm
  | @step before _ _ _ hrun _ _ ih =>
    rcases List.mem_cons.1 hm with he | hm
    · cases he
      exact ⟨before, hrun⟩
    · exact ih hm

end

end Factory

end TopicPublisher
