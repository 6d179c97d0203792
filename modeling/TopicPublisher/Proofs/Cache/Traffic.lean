import TopicPublisher.Proofs.Factory.Frame

/-!
# Look-ups by name

Runs of a cache that can be compared with one another. A factory numbers its calls as they come, so the
number of a look-up changes when others before it are left out. Here look-ups go by names, and a name
says for which topic the look-up is. A run is a list of acts: look-ups are made, go on, and their
creations end as the list says, and drains and closes come between. It begins with an empty cache, and
with handles in any condition for the creations to yield.

Results:
1. `Traffic.run`, `Act.concerns`, `Alike`: runs, the acts that stay when the look-ups of all topics but
   one are deleted, and what it means that the one topic does not notice.
2. `core_look_refused` to `core_closed`: what each part of a look-up does to the core, which is all of a
   factory that look-ups depend on.
-/

namespace TopicPublisher

/-! ## Definitions -/

/-- The name of a look-up: its topic, and a number among the look-ups of the topic. -/
structure Caller where
  topic : String
  number : Nat
  deriving DecidableEq, Repr

namespace Traffic

/-- What can happen while a cache is used.

* `call`: a look-up is made, of the topic in its name.
* `go`: a look-up goes on.
* `yield`: a look-up's creation ends, with a handle or with an error.
* `closed`: the producer that a look-up closes answers.
* `abort`: the caller gives a look-up up. -/
inductive Act where
  | call (m : Caller)
  | go (m : Caller)
  | yield (m : Caller) (r : Except Error HandleId)
  | closed (m : Caller) (r : Except ClientError Unit)
  | abort (m : Caller)
  | drain
  | close

namespace Act

/-- The look-up whose act it is. -/
def caller? : Act → Option Caller
  | .call m => some m
  | .go m => some m
  | .yield m _ => some m
  | .closed m _ => some m
  | .abort m => some m
  | .drain => none
  | .close => none

/-- Whether an act stays when the look-ups of all topics but `u` are deleted. -/
def concerns (u : String) (a : Act) : Bool := a.caller?.all fun m => m.topic = u

end Act

/-- The handles that creations for a topic yield. -/
def yielded (u : String) (acts : List Act) : List HandleId :=
  acts.filterMap fun
    | .yield m (.ok h) => if m.topic = u then some h else none
    | _ => none

end Traffic

/-- A factory whose calls are look-ups with names. -/
structure Traffic where
  factory : Factory
  callers : Caller → Option CallId := fun _ => none
  /-- The handles that each drain and each close gave, the latest first. -/
  taken : List (List HandleId) := []

namespace Traffic

/-- An empty cache, and handles for the creations to yield. -/
def start (handles : Registry Handle) : Traffic := { factory := { handles } }

/-- The same look-ups after a step of the factory. -/
def become (x : Traffic) (s : Factory) : Traffic := { x with factory := s }

/-- A step of a look-up that there is. -/
def move (x : Traffic) (m : Caller) (f : CallId → Progress → Option Factory) : Option Traffic :=
  (x.callers m).bind fun c => (x.factory.calls.get? c).bind fun p => (f c p).map x.become

/-- The end of a creation, where the call is at one. -/
def yield (s : Factory) (c : CallId) (r : Except Error HandleId) : Progress → Option Factory
  | .creating w k _ => some (s.created c w k r)
  | _ => none

/-- The close that a call waits for. A look-up retires one handle. -/
def closing? : Progress → Option Ticket
  | .retiring [⟨_, .closing t⟩] _ => some t
  | _ => none

/-- Takes the handles out of the cache; they grant no leases from now on. -/
def take (x : Traffic) (taken : Cache × List HandleId) : Traffic :=
  { x with
    factory := { x.factory with cache := taken.1 }.stopLeasing taken.2
    taken := taken.2 :: x.taken }

/-- The traffic after an act; none where it cannot happen. -/
def step (x : Traffic) : Act → Option Traffic
  | .call m =>
    match x.callers m with
    | some _ => none
    | none =>
      (x.factory.step (.call (.want ⟨m.topic, .peek⟩))).map fun s =>
        { x with
          factory := s
          callers := fun n => if n = m then some x.factory.calls.size else x.callers n }
  | .go m => x.move m fun c _ => x.factory.step (.resume c)
  | .yield m r => x.move m fun c p => yield x.factory c r p
  | .closed m r =>
    x.move m fun c p => (closing? p).bind fun t => x.factory.step (.answer c t (.closed r))
  | .abort m => x.move m fun c _ => x.factory.step (.abort c)
  | .drain => some (x.take x.factory.cache.take)
  | .close => some (x.take x.factory.cache.shut)

/-- The traffic after a list of acts. -/
def run (x : Traffic) : List Act → Option Traffic
  | [] => some x
  | a :: acts => (x.step a).bind fun x => x.run acts

/-- The point that a look-up has got to. -/
def progress? (x : Traffic) (m : Caller) : Option Progress :=
  (x.callers m).bind x.factory.calls.get?

/-- How a look-up ended. -/
def outcome? (x : Traffic) (m : Caller) : Option Outcome :=
  match x.progress? m with
  | some (.ended o) => some o
  | _ => none

/-- Nothing that concerns topic `u` differs in `x` and `y`, where `own` are the topic's handles: every
look-up of the topic has the same outcome, the map has the same handle for the topic, whatever a drain
or a close gave in `x` it gave in `y` as far as the topic is concerned, the handles grant leases or do
not, and whatever can happen next to the topic in one can happen in the other. -/
structure Alike (u : String) (own : List HandleId) (x y : Traffic) : Prop where
  outcome : ∀ m : Caller, m.topic = u → y.outcome? m = x.outcome? m
  handle : y.factory.cache.handle? u = x.factory.cache.handle? u
  taken : y.taken = x.taken.map fun hs => hs.filter (· ∈ own)
  leasing : ∀ h ∈ own, y.factory.isRetiring h = x.factory.isRetiring h
  next : ∀ a : Act, a.concerns u = true → (y.step a).isSome = (x.step a).isSome

theorem move_of_progress? {x : Traffic} {m : Caller} {p : Progress} (hp : x.progress? m = some p) :
    ∃ c, x.callers m = some c ∧ x.factory.calls.get? c = some p ∧
      ∀ f, x.move m f = (f c p).map x.become := by
  obtain ⟨c, hc, hp⟩ := Option.bind_eq_some_iff.1 hp
  refine ⟨c, hc, hp, fun f => ?_⟩
  unfold move
  rw [hc, Option.bind_some, hp, Option.bind_some]

theorem move_of_none {x : Traffic} {m : Caller} (hp : x.progress? m = none)
    (f : CallId → Progress → Option Factory) : x.move m f = none := by
  unfold progress? at hp
  unfold move
  cases hc : x.callers m with
  | none => rfl
  | some c =>
    rw [hc, Option.bind_some] at hp
    rw [Option.bind_some, hp]
    rfl

/-! ## 1. The core -/

/-- All of a factory that look-ups depend on, with their names. -/
structure Core where
  cache : Cache
  handles : Registry Handle
  calls : Registry Progress
  callers : Caller → Option CallId
  taken : List (List HandleId)

/-- The core of a factory with named look-ups. -/
def core (x : Traffic) : Core where
  cache := x.factory.cache
  handles := x.factory.handles
  calls := x.factory.calls
  callers := x.callers
  taken := x.taken

namespace Core

def progress? (x : Core) (m : Caller) : Option Progress := (x.callers m).bind x.calls.get?

/-- A call gets to a point. -/
def goTo (x : Core) (c : CallId) (p : Progress) : Core :=
  { x with calls := x.calls.update c fun _ => p }

def setCache (x : Core) (cache : Cache) : Core := { x with cache }

def setHandle (x : Core) (h : HandleId) (f : Handle → Handle) : Core :=
  { x with handles := x.handles.update h f }

/-- A new look-up. -/
def enlist (x : Core) (m : Caller) : Core :=
  { x with
    calls := x.calls.add (.fresh (.want ⟨m.topic, .peek⟩))
    callers := fun n => if n = m then some x.calls.size else x.callers n }

/-- Empties the map. -/
def take (x : Core) (closed : Bool) : Core :=
  { x with
    cache := { x.cache with entries := [], closed }
    handles := Factory.stopAll x.handles x.cache.handles
    taken := x.cache.handles :: x.taken }

end Core

/-! ## 2. What the parts of a look-up do to the core -/

/-- What a look-up does after it has retired a handle, and how it ends then. -/
inductive After (t : String) : AfterRetiring → Outcome → Prop
  | give (h : HandleId) : After t (.give ⟨t, .peek⟩ h) (.handle h)
  | refuse : After t .refuse (.failed .factoryClosed)

/-- A handle of which a call begins to close the producer. -/
def closeNow (v : Handle) : Handle := { v.claimClose.2 with closes := v.closes + 1 }

section

variable {x : Traffic} {c : CallId} {t : String} {k : CellId} {h : HandleId} {b : Cache}
  {next : AfterRetiring} {o : Outcome} {v : Handle}

theorem core_take (x : Traffic) : (x.take x.factory.cache.take).core = x.core.take x.core.cache.closed := by
  unfold take
  rw [Factory.stopLeasing_eq]
  rfl

theorem core_shut (x : Traffic) : (x.take x.factory.cache.shut).core = x.core.take true := by
  unfold take
  rw [Factory.stopLeasing_eq]
  rfl

theorem core_setCell (x : Traffic) (k : CellId) (f : Cell → Cell × List CallId) :
    (x.become (x.factory.setCell k f)).core =
      x.core.setCache (x.core.cache.setCell k fun a => (f a).1) := by
  obtain ⟨cs, hs⟩ := x.factory.setCell_eq k f
  rw [hs]
  rfl

theorem core_look_refused (hc : x.core.cache.closed = true) :
    (x.become (x.factory.look c ⟨t, .peek⟩)).core =
      x.core.goTo c (.ended (.failed .factoryClosed)) := by
  have hc : x.factory.cache.closed = true := hc
  unfold Factory.look
  dsimp only [Factory.note]
  rw [if_pos hc]
  rfl

/-- The cell of the topic has a handle. -/
theorem core_look_hit (ho : x.core.cache.closed = false) (hcell : x.core.cache.CellFor t (b, k))
    (hv : b.value? k = some h) :
    (x.become (x.factory.look c ⟨t, .peek⟩)).core =
      (x.core.setCache b).goTo c (.ended (.handle h)) := by
  have ho : x.factory.cache.closed = false := ho
  have hcell : x.factory.cache.cellFor t = (b, k) := hcell.eq
  unfold Factory.look
  dsimp only [Factory.note]
  rw [if_neg (by simp [ho]), hcell]
  dsimp only
  rw [hv]
  rfl

/-- The cell of the topic is empty: the look-up takes the turn or stands in line. -/
theorem core_look_miss (ho : x.core.cache.closed = false) (hcell : x.core.cache.CellFor t (b, k))
    {a : Cell} (ha : b.cells.get? k = some a) (hv : a.value = none) :
    (x.become (x.factory.look c ⟨t, .peek⟩)).core =
      (x.core.setCache (b.setCell k fun a => (a.enter c).2)).goTo c
        (if (a.enter c).1 then .creating ⟨t, .peek⟩ k x.factory.tickets
          else .queued ⟨t, .peek⟩ k) := by
  have ho : x.factory.cache.closed = false := ho
  have hcell : x.factory.cache.cellFor t = (b, k) := hcell.eq
  have hnone : b.value? k = none := by
    unfold Cache.value?
    rw [ha]
    exact hv
  unfold Factory.look
  dsimp only [Factory.note]
  rw [if_neg (by simp [ho]), hcell]
  dsimp only
  rw [hnone, ha]
  dsimp only
  rw [Registry.update_const_eq ha fun a => (a.enter c).2]
  split <;> rfl

/-- The handle is the one that the look-up goes on with. -/
theorem core_place_kept {q : Placement} (hp : x.core.cache.place (x.factory.isRetiring h) t k h = (q, b))
    (hq : q = .cached h ∨ q = .retired h) :
    (x.become (x.factory.place c ⟨t, .peek⟩ k h)).core =
      (x.core.setCache b).goTo c (.ended (.handle h)) := by
  have hp : x.factory.cache.place (x.factory.isRetiring h) t k h = (q, b) := hp
  unfold Factory.place
  rw [hp]
  rcases hq with rfl | rfl <;> rfl

/-- The look-up retires the handle: another one won, or the cache is closed. -/
theorem place_retires {q : Placement} (hp : x.core.cache.place (x.factory.isRetiring h) t k h = (q, b))
    (hq : (∃ w, q = .superseded w h ∧ next = .give ⟨t, .peek⟩ w) ∨ (q = .closed h ∧ next = .refuse)) :
    x.factory.place c ⟨t, .peek⟩ k h =
      { x.factory with cache := b }.beginRetiring c [h] next := by
  have hp : x.factory.cache.place (x.factory.isRetiring h) t k h = (q, b) := hp
  unfold Factory.place
  rw [hp]
  rcases hq with ⟨w, rfl, rfl⟩ | ⟨rfl, rfl⟩ <;> rfl

/-- No handle of that number is known: the call stays where it is. -/
theorem core_retire_unknown (hv : x.core.handles.get? h = none) :
    (x.become (x.factory.retire c [{ handle := h }] next)).core =
      x.core.goTo c (.retiring [{ handle := h }] next) := by
  have hv : x.factory.handles.get? h = none := hv
  have hone : x.factory.closeFree c [{ handle := h }] = (x.factory, [{ handle := h }]) := by
    simp [Factory.closeFree, hv]
  unfold Factory.retire
  rw [hone]
  rfl

/-- Leases on the handle are left. -/
theorem core_retire_busy (hv : x.core.handles.get? h = some v) (hb : v.borrows ≠ 0) :
    (x.become (x.factory.retire c [{ handle := h }] next)).core =
      (x.core.setHandle h fun v => v.park c).goTo c (.retiring [{ handle := h }] next) := by
  have hv : x.factory.handles.get? h = some v := hv
  have hone : x.factory.closeFree c [{ handle := h }] =
      (x.factory.setHandle h fun v => v.park c, [{ handle := h }]) := by
    simp [Factory.closeFree, hv, hb]
  unfold Factory.retire
  rw [hone]
  rfl

/-- Another call has closed the handle. -/
theorem core_retire_elsewhere (hv : x.core.handles.get? h = some v) (hb : v.borrows = 0)
    (hcl : v.closed = true) (hn : After t next o) :
    (x.become (x.factory.retire c [{ handle := h }] next)).core = x.core.goTo c (.ended o) := by
  have hv : x.factory.handles.get? h = some v := hv
  have hone : x.factory.closeFree c [{ handle := h }] =
      (x.factory, [⟨h, .finished .elsewhere⟩]) := by
    simp [Factory.closeFree, hv, hb, hcl]
  unfold Factory.retire
  rw [hone]
  cases hn <;> rfl

/-- The call closes the handle itself. -/
theorem core_retire_close (hv : x.core.handles.get? h = some v) (hb : v.borrows = 0)
    (hcl : v.closed = false) :
    (x.become (x.factory.retire c [{ handle := h }] next)).core =
      (x.core.setHandle h closeNow).goTo c
        (.retiring [⟨h, .closing x.factory.tickets⟩] next) := by
  have hv : x.factory.handles.get? h = some v := hv
  have hone : x.factory.closeFree c [{ handle := h }] =
      ((x.factory.setHandle h closeNow).ask c (.close h), [⟨h, .closing x.factory.tickets⟩]) := by
    simp [Factory.closeFree, hv, hb, hcl]
    rfl
  unfold Factory.retire
  rw [hone]
  rfl

/-- A call that waits to retire a handle goes on once nobody leases the handle. -/
theorem resume_waiting (s : Factory) (c : CallId) (h : HandleId) (next : AfterRetiring) :
    s.resume c (.retiring [{ handle := h }] next) =
      if (s.handles.get? h).map Handle.borrows = some 0 then some (s.retire c [{ handle := h }] next)
      else none := by
  simp only [Factory.resume, List.any_cons, List.any_nil, Bool.or_false, decide_true, Bool.true_and,
    decide_eq_true_eq]

/-- The close that a call waited for is answered. -/
theorem core_closed {n : Ticket} {r : Except ClientError Unit} (hn : After t next o) :
    ∃ s, x.factory.answer c n (.retiring [⟨h, .closing n⟩] next) (.closed r) = some s ∧
      (x.become s).core = x.core.goTo c (.ended o) := by
  refine ⟨_, by simp [Factory.answer, Factory.closeOver]; rfl, ?_⟩
  cases hn <;> cases r <;> rfl

end

end Traffic

end TopicPublisher
