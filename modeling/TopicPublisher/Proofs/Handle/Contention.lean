import TopicPublisher.Factory.State
import TopicPublisher.Proofs.Registry

/-!
# Leases and retirements that run at once

A handle in the hands of several threads. What a thread does to the handle are single actions, and any
thread's action may come between two of another's: an attempt to lease counts itself first and looks
at the flag second, a retirement puts the flag up first and looks at the count second.

Results:
1. `tryLease_eq_granted`, `tryLease_eq_refused`: an attempt that nobody interrupts is
   `Handle.tryLease`.
2. `Sound.step`: the count is the number of those who are counted, and once a retirement has seen a
   count of zero there is no lease any more.
3. `close_after_last_lease`: the producer is closed at most once, by the one retirement that says so,
   and from the moment a retirement decides to close it nobody holds a lease on it.
-/

namespace TopicPublisher

/-! ## Definitions -/

/-- How far an attempt to lease a handle is, or the lease that came of it.

* `granted`: it is a lease in somebody's hands.
* `refused`: it saw the flag up. It is still counted.
* `last`: it took the count to zero, and is about to wake those who wait for that. -/
inductive Borrowing where
  | counted
  | granted
  | refused
  | last
  | over
  deriving DecidableEq, Repr

/-- Whether a borrowing is in the count. -/
def Borrowing.isCounted : Borrowing → Bool
  | .counted | .granted | .refused => true
  | _ => false

/-- How far a call is that retires a handle.

* `flagged`: it has put the flag up.
* `listening`: it will hear of every notice after the first `n`.
* `parked`: it saw leases, and waits for a notice after the first `n`.
* `free`: it saw a count of zero.
* `claimed`: it was the first to take the close on itself.
* `closing`: it has called the producer's close.
* `quit`: it was dropped while it was parked.
* `abandoned`: it was dropped while the producer was closing. -/
inductive Retiring where
  | flagged
  | listening (n : Nat)
  | parked (n : Nat)
  | free
  | claimed
  | closing
  | ended (r : Closing)
  | quit
  | abandoned
  deriving DecidableEq, Repr

namespace Retiring

/-- Whether a retirement is past the point where it decides to close the producer. -/
def isDecided : Retiring → Bool
  | .free | .claimed | .closing | .ended _ | .abandoned => true
  | _ => false

/-- Whether a retirement has taken the close on itself. -/
def hasClaimed : Retiring → Bool
  | .claimed | .closing | .abandoned => true
  | .ended r => r ≠ .elsewhere
  | _ => false

/-- Whether a retirement has called the producer's close. -/
def hasClosed : Retiring → Bool
  | .closing | .abandoned => true
  | .ended r => r ≠ .elsewhere
  | _ => false

end Retiring

/-- A handle, and all who are at it. -/
structure Contention where
  handle : Handle
  borrowings : Registry Borrowing := .empty
  retirings : Registry Retiring := .empty
  /-- How often those who wait were woken. -/
  notices : Nat := 0

namespace Contention

/-- A handle that nobody has touched. -/
def new (topic : String) (mode : DispatchMode) : Contention := { handle := { topic, mode } }

def setBorrowing (s : Contention) (i : Nat) (b : Borrowing) : Contention :=
  { s with borrowings := s.borrowings.update i fun _ => b }

def setRetiring (s : Contention) (j : Nat) (r : Retiring) : Contention :=
  { s with retirings := s.retirings.update j fun _ => r }

/-- The single actions. Borrowings and retirements go by their numbers.

* `count`: a new attempt to lease counts itself.
* `check`: it looks at the flag.
* `uncount`: a refused attempt, or a lease that is dropped, leaves the count.
* `stop`: the flag goes up without anybody going to close the producer.
* `retire`: a new retirement puts the flag up.
* `load`: it looks at the count.
* `claim`: it takes the close on itself, unless another has.
* `answer`: the producer's close ends.
* `leave`: it is dropped where it waits. -/
inductive Label where
  | count
  | check (i : Nat)
  | uncount (i : Nat)
  | notify (i : Nat)
  | stop
  | retire
  | listen (j : Nat)
  | load (j : Nat)
  | wake (j : Nat)
  | claim (j : Nat)
  | close (j : Nat)
  | answer (j : Nat) (r : Except ClientError Unit)
  | leave (j : Nat)

def Label.isClose : Label → Bool
  | .close _ => true
  | _ => false

/-- What one action does. -/
inductive Step (s : Contention) : Label → Contention → Prop
  | count : Step s .count
      { s with handle := s.handle.beginBorrow, borrowings := s.borrowings.add .counted }
  | grant {i : Nat} : s.borrowings.get? i = some .counted → s.handle.retiring = false →
      Step s (.check i) (s.setBorrowing i .granted)
  | refuse {i : Nat} : s.borrowings.get? i = some .counted → s.handle.retiring = true →
      Step s (.check i) (s.setBorrowing i .refused)
  | uncount {i : Nat} {b : Borrowing} : s.borrowings.get? i = some b →
      b = .granted ∨ b = .refused →
      Step s (.uncount i) ({ s with handle := s.handle.endBorrow.1 }.setBorrowing i
        (if s.handle.borrows = 1 then .last else .over))
  | notify {i : Nat} : s.borrowings.get? i = some .last →
      Step s (.notify i) ({ s with notices := s.notices + 1 }.setBorrowing i .over)
  | stop : Step s .stop { s with handle := s.handle.stopLeasing }
  | retire : Step s .retire
      { s with handle := s.handle.stopLeasing, retirings := s.retirings.add .flagged }
  | listen {j : Nat} : s.retirings.get? j = some .flagged →
      Step s (.listen j) (s.setRetiring j (.listening s.notices))
  | free {j n : Nat} : s.retirings.get? j = some (.listening n) → s.handle.borrows = 0 →
      Step s (.load j) (s.setRetiring j .free)
  | park {j n : Nat} : s.retirings.get? j = some (.listening n) → s.handle.borrows ≠ 0 →
      Step s (.load j) (s.setRetiring j (.parked n))
  | wake {j n : Nat} : s.retirings.get? j = some (.parked n) → n < s.notices →
      Step s (.wake j) (s.setRetiring j .flagged)
  | claim {j : Nat} : s.retirings.get? j = some .free → s.handle.claimClose.1 = true →
      Step s (.claim j) ({ s with handle := s.handle.claimClose.2 }.setRetiring j .claimed)
  | late {j : Nat} : s.retirings.get? j = some .free → s.handle.claimClose.1 = false →
      Step s (.claim j)
        ({ s with handle := s.handle.claimClose.2 }.setRetiring j (.ended .elsewhere))
  | close {j : Nat} : s.retirings.get? j = some .claimed →
      Step s (.close j)
        ({ s with handle := { s.handle with closes := s.handle.closes + 1 } }.setRetiring j .closing)
  | answer {j : Nat} {r : Except ClientError Unit} : s.retirings.get? j = some .closing →
      Step s (.answer j r) (s.setRetiring j (.ended (closingOf r)))
  | quit {j n : Nat} : s.retirings.get? j = some (.parked n) →
      Step s (.leave j) (s.setRetiring j .quit)
  | abandon {j : Nat} : s.retirings.get? j = some .closing →
      Step s (.leave j) (s.setRetiring j .abandoned)

/-- `Steps s ls s'`: the actions `ls`, one after the other, lead from `s` to `s'`. -/
inductive Steps (s : Contention) : List Label → Contention → Prop
  | none : Steps s [] s
  | step {ls : List Label} {s' s'' : Contention} {l : Label} :
      Steps s ls s' → Step s' l s'' → Steps s (ls ++ [l]) s''

/-- Some retirement has decided to close the producer. -/
def Decided (s : Contention) : Prop := ∃ j r, s.retirings.get? j = some r ∧ r.isDecided = true

/-- Somebody holds a lease. -/
def Leased (s : Contention) : Prop := ∃ i, s.borrowings.get? i = some .granted

/-! ## 1. An attempt that nobody interrupts -/

theorem tryLease_eq_granted {h : Handle} (hr : h.retiring = false) :
    h.tryLease = (true, h.beginBorrow, []) := by
  simp [Handle.tryLease, Handle.beginBorrow, hr]

theorem tryLease_eq_refused {h : Handle} (hr : h.retiring = true) :
    h.tryLease = (false, h.beginBorrow.endBorrow) := by
  simp [Handle.tryLease, Handle.beginBorrow, hr]

/-! ## 2. The account of borrowings and retirements -/

/-- What holds of a handle whatever the threads do. -/
structure Sound (s : Contention) : Prop where
  /-- The count is the number of those who are counted. -/
  borrows : s.handle.borrows = s.borrowings.count Borrowing.isCounted
  retiring : ∀ j r, s.retirings.get? j = some r → s.handle.retiring = true
  unleased : s.Decided → ¬ s.Leased
  claimed : s.retirings.count Retiring.hasClaimed = if s.handle.closed then 1 else 0
  closes : s.handle.closes = s.retirings.count Retiring.hasClosed

namespace ContentionLemmas

theorem leased_setBorrowing {s : Contention} {i : Nat} {b : Borrowing} (hb : b ≠ .granted)
    (h : (s.setBorrowing i b).Leased) : s.Leased := by
  obtain ⟨i', hi⟩ := h
  rcases Registry.get?_update_const hi with ⟨-, rfl⟩ | ⟨-, hi⟩
  · exact absurd rfl hb
  · exact ⟨i', hi⟩

/-- The change of the borrowings' account when one of them changes. -/
theorem count_setBorrowing {s : Contention} {i : Nat} {b : Borrowing}
    (h : s.borrowings.get? i = some b) (b' : Borrowing) :
    (s.setBorrowing i b').borrowings.count Borrowing.isCounted + (if b.isCounted then 1 else 0) =
      s.borrowings.count Borrowing.isCounted + if b'.isCounted then 1 else 0 :=
  Registry.count_update h _ _

theorem count_setRetiring {s : Contention} {j : Nat} {r : Retiring} (p : Retiring → Bool)
    (h : s.retirings.get? j = some r) (r' : Retiring) :
    (s.setRetiring j r').retirings.count p + (if p r then 1 else 0) =
      s.retirings.count p + if p r' then 1 else 0 :=
  Registry.count_update h _ _

theorem hasClosed_le_hasClaimed (r : Registry Retiring) :
    r.count Retiring.hasClosed ≤ r.count Retiring.hasClaimed := by
  apply List.countP_mono_left
  intro x _ h
  cases x <;> simp_all [Retiring.hasClosed, Retiring.hasClaimed]

theorem endBorrow_borrows (h : Handle) : h.endBorrow.1.borrows = h.borrows - 1 := by
  unfold Handle.endBorrow
  split <;> simp_all

theorem endBorrow_frame (h : Handle) : h.endBorrow.1.retiring = h.retiring ∧
    h.endBorrow.1.closed = h.closed ∧ h.endBorrow.1.closes = h.closes := by
  unfold Handle.endBorrow
  split <;> exact ⟨rfl, rfl, rfl⟩

end ContentionLemmas

open ContentionLemmas

theorem sound_new (topic : String) (mode : DispatchMode) : Sound (new topic mode) where
  borrows := rfl
  retiring := by simp [new]
  unleased := by rintro ⟨j, r, hj, -⟩; simp [new] at hj
  claimed := rfl
  closes := rfl

/-- A change at one borrowing that takes nobody's lease up keeps the account, where the count
changes with it. -/
theorem Sound.setBorrowing {s : Contention} (h : Sound s) {i : Nat} {b b' : Borrowing} {x : Handle}
    (hi : s.borrowings.get? i = some b) (hg : b' = .granted → s.handle.retiring = false)
    (hx : x.borrows + (if b.isCounted then 1 else 0) =
      s.handle.borrows + if b'.isCounted then 1 else 0)
    (hf : x.retiring = s.handle.retiring ∧ x.closed = s.handle.closed ∧ x.closes = s.handle.closes) :
    Sound ({ s with handle := x }.setBorrowing i b') where
  borrows := by
    have hc := count_setBorrowing hi b'
    have hb := h.borrows
    show x.borrows = (s.setBorrowing i b').borrowings.count Borrowing.isCounted
    omega
  retiring j r hj := hf.1.trans (h.retiring j r hj)
  unleased := by
    rintro ⟨j, r, hj, hd⟩ hl
    by_cases hb : b' = .granted
    · have := h.retiring j r hj
      rw [hg hb] at this
      cases this
    · exact h.unleased ⟨j, r, hj, hd⟩ (leased_setBorrowing (s := { s with handle := x }) hb hl)
  claimed := by
    show s.retirings.count Retiring.hasClaimed = if x.closed then 1 else 0
    rw [hf.2.1]
    exact h.claimed
  closes := hf.2.2.trans h.closes

/-- A retirement that moves on keeps the account, where the handle's marks change with it. -/
theorem Sound.setRetiring {s : Contention} (h : Sound s) {j : Nat} {r r' : Retiring} {x : Handle}
    (hj : s.retirings.get? j = some r) (hd : r'.isDecided = true → r.isDecided = true ∨ ¬ s.Leased)
    (hx : x.borrows = s.handle.borrows ∧ x.retiring = s.handle.retiring)
    (hc : (if s.handle.closed then 1 else 0) + (if r'.hasClaimed then 1 else 0) =
      (if x.closed then 1 else 0) + if r.hasClaimed then 1 else 0)
    (ho : s.handle.closes + (if r'.hasClosed then 1 else 0) =
      x.closes + if r.hasClosed then 1 else 0) :
    Sound ({ s with handle := x }.setRetiring j r') where
  borrows := hx.1.trans h.borrows
  retiring i r₁ hi := by
    have hr : s.handle.retiring = true := h.retiring j r hj
    exact hx.2.trans hr
  unleased := by
    rintro ⟨i, r₁, hi, hd₁⟩ hl
    have hl' : s.Leased := hl
    rcases Registry.get?_update_const hi with ⟨-, rfl⟩ | ⟨-, hi⟩
    · rcases hd hd₁ with hd | hd
      · exact h.unleased ⟨j, r, hj, hd⟩ hl'
      · exact hd hl'
    · exact h.unleased ⟨i, r₁, hi, hd₁⟩ hl'
  claimed := by
    have := count_setRetiring Retiring.hasClaimed hj r'
    have := h.claimed
    show (s.setRetiring j r').retirings.count Retiring.hasClaimed = if x.closed then 1 else 0
    omega
  closes := by
    have := count_setRetiring Retiring.hasClosed hj r'
    have := h.closes
    show x.closes = (s.setRetiring j r').retirings.count Retiring.hasClosed
    omega

theorem Sound.step {s s' : Contention} {l : Label} (h : Sound s) (hs : Step s l s') : Sound s' := by
  cases hs with
  | count =>
    refine ⟨?_, h.retiring, ?_, h.claimed, h.closes⟩
    · have := h.borrows
      simp only [Handle.beginBorrow, Registry.count_add, Borrowing.isCounted, if_true]
      omega
    · rintro hd ⟨i, hi⟩
      rw [Registry.get?_add] at hi
      split at hi
      · cases hi
      · exact h.unleased hd ⟨i, hi⟩
  | grant hi hr =>
    exact h.setBorrowing (x := s.handle) hi (fun _ => hr) rfl ⟨rfl, rfl, rfl⟩
  | refuse hi _ =>
    exact h.setBorrowing (x := s.handle) hi nofun rfl ⟨rfl, rfl, rfl⟩
  | @uncount i b hi hb =>
    have hc : b.isCounted = true := by rcases hb with rfl | rfl <;> rfl
    -- Who leaves the count is in it, so that taking one off does not stop short at zero.
    have hpos : 0 < s.handle.borrows := h.borrows ▸ Registry.count_pos_of_get? hi hc
    refine h.setBorrowing hi ?_ ?_ (endBorrow_frame s.handle)
    · split <;> nofun
    · have hover : Borrowing.isCounted (if s.handle.borrows = 1 then .last else .over) = false := by
        split <;> rfl
      rw [endBorrow_borrows, hc, hover]
      simp only [if_true, Bool.false_eq_true, if_false]
      omega
  | @notify i hi =>
    have : Sound (s.setBorrowing i .over) :=
      h.setBorrowing (x := s.handle) hi nofun rfl ⟨rfl, rfl, rfl⟩
    exact ⟨this.borrows, this.retiring, this.unleased, this.claimed, this.closes⟩
  | stop => exact ⟨h.borrows, fun _ _ _ => rfl, h.unleased, h.claimed, h.closes⟩
  | retire =>
    refine ⟨h.borrows, fun _ _ _ => rfl, ?_, ?_, ?_⟩
    · rintro ⟨j, r, hj, hd⟩
      rw [Registry.get?_add] at hj
      split at hj
      · cases hj
        cases hd
      · exact h.unleased ⟨j, r, hj, hd⟩
    · rw [Registry.count_add]
      exact h.claimed
    · rw [Registry.count_add]
      exact h.closes
  | listen hj | park hj _ | wake hj _ | quit hj =>
    exact h.setRetiring (x := s.handle) hj nofun ⟨rfl, rfl⟩ rfl rfl
  | free hj h0 =>
    -- Those who hold a lease are in the count, and the count is zero.
    refine h.setRetiring (x := s.handle) hj (fun _ => .inr ?_) ⟨rfl, rfl⟩ rfl rfl
    rintro ⟨i, hi⟩
    have hpos := Registry.count_pos_of_get? (p := Borrowing.isCounted) hi rfl
    have := h.borrows
    omega
  | claim hj hc =>
    have hc : s.handle.closed = false := by simpa [Handle.claimClose] using hc
    exact h.setRetiring hj (fun _ => .inl rfl) ⟨rfl, rfl⟩
      (by simp [Handle.claimClose, Retiring.hasClaimed, hc]) rfl
  | late hj hc =>
    have hc : s.handle.closed = true := by simpa [Handle.claimClose] using hc
    exact h.setRetiring hj (fun _ => .inl rfl) ⟨rfl, rfl⟩
      (by simp [Handle.claimClose, Retiring.hasClaimed, hc]) rfl
  | close hj =>
    exact h.setRetiring hj (fun _ => .inl rfl) ⟨rfl, rfl⟩ rfl rfl
  | answer hj =>
    rename_i r
    exact h.setRetiring (x := s.handle) hj (fun _ => .inl rfl) ⟨rfl, rfl⟩
      (by cases r <;> rfl) (by cases r <;> rfl)
  | abandon hj =>
    exact h.setRetiring (x := s.handle) hj (fun _ => .inl rfl) ⟨rfl, rfl⟩ rfl rfl

theorem Sound.steps {s s' : Contention} {ls : List Label} (h : Sound s) (hs : Steps s ls s') :
    Sound s' := by
  induction hs with
  | none => exact h
  | step _ hl ih => exact ih.step hl

/-! ## 3. Closing after the last lease -/

namespace ContentionLemmas

theorem decided_of_setRetiring {s : Contention} {j : Nat} {r r' : Retiring}
    (hj : s.retirings.get? j = some r) (hr : r.isDecided = true → r'.isDecided = true)
    (h : s.Decided) : (s.setRetiring j r').Decided := by
  obtain ⟨i, q, hi, hd⟩ := h
  by_cases hij : j = i
  · subst hij
    have hq : r = q := Option.some.inj (hj.symm.trans hi)
    refine ⟨j, r', ?_, hr (hq ▸ hd)⟩
    rw [setRetiring, Registry.get?_update, if_pos rfl, hi]
    rfl
  · refine ⟨i, q, ?_, hd⟩
    rw [setRetiring, Registry.get?_update, if_neg hij]
    exact hi

/-- A decision to close the producer stands. -/
theorem decided_step {s s' : Contention} {l : Label} (hs : Step s l s') (h : s.Decided) :
    s'.Decided := by
  cases hs with
  | count | stop | grant _ _ | refuse _ _ | uncount _ _ | notify _ => exact h
  | retire =>
    obtain ⟨j, r, hj, hd⟩ := h
    refine ⟨j, r, ?_, hd⟩
    have hlt := Registry.lt_size_of_get? hj
    rw [Registry.get?_add, if_neg (by omega)]
    exact hj
  | listen hj | park hj _ | wake hj _ | quit hj => exact decided_of_setRetiring hj nofun h
  | free hj _ => exact decided_of_setRetiring hj (fun _ => rfl) h
  | claim hj _ | late hj _ | close hj | answer hj | abandon hj =>
    exact decided_of_setRetiring hj (fun _ => rfl) h

theorem decided_steps {s s' : Contention} {ls : List Label} (hs : Steps s ls s') (h : s.Decided) :
    s'.Decided := by
  induction hs with
  | none => exact h
  | step _ hl ih => exact decided_step hl ih

/-- What the actions so far say of who called the producer's close. -/
structure Traced (ls : List Label) (s : Contention) : Prop where
  closes : s.handle.closes = ls.countP Label.isClose
  closer : ∀ j, (∃ r, s.retirings.get? j = some r ∧ r.hasClosed = true) ↔ .close j ∈ ls

/-- An action that neither calls the close nor moves a retirement past it is not seen. -/
theorem Traced.other {ls : List Label} {s s' : Contention} {l : Label} (h : Traced ls s)
    (hl : l.isClose = false) (hc : s'.handle.closes = s.handle.closes)
    (hr : ∀ j, (∃ r, s'.retirings.get? j = some r ∧ r.hasClosed = true) ↔
      ∃ r, s.retirings.get? j = some r ∧ r.hasClosed = true) : Traced (ls ++ [l]) s' where
  closes := by simp [h.closes, hc, List.countP_append, hl]
  closer j := by
    rw [hr, h.closer]
    have hne : Label.close j ≠ l := by
      rintro rfl
      cases hl
    simp [hne]

theorem hasClosed_setRetiring {s : Contention} {j : Nat} {r r' : Retiring}
    (hj : s.retirings.get? j = some r) (hr : r'.hasClosed = r.hasClosed) (i : Nat) :
    (∃ q, (s.setRetiring j r').retirings.get? i = some q ∧ q.hasClosed = true) ↔
      ∃ q, s.retirings.get? i = some q ∧ q.hasClosed = true := by
  simp only [setRetiring, Registry.get?_update]
  by_cases hij : j = i
  · subst hij
    simp [hj, hr]
  · simp [hij]

theorem Traced.setRetiring {ls : List Label} {s : Contention} {l : Label} (h : Traced ls s)
    {j : Nat} {r r' : Retiring} {x : Handle} (hj : s.retirings.get? j = some r)
    (hl : l.isClose = false) (hc : x.closes = s.handle.closes) (hr : r'.hasClosed = r.hasClosed) :
    Traced (ls ++ [l]) ({ s with handle := x }.setRetiring j r') :=
  h.other hl hc (hasClosed_setRetiring (s := { s with handle := x }) hj hr)

theorem Traced.step {ls : List Label} {s s' : Contention} {l : Label} (h : Traced ls s)
    (hs : Step s l s') : Traced (ls ++ [l]) s' := by
  cases hs with
  | count | stop | grant _ _ | refuse _ _ | notify _ => exact h.other rfl rfl fun _ => Iff.rfl
  | uncount => exact h.other rfl (endBorrow_frame s.handle).2.2 fun _ => Iff.rfl
  | retire =>
    refine h.other rfl rfl fun j => ?_
    rw [Registry.get?_add]
    split
    · next hj =>
      have hnone := (Registry.get?_eq_none_iff s.retirings j).2 (by omega)
      simp [hnone, Retiring.hasClosed]
    · exact Iff.rfl
  | listen hj | free hj _ | park hj _ | wake hj _ | quit hj | abandon hj =>
    exact h.setRetiring (x := s.handle) hj rfl rfl rfl
  | claim hj _ | late hj _ => exact h.setRetiring hj rfl rfl rfl
  | @answer j r hj => exact h.setRetiring (x := s.handle) hj rfl rfl (by cases r <;> rfl)
  | @close j hj =>
    refine ⟨by simp [Contention.setRetiring, h.closes, Label.isClose], fun i => ?_⟩
    have := h.closer i
    simp only [Contention.setRetiring, Registry.get?_update]
    by_cases hij : j = i
    · subst hij
      simp [hj, Retiring.hasClosed]
    · simp [hij, this, Ne.symm hij]

theorem traced_steps {topic : String} {mode : DispatchMode} {ls : List Label} {s : Contention}
    (h : Steps (new topic mode) ls s) : Traced ls s := by
  induction h with
  | none => exact ⟨rfl, by simp [new]⟩
  | step _ hl ih => exact ih.step hl

end ContentionLemmas

/-- However leases and retirements come between each other: the producer's close is called at most
once; at most one retirement reports that it closed the producer, and it is the one that called the
close; and once a retirement has decided to close the producer, there is no lease and never will be
one, so that whoever holds a lease holds it on a producer that is open. -/
theorem close_after_last_lease {topic : String} {mode : DispatchMode} {ls : List Label}
    {s : Contention} (h : Steps (new topic mode) ls s) :
    ls.countP Label.isClose ≤ 1 ∧
    (∀ i r j q, s.retirings.get? i = some (.ended r) → r ≠ .elsewhere →
      s.retirings.get? j = some (.ended q) → q ≠ .elsewhere → i = j) ∧
    (∀ j r, s.retirings.get? j = some (.ended r) → r ≠ .elsewhere → .close j ∈ ls) ∧
    (∀ ls' s', Steps s ls' s' → s.Decided → ¬ s'.Leased) ∧
    (s.Leased → ∀ j, .close j ∉ ls) := by
  have hsound : Sound s := (sound_new topic mode).steps h
  have htraced := traced_steps h
  -- A retirement calls the close after it has claimed it, and it is claimed once.
  have hone : s.retirings.count Retiring.hasClosed ≤ 1 := by
    have := hasClosed_le_hasClaimed s.retirings
    have := hsound.claimed
    split at this <;> omega
  have hended : ∀ r : Closing, r ≠ .elsewhere → (Retiring.ended r).hasClosed = true :=
    fun r hr => by simp [Retiring.hasClosed, hr]
  refine ⟨?_, ?_, ?_, ?_, ?_⟩
  · rw [← htraced.closes, hsound.closes]
    exact hone
  · intro i r j q hi hr hj hq
    exact Registry.eq_of_count_le_one hone hi (hended r hr) hj (hended q hq)
  · intro j r hj hr
    exact (htraced.closer j).1 ⟨_, hj, hended r hr⟩
  · intro ls' s' hs hd
    exact (hsound.steps hs).unleased (decided_steps hs hd)
  · -- Who called the close had decided to, and from then on there is no lease.
    intro hl j hj
    obtain ⟨r, hr, hc⟩ := (htraced.closer j).2 hj
    refine hsound.unleased ⟨j, r, hr, ?_⟩ hl
    cases r <;> simp_all [Retiring.hasClosed, Retiring.isDecided]

/-- A lease is out when the handle is retired. Another attempt raises the count while the retirement
looks at it, and is refused; the producer is closed when both have left the count. -/
theorem close_after_last_lease_contested :
    ∃ s, Steps (new "orders" .sequential)
        [.count, .check 0, .retire, .count, .listen 0, .load 0, .check 1, .uncount 0, .uncount 1,
          .notify 1, .wake 0, .listen 0, .load 0, .claim 0, .close 0, .answer 0 (.ok ())] s ∧
      s.Decided ∧ s.retirings.get? 0 = some (.ended .done) ∧ s.handle.closes = 1 ∧ ¬ s.Leased := by
  have h := (Steps.none : Steps (new "orders" .sequential) [] _)
      |>.step .count |>.step (.grant (i := 0) rfl rfl) |>.step .retire |>.step .count
      |>.step (.listen (j := 0) rfl) |>.step (.park (j := 0) rfl (by decide))
      |>.step (.refuse (i := 1) rfl rfl) |>.step (.uncount (i := 0) rfl (.inl rfl))
      |>.step (.uncount (i := 1) rfl (.inr rfl)) |>.step (.notify (i := 1) rfl)
      |>.step (.wake (j := 0) rfl (by decide)) |>.step (.listen (j := 0) rfl)
      |>.step (.free (j := 0) rfl rfl) |>.step (.claim (j := 0) rfl rfl) |>.step (.close (j := 0) rfl)
      |>.step (.answer (j := 0) (r := .ok ()) rfl)
  refine ⟨_, h, ⟨0, .ended .done, rfl, rfl⟩, rfl, rfl, ?_⟩
  exact (close_after_last_lease h).2.2.2.1 [] _ .none ⟨0, .ended .done, rfl, rfl⟩

end Contention

end TopicPublisher
