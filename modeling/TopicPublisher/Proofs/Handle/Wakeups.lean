import TopicPublisher.Proofs.Handle.Contention

/-!
# No release is missed

A retirement looks at the count first and waits for a notice second, and the count may fall to zero in
between. So it begins to listen before it looks: it hears every notice after the one that was the last
when it began. A notice is given whenever the count falls to zero, also when it was a refused attempt
that raised it for a moment.

Results:
1. `borrows_eq`: the count is the leases and the attempts that are counted; `borrows_of_uncount`: nobody
   leaves it when it is zero.
2. `Heard.step`: a retirement that waits has its notice, or somebody is counted, or somebody is about to
   give one.
3. `Steps.run_out`: once nobody is at the count, each retirement goes on to its end by itself.
4. `release_never_missed`: all of it, in every state that can be reached.
-/

namespace TopicPublisher

/-! ## Definitions -/

/-- Whether a borrowing is a lease. -/
def Borrowing.isLease : Borrowing → Bool
  | .granted => true
  | _ => false

/-- Whether a borrowing is an attempt that has counted itself and not yet become a lease or left the
count. -/
def Borrowing.isAttempt : Borrowing → Bool
  | .counted | .refused => true
  | _ => false

namespace Retiring

/-- Whether a retirement has neither ended nor been dropped. -/
def isUnderway : Retiring → Bool
  | .ended _ | .quit | .abandoned => false
  | _ => true

/-- How many actions a retirement is away from its end, while nobody is counted. -/
def ahead : Retiring → Nat
  | .parked _ => 6
  | .flagged => 5
  | .listening _ => 4
  | .free => 3
  | .claimed => 2
  | .closing => 1
  | .ended _ | .quit | .abandoned => 0

end Retiring

namespace Contention

/-- Whether an action is one by which retirement `j` goes on. -/
def Label.drives (j : Nat) : Label → Bool
  | .listen i | .load i | .wake i | .claim i | .close i | .answer i _ => i == j
  | _ => false

/-- All leases are dropped, and whoever began to lease or to drop a lease is through with it. -/
def Unborrowed (s : Contention) : Prop := ∀ i b, s.borrowings.get? i = some b → b = .over

/-- Somebody has just taken the count to zero and is about to give notice. -/
def Notifying (s : Contention) : Prop := ∃ i, s.borrowings.get? i = some .last

/-! ## 1. The count -/

/-- The count is the number of leases and of the attempts that are counted. -/
theorem borrows_eq {s : Contention} (h : Sound s) :
    s.handle.borrows =
      s.borrowings.count Borrowing.isLease + s.borrowings.count Borrowing.isAttempt :=
  h.borrows.trans (Registry.count_eq_add _ fun b => by cases b <;> rfl)

/-- Whoever leaves the count is in it. -/
theorem borrows_of_uncount {s s' : Contention} {i : Nat} (h : Sound s) (hs : Step s (.uncount i) s') :
    0 < s.handle.borrows ∧ s'.handle.borrows + 1 = s.handle.borrows := by
  cases hs with
  | @uncount _ b hi hb =>
    have hc : b.isCounted = true := by rcases hb with rfl | rfl <;> rfl
    have hpos : 0 < s.handle.borrows := h.borrows ▸ Registry.count_pos_of_get? hi hc
    refine ⟨hpos, ?_⟩
    show s.handle.endBorrow.1.borrows + 1 = s.handle.borrows
    rw [ContentionLemmas.endBorrow_borrows]
    exact Nat.sub_add_cancel hpos

theorem Unborrowed.borrows {s : Contention} (hq : s.Unborrowed) (h : Sound s) :
    s.handle.borrows = 0 := by
  refine Nat.eq_zero_of_not_pos fun hpos => ?_
  obtain ⟨i, b, hi, hb⟩ := Registry.exists_get?_of_count_pos (h.borrows ▸ hpos)
  cases hq i b hi
  cases hb

/-! ## 2. Those who wait -/

/-- What a retirement that listens has heard of, and what one that waits can count on. -/
structure Heard (s : Contention) : Prop where
  listening : ∀ j n, s.retirings.get? j = some (.listening n) → n ≤ s.notices
  parked : ∀ j n, s.retirings.get? j = some (.parked n) → n ≤ s.notices
  wakes : ∀ j n, s.retirings.get? j = some (.parked n) →
    n < s.notices ∨ 0 < s.handle.borrows ∨ s.Notifying

namespace WakeupsLemmas

theorem get?_setRetiring {s : Contention} {j : Nat} {r : Retiring}
    (hj : s.retirings.get? j = some r) (r' : Retiring) :
    (s.setRetiring j r').retirings.get? j = some r' := by
  rw [setRetiring, Registry.get?_update, if_pos rfl, hj]
  rfl

theorem notifying_setBorrowing {s : Contention} {i : Nat} {b b' : Borrowing}
    (hi : s.borrowings.get? i = some b) (hb : b ≠ .last) (h : s.Notifying) :
    (s.setBorrowing i b').Notifying := by
  obtain ⟨i', hi'⟩ := h
  refine ⟨i', ?_⟩
  rw [setBorrowing, Registry.get?_update, if_neg, hi']
  rintro rfl
  exact hb (Option.some.inj (hi.symm.trans hi'))

end WakeupsLemmas

open WakeupsLemmas

theorem heard_new (topic : String) (mode : DispatchMode) : Heard (new topic mode) where
  listening := by simp [new]
  parked := by simp [new]
  wakes := by simp [new]

/-- Where the retirements stay as they are, what matters is that those who wait can count on as much as
before. -/
theorem Heard.same {s s' : Contention} (h : Heard s) (hr : s'.retirings = s.retirings)
    (hn : s'.notices = s.notices)
    (hw : 0 < s.handle.borrows ∨ s.Notifying → 0 < s'.handle.borrows ∨ s'.Notifying) : Heard s' where
  listening j n hj := by
    rw [hr] at hj
    exact hn ▸ h.listening j n hj
  parked j n hj := by
    rw [hr] at hj
    exact hn ▸ h.parked j n hj
  wakes j n hj := by
    rw [hr] at hj
    exact hn ▸ (h.wakes j n hj).imp_right hw

/-- A retirement goes on; the count, the notices and the borrowings stay as they are. -/
theorem Heard.setRetiring {s : Contention} (h : Heard s) {j : Nat} {r : Retiring} {x : Handle}
    (hx : x.borrows = s.handle.borrows)
    (hl : ∀ n, r = .listening n → n ≤ s.notices)
    (hp : ∀ n, r = .parked n → n ≤ s.notices ∧ 0 < s.handle.borrows) :
    Heard ({ s with handle := x }.setRetiring j r) where
  listening i n hi := by
    rcases Registry.get?_update_const hi with ⟨-, hr⟩ | ⟨-, hi⟩
    · exact hl n hr.symm
    · exact h.listening i n hi
  parked i n hi := by
    rcases Registry.get?_update_const hi with ⟨-, hr⟩ | ⟨-, hi⟩
    · exact (hp n hr.symm).1
    · exact h.parked i n hi
  wakes i n hi := by
    show n < s.notices ∨ 0 < x.borrows ∨ s.Notifying
    rw [hx]
    rcases Registry.get?_update_const hi with ⟨-, hr⟩ | ⟨-, hi⟩
    · exact .inr (.inl (hp n hr.symm).2)
    · exact h.wakes i n hi

theorem Heard.step {s s' : Contention} {l : Label} (h : Heard s) (hs : Step s l s') : Heard s' := by
  cases hs with
  | count => exact h.same rfl rfl fun _ => .inl (Nat.succ_pos _)
  | grant hi _ | refuse hi _ => exact h.same rfl rfl (.imp_right (notifying_setBorrowing hi nofun))
  | @uncount i b hi hb =>
    refine h.same rfl rfl fun hw => ?_
    by_cases hone : s.handle.borrows = 1
    · -- The count falls to zero, and this one is to give notice of it.
      rw [if_pos hone]
      refine .inr ⟨i, ?_⟩
      show (s.borrowings.update i _).get? i = _
      rw [Registry.get?_update, if_pos rfl, hi]
      rfl
    · rw [if_neg hone]
      rcases hw with hpos | hnot
      · left
        show 0 < s.handle.endBorrow.1.borrows
        rw [ContentionLemmas.endBorrow_borrows]
        omega
      · right
        refine notifying_setBorrowing (s := { s with handle := s.handle.endBorrow.1 }) hi ?_ hnot
        rcases hb with rfl | rfl <;> nofun
  | notify hi =>
    -- All who listen began to before this notice.
    refine ⟨fun j n hj => ?_, fun j n hj => ?_, fun j n hj => .inl ?_⟩
    · exact Nat.le_succ_of_le (h.listening j n hj)
    · exact Nat.le_succ_of_le (h.parked j n hj)
    · exact Nat.lt_succ_of_le (h.parked j n hj)
  | stop => exact h.same rfl rfl id
  | retire =>
    have hold : ∀ {j : Nat} {r : Retiring}, r ≠ .flagged →
        (s.retirings.add .flagged).get? j = some r → s.retirings.get? j = some r := by
      intro j r hr hj
      rw [Registry.get?_add] at hj
      split at hj
      · exact absurd (Option.some.inj hj).symm hr
      · exact hj
    exact ⟨fun j n hj => h.listening j n (hold nofun hj), fun j n hj => h.parked j n (hold nofun hj),
      fun j n hj => h.wakes j n (hold nofun hj)⟩
  | listen _ =>
    refine h.setRetiring (x := s.handle) rfl (fun n hn => ?_) nofun
    cases hn
    exact Nat.le_refl _
  | park hj hne =>
    refine h.setRetiring (x := s.handle) rfl nofun fun n hn => ?_
    cases hn
    exact ⟨h.listening _ _ hj, Nat.pos_of_ne_zero hne⟩
  | free _ _ | wake _ _ | answer _ | quit _ | abandon _ =>
    exact h.setRetiring (x := s.handle) rfl nofun nofun
  | claim _ _ | late _ _ | close _ => exact h.setRetiring rfl nofun nofun

theorem Heard.steps {s s' : Contention} {ls : List Label} (h : Heard s) (hs : Steps s ls s') :
    Heard s' := by
  induction hs with
  | none => exact h
  | step _ hl ih => exact ih.step hl

/-! ## 3. Running out -/

theorem Steps.cons {s s' s'' : Contention} {l : Label} {ls : List Label} (hs : Step s l s')
    (h : Steps s' ls s'') : Steps s (l :: ls) s'' := by
  induction h with
  | none => exact .step .none hs
  | step _ hl ih => exact .step ih hl

/-- With nobody counted, a retirement that is underway has an action to go on with, which takes it
nearer to its end and touches no borrowing. -/
theorem advance {s : Contention} (hs : Sound s) (hh : Heard s) (hq : s.Unborrowed) {j : Nat}
    {r : Retiring} (hj : s.retirings.get? j = some r) (hu : r.isUnderway = true)
    (a : Except ClientError Unit) :
    ∃ l s' r', Step s l s' ∧ l.drives j = true ∧ s'.borrowings = s.borrowings ∧
      s'.retirings.get? j = some r' ∧ r'.ahead < r.ahead ∧
      (r'.isUnderway = true ∨ r' = .ended .elsewhere ∨ r' = .ended (closingOf a)) := by
  have hdrives : (j == j) = true := beq_self_eq_true j
  have hzero := hq.borrows hs
  have hnext := get?_setRetiring hj
  cases r with
  | flagged =>
    exact ⟨_, _, _, .listen hj, hdrives, rfl, hnext _, Nat.lt_succ_self 4, .inl rfl⟩
  | listening n =>
    exact ⟨_, _, _, .free hj hzero, hdrives, rfl, hnext _, Nat.lt_succ_self 3, .inl rfl⟩
  | parked n =>
    -- Nobody is counted and nobody is about to give notice, so that notice has been given.
    have hn : n < s.notices := by
      rcases hh.wakes j n hj with hn | hpos | ⟨i, hi⟩
      · exact hn
      · omega
      · cases hq i _ hi
    exact ⟨_, _, _, .wake hj hn, hdrives, rfl, hnext _, Nat.lt_succ_self 5, .inl rfl⟩
  | free =>
    cases hc : s.handle.claimClose.1 with
    | true =>
      exact ⟨_, _, _, .claim hj hc, hdrives, rfl, hnext _, Nat.lt_succ_self 2, .inl rfl⟩
    | false =>
      exact ⟨_, _, _, .late hj hc, hdrives, rfl, hnext _, Nat.succ_pos 2, .inr (.inl rfl)⟩
  | claimed =>
    exact ⟨_, _, _, .close hj, hdrives, rfl, hnext _, Nat.lt_succ_self 1, .inl rfl⟩
  | closing =>
    exact ⟨_, _, _, .answer (r := a) hj, hdrives, rfl, hnext _, Nat.lt_succ_self 0, .inr (.inr rfl)⟩
  | ended _ | quit | abandoned => cases hu

/-- With nobody counted, a retirement that is underway goes on to its end by its own actions. -/
theorem Steps.run_out {s : Contention} (hs : Sound s) (hh : Heard s) (hq : s.Unborrowed) {j : Nat}
    {r : Retiring} (hj : s.retirings.get? j = some r) (hu : r.isUnderway = true)
    (a : Except ClientError Unit) :
    ∃ ls s' c, Steps s ls s' ∧ (∀ l ∈ ls, l.drives j = true) ∧
      s'.retirings.get? j = some (.ended c) ∧ (c = .elsewhere ∨ c = closingOf a) := by
  -- Induction on how far the retirement is from its end.
  induction hn : r.ahead using Nat.strongRecOn generalizing s r with
  | ind n ih =>
    obtain ⟨l, s', r', hstep, hdrives, hb, hj', hlt, hr⟩ := advance hs hh hq hj hu a
    have hall : ∀ {ls : List Label}, (∀ m ∈ ls, m.drives j = true) →
        ∀ m ∈ l :: ls, m.drives j = true := by
      intro ls hls m hm
      rcases List.mem_cons.1 hm with rfl | hm
      · exact hdrives
      · exact hls m hm
    rcases hr with hu' | rfl | rfl
    · have hq' : s'.Unborrowed := fun i b hi => hq i b (hb ▸ hi)
      obtain ⟨ls, s'', c, hrun, hls, hend, hc⟩ :=
        ih r'.ahead (hn ▸ hlt) (hs.step hstep) (hh.step hstep) hq' hj' hu' rfl
      exact ⟨l :: ls, s'', c, .cons hstep hrun, hall hls, hend, hc⟩
    · exact ⟨[l], s', _, .cons hstep .none, hall nofun, hj', .inl rfl⟩
    · exact ⟨[l], s', _, .cons hstep .none, hall nofun, hj', .inr rfl⟩

/-! ## 4. No release is missed -/

/-- However attempts to lease, drops of leases and retirements come between each other:
* while a retirement waits and has not been woken, somebody is counted, or somebody has just taken the
  count to zero and is about to give notice;
* so once all leases are dropped and nobody is in the midst of an attempt or a drop, each retirement
  that was not dropped itself can go to its end by its own actions alone, whatever the producer answers
  to its close;
* the count is the number of leases and of the attempts between counting themselves and leaving the
  count, and whoever leaves it finds it above zero. -/
theorem release_never_missed {topic : String} {mode : DispatchMode} {ls : List Label}
    {s : Contention} (h : Steps (new topic mode) ls s) :
    (∀ j n, s.retirings.get? j = some (.parked n) → ¬ n < s.notices →
      0 < s.handle.borrows ∨ s.Notifying) ∧
    (s.Unborrowed → ∀ j r, s.retirings.get? j = some r → r.isUnderway = true →
      ∀ a, ∃ ls' s' c, Steps s ls' s' ∧ (∀ l ∈ ls', l.drives j = true) ∧
        s'.retirings.get? j = some (.ended c) ∧ (c = .elsewhere ∨ c = closingOf a)) ∧
    s.handle.borrows =
      s.borrowings.count Borrowing.isLease + s.borrowings.count Borrowing.isAttempt ∧
    ∀ i s', Step s (.uncount i) s' →
      0 < s.handle.borrows ∧ s'.handle.borrows + 1 = s.handle.borrows := by
  have hsound : Sound s := (sound_new topic mode).steps h
  have hheard : Heard s := (heard_new topic mode).steps h
  refine ⟨fun j n hj hn => ?_, fun hq j r hj hu a => ?_, borrows_eq hsound,
    fun i s' hs => borrows_of_uncount hsound hs⟩
  · exact (hheard.wakes j n hj).resolve_left hn
  · exact Steps.run_out hsound hheard hq hj hu a

/-- A retirement waits for a lease; a second attempt is refused and leaves the count before the lease
does. The notice comes with the lease, and the retirement goes on. -/
theorem release_never_missed_refused_attempt :
    ∃ s, Steps (new "orders" .sequential)
        [.count, .check 0, .retire, .listen 0, .load 0, .count, .check 1, .uncount 1, .uncount 0,
          .notify 0] s ∧
      s.retirings.get? 0 = some (.parked 0) ∧
      ∃ ls s' c, Steps s ls s' ∧ (∀ l ∈ ls, l.drives 0 = true) ∧
        s'.retirings.get? 0 = some (.ended c) ∧ (c = .elsewhere ∨ c = .done) := by
  have h := (Steps.none : Steps (new "orders" .sequential) [] _)
      |>.step .count |>.step (.grant (i := 0) rfl rfl) |>.step .retire |>.step (.listen (j := 0) rfl)
      |>.step (.park (j := 0) rfl (by decide)) |>.step .count |>.step (.refuse (i := 1) rfl rfl)
      |>.step (.uncount (i := 1) rfl (.inr rfl)) |>.step (.uncount (i := 0) rfl (.inl rfl))
      |>.step (.notify (i := 0) rfl)
  refine ⟨_, h, rfl, ?_⟩
  refine (release_never_missed h).2.1 ?_ 0 (.parked 0) rfl rfl (.ok ())
  intro i b hi
  match i with
  | 0 | 1 => exact (Option.some.inj hi).symm
  | i + 2 => exact nomatch hi

end Contention

end TopicPublisher
