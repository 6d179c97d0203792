import TopicPublisher.Proofs.Factory.SingleFlight

/-!
# Who stands at a cell

A cell knows the call whose turn it is and the calls in line behind it. They come in one by one, and each
of them waits at that cell until it goes: it has the turn and passes it on, it fills the cell, which sends
all of them on, or it is ended before its time. So a cell at which nobody waits is free to be taken, and
in a factory in which all calls are over every cell is.

Results:
1. `Cell.line_enter`, `Cell.line_pass`, `Cell.line_leave`: who stands at a cell after an operation on it.
2. `Lines.turn`, `Lines.begins`: everybody who stands at a cell waits there, step by step.
3. `Run.free`: when all calls are over, nobody stands at a cell.
-/

namespace TopicPublisher

namespace Cell

/-- Who stands at a cell: the call whose turn it is, and those in line behind it. -/
def line (x : Cell) : List CallId := x.turn.toList ++ x.queue

/-! ## 1. Cells -/

variable {x : Cell} {c : CallId}

theorem line_enter (x : Cell) (c : CallId) : (x.enter c).2.line.Perm (c :: x.line) := by
  unfold enter line
  cases x.turn with
  | none => exact List.Perm.refl _
  | some d => exact @List.perm_append_comm _ (d :: x.queue) [c]

theorem line_pass (h : x.turn = some c) : x.line = c :: x.pass.1.line := by
  unfold pass line
  rw [h]
  cases x.queue <;> rfl

theorem line_leave (hn : x.line.Nodup) (c : CallId) :
    (x.leave c).1.line = x.line.filter (· ≠ c) := by
  unfold leave
  by_cases h : x.turn = some c
  · rw [if_pos h]
    rw [line_pass h, List.nodup_cons] at hn
    rw [line_pass h, List.filter_cons_of_neg (by simp), List.filter_eq_self.2]
    intro i hi
    exact decide_eq_true fun he => hn.1 (he ▸ hi)
  · rw [if_neg h]
    unfold line
    rw [List.filter_append]
    cases ht : x.turn with
    | none => rfl
    | some d =>
      have hd : d ≠ c := fun he => h (he ▸ ht)
      simp [hd]

end Cell

namespace Factory

/-- Whoever stands at a cell waits there, and nobody stands at a filled one. -/
structure Lines (s : Factory) (run : Option (CallId × Act)) : Prop where
  nodup : ∀ k x, s.cache.cells.get? k = some x → x.line.Nodup
  filled : ∀ k x, s.cache.cells.get? k = some x → x.value.isSome = true → x.line = []
  stands : ∀ k x i, s.cache.cells.get? k = some x → i ∈ x.line →
    (∀ a, run ≠ some (i, a)) ∧ ∃ q t, s.calls.get? i = some q ∧ q.cell? = some (t, k)

open SoundLemmas StoryLemmas

section

variable {tr : List (Label × Factory)} {s s' : Factory} {c i : CallId} {l : Label} {k : CellId}
  {run run' : Option (CallId × Act)} {f : Cell → Cell}

/-! ## 2. Steps -/

/-- The cells stay as they are, and there may be new ones at which nobody stands. -/
theorem Lines.keep (h : Lines s run)
    (hcells : ∀ k x, s'.cache.cells.get? k = some x → s.cache.cells.get? k = some x ∨ x.line = [])
    (hcalls : ∀ k x i q, s.cache.cells.get? k = some x → i ∈ x.line → s.calls.get? i = some q →
      (∀ a, run' ≠ some (i, a)) ∧ ∃ q', s'.calls.get? i = some q' ∧ q'.cell? = q.cell?) :
    Lines s' run' where
  nodup k x hx := by
    rcases hcells k x hx with hx | hx
    · exact h.nodup k x hx
    · rw [hx]
      exact List.nodup_nil
  filled k x hx hv := (hcells k x hx).elim (fun hx => h.filled k x hx hv) id
  stands k x i hx hi := by
    rcases hcells k x hx with hx | hx
    · obtain ⟨-, q, t, hq, hk⟩ := h.stands k x i hx hi
      obtain ⟨hrun, q', hq', he⟩ := hcalls k x i q hx hi hq
      exact ⟨hrun, q', t, hq', he.trans hk⟩
    · rw [hx] at hi
      cases hi

/-- One cell changes. -/
theorem Lines.change (h : Lines s run) (hcells : s'.cache.cells = s.cache.cells.update k f)
    (hnodup : ∀ x, s.cache.cells.get? k = some x → (f x).line.Nodup)
    (hfilled : ∀ x, s.cache.cells.get? k = some x → (f x).value.isSome = true → (f x).line = [])
    (hstands : ∀ x i, s.cache.cells.get? k = some x → i ∈ (f x).line →
      (∀ a, run' ≠ some (i, a)) ∧ ∃ q t, s'.calls.get? i = some q ∧ q.cell? = some (t, k))
    (hothers : ∀ j x i q t, j ≠ k → s.cache.cells.get? j = some x → i ∈ x.line →
      s.calls.get? i = some q → q.cell? = some (t, j) →
      (∀ a, run' ≠ some (i, a)) ∧ s'.calls.get? i = some q) : Lines s' run' := by
  have hget : ∀ {j : CellId} {y : Cell}, s'.cache.cells.get? j = some y →
      (j = k ∧ ∃ x, s.cache.cells.get? k = some x ∧ y = f x) ∨
        (j ≠ k ∧ s.cache.cells.get? j = some y) := by
    intro j y hy
    rw [hcells, Registry.get?_update] at hy
    split at hy
    · next hk =>
      subst hk
      obtain ⟨x, hx, rfl⟩ := Option.map_eq_some_iff.1 hy
      exact .inl ⟨rfl, x, hx, rfl⟩
    · next hk => exact .inr ⟨Ne.symm hk, hy⟩
  refine ⟨fun j y hy => ?_, fun j y hy hv => ?_, fun j y i hy hi => ?_⟩
  · rcases hget hy with ⟨rfl, x, hx, rfl⟩ | ⟨-, hy⟩
    · exact hnodup x hx
    · exact h.nodup j y hy
  · rcases hget hy with ⟨rfl, x, hx, rfl⟩ | ⟨-, hy⟩
    · exact hfilled x hx hv
    · exact h.filled j y hy hv
  · rcases hget hy with ⟨rfl, x, hx, rfl⟩ | ⟨hj, hy⟩
    · exact hstands x i hx hi
    · obtain ⟨-, q, t, hq, hk⟩ := h.stands j y i hy hi
      obtain ⟨hrun, hq'⟩ := hothers j y i q t hj hy hi hq hk
      exact ⟨hrun, q, t, hq', hk⟩

/-- The call that runs comes to a cell. -/
theorem Lines.enter {a : Act} {q : Progress} {t : String} (h : Lines s (some (c, a)))
    (hcells : s'.cache.cells = s.cache.cells.update k fun x => (x.enter c).2)
    (hempty : ∀ x, s.cache.cells.get? k = some x → x.value = none)
    (hc : s'.calls.get? c = some q) (hq : q.cell? = some (t, k))
    (hothers : ∀ i q, i ≠ c → s.calls.get? i = some q → s'.calls.get? i = some q) :
    Lines s' none := by
  have hne : ∀ {j : CellId} {x : Cell}, s.cache.cells.get? j = some x → c ∉ x.line :=
    fun hx hc => (h.stands _ _ c hx hc).1 a rfl
  refine h.change hcells (fun x hx => ?_) (fun x hx hv => ?_) (fun x i hx hi => ⟨nobody_runs, ?_⟩)
    fun j x i r u _ hx hi hr _ => ⟨nobody_runs, hothers i r ?_ hr⟩
  · rw [(x.line_enter c).nodup_iff, List.nodup_cons]
    exact ⟨hne hx, h.nodup k x hx⟩
  · rw [Cache.value_enter, hempty x hx] at hv
    cases hv
  · rcases List.mem_cons.1 ((x.line_enter c).mem_iff.1 hi) with rfl | hold
    · exact ⟨q, t, hc, hq⟩
    · obtain ⟨-, r, u, hr, hk⟩ := h.stands k x i hx hold
      refine ⟨r, u, hothers i r ?_ hr, hk⟩
      rintro rfl
      exact hne hx hold
  · rintro rfl
    exact hne hx hi

theorem Lines.turn {a : Act} {next : Option Act} (o : Orderly tr s (some (c, a)))
    (h : Lines s (some (c, a))) (ht : Turn c s a s' next) :
    Lines s' (next.map fun a => (c, a)) := by
  obtain ⟨q, hc, -⟩ := (o.storied.act c a rfl).stale
  have hcalls : ∀ k x i q, s.cache.cells.get? k = some x → i ∈ x.line → s.calls.get? i = some q →
      (∀ b, (next.map fun a => (c, a)) ≠ some (i, b)) ∧
        ∃ q', s'.calls.get? i = some q' ∧ q'.cell? = q.cell? := by
    intro k x i q hx hi hq
    have hne : i ≠ c := by
      rintro rfl
      exact (h.stands k x i hx hi).1 a rfl
    exact ⟨idle_of_ne hne, q, ht.others hne hq, rfl⟩
  have hadd : ∀ {y : Cell} {j : CellId} {x : Cell}, y.line = [] →
      (s.cache.cells.add y).get? j = some x → s.cache.cells.get? j = some x ∨ x.line = [] := by
    intro y j x hy hx
    rw [Registry.get?_add] at hx
    split at hx
    · cases hx
      exact .inr hy
    · exact .inl hx
  have hfor : ∀ {t : String} {b : Cache} {j k : CellId} {x : Cell}, s.cache.CellFor t (b, k) →
      b.cells.get? j = some x → s.cache.cells.get? j = some x ∨ x.line = [] := by
    intro t b j k x hcell hx
    cases hcell with
    | found => exact .inl hx
    | added => exact hadd rfl hx
  have hplace : ∀ {r : Bool} {t : String} {j k : CellId} {v : HandleId} {p : Placement} {b : Cache}
      {x : Cell}, s.cache.place r t k v = (p, b) → b.cells.get? j = some x →
      s.cache.cells.get? j = some x ∨ x.line = [] := by
    intro r t j k v p b x hp hx
    have hplaced := Cache.place_placed s.cache r t k v
    rw [hp] at hplaced
    cases hplaced with
    | adopted => exact hadd rfl hx
    | _ => exact .inl hx
  have hcellFor : ∀ {t : String} {b : Cache} {k : CellId}, s.cache.CellFor t (b, k) →
      Lines { s with cache := b } (some (c, a)) := fun hcell =>
    h.keep (fun _ _ => hfor hcell) fun k x i q hx hi hq => ⟨(h.stands k x i hx hi).1, q, hq, rfl⟩
  cases ht with
  | @create w b k x _ hcell hx hnone =>
    exact (hcellFor hcell).enter rfl (fun y hy => Option.some.inj (hx.symm.trans hy) ▸ hnone)
      (get?_goTo hc) rfl fun i q hi => calls_goTo i q hi
  | @queue w b k x _ hcell hx hnone =>
    exact (hcellFor hcell).enter rfl (fun y hy => Option.some.inj (hx.symm.trans hy) ▸ hnone)
      (get?_goTo hc) rfl fun i q hi => calls_goTo i q hi
  | lost hcell => exact h.keep (fun _ _ => hfor hcell) hcalls
  | placed hp => exact h.keep (fun _ _ => hplace hp) hcalls
  | superseded hp => exact h.keep (fun _ _ => hplace hp) hcalls
  | shut hp => exact h.keep (fun _ _ => hplace hp) hcalls
  | _ => exact h.keep (fun _ _ hx => .inl hx) hcalls

/-- A call that waits at one cell stands at no other. -/
theorem Lines.at (h : Lines s run) {q : Progress} {t : String} {j : CellId} {x : Cell}
    (hc : s.calls.get? c = some q) (hq : q.cell? = some (t, k)) (hx : s.cache.cells.get? j = some x)
    (hi : c ∈ x.line) : j = k := by
  obtain ⟨-, r, u, hr, hj⟩ := h.stands j x c hx hi
  cases hc.symm.trans hr
  cases hq.symm.trans hj
  rfl

theorem Lines.stop {q final : Progress} {s₁ : Factory} (h : Lines s none)
    (hc : s.calls.get? c = some q) (hs : LetsGo s c q s₁) :
    Lines ((s₁.goTo c final).note (.finished c)) none := by
  have hcalls : ((s₁.goTo c final).note (.finished c)).calls = s.calls.update c fun _ => final := by
    cases hs <;> rfl
  have hsame : q.cell? = none → s₁.cache.cells = s.cache.cells →
      Lines ((s₁.goTo c final).note (.finished c)) none := by
    intro hq hcells
    refine h.keep (fun k x hx => .inl (hcells ▸ hx)) fun k x i r hx hi hr => ⟨nobody_runs, r, ?_, rfl⟩
    rw [hcalls]
    refine calls_goTo i r ?_ hr
    rintro rfl
    obtain ⟨-, p, t, hp, hk⟩ := h.stands k x i hx hi
    cases hc.symm.trans hp
    cases hq.symm.trans hk
  have hleave : ∀ {t : String} {k : CellId}, q.cell? = some (t, k) →
      s₁.cache.cells = (s.cache.cells.update k fun x => (x.leave c).1) →
      Lines ((s₁.goTo c final).note (.finished c)) none := by
    intro t k hq hcells
    refine h.change hcells (fun x hx => ?_) (fun x hx hv => ?_) (fun x i hx hi => ⟨nobody_runs, ?_⟩)
      fun j x i r u hj hx hi hr _ => ⟨nobody_runs, ?_⟩
    · rw [Cell.line_leave (h.nodup k x hx)]
      exact (h.nodup k x hx).filter _
    · rw [Cell.line_leave (h.nodup k x hx), h.filled k x hx (Cache.value_leave x c ▸ hv)]
      rfl
    · rw [Cell.line_leave (h.nodup k x hx), List.mem_filter, decide_eq_true_eq] at hi
      obtain ⟨-, r, u, hr, hk⟩ := h.stands k x i hx hi.1
      exact ⟨r, u, hcalls ▸ calls_goTo i r hi.2 hr, hk⟩
    · refine hcalls ▸ calls_goTo i r ?_ hr
      rintro rfl
      exact hj (h.at hc hq hx hi)
  cases hs with
  | queued | creating => exact hleave rfl rfl
  | fresh | dispatch | retiring | completing | awaiting | spinning => exact hsame rfl rfl
  | sending hp => exact hsame (by rcases hp with rfl | rfl <;> rfl) rfl

/-- The call whose turn it is at a cell passes it on and is over. -/
theorem Lines.pass {q : Progress} {t : String} {x : Cell} {o : Outcome} {cs : List CallId}
    (h : Lines s none) (hc : s.calls.get? c = some q) (hq : q.cell? = some (t, k))
    (hx : s.cache.cells.get? k = some x) (hturn : x.turn = some c) (hnone : x.value = none) :
    Lines (({ s with cache := s.cache.setCell k fun x => x.pass.1 }.rouse cs).finish c o) none := by
  have hnodup := h.nodup k x hx
  rw [Cell.line_pass hturn, List.nodup_cons] at hnodup
  refine h.change rfl (fun y hy => ?_) (fun y hy hv => ?_) (fun y i hy hi => ⟨nobody_runs, ?_⟩)
    fun j y i r u hj hy hi hr _ => ⟨nobody_runs, ?_⟩
  · cases hx.symm.trans hy
    exact hnodup.2
  · cases hx.symm.trans hy
    rw [Cache.value_pass, hnone] at hv
    cases hv
  · cases hx.symm.trans hy
    obtain ⟨-, r, u, hr, hk⟩ := h.stands k x i hx (Cell.line_pass hturn ▸ List.mem_cons_of_mem c hi)
    refine ⟨r, u, calls_goTo i r ?_ hr, hk⟩
    rintro rfl
    exact hnodup.1 hi
  · refine calls_goTo i r ?_ hr
    rintro rfl
    exact hj (h.at hc hq hy hi)

theorem Lines.begins (o : Orderly tr s none) (h : Lines s none) (hb : Begins s l s' run) :
    Lines s' run := by
  obtain ⟨owner, hs⟩ := o.sound
  -- A call that acts and waits at no cell stands at none.
  have hsame : ∀ {c : CallId} {q : Progress}, l.actor? = some c → s.calls.get? c = some q →
      q.cell? = none → (∀ i a, run = some (i, a) → i = c) → s'.cache.cells = s.cache.cells →
      Lines s' run := by
    intro c q hactor hc hq hrun hcells
    refine h.keep (fun k x hx => .inl (hcells ▸ hx)) fun k x i r hx hi hr => ?_
    have hne : i ≠ c := by
      rintro rfl
      obtain ⟨-, p, t, hp, hk⟩ := h.stands k x i hx hi
      cases hc.symm.trans hp
      cases hq.symm.trans hk
    refine ⟨fun a ha => hne (hrun i a ha), r, hb.others (fun hi => hne ?_) hr, rfl⟩
    exact Option.some.inj (hi.symm.trans hactor)
  have hnobody : l.actor? = none → run = none → s'.cache.cells = s.cache.cells → Lines s' run := by
    intro hactor hrun hcells
    refine h.keep (fun k x hx => .inl (hcells ▸ hx)) fun k x i r hx hi hr => ⟨?_, r, ?_, rfl⟩
    · exact hrun ▸ nobody_runs
    · exact hb.others (hactor ▸ nofun) hr
  cases hb with
  | call | leased | denied | released => exact hnobody rfl rfl rfl
  | want hc | retire hc | closed hc => exact hsame rfl hc rfl eq_of_run rfl
  | refuse hc | await hc | dispatch hc | settled hc | receipt hc | rejected hc | accepted hc
  | completed hc => exact hsame rfl hc rfl eq_of_none rfl
  | @drain c r taken hc htaken =>
    rcases htaken with ⟨rfl, rfl⟩ | ⟨rfl, rfl⟩ <;> exact hsame rfl hc rfl eq_of_run rfl
  | @filled c w k v hc hv =>
    obtain ⟨y, hy, hvalue⟩ := Option.bind_eq_some_iff.1 hv
    refine h.keep (fun k x hx => .inl hx) fun j x i r hx hi hr => ⟨fun a ha => ?_, r, hr, rfl⟩
    cases ha
    cases h.at hc rfl hx hi
    cases hx.symm.trans hy
    rw [h.filled k y hy (hvalue ▸ rfl)] at hi
    cases hi
  | @create c w k hc =>
    refine h.keep (fun k x hx => .inl hx) fun j x i r hx hi hr => ⟨nobody_runs, ?_⟩
    by_cases hi' : i = c
    · subst hi'
      cases hc.symm.trans hr
      exact ⟨_, get?_goTo hc, rfl⟩
    · exact ⟨r, calls_goTo i r hi' hr, rfl⟩
  | @created c t w k m cs hc =>
    refine h.change rfl (fun x _ => List.nodup_nil) (fun x _ _ => rfl) (fun x i _ hi => ?_)
      fun j x i r u hj hx hi hr _ => ⟨fun a ha => ?_, hr⟩
    · cases hi
    · cases ha
      exact hj (h.at hc rfl hx hi)
  | failed hc =>
    obtain ⟨-, x, hx, hturn, hnone⟩ := hs.fits _ _ hc nobody_runs
    exact h.pass hc rfl hx hturn hnone
  | stop _ hc hs => exact h.stop hc hs

theorem lines_new : Lines new none where
  nodup k x hx := by simp [new] at hx
  filled k x hx := by simp [new] at hx
  stands k x i hx := by simp [new] at hx

end

/-! ## 3. Runs -/

/-- In every run, whoever stands at a cell waits there. -/
theorem Run.lines {tr : List (Label × Factory)} {s : Factory} (h : Run PublicOnly tr s) :
    Lines s none := by
  refine (Run.induct_orderly (I := fun _ s run => Lines s run) lines_new ?_ ?_ h).2
  · exact fun o ih _ hb => ih.begins o hb
  · exact fun o ih ht => ih.turn o ht

/-- When all calls are over, nobody stands at a cell. -/
theorem Run.free {tr : List (Label × Factory)} {s : Factory} (h : Run PublicOnly tr s)
    (hover : ∀ i q, s.calls.get? i = some q → Progress.isOver q = true) {k : CellId} {x : Cell}
    (hx : s.cache.cells.get? k = some x) : x.line = [] := by
  refine List.eq_nil_iff_forall_not_mem.2 fun i hi => ?_
  obtain ⟨-, q, t, hq, hk⟩ := h.lines.stands k x i hx hi
  have ho := hover i q hq
  cases q with
  | queued | creating => cases ho
  | _ => cases hk

end Factory

end TopicPublisher
