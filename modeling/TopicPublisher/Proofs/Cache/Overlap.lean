import TopicPublisher.Factory.State
import TopicPublisher.Proofs.Cache.Cells
import TopicPublisher.Proofs.Registry

/-!
# Look-ups and drains that run at once

Look-ups of a cache by several threads, and drains between them. Each access to the map, each access to
a cell and each raising of a flag is a single action, and any thread's action may come between two of
another's. In particular a look-up whose handle another one has won over raises the handle's flag only
after the map was let go.

Results:
1. `cached_loser_retires`: that gap is open. A handle told to be superseded can be adopted by a second
   placement of its cell, once a drain has taken the winner, and then its flag goes up in the map; from
   then on every look-up of the topic gives a handle that grants no lease.
2. `clean_iff_losers_uncached`: nothing else puts a retiring handle into the map. It has none in any
   state of a run exactly if no superseded handle is in the map when its flag goes up, and that is so in
   every run in which no drain falls into the gap.
-/

namespace TopicPublisher

/-! ## Definitions -/

/-- How far a look-up is.

* `found`: it has the topic's cell.
* `missed`: it saw the cell empty.
* `queued`: it is in line for the turn at the cell.
* `filled`: it has the handle of the filled cell, which is to be placed.
* `losing`: another handle won, and the flag of its own is about to go up.
* `refusing`: the cache was closed, and the flag of its handle is about to go up.
* `waning`: the flag is up; what is left of the retirement concerns the handle alone. -/
inductive Lookup where
  | found (topic : String) (k : CellId)
  | missed (topic : String) (k : CellId)
  | queued (topic : String) (k : CellId)
  | creating (topic : String) (k : CellId)
  | filled (topic : String) (k : CellId) (h : HandleId)
  | losing (topic : String) (winner loser : HandleId)
  | refusing (h : HandleId)
  | waning (r : Except Error HandleId)
  | ended (r : Except Error HandleId)
  | aborted

/-- A cache, the handles made for it, and all look-ups. -/
structure Overlap where
  cache : Cache := {}
  handles : Registry Handle := .empty
  lookups : Registry Lookup := .empty

namespace Overlap

def isRetiring (s : Overlap) (h : HandleId) : Bool :=
  ((s.handles.get? h).map Handle.retiring).getD false

def goTo (s : Overlap) (c : CallId) (p : Lookup) : Overlap :=
  { s with lookups := s.lookups.update c fun _ => p }

def setCell (s : Overlap) (k : CellId) (f : Cell → Cell) : Overlap :=
  { s with cache := s.cache.setCell k f }

def stopLeasing (s : Overlap) (h : HandleId) : Overlap :=
  { s with handles := s.handles.update h Handle.stopLeasing }

/-- Takes all handles out of the map and raises their flags, without letting the map go. -/
def take (s : Overlap) (taken : Cache × List HandleId) : Overlap :=
  taken.2.foldl stopLeasing { s with cache := taken.1 }

/-- The single actions. Look-ups go by their numbers.

* `lookUp`: a new look-up asks the map for the topic's cell.
* `enter`: it asks the cell for the handle or for the turn to create one.
* `wake`: what it stands in line for has come.
* `stop`: it raises the flag of the handle that it is to retire. -/
inductive Label where
  | lookUp (topic : String)
  | read (c : CallId)
  | enter (c : CallId)
  | create (c : CallId) (r : Except ClientError DispatchMode)
  | wake (c : CallId)
  | place (c : CallId)
  | stop (c : CallId)
  | finish (c : CallId)
  | abort (c : CallId)
  | drain
  | close

/-- What comes of a placement. -/
def afterPlacement (topic : String) : Placement → Lookup
  | .cached h => .ended (.ok h)
  | .retired h => .ended (.ok h)
  | .superseded winner loser => .losing topic winner loser
  | .closed h => .refusing h

/-- What one action does. -/
inductive Step (s : Overlap) : Label → Overlap → Prop
  | lookUp {t : String} {cache : Cache} {k : CellId} : s.cache.closed = false →
      s.cache.cellFor t = (cache, k) →
      Step s (.lookUp t) { s with cache, lookups := s.lookups.add (.found t k) }
  | refused {topic : String} : s.cache.closed = true →
      Step s (.lookUp topic) { s with lookups := s.lookups.add (.ended (.error .factoryClosed)) }
  | hit {c : CallId} {topic : String} {k : CellId} {h : HandleId} :
      s.lookups.get? c = some (.found topic k) → s.cache.value? k = some h →
      Step s (.read c) (s.goTo c (.ended (.ok h)))
  | miss {c : CallId} {topic : String} {k : CellId} :
      s.lookups.get? c = some (.found topic k) → s.cache.value? k = none →
      Step s (.read c) (s.goTo c (.missed topic k))
  | enterFilled {c : CallId} {topic : String} {k : CellId} {h : HandleId} :
      s.lookups.get? c = some (.missed topic k) → s.cache.value? k = some h →
      Step s (.enter c) (s.goTo c (.filled topic k h))
  | enterEmpty {c : CallId} {topic : String} {k : CellId} {x : Cell} :
      s.lookups.get? c = some (.missed topic k) → s.cache.cells.get? k = some x → x.value = none →
      Step s (.enter c) ((s.setCell k fun x => (x.enter c).2).goTo c
        (if (x.enter c).1 then .creating topic k else .queued topic k))
  | created {c : CallId} {topic : String} {k : CellId} {m : DispatchMode} :
      s.lookups.get? c = some (.creating topic k) →
      Step s (.create c (.ok m))
        (({ s with handles := s.handles.add { topic, mode := m } }.setCell k fun x =>
          (x.fill s.handles.size).1).goTo c (.filled topic k s.handles.size))
  | failed {c : CallId} {topic : String} {k : CellId} {e : ClientError} :
      s.lookups.get? c = some (.creating topic k) →
      Step s (.create c (.error e))
        ((s.setCell k fun x => x.pass.1).goTo c (.ended (.error (.producerCreation topic e))))
  | wakeFilled {c : CallId} {topic : String} {k : CellId} {h : HandleId} :
      s.lookups.get? c = some (.queued topic k) → s.cache.value? k = some h →
      Step s (.wake c) (s.goTo c (.filled topic k h))
  | wakeTurn {c : CallId} {topic : String} {k : CellId} {x : Cell} :
      s.lookups.get? c = some (.queued topic k) → s.cache.cells.get? k = some x → x.value = none →
      x.turn = some c → Step s (.wake c) (s.goTo c (.creating topic k))
  | place {c : CallId} {topic : String} {k : CellId} {h : HandleId} {p : Placement} {cache : Cache} :
      s.lookups.get? c = some (.filled topic k h) →
      s.cache.place (s.isRetiring h) topic k h = (p, cache) →
      Step s (.place c) ({ s with cache }.goTo c (afterPlacement topic p))
  | stopLoser {c : CallId} {topic : String} {winner loser : HandleId} :
      s.lookups.get? c = some (.losing topic winner loser) →
      Step s (.stop c) ((s.stopLeasing loser).goTo c (.waning (.ok winner)))
  | stopRefused {c : CallId} {h : HandleId} : s.lookups.get? c = some (.refusing h) →
      Step s (.stop c) ((s.stopLeasing h).goTo c (.waning (.error .factoryClosed)))
  | finish {c : CallId} {r : Except Error HandleId} : s.lookups.get? c = some (.waning r) →
      Step s (.finish c) (s.goTo c (.ended r))
  | abortWaiting {c : CallId} {topic : String} {k : CellId} :
      s.lookups.get? c = some (.queued topic k) ∨ s.lookups.get? c = some (.creating topic k) →
      Step s (.abort c) ((s.setCell k fun x => (x.leave c).1).goTo c .aborted)
  | abortWaning {c : CallId} {r : Except Error HandleId} : s.lookups.get? c = some (.waning r) →
      Step s (.abort c) (s.goTo c .aborted)
  | drain : Step s .drain (s.take s.cache.take)
  | close : Step s .close (s.take s.cache.shut)

/-- `Run tr s`: a run from an empty cache to `s`. `tr` has its actions, the last one first, each with
the state that it found. -/
inductive Run : List (Label × Overlap) → Overlap → Prop
  | new : Run [] {}
  | step {tr : List (Label × Overlap)} {s s' : Overlap} {l : Label} :
      Run tr s → Step s l s' → Run ((l, s) :: tr) s'

/-- The map has no handle whose flag is up. -/
def Clean (s : Overlap) : Prop := ∀ h, h ∈ s.cache.handles → s.isRetiring h = false

/-- A superseded handle is in the map when its flag goes up. -/
def LoserCached (s : Overlap) : Label → Prop
  | .stop c => ∃ topic winner loser, s.lookups.get? c = some (.losing topic winner loser) ∧
      loser ∈ s.cache.handles
  | _ => False

/-- A drain comes while the flag of a superseded handle is about to go up. -/
def DrainsInGap (s : Overlap) (l : Label) : Prop :=
  (l = .drain ∨ l = .close) ∧
    ∃ c topic winner loser, s.lookups.get? c = some (.losing topic winner loser)

/-! ## 1. The gap -/

/-- Two look-ups share the cell of a topic that a drain takes out of the map, and a third makes the
topic's handle `0` meanwhile. Handle `1` of the shared cell is superseded for look-up `1`; a drain takes
handle `0`; look-up `0` places handle `1` again, and the map adopts it; then look-up `1` raises its flag.
Look-up `3` finds handle `1`, and so would any later one. -/
theorem cached_loser_retires :
    ∃ tr s, Run tr s ∧
      tr.map Prod.fst = [.read 3, .lookUp "t", .stop 1, .place 0, .drain, .place 1, .wake 1,
        .create 0 (.ok .sequential), .place 2, .create 2 (.ok .sequential), .enter 2, .read 2,
        .lookUp "t", .drain, .enter 1, .read 1, .lookUp "t", .enter 0, .read 0, .lookUp "t"] ∧
      s.cache.handle? "t" = some 1 ∧ s.isRetiring 1 = true ∧ ¬ s.Clean ∧
      s.lookups.get? 3 = some (.ended (.ok 1)) := by
  have h := Run.new
      |>.step (.lookUp (t := "t") rfl rfl) |>.step (.miss (c := 0) rfl rfl)
      |>.step (.enterEmpty (c := 0) rfl rfl rfl) |>.step (.lookUp (t := "t") rfl rfl)
      |>.step (.miss (c := 1) rfl rfl) |>.step (.enterEmpty (c := 1) rfl rfl rfl) |>.step .drain
      |>.step (.lookUp (t := "t") rfl rfl) |>.step (.miss (c := 2) rfl rfl)
      |>.step (.enterEmpty (c := 2) rfl rfl rfl) |>.step (.created (c := 2) (m := .sequential) rfl)
      |>.step (.place (c := 2) rfl rfl) |>.step (.created (c := 0) (m := .sequential) rfl)
      |>.step (.wakeFilled (c := 1) rfl rfl) |>.step (.place (c := 1) rfl rfl) |>.step .drain
      |>.step (.place (c := 0) rfl rfl) |>.step (.stopLoser (c := 1) rfl)
      |>.step (.lookUp (t := "t") rfl rfl) |>.step (.hit (c := 3) rfl rfl)
  refine ⟨_, _, h, rfl, rfl, rfl, fun hc => ?_, rfl⟩
  have hflag := hc 1 (by decide)
  cases hflag

/-! ## 2. What the look-ups can rely on -/

def topic? (s : Overlap) (h : HandleId) : Option String := (s.handles.get? h).map Handle.topic

/-- What holds of a look-up while it is at one of its points. -/
def Fits (owner : CellId → String) (s : Overlap) (c : CallId) : Lookup → Prop
  | .found t k | .missed t k | .queued t k => s.cache.IsCell owner t k
  | .creating t k => s.cache.IsCell owner t k ∧ s.cache.HasTurn c k
  | .filled t k h => s.cache.IsCell owner t k ∧ s.cache.value? k = some h
  | .losing t _ loser => s.topic? loser = some t
  | .refusing _ => s.cache.closed = true
  | .waning _ | .ended _ | .aborted => True

/-- The map is in order, the handles in the cells are of the cells' topics, and every look-up fits. -/
structure Sound (owner : CellId → String) (s : Overlap) : Prop where
  tidy : s.cache.Tidy owner
  stocked : s.cache.Stocked s.topic? owner
  fits : ∀ c p, s.lookups.get? c = some p → Fits owner s c p

namespace OverlapLemmas

theorem Fits.mono {owner owner' : CellId → String} {s s' : Overlap} {c i : CallId} {p : Lookup}
    (h : Fits owner s i p) (g : s.cache.Grows owner owner' c s'.cache)
    (ht : ∀ v t, s.topic? v = some t → s'.topic? v = some t) (hi : i ≠ c) : Fits owner' s' i p := by
  cases p with
  | found | missed | queued => exact g.isCell h
  | creating => exact ⟨g.isCell h.1, g.turn i _ hi h.2⟩
  | filled => exact ⟨g.isCell h.1, g.value _ _ h.2⟩
  | losing => exact ht _ _ h
  | refusing => exact g.closed h
  | waning | ended | aborted => trivial

/-- A step of look-up `c` keeps what holds, if `c` fits at its new point. -/
theorem Sound.goTo {owner owner' : CellId → String} {s s' : Overlap} {c : CallId} {p : Lookup}
    (h : Sound owner s) (k : s.cache.Keeps s'.topic? owner owner' c s'.cache)
    (ht : ∀ v t, s.topic? v = some t → s'.topic? v = some t) (hl : s'.lookups = s.lookups)
    (hp : Fits owner' s' c p) : Sound owner' (s'.goTo c p) where
  tidy := k.tidy
  stocked := k.stocked
  fits i q hq := by
    unfold Overlap.goTo at hq
    rcases Registry.get?_update_const hq with ⟨rfl, rfl⟩ | ⟨hi, hq⟩
    · exact hp
    · exact Fits.mono (h.fits i q (hl ▸ hq)) k.grows ht (Ne.symm hi)

/-- A look-up that moves on and changes no handle. -/
theorem Sound.goTo_cache {owner owner' : CellId → String} {s : Overlap} {c : CallId} {p : Lookup}
    {cache : Cache} (h : Sound owner s) (k : s.cache.Keeps s.topic? owner owner' c cache)
    (hp : Fits owner' { s with cache } c p) : Sound owner' ({ s with cache }.goTo c p) :=
  Sound.goTo h k (fun _ _ h => h) rfl hp

/-- A look-up that moves on and changes nothing. -/
theorem Sound.move {owner : CellId → String} {s : Overlap} (h : Sound owner s) {c : CallId}
    {p : Lookup} (hp : Fits owner s c p) : Sound owner (s.goTo c p) :=
  Sound.goTo h (Cache.keeps_refl h.tidy h.stocked c) (fun _ _ h => h) rfl hp

theorem topic?_stopLeasing (s : Overlap) (h v : HandleId) :
    (s.stopLeasing h).topic? v = s.topic? v := by
  unfold topic? stopLeasing
  rw [Registry.get?_update]
  split
  · cases s.handles.get? v <;> rfl
  · rfl

theorem isRetiring_stopLeasing (s : Overlap) (h v : HandleId) :
    (s.stopLeasing h).isRetiring v = true ↔
      s.isRetiring v = true ∨ (v = h ∧ (s.handles.get? v).isSome = true) := by
  unfold isRetiring stopLeasing
  rw [Registry.get?_update]
  by_cases hv : h = v
  · rw [if_pos hv]
    cases s.handles.get? v <;> simp [hv, Handle.stopLeasing]
  · rw [if_neg hv]
    simp [Ne.symm hv]

/-- Taking handles changes the map and flags, and nothing else. -/
theorem take_frame (s : Overlap) (taken : Cache × List HandleId) :
    (s.take taken).cache = taken.1 ∧ (s.take taken).lookups = s.lookups ∧
      (s.take taken).topic? = s.topic? := by
  unfold take
  suffices ∀ (hs : List HandleId) (a : Overlap), (hs.foldl stopLeasing a).cache = a.cache ∧
      (hs.foldl stopLeasing a).lookups = a.lookups ∧ (hs.foldl stopLeasing a).topic? = a.topic? from
    this taken.2 { s with cache := taken.1 }
  intro hs
  induction hs with
  | nil => exact fun a => ⟨rfl, rfl, rfl⟩
  | cons h hs ih =>
    intro a
    obtain ⟨h₁, h₂, h₃⟩ := ih (a.stopLeasing h)
    exact ⟨h₁, h₂, h₃.trans (funext (topic?_stopLeasing a h))⟩

theorem Sound.take {owner : CellId → String} {s : Overlap} (h : Sound owner s)
    {taken : Cache × List HandleId} (hcells : taken.1.cells = s.cache.cells)
    (hempty : taken.1.entries = []) (hclosed : s.cache.closed = true → taken.1.closed = true) :
    Sound owner (s.take taken) := by
  obtain ⟨hcache, hlookups, htopic⟩ := take_frame s taken
  have k := Cache.keeps_emptied h.stocked hcells hempty hclosed
  refine ⟨?_, ?_, fun c p hp => ?_⟩
  · rw [hcache]
    exact (k 0).tidy
  · rw [hcache, htopic]
    exact (k 0).stocked
  · rw [hlookups] at hp
    refine Fits.mono (c := c + 1) (h.fits c p hp) ?_ ?_ (Nat.ne_of_lt (Nat.lt_succ_self c))
    · rw [hcache]
      exact (k (c + 1)).grows
    · intro v t hv
      rw [htopic]
      exact hv

/-- What a placement leads to, and what it does to the map, by what became of the handle. -/
theorem Sound.place {owner : CellId → String} {s : Overlap} (h : Sound owner s) {c : CallId}
    {t : String} {k : CellId} {v : HandleId} {p : Placement} {cache : Cache}
    (hc : s.lookups.get? c = some (.filled t k v))
    (hp : s.cache.place (s.isRetiring v) t k v = (p, cache)) :
    ∃ owner', Sound owner' ({ s with cache }.goTo c (afterPlacement t p)) := by
  obtain ⟨hk, hv⟩ : s.cache.IsCell owner t k ∧ s.cache.value? k = some v := h.fits c _ hc
  have hplaced := Cache.place_placed s.cache (s.isRetiring v) t k v
  rw [hp] at hplaced
  obtain ⟨owner', keeps⟩ := Cache.keeps_place h.tidy h.stocked hk hv hplaced c
  refine ⟨owner', Sound.goTo_cache h keeps ?_⟩
  cases hplaced with
  | closed hcl => exact hcl
  | dropped | retired | kept | adopted => trivial
  | superseded =>
    have htopic : s.topic? v = some t := hk.2 ▸ h.stocked k v hv
    exact htopic

end OverlapLemmas

open OverlapLemmas

theorem sound_empty : Sound (fun _ => "") {} where
  tidy := Cache.tidy_empty _
  stocked k h hv := by simp [Cache.value?] at hv
  fits c p hp := by simp at hp

theorem Sound.step {owner : CellId → String} {s s' : Overlap} {l : Label} (h : Sound owner s)
    (hs : Step s l s') : ∃ owner', Sound owner' s' := by
  cases hs with
  | @lookUp topic cache k ho hfor =>
    -- The new look-up has a number that no other has.
    have hcell := Cache.cellFor_spec s.cache topic
    rw [hfor] at hcell
    obtain ⟨owner', keeps, hk⟩ := Cache.keeps_cellFor h.tidy h.stocked ho hcell s.lookups.size
    refine ⟨owner', keeps.tidy, keeps.stocked, fun c p hp => ?_⟩
    rw [Registry.get?_add] at hp
    split at hp
    · cases hp
      exact hk
    · next hc => exact Fits.mono (h.fits c p hp) keeps.grows (fun _ _ h => h) hc
  | refused _ =>
    refine ⟨owner, h.tidy, h.stocked, fun c p hp => ?_⟩
    rw [Registry.get?_add] at hp
    split at hp
    · cases hp
      trivial
    · exact h.fits c p hp
  | hit _ _ | finish _ | abortWaning _ => exact ⟨owner, Sound.move h trivial⟩
  | miss hc _ =>
    have hk : s.cache.IsCell owner _ _ := h.fits _ _ hc
    exact ⟨owner, Sound.move h hk⟩
  | enterFilled hc hv =>
    have hk : s.cache.IsCell owner _ _ := h.fits _ _ hc
    exact ⟨owner, Sound.move h ⟨hk, hv⟩⟩
  | wakeFilled hc hv =>
    have hk : s.cache.IsCell owner _ _ := h.fits _ _ hc
    exact ⟨owner, Sound.move h ⟨hk, hv⟩⟩
  | wakeTurn hc hx hv ht =>
    have hk : s.cache.IsCell owner _ _ := h.fits _ _ hc
    exact ⟨owner, Sound.move h ⟨hk, _, hx, ht, hv⟩⟩
  | @enterEmpty c topic k x hc hx hv =>
    have keeps := Cache.keeps_enter h.tidy h.stocked c k
    have hk := keeps.grows.isCell (h.fits _ _ hc)
    refine ⟨owner, Sound.goTo_cache h keeps ?_⟩
    split
    · next ht => exact ⟨hk, Cache.hasTurn_enter hx hv ht⟩
    · exact hk
  | @created c topic k m hc =>
    obtain ⟨hk, ht⟩ : s.cache.IsCell owner topic k ∧ s.cache.HasTurn c k := h.fits _ _ hc
    have hnew : ∀ v t, s.topic? v = some t →
        ((s.handles.add { topic, mode := m }).get? v).map Handle.topic = some t := by
      intro v t hv
      have hlt : v ≠ s.handles.size := by
        rintro rfl
        rw [topic?, (Registry.get?_eq_none_iff _ _).2 (Nat.le_refl _)] at hv
        cases hv
      rw [Registry.get?_add, if_neg hlt]
      exact hv
    have hown : ((s.handles.add { topic, mode := m }).get? s.handles.size).map Handle.topic =
        some (owner k) := by
      rw [Registry.get?_add, if_pos rfl, hk.2]
      rfl
    have keeps := Cache.keeps_fill h.tidy (h.stocked.mono hnew) ht hown
    refine ⟨owner, Sound.goTo h keeps hnew rfl ⟨keeps.grows.isCell hk, ?_⟩⟩
    exact (Cache.value?_fill ht _ k).trans (if_pos rfl)
  | failed hc =>
    exact ⟨owner, Sound.goTo_cache h (Cache.keeps_pass h.tidy h.stocked (h.fits _ _ hc).2) trivial⟩
  | place hc hp => exact Sound.place h hc hp
  | @stopLoser _ _ _ v _ | @stopRefused _ v _ =>
    have hsame : ∀ u t, s.topic? u = some t → (s.stopLeasing v).topic? u = some t :=
      fun u t hu => (topic?_stopLeasing s v u).trans hu
    exact ⟨owner, Sound.goTo h (Cache.keeps_refl h.tidy (h.stocked.mono hsame) _) hsame rfl trivial⟩
  | abortWaiting hc =>
    exact ⟨owner, Sound.goTo_cache h (Cache.keeps_leave h.tidy h.stocked _ _) trivial⟩
  | drain => exact ⟨owner, Sound.take h rfl rfl fun h => h⟩
  | close => exact ⟨owner, Sound.take h rfl rfl fun _ => rfl⟩

theorem Run.sound {tr : List (Label × Overlap)} {s : Overlap} (h : Run tr s) :
    ∃ owner, Sound owner s := by
  induction h with
  | new => exact ⟨_, sound_empty⟩
  | step _ hs ih =>
    obtain ⟨owner, ih⟩ := ih
    exact ih.step hs

/-! ## 3. What one action does to the map and to the flags -/

/-- What becomes of the handle that the map has for topic `t`. -/
inductive MapMoves (s : Overlap) (l : Label) (s' : Overlap) (t : String) : Prop
  | same : s'.cache.handle? t = s.cache.handle? t → MapMoves s l s' t
  | filled {h : HandleId} : s.cache.handle? t = none → s'.cache.handle? t = some h →
      s'.isRetiring h = false → MapMoves s l s' t
  | removed {h : HandleId} : s.cache.handle? t = some h → s.isRetiring h = true →
      s'.cache.handle? t = none → MapMoves s l s' t
  | emptied : l = .drain ∨ l = .close → s'.cache.handle? t = none → MapMoves s l s' t

/-- Why a flag is up: it was before, or it went up just now. -/
inductive FlagUp (s : Overlap) (l : Label) (s' : Overlap) (h : HandleId) : Prop
  | before : s.isRetiring h = true → FlagUp s l s' h
  | loser {c : CallId} {t : String} {winner : HandleId} : l = .stop c →
      s.lookups.get? c = some (.losing t winner h) → FlagUp s l s' h
  | refused {c : CallId} : l = .stop c → s.lookups.get? c = some (.refusing h) → FlagUp s l s' h
  | emptied : s'.cache.handles = [] → FlagUp s l s' h

theorem isRetiring_add (s : Overlap) {x : Handle} (hx : x.retiring = false) (h : HandleId) :
    isRetiring { s with handles := s.handles.add x } h = s.isRetiring h := by
  unfold isRetiring
  rw [Registry.get?_add]
  split
  · next hh =>
    rw [hh, (Registry.get?_eq_none_iff _ _).2 (Nat.le_refl _)]
    exact hx
  · rfl

theorem Step.mapMoves {owner : CellId → String} {s s' : Overlap} {l : Label} (h : Sound owner s)
    (hs : Step s l s') (t : String) : MapMoves s l s' t := by
  cases hs with
  | @lookUp topic cache k ho hfor =>
    have hcell := Cache.cellFor_spec s.cache topic
    rw [hfor] at hcell
    exact .same (hcell.handle? h.tidy t)
  | refused | hit | miss | enterFilled | wakeFilled | wakeTurn | finish | abortWaning =>
    exact .same rfl
  | stopLoser | stopRefused => exact .same rfl
  | enterEmpty => exact .same (Cache.handle?_setCell_of_eq (fun y _ => Cache.value_enter y _) t)
  | failed => exact .same (Cache.handle?_setCell_of_eq (fun y _ => Cache.value_pass y) t)
  | abortWaiting => exact .same (Cache.handle?_setCell_of_eq (fun y _ => Cache.value_leave y _) t)
  | @created c topic k m hc =>
    obtain ⟨hk, ht⟩ : s.cache.IsCell owner topic k ∧ s.cache.HasTurn c k := h.fits _ _ hc
    have hafter := Cache.handle?_fill ht s.handles.size t
    split at hafter
    · next hcur =>
      refine .filled (ht.handle? hcur) hafter ?_
      refine (isRetiring_add s (x := { topic, mode := m }) rfl _).trans ?_
      unfold isRetiring
      rw [(Registry.get?_eq_none_iff _ _).2 (Nat.le_refl _)]
      rfl
    · exact .same hafter
  | @place c topic k v p cache hc hp =>
    have hv : s.cache.value? k = some v := (h.fits _ _ hc).2
    have hplaced := Cache.place_placed s.cache (s.isRetiring v) topic k v
    rw [hp] at hplaced
    cases hplaced with
    | closed | retired | kept | superseded => exact .same rfl
    | dropped _ hr hcur =>
      have hafter : ∀ t', ({ s.cache with entries := Entries.erase topic s.cache.entries } :
          Cache).handle? t' = if t' = topic then none else s.cache.handle? t' := by
        intro t'
        show (Entries.find? t' (Entries.erase topic s.cache.entries)).bind _ = _
        rw [Entries.find?_erase]
        split <;> rfl
      by_cases ht : t = topic
      · subst ht
        exact .removed (Cache.handle?_eq_some_iff.2 ⟨k, hcur, hv⟩) hr ((hafter t).trans (if_pos rfl))
      · exact .same ((hafter t).trans (if_neg ht))
    | adopted _ hr _ hnone =>
      have hafter := Cache.handle?_addCell h.tidy topic t { value := some v }
      split at hafter
      · next ht =>
        subst ht
        exact .filled hnone hafter hr
      · exact .same hafter
  | drain =>
    refine .emptied (.inl rfl) ?_
    rw [(take_frame s s.cache.take).1]
    rfl
  | close =>
    refine .emptied (.inr rfl) ?_
    rw [(take_frame s s.cache.shut).1]
    rfl

theorem Step.flagUp {s s' : Overlap} {l : Label} (hs : Step s l s') {h : HandleId}
    (hr : s'.isRetiring h = true) : FlagUp s l s' h := by
  cases hs with
  | lookUp | refused | hit | miss | enterFilled | enterEmpty | failed | wakeFilled | wakeTurn =>
    exact .before hr
  | place | finish | abortWaiting | abortWaning => exact .before hr
  | created _ => exact .before ((isRetiring_add s rfl h).symm.trans hr)
  | stopLoser hc =>
    rcases (isRetiring_stopLeasing s _ h).1 hr with hr | ⟨rfl, -⟩
    · exact .before hr
    · exact .loser rfl hc
  | stopRefused hc =>
    rcases (isRetiring_stopLeasing s _ h).1 hr with hr | ⟨rfl, -⟩
    · exact .before hr
    · exact .refused rfl hc
  | drain =>
    refine .emptied ?_
    rw [(take_frame s s.cache.take).1]
    rfl
  | close =>
    refine .emptied ?_
    rw [(take_frame s s.cache.shut).1]
    rfl

/-! ## 4. When the map stays clean -/

theorem Sound.clean_iff {owner : CellId → String} {s : Overlap} (h : Sound owner s) :
    s.Clean ↔ ∀ t v, s.cache.handle? t = some v → s.isRetiring v = false := by
  constructor
  · exact fun hc t v hv => hc v (Cache.mem_handles_of_handle? hv)
  · intro hc v hv
    obtain ⟨t, ht⟩ := h.tidy.mem_handles_iff.1 hv
    exact hc t v ht

/-- Only a superseded handle that is in the map when its flag goes up makes it unclean. -/
theorem Clean.step {owner : CellId → String} {s s' : Overlap} {l : Label} (h : Sound owner s)
    (hc : s.Clean) (hs : Step s l s') (hl : ¬ s.LoserCached l) : s'.Clean := by
  obtain ⟨owner', h'⟩ := h.step hs
  rw [h'.clean_iff]
  intro t v hv
  rw [h.clean_iff] at hc
  refine Bool.eq_false_iff.2 fun hr => ?_
  -- Either the map got a handle that is not retiring, or it had this one, whose flag then went up.
  cases hs.mapMoves h t with
  | filled _ hv' hr' =>
    rw [hv] at hv'
    cases hv'
    exact absurd (hr.symm.trans hr') nofun
  | removed _ _ hnone | emptied _ hnone => exact absurd (hv.symm.trans hnone) nofun
  | same hsame =>
    have hv₀ : s.cache.handle? t = some v := hsame ▸ hv
    cases hs.flagUp hr with
    | before hr₀ => exact absurd (hr₀.symm.trans (hc t v hv₀)) nofun
    | loser hl' hlook =>
      subst hl'
      exact hl ⟨_, _, v, hlook, Cache.mem_handles_of_handle? hv₀⟩
    | refused _ hlook =>
      -- A handle is refused only where the cache is closed, and then the map is empty.
      have hnil := h.tidy.closed (h.fits _ _ hlook)
      have hmem := Cache.mem_handles_of_handle? hv₀
      unfold Cache.handles at hmem
      rw [hnil] at hmem
      cases hmem
    | emptied hnil =>
      have hmem := Cache.mem_handles_of_handle? hv
      rw [hnil] at hmem
      cases hmem

/-- A superseded handle that is in the map when its flag goes up does make it unclean. -/
theorem LoserCached.not_clean {owner : CellId → String} {s s' : Overlap} {l : Label}
    (h : Sound owner s) (hs : Step s l s') (hl : s.LoserCached l) : ¬ s'.Clean := by
  cases hs with
  | @stopLoser c topic winner loser hc =>
    obtain ⟨t, w, v, hc', hv⟩ := hl
    cases hc.symm.trans hc'
    intro hclean
    have hr : (s.stopLeasing loser).isRetiring loser = true := by
      refine (isRetiring_stopLeasing s loser loser).2 (.inr ⟨rfl, ?_⟩)
      have htopic : s.topic? loser = some topic := h.fits _ _ hc
      obtain ⟨x, hx, -⟩ := Option.map_eq_some_iff.1 htopic
      rw [hx]
      rfl
    exact absurd (hr.symm.trans (hclean loser hv)) nofun
  | stopRefused hc =>
    obtain ⟨t, w, v, hc', -⟩ := hl
    cases hc.symm.trans hc'
  | _ => exact hl.elim

/-- While the flag of a superseded handle is about to go up, the map has another one for the topic. -/
def Guarded (s : Overlap) : Prop :=
  ∀ c t winner loser, s.lookups.get? c = some (.losing t winner loser) →
    ∃ v, s.cache.handle? t = some v ∧ v ≠ loser

theorem Guarded.not_loserCached {owner : CellId → String} {s : Overlap} (h : Sound owner s)
    (hg : s.Guarded) (l : Label) : ¬ s.LoserCached l := by
  cases l with
  | stop c =>
    rintro ⟨t, w, loser, hc, hmem⟩
    obtain ⟨v, hv, hne⟩ := hg c t w loser hc
    obtain ⟨t', ht'⟩ := h.tidy.mem_handles_iff.1 hmem
    obtain ⟨k, hk, hval⟩ := Cache.handle?_eq_some_iff.1 ht'
    -- The map holds a handle for no other topic than its own.
    have htopic : s.topic? loser = some t := h.fits _ _ hc
    have howner := h.stocked k loser hval
    rw [(h.tidy.current? hk).2, htopic] at howner
    cases howner
    exact hne (Option.some.inj (hv.symm.trans ht'))
  | _ => exact fun h => h

theorem losing_of_update {r : Registry Lookup} {c i : CallId} {p : Lookup} {t : String}
    {winner loser : HandleId} (h : (r.update c fun _ => p).get? i = some (.losing t winner loser))
    (hp : p ≠ .losing t winner loser) : r.get? i = some (.losing t winner loser) := by
  rcases Registry.get?_update_const h with ⟨-, hp'⟩ | ⟨-, h⟩
  · exact absurd hp'.symm hp
  · exact h

/-- A look-up whose handle is superseded was so before, or has just lost to the handle in the map. -/
theorem Step.losing {s s' : Overlap} {l : Label} (hs : Step s l s') {i : CallId} {t : String}
    {winner loser : HandleId} (h : s'.lookups.get? i = some (.losing t winner loser)) :
    s.lookups.get? i = some (.losing t winner loser) ∨
      ∃ v, s'.cache.handle? t = some v ∧ v ≠ loser := by
  cases hs with
  | lookUp | refused =>
    rw [Registry.get?_add] at h
    split at h
    · cases h
    · exact .inl h
  | @enterEmpty c =>
    refine .inl (losing_of_update h ?_)
    split <;> nofun
  | @place c topic k v p cache hc hp =>
    rcases Registry.get?_update_const h with ⟨-, hp'⟩ | ⟨-, h⟩
    · have hplaced := Cache.place_placed s.cache (s.isRetiring v) topic k v
      rw [hp] at hplaced
      cases hplaced with
      | superseded _ _ _ hother hne =>
        cases hp'
        exact .inr ⟨_, hother, hne⟩
      | _ => cases hp'
    · exact .inl h
  | drain =>
    rw [(take_frame s s.cache.take).2.1] at h
    exact .inl h
  | close =>
    rw [(take_frame s s.cache.shut).2.1] at h
    exact .inl h
  | hit | miss | enterFilled | created | failed | wakeFilled | wakeTurn =>
    exact .inl (losing_of_update h nofun)
  | stopLoser | stopRefused | finish | abortWaiting | abortWaning =>
    exact .inl (losing_of_update h nofun)

/-- The winner stays in the map as long as no drain takes it. -/
theorem Guarded.step {owner : CellId → String} {s s' : Overlap} {l : Label} (h : Sound owner s)
    (hc : s.Clean) (hg : s.Guarded) (hs : Step s l s') (hl : ¬ s.DrainsInGap l) : s'.Guarded := by
  intro c t winner loser hlosing
  rcases hs.losing hlosing with hlosing | hafter
  · obtain ⟨v, hv, hne⟩ := hg c t winner loser hlosing
    cases hs.mapMoves h t with
    | same hsame => exact ⟨v, hsame.trans hv, hne⟩
    | filled hnone => exact absurd (hnone.symm.trans hv) nofun
    | removed hv' hr =>
      -- Only a retiring handle is removed, and the map has none.
      rw [h.clean_iff] at hc
      exact absurd (hr.symm.trans (hc t _ hv')) nofun
    | emptied hdrain => exact absurd ⟨hdrain, c, t, winner, loser, hlosing⟩ hl
  · exact hafter

/-- The map has no retiring handle in any state of a run. -/
def CleanThroughout (tr : List (Label × Overlap)) (s : Overlap) : Prop :=
  ∀ s', s' ∈ s :: tr.map Prod.snd → s'.Clean

theorem Run.clean_of_losers_uncached {tr : List (Label × Overlap)} {s : Overlap} (h : Run tr s)
    (hl : ∀ l s₀, (l, s₀) ∈ tr → ¬ s₀.LoserCached l) : CleanThroughout tr s := by
  induction h with
  | new =>
    intro s' hs'
    rw [List.mem_singleton.1 hs']
    exact fun h hh => nomatch hh
  | @step tr s s' l h hs ih =>
    have ih := ih fun l' s₀ hm => hl l' s₀ (List.mem_cons_of_mem _ hm)
    obtain ⟨owner, hsound⟩ := h.sound
    intro s₁ hs₁
    rcases List.mem_cons.1 hs₁ with rfl | hs₁
    · exact (ih s List.mem_cons_self).step hsound hs (hl l s List.mem_cons_self)
    · exact ih s₁ hs₁

theorem Run.losers_uncached_of_clean {tr : List (Label × Overlap)} {s : Overlap} (h : Run tr s)
    (hc : CleanThroughout tr s) : ∀ l s₀, (l, s₀) ∈ tr → ¬ s₀.LoserCached l := by
  induction h with
  | new => exact fun _ _ hm => nomatch hm
  | @step tr s s' l h hs ih =>
    intro l' s₀ hm
    rcases List.mem_cons.1 hm with heq | hm
    · cases heq
      obtain ⟨owner, hsound⟩ := h.sound
      exact fun hl => hl.not_clean hsound hs (hc s' List.mem_cons_self)
    · exact ih (fun s₁ hs₁ => hc s₁ (List.mem_cons_of_mem _ hs₁)) l' s₀ hm

theorem Run.guarded_of_no_drain_in_gap {tr : List (Label × Overlap)} {s : Overlap} (h : Run tr s)
    (hl : ∀ l s₀, (l, s₀) ∈ tr → ¬ s₀.DrainsInGap l) :
    s.Clean ∧ s.Guarded ∧ ∀ l s₀, (l, s₀) ∈ tr → ¬ s₀.LoserCached l := by
  induction h with
  | new =>
    refine ⟨(fun _ hh => nomatch hh), ?_, (fun _ _ hm => nomatch hm)⟩
    intro c t w l hc
    simp at hc
  | @step tr s s' l h hs ih =>
    obtain ⟨hclean, hguard, hun⟩ := ih fun l' s₀ hm => hl l' s₀ (List.mem_cons_of_mem _ hm)
    obtain ⟨owner, hsound⟩ := h.sound
    have hnot := hguard.not_loserCached hsound l
    refine ⟨hclean.step hsound hs hnot, hguard.step hsound hclean hs (hl l s List.mem_cons_self), ?_⟩
    intro l' s₀ hm
    rcases List.mem_cons.1 hm with heq | hm
    · cases heq
      exact hnot
    · exact hun l' s₀ hm

/-- In a run, the map never has a retiring handle exactly if no superseded handle is in the map when its
flag goes up. It never has one in a run in which no drain falls into the gap before that. -/
theorem clean_iff_losers_uncached {tr : List (Label × Overlap)} {s : Overlap} (h : Run tr s) :
    (CleanThroughout tr s ↔ ∀ l s₀, (l, s₀) ∈ tr → ¬ s₀.LoserCached l) ∧
      ((∀ l s₀, (l, s₀) ∈ tr → ¬ s₀.DrainsInGap l) → CleanThroughout tr s) := by
  refine ⟨⟨h.losers_uncached_of_clean, h.clean_of_losers_uncached⟩, fun hl => ?_⟩
  exact h.clean_of_losers_uncached (h.guarded_of_no_drain_in_gap hl).2.2

/-- A drain that comes before a handle is superseded does no harm, though the handle's flag goes up long
after the drain. -/
theorem clean_iff_losers_uncached_one_drain :
    ∃ tr s, Run tr s ∧
      tr.map Prod.fst = [.stop 0, .place 0, .create 0 (.ok .sequential), .place 1,
        .create 1 (.ok .sequential), .enter 1, .read 1, .lookUp "t", .drain, .enter 0, .read 0,
        .lookUp "t"] ∧
      s.isRetiring 1 = true ∧ s.cache.handles = [0] ∧ (∀ l s₀, (l, s₀) ∈ tr → ¬ s₀.LoserCached l) ∧
      CleanThroughout tr s := by
  have h := Run.new
      |>.step (.lookUp (t := "t") rfl rfl) |>.step (.miss (c := 0) rfl rfl)
      |>.step (.enterEmpty (c := 0) rfl rfl rfl) |>.step .drain |>.step (.lookUp (t := "t") rfl rfl)
      |>.step (.miss (c := 1) rfl rfl) |>.step (.enterEmpty (c := 1) rfl rfl rfl)
      |>.step (.created (c := 1) (m := .sequential) rfl) |>.step (.place (c := 1) rfl rfl)
      |>.step (.created (c := 0) (m := .sequential) rfl) |>.step (.place (c := 0) rfl rfl)
      |>.step (.stopLoser (c := 0) rfl)
  have hclean := (clean_iff_losers_uncached h).2 (by
    rintro l s₀ hm ⟨hdrain, c, t, winner, loser, hc⟩
    rcases hdrain with rfl | rfl
    · simp only [List.mem_cons, Prod.mk.injEq, reduceCtorEq, false_and, true_and, false_or, or_false,
        List.not_mem_nil] at hm
      subst hm
      -- At the drain the only look-up is on its way to create handle `1`.
      replace hc := losing_of_update hc nofun
      replace hc := losing_of_update hc nofun
      rw [Registry.get?_add] at hc
      split at hc
      · cases hc
      · simp at hc
    · simp at hm)
  exact ⟨_, _, h, rfl, rfl, rfl, (clean_iff_losers_uncached h).1.1 hclean, hclean⟩

end Overlap

end TopicPublisher
