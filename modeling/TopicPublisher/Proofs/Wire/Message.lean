import TopicPublisher.Proofs.Conf
import TopicPublisher.Proofs.Except
import TopicPublisher.Proofs.Text.Order
import TopicPublisher.Wire.Message

/-!
# What a conf says to the wire client

The wire client visits the entries of a conf one after the other and stops at the first that is malformed.
What comes out is told here without the walk: `Valid` says what an entry must be, and `Carries` what a
message has from a conf.

Only five keys count. A message is five reads of the conf, in the order of those keys, and each of them
looks at one key alone (`ofSpec_eq_reads`). So all that a message depends on is what is under the five
keys.

Results:
1. `withEntry?_ne_none_iff`, `exists_applyAll_iff`, `applyAll_stops`: which entries are taken, and where the
   walk stops.
2. `ofSpec_eq_reads`: the five reads.
3. `message_of_conf`: the message, or the refusal, for every spec.
-/

namespace TopicPublisher

namespace WireMessage

/-! ## Definitions -/

/-- The keys that count, in ascending order. -/
def understood : List String :=
  [Conf.deliverAfterMs, Conf.deliverAtTime, Conf.eventTime, Conf.key, Conf.properties]

/-- What an entry must be at the time `now`. Under any other key, every value is valid. -/
@[mk_iff]
structure Valid (now : Nat) (k : String) (x : Json) : Prop where
  key : k = Conf.key → ∃ s, x = .str s
  eventTime : k = Conf.eventTime → ∃ t : Nat, x = .int t ∧ t ≤ Word.maxUnsigned
  deliverAtTime : k = Conf.deliverAtTime → ∃ t : Nat, x = .int t ∧ t ≤ Word.maxSigned
  deliverAfterMs : k = Conf.deliverAfterMs →
    ∃ d : Nat, x = .int d ∧ d ≤ Word.maxUnsigned ∧ d + now ≤ Word.maxSigned
  properties : k = Conf.properties → ∃ entries, x = .obj entries

/-- How a value stands in a property: a text as it is, anything else as JSON. -/
inductive StandsAs : Json → String → Prop
  | text (s : String) : StandsAs (.str s) s
  | other {x : Json} : (∀ s, x ≠ .str s) → StandsAs x x.text

/-- The message has the payload of the spec, and from its conf what the five keys say and nothing else. -/
structure Carries (now : Nat) (spec : MessageSpec) (m : WireMessage) : Prop where
  payload : m.payload = spec.payload
  partitionKey : ∀ s, m.partitionKey = some s ↔ spec.conf.get? Conf.key = some (.str s)
  eventTime : ∀ t : Nat, m.eventTime = some t ↔ spec.conf.get? Conf.eventTime = some (.int t)
  /-- A time that is given itself goes before one that is given by its distance from now. -/
  deliverAt : ∀ t : Nat, m.deliverAt = some t ↔
    spec.conf.get? Conf.deliverAtTime = some (.int t) ∨
      spec.conf.get? Conf.deliverAtTime = none ∧
        ∃ d : Nat, spec.conf.get? Conf.deliverAfterMs = some (.int d) ∧ t = now + d
  noProperties : spec.conf.get? Conf.properties = none → m.properties = []
  properties : ∀ entries, spec.conf.get? Conf.properties = some (.obj entries) →
    List.Forall₂ (fun e p => p.1 = e.1 ∧ StandsAs e.2 p.2) entries m.properties

/-- Reads what is under a key, if there is anything. -/
def read {α : Type} (c : Conf) (k : String) (f : Json → Option α) : Except ClientError (Option α) :=
  match c.get? k with
  | none => .ok none
  | some x =>
    match f x with
    | some a => .ok (some a)
    | none => .error (malformed k x)

/-! ## 1. The walk over the entries -/

variable {now : Nat} {m : WireMessage} {c : Conf} {k : String} {x : Json}
  {entries : List (String × Json)}

theorem key?_eq_some_iff {s : String} : key? x = some s ↔ x = .str s := by
  cases x <;> simp [key?]

theorem unsigned?_eq_some_iff {n : Nat} : unsigned? x = some n ↔ x = .int n ∧ n ≤ Word.maxUnsigned := by
  cases x with
  | int i =>
    rw [unsigned?, Option.ite_none_right_eq_some, Option.some.injEq, Json.int.injEq]
    omega
  | _ => simp [unsigned?]

theorem deliveryTime?_eq_some_iff {t : Nat} :
    deliveryTime? x = some t ↔ x = .int t ∧ t ≤ Word.maxSigned := by
  simp only [deliveryTime?, Option.bind_eq_some_iff, unsigned?_eq_some_iff,
    Option.ite_none_right_eq_some, Option.some.injEq]
  constructor
  · rintro ⟨t, ⟨rfl, -⟩, hle, rfl⟩
    exact ⟨rfl, hle⟩
  · rintro ⟨rfl, hle⟩
    exact ⟨t, ⟨rfl, Nat.le_trans hle (by decide)⟩, hle, rfl⟩

theorem deliveryAfter?_eq_some_iff {t : Nat} : deliveryAfter? now x = some t ↔
    ∃ d : Nat, x = .int d ∧ d ≤ Word.maxUnsigned ∧ d + now ≤ Word.maxSigned ∧ t = now + d := by
  simp only [deliveryAfter?, Option.bind_eq_some_iff, unsigned?_eq_some_iff,
    Option.ite_none_right_eq_some, Option.some.injEq]
  constructor
  · rintro ⟨d, ⟨rfl, hd⟩, hle, rfl⟩
    exact ⟨d, rfl, hd, hle, Nat.add_comm d now⟩
  · rintro ⟨d, rfl, hd, hle, rfl⟩
    exact ⟨d, ⟨rfl, hd⟩, hle, Nat.add_comm d now⟩

theorem properties?_eq_some_iff {ps : List (String × String)} : properties? x = some ps ↔
    ∃ es, x = .obj es ∧ ps = es.map fun e => (e.1, propertyText e.2) := by
  cases x <;> simp [properties?, eq_comm]

theorem withEntry?_key (now : Nat) (m : WireMessage) (x : Json) :
    m.withEntry? now Conf.key x = (key? x).map fun s => { m with partitionKey := some s } := rfl

theorem withEntry?_eventTime (now : Nat) (m : WireMessage) (x : Json) :
    m.withEntry? now Conf.eventTime x = (unsigned? x).map fun t => { m with eventTime := some t } := rfl

theorem withEntry?_deliverAtTime (now : Nat) (m : WireMessage) (x : Json) :
    m.withEntry? now Conf.deliverAtTime x =
      (deliveryTime? x).map fun t => { m with deliverAt := some t } := rfl

theorem withEntry?_deliverAfterMs (now : Nat) (m : WireMessage) (x : Json) :
    m.withEntry? now Conf.deliverAfterMs x =
      (deliveryAfter? now x).map fun t => { m with deliverAt := some t } := rfl

theorem withEntry?_properties (now : Nat) (m : WireMessage) (x : Json) :
    m.withEntry? now Conf.properties x = (properties? x).map fun ps => { m with properties := ps } := rfl

theorem withEntry?_of_not_mem (h : k ∉ understood) : m.withEntry? now k x = some m := by
  simp only [understood, List.mem_cons, List.not_mem_nil, or_false, not_or] at h
  obtain ⟨hafter, hat, hevent, hkey, hprops⟩ := h
  unfold withEntry?
  rw [if_neg hkey, if_neg hevent, if_neg hat, if_neg hafter, if_neg hprops]

theorem valid_of_not_mem (h : k ∉ understood) : Valid now k x := by
  simp only [understood, List.mem_cons, List.not_mem_nil, or_false, not_or] at h
  obtain ⟨hafter, hat, hevent, hkey, hprops⟩ := h
  exact ⟨fun h => absurd h hkey, fun h => absurd h hevent, fun h => absurd h hat,
    fun h => absurd h hafter, fun h => absurd h hprops⟩

theorem map_ne_none_iff {α β : Type} {f : α → β} {o : Option α} :
    o.map f ≠ none ↔ ∃ a, o = some a := by
  cases o <;> simp

/-- An entry is taken exactly if it is valid. -/
theorem withEntry?_ne_none_iff (now : Nat) (m : WireMessage) (k : String) (x : Json) :
    m.withEntry? now k x ≠ none ↔ Valid now k x := by
  by_cases hk : k ∈ understood
  · simp only [understood, List.mem_cons, List.not_mem_nil, or_false] at hk
    -- Under each key it is what the read of that key takes; the other demands are about other keys.
    rcases hk with rfl | rfl | rfl | rfl | rfl <;>
      simp only [withEntry?_deliverAfterMs, withEntry?_deliverAtTime, withEntry?_eventTime, withEntry?_key,
        withEntry?_properties, map_ne_none_iff, deliveryAfter?_eq_some_iff, deliveryTime?_eq_some_iff,
        unsigned?_eq_some_iff, key?_eq_some_iff, properties?_eq_some_iff, valid_iff] <;>
      simp [Conf.key, Conf.eventTime, Conf.deliverAtTime, Conf.deliverAfterMs, Conf.properties]
  · rw [withEntry?_of_not_mem hk]
    exact ⟨fun _ => valid_of_not_mem hk, fun _ => nofun⟩

/-- The walk gets to the end exactly if all entries are valid. -/
theorem exists_applyAll_iff :
    (∃ m', applyAll now m entries = .ok m') ↔ ∀ e ∈ entries, Valid now e.1 e.2 := by
  induction entries generalizing m with
  | nil => simp [applyAll]
  | cons e rest ih =>
    rw [List.forall_mem_cons, ← withEntry?_ne_none_iff now m, applyAll]
    cases m.withEntry? now e.1 e.2 with
    | none => simp
    | some m₁ => simp [ih]

/-- The walk stops at the first entry that is not valid, and says which it is. -/
theorem applyAll_stops {e : ClientError} (h : applyAll now m entries = .error e) :
    ∃ before k x after, entries = before ++ (k, x) :: after ∧ (∀ p ∈ before, Valid now p.1 p.2) ∧
      ¬ Valid now k x ∧ e = malformed k x := by
  induction entries generalizing m with
  | nil => cases h
  | cons head rest ih =>
    obtain ⟨k, x⟩ := head
    have hvalid := withEntry?_ne_none_iff now m k x
    rw [applyAll] at h
    cases hm : m.withEntry? now k x with
    | none =>
      rw [hm] at h hvalid
      cases h
      exact ⟨[], k, x, rest, rfl, nofun, fun hx => hvalid.2 hx rfl, rfl⟩
    | some m₁ =>
      rw [hm] at h hvalid
      obtain ⟨before, k', x', after, rfl, hbefore, hx', rfl⟩ := ih h
      exact ⟨(k, x) :: before, k', x', after, rfl,
        List.forall_mem_cons.2 ⟨hvalid.1 nofun, hbefore⟩, hx', rfl⟩

/-! ## 2. The five reads -/

theorem applyAll_filter (now : Nat) (m : WireMessage) (entries : List (String × Json)) :
    applyAll now m (entries.filter (·.1 ∈ understood)) = applyAll now m entries := by
  induction entries generalizing m with
  | nil => rfl
  | cons e rest ih =>
    rw [List.filter_cons]
    split
    · rw [applyAll, applyAll]
      cases m.withEntry? now e.1 e.2 with
      | none => rfl
      | some m₁ => exact ih m₁
    · next hk =>
      rw [ih, applyAll, withEntry?_of_not_mem (by simpa using hk)]

/-- Applies what is under one key. -/
def look (now : Nat) (c : Conf) (m : WireMessage) (k : String) : Except ClientError WireMessage :=
  applyAll now m ((c.get? k).map (k, ·)).toList

theorem applyAll_filterMap (now : Nat) (c : Conf) (m : WireMessage) (keys : List String) :
    applyAll now m (keys.filterMap fun k => (c.get? k).map (k, ·)) = keys.foldlM (look now c) m := by
  induction keys generalizing m with
  | nil => rfl
  | cons k keys ih =>
    rw [List.filterMap_cons, List.foldlM_cons, look]
    cases c.get? k with
    | none => exact ih m
    | some x =>
      simp only [Option.map_some, Option.toList_some, applyAll]
      cases m.withEntry? now k x with
      | none => rfl
      | some m₁ => exact ih m₁

/-- To make a message is to look at the keys that count, one after the other. -/
theorem ofSpec_eq_foldlM (now : Nat) (spec : MessageSpec) :
    ofSpec now spec = understood.foldlM (look now spec.conf) { payload := spec.payload } := by
  have hsorted : understood.Pairwise (· < ·) := by decide
  calc ofSpec now spec
    _ = applyAll now { payload := spec.payload } (spec.conf.entries.filter (·.1 ∈ understood)) :=
      (applyAll_filter _ _ _).symm
    _ = understood.foldlM (look now spec.conf) { payload := spec.payload } := by
      rw [spec.conf.sorted.filter_keys_eq hsorted]
      exact applyAll_filterMap _ _ _ _

/-- Looking at a key whose value goes to one field of the message. -/
theorem look_eq_read {α : Type} {f : Json → Option α} (set : WireMessage → Option α → WireMessage)
    (hnone : ∀ m, set m none = m)
    (hsome : ∀ m x, m.withEntry? now k x = (f x).map fun a => set m (some a)) (c : Conf)
    (m : WireMessage) : look now c m k = do return set m (← read c k f) := by
  unfold look read
  cases c.get? k with
  | none => exact congrArg Except.ok (hnone m).symm
  | some x =>
    simp only [Option.map_some, Option.toList_some, applyAll, hsome]
    cases f x <;> rfl

/-- A message is made by five reads, each of one key. -/
theorem ofSpec_eq_reads (now : Nat) (spec : MessageSpec) : ofSpec now spec = (do
    let after ← read spec.conf Conf.deliverAfterMs (deliveryAfter? now)
    let time ← read spec.conf Conf.deliverAtTime deliveryTime?
    let event ← read spec.conf Conf.eventTime unsigned?
    let key ← read spec.conf Conf.key key?
    let props ← read spec.conf Conf.properties properties?
    return {
      payload := spec.payload
      partitionKey := key
      eventTime := event
      deliverAt := time.or after
      properties := props.getD [] }) := by
  rw [ofSpec_eq_foldlM]
  have hafter := look_eq_read (fun m t => { m with deliverAt := t.or m.deliverAt })
    (fun _ => rfl) (withEntry?_deliverAfterMs now)
  have htime := look_eq_read (fun m t => { m with deliverAt := t.or m.deliverAt })
    (fun _ => rfl) (withEntry?_deliverAtTime now)
  have hevent := look_eq_read (fun m t => { m with eventTime := t.or m.eventTime })
    (fun _ => rfl) (withEntry?_eventTime now)
  have hkey := look_eq_read (fun m s => { m with partitionKey := s.or m.partitionKey })
    (fun _ => rfl) (withEntry?_key now)
  have hprops := look_eq_read (fun m ps => { m with properties := ps.getD m.properties })
    (fun _ => rfl) (withEntry?_properties now)
  simp only [understood, List.foldlM_cons, List.foldlM_nil, hafter, htime, hevent, hkey, hprops,
    bind_assoc, pure_bind, bind_pure, Option.or_none]

/-! ## 3. The message -/

theorem read_eq_ok_iff {α : Type} {f : Json → Option α} {o : Option α} :
    read c k f = .ok o ↔ (c.get? k).map f = o.map some := by
  unfold read
  cases c.get? k with
  | none => cases o <;> simp
  | some x => cases hf : f x <;> cases o <;> simp [hf]

/-- Nothing was read exactly if nothing is there. -/
theorem read_eq_none_iff {α : Type} {f : Json → Option α} {o : Option α} (h : read c k f = .ok o) :
    o = none ↔ c.get? k = none := by
  have hmap := read_eq_ok_iff.1 h
  rw [← Option.map_eq_none_iff (f := some), ← hmap, Option.map_eq_none_iff]

/-- What is there was read. -/
theorem exists_of_read {α : Type} {f : Json → Option α} {o : Option α} (h : read c k f = .ok o)
    (hx : c.get? k = some x) : ∃ a, f x = some a ∧ o = some a := by
  have hmap := read_eq_ok_iff.1 h
  rw [hx, Option.map_some, eq_comm, Option.map_eq_some_iff] at hmap
  obtain ⟨a, rfl, ha⟩ := hmap
  exact ⟨a, ha.symm, rfl⟩

/-- What was read is there. -/
theorem exists_of_read_eq_some {α : Type} {f : Json → Option α} {a : α}
    (h : read c k f = .ok (some a)) : ∃ x, c.get? k = some x ∧ f x = some a := by
  have hmap := read_eq_ok_iff.1 h
  exact Option.map_eq_some_iff.1 hmap

/-- A value that can be written in one way only is read exactly where it is there. -/
theorem read_eq_some_iff {α : Type} {f : Json → Option α} {o : Option α} (write : α → Json)
    (hwrite : ∀ x a, f x = some a → x = write a) (hinj : ∀ a a', write a = write a' → a = a')
    (h : read c k f = .ok o) (a : α) : o = some a ↔ c.get? k = some (write a) := by
  constructor
  · rintro rfl
    obtain ⟨x, hx, ha⟩ := exists_of_read_eq_some h
    rw [hx, hwrite x a ha]
  · intro hx
    obtain ⟨a', ha', rfl⟩ := exists_of_read h hx
    rw [hinj a a' (hwrite _ _ ha')]

theorem int_inj {n n' : Nat} (h : Json.int n = .int n') : n = n' := Int.ofNat_inj.1 (Json.int.inj h)

theorem standsAs_propertyText (x : Json) : StandsAs x (propertyText x) := by
  cases x with
  | str s => exact .text s
  | _ => exact .other nofun

theorem carries_of_ofSpec {spec : MessageSpec} (h : ofSpec now spec = .ok m) : Carries now spec m := by
  rw [ofSpec_eq_reads] at h
  simp only [bind_eq_ok_iff] at h
  obtain ⟨after, hafter, time, htime, event, hevent, key, hkey, props, hprops, hm⟩ := h
  cases hm
  refine ⟨rfl, ?_, ?_, fun t => ?_, fun hnone => ?_, fun entries hx => ?_⟩
  · exact read_eq_some_iff .str (fun _ _ => key?_eq_some_iff.1) (fun _ _ => Json.str.inj) hkey
  · exact read_eq_some_iff (fun t : Nat => .int t) (fun _ _ h => (unsigned?_eq_some_iff.1 h).1)
      (fun _ _ => int_inj) hevent
  · have hat := read_eq_some_iff (fun t : Nat => .int t)
      (fun _ _ h => (deliveryTime?_eq_some_iff.1 h).1) (fun _ _ => int_inj) htime t
    have hby : after = some t ↔
        ∃ d : Nat, spec.conf.get? Conf.deliverAfterMs = some (.int d) ∧ t = now + d := by
      constructor
      · rintro rfl
        obtain ⟨x, hx, ht⟩ := exists_of_read_eq_some hafter
        obtain ⟨d, rfl, -, -, rfl⟩ := deliveryAfter?_eq_some_iff.1 ht
        exact ⟨d, hx, rfl⟩
      · rintro ⟨d, hx, rfl⟩
        obtain ⟨t, ht, rfl⟩ := exists_of_read hafter hx
        obtain ⟨d', hd, -, -, rfl⟩ := deliveryAfter?_eq_some_iff.1 ht
        rw [int_inj hd]
    rw [Option.or_eq_some_iff, hat, read_eq_none_iff htime, hby]
  · rw [(read_eq_none_iff hprops).2 hnone]
    rfl
  · obtain ⟨ps, hps, rfl⟩ := exists_of_read hprops hx
    obtain ⟨_, hobj, rfl⟩ := properties?_eq_some_iff.1 hps
    cases hobj
    rw [Option.getD_some, List.forall₂_map_right_iff]
    exact List.forall₂_same.2 fun e _ => ⟨rfl, standsAs_propertyText e.2⟩

/-- A spec that is refused is refused for the first entry that is not valid. -/
theorem ofSpec_stops {spec : MessageSpec} {e : ClientError} (h : ofSpec now spec = .error e) :
    ∃ k x, spec.conf.get? k = some x ∧ ¬ Valid now k x ∧
      (∀ k' x', spec.conf.get? k' = some x' → ¬ Valid now k' x' → k' = k ∨ k < k') ∧
      e = malformed k x := by
  obtain ⟨before, k, x, after, hentries, hbefore, hx, rfl⟩ := applyAll_stops h
  have hget : ∀ k' x', spec.conf.get? k' = some x' ↔ (k', x') ∈ spec.conf.entries := fun _ _ =>
    spec.conf.sorted.find?_eq_some_iff
  have hsorted := spec.conf.sorted
  rw [hentries, Json.Sorted, List.pairwise_append, List.pairwise_cons] at hsorted
  refine ⟨k, x, (hget k x).2 (hentries ▸ List.mem_append_right _ List.mem_cons_self), hx,
    fun k' x' hget' hx' => ?_, rfl⟩
  have hmem := (hget k' x').1 hget'
  rw [hentries, List.mem_append, List.mem_cons] at hmem
  rcases hmem with hmem | hmem | hmem
  · exact absurd (hbefore _ hmem) hx'
  · exact .inl (Prod.mk.inj hmem).1
  · exact .inr (hsorted.2.1.1 _ hmem)

theorem read_congr {α : Type} {f : Json → Option α} {c' : Conf} (h : c'.get? k = c.get? k) :
    read c' k f = read c k f := by
  unfold read
  rw [h]

/-- What is under the five keys is all that a message depends on besides its payload. -/
theorem ofSpec_congr {spec spec' : MessageSpec} (hpayload : spec'.payload = spec.payload)
    (h : ∀ k ∈ understood, spec'.conf.get? k = spec.conf.get? k) :
    ofSpec now spec' = ofSpec now spec := by
  simp only [understood, List.forall_mem_cons] at h
  obtain ⟨hafter, htime, hevent, hkey, hprops, -⟩ := h
  rw [ofSpec_eq_reads, ofSpec_eq_reads, hpayload, read_congr hafter, read_congr htime,
    read_congr hevent, read_congr hkey, read_congr hprops]

/-- A message is made exactly if under each of the five keys there is nothing or what must be there, and
it has what they say: no entry sets anything else, and of the two delivery times the absolute one goes
first. Otherwise the spec is refused, and the refusal names, of the entries that are not valid, the one
whose key is first in the order of bytes, with its value. Entries under other keys and the schema make no
difference, and neither does the order in which a conf was built, as long as the entries under each key
were put in in the same order. -/
theorem message_of_conf (now : Nat) (spec : MessageSpec) :
    ((∃ m, ofSpec now spec = .ok m) ↔ ∀ k x, spec.conf.get? k = some x → Valid now k x) ∧
    (∀ m, ofSpec now spec = .ok m → Carries now spec m) ∧
    (∀ e, ofSpec now spec = .error e → ∃ k x, spec.conf.get? k = some x ∧ ¬ Valid now k x ∧
      (∀ k' x', spec.conf.get? k' = some x' → ¬ Valid now k' x' →
        k' = k ∨ Utf8.encode k < Utf8.encode k') ∧
      e = .rejected ("invalid value for message conf '" ++ k ++ "': " ++ x.text)) ∧
    (∀ spec' : MessageSpec, spec'.payload = spec.payload →
      (∀ k ∈ understood, spec'.conf.get? k = spec.conf.get? k) → ofSpec now spec' = ofSpec now spec) ∧
    ∀ entries entries' : List (String × Json),
      (∀ k ∈ understood, entries.filter (·.1 = k) = entries'.filter (·.1 = k)) →
      ofSpec now (spec.withEntries entries) = ofSpec now (spec.withEntries entries') := by
  refine ⟨?_, fun m h => carries_of_ofSpec h, fun e h => ?_, fun _ => ofSpec_congr,
    fun entries entries' h => ?_⟩
  · rw [ofSpec, exists_applyAll_iff]
    constructor
    · exact fun h k x hx => h (k, x) (Entries.mem_of_find? hx)
    · exact fun h e he => h e.1 e.2 (spec.conf.sorted.find?_eq_some_iff.2 he)
  · obtain ⟨k, x, hget, hx, hfirst, rfl⟩ := ofSpec_stops h
    exact ⟨k, x, hget, hx,
      fun k' x' hget' hx' => (hfirst k' x' hget' hx').imp_right Utf8.encode_lt_encode_iff.2, rfl⟩
  · rw [spec.withEntries_eq, spec.withEntries_eq]
    refine ofSpec_congr rfl fun k hk => ?_
    rw [Conf.get?_insertAll, Conf.get?_insertAll, h k hk]

/-- A delivery a millisecond beyond the latest time, in a conf with another malformed entry, whichever of
them is put in first; and a delivery at the latest time. -/
theorem message_of_conf_late :
    let late : Json := .int 9223372036854774808
    let spec := MessageSpec.withEntries {} [(Conf.key, .int 12), (Conf.deliverAfterMs, late)]
    ofSpec 1000 spec =
      .error (.rejected "invalid value for message conf 'deliverAfterMs': 9223372036854774808") ∧
    ofSpec 1000 (MessageSpec.withEntries {} [(Conf.deliverAfterMs, late), (Conf.key, .int 12)]) =
      ofSpec 1000 spec ∧
    ∃ m, ofSpec 999 (MessageSpec.withEntries {} [(Conf.deliverAfterMs, late)]) = .ok m ∧
      m.deliverAt = some Word.maxSigned := by
  intro late spec
  have hsame : ∀ k ∈ understood,
      [(Conf.deliverAfterMs, late), (Conf.key, .int 12)].filter (·.1 = k) =
        [(Conf.key, .int 12), (Conf.deliverAfterMs, late)].filter (·.1 = k) := by
    simp [understood, Conf.key, Conf.eventTime, Conf.deliverAtTime, Conf.deliverAfterMs, Conf.properties]
  have hcarries := (message_of_conf 999 (MessageSpec.withEntries {} [(Conf.deliverAfterMs, late)])).2.1 _ rfl
  exact ⟨by decide +kernel, (message_of_conf 1000 {}).2.2.2.2 _ _ hsame, _, rfl,
    (hcarries.deliverAt _).2 (.inr ⟨rfl, 9223372036854774808, rfl, rfl⟩)⟩

end WireMessage

end TopicPublisher
