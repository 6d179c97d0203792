import TopicPublisher.Envelope
import TopicPublisher.Proofs.Text.Utf8

/-!
# What an envelope says to the converter

The converter looks at two headers. Each of them is absent, or says a text, or is malformed, and that is
all that counts: `HeaderValue.Says` has one rule for a text and one for the bytes of a text, whichever of
the two a sender uses, and `HeaderValue.Malformed` has the words for every other value. What comes out is
told by these alone: `Envelope.Means` is the message, and `Envelope.Fails` has the errors, in the order in
which they go before each other.

Results:
1. `HeaderValue.read_eq_ok_iff`, `HeaderValue.read_eq_error_iff`: a value says one text or is malformed.
2. `Envelope.convert_eq_ok_iff`, `Envelope.convert_eq_error_iff`: the message and the errors.
3. `Envelope.convert_congr`: nothing else counts.
4. `Envelope.message_of_envelope`: every envelope.
-/

namespace TopicPublisher

/-! ## Definitions -/

namespace HeaderValue

/-- The bytes of a text, as the standard library has them. -/
def encoded (s : String) : HeaderValue := .binary s.toUTF8.data.toList

/-- A readable value, and its text. -/
inductive Says : HeaderValue → String → Prop
  | text (s : String) : Says (.text s) s
  | bytes (s : String) : Says (encoded s) s

/-- A value without a text, and the words for what it is. -/
inductive Malformed : HeaderValue → String → Prop
  | bytes {bytes : Bytes} : (∀ s, .binary bytes ≠ encoded s) →
      Malformed (.binary bytes) "non-UTF-8 binary"
  | integer (n : Int) : Malformed (.integer n) "integer"
  | boolean (b : Bool) : Malformed (.boolean b) "boolean"

end HeaderValue

namespace Envelope

open HeaderValue (Says Malformed)

/-- The header is there and says the text. -/
def HeaderSays (e : Envelope) (name text : String) : Prop :=
  ∃ v, e.header? name = some v ∧ v.Says text

/-- The header is there and malformed. -/
def HeaderMalformed (e : Envelope) (name found : String) : Prop :=
  ∃ v, e.header? name = some v ∧ v.Malformed found

/-- The topic of an envelope: that of its header, or the default one where there is no header. -/
inductive Topic (e : Envelope) (defaultTopic : Option String) : String → Prop
  | named {topic : String} : e.HeaderSays topicHeader topic → Topic e defaultTopic topic
  | fallback {topic : String} : e.header? topicHeader = none → defaultTopic = some topic →
      Topic e defaultTopic topic

/-- The message that an envelope stands for. -/
structure Means (e : Envelope) (defaultTopic : Option String) (m : OutboundMessage) : Prop where
  topic : e.Topic defaultTopic m.topic
  payload : m.spec.payload = e.payload
  schema : m.spec.schema = none
  /-- There is one entry for a routing key, and otherwise none. -/
  conf : (e.header? keyHeader = none ∧ m.spec.conf.entries = []) ∨
    ∃ key, e.HeaderSays keyHeader key ∧ m.spec.conf.entries = [("key", .str key)]

/-- Why an envelope stands for no message. A topic that cannot be read goes before one that is missing, and
both go before a key that cannot be read. -/
inductive Fails (e : Envelope) (defaultTopic : Option String) : Error → Prop
  | topic {found : String} : e.HeaderMalformed topicHeader found →
      Fails e defaultTopic (.malformedHeader "pulsar_topic" found)
  | noTopic : e.header? topicHeader = none → defaultTopic = none → Fails e defaultTopic .noDefaultTopic
  | key {topic found : String} : e.Topic defaultTopic topic → e.HeaderMalformed keyHeader found →
      Fails e defaultTopic (.malformedHeader "pulsar_key" found)

/-- The header is the same in both envelopes, or says the same text in both. -/
def SameHeader (e e' : Envelope) (name : String) : Prop :=
  e'.header? name = e.header? name ∨ ∃ s, e.HeaderSays name s ∧ e'.HeaderSays name s

/-- Sets a header. -/
def withHeader (e : Envelope) (name : String) (v : HeaderValue) : Envelope :=
  { e with headers := Entries.putLast name v e.headers }

/-- Takes a header away. -/
def withoutHeader (e : Envelope) (name : String) : Envelope :=
  { e with headers := Entries.erase name e.headers }

end Envelope

/-! ## 1. Values -/

namespace HeaderValue

variable {v : HeaderValue} {bytes : Bytes} {s found : String}

theorem says_binary_iff : (binary bytes).Says s ↔ Utf8.text? bytes = some s := by
  rw [Utf8.text?_eq_some_iff, Utf8.encode_eq_toUTF8]
  constructor
  · intro h
    cases h
    rfl
  · rintro rfl
    exact .bytes s

theorem malformed_binary_iff :
    (binary bytes).Malformed found ↔ Utf8.text? bytes = none ∧ found = "non-UTF-8 binary" := by
  have hno : (∀ s, .binary bytes ≠ encoded s) ↔ Utf8.text? bytes = none := by
    rw [Option.eq_none_iff_forall_ne_some]
    refine forall_congr' fun s => not_congr ?_
    rw [← says_binary_iff]
    exact ⟨fun h => h ▸ .bytes s, fun h => by cases h; rfl⟩
  rw [← hno]
  constructor
  · intro h
    cases h with
    | bytes h => exact ⟨h, rfl⟩
  · rintro ⟨h, rfl⟩
    exact .bytes h

/-- A value is read exactly if it says a text, and then it is that text. -/
theorem read_eq_ok_iff : v.read = .ok s ↔ v.Says s := by
  cases v with
  | text t =>
    constructor
    · rintro ⟨⟩
      exact .text _
    · rintro ⟨⟩
      rfl
  | binary bytes =>
    rw [says_binary_iff, read]
    cases Utf8.text? bytes <;> simp
  | integer | boolean => exact ⟨nofun, nofun⟩

theorem read_eq_error_iff : v.read = .error found ↔ v.Malformed found := by
  cases v with
  | text => exact ⟨nofun, nofun⟩
  | binary bytes =>
    rw [malformed_binary_iff, read]
    cases Utf8.text? bytes <;> simp [eq_comm]
  | integer n =>
    constructor
    · rintro ⟨⟩
      exact .integer n
    · rintro ⟨⟩
      rfl
  | boolean b =>
    constructor
    · rintro ⟨⟩
      exact .boolean b
    · rintro ⟨⟩
      rfl

end HeaderValue

/-! ## 2. Envelopes -/

namespace Envelope

variable {e e' : Envelope} {d : Option String} {m : OutboundMessage} {err : Error}
  {name s found : String}

theorem textHeader_eq_none_iff : e.textHeader name = .ok none ↔ e.header? name = none := by
  unfold textHeader
  cases e.header? name with
  | none => exact ⟨fun _ => rfl, fun _ => rfl⟩
  | some v =>
    dsimp only
    cases v.read <;> exact ⟨nofun, nofun⟩

theorem textHeader_eq_some_iff : e.textHeader name = .ok (some s) ↔ e.HeaderSays name s := by
  unfold textHeader HeaderSays
  cases e.header? name with
  | none => exact ⟨nofun, nofun⟩
  | some v =>
    simp only [Option.some.injEq, exists_eq_left', ← HeaderValue.read_eq_ok_iff]
    cases v.read <;> simp

theorem textHeader_eq_error_iff :
    e.textHeader name = .error err ↔
      ∃ found, e.HeaderMalformed name found ∧ err = .malformedHeader name found := by
  unfold textHeader HeaderMalformed
  cases e.header? name with
  | none => exact ⟨nofun, nofun⟩
  | some v =>
    simp only [Option.some.injEq, exists_eq_left', ← HeaderValue.read_eq_error_iff]
    cases v.read <;> simp [eq_comm]

/-- Where the converter has a topic, it goes on with the key. -/
theorem convert_of_topic (h : e.Topic d s) : e.convert d =
    match e.textHeader keyHeader with
    | .error err => .error err
    | .ok none => .ok ⟨s, .ofPayload e.payload⟩
    | .ok (some key) => .ok ⟨s, (MessageSpec.ofPayload e.payload).withConfEntry Conf.key (.str key)⟩ := by
  unfold convert
  cases h with
  | named h => rw [textHeader_eq_some_iff.2 h]; rfl
  | fallback hnone hd => rw [textHeader_eq_none_iff.2 hnone, hd]; rfl

theorem convert_of_not_topic (h : ∀ s, ¬ e.Topic d s) : e.convert d =
    match e.textHeader topicHeader with
    | .error err => .error err
    | .ok _ => .error .noDefaultTopic := by
  unfold convert
  cases ht : e.textHeader topicHeader with
  | error => rfl
  | ok named =>
    cases named with
    | some s => exact absurd (.named (textHeader_eq_some_iff.1 ht)) (h s)
    | none =>
      cases d with
      | some s => exact absurd (.fallback (textHeader_eq_none_iff.1 ht) rfl) (h s)
      | none => rfl

theorem convert_eq_ok_iff : e.convert d = .ok m ↔ e.Means d m := by
  constructor
  · intro h
    by_cases htopic : ∃ s, e.Topic d s
    · obtain ⟨s, htopic⟩ := htopic
      rw [convert_of_topic htopic] at h
      cases hkey : e.textHeader keyHeader with
      | error => simp [hkey] at h
      | ok key =>
        rw [hkey] at h
        cases key with
        | none =>
          cases h
          exact ⟨htopic, rfl, rfl, .inl ⟨textHeader_eq_none_iff.1 hkey, rfl⟩⟩
        | some key =>
          cases h
          exact ⟨htopic, rfl, rfl, .inr ⟨key, textHeader_eq_some_iff.1 hkey, rfl⟩⟩
    · rw [convert_of_not_topic (not_exists.1 htopic)] at h
      split at h <;> cases h
  · rintro ⟨htopic, hpayload, hschema, hconf⟩
    obtain ⟨topic, payload, schema, entries, hsorted⟩ := m
    dsimp only at htopic hpayload hschema hconf
    subst hpayload hschema
    rw [convert_of_topic htopic]
    rcases hconf with ⟨hkey, rfl⟩ | ⟨key, hkey, rfl⟩
    · rw [textHeader_eq_none_iff.2 hkey]
      rfl
    · rw [textHeader_eq_some_iff.2 hkey]
      rfl

theorem convert_eq_error_iff : e.convert d = .error err ↔ e.Fails d err := by
  constructor
  · intro h
    by_cases htopic : ∃ s, e.Topic d s
    · obtain ⟨s, htopic⟩ := htopic
      rw [convert_of_topic htopic] at h
      cases hkey : e.textHeader keyHeader with
      | ok key => cases key <;> simp [hkey] at h
      | error err' =>
        obtain ⟨found, hfound, rfl⟩ := textHeader_eq_error_iff.1 hkey
        rw [hkey] at h
        cases h
        exact .key htopic hfound
    · rw [convert_of_not_topic (not_exists.1 htopic)] at h
      cases hnamed : e.textHeader topicHeader with
      | error err' =>
        obtain ⟨found, hfound, rfl⟩ := textHeader_eq_error_iff.1 hnamed
        rw [hnamed] at h
        cases h
        exact .topic hfound
      | ok named =>
        rw [hnamed] at h
        cases h
        have hnone : e.header? topicHeader = none := by
          cases named with
          | none => exact textHeader_eq_none_iff.1 hnamed
          | some s => exact absurd ⟨s, .named (textHeader_eq_some_iff.1 hnamed)⟩ htopic
        refine .noTopic hnone (Option.eq_none_iff_forall_ne_some.2 fun s hs => ?_)
        exact htopic ⟨s, .fallback hnone hs⟩
  · intro h
    cases h with
    | topic hfound =>
      unfold convert
      rw [textHeader_eq_error_iff.2 ⟨_, hfound, rfl⟩]
      rfl
    | noTopic hnone hd =>
      unfold convert
      rw [textHeader_eq_none_iff.2 hnone, hd]
      rfl
    | key htopic hfound =>
      rw [convert_of_topic htopic, textHeader_eq_error_iff.2 ⟨_, hfound, rfl⟩]
      rfl

/-! ## 3. What counts -/

theorem textHeader_congr (h : e.SameHeader e' name) : e'.textHeader name = e.textHeader name := by
  rcases h with h | ⟨s, h, h'⟩
  · unfold textHeader
    rw [h]
  · rw [textHeader_eq_some_iff.2 h, textHeader_eq_some_iff.2 h']

/-- The payload and the two headers are all that a message depends on. -/
theorem convert_congr (hpayload : e'.payload = e.payload) (htopic : e.SameHeader e' topicHeader)
    (hkey : e.SameHeader e' keyHeader) (d : Option String) : e'.convert d = e.convert d := by
  unfold convert
  rw [textHeader_congr htopic, textHeader_congr hkey, hpayload]

theorem header?_withoutHeader (e : Envelope) (name k : String) :
    (e.withoutHeader name).header? k = if k = name then none else e.header? k :=
  Entries.find?_erase e.headers name k

theorem header?_withHeader (e : Envelope) (name k : String) (v : HeaderValue) :
    (e.withHeader name v).header? k = if k = name then some v else e.header? k :=
  Entries.find?_putLast e.headers name k v

/-! ## 4. Every envelope -/

/-- An envelope is made a message of exactly if its topic is readable, or absent while there is a default
one, and its key is readable or absent. The message has the topic as it is written there, the payload, no
schema, and the key for the only entry of its conf, if there is a key. Otherwise the error is that of a
topic that cannot be read, of a topic that is missing, or of a key that cannot be read, the first of these
that applies, and it says what was found. A text may as well stand in a header as its bytes, and headers of
other names can be set, changed and taken away: nothing but the payload and what the two headers say makes
a difference. -/
theorem message_of_envelope (e : Envelope) (d : Option String) :
    ((∃ m, e.convert d = .ok m) ↔ (∃ topic, e.Topic d topic) ∧
      (e.header? keyHeader = none ∨ ∃ key, e.HeaderSays keyHeader key)) ∧
    (∀ m, e.convert d = .ok m ↔ e.Means d m) ∧
    (∀ err, e.convert d = .error err ↔ e.Fails d err) ∧
    (∀ name s, (e.withHeader name (.encoded s)).convert d = (e.withHeader name (.text s)).convert d) ∧
    (∀ name v, name ≠ topicHeader → name ≠ keyHeader →
      (e.withHeader name v).convert d = e.convert d ∧ (e.withoutHeader name).convert d = e.convert d) ∧
    ∀ e' : Envelope, e'.payload = e.payload → e.SameHeader e' topicHeader →
      e.SameHeader e' keyHeader → e'.convert d = e.convert d := by
  refine ⟨?_, fun _ => convert_eq_ok_iff, fun _ => convert_eq_error_iff, fun name s => ?_,
    fun name v ht hk => ?_, fun _ hpayload htopic hkey => convert_congr hpayload htopic hkey d⟩
  · simp only [convert_eq_ok_iff]
    constructor
    · rintro ⟨m, h⟩
      exact ⟨⟨_, h.topic⟩, h.conf.imp And.left fun ⟨key, hkey, _⟩ => ⟨key, hkey⟩⟩
    · rintro ⟨⟨topic, htopic⟩, hkey | ⟨key, hkey⟩⟩
      · exact ⟨⟨topic, .ofPayload e.payload⟩, htopic, rfl, rfl, .inl ⟨hkey, rfl⟩⟩
      · exact ⟨⟨topic, (MessageSpec.ofPayload e.payload).withConfEntry Conf.key (.str key)⟩, htopic, rfl,
          rfl, .inr ⟨key, hkey, rfl⟩⟩
  · have hsame : ∀ k,
        (e.withHeader name (.text s)).SameHeader (e.withHeader name (.encoded s)) k := by
      intro k
      unfold SameHeader HeaderSays
      rw [header?_withHeader, header?_withHeader]
      by_cases hk : k = name
      · simp only [if_pos hk]
        exact .inr ⟨s, ⟨_, rfl, .text s⟩, _, rfl, .bytes s⟩
      · simp only [if_neg hk]
        exact .inl trivial
    have hpayload :
        (e.withHeader name (.encoded s)).payload = (e.withHeader name (.text s)).payload := rfl
    exact convert_congr hpayload (hsame _) (hsame _) d
  · constructor
    · have hpayload : (e.withHeader name v).payload = e.payload := rfl
      refine convert_congr hpayload (.inl ?_) (.inl ?_) d
      · rw [header?_withHeader, if_neg ht.symm]
      · rw [header?_withHeader, if_neg hk.symm]
    · have hpayload : (e.withoutHeader name).payload = e.payload := rfl
      refine convert_congr hpayload (.inl ?_) (.inl ?_) d
      · rw [header?_withoutHeader, if_neg ht.symm]
      · rw [header?_withoutHeader, if_neg hk.symm]

/-- A topic in bytes beside a header that has nothing to do with it; and bytes that would be half of a
character, which are no key, and no topic either, even if there is a default one. -/
theorem message_of_envelope_bytes :
    let half : HeaderValue := .binary [0xED, 0xA0, 0x80]
    let e : Envelope := ⟨[(topicHeader, .binary [0xC3, 0xA9])], [1]⟩
    (e.withHeader "other" half).convert none = .ok ⟨"é", .ofPayload [1]⟩ ∧
    (e.withHeader keyHeader half).convert none =
      .error (.malformedHeader "pulsar_key" "non-UTF-8 binary") ∧
    Envelope.convert ⟨[(topicHeader, half), (keyHeader, half)], []⟩ (some "t") =
      .error (.malformedHeader "pulsar_topic" "non-UTF-8 binary") := by
  intro half e
  have hhalf : half.Malformed "non-UTF-8 binary" := HeaderValue.malformed_binary_iff.2 ⟨rfl, rfl⟩
  have hsays : HeaderValue.Says (.binary [0xC3, 0xA9]) "é" := HeaderValue.says_binary_iff.2 (by decide)
  have htopic : e.HeaderSays topicHeader "é" := ⟨_, rfl, hsays⟩
  refine ⟨?_, ?_, ?_⟩
  · rw [((message_of_envelope e none).2.2.2.2.1 "other" half (by decide) (by decide)).1]
    exact ((message_of_envelope e none).2.1 _).2 ⟨.named htopic, rfl, rfl, .inl ⟨rfl, rfl⟩⟩
  · have htopic' : (e.withHeader keyHeader half).HeaderSays topicHeader "é" := ⟨_, rfl, hsays⟩
    exact ((message_of_envelope (e.withHeader keyHeader half) none).2.2.1 _).2
      (.key (.named htopic') ⟨half, rfl, hhalf⟩)
  · exact ((message_of_envelope _ _).2.2.1 _).2 (.topic ⟨half, rfl, hhalf⟩)

end Envelope

end TopicPublisher
