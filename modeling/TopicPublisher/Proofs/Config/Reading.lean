import TopicPublisher.Config.File
import TopicPublisher.Proofs.Except

/-!
# What is read from settings

A configuration is read from settings group by group, and a group field by field. Five fields hold a single
value (`ConfigField`). When a configuration was read, and the setting of such a field is there, then the
field has what this setting is read as: no default and no other setting takes its place. What the texts of
the environment are read as is told by `ConfigField.Holds`.

Results:
1. `readClient_ok`, `readProducer_ok`, `readTemplate_ok`: what the fields of a group come from;
   `readClient_of_ofSetting` and the like: what the groups come from.
2. `readFrom_of_ofSetting`, `holds_of_readFrom`: a field whose setting is there, and what a text gives it.
3. `load_ok`, `room_of_load`: what is demanded of a configuration.
-/

namespace TopicPublisher

/-! ## Definitions -/

/-- The fields of a configuration that hold a single value. -/
inductive ConfigField where
  | serviceUrl
  | operationTimeout
  | sendTimeout
  | maxPending
  | defaultTopic
  deriving DecidableEq

namespace ConfigField

/-- The group that a field is in. -/
def group : ConfigField → String
  | .serviceUrl | .operationTimeout => "client"
  | .sendTimeout | .maxPending => "producer"
  | .defaultTopic => "template"

/-- The key of a field in its group. -/
def key : ConfigField → String
  | .serviceUrl => "service_url"
  | .operationTimeout => "operation_timeout_secs"
  | .sendTimeout => "send_timeout_ms"
  | .maxPending => "max_pending_messages"
  | .defaultTopic => "default_topic"

/-- A configuration has in a field what a setting is read as. -/
def ReadFrom (f : ConfigField) (s : Setting) (c : Config) : Prop :=
  match f with
  | .serviceUrl => s.readText = .ok c.client.serviceUrl
  | .operationTimeout => s.readUnsigned = .ok c.client.operationTimeoutSecs
  | .sendTimeout => s.readUnsigned = .ok c.producer.sendTimeoutMs
  | .maxPending => s.readUnsigned = .ok c.producer.maxPendingMessages
  | .defaultTopic => s.readOptionalText = .ok c.template.defaultTopic

/-- A configuration has in a field what a text stands for: itself, or the number that it spells. -/
def Holds (f : ConfigField) (text : String) (c : Config) : Prop :=
  match f with
  | .serviceUrl => c.client.serviceUrl = text
  | .operationTimeout => Setting.unsignedText? text = some c.client.operationTimeoutSecs
  | .sendTimeout => Setting.unsignedText? text = some c.producer.sendTimeoutMs
  | .maxPending => Setting.unsignedText? text = some c.producer.maxPendingMessages
  | .defaultTopic => c.template.defaultTopic = some text

end ConfigField

/-! ## 1. Groups -/

namespace Setting

variable {s x : Setting}

theorem readField_ok {α : Type} {key : String} {i : Nat} {reader : Reader α} {r : Option α}
    (h : s.readField key i reader = .ok r) (hx : s.get? key = some x) :
    ∃ a, reader x = .ok a ∧ r = some a := by
  cases s with
  | scalar | list => cases hx
  | table o entries =>
    have hlookup : Entries.find? key entries = some x := hx
    simp only [readField, readEntry, hlookup] at h
    split at h
    · next a ha =>
      cases h
      exact ⟨a, ha, rfl⟩
    · cases h

theorem readClient_ok {client : ClientConfig} (h : readClient s = .ok client) :
    ∃ timeout, s.readField "service_url" 0 readText = .ok (some client.serviceUrl) ∧
      s.readField "operation_timeout_secs" 1 readUnsigned = .ok timeout ∧
      client.operationTimeoutSecs = timeout.getD 30 := by
  simp only [readClient, bind_eq_ok_iff] at h
  obtain ⟨-, -, url, hurl, timeout, htimeout, h⟩ := h
  cases url with
  | none => cases h
  | some url =>
    cases h
    exact ⟨timeout, hurl, htimeout, rfl⟩

theorem readProducer_ok {producer : ProducerConfig} (h : readProducer s = .ok producer) :
    ∃ schema timeout pending, s.readField "schema" 0 readSchema = .ok schema ∧
      s.readField "send_timeout_ms" 1 readUnsigned = .ok timeout ∧
      s.readField "max_pending_messages" 2 readUnsigned = .ok pending ∧
      producer = ⟨schema.getD {}, timeout.getD 30000, pending.getD 1000⟩ := by
  simp only [readProducer, bind_eq_ok_iff] at h
  obtain ⟨-, -, schema, hschema, timeout, htimeout, pending, hpending, h⟩ := h
  cases h
  exact ⟨schema, timeout, pending, hschema, htimeout, hpending, rfl⟩

theorem readTemplate_ok {template : TemplateConfig} (h : readTemplate s = .ok template) :
    ∃ topic, s.readField "default_topic" 0 readOptionalText = .ok topic ∧
      template.defaultTopic = topic.getD none := by
  simp only [readTemplate, bind_eq_ok_iff] at h
  obtain ⟨-, -, topic, htopic, h⟩ := h
  cases h
  exact ⟨topic, htopic, rfl⟩

end Setting

namespace Config

variable {s g x : Setting} {c c' : Config} {f : ConfigField}

theorem readClient_of_ofSetting (h : ofSetting s = .ok c) (hg : s.get? "client" = some g) :
    g.readClient = .ok c.client := by
  simp only [ofSetting, bind_eq_ok_iff] at h
  obtain ⟨client, hclient, producer, -, template, -, h⟩ := h
  obtain ⟨client, hread, rfl⟩ := Setting.readField_ok hclient hg
  cases h
  exact hread

theorem readProducer_of_ofSetting (h : ofSetting s = .ok c) (hg : s.get? "producer" = some g) :
    g.readProducer = .ok c.producer := by
  simp only [ofSetting, bind_eq_ok_iff] at h
  obtain ⟨client, -, producer, hproducer, template, -, h⟩ := h
  obtain ⟨producer, hread, rfl⟩ := Setting.readField_ok hproducer hg
  cases client with
  | none => cases h
  | some client =>
    cases h
    exact hread

theorem readTemplate_of_ofSetting (h : ofSetting s = .ok c) (hg : s.get? "template" = some g) :
    g.readTemplate = .ok c.template := by
  simp only [ofSetting, bind_eq_ok_iff] at h
  obtain ⟨client, -, producer, -, template, htemplate, h⟩ := h
  obtain ⟨template, hread, rfl⟩ := Setting.readField_ok htemplate hg
  cases client with
  | none => cases h
  | some client =>
    cases h
    exact hread

/-! ## 2. Fields -/

/-- A field whose setting is there has what the setting is read as. -/
theorem readFrom_of_ofSetting (h : ofSetting s = .ok c) (hg : s.get? f.group = some g)
    (hx : g.get? f.key = some x) : f.ReadFrom x c := by
  cases f with
  | serviceUrl =>
    obtain ⟨_, hurl, -⟩ := Setting.readClient_ok (readClient_of_ofSetting h hg)
    obtain ⟨_, hread, heq⟩ := Setting.readField_ok hurl hx
    cases heq
    exact hread
  | operationTimeout =>
    obtain ⟨_, -, htimeout, heq⟩ := Setting.readClient_ok (readClient_of_ofSetting h hg)
    obtain ⟨_, hread, rfl⟩ := Setting.readField_ok htimeout hx
    exact hread.trans (congrArg _ heq.symm)
  | sendTimeout =>
    obtain ⟨_, _, _, -, htimeout, -, heq⟩ := Setting.readProducer_ok (readProducer_of_ofSetting h hg)
    obtain ⟨_, hread, rfl⟩ := Setting.readField_ok htimeout hx
    show x.readUnsigned = .ok _
    rw [heq]
    exact hread
  | maxPending =>
    obtain ⟨_, _, _, -, -, hpending, heq⟩ := Setting.readProducer_ok (readProducer_of_ofSetting h hg)
    obtain ⟨_, hread, rfl⟩ := Setting.readField_ok hpending hx
    show x.readUnsigned = .ok _
    rw [heq]
    exact hread
  | defaultTopic =>
    obtain ⟨_, htopic, heq⟩ := Setting.readTemplate_ok (readTemplate_of_ofSetting h hg)
    obtain ⟨_, hread, rfl⟩ := Setting.readField_ok htopic hx
    exact hread.trans (congrArg _ heq.symm)

/-- A text is read as what it stands for. -/
theorem holds_of_readFrom {o : Option String} {text : String}
    (h : f.ReadFrom (.scalar o (.str text)) c) : f.Holds text c := by
  have hunsigned : ∀ {n : Nat}, Setting.readUnsigned (.scalar o (.str text)) = .ok n →
      Setting.unsignedText? text = some n := by
    intro n hn
    simp only [Setting.readUnsigned] at hn
    split at hn
    · next m hm =>
      cases hn
      exact hm
    · cases hn
  cases f with
  | serviceUrl => exact (Except.ok.inj h).symm
  | operationTimeout | sendTimeout | maxPending => exact hunsigned h
  | defaultTopic => exact (Except.ok.inj h).symm

/-! ## 3. Demands -/

/-- What is demanded of a configuration. -/
theorem validate_ok (h : c.validate = .ok c') :
    c' = c ∧ Text.isBlank c.client.serviceUrl = false ∧ 0 < c.producer.maxPendingMessages := by
  unfold validate at h
  split at h
  · cases h
  · next hurl =>
    split at h
    · cases h
    · next hroom =>
      cases h
      exact ⟨rfl, by simpa using hurl, Nat.pos_of_ne_zero hroom⟩

variable {d : Directory} {environment : List (String × String)} {name : String}

theorem load_ok (h : load d environment name = .ok c) :
    ∃ file, d.layer name = .ok file ∧
      ofSetting (Setting.ofLayers [file, environmentLayer environment]) = .ok c ∧
      Text.isBlank c.client.serviceUrl = false ∧ 0 < c.producer.maxPendingMessages := by
  simp only [load, bind_eq_ok_iff] at h
  obtain ⟨file, hfile, c', hread, h⟩ := h
  obtain ⟨rfl, hurl, hroom⟩ := validate_ok h
  exact ⟨file, hfile, hread, hurl, hroom⟩

/-- A configuration that was read has room for a message. -/
theorem room_of_load (h : load d environment name = .ok c) : 0 < c.producer.maxPendingMessages := by
  obtain ⟨_, -, -, -, hroom⟩ := load_ok h
  exact hroom

end Config

end TopicPublisher
