import TopicPublisher.Proofs.Config.Layers
import TopicPublisher.Proofs.Config.Reading

/-!
# The environment over the file

The environment is laid over the file. So what a variable gives to a field comes after all that the file says
about the field's group, and it takes the place of anything that the file has there: nothing, a value, a list
or a table, under a key or at the end of a path, in any mixture of cases. Another variable comes after it, or
before it, but leads elsewhere.

Results:
1. `variablePath?_eq`, `entryOf_ne`: where the variable of a field leads, and where all others do not.
2. `exists_get?_ofLayers`: the field, when both layers were laid.
3. `environment_over_file`: what a configuration that was read has in its fields.
-/

namespace TopicPublisher

open Setting

/-! ## Definitions -/

namespace ConfigField

/-- The name of the variable that gives a field, lower-cased. -/
def variableName (f : ConfigField) : String := "pulsar_template_" ++ f.group ++ "__" ++ f.key

/-- The path to a field. -/
def path (f : ConfigField) : String := f.group ++ "." ++ f.key

/-- A variable of this name gives nothing whose path begins with the name of the group of a field. -/
def SparedBy (f : ConfigField) (name : String) : Prop :=
  ∀ path, variablePath? name = some path → ¬ f.group.toList <+: path.toList

instance (f : ConfigField) (name : String) : Decidable (f.SparedBy name) :=
  inferInstanceAs (Decidable (∀ path ∈ variablePath? name, ¬ f.group.toList <+: path.toList))

/-- The environment gives a field one text, and its group nothing else. -/
def GivenBy (f : ConfigField) (environment : List (String × String)) (text : String) : Prop :=
  ∃ before name after, environment = before ++ (name, text) :: after ∧
    Text.lower name = f.variableName ∧ ∀ e ∈ before ++ after, f.SparedBy e.1

end ConfigField

/-- The setting that a variable gives. -/
def given (text : String) : Setting := .scalar (some "the environment") (.str text)

/-! ## 1. The layer of the environment -/

theorem toLower_of_mem_dotted {cs : List Char} (h : ∀ c ∈ cs, c.toLower = c) :
    ∀ c ∈ dotted cs, c.toLower = c := by
  fun_induction dotted cs with
  | case1 rest ih =>
    simp only [List.mem_cons, forall_eq_or_imp] at h ⊢
    exact ⟨by decide, ih h.2.2⟩
  | case2 c rest _ ih =>
    simp only [List.mem_cons, forall_eq_or_imp] at h ⊢
    exact ⟨h.1, ih h.2⟩
  | case3 => exact h

/-- There are no capital letters in a path that a variable stands for. -/
theorem map_toLower_variablePath {name path : String} (h : variablePath? name = some path) :
    path.toList.map Char.toLower = path.toList := by
  simp only [variablePath?] at h
  split at h
  · rw [← Option.some.inj h, String.toList_ofList]
    refine Text.map_toLower_eq_self (toLower_of_mem_dotted fun c hc => ?_)
    exact Text.toLower_of_mem_lower (List.mem_of_mem_drop hc)
  · cases h

namespace ConfigField

variable (f : ConfigField)

theorem plain_group : Text.Plain f.group.toList := by cases f <;> decide

theorem lower_group : Text.lower f.group = f.group := by cases f <;> decide +kernel

theorem lower_key : Text.lower f.key = f.key := by cases f <;> decide +kernel

theorem ofText_path : Path.ofText f.path = ⟨f.group, [.entry f.key]⟩ := by cases f <;> decide +kernel

variable {f}

theorem variablePath?_eq {name : String} (h : Text.lower name = f.variableName) :
    variablePath? name = some f.path := by
  have hcs : f.variableName.toList =
      environmentPrefix ++ (f.group.toList ++ ("__".toList ++ f.key.toList)) := by
    unfold variableName environmentPrefix
    simp only [String.toList_append, List.append_assoc]
  have hdotted : dotted (f.group.toList ++ ("__".toList ++ f.key.toList)) = f.path.toList := by
    simp only [path, String.toList_append, List.append_assoc]
    cases f <;> decide
  show (if environmentPrefix.isPrefixOf (Text.lower name).toList then
    some (String.ofList (dotted ((Text.lower name).toList.drop environmentPrefix.length))) else none) = _
  rw [h, hcs, if_pos (List.isPrefixOf_iff_prefix.2 (List.prefix_append _ _)), List.drop_left, hdotted,
    String.ofList_toList]

example : variablePath? "Pulsar_Template_Client__Service_Url" = some "client.service_url" := by
  decide +kernel

/-- A variable that says nothing about a group leads to other entries. -/
theorem entryOf_ne {name path : String} (hf : f.SparedBy name) (hpath : variablePath? name = some path) :
    entryOf path ≠ f.group := by
  intro heq
  have hprefix := prefix_of_entryOf_eq f.plain_group heq
  rw [map_toLower_variablePath hpath] at hprefix
  exact hf path hpath hprefix

/-! ## 2. The field -/

theorem entryOf_ne_of_mem_environmentLayer {environment : List (String × String)}
    (h : ∀ v ∈ environment, f.SparedBy v.1) {e : String × Setting}
    (he : e ∈ environmentLayer environment) : entryOf e.1 ≠ f.group := by
  obtain ⟨v, hv, he⟩ := List.mem_filterMap.1 he
  obtain ⟨path, hpath, rfl⟩ := Option.map_eq_some_iff.1 he
  exact entryOf_ne (h v hv) hpath

/-- When the environment was laid over the file, the group of the field is a table, and has the text of the
variable under the key of the field. -/
theorem exists_get?_ofLayers (file : List (String × Setting)) {environment : List (String × String)}
    {text : String} (h : f.GivenBy environment text) :
    ∃ g, (ofLayers [file, environmentLayer environment]).get? f.group = some g ∧
      g.get? f.key = some (given text) := by
  obtain ⟨before, name, after, rfl, hname, hspared⟩ := h
  have hlayer : environmentLayer (before ++ (name, text) :: after) =
      environmentLayer before ++ (f.path, given text) :: environmentLayer after := by
    simp only [environmentLayer, List.filterMap_append, List.filterMap_cons, variablePath?_eq hname]
    rfl
  have hafter : ∀ e ∈ environmentLayer after, entryOf e.1 ≠ f.group := fun e he =>
    entryOf_ne_of_mem_environmentLayer (fun v hv => hspared v (List.mem_append_right _ hv)) he
  show ∃ g, (assignAll (environmentLayer (before ++ (name, text) :: after))
    (assignAll file (.table none []))).get? f.group = some g ∧ _
  rw [hlayer, assignAll_append, assignAll_cons, get?_assignAll_of_ne hafter, f.ofText_path]
  exact get?_assign_entry f.lower_group f.lower_key _ _ _

end ConfigField

/-! ## 3. Configurations -/

namespace Config

variable {d : Directory} {environment : List (String × String)} {name : String} {c : Config}

/-- A configuration that was read has an address that is not blank, and room for a message. Whatever the file
says, it has in a field what a variable gives, if the environment says nothing else about the group of the
field. -/
theorem environment_over_file (h : load d environment name = .ok c) :
    (∃ ch ∈ c.client.serviceUrl.toList, Text.isWhiteSpace ch = false) ∧
      1 ≤ c.producer.maxPendingMessages ∧
      ∀ (f : ConfigField) (text : String), f.GivenBy environment text → f.Holds text c := by
  obtain ⟨file, -, hread, hurl, hroom⟩ := load_ok h
  refine ⟨?_, hroom, fun f text hgiven => ?_⟩
  · obtain ⟨ch, hch, hwhite⟩ := List.all_eq_false.1 hurl
    exact ⟨ch, hch, by simpa using hwhite⟩
  · obtain ⟨g, hg, hx⟩ := ConfigField.exists_get?_ofLayers file hgiven
    exact holds_of_readFrom (readFrom_of_ofSetting hread hg hx)

/-- The text of a file that has groups in mixed case, by a path, by a section and by both, and a list in place
of a group. -/
def groupsText : String :=
  "Client.service_url: a\nclient.operation_timeout_secs: 5\ntemplate: [1]\nTemplate.default_topic: b\n" ++
    "PRODUCER:\n  Send_Timeout_ms: 5\n"

/-- Variables for three fields, one of them in mixed case, and a variable of somebody else. -/
def groupsEnvironment : List (String × String) :=
  [("HOME", "/"), ("Pulsar_Template_Client__Operation_Timeout_Secs", "+7"),
    ("PULSAR_TEMPLATE_TEMPLATE__DEFAULT_TOPIC", "c"), ("PULSAR_TEMPLATE_PRODUCER__SEND_TIMEOUT_MS", "on")]

/-- All three variables go before the file. -/
theorem environment_over_groups :
    ∃ c, load [("config.yaml", Utf8.encode groupsText)] groupsEnvironment "config" = .ok c ∧
      (∃ ch ∈ c.client.serviceUrl.toList, Text.isWhiteSpace ch = false) ∧
      1 ≤ c.producer.maxPendingMessages ∧ ConfigField.operationTimeout.Holds "+7" c ∧
      ConfigField.defaultTopic.Holds "c" c ∧ ConfigField.sendTimeout.Holds "on" c := by
  have hload : load [("config.yaml", Utf8.encode groupsText)] groupsEnvironment "config" = .ok
      { client := { serviceUrl := "a", operationTimeoutSecs := 7 }, producer := { sendTimeoutMs := 1 },
        template := { defaultTopic := some "c" } } :=
    ok_of_toOption (by decide +kernel)
  obtain ⟨hurl, hroom, hfields⟩ := environment_over_file hload
  have htimeout := hfields .operationTimeout "+7" ⟨groupsEnvironment.take 1, _, groupsEnvironment.drop 2, rfl,
    by decide +kernel, by decide +kernel⟩
  have htopic := hfields .defaultTopic "c" ⟨groupsEnvironment.take 2, _, groupsEnvironment.drop 3, rfl,
    by decide +kernel, by decide +kernel⟩
  have hsend := hfields .sendTimeout "on" ⟨groupsEnvironment.take 3, _, [], rfl, by decide +kernel,
    by decide +kernel⟩
  exact ⟨_, hload, hurl, hroom, htimeout, htopic, hsend⟩

end Config

end TopicPublisher
