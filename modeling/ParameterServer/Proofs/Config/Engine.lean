import ParameterServer.Config.Engine
import ParameterServer.Proofs.Text.Json.Form

/-!
# Reading an engine configuration

An object that gives some of the settings, in any order and among members with other names, is
read as the defaults with these settings, however it is spelled; settings that an engine cannot
run with are refused.  The compact text of a valid configuration is read as the configuration.
-/

namespace ParameterServer.EngineConfig

open Text (Json JsonForm)

/-! ## Settings as members -/

/-- The members that give the settings of a configuration. -/
def members (config : EngineConfig) : List (String × Json) :=
  [("sleep_time_us", .ofNat config.sleepMicros.toNat),
    ("update_mode", JsonForm.toJson config.updateMode),
    ("num_memory_servers", .ofNat config.memoryServers.toNat),
    ("first_put_flips_phase", .bool config.firstPutFlips),
    ("activation_env", .ofText config.activationVariable)]

theorem toJson_eq (config : EngineConfig) : JsonForm.toJson config = .record config.members :=
  rfl

theorem keys_members (config : EngineConfig) : config.members.map Prod.fst = fieldNames :=
  rfl

/-- The defaults, with the settings of `config` in the chosen fields. -/
def overlay (config : EngineConfig) (chosen : List String) : EngineConfig :=
  let initial : EngineConfig := {}
  { sleepMicros :=
      if "sleep_time_us" ∈ chosen then config.sleepMicros else initial.sleepMicros
    updateMode :=
      if "update_mode" ∈ chosen then config.updateMode else initial.updateMode
    memoryServers :=
      if "num_memory_servers" ∈ chosen then config.memoryServers else initial.memoryServers
    firstPutFlips :=
      if "first_put_flips_phase" ∈ chosen then config.firstPutFlips else initial.firstPutFlips
    activationVariable :=
      if "activation_env" ∈ chosen then config.activationVariable
      else initial.activationVariable }

theorem overlay_fieldNames (config : EngineConfig) : config.overlay fieldNames = config := by
  simp [overlay, fieldNames]

/-- Members that give the settings of `config` in the chosen fields, each once, in any order and
among any members with other names. -/
def Gives (config : EngineConfig) (chosen : List String) (given : List (String × Json)) : Prop :=
  (given.filter (·.1 ∈ fieldNames)).Perm (config.members.filter (·.1 ∈ chosen))

theorem gives_members (config : EngineConfig) : config.Gives fieldNames config.members :=
  .refl _

section Reading

variable {config : EngineConfig} {chosen : List String} {given : List (String × Json)}

theorem nodup_chosen (config : EngineConfig) (chosen : List String) :
    ((config.members.filter (·.1 ∈ chosen)).map Prod.fst).Nodup := by
  have distinct : (config.members.map Prod.fst).Nodup := by
    rw [keys_members]
    decide
  exact distinct.sublist (List.filter_sublist.map _)

theorem Gives.fields? (gives : config.Gives chosen given) :
    (Json.record given).fields? fieldNames = some (given.filter (·.1 ∈ fieldNames)) :=
  Json.fields?_record ((gives.map Prod.fst).nodup_iff.mpr (nodup_chosen config chosen))

/-- A field is given if it is chosen, with the setting of the configuration. -/
theorem Gives.lookup (gives : config.Gives chosen given) {name : String} {json : Json}
    (setting : config.members.lookup name = some json) :
    (given.filter (·.1 ∈ fieldNames)).lookup name = if name ∈ chosen then some json else none := by
  rw [Association.lookup_eq_of_perm gives (nodup_chosen config chosen),
    Association.lookup_filter (fun key => key ∈ chosen), setting]
  simp

theorem Gives.orDefault? {α : Type} (gives : config.Gives chosen given) (name : String)
    {json : Json} (setting : config.members.lookup name = some json) {decode : Json → Option α}
    {value : α} (decoded : decode json = some value) (default : α) :
    Json.Fields.orDefault? (given.filter (·.1 ∈ fieldNames)) name default decode =
      some (if name ∈ chosen then value else default) :=
  Json.Fields.orDefault?_of_lookup (gives.lookup setting) decoded default

theorem ofJson?_updateMode (mode : UpdateMode) :
    JsonForm.ofJson? (JsonForm.toJson mode) = some mode := by
  cases mode <;> rfl

/-- Members that give settings are read as the defaults with these settings. -/
theorem Gives.ofJson? (gives : config.Gives chosen given) :
    JsonForm.ofJson? (Json.record given) = some (config.overlay chosen) := by
  have sleep := gives.orDefault? "sleep_time_us" rfl (Json.toUInt64?_ofNat config.sleepMicros)
  have mode := gives.orDefault? "update_mode" rfl (ofJson?_updateMode config.updateMode)
  have servers := gives.orDefault? "num_memory_servers" rfl
    (Json.toUInt64?_ofNat config.memoryServers)
  have flips := gives.orDefault? "first_put_flips_phase" rfl
    (rfl : Json.toBool? (.bool config.firstPutFlips) = some config.firstPutFlips)
  have activation := gives.orDefault? "activation_env" rfl
    (rfl : Json.toText? (.ofText config.activationVariable) = some config.activationVariable)
  refine Option.bind_eq_some_iff.mpr ⟨_, gives.fields?, ?_⟩
  refine Option.bind_eq_some_iff.mpr ⟨_, sleep _, ?_⟩
  refine Option.bind_eq_some_iff.mpr ⟨_, mode _, ?_⟩
  refine Option.bind_eq_some_iff.mpr ⟨_, servers _, ?_⟩
  refine Option.bind_eq_some_iff.mpr ⟨_, flips _, ?_⟩
  exact Option.bind_eq_some_iff.mpr ⟨_, activation _, rfl⟩

/-- Every text of such an object is read as the defaults with these settings. -/
theorem Gives.ofText (gives : config.Gives chosen given) {text : String}
    (writes : (Json.record given).Writes text) :
    EngineConfig.ofText text = .ok (config.overlay chosen) := by
  simp [EngineConfig.ofText, Text.ofJsonText, writes.parse?, gives.ofJson?]

end Reading

/-! ## The compact text -/

theorem writes_toJsonText (config : EngineConfig) :
    (Json.record config.members).Writes (Text.toJsonText config) := by
  refine Json.writes_render_of_naturals fun literal member => ?_
  have number : literal = .ofInt config.sleepMicros.toNat ∨
      literal = .ofInt config.memoryServers.toNat := by
    simpa [toJson_eq, Json.record, members, Json.tokens, Json.membersTokens, Json.memberTokens,
      Json.ofNat, Json.ofInt, Json.ofText, JsonForm.toJson] using member
  rcases number with rfl | rfl <;> exact ⟨_, rfl⟩

/-! ## Validation -/

/-- A configuration is refused as an invalid one only. -/
theorem invalidConfig_of_validate {config : EngineConfig} {error : Error}
    (refused : config.validate = .error error) : ∃ reason, error = .invalidConfig reason := by
  unfold validate at refused
  split_ifs at refused <;> cases refused <;> exact ⟨_, rfl⟩

theorem load_eq {config : EngineConfig} {text : String} (read : ofText text = .ok config) :
    load text = config.validate >>= fun _ => .ok config := by
  rw [load, read]
  rfl

theorem load_of_valid {config : EngineConfig} {text : String}
    (read : ofText text = .ok config) (valid : config.validate = .ok ()) :
    load text = .ok config := by
  rw [load_eq read, valid]
  rfl

theorem load_of_refused {config : EngineConfig} {text : String} {error : Error}
    (read : ofText text = .ok config) (refused : config.validate = .error error) :
    load text = .error error := by
  rw [load_eq read, refused]
  rfl

/-- The object that gives some settings of a configuration is read, in each of its texts, as the
defaults with these settings, or refused for the fault of these.  The compact text of a valid
configuration is read as the configuration. -/
theorem load_overlays_defaults (config : EngineConfig) :
    (∀ chosen given text, config.Gives chosen given → (Json.record given).Writes text →
      ((config.overlay chosen).validate = .ok () →
        load text = .ok (config.overlay chosen)) ∧
      ∀ error, (config.overlay chosen).validate = .error error →
        load text = .error error ∧ ∃ reason, error = .invalidConfig reason) ∧
    (config.validate = .ok () → load (Text.toJsonText config) = .ok config) := by
  constructor
  · intro chosen given text gives writes
    have read := gives.ofText writes
    exact ⟨load_of_valid read, fun error refused =>
      ⟨load_of_refused read refused, invalidConfig_of_validate refused⟩⟩
  · intro valid
    have read := (gives_members config).ofText (writes_toJsonText config)
    rw [overlay_fieldNames] at read
    exact load_of_valid read valid

/-- Two compact texts, one with the members in another order and an unknown one, and one with a
fault. -/
theorem load_overlays_defaults_partial :
    load "\x7b\"note\":[],\"num_memory_servers\":4,\"update_mode\":\"async\"\x7d" =
        .ok (asynchronous 4) ∧
      load "\x7b\"num_memory_servers\":0\x7d" =
        .error (.invalidConfig "num_memory_servers must be at least 1") ∧
      load (Text.toJsonText (asynchronous 4)) = .ok (asynchronous 4) := by
  refine ⟨?_, ?_, ?_⟩
  · let given : List (String × Json) :=
      [("note", .array []), ("num_memory_servers", .ofNat 4), ("update_mode", .ofText "async")]
    have gives : (asynchronous 4).Gives ["update_mode", "num_memory_servers"] given :=
      .swap _ _ []
    have writes : (Json.record given).Writes (Json.record given).render :=
      Json.writes_render_of_naturals fun literal member => ⟨4, by
        simpa [given, Json.record, Json.tokens, Json.membersTokens, Json.memberTokens,
          Json.itemsTokens, Json.ofNat, Json.ofInt, Json.ofText] using member⟩
    exact ((load_overlays_defaults (asynchronous 4)).1 _ _ _ gives writes).1 rfl
  · let given : List (String × Json) := [("num_memory_servers", .ofNat 0)]
    have gives : EngineConfig.Gives { memoryServers := 0 } ["num_memory_servers"] given := .refl _
    have writes : (Json.record given).Writes (Json.record given).render :=
      Json.writes_render_of_naturals fun literal member => ⟨0, by
        simpa [given, Json.record, Json.tokens, Json.membersTokens, Json.memberTokens,
          Json.ofNat, Json.ofInt] using member⟩
    exact ((load_overlays_defaults { memoryServers := 0 }).1 _ _ _ gives writes).2 _ rfl |>.1
  · exact (load_overlays_defaults (asynchronous 4)).2 rfl

end ParameterServer.EngineConfig
