import DstServer.Configuration.Cluster
import DstServer.Configuration.SettingsRoundTrip
import DstServer.Mods.Setup
import DstServer.Presets.World

/-!
# Room presets

The model of `RoomPreset` and of its composition.  A configuration model is
a decoder with the checks that need more than one field, and `Data` is a
value that both accept, in canonical form: `as_value` of a typed model is
its `value`.

`compose` lays the parts over each other in order and validates the
result, and `build` makes a cluster configuration of it.  Both work on JSON
values: `overlay` replaces the fields of an object, and `mergeMods` goes
one level deeper into the entries.

The path that the source adds to the message of an invalid value is left
out, and of a cluster configuration the fields that `build` does not give.
-/

namespace DstServer.Presets

open Lib Outcome
open DstServer.Configuration (Settings)

/-! ## Models -/

/-- `configuration_models!` -/
structure ConfigModel where
  wire : String
  decoder : Decoder
  check : Json → Outcome String Unit

namespace ConfigModel

def decode (model : ConfigModel) (value : Json) : Outcome String Json :=
  match model.decoder.read value with
  | .ok form => pure form
  | .error _ => fail s!"invalid {model.wire}"

/-- `from_ref` -/
def validate (model : ConfigModel) (value : Json) : Outcome String Json := do
  Configuration.checkInput value
  let data ← model.decode value
  model.check data
  pure data

/-- A value that the model accepts. -/
structure Data (model : ConfigModel) where
  value : Json
  valid : ∃ input, model.validate input = .ok value

def fromValue (model : ConfigModel) (value : Json) : Outcome String model.Data :=
  match h : model.validate value with
  | .ok data => .ok ⟨data, value, h⟩
  | .error e => .error e

end ConfigModel

/-! ## Decoders -/

def anyText : Decoder := .text fun _ => true

def map (d : Decoder) : Decoder := ({ rest := some d } : Record).decoder

/-- The settings that a value decodes to, with the constraints of the fields. -/
def settings? (model : Configuration.Model) (value : Json) : Option Configuration.Sparse :=
  (do
    let sparse ← model.decode value
    model.checkFields sparse
    pure sparse : Outcome String Configuration.Sparse).toOption

theorem settings?_eq_some {model : Configuration.Model} {value : Json}
    {sparse : Configuration.Sparse} :
    settings? model value = some sparse ↔
      model.decode value = .ok sparse ∧ model.checkFields sparse = .ok () := by
  unfold settings?
  cases hdecode : model.decode value with
  | error e => simp [Except.toOption]
  | ok found =>
    rw [ok_bind]
    cases hcheck : model.checkFields found with
    | error e =>
      simp only [error_bind, Except.toOption, Except.ok.injEq, reduceCtorEq, false_iff, not_and]
      intro hsame
      rw [← hsame, hcheck]
      simp
    | ok _ =>
      simp only [ok_bind, pure_eq_ok, Except.toOption, Option.some.injEq, Except.ok.injEq]
      constructor
      · intro hsame
        exact ⟨hsame, hsame ▸ hcheck⟩
      · exact And.left

/-- `ClusterSettings` and `ShardSettings` -/
def settings (model : Configuration.Model) : Decoder :=
  .ofOption (fun value => (settings? model value).map Configuration.Sparse.asValue) (by
    intro value form h
    obtain ⟨sparse, hsparse, rfl⟩ := Option.map_eq_some_iff.1 h
    obtain ⟨hdecode, hcheck⟩ := settings?_eq_some.1 hsparse
    have htyped : model.Typed sparse := fun _ _ => Configuration.Model.typed_of_decode hdecode
    rw [settings?_eq_some.2 ⟨Configuration.decode_asValue htyped, hcheck⟩]
    rfl)

section Decoders

variable (host : Host)

def modOverride : Decoder := Record.decoder {
  declared := declare [
    ("configuration_options", .nullable (map host.luaValue)),
    ("enabled", .nullable .bool)] }

def modOverrides : Record where
  declared := declare [
    ("client_mods_disabled", .nullable .bool),
    ("entries", map (modOverride host))]

def worldgenOverride : Record where
  declared := declare [
    ("enabled", .bool),
    ("overrides", worldValues host),
    ("settings_preset", .nullable nonEmpty),
    ("worldgen_preset", .nullable nonEmpty)]

/-- `range(min = -9_007_199_254_740_991, max = 9_007_199_254_740_991)` -/
def safeInteger : Decoder := .integer (-9007199254740991) 9007199254740991 (by decide)

def names : Decoder := .nullable (.list nonEmpty)

/-- `[T; 2]` -/
def pair (d : Decoder) : Decoder := d.list.filter fun value => match value with
  | .array items => items.length = 2
  | _ => false

def levelDataOverride : Record where
  declared := [
    { name := "id", decoder := nonEmpty, required := true },
    { name := "name", decoder := anyText, required := true },
    { name := "desc", decoder := anyText, required := true },
    { name := "location", decoder := nonEmpty, required := true },
    { name := "overrides", decoder := worldValues host, required := true }] ++ declare [
    ("background_node_range", .nullable (pair safeInteger)),
    ("baseid", .nullable nonEmpty),
    ("blocker_blank_room_name", .nullable nonEmpty),
    ("custom_settings_desc", .nullable anyText),
    ("custom_settings_id", .nullable nonEmpty),
    ("custom_settings_name", .nullable anyText),
    ("custom_worldgen_desc", .nullable anyText),
    ("custom_worldgen_id", .nullable nonEmpty),
    ("custom_worldgen_name", .nullable anyText),
    ("hideinfrontend", .nullable .bool),
    ("hideminimap", .nullable .bool),
    ("max_playlist_position", .nullable safeInteger),
    ("min_playlist_position", .nullable safeInteger),
    ("numrandom_set_pieces", .nullable (.natural 0 9007199254740991)),
    ("ordered_story_setpieces", names),
    ("override_level_string", .nullable .bool),
    ("override_triggers", .nullable (map host.luaValue)),
    ("playstyle", .nullable nonEmpty),
    ("random_set_pieces", names),
    ("required_prefabs", names),
    ("required_setpieces", names),
    ("settings_baseid", .nullable nonEmpty),
    ("settings_desc", .nullable anyText),
    ("settings_id", .nullable nonEmpty),
    ("settings_name", .nullable anyText),
    ("substitutes", .nullable (map host.luaValue)),
    ("version", .nullable (.natural 1 9007199254740991)),
    ("worldgen_baseid", .nullable nonEmpty),
    ("worldgen_desc", .nullable anyText),
    ("worldgen_id", .nullable nonEmpty),
    ("worldgen_name", .nullable anyText)]

def shardConfig : Record where
  declared := {
      name := "settings"
      decoder := settings .shardSettings
      required := true } :: declare [
    ("level", .nullable (levelDataOverride host).decoder),
    ("mods", (modOverrides host).decoder),
    ("world", .nullable (worldgenOverride host).decoder)]

/-- The shards of a room, by their names. -/
def shardConfigs : Record where
  rest := some (shardConfig host).decoder

def roomPreset : Record where
  declared := declare [
    ("mods", (modOverrides host).decoder),
    ("settings", settings .clusterSettings),
    ("shards", (shardConfigs host).decoder)]

def clusterConfig : Record where
  declared := {
      name := "shards"
      decoder := (shardConfigs host).decoder.filter fun value => value.fields.isEmpty = false
      required := true } :: declare [
    ("settings", settings .clusterSettings),
    ("token", .text fun token => ∀ c ∈ token, '!' ≤ c ∧ c ≤ '~')]

end Decoders

/-! ## Checks -/

/-- The value of a sparse field, or its default. -/
def field (value : Json) (key : String) (default : Json) : Json := (value.get? key).getD default

def validateModName (name : String) : Outcome String Unit := do
  ensure
    (name.toList ≠ [] ∧ Text.utf8Length name.toList ≤ 255 ∧ name ≠ "." ∧ name ≠ ".." ∧
      Text.lower name.toList ≠ "client_mods_disabled".toList ∧
      ∀ c ∈ name.toList, c ∉ ['\x00', '/', '\\', '\r', '\n'])
    "unsafe Mod name"
  if "workshop-".toList <+: name.toList then do
    let _ ← Mods.workshopId (.ofList (name.toList.drop 9))
    pure ()
  else pure ()

def checkMods (mods : Json) : Outcome String Unit :=
  (mods.get "entries").fields.keys.forM validateModName

def presetKind (preset : String) : Option String :=
  match preset.toUpper with
  | "SURVIVAL_TOGETHER" | "RELAXED" | "ENDLESS" | "WILDERNESS" | "LIGHTS_OUT"
  | "COMPLETE_DARKNESS" | "TERRARIA" | "SURVIVAL_TOGETHER_CLASSIC" | "SURVIVAL_DEFAULT_PLUS"
  | "MOD_MISSING" => some "forest"
  | "DST_CAVE" | "DST_CAVE_PLUS" | "TERRARIA_CAVE" => some "cave"
  | "QUAGMIRE" => some "quagmire"
  | "LAVAARENA" => some "lavaarena"
  | _ => none

/-- `kind().trim_start_matches("loaded_")` -/
def worldKind (overrides : Json) : String :=
  match (overrides.get "kind").asStr? with
  | some "loaded_forest" => "forest"
  | some "loaded_cave" => "cave"
  | some kind => kind
  | none => ""

def isScalar : Json → Bool
  | .array _ | .object _ => false
  | _ => true

def isNull : Json → Bool
  | .null => true
  | _ => false

def builtinKinds : List String := ["forest", "cave", "quagmire", "lavaarena"]

def eventKinds : List String := ["quagmire", "lavaarena"]

section Checks

variable (host : Host)

def validateWorldValues (values : Json) : Outcome String Unit := do
  ensure (∀ value ∈ values.fields.values, isScalar value = true)
    "world overrides require scalar values"
  let _ ← Lua.renderLiteral host.doubles host.reader
    (.object (values.fields.entries.filter fun entry => !isNull entry.2))
  pure ()

def checkWorld (world : Json) : Outcome String Unit := do
  let presets := [(world.get "worldgen_preset").asStr?, (world.get "settings_preset").asStr?]
  let kinds := (presets.filterMap fun preset => preset.bind presetKind).dedup
  ensure (kinds.length ≤ 1) "different built-in world types cannot be combined"
  let overrides := field world "overrides"
    (.object [("kind", .string "world"), ("values", .object [])])
  let kind := worldKind overrides
  match kinds.head? with
  | some expected => do
    ensure (expected ∉ eventKinds ∨ kind = expected) "event presets require matching overrides"
    ensure (kind ∉ builtinKinds ∨ kind = expected) "preset and overrides use different world types"
  | none => pure ()
  validateWorldValues host (overrides.get "values")

/-- The texts of an array. -/
def texts (value : Json) : List String := match value with
  | .array items => items.filterMap Json.asStr?
  | _ => []

def checkLevel (level : Json) : Outcome String Unit := do
  let overrides := level.get "overrides"
  let values := overrides.get "values"
  validateWorldValues host values
  ensure ((values.get "task_set").asStr?.any (· ≠ "") = true)
    "level data requires explicit task_set"
  match level.get "background_node_range" with
  | .array [start, stop] =>
    ensure (∀ first ∈ start.asI64?, ∀ last ∈ stop.asI64?, 0 ≤ first ∧ first ≤ last)
      "invalid background_node_range"
  | _ => pure ()
  ensure
    (((level.get "numrandom_set_pieces").asU64?.getD 0 = 0) ∨
      texts (level.get "random_set_pieces") ≠ [])
    "positive numrandom_set_pieces requires random_set_pieces"
  let kind := worldKind overrides
  ensure (kind ∉ builtinKinds ∨ (level.get "location").isStr kind = true)
    "level location and override kind differ"
  if kind ∈ eventKinds then do
    let id := kind.toUpper
    ensure ((level.get "id").isStr id = true) "event level has an incorrect id"
    ensure (∀ value ∈ [(level.get "settings_id").asStr?, (level.get "worldgen_id").asStr?],
        ∀ found ∈ value, found = id)
      "event settings/worldgen ids differ"
    ensure (isNull (level.get "required_prefabs") = true ∨
        kind ++ "_portal" ∈ texts (level.get "required_prefabs"))
      "event level is missing its portal prefab"
  else pure ()

/-- A check of a value that may be null or absent. -/
def optional (check : Json → Outcome String Unit) (value : Json) : Outcome String Unit :=
  if isNull value then pure () else check value

def checkSettings (model : Configuration.Model) (value : Json) : Outcome String Unit :=
  model.check ((settings? model value).getD .empty)

/-- The mods, the world and the level of a shard. -/
def checkParts (shard : Json) : Outcome String Unit := do
  checkMods (shard.get "mods")
  optional (checkWorld host) (shard.get "world")
  optional (checkLevel host) (shard.get "level")

def checkShard (shard : Json) : Outcome String Unit := do
  checkSettings .shardSettings (shard.get "settings")
  checkParts host shard

def checkPreset (preset : Json) : Outcome String Unit := do
  checkSettings .clusterSettings (field preset "settings" (.object []))
  checkMods (preset.get "mods")
  (preset.get "shards").fields.entries.forM fun entry => do
    Configuration.validateShardName host.toLowercase entry.1.toList
    checkShard host entry.2

/-- The topology of a cluster configuration. -/
def topology (cluster : Json) : Configuration.ConfigData where
  settings := (cluster.get? "settings").bind (settings? .clusterSettings)
  shards := (cluster.get "shards").fields.map fun _ shard =>
    { settings := (settings? .shardSettings (shard.get "settings")).getD .empty
      level := !isNull (shard.get "level") }

/-- The loop over the shards checks each of them as a whole; here the topology
of all shards comes before their other parts. -/
def checkCluster (cluster : Json) : Outcome String Unit := do
  (topology cluster).check host.toLowercase
  (cluster.get "shards").fields.values.forM (checkParts host)

end Checks

/-! ## Configurations -/

def roomPresetModel (host : Host) : ConfigModel where
  wire := "RoomPreset"
  decoder := (roomPreset host).decoder
  check := checkPreset host

def clusterConfigModel (host : Host) : ConfigModel where
  wire := "ClusterConfig"
  decoder := (clusterConfig host).decoder
  check := checkCluster host

abbrev RoomPreset (host : Host) : Type := (roomPresetModel host).Data

abbrev ClusterConfig (host : Host) : Type := (clusterConfigModel host).Data

/-! ## Composition -/

def overlay (base patch : Json) : Json := match patch with
  | .object _ => .ofFields (base.fields.extend patch.fields)
  | _ => base

def mergeMods (base patch : Json) : Json :=
  match patch.get? "entries" with
  | some entries =>
    let merged := overlay (field base "entries" (.object [])) entries
    overlay base (patch.set "entries" merged)
  | none => overlay base patch

/-- `output`, with its three fields. -/
structure Draft where
  settings : Json := .object []
  shards : Fields := .empty
  mods : Json := .object []

def Draft.value (draft : Draft) : Json :=
  .ofFields (.ofList [
    ("settings", draft.settings), ("shards", .ofFields draft.shards), ("mods", draft.mods)])

/-- The mods of a part go to the room and to each shard that is there. -/
def Draft.addMods (draft : Draft) (mods : Json) : Draft :=
  if mods.fields.isEmpty then draft
  else { draft with
    mods := mergeMods draft.mods mods
    shards := draft.shards.map fun _ shard =>
      shard.set "mods" (mergeMods (field shard "mods" (.object [])) mods) }

/-- The world of a patch over the world of a shard. -/
def composeWorld (world patch : Json) : Outcome String Json :=
  match patch.get? "overrides" with
  | some overrides => do
    let kind := ((world.get "overrides").get "kind").asStr?.getD "world"
    ensure (some kind = (overrides.get "kind").asStr?)
      "cannot compose different world override kinds"
    let values := overlay ((world.get "overrides").get "values") (overrides.get "values")
    pure (overlay world (patch.set "overrides" (overrides.set "values" values)))
  | none => pure (overlay world patch)

/-- The patch of a shard with the world of `base` merged into it. -/
def patchWorld (base patch : Json) : Outcome String Json :=
  if isNull (patch.get "world") ∨ isNull (base.get "world") then pure patch
  else do
    let world ← composeWorld (base.get "world") (patch.get "world")
    pure (patch.set "world" world)

/-- The patch of a shard with the mods of `base` merged into it. -/
def patchMods (base patch : Json) : Json :=
  match patch.get? "mods" with
  | some mods => patch.set "mods" (mergeMods (field base "mods" (.object [])) mods)
  | none => patch

/-- A shard under a patch. -/
def patchShard (base patch : Json) : Outcome String Json := do
  let patch := patch.set "settings" (overlay (base.get "settings") (patch.get "settings"))
  let patch ← patchWorld base patch
  pure (overlay base (patchMods base patch))

/-- The body of the loop over the shards of a part. -/
def Draft.addShard (draft : Draft) (entry : String × Json) : Outcome String Draft :=
  match draft.shards.get? entry.1 with
  | some base => do
    let shard ← patchShard base entry.2
    pure { draft with shards := draft.shards.insert entry.1 shard }
  | none =>
    let shard := entry.2.set "mods" (mergeMods draft.mods (entry.2.get "mods"))
    pure { draft with shards := draft.shards.insert entry.1 shard }

/-- The body of the loop over the parts. -/
def Draft.add (draft : Draft) (part : Json) : Outcome String Draft := do
  let draft := { draft with settings := overlay draft.settings (part.get "settings") }
  let draft := draft.addMods (part.get "mods")
  (part.get "shards").fields.entries.foldlM Draft.addShard draft

namespace RoomPreset

variable {host : Host}

def compose (parts : List (RoomPreset host)) : Outcome String (RoomPreset host) := do
  let output ← parts.foldlM (fun draft part => draft.add part.value) ({} : Draft)
  (roomPresetModel host).fromValue output.value

/-- The settings of a configuration that is built. -/
def builtSettings (preset : RoomPreset host) (clusterKey : Option String)
    (given : Option (Settings .clusterSettings)) : Json :=
  let base := field preset.value "settings" (.object [])
  let base := given.elim base fun given => overlay base given.sparse.asValue
  clusterKey.elim base fun key => base.set "cluster_key" (.string key)

def builtShards (preset : RoomPreset host) : Fields :=
  (field preset.value "shards" (.object [])).fields.map fun _ shard =>
    shard.set "mods" (mergeMods (field preset.value "mods" (.object [])) (shard.get "mods"))

def build (preset : RoomPreset host) (token : String) (clusterKey : Option String)
    (given : Option (Settings .clusterSettings)) : Outcome String (ClusterConfig host) :=
  (clusterConfigModel host).fromValue (.ofFields (.ofList [
    ("settings", preset.builtSettings clusterKey given),
    ("shards", .ofFields preset.builtShards),
    ("token", .string token)]))

end RoomPreset

end DstServer.Presets
