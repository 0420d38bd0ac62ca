import DstServer.Configuration.Discover
import DstServer.Configuration.Settings

/-!
# Cluster configurations

The topology of a configuration: the settings of the cluster and of its
shards.  `ConfigData.check` is what `from_value` and `save` check of it,
and `save` renders its INI files for a fresh room.
-/

namespace DstServer.Configuration

open Lib

/-- The settings of a shard, and whether it has level data. -/
structure ShardConfig where
  settings : Sparse
  level : Bool

structure ConfigData where
  settings : Option Sparse
  shards : OrderedMap String ShardConfig

namespace Scalar

def asBool : Scalar → Bool
  | bool value => value
  | _ => false

def asNat? : Scalar → Option Nat
  | number value => some value
  | _ => none

def asText? : Scalar → Option Text
  | text value => some value
  | _ => none

end Scalar

/-! ## Getters -/

namespace Sparse

def clusterFlag (settings : Sparse) (name : String) : Bool :=
  (Model.get .clusterSettings settings name).asBool

def clusterText? (settings : Sparse) (name : String) : Option Text :=
  (Model.get .clusterSettings settings name).asText?

def clusterNat (settings : Sparse) (name : String) : Nat :=
  (Model.get .clusterSettings settings name).asNat

def shardFlag (settings : Sparse) (name : String) : Bool :=
  (Model.get .shardSettings settings name).asBool

def shardText? (settings : Sparse) (name : String) : Option Text :=
  (Model.get .shardSettings settings name).asText?

def shardNat? (settings : Sparse) (name : String) : Option Nat :=
  (Model.get .shardSettings settings name).asNat?

def shardNat (settings : Sparse) (name : String) : Nat :=
  (Model.get .shardSettings settings name).asNat

end Sparse

namespace ConfigData

def clusterSettings (config : ConfigData) : Sparse := config.settings.getD .empty

/-- Whether there is more than one shard. -/
def multi (config : ConfigData) : Bool := 1 < config.shards.entries.length

/-- The cluster key of a shard. -/
def clusterKey (config : ConfigData) (shard : ShardConfig) : Option Text :=
  (shard.settings.shardText? "cluster_key").or (config.clusterSettings.clusterText? "cluster_key")

def masterPort (config : ConfigData) (shard : ShardConfig) : Nat :=
  (shard.settings.shardNat? "master_port").getD (config.clusterSettings.clusterNat "master_port")

/-! ## Checks -/

/-- What the loop over the shards has collected. -/
structure Collected where
  names : List Text := []
  ids : List Nat := []
  ports : List Nat := []
  masterPorts : List Nat := []
  keys : List (Option Text) := []
  masters : Nat := 0

/-- The body of the loop over the shards. -/
def checkShard (toLowercase : Text → Text) (config : ConfigData) (collected : Collected)
    (entry : String × ShardConfig) : Outcome String Collected := do
  let name := entry.1
  let shard := entry.2
  let settings := shard.settings
  validateShardName toLowercase name.toList
  Outcome.ensure (toLowercase name.toList ∉ collected.names) "duplicate shard directory names"
  Model.check .shardSettings settings
  let master := settings.shardFlag "is_master"
  Outcome.ensure (master = true ∨ (settings.shardText? "name").any (· ≠ []) = true)
    "secondary shards require a name"
  Outcome.ensure (∀ id ∈ settings.shardNat? "id", id ∉ collected.ids) "shard ids must be unique"
  Outcome.ensure (settings.shardNat "server_port" ∉ collected.ports) "UDP ports must be unique"
  Outcome.ensure
    (settings.shardNat "master_server_port" ∉ settings.shardNat "server_port" :: collected.ports)
    "UDP ports must be unique"
  Outcome.ensure
    (¬((config.multi = true ∨ config.clusterSettings.clusterFlag "shard_enabled" = true) ∧
        master = false) ∨
      ((settings.shardText? "master_ip").or
        (config.clusterSettings.clusterText? "master_ip")).isSome = true)
    "secondary shards require master_ip"
  Outcome.ensure
    (config.clusterSettings.clusterText? "game_mode" ∉
      [some "quagmire".toList, some "lavaarena".toList] ∨ shard.level = true)
    "event game modes require level data for every shard"
  pure {
    names := toLowercase name.toList :: collected.names
    ids := (settings.shardNat? "id").toList ++ collected.ids
    ports := settings.shardNat "master_server_port" :: settings.shardNat "server_port" ::
      collected.ports
    masterPorts := config.masterPort shard :: collected.masterPorts
    keys := config.clusterKey shard :: collected.keys
    masters := collected.masters + if master then 1 else 0 }

/-- The constraints of the fields, of a value with the types of the model. -/
def checkTypes (config : ConfigData) : Outcome String Unit := do
  Model.checkFields .clusterSettings config.clusterSettings
  config.shards.entries.forM fun entry => Model.checkFields .shardSettings entry.2.settings
  Outcome.ensure (config.shards.entries ≠ []) "invalid ClusterConfig at shards"

def check (toLowercase : Text → Text) (config : ConfigData) : Outcome String Unit := do
  config.checkTypes
  Model.check .clusterSettings config.clusterSettings
  Outcome.ensure
    (config.multi = false ∨ config.clusterSettings.get? "shard_enabled" ≠ some (.bool false))
    "shard_enabled cannot be false for multiple shards"
  let collected ← config.shards.entries.foldlM (config.checkShard toLowercase) {}
  Outcome.ensure (collected.masters = 1) "expected exactly one master shard"
  Outcome.ensure (collected.masterPorts.dedup.length = 1) "all shards must use the same master_port"
  let masterPort ← Outcome.unwrap collected.masterPorts.head?
  Outcome.ensure (masterPort ∉ collected.ports) "master_port conflicts with another UDP port"
  Outcome.ensure (collected.keys.dedup.length = 1 ∧ some [] ∉ collected.keys)
    "all shards require the same non-empty cluster_key or must omit it"

end ConfigData

/-- A configuration with the types of the models that passes the checks. -/
structure ClusterConfig (toLowercase : Text → Text) where
  data : ConfigData
  clusterTyped : Model.Typed .clusterSettings data.clusterSettings
  shardsTyped : ∀ name shard, data.shards.get? name = some shard →
    Model.Typed .shardSettings shard.settings
  checked : data.check toLowercase = .ok ()

/-! ## Saving -/

/-- The INI files of a room. -/
structure RoomFiles where
  clusterIni : Text
  servers : List (String × Text)

/-- Two hexadecimal digits. -/
def hexByte (byte : Fin 256) : Text :=
  [Json.hexDigit (byte.val / 16), Json.hexDigit (byte.val % 16)]

/-- `new_cluster_key` from 32 random bytes. -/
def newClusterKey (bytes : Fin 32 → Fin 256) : Text := (List.ofFn bytes).flatMap hexByte

namespace ConfigData

def hasKey (config : ConfigData) : Bool :=
  (config.clusterSettings.clusterText? "cluster_key").isSome ||
    config.shards.values.any fun shard => (shard.settings.shardText? "cluster_key").isSome

/-- The INI files among `files`. -/
def files (config : ConfigData) : Outcome String RoomFiles := do
  let settings := config.clusterSettings
  let clusterIni ← Model.renderIni .clusterSettings settings.asValue config.multi
  let multi := config.multi || settings.clusterFlag "shard_enabled"
  let servers ← config.shards.entries.mapM' fun entry => do
    let source ← Model.renderIni .shardSettings entry.2.settings.asValue multi
    pure (entry.1, source)
  pure { clusterIni, servers }

/-- The configuration with a key. -/
def keyed (config : ConfigData) (key : Text) : ConfigData :=
  if config.hasKey then config
  else { config with settings := some (config.clusterSettings.insert "cluster_key" (.text key)) }

/-- `save` in a room without files. -/
def save (toLowercase : Text → Text) (config : ConfigData) (bytes : Fin 32 → Fin 256) :
    Outcome String RoomFiles := do
  let target := config.keyed (newClusterKey bytes)
  target.check toLowercase
  target.files

end ConfigData

end DstServer.Configuration
