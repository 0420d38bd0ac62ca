import DstServer.Configuration.Ini

/-!
# Discovery of a room

`discover` reads the topology of a room from its INI files: which
directories are shards, which of them is the master, and the ports.  A room
is the text of `cluster.ini` and the text of `server.ini` in each directory
that has one, in the order in which the file system lists them.
-/

namespace DstServer.Configuration

open Lib

structure Shard where
  name : String
  master : Bool
  id : Option Nat
  serverPort : Nat
  masterServerPort : Nat
  masterIp : Option Text
  bindIp : List Nat
  deriving DecidableEq, Repr

structure Cluster where
  /-- The master comes first. -/
  shards : List Shard
  shardEnabled : Bool
  masterPort : Nat
  deriving DecidableEq, Repr

/-- The files of a room that discovery reads. -/
structure Room where
  clusterIni : Text
  directories : List (String × Text)

/-- What `cluster.ini` says. -/
structure ClusterFile where
  ini : Ini
  shardEnabled : Bool
  port : Nat
  bind : List Nat

/-- What the loop over the directories has found. -/
structure Found where
  names : List Text := []
  ids : List Nat := []
  ports : List Nat := []
  masterPorts : List Nat := []
  clusterKeys : List (Option Text) := []
  shards : List Shard := []

def checkHost (host : Option Text) : Outcome String Unit :=
  match host with
  | some host => validateHost host
  | none => pure ()

def readCluster (source : Text) : Outcome String ClusterFile := do
  let ini ← Ini.parse "cluster.ini" source (some false)
  let shardEnabled ← ini.boolean "shard" "shard_enabled" false
  let port ← ini.port "shard" "master_port" 10888
  let bind ← ini.ipv4 "bind_ip" [127, 0, 0, 1]
  checkHost (ini.get "shard" "master_ip")
  pure { ini, shardEnabled, port, bind }

def readId (ini : Ini) (master : Bool) (ids : List Nat) : Outcome String (Option Nat × List Nat) :=
  match ini.get "shard" "id" with
  | none => pure (none, ids)
  | some value => do
    let id ← unsigned value "SHARD.id"
    Outcome.ensure ((master = true ∧ id = 1) ∨ (master = false ∧ 2 ≤ id))
      "master shard id must be 1; secondary shard ids must be at least 2"
    Outcome.ensure (id ∉ ids) "shard IDs must be unique"
    pure (some id, id :: ids)

/-- The body of the loop over the directories. -/
def readShard (toLowercase : Text → Text) (cluster : ClusterFile) (multi : Bool) (found : Found)
    (directory : String × Text) : Outcome String Found := do
  let name := directory.1
  Outcome.ensure (toLowercase name.toList ∉ found.names) "duplicate shard directory names"
  let ini ← Ini.parse (name ++ "/server.ini") directory.2 (some true)
  Outcome.ensure (¬(multi = true ∨ cluster.shardEnabled = true) ∨
    (ini.get "shard" "is_master").isSome = true) "is_master is required for each enabled shard"
  let master ← ini.boolean "shard" "is_master" true
  Outcome.ensure (master = true ∨ (ini.get "shard" "name").any (· ≠ []) = true)
    "every secondary shard requires SHARD.name"
  let (id, ids) ← readId ini master found.ids
  let masterPort ← ini.port "shard" "master_port" cluster.port
  let clusterKey := (ini.get "shard" "cluster_key").or (cluster.ini.get "shard" "cluster_key")
  let masterIp := (ini.get "shard" "master_ip").or (cluster.ini.get "shard" "master_ip")
  checkHost masterIp
  Outcome.ensure (master = true ∨ masterIp.isSome = true)
    "master_ip is required for every secondary shard"
  let serverPort ← ini.port "network" "server_port" 10999
  let masterServerPort ← ini.port "steam" "master_server_port" 27016
  let bindIp ← ini.ipv4 "bind_ip" cluster.bind
  Outcome.ensure (serverPort ∉ found.ports) s!"UDP port {serverPort} is used more than once"
  Outcome.ensure (masterServerPort ∉ serverPort :: found.ports)
    s!"UDP port {masterServerPort} is used more than once"
  pure {
    names := toLowercase name.toList :: found.names
    ids
    ports := masterServerPort :: serverPort :: found.ports
    masterPorts := masterPort :: found.masterPorts
    clusterKeys := clusterKey :: found.clusterKeys
    shards := found.shards ++
      [{ name, master, id, serverPort, masterServerPort, masterIp, bindIp }] }

/-- The order of the directories: by their names without regard to case. -/
def directoryLe (toLowercase : Text → Text) (a b : String × Text) : Bool :=
  toLex (String.ofList (toLowercase a.1.toList), a.1) ≤
    toLex (String.ofList (toLowercase b.1.toList), b.1)

/-- The checks after the loop. -/
def checkFound (multi shardEnabled : Bool) (found : Found) : Outcome String Nat := do
  Outcome.ensure ((found.shards.filter Shard.master).length = 1) "expected exactly one master shard"
  Outcome.ensure (found.masterPorts.dedup.length = 1) "all shards must use the same master_port"
  let masterPort ← Outcome.unwrap found.masterPorts.head?
  Outcome.ensure (masterPort ∉ found.ports) "master_port conflicts with another UDP port"
  if multi = true ∨ shardEnabled = true then do
    Outcome.ensure (found.clusterKeys.dedup.length = 1) "all shards must use the same cluster_key"
    Outcome.ensure (some [] ∉ found.clusterKeys ∧ (multi = false ∨ none ∉ found.clusterKeys))
      "multiple shards require a non-empty shared cluster_key"
  pure masterPort

def discover (toLowercase : Text → Text) (room : Room) : Outcome String Cluster := do
  let cluster ← readCluster room.clusterIni
  let entries := room.directories.filter fun directory =>
    directory.1 ≠ "mods" ∧ directory.1.toList.head? ≠ some '.'
  entries.forM fun directory => validateShardName toLowercase directory.1.toList
  Outcome.ensure (entries ≠ []) "no DST shard directories found"
  let directories := entries.mergeSort (directoryLe toLowercase)
  let multi := decide (1 < directories.length)
  Outcome.ensure (multi = false ∨ cluster.shardEnabled = true)
    "shard_enabled must be true for multiple shards"
  let found ← directories.foldlM (readShard toLowercase cluster multi) {}
  let masterPort ← checkFound multi cluster.shardEnabled found
  pure {
    shards := found.shards.mergeSort fun a b => a.master || !b.master
    shardEnabled := cluster.shardEnabled, masterPort }

end DstServer.Configuration
