import DstServer.Configuration.Saved

/-!
# Discovery of a saved room

`readShard_saved` takes the body of the loop over the directories through a
saved file, and `discover_saved` the whole discovery.  `discover_saved_iff`
compares what is discovered with the configuration: a saved room is found
again just when no secondary shard has a blank name and no shared key is
blank.
-/

namespace DstServer.Configuration

open Lib

variable {toLowercase : Text → Text} {config : ConfigData}

/-! ## One shard -/

theorem declared_is_master : Model.declared? .shardSettings "shard" "is_master" =
    some ⟨"is_master", .bool, .bool true, false, []⟩ := rfl

theorem declared_name : Model.declared? .shardSettings "shard" "name" =
    some ⟨"name", .string, .null, true, [.length 1 none, .plain]⟩ := rfl

theorem declared_id : Model.declared? .shardSettings "shard" "id" =
    some ⟨"id", .u64, .null, true, [.range 1 4294967295]⟩ := rfl

theorem declared_bind_ip : Model.declared? .shardSettings "shard" "bind_ip" =
    some ⟨"bind_ip", .string, .null, true, [.ipv4, .plain]⟩ := rfl

theorem declared_master_ip : Model.declared? .shardSettings "shard" "master_ip" =
    some ⟨"master_ip", .string, .null, true, [.length 1 none, .plain]⟩ := rfl

theorem declared_master_port : Model.declared? .shardSettings "shard" "master_port" =
    some ⟨"master_port", .u64, .null, true, [.range 1024 65535]⟩ := rfl

theorem declared_key : Model.declared? .shardSettings "shard" "cluster_key" =
    some ⟨"cluster_key", .string, .null, true, [.plain]⟩ := rfl

theorem declared_master_server_port :
    Model.declared? .shardSettings "steam" "master_server_port" =
      some ⟨"master_server_port", .u64, .number 27016, false, [.range 1024 65535]⟩ := rfl

theorem declared_server_port : Model.declared? .shardSettings "network" "server_port" =
    some ⟨"server_port", .u64, .number 10999, false, [.range 1024 65535]⟩ := rfl

/-- The text of the `server.ini` of a shard. -/
def Entry.source (config : ConfigData) (entry : Entry) : Text :=
  fileSource (Model.blocks .shardSettings
    (Model.assumed .shardSettings entry.2.settings config.connected))

/-- The directory of a shard with its file. -/
def Entry.directory (config : ConfigData) (entry : Entry) : String × Text :=
  (entry.1, entry.source config)

/-- The file of a shard as it is read. -/
def Entry.ini (config : ConfigData) (entry : Entry) : Ini :=
  { document .shardSettings (Model.assumed .shardSettings entry.2.settings config.connected) with
    path := entry.1 ++ "/server.ini" }

/-- The file of a shard is not too large. -/
def Entry.Fits (config : ConfigData) (entry : Entry) : Prop :=
  Text.utf8Length (fileText (Model.blocks .shardSettings
    (Model.assumed .shardSettings entry.2.settings config.connected))) < Rooms.maxFileBytes

/-- The file of the cluster as it is read. -/
def ConfigData.clusterFile (config : ConfigData) (bind : List Nat) : ClusterFile where
  ini := clusterIni config.clusterSettings config.multi
  shardEnabled := config.connected
  port := config.clusterSettings.clusterNat "master_port"
  bind

/-- The name of a secondary shard is visible. -/
def Entry.Named (entry : Entry) : Prop :=
  entry.master = true ∨ ∀ name ∈ entry.shardName, Text.trim name ≠ []

/-- The cluster key of a shard as it is read. -/
def Entry.readKey (config : ConfigData) (entry : Entry) : Option Text :=
  (config.clusterKey entry.2).map Text.trim

/-- What the loop has found after a shard. -/
def Found.add (toLowercase : Text → Text) (config : ConfigData) (found : Found) (entry : Entry)
    (bind : List Nat) : Found where
  names := toLowercase entry.1.toList :: found.names
  ids := entry.id.toList ++ found.ids
  ports := entry.masterServerPort :: entry.serverPort :: found.ports
  masterPorts := config.masterPort entry.2 :: found.masterPorts
  clusterKeys := entry.readKey config :: found.clusterKeys
  shards := found.shards ++ [{
    name := entry.1, master := entry.master, id := entry.id, serverPort := entry.serverPort
    masterServerPort := entry.masterServerPort, masterIp := entry.masterIp config, bindIp := bind }]

section Shard

variable {entry : Entry}

theorem get_is_master (hvalid : Model.Valid .shardSettings entry.2.settings)
    (h : config.connected = true) : ((entry.ini config).get "shard" "is_master").isSome = true := by
  have hvalue : ∃ flag, Model.get .shardSettings entry.2.settings "is_master" = .bool flag := by
    rw [Model.get_of_declared? declared_is_master]
    cases hget : entry.2.settings.get? "is_master" with
    | none => exact ⟨true, rfl⟩
    | some value =>
      obtain ⟨haccepts, _⟩ := hvalid.accepts declared_is_master hget
      rcases haccepts with ⟨hoptional, _⟩ | haccepts
      · cases hoptional
      · exact haccepts
  obtain ⟨flag, hflag⟩ := hvalue
  rw [Entry.ini, get_document declared_is_master, Model.assumed, if_pos h,
    OrderedMap.get?_insert_self, hflag]
  simp [Option.filter_some]

theorem readId_saved (hvalid : Model.Valid .shardSettings entry.2.settings) (ids : List Nat)
    {result : Option Nat × List Nat} :
    readId (entry.ini config) entry.master ids = .ok result ↔
      (∀ id ∈ entry.id, id ∉ ids) ∧ result = (entry.id, entry.id.toList ++ ids) := by
  have hassumed := valid_assumed hvalid config.connected
  have hnumber : numberOf (Model.assumed .shardSettings entry.2.settings config.connected) "id" =
      entry.id := by
    rw [asNat?_get declared_id, get_assumed _ _ (by decide)]
    rfl
  rw [readId, Entry.ini, number_document hassumed declared_id, hnumber]
  cases hid : entry.id with
  | none => simp [eq_comm]
  | some id =>
    have hrange : id < 4294967296 := by
      rw [hid] at hnumber
      obtain ⟨value, hget, hvalue⟩ := Option.bind_eq_some_iff.1 hnumber
      obtain ⟨_, hadmits, _⟩ := hassumed.accepts declared_id hget
      have heq : value = .number id := by
        cases value <;> simp_all [Scalar.asNat?]
      subst heq
      have hrule : 1 ≤ id ∧ id ≤ 4294967295 := by
        simpa [Field.admits, Rule.admits] using hadmits
      omega
    have hmaster : (entry.master = true ∧ id = 1) ∨ (entry.master = false ∧ 2 ≤ id) := by
      have hcheck := hvalid.checked
      rw [Model.check] at hcheck
      obtain ⟨_, _, hcheck⟩ := Outcome.bind_eq_ok.1 hcheck
      have hget : Model.get .shardSettings entry.2.settings "id" = .number id := by
        have hasNat : (Model.get .shardSettings entry.2.settings "id").asNat? = some id := hid
        cases hvalue : Model.get .shardSettings entry.2.settings "id" <;>
          simp_all [Scalar.asNat?]
      have hflag : ∀ value : Scalar, value.asBool = true ↔ value = .bool true := by
        intro value
        cases value <;> simp [Scalar.asBool]
      rw [hget] at hcheck
      have hboth := Outcome.ensure_eq_ok.1 hcheck
      simp only [Entry.master, Sparse.shardFlag, ← Bool.not_eq_true, hflag]
      exact hboth
    simp only [Option.map_some]
    rw [unsigned_decimal hrange, Outcome.ok_bind, Outcome.ensure_of hmaster, Outcome.ok_bind,
      Outcome.bind_eq_ok]
    constructor
    · rintro ⟨_, hnew, hresult⟩
      cases hresult
      exact ⟨by simpa using hnew, rfl⟩
    · rintro ⟨hnew, rfl⟩
      exact ⟨(), by simpa using hnew, rfl⟩

/-- A shard alone is the master. -/
theorem SoundConfig.reachable (hsound : SoundConfig toLowercase config)
    (hentry : entry ∈ config.shards.entries) :
    entry.master = true ∨ (entry.masterIp config).isSome = true := by
  rcases (hsound.entries entry hentry).host with hmaster | hconnected | hsome
  · exact Or.inl hmaster
  · have hmasters := hsound.masters
    have hmulti : config.multi = false := by
      rw [ConfigData.connected, Bool.or_eq_false_iff] at hconnected
      exact hconnected.1
    have hlength : config.shards.entries.length ≤ 1 := by
      simpa [ConfigData.multi] using hmulti
    obtain ⟨master, hmaster⟩ := List.length_eq_one_iff.1 hmasters
    have hmem : master ∈ config.shards.entries.filter Entry.master :=
      hmaster ▸ List.mem_singleton_self master
    obtain ⟨hmem, hflag⟩ := List.mem_filter.1 hmem
    have hsame : entry = master := by
      have hpositive := List.length_pos_of_mem hmem
      obtain ⟨only, hlist⟩ := List.length_eq_one_iff.1 (Nat.le_antisymm hlength hpositive)
      rw [hlist, List.mem_singleton] at hmem hentry
      rw [hmem, hentry]
    exact Or.inl (hsame ▸ hflag)
  · exact Or.inr hsome

/-- The body of the loop over the directories at the file of a shard. -/
theorem readShard_saved (hsound : SoundConfig toLowercase config)
    (hentry : entry ∈ config.shards.entries) (hfits : entry.Fits config) (bind : List Nat) :
    ∃ bytes, ∀ found after,
      readShard toLowercase (config.clusterFile bind) config.multi found (entry.directory config) =
          .ok after ↔
        (toLowercase entry.1.toList ∉ found.names ∧ entry.Named ∧ (∀ id ∈ entry.id, id ∉ found.ids) ∧
          entry.serverPort ∉ found.ports ∧
            entry.masterServerPort ∉ entry.serverPort :: found.ports) ∧
          after = found.add toLowercase config entry bytes := by
  have hvalid := hsound.shards entry hentry
  have hassumed := valid_assumed hvalid config.connected
  have hlocal := hsound.entries entry hentry
  have hparse : Ini.parse (entry.1 ++ "/server.ini") (entry.source config) (some true) =
      .ok (entry.ini config) := parse_document _ hassumed hfits
  have hboolean : (entry.ini config).boolean "shard" "is_master" true = .ok entry.master := by
    rw [Entry.ini, boolean_document hassumed declared_is_master, get_assumed _ _ (by decide)]
    rfl
  have hrequired : ¬(config.multi = true ∨ config.connected = true) ∨
      ((entry.ini config).get "shard" "is_master").isSome = true := by
    by_cases hconnected : config.connected = true
    · exact Or.inr (get_is_master hvalid hconnected)
    · refine Or.inl fun h => hconnected ?_
      rcases h with hmulti | h
      · simp [ConfigData.connected, hmulti]
      · exact h
  have hname : (entry.ini config).get "shard" "name" = entry.shardName.map Text.trim := by
    rw [Entry.ini, text_document hassumed declared_name, get_assumed _ _ (by decide)]
    rfl
  have hnamed : (entry.master = true ∨
      ((entry.shardName.map Text.trim).any (· ≠ []) : Bool) = true) ↔ entry.Named := by
    rw [Entry.Named]
    refine or_congr_right' fun hmaster => ?_
    have hsome := hlocal.secondary.resolve_left hmaster
    cases hshardName : entry.shardName with
    | none => simp [hshardName] at hsome
    | some name => simp
  have hport : (entry.ini config).port "shard" "master_port"
      (config.clusterSettings.clusterNat "master_port") = .ok (config.masterPort entry.2) := by
    rw [Entry.ini, port_document hassumed declared_master_port, asNat?_get declared_master_port,
      get_assumed _ _ (by decide)]
    rfl
  have hkey : ((entry.ini config).get "shard" "cluster_key").or
      ((clusterIni config.clusterSettings config.multi).get "shard" "cluster_key") =
        entry.readKey config := by
    have hcluster := valid_assumed hsound.cluster config.multi
    rw [Entry.ini, text_document hassumed declared_key, get_assumed _ _ (by decide), clusterIni,
      text_document hcluster declared_cluster_key, get_assumed _ _ (by decide), ← Option.map_or]
    rfl
  have hhost : checkHost (entry.masterIp config) = .ok () ∧
      ((entry.ini config).get "shard" "master_ip").or
        ((clusterIni config.clusterSettings config.multi).get "shard" "master_ip") =
          entry.masterIp config := by
    have hcluster := valid_assumed hsound.cluster config.multi
    have hcheck := hvalid.checked
    rw [Model.check] at hcheck
    obtain ⟨_, hshard, _⟩ := Outcome.bind_eq_ok.1 hcheck
    obtain ⟨hshard, hshardIp⟩ := checkHost_document hshard
    have hcheck := hsound.cluster.checked
    rw [Model.check] at hcheck
    obtain ⟨_, hroom, _⟩ := Outcome.bind_eq_ok.1 hcheck
    obtain ⟨hroom, hroomIp⟩ := checkHost_document hroom
    constructor
    · rw [Entry.masterIp, Sparse.shardText?, Sparse.clusterText?, ← hshardIp, ← hroomIp]
      cases hvalue : (Model.get .shardSettings entry.2.settings "master_ip").asText? with
      | none => exact hroom
      | some host =>
        rw [hvalue] at hshard
        exact hshard
    · rw [Entry.ini, text_document hassumed declared_master_ip, get_assumed _ _ (by decide), clusterIni,
        text_document hcluster declared_cluster_host, get_assumed _ _ (by decide), hshardIp, hroomIp]
      rfl
  have hreach := hsound.reachable hentry
  have hserver : (entry.ini config).port "network" "server_port" 10999 = .ok entry.serverPort := by
    rw [Entry.ini, port_document hassumed declared_server_port,
      asNat_get hassumed declared_server_port, get_assumed _ _ (by decide)]
    rfl
  have hquery : (entry.ini config).port "steam" "master_server_port" 27016 =
      .ok entry.masterServerPort := by
    rw [Entry.ini, port_document hassumed declared_master_server_port,
      asNat_get hassumed declared_master_server_port, get_assumed _ _ (by decide)]
    rfl
  obtain ⟨bytes, hbytes⟩ := ipv4_document (entry.1 ++ "/server.ini") hassumed declared_bind_ip bind
  rw [← Entry.ini] at hbytes
  refine ⟨bytes, fun found after => ?_⟩
  simp only [readShard, Entry.directory, ConfigData.clusterFile, hparse, hboolean, hname, hport, hkey,
    hhost, hserver, hquery, hbytes, Outcome.ok_bind, Outcome.bind_eq_ok, Outcome.ensure_eq_ok,
    readId_saved hvalid]
  constructor
  · rintro ⟨_, hnew, _, _, _, hvisible, _, ⟨hids, rfl⟩, _, _, _, hfree, _, hfree', hafter⟩
    exact ⟨⟨Outcome.ensure_eq_ok.1 hnew, hnamed.1 hvisible, hids, hfree, hfree'⟩,
      (Except.ok.inj hafter).symm⟩
  · rintro ⟨⟨hnew, hvisible, hids, hfree, hfree'⟩, rfl⟩
    exact ⟨(), Outcome.ensure_eq_ok.2 hnew, (), Outcome.ensure_eq_ok.2 hrequired, (),
      hnamed.2 hvisible, _, ⟨hids, rfl⟩, (), hreach, (), hfree, (), hfree', rfl⟩

end Shard

/-! ## The loop -/

/-- A shard that was discovered is the one of the configuration. -/
structure Describes (entry : Entry) (shard : Shard) : Prop where
  name : shard.name = entry.1
  master : shard.master = entry.master
  serverPort : shard.serverPort = entry.serverPort
  masterServerPort : shard.masterServerPort = entry.masterServerPort

/-- What the loop over these directories finds. -/
structure Finds (config : ConfigData) (entries : List Entry) (before after : Found) : Prop where
  ports : after.ports.Perm (entries.flatMap Entry.ports ++ before.ports)
  masterPorts : after.masterPorts.Perm
    (entries.map (fun entry => config.masterPort entry.2) ++ before.masterPorts)
  clusterKeys : after.clusterKeys.Perm (entries.map (Entry.readKey config) ++ before.clusterKeys)
  shards : ∃ shards, after.shards = before.shards ++ shards ∧
    List.Forall₂ Describes entries shards

theorem Finds.cons {entry : Entry} {entries : List Entry} {before after : Found} {bind : List Nat}
    (h : Finds config entries (before.add toLowercase config entry bind) after) :
    Finds config (entry :: entries) before after := by
  have hmiddle : ∀ {α : Type} {a : α} {x y z : List α}, z.Perm (x ++ a :: y) → z.Perm (a :: (x ++ y)) :=
    fun hz => hz.trans List.perm_middle
  obtain ⟨shards, hshards, hdescribes⟩ := h.shards
  refine ⟨?_, hmiddle h.masterPorts, hmiddle h.clusterKeys, ?_⟩
  · have hports := hmiddle h.ports
    rw [List.flatMap_cons, Entry.ports, List.append_assoc]
    refine hports.trans (((List.perm_middle).cons _).trans ?_)
    exact List.Perm.swap _ _ _
  · let shard : Shard := {
      name := entry.1, master := entry.master, id := entry.id, serverPort := entry.serverPort
      masterServerPort := entry.masterServerPort, masterIp := entry.masterIp config, bindIp := bind }
    refine ⟨shard :: shards, ?_, List.Forall₂.cons ⟨rfl, rfl, rfl, rfl⟩ hdescribes⟩
    rw [hshards, Found.add, List.append_assoc, List.singleton_append]

/-- Directories that are distinct in all that has to be distinct, from those before. -/
structure Apart (toLowercase : Text → Text) (entries : List Entry) (found : Found) : Prop where
  names : (entries.map (fun entry => toLowercase entry.1.toList) ++ found.names).Nodup
  ids : (entries.flatMap (fun entry => entry.id.toList) ++ found.ids).Nodup
  ports : (entries.flatMap Entry.ports ++ found.ports).Nodup

theorem Apart.cons (config : ConfigData) {entry : Entry} {entries : List Entry} {found : Found}
    (bind : List Nat) (h : Apart toLowercase (entry :: entries) found) :
    (toLowercase entry.1.toList ∉ found.names ∧ (∀ id ∈ entry.id, id ∉ found.ids) ∧
      entry.serverPort ∉ found.ports ∧ entry.masterServerPort ∉ entry.serverPort :: found.ports) ∧
      Apart toLowercase entries (found.add toLowercase config entry bind) := by
  obtain ⟨hnames, hids, hports⟩ := h
  rw [List.map_cons, List.cons_append, List.nodup_cons, List.mem_append, not_or] at hnames
  rw [List.flatMap_cons, List.append_assoc] at hids hports
  have hidsPerm : (entry.id.toList ++ (entries.flatMap (fun entry => entry.id.toList) ++ found.ids)).Perm
      (entries.flatMap (fun entry => entry.id.toList) ++ (entry.id.toList ++ found.ids)) := by
    rw [← List.append_assoc, ← List.append_assoc]
    exact List.perm_append_comm.append_right _
  have hportsPerm : (entry.ports ++ (entries.flatMap Entry.ports ++ found.ports)).Perm
      (entries.flatMap Entry.ports ++ (entry.masterServerPort :: entry.serverPort :: found.ports)) := by
    have hswap : (entry.ports ++ found.ports).Perm
        (entry.masterServerPort :: entry.serverPort :: found.ports) := List.Perm.swap _ _ _
    rw [← List.append_assoc]
    refine (List.perm_append_comm.append_right _).trans ?_
    rw [List.append_assoc]
    exact hswap.append_left _
  have hports' := hportsPerm.nodup_iff.1 hports
  have hlast := (List.nodup_append.1 hports').2.1
  rw [List.nodup_cons, List.nodup_cons] at hlast
  refine ⟨⟨hnames.1.2, fun id hid => ?_, hlast.2.1, hlast.1⟩, ?_, hidsPerm.nodup_iff.1 hids, hports'⟩
  · have hids' := (List.nodup_append.1 (hidsPerm.nodup_iff.1 hids)).2.1
    rw [Option.mem_def] at hid
    rw [hid, Option.toList_some, List.singleton_append, List.nodup_cons] at hids'
    exact hids'.1
  · rw [Found.add, List.nodup_middle, List.nodup_cons, List.mem_append, not_or]
    exact hnames

theorem readShards_saved (hsound : SoundConfig toLowercase config)
    (hfits : ∀ entry ∈ config.shards.entries, Entry.Fits config entry) (bind : List Nat)
    {entries : List Entry} (hentries : ∀ entry ∈ entries, entry ∈ config.shards.entries)
    {found : Found} (hapart : Apart toLowercase entries found) :
    ((∀ entry ∈ entries, entry.Named) → ∃ after,
      (entries.map (Entry.directory config)).foldlM
        (readShard toLowercase (config.clusterFile bind) config.multi) found = .ok after) ∧
    ∀ after, (entries.map (Entry.directory config)).foldlM
        (readShard toLowercase (config.clusterFile bind) config.multi) found = .ok after →
      (∀ entry ∈ entries, entry.Named) ∧ Finds config entries found after := by
  induction entries generalizing found with
  | nil =>
    refine ⟨fun _ => ⟨found, rfl⟩, fun after h => ?_⟩
    cases h
    exact ⟨by simp, .refl _, .refl _, .refl _, [], by simp, .nil⟩
  | cons entry rest ih =>
    obtain ⟨bytes, hread⟩ := readShard_saved hsound (hentries entry List.mem_cons_self)
      (hfits entry (hentries entry List.mem_cons_self)) bind
    obtain ⟨⟨hnew, hids, hserver, hquery⟩, hrest⟩ := hapart.cons config bytes
    obtain ⟨hforward, hback⟩ := ih (fun e he => hentries e (List.mem_cons_of_mem _ he)) hrest
    rw [List.map_cons, List.foldlM_cons]
    constructor
    · intro hnamed
      obtain ⟨after, hafter⟩ := hforward fun e he => hnamed e (List.mem_cons_of_mem _ he)
      refine ⟨after, Outcome.bind_eq_ok.2 ⟨_, (hread found _).2 ⟨?_, rfl⟩, hafter⟩⟩
      exact ⟨hnew, hnamed entry List.mem_cons_self, hids, hserver, hquery⟩
    · intro after h
      obtain ⟨middle, hmiddle, hafter⟩ := Outcome.bind_eq_ok.1 h
      obtain ⟨⟨_, hnamed, _⟩, rfl⟩ := (hread found middle).1 hmiddle
      obtain ⟨hnamedRest, hfinds⟩ := hback after hafter
      exact ⟨List.forall_mem_cons.2 ⟨hnamed, hnamedRest⟩, hfinds.cons⟩

/-! ## The room -/

/-- The configuration is visible in its files: no name of a secondary shard is blank, nor the key that
connected shards share. -/
structure Visible (config : ConfigData) : Prop where
  names : ∀ entry ∈ config.shards.entries, Entry.Named entry
  keys : config.connected = true → ∀ entry ∈ config.shards.entries,
    ∀ key ∈ config.clusterKey entry.2, Text.trim key ≠ []

/-- What discovery reports is the configuration: the same shards with the same ports, and the same
master, which comes first. -/
structure Discovers (config : ConfigData) (cluster : Cluster) : Prop where
  shards : ∃ entries : List Entry, entries.Perm config.shards.entries ∧
    List.Forall₂ Describes entries cluster.shards
  master : ∃ shard, cluster.shards.head? = some shard ∧ shard.master = true
  shardEnabled : cluster.shardEnabled = config.connected
  masterPort : ∀ entry ∈ config.shards.entries, config.masterPort entry.2 = cluster.masterPort

/-- Lower case of a text, which is known where the text is ASCII. -/
structure Lowercase where
  apply : Text → Text
  ascii : ∀ text, (∀ c ∈ text, c.toNat < 128) → apply text = Text.lower text

theorem Lowercase.not_mods (lowercase : Lowercase) {name : String}
    (h : validateShardName lowercase.apply name.toList = .ok ()) : name ≠ "mods" := by
  rintro rfl
  obtain ⟨_, _, _, _, hreserved⟩ := Outcome.ensure_eq_ok.1 h
  rw [lowercase.ascii _ (by decide)] at hreserved
  exact hreserved (by decide +kernel)

theorem dedup_length_of_forall {α : Type} [DecidableEq α] {l : List α} {a : α} (hne : l ≠ [])
    (h : ∀ b ∈ l, b = a) : l.dedup.length = 1 := by
  have hrep : l = List.replicate l.length a := List.eq_replicate_iff.2 ⟨rfl, h⟩
  rw [hrep, List.replicate_dedup (by simpa using hne)]
  rfl

/-- Where the loop starts. -/
theorem SoundConfig.apart (hsound : SoundConfig toLowercase config) {entries : List Entry}
    (h : entries.Perm config.shards.entries) : Apart toLowercase entries {} where
  names := by
    rw [List.append_nil]
    exact ((h.map _).nodup_iff).2 hsound.names
  ids := by
    rw [List.append_nil]
    exact ((h.flatMap_right _).nodup_iff).2 hsound.ids
  ports := by
    rw [List.append_nil]
    exact ((h.flatMap_right _).nodup_iff).2 hsound.ports

section Found

variable {entries : List Entry} {found : Found}

theorem masters_of_describes {shards : List Shard} (h : List.Forall₂ Describes entries shards) :
    (shards.filter Shard.master).length = (entries.filter Entry.master).length := by
  induction h with
  | nil => rfl
  | cons hdescribes _ ih =>
    rw [List.filter_cons, List.filter_cons, hdescribes.master]
    split
    · rw [List.length_cons, List.length_cons, ih]
    · exact ih

/-- The checks after the loop. -/
theorem checkFound_saved (hsound : SoundConfig toLowercase config)
    (hkeys : ∀ entry ∈ config.shards.entries, (config.clusterKey entry.2).isSome = true)
    (hentries : entries.Perm config.shards.entries) (hfinds : Finds config entries {} found)
    {port : Nat} :
    checkFound config.multi config.connected found = .ok port ↔
      (config.connected = true → ∀ entry ∈ config.shards.entries,
        ∀ key ∈ config.clusterKey entry.2, Text.trim key ≠ []) ∧
      ∀ entry ∈ config.shards.entries, config.masterPort entry.2 = port := by
  obtain ⟨first, hfirst⟩ := List.exists_mem_of_ne_nil _ hsound.nonempty
  have hmem : ∀ {entry}, entry ∈ entries ↔ entry ∈ config.shards.entries := hentries.mem_iff
  have hmasters : (found.shards.filter Shard.master).length = 1 := by
    obtain ⟨shards, hshards, hdescribes⟩ := hfinds.shards
    rw [hshards, List.nil_append, masters_of_describes hdescribes,
      (hentries.filter _).length_eq]
    exact hsound.masters
  obtain ⟨shared, hshared, hfree⟩ := hsound.masterPort
  have hports : ∀ port, port ∈ found.masterPorts ↔ port = shared := by
    intro port
    rw [hfinds.masterPorts.mem_iff, List.append_nil, List.mem_map]
    constructor
    · rintro ⟨entry, hentry, rfl⟩
      exact hshared entry (hmem.1 hentry)
    · rintro rfl
      exact ⟨first, hmem.2 hfirst, hshared first hfirst⟩
  have hhead : found.masterPorts.head? = some shared := by
    have hne : found.masterPorts ≠ [] := List.ne_nil_of_mem ((hports shared).2 rfl)
    rw [List.head?_eq_some_head hne, (hports _).1 (List.head_mem hne)]
  have hunused : shared ∉ found.ports := by
    rw [hfinds.ports.mem_iff, List.append_nil, (hentries.flatMap_right _).mem_iff]
    exact hfree
  obtain ⟨key, hkey, _⟩ := hsound.key
  have hfound : ∀ read, read ∈ found.clusterKeys ↔ read = key.map Text.trim := by
    intro read
    rw [hfinds.clusterKeys.mem_iff, List.append_nil, List.mem_map]
    constructor
    · rintro ⟨entry, hentry, rfl⟩
      rw [Entry.readKey, hkey entry (hmem.1 hentry)]
    · rintro rfl
      exact ⟨first, hmem.2 hfirst, by rw [Entry.readKey, hkey first hfirst]⟩
  have hsome : key.isSome = true := hkey first hfirst ▸ hkeys first hfirst
  have hvisible : (∀ entry ∈ config.shards.entries, ∀ key ∈ config.clusterKey entry.2,
      Text.trim key ≠ []) ↔ some [] ∉ found.clusterKeys ∧
        (config.multi = false ∨ none ∉ found.clusterKeys) := by
    obtain ⟨text, rfl⟩ := Option.isSome_iff_exists.1 hsome
    rw [hfound, hfound]
    constructor
    · intro h
      exact ⟨fun heq => h first hfirst text (hkey first hfirst) (Option.some.inj heq).symm,
        Or.inr (by simp)⟩
    · rintro ⟨h, _⟩ entry hentry key hmem htrim
      rw [hkey entry hentry, Option.mem_def, Option.some.injEq] at hmem
      subst hmem
      exact h (by rw [Option.map_some, htrim])
  have hresult : (∀ entry ∈ config.shards.entries, config.masterPort entry.2 = port) ↔
      shared = port := by
    constructor
    · intro h
      rw [← hshared first hfirst, h first hfirst]
    · rintro rfl
      exact hshared
  rw [checkFound, Outcome.ensure_of hmasters, Outcome.ok_bind,
    Outcome.ensure_of (dedup_length_of_forall (List.ne_nil_of_mem ((hports shared).2 rfl))
      fun port => (hports port).1), Outcome.ok_bind, hhead, Outcome.unwrap_eq_ok.2 rfl,
    Outcome.ok_bind, Outcome.ensure_of hunused, Outcome.ok_bind, hresult]
  have hmulti : (config.multi = true ∨ config.connected = true) ↔ config.connected = true := by
    simp [ConfigData.connected]
  by_cases hconnected : config.connected = true
  · rw [if_pos (hmulti.2 hconnected),
      Outcome.ensure_of (dedup_length_of_forall (List.ne_nil_of_mem ((hfound _).2 rfl))
        fun read => (hfound read).1), Outcome.ok_bind]
    simp only [hconnected, forall_const, hvisible]
    rw [Outcome.bind_eq_ok]
    constructor
    · rintro ⟨_, hkeys, hport⟩
      exact ⟨Outcome.ensure_eq_ok.1 hkeys, Except.ok.inj hport⟩
    · rintro ⟨hkeys, rfl⟩
      exact ⟨(), Outcome.ensure_eq_ok.2 hkeys, rfl⟩
  · rw [if_neg fun h => hconnected (hmulti.1 h)]
    simp [hconnected]

end Found

/-- The master comes first. -/
theorem head_mergeSort {shards : List Shard} (h : (shards.filter Shard.master).length = 1) :
    ∃ shard, (shards.mergeSort fun a b => a.master || !b.master).head? = some shard ∧
      shard.master = true := by
  have hperm := List.mergeSort_perm shards fun a b => a.master || !b.master
  have hsorted : (shards.mergeSort fun a b => a.master || !b.master).Pairwise
      fun a b => (a.master || !b.master) = true := by
    refine List.pairwise_mergeSort ?_ ?_ shards
    · intro a b c hab hbc
      cases hb : b.master <;> simp_all
    · intro a b
      cases a.master <;> simp
  obtain ⟨master, hmaster⟩ := List.length_eq_one_iff.1 h
  obtain ⟨hmem, hflag⟩ := List.mem_filter.1 (hmaster ▸ List.mem_singleton_self master)
  rw [← hperm.mem_iff] at hmem
  cases hlist : shards.mergeSort fun a b => a.master || !b.master with
  | nil => simp [hlist] at hmem
  | cons first rest =>
    refine ⟨first, rfl, ?_⟩
    rw [hlist] at hmem hsorted
    rcases List.mem_cons.1 hmem with rfl | hrest
    · exact hflag
    · have hle := List.rel_of_pairwise_cons hsorted hrest
      simpa [hflag] using hle

theorem discover_saved (lowercase : Lowercase) (hsound : SoundConfig lowercase.apply config)
    (hsize : Text.utf8Length (fileText (Model.blocks .clusterSettings
      (Model.assumed .clusterSettings config.clusterSettings config.multi))) < Rooms.maxFileBytes)
    (hfits : ∀ entry ∈ config.shards.entries, Entry.Fits config entry)
    (hkeys : ∀ entry ∈ config.shards.entries, (config.clusterKey entry.2).isSome = true)
    {directories : List (String × Text)}
    (hdirectories : directories.Perm (config.shards.entries.map (Entry.directory config))) :
    (Visible config → ∃ cluster, discover lowercase.apply
      ⟨clusterSource config.clusterSettings config.multi, directories⟩ = .ok cluster) ∧
    ∀ cluster, discover lowercase.apply
      ⟨clusterSource config.clusterSettings config.multi, directories⟩ = .ok cluster →
        Visible config ∧ Discovers config cluster := by
  obtain ⟨bind, hread⟩ := readCluster_saved hsound.cluster hsize hsound.enabled
  have hfile : readCluster (clusterSource config.clusterSettings config.multi) =
      .ok (config.clusterFile bind) := hread
  have hnamed : ∀ directory ∈ directories,
      validateShardName lowercase.apply directory.1.toList = .ok () := by
    intro directory hmem
    obtain ⟨entry, hentry, rfl⟩ := List.mem_map.1 (hdirectories.mem_iff.1 hmem)
    exact (hsound.entries entry hentry).named
  have hfilter : (directories.filter fun directory =>
      directory.1 ≠ "mods" ∧ directory.1.toList.head? ≠ some '.') = directories := by
    refine List.filter_eq_self.2 fun directory hmem => ?_
    have hname := hnamed directory hmem
    exact decide_eq_true ⟨lowercase.not_mods hname, (Outcome.ensure_eq_ok.1 hname).2.2.1⟩
  have hsorted : (directories.mergeSort (directoryLe lowercase.apply)).Perm
      (config.shards.entries.map (Entry.directory config)) :=
    (List.mergeSort_perm _ _).trans hdirectories
  obtain ⟨entries, hlist, hentries⟩ :=
    (congrFun₂ (List.eq_map_comp_perm (Entry.directory config)) _ _).mpr hsorted
  have hlength : (entries.map (Entry.directory config)).length = config.shards.entries.length := by
    rw [List.length_map, hentries.length_eq]
  have hnonempty : directories ≠ [] := by
    intro hnil
    rw [hnil, List.nil_perm, List.map_eq_nil_iff] at hdirectories
    exact hsound.nonempty hdirectories
  have henabled : config.multi = false ∨ (config.clusterFile bind).shardEnabled = true := by
    cases hmulti : config.multi
    · exact Or.inl rfl
    · exact Or.inr (by simp [ConfigData.clusterFile, ConfigData.connected, hmulti])
  have hmem : ∀ entry ∈ entries, entry ∈ config.shards.entries := fun entry => hentries.mem_iff.1
  obtain ⟨hforward, hback⟩ := readShards_saved hsound hfits bind hmem (hsound.apart hentries)
  have hdiscover : ∀ cluster, discover lowercase.apply
      ⟨clusterSource config.clusterSettings config.multi, directories⟩ = .ok cluster ↔
      ∃ found, (entries.map (Entry.directory config)).foldlM
        (readShard lowercase.apply (config.clusterFile bind) config.multi) {} = .ok found ∧
        ∃ port, checkFound config.multi config.connected found = .ok port ∧ cluster = {
          shards := found.shards.mergeSort fun a b => a.master || !b.master
          shardEnabled := config.connected, masterPort := port } := by
    intro cluster
    rw [discover, hfile, Outcome.ok_bind, hfilter]
    dsimp only
    rw [(Outcome.forM_eq_ok (u := ())).2 hnamed, Outcome.ok_bind, Outcome.ensure_of hnonempty, Outcome.ok_bind,
      hlist, hlength, show decide (1 < config.shards.entries.length) = config.multi from rfl,
      Outcome.ensure_of henabled, Outcome.ok_bind, Outcome.bind_eq_ok]
    simp only [Outcome.bind_eq_ok, Outcome.pure_eq_ok, Except.ok.injEq, eq_comm (a := cluster)]
    rfl
  constructor
  · intro hvisible
    obtain ⟨found, hfound⟩ := hforward fun entry hentry => hvisible.names entry (hmem entry hentry)
    obtain ⟨_, hfinds⟩ := hback found hfound
    obtain ⟨port, hport, _⟩ := hsound.masterPort
    refine ⟨_, (hdiscover _).2 ⟨found, hfound, port, ?_, rfl⟩⟩
    exact (checkFound_saved hsound hkeys hentries hfinds).2 ⟨hvisible.keys, hport⟩
  · intro cluster h
    obtain ⟨found, hfound, port, hport, rfl⟩ := (hdiscover cluster).1 h
    obtain ⟨hnames, hfinds⟩ := hback found hfound
    obtain ⟨hvisible, hport⟩ := (checkFound_saved hsound hkeys hentries hfinds).1 hport
    obtain ⟨shards, hshards, hdescribes⟩ := hfinds.shards
    rw [List.nil_append] at hshards
    refine ⟨⟨fun entry hentry => hnames entry (hentries.mem_iff.2 hentry), hvisible⟩, ?_, ?_, rfl, hport⟩
    · have hsort := (List.mergeSort_perm found.shards fun a b => a.master || !b.master).symm
      rw [hshards] at hsort
      obtain ⟨entries', hperm, hall⟩ :=
        (congrFun₂ (List.forall₂_comp_perm_eq_perm_comp_forall₂ (r := Describes)) _ _).mp
          ⟨shards, hdescribes, hsort⟩
      rw [hshards]
      exact ⟨entries', hperm.symm.trans hentries, hall⟩
    · refine head_mergeSort ?_
      rw [hshards, masters_of_describes hdescribes, (hentries.filter _).length_eq]
      exact hsound.masters

end DstServer.Configuration
