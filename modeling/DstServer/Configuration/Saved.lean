import DstServer.Configuration.Cluster
import DstServer.Configuration.SettingsRoundTrip

/-!
# Saved configurations

What `discover` reads in the files that `save` writes into a fresh room.

The first part reads single options of a rendered file, and the second one
says what the checks of a configuration establish.
-/

namespace DstServer.Configuration

open Lib

/-! ## Hosts -/

/-- A host that is accepted has no white space. -/
theorem trimmed_of_validateHost {host : Text} (h : validateHost host = .ok ()) :
    Text.Trimmed host := by
  refine Text.Trimmed.of_forall fun c hc => ?_
  unfold validateHost at h
  split at h
  · rename_i ip hip
    exact (IpAddress.parse_marks hip c hc).visible
  · obtain ⟨_, _, _, hlabels⟩ := Outcome.ensure_eq_ok.1 h
    have hname : ∀ c ∈ (['.'].isSuffixOf? host).getD host, Text.isWhitespace c = false := by
      intro c hc
      rcases Text.mem_splitOn '.' hc with rfl | ⟨label, hlabel, hc⟩
      · decide
      · have hlabel := hlabels label hlabel
        simp only [isLabel, Bool.and_eq_true, List.all_eq_true, Bool.or_eq_true,
          decide_eq_true_eq] at hlabel
        rcases hlabel.2 c hc with halnum | rfl
        · have hrange : (48 ≤ c.toNat ∧ c.toNat ≤ 57) ∨ (65 ≤ c.toNat ∧ c.toNat ≤ 90) ∨
              (97 ≤ c.toNat ∧ c.toNat ≤ 122) := by
            simp only [Char.isAlphanum, Char.isAlpha, Char.isUpper, Char.isLower, Char.isDigit,
              Bool.or_eq_true, Bool.and_eq_true, decide_eq_true_eq] at halnum
            rcases halnum with (h | h) | h
            · exact Or.inr (Or.inl h)
            · exact Or.inr (Or.inr h)
            · exact Or.inl h
          simp only [Text.isWhitespace, Bool.or_eq_false_iff, Bool.and_eq_false_iff,
            decide_eq_false_iff_not]
          omega
        · decide
    cases hsuffix : ['.'].isSuffixOf? host with
    | none =>
      rw [hsuffix] at hname
      exact hname c hc
    | some name =>
      rw [hsuffix] at hname
      have happend := List.isSuffixOf?_eq_some_iff_append_eq.1 hsuffix
      rw [← happend, List.mem_append, List.mem_singleton] at hc
      rcases hc with hc | rfl
      · exact hname c hc
      · decide

theorem trimmed_of_ipv4 {text : Text} (h : (IpAddress.parseIpv4 text).isSome = true) :
    Text.Trimmed text := by
  obtain ⟨bytes, hbytes⟩ := Option.isSome_iff_exists.1 h
  exact Text.Trimmed.of_forall fun c hc => (IpAddress.parseIpv4_marks hbytes c hc).visible

/-! ## Options of a rendered file -/

section Options

variable {model : Model} {sparse : Sparse} {sectionName name path : String} {field : Field}

theorem Model.mem_of_declared? (h : model.declared? sectionName name = some field) :
    ∃ part ∈ model.sections, field ∈ part.2 ∧ lowerName part.1.toList = sectionName ∧
      field.name = name := by
  obtain ⟨part, hpart, hfield⟩ := List.exists_of_findSome?_eq_some h
  dsimp only at hfield
  split_ifs at hfield with htitle
  exact ⟨part, hpart, List.mem_of_find?_eq_some hfield, htitle, by
    simpa using List.find?_some hfield⟩

theorem get_document (h : model.declared? sectionName name = some field) :
    Ini.get { document model sparse with path } sectionName name =
      ((sparse.get? name).filter (· ≠ .null)).map fun value => Text.trim value.display := by
  obtain ⟨part, hpart, hfield, htitle, hname⟩ := Model.mem_of_declared? h
  refine Option.ext fun text => ?_
  rw [show Ini.get { document model sparse with path } sectionName name =
    (document model sparse).get sectionName name from rfl, get?_document]
  simp only [Option.map_eq_some_iff, Option.filter_eq_some_iff, decide_eq_true_eq]
  constructor
  · rintro ⟨_, _, _, _, value, _, _, hget, hne, htext⟩
    exact ⟨value, ⟨hget, hne⟩, htext⟩
  · rintro ⟨value, ⟨hget, hne⟩, htext⟩
    exact ⟨part, hpart, field, hfield, value, htitle, hname, hget, hne, htext⟩

/-- A field of a valid value by its type. -/
theorem Model.Valid.accepts (hvalid : model.Valid sparse)
    (h : model.declared? sectionName name = some field) {value : Scalar}
    (hget : sparse.get? name = some value) :
    field.Accepts value ∧ field.admits (some value) = true ∧ model.field? name = some field := by
  obtain ⟨part, hpart, hfield, _, rfl⟩ := Model.mem_of_declared? h
  have hmem := Model.mem_fields.2 ⟨part, hpart, hfield⟩
  obtain ⟨field', hfield', haccepts⟩ := hvalid.typed _ _ hget
  rw [model.sound.field?_of_mem field hmem, Option.some.injEq] at hfield'
  subst hfield'
  have hadmits := hvalid.admitted field hmem
  rw [hget] at hadmits
  exact ⟨haccepts, hadmits, model.sound.field?_of_mem field hmem⟩

theorem Model.field?_of_declared? (h : model.declared? sectionName name = some field) :
    model.field? name = some field := by
  obtain ⟨part, hpart, hfield, _, rfl⟩ := Model.mem_of_declared? h
  exact model.sound.field?_of_mem field (Model.mem_fields.2 ⟨part, hpart, hfield⟩)

theorem Model.get_of_declared? (h : model.declared? sectionName name = some field) :
    model.get sparse name = (sparse.get? name).getD field.default := by
  rw [Model.get, Model.field?_of_declared? h]
  rfl

theorem boolean_document (hvalid : model.Valid sparse) {flag : Bool}
    (h : model.declared? sectionName name = some ⟨name, .bool, .bool flag, false, []⟩) :
    Ini.boolean { document model sparse with path } sectionName name flag =
      .ok (model.get sparse name).asBool := by
  rw [Ini.boolean, get_document h, Model.get_of_declared? h]
  cases hget : sparse.get? name with
  | none => rfl
  | some value =>
    obtain ⟨haccepts, _⟩ := hvalid.accepts h hget
    rcases haccepts with ⟨hoptional, _⟩ | ⟨value, rfl⟩
    · cases hoptional
    · cases value
      · rfl
      · rfl

/-- The number of a field. -/
def numberOf (sparse : Sparse) (name : String) : Option Nat := (sparse.get? name).bind Scalar.asNat?

theorem number_document (hvalid : model.Valid sparse) {default : Scalar} {optional : Bool}
    {rules : List Rule}
    (h : model.declared? sectionName name = some ⟨name, .u64, default, optional, rules⟩) :
    Ini.get { document model sparse with path } sectionName name =
      (numberOf sparse name).map Text.decimal := by
  rw [get_document h, numberOf]
  cases hget : sparse.get? name with
  | none => rfl
  | some value =>
    obtain ⟨haccepts, _⟩ := hvalid.accepts h hget
    rcases haccepts with ⟨_, rfl⟩ | ⟨n, rfl, _⟩
    · rfl
    · have hdigits : ∀ c ∈ Text.decimal n, c.isDigit = true := fun c => Text.isDigit_of_mem_decimal
      simp [Option.filter_some, Scalar.asNat?, Scalar.display,
        Text.trim_eq_self (isDigit_plain hdigits).2]

theorem unsigned_decimal {n : Nat} (h : n < 4294967296) (field : String) :
    unsigned (Text.decimal n) field = .ok n := by
  have hdigits : ∀ c ∈ Text.decimal n, c.isDigit = true := fun c => Text.isDigit_of_mem_decimal
  rw [unsigned, Outcome.ensure_of ⟨Text.decimal_ne_nil n, hdigits⟩, Outcome.ok_bind,
    Text.unsigned?_decimal h]
  rfl

theorem port_document (hvalid : model.Valid sparse) {default : Scalar} {optional : Bool}
    (h : model.declared? sectionName name =
      some ⟨name, .u64, default, optional, [.range 1024 65535]⟩) (fallback : Nat) :
    Ini.port { document model sparse with path } sectionName name fallback =
      .ok ((numberOf sparse name).getD fallback) := by
  rw [Ini.port, number_document hvalid h]
  cases hnumber : numberOf sparse name with
  | none => rfl
  | some n =>
    obtain ⟨value, hget, hvalue⟩ := Option.bind_eq_some_iff.1 hnumber
    obtain ⟨_, hadmits, _⟩ := hvalid.accepts h hget
    have heq : value = .number n := by
      cases value <;> simp_all [Scalar.asNat?]
    subst heq
    have hrange : 1024 ≤ n ∧ n ≤ 65535 := by
      simpa [Field.admits, Rule.admits] using hadmits
    simp only [Option.map_some]
    rw [unsigned_decimal (by omega), Outcome.ok_bind, Outcome.ensure_of hrange]
    rfl

theorem text_document (hvalid : model.Valid sparse) {rules : List Rule}
    (h : model.declared? sectionName name = some ⟨name, .string, .null, true, rules⟩) :
    Ini.get { document model sparse with path } sectionName name =
      (model.get sparse name).asText?.map Text.trim := by
  rw [get_document h, Model.get_of_declared? h]
  cases hget : sparse.get? name with
  | none => rfl
  | some value =>
    obtain ⟨haccepts, _⟩ := hvalid.accepts h hget
    rcases haccepts with ⟨_, rfl⟩ | ⟨text, rfl⟩
    · rfl
    · rfl

theorem asNat_get (hvalid : model.Valid sparse) {n : Nat} {rules : List Rule}
    (h : model.declared? sectionName name = some ⟨name, .u64, .number n, false, rules⟩) :
    (numberOf sparse name).getD n = (model.get sparse name).asNat := by
  rw [Model.get_of_declared? h, numberOf]
  cases hget : sparse.get? name with
  | none => rfl
  | some value =>
    obtain ⟨haccepts, _⟩ := hvalid.accepts h hget
    rcases haccepts with ⟨hoptional, _⟩ | ⟨n, rfl, _⟩
    · cases hoptional
    · rfl

theorem asNat?_get {rules : List Rule}
    (h : model.declared? sectionName name = some ⟨name, .u64, .null, true, rules⟩) :
    numberOf sparse name = (model.get sparse name).asNat? := by
  rw [Model.get_of_declared? h, numberOf]
  cases sparse.get? name with
  | none => rfl
  | some value => rfl

theorem ipv4_document (path : String) (hvalid : model.Valid sparse) {default : Scalar} {optional : Bool}
    (h : model.declared? "shard" name =
      some ⟨name, .string, default, optional, [.ipv4, .plain]⟩) (fallback : List Nat) :
    ∃ bytes, Ini.ipv4 { document model sparse with path } name fallback = .ok bytes := by
  rw [Ini.ipv4, get_document h]
  cases hget : sparse.get? name with
  | none => exact ⟨fallback, rfl⟩
  | some value =>
    obtain ⟨haccepts, hadmits, _⟩ := hvalid.accepts h hget
    rcases haccepts with ⟨_, rfl⟩ | ⟨text, rfl⟩
    · exact ⟨fallback, rfl⟩
    · have hipv4 : (IpAddress.parseIpv4 text).isSome = true := by
        have hrules : (IpAddress.parseIpv4 text).isSome = true ∧ IsPlain text := by
          simpa [Field.admits, Rule.admits] using hadmits
        exact hrules.1
      obtain ⟨bytes, hbytes⟩ := Option.isSome_iff_exists.1 hipv4
      refine ⟨bytes, ?_⟩
      have htrim : Text.trim (Scalar.text text).display = text :=
        Text.trim_eq_self (trimmed_of_ipv4 hipv4)
      simp [Option.filter_some, htrim, hbytes, Outcome.orError]

/-- The fields that are written down in any case keep their values. -/
theorem get_assumed (sparse : Sparse) (multi : Bool) (h : name ≠ "shard_enabled") :
    model.get (model.assumed sparse multi) name = model.get sparse name := by
  cases model with
  | clusterSettings =>
    rw [Model.assumed]
    split_ifs
    · rw [Model.get, OrderedMap.get?_insert_of_ne h, ← Model.get]
    · rfl
  | shardSettings =>
    rw [Model.assumed]
    split_ifs
    · rw [← get_insert_get sparse "encode_user_path" "is_master", get_insert_get, get_insert_get]
    · exact get_insert_get _ _ _

end Options

/-! ## The cluster file -/

/-- The fields of the table that discovery reads. -/
theorem declared_shard_enabled : Model.declared? .clusterSettings "shard" "shard_enabled" =
    some ⟨"shard_enabled", .bool, .bool false, false, []⟩ := rfl

theorem declared_cluster_port : Model.declared? .clusterSettings "shard" "master_port" =
    some ⟨"master_port", .u64, .number 10888, false, [.range 1024 65535]⟩ := rfl

theorem declared_cluster_bind : Model.declared? .clusterSettings "shard" "bind_ip" =
    some ⟨"bind_ip", .string, .text "127.0.0.1".toList, false, [.ipv4, .plain]⟩ := rfl

theorem declared_cluster_host : Model.declared? .clusterSettings "shard" "master_ip" =
    some ⟨"master_ip", .string, .null, true, [.length 1 none, .plain]⟩ := rfl

theorem declared_cluster_key : Model.declared? .clusterSettings "shard" "cluster_key" =
    some ⟨"cluster_key", .string, .null, true, [.plain]⟩ := rfl

theorem checkHost_document {model : Model} {sparse : Sparse} (h : model.checkMasterIp sparse = .ok ()) :
    checkHost ((model.get sparse "master_ip").asText?.map Text.trim) = .ok () ∧
      (model.get sparse "master_ip").asText?.map Text.trim =
        (model.get sparse "master_ip").asText? := by
  rw [Model.checkMasterIp] at h
  cases hget : model.get sparse "master_ip" with
  | text host =>
    rw [hget] at h
    have htrim : Text.trim host = host := Text.trim_eq_self (trimmed_of_validateHost h)
    simp only [Scalar.asText?, Option.map_some, htrim, and_true]
    exact h
  | null => exact ⟨rfl, rfl⟩
  | bool value => exact ⟨rfl, rfl⟩
  | number value => exact ⟨rfl, rfl⟩

/-- The text of a configuration's `cluster.ini`. -/
def clusterSource (settings : Sparse) (multi : Bool) : Text :=
  fileSource (Model.blocks .clusterSettings (Model.assumed .clusterSettings settings multi))

/-- The file as it is read. -/
def clusterIni (settings : Sparse) (multi : Bool) : Ini :=
  { document .clusterSettings (Model.assumed .clusterSettings settings multi) with
    path := "cluster.ini" }

theorem readCluster_saved {settings : Sparse} {multi : Bool}
    (hvalid : Model.Valid .clusterSettings settings)
    (hsize : Text.utf8Length (fileText (Model.blocks .clusterSettings
      (Model.assumed .clusterSettings settings multi))) < Rooms.maxFileBytes)
    (henabled : multi = false ∨ settings.get? "shard_enabled" ≠ some (.bool false)) :
    ∃ bind, readCluster (clusterSource settings multi) = .ok {
      ini := clusterIni settings multi
      shardEnabled := multi || settings.clusterFlag "shard_enabled"
      port := settings.clusterNat "master_port", bind } := by
  have hassumed := valid_assumed hvalid multi
  have hflag : (Model.get .clusterSettings (Model.assumed .clusterSettings settings multi)
      "shard_enabled").asBool = (multi || settings.clusterFlag "shard_enabled") := by
    rw [Model.assumed]
    cases multi with
    | false => rfl
    | true =>
      have hdefault : Model.get .clusterSettings settings "shard_enabled" =
          (settings.get? "shard_enabled").getD (.bool false) :=
        Model.get_of_declared? declared_shard_enabled
      cases hget : settings.get? "shard_enabled" with
      | none =>
        rw [if_pos ⟨rfl, rfl⟩, Model.get, OrderedMap.get?_insert_self]
        rfl
      | some value =>
        obtain ⟨haccepts, _⟩ := hvalid.accepts declared_shard_enabled hget
        rcases haccepts with ⟨hoptional, _⟩ | ⟨flag, rfl⟩
        · cases hoptional
        · cases flag with
          | false => exact absurd hget (henabled.resolve_left (by decide))
          | true => rw [if_neg (by simp), hdefault, hget]; rfl
  have hport : (numberOf (Model.assumed .clusterSettings settings multi) "master_port").getD 10888 =
      settings.clusterNat "master_port" := by
    rw [asNat_get hassumed declared_cluster_port, get_assumed _ _ (by decide)]
    rfl
  have hcheck := hvalid.checked
  rw [Model.check] at hcheck
  obtain ⟨_, hhost, _⟩ := Outcome.bind_eq_ok.1 hcheck
  obtain ⟨hhost, _⟩ := checkHost_document hhost
  obtain ⟨bytes, hbind⟩ := ipv4_document "cluster.ini" hassumed declared_cluster_bind [127, 0, 0, 1]
  refine ⟨bytes, ?_⟩
  rw [readCluster, clusterSource, show some false = Model.kind .clusterSettings from rfl,
    parse_document "cluster.ini" hassumed hsize, Outcome.ok_bind,
    boolean_document hassumed declared_shard_enabled, Outcome.ok_bind,
    port_document hassumed declared_cluster_port, Outcome.ok_bind, hbind, Outcome.ok_bind,
    text_document hassumed declared_cluster_host, get_assumed _ _ (by decide), hhost,
    Outcome.ok_bind, hflag, hport]
  rfl

/-! ## What the checks establish -/

section Checked

variable {toLowercase : Text → Text} {config : ConfigData}

/-- An entry of the shards. -/
abbrev Entry : Type := String × ShardConfig

namespace ConfigData

/-- Whether the shards of the room are connected. -/
def connected (config : ConfigData) : Bool :=
  config.multi || config.clusterSettings.clusterFlag "shard_enabled"

end ConfigData

namespace Entry

def master (entry : Entry) : Bool := entry.2.settings.shardFlag "is_master"

def shardName (entry : Entry) : Option Text := entry.2.settings.shardText? "name"

def id (entry : Entry) : Option Nat := entry.2.settings.shardNat? "id"

def serverPort (entry : Entry) : Nat := entry.2.settings.shardNat "server_port"

def masterServerPort (entry : Entry) : Nat := entry.2.settings.shardNat "master_server_port"

def ports (entry : Entry) : List Nat := [entry.serverPort, entry.masterServerPort]

def masterIp (config : ConfigData) (entry : Entry) : Option Text :=
  (entry.2.settings.shardText? "master_ip").or (config.clusterSettings.clusterText? "master_ip")

end Entry

/-- An entry that passes the body of the loop. -/
structure SoundEntry (toLowercase : Text → Text) (config : ConfigData) (entry : Entry) : Prop where
  named : validateShardName toLowercase entry.1.toList = .ok ()
  checked : Model.check .shardSettings entry.2.settings = .ok ()
  secondary : entry.master = true ∨ entry.shardName.any (· ≠ []) = true
  host : entry.master = true ∨ config.connected = false ∨ (entry.masterIp config).isSome = true

/-- What the loop over the shards collects. -/
structure Gathers (toLowercase : Text → Text) (config : ConfigData) (entries : List Entry)
    (before after : ConfigData.Collected) : Prop where
  sound : ∀ entry ∈ entries, SoundEntry toLowercase config entry
  names : after.names.Perm (entries.map (fun entry => toLowercase entry.1.toList) ++ before.names)
  ids : after.ids.Perm (entries.flatMap (fun entry => entry.id.toList) ++ before.ids)
  ports : after.ports.Perm (entries.flatMap Entry.ports ++ before.ports)
  masterPorts : after.masterPorts.Perm
    (entries.map (fun entry => config.masterPort entry.2) ++ before.masterPorts)
  keys : after.keys.Perm (entries.map (fun entry => config.clusterKey entry.2) ++ before.keys)
  masters : after.masters = (entries.filter Entry.master).length + before.masters
  distinct : before.names.Nodup → before.ids.Nodup → before.ports.Nodup →
    after.names.Nodup ∧ after.ids.Nodup ∧ after.ports.Nodup

theorem gathers_checkShard {entry : Entry} {before after : ConfigData.Collected}
    (h : config.checkShard toLowercase before entry = .ok after) :
    Gathers toLowercase config [entry] before after := by
  simp only [ConfigData.checkShard, Outcome.bind_eq_ok, Outcome.ensure_eq_ok, Outcome.pure_eq_ok,
    Except.ok.injEq] at h
  obtain ⟨_, hnamed, _, hname, _, hchecked, _, hsecondary, _, hid, _, hserver, _, hquery, _, hhost, _,
    _, rfl⟩ := h
  refine ⟨?_, ?_, ?_, ?_, ?_, ?_, ?_, ?_⟩
  · intro entry' hentry
    obtain rfl := List.mem_singleton.1 hentry
    refine ⟨hnamed, hchecked, hsecondary, ?_⟩
    rcases hhost with hhost | hhost
    · rw [not_and_or, not_or] at hhost
      rcases hhost with ⟨hmulti, hflag⟩ | hmaster
      · exact Or.inr (Or.inl (by simp [ConfigData.connected, hmulti, hflag]))
      · exact Or.inl (by simpa [Entry.master] using hmaster)
    · exact Or.inr (Or.inr hhost)
  · simp
  · simp [Entry.id]
  · exact List.Perm.swap _ _ _
  · simp
  · simp
  · cases hmaster : entry.2.settings.shardFlag "is_master" <;>
      simp [Entry.master, hmaster, Nat.add_comm]
  · intro hnames hids hports
    refine ⟨List.nodup_cons.2 ⟨hname, hnames⟩, ?_,
      List.nodup_cons.2 ⟨hquery, List.nodup_cons.2 ⟨hserver, hports⟩⟩⟩
    dsimp only
    cases hvalue : entry.2.settings.shardNat? "id" with
    | none => exact hids
    | some id => exact List.nodup_cons.2 ⟨hid id hvalue, hids⟩

theorem Gathers.trans {first second : List Entry} {before middle after : ConfigData.Collected}
    (h : Gathers toLowercase config first before middle)
    (h' : Gathers toLowercase config second middle after) :
    Gathers toLowercase config (first ++ second) before after := by
  have hjoin : ∀ {α : Type} {a b m x y : List α}, m.Perm (a ++ x) → y.Perm (b ++ m) →
      y.Perm (a ++ b ++ x) := by
    intro α a b m x y hm hy
    refine hy.trans ((hm.append_left b).trans ?_)
    rw [← List.append_assoc]
    exact List.perm_append_comm.append_right x
  refine ⟨?_, ?_, ?_, ?_, ?_, ?_, ?_, ?_⟩
  · intro entry hentry
    rcases List.mem_append.1 hentry with hentry | hentry
    · exact h.sound entry hentry
    · exact h'.sound entry hentry
  · rw [List.map_append]
    exact hjoin h.names h'.names
  · rw [List.flatMap_append]
    exact hjoin h.ids h'.ids
  · rw [List.flatMap_append]
    exact hjoin h.ports h'.ports
  · rw [List.map_append]
    exact hjoin h.masterPorts h'.masterPorts
  · rw [List.map_append]
    exact hjoin h.keys h'.keys
  · rw [h'.masters, h.masters, List.filter_append, List.length_append]
    omega
  · intro hnames hids hports
    obtain ⟨hnames, hids, hports⟩ := h.distinct hnames hids hports
    exact h'.distinct hnames hids hports

theorem gathers_checkShards {entries : List Entry} {before after : ConfigData.Collected}
    (h : entries.foldlM (config.checkShard toLowercase) before = .ok after) :
    Gathers toLowercase config entries before after := by
  induction entries generalizing before with
  | nil =>
    cases h
    exact ⟨by simp, .refl _, .refl _, .refl _, .refl _, .refl _, (Nat.zero_add _).symm,
      fun hnames hids hports => ⟨hnames, hids, hports⟩⟩
  | cons entry rest ih =>
    rw [List.foldlM_cons] at h
    obtain ⟨middle, hentry, hrest⟩ := Outcome.bind_eq_ok.1 h
    exact (gathers_checkShard hentry).trans (ih hrest)

/-- What the checks say of the configuration. -/
structure SoundConfig (toLowercase : Text → Text) (config : ConfigData) : Prop where
  cluster : Model.Valid .clusterSettings config.clusterSettings
  shards : ∀ entry ∈ config.shards.entries, Model.Valid .shardSettings entry.2.settings
  entries : ∀ entry ∈ config.shards.entries, SoundEntry toLowercase config entry
  nonempty : config.shards.entries ≠ []
  enabled : config.multi = false ∨
    config.clusterSettings.get? "shard_enabled" ≠ some (.bool false)
  names : (config.shards.entries.map fun entry => toLowercase entry.1.toList).Nodup
  ids : (config.shards.entries.flatMap fun entry => Entry.id entry |>.toList).Nodup
  ports : (config.shards.entries.flatMap Entry.ports).Nodup
  masters : (config.shards.entries.filter Entry.master).length = 1
  masterPort : ∃ port, (∀ entry ∈ config.shards.entries, config.masterPort entry.2 = port) ∧
    port ∉ config.shards.entries.flatMap Entry.ports
  key : ∃ key, (∀ entry ∈ config.shards.entries, config.clusterKey entry.2 = key) ∧ key ≠ some []

/-- The members of a list with one value in it. -/
theorem eq_of_dedup_length {α : Type} [DecidableEq α] {l : List α} (h : l.dedup.length = 1) :
    ∃ a, a ∈ l ∧ ∀ b ∈ l, b = a := by
  obtain ⟨a, ha⟩ := List.length_eq_one_iff.1 h
  refine ⟨a, List.mem_dedup.1 (ha ▸ List.mem_singleton_self a), fun b hb => ?_⟩
  have hmem := List.mem_dedup.2 hb
  rw [ha] at hmem
  exact List.mem_singleton.1 hmem

theorem soundConfig_of_check (hcluster : Model.Typed .clusterSettings config.clusterSettings)
    (hshards : ∀ entry ∈ config.shards.entries, Model.Typed .shardSettings entry.2.settings)
    (h : config.check toLowercase = .ok ()) : SoundConfig toLowercase config := by
  simp only [ConfigData.check, ConfigData.checkTypes, Outcome.bind_eq_ok, Outcome.ensure_eq_ok,
    Outcome.unwrap_eq_ok] at h
  obtain ⟨_, ⟨_, hfields, _, hshardFields, hnonempty⟩, _, hcheck, _, henabled, collected, hcollected,
    _, hmasters, _, hports, port, hport, _, hfree, hkeys, hempty⟩ := h
  have hgathers := gathers_checkShards hcollected
  obtain ⟨hnames, hids, hportsNodup⟩ :=
    hgathers.distinct List.nodup_nil List.nodup_nil List.nodup_nil
  have hnil : ∀ {α : Type} {l m : List α}, l.Perm (m ++ []) → l.Perm m := by
    intro α l m hperm
    rwa [List.append_nil] at hperm
  have hadmitted : ∀ {model : Model} {sparse : Sparse}, model.checkFields sparse = .ok () →
      ∀ field ∈ model.fields, field.admits (sparse.get? field.name) = true :=
    fun hfields field hfield => Outcome.ensure_eq_ok.1 (Outcome.forM_eq_ok.1 hfields field hfield)
  refine ⟨⟨hcluster, hadmitted hfields, hcheck⟩, fun entry hentry => ⟨hshards entry hentry,
    hadmitted (Outcome.forM_eq_ok.1 hshardFields entry hentry),
    (hgathers.sound entry hentry).checked⟩, hgathers.sound, hnonempty, henabled,
    (hnil hgathers.names).nodup_iff.1 hnames, (hnil hgathers.ids).nodup_iff.1 hids,
    (hnil hgathers.ports).nodup_iff.1 hportsNodup, ?_, ?_, ?_⟩
  · have hcount := hgathers.masters
    rw [hmasters] at hcount
    exact hcount.symm
  · obtain ⟨a, _, hall⟩ := eq_of_dedup_length hports
    have hsame : port = a := hall port (List.mem_of_head? hport)
    refine ⟨port, fun entry hentry => ?_, fun hmem => hfree ((hnil hgathers.ports).mem_iff.2 hmem)⟩
    rw [hsame]
    exact hall _ ((hnil hgathers.masterPorts).mem_iff.2 (List.mem_map_of_mem hentry))
  · obtain ⟨key, hmem, hall⟩ := eq_of_dedup_length hkeys
    refine ⟨key, fun entry hentry => ?_, fun heq => hempty (heq ▸ hmem)⟩
    exact hall _ ((hnil hgathers.keys).mem_iff.2 (List.mem_map_of_mem hentry))

end Checked

end DstServer.Configuration
