import DstServer.Configuration.SavedRoom

/-!
# Saving and discovering

`discover_save_iff`: the files of a saved configuration are discovered, as
the configuration describes them, just when nothing that discovery requires
is blank.  `save` fills in a cluster key first, which changes nothing else.
-/

namespace DstServer.Configuration

open Lib

variable {toLowercase : Text → Text}

/-! ## The cluster key -/

/-- The new key is visible. -/
theorem newClusterKey_visible (bytes : Fin 32 → Fin 256) : Text.trim (newClusterKey bytes) ≠ [] := by
  have hhex : ∀ n, n < 16 → Text.isWhitespace (Json.hexDigit n) = false := by decide
  have hvisible : ∀ c ∈ newClusterKey bytes, Text.isWhitespace c = false := by
    intro c hc
    obtain ⟨byte, _, hc⟩ := List.mem_flatMap.1 hc
    simp only [hexByte, List.mem_cons, List.not_mem_nil, or_false] at hc
    rcases hc with rfl | rfl
    · exact hhex _ (by omega)
    · exact hhex _ (by omega)
  rw [Text.trim_eq_self (Text.Trimmed.of_forall hvisible), newClusterKey, List.ofFn_succ,
    List.flatMap_cons, hexByte]
  simp

section Keyed

variable {config : ConfigData} {key : Text}

theorem keyed_of_hasKey (h : config.hasKey = true) : config.keyed key = config := if_pos h

theorem keyed_shards : (config.keyed key).shards = config.shards := by
  rw [ConfigData.keyed]
  split
  · rfl
  · rfl

theorem mem_keyed_shards {entry : Entry} :
    entry ∈ (config.keyed key).shards.entries ↔ entry ∈ config.shards.entries := by
  rw [keyed_shards]

theorem keyed_multi : (config.keyed key).multi = config.multi := by
  rw [ConfigData.multi, keyed_shards, ConfigData.multi]

theorem keyed_get {name : String} (h : name ≠ "cluster_key") :
    Model.get .clusterSettings (config.keyed key).clusterSettings name =
      Model.get .clusterSettings config.clusterSettings name := by
  rw [ConfigData.keyed]
  split
  · rfl
  · rw [Model.get, ConfigData.clusterSettings, Option.getD_some, OrderedMap.get?_insert_of_ne h,
      ← Model.get]

theorem keyed_connected : (config.keyed key).connected = config.connected := by
  rw [ConfigData.connected, keyed_multi, Sparse.clusterFlag, keyed_get (by decide)]
  rfl

theorem keyed_masterPort (shard : ShardConfig) :
    (config.keyed key).masterPort shard = config.masterPort shard := by
  rw [ConfigData.masterPort, Sparse.clusterNat, keyed_get (by decide)]
  rfl

theorem typed_keyed (h : Model.Typed .clusterSettings config.clusterSettings) :
    Model.Typed .clusterSettings (config.keyed key).clusterSettings := by
  rw [ConfigData.keyed]
  split
  · exact h
  · intro name value hget
    rw [ConfigData.clusterSettings, Option.getD_some] at hget
    by_cases hname : name = "cluster_key"
    · subst hname
      rw [OrderedMap.get?_insert_self, Option.some.injEq] at hget
      subst hget
      exact ⟨_, Model.field?_of_declared? declared_cluster_key, Or.inr ⟨key, rfl⟩⟩
    · rw [OrderedMap.get?_insert_of_ne hname] at hget
      exact h name value hget

/-- Without a key every shard gets the new one. -/
theorem keyed_clusterKey (key : Text) (h : config.hasKey = false) {entry : Entry}
    (hentry : entry ∈ config.shards.entries) :
    config.clusterKey entry.2 = none ∧ (config.keyed key).clusterKey entry.2 = some key := by
  have hkeyed : config.keyed key = { config with
      settings := some (config.clusterSettings.insert "cluster_key" (.text key)) } :=
    if_neg (by simp [h])
  rw [ConfigData.hasKey, Bool.or_eq_false_iff, List.any_eq_false] at h
  obtain ⟨hcluster, hshards⟩ := h
  have hshard : entry.2.settings.shardText? "cluster_key" = none := by
    simpa using hshards entry.2 (List.mem_map_of_mem hentry)
  have hnone : config.clusterSettings.clusterText? "cluster_key" = none := by
    simpa using hcluster
  constructor
  · rw [ConfigData.clusterKey, hshard, hnone]
    rfl
  · rw [ConfigData.clusterKey, hshard, hkeyed, ConfigData.clusterSettings, Option.getD_some,
      Sparse.clusterText?, Model.get_of_declared? declared_cluster_key, OrderedMap.get?_insert_self]
    rfl

/-- With a key every shard has one. -/
theorem clusterKey_of_hasKey (hsound : SoundConfig toLowercase config) (h : config.hasKey = true)
    {entry : Entry} (hentry : entry ∈ config.shards.entries) :
    (config.clusterKey entry.2).isSome = true := by
  obtain ⟨shared, hshared, _⟩ := hsound.key
  rw [ConfigData.hasKey, Bool.or_eq_true, List.any_eq_true] at h
  rcases h with h | ⟨shard, hshard, h⟩
  · rw [ConfigData.clusterKey, Option.isSome_or, h, Bool.or_true]
  · obtain ⟨other, hother, rfl⟩ := List.mem_map.1 hshard
    have hkey : (config.clusterKey other.2).isSome = true := by
      rw [ConfigData.clusterKey, Option.isSome_or, h, Bool.true_or]
    rwa [hshared entry hentry, ← hshared other hother]

theorem visible_keyed (hkey : Text.trim key ≠ []) :
    Visible (config.keyed key) ↔ Visible config := by
  cases h : config.hasKey with
  | true => rw [keyed_of_hasKey h]
  | false =>
    constructor
    · intro hvisible
      refine ⟨fun entry hentry => hvisible.names entry (mem_keyed_shards.2 hentry), ?_⟩
      intro _ entry hentry text htext
      have hnone := (keyed_clusterKey key h hentry).1
      rw [hnone] at htext
      cases htext
    · intro hvisible
      refine ⟨fun entry hentry => hvisible.names entry (mem_keyed_shards.1 hentry), ?_⟩
      intro _ entry hentry text htext
      rw [(keyed_clusterKey key h (mem_keyed_shards.1 hentry)).2, Option.mem_def, Option.some.injEq] at htext
      exact htext ▸ hkey

theorem discovers_keyed {cluster : Cluster} (h : Discovers (config.keyed key) cluster) :
    Discovers config cluster where
  shards := by
    rw [← keyed_shards]
    exact h.shards
  master := h.master
  shardEnabled := h.shardEnabled.trans keyed_connected
  masterPort entry hentry :=
    (keyed_masterPort entry.2).symm.trans (h.masterPort entry (mem_keyed_shards.2 hentry))

end Keyed

/-! ## Save and discover -/

theorem files_eq_ok {config : ConfigData} {files : RoomFiles} (h : config.files = .ok files) :
    Text.utf8Length (fileText (Model.blocks .clusterSettings
      (Model.assumed .clusterSettings config.clusterSettings config.multi))) < Rooms.maxFileBytes ∧
      (∀ entry ∈ config.shards.entries, Entry.Fits config entry) ∧
      files = ⟨clusterSource config.clusterSettings config.multi,
        config.shards.entries.map (Entry.directory config)⟩ := by
  obtain ⟨clusterIni, hcluster, hrest⟩ := Outcome.bind_eq_ok.1 h
  obtain ⟨servers, hservers, hfiles⟩ := Outcome.bind_eq_ok.1 hrest
  obtain ⟨hsize, rfl⟩ := renderIni_eq_ok hcluster
  have hentries : List.Forall₂ (fun entry directory =>
      Entry.Fits config entry ∧ directory = Entry.directory config entry)
      config.shards.entries servers := by
    refine (Outcome.mapM'_eq_ok.1 hservers).imp fun entry directory h => ?_
    obtain ⟨source, hsource, hdirectory⟩ := Outcome.bind_eq_ok.1 h
    obtain ⟨hfits, rfl⟩ := renderIni_eq_ok hsource
    exact ⟨hfits, (Except.ok.inj hdirectory).symm⟩
  refine ⟨hsize, fun entry hentry => ?_, ?_⟩
  · obtain ⟨_, _, hfits, _⟩ := exists_mem_right hentries hentry
    exact hfits
  · have hlist : servers = config.shards.entries.map (Entry.directory config) := by
      rw [← List.forall₂_eq_eq_eq, List.forall₂_map_right_iff]
      exact hentries.flip.imp fun _ _ h => h.2
    rw [← hlist]
    exact (Except.ok.inj hfiles).symm

/-- The room is discovered as its configuration describes it, in whatever order the file system lists
its directories. -/
def Rediscovered (toLowercase : Text → Text) (config : ConfigData) (files : RoomFiles) : Prop :=
  ∀ directories : List (String × Text), directories.Perm files.servers →
    ∃ cluster, discover toLowercase ⟨files.clusterIni, directories⟩ = .ok cluster ∧
      Discovers config cluster

section Save

variable {lowercase : Lowercase} {config : ClusterConfig lowercase.apply} {bytes : Fin 32 → Fin 256}
  {files : RoomFiles}

/-- The configuration that `save` writes. -/
theorem soundConfig_of_save (h : config.data.save lowercase.apply bytes = .ok files) :
    SoundConfig lowercase.apply (config.data.keyed (newClusterKey bytes)) ∧
      (config.data.keyed (newClusterKey bytes)).files = .ok files := by
  obtain ⟨_, hcheck, hfiles⟩ := Outcome.bind_eq_ok.1 h
  have htyped : ∀ entry ∈ (config.data.keyed (newClusterKey bytes)).shards.entries,
      Model.Typed .shardSettings entry.2.settings := by
    intro entry hentry
    exact config.shardsTyped entry.1 entry.2 (OrderedMap.mem_entries_iff.1 (mem_keyed_shards.1 hentry))
  exact ⟨soundConfig_of_check (typed_keyed config.clusterTyped) htyped hcheck, hfiles⟩

/-- It has a key for every shard. -/
theorem clusterKey_of_save (h : config.data.save lowercase.apply bytes = .ok files) :
    ∀ entry ∈ (config.data.keyed (newClusterKey bytes)).shards.entries,
      ((config.data.keyed (newClusterKey bytes)).clusterKey entry.2).isSome = true := by
  intro entry hentry
  obtain ⟨hsound, _⟩ := soundConfig_of_save h
  cases hhasKey : config.data.hasKey with
  | true =>
    rw [keyed_of_hasKey hhasKey] at hsound hentry ⊢
    exact clusterKey_of_hasKey hsound hhasKey hentry
  | false =>
    rw [(keyed_clusterKey _ hhasKey (mem_keyed_shards.1 hentry)).2]
    rfl

theorem rediscovered_of_visible (h : config.data.save lowercase.apply bytes = .ok files)
    (hvisible : Visible config.data) : Rediscovered lowercase.apply config.data files := by
  obtain ⟨hsound, hfiles⟩ := soundConfig_of_save h
  obtain ⟨hsize, hfits, rfl⟩ := files_eq_ok hfiles
  intro directories hperm
  obtain ⟨hforward, hback⟩ :=
    discover_saved lowercase hsound hsize hfits (clusterKey_of_save h) hperm
  obtain ⟨cluster, hcluster⟩ := hforward ((visible_keyed (newClusterKey_visible bytes)).2 hvisible)
  exact ⟨cluster, hcluster, discovers_keyed (hback cluster hcluster).2⟩

theorem visible_of_rediscovered (h : config.data.save lowercase.apply bytes = .ok files)
    (hfound : Rediscovered lowercase.apply config.data files) : Visible config.data := by
  obtain ⟨hsound, hfiles⟩ := soundConfig_of_save h
  obtain ⟨hsize, hfits, rfl⟩ := files_eq_ok hfiles
  obtain ⟨cluster, hcluster, _⟩ := hfound _ (.refl _)
  obtain ⟨_, hback⟩ :=
    discover_saved lowercase hsound hsize hfits (clusterKey_of_save h) (.refl _)
  exact (visible_keyed (newClusterKey_visible bytes)).1 (hback cluster hcluster).1

end Save

/-! ## A room of two shards -/

/-- Lower case of the ASCII letters. -/
def asciiLowercase : Lowercase := ⟨Text.lower, fun _ _ => rfl⟩

def sampleCluster : Sparse := .ofList [("master_ip", .text "127.0.0.1".toList)]

def sampleSecondary (name : Text) : Sparse :=
  .ofList [("is_master", .bool false), ("name", .text name), ("server_port", .number 11000),
    ("master_server_port", .number 27017)]

/-- A master and a secondary shard with a name. -/
def sampleRoom (name : Text) : ConfigData where
  settings := some sampleCluster
  shards := .ofList [("Caves", ⟨sampleSecondary name, false⟩), ("Master", ⟨.empty, false⟩)]

theorem typed_sampleCluster : Model.Typed .clusterSettings sampleCluster := by
  intro name value hget
  have hmem := OrderedMap.mem_of_get?_ofList hget
  simp only [List.mem_singleton, Prod.mk.injEq] at hmem
  obtain ⟨rfl, rfl⟩ := hmem
  exact ⟨_, Model.field?_of_declared? declared_cluster_host, Or.inr ⟨_, rfl⟩⟩

theorem typed_sampleSecondary (name : Text) :
    Model.Typed .shardSettings (sampleSecondary name) := by
  intro key value hget
  have hmem := OrderedMap.mem_of_get?_ofList hget
  simp only [List.mem_cons, List.not_mem_nil, or_false, Prod.mk.injEq] at hmem
  rcases hmem with ⟨rfl, rfl⟩ | ⟨rfl, rfl⟩ | ⟨rfl, rfl⟩ | ⟨rfl, rfl⟩
  · exact ⟨_, Model.field?_of_declared? declared_is_master, Or.inr ⟨false, rfl⟩⟩
  · exact ⟨_, Model.field?_of_declared? declared_name, Or.inr ⟨name, rfl⟩⟩
  · exact ⟨_, Model.field?_of_declared? declared_server_port, Or.inr ⟨11000, rfl, by decide⟩⟩
  · exact ⟨_, Model.field?_of_declared? declared_master_server_port,
      Or.inr ⟨27017, rfl, by decide⟩⟩

theorem typed_sampleRoom (name : Text) : ∀ directory shard,
    (sampleRoom name).shards.get? directory = some shard → Model.Typed .shardSettings shard.settings := by
  intro directory shard hget
  have hmem := OrderedMap.mem_of_get?_ofList hget
  simp only [List.mem_cons, List.not_mem_nil, or_false, Prod.mk.injEq] at hmem
  rcases hmem with ⟨_, rfl⟩ | ⟨_, rfl⟩
  · exact typed_sampleSecondary name
  · intro key value hget
    simp at hget

def sampleCaves : ClusterConfig asciiLowercase.apply where
  data := sampleRoom "Caves".toList
  clusterTyped := typed_sampleCluster
  shardsTyped := typed_sampleRoom _
  checked := by decide +kernel

/-- The secondary shard has a blank name. -/
def sampleBlank : ClusterConfig asciiLowercase.apply where
  data := sampleRoom [' ']
  clusterTyped := typed_sampleCluster
  shardsTyped := typed_sampleRoom _
  checked := by decide +kernel

/-- The files of a saved configuration are discovered just when no secondary shard has a blank name and
no shared key is blank. -/
theorem discover_save_iff (lowercase : Lowercase) (config : ClusterConfig lowercase.apply)
    (bytes : Fin 32 → Fin 256) {files : RoomFiles}
    (h : config.data.save lowercase.apply bytes = .ok files) :
    Rediscovered lowercase.apply config.data files ↔ Visible config.data :=
  ⟨visible_of_rediscovered h, rediscovered_of_visible h⟩

theorem discover_save_caves : ∃ files,
    sampleCaves.data.save asciiLowercase.apply (fun _ => 0) = .ok files ∧
      Rediscovered asciiLowercase.apply sampleCaves.data files := by
  obtain ⟨files, hfiles⟩ : (sampleCaves.data.save asciiLowercase.apply fun _ => 0).Succeeds :=
    Outcome.isSome_toOption.1 (by decide +kernel)
  have hnamed : ∀ entry ∈ sampleCaves.data.shards.entries, Entry.Named entry := by
    unfold Entry.Named
    decide +kernel
  have hkeys : ∀ entry ∈ sampleCaves.data.shards.entries,
      ∀ key ∈ sampleCaves.data.clusterKey entry.2, Text.trim key ≠ [] := by decide +kernel
  exact ⟨files, hfiles, (discover_save_iff asciiLowercase sampleCaves _ hfiles).2
    ⟨hnamed, fun _ => hkeys⟩⟩

/-- A room with a secondary shard of a blank name is saved and not discovered. -/
theorem sampleBlank_lost : ¬∀ (config : ClusterConfig asciiLowercase.apply) (bytes : Fin 32 → Fin 256)
    (files : RoomFiles), config.data.save asciiLowercase.apply bytes = .ok files →
      Rediscovered asciiLowercase.apply config.data files := by
  intro h
  obtain ⟨files, hfiles⟩ : (sampleBlank.data.save asciiLowercase.apply fun _ => 0).Succeeds :=
    Outcome.isSome_toOption.1 (by decide +kernel)
  have hblank : ¬∀ entry ∈ sampleBlank.data.shards.entries, Entry.Named entry := by
    unfold Entry.Named
    decide +kernel
  exact hblank (visible_of_rediscovered hfiles (h sampleBlank _ files hfiles)).names

end DstServer.Configuration
