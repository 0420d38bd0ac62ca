import DstServer.Presets.Canonical

/-!
# The law of composition

A composition is a fold over its parts (`Draft.add`), and what it returns
is the draft at the end of the fold, unchanged by the validation
(`value_of_compose`).  `Sound` is the invariant of a draft: its parts are
canonical, and the mods of each shard cover the mods of the room.  By it a
sound draft that is added to an empty one gives itself
(`add_value`), so a composition in steps is a composition at once.

`Draft.entries`, `Draft.shardSetting?` and `Draft.world?` are what a draft
says of a shard, and each step of the fold changes them by what the part
says (`Added`).
-/

namespace DstServer.Presets

open Lib Outcome
open DstServer.Configuration (Settings)

variable {host : Host}

/-! ## What a preset says -/

namespace RoomPreset

variable (preset : RoomPreset host) (name key : String)

/-- The entries of the room. -/
def roomEntries : Fields := entriesOf (preset.value.get "mods")

def shards : Fields := (preset.value.get "shards").fields

/-- The entries of a shard. -/
def shardEntries : Fields :=
  (preset.shards.get? name).elim .empty fun shard => entriesOf (shard.get "mods")

/-- The value that is given to a settings field, which may be null. -/
def setting? : Option Json := (preset.value.get "settings").get? key

def shardSetting? : Option Json :=
  (preset.shards.get? name).bind fun shard => (shard.get "settings").get? key

def world? : Option Json := (preset.shards.get? name).bind fun shard => shard.get? "world"

end RoomPreset

def ClusterConfig.shards (cluster : ClusterConfig host) : Fields := (cluster.value.get "shards").fields

/-! ## Presets are canonical -/

theorem canonical_value {model : ConfigModel} (data : model.Data) :
    model.decoder.Canonical data.value := by
  obtain ⟨input, h⟩ := data.valid
  obtain ⟨_, _, h⟩ := bind_eq_ok.1 h
  obtain ⟨form, hform, h⟩ := bind_eq_ok.1 h
  obtain ⟨_, _, h⟩ := bind_eq_ok.1 h
  cases h
  unfold ConfigModel.decode at hform
  split at hform
  · rename_i hread
    cases hform
    exact model.decoder.canonical hread
  · exact absurd hform fail_ne_ok

/-- The fields of a part, which are canonical where it has them. -/
structure PartOk (host : Host) (part : Json) : Prop where
  settings : part.get "settings" = .null ∨
    (Presets.settings .clusterSettings).Canonical (part.get "settings")
  mods : part.get "mods" = .null ∨ (modOverrides host).decoder.Canonical (part.get "mods")
  shards : ∀ name shard, (part.get "shards").fields.get? name = some shard →
    (shardConfig host).decoder.Canonical shard

theorem canonical_get {r : Record} {m : Fields} {k : String} {d : Decoder} (hm : r.Holds m)
    (hd : r.decoder? k = some d) :
    (Json.ofFields m).get k = .null ∨ d.Canonical ((Json.ofFields m).get k) := by
  rw [get_ofFields]
  cases hvalue : m.get? k with
  | none => exact Or.inl rfl
  | some value =>
    obtain ⟨d', hd', hcanonical⟩ := hm.field k value hvalue
    rw [hd, Option.some.injEq] at hd'
    exact Or.inr (hd' ▸ hcanonical)

theorem partOk (preset : RoomPreset host) : PartOk host preset.value := by
  obtain ⟨m, hm, hholds⟩ := Record.canonical_iff.1 (canonical_value preset)
  rw [hm]
  constructor
  · apply canonical_get hholds
    simp [Record.decoder?, roomPreset, declare]
  · apply canonical_get hholds
    simp [Record.decoder?, roomPreset, declare]
  · intro name shard hshard
    have hd : (roomPreset host).decoder? "shards" = some (shardConfigs host).decoder := by
      simp [Record.decoder?, roomPreset, declare]
    rcases canonical_get hholds hd with hnull | hcanonical
    · rw [hnull] at hshard
      cases hshard
    · obtain ⟨shards, heq, hshards⟩ := Record.canonical_iff.1 hcanonical
      rw [heq, Json.fields_ofFields] at hshard
      obtain ⟨d, hd, hcanonical⟩ := hshards.field name shard hshard
      cases hd
      exact hcanonical

/-! ## Drafts -/

namespace Draft

variable (d : Draft) (name key : String)

/-- The entries of a shard, or those of the room before there is the shard. -/
def entries : Fields := entriesOf ((d.shards.get? name).elim d.mods fun shard => shard.get "mods")

def shardSetting? : Option Json :=
  (d.shards.get? name).bind fun shard => (shard.get "settings").get? key

def world? : Option Json := (d.shards.get? name).bind fun shard => shard.get? "world"

end Draft

/-- The parts of a draft are canonical, and the mods of the shards cover the
mods of the room. -/
structure Sound (host : Host) (d : Draft) : Prop where
  settings : (Presets.settings .clusterSettings).Canonical d.settings
  mods : (modOverrides host).decoder.Canonical d.mods
  shards : ∀ name shard, d.shards.get? name = some shard →
    (shardConfig host).decoder.Canonical shard
  covers : ∀ name shard, d.shards.get? name = some shard →
    ∃ own, shard.get? "mods" = some own ∧ CoversMods own d.mods

theorem sound_empty : Sound host {} where
  settings := canonical_settings_empty
  mods := canonical_mods_empty
  shards := by
    intro name shard hshard
    cases hshard
  covers := by
    intro name shard hshard
    cases hshard

/-- The fields and the mods of a shard of a sound draft. -/
theorem Sound.exists_own {d : Draft} (hd : Sound host d) {name : String} {shard : Json}
    (h : d.shards.get? name = some shard) :
    ∃ s own, shard = .ofFields s ∧ (shardConfig host).Holds s ∧ s.get? "mods" = some own ∧
      CoversMods own d.mods ∧ field shard "mods" (.object []) = own := by
  obtain ⟨s, rfl, hs⟩ := Record.canonical_iff.1 (hd.shards name shard h)
  obtain ⟨own, hown, hcovers⟩ := hd.covers name _ h
  rw [Json.get?_ofFields] at hown
  refine ⟨s, own, rfl, hs, hown, hcovers, ?_⟩
  rw [field, Json.get?_ofFields, hown]
  rfl

/-- What a part that gives `given` for a shard changes of what a draft says of it. -/
structure Told (name : String) (given : Option Json) (d d' : Draft) : Prop where
  entries : d'.entries name =
    (d.entries name).extend (given.elim .empty fun shard => entriesOf (shard.get "mods"))
  setting : ∀ key, d'.shardSetting? name key =
    (given.bind fun shard => (shard.get "settings").get? key).or (d.shardSetting? name key)
  world : worldStep (d.world? name) (given.bind fun shard => shard.get? "world") =
    .ok (d'.world? name)

section Told

variable {d d₁ d' : Draft} {name : String} {given : Option Json}

theorem told_none (hmods : d'.mods = d.mods) (hshard : d'.shards.get? name = d.shards.get? name) :
    Told name none d d' where
  entries := by
    rw [Draft.entries, hmods, hshard]
    rfl
  setting := by
    intro key
    rw [Draft.shardSetting?, hshard]
    rfl
  world := by
    rw [Draft.world?, Draft.world?, hshard]
    rfl

/-- Nothing is told in the first of two steps. -/
theorem Told.after_none (h : Told name none d d₁) (h' : Told name given d₁ d') :
    Told name given d d' where
  entries := by
    rw [h'.entries, h.entries]
    rfl
  setting := by
    intro key
    rw [h'.setting, h.setting]
    rfl
  world := by
    have hworld : d.world? name = d₁.world? name := Except.ok.inj h.world
    rw [hworld, h'.world]

/-- Nothing is told in the second of two steps. -/
theorem Told.then_none (h : Told name given d d₁) (h' : Told name none d₁ d') :
    Told name given d d' where
  entries := by
    rw [h'.entries, h.entries]
    rfl
  setting := by
    intro key
    rw [h'.setting, h.setting]
    rfl
  world := by
    have hworld : d₁.world? name = d'.world? name := Except.ok.inj h'.world
    rw [h.world, hworld]

end Told

/-! ## One shard -/

section Shard

variable {d d' : Draft} {name : String} {patch : Json}

theorem canonical_shard_mods {s : Fields} (h : (shardConfig host).Holds s) :
    (Json.ofFields s).get "mods" = .null ∨
      (modOverrides host).decoder.Canonical ((Json.ofFields s).get "mods") :=
  canonical_get h decoder?_mods

/-- Mods that may be absent are merged into others. -/
theorem merge_absent {base mods : Json} (hbase : (modOverrides host).decoder.Canonical base)
    (hmods : mods = .null ∨ (modOverrides host).decoder.Canonical mods) :
    (modOverrides host).decoder.Canonical (mergeMods base mods) ∧
      CoversMods (mergeMods base mods) base ∧
      entriesOf (mergeMods base mods) = (entriesOf base).extend (entriesOf mods) := by
  rcases hmods with hnull | hcanonical
  · rw [hnull]
    exact ⟨hbase, ⟨fun _ hk => hk, fun _ hk => hk⟩, rfl⟩
  · exact ⟨canonical_mergeMods hbase hcanonical, coversMods_mergeMods hbase hcanonical,
      entriesOf_mergeMods hbase hcanonical⟩

/-- What the loop over the shards of a part does at one of them. -/
structure ShardAdded (host : Host) (name : String) (patch : Json) (d d' : Draft) : Prop where
  sound : Sound host d'
  mods : d'.mods = d.mods
  settings : d'.settings = d.settings
  other : ∀ other, other ≠ name → d'.shards.get? other = d.shards.get? other
  told : Told name (some patch) d d'

/-- A sound draft stays sound when a canonical shard that covers its mods is
put into it. -/
theorem Sound.insert {s : Fields} {own : Json} (hd : Sound host d)
    (hs : (shardConfig host).Holds s) (hown : s.get? "mods" = some own)
    (hcovers : CoversMods own d.mods) :
    Sound host { d with shards := d.shards.insert name (.ofFields s) } where
  settings := hd.settings
  mods := hd.mods
  shards := by
    intro other shard hshard
    rw [OrderedMap.get?_insert] at hshard
    split_ifs at hshard
    · cases hshard
      exact hs.read
    · exact hd.shards other shard hshard
  covers := by
    intro other shard hshard
    rw [OrderedMap.get?_insert] at hshard
    split_ifs at hshard
    · cases hshard
      exact ⟨own, hown, hcovers⟩
    · exact hd.covers other shard hshard

theorem addShard_new (hd : Sound host d) (hpatch : (shardConfig host).decoder.Canonical patch)
    (hnew : d.shards.get? name = none) (h : d.addShard (name, patch) = .ok d') :
    ShardAdded host name patch d d' := by
  obtain ⟨p, rfl, hp⟩ := Record.canonical_iff.1 hpatch
  obtain ⟨hmods, hcovers, hentries⟩ := merge_absent hd.mods (canonical_shard_mods hp)
  unfold Draft.addShard at h
  simp only [hnew] at h
  cases h
  rw [Json.set_ofFields]
  refine ⟨hd.insert (hp.insert decoder?_mods hmods) (OrderedMap.get?_insert_self _ _ _) hcovers,
    rfl, rfl, ?_, ?_, ?_, ?_⟩
  · intro other hother
    exact OrderedMap.get?_insert_of_ne hother _ _
  · rw [Draft.entries, Draft.entries, OrderedMap.get?_insert_self, hnew]
    show entriesOf ((Json.ofFields _).get "mods") = _
    rw [get_ofFields, OrderedMap.get?_insert_self, Option.getD_some, hentries]
    rfl
  · intro key
    rw [Draft.shardSetting?, Draft.shardSetting?, OrderedMap.get?_insert_self, hnew]
    show ((Json.ofFields _).get "settings").get? key = _
    rw [get_ofFields, OrderedMap.get?_insert_of_ne (by decide)]
    exact Option.or_none.symm
  · rw [Draft.world?, Draft.world?, OrderedMap.get?_insert_self, hnew]
    show worldStep none (p.get? "world") = .ok ((p.insert "mods" _).get? "world")
    rw [OrderedMap.get?_insert_of_ne (by decide)]
    cases p.get? "world" with
    | none => rfl
    | some given =>
      have hnull : isNull Json.null = true := rfl
      rw [worldStep, Option.getD_none, if_pos (Or.inr hnull)]
      rfl

theorem addShard_old {base : Json} (hd : Sound host d)
    (hpatch : (shardConfig host).decoder.Canonical patch) (hold : d.shards.get? name = some base)
    (h : d.addShard (name, patch) = .ok d') : ShardAdded host name patch d d' := by
  obtain ⟨p, rfl, hp⟩ := Record.canonical_iff.1 hpatch
  obtain ⟨b, own, rfl, hb, hown, hcovers, hfield⟩ := hd.exists_own hold
  unfold Draft.addShard at h
  simp only [hold] at h
  obtain ⟨_, hshard, h⟩ := bind_eq_ok.1 h
  obtain ⟨s, rfl, hs⟩ := exists_patched hb hp hshard
  cases h
  have hownc := (shardFields hb).mods own hown
  -- The mods of the shard are those it had, under those of the patch.
  obtain ⟨own', hown', hcovers', hentries'⟩ : ∃ own', s.get? "mods" = some own' ∧
      CoversMods own' own ∧
      entriesOf own' = (entriesOf own).extend (entriesOf ((Json.ofFields p).get "mods")) := by
    rw [hs.mods, hown, hfield]
    cases hgiven : p.get? "mods" with
    | none =>
      refine ⟨own, rfl, ⟨fun _ hk => hk, fun _ hk => hk⟩, ?_⟩
      rw [get_ofFields, hgiven]
      rfl
    | some given =>
      have hgivenc := (shardFields hp).mods given hgiven
      refine ⟨mergeMods own given, rfl, coversMods_mergeMods hownc hgivenc, ?_⟩
      rw [entriesOf_mergeMods hownc hgivenc, get_ofFields, hgiven]
      rfl
  refine ⟨hd.insert hs.holds hown' (hcovers'.trans hcovers), rfl, rfl, ?_, ?_, ?_, ?_⟩
  · intro other hother
    exact OrderedMap.get?_insert_of_ne hother _ _
  · rw [Draft.entries, Draft.entries, OrderedMap.get?_insert_self, hold]
    show entriesOf ((Json.ofFields s).get "mods") =
      (entriesOf ((Json.ofFields b).get "mods")).extend _
    rw [get_ofFields, hown', get_ofFields, hown, Option.getD_some, Option.getD_some, hentries']
    rfl
  · intro key
    rw [Draft.shardSetting?, Draft.shardSetting?, OrderedMap.get?_insert_self, hold]
    show ((Json.ofFields s).get "settings").get? key = _
    rw [get_ofFields, hs.settings, Option.getD_some]
    exact get?_overlay_settings (canonical_get_settings hb) (canonical_get_settings hp) key
  · rw [Draft.world?, Draft.world?, OrderedMap.get?_insert_self, hold]
    exact hs.world

theorem addShard_sound (hd : Sound host d) (hpatch : (shardConfig host).decoder.Canonical patch)
    (h : d.addShard (name, patch) = .ok d') : ShardAdded host name patch d d' := by
  cases hold : d.shards.get? name with
  | none => exact addShard_new hd hpatch hold h
  | some base => exact addShard_old hd hpatch hold h

end Shard

/-! ## One part -/

section Part

variable {d d' : Draft} {part : Json} {name : String}

/-- The loop over the shards of a part. -/
structure ShardsAdded (host : Host) (given : String → Option Json) (d d' : Draft) : Prop where
  sound : Sound host d'
  mods : d'.mods = d.mods
  settings : d'.settings = d.settings
  told : ∀ name, Told name (given name) d d'

theorem addShards_sound {shards : List (String × Json)} (hd : Sound host d)
    (hnodup : (shards.map Prod.fst).Nodup)
    (hshards : ∀ entry ∈ shards, (shardConfig host).decoder.Canonical entry.2)
    (h : shards.foldlM Draft.addShard d = .ok d') : ShardsAdded host (fun name => shards.lookup name) d d' := by
  induction shards generalizing d with
  | nil =>
    cases h
    exact ⟨hd, rfl, rfl, fun name => told_none rfl rfl⟩
  | cons entry rest ih =>
    obtain ⟨k, patch⟩ := entry
    rw [List.foldlM_cons] at h
    obtain ⟨d₁, h₁, h⟩ := bind_eq_ok.1 h
    rw [List.map_cons, List.nodup_cons] at hnodup
    have hone := addShard_sound hd (hshards _ List.mem_cons_self) h₁
    have hrest := ih hone.sound hnodup.2
      (fun entry hentry => hshards entry (List.mem_cons_of_mem _ hentry)) h
    refine ⟨hrest.sound, hrest.mods.trans hone.mods, hrest.settings.trans hone.settings, ?_⟩
    intro name
    show Told name (((k, patch) :: rest).lookup name) d d'
    rw [List.lookup_cons]
    by_cases hname : name = k
    · have hnone : rest.lookup k = none := by
        rw [List.lookup_eq_none_iff]
        intro entry hentry
        refine bne_iff_ne.2 fun heq => hnodup.1 ?_
        exact List.mem_map.2 ⟨entry, hentry, heq.symm⟩
      have htold : Told k (rest.lookup k) d₁ d' := hrest.told k
      rw [hnone] at htold
      rw [hname, beq_self_eq_true]
      exact hone.told.then_none htold
    · rw [beq_eq_false_iff_ne.2 hname]
      exact (told_none hone.mods (hone.other name hname)).after_none (hrest.told name)

/-- The mods of a part, at the room and at the shards that are there. -/
structure ModsAdded (host : Host) (mods : Json) (d d' : Draft) : Prop where
  sound : Sound host d'
  settings : d'.settings = d.settings
  entries : ∀ name, d'.entries name = (d.entries name).extend (entriesOf mods)
  setting : ∀ name key, d'.shardSetting? name key = d.shardSetting? name key
  world : ∀ name, d'.world? name = d.world? name

theorem addMods_sound {mods : Json} (hd : Sound host d)
    (hmods : mods = .null ∨ (modOverrides host).decoder.Canonical mods) :
    ModsAdded host mods d (d.addMods mods) := by
  unfold Draft.addMods
  split_ifs with hempty
  · -- An empty object and null have no entries.
    have hentries : entriesOf mods = .empty := by
      rcases hmods with hnull | hcanonical
      · rw [hnull]
        rfl
      · obtain ⟨m, rfl, hm⟩ := Record.canonical_iff.1 hcanonical
        rw [Json.fields_ofFields, OrderedMap.isEmpty_iff] at hempty
        have hnone : m.get? "entries" = none := by
          rw [OrderedMap.get?_eq_none_iff, hempty]
          exact List.not_mem_nil
        rw [entriesOf, get_ofFields, hnone]
        rfl
    refine ⟨hd, rfl, ?_, fun _ _ => rfl, fun _ => rfl⟩
    intro name
    rw [hentries, OrderedMap.extend_empty]
  · have hcanonical : (modOverrides host).decoder.Canonical mods := by
      rcases hmods with hnull | hcanonical
      · rw [hnull] at hempty
        exact absurd rfl hempty
      · exact hcanonical
    refine ⟨⟨hd.settings, canonical_mergeMods hd.mods hcanonical, ?_, ?_⟩, rfl, ?_, ?_, ?_⟩
    · intro name shard hshard
      rw [OrderedMap.get?_map] at hshard
      obtain ⟨old, hold, rfl⟩ := Option.map_eq_some_iff.1 hshard
      obtain ⟨s, own, rfl, hs, hown, _, hfield⟩ := hd.exists_own hold
      rw [hfield, Json.set_ofFields]
      exact (hs.insert decoder?_mods
        (canonical_mergeMods ((shardFields hs).mods own hown) hcanonical)).read
    · intro name shard hshard
      rw [OrderedMap.get?_map] at hshard
      obtain ⟨old, hold, rfl⟩ := Option.map_eq_some_iff.1 hshard
      obtain ⟨s, own, rfl, hs, hown, hcovers, hfield⟩ := hd.exists_own hold
      rw [hfield, Json.set_ofFields]
      exact ⟨mergeMods own mods, OrderedMap.get?_insert_self _ _ _,
        hcovers.mergeMods ((shardFields hs).mods own hown) hd.mods hcanonical⟩
    · intro name
      rw [Draft.entries, Draft.entries, OrderedMap.get?_map]
      cases hold : d.shards.get? name with
      | none => exact entriesOf_mergeMods hd.mods hcanonical
      | some old =>
        obtain ⟨s, own, rfl, hs, hown, _, hfield⟩ := hd.exists_own hold
        have hsame : (Json.ofFields s).get "mods" = own := by
          rw [get_ofFields, hown]
          rfl
        show entriesOf (((Json.ofFields s).set "mods" _).get "mods") =
          (entriesOf ((Json.ofFields s).get "mods")).extend (entriesOf mods)
        rw [Json.set_ofFields, get_ofFields, OrderedMap.get?_insert_self, Option.getD_some, hfield,
          hsame]
        exact entriesOf_mergeMods ((shardFields hs).mods own hown) hcanonical
    · intro name key
      rw [Draft.shardSetting?, Draft.shardSetting?, OrderedMap.get?_map]
      cases hold : d.shards.get? name with
      | none => rfl
      | some old =>
        obtain ⟨s, own, rfl, hs, hown, _, hfield⟩ := hd.exists_own hold
        show (((Json.ofFields s).set "mods" _).get "settings").get? key =
          ((Json.ofFields s).get "settings").get? key
        rw [Json.set_ofFields, get_ofFields, OrderedMap.get?_insert_of_ne (by decide)]
        rfl
    · intro name
      rw [Draft.world?, Draft.world?, OrderedMap.get?_map]
      cases hold : d.shards.get? name with
      | none => rfl
      | some old =>
        obtain ⟨s, own, rfl, hs, hown, _, hfield⟩ := hd.exists_own hold
        show ((Json.ofFields s).set "mods" _).get? "world" = (Json.ofFields s).get? "world"
        rw [Json.set_ofFields, Json.get?_ofFields, OrderedMap.get?_insert_of_ne (by decide)]
        rfl

/-- What a preset that is added to a draft changes of it. -/
structure Added (preset : RoomPreset host) (d d' : Draft) : Prop where
  sound : Sound host d'
  entries : ∀ name, d'.entries name =
    ((d.entries name).extend preset.roomEntries).extend (preset.shardEntries name)
  setting : ∀ key, d'.settings.get? key = (preset.setting? key).or (d.settings.get? key)
  shardSetting : ∀ name key, d'.shardSetting? name key =
    (preset.shardSetting? name key).or (d.shardSetting? name key)
  world : ∀ name, worldStep (d.world? name) (preset.world? name) = .ok (d'.world? name)

theorem add_sound {preset : RoomPreset host} (hd : Sound host d)
    (h : d.add preset.value = .ok d') : Added preset d d' := by
  obtain ⟨hsettings, hmods, hshards⟩ := partOk preset
  obtain ⟨d₀, hd₀⟩ : ∃ d₀ : Draft,
      d₀ = { d with settings := overlay d.settings (preset.value.get "settings") } := ⟨_, rfl⟩
  have hcanonical : (settings .clusterSettings).Canonical d₀.settings ∧
      ∀ key, d₀.settings.get? key = (preset.setting? key).or (d.settings.get? key) := by
    rw [hd₀]
    rcases hsettings with hnull | hpart
    · refine ⟨?_, ?_⟩
      · show (settings .clusterSettings).Canonical (overlay d.settings _)
        rw [hnull]
        exact hd.settings
      · intro key
        show (overlay d.settings (preset.value.get "settings")).get? key = _
        rw [RoomPreset.setting?, hnull]
        rfl
    · exact ⟨canonical_overlay_settings hd.settings hpart,
        get?_overlay_settings hd.settings hpart⟩
  have hsound₀ : Sound host d₀ := by
    rw [hd₀] at hcanonical ⊢
    exact ⟨hcanonical.1, hd.mods, hd.shards, hd.covers⟩
  have hone := addMods_sound hsound₀ hmods
  unfold Draft.add at h
  rw [← hd₀] at h
  have htwo := addShards_sound hone.sound
    (OrderedMap.keys_nodup (preset.value.get "shards").fields)
    (fun entry hentry => hshards entry.1 entry.2 (OrderedMap.mem_entries_iff.1 hentry)) h
  refine ⟨htwo.sound, ?_, ?_, ?_, ?_⟩
  · intro name
    rw [(htwo.told name).entries, hone.entries, hd₀]
    rfl
  · intro key
    rw [htwo.settings, hone.settings, hcanonical.2]
  · intro name key
    rw [(htwo.told name).setting, hone.setting, hd₀]
    rfl
  · intro name
    have hworld := (htwo.told name).world
    rw [hone.world, hd₀] at hworld
    exact hworld

end Part

/-! ## All parts -/

/-- The last value that a part gives, which may be null. -/
def lastGiven (given : RoomPreset host → Option Json) (parts : List (RoomPreset host)) :
    Option Json := parts.foldl (fun found part => (given part).or found) none

/-- The entries of a shard after the parts. -/
def effectiveEntries (name : String) (parts : List (RoomPreset host)) : Fields :=
  parts.foldl (fun entries part => (entries.extend part.roomEntries).extend (part.shardEntries name))
    .empty

/-- The world of a shard after the parts. -/
def lastWorld (name : String) (parts : List (RoomPreset host)) : Outcome String (Option Json) :=
  parts.foldlM (fun world part => worldStep world (part.world? name)) none

/-- What a fold over parts makes of a draft. -/
structure Folded (parts : List (RoomPreset host)) (d d' : Draft) : Prop where
  sound : Sound host d'
  entries : ∀ name, d'.entries name = parts.foldl
    (fun entries part => (entries.extend part.roomEntries).extend (part.shardEntries name))
    (d.entries name)
  setting : ∀ key, d'.settings.get? key =
    parts.foldl (fun found part => (part.setting? key).or found) (d.settings.get? key)
  shardSetting : ∀ name key, d'.shardSetting? name key =
    parts.foldl (fun found part => (part.shardSetting? name key).or found)
      (d.shardSetting? name key)
  world : ∀ name, parts.foldlM (fun world part => worldStep world (part.world? name))
    (d.world? name) = .ok (d'.world? name)

theorem folded {parts : List (RoomPreset host)} {d d' : Draft} (hd : Sound host d)
    (h : parts.foldlM (fun draft part => draft.add part.value) d = .ok d') :
    Folded parts d d' := by
  induction parts generalizing d with
  | nil =>
    cases h
    exact ⟨hd, fun _ => rfl, fun _ => rfl, fun _ _ => rfl, fun _ => rfl⟩
  | cons part rest ih =>
    rw [List.foldlM_cons] at h
    obtain ⟨d₁, h₁, h⟩ := bind_eq_ok.1 h
    have hone := add_sound hd h₁
    have hrest := ih hone.sound h
    refine ⟨hrest.sound, ?_, ?_, ?_, ?_⟩
    · intro name
      rw [hrest.entries, hone.entries, List.foldl_cons]
    · intro key
      rw [hrest.setting, hone.setting, List.foldl_cons]
    · intro name key
      rw [hrest.shardSetting, hone.shardSetting, List.foldl_cons]
    · intro name
      rw [List.foldlM_cons, hone.world name, ok_bind]
      exact hrest.world name

/-! ## A draft as a part -/

section Again

variable {d : Draft}

theorem get?_value_settings (d : Draft) : d.value.get? "settings" = some d.settings := by
  simp [Draft.value, OrderedMap.ofList, OrderedMap.get?_insert]

theorem get?_value_shards (d : Draft) : d.value.get? "shards" = some (.ofFields d.shards) := by
  simp [Draft.value, OrderedMap.ofList, OrderedMap.get?_insert]

theorem get?_value_mods (d : Draft) : d.value.get? "mods" = some d.mods := by
  simp [Draft.value, OrderedMap.ofList]

theorem canonical_shards (hd : Sound host d) :
    (shardConfigs host).decoder.Canonical (.ofFields d.shards) := by
  refine Record.canonical_iff.2 ⟨d.shards, rfl, ?_, ?_⟩
  · intro field hfield
    cases hfield
  · intro name shard hshard
    exact ⟨_, rfl, hd.shards name shard hshard⟩

theorem Sound.canonical_value (hd : Sound host d) : (roomPreset host).decoder.Canonical d.value := by
  have hempty : (roomPreset host).Holds .empty := by
    apply Record.holds_empty
    simp [roomPreset, declare]
  refine (((hempty.insert (k := "settings") ?_ hd.settings).insert (k := "shards") ?_ (canonical_shards hd)).insert
    (k := "mods") ?_ hd.mods).read
  · simp [Record.decoder?, roomPreset, declare]
  · simp [Record.decoder?, roomPreset, declare]
  · simp [Record.decoder?, roomPreset, declare]

/-- The shards of a sound draft are new to a draft with its mods. -/
theorem foldlM_addShard {mods : Json} {shards : List (String × Json)} {d₀ : Draft}
    (hnodup : (shards.map Prod.fst).Nodup)
    (hnew : ∀ entry ∈ shards, d₀.shards.get? entry.1 = none) (hmods : d₀.mods = mods)
    (hsame : ∀ entry ∈ shards, entry.2.set "mods" (mergeMods mods (entry.2.get "mods")) = entry.2) :
    shards.foldlM Draft.addShard d₀ =
      .ok { d₀ with shards := shards.foldl (fun m e => m.insert e.1 e.2) d₀.shards } := by
  induction shards generalizing d₀ with
  | nil => rfl
  | cons entry rest ih =>
    rw [List.map_cons, List.nodup_cons] at hnodup
    have hone : d₀.addShard entry =
        .ok { d₀ with shards := d₀.shards.insert entry.1 entry.2 } := by
      unfold Draft.addShard
      simp only [hnew entry List.mem_cons_self, hmods, hsame entry List.mem_cons_self]
      rfl
    rw [List.foldlM_cons, hone, ok_bind]
    refine ih hnodup.2 ?_ hmods ?_
    · intro other hother
      have hne : other.1 ≠ entry.1 := by
        intro heq
        exact hnodup.1 (List.mem_map.2 ⟨other, hother, heq⟩)
      show (d₀.shards.insert entry.1 entry.2).get? other.1 = none
      rw [OrderedMap.get?_insert_of_ne hne]
      exact hnew other (List.mem_cons_of_mem _ hother)
    · intro other hother
      exact hsame other (List.mem_cons_of_mem _ hother)

/-- Mods and a shard that covers them merge to the shard. -/
theorem Sound.set_mods (hd : Sound host d) {name : String} {shard : Json}
    (h : d.shards.get? name = some shard) :
    shard.set "mods" (mergeMods d.mods (shard.get "mods")) = shard := by
  obtain ⟨s, own, rfl, hs, hown, hcovers, _⟩ := hd.exists_own h
  have hsame : (Json.ofFields s).get "mods" = own := by
    rw [get_ofFields, hown]
    rfl
  rw [hsame, hcovers.mergeMods_eq ((shardFields hs).mods own hown) hd.mods, Json.set_ofFields,
    OrderedMap.insert_self hown]

/-- A sound draft that is added to the empty one gives itself. -/
theorem add_value (hd : Sound host d) : ({} : Draft).add d.value = .ok d := by
  have hsettings : overlay (.object []) d.settings = d.settings := by
    obtain ⟨sparse, hsparse, _⟩ := canonical_settings.1 hd.settings
    rw [hsparse, asValue_eq]
    exact overlay_empty _
  have hmods : ({ settings := d.settings } : Draft).addMods d.mods =
      { settings := d.settings, mods := d.mods } := by
    unfold Draft.addMods
    split_ifs with hempty
    · obtain ⟨m, hm, _⟩ := Record.canonical_iff.1 hd.mods
      rw [hm, Json.fields_ofFields, OrderedMap.isEmpty_iff] at hempty
      have hentries : m = .empty := OrderedMap.ext_entries (List.map_eq_nil_iff.1 hempty)
      rw [hm, hentries]
      rfl
    · have hcovers : CoversMods d.mods (.object []) :=
        ⟨OrderedMap.covers_empty _, OrderedMap.covers_empty _⟩
      show Draft.mk d.settings .empty (mergeMods (.object []) d.mods) = _
      rw [hcovers.mergeMods_eq hd.mods canonical_mods_empty]
  unfold Draft.add
  rw [Json.get, Json.get, Json.get, get?_value_settings, get?_value_shards, get?_value_mods,
    Option.getD_some, Option.getD_some, Option.getD_some, Json.fields_ofFields]
  show d.shards.entries.foldlM Draft.addShard
    (({ settings := overlay (.object []) d.settings } : Draft).addMods d.mods) = .ok d
  rw [hsettings, hmods]
  have hfold := @foldlM_addShard d.mods d.shards.entries
    { settings := d.settings, mods := d.mods } d.shards.keys_nodup (fun _ _ => rfl) rfl
    (fun entry hentry => hd.set_mods (OrderedMap.mem_entries_iff.1 hentry))
  rw [hfold]
  show Except.ok { d with shards := OrderedMap.ofList d.shards.entries } = _
  rw [OrderedMap.ofList_entries]

end Again

/-! ## Composition and building -/

theorem fromValue_eq_ok {model : ConfigModel} {value : Json} {data : model.Data}
    (h : model.fromValue value = .ok data) : model.validate value = .ok data.value := by
  unfold ConfigModel.fromValue at h
  split at h
  · rename_i form hform
    cases h
    exact hform
  · cases h

theorem read_of_fromValue {model : ConfigModel} {value : Json} {data : model.Data}
    (h : model.fromValue value = .ok data) : model.decoder.read value = .ok data.value := by
  obtain ⟨_, _, h⟩ := bind_eq_ok.1 (fromValue_eq_ok h)
  obtain ⟨form, hform, h⟩ := bind_eq_ok.1 h
  obtain ⟨_, _, h⟩ := bind_eq_ok.1 h
  cases h
  unfold ConfigModel.decode at hform
  split at hform
  · rename_i hread
    cases hform
    exact hread
  · exact absurd hform fail_ne_ok

section Compose

variable {parts xs ys : List (RoomPreset host)} {preset : RoomPreset host} {d : Draft}

/-- A composition is the draft after its parts, unchanged. -/
theorem value_of_compose (h : RoomPreset.compose parts = .ok preset) :
    ∃ d, parts.foldlM (fun draft part => draft.add part.value) ({} : Draft) = .ok d ∧
      Folded parts {} d ∧ preset.value = d.value := by
  obtain ⟨d, hd, h⟩ := bind_eq_ok.1 h
  have hfolded := folded sound_empty hd
  refine ⟨d, hd, hfolded, ?_⟩
  have hread := read_of_fromValue h
  exact Except.ok.inj (hread.symm.trans hfolded.sound.canonical_value)

/-- To compose in steps is to compose at once. -/
theorem compose_cons (h : RoomPreset.compose xs = .ok preset) :
    RoomPreset.compose (preset :: ys) = RoomPreset.compose (xs ++ ys) := by
  obtain ⟨d, hd, hfolded, hvalue⟩ := value_of_compose h
  unfold RoomPreset.compose
  rw [List.foldlM_cons, List.foldlM_append, hd, hvalue, add_value hfolded.sound]

/-- The shards of a composition have the mods of the room already. -/
theorem builtShards_eq (hd : Sound host d) (hvalue : preset.value = d.value) :
    preset.builtShards = d.shards := by
  apply OrderedMap.ext_get?
  intro name
  rw [RoomPreset.builtShards, field, field, hvalue, get?_value_shards, get?_value_mods,
    Option.getD_some, Option.getD_some, Json.fields_ofFields, OrderedMap.get?_map]
  cases hshard : d.shards.get? name with
  | none => rfl
  | some shard => exact congrArg some (hd.set_mods hshard)

theorem set_asValue (sparse : Configuration.Sparse) (key value : String) :
    ∃ sparse' : Configuration.Sparse, sparse.asValue.set key (.string value) = sparse'.asValue := by
  refine ⟨OrderedMap.insert key (.text value.toList) sparse, ?_⟩
  rw [asValue_eq, asValue_eq, Json.set_ofFields]
  apply congrArg Json.ofFields
  apply OrderedMap.ext_get?
  intro k
  simp only [jsonFields, OrderedMap.get?_insert, OrderedMap.get?_map]
  split_ifs with hk
  · simp [Configuration.Scalar.toJson, String.ofList_toList]
  · rfl

theorem exists_builtSettings (hd : Sound host d) (hvalue : preset.value = d.value)
    (clusterKey : Option String) (given : Option (Settings .clusterSettings)) :
    ∃ sparse : Configuration.Sparse, preset.builtSettings clusterKey given = sparse.asValue := by
  obtain ⟨first, hfirst, _⟩ := canonical_settings.1 hd.settings
  have hbase : ∃ sparse : Configuration.Sparse,
      given.elim d.settings (fun given => overlay d.settings given.sparse.asValue) =
        sparse.asValue := by
    cases given with
    | none => exact ⟨first, hfirst⟩
    | some given => exact ⟨_, hfirst ▸ overlay_asValue first given.sparse⟩
  obtain ⟨sparse, hsparse⟩ := hbase
  unfold RoomPreset.builtSettings
  rw [field, hvalue, get?_value_settings, Option.getD_some]
  show ∃ sparse : Configuration.Sparse,
    clusterKey.elim (given.elim d.settings fun given => overlay d.settings given.sparse.asValue)
      (fun key => Json.set _ "cluster_key" (.string key)) = sparse.asValue
  rw [hsparse]
  cases clusterKey with
  | none => exact ⟨sparse, rfl⟩
  | some key => exact set_asValue sparse "cluster_key" key

theorem decoder?_token : (clusterConfig host).decoder? "token" =
    some (.text fun token => ∀ c ∈ token, '!' ≤ c ∧ c ≤ '~') := by
  simp [Record.decoder?, clusterConfig, declare]

theorem decoder?_cluster_shards : (clusterConfig host).decoder? "shards" =
    some ((shardConfigs host).decoder.filter fun value => value.fields.isEmpty = false) := by
  simp [Record.decoder?, clusterConfig]

theorem decoder?_cluster_settings :
    (clusterConfig host).decoder? "settings" = some (settings .clusterSettings) := by
  simp [Record.decoder?, clusterConfig, declare]

/-- What is built has fields that are read as they are. -/
theorem exact_built (hd : Sound host d) (sparse : Configuration.Sparse) (token : String) :
    (clusterConfig host).decoder.Exact (.ofFields (.ofList [
      ("settings", sparse.asValue), ("shards", .ofFields d.shards), ("token", .string token)])) := by
  apply Record.exact_ofFields
  intro k x decoder hx hdecoder
  simp only [OrderedMap.ofList, List.foldl_cons, List.foldl_nil, OrderedMap.get?_insert] at hx
  split_ifs at hx with htoken hshard hsettings
  · cases hx
    rw [htoken, decoder?_token, Option.some.injEq] at hdecoder
    rw [← hdecoder]
    exact Decoder.exact_ofPred _ _
  · cases hx
    rw [hshard, decoder?_cluster_shards, Option.some.injEq] at hdecoder
    rw [← hdecoder]
    exact (canonical_shards hd).exact.filter _
  · cases hx
    rw [hsettings, decoder?_cluster_settings, Option.some.injEq] at hdecoder
    rw [← hdecoder]
    exact exact_settings sparse
  · cases hx

/-- A cluster configuration has the shards of the composition that it is
built from. -/
theorem shards_of_build {token : String} {clusterKey : Option String}
    {given : Option (Settings .clusterSettings)} {cluster : ClusterConfig host}
    (hd : Sound host d) (hvalue : preset.value = d.value)
    (h : preset.build token clusterKey given = .ok cluster) :
    ClusterConfig.shards cluster = d.shards := by
  have hread := read_of_fromValue h
  obtain ⟨sparse, hsparse⟩ := exists_builtSettings hd hvalue clusterKey given
  rw [builtShards_eq hd hvalue, hsparse] at hread
  have heq := exact_built hd sparse token _ hread
  have hget : cluster.value.get? "shards" = some (.ofFields d.shards) := by
    rw [heq]
    simp [OrderedMap.ofList, OrderedMap.get?_insert]
  rw [ClusterConfig.shards, Json.get, hget, Option.getD_some, Json.fields_ofFields]

theorem entries_of_get? {name : String} {shard : Json} (h : d.shards.get? name = some shard) :
    entriesOf (shard.get "mods") = d.entries name := by
  rw [Draft.entries, h]
  rfl

end Compose

/-- **Composition.** When the composition of `xs` succeeds, to compose it with
`ys` is to compose `xs ++ ys`.  In a composition each part changes the
entries of a shard by those of the room and then by its own, and the last
value that a part gives to a settings field counts, as a null in place of a
world does. -/
theorem compose_law (host : Host) :
    (∀ (xs ys : List (RoomPreset host)) (preset : RoomPreset host),
      RoomPreset.compose xs = .ok preset →
        RoomPreset.compose (preset :: ys) = RoomPreset.compose (xs ++ ys)) ∧
    ∀ (parts : List (RoomPreset host)) (preset : RoomPreset host),
      RoomPreset.compose parts = .ok preset →
        (∀ token clusterKey given (cluster : ClusterConfig host),
          preset.build token clusterKey given = .ok cluster →
            ∀ name shard, (ClusterConfig.shards cluster).get? name = some shard →
              entriesOf (shard.get "mods") = effectiveEntries name parts) ∧
        (∀ key, preset.setting? key = lastGiven (fun part => part.setting? key) parts) ∧
        (∀ name key, preset.shardSetting? name key =
          lastGiven (fun part => part.shardSetting? name key) parts) ∧
        (∀ name, lastWorld name parts = .ok (preset.world? name)) := by
  refine ⟨fun xs ys preset => compose_cons, ?_⟩
  intro parts preset h
  obtain ⟨d, _, hfolded, hvalue⟩ := value_of_compose h
  have hshards : preset.shards = d.shards := by
    rw [RoomPreset.shards, Json.get, hvalue, get?_value_shards, Option.getD_some,
      Json.fields_ofFields]
  refine ⟨?_, ?_, ?_, ?_⟩
  · intro token clusterKey given cluster hbuild name shard hshard
    rw [shards_of_build hfolded.sound hvalue hbuild] at hshard
    rw [entries_of_get? hshard]
    exact hfolded.entries name
  · intro key
    rw [RoomPreset.setting?, Json.get, hvalue, get?_value_settings, Option.getD_some]
    exact hfolded.setting key
  · intro name key
    rw [RoomPreset.shardSetting?, hshards]
    exact hfolded.shardSetting name key
  · intro name
    rw [RoomPreset.world?, hshards]
    exact hfolded.world name

/-! ## Presets at hand -/

def sampleHost : Host where
  numbers := ⟨some, fun h => Option.some.inj h ▸ rfl⟩
  buffered := ⟨some, fun h => Option.some.inj h ▸ rfl⟩
  unitInterval := fun literal => literal = "0" || literal = "1"
  toLowercase := Text.lower
  doubles := { Float := Unit, parse := fun _ => none, neg := id, fromF64 := fun _ => none }
  reader := { tokens := fun _ => [], parseFallible := fun _ => none }

/-- The preset of a value. -/
def presetOf (value : Json)
    (h : ((roomPresetModel sampleHost).fromValue value).toOption.isSome = true) :
    RoomPreset sampleHost := Option.get _ h

def settingsPreset (key : String) (n : Nat)
    (h : ((roomPresetModel sampleHost).fromValue
      (.object [("settings", .object [(key, .ofNat n)])])).toOption.isSome = true) :
    RoomPreset sampleHost := presetOf _ h

/-- Ten slots for sixteen players. -/
def slotsPreset : RoomPreset sampleHost := settingsPreset "whitelist_slots" 10 (by decide +kernel)

def fewPlayers : RoomPreset sampleHost := settingsPreset "max_players" 5 (by decide +kernel)

def manyPlayers : RoomPreset sampleHost := settingsPreset "max_players" 16 (by decide +kernel)

/-- Ten slots are too many for five players, until a third part lets more
players in. -/
theorem compose_prefix_refused :
    (RoomPreset.compose ([slotsPreset, fewPlayers] ++ [manyPlayers])).Succeeds ∧
      ¬(RoomPreset.compose [slotsPreset, fewPlayers]).Succeeds := by
  rw [← isSome_toOption, ← isSome_toOption]
  decide +kernel

/-- A shard with the mod `local`. -/
def forestPreset : RoomPreset sampleHost :=
  presetOf (.object [
    ("settings", .object [("cluster_name", .string "first")]),
    ("shards", .object [("forest", .object [
      ("mods", .object [("entries", .object [("local", .object [("enabled", .bool true)])])]),
      ("settings", .object [("encode_user_path", .bool false)])])])])
    (by decide +kernel)

/-- Mods for the room, a null in place of the name and one in place of the world. -/
def patchPreset : RoomPreset sampleHost :=
  presetOf (.object [
    ("mods", .object [("entries", .object [
      ("local", .object [("enabled", .bool false)]),
      ("other", .object [("enabled", .bool true)])])]),
    ("settings", .object [("cluster_name", .null)]),
    ("shards", .object [("forest", .object [
      ("settings", .object [("server_port", .number "12000")]),
      ("world", .null)])])])
    (by decide +kernel)

theorem eq_ok_get {α : Type} {x : Outcome String α} (h : x.toOption.isSome = true) :
    x = .ok (x.toOption.get h) := by
  cases x with
  | ok a => rfl
  | error e => cases h

/-- The composition of both, and the cluster that is built from it. -/
def wholePreset : RoomPreset sampleHost :=
  (RoomPreset.compose [forestPreset, patchPreset]).toOption.get (by decide +kernel)

def wholeCluster : ClusterConfig sampleHost :=
  (wholePreset.build "token" (some "key") none).toOption.get (by decide +kernel)

theorem compose_law_whole :
    RoomPreset.compose [wholePreset, forestPreset] =
        RoomPreset.compose ([forestPreset, patchPreset] ++ [forestPreset]) ∧
      (∀ name shard, (ClusterConfig.shards wholeCluster).get? name = some shard →
        entriesOf (shard.get "mods") = effectiveEntries name [forestPreset, patchPreset]) ∧
      lastWorld "forest" [forestPreset, patchPreset] = .ok (wholePreset.world? "forest") :=
  have hwhole : RoomPreset.compose [forestPreset, patchPreset] = .ok wholePreset := eq_ok_get _
  have hlaw := (compose_law sampleHost).2 _ _ hwhole
  ⟨(compose_law sampleHost).1 _ _ _ hwhole,
    hlaw.1 "token" (some "key") none wholeCluster (eq_ok_get _), hlaw.2.2.2 "forest"⟩

end DstServer.Presets
