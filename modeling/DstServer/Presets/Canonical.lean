import DstServer.Presets.Model

/-!
# Canonical values under composition

What a decoder accepts without a change stays so when two such values are
merged: the settings (`canonical_overlay_settings`), the mods
(`canonical_mergeMods`), the worlds (`canonical_composeWorld`) and the
shards (`exists_patched`).

`CoversMods own mods` says that the mods of a shard have all the fields and
all the entries of the mods of the room.  Such mods absorb the mods of the
room (`CoversMods.mergeMods_eq`), so it changes nothing to merge them again.
-/

namespace DstServer.Presets

open Lib Outcome

/-! ## Overlays -/

section Overlay

variable (m p : Fields)

theorem get_ofFields (k : String) : (Json.ofFields m).get k = (m.get? k).getD .null := rfl

@[simp] theorem overlay_ofFields : overlay (.ofFields m) (.ofFields p) = .ofFields (m.extend p) := by
  show Json.ofFields ((Json.ofFields m).fields.extend (Json.ofFields p).fields) = _
  rw [Json.fields_ofFields, Json.fields_ofFields]

@[simp] theorem overlay_empty : overlay (.object []) (.ofFields p) = .ofFields p := by
  have h := overlay_ofFields .empty p
  rwa [OrderedMap.empty_extend] at h

theorem overlay_null : overlay .null (.ofFields p) = .ofFields p := by
  show Json.ofFields ((Json.null).fields.extend (Json.ofFields p).fields) = _
  rw [Json.fields_ofFields]
  exact congrArg Json.ofFields (OrderedMap.empty_extend p)

end Overlay

/-! ## Settings -/

section Settings

open DstServer.Configuration (Sparse Scalar)

variable {model : Configuration.Model} {value base patch : Json} {sparse : Sparse}

/-- The values of settings whose fields pass their constraints. -/
structure Admitted (model : Configuration.Model) (sparse : Sparse) : Prop where
  typed : model.Typed sparse
  checked : ∀ field ∈ model.fields, field.admits (sparse.get? field.name) = true

theorem Admitted.settings? (h : Admitted model sparse) :
    settings? model sparse.asValue = some sparse := by
  rw [settings?_eq_some]
  refine ⟨Configuration.decode_asValue h.typed, ?_⟩
  rw [Configuration.Model.checkFields, forM_eq_ok]
  intro field hfield
  exact ensure_of (h.checked field hfield) _

theorem admitted_of_settings? (h : Presets.settings? model value = some sparse) :
    Admitted model sparse := by
  obtain ⟨hdecode, hcheck⟩ := settings?_eq_some.1 h
  constructor
  · exact fun _ _ => Configuration.Model.typed_of_decode hdecode
  · intro field hfield
    rw [Configuration.Model.checkFields, forM_eq_ok] at hcheck
    exact ensure_eq_ok.1 (hcheck field hfield)

theorem canonical_settings :
    (settings model).Canonical value ↔ ∃ sparse, value = sparse.asValue ∧ Admitted model sparse := by
  constructor
  · intro h
    obtain ⟨sparse, hsparse, hvalue⟩ := Option.map_eq_some_iff.1 (orError_eq_ok.1 h)
    exact ⟨sparse, hvalue.symm, admitted_of_settings? hsparse⟩
  · intro ⟨sparse, hvalue, hadmitted⟩
    subst hvalue
    refine orError_eq_ok.2 ?_
    show (Presets.settings? model sparse.asValue).map Sparse.asValue = _
    rw [hadmitted.settings?]
    rfl

/-- The fields of settings, as JSON. -/
def jsonFields (sparse : Sparse) : Fields := sparse.map fun _ => Scalar.toJson

theorem asValue_eq (sparse : Sparse) : sparse.asValue = .ofFields (jsonFields sparse) := rfl

theorem jsonFields_extend (first second : Sparse) :
    (jsonFields first).extend (jsonFields second) = jsonFields (first.extend second) := by
  apply OrderedMap.ext_get?
  intro k
  simp only [jsonFields, OrderedMap.get?_extend, OrderedMap.get?_map]
  cases second.get? k with
  | some value => rfl
  | none => rfl

theorem overlay_asValue (first second : Sparse) :
    overlay first.asValue second.asValue = Sparse.asValue (first.extend second) := by
  rw [asValue_eq, asValue_eq, overlay_ofFields, jsonFields_extend, asValue_eq]

theorem Admitted.extend {first second : Sparse} (hfirst : Admitted model first)
    (hsecond : Admitted model second) : Admitted model (first.extend second) where
  typed := by
    intro name value hvalue
    rcases OrderedMap.get?_extend_eq_some hvalue with hvalue | hvalue
    · exact hsecond.typed name value hvalue
    · exact hfirst.typed name value hvalue
  checked := by
    intro field hfield
    rw [OrderedMap.get?_extend]
    cases hvalue : second.get? field.name with
    | some value =>
      have hadmits := hsecond.checked field hfield
      rwa [hvalue] at hadmits
    | none => exact hfirst.checked field hfield

theorem canonical_overlay_settings (hbase : (settings model).Canonical base)
    (hpatch : (settings model).Canonical patch) :
    (settings model).Canonical (overlay base patch) := by
  obtain ⟨first, rfl, hfirst⟩ := canonical_settings.1 hbase
  obtain ⟨second, rfl, hsecond⟩ := canonical_settings.1 hpatch
  rw [overlay_asValue]
  exact canonical_settings.2 ⟨_, rfl, hfirst.extend hsecond⟩

theorem get?_overlay_settings (hbase : (settings model).Canonical base)
    (hpatch : (settings model).Canonical patch) (key : String) :
    (overlay base patch).get? key = (patch.get? key).or (base.get? key) := by
  obtain ⟨first, rfl, _⟩ := canonical_settings.1 hbase
  obtain ⟨second, rfl, _⟩ := canonical_settings.1 hpatch
  rw [asValue_eq, asValue_eq, overlay_ofFields, Json.get?_ofFields, OrderedMap.get?_extend]
  rfl

theorem canonical_settings_empty : (settings model).Canonical (.object []) := by
  refine canonical_settings.2 ⟨.empty, rfl, ?_, ?_⟩
  · intro name value hvalue
    simp at hvalue
  · intro field _
    rfl

/-- Settings are read as they are, or not at all. -/
theorem exact_settings (sparse : Sparse) : (settings model).Exact sparse.asValue := by
  intro form h
  obtain ⟨found, hfound, rfl⟩ := Option.map_eq_some_iff.1 (orError_eq_ok.1 h)
  rw [Configuration.eq_of_decode_asValue (settings?_eq_some.1 hfound).1]

end Settings

/-! ## Mods -/

section Mods

variable {host : Host} {base patch own mods : Json}

/-- `entries()` -/
def entriesOf (mods : Json) : Fields := (mods.get "entries").fields

/-- The values that a map of `d` leaves as they are. -/
theorem canonical_map {d : Decoder} {value : Json} :
    (map d).Canonical value ↔
      ∃ m, value = .ofFields m ∧ ∀ k x, m.get? k = some x → d.Canonical x := by
  refine Record.canonical_iff.trans ?_
  constructor
  · intro ⟨m, hvalue, hm⟩
    refine ⟨m, hvalue, ?_⟩
    intro k x hx
    obtain ⟨d', hd', hcanonical⟩ := hm.field k x hx
    cases hd'
    exact hcanonical
  · intro ⟨m, hvalue, hm⟩
    refine ⟨m, hvalue, ?_, ?_⟩
    · intro field hfield
      cases hfield
    · intro k x hx
      exact ⟨d, rfl, hm k x hx⟩

theorem decoder?_entries :
    (modOverrides host).decoder? "entries" = some (map (modOverride host)) := by
  simp [Record.decoder?, modOverrides, declare]

/-- The entries of canonical mods are those of an object, or absent. -/
theorem entries_cases {m : Fields} (hm : (modOverrides host).Holds m) :
    (m.get? "entries" = none ∧ entriesOf (.ofFields m) = .empty) ∨
      ∃ e, m.get? "entries" = some (.ofFields e) ∧ entriesOf (.ofFields m) = e ∧
        ∀ k x, e.get? k = some x → (modOverride host).Canonical x := by
  cases hentries : m.get? "entries" with
  | none =>
    left
    refine ⟨rfl, ?_⟩
    rw [entriesOf, get_ofFields, hentries]
    rfl
  | some x =>
    right
    obtain ⟨d, hd, hx⟩ := hm.field _ _ hentries
    rw [decoder?_entries, Option.some.injEq] at hd
    rw [← hd] at hx
    obtain ⟨e, rfl, he⟩ := canonical_map.1 hx
    refine ⟨e, rfl, ?_, he⟩
    rw [entriesOf, get_ofFields, hentries]
    exact Json.fields_ofFields e

/-- What `merge_mods` makes of canonical mods: the fields of both, and the
entries of both. -/
structure Merges (host : Host) (base patch : Json) (m : Fields) : Prop where
  eq : mergeMods base patch = .ofFields m
  holds : (modOverrides host).Holds m
  keys : ∀ k, k ∈ m.keys ↔ k ∈ base.fields.keys ∨ k ∈ patch.fields.keys
  entries : entriesOf (.ofFields m) = (entriesOf base).extend (entriesOf patch)

/-- Without entries the fields of the patch replace those of the base. -/
theorem mergeMods_of_none {b p : Fields} (h : p.get? "entries" = none) :
    mergeMods (.ofFields b) (.ofFields p) = .ofFields (b.extend p) := by
  rw [mergeMods, Json.get?_ofFields, h]
  exact overlay_ofFields b p

/-- With entries the patch carries the merged ones. -/
theorem mergeMods_of_some {b p e : Fields} (h : p.get? "entries" = some (.ofFields e)) :
    mergeMods (.ofFields b) (.ofFields p) =
      .ofFields (b.extend (p.insert "entries" (.ofFields ((entriesOf (.ofFields b)).extend e)))) := by
  have hfields : (field (.ofFields b) "entries" (.object [])).fields = entriesOf (.ofFields b) := by
    rw [field, entriesOf, Json.get]
    cases (Json.ofFields b).get? "entries" with
    | none => rfl
    | some x => rfl
  have hover : overlay (field (.ofFields b) "entries" (.object [])) (.ofFields e) =
      .ofFields ((entriesOf (.ofFields b)).extend e) := by
    show Json.ofFields ((field (.ofFields b) "entries" (.object [])).fields.extend
      (Json.ofFields e).fields) = _
    rw [hfields, Json.fields_ofFields]
  rw [mergeMods, Json.get?_ofFields, h]
  show overlay (.ofFields b) ((Json.ofFields p).set "entries"
    (overlay (field (.ofFields b) "entries" (.object [])) (.ofFields e))) = _
  rw [hover, Json.set_ofFields, overlay_ofFields]

theorem canonical_extend_entries {b e : Fields} (hb : (modOverrides host).Holds b)
    (he : ∀ k x, e.get? k = some x → (modOverride host).Canonical x) :
    (map (modOverride host)).Canonical (.ofFields ((entriesOf (.ofFields b)).extend e)) := by
  refine canonical_map.2 ⟨_, rfl, ?_⟩
  intro k x hx
  rcases OrderedMap.get?_extend_eq_some hx with hx | hx
  · exact he k x hx
  · rcases entries_cases hb with ⟨_, hempty⟩ | ⟨e', _, hentries, he'⟩
    · rw [hempty] at hx
      simp at hx
    · rw [hentries] at hx
      exact he' k x hx

theorem exists_merges (hbase : (modOverrides host).decoder.Canonical base)
    (hpatch : (modOverrides host).decoder.Canonical patch) : ∃ m, Merges host base patch m := by
  obtain ⟨b, rfl, hb⟩ := Record.canonical_iff.1 hbase
  obtain ⟨p, rfl, hp⟩ := Record.canonical_iff.1 hpatch
  rcases entries_cases hp with ⟨hnone, hempty⟩ | ⟨e, hsome, hentries, he⟩
  · refine ⟨b.extend p, mergeMods_of_none hnone, hb.extend hp, ?_, ?_⟩
    · intro k
      rw [Json.fields_ofFields, Json.fields_ofFields]
      exact OrderedMap.mem_keys_extend
    · rw [hempty, OrderedMap.extend_empty]
      simp only [entriesOf, get_ofFields, OrderedMap.get?_extend, hnone,
        Option.none_or]
  · have hcanonical := canonical_extend_entries hb he
    refine ⟨_, mergeMods_of_some hsome, hb.extend (hp.insert decoder?_entries hcanonical), ?_, ?_⟩
    · intro k
      rw [Json.fields_ofFields, Json.fields_ofFields, OrderedMap.mem_keys_extend,
        OrderedMap.mem_keys_insert]
      constructor
      · intro hk
        rcases hk with hk | hk | hk
        · exact Or.inl hk
        · exact Or.inr (hk ▸ OrderedMap.get?_mem_keys hsome)
        · exact Or.inr hk
      · exact Or.imp_right Or.inr
    · rw [hentries]
      show ((Json.ofFields _).get "entries").fields = _
      rw [get_ofFields, OrderedMap.get?_extend, OrderedMap.get?_insert_self]
      exact Json.fields_ofFields _

theorem canonical_mergeMods (hbase : (modOverrides host).decoder.Canonical base)
    (hpatch : (modOverrides host).decoder.Canonical patch) :
    (modOverrides host).decoder.Canonical (mergeMods base patch) := by
  obtain ⟨m, hm⟩ := exists_merges hbase hpatch
  rw [hm.eq]
  exact hm.holds.read

theorem entriesOf_mergeMods (hbase : (modOverrides host).decoder.Canonical base)
    (hpatch : (modOverrides host).decoder.Canonical patch) :
    entriesOf (mergeMods base patch) = (entriesOf base).extend (entriesOf patch) := by
  obtain ⟨m, hm⟩ := exists_merges hbase hpatch
  rw [hm.eq, hm.entries]

theorem canonical_mods_empty : (modOverrides host).decoder.Canonical (.object []) := by
  refine Record.canonical_iff.2 ⟨.empty, rfl, Record.holds_empty ?_⟩
  simp [modOverrides, declare]

/-! ### Coverage -/

/-- The mods of a shard have the fields and the entries of other mods. -/
structure CoversMods (own mods : Json) : Prop where
  fields : own.fields.Covers mods.fields
  entries : (entriesOf own).Covers (entriesOf mods)

theorem CoversMods.trans {other : Json} (h : CoversMods own mods) (h' : CoversMods mods other) :
    CoversMods own other where
  fields := fun k hk => h.fields k (h'.fields k hk)
  entries := fun k hk => h.entries k (h'.entries k hk)

/-- A merge covers its base. -/
theorem coversMods_mergeMods (hbase : (modOverrides host).decoder.Canonical base)
    (hpatch : (modOverrides host).decoder.Canonical patch) :
    CoversMods (mergeMods base patch) base := by
  obtain ⟨m, hm⟩ := exists_merges hbase hpatch
  rw [hm.eq]
  constructor
  · intro k hk
    rw [Json.fields_ofFields]
    exact (hm.keys k).2 (Or.inl hk)
  · rw [hm.entries]
    exact OrderedMap.covers_extend _ _

/-- The same patch on both sides keeps the coverage. -/
theorem CoversMods.mergeMods (h : CoversMods own mods)
    (hown : (modOverrides host).decoder.Canonical own)
    (hmods : (modOverrides host).decoder.Canonical mods)
    (hpatch : (modOverrides host).decoder.Canonical patch) :
    CoversMods (Presets.mergeMods own patch) (Presets.mergeMods mods patch) := by
  obtain ⟨m, hm⟩ := exists_merges hown hpatch
  obtain ⟨m', hm'⟩ := exists_merges hmods hpatch
  rw [hm.eq, hm'.eq]
  constructor
  · intro k hk
    rw [Json.fields_ofFields] at hk ⊢
    exact (hm.keys k).2 (((hm'.keys k).1 hk).imp (h.fields k) id)
  · rw [hm.entries, hm'.entries]
    exact h.entries.extend_right _

/-- Mods absorb the mods that they cover. -/
theorem CoversMods.mergeMods_eq (h : CoversMods own mods)
    (hown : (modOverrides host).decoder.Canonical own)
    (hmods : (modOverrides host).decoder.Canonical mods) : Presets.mergeMods mods own = own := by
  obtain ⟨m, rfl, hm⟩ := Record.canonical_iff.1 hown
  obtain ⟨b, rfl, hb⟩ := Record.canonical_iff.1 hmods
  have hfields : b.extend m = m := by
    apply OrderedMap.extend_of_covers
    have h := h.fields
    rwa [Json.fields_ofFields, Json.fields_ofFields] at h
  rcases entries_cases hm with ⟨hnone, _⟩ | ⟨e, hsome, hentries, _⟩
  · rw [mergeMods_of_none hnone, hfields]
  · have hmerged : (entriesOf (.ofFields b)).extend e = e := by
      apply OrderedMap.extend_of_covers
      have h := h.entries
      rwa [hentries] at h
    rw [mergeMods_of_some hsome, hmerged, OrderedMap.insert_self hsome, hfields]

end Mods

/-! ## Worlds -/

section Worlds

variable {host : Host} {base patch world : Json} {value : Json}

/-- The overrides of a kind of world. -/
def overridesOf (kind : String) (values : Fields) : Json :=
  .object [("kind", .string kind), ("values", .ofFields values)]

theorem kind_lt_values : ("kind" : String) < "values" := by decide

theorem set_values (kind : String) (values values' : Fields) :
    (overridesOf kind values).set "values" (.ofFields values') = overridesOf kind values' := by
  have hne : ("values" : String) ≠ "kind" := by decide
  have hlist : ((OrderedMap.ofList [("kind", Json.string kind), ("values", .ofFields values)]).insert
      "values" (.ofFields values')).entries = [("kind", .string kind), ("values", .ofFields values')] := by
    simp [OrderedMap.ofList, OrderedMap.insert, OrderedMap.insertEntry, OrderedMap.empty,
      kind_lt_values.not_gt, hne]
  exact congrArg Json.object hlist

theorem canonical_worldValues :
    (worldValues host).Canonical value ↔ ∃ kind r values,
      (worldKinds host).lookup kind = some r ∧ r.Holds values ∧ value = overridesOf kind values := by
  have hlookup : ∀ (kinds : List (String × Record)) (kind : String),
      (kinds.map fun entry => (entry.1, entry.2.decoder)).lookup kind =
        (kinds.lookup kind).map Record.decoder := by
    intro kinds kind
    induction kinds with
    | nil => rfl
    | cons entry rest ih =>
      rw [List.map_cons, List.lookup_cons, List.lookup_cons, ih]
      cases kind == entry.1 with
      | true => rfl
      | false => rfl
  refine Decoder.canonical_tagged.trans ?_
  constructor
  · intro ⟨kind, d, inner, hd, hinner, hvalue⟩
    rw [hlookup] at hd
    obtain ⟨r, hr, rfl⟩ := Option.map_eq_some_iff.1 hd
    obtain ⟨values, rfl, hvalues⟩ := Record.canonical_iff.1 hinner
    exact ⟨kind, r, values, hr, hvalues, hvalue⟩
  · intro ⟨kind, r, values, hr, hvalues, hvalue⟩
    refine ⟨kind, r.decoder, .ofFields values, ?_, hvalues.read, hvalue⟩
    rw [hlookup, hr]
    rfl

theorem decoder?_overrides : (worldgenOverride host).decoder? "overrides" = some (worldValues host) := by
  simp [Record.decoder?, worldgenOverride, declare]

/-- The overrides of a world, if it has some. -/
theorem overrides_cases {w : Fields} (hw : (worldgenOverride host).Holds w) :
    (w.get? "overrides" = none) ∨
      ∃ kind r values, w.get? "overrides" = some (overridesOf kind values) ∧
        (worldKinds host).lookup kind = some r ∧ r.Holds values := by
  cases hoverrides : w.get? "overrides" with
  | none => exact Or.inl rfl
  | some overrides =>
    obtain ⟨d, hd, hcanonical⟩ := hw.field _ _ hoverrides
    rw [decoder?_overrides, Option.some.injEq] at hd
    rw [← hd] at hcanonical
    obtain ⟨kind, r, values, hr, hvalues, rfl⟩ := canonical_worldValues.1 hcanonical
    exact Or.inr ⟨kind, r, values, rfl, hr, hvalues⟩

/-- The values of a patch are laid over values of its kind. -/
theorem exists_overlay_values {w values : Fields} {kind : String} {r : Record}
    (hw : (worldgenOverride host).Holds w) (hr : (worldKinds host).lookup kind = some r)
    (hvalues : r.Holds values)
    (hkind : (((Json.ofFields w).get "overrides").get "kind").asStr?.getD "world" = kind) :
    ∃ merged, overlay (((Json.ofFields w).get "overrides").get "values") (.ofFields values) =
      .ofFields merged ∧ r.Holds merged := by
  rcases overrides_cases hw with hnone | ⟨kind', r', values', hsome, hr', hvalues'⟩
  · have hget : (Json.ofFields w).get "overrides" = .null := by
      rw [get_ofFields, hnone]
      rfl
    rw [hget]
    exact ⟨values, overlay_null values, hvalues⟩
  · have hget : (Json.ofFields w).get "overrides" = overridesOf kind' values' := by
      rw [get_ofFields, hsome]
      rfl
    rw [hget] at hkind ⊢
    have hsame : kind' = kind := hkind
    have hrecord : r' = r := by
      rw [hsame, hr] at hr'
      exact (Option.some.inj hr').symm
    rw [hrecord] at hvalues'
    exact ⟨values'.extend values, overlay_ofFields values' values, hvalues'.extend hvalues⟩

/-- Worlds of one kind merge into a world of that kind. -/
theorem canonical_composeWorld (hworld : (worldgenOverride host).decoder.Canonical world)
    (hpatch : (worldgenOverride host).decoder.Canonical patch)
    (h : composeWorld world patch = .ok value) :
    (worldgenOverride host).decoder.Canonical value := by
  obtain ⟨w, rfl, hw⟩ := Record.canonical_iff.1 hworld
  obtain ⟨p, rfl, hp⟩ := Record.canonical_iff.1 hpatch
  unfold composeWorld at h
  rw [Json.get?_ofFields] at h
  rcases overrides_cases hp with hnone | ⟨kind, r, values, hsome, hr, hvalues⟩
  · rw [hnone] at h
    cases h
    rw [overlay_ofFields]
    exact (hw.extend hp).read
  · rw [hsome] at h
    obtain ⟨_, hkind, h⟩ := bind_eq_ok.1 h
    have hkind := Option.some.inj (ensure_eq_ok.1 hkind)
    obtain ⟨merged, hmerged, hholds⟩ := exists_overlay_values hw hr hvalues hkind
    cases h
    have hcontent : (overridesOf kind values).get "values" = .ofFields values := rfl
    rw [hcontent, hmerged, set_values, Json.set_ofFields, overlay_ofFields]
    refine (hw.extend (hp.insert decoder?_overrides ?_)).read
    exact canonical_worldValues.2 ⟨kind, r, merged, hr, hholds, rfl⟩

end Worlds

/-! ## Shards -/

section Shards

variable {host : Host} {b p : Fields} {value merged : Json}

theorem canonical_nullable {d : Decoder} :
    d.nullable.Canonical value ↔ value = .null ∨ d.Canonical value := by
  by_cases hvalue : value = .null
  · rw [hvalue]
    exact iff_of_true rfl (Or.inl rfl)
  · have hread : d.nullable.read value = d.read value := by
      cases value with
      | null => exact absurd rfl hvalue
      | bool _ | number _ | string _ | array _ | object _ => rfl
    rw [Decoder.Canonical, hread]
    simp [hvalue, Decoder.Canonical]

theorem decoder?_settings :
    (shardConfig host).decoder? "settings" = some (settings .shardSettings) := by
  simp [Record.decoder?, shardConfig]

theorem decoder?_mods :
    (shardConfig host).decoder? "mods" = some (modOverrides host).decoder := by
  simp [Record.decoder?, shardConfig, declare]

theorem decoder?_world :
    (shardConfig host).decoder? "world" = some (worldgenOverride host).decoder.nullable := by
  simp [Record.decoder?, shardConfig, declare]

/-- The fields of a canonical shard that a composition merges. -/
structure ShardFields (host : Host) (s : Fields) : Prop where
  settings : ∃ st, s.get? "settings" = some st ∧ (Presets.settings .shardSettings).Canonical st
  mods : ∀ own, s.get? "mods" = some own → (modOverrides host).decoder.Canonical own
  world : ∀ world, s.get? "world" = some world → isNull world = false →
    (worldgenOverride host).decoder.Canonical world

theorem shardFields {s : Fields} (h : (shardConfig host).Holds s) : ShardFields host s where
  settings := by
    obtain ⟨st, hst⟩ := OrderedMap.mem_keys_iff.1 (h.required _ List.mem_cons_self rfl)
    obtain ⟨d, hd, hcanonical⟩ := h.field _ _ hst
    rw [decoder?_settings, Option.some.injEq] at hd
    exact ⟨st, hst, hd ▸ hcanonical⟩
  mods := by
    intro own hown
    obtain ⟨d, hd, hcanonical⟩ := h.field _ _ hown
    rw [decoder?_mods, Option.some.injEq] at hd
    exact hd ▸ hcanonical
  world := by
    intro world hworld hnull
    obtain ⟨d, hd, hcanonical⟩ := h.field _ _ hworld
    rw [decoder?_world, Option.some.injEq] at hd
    rw [← hd] at hcanonical
    rcases canonical_nullable.1 hcanonical with heq | hcanonical
    · rw [heq] at hnull
      cases hnull
    · exact hcanonical

theorem canonical_get_settings {s : Fields} (h : (shardConfig host).Holds s) :
    (settings .shardSettings).Canonical ((Json.ofFields s).get "settings") := by
  obtain ⟨st, hst, hcanonical⟩ := (shardFields h).settings
  rw [get_ofFields, hst]
  exact hcanonical

/-- The mods of a shard, or none. -/
theorem canonical_field_mods {s : Fields} (h : (shardConfig host).Holds s) :
    (modOverrides host).decoder.Canonical (field (.ofFields s) "mods" (.object [])) := by
  rw [field, Json.get?_ofFields]
  cases hown : s.get? "mods" with
  | none => exact canonical_mods_empty
  | some own => exact (shardFields h).mods own hown

/-- The world of a shard after a part: an absent world stays, null replaces
it, and a world is merged into one that is there. -/
def worldStep (world given : Option Json) : Outcome String (Option Json) :=
  match given with
  | none => pure world
  | some given =>
    if isNull given ∨ isNull (world.getD .null) then pure (some given)
    else do
      let merged ← composeWorld (world.getD .null) given
      pure (some merged)

theorem exists_patchWorld (hb : (shardConfig host).Holds b) (hp : (shardConfig host).Holds p)
    (h : patchWorld (.ofFields b) (.ofFields p) = .ok merged) :
    ∃ q, merged = .ofFields q ∧ (shardConfig host).Holds q ∧
      (∀ k, k ≠ "world" → q.get? k = p.get? k) ∧
      worldStep (b.get? "world") (p.get? "world") = .ok ((q.get? "world").or (b.get? "world")) := by
  unfold patchWorld at h
  rw [get_ofFields, get_ofFields] at h
  cases hgiven : p.get? "world" with
  | none =>
    have hnull : isNull Json.null = true := rfl
    rw [hgiven, Option.getD_none, if_pos (Or.inl hnull)] at h
    cases h
    refine ⟨p, rfl, hp, fun _ _ => rfl, ?_⟩
    rw [hgiven, Option.none_or]
    rfl
  | some given =>
    rw [hgiven, Option.getD_some] at h
    simp only [worldStep]
    split_ifs at h ⊢ with hnull
    · cases h
      refine ⟨p, rfl, hp, fun _ _ => rfl, ?_⟩
      rw [hgiven]
      rfl
    · obtain ⟨world, hworld, h⟩ := bind_eq_ok.1 h
      cases h
      rw [not_or, Bool.not_eq_true, Bool.not_eq_true] at hnull
      have hgivenc := (shardFields hp).world given hgiven hnull.1
      have hbasec : (worldgenOverride host).decoder.Canonical ((b.get? "world").getD .null) := by
        cases hold : b.get? "world" with
        | none =>
          rw [hold] at hnull
          cases hnull.2
        | some old =>
          rw [hold] at hnull
          exact (shardFields hb).world old hold hnull.2
      have hcanonical := canonical_composeWorld hbasec hgivenc hworld
      rw [Json.set_ofFields]
      refine ⟨_, rfl, hp.insert decoder?_world (canonical_nullable.2 (Or.inr hcanonical)), ?_, ?_⟩
      · intro k hk
        exact OrderedMap.get?_insert_of_ne hk world p
      · rw [hworld, OrderedMap.get?_insert_self]
        rfl

/-- What `patchShard` makes of a shard `b` and its patch `p`. -/
structure Patched (host : Host) (b p s : Fields) : Prop where
  holds : (shardConfig host).Holds s
  settings : s.get? "settings" =
    some (overlay ((Json.ofFields b).get "settings") ((Json.ofFields p).get "settings"))
  mods : s.get? "mods" =
    ((p.get? "mods").map (mergeMods (field (.ofFields b) "mods" (.object [])))).or (b.get? "mods")
  world : worldStep (b.get? "world") (p.get? "world") = .ok (s.get? "world")

theorem exists_patched (hb : (shardConfig host).Holds b) (hp : (shardConfig host).Holds p)
    (h : patchShard (.ofFields b) (.ofFields p) = .ok merged) :
    ∃ s, merged = .ofFields s ∧ Patched host b p s := by
  have hsettings := canonical_overlay_settings (canonical_get_settings hb) (canonical_get_settings hp)
  unfold patchShard at h
  rw [Json.set_ofFields] at h
  obtain ⟨_, hpatch, h⟩ := bind_eq_ok.1 h
  obtain ⟨q, rfl, hq, hsame, hworld⟩ :=
    exists_patchWorld hb (hp.insert decoder?_settings hsettings) hpatch
  rw [OrderedMap.get?_insert_of_ne (by decide)] at hworld
  have hqsettings := (hsame "settings" (by decide)).trans (OrderedMap.get?_insert_self _ _ _)
  have hqmods : q.get? "mods" = p.get? "mods" :=
    (hsame "mods" (by decide)).trans (OrderedMap.get?_insert_of_ne (by decide) _ _)
  cases h
  unfold patchMods
  rw [Json.get?_ofFields, hqmods]
  cases hown : p.get? "mods" with
  | none =>
    refine ⟨b.extend q, overlay_ofFields b q, hb.extend hq, ?_, ?_, ?_⟩
    · rw [OrderedMap.get?_extend, hqsettings, Option.some_or]
    · rw [OrderedMap.get?_extend, hqmods, hown]
      rfl
    · rw [hworld, OrderedMap.get?_extend]
  | some own =>
    have hmods := canonical_mergeMods (canonical_field_mods hb) ((shardFields hp).mods own hown)
    show ∃ s, overlay (.ofFields b) ((Json.ofFields q).set "mods" _) = _ ∧ _
    rw [Json.set_ofFields, overlay_ofFields]
    refine ⟨_, rfl, hb.extend (hq.insert decoder?_mods hmods), ?_, ?_, ?_⟩
    · rw [OrderedMap.get?_extend, OrderedMap.get?_insert_of_ne (by decide), hqsettings,
        Option.some_or]
    · rw [OrderedMap.get?_extend, OrderedMap.get?_insert_self, Option.some_or, hown]
      rfl
    · rw [hworld, OrderedMap.get?_extend, OrderedMap.get?_insert_of_ne (by decide)]

end Shards

end DstServer.Presets
