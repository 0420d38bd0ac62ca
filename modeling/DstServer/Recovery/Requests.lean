import DstServer.Configuration.Discover
import DstServer.Driver.Model
import DstServer.Lib.Numeral
import DstServer.Lib.Utf8
import DstServer.Process.Output
import DstServer.Recovery.Native
import DstServer.Recovery.Rollback

/-!
# Requests to the native side

The model of the part of `preloader.rs` that reads the catalogs of a room
and makes the requests of a rollback, of the checks of the driver options in
`driver.rs`, and of `recovery.validate` on the values that Lua decodes.

* `parseCatalog_sound`: what `parse_catalog` accepts can be saved.
* `validateOptions_native` and `validateRequest_of_validate`: a saved shard
  makes a request that the driver and Lua take.
* `verifyReplay_previousTarget`: a target can be replayed on the catalogs
  that it comes from.
-/

namespace DstServer

open Lib Lib.Outcome

/-! ## The options of the driver -/

namespace Driver

structure DriverOptions where
  profile : String
  actions : List String
  control : Json
  extraArgs : List String

/-- A string of a request: not empty, not too long, and on one line. -/
def requestText (value : Json) (limit : Nat) : Bool :=
  value.asStr?.any fun value => !value.isEmpty && value.utf8ByteSize ≤ limit &&
    !value.toList.any fun c => c = '\x00' || c = '\r' || c = '\n'

/-- The part of `validate_options` about the recovery. -/
def validateRecovery (recovery : Json) : Outcome String Unit := do
  let request ← orError recovery.asObject? "recovery must be an object"
  let mode ← orError ((recovery.get? "mode").bind Json.asStr?) "recovery mode is required"
  ensure (mode ∈ ["catalog", "apply"]) "invalid recovery mode"
  ensure (∀ key ∈ request.map Prod.fst, key = "mode" ∨ key = "session_id" ∨
    (mode = "apply" ∧ key ∈ ["snapshot_id", "world_file"])) "unknown recovery option"
  if mode = "apply" ∨ (recovery.get? "session_id").isSome = true then
    ensure (requestText (recovery.get "session_id") 128 = true) "invalid recovery session"
  if mode = "apply" then do
    ensure ((safeInteger (recovery.get "snapshot_id")).any (0 < ·) = true)
      "invalid recovery snapshot"
    ensure (requestText (recovery.get "world_file") 4096 = true) "invalid recovery path"

def validateAction (action : String) : Bool :=
  !action.isEmpty && action.utf8ByteSize ≤ 128 &&
    action.toList.all fun c => c.isUpper || c = '_' || c.isDigit

def validateOptions (options : DriverOptions) : Outcome String Unit := do
  ensure (options.profile ∈ ["off", "critical", "history"]) "invalid telemetry profile"
  ensure (options.actions.length ≤ 1024 ∧ options.actions.all validateAction = true)
    "invalid telemetry action list"
  let control ← orError options.control.asObject? "control options must be an object"
  ensure (∀ key ∈ control.map Prod.fst, key ∈ ["observe_loads", "recovery"])
    "unknown control option"
  ensure ((options.control.get? "observe_loads").all
    (fun value => value.isBool true || value.isBool false) = true) "observe_loads must be boolean"
  match options.control.get? "recovery" with
  | none => pure ()
  | some recovery => validateRecovery recovery

/-- What the driver options are to the native side. -/
def DriverOptions.encode (options : DriverOptions) (nonce : String) : Json :=
  .object [
    ("actions", .array (options.actions.map Json.string)), ("control", options.control),
    ("nonce", .string nonce), ("profile", .string options.profile)]

/-- `DriverOptions::save`, up to the writes: the text of the options file. -/
def DriverOptions.save (options : DriverOptions) (nonce : String) : Outcome String (List Char) := do
  validateOptions options
  let encoded := Json.chars (.object [("driver", options.encode nonce)])
  ensure (Text.utf8Length encoded < Process.maxProtocolLineBytes)
    "driver options exceed the native size limit"
  pure encoded

end Driver

/-! ## The requests of Lua -/

namespace Recovery

/-- The numbers of Lua, which is exact on the safe integers. -/
structure LuaNumbers where
  tonumber : String → Option ℚ
  exact : ∀ n : Nat, n ≤ maxSafeInteger → tonumber (toString n) = some (n : ℚ)

/-- `text` of a decoded value. -/
def luaText (value : Json) (limit : Nat) : Bool := value.asStr?.any (isText · limit)

/-- `integer` of a decoded value, which is above zero. -/
def luaPositive (numbers : LuaNumbers) (value : Json) : Bool :=
  match value with
  | .number literal => (numbers.tonumber literal).any fun value : ℚ =>
      0 ≤ value && value ≤ (maxSafeInteger : ℚ) && value = (value.floor : ℚ) && 0 < value
  | _ => false

/-- `recovery.validate` of a decoded value.  The keys of an array are
numbers, so that it has no mode. -/
def validateRequest (numbers : LuaNumbers) (request : Json) : Bool :=
  let apply := (request.get "mode").isStr "apply"
  request.isObject && ((request.get "mode").isStr "catalog" || apply) &&
    (request.get? "session_id").all (luaText · 128) &&
    (request.asObject?.getD []).all (fun field => field.1 = "mode" || field.1 = "session_id" ||
      (apply && (field.1 = "snapshot_id" || field.1 = "world_file"))) &&
    (!apply || (luaText (request.get "session_id") 128 &&
      luaPositive numbers (request.get "snapshot_id") && luaText (request.get "world_file") 4096))

end Recovery

/-! ## The catalogs of a room -/

namespace Preloader

open Recovery Driver

/-- `native_path`: the path of a world file, by its parts. -/
def nativePath (shard session file : String) : Outcome String (List String) := do
  ensure (validText file 4096 = true ∧ '\\' ∉ file.toList) "invalid native world path"
  let relative := if "save/".toList.isPrefixOf file.toList then file.toList.drop 5 else file.toList
  let parts := (relative.splitOn '/').map String.ofList
  ensure (parts.length = 3 ∧ parts[0]? = some "session" ∧ parts[1]? = some session ∧
    ∀ part ∈ parts, part ∉ ["", ".", ".."]) "native world path does not belong to its session"
  pure ([shard, "save"] ++ parts)

/-- `Option<String>` of a value. -/
def parseFile (value : Json) : Outcome String (Option String) :=
  match value with
  | .null => pure none
  | .string text => pure (some text)
  | _ => fail "invalid native snapshot entries"

/-- A `Snapshot` of a value. -/
def parseSnapshot (value : Json) : Outcome String Snapshot :=
  match value with
  | .object _ => do
    let id ← orError ((value.get? "snapshot_id").bind Json.asU64?) "invalid native snapshot entries"
    let file ← parseFile (value.get "world_file")
    pure ⟨id, file⟩
  | .array [id, file] => do
    let id ← orError id.asU64? "invalid native snapshot entries"
    let file ← parseFile file
    pure ⟨id, file⟩
  | _ => fail "invalid native snapshot entries"

/-- `Vec<Snapshot>` of a value. -/
def parseSnapshots (value : Json) : Outcome String (List Snapshot) :=
  match value with
  | .array items => items.mapM' parseSnapshot
  | _ => fail "invalid native snapshot entries"

/-- What the loop over the snapshots has seen. -/
structure Seen where
  ids : List Nat := []
  paths : List String := []

/-- The body of the loop over the snapshots. -/
def checkSnapshot (openRegular : List String → Outcome String Unit) (shard session : String)
    (seen : Seen) (snapshot : Snapshot) : Outcome String Seen := do
  ensure (0 < snapshot.snapshotId ∧ snapshot.snapshotId ≤ Recovery.maxSafeInteger ∧
    snapshot.snapshotId ∉ seen.ids) "invalid or duplicate native snapshot identity"
  let ids := snapshot.snapshotId :: seen.ids
  match snapshot.worldFile with
  | none => pure { seen with ids }
  | some file => do
    ensure (file ∉ seen.paths) "duplicate native world file"
    let path ← nativePath shard session file
    openRegular path
    pure { ids, paths := file :: seen.paths }

def parseCatalog (openRegular : List String → Outcome String Unit) (shard : String)
    (record : Json) : Outcome String Catalog := do
  let hasMore := record.get "has_more"
  ensure ((record.get "event").isStr "recovery_catalog" = true ∧
    (hasMore.isBool true || hasMore.isBool false) = true)
    "native preloader did not return a snapshot catalog"
  let session ← orError ((record.get "session_id").asStr?.filter (validText · 128))
    "native catalog has no valid session"
  let latest ← orError (record.get "latest_world_file").asStr?
    "native catalog has no latest world file"
  let _ ← nativePath shard session latest
  let snapshots ← parseSnapshots (record.get "snapshots")
  let seen ← snapshots.foldlM (checkSnapshot openRegular shard session) {}
  ensure (latest ∈ seen.paths) "native latest world file is absent from its catalog"
  pure ⟨session, latest, snapshots⟩

/-- The body of the loop of `catalog_stopped`: the record that a shard
returns is parsed. -/
def catalogShard (openRegular : List String → Outcome String Unit)
    (native : String → Outcome String Json) (catalogs : Catalogs) (shard : Configuration.Shard) :
    Outcome String Catalogs := do
  let record ← native shard.name
  let catalog ← parseCatalog openRegular shard.name record
  pure (catalogs.insert shard.name catalog)

def catalogStopped (openRegular : List String → Outcome String Unit)
    (native : String → Outcome String Json) (cluster : Configuration.Cluster) :
    Outcome String Catalogs :=
  cluster.shards.foldlM (catalogShard openRegular native) .empty

/-- `agent.required()`: the names of the shards. -/
def required (cluster : Configuration.Cluster) : OrderedSet String :=
  cluster.shards.foldl (fun names shard => names.insert shard.name ()) .empty

/-- The request of `apply_stopped` for a shard. -/
def applyRequest (saved : SavedShard) : Json :=
  .object [
    ("mode", .string "apply"), ("session_id", .string saved.sessionId),
    ("snapshot_id", .ofNat saved.snapshotId), ("world_file", .string saved.worldFile)]

/-- The options of `native` for a request. -/
def nativeOptions (request : Json) : DriverOptions where
  profile := "off"
  actions := []
  control := .object [("observe_loads", .bool true), ("recovery", request)]
  extraArgs := ["-skip_update_server_mods", "-offline"]

/-! ## What is accepted can be saved -/

section Catalogs

variable {openRegular : List String → Outcome String Unit} {shard session : String}

theorem validText_of_nativePath {file : String} {path : List String}
    (h : nativePath shard session file = .ok path) : validText file 4096 = true := by
  unfold nativePath at h
  rw [bind_eq_ok] at h
  obtain ⟨_, hfile, _⟩ := h
  exact (ensure_eq_ok.1 hfile).1

/-- What one snapshot adds to what the loop has seen. -/
theorem checkSnapshot_eq_ok {seen after : Seen} {snapshot : Snapshot}
    (h : checkSnapshot openRegular shard session seen snapshot = .ok after) :
    (0 < snapshot.snapshotId ∧ snapshot.snapshotId ≤ Recovery.maxSafeInteger) ∧
      snapshot.snapshotId ∉ seen.ids ∧ after.ids = snapshot.snapshotId :: seen.ids ∧
      (∀ file ∈ snapshot.worldFile, validText file 4096 = true) ∧
      ∀ file ∈ after.paths, file ∈ seen.paths ∨ snapshot.worldFile = some file := by
  unfold checkSnapshot at h
  rw [bind_eq_ok] at h
  obtain ⟨_, hid, h⟩ := h
  obtain ⟨hpos, hle, hnew⟩ := ensure_eq_ok.1 hid
  refine ⟨⟨hpos, hle⟩, hnew, ?_⟩
  split at h
  · rename_i hnone
    cases h
    refine ⟨rfl, ?_, ?_⟩
    · simp [hnone]
    · intro file hfile
      exact Or.inl hfile
  · rename_i file hsome
    rw [bind_eq_ok] at h
    obtain ⟨_, _, h⟩ := h
    rw [bind_eq_ok] at h
    obtain ⟨path, hpath, h⟩ := h
    rw [bind_eq_ok] at h
    obtain ⟨_, _, h⟩ := h
    cases h
    refine ⟨rfl, ?_, ?_⟩
    · intro file' hfile'
      rw [hsome, Option.mem_some_iff] at hfile'
      rw [← hfile']
      exact validText_of_nativePath hpath
    · intro file' hfile'
      rw [List.mem_cons] at hfile'
      rcases hfile' with hfile' | hfile'
      · exact Or.inr (by rw [hsome, hfile'])
      · exact Or.inl hfile'

/-- What the loop proves about the snapshots. -/
structure Checked (snapshots : List Snapshot) (seen after : Seen) : Prop where
  distinct : seen.ids.Nodup → (snapshots.map Snapshot.snapshotId).Nodup
  fresh : ∀ snapshot ∈ snapshots, snapshot.snapshotId ∉ seen.ids
  identity : ∀ snapshot ∈ snapshots,
    0 < snapshot.snapshotId ∧ snapshot.snapshotId ≤ Recovery.maxSafeInteger
  file : ∀ snapshot ∈ snapshots, ∀ file ∈ snapshot.worldFile, validText file 4096 = true
  path : ∀ file ∈ after.paths,
    file ∈ seen.paths ∨ ∃ snapshot ∈ snapshots, snapshot.worldFile = some file

theorem checked_of_foldlM {snapshots : List Snapshot} {seen after : Seen}
    (h : snapshots.foldlM (checkSnapshot openRegular shard session) seen = .ok after) :
    Checked snapshots seen after := by
  induction snapshots generalizing seen with
  | nil =>
    cases h
    exact ⟨fun _ => List.nodup_nil, by simp, by simp, by simp, fun _ => Or.inl⟩
  | cons snapshot snapshots ih =>
    rw [List.foldlM_cons, bind_eq_ok] at h
    obtain ⟨middle, hstep, h⟩ := h
    obtain ⟨hid, hnew, hids, hfile, hpaths⟩ := checkSnapshot_eq_ok hstep
    have hrest := ih h
    have hfresh := hrest.fresh
    rw [hids] at hfresh
    constructor
    · intro hnodup
      rw [List.map_cons, List.nodup_cons]
      constructor
      · intro hmem
        obtain ⟨other, hother, heq⟩ := List.mem_map.1 hmem
        exact hfresh other hother (by simp [heq])
      · apply hrest.distinct
        rw [hids, List.nodup_cons]
        exact ⟨hnew, hnodup⟩
    · rw [List.forall_mem_cons]
      refine ⟨hnew, ?_⟩
      intro other hother hmem
      exact hfresh other hother (List.mem_cons_of_mem _ hmem)
    · rw [List.forall_mem_cons]
      exact ⟨hid, hrest.identity⟩
    · rw [List.forall_mem_cons]
      exact ⟨hfile, hrest.file⟩
    · intro file hmem
      rcases hrest.path file hmem with hseen | ⟨other, hother, hsome⟩
      · rcases hpaths file hseen with hold | hsome
        · exact Or.inl hold
        · exact Or.inr ⟨snapshot, List.mem_cons_self, hsome⟩
      · exact Or.inr ⟨other, List.mem_cons_of_mem _ hother, hsome⟩

theorem parseCatalog_sound {record : Json} {catalog : Catalog}
    (h : parseCatalog openRegular shard record = .ok catalog) : catalog.Sound := by
  unfold parseCatalog at h
  rw [bind_eq_ok] at h
  obtain ⟨_, _, h⟩ := h
  rw [bind_eq_ok] at h
  obtain ⟨session, hsession, h⟩ := h
  rw [orError_eq_ok, Option.filter_eq_some_iff] at hsession
  rw [bind_eq_ok] at h
  obtain ⟨latest, _, h⟩ := h
  rw [bind_eq_ok] at h
  obtain ⟨_, _, h⟩ := h
  rw [bind_eq_ok] at h
  obtain ⟨snapshots, _, h⟩ := h
  rw [bind_eq_ok] at h
  obtain ⟨seen, hseen, h⟩ := h
  rw [bind_eq_ok] at h
  obtain ⟨_, hlatest, h⟩ := h
  rw [ensure_eq_ok] at hlatest
  cases h
  have hchecked := checked_of_foldlM hseen
  refine ⟨hchecked.distinct List.nodup_nil, hsession.2, hchecked.identity, hchecked.file, ?_⟩
  rcases hchecked.path latest hlatest with hnone | ⟨snapshot, hmem, hsome⟩
  · cases hnone
  · apply Option.isSome_iff_exists.1
    show (List.find? _ _).isSome = true
    rw [List.find?_isSome]
    exact ⟨snapshot, hmem, by simp [hsome]⟩

/-- The catalogs are those of the shards, and every one can be saved. -/
structure Complete (required : OrderedSet String) (catalogs : Catalogs) : Prop where
  keys : catalogs.keys = required.keys
  sound : ∀ catalog ∈ catalogs.values, catalog.Sound

theorem Complete.insert {required : OrderedSet String} {catalogs : Catalogs}
    (h : Complete required catalogs) (name : String) {catalog : Catalog} (hcatalog : catalog.Sound) :
    Complete (required.insert name ()) (catalogs.insert name catalog) where
  keys := by
    apply OrderedMap.keys_eq_of_mem_iff
    intro other
    rw [OrderedMap.mem_keys_insert, OrderedMap.mem_keys_insert, h.keys]
  sound other hother := by
    rcases OrderedMap.mem_values_insert hother with rfl | hold
    · exact hcatalog
    · exact h.sound other hold

theorem Complete.foldlM {native : String → Outcome String Json}
    {shards : List Configuration.Shard} {names : OrderedSet String} {before after : Catalogs}
    (h : Complete names before)
    (hrun : shards.foldlM (catalogShard openRegular native) before = .ok after) :
    Complete (shards.foldl (fun names shard => names.insert shard.name ()) names) after := by
  induction shards generalizing names before with
  | nil =>
    cases hrun
    exact h
  | cons shard shards ih =>
    rw [List.foldlM_cons, bind_eq_ok] at hrun
    obtain ⟨middle, hstep, hrun⟩ := hrun
    unfold catalogShard at hstep
    rw [bind_eq_ok] at hstep
    obtain ⟨record, _, hstep⟩ := hstep
    rw [bind_eq_ok] at hstep
    obtain ⟨catalog, hcatalog, hstep⟩ := hstep
    cases hstep
    exact ih (h.insert shard.name (parseCatalog_sound hcatalog)) hrun

theorem complete_catalogStopped {native : String → Outcome String Json}
    {cluster : Configuration.Cluster} {catalogs : Catalogs}
    (h : catalogStopped openRegular native cluster = .ok catalogs) :
    Complete (required cluster) catalogs := by
  have hempty : Complete .empty .empty := ⟨rfl, by intro _ hmem; cases hmem⟩
  exact hempty.foldlM h

theorem mem_required {cluster : Configuration.Cluster} {name : String} :
    name ∈ (required cluster).keys ↔ ∃ shard ∈ cluster.shards, shard.name = name := by
  have hfold : ∀ (shards : List Configuration.Shard) (names : OrderedSet String),
      name ∈ (shards.foldl (fun names shard => names.insert shard.name ()) names).keys ↔
        (∃ shard ∈ shards, shard.name = name) ∨ name ∈ names.keys := by
    intro shards
    induction shards with
    | nil => simp
    | cons shard shards ih =>
      intro names
      rw [List.foldl_cons, ih, OrderedMap.mem_keys_insert, List.exists_mem_cons_iff, ← or_assoc,
        eq_comm (a := name), or_comm (b := shard.name = name)]
  unfold required
  rw [hfold]
  simp [OrderedMap.keys, OrderedMap.empty]

/-- A room that is discovered has a shard, since it has a master. -/
theorem required_ne_nil {toLowercase : Text → Text} {room : Configuration.Room}
    {cluster : Configuration.Cluster} (h : Configuration.discover toLowercase room = .ok cluster) :
    (required cluster).keys ≠ [] := by
  have hshards : ∃ shard, shard ∈ cluster.shards := by
    unfold Configuration.discover at h
    iterate 4
      rw [bind_eq_ok] at h
      obtain ⟨_, _, h⟩ := h
    rw [bind_eq_ok] at h
    obtain ⟨found, _, h⟩ := h
    rw [bind_eq_ok] at h
    obtain ⟨_, hfound, h⟩ := h
    cases h
    unfold Configuration.checkFound at hfound
    rw [bind_eq_ok] at hfound
    obtain ⟨_, hmaster, _⟩ := hfound
    obtain ⟨shard, hshard⟩ := List.length_eq_one_iff.1 (ensure_eq_ok.1 hmaster)
    have hmem : shard ∈ found.shards.filter Configuration.Shard.master := by simp [hshard]
    exact ⟨shard, List.mem_mergeSort.2 (List.mem_of_mem_filter hmem)⟩
  obtain ⟨shard, hshard⟩ := hshards
  exact List.ne_nil_of_mem (mem_required.2 ⟨shard, hshard, rfl⟩)

end Catalogs

/-! ## The request of a saved shard is taken -/

section Requests

variable {saved : SavedShard}

/-- The text of a saved shard is a text of a request: a control character
is what the native side refuses. -/
theorem isText_of_validText {value : String} {limit : Nat} (h : validText value limit = true) :
    isText value limit = true := by
  unfold validText at h
  unfold isText
  simp only [Bool.and_eq_true, Bool.not_eq_true', List.any_eq_false, decide_eq_true_eq] at h ⊢
  obtain ⟨⟨hne, hsize⟩, hcontrol⟩ := h
  refine ⟨⟨?_, hsize⟩, ?_⟩
  · rw [Nat.pos_iff_ne_zero, Ne, String.utf8ByteSize_eq_zero_iff]
    simpa using hne
  · intro c hc hline
    apply hcontrol c hc
    simp only [Bool.or_eq_true, decide_eq_true_eq] at hline
    rcases hline with (rfl | rfl) | rfl <;> decide

theorem requestText_of_validText {value : String} {limit : Nat}
    (h : validText value limit = true) : requestText (.string value) limit = true := by
  have htext := isText_of_validText h
  unfold validText at h
  unfold isText at htext
  simp only [Bool.and_eq_true] at h htext
  show (_ && _ && _) = true
  rw [Bool.and_eq_true, Bool.and_eq_true]
  exact ⟨⟨h.1.1, h.1.2⟩, htext.2⟩

/-- What `verify` of a saved shard proves. -/
theorem verifySaved_eq_ok (h : verifySaved saved = .ok ()) :
    validText saved.sessionId 128 = true ∧
      (0 < saved.snapshotId ∧ saved.snapshotId ≤ Recovery.maxSafeInteger) ∧
      validText saved.worldFile 4096 = true := by
  unfold verifySaved at h
  rw [bind_eq_ok] at h
  obtain ⟨_, hsession, h⟩ := h
  rw [bind_eq_ok] at h
  obtain ⟨_, hid, hfile⟩ := h
  exact ⟨ensure_eq_ok.1 hsession, ensure_eq_ok.1 hid, ensure_eq_ok.1 hfile⟩

theorem safeInteger_ofNat {n : Nat} (h : n ≤ Recovery.maxSafeInteger) :
    safeInteger (.ofNat n) = some n := by
  have hbound : Recovery.maxSafeInteger < Json.u64Bound := by decide
  have hsafe : n ≤ Driver.maxSafeInteger := h
  unfold safeInteger
  rw [Json.asU64?_ofNat, if_pos (by omega)]
  simp [hsafe]

/-! The fields of the request. -/

@[simp] theorem applyRequest_mode :
    (applyRequest saved).get? "mode" = some (.string "apply") := rfl

@[simp] theorem applyRequest_session :
    (applyRequest saved).get? "session_id" = some (.string saved.sessionId) := rfl

@[simp] theorem applyRequest_snapshot :
    (applyRequest saved).get? "snapshot_id" = some (.ofNat saved.snapshotId) := rfl

@[simp] theorem applyRequest_file :
    (applyRequest saved).get? "world_file" = some (.string saved.worldFile) := rfl

theorem validateRecovery_applyRequest (h : verifySaved saved = .ok ()) :
    validateRecovery (applyRequest saved) = .ok () := by
  obtain ⟨hsession, ⟨hpos, hle⟩, hfile⟩ := verifySaved_eq_ok h
  have hid : safeInteger (.ofNat saved.snapshotId) = some saved.snapshotId := safeInteger_ofNat hle
  unfold validateRecovery
  apply bind_eq_ok.2 ⟨_, rfl, ?_⟩
  apply bind_eq_ok.2 ⟨"apply", rfl, ?_⟩
  apply bind_eq_ok.2 ⟨(), ensure_of (by decide) _, ?_⟩
  refine bind_eq_ok.2 ⟨(), ensure_of ?_ _, ?_⟩
  · show ∀ key ∈ ["mode", "session_id", "snapshot_id", "world_file"], _
    decide
  rw [if_pos (Or.inl rfl), if_pos rfl]
  refine bind_eq_ok.2 ⟨(), ensure_of (requestText_of_validText hsession) _, ?_⟩
  refine bind_eq_ok.2 ⟨(), ensure_of ?_ _, ensure_of (requestText_of_validText hfile) _⟩
  show (safeInteger (.ofNat saved.snapshotId)).any (0 < ·) = true
  rw [hid]
  simpa using hpos

theorem validateOptions_native (h : verifySaved saved = .ok ()) :
    validateOptions (nativeOptions (applyRequest saved)) = .ok () := by
  unfold validateOptions
  refine bind_eq_ok.2 ⟨(), ensure_of ?_ _, ?_⟩
  · show "off" ∈ ["off", "critical", "history"]
    decide
  refine bind_eq_ok.2 ⟨(), ensure_of ?_ _, ?_⟩
  · simp [nativeOptions]
  refine bind_eq_ok.2 ⟨_, rfl, ?_⟩
  refine bind_eq_ok.2 ⟨(), ensure_of ?_ _, ?_⟩
  · show ∀ key ∈ ["observe_loads", "recovery"], key ∈ ["observe_loads", "recovery"]
    simp
  refine bind_eq_ok.2 ⟨(), ensure_of ?_ _, ?_⟩
  · rfl
  exact validateRecovery_applyRequest h

theorem luaPositive_ofNat (numbers : LuaNumbers) {n : Nat} (hpos : 0 < n)
    (hle : n ≤ Recovery.maxSafeInteger) : luaPositive numbers (.ofNat n) = true := by
  have hpos' : (0 : ℚ) < n := by exact_mod_cast hpos
  have hle' : (n : ℚ) ≤ (Recovery.maxSafeInteger : ℚ) := by exact_mod_cast hle
  show ((numbers.tonumber (toString n)).any _) = true
  rw [numbers.exact n hle]
  simp only [Option.any_some, Bool.and_eq_true, decide_eq_true_eq]
  have hfloor : ((n : ℚ).floor : ℚ) = n := by
    rw [← Int.cast_natCast n, Rat.floor_intCast]
  exact ⟨⟨⟨hpos'.le, hle'⟩, hfloor.symm⟩, hpos'⟩

/-- The request that the native side takes is taken in its decoded form. -/
theorem validateRequest_of_validate (numbers : LuaNumbers)
    (h : (Request.apply saved.sessionId saved.snapshotId saved.worldFile).validate = true) :
    validateRequest numbers (applyRequest saved) = true := by
  unfold Request.validate Request.sessionId isInteger at h
  simp only [Option.all_some, Bool.and_eq_true, decide_eq_true_eq] at h
  obtain ⟨hsession, ⟨hle, hpos⟩, hfile⟩ := h
  have hid : luaPositive numbers (.ofNat saved.snapshotId) = true :=
    luaPositive_ofNat numbers hpos hle
  have hkeys : (((applyRequest saved).asObject?.getD []).all fun field =>
      field.1 = "mode" || field.1 = "session_id" ||
        (true && (field.1 = "snapshot_id" || field.1 = "world_file"))) = true := by
    simp [applyRequest, Json.asObject?]
  have hobject : (applyRequest saved).isObject = true := rfl
  have hmode : (Json.string "apply").isStr "apply" = true := by decide
  unfold validateRequest luaText
  simp only [Json.get, applyRequest_mode, applyRequest_session, applyRequest_snapshot,
    applyRequest_file, Option.getD_some, hmode, hobject, hid, hkeys, Json.asStr?, Option.any_some,
    Option.all_some, hsession, hfile, Bool.or_true, Bool.and_true, Bool.not_true]

theorem validate_of_verifySaved (h : verifySaved saved = .ok ()) :
    (Request.apply saved.sessionId saved.snapshotId saved.worldFile).validate = true := by
  obtain ⟨hsession, ⟨hpos, hle⟩, hfile⟩ := verifySaved_eq_ok h
  unfold Request.validate Request.sessionId isInteger
  simp only [Option.all_some, Bool.and_eq_true, decide_eq_true_eq]
  exact ⟨isText_of_validText hsession, ⟨hle, hpos⟩, isText_of_validText hfile⟩

end Requests

/-! ## The size of the options -/

theorem utf8Length_toList (text : String) : Text.utf8Length text.toList = text.utf8ByteSize := by
  have hsize := String.utf8ByteSize_ofList text.toList
  rw [String.ofList_toList] at hsize
  rw [hsize]
  induction text.toList with
  | nil => rfl
  | cons c rest ih =>
    rw [Text.utf8Length_cons, String.utf8Len_cons, ih]
    omega

theorem utf8Length_quoted_le (text : String) :
    Text.utf8Length (Json.quoted text) ≤ 6 * text.utf8ByteSize + 2 := by
  rw [← utf8Length_toList]
  exact Json.utf8Length_quoted text

theorem utf8Length_ofNat {n : Nat} (h : n ≤ Recovery.maxSafeInteger) :
    Text.utf8Length (Json.ofNat n).chars ≤ 16 := by
  have hmax : Recovery.maxSafeInteger < 10 ^ 16 := by decide
  have hascii : ∀ c ∈ Text.decimal n, c.toNat < 128 := by
    intro c hc
    have hdigit := Text.isDigit_of_mem_decimal hc
    rw [Char.isDigit_iff_toNat] at hdigit
    exact hdigit.2.trans_lt (by decide)
  rw [Json.chars_ofNat, utf8Length_of_ascii hascii]
  exact (Nat.length_toDigits_le_iff (by omega) (by omega)).2 (by omega)

theorem utf8Length_object (fields : List (String × Json)) :
    Text.utf8Length (Json.object fields).chars ≤
      2 + (fields.map fun field => 6 * field.1.utf8ByteSize + 4 +
        Text.utf8Length field.2.chars).sum := by
  have hfields := Json.utf8Length_charsFields fields
  simp only [utf8Length_toList] at hfields
  have hopen : Char.utf8Size '\x7b' = 1 := by decide
  have hclose : Char.utf8Size '\x7d' = 1 := by decide
  simp only [Json.chars, List.cons_append, Text.utf8Length_cons, Text.utf8Length_append,
    Text.utf8Length_nil, hopen, hclose]
  omega

theorem utf8Length_applyRequest {saved : SavedShard} (h : verifySaved saved = .ok ()) :
    Text.utf8Length (applyRequest saved).chars ≤ 26000 := by
  obtain ⟨hsession, ⟨_, hle⟩, hfile⟩ := verifySaved_eq_ok h
  unfold validText at hsession hfile
  simp only [Bool.and_eq_true, decide_eq_true_eq] at hsession hfile
  have hmode := utf8Length_quoted_le "apply"
  have hsession' := utf8Length_quoted_le saved.sessionId
  have hid := utf8Length_ofNat hle
  have hfile' := utf8Length_quoted_le saved.worldFile
  have hfields := utf8Length_object [
    ("mode", .string "apply"), ("session_id", .string saved.sessionId),
    ("snapshot_id", .ofNat saved.snapshotId), ("world_file", .string saved.worldFile)]
  have hnames : "mode".utf8ByteSize = 4 ∧ "session_id".utf8ByteSize = 10 ∧
      "snapshot_id".utf8ByteSize = 11 ∧ "world_file".utf8ByteSize = 10 ∧
      "apply".utf8ByteSize = 5 := by decide
  simp only [List.map_cons, List.map_nil, List.sum_cons, List.sum_nil, Json.chars] at hfields
  unfold applyRequest
  simp only [Json.chars]
  omega

theorem utf8Length_control {saved : SavedShard} (h : verifySaved saved = .ok ()) :
    Text.utf8Length (nativeOptions (applyRequest saved)).control.chars ≤ 26200 := by
  have hrequest := utf8Length_applyRequest h
  have hfields := utf8Length_object [("observe_loads", .bool true),
    ("recovery", applyRequest saved)]
  have hflag : Text.utf8Length (Json.bool true).chars = 4 := by decide
  have hnames : "observe_loads".utf8ByteSize = 13 ∧ "recovery".utf8ByteSize = 8 := by decide
  simp only [List.map_cons, List.map_nil, List.sum_cons, List.sum_nil, hflag] at hfields
  refine hfields.trans ?_
  omega

theorem utf8Length_encode {saved : SavedShard} (h : verifySaved saved = .ok ()) {nonce : String}
    (hnonce : nonce.utf8ByteSize ≤ 26) :
    Text.utf8Length ((nativeOptions (applyRequest saved)).encode nonce).chars ≤ 26800 := by
  have hcontrol := utf8Length_control h
  have hfields := utf8Length_object [("actions", .array []),
    ("control", (nativeOptions (applyRequest saved)).control), ("nonce", .string nonce),
    ("profile", .string "off")]
  have hactions : Text.utf8Length (Json.array []).chars = 2 := by decide
  have hnonce' : Text.utf8Length (Json.string nonce).chars ≤ 6 * nonce.utf8ByteSize + 2 :=
    utf8Length_quoted_le nonce
  have hprofile : Text.utf8Length (Json.string "off").chars = 5 := by decide
  have hnames : "actions".utf8ByteSize = 7 ∧ "control".utf8ByteSize = 7 ∧
      "nonce".utf8ByteSize = 5 ∧ "profile".utf8ByteSize = 7 := by decide
  simp only [List.map_cons, List.map_nil, List.sum_cons, List.sum_nil, hactions,
    hprofile] at hfields
  refine hfields.trans ?_
  omega

/-- The options of a rollback fit on a line of the protocol. -/
theorem save_native {saved : SavedShard} (h : verifySaved saved = .ok ()) {nonce : String}
    (hnonce : nonce.utf8ByteSize ≤ 26) :
    ∃ encoded, (nativeOptions (applyRequest saved)).save nonce = .ok encoded := by
  have hbytes : Text.utf8Length (Json.chars (.object [("driver",
      (nativeOptions (applyRequest saved)).encode nonce)])) < Process.maxProtocolLineBytes := by
    have hencoded := utf8Length_encode h hnonce
    have hdriver := utf8Length_object [("driver",
      (nativeOptions (applyRequest saved)).encode nonce)]
    have hname : "driver".utf8ByteSize = 6 := by decide
    simp only [List.map_cons, List.map_nil, List.sum_cons, List.sum_nil, hname] at hdriver
    unfold Process.maxProtocolLineBytes
    omega
  exact ⟨_, bind_eq_ok.2 ⟨(), validateOptions_native h,
    bind_eq_ok.2 ⟨(), ensure_of hbytes _, rfl⟩⟩⟩

/-! ## The target can be replayed -/

section Replay

variable {required : OrderedSet String} {catalogs : Catalogs} {latest : SavedRoom}
  {failedSnapshotId : Nat} {target : FixedTarget}

/-- A verified target passes the validation of the state that fixes it. -/
theorem validate_of_verified {state : RecoveryState} (hstate : state.validate = .ok ())
    (h : VerifiedTarget target) :
    { state with retry := none, target := some target }.validate = .ok () := by
  unfold RecoveryState.validate
  rw [ensure_of (budget_of_validate hstate), ok_bind]
  refine bind_eq_ok.2 ⟨(), rfl, ?_⟩
  apply validateTarget_of_verified
  intro fixed hfixed
  cases hfixed
  exact h

/-- The catalogs that a target comes from can replay it. -/
theorem verifyReplay_previousTarget (hlatest : latestRoom required catalogs = .ok latest)
    (h : previousTarget latest catalogs failedSnapshotId = .ok target) :
    verifyReplay target required catalogs = .ok () := by
  obtain ⟨_, ⟨newest, oldest, first, hnewest, holdest, hfirst, hselected, hle, hnear⟩, hkeys,
    hshards⟩ := previousTarget_eq_ok h
  obtain ⟨_, hcatalogs, hnames⟩ := latestRoom_keys hlatest
  have hproven : provenLatestRoom required catalogs = .ok latest := by
    unfold provenLatestRoom
    rw [hlatest]
  have hold : target.snapshotId ≤ oldest :=
    ((mem_candidates (List.mem_of_mem_head? (Option.mem_def.2 hfirst))).1
      (List.max?_eq_some_iff.1 hselected).1).2.2.1
  refine bind_eq_ok.2 ⟨latest, hproven, ?_⟩
  refine bind_eq_ok.2 ⟨(), ensure_of (hkeys.trans (hcatalogs.trans hnames.symm)) _, ?_⟩
  rw [forM_eq_ok]
  intro ⟨name, expected⟩ hentry
  have hexpected := OrderedMap.mem_entries_iff.1 hentry
  obtain ⟨catalog, snapshot, hcatalog, hfind, hsaved⟩ := hshards name expected hexpected
  obtain ⟨current, entry, hcurrent, _, hcurrentSaved⟩ := latestRoom_shard hlatest hcatalog
  have hid : current.snapshotId ∈ latest.values.map SavedShard.snapshotId :=
    List.mem_map_of_mem (OrderedMap.mem_values_iff.2 ⟨name, hcurrent⟩)
  have hsession : current.sessionId = expected.sessionId :=
    (saved_eq_ok hcurrentSaved).2.1.trans (saved_eq_ok hsaved).2.1.symm
  -- the target is not newer than any shard and near the newest one
  have hlow : target.snapshotId ≤ current.snapshotId :=
    hold.trans ((List.min?_eq_some_iff.1 holdest).2 _ hid)
  have hhigh : current.snapshotId ≤ newest := (List.max?_eq_some_iff.1 hnewest).2 _ hid
  refine bind_eq_ok.2 ⟨current, unwrap_eq_ok.2 hcurrent, ?_⟩
  refine bind_eq_ok.2 ⟨(), ensure_of hsession _, ?_⟩
  refine bind_eq_ok.2 ⟨catalog, unwrap_eq_ok.2 hcatalog, ?_⟩
  refine bind_eq_ok.2 ⟨snapshot, orError_eq_ok.2 hfind, ?_⟩
  refine bind_eq_ok.2 ⟨expected, provenSaved_eq_ok.2 hsaved, ?_⟩
  refine bind_eq_ok.2 ⟨(), ensure_of ⟨rfl, hlow⟩ _, ?_⟩
  refine bind_eq_ok.2 ⟨_, checkedSub_eq_ok.2 ⟨hlow, rfl⟩, ensure_of ?_ _⟩
  omega

end Replay

/-! ## A fixed target is not refused later -/

/-- The catalogs that are read of a discovered room have a latest room.
Every target of theirs passes the validation of the state that fixes it, its
requests are taken by the driver and by Lua and fit on a line of the
protocol, and the same catalogs can replay it. -/
theorem fixed_target_requested (numbers : LuaNumbers) {toLowercase : Text → Text}
    {room : Configuration.Room} {cluster : Configuration.Cluster}
    (hroom : Configuration.discover toLowercase room = .ok cluster)
    {openRegular : List String → Outcome String Unit} {native : String → Outcome String Json}
    {catalogs : Catalogs} (hcatalogs : catalogStopped openRegular native cluster = .ok catalogs) :
    ∃ latest, latestRoom (required cluster) catalogs = .ok latest ∧
      ∀ failedSnapshotId target, previousTarget latest catalogs failedSnapshotId = .ok target →
        target.shards.keys = (required cluster).keys ∧
        (∀ state : RecoveryState, state.validate = .ok () →
          { state with retry := none, target := some target }.validate = .ok ()) ∧
        (∀ saved ∈ target.shards.values,
          validateOptions (nativeOptions (applyRequest saved)) = .ok () ∧
          validateRequest numbers (applyRequest saved) = true ∧
          ∀ nonce : String, nonce.utf8ByteSize ≤ 26 →
            ∃ encoded, (nativeOptions (applyRequest saved)).save nonce = .ok encoded) ∧
        verifyReplay target (required cluster) catalogs = .ok () := by
  have hcomplete := complete_catalogStopped hcatalogs
  obtain ⟨latest, hlatest⟩ :=
    exists_latestRoom (required_ne_nil hroom) hcomplete.keys hcomplete.sound
  refine ⟨latest, hlatest, ?_⟩
  intro failedSnapshotId target htarget
  have hverified := verifiedTarget_previousTarget hlatest htarget
  refine ⟨(previousTarget_eq_ok htarget).2.2.1.trans hcomplete.keys, ?_, ?_, ?_⟩
  · intro state hstate
    exact validate_of_verified hstate hverified
  · intro saved hsaved
    have hshard := hverified.room.verified saved hsaved
    refine ⟨validateOptions_native hshard, ?_, ?_⟩
    · exact validateRequest_of_validate numbers (validate_of_verifySaved hshard)
    · intro nonce hnonce
      exact save_native hshard hnonce
  · exact verifyReplay_previousTarget hlatest htarget

/-! A room with one shard and three snapshots, the second of which is the
target after a failure of the third. -/

def sampleRoom : Configuration.Room := { clusterIni := [], directories := [("Master", [])] }

def sampleShard : Configuration.Shard :=
  ⟨"Master", true, none, 10999, 27016, none, [127, 0, 0, 1]⟩

def sampleCluster : Configuration.Cluster where
  shards := [sampleShard]
  shardEnabled := false
  masterPort := 10888

def sampleSnapshot (id : Nat) (file : Json) : Json :=
  .object [("snapshot_id", .ofNat id), ("world_file", file)]

def sampleRecord : Json :=
  .object [
    ("event", .string "recovery_catalog"), ("has_more", .bool false),
    ("latest_world_file", .string "session/S/0000000003"), ("session_id", .string "S"),
    ("snapshots", .array [
      sampleSnapshot 3 (.string "session/S/0000000003"),
      sampleSnapshot 2 (.string "session/S/0000000002"), sampleSnapshot 1 .null])]

def sampleCatalogs : Catalogs :=
  .ofList [("Master", ⟨"S", "session/S/0000000003",
    [⟨3, some "session/S/0000000003"⟩, ⟨2, some "session/S/0000000002"⟩, ⟨1, none⟩]⟩)]

/-- The numbers of Lua without rounding. -/
def sampleNumbers : LuaNumbers where
  tonumber literal := Numeral.value? literal.toList
  exact n _ := Numeral.value?_toString_nat n

def sampleTarget : FixedTarget :=
  ⟨2, .ofList [("Master", ⟨"S", 2, "session/S/0000000002"⟩)], .preparing⟩

theorem discover_sampleRoom : Configuration.discover Text.lower sampleRoom = .ok sampleCluster := by
  have hentries : (sampleRoom.directories.filter fun directory =>
      directory.1 ≠ "mods" ∧ directory.1.toList.head? ≠ some '.') = sampleRoom.directories := by
    decide
  have hsort : sampleRoom.directories.mergeSort (Configuration.directoryLe Text.lower) =
      sampleRoom.directories := List.mergeSort_singleton _
  have hshards : [sampleShard].mergeSort (fun a b => a.master || !b.master) = [sampleShard] :=
    List.mergeSort_singleton _
  unfold Configuration.discover
  refine bind_eq_ok.2 ⟨_, rfl, ?_⟩
  dsimp only
  rw [hentries, hsort]
  refine bind_eq_ok.2 ⟨(), rfl, ?_⟩
  refine bind_eq_ok.2 ⟨(), ensure_of (by decide) _, ?_⟩
  refine bind_eq_ok.2 ⟨(), rfl, ?_⟩
  refine bind_eq_ok.2 ⟨_, rfl, ?_⟩
  refine bind_eq_ok.2 ⟨10888, rfl, ?_⟩
  exact congrArg (fun shards => Except.ok (⟨shards, false, 10888⟩ : Configuration.Cluster)) hshards

theorem fixed_target_requested_sample :
    catalogStopped (fun _ => pure ()) (fun _ => pure sampleRecord) sampleCluster =
        .ok sampleCatalogs ∧
      ∃ latest, latestRoom (required sampleCluster) sampleCatalogs = .ok latest ∧
        previousTarget latest sampleCatalogs 3 = .ok sampleTarget ∧
        verifyReplay sampleTarget (required sampleCluster) sampleCatalogs = .ok () := by
  have hcatalogs : catalogStopped (fun _ => pure ()) (fun _ => pure sampleRecord) sampleCluster =
      .ok sampleCatalogs := by rfl
  obtain ⟨latest, hlatest, htargets⟩ :=
    fixed_target_requested sampleNumbers discover_sampleRoom hcatalogs
  have htarget : previousTarget latest sampleCatalogs 3 = .ok sampleTarget := by
    have heq : latestRoom (required sampleCluster) sampleCatalogs =
        .ok (.ofList [("Master", ⟨"S", 3, "session/S/0000000003"⟩)]) := by rfl
    rw [heq, Except.ok.injEq] at hlatest
    rw [← hlatest]
    rfl
  exact ⟨hcatalogs, latest, hlatest, htarget, (htargets 3 sampleTarget htarget).2.2.2⟩

end Preloader

end DstServer
