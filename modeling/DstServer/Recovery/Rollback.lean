import DstServer.Recovery.FixedTarget

/-!
# The choice of the rollback target

`Eligible` says which snapshot identities a load failure may roll back to,
in terms of the catalogs alone, and `Restorable` is the condition under
which a fresh `Restore` to an identity is allowed: the greatest eligible one
decides, and it must be close enough to every latest snapshot.

* `decide_restore_iff` lists what `decide` checked when it returned a fresh
  `Restore`.
* `eligible_iff_mem_candidates` connects the filters of `previous_target`
  with `Eligible`.
* `rollback_target_law` is the law in both directions, together with the
  absence of panics: no subtraction of snapshot identities goes below zero.
-/

namespace DstServer.Recovery

open Lib Lib.Outcome

/-! ## The law -/

/-- The identities that the reported shards can be rolled back to. -/
structure Eligible (failures : OrderedMap String FailedLoad) (catalogs : Catalogs) (id : Nat) :
    Prop where
  positive : 0 < id
  /-- Strictly below the snapshot of every reported shard. -/
  belowFailed : ∀ name report catalog entry, failures.get? name = some report →
    catalogs.get? name = some catalog → catalog.latest? = some entry → id < entry.snapshotId
  /-- Not above the latest snapshot of any shard. -/
  notAbove : ∀ catalog ∈ catalogs.values, ∀ entry ∈ catalog.latest?, id ≤ entry.snapshotId
  /-- Present with a world file in every catalog. -/
  complete : ∀ catalog ∈ catalogs.values,
    ∃ snapshot ∈ catalog.snapshots, snapshot.snapshotId = id ∧ snapshot.worldFile ≠ none

/-- Every reported shard failed to load the latest save of its catalog. -/
structure Reported (failures : OrderedMap String FailedLoad) (catalogs : Catalogs) : Prop where
  nonempty : failures.keys ≠ []
  latest : ∀ name report, failures.get? name = some report →
    ∃ catalog entry, catalogs.get? name = some catalog ∧ catalog.latest? = some entry ∧
      catalog.sessionId = report.sessionId ∧ entry.worldFile = some report.worldFile

/-- The condition for a fresh `Restore` to the identity. -/
structure Restorable (state : RecoveryState) (failures : OrderedMap String FailedLoad)
    (catalogs : Catalogs) (id : Nat) : Prop where
  spent : currentRestarts ≤ state.restartsUsed
  unfixed : state.target = none
  reported : Reported failures catalogs
  greatest : IsGreatest { id | Eligible failures catalogs id } id
  near : ∀ catalog ∈ catalogs.values, ∀ entry ∈ catalog.latest?,
    entry.snapshotId ≤ id + maxSnapshotGap

/-- Catalogs that the decision can work with. -/
structure WellFormed (state : RecoveryState) (required : OrderedSet String)
    (catalogs : Catalogs) : Prop where
  keys : catalogs.keys = required.keys
  distinct : ∀ catalog ∈ catalogs.values, (catalog.snapshots.map Snapshot.snapshotId).Nodup
  session : ∀ catalog ∈ catalogs.values, validText catalog.sessionId 128 = true
  identity : ∀ catalog ∈ catalogs.values, ∀ snapshot ∈ catalog.snapshots,
    0 < snapshot.snapshotId ∧ snapshot.snapshotId ≤ maxSafeInteger
  file : ∀ catalog ∈ catalogs.values, ∀ snapshot ∈ catalog.snapshots,
    ∀ worldFile ∈ snapshot.worldFile, validText worldFile 4096 = true
  latest : ∀ catalog ∈ catalogs.values, ∃ entry, catalog.latest? = some entry
  /-- The pending retry was reserved for these shards and sessions. -/
  retry : ∀ retry ∈ state.retry, retry.shards.keys = catalogs.keys ∧
    ∀ name reserved catalog, retry.shards.get? name = some reserved →
      catalogs.get? name = some catalog → catalog.sessionId = reserved.sessionId
  gap : ∀ catalog ∈ catalogs.values, ∀ entry ∈ catalog.latest?,
    ∀ other ∈ catalogs.values, ∀ otherEntry ∈ other.latest?,
    entry.snapshotId ≤ otherEntry.snapshotId + maxSnapshotGap

/-! ## The latest room in terms of the catalogs -/

section Latest

variable {required : OrderedSet String} {catalogs : Catalogs} {latest : SavedRoom}

/-- The shard of the latest room under the name of a catalog. -/
theorem latestRoom_shard (h : latestRoom required catalogs = .ok latest) {name : String}
    {catalog : Catalog} (hcatalog : catalogs.get? name = some catalog) :
    ∃ shard entry, latest.get? name = some shard ∧ catalog.latest? = some entry ∧
      saved catalog entry = .ok shard := by
  obtain ⟨_, hkeys, hlatest⟩ := latestRoom_keys h
  obtain ⟨shard, hshard⟩ :=
    OrderedMap.exists_get?_of_keys_eq (hkeys.trans hlatest.symm) hcatalog
  obtain ⟨catalog', hcatalog', hentry⟩ := latestRoom_get? h hshard
  rw [hcatalog] at hcatalog'
  cases hcatalog'
  obtain ⟨_, entry, hentry, hsaved⟩ := latestShard_eq_ok hentry
  exact ⟨shard, entry, hshard, hentry, hsaved⟩

/-- The catalog of a shard of the latest room. -/
theorem latestRoom_catalog (h : latestRoom required catalogs = .ok latest) {name : String}
    {shard : SavedShard} (hshard : latest.get? name = some shard) :
    ∃ catalog entry, catalogs.get? name = some catalog ∧ catalog.latest? = some entry ∧
      (catalog.snapshots.map Snapshot.snapshotId).Nodup ∧ saved catalog entry = .ok shard := by
  obtain ⟨catalog, hcatalog, hentry⟩ := latestRoom_get? h hshard
  obtain ⟨hnodup, entry, hentry, hsaved⟩ := latestShard_eq_ok hentry
  exact ⟨catalog, entry, hcatalog, hentry, hnodup, hsaved⟩

/-- The identities of the latest room are those of the latest entries. -/
theorem forall_latest_iff (h : latestRoom required catalogs = .ok latest) {p : Nat → Prop} :
    (∀ id ∈ latest.values.map SavedShard.snapshotId, p id) ↔
      ∀ catalog ∈ catalogs.values, ∀ entry ∈ catalog.latest?, p entry.snapshotId := by
  constructor
  · intro hall catalog hcatalog entry hentry
    obtain ⟨name, hname⟩ := OrderedMap.mem_values_iff.1 hcatalog
    obtain ⟨shard, entry', hshard, hentry', hsaved⟩ := latestRoom_shard h hname
    rw [Option.mem_def, hentry'] at hentry
    cases hentry
    rw [← (saved_eq_ok hsaved).2.2.1]
    exact hall _ (List.mem_map_of_mem (OrderedMap.mem_values_iff.2 ⟨name, hshard⟩))
  · intro hall id hid
    obtain ⟨shard, hshard, rfl⟩ := List.mem_map.1 hid
    obtain ⟨name, hname⟩ := OrderedMap.mem_values_iff.1 hshard
    obtain ⟨catalog, entry, hcatalog, hentry, _, hsaved⟩ := latestRoom_catalog h hname
    rw [(saved_eq_ok hsaved).2.2.1]
    exact hall catalog (OrderedMap.mem_values_iff.2 ⟨name, hcatalog⟩) entry hentry

/-- The latest room is not empty, so it has a newest and an oldest shard. -/
theorem exists_newest_oldest (h : latestRoom required catalogs = .ok latest) :
    ∃ newest oldest, (latest.values.map SavedShard.snapshotId).max? = some newest ∧
      (latest.values.map SavedShard.snapshotId).min? = some oldest ∧ oldest ≤ newest := by
  have hne : latest.values.map SavedShard.snapshotId ≠ [] := by
    rw [Ne, List.map_eq_nil_iff, ← OrderedMap.keys_eq_nil_iff_values]
    exact (verifiedRoom_latestRoom h).nonempty
  obtain ⟨newest, hnewest⟩ := Option.isSome_iff_exists.1 (List.isSome_max?_of_ne_nil hne)
  obtain ⟨oldest, holdest⟩ := Option.isSome_iff_exists.1 (List.isSome_min?_of_ne_nil hne)
  refine ⟨newest, oldest, hnewest, holdest, ?_⟩
  exact (List.max?_eq_some_iff.1 hnewest).2 _ (List.min?_eq_some_iff.1 holdest).1

/-- A latest entry has a safe identity, which is below `u64::MAX`. -/
theorem latest_lt_u64Max (h : latestRoom required catalogs = .ok latest) {name : String}
    {shard : SavedShard} (hshard : latest.get? name = some shard) :
    shard.snapshotId < u64Max := by
  have hverify := (verifiedRoom_latestRoom h).verified shard
    (OrderedMap.mem_values_iff.2 ⟨name, hshard⟩)
  unfold verifySaved at hverify
  rw [bind_eq_ok] at hverify
  obtain ⟨_, _, hverify⟩ := hverify
  rw [bind_eq_ok] at hverify
  obtain ⟨_, hid, _⟩ := hverify
  rw [ensure_eq_ok] at hid
  have hmax : maxSafeInteger < u64Max := by decide
  omega

end Latest

/-! ## The reported shards -/

/-- The report names the latest save of its shard. -/
def Matches (latest : SavedRoom) (name : String) (report : FailedLoad) : Prop :=
  ∃ shard, latest.get? name = some shard ∧ shard.sessionId = report.sessionId ∧
    shard.worldFile = report.worldFile

theorem earliestFailed_eq_some {latest : SavedRoom} {reports : List (String × FailedLoad)}
    {earliest failed : Nat} (h : earliestFailed latest reports earliest = some failed) :
    (∀ entry ∈ reports, Matches latest entry.1 entry.2) ∧
      ∀ id, id < failed ↔ id < earliest ∧
        ∀ entry ∈ reports, ∀ shard ∈ latest.get? entry.1, id < shard.snapshotId := by
  induction reports generalizing earliest with
  | nil =>
    unfold earliestFailed at h
    cases h
    simp
  | cons entry reports ih =>
    obtain ⟨name, report⟩ := entry
    unfold earliestFailed at h
    split at h
    · cases h
    · rename_i shard hshard
      rw [Option.filter_eq_some_iff] at hshard
      obtain ⟨hshard, hmatch⟩ := hshard
      simp only [Bool.and_eq_true, decide_eq_true_eq] at hmatch
      obtain ⟨hreports, hbound⟩ := ih h
      refine ⟨?_, ?_⟩
      · rw [List.forall_mem_cons]
        exact ⟨⟨shard, hshard, hmatch.1, hmatch.2⟩, hreports⟩
      · intro id
        rw [hbound, List.forall_mem_cons]
        simp only [hshard, Option.mem_def, Option.some.injEq, forall_eq', lt_min_iff]
        constructor
        · rintro ⟨⟨h₁, h₂⟩, h₃⟩
          exact ⟨h₁, h₂, h₃⟩
        · rintro ⟨h₁, h₂, h₃⟩
          exact ⟨⟨h₁, h₂⟩, h₃⟩

theorem earliestFailed_of_matches {latest : SavedRoom} {reports : List (String × FailedLoad)}
    (h : ∀ entry ∈ reports, Matches latest entry.1 entry.2) (earliest : Nat) :
    ∃ failed, earliestFailed latest reports earliest = some failed := by
  induction reports generalizing earliest with
  | nil => exact ⟨earliest, rfl⟩
  | cons entry reports ih =>
    obtain ⟨name, report⟩ := entry
    rw [List.forall_mem_cons] at h
    obtain ⟨⟨shard, hshard, hsession, hfile⟩, hreports⟩ := h
    unfold earliestFailed
    rw [hshard, Option.filter_some, if_pos (by simp [hsession, hfile])]
    exact ih hreports _

section Reported

variable {required : OrderedSet String} {catalogs : Catalogs} {latest : SavedRoom}

theorem matches_iff (h : latestRoom required catalogs = .ok latest) {name : String}
    {report : FailedLoad} :
    Matches latest name report ↔
      ∃ catalog entry, catalogs.get? name = some catalog ∧ catalog.latest? = some entry ∧
        catalog.sessionId = report.sessionId ∧ entry.worldFile = some report.worldFile := by
  constructor
  · rintro ⟨shard, hshard, hsession, hfile⟩
    obtain ⟨catalog, entry, hcatalog, hentry, _, hsaved⟩ := latestRoom_catalog h hshard
    obtain ⟨_, hsession', _, hfile'⟩ := saved_eq_ok hsaved
    exact ⟨catalog, entry, hcatalog, hentry, hsession'.symm.trans hsession, by rw [hfile', hfile]⟩
  · rintro ⟨catalog, entry, hcatalog, hentry, hsession, hfile⟩
    obtain ⟨shard, entry', hshard, hentry', hsaved⟩ := latestRoom_shard h hcatalog
    rw [hentry] at hentry'
    cases hentry'
    obtain ⟨_, hsession', _, hfile'⟩ := saved_eq_ok hsaved
    rw [hfile, Option.some.injEq] at hfile'
    exact ⟨shard, hshard, hsession'.trans hsession, hfile'.symm⟩

/-- The failed snapshot is below `u64::MAX` and below no other bound than
the latest snapshots of the reported shards. -/
theorem lt_failed_iff (h : latestRoom required catalogs = .ok latest)
    {failures : OrderedMap String FailedLoad} (hne : failures.keys ≠ []) {failed : Nat}
    (hfailed : earliestFailed latest failures.entries u64Max = some failed) (id : Nat) :
    id < failed ↔ ∀ name report catalog entry, failures.get? name = some report →
      catalogs.get? name = some catalog → catalog.latest? = some entry →
      id < entry.snapshotId := by
  obtain ⟨hmatches, hbound⟩ := earliestFailed_eq_some hfailed
  rw [hbound]
  constructor
  · rintro ⟨_, hall⟩ name report catalog entry hreport hcatalog hentry
    obtain ⟨shard, entry', hshard, hentry', hsaved⟩ := latestRoom_shard h hcatalog
    rw [hentry] at hentry'
    cases hentry'
    rw [← (saved_eq_ok hsaved).2.2.1]
    exact hall (name, report) (OrderedMap.mem_entries_iff.2 hreport) shard hshard
  · intro hall
    have hshards : ∀ e ∈ failures.entries, ∀ shard ∈ latest.get? e.1, id < shard.snapshotId := by
      rintro ⟨name, report⟩ hentry shard hshard
      obtain ⟨catalog, entry, hcatalog, hlatest, _, hsaved⟩ := latestRoom_catalog h hshard
      rw [(saved_eq_ok hsaved).2.2.1]
      exact hall name report catalog entry (OrderedMap.mem_entries_iff.1 hentry) hcatalog hlatest
    refine ⟨?_, hshards⟩
    -- the reports are not empty, so some latest snapshot bounds the identity
    obtain ⟨name, hname⟩ := List.exists_mem_of_ne_nil _ hne
    obtain ⟨report, hreport⟩ := OrderedMap.mem_keys_iff.1 hname
    have hentry := OrderedMap.mem_entries_iff.2 hreport
    obtain ⟨shard, hshard, _, _⟩ := hmatches _ hentry
    have hlt := hshards _ hentry shard hshard
    have hmax := latest_lt_u64Max h hshard
    omega

end Reported

/-! ## The absence of panics in the checks of saved shards -/

theorem quiet_verifySaved (shard : SavedShard) : (verifySaved shard).Quiet := by
  unfold verifySaved
  refine (quiet_ensure _ _).bind fun _ _ => (quiet_ensure _ _).bind fun _ _ => ?_
  exact quiet_ensure _ _

theorem quiet_saved (catalog : Catalog) (snapshot : Snapshot) : (saved catalog snapshot).Quiet := by
  unfold saved
  refine (quiet_orError _ _).bind fun _ _ => (quiet_verifySaved _).bind fun _ _ => ?_
  exact quiet_ok _

theorem quiet_provenSaved (catalog : Catalog) (snapshot : Snapshot) :
    (provenSaved catalog snapshot).Quiet := by
  have hquiet := quiet_saved catalog snapshot
  unfold provenSaved
  split
  · exact quiet_ok _
  · exact quiet_fail _
  · rename_i message hpanic
    exact absurd hpanic (hquiet message)

theorem quiet_latestRoom (required : OrderedSet String) (catalogs : Catalogs) :
    (latestRoom required catalogs).Quiet := by
  unfold latestRoom
  refine (quiet_ensure _ _).bind ?_
  intro _ hkeys
  rw [ensure_eq_ok] at hkeys
  refine OrderedMap.quiet_mapM ?_
  intro name _ hname
  obtain ⟨catalog, hcatalog⟩ := OrderedMap.exists_get?_of_keys_eq hkeys.2.symm hname
  rw [hcatalog]
  unfold latestShard
  refine (quiet_ensure _ _).bind fun _ _ => (quiet_orError _ _).bind fun _ _ => ?_
  exact quiet_saved _ _

theorem quiet_validate (state : RecoveryState) : state.validate.Quiet := by
  unfold RecoveryState.validate RecoveryState.validateRetry RecoveryState.validateTarget
  refine (quiet_ensure _ _).bind fun _ _ => Quiet.bind ?_ fun _ _ => ?_
  · split
    · exact quiet_ok _
    · exact (quiet_ensure _ _).bind fun _ _ => quiet_forM fun shard _ => quiet_verifySaved shard
  · split
    · exact quiet_ok _
    · refine (quiet_ensure _ _).bind fun _ _ => quiet_forM fun shard _ => ?_
      exact (quiet_verifySaved shard).bind fun _ _ => quiet_ensure _ _

/-! ## The candidates -/

theorem complete_iff {catalog : Catalog} {id : Nat} : catalog.complete id = true ↔
    ∃ snapshot ∈ catalog.snapshots, snapshot.snapshotId = id ∧ snapshot.worldFile ≠ none := by
  unfold Catalog.complete
  rw [List.any_eq_true]
  simp only [Bool.and_eq_true, decide_eq_true_eq, Option.isSome_iff_ne_none]

/-- The first catalog contributes no condition of its own: completeness
already asks for the identity there. -/
theorem mem_candidates {first : Catalog} {catalogs : Catalogs} {failedSnapshotId oldest id : Nat}
    (hfirst : first ∈ catalogs.values) :
    id ∈ candidates first catalogs failedSnapshotId oldest ↔
      0 < id ∧ id < failedSnapshotId ∧ id ≤ oldest ∧
        ∀ catalog ∈ catalogs.values, catalog.complete id = true := by
  unfold candidates
  simp only [List.mem_map, List.mem_filter, Bool.and_eq_true, decide_eq_true_eq,
    List.all_eq_true]
  constructor
  · rintro ⟨snapshot, ⟨⟨_, ⟨hpos, hfailed⟩, hold⟩, hall⟩, rfl⟩
    exact ⟨hpos, hfailed, hold, hall⟩
  · rintro ⟨hpos, hfailed, hold, hall⟩
    obtain ⟨snapshot, hmem, rfl, _⟩ := complete_iff.1 (hall first hfirst)
    exact ⟨snapshot, ⟨⟨hmem, ⟨hpos, hfailed⟩, hold⟩, hall⟩, rfl⟩

section Candidates

variable {required : OrderedSet String} {catalogs : Catalogs} {latest : SavedRoom}

/-- The filters of `previous_target` select the eligible identities. -/
theorem eligible_iff_mem_candidates (h : latestRoom required catalogs = .ok latest)
    {failures : OrderedMap String FailedLoad} (hne : failures.keys ≠ []) {failed : Nat}
    (hfailed : earliestFailed latest failures.entries u64Max = some failed) {oldest : Nat}
    (holdest : (latest.values.map SavedShard.snapshotId).min? = some oldest) {first : Catalog}
    (hfirst : first ∈ catalogs.values) (id : Nat) :
    id ∈ candidates first catalogs failed oldest ↔ Eligible failures catalogs id := by
  have hmin : id ≤ oldest ↔
      ∀ catalog ∈ catalogs.values, ∀ entry ∈ catalog.latest?, id ≤ entry.snapshotId := by
    rw [← forall_latest_iff h (p := fun other => id ≤ other)]
    rw [List.min?_eq_some_iff] at holdest
    constructor
    · intro hle other hother
      exact hle.trans (holdest.2 other hother)
    · intro hall
      exact hall oldest holdest.1
  rw [mem_candidates hfirst, lt_failed_iff h hne hfailed, hmin]
  constructor
  · rintro ⟨hpos, hbelow, habove, hall⟩
    exact ⟨hpos, hbelow, habove, fun catalog hcatalog => complete_iff.1 (hall catalog hcatalog)⟩
  · rintro ⟨hpos, hbelow, habove, hall⟩
    exact ⟨hpos, hbelow, habove, fun catalog hcatalog => complete_iff.2 (hall catalog hcatalog)⟩

/-- The greatest candidate is the greatest eligible identity. -/
theorem max?_candidates_iff (h : latestRoom required catalogs = .ok latest)
    {failures : OrderedMap String FailedLoad} (hne : failures.keys ≠ []) {failed : Nat}
    (hfailed : earliestFailed latest failures.entries u64Max = some failed) {oldest : Nat}
    (holdest : (latest.values.map SavedShard.snapshotId).min? = some oldest) {first : Catalog}
    (hfirst : first ∈ catalogs.values) (id : Nat) :
    (candidates first catalogs failed oldest).max? = some id ↔
      IsGreatest { id | Eligible failures catalogs id } id := by
  have hmem := eligible_iff_mem_candidates h hne hfailed holdest hfirst
  rw [List.max?_eq_some_iff, hmem]
  constructor
  · rintro ⟨hid, hall⟩
    exact ⟨hid, fun other hother => hall other ((hmem other).2 hother)⟩
  · rintro ⟨hid, hall⟩
    exact ⟨hid, fun other hother => hall ((hmem other).1 hother)⟩

theorem exists_first (h : latestRoom required catalogs = .ok latest) :
    ∃ first, catalogs.values.head? = some first := by
  obtain ⟨hne, hkeys, _⟩ := latestRoom_keys h
  rw [← hkeys, Ne, OrderedMap.keys_eq_nil_iff_values] at hne
  exact ⟨catalogs.values.head hne, List.head?_eq_some_head hne⟩

/-- A complete identity is found in its catalog. -/
theorem find?_of_complete {catalog : Catalog} {id : Nat} (h : catalog.complete id = true) :
    ∃ snapshot, catalog.snapshots.find? (fun snapshot => snapshot.snapshotId = id) =
      some snapshot := by
  obtain ⟨snapshot, hmem, hid, _⟩ := complete_iff.1 h
  rw [← Option.isSome_iff_exists, List.find?_isSome]
  exact ⟨snapshot, hmem, by simpa using hid⟩

/-- With distinct identities the entry that is found is the complete one. -/
theorem worldFile_of_complete {catalog : Catalog} {id : Nat} {snapshot : Snapshot}
    (hnodup : (catalog.snapshots.map Snapshot.snapshotId).Nodup)
    (h : catalog.complete id = true)
    (hfind : catalog.snapshots.find? (fun snapshot => snapshot.snapshotId = id) =
      some snapshot) : ∃ worldFile, snapshot = ⟨id, some worldFile⟩ := by
  obtain ⟨other, hother, hid, hfile⟩ := complete_iff.1 h
  have hmem := List.mem_of_find?_eq_some hfind
  have hfound := List.find?_some hfind
  rw [decide_eq_true_eq] at hfound
  have heq := List.inj_on_of_nodup_map hnodup hmem hother (hfound.trans hid.symm)
  obtain ⟨worldFile, hworld⟩ := Option.ne_none_iff_exists'.1 hfile
  refine ⟨worldFile, ?_⟩
  rw [heq, ← hid, ← hworld]

/-- No catalog makes the search for a target panic. -/
theorem quiet_previousTarget (h : latestRoom required catalogs = .ok latest)
    (failedSnapshotId : Nat) : (previousTarget latest catalogs failedSnapshotId).Quiet := by
  obtain ⟨newest, oldest, hnewest, holdest, hle⟩ := exists_newest_oldest h
  obtain ⟨first, hfirst⟩ := exists_first h
  have hmem := List.mem_of_mem_head? (Option.mem_def.2 hfirst)
  unfold previousTarget
  rw [newestId, hnewest, oldestId, holdest, hfirst]
  show Quiet (orError _ _ >>= _)
  refine (quiet_orError _ _).bind ?_
  intro selected hselected
  rw [orError_eq_ok, List.max?_eq_some_iff, mem_candidates hmem] at hselected
  obtain ⟨⟨_, _, hold, hall⟩, _⟩ := hselected
  rw [show (checkedSub newest selected : Outcome ClosedReason Nat) = .ok (newest - selected) from
    checkedSub_eq_ok.2 ⟨hold.trans hle, rfl⟩, ok_bind]
  refine (quiet_ensure _ _).bind ?_
  intro _ _
  refine Quiet.bind (OrderedMap.quiet_mapM ?_) (fun _ _ => quiet_ok _)
  intro name catalog hcatalog
  obtain ⟨snapshot, hfind⟩ := find?_of_complete
    (hall catalog (OrderedMap.mem_values_iff.2 ⟨name, hcatalog⟩))
  rw [hfind]
  exact quiet_provenSaved catalog snapshot

end Candidates

/-! ## What a fresh restore checked -/

section Decide

variable {state after : RecoveryState} {failure : Failure} {required : OrderedSet String}
  {catalogs : Catalogs} {nowMs : Nat} {target : FixedTarget}

/-- The values that `decide` computed on the way to a fresh `Restore`. -/
structure RestorePath (state : RecoveryState) (failures : OrderedMap String FailedLoad)
    (required : OrderedSet String) (catalogs : Catalogs) (latest : SavedRoom) (failed : Nat) :
    Prop where
  opened : state.closed = none
  spent : currentRestarts ≤ state.restartsUsed
  unfixed : state.target = none
  reported : failures.keys ≠ []
  room : latestRoom required catalogs = .ok latest
  retry : ∀ retry ∈ state.retry, retry.moved latest = false
  earliest : earliestFailed latest failures.entries u64Max = some failed
  gap : ∀ newest ∈ latest.values.map SavedShard.snapshotId,
    ∀ oldest ∈ latest.values.map SavedShard.snapshotId, newest ≤ oldest + maxSnapshotGap

/-- On that path a target that `previous_target` finds is restored. -/
theorem decide_of_path {failures : OrderedMap String FailedLoad} {latest : SavedRoom}
    {failed : Nat} (h : RestorePath state failures required catalogs latest failed)
    (htarget : previousTarget latest catalogs failed = .ok target) :
    state.decide (.loadFailure failures) required catalogs nowMs =
      .ok (.restore target false, { state with retry := none, target := some target }) := by
  obtain ⟨newest, oldest, hnewest, holdest, hle⟩ := exists_newest_oldest h.room
  have hunfinished : state.hasUnfinishedTarget = false := by
    rw [hasUnfinishedTarget_eq_false, h.unfixed]
    simp
  have hretry : (state.retry.any fun previous => previous.moved latest) = false := by
    cases hretry : state.retry with
    | none => rfl
    | some retry => exact h.retry retry hretry
  have hfailed : failedSnapshotId (.loadFailure failures) latest = .ok (some failed) := by
    unfold failedSnapshotId
    simp only [if_neg h.reported, h.earliest]
  have hgap := h.gap newest (List.max?_eq_some_iff.1 hnewest).1 oldest
    (List.min?_eq_some_iff.1 holdest).1
  have hsub : (checkedSub newest oldest : Outcome String Nat) = .ok (newest - oldest) :=
    checkedSub_eq_ok.2 ⟨hle, rfl⟩
  unfold RecoveryState.decide
  simp only [h.opened, Failure.fatal, hunfinished, h.room, Bool.false_eq_true, if_false]
  unfold RecoveryState.decideLatest
  rw [if_neg (by simp [hretry])]
  simp only [hfailed, newestId, oldestId, hnewest, holdest, unwrap, ok_bind, hsub]
  rw [if_neg (by omega)]
  unfold RecoveryState.spend
  rw [if_neg (Nat.not_lt.2 h.spent)]
  simp only [h.unfixed, Option.isSome_none, Bool.false_eq_true, if_false, htarget, h.opened]

theorem path_of_spend {failed? : Option Nat} {latest : SavedRoom}
    (h : state.spend failed? latest catalogs nowMs = .ok (.restore target false, after)) :
    ∃ failed, failed? = some failed ∧ currentRestarts ≤ state.restartsUsed ∧
      state.target = none ∧ previousTarget latest catalogs failed = .ok target := by
  unfold RecoveryState.spend at h
  by_cases hbudget : state.restartsUsed < currentRestarts
  · rw [if_pos hbudget, bind_eq_ok] at h
    obtain ⟨_, _, h⟩ := h
    cases h
  rw [if_neg hbudget] at h
  split at h
  · cases h
  rename_i failed
  by_cases hsome : state.target.isSome = true
  · rw [if_pos hsome] at h
    cases h
  rw [if_neg hsome] at h
  split at h
  · cases h
  · cases h
  · rename_i hprevious
    cases h
    exact ⟨failed, rfl, by omega, by simpa using hsome, hprevious⟩

/-- A fresh `Restore` comes from the path, with the target that
`previous_target` chose. -/
theorem path_of_decide
    (h : state.decide failure required catalogs nowMs = .ok (.restore target false, after)) :
    ∃ failures latest failed, failure = .loadFailure failures ∧
      RestorePath state failures required catalogs latest failed ∧
      previousTarget latest catalogs failed = .ok target := by
  unfold RecoveryState.decide at h
  split at h
  · cases h
  rename_i hopened
  split at h
  · cases h
  by_cases htarget : state.hasUnfinishedTarget = true
  · rw [if_pos htarget] at h
    cases h
  rw [if_neg htarget] at h
  split at h
  · cases h
  · cases h
  rename_i latest hlatest
  unfold RecoveryState.decideLatest at h
  split at h
  · cases h
  rename_i hretry
  split at h
  · cases h
  rename_i failed? hfailed
  rw [bind_eq_ok] at h
  obtain ⟨newest, hnewest, h⟩ := h
  rw [bind_eq_ok] at h
  obtain ⟨oldest, holdest, h⟩ := h
  rw [bind_eq_ok] at h
  obtain ⟨gap, hgap, h⟩ := h
  rw [newestId, unwrap_eq_ok, List.max?_eq_some_iff] at hnewest
  rw [oldestId, unwrap_eq_ok, List.min?_eq_some_iff] at holdest
  rw [checkedSub_eq_ok] at hgap
  split at h
  · cases h
  rename_i hnear
  obtain ⟨failed, rfl, hspent, hunfixed, hprevious⟩ := path_of_spend h
  unfold failedSnapshotId at hfailed
  split at hfailed
  · rename_i failures _
    split at hfailed
    · cases hfailed
    rename_i hreported
    split at hfailed
    · cases hfailed
    rename_i earliest hearliest
    cases hfailed
    refine ⟨failures, latest, failed, rfl, ⟨hopened, hspent, hunfixed, hreported, hlatest, ?_,
      hearliest, ?_⟩, hprevious⟩
    · intro retry hmem
      rw [Option.mem_def] at hmem
      simpa [hmem] using hretry
    · intro newest' hnewest' oldest' holdest'
      have h₁ := hnewest.2 newest' hnewest'
      have h₂ := holdest.2 oldest' holdest'
      omega
  · cases hfailed

/-- What a fresh `Restore` proves about the reports and the catalogs. -/
theorem restorable_of_decide
    (h : state.decide failure required catalogs nowMs = .ok (.restore target false, after)) :
    ∃ failures, failure = .loadFailure failures ∧
      Restorable state failures catalogs target.snapshotId ∧
      target.shards.keys = required.keys ∧
      ∀ name catalog, catalogs.get? name = some catalog → ∃ worldFile,
        ⟨target.snapshotId, some worldFile⟩ ∈ catalog.snapshots ∧
        target.shards.get? name = some ⟨catalog.sessionId, target.snapshotId, worldFile⟩ := by
  obtain ⟨failures, latest, failed, rfl, hpath, hprevious⟩ := path_of_decide h
  obtain ⟨_, ⟨newest, oldest, first, hnewest, holdest, hfirst, hselected, _, hnear⟩, hkeys,
    hshards⟩ := previousTarget_eq_ok hprevious
  have hmem := List.mem_of_mem_head? (Option.mem_def.2 hfirst)
  have hgreatest := (max?_candidates_iff hpath.room hpath.reported hpath.earliest holdest hmem
    target.snapshotId).1 hselected
  obtain ⟨_, hcatalogs, _⟩ := latestRoom_keys hpath.room
  refine ⟨failures, rfl, ⟨hpath.spent, hpath.unfixed, ⟨hpath.reported, ?_⟩, hgreatest, ?_⟩,
    hkeys.trans hcatalogs, ?_⟩
  · intro name report hreport
    exact (matches_iff hpath.room).1
      ((earliestFailed_eq_some hpath.earliest).1 _ (OrderedMap.mem_entries_iff.2 hreport))
  · rw [← forall_latest_iff hpath.room (p := fun id => id ≤ target.snapshotId + maxSnapshotGap)]
    intro id hid
    have hle := (List.max?_eq_some_iff.1 hnewest).2 id hid
    omega
  · intro name catalog hcatalog
    obtain ⟨shard, hshard⟩ := OrderedMap.exists_get?_of_keys_eq hkeys.symm hcatalog
    obtain ⟨catalog', snapshot, hcatalog', hfind, hsaved⟩ := hshards name shard hshard
    rw [hcatalog] at hcatalog'
    cases hcatalog'
    obtain ⟨hverify, hsession, hid, hfile⟩ := saved_eq_ok hsaved
    have hfound := List.find?_some hfind
    rw [decide_eq_true_eq] at hfound
    refine ⟨shard.worldFile, ?_, ?_⟩
    · rw [← hfound, ← hfile]
      exact List.mem_of_find?_eq_some hfind
    · rw [hshard, ← hsession, ← hfound, ← hid]

/-! ## When a restore is possible it is taken -/

theorem verifySaved_of {shard : SavedShard} (hsession : validText shard.sessionId 128 = true)
    (hid : 0 < shard.snapshotId ∧ shard.snapshotId ≤ maxSafeInteger)
    (hfile : validText shard.worldFile 4096 = true) : verifySaved shard = .ok () := by
  unfold verifySaved
  rw [ensure_of hsession, ok_bind, ensure_of hid, ok_bind, ensure_of hfile]

/-- A catalog whose entries can be saved. -/
structure Catalog.Sound (catalog : Catalog) : Prop where
  distinct : (catalog.snapshots.map Snapshot.snapshotId).Nodup
  session : validText catalog.sessionId 128 = true
  identity : ∀ snapshot ∈ catalog.snapshots,
    0 < snapshot.snapshotId ∧ snapshot.snapshotId ≤ maxSafeInteger
  file : ∀ snapshot ∈ catalog.snapshots, ∀ worldFile ∈ snapshot.worldFile,
    validText worldFile 4096 = true
  latest : ∃ entry, catalog.latest? = some entry

/-- A complete entry of a sound catalog can be saved. -/
theorem Catalog.Sound.exists_saved {catalog : Catalog} (h : catalog.Sound) {snapshot : Snapshot}
    (hsnapshot : snapshot ∈ catalog.snapshots) {worldFile : String}
    (hfile : snapshot.worldFile = some worldFile) :
    saved catalog snapshot = .ok ⟨catalog.sessionId, snapshot.snapshotId, worldFile⟩ := by
  have hverify : verifySaved ⟨catalog.sessionId, snapshot.snapshotId, worldFile⟩ = .ok () :=
    verifySaved_of h.session (h.identity snapshot hsnapshot) (h.file snapshot hsnapshot worldFile hfile)
  unfold saved
  rw [hfile]
  show (verifySaved _ >>= fun _ => _) = _
  rw [hverify]
  rfl

theorem exists_latestRoom (hne : required.keys ≠ []) (hkeys : catalogs.keys = required.keys)
    (hsound : ∀ catalog ∈ catalogs.values, catalog.Sound) :
    ∃ latest, latestRoom required catalogs = .ok latest := by
  unfold latestRoom
  rw [ensure_of ⟨hne, hkeys⟩, ok_bind]
  refine OrderedMap.exists_mapM_of_forall ?_
  intro name _ hname
  obtain ⟨catalog, hcatalog⟩ := OrderedMap.exists_get?_of_keys_eq hkeys.symm hname
  have hcatalog' := hsound catalog (OrderedMap.mem_values_iff.2 ⟨name, hcatalog⟩)
  obtain ⟨entry, hentry⟩ := hcatalog'.latest
  have hfile := List.find?_some hentry
  rw [decide_eq_true_eq] at hfile
  have hsaved := hcatalog'.exists_saved (List.mem_of_find?_eq_some hentry) hfile
  refine ⟨⟨catalog.sessionId, entry.snapshotId, catalog.latestWorldFile⟩, ?_⟩
  rw [hcatalog]
  show latestShard catalog = _
  unfold latestShard
  rw [ensure_of hcatalog'.distinct, ok_bind, hentry]
  exact hsaved

theorem WellFormed.sound (h : WellFormed state required catalogs) {catalog : Catalog}
    (hcatalog : catalog ∈ catalogs.values) : catalog.Sound where
  distinct := h.distinct catalog hcatalog
  session := h.session catalog hcatalog
  identity := h.identity catalog hcatalog
  file := h.file catalog hcatalog
  latest := h.latest catalog hcatalog

theorem WellFormed.exists_latestRoom (h : WellFormed state required catalogs)
    (hne : required.keys ≠ []) : ∃ latest, latestRoom required catalogs = .ok latest :=
  Recovery.exists_latestRoom hne h.keys fun _ => h.sound

/-- The pending retry was reserved for the shards and sessions of the
latest room. -/
theorem WellFormed.moved (h : WellFormed state required catalogs) {latest : SavedRoom}
    (hlatest : latestRoom required catalogs = .ok latest) {retry : CurrentRetry}
    (hretry : retry ∈ state.retry) : retry.moved latest = false := by
  obtain ⟨hkeys, hsessions⟩ := h.retry retry hretry
  obtain ⟨_, hcatalogs, hnames⟩ := latestRoom_keys hlatest
  unfold CurrentRetry.moved
  rw [Bool.or_eq_false_iff]
  constructor
  · simp [hkeys, hcatalogs, hnames]
  · rw [List.any_eq_false]
    rintro ⟨name, reserved⟩ hentry
    have hreserved := OrderedMap.mem_entries_iff.1 hentry
    obtain ⟨catalog, hcatalog⟩ := OrderedMap.exists_get?_of_keys_eq hkeys hreserved
    obtain ⟨shard, entry, hshard, _, hsaved⟩ := latestRoom_shard hlatest hcatalog
    have hsession := hsessions name reserved catalog hreserved hcatalog
    simp [hshard, (saved_eq_ok hsaved).2.1, hsession]

theorem WellFormed.path (h : WellFormed state required catalogs) (hopened : state.closed = none)
    {failures : OrderedMap String FailedLoad} {id : Nat}
    (hrestorable : Restorable state failures catalogs id) :
    ∃ latest failed, RestorePath state failures required catalogs latest failed := by
  have hne : required.keys ≠ [] := by
    obtain ⟨name, hname⟩ := List.exists_mem_of_ne_nil _ hrestorable.reported.nonempty
    obtain ⟨report, hreport⟩ := OrderedMap.mem_keys_iff.1 hname
    obtain ⟨catalog, _, hcatalog, _⟩ := hrestorable.reported.latest name report hreport
    rw [← h.keys]
    exact List.ne_nil_of_mem (OrderedMap.mem_keys_iff.2 ⟨catalog, hcatalog⟩)
  obtain ⟨latest, hlatest⟩ := h.exists_latestRoom hne
  have hmatches : ∀ entry ∈ failures.entries, Matches latest entry.1 entry.2 := by
    rintro ⟨name, report⟩ hentry
    exact (matches_iff hlatest).2
      (hrestorable.reported.latest name report (OrderedMap.mem_entries_iff.1 hentry))
  obtain ⟨failed, hfailed⟩ := earliestFailed_of_matches hmatches u64Max
  refine ⟨latest, failed, hopened, hrestorable.spent, hrestorable.unfixed,
    hrestorable.reported.nonempty, hlatest, fun retry hretry => h.moved hlatest hretry,
    hfailed, ?_⟩
  rw [forall_latest_iff hlatest (p := fun newest =>
    ∀ oldest ∈ latest.values.map SavedShard.snapshotId, newest ≤ oldest + maxSnapshotGap)]
  intro catalog hcatalog entry hentry
  rw [forall_latest_iff hlatest (p := fun oldest => entry.snapshotId ≤ oldest + maxSnapshotGap)]
  intro other hother otherEntry hotherEntry
  exact h.gap catalog hcatalog entry hentry other hother otherEntry hotherEntry

/-- The greatest eligible identity, close enough to the latest snapshots,
makes a target. -/
theorem WellFormed.exists_target (h : WellFormed state required catalogs)
    {failures : OrderedMap String FailedLoad} {id : Nat}
    (hrestorable : Restorable state failures catalogs id) {latest : SavedRoom} {failed : Nat}
    (hpath : RestorePath state failures required catalogs latest failed) :
    ∃ target, previousTarget latest catalogs failed = .ok target ∧ target.snapshotId = id := by
  obtain ⟨newest, oldest, hnewest, holdest, hle⟩ := exists_newest_oldest hpath.room
  obtain ⟨first, hfirst⟩ := exists_first hpath.room
  have hmem := List.mem_of_mem_head? (Option.mem_def.2 hfirst)
  have hselected := (max?_candidates_iff hpath.room hpath.reported hpath.earliest holdest hmem
    id).2 hrestorable.greatest
  have hold : id ≤ oldest :=
    ((mem_candidates hmem).1 (List.max?_eq_some_iff.1 hselected).1).2.2.1
  have hnear : newest ≤ id + maxSnapshotGap :=
    (forall_latest_iff hpath.room (p := fun other => other ≤ id + maxSnapshotGap)).2
      hrestorable.near newest (List.max?_eq_some_iff.1 hnewest).1
  have hshards : ∃ shards : SavedRoom, (catalogs.mapM fun _ catalog => do
      let snapshot ← unwrap (catalog.snapshots.find? fun snapshot => snapshot.snapshotId = id)
      provenSaved catalog snapshot) = .ok shards := by
    refine OrderedMap.exists_mapM_of_forall ?_
    intro name catalog hcatalog
    have hvalue := OrderedMap.mem_values_iff.2 ⟨name, hcatalog⟩
    have hcomplete := complete_iff.2 (hrestorable.greatest.1.complete catalog hvalue)
    obtain ⟨snapshot, hfind⟩ := find?_of_complete hcomplete
    obtain ⟨worldFile, rfl⟩ := worldFile_of_complete (h.distinct catalog hvalue) hcomplete hfind
    have hsaved := (h.sound hvalue).exists_saved (List.mem_of_find?_eq_some hfind) rfl
    refine ⟨⟨catalog.sessionId, id, worldFile⟩, ?_⟩
    rw [hfind]
    exact provenSaved_eq_ok.2 hsaved
  obtain ⟨shards, hshards⟩ := hshards
  refine ⟨⟨id, shards, .preparing⟩, ?_, rfl⟩
  unfold previousTarget
  rw [newestId, hnewest, oldestId, holdest, hfirst]
  show (orError (candidates first catalogs failed oldest).max? _ >>= _) = _
  rw [hselected]
  show (checkedSub newest id >>= _) = _
  rw [checkedSub_eq_ok.2 ⟨hold.trans hle, rfl⟩, ok_bind, ensure_of (by omega), ok_bind, hshards]
  rfl

theorem decide_of_restorable (nowMs : Nat) (h : WellFormed state required catalogs)
    (hopened : state.closed = none) {failures : OrderedMap String FailedLoad} {id : Nat}
    (hrestorable : Restorable state failures catalogs id) :
    ∃ target, target.snapshotId = id ∧ VerifiedTarget target ∧
      state.decide (.loadFailure failures) required catalogs nowMs =
        .ok (.restore target false, { state with retry := none, target := some target }) := by
  obtain ⟨latest, failed, hpath⟩ := h.path hopened hrestorable
  obtain ⟨target, htarget, hid⟩ := h.exists_target hrestorable hpath
  exact ⟨target, hid, verifiedTarget_previousTarget hpath.room htarget,
    decide_of_path hpath htarget⟩

end Decide

/-! ## The absence of panics -/

section Quiet

variable {state : RecoveryState} {required : OrderedSet String} {catalogs : Catalogs}
  {latest : SavedRoom} {nowMs : Nat}

theorem quiet_spend (h : latestRoom required catalogs = .ok latest) (failed : Option Nat) :
    (state.spend failed latest catalogs nowMs).Quiet := by
  unfold RecoveryState.spend
  split
  · exact (quiet_ensure _ _).bind fun _ _ => quiet_ok _
  · split
    · exact quiet_ok _
    · split
      · exact quiet_ok _
      · split
        · rename_i message hpanic
          exact absurd hpanic (quiet_previousTarget h _ message)
        · exact quiet_ok _
        · exact quiet_ok _

/-- The newest latest snapshot is not below the oldest one, so their
distance is no underflow. -/
theorem quiet_decideLatest (h : latestRoom required catalogs = .ok latest) (failure : Failure) :
    (state.decideLatest failure latest catalogs nowMs).Quiet := by
  obtain ⟨newest, oldest, hnewest, holdest, hle⟩ := exists_newest_oldest h
  unfold RecoveryState.decideLatest
  split
  · exact quiet_ok _
  · split
    · exact quiet_ok _
    · rw [newestId, hnewest, oldestId, holdest]
      show Quiet (checkedSub newest oldest >>= _)
      rw [checkedSub_eq_ok.2 ⟨hle, rfl⟩, ok_bind]
      split
      · exact quiet_ok _
      · exact quiet_spend h _

theorem quiet_decide (failure : Failure) :
    (state.decide failure required catalogs nowMs).Quiet := by
  unfold RecoveryState.decide
  split
  · exact quiet_ok _
  · split
    · exact quiet_ok _
    · split
      · exact quiet_ok _
      · split
        · rename_i message hpanic
          exact absurd hpanic (quiet_latestRoom required catalogs message)
        · exact quiet_ok _
        · rename_i hlatest
          exact quiet_decideLatest hlatest failure

theorem quiet_verifyReplay (target : FixedTarget) :
    (verifyReplay target required catalogs).Quiet := by
  have hroom := quiet_latestRoom required catalogs
  unfold verifyReplay
  refine Quiet.bind ?_ ?_
  · unfold provenLatestRoom
    split
    · exact quiet_ok _
    · exact quiet_fail _
    · rename_i message hpanic
      exact absurd hpanic (hroom message)
  intro latest hproven
  have hlatest : latestRoom required catalogs = .ok latest := by
    unfold provenLatestRoom at hproven
    split at hproven
    · cases hproven
      assumption
    · cases hproven
    · cases hproven
  obtain ⟨_, hcatalogs, hnames⟩ := latestRoom_keys hlatest
  refine (quiet_ensure _ _).bind ?_
  intro _ hkeys
  rw [ensure_eq_ok] at hkeys
  refine quiet_forM ?_
  rintro ⟨name, expected⟩ hentry
  have hexpected := OrderedMap.mem_entries_iff.1 hentry
  obtain ⟨current, hcurrent⟩ := OrderedMap.exists_get?_of_keys_eq hkeys hexpected
  obtain ⟨catalog, hcatalog⟩ :=
    OrderedMap.exists_get?_of_keys_eq (hnames.trans hcatalogs.symm) hcurrent
  show (verifyReplayShard target catalogs latest name expected).Quiet
  unfold verifyReplayShard
  rw [hcurrent, hcatalog]
  show Quiet (ensure _ _ >>= _)
  refine (quiet_ensure _ _).bind fun _ _ => ?_
  show Quiet (orError _ _ >>= _)
  refine (quiet_orError _ _).bind fun snapshot _ => ?_
  refine (quiet_provenSaved catalog snapshot).bind fun found _ => ?_
  refine (quiet_ensure _ _).bind fun _ hbound => ?_
  rw [ensure_eq_ok] at hbound
  rw [checkedSub_eq_ok.2 ⟨hbound.2, rfl⟩, ok_bind]
  exact quiet_ensure _ _

theorem quiet_resumePending : (state.resumePending required catalogs nowMs).Quiet := by
  unfold RecoveryState.resumePending
  split
  · exact quiet_ok _
  · split
    · rename_i target _
      unfold RecoveryState.resumeTarget
      split
      · rename_i message hpanic
        exact absurd hpanic (quiet_verifyReplay target message)
      · exact quiet_ok _
      · exact quiet_ok _
    · split
      · unfold RecoveryState.resumeRetry
        split
        · exact (quiet_decide _).bind fun _ _ => quiet_ok _
        · split
          · rename_i message hpanic
            exact absurd hpanic (quiet_latestRoom required catalogs message)
          · exact quiet_ok _
          · split
            · exact quiet_ok _
            · exact quiet_ok _
      · exact quiet_ok _

theorem quiet_update {α : Type} {change : RecoveryState → Outcome String (α × RecoveryState)}
    (h : (change state).Quiet) : (update change state).Quiet := by
  unfold update
  refine (quiet_validate state).bind fun _ _ => h.bind fun value _ => ?_
  exact (quiet_validate value.2).bind fun _ _ => quiet_ok _

end Quiet

/-! ## The rollback target law -/

theorem update_eq_ok {α : Type} {change : RecoveryState → Outcome String (α × RecoveryState)}
    {state after : RecoveryState} {a : α} :
    update change state = .ok (a, after) ↔
      state.validate = .ok () ∧ change state = .ok (a, after) ∧ after.validate = .ok () := by
  unfold update
  rw [bind_eq_ok]
  constructor
  · rintro ⟨_, hvalid, h⟩
    rw [bind_eq_ok] at h
    obtain ⟨⟨result, changed⟩, hchange, h⟩ := h
    rw [bind_eq_ok] at h
    obtain ⟨_, hafter, h⟩ := h
    cases h
    exact ⟨hvalid, hchange, hafter⟩
  · rintro ⟨hvalid, hchange, hafter⟩
    refine ⟨(), hvalid, ?_⟩
    rw [hchange, ok_bind]
    show (after.validate >>= fun _ => _) = _
    rw [hafter]
    rfl

theorem budget_of_validate {state : RecoveryState} (h : state.validate = .ok ()) :
    state.restartsUsed ≤ currentRestarts := by
  unfold RecoveryState.validate at h
  rw [bind_eq_ok] at h
  obtain ⟨_, hbudget, _⟩ := h
  exact ensure_eq_ok.1 hbudget

/-- For every recovery state, failure and set of catalogs: a fresh `Restore`
is returned only for the greatest eligible identity, with the budget spent
and no earlier target, and it restores exactly that identity in every
shard; where the catalogs are well formed and such an identity exists it is
returned; resuming never returns a fresh `Restore`; and nothing panics. -/
theorem rollback_target_law (state : RecoveryState) (required : OrderedSet String)
    (catalogs : Catalogs) (nowMs : Nat) :
    (∀ failure target after,
      state.decide failure required catalogs nowMs = .ok (.restore target false, after) ∨
        onFailure failure required catalogs nowMs state = .ok (.restore target false, after) →
      ∃ failures, failure = .loadFailure failures ∧
        Restorable state failures catalogs target.snapshotId ∧
        target.shards.keys = required.keys ∧
        ∀ name catalog, catalogs.get? name = some catalog → ∃ worldFile,
          ⟨target.snapshotId, some worldFile⟩ ∈ catalog.snapshots ∧
          target.shards.get? name =
            some ⟨catalog.sessionId, target.snapshotId, worldFile⟩) ∧
    (∀ failures id, state.closed = none → WellFormed state required catalogs →
      Restorable state failures catalogs id →
      ∃ target after, target.snapshotId = id ∧
        state.decide (.loadFailure failures) required catalogs nowMs =
          .ok (.restore target false, after) ∧
        (state.validate = .ok () →
          onFailure (.loadFailure failures) required catalogs nowMs state =
            .ok (.restore target false, after))) ∧
    (∀ target after, resumePending required catalogs nowMs state ≠
      .ok (some (.restore target false), after)) ∧
    (∀ failure, (state.decide failure required catalogs nowMs).Quiet) ∧
    (∀ failure, (onFailure failure required catalogs nowMs state).Quiet) ∧
    (resumePending required catalogs nowMs state).Quiet := by
  refine ⟨?_, ?_, ?_, fun failure => quiet_decide failure, fun failure => ?_, ?_⟩
  · intro failure target after h
    have hdecide : state.decide failure required catalogs nowMs =
        .ok (.restore target false, after) := by
      rcases h with h | h
      · exact h
      · exact (update_eq_ok.1 h).2.1
    exact restorable_of_decide hdecide
  · intro failures id hopened hwell hrestorable
    obtain ⟨target, hid, hverified, hdecide⟩ :=
      decide_of_restorable nowMs hwell hopened hrestorable
    refine ⟨target, _, hid, hdecide, ?_⟩
    intro hvalid
    have hbudget := budget_of_validate hvalid
    refine update_eq_ok.2 ⟨hvalid, hdecide, Consistent.validate ?_⟩
    refine consistent_of_no_retry hbudget rfl ?_
    intro fixed hfixed
    cases hfixed
    exact hverified
  · intro target after h
    cases resumePending_cases (update_eq_ok.1 h).2.1 with
    | failed _ _ _ _ hfresh => exact hfresh target rfl
  · exact quiet_update (quiet_decide failure)
  · exact quiet_update quiet_resumePending

/-- Two shards, of which the second one failed to load its snapshot 4.  The
first one has no world file for that snapshot. -/
def shardCatalogs : Catalogs :=
  ⟨[("Caves", ⟨"caves", "caves/5",
      [⟨5, some "caves/5"⟩, ⟨4, none⟩, ⟨3, some "caves/3"⟩, ⟨2, some "caves/2"⟩]⟩),
    ("Master", ⟨"master", "master/4",
      [⟨4, some "master/4"⟩, ⟨3, some "master/3"⟩, ⟨2, some "master/2"⟩]⟩)], by decide⟩

def shardNames : OrderedSet String := ⟨[("Caves", ()), ("Master", ())], by decide⟩

def masterFailure : OrderedMap String FailedLoad :=
  ⟨[("Master", ⟨"master", "master/4"⟩)], by decide⟩

def spentState : RecoveryState := { restartsUsed := 2 }

theorem shards_wellFormed : WellFormed spentState shardNames shardCatalogs where
  keys := by decide +kernel
  distinct := by decide +kernel
  session := by decide +kernel
  identity := by decide +kernel
  file := by decide +kernel
  latest := by
    have hall : ∀ catalog ∈ shardCatalogs.values, catalog.latest?.isSome = true := by
      decide +kernel
    exact fun catalog hcatalog => Option.isSome_iff_exists.1 (hall catalog hcatalog)
  retry := nofun
  gap := by decide +kernel

theorem master_failed {name : String} {report : FailedLoad}
    (h : masterFailure.get? name = some report) : name = "Master" ∧ report = ⟨"master", "master/4"⟩ :=
  Prod.mk.inj (List.mem_singleton.1 (OrderedMap.mem_entries_iff.2 h))

theorem shards_restorable : Restorable spentState masterFailure shardCatalogs 3 where
  spent := le_refl 2
  unfixed := rfl
  reported :=
    { nonempty := List.cons_ne_nil _ _
      latest := by
        intro name report h
        obtain ⟨rfl, rfl⟩ := master_failed h
        exact ⟨_, _, rfl, rfl, rfl, rfl⟩ }
  greatest := by
    constructor
    · refine ⟨by decide, ?_, by decide +kernel, by decide +kernel⟩
      intro name report catalog entry hreport hcatalog hentry
      obtain ⟨rfl, rfl⟩ := master_failed hreport
      obtain rfl := Option.some.inj hcatalog
      obtain rfl := Option.some.inj hentry
      decide
    · intro id hid
      have hbelow : id < 4 := hid.belowFailed "Master" _ _ _ rfl rfl rfl
      omega
  near := by decide +kernel

/-- The room is rolled back to snapshot 3, the last one with a world file in
both shards. -/
theorem rollback_target_law_sample :
    ∃ target after, target.snapshotId = 3 ∧
      spentState.decide (.loadFailure masterFailure) shardNames shardCatalogs 0 =
        .ok (.restore target false, after) ∧
      (spentState.validate = .ok () →
        onFailure (.loadFailure masterFailure) shardNames shardCatalogs 0 spentState =
          .ok (.restore target false, after)) :=
  (rollback_target_law spentState shardNames shardCatalogs 0).2.1 masterFailure 3 rfl
    shards_wellFormed shards_restorable

end DstServer.Recovery
