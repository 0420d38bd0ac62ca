import DstServer.Lib.Run
import DstServer.Recovery.Model

/-!
# What the operations of the recovery machine can do

Every fact about runs of the machine is derived from this module.  For each
operation of `Recovery.Model` there is one inversion lemma that lists all
the ways in which it can succeed, with the guards that were checked on the
way and the state that it leaves:

* `decide_cases` for the decision after a failure,
* `resumePending_cases` for the decision at the start of an Agent,
* `call_cases` for any operation, in terms of `Change`.

The invariants and the bounds above this module argue by cases on these
relations and never unfold an operation again.
-/

namespace DstServer.Recovery

open Lib Lib.Outcome

/-! ## Saved rooms -/

/-- A room of saved shards that `validate` accepts: at least one shard, and
every shard has valid identities. -/
structure VerifiedRoom (shards : SavedRoom) : Prop where
  nonempty : shards.keys ≠ []
  verified : ∀ saved ∈ shards.values, verifySaved saved = .ok ()

theorem saved_eq_ok {catalog : Catalog} {snapshot : Snapshot} {result : SavedShard}
    (h : saved catalog snapshot = .ok result) :
    verifySaved result = .ok () ∧ result.sessionId = catalog.sessionId ∧
      result.snapshotId = snapshot.snapshotId ∧ snapshot.worldFile = some result.worldFile := by
  unfold saved at h
  rw [bind_eq_ok] at h
  obtain ⟨worldFile, hfile, h⟩ := h
  rw [orError_eq_ok] at hfile
  rw [bind_eq_ok] at h
  obtain ⟨_, hverify, h⟩ := h
  cases h
  exact ⟨hverify, rfl, rfl, hfile⟩

theorem provenSaved_eq_ok {catalog : Catalog} {snapshot : Snapshot} {result : SavedShard} :
    provenSaved catalog snapshot = .ok result ↔ saved catalog snapshot = .ok result := by
  unfold provenSaved
  split <;> simp_all [fail, panics]

theorem latestShard_eq_ok {catalog : Catalog} {result : SavedShard}
    (h : latestShard catalog = .ok result) :
    (catalog.snapshots.map Snapshot.snapshotId).Nodup ∧
      ∃ snapshot, catalog.latest? = some snapshot ∧ saved catalog snapshot = .ok result := by
  unfold latestShard at h
  rw [bind_eq_ok] at h
  obtain ⟨_, hnodup, h⟩ := h
  rw [bind_eq_ok] at h
  obtain ⟨snapshot, hlatest, h⟩ := h
  exact ⟨ensure_eq_ok.1 hnodup, snapshot, orError_eq_ok.1 hlatest, h⟩

/-- The latest room has exactly the required shards, and so has the map of
catalogs. -/
theorem latestRoom_keys {required : OrderedSet String} {catalogs : Catalogs} {latest : SavedRoom}
    (h : latestRoom required catalogs = .ok latest) :
    required.keys ≠ [] ∧ catalogs.keys = required.keys ∧ latest.keys = required.keys := by
  unfold latestRoom at h
  rw [bind_eq_ok] at h
  obtain ⟨_, hkeys, h⟩ := h
  rw [ensure_eq_ok] at hkeys
  exact ⟨hkeys.1, hkeys.2, OrderedMap.keys_of_mapM h⟩

theorem latestRoom_get? {required : OrderedSet String} {catalogs : Catalogs} {latest : SavedRoom}
    (h : latestRoom required catalogs = .ok latest) {name : String} {result : SavedShard}
    (hname : latest.get? name = some result) :
    ∃ catalog, catalogs.get? name = some catalog ∧ latestShard catalog = .ok result := by
  unfold latestRoom at h
  rw [bind_eq_ok] at h
  obtain ⟨_, _, h⟩ := h
  obtain ⟨_, _, hshard⟩ := OrderedMap.exists_of_get?_mapM h hname
  rw [bind_eq_ok] at hshard
  obtain ⟨catalog, hcatalog, hshard⟩ := hshard
  exact ⟨catalog, unwrap_eq_ok.1 hcatalog, hshard⟩

theorem verifiedRoom_latestRoom {required : OrderedSet String} {catalogs : Catalogs}
    {latest : SavedRoom} (h : latestRoom required catalogs = .ok latest) :
    VerifiedRoom latest := by
  obtain ⟨hne, _, hkeys⟩ := latestRoom_keys h
  refine ⟨by rw [hkeys]; exact hne, ?_⟩
  intro result hresult
  rw [OrderedMap.mem_values_iff] at hresult
  obtain ⟨name, hname⟩ := hresult
  obtain ⟨catalog, _, hshard⟩ := latestRoom_get? h hname
  obtain ⟨_, snapshot, _, hsaved⟩ := latestShard_eq_ok hshard
  exact (saved_eq_ok hsaved).1

/-- The selected identity and the saved shard of every catalog of a
rollback target. -/
theorem previousTarget_eq_ok {latest : SavedRoom} {catalogs : Catalogs} {failedSnapshotId : Nat}
    {target : FixedTarget} (h : previousTarget latest catalogs failedSnapshotId = .ok target) :
    target.phase = .preparing ∧
      (∃ newest oldest first,
        (latest.values.map SavedShard.snapshotId).max? = some newest ∧
        (latest.values.map SavedShard.snapshotId).min? = some oldest ∧
        catalogs.values.head? = some first ∧
        (candidates first catalogs failedSnapshotId oldest).max? = some target.snapshotId ∧
        target.snapshotId ≤ newest ∧ newest - target.snapshotId ≤ maxSnapshotGap) ∧
      target.shards.keys = catalogs.keys ∧
      ∀ name shard, target.shards.get? name = some shard →
        ∃ catalog snapshot, catalogs.get? name = some catalog ∧
          catalog.snapshots.find? (fun snapshot => snapshot.snapshotId = target.snapshotId) =
            some snapshot ∧
          saved catalog snapshot = .ok shard := by
  unfold previousTarget at h
  rw [bind_eq_ok] at h
  obtain ⟨newest, hnewest, h⟩ := h
  rw [bind_eq_ok] at h
  obtain ⟨oldest, holdest, h⟩ := h
  rw [bind_eq_ok] at h
  obtain ⟨first, hfirst, h⟩ := h
  rw [bind_eq_ok] at h
  obtain ⟨selected, hselected, h⟩ := h
  rw [bind_eq_ok] at h
  obtain ⟨gap, hgap, h⟩ := h
  rw [bind_eq_ok] at h
  obtain ⟨_, hbound, h⟩ := h
  rw [bind_eq_ok] at h
  obtain ⟨shards, hshards, h⟩ := h
  cases h
  rw [checkedSub_eq_ok] at hgap
  rw [ensure_eq_ok] at hbound
  refine ⟨rfl, ⟨newest, oldest, first, unwrap_eq_ok.1 hnewest, unwrap_eq_ok.1 holdest,
    unwrap_eq_ok.1 hfirst, orError_eq_ok.1 hselected, hgap.1, ?_⟩,
    OrderedMap.keys_of_mapM hshards, ?_⟩
  · rw [hgap.2] at hbound
    exact hbound
  · intro name shard hname
    obtain ⟨catalog, hcatalog, hshard⟩ := OrderedMap.exists_of_get?_mapM hshards hname
    rw [bind_eq_ok] at hshard
    obtain ⟨snapshot, hfind, hshard⟩ := hshard
    exact ⟨catalog, snapshot, hcatalog, unwrap_eq_ok.1 hfind, provenSaved_eq_ok.1 hshard⟩

/-- A target that `validate` accepts: a verified room whose shards all have
the identity of the target. -/
structure VerifiedTarget (target : FixedTarget) : Prop where
  room : VerifiedRoom target.shards
  snapshotId : ∀ saved ∈ target.shards.values, saved.snapshotId = target.snapshotId

theorem verifiedTarget_previousTarget {required : OrderedSet String} {catalogs : Catalogs}
    {latest : SavedRoom} (hlatest : latestRoom required catalogs = .ok latest)
    {failedSnapshotId : Nat} {target : FixedTarget}
    (h : previousTarget latest catalogs failedSnapshotId = .ok target) :
    VerifiedTarget target := by
  obtain ⟨hne, hcatalogs, _⟩ := latestRoom_keys hlatest
  obtain ⟨_, _, hkeys, hshards⟩ := previousTarget_eq_ok h
  have hvalue : ∀ shard ∈ target.shards.values,
      verifySaved shard = .ok () ∧ shard.snapshotId = target.snapshotId := by
    intro shard hshard
    rw [OrderedMap.mem_values_iff] at hshard
    obtain ⟨name, hname⟩ := hshard
    obtain ⟨catalog, snapshot, _, hfind, hsaved⟩ := hshards name shard hname
    obtain ⟨hverify, _, hid, _⟩ := saved_eq_ok hsaved
    have hselected := List.find?_some hfind
    rw [decide_eq_true_eq] at hselected
    exact ⟨hverify, hid.trans hselected⟩
  refine ⟨⟨?_, fun shard hshard => (hvalue shard hshard).1⟩,
    fun shard hshard => (hvalue shard hshard).2⟩
  rw [hkeys, hcatalogs]
  exact hne

/-! ## Closing and resetting -/

section Close

variable (state : RecoveryState) (reason : ClosedReason)

@[simp] theorem close_retry : (state.close reason).2.retry = none := rfl

@[simp] theorem close_restartsUsed :
    (state.close reason).2.restartsUsed = state.restartsUsed := rfl

theorem close_target : (state.close reason).2.target = state.target.map fun target =>
    if target.phase.unfinished then { target with phase := .failed } else target := rfl

/-- A reset forgets a ready target and prepares any other one again. -/
theorem reset_target : state.reset.target =
    match state.target with
    | none => none
    | some target =>
      if target.phase = .ready then none else some { target with phase := .preparing } := rfl

end Close

theorem hasUnfinishedTarget_eq_false {state : RecoveryState} :
    state.hasUnfinishedTarget = false ↔
      ∀ target ∈ state.target, target.phase.unfinished = false := by
  unfold RecoveryState.hasUnfinishedTarget
  cases state.target <;> simp

/-! ## The decision after a failure -/

/-- The ways in which `decide` can end. -/
inductive Decided (state : RecoveryState) : Decision → RecoveryState → Prop
  /-- A closed recovery stays closed for the same reason. -/
  | stayClosed (reason : ClosedReason) (hclosed : state.closed = some reason) :
      Decided state (.stayClosed reason) state
  /-- The failure closes the recovery. -/
  | close (reason : ClosedReason) (hclosed : state.closed = none) :
      Decided state (.stayClosed reason) (state.close reason).2
  /-- One more restart of the current saves is reserved. -/
  | retry (notBeforeMs : Nat) (latest : SavedRoom) (hclosed : state.closed = none)
      (htarget : state.hasUnfinishedTarget = false)
      (hbudget : state.restartsUsed < currentRestarts) (hroom : VerifiedRoom latest) :
      Decided state (.retryCurrent (state.restartsUsed + 1) notBeforeMs latest)
        { state with
          restartsUsed := state.restartsUsed + 1
          retry := some ⟨notBeforeMs, false, latest⟩ }
  /-- The budget is spent and a rollback target is fixed. -/
  | fix (target : FixedTarget) (hclosed : state.closed = none)
      (hbudget : currentRestarts ≤ state.restartsUsed) (hnone : state.target = none)
      (hphase : target.phase = .preparing) (htarget : VerifiedTarget target) :
      Decided state (.restore target false) { state with retry := none, target := some target }

theorem spend_cases {state : RecoveryState} {failed : Option Nat} {required : OrderedSet String}
    {catalogs : Catalogs} {latest : SavedRoom} {nowMs : Nat} {decision : Decision}
    {after : RecoveryState} (hclosed : state.closed = none)
    (htarget : state.hasUnfinishedTarget = false)
    (hlatest : latestRoom required catalogs = .ok latest)
    (h : state.spend failed latest catalogs nowMs = .ok (decision, after)) :
    Decided state decision after ∧ (failed = none → ∀ target, decision ≠ .restore target false) := by
  unfold RecoveryState.spend at h
  by_cases hbudget : state.restartsUsed < currentRestarts
  · rw [if_pos hbudget, bind_eq_ok] at h
    obtain ⟨_, _, h⟩ := h
    cases h
    exact ⟨.retry _ latest hclosed htarget hbudget (verifiedRoom_latestRoom hlatest), by simp⟩
  · rw [if_neg hbudget] at h
    split at h
    · cases h
      exact ⟨.close _ hclosed, by simp⟩
    · rename_i failedSnapshotId
      by_cases hsome : state.target.isSome = true
      · rw [if_pos hsome] at h
        cases h
        exact ⟨.close _ hclosed, by simp⟩
      · rw [if_neg hsome] at h
        split at h
        · simp [panics] at h
        · cases h
          exact ⟨.close _ hclosed, by simp⟩
        · rename_i target hprevious
          cases h
          refine ⟨.fix target hclosed (by omega) ?_ (previousTarget_eq_ok hprevious).1
            (verifiedTarget_previousTarget hlatest hprevious), by simp⟩
          simpa using hsome

theorem decide_cases {state : RecoveryState} {failure : Failure} {required : OrderedSet String}
    {catalogs : Catalogs} {nowMs : Nat} {decision : Decision} {after : RecoveryState}
    (h : state.decide failure required catalogs nowMs = .ok (decision, after)) :
    Decided state decision after ∧
      ((∀ shards, failure ≠ .loadFailure shards) → ∀ target, decision ≠ .restore target false) := by
  unfold RecoveryState.decide at h
  split at h
  · rename_i reason hclosed
    cases h
    exact ⟨.stayClosed reason hclosed, by simp⟩
  rename_i hclosed
  split at h
  · cases h
    exact ⟨.close _ hclosed, by simp⟩
  by_cases htarget : state.hasUnfinishedTarget = true
  · rw [if_pos htarget] at h
    cases h
    exact ⟨.close _ hclosed, by simp⟩
  rw [if_neg htarget] at h
  rw [Bool.not_eq_true] at htarget
  split at h
  · simp [panics] at h
  · cases h
    exact ⟨.close _ hclosed, by simp⟩
  rename_i latest hlatest
  unfold RecoveryState.decideLatest at h
  split at h
  · cases h
    exact ⟨.close _ hclosed, by simp⟩
  split at h
  · cases h
    exact ⟨.close _ hclosed, by simp⟩
  rename_i failed hfailed
  rw [bind_eq_ok] at h
  obtain ⟨newest, _, h⟩ := h
  rw [bind_eq_ok] at h
  obtain ⟨oldest, _, h⟩ := h
  rw [bind_eq_ok] at h
  obtain ⟨gap, _, h⟩ := h
  split at h
  · cases h
    exact ⟨.close _ hclosed, by simp⟩
  obtain ⟨hdecided, hnone⟩ := spend_cases hclosed htarget hlatest h
  refine ⟨hdecided, ?_⟩
  intro hload
  apply hnone
  unfold failedSnapshotId at hfailed
  split at hfailed
  · exact absurd rfl (hload _)
  · cases hfailed
    rfl

/-! ## The decision at the start of an Agent -/

/-- The ways in which `resume_pending` can end. -/
inductive Resumed (state : RecoveryState) : Option Decision → RecoveryState → Prop
  /-- Nothing is pending. -/
  | nothing (hclosed : state.closed = none) (htarget : state.hasUnfinishedTarget = false)
      (hretry : state.retry = none) : Resumed state none state
  /-- An unfinished target is prepared again from the start. -/
  | replay (target : FixedTarget) (hclosed : state.closed = none)
      (htarget : state.target = some target) (hphase : target.phase.unfinished = true) :
      Resumed state (some (.restore { target with phase := .preparing } true))
        { state with target := some { target with phase := .preparing } }
  /-- A reserved retry that was not started is handed out again. -/
  | pending (retry : CurrentRetry) (hclosed : state.closed = none)
      (htarget : state.hasUnfinishedTarget = false) (hretry : state.retry = some retry)
      (hstarted : retry.started = false) :
      Resumed state (some (.retryCurrent state.restartsUsed retry.notBeforeMs retry.shards)) state
  /-- The recovery is closed, or is closed now. -/
  | closed (reason : ClosedReason) (after : RecoveryState)
      (h : Decided state (.stayClosed reason) after) :
      Resumed state (some (.stayClosed reason)) after
  /-- A retry that was started counts as a failed one. -/
  | failed (decision : Decision) (after : RecoveryState) (hretry : ∃ retry ∈ state.retry,
      retry.started = true) (h : Decided state decision after)
      (hfresh : ∀ target, decision ≠ .restore target false) :
      Resumed state (some decision) after

theorem resumeTarget_cases {state : RecoveryState} {target : FixedTarget}
    {required : OrderedSet String} {catalogs : Catalogs} {decision : Option Decision}
    {after : RecoveryState} (hclosed : state.closed = none) (htarget : state.target = some target)
    (hphase : target.phase.unfinished = true)
    (h : state.resumeTarget target required catalogs = .ok (decision, after)) :
    Resumed state decision after := by
  unfold RecoveryState.resumeTarget at h
  split at h
  · simp [panics] at h
  · rename_i reason _
    cases h
    exact .closed reason _ (.close reason hclosed)
  · cases h
    exact .replay target hclosed htarget hphase

theorem resumeRetry_cases {state : RecoveryState} {retry : CurrentRetry}
    {required : OrderedSet String} {catalogs : Catalogs} {nowMs : Nat}
    {decision : Option Decision} {after : RecoveryState} (hclosed : state.closed = none)
    (htarget : state.hasUnfinishedTarget = false) (hretry : state.retry = some retry)
    (h : state.resumeRetry retry required catalogs nowMs = .ok (decision, after)) :
    Resumed state decision after := by
  unfold RecoveryState.resumeRetry at h
  by_cases hstarted : retry.started = true
  · rw [if_pos hstarted, bind_eq_ok] at h
    obtain ⟨⟨decided, state'⟩, hdecide, h⟩ := h
    cases h
    obtain ⟨hdecided, hfresh⟩ := decide_cases hdecide
    exact .failed decided state' ⟨retry, hretry, hstarted⟩ hdecided (hfresh (by simp))
  · rw [if_neg hstarted] at h
    split at h
    · simp [panics] at h
    · cases h
      exact .closed _ _ (.close _ hclosed)
    · split at h
      · cases h
        exact .closed _ _ (.close _ hclosed)
      · cases h
        exact .pending retry hclosed htarget hretry (Bool.eq_false_of_not_eq_true hstarted)

theorem resumePending_cases {state : RecoveryState} {required : OrderedSet String}
    {catalogs : Catalogs} {nowMs : Nat} {decision : Option Decision} {after : RecoveryState}
    (h : state.resumePending required catalogs nowMs = .ok (decision, after)) :
    Resumed state decision after := by
  unfold RecoveryState.resumePending at h
  split at h
  · rename_i reason hclosed
    cases h
    exact .closed reason _ (.stayClosed reason hclosed)
  rename_i hclosed
  split at h
  · rename_i target hfilter
    rw [Option.filter_eq_some_iff] at hfilter
    exact resumeTarget_cases hclosed hfilter.1 hfilter.2 h
  rename_i hfilter
  have htarget : state.hasUnfinishedTarget = false := by
    rw [hasUnfinishedTarget_eq_false]
    intro target htarget
    rw [Option.filter_eq_none_iff] at hfilter
    exact Bool.eq_false_of_not_eq_true (hfilter target htarget)
  split at h
  · rename_i retry hretry
    exact resumeRetry_cases hclosed htarget hretry h
  · rename_i hretry
    cases h
    exact .nothing hclosed htarget hretry

end DstServer.Recovery
