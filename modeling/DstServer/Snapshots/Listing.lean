import DstServer.Lib.Paging
import DstServer.Recovery.Model

/-!
# Pages of the native snapshots

The model of `list_snapshots` in `world_queries.lua`.  The native call has
no cursor: it returns the newest snapshots up to a number, in any order.
The query asks for a longer and longer prefix until the page is sure.
-/

namespace DstServer.Snapshots

open Lib Lib.Outcome Lib.Paging Recovery

/-- The snapshots of a session, newest first, and `TheNet:ListSnapshots` on
them. -/
structure Enumeration where
  entries : List Snapshot
  descending : Descending Snapshot.snapshotId entries
  list : Nat → List Snapshot × Bool
  /-- The newest ones are listed, in any order. -/
  newest : ∀ fetch, (list fetch).1.Perm (entries.take fetch)
  more : ∀ fetch, (list fetch).2 = decide (fetch < entries.length)

/-- What a page is about. -/
structure Listing where
  sessionId : String
  page : Page Snapshot
  deriving DecidableEq, Repr

/-- The longest prefix that is read. -/
def maxFetch : Nat := 6400

/-- The entries of a prefix that belong to the page, newest first. -/
def selected (before : Option Nat) (snapshots : List Snapshot) : List Snapshot :=
  (below Snapshot.snapshotId before snapshots).mergeSort fun a b => b.snapshotId ≤ a.snapshotId

/-- The loop over the prefixes. -/
def search (native : Enumeration) (limit : Nat) (before : Option Nat) (fetch : Nat)
    (hfetch : 0 < fetch) : Outcome String (Page Snapshot) :=
  let (snapshots, hasMore) := native.list fetch
  let result := selected before snapshots
  if before = none ∨ limit < result.length ∨ hasMore = false then
    pure ⟨result.take limit, hasMore || decide (limit < result.length)⟩
  else if hlast : maxFetch ≤ fetch then fail "snapshot catalog exceeds 6400 entries"
  else search native limit before (min maxFetch (fetch * 2)) (by unfold maxFetch; omega)
termination_by maxFetch - fetch
decreasing_by
  unfold maxFetch at hlast ⊢
  omega

/-- `queries.list_snapshots` in a world with this session. -/
def listSnapshots (world : Option String) (native : Enumeration) (limit : Nat)
    (before : Option Nat) : Outcome String Listing := do
  let session ← orError world "world metadata unavailable"
  ensure (session ≠ "") "session_identifier must be a non-empty string"
  ensure (1 ≤ limit) "limit must be an integer >= 1"
  ensure (limit ≤ 100) "snapshot limit must not exceed 100"
  let page ← search native limit before (limit + 1) (Nat.succ_pos limit)
  pure ⟨session, page⟩

/-! ## What a page is -/

theorem Descending.eq_of_perm {entries other : List Snapshot}
    (h : Descending Snapshot.snapshotId entries) (hother : Descending Snapshot.snapshotId other)
    (hperm : entries.Perm other) : entries = other := by
  refine hperm.eq_of_pairwise (fun a b _ _ hab hba => ?_) h hother
  omega

/-- The entries of a prefix are those of the newest snapshots. -/
theorem selected_list (native : Enumeration) (before : Option Nat) (fetch : Nat) :
    selected before (native.list fetch).1 =
      below Snapshot.snapshotId before (native.entries.take fetch) := by
  have hperm : (selected before (native.list fetch).1).Perm
      (below Snapshot.snapshotId before (native.entries.take fetch)) :=
    (List.mergeSort_perm _ _).trans ((native.newest fetch).filter _)
  have hfirst : Descending Snapshot.snapshotId
      (below Snapshot.snapshotId before (native.entries.take fetch)) :=
    Lib.Paging.Descending.below (native.descending.sublist (List.take_sublist _ _)) before
  have hsorted : (selected before (native.list fetch).1).Pairwise
      fun a b => b.snapshotId ≤ a.snapshotId := by
    have hall : (selected before (native.list fetch).1).Pairwise
        fun a b => decide (b.snapshotId ≤ a.snapshotId) = true :=
      List.pairwise_mergeSort
        (fun a b c hab hbc => by
          rw [decide_eq_true_eq] at *
          exact le_trans hbc hab)
        (fun a b => by
          rw [Bool.or_eq_true, decide_eq_true_eq, decide_eq_true_eq]
          exact le_total _ _)
        (below Snapshot.snapshotId before (native.list fetch).1)
    exact hall.imp fun h => of_decide_eq_true h
  have hdistinct : (selected before (native.list fetch).1).Pairwise
      fun a b => a.snapshotId ≠ b.snapshotId := by
    refine (hperm.pairwise_iff fun h => Ne.symm h).2 (hfirst.imp fun h => ?_)
    exact (ne_of_lt h).symm
  have hdescending : Descending Snapshot.snapshotId (selected before (native.list fetch).1) :=
    hsorted.imp₂ (fun a b hle hne => lt_of_le_of_ne hle hne.symm) hdistinct
  exact Descending.eq_of_perm hdescending hfirst hperm

/-- The page that the query is to return. -/
def Enumeration.page (native : Enumeration) (limit : Nat) (before : Option Nat) : Page Snapshot :=
  let entries := below Snapshot.snapshotId before native.entries
  ⟨entries.take limit, decide (limit < entries.length)⟩

/-- The loop ends with the page, whatever prefix it begins with. -/
theorem search_eq (native : Enumeration) (hsize : native.entries.length ≤ maxFetch) {limit : Nat}
    {before : Option Nat} {fetch : Nat} (hfetch : 0 < fetch) (hlimit : limit < fetch) :
    search native limit before fetch hfetch = .ok (native.page limit before) := by
  induction hleft : maxFetch - fetch using Nat.strong_induction_on generalizing fetch with
  | _ left ih =>
    have hsplit : below Snapshot.snapshotId before native.entries =
        below Snapshot.snapshotId before (native.entries.take fetch) ++
          below Snapshot.snapshotId before (native.entries.drop fetch) := by
      rw [← below_append, List.take_append_drop]
    have hlength := congrArg List.length hsplit
    rw [List.length_append] at hlength
    rw [search]
    simp only [selected_list, native.more]
    split_ifs with hsure hlast
    · show Except.ok _ = Except.ok _
      unfold Enumeration.page
      refine congrArg Except.ok ?_
      rcases hsure with rfl | hlong | hwhole
      · simp only [below_none, List.length_take, Page.mk.injEq, List.take_take]
        constructor
        · congr 1
          omega
        · rw [Bool.eq_iff_iff, Bool.or_eq_true, decide_eq_true_eq, decide_eq_true_eq,
            decide_eq_true_eq]
          omega
      · rw [Page.mk.injEq]
        constructor
        · rw [hsplit, List.take_append_of_le_length (le_of_lt hlong)]
        · rw [decide_eq_true hlong, Bool.or_true, eq_comm, decide_eq_true_eq]
          omega
      · have hall : native.entries.take fetch = native.entries := by
          rw [decide_eq_false_iff_not] at hwhole
          exact List.take_of_length_le (by omega)
        rw [hall, hwhole, Bool.false_or]
    · rw [not_or, not_or, decide_eq_false_iff_not, not_not] at hsure
      omega
    · have hbelow : fetch < maxFetch := by omega
      have hnext : fetch < min maxFetch (fetch * 2) := by
        unfold maxFetch at hbelow ⊢
        omega
      exact ih (maxFetch - min maxFetch (fetch * 2)) (by omega) (by omega) (by omega) rfl

theorem serves_page (native : Enumeration) {limit : Nat} (hlimit : 1 ≤ limit) :
    Serves Snapshot.snapshotId native.entries (native.page limit) :=
  fun _ => ⟨_, begins_take hlimit⟩

/-- Each page has the newest entries below the cursor and says whether there
are others, and the pages have every snapshot once. -/
theorem list_snapshots_exact (session : String) (hsession : session ≠ "") (native : Enumeration)
    (hsize : native.entries.length ≤ 6400) (limit : Nat) (hlimit : 1 ≤ limit ∧ limit ≤ 100) :
    (∀ before, listSnapshots (some session) native limit before =
      .ok ⟨session, (below Snapshot.snapshotId before native.entries).take limit,
        decide (limit < (below Snapshot.snapshotId before native.entries).length)⟩) ∧
      ∀ fuel, native.entries.length < fuel →
        follow Snapshot.snapshotId (fun before => do
          let listing ← listSnapshots (some session) native limit before
          pure listing.page) fuel none = .ok native.entries := by
  have hlist : ∀ before, listSnapshots (some session) native limit before =
      .ok ⟨session, native.page limit before⟩ := by
    intro before
    have hworld : orError (some session) "world metadata unavailable" = .ok session := rfl
    have hpage : search native limit before (limit + 1) (Nat.succ_pos limit) =
        .ok (native.page limit before) := search_eq native hsize _ (Nat.lt_succ_self limit)
    rw [listSnapshots, hworld, ok_bind, ensure_of hsession, ok_bind, ensure_of hlimit.1, ok_bind,
      ensure_of hlimit.2, ok_bind, hpage, ok_bind]
    rfl
  constructor
  · exact hlist
  · intro fuel hfuel
    have hfollow : follow Snapshot.snapshotId (fun before => do
        let listing ← listSnapshots (some session) native limit before
        pure listing.page) fuel none = .ok (below Snapshot.snapshotId none native.entries) :=
      follow_eq native.descending (serves_page native hlimit.1)
        (fun before => by rw [hlist]; rfl) fuel none (by rwa [below_none])
    rwa [below_none] at hfollow

/-- The snapshot with this number; every third one has no world file. -/
def sampleSnapshot (id : Nat) : Snapshot :=
  ⟨id, if id % 3 = 0 then none else some ("session/A/" ++ toString id)⟩

/-- Two hundred and fifty snapshots, listed oldest first. -/
def sampleEnumeration : Enumeration where
  entries := (List.range 250).map fun age => sampleSnapshot (250 - age)
  descending := by
    refine List.pairwise_map.2 (List.pairwise_lt_range.imp_of_mem fun {first second} _ hsecond hlt => ?_)
    have hbound := List.mem_range.1 hsecond
    show 250 - second < 250 - first
    omega
  list fetch :=
    (((List.range 250).map fun age => sampleSnapshot (250 - age)).take fetch |>.reverse,
      decide (fetch < 250))
  newest _ := List.reverse_perm _
  more _ := by rw [List.length_map, List.length_range]

/-- The snapshots below the twentieth one are behind the first prefix, and
behind the second one. -/
theorem list_snapshots_exact_sample :
    listSnapshots (some "A") sampleEnumeration 100 (some 20) =
        .ok ⟨"A", ⟨(List.range 19).map fun age => sampleSnapshot (19 - age), false⟩⟩ ∧
      ∀ fuel, sampleEnumeration.entries.length < fuel →
        follow Snapshot.snapshotId (fun before => do
          let listing ← listSnapshots (some "A") sampleEnumeration 100 before
          pure listing.page) fuel none = .ok sampleEnumeration.entries := by
  have hsize : sampleEnumeration.entries.length = 250 := by
    unfold sampleEnumeration
    rw [List.length_map, List.length_range]
  obtain ⟨hpage, hfollow⟩ := list_snapshots_exact "A" (by decide) sampleEnumeration (by omega) 100
    (by decide)
  have hbelow : below Snapshot.snapshotId (some 20) sampleEnumeration.entries =
      (List.range 19).map fun age => sampleSnapshot (19 - age) := by
    decide +kernel
  refine ⟨?_, hfollow⟩
  rw [hpage, hbelow]
  rfl

end DstServer.Snapshots
