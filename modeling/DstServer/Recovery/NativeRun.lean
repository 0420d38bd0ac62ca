import DstServer.Recovery.Native

/-!
# What a native rollback does

`scan_eq` says which entries the loop over the pages reads and what it finds
in them, `Applicable` what `run` asks of a request, and `run_cases` writes
out its log.  A truncation leaves the target as the newest snapshot, but a
repeated run reads further behind it than the first one: `Rereadable` is
what that needs of the old entries, and `rollback_refused_again` is a
catalog without it.

`rollback_application` puts them together: a truncation is justified, a
receipt is true, the game is shut down, and when the request can be repeated
after a crash at any point.
-/

namespace DstServer.Recovery

open Lib Lib.Outcome

variable {files : WorldFiles} {native : Native} {session file : String} {id : Nat}

/-! ## The log of a run -/

/-- The record that a run ends with. -/
def closing (named : Option String) (outcome : Outcome String Record) : Record :=
  match outcome with
  | .ok record => record
  | .error fault => failure named fault

/-- The end of the log of a run. -/
def ending (named : Option String) (outcome : Outcome String Record) (native : Native) :
    List (NativeEffect × Native) :=
  [(.emit (closing named outcome), native), (.shutdown, native)]

theorem finish_eq (named : Option String) (outcome : Outcome String Record) (native : Native) :
    finish named outcome native =
      (ending named outcome native, some (outcome.toOption.isSome, native)) := by
  cases outcome with
  | ok record => rfl
  | error fault => rfl

/-- What an apply request leads to: the session, and whether the target is still to be selected. -/
def chosen (files : WorldFiles) (native : Native) (session : String) (id : Nat) (file : String) :
    Outcome String (String × Bool) := do
  let found ← checkSession native (.apply session id file)
  let latest := files.select native.catalog
  let sought ← scan native.catalog (.apply session id file) latest fetches {}
  let changed ← choose id file latest sought
  pure (found, changed)

/-- The native state after the truncation. -/
def Native.truncate (native : Native) (id : Nat) : Native :=
  { native with catalog := native.catalog.truncate id }

theorem chosen_eq_ok {found : String} {changed : Bool} :
    chosen files native session id file = .ok (found, changed) ↔
      checkSession native (.apply session id file) = .ok found ∧
        (scan native.catalog (.apply session id file) (files.select native.catalog) fetches {} >>=
          choose id file (files.select native.catalog)) = .ok changed := by
  simp only [chosen, bind_eq_ok, pure_eq_ok, Except.ok.injEq, Prod.mk.injEq]
  constructor
  · rintro ⟨_, hsession, sought, hsought, _, hchoice, rfl, rfl⟩
    exact ⟨hsession, sought, hsought, hchoice⟩
  · rintro ⟨hsession, sought, hsought, hchoice⟩
    exact ⟨found, hsession, sought, hsought, changed, hchoice, rfl, rfl⟩

theorem run_of_error {fault : Fault String} (h : chosen files native session id file = .error fault) :
    run files (.apply session id file) native =
      (ending (namedSession native (.apply session id file)) (.error fault) native,
        some (false, native)) := by
  rw [chosen] at h
  rw [run, Journal.read_bind]
  dsimp only
  cases hsession : checkSession native (.apply session id file) with
  | error fault' =>
    rw [hsession] at h
    cases h
    exact finish_eq _ _ _
  | ok found =>
    rw [hsession, ok_bind] at h
    dsimp only at h ⊢
    rw [← bind_assoc] at h
    cases hchoice : scan native.catalog (.apply session id file) (files.select native.catalog) fetches {} >>=
        choose id file (files.select native.catalog) with
    | error fault' =>
      rw [hchoice] at h
      cases h
      exact finish_eq _ _ _
    | ok changed =>
      rw [hchoice] at h
      cases h

theorem run_of_ok {found : String} (h : chosen files native session id file = .ok (found, false)) :
    run files (.apply session id file) native =
      (ending (namedSession native (.apply session id file))
        (confirm files native found id file false) native,
        some ((confirm files native found id file false).toOption.isSome, native)) := by
  obtain ⟨hsession, hchoice⟩ := chosen_eq_ok.1 h
  rw [run, Journal.read_bind]
  dsimp only
  rw [hsession]
  dsimp only
  rw [hchoice]
  exact finish_eq _ _ _

theorem run_of_change {found : String} (h : chosen files native session id file = .ok (found, true)) :
    run files (.apply session id file) native =
      ((.truncate found id, native.truncate id) ::
        ending (namedSession native (.apply session id file))
          (confirm files (native.truncate id) found id file true) (native.truncate id),
        some ((confirm files (native.truncate id) found id file true).toOption.isSome,
          native.truncate id)) := by
  obtain ⟨hsession, hchoice⟩ := chosen_eq_ok.1 h
  rw [run, Journal.read_bind]
  dsimp only
  rw [hsession]
  dsimp only
  rw [hchoice]
  dsimp only
  rw [if_pos rfl, Journal.emit_bind, Journal.read_bind, finish_eq]
  rfl

/-! ## What the loop finds -/

/-- How many entries the loop has read when it ends: pages are read until one has the target or all
there is. -/
def NativeCatalog.reach (catalog : NativeCatalog) (id : Nat) : List Nat → Nat → Nat
  | [], size => size
  | fetch :: rest, _ =>
    if (catalog.snapshots.take fetch).any (·.snapshotId = id) ∨ catalog.snapshots.length ≤ fetch then
      fetch
    else catalog.reach id rest fetch

/-- The entries that a request for this target reads. -/
def NativeCatalog.readFor (catalog : NativeCatalog) (id : Nat) : List Snapshot :=
  catalog.snapshots.take (catalog.reach id fetches 0)

section Scan

variable {catalog : NativeCatalog} {request : Request} {latest : Option String} {sought : Sought}

/-- The page has the target that is asked for. -/
def isTarget (request : Request) (snapshot : Snapshot) : Bool :=
  some snapshot.snapshotId = request.snapshotId

/-- The snapshot has the latest world file. -/
def isCurrent (latest : Option String) (snapshot : Snapshot) : Bool :=
  snapshot.worldFile.isSome = true ∧ snapshot.worldFile = latest

/-- What a page leaves: the last of each kind. -/
def Sought.after (request : Request) (latest : Option String) (sought : Sought)
    (page : List Snapshot) : Sought where
  target := (page.filter (isTarget request)).getLast?.or sought.target
  current := (page.filter (isCurrent latest)).getLast?.or sought.current

theorem getLast?_filter_cons {α : Type} (p : α → Bool) (a : α) (l : List α) (before : Option α) :
    ((a :: l).filter p).getLast?.or before =
      (l.filter p).getLast?.or (if p a then some a else before) := by
  rw [List.filter_cons]
  cases h : p a with
  | false => simp
  | true =>
    cases hlist : l.filter p with
    | nil => simp
    | cons b rest => simp [List.getLast?_cons]

/-- A page is taken when all of its entries are good. -/
theorem foldlM_inspect (request : Request) (latest : Option String) (sought : Sought)
    (page : List Snapshot) :
    page.foldlM (inspect request latest) sought =
      (ensure (∀ snapshot ∈ page, snapshot.valid = true) "invalid_catalog" >>= fun _ =>
        pure (sought.after request latest page) : Outcome String Sought) := by
  induction page generalizing sought with
  | nil =>
    rw [ensure_of (by simp)]
    rfl
  | cons snapshot rest ih =>
    rw [List.foldlM_cons, inspect]
    by_cases hvalid : snapshot.valid = true
    · rw [ensure_of hvalid, ok_bind, pure_eq_ok, ok_bind, ih]
      simp only [List.forall_mem_cons, hvalid, true_and, Sought.after, getLast?_filter_cons, isTarget,
        isCurrent, decide_eq_true_eq]
    · rw [ensure_of_not hvalid, ensure_of_not fun h => hvalid (h snapshot List.mem_cons_self)]
      rfl

/-- A page that begins with the page before it leaves what it would leave alone. -/
theorem Sought.after_after {page more : List Snapshot} (h : page <+: more) :
    (sought.after request latest page).after request latest more =
      sought.after request latest more := by
  obtain ⟨added, rfl⟩ := h
  have hlast : ∀ (p : Snapshot → Bool) (before : Option Snapshot),
      ((page ++ added).filter p).getLast?.or ((page.filter p).getLast?.or before) =
        ((page ++ added).filter p).getLast?.or before := by
    intro p before
    rw [List.filter_append, List.getLast?_append, Option.or_assoc, Option.or_assoc, ← Option.or_assoc,
      ← Option.or_assoc, Option.or_assoc]
    cases (page.filter p).getLast? with
    | none => simp
    | some last => simp
  rw [Sought.after, Sought.after, Sought.after, Sought.mk.injEq]
  exact ⟨hlast _ _, hlast _ _⟩

theorem reach_ge {sizes : List Nat} {size : Nat} (id : Nat) (hsorted : (size :: sizes).Pairwise (· ≤ ·)) :
    size ≤ catalog.reach id sizes size := by
  induction sizes generalizing size with
  | nil => exact le_rfl
  | cons fetch rest ih =>
    obtain ⟨hsize, hrest⟩ := List.pairwise_cons.1 hsorted
    have hle := hsize fetch List.mem_cons_self
    rw [NativeCatalog.reach]
    split
    · exact hle
    · exact hle.trans (ih hrest)

/-- The loop behind a page of good entries without the target. -/
theorem scan_from {session file : String} {id size : Nat} {sizes : List Nat}
    (hsorted : (size :: sizes).Pairwise (· ≤ ·))
    (hvalid : ∀ snapshot ∈ catalog.snapshots.take size, snapshot.valid = true) :
    scan catalog (.apply session id file) latest sizes
        (({} : Sought).after (.apply session id file) latest (catalog.snapshots.take size)) =
      (ensure (∀ snapshot ∈ catalog.snapshots.take (catalog.reach id sizes size),
          snapshot.valid = true) "invalid_catalog" >>= fun _ =>
        pure (({} : Sought).after (.apply session id file) latest
          (catalog.snapshots.take (catalog.reach id sizes size))) : Outcome String Sought) := by
  induction sizes generalizing size with
  | nil =>
    rw [scan, NativeCatalog.reach, ensure_of hvalid]
    rfl
  | cons fetch rest ih =>
    obtain ⟨hsize, hrest⟩ := List.pairwise_cons.1 hsorted
    have hprefix : catalog.snapshots.take size <+: catalog.snapshots.take fetch :=
      List.take_prefix_take_left (hsize fetch List.mem_cons_self)
    have hends : ((({} : Sought).after (.apply session id file) latest
        (catalog.snapshots.take fetch)).target.isSome = true ∨
          decide (fetch < catalog.snapshots.length) = false) ↔
        ((catalog.snapshots.take fetch).any (·.snapshotId = id) = true ∨
          catalog.snapshots.length ≤ fetch) := by
      simp [Sought.after, isTarget, Request.snapshotId]
    rw [scan, NativeCatalog.list, foldlM_inspect, Sought.after_after hprefix, NativeCatalog.reach]
    by_cases hpage : ∀ snapshot ∈ catalog.snapshots.take fetch, snapshot.valid = true
    · rw [ensure_of hpage, ok_bind, pure_eq_ok, ok_bind]
      by_cases hstop : (catalog.snapshots.take fetch).any (·.snapshotId = id) = true ∨
          catalog.snapshots.length ≤ fetch
      · rw [if_pos (hends.2 hstop), if_pos hstop, ensure_of hpage, ok_bind]
      · rw [if_neg fun h => hstop (hends.1 h), if_neg hstop]
        exact ih hrest hpage
    · have hmore : ¬∀ snapshot ∈ catalog.snapshots.take
          (if (catalog.snapshots.take fetch).any (·.snapshotId = id) = true ∨
            catalog.snapshots.length ≤ fetch then fetch else catalog.reach id rest fetch),
          snapshot.valid = true := by
        intro hall
        refine hpage fun snapshot hmem => hall snapshot ?_
        refine (List.take_subset_take_left _ ?_) hmem
        split
        · exact le_rfl
        · exact reach_ge id hrest
      rw [ensure_of_not hpage, ensure_of_not hmore]
      rfl

/-- The loop takes what it reads when all of it is good. -/
theorem scan_eq (catalog : NativeCatalog) (session file : String) (id : Nat)
    (latest : Option String) :
    scan catalog (.apply session id file) latest fetches {} =
      (ensure (∀ snapshot ∈ catalog.readFor id, snapshot.valid = true) "invalid_catalog" >>= fun _ =>
        pure (({} : Sought).after (.apply session id file) latest (catalog.readFor id)) :
          Outcome String Sought) :=
  @scan_from catalog latest session file id 0 fetches (by decide) (by simp)

end Scan

/-! ## When a request applies -/

/-- What `run` asks of an apply request and of the native state: the session is the one asked for, all
of what is read is good, the target is there with its world file, and so is the latest world, which is
not older than the target. -/
structure Applicable (files : WorldFiles) (native : Native) (session : String) (id : Nat)
    (file : String) : Prop where
  request : (Request.apply session id file).validate = true
  unloaded : native.worldLoaded = false
  session : native.session = some session
  readable : ∀ snapshot ∈ native.catalog.readFor id, snapshot.valid = true
  target : ∃ target ∈ native.catalog.readFor id, target.snapshotId = id ∧
    target.worldFile = some file
  current : ∃ current ∈ native.catalog.readFor id,
    isCurrent (files.select native.catalog) current = true
  newer : ∀ current ∈ native.catalog.readFor id,
    isCurrent (files.select native.catalog) current = true → id ≤ current.snapshotId

/-- The last entry of a kind is the oldest one. -/
theorem oldest_of_getLast? {l : List Snapshot} {p : Snapshot → Bool} {oldest : Snapshot}
    (hsorted : l.Pairwise fun a b => b.snapshotId < a.snapshotId)
    (h : (l.filter p).getLast? = some oldest) :
    (oldest ∈ l ∧ p oldest = true) ∧
      ∀ snapshot ∈ l, p snapshot = true → oldest.snapshotId ≤ snapshot.snapshotId := by
  obtain ⟨before, hlist⟩ := List.getLast?_eq_some_iff.1 h
  refine ⟨List.mem_filter.1 (List.mem_of_getLast? h), fun snapshot hmem hp => ?_⟩
  have hkind : snapshot ∈ l.filter p := List.mem_filter.2 ⟨hmem, hp⟩
  have hordered := hsorted.filter p
  rw [hlist] at hkind hordered
  rcases List.mem_append.1 hkind with hbefore | hlast
  · exact ((List.pairwise_append.1 hordered).2.2 snapshot hbefore oldest
      (List.mem_singleton_self _)).le
  · rw [List.mem_singleton.1 hlast]

theorem exists_getLast? {l : List Snapshot} {p : Snapshot → Bool}
    (h : ∃ snapshot ∈ l, p snapshot = true) : ∃ oldest, (l.filter p).getLast? = some oldest := by
  obtain ⟨snapshot, hmem, hp⟩ := h
  have hne : l.filter p ≠ [] := List.ne_nil_of_mem (List.mem_filter.2 ⟨hmem, hp⟩)
  exact ⟨_, List.getLast?_eq_some_getLast hne⟩

theorem NativeCatalog.readFor_sorted (catalog : NativeCatalog) (id : Nat) :
    (catalog.readFor id).Pairwise fun a b => b.snapshotId < a.snapshotId :=
  catalog.newestFirst.sublist (List.take_sublist _ _)

/-- Two entries with one number are the same. -/
theorem eq_of_snapshotId {l : List Snapshot} {a b : Snapshot}
    (hsorted : l.Pairwise fun a b => b.snapshotId < a.snapshotId) (ha : a ∈ l) (hb : b ∈ l)
    (h : a.snapshotId = b.snapshotId) : a = b := by
  have hdistinct : (l.map Snapshot.snapshotId).Nodup :=
    List.pairwise_map.2 (hsorted.imp fun hlt => Nat.ne_of_gt hlt)
  exact List.inj_on_of_nodup_map hdistinct ha hb h

theorem checkSession_eq_ok {found : String} :
    checkSession native (.apply session id file) = .ok found ↔
      (Request.apply session id file).validate = true ∧ native.worldLoaded = false ∧
        native.session = some session ∧ found = session := by
  simp only [checkSession, bind_eq_ok, assert_eq_ok, ensure_eq_ok, orError_eq_ok,
    Option.filter_eq_some_iff, pure_eq_ok, Except.ok.injEq]
  constructor
  · rintro ⟨_, hvalid, _, hunloaded, _, ⟨hsession, _⟩, _, hexpected, rfl⟩
    have hsame := hexpected session rfl
    exact ⟨hvalid, hunloaded, hsame ▸ hsession, hsame.symm⟩
  · rintro ⟨hvalid, hunloaded, hsession, rfl⟩
    have htext : isText found 128 = true := by
      unfold Request.validate at hvalid
      rw [Bool.and_eq_true] at hvalid
      simpa [Request.sessionId] using hvalid.1
    refine ⟨(), hvalid, (), hunloaded, found, ⟨hsession, htext⟩, (), ?_, rfl⟩
    intro expected hexpected
    exact (Option.some.inj hexpected).symm

/-- The latest world is another entry than the target when it has another file. -/
theorem Applicable.differs (h : Applicable files native session id file)
    (hselect : files.select native.catalog ≠ some file) {current : Snapshot}
    (hmem : current ∈ native.catalog.readFor id)
    (hlatest : isCurrent (files.select native.catalog) current = true) : current.snapshotId ≠ id := by
  intro heq
  obtain ⟨target, htarget, hid, hfile⟩ := h.target
  have hsame := eq_of_snapshotId (native.catalog.readFor_sorted id) hmem htarget (heq.trans hid.symm)
  rw [hsame] at hlatest
  exact hselect ((of_decide_eq_true hlatest).2.symm.trans hfile)

/-- The checks of an apply request accept exactly the applicable ones. -/
theorem chosen_iff {found : String} {changed : Bool} :
    chosen files native session id file = .ok (found, changed) ↔
      Applicable files native session id file ∧ found = session ∧
        changed = decide (files.select native.catalog ≠ some file) := by
  rw [chosen_eq_ok, checkSession_eq_ok, scan_eq]
  have hsorted := native.catalog.readFor_sorted id
  constructor
  · rintro ⟨⟨hvalid, hunloaded, hsession, rfl⟩, hchoice⟩
    obtain ⟨sought, hscan, hchoose⟩ := bind_eq_ok.1 hchoice
    obtain ⟨_, hreadable, hsought⟩ := bind_eq_ok.1 hscan
    cases hsought
    simp only [choose, Sought.after, Option.or_none, bind_eq_ok, ensure_eq_ok, orError_eq_ok, pure_eq_ok,
      Except.ok.injEq] at hchoose
    obtain ⟨target, htarget, _, hfile, current, hcurrent, _, hle, _, _, rfl⟩ := hchoose
    obtain ⟨⟨htargetMem, hid⟩, _⟩ := oldest_of_getLast? hsorted htarget
    obtain ⟨⟨hcurrentMem, hlatest⟩, holdest⟩ := oldest_of_getLast? hsorted hcurrent
    have hsame : target.snapshotId = id := by
      simpa [isTarget, Request.snapshotId] using hid
    refine ⟨⟨hvalid, hunloaded, hsession, ensure_eq_ok.1 hreadable, ⟨target, htargetMem, hsame, hfile⟩,
      ⟨current, hcurrentMem, hlatest⟩, ?_⟩, rfl, rfl⟩
    intro snapshot hmem hkind
    exact hle.trans (holdest snapshot hmem hkind)
  · rintro ⟨h, rfl, rfl⟩
    refine ⟨⟨h.request, h.unloaded, h.session, rfl⟩, ?_⟩
    obtain ⟨target, htargetMem, hid, hfile⟩ := h.target
    let request : Request := .apply found id file
    obtain ⟨other, hother⟩ := exists_getLast? (l := native.catalog.readFor id) (p := isTarget request)
      ⟨target, htargetMem, by simp [request, isTarget, Request.snapshotId, hid]⟩
    obtain ⟨⟨hotherMem, hotherId⟩, _⟩ := oldest_of_getLast? hsorted hother
    have hsame : other = target := by
      apply eq_of_snapshotId hsorted hotherMem htargetMem
      rw [hid]
      simpa [request, isTarget, Request.snapshotId] using hotherId
    rw [hsame] at hother
    obtain ⟨current, hcurrent⟩ := exists_getLast? h.current
    obtain ⟨⟨hcurrentMem, hlatest⟩, _⟩ := oldest_of_getLast? hsorted hcurrent
    have hle := h.newer current hcurrentMem hlatest
    have hdiffer : decide (files.select native.catalog ≠ some file) = false ∨
        current.snapshotId ≠ id := by
      by_cases hselect : files.select native.catalog = some file
      · exact Or.inl (by simp [hselect])
      · exact Or.inr (h.differs hselect hcurrentMem hlatest)
    rw [ensure_of h.readable, ok_bind, pure_eq_ok, ok_bind]
    simp only [choose, Sought.after, Option.or_none, bind_eq_ok, ensure_eq_ok, orError_eq_ok, pure_eq_ok]
    exact ⟨target, hother, (), hfile, current, hcurrent, (), hle, (), hdiffer, trivial⟩

/-! ## The target after a truncation -/

/-- The target is the newest snapshot that a truncation leaves. -/
theorem truncate_eq_cons {catalog : NativeCatalog} {target : Snapshot}
    (h : target ∈ catalog.snapshots) :
    ∃ rest, (catalog.truncate target.snapshotId).snapshots = target :: rest ∧
      ∀ snapshot ∈ rest, snapshot.snapshotId ≠ target.snapshotId := by
  have hmem : target ∈ (catalog.truncate target.snapshotId).snapshots :=
    List.mem_filter.2 ⟨h, by simp⟩
  have hle : ∀ snapshot ∈ (catalog.truncate target.snapshotId).snapshots,
      snapshot.snapshotId ≤ target.snapshotId :=
    fun snapshot hsnapshot => by simpa using (List.mem_filter.1 hsnapshot).2
  have hsorted := (catalog.truncate target.snapshotId).newestFirst
  cases hlist : (catalog.truncate target.snapshotId).snapshots with
  | nil =>
    rw [hlist] at hmem
    cases hmem
  | cons first rest =>
    rw [hlist] at hmem hle hsorted
    have hfirst := hle first List.mem_cons_self
    obtain ⟨hbefore, _⟩ := List.pairwise_cons.1 hsorted
    rcases List.mem_cons.1 hmem with rfl | hmem
    · exact ⟨rest, rfl, fun snapshot hsnapshot => Nat.ne_of_lt (hbefore snapshot hsnapshot)⟩
    · have hlt := hbefore target hmem
      omega

/-- What a repeated run reads behind the target is good: of the newest entries that a truncation
leaves, every one can be taken, and only the target has its world file. -/
def NativeCatalog.Rereadable (catalog : NativeCatalog) (id : Nat) (file : String) : Prop :=
  ∀ snapshot ∈ (catalog.snapshots.filter (·.snapshotId ≤ id)).take 100,
    snapshot.valid = true ∧ (snapshot.worldFile = some file → snapshot.snapshotId = id)

instance (catalog : NativeCatalog) (id : Nat) (file : String) :
    Decidable (catalog.Rereadable id file) :=
  inferInstanceAs (Decidable (∀ snapshot ∈ _, _))

namespace Applicable

variable (h : Applicable files native session id file)

include h

/-- The newest snapshot after the truncation is the target, which is a good one. -/
theorem truncated : ∃ target rest, (native.catalog.truncate id).snapshots = target :: rest ∧
    target.snapshotId = id ∧ target.worldFile = some file ∧ target.valid = true := by
  obtain ⟨target, hmem, hid, hfile⟩ := h.target
  obtain ⟨rest, hlist, _⟩ := truncate_eq_cons (List.mem_of_mem_take hmem)
  rw [hid] at hlist
  exact ⟨target, rest, hlist, hid, hfile, h.readable target hmem⟩

theorem select_truncate : files.select (native.truncate id).catalog = some file := by
  obtain ⟨target, rest, hlist, _, hfile, hvalid⟩ := h.truncated
  exact files.newest _ target rest file hlist hvalid hfile

/-- A repeated run reads one page, which begins with the target. -/
theorem readFor_truncate : (native.truncate id).catalog.readFor id =
    (native.catalog.snapshots.filter (·.snapshotId ≤ id)).take 100 := by
  obtain ⟨target, rest, hlist, hid, _⟩ := h.truncated
  have hreach : (native.catalog.truncate id).reach id fetches 0 = 100 := by
    rw [fetches, NativeCatalog.reach, hlist]
    exact if_pos (Or.inl (by simp [hid]))
  show (native.catalog.truncate id).snapshots.take
    ((native.catalog.truncate id).reach id fetches 0) = _
  rw [hreach]
  rfl

/-- When the request is applied again, it is refused for what lies behind the target, or it applies. -/
theorem truncate_iff : Applicable files (native.truncate id) session id file ↔
    native.catalog.Rereadable id file := by
  have hread := h.readFor_truncate
  have hselect := h.select_truncate
  constructor
  · intro hagain snapshot hmem
    have holder : snapshot.snapshotId ≤ id := by
      simpa using (List.mem_filter.1 (List.mem_of_mem_take hmem)).2
    rw [← hread] at hmem
    refine ⟨hagain.readable snapshot hmem, fun hfile => Nat.le_antisymm holder ?_⟩
    apply hagain.newer snapshot hmem
    rw [hselect]
    exact decide_eq_true ⟨by rw [hfile]; rfl, hfile⟩
  · intro hgood
    obtain ⟨target, rest, hlist, hid, hfile, _⟩ := h.truncated
    have hmem : target ∈ (native.truncate id).catalog.readFor id := by
      rw [hread]
      show target ∈ (native.catalog.truncate id).snapshots.take 100
      rw [hlist]
      exact List.mem_cons_self
    refine ⟨h.request, h.unloaded, h.session, ?_, ⟨target, hmem, hid, hfile⟩, ⟨target, hmem, ?_⟩, ?_⟩
    · intro snapshot hsnapshot
      rw [hread] at hsnapshot
      exact (hgood snapshot hsnapshot).1
    · rw [hselect]
      exact decide_eq_true ⟨by rw [hfile]; rfl, hfile⟩
    · intro current hcurrent hlatest
      rw [hselect] at hlatest
      rw [hread] at hcurrent
      exact ((hgood current hcurrent).2 (of_decide_eq_true hlatest).2).ge

end Applicable

/-! ## One run -/

/-- The run of an apply request: it is refused, the target is the latest world already, or it is
selected by a truncation. -/
theorem run_cases (files : WorldFiles) (native : Native) (session file : String) (id : Nat) :
    let named := namedSession native (.apply session id file)
    (¬Applicable files native session id file ∧ ∃ fault, run files (.apply session id file) native =
      (ending named (.error fault) native, some (false, native))) ∨
    (Applicable files native session id file ∧ files.select native.catalog = some file ∧
      run files (.apply session id file) native =
        (ending named (.ok (.applied session id file false)) native, some (true, native))) ∨
    (Applicable files native session id file ∧ files.select native.catalog ≠ some file ∧
      run files (.apply session id file) native =
        ((.truncate session id, native.truncate id) ::
          ending named (.ok (.applied session id file true)) (native.truncate id),
          some (true, native.truncate id))) := by
  intro named
  by_cases h : Applicable files native session id file
  · right
    by_cases hselect : files.select native.catalog = some file
    · left
      have hchosen : chosen files native session id file = .ok (session, false) :=
        chosen_iff.2 ⟨h, rfl, by simp [hselect]⟩
      have hconfirm : confirm files native session id file false =
          .ok (.applied session id file false) := by
        rw [confirm, ensure_of h.session, ok_bind, ensure_of hselect]
        rfl
      refine ⟨h, hselect, ?_⟩
      rw [run_of_ok hchosen, hconfirm]
      rfl
    · right
      have hchosen : chosen files native session id file = .ok (session, true) :=
        chosen_iff.2 ⟨h, rfl, by simp [hselect]⟩
      have hconfirm : confirm files (native.truncate id) session id file true =
          .ok (.applied session id file true) := by
        rw [confirm, ensure_of (show (native.truncate id).session = some session from h.session),
          ok_bind, ensure_of h.select_truncate]
        rfl
      refine ⟨h, hselect, ?_⟩
      rw [run_of_change hchosen, hconfirm]
      rfl
  · left
    refine ⟨h, ?_⟩
    cases hchosen : chosen files native session id file with
    | error fault => exact ⟨fault, run_of_error hchosen⟩
    | ok result => exact absurd (chosen_iff.1 hchosen).1 h

/-- A request that applies selects the target by a truncation when it is not the latest world. -/
theorem run_truncates (h : Applicable files native session id file)
    (hselect : files.select native.catalog ≠ some file) :
    run files (.apply session id file) native =
      ((.truncate session id, native.truncate id) ::
        ending (namedSession native (.apply session id file))
          (.ok (.applied session id file true)) (native.truncate id),
        some (true, native.truncate id)) := by
  rcases run_cases files native session file id with ⟨hnot, _⟩ | ⟨_, hsame, _⟩ | ⟨_, _, hrun⟩
  · exact absurd h hnot
  · exact absurd hsame hselect
  · exact hrun

/-- What an apply request may do: a truncation is justified, a receipt is true, the shutdown is the
last effect, and without a truncation a failure leaves everything as it was. -/
structure SafeRollback (files : WorldFiles) (native : Native) (session : String) (id : Nat)
    (file : String) (log : List (NativeEffect × Native)) (ok : Bool) (after : Native) : Prop where
  justified : ∀ session' id' state, (.truncate session' id', state) ∈ log →
    session' = session ∧ id' = id ∧ native.session = some session ∧ state = native.truncate id ∧
      ∃ target ∈ native.catalog.snapshots, target.snapshotId = id ∧ target.worldFile = some file ∧
        ∃ current ∈ native.catalog.snapshots, current.worldFile.isSome = true ∧
          current.worldFile = files.select native.catalog ∧ id < current.snapshotId
  receipt : ∀ session' id' file' changed state,
    (.emit (.applied session' id' file' changed), state) ∈ log →
      session' = session ∧ id' = id ∧ file' = file ∧ files.select state.catalog = some file
  shutdown : ∃ before, log = before ++ [(.shutdown, after)] ∧ ∀ entry ∈ before, entry.1 ≠ .shutdown
  unchanged : ok = false → (∀ session' id' state, (.truncate session' id', state) ∉ log) →
    after = native

theorem safeRollback (files : WorldFiles) (native : Native) (session file : String) (id : Nat) :
    ∃ log ok after, run files (.apply session id file) native = (log, some (ok, after)) ∧
      SafeRollback files native session id file log ok after := by
  rcases run_cases files native session file id with ⟨_, fault, hrun⟩ | ⟨h, hselect, hrun⟩ |
    ⟨h, hselect, hrun⟩
  · refine ⟨_, _, _, hrun, ?_, ?_, ?_, fun _ _ => rfl⟩
    · simp [ending]
    · cases fault <;> simp [ending, closing, failure]
    · exact ⟨[(.emit _, native)], rfl, by simp⟩
  · refine ⟨_, _, _, hrun, ?_, ?_, ?_, fun _ _ => rfl⟩
    · simp [ending]
    · intro session' id' file' changed state hmem
      simp only [ending, closing, List.mem_cons, Prod.mk.injEq, NativeEffect.emit.injEq,
        Record.applied.injEq, List.not_mem_nil, or_false, reduceCtorEq, false_and] at hmem
      obtain ⟨⟨rfl, rfl, rfl, rfl⟩, rfl⟩ := hmem
      exact ⟨rfl, rfl, rfl, hselect⟩
    · exact ⟨[(.emit _, native)], rfl, by simp⟩
  · obtain ⟨target, htarget, hid, hfile⟩ := h.target
    obtain ⟨current, hcurrent, hlatest⟩ := h.current
    have hle := h.newer current hcurrent hlatest
    have hne := h.differs hselect hcurrent hlatest
    obtain ⟨hsome, hlatest⟩ := of_decide_eq_true hlatest
    refine ⟨_, _, _, hrun, ?_, ?_, ?_, by simp⟩
    · intro session' id' state hmem
      simp only [ending, List.mem_cons, Prod.mk.injEq, NativeEffect.truncate.injEq, List.not_mem_nil,
        or_false, reduceCtorEq, false_and] at hmem
      obtain ⟨⟨rfl, rfl⟩, rfl⟩ := hmem
      exact ⟨rfl, rfl, h.session, rfl, target, List.mem_of_mem_take htarget, hid, hfile, current,
        List.mem_of_mem_take hcurrent, hsome, hlatest, Nat.lt_of_le_of_ne hle hne.symm⟩
    · intro session' id' file' changed state hmem
      simp only [ending, closing, List.mem_cons, Prod.mk.injEq, NativeEffect.emit.injEq,
        Record.applied.injEq, List.not_mem_nil, or_false, reduceCtorEq, false_and, false_or] at hmem
      obtain ⟨⟨rfl, rfl, rfl, rfl⟩, rfl⟩ := hmem
      exact ⟨rfl, rfl, rfl, h.select_truncate⟩
    · exact ⟨[(.truncate session id, native.truncate id), (.emit _, native.truncate id)], rfl, by simp⟩

/-! ## Crashes -/

/-- Runs that were cut off, one after another: their effects and the state they leave. -/
def crashes (files : WorldFiles) (request : Request) :
    List Nat → Native → List NativeEffect × Native
  | [], native => ([], native)
  | cut :: cuts, native =>
    let log := (run files request native).1.take cut
    let (effects, left) := crashes files request cuts (Journal.after native log)
    (log.map Prod.fst ++ effects, left)

def isTruncation : NativeEffect → Bool
  | .truncate _ _ => true
  | _ => false

/-- The request is answered with a receipt. -/
def Applies (files : WorldFiles) (native : Native) (session : String) (id : Nat) (file : String) :
    Prop :=
  ∃ changed state, (.emit (.applied session id file changed), state) ∈
    (run files (.apply session id file) native).1

theorem applies_iff :
    Applies files native session id file ↔ Applicable files native session id file := by
  rw [Applies]
  rcases run_cases files native session file id with ⟨h, fault, hrun⟩ | ⟨h, _, hrun⟩ | ⟨h, _, hrun⟩
  · rw [hrun]
    cases fault <;> simp [ending, closing, failure, h]
  · rw [hrun]
    simp [ending, closing, h]
  · rw [hrun]
    simp [ending, closing, h]

/-- The effects of a run that is cut off. -/
def cutEffects (files : WorldFiles) (request : Request) (native : Native) (cut : Nat) :
    List NativeEffect :=
  ((run files request native).1.take cut).map Prod.fst

/-- The state that it leaves. -/
def cutState (files : WorldFiles) (request : Request) (native : Native) (cut : Nat) : Native :=
  Journal.after native ((run files request native).1.take cut)

/-- A run that truncates nothing leaves nothing behind, wherever it is cut off. -/
theorem cut_still {request : Request} {named : Option String} {outcome : Outcome String Record}
    (h : (run files request native).1 = ending named outcome native) (cut : Nat) :
    cutState files request native cut = native ∧
      (cutEffects files request native cut).countP isTruncation = 0 := by
  rw [cutState, cutEffects, h]
  match cut with
  | 0 => exact ⟨rfl, rfl⟩
  | 1 => exact ⟨rfl, rfl⟩
  | cut + 2 =>
    rw [List.take_of_length_le (by simp [ending])]
    exact ⟨rfl, rfl⟩

theorem cut_change {named : Option String} {outcome : Outcome String Record}
    (h : (run files (.apply session id file) native).1 =
      (.truncate session id, native.truncate id) :: ending named outcome (native.truncate id))
    (cut : Nat) :
    (cutState files (.apply session id file) native cut = native ∧
      (cutEffects files (.apply session id file) native cut).countP isTruncation = 0) ∨
    (cutState files (.apply session id file) native cut = native.truncate id ∧
      (cutEffects files (.apply session id file) native cut).countP isTruncation = 1) := by
  rw [cutState, cutEffects, h]
  match cut with
  | 0 => exact Or.inl ⟨rfl, rfl⟩
  | 1 => exact Or.inr ⟨rfl, rfl⟩
  | 2 => exact Or.inr ⟨rfl, rfl⟩
  | cut + 3 =>
    rw [List.take_of_length_le (by simp [ending])]
    exact Or.inr ⟨rfl, rfl⟩

theorem crashes_cons (files : WorldFiles) (request : Request) (cut : Nat) (cuts : List Nat)
    (native : Native) : crashes files request (cut :: cuts) native =
      (cutEffects files request native cut ++
        (crashes files request cuts (cutState files request native cut)).1,
        (crashes files request cuts (cutState files request native cut)).2) := rfl

/-- When the run truncates nothing, nothing happens to the native state. -/
theorem crashes_still {request : Request} {named : Option String} {outcome : Outcome String Record}
    (h : (run files request native).1 = ending named outcome native) (cuts : List Nat) :
    (crashes files request cuts native).2 = native ∧
      (crashes files request cuts native).1.countP isTruncation = 0 := by
  induction cuts with
  | nil => exact ⟨rfl, rfl⟩
  | cons cut cuts ih =>
    obtain ⟨hstate, heffects⟩ := cut_still h cut
    rw [crashes_cons, hstate, List.countP_append, heffects]
    exact ⟨ih.1, by rw [ih.2]⟩

/-- A run from a state in which the target is the latest world truncates nothing. -/
theorem run_selected (hselect : files.select native.catalog = some file) :
    ∃ named outcome, (run files (.apply session id file) native).1 = ending named outcome native := by
  rcases run_cases files native session file id with ⟨_, fault, hrun⟩ | ⟨_, _, hrun⟩ |
    ⟨_, hother, _⟩
  · exact ⟨_, _, congrArg Prod.fst hrun⟩
  · exact ⟨_, _, congrArg Prod.fst hrun⟩
  · exact absurd hselect hother

/-- The first run that reaches the truncation does it, and no later one does. -/
theorem crashes_change (h : Applicable files native session id file)
    (hselect : files.select native.catalog ≠ some file) (cuts : List Nat) :
    ((crashes files (.apply session id file) cuts native).2 = native ∧
      (crashes files (.apply session id file) cuts native).1.countP isTruncation = 0) ∨
    ((crashes files (.apply session id file) cuts native).2 = native.truncate id ∧
      (crashes files (.apply session id file) cuts native).1.countP isTruncation = 1) := by
  have hlog := congrArg Prod.fst (run_truncates h hselect)
  induction cuts with
  | nil => exact Or.inl ⟨rfl, rfl⟩
  | cons cut cuts ih =>
    rw [crashes_cons, List.countP_append]
    rcases cut_change hlog cut with ⟨hstate, heffects⟩ | ⟨hstate, heffects⟩
    · rw [hstate, heffects, Nat.zero_add]
      exact ih
    · obtain ⟨_, _, hstill⟩ := @run_selected files (native.truncate id) session file id
        h.select_truncate
      obtain ⟨hleft, hcount⟩ := crashes_still hstill cuts
      rw [hstate, heffects, hcount]
      exact Or.inr ⟨hleft, rfl⟩

/-- A request that was accepted can be repeated after crashes at any points: it is answered with a
receipt, and all runs together have removed the snapshots newer than the target, by one truncation, or
nothing where the target was the latest world. -/
structure Repeatable (files : WorldFiles) (native : Native) (session : String) (id : Nat)
    (file : String) (cuts : List Nat) : Prop where
  applies : Applies files (crashes files (.apply session id file) cuts native).2 session id file
  once : ((crashes files (.apply session id file) cuts native).1 ++
    (run files (.apply session id file)
      (crashes files (.apply session id file) cuts native).2).1.map Prod.fst).countP isTruncation =
        if files.select native.catalog = some file then 0 else 1
  after : (run files (.apply session id file)
    (crashes files (.apply session id file) cuts native).2).2 =
      some (true, if files.select native.catalog = some file then native else native.truncate id)

/-- A run that applies where the target is the latest world already. -/
theorem run_applied (h : Applicable files native session id file)
    (hselect : files.select native.catalog = some file) :
    (run files (.apply session id file) native).2 = some (true, native) ∧
      ((run files (.apply session id file) native).1.map Prod.fst).countP isTruncation = 0 := by
  rcases run_cases files native session file id with ⟨hnot, _⟩ | ⟨_, _, hrun⟩ | ⟨_, hother, _⟩
  · exact absurd h hnot
  · rw [hrun]
    exact ⟨rfl, rfl⟩
  · exact absurd hselect hother

theorem repeatable_selected (h : Applicable files native session id file)
    (hselect : files.select native.catalog = some file) (cuts : List Nat) :
    Repeatable files native session id file cuts := by
  obtain ⟨_, _, hstill⟩ := @run_selected files native session file id hselect
  obtain ⟨hleft, hcount⟩ := crashes_still hstill cuts
  obtain ⟨hend, hrest⟩ := run_applied h hselect
  refine ⟨?_, ?_, ?_⟩
  · rw [hleft]
    exact applies_iff.2 h
  · rw [hleft, List.countP_append, hcount, hrest, if_pos hselect]
  · rw [hleft, hend, if_pos hselect]

theorem repeatable_truncated (h : Applicable files native session id file)
    (hselect : files.select native.catalog ≠ some file)
    (hread : native.catalog.Rereadable id file) (cuts : List Nat) :
    Repeatable files native session id file cuts := by
  have hagain := h.truncate_iff.2 hread
  rcases crashes_change h hselect cuts with ⟨hleft, hcount⟩ | ⟨hleft, hcount⟩
  · have hrun := run_truncates h hselect
    refine ⟨?_, ?_, ?_⟩
    · rw [hleft]
      exact applies_iff.2 h
    · rw [hleft, hrun, List.countP_append, hcount, if_neg hselect]
      rfl
    · rw [hleft, hrun, if_neg hselect]
  · obtain ⟨hend, hrest⟩ := run_applied hagain h.select_truncate
    refine ⟨?_, ?_, ?_⟩
    · rw [hleft]
      exact applies_iff.2 hagain
    · rw [hleft, List.countP_append, hcount, hrest, if_neg hselect]
    · rw [hleft, hend, if_neg hselect]

/-- After a truncation the request can be repeated exactly when what lies behind the target is good. -/
theorem repeatable_iff (h : Applicable files native session id file)
    (hselect : files.select native.catalog ≠ some file) :
    (∀ cuts, Repeatable files native session id file cuts) ↔
      native.catalog.Rereadable id file := by
  refine ⟨fun hrepeat => h.truncate_iff.1 ?_, repeatable_truncated h hselect⟩
  -- the crash behind the truncation
  have happlies := (hrepeat [1]).applies
  have hleft : (crashes files (.apply session id file) [1] native).2 = native.truncate id := by
    rw [crashes_cons, cutState, run_truncates h hselect]
    rfl
  rw [hleft] at happlies
  exact applies_iff.1 happlies

/-- A request that is refused is refused again, and does nothing. -/
theorem crashes_refused (h : ¬Applicable files native session id file) (cuts : List Nat) :
    (crashes files (.apply session id file) cuts native).2 = native ∧
      (crashes files (.apply session id file) cuts native).1.countP isTruncation = 0 ∧
      ¬Applies files native session id file := by
  rcases run_cases files native session file id with ⟨_, fault, hrun⟩ | ⟨hyes, _⟩ | ⟨hyes, _⟩
  · obtain ⟨hleft, hcount⟩ := crashes_still (congrArg Prod.fst hrun) cuts
    exact ⟨hleft, hcount, fun happlies => h (applies_iff.1 happlies)⟩
  · exact absurd hyes h
  · exact absurd hyes h

/-! ## The gate -/

namespace Gate

variable {gate : Gate} {request : Request}

/-- What a gate with a request has let through. -/
def allowed (request : Request) (finished : Bool) : List GateOutput :=
  if finished then [.run request] else []

theorem resume_request (h : gate.request = some request) (call : GateCall) :
    (gate.resume call).1 = { gate with finished := gate.finished || call = .load } ∧
      allowed request gate.finished ++ (gate.resume call).2 =
        allowed request (gate.finished || call = .load) := by
  obtain ⟨resolved, _, pending, finished⟩ := gate
  subst h
  cases call with
  | load => cases finished <;> exact ⟨rfl, rfl⟩
  | start => cases finished <;> exact ⟨rfl, rfl⟩

theorem resumeAll_request (h : gate.request = some request) (calls : List GateCall) :
    (gate.resumeAll calls).1 = { gate with finished := gate.finished || .load ∈ calls } ∧
      allowed request gate.finished ++ (gate.resumeAll calls).2 =
        allowed request (gate.finished || .load ∈ calls) := by
  induction calls generalizing gate with
  | nil => simp [resumeAll]
  | cons call rest ih =>
    obtain ⟨hgate, houtputs⟩ := resume_request h call
    have hnext : (gate.resume call).1.request = some request := by rw [hgate, h]
    obtain ⟨hrest, hmore⟩ := ih hnext
    have hflag : (gate.finished || decide (GateCall.load ∈ call :: rest)) =
        ((gate.finished || call = .load) || decide (GateCall.load ∈ rest)) := by
      simp [List.mem_cons, Bool.or_assoc, eq_comm]
    rw [resumeAll, hflag]
    refine ⟨?_, ?_⟩
    · rw [hrest, hgate]
    · rw [hgate] at hmore
      dsimp only at hmore ⊢
      rw [← List.append_assoc, houtputs, hgate, hmore]

/-- The state of the gate over its events. -/
structure Held (events : List GateEvent) (gate : Gate) (outputs : List GateOutput) : Prop where
  waiting : gate.resolved = false → gate.request = none ∧ gate.finished = false ∧ outputs = [] ∧
    (.load ∈ gate.pending ↔ .call .load ∈ events)
  request : ∀ request, gate.request = some request → gate.resolved = true ∧
    (gate.finished = true ↔ .call .load ∈ events) ∧ outputs = allowed request gate.finished

theorem mem_call {events : List GateEvent} {call : GateCall} :
    .call .load ∈ events ++ [.call call] ↔ .call .load ∈ events ∨ call = .load := by
  rw [List.mem_append, List.mem_singleton, GateEvent.call.injEq, eq_comm (a := GateCall.load)]

theorem resume_none (h : gate.request = none) (call : GateCall) : (gate.resume call).1 = gate := by
  cases call <;> simp [resume, h]

theorem resumeAll_none (h : gate.request = none) (calls : List GateCall) :
    (gate.resumeAll calls).1 = gate := by
  induction calls with
  | nil => rfl
  | cons call rest ih => rw [resumeAll, resume_none h, ih]

theorem held_after (events : List GateEvent) : Held events (after events).1 (after events).2 := by
  induction events using List.reverseRecOn with
  | nil => exact ⟨fun _ => ⟨rfl, rfl, rfl, by simp [after]⟩, by simp [after]⟩
  | append_singleton events event ih =>
    have hafter : after (events ++ [event]) = (((after events).1.step event).1,
        (after events).2 ++ ((after events).1.step event).2) := by
      rw [after, List.foldl_append]
      rfl
    rw [hafter]
    obtain ⟨hwaiting, hrequest⟩ := ih
    generalize (after events).1 = gate at hwaiting hrequest ⊢
    generalize (after events).2 = outputs at hwaiting hrequest ⊢
    cases hresolved : gate.resolved with
    | true =>
      cases event with
      | resolve value =>
        simp only [step, hresolved, if_true, List.append_nil]
        refine ⟨fun h => absurd h (by simp [hresolved]), fun request h => ?_⟩
        simpa using hrequest request h
      | call call =>
        simp only [step, hresolved, if_true]
        cases hvalue : gate.request with
        | none =>
          rw [resume_none hvalue]
          exact ⟨fun h => absurd h (by simp [hresolved]), fun request h => absurd h (by simp [hvalue])⟩
        | some request =>
          obtain ⟨_, hfinished, rfl⟩ := hrequest request hvalue
          obtain ⟨hgate, houtputs⟩ := resume_request hvalue call
          rw [hgate, houtputs]
          refine ⟨fun h => absurd h (by simp [hresolved]), fun request' h => ?_⟩
          obtain rfl : request = request' := Option.some.inj (hvalue.symm.trans h)
          refine ⟨hresolved, ?_, rfl⟩
          rw [Bool.or_eq_true, hfinished, decide_eq_true_eq, mem_call]
    | false =>
      obtain ⟨hnone, hunfinished, rfl, hpending⟩ := hwaiting hresolved
      cases event with
      | resolve value =>
        simp only [step, hresolved, Bool.false_eq_true, if_false, List.nil_append]
        cases value with
        | none =>
          rw [resumeAll_none rfl]
          exact ⟨fun h => absurd h (by simp), fun request h => absurd h (by simp)⟩
        | some request =>
          have hopen : ({ gate with resolved := true, request := some request, pending := [] } :
            Gate).request = some request := rfl
          obtain ⟨hgate, houtputs⟩ := resumeAll_request hopen gate.pending
          simp only [hunfinished, Bool.false_or] at hgate houtputs
          rw [hunfinished, hgate]
          refine ⟨fun h => absurd h (by simp), fun request' h => ?_⟩
          obtain rfl : request = request' := Option.some.inj h
          exact ⟨rfl, by simp [hpending], houtputs⟩
      | call call =>
        simp only [step, hresolved, Bool.false_eq_true, if_false, List.append_nil]
        refine ⟨fun _ => ⟨hnone, hunfinished, rfl, ?_⟩, fun request h => absurd h (by simp [hnone])⟩
        rw [List.mem_append, List.mem_singleton, hpending, mem_call, eq_comm]

/-- A gate with a recovery request lets nothing through but one run of it, when the index is loaded. -/
theorem after_request {events : List GateEvent} (h : (after events).1.request = some request) :
    (after events).2 = if .call .load ∈ events then [.run request] else [] := by
  obtain ⟨_, hfinished, houtputs⟩ := (held_after events).request request h
  rw [houtputs, allowed]
  exact if_congr hfinished rfl rfl

end Gate

/-! ## The application of a rollback -/

/-- A native rollback is safe and never lets the world be loaded, and a request that is refused does
nothing however often it is repeated.  A request that is accepted can be repeated after crashes at any
points exactly when the target was the latest world already, or when the entries behind it that the
repeated run reads are good. -/
theorem rollback_application (files : WorldFiles) (session : String) (id : Nat) (file : String) :
    (∀ native, ∃ log ok after, run files (.apply session id file) native = (log, some (ok, after)) ∧
      SafeRollback files native session id file log ok after) ∧
    (∀ native cuts, ¬Applicable files native session id file →
      (crashes files (.apply session id file) cuts native).2 = native ∧
        (crashes files (.apply session id file) cuts native).1.countP isTruncation = 0 ∧
        ¬Applies files native session id file) ∧
    (∀ native, (Applicable files native session id file → ∀ cuts,
        Repeatable files native session id file cuts) ↔
      (Applicable files native session id file → files.select native.catalog ≠ some file →
        native.catalog.Rereadable id file)) ∧
    ∀ events, (Gate.after events).1.request = some (.apply session id file) →
      (Gate.after events).2 =
        if .call .load ∈ events then [.run (.apply session id file)] else [] := by
  refine ⟨fun native => safeRollback files native session file id,
    fun native cuts h => crashes_refused h cuts, fun native => ?_, fun _ => Gate.after_request⟩
  constructor
  · intro hrepeat h hselect
    exact (repeatable_iff h hselect).1 (hrepeat h)
  · intro hread h
    by_cases hselect : files.select native.catalog = some file
    · exact repeatable_selected h hselect
    · exact (repeatable_iff h hselect).2 (hread h hselect)

/-- The choice of the newest snapshot with a file. -/
def newestFile : WorldFiles where
  select catalog := catalog.snapshots.findSome? Snapshot.worldFile
  newest catalog snapshot rest file hlist _ hfile := by
    rw [hlist, List.findSome?_cons, hfile]

instance (files : WorldFiles) (native : Native) (session : String) (id : Nat) (file : String) :
    Decidable (Applicable files native session id file) :=
  decidable_of_iff (((Request.apply session id file).validate = true ∧ native.worldLoaded = false) ∧
      native.session = some session ∧
      (∀ snapshot ∈ native.catalog.readFor id, snapshot.valid = true) ∧
      (∃ target ∈ native.catalog.readFor id, target.snapshotId = id ∧ target.worldFile = some file) ∧
      (∃ current ∈ native.catalog.readFor id,
        isCurrent (files.select native.catalog) current = true) ∧
      ∀ current ∈ native.catalog.readFor id,
        isCurrent (files.select native.catalog) current = true → id ≤ current.snapshotId)
    ⟨fun ⟨⟨a, b⟩, c, d, e, f, g⟩ => ⟨a, b, c, d, e, f, g⟩,
      fun ⟨a, b, c, d, e, f, g⟩ => ⟨⟨a, b⟩, c, d, e, f, g⟩⟩

def sampleNative : Native where
  worldLoaded := false
  session := some "S"
  catalog := ⟨[⟨3, some "c"⟩, ⟨2, some "b"⟩, ⟨1, some "a"⟩], by decide⟩

/-- A rollback to the second snapshot, which is repeated after a crash behind its truncation. -/
theorem rollback_application_sample :
    Repeatable newestFile sampleNative "S" 2 "b" [0, 1, 2] ∧
      (run newestFile (.apply "S" 2 "b") sampleNative).1.map Prod.fst =
        [.truncate "S" 2, .emit (.applied "S" 2 "b" true), .shutdown] := by
  refine ⟨?_, by decide +kernel⟩
  have hread : sampleNative.catalog.Rereadable 2 "b" := by decide +kernel
  exact ((rollback_application newestFile "S" 2 "b").2.2.1 sampleNative).2 (fun _ _ => hread)
    (by decide +kernel) [0, 1, 2]

/-- A session with an old entry of which the world file is no text. -/
def agedNative : Native where
  worldLoaded := false
  session := some "S"
  catalog := {
    snapshots := (List.range 120).map fun n =>
      ⟨120 - n, [(120, "c"), (100, "b"), (10, "\n")].lookup (120 - n)⟩
    newestFirst := by decide +kernel }

/-- The first run reads the newest hundred entries and truncates; the repeated run reads the hundred
behind the target and refuses the old one. -/
theorem rollback_refused_again :
    (run newestFile (.apply "S" 100 "b") agedNative).1.map Prod.fst =
        [.truncate "S" 100, .emit (.applied "S" 100 "b" true), .shutdown] ∧
      (run newestFile (.apply "S" 100 "b") (agedNative.truncate 100)).1.map Prod.fst =
        [.emit (.failed (some "S") "invalid_catalog"), .shutdown] ∧
      ¬∀ cuts, Repeatable newestFile agedNative "S" 100 "b" cuts := by
  refine ⟨by decide +kernel, by decide +kernel, fun hrepeat => ?_⟩
  have hread := (repeatable_iff (by decide +kernel) (by decide +kernel)).1 hrepeat
  exact absurd hread (by decide +kernel)

end DstServer.Recovery
