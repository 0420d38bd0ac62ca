import DstServer.Lib.OrderedMap
import DstServer.Lib.Paging
import DstServer.Rpc.Codec

/-!
# The selection of a snapshot

The model of `snapshots`, `complete_snapshot` and `select_snapshot` in
`room.rs`.  The room reads the catalog of the master shard page by page and
looks every candidate up in the catalogs of all shards.

`target` says which snapshot is selected, in terms of the whole catalogs.
`select_snapshot_eq` says that the loop over the pages selects it, whatever
the pages are.
-/

namespace DstServer.Snapshots

open Lib Lib.Outcome Lib.Paging Rpc

/-! ## Data -/

structure SessionIdentity where
  sessionId : String
  processId : String
  generation : Nat
  deriving DecidableEq, Repr

/-- A snapshot as a catalog has it.  A field that is absent or of another
type is `none`. -/
structure Entry where
  snapshotId : Option Nat
  worldFile : Option String
  metadata : Json := .null

/-- What a shard answers to `list_snapshots`. -/
structure Catalog where
  sessionId : Option String
  snapshots : Option (List Entry)
  hasMore : Bool

/-- The process of a shard. -/
structure Driver where
  /-- The identity before the request and the one after it. -/
  before : Outcome Error SessionIdentity
  after : Outcome Error SessionIdentity
  listSnapshots : Nat → Option Nat → Outcome Error Catalog

structure Room where
  master : String
  drivers : String → Option Driver
  /-- The files below the room, which its lock opens. -/
  readOptionalText : Text → Outcome Error (Option String)
  openRegular : Text → Outcome Error Unit
  /-- `lua::parse_return_table` -/
  parseReturnTable : String → Outcome Error Json

/-- The day of the metadata. -/
def Entry.day (entry : Entry) : Option Nat := (entry.metadata.get "day").asU64?

/-- The number that the catalogs are sorted by. -/
def Entry.key (entry : Entry) : Nat := entry.snapshotId.getD 0

/-! ## A catalog with metadata -/

/-- `format!("session/{session}/{id:010}")` -/
def snapshotPath (session : String) (id : Nat) : Text :=
  "session/".toList ++ session.toList ++ '/' ::
    List.leftpad 10 '0' (Text.decimal id)

/-- `n + 1` of a `u64` -/
def successor (n : Nat) : Outcome Error Nat :=
  if n + 1 < 2 ^ 64 then pure (n + 1) else panics "attempt to add with overflow"

/-- The clock of the world has the cycles that are over. -/
def withDay (metadata : Json) : Outcome Error Json :=
  match metadata, ((metadata.get "clock").get "cycles").asU64? with
  | .object fields, some cycles => do
    let day ← successor cycles
    pure (.object (Json.insertField "day" (Json.ofNat day) fields))
  | _, _ => pure metadata

/-- The body of the loop of `snapshots`. -/
def readMetadata (room : Room) (shard session : String) (entry : Entry) : Outcome Error Entry :=
  match entry.worldFile with
  | none => pure { entry with metadata := .null }
  | some path => do
    let id ← orError entry.snapshotId ⟨.internal, "snapshot identifier is missing", .null⟩
    let expected := snapshotPath session id
    ensure (path.toList = expected)
      ⟨.internal, "native snapshot path does not match its session and ID", .null⟩
    let relative := shard.toList ++ "/save/".toList ++ expected
    let source ← room.readOptionalText (relative ++ ".meta".toList)
    match source with
    | none => pure { entry with metadata := .null }
    | some source => do
      room.openRegular relative
      let metadata ← room.parseReturnTable source
      let metadata ← withDay metadata
      pure { entry with metadata }

def snapshots (room : Room) (shard : String) (limit : Nat) (before : Option Nat) :
    Outcome Error Catalog := do
  let driver ← orError (room.drivers shard)
    ⟨.notReady, "shard process is stopped", .object [("shard", .string shard)]⟩
  let initial ← driver.before
  let catalog ← driver.listSnapshots limit before
  let session ← orError catalog.sessionId ⟨.protocol, "snapshot session is missing", .null⟩
  ensure (session = initial.sessionId)
    ⟨.staleReference, "snapshot catalog belongs to another world session", .null⟩
  let entries ← orError catalog.snapshots ⟨.protocol, "snapshot catalog is invalid", .null⟩
  let entries ← entries.mapM' (readMetadata room shard session)
  let current ← driver.after
  ensure (current = initial)
    ⟨.staleReference, "world changed while reading snapshot metadata", .null⟩
  pure { catalog with snapshots := some entries }

/-! ## The selection -/

/-- The entry is this snapshot, can be loaded and is of the day. -/
def Entry.Is (entry : Entry) (id : Nat) (day : Option Nat) : Prop :=
  entry.snapshotId = some id ∧ entry.worldFile ≠ none ∧ ∀ d ∈ day, entry.day = some d

instance (entry : Entry) (id : Nat) (day : Option Nat) : Decidable (entry.Is id day) := by
  unfold Entry.Is
  infer_instance

/-- The loop of `complete_snapshot` over the sessions. -/
def completeIn (room : Room) (id : Nat) (day : Option Nat) :
    List (String × SessionIdentity) → Outcome Error Bool
  | [] => pure true
  | (name, identity) :: rest => do
    let above ← successor id
    let catalog ← snapshots room name 1 (some above)
    ensure (catalog.sessionId = some identity.sessionId)
      ⟨.staleReference, "world changed during snapshot selection", .null⟩
    match (catalog.snapshots.getD []).head? with
    | none => pure false
    | some snapshot =>
      if snapshot.Is id day then completeIn room id day rest else pure false

def completeSnapshot (room : Room) (id : Nat) (sessions : OrderedMap String SessionIdentity)
    (day : Option Nat) : Outcome Error Bool :=
  completeIn room id day sessions.entries

/-- What the loop over the entries of a page comes to. -/
inductive Progress where
  | found (snapshot : Entry)
  | going (count : Nat) (selected : Option Entry)

def incomplete : Error :=
  ⟨.notFound, "requested snapshot is missing from a configured shard", .null⟩

def noMatch : Error :=
  ⟨.notFound, "no complete room snapshot matches the requested target", .null⟩

def notAdvanced : Error := ⟨.protocol, "snapshot catalog did not advance", .null⟩

def tooMany : Error := ⟨.overflow, "snapshot selection exceeds 6400 entries", .null⟩

/-- The loop of `select_snapshot` over the entries of a page. -/
def examine (complete : Nat → Outcome Error Bool) (day : Option Nat) :
    List Entry → Nat → Option Entry → Outcome Error Progress
  | [], count, selected => pure (.going count selected)
  | snapshot :: rest, count, selected => do
    let id ← orError snapshot.snapshotId ⟨.protocol, "invalid snapshot identifier", .null⟩
    if id = 0 ∨ ¬snapshot.Is id day then examine complete day rest count selected
    else if day = none ∧ 0 < count then examine complete day rest (count - 1) selected
    else do
      let whole ← complete id
      match day with
      | none => if whole then pure (.found snapshot) else fail incomplete
      | some _ => examine complete day rest count (if whole then some snapshot else selected)

/-- What `select_snapshot` keeps from page to page. -/
structure Search where
  before : Option Nat := none
  count : Nat
  selected : Option Entry := none

/-- The body of the loop over the pages: the result, or where to go on. -/
def turn (room : Room) (sessions : OrderedMap String SessionIdentity) (day : Option Nat)
    (search : Search) : Outcome Error (Entry ⊕ Search) := do
  let catalog ← snapshots room room.master 100 search.before
  let entries ← orError catalog.snapshots ⟨.protocol, "invalid snapshot list", .null⟩
  let progress ← examine (fun id => completeSnapshot room id sessions day) day entries
    search.count search.selected
  match progress with
  | .found snapshot => pure (.inl snapshot)
  | .going count selected =>
    if catalog.hasMore then do
      let next ← orError (entries.getLast?.bind Entry.snapshotId) notAdvanced
      ensure (∀ before ∈ search.before, next < before) notAdvanced
      pure (.inr ⟨some next, count, selected⟩)
    else do
      let snapshot ← orError selected noMatch
      pure (.inl snapshot)

/-- The loop over at most this many pages. -/
def searchPages (room : Room) (sessions : OrderedMap String SessionIdentity)
    (day : Option Nat) : Nat → Search → Outcome Error Entry
  | 0, _ => fail tooMany
  | fuel + 1, search => do
    let next ← turn room sessions day search
    match next with
    | .inl snapshot => pure snapshot
    | .inr search => searchPages room sessions day fuel search

def selectSnapshot (room : Room) (count : Nat) (day : Option Nat)
    (sessions : OrderedMap String SessionIdentity) : Outcome Error Entry :=
  searchPages room sessions day 64 { count }

/-! ## What is selected -/

/-- The snapshot can be loaded and is of the day. -/
def Entry.Usable (day : Option Nat) (entry : Entry) : Prop :=
  entry.key ≠ 0 ∧ entry.worldFile ≠ none ∧ ∀ d ∈ day, entry.day = some d

instance (day : Option Nat) : DecidablePred (Entry.Usable day) := by
  unfold Entry.Usable
  infer_instance

/-- The snapshot is in the catalog of every shard and can be loaded there. -/
def Complete (catalogs : String → List Entry) (shards : List String) (day : Option Nat)
    (id : Nat) : Prop :=
  ∀ shard ∈ shards, ∃ entry ∈ catalogs shard, entry.Is id day

instance (catalogs : String → List Entry) (shards : List String) (day : Option Nat) (id : Nat) :
    Decidable (Complete catalogs shards day id) := by
  unfold Complete
  infer_instance

section Target

variable (complete : Option Nat → Nat → Prop) [∀ day, DecidablePred (complete day)]

/-- The snapshot that a number of snapshots back is, or the oldest one of a
day. -/
def target (entries : List Entry) (count : Nat) : Option Nat → Outcome Error Entry
  | none =>
    match (entries.filter (Entry.Usable none)).drop count with
    | [] => fail noMatch
    | entry :: _ => if complete none entry.key then pure entry else fail incomplete
  | some day =>
    orError (entries.filter fun entry => entry.Usable (some day) ∧
      complete (some day) entry.key).getLast? noMatch

theorem target_none (entries : List Entry) (count : Nat) :
    target complete entries count none =
      match (entries.filter (Entry.Usable none)).drop count with
      | [] => fail noMatch
      | entry :: _ => if complete none entry.key then pure entry else fail incomplete :=
  rfl

theorem target_some (entries : List Entry) (count d : Nat) :
    target complete entries count (some d) =
      orError (entries.filter fun entry => entry.Usable (some d) ∧
        complete (some d) entry.key).getLast? noMatch :=
  rfl

end Target

/-- A shard has the entries and serves them in pages. -/
structure Serving (room : Room) (shard session : String) (entries : List Entry)
    (pages : Nat → Option Nat → Page Entry) : Prop where
  answers : ∀ limit before, snapshots room shard limit before =
    .ok ⟨some session, some (pages limit before).items, (pages limit before).hasMore⟩
  truthful : ∀ limit, Serves Entry.key entries (pages limit)
  descending : Descending Entry.key entries
  /-- The cursor above an entry is a `u64`. -/
  identified : ∀ entry ∈ entries, ∃ id, entry.snapshotId = some id ∧ id + 1 < 2 ^ 64

/-! ## The entries of a page -/

/-- The rest of the loop when there are no other pages. -/
def conclude : Progress → Outcome Error Entry
  | .found snapshot => pure snapshot
  | .going _ selected => orError selected noMatch

section Examine

variable {complete : Nat → Outcome Error Bool} {day : Option Nat}

/-- It makes no difference where a page ends. -/
theorem examine_append (first second : List Entry) (count : Nat) (selected : Option Entry) :
    examine complete day (first ++ second) count selected =
      examine complete day first count selected >>= fun progress =>
        match progress with
        | .found snapshot => pure (.found snapshot)
        | .going count selected => examine complete day second count selected := by
  induction first generalizing count selected with
  | nil => rfl
  | cons snapshot rest ih =>
    rw [List.cons_append, examine, examine, bind_assoc]
    congr 1
    funext id
    split_ifs with hskip hcount
    · exact ih count selected
    · exact ih (count - 1) selected
    · rw [bind_assoc]
      congr 1
      funext whole
      cases day with
      | none => cases whole <;> rfl
      | some day => exact ih count _

/-- What the loop needs to know about a catalog. -/
structure Judged (complete : Nat → Outcome Error Bool) (P : Nat → Prop) [DecidablePred P]
    (entries : List Entry) : Prop where
  identified : ∀ entry ∈ entries, entry.snapshotId = some entry.key
  complete : ∀ entry ∈ entries, complete entry.key = .ok (decide (P entry.key))

variable {P : Nat → Prop} [DecidablePred P]

theorem Judged.tail {entry : Entry} {rest : List Entry} (h : Judged complete P (entry :: rest)) :
    Judged complete P rest where
  identified := fun other hother => h.identified other (List.mem_cons_of_mem entry hother)
  complete := fun other hother => h.complete other (List.mem_cons_of_mem entry hother)

theorem usable_iff {entry : Entry} (h : entry.snapshotId = some entry.key) :
    entry.Usable day ↔ ¬(entry.key = 0 ∨ ¬entry.Is entry.key day) := by
  unfold Entry.Usable Entry.Is
  tauto

theorem examine_cons {entry : Entry} {rest : List Entry} {count : Nat} {selected : Option Entry}
    (h : Judged complete P (entry :: rest)) :
    examine complete day (entry :: rest) count selected =
      if ¬entry.Usable day then examine complete day rest count selected
      else if day = none ∧ 0 < count then examine complete day rest (count - 1) selected
      else match day with
        | none => if P entry.key then pure (.found entry) else fail incomplete
        | some _ =>
          examine complete day rest count (if P entry.key then some entry else selected) := by
  have hid := h.identified entry List.mem_cons_self
  have hcomplete := h.complete entry List.mem_cons_self
  have hsome : ∀ e : Error, orError (some entry.key) e = .ok entry.key := fun _ => rfl
  rw [examine, hid, hsome, ok_bind, hcomplete, ok_bind]
  simp only [usable_iff hid, not_not, decide_eq_true_eq]

/-- The loop passes by as many usable entries as it is to. -/
theorem examine_rollback {entries : List Entry} (h : Judged complete P entries) (count : Nat) :
    examine complete none entries count none >>= conclude =
      target (fun _ => P) entries count none := by
  induction entries generalizing count with
  | nil =>
    rw [examine, target_none, List.filter_nil, List.drop_nil]
    rfl
  | cons entry rest ih =>
    have hrest := ih h.tail
    simp only [target_none] at hrest
    rw [examine_cons h, target_none, List.filter_cons]
    by_cases husable : entry.Usable none
    · rw [if_neg (not_not.2 husable), if_pos (decide_eq_true husable)]
      cases count with
      | zero =>
        rw [if_neg (fun hpos => lt_irrefl 0 hpos.2), List.drop_zero]
        show (if P entry.key then pure (.found entry) else fail incomplete) >>= conclude =
          if P entry.key then pure entry else fail incomplete
        split_ifs <;> rfl
      | succ count =>
        rw [if_pos ⟨rfl, Nat.succ_pos count⟩, List.drop_succ_cons]
        exact hrest count
    · rw [if_pos husable, if_neg (fun h => husable (of_decide_eq_true h))]
      exact hrest count

/-- The loop keeps the last entry that it can. -/
theorem examine_day {entries : List Entry} (h : Judged complete P entries) (d count : Nat)
    (selected : Option Entry) :
    examine complete (some d) entries count selected >>= conclude =
      orError ((entries.filter fun entry => entry.Usable (some d) ∧ P entry.key).getLast?.or
        selected) noMatch := by
  induction entries generalizing selected with
  | nil => rfl
  | cons entry rest ih =>
    have hrest := ih h.tail
    have hday : ¬(some d = none ∧ 0 < count) := fun h => Option.some_ne_none d h.1
    rw [examine_cons h, if_neg hday, List.filter_cons]
    by_cases husable : entry.Usable (some d)
    · rw [if_neg (not_not.2 husable)]
      show examine _ _ _ _ (if P entry.key then some entry else selected) >>= conclude = _
      by_cases hcomplete : P entry.key
      · rw [if_pos hcomplete, hrest, if_pos (decide_eq_true ⟨husable, hcomplete⟩),
          List.getLast?_cons]
        cases (rest.filter _).getLast? <;> rfl
      · rw [if_neg hcomplete, hrest, if_neg fun h => hcomplete (of_decide_eq_true h).2]
    · rw [if_pos husable, hrest, if_neg fun h => husable (of_decide_eq_true h).1]

theorem examine_target {P : Option Nat → Nat → Prop} [∀ day, DecidablePred (P day)]
    {entries : List Entry} (h : Judged complete (P day) entries) (count : Nat) :
    examine complete day entries count none >>= conclude = target P entries count day := by
  cases day with
  | none => exact examine_rollback h count
  | some d => rw [examine_day h, Option.or_none, target_some]

end Examine

/-! ## The catalogs of the shards -/

variable {room : Room} {shard session : String} {entries : List Entry}
  {pages : Nat → Option Nat → Page Entry}

theorem Serving.snapshotId (h : Serving room shard session entries pages) {entry : Entry}
    (hentry : entry ∈ entries) : entry.snapshotId = some entry.key := by
  obtain ⟨id, hid, _⟩ := h.identified entry hentry
  rw [Entry.key, hid]
  rfl

theorem Serving.successor (h : Serving room shard session entries pages) {entry : Entry}
    (hentry : entry ∈ entries) : successor entry.key = .ok (entry.key + 1) := by
  obtain ⟨id, hid, hlt⟩ := h.identified entry hentry
  have hkey : entry.key = id := by
    rw [Entry.key, hid]
    rfl
  rw [hkey]
  exact if_pos hlt

/-- A snapshot is looked up by the page below the cursor above it. -/
theorem Serving.lookup (h : Serving room shard session entries pages) (id : Nat)
    (day : Option Nat) :
    (∃ entry ∈ (pages 1 (some (id + 1))).items.head?, entry.Is id day) ↔
      ∃ entry ∈ entries, entry.Is id day := by
  obtain ⟨rest, hpage⟩ := h.truthful 1 (some (id + 1))
  rw [hpage.head?]
  constructor
  · rintro ⟨entry, hhead, his⟩
    exact ⟨entry, (mem_below.1 (List.mem_of_head? hhead)).1, his⟩
  · rintro ⟨entry, hentry, his⟩
    have hkey : entry.key = id := Option.some.inj ((h.snapshotId hentry).symm.trans his.1)
    have hhead := head?_below_succ h.descending hentry
    rw [hkey] at hhead
    exact ⟨entry, hhead, his⟩

section Shards

variable {catalogs : String → List Entry} {served : String → Nat → Option Nat → Page Entry}

theorem completeIn_eq {sessions : List (String × SessionIdentity)}
    (h : ∀ shard ∈ sessions,
      Serving room shard.1 shard.2.sessionId (catalogs shard.1) (served shard.1))
    {id : Nat} (hid : successor id = .ok (id + 1)) (day : Option Nat) :
    completeIn room id day sessions =
      .ok (decide (Complete catalogs (sessions.map Prod.fst) day id)) := by
  induction sessions with
  | nil =>
    have hnone : Complete catalogs [] day id := fun _ hshard => absurd hshard List.not_mem_nil
    rw [List.map_nil, decide_eq_true hnone]
    rfl
  | cons shard rest ih =>
    have hshard := h shard List.mem_cons_self
    have hrest := ih fun other hother => h other (List.mem_cons_of_mem _ hother)
    have hiff : Complete catalogs ((shard :: rest).map Prod.fst) day id ↔
        (∃ entry ∈ catalogs shard.1, entry.Is id day) ∧
          Complete catalogs (rest.map Prod.fst) day id := by
      unfold Complete
      rw [List.map_cons, List.forall_mem_cons]
    obtain ⟨name, identity⟩ := shard
    rw [completeIn, hid, ok_bind, hshard.answers, ok_bind, ensure_of rfl, ok_bind, hrest]
    simp only [hiff, ← hshard.lookup]
    show (match (served name 1 (some (id + 1))).items.head? with
      | none => pure false
      | some snapshot => if snapshot.Is id day then _ else pure false) = _
    cases (served name 1 (some (id + 1))).items.head? with
    | none => simp
    | some snapshot =>
      by_cases his : snapshot.Is id day <;> simp [his]

end Shards

/-! ## The loop over the pages -/

/-- The cursor is below the one before, if there was one. -/
def Below (before after : Option Nat) : Prop := ∃ next ∈ after, ∀ id ∈ before, next < id

instance : IsTrans (Option Nat) Below where
  trans := by
    rintro a b c ⟨next, hnext, hlt⟩ ⟨last, hlast, hlt'⟩
    exact ⟨last, hlast, fun id hid => lt_trans (hlt' next hnext) (hlt id hid)⟩

variable {sessions : OrderedMap String SessionIdentity} {day : Option Nat}

/-- Whatever the shards answer, the loop goes on below its cursor. -/
theorem turn_below {search next : Search} (h : turn room sessions day search = .ok (.inr next)) :
    Below search.before next.before := by
  unfold turn at h
  obtain ⟨catalog, _, h⟩ := bind_eq_ok.1 h
  obtain ⟨entries, _, h⟩ := bind_eq_ok.1 h
  obtain ⟨progress, _, h⟩ := bind_eq_ok.1 h
  cases progress with
  | found snapshot => cases h
  | going count selected =>
    cases hmore : catalog.hasMore with
    | false =>
      rw [hmore] at h
      obtain ⟨snapshot, _, h⟩ := bind_eq_ok.1 h
      cases h
    | true =>
      rw [hmore] at h
      obtain ⟨last, _, h⟩ := bind_eq_ok.1 h
      obtain ⟨_, hlt, h⟩ := bind_eq_ok.1 h
      cases h
      exact ⟨last, rfl, ensure_eq_ok.1 hlt⟩

/-- The cursors of the pages that the loop asks for. -/
def cursors (room : Room) (sessions : OrderedMap String SessionIdentity) (day : Option Nat) :
    Nat → Search → List (Option Nat)
  | 0, _ => []
  | fuel + 1, search => search.before ::
    match turn room sessions day search with
    | .ok (.inr next) => cursors room sessions day fuel next
    | _ => []

theorem cursors_isChain (fuel : Nat) (search : Search) :
    (cursors room sessions day fuel search).IsChain Below ∧
      ∀ first ∈ (cursors room sessions day fuel search).head?, first = search.before := by
  induction fuel generalizing search with
  | zero => exact ⟨List.IsChain.nil, fun _ hfirst => absurd hfirst (Option.not_mem_none _)⟩
  | succ fuel ih =>
    rw [cursors]
    refine ⟨?_, fun first hfirst => (Option.some.inj hfirst).symm⟩
    split
    · next next hturn =>
      obtain ⟨hchain, hhead⟩ := ih next
      refine List.isChain_cons.2 ⟨fun first hfirst => ?_, hchain⟩
      rw [hhead first hfirst]
      exact turn_below hturn
    · exact List.isChain_singleton _

/-- The cursors go down. -/
theorem cursors_pairwise (fuel : Nat) (search : Search) :
    (cursors room sessions day fuel search).Pairwise Below :=
  (cursors_isChain fuel search).1.pairwise

/-- The loop examines the entries below its cursor. -/
theorem searchPages_eq (h : Serving room room.master session entries pages) {before : Option Nat}
    {count : Nat} (hpaged : Paged Entry.key (pages 100) before count) {fuel : Nat}
    (hfuel : count ≤ fuel) (passed : Nat) (selected : Option Entry) :
    searchPages room sessions day fuel ⟨before, passed, selected⟩ =
      examine (fun id => completeSnapshot room id sessions day) day
        (below Entry.key before entries) passed selected >>= conclude := by
  induction hpaged generalizing fuel passed selected with
  | @last before hmore =>
    obtain ⟨rest, hpage⟩ := h.truthful 100 before
    have hrest : rest = [] := by
      by_contra hne
      exact absurd (hpage.more.2 hne) (by rw [hmore]; decide)
    obtain ⟨fuel, rfl⟩ : ∃ n, fuel = n + 1 := ⟨fuel - 1, by omega⟩
    rw [searchPages, turn, h.answers, ok_bind, hpage.split, hrest, List.append_nil, bind_assoc]
    show (examine _ _ _ _ _ >>= _) >>= _ = _
    rw [bind_assoc]
    congr 1
    funext progress
    cases progress with
    | found snapshot => rfl
    | going count selected =>
      show ((if (pages 100 before).hasMore then _ else _) >>= _) = _
      rw [hmore]
      cases selected <;> rfl
  | @more before last count hmore hlast hpaged ih =>
    obtain ⟨rest, hpage⟩ := h.truthful 100 before
    have hnext := below_last h.descending hpage.split hlast
    have hmem : last ∈ below Entry.key before entries := by
      rw [hpage.split]
      exact List.mem_append_left rest (List.mem_of_getLast? hlast)
    obtain ⟨hentry, hbelow⟩ := mem_below.1 hmem
    have hid : ((pages 100 before).items.getLast?.bind Entry.snapshotId) = some last.key := by
      rw [hlast]
      exact h.snapshotId hentry
    obtain ⟨fuel, rfl⟩ : ∃ n, fuel = n + 1 := ⟨fuel - 1, by omega⟩
    rw [searchPages, turn, h.answers, ok_bind, hpage.split, examine_append, ← hnext, bind_assoc]
    show (examine _ _ _ _ _ >>= _) >>= _ = _
    rw [bind_assoc, bind_assoc]
    congr 1
    funext progress
    cases progress with
    | found snapshot => rfl
    | going passed selected =>
      have hfollow := ih (Nat.le_of_succ_le_succ hfuel) passed selected
      show ((if (pages 100 before).hasMore then _ else _) >>= _) = _
      rw [hmore, hid]
      show ((ensure _ _ >>= _) >>= _) = _
      rw [ensure_of hbelow]
      exact hfollow

/-- Every shard has a catalog and serves it in pages, and there are at most 64
pages of the master shard's. -/
structure Truthful (room : Room) (sessions : OrderedMap String SessionIdentity)
    (catalogs : String → List Entry) (served : String → Nat → Option Nat → Page Entry) : Prop where
  master : ∃ session, Serving room room.master session (catalogs room.master) (served room.master)
  shards : ∀ shard ∈ sessions.entries,
    Serving room shard.1 shard.2.sessionId (catalogs shard.1) (served shard.1)
  short : ∃ count ≤ 64, Paged Entry.key (served room.master 100) none count

/-- The selection depends on the catalogs only, and the cursor goes down from
page to page. -/
theorem select_snapshot_eq (room : Room) (sessions : OrderedMap String SessionIdentity)
    (catalogs : String → List Entry) (served : String → Nat → Option Nat → Page Entry)
    (h : Truthful room sessions catalogs served) (count : Nat) (day : Option Nat) :
    selectSnapshot room count day sessions =
      target (Complete catalogs sessions.keys) (catalogs room.master) count day ∧
      (cursors room sessions day 64 { count }).Pairwise Below := by
  constructor
  · obtain ⟨session, hmaster⟩ := h.master
    obtain ⟨pages, hpages, hpaged⟩ := h.short
    have hjudged : Judged (fun id => completeSnapshot room id sessions day)
        (Complete catalogs sessions.keys day) (catalogs room.master) := by
      refine ⟨fun entry hentry => hmaster.snapshotId hentry, fun entry hentry => ?_⟩
      exact completeIn_eq h.shards (hmaster.successor hentry) day
    have hsearch : searchPages room sessions day 64 ⟨none, count, none⟩ =
        examine (fun id => completeSnapshot room id sessions day) day
          (below Entry.key none (catalogs room.master)) count none >>= conclude :=
      searchPages_eq hmaster hpaged hpages count none
    rw [below_none] at hsearch
    rw [selectSnapshot, hsearch]
    exact examine_target hjudged
      count
  · exact cursors_pairwise 64 _

/-- The two snapshots of a room with one shard. -/
def sampleEntries : List Entry :=
  [⟨some 7, some "session/A/0000000007", .null⟩, ⟨some 2, some "session/A/0000000002", .null⟩]

/-- Their pages of one snapshot each. -/
def samplePage (before : Option Nat) : Page Entry :=
  let entries := below Entry.key before sampleEntries
  ⟨entries.take 1, decide (1 < entries.length)⟩

def sampleDriver : Driver where
  before := pure ⟨"A", "1", 0⟩
  after := pure ⟨"A", "1", 0⟩
  listSnapshots _ before :=
    pure ⟨some "A", some (samplePage before).items, (samplePage before).hasMore⟩

def sampleRoom : Room where
  master := "Master"
  drivers _ := some sampleDriver
  readOptionalText _ := pure none
  openRegular _ := pure ()
  parseReturnTable _ := pure (.object [])

def sampleSessions : OrderedMap String SessionIdentity where
  entries := [("Master", ⟨"A", "1", 0⟩)]
  sorted := List.pairwise_singleton _ _

theorem sample_serving : Serving sampleRoom "Master" "A" sampleEntries fun _ => samplePage where
  answers limit before := by
    have hread : ∀ entry ∈ (samplePage before).items,
        readMetadata sampleRoom "Master" "A" entry = .ok (id entry) := by
      intro entry hentry
      have hmem := (mem_below.1 (List.mem_of_mem_take hentry)).1
      rw [sampleEntries, List.mem_cons, List.mem_singleton] at hmem
      rcases hmem with rfl | rfl <;> rfl
    have hitems := mapM'_of_ok hread
    rw [List.map_id] at hitems
    show (List.mapM' (readMetadata sampleRoom "Master" "A") (samplePage before).items >>= _) = _
    rw [hitems]
    rfl
  truthful _ before := ⟨_, begins_take Nat.one_pos⟩
  descending := by unfold Descending; decide
  identified := by
    intro entry hentry
    rw [sampleEntries, List.mem_cons, List.mem_singleton] at hentry
    rcases hentry with rfl | rfl
    · exact ⟨7, rfl, by decide⟩
    · exact ⟨2, rfl, by decide⟩

theorem select_snapshot_eq_sample :
    selectSnapshot sampleRoom 1 none sampleSessions =
      target (Complete (fun _ => sampleEntries) sampleSessions.keys) sampleEntries 1 none ∧
      (cursors sampleRoom sampleSessions none 64 ⟨none, 1, none⟩).Pairwise Below :=
  select_snapshot_eq sampleRoom sampleSessions (fun _ => sampleEntries) (fun _ _ => samplePage)
    ⟨⟨"A", sample_serving⟩, fun shard hshard => by
      rw [sampleSessions, List.mem_singleton] at hshard
      rw [hshard]
      exact sample_serving,
      2, by decide, .more rfl rfl (.last rfl)⟩ 1 none

end DstServer.Snapshots
