import DstServer.Lib.Outcome

/-!
# Pages of a descending list

A list whose entries are in descending order of a key is read in pages.  A
cursor is the key of the last entry of a page: the next page has only
entries `below` it.

`Serves` says which pages are pages of a list.  A page may have any size,
but it is not empty while entries are left.  `follow` reads a list page by
page, and `follow_eq` says that it reads every entry once.  `Paged` counts
the pages.

A cursor can also be the name of an entry, and the next page begins behind
this entry: `startingAt` is the list from there on.
-/

namespace Lib.Paging

variable {α : Type} (key : α → Nat)

/-- The keys descend. -/
def Descending (entries : List α) : Prop := entries.Pairwise fun a b => key b < key a

/-- The entries below a cursor, or all without one. -/
def below (before : Option Nat) (entries : List α) : List α :=
  entries.filter fun entry => before.all fun id => key entry < id

structure Page (α : Type) where
  items : List α
  hasMore : Bool
  deriving DecidableEq, Repr

/-- The page begins the entries and says whether others are left. -/
structure Begins (page : Page α) (entries rest : List α) : Prop where
  split : entries = page.items ++ rest
  more : page.hasMore = true ↔ rest ≠ []
  nonempty : rest ≠ [] → page.items ≠ []

/-- The pages that are served are pages of the entries. -/
def Serves (entries : List α) (serve : Option Nat → Page α) : Prop :=
  ∀ before, ∃ rest, Begins (serve before) (below key before entries) rest

variable {key}

@[simp] theorem below_none (entries : List α) : below key none entries = entries := by
  simp [below]

theorem below_append (before : Option Nat) (first second : List α) :
    below key before (first ++ second) = below key before first ++ below key before second :=
  List.filter_append _ _

theorem Descending.below {entries : List α} (h : Descending key entries) (before : Option Nat) :
    Descending key (below key before entries) :=
  h.filter _

theorem mem_below {entry : α} {before : Option Nat} {entries : List α} :
    entry ∈ below key before entries ↔ entry ∈ entries ∧ ∀ id ∈ before, key entry < id := by
  rw [below, List.mem_filter]
  cases before <;> simp

/-- Below the last entry of a page are the entries that follow the page. -/
theorem below_last {entries items rest : List α} {before : Option Nat} {last : α}
    (h : Descending key entries) (hsplit : below key before entries = items ++ rest)
    (hlast : items.getLast? = some last) : below key (some (key last)) entries = rest := by
  have hmem : last ∈ items := List.mem_of_getLast? hlast
  have hbelow : last ∈ below key before entries := by
    rw [hsplit]
    exact List.mem_append_left rest hmem
  have hfewer : below key (some (key last)) entries =
      below key (some (key last)) (below key before entries) := by
    unfold below
    rw [List.filter_filter]
    refine List.filter_congr fun entry _ => ?_
    rw [Bool.eq_iff_iff, Bool.and_eq_true]
    constructor
    · intro hlt
      refine ⟨hlt, ?_⟩
      rw [Option.all_some, decide_eq_true_eq] at hlt
      rw [Option.all_eq_true]
      intro id hid
      have hid := (mem_below.1 hbelow).2 id hid
      exact decide_eq_true (lt_trans hlt hid)
    · exact And.left
  have hdescending := h.below before
  rw [hsplit] at hdescending
  obtain ⟨hitems, _, hacross⟩ := List.pairwise_append.1 hdescending
  have hkept : below key (some (key last)) rest = rest := by
    refine List.filter_eq_self.2 fun entry hentry => ?_
    exact decide_eq_true (hacross last hmem entry hentry)
  have hdropped : below key (some (key last)) items = [] := by
    refine List.filter_eq_nil_iff.2 fun entry hentry => ?_
    have hle : key last ≤ key entry := by
      obtain ⟨front, rfl⟩ := List.getLast?_eq_some_iff.1 hlast
      rcases List.mem_append.1 hentry with hfront | hsame
      · exact le_of_lt ((List.pairwise_append.1 hitems).2.2 entry hfront last List.mem_cons_self)
      · rw [List.mem_singleton.1 hsame]
    simpa using hle
  rw [hfewer, hsplit, below_append, hkept, hdropped, List.nil_append]

/-- The page that begins the entries has the first of them. -/
theorem Begins.head? {page : Page α} {entries rest : List α} (h : Begins page entries rest) :
    page.items.head? = entries.head? := by
  rw [h.split]
  by_cases hrest : rest = []
  · rw [hrest, List.append_nil]
  · exact (List.head?_append_of_ne_nil _ (h.nonempty hrest)).symm

/-- An entry is the first one below the cursor above it. -/
theorem head?_below_succ {entries : List α} (h : Descending key entries) {entry : α}
    (hentry : entry ∈ entries) :
    (below key (some (key entry + 1)) entries).head? = some entry := by
  obtain ⟨before, after, rfl⟩ := List.append_of_mem hentry
  have hbefore : below key (some (key entry + 1)) before = [] := by
    refine List.filter_eq_nil_iff.2 fun other hother => ?_
    have hlt := (List.pairwise_append.1 h).2.2 other hother entry List.mem_cons_self
    rw [Option.all_some, decide_eq_true_eq]
    omega
  have hsame : (some (key entry + 1)).all (fun id => decide (key entry < id)) = true :=
    decide_eq_true (Nat.lt_succ_self _)
  rw [below_append, hbefore, List.nil_append, below, List.filter_cons, if_pos hsame,
    List.head?_cons]

/-- A page of a given size. -/
theorem begins_take {entries : List α} {size : Nat} (hsize : 0 < size) :
    Begins ⟨entries.take size, decide (size < entries.length)⟩ entries (entries.drop size) where
  split := (List.take_append_drop size entries).symm
  more := by simp
  nonempty := by
    intro hrest htake
    rw [List.take_eq_nil_iff] at htake
    rcases htake with hzero | rfl
    · omega
    · exact hrest List.drop_nil

/-! ## Reading a list page by page -/

section Follow

variable {ε : Type}

/-- Read page after page from a cursor on, at most this many pages. -/
def follow (key : α → Nat) (serve : Option Nat → Outcome ε (Page α)) :
    Nat → Option Nat → Outcome ε (List α)
  | 0, _ => pure []
  | fuel + 1, before => do
    let page ← serve before
    match page.hasMore, page.items.getLast? with
    | true, some last => do
      let rest ← follow key serve fuel (some (key last))
      pure (page.items ++ rest)
    | _, _ => pure page.items

/-- Following the cursors reads every entry once. -/
theorem follow_eq {entries : List α} {serve : Option Nat → Outcome ε (Page α)}
    {pages : Option Nat → Page α} (hdescending : Descending key entries)
    (hserves : Serves key entries pages) (hserve : ∀ before, serve before = .ok (pages before))
    (fuel : Nat) (before : Option Nat) (hfuel : (below key before entries).length < fuel) :
    follow key serve fuel before = .ok (below key before entries) := by
  induction fuel generalizing before with
  | zero => omega
  | succ fuel ih =>
    obtain ⟨rest, hpage⟩ := hserves before
    rw [follow, hserve, Outcome.ok_bind]
    by_cases hrest : rest = []
    · have hmore : (pages before).hasMore = false := by
        rw [Bool.eq_false_iff]
        exact fun hmore => hpage.more.1 hmore hrest
      rw [hmore, hpage.split, hrest, List.append_nil]
      rfl
    · obtain ⟨last, hlast⟩ : ∃ last, (pages before).items.getLast? = some last :=
        ⟨_, List.getLast?_eq_some_getLast (hpage.nonempty hrest)⟩
      have hnext := below_last hdescending hpage.split hlast
      have hshorter : (below key (some (key last)) entries).length < fuel := by
        have hlength := congrArg List.length hpage.split
        have hpos := List.length_pos_of_mem (List.mem_of_getLast? hlast)
        rw [List.length_append] at hlength
        rw [hnext]
        omega
      rw [hpage.more.2 hrest, hlast]
      show (follow key serve fuel (some (key last)) >>= fun rest =>
        pure ((pages before).items ++ rest)) = _
      rw [ih _ hshorter, Outcome.ok_bind, hnext, hpage.split]
      rfl

end Follow

/-! ## The number of pages -/

/-- From the cursor on, this many pages are read. -/
inductive Paged (key : α → Nat) (pages : Option Nat → Page α) : Option Nat → Nat → Prop
  | last {before : Option Nat} : (pages before).hasMore = false → Paged key pages before 1
  | more {before : Option Nat} {last : α} {count : Nat} : (pages before).hasMore = true →
      (pages before).items.getLast? = some last → Paged key pages (some (key last)) count →
      Paged key pages before (count + 1)

/-! ## Pages behind an anchor -/

section Anchored

variable {κ : Type} [DecidableEq κ] {name : α → κ}

/-- The entries from the one with this name on, or all without a name. -/
def startingAt (name : α → κ) (anchor : Option κ) (entries : List α) : List α :=
  entries.dropWhile fun entry => anchor.any (name entry ≠ ·)

@[simp] theorem startingAt_none (entries : List α) : startingAt name none entries = entries := by
  cases entries with
  | nil => rfl
  | cons entry rest => rfl

theorem startingAt_append {before after : List α} {entry : α}
    (hnodup : ((before ++ entry :: after).map name).Nodup) :
    startingAt name (some (name entry)) (before ++ entry :: after) = entry :: after := by
  have hbefore : ∀ other ∈ before, (some (name entry)).any (name other ≠ ·) = true := by
    intro other hother
    rw [List.map_append, List.nodup_append] at hnodup
    simpa using hnodup.2.2 (name other) (List.mem_map_of_mem hother) (name entry) (by simp)
  unfold startingAt
  rw [List.dropWhile_append_of_pos hbefore, List.dropWhile_cons_of_neg (by simp)]

end Anchored

end Lib.Paging
