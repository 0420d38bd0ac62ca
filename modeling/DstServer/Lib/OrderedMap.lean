import DstServer.Lib.Outcome

/-!
# Ordered maps

`OrderedMap κ α` is a finite map that lists its entries in strictly
increasing key order, as a Rust `BTreeMap` iterates over them.  The order
is a field of the structure, so two maps with the same entries are equal
and a key occurs at most once.

* `get?` looks a key up, and `mem_entries_iff` and `mem_keys_iff` relate
  the lookup to the list of entries.
* `ext_get?` says that a map is determined by its lookups.
* `map` and `mapM` change the values under the same keys; `mapM_eq_ok` is
  the rule for the fallible one.
* `filter` keeps the entries of some keys.
* `insert` adds or replaces an entry, and `ofList_entries` rebuilds a map
  from its own entries.

`OrderedSet κ` is the map to `Unit`, as `BTreeSet` is in Rust.
-/

namespace Lib

/-- A finite map with its entries in strictly increasing key order. -/
structure OrderedMap (κ α : Type) [LinearOrder κ] where
  entries : List (κ × α)
  sorted : (entries.map Prod.fst).Pairwise (· < ·)

/-- A finite set with its members in strictly increasing order. -/
abbrev OrderedSet (κ : Type) [LinearOrder κ] : Type := OrderedMap κ Unit

namespace OrderedMap

/-! ## Fallible traversal of a list of entries -/

section Traverse

variable {κ α β ε : Type}

/-- Run a fallible function over the entries in order and stop at the
first fault. -/
def traverseEntries (f : κ → α → Outcome ε β) : List (κ × α) → Outcome ε (List (κ × β))
  | [] => .ok []
  | (k, v) :: rest => do
    let w ← f k v
    let rest ← traverseEntries f rest
    pure ((k, w) :: rest)

theorem traverseEntries_keys {f : κ → α → Outcome ε β} {l : List (κ × α)} {l' : List (κ × β)}
    (h : traverseEntries f l = .ok l') : l'.map Prod.fst = l.map Prod.fst := by
  induction l generalizing l' with
  | nil =>
    cases h
    rfl
  | cons e rest ih =>
    obtain ⟨k, v⟩ := e
    simp only [traverseEntries, Outcome.bind_eq_ok] at h
    obtain ⟨w, _, rest', hrest, heq⟩ := h
    cases heq
    rw [List.map_cons, List.map_cons, ih hrest]

private theorem traverseEntries_mem {f : κ → α → Outcome ε β} {l : List (κ × α)}
    {l' : List (κ × β)} (h : traverseEntries f l = .ok l') :
    (∀ k v, (k, v) ∈ l → ∃ w, f k v = .ok w ∧ (k, w) ∈ l') ∧
      ∀ k w, (k, w) ∈ l' → ∃ v, f k v = .ok w ∧ (k, v) ∈ l := by
  induction l generalizing l' with
  | nil =>
    cases h
    simp
  | cons e rest ih =>
    obtain ⟨k₀, v₀⟩ := e
    simp only [traverseEntries, Outcome.bind_eq_ok] at h
    obtain ⟨w₀, hw₀, rest', hrest, heq⟩ := h
    cases heq
    obtain ⟨ih₁, ih₂⟩ := ih hrest
    constructor
    · intro k v hmem
      rcases List.mem_cons.1 hmem with heq | hmem
      · cases heq
        exact ⟨w₀, hw₀, List.mem_cons_self⟩
      · obtain ⟨w, hw, hmem⟩ := ih₁ k v hmem
        exact ⟨w, hw, List.mem_cons_of_mem _ hmem⟩
    · intro k w hmem
      rcases List.mem_cons.1 hmem with heq | hmem
      · cases heq
        exact ⟨v₀, hw₀, List.mem_cons_self⟩
      · obtain ⟨v, hv, hmem⟩ := ih₂ k w hmem
        exact ⟨v, hv, List.mem_cons_of_mem _ hmem⟩

private theorem traverseEntries_of_forall {f : κ → α → Outcome ε β} {l : List (κ × α)}
    (h : ∀ k v, (k, v) ∈ l → ∃ w, f k v = .ok w) : ∃ l', traverseEntries f l = .ok l' := by
  induction l with
  | nil => exact ⟨[], rfl⟩
  | cons e rest ih =>
    obtain ⟨k, v⟩ := e
    obtain ⟨w, hw⟩ := h k v List.mem_cons_self
    obtain ⟨rest', hrest⟩ := ih (fun k v hmem => h k v (List.mem_cons_of_mem _ hmem))
    exact ⟨(k, w) :: rest', by simp [traverseEntries, hw, hrest]⟩

private theorem traverseEntries_quiet {f : κ → α → Outcome ε β} {l : List (κ × α)}
    (h : ∀ k v, (k, v) ∈ l → (f k v).Quiet) : (traverseEntries f l).Quiet := by
  induction l with
  | nil => exact Outcome.quiet_ok _
  | cons e rest ih =>
    obtain ⟨k, v⟩ := e
    refine Outcome.Quiet.bind (h k v List.mem_cons_self) (fun w _ => ?_)
    refine Outcome.Quiet.bind (ih fun k v hmem => h k v (List.mem_cons_of_mem _ hmem)) ?_
    exact fun _ _ => Outcome.quiet_ok _

end Traverse

variable {κ α β ε : Type} [LinearOrder κ]

instance [DecidableEq α] : DecidableEq (OrderedMap κ α) := fun m m' =>
  decidable_of_iff (m.entries = m'.entries) (by
    cases m
    cases m'
    simp)

/-- The keys in increasing order. -/
def keys (m : OrderedMap κ α) : List κ := m.entries.map Prod.fst

/-- The values in the order of their keys. -/
def values (m : OrderedMap κ α) : List α := m.entries.map Prod.snd

/-- The value under a key. -/
def get? (m : OrderedMap κ α) (k : κ) : Option α := m.entries.lookup k

/-- The map without entries. -/
def empty : OrderedMap κ α := ⟨[], List.Pairwise.nil⟩

instance : Inhabited (OrderedMap κ α) := ⟨empty⟩

/-- Whether the map has no entry. -/
def isEmpty (m : OrderedMap κ α) : Bool := m.entries.isEmpty

@[simp] theorem keys_empty : (empty : OrderedMap κ α).keys = [] := rfl

@[simp] theorem get?_empty (k : κ) : (empty : OrderedMap κ α).get? k = none := rfl

theorem ext_entries {m m' : OrderedMap κ α} (h : m.entries = m'.entries) : m = m' := by
  cases m
  cases m'
  cases h
  rfl

theorem keys_sorted (m : OrderedMap κ α) : m.keys.Pairwise (· < ·) := m.sorted

theorem keys_nodup (m : OrderedMap κ α) : m.keys.Nodup :=
  m.keys_sorted.imp (fun h => ne_of_lt h)

/-! ## Lookup -/

private theorem lookup_of_mem {l : List (κ × α)} (hl : (l.map Prod.fst).Nodup) {k : κ} {v : α}
    (h : (k, v) ∈ l) : l.lookup k = some v := by
  induction l with
  | nil => simp at h
  | cons e rest ih =>
    obtain ⟨k', v'⟩ := e
    simp only [List.map_cons, List.nodup_cons] at hl
    rw [List.lookup_cons]
    rcases List.mem_cons.1 h with heq | hrest
    · obtain ⟨rfl, rfl⟩ := Prod.mk.inj heq
      simp
    · have hne : k ≠ k' := by
        rintro rfl
        exact hl.1 (List.mem_map.2 ⟨(k, v), hrest, rfl⟩)
      simp only [beq_eq_false_iff_ne.2 hne]
      exact ih hl.2 hrest

private theorem mem_of_lookup {l : List (κ × α)} {k : κ} {v : α} (h : l.lookup k = some v) :
    (k, v) ∈ l := by
  induction l with
  | nil => simp at h
  | cons e rest ih =>
    obtain ⟨k', v'⟩ := e
    rw [List.lookup_cons] at h
    split at h
    · rename_i heq
      rw [beq_iff_eq] at heq
      cases h
      rw [heq]
      exact List.mem_cons_self
    · exact List.mem_cons_of_mem _ (ih h)

theorem mem_entries_iff {m : OrderedMap κ α} {k : κ} {v : α} :
    (k, v) ∈ m.entries ↔ m.get? k = some v :=
  ⟨lookup_of_mem m.keys_nodup, mem_of_lookup⟩

theorem mem_keys_iff {m : OrderedMap κ α} {k : κ} : k ∈ m.keys ↔ ∃ v, m.get? k = some v := by
  simp only [keys, List.mem_map, Prod.exists, exists_and_right, exists_eq_right, mem_entries_iff]

theorem mem_values_iff {m : OrderedMap κ α} {v : α} : v ∈ m.values ↔ ∃ k, m.get? k = some v := by
  simp only [values, List.mem_map, Prod.exists, exists_eq_right, mem_entries_iff]

theorem get?_eq_none_iff {m : OrderedMap κ α} {k : κ} : m.get? k = none ↔ k ∉ m.keys := by
  rw [mem_keys_iff, Option.eq_none_iff_forall_ne_some, not_exists]

theorem isEmpty_iff {m : OrderedMap κ α} : m.isEmpty = true ↔ m.keys = [] := by
  simp [isEmpty, keys]

theorem keys_eq_nil_iff_values {m : OrderedMap κ α} : m.keys = [] ↔ m.values = [] := by
  simp [keys, values]

/-- A key of one map is a key of every map with the same keys. -/
theorem exists_get?_of_keys_eq {m : OrderedMap κ α} {m' : OrderedMap κ β} (h : m.keys = m'.keys)
    {k : κ} {v : α} (hv : m.get? k = some v) : ∃ w, m'.get? k = some w := by
  rw [← mem_keys_iff, ← h]
  exact mem_keys_iff.2 ⟨v, hv⟩

private theorem entries_eq_of_lookup {l l' : List (κ × α)} (hl : (l.map Prod.fst).Nodup)
    (hk : l.map Prod.fst = l'.map Prod.fst) (hg : ∀ k, l.lookup k = l'.lookup k) : l = l' := by
  refine List.ext_getElem (by simpa using congrArg List.length hk) ?_
  intro i hi hi'
  have hfst : l[i].1 = l'[i].1 := by
    have h := List.getElem_of_eq hk (i := i) (by simpa using hi)
    simpa using h
  have hsome : l.lookup l[i].1 = some l[i].2 := lookup_of_mem hl (List.getElem_mem hi)
  have hsome' : l'.lookup l'[i].1 = some l'[i].2 :=
    lookup_of_mem (hk ▸ hl) (List.getElem_mem hi')
  rw [hg, hfst, hsome'] at hsome
  exact Prod.ext hfst (Option.some.inj hsome).symm

/-- Two maps with the same members among their keys have the same keys. -/
theorem keys_eq_of_mem_iff {m : OrderedMap κ α} {m' : OrderedMap κ β}
    (h : ∀ k, k ∈ m.keys ↔ k ∈ m'.keys) : m.keys = m'.keys := by
  have hp : m.keys.Perm m'.keys := (List.perm_ext_iff_of_nodup m.keys_nodup m'.keys_nodup).2 h
  exact List.Perm.eq_of_pairwise (fun a b _ _ hab hba => absurd hab (lt_asymm hba))
    m.keys_sorted m'.keys_sorted hp

/-- Two maps with the same lookups are the same map. -/
theorem ext_get? {m m' : OrderedMap κ α} (h : ∀ k, m.get? k = m'.get? k) : m = m' := by
  have hmem : ∀ k, k ∈ m.keys ↔ k ∈ m'.keys := fun k => by
    rw [mem_keys_iff, mem_keys_iff, h k]
  exact ext_entries (entries_eq_of_lookup m.keys_nodup (keys_eq_of_mem_iff hmem) h)

/-! ## Changing the values -/

/-- Replace every value, under the same keys. -/
def map (f : κ → α → β) (m : OrderedMap κ α) : OrderedMap κ β where
  entries := m.entries.map fun e => (e.1, f e.1 e.2)
  sorted := by
    have h := m.sorted
    rwa [List.map_map]

@[simp] theorem keys_map (f : κ → α → β) (m : OrderedMap κ α) : (m.map f).keys = m.keys := by
  simp [keys, map, Function.comp_def]

@[simp] theorem get?_map (f : κ → α → β) (m : OrderedMap κ α) (k : κ) :
    (m.map f).get? k = (m.get? k).map (f k) := by
  cases h : m.get? k with
  | none =>
    rw [Option.map_none, get?_eq_none_iff, keys_map]
    exact get?_eq_none_iff.1 h
  | some v =>
    rw [Option.map_some, ← mem_entries_iff]
    exact List.mem_map.2 ⟨(k, v), mem_entries_iff.2 h, rfl⟩

/-- Replace every value by a fallible function, in key order. -/
def mapM (m : OrderedMap κ α) (f : κ → α → Outcome ε β) : Outcome ε (OrderedMap κ β) :=
  match h : traverseEntries f m.entries with
  | .error fault => .error fault
  | .ok entries => .ok ⟨entries, by rw [traverseEntries_keys h]; exact m.sorted⟩

theorem mapM_eq_ok_iff_entries {m : OrderedMap κ α} {f : κ → α → Outcome ε β}
    {m' : OrderedMap κ β} :
    m.mapM f = .ok m' ↔ traverseEntries f m.entries = .ok m'.entries := by
  unfold mapM
  split
  · rename_i fault h
    simp [h]
  · rename_i entries h
    constructor
    · intro heq
      cases heq
      exact h
    · intro heq
      have hentries : entries = m'.entries := Except.ok.inj (h.symm.trans heq)
      exact congrArg Except.ok (ext_entries hentries)

theorem keys_of_mapM {m : OrderedMap κ α} {f : κ → α → Outcome ε β} {m' : OrderedMap κ β}
    (h : m.mapM f = .ok m') : m'.keys = m.keys :=
  traverseEntries_keys (mapM_eq_ok_iff_entries.1 h)

/-- What a successful `mapM` says about one key of the source. -/
theorem get?_of_mapM {m : OrderedMap κ α} {f : κ → α → Outcome ε β} {m' : OrderedMap κ β}
    (h : m.mapM f = .ok m') {k : κ} {v : α} (hv : m.get? k = some v) :
    ∃ w, f k v = .ok w ∧ m'.get? k = some w := by
  obtain ⟨w, hw, hmem⟩ :=
    (traverseEntries_mem (mapM_eq_ok_iff_entries.1 h)).1 k v (mem_entries_iff.2 hv)
  exact ⟨w, hw, mem_entries_iff.1 hmem⟩

/-- What a successful `mapM` says about one key of the result. -/
theorem exists_of_get?_mapM {m : OrderedMap κ α} {f : κ → α → Outcome ε β} {m' : OrderedMap κ β}
    (h : m.mapM f = .ok m') {k : κ} {w : β} (hw : m'.get? k = some w) :
    ∃ v, m.get? k = some v ∧ f k v = .ok w := by
  obtain ⟨v, hv, hmem⟩ :=
    (traverseEntries_mem (mapM_eq_ok_iff_entries.1 h)).2 k w (mem_entries_iff.2 hw)
  exact ⟨v, mem_entries_iff.1 hmem, hv⟩

/-- `mapM` succeeds when the function succeeds on every entry. -/
theorem exists_mapM_of_forall {m : OrderedMap κ α} {f : κ → α → Outcome ε β}
    (h : ∀ k v, m.get? k = some v → ∃ w, f k v = .ok w) : ∃ m', m.mapM f = .ok m' := by
  obtain ⟨l', hl'⟩ := traverseEntries_of_forall (f := f) (l := m.entries)
    (fun k v hmem => h k v (mem_entries_iff.1 hmem))
  have hsorted : (l'.map Prod.fst).Pairwise (· < ·) := by
    rw [traverseEntries_keys hl']
    exact m.sorted
  exact ⟨⟨l', hsorted⟩, mapM_eq_ok_iff_entries.2 hl'⟩

/-- `mapM` does not panic when the function does not panic on an entry. -/
theorem quiet_mapM {m : OrderedMap κ α} {f : κ → α → Outcome ε β}
    (h : ∀ k v, m.get? k = some v → (f k v).Quiet) : (m.mapM f).Quiet := by
  have hq := traverseEntries_quiet (f := f) (l := m.entries)
    (fun k v hmem => h k v (mem_entries_iff.1 hmem))
  intro message hpanic
  unfold mapM at hpanic
  split at hpanic
  · rename_i fault hfault
    exact hq message (hfault.trans (by injection hpanic with hpanic; rw [hpanic]))
  · simp at hpanic

/-! ## Insertion -/

/-- Add an entry to a list in key order, in place of one under its key. -/
def insertEntry (k : κ) (v : α) : List (κ × α) → List (κ × α)
  | [] => [(k, v)]
  | (k', v') :: rest =>
    if k < k' then (k, v) :: (k', v') :: rest
    else if k = k' then (k, v) :: rest
    else (k', v') :: insertEntry k v rest

private theorem mem_keys_insertEntry {k x : κ} {v : α} {l : List (κ × α)}
    (h : x ∈ (insertEntry k v l).map Prod.fst) : x = k ∨ x ∈ l.map Prod.fst := by
  induction l with
  | nil => simpa [insertEntry] using h
  | cons e rest ih =>
    obtain ⟨k', v'⟩ := e
    rw [insertEntry] at h
    split_ifs at h with hlt heq
    · simpa using h
    · rw [List.map_cons, List.mem_cons] at h ⊢
      exact h.imp_right fun h => Or.inr h
    · rw [List.map_cons, List.mem_cons] at h ⊢
      rcases h with h | h
      · exact Or.inr (Or.inl h)
      · exact (ih h).imp_right Or.inr

private theorem sorted_insertEntry (k : κ) (v : α) {l : List (κ × α)}
    (h : (l.map Prod.fst).Pairwise (· < ·)) : ((insertEntry k v l).map Prod.fst).Pairwise (· < ·) := by
  induction l with
  | nil => simp [insertEntry]
  | cons e rest ih =>
    obtain ⟨k', v'⟩ := e
    rw [List.map_cons, List.pairwise_cons] at h
    rw [insertEntry]
    split_ifs with hlt heq
    · rw [List.map_cons, List.map_cons, List.pairwise_cons, List.pairwise_cons]
      refine ⟨fun x hx => ?_, h⟩
      rcases List.mem_cons.1 hx with rfl | hx
      · exact hlt
      · exact lt_trans hlt (h.1 x hx)
    · rw [List.map_cons, List.pairwise_cons]
      exact ⟨fun x hx => heq ▸ h.1 x hx, h.2⟩
    · rw [List.map_cons, List.pairwise_cons]
      refine ⟨fun x hx => ?_, ih h.2⟩
      rcases mem_keys_insertEntry hx with rfl | hx
      · exact lt_of_le_of_ne (not_lt.1 hlt) (Ne.symm heq)
      · exact h.1 x hx

private theorem lookup_cons_ite (x k : κ) (v : α) (l : List (κ × α)) :
    ((k, v) :: l).lookup x = if x = k then some v else l.lookup x := by
  rw [List.lookup_cons]
  by_cases hx : x = k
  · simp [hx]
  · rw [if_neg hx, beq_eq_false_iff_ne.2 hx]

private theorem lookup_insertEntry (k x : κ) (v : α) (l : List (κ × α)) :
    (insertEntry k v l).lookup x = if x = k then some v else l.lookup x := by
  induction l with
  | nil => rw [insertEntry, lookup_cons_ite]
  | cons e rest ih =>
    obtain ⟨k', v'⟩ := e
    rw [insertEntry]
    by_cases hlt : k < k'
    · rw [if_pos hlt, lookup_cons_ite]
    · rw [if_neg hlt]
      by_cases heq : k = k'
      · rw [if_pos heq, lookup_cons_ite, lookup_cons_ite, ← heq]
        by_cases hx : x = k <;> simp [hx]
      · rw [if_neg heq, lookup_cons_ite, lookup_cons_ite, ih]
        by_cases hx : x = k
        · rw [if_pos hx, if_pos hx, if_neg (hx ▸ heq)]
        · rw [if_neg hx, if_neg hx]

/-- An entry whose key is above all others comes last. -/
theorem insertEntry_last {k : κ} {v : α} {l : List (κ × α)} (h : ∀ e ∈ l, e.1 < k) :
    insertEntry k v l = l ++ [(k, v)] := by
  induction l with
  | nil => rfl
  | cons e rest ih =>
    obtain ⟨k', v'⟩ := e
    have hlt : k' < k := h (k', v') List.mem_cons_self
    rw [insertEntry, if_neg (lt_asymm hlt), if_neg (ne_of_gt hlt),
      ih fun e he => h e (List.mem_cons_of_mem _ he)]
    rfl

/-- Add an entry, in place of the one under its key. -/
def insert (k : κ) (v : α) (m : OrderedMap κ α) : OrderedMap κ α :=
  ⟨insertEntry k v m.entries, sorted_insertEntry k v m.sorted⟩

theorem get?_insert (k x : κ) (v : α) (m : OrderedMap κ α) :
    (m.insert k v).get? x = if x = k then some v else m.get? x :=
  lookup_insertEntry k x v m.entries

@[simp] theorem get?_insert_self (k : κ) (v : α) (m : OrderedMap κ α) :
    (m.insert k v).get? k = some v := by simp [get?_insert]

theorem get?_insert_of_ne {k x : κ} (h : x ≠ k) (v : α) (m : OrderedMap κ α) :
    (m.insert k v).get? x = m.get? x := by simp [get?_insert, h]

theorem mem_keys_insert {k x : κ} {v : α} {m : OrderedMap κ α} :
    x ∈ (m.insert k v).keys ↔ x = k ∨ x ∈ m.keys := by
  rw [mem_keys_iff, mem_keys_iff, get?_insert]
  split_ifs with hx
  · simp [hx]
  · simp [hx]

/-- The value under a key of an insertion is the new one or an old one. -/
theorem mem_values_insert {k : κ} {v w : α} {m : OrderedMap κ α}
    (h : w ∈ (m.insert k v).values) : w = v ∨ w ∈ m.values := by
  obtain ⟨x, hx⟩ := mem_values_iff.1 h
  rw [get?_insert] at hx
  split_ifs at hx
  · exact Or.inl (Option.some.inj hx).symm
  · exact Or.inr (mem_values_iff.2 ⟨x, hx⟩)

/-- The map of a list of entries; a later entry replaces an earlier one
under its key. -/
def ofList (l : List (κ × α)) : OrderedMap κ α := l.foldl (fun m e => m.insert e.1 e.2) empty

theorem get?_foldl_insert {l : List (κ × α)} (hl : (l.map Prod.fst).Nodup) (m : OrderedMap κ α)
    (k : κ) : (l.foldl (fun m e => m.insert e.1 e.2) m).get? k = (l.lookup k).or (m.get? k) := by
  induction l generalizing m with
  | nil => simp
  | cons e rest ih =>
    obtain ⟨k', v'⟩ := e
    rw [List.map_cons, List.nodup_cons] at hl
    rw [List.foldl_cons, ih hl.2, get?_insert, lookup_cons_ite]
    by_cases hk : k = k'
    · have hnone : rest.lookup k = none := by
        rw [List.lookup_eq_none_iff]
        rintro ⟨x, w⟩ he
        refine bne_iff_ne.2 fun heq => hl.1 ?_
        exact List.mem_map.2 ⟨(x, w), he, by rw [← hk, heq]⟩
      rw [if_pos hk, if_pos hk, hnone, Option.none_or, Option.some_or]
    · rw [if_neg hk, if_neg hk]

theorem get?_ofList_iff {l : List (κ × α)} (hl : (l.map Prod.fst).Nodup) {k : κ} {v : α} :
    (ofList l).get? k = some v ↔ (k, v) ∈ l := by
  rw [ofList, get?_foldl_insert hl, get?_empty, Option.or_none]
  exact ⟨mem_of_lookup, lookup_of_mem hl⟩

theorem mem_of_get?_foldl_insert {l : List (κ × α)} {m : OrderedMap κ α} {k : κ} {v : α}
    (h : (l.foldl (fun m e => m.insert e.1 e.2) m).get? k = some v) :
    (k, v) ∈ l ∨ m.get? k = some v := by
  induction l generalizing m with
  | nil => exact Or.inr h
  | cons e rest ih =>
    rw [List.mem_cons]
    rcases ih h with hmem | hget
    · exact Or.inl (Or.inr hmem)
    · rw [get?_insert] at hget
      split_ifs at hget with hkey
      · exact Or.inl (Or.inl (Prod.ext hkey (Option.some.inj hget).symm))
      · exact Or.inr hget

theorem mem_of_get?_ofList {l : List (κ × α)} {k : κ} {v : α} (h : (ofList l).get? k = some v) :
    (k, v) ∈ l := by
  rcases mem_of_get?_foldl_insert h with hmem | hempty
  · exact hmem
  · simp at hempty

/-- Keep the entries whose key satisfies `p`. -/
def filter (p : κ → Bool) (m : OrderedMap κ α) : OrderedMap κ α :=
  ⟨m.entries.filter (fun e => p e.1), m.sorted.sublist (List.filter_sublist.map _)⟩

theorem get?_filter (p : κ → Bool) (m : OrderedMap κ α) (k : κ) :
    (m.filter p).get? k = if p k = true then m.get? k else none := by
  refine Option.ext fun v => ?_
  rw [← mem_entries_iff]
  show (k, v) ∈ m.entries.filter (fun e => p e.1) ↔ _
  rw [List.mem_filter, mem_entries_iff]
  split_ifs with hp
  · simp [hp]
  · simp [hp]

/-- Inserting the entries of a map one after another gives the map. -/
theorem ofList_entries (m : OrderedMap κ α) : ofList m.entries = m := by
  refine ext_get? fun k => ?_
  rw [ofList, get?_foldl_insert m.keys_nodup, get?_empty, Option.or_none]
  rfl

end OrderedMap

end Lib
