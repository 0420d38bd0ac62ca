import DstServer.Archive.Paths

/-!
# What the register of paths keeps

A run of accepted insertions registers the nodes of its paths: every path and
every directory above one.  `Compatible` is what two nodes must have in
common, and `Registered` says that the register holds the first node of each
folded form.

* `insertParts_spec` follows the loop of an insertion node by node.
* `pairwise_nodes_iff` says in terms of paths what compatible nodes are.
* `paths_invariant` is the invariant of the register, and the only reason to
  reject a path.
-/

namespace DstServer.Archive

open Lib Outcome

/-- An insertion into the register. -/
structure Insertion where
  path : FilePath
  directory : Bool
  deriving DecidableEq

/-! ## Folded forms -/

section Fold

variable (mapping : CaseMapping)

/-- The folded form of the components `rest` below `above`. -/
def foldFrom : FilePath → FilePath → List Text
  | _, [] => []
  | above, part :: rest =>
    foldName mapping (above ++ [part]) (part.toStr.getD []) :: foldFrom (above ++ [part]) rest

/-- The folded form of a path. -/
def fold (path : FilePath) : List Text := foldFrom mapping [] path

theorem foldFrom_append (above first second : FilePath) :
    foldFrom mapping above (first ++ second) =
      foldFrom mapping above first ++ foldFrom mapping (above ++ first) second := by
  induction first generalizing above with
  | nil => rw [List.append_nil, List.nil_append]; rfl
  | cons part first ih =>
    show _ :: foldFrom mapping (above ++ [part]) (first ++ second) = _ :: (_ ++ _)
    rw [ih, List.append_assoc, List.singleton_append]

theorem fold_concat (path : FilePath) (part : Component) :
    fold mapping (path ++ [part]) =
      fold mapping path ++ [foldName mapping (path ++ [part]) (part.toStr.getD [])] :=
  foldFrom_append mapping [] path [part]

theorem length_foldFrom (above path : FilePath) :
    (foldFrom mapping above path).length = path.length := by
  induction path generalizing above with
  | nil => rfl
  | cons part rest ih =>
    show (foldFrom mapping (above ++ [part]) rest).length + 1 = rest.length + 1
    rw [ih]

theorem length_eq_of_fold {path path' : FilePath} (h : fold mapping path = fold mapping path') :
    path.length = path'.length := by
  have hlength := congrArg List.length h
  unfold fold at hlength
  rwa [length_foldFrom, length_foldFrom] at hlength

end Fold

/-! ## Nodes -/

/-- The nodes of the components `rest` below `above`: each prefix of the
path, and whether it is a directory. -/
def nodesFrom (path : FilePath) (directory : Bool) : FilePath → FilePath → List (FilePath × Bool)
  | _, [] => []
  | above, part :: rest =>
    (above ++ [part], decide (above ++ [part] ≠ path) || directory) ::
      nodesFrom path directory (above ++ [part]) rest

def nodes (insertion : Insertion) : List (FilePath × Bool) :=
  nodesFrom insertion.path insertion.directory [] insertion.path

theorem mem_nodesFrom {path : FilePath} {directory : Bool} {above rest : FilePath}
    {node : FilePath × Bool} :
    node ∈ nodesFrom path directory above rest ↔
      (∃ parts, parts ≠ [] ∧ parts <+: rest ∧ node.1 = above ++ parts) ∧
        node.2 = (decide (node.1 ≠ path) || directory) := by
  induction rest generalizing above with
  | nil =>
    constructor
    · intro h
      cases h
    · intro h
      obtain ⟨⟨parts, hne, hpre, -⟩, -⟩ := h
      exact absurd (List.prefix_nil.1 hpre) hne
  | cons part rest ih =>
    show node ∈ _ :: nodesFrom path directory (above ++ [part]) rest ↔ _
    rw [List.mem_cons, ih]
    constructor
    · intro h
      rcases h with rfl | ⟨⟨parts, hne, hpre, hnode⟩, hflag⟩
      · exact ⟨⟨[part], by simp, by simp, rfl⟩, rfl⟩
      · refine ⟨⟨part :: parts, by simp, (List.prefix_cons_inj part).2 hpre, ?_⟩, hflag⟩
        rw [hnode, List.append_assoc, List.singleton_append]
    · intro h
      obtain ⟨⟨parts, hne, hpre, hnode⟩, hflag⟩ := h
      cases parts with
      | nil => exact absurd rfl hne
      | cons first parts =>
        obtain ⟨rfl, hbelow⟩ := List.cons_prefix_cons.1 hpre
        by_cases hparts : parts = []
        · left
          subst hparts
          exact Prod.ext hnode (by rw [hflag, hnode])
        · right
          refine ⟨⟨parts, hparts, hbelow, ?_⟩, hflag⟩
          rw [hnode, List.append_assoc, List.singleton_append]

theorem mem_nodes {insertion : Insertion} {node : FilePath × Bool} :
    node ∈ nodes insertion ↔
      node.1 ≠ [] ∧ node.1 <+: insertion.path ∧
        node.2 = (decide (node.1 ≠ insertion.path) || insertion.directory) := by
  unfold nodes
  rw [mem_nodesFrom]
  constructor
  · intro h
    obtain ⟨⟨parts, hne, hpre, hnode⟩, hflag⟩ := h
    rw [List.nil_append] at hnode
    rw [← hnode] at hne hpre
    exact ⟨hne, hpre, hflag⟩
  · intro h
    obtain ⟨hne, hpre, hflag⟩ := h
    exact ⟨⟨node.1, hne, hpre, rfl⟩, hflag⟩

/-! ## The loop of an insertion -/

section Register

variable {mapping : CaseMapping}

/-- Two nodes with one folded form are the same directory. -/
def Compatible (mapping : CaseMapping) (node node' : FilePath × Bool) : Prop :=
  fold mapping node.1 = fold mapping node'.1 → node.1 = node'.1 ∧ node.2 = true ∧ node'.2 = true

/-- The register holds the first node of every folded form. -/
structure Registered (mapping : CaseMapping) (paths : Paths) (seen : List (FilePath × Bool)) :
    Prop where
  compatible : seen.Pairwise (Compatible mapping)
  get? : ∀ key, paths.get? key = seen.find? fun node => fold mapping node.1 = key

theorem registered_empty : Registered mapping .empty [] where
  compatible := .nil
  get? := fun _ => rfl

variable {paths : Paths} {seen : List (FilePath × Bool)}

/-- One more node that is new, or the same directory again. -/
theorem Registered.compatible_concat (h : Registered mapping paths seen) {node : FilePath × Bool}
    (hnode : ∀ previous, paths.get? (fold mapping node.1) = some previous →
      previous.1 = node.1 ∧ previous.2 = true ∧ node.2 = true) :
    (seen ++ [node]).Pairwise (Compatible mapping) := by
  rw [List.pairwise_append]
  refine ⟨h.compatible, List.pairwise_singleton _ _, ?_⟩
  intro other hother last hlast hfold
  rw [List.mem_singleton] at hlast
  subst hlast
  -- The first node with this folded form stands for every other one.
  cases hfind : seen.find? fun n => fold mapping n.1 = fold mapping last.1 with
  | none =>
    rw [List.find?_eq_none] at hfind
    exact absurd hfold (by simpa using hfind other hother)
  | some previous =>
    obtain ⟨hprevious, hdirectory, hlast⟩ := hnode previous (by rw [h.get?, hfind])
    obtain ⟨before, after, hsplit, hbefore⟩ := List.find?_eq_some_iff_append.1 hfind |>.2
    have hpairs := h.compatible
    rw [hsplit] at hother hpairs
    rcases List.mem_append.1 hother with hother | hother
    · exact absurd hfold (by simpa using hbefore other hother)
    · rcases List.mem_cons.1 hother with rfl | hother
      · exact ⟨hprevious, hdirectory, hlast⟩
      · have hcompat := List.rel_of_pairwise_cons (List.pairwise_append.1 hpairs).2.1 hother
        have hsame : fold mapping previous.1 = fold mapping other.1 := by rw [hprevious, hfold]
        obtain ⟨heq, -, hdirectory'⟩ := hcompat hsame
        exact ⟨heq.symm.trans hprevious, hdirectory', hlast⟩

/-- The loop succeeds when all nodes are compatible, and then it has
registered them. -/
theorem insertParts_spec (path : FilePath) (directory : Bool) (above : FilePath) {rest : FilePath}
    (hutf8 : ∀ part ∈ rest, part.toStr.isSome = true) (h : Registered mapping paths seen) :
    let result := insertParts mapping path directory above (fold mapping above) rest paths
    let all := seen ++ nodesFrom path directory above rest
    (result.1 = .ok () ↔ all.Pairwise (Compatible mapping)) ∧
      (result.1 = .ok () → Registered mapping result.2 all) := by
  induction rest generalizing above paths seen with
  | nil =>
    show (_ ↔ (seen ++ []).Pairwise _) ∧ (_ → Registered mapping paths (seen ++ []))
    rw [List.append_nil]
    exact ⟨⟨fun _ => h.compatible, fun _ => rfl⟩, fun _ => h⟩
  | cons part rest ih =>
    obtain ⟨name, hname⟩ := Option.isSome_iff_exists.1 (hutf8 part List.mem_cons_self)
    have hrest : ∀ part ∈ rest, part.toStr.isSome = true :=
      fun other hother => hutf8 other (List.mem_cons_of_mem part hother)
    have hkey : fold mapping above ++ [foldName mapping (above ++ [part]) name] =
        fold mapping (above ++ [part]) := by
      rw [fold_concat, hname]
      rfl
    have hsplit : seen ++ nodesFrom path directory above (part :: rest) =
        seen ++ [(above ++ [part], decide (above ++ [part] ≠ path) || directory)] ++
          nodesFrom path directory (above ++ [part]) rest := by
      rw [List.append_assoc]
      rfl
    intro result all
    have hall : all = _ := hsplit
    have hresult : result = insertParts mapping path directory above (fold mapping above)
      (part :: rest) paths := rfl
    rw [insertParts, hname] at hresult
    simp only [hkey] at hresult
    have hget := h.get? (fold mapping (above ++ [part]))
    cases hprevious : paths.get? (fold mapping (above ++ [part])) with
    | none =>
      rw [hprevious] at hresult hget
      have hnext : Registered mapping
          (paths.insert (fold mapping (above ++ [part]))
            (above ++ [part], decide (above ++ [part] ≠ path) || directory))
          (seen ++ [(above ++ [part], decide (above ++ [part] ≠ path) || directory)]) := by
        refine ⟨h.compatible_concat fun previous hsome => ?_, fun key => ?_⟩
        · rw [hprevious] at hsome
          cases hsome
        · rw [List.find?_append]
          by_cases hsame : key = fold mapping (above ++ [part])
          · rw [hsame, OrderedMap.get?_insert_self, ← hget]
            simp
          · rw [OrderedMap.get?_insert_of_ne hsame, h.get?]
            have hnot : ¬fold mapping (above ++ [part]) = key := fun heq => hsame heq.symm
            simp [hnot]
      rw [hresult, hall]
      exact ih (above ++ [part]) hrest hnext
    | some previous =>
      rw [hprevious] at hresult hget
      by_cases hsame : previous.1 = above ++ [part] ∧ previous.2 = true ∧
          (decide (above ++ [part] ≠ path) || directory) = true
      · have hnext : Registered mapping paths
            (seen ++ [(above ++ [part], decide (above ++ [part] ≠ path) || directory)]) := by
          refine ⟨h.compatible_concat fun other hother => ?_, fun key => ?_⟩
          · rw [hprevious] at hother
            rw [← Option.some.inj hother]
            exact hsame
          · rw [List.find?_append, h.get?]
            by_cases hkey' : key = fold mapping (above ++ [part])
            · rw [hkey', ← hget]
              rfl
            · have hnot : ¬fold mapping (above ++ [part]) = key := fun heq => hkey' heq.symm
              simp [hnot]
        simp only [if_pos hsame] at hresult
        rw [hresult, hall]
        exact ih (above ++ [part]) hrest hnext
      · simp only [if_neg hsame] at hresult
        have hfails : result.1 ≠ .ok () := by
          rw [hresult]
          exact fail_ne_ok
        refine ⟨⟨fun hok => absurd hok hfails, fun hpairs => ?_⟩, fun hok => absurd hok hfails⟩
        -- The registered node and the new one have the same folded form.
        rw [hall, List.append_assoc, List.pairwise_append] at hpairs
        have hmem := List.mem_of_find?_eq_some hget.symm
        have hfold := List.find?_some hget.symm
        simp only [decide_eq_true_eq] at hfold
        exact absurd (hpairs.2.2 previous hmem _ List.mem_cons_self hfold) hsame

end Register

/-! ## Runs -/

section Run

variable {mapping : CaseMapping}

/-- A run of accepted insertions into an empty register. -/
inductive Accepted (mapping : CaseMapping) : List Insertion → Paths → Prop where
  | nil : Accepted mapping [] .empty
  | snoc {insertions : List Insertion} {paths paths' : Paths} {insertion : Insertion} :
    Accepted mapping insertions paths →
    insert mapping paths insertion.path insertion.directory = (.ok (), paths') →
    Accepted mapping (insertions ++ [insertion]) paths'

/-- A valid path has components, and all of them are names in UTF-8. -/
theorem validatePath_ok {path : FilePath} (h : validatePath mapping path = .ok ()) :
    path ≠ [] ∧ ∀ part ∈ path, part.toStr.isSome = true := by
  unfold validatePath at h
  obtain ⟨_, hne, h⟩ := bind_eq_ok.1 h
  obtain ⟨_, -, h⟩ := bind_eq_ok.1 h
  refine ⟨ensure_eq_ok.1 hne, fun part hpart => ?_⟩
  have hvalid := forM_eq_ok.1 h part hpart
  cases part with
  | normal name => rfl
  | raw name => exact absurd hvalid fail_ne_ok
  | rootDir => rfl
  | curDir => rfl
  | parentDir => rfl

/-- An insertion of a valid path is the loop over its components. -/
theorem insert_eq {paths : Paths} {path : FilePath} (hvalid : validatePath mapping path = .ok ())
    (directory : Bool) :
    insert mapping paths path directory =
      insertParts mapping path directory [] (fold mapping []) path paths := by
  unfold insert
  rw [hvalid]
  rfl

theorem validatePath_of_insert {paths paths' : Paths} {path : FilePath} {directory : Bool}
    (h : insert mapping paths path directory = (.ok (), paths')) :
    validatePath mapping path = .ok () := by
  unfold insert at h
  cases hvalid : validatePath mapping path with
  | error e =>
    rw [hvalid] at h
    cases h
  | ok u => rfl

theorem Accepted.insert {insertions : List Insertion} {paths : Paths}
    (h : Accepted mapping insertions paths) {path : FilePath} {directory : Bool}
    (hok : (Archive.insert mapping paths path directory).1 = .ok ()) :
    Accepted mapping (insertions ++ [⟨path, directory⟩])
      (Archive.insert mapping paths path directory).2 := .snoc h (Prod.ext hok rfl)

theorem Accepted.valid {insertions : List Insertion} {paths : Paths}
    (h : Accepted mapping insertions paths) :
    ∀ insertion ∈ insertions, validatePath mapping insertion.path = .ok () := by
  induction h with
  | nil => simp
  | @snoc insertions paths paths' insertion _ hinsert ih =>
    intro other hother
    rcases List.mem_append.1 hother with hother | hother
    · exact ih other hother
    · rw [List.mem_singleton.1 hother]
      exact validatePath_of_insert hinsert

theorem Accepted.registered {insertions : List Insertion} {paths : Paths}
    (h : Accepted mapping insertions paths) :
    Registered mapping paths (insertions.flatMap nodes) := by
  induction h with
  | nil => exact registered_empty
  | @snoc insertions paths paths' insertion _ hinsert ih =>
    have hvalid := validatePath_of_insert hinsert
    rw [insert_eq hvalid] at hinsert
    have hspec := (insertParts_spec insertion.path insertion.directory []
      (validatePath_ok hvalid).2 ih).2
    rw [hinsert] at hspec
    rw [List.flatMap_append, List.flatMap_singleton]
    exact hspec rfl

/-! ## What compatible nodes are -/

/-- Two paths, or directories above them, with one folded form are equal. -/
def Distinct (mapping : CaseMapping) (insertions : List Insertion) : Prop :=
  ∀ first ∈ insertions, ∀ second ∈ insertions, ∀ path path', path <+: first.path →
    path' <+: second.path → fold mapping path = fold mapping path' → path = path'

/-- No file is a proper prefix of another path. -/
def Leaves (insertions : List Insertion) : Prop :=
  ∀ first ∈ insertions, ∀ second ∈ insertions, first.directory = false →
    first.path <+: second.path → first.path = second.path

/-- The path of a file was inserted once. -/
def Once (insertions : List Insertion) : Prop :=
  insertions.Pairwise fun first second =>
    first.path = second.path → first.directory = true ∧ second.directory = true

structure Clean (mapping : CaseMapping) (insertions : List Insertion) : Prop where
  distinct : Distinct mapping insertions
  leaves : Leaves insertions
  once : Once insertions

/-- Two nodes of one path never have one folded form. -/
theorem pairwise_nodesFrom (path : FilePath) (directory : Bool) (above rest : FilePath) :
    (nodesFrom path directory above rest).Pairwise (Compatible mapping) := by
  induction rest generalizing above with
  | nil => exact .nil
  | cons part rest ih =>
    refine List.pairwise_cons.2 ⟨fun node hnode hfold => ?_, ih (above ++ [part])⟩
    obtain ⟨⟨parts, hne, -, hparts⟩, -⟩ := mem_nodesFrom.1 hnode
    have hlength := length_eq_of_fold mapping hfold
    rw [hparts] at hlength
    simp only [List.length_append] at hlength
    have hpos := List.length_pos_iff.2 hne
    omega

/-- The nodes of two insertions are compatible. -/
def Apart (mapping : CaseMapping) (first second : Insertion) : Prop :=
  ∀ node ∈ nodes first, ∀ node' ∈ nodes second, Compatible mapping node node'

theorem Apart.symm {first second : Insertion} (h : Apart mapping first second) :
    Apart mapping second first := by
  intro node hnode node' hnode' hfold
  obtain ⟨hpath, hdirectory, hdirectory'⟩ := h node' hnode' node hnode hfold.symm
  exact ⟨hpath.symm, hdirectory', hdirectory⟩

/-- A node of an insertion, given by a prefix of its path. -/
theorem node_mem {insertion : Insertion} {path : FilePath} (hne : path ≠ [])
    (hpre : path <+: insertion.path) :
    (path, decide (path ≠ insertion.path) || insertion.directory) ∈ nodes insertion :=
  mem_nodes.2 ⟨hne, hpre, rfl⟩

/-- Of two insertions in a list, one comes before the other, or they are at
the same place. -/
theorem apart_or_eq {insertions : List Insertion} (h : insertions.Pairwise (Apart mapping))
    {first second : Insertion} (hfirst : first ∈ insertions) (hsecond : second ∈ insertions) :
    first = second ∨ Apart mapping first second := by
  induction h with
  | nil => cases hfirst
  | cons hapart _ ih =>
    rcases List.mem_cons.1 hfirst with heq | hbelow
    · rcases List.mem_cons.1 hsecond with heq' | hbelow'
      · exact Or.inl (heq.trans heq'.symm)
      · rw [heq]
        exact Or.inr (hapart second hbelow')
    · rcases List.mem_cons.1 hsecond with heq' | hbelow'
      · rw [heq']
        exact Or.inr (hapart first hbelow).symm
      · exact ih hbelow hbelow'

theorem Clean.of_pairwise {insertions : List Insertion}
    (hne : ∀ insertion ∈ insertions, insertion.path ≠ [])
    (h : insertions.Pairwise (Apart mapping)) : Clean mapping insertions where
  distinct := by
    intro first hfirst second hsecond path path' hpath hpath' hfold
    have hlength := length_eq_of_fold mapping hfold
    rcases apart_or_eq h hfirst hsecond with rfl | hapart
    · exact (List.prefix_of_prefix_length_le hpath hpath' (Nat.le_of_eq hlength)).eq_of_length hlength
    · by_cases hempty : path = []
      · subst hempty
        exact (List.length_eq_zero_iff.1 hlength.symm).symm
      · have hempty' : path' ≠ [] := by
          intro heq
          subst heq
          exact hempty (List.length_eq_zero_iff.1 hlength)
        exact (hapart _ (node_mem hempty hpath) _ (node_mem hempty' hpath') hfold).1
  leaves := by
    intro first hfirst second hsecond hfile hpre
    rcases apart_or_eq h hfirst hsecond with rfl | hapart
    · rfl
    · obtain ⟨-, hdirectory, -⟩ := hapart _ (node_mem (hne first hfirst) (List.prefix_refl _)) _
        (node_mem (hne first hfirst) hpre) rfl
      simp [hfile] at hdirectory
  once := by
    refine h.imp_of_mem fun hfirst hsecond hapart hpath => ?_
    rename_i first second
    obtain ⟨-, hdirectory, hdirectory'⟩ :=
      hapart _ (node_mem (hne first hfirst) (List.prefix_refl _)) _
        (node_mem (hne second hsecond) (List.prefix_refl _)) (congrArg _ hpath)
    simp only [ne_eq, not_true_eq_false, decide_false, Bool.false_or] at hdirectory hdirectory'
    exact ⟨hdirectory, hdirectory'⟩

theorem Clean.pairwise {insertions : List Insertion} (h : Clean mapping insertions) :
    insertions.Pairwise (Apart mapping) := by
  refine h.once.imp_of_mem fun hfirst hsecond honce => ?_
  rename_i first second
  intro node hnode node' hnode' hfold
  obtain ⟨-, hpre, hflag⟩ := mem_nodes.1 hnode
  obtain ⟨-, hpre', hflag'⟩ := mem_nodes.1 hnode'
  have hpath := h.distinct first hfirst second hsecond _ _ hpre hpre' hfold
  -- A file is its whole path, and then the other path is the same one.
  have hfile : node.1 = first.path → first.directory = true := by
    intro heq
    by_contra hnot
    have hleaf := h.leaves first hfirst second hsecond (by simpa using hnot)
      (by rw [← heq, hpath]; exact hpre')
    exact hnot (honce hleaf).1
  have hfile' : node'.1 = second.path → second.directory = true := by
    intro heq
    by_contra hnot
    have hleaf := h.leaves second hsecond first hfirst (by simpa using hnot)
      (by rw [← heq, ← hpath]; exact hpre)
    exact hnot (honce hleaf.symm).2
  refine ⟨hpath, ?_, ?_⟩
  · rw [hflag, Bool.or_eq_true, decide_eq_true_eq]
    exact (Classical.em (node.1 = first.path)).symm.imp_right hfile
  · rw [hflag', Bool.or_eq_true, decide_eq_true_eq]
    exact (Classical.em (node'.1 = second.path)).symm.imp_right hfile'

theorem pairwise_nodes_iff {insertions : List Insertion}
    (hne : ∀ insertion ∈ insertions, insertion.path ≠ []) :
    (insertions.flatMap nodes).Pairwise (Compatible mapping) ↔ Clean mapping insertions := by
  rw [List.pairwise_flatMap]
  constructor
  · intro h
    exact .of_pairwise hne h.2
  · intro h
    exact ⟨fun insertion _ => pairwise_nodesFrom _ _ _ _, h.pairwise⟩

/-! ## The invariant -/

theorem Accepted.clean {insertions : List Insertion} {paths : Paths}
    (h : Accepted mapping insertions paths) : Clean mapping insertions :=
  (pairwise_nodes_iff fun insertion hinsertion =>
    (validatePath_ok (h.valid insertion hinsertion)).1).1 h.registered.compatible

/-- The paths of a run are clean, and a valid path is rejected exactly when
they would not be clean with it. -/
theorem paths_invariant {insertions : List Insertion} {paths : Paths}
    (h : Accepted mapping insertions paths) :
    Clean mapping insertions ∧
      ∀ path directory, validatePath mapping path = .ok () →
        ((insert mapping paths path directory).1 ≠ .ok () ↔
          ¬Clean mapping (insertions ++ [⟨path, directory⟩])) := by
  refine ⟨h.clean, fun path directory hvalid => ?_⟩
  have hne : ∀ insertion ∈ insertions ++ [⟨path, directory⟩], insertion.path ≠ [] := by
    intro insertion hinsertion
    rcases List.mem_append.1 hinsertion with hinsertion | hinsertion
    · exact (validatePath_ok (h.valid insertion hinsertion)).1
    · rw [List.mem_singleton.1 hinsertion]
      exact (validatePath_ok hvalid).1
  have hspec := (insertParts_spec path directory [] (validatePath_ok hvalid).2 h.registered).1
  rw [insert_eq hvalid, ← pairwise_nodes_iff hne, List.flatMap_append, List.flatMap_singleton]
  exact not_congr hspec

theorem paths_invariant_sample :
    let mapping : CaseMapping := ⟨List.map Char.toLower, List.map Char.toUpper⟩
    let path : FilePath := ["save", "session", "0", "KU_a"].map (.normal ·.toList)
    let path' : FilePath := ["save", "session", "0", "KU_A"].map (.normal ·.toList)
    let path'' : FilePath := ["save", "Session"].map (.normal ·.toList)
    ∃ paths, Accepted mapping [⟨path, false⟩, ⟨path', true⟩] paths ∧
      Clean mapping [⟨path, false⟩, ⟨path', true⟩] ∧
      ¬Clean mapping [⟨path, false⟩, ⟨path', true⟩, ⟨path'', true⟩] := by
  intro mapping path path' path''
  have hfirst : (insert mapping .empty path false).1 = .ok () := by decide +kernel
  have hsecond : (insert mapping (insert mapping .empty path false).2 path' true).1 = .ok () := by
    decide +kernel
  have haccepted : Accepted mapping [⟨path, false⟩, ⟨path', true⟩] _ :=
    (Accepted.nil.insert hfirst).insert hsecond
  have hvalid : validatePath mapping path'' = .ok () := by decide +kernel
  have hrejected : (insert mapping (insert mapping (insert mapping .empty path false).2 path' true).2
      path'' true).1 ≠ .ok () := by decide +kernel
  exact ⟨_, haccepted, (paths_invariant haccepted).1,
    ((paths_invariant haccepted).2 path'' true hvalid).1 hrejected⟩

/-- No path was inserted as a file twice. -/
def FileOnce (insertions : List Insertion) : Prop :=
  insertions.Pairwise fun first second =>
    first.path = second.path → first.directory = true ∨ second.directory = true

/-- A path that was accepted as a directory is rejected as a file, although
no file would be inserted twice. -/
theorem rejects_file_at_directory :
    ¬∀ mapping insertions paths, Accepted mapping insertions paths →
      ∀ path directory, validatePath mapping path = .ok () →
        (insert mapping paths path directory).1 ≠ .ok () →
        ¬(Distinct mapping (insertions ++ [⟨path, directory⟩]) ∧
          Leaves (insertions ++ [⟨path, directory⟩]) ∧
          FileOnce (insertions ++ [⟨path, directory⟩])) := by
  intro h
  let mapping : CaseMapping := ⟨id, id⟩
  let path : FilePath := [.normal "a".toList]
  have hfirst : (insert mapping .empty path true).1 = .ok () := by decide +kernel
  have haccepted : Accepted mapping [⟨path, true⟩] _ :=
    Accepted.nil.insert hfirst
  have hrejected : (insert mapping (insert mapping .empty path true).2 path false).1 ≠ .ok () := by
    decide +kernel
  have hpath : ∀ insertion ∈ [Insertion.mk path true, ⟨path, false⟩], insertion.path = path := by
    decide +kernel
  refine h mapping _ _ haccepted path false (by decide +kernel) hrejected ⟨?_, ?_, ?_⟩
  · intro first hfirst second hsecond above above' habove habove' hfold
    rw [hpath first hfirst] at habove
    rw [hpath second hsecond] at habove'
    have hlength := length_eq_of_fold mapping hfold
    exact (List.prefix_of_prefix_length_le habove habove' (Nat.le_of_eq hlength)).eq_of_length
      hlength
  · intro first hfirst second hsecond _ _
    rw [hpath first hfirst, hpath second hsecond]
  · refine .cons (fun second _ _ => Or.inl rfl) (.cons (by simp) .nil)

/-! ## Archives -/

/-- The loop of `archive_root` is a run of accepted insertions. -/
theorem scanEntries_accepted {client : Bool} {entries : List Entry} {insertions : List Insertion}
    {paths : Paths} {roots roots' : List FilePath} {size : Nat}
    (h : scanEntries mapping client entries paths roots size = .ok roots')
    (haccepted : Accepted mapping insertions paths) :
    ∃ paths', Accepted mapping
      (insertions ++ entries.map fun entry => ⟨entry.path, entry.directory⟩) paths' := by
  induction entries generalizing insertions paths roots size with
  | nil =>
    rw [List.map_nil, List.append_nil]
    exact ⟨paths, haccepted⟩
  | cons entry entries ih =>
    obtain ⟨_, hinsert, h⟩ := bind_eq_ok.1 h
    obtain ⟨_, -, h⟩ := bind_eq_ok.1 h
    obtain ⟨_, -, h⟩ := bind_eq_ok.1 h
    have hnext : Accepted mapping (insertions ++ [⟨entry.path, entry.directory⟩])
        (insert mapping paths entry.path entry.directory).2 :=
      haccepted.insert hinsert
    obtain ⟨paths', hpaths'⟩ := ih h hnext
    rw [List.append_assoc] at hpaths'
    exact ⟨paths', hpaths'⟩

/-- An archive with a root has clean paths. -/
theorem archiveRoot_clean {entries : List Entry} {client : Bool} {root : FilePath}
    (h : archiveRoot mapping entries client = .ok root) :
    Clean mapping (entries.map fun entry => ⟨entry.path, entry.directory⟩) := by
  obtain ⟨_, -, h⟩ := bind_eq_ok.1 h
  obtain ⟨roots, hscan, -⟩ := bind_eq_ok.1 h
  obtain ⟨paths, haccepted⟩ := scanEntries_accepted hscan .nil
  rw [List.nil_append] at haccepted
  exact haccepted.clean

end Run

end DstServer.Archive
