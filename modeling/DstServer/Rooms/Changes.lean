import DstServer.Configuration.Ini
import DstServer.Lib.Path

/-!
# Batches of file changes

The model of `validate_changes` in `files.rs`, the check of a batch of
files to write and to remove before the first of them is touched.

A `Path` is compared by its components, as `PathBuf` is.  `PathSafe` is
what the callers rely on; `validate_changes_safe` gets it from the check.
-/

namespace DstServer.Rooms

open Lib Lib.Outcome DstServer.Configuration

/-! ## Paths -/

/-- The text of a path, or bytes that are no text. -/
inductive Path where
  | text (text : Text)
  | bytes (bytes : List UInt8)
  deriving DecidableEq, Repr

namespace Path

/-- `Path::components`, at a text: empty components and `.` are skipped,
except for a `.` at the beginning. -/
def componentsOf (text : Text) : List Component :=
  let parts := text.splitOn '/'
  let start : List Component :=
    if text.head? = some '/' then [.rootDir]
    else if parts.head? = some ['.'] then [.curDir] else []
  start ++ (parts.filter fun part => part ≠ [] && part ≠ ['.']).map fun part =>
    if part = ['.', '.'] then .parentDir else .normal part

/-- The parts of a path, which `BTreeMap` and `BTreeSet` compare.  A path
that is no text is refused before its parts matter. -/
def components : Path → List Component
  | .text source => componentsOf source
  | .bytes raw => [.raw raw]

/-- `Path::file_name` -/
def fileName (path : Path) : Option Text :=
  match path.components.getLast? with
  | some (.normal name) => some name
  | _ => none

/-- `Path::extension`: what follows the last dot, unless that begins the name. -/
def extension (path : Path) : Option Text := do
  let name ← path.fileName
  let (after, before) ← Text.splitOnce (· = '.') name.reverse
  if before = [] then none else some after.reverse

end Path

/-- `ancestors().skip(1)` of a path with these components. -/
def ancestors (components : List Component) : List (List Component) :=
  (List.range components.length).map components.take

/-! ## The check -/

/-- `MAX_FILE_BYTES` -/
def maxFileBytes : Nat := 1024 * 1024

/-- `MAX_CONFIG_FILES` -/
def maxConfigFiles : Nat := 1024

/-- `MAX_CONFIG_BYTES` -/
def maxConfigBytes : Nat := 16 * 1024 * 1024

/-- `PERMISSION_FILES` -/
def permissionFiles : List Text :=
  ["adminlist.txt".toList, "whitelist.txt".toList, "blocklist.txt".toList]

inductive PermissionMode where
  | preserve
  | replaceOffline
  deriving DecidableEq, Repr

/-- The files to write, one for each path. -/
structure FileChanges where
  entries : List (Path × Text)
  distinct : (entries.map fun entry => entry.1.components).Nodup

def relativeComponents (path : Path) : Outcome String (List Text) :=
  match path with
  | .bytes _ => fail "configuration path must be UTF-8"
  | .text text => do
    ensure (text ≠ [] ∧ Text.utf8Length text ≤ 4096 ∧
        ∀ c ∈ text, c ∉ ['\x00', '\r', '\n', '\\'])
      "unsafe relative configuration path"
    let parts := text.splitOn '/'
    ensure (parts.length ≤ 16 ∧ ∀ part ∈ parts,
        part ≠ [] ∧ part ≠ ['.'] ∧ part ≠ ['.', '.'] ∧ Text.utf8Length part ≤ 255)
      "unsafe relative configuration path"
    pure parts

/-- `ini_kind` -/
def iniKind (path : Path) : Option Bool :=
  if path.fileName = some "cluster.ini".toList then some false
  else if path.fileName = some "server.ini".toList then some true
  else none

/-- `path.display()` -/
def displayPath : Path → String
  | .text text => .ofList text
  | .bytes _ => ""

/-- The part of the loop over the files that is about one path. -/
def checkWritten (permissions : PermissionMode) (path : Path) (contents : Text) (bytes : Nat) :
    Outcome String Nat := do
  let components ← relativeComponents path
  ensure (∀ name ∈ components, ¬".dst-".toList <+: name)
    "configuration update cannot replace controller files"
  ensure (Text.utf8Length contents ≤ maxFileBytes) "configuration file exceeds the byte limit"
  ensure ('\x00' ∉ contents) "configuration text cannot contain NUL"
  let bytes := bytes + Text.utf8Length contents
  ensure (bytes < 2 ^ 64) "configuration update size overflow"
  ensure (bytes ≤ maxConfigBytes) "configuration update exceeds the byte limit"
  if components.length = 1 ∧ ∀ name ∈ components.head?, name ∈ permissionFiles then
    ensure (permissions = .replaceOffline) "permission files require an explicit offline replacement"
    ensure ('\r' ∉ contents) "permission files cannot contain CR"
  if path.extension = some "ini".toList then
    let _ ← Ini.parse (displayPath path) contents (iniKind path)
  pure bytes

/-- The loop over the files. -/
def checkFiles (permissions : PermissionMode) : List (Path × Text) → Nat → Outcome String Unit
  | [], _ => pure ()
  | (path, contents) :: rest, bytes => do
    let bytes ← checkWritten permissions path contents bytes
    checkFiles permissions rest bytes

/-- The files of a shard that can be removed. -/
def shardFiles : List Text :=
  ["server.ini".toList, "worldgenoverride.lua".toList, "leveldataoverride.lua".toList]

/-- The check of the parts of a path that is to be removed. -/
def IsShardFile : List Text → Prop
  | [shard, name] => shard.head? ≠ some '.' ∧ shard ≠ "mods".toList ∧ name ∈ shardFiles
  | _ => False

instance : DecidablePred IsShardFile
  | [_, _] => inferInstanceAs (Decidable (_ ∧ _ ∧ _))
  | [] => .isFalse id
  | [_] => .isFalse id
  | _ :: _ :: _ :: _ => .isFalse id

/-- The loop over the paths that are to be removed, with the set of the
paths so far. -/
def checkRemoved : List Path → List (List Component) → Outcome String (List (List Component))
  | [], paths => pure paths
  | path :: rest, paths => do
    let parts ← relativeComponents path
    ensure (IsShardFile parts) "only shard configuration files can be removed"
    ensure (path.components ∉ paths) "duplicate configuration update path"
    checkRemoved rest (path.components :: paths)

def validateChanges (files : FileChanges) (removed : List Path) (permissions : PermissionMode) :
    Outcome String Unit := do
  ensure (files.entries.length + removed.length ≤ maxConfigFiles)
    "configuration update file count is outside its limit"
  checkFiles permissions files.entries 0
  let paths ← checkRemoved removed (files.entries.map fun entry => entry.1.components)
  ensure (∀ path ∈ paths, ∀ ancestor ∈ ancestors path, ancestor ∉ paths)
    "a configuration file cannot be another file's parent directory"

/-! ## What an accepted batch is -/

/-- The paths that a batch writes or removes. -/
def targets (files : FileChanges) (removed : List Path) : List Path :=
  files.entries.map Prod.fst ++ removed

/-- A path below the room: names behind one another and nothing else. -/
structure Path.Plain (path : Path) (names : List Text) : Prop where
  source : path = .text (['/'].intercalate names)
  components : path.components = names.map .normal
  nonempty : names ≠ []
  visible : ∀ name ∈ names, name ≠ [] ∧ name ≠ ['.'] ∧ name ≠ ['.', '.'] ∧ '/' ∉ name

/-- A batch that can be applied in any order. -/
structure PathSafe (files : FileChanges) (removed : List Path) (permissions : PermissionMode) :
    Prop where
  /-- No path is absolute or has a component for this or the parent directory. -/
  relative : ∀ path ∈ targets files removed, ∃ names, path.Plain names
  /-- No component is a name of the controller. -/
  staging : ∀ path ∈ targets files removed, ∀ name : Text, .normal name ∈ path.components →
    ¬".dst-".toList <+: name
  permission : ∀ path ∈ targets files removed, ∀ name ∈ permissionFiles,
    path.components = [.normal name] → permissions = .replaceOffline
  disjoint : ∀ entry ∈ files.entries, ∀ path ∈ removed, entry.1.components ≠ path.components
  distinct : ((targets files removed).map Path.components).Nodup
  /-- No path leads through another one. -/
  unrelated : ∀ path ∈ targets files removed, ∀ other ∈ targets files removed,
    path.components <+: other.components → path.components = other.components
  removals : ∀ path ∈ removed, ∃ shard name, name ∈ shardFiles ∧ shard ≠ "mods".toList ∧
    path.components = [.normal shard, .normal name]

theorem not_mem_of_mem_splitOn {text part : Text} (h : part ∈ text.splitOn '/') : '/' ∉ part := by
  induction text generalizing part with
  | nil =>
    rw [List.splitOn_nil, List.mem_singleton] at h
    rw [h]
    exact List.not_mem_nil
  | cons c text ih =>
    have hsplit : (c :: text).splitOn '/' =
        if (c == '/') = true then [] :: text.splitOn '/'
        else (text.splitOn '/').modifyHead (List.cons c) :=
      List.splitOnP_cons_eq_if_modifyHead c text
    rw [hsplit] at h
    by_cases hc : c = '/'
    · rw [if_pos (by simpa using hc)] at h
      rcases List.mem_cons.1 h with rfl | h
      · exact List.not_mem_nil
      · exact ih h
    · rw [if_neg (by simpa using hc)] at h
      cases hrest : text.splitOn '/' with
      | nil => exact absurd hrest (List.splitOnP_ne_nil _ _)
      | cons first rest =>
        rw [hrest, List.modifyHead_cons, List.mem_cons] at h
        rw [hrest] at ih
        rcases h with rfl | h
        · rw [List.mem_cons, not_or]
          exact ⟨fun heq => hc heq.symm, ih List.mem_cons_self⟩
        · exact ih (List.mem_cons_of_mem _ h)

theorem relativeComponents_cases {path : Path} {names : List Text}
    (h : relativeComponents path = .ok names) : path.Plain names := by
  unfold relativeComponents at h
  cases path with
  | bytes _ => cases h
  | text text =>
    obtain ⟨_, htext, h⟩ := bind_eq_ok.1 h
    rw [ensure_eq_ok] at htext
    obtain ⟨_, hparts, h⟩ := bind_eq_ok.1 h
    rw [ensure_eq_ok] at hparts
    rw [pure_eq_ok, Except.ok.injEq] at h
    subst h
    obtain ⟨_, hparts⟩ := hparts
    have hsplit : ['/'].intercalate (text.splitOn '/') = text := List.intercalate_splitOn '/'
    have hne : text.splitOn '/' ≠ [] := List.splitOnP_ne_nil _ _
    refine ⟨by rw [hsplit], ?_, hne, ?_⟩
    · have hstart : text.head? ≠ some '/' := by
        intro hhead
        obtain ⟨rest, rfl⟩ : ∃ rest, text = '/' :: rest := by
          cases text with
          | nil => cases hhead
          | cons c rest =>
            cases hhead
            exact ⟨rest, rfl⟩
        have hfirst : [] ∈ ('/' :: rest).splitOn '/' := by
          show [] ∈ List.splitOnP _ _
          rw [List.splitOnP_cons_eq_if_modifyHead, if_pos (by decide)]
          exact List.mem_cons_self
        exact (hparts [] hfirst).1 rfl
      have hdot : (text.splitOn '/').head? ≠ some ['.'] := by
        intro hhead
        exact (hparts _ (List.mem_of_head? hhead)).2.1 rfl
      have hkept : (text.splitOn '/').filter (fun part => part ≠ [] && part ≠ ['.']) =
          text.splitOn '/' := by
        refine List.filter_eq_self.2 fun part hpart => ?_
        obtain ⟨hempty, hdot, -⟩ := hparts part hpart
        simp [hempty, hdot]
      show Path.componentsOf text = _
      unfold Path.componentsOf
      simp only [if_neg hstart, if_neg hdot, hkept, List.nil_append]
      refine List.map_congr_left fun part hpart => if_neg (hparts part hpart).2.2.1
    · intro name hname
      obtain ⟨hempty, hdot, hdots, -⟩ := hparts name hname
      exact ⟨hempty, hdot, hdots, not_mem_of_mem_splitOn hname⟩

/-- What the loop has found out about a file. -/
structure Written (permissions : PermissionMode) (path : Path) (names : List Text) : Prop where
  plain : path.Plain names
  staging : ∀ name ∈ names, ¬".dst-".toList <+: name
  permission : ∀ name ∈ permissionFiles, names = [name] → permissions = .replaceOffline

theorem checkWritten_cases {permissions : PermissionMode} {path : Path} {contents : Text}
    {bytes bytes' : Nat} (h : checkWritten permissions path contents bytes = .ok bytes') :
    ∃ names, Written permissions path names := by
  unfold checkWritten at h
  obtain ⟨names, hnames, h⟩ := bind_eq_ok.1 h
  obtain ⟨_, hstaging, h⟩ := bind_eq_ok.1 h
  obtain ⟨_, _, h⟩ := bind_eq_ok.1 h
  obtain ⟨_, _, h⟩ := bind_eq_ok.1 h
  obtain ⟨_, _, h⟩ := bind_eq_ok.1 h
  obtain ⟨_, _, h⟩ := bind_eq_ok.1 h
  rw [ensure_eq_ok] at hstaging
  refine ⟨names, relativeComponents_cases hnames, hstaging, ?_⟩
  rintro name hname rfl
  rw [if_pos ⟨rfl, by simpa using hname⟩] at h
  obtain ⟨_, hmode, _⟩ := bind_eq_ok.1 h
  exact ensure_eq_ok.1 hmode

theorem checkFiles_cases {permissions : PermissionMode} {entries : List (Path × Text)}
    {bytes : Nat} (h : checkFiles permissions entries bytes = .ok ()) :
    ∀ entry ∈ entries, ∃ names, Written permissions entry.1 names := by
  induction entries generalizing bytes with
  | nil => simp
  | cons entry rest ih =>
    rw [checkFiles] at h
    obtain ⟨bytes', hentry, hrest⟩ := bind_eq_ok.1 h
    intro other hother
    rcases List.mem_cons.1 hother with rfl | hother
    · exact checkWritten_cases hentry
    · exact ih hrest other hother

/-- A path of a file of a shard. -/
def Removable (path : Path) : Prop := ∃ names, path.Plain names ∧ IsShardFile names

theorem checkRemoved_cases {removed : List Path} {paths paths' : List (List Component)}
    (h : checkRemoved removed paths = .ok paths') (hpaths : paths.Nodup) :
    paths' = (removed.map Path.components).reverse ++ paths ∧ paths'.Nodup ∧
      ∀ path ∈ removed, Removable path := by
  induction removed generalizing paths with
  | nil =>
    cases h
    exact ⟨rfl, hpaths, by simp⟩
  | cons path rest ih =>
    rw [checkRemoved] at h
    obtain ⟨names, hnames, h⟩ := bind_eq_ok.1 h
    obtain ⟨_, hshard, h⟩ := bind_eq_ok.1 h
    obtain ⟨_, hnew, h⟩ := bind_eq_ok.1 h
    rw [ensure_eq_ok] at hshard hnew
    obtain ⟨heq, hnodup, hremovable⟩ := ih h (List.nodup_cons.2 ⟨hnew, hpaths⟩)
    refine ⟨?_, hnodup, ?_⟩
    · rw [heq, List.map_cons, List.reverse_cons, List.append_assoc, List.singleton_append]
    · intro other hother
      rcases List.mem_cons.1 hother with rfl | hother
      · exact ⟨names, relativeComponents_cases hnames, hshard⟩
      · exact hremovable other hother

theorem Removable.parts {path : Path} (h : Removable path) : ∃ shard name,
    path.components = [.normal shard, .normal name] ∧ shard.head? ≠ some '.' ∧
      shard ≠ "mods".toList ∧ name ∈ shardFiles := by
  obtain ⟨names, hplain, hshard⟩ := h
  match names, hplain, hshard with
  | [shard, name], hplain, hshard => exact ⟨shard, name, hplain.components, hshard⟩

/-- A file of a shard is no file of the controller. -/
theorem Removable.staging {path : Path} (h : Removable path) {name : Text}
    (hname : .normal name ∈ path.components) : ¬".dst-".toList <+: name := by
  obtain ⟨shard, file, heq, hdot, _, hfile⟩ := h.parts
  rw [heq, List.mem_cons, List.mem_singleton] at hname
  intro hprefix
  rcases hname with hname | hname
  · cases hname
    obtain ⟨rest, rfl⟩ := hprefix
    exact hdot rfl
  · cases hname
    simp only [shardFiles, List.mem_cons, List.not_mem_nil, or_false] at hfile
    rcases hfile with rfl | rfl | rfl <;> exact absurd hprefix (by decide)

/-- A path that leads through another one has it among its ancestors. -/
theorem mem_ancestors {components other : List Component} (h : components <+: other)
    (hne : components ≠ other) : components ∈ ancestors other := by
  have hlength : components.length < other.length := by
    refine lt_of_le_of_ne h.length_le fun heq => hne ?_
    exact h.eq_of_length heq
  rw [ancestors, List.mem_map]
  exact ⟨components.length, List.mem_range.2 hlength, (List.prefix_iff_eq_take.1 h).symm⟩

/-- An accepted batch is safe. -/
theorem validate_changes_safe (files : FileChanges) (removed : List Path)
    (permissions : PermissionMode) (h : validateChanges files removed permissions = .ok ()) :
    PathSafe files removed permissions := by
  unfold validateChanges at h
  obtain ⟨_, _, h⟩ := bind_eq_ok.1 h
  obtain ⟨_, hfiles, h⟩ := bind_eq_ok.1 h
  obtain ⟨paths, hremoved, hancestors⟩ := bind_eq_ok.1 h
  rw [ensure_eq_ok] at hancestors
  have hwritten := checkFiles_cases hfiles
  obtain ⟨hpaths, hnodup, hremovable⟩ := checkRemoved_cases hremoved files.distinct
  have hmem : ∀ path ∈ targets files removed, path.components ∈ paths := by
    intro path hpath
    rw [hpaths, List.mem_append, List.mem_reverse]
    rcases List.mem_append.1 hpath with hpath | hpath
    · obtain ⟨entry, hentry, rfl⟩ := List.mem_map.1 hpath
      exact .inr (List.mem_map_of_mem hentry)
    · exact .inl (List.mem_map_of_mem hpath)
  have hdistinct : ((targets files removed).map Path.components).Nodup := by
    have hperm : ((removed.map Path.components).reverse ++
        files.entries.map fun entry => entry.1.components).Perm
          ((targets files removed).map Path.components) := by
      rw [targets, List.map_append, List.map_map]
      exact (List.perm_append_comm).trans ((List.reverse_perm _).append_left _)
    rw [hpaths] at hnodup
    exact hperm.nodup_iff.1 hnodup
  refine ⟨?_, ?_, ?_, ?_, hdistinct, ?_, ?_⟩
  · intro path hpath
    rcases List.mem_append.1 hpath with hpath | hpath
    · obtain ⟨entry, hentry, rfl⟩ := List.mem_map.1 hpath
      obtain ⟨names, hnames⟩ := hwritten entry hentry
      exact ⟨names, hnames.plain⟩
    · obtain ⟨names, hplain, _⟩ := hremovable path hpath
      exact ⟨names, hplain⟩
  · intro path hpath name hname
    rcases List.mem_append.1 hpath with hpath | hpath
    · obtain ⟨entry, hentry, rfl⟩ := List.mem_map.1 hpath
      obtain ⟨names, hnames⟩ := hwritten entry hentry
      rw [hnames.plain.components] at hname
      obtain ⟨part, hpart, heq⟩ := List.mem_map.1 hname
      rw [← Component.normal.inj heq]
      exact hnames.staging part hpart
    · exact (hremovable path hpath).staging hname
  · intro path hpath name hname heq
    rcases List.mem_append.1 hpath with hpath | hpath
    · obtain ⟨entry, hentry, rfl⟩ := List.mem_map.1 hpath
      obtain ⟨names, hnames⟩ := hwritten entry hentry
      refine hnames.permission name hname ?_
      rw [hnames.plain.components] at heq
      exact List.map_injective_iff.2 (fun a b hab => Component.normal.inj hab)
        (heq.trans (List.map_singleton ).symm)
    · obtain ⟨shard, file, hparts, _⟩ := (hremovable path hpath).parts
      rw [hparts] at heq
      simp at heq
  · intro entry hentry path hpath heq
    rw [targets, List.map_append, List.nodup_append] at hdistinct
    refine hdistinct.2.2 _ (List.mem_map_of_mem (List.mem_map_of_mem hentry)) _
      (List.mem_map_of_mem hpath) heq
  · intro path hpath other hother hprefix
    by_contra hne
    exact hancestors _ (hmem other hother) _ (mem_ancestors hprefix hne) (hmem path hpath)
  · intro path hpath
    obtain ⟨shard, name, hparts, _, hmods, hname⟩ := (hremovable path hpath).parts
    exact ⟨shard, name, hname, hmods, hparts⟩

/-- A list of administrators, and the file of a shard that is to go. -/
def sampleChanges : FileChanges where
  entries := [(.text "adminlist.txt".toList, "KU_a\n".toList)]
  distinct := List.nodup_singleton _

theorem validate_changes_safe_sample :
    PathSafe sampleChanges [.text "Caves/server.ini".toList] .replaceOffline :=
  validate_changes_safe sampleChanges _ _ (by decide)

end DstServer.Rooms
