import DstServer.Lib.OrderedMap
import DstServer.Lib.Path

/-!
# The paths of an archive

The model of `validate_path` and `Paths` of `native.rs` and of `archive_root`
of `importing.rs`.  `Paths` is the register of all accepted paths and of the
directories above them, under their case-folded forms.

`CaseMapping` is the Unicode case mapping of `str`, of which nothing is
assumed.
-/

namespace DstServer.Archive

open Lib Outcome

/-- `str::to_lowercase` and `str::to_uppercase`. -/
structure CaseMapping where
  toLowercase : Text → Text
  toUppercase : Text → Text

/-! ## Valid paths -/

/-- The device names of Windows, and the prefixes of numbered ones. -/
def isReserved (base : Text) : Bool :=
  base ∈ ["CON", "PRN", "AUX", "NUL", "CONIN$", "CONOUT$"].map String.toList ||
    ["COM", "LPT"].any fun device => device.toList.isPrefixOf base &&
      base.drop 3 ∈ ["1", "2", "3", "4", "5", "6", "7", "8", "9", "¹", "²", "³"].map String.toList

section Insert

variable (mapping : CaseMapping)

/-- The body of the loop of `validate_path`. -/
def validateComponent (component : Component) : Outcome String Unit :=
  match component with
  | .rootDir | .curDir | .parentDir => fail "archive path must be relative"
  | .raw _ => fail "archive path is not UTF-8"
  | .normal name => do
    ensure (name.getLast? ≠ some '.' ∧ name.getLast? ≠ some ' ' ∧
        ∀ c ∈ name, Text.isControl c = false ∧ c ∉ "\\:*?\"<>|".toList)
      "save path is unsafe on Windows"
    let base := mapping.toUppercase ((name.takeWhile (· ≠ '.')).rdropWhile (· = ' '))
    ensure (isReserved base = false) "save path is unsafe on Windows"

def validatePath (path : FilePath) : Outcome String Unit := do
  ensure (path ≠ []) "empty archive path"
  ensure (path.length ≤ 64) "archive path is too deep"
  path.forM (validateComponent mapping)

/-! ## The register of paths -/

/-- `Paths`: under the folded form of a path, the path and whether it is a
directory. -/
abbrev Paths : Type := OrderedMap (List Text) (FilePath × Bool)

/-- `Path::parent` -/
def parent (path : FilePath) : Option FilePath :=
  if path = [] then none else some path.dropLast

/-- `Path::file_name` -/
def fileName (path : FilePath) : Option Component :=
  match path.getLast? with
  | some (.normal name) => some (.normal name)
  | some (.raw name) => some (.raw name)
  | _ => none

/-- Whether the last component of a path, which has this name, is the
directory of a player. -/
def isPlayer (path : FilePath) (name : Text) : Bool :=
  let session := (parent path).bind parent
  "KU_".toList.isPrefixOf name &&
    session.bind fileName = some (.normal "session".toList) &&
    ((session.bind parent).bind fileName) = some (.normal "save".toList)

/-- The folded form of the last component of a path. -/
def foldName (path : FilePath) (name : Text) : Text :=
  if isPlayer path name then name else mapping.toLowercase name

/-- The loop of `Paths::insert`, after the components `above` with the folded
form `folded`. -/
def insertParts (path : FilePath) (directory : Bool) :
    FilePath → List Text → FilePath → Paths → Outcome String Unit × Paths
  | _, _, [], paths => (.ok (), paths)
  | above, folded, part :: rest, paths =>
    let here := above ++ [part]
    let isDirectory := decide (here ≠ path) || directory
    match part.toStr with
    | none => (fail "archive path is not UTF-8", paths)
    | some name =>
      let folded := folded ++ [foldName mapping here name]
      match paths.get? folded with
      | some (previous, wasDirectory) =>
        if previous = here ∧ wasDirectory = true ∧ isDirectory = true then
          insertParts path directory here folded rest paths
        else (fail "archive paths collide", paths)
      | none => insertParts path directory here folded rest (paths.insert folded (here, isDirectory))

/-- `Paths::insert`.  What was registered before an error stays registered. -/
def insert (paths : Paths) (path : FilePath) (directory : Bool) : Outcome String Unit × Paths :=
  match validatePath mapping path with
  | .error e => (.error e, paths)
  | .ok () => insertParts mapping path directory [] [] path paths

end Insert

/-! ## The root of an archive -/

/-- `MAX_ENTRIES` -/
def maxEntries : Nat := 100000

/-- `MAX_BYTES` -/
def maxBytes : Nat := 2 * 1024 * 1024 * 1024

structure Entry where
  path : FilePath
  directory : Bool
  size : Nat
  deriving DecidableEq

def marker (client : Bool) : FilePath :=
  if client then [.normal "Master".toList, .normal "save".toList, .normal "shardindex".toList]
  else [.normal "cluster.ini".toList]

/-- The loop of `archive_root`, with the paths, the roots and the size so
far. -/
def scanEntries (mapping : CaseMapping) (client : Bool) :
    List Entry → Paths → List FilePath → Nat → Outcome String (List FilePath)
  | [], _, roots, _ => .ok roots
  | entry :: entries, paths, roots, size => do
    let (result, paths) := insert mapping paths entry.path entry.directory
    result
    ensure (size + entry.size < 2 ^ 64) "archive size overflow"
    ensure (size + entry.size ≤ maxBytes) "archive exceeds the unpacked byte limit"
    let depth := entry.path.length - (marker client).length
    let root := entry.path.take depth
    let found := entry.directory = false ∧ marker client <:+ entry.path ∧ depth ≤ 1 ∧ root ∉ roots
    scanEntries mapping client entries paths (if found then roots ++ [root] else roots)
      (size + entry.size)

def archiveRoot (mapping : CaseMapping) (entries : List Entry) (client : Bool) :
    Outcome String FilePath := do
  ensure (entries.length ≤ maxEntries) "archive has too many entries"
  let roots ← scanEntries mapping client entries .empty [] 0
  match roots with
  | [root] => .ok root
  | _ => fail "import requires exactly one room at the root or one directory below it"

end DstServer.Archive
