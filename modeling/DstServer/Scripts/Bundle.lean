import DstServer.Lib.Effect
import DstServer.Lib.OrderedMap
import DstServer.Lib.Text

/-!
# The script bundle

The model of `scripts.rs`: `inspect` reads and checks a script archive,
`buildWithPayload` writes the managed bundle of a source archive and
`verifyWithPayload` checks a bundle against the installed SDK and a native
source.

An archive is seen as the ZIP library shows it, as the list of its members.
What comes from outside the file is the `Host`: the ZIP library itself, SHA-256,
the JSON of `serde_json`, the Lua parser behind `check_startup`, the name
that `tempfile` draws, and which of the calls on the file system fail.  The
file system maps a path to the regular file there, if there is one.
Paths are absolute.  Comments, times and permissions of files and members
are left out.
-/

namespace DstServer.Scripts

open Lib

/-! ## Constants -/

def entrypoint : String := "scripts/globalvariableoverrides.lua"

def manifestName : String := "scripts/dst_server_bundle.json"

def mainName : String := "scripts/main.lua"

abbrev Bytes : Type := List UInt8

/-- `-- Intentionally blank` and a line feed. -/
def originalEntrypoint : Bytes := "-- Intentionally blank\n".toUTF8.data.toList

def bootstrap : Bytes := "require(\"dst_server.bootstrap\").start()\n".toUTF8.data.toList

def maxArchiveBytes : Nat := 1024 * 1024 * 1024

def maxEntryBytes : Nat := 64 * 1024 * 1024

def maxEntries : Nat := 20000

/-- The shortest ZIP file: an end record alone. -/
def minZipBytes : Nat := 22

/-- The first natural number that is no `u64`. -/
def u64Bound : Nat := 18446744073709551616

/-! ## Data -/

structure ScriptBundle (Path : Type) where
  path : Path
  sdkVersion : String
  sourceDigest : String
  nativeFiles : Nat
  sdkFiles : Nat
  entrypoint : String
  deriving DecidableEq, Repr

structure Manifest where
  format : Nat
  sdkVersion : String
  sourceDigest : String
  files : OrderedMap String String
  sdkFiles : List String
  deriving DecidableEq

structure Inspected where
  names : List String
  native : OrderedMap String String
  manifest : Option Manifest
  deriving DecidableEq

/-- The SDK files to install, by their names in the archive. -/
abbrev Payload : Type := OrderedMap String Bytes

inductive Compression where
  | stored
  | deflated
  | other
  deriving DecidableEq, Repr

/-- One member of an archive, as the library shows it.  Its content is
absent when the library cannot read it. -/
structure Entry where
  name : String
  size : Nat
  symlink : Bool
  encrypted : Bool
  compression : Compression
  content : Option Bytes
  deriving DecidableEq, Repr

/-- What the writer of an archive is asked to add. -/
inductive Member where
  /-- `raw_copy_file`. -/
  | copied (entry : Entry)
  /-- `start_file` with the options of an entry, and `write_all`. -/
  | replaced (entry : Entry) (content : Bytes)
  /-- `start_file` with the options of the SDK files, and `write_all`. -/
  | created (name : String) (content : Bytes)
  deriving DecidableEq, Repr

/-- The member of a faithful archive. -/
def Member.entry : Member → Entry
  | .copied entry => entry
  | .replaced entry content =>
    { entry with size := content.length, content := some content }
  | .created name content => ⟨name, content.length, false, false, .deflated, some content⟩

/-- A path: the directory and the last component, which `..` and `/` do not
have. -/
structure Path where
  parent : String
  filename : Option String
  deriving DecidableEq, Repr

/-- The calls on the file system. -/
inductive Call where
  | openArchive (path : Path)
  | header (name : String)
  | readEntry (name : String)
  | createTemporary
  | writeMember
  | finish
  | setPermissions
  | sync
  | persist
  | syncParent
  deriving DecidableEq, Repr

/-- What the bundle code is given from outside. -/
structure Host (File : Type) where
  /-- The length of a file in bytes. -/
  length : File → Nat
  /-- The members that the central directory of an archive lists. -/
  records : File → Option (List Entry)
  /-- The archive that a writer makes of its members. -/
  finish : List Member → Option File
  /-- The hexadecimal SHA-256. -/
  digest : Bytes → String
  /-- `serde_json::to_vec` of the table of files. -/
  filesJson : OrderedMap String String → Bytes
  /-- `serde_json::to_writer` of a manifest. -/
  manifestJson : Manifest → Bytes
  /-- `serde_json::from_slice` at a manifest. -/
  readManifest : Bytes → Option Manifest
  /-- `check_startup` accepts the source of `main.lua`. -/
  startup : Bytes → Bool
  /-- The random part of the name of a temporary file. -/
  random : String
  /-- Which calls fail, by their position. -/
  fails : Nat → Bool

/-- The host where no call fails. -/
def Host.quiet {File : Type} (host : Host File) : Host File :=
  { host with fails := fun _ => false }

/-- The same host on another occasion. -/
def Host.later {File : Type} (host : Host File) (fails : Nat → Bool) (random : String) :
    Host File :=
  { host with fails := fails, random := random }

/-- The regular files. -/
abbrev Disk (File : Type) : Type := Path → Option File

/-- A program on the disk. -/
abbrev Io (File α : Type) : Type := Effect (Disk File) Call String α

/-! ## Names -/

/-- The member lies in the namespace of the SDK. -/
def owned (name : String) : Bool :=
  "scripts/dst_server/".toList.isPrefixOf name.toList ||
    decide (name ∈ ["scripts/dst_server.lua", "scripts/components/dst_server_runtime.lua"])

/-- `validate_payload`: the names that the SDK cannot do without. -/
def requiredFiles : List String :=
  ["scripts/dst_server.lua", "scripts/dst_server/bootstrap.lua",
    "scripts/components/dst_server_runtime.lua"]

/-- `strip_suffix('/').unwrap_or`. -/
def stripSlash (name : List Char) : List Char :=
  if name.getLast? = some '/' then name.dropLast else name

def validName (name : String) : Bool :=
  "scripts/".toList.isPrefixOf name.toList && decide ('\\' ∉ name.toList) &&
    decide ('\x00' ∉ name.toList) &&
    ((stripSlash name.toList).splitOn '/').all fun part =>
      decide (part ∉ [[], ['.'], ['.', '.']])

section Code

variable {File : Type} (host : Host File)

def sourceDigest (files : OrderedMap String String) : String := host.digest (host.filesJson files)

def validatePayload (payload : Payload) : Io File Unit := do
  Effect.ensure (∀ name ∈ payload.keys, owned name = true)
    "SDK Lua resources are outside the bundle namespace"
  Effect.ensure (∀ name ∈ requiredFiles, name ∈ payload.keys) "SDK Lua resources are incomplete"

/-! ## Reading an archive -/

/-- `archive::zip::open`, on the members that the central directory lists. -/
def openZip (file : File) : Option (List Entry) :=
  if minZipBytes ≤ host.length file ∧ host.length file ≤ maxArchiveBytes then
    (host.records file).filter fun entries =>
      entries.length ≤ maxEntries ∧ (entries.map Entry.name).Nodup
  else none

def openArchive (path : Path) : Io File (List Entry) :=
  Effect.look host.fails (.openArchive path) "open script archive" fun disk =>
    (disk path).bind (openZip host)

/-- `by_name`. -/
def byName (entries : List Entry) (name : String) : Option Entry :=
  entries.find? fun entry => entry.name = name

def readEntry (entries : List Entry) (name : String) : Io File Bytes := do
  let entry ← Effect.look host.fails (.header name) "no such entry" fun _ => byName entries name
  Effect.ensure (entry.size ≤ maxEntryBytes) "script archive entry exceeds the size limit"
  let content ← Effect.look host.fails (.readEntry name) "read" fun _ => entry.content
  Effect.ensure (content.length = entry.size) "script archive entry length is inconsistent"
  pure content

/-- The first loop of `inspect`: the names of the members, after those that
were seen, with the sizes added up. -/
def entryNames : List Entry → List String → Nat → Io File (List String)
  | [], _, _ => pure []
  | entry :: rest, seen, total => do
    let _ ← Effect.look host.fails (.header entry.name) "read" fun _ => some ()
    Effect.ensure
      (validName entry.name = true ∧ entry.name ∉ seen ∧ entry.symlink = false ∧
        entry.encrypted = false ∧ entry.compression ≠ .other)
      "unsupported or duplicate script archive entry"
    Effect.ensure (total + entry.size < u64Bound) "script archive size overflow"
    Effect.ensure (entry.size ≤ maxEntryBytes ∧ total + entry.size ≤ maxArchiveBytes)
      "script archive exceeds the uncompressed size limit"
    let names ← entryNames rest (entry.name :: seen) (total + entry.size)
    pure (entry.name :: names)

/-- The second loop of `inspect`: the digests of the named members. -/
def digests (entries : List Entry) : List String → OrderedMap String String →
    Io File (OrderedMap String String)
  | [], files => pure files
  | name :: rest, files => do
    let content ← readEntry host entries name
    digests entries rest (files.insert name (host.digest content))

/-- The manifest of an archive that has one. -/
def readBundleManifest (entries : List Entry) (names : List String) :
    Io File (Option Manifest) :=
  if manifestName ∈ names then do
    let content ← readEntry host entries manifestName
    let manifest ← Effect.orError (host.readManifest content) "invalid script bundle manifest"
    Effect.ensure (manifest.format = 1) "unsupported script bundle manifest version"
    pure (some manifest)
  else pure none

/-- An archive without a manifest is a native one. -/
def inspectNative (entries : List Entry) (names : List String)
    (files : OrderedMap String String) : Io File Inspected := do
  let content ← readEntry host entries entrypoint
  Effect.ensure (content = originalEntrypoint)
    "native globalvariableoverrides.lua entrypoint has changed"
  Effect.ensure (∀ name ∈ files.keys, owned name = false)
    "unmanaged archive contains files in the SDK namespace"
  pure ⟨names, files, none⟩

/-- The native table of a managed bundle. -/
def nativeOf (files : OrderedMap String String) : OrderedMap String String :=
  (files.filter fun name => !owned name).insert entrypoint (host.digest originalEntrypoint)

/-- The bundle is the one of the installed SDK, when that is asked for. -/
def checkInstalled (expected : Option (Payload × String)) (files : OrderedMap String String)
    (manifest : Manifest) : Io File Unit :=
  match expected with
  | some (payload, version) =>
    Effect.ensure
      (files.filter owned = payload.map (fun _ content => host.digest content) ∧
        manifest.sdkVersion = version)
      "managed script bundle does not match the installed SDK"
  | none => pure ()

/-- An archive with a manifest is a managed bundle. -/
def inspectManaged (expected : Option (Payload × String)) (names : List String)
    (files : OrderedMap String String) (manifest : Manifest) : Io File Inspected := do
  Effect.ensure
    (manifest.files = files ∧ manifest.sdkFiles.Nodup ∧
      (∀ name ∈ manifest.sdkFiles, name ∈ (files.filter owned).keys) ∧
      (∀ name ∈ (files.filter owned).keys, name ∈ manifest.sdkFiles) ∧
      files.get? entrypoint = some (host.digest bootstrap))
    "managed script bundle contents do not match its manifest"
  Effect.ensure (sourceDigest host (nativeOf host files) = manifest.sourceDigest)
    "managed script bundle native contents do not match its source digest"
  checkInstalled host expected files manifest
  pure ⟨names, nativeOf host files, some manifest⟩

def inspect (entries : List Entry) (expected : Option (Payload × String)) :
    Io File Inspected := do
  let names ← entryNames host entries [] 0
  Effect.ensure (entrypoint ∈ names ∧ mainName ∈ names)
    "archive does not contain native DST startup scripts"
  let source ← readEntry host entries mainName
  Effect.ensure (host.startup source = true)
    "native main.lua no longer loads globalvariableoverrides at top level"
  let manifest ← readBundleManifest host entries names
  let files ← digests host entries (names.filter fun name => name ≠ manifestName) .empty
  match manifest with
  | none => inspectNative host entries names files
  | some manifest => inspectManaged host expected names files manifest

/-! ## Verifying a bundle -/

/-- The bundle preserves the native source, when one is supplied. -/
def checkSource (source : Option Path) (inspected : Inspected) : Io File Unit :=
  match source with
  | some source => do
    let entries ← openArchive host source
    let original ← inspect host entries none
    Effect.ensure (inspected.native = original.native)
      "script bundle does not preserve the supplied native source"
  | none => pure ()

def verifyWithPayload (path : Path) (source : Option Path) (payload : Payload)
    (version : String) : Io File (ScriptBundle Path) := do
  let entries ← openArchive host path
  let inspected ← inspect host entries (some (payload, version))
  let manifest ← Effect.orError inspected.manifest
    "script archive has not been built with the SDK"
  checkSource host source inspected
  pure
    { path := path
      sdkVersion := manifest.sdkVersion
      sourceDigest := manifest.sourceDigest
      nativeFiles := inspected.native.keys.length
      sdkFiles := manifest.sdkFiles.length
      entrypoint := entrypoint }

/-! ## Building a bundle -/

/-- The manifest of the bundle of a native table. -/
def bundleManifest (native : OrderedMap String String) (payload : Payload) (version : String) :
    Manifest where
  format := 1
  sdkVersion := version
  sourceDigest := sourceDigest host native
  files := payload.entries.foldl (fun files e => files.insert e.1 (host.digest e.2))
    (native.insert entrypoint (host.digest bootstrap))
  sdkFiles := payload.keys

/-- The loop that copies the native members. -/
def nativeMembers (entries : List Entry) : List String → Io File (List Member)
  | [] => pure []
  | name :: rest => do
    let entry ← Effect.look host.fails (.header name) "no such entry" fun _ => byName entries name
    let _ ← Effect.look host.fails .writeMember "write" fun _ => some ()
    let members ← nativeMembers entries rest
    pure ((if name = entrypoint then .replaced entry bootstrap else .copied entry) :: members)

/-- The loop that adds the SDK files. -/
def sdkMembers : List (String × Bytes) → Io File (List Member)
  | [] => pure []
  | (name, content) :: rest => do
    let _ ← Effect.look host.fails .writeMember "write" fun _ => some ()
    let members ← sdkMembers rest
    pure (.created name content :: members)

/-- The name that `tempfile` gives the temporary file of an output. -/
def temporaryPath (parent filename : String) : Path :=
  ⟨parent, some ("." ++ filename ++ "." ++ host.random ++ ".tmp")⟩

/-- The new archive goes to the temporary file; it is verified there and
then takes the place of the output. -/
def writeBundle (entries : List Entry) (inspected : Inspected) (output temporary : Path)
    (payload : Payload) (version : String) : Io File (ScriptBundle Path) := do
  let native ← nativeMembers host entries
    (inspected.names.filter fun name => name ≠ manifestName ∧ owned name = false)
  let sdk ← sdkMembers host payload.entries
  let _ ← Effect.look host.fails .writeMember "write" fun _ => some ()
  let manifest := host.manifestJson (bundleManifest host inspected.native payload version)
  let members := native ++ sdk ++ [.created manifestName (manifest ++ "\n".toUTF8.data.toList)]
  Effect.call host.fails .finish "finish" fun disk =>
    (host.finish members).map fun file => ((), Function.update disk temporary (some file))
  let _ ← Effect.look host.fails .setPermissions "permissions" fun _ => some ()
  let _ ← Effect.look host.fails .sync "sync" fun _ => some ()
  let result ← verifyWithPayload host temporary none payload version
  Effect.call host.fails .persist "rename" fun disk =>
    (disk temporary).map fun file =>
      ((), Function.update (Function.update disk temporary none) output (some file))
  let _ ← Effect.look host.fails .syncParent "sync" fun _ => some ()
  pure { result with path := output }

def buildWithPayload (source output : Path) (payload : Payload) (version : String) :
    Io File (ScriptBundle Path) := do
  validatePayload payload
  let entries ← openArchive host source
  let inspected ← inspect host entries none
  let filename ← Effect.orError output.filename "bundle output must have a filename"
  let temporary := temporaryPath host output.parent filename
  -- `tempfile` takes no name that is in use
  let _ ← Effect.look host.fails .createTemporary "create" fun disk =>
    if disk temporary = none then some () else none
  Effect.cleanup (writeBundle host entries inspected output temporary payload version)
    fun disk => Function.update disk temporary none

end Code

end DstServer.Scripts
