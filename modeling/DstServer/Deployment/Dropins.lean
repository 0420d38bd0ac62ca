import DstServer.Deployment.RoundTrip

/-!
# Drop-ins and the check of an update

The model of `validate_update`, `changed_environment` and `dropins` in
`deployment.rs`: before a unit is written, its old version and the drop-ins
beside it are read, and a drop-in may not set what the update changes.

`UnitDirectory` stands for the directory of the units.  Its listings are
maps, since a directory has one entry of a name.
-/

namespace DstServer.Deployment

open Lib

/-! ## The directory of the units -/

structure UnitDirectory where
  path : Text
  /-- `validate_real_directory` -/
  real : Outcome String Unit
  /-- Reading the unit file of a name, when there is one. -/
  unitFile : Text → Outcome String (Option (Outcome String Text))
  /-- The files of a drop-in directory and reading each of them, when there
  is such a directory. -/
  dropinFiles : Text → Outcome String (Option (OrderedMap Text (Outcome String Text)))

/-- A drop-in that `dropins` found. -/
structure Dropin where
  path : Text
  source : Outcome String Text

/-! ## Finding the drop-ins -/

/-- `Path::join` -/
def joinPath (directory file : Text) : Text :=
  if directory.getLast? = some '/' then directory ++ file else directory ++ '/' :: file

/-- `Path::extension` of the name of a file. -/
def extension (file : Text) : Option Text := do
  let (after, before) ← Text.splitOnce (· = '.') file.reverse
  if before = [] then none else some after.reverse

/-- The loop over `char_indices`: the beginnings of a name that end in a
dash, after what was seen of it. -/
def dashPrefixes (seen : Text) : Text → List Text
  | [] => []
  | c :: rest =>
    if c = '-' then (seen ++ [c]) :: dashPrefixes (seen ++ [c]) rest
    else dashPrefixes (seen ++ [c]) rest

/-- The names of the directories, with the one that wins at the end. -/
def dropinDirectories (name : Text) : List Text :=
  "container.d".toList ::
    (dashPrefixes [] name).map (· ++ ".container.d".toList) ++ [name ++ ".container.d".toList]

/-- The loop over the entries of one directory. -/
def insertDropins (directory : Text) (files : OrderedMap Text Dropin) :
    List (Text × Outcome String Text) → OrderedMap Text Dropin
  | [] => files
  | (file, source) :: rest =>
    if extension file = some "conf".toList then
      insertDropins directory
        (files.insert file { path := joinPath directory file, source }) rest
    else insertDropins directory files rest

/-- The loop over the directories. -/
def collectDropins (directory : UnitDirectory) (files : OrderedMap Text Dropin) :
    List Text → Outcome String (OrderedMap Text Dropin)
  | [] => pure files
  | name :: rest => do
    let entries ← directory.dropinFiles name
    match entries with
    | none => collectDropins directory files rest
    | some entries =>
      collectDropins directory
        (insertDropins (joinPath directory.path name) files entries.entries) rest

def dropins (directory : UnitDirectory) (name : Text) : Outcome String (List Dropin) := do
  let files ← collectDropins directory .empty (dropinDirectories name)
  pure files.values

/-! ## What the update changes -/

def environmentKey : String ×ₗ String := fieldKey "Container" "Environment"

/-- The keys with other values than before. -/
def changedKeys (old : Option Fields) (updated : Fields) : List (String ×ₗ String) :=
  (updated.keys ++ old.toList.flatMap OrderedMap.keys).filter fun key =>
    old.bind (·.get? key) ≠ updated.get? key

/-- The variables that these lines set, after earlier lines. -/
def environmentValues (values : OrderedMap Text Text) :
    List Text → Outcome String (OrderedMap Text Text)
  | [] => pure values
  | line :: rest => do
    let assignment ← unquote line
    let (name, value) ← Outcome.orError (Text.splitOnce (· = '=') assignment)
      "invalid environment"
    environmentValues (values.insert name value) rest

def changedEnvironment (old : Option Fields) (updated : Fields) : Outcome String (List Text) := do
  let before ← environmentValues .empty
    ((old.bind fun fields => fields.get? environmentKey).getD [])
  let after ← environmentValues .empty ((updated.get? environmentKey).getD [])
  pure ((before.keys ++ after.keys).filter fun name => before.get? name ≠ after.get? name)

/-! ## The check -/

/-- The `try_fold` over the environment of a drop-in: whether it resets the
environment or sets one of these variables. -/
def overlaps (changed : List Text) (overlap : Bool) : List Text → Outcome String Bool
  | [] => pure overlap
  | value :: rest =>
    if value = [] then overlaps changed true rest
    else do
      let assignment ← unquote value
      let (name, _) ← Outcome.orError (Text.splitOnce (· = '=') assignment)
        "invalid drop-in environment"
      overlaps changed (overlap || decide (name ∈ changed)) rest

/-- The body of the loop over the fields of a drop-in. -/
def checkField (old : Option Fields) (updated : Fields) (path : Text)
    (field : (String ×ₗ String) × List Text) : Outcome String Unit :=
  if field.1 ∈ changedKeys old updated then
    if field.1 = environmentKey then do
      let changed ← changedEnvironment old updated
      let overlap ← overlaps changed false field.2
      Outcome.ensure (overlap = false)
        s!"drop-in overrides changed environment: {String.ofList path}"
    else
      Outcome.fail s!"drop-in overrides {(ofLex field.1).1}.{(ofLex field.1).2}: {String.ofList path}"
  else pure ()

/-- The body of the loop over the drop-ins. -/
def checkFields (old : Option Fields) (updated : Fields) (dropin : Dropin) :
    Outcome String Unit := do
  let source ← dropin.source
  let source ← readRegular source
  let fields ← parseSections source
  fields.entries.forM (checkField old updated dropin.path)

/-- The version of the unit that the directory holds. -/
def ContainerUnit.saved (lib : Libraries) (unit : ContainerUnit) (directory : UnitDirectory) :
    Outcome String (Option ContainerUnit) := do
  let file ← directory.unitFile unit.filename
  match file with
  | none => pure none
  | some source => do
    let source ← source
    let old ← ContainerUnit.load lib unit.filename source
    pure (some old)

/-- `parse_sections` of what `render` writes. -/
def ContainerUnit.renderedFields (lib : Libraries) (unit : ContainerUnit) :
    Outcome String Fields := do
  let text ← unit.render lib
  parseSections text

def ContainerUnit.validateUpdate (lib : Libraries) (unit : ContainerUnit)
    (directory : UnitDirectory) : Outcome String Unit := do
  directory.real
  let updated ← unit.renderedFields lib
  let old ← unit.saved lib directory
  let old ← old.mapM (ContainerUnit.renderedFields lib)
  let dropins ← dropins directory unit.name
  dropins.forM (checkFields old updated)

end DstServer.Deployment
