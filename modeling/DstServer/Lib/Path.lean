import DstServer.Lib.Text

/-!
# Paths

The components of a path, as `std::path` takes it apart.
-/

namespace Lib

/-- A component of a path. -/
inductive Component where
  | rootDir
  | curDir
  | parentDir
  /-- A name in UTF-8. -/
  | normal (name : Text)
  /-- Bytes that are no UTF-8. -/
  | raw (bytes : List UInt8)
  deriving DecidableEq, Repr

/-- `OsStr::to_str` of a component. -/
def Component.toStr : Component → Option Text
  | .rootDir => some ['/']
  | .curDir => some ['.']
  | .parentDir => some ['.', '.']
  | .normal name => some name
  | .raw _ => none

/-- A path as its components. -/
abbrev FilePath : Type := List Component

instance lawfulBEqFilePath : LawfulBEq (List Component) := inferInstance

end Lib
