import GoAtlas.Session

/-!
# Questions to a session

Packages, definitions and the spelling of names. A question that has to resolve a package
first is an action; the others only look at what the session knows.
-/

namespace GoAtlas
namespace Session

/-! # Packages -/

def kind (s : Session) (path : String) : PackageKind :=
  (s.kinds.get? path).getD .absent

def package? (s : Session) (path : String) : Option Package :=
  match s.cache.get? path with
  | some (.resolved p) => some p
  | _ => none

def packages (s : Session) : List Package :=
  s.cache.values.filterMap fun
    | .resolved p => some p
    | _ => none

def filePackage (s : Session) (file : Path) : Except Error (PackageKind × String) :=
  Provenance.filePackage s.setup.roots file

/-! # Definitions -/

def object? (s : Session) (name : TypeName) : Option TypeDef :=
  s.index.get? name

def definition? (s : Session) (name : TypeName) : Option TypeDef :=
  match s.index.get? name with
  | some d => some d
  | none => (s.package? name.packagePath).bind fun p => p.type? name.name

def importObject (name : TypeName) : Action (Option TypeDef) := do
  let _ ← resolve name.packagePath
  return (← get).object? name

/-! # Spelling of names -/

def localPackage (s : Session) (path : String) : Except Error String :=
  match s.package? path with
  | some p => .ok p.name
  | none => .error (.packageNotFound path)

def mainImport (target rel : String) : String :=
  "attempted to import main package " ++ target ++ " relative to package " ++ rel

/-- How a name is spelled inside the package `rel`. A `main` package can be referred to only
from itself. -/
def localImportName (s : Session) (name : TypeName) (rel : String) : Except Error String := do
  if name.isBuiltin then return name.name
  let target ← s.localPackage name.packagePath
  if target == "main" && name.packagePath != rel then
    throw (.invalidImportPath (mainImport name.packagePath rel))
  let here ← s.localPackage rel
  return if target == here then name.name else target ++ "." ++ name.name

def importLabel (s : Session) (path : String) : String :=
  match s.package? path with
  | some p => p.name
  | none => String.ofList (Text.lastPiece '/' path.toList)

def noImportPath (path type : String) : Error :=
  .objectNotFound ("import path not found for pkg " ++ path ++ ", type " ++ type)

/-- The full name of a type as it is written inside a package: `Type` belongs to the package
itself, and `label.Type` to the first import with that label. -/
def findImportPath (path type : String) : Action String := do
  match ← resolve path with
  | none => throw (noImportPath path type)
  | some package =>
      match Text.cutFirst? '.' type.toList with
      | none => return path ++ "." ++ type
      | some (label, rest) =>
          let s ← get
          match package.imports.find? fun i => s.importLabel i == String.ofList label with
          | some found => return found ++ "." ++ String.ofList rest
          | none => throw (noImportPath path type)

end Session
end GoAtlas
