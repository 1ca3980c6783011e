import GoAtlas.Error
import GoAtlas.FileTree
import GoAtlas.Package.Kind
import GoAtlas.Text.Blank

/-!
# Provenance

An import path is searched in the vendor directories from the importing directory outward,
then below the system root, then below the workspace. A search that finds nothing is no
failure.
-/

namespace GoAtlas

structure SearchRoots where
  /-- The directory that import paths are relative to. -/
  workspace : Option Path
  /-- Sources of the standard library. -/
  system : Option Path
  /-- The name of directories with vendored packages. -/
  vendorDir : String

namespace SearchRoots

def defaults : SearchRoots := ⟨none, none, "vendor"⟩

end SearchRoots

structure Resolution where
  kind : PackageKind
  dir : Option Path

namespace Provenance

/-- Blank paths, absolute ones, those with a backslash and those with an empty, `.` or `..`
segment could leave the search roots. -/
def isValid (path : String) : Bool :=
  !Text.isBlankText path && !Text.startsWith path "/" && !path.toList.contains '\\' &&
    (Text.pieceStrings '/' path).all fun s => s != "" && s != "." && s != ".."

def validate (path : String) : Except Error Unit :=
  if isValid path then .ok () else .error (.invalidImportPath path)

/-- Whether a directory may hold vendored packages: with a workspace, only below it. -/
def mayVendor (roots : SearchRoots) (dir : Path) : Bool :=
  match roots.workspace with
  | some workspace => !(dir == workspace) && dir.startsWith workspace
  | none => true

def vendorLevels (roots : SearchRoots) (origin : Path) : List Path :=
  origin.ancestors.takeWhile (mayVendor roots)

def candidates (roots : SearchRoots) (path : String) (origin : Option Path) :
    List (PackageKind × Path) :=
  let levels := (origin.map (vendorLevels roots)).getD []
  levels.map (fun level => (.vendored, (level.join roots.vendorDir).join path)) ++
    (roots.system.map fun root => (.system, root.join path)).toList ++
    (roots.workspace.map fun root => (.user, root.join path)).toList

def resolve (t : FileTree) (roots : SearchRoots) (path : String) (origin : Option Path) :
    Except Error Resolution := do
  validate path
  match (candidates roots path origin).find? fun c => t.isDir c.2 with
  | some (kind, dir) => return ⟨kind, some dir⟩
  | none => return ⟨.absent, none⟩

/-! # From files back to import paths -/

def slashed (names : List String) : Option String :=
  if names.isEmpty then none else some (String.intercalate "/" names)

def importBelow? (dir root : Path) : Option String :=
  (dir.below? root).bind fun components => slashed (components.map Component.text)

def afterLast? (name : String) : List Component -> Option (List Component)
  | [] => none
  | c :: rest =>
      match afterLast? name rest with
      | some found => some found
      | none => if c == .normal name then some rest else none

def vendoredImport? (roots : SearchRoots) (dir : Path) : Option String :=
  (afterLast? roots.vendorDir dir.components).bind fun rest =>
    slashed (rest.filterMap fun
      | .normal name => some name
      | _ => none)

def filePackage (roots : SearchRoots) (file : Path) : Except Error (PackageKind × String) :=
  match file.parent? with
  | none => .error (.packageNotFound file.text)
  | some dir =>
      match roots.system.bind (importBelow? dir) with
      | some path => .ok (.system, path)
      | none =>
          match vendoredImport? roots dir with
          | some path => .ok (.vendored, path)
          | none =>
              match roots.workspace.bind (importBelow? dir) with
              | some path => .ok (.user, path)
              | none => .error (.packageNotFound (file.text ++ " is not inside any search root"))

end Provenance
end GoAtlas
