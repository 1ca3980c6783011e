import GoAtlas.Definition
import GoAtlas.Package.Kind
import GoAtlas.Package.Loaded
import GoAtlas.Table

/-!
# Packages

What is known of a package once it has been checked.
-/

namespace GoAtlas

/-- What a checker finds in a package. Constants keep the order of their declaration. -/
structure CheckedPackage where
  name : String
  types : List TypeDef
  consts : List ConstDef
  imports : List String

namespace CheckedPackage

def bare (name : String) : CheckedPackage := ⟨name, [], [], []⟩

end CheckedPackage

structure Package where
  path : String
  name : String
  kind : PackageKind
  dir : Option Path
  /-- Known by its path only: whatever it is asked for is taken to exist. -/
  isOpaque : Bool
  types : Table TypeDef
  consts : List ConstDef
  imports : List String
  source : Option LoadedPackage

namespace Package

def typeTable (types : List TypeDef) : Table TypeDef :=
  Table.ofList (types.map fun d => (d.name.name, d))

def ofChecked (path : String) (kind : PackageKind) (source : Option LoadedPackage)
    (checked : CheckedPackage) : Package where
  path := path
  name := if checked.name == "" then lastSegment path else checked.name
  kind := kind
  dir := source.map (·.dir)
  isOpaque := false
  types := typeTable checked.types
  consts := checked.consts
  imports := checked.imports
  source := source

def ofPath (path : String) : Package where
  path := path
  name := lastSegment path
  kind := .system
  dir := none
  isOpaque := true
  types := Table.empty
  consts := []
  imports := []
  source := none

def type? (p : Package) (name : String) : Option TypeDef :=
  p.types.get? name

def constant? (p : Package) (name : String) : Option ConstDef :=
  p.consts.find? fun c => c.name == name

end Package
end GoAtlas
