import GoAtlas.Check.Inquiry
import GoAtlas.Constant.Literal
import GoAtlas.Source.Header

/-!
# Package scope

The first pass over the files of a package: imports are bound and every package-level name is
claimed by its first declaration.
-/

namespace GoAtlas

/-- An import of one file. The package is missing when it could not be imported. -/
structure Binding where
  path : String
  package : Option Package
  isUnsafe : Bool

structure FileScope where
  /-- Imports under the names the file uses for them. -/
  imports : Table Binding
  /-- Imports whose names need no qualifier, in order. -/
  dots : List Binding
  /-- Imports that have to be used, with their names and lines, in order. -/
  named : List (String × String × Nat)
  qualifiers : List String

namespace FileScope

def ofQualifiers (qualifiers : List String) : FileScope := ⟨Table.empty, [], [], qualifiers⟩

end FileScope

structure TypeDecl where
  file : String
  spec : Source.TypeSpec

structure ConstDecl where
  name : String
  file : String
  spec : Source.Extent
  type : Option Source.TypeExpr
  expr : Option Source.Expr
  iota : Nat

structure MethodSource where
  file : String
  decl : Source.MethodDecl

/-- The package-level names of a package. -/
structure Scope where
  path : String
  files : Table FileScope
  /-- Import paths in order of appearance. -/
  importPaths : List String
  types : Table TypeDecl
  consts : List ConstDecl
  others : List String
  methods : List MethodSource

namespace Scope

def start (path : String) : Scope := ⟨path, Table.empty, [], Table.empty, [], [], []⟩

def isConst (s : Scope) (name : String) : Bool :=
  s.consts.any fun c => c.name == name

def constIndex? (s : Scope) (name : String) : Option Nat :=
  s.consts.findIdx? fun c => c.name == name

def claims (s : Scope) (name : String) : Bool :=
  s.types.contains name || s.isConst name || s.others.contains name

def fileScope (s : Scope) (file : String) : FileScope :=
  (s.files.get? file).getD (FileScope.ofQualifiers [])

def import? (s : Scope) (file label : String) : Option Binding :=
  (s.fileScope file).imports.get? label

def updateFile (s : Scope) (file : String) (f : FileScope -> FileScope) : Scope :=
  { s with files := s.files.insert file (f (s.fileScope file)) }

end Scope

/-! # The pass -/

/-- The scope so far, the answers to import requests, and the complaints. -/
structure Collection where
  scope : Scope
  packages : Table (Option Package)
  errors : List TypeError

abbrev Collect := StateT Collection (Inquiry String)

namespace Collect

def complain (file : String) (line : Nat) (complaint : Complaint) : Collect Unit :=
  modify fun c => { c with errors := c.errors ++ [⟨complaint, false, some file, some line⟩] }

def updateScope (f : Scope -> Scope) : Collect Unit :=
  modify fun c => { c with scope := f c.scope }

/-- Whether a name is free to be declared. A blank name never is; for a name that is taken
there is a complaint. -/
def declare (file : String) (x : Source.Extent) : Collect Bool := do
  if x.text == "_" then return false
  else if (← get).scope.claims x.text then
    complain file x.line (.redeclared x.text)
    return false
  else return true

/-! # Imports -/

def importPackage (file : String) (line : Nat) (path : String) : Collect (Option Package) := do
  match (← get).packages.get? path with
  | some known => return known
  | none =>
      let package ←
        match ← StateT.lift (Inquiry.request path) with
        | .ok package => pure (some package)
        | .error cause => do
            complain file line (.failedImport path cause)
            pure none
      modify fun c => { c with packages := c.packages.insert path package }
      return package

def bind (file : String) (line : Nat) (path : String) : Collect Binding := do
  let package ← if path == "unsafe" then pure none else importPackage file line path
  updateScope fun s => { s with importPaths := s.importPaths ++ [path] }
  return ⟨path, package, path == "unsafe"⟩

def lastOf (path : String) : String :=
  String.ofList (Text.lastPiece '/' path.toList)

/-- The name of an import that gives none: that of the package, or the end of the path. -/
def defaultLabel (b : Binding) : String :=
  match b.package with
  | some package => if package.name == "" then lastOf b.path else package.name
  | none => lastOf b.path

def addNamed (file label : String) (b : Binding) (line : Nat) : Collect Unit :=
  updateScope fun s => s.updateFile file fun f =>
    { f with
      imports := f.imports.insert label b
      named := f.named ++ [(label, b.path, line)] }

def importSpec (file : String) (spec : Source.ImportSpec) : Collect Unit := do
  let line := spec.extent.line
  match Literal.string? spec.path.text with
  | none => complain file line .malformedImport
  | some "C" => return ()
  | some path =>
      let b ← bind file line path
      match spec.label with
      | some .dot =>
          updateScope fun s => s.updateFile file fun f => { f with dots := f.dots ++ [b] }
      | some .blank => return ()
      | some (.named x) => addNamed file x.text b line
      | none => addNamed file (defaultLabel b) b line

/-! # Declarations -/

def typeSpec (file : String) (spec : Source.TypeSpec) : Collect Unit := do
  if ← declare file spec.name then
    updateScope fun s => { s with types := s.types.insert spec.name.text ⟨file, spec⟩ }

def otherName (file : String) (x : Source.Extent) : Collect Unit := do
  if ← declare file x then
    updateScope fun s => { s with others := s.others ++ [x.text] }

/-- Type and values that a line of a constant group goes by: its own, or without either those
of the nearest earlier line with values. -/
def repeated (last : Option (Option Source.TypeExpr × List Source.Expr))
    (spec : Source.ConstSpec) : Option Source.TypeExpr × List Source.Expr :=
  match spec.values, spec.type, last with
  | some values, type, _ => (type, values)
  | none, none, some (type, values) => (type, values)
  | none, type, _ => (type, [])

def constNames (file : String) (spec : Source.Extent) (type : Option Source.TypeExpr)
    (iota : Nat) : List Source.Extent -> List Source.Expr -> Collect Unit
  | [], _ => return ()
  | x :: names, values => do
      if ← declare file x then
        updateScope fun s =>
          { s with consts := s.consts ++ [⟨x.text, file, spec, type, values.head?, iota⟩] }
      constNames file spec type iota names values.tail

def constSpecs (file : String) :
    Option (Option Source.TypeExpr × List Source.Expr) -> Nat -> List Source.ConstSpec ->
      Collect Unit
  | _, _, [] => return ()
  | last, iota, spec :: rest => do
      let (type, values) := repeated last spec
      if values.length < spec.names.length then
        complain file spec.extent.line .missingValue
      else if values.length > spec.names.length then
        complain file spec.extent.line .extraValue
      constNames file spec.extent type iota spec.names values
      let last :=
        match spec.values with
        | some values => some (spec.type, values)
        | none => last
      constSpecs file last (iota + 1) rest

def decl (file : String) : Source.Decl -> Collect Unit
  | .imports specs => specs.forM (importSpec file)
  | .types specs => specs.forM (typeSpec file)
  | .consts specs => constSpecs file none 0 specs
  | .vars names => names.forM (otherName file)
  | .func name => if name.text == "init" then return () else otherName file name
  | .method decl =>
      updateScope fun s => { s with methods := s.methods ++ [⟨file, decl⟩] }
  | .package _ _ => return ()
  | .statement => return ()

def fileDecls (file : String) (source : Source.File) : Collect Unit := do
  updateScope fun s => s.updateFile file fun _ => FileScope.ofQualifiers source.qualifiers
  source.decls.forM (decl file)

end Collect

def LoadedPackage.checkedFiles (p : LoadedPackage) : List (String × Source.File) :=
  p.files.filterMap fun name =>
    (p.source? name).bind fun source =>
      if Source.isExcluded source.bytes source.file then none else some (name, source.file)

def collect (p : LoadedPackage) : Inquiry String Collection := do
  let pass : Collect Unit := p.checkedFiles.forM fun (name, file) => Collect.fileDecls name file
  let (_, collection) ← pass.run ⟨Scope.start p.importPath, Table.empty, []⟩
  return collection

end GoAtlas
