import GoAtlas.Check.Receiver
import GoAtlas.Check.Resolution

/-!
# The Go checker

Works out the package-level types, methods and constants of a package and finds the imports
that a file does not use.
-/

namespace GoAtlas
namespace Scope

def spanOf (file : String) (x : Source.Extent) : Span :=
  ⟨file, x.start, x.stop, x.line⟩

/-! # Methods -/

def methodSignature (s : Scope) (file : String) (tparams : List String)
    (d : Source.MethodDecl) : Resolve (Signature GoType) := do
  let (params, variadic) ← s.paramTypes s.links file tparams d.params
  let (results, _) ← s.paramTypes s.links file tparams d.results
  return ⟨params, results, variadic⟩

def isLocalType (s : Scope) (name : String) : Bool :=
  match s.types.get? name with
  | some d => !d.spec.isAlias
  | none => false

def addToType (file : String) (line : Nat) (base : String) (m : Method)
    (methods : Table (List Method)) : Resolve (Table (List Method)) := do
  let known := (methods.get? base).getD []
  if known.any fun n => n.name == m.name then
    Resolve.complain file line (.methodRedeclared base m.name)
    return methods
  else return methods.insert base (known ++ [m])

def checkMethod (s : Scope) (methods : Table (List Method)) (m : MethodSource) :
    Resolve (Table (List Method)) := do
  let d := m.decl
  match Source.receiverType? d.receiver with
  | none =>
      Resolve.complain m.file d.extent.line .noReceiver
      return methods
  | some type =>
      let r := Source.Receiver.ofType type
      if !s.isLocalType r.base then
        Resolve.complain m.file type.extent.line (.foreignReceiver r.base)
        return methods
      else if d.name.text == "_" then return methods
      else
        let signature ← s.methodSignature m.file r.tparams d
        addToType m.file d.name.line r.base
          ⟨d.name.text, r.isPointer, signature, some (spanOf m.file d.extent)⟩ methods

/-! # Definitions -/

def typeDef (s : Scope) (methods : Table (List Method)) (name : String) (d : TypeDecl) :
    Resolve TypeDef := do
  let span := some (spanOf d.file d.spec.extent)
  let full : TypeName := .declared s.path name
  if d.spec.isAlias then return ⟨full, ← s.links.aliased name, [], true, span⟩
  else
    let underlying ← s.links.underlying name
    return ⟨full, underlying, (methods.get? name).getD [], false, span⟩

def constDef? (s : Scope) (i : Nat) (d : ConstDecl) : Resolve (Option ConstDef) := do
  match ← s.links.const i with
  | some (value, type) => return some ⟨d.name, type, value, some (spanOf d.file d.spec)⟩
  | none => return none

/-! # Unused imports -/

def checkImport (file : String) (scope : FileScope) (i : String × String × Nat) :
    Resolve Unit := do
  let (label, path, line) := i
  if scope.qualifiers.contains label then return ()
  else
    let shown := if label == Collect.lastOf path then none else some label
    Resolve.report file line true (.unusedImport path shown)

def checkImports (s : Scope) : Resolve Unit :=
  s.files.entries.forM fun (file, scope) => scope.named.forM (checkImport file scope)

/-! # The whole package -/

def importList (s : Scope) : List String :=
  (s.importPaths.mergeSort (· ≤ ·)).eraseDups

def definitions (s : Scope) (name : String) : Resolve CheckedPackage := do
  let methods ← s.methods.foldlM s.checkMethod Table.empty
  let types ← s.types.entries.mapM fun (name, d) => s.typeDef methods name d
  let consts ← s.consts.zipIdx.mapM fun (d, i) => s.constDef? i d
  s.checkImports
  return ⟨name, types, consts.filterMap id, s.importList⟩

end Scope

/-- Checks a package: first its scope, then what the names stand for. Other packages are asked
for by their import paths. -/
def checkGo (p : LoadedPackage) : Inquiry String CheckOutcome := do
  let c ← collect p
  let start : Progress := ⟨c.packages, Table.empty, Table.empty, [], c.errors⟩
  let (package, progress) ← (c.scope.definitions p.name).run start
  return ⟨package, progress.errors⟩

def goChecker : Checker := fun p =>
  (checkGo p).mapRequests fun path => ⟨path, p.dir⟩

end GoAtlas
