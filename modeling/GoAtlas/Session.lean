import GoAtlas.Check.Inquiry
import GoAtlas.Index
import GoAtlas.Package.Prebuilt
import GoAtlas.Package.Provenance

/-!
# Sessions

A session locates, loads and checks packages. It remembers what it found for an import path,
unless an invariant was broken, and indexes the types that packages declare.
A check asks for further packages, and these requests go to the session that runs it.
-/

namespace GoAtlas

structure Options where
  /-- Load test files along with the others. -/
  includeTests : Bool
  /-- Keep a package although its check found hard errors. -/
  allowHardErrors : Bool
  deriving Repr, DecidableEq

namespace Options

def defaults : Options := ⟨false, true⟩

end Options

structure Setup where
  tree : FileTree
  roots : SearchRoots
  options : Options
  checker : Checker
  registry : Registry

inductive CacheEntry where
  | resolved (package : Package)
  | absent
  | failed (cause : String)

structure Stats where
  requests : Nat
  cacheHits : Nat
  loads : Nat
  checks : Nat
  deriving Repr, DecidableEq

structure Session where
  setup : Setup
  cache : Table CacheEntry
  /-- The import paths whose checks are running, outermost first. -/
  pending : List String
  kinds : Table PackageKind
  index : Index
  stats : Stats
  /-- Every error that a check reported, in order. -/
  captured : List TypeError

/-- A step of a session. What happened before a failure stays. -/
abbrev Action := ExceptT Error (StateM Session)

namespace Session

def start (setup : Setup) : Session :=
  ⟨setup, Table.empty, [], Table.empty, Index.empty, ⟨0, 0, 0, 0⟩, []⟩

/-! # Bookkeeping -/

def countRequest (s : Session) : Session :=
  { s with stats := { s.stats with requests := s.stats.requests + 1 } }

def countHit (s : Session) : Session :=
  { s with stats := { s.stats with cacheHits := s.stats.cacheHits + 1 } }

def countLoad (s : Session) : Session :=
  { s with stats := { s.stats with loads := s.stats.loads + 1 } }

def countCheck (s : Session) : Session :=
  { s with stats := { s.stats with checks := s.stats.checks + 1 } }

def remember (path : String) (entry : CacheEntry) (s : Session) : Session :=
  { s with cache := s.cache.insert path entry }

def recordKind (path : String) (kind : PackageKind) (s : Session) : Session :=
  { s with kinds := s.kinds.insert path kind }

def enter (path : String) (s : Session) : Session :=
  { s with pending := s.pending ++ [path] }

def leave (s : Session) : Session :=
  { s with pending := s.pending.dropLast }

def capture (errors : List TypeError) (s : Session) : Session :=
  { s with captured := s.captured ++ errors }

/-! # Loading and checking -/

abbrev Importer := Request -> Session -> Answer × Session

/-- A package with a hard error fails unless the policy allows them. -/
def verdict (options : Options) (path : String) (outcome : CheckOutcome) : Except Error Unit :=
  match outcome.firstHard? with
  | some e => if options.allowHardErrors then .ok () else .error (.typeCheck path e.text)
  | none => .ok ()

def check (importer : Importer) (source : LoadedPackage) : Action CheckOutcome := do
  modify countCheck
  let s ← get
  let (outcome, s) := (s.setup.checker source).run importer s
  set s
  return outcome

def indexTypes (path : String) (types : List TypeDef) : Action Unit := do
  let s ← get
  match s.index.merge path types with
  | .ok index => set { s with index := index }
  | .error e => throw e

def loadAndCheck (importer : Importer) (path : String) (kind : PackageKind)
    (dir : Path) : Action Package := do
  modify countLoad
  let s ← get
  let source ← Loading.load s.setup.tree s.setup.options.includeTests dir path
  let outcome ← check importer source
  modify (capture outcome.errors)
  verdict s.setup.options path outcome
  indexTypes path outcome.package.types
  return Package.ofChecked path kind (some source) outcome.package

/-- Keeps the outcome for later requests. A broken invariant is not kept. -/
def settle (path : String) : Except Error Package -> Action (Option Package)
  | .ok package => do
      modify (remember path (.resolved package))
      return some package
  | .error e => do
      if !e.isInvariant then modify (remember path (.failed e.message))
      throw e

/-! # Resolution -/

def remembered (path : String) : CacheEntry -> Except Error (Option Package)
  | .resolved package => .ok (some package)
  | .absent => .ok none
  | .failed cause => .error (.packageFailed path cause)

def systemPackage (registry : Registry) (path : String) (dir : Option Path) : Package :=
  match registry.get? path with
  | some model => { Package.ofChecked path .system none model with dir := dir }
  | none => { Package.ofPath path with dir := dir }

def effectiveKind (registry : Registry) (path : String) (kind : PackageKind) : PackageKind :=
  if !kind.isFound && registry.contains path then .system else kind

def resolveSource (importer : Importer) (path : String) (kind : PackageKind)
    (dir : Option Path) : Action (Option Package) := do
  match dir with
  | none => throw (.invariant (path ++ " resolved as " ++ kind.display ++ " without a directory"))
  | some dir =>
      modify (enter path)
      let s ← get
      let (result, s) := (loadAndCheck importer path kind dir).run s
      set s.leave
      settle path result

def resolveNew (importer : Importer) (path : String) (origin : Option Path) :
    Action (Option Package) := do
  let setup := (← get).setup
  let found ← Provenance.resolve setup.tree setup.roots path origin
  let kind := effectiveKind setup.registry path found.kind
  modify (recordKind path kind)
  match kind with
  | .absent =>
      modify (remember path .absent)
      return none
  | .system =>
      let package := systemPackage setup.registry path found.dir
      modify (remember path (.resolved package))
      return some package
  | kind => resolveSource importer path kind found.dir

/-- Answers a request from what is remembered. A pending path needs itself; any other one is
left to `fresh`. -/
def resolveStep (fresh : Action (Option Package)) (path : String) : Action (Option Package) := do
  modify countRequest
  let s ← get
  match s.cache.get? path with
  | some entry =>
      modify countHit
      remembered path entry
  | none =>
      if s.pending.contains path then throw (.importCycle (s.pending ++ [path]))
      else fresh

/-- What a check is told about a request: a package that does not exist is a failure. -/
def answer (path : String) : Except Error (Option Package) -> Answer
  | .ok (some package) => .ok package
  | .ok none => .error (.packageNotFound path)
  | .error e => .error e

/-- Resolution with a bound on the number of checks inside one another. -/
def resolveWithin : Nat -> String -> Option Path -> Action (Option Package)
  | 0, path, _ => resolveStep (do throw (.importCycle ((← get).pending ++ [path]))) path
  | bound + 1, path, origin =>
      let importer : Importer := fun request s =>
        let (result, s) := (resolveWithin bound request.path (some request.dir)).run s
        (answer request.path result, s)
      resolveStep (resolveNew importer path origin) path

/-- Pending paths are distinct and lead to directories of the tree, so checks never nest
deeper than there are import paths of directories. -/
def resolveFrom (path : String) (origin : Option Path) : Action (Option Package) := do
  resolveWithin ((← get).setup.tree.importBound + 1) path origin

/-- Resolves a path as if it were imported by the package of that path in the workspace.
There is no package if no search root has it. -/
def resolve (path : String) : Action (Option Package) := do
  resolveFrom path ((← get).setup.roots.workspace.map fun root => root.join path)

def importFrom (path : String) (dir : Path) : Action (Option Package) :=
  resolveFrom path (some dir)

end Session
end GoAtlas
