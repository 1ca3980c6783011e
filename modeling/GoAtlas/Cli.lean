import GoAtlas.Check.Go
import GoAtlas.Cli.Arguments
import GoAtlas.Config
import GoAtlas.Encoding
import GoAtlas.Session.Declaration
import GoAtlas.Terminal
import GoAtlas.Walk.Outline

/-!
# The command line

A run of the program as a function of its arguments, its environment and the file tree. Both
outputs are texts, and `init` gives a changed tree.
-/

namespace GoAtlas
namespace Cli

structure Environment where
  goPath : Option String
  goRoot : Option String
  home : Option String
  noColor : Bool
  isTerminal : Bool

namespace Environment

def workspaceBase? (e : Environment) : Option Path :=
  match e.goPath with
  | some list => some ⟨String.ofList (list.toList.takeWhile (· != ':'))⟩
  | none => e.home.map fun home => (Path.mk home).join "go"

def searchRoots (e : Environment) : SearchRoots where
  workspace := e.workspaceBase?.map fun base => base.join "src"
  system := e.goRoot.map fun root => (Path.mk root).join "src"
  vendorDir := SearchRoots.defaults.vendorDir

end Environment

inductive Failure where
  | error (cause : Error)
  | config (cause : ConfigError)
  /-- The answer has a number that the data format does not. -/
  | unprintable

/-- What a run has printed so far, and its session. -/
structure Console where
  session : Session
  theme : Theme
  isJson : Bool
  out : String
  err : String

abbrev Run := ExceptT Failure (StateM Console)

/-! # Printing -/

def printLine (text : String) : Run Unit :=
  modify fun c => { c with out := c.out ++ text ++ "\n" }

def warnLine (theme : Theme) (text : String) : String :=
  Symbol.warning ++ " " ++ theme.warn.render text ++ "\n"

def errorLine (theme : Theme) (text : String) : String :=
  Symbol.cross ++ " " ++ theme.error.render text ++ "\n"

def complain (line : Theme -> String -> String) (text : String) : Run Unit :=
  modify fun c => { c with err := c.err ++ line c.theme text }

def styled (style : Theme -> Style) (text : String) : Run String := do
  return (style (← get).theme).render text

def header (text : String) : Run Unit := do
  printLine (Symbol.package ++ " " ++ (← styled (·.header) text))

def subheader (title : String) : Run Unit := do
  printLine ""
  printLine ("━" ++ (← styled (·.header) title) ++ "━")

def row (label value : String) : Run Unit := do
  printLine ("  " ++ (← styled (·.dim) label) ++ " " ++ value)

def emit (command : String) (data : Json) : Run Unit :=
  if data.isPrintable then
    printLine (Json.record [("status", "ok"), ("command", command), ("data", data)]).pretty
  else throw .unprintable

/-! # Asking the session -/

/-- Takes a step of the session. Errors of checks are shown unless data is printed. -/
def ask {α : Type} (action : Action α) : Run α := do
  let c ← get
  let (result, session) := action.run c.session
  let fresh := session.captured.drop c.session.captured.length
  let warnings := if c.isJson then [] else fresh.map fun e => warnLine c.theme e.text
  set { c with session := session, err := c.err ++ String.join warnings }
  match result with
  | .ok a => return a
  | .error e => throw (.error e)

def look {α : Type} (f : Session -> Except Error α) : Run α := do
  match f (← get).session with
  | .ok a => return a
  | .error e => throw (.error e)

def loadType (text : String) : Run TypeName := do
  let name ← look fun _ => TypeName.parse text
  match ← ask (Session.resolve name.packagePath) with
  | some _ => return name
  | none => throw (.error (.packageNotFound name.packagePath))

/-! # Commands -/

def summary (p : Package) : Json :=
  .record
    [("path", p.path), ("name", p.name), ("kind", p.kind.tag),
      ("dir", Json.ofOption (fun d => .string d.text) p.dir), ("opaque", p.isOpaque),
      ("types", .strings p.types.keys), ("consts", p.consts.length),
      ("imports", .strings p.imports)]

def resolveAll : List String -> Run (List Package)
  | [] => return []
  | path :: rest => do
      match ← ask (Session.resolve path) with
      | some p => return p :: (← resolveAll rest)
      | none =>
          if !(← get).isJson then complain errorLine ("package not found: " ++ path)
          resolveAll rest

def showPackage (p : Package) : Run Unit := do
  header (p.path ++ " " ++ (← get).theme.kindLabel p.kind)
  match p.dir with
  | some dir => row "dir:" dir.text
  | none => pure ()
  if p.isOpaque then row "types:" (← styled (·.dim) "opaque (no sources)")
  else
    row "consts:" (toString p.consts.length)
    subheader "Types"
    p.types.keys.forM fun type => do
      let shape :=
        match (← get).session.object? (.declared p.path type) with
        | some d => d.underlying.shape
        | none => ""
      printLine ("  " ++ (← styled (·.ident) type) ++ " " ++ (← styled (·.dim) shape))

def showStats : Run Unit := do
  let s := (← get).session
  subheader "Stats"
  row "requests:" (toString s.stats.requests)
  row "cache hits:" (toString s.stats.cacheHits)
  row "packages loaded:" (toString s.stats.loads)
  row "indexed types:" (toString s.index.size)

def runResolve (paths : List String) : Run Unit := do
  let packages ← resolveAll paths
  let c ← get
  if c.isJson then
    emit "resolve"
      (.record
        [("packages", .array (packages.map summary)), ("stats", c.session.stats.toJson)])
  else
    packages.forM showPackage
    showStats

def runImplementers (iface : String) (paths : List String) : Run Unit := do
  let name ← look fun _ => TypeName.parse iface
  paths.forM fun path => do
    if (← ask (Session.resolve path)).isNone then
      complain warnLine ("package not found: " ++ path)
  let found ← ask (Session.findImplementers name)
  if (← get).isJson then
    emit "implementers"
      (.record
        [("interface", name.full),
          ("implementers",
            .array
              (found.map fun (type, form) =>
                .record [("type", type.full), ("form", form.text)]))])
  else
    header (Symbol.search ++ " " ++ name.full)
    if found.isEmpty then
      printLine ("  " ++ (← styled (·.dim) "no implementers among indexed types"))
    found.forM fun (type, form) => do
      printLine
        ("  " ++ (← styled (·.ident) type.full) ++ " " ++
          (← styled (·.dim) ("(" ++ form.text ++ ")")))

def runConsts (type : String) (unexported : Bool) : Run Unit := do
  let name ← loadType type
  let group ← look fun s => s.constGroup name unexported
  if (← get).isJson then emit "consts" group.toJson
  else
    header (name.full ++ " " ++ group.underlying.text ++ (if group.isEnum then " enum" else ""))
    group.values.forM fun (constant, value) => do
      printLine ("  " ++ (← styled (·.ident) constant.name) ++ " = " ++ value.text)
    if group.values.isEmpty then printLine ("  " ++ (← styled (·.dim) "no constants"))

def runWalk (type : String) : Run Unit := do
  let name ← loadType type
  let lines ← look fun s =>
    match s.definition? name with
    | some d => Outline.render name d.underlying
    | none => .error (.objectNotFound name.full)
  if (← get).isJson then
    emit "walk" (.record [("type", name.full), ("outline", .strings lines)])
  else
    header name.full
    lines.forM printLine

def runSource (type : String) : Run Unit := do
  let name ← loadType type
  let bytes ← look fun s => s.sourceText name
  let source := Text.lossy bytes
  let c ← get
  if c.isJson then emit "source" (.record [("type", name.full), ("source", source)])
  else
    match (c.session.object? name).bind (·.span) with
    | some span =>
        let place ← styled (·.dim) (span.file ++ ":" ++ toString span.line)
        printLine (Symbol.file ++ " " ++ place)
    | none => pure ()
    printLine ("type " ++ source)

def runDoc (type : String) (field : Option String) : Run Unit := do
  let name ← loadType type
  let doc ← look fun s =>
    match field with
    | some field => s.fieldDoc name field
    | none => s.typeDoc name
  if (← get).isJson then
    emit "doc"
      (.record [("type", name.full), ("field", Json.ofOption .string field), ("doc", doc)])
  else if doc == "" then printLine (← styled (·.dim) "no doc comment")
  else modify fun c => { c with out := c.out ++ doc }

/-! # Configuration -/

def configJson (c : Config) : Json :=
  .record
    [("workspace_root", Json.ofOption .string c.workspaceRoot),
      ("system_root", Json.ofOption .string c.systemRoot),
      ("vendor_dir", Json.ofOption .string c.vendorDir),
      ("include_tests", Json.ofOption .bool c.includeTests),
      ("allow_hard_errors", Json.ofOption .bool c.allowHardErrors)]

def initialConfig (e : Environment) : Config where
  workspaceRoot := e.searchRoots.workspace.map (·.text)
  systemRoot := e.searchRoots.system.map (·.text)
  vendorDir := some e.searchRoots.vendorDir
  includeTests := some Options.defaults.includeTests
  allowHardErrors := some Options.defaults.allowHardErrors

def runInit (e : Environment) (path : String) (force : Bool) : Run Unit := do
  let config := initialConfig e
  let c ← get
  match config.save c.session.setup.tree path force with
  | .error cause => throw (.config cause)
  | .ok tree =>
      let setup := { c.session.setup with tree := tree }
      set { c with session := { c.session with setup := setup } }
      if c.isJson then emit "init" (.record [("path", path), ("config", configJson config)])
      else
        let text ← styled (·.success) (Symbol.gear ++ " wrote " ++ path)
        printLine (Symbol.check ++ " " ++ text)

/-- The roots and options of a run: arguments over configuration over environment. -/
def settings (e : Environment) (t : FileTree) (c : Call) :
    Except ConfigError (SearchRoots × Options) := do
  let config := (← Config.load t (c.value? "config")).getD Config.empty
  let roots := config.searchRoots e.searchRoots
  let roots : SearchRoots :=
    { roots with
      workspace := ((c.value? "workspace").map Path.mk).or roots.workspace
      system := ((c.value? "system-root").map Path.mk).or roots.system }
  let options := config.options
  return (roots,
    { includeTests := options.includeTests || c.has "tests"
      allowHardErrors := options.allowHardErrors && !c.has "strict" })

def openSession (e : Environment) (c : Call) : Run Unit := do
  let console ← get
  let setup := console.session.setup
  match settings e setup.tree c with
  | .error cause => throw (.config cause)
  | .ok (roots, options) =>
      set { console with session := .start { setup with roots := roots, options := options } }

/-! # Runs -/

def perform (e : Environment) (c : Call) : Run Unit := do
  let word := c.words.headD ""
  if c.command == "init" then
    runInit e ((c.value? "path").getD Config.defaultPath) (c.has "force")
  else
    openSession e c
    match c.command with
    | "resolve" => runResolve c.words
    | "implementers" => runImplementers word (c.after.all "package")
    | "consts" => runConsts word (c.has "unexported")
    | "walk" => runWalk word
    | "source" => runSource word
    | _ => runDoc word (c.value? "field")

structure Outcome where
  exit : Nat
  out : String
  err : String
  tree : FileTree

def versionText : String := "structer 0.1.0\n"

def helpText : String :=
  "Package and type introspection for Go source trees\n\nUsage: structer [OPTIONS] <COMMAND>\n\n" ++
    "Commands: " ++ String.intercalate ", " (commands.map (·.name)) ++ "\n" ++
    "Options: " ++ String.intercalate ", " (general.map fun s => "--" ++ s.long) ++ "\n"

def startSession (t : FileTree) : Session :=
  .start ⟨t, SearchRoots.defaults, Options.defaults, goChecker, Registry.standard⟩

def failureText : Failure -> String
  | .error e => e.message
  | .config e => e.message
  | .unprintable => "number out of range"

def failureCode : Failure -> Nat
  | .unprintable => 101
  | _ => 1

def run (e : Environment) (t : FileTree) (arguments : List String) : Outcome :=
  match read arguments with
  | .error .version => ⟨0, versionText, "", t⟩
  | .error .help => ⟨0, helpText, "", t⟩
  | .error (.misuse cause) => ⟨2, "", cause.message ++ "\n", t⟩
  | .ok call =>
      let theme := Theme.select e.isTerminal e.noColor
      let console : Console := ⟨startSession t, theme, call.has "json", "", ""⟩
      match (perform e call).run console with
      | (.ok _, c) => ⟨0, c.out, c.err, c.session.setup.tree⟩
      | (.error f, c) =>
          ⟨failureCode f, c.out, c.err ++ "Error: " ++ failureText f ++ "\n",
            c.session.setup.tree⟩

end Cli
end GoAtlas
