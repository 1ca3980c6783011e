import GoAtlas.Error
import GoAtlas.FileTree
import GoAtlas.Source.File

/-!
# Loading package directories

Every Go file of a directory is read and parsed; one package is chosen among those the files
declare.
-/

namespace GoAtlas

/-- A file with its contents, which are kept so that declarations can be cut out again. -/
structure SourceFile where
  bytes : Text.Bytes
  file : Source.File

structure LoadedPackage where
  dir : Path
  importPath : String
  name : String
  /-- Files that declare `name`, sorted. -/
  files : List String
  /-- All files that were read, sorted by name. -/
  sources : List (String × SourceFile)

namespace LoadedPackage

def source? (p : LoadedPackage) (file : String) : Option SourceFile :=
  p.sources.lookup file

def contents? (p : LoadedPackage) (file : String) : Option Text.Bytes :=
  (p.source? file).map (·.bytes)

def slice? (p : LoadedPackage) (file : String) (start stop : Nat) : Option Text.Bytes :=
  (p.contents? file).bind fun bytes =>
    if start ≤ stop && stop ≤ bytes.length then some ((bytes.take stop).drop start) else none

end LoadedPackage

namespace Loading

/-- Go files that are not hidden, and test files only when they are asked for. -/
def isWanted (tests : Bool) (name : String) : Bool :=
  Text.endsWith name ".go" && !Text.startsWith name "." && !Text.startsWith name "_" &&
    (tests || !Text.endsWith name "_test.go")

def wantedFiles (t : FileTree) (tests : Bool) (dir : Path) : List (String × Text.Bytes) :=
  ((t.filesIn dir).filter fun f => isWanted tests f.1).mergeSort fun a b => a.1 ≤ b.1

def parseFiles : List (String × Text.Bytes) -> List SourceFault × List (String × SourceFile)
  | [] => ([], [])
  | (name, bytes) :: rest =>
      let (faults, sources) := parseFiles rest
      match Source.File.read bytes with
      | .ok file => (faults, (name, ⟨bytes, file⟩) :: sources)
      | .error (row, column) => (.unreadable name row column :: faults, sources)

def isLibrary (name : String) : Bool :=
  name != "" && name != "main" && !Text.endsWith name "_test"

/-- The one library package among the declared names; `main` only when there is none. -/
def choose (dir : Path) (names : List String) : Except Error String :=
  match (names.filter isLibrary).eraseDups.mergeSort (· ≤ ·) with
  | first :: second :: _ => .error (.parse dir.text [.severalPackages first second])
  | [name] => .ok name
  | [] =>
      if names.contains "main" then .ok "main"
      else .error (.packageNotFound ("no Go source files in " ++ dir.text))

def load (t : FileTree) (tests : Bool) (dir : Path) (importPath : String) :
    Except Error LoadedPackage :=
  if !t.isDir dir then .error (.packageNotFound (dir.text ++ " is not a directory"))
  else
    let (faults, sources) := parseFiles (wantedFiles t tests dir)
    if !faults.isEmpty then .error (.parse dir.text faults)
    else do
      let name ← choose dir (sources.map fun s => s.2.file.packageName)
      let files := (sources.filter fun s => s.2.file.packageName == name).map (·.1)
      return ⟨dir, importPath, name, files, sources⟩

end Loading
end GoAtlas
