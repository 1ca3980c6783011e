import GoAtlas.Cli

/-!
# The program

Takes the arguments, the environment and the files that a run can look at, runs the command
line and carries out what it did.
-/

namespace GoAtlas
namespace Program

/-! # Looking at the disk -/

def pathOf (l : Location) : String :=
  "/" ++ String.intercalate "/" l

def locationOf (here : Location) (p : Path) : Location :=
  p.components.foldl
    (fun l c =>
      match c with
      | .root => []
      | .here => l
      | .up => l.dropLast
      | .normal name => l ++ [name])
    here

def namesIn? (l : Location) : IO (Option (List String)) := do
  try
    let real ← IO.FS.realPath (pathOf l)
    if ← real.isDir then return some ((← real.readDir).toList.map (·.fileName)) else return none
  catch _ => return none

def bytesAt? (l : Location) : IO (Option Text.Bytes) := do
  try return some (← IO.FS.readBinFile (pathOf l)).toList
  catch _ => return none

def addLocation (t : FileTree) (l : Location) : IO FileTree := do
  if (← namesIn? l).isSome then return t.addDir l
  else
    match ← bytesAt? l with
    | some bytes => return t.addFile l bytes
    | none => return t

def addPath (t : FileTree) (l : Location) : IO FileTree :=
  ((List.range (l.length + 1)).map l.take).foldlM addLocation t

/-- Adds a directory with the directories below it, and the files whose names are wanted.
Links may form circles, so there is a limit to the depth. -/
def addBelow (wanted : String -> Bool) : Nat -> FileTree -> Location -> IO FileTree
  | 0, t, _ => return t
  | depth + 1, t, l => do
      match ← namesIn? l with
      | some names =>
          names.foldlM (fun t name => addBelow wanted depth t (l ++ [name])) (t.addDir l)
      | none =>
          if wanted (l.getLastD "") then addLocation t l else return t

def depthLimit : Nat := 64

def addRoot (wanted : String -> Bool) (t : FileTree) (root : Option Path) : IO FileTree :=
  match root with
  | some p => addBelow wanted depthLimit t (locationOf t.here p)
  | none => return t

def treeFor (e : Cli.Environment) (here : Location) (arguments : List String) : IO FileTree := do
  let start : FileTree := ⟨[], [], here⟩
  match Cli.read arguments with
  | .error _ => return start
  | .ok call =>
      if call.command == "init" then
        addPath start (locationOf here ⟨(call.value? "path").getD Config.defaultPath⟩)
      else
        let config := (call.value? "config").getD Config.defaultPath
        let t ← addPath start (locationOf here ⟨config⟩)
        match Cli.settings e t call with
        | .error _ => return t
        | .ok (roots, _) =>
            let t ← addRoot (Loading.isWanted true) t roots.workspace
            addRoot (fun _ => false) t roots.system

/-! # Running -/

def environment : IO Cli.Environment := do
  return ⟨← IO.getEnv "GOPATH", ← IO.getEnv "GOROOT", ← IO.getEnv "HOME",
    (← IO.getEnv "NO_COLOR").isSome, ← (← IO.getStdout).isTty⟩

def currentLocation : IO Location := do
  return locationOf [] ⟨(← IO.currentDir).toString⟩

def writeChanges (before after : FileTree) : IO Unit :=
  (after.files.filter fun f => !before.files.any fun g => g.1 == f.1 && g.2 == f.2).forM
    fun (l, bytes) => IO.FS.writeBinFile (pathOf l) ⟨bytes.toArray⟩

end Program
end GoAtlas

open GoAtlas in
def main (arguments : List String) : IO UInt32 := do
  let e ← Program.environment
  let t ← Program.treeFor e (← Program.currentLocation) arguments
  let outcome := Cli.run e t arguments
  Program.writeChanges t outcome.tree
  IO.print outcome.out
  IO.eprint outcome.err
  return outcome.exit.toUInt32
