import GoAtlas.Path
import GoAtlas.Text.Utf8

/-!
# File trees

The files and directories the library reads, as a value. A directory exists if it is listed
or lies above something listed. Paths are looked up component by component from the directory
`here`, or from the top if they are absolute; `..` leads to the directory above.
-/

namespace GoAtlas

abbrev Location := List String

structure FileTree where
  files : List (Location × Text.Bytes)
  dirs : List Location
  here : Location

namespace FileTree

def isDirAt (t : FileTree) (l : Location) : Bool :=
  l.isPrefixOf t.here || t.dirs.any (fun d => l.isPrefixOf d) ||
    t.files.any (fun f => l.isPrefixOf f.1.dropLast)

/-- Follows components downwards from a directory; each one but the last leads through a
directory. -/
def follow (t : FileTree) : Location -> List Component -> Option Location
  | l, [] => some l
  | l, c :: rest =>
      if t.isDirAt l then
        match c with
        | .root => follow t [] rest
        | .here => follow t l rest
        | .up => follow t l.dropLast rest
        | .normal name => follow t (l ++ [name]) rest
      else none

def locate? (t : FileTree) (p : Path) : Option Location :=
  if p.text == "" then none else t.follow t.here p.components

def isDir (t : FileTree) (p : Path) : Bool :=
  match t.locate? p with
  | some l => t.isDirAt l
  | none => false

def read? (t : FileTree) (p : Path) : Option Text.Bytes :=
  if p.isOpenEnded then none
  else
    match t.locate? p with
    | some l => (t.files.find? fun f => f.1 == l).map (·.2)
    | none => none

def isFile (t : FileTree) (p : Path) : Bool :=
  (t.read? p).isSome

def pathExists (t : FileTree) (p : Path) : Bool :=
  t.isDir p || t.isFile p

/-- Names of the files directly inside a directory, with their contents. -/
def filesIn (t : FileTree) (p : Path) : List (String × Text.Bytes) :=
  match t.locate? p with
  | none => []
  | some l =>
      t.files.filterMap fun (location, bytes) =>
        match location.getLast? with
        | some name => if location.dropLast == l then some (name, bytes) else none
        | none => none

/-- Why a file could not be written. -/
inductive WriteError where
  | noDirectory
  | throughFile
  | isDirectory
  deriving Repr, DecidableEq

namespace WriteError

def message : WriteError -> String
  | noDirectory => "No such file or directory (os error 2)"
  | throughFile => "Not a directory (os error 20)"
  | isDirectory => "Is a directory (os error 21)"

end WriteError

def leadsThroughFile (t : FileTree) (p : Path) : Bool :=
  (p.ancestors.drop 1).any t.isFile

def write (t : FileTree) (p : Path) (bytes : Text.Bytes) : Except WriteError FileTree :=
  if t.leadsThroughFile p then .error .throughFile
  else
    match t.locate? p with
    | none => .error .noDirectory
    | some l =>
        if !t.isDirAt l.dropLast then .error .noDirectory
        else if t.isDirAt l || p.isOpenEnded then .error .isDirectory
        else .ok { t with files := t.files.filter (fun f => f.1 != l) ++ [(l, bytes)] }

/-- A bound on the import paths that can lead to a directory: each is a run of names at the
end of a directory's location. -/
def importBound (t : FileTree) : Nat :=
  let dirs := t.dirs.foldl (fun n d => n + d.length * d.length) (t.here.length * t.here.length)
  t.files.foldl (fun n f => n + f.1.length * f.1.length) dirs

def addFile (t : FileTree) (l : Location) (bytes : Text.Bytes) : FileTree :=
  { t with files := t.files ++ [(l, bytes)] }

def addDir (t : FileTree) (l : Location) : FileTree :=
  { t with dirs := t.dirs ++ [l] }

end FileTree
end GoAtlas
