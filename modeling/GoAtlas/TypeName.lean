import GoAtlas.Error
import GoAtlas.Text.Blank
import GoAtlas.Text.Split
import GoAtlas.Text.Uppercase

/-!
# Names of types

A declared type is known by its package's import path and its local name, written
`path.Name`; a predeclared type by its name alone. Two names are the same when they are
written the same, and they are ordered as text.
-/

namespace GoAtlas

def isExported (ident : String) : Bool :=
  match ident.toList with
  | c :: _ => Text.isUppercase c
  | [] => false

/-- The package name implied by an import path: its last segment, slashes at the end aside. -/
def lastSegment (path : String) : String :=
  let trimmed := (path.toList.reverse.dropWhile (· == '/')).reverse
  String.ofList (Text.lastPiece '/' trimmed)

inductive TypeName where
  | builtin (name : String)
  | declared (package name : String)
  deriving Repr

namespace TypeName

def name : TypeName -> String
  | builtin name => name
  | declared _ name => name

def packagePath : TypeName -> String
  | builtin _ => ""
  | declared package _ => package

def packageName : TypeName -> String
  | builtin _ => ""
  | declared package _ => lastSegment package

def full : TypeName -> String
  | builtin name => name
  | declared package name => package ++ "." ++ name

def isBuiltin : TypeName -> Bool
  | builtin _ => true
  | declared _ _ => false

instance : BEq TypeName where
  beq a b := a.full == b.full

instance : ToString TypeName where
  toString n := n.full

def isVisible : TypeName -> Bool
  | builtin _ => true
  | declared _ name => isExported name

/-- Reads `path.Name`, cut at the last dot; neither part may be blank. -/
def parse (text : String) : Except Error TypeName :=
  match Text.cutLast? '.' text.toList with
  | none => .error (.invalidTypeName text)
  | some (before, after) =>
      if before.all Text.isBlank || after.all Text.isBlank then .error (.invalidTypeName text)
      else .ok (declared (String.ofList before) (String.ofList after))

def parseLocal (text package : String) : Except Error TypeName :=
  if text.toList.contains '.' then parse text else .ok (declared package text)

/-- Reads the written form of any name: without a dot it is a predeclared one. -/
def read (text : String) : Except Error TypeName :=
  if text.toList.contains '.' then parse text else .ok (builtin text)

/-- How the name is spelled inside package `rel`, which is compared with the package path and,
if `byName` is set, with the package name too. -/
def importName (n : TypeName) (rel : String) (byName : Bool) : String :=
  if n.isBuiltin || rel == n.packagePath || (byName && rel == n.packageName) then n.name
  else n.packageName ++ "." ++ n.name

def order (a b : TypeName) : Ordering :=
  compare a.full b.full

end TypeName
end GoAtlas
