import GoAtlas.Constant.Operator
import GoAtlas.GoType

/-!
# Source trees

What the library keeps of a parsed file: its declarations with their types and constant
expressions, the qualifiers used anywhere in it, and every type declaration, also those inside
functions. Code of function bodies is not kept.
-/

namespace GoAtlas
namespace Source

/-- A piece of a file: byte offsets, the line it starts on, and its text, which is empty when
the bytes are no text. An identifier is the extent of its name. -/
structure Extent where
  start : Nat
  stop : Nat
  line : Nat
  text : String
  deriving Repr, DecidableEq

mutual

inductive TypeExpr where
  | name (x : Extent)
  | qualified (x package name : Extent)
  | generic (x : Extent) (base : TypeExpr) (arguments : List TypeExpr)
  | paren (x : Extent) (inner : TypeExpr)
  | negated (x : Extent) (inner : TypeExpr)
  | pointer (x : Extent) (elem : TypeExpr)
  | slice (x : Extent) (elem : TypeExpr)
  | array (x : Extent) (len : Expr) (elem : TypeExpr)
  | map (x : Extent) (key value : TypeExpr)
  | chan (x : Extent) (dir : Direction) (elem : TypeExpr)
  | func (x : Extent) (params results : List Param)
  | struct (x : Extent) (fields : List FieldDecl)
  | interface (x : Extent) (elems : List InterfaceElem)

/-- Expressions as constants see them. `other` stands for every form that is never constant:
function and composite literals, indexing, slicing, assertions, types as arguments. -/
inductive Expr where
  | int (x : Extent)
  | float (x : Extent)
  | imaginary (x : Extent)
  | rune (x : Extent)
  | string (x : Extent)
  | bool (x : Extent) (value : Bool)
  | iota (x : Extent)
  | nil (x : Extent)
  | ident (x : Extent)
  | paren (x : Extent) (inner : Expr)
  | selector (x : Extent) (operand : Expr) (field : Extent)
  | unary (x : Extent) (op : UnaryOp) (operand : Expr)
  | binary (x : Extent) (op : BinaryOp) (left right : Expr)
  | call (x : Extent) (function : Expr) (arguments : List Expr)
  | conversion (x : Extent) (type : TypeExpr) (operand : Expr)
  | other (x : Extent)

/-- Parameters of one type, or the collected rest of the arguments. -/
inductive Param where
  | plain (names : List Extent) (type : TypeExpr)
  | variadic (name : Option Extent) (type : TypeExpr)

inductive FieldDecl where
  | named (x : Extent) (names : List Extent) (type : TypeExpr) (tag : Option Extent)
  | embedded (x : Extent) (star : Bool) (type : TypeExpr) (tag : Option Extent)

inductive InterfaceElem where
  | method (x name : Extent) (params results : List Param)
  | union (terms : List TypeExpr)

end

namespace TypeExpr

def extent : TypeExpr -> Extent
  | name x => x
  | qualified x _ _ => x
  | generic x _ _ => x
  | paren x _ => x
  | negated x _ => x
  | pointer x _ => x
  | slice x _ => x
  | array x _ _ => x
  | map x _ _ => x
  | chan x _ _ => x
  | func x _ _ => x
  | struct x _ => x
  | interface x _ => x

end TypeExpr

namespace Expr

def extent : Expr -> Extent
  | int x => x
  | float x => x
  | imaginary x => x
  | rune x => x
  | string x => x
  | bool x _ => x
  | iota x => x
  | nil x => x
  | ident x => x
  | paren x _ => x
  | selector x _ _ => x
  | unary x _ _ => x
  | binary x _ _ _ => x
  | call x _ _ => x
  | conversion x _ _ => x
  | other x => x

end Expr

namespace FieldDecl

def extent : FieldDecl -> Extent
  | named x _ _ _ => x
  | embedded x _ _ _ => x

end FieldDecl

/-! # Declarations -/

structure TypeSpec where
  extent : Extent
  name : Extent
  params : List String
  isAlias : Bool
  type : TypeExpr

/-- One line of a constant declaration. A comma between two names takes a place of its own
among the names. -/
structure ConstSpec where
  extent : Extent
  names : List Extent
  type : Option TypeExpr
  values : Option (List Expr)

inductive ImportLabel where
  | dot
  | blank
  | named (x : Extent)

structure ImportSpec where
  extent : Extent
  label : Option ImportLabel
  path : Extent

structure MethodDecl where
  extent : Extent
  receiver : List Param
  name : Extent
  params : List Param
  results : List Param

inductive Decl where
  | imports (specs : List ImportSpec)
  | types (specs : List TypeSpec)
  | consts (specs : List ConstSpec)
  | vars (names : List Extent)
  | func (name : Extent)
  | method (decl : MethodDecl)
  | package (clause name : Extent)
  | statement

structure File where
  decls : List Decl
  qualifiers : List String
  typeSpecs : List TypeSpec

namespace File

def package? (f : File) : Option (Nat × String) :=
  f.decls.findSome? fun
    | .package clause name => some (clause.start, name.text)
    | _ => none

def packageName (f : File) : String :=
  match f.package? with
  | some (_, name) => name
  | none => ""

end File
end Source
end GoAtlas
