import GoAtlas.GoType

/-!
# Walking types

A walk takes a type apart and calls a visitor on the way. Branches are entered and left,
leaves are visited. A named type is a leaf, so every walk is finite. Interfaces, functions and
channels cannot be walked.
-/

namespace GoAtlas

inductive Flow where
  | descend
  | skip
  deriving Repr, DecidableEq

/-- A struct on the way. It has no name of its own: `name` is that of the walk's root, of the
field whose type it is, or its written form inside a container. -/
structure StructInfo where
  package : String
  name : String
  root : TypeName
  fields : List (Field GoType)

/-- What is entered and left. A container shows its element. -/
inductive Branch where
  | struct (info : StructInfo)
  | field (info : StructInfo) (field : Field GoType)
  | mapKey (key : GoType)
  | mapElem (elem : GoType)
  | pointer (elem : GoType)
  | slice (elem : GoType)
  | array (len : Nat) (elem : GoType)

inductive Leaf where
  | basic (kind : BasicKind)
  | named (name : TypeName)

/-- Where a walk is: the composite types around the place, outermost first. A branch is on
its own stack. -/
structure Context where
  stack : List GoType
  root : TypeName

namespace Context

def depth (c : Context) : Nat := c.stack.length

def parent? (c : Context) : Option GoType := c.stack.getLast?

end Context

/-- A visitor's step: it changes the visitor's state and may stop the walk. -/
abbrev Visit (σ : Type) := ExceptT Error (StateM σ)

structure Visitor (σ : Type) where
  enter : Context -> Branch -> Visit σ Flow
  leave : Context -> Branch -> Visit σ Unit
  visit : Context -> Leaf -> Visit σ Unit

namespace Visitor

variable {σ : Type}

def idle : Visitor σ :=
  ⟨fun _ _ => return .descend, fun _ _ => return (), fun _ _ => return ()⟩

/-! # Several visitors -/

/-- The first visitor that skips decides, and the later ones are not asked. -/
def enterAll (c : Context) (b : Branch) : List (Visitor σ) -> Visit σ Flow
  | [] => return .descend
  | v :: rest => do
      match ← v.enter c b with
      | .skip => return .skip
      | .descend => enterAll c b rest

def leaveAll (c : Context) (b : Branch) : List (Visitor σ) -> Visit σ Unit
  | [] => return ()
  | v :: rest => do
      v.leave c b
      leaveAll c b rest

def visitAll (c : Context) (l : Leaf) : List (Visitor σ) -> Visit σ Unit
  | [] => return ()
  | v :: rest => do
      v.visit c l
      visitAll c l rest

def all (vs : List (Visitor σ)) : Visitor σ :=
  ⟨fun c b => enterAll c b vs, fun c b => leaveAll c b vs, fun c l => visitAll c l vs⟩

/-! # The walk -/

/-- Runs `body` between entering and leaving a branch, or neither if it is skipped. -/
def within (v : Visitor σ) (c : Context) (b : Branch) (body : Visit σ Unit) : Visit σ Unit := do
  match ← v.enter c b with
  | .skip => return ()
  | .descend =>
      body
      v.leave c b

def unhandled (t : GoType) : Visit σ Unit :=
  throw (.unhandledKind (t.shape ++ " (" ++ t.text ++ ")"))

mutual

/-- Walks a type below `stack`. `package` and `name` describe a struct found right here. -/
def walkFrom (v : Visitor σ) (root : TypeName) (stack : List GoType) (package name : String) :
    GoType -> Visit σ Unit
  | .basic kind => v.visit ⟨stack, root⟩ (.basic kind)
  | .named n => v.visit ⟨stack, root⟩ (.named n)
  | .struct fields =>
      let stack := stack ++ [.struct fields]
      let info : StructInfo := ⟨package, name, root, fields⟩
      v.within ⟨stack, root⟩ (.struct info) (walkFields v root stack info fields)
  | .slice elem =>
      let stack := stack ++ [.slice elem]
      v.within ⟨stack, root⟩ (.slice elem) (walkFrom v root stack package elem.text elem)
  | .array len elem =>
      let stack := stack ++ [.array len elem]
      v.within ⟨stack, root⟩ (.array len elem) (walkFrom v root stack package elem.text elem)
  | .pointer elem =>
      let stack := stack ++ [.pointer elem]
      v.within ⟨stack, root⟩ (.pointer elem) (walkFrom v root stack package elem.text elem)
  | .map key value => do
      let stack := stack ++ [.map key value]
      v.within ⟨stack, root⟩ (.mapKey key) (walkFrom v root stack package key.text key)
      v.within ⟨stack, root⟩ (.mapElem value) (walkFrom v root stack package value.text value)
  | .interface methods embedded => unhandled (.interface methods embedded)
  | .func signature => unhandled (.func signature)
  | .chan dir elem => unhandled (.chan dir elem)

def walkFields (v : Visitor σ) (root : TypeName) (stack : List GoType) (info : StructInfo) :
    List (Field GoType) -> Visit σ Unit
  | [] => return ()
  | ⟨name, type, tag, embedded, package⟩ :: rest => do
      v.within ⟨stack, root⟩ (.field info ⟨name, type, tag, embedded, package⟩)
        (walkFrom v root stack package name type)
      walkFields v root stack info rest

end

def walk (v : Visitor σ) (root : TypeName) (t : GoType) : Visit σ Unit :=
  v.walkFrom root [] root.packagePath root.name t

end Visitor
end GoAtlas
