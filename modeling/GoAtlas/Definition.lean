import GoAtlas.Constant
import GoAtlas.GoType

/-!
# Definitions

What a package declares at its top level: named types with their methods, and constants.
-/

namespace GoAtlas

/-- Where a declaration stands: a file of the package's directory, byte offsets, and the line
of the first byte, counted from one. -/
structure Span where
  file : String
  start : Nat
  stop : Nat
  line : Nat
  deriving Repr, DecidableEq

structure Method where
  name : String
  /-- Declared on `*T` and not on `T`. -/
  onPointer : Bool
  signature : Signature GoType
  span : Option Span

structure TypeDef where
  name : TypeName
  /-- The structure of the type, or the type an alias stands for. -/
  underlying : GoType
  methods : List Method
  isAlias : Bool
  span : Option Span

namespace TypeDef

def plain (name : TypeName) (underlying : GoType) : TypeDef :=
  ⟨name, underlying, [], false, none⟩

def method? (d : TypeDef) (name : String) : Option Method :=
  d.methods.find? fun m => m.name == name

def isInterface (d : TypeDef) : Bool :=
  !d.isAlias && d.underlying.methods?.isSome

def asType (d : TypeDef) : GoType :=
  if d.isAlias then d.underlying else .named d.name

end TypeDef

structure ConstDef where
  name : String
  type : GoType
  value : Constant
  span : Option Span

end GoAtlas
