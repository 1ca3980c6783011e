import GoAtlas.Constant.Arithmetic

/-!
# Conversion of constants

A constant converts to a basic kind when the kind can represent it.
-/

namespace GoAtlas
namespace BasicKind

/-- Least and greatest value of the sized integer kinds; untyped integers have no bounds of
their own. -/
def intRange? : BasicKind -> Option (Int × Int)
  | int8 => some (-128, 127)
  | int16 => some (-32768, 32767)
  | int32 | untypedRune => some (-2147483648, 2147483647)
  | int | int64 => some (-9223372036854775808, 9223372036854775807)
  | uint8 => some (0, 255)
  | uint16 => some (0, 65535)
  | uint32 => some (0, 4294967295)
  | uint | uint64 | uintptr => some (0, 18446744073709551615)
  | _ => none

def inRange (kind : BasicKind) (v : Int) : Bool :=
  match kind.intRange? with
  | some (low, high) => decide (low ≤ v) && decide (v ≤ high)
  | none => true

/-- Of two untyped kinds the one of their combination: float over rune over int. -/
def rank : BasicKind -> Nat
  | untypedInt => 1
  | untypedRune => 2
  | untypedFloat => 3
  | _ => 0

def combine (a b : BasicKind) : BasicKind :=
  if a.rank ≥ b.rank then a else b

end BasicKind

namespace Constant

def charOfInt (v : Int) : Char :=
  if 0 ≤ v && v.toNat.isValidChar then Char.ofNat v.toNat else Char.ofNat 0xfffd

def toIntKind (x : Constant) (kind : BasicKind) : Except ConstantError Constant :=
  match x.toInt? with
  | none => .error (.notConvertible x kind)
  | some v => if kind.inRange v then .ok (int v) else .error (.outOfRange v kind)

def toFloatKind (x : Constant) (kind : BasicKind) : Except ConstantError Constant :=
  match x.toFloat? with
  | none => .error (.notConvertible x kind)
  | some v => .ok (float v)

def toStringKind (x : Constant) (kind : BasicKind) : Except ConstantError Constant :=
  match x with
  | string _ => .ok x
  | int v => .ok (string (String.singleton (charOfInt v)))
  | x => .error (.notConvertible x kind)

def toBoolKind (x : Constant) (kind : BasicKind) : Except ConstantError Constant :=
  match x with
  | bool _ => .ok x
  | x => .error (.notConvertible x kind)

def convert (x : Constant) (kind : BasicKind) : Except ConstantError Constant :=
  if kind.isInteger then x.toIntKind kind
  else if kind.isFloat then x.toFloatKind kind
  else if kind.isString then x.toStringKind kind
  else if kind.isBool then x.toBoolKind kind
  else .error (.notConvertible x kind)

end Constant
end GoAtlas
