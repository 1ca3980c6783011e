/-!
# Basic kinds

The predeclared kinds of Go, the kinds of untyped constants, and `invalid` for whatever could
not be resolved.
-/

namespace GoAtlas

inductive BasicKind where
  | invalid
  | bool
  | int
  | int8
  | int16
  | int32
  | int64
  | uint
  | uint8
  | uint16
  | uint32
  | uint64
  | uintptr
  | float32
  | float64
  | complex64
  | complex128
  | string
  | unsafePointer
  | untypedBool
  | untypedInt
  | untypedRune
  | untypedFloat
  | untypedString
  | untypedNil
  deriving Repr, DecidableEq

namespace BasicKind

def text : BasicKind -> String
  | invalid => "invalid type"
  | bool => "bool"
  | int => "int"
  | int8 => "int8"
  | int16 => "int16"
  | int32 => "int32"
  | int64 => "int64"
  | uint => "uint"
  | uint8 => "uint8"
  | uint16 => "uint16"
  | uint32 => "uint32"
  | uint64 => "uint64"
  | uintptr => "uintptr"
  | float32 => "float32"
  | float64 => "float64"
  | complex64 => "complex64"
  | complex128 => "complex128"
  | string => "string"
  | unsafePointer => "unsafe.Pointer"
  | untypedBool => "untyped bool"
  | untypedInt => "untyped int"
  | untypedRune => "untyped rune"
  | untypedFloat => "untyped float"
  | untypedString => "untyped string"
  | untypedNil => "untyped nil"

def tag : BasicKind -> String
  | invalid => "invalid"
  | unsafePointer => "unsafe_pointer"
  | untypedBool => "untyped_bool"
  | untypedInt => "untyped_int"
  | untypedRune => "untyped_rune"
  | untypedFloat => "untyped_float"
  | untypedString => "untyped_string"
  | untypedNil => "untyped_nil"
  | kind => kind.text

def all : List BasicKind :=
  [invalid, bool, int, int8, int16, int32, int64, uint, uint8, uint16, uint32, uint64, uintptr,
    float32, float64, complex64, complex128, string, unsafePointer, untypedBool, untypedInt,
    untypedRune, untypedFloat, untypedString, untypedNil]

def ofTag? (tag : String) : Option BasicKind :=
  all.find? fun kind => kind.tag == tag

/-- The predeclared basic type of a name. `byte` and `rune` are other names of `uint8` and
`int32`. -/
def ofIdent? : String -> Option BasicKind
  | "bool" => some bool
  | "int" => some int
  | "int8" => some int8
  | "int16" => some int16
  | "int32" | "rune" => some int32
  | "int64" => some int64
  | "uint" => some uint
  | "uint8" | "byte" => some uint8
  | "uint16" => some uint16
  | "uint32" => some uint32
  | "uint64" => some uint64
  | "uintptr" => some uintptr
  | "float32" => some float32
  | "float64" => some float64
  | "complex64" => some complex64
  | "complex128" => some complex128
  | "string" => some string
  | _ => none

def isUntyped : BasicKind -> Bool
  | untypedBool | untypedInt | untypedRune | untypedFloat | untypedString | untypedNil => true
  | _ => false

def isInteger : BasicKind -> Bool
  | int | int8 | int16 | int32 | int64 | uint | uint8 | uint16 | uint32 | uint64 | uintptr
  | untypedInt | untypedRune => true
  | _ => false

def isFloat : BasicKind -> Bool
  | float32 | float64 | untypedFloat => true
  | _ => false

def isString : BasicKind -> Bool
  | string | untypedString => true
  | _ => false

def isBool : BasicKind -> Bool
  | bool | untypedBool => true
  | _ => false

end BasicKind
end GoAtlas
