import GoAtlas.BasicKind
import GoAtlas.TypeName

/-!
# Types

The shape of a Go type. A named type is a leaf that carries only its name, so that cyclic
declarations stay finite values. `GoType.text` is the written form.
-/

namespace GoAtlas

inductive Direction where
  | both
  | send
  | recv
  deriving Repr, DecidableEq

namespace Direction

def tag : Direction -> String
  | both => "both"
  | send => "send"
  | recv => "recv"

end Direction

structure Field (τ : Type) where
  name : String
  type : τ
  tag : Option String
  embedded : Bool
  /-- Import path of the package that declares the field. -/
  package : String
  deriving BEq

/-- Parameter and result types; `variadic` says that the last parameter collects the rest of
the arguments in a slice. -/
structure Signature (τ : Type) where
  params : List τ
  results : List τ
  variadic : Bool
  deriving BEq

structure InterfaceMethod (τ : Type) where
  name : String
  signature : Signature τ
  deriving BEq

inductive GoType where
  | basic (kind : BasicKind)
  | named (name : TypeName)
  | struct (fields : List (Field GoType))
  | slice (elem : GoType)
  | array (len : Nat) (elem : GoType)
  | pointer (elem : GoType)
  | map (key value : GoType)
  | interface (methods : List (InterfaceMethod GoType)) (embedded : List GoType)
  | func (signature : Signature GoType)
  | chan (dir : Direction) (elem : GoType)

namespace Signature

def isNullary {τ : Type} (s : Signature τ) : Bool :=
  s.params.isEmpty && s.results.isEmpty

end Signature

namespace GoType

/-! # Views -/

def invalid : GoType := basic .invalid

def error : GoType := named (.builtin "error")

def errorInterface : GoType :=
  interface [⟨"Error", ⟨[], [basic .string], false⟩⟩] []

def isInvalid : GoType -> Bool
  | basic .invalid => true
  | _ => false

def name? : GoType -> Option TypeName
  | named name => some name
  | _ => none

def basic? : GoType -> Option BasicKind
  | basic kind => some kind
  | _ => none

def fields? : GoType -> Option (List (Field GoType))
  | struct fields => some fields
  | _ => none

def methods? : GoType -> Option (List (InterfaceMethod GoType))
  | interface methods _ => some methods
  | _ => none

def shape : GoType -> String
  | basic _ => "basic"
  | named _ => "named"
  | struct _ => "struct"
  | slice _ => "slice"
  | array _ _ => "array"
  | pointer _ => "pointer"
  | map _ _ => "map"
  | interface _ _ => "interface"
  | func _ => "signature"
  | chan _ _ => "chan"

/-! # Sameness

Two types are the same when their shapes agree and their names are written the same. -/

mutual

def same : GoType -> GoType -> Bool
  | basic a, basic b => a == b
  | named a, named b => a == b
  | struct a, struct b => sameFields a b
  | slice a, slice b => same a b
  | array m a, array n b => m == n && same a b
  | pointer a, pointer b => same a b
  | map k a, map l b => same k l && same a b
  | interface ms a, interface ns b => sameMethods ms ns && sameList a b
  | func ⟨ps, rs, v⟩, func ⟨qs, ss, w⟩ => sameList ps qs && sameList rs ss && v == w
  | chan d a, chan e b => d == e && same a b
  | _, _ => false
termination_by structural t => t

def sameList : List GoType -> List GoType -> Bool
  | [], [] => true
  | a :: as, b :: bs => same a b && sameList as bs
  | _, _ => false
termination_by structural ts => ts

def sameFields : List (Field GoType) -> List (Field GoType) -> Bool
  | [], [] => true
  | ⟨n, a, t, e, p⟩ :: as, ⟨m, b, u, f, q⟩ :: bs =>
      n == m && same a b && t == u && e == f && p == q && sameFields as bs
  | _, _ => false
termination_by structural fs => fs

def sameMethods : List (InterfaceMethod GoType) -> List (InterfaceMethod GoType) -> Bool
  | [], [] => true
  | ⟨n, ⟨ps, rs, v⟩⟩ :: as, ⟨m, ⟨qs, ss, w⟩⟩ :: bs =>
      n == m && sameList ps qs && sameList rs ss && v == w && sameMethods as bs
  | _, _ => false
termination_by structural ms => ms

end

instance : BEq GoType where
  beq := same

/-! # Written form -/

def resultsText : List String -> String
  | [] => ""
  | [result] => " " ++ result
  | results => " (" ++ String.intercalate ", " results ++ ")"

def tagText : Option String -> String
  | none => ""
  | some tag => " " ++ Text.quote tag

mutual

def text : GoType -> String
  | basic kind => kind.text
  | named name => name.full
  | struct fields => "struct\x7b" ++ String.intercalate "; " (fieldTexts fields) ++ "\x7d"
  | slice elem => "[]" ++ text elem
  | array len elem => "[" ++ toString len ++ "]" ++ text elem
  | pointer elem => "*" ++ text elem
  | map key value => "map[" ++ text key ++ "]" ++ text value
  | interface methods embedded =>
      "interface\x7b" ++ String.intercalate "; " (texts embedded ++ methodTexts methods) ++ "\x7d"
  | func ⟨params, results, variadic⟩ =>
      "func(" ++ String.intercalate ", " (paramTexts variadic params) ++ ")" ++
        resultsText (texts results)
  | chan .both elem => "chan " ++ text elem
  | chan .send elem => "chan<- " ++ text elem
  | chan .recv elem => "<-chan " ++ text elem

def texts : List GoType -> List String
  | [] => []
  | t :: rest => text t :: texts rest

def paramTexts (variadic : Bool) : List GoType -> List String
  | [] => []
  | [slice elem] => [if variadic then "..." ++ text elem else "[]" ++ text elem]
  | t :: rest => text t :: paramTexts variadic rest

def fieldTexts : List (Field GoType) -> List String
  | [] => []
  | ⟨name, type, tag, embedded, _⟩ :: rest =>
      ((if embedded then text type else name ++ " " ++ text type) ++ tagText tag) ::
        fieldTexts rest

def methodTexts : List (InterfaceMethod GoType) -> List String
  | [] => []
  | ⟨name, ⟨params, results, variadic⟩⟩ :: rest =>
      (name ++ "(" ++ String.intercalate ", " (paramTexts variadic params) ++ ")" ++
        resultsText (texts results)) :: methodTexts rest

end

instance : ToString GoType where
  toString := text

end GoType
end GoAtlas
