import GoAtlas.Source.Tree

/-!
# Receivers

The type a method is declared on, whether through a pointer, and the names it gives to the
type parameters.
-/

namespace GoAtlas
namespace Source

/-! # Identifiers inside types -/

mutual

def typeIdents : TypeExpr -> List String
  | .name x => [x.text]
  | .qualified _ _ name => [name.text]
  | .generic _ base arguments => typeIdents base ++ typesIdents arguments
  | .paren _ inner => typeIdents inner
  | .negated _ inner => typeIdents inner
  | .pointer _ elem => typeIdents elem
  | .slice _ elem => typeIdents elem
  | .array _ len elem => exprIdents len ++ typeIdents elem
  | .map _ key value => typeIdents key ++ typeIdents value
  | .chan _ _ elem => typeIdents elem
  | .func _ params results => paramsIdents params ++ paramsIdents results
  | .struct _ fields => fieldsIdents fields
  | .interface _ elems => elemsIdents elems

def typesIdents : List TypeExpr -> List String
  | [] => []
  | type :: rest => typeIdents type ++ typesIdents rest

def exprIdents : Expr -> List String
  | .ident x => [x.text]
  | .paren _ inner => exprIdents inner
  | .selector _ operand _ => exprIdents operand
  | .unary _ _ operand => exprIdents operand
  | .binary _ _ left right => exprIdents left ++ exprIdents right
  | .call _ function arguments => exprIdents function ++ exprsIdents arguments
  | .conversion _ type operand => typeIdents type ++ exprIdents operand
  | _ => []

def exprsIdents : List Expr -> List String
  | [] => []
  | e :: rest => exprIdents e ++ exprsIdents rest

def paramsIdents : List Param -> List String
  | [] => []
  | .plain names type :: rest => names.map (·.text) ++ typeIdents type ++ paramsIdents rest
  | .variadic name type :: rest =>
      name.toList.map (·.text) ++ typeIdents type ++ paramsIdents rest

def fieldsIdents : List FieldDecl -> List String
  | [] => []
  | .named _ _ type _ :: rest => typeIdents type ++ fieldsIdents rest
  | .embedded _ _ type _ :: rest => typeIdents type ++ fieldsIdents rest

def elemsIdents : List InterfaceElem -> List String
  | [] => []
  | .method _ _ params results :: rest =>
      paramsIdents params ++ paramsIdents results ++ elemsIdents rest
  | .union terms :: rest => typesIdents terms ++ elemsIdents rest

end

/-! # Receivers -/

structure Receiver where
  base : String
  isPointer : Bool
  tparams : List String

/-- Strips pointers, parentheses and type arguments off a receiver's type. -/
def Receiver.ofType : TypeExpr -> Receiver
  | .pointer _ elem => { ofType elem with isPointer := true }
  | .paren _ inner => ofType inner
  | .generic _ base arguments =>
      let r := ofType base
      { r with tparams := typesIdents arguments ++ r.tparams }
  | type => ⟨type.extent.text, false, []⟩

def receiverType? : List Param -> Option TypeExpr
  | [] => none
  | .plain _ type :: _ => some type
  | .variadic _ _ :: rest => receiverType? rest

end Source
end GoAtlas
