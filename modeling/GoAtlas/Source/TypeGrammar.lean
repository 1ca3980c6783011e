import GoAtlas.Source.Grammar
import GoAtlas.Text.Blank
import GoAtlas.Text.Split

/-!
# Grammar of types

Readers of types. Where a name may be a parameter or a type, and where brackets may hold a
length or type arguments, the longer reading is tried first.
-/

namespace GoAtlas
namespace Source
namespace Grammar

open Parse

def isTypeWord (w : String) : Bool :=
  w == "struct" || w == "interface" || w == "map" || w == "chan" || w == "func"

/-! # Parameters -/

/-- One item between the commas of a parameter list, before names are told from types. -/
inductive Entry where
  | typed (name : Extent) (type : TypeExpr)
  | bare (type : TypeExpr)
  | variadic (name : Option Extent) (type : TypeExpr)

def asTypes (names : List Extent) : List Param :=
  names.map fun x => .plain [] (.name x)

/-- Plain names wait for a type that follows; without one they were types themselves. -/
def sortEntries : List Extent -> List Entry -> List Param
  | waiting, [] => asTypes waiting
  | waiting, .bare (.name x) :: rest => sortEntries (waiting ++ [x]) rest
  | waiting, .typed name type :: rest => .plain (waiting ++ [name]) type :: sortEntries [] rest
  | waiting, .bare type :: rest => asTypes waiting ++ .plain [] type :: sortEntries [] rest
  | waiting, .variadic name type :: rest =>
      asTypes waiting ++ .variadic name type :: sortEntries [] rest

def variadicEntry (g : Grammar) : Parse Entry := do
  if ← follows false "..." then return .variadic none (← g.type false)
  else
    let name ← ident
    symbol "..."
    return .variadic (some name) (← g.type false)

def typedEntry (g : Grammar) : Parse Entry := do
  let name ← ident
  if isTypeWord name.text then fail
  else return .typed name (← g.type false)

def bareEntry (g : Grammar) : Parse Entry := do
  return .bare (← g.type false)

def entry (g : Grammar) : Parse Entry :=
  either (variadicEntry g) (either (typedEntry g) (bareEntry g))

def parameters (g : Grammar) : Parse (List Param) := do
  symbol "("
  return sortEntries [] (← commaListTo ")" (entry g))

def startsType : Parse Bool := do
  if (← word) != "" then return true
  else
    match ← ahead 2 with
    | '<' :: '-' :: _ => return true
    | c :: _ => return c == '*' || c == '[' || c == '~'
    | [] => return false

def results (g : Grammar) (ending : Bool) : Parse (List Param) := do
  let found ← onward ending do
    if ← sees "(" then return some (← parameters g)
    else if ← startsType then return some [.plain [] (← g.bareType ending)]
    else return none
  return found.getD []

/-! # Named types -/

def followsDot (ending : Bool) : Parse Bool := do
  let found ← onward ending do
    if (← sees ".") && !(← sees "..") then
      move 1
      return some ()
    else return none
  return found.isSome

def union (g : Grammar) (ending : Bool) : Parse (List TypeExpr) := do
  let first ← g.type ending
  let more ← many do
    if ← follows ending "|" then return some (← g.type ending) else return none
  return first :: more

def typeArguments (g : Grammar) : Parse (List TypeExpr) := do
  symbol "["
  let first ← union g false
  let more ← many do
    if ← follows false "]" then return none
    else
      symbol ","
      if ← follows false "]" then return none else return some (← union g false)
  return (first :: more).flatten

def typeName (ending : Bool) : Parse TypeExpr := do
  let a ← here
  let x ← ident
  if ← followsDot ending then
    let name ← ident
    noteQualifier x
    return .qualified (← since a) x name
  else return .name x

def namedType (g : Grammar) (ending : Bool) : Parse TypeExpr := do
  let a ← here
  let base ← typeName ending
  let arguments ← onward ending do
    if ← sees "[" then attempt (typeArguments g) else return none
  match arguments with
  | some arguments => return .generic (← since a) base arguments
  | none => return base

/-! # Structs and interfaces -/

def optionalTag : Parse (Option Extent) :=
  onward true do
    match ← char? with
    | some c => if c == '"' || c == '`' then return some (← stringLiteral) else return none
    | none => return none

def namedField (g : Grammar) : Parse FieldDecl := do
  let a ← here
  let names ← commaList true ident
  if ← atTerminator then fail
  let type ← g.type true
  let tag ← optionalTag
  return .named (← since a) names type tag

def embeddedField (g : Grammar) : Parse FieldDecl := do
  let a ← here
  let star ← take "*"
  let type ← namedType g true
  let tag ← optionalTag
  return .embedded (← since a) star type tag

def seesField : Parse Bool := do
  let before ← get
  skipAll
  let _ ← take "*"
  skipAll
  let w ← word
  set before
  return w != "" && !isTypeWord w

/-- `T[A]` at the end of a line embeds a generic type if the next line can be a field: it is
not taken for a field `T` whose array type goes on there. -/
def genericField (g : Grammar) : Parse FieldDecl := do
  let field ← embeddedField g
  skip true
  match field, ← char? with
  | .embedded _ false (.generic _ _ _) _, some '\n' =>
      if ← seesField then return field else fail
  | _, _ => fail

def fieldDecl (g : Grammar) : Parse FieldDecl :=
  either (genericField g) (either (namedField g) (embeddedField g))

def structType (g : Grammar) (a : Cursor) : Parse TypeExpr := do
  symbol "\x7b"
  let fields ← separated "\x7d" (fieldDecl g)
  return .struct (← since a) fields

def methodElem (g : Grammar) : Parse InterfaceElem := do
  let a ← here
  let name ← ident
  skip true
  if isTypeWord name.text || !(← sees "(") then fail
  let params ← parameters g
  let results ← results g true
  return .method (← since a) name params results

def unionElem (g : Grammar) : Parse InterfaceElem := do
  return .union (← union g true)

def interfaceType (g : Grammar) (a : Cursor) : Parse TypeExpr := do
  symbol "\x7b"
  let elems ← separated "\x7d" (either (methodElem g) (unionElem g))
  return .interface (← since a) elems

/-! # Channels

An arrow between two channel words belongs to the second: `chan<- chan T` is a channel of
`<-chan T`. The direction of a channel is nevertheless read off the text of its type. -/

def stripChan : List Char -> List Char
  | 'c' :: 'h' :: 'a' :: 'n' :: rest => stripChan rest
  | cs => cs

def directionOf (text : String) : Direction :=
  let cs := Text.trimStart text.toList
  let arrow := ['<', '-']
  if arrow.isPrefixOf cs then .recv
  else if arrow.isPrefixOf (Text.trimStart (stripChan cs)) then .send
  else .both

def chanOf (x : Extent) (elem : TypeExpr) : TypeExpr :=
  .chan x (directionOf x.text) elem

/-- What follows a channel word: its element and whether an arrow of its own came before. -/
def chanTail (g : Grammar) (ending : Bool) : Nat -> Parse (TypeExpr × Bool)
  | 0 => fail
  | fuel + 1 => do
      let arrow ← here
      if ← take "<-" then
        let b ← here
        if (← word) == "chan" then
          move 4
          let (elem, ownArrow) ← chanTail g ending fuel
          if ownArrow then return (chanOf (← since b) elem, true)
          else return (chanOf (← since arrow) elem, false)
        else return (← g.type ending, true)
      else return (← g.type ending, false)

def chanType (g : Grammar) (ending : Bool) (a : Cursor) : Parse TypeExpr := do
  let (elem, _) ← chanTail g ending ((← get).rest.length + 1)
  return chanOf (← since a) elem

def recvChanType (g : Grammar) (ending : Bool) (a : Cursor) : Parse TypeExpr := do
  keyword "chan"
  let elem ← g.type ending
  return chanOf (← since a) elem

/-! # All types -/

def mapType (g : Grammar) (ending : Bool) (a : Cursor) : Parse TypeExpr := do
  symbol "["
  let key ← g.type false
  symbol "]"
  let value ← g.type ending
  return .map (← since a) key value

def funcType (g : Grammar) (ending : Bool) (a : Cursor) : Parse TypeExpr := do
  let params ← parameters g
  let results ← results g ending
  return .func (← since a) params results

def bracketType (g : Grammar) (ending : Bool) (a : Cursor) : Parse TypeExpr := do
  if ← follows false "]" then
    let elem ← g.type ending
    return .slice (← since a) elem
  else
    let len ← g.expr Mode.inner
    symbol "]"
    let elem ← g.type ending
    return .array (← since a) len elem

def readBareType (g : Grammar) (ending : Bool) : Parse TypeExpr := do
  let a ← here
  if ← take "*" then
    let elem ← g.type ending
    return .pointer (← since a) elem
  else if ← take "[" then bracketType g ending a
  else if ← take "~" then
    let inner ← g.type ending
    return .negated (← since a) inner
  else if ← take "<-" then recvChanType g ending a
  else
    match ← word with
    | "struct" => do move 6; structType g a
    | "interface" => do move 9; interfaceType g a
    | "map" => do move 3; mapType g ending a
    | "chan" => do move 4; chanType g ending a
    | "func" => do move 4; funcType g ending a
    | _ => namedType g ending

def readType (g : Grammar) (ending : Bool) : Parse TypeExpr := do
  let a ← here
  if ← take "(" then
    let inner ← g.type false
    symbol ")"
    return .paren (← since a) inner
  else g.bareType ending

/-! # Type parameters -/

def typeParameter (g : Grammar) : Parse (List String) := do
  let names ← commaList false ident
  let _ ← union g false
  return names.map (·.text)

def typeParameters (g : Grammar) : Parse (List String) := do
  symbol "["
  let first ← typeParameter g
  let more ← many do
    if ← follows false "]" then return none
    else
      symbol ","
      if ← follows false "]" then return none else return some (← typeParameter g)
  return (first :: more).flatten

end Grammar
end Source
end GoAtlas
