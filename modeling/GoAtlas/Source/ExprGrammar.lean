import GoAtlas.Source.TypeGrammar

/-!
# Grammar of expressions

Operands, what may follow them, and operators by precedence. A name followed by parentheses is
a call; only what cannot be an expression, or has type arguments, makes a conversion.
-/

namespace GoAtlas
namespace Source
namespace Grammar

open Parse

/-! # Literal values and arguments -/

def literalElement (g : Grammar) (value : Parse Unit) : Parse Unit := do
  skipAll
  if ← sees "\x7b" then value
  else
    let _ ← g.expr Mode.inner

def keyedElement (g : Grammar) (value : Parse Unit) : Parse Unit := do
  literalElement g value
  if ← follows false ":" then literalElement g value

/-- The braces of a composite literal; the number bounds their nesting. -/
def literalValue (g : Grammar) : Nat -> Parse Unit
  | 0 => fail
  | fuel + 1 => do
      symbol "\x7b"
      let _ ← commaListTo "\x7d" (keyedElement g (literalValue g fuel))

def compositeBody (g : Grammar) : Parse Unit := do
  literalValue g ((← get).rest.length + 1)

def argument (g : Grammar) : Parse Expr := do
  let a ← here
  let e ← g.expr Mode.inner
  if ← follows false "..." then return .other (← since a) else return e

def arguments (g : Grammar) : Parse (List Expr) := do
  symbol "("
  if ← follows false ")" then return []
  else
    let first ← argument g
    let more ← many do
      if ← follows false ")" then return none
      else
        symbol ","
        if ← follows false ")" then return none else return some (← argument g)
    return first :: more

def typeFirstArguments (g : Grammar) : Parse (List Expr) := do
  symbol "("
  if ← follows false ")" then return []
  else
    let type ← g.type false
    let more ← many do
      if ← follows false ")" then return none
      else
        symbol ","
        if ← follows false ")" then return none else return some (← g.expr Mode.inner)
    return .other type.extent :: more

def conversionOperand (g : Grammar) : Parse Expr := do
  symbol "("
  let e ← g.expr Mode.inner
  let _ ← follows false ","
  symbol ")"
  return e

/-! # Operands -/

def afterType (g : Grammar) (m : Mode) (a : Cursor) (type : TypeExpr) (composite : Bool) :
    Parse Expr := do
  skip m.ending
  if composite && (← sees "\x7b") then
    compositeBody g
    return .other (← since a)
  else if ← sees "(" then
    let operand ← conversionOperand g
    return .conversion (← since a) type operand
  else if ← sees "[" then
    let _ ← typeArguments g
    return .other (← since a)
  else fail

def countedArray (g : Grammar) (m : Mode) (a : Cursor) : Parse Expr := do
  symbol "["
  symbol "..."
  symbol "]"
  let _ ← g.type m.ending
  skip m.ending
  compositeBody g
  return .other (← since a)

def typeOperand (g : Grammar) (m : Mode) (a : Cursor) (composite : Bool) : Parse Expr := do
  let type ← g.bareType m.ending
  afterType g m a type composite

def funcOperand (g : Grammar) (m : Mode) (a : Cursor) : Parse Expr := do
  let type ← g.bareType m.ending
  skip m.ending
  if ← sees "\x7b" then
    g.block
    return .other (← since a)
  else afterType g m a type false

def parenOperand (g : Grammar) (m : Mode) (a : Cursor) : Parse Expr :=
  either
    (do
      symbol "("
      let inner ← g.expr Mode.inner
      symbol ")"
      return .paren (← since a) inner)
    (do
      let type ← g.type m.ending
      afterType g m a type false)

def builderOperand (g : Grammar) (m : Mode) (a : Cursor) : Parse Expr := do
  let x ← ident
  let call ← onward m.ending do
    if ← sees "(" then return some (← typeFirstArguments g) else return none
  match call with
  | some arguments => return .call (← since a) (.ident x) arguments
  | none => return .ident x

def wordOperand (g : Grammar) (m : Mode) (a : Cursor) : Parse Expr := do
  match ← word with
  | "" => fail
  | "func" => funcOperand g m a
  | "struct" => typeOperand g m a true
  | "map" => typeOperand g m a true
  | "interface" => typeOperand g m a false
  | "chan" => typeOperand g m a false
  | "new" => builderOperand g m a
  | "make" => builderOperand g m a
  | "nil" => return .nil (← ident)
  | "iota" => return .iota (← ident)
  | "true" => return .bool (← ident) true
  | "false" => return .bool (← ident) false
  | _ => return .ident (← ident)

def operand (g : Grammar) (m : Mode) : Parse Expr := do
  let a ← here
  match ← ahead 2 with
  | [] => fail
  | c :: more =>
      if Lexeme.isDecimal c then number
      else if c == '.' && more.all Lexeme.isDecimal && !more.isEmpty then number
      else if c == '"' || c == '`' then return .string (← stringLiteral)
      else if c == '\'' then rune
      else if c == '(' then parenOperand g m a
      else if c == '[' then either (typeOperand g m a true) (countedArray g m a)
      else wordOperand g m a

/-! # What follows an operand -/

def asTypeName? : Expr -> Option TypeExpr
  | .ident x => some (.name x)
  | .selector x (.ident package) name => some (.qualified x package name)
  | _ => none

def selectorTail (g : Grammar) (m : Mode) (a : Cursor) (e : Expr) : Parse Expr := do
  if ← follows false "(" then
    let guarded ← onward false do
      if m.guards && (← word) == "type" then
        move 4
        symbol ")"
        return some ()
      else return none
    match guarded with
    | some _ =>
        modify fun c => { c with typeGuard := c.offset }
        return .other (← since a)
    | none =>
        let _ ← g.type false
        symbol ")"
        return .other (← since a)
  else
    let field ← ident
    match e with
    | .ident x => noteQualifier x
    | _ => pure ()
    return .selector (← since a) e field

def bracketTail (g : Grammar) (a : Cursor) : Parse Expr := do
  symbol "["
  let bound : Parse Unit := do
    let _ ← g.expr Mode.inner
  if ← follows false ":" then upper bound
  else
    bound
    if ← follows false ":" then upper bound else symbol "]"
  return .other (← since a)
where
  /-- What follows the first colon. -/
  upper (bound : Parse Unit) : Parse Unit := do
    if ← follows false "]" then return ()
    else
      bound
      if ← follows false ":" then
        bound
        symbol "]"
      else symbol "]"

def genericTail (g : Grammar) (m : Mode) (a : Cursor) (base : TypeExpr) : Parse Expr := do
  let arguments ← typeArguments g
  let type : TypeExpr := .generic (← since a) base arguments
  skip m.ending
  if m.literals && (← sees "\x7b") then
    compositeBody g
    return .other (← since a)
  else
    let operand ← conversionOperand g
    return .conversion (← since a) type operand

/-- Type arguments that stand alone or before the arguments of a call. -/
def instanceTail (g : Grammar) (m : Mode) (a : Cursor) (e : Expr) : Parse Expr := do
  let _ ← typeArguments g
  let call ← onward m.ending do
    if ← sees "(" then return some (← arguments g) else return none
  match call with
  | some arguments => return .call (← since a) e arguments
  | none => return .other (← since a)

def indexTail (g : Grammar) (m : Mode) (a : Cursor) (e : Expr) : Parse Expr :=
  match asTypeName? e with
  | some base =>
      either (genericTail g m a base) (either (bracketTail g a) (instanceTail g m a e))
  | none => bracketTail g a

def tailStep (g : Grammar) (m : Mode) (a : Cursor) (e : Expr) : Parse (Option Expr) :=
  onward m.ending do
    if (← sees ".") && !(← sees "..") then
      move 1
      return some (← selectorTail g m a e)
    else if ← sees "[" then return some (← indexTail g m a e)
    else if ← sees "(" then
      let arguments ← arguments g
      return some (.call (← since a) e arguments)
    else if m.literals && (asTypeName? e).isSome && (← sees "\x7b") then
      compositeBody g
      return some (.other (← since a))
    else return none

def tails (g : Grammar) (m : Mode) (a : Cursor) : Nat -> Expr -> Parse Expr
  | 0, e => return e
  | fuel + 1, e => do
      match ← tailStep g m a e with
      | some e => tails g m a fuel e
      | none => return e

def primary (g : Grammar) (m : Mode) : Parse Expr := do
  let a ← here
  let e ← operand g m
  tails g m a ((← get).rest.length + 1) e

/-! # Operators -/

def unaryMark? : List Char -> Option String
  | '<' :: '-' :: _ => some "<-"
  | c :: _ =>
      if c == '+' || c == '-' || c == '!' || c == '^' || c == '*' || c == '&' then
        some (String.singleton c)
      else none
  | [] => none

/-- Operators bind tighter the further in they stand; the number bounds their nesting. -/
def unaryExpr (g : Grammar) (m : Mode) : Nat -> Parse Expr
  | 0 => fail
  | fuel + 1 => do
      let a ← here
      match unaryMark? (← ahead 2) with
      | none => primary g m
      | some mark =>
          let apply : Parse Expr := do
            move mark.length
            let operand ← unaryExpr g m fuel
            return .unary (← since a) (UnaryOp.ofText mark) operand
          if mark == "<-" then
            either
              (do
                let e ← typeOperand g m a false
                tails g m a ((← get).rest.length + 1) e)
              apply
          else apply

def statementMarks : List String :=
  ["<<=", ">>=", "&^=", "+=", "-=", "*=", "/=", "%=", "&=", "|=", "^=", "++", "--", "<-"]

def binaryMarks : List (String × Nat) :=
  [("&&", 2), ("||", 1), ("==", 3), ("!=", 3), ("<=", 3), (">=", 3), ("<<", 5), (">>", 5),
    ("&^", 5), ("<", 3), (">", 3), ("+", 4), ("-", 4), ("|", 4), ("^", 4), ("*", 5), ("/", 5),
    ("%", 5), ("&", 5)]

def binaryMark? (m : Mode) (cs : List Char) : Option (String × Nat) :=
  if m.statement && statementMarks.any (fun s => s.toList.isPrefixOf cs) then none
  else binaryMarks.find? fun mark => mark.1.toList.isPrefixOf cs

/-- Continues a left operand with operators that bind at least as tight as `least`. -/
def binaryTails (g : Grammar) (m : Mode) (a : Cursor) : Nat -> Nat -> Expr -> Parse Expr
  | 0, _, e => return e
  | fuel + 1, least, e => do
      let next ← onward m.ending do
        match binaryMark? m (← ahead 3) with
        | some (mark, precedence) =>
            if precedence < least then return none
            else
              move mark.length
              let b ← here
              let right ← unaryExpr g m ((← get).rest.length + 1)
              let right ← binaryTails g m b fuel (precedence + 1) right
              return some (Expr.binary (← since a) (BinaryOp.ofText mark) e right)
        | none => return none
      match next with
      | some e => binaryTails g m a fuel least e
      | none => return e

def readExpr (g : Grammar) (m : Mode) : Parse Expr := do
  let a ← here
  let bound := a.rest.length + 1
  let e ← unaryExpr g m bound
  binaryTails g m a bound 1 e

end Grammar
end Source
end GoAtlas
