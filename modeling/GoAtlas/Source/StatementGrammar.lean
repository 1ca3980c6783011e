import GoAtlas.Source.DeclGrammar

/-!
# Grammar of statements

Statements are read to see that they are well formed and which qualifiers they use.
-/

namespace GoAtlas
namespace Source
namespace Grammar

open Parse

/-! # Simple statements -/

def assignMarks : List String :=
  ["<<=", ">>=", "&^=", "+=", "-=", "*=", "/=", "%=", "&=", "|=", "^="]

def followsAssign (ending : Bool) : Parse Bool := do
  let found ← onward ending do
    if (← sees "=") && !(← sees "==") then
      move 1
      return some ()
    else return none
  return found.isSome

def followsAny (ending : Bool) : List String -> Parse Bool
  | [] => return false
  | s :: rest => do
      if ← follows ending s then return true else followsAny ending rest

def Mode.right (m : Mode) : Mode := { m with statement := false }

/-- Reads a simple statement; the answer says whether it is a lone expression. -/
def simpleStatement (g : Grammar) (m : Mode) : Parse Bool := do
  let left ← exprList g m
  let single := left.length == 1
  if ← follows m.ending ":=" then
    let _ ← exprList g (Mode.right m)
    return false
  else if ← followsAny m.ending assignMarks then
    let _ ← exprList g (Mode.right m)
    return false
  else if ← followsAssign m.ending then
    let _ ← exprList g (Mode.right m)
    return false
  else if !single then fail
  else if ← followsAny m.ending ["++", "--"] then return false
  else if ← follows m.ending "<-" then
    let _ ← g.expr (Mode.right m)
    return false
  else return true

/-! # Blocks of statements -/

def atListEnd : Parse Bool := do
  skipAll
  if ← sees "\x7d" then return true
  else
    let w ← word
    return w == "case" || w == "default"

def statementList (statement : Parse Unit) : Parse Unit := do
  if ← atListEnd then return ()
  else
    statement
    let _ ← many do
      let more ← onward true do
        if ← sees "\x7d" then return none else return some ()
      match more with
      | none => return none
      | some _ =>
          let w ← word
          if w == "case" || w == "default" then return none
          else
            terminator
            if ← atListEnd then return none
            else
              statement
              return some ()

def readBlock (statement : Parse Unit) : Parse Unit := do
  symbol "\x7b"
  skipAll
  if ← take "\x7d" then return ()
  else
    statement
    let _ ← many do
      if ← follows true "\x7d" then return none
      else
        terminator
        if ← follows false "\x7d" then return none
        else
          statement
          return some ()

/-! # Branches and loops -/

def ifHeader (g : Grammar) : Parse Unit := do
  let single ← simpleStatement g Mode.header
  if ← follows false ";" then
    let _ ← g.expr Mode.header
  else if !single then fail

def ifStatement (g : Grammar) : Nat -> Parse Unit
  | 0 => fail
  | fuel + 1 => do
      ifHeader g
      g.block
      let next ← onward true do
        if (← word) == "else" then
          move 4
          return some ()
        else return none
      if next.isSome then
        skipAll
        if (← word) == "if" then
          move 2
          ifStatement g fuel
        else g.block

def forTail (g : Grammar) : Parse Unit := do
  if ← follows false ";" then pure ()
  else
    let _ ← g.expr Mode.header
    symbol ";"
  skipAll
  if ← sees "\x7b" then return ()
  else
    let _ ← simpleStatement g Mode.header

def rangeTail (g : Grammar) : Parse Unit := do
  keyword "range"
  let _ ← g.expr Mode.header

def rangeClause (g : Grammar) : Parse Unit := do
  let _ ← exprList g Mode.header
  if ← follows false ":=" then rangeTail g
  else if ← followsAssign false then rangeTail g
  else fail

def plainForHeader (g : Grammar) : Parse Unit := do
  let single ← simpleStatement g Mode.header
  if ← follows false ";" then forTail g
  else if !single then fail

def forHeader (g : Grammar) : Parse Unit := do
  skipAll
  if ← sees "\x7b" then return ()
  else if ← follows false ";" then forTail g
  else if (← word) == "range" then rangeTail g
  else either (rangeClause g) (plainForHeader g)

/-! # Cases -/

def cases (label : Parse Unit) (statement : Parse Unit) : Parse Unit := do
  symbol "\x7b"
  let _ ← many do
    if ← follows false "\x7d" then return none
    else
      skipAll
      match ← word with
      | "case" => do
          move 4
          label
          symbol ":"
      | "default" => do
          move 7
          symbol ":"
      | _ => fail
      statementList statement
      return some ()

def switchHeader (g : Grammar) : Parse Bool := do
  skipAll
  if ← sees "\x7b" then return false
  else
    let _ ← simpleStatement g Mode.switchHeader
    if ← follows false ";" then
      skipAll
      if !(← sees "\x7b") then
        let _ ← simpleStatement g Mode.switchHeader
    let c ← get
    return c.typeGuard == c.offset && c.offset != 0

def switchStatement (g : Grammar) (statement : Parse Unit) : Parse Unit := do
  let onTypes ← switchHeader g
  let label : Parse Unit := do
    if onTypes then
      let _ ← commaList false (g.type false)
    else
      let _ ← exprList g Mode.inner
  cases label statement

def communication (g : Grammar) : Parse Unit := do
  let left ← exprList g Mode.case
  if ← follows false ":=" then
    let _ ← g.expr Mode.inner
  else if ← followsAssign false then
    let _ ← g.expr Mode.inner
  else if left.length != 1 then fail
  else if ← follows false "<-" then
    let _ ← g.expr Mode.inner

/-! # All statements -/

def optionalLabel : Parse Unit := do
  let _ ← onward true do
    if (← word) == "" then return none else return some (← ident)

def returnStatement (g : Grammar) : Parse Unit := do
  let done ← atTerminator
  if done then return ()
  else if ← sees "\x7d" then return ()
  else
    let _ ← exprList g Mode.line

def followsColon : Parse Bool := do
  let found ← onward true do
    if (← sees ":") && !(← sees ":=") then
      move 1
      return some ()
    else return none
  return found.isSome

def labelled (statement : Parse Unit) : Parse Unit := do
  let _ ← ident
  if ← followsColon then
    if ← atListEnd then return () else statement
  else fail

def plainStatement (g : Grammar) (statement : Parse Unit) : Parse Unit :=
  either (labelled statement) do
    let _ ← simpleStatement g Mode.simple

def statement (g : Grammar) : Nat -> Parse Unit
  | 0 => fail
  | fuel + 1 => do
      skipAll
      if ← take ";" then return ()
      else if ← sees "\x7b" then g.block
      else
        match ← word with
        | "const" => do
            move 5
            let _ ← group (constSpec g)
        | "var" => do
            move 3
            let _ ← group (varSpec g)
        | "type" => do
            move 4
            let _ ← group (typeSpec g)
        | "return" => do move 6; returnStatement g
        | "go" => do
            move 2
            let _ ← g.expr Mode.line
        | "defer" => do
            move 5
            let _ ← g.expr Mode.line
        | "if" => do move 2; ifStatement g fuel
        | "for" => do move 3; forHeader g; g.block
        | "switch" => do move 6; switchStatement g (statement g fuel)
        | "select" => do move 6; cases (communication g) (statement g fuel)
        | "fallthrough" => move 11
        | "break" => do move 5; optionalLabel
        | "continue" => do move 8; optionalLabel
        | "goto" => do
            move 4
            let _ ← ident
        | _ => plainStatement g (statement g fuel)

end Grammar
end Source
end GoAtlas
