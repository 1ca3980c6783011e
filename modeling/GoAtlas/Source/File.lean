import GoAtlas.Source.StatementGrammar

/-!
# Reading files

`File.read` ties the grammar together and reads a whole file, or tells the line and column at
which reading got stuck.
-/

namespace GoAtlas
namespace Source
namespace Grammar

open Parse

def next (g : Grammar) : Grammar where
  type := readType g
  bareType := readBareType g
  expr := readExpr g
  block := do
    readBlock (statement g ((← get).rest.length + 1))

def ofDepth : Nat -> Grammar
  | 0 => empty
  | depth + 1 => (ofDepth depth).next

/-! # Functions -/

def optionalBody (g : Grammar) : Parse Unit := do
  let _ ← onward true do
    if ← sees "\x7b" then
      g.block
      return some ()
    else return none

def funcDecl (g : Grammar) : Parse Decl := do
  keyword "func"
  let name ← ident
  let _ ← onward false do
    if ← sees "[" then return some (← typeParameters g) else return none
  let _ ← parameters g
  let _ ← results g true
  optionalBody g
  return .func name

def methodDecl (g : Grammar) : Parse Decl := do
  let a ← here
  keyword "func"
  let receiver ← parameters g
  let name ← ident
  let params ← parameters g
  let results ← results g true
  optionalBody g
  return .method ⟨← since a, receiver, name, params, results⟩

/-! # Files -/

def packageClause : Parse Decl := do
  let a ← here
  keyword "package"
  let name ← ident
  return .package (← since a) name

def otherStatement (g : Grammar) : Parse Decl := do
  statement g ((← get).rest.length + 1)
  return .statement

def topLevel (g : Grammar) : Parse Decl := do
  match ← word with
  | "package" => packageClause
  | "import" => do
      move 6
      return .imports (← importDecl)
  | "func" => either (funcDecl g) (either (methodDecl g) (otherStatement g))
  | "const" => do
      move 5
      return .consts (← group (constSpec g))
  | "type" => do
      move 4
      return .types (← group (typeSpec g))
  | "var" => do
      move 3
      return .vars (← group (varSpec g)).flatten
  | _ => otherStatement g

def file (g : Grammar) : Parse File := do
  let decls ← many do
    skipAll
    match ← char? with
    | none => return none
    | some _ =>
        let decl ← topLevel g
        terminator
        return some decl
  let c ← get
  return ⟨decls, c.qualifiers.reverse, c.typeSpecs.reverse⟩

end Grammar

def positionOf (offset : Nat) : Nat × Nat -> List Text.Glyph -> Nat × Nat
  | p, [] => p
  | (row, column), g :: rest =>
      if offset == 0 then (row, column)
      else
        positionOf (offset - g.size)
          (if g.char == '\n' then (row + 1, 1) else (row, column + g.size)) rest

def File.read (bytes : Text.Bytes) : Except (Nat × Nat) File :=
  let glyphs := Text.glyphs bytes
  match Grammar.file (Grammar.ofDepth (4 * glyphs.length + 8)) (Cursor.start glyphs) with
  | .ok (file, _) => .ok file
  | .error offset => .error (positionOf offset (1, 1) glyphs)

end Source
end GoAtlas
