import GoAtlas.Source.Tree
import GoAtlas.Text.Identifier
import GoAtlas.Text.Utf8

/-!
# Reading positions

A cursor is a place in a file together with what has been noted on the way there. Blanks and
comments between tokens are skipped; a newline is skipped only where no declaration or
statement can end, so every reader says which of the two it wants.
-/

namespace GoAtlas
namespace Source

open Text (Glyph)

structure Cursor where
  rest : List Glyph
  offset : Nat
  line : Nat
  /-- Glyphs read so far. -/
  index : Nat
  /-- Names used as qualifiers, latest first. -/
  qualifiers : List String
  /-- Type declarations, latest first. -/
  typeSpecs : List TypeSpec
  /-- Offset after the latest `.(type)`. -/
  typeGuard : Nat

namespace Cursor

/-- The beginning of a file; a byte order mark is passed over. -/
def start (glyphs : List Glyph) : Cursor :=
  match glyphs with
  | g :: rest =>
      if g.char.toNat == 0xfeff then ⟨rest, g.size, 1, 1, [], [], 0⟩
      else ⟨glyphs, 0, 1, 0, [], [], 0⟩
  | [] => ⟨[], 0, 1, 0, [], [], 0⟩

def advance (c : Cursor) : Nat -> Cursor
  | 0 => c
  | n + 1 =>
      match c.rest with
      | [] => c
      | g :: rest =>
          advance
            { c with
              rest := rest
              offset := c.offset + g.size
              line := if g.char == '\n' then c.line + 1 else c.line
              index := c.index + 1 }
            n

def extentTo (a b : Cursor) : Extent :=
  ⟨a.offset, b.offset, a.line, (Text.textOf? (a.rest.take (b.index - a.index))).getD ""⟩

def char? (c : Cursor) : Option Char :=
  c.rest.head?.map (·.char)

end Cursor

/-! # Blanks and comments -/

def isSpace (c : Char) : Bool :=
  let n := c.toNat
  n == 32 || (9 ≤ n && n ≤ 13)

/-- A zero byte stands for the end of the file inside comments and literals. -/
def isNul (c : Char) : Bool := c.toNat == 0

def blockLength? : List Glyph -> Option Nat
  | [] => none
  | [_] => none
  | a :: b :: rest =>
      if a.char == '*' && b.char == '/' then some 2
      else if isNul a.char then none
      else (blockLength? (b :: rest)).map (· + 1)

def commentLength : List Glyph -> Nat
  | a :: b :: rest =>
      if a.char == '/' && b.char == '/' then
        2 + (rest.takeWhile fun g => g.char != '\n' && !isNul g.char).length
      else if a.char == '/' && b.char == '*' then
        match blockLength? rest with
        | some n => n + 2
        | none => 0
      else 0
  | _ => 0

/-- Number of glyphs to pass over. `inner` counts those left of a comment. -/
def triviaLength (newlines : Bool) : Nat -> List Glyph -> Nat
  | _, [] => 0
  | inner + 1, _ :: rest => triviaLength newlines inner rest + 1
  | 0, g :: rest =>
      if isSpace g.char && (newlines || g.char != '\n') then triviaLength newlines 0 rest + 1
      else
        match commentLength (g :: rest) with
        | 0 => 0
        | n + 1 => triviaLength newlines n rest + 1

/-! # Readers -/

/-- A reader moves the cursor or fails at a byte offset. -/
abbrev Parse := StateT Cursor (Except Nat)

namespace Parse

def fail {α : Type} : Parse α := fun c => .error c.offset

def either {α : Type} (p q : Parse α) : Parse α := fun c =>
  match p c with
  | .ok r => .ok r
  | .error e =>
      match q c with
      | .ok r => .ok r
      | .error f => .error (max e f)

def attempt {α : Type} (p : Parse α) : Parse (Option α) := fun c =>
  match p c with
  | .ok (a, c) => .ok (some a, c)
  | .error _ => .ok (none, c)

/-- Passes over blanks and comments, newlines included unless they can end something here. -/
def skip (ending : Bool) : Parse Unit :=
  modify fun c => c.advance (triviaLength (!ending) 0 c.rest)

def skipAll : Parse Unit := skip false

def here : Parse Cursor := do
  skipAll
  get

def since (a : Cursor) : Parse Extent := do
  return a.extentTo (← get)

def char? : Parse (Option Char) := do
  return (← get).char?

def ahead (n : Nat) : Parse (List Char) := do
  return ((← get).rest.take n).map (·.char)

def sees (s : String) : Parse Bool := do
  return (← ahead s.length) == s.toList

def move (n : Nat) : Parse Unit :=
  modify fun c => c.advance n

def take (s : String) : Parse Bool := do
  if ← sees s then
    move s.length
    return true
  else return false

/-- Takes the given characters if they come next after blanks; otherwise the cursor stays. -/
def follows (ending : Bool) (s : String) : Parse Bool := do
  let before ← get
  skip ending
  if ← take s then return true
  else
    set before
    return false

/-- Runs a reader after blanks; if it finds nothing the cursor stays. -/
def onward {α : Type} (ending : Bool) (p : Parse (Option α)) : Parse (Option α) := do
  let before ← get
  skip ending
  match ← p with
  | some a => return some a
  | none =>
      set before
      return none

def symbol (s : String) : Parse Unit := do
  skipAll
  if ← take s then return () else fail

def wordLength (gs : List Glyph) : Nat :=
  match gs with
  | g :: rest =>
      if g.valid && Text.isIdentifierStart g.char then
        1 + (rest.takeWhile fun g => g.valid && Text.isIdentifierContinue g.char).length
      else 0
  | [] => 0

def word : Parse String := do
  let c ← get
  return String.ofList ((c.rest.take (wordLength c.rest)).map (·.char))

def ident : Parse Extent := do
  let a ← here
  let n := wordLength a.rest
  if n == 0 then fail
  else
    move n
    since a

def keyword (s : String) : Parse Unit := do
  let x ← ident
  if x.text == s then return () else fail

def terminator : Parse Unit := do
  skip true
  match ← char? with
  | none => return ()
  | some c => if c == '\n' || c == ';' || isNul c then move 1 else fail

def atTerminator : Parse Bool := do
  skip true
  match ← char? with
  | none => return true
  | some c => return c == '\n' || c == ';' || isNul c

def noteQualifier (x : Extent) : Parse Unit :=
  modify fun c => { c with qualifiers := x.text :: c.qualifiers }

/-! # Lists

The counts bound the number of items by the glyphs left. -/

def manyWithin {α : Type} (step : Parse (Option α)) : Nat -> Parse (List α)
  | 0 => return []
  | fuel + 1 => do
      match ← step with
      | none => return []
      | some a =>
          let more ← manyWithin step fuel
          return a :: more

def many {α : Type} (step : Parse (Option α)) : Parse (List α) := do
  manyWithin step ((← get).rest.length + 1)

/-- Items between a bracket already read and its closing one, with a terminator between two
items and perhaps after the last. -/
def separated {α : Type} (close : String) (item : Parse α) : Parse (List α) := do
  if ← follows false close then return []
  else
    let first ← item
    let more ← many do
      if ← follows true close then return none
      else
        terminator
        if ← follows false close then return none else return some (← item)
    return first :: more

def terminated {α : Type} (close : String) (item : Parse α) : Parse (List α) :=
  many do
    if ← follows false close then return none
    else
      let a ← item
      terminator
      return some a

/-- One or more items with commas between them; `ending` says whether a newline ends the
list. -/
def commaList {α : Type} (ending : Bool) (item : Parse α) : Parse (List α) := do
  let first ← item
  let more ← many do
    if ← follows ending "," then return some (← item) else return none
  return first :: more

/-- Items with commas between them and perhaps after the last, up to a closing bracket. The
opening bracket is read already, and a lone comma may stand for no items. -/
def commaListTo {α : Type} (close : String) (item : Parse α) : Parse (List α) := do
  if ← follows false close then return []
  else if ← follows false "," then
    symbol close
    return []
  else
    let first ← item
    let more ← many do
      if ← follows false close then return none
      else
        symbol ","
        if ← follows false close then return none else return some (← item)
    return first :: more

end Parse
end Source
end GoAtlas
