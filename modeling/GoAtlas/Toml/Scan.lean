import GoAtlas.Text.Split

/-!
# Scanning configuration text

Small readers over the rest of a text. A reader that fails gives nothing.
-/

namespace GoAtlas
namespace Toml

abbrev Scan := StateT (List Char) Option

namespace Scan

def peek : Scan (Option Char) := do
  return (← get).head?

def next : Scan Char := do
  match ← get with
  | c :: rest =>
      set rest
      return c
  | [] => failure

def expect (s : String) : Scan Unit := do
  let rest ← get
  if s.toList.isPrefixOf rest then set (rest.drop s.length) else failure

def accept (s : String) : Scan Bool := do
  let rest ← get
  if s.toList.isPrefixOf rest then
    set (rest.drop s.length)
    return true
  else return false

def takeWhile (p : Char -> Bool) : Scan (List Char) := do
  let rest ← get
  set (rest.dropWhile p)
  return rest.takeWhile p

def attempt {α : Type} (r : Scan α) : Scan (Option α) := fun rest =>
  match r rest with
  | some (a, rest) => some (some a, rest)
  | none => some (none, rest)

def loopWithin {σ : Type} (step : σ -> Scan (σ × Bool)) : Nat -> σ -> Scan σ
  | 0, _ => failure
  | times + 1, s => do
      let (s, more) ← step s
      if more then loopWithin step times s else return s

def loop {σ : Type} (step : σ -> Scan (σ × Bool)) (s : σ) : Scan σ := do
  loopWithin step ((← get).length + 1) s

/-! # Space and comments -/

def isSpace (c : Char) : Bool :=
  c == ' ' || c == '\t'

def space : Scan Unit := do
  let _ ← takeWhile isSpace

def isInLine (c : Char) : Bool :=
  c == '\t' || (0x20 ≤ c.toNat && c.toNat != 0x7f)

def newline : Scan Bool := do
  if ← accept "\n" then return true else accept "\r\n"

def comment : Scan Unit := do
  if ← accept "#" then
    let _ ← takeWhile isInLine

def gap : Scan Unit :=
  loop (fun _ => do
    space
    comment
    return ((), ← newline)) ()

end Scan
end Toml
end GoAtlas
