import GoAtlas.Toml.Scalar

/-!
# Reading configuration files

Lines with a key and its value, headers, and comments.
-/

namespace GoAtlas
namespace Toml

open Scan

/-! # Keys -/

def isBareKeyChar (c : Char) : Bool :=
  c.isAlphanum || c == '_' || c == '-'

def simpleKey : Scan String := do
  match ← peek with
  | some '"' | some '\'' => shortString
  | _ =>
      match ← takeWhile isBareKeyChar with
      | [] => failure
      | cs => return String.ofList cs

def depthLimit : Nat := 80

def dottedKey : Scan (List String × String) := do
  let keys ← loop (fun keys => do
    space
    let key ← simpleKey
    space
    return (key :: keys, ← accept ".")) ([] : List String)
  match keys with
  | key :: path => if keys.length < depthLimit then return (path.reverse, key) else failure
  | [] => failure

/-! # Values -/

def arrayStep (value : Scan Toml) (items : List Toml) : Scan (List Toml × Bool) := do
  gap
  if ← accept "]" then return (items, false)
  let item ← value
  gap
  if ← accept "," then return (item :: items, true)
  expect "]"
  return (item :: items, false)

def arrayItems (value : Scan Toml) : Scan (List Toml) := do
  return (← loop (arrayStep value) []).reverse

def addPair (value : Scan Toml) (entries : Entries) : Scan Entries := do
  let (path, key) ← dottedKey
  expect "="
  space
  let v ← value
  space
  match addDotted path key v .inline entries with
  | some entries => return entries
  | none => failure

/-- The pairs of a table in braces, on one line and without a comma after the last. -/
def inlineEntries (value : Scan Toml) : Scan Entries := do
  space
  if ← accept "\x7d" then return []
  let entries ← loop (fun entries => do
    let entries ← addPair value entries
    return (entries, ← accept ",")) ([] : Entries)
  expect "\x7d"
  return entries

def plainValue : Scan Toml := do
  match ← peek with
  | some '"' | some '\'' => return string (← anyString)
  | _ => scalar

def valueWithin : Nat -> Scan Toml
  | 0 => plainValue
  | depth + 1 => do
      if ← accept "[" then return array (← arrayItems (valueWithin depth))
      else if ← accept "\x7b" then return table .inline (← inlineEntries (valueWithin depth))
      else plainValue

def value : Scan Toml := valueWithin (depthLimit - 1)

/-! # Documents -/

/-- What was read, and the header that later keys belong to. -/
structure Draft where
  root : Entries
  header : List String

def endOfLine : Scan Bool := do
  space
  comment
  if ← newline then return true
  else if (← get).isEmpty then return false
  else failure

def headerLine (d : Draft) : Scan Draft := do
  if ← accept "[[" then
    let (path, key) ← dottedKey
    expect "]]"
    match openItem path key d.root with
    | some root => return ⟨root, path ++ [key]⟩
    | none => failure
  else
    expect "["
    let (path, key) ← dottedKey
    expect "]"
    match openTable path key d.root with
    | some root => return ⟨root, path ++ [key]⟩
    | none => failure

def keyLine (d : Draft) : Scan Draft := do
  let (path, key) ← dottedKey
  expect "="
  space
  let v ← value
  match atHeader d.header (addDotted path key v) d.root with
  | some root => return { d with root := root }
  | none => failure

def line (d : Draft) : Scan Draft := do
  space
  match ← peek with
  | none | some '#' | some '\n' | some '\r' => return d
  | some '[' => headerLine d
  | some _ => keyLine d

def document : Scan Entries := do
  let _ ← accept "\ufeff"
  let d ← loop (fun d => do
    let d ← line d
    return (d, ← endOfLine)) (⟨[], []⟩ : Draft)
  return d.root

def read? (text : String) : Option Entries :=
  (document.run text.toList).map (·.1)

end Toml
end GoAtlas
