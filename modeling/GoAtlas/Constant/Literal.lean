import GoAtlas.Constant
import GoAtlas.Decimal.Reading

/-!
# Literals

The values of integer, float, rune and string literals.
-/

namespace GoAtlas
namespace Literal

/-! # Numbers -/

def digitValue? (radix : Nat) (c : Char) : Option Nat :=
  let n := c.toNat
  let value? :=
    if 48 ≤ n && n ≤ 57 then some (n - 48)
    else if 97 ≤ n && n ≤ 122 then some (n - 87)
    else if 65 ≤ n && n ≤ 90 then some (n - 55)
    else none
  value?.filter fun v => v < radix

def digits? (radix : Nat) : List Char -> Option Nat
  | [] => none
  | cs =>
      cs.foldl (fun total c =>
        total.bind fun n => (digitValue? radix c).map fun v => n * radix + v) (some 0)

def signedDigits? (radix : Nat) (cs : List Char) : Option Int :=
  let (negative, body) := Decimal.splitSign cs
  (digits? radix body).bind fun n =>
    let v : Int := if negative then -(n : Int) else n
    if Constant.fits v then some v else none

def radixOf : List Char -> Nat × List Char
  | '0' :: 'x' :: rest => (16, rest)
  | '0' :: 'o' :: rest => (8, rest)
  | '0' :: 'b' :: rest => (2, rest)
  | '0' :: c :: rest => (8, c :: rest)
  | cs => (10, cs)

def withoutUnderscores (text : String) : List Char :=
  text.toList.filter (· != '_')

/-- Decimal, `0x`, `0o`, `0b` and leading-zero octal, with `_` between digits. -/
def int? (text : String) : Option Int :=
  let (radix, digits) := radixOf ((withoutUnderscores text).map Char.toLower)
  signedDigits? radix digits

def float? (text : String) : Option Float :=
  Decimal.read? (String.ofList (withoutUnderscores text))

/-! # Escapes -/

def hexChar? (digits : List Char) : Option Char :=
  (digits? 16 digits).bind fun n =>
    if n.isValidChar then some (Char.ofNat n) else none

def simpleEscape? (quote : Char) : Char -> Option Char
  | 'a' => some (Char.ofNat 7)
  | 'b' => some (Char.ofNat 8)
  | 'f' => some (Char.ofNat 12)
  | 'n' => some '\n'
  | 'r' => some '\r'
  | 't' => some '\t'
  | 'v' => some (Char.ofNat 11)
  | '\\' => some '\\'
  | c => if c == quote then some c else none

/-- The text between the quotes with its escapes decoded; none for an escape that is
unknown, cut short or names no character. -/
def unescape? (quote : Char) : List Char -> Option (List Char)
  | [] => some []
  | '\\' :: 'x' :: a :: b :: rest => do
      let c ← hexChar? [a, b]
      let more ← unescape? quote rest
      return c :: more
  | '\\' :: 'u' :: a :: b :: c :: d :: rest => do
      let c ← hexChar? [a, b, c, d]
      let more ← unescape? quote rest
      return c :: more
  | '\\' :: 'U' :: a :: b :: c :: d :: e :: f :: g :: h :: rest => do
      let c ← hexChar? [a, b, c, d, e, f, g, h]
      let more ← unescape? quote rest
      return c :: more
  | '\\' :: c :: rest =>
      match simpleEscape? quote c with
      | some c => (unescape? quote rest).map (c :: ·)
      | none =>
          match digitValue? 8 c, rest with
          | some i, d :: e :: rest => do
              let j ← digitValue? 8 d
              let k ← digitValue? 8 e
              let more ← unescape? quote rest
              return Char.ofNat (i * 64 + j * 8 + k) :: more
          | _, _ => none
  | ['\\'] => none
  | c :: rest => (unescape? quote rest).map (c :: ·)

def between? (quote : Char) : List Char -> Option (List Char)
  | [] => none
  | c :: rest =>
      if c == quote && rest.getLast? == some quote then some rest.dropLast else none

/-! # Runes and strings -/

def rune? (text : String) : Option Int := do
  let inner ← between? '\'' text.toList
  match ← unescape? '\'' inner with
  | [c] => some c.toNat
  | _ => none

/-- The value of a raw or an interpreted string literal. A raw one loses its carriage
returns. -/
def string? (text : String) : Option String :=
  match between? '`' text.toList with
  | some raw => some (String.ofList (raw.filter (· != '\r')))
  | none => do
      let inner ← between? '"' text.toList
      let decoded ← unescape? '"' inner
      return String.ofList decoded

end Literal
end GoAtlas
