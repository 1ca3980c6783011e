import GoAtlas.Source.Cursor

/-!
# Literals in source text

Lengths of the number, rune and string literals at the front of a text. Which form a number
has is decided by the longest one that fits.
-/

namespace GoAtlas
namespace Source
namespace Lexeme

/-! # Digits -/

def isDecimal (c : Char) : Bool := '0' ≤ c && c ≤ '9'

def isOctal (c : Char) : Bool := '0' ≤ c && c ≤ '7'

def isBinary (c : Char) : Bool := c == '0' || c == '1'

def isHex (c : Char) : Bool :=
  isDecimal c || ('a' ≤ c && c ≤ 'f') || ('A' ≤ c && c ≤ 'F')

def moreDigits (ok : Char -> Bool) : List Char -> Nat
  | [] => 0
  | '_' :: c :: rest => if ok c then 2 + moreDigits ok rest else 0
  | c :: rest => if ok c then 1 + moreDigits ok rest else 0

def digits (ok : Char -> Bool) : List Char -> Nat
  | [] => 0
  | c :: rest => if ok c then 1 + moreDigits ok rest else 0

def digitsAfter (ok : Char -> Bool) (count : Nat) (cs : List Char) : Nat :=
  match cs with
  | '_' :: rest =>
      let n := digits ok rest
      if n == 0 then 0 else count + 1 + n
  | cs =>
      let n := digits ok cs
      if n == 0 then 0 else count + n

/-! # Numbers -/

def intLength : List Char -> Nat
  | '0' :: c :: rest =>
      let based :=
        if c == 'x' || c == 'X' then digitsAfter isHex 2 rest
        else if c == 'b' || c == 'B' then digitsAfter isBinary 2 rest
        else if c == 'o' || c == 'O' then digitsAfter isOctal 2 rest
        else digitsAfter isOctal 1 (c :: rest)
      max 1 based
  | cs => digits isDecimal cs

def exponentLength (isMark : Char -> Bool) : List Char -> Nat
  | m :: rest =>
      if isMark m then
        match rest with
        | s :: after =>
            if s == '+' || s == '-' then
              let n := digits isDecimal after
              if n == 0 then 0 else 2 + n
            else
              let n := digits isDecimal rest
              if n == 0 then 0 else 1 + n
        | [] => 0
      else 0
  | [] => 0

def isDecimalMark (c : Char) : Bool := c == 'e' || c == 'E'

def isHexMark (c : Char) : Bool := c == 'p' || c == 'P'

def decimalFloatLength (cs : List Char) : Nat :=
  let whole := digits isDecimal cs
  match cs.drop whole with
  | '.' :: rest =>
      let fraction := digits isDecimal rest
      if whole == 0 && fraction == 0 then 0
      else whole + 1 + fraction + exponentLength isDecimalMark (rest.drop fraction)
  | rest =>
      let exponent := exponentLength isDecimalMark rest
      if whole == 0 || exponent == 0 then 0 else whole + exponent

def hexFloatLength : List Char -> Nat
  | '0' :: x :: cs =>
      if x == 'x' || x == 'X' then
        let whole := digitsAfter isHex 0 cs
        let mantissa :=
          match cs.drop whole with
          | '.' :: rest =>
              let fraction := digits isHex rest
              if whole == 0 && fraction == 0 then 0 else whole + 1 + fraction
          | _ => whole
        let exponent := exponentLength isHexMark (cs.drop mantissa)
        if mantissa == 0 || exponent == 0 then 0 else 2 + mantissa + exponent
      else 0
  | _ => 0

def floatLength (cs : List Char) : Nat :=
  max (decimalFloatLength cs) (hexFloatLength cs)

def imaginaryLength (cs : List Char) : Nat :=
  let lengths := [digits isDecimal cs, intLength cs, floatLength cs]
  let fitting := lengths.filter fun n => n != 0 && (cs.drop n).head? == some 'i'
  match fitting with
  | [] => 0
  | n :: more => more.foldl max n + 1

def inNumber (c : Char) : Bool :=
  c.isAlphanum || c == '_' || c == '.' || c == '+' || c == '-'

/-! # Runes and strings -/

def hexRun (n : Nat) (cs : List Char) : Bool :=
  (cs.take n).length == n && (cs.take n).all isHex

def runeEscapeLength : List Char -> Nat
  | 'x' :: rest => if hexRun 2 rest then 3 else 0
  | 'u' :: rest => if hexRun 4 rest then 5 else 0
  | 'U' :: rest => if hexRun 8 rest then 9 else 0
  | c :: rest =>
      if isOctal c then
        if (rest.take 2).length == 2 && (rest.take 2).all isOctal then 3 else 0
      else if "abfnrtv\\'\"".toList.contains c then 1
      else 0
  | [] => 0

def runeLength : List Char -> Nat
  | '\'' :: '\\' :: rest =>
      let n := runeEscapeLength rest
      if n != 0 && (rest.drop n).head? == some '\'' then n + 3 else 0
  | '\'' :: c :: '\'' :: _ => if c == '\'' || isNul c then 0 else 3
  | _ => 0

def rawTail : List Char -> Nat
  | [] => 0
  | c :: rest =>
      if c == '`' then 1
      else if isNul c then 0
      else
        match rawTail rest with
        | 0 => 0
        | n + 1 => n + 2

/-- Length of the inside of an interpreted string and its closing quote; any character may
follow a backslash, but `x`, `u` and `U` want their hexadecimal digits. -/
def quotedTail : List Char -> Nat
  | [] => 0
  | '"' :: _ => 1
  | '\n' :: _ => 0
  | '\\' :: c :: rest =>
      let whole :=
        if c == 'x' then hexRun 2 rest
        else if c == 'u' then hexRun 4 rest
        else if c == 'U' then hexRun 8 rest
        else !isNul c
      if whole then
        match quotedTail rest with
        | 0 => 0
        | n + 1 => n + 3
      else 0
  | c :: rest =>
      if isNul c then 0
      else
        match quotedTail rest with
        | 0 => 0
        | n + 1 => n + 2

def stringLength : List Char -> Nat
  | '`' :: rest =>
      match rawTail rest with
      | 0 => 0
      | n + 1 => n + 2
  | '"' :: rest =>
      match quotedTail rest with
      | 0 => 0
      | n + 1 => n + 2
  | _ => 0

end Lexeme

namespace Parse

open Lexeme

def literalOf (n : Nat) : Parse Extent := do
  let a ← get
  if n == 0 then fail
  else
    move n
    since a

def chars : Parse (List Char) := do
  return (← get).rest.map (·.char)

def stringLiteral : Parse Extent := do
  skipAll
  literalOf (stringLength (← chars))

def number : Parse Expr := do
  let cs := ((← get).rest.takeWhile fun g => inNumber g.char).map (·.char)
  let i := intLength cs
  let f := floatLength cs
  let m := imaginaryLength cs
  if m > i && m > f then return .imaginary (← literalOf m)
  else if f > i then return .float (← literalOf f)
  else return .int (← literalOf i)

def rune : Parse Expr := do
  let cs ← ahead 13
  return .rune (← literalOf (runeLength cs))

end Parse
end Source
end GoAtlas
