import GoAtlas.Decimal.Reading
import GoAtlas.Toml
import GoAtlas.Toml.Scan

/-!
# Scalars of configuration files

Strings in their four forms, and the words that stand for truth values, numbers, dates and
times.
-/

namespace GoAtlas
namespace Toml

open Scan

/-! # Strings -/

def hexValue? (c : Char) : Option Nat :=
  if '0' ≤ c && c ≤ '9' then some (c.toNat - '0'.toNat)
  else if 'a' ≤ c && c ≤ 'f' then some (c.toNat - 'a'.toNat + 10)
  else if 'A' ≤ c && c ≤ 'F' then some (c.toNat - 'A'.toNat + 10)
  else none

def codePoint (digits : Nat) : Scan Char := do
  let cs := (← get).take digits
  match cs.mapM hexValue? with
  | none => failure
  | some values =>
      let n := values.foldl (fun n v => n * 16 + v) 0
      if values.length == digits && n.isValidChar then
        set ((← get).drop digits)
        return Char.ofNat n
      else failure

def escape : Scan Char := do
  match ← next with
  | 'b' => return '\x08'
  | 't' => return '\t'
  | 'n' => return '\n'
  | 'f' => return '\x0c'
  | 'r' => return '\r'
  | '"' => return '"'
  | '\\' => return '\\'
  | 'u' => codePoint 4
  | 'U' => codePoint 8
  | _ => failure

/-- A string in double quotes after the first one; `cs` is what was read, reversed. -/
def basicStep (cs : List Char) : Scan (List Char × Bool) := do
  let c ← next
  if c == '"' then return (cs, false)
  else if c == '\\' then return ((← escape) :: cs, true)
  else if isInLine c then return (c :: cs, true)
  else failure

def literalStep (cs : List Char) : Scan (List Char × Bool) := do
  let c ← next
  if c == '\'' then return (cs, false)
  else if isInLine c then return (c :: cs, true)
  else failure

/-- Quotes inside or at the end of a string of many lines: three end it, and up to two before
them belong to it. -/
def quotesStep (q : Char) (cs : List Char) : Scan (List Char × Bool) := do
  let quotes ← takeWhile (· == q)
  let count := quotes.length
  if count < 3 then return (quotes ++ cs, true)
  else if count ≤ 5 then return (List.replicate (count - 3) q ++ cs, false)
  else failure

def continued : Scan Bool := do
  let found ← attempt do
    space
    if ← newline then
      loop (fun _ => do
        space
        return ((), ← newline)) ()
    else failure
  return found.isSome

def longBasicStep (cs : List Char) : Scan (List Char × Bool) := do
  if ← newline then return ('\n' :: cs, true)
  match ← peek with
  | some '"' => quotesStep '"' cs
  | _ =>
      let c ← next
      if c == '\\' then
        if ← continued then return (cs, true) else return ((← escape) :: cs, true)
      else if isInLine c then return (c :: cs, true)
      else failure

def longLiteralStep (cs : List Char) : Scan (List Char × Bool) := do
  if ← newline then return ('\n' :: cs, true)
  match ← peek with
  | some '\'' => quotesStep '\'' cs
  | _ =>
      let c ← next
      if isInLine c then return (c :: cs, true) else failure

def characters (step : List Char -> Scan (List Char × Bool)) : Scan String := do
  return String.ofList (← loop step []).reverse

def shortString : Scan String := do
  if ← accept "\"" then characters basicStep
  else
    expect "'"
    characters literalStep

def anyString : Scan String := do
  if ← accept "\"\"\"" then
    let _ ← newline
    characters longBasicStep
  else if ← accept "'''" then
    let _ ← newline
    characters longLiteralStep
  else shortString

/-! # Numbers -/

def digitsOf? (isDigit : Char -> Bool) (cs : List Char) : Option (List Char) :=
  let runs := Text.pieces '_' cs
  if runs.all fun run => !run.isEmpty && run.all isDigit then some runs.flatten else none

def isBinary (c : Char) : Bool :=
  c == '0' || c == '1'

def isOctal (c : Char) : Bool :=
  '0' ≤ c && c ≤ '7'

def isHex (c : Char) : Bool :=
  (hexValue? c).isSome

def valueIn (base : Nat) (cs : List Char) : Int :=
  cs.foldl (fun n c => n * base + ((hexValue? c).getD 0 : Nat)) (0 : Int)

def checked (n : Int) : Option Int :=
  if -9223372036854775808 ≤ n && n < 9223372036854775808 then some n else none

def wholeOf? (cs : List Char) : Option (List Char) :=
  (digitsOf? Decimal.isDigit cs).bind fun digits =>
    if 1 < digits.length && digits.head? == some '0' then none else some digits

def integer? (cs : List Char) : Option Int :=
  match cs with
  | '0' :: 'x' :: rest => (digitsOf? isHex rest).bind fun ds => checked (valueIn 16 ds)
  | '0' :: 'o' :: rest => (digitsOf? isOctal rest).bind fun ds => checked (valueIn 8 ds)
  | '0' :: 'b' :: rest => (digitsOf? isBinary rest).bind fun ds => checked (valueIn 2 ds)
  | cs =>
      let (negative, body) := Decimal.splitSign cs
      (wholeOf? body).bind fun ds =>
        checked (if negative then -(valueIn 10 ds) else valueIn 10 ds)

def isExponentMark (c : Char) : Bool :=
  c == 'e' || c == 'E'

def isFloatBody (cs : List Char) : Bool :=
  let mantissa := cs.takeWhile fun c => !isExponentMark c
  let exponent := cs.dropWhile fun c => !isExponentMark c
  let exponentFits :=
    match exponent with
    | [] => mantissa.contains '.'
    | _ :: digits => (digitsOf? Decimal.isDigit (Decimal.splitSign digits).2).isSome
  let mantissaFits :=
    match Text.cutFirst? '.' mantissa with
    | none => (wholeOf? mantissa).isSome
    | some (whole, fraction) =>
        (wholeOf? whole).isSome && (digitsOf? Decimal.isDigit fraction).isSome
  exponentFits && mantissaFits

def float? (cs : List Char) : Option Float :=
  let body := (Decimal.splitSign cs).2
  if body == "inf".toList || body == "nan".toList then Decimal.read? (String.ofList cs)
  else if isFloatBody body then
    (Decimal.read? (String.ofList (cs.filter (· != '_')))).bind fun x =>
      if x.isInf && !(cs.head? == some '-') then none else some x
  else none

/-! # Dates and times -/

def fixedDigits? (count : Nat) (cs : List Char) : Option Nat :=
  if cs.length == count && cs.all Decimal.isDigit then some (Decimal.digitsValue cs) else none

def within (low high : Nat) (value : Option Nat) : Bool :=
  match value with
  | some n => low ≤ n && n ≤ high
  | none => false

def daysIn (year month : Nat) : Nat :=
  if month == 2 then
    if year % 4 == 0 && (year % 100 != 0 || year % 400 == 0) then 29 else 28
  else if [4, 6, 9, 11].contains month then 30
  else 31

def isDate (cs : List Char) : Bool :=
  match Text.pieces '-' cs with
  | [year, month, day] =>
      match fixedDigits? 4 year, fixedDigits? 2 month with
      | some y, some m =>
          1 ≤ m && m ≤ 12 && within 1 (daysIn y m) (fixedDigits? 2 day)
      | _, _ => false
  | _ => false

def isTime (cs : List Char) : Bool :=
  match Text.pieces ':' cs with
  | [hour, minute, rest] =>
      let second := rest.takeWhile (· != '.')
      let fraction := rest.dropWhile (· != '.')
      within 0 23 (fixedDigits? 2 hour) && within 0 59 (fixedDigits? 2 minute) &&
        within 0 60 (fixedDigits? 2 second) &&
        (fraction.isEmpty ||
          (1 < fraction.length && (fraction.drop 1).all Decimal.isDigit))
  | _ => false

def isOffset (cs : List Char) : Bool :=
  match cs with
  | [] => true
  | ['Z'] | ['z'] => true
  | sign :: rest =>
      (sign == '+' || sign == '-') &&
        match Text.pieces ':' rest with
        | [hour, minute] =>
            within 0 23 (fixedDigits? 2 hour) && within 0 59 (fixedDigits? 2 minute)
        | _ => false

def isTimeChar (c : Char) : Bool :=
  Decimal.isDigit c || c == ':' || c == '.'

def isZonedTime (cs : List Char) : Bool :=
  isTime (cs.takeWhile isTimeChar) && isOffset (cs.dropWhile isTimeChar)

def isDateTime (cs : List Char) : Bool :=
  let date := cs.take 10
  isTime cs || isDate cs ||
    match cs.drop 10 with
    | mark :: rest => isDate date && (mark == 'T' || mark == 't' || mark == ' ') && isZonedTime rest
    | [] => false

/-! # Words -/

def isWordChar (c : Char) : Bool :=
  c.isAlphanum || c == '_' || c == '+' || c == '-' || c == '.' || c == ':'

def word : Scan (List Char) := do
  let first ← takeWhile isWordChar
  if isDate first then
    let rest ← get
    match rest with
    | ' ' :: after =>
        let time := after.takeWhile isWordChar
        if isZonedTime time then
          set (after.drop time.length)
          return first ++ ' ' :: time
        else return first
    | _ => return first
  else return first

def scalarOf? (cs : List Char) : Option Toml :=
  if cs == "true".toList then some (boolean true)
  else if cs == "false".toList then some (boolean false)
  else if isDateTime cs then some (dateTime (String.ofList cs))
  else
    match integer? cs, float? cs with
    | some n, _ => some (integer n)
    | none, some x => some (float x)
    | none, none => none

def scalar : Scan Toml := do
  match scalarOf? (← word) with
  | some v => return v
  | none => failure

end Toml
end GoAtlas
