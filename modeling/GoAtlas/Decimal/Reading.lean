import GoAtlas.Decimal.Binary64

/-!
# Reading decimal numbers

A sign, then digits with an optional point and exponent, or one of the words `inf`,
`infinity` and `nan` in any letter case. The result is the nearest double.
-/

namespace GoAtlas
namespace Decimal

def isDigit (c : Char) : Bool :=
  '0' ≤ c && c ≤ '9'

def digitsValue (cs : List Char) : Nat :=
  cs.foldl (fun n c => n * 10 + (c.toNat - '0'.toNat)) 0

/-- The parts of a number without its sign. -/
structure Written where
  whole : List Char
  fraction : List Char
  exponent : Int

def splitSign : List Char -> Bool × List Char
  | '-' :: rest => (true, rest)
  | '+' :: rest => (false, rest)
  | rest => (false, rest)

def readExponent : List Char -> Option Int
  | [] => some 0
  | c :: rest =>
      if c == 'e' || c == 'E' then
        let (negative, digits) := splitSign rest
        if digits.isEmpty || !digits.all isDigit then none
        else
          let n : Int := digitsValue digits
          some (if negative then -n else n)
      else none

def Written.ofChars? (cs : List Char) : Option Written :=
  let whole := cs.takeWhile isDigit
  let rest := cs.dropWhile isDigit
  let (fraction, rest) :=
    match rest with
    | '.' :: after => (after.takeWhile isDigit, after.dropWhile isDigit)
    | _ => ([], rest)
  if whole.isEmpty && fraction.isEmpty then none
  else (readExponent rest).map fun e => ⟨whole, fraction, e⟩

/-- Bits of the nearest double. Numbers far outside the range of doubles are settled by their
size alone. -/
def Written.bits (w : Written) : Nat :=
  let digits := (w.whole ++ w.fraction).dropWhile (· == '0')
  let power := w.exponent - w.fraction.length
  let size := power + digits.length
  if digits.isEmpty || size < -400 then 0
  else if size > 400 then infinityBits
  else
    let n := digitsValue digits
    if 0 ≤ power then nearestBits (n * Nat.pow 10 power.toNat) 1
    else nearestBits n (Nat.pow 10 (-power).toNat)

def lowerAscii (cs : List Char) : List Char :=
  cs.map Char.toLower

def read? (s : String) : Option Float :=
  let (negative, body) := splitSign s.toList
  let word := String.ofList (lowerAscii body)
  if word == "inf" || word == "infinity" then some (signed negative infinityBits)
  else if word == "nan" then some (0.0 / 0.0)
  else (Written.ofChars? body).map fun w => signed negative w.bits

end Decimal
end GoAtlas
