import GoAtlas.Decimal.Shortest
import GoAtlas.Table

/-!
# JSON

The values that the program prints, on one line or indented by two blanks.
-/

namespace GoAtlas

inductive Json where
  | null
  | bool (value : Bool)
  | int (value : Int)
  | float (value : Float)
  | string (value : String)
  | array (items : List Json)
  | object (entries : List (String × Json))

namespace Json

instance : Coe String Json := ⟨string⟩

instance : Coe Bool Json := ⟨bool⟩

instance : Coe Nat Json := ⟨fun n => int n⟩

/-- An object with its keys sorted; of two equal keys the last one counts. -/
def record (pairs : List (String × Json)) : Json :=
  object (Table.ofList pairs).entries

def ofOption {α : Type} (f : α -> Json) : Option α -> Json
  | some a => f a
  | none => null

def strings (texts : List String) : Json :=
  array (texts.map string)

/-! # Scalars -/

/-- The lowest and highest integers that can be written: those of 64 bits, with a sign or
without. -/
def minInt : Int := -9223372036854775808

def maxInt : Int := 18446744073709551615

def hexDigit (n : Nat) : Char :=
  if n < 10 then Char.ofNat ('0'.toNat + n) else Char.ofNat ('a'.toNat + n - 10)

def escape (c : Char) : List Char :=
  if c == '"' then ['\\', '"']
  else if c == '\\' then ['\\', '\\']
  else if c == '\n' then ['\\', 'n']
  else if c == '\r' then ['\\', 'r']
  else if c == '\t' then ['\\', 't']
  else if c == '\x08' then ['\\', 'b']
  else if c == '\x0c' then ['\\', 'f']
  else if c.toNat < 0x20 then
    ['\\', 'u', '0', '0', hexDigit (c.toNat / 16), hexDigit (c.toNat % 16)]
  else [c]

def quote (s : String) : String :=
  String.ofList ('"' :: s.toList.flatMap escape ++ ['"'])

/-- Digits with the point behind the first `place` of them: positional when the point is near
them, else with an exponent. -/
def layout (digits : List Char) (place : Int) : List Char :=
  let count : Int := digits.length
  if count ≤ place && place ≤ 16 then
    digits ++ List.replicate (place - count).toNat '0' ++ ['.', '0']
  else if 0 < place && place ≤ 16 then
    digits.take place.toNat ++ '.' :: digits.drop place.toNat
  else if -5 < place && place ≤ 0 then
    ['0', '.'] ++ List.replicate (-place).toNat '0' ++ digits
  else
    let fraction := if digits.length ≤ 1 then [] else '.' :: digits.drop 1
    digits.take 1 ++ fraction ++ 'e' :: (toString (place - 1)).toList

def floatText (x : Float) : String :=
  match Decimal.Double.ofFloat x with
  | .nan => "null"
  | .infinite _ => "null"
  | .finite negative mantissa exponent =>
      let body :=
        if mantissa == 0 then ['0', '.', '0']
        else
          let d := Decimal.shortest mantissa exponent
          let all := Nat.toDigits 10 d.digits
          let digits := (all.reverse.dropWhile (· == '0')).reverse
          layout digits ((all.length : Int) + d.power)
      String.ofList (if negative then '-' :: body else body)

/-! # Printing -/

mutual

def compact : Json -> String
  | null => "null"
  | bool true => "true"
  | bool false => "false"
  | int n => toString n
  | float x => floatText x
  | string s => quote s
  | array items => "[" ++ String.intercalate "," (compactItems items) ++ "]"
  | object entries => "\x7b" ++ String.intercalate "," (compactEntries entries) ++ "\x7d"

def compactItems : List Json -> List String
  | [] => []
  | j :: rest => compact j :: compactItems rest

def compactEntries : List (String × Json) -> List String
  | [] => []
  | (key, j) :: rest => (quote key ++ ":" ++ compact j) :: compactEntries rest

end

def margin (depth : Nat) : String :=
  String.ofList (List.replicate (2 * depth) ' ')

def block (left right : String) (depth : Nat) : List String -> String
  | [] => left ++ right
  | parts =>
      let separator := ",\n" ++ margin (depth + 1)
      left ++ "\n" ++ margin (depth + 1) ++ String.intercalate separator parts ++ "\n" ++
        margin depth ++ right

mutual

def prettyAt (depth : Nat) : Json -> String
  | array items => block "[" "]" depth (prettyItems (depth + 1) items)
  | object entries => block "\x7b" "\x7d" depth (prettyEntries (depth + 1) entries)
  | null => compact null
  | bool b => compact (bool b)
  | int n => compact (int n)
  | float x => compact (float x)
  | string s => compact (string s)

def prettyItems (depth : Nat) : List Json -> List String
  | [] => []
  | j :: rest => prettyAt depth j :: prettyItems depth rest

def prettyEntries (depth : Nat) : List (String × Json) -> List String
  | [] => []
  | (key, j) :: rest => (quote key ++ ": " ++ prettyAt depth j) :: prettyEntries depth rest

end

def pretty (j : Json) : String :=
  prettyAt 0 j

/-! # What can be printed -/

mutual

def isPrintable : Json -> Bool
  | int n => decide (minInt ≤ n) && decide (n ≤ maxInt)
  | array items => arePrintable items
  | object entries => arePrintableEntries entries
  | _ => true

def arePrintable : List Json -> Bool
  | [] => true
  | j :: rest => isPrintable j && arePrintable rest

def arePrintableEntries : List (String × Json) -> Bool
  | [] => true
  | (_, j) :: rest => isPrintable j && arePrintableEntries rest

end

end Json
end GoAtlas
