/-!
# Operators of constant expressions

An operator that constants do not know keeps its text.
-/

namespace GoAtlas

inductive BinaryOp where
  | add
  | sub
  | mul
  | div
  | rem
  | bitAnd
  | bitOr
  | bitXor
  | bitClear
  | shiftLeft
  | shiftRight
  | eq
  | ne
  | lt
  | le
  | gt
  | ge
  | and
  | or
  | other (text : String)
  deriving Repr, DecidableEq

namespace BinaryOp

def text : BinaryOp -> String
  | add => "+"
  | sub => "-"
  | mul => "*"
  | div => "/"
  | rem => "%"
  | bitAnd => "&"
  | bitOr => "|"
  | bitXor => "^"
  | bitClear => "&^"
  | shiftLeft => "<<"
  | shiftRight => ">>"
  | eq => "=="
  | ne => "!="
  | lt => "<"
  | le => "<="
  | gt => ">"
  | ge => ">="
  | and => "&&"
  | or => "||"
  | other text => text

def known : List BinaryOp :=
  [add, sub, mul, div, rem, bitAnd, bitOr, bitXor, bitClear, shiftLeft, shiftRight, eq, ne, lt,
    le, gt, ge, and, or]

def ofText (text : String) : BinaryOp :=
  (known.find? fun op => op.text == text).getD (other text)

def isComparison : BinaryOp -> Bool
  | eq | ne | lt | le | gt | ge => true
  | _ => false

def isShift : BinaryOp -> Bool
  | shiftLeft | shiftRight => true
  | _ => false

end BinaryOp

inductive UnaryOp where
  | plus
  | minus
  | complement
  | not
  | other (text : String)
  deriving Repr, DecidableEq

namespace UnaryOp

def text : UnaryOp -> String
  | plus => "+"
  | minus => "-"
  | complement => "^"
  | not => "!"
  | other text => text

def ofText : String -> UnaryOp
  | "+" => plus
  | "-" => minus
  | "^" => complement
  | "!" => not
  | text => other text

end UnaryOp
end GoAtlas
