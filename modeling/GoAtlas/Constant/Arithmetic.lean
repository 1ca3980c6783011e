import GoAtlas.Constant
import GoAtlas.Constant.Operator

/-!
# Arithmetic on constants

Integer operations are computed on unbounded integers and refused when the result leaves the
range of constants. Bit operations are those of infinite two's complement. An integer beside
a float is read as a float, shifts apart.
-/

namespace GoAtlas

inductive ConstantError where
  | overflow (a : Int) (op : BinaryOp) (b : Int)
  | negationOverflow
  | divisionByZero
  | shiftCount (count : Int)
  | shiftOperands (x y : Constant)
  | notOnBool (op : BinaryOp)
  | notOnConstant (op : BinaryOp)
  | mismatched (x : Constant) (op : BinaryOp) (y : Constant)
  | incomparable (a b : Float)
  | notOnOperand (op : UnaryOp) (x : Constant)
  | notConvertible (x : Constant) (kind : BasicKind)
  | outOfRange (v : Int) (kind : BasicKind)

namespace ConstantError

def message : ConstantError -> String
  | overflow a op b => s!"constant overflow in {a} {op.text} {b}"
  | negationOverflow => "constant overflow"
  | divisionByZero => "division by zero"
  | shiftCount count => s!"invalid shift count {count}"
  | shiftOperands x y => s!"invalid shift of {x.text} by {y.text}"
  | notOnBool op => s!"operator {op.text} not defined on bool"
  | notOnConstant op => s!"operator {op.text} not defined on constant"
  | mismatched x op y => s!"mismatched constant operands {x.text} {op.text} {y.text}"
  | incomparable a b => "cannot compare " ++ Decimal.render a ++ " and " ++ Decimal.render b
  | notOnOperand op x => s!"operator {op.text} not defined on {x.text}"
  | notConvertible x kind => s!"cannot convert {x.text} to {kind.text}"
  | outOfRange v kind => s!"constant {v} overflows {kind.text}"

end ConstantError

namespace Constant

/-! # Bits of integers

A negative integer `-(n + 1)` has the bits of `n` inverted. -/

def natAndNot (m n : Nat) : Nat :=
  m ^^^ (m &&& n)

def bitAnd : Int -> Int -> Int
  | .ofNat m, .ofNat n => .ofNat (m &&& n)
  | .ofNat m, .negSucc n => .ofNat (natAndNot m n)
  | .negSucc m, .ofNat n => .ofNat (natAndNot n m)
  | .negSucc m, .negSucc n => .negSucc (m ||| n)

def complement : Int -> Int
  | .ofNat n => .negSucc n
  | .negSucc n => .ofNat n

def bitOr (a b : Int) : Int :=
  complement (bitAnd (complement a) (complement b))

def bitXor : Int -> Int -> Int
  | .ofNat m, .ofNat n => .ofNat (m ^^^ n)
  | .ofNat m, .negSucc n => .negSucc (m ^^^ n)
  | .negSucc m, .ofNat n => .negSucc (m ^^^ n)
  | .negSucc m, .negSucc n => .ofNat (m ^^^ n)

def bitClear (a b : Int) : Int :=
  bitAnd a (complement b)

/-! # Comparison -/

def compareBy (op : BinaryOp) (o : Ordering) : Except ConstantError Bool :=
  match op with
  | .eq => .ok (o == .eq)
  | .ne => .ok (o != .eq)
  | .lt => .ok (o == .lt)
  | .le => .ok (o != .gt)
  | .gt => .ok (o == .gt)
  | .ge => .ok (o != .lt)
  | op => .error (.notOnConstant op)

def floatOrder? (a b : Float) : Option Ordering :=
  if a < b then some .lt
  else if a > b then some .gt
  else if a == b then some .eq
  else none

/-! # Integers -/

def checked (op : BinaryOp) (a b v : Int) : Except ConstantError Constant :=
  if fits v then .ok (int v) else .error (.overflow a op b)

def shiftCount? (b : Int) : Except ConstantError Nat :=
  if 0 ≤ b && b < 4294967296 then .ok b.toNat else .error (.shiftCount b)

def intOp (op : BinaryOp) (a b : Int) : Except ConstantError Constant :=
  match op with
  | .add => checked op a b (a + b)
  | .sub => checked op a b (a - b)
  | .mul => checked op a b (a * b)
  | .div => if b == 0 then .error .divisionByZero else checked op a b (a.tdiv b)
  | .rem =>
      if b == 0 then .error .divisionByZero
      else if b == -1 && a == minInt then .error (.overflow a op b)
      else .ok (int (a.tmod b))
  | .bitAnd => .ok (int (bitAnd a b))
  | .bitOr => .ok (int (bitOr a b))
  | .bitXor => .ok (int (bitXor a b))
  | .bitClear => .ok (int (bitClear a b))
  | .shiftLeft => do
      let count ← shiftCount? b
      if count < 128 then checked op a b (a * Int.ofNat (1 <<< count)) else throw (.overflow a op b)
  | .shiftRight => do
      let count ← shiftCount? b
      if count < 128 then return int (a >>> count)
      else return int (if a < 0 then -1 else 0)
  | op => (compareBy op (compare a b)).map bool

/-! # Floats -/

def floatOp (op : BinaryOp) (a b : Float) : Except ConstantError Constant :=
  match op with
  | .add => .ok (float (a + b))
  | .sub => .ok (float (a - b))
  | .mul => .ok (float (a * b))
  | .div => if b == 0.0 then .error .divisionByZero else .ok (float (a / b))
  | op =>
      match floatOrder? a b with
      | some o => (compareBy op o).map bool
      | none => .error (.incomparable a b)

/-- An operation with a float among its operands. Shifts need whole numbers on both sides. -/
def mixedOp (op : BinaryOp) (x y : Constant) (a b : Float) : Except ConstantError Constant :=
  if op.isShift then
    match x.toInt?, y.toInt? with
    | some a, some b => intOp op a b
    | _, _ => .error (.shiftOperands x y)
  else floatOp op a b

/-! # All operands -/

def stringOp (op : BinaryOp) (a b : String) : Except ConstantError Constant :=
  match op with
  | .add => .ok (string (a ++ b))
  | op => (compareBy op (compare a b)).map bool

def boolOp (op : BinaryOp) (a b : Bool) : Except ConstantError Constant :=
  match op with
  | .and => .ok (bool (a && b))
  | .or => .ok (bool (a || b))
  | .eq => .ok (bool (a == b))
  | .ne => .ok (bool (a != b))
  | op => .error (.notOnBool op)

def binary (op : BinaryOp) : Constant -> Constant -> Except ConstantError Constant
  | int a, int b => intOp op a b
  | int a, float b => mixedOp op (int a) (float b) (Decimal.floatOfInt a) b
  | float a, int b => mixedOp op (float a) (int b) a (Decimal.floatOfInt b)
  | float a, float b => mixedOp op (float a) (float b) a b
  | string a, string b => stringOp op a b
  | bool a, bool b => boolOp op a b
  | x, y => .error (.mismatched x op y)

def unary (op : UnaryOp) (x : Constant) : Except ConstantError Constant :=
  match op, x with
  | .plus, int _ => .ok x
  | .plus, float _ => .ok x
  | .minus, int v => if v == minInt then .error .negationOverflow else .ok (int (-v))
  | .minus, float v => .ok (float (-v))
  | .complement, int v => .ok (int (complement v))
  | .not, bool b => .ok (bool !b)
  | op, x => .error (.notOnOperand op x)

end Constant
end GoAtlas
