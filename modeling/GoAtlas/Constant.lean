import GoAtlas.BasicKind
import GoAtlas.Decimal.Shortest
import GoAtlas.Text.Quoted

/-!
# Constants

Values of constant expressions. Integers are exact within 128 bits, floats are doubles.
-/

namespace GoAtlas

inductive Constant where
  | bool (value : Bool)
  | string (value : String)
  | int (value : Int)
  | float (value : Float)

namespace Constant

/-- Integer constants are kept within the signed numbers of 128 bits. -/
def minInt : Int := -170141183460469231731687303715884105728

def maxInt : Int := 170141183460469231731687303715884105727

def fits (v : Int) : Bool :=
  decide (minInt ≤ v) && decide (v ≤ maxInt)

def clamp (v : Int) : Int :=
  max minInt (min v maxInt)

def text : Constant -> String
  | bool true => "true"
  | bool false => "false"
  | string s => Text.quote s
  | int v => toString v
  | float x => Decimal.render x

instance : ToString Constant where
  toString := text

def toInt? : Constant -> Option Int
  | int v => some v
  | float x => (Decimal.Double.ofFloat x).toInt?.map clamp
  | _ => none

def toFloat? : Constant -> Option Float
  | int v => some (Decimal.floatOfInt v)
  | float x => some x
  | _ => none

def defaultKind : Constant -> BasicKind
  | bool _ => .untypedBool
  | string _ => .untypedString
  | int _ => .untypedInt
  | float _ => .untypedFloat

end Constant
end GoAtlas
