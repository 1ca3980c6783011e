import GoAtlas.Decimal.Binary64

/-!
# Shortest decimal digits

The fewest decimal digits that read back as the same double, the nearest such digits if there
are several, and their positional layout: never an exponent, no point without a fraction.
-/

namespace GoAtlas
namespace Decimal

/-- The reals that round to `mantissa · 2 ^ exponent`, in units of `2 ^ (exponent - 2)`; the
ends belong to the interval when `closed` is set. -/
structure Interval where
  low : Nat
  value : Nat
  high : Nat
  closed : Bool

def Interval.around (mantissa : Nat) (exponent : Int) : Interval :=
  let below := if mantissa == 1 <<< 52 && decide (-1074 < exponent) then 1 else 2
  ⟨4 * mantissa - below, 4 * mantissa, 4 * mantissa + 2, mantissa % 2 == 0⟩

structure Scaled where
  digits : Nat
  power : Int
  deriving Repr, DecidableEq

def commonScale (a : Nat) (s : Int) (b : Nat) (k : Int) : Nat × Nat :=
  (a <<< s.toNat * Nat.pow 10 (-k).toNat, b <<< (-s).toNat * Nat.pow 10 k.toNat)

def Interval.contains (i : Interval) (s : Int) (d : Scaled) : Bool :=
  let (low, x) := commonScale i.low s d.digits d.power
  let (high, y) := commonScale i.high s d.digits d.power
  if i.closed then decide (low ≤ x) && decide (y ≤ high) else decide (low < x) && decide (y < high)

/-- The two neighbours of the value on the grid of `10 ^ power`; of those that read back the
nearer one, the upper one on a tie. -/
def Interval.onGrid (i : Interval) (s power : Int) : Option Scaled :=
  let (v, unit) := commonScale i.value s 1 power
  let down := v / unit
  let lower : Scaled := ⟨down, power⟩
  let upper : Scaled := ⟨down + 1, power⟩
  match i.contains s lower, i.contains s upper with
  | true, true => some (if 2 * (v % unit) < unit then lower else upper)
  | true, false => some lower
  | false, true => some upper
  | false, false => none

/-- The greatest `e` with `10 ^ e ≤ value · 2 ^ s`, found by counting down from a power of
ten above the value. -/
def decimalExponent (value : Nat) (s : Int) : Int :=
  let bits : Int := value.log2 + s
  let top : Int := bits * 1233 / 4096 + 1
  let reached (e : Int) : Bool :=
    let (v, unit) := commonScale value s 1 e
    decide (unit ≤ v)
  if reached top then top else if reached (top - 1) then top - 1 else top - 2

def Interval.shortestFrom (i : Interval) (s exponent : Int) : Nat -> Nat -> Scaled
  | 0, _ => ⟨i.value, exponent⟩
  | fuel + 1, count =>
      match i.onGrid s (exponent - (count : Int)) with
      | some d => d
      | none => i.shortestFrom s exponent fuel (count + 1)

def shortest (mantissa : Nat) (exponent : Int) : Scaled :=
  let i := Interval.around mantissa exponent
  let s := exponent - 2
  i.shortestFrom s (decimalExponent i.value s) 18 0

def Scaled.positional (d : Scaled) : String :=
  let digits := (Nat.toDigits 10 d.digits)
  if 0 ≤ d.power then String.ofList (digits ++ List.replicate d.power.toNat '0')
  else
    let places := (-d.power).toNat
    let padded := List.replicate (places + 1 - digits.length) '0' ++ digits
    let whole := padded.take (padded.length - places)
    let fraction := padded.drop (padded.length - places)
    let fraction := (fraction.reverse.dropWhile (· == '0')).reverse
    if fraction.isEmpty then String.ofList whole
    else String.ofList (whole ++ '.' :: fraction)

/-- The text of a double: positional shortest digits, `-0`, `inf`, `-inf` and `NaN`. -/
def render (x : Float) : String :=
  match Double.ofFloat x with
  | .nan => "NaN"
  | .infinite negative => if negative then "-inf" else "inf"
  | .finite negative mantissa exponent =>
      let body := if mantissa == 0 then "0" else (shortest mantissa exponent).positional
      if negative then "-" ++ body else body

end Decimal
end GoAtlas
