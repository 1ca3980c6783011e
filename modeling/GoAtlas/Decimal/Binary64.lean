/-!
# Binary floating point as exact numbers

A finite double is `± mantissa · 2 ^ exponent`. Reading a double apart and rounding an exact
ratio to the nearest double, ties to even, are done on natural numbers.
-/

namespace GoAtlas
namespace Decimal

inductive Double where
  | finite (negative : Bool) (mantissa : Nat) (exponent : Int)
  | infinite (negative : Bool)
  | nan
  deriving Repr, DecidableEq

namespace Double

def ofBits (bits : Nat) : Double :=
  let negative := bits >>> 63 % 2 == 1
  let field : Nat := bits >>> 52 % 2048
  let fraction : Nat := bits % 1 <<< 52
  if field == 2047 then
    if fraction == 0 then .infinite negative else .nan
  else if field == 0 then .finite negative fraction (-1074)
  else .finite negative (1 <<< 52 + fraction) (Int.ofNat field - 1075)

def ofFloat (x : Float) : Double :=
  ofBits x.toBits.toNat

def toInt? : Double -> Option Int
  | .finite negative mantissa exponent =>
      let magnitude? : Option Nat :=
        if 0 ≤ exponent then some (mantissa <<< exponent.toNat)
        else
          let unit := 1 <<< (-exponent).toNat
          if mantissa % unit == 0 then some (mantissa / unit) else none
      magnitude?.map fun n => if negative then -(n : Int) else n
  | _ => none

end Double

def roundHalfEven (num den : Nat) : Nat :=
  let q := num / den
  let twice := 2 * (num % den)
  if twice > den || (twice == den && q % 2 == 1) then q + 1 else q

def ratioLog2 (num den : Nat) : Int :=
  let guess : Int := (num.log2 : Int) - den.log2
  let reached :=
    if 0 ≤ guess then decide (den <<< guess.toNat ≤ num)
    else decide (den ≤ num <<< (-guess).toNat)
  if reached then guess else guess - 1

def infinityBits : Nat := 2047 <<< 52

/-- Bits of the double nearest to `num / den`, without the sign; beyond the largest double
they are those of infinity. -/
def nearestBits (num den : Nat) : Nat :=
  if num == 0 then 0
  else
    let exponent := max (ratioLog2 num den - 52) (-1074)
    let mantissa :=
      if 0 ≤ exponent then roundHalfEven num (den <<< exponent.toNat)
      else roundHalfEven (num <<< (-exponent).toNat) den
    min ((exponent + 1074).toNat <<< 52 + mantissa) infinityBits

def signed (negative : Bool) (bits : Nat) : Float :=
  Float.ofBits (UInt64.ofNat (if negative then 1 <<< 63 + bits else bits))

def floatOfInt (n : Int) : Float :=
  signed (n < 0) (nearestBits n.natAbs 1)

end Decimal
end GoAtlas
