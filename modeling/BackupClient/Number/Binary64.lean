/-!
Double-precision numbers as bit patterns with exact integer arithmetic.

A finite double is `± mantissa · 2 ^ scale`.  Every operation computes the exact rational result and
rounds it once, to the nearest double and to the even one at a tie, so that no step depends on the
machine's floating-point unit.
-/

namespace BackupClient

/-- A double, named by its sixty-four bits. -/
structure Binary64 where
  bits : UInt64
  deriving DecidableEq, Repr, Inhabited

namespace Binary64

inductive View where
  | nan
  | infinite (negative : Bool)
  | finite (negative : Bool) (mantissa : Nat) (scale : Int)
  deriving DecidableEq, Repr

/-- Read sign, mantissa and scale off the bits. -/
def view (double : Binary64) : View :=
  let code : Nat := double.bits.toNat
  let negative : Bool := code ≥ Nat.pow 2 63
  let exponent : Nat := code / Nat.pow 2 52 % 2048
  let fraction : Nat := code % Nat.pow 2 52
  if exponent = 2047 then
    if fraction = 0 then .infinite negative else .nan
  else if exponent = 0 then .finite negative fraction (-1074)
  else .finite negative (fraction + Nat.pow 2 52) ((exponent : Int) - 1075)

def signBit (negative : Bool) : Nat :=
  if negative then Nat.pow 2 63 else 0

/-- The double of a bit count below `2 ^ 64`. -/
def ofCode (code : Nat) : Binary64 :=
  ⟨code.toUInt64⟩

def infinity (negative : Bool) : Binary64 :=
  ofCode (signBit negative + 2047 * Nat.pow 2 52)

def zero (negative : Bool) : Binary64 :=
  ofCode (signBit negative)

def nan : Binary64 :=
  ofCode (2047 * Nat.pow 2 52 + Nat.pow 2 51)

/-- A quotient rounded to the nearest integer, to the even one at a tie. -/
def roundDiv (numerator denominator : Nat) : Nat :=
  let quotient := numerator / denominator
  let twice := 2 * (numerator % denominator)
  if twice > denominator || (twice = denominator && quotient % 2 = 1) then quotient + 1
  else quotient

/-- The scale at which `numerator / denominator` has a mantissa of fifty-three bits, or the least
scale there is. -/
def scaleOf (numerator denominator : Nat) : Int :=
  let guess : Int := (Nat.log2 numerator : Int) - Nat.log2 denominator - 52
  let fits :=
    if guess ≥ 0 then numerator < denominator * Nat.pow 2 (guess.toNat + 52)
    else numerator * Nat.pow 2 (-guess).toNat < denominator * Nat.pow 2 52
  let scale := if fits then guess - 1 else guess
  if scale < -1074 then -1074 else scale

/-- The double nearest to `± numerator / denominator`; beyond the range it is an infinity. -/
def ofRatio (negative : Bool) (numerator denominator : Nat) : Binary64 :=
  if numerator = 0 then zero negative
  else
    let scale := scaleOf numerator denominator
    let mantissa :=
      if scale ≥ 0 then roundDiv numerator (denominator * Nat.pow 2 scale.toNat)
      else roundDiv (numerator * Nat.pow 2 (-scale).toNat) denominator
    if mantissa < Nat.pow 2 52 then ofCode (signBit negative + mantissa)
    else
      let (mantissa, scale) := if mantissa = Nat.pow 2 53 then (Nat.pow 2 52, scale + 1) else (mantissa, scale)
      let exponent := scale + 1075
      if exponent ≥ 2047 then infinity negative
      else ofCode (signBit negative + exponent.toNat * Nat.pow 2 52 + (mantissa - Nat.pow 2 52))

/-- The double nearest to a signed dyadic number `mantissa · 2 ^ scale`. -/
def ofDyadic (mantissa : Int) (scale : Int) : Binary64 :=
  if scale ≥ 0 then ofRatio (mantissa < 0) (mantissa.natAbs * Nat.pow 2 scale.toNat) 1
  else ofRatio (mantissa < 0) mantissa.natAbs (Nat.pow 2 (-scale).toNat)

def ofNat (number : Nat) : Binary64 :=
  ofRatio false number 1

def ofInt (number : Int) : Binary64 :=
  ofRatio (number < 0) number.natAbs 1

def isFinite (double : Binary64) : Bool :=
  match double.view with
  | .finite .. => true
  | _ => false

def neg (double : Binary64) : Binary64 :=
  if double.bits.toNat ≥ Nat.pow 2 63 then ofCode (double.bits.toNat - Nat.pow 2 63)
  else ofCode (double.bits.toNat + Nat.pow 2 63)

/-- The quotient of two finite doubles, the second not zero. -/
def div (left right : Binary64) : Binary64 :=
  match left.view, right.view with
  | .finite leftNegative leftMantissa leftScale, .finite rightNegative rightMantissa rightScale =>
      let scale := leftScale - rightScale
      ofRatio (leftNegative != rightNegative) (leftMantissa * Nat.pow 2 scale.toNat)
        (rightMantissa * Nat.pow 2 (-scale).toNat)
  | _, _ => nan

def mul (left right : Binary64) : Binary64 :=
  match left.view, right.view with
  | .finite leftNegative leftMantissa leftScale, .finite rightNegative rightMantissa rightScale =>
      let scale := leftScale + rightScale
      ofRatio (leftNegative != rightNegative) (leftMantissa * rightMantissa * Nat.pow 2 scale.toNat)
        (Nat.pow 2 (-scale).toNat)
  | _, _ => nan

def signed (negative : Bool) (mantissa : Nat) : Int :=
  if negative then -(mantissa : Int) else mantissa

/-- The sum of two finite doubles that are not both negative zeros. -/
def add (left right : Binary64) : Binary64 :=
  match left.view, right.view with
  | .finite leftNegative leftMantissa leftScale, .finite rightNegative rightMantissa rightScale =>
      let scale := min leftScale rightScale
      let total :=
        signed leftNegative leftMantissa * Nat.pow 2 (leftScale - scale).toNat +
          signed rightNegative rightMantissa * Nat.pow 2 (rightScale - scale).toNat
      ofDyadic total scale
  | _, _ => nan

/-- The greatest integer that is not above a finite double. -/
def floor? (double : Binary64) : Option Int :=
  match double.view with
  | .finite negative mantissa scale =>
      if scale ≥ 0 then some (signed negative mantissa * Nat.pow 2 scale.toNat)
      else some (Int.fdiv (signed negative mantissa) (Nat.pow 2 (-scale).toNat))
  | _ => none

/-- The integer nearest to a finite double that is not negative; a half goes up. -/
def roundHalfUp? (double : Binary64) : Option Nat :=
  match double.view with
  | .finite false mantissa scale =>
      if scale ≥ 0 then some (mantissa * Nat.pow 2 scale.toNat)
      else
        let unit := Nat.pow 2 (-scale).toNat
        some ((2 * mantissa + unit) / (2 * unit))
  | .finite true 0 _ => some 0
  | _ => none

end Binary64

end BackupClient
