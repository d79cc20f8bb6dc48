import BackupClient.Number.Binary64

/-!
Doubles from a whole number and a power of ten, by the quick rule.

The whole number is rounded to a double first and then multiplied or divided by a power of ten that
is itself a rounded double.  Up to `2 ^ 53` and `10 ^ 22` both are exact and the result is the nearest
double; beyond that it may be a unit off, which is part of the number format of the engine's records.
-/

namespace BackupClient.Binary64

def powerOfTen (exponent : Nat) : Binary64 :=
  ofNat (Nat.pow 10 exponent)

/-- `significand · 10 ^ exponent` by the quick rule; `none` where it is beyond the range. -/
def scaledFrom (start : Binary64) (exponent : Int) : Option Binary64 :=
  if exponent.natAbs ≤ 308 then
    if exponent ≥ 0 then
      let product := mul start (powerOfTen exponent.toNat)
      if product.isFinite then some product else none
    else some (div start (powerOfTen exponent.natAbs))
  else if start = zero false then some start
  else if exponent ≥ 0 then none
  else scaledFrom (div start (powerOfTen 308)) (exponent + 308)
termination_by exponent.natAbs
decreasing_by omega

/-- A signed whole number times a power of ten; `none` where it is beyond the range. -/
def scaled (negative : Bool) (significand : Nat) (exponent : Int) : Option Binary64 :=
  (scaledFrom (ofNat significand) exponent).map fun double =>
    if negative then double.neg else double

end BackupClient.Binary64
