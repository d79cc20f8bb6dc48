import BackupClient.Number.Binary64
import BackupClient.Text.Decimal

/-!
The shortest decimal numeral of a double.

Of all decimal numbers that lie closer to the double than to any other double, the one with the
fewest digits is written, and of several such numbers the nearest.  A numeral is positional while its
decimal point falls within sixteen places, and has an exponent otherwise.
-/

namespace BackupClient.Binary64

/-- The open or closed interval of rationals that round to a positive double, over a common
denominator. -/
structure Interval where
  low : Nat
  centre : Nat
  high : Nat
  denominator : Nat
  closed : Bool
  deriving DecidableEq, Repr

/-- The numbers that round to `mantissa · 2 ^ scale`. -/
def intervalOf (mantissa : Nat) (scale : Int) : Interval :=
  let narrow := mantissa = Nat.pow 2 52 && scale > -1074
  let up := Nat.pow 2 scale.toNat
  let below := if narrow then 1 else 2
  ⟨(4 * mantissa - below) * up, 4 * mantissa * up, (4 * mantissa + 2) * up,
    4 * Nat.pow 2 (-scale).toNat, mantissa % 2 = 0⟩

/-- Does `digits · 10 ^ exponent` lie in the interval? -/
def Interval.contains (interval : Interval) (digits : Nat) (exponent : Int) : Bool :=
  let scaled := digits * Nat.pow 10 exponent.toNat * interval.denominator
  let unit := Nat.pow 10 (-exponent).toNat
  if interval.closed then interval.low * unit ≤ scaled && scaled ≤ interval.high * unit
  else interval.low * unit < scaled && scaled < interval.high * unit

/-- How far `digits · 10 ^ exponent` is from the centre, in units common to one exponent. -/
def Interval.distance (interval : Interval) (digits : Nat) (exponent : Int) : Nat :=
  let scaled := digits * Nat.pow 10 exponent.toNat * interval.denominator
  let centre := interval.centre * Nat.pow 10 (-exponent).toNat
  (scaled - centre) + (centre - scaled)

/-- The multiple of `10 ^ exponent` at or below the centre. -/
def Interval.gridFloor (interval : Interval) (exponent : Int) : Nat :=
  interval.centre * Nat.pow 10 (-exponent).toNat / (interval.denominator * Nat.pow 10 exponent.toNat)

/-- The better of the two neighbours of the centre on the grid of `10 ^ exponent`. -/
def Interval.pick? (interval : Interval) (exponent : Int) : Option Nat :=
  let below := interval.gridFloor exponent
  let above := below + 1
  let belowFits := below ≠ 0 && interval.contains below exponent
  let aboveFits := interval.contains above exponent
  if belowFits && aboveFits then
    let belowDistance := interval.distance below exponent
    let aboveDistance := interval.distance above exponent
    if belowDistance < aboveDistance || (belowDistance = aboveDistance && below % 2 = 0) then
      some below
    else some above
  else if belowFits then some below
  else if aboveFits then some above
  else none

/-- Try ever finer grids, starting at `10 ^ exponent`. -/
def Interval.search (interval : Interval) (exponent : Int) : Nat → Option (Nat × Int)
  | 0 => none
  | fuel + 1 =>
      match interval.pick? exponent with
      | some digits => some (digits, exponent)
      | none => interval.search (exponent - 1) fuel

def stripZeros (digits : Nat) (exponent : Int) : Nat × Int :=
  if digits ≠ 0 ∧ digits % 10 = 0 then stripZeros (digits / 10) (exponent + 1)
  else (digits, exponent)
termination_by digits
decreasing_by omega

/-- The digits and the decimal exponent of the shortest numeral of `mantissa · 2 ^ scale`. -/
def shortest (mantissa : Nat) (scale : Int) : Nat × Int :=
  let interval := intervalOf mantissa scale
  let magnitude : Int := ((Nat.log2 mantissa : Int) + scale) * 30103 / 100000
  match interval.search (magnitude + 2) 40 with
  | some (digits, exponent) => stripZeros digits exponent
  | none => (mantissa, scale)

def numeral (digits : Nat) (exponent : Int) : List Char :=
  let chars := Text.Decimal.digits digits
  let point : Int := chars.length + exponent
  if 0 ≤ exponent ∧ point ≤ 16 then
    chars ++ List.replicate exponent.toNat '0' ++ ['.', '0']
  else if 0 < point ∧ point ≤ 16 then
    chars.take point.toNat ++ '.' :: chars.drop point.toNat
  else if -5 < point ∧ point ≤ 0 then
    '0' :: '.' :: List.replicate (-point).toNat '0' ++ chars
  else
    let fraction := if chars.length = 1 then [] else '.' :: chars.drop 1
    chars.take 1 ++ fraction ++ 'e' :: Text.Decimal.ofInt (point - 1)

/-- The numeral of a finite double; the others have none. -/
def numeral? (double : Binary64) : Option (List Char) :=
  match double.view with
  | .finite negative mantissa scale =>
      let sign := if negative then ['-'] else []
      if mantissa = 0 then some (sign ++ ['0', '.', '0'])
      else
        let (digits, exponent) := shortest mantissa scale
        some (sign ++ numeral digits exponent)
  | _ => none

end BackupClient.Binary64
