/-!
# Shortest decimal text of a floating-point number

A double is written with the fewest digits that read back as the same double, and of those the
nearest to it. Numbers from 0.0001 up to 10 to the sixteenth are written positionally.
-/
namespace ElementBinding.Text

/-- A finite double as `mantissa * 2 ^ exponent`, with the sign apart. -/
structure Binary where
  negative : Bool
  mantissa : Nat
  exponent : Int

/-- The parts of the sixty-four bits of a finite double. -/
def Binary.ofBits (bits : Nat) : Binary :=
  let fraction : Nat := bits % Nat.pow 2 52
  let raised : Nat := bits / Nat.pow 2 52 % 2048
  let negative : Bool := bits / Nat.pow 2 63 % 2 = 1
  if raised = 0 then ⟨negative, fraction, -1074⟩
  else ⟨negative, fraction + Nat.pow 2 52, Int.ofNat raised - 1075⟩

/-- An exact fraction. -/
structure Ratio where
  num : Nat
  den : Nat

namespace Ratio

/-- `n * 2 ^ exponent`. -/
def binary (n : Nat) (exponent : Int) : Ratio :=
  if 0 ≤ exponent then ⟨n * Nat.pow 2 exponent.toNat, 1⟩ else ⟨n, Nat.pow 2 (-exponent).toNat⟩

/-- `n * 10 ^ exponent`. -/
def decimal (n : Nat) (exponent : Int) : Ratio :=
  if 0 ≤ exponent then ⟨n * Nat.pow 10 exponent.toNat, 1⟩ else ⟨n, Nat.pow 10 (-exponent).toNat⟩

def le (a b : Ratio) : Bool := a.num * b.den ≤ b.num * a.den

def lt (a b : Ratio) : Bool := a.num * b.den < b.num * a.den

/-- The whole part of a fraction divided by a power of ten. -/
def floorOver (a : Ratio) (exponent : Int) : Nat :=
  if 0 ≤ exponent then a.num / (a.den * Nat.pow 10 exponent.toNat)
  else a.num * Nat.pow 10 (-exponent).toNat / a.den

def distance (a b : Ratio) : Ratio :=
  let x := a.num * b.den
  let y := b.num * a.den
  ⟨if x ≤ y then y - x else x - y, a.den * b.den⟩

end Ratio

/-- The numbers that round to a double, its two ends included for an even mantissa. -/
structure Interval where
  low : Ratio
  high : Ratio
  closed : Bool

namespace Interval

/-- The interval around a positive double. -/
def around (b : Binary) : Interval :=
  let lowStep := if b.mantissa = Nat.pow 2 52 && -1074 < b.exponent then 1 else 2
  ⟨.binary (b.mantissa * 4 - lowStep) (b.exponent - 2),
    .binary (b.mantissa * 4 + 2) (b.exponent - 2),
    b.mantissa % 2 = 0⟩

def holds (i : Interval) (x : Ratio) : Bool :=
  if i.closed then i.low.le x && x.le i.high else i.low.lt x && x.lt i.high

end Interval

/-- The number of decimal places before the point: the least `k` with the value below `10 ^ k`. -/
def magnitudeFrom (value : Ratio) : Nat → Int → Int
  | 0, k => k
  | fuel + 1, k =>
    if value.lt (.decimal 1 k) then
      if value.lt (.decimal 1 (k - 1)) then magnitudeFrom value fuel (k - 1) else k
    else magnitudeFrom value fuel (k + 1)

/-- The shortest digits of a positive double with the power of ten of the last digit, searched on
grids of ever more digits. -/
def shortestFrom (value : Ratio) (interval : Interval) (magnitude : Int) : Nat → Nat → Nat × Int
  | 0, count =>
    let exponent := magnitude - count
    (value.floorOver exponent, exponent)
  | fuel + 1, count =>
    let exponent := magnitude - count
    let below := value.floorOver exponent
    let above := below + 1
    let lower := Ratio.decimal below exponent
    let upper := Ratio.decimal above exponent
    match 0 < below && interval.holds lower, interval.holds upper with
    | true, true =>
      let toLower := value.distance lower
      let toUpper := value.distance upper
      if toLower.lt toUpper then (below, exponent)
      else if toUpper.lt toLower then (above, exponent)
      else (if below % 2 = 0 then below else above, exponent)
    | true, false => (below, exponent)
    | false, true => (above, exponent)
    | false, false => shortestFrom value interval magnitude fuel (count + 1)

/-- The digits of a number without trailing zeros, with the power of ten of the last one. -/
def stripZeros : Nat → Nat → Int → Nat × Int
  | 0, n, e => (n, e)
  | fuel + 1, n, e => if n % 10 = 0 && n ≠ 0 then stripZeros fuel (n / 10) (e + 1) else (n, e)

/-- Writes `digits * 10 ^ exponent`: positionally with at least one place after the point, or with
an exponent of at least two digits. -/
def writeDigits (digits : List Char) (exponent : Int) : List Char :=
  let point : Int := digits.length + exponent
  if -4 < point && point ≤ 16 then
    if point ≤ 0 then '0' :: '.' :: List.replicate (-point).toNat '0' ++ digits
    else if digits.length ≤ point.toNat then
      digits ++ List.replicate (point.toNat - digits.length) '0' ++ ['.', '0']
    else digits.take point.toNat ++ '.' :: digits.drop point.toNat
  else
    let power := point - 1
    let powerDigits := Nat.toDigits 10 power.natAbs
    digits.take 1 ++ (if digits.length = 1 then [] else '.' :: digits.drop 1) ++
      'e' :: (if power < 0 then '-' else '+') ::
      (if powerDigits.length < 2 then '0' :: powerDigits else powerDigits)

/-- The shortest text of a finite double, given by its bits. -/
def shortestOfBits (bits : Nat) : String :=
  let b := Binary.ofBits bits
  let body :=
    if b.mantissa = 0 then ['0', '.', '0']
    else
      let value := Ratio.binary b.mantissa b.exponent
      let magnitude := magnitudeFrom value 700 0
      let (n, e) := shortestFrom value (.around b) magnitude 17 1
      let (n, e) := stripZeros 20 n e
      writeDigits (Nat.toDigits 10 n) e
  String.ofList (if b.negative then '-' :: body else body)

/-- The shortest text of a double, infinities and the non-number included. -/
def shortest (x : Float) : String :=
  if x.isNaN then "nan"
  else if x.isInf then (if x < 0 then "-inf" else "inf")
  else shortestOfBits x.toBits.toNat

end ElementBinding.Text
