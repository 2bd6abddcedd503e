import GuardedConsole.Number.Digits

/-!
# Binary floating-point numbers

A `Binary64` is a number of the double format: a significand below 2⁵³ times a power of two, a
signed infinity, or not a number. Every operation here computes the exact rational result and
rounds it once, to nearest with ties to even (`roundRatio`).
-/

namespace GuardedConsole.Number

/-- A double: `finite s m e` is `m · 2^e` with the sign `s`. -/
inductive Binary64 where
  | nan
  | infinite (negative : Bool)
  | finite (negative : Bool) (significand : Nat) (exponent : Int)
deriving DecidableEq

namespace Binary64

def minExponent : Int := -1074

def maxExponent : Int := 971

def zero (negative : Bool) : Binary64 :=
  .finite negative 0 minExponent

/-- The natural `n` times two to the power of `e`, as numerator and denominator. -/
def scaled (n : Nat) (e : Int) : Nat × Nat :=
  (n * Nat.pow 2 e.toNat, Nat.pow 2 (-e).toNat)

def roundQuotient (num den : Nat) : Nat :=
  let q := num / den
  let r := num % den
  if 2 * r > den ∨ (2 * r = den ∧ q % 2 = 1) then q + 1 else q

/-- The greatest `k` with `2^k ≤ num / den`, for positive `num` and `den`. -/
def floorLog2 (num den : Nat) : Int :=
  let k : Int := (num.log2 : Int) - den.log2
  if den * Nat.pow 2 k.toNat ≤ num * Nat.pow 2 (-k).toNat then k else k - 1

def roundRatio (negative : Bool) (num den : Nat) : Binary64 :=
  if num = 0 then zero negative
  else
    let e := max (floorLog2 num den - 52) minExponent
    let m := roundQuotient (num * Nat.pow 2 (-e).toNat) (den * Nat.pow 2 e.toNat)
    if m = 0x20000000000000 then
      if e + 1 > maxExponent then .infinite negative else .finite negative 0x10000000000000 (e + 1)
    else if e > maxExponent then .infinite negative
    else .finite negative m e

/-- The double nearest to `n · 10^e`. Magnitudes beyond the range of the format are settled by the
number of digits alone. -/
def ofDecimal (negative : Bool) (n : Nat) (e : Int) : Binary64 :=
  let magnitude : Int := (natText n).length + e
  if n = 0 then zero negative
  else if magnitude > 400 then .infinite negative
  else if magnitude < -400 then zero negative
  else roundRatio negative (n * Nat.pow 10 e.toNat) (Nat.pow 10 (-e).toNat)

def ofNumeral (n : Numeral) : Binary64 :=
  let fraction := n.fraction.getD []
  ofDecimal n.negative (ofDigits (n.whole ++ fraction)) (-(fraction.length : Int))

def ofIntRatio (i : Int) (den : Nat) : Binary64 :=
  roundRatio (decide (i < 0)) i.natAbs den

def divNat (x : Binary64) (den : Nat) : Binary64 :=
  match x with
  | .finite s m e => let (num, unit) := scaled m e; roundRatio s num (unit * den)
  | other => other

def isZero : Binary64 → Bool
  | .finite _ 0 _ => true
  | _ => false

def toInt? : Binary64 → Option Int
  | .finite s m e =>
    let (num, den) := scaled m e
    if num % den = 0 then
      let n : Int := (num / den : Nat)
      some (if s then -n else n)
    else none
  | _ => none

/-- Equality of numbers: zeros of both signs are equal, and nothing is equal to not-a-number. -/
def numEq (x y : Binary64) : Bool :=
  match x, y with
  | .nan, _ => false
  | _, .nan => false
  | x, y => (x.isZero && y.isZero) || x == y

end Binary64

end GuardedConsole.Number
