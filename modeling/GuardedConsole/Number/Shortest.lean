import GuardedConsole.Number.Binary64

/-!
# Decimal texts of doubles

`shortest` finds the fewest decimal digits that round back to a double, and among those the
nearest. `Binary64.text` writes them positionally for exponents from -4 to 15 and with an exponent
otherwise. `Binary64.sixDigits` writes at most six significant digits.
-/

namespace GuardedConsole.Number

namespace Binary64

def readsBack (m : Nat) (q : Int) (n : Nat) (e : Int) : Bool :=
  ofDecimal false n e == .finite false m q

/-- The exponent `k` with `10^(k-1) ≤ num / den < 10^k`, for positive `num` and `den`. -/
def decimalExponent (num den : Nat) : Int :=
  let k : Int := ((natText num).length : Int) - (natText den).length
  if den * Nat.pow 10 k.toNat ≤ num * Nat.pow 10 (-k).toNat then k + 1 else k

/-- The two neighbours of `m · 2^q` on the grid of multiples of `10^e`, the nearer one first, the
even one first if they are equally near. -/
def gridNeighbours (m : Nat) (q e : Int) : Nat × Nat :=
  let (num, den) := scaled m q
  let top := num * Nat.pow 10 (-e).toNat
  let bottom := den * Nat.pow 10 e.toNat
  let below := top / bottom
  if roundQuotient top bottom = below then (below, below + 1) else (below + 1, below)

/-- The shortest digits for `m · 2^q` with at most `width + fuel` digits, as a pair `(n, e)` that
stands for `n · 10^e`; grids of `width` digits and more are tried in turn. -/
def shortestFrom (m : Nat) (q k : Int) : Nat → Nat → Nat × Int
  | 0, width => let e := k - width; ((gridNeighbours m q e).1, e)
  | fuel + 1, width =>
    let e := k - width
    let (near, far) := gridNeighbours m q e
    if readsBack m q near e then (near, e)
    else if readsBack m q far e then (far, e)
    else shortestFrom m q k fuel (width + 1)

def shortest (m : Nat) (q : Int) : Nat × Int :=
  let (num, den) := scaled m q
  shortestFrom m q (decimalExponent num den) 16 1

def withoutTrailingZeros (digits : Text) : Text :=
  Text.dropEndWhile (· == '0') digits

def exponentText (e : Int) : Text :=
  .char 'e' :: .char (if e < 0 then '-' else '+') :: padded 2 e.natAbs

/-- Digits `d₁d₂…` standing for `0.d₁d₂… · 10^k`, written positionally. With `keepPoint` a whole
number ends in `.0`. -/
def positional (digits : Text) (k : Int) (keepPoint : Bool) : Text :=
  if k ≤ 0 then "0.".toText ++ List.replicate (-k).toNat (.char '0') ++ digits
  else
    let n := k.toNat
    if digits.length ≤ n then
      digits ++ List.replicate (n - digits.length) (.char '0') ++
        (if keepPoint then ".0".toText else [])
    else digits.take n ++ .char '.' :: digits.drop n

def scientific (digits : Text) (k : Int) : Text :=
  (match digits with
    | [] => []
    | [d] => [d]
    | d :: ds => d :: .char '.' :: ds) ++ exponentText (k - 1)

def signText (negative : Bool) : Text :=
  if negative then [.char '-'] else []

def text : Binary64 → Text
  | .nan => "nan".toText
  | .infinite s => signText s ++ "inf".toText
  | .finite s m q =>
    if m = 0 then signText s ++ "0.0".toText
    else
      let (n, e) := shortest m q
      let digits := natText n
      let k := e + digits.length
      let kept := withoutTrailingZeros digits
      signText s ++ (if -4 < k ∧ k ≤ 16 then positional kept k true else scientific kept k)

def sixDigits : Binary64 → Text
  | .nan => "nan".toText
  | .infinite s => signText s ++ "inf".toText
  | .finite s m q =>
    if m = 0 then signText s ++ [.char '0']
    else
      let (num, den) := scaled m q
      let e := decimalExponent num den - 6
      let n := roundQuotient (num * Nat.pow 10 (-e).toNat) (den * Nat.pow 10 e.toNat)
      let digits := natText n
      let k := e + digits.length
      let kept := withoutTrailingZeros digits
      signText s ++ (if -4 < k ∧ k ≤ 6 then positional kept k false else scientific kept k)

end Binary64

end GuardedConsole.Number
