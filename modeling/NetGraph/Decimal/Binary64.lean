/-!
# Decimal numbers and binary64

* `Binary64` : a finite non-negative number `mantissa * 2 ^ exponent` of the format binary64;
* `Binary64.ofDecimal?` : the nearest one to `m * 10 ^ e`, a half going to the even mantissa; `none`
  where that is infinite;
* `Binary64.shortest` : the fewest decimal digits that read back as the number, and of those the
  nearest to it;
* `Binary64.positional` : the digits written out without an exponent.
-/

namespace NetGraph

/-- `mantissa * 2 ^ exponent`, with `mantissa < 2 ^ 53` and `-1074 ≤ exponent ≤ 971`. -/
structure Binary64 where
  mantissa : Nat
  exponent : Int
  deriving DecidableEq, Repr

namespace Binary64

/-- The least mantissa of a number that is not among the smallest: half of the bound on mantissas. -/
def leastMantissa : Nat := 0x10000000000000

/-- `x` divided by `y`, to the nearest, a half to the even one. -/
def divNearest (x y : Nat) : Nat :=
  let q := x / y
  let r := 2 * (x % y)
  if r < y ∨ (r = y ∧ q % 2 = 0) then q else q + 1

/-- `x * 2 ^ e / y` as a quotient of naturals. -/
def scaled (x y : Nat) (e : Int) : Nat × Nat :=
  if e < 0 then (x, y <<< e.natAbs) else (x <<< e.natAbs, y)

/-- The binary64 number nearest to `x / y`, with `x` and `y` positive. -/
def ofQuotient? (x y : Nat) : Option Binary64 :=
  let guess : Int := (Nat.log2 x : Int) - Nat.log2 y - 52
  let (a, b) := scaled x y (-guess)
  let least := if a / b < leastMantissa then guess - 1 else guess
  let q := max least (-1074)
  let (a, b) := scaled x y (-q)
  let m := divNearest a b
  let (m, q) := if m = 2 * leastMantissa then (leastMantissa, q + 1) else (m, q)
  if q > 971 then none else some ⟨m, q⟩

/-- The binary64 number nearest to `m * 10 ^ e`. -/
def ofDecimal? (m : Nat) (e : Int) : Option Binary64 :=
  if m = 0 then some ⟨0, -1074⟩
  else
    let digits : Int := (toString m).length
    if digits + e > 310 then none
    else if digits + e < -330 then some ⟨0, -1074⟩
    else if e < 0 then ofQuotient? m (Nat.pow 10 e.natAbs)
    else ofQuotient? (m * Nat.pow 10 e.natAbs) 1

/-- The points of the grid `10 ^ k` beside the number that read back as it: the nearer one first, and of two
equally near ones the greater. -/
def gridHits (x : Binary64) (k : Int) : List Nat :=
  -- four times the number, and the ends of its interval, in units of `2 ^ (exponent - 2)`
  let mid := 4 * x.mantissa
  let low := if x.mantissa = leastMantissa ∧ x.exponent > -1074 then mid - 1 else mid - 2
  let high := mid + 2
  -- a grid point `g` is `g * num / den` of those units
  let (num, den) := scaled (if k < 0 then 1 else Nat.pow 10 k.natAbs)
    (if k < 0 then Nat.pow 10 k.natAbs else 1) (2 - x.exponent)
  let isHit (g : Nat) : Bool :=
    let p := g * num
    if x.mantissa % 2 = 0 then low * den ≤ p && p ≤ high * den
    else low * den < p && p < high * den
  let below := mid * den / num
  let distance (g : Nat) : Nat := if g * num ≤ mid * den then mid * den - g * num
    else g * num - mid * den
  let near := if distance below < distance (below + 1) then [below, below + 1]
    else [below + 1, below]
  near.filter isHit

/-- The first grid of `10 ^ top`, `10 ^ (top - 1)`, … with a point that reads back. -/
def firstHit (x : Binary64) (top : Int) : Nat → Nat × Int
  | 0 => (0, 0)
  | n + 1 => match gridHits x top with
    | g :: _ => (g, top)
    | [] => firstHit x (top - 1) n

/-- Digits `d` and a power `k` with `d * 10 ^ k` the shortest decimal that reads back as `x`. -/
def shortest (x : Binary64) : Nat × Int :=
  if x.mantissa = 0 then (0, 0)
  else
    -- no decimal digit is worth more than this
    let top := ((Nat.log2 x.mantissa : Int) + x.exponent) * 30103 / 100000 + 1
    firstHit x top 20

/-- Without an exponent, and with a point followed by a digit. -/
def positional (x : Binary64) : String :=
  let (d, k) := x.shortest
  let digits := (toString d).toList
  if 0 ≤ k then String.ofList (digits ++ List.replicate k.natAbs '0') ++ ".0"
  else
    let places := k.natAbs
    let padded := List.replicate (places + 1 - digits.length) '0' ++ digits
    String.ofList (padded.take (padded.length - places)) ++ "."
      ++ String.ofList (padded.drop (padded.length - places))

end Binary64
end NetGraph
