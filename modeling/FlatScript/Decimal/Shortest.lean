/-
# The fewest decimal digits that read back

A finite binary64 number is `m · 2 ^ q` with a sign.  The reals that round to
it form an interval around it: half a gap above, half a gap below (a quarter
when `m` is the least mantissa of its exponent, for the gap below is then half
as wide), both ends included exactly when `m` is even.

`Magnitude.shortest` is the decimal of fewest digits in that interval, and of
two such decimals the nearer one; of two equally near ones, the larger.  It is
found on the grids of 1, 2, … 17 significant digits, looking only at the two
neighbours of the number on each grid, in exact natural-number arithmetic.
-/

namespace FlatScript

/-- The decimal number `digits · 10 ^ exponent`. -/
structure Decimal where
  digits : Nat
  exponent : Int
deriving DecidableEq

namespace Decimal

/-- The number of decimal digits of a natural number; zero has one. -/
def digitCount (n : Nat) : Nat :=
  (Nat.toDigits 10 n).length

/-- The exponent of the leading digit. -/
def leading (d : Decimal) : Int :=
  d.exponent + digitCount d.digits - 1

/-- The same number without zeros at the end of its digits. -/
def normalize (d : Decimal) : Decimal :=
  if h : d.digits ≠ 0 ∧ d.digits % 10 = 0 then
    normalize ⟨d.digits / 10, d.exponent + 1⟩
  else d
termination_by d.digits
decreasing_by omega

/-- A positive finite binary64 number, as the fraction `num / den`.  The reals
between `num - below` and `num + above` over `den` round to it, the two ends
only when `closed` holds. -/
structure Magnitude where
  num : Nat
  den : Nat
  below : Nat
  above : Nat
  closed : Bool
deriving DecidableEq

namespace Magnitude

/-- The number of patterns of the fraction field, 2 to the 52nd. -/
def fractions : Nat := 0x10000000000000

/-- The number with biased exponent `e` and fraction field `f`, counted in
quarters of the gap above it. -/
def ofFields (e f : Nat) : Magnitude :=
  let m := if e = 0 then f else fractions + f
  let q := if e = 0 then 1 else e
  let below := if f = 0 ∧ 1 < e then 1 else 2
  if 1077 ≤ q then
    let unit := Nat.pow 2 (q - 1077)
    ⟨4 * m * unit, 1, below * unit, 2 * unit, m % 2 == 0⟩
  else
    ⟨4 * m, Nat.pow 2 (1077 - q), below, 2, m % 2 == 0⟩

/-- The exponent `k` of the leading digit: `10 ^ k ≤ num / den < 10 ^ (k + 1)`. -/
def leading (x : Magnitude) : Int :=
  if x.den ≤ x.num then digitCount (x.num / x.den) - 1
  else -digitCount ((x.den - 1) / x.num)

/-- The same number in units of `10 ^ g`. -/
def inUnits (x : Magnitude) (g : Int) : Magnitude :=
  if 0 ≤ g then { x with den := x.den * Nat.pow 10 g.toNat }
  else
    let s := Nat.pow 10 (-g).toNat
    { x with num := x.num * s, below := x.below * s, above := x.above * s }

/-- Whether the natural number `c` rounds to the number. -/
def admits (x : Magnitude) (c : Nat) : Bool :=
  let p := c * x.den
  if x.closed then x.num ≤ p + x.below && p ≤ x.num + x.above
  else x.num < p + x.below && p < x.num + x.above

/-- The natural number nearest to the number; of two, the larger. -/
def nearest (x : Magnitude) : Nat :=
  (2 * x.num + x.den) / (2 * x.den)

/-- The natural number that rounds to the number: the nearer neighbour if it
does, else the other one if that does. -/
def neighbour? (x : Magnitude) : Option Nat :=
  let low := x.num / x.den
  let near := x.nearest
  let far := if near = low then low + 1 else low
  if x.admits near then some near else if x.admits far then some far else none

/-- The decimal of the fewest digits, at least `n`, that rounds to the number,
looking on `tries` grids; past them, the nearest decimal of `n` digits. -/
def shortestFrom (x : Magnitude) (n : Nat) : Nat → Decimal
  | 0 =>
    let g := x.leading + 1 - n
    ⟨(x.inUnits g).nearest, g⟩
  | tries + 1 =>
    let g := x.leading + 1 - n
    match (x.inUnits g).neighbour? with
    | some c => ⟨c, g⟩
    | none => shortestFrom x (n + 1) tries

/-- The decimal of fewest digits that rounds to the number, the nearest of
those; 17 digits always do. -/
def shortest (x : Magnitude) : Decimal :=
  (x.shortestFrom 1 16).normalize

/-- One tenth, the least and the largest positive number, and two to the 53rd. -/
example : (ofFields 1019 0x999999999999a).shortest = ⟨1, -1⟩ ∧
    (ofFields 0 1).shortest = ⟨5, -324⟩ ∧
    (ofFields 2046 (fractions - 1)).shortest = ⟨17976931348623157, 292⟩ ∧
    (ofFields 1076 0).shortest = ⟨9007199254740992, 0⟩ := by decide +kernel

end Magnitude
end Decimal
end FlatScript
