/-
# Writing a decimal

How the digits of a float are laid out: positionally (`12.5`, `0.001`, `1200`)
or with an exponent (`1.25e20`), and whether a whole number shows a fraction
(`3.0`).  `Layout` records the two decisions, each as a set of exponents of the
leading digit, and `Layout.float` writes any float by them.
-/

import FlatScript.Decimal.Shortest

namespace FlatScript
namespace Decimal

/-- What a 64-bit pattern of a float stands for. -/
inductive Reading where
  | nan
  | infinite (negative : Bool)
  | finite (negative : Bool) (value : Decimal)
deriving DecidableEq

/-- Reads a float: its sign, 11 bits of exponent and 52 bits of fraction.  The
largest exponent is for the infinities and for what is no number. -/
def Reading.ofFloat (x : Float) : Reading :=
  let bits := x.toBits.toNat
  let negative := bits / (0x800 * Magnitude.fractions) == 1
  let e := bits / Magnitude.fractions % 0x800
  let f := bits % Magnitude.fractions
  if e = 0x7ff then
    if f = 0 then .infinite negative else .nan
  else if e = 0 ∧ f = 0 then .finite negative ⟨0, 0⟩
  else .finite negative (Magnitude.ofFields e f).shortest

/-- The exponents of the leading digit for which a number is written
positionally, and those for which a positional whole number shows `.0`. -/
structure Layout where
  positional : Int → Bool
  pointed : Int → Bool

namespace Layout

/-- The given number of zeros. -/
def zeros (n : Nat) : String :=
  String.ofList (List.replicate n '0')

/-- Writes a decimal in positional form; `pointed` adds `.0` to a whole number. -/
def positionally (d : Decimal) (pointed : Bool) : String :=
  let ds := Nat.toDigits 10 d.digits
  if 0 ≤ d.exponent then
    String.ofList ds ++ zeros d.exponent.toNat ++ (if pointed then ".0" else "")
  else if 0 ≤ d.leading then
    let n := d.leading.toNat + 1
    String.ofList (ds.take n) ++ "." ++ String.ofList (ds.drop n)
  else
    "0." ++ zeros (-d.leading - 1).toNat ++ String.ofList ds

/-- Writes a decimal with one digit before the point and an exponent. -/
def exponentially (d : Decimal) : String :=
  let ds := Nat.toDigits 10 d.digits
  let tail := ds.drop 1
  String.ofList (ds.take 1) ++ (if tail.isEmpty then "" else "." ++ String.ofList tail) ++
    "e" ++ toString d.leading

/-- Writes a decimal as the layout says. -/
def decimal (l : Layout) (d : Decimal) : String :=
  if l.positional d.leading then positionally d (l.pointed d.leading) else exponentially d

/-- Writes a float as the layout says; a zero keeps its sign. -/
def float (l : Layout) (x : Float) : String :=
  match Reading.ofFloat x with
  | .nan => "NaN"
  | .infinite negative => if negative then "-inf" else "inf"
  | .finite negative d => (if negative then "-" else "") ++ l.decimal d

end Layout
end Decimal
end FlatScript
