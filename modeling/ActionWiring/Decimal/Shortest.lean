
namespace ActionWiring.Decimal

def leadingBit : Nat := 0x10000000000000

structure Binary where
  significand : Nat
  exponent : Int
  deriving DecidableEq, Repr

structure Expansion where
  digits : Nat
  exponent : Int
  deriving DecidableEq, Repr

structure Interval where
  low : Nat
  value : Nat
  high : Nat
  denominator : Nat
  closed : Bool

namespace Interval

def ofBinary (b : Binary) : Interval :=
  let near := b.significand == leadingBit && b.exponent > -1074
  let up := Nat.pow 2 (b.exponent - 2).toNat
  { low := (4 * b.significand - if near then 1 else 2) * up
    value := 4 * b.significand * up
    high := (4 * b.significand + 2) * up
    denominator := Nat.pow 2 (2 - b.exponent).toNat
    closed := b.significand % 2 == 0 }

def contains (i : Interval) (num den : Nat) : Bool :=
  let x := num * i.denominator
  if i.closed then i.low * den ≤ x && x ≤ i.high * den
  else i.low * den < x && x < i.high * den

def leading (i : Interval) : Int :=
  if i.denominator ≤ i.value then ((Nat.toDigits 10 (i.value / i.denominator)).length : Int) - 1
  else
    match (List.range 400).find? fun n => i.denominator ≤ i.value * Nat.pow 10 n with
    | some n => -(n : Int)
    | none => -400

def onGrid? (i : Interval) (exponent : Int) : Option Nat :=
  let num := Nat.pow 10 exponent.toNat
  let den := Nat.pow 10 (-exponent).toNat
  let below := i.value * den / (i.denominator * num)
  let above := below + 1
  match i.contains (below * num) den, i.contains (above * num) den with
  | false, false => none
  | true, false => some below
  | false, true => some above
  | true, true =>
      let twice := 2 * i.value * den
      let middle := (below + above) * i.denominator * num
      if twice < middle then some below
      else if middle < twice then some above
      else if below % 2 == 0 then some below else some above

end Interval

def Expansion.trim (d : Expansion) : Expansion :=
  let zeros := ((Nat.toDigits 10 d.digits).reverse.takeWhile (· == '0')).length
  if d.digits = 0 then d else ⟨d.digits / Nat.pow 10 zeros, d.exponent + zeros⟩

def shortest (b : Binary) : Expansion :=
  let i := Interval.ofBinary b
  let lead := i.leading
  let grids := (List.range 17).map fun n : Nat => lead - (n : Int)
  match grids.findSome? fun e => (i.onGrid? e).map fun d => (⟨d, e⟩ : Expansion) with
  | some d => d.trim
  | none => ⟨0, 0⟩

end ActionWiring.Decimal
