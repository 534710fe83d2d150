import ActionWiring.Decimal.Shortest

namespace ActionWiring.Json

inductive Number where
  | integer (value : Int)
  | float (value : Float)

structure Numeral where
  negative : Bool
  integer : List Char
  fraction : List Char
  exponent : Option (Bool × List Char)
  deriving DecidableEq, Repr

namespace Numeral

def exponentOf : List Char → Option (Bool × List Char)
  | [] => none
  | _ :: '-' :: digits => some (true, digits)
  | _ :: '+' :: digits => some (false, digits)
  | _ :: digits => some (false, digits)

def ofChars (numeral : List Char) : Numeral :=
  let negative := numeral.head? == some '-'
  let unsigned := if negative then numeral.drop 1 else numeral
  let rest := unsigned.dropWhile Char.isDigit
  let integer := unsigned.takeWhile Char.isDigit
  if rest.head? == some '.' then
    let tail := rest.drop 1
    { negative, integer, fraction := tail.takeWhile Char.isDigit
      exponent := exponentOf (tail.dropWhile Char.isDigit) }
  else { negative, integer, fraction := [], exponent := exponentOf rest }

end Numeral

def digitValue (c : Char) : Nat := c.toNat - '0'.toNat

def digitsValue (digits : List Char) : Nat :=
  digits.foldl (fun n c => n * 10 + digitValue c) 0

def wordLimit : Nat := 0x10000000000000000

def signedLimit : Nat := 0x8000000000000000

def takeDigits (significand : Nat) : List Char → Nat × List Char
  | [] => (significand, [])
  | c :: cs =>
      let longer := significand * 10 + digitValue c
      if longer < wordLimit then takeDigits longer cs else (significand, c :: cs)

def powerOfTen (n : Nat) : Float := Float.ofScientific 1 false n

def divideByPower (f : Float) (n : Nat) : Float :=
  if n ≤ 308 then f / powerOfTen n
  else if f == 0.0 then f
  else divideByPower (f / powerOfTen 308) (n - 308)
termination_by n
decreasing_by omega

def scale? (significand : Nat) (exponent : Int) : Option Float :=
  let f := (UInt64.ofNat significand).toFloat
  if exponent < 0 then some (divideByPower f exponent.natAbs)
  else if exponent ≤ 308 then
    let scaled := f * powerOfTen exponent.toNat
    if scaled.isInf then none else some scaled
  else if significand = 0 then some f
  else none

def maxExponent : Nat := 0x7fffffff

def Numeral.magnitude? (n : Numeral) : Option Float :=
  let whole := takeDigits 0 n.integer
  let all := takeDigits whole.1 n.fraction
  let shift : Int := (whole.2.length : Int) - ((n.fraction.length - all.2.length : Nat) : Int)
  match n.exponent with
  | none => scale? all.1 shift
  | some (negative, digits) =>
      let e := digitsValue digits
      if e ≤ maxExponent then scale? all.1 (shift + if negative then -(e : Int) else e)
      else if negative || all.1 == 0 then some 0.0
      else none

def Number.ofNumeral? (n : Numeral) : Option Number :=
  let whole := digitsValue n.integer
  if n.fraction.isEmpty && n.exponent.isNone && decide (whole < wordLimit) then
    if !n.negative then some (.integer whole)
    else if 0 < whole ∧ whole ≤ signedLimit then some (.integer (-(whole : Int)))
    else some (.float (-(UInt64.ofNat whole).toFloat))
  else n.magnitude?.map fun f => .float (if n.negative then -f else f)

structure FloatFormat where
  leastPositional : Int
  leastScientific : Int
  positiveExponent : String

def floatFormat : FloatFormat := ⟨-5, 16, "e+"⟩

namespace FloatFormat

def digits (format : FloatFormat) (ds : List Char) (lead : Int) : String :=
  if format.leastPositional ≤ lead && lead < format.leastScientific then
    if lead < 0 then
      String.ofList (['0', '.'] ++ List.replicate (lead.natAbs - 1) '0' ++ ds)
    else
      let whole := lead.toNat + 1
      let fraction := ds.drop whole
      String.ofList (ds.take whole ++ List.replicate (whole - ds.length) '0' ++ ['.'] ++
        if fraction.isEmpty then ['0'] else fraction)
  else
    let mark := if lead < 0 then "e-" else format.positiveExponent
    let mantissa := match ds with
      | [] => []
      | [d] => [d]
      | d :: rest => d :: '.' :: rest
    String.ofList mantissa ++ mark ++ toString lead.natAbs

end FloatFormat

def binaryOfBits (bits : Nat) : Decimal.Binary :=
  let fraction := bits % Decimal.leadingBit
  let biased := bits / Decimal.leadingBit
  if biased = 0 then ⟨fraction, -1074⟩
  else ⟨Decimal.leadingBit + fraction, (biased : Int) - 1075⟩

def floatText (f : Float) : String :=
  let bits := f.toBits.toNat
  let sign := if bits < signedLimit then "" else "-"
  let binary := binaryOfBits (bits % signedLimit)
  if binary.significand = 0 then sign ++ "0.0"
  else
    let d := Decimal.shortest binary
    let ds := Nat.toDigits 10 d.digits
    sign ++ floatFormat.digits ds (d.exponent + (ds.length : Int) - 1)

end ActionWiring.Json
