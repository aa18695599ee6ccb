/-!
# Reading decimal numbers as doubles

The digits of a number are collected into a 64 bit significand until the next one would no longer
fit; later digits only move the exponent or are dropped. `scaled` turns significand and exponent
into a double by one multiplication or division with a power of ten, after divisions by `10^308`
for very small numbers. A number too large for a double has no reading.
-/

namespace PromptStudio

/-- The largest significand. -/
def significandLimit : Nat := Nat.pow 2 64 - 1

/-- The power `10^n` as a double, for `n ≤ 308`. -/
def powerOfTen (n : Nat) : Float := Float.ofScientific 1 false n

/-- Scales `x` by `10^exponent`. Below `10^-308` the scaling is done in steps, of which `fuel` are
allowed; with four steps every double has become zero. -/
def scaleBy (fuel : Nat) (x : Float) (exponent : Int) : Option Float :=
  if exponent.natAbs ≤ 308 then
    if 0 ≤ exponent then
      let y := x * powerOfTen exponent.toNat
      if y.isInf then none else some y
    else some (x / powerOfTen exponent.natAbs)
  else if x == 0 then some x
  else if 0 ≤ exponent then none
  else
    match fuel with
    | 0 => some 0
    | fuel + 1 => scaleBy fuel (x / powerOfTen 308) (exponent + 308)

/-- The double for `significand · 10^exponent`, negated if `negative`. -/
def scaled (negative : Bool) (significand : Nat) (exponent : Int) : Option Float :=
  (scaleBy 4 (UInt64.ofNat significand).toFloat exponent).map fun x => if negative then -x else x

/-- Takes one more digit into the significand, if it fits. -/
def pushDigit? (significand digit : Nat) : Option Nat :=
  let next := significand * 10 + digit
  if next ≤ significandLimit then some next else none

/-- Takes digits into the significand until one does not fit; also gives how many were taken. -/
def takeDigits (significand : Nat) : List Nat → Nat × Nat
  | [] => (significand, 0)
  | d :: ds =>
    match pushDigit? significand d with
    | some next => let (s, n) := takeDigits next ds; (s, n + 1)
    | none => (significand, 0)

end PromptStudio
