/-!
# Decimal texts of floating point numbers

`Decimal.shortest` finds, for a positive double `m · 2^q`, the decimal with the fewest digits that
lies among the reals rounding to it, and of several the nearest. It walks from coarse grids of
powers of ten to finer ones and takes the first grid with a point in that range; on a grid only the
two neighbours of the number matter. `Decimal.compact` and `Decimal.positional` are the two ways
such a decimal is written here: JSON texts switch to an exponent for large and small numbers, plain
listings never do.
-/

namespace PromptStudio

/-- The number `digits · 10^exponent`. -/
structure Decimal where
  digits : Nat
  exponent : Int
deriving DecidableEq, Repr

namespace Decimal

/-- A positive double: `mantissa · 2^exponent`, and whether the gap below it is half the gap above
it. -/
structure Double where
  mantissa : Nat
  exponent : Int
  narrowBelow : Bool
deriving DecidableEq, Repr

/-- Takes the bits of a finite positive double apart. -/
def Double.ofBits (bits : UInt64) : Double :=
  let biased : Nat := (bits.toNat / Nat.pow 2 52) % Nat.pow 2 11
  let fraction : Nat := bits.toNat % Nat.pow 2 52
  if biased = 0 then ⟨fraction, -1074, false⟩
  else ⟨Nat.pow 2 52 + fraction, (biased : Int) - 1075, fraction = 0 && 1 < biased⟩

/-- The grid of multiples of `10^k`, measured against a double: `unit` is one grid step and `low`,
`value`, `high` are the double and the ends of the range that rounds to it, all in quarters of the
double's last place over a common denominator. -/
structure Grid where
  unit : Nat
  low : Nat
  value : Nat
  high : Nat
  closed : Bool

/-- The grid of multiples of `10^k` for `d`. The ends of the range belong to it exactly if the
mantissa is even. -/
def Grid.of (d : Double) (k : Int) : Grid :=
  let scale := Nat.pow 2 (d.exponent - 2).toNat * Nat.pow 10 (-k).toNat
  { unit := Nat.pow 2 (2 - d.exponent).toNat * Nat.pow 10 k.toNat
    low := (4 * d.mantissa - if d.narrowBelow then 1 else 2) * scale
    value := 4 * d.mantissa * scale
    high := (4 * d.mantissa + 2) * scale
    closed := d.mantissa % 2 = 0 }

/-- The grid point number `n` rounds to the double. -/
def Grid.hits (g : Grid) (n : Nat) : Bool :=
  if g.closed then g.low ≤ n * g.unit && n * g.unit ≤ g.high
  else g.low < n * g.unit && n * g.unit < g.high

/-- The number of the grid point that stands for the double, if any rounds to it. A tie goes to the
even number. -/
def Grid.point? (g : Grid) : Option Nat :=
  let n := g.value / g.unit
  match n != 0 && g.hits n, g.hits (n + 1) with
  | false, false => none
  | true, false => some n
  | false, true => some (n + 1)
  | true, true =>
    let below := g.value - n * g.unit
    let above := (n + 1) * g.unit - g.value
    if below < above || (below == above && n % 2 == 0) then some n else some (n + 1)

/-- Drops zeros at the end of the digits. -/
def trimZeros (fuel : Nat) (d : Decimal) : Decimal :=
  match fuel with
  | 0 => d
  | fuel + 1 =>
    if d.digits % 10 = 0 && d.digits != 0 then trimZeros fuel ⟨d.digits / 10, d.exponent + 1⟩ else d

/-- The decimal with the fewest digits that rounds to `d`. A double has at most seventeen
significant digits, and the first grid lies above all of them. -/
def shortest (d : Double) : Decimal :=
  let top : Int := (d.exponent + d.mantissa.log2 + 1) * 30103 / 100000 + 1
  let points := (List.range 20).findSome? fun (i : Nat) =>
    (Grid.of d (top - i)).point?.map fun n => (⟨n, top - i⟩ : Decimal)
  trimZeros 20 (points.getD ⟨0, 0⟩)

/-- The digits as text. -/
def digitText (d : Decimal) : String := toString d.digits

/-- `n` zeros. -/
def zeros (n : Nat) : String := String.ofList (List.replicate n '0')

/-- Never uses an exponent, and no point for a whole number. -/
def positional (d : Decimal) : String :=
  let text := d.digitText
  if 0 ≤ d.exponent then text ++ zeros d.exponent.toNat
  else
    let places := (-d.exponent).toNat
    if places < text.length then
      String.ofList (text.toList.take (text.length - places)) ++ "." ++
        String.ofList (text.toList.drop (text.length - places))
    else "0." ++ zeros (places - text.length) ++ text

/-- Uses an exponent from `10^16` on and below `10^-5`, and always a point or an exponent. -/
def compact (d : Decimal) : String :=
  let text := d.digitText
  let point := d.exponent + text.length
  if -5 < point && point ≤ 16 then
    if 0 ≤ d.exponent then d.positional ++ ".0" else d.positional
  else
    let rest := String.ofList (text.toList.drop 1)
    String.ofList (text.toList.take 1) ++ (if rest.isEmpty then "" else "." ++ rest) ++
      "e" ++ toString (point - 1)

end Decimal

/-! ## Doubles as text -/

/-- Has the sign of a negative number, minus zero included. -/
def isSigned (x : Float) : Bool := Nat.pow 2 63 ≤ x.toBits.toNat

/-- The text of a finite double, its magnitude written by `write` and zero as `zero`. -/
def signedText (zero : String) (write : Decimal → String) (x : Float) : String :=
  let bits := x.toBits.toNat % Nat.pow 2 63
  (if isSigned x then "-" else "") ++
    if bits = 0 then zero else write (Decimal.shortest (.ofBits (UInt64.ofNat bits)))

/-- A finite double in a JSON text. -/
def compactText (x : Float) : String := signedText "0.0" Decimal.compact x

/-- A finite double in a listing. -/
def positionalText (x : Float) : String := signedText "0" Decimal.positional x

example : Decimal.shortest (.ofBits 0x3FB999999999999A) = ⟨1, -1⟩ := by decide +kernel
example : Decimal.shortest (.ofBits 0x4077C00000000000) = ⟨38, 1⟩ := by decide +kernel
example : Decimal.shortest (.ofBits 1) = ⟨5, -324⟩ := by decide +kernel
example : (⟨12345, -2⟩ : Decimal).compact = "123.45" := by decide +kernel
example : (⟨1, 16⟩ : Decimal).compact = "1e16" := by decide +kernel
example : (⟨125, -9⟩ : Decimal).positional = "0.000000125" := by decide +kernel

end PromptStudio
