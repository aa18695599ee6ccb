import PromptStudio.Json.Source
import PromptStudio.Number.Scaled
import PromptStudio.Text.Lossy

/-!
# Reading JSON texts

`Source.read` reads octets as one JSON value with blanks around it. The reader checks the grammar of
the whole text, but leaves it open whether every part has a value: see `Source.unreadable`. Text is
made of octets and of escaped UTF-16 units, which are paired only when the text is complete.
-/

namespace PromptStudio.Json.Reader

open PromptStudio.Text

/-- How many containers may be open at once, plus one. -/
def roomLimit : Nat := 128

/-- A blank of the grammar: space, tab, line feed or carriage return. -/
def isGap (b : UInt8) : Bool := b == 0x20 || b == 0x09 || b == 0x0A || b == 0x0D

/-- Drops blanks of the grammar. -/
def skipGap (bs : List UInt8) : List UInt8 := bs.dropWhile isGap

/-- The octet of a decimal digit. -/
def isDigit (b : UInt8) : Bool := 0x30 ≤ b && b ≤ 0x39

/-- The digits at the start of `bs`, and what follows them. -/
def takeDigitRun (bs : List UInt8) : List Nat × List UInt8 :=
  ((bs.takeWhile isDigit).map fun b => b.toNat - 0x30, bs.dropWhile isDigit)

/-- The value of a hexadecimal digit. -/
def hexDigit? (b : UInt8) : Option Nat :=
  let n := b.toNat
  if 0x30 ≤ n && n ≤ 0x39 then some (n - 0x30)
  else if 0x41 ≤ n && n ≤ 0x46 then some (n - 0x37)
  else if 0x61 ≤ n && n ≤ 0x66 then some (n - 0x57)
  else none

/-! ## Text -/

/-- A piece of a text: an octet, or a UTF-16 unit written as an escape. -/
inductive Piece
  | octet (b : UInt8)
  | unit (u : Nat)

/-- The octet that an escape of one letter stands for. -/
def escape? (b : UInt8) : Option UInt8 :=
  if b == 0x22 || b == 0x5C || b == 0x2F then some b
  else if b == 0x62 then some 0x08
  else if b == 0x66 then some 0x0C
  else if b == 0x6E then some 0x0A
  else if b == 0x72 then some 0x0D
  else if b == 0x74 then some 0x09
  else none

/-- Reads a text up to its closing quote. -/
def pieces? : List UInt8 → Option (List Piece × List UInt8)
  | [] => none
  | 0x22 :: rest => some ([], rest)
  | 0x5C :: 0x75 :: a :: b :: c :: d :: rest =>
    match hexDigit? a, hexDigit? b, hexDigit? c, hexDigit? d with
    | some a, some b, some c, some d =>
      (pieces? rest).map fun r => (.unit (((a * 16 + b) * 16 + c) * 16 + d) :: r.1, r.2)
    | _, _, _, _ => none
  | 0x5C :: e :: rest =>
    match escape? e with
    | some b => (pieces? rest).map fun r => (.octet b :: r.1, r.2)
    | none => none
  | b :: rest =>
    if b < 0x20 || b == 0x5C then none
    else (pieces? rest).map fun r => (.octet b :: r.1, r.2)

/-- The octets of pieces, unless half of a surrogate pair is among them. -/
def join? : List Piece → Option (List UInt8)
  | [] => some []
  | .octet b :: ps => (join? ps).map (b :: ·)
  | .unit u :: ps =>
    if 0xD800 ≤ u && u < 0xDC00 then
      match ps with
      | .unit v :: qs =>
        if 0xDC00 ≤ v && v < 0xE000 then
          (join? qs).map fun bs =>
            let c := Char.ofNat (0x10000 + (u - 0xD800) * 0x400 + (v - 0xDC00))
            octets (String.singleton c) ++ bs
        else none
      | _ => none
    else if 0xDC00 ≤ u && u < 0xE000 then none
    else (join? ps).map (octets (String.singleton (Char.ofNat u)) ++ ·)

/-- The text of pieces, if they have one. -/
def text? (ps : List Piece) : Option String := (join? ps).bind utf8?

/-! ## Numbers -/

/-- The number of a whole significand without fraction and exponent. Minus zero is a double, and so
is an integer below `-2^63`. -/
def integer (negative : Bool) (significand : Nat) : Number :=
  if negative then
    if significand = 0 || Nat.pow 2 63 < significand then
      .double (-(UInt64.ofNat significand).toFloat)
    else .below (significand - 1)
  else .whole significand

/-- The digits behind a mark, of which there has to be one; nothing if the mark is not there. -/
def afterMark? (isMark : UInt8 → Bool) (bs : List UInt8) :
    Option (Option (List Nat) × List UInt8) :=
  match bs with
  | b :: rest =>
    if isMark b then
      match takeDigitRun rest with
      | ([], _) => none
      | (ds, rest) => some (some ds, rest)
    else some (none, bs)
  | [] => some (none, [])

/-- The digits of the integer part: no zero stands before another digit. -/
def integerPart? (bs : List UInt8) : Option (List Nat × List UInt8) :=
  match takeDigitRun bs with
  | ([], _) => none
  | (0 :: _ :: _, _) => none
  | run => some run

/-- An exponent, its sign and its digits. -/
def exponentPart? (bs : List UInt8) : Option (Option Int × List UInt8) :=
  match bs with
  | b :: rest =>
    if b == 0x65 || b == 0x45 then
      let (negative, rest) : Bool × List UInt8 :=
        match rest with
        | 0x2B :: rest => (false, rest)
        | 0x2D :: rest => (true, rest)
        | rest => (false, rest)
      match takeDigitRun rest with
      | ([], _) => none
      | (ds, rest) =>
        let n : Int := (ds.foldl (fun n d => n * 10 + d) 0 : Nat)
        some (some (if negative then -n else n), rest)
    else some (none, bs)
  | [] => some (none, [])

/-- The number with these parts, if it is in range. -/
def number? (negative : Bool) (whole : List Nat) (fraction : Option (List Nat))
    (exponent : Option Int) : Option Number :=
  let (significand, taken) := takeDigits 0 whole
  let dropped : Int := whole.length - taken
  match fraction, exponent with
  | none, none =>
    if dropped = 0 then some (integer negative significand)
    else (scaled negative significand dropped).map .double
  | none, some e => (scaled negative significand (dropped + e)).map .double
  | some ds, e =>
    let (significand, places) := takeDigits significand ds
    (scaled negative significand (dropped - places + e.getD 0)).map .double

/-- Reads a number behind its sign; a number out of range is unreadable. -/
def unsigned? (negative : Bool) (bs : List UInt8) : Option (Source × List UInt8) :=
  match integerPart? bs with
  | none => none
  | some (whole, rest) =>
    match afterMark? (· == 0x2E) rest with
    | none => none
    | some (fraction, rest) =>
      match exponentPart? rest with
      | none => none
      | some (exponent, rest) =>
        match number? negative whole fraction exponent with
        | some n => some (.num n, rest)
        | none => some (.unreadable, rest)

/-! ## Values -/

/-- Reads `null`, `true`, `false` or a number. -/
def scalar? : List UInt8 → Option (Source × List UInt8)
  | 0x6E :: 0x75 :: 0x6C :: 0x6C :: rest => some (.null, rest)
  | 0x74 :: 0x72 :: 0x75 :: 0x65 :: rest => some (.bool true, rest)
  | 0x66 :: 0x61 :: 0x6C :: 0x73 :: 0x65 :: rest => some (.bool false, rest)
  | 0x2D :: rest => unsigned? true rest
  | bs => unsigned? false bs

/-- A list, unless too many containers are open. -/
def arrayIn (room : Nat) (items : List Source) : Source :=
  if room ≤ 1 then .unreadable else .arr items

/-- An object, unless too many containers are open or a name has no text. -/
def objectIn (room : Nat) (members : List (Option String × Source)) : Source :=
  if room ≤ 1 then .unreadable
  else
    match members.mapM fun m => m.1.map (·, m.2) with
    | some ms => .obj ms
    | none => .unreadable

mutual

/-- Reads a value. Every step takes from `fuel`, every open container from `room`. -/
def value? (fuel room : Nat) (bs : List UInt8) : Option (Source × List UInt8) :=
  match fuel with
  | 0 => none
  | fuel + 1 =>
    match bs with
    | 0x22 :: rest =>
      match pieces? rest with
      | some (ps, rest) => some ((text? ps).elim .unreadable .str, rest)
      | none => none
    | 0x5B :: rest =>
      match skipGap rest with
      | 0x5D :: rest => some (arrayIn room [], rest)
      | rest => (items? fuel (room - 1) rest).map fun r => (arrayIn room r.1, r.2)
    | 0x7B :: rest =>
      match skipGap rest with
      | 0x7D :: rest => some (objectIn room [], rest)
      | rest => (members? fuel (room - 1) rest).map fun r => (objectIn room r.1, r.2)
    | bs => scalar? bs

/-- Reads the items of a list from the first on. -/
def items? (fuel room : Nat) (bs : List UInt8) : Option (List Source × List UInt8) :=
  match fuel with
  | 0 => none
  | fuel + 1 =>
    match value? fuel room (skipGap bs) with
    | none => none
    | some (s, rest) =>
      match skipGap rest with
      | 0x2C :: rest => (items? fuel room rest).map fun r => (s :: r.1, r.2)
      | 0x5D :: rest => some ([s], rest)
      | _ => none

/-- Reads the members of an object from the first on. -/
def members? (fuel room : Nat) (bs : List UInt8) :
    Option (List (Option String × Source) × List UInt8) :=
  match fuel with
  | 0 => none
  | fuel + 1 =>
    match skipGap bs with
    | 0x22 :: rest =>
      match pieces? rest with
      | none => none
      | some (ps, rest) =>
        match skipGap rest with
        | 0x3A :: rest =>
          match value? fuel room (skipGap rest) with
          | none => none
          | some (s, rest) =>
            match skipGap rest with
            | 0x2C :: rest => (members? fuel room rest).map fun r => ((text? ps, s) :: r.1, r.2)
            | 0x7D :: rest => some ([(text? ps, s)], rest)
            | _ => none
        | _ => none
    | _ => none

end

end Json.Reader

namespace Source

open Json.Reader

/-- Reads a JSON text. Two steps for each octet are enough. -/
def read (bs : List UInt8) : Option Source :=
  match Json.Reader.value? (2 * bs.length + 2) roomLimit (skipGap bs) with
  | some (s, rest) => if (skipGap rest).isEmpty then some s else none
  | none => none

/-- Reads a JSON text. -/
def ofText (text : String) : Option Source := read (Text.octets text)

end Source

/-- Reads a JSON text as an untyped value. -/
def Value.ofText? (text : String) : Option Value := (Source.ofText text).bind Source.value?

end PromptStudio
