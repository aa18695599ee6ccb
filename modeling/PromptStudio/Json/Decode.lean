import PromptStudio.Json.Source

/-!
# Reading typed values

A record is written as an object, unknown members being skipped and a known one refused when it
comes twice, or as a list of its fields in order, of which the last ones may be missing.
`Source.fields?` gives the fields found; `need`, `orElse` and `maybe` read one of them. A choice
without fields is written as its name. A tagged value carries the name of its variant in the member
`type`, or as the first item of a list.
-/

namespace PromptStudio

/-- The fields found of a record. -/
abbrev Fields := List (String × Source)

namespace Source

/-- The fields of a record whose fields have these names, in this order. -/
def fields? (names : List String) : Source → Option Fields
  | .obj members =>
    let known := members.filter fun m => names.contains m.1
    if (known.map Prod.fst).Nodup then some known else none
  | .arr items => if items.length ≤ names.length then some (names.zip items) else none
  | _ => none

/-- A text. -/
def text? : Source → Option String
  | .str s => some s
  | _ => none

/-- A truth value. -/
def bool? : Source → Option Bool
  | .bool b => some b
  | _ => none

/-- A natural number below `limit`. -/
def natBelow? (limit : Nat) : Source → Option Nat
  | .num (.whole n) => if n < limit then some n else none
  | _ => none

/-- A natural number of 32 bits. -/
def nat32? : Source → Option Nat := natBelow? (Nat.pow 2 32)

/-- A natural number of 64 bits. -/
def nat64? : Source → Option Nat := natBelow? (Nat.pow 2 64)

/-- An integer of 64 bits. -/
def int64? : Source → Option Int
  | .num (.whole n) => if n < Nat.pow 2 63 then some n else none
  | .num (.below n) => if n < Nat.pow 2 63 then some (Int.negSucc n) else none
  | _ => none

/-- A number as a double. -/
def double? : Source → Option Float
  | .num (.whole n) => some (Float.ofNat n)
  | .num (.below n) => some (-(Float.ofNat (n + 1)))
  | .num (.double x) => some x
  | _ => none

/-- A list whose items are read by `read`. -/
def list? {α : Type} (read : Source → Option α) : Source → Option (List α)
  | .arr items => items.mapM read
  | _ => none

/-- Null, or what `read` reads. -/
def option? {α : Type} (read : Source → Option α) : Source → Option (Option α)
  | .null => some none
  | s => (read s).map some

/-- How a choice without fields is written: in a tagged value more is allowed. -/
inductive Place
  | plain
  | tagged
deriving DecidableEq

/-- The name of a choice without fields: a text, or an object with this one member, whose value is
null or, inside a tagged value, empty. -/
def choice? (place : Place) : Source → Option String
  | .str s => some s
  | .obj [(name, .null)] => some name
  | .obj [(name, .obj [])] => if place = .tagged then some name else none
  | _ => none

/-- The variant of a tagged value and its fields. All of it has to be readable. -/
def tagged? : Source → Option (String × Source)
  | .obj members =>
    match members.filter (·.1 == "type") with
    | [(_, .str tag)] =>
      let rest := Source.obj (members.filter (·.1 != "type"))
      if rest.isReadable then some (tag, rest) else none
    | _ => none
  | .arr (.str tag :: items) =>
    if (Source.arr items).isReadable then some (tag, .arr items) else none
  | _ => none

end Source

namespace Fields

variable {α : Type}

/-- A field that has to be there. -/
def need (fs : Fields) (name : String) (read : Source → Option α) : Option α :=
  (fs.lookup name).bind read

/-- A field that stands for `default` where it is missing. -/
def orElse (fs : Fields) (name : String) (default : α) (read : Source → Option α) : Option α :=
  match fs.lookup name with
  | some s => read s
  | none => some default

/-- A field that may be missing or null. -/
def maybe (fs : Fields) (name : String) (read : Source → Option α) : Option (Option α) :=
  fs.orElse name none (Source.option? read)

/-- An untyped field that may be missing or null. -/
def maybeValue (fs : Fields) (name : String) : Option (Option Value) :=
  fs.orElse name none fun s => s.value?.map Value.nonNull?

end Fields

end PromptStudio
