/-!
# Blank characters

The characters with the Unicode property `White_Space`, and trimming by them. Event names,
durations given in seconds and points in time are read with surrounding blanks allowed.
-/

namespace PromptStudio.Text

/-- Has the Unicode property `White_Space`. -/
def isBlank (c : Char) : Bool :=
  let n := c.toNat
  (0x09 ≤ n && n ≤ 0x0D) || n == 0x20 || n == 0x85 || n == 0xA0 || n == 0x1680 ||
    (0x2000 ≤ n && n ≤ 0x200A) || n == 0x2028 || n == 0x2029 || n == 0x202F || n == 0x205F ||
    n == 0x3000

/-- `cs` without the blanks at its start. -/
def dropBlanks (cs : List Char) : List Char := cs.dropWhile isBlank

/-- `cs` without its last characters that satisfy `p`. -/
def dropEndWhile (p : Char → Bool) (cs : List Char) : List Char :=
  cs.foldr (fun c kept => if kept.isEmpty && p c then [] else c :: kept) []

/-- `s` without the blanks at either end. -/
def trim (s : String) : String :=
  String.ofList (dropEndWhile isBlank (dropBlanks s.toList))

/-- `s` without the slashes at its end. -/
def trimEndSlashes (s : String) : String :=
  String.ofList (dropEndWhile (· == '/') s.toList)

/-- `s` without the slashes at its start. -/
def trimStartSlashes (s : String) : String :=
  String.ofList (s.toList.dropWhile (· == '/'))

@[simp] theorem dropEndWhile_nil (p : Char → Bool) : dropEndWhile p [] = [] := rfl

theorem dropEndWhile_cons (p : Char → Bool) (c : Char) (cs : List Char) :
    dropEndWhile p (c :: cs) =
      if (dropEndWhile p cs).isEmpty && p c then [] else c :: dropEndWhile p cs := rfl

end PromptStudio.Text
