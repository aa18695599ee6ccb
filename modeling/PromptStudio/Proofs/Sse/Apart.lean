import PromptStudio.Proofs.Sse.Reading

/-!
# Stretches of a stream

An empty line leaves the decoder as if it were new, whatever came before (`push_emptyLine`): of the
block that it ends and of the line before it nothing is kept. So stretches of octets with an empty
line between them are decoded each by itself (`decode_intercalate`), and a stretch gives at most one
frame more than it has empty lines (`length_decode_le`).
-/

namespace PromptStudio.Sse

/-- The octet that does not count at the end of a line. -/
def carriageReturn : UInt8 := 0x0D

/-- The end of a line, and an empty line that has `n` carriage returns at its end. -/
def emptyLine (n : Nat) : List UInt8 := lineFeed :: List.replicate n carriageReturn ++ [lineFeed]

theorem lossy_replicate (n : Nat) :
    Text.lossy (List.replicate n carriageReturn) = List.replicate n '\r' := by
  induction n with
  | zero => rfl
  | succ n ih =>
    have hfirst := Text.lossy_append_ascii [] (b := carriageReturn) (by decide)
      (List.replicate n carriageReturn)
    rw [List.replicate_succ, List.replicate_succ, ← ih]
    exact hfirst

theorem lineText_replicate (n : Nat) : lineText (List.replicate n carriageReturn) = [] := by
  rw [lineText, lossy_replicate, Text.dropEndWhile_eq_rdropWhile, List.rdropWhile_eq_nil_iff]
  intro c hc
  rw [List.eq_of_mem_replicate hc]
  rfl

namespace Decoder

/-- Nothing is kept across an empty line. -/
theorem push_emptyLine (d : Decoder) (n : Nat) : (d.push (emptyLine n)).2 = {} := by
  have hnone : ∀ b ∈ List.replicate n carriageReturn, (b == lineFeed) = false := by
    intro b hb
    rw [List.eq_of_mem_replicate hb]
    rfl
  -- the first line feed ends the line held, so the rest of `emptyLine n` is a line of its own
  obtain ⟨block, hfirst⟩ : ∃ block, (d.octet lineFeed).2 = { held := [], block } := by
    unfold octet
    rw [if_pos rfl]
    exact ⟨_, rfl⟩
  have hrest := push_eq_feed { held := [], block } List.not_mem_nil
    (List.replicate n carriageReturn ++ [lineFeed])
  dsimp only at hrest
  rw [List.reverse_nil, List.nil_append, Text.ended_append_cons hnone (by rfl),
    Text.unended_append_cons _ (by rfl), List.map_cons, lineText_replicate] at hrest
  rw [emptyLine, List.cons_append, push_cons, hfirst, hrest]
  rfl

theorem push_append_emptyLine (d : Decoder) (as : List UInt8) (n : Nat) :
    (d.push (as ++ emptyLine n)).2 = {} := by
  rw [push_append]
  exact push_emptyLine _ n

end Decoder

theorem decode_append_emptyLine (as bs : List UInt8) (n : Nat) :
    decode (as ++ emptyLine n ++ bs) = decode (as ++ emptyLine n) ++ decode bs := by
  have hnew : (({} : Decoder).push (as ++ emptyLine n)).2 = {} :=
    Decoder.push_append_emptyLine _ as n
  have hleft : (({} : Decoder).finish).toList = [] := rfl
  unfold decode
  rw [Decoder.push_append, hnew, hleft, List.append_nil, List.append_assoc]

/-- An empty line at the end does what the end does. -/
theorem decode_append_lineFeeds (xs : List UInt8) :
    decode (xs ++ [lineFeed, lineFeed]) = decode xs := by
  have hnew : (({} : Decoder).push (xs ++ [lineFeed, lineFeed])).2 = {} :=
    Decoder.push_append_emptyLine _ xs 0
  rw [decode, hnew, decode_eq_push]
  exact List.append_nil _

/-- Stretches with an empty line between them are decoded each by itself. -/
theorem decode_intercalate (stretches : List (List UInt8)) :
    decode ([lineFeed, lineFeed].intercalate stretches) = stretches.flatMap decode := by
  induction stretches with
  | nil => rfl
  | cons xs stretches ih =>
    rw [List.flatMap_cons, ← ih]
    cases stretches with
    | nil =>
      rw [List.intercalate_singleton]
      exact (List.append_nil _).symm
    | cons ys stretches =>
      rw [List.intercalate_cons_cons]
      refine (decode_append_emptyLine xs _ 0).trans ?_
      exact congrArg (· ++ _) (decode_append_lineFeeds xs)

/-- Every frame is ended by an empty line, save one that the end of the octets may end. -/
theorem length_decode_le (xs : List UInt8) :
    (decode xs).length ≤ (linesOf (Text.lossy xs)).countP List.isEmpty + 1 := by
  have hpushed : (({} : Decoder).push xs).1.length ≤
      (linesOf (Text.lossy xs)).countP List.isEmpty := by
    rw [Decoder.push_eq_reading, reading, ← Text.length_ended]
    exact List.length_filterMap_le _ _
  have hfinished : (({} : Decoder).push xs).2.finish.toList.length ≤ 1 := Option.length_toList_le
  rw [decode, List.length_append]
  omega

/-- Frames do not leak into each other. What stands before an empty line and what stands behind it
give their frames apart, for at the empty line the decoder is as if it were new; carriage returns in
the empty line make no difference. So in a stream of stretches with an empty line between any two,
whatever their octets are, each gives the frames it would give alone, at most one for each of its
own empty lines and one more. -/
theorem stretches_apart (as bs : List UInt8) (n : Nat) (stretches : List (List UInt8)) :
    decode (as ++ [lineFeed, lineFeed] ++ bs) =
        decode (as ++ [lineFeed, lineFeed]) ++ decode bs ∧
      decode (as ++ emptyLine n ++ bs) = decode (as ++ emptyLine n) ++ decode bs ∧
      (({} : Decoder).push (as ++ emptyLine n)).2 = {} ∧
      decode ([lineFeed, lineFeed].intercalate stretches) = stretches.flatMap decode ∧
      (decode bs).length ≤ (linesOf (Text.lossy bs)).countP List.isEmpty + 1 := by
  exact ⟨decode_append_emptyLine as bs 0, decode_append_emptyLine as bs n,
    Decoder.push_append_emptyLine _ as n, decode_intercalate stretches, length_decode_le bs⟩

end PromptStudio.Sse
