import PromptStudio.Proofs.Text.Lines
import PromptStudio.Sse.Decoder

/-!
# An event stream read as a whole

The decoder takes octets as they come, and reads them as text line by line. `reading` is what it
has to come to: the whole text is cut into lines, the lines into blocks, and each block is read by
itself. The decoder keeps the octets behind the last line feed and takes the whole lines before it
(`push_eq_feed`), and after some lines of a block it holds the last event, the last id and all data
among them (`foldl_take`). So a stream gives the frames of its reading as text (`push_eq_reading`),
and its end is read as an empty line (`finish_eq_push`).
-/

namespace PromptStudio.Sse

/-! ## The reading of a text -/

/-- The lines that a text's line feeds end, without the carriage returns at their ends. -/
def linesOf (text : List Char) : List (List Char) :=
  (Text.ended (· == '\n') text).map (List.rdropWhile (· == '\r'))

/-- `value` without one blank before it. -/
def unspaced (value : List Char) : List Char :=
  if value.head? = some ' ' then value.tail else value

/-- The value of the field `name`, if the line is this field: it stands behind a colon, or is empty
where there is none. -/
def value? (name line : List Char) : Option String :=
  if line = name then some ""
  else if name ++ [':'] <+: line then some (String.ofList (unspaced (line.drop (name.length + 1))))
  else none

/-- The values of a field in the lines of a block. -/
def values (name : String) (block : List (List Char)) : List String :=
  block.filterMap (value? name.toList)

/-- The frame of a block that has an event or data: the last event and the last id count, and all
data. -/
def frameOf? (block : List (List Char)) : Option Frame :=
  if values "event" block = [] ∧ values "data" block = [] then none
  else some {
    event := (values "event" block).getLast?.getD "message"
    data := "\n".intercalate (values "data" block)
    id := (values "id" block).getLast? }

/-- The frames of a text: those of the blocks that an empty line ends. -/
def reading (text : List Char) : List Frame :=
  (Text.ended List.isEmpty (linesOf text)).filterMap frameOf?

/-! ## The fields of a line -/

theorem takeWhile_of_not_mem {pre : List Char} (h : ':' ∉ pre) (rest : List Char)
    (hrest : ∀ c ∈ rest.head?, c = ':') :
    (pre ++ rest).takeWhile (· != ':') = pre := by
  have hpre : ∀ c ∈ pre, (c != ':') = true := fun c hc => by
    rw [bne_iff_ne]
    exact fun heq => h (heq ▸ hc)
  rw [List.takeWhile_append_of_pos hpre]
  cases rest with
  | nil => simp
  | cons c cs => simp [hrest c rfl]

theorem field_bare {name : List Char} (h : ':' ∉ name) : field name = (name, []) := by
  have htake := takeWhile_of_not_mem h [] (by simp)
  rw [List.append_nil] at htake
  unfold field
  rw [htake]
  dsimp only
  rw [List.drop_length]

theorem field_colon {name : List Char} (h : ':' ∉ name) (value : List Char) :
    field (name ++ ':' :: value) = (name, unspaced value) := by
  unfold field
  rw [takeWhile_of_not_mem h (':' :: value) (by simp)]
  dsimp only
  rw [List.drop_left]
  cases value with
  | nil => rfl
  | cons c cs =>
    by_cases hc : c = ' '
    · subst hc
      rfl
    · simp [unspaced, hc]

theorem value?_bare (name : List Char) {line : List Char} (h : ':' ∉ line) :
    value? name line = if line = name then some "" else none := by
  have hstarts : ¬ name ++ [':'] <+: line := fun hp => h (hp.subset (by simp))
  rw [value?, if_neg hstarts]

theorem value?_colon {name key : List Char} (hname : ':' ∉ name) (hkey : ':' ∉ key)
    (value : List Char) :
    value? name (key ++ ':' :: value) =
      if key = name then some (String.ofList (unspaced value)) else none := by
  have hne : key ++ ':' :: value ≠ name := fun h => hname (h ▸ by simp)
  have hstarts : name ++ [':'] <+: key ++ ':' :: value ↔ key = name := by
    constructor
    · rintro ⟨rest, hrest⟩
      have hcut := congrArg (List.takeWhile (· != ':')) hrest
      rw [List.append_assoc, List.singleton_append, takeWhile_of_not_mem hname _ (by simp),
        takeWhile_of_not_mem hkey _ (by simp)] at hcut
      exact hcut.symm
    · rintro rfl
      exact ⟨value, by simp⟩
  rw [value?, if_neg hne]
  by_cases h : key = name
  · subst h
    rw [if_pos (hstarts.mpr rfl), if_pos rfl]
    simp
  · rw [if_neg (hstarts.not.mpr h), if_neg h]

/-- A line is the field whose name stands before its first colon. -/
theorem value?_eq {name : List Char} (hname : ':' ∉ name) (line : List Char) :
    value? name line =
      if (field line).1 = name then some (String.ofList (field line).2) else none := by
  by_cases h : ':' ∈ line
  · obtain ⟨key, value, rfl, hkey⟩ := List.eq_append_cons_of_mem h
    rw [value?_colon hname hkey, field_colon hkey]
  · rw [value?_bare name h, field_bare h]

/-! ## Blocks -/

theorem take_eq (b : Block) (line : List Char) :
    b.take line =
      { event := (value? "event".toList line).or b.event
        data := b.data ++ (value? "data".toList line).toList
        id := (value? "id".toList line).or b.id } := by
  rw [value?_eq (by decide), value?_eq (by decide), value?_eq (by decide)]
  unfold Block.take
  dsimp only
  split
  case isTrue h => simp [h]
  split
  case isTrue h => simp [h]
  split
  case isTrue h => simp [h]
  case isFalse he hd hi => simp [he, hd, hi]

/-- A block after some lines: their last event, all their data, and their last id. -/
theorem foldl_take (lines : List (List Char)) :
    lines.foldl Block.take {} =
      { event := (values "event" lines).getLast?
        data := values "data" lines
        id := (values "id" lines).getLast? } := by
  induction lines using List.reverseRecOn with
  | nil => rfl
  | append_singleton lines line ih =>
    have hvalues : ∀ name, values name (lines ++ [line]) =
        values name lines ++ (value? name.toList line).toList := by
      intro name
      unfold values
      rw [List.filterMap_append]
      cases h : value? name.toList line <;> simp [h]
    rw [List.foldl_concat, ih, take_eq, hvalues, hvalues, hvalues]
    cases value? "event".toList line <;> cases value? "id".toList line <;> simp

theorem frame?_foldl_take (lines : List (List Char)) :
    (lines.foldl Block.take {}).frame? = frameOf? lines := by
  rw [foldl_take]
  unfold Block.frame? frameOf? unnamed
  simp

/-! ## Lines -/

/-- Takes lines one after another. -/
def feed (b : Block) : List (List Char) → List Frame × Block
  | [] => ([], b)
  | line :: lines =>
    let (frame, b) := Decoder.line b line
    let (frames, b) := feed b lines
    (frame.toList ++ frames, b)

@[simp] theorem feed_nil (b : Block) : feed b [] = ([], b) := rfl

theorem feed_cons (b : Block) (line : List Char) (lines : List (List Char)) :
    feed b (line :: lines) =
      ((Decoder.line b line).1.toList ++ (feed (Decoder.line b line).2 lines).1,
        (feed (Decoder.line b line).2 lines).2) := rfl

/-- Each block that an empty line ends is read by itself. -/
theorem feed_frames (lines : List (List Char)) :
    (feed {} lines).1 = (Text.ended List.isEmpty lines).filterMap frameOf? := by
  -- By induction on the lines behind `pre`, the lines of a block that has not ended.
  have key : ∀ lines pre : List (List Char), (∀ line ∈ pre, line.isEmpty = false) →
      (feed (pre.foldl Block.take {}) lines).1 =
        (Text.ended List.isEmpty (pre ++ lines)).filterMap frameOf? := by
    intro lines
    induction lines with
    | nil =>
      intro pre hpre
      rw [List.append_nil, Text.ended_of_forall_not hpre]
      rfl
    | cons line lines ih =>
      intro pre hpre
      rw [feed_cons]
      unfold Decoder.line
      by_cases hline : line.isEmpty = true
      · rw [if_pos hline, Text.ended_append_cons hpre hline, frame?_foldl_take]
        have hrest := ih [] (by simp)
        rw [List.foldl_nil, List.nil_append] at hrest
        rw [hrest]
        cases hframe : frameOf? pre <;> simp [hframe]
      · have hpre' : ∀ l ∈ pre ++ [line], l.isEmpty = false := by
          intro l hl
          rcases List.mem_append.mp hl with hl | hl
          · exact hpre l hl
          · rw [List.mem_singleton.mp hl]
            simpa using hline
        have hrest := ih (pre ++ [line]) hpre'
        rw [List.foldl_concat, List.append_assoc] at hrest
        rw [if_neg hline]
        exact hrest
  exact key lines [] (by simp)

/-! ## The octets of a stream -/

/-- The lines of octets are those of their text. -/
theorem map_lineText_ended (bs : List UInt8) :
    (Text.ended (· == lineFeed) bs).map lineText = linesOf (Text.lossy bs) := by
  have hcut : Text.ended (· == '\n') (Text.lossy bs) =
      (Text.ended (· == lineFeed) bs).map Text.lossy := by
    unfold Text.ended
    rw [List.map_dropLast]
    exact congrArg List.dropLast (Text.splitOn_lossy bs)
  rw [linesOf, hcut, List.map_map]
  exact List.map_congr_left fun line _ => Text.dropEndWhile_eq_rdropWhile _ _

namespace Decoder

/-- A chunk is put behind the octets held; the whole lines up to the last line feed are taken, and
the octets behind it are held. -/
theorem push_eq_feed (d : Decoder) (hheld : lineFeed ∉ d.held) (bs : List UInt8) :
    let octets := d.held.reverse ++ bs
    let fed := feed d.block ((Text.ended (· == lineFeed) octets).map lineText)
    d.push bs =
      (fed.1, { held := (Text.unended (· == lineFeed) octets).reverse, block := fed.2 }) := by
  dsimp only
  have hnone : ∀ d : Decoder, lineFeed ∉ d.held →
      ∀ x ∈ d.held.reverse, (x == lineFeed) = false := by
    intro d hd x hx
    exact beq_eq_false_iff_ne.mpr fun h => hd (h ▸ List.mem_reverse.mp hx)
  induction bs generalizing d with
  | nil =>
    rw [List.append_nil, Text.ended_of_forall_not (hnone d hheld),
      Text.unended_of_forall_not (hnone d hheld), List.reverse_reverse]
    rfl
  | cons b bs ih =>
    rw [push_cons]
    unfold octet
    by_cases hb : b = lineFeed
    · subst hb
      rw [if_pos rfl, Text.ended_append_cons (hnone d hheld) (by simp),
        Text.unended_append_cons _ (by simp), List.map_cons, feed_cons,
        ih _ List.not_mem_nil]
      rfl
    · have hheld' : lineFeed ∉ b :: d.held := by
        rw [List.mem_cons, not_or]
        exact ⟨fun h => hb h.symm, hheld⟩
      rw [if_neg hb, ih _ hheld', List.reverse_cons, List.append_assoc]
      rfl

/-- A stream that goes on gives the frames of its reading as text. -/
theorem push_eq_reading (bs : List UInt8) :
    (({} : Decoder).push bs).1 = reading (Text.lossy bs) := by
  have hpush := congrArg Prod.fst (push_eq_feed {} List.not_mem_nil bs)
  rw [hpush, reading, ← map_lineText_ended, ← feed_frames]
  rfl

/-- Two line feeds end the line and the block. -/
theorem push_lineFeeds (d : Decoder) :
    d.push [lineFeed, lineFeed] =
      ((line d.block (lineText d.held.reverse)).1.toList ++
        (line d.block (lineText d.held.reverse)).2.frame?.toList, {}) := by
  simp only [push_cons, push_nil, octet, if_pos, List.append_nil]
  rfl

/-- The end of a stream ends the line and the block. -/
theorem finish_eq_push (d : Decoder) : d.finish.toList = (d.push [lineFeed, lineFeed]).1 := by
  rw [push_lineFeeds]
  unfold finish
  by_cases hheld : d.held = []
  · rw [hheld]
    exact (List.append_nil _).symm
  rw [if_neg (by simpa using hheld)]
  unfold line
  by_cases htext : (lineText d.held.reverse).isEmpty = true
  · rw [if_pos htext]
    cases hframe : d.block.frame? <;> rfl
  · rw [if_neg htext]
    rfl

end Decoder

/-- The frames of a whole stream: those that one push completes, and the one left at its end. -/
def decode (bs : List UInt8) : List Frame :=
  (({} : Decoder).push bs).1 ++ (({} : Decoder).push bs).2.finish.toList

theorem lossy_lineFeeds (bs : List UInt8) :
    Text.lossy (bs ++ [lineFeed, lineFeed]) = Text.lossy bs ++ ['\n', '\n'] := by
  rw [Text.lossy_append_ascii bs (by decide)]
  rfl

theorem decode_eq_push (bs : List UInt8) :
    decode bs = (({} : Decoder).push (bs ++ [lineFeed, lineFeed])).1 := by
  rw [decode, Decoder.finish_eq_push, Decoder.push_append]

/-- The decoder reads lines as a text of their own, and still its frames are those of the whole text
with an empty line behind it, whether the octets are UTF-8 or not. A stream without this empty line
has the same frames as with it. -/
theorem decode_eq_reading (bs : List UInt8) :
    decode bs = reading (Text.lossy bs ++ ['\n', '\n']) ∧
      decode (bs ++ [lineFeed, lineFeed]) = decode bs := by
  constructor
  · rw [decode_eq_push, Decoder.push_eq_reading, lossy_lineFeeds]
  · have hfinish : (({} : Decoder).push (bs ++ [lineFeed, lineFeed])).2.finish = none := by
      rw [Decoder.push_append, Decoder.push_lineFeeds]
      rfl
    rw [decode, hfinish, decode_eq_push]
    exact List.append_nil _

end PromptStudio.Sse
