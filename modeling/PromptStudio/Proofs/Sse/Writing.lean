import PromptStudio.Proofs.Sse.Chunks
import PromptStudio.Proofs.Text.Utf8

/-!
# Event streams as they are written

`frameLines` writes a frame as the lines of one block. Between any two lines of a stream lines may
stand that are no field of a frame (`Noise`), and each line ends in a line feed or in a carriage
return and a line feed. Reading such a stream gives back the frames written (`decode_written`):
noise leaves a block as it is (`feed_sprinkled`), and the lines of one frame are read as this frame
(`feed_frameLines`).
-/

namespace PromptStudio.Sse

/-! ## Writing -/

/-- The field `name` with a value, as a line. -/
def fieldLine (name : String) (value : List Char) : List Char := name.toList ++ ':' :: ' ' :: value

/-- The fields of a frame: its event, its data line by line, and its id. -/
def fieldLines (f : Frame) : List (List Char) :=
  [f.event.toList].map (fieldLine "event") ++
    (f.data.toList.splitOn '\n').map (fieldLine "data") ++
    (f.id.toList.map String.toList).map (fieldLine "id")

/-- The lines of a frame: its fields, and an empty line. -/
def frameLines (f : Frame) : List (List Char) := fieldLines f ++ [[]]

/-- Stands in one line and does not end in a carriage return, which would count to the line's
end. -/
def IsLine (text : List Char) : Prop := '\n' ∉ text ∧ text.getLast? ≠ some '\r'

/-- A frame whose fields are lines. -/
structure Writable (f : Frame) : Prop where
  event : IsLine f.event.toList
  data : ∀ line ∈ f.data.toList.splitOn '\n', line.getLast? ≠ some '\r'
  id : ∀ id ∈ f.id, IsLine id.toList

/-- The names of the fields of a frame. -/
def fieldNames : List (List Char) := ["event".toList, "data".toList, "id".toList]

/-- A line that is no field of a frame. -/
inductive Noise : List Char → Prop
  /-- A comment. -/
  | comment {text : List Char} : '\n' ∉ text → Noise (':' :: text)
  /-- A field that frames do not have. -/
  | unknown {name value : List Char} : name ∉ [] :: fieldNames → ':' ∉ name → '\n' ∉ name →
      '\n' ∉ value → Noise (name ++ ':' :: value)
  /-- A field that frames do not have, without a value. Carriage returns at its end are no part of
  its name. -/
  | bare {line : List Char} : line.rdropWhile (· == '\r') ∉ [] :: fieldNames → ':' ∉ line →
      '\n' ∉ line → Noise line

/-- `lines` are `core` with noise put in anywhere. -/
inductive Sprinkled : List (List Char) → List (List Char) → Prop
  | nil : Sprinkled [] []
  | line (l : List Char) {core lines : List (List Char)} :
      Sprinkled core lines → Sprinkled (l :: core) (l :: lines)
  | noise {l : List Char} {core lines : List (List Char)} :
      Noise l → Sprinkled core lines → Sprinkled core (l :: lines)

/-- How a line ends. -/
inductive LineEnd
  | lf
  | crlf
deriving DecidableEq, Repr

/-- The text of lines, each with its end. -/
def textOf (lines : List (List Char × LineEnd)) : List Char :=
  lines.flatMap fun l =>
    match l.2 with
    | .lf => l.1 ++ ['\n']
    | .crlf => l.1 ++ ['\r', '\n']

/-! ## Lines -/

theorem linesOf_append {l : List Char} (h : '\n' ∉ l) (rest : List Char) :
    linesOf (l ++ '\n' :: rest) = l.rdropWhile (· == '\r') :: linesOf rest := by
  have hnone : ∀ c ∈ l, (c == '\n') = false :=
    fun c hc => beq_eq_false_iff_ne.mpr fun heq => h (heq ▸ hc)
  rw [linesOf, Text.ended_append_cons hnone (by rfl)]
  rfl

theorem linesOf_textOf {lines : List (List Char × LineEnd)} (h : ∀ l ∈ lines, '\n' ∉ l.1)
    (rest : List Char) :
    linesOf (textOf lines ++ rest) =
      (lines.map Prod.fst).map (List.rdropWhile (· == '\r')) ++ linesOf rest := by
  induction lines with
  | nil => rfl
  | cons l lines ih =>
    obtain ⟨text, lineEnd⟩ := l
    obtain ⟨htext, hlines⟩ := List.forall_mem_cons.mp h
    have hrest := ih hlines
    rw [textOf, List.flatMap_cons, List.append_assoc]
    cases lineEnd with
    | lf =>
      show linesOf (text ++ ['\n'] ++ (textOf lines ++ rest)) = _
      rw [List.append_assoc, List.singleton_append, linesOf_append htext, hrest]
      rfl
    | crlf =>
      have htext' : '\n' ∉ text ++ ['\r'] := by simpa using htext
      show linesOf (text ++ ['\r', '\n'] ++ (textOf lines ++ rest)) = _
      rw [List.append_cons, List.append_assoc, List.singleton_append, linesOf_append htext',
        List.rdropWhile_concat_pos _ _ _ (by rfl), hrest]
      rfl

theorem rdropWhile_of_getLast? {text : List Char} (h : text.getLast? ≠ some '\r') :
    text.rdropWhile (· == '\r') = text := by
  rw [List.rdropWhile_eq_self_iff]
  intro hne hlast
  rw [List.getLast?_eq_some_getLast hne] at h
  exact h (congrArg some (by simpa using hlast))

/-- Carriage returns are dropped only behind a colon. -/
theorem rdropWhile_colon (name value : List Char) :
    (name ++ ':' :: value).rdropWhile (· == '\r') =
      name ++ ':' :: value.rdropWhile (· == '\r') :=
  Text.rdropWhile_append_cons (by rfl) name value

/-! ## Noise -/

theorem take_of_no_field {line : List Char} (h : ∀ name ∈ fieldNames, value? name line = none)
    (b : Block) : b.take line = b := by
  rw [take_eq, h _ (by decide), h _ (by decide), h _ (by decide)]
  simp

theorem colon_not_mem_fieldNames {name : List Char} (h : name ∈ fieldNames) : ':' ∉ name := by
  revert name
  decide

theorem value?_of_noise {l : List Char} (h : Noise l) {name : List Char}
    (hname : name ∈ fieldNames) : value? name (l.rdropWhile (· == '\r')) = none := by
  have hcolon := colon_not_mem_fieldNames hname
  cases h with
  | @comment text =>
    have hne : [] ≠ name := fun h => absurd (h ▸ hname) (by decide)
    have hdrop := rdropWhile_colon [] text
    rw [List.nil_append] at hdrop
    rw [hdrop, value?_colon hcolon List.not_mem_nil, if_neg hne]
  | @unknown key value hkey hkeyColon =>
    have hne : key ≠ name := fun h => hkey (List.mem_cons_of_mem _ (h ▸ hname))
    rw [rdropWhile_colon, value?_colon hcolon hkeyColon, if_neg hne]
  | bare hkey hline =>
    have hne : l.rdropWhile (· == '\r') ≠ name :=
      fun h => hkey (List.mem_cons_of_mem _ (h ▸ hname))
    rw [value?_bare _ fun h => hline ((List.rdropWhile_prefix _ _).subset h), if_neg hne]

theorem rdropWhile_ne_nil_of_noise {l : List Char} (h : Noise l) :
    l.rdropWhile (· == '\r') ≠ [] := by
  cases h with
  | @comment text =>
    have hdrop := rdropWhile_colon [] text
    rw [List.nil_append] at hdrop
    rw [hdrop]
    exact List.cons_ne_nil _ _
  | unknown =>
    rw [rdropWhile_colon]
    simp
  | bare hkey => exact fun h => hkey (h ▸ List.mem_cons_self)

theorem lineFeed_not_mem_of_noise {l : List Char} (h : Noise l) : '\n' ∉ l := by
  cases h with
  | comment htext => simpa using htext
  | unknown _ _ hname hvalue => simp [hname, hvalue]
  | bare _ _ hline => exact hline

/-- Noise leaves a block as it is. -/
theorem line_noise {l : List Char} (h : Noise l) (b : Block) :
    Decoder.line b (l.rdropWhile (· == '\r')) = (none, b) := by
  unfold Decoder.line
  rw [if_neg (by simpa using rdropWhile_ne_nil_of_noise h),
    take_of_no_field fun name hname => value?_of_noise h hname]

theorem lineFeed_not_mem_of_sprinkled {core lines : List (List Char)} (h : Sprinkled core lines)
    (hcore : ∀ l ∈ core, '\n' ∉ l) : ∀ l ∈ lines, '\n' ∉ l := by
  induction h with
  | nil => exact hcore
  | line l _ ih =>
    obtain ⟨hl, hrest⟩ := List.forall_mem_cons.mp hcore
    exact List.forall_mem_cons.mpr ⟨hl, ih hrest⟩
  | noise hl _ ih => exact List.forall_mem_cons.mpr ⟨lineFeed_not_mem_of_noise hl, ih hcore⟩

/-- Sprinkled lines are read as their core. -/
theorem feed_sprinkled {core lines : List (List Char)} (h : Sprinkled core lines)
    (hcore : ∀ l ∈ core, l.getLast? ≠ some '\r') (b : Block) :
    feed b (lines.map (List.rdropWhile (· == '\r'))) = feed b core := by
  induction h generalizing b with
  | nil => rfl
  | line l _ ih =>
    obtain ⟨hl, hrest⟩ := List.forall_mem_cons.mp hcore
    rw [List.map_cons, rdropWhile_of_getLast? hl, feed_cons, feed_cons, ih hrest]
  | noise hl _ ih =>
    rw [List.map_cons, feed_cons, line_noise hl]
    exact ih hcore b

/-! ## The lines of frames -/

theorem feed_append (b : Block) (xs ys : List (List Char)) :
    feed b (xs ++ ys) =
      ((feed b xs).1 ++ (feed (feed b xs).2 ys).1, (feed (feed b xs).2 ys).2) := by
  induction xs generalizing b with
  | nil => rfl
  | cons x xs ih => simp only [List.cons_append, feed_cons, ih, List.append_assoc]

/-- The lines of a block, and the empty line that ends it. -/
theorem feed_block {block : List (List Char)} (h : [] ∉ block) (b : Block) :
    feed b (block ++ [[]]) = ((block.foldl Block.take b).frame?.toList, {}) := by
  induction block generalizing b with
  | nil =>
    rw [List.nil_append, feed_cons, feed_nil]
    exact congrArg (·, _) (List.append_nil _)
  | cons line block ih =>
    have hline : ¬ line.isEmpty = true := by
      rw [List.isEmpty_iff]
      exact fun hl => h (hl ▸ List.mem_cons_self)
    rw [List.cons_append, feed_cons]
    unfold Decoder.line
    rw [if_neg hline, ih (fun hb => h (List.mem_cons_of_mem _ hb))]
    rfl

theorem values_append (name : String) (xs ys : List (List Char)) :
    values name (xs ++ ys) = values name xs ++ values name ys := List.filterMap_append

theorem values_map_fieldLine {name key : String} (hname : ':' ∉ name.toList)
    (hkey : ':' ∉ key.toList) (texts : List (List Char)) :
    values name (texts.map (fieldLine key)) =
      if key = name then texts.map String.ofList else [] := by
  have hvalue : ∀ text, value? name.toList (fieldLine key text) =
      if key = name then some (String.ofList text) else none := by
    intro text
    rw [fieldLine, value?_colon hname hkey]
    simp [unspaced, String.toList_inj]
  unfold values
  rw [List.filterMap_map]
  by_cases h : key = name
  · rw [if_pos h, ← List.filterMap_eq_map]
    refine List.filterMap_congr fun text _ => ?_
    exact (hvalue text).trans (if_pos h)
  · rw [if_neg h, List.filterMap_eq_nil_iff]
    exact fun text _ => (hvalue text).trans (if_neg h)

theorem intercalate_lines (data : String) :
    "\n".intercalate ((data.toList.splitOn '\n').map String.ofList) = data := by
  have hlines : ((data.toList.splitOn '\n').map String.ofList).map String.toList =
      data.toList.splitOn '\n' := by
    rw [List.map_map]
    exact List.map_id'' (fun _ => String.toList_ofList) _
  rw [← String.toList_inj, String.toList_intercalate, hlines]
  exact List.intercalate_splitOn '\n'

theorem frameOf?_fieldLines (f : Frame) : frameOf? (fieldLines f) = some f := by
  have hvalues : ∀ name : String, ':' ∉ name.toList → values name (fieldLines f) =
      (if "event" = name then [f.event] else []) ++
        (if "data" = name then (f.data.toList.splitOn '\n').map String.ofList else []) ++
        (if "id" = name then f.id.toList else []) := by
    intro name hname
    rw [fieldLines, values_append, values_append, values_map_fieldLine hname (by decide),
      values_map_fieldLine hname (by decide), values_map_fieldLine hname (by decide)]
    simp [Function.comp_def]
  have hevent : values "event" (fieldLines f) = [f.event] := by
    rw [hvalues "event" (by decide)]
    simp
  have hdata : values "data" (fieldLines f) =
      (f.data.toList.splitOn '\n').map String.ofList := by
    rw [hvalues "data" (by decide)]
    simp
  have hid : values "id" (fieldLines f) = f.id.toList := by
    rw [hvalues "id" (by decide)]
    simp
  unfold frameOf?
  rw [hevent, hdata, hid, intercalate_lines]
  obtain ⟨event, data, id⟩ := f
  cases id <;> simp

theorem feed_frameLines (f : Frame) : feed {} (frameLines f) = ([f], {}) := by
  have hfields : [] ∉ fieldLines f := by
    simp [fieldLines, fieldLine]
  rw [frameLines, feed_block hfields, frame?_foldl_take, frameOf?_fieldLines]
  rfl

theorem feed_flatMap_frameLines (frames : List Frame) :
    feed {} (frames.flatMap frameLines) = (frames, {}) := by
  induction frames with
  | nil => rfl
  | cons f frames ih =>
    rw [List.flatMap_cons, feed_append, feed_frameLines, ih]
    rfl

theorem isLine_fieldLine {name : String} (hname : '\n' ∉ name.toList) {text : List Char}
    (h : IsLine text) : IsLine (fieldLine name text) := by
  refine ⟨by simp [fieldLine, hname, h.1], ?_⟩
  rw [fieldLine, List.getLast?_append_of_ne_nil _ (List.cons_ne_nil _ _)]
  cases text with
  | nil => simp
  | cons c cs =>
    rw [List.getLast?_cons_cons, List.getLast?_cons_cons]
    exact h.2

theorem isLine_of_mem_frameLines {f : Frame} (hf : Writable f) {l : List Char}
    (h : l ∈ frameLines f) : IsLine l := by
  unfold frameLines fieldLines at h
  simp only [List.mem_append, List.mem_map, List.mem_singleton, Option.mem_toList] at h
  rcases h with ((⟨text, rfl, rfl⟩ | ⟨text, htext, rfl⟩) | ⟨text, ⟨id, hid, rfl⟩, rfl⟩) | rfl
  · exact isLine_fieldLine (by decide) hf.event
  · exact isLine_fieldLine (by decide) ⟨Text.not_mem_of_mem_splitOn htext, hf.data text htext⟩
  · exact isLine_fieldLine (by decide) (hf.id id hid)
  · exact ⟨List.not_mem_nil, by simp⟩

/-! ## The round trip -/

/-- Frames that are written are read back as they were: none is lost, merged, doubled or changed,
however the octets are cut into chunks, whichever way each line ends, and wherever comments and
unknown fields stand between the lines. -/
theorem decode_written (written : List Frame) (lines : List (List Char × LineEnd))
    (chunks : List (List UInt8)) (hwritable : ∀ f ∈ written, Writable f)
    (hlines : Sprinkled (written.flatMap frameLines) (lines.map Prod.fst))
    (hchunks : chunks.flatten = Text.octets (String.ofList (textOf lines))) :
    let d : Decoder := {}
    (d.pushes chunks).1.flatten ++ (d.pushes chunks).2.finish.toList = written ∧
      frames (chunks.map .ok) = written.map .ok := by
  have hcore : ∀ l ∈ written.flatMap frameLines, IsLine l := by
    intro l hl
    obtain ⟨f, hf, hl⟩ := List.mem_flatMap.mp hl
    exact isLine_of_mem_frameLines (hwritable f hf) hl
  have hfeed : ∀ l ∈ lines, '\n' ∉ l.1 := fun l hl =>
    lineFeed_not_mem_of_sprinkled hlines (fun l hl => (hcore l hl).1) l.1 (List.mem_map_of_mem hl)
  have hread :
      feed {} ((lines.map Prod.fst).map (List.rdropWhile (· == '\r'))) = (written, {}) := by
    rw [feed_sprinkled hlines fun l hl => (hcore l hl).2, feed_flatMap_frameLines]
  have hdecode : decode chunks.flatten = written := by
    calc decode chunks.flatten
        = reading (textOf lines ++ ['\n', '\n']) := by
          rw [decode_eq_push, Decoder.push_eq_reading, lossy_lineFeeds, hchunks,
            Text.lossy_octets, String.toList_ofList]
      _ = (feed {} ((lines.map Prod.fst).map (List.rdropWhile (· == '\r')) ++ [[], []])).1 := by
          rw [reading, linesOf_textOf hfeed, feed_frames]
          rfl
      _ = written := by
          rw [feed_append, hread]
          exact List.append_nil _
  exact ⟨(decode_flatten chunks).trans hdecode, (frames_map_ok chunks).trans (congrArg _ hdecode)⟩

/-- A frame with all its fields, a character of two octets and data of two lines. -/
def accented : Frame := { event := "é", data := "\n: x", id := some "" }

/-- The frame written with a comment, an unknown field and both kinds of line ends. -/
def accentedLines : List (List Char × LineEnd) :=
  [("event: é".toList, .crlf), (": ping".toList, .lf), ("data: ".toList, .lf),
    ("retry: 5".toList, .crlf), ("data: : x".toList, .lf), ("id: ".toList, .lf), ([], .crlf)]

/-- Its octets, cut inside the character of two octets and inside a line end. -/
def accentedChunks : List (List UInt8) :=
  [[101, 118, 101, 110, 116, 58, 32, 195],
    [169, 13, 10, 58, 32, 112, 105, 110, 103, 10, 100, 97, 116, 97, 58, 32, 10, 114, 101, 116, 114,
      121, 58, 32, 53, 13],
    [10, 100, 97, 116, 97, 58, 32, 58, 32, 120, 10, 105, 100, 58, 32, 10, 13, 10]]

theorem decode_written_accented :
    (∀ f ∈ [accented], Writable f) ∧
      Sprinkled ([accented].flatMap frameLines) (accentedLines.map Prod.fst) ∧
      accentedChunks.flatten = Text.octets (String.ofList (textOf accentedLines)) ∧
      frames (accentedChunks.map .ok) = [.ok accented] := by
  have hwritable : ∀ f ∈ [accented], Writable f := by
    intro f hf
    cases List.mem_singleton.mp hf
    refine ⟨⟨by decide, by decide⟩, by decide, fun id hid => ?_⟩
    cases hid
    exact ⟨by decide, by decide⟩
  have hping : Noise ": ping".toList := @Noise.comment " ping".toList (by decide)
  have hretry : Noise "retry: 5".toList :=
    @Noise.unknown "retry".toList " 5".toList (by decide) (by decide) (by decide) (by decide)
  have hlines : Sprinkled ([accented].flatMap frameLines) (accentedLines.map Prod.fst) :=
    .line _ (.noise hping (.line _ (.noise hretry (.line _ (.line _ (.line _ .nil))))))
  have hchunks : accentedChunks.flatten = Text.octets (String.ofList (textOf accentedLines)) := by
    rw [Text.octets_eq, String.toList_ofList]
    decide
  exact ⟨hwritable, hlines, hchunks, (decode_written _ _ _ hwritable hlines hchunks).2⟩

end PromptStudio.Sse
