import Mathlib.Data.List.TakeWhile
import PromptStudio.Proofs.Chat.Turn

/-!
# Transcripts of turns

Each prompt of a panel is followed by what the frames of one stream have made of its reply.
`Answers` is the invariant of a panel whose operations overlap: up to ids its transcript shows the
turns of the prompts one after the other, and an operation that holds the panel feeds the last of
them, or can change nothing any more. The lemmas say what a further prompt, a frame and a stop do to
it. A prompt may be recorded by the operation that holds the panel (`Answers.ask`) or by one that
has been superseded already (`Answers.ask_late`).
-/

namespace PromptStudio.Panel

/-- A prompt of a panel, and what has been heard in reply to it. -/
structure Answer where
  /-- The operation that has recorded the prompt. -/
  number : Nat
  text : String
  /-- The operation whose stream has been heard. -/
  source : Nat
  frames : List Frame

variable {p : Panel} {mode : Mode} {answers : List Answer} {heard heard' : Nat → List Frame}
  {holds holds' : Nat → Prop} {n : Nat} {text : String} {f : Frame}

/-- What a panel shows of a prompt and its answer alone. -/
def Answer.shown (mode : Mode) (r : Answer) : List Entry :=
  (turn mode r.text r.frames).entries.map Entry.unnamed

/-- An operation that holds the panel feeds the answer to the last prompt. -/
inductive Feeds (p : Panel) (mode : Mode) (answers : List Answer) (heard : Nat → List Frame)
    (n : Nat) : Prop
  | intro (before : List Answer) (text : String) (number : Nat) (pre : List Entry)
      (last : answers = before ++ [⟨number, text, n, heard n⟩])
      (echoes : Echoes pre p (turn mode text (heard n)))

/-- The transcript is up to ids the turns of the prompts. An operation that holds the panel feeds
the last of them; or its stream has started, and the turn is no longer active. -/
structure Answers (p : Panel) (mode : Mode) (answers : List Answer) (heard : Nat → List Frame)
    (holds : Nat → Prop) : Prop where
  mode_eq : p.mode = mode
  shown : p.entries.map Entry.unnamed = answers.flatMap (Answer.shown mode)
  last : ∀ n, holds n → Feeds p mode answers heard n ∨
    p.active = none ∧ ∃ f ∈ heard n, f.isStart mode = true

theorem Answers.congr (h : p.Answers mode answers heard holds)
    (hheard : ∀ k, holds' k → heard' k = heard k) (hholds : ∀ k, holds' k → holds k) :
    p.Answers mode answers heard' holds' where
  mode_eq := h.mode_eq
  shown := h.shown
  last k hk := by
    rw [hheard k hk]
    refine (h.last k (hholds k hk)).imp_left fun hfeeds => ?_
    obtain ⟨before, text, number, pre, rfl, hechoes⟩ := hfeeds
    rw [← hheard k hk] at hechoes
    exact ⟨before, text, number, pre, by rw [hheard k hk], hechoes⟩

theorem Feeds.idle (h : Feeds p mode answers heard n)
    (hidle : ∀ f ∈ heard n, f.isStart mode = false) : p.active = none := by
  obtain ⟨_, text, _, _, _, _, _, _, _, _, _, _, _, _, hactive⟩ := h
  rcases hactive with ⟨hnone, _⟩ | ⟨_, hsome⟩
  · exact hnone
  · rw [active_turn_of_idle hidle text] at hsome
    cases hsome

/-- To let go of the active turn takes nothing from an operation whose stream has not started, and
leaves one whose stream has started without effect. -/
theorem Answers.detach (h : p.Answers mode answers heard holds) :
    p.detach.Answers mode answers heard holds where
  mode_eq := h.mode_eq
  shown := h.shown
  last n hn := by
    by_cases hstart : ∃ f ∈ heard n, f.isStart mode = true
    · exact .inr ⟨rfl, hstart⟩
    · have hidle : ∀ f ∈ heard n, f.isStart mode = false := fun f hf =>
        Bool.eq_false_iff.mpr fun e => hstart ⟨f, hf, e⟩
      rcases h.last n hn with hfeeds | ⟨_, hstarted⟩
      · rw [detach_of_active (hfeeds.idle hidle)]
        exact .inl hfeeds
      · exact absurd hstarted hstart

/-- A further prompt shows a turn of which nothing has been heard. -/
theorem Answers.shown_ask (h : p.Answers mode answers heard holds) {r : Answer}
    (hr : turn mode r.text r.frames = turn mode r.text []) :
    (p.ask mode r.text).mode = mode ∧
      (p.ask mode r.text).entries.map Entry.unnamed =
        (answers ++ [r]).flatMap (Answer.shown mode) := by
  refine ⟨by rw [mode_ask, h.mode_eq], ?_⟩
  rw [(echoes_ask h.mode_eq r.text).entries, h.shown, List.flatMap_append, List.flatMap_singleton]
  unfold Answer.shown
  rw [hr]

/-- The prompt of the operation that holds the panel, which has heard nothing yet. -/
theorem Answers.ask (h : p.Answers mode answers heard holds) (text : String)
    (hheard : heard n = []) (hholds : ∀ k, holds' k → k = n) :
    (p.ask mode text).Answers mode (answers ++ [⟨n, text, n, []⟩]) heard holds' := by
  obtain ⟨hmode, hshown⟩ := h.shown_ask (r := ⟨n, text, n, []⟩) rfl
  refine ⟨hmode, hshown, fun k hk => .inl ?_⟩
  obtain rfl := hholds k hk
  refine ⟨answers, text, k, p.entries, by rw [hheard], ?_⟩
  rw [hheard]
  exact echoes_ask h.mode_eq text

/-- The prompt of an operation that has been superseded. If another one holds the panel and its
stream has not started, that one feeds the answer from now on. -/
theorem Answers.ask_late (h : p.Answers mode answers heard holds) (n : Nat) (text : String)
    (hunique : ∀ j k, holds j → holds k → j = k) :
    ∃ r : Answer, r.number = n ∧ r.text = text ∧
      (r.source = n ∧ r.frames = [] ∨ holds r.source ∧ r.frames = heard r.source) ∧
      (p.ask mode text).Answers mode (answers ++ [r]) heard holds := by
  by_cases hfed : ∃ k, holds k ∧ ∀ f ∈ heard k, f.isStart mode = false
  · obtain ⟨k, hk, hidle⟩ := hfed
    have hturn : turn mode text (heard k) = turn mode text [] := by
      have hback := turn_of_idle hidle text []
      rwa [List.append_nil] at hback
    obtain ⟨hmode, hshown⟩ := h.shown_ask (r := ⟨n, text, k, heard k⟩) hturn
    refine ⟨⟨n, text, k, heard k⟩, rfl, rfl, .inr ⟨hk, rfl⟩, hmode, hshown, fun j hj => .inl ?_⟩
    obtain rfl := hunique j k hj hk
    refine ⟨answers, text, n, p.entries, rfl, ?_⟩
    rw [hturn]
    exact echoes_ask h.mode_eq text
  · obtain ⟨hmode, hshown⟩ := h.shown_ask (r := ⟨n, text, n, []⟩) rfl
    refine ⟨⟨n, text, n, []⟩, rfl, rfl, .inl ⟨rfl, rfl⟩, hmode, hshown, fun j hj => .inr ?_⟩
    refine ⟨active_ask p mode text, ?_⟩
    by_contra hstart
    exact hfed ⟨j, hj, fun f hf => Bool.eq_false_iff.mpr fun e => hstart ⟨f, hf, e⟩⟩

/-- A frame that the operation `n` hears is fed to the answer to the last prompt, or has no
effect. -/
theorem Answers.hear (heard' : Nat → List Frame) (h : p.Answers mode answers heard holds)
    (hn : holds n) (hunique : ∀ j k, holds j → holds k → j = k)
    (hcount : (heard n ++ [f]).countP (·.isStart mode) ≤ 1) (hself : heard' n = heard n ++ [f]) :
    ∃ answers', (p.hear mode f).Answers mode answers' heard' holds ∧
      (answers' = answers ∨ ∃ before number text, answers = before ++ [⟨number, text, n, heard n⟩] ∧
        answers' = before ++ [⟨number, text, n, heard' n⟩]) := by
  -- a start is the only one
  have hfirst : f.isStart mode = true → ∀ g ∈ heard n, g.isStart mode = false := by
    intro hf g hg
    rw [List.countP_append, List.countP_singleton, if_pos hf] at hcount
    have hnone : (heard n).countP (·.isStart mode) = 0 := by omega
    exact Bool.eq_false_iff.mpr (List.countP_eq_zero.mp hnone g hg)
  rcases h.last n hn with ⟨before, text, number, pre, rfl, hechoes⟩ | ⟨hidle, g, hg, hstart⟩
  · have hnext : Echoes pre (p.hear mode f) (turn mode text (heard' n)) := by
      rw [hself, turn_concat]
      exact hechoes.hear fun hf => active_turn_of_idle (hfirst hf) text
    have hbefore : pre.map Entry.unnamed = before.flatMap (Answer.shown mode) := by
      have hshown := h.shown
      rw [hechoes.entries, List.flatMap_append, List.flatMap_singleton] at hshown
      exact List.append_cancel_right hshown
    refine ⟨before ++ [⟨number, text, n, heard' n⟩], ⟨?_, ?_, fun k hk => .inl ?_⟩,
      .inr ⟨before, number, text, rfl, rfl⟩⟩
    · rw [mode_hear, h.mode_eq]
    · rw [hnext.entries, hbefore, List.flatMap_append, List.flatMap_singleton]
      rfl
    · obtain rfl := hunique k n hk hn
      exact ⟨before, text, number, pre, rfl, hnext⟩
  · have hsame : p.hear mode f = p := by
      refine hear_of_active hidle (Bool.eq_false_iff.mpr fun hf => ?_)
      rw [hfirst hf g hg] at hstart
      cases hstart
    refine ⟨answers, ⟨?_, ?_, fun k hk => .inr ?_⟩, .inl rfl⟩
    · rw [hsame, h.mode_eq]
    · rw [hsame, h.shown]
    · obtain rfl := hunique k n hk hn
      rw [hsame, hself]
      exact ⟨hidle, g, List.mem_append_left _ hg, hstart⟩

/-! ## The turns of a transcript -/

/-- A list whose image is made of pieces is made of pieces. -/
theorem exists_pieces {α β γ : Type} {g : β → γ} {pieces : α → List γ} {ps : List α} {xs : List β}
    (h : xs.map g = ps.flatMap pieces) :
    ∃ yss : List (List β), xs = yss.flatten ∧
      List.Forall₂ (fun a ys => ys.map g = pieces a) ps yss := by
  induction ps generalizing xs with
  | nil => exact ⟨[], List.map_eq_nil_iff.mp h, .nil⟩
  | cons a ps ih =>
    rw [List.flatMap_cons] at h
    obtain ⟨ys, rest, rfl, hys, hrest⟩ := List.map_eq_append_iff.mp h
    obtain ⟨yss, rfl, hall⟩ := ih hrest
    exact ⟨ys :: yss, rfl, .cons hys hall⟩

/-- These entries are the turn of a prompt and of the frames heard in reply: a prompt and one reply,
which may be missing only in the panel that builds sites; up to ids they are what a panel shows of
this turn alone; and the frames before the start make no difference to that. -/
structure TurnOf (mode : Mode) (text : String) (frames : List Frame) (es : List Entry) : Prop where
  roles : es.map Entry.role = [.user, .assistant] ∨
    mode = .webCreator ∧ es.map Entry.role = [.user]
  shown : es.map Entry.unnamed = (turn mode text frames).entries.map Entry.unnamed
  started : turn mode text frames =
    turn mode text (frames.dropWhile fun f => !f.isStart mode)

theorem turnOf_of_shown {frames : List Frame} {es : List Entry}
    (hcount : frames.countP (·.isStart mode) ≤ 1)
    (h : es.map Entry.unnamed = (turn mode text frames).entries.map Entry.unnamed) :
    TurnOf mode text frames es where
  roles := by
    have hroles := congrArg (List.map Entry.role) h
    rw [List.map_map, List.map_map] at hroles
    have hsame : es.map Entry.role = (turn mode text frames).entries.map Entry.role := hroles
    rw [hsame]
    exact roles_turn text hcount
  shown := h
  started := by
    have hidle : ∀ f ∈ frames.takeWhile (fun f => !f.isStart mode), f.isStart mode = false := by
      intro f hf
      simpa using List.mem_takeWhile_imp hf
    have hturn := turn_of_idle hidle text (frames.dropWhile fun f => !f.isStart mode)
    rwa [List.takeWhile_append_dropWhile] at hturn

/-- The transcript is made of the turns of the prompts. -/
theorem Answers.turns (h : p.Answers mode answers heard holds)
    (hcount : ∀ r ∈ answers, r.frames.countP (·.isStart mode) ≤ 1) :
    ∃ turns : List (List Entry), p.entries = turns.flatten ∧
      List.Forall₂ (fun r es => TurnOf mode r.text r.frames es) answers turns := by
  obtain ⟨turns, hflat, hall⟩ := exists_pieces h.shown
  refine ⟨turns, hflat, ?_⟩
  clear hflat h
  induction hall with
  | nil => exact .nil
  | cons hq _ ih =>
    refine .cons (turnOf_of_shown (hcount _ List.mem_cons_self) hq) (ih fun q hq => ?_)
    exact hcount q (List.mem_cons_of_mem _ hq)

end PromptStudio.Panel
