import PromptStudio.Proofs.Session.Step
import PromptStudio.Session.Drive

/-!
# Following a stream alone

What a panel hears of the frames of a stream is the fold of their events up to the first terminal
one (`Panel.listen`). `consume_eq` runs the loop of an operation that nobody disturbs: it applies
the frames up to the first end (`World.applyFrames`), and then settles the panel.
-/

namespace PromptStudio

/-! ## The events of frames -/

/-- The elements up to and including the first that satisfies `p`. -/
def upTo {α : Type} (p : α → Bool) : List α → List α
  | [] => []
  | x :: xs => if p x then [x] else x :: upTo p xs

namespace EventFamily

variable {ε σ : Type} [EventFamily ε]

/-- The events that frames deliver, up to and including the first terminal one. Frames that are no
event and keepalives deliver none. -/
def heard (ε : Type) [EventFamily ε] (frames : List Frame) : List ε :=
  upTo isTerminal ((frames.filterMap ofFrame?).filter fun e => !isKeepalive e)

/-- Of a fold over the events of frames the first frame does the first step, and the last one if it
is the end. -/
theorem foldl_heard_cons (apply : σ → ε → σ)
    (hidle : ∀ s (e : ε), isKeepalive e = true → apply s e = s)
    (hopen : ∀ e : ε, isKeepalive e = true → isTerminal e = false)
    (s : σ) (f : Frame) (frames : List Frame) :
    (heard ε (f :: frames)).foldl apply s =
      if (World.endOf?.outcomeOf (ofFrame? f : Option ε)).isSome then
        (ofFrame? f).elim s (apply s)
      else (heard ε frames).foldl apply ((ofFrame? f).elim s (apply s)) := by
  unfold heard
  cases h : (ofFrame? f : Option ε) with
  | none =>
    rw [List.filterMap_cons_none h]
    rfl
  | some e =>
    rw [List.filterMap_cons_some h]
    unfold World.endOf?.outcomeOf
    dsimp only [Option.elim]
    cases hk : isKeepalive e with
    | true => simp [hk, hopen e hk, hidle s e hk]
    | false =>
      rw [List.filter_cons_of_pos (by simp [hk]), upTo]
      by_cases ht : isTerminal e = true <;> simp [ht]

end EventFamily

/-! ## What a panel hears -/

namespace Panel

variable {mode : Mode} {f : Frame} {o : Outcome}

/-- The panel after the events that the frames of its stream deliver. -/
def listen (p : Panel) (mode : Mode) (frames : List Frame) : Panel :=
  match mode with
  | .workflow => (EventFamily.heard BuildEvent frames).foldl (fun p e => (p.applyBuild e).1) p
  | .webCreator => (EventFamily.heard SiteEvent frames).foldl (fun p e => (p.applySite e).1) p

@[simp] theorem listen_nil (p : Panel) (mode : Mode) : p.listen mode [] = p := by
  cases mode <;> rfl

/-- A panel hears the first frame, and the others unless the first is the end. -/
theorem listen_cons (p : Panel) (mode : Mode) (f : Frame) (frames : List Frame) :
    p.listen mode (f :: frames) =
      if (World.endOf? mode f).isSome then p.hear mode f
      else (p.hear mode f).listen mode frames := by
  cases mode with
  | workflow =>
    rw [hear_workflow]
    refine EventFamily.foldl_heard_cons _ (fun p e hk => ?_) (fun e hk => ?_) p f frames
    · cases e <;> first | rfl | cases hk
    · cases e <;> first | rfl | cases hk
  | webCreator =>
    rw [hear_webCreator]
    refine EventFamily.foldl_heard_cons _ (fun p e hk => ?_) (fun e hk => ?_) p f frames
    · cases e <;> first | rfl | cases hk
    · cases e <;> first | rfl | cases hk

/-- The end of a stream closes the active turn. -/
theorem active_hear (p : Panel) (h : World.endOf? mode f = some o) :
    (p.hear mode f).active = none := by
  cases mode with
  | workflow =>
    rw [hear_workflow]
    unfold World.endOf? at h
    cases he : (EventFamily.ofFrame? f : Option BuildEvent) with
    | none => rw [he] at h; cases h
    | some e => rw [he] at h; cases e <;> first | rfl | cases h
  | webCreator =>
    rw [hear_webCreator]
    unfold World.endOf? at h
    cases he : (EventFamily.ofFrame? f : Option SiteEvent) with
    | none => rw [he] at h; cases h
    | some e => rw [he] at h; cases e <;> first | rfl | cases h

theorem active_listen (p : Panel) {frames : List Frame}
    (h : frames.findSome? (World.endOf? mode) = some o) : (p.listen mode frames).active = none := by
  induction frames generalizing p with
  | nil => cases h
  | cons f frames ih =>
    rw [listen_cons]
    rw [List.findSome?_cons] at h
    cases hf : World.endOf? mode f with
    | some o' => exact active_hear p hf
    | none =>
      rw [hf] at h
      exact ih _ h

end Panel

/-! ## The loop -/

namespace World

variable {mode m : Mode} {f : Frame} {o : Outcome}

/-- Applies frames up to and including the first that ends their stream. -/
def applyFrames (mode : Mode) (frames : List Frame) (s : Studio) : Studio :=
  (upTo (fun f => (endOf? mode f).isSome) frames).foldl (fun s f => applyFrame mode f s) s

@[simp] theorem applyFrames_nil (mode : Mode) (s : Studio) : applyFrames mode [] s = s := rfl

theorem applyFrames_cons (mode : Mode) (f : Frame) (frames : List Frame) (s : Studio) :
    applyFrames mode (f :: frames) s =
      if (endOf? mode f).isSome then applyFrame mode f s
      else applyFrames mode frames (applyFrame mode f s) := by
  unfold applyFrames
  rw [upTo]
  split <;> rfl

theorem panel_applyFrames (s : Studio) (mode m : Mode) (frames : List Frame) :
    (applyFrames mode frames s).panel m =
      if m = mode then (s.panel mode).listen mode frames else s.panel m := by
  induction frames generalizing s with
  | nil =>
    rw [applyFrames_nil, Panel.listen_nil]
    split
    · rename_i hm
      rw [hm]
    · rfl
  | cons f frames ih =>
    rw [applyFrames_cons, Panel.listen_cons]
    split
    · rw [panel_applyFrame]
    · rw [ih]
      by_cases hm : m = mode <;> simp [hm]

theorem isStreaming_applyFrames (s : Studio) (frames : List Frame) (h : m ≠ mode) :
    (applyFrames mode frames s).isStreaming m = s.isStreaming m := by
  induction frames generalizing s with
  | nil => rfl
  | cons f frames ih =>
    rw [applyFrames_cons]
    split
    · rw [isStreaming_applyFrame, if_neg h]
    · rw [ih, isStreaming_applyFrame, if_neg h]

theorem notices_applyFrames (s : Studio) (mode : Mode) (frames : List Frame) :
    (applyFrames mode frames s).notices = s.notices := by
  induction frames generalizing s with
  | nil => rfl
  | cons f frames ih =>
    rw [applyFrames_cons]
    split
    · exact notices_applyFrame s mode f
    · rw [ih, notices_applyFrame]

/-- A terminal event does not leave the turn open. -/
theorem not_isInterrupted_endOf? (h : endOf? mode f = some o) : o.isInterrupted = false := by
  have houtcome : ∀ {ε : Type} [EventFamily ε] {e : Option ε},
      endOf?.outcomeOf e = some o → o.isInterrupted = false := by
    intro ε _ e he
    unfold endOf?.outcomeOf at he
    split at he
    · split at he
      · obtain rfl := Option.some.inj he
        unfold Outcome.ofFailure
        split <;> rfl
      · cases he
    · cases he
  cases mode <;> exact houtcome h

end World

namespace Operation

variable {w : World} {op : Operation} {token : Token} {graphId executionId : String} {a : Arrival}
  {o : Outcome}

theorem consume_cons (w : World) (op : Operation) (a : Arrival) (as : List Arrival) :
    op.consume w (a :: as) = (op.receive w a).2.consume (op.receive w a).1 as := rfl

/-- An operation that has finished takes no more notice of its stream. -/
theorem consume_finish (w : World) (op : Operation) (r : Except Failure (Option StreamRun))
    (as : List Arrival) : (op.finish r).consume w as = (w, op.finish r) := by
  induction as with
  | nil => rfl
  | cons a as ih =>
    rw [consume_cons]
    cases a <;> exact ih

theorem receive_frame (hs : op.stage = .following token graphId executionId)
    (hc : w.isCancelled op.mode token = false) (f : Frame) :
    op.receive w (.frame f) =
      match World.endOf? op.mode f with
      | some o => ((w.onStudio (World.applyFrame op.mode f)).settle op.mode o,
          op.finishWith graphId executionId o)
      | none => (w.onStudio (World.applyFrame op.mode f), op) := by
  rw [receive_following hs]
  unfold follow
  rw [hc]
  rfl

theorem receive_end (hs : op.stage = .following token graphId executionId)
    (hc : w.isCancelled op.mode token = false) (ha : a.end? w.settings.idleSeconds = some o) :
    op.receive w a = (w.settle op.mode o, op.finishWith graphId executionId o) := by
  rw [receive_following hs]
  unfold follow
  rw [hc]
  cases a <;> first | (obtain rfl := Option.some.inj ha; rfl) | cases ha

/-- The loop of an operation that keeps its panel: the frames are applied up to the first that ends
the stream, or all of them, and then the panel is settled. -/
theorem consume_eq (hs : op.stage = .following token graphId executionId)
    (hc : w.isCancelled op.mode token = false) (frames : List Frame)
    (ha : a.end? w.settings.idleSeconds = some o) :
    op.consume w (frames.map Arrival.frame ++ [a]) =
      let o := (frames.findSome? (World.endOf? op.mode)).getD o
      ((w.onStudio (World.applyFrames op.mode frames)).settle op.mode o,
        op.finishWith graphId executionId o) := by
  induction frames generalizing w with
  | nil => exact receive_end hs hc ha
  | cons f frames ih =>
    rw [List.map_cons, List.cons_append, consume_cons, receive_frame hs hc, List.findSome?_cons]
    cases hf : World.endOf? op.mode f with
    | some o' =>
      have hfirst : World.applyFrames op.mode (f :: frames) = World.applyFrame op.mode f := by
        funext s
        rw [World.applyFrames_cons, hf]
        rfl
      rw [hfirst]
      exact consume_finish _ op _ _
    | none =>
      have hrest : World.applyFrames op.mode (f :: frames) =
          fun s => World.applyFrames op.mode frames (World.applyFrame op.mode f s) := by
        funext s
        rw [World.applyFrames_cons, hf]
        rfl
      have hc' : (w.onStudio (World.applyFrame op.mode f)).isCancelled op.mode token = false := by
        unfold World.isCancelled
        rw [World.control_onStudio]
        exact hc
      rw [hrest]
      exact ih hc' ha

end Operation

end PromptStudio
