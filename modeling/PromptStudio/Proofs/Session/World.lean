import PromptStudio.Proofs.Chat.Panel
import PromptStudio.Session.World

/-!
# What the shared steps touch

One lemma for each thing that operations share (the panel of a mode, its busy flag, the notices,
its tokens) and each of the steps of `World`. The modes are kept apart by `if m = mode`, so the
same lemma says what a step does to its own panel and that it leaves the other one alone.
-/

namespace PromptStudio

variable {mode : Mode} {f : Frame}

namespace Studio

variable (s : Studio) (mode m : Mode)

@[simp] theorem panel_onPanel (g : Panel → Panel) :
    (s.onPanel mode g).panel m = if m = mode then g (s.panel mode) else s.panel m := by
  cases mode <;> cases m <;> rfl

@[simp] theorem isStreaming_onPanel (g : Panel → Panel) :
    (s.onPanel mode g).isStreaming m = s.isStreaming m := by
  cases mode <;> cases m <;> rfl

@[simp] theorem notices_onPanel (g : Panel → Panel) : (s.onPanel mode g).notices = s.notices := by
  cases mode <;> rfl

@[simp] theorem panel_setStreaming (on : Bool) : (s.setStreaming mode on).panel m = s.panel m := by
  cases mode <;> cases m <;> rfl

@[simp] theorem isStreaming_setStreaming (on : Bool) :
    (s.setStreaming mode on).isStreaming m = if m = mode then on else s.isStreaming m := by
  cases mode <;> cases m <;> rfl

@[simp] theorem notices_setStreaming (on : Bool) :
    (s.setStreaming mode on).notices = s.notices := by
  cases mode <;> rfl

@[simp] theorem panel_notify (notice : String) : (s.notify notice).panel m = s.panel m := by
  cases m <;> rfl

@[simp] theorem isStreaming_notify (notice : String) :
    (s.notify notice).isStreaming m = s.isStreaming m := by
  cases m <;> rfl

@[simp] theorem notices_notify (notice : String) :
    (s.notify notice).notices = s.notices ++ [notice] := rfl

end Studio

/-! ## Frames -/

namespace World

@[simp] theorem panel_applyFrame (s : Studio) (mode m : Mode) (f : Frame) :
    (applyFrame mode f s).panel m = if m = mode then (s.panel mode).hear mode f else s.panel m := by
  cases mode with
  | workflow =>
    unfold applyFrame Studio.applyBuild? Panel.hear
    generalize (EventFamily.ofFrame? f : Option BuildEvent) = e
    cases m <;> rcases e with _ | (_ | _ | _ | _ | _) <;> rfl
  | webCreator =>
    unfold applyFrame Studio.applySite? Panel.hear
    generalize (EventFamily.ofFrame? f : Option SiteEvent) = e
    cases m <;> rcases e with _ | (_ | _ | _ | _ | _ | _ | _ | _ | _ | _) <;> rfl

/-- A start marks the panel as busy, an end of the stream as idle. -/
@[simp] theorem isStreaming_applyFrame (s : Studio) (mode m : Mode) (f : Frame) :
    (applyFrame mode f s).isStreaming m =
      if m = mode then (f.isStart mode || (endOf? mode f).isNone && s.isStreaming m)
      else s.isStreaming m := by
  cases mode with
  | workflow =>
    unfold applyFrame Studio.applyBuild? Frame.isStart endOf?
    generalize (EventFamily.ofFrame? f : Option BuildEvent) = e
    cases m <;> rcases e with _ | (_ | _ | _ | _ | _) <;> rfl
  | webCreator =>
    unfold applyFrame Studio.applySite? Frame.isStart endOf?
    generalize (EventFamily.ofFrame? f : Option SiteEvent) = e
    cases m <;> rcases e with _ | (_ | _ | _ | _ | _ | _ | _ | _ | _ | _) <;> rfl

@[simp] theorem notices_applyFrame (s : Studio) (mode : Mode) (f : Frame) :
    (applyFrame mode f s).notices = s.notices := by
  cases mode with
  | workflow =>
    unfold applyFrame Studio.applyBuild?
    generalize (EventFamily.ofFrame? f : Option BuildEvent) = e
    rcases e with _ | (_ | _ | _ | _ | _) <;> rfl
  | webCreator =>
    unfold applyFrame Studio.applySite?
    generalize (EventFamily.ofFrame? f : Option SiteEvent) = e
    rcases e with _ | (_ | _ | _ | _ | _ | _ | _ | _ | _ | _) <;> rfl

/-- The beginning of a turn is not the end of a stream. -/
theorem endOf?_of_isStart (h : f.isStart mode = true) : endOf? mode f = none := by
  cases mode with
  | workflow =>
    unfold Frame.isStart at h
    unfold endOf?
    generalize (EventFamily.ofFrame? f : Option BuildEvent) = e at h
    rcases e with _ | (_ | _ | _ | _ | _) <;> first | rfl | cases h
  | webCreator =>
    unfold Frame.isStart at h
    unfold endOf?
    generalize (EventFamily.ofFrame? f : Option SiteEvent) = e at h
    rcases e with _ | (_ | _ | _ | _ | _ | _ | _ | _ | _ | _) <;> first | rfl | cases h

/-! ## Tokens -/

variable (w : World) (mode m : Mode)

@[simp] theorem control_onStudio (g : Studio → Studio) :
    (w.onStudio g).control m = w.control m := by
  cases m <;> rfl

@[simp] theorem studio_onStudio (g : Studio → Studio) : (w.onStudio g).studio = g w.studio := rfl

@[simp] theorem tasks_onStudio (g : Studio → Studio) : (w.onStudio g).tasks = w.tasks := rfl

@[simp] theorem control_withControl (c : Control) :
    (w.withControl mode c).control m = if m = mode then c else w.control m := by
  cases mode <;> cases m <;> rfl

@[simp] theorem studio_withControl (c : Control) : (w.withControl mode c).studio = w.studio := by
  cases mode <;> rfl

@[simp] theorem tasks_withControl (c : Control) : (w.withControl mode c).tasks = w.tasks := by
  cases mode <;> rfl

@[simp] theorem settings_withControl (c : Control) :
    (w.withControl mode c).settings = w.settings := by
  cases mode <;> rfl

@[simp] theorem control_takeOver :
    (w.takeOver mode).1.control m = if m = mode then (w.control mode).renew.1 else w.control m := by
  unfold takeOver
  simp

@[simp] theorem studio_takeOver : (w.takeOver mode).1.studio = w.studio := by
  unfold takeOver
  simp

@[simp] theorem settings_takeOver : (w.takeOver mode).1.settings = w.settings := by
  unfold takeOver
  simp

@[simp] theorem tasks_takeOver : (w.takeOver mode).1.tasks = w.tasks := by
  unfold takeOver
  simp

/-! ## Giving up, settling and stopping -/

@[simp] theorem control_refuse (e : Failure) : (w.refuse mode e).control m = w.control m := by
  unfold refuse
  simp

@[simp] theorem panel_refuse (e : Failure) :
    (w.refuse mode e).studio.panel m = w.studio.panel m := by
  unfold refuse
  by_cases h : e.isNetwork <;> simp [h]

@[simp] theorem isStreaming_refuse (e : Failure) :
    (w.refuse mode e).studio.isStreaming m =
      if m = mode then false else w.studio.isStreaming m := by
  unfold refuse
  by_cases h : e.isNetwork <;> simp [h]

@[simp] theorem notices_refuse (e : Failure) :
    (w.refuse mode e).studio.notices =
      w.studio.notices ++ if e.isNetwork then ["Network error: " ++ e.message] else [] := by
  unfold refuse
  by_cases h : e.isNetwork <;> simp [h]

@[simp] theorem control_settle (o : Outcome) : (w.settle mode o).control m = w.control m := by
  unfold settle
  simp

@[simp] theorem panel_settle (o : Outcome) :
    (w.settle mode o).studio.panel m =
      if m = mode ∧ o.isInterrupted = true then (w.studio.panel m).detach
      else w.studio.panel m := by
  unfold settle
  cases o <;> by_cases h : m = mode <;> simp [h, Outcome.isInterrupted]

theorem panel_settle_or (o : Outcome) :
    (w.settle mode o).studio.panel mode = w.studio.panel mode ∨
      (w.settle mode o).studio.panel mode = (w.studio.panel mode).detach := by
  rw [panel_settle]
  split
  · exact .inr rfl
  · exact .inl rfl

@[simp] theorem isStreaming_settle (o : Outcome) :
    (w.settle mode o).studio.isStreaming m =
      if m = mode then false else w.studio.isStreaming m := by
  unfold settle
  cases o <;> simp [Outcome.isInterrupted]

/-- Only a lost connection is shown. -/
theorem notices_settle (o : Outcome) :
    (w.settle mode o).studio.notices =
      w.studio.notices ++
        match o with
        | .disconnected cause => ["Connection lost: " ++ cause.message]
        | _ => [] := by
  unfold settle
  cases o <;> simp [Outcome.isInterrupted]

@[simp] theorem control_stop :
    (w.stop mode).control m = if m = mode then (w.control mode).abort.1 else w.control m := by
  unfold stop
  simp

@[simp] theorem studio_stop : (w.stop mode).studio = w.studio := by
  unfold stop
  simp

@[simp] theorem tasks_stop : (w.stop mode).tasks = w.tasks := by
  unfold stop
  simp

@[simp] theorem control_clear : (w.clear mode).control m = w.control m := by
  unfold clear
  simp

@[simp] theorem tasks_clear : (w.clear mode).tasks = w.tasks := rfl

@[simp] theorem panel_clear :
    (w.clear mode).studio.panel m =
      if m = mode then (w.studio.panel m).detach else w.studio.panel m := by
  unfold clear
  by_cases h : m = mode <;> simp [h]

@[simp] theorem isStreaming_clear :
    (w.clear mode).studio.isStreaming m =
      if m = mode then false else w.studio.isStreaming m := by
  unfold clear
  simp

@[simp] theorem control_abort :
    (w.abort mode).control m = if m = mode then (w.control mode).abort.1 else w.control m := by
  unfold abort
  simp

@[simp] theorem panel_abort :
    (w.abort mode).studio.panel m =
      if m = mode then (w.studio.panel m).detach else w.studio.panel m := by
  unfold abort
  by_cases h : m = mode <;> simp [h]

@[simp] theorem isStreaming_abort :
    (w.abort mode).studio.isStreaming m =
      if m = mode then false else w.studio.isStreaming m := by
  unfold abort
  simp

/-! ## Prompts -/

@[simp] theorem panel_recordPrompt (s : Studio) (text : String) :
    (recordPrompt mode text s).panel m =
      if m = mode then (s.panel mode).ask mode text else s.panel m := by
  unfold recordPrompt Panel.ask Panel.nextPrompt
  cases mode <;> cases m <;> simp [Panel.addPrompt, Panel.addLoading, Panel.detach]

@[simp] theorem isStreaming_recordPrompt (s : Studio) (text : String) :
    (recordPrompt mode text s).isStreaming m = if m = mode then true else s.isStreaming m := by
  unfold recordPrompt
  simp

@[simp] theorem notices_recordPrompt (s : Studio) (text : String) :
    (recordPrompt mode text s).notices = s.notices := by
  unfold recordPrompt
  simp

end World

end PromptStudio
