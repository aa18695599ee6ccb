import PromptStudio.Proofs.Session.Step
import PromptStudio.Session.Lock

/-!
# Steps and the lock

`Reach` lists what an operation can do up to the lock, one constructor for each kind of step with
its guard, and `Enter` what it can do with the lock; `reach_cases` and `enter_cases` say that it
does nothing else. Up to the lock an operation leaves the studio as it is (`studio_reach`), and with
the lock the tokens (`control_enter`). What it waits for the lock for belongs to its stage
(`Section.Fits`). If it always gets the lock at once, the two halves make up its step
(`together_receive`).
-/

namespace PromptStudio

/-- What an operation at this stage may wait for the lock for. -/
inductive Section.Fits : Section → Stage → Prop
  | record {text token workflowId} : Fits (.record text) (.submitting token workflowId text)
  | mark {token graphId executionId} : Fits .mark (.opening token graphId executionId)
  | noTicket {e token workflowId text} : Fits (.refuse e) (.submitting token workflowId text)
  | noStream {e token graphId executionId} : Fits (.refuse e) (.opening token graphId executionId)
  | load {entries workflowId} : Fits (.load entries) (.loading workflowId)
  | apply {f token graphId executionId} : Fits (.apply f) (.following token graphId executionId)
  | settle {o token graphId executionId} : Fits (.settle o) (.following token graphId executionId)

namespace Section.Fits

variable {text : String} {entries : List Entry} {f : Frame} {o : Outcome} {stage : Stage}

theorem of_record (h : Fits (.record text) stage) :
    ∃ token workflowId, stage = .submitting token workflowId text := by
  cases h
  exact ⟨_, _, rfl⟩

theorem of_load (h : Fits (.load entries) stage) : ∃ workflowId, stage = .loading workflowId := by
  cases h
  exact ⟨_, rfl⟩

theorem of_apply (h : Fits (.apply f) stage) :
    ∃ token graphId executionId, stage = .following token graphId executionId := by
  cases h
  exact ⟨_, _, _, rfl⟩

theorem of_settle (h : Fits (.settle o) stage) :
    ∃ token graphId executionId, stage = .following token graphId executionId := by
  cases h
  exact ⟨_, _, _, rfl⟩

end Section.Fits

namespace Operation

variable {w : World} {op : Operation} {a : Arrival} {m : Mode} {t : Token} {part : Section}

/-- What an operation can do up to the lock. -/
inductive Reach (w : World) (op : Operation) (a : Arrival) :
    (World × Operation) × Option Section → Prop
  | ignored : Reach w op a ((w, op), none)
  | ticketed {token workflowId text t} (hs : op.stage = .submitting token workflowId text)
      (ha : a = .ticket (.ok t)) :
      Reach w op a
        (({ w with tasks := w.tasks.set (World.space op.mode) t.graphId t.executionId },
          { op with stage := .opening token t.graphId t.executionId }), none)
  | refused {e} (he : op.refusal? a = some e) (hfits : (Section.refuse e).Fits op.stage) :
      Reach w op a ((w, op), some (.refuse e))
  | resumed {executionId x} (hs : op.stage = .lookingUp executionId)
      (ha : a = .execution (.ok x)) (hx : x.status.isResumable = true) :
      Reach w op a
        (((w.takeOver op.mode).1,
          { op with stage := .opening (w.takeOver op.mode).2 x.graphId executionId }), some .mark)
  | dismissed {executionId r} (hs : op.stage = .lookingUp executionId) :
      Reach w op a ((w, op.finish r), none)
  | opened {token graphId executionId} (hs : op.stage = .opening token graphId executionId)
      (ha : a = .opened (.ok ())) :
      Reach w op a ((w, { op with stage := .following token graphId executionId }), none)
  | loaded {workflowId entries} (hs : op.stage = .loading workflowId)
      (ha : a = .history (.ok entries)) : Reach w op a ((w, op), some (.load entries))
  | unloaded {workflowId e} (hs : op.stage = .loading workflowId) :
      Reach w op a ((w, op.finish (.error e)), none)
  | noticed {token graphId executionId} (hs : op.stage = .following token graphId executionId)
      (hc : w.isCancelled op.mode token = true) :
      Reach w op a ((w, op.finishWith graphId executionId .aborted), none)
  | heard {token graphId executionId f} (hs : op.stage = .following token graphId executionId)
      (hc : w.isCancelled op.mode token = false) (ha : a = .frame f) :
      Reach w op a ((w, op), some (.apply f))
  | lost {token graphId executionId o} (hs : op.stage = .following token graphId executionId)
      (hc : w.isCancelled op.mode token = false) (ha : a.end? w.settings.idleSeconds = some o) :
      Reach w op a ((w, op), some (.settle o))

theorem reach_of_following {token : Token} {graphId executionId : String}
    (hs : op.stage = .following token graphId executionId) (a : Arrival) :
    Reach w op a (op.reach w a) := by
  unfold reach
  rw [hs]
  dsimp only
  cases hc : w.isCancelled op.mode token with
  | true => exact .noticed hs hc
  | false =>
    simp only [Bool.false_eq_true, if_false]
    cases a with
    | frame f => exact .heard hs hc rfl
    | broken cause => exact .lost hs hc rfl
    | closed => exact .lost hs hc rfl
    | silence => exact .lost hs hc rfl
    | ticket _ | execution _ | opened _ | history _ | woken => exact .ignored

/-- An operation does nothing else up to the lock. -/
theorem reach_cases (w : World) (op : Operation) (a : Arrival) : Reach w op a (op.reach w a) := by
  cases hs : op.stage with
  | submitting token workflowId text =>
    have hrefused : ∀ e, op.refusal? (.ticket (.error e)) = some e := fun e => by
      unfold refusal?
      rw [hs]
    unfold reach receive
    rw [hs]
    rcases a with (e | t) | _ | _ | _ | _ | _ | _ | _ | _
    · exact .refused (hrefused e) (hs ▸ .noTicket)
    · exact .ticketed hs rfl
    all_goals exact .ignored
  | lookingUp executionId =>
    unfold reach receive
    rw [hs]
    rcases a with _ | (e | x) | _ | _ | _ | _ | _ | _ | _
    · exact .ignored
    · exact .dismissed hs
    · dsimp only
      split
      · rename_i hx
        exact .resumed hs rfl hx
      · exact .dismissed hs
    all_goals exact .ignored
  | opening token graphId executionId =>
    have hrefused : ∀ e, op.refusal? (.opened (.error e)) = some e := fun e => by
      unfold refusal?
      rw [hs]
    unfold reach receive
    rw [hs]
    rcases a with _ | _ | (e | _) | _ | _ | _ | _ | _ | _
    · exact .ignored
    · exact .ignored
    · exact .refused (hrefused e) (hs ▸ .noStream)
    · exact .opened hs rfl
    all_goals exact .ignored
  | following token graphId executionId => exact reach_of_following hs a
  | loading workflowId =>
    unfold reach receive
    rw [hs]
    rcases a with _ | _ | _ | (e | entries) | _ | _ | _ | _ | _
    · exact .ignored
    · exact .ignored
    · exact .ignored
    · exact .unloaded hs
    · exact .loaded hs rfl
    all_goals exact .ignored
  | finished r =>
    have hsame : op.reach w a = (op.receive w a, none) := by
      unfold reach
      rw [hs]
    rw [hsame, receive_finished hs]
    exact .ignored

/-! ## Up to the lock -/

@[simp] theorem mode_reach (w : World) (op : Operation) (a : Arrival) :
    (op.reach w a).1.2.mode = op.mode := by
  have h := reach_cases w op a
  generalize op.reach w a = r at h
  cases h <;> rfl

@[simp] theorem studio_reach (w : World) (op : Operation) (a : Arrival) :
    (op.reach w a).1.1.studio = w.studio := by
  have h := reach_cases w op a
  generalize op.reach w a = r at h
  cases h with
  | resumed => exact World.studio_takeOver w op.mode
  | ignored | ticketed | refused | dismissed | opened | loaded | unloaded | noticed | heard
  | lost => rfl

/-- Up to the lock a token is handed out only to follow an execution again. -/
theorem control_reach (w : World) (op : Operation) (a : Arrival) :
    ((∀ m, (op.reach w a).1.1.control m = w.control m) ∧
        ∀ t, (op.reach w a).1.2.token? = some t → op.token? = some t) ∨
      ((op.reach w a).1.1 = (w.takeOver op.mode).1 ∧
        (op.reach w a).1.2.token? = some (w.control op.mode).cancelled.length ∧
        ∃ executionId x, op.stage = .lookingUp executionId ∧ a = .execution (.ok x) ∧
          x.status.isResumable = true) := by
  have h := reach_cases w op a
  generalize op.reach w a = r at h
  cases h with
  | ignored | refused | loaded | heard | lost => exact .inl ⟨fun _ => rfl, fun _ h => h⟩
  | ticketed hs =>
    refine .inl ⟨fun m => by cases m <;> rfl, fun t h => ?_⟩
    unfold token? at h ⊢
    rw [hs]
    exact h
  | opened hs =>
    refine .inl ⟨fun _ => rfl, fun t h => ?_⟩
    unfold token? at h ⊢
    rw [hs]
    exact h
  | resumed hs ha hx => exact .inr ⟨rfl, rfl, _, _, hs, ha, hx⟩
  | dismissed | unloaded | noticed => exact .inl ⟨fun _ => rfl, fun _ h => by cases h⟩

/-- Up to the lock an operation keeps a token that has not been cancelled. -/
theorem token?_reach (ht : op.token? = some t) (hc : w.isCancelled op.mode t = false)
    (a : Arrival) :
    (op.reach w a).1.2.token? = some t := by
  have h := reach_cases w op a
  generalize op.reach w a = r at h
  unfold token? at ht ⊢
  cases h with
  | ignored | refused | loaded | heard | lost => exact ht
  | ticketed hs | opened hs =>
    rw [hs] at ht
    exact ht
  | resumed hs | dismissed hs | unloaded hs =>
    rw [hs] at ht
    cases ht
  | noticed hs hcancelled =>
    rw [hs] at ht
    obtain rfl := Option.some.inj ht
    rw [hc] at hcancelled
    cases hcancelled

/-- Whoever waits for the lock holds a token, unless it is to replace the transcript. -/
theorem token?_of_fits (hfits : part.Fits op.stage) (hpart : ∀ entries, part ≠ .load entries) :
    ∃ t, op.token? = some t := by
  unfold token?
  generalize op.stage = stage at hfits
  cases hfits with
  | load => exact absurd rfl (hpart _)
  | record | mark | noTicket | noStream | apply | settle => exact ⟨_, rfl⟩

/-- An operation looks up its execution first of all. -/
theorem eq_of_lookingUp_reach {executionId : String}
    (hs : (op.reach w a).1.2.stage = .lookingUp executionId) : (op.reach w a).1.2 = op := by
  have h := reach_cases w op a
  generalize op.reach w a = r at h hs
  cases h with
  | ignored | refused | loaded | heard | lost => rfl
  | ticketed | resumed | dismissed | opened | unloaded | noticed => cases hs

/-- What an operation waits for the lock for belongs to its stage. -/
theorem fits_reach (h : (op.reach w a).2 = some part) : part.Fits (op.reach w a).1.2.stage := by
  have hreach := reach_cases w op a
  generalize op.reach w a = r at h hreach
  cases hreach with
  | refused _ hfits =>
    obtain rfl := Option.some.inj h
    exact hfits
  | resumed =>
    obtain rfl := Option.some.inj h
    exact .mark
  | loaded hs =>
    obtain rfl := Option.some.inj h
    rw [hs]
    exact .load
  | heard hs =>
    obtain rfl := Option.some.inj h
    rw [hs]
    exact .apply
  | lost hs =>
    obtain rfl := Option.some.inj h
    rw [hs]
    exact .settle
  | ignored | ticketed | dismissed | opened | unloaded | noticed => cases h

/-! ## With the lock -/

/-- What an operation can do with the lock. -/
inductive Enter (w : World) (op : Operation) :
    Section → (World × Operation) × Option Section → Prop
  | recorded {text} :
      Enter w op (.record text) ((w.onStudio (World.recordPrompt op.mode text), op), none)
  | marked : Enter w op .mark ((w.onStudio (·.setStreaming op.mode true), op), none)
  | refused {e} : Enter w op (.refuse e) ((w.refuse op.mode e, op.finish (.error e)), none)
  | loaded {entries} :
      Enter w op (.load entries)
        ((w.onStudio fun s => s.onPanel op.mode (·.load entries), op.finish (.ok none)), none)
  | dropped {f} (hs : op.isSuperseded w = true) :
      Enter w op (.apply f) ((w, op), (World.endOf? op.mode f).map .settle)
  | applied {f} (hs : op.isSuperseded w = false) :
      Enter w op (.apply f)
        ((w.onStudio (World.applyFrame op.mode f), op), (World.endOf? op.mode f).map .settle)
  | noticed {o token graphId executionId} (hf : op.stage = .following token graphId executionId)
      (hs : op.isSuperseded w = true) :
      Enter w op (.settle o) ((w, op.finishWith graphId executionId o), none)
  | settled {o token graphId executionId} (hf : op.stage = .following token graphId executionId)
      (hs : op.isSuperseded w = false) :
      Enter w op (.settle o) ((w.settle op.mode o, op.finishWith graphId executionId o), none)
  | misplaced {o} (hf : ¬ (Section.settle o).Fits op.stage) :
      Enter w op (.settle o) ((w, op), none)

/-- A stream that has ended is settled, unless its operation has been superseded. -/
theorem enter_settle {token : Token} {graphId executionId : String}
    (hs : op.stage = .following token graphId executionId) (w : World) (o : Outcome) :
    op.enter w (.settle o) =
      ((if op.isSuperseded w then w else w.settle op.mode o,
        op.finishWith graphId executionId o), none) := by
  simp only [enter, hs]

/-- An operation does nothing else with the lock. -/
theorem enter_cases (w : World) (op : Operation) (part : Section) :
    Enter w op part (op.enter w part) := by
  cases part with
  | record text => exact .recorded
  | mark => exact .marked
  | refuse e => exact .refused
  | load entries => exact .loaded
  | apply f =>
    unfold enter
    cases hs : op.isSuperseded w with
    | true => exact .dropped hs
    | false => exact .applied hs
  | settle o =>
    cases hf : op.stage with
    | following token graphId executionId =>
      rw [enter_settle hf]
      cases hs : op.isSuperseded w with
      | true => exact .noticed hf hs
      | false => exact .settled hf hs
    | submitting _ _ _ | lookingUp _ | opening _ _ _ | loading _ | finished _ =>
      have hsame : op.enter w (.settle o) = ((w, op), none) := by simp only [enter, hf]
      rw [hsame]
      exact .misplaced (by rw [hf]; nofun)

@[simp] theorem mode_enter (w : World) (op : Operation) (part : Section) :
    (op.enter w part).1.2.mode = op.mode := by
  have h := enter_cases w op part
  generalize op.enter w part = r at h
  cases h <;> rfl

@[simp] theorem control_enter (w : World) (op : Operation) (part : Section) (m : Mode) :
    (op.enter w part).1.1.control m = w.control m := by
  have h := enter_cases w op part
  generalize op.enter w part = r at h
  cases h with
  | dropped | noticed | misplaced => rfl
  | recorded | marked | loaded | applied => exact World.control_onStudio w m _
  | refused => exact World.control_refuse w op.mode m _
  | settled => exact World.control_settle w op.mode m _

theorem token?_enter (ht : (op.enter w part).1.2.token? = some t) : op.token? = some t := by
  have h := enter_cases w op part
  generalize op.enter w part = r at h ht
  cases h with
  | recorded | marked | dropped | applied | misplaced => exact ht
  | refused | loaded | noticed | settled => cases ht

theorem eq_of_lookingUp_enter {executionId : String}
    (hs : (op.enter w part).1.2.stage = .lookingUp executionId) : (op.enter w part).1.2 = op := by
  have h := enter_cases w op part
  generalize op.enter w part = r at h hs
  cases h with
  | recorded | marked | dropped | applied | misplaced => rfl
  | refused | loaded | noticed | settled => cases hs

/-- An operation needs the lock once more only to settle the end of its stream, after the frame that
ends it. -/
theorem enter_next {next : Section} (hnext : (op.enter w part).2 = some next) :
    ∃ f o, part = .apply f ∧ World.endOf? op.mode f = some o ∧ next = .settle o := by
  have h := enter_cases w op part
  generalize op.enter w part = r at h hnext
  cases h with
  | dropped | applied =>
    obtain ⟨o, ho, rfl⟩ := Option.map_eq_some_iff.mp hnext
    exact ⟨_, o, rfl, ho, rfl⟩
  | recorded | marked | refused | loaded | noticed | settled | misplaced => cases hnext

/-- What it waits for then belongs to its stage. -/
theorem fits_enter {next : Section} (hfits : part.Fits op.stage)
    (h : (op.enter w part).2 = some next) : next.Fits (op.enter w part).1.2.stage := by
  obtain ⟨f, o, rfl, _, rfl⟩ := enter_next h
  obtain ⟨_, _, _, hs⟩ := hfits.of_apply
  show Section.Fits _ op.stage
  rw [hs]
  exact .settle

/-! ## Both together -/

/-- What comes of a step that has reached the lock and gets it at once, as often as it needs it. -/
inductive Together : (World × Operation) × Option Section → World × Operation → Prop
  | done {r : World × Operation} : Together (r, none) r
  | once {r r' : World × Operation} {part : Section} (h : r.2.enter r.1 part = (r', none)) :
      Together (r, some part) r'
  | twice {r r' r'' : World × Operation} {part : Section} {o : Outcome}
      (h : r.2.enter r.1 part = (r', some (.settle o)))
      (hend : r'.2.enter r'.1 (.settle o) = (r'', none)) : Together (r, some part) r''

theorem isSuperseded_of_following {token : Token} {graphId executionId : String}
    (hs : op.stage = .following token graphId executionId) (w : World) :
    op.isSuperseded w = w.isCancelled op.mode token := by
  unfold isSuperseded token?
  rw [hs]
  rfl

theorem together_follow {token : Token} {graphId executionId : String}
    (hs : op.stage = .following token graphId executionId) (w : World) (a : Arrival) :
    Together (op.reach w a) (op.receive w a) := by
  have hcontrol : ∀ f, (w.onStudio (World.applyFrame op.mode f)).isCancelled op.mode token =
      w.isCancelled op.mode token := fun f => by
    unfold World.isCancelled
    rw [World.control_onStudio]
  rw [receive_following hs]
  unfold reach follow
  rw [hs]
  dsimp only
  cases hc : w.isCancelled op.mode token with
  | true => exact .done
  | false =>
    simp only [Bool.false_eq_true, if_false]
    have hsettle : ∀ o, op.enter w (.settle o) =
        ((w.settle op.mode o, op.finishWith graphId executionId o), none) := fun o => by
      rw [enter_settle hs, isSuperseded_of_following hs, hc]
      rfl
    cases a with
    | frame f =>
      have happly : op.enter w (.apply f) =
          ((w.onStudio (World.applyFrame op.mode f), op),
            (World.endOf? op.mode f).map .settle) := by
        unfold enter
        dsimp only
        rw [isSuperseded_of_following hs, hc]
        rfl
      dsimp only
      cases hf : World.endOf? op.mode f with
      | none =>
        rw [hf] at happly
        exact .once happly
      | some o =>
        rw [hf] at happly
        refine .twice happly ?_
        rw [enter_settle hs, isSuperseded_of_following hs, hcontrol, hc]
        rfl
    | broken cause => exact .once (hsettle _)
    | closed => exact .once (hsettle _)
    | silence => exact .once (hsettle _)
    | ticket _ | execution _ | opened _ | history _ | woken => exact .done

/-- An operation that gets the lock at once makes its step in one go. -/
theorem together_receive (w : World) (op : Operation) (a : Arrival) :
    Together (op.reach w a) (op.receive w a) := by
  cases hs : op.stage with
  | following token graphId executionId => exact together_follow hs w a
  | submitting token workflowId text =>
    unfold reach receive
    rw [hs]
    rcases a with (e | t) | _ | _ | _ | _ | _ | _ | _ | _
    · exact .once rfl
    all_goals exact .done
  | lookingUp executionId =>
    unfold reach receive
    rw [hs]
    rcases a with _ | (e | x) | _ | _ | _ | _ | _ | _ | _
    case execution.ok =>
      dsimp only
      split
      · exact .once rfl
      · exact .done
    all_goals exact .done
  | opening token graphId executionId =>
    unfold reach receive
    rw [hs]
    rcases a with _ | _ | (e | _) | _ | _ | _ | _ | _ | _
    case opened.error => exact .once rfl
    all_goals exact .done
  | loading workflowId =>
    unfold reach receive
    rw [hs]
    rcases a with _ | _ | _ | (e | entries) | _ | _ | _ | _ | _
    case history.ok => exact .once rfl
    all_goals exact .done
  | finished r =>
    unfold reach receive
    rw [hs]
    exact .done

end Operation

end PromptStudio
