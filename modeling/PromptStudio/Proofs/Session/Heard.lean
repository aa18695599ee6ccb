import PromptStudio.Proofs.Session.Holders

/-!
# What operations hear

An operation records its prompt and applies the frames of its stream when it gets the lock.
`recorded`, `received` and `heard` read off a run which prompts have been recorded in a panel, which
frames have come for an operation, and which of these it has applied. It applies them for as long as
it holds its panel, so what it has heard is a beginning of what it has received (`listens_run`).
-/

namespace PromptStudio

namespace Operation

variable {w : World} {op : Operation} {a : Arrival} {part : Section}

/-- The frame of the stream it follows that an arrival brings the operation. -/
def frame? (op : Operation) (a : Arrival) : Option Frame :=
  match op.stage, a with
  | .following .., .frame f => some f
  | _, _ => none

/-- The operation follows a stream, or has finished. -/
def Streamed (op : Operation) : Prop :=
  (∃ token graphId executionId, op.stage = .following token graphId executionId) ∨
    ∃ r, op.stage = .finished r

theorem streamed_of_frame? {f : Frame} (h : op.frame? a = some f) : op.Streamed := by
  unfold frame? at h
  split at h
  · rename_i hs
    exact .inl ⟨_, _, _, hs⟩
  · cases h

theorem streamed_reach (h : op.Streamed) : (op.reach w a).1.2.Streamed := by
  have hreach := reach_cases w op a
  generalize op.reach w a = r at hreach
  cases hreach with
  | ignored | refused | loaded | heard | lost => exact h
  | dismissed | unloaded | noticed => exact .inr ⟨_, rfl⟩
  | opened => exact .inl ⟨_, _, _, rfl⟩
  | ticketed hs | resumed hs => rcases h with ⟨_, _, _, h⟩ | ⟨_, h⟩ <;> cases hs.symm.trans h

theorem streamed_enter (h : op.Streamed) : (op.enter w part).1.2.Streamed := by
  have hentered := enter_cases w op part
  generalize op.enter w part = r at hentered
  cases hentered with
  | recorded | marked | dropped | applied | misplaced => exact h
  | refused | loaded | noticed | settled => exact .inr ⟨_, rfl⟩

end Operation

namespace Section

/-- The prompt that an operation waits to record. -/
def text? : Section → Option String
  | .record text => some text
  | _ => none

/-- The frame that an operation waits to apply. -/
def frame? : Section → Option Frame
  | .apply f => some f
  | _ => none

end Section

namespace Operation

variable {w : World} {op : Operation} {a : Arrival}

/-- An operation that has not been superseded waits for the lock with every frame it receives. -/
theorem bind_frame?_reach (h : op.isSuperseded w = false) :
    (op.reach w a).2.bind Section.frame? = op.frame? a := by
  cases hs : op.stage with
  | following token graphId executionId =>
    rw [isSuperseded_of_following hs] at h
    unfold reach frame?
    simp only [hs, h, Bool.false_eq_true, if_false]
    cases a <;> rfl
  | submitting _ _ _ | lookingUp _ | opening _ _ _ | loading _ | finished _ =>
    have hnone : op.frame? a = none := by
      unfold frame?
      rw [hs]
    have hreach := reach_cases w op a
    generalize op.reach w a = r at hreach
    cases hreach with
    | heard hf => cases hs.symm.trans hf
    | ignored | ticketed | refused | resumed | dismissed | opened | loaded | unloaded | noticed
    | lost =>
      rw [hnone]
      rfl

theorem bind_frame?_enter (w : World) (op : Operation) (part : Section) :
    (op.enter w part).2.bind Section.frame? = none := by
  cases hnext : (op.enter w part).2 with
  | none => rfl
  | some next =>
    obtain ⟨_, _, _, _, rfl⟩ := enter_next hnext
    rfl

end Operation

namespace Contention

variable {c start : Contention} {x : Move} {moves : List Move} {mode : Mode} {n k : Nat}
  {op : Operation} {a : Arrival} {part : Section} {f : Frame} {text : String}

/-! ## What is recorded, received and heard -/

/-- The operation that a move gives the lock, and what for. -/
def entering? (c : Contention) : Move → Option (Nat × Operation × Section)
  | .enter n =>
    (c.waiting n).bind fun part => c.system.operations[n]?.map fun op => (n, op, part)
  | .act _ | .clear _ => none

/-- The operation that something arrives for, and what. -/
def arriving? (c : Contention) : Move → Option (Nat × Operation × Arrival)
  | .act (.arrive n a) =>
    if c.waiting n = none then c.system.operations[n]?.map fun op => (n, op, a) else none
  | _ => none

/-- The prompt that a move records in the panel, with the number of its operation. -/
def recordedAt? (mode : Mode) (c : Contention) (x : Move) : Option (Nat × String) :=
  (c.entering? x).bind fun (n, op, part) =>
    if op.mode = mode then part.text?.map fun text => (n, text) else none

/-- The prompts that have been recorded in the panel, in order. -/
def recorded (c : Contention) (mode : Mode) (moves : List Move) : List (Nat × String) :=
  Steps.observed move (recordedAt? mode) c moves

/-- The frame that a move brings the operation `n` from the stream it follows. -/
def receivedAt? (n : Nat) (c : Contention) (x : Move) : Option Frame :=
  (c.arriving? x).bind fun (k, op, a) => if k = n then op.frame? a else none

/-- The frames of the stream of the operation `n`, in the order of their arrival. -/
def received (c : Contention) (n : Nat) (moves : List Move) : List Frame :=
  Steps.observed move (receivedAt? n) c moves

/-- The frame that a move has the operation `n` apply to its panel. -/
def heardAt? (n : Nat) (c : Contention) (x : Move) : Option Frame :=
  (c.entering? x).bind fun (k, op, part) =>
    if k = n ∧ op.isSuperseded c.system.world = false then part.frame? else none

/-- The frames that the operation `n` applies to its panel, in order. -/
def heard (c : Contention) (n : Nat) (moves : List Move) : List Frame :=
  Steps.observed move (heardAt? n) c moves

theorem recorded_concat (c : Contention) (mode : Mode) (moves : List Move) (x : Move) :
    c.recorded mode (moves ++ [x]) =
      c.recorded mode moves ++ (recordedAt? mode (c.run moves) x).toList :=
  Steps.observed_concat move _ c moves x

theorem received_concat (c : Contention) (n : Nat) (moves : List Move) (x : Move) :
    c.received n (moves ++ [x]) = c.received n moves ++ (receivedAt? n (c.run moves) x).toList :=
  Steps.observed_concat move _ c moves x

theorem heard_concat (c : Contention) (n : Nat) (moves : List Move) (x : Move) :
    c.heard n (moves ++ [x]) = c.heard n moves ++ (heardAt? n (c.run moves) x).toList :=
  Steps.observed_concat move _ c moves x

theorem entering?_eq_some_iff : c.entering? x = some (n, op, part) ↔
    x = .enter n ∧ c.waiting n = some part ∧ c.system.operations[n]? = some op := by
  unfold entering?
  constructor
  · intro h
    split at h
    · obtain ⟨part', hw, h⟩ := Option.bind_eq_some_iff.mp h
      obtain ⟨op', hop, hsame⟩ := Option.map_eq_some_iff.mp h
      cases hsame
      exact ⟨rfl, hw, hop⟩
    · cases h
    · cases h
  · rintro ⟨rfl, hw, hop⟩
    simp [hw, hop]

theorem arriving?_eq_some_iff : c.arriving? x = some (n, op, a) ↔
    x = .act (.arrive n a) ∧ c.waiting n = none ∧ c.system.operations[n]? = some op := by
  unfold arriving?
  constructor
  · intro h
    split at h
    · split at h
      · rename_i hw
        obtain ⟨op', hop, hsame⟩ := Option.map_eq_some_iff.mp h
        cases hsame
        exact ⟨rfl, hw, hop⟩
      · cases h
    · cases h
  · rintro ⟨rfl, hw, hop⟩
    simp [hw, hop]

theorem recordedAt?_enter (hw : c.waiting n = some part) (hop : c.system.operations[n]? = some op) :
    recordedAt? mode c (.enter n) =
      if op.mode = mode then part.text?.map fun text => (n, text) else none := by
  unfold recordedAt?
  rw [entering?_eq_some_iff.mpr ⟨rfl, hw, hop⟩]
  rfl

theorem heardAt?_enter (hw : c.waiting n = some part) (hop : c.system.operations[n]? = some op) :
    heardAt? k c (.enter n) =
      if n = k ∧ op.isSuperseded c.system.world = false then part.frame? else none := by
  unfold heardAt?
  rw [entering?_eq_some_iff.mpr ⟨rfl, hw, hop⟩]
  rfl

/-- A move that gives no operation the lock records nothing. -/
theorem recordedAt?_of_entering? (h : c.entering? x = none) : recordedAt? mode c x = none := by
  unfold recordedAt?
  rw [h]
  rfl

theorem heardAt?_of_entering? (h : c.entering? x = none) : heardAt? n c x = none := by
  unfold heardAt?
  rw [h]
  rfl

theorem not_heard_of_actor?_ne (h : c.actor? x ≠ some n) :
    receivedAt? n c x = none ∧ heardAt? n c x = none := by
  constructor
  · refine Option.bind_eq_none_iff.mpr fun (k, op, a) harriving => if_neg fun hk => h ?_
    obtain ⟨rfl, _⟩ := arriving?_eq_some_iff.mp harriving
    exact congrArg some hk
  · refine Option.bind_eq_none_iff.mpr fun (k, op, part) hentering => if_neg fun hk => h ?_
    obtain ⟨rfl, _⟩ := entering?_eq_some_iff.mp hentering
    exact congrArg some hk.1

theorem receivedAt?_of_arriving? (h : c.arriving? x = none) : receivedAt? n c x = none := by
  unfold receivedAt?
  rw [h]
  rfl

/-! ## What is heard has been received -/

theorem streamed_of_receivedAt? (h : receivedAt? n c x = some f) :
    ∃ op, c.system.operations[n]? = some op ∧ op.Streamed := by
  obtain ⟨⟨k, op, a⟩, harriving, hf⟩ := Option.bind_eq_some_iff.mp h
  obtain ⟨_, _, hop⟩ := arriving?_eq_some_iff.mp harriving
  dsimp only at hf
  split at hf
  · rename_i hk
    exact ⟨op, hk ▸ hop, Operation.streamed_of_frame? hf⟩
  · cases hf

/-- Only an operation that follows a stream or has finished has received anything. -/
theorem streamed_of_received (h : c.received n moves ≠ []) :
    ∃ op, (c.run moves).system.operations[n]? = some op ∧ op.Streamed := by
  induction moves using List.reverseRecOn with
  | nil => exact absurd rfl h
  | append_singleton moves x ih =>
    have hnow : ∃ op, (c.run moves).system.operations[n]? = some op ∧ op.Streamed := by
      by_cases hold : c.received n moves = []
      · rw [received_concat, hold, List.nil_append] at h
        cases hf : receivedAt? n (c.run moves) x with
        | none => exact absurd (congrArg Option.toList hf) h
        | some f => exact streamed_of_receivedAt? hf
      · exact ih hold
    obtain ⟨op, hop, hs⟩ := hnow
    rw [run_concat]
    rcases operations_move_of_some x hop with hsame | ⟨a, _, hstep⟩ | ⟨part, _, _, hstep⟩
    · exact ⟨op, hsame, hs⟩
    · exact ⟨_, hstep, Operation.streamed_reach hs⟩
    · exact ⟨_, hstep, Operation.streamed_enter hs⟩

/-- Nothing has been received by an operation at an earlier stage, or not issued yet. -/
theorem received_of_not_streamed
    (h : ∀ op, (c.run moves).system.operations[n]? = some op → ¬ op.Streamed) :
    c.received n moves = [] := by
  by_contra hreceived
  obtain ⟨op, hop, hs⟩ := streamed_of_received hreceived
  exact h op hop hs

theorem received_of_length_le (h : (c.run moves).system.operations.length ≤ n) :
    c.received n moves = [] := by
  refine received_of_not_streamed fun op hop => ?_
  rw [List.getElem?_eq_none h] at hop
  cases hop

/-- The frame that the operation `n` waits to apply. -/
def pending (c : Contention) (n : Nat) : Option Frame := (c.waiting n).bind Section.frame?

/-- What an operation has heard is a beginning of what it has received, and all of it but what it
waits to apply, as long as it holds its panel. -/
structure Listens (start : Contention) (moves : List Move) (n : Nat) : Prop where
  begins : start.heard n moves <+: start.received n moves
  complete : ∀ mode, (start.run moves).HeldBy mode n →
    start.heard n moves ++ ((start.run moves).pending n).toList = start.received n moves

/-- What a move of another operation does to what the operation `n` hears. -/
theorem Listens.concat_of_same (h : start.Listens moves n)
    (hr : receivedAt? n (start.run moves) x = none) (hh : heardAt? n (start.run moves) x = none)
    (hheld : ∀ mode, ((start.run moves).move x).HeldBy mode n → (start.run moves).HeldBy mode n)
    (hw : ((start.run moves).move x).waiting n = (start.run moves).waiting n) :
    start.Listens (moves ++ [x]) n where
  begins := by
    rw [heard_concat, received_concat, hr, hh, Option.toList_none, List.append_nil, List.append_nil]
    exact h.begins
  complete mode hn := by
    rw [run_concat] at hn ⊢
    unfold pending
    rw [heard_concat, received_concat, hr, hh, hw, Option.toList_none, List.append_nil,
      List.append_nil]
    exact h.complete mode (hheld mode hn)

theorem Listens.concat_idle (h : start.Listens moves n)
    (hr : receivedAt? n (start.run moves) x = none) (hh : heardAt? n (start.run moves) x = none)
    (hidle : (start.run moves).move x = start.run moves) : start.Listens (moves ++ [x]) n :=
  h.concat_of_same hr hh (fun _ hn => hidle ▸ hn) (by rw [hidle])

/-- An operation that gets the lock for a frame has heard what it has received before, and hears it
now unless it has been superseded. -/
theorem Listens.concat_enter (h : start.Listens moves n)
    (ht : ∀ mode, (start.run moves).system.Tokened mode)
    (hw : (start.run moves).waiting n = some part)
    (hop : (start.run moves).system.operations[n]? = some op) (hfit : part.Fits op.stage) :
    start.Listens (moves ++ [.enter n]) n := by
  have hreceived : start.received n (moves ++ [.enter n]) = start.received n moves := by
    rw [received_concat, receivedAt?_of_arriving? rfl, Option.toList_none, List.append_nil]
  have hheard : start.heard n (moves ++ [.enter n]) = start.heard n moves ++
      (if op.isSuperseded (start.run moves).system.world = false then part.frame?
        else none).toList := by
    rw [heard_concat, heardAt?_enter hw hop]
    simp
  have hpending : (start.run moves).pending n = part.frame? := by
    unfold pending
    rw [hw]
    rfl
  -- all of it has been heard once the frame it waits for is heard
  have hall : ∀ mode, (start.run moves).HeldBy mode n →
      start.heard n (moves ++ [.enter n]) = start.received n moves := by
    intro mode hn
    rw [hheard, if_pos (hn.not_superseded hop).2, ← hpending]
    exact h.complete mode hn
  refine ⟨?_, fun mode hn => ?_⟩
  · rw [hreceived]
    cases hs : op.isSuperseded (start.run moves).system.world with
    | true =>
      rw [hheard, if_neg (by simp [hs]), Option.toList_none, List.append_nil]
      exact h.begins
    | false =>
      cases hf : part.frame? with
      | none =>
        rw [hheard, hf, ite_self, Option.toList_none, List.append_nil]
        exact h.begins
      | some f =>
        have hpart : part = .apply f := by
          cases part <;> cases hf
          rfl
        obtain ⟨token, graphId, executionId, hstage⟩ := (hpart ▸ hfit).of_apply
        have hn := heldBy_of_not_superseded (ht op.mode) hop
          (Operation.token?_of_following hstage) hs
        exact hall op.mode hn ▸ List.prefix_rfl
  · have hpending' : ((start.run moves).move (.enter n)).pending n = none := by
      unfold pending
      rw [move_enter hw hop, waiting_put, if_pos rfl]
      exact Operation.bind_frame?_enter _ _ _
    rw [run_concat] at hn ⊢
    rw [hreceived, hpending', Option.toList_none, List.append_nil]
    exact hall mode (heldBy_enter (ht mode) hn)

/-- A frame that arrives for an operation waits to be applied, if the operation holds its panel. -/
theorem Listens.concat_arrive (h : start.Listens moves n)
    (ht : ∀ mode, (start.run moves).system.Tokened mode)
    (hw : (start.run moves).waiting n = none)
    (hop : (start.run moves).system.operations[n]? = some op) (a : Arrival) :
    start.Listens (moves ++ [.act (.arrive n a)]) n := by
  have hheard : start.heard n (moves ++ [.act (.arrive n a)]) = start.heard n moves := by
    rw [heard_concat, heardAt?_of_entering? rfl, Option.toList_none,
      List.append_nil]
  have hreceived : start.received n (moves ++ [.act (.arrive n a)]) =
      start.received n moves ++ (op.frame? a).toList := by
    rw [received_concat]
    unfold receivedAt?
    rw [arriving?_eq_some_iff.mpr ⟨rfl, hw, hop⟩]
    simp
  refine ⟨?_, fun mode hn => ?_⟩
  · rw [hheard, hreceived]
    exact h.begins.trans (List.prefix_append _ _)
  · rw [run_concat] at hn ⊢
    have hbefore : op.isSuperseded (start.run moves).system.world = false ∧
        start.heard n moves = start.received n moves := by
      rcases heldBy_move (ht mode) hn with ⟨_, hold⟩ | ⟨htaken, _⟩
      · have hall := h.complete mode hold
        unfold pending at hall
        rw [hw, Option.bind_none, Option.toList_none, List.append_nil] at hall
        exact ⟨(hold.not_superseded hop).2, hall⟩
      · -- an operation that takes its panel over only now has received nothing yet
        cases htaken with
        | resumed _ hop' _ hs =>
          obtain rfl := Option.some.inj (hop'.symm.trans hop)
          have hnone : start.received n moves = [] := by
            refine received_of_not_streamed fun op' hop'' hstreamed => ?_
            obtain rfl := Option.some.inj (hop''.symm.trans hop)
            rcases hstreamed with ⟨_, _, _, hf⟩ | ⟨_, hf⟩ <;> cases hs.symm.trans hf
          refine ⟨?_, ?_⟩
          · unfold Operation.isSuperseded Operation.token?
            rw [hs]
            rfl
          · have hbegins := h.begins
            rw [hnone] at hbegins ⊢
            exact List.prefix_nil.mp hbegins
    unfold pending
    rw [hheard, hreceived, act_arrive hw hop, waiting_put, if_pos rfl,
      Operation.bind_frame?_reach hbefore.1, hbefore.2]

/-- An operation that is being issued has received nothing yet. -/
theorem Listens.concat_send (h : start.Listens moves (start.run moves).system.operations.length)
    (m : Mode) (workflowId : Option String) (text : String) :
    start.Listens (moves ++ [.act (.send m workflowId text)])
      (start.run moves).system.operations.length := by
  have hreceived : start.received (start.run moves).system.operations.length moves = [] :=
    received_of_length_le (Nat.le_refl _)
  have hheard : start.heard (start.run moves).system.operations.length moves = [] := by
    have hbegins := h.begins
    rw [hreceived] at hbegins
    exact List.prefix_nil.mp hbegins
  have hpending : ((start.run moves).move (.act (.send m workflowId text))).pending
      (start.run moves).system.operations.length = none := by
    show Option.bind (if _ then _ else _) _ = none
    rw [if_pos rfl]
    rfl
  refine ⟨?_, fun mode _ => ?_⟩
  · rw [heard_concat, hheard, heardAt?_of_entering? rfl]
    exact List.nil_prefix
  · rw [run_concat, hpending, heard_concat, received_concat, hheard, hreceived,
      heardAt?_of_entering? rfl, receivedAt?_of_arriving? rfl]
    rfl

theorem listens_run (settings : Settings) (studio : Studio) (tasks : Tasks) (moves : List Move)
    (n : Nat) : (new settings studio tasks).Listens moves n := by
  induction moves using List.reverseRecOn with
  | nil =>
    refine ⟨List.prefix_rfl, fun mode hn => ?_⟩
    obtain ⟨t, ⟨op, hop, _⟩, _⟩ := hn
    cases hop
  | append_singleton moves x ih =>
    have htokens := fun mode => tokened_run settings studio tasks mode moves
    have hfits := fitting_run settings studio tasks moves
    generalize hstart : new settings studio tasks = start at *
    by_cases hactor : (start.run moves).actor? x = some n
    · cases x with
      | act x =>
        cases x with
        | send m workflowId text =>
          obtain rfl := Option.some.inj hactor
          exact ih.concat_send m workflowId text
        | resume _ _ | load _ =>
          refine ih.concat_of_same rfl rfl (fun mode hn => ?_) rfl
          exact ((heldBy_move (htokens mode) hn).resolve_right fun h => by cases h.1).2
        | abort m => cases hactor
        | arrive k a =>
          obtain rfl := Option.some.inj hactor
          cases hw : (start.run moves).waiting k with
          | some part =>
            refine ih.concat_idle ?_ rfl (act_arrive_of_waiting hw)
            exact receivedAt?_of_arriving? (by simp [arriving?, hw])
          | none =>
            cases hop : (start.run moves).system.operations[k]? with
            | none =>
              refine ih.concat_idle ?_ rfl (act_arrive_none hop)
              exact receivedAt?_of_arriving? (by simp [arriving?, hop])
            | some op => exact ih.concat_arrive htokens hw hop a
      | enter k =>
        obtain rfl := Option.some.inj hactor
        cases hw : (start.run moves).waiting k with
        | none =>
          refine ih.concat_idle rfl ?_ (move_enter_of_none hw)
          exact heardAt?_of_entering? (by simp [entering?, hw])
        | some part =>
          obtain ⟨op, hop, hfit⟩ := hfits k part hw
          exact ih.concat_enter htokens hw hop hfit
      | clear m => cases hactor
    · obtain ⟨hr, hh⟩ := not_heard_of_actor?_ne hactor
      refine ih.concat_of_same hr hh (fun mode hn => ?_) (waiting_move_of_actor?_ne hactor)
      exact ((heldBy_move (htokens mode) hn).resolve_right fun h => hactor h.2).2

end Contention

end PromptStudio
