import PromptStudio.Proofs.Session.Reach
import PromptStudio.Proofs.Session.Tokens

/-!
# Moves

`Made` lists what a move can do, one constructor for each kind with its guard; `move` is not
unfolded again. An action touches the tokens and not the studio (`studio_act`), whoever has the lock
touches the studio and not the tokens (`control_enter`). `Fitting` says that whoever waits for the
lock waits for what belongs to its stage. Operations keep their numbers (`operations_move`), and
only a resume looks up an execution (`isResume_of_lookingUp`). An action that always gets the lock
at once does what it does in one go (`run_atOnce`), so every schedule is a run (`exists_run`).
-/

namespace PromptStudio.Contention

variable {c : Contention} {x : Move} {moves : List Move} {n k : Nat} {op : Operation} {a : Arrival}
  {part : Section} {mode m : Mode} {t : Token} {r : (World × Operation) × Option Section}

/-- Nothing has been issued yet. -/
def new (settings : Settings) (studio : Studio) (tasks : Tasks) : Contention :=
  { system := System.new settings studio tasks }

@[simp] theorem run_nil (c : Contention) : c.run [] = c := rfl

@[simp] theorem run_cons (c : Contention) (x : Move) (moves : List Move) :
    c.run (x :: moves) = (c.move x).run moves := rfl

theorem run_append (c : Contention) (before after : List Move) :
    c.run (before ++ after) = (c.run before).run after := by
  unfold run
  rw [List.foldl_append]

theorem run_concat (c : Contention) (moves : List Move) (x : Move) :
    c.run (moves ++ [x]) = (c.run moves).move x := run_append c moves [x]

/-- What can come of a move. -/
inductive Made (c : Contention) : Move → Contention → Prop
  | idle {y : Move} : Made c y c
  | sent {mode workflowId text} :
      Made c (.act (.send mode workflowId text))
        { c with
          system := c.system.issue (c.system.world.claim mode workflowId text)
          waiting := fun k =>
            if k = c.system.operations.length then some (.record text) else c.waiting k }
  | resumed {mode workflowId} :
      Made c (.act (.resume mode workflowId))
        { c with system := c.system.issue (c.system.world.resume mode workflowId) }
  | loaded {workflowId} :
      Made c (.act (.load workflowId))
        { c with system := c.system.issue (c.system.world.loadHistory workflowId) }
  | stopped {mode : Mode} :
      Made c (.act (.abort mode))
        { c with
          system := { c.system with world := c.system.world.stop mode }
          stopping := mode :: c.stopping }
  | reached {n : Nat} {op : Operation} {a : Arrival} (hw : c.waiting n = none)
      (hop : c.system.operations[n]? = some op) :
      Made c (.act (.arrive n a)) (c.put n (op.reach c.system.world a))
  | entered {n : Nat} {op : Operation} {part : Section} (hw : c.waiting n = some part)
      (hop : c.system.operations[n]? = some op) :
      Made c (.enter n) (c.put n (op.enter c.system.world part))
  | cleared {mode : Mode} (h : mode ∈ c.stopping) :
      Made c (.clear mode)
        { c with
          system := { c.system with world := c.system.world.clear mode }
          stopping := c.stopping.erase mode }

theorem act_arrive (hw : c.waiting n = none) (hop : c.system.operations[n]? = some op) :
    c.move (.act (.arrive n a)) = c.put n (op.reach c.system.world a) := by
  show c.act (.arrive n a) = _
  unfold act
  dsimp only
  rw [hw, hop]

theorem act_arrive_none (hop : c.system.operations[n]? = none) :
    c.move (.act (.arrive n a)) = c := by
  show c.act (.arrive n a) = _
  unfold act
  dsimp only
  rw [hop]
  cases c.waiting n <;> rfl

theorem act_arrive_of_waiting (hw : c.waiting n = some part) :
    c.move (.act (.arrive n a)) = c := by
  show c.act (.arrive n a) = _
  unfold act
  dsimp only
  rw [hw]

theorem move_enter (hw : c.waiting n = some part) (hop : c.system.operations[n]? = some op) :
    c.move (.enter n) = c.put n (op.enter c.system.world part) := by
  show c.enter n = _
  unfold enter
  rw [hw, hop]

theorem move_enter_of_none (hw : c.waiting n = none) : c.move (.enter n) = c := by
  show c.enter n = _
  unfold enter
  rw [hw]

/-- A move does nothing else. -/
theorem made (c : Contention) (x : Move) : Made c x (c.move x) := by
  cases x with
  | act x =>
    cases x with
    | send mode workflowId text => exact .sent
    | resume mode workflowId => exact .resumed
    | load workflowId => exact .loaded
    | abort mode => exact .stopped
    | arrive n a =>
      cases hw : c.waiting n with
      | some part =>
        rw [act_arrive_of_waiting hw]
        exact .idle
      | none =>
        cases hop : c.system.operations[n]? with
        | none =>
          rw [act_arrive_none hop]
          exact .idle
        | some op =>
          rw [act_arrive hw hop]
          exact .reached hw hop
  | enter n =>
    cases hw : c.waiting n with
    | none =>
      rw [move_enter_of_none hw]
      exact .idle
    | some part =>
      cases hop : c.system.operations[n]? with
      | none =>
        have hidle : c.move (.enter n) = c := by
          show c.enter n = c
          unfold enter
          rw [hw, hop]
        rw [hidle]
        exact .idle
      | some op =>
        rw [move_enter hw hop]
        exact .entered hw hop
  | clear mode =>
    show Made c _ (c.clear mode)
    unfold clear
    split
    · rename_i h
      exact .cleared h
    · exact .idle

/-- What every move of a run preserves holds after the run. -/
theorem run_induction {P : Contention → Prop} (hmove : ∀ c, ∀ x ∈ moves, P c → P (c.move x))
    (h : P c) : P (c.run moves) := by
  induction moves generalizing c with
  | nil => exact h
  | cons x moves ih =>
    have hfirst : P (c.move x) := hmove c x List.mem_cons_self h
    exact ih (fun c y hy => hmove c y (List.mem_cons_of_mem x hy)) hfirst

/-! ## The operation that makes a step -/

@[simp] theorem waiting_put (c : Contention) (n : Nat) (r : (World × Operation) × Option Section)
    (k : Nat) : (c.put n r).waiting k = if k = n then r.2 else c.waiting k := rfl

@[simp] theorem world_put (c : Contention) (n : Nat) (r : (World × Operation) × Option Section) :
    (c.put n r).system.world = r.1.1 := rfl

theorem operations_put (hop : c.system.operations[n]? = some op) (k : Nat) :
    (c.put n r).system.operations[k]? =
      if k = n then some r.1.2 else c.system.operations[k]? := by
  have hlt := (List.getElem?_eq_some_iff.mp hop).1
  show (c.system.operations.set n r.1.2)[k]? = _
  split
  · rename_i hk
    rw [hk, List.getElem?_set_self hlt]
  · rename_i hk
    exact List.getElem?_set_ne fun e => hk e.symm

theorem holds_put (hop : c.system.operations[n]? = some op) :
    (c.put n r).system.Holds mode k t ↔
      if k = n then r.1.2.mode = mode ∧ r.1.2.token? = some t else c.system.Holds mode k t := by
  unfold System.Holds
  rw [operations_put hop]
  split
  · simp
  · rfl

/-! ## What waits for the lock -/

/-- Whoever waits for the lock waits for what belongs to its stage. -/
def Fitting (c : Contention) : Prop :=
  ∀ n part, c.waiting n = some part →
    ∃ op, c.system.operations[n]? = some op ∧ part.Fits op.stage

theorem Fitting.fits (h : c.Fitting) (hw : c.waiting n = some part)
    (hop : c.system.operations[n]? = some op) : part.Fits op.stage := by
  obtain ⟨op', hop', hfits⟩ := h n part hw
  obtain rfl := Option.some.inj (hop.symm.trans hop')
  exact hfits

theorem fitting_new (settings : Settings) (studio : Studio) (tasks : Tasks) :
    (new settings studio tasks).Fitting := by
  intro n part h
  cases h

theorem Fitting.put (h : c.Fitting) (hop : c.system.operations[n]? = some op)
    (hr : ∀ part, r.2 = some part → part.Fits r.1.2.stage) : (c.put n r).Fitting := by
  intro k part hk
  rw [operations_put hop]
  rw [waiting_put] at hk
  split at hk
  · rename_i hkn
    rw [if_pos hkn]
    exact ⟨_, rfl, hr part hk⟩
  · rename_i hkn
    rw [if_neg hkn]
    exact h k part hk

/-- An operation that is added waits for nothing yet, or for what belongs to its stage. -/
theorem Fitting.issue (h : c.Fitting) (added : World × Operation) (part? : Nat → Option Section)
    (hold : ∀ k, k ≠ c.system.operations.length → part? k = c.waiting k)
    (hnew : ∀ part, part? c.system.operations.length = some part → part.Fits added.2.stage) :
    ({ c with system := c.system.issue added, waiting := part? } : Contention).Fitting := by
  intro k part hk
  by_cases hlast : k = c.system.operations.length
  · subst hlast
    exact ⟨_, System.getElem?_issue c.system added, hnew part hk⟩
  · obtain ⟨op, hop, hfits⟩ := h k part ((hold k hlast).symm.trans hk)
    refine ⟨op, ?_, hfits⟩
    show (c.system.operations ++ [added.2])[k]? = some op
    rw [List.getElem?_append_left (List.getElem?_eq_some_iff.mp hop).1, hop]

theorem Fitting.waiting_of_length_le (h : c.Fitting) (hn : c.system.operations.length ≤ n) :
    c.waiting n = none := by
  cases hw : c.waiting n with
  | none => rfl
  | some part =>
    obtain ⟨op, hop, _⟩ := h n part hw
    rw [List.getElem?_eq_none hn] at hop
    cases hop

theorem Fitting.move (h : c.Fitting) (x : Move) : (c.move x).Fitting := by
  have hnone := h.waiting_of_length_le (Nat.le_refl _)
  have hmade := made c x
  generalize c.move x = c' at hmade
  cases hmade with
  | idle => exact h
  | sent =>
    refine h.issue _ _ (fun k hk => if_neg hk) fun part hpart => ?_
    rw [if_pos rfl] at hpart
    obtain rfl := Option.some.inj hpart
    exact .record
  | resumed | loaded =>
    refine h.issue _ _ (fun _ _ => rfl) fun part hpart => ?_
    rw [hnone] at hpart
    cases hpart
  | stopped | cleared => exact h
  | reached _ hop => exact h.put hop fun _ hpart => Operation.fits_reach hpart
  | entered hw hop => exact h.put hop fun _ hpart => Operation.fits_enter (h.fits hw hop) hpart

theorem fitting_run (settings : Settings) (studio : Studio) (tasks : Tasks) (moves : List Move) :
    ((new settings studio tasks).run moves).Fitting :=
  run_induction (P := Fitting) (fun _ x _ h => h.move x) (fitting_new settings studio tasks)

/-! ## What moves touch -/

/-- Up to the lock nothing happens to the studio. -/
theorem studio_act (c : Contention) (x : Action) :
    (c.move (.act x)).system.world.studio = c.system.world.studio := by
  have hmade := made c (.act x)
  generalize c.move (.act x) = c' at hmade
  cases hmade with
  | idle | loaded => rfl
  | @sent m workflowId text => exact World.studio_claim c.system.world m workflowId text
  | resumed => exact congrArg World.studio (Operation.fst_resume _ _ _)
  | stopped => exact World.studio_stop _ _
  | reached _ hop => exact Operation.studio_reach _ _ _

/-! ## The operations -/

/-- The operation that a move issues. -/
def issued? (c : Contention) : Move → Option Operation
  | .act (.send mode workflowId text) => some (c.system.world.claim mode workflowId text).2
  | .act (.resume mode workflowId) => some (c.system.world.resume mode workflowId).2
  | .act (.load workflowId) => some (c.system.world.loadHistory workflowId).2
  | .act (.abort _) | .act (.arrive ..) | .enter _ | .clear _ => none

/-- An operation was there before, has just been issued, or has made a step up to the lock or with
it. -/
theorem operations_move (h : (c.move x).system.operations[n]? = some op) :
    c.system.operations[n]? = some op ∨
      (n = c.system.operations.length ∧ c.issued? x = some op) ∨
      (∃ a op', x = .act (.arrive n a) ∧ c.system.operations[n]? = some op' ∧
        (op'.reach c.system.world a).1.2 = op) ∨
      ∃ part op', x = .enter n ∧ c.waiting n = some part ∧ c.system.operations[n]? = some op' ∧
        (op'.enter c.system.world part).1.2 = op := by
  have hmade := made c x
  generalize c.move x = c' at hmade h
  cases hmade with
  | idle | stopped | cleared => exact .inl h
  | sent | resumed | loaded =>
    rcases System.operations_issue h with h | ⟨hn, rfl⟩
    · exact .inl h
    · exact .inr (.inl ⟨hn, rfl⟩)
  | @reached k op' a hw hop =>
    rw [operations_put hop] at h
    split at h
    · rename_i hk
      subst hk
      exact .inr (.inr (.inl ⟨a, op', rfl, hop, Option.some.inj h⟩))
    · exact .inl h
  | @entered k op' part hw hop =>
    rw [operations_put hop] at h
    split at h
    · rename_i hk
      subst hk
      exact .inr (.inr (.inr ⟨part, op', rfl, hw, hop, Option.some.inj h⟩))
    · exact .inl h

theorem length_le_move (c : Contention) (x : Move) :
    c.system.operations.length ≤ (c.move x).system.operations.length := by
  have hmade := made c x
  generalize c.move x = c' at hmade
  cases hmade with
  | idle | stopped | cleared => exact Nat.le_refl _
  | sent | resumed | loaded => simp [System.issue]
  | reached | entered => simp [put]

theorem length_le_run (c : Contention) (moves : List Move) :
    c.system.operations.length ≤ (c.run moves).system.operations.length :=
  run_induction (P := fun c' => c.system.operations.length ≤ c'.system.operations.length)
    (fun c' x _ h => Nat.le_trans h (length_le_move c' x)) (Nat.le_refl _)

/-- An operation keeps its number, and changes only by its own steps. -/
theorem operations_move_of_some (x : Move) (hop : c.system.operations[n]? = some op) :
    (c.move x).system.operations[n]? = some op ∨
      (∃ a, x = .act (.arrive n a) ∧
        (c.move x).system.operations[n]? = some (op.reach c.system.world a).1.2) ∨
      ∃ part, x = .enter n ∧ c.waiting n = some part ∧
        (c.move x).system.operations[n]? = some (op.enter c.system.world part).1.2 := by
  have hlt := (List.getElem?_eq_some_iff.mp hop).1
  have hget := List.getElem?_eq_getElem (Nat.lt_of_lt_of_le hlt (length_le_move c x))
  rcases operations_move hget with
    h | ⟨hn, _⟩ | ⟨a, op', hx, hop', hr⟩ | ⟨part, op', hx, hw, hop', hr⟩
  · exact .inl (hget.trans (h.symm.trans hop))
  · exact absurd hn (Nat.ne_of_lt hlt)
  · obtain rfl := Option.some.inj (hop'.symm.trans hop)
    exact .inr (.inl ⟨a, hx, hget.trans (congrArg some hr.symm)⟩)
  · obtain rfl := Option.some.inj (hop'.symm.trans hop)
    exact .inr (.inr ⟨part, hx, hw, hget.trans (congrArg some hr.symm)⟩)

/-- Whoever waits for the lock waits until it gets the lock. -/
theorem waiting_act (hfits : c.Fitting) (hw : c.waiting n = some part) (x : Action) :
    (c.move (.act x)).waiting n = some part := by
  have hmade := made c (.act x)
  generalize c.move (.act x) = c' at hmade
  cases hmade with
  | idle | resumed | loaded | stopped => exact hw
  | sent =>
    refine (if_neg fun hn => ?_).trans hw
    rw [hfits.waiting_of_length_le (Nat.le_of_eq hn.symm)] at hw
    cases hw
  | @reached k _ _ hk =>
    refine (if_neg fun hn => ?_).trans hw
    rw [hn, hk] at hw
    cases hw

/-- An operation has waited for the lock before, has just been issued with its prompt, or has made a
step up to the lock or with it. -/
theorem waiting_move (h : (c.move x).waiting n = some part) :
    c.waiting n = some part ∨
      (n = c.system.operations.length ∧ ∃ text, part = .record text) ∨
      (∃ a op, x = .act (.arrive n a) ∧ c.waiting n = none ∧ c.system.operations[n]? = some op ∧
        (op.reach c.system.world a).2 = some part) ∨
      ∃ before op, x = .enter n ∧ c.waiting n = some before ∧
        c.system.operations[n]? = some op ∧ (op.enter c.system.world before).2 = some part := by
  have hmade := made c x
  generalize c.move x = c' at hmade h
  cases hmade with
  | idle | resumed | loaded | stopped | cleared => exact .inl h
  | sent =>
    dsimp only at h
    split at h
    · rename_i hn
      exact .inr (.inl ⟨hn, _, (Option.some.inj h).symm⟩)
    · exact .inl h
  | @reached k op a hw hop =>
    rw [waiting_put] at h
    split at h
    · rename_i hn
      subst hn
      exact .inr (.inr (.inl ⟨a, op, rfl, hw, hop, h⟩))
    · exact .inl h
  | @entered k op before hw hop =>
    rw [waiting_put] at h
    split at h
    · rename_i hn
      subst hn
      exact .inr (.inr (.inr ⟨before, op, rfl, hw, hop, h⟩))
    · exact .inl h

/-- An operation keeps its panel. -/
theorem mode_move (x : Move) (hop : c.system.operations[n]? = some op) :
    ∃ op', (c.move x).system.operations[n]? = some op' ∧ op'.mode = op.mode := by
  rcases operations_move_of_some x hop with h | ⟨a, _, h⟩ | ⟨part, _, _, h⟩
  · exact ⟨op, h, rfl⟩
  · exact ⟨_, h, Operation.mode_reach _ op a⟩
  · exact ⟨_, h, Operation.mode_enter _ op part⟩

/-! ## Resumes -/

/-- The operation of number `n` has been issued by a resume of the panel. -/
def IsResume (c : Contention) (mode : Mode) (n : Nat) (moves : List Move) : Prop :=
  ∃ before workflowId after, moves = before ++ .act (.resume mode workflowId) :: after ∧
    (c.run before).system.operations.length = n

theorem IsResume.concat (h : c.IsResume mode n moves) (x : Move) :
    c.IsResume mode n (moves ++ [x]) := by
  obtain ⟨before, workflowId, after, rfl, hn⟩ := h
  exact ⟨before, workflowId, after ++ [x], by simp, hn⟩

/-- An operation that looks up its execution has been issued so, or was there before. -/
theorem lookingUp_move {executionId : String} (h : (c.move x).system.operations[n]? = some op)
    (hs : op.stage = .lookingUp executionId) :
    c.system.operations[n]? = some op ∨
      n = c.system.operations.length ∧ ∃ workflowId, x = .act (.resume op.mode workflowId) := by
  rcases operations_move h with h | ⟨hn, hx⟩ | ⟨a, op', _, hop', rfl⟩ | ⟨part, op', _, _, hop', rfl⟩
  · exact .inl h
  · cases x with
    | act x =>
      cases x with
      | send m workflowId text =>
        obtain rfl := Option.some.inj hx
        cases hs
      | resume m workflowId =>
        obtain rfl := Option.some.inj hx
        rw [Operation.mode_resume]
        exact .inr ⟨hn, workflowId, rfl⟩
      | load workflowId =>
        obtain rfl := Option.some.inj hx
        cases hs
      | abort m => cases hx
      | arrive k a => cases hx
    | enter k => cases hx
    | clear m => cases hx
  · rw [Operation.eq_of_lookingUp_reach hs]
    exact .inl hop'
  · rw [Operation.eq_of_lookingUp_enter hs]
    exact .inl hop'

/-- Only a resume looks up an execution. -/
theorem isResume_of_lookingUp {settings : Settings} {studio : Studio} {tasks : Tasks}
    {executionId : String}
    (hop : ((new settings studio tasks).run moves).system.operations[n]? = some op)
    (hs : op.stage = .lookingUp executionId) :
    (new settings studio tasks).IsResume op.mode n moves := by
  induction moves using List.reverseRecOn with
  | nil => cases hop
  | append_singleton moves x ih =>
    rw [run_concat] at hop
    rcases lookingUp_move hop hs with hop | ⟨hn, workflowId, rfl⟩
    · exact (ih hop).concat x
    · exact ⟨moves, workflowId, [], rfl, hn.symm⟩

/-- An operation that looks up its execution has done nothing else since it was issued. -/
theorem lookingUp_of_run {executionId : String} (hn : n < c.system.operations.length)
    (hop : (c.run moves).system.operations[n]? = some op)
    (hs : op.stage = .lookingUp executionId) : c.system.operations[n]? = some op := by
  induction moves using List.reverseRecOn with
  | nil => exact hop
  | append_singleton moves x ih =>
    rw [run_concat] at hop
    rcases lookingUp_move hop hs with hop | ⟨hlast, _⟩
    · exact ih hop
    · exact absurd hlast (Nat.ne_of_lt (Nat.lt_of_lt_of_le hn (length_le_run c moves)))

/-! ## Who makes a move -/

/-- The number of the operation that makes a move: the one being issued, the one something arrives
for, or the one that gets the lock. -/
def actor? (c : Contention) : Move → Option Nat
  | .act (.send ..) | .act (.resume ..) | .act (.load _) => some c.system.operations.length
  | .act (.arrive n _) | .enter n => some n
  | .act (.abort _) | .clear _ => none

theorem waiting_move_of_actor?_ne (h : c.actor? x ≠ some n) :
    (c.move x).waiting n = c.waiting n := by
  have hmade := made c x
  generalize c.move x = c' at hmade
  cases hmade with
  | idle | resumed | loaded | stopped | cleared => rfl
  | sent => exact if_neg fun (hn : n = c.system.operations.length) => h (congrArg some hn.symm)
  | @reached k | @entered k => exact if_neg fun (hn : n = k) => h (congrArg some hn.symm)

/-! ## The lock at once -/

/-- The moves of an action that always gets the lock at once. -/
def atOnce (s : System) : Action → List Move
  | .send mode workflowId text =>
    [.act (.send mode workflowId text), .enter s.operations.length]
  | .abort mode => [.act (.abort mode), .clear mode]
  -- the end of a stream takes the lock twice
  | .arrive n a => [.act (.arrive n a), .enter n, .enter n]
  | x => [.act x]

theorem put_put (c : Contention) (n : Nat) (r r' : (World × Operation) × Option Section) :
    (c.put n r).put n r' = c.put n r' := by
  have hwaiting : (fun k => if k = n then r'.2 else if k = n then r.2 else c.waiting k) =
      fun k => if k = n then r'.2 else c.waiting k := by
    funext k
    split <;> rfl
  unfold put
  dsimp only
  rw [List.set_set, hwaiting]

/-- The only operation that could wait for the lock has made its step. -/
theorem put_none (s : System) (n : Nat) (r : World × Operation) :
    ({ system := s } : Contention).put n (r, none) =
      { system := { world := r.1, operations := s.operations.set n r.2 } } := by
  have hwaiting : (fun k => if k = n then none else (none : Option Section)) = fun _ => none := by
    funext k
    split <;> rfl
  unfold put
  dsimp only
  rw [hwaiting]

theorem move_enter_put (hop : c.system.operations[n]? = some op) {r : World × Operation} :
    (c.put n (r, some part)).move (.enter n) = c.put n (r.2.enter r.1 part) := by
  have hw : (c.put n (r, some part)).waiting n = some part := if_pos rfl
  have hn : (c.put n (r, some part)).system.operations[n]? = some r.2 := by
    rw [operations_put hop, if_pos rfl]
  rw [move_enter hw hn, put_put]
  rfl

theorem run_put {s : System} (hop : s.operations[n]? = some op) {r' : World × Operation}
    (h : Operation.Together r r') :
    (({ system := s } : Contention).put n r).run [.enter n, .enter n] =
      { system := { world := r'.1, operations := s.operations.set n r'.2 } } := by
  have hidle : ∀ s : System, ({ system := s } : Contention).move (.enter n) = { system := s } :=
    fun s => move_enter_of_none rfl
  rw [run_cons, run_cons, run_nil]
  cases h with
  | done => rw [put_none, hidle, hidle]
  | once h => rw [move_enter_put hop, h, put_none, hidle]
  | twice h hend => rw [move_enter_put hop, h, move_enter_put hop, hend, put_none]

/-- An action that always gets the lock at once does what it does in one go. -/
theorem run_atOnce (s : System) (x : Action) :
    ({ system := s } : Contention).run (atOnce s x) = { system := s.act x } := by
  cases x with
  | send mode workflowId text =>
    let r := s.world.claim mode workflowId text
    have hclaimed : ({ system := s } : Contention).move (.act (.send mode workflowId text)) =
        ({ system := s.issue r } : Contention).put s.operations.length
          (r, some (.record text)) := by
      unfold put System.issue
      simp [move, act, System.issue, r]
    have hmoves : atOnce s (.send mode workflowId text) =
      [.act (.send mode workflowId text), .enter s.operations.length] := rfl
    rw [hmoves, run_cons, run_cons, run_nil, hclaimed,
      move_enter_put (System.getElem?_issue s r)]
    show put _ _ (((s.world.send mode workflowId text).1, r.2), none) = _
    rw [put_none]
    simp [System.act, System.issue, World.send, r]
  | abort mode =>
    show clear _ mode = _
    simp [clear, move, act, System.act, World.abort]
  | resume mode workflowId => rfl
  | load workflowId => rfl
  | arrive n a =>
    have hmoves : atOnce s (.arrive n a) = [.act (.arrive n a), .enter n, .enter n] := rfl
    rw [hmoves, run_cons]
    cases hop : s.operations[n]? with
    | none =>
      rw [act_arrive_none hop, run_cons, run_cons, run_nil, move_enter_of_none rfl,
        move_enter_of_none rfl, System.act_arrive_none hop]
    | some op =>
      rw [act_arrive rfl hop, run_put hop (Operation.together_receive s.world op a),
        System.act_arrive hop]

/-- So every schedule is a run. -/
theorem exists_run (s : System) (as : List Action) :
    ∃ moves, ({ system := s } : Contention).run moves = { system := s.run as } := by
  induction as generalizing s with
  | nil => exact ⟨[], rfl⟩
  | cons x as ih =>
    obtain ⟨moves, hmoves⟩ := ih (s.act x)
    exact ⟨atOnce s x ++ moves, by rw [run_append, run_atOnce, hmoves, System.run_cons]⟩

end PromptStudio.Contention
