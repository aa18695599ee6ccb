import PromptStudio.Proofs.Session.Listening
import PromptStudio.Proofs.Session.Tokens

/-!
# The busy flag

`Owned` says that an operation holds the panel: it has taken the panel over, and it has not been
superseded, stopped or finished since. The panel should then be shown as busy, but a refused
operation makes the panel idle even when another one holds it by now. `RefusesStale` names these
steps and `MarksBusy` those that make the panel busy; `busy_iff_recovered` says that the flag of an
owned panel is set exactly if none of the former came after the last of the latter.
-/

namespace PromptStudio

namespace System

variable {s : System} {x y : Action} {mode : Mode} {n k : Nat} {t u : Token} {op : Operation}
  {a : Arrival} {as : List Action}

/-- An operation of the panel is refused its ticket or its stream after its token has been
cancelled. -/
inductive RefusesStale (s : System) (mode : Mode) : Action → Prop
  | intro {n op t a e} (hop : s.operations[n]? = some op) (hm : op.mode = mode)
      (ht : op.token? = some t) (hc : s.world.isCancelled mode t = true)
      (he : op.refusal? a = some e) : RefusesStale s mode (.arrive n a)

/-- The panel is marked as busy: an operation takes it over, or its stream begins a turn. -/
inductive MarksBusy (s : System) (mode : Mode) : Action → Prop
  | takenOver {action : Action} (h : s.TakesOver mode action) : MarksBusy s mode action
  | begun {n op t graphId executionId f} (hop : s.operations[n]? = some op) (hm : op.mode = mode)
      (hs : op.stage = .following t graphId executionId)
      (hc : s.world.isCancelled mode t = false) (hf : f.isStart mode = true) :
      MarksBusy s mode (.arrive n (.frame f))

/-- Every refusal of a superseded operation has been followed by a step that marks the panel as
busy. -/
def Recovered (s : System) (mode : Mode) (as : List Action) : Prop :=
  ∀ before x after, as = before ++ x :: after → (s.run before).RefusesStale mode x →
    ∃ between y rest, after = between ++ y :: rest ∧
      (s.run (before ++ x :: between)).MarksBusy mode y

theorem recovered_concat :
    s.Recovered mode (as ++ [x]) ↔
      ¬ (s.run as).RefusesStale mode x ∧
        ((s.run as).MarksBusy mode x ∨ s.Recovered mode as) := by
  have hrecovered : ∀ as, s.Recovered mode as ↔
      Steps.FollowedBy act s (RefusesStale · mode) (MarksBusy · mode) as := fun _ => Iff.rfl
  rw [hrecovered, hrecovered, Steps.followedBy_concat]
  rfl

/-! ## What the steps do to the flag -/

theorem RefusesStale.idle (h : s.RefusesStale mode x) :
    (s.act x).world.studio.isStreaming mode = false := by
  obtain ⟨hop, hm, _, _, he⟩ := h
  rw [act_arrive hop, Operation.receive_refusal he, World.isStreaming_refuse, if_pos hm.symm]

theorem TakesOver.busy (h : s.TakesOver mode x) :
    (s.act x).world.studio.isStreaming mode = true := by
  cases h with
  | sent => simp [act, issue, World.send]
  | resumed hop hm hs hx =>
    rw [act_arrive hop]
    unfold Operation.receive
    rw [hs]
    simp [hx, hm]

theorem MarksBusy.busy (h : s.MarksBusy mode x) :
    (s.act x).world.studio.isStreaming mode = true := by
  cases h with
  | takenOver hx => exact hx.busy
  | begun hop hm hs hc hf =>
    have hend : World.endOf? mode _ = none := World.endOf?_of_isStart hf
    rw [act_arrive hop, Operation.receive_following hs]
    subst hm
    unfold Operation.follow
    simp [hc, hend, hf]

/-- An operation that finishes leaves the panel to nobody if it held the panel. -/
theorem Tokened.not_owned (h : s.Tokened op.mode) (hop : s.operations[k]? = some op)
    (hu : op.token? = some u) (hc : s.world.isCancelled op.mode u = false)
    (hcontrol : (op.receive s.world a).1.control op.mode = s.world.control op.mode)
    (hend : (op.receive s.world a).2.token? = none) : ¬ (s.act (.arrive k a)).Owned op.mode := by
  rintro ⟨n, t, hn, ht⟩
  have hheld : s.Holds op.mode k u := ⟨op, hop, rfl, hu⟩
  have hlive : (s.world.control op.mode).Live u :=
    Control.live_of_not_cancelled (h.held_lt k u hheld) hc
  rw [act_arrive hop, hcontrol] at ht
  obtain rfl := h.sound.unique ht hlive
  rw [holds_arrive hop] at hn
  by_cases hnk : n = k
  · rw [if_pos hnk, hend] at hn
    cases hn.2
  · rw [if_neg hnk] at hn
    exact hnk (h.held_unique n k t hn hheld)

/-! ## What an action means to a panel -/

/-- The panel is taken over or stopped; an operation is refused; the one that holds the panel still
holds it, or its stream has ended; a stored conversation comes; or the panel is left as it was. -/
inductive Effect (s : System) (mode : Mode) : Action → Prop
  | takenOver {action : Action} (h : s.TakesOver mode action) : Effect s mode action
  | stopped : Effect s mode (.abort mode)
  | refused {n op t a e} (hop : s.operations[n]? = some op) (hm : op.mode = mode)
      (ht : op.token? = some t) (he : op.refusal? a = some e) : Effect s mode (.arrive n a)
  | held {action : Action} (ho : s.Owned mode) (ho' : (s.act action).Owned mode)
      (hbusy : s.MarksBusy mode action ∨
        (s.act action).world.studio.isStreaming mode = s.world.studio.isStreaming mode) :
      Effect s mode action
  | released {action : Action} (ho : s.Owned mode) (ho' : ¬ (s.act action).Owned mode)
      (hturn : ((s.act action).world.studio.panel mode).active = none)
      (hbusy : (s.act action).world.studio.isStreaming mode = false) : Effect s mode action
  | loaded {n op workflowId entries} (hop : s.operations[n]? = some op) (hm : op.mode = mode)
      (hs : op.stage = .loading workflowId)
      (ho : (s.act (.arrive n (.history (.ok entries)))).Owned mode ↔ s.Owned mode)
      (hbusy : (s.act (.arrive n (.history (.ok entries)))).world.studio.isStreaming mode =
        s.world.studio.isStreaming mode) : Effect s mode (.arrive n (.history (.ok entries)))
  | kept {action : Action} (ho : (s.act action).Owned mode ↔ s.Owned mode)
      (hturn : ((s.act action).world.studio.panel mode).active =
        (s.world.studio.panel mode).active)
      (hbusy : (s.act action).world.studio.isStreaming mode = s.world.studio.isStreaming mode) :
      Effect s mode action

theorem Tokened.effect_arrive (h : s.Tokened op.mode) (hop : s.operations[n]? = some op)
    (a : Arrival) : s.Effect op.mode (.arrive n a) := by
  -- an operation that still hears its stream holds the panel, and leaves it when it finishes
  have howner : ∀ {u graphId executionId}, op.stage = .following u graphId executionId →
      s.world.isCancelled op.mode u = false → s.Owned op.mode := by
    intro u graphId executionId hs hc
    have hheld : s.Holds op.mode n u := ⟨op, hop, rfl, Operation.token?_of_following hs⟩
    exact ⟨n, u, hheld, Control.live_of_not_cancelled (h.held_lt n u hheld) hc⟩
  have hgone : ∀ {u graphId executionId}, op.stage = .following u graphId executionId →
      s.world.isCancelled op.mode u = false →
      (op.receive s.world a).1.control op.mode = s.world.control op.mode →
      (op.receive s.world a).2.token? = none → ¬ (s.act (.arrive n a)).Owned op.mode :=
    fun hs hc => h.not_owned hop (Operation.token?_of_following hs) hc
  have hkept := owned_arrive (a := a) hop
  have hstep := Operation.step_receive s.world op a
  generalize hr : op.receive s.world a = r at hstep hkept hgone
  have hact : s.act (.arrive n a) = { world := r.1, operations := s.operations.set n r.2 } := by
    rw [act_arrive hop, hr]
  cases hstep with
  | ignored => exact .kept (hkept rfl fun _ _ => Iff.rfl) (by rw [hact]) (by rw [hact])
  | ticketed hs | opened hs =>
    refine .kept (hkept ?_ fun t _ => ?_) (by rw [hact]) (by rw [hact])
    · cases op.mode <;> rfl
    · unfold Operation.token?
      rw [hs]
  | dismissed hs | unloaded hs =>
    refine .kept (hkept rfl fun t _ => ?_) (by rw [hact]) (by rw [hact])
    unfold Operation.token?
    rw [hs]
    rfl
  | loaded hs ha =>
    subst ha
    refine .loaded hop rfl hs (hkept (by simp) fun t _ => ?_) (by simp [hact])
    unfold Operation.token?
    rw [hs]
    rfl
  | @noticed u graphId executionId hs hc =>
    refine .kept (hkept rfl fun t hlive => ?_) (by rw [hact]) (by rw [hact])
    rw [Operation.token?_of_following hs, Operation.token?_finishWith]
    constructor
    · intro e
      cases e
    · intro e
      obtain rfl := Option.some.inj e
      exact absurd hlive (World.not_live_of_cancelled hc)
  | refused ht he => exact .refused hop rfl ht he
  | resumed hs ha hx => exact .takenOver (ha ▸ .resumed hop rfl hs hx)
  | @heard u graphId executionId f hs hc ha hf =>
    have ho : s.Owned op.mode := howner hs hc
    refine .held ho ((hkept (by simp) fun _ _ => Iff.rfl).mpr ho) ?_
    cases hstart : f.isStart op.mode with
    | true => exact .inl (ha ▸ .begun hop rfl hs hc hstart)
    | false => exact .inr (by simp [hact, hf, hstart])
  | ended hs hc _ hf =>
    have hquiet := World.not_isInterrupted_endOf? hf
    refine .released (howner hs hc) (hgone hs hc (by simp) rfl) ?_ (by simp [hact])
    simp [hact, hquiet, Panel.active_hear _ hf]
  | @lost u graphId executionId o hs hc ha =>
    have hinterrupted : o.isInterrupted = true := by
      cases a <;> first | (obtain rfl := Option.some.inj ha; rfl) | cases ha
    refine .released (howner hs hc) (hgone hs hc (by simp) rfl) ?_ (by simp [hact])
    simp [hact, hinterrupted, Panel.detach]

theorem Tokened.effect (h : s.Tokened mode) (x : Action) : s.Effect mode x := by
  by_cases hx : s.Concerns mode x
  · cases hx with
    | sent => exact .takenOver .sent
    | stopped => exact .stopped
    | arrived hop hm =>
      subst hm
      exact h.effect_arrive hop _
  · have hsame := untouched_act hx
    exact .kept (owned_congr hsame.control fun n t _ => hsame.holds n t) (by rw [hsame.panel])
      hsame.streaming

/-- What neither refuses a superseded operation nor marks the panel as busy leaves the flag of an
owned panel as it is. -/
theorem Tokened.steady (h : s.Tokened mode) (hr : ¬ s.RefusesStale mode x)
    (hb : ¬ s.MarksBusy mode x) (ho : (s.act x).Owned mode) :
    s.Owned mode ∧
      (s.act x).world.studio.isStreaming mode = s.world.studio.isStreaming mode := by
  cases h.effect x with
  | takenOver hx => exact absurd (.takenOver hx) hb
  | stopped =>
    obtain ⟨n, t, _, ht⟩ := ho
    exact absurd ht (not_live_act_abort h.sound)
  | @refused n op t a e hop hm ht he =>
    subst hm
    cases hc : s.world.isCancelled op.mode t with
    | true => exact absurd (.intro hop rfl ht hc he) hr
    | false =>
      refine absurd ho (h.not_owned hop ht hc ?_ ?_)
      · rw [Operation.receive_refusal he, World.control_refuse]
      · rw [Operation.receive_refusal he, Operation.token?_finish]
  | held hs _ hbusy => exact ⟨hs, hbusy.resolve_left hb⟩
  | released _ hs => exact absurd ho hs
  | loaded _ _ _ hs hbusy => exact ⟨hs.mp ho, hbusy⟩
  | kept hs _ hbusy => exact ⟨hs.mp ho, hbusy⟩

/-! ## The flag of an owned panel -/

/-- A panel that an operation holds is shown as busy exactly if every refusal of a superseded
operation has been followed by a step that marks the panel as busy. -/
theorem busy_iff_recovered (settings : Settings) (studio : Studio) (tasks : Tasks) (mode : Mode)
    (as : List Action) (ho : ((new settings studio tasks).run as).Owned mode) :
    ((new settings studio tasks).run as).world.studio.isStreaming mode = true ↔
      (new settings studio tasks).Recovered mode as := by
  induction as using List.reverseRecOn with
  | nil =>
    obtain ⟨n, t, ⟨op, hop, _⟩, _⟩ := ho
    cases hop
  | append_singleton as x ih =>
    rw [run_concat] at ho ⊢
    rw [recovered_concat]
    by_cases hr : ((new settings studio tasks).run as).RefusesStale mode x
    · simp [hr.idle, hr]
    by_cases hb : ((new settings studio tasks).run as).MarksBusy mode x
    · simp [hb.busy, hr, hb]
    obtain ⟨howned, hsame⟩ := (tokened_run settings studio tasks mode as).steady hr hb ho
    rw [hsame, ih howned]
    simp [hr, hb]

/-- When a superseded or aborted operation is inert. A step of an operation whose token has been
cancelled leaves the busy flags and the notices as they are unless it is refused its ticket or its
stream; such a refusal still makes its panel idle, and shows a failure of the network. So a panel
that an operation holds is shown as busy as long as no refusal of a superseded operation has come
since the panel was last marked as busy. -/
theorem superseded_inert_iff (settings : Settings) (studio : Studio) (tasks : Tasks)
    (actions : List Action) :
    let start := new settings studio tasks
    let s := start.run actions
    (∀ n op t a, s.operations[n]? = some op → op.token? = some t →
      s.world.isCancelled op.mode t = true →
      ((∀ m, (s.act (.arrive n a)).world.studio.isStreaming m = s.world.studio.isStreaming m) ∧
          (s.act (.arrive n a)).world.studio.notices = s.world.studio.notices ↔
        ∀ e, op.refusal? a = some e →
          s.world.studio.isStreaming op.mode = false ∧ e.isNetwork = false)) ∧
    ∀ mode, s.Owned mode →
      (s.world.studio.isStreaming mode = true ↔ start.Recovered mode actions) := by
  intro start s
  refine ⟨fun n op t a hop ht hc => ?_, fun mode => busy_iff_recovered settings studio tasks mode _⟩
  rw [act_arrive hop]
  cases he : op.refusal? a with
  | none =>
    rw [Operation.studio_receive_of_cancelled ht hc he]
    exact ⟨fun _ _ h => (by cases h), fun _ => ⟨fun _ => rfl, rfl⟩⟩
  | some e =>
    rw [Operation.receive_refusal he]
    constructor
    · rintro ⟨hbusy, hnotices⟩ e' he'
      obtain rfl := Option.some.inj he'
      have hflag := hbusy op.mode
      rw [World.isStreaming_refuse, if_pos rfl] at hflag
      refine ⟨hflag.symm, ?_⟩
      rw [World.notices_refuse] at hnotices
      by_contra hnet
      simp [hnet] at hnotices
    · intro h
      obtain ⟨hidle, hnet⟩ := h e rfl
      refine ⟨fun m => ?_, ?_⟩
      · rw [World.isStreaming_refuse]
        split
        · rename_i hm
          exact (hm ▸ hidle).symm
        · rfl
      · rw [World.notices_refuse, hnet]
        simp

/-- The first of two prompts is refused its ticket after the second has taken the panel over. -/
theorem superseded_refusal_shows :
    let s := (new {} {} {}).run
      [.send .webCreator (some "g1") "first", .send .webCreator (some "g1") "second"]
    let refused := s.act (.arrive 0 (.ticket (.error (.http "no answer"))))
    (s.Holds .webCreator 0 0 ∧ s.world.isCancelled .webCreator 0 = true) ∧
      refused.Owned .webCreator ∧
      s.world.studio.isStreaming .webCreator = true ∧
      refused.world.studio.isStreaming .webCreator = false ∧
      s.world.studio.notices = [] ∧
      refused.world.studio.notices = ["Network error: HTTP error: no answer"] := by
  refine ⟨⟨⟨_, rfl, rfl, rfl⟩, rfl⟩, ⟨1, 1, ⟨_, rfl, rfl, rfl⟩, rfl⟩, rfl, rfl, rfl, ?_⟩
  decide

/-- The same two prompts, and the backend refuses the first itself: nothing is shown, but the panel
is idle while the second prompt is still waited for. -/
theorem superseded_inert_iff_refusal :
    let actions : List Action :=
      [.send .webCreator (some "g1") "first", .send .webCreator (some "g1") "second"]
    let s := (new {} {} {}).run actions
    let late : Arrival := .ticket (.error (.api 500 "busy"))
    (∃ op, s.operations[0]? = some op ∧ op.token? = some 0 ∧
        s.world.isCancelled op.mode 0 = true ∧ op.refusal? late = some (.api 500 "busy")) ∧
      ¬ ((∀ m, (s.act (.arrive 0 late)).world.studio.isStreaming m =
            s.world.studio.isStreaming m) ∧
          (s.act (.arrive 0 late)).world.studio.notices = s.world.studio.notices) ∧
      s.Owned .webCreator ∧ (new {} {} {}).Recovered .webCreator actions := by
  intro actions s late
  have howned : s.Owned .webCreator := ⟨1, 1, ⟨_, rfl, rfl, rfl⟩, rfl⟩
  refine ⟨⟨_, rfl, rfl, rfl, rfl⟩, fun h => ?_, howned,
    ((superseded_inert_iff {} {} {} actions).2 .webCreator howned).mp rfl⟩
  have hidle := ((superseded_inert_iff {} {} {} actions).1 0 _ 0 late rfl rfl rfl).mp h _ rfl
  cases hidle.1

end System

end PromptStudio
