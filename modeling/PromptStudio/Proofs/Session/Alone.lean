import PromptStudio.Proofs.Session.Listening
import PromptStudio.Proofs.Sse.Chunks
import PromptStudio.Proofs.Stream.Control

/-!
# A prompt that is sent alone

`opening` is what comes of a prompt at the backend, in any monad: a ticket or none, then a stream or
none, or nothing at all of the request for the stream. An operation that is driven alone does no
more than that, and comes to a state that depends on the opening alone (`drive_send`). `TurnEnd` is
what that state has to be, and `send_alone` puts the two together.
-/

namespace PromptStudio

/-- What comes of a prompt before its stream is followed. -/
inductive Opening
  /-- The prompt is refused. -/
  | noTicket (e : Failure)
  /-- The stream is refused. -/
  | noStream (t : Ticket) (e : Failure)
  /-- Nothing ever comes of the request for the stream. -/
  | stalled (t : Ticket)
  /-- The stream is open. -/
  | opened (t : Ticket) (b : Body)

section Exchange

variable {m : Type → Type} [Monad m]

theorem Query.call_bind [LawfulMonad m] {β : Type} (q : Query) (exchange : Request → m Reply)
    (k : Except Failure q.Payload → m β) :
    q.call exchange >>= k = exchange q.request >>= fun r => k (q.answer r) := by
  unfold Query.call PromptStudio.call
  rw [bind_assoc]
  exact congrArg (exchange q.request >>= ·) (funext fun r => pure_bind (q.answer r) k)

/-- Submits a prompt. -/
def submit (exchange : Request → m Reply) (mode : Mode) (workflowId : Option String)
    (text : String) : m (Except Failure Ticket) :=
  match mode with
  | .workflow => (Query.submitWorkflow text).call exchange
  | .webCreator => (Query.submitSite (workflowId.getD "") text).call exchange

/-- The request for the stream of an execution. -/
def streamRequest (mode : Mode) (executionId : String) : Request :=
  match mode with
  | .workflow => .workflowStream executionId
  | .webCreator => .siteStream executionId

/-- Submits a prompt and asks for the stream that its ticket names. -/
def opening (exchange : Request → m Reply) (mode : Mode) (workflowId : Option String)
    (text : String) : m Opening := do
  match ← submit exchange mode workflowId text with
  | .error e => return .noTicket e
  | .ok t =>
    match (← exchange (streamRequest mode t.executionId)).stream? t.executionId with
    | none => return .stalled t
    | some (.error e) => return .noStream t e
    | some (.ok b) => return .opened t b

end Exchange

/-! ## What is left of a turn -/

/-- The outcome of a body without a terminal event. -/
def Body.outcome (b : Body) (idleSeconds : Nat) : Outcome :=
  match b.ending with
  | .closed => .ended
  | .cut => .disconnected (.dropped brokenBody)
  | .silent => .disconnected (.idle idleSeconds)

namespace Opening

/-- The turn never ends. -/
def isStalled : Opening → Bool
  | .stalled _ => true
  | _ => false

/-- The frames that the panel hears. -/
def frames : Opening → List Frame
  | .noTicket _ | .noStream _ _ | .stalled _ => []
  | .opened _ b => b.received

/-- The result of the operation, if it ever has one: the first terminal event decides the outcome,
or else the way in which the body ends. -/
def result (o : Opening) (mode : Mode) (idleSeconds : Nat) :
    Option (Except Failure (Option StreamRun)) :=
  match o with
  | .noTicket e | .noStream _ e => some (.error e)
  | .stalled _ => none
  | .opened t b =>
    some (.ok (some {
      graphId := t.graphId
      executionId := t.executionId
      outcome := (b.received.findSome? (World.endOf? mode)).getD (b.outcome idleSeconds) }))

/-- The executions that are remembered afterwards. -/
def tasks (o : Opening) (mode : Mode) (ts : Tasks) : Tasks :=
  match o with
  | .noTicket _ => ts
  | .noStream t _ | .stalled t | .opened t _ =>
    ts.set (World.space mode) t.graphId t.executionId

end Opening

/-- What a result has to be told to the user about. -/
def noticesOf : Option (Except Failure (Option StreamRun)) → List String
  | some (.error e) => if e.isNetwork then ["Network error: " ++ e.message] else []
  | some (.ok (some { outcome := .disconnected cause, .. })) =>
    ["Connection lost: " ++ cause.message]
  | some (.ok _) | none => []

/-- The end of a turn that was opened like this and ran alone, or where it stays for ever. -/
structure TurnEnd (w : World) (mode : Mode) (text : String) (o : Opening)
    (r : World × Operation) : Prop where
  /-- The panel holds the prompt and what it heard. -/
  panel : r.1.studio.panel mode =
    (((w.studio.panel mode).ask mode text).listen mode o.frames).detach
  inactive : (r.1.studio.panel mode).active = none
  /-- The panel is idle unless the turn never ends. -/
  busy : r.1.studio.isStreaming mode = o.isStalled
  others : ∀ m, m ≠ mode → r.1.studio.panel m = w.studio.panel m ∧
    r.1.studio.isStreaming m = w.studio.isStreaming m
  result : r.2.result? = o.result mode w.settings.idleSeconds
  /-- A turn that never ends still waits for the stream it has asked for. -/
  waits : ∀ t, o = .stalled t → r.2.request? = some (streamRequest mode t.executionId)
  notices : r.1.studio.notices =
    w.studio.notices ++ noticesOf (o.result mode w.settings.idleSeconds)
  tasks : r.1.tasks = o.tasks mode w.tasks

namespace Operation

/-- What an operation that has just been issued does with an opening. -/
def conclude (s : World × Operation) : Opening → World × Operation
  | .noTicket e => s.2.receive s.1 (.ticket (.error e))
  | .stalled t => s.2.receive s.1 (.ticket (.ok t))
  | .noStream t e =>
    let s := s.2.receive s.1 (.ticket (.ok t))
    s.2.receive s.1 (.opened (.error e))
  | .opened t b =>
    let s := s.2.receive s.1 (.ticket (.ok t))
    let s := s.2.receive s.1 (.opened (.ok ()))
    s.2.consume s.1 (arrivalsOf b)

section Drive

variable {m : Type → Type} [Monad m] {exchange : Request → m Reply} {w : World} {op : Operation}

theorem round_finish (w : World) (op : Operation) (r : Except Failure (Option StreamRun)) :
    round exchange (w, op.finish r) = pure (w, op.finish r) := by
  unfold round request? finish
  cases op.mode <;> rfl

theorem request?_opening {token : Token} {graphId executionId : String}
    (hs : op.stage = .opening token graphId executionId) :
    op.request? = some (streamRequest op.mode executionId) := by
  unfold request? streamRequest
  rw [hs]
  cases op.mode <;> rfl

/-- An operation that waits for its stream follows it to its end, or is refused it, or goes on
waiting. -/
theorem take_opening {token : Token} {graphId executionId : String}
    (hs : op.stage = .opening token graphId executionId) (r : Reply) :
    op.take w r =
      match r.stream? executionId with
      | none => (w, op)
      | some (.error e) => op.receive w (.opened (.error e))
      | some (.ok b) =>
        let s := op.receive w (.opened (.ok ()))
        s.2.consume s.1 (arrivalsOf b) := by
  have harrival : op.arrivalOf? r =
      (r.stream? executionId).map fun stream => .opened (stream.map fun _ => ()) := by
    unfold arrivalOf?
    rw [hs]
  unfold take
  rw [hs, harrival]
  rcases hstream : r.stream? executionId with _ | e | b
  · rfl
  · simp [hstream, Except.map]
  · simp [hstream, Except.map]

theorem round_opening {token : Token} {graphId executionId : String}
    (hs : op.stage = .opening token graphId executionId) :
    round exchange (w, op) = do
      match (← exchange (streamRequest op.mode executionId)).stream? executionId with
      | none => return (w, op)
      | some (.error e) => return op.receive w (.opened (.error e))
      | some (.ok b) =>
        let s := op.receive w (.opened (.ok ()))
        return s.2.consume s.1 (arrivalsOf b) := by
  unfold round
  dsimp only
  rw [request?_opening hs]
  refine congrArg (exchange _ >>= ·) (funext fun r => ?_)
  rw [take_opening hs]
  rcases r.stream? executionId with _ | e | b <;> rfl

/-- An operation that has submitted its prompt takes the answer as its ticket. -/
theorem round_send [LawfulMonad m] (exchange : Request → m Reply) (w : World) (mode : Mode)
    (workflowId : Option String) (text : String) :
    round exchange (w.send mode workflowId text) = do
      let t ← submit exchange mode workflowId text
      return (w.send mode workflowId text).2.receive (w.send mode workflowId text).1
        (.ticket t) := by
  let k (t : Except Failure Ticket) : m (World × Operation) :=
    pure ((w.send mode workflowId text).2.receive (w.send mode workflowId text).1 (.ticket t))
  show _ = submit exchange mode workflowId text >>= k
  cases mode with
  | workflow => exact ((Query.submitWorkflow text).call_bind exchange k).symm
  | webCreator => exact ((Query.submitSite (workflowId.getD "") text).call_bind exchange k).symm

end Drive

/-- An operation that is driven alone ends as its opening says. -/
theorem drive_send {m : Type → Type} [Monad m] [LawfulMonad m] (exchange : Request → m Reply)
    (w : World) (mode : Mode) (workflowId : Option String) (text : String) :
    drive exchange (w.send mode workflowId text) =
      conclude (w.send mode workflowId text) <$> opening exchange mode workflowId text := by
  unfold drive opening
  rw [round_send, bind_assoc, map_bind]
  refine congrArg (submit exchange mode workflowId text >>= ·) (funext fun t => ?_)
  rw [pure_bind]
  cases t with
  | error e =>
    show round exchange (_, (w.send mode workflowId text).2.finish (.error e)) = _
    rw [round_finish, map_pure]
    rfl
  | ok t =>
    have hs : ((w.send mode workflowId text).2.receive (w.send mode workflowId text).1
        (.ticket (.ok t))).2.stage =
        .opening (w.takeOver mode).2 t.graphId t.executionId := rfl
    have hm : ((w.send mode workflowId text).2.receive (w.send mode workflowId text).1
        (.ticket (.ok t))).2.mode = mode := rfl
    rw [round_opening hs, hm, map_bind]
    refine congrArg (exchange _ >>= ·) (funext fun r => ?_)
    rcases r.stream? t.executionId with _ | e | b <;> dsimp only <;> rw [map_pure] <;> rfl

/-! ## The end of a turn -/

variable {w : World} {mode : Mode} {text : String}

/-- A turn that is refused its ticket or its stream ends with the prompt, and idle. -/
theorem turnEnd_refuse {o : Opening} {e : Failure} {op : Operation} (w' : World)
    (hstudio : w'.studio = World.recordPrompt mode text w.studio)
    (htasks : w'.tasks = o.tasks mode w.tasks) (hframes : o.frames = [])
    (hresult : o.result mode w.settings.idleSeconds = some (.error e))
    (hstalled : o.isStalled = false) :
    TurnEnd w mode text o (w'.refuse mode e, op.finish (.error e)) where
  panel := by
    rw [hframes, Panel.listen_nil, Panel.detach_of_active (Panel.active_ask _ mode text)]
    simp [hstudio]
  inactive := by simp [hstudio]
  busy := by simp [hstalled]
  others m hm := by simp [hstudio, hm]
  result := by rw [hresult]; rfl
  waits t ht := by subst ht; cases hstalled
  notices := by
    rw [hresult]
    simp [hstudio, noticesOf]
  tasks := htasks

theorem outcome_last (b : Body) (idleSeconds : Nat) :
    b.last.end? idleSeconds = some (b.outcome idleSeconds) ∧
      (b.outcome idleSeconds).isInterrupted = true := by
  unfold Body.last Body.outcome
  cases b.ending <;> exact ⟨rfl, rfl⟩

/-- A turn whose stream is followed ends with what the panel heard, and idle. -/
theorem turnEnd_settle (t : Ticket) (b : Body) {op : Operation} (w' : World)
    (hstudio : w'.studio = World.recordPrompt mode text w.studio)
    (htasks : w'.tasks = w.tasks.set (World.space mode) t.graphId t.executionId) :
    let o := (b.received.findSome? (World.endOf? mode)).getD (b.outcome w.settings.idleSeconds)
    TurnEnd w mode text (.opened t b)
      ((w'.onStudio (World.applyFrames mode b.received)).settle mode o,
        op.finishWith t.graphId t.executionId o) := by
  intro o
  have hpanel : ((w'.onStudio (World.applyFrames mode b.received)).settle mode o).studio.panel
      mode = (((w.studio.panel mode).ask mode text).listen mode b.received).detach := by
    rw [World.panel_settle, World.studio_onStudio, World.panel_applyFrames, hstudio,
      World.panel_recordPrompt, if_pos rfl, if_pos rfl]
    cases hend : b.received.findSome? (World.endOf? mode) with
    | some o' =>
      have ho : o = o' := by
        show Option.getD (b.received.findSome? _) _ = _
        rw [hend]
        rfl
      obtain ⟨f, _, hf⟩ := List.exists_of_findSome?_eq_some hend
      rw [ho, World.not_isInterrupted_endOf? hf,
        Panel.detach_of_active (Panel.active_listen _ hend)]
      simp
    | none =>
      have ho : o = b.outcome w.settings.idleSeconds := by
        show Option.getD (b.received.findSome? _) _ = _
        rw [hend]
        rfl
      rw [ho, (outcome_last b _).2, if_pos ⟨rfl, rfl⟩]
  exact {
    panel := hpanel
    inactive := by rw [hpanel]; rfl
    busy := by simp [Opening.isStalled]
    others := fun m hm => by
      simp [hm, World.panel_applyFrames, World.isStreaming_applyFrames, hstudio]
    result := rfl
    waits := nofun
    notices := by
      show _ = w.studio.notices ++ noticesOf (some (.ok (some ⟨t.graphId, t.executionId, o⟩)))
      rw [World.notices_settle, World.studio_onStudio, World.notices_applyFrames, hstudio,
        World.notices_recordPrompt]
      cases o <;> rfl
    tasks := htasks }

/-- The prompt has been sent, and its ticket has come. -/
structure Ticketed (w : World) (mode : Mode) (text : String) (t : Ticket) (r : World × Operation) :
    Prop where
  studio : r.1.studio = World.recordPrompt mode text w.studio
  tasks : r.1.tasks = w.tasks.set (World.space mode) t.graphId t.executionId
  settings : r.1.settings = w.settings
  stage : r.2.stage = .opening (w.takeOver mode).2 t.graphId t.executionId
  ofPanel : r.2.mode = mode
  live : r.1.isCancelled mode (w.takeOver mode).2 = false

theorem ticketed (w : World) (mode : Mode) (workflowId : Option String) (text : String)
    (t : Ticket) :
    Ticketed w mode text t
      ((w.send mode workflowId text).2.receive (w.send mode workflowId text).1
        (.ticket (.ok t))) where
  studio := by
    show (w.send mode workflowId text).1.studio = _
    simp [World.send]
  tasks := by
    show (w.send mode workflowId text).1.tasks.set (World.space mode) _ _ = _
    simp [World.send]
  settings := by
    show (w.takeOver mode).1.settings = w.settings
    exact World.settings_takeOver w mode
  stage := rfl
  ofPanel := rfl
  live := by
    have hcontrol : ((w.send mode workflowId text).2.receive (w.send mode workflowId text).1
        (.ticket (.ok t))).1.control mode = (w.control mode).renew.1 := by
      trans (w.send mode workflowId text).1.control mode
      · cases mode <;> rfl
      · simp [World.send]
    unfold World.isCancelled
    rw [hcontrol]
    exact Control.isCancelled_renew (w.control mode)

/-- A turn whose request for the stream comes to nothing stays as it was when the ticket came. -/
theorem turnEnd_stall {t : Ticket} {r : World × Operation} (h : Ticketed w mode text t r) :
    TurnEnd w mode text (.stalled t) r where
  panel := by
    rw [Opening.frames, Panel.listen_nil, Panel.detach_of_active (Panel.active_ask _ mode text)]
    simp [h.studio]
  inactive := by simp [h.studio]
  busy := by simp [h.studio, Opening.isStalled]
  others m hm := by simp [h.studio, hm]
  result := by
    unfold result?
    rw [h.stage]
    rfl
  waits t' ht := by
    cases ht
    rw [request?_opening h.stage, h.ofPanel]
  notices := by simp [h.studio, noticesOf, Opening.result]
  tasks := h.tasks

/-- A turn whose stream is open follows it to its end. -/
theorem turnEnd_follow {t : Ticket} (b : Body) {r : World × Operation}
    (h : Ticketed w mode text t r) :
    TurnEnd w mode text (.opened t b)
      ((r.2.receive r.1 (.opened (.ok ()))).2.consume (r.2.receive r.1 (.opened (.ok ()))).1
        (arrivalsOf b)) := by
  let op : Operation :=
    { mode, stage := .following (w.takeOver mode).2 t.graphId t.executionId }
  have hopened : r.2.receive r.1 (.opened (.ok ())) = (r.1, op) := by
    unfold receive
    rw [h.stage, h.ofPanel]
  have hlast : b.last.end? r.1.settings.idleSeconds = some (b.outcome w.settings.idleSeconds) := by
    rw [h.settings]
    exact (outcome_last b _).1
  rw [hopened, arrivalsOf_eq]
  dsimp only
  rw [consume_eq rfl h.live b.received hlast]
  exact turnEnd_settle t b r.1 h.studio h.tasks

/-- Whatever comes of a prompt, an operation that nobody disturbs ends its turn, unless nothing ever
comes of its request for the stream. -/
theorem turnEnd_conclude (w : World) (mode : Mode) (workflowId : Option String) (text : String)
    (o : Opening) : TurnEnd w mode text o (conclude (w.send mode workflowId text) o) := by
  cases o with
  | noTicket e =>
    exact turnEnd_refuse (w.send mode workflowId text).1 (by simp [World.send])
      (by simp [World.send, Opening.tasks]) rfl rfl rfl
  | noStream t e =>
    have h := ticketed w mode workflowId text t
    exact turnEnd_refuse _ h.studio h.tasks rfl rfl rfl
  | stalled t => exact turnEnd_stall (ticketed w mode workflowId text t)
  | opened t b => exact turnEnd_follow b (ticketed w mode workflowId text t)

end Operation

/-- Nothing comes of the request for a stream just if it is refused, with another status than 404,
and the body of the refusal falls silent. -/
theorem Reply.stream?_eq_none_iff {executionId : String} {r : Reply} :
    r.stream? executionId = none ↔ ∃ status b, r = .answer status b ∧ status ≠ 404 ∧
      ¬ (200 ≤ status ∧ status < 300) ∧ b.ending = .silent := by
  unfold stream?
  split
  · simp
  · simp
  · rename_i status body hstatus
    have hne : status ≠ 404 := fun h => hstatus h
    by_cases hsuccess : 200 ≤ status ∧ status < 300
    · have hok : (Reply.answer status body).success = .ok body := by simp [success, hsuccess]
      rw [hok]
      refine ⟨nofun, ?_⟩
      rintro ⟨_, _, hr, _, hrefused, _⟩
      cases hr
      exact absurd hsuccess hrefused
    · have herror : (Reply.answer status body).success =
          .error (.api status (refusalReason body.text)) := by simp [success, hsuccess]
      rw [herror]
      refine ⟨fun h => ⟨status, body, rfl, hne, hsuccess, by simpa using h⟩, ?_⟩
      rintro ⟨_, _, hr, _, _, hsilent⟩
      cases hr
      simp [hsilent]

/-- The meaning of one turn. A prompt that is sent alone, in any state of either panel and against
any backend, does what its opening says and ends like this: the panel holds the old transcript, the
prompt and the fold of the events that the frames received deliver, up to the first terminal one; no
turn is active and the panel is idle, whatever the outcome; a failure of the network is shown once;
and the other panel has not been touched. How the body was cut into chunks makes no difference. One
opening is different: the stream has been refused with a status other than 404 and the body of the
refusal falls silent. Then the operation waits for ever and its panel is not idle. -/
theorem send_alone {m : Type → Type} [Monad m] [LawfulMonad m] (exchange : Request → m Reply)
    (w : World) (mode : Mode) (workflowId : Option String) (text : String) :
    ∃ ending : Opening → World × Operation,
      Operation.drive exchange (w.send mode workflowId text) =
          ending <$> opening exchange mode workflowId text ∧
        (∀ o, TurnEnd w mode text o (ending o)) ∧
        (∀ t b c, b.chunks.flatten = c.chunks.flatten → b.ending = c.ending →
          ending (.opened t b) = ending (.opened t c)) ∧
        ∀ id (r : Reply), r.stream? id = none ↔ ∃ status b, r = .answer status b ∧ status ≠ 404 ∧
          ¬ (200 ≤ status ∧ status < 300) ∧ b.ending = .silent := by
  refine ⟨Operation.conclude (w.send mode workflowId text),
    Operation.drive_send exchange w mode workflowId text,
    Operation.turnEnd_conclude w mode workflowId text, fun t b c hoctets hending => ?_,
    fun _ _ => Reply.stream?_eq_none_iff⟩
  unfold Operation.conclude
  dsimp only
  rw [Operation.arrivalsOf_congr hoctets hending]

/-- The ticket of an execution, as a backend sends it. -/
def ticketBody : Body :=
  { chunks :=
      [Text.octets "\x7b\"code\": 200, \"message\": \"ok\", \"data\": \x7b\"session_id\": \"s1\", ",
        Text.octets "\"execution_id\": \"e1\", \"graph_id\": \"g1\"\x7d\x7d"]
    ending := .closed }

/-- A ticket, and a stream that is cut inside a frame: the frame behind the terminal event is not
heard, and the panel is idle again. -/
theorem send_alone_to_done :
    let stream : Body :=
      { chunks :=
          [Text.octets "event: start\ndata: \x7b\"taskId\": \"t\"\x7d\n\nevent: del",
            Text.octets "ta\ndata: \x7b\"content\": \"hi\"\x7d\n\nevent: done\ndata: \x7b\x7d\n\n",
            Text.octets "event: delta\ndata: \x7b\"content\": \"late\"\x7d\n\n"]
        ending := .silent }
    let backend : Request → Id Reply := fun r =>
      .answer 200 (if r.eventStream then stream else ticketBody)
    let r := Operation.drive backend (World.send {} .webCreator (some "g1") "a blog")
    (r.1.studio.panel .webCreator).entries.map (fun e => (e.role, e.text)) =
        [(.user, "a blog"), (.assistant, "hi")] ∧
      (r.1.studio.panel .webCreator).active = none ∧
      r.1.studio.isStreaming .webCreator = false ∧
      r.2.result? = some (.ok (some ⟨"g1", "e1", .completed⟩)) ∧ r.1.studio.notices = [] ∧
      r.1.tasks.get? (World.space .webCreator) "g1" = some "e1" := by
  intro stream backend r
  obtain ⟨ending, hdrive, hend, _⟩ := send_alone backend {} .webCreator (some "g1") "a blog"
  have hticket : (submit backend .webCreator (some "g1") "a blog").run =
      .ok ⟨"s1", "e1", "g1"⟩ := by decide +kernel
  have hopening : opening backend .webCreator (some "g1") "a blog" =
      .opened ⟨"s1", "e1", "g1"⟩ stream := by
    unfold opening
    rw [show submit backend .webCreator (some "g1") "a blog" = pure (.ok ⟨"s1", "e1", "g1"⟩)
      from hticket]
    rfl
  have hr : r = ending (.opened ⟨"s1", "e1", "g1"⟩ stream) :=
    hdrive.trans (congrArg ending hopening)
  have h := hend (.opened ⟨"s1", "e1", "g1"⟩ stream)
  rw [hr]
  refine ⟨?_, h.inactive, h.busy, ?_, ?_, ?_⟩
  · rw [h.panel]
    decide +kernel
  · rw [h.result]
    decide +kernel
  · rw [h.notices]
    decide +kernel
  · rw [h.tasks]
    decide +kernel

/-- The stream is refused, and the reason does not come to its end: the operation never finishes,
and its panel stays busy. -/
theorem send_stalled :
    let backend : Request → Id Reply := fun r =>
      if r.eventStream then .answer 503 { chunks := [Text.octets "busy"], ending := .silent }
      else .answer 200 ticketBody
    let r := Operation.drive backend (World.send {} .webCreator (some "g1") "a blog")
    r.2.result? = none ∧ r.2.request?.map Request.path = some "/web-builder/stream/e1" ∧
      r.1.studio.isStreaming .webCreator = true := by
  decide +kernel

end PromptStudio
