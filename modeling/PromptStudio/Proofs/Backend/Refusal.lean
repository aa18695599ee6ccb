import Mathlib.Data.List.Basic
import PromptStudio.Backend.Query
import PromptStudio.Proofs.Json.Fields

/-!
# Refusals in an envelope

The backend refuses a call by an envelope with a failing code. The code is looked at only after the
whole envelope has been read, payload included, so what a call gives for a refusal depends on
whether the refusal holds a payload of the call's own type (`payload_refused`). No call takes null
for a payload (`decode_null`), so a refusal without one is lost. Conversely a call succeeds only
with what such an envelope reports (`answer_eq_ok_iff`).
-/

namespace PromptStudio

variable {α : Type}

/-! ## The fields of an envelope -/

namespace Envelope

/-- The fields of an envelope. -/
def fieldNames : List String := ["message", "code", "data"]

/-- No field of the envelope comes twice. -/
def Unrepeated (members : List (String × Source)) : Prop :=
  ((members.filter fun m => fieldNames.contains m.1).map Prod.fst).Nodup

instance (members : List (String × Source)) : Decidable (Unrepeated members) :=
  inferInstanceAs (Decidable (List.Nodup _))

/-- An envelope that is an object is read field by field, if none comes twice. -/
theorem decode_obj (read : Source → Option α) (absent : Option α)
    (members : List (String × Source)) :
    decode read absent (.obj members) =
      if Unrepeated members then do
        let data ← (members.lookup "data").elim absent read
        let message ← Fields.orElse members "message" "" Source.text?
        let code ← Fields.orElse members "code" 0 Source.int64?
        return { message, code, data }
      else none := by
  have hdata := lookup_filter_contains (by decide : "data" ∈ fieldNames) members
  have hmessage := lookup_filter_contains (by decide : "message" ∈ fieldNames) members
  have hcode := lookup_filter_contains (by decide : "code" ∈ fieldNames) members
  by_cases h : Unrepeated members
  · have hfields : Source.fields? ["message", "code", "data"] (.obj members) =
        some (members.filter fun m => fieldNames.contains m.1) := if_pos h
    rw [if_pos h]
    unfold decode Fields.orElse
    rw [hfields, ← hdata, ← hmessage, ← hcode]
    dsimp only [Option.bind_eq_bind, Option.bind_some]
    cases (members.filter fun m => fieldNames.contains m.1).lookup "data" <;> rfl
  · have hfields : Source.fields? ["message", "code", "data"] (.obj members) = none := if_neg h
    rw [if_neg h]
    unfold decode
    rw [hfields]
    rfl

theorem payload_eq_ok_iff {e : Envelope α} {d : α} :
    e.payload = .ok d ↔ (e.code = 0 ∨ e.code = 200) ∧ e.data = d := by
  unfold payload isSuccess
  by_cases h : e.code = 0 ∨ e.code = 200 <;> simp [h]

end Envelope

/-! ## Successful calls -/

theorem exists_of_bind_eq_ok {β : Type} {x : Except Failure α} {f : α → Except Failure β} {b : β}
    (h : (x >>= f) = .ok b) : ∃ a, x = .ok a ∧ f a = .ok b := by
  cases x with
  | error e => cases h
  | ok a => exact ⟨a, rfl, h⟩

theorem Reply.success_eq_ok_iff {r : Reply} {body : Body} :
    r.success = .ok body ↔ ∃ status, r = .answer status body ∧ 200 ≤ status ∧ status < 300 := by
  unfold success
  cases r with
  | lost reason => simp
  | answer status b =>
    by_cases h : 200 ≤ status ∧ status < 300 <;> simp [h]

theorem Body.octets?_eq_ok_iff {b : Body} {octets : List UInt8} :
    b.octets? = .ok octets ↔ b.ending = .closed ∧ b.chunks.flatten = octets := by
  unfold octets?
  by_cases h : b.ending = .closed <;> simp [h]

/-! ## Refused calls -/

/-- Of a successful answer whose body ends properly, all octets are read. -/
theorem bind_octets {β : Type} {status : Nat} {body : Body} (hstatus : 200 ≤ status ∧ status < 300)
    (hclosed : body.ending = .closed) (f : List UInt8 → Except Failure β) :
    ((Reply.answer status body).success >>= fun b => b.octets? >>= f) = f body.chunks.flatten := by
  have hsuccess : (Reply.answer status body).success = .ok body := by
    unfold Reply.success
    simp [hstatus]
  have hoctets : body.octets? = .ok body.chunks.flatten := if_pos hclosed
  rw [hsuccess]
  show (body.octets? >>= f) = _
  rw [hoctets]
  rfl

/-- What a failing code makes of a reply: the failure that it stands for, if the envelope holds a
payload that can be read, and otherwise nothing that names the code or the message. -/
theorem payload_refused {read : Source → Option α} {status : Nat} {body : Body}
    {members : List (String × Source)} {code : Int} {message : String}
    (hstatus : 200 ≤ status ∧ status < 300) (hclosed : body.ending = .closed)
    (hobject : Source.read body.chunks.flatten = some (.obj members))
    (hcode : (members.lookup "code").bind Source.int64? = some code)
    (hmessage : members.lookup "message" = some (.str message))
    (hfails : Envelope.isSuccess code = false) :
    (Reply.answer status body).payload read =
      if Envelope.Unrepeated members ∧ ((members.lookup "data").bind read).isSome then
        .error (.api (Envelope.statusOf code) message)
      else .error .unreadable := by
  have htext : (members.lookup "message").bind Source.text? = some message := by
    rw [hmessage]
    rfl
  have hdata : (members.lookup "data").elim none read = (members.lookup "data").bind read := by
    cases members.lookup "data" <;> rfl
  unfold Reply.payload
  rw [bind_octets hstatus hclosed, hobject, Option.bind_some, Envelope.decode_obj, hdata,
    Fields.orElse_of_bind htext, Fields.orElse_of_bind hcode]
  by_cases h : Envelope.Unrepeated members
  · cases hd : (members.lookup "data").bind read with
    | none => simp [h]
    | some d => simp [h, Envelope.payload, hfails]
  · simp [h]

namespace Query

/-- The reply reports this payload: it is a successful answer that has arrived whole, its envelope
can be read, and the code in it is no failing one. -/
inductive Reports (q : Query) : Reply → q.Payload → Prop
  | intro {status body e} (hstatus : 200 ≤ status ∧ status < 300) (hclosed : body.ending = .closed)
      (hread : (Source.read body.chunks.flatten).bind (Envelope.decode q.decode none) = some e)
      (hcode : e.code = 0 ∨ e.code = 200) : Reports q (.answer status body) e.data

/-- A call succeeds with just what the reply reports. -/
theorem answer_eq_ok_iff {q : Query} {r : Reply} {d : q.Payload} :
    q.answer r = .ok d ↔ q.Reports r d := by
  constructor
  · intro h
    obtain ⟨body, hsuccess, h⟩ := exists_of_bind_eq_ok h
    obtain ⟨octets, hoctets, h⟩ := exists_of_bind_eq_ok h
    obtain ⟨status, rfl, hstatus⟩ := Reply.success_eq_ok_iff.mp hsuccess
    obtain ⟨hclosed, rfl⟩ := Body.octets?_eq_ok_iff.mp hoctets
    split at h
    case h_1 e hread =>
      obtain ⟨hcode, rfl⟩ := Envelope.payload_eq_ok_iff.mp h
      exact .intro hstatus hclosed hread hcode
    case h_2 => cases h
  · rintro ⟨hstatus, hclosed, hread, hcode⟩
    unfold answer Reply.payload
    rw [bind_octets hstatus hclosed, hread]
    exact Envelope.payload_eq_ok_iff.mpr ⟨hcode, rfl⟩

/-- No call takes null for a payload. -/
theorem decode_null (q : Query) : q.decode .null = none := by
  cases q <;> rfl

/-- When a refusal keeps its identity. A call that expects a payload gives the code and the message
of a failing envelope exactly if no field comes twice and the envelope also holds a payload of the
call's own type. In every other case, and so whenever the payload is null or missing, the call
fails as if the answer were no envelope at all. -/
theorem answer_refused_iff (q : Query) (status : Nat) (body : Body)
    (members : List (String × Source)) (code : Int) (message : String)
    (hstatus : 200 ≤ status ∧ status < 300) (hclosed : body.ending = .closed)
    (hobject : Source.read body.chunks.flatten = some (.obj members))
    (hcode : (members.lookup "code").bind Source.int64? = some code)
    (hmessage : members.lookup "message" = some (.str message))
    (hfails : code ≠ 0 ∧ code ≠ 200) :
    let kept : Except Failure q.Payload :=
      .error (.api (if 0 ≤ code ∧ code ≤ 65535 then code.toNat else 500) message)
    (q.answer (.answer status body) = kept ↔
      Envelope.Unrepeated members ∧
        ∃ d, members.lookup "data" = some d ∧ (q.decode d).isSome) ∧
    (q.answer (.answer status body) ≠ kept →
      q.answer (.answer status body) = .error .unreadable) ∧
    (members.lookup "data" = none ∨ members.lookup "data" = some .null →
      q.answer (.answer status body) = .error .unreadable) := by
  intro kept
  have hfails' : Envelope.isSuccess code = false := by simp [Envelope.isSuccess, hfails]
  have hstatusOf : Envelope.statusOf code =
      if 0 ≤ code ∧ code ≤ 65535 then code.toNat else 500 := by
    unfold Envelope.statusOf
    by_cases h : 0 ≤ code ∧ code ≤ 65535
    · have hlt : code < 65536 := by omega
      simp [h, hlt]
    · have hout : ¬ (0 ≤ code ∧ code < 65536) := by omega
      simp [h, hout]
  have hpayload : (∃ d, members.lookup "data" = some d ∧ (q.decode d).isSome) ↔
      ((members.lookup "data").bind q.decode).isSome := by
    cases members.lookup "data" <;> simp
  have hanswer : q.answer (.answer status body) =
      if Envelope.Unrepeated members ∧ ((members.lookup "data").bind q.decode).isSome then kept
      else .error .unreadable := by
    show (Reply.answer status body).payload q.decode = _
    rw [payload_refused hstatus hclosed hobject hcode hmessage hfails', hstatusOf]
  rw [hpayload, hanswer]
  refine ⟨?_, fun h => ?_, fun h => ?_⟩
  · split
    · rename_i hread
      exact ⟨fun _ => hread, fun _ => rfl⟩
    · rename_i hread
      exact ⟨fun h => (by simp [kept] at h), fun h => absurd h hread⟩
  · split at h
    · exact absurd rfl h
    · rename_i hread
      rw [if_neg hread]
  · have hnone : (members.lookup "data").bind q.decode = none := by
      rcases h with h | h
      · rw [h]
        rfl
      · rw [h]
        exact q.decode_null
    rw [hnone]
    exact if_neg fun hread => by cases hread.2

/-- A missing graph, reported with the code 404 and no payload. -/
def missingGraph : Body :=
  { chunks :=
      [[123, 34, 109, 101, 115, 115, 97, 103, 101, 34, 58, 34, 103, 114, 97, 112, 104, 32, 109,
        105, 115, 115, 105, 110, 103, 34, 44, 34, 99, 111, 100, 101, 34, 58, 52, 48, 52, 44, 34,
        100, 97, 116, 97, 34, 58, 110, 117, 108, 108, 125]]
    ending := .closed }

/-- The message and the code of a refusal without a payload are lost. -/
theorem answer_missingGraph :
    Source.read missingGraph.chunks.flatten =
        some (.obj [("message", .str "graph missing"), ("code", .num (.whole 404)),
          ("data", .null)]) ∧
      (submitWorkflow "a site").answer (.answer 200 missingGraph) = .error .unreadable := ⟨rfl, rfl⟩

/-- A refusal with the code 503, and an empty list behind it. -/
def busyList : Body :=
  { chunks :=
      [[123, 34, 109, 101, 115, 115, 97, 103, 101, 34, 58, 34, 98, 117, 115, 121, 34, 44, 34, 99,
        111, 100, 101, 34, 58, 53, 48, 51, 44, 34, 100, 97, 116, 97, 34, 58, 91, 93, 125]]
    ending := .closed }

/-- A call for the models loses the missing graph too, and keeps the refusal that comes with a list,
which is what a call for models expects. -/
theorem answer_refused_iff_missingGraph :
    (200 ≤ 200 ∧ 200 < 300) ∧ (404 ≠ 0 ∧ 404 ≠ 200) ∧ (503 ≠ 0 ∧ 503 ≠ 200) ∧
      models.answer (.answer 200 missingGraph) = .error .unreadable ∧
      models.answer (.answer 200 busyList) = .error (.api 503 "busy") :=
  ⟨by decide, by decide, by decide,
    (answer_refused_iff models 200 missingGraph _ 404 "graph missing" (by decide) rfl rfl rfl rfl
      (by decide)).2.2 (.inr rfl),
    (answer_refused_iff models 200 busyList _ 503 "busy" (by decide) rfl rfl rfl rfl
      (by decide)).1.mpr ⟨by decide, .arr [], rfl, rfl⟩⟩

end Query

end PromptStudio
