import PromptStudio.Backend.Change
import PromptStudio.Proofs.Backend.Refusal
import PromptStudio.Proofs.Studio.Library
import PromptStudio.Session.Drive

/-!
# Refused changes

A change succeeds if the answer to it is no envelope, and an answer that cannot be read is none. So
an envelope with a failing code refuses a change only if all of it can be read (`unit_refused`), and
otherwise the change counts as made, in the library as well (`Change.answer_refused_iff_isLegible`).
-/

namespace PromptStudio

variable {status : Nat} {body : Body} {members : List (String × Source)} {code : Int}

/-! ## Envelopes that can be read -/

namespace Envelope

/-- An envelope of any payload can be read: no field comes twice, the message is a text or missing,
and the payload is readable or missing. -/
structure IsLegible (members : List (String × Source)) : Prop where
  unrepeated : Unrepeated members
  message : ∀ s, members.lookup "message" = some s → ∃ text, s = .str text
  data : ∀ s, members.lookup "data" = some s → s.isReadable

/-- The message of an envelope, empty if there is none. -/
def messageOf (members : List (String × Source)) : String :=
  ((members.lookup "message").bind Source.text?).getD ""

theorem orElse_message (h : ∀ s, members.lookup "message" = some s → ∃ text, s = .str text) :
    Fields.orElse members "message" "" Source.text? = some (messageOf members) := by
  unfold Fields.orElse messageOf
  cases hlookup : members.lookup "message" with
  | none => rfl
  | some s =>
    obtain ⟨text, rfl⟩ := h s hlookup
    rfl

theorem exists_text_of_orElse {text : String}
    (h : Fields.orElse members "message" "" Source.text? = some text) (s : Source)
    (hs : members.lookup "message" = some s) : ∃ text, s = .str text := by
  rw [Fields.orElse, hs] at h
  cases s with
  | str text => exact ⟨text, rfl⟩
  | _ => cases h

/-- Reads any payload. -/
def anyPayload? (s : Source) : Option (Option Value) := s.value?.map Value.nonNull?

theorem isReadable_of_anyPayload? {s : Source} {data : Option Value}
    (h : anyPayload? s = some data) : s.isReadable := by
  obtain ⟨v, hv, _⟩ := Option.map_eq_some_iff.mp h
  exact Option.isSome_of_eq_some (Source.value?_eq_some.mp hv)

theorem exists_anyPayload? {s : Source} (h : s.isReadable) :
    ∃ data, anyPayload? s = some data := by
  obtain ⟨j, hj⟩ := Option.isSome_iff_exists.mp h
  have hvalue : s.value? = some ⟨j, Source.ordered_of_json? s hj⟩ := Source.value?_eq_some.mpr hj
  exact ⟨_, congrArg (·.map Value.nonNull?) hvalue⟩

theorem IsLegible.decode (h : IsLegible members)
    (hcode : (members.lookup "code").bind Source.int64? = some code) :
    ∃ data, Envelope.decode anyPayload? (some none) (.obj members) =
      some { message := messageOf members, code, data } := by
  obtain ⟨data, hdata⟩ : ∃ data, (members.lookup "data").elim (some none) anyPayload? =
      some data := by
    cases hlookup : members.lookup "data" with
    | none => exact ⟨none, rfl⟩
    | some s => exact exists_anyPayload? (h.data s hlookup)
  rw [decode_obj, if_pos h.unrepeated, hdata, orElse_message h.message,
    Fields.orElse_of_bind hcode]
  exact ⟨data, rfl⟩

theorem isLegible_of_decode {e : Envelope (Option Value)}
    (h : decode anyPayload? (some none) (.obj members) = some e) : IsLegible members := by
  rw [decode_obj] at h
  split at h
  case isFalse => cases h
  case isTrue hunrepeated =>
    obtain ⟨data, hdata, h⟩ := Option.bind_eq_some_iff.mp h
    obtain ⟨text, htext, _⟩ := Option.bind_eq_some_iff.mp h
    refine ⟨hunrepeated, exists_text_of_orElse htext, fun s hs => ?_⟩
    rw [hs] at hdata
    exact isReadable_of_anyPayload? hdata

end Envelope

/-! ## Changes -/

/-- A failing code refuses a change if the envelope can be read, and goes unnoticed otherwise. -/
theorem unit_refused (hstatus : 200 ≤ status ∧ status < 300) (hclosed : body.ending = .closed)
    (hobject : Source.read body.chunks.flatten = some (.obj members))
    (hcode : (members.lookup "code").bind Source.int64? = some code)
    (hfails : Envelope.isSuccess code = false) :
    (Envelope.IsLegible members → (Reply.answer status body).unit =
      .error (.api (Envelope.statusOf code) (Envelope.messageOf members))) ∧
    (¬ Envelope.IsLegible members → (Reply.answer status body).unit = .ok ()) := by
  unfold Reply.unit
  rw [bind_octets hstatus hclosed, hobject]
  dsimp only [Option.bind_some]
  refine ⟨fun h => ?_, fun h => ?_⟩
  · obtain ⟨data, hread⟩ := h.decode hcode
    unfold Envelope.anyPayload? at hread
    rw [hread]
    simp [Envelope.payload, hfails, Except.map]
  · split
    next e hread => exact absurd (Envelope.isLegible_of_decode hread) h
    next => rfl

/-- The call that asks the backend for an edit. -/
def Edit.change : Edit → Change
  | .delete id => .delete id
  | .rename id name => .rename id name

/-- An edit over a client makes the request of its change, and the reply settles the cache. -/
theorem Library.execute_ofExchange {m : Type → Type} [Monad m] [LawfulMonad m]
    (exchange : Request → m Reply) (l : Library) (e : Edit) :
    l.execute (.ofExchange exchange) e =
      (fun r => (l.settle (.edit e (e.change.answer r)), e.change.answer r)) <$>
        exchange e.change.request := by
  have hask : ask (.ofExchange exchange) e = e.change.answer <$> exchange e.change.request := by
    cases e <;> exact bind_pure_comp _ _
  have hmake := make_eq (.ofExchange exchange) l (.edit e)
  rw [Call.ask, hask, Functor.map_map, Functor.map_map] at hmake
  exact hmake

namespace Change

/-- When a refused change is reported. A call that changes a workflow gives the failure that a
failing code stands for exactly if the envelope can be read, and success in every other case. The
library takes the edit back, or leaves it in the cache, accordingly. -/
theorem answer_refused_iff_isLegible (c : Change) (status : Nat) (body : Body)
    (members : List (String × Source)) (code : Int)
    (hstatus : 200 ≤ status ∧ status < 300) (hclosed : body.ending = .closed)
    (hobject : Source.read body.chunks.flatten = some (.obj members))
    (hcode : (members.lookup "code").bind Source.int64? = some code)
    (hfails : code ≠ 0 ∧ code ≠ 200) :
    let reply := Reply.answer status body
    let refusal := Failure.api (Envelope.statusOf code) (Envelope.messageOf members)
    (c.answer reply = .error refusal ↔ Envelope.IsLegible members) ∧
      (¬ Envelope.IsLegible members → c.answer reply = .ok ()) ∧
      ∀ (m : Type → Type) [Monad m] [LawfulMonad m] (exchange : Request → m Reply) (l : Library)
        (e : Edit), ∃ settled : Reply → Library × Except Failure Unit,
          l.execute (.ofExchange exchange) e = settled <$> exchange e.change.request ∧
          (Envelope.IsLegible members → settled reply = (l, .error refusal)) ∧
          (¬ Envelope.IsLegible members → settled reply = ((l.apply e).1, .ok ())) := by
  intro reply refusal
  have hfails' : Envelope.isSuccess code = false := by simp [Envelope.isSuccess, hfails]
  obtain ⟨hlegible, hlost⟩ := unit_refused hstatus hclosed hobject hcode hfails'
  refine ⟨⟨fun h => ?_, hlegible⟩, hlost, fun m _ _ exchange l e => ?_⟩
  · by_contra hnot
    cases (hlost hnot).symm.trans h
  · refine ⟨_, l.execute_ofExchange exchange e, fun h => ?_, fun h => ?_⟩
    · have hanswer : e.change.answer reply = .error refusal := hlegible h
      rw [hanswer, Library.settle_of_error rfl]
    · have hanswer : e.change.answer reply = .ok () := hlost h
      rw [hanswer, l.items_apply e]
      rfl

/-- A refusal with the code 404 whose message is null. -/
def wordlessRefusal : Body :=
  { chunks :=
      [[123, 34, 109, 101, 115, 115, 97, 103, 101, 34, 58, 110, 117, 108, 108, 44, 34, 99, 111,
        100, 101, 34, 58, 52, 48, 52, 44, 34, 100, 97, 116, 97, 34, 58, 110, 117, 108, 108, 125]]
    ending := .closed }

/-- A refused deletion counts as made, and the cached workflow is gone. -/
theorem answer_wordlessRefusal :
    Source.read wordlessRefusal.chunks.flatten =
        some (.obj [("message", .null), ("code", .num (.whole 404)), ("data", .null)]) ∧
      (delete "a").answer (.answer 200 wordlessRefusal) = .ok () ∧
      Library.execute (m := Id) (.ofExchange fun _ => .answer 200 wordlessRefusal)
          { items := [Library.blank "a" "site"] } (.delete "a") = ({ items := [] }, .ok ()) :=
  ⟨rfl, rfl, rfl⟩

/-- A refusal with a message is reported, and the cached workflow is there again. -/
theorem answer_refused_iff_isLegible_missingGraph :
    (200 ≤ 200 ∧ 200 < 300) ∧ (404 ≠ 0 ∧ 404 ≠ 200) ∧
      (delete "a").answer (.answer 200 Query.missingGraph) =
        .error (.api 404 "graph missing") ∧
      ∃ settled : Reply → Library × Except Failure Unit,
        Library.execute (m := Id) (.ofExchange fun _ => .answer 200 Query.missingGraph)
            { items := [Library.blank "a" "site"] } (.delete "a") =
          settled (.answer 200 Query.missingGraph) ∧
        settled (.answer 200 Query.missingGraph) =
          ({ items := [Library.blank "a" "site"] }, .error (.api 404 "graph missing")) := by
  have hlegible : Envelope.IsLegible [("message", .str "graph missing"),
      ("code", .num (.whole 404)), ("data", .null)] := by
    refine ⟨by decide, fun s hs => ?_, fun s hs => ?_⟩
    · cases hs
      exact ⟨_, rfl⟩
    · cases hs
      rfl
  obtain ⟨hreported, _, hlibrary⟩ := answer_refused_iff_isLegible (delete "a") 200
    Query.missingGraph _ 404 (by decide) rfl rfl rfl (by decide)
  obtain ⟨settled, hexecute, hback, _⟩ := hlibrary Id (fun _ => .answer 200 Query.missingGraph)
    { items := [Library.blank "a" "site"] } (.delete "a")
  exact ⟨by decide, by decide, hreported.mpr hlegible, settled, hexecute, hback hlegible⟩

end Change

end PromptStudio
