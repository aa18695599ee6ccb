import PromptStudio.Event.Build
import PromptStudio.Event.Site
import PromptStudio.Json.Writer
import PromptStudio.Stream.Follow

/-!
# Where the following of a stream stops

A stream that nobody cancels is followed up to its first stop: an error, its end, a terminal event,
or a silence longer than the idle timeout, where any frame ends a silence (`StopsAt`, `FirstStop`).
What is delivered are the events of the frames up to there, without keepalives
(`follow_to_first_stop`).
-/

namespace PromptStudio

open EventFamily

/-- The name of an event tells whether it ends the stream, whether it says why, and whether it only
shows that the stream is alive. -/
class LawfulFamily (ε : Type) [EventFamily ε] : Prop where
  isTerminal_iff : ∀ e : ε, isTerminal e ↔ name e = "done" ∨ name e = "error"
  isSome_failure?_iff : ∀ e : ε, (failure? e).isSome ↔ name e = "error"
  isKeepalive_iff : ∀ e : ε, isKeepalive e ↔ name e = "ping"

instance : LawfulFamily SiteEvent where
  isTerminal_iff e := by
    show e.isTerminal ↔ e.name = "done" ∨ e.name = "error"
    cases e <;> simp [SiteEvent.isTerminal, SiteEvent.name]
  isSome_failure?_iff e := by
    show e.failure?.isSome ↔ e.name = "error"
    cases e <;> simp [SiteEvent.failure?, SiteEvent.name]
  isKeepalive_iff e := by
    show e.isKeepalive ↔ e.name = "ping"
    cases e <;> simp [SiteEvent.isKeepalive, SiteEvent.name]

instance : LawfulFamily BuildEvent where
  isTerminal_iff e := by
    show e.isTerminal ↔ e.name = "done" ∨ e.name = "error"
    cases e <;> simp [BuildEvent.isTerminal, BuildEvent.name]
  isSome_failure?_iff e := by
    show e.failure?.isSome ↔ e.name = "error"
    cases e <;> simp [BuildEvent.failure?, BuildEvent.name]
  isKeepalive_iff e := by
    show e.isKeepalive ↔ e.name = "ping"
    cases e <;> simp [BuildEvent.isKeepalive, BuildEvent.name]

theorem Outcome.not_isInterrupted_iff (o : Outcome) :
    ¬ o.isInterrupted ↔ o = .completed ∨ ∃ reason, o = .failed reason := by
  cases o <;> simp [isInterrupted]

theorem Outcome.not_isInterrupted_ofFailure (reason : Option String) :
    ¬ (ofFailure reason).isInterrupted := by
  cases reason <;> simp [ofFailure, isInterrupted]

namespace Stream

/-! ## Stops -/

/-- How long it has been silent after a beat, if it was for `gap` before it. -/
def gapAfter (gap : Nat) : Beat → Nat
  | .frame _ => 0
  | .pause ms => gap + ms
  | .broken _ | .cancel | .silence => gap

/-- How a stream that has been silent for `gap` milliseconds is left because of the next beat, or
because there is none. -/
inductive StopsAt (ε : Type) [EventFamily ε] (idle gap : Nat) : Option Beat → Outcome → Prop
  | ended : StopsAt ε idle gap none .ended
  | broken (cause : StreamFailure) :
    StopsAt ε idle gap (some (.broken cause)) (.disconnected cause)
  | silence : StopsAt ε idle gap (some .silence) (idleFailure idle)
  | pause {ms : Nat} (h : idle < gap + ms) :
    StopsAt ε idle gap (some (.pause ms)) (idleFailure idle)
  | done {f : Frame} {e : ε} (h : ofFrame? f = some e) (hname : name e = "done") :
    StopsAt ε idle gap (some (.frame f)) .completed
  | error {f : Frame} {e : ε} (h : ofFrame? f = some e) (hname : name e = "error")
    {reason : String} (hreason : failure? e = some reason) :
    StopsAt ε idle gap (some (.frame f)) (.failed reason)

/-- A source that begins with `before` and goes on with `rest` is left between the two, and not
earlier; it has been silent for `gap` milliseconds when it begins. -/
structure FirstStop (ε : Type) [EventFamily ε] (idle gap : Nat) (before rest : List Beat)
    (outcome : Outcome) : Prop where
  stops : StopsAt ε idle (before.foldl gapAfter gap) rest.head? outcome
  first : ∀ earlier next later, before = earlier ++ next :: later → ∀ outcome,
    ¬ StopsAt ε idle (earlier.foldl gapAfter gap) (some next) outcome

variable {ε : Type} [EventFamily ε]

/-- The event of a beat that is delivered. -/
def delivery? : Beat → Option ε
  | .frame f => (ofFrame? f).filter fun e => !isKeepalive e
  | .broken _ | .pause _ | .cancel | .silence => none

/-- The events that are delivered of beats that are all followed. -/
def delivered (beats : List Beat) : List ε := beats.filterMap delivery?

theorem delivered_cons (b : Beat) (beats : List Beat) :
    (delivered (b :: beats) : List ε) = (delivery? b).toList ++ delivered beats := by
  cases h : (delivery? b : Option ε) <;> simp [delivered, h]

theorem FirstStop.cons {idle gap : Nat} {b : Beat} {before rest : List Beat} {outcome : Outcome}
    (h : FirstStop ε idle (gapAfter gap b) before rest outcome)
    (hb : ∀ outcome, ¬ StopsAt ε idle gap (some b) outcome) :
    FirstStop ε idle gap (b :: before) rest outcome := by
  refine ⟨h.stops, fun earlier next later hbefore => ?_⟩
  cases earlier with
  | nil =>
    obtain ⟨rfl, -⟩ := List.cons.inj hbefore
    exact hb
  | cons c earlier =>
    obtain ⟨rfl, hrest⟩ := List.cons.inj hbefore
    exact h.first earlier next later hrest

theorem gapAfter_le {idle gap : Nat} {b : Beat} (hgap : gap ≤ idle)
    (h : ∀ outcome, ¬ StopsAt ε idle gap (some b) outcome) : gapAfter gap b ≤ idle := by
  cases b with
  | frame f => exact Nat.zero_le idle
  | pause ms => exact Nat.le_of_not_lt fun hlt => h _ (.pause hlt)
  | broken _ | cancel | silence => exact hgap

/-! ## Steps -/

section

variable {idle gap n : Nat} {cancels : Nat → Bool} {f : Frame} {beats : List Beat}

theorem delivery?_eq_some {e : ε} :
    delivery? (.frame f) = some e ↔ ofFrame? f = some e ∧ isKeepalive e = false := by
  rw [delivery?, Option.filter_eq_some_iff, Bool.not_eq_true']

/-- A run that is not cancelled goes on behind a frame, unless it delivers an event that is terminal
or whose receiver cancels. -/
theorem followFrom_frame :
    (followFrom idle cancels n gap false (.frame f :: beats) : List ε × Outcome) =
      match (delivery? (.frame f) : Option ε) with
      | none => followFrom idle cancels n 0 false beats
      | some e =>
        if isTerminal e then ([e], .ofFailure (failure? e))
        else if cancels (n + 1) then ([e], .aborted)
        else
          let rest : List ε × Outcome := followFrom idle cancels (n + 1) 0 false beats
          (e :: rest.1, rest.2) := by
  rw [followFrom, if_neg Bool.false_ne_true]
  cases hf : (ofFrame? f : Option ε) with
  | none => simp [delivery?, hf]
  | some e =>
    cases hkeepalive : isKeepalive e <;> simp [delivery?, hf, hkeepalive, Option.filter_some]

end

variable [LawfulFamily ε]

theorem delivery?_of_isTerminal {f : Frame} {e : ε} (h : ofFrame? f = some e)
    (hterminal : isTerminal e) : delivery? (.frame f) = some e := by
  refine delivery?_eq_some.mpr ⟨h, ?_⟩
  rw [Bool.eq_false_iff, ne_eq, LawfulFamily.isKeepalive_iff]
  rcases (LawfulFamily.isTerminal_iff e).mp hterminal with hname | hname <;> simp [hname]

theorem failure?_of_done {e : ε} (h : name e = "done") : failure? e = none := by
  rw [← Option.not_isSome_iff_eq_none, LawfulFamily.isSome_failure?_iff, h]
  decide

variable {idle gap : Nat}

/-- Just the terminal events stop the stream when they come. -/
theorem exists_stopsAt_frame_iff {f : Frame} {e : ε} (h : ofFrame? f = some e) :
    (∃ outcome, StopsAt ε idle gap (some (.frame f)) outcome) ↔ isTerminal e := by
  rw [LawfulFamily.isTerminal_iff]
  constructor
  · rintro ⟨outcome, hstop⟩
    cases hstop with
    | done h' hname =>
      obtain rfl := Option.some.inj (h.symm.trans h')
      exact .inl hname
    | error h' hname _ =>
      obtain rfl := Option.some.inj (h.symm.trans h')
      exact .inr hname
  · rintro (hname | hname)
    · exact ⟨_, .done h hname⟩
    · obtain ⟨reason, hreason⟩ :=
        Option.isSome_iff_exists.mp ((LawfulFamily.isSome_failure?_iff e).mpr hname)
      exact ⟨_, .error h hname hreason⟩

/-- At a stop either nothing is delivered and the turn is left open, or a terminal event is
delivered and tells the outcome. -/
theorem StopsAt.cases {next : Option Beat} {outcome : Outcome}
    (h : StopsAt ε idle gap next outcome) :
    ((delivered next.toList : List ε) = [] ∧ outcome.isInterrupted) ∨
      ∃ (f : Frame) (e : ε), next = some (.frame f) ∧ delivery? (.frame f) = some e ∧ isTerminal e ∧
        outcome = .ofFailure (failure? e) := by
  cases h with
  | ended | broken | silence | pause => exact .inl ⟨rfl, rfl⟩
  | done h hname =>
    have hterminal := (LawfulFamily.isTerminal_iff _).mpr (.inl hname)
    refine .inr ⟨_, _, rfl, delivery?_of_isTerminal h hterminal, hterminal, ?_⟩
    rw [failure?_of_done hname]
    rfl
  | error h hname hreason =>
    have hterminal := (LawfulFamily.isTerminal_iff _).mpr (.inr hname)
    refine .inr ⟨_, _, rfl, delivery?_of_isTerminal h hterminal, hterminal, ?_⟩
    rw [hreason]
    rfl

/-- The run ends at a stop. -/
theorem followFrom_of_stopsAt {beats : List Beat} {outcome : Outcome} (hgap : gap ≤ idle)
    (h : StopsAt ε idle gap beats.head? outcome) (n : Nat) :
    followFrom idle (fun _ => false) n gap false beats =
      ((delivered beats.head?.toList : List ε), outcome) := by
  rcases h.cases with ⟨hnone, hinterrupted⟩ | ⟨f, e, hhead, hdelivery, hterminal, rfl⟩
  · rw [hnone]
    cases beats with
    | nil => cases h; rfl
    | cons b beats =>
      cases h with
      | broken cause => rfl
      | silence => rfl
      | @pause ms hms =>
        have hzero : ms ≠ 0 := by omega
        simp [followFrom, hzero, hms]
      | done | error => cases hinterrupted
  · obtain ⟨beats, rfl⟩ := List.head?_eq_some_iff.mp hhead
    simp [followFrom_frame, delivered, hdelivery, hterminal]

/-- Where it does not stop, the run goes on behind the next beat. -/
theorem followFrom_of_not_stopsAt {b : Beat} (hcancel : b ≠ .cancel)
    (h : ∀ outcome, ¬ StopsAt ε idle gap (some b) outcome) (n : Nat) (beats : List Beat) :
    followFrom idle (fun _ => false) n gap false (b :: beats) =
      let rest : List ε × Outcome := followFrom idle (fun _ => false)
        (n + (delivery? b : Option ε).toList.length) (gapAfter gap b) false beats
      ((delivery? b).toList ++ rest.1, rest.2) := by
  cases b with
  | cancel => exact absurd rfl hcancel
  | broken cause => exact absurd (.broken cause) (h _)
  | silence => exact absurd .silence (h _)
  | pause ms =>
    have hms : ¬ idle < gap + ms := fun hlt => h _ (.pause hlt)
    by_cases hzero : ms = 0
    · subst hzero
      rfl
    · simp [followFrom, hzero, hms, delivery?, gapAfter]
  | frame f =>
    rw [followFrom_frame]
    cases hdelivery : (delivery? (.frame f) : Option ε) with
    | none => rfl
    | some e =>
      obtain ⟨hf, -⟩ := delivery?_eq_some.mp hdelivery
      have hterminal : isTerminal e = false :=
        Bool.eq_false_iff.mpr fun ht => ((exists_stopsAt_frame_iff hf).mpr ht).elim h
      simp only [hterminal]
      rfl

/-- A run that nobody cancels goes up to the first stop. While nothing stops it, the silence stays
within the limit. -/
theorem exists_firstStop {beats : List Beat} (hcancel : .cancel ∉ beats) (hgap : gap ≤ idle)
    (n : Nat) :
    ∃ before rest outcome, beats = before ++ rest ∧ FirstStop ε idle gap before rest outcome ∧
      followFrom idle (fun _ => false) n gap false beats =
        ((delivered (before ++ rest.head?.toList) : List ε), outcome) := by
  induction beats generalizing gap n with
  | nil => exact ⟨[], [], .ended, rfl, ⟨.ended, by simp⟩, rfl⟩
  | cons b beats ih =>
    obtain ⟨hb, hcancel⟩ : .cancel ≠ b ∧ .cancel ∉ beats := by
      simpa only [List.mem_cons, not_or] using hcancel
    by_cases hstop : ∃ outcome, StopsAt ε idle gap (some b) outcome
    · obtain ⟨outcome, hstop⟩ := hstop
      exact ⟨[], b :: beats, outcome, rfl, ⟨hstop, by simp⟩, followFrom_of_stopsAt hgap hstop n⟩
    · have hstop : ∀ outcome, ¬ StopsAt ε idle gap (some b) outcome :=
        fun outcome h => hstop ⟨outcome, h⟩
      obtain ⟨before, rest, outcome, rfl, hfirst, hrun⟩ := ih hcancel (gapAfter_le hgap hstop)
        (n + (delivery? b : Option ε).toList.length)
      refine ⟨b :: before, rest, outcome, rfl, hfirst.cons hstop, ?_⟩
      rw [followFrom_of_not_stopsAt (Ne.symm hb) hstop, hrun, List.cons_append, delivered_cons]

/-- What is delivered of beats at which the stream does not stop has no terminal event. -/
theorem FirstStop.not_isTerminal {before rest : List Beat} {outcome : Outcome}
    (h : FirstStop ε idle gap before rest outcome) : ∀ e : ε, e ∈ delivered before →
      isTerminal e = false := by
  intro e he
  obtain ⟨b, hb, hdelivery⟩ := List.mem_filterMap.mp he
  obtain ⟨earlier, later, rfl⟩ := List.append_of_mem hb
  cases b with
  | frame f =>
    obtain ⟨hf, -⟩ := delivery?_eq_some.mp hdelivery
    refine Bool.eq_false_iff.mpr fun ht => ?_
    obtain ⟨outcome, hstop⟩ := (exists_stopsAt_frame_iff hf).mpr ht
    exact h.first earlier (.frame f) later rfl outcome hstop
  | _ => cases hdelivery

/-- A stream that nobody cancels is followed up to its first stop. The events of the frames up to
there are delivered, each once and in order, without keepalives. A terminal event is among them just
if it stops the stream, and then it is the last. -/
theorem follow_to_first_stop (idle : Nat) {beats : List Beat} (hcancel : .cancel ∉ beats) :
    ∃ before rest outcome, beats = before ++ rest ∧ FirstStop ε idle 0 before rest outcome ∧
      follow idle (fun _ => false) false beats =
        ((delivered (before ++ rest.head?.toList) : List ε), outcome) ∧
      ((∃ e : ε, e ∈ delivered (before ++ rest.head?.toList) ∧ isTerminal e) ↔
        outcome = .completed ∨ ∃ reason, outcome = .failed reason) ∧
      ∀ e : ε, e ∈ (delivered (before ++ rest.head?.toList)).dropLast → ¬ isTerminal e := by
  obtain ⟨before, rest, outcome, hbeats, hfirst, hrun⟩ :=
    exists_firstStop (ε := ε) hcancel (Nat.zero_le idle) 0
  have hbefore := hfirst.not_isTerminal
  refine ⟨before, rest, outcome, hbeats, hfirst, hrun, ?_⟩
  have happend : (delivered (before ++ rest.head?.toList) : List ε) =
      delivered before ++ delivered rest.head?.toList := List.filterMap_append
  rw [happend, ← Outcome.not_isInterrupted_iff]
  rcases hfirst.stops.cases with ⟨hnone, houtcome⟩ | ⟨f, e, hhead, hdelivery, hterminal, rfl⟩
  · rw [hnone, List.append_nil]
    refine ⟨⟨fun ⟨e, he, hterminal⟩ => ?_, fun hnot => absurd houtcome hnot⟩, fun e he => ?_⟩
    · exact absurd hterminal (by simp [hbefore e he])
    · simp [hbefore e (List.dropLast_subset _ he)]
  · have hlast : (delivered rest.head?.toList : List ε) = [e] := by
      simp [hhead, delivered, hdelivery]
    rw [hlast, List.dropLast_concat]
    refine ⟨⟨fun _ => ?_, fun _ => ⟨e, by simp, hterminal⟩⟩, fun e he => by simp [hbefore e he]⟩
    exact Outcome.not_isInterrupted_ofFailure (failure? e)

/-- A ping and a frame that is no event end the silence, which is just at the limit when the stream
ends the turn; what comes behind it is not delivered. -/
theorem follow_to_first_stop_pings :
    let delta : Beat := .frame ⟨"delta", "\x7b\"content\":\"a\"\x7d", none⟩
    let beats : List Beat := [delta, .pause 20, .frame ⟨"ping", "\x7b\"timestamp\":1\x7d", none⟩,
      .pause 15, .pause 5, .frame ⟨"bogus", "", none⟩, .pause 20, .frame ⟨"done", "", none⟩, delta]
    .cancel ∉ beats ∧
      ∃ (before rest : List Beat) (events : List SiteEvent), beats = before ++ rest ∧
        FirstStop SiteEvent 20 0 before rest .completed ∧
        delivered (before ++ rest.head?.toList) = events ∧
        follow 20 (fun _ => false) false beats = (events, .completed) ∧
        events.map (fun e => (encode e).compact) =
          ["\x7b\"type\":\"delta\",\"content\":\"a\"\x7d", "\x7b\"type\":\"done\"\x7d"] := by
  intro delta beats
  have hcancel : .cancel ∉ beats := by decide
  obtain ⟨before, rest, outcome, hbeats, hfirst, hfollow, _⟩ :=
    follow_to_first_stop (ε := SiteEvent) 20 hcancel
  have hcompleted : (follow (ε := SiteEvent) 20 (fun _ => false) false beats).2 = .completed := by
    decide +kernel
  have hevents : (follow (ε := SiteEvent) 20 (fun _ => false) false beats).1.map
      (fun e => (encode e).compact) =
      ["\x7b\"type\":\"delta\",\"content\":\"a\"\x7d", "\x7b\"type\":\"done\"\x7d"] := by
    decide +kernel
  rw [hfollow] at hcompleted hevents
  obtain rfl : outcome = .completed := hcompleted
  exact ⟨hcancel, before, rest, _, hbeats, hfirst, rfl, hfollow, hevents⟩

end Stream

end PromptStudio
