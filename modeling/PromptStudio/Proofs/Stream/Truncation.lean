import PromptStudio.Proofs.Stream.Stops

/-!
# Following a stream that is cancelled

A token may be cancelled before the stream is followed, by any step of the source, and by the
receiver of any event. From then on nothing is delivered, and what was delivered is the beginning of
what would be if nobody cancelled. The outcome is that the run was aborted, unless all has been
delivered by then (`follow_cancelled`).
-/

namespace PromptStudio.Stream

open EventFamily

variable {ε : Type}

/-- The steps of a source but for its cancellations. -/
def undisturbed (beats : List Beat) : List Beat := beats.filter fun b => b ≠ .cancel

/-! ## Runs that are cut short -/

/-- The run is the whole one, or it delivers the beginning of what that one does and is aborted. -/
structure Cuts (run whole : List ε × Outcome) : Prop where
  isPrefix : run.1 <+: whole.1
  outcome : run.2 = .aborted ∨ run = whole

theorem Cuts.whole (run : List ε × Outcome) : Cuts run run := ⟨List.prefix_rfl, .inr rfl⟩

theorem Cuts.aborted {es : List ε} {whole : List ε × Outcome} (h : es <+: whole.1) :
    Cuts (es, .aborted) whole := ⟨h, .inl rfl⟩

theorem Cuts.cons {run whole : List ε × Outcome} (h : Cuts run whole) (e : ε) :
    Cuts (e :: run.1, run.2) (e :: whole.1, whole.2) := by
  refine ⟨(List.prefix_cons_inj e).mpr h.isPrefix, h.outcome.imp_right fun heq => ?_⟩
  rw [heq]

variable [EventFamily ε] {idle gap n : Nat} {cancels : Nat → Bool} {cancelled : Bool}
  {beats : List Beat}

/-- The run with cancellations cuts short the one without, from any state on. How many events the
latter has delivered by then does not matter to it. -/
theorem cuts_followFrom (m : Nat) :
    Cuts (followFrom idle cancels n gap cancelled beats : List ε × Outcome)
      (followFrom idle (fun _ => false) m gap false (undisturbed beats)) := by
  induction beats generalizing n gap cancelled m with
  | nil => exact .whole _
  | cons b beats ih =>
    cases b with
    | broken cause => exact .whole _
    | cancel => exact ih m
    | silence =>
      rw [followFrom]
      split
      · exact .aborted List.nil_prefix
      · exact .whole _
    | pause ms =>
      show Cuts _ (followFrom idle (fun _ => false) m gap false (.pause ms :: undisturbed beats))
      rw [followFrom, followFrom]
      split
      · exact ih m
      split
      · exact .aborted List.nil_prefix
      rw [Bool.false_and, if_neg Bool.false_ne_true]
      split
      · exact .whole _
      · exact ih m
    | frame f =>
      show Cuts _ (followFrom idle (fun _ => false) m gap false (.frame f :: undisturbed beats))
      cases cancelled with
      | true =>
        rw [followFrom, if_pos rfl]
        exact .aborted List.nil_prefix
      | false =>
        rw [followFrom_frame, followFrom_frame]
        split
        · exact ih m
        split
        · exact .whole _
        rw [if_neg Bool.false_ne_true]
        split
        · exact .aborted ((List.prefix_cons_inj _).mpr List.nil_prefix)
        · exact (ih (m + 1)).cons _

/-! ## Nothing behind a cancellation -/

/-- Nothing is delivered once someone has cancelled. -/
theorem followFrom_cancelled :
    (followFrom idle cancels n gap true beats : List ε × Outcome).1 = [] := by
  induction beats generalizing gap with
  | nil => rfl
  | cons b beats ih =>
    cases b with
    | broken _ | silence | frame _ => rfl
    | cancel => exact ih
    | pause ms =>
      rw [followFrom]
      split
      · exact ih
      split
      · rfl
      case isFalse hzero hgap =>
        -- The limit was reached before, so that any pause exceeds it.
        have hgap : idle ≤ gap := by simpa using hgap
        rw [if_pos (by omega)]

/-- What comes behind a step of the source that cancels does not count. -/
theorem followFrom_append_cancel (rest : List Beat) :
    (followFrom idle cancels n gap cancelled (beats ++ .cancel :: rest) : List ε × Outcome).1 =
      (followFrom idle cancels n gap cancelled beats : List ε × Outcome).1 := by
  induction beats generalizing n gap cancelled with
  | nil => exact followFrom_cancelled
  | cons b beats ih =>
    rw [List.cons_append]
    cases b with
    | broken _ | silence => rfl
    | cancel => exact ih
    | pause ms =>
      rw [followFrom, followFrom]
      split
      · exact ih
      split
      · rfl
      split
      · rfl
      · exact ih
    | frame f =>
      cases cancelled with
      | true => rfl
      | false =>
        rw [followFrom_frame, followFrom_frame]
        split
        · exact ih
        split
        · rfl
        split
        · rfl
        · exact congrArg (_ :: ·) ih

/-- What comes behind an event whose receiver cancels does not count. -/
theorem length_followFrom_le {k : Nat} (hcancels : cancels k) (hn : n < k) :
    n + (followFrom idle cancels n gap cancelled beats : List ε × Outcome).1.length ≤ k := by
  induction beats generalizing n gap cancelled with
  | nil => exact Nat.le_of_lt hn
  | cons b beats ih =>
    cases b with
    | broken _ | silence => exact Nat.le_of_lt hn
    | cancel => exact ih hn
    | pause ms =>
      rw [followFrom]
      split
      · exact ih hn
      split
      · exact Nat.le_of_lt hn
      split
      · exact Nat.le_of_lt hn
      · exact ih hn
    | frame f =>
      cases cancelled with
      | true => exact Nat.le_of_lt hn
      | false =>
        rw [followFrom_frame]
        split
        · exact ih hn
        split
        · exact hn
        split
        · exact hn
        case isFalse hgoes =>
          have hne : n + 1 ≠ k := fun heq => hgoes (heq ▸ hcancels)
          have hrest : n + 1 + (followFrom idle cancels (n + 1) 0 false beats :
              List ε × Outcome).1.length ≤ k := ih (by omega)
          rw [List.length_cons]
          omega

/-! ## All before a cancellation -/

/-- If only receivers cancel, all is delivered up to the first one that does. -/
theorem take_prefix_followFrom {k : Nat} (hbeats : .cancel ∉ beats)
    (hcancels : ∀ j, n < j → j < k → ¬ cancels j) (m : Nat) :
    (followFrom idle (fun _ => false) m gap false beats : List ε × Outcome).1.take (k - n) <+:
      (followFrom idle cancels n gap false beats : List ε × Outcome).1 := by
  induction beats generalizing n gap m with
  | nil => exact List.take_prefix _ _
  | cons b beats ih =>
    obtain ⟨hb, hrest⟩ : .cancel ≠ b ∧ .cancel ∉ beats := by
      simpa only [List.mem_cons, not_or] using hbeats
    cases b with
    | cancel => exact absurd rfl hb
    | broken _ | silence => exact List.take_prefix _ _
    | pause ms =>
      rw [followFrom, followFrom]
      split
      · exact ih hrest hcancels m
      rw [Bool.false_and, if_neg Bool.false_ne_true, if_neg Bool.false_ne_true]
      split
      · exact List.take_prefix _ _
      · exact ih hrest hcancels m
    | frame f =>
      rw [followFrom_frame, followFrom_frame]
      split
      · exact ih hrest hcancels m
      split
      · exact List.take_prefix _ _
      rw [if_neg Bool.false_ne_true]
      split
      case isTrue hcancel =>
        -- The receiver of this event is the first that cancels, so that at most one event counts.
        have hk : k ≤ n + 1 := Nat.le_of_not_lt fun hlt => hcancels (n + 1) (by omega) hlt hcancel
        obtain hzero | hone : k - n = 0 ∨ k - n = 1 := by omega
        · rw [hzero, List.take_zero]
          exact List.nil_prefix
        · rw [hone]
          exact List.prefix_rfl
      case isFalse =>
        have hcancels : ∀ j, n + 1 < j → j < k → ¬ cancels j :=
          fun j hj => hcancels j (Nat.lt_of_succ_lt hj)
        obtain hzero | hsucc : k - n = 0 ∨ k - n = k - (n + 1) + 1 := by omega
        · rw [hzero, List.take_zero]
          exact List.nil_prefix
        · rw [hsucc, List.take_succ_cons]
          exact (List.prefix_cons_inj _).mpr (ih hrest hcancels (m + 1))

/-! ## Terminal events -/

/-- A terminal event of the run tells its outcome. -/
def IsTold (run : List ε × Outcome) : Prop :=
  ∀ e ∈ run.1, isTerminal e → run.2 = .ofFailure (failure? e)

theorem IsTold.nil (outcome : Outcome) : IsTold (([] : List ε), outcome) := nofun

theorem IsTold.cons {run : List ε × Outcome} (h : IsTold run) {e : ε} (he : ¬ isTerminal e) :
    IsTold (e :: run.1, run.2) :=
  List.forall_mem_cons.mpr ⟨fun hterminal => absurd hterminal he, h⟩

theorem isTold_followFrom :
    IsTold (followFrom idle cancels n gap cancelled beats : List ε × Outcome) := by
  induction beats generalizing n gap cancelled with
  | nil => exact .nil _
  | cons b beats ih =>
    cases b with
    | broken _ | silence => exact .nil _
    | cancel => exact ih
    | pause ms =>
      rw [followFrom]
      split
      · exact ih
      split
      · exact .nil _
      split
      · exact .nil _
      · exact ih
    | frame f =>
      cases cancelled with
      | true => exact .nil _
      | false =>
        rw [followFrom_frame]
        split
        · exact ih
        split
        · exact List.forall_mem_singleton.mpr fun _ => rfl
        case isFalse hterminal =>
          split
          · exact (IsTold.nil .aborted).cons hterminal
          · exact ih.cons hterminal

/-! ## Runs -/

/-- Whenever a run is cancelled, it delivers the beginning of what it would deliver otherwise, and
nothing once it is cancelled: before it begins, by a step of the source, or by the receiver of the
`k`th event. Up to there it delivers all. It is aborted, or it is the same run as if nobody had
cancelled. A run that delivers a terminal event completes or fails, even if the receiver of that
event cancels. -/
theorem follow_cancelled (idle : Nat) (cancels : Nat → Bool) (cancelled : Bool)
    (beats : List Beat) :
    let run : List ε × Outcome := follow idle cancels cancelled beats
    let whole : List ε × Outcome := follow idle (fun _ => false) false (undisturbed beats)
    run.1 <+: whole.1 ∧ (run.2 = .aborted ∨ run = whole) ∧
      (cancelled → run.1 = []) ∧
      (∀ before rest, beats = before ++ .cancel :: rest →
        run.1 = (follow idle cancels cancelled before : List ε × Outcome).1) ∧
      (∀ k, 0 < k → cancels k → run.1.length ≤ k) ∧
      (cancelled = false → .cancel ∉ beats →
        ∀ k, (∀ j, 0 < j → j < k → ¬ cancels j) → whole.1.take k <+: run.1) ∧
      ∀ e ∈ run.1, isTerminal e →
        run = whole ∧ (run.2 = .completed ∨ ∃ reason, run.2 = .failed reason) := by
  cases cancelled with
  | true =>
    have hnone : ∀ k, 0 < k → cancels k → 0 ≤ k := fun k _ _ => Nat.zero_le k
    exact ⟨List.nil_prefix, .inl rfl, fun _ => rfl, fun _ _ _ => rfl, hnone, nofun, nofun⟩
  | false =>
    intro run whole
    have hcuts : Cuts run whole := cuts_followFrom 0
    have htold : IsTold run := isTold_followFrom
    refine ⟨hcuts.isPrefix, hcuts.outcome, nofun, ?_, fun k hk hcancels => ?_, ?_, ?_⟩
    · rintro before rest rfl
      exact followFrom_append_cancel rest
    · have hlength : 0 + run.1.length ≤ k := length_followFrom_le hcancels hk
      rwa [Nat.zero_add] at hlength
    · intro _ hbeats k hcancels
      have hundisturbed : undisturbed beats = beats :=
        List.filter_eq_self.mpr fun b hb => decide_eq_true fun heq => hbeats (heq ▸ hb)
      have hwhole : whole = follow idle (fun _ => false) false beats := by
        rw [← hundisturbed]
      rw [hwhole]
      exact take_prefix_followFrom hbeats hcancels 0
    · intro e he hterminal
      have houtcome := htold e he hterminal
      have hnot : ¬ run.2.isInterrupted :=
        houtcome ▸ Outcome.not_isInterrupted_ofFailure (failure? e)
      refine ⟨hcuts.outcome.resolve_left fun haborted => hnot ?_,
        (Outcome.not_isInterrupted_iff run.2).mp hnot⟩
      rw [haborted]
      rfl

/-- The receiver of the first event cancels, and so does the source behind the second. -/
theorem follow_cancelled_twice :
    let delta : Beat := .frame ⟨"delta", "\x7b\"content\":\"a\"\x7d", none⟩
    let before : List Beat := [delta, .pause 5, delta]
    let rest : List Beat := [.pause 5, .frame ⟨"done", "", none⟩]
    let cancels : Nat → Bool := (· = 1)
    let run : List SiteEvent × Outcome := follow 20 cancels false (before ++ .cancel :: rest)
    let whole : List SiteEvent × Outcome := follow 20 (fun _ => false) false (before ++ rest)
    cancels 1 ∧ run.1.length ≤ 1 ∧ run.1 <+: whole.1 ∧ (run.2 = .aborted ∨ run = whole) ∧
      run.1 = (follow 20 cancels false before : List SiteEvent × Outcome).1 := by
  intro delta before rest cancels run whole
  obtain ⟨hbegins, houtcome, -, hsource, hreceiver, -⟩ :=
    follow_cancelled (ε := SiteEvent) 20 cancels false (before ++ .cancel :: rest)
  exact ⟨rfl, hreceiver 1 (by decide) rfl, hbegins, houtcome, hsource before rest rfl⟩

end PromptStudio.Stream
