import Mathlib.Data.List.Induction

/-!
# Sequences of steps

Steps of one kind make up a run, whatever makes them. `observed` collects what is seen of the steps
of a run, in order. `FollowedBy` says of a run that nothing of one kind has happened since the last
time something of another kind did; `followedBy_concat` is what one more step does to that.
-/

namespace PromptStudio.Steps

variable {σ α β : Type} (step : σ → α → σ)

/-! ## What is observed -/

/-- What can be observed of the steps of a run, in order. -/
def observed (look : σ → α → Option β) (s : σ) : List α → List β
  | [] => []
  | x :: xs => (look s x).toList ++ observed look (step s x) xs

theorem observed_concat (look : σ → α → Option β) (s : σ) (xs : List α) (x : α) :
    observed step look s (xs ++ [x]) =
      observed step look s xs ++ (look (xs.foldl step s) x).toList := by
  induction xs generalizing s with
  | nil => simp [observed]
  | cons y xs ih =>
    rw [List.cons_append, observed, observed, ih, List.foldl_cons, List.append_assoc]

/-! ## What has happened since -/

/-- Every step that `P` holds of when it is made has been followed by one that `Q` holds of. -/
def FollowedBy (s : σ) (P Q : σ → α → Prop) (xs : List α) : Prop :=
  ∀ before x after, xs = before ++ x :: after → P (before.foldl step s) x →
    ∃ between y rest, after = between ++ y :: rest ∧
      Q ((before ++ x :: between).foldl step s) y

variable {step} {s : σ} {P Q : σ → α → Prop} {xs : List α} {x : α}

theorem followedBy_nil (s : σ) (P Q : σ → α → Prop) : FollowedBy step s P Q [] := by
  intro before x after hsplit
  cases before <;> cases hsplit

theorem followedBy_concat :
    FollowedBy step s P Q (xs ++ [x]) ↔
      ¬ P (xs.foldl step s) x ∧ (Q (xs.foldl step s) x ∨ FollowedBy step s P Q xs) := by
  constructor
  · intro h
    refine ⟨fun hp => ?_, ?_⟩
    · obtain ⟨between, y, rest, hnil, _⟩ := h xs x [] rfl hp
      cases between <;> cases hnil
    · by_cases hx : Q (xs.foldl step s) x
      · exact .inl hx
      · refine .inr fun before y after hsplit hp => ?_
        obtain ⟨between, z, rest, hafter, hz⟩ := h before y (after ++ [x]) (by simp [hsplit]) hp
        -- the step that follows is the new one, or it comes before that
        rcases List.eq_nil_or_concat rest with rfl | ⟨rest, w, rfl⟩
        · obtain ⟨rfl, hxz⟩ := List.append_inj' hafter rfl
          obtain rfl := List.singleton_inj.mp hxz
          exact absurd (hsplit ▸ hz) hx
        · have hcut : after ++ [x] = (between ++ z :: rest) ++ [w] := by simpa using hafter
          exact ⟨between, z, rest, (List.append_inj' hcut rfl).1, hz⟩
  · rintro ⟨hx, h⟩ before y after hsplit hp
    -- the step to be followed is the new one, or it comes before that
    rcases List.eq_nil_or_concat after with rfl | ⟨after, z, rfl⟩
    · obtain ⟨rfl, hxy⟩ := List.append_inj' hsplit rfl
      obtain rfl := List.singleton_inj.mp hxy
      exact absurd hp hx
    · have hcut : xs ++ [x] = (before ++ y :: after) ++ [z] := by simpa using hsplit
      obtain ⟨hxs, hxz⟩ := List.append_inj' hcut rfl
      obtain rfl := List.singleton_inj.mp hxz
      rcases h with hq | h
      · exact ⟨after, x, [], List.concat_eq_append, hxs ▸ hq⟩
      · obtain ⟨between, v, rest, rfl, hv⟩ := h before y after hxs hp
        exact ⟨between, v, rest ++ [x], by simp, hv⟩

end PromptStudio.Steps
