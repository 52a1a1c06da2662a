import Mathlib.Data.List.Induction
import Mathlib.Logic.Basic

/-! # Runs whose steps meet a guard

A transition system is a partial function from a state and a move to a state.  `Reaches`
is what its runs reach when every step meets a guard on the state before it and the move;
the guard that asks nothing leaves all runs.  Of a list of moves, `Throughout` speaks of the
states it leads through and `Along` of its steps.

Invariants go along a run by `Reaches.invariant`, which hands each step that the state
before it is reachable: an invariant can use the ones already proved.
-/
namespace Transition

universe u v
variable {σ : Type u} {μ : Type v}

/-- No condition on the steps. -/
def Any (_ : σ) (_ : μ) : Prop := True

/-- What runs from `init` reach when each of their steps meets `guard`. -/
inductive Reaches (step : σ → μ → Option σ) (guard : σ → μ → Prop) (init : σ) : σ → Prop where
  | refl : Reaches step guard init init
  | step {s s' : σ} {m : μ} (h : Reaches step guard init s) (hguard : guard s m)
      (hstep : step s m = some s') : Reaches step guard init s'

variable {step : σ → μ → Option σ} {guard guard' : σ → μ → Prop} {init s s' : σ}

/-- What holds at the start and is kept by every step holds of every state reached. -/
theorem Reaches.invariant {I : σ → Prop} (hinit : I init)
    (hkept : ∀ {s s' m}, Reaches step guard init s → I s → guard s m → step s m = some s' → I s')
    (h : Reaches step guard init s) : I s := by
  induction h with
  | refl => exact hinit
  | step h hguard hstep ih => exact hkept h ih hguard hstep

/-- A weaker guard reaches no less. -/
theorem Reaches.mono (hle : ∀ s m, guard s m → guard' s m) (h : Reaches step guard init s) :
    Reaches step guard' init s := by
  induction h with
  | refl => exact .refl
  | step h hguard hstep ih => exact .step ih (hle _ _ hguard) hstep

theorem Reaches.any (h : Reaches step guard init s) : Reaches step Any init s :=
  h.mono fun _ _ _ => trivial

instance (s : σ) (m : μ) : Decidable (Any s m) := .isTrue trivial

/-- A step where it meets the guard. -/
def guarded (step : σ → μ → Option σ) (guard : σ → μ → Prop) [∀ s m, Decidable (guard s m)]
    (s : σ) (m : μ) : Option σ :=
  if guard s m then step s m else none

/-- A list of moves, each of which is possible and meets the guard, is a run. -/
theorem Reaches.run [∀ s m, Decidable (guard s m)] {ms : List μ}
    (h : Reaches step guard init s) (hrun : ms.foldlM (guarded step guard) s = some s') :
    Reaches step guard init s' := by
  induction ms generalizing s with
  | nil =>
    cases hrun
    exact h
  | cons m ms ih =>
    rw [List.foldlM_cons] at hrun
    obtain ⟨s₁, hstep, hrun⟩ := Option.bind_eq_some_iff.mp hrun
    unfold guarded at hstep
    split at hstep
    · rename_i hguard
      exact ih (.step h hguard hstep) hrun
    · cases hstep

/-- A guard on the moves alone is met by a list of moves that all meet it. -/
theorem Reaches.run_of_forall {ms : List μ} (h : Reaches step guard init s)
    (hall : ∀ m ∈ ms, ∀ s, guard s m) (hrun : ms.foldlM step s = some s') :
    Reaches step guard init s' := by
  induction ms generalizing s with
  | nil =>
    cases hrun
    exact h
  | cons m ms ih =>
    rw [List.foldlM_cons] at hrun
    obtain ⟨s₁, hstep, hrun⟩ := Option.bind_eq_some_iff.mp hrun
    exact ih (.step h (hall m List.mem_cons_self s) hstep)
      (fun m hm => hall m (List.mem_cons_of_mem _ hm)) hrun

/-- Something holds of every state a list of moves leads through. -/
def Throughout (step : σ → μ → Option σ) (I : σ → Prop) (init : σ) (ms : List μ) : Prop :=
  ∀ pre s, pre <+: ms → pre.foldlM step init = some s → I s

/-- Every step of a list of moves meets the guard. -/
def Along (step : σ → μ → Option σ) (guard : σ → μ → Prop) (init : σ) (ms : List μ) : Prop :=
  ∀ pre m s s', pre ++ [m] <+: ms → pre.foldlM step init = some s → step s m = some s' → guard s m

theorem foldlM_append_singleton {ms : List μ} {m : μ} :
    (ms ++ [m]).foldlM step s = (ms.foldlM step s).bind fun s' => step s' m := by
  rw [List.foldlM_append]
  simp only [List.foldlM_cons, List.foldlM_nil]
  cases ms.foldlM step s with
  | none => rfl
  | some s' => exact bind_pure (step s' m)

/-- A list of moves is a run; when each of its steps meets the guard it is one that does. -/
theorem Along.reaches {ms : List μ} (h : Along step guard init ms)
    (hrun : ms.foldlM step init = some s) : Reaches step guard init s := by
  induction ms using List.reverseRecOn generalizing s with
  | nil =>
    cases hrun
    exact .refl
  | append_singleton ms m ih =>
    rw [foldlM_append_singleton] at hrun
    obtain ⟨s₁, hs₁, hstep⟩ := Option.bind_eq_some_iff.mp hrun
    refine .step (ih ?_ hs₁) (h ms m s₁ s (List.prefix_refl _) hs₁ hstep) hstep
    intro pre m' s₂ s₃ hpre
    exact h pre m' s₂ s₃ (hpre.trans (List.prefix_append ms [m]))

theorem Along.take {ms ms' : List μ} (h : Along step guard init ms) (hle : ms' <+: ms) :
    Along step guard init ms' :=
  fun pre m s s' hpre => h pre m s s' (hpre.trans hle)

end Transition
