import Mathlib.Data.Sum.Basic
import Mathlib.Logic.Relation

/-! # Loops

A loop is a body that takes a state to a result or to the next state.  `Ends` is
its meaning without a bound, `run` its execution with fuel, which has no other
result (`ends_of_run`); the rounds that are gone through are `Visits`.

A loop returns when every round it goes through lowers a measure
(`run_of_lowering`), within as many rounds as the measure says, and it does not
when it comes to a state that its body leaves as it is.
-/
namespace Loop

universe u v
variable {σ : Type u} {β : Type v} (body : σ → β ⊕ σ)

/-- From this state the loop returns this result. -/
inductive Ends : σ → β → Prop where
  | stop {s : σ} {b : β} (h : body s = .inl b) : Ends s b
  | again {s t : σ} {b : β} (h : body s = .inr t) (rest : Ends t b) : Ends s b

/-- One round after another, at most `fuel` of them. -/
def run : Nat → σ → Option β
  | 0, _ => none
  | fuel + 1, s =>
    match body s with
    | .inl b => some b
    | .inr t => run fuel t

/-- A round that goes on. -/
def Continues (s t : σ) : Prop := body s = .inr t

/-- The states that the loop goes through. -/
def Visits : σ → σ → Prop := Relation.ReflTransGen (Continues body)

variable {body} {s t : σ} {b b' : β}

theorem run_stop (h : body s = .inl b) (fuel : Nat) : run body (fuel + 1) s = some b := by
  rw [run, h]

theorem run_again (h : body s = .inr t) (fuel : Nat) :
    run body (fuel + 1) s = run body fuel t := by
  rw [run, h]

theorem ends_of_run {fuel : Nat} (h : run body fuel s = some b) : Ends body s b := by
  induction fuel generalizing s with
  | zero => cases h
  | succ fuel ih =>
    rcases hbody : body s with b' | t
    · rw [run_stop hbody] at h
      cases h
      exact .stop hbody
    · rw [run_again hbody] at h
      exact .again hbody (ih h)

theorem Ends.unique (h : Ends body s b) (h' : Ends body s b') : b = b' := by
  induction h with
  | stop h =>
    cases h' with
    | stop h' =>
      rw [h] at h'
      exact Sum.inl.inj h'
    | again h' _ =>
      rw [h] at h'
      cases h'
  | again h _ ih =>
    cases h' with
    | stop h' =>
      rw [h] at h'
      cases h'
    | again h' rest =>
      rw [h] at h'
      cases Sum.inr.inj h'
      exact ih rest

/-- A loop returns what it returns from any state it goes through. -/
theorem Visits.ends_iff (h : Visits body s t) : Ends body s b ↔ Ends body t b := by
  induction h with
  | refl => exact Iff.rfl
  | tail _ hround ih =>
    rw [ih]
    refine ⟨fun h => ?_, .again hround⟩
    cases h with
    | stop h =>
      rw [hround] at h
      cases h
    | again h rest =>
      rw [hround] at h
      cases Sum.inr.inj h
      exact rest

/-- What the loop returns is what its last round returns. -/
theorem Ends.last (h : Ends body s b) : ∃ t, Visits body s t ∧ body t = .inl b := by
  induction h with
  | stop h => exact ⟨_, .refl, h⟩
  | again h _ ih =>
    obtain ⟨t, hvisits, hlast⟩ := ih
    exact ⟨t, .head h hvisits, hlast⟩

/-- A body that is the same on the states gone through returns the same. -/
theorem Ends.congr {body' : σ → β ⊕ σ} {I : σ → Prop} (h : Ends body s b) (hstart : I s)
    (hkept : ∀ {t u : σ}, I t → Continues body t u → I u)
    (hsame : ∀ {t : σ}, I t → body t = body' t) : Ends body' s b := by
  induction h with
  | stop hbody => exact .stop ((hsame hstart).symm.trans hbody)
  | again hbody _ ih => exact .again ((hsame hstart).symm.trans hbody) (ih (hkept hstart hbody))

/-- A state that the body leaves as it is, is never left. -/
theorem not_ends_of_fixed (h : body s = .inr s) : ¬ Ends body s b := by
  intro hends
  obtain ⟨t, hvisits, hlast⟩ := hends.last
  have hself : ∀ {u : σ}, Visits body s u → u = s := by
    intro u hu
    induction hu with
    | refl => rfl
    | tail _ hround ih =>
      subst ih
      exact Sum.inr.inj (hround.symm.trans h)
  rw [hself hvisits, h] at hlast
  cases hlast

/-- **A loop whose rounds lower a measure returns**, in at most one round more than
the measure is at its start. -/
theorem run_of_lowering (μ : σ → Nat)
    (hlower : ∀ {t u : σ}, Visits body s t → Continues body t u → μ u < μ t) {fuel : Nat}
    (hfuel : μ s < fuel) : ∃ b, run body fuel s = some b := by
  induction fuel generalizing s with
  | zero => exact absurd hfuel (Nat.not_lt_zero _)
  | succ fuel ih =>
    rcases hbody : body s with b | t
    · exact ⟨b, run_stop hbody fuel⟩
    · have hround : Continues body s t := hbody
      have hless : μ t < μ s := hlower .refl hround
      obtain ⟨b, hrun⟩ := ih (s := t) (fun hvisits => hlower (.head hround hvisits)) (by omega)
      exact ⟨b, by rw [run_again hbody, hrun]⟩

/-- What holds of a state and is kept by every round that goes on holds of every
state gone through. -/
theorem Visits.invariant {I : σ → Prop} (h : Visits body s t) (hstart : I s)
    (hkept : ∀ {t u : σ}, I t → Continues body t u → I u) : I t := by
  induction h with
  | refl => exact hstart
  | tail _ hround ih => exact hkept ih hround

end Loop
