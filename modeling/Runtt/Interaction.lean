import Mathlib.Logic.Basic

/-! # Programs that ask and traces that answer

A program that talks to something it does not control is a tree: it either is
done, or it asks one question and continues with whatever reply comes back.
Nothing here says what the questions are or who replies.

* `Runs p t a` — `p` can finish with `a` while the exchanges `t` take place.
  Every reply is allowed, so a fact about all runs is a fact about every
  behaviour of the other side.
* `exec h p w` — `p` against a *world*: a state `w` and a handler `h` that
  replies and moves the state.  `Along h w t w'` is what a trace does to it.

`exec_runs` ties the two together: an execution is one of the runs, so whatever
holds of every run holds of every execution.
-/
namespace Interaction

variable {Q : Type} {R : Q → Type} {α β E W : Type}

/-- A program that asks questions `q : Q`, is answered in `R q`, and ends with an
`α`. -/
inductive Program (Q : Type) (R : Q → Type) (α : Type) : Type where
  | done (a : α) : Program Q R α
  | ask (q : Q) (next : R q → Program Q R α) : Program Q R α

/-- One question with the reply it got. -/
structure Exchange (R : Q → Type) where
  question : Q
  reply : R question

namespace Program

/-- Sequential composition. -/
def bind : Program Q R α → (α → Program Q R β) → Program Q R β
  | .done a, f => f a
  | .ask q next, f => .ask q fun r => (next r).bind f

instance : Monad (Program Q R) where
  pure := .done
  bind := bind

@[simp] theorem pure_eq (a : α) : (pure a : Program Q R α) = .done a := rfl

@[simp] theorem done_bind (a : α) (f : α → Program Q R β) : (Program.done a >>= f) = f a := rfl

@[simp] theorem ask_bind (q : Q) (next : R q → Program Q R α) (f : α → Program Q R β) :
    (Program.ask q next >>= f) = .ask q fun r => next r >>= f := rfl

theorem bind_done (p : Program Q R α) : (p >>= .done) = p := by
  induction p with
  | done a => rfl
  | ask q next ih =>
    rw [ask_bind]
    exact congrArg (Program.ask q) (funext ih)

theorem bind_assoc {γ : Type} (p : Program Q R α) (f : α → Program Q R β)
    (g : β → Program Q R γ) : (p >>= f >>= g) = (p >>= fun a => f a >>= g) := by
  induction p with
  | done a => rfl
  | ask q next ih =>
    simp only [ask_bind]
    exact congrArg (Program.ask q) (funext ih)

instance : LawfulMonad (Program Q R) :=
  LawfulMonad.mk' _ (fun p => bind_done p) (fun _ _ => rfl) (fun p f g => bind_assoc p f g)

/-! ## Runs -/

/-- `p` finishes with `a` over the exchanges `t`, whatever the replies in `t`. -/
inductive Runs : Program Q R α → List (Exchange R) → α → Prop where
  | done (a : α) : Runs (.done a) [] a
  | ask {q : Q} {next : R q → Program Q R α} {r : R q} {t : List (Exchange R)} {a : α}
      (h : Runs (next r) t a) : Runs (.ask q next) (⟨q, r⟩ :: t) a

@[simp] theorem runs_done_iff {a b : α} {t : List (Exchange R)} :
    Runs (.done a : Program Q R α) t b ↔ t = [] ∧ b = a := by
  constructor
  · rintro ⟨⟩
    exact ⟨rfl, rfl⟩
  · rintro ⟨rfl, rfl⟩
    exact .done _

theorem runs_ask_iff {q : Q} {next : R q → Program Q R α} {t : List (Exchange R)} {a : α} :
    Runs (.ask q next) t a ↔ ∃ r t', t = ⟨q, r⟩ :: t' ∧ Runs (next r) t' a := by
  constructor
  · rintro ⟨⟩
    exact ⟨_, _, rfl, ‹_›⟩
  · rintro ⟨r, t', rfl, h⟩
    exact .ask h

/-- The runs of a composition are the compositions of runs. -/
theorem runs_bind_iff {p : Program Q R α} {f : α → Program Q R β} {t : List (Exchange R)}
    {b : β} :
    Runs (p >>= f) t b ↔ ∃ a t₁ t₂, t = t₁ ++ t₂ ∧ Runs p t₁ a ∧ Runs (f a) t₂ b := by
  induction p generalizing t with
  | done a =>
    constructor
    · intro h
      exact ⟨a, [], t, rfl, .done a, h⟩
    · rintro ⟨a', t₁, t₂, rfl, h₁, h₂⟩
      obtain ⟨rfl, rfl⟩ := runs_done_iff.mp h₁
      exact h₂
  | ask q next ih =>
    rw [ask_bind, runs_ask_iff]
    constructor
    · rintro ⟨r, t', rfl, h⟩
      obtain ⟨a, t₁, t₂, rfl, h₁, h₂⟩ := (ih r).mp h
      exact ⟨a, ⟨q, r⟩ :: t₁, t₂, rfl, .ask h₁, h₂⟩
    · rintro ⟨a, t₁, t₂, rfl, h₁, h₂⟩
      obtain ⟨r, t', rfl, h⟩ := runs_ask_iff.mp h₁
      exact ⟨r, t' ++ t₂, rfl, (ih r).mpr ⟨a, t', t₂, rfl, h, h₂⟩⟩

/-! ## Programs that can stop early

A program that may fail is `ExceptT E (Program Q R)`: a failure ends it, but not
the exchanges that already took place. -/

/-- `p` ends with outcome `o`, a value or a failure, over the exchanges `t`. -/
def Yields (p : ExceptT E (Program Q R) α) (t : List (Exchange R)) (o : Except E α) : Prop :=
  Runs p.run t o

@[simp] theorem yields_pure {a : α} {t : List (Exchange R)} {o : Except E α} :
    Yields (pure a : ExceptT E (Program Q R) α) t o ↔ t = [] ∧ o = .ok a := runs_done_iff

@[simp] theorem yields_throw {e : E} {t : List (Exchange R)} {o : Except E α} :
    Yields (throw e : ExceptT E (Program Q R) α) t o ↔ t = [] ∧ o = .error e := runs_done_iff

/-- **What a sequence can do**: its first half fails and the rest never runs, or
the first half succeeds and the rest decides. -/
theorem yields_bind {p : ExceptT E (Program Q R) α} {f : α → ExceptT E (Program Q R) β}
    {t : List (Exchange R)} {o : Except E β} :
    Yields (p >>= f) t o ↔
      (∃ e, o = .error e ∧ Yields p t (.error e)) ∨
      ∃ a t₁ t₂, t = t₁ ++ t₂ ∧ Yields p t₁ (.ok a) ∧ Yields (f a) t₂ o := by
  rw [Yields, ExceptT.run_bind, runs_bind_iff]
  constructor
  · rintro ⟨r, t₁, t₂, rfl, h₁, h₂⟩
    cases r with
    | error e =>
      obtain ⟨rfl, rfl⟩ := runs_done_iff.mp h₂
      exact .inl ⟨e, rfl, by rw [List.append_nil]; exact h₁⟩
    | ok a => exact .inr ⟨a, t₁, t₂, rfl, h₁, h₂⟩
  · rintro (⟨e, rfl, h⟩ | ⟨a, t₁, t₂, rfl, h₁, h₂⟩)
    · exact ⟨.error e, t, [], (List.append_nil t).symm, h, .done _⟩
    · exact ⟨.ok a, t₁, t₂, rfl, h₁, h₂⟩

/-- A sequence succeeds when both halves do. -/
theorem yields_bind_ok {p : ExceptT E (Program Q R) α} {f : α → ExceptT E (Program Q R) β}
    {t : List (Exchange R)} {b : β} :
    Yields (p >>= f) t (.ok b) ↔
      ∃ a t₁ t₂, t = t₁ ++ t₂ ∧ Yields p t₁ (.ok a) ∧ Yields (f a) t₂ (.ok b) := by
  rw [yields_bind, or_iff_right]
  rintro ⟨e, he, -⟩
  cases he

/-- A question whose reply is handed on. -/
theorem yields_ask_bind {q : Q} {f : R q → ExceptT E (Program Q R) β} {t : List (Exchange R)}
    {o : Except E β} :
    Yields (ExceptT.mk (.ask q fun r => .done (.ok r)) >>= f) t o ↔
      ∃ r t', t = ⟨q, r⟩ :: t' ∧ Yields (f r) t' o := runs_ask_iff

/-! ## Executions -/

variable (h : (q : Q) → W → R q × W)

/-- Run `p` against a world: the handler `h` replies and moves the state. -/
def exec : Program Q R α → W → α × W
  | .done a, w => (a, w)
  | .ask q next, w => exec (next (h q w).1) (h q w).2

/-- The exchanges of that execution. -/
def trace : Program Q R α → W → List (Exchange R)
  | .done _, _ => []
  | .ask q next, w => ⟨q, (h q w).1⟩ :: trace (next (h q w).1) (h q w).2

/-- The exchanges `t` are the handler's, and take the world from `w` to `w'`. -/
inductive Along : W → List (Exchange R) → W → Prop where
  | nil (w : W) : Along w [] w
  | cons {w w' w'' : W} {q : Q} {r : R q} {t : List (Exchange R)}
      (hq : h q w = (r, w')) (ht : Along w' t w'') : Along w (⟨q, r⟩ :: t) w''

variable {h}

@[simp] theorem along_nil_iff {w w' : W} : Along h w [] w' ↔ w' = w := by
  constructor
  · rintro ⟨⟩
    rfl
  · rintro rfl
    exact .nil _

theorem along_cons_iff {w w'' : W} {x : Exchange R} {t : List (Exchange R)} :
    Along h w (x :: t) w'' ↔ x.reply = (h x.question w).1 ∧ Along h (h x.question w).2 t w'' := by
  constructor
  · rintro ⟨⟩
    rename_i hq ht
    rw [hq]
    exact ⟨rfl, ht⟩
  · rintro ⟨hx, ht⟩
    exact .cons (Prod.ext hx.symm rfl) ht

theorem along_append_iff {w w'' : W} {s t : List (Exchange R)} :
    Along h w (s ++ t) w'' ↔ ∃ w', Along h w s w' ∧ Along h w' t w'' := by
  induction s generalizing w with
  | nil => simp
  | cons x s ih =>
    rw [List.cons_append, along_cons_iff, ih]
    constructor
    · rintro ⟨hx, w', hs, ht⟩
      exact ⟨w', along_cons_iff.mpr ⟨hx, hs⟩, ht⟩
    · rintro ⟨w', hxs, ht⟩
      obtain ⟨hx, hs⟩ := along_cons_iff.mp hxs
      exact ⟨hx, w', hs, ht⟩

variable (h) in
/-- `P` holds of every world the exchanges of `t` visit, the first and the last
included. -/
def Throughout (P : W → Prop) : W → List (Exchange R) → Prop
  | w, [] => P w
  | w, x :: t => P w ∧ Throughout P (h x.question w).2 t

theorem Throughout.mono {P P' : W → Prop} (hP : ∀ w, P w → P' w) {w : W} {t : List (Exchange R)}
    (ht : Throughout h P w t) : Throughout h P' w t := by
  induction t generalizing w with
  | nil => exact hP w ht
  | cons x t ih => exact ⟨hP w ht.1, ih ht.2⟩

theorem Throughout.append {P : W → Prop} {w w' : W} {s t : List (Exchange R)}
    (hw : Along h w s w') (hs : Throughout h P w s) (ht : Throughout h P w' t) :
    Throughout h P w (s ++ t) := by
  induction hw with
  | nil w => exact ht
  | cons hq _ ih =>
    refine ⟨hs.1, ?_⟩
    have := hs.2
    simp only [hq] at this ⊢
    exact ih this ht

/-- **The rule of invariants**: what every exchange of `t` preserves, given the reply
it got, holds throughout and at the end. -/
theorem Along.preserves {P : W → Prop} {w w' : W} {t : List (Exchange R)} (ht : Along h w t w')
    (hw : P w)
    (hstep : ∀ x ∈ t, ∀ v, P v → x.reply = (h x.question v).1 → P (h x.question v).2) :
    Throughout h P w t ∧ P w' := by
  induction ht with
  | nil w => exact ⟨hw, hw⟩
  | cons hq ht ih =>
    have hnext := hstep _ List.mem_cons_self _ hw (by rw [hq])
    rw [hq] at hnext
    obtain ⟨hthrough, hend⟩ := ih hnext fun x hx => hstep x (List.mem_cons_of_mem _ hx)
    refine ⟨⟨hw, ?_⟩, hend⟩
    rw [hq]
    exact hthrough

/-- **An execution is one of the runs**, and its trace takes the world to where the
execution ends. -/
theorem exec_runs (p : Program Q R α) (w : W) :
    Runs p (trace h p w) (exec h p w).1 ∧ Along h w (trace h p w) (exec h p w).2 := by
  induction p generalizing w with
  | done a => exact ⟨.done a, .nil w⟩
  | ask q next ih =>
    obtain ⟨hr, ha⟩ := ih (h q w).1 (h q w).2
    exact ⟨.ask hr, .cons rfl ha⟩

/-- The outcome of an execution, over its trace. -/
theorem exec_yields {p : ExceptT E (Program Q R) α} {w : W} {o : Except E α}
    (ho : (exec h p.run w).1 = o) : Yields p (trace h p.run w) o := by
  subst ho
  exact (exec_runs p.run w).1

@[simp] theorem exec_done (a : α) (w : W) : exec h (.done a : Program Q R α) w = (a, w) := rfl

/-- **A simulation**: a handler whose replies and moves are those of `h` under `f`, in the
states of an invariant of `h`, runs every program as `h` does. -/
theorem exec_simulates {V : Type} {h' : (q : Q) → V → R q × V} {f : V → W} {P : W → Prop}
    (hkeeps : ∀ q w, P w → P (h q w).2)
    (hsim : ∀ q v, P (f v) → (h' q v).1 = (h q (f v)).1 ∧ f (h' q v).2 = (h q (f v)).2)
    (p : Program Q R α) {v : V} (hv : P (f v)) :
    (exec h' p v).1 = (exec h p (f v)).1 ∧ f (exec h' p v).2 = (exec h p (f v)).2 := by
  induction p generalizing v with
  | done a => exact ⟨rfl, rfl⟩
  | ask q next ih =>
    obtain ⟨hreply, hmove⟩ := hsim q v hv
    have hnext : P (f (h' q v).2) := hmove ▸ hkeeps q _ hv
    rw [exec, exec, ← hmove, ← hreply]
    exact ih _ hnext

/-! ## Stretches -/

/-- How the program ended, if it has. -/
def ended : Program Q R α → Option α
  | .done a => some a
  | .ask _ _ => none

theorem ended_eq_some {p : Program Q R α} {a : α} : p.ended = some a ↔ p = .done a := by
  cases p with
  | done b => simp [ended]
  | ask q next => simp [ended]

/-- `p` is at `p'` once the exchanges `t` have taken place. -/
inductive After : Program Q R α → List (Exchange R) → Program Q R α → Prop where
  | nil (p : Program Q R α) : After p [] p
  | ask {q : Q} {next : R q → Program Q R α} {r : R q} {t : List (Exchange R)}
      {p : Program Q R α} (h : After (next r) t p) : After (.ask q next) (⟨q, r⟩ :: t) p

/-- One more exchange. -/
theorem After.snoc {p : Program Q R α} {t : List (Exchange R)} {q : Q}
    {next : R q → Program Q R α} (ht : After p t (.ask q next)) (r : R q) :
    After p (t ++ [⟨q, r⟩]) (next r) := by
  generalize hp : Program.ask q next = p' at ht
  induction ht with
  | nil p =>
    subst hp
    exact .ask (.nil _)
  | ask ht ih => exact .ask (ih hp)

/-- A stretch, and a run of what is left, are a run. -/
theorem After.runs {p p' : Program Q R α} {s t : List (Exchange R)} {a : α} (ht : After p t p')
    (hs : Runs p' s a) : Runs p (t ++ s) a := by
  induction ht with
  | nil p => exact hs
  | ask ht ih => exact .ask (ih hs)

/-- **What a stretch asks, a run asks**: some run goes on with the question it stopped at,
whatever the reply. -/
theorem After.asks {p : Program Q R α} {t : List (Exchange R)} {q : Q}
    {next : R q → Program Q R α} (ht : After p t (.ask q next))
    (h : (q : Q) → W → R q × W) (w : W) (r : R q) :
    ∃ s a, Runs p (t ++ ⟨q, r⟩ :: s) a :=
  ⟨_, _, ht.runs (.ask (exec_runs (h := h) (next r) w).1)⟩

end Program
end Interaction
