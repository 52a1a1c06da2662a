import Runtt.Interaction

/-! # What a program guarantees

A program that runs beside others can promise only what it does itself: which questions
it asks, given what it was told so far, and how it ends.  `Keeps allowed ends t p` is that
promise for the rest `p` of a program behind the exchanges `t`.  It is kept by every
exchange by definition (`Keeps.reply`), whatever happens in between, and it is computed
along the text of the program by the rules below.
-/
namespace Interaction
namespace Program

variable {Q : Type} {R : Q → Type} {α β E : Type}

/-- Behind the exchanges `t`, the program asks only what is `allowed` by then, and when it
is done `ends` holds. -/
def Keeps (allowed : List (Exchange R) → Q → Prop) (ends : List (Exchange R) → α → Prop) :
    List (Exchange R) → Program Q R α → Prop
  | t, .done a => ends t a
  | t, .ask q next => allowed t q ∧ ∀ r, Keeps allowed ends (t ++ [⟨q, r⟩]) (next r)

variable {allowed : List (Exchange R) → Q → Prop} {t : List (Exchange R)}

@[simp] theorem keeps_done {ends : List (Exchange R) → α → Prop} {a : α} :
    Keeps allowed ends t (.done a : Program Q R α) ↔ ends t a := Iff.rfl

@[simp] theorem keeps_ask {ends : List (Exchange R) → α → Prop} {q : Q}
    {next : R q → Program Q R α} :
    Keeps allowed ends t (.ask q next) ↔
      allowed t q ∧ ∀ r, Keeps allowed ends (t ++ [⟨q, r⟩]) (next r) := Iff.rfl

/-- The promise survives a reply. -/
theorem Keeps.reply {ends : List (Exchange R) → α → Prop} {q : Q} {next : R q → Program Q R α}
    (h : Keeps allowed ends t (.ask q next)) (r : R q) :
    Keeps allowed ends (t ++ [⟨q, r⟩]) (next r) := h.2 r

theorem Keeps.mono {allowed' : List (Exchange R) → Q → Prop}
    {ends ends' : List (Exchange R) → α → Prop} {p : Program Q R α}
    (h : Keeps allowed ends t p) (hallowed : ∀ t q, allowed t q → allowed' t q)
    (hends : ∀ t a, ends t a → ends' t a) : Keeps allowed' ends' t p := by
  induction p generalizing t with
  | done a => exact hends t a h
  | ask q next ih => exact ⟨hallowed t q h.1, fun r => ih r (h.2 r)⟩

/-- What every allowed exchange preserves holds throughout. -/
theorem Keeps.carry {ends : List (Exchange R) → α → Prop} {J : List (Exchange R) → Prop}
    {p : Program Q R α} (h : Keeps allowed ends t p) (hJ : J t)
    (hstep : ∀ t q r, allowed t q → J t → J (t ++ [⟨q, r⟩])) :
    Keeps (fun t q => allowed t q ∧ J t) (fun t a => ends t a ∧ J t) t p := by
  induction p generalizing t with
  | done a => exact ⟨h, hJ⟩
  | ask q next ih => exact ⟨⟨h.1, hJ⟩, fun r => ih r (h.2 r) (hstep t q r h.1 hJ)⟩

/-- A sequence keeps what its first half keeps up to a point where the second half keeps
the rest. -/
theorem keeps_bind {ends : List (Exchange R) → β → Prop} {p : Program Q R α}
    {f : α → Program Q R β} :
    Keeps allowed ends t (p >>= f) ↔ Keeps allowed (fun t a => Keeps allowed ends t (f a)) t p := by
  induction p generalizing t with
  | done a => exact Iff.rfl
  | ask q next ih =>
    rw [ask_bind, keeps_ask, keeps_ask]
    exact and_congr_right fun _ => forall_congr' fun r => ih r

/-- In a run every question was allowed when it was asked. -/
theorem Keeps.asked {ends : List (Exchange R) → α → Prop} {p : Program Q R α}
    (h : Keeps allowed ends t p) {s₁ s₂ : List (Exchange R)} {x : Exchange R} {a : α}
    (hruns : Runs p (s₁ ++ x :: s₂) a) : allowed (t ++ s₁) x.question := by
  induction p generalizing t s₁ with
  | done b =>
    obtain ⟨hnil, -⟩ := runs_done_iff.mp hruns
    exact absurd hnil (by simp)
  | ask q next ih =>
    obtain ⟨r, s, heq, hnext⟩ := runs_ask_iff.mp hruns
    cases s₁ with
    | nil =>
      cases heq
      rw [List.append_nil]
      exact h.1
    | cons y s₁ =>
      cases heq
      have hlater := ih r (h.reply r) hnext
      rw [List.append_assoc] at hlater
      exact hlater

/-! ## Programs that can fail -/

/-- One end for success and one for failure. -/
def Ends (ok : List (Exchange R) → α → Prop) (err : List (Exchange R) → E → Prop)
    (t : List (Exchange R)) : Except E α → Prop
  | .ok a => ok t a
  | .error e => err t e

/-- `Keeps` for a program that can fail. -/
def Promises (allowed : List (Exchange R) → Q → Prop) (ok : List (Exchange R) → α → Prop)
    (err : List (Exchange R) → E → Prop) (t : List (Exchange R))
    (p : ExceptT E (Program Q R) α) : Prop :=
  Keeps allowed (Ends ok err) t p.run

variable {ok : List (Exchange R) → α → Prop} {err : List (Exchange R) → E → Prop}

@[simp] theorem promises_pure {a : α} :
    Promises allowed ok err t (pure a : ExceptT E (Program Q R) α) ↔ ok t a := Iff.rfl

@[simp] theorem promises_throw {e : E} :
    Promises allowed ok err t (throw e : ExceptT E (Program Q R) α) ↔ err t e := Iff.rfl

@[simp] theorem promises_bind {ok : List (Exchange R) → β → Prop}
    {p : ExceptT E (Program Q R) α} {f : α → ExceptT E (Program Q R) β} :
    Promises allowed ok err t (p >>= f) ↔
      Promises allowed (fun t a => Promises allowed ok err t (f a)) err t p := by
  rw [Promises, ExceptT.run_bind, keeps_bind]
  constructor
  · intro h
    exact h.mono (fun _ _ => id) fun t o ho => by cases o <;> exact ho
  · intro h
    exact h.mono (fun _ _ => id) fun t o ho => by cases o <;> exact ho

/-- `p`, and if it fails what `f` makes of the failure. -/
def rescue (p : ExceptT E (Program Q R) α) (f : E → ExceptT E (Program Q R) α) :
    ExceptT E (Program Q R) α :=
  ExceptT.mk (p.run >>= fun
    | .ok a => .done (.ok a)
    | .error e => (f e).run)

@[simp] theorem promises_rescue {p : ExceptT E (Program Q R) α}
    {f : E → ExceptT E (Program Q R) α} :
    Promises allowed ok err t (rescue p f) ↔
      Promises allowed ok (fun t e => Promises allowed ok err t (f e)) t p := by
  rw [Promises, rescue, ExceptT.run_mk, keeps_bind]
  constructor
  · intro h
    exact h.mono (fun _ _ => id) fun t o ho => by cases o <;> exact ho
  · intro h
    exact h.mono (fun _ _ => id) fun t o ho => by cases o <;> exact ho

theorem Promises.mono {ok' : List (Exchange R) → α → Prop} {err' : List (Exchange R) → E → Prop}
    {p : ExceptT E (Program Q R) α} (h : Promises allowed ok err t p)
    (hok : ∀ t a, ok t a → ok' t a) (herr : ∀ t e, err t e → err' t e) :
    Promises allowed ok' err' t p :=
  Keeps.mono h (fun _ _ => id) fun t o ho => by
    cases o with
    | ok a => exact hok t a ho
    | error e => exact herr t e ho

/-- A question with no failure of its own. -/
def question (q : Q) : ExceptT E (Program Q R) (R q) := ExceptT.mk (.ask q fun r => .done (.ok r))

@[simp] theorem promises_question {q : Q} {ok : List (Exchange R) → R q → Prop} :
    Promises allowed ok err t (question q : ExceptT E (Program Q R) (R q)) ↔
      allowed t q ∧ ∀ r, ok (t ++ [⟨q, r⟩]) r := Iff.rfl

end Program
end Interaction
