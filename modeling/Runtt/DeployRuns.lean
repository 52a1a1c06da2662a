import Runtt.Deploy

/-! # What a deploy can do

Every behaviour of the device is allowed: a run of `Deploy.run` is any way of
answering its calls.  The lemmas below say, step by step, which calls a run makes,
in which order, and what the replies must have been for it to go on.

`Deploy.Course` collects them from the upload on: one constructor for each way
`install` can end.  `run_cases` puts the checks before the upload in front.  Every
property of a deploy is read off these two.
-/
namespace Runtt

open Interaction Program

/-- No call of `t` changes the device. -/
def Quiet (t : List Event) : Prop := ∀ x ∈ t, x.question.writes = false

@[simp] theorem quiet_nil : Quiet [] := by
  intro _ hx
  cases hx

@[simp] theorem quiet_cons {x : Event} {t : List Event} :
    Quiet (x :: t) ↔ x.question.writes = false ∧ Quiet t := List.forall_mem_cons

@[simp] theorem quiet_append {s t : List Event} : Quiet (s ++ t) ↔ Quiet s ∧ Quiet t :=
  List.forall_mem_append

/-- Every call of `t` belongs to a reconnect: none reads an image list, and none
changes the device. -/
def Polling (t : List Event) : Prop := ∀ x ∈ t, x.question.polls = true

@[simp] theorem polling_nil : Polling [] := by
  intro _ hx
  cases hx

@[simp] theorem polling_cons {x : Event} {t : List Event} :
    Polling (x :: t) ↔ x.question.polls = true ∧ Polling t := List.forall_mem_cons

@[simp] theorem polling_append {s t : List Event} : Polling (s ++ t) ↔ Polling s ∧ Polling t :=
  List.forall_mem_append

theorem Polling.quiet {t : List Event} (h : Polling t) : Quiet t := by
  intro x hx
  have := h x hx
  cases hq : x.question <;> simp_all [Call.polls, Call.writes]

/-- The describe before the upload lets the deploy go on. -/
def Identified (a : Except Error Describe) : Prop :=
  ∀ d, a = .ok d → contractMajor d.contract ≠ none ∧ d.img ≠ some false

/-- The describe after the reset lets the image be confirmed: silence, or a contract
of the runtime's own major. -/
def ContractMatches (a : Except Error Describe) : Prop :=
  ∀ d, a = .ok d → contractMajor d.contract = some CONTRACT_MAJOR

instance (a : Except Error Describe) : Decidable (Identified a) :=
  match a with
  | .error _ => .isTrue fun _ h => by cases h
  | .ok d => decidable_of_iff (contractMajor d.contract ≠ none ∧ d.img ≠ some false)
      ⟨fun h _ he => by cases he; exact h, fun h => h d rfl⟩

/-! ## The single steps -/

theorem connect_cases {t : List Event} {o : Except Failure Unit} (h : Yields connect t o) :
    (∃ e, t = [⟨.openChannel, .error e⟩] ∧ o = .error (.error e)) ∨
    (∃ p, t = [⟨.openChannel, .ok ()⟩, ⟨.params, p⟩] ∧ o = .ok ()) := by
  replace h := yields_bind.mp h
  rcases h with ⟨f, rfl, h⟩ | ⟨a, t₁, t₂, rfl, h₁, h₂⟩
  · replace h := runs_ask_iff.mp h
    obtain ⟨r, t', rfl, h⟩ := h
    obtain ⟨rfl, hr⟩ := runs_done_iff.mp h
    cases r with
    | ok u => cases hr
    | error e =>
      cases hr
      exact .inl ⟨e, rfl, rfl⟩
  · replace h₁ := runs_ask_iff.mp h₁
    obtain ⟨r, t', rfl, h₁⟩ := h₁
    obtain ⟨rfl, hr⟩ := runs_done_iff.mp h₁
    replace h₂ := runs_ask_iff.mp h₂
    obtain ⟨p, t', rfl, h₂⟩ := h₂
    obtain ⟨rfl, rfl⟩ := runs_done_iff.mp h₂
    cases r with
    | ok u => exact .inr ⟨p, rfl, rfl⟩
    | error e => cases hr

/-- A described step asks `describe` once and goes on with the `Result`. -/
theorem describe_bind {α : Type} {f : Except Failure Describe → SmpM α} {t : List Event}
    {o : Except Failure α} (h : Yields (SmpM.result ToolkitClient.describe >>= f) t o) :
    (∃ e t', t = ⟨.describe, .error e⟩ :: t' ∧
      Yields (f (.error (.error ("describe failed; does this firmware include the runtt module?"
        :: e)))) t' o) ∨
    (∃ d t', t = ⟨.describe, .ok d⟩ :: t' ∧ Yields (f (.ok d)) t' o) := by
  obtain ⟨r, t₁, t₂, rfl, h₁, h₂⟩ := SmpM.yields_result_bind.mp h
  cases r with
  | ok d =>
    obtain ⟨r, hr, rfl⟩ := SmpM.yields_request_ok.mp h₁
    cases r with
    | error e => cases hr
    | ok d' =>
      cases hr
      exact .inr ⟨d, t₂, rfl, h₂⟩
  | error f =>
    obtain ⟨r, e, hr, rfl, rfl⟩ := SmpM.yields_request_error.mp h₁
    cases r with
    | ok d' => cases hr
    | error e' =>
      cases hr
      exact .inl ⟨e, t₂, rfl, h₂⟩

/-- **`identify` is the predicate `Identified` on one describe.** -/
theorem identify_cases {t : List Event} {o : Except Failure Unit} (h : Yields identify t o) :
    ∃ a, t = [⟨.describe, a⟩] ∧
      ((o = .ok () ∧ Identified a) ∨ ∃ f, o = .error f ∧ ¬ Identified a) := by
  replace h := describe_bind h
  rcases h with ⟨e, t', rfl, h⟩ | ⟨d, t', rfl, h⟩
  · obtain ⟨rfl, rfl⟩ := yields_pure.mp h
    exact ⟨_, rfl, .inl ⟨rfl, fun _ hd => by cases hd⟩⟩
  · simp only at h
    split at h
    · rename_i hc
      obtain ⟨rfl, rfl⟩ := SmpM.yields_bail.mp h
      exact ⟨_, rfl, .inr ⟨_, rfl, fun hid => (hid d rfl).1 hc⟩⟩
    · rename_i major hc
      split at h
      · rename_i himg
        obtain ⟨rfl, rfl⟩ := SmpM.yields_bail.mp h
        exact ⟨_, rfl, .inr ⟨_, rfl, fun hid => (hid d rfl).2 himg⟩⟩
      · rename_i himg
        obtain ⟨rfl, rfl⟩ := yields_pure.mp h
        refine ⟨_, rfl, .inl ⟨rfl, ?_⟩⟩
        intro d' hd
        cases hd
        exact ⟨by simp [hc], himg⟩

/-- **`confirm_contract_matches` is the predicate `ContractMatches` on one describe.** -/
theorem confirmContractMatches_cases {t : List Event} {o : Except Failure Unit}
    (h : Yields confirmContractMatches t o) :
    ∃ a, t = [⟨.describe, a⟩] ∧
      ((o = .ok () ∧ ContractMatches a) ∨ ∃ f, o = .error f ∧ ¬ ContractMatches a) := by
  replace h := describe_bind h
  rcases h with ⟨e, t', rfl, h⟩ | ⟨d, t', rfl, h⟩
  · obtain ⟨rfl, rfl⟩ := yields_pure.mp h
    exact ⟨_, rfl, .inl ⟨rfl, fun _ hd => by cases hd⟩⟩
  · simp only at h
    split at h
    · rename_i hc
      obtain ⟨rfl, rfl⟩ := SmpM.yields_bail.mp h
      refine ⟨_, rfl, .inr ⟨_, rfl, ?_⟩⟩
      intro hm
      have := hm d rfl
      rw [hc] at this
      cases this
    · rename_i major hc
      split at h
      · rename_i hne
        obtain ⟨rfl, rfl⟩ := SmpM.yields_bail.mp h
        refine ⟨_, rfl, .inr ⟨_, rfl, ?_⟩⟩
        intro hm
        have := hm d rfl
        rw [hc] at this
        exact hne (Option.some.inj this)
      · rename_i heq
        obtain ⟨rfl, rfl⟩ := yields_pure.mp h
        refine ⟨_, rfl, .inl ⟨rfl, ?_⟩⟩
        intro d' hd
        cases hd
        rw [hc, Classical.not_not.mp heq]

theorem imageList_bind {α : Type} {f : List ImageSlot → SmpM α} {t : List Event}
    {o : Except Failure α} (h : Yields (ToolkitClient.imageList >>= f) t o) :
    (∃ e g, t = [⟨.imageList, .error e⟩] ∧ o = .error g) ∨
    (∃ slots t', t = ⟨.imageList, .ok slots⟩ :: t' ∧ Yields (f slots) t' o) := by
  replace h := yields_bind.mp h
  rcases h with ⟨g, rfl, h⟩ | ⟨slots, t₁, t₂, rfl, h₁, h₂⟩
  · obtain ⟨r, e, hr, -, rfl⟩ := SmpM.yields_request_error.mp h
    cases r with
    | ok d => cases hr
    | error e' => exact .inl ⟨e', g, rfl, rfl⟩
  · obtain ⟨r, hr, rfl⟩ := SmpM.yields_request_ok.mp h₁
    cases r with
    | error e => cases hr
    | ok slots' =>
      cases hr
      exact .inr ⟨slots, t₂, rfl, h₂⟩

/-- A call whose `Result` carries no value, with a context around it. -/
theorem request_cases {q : Call} {read : q.Reply → Except Error Unit} {msg msg' : String}
    {t : List Event} {o : Except Failure Unit}
    (h : Yields (SmpM.context msg' (SmpM.request q read msg)) t o) :
    ∃ r, t = [⟨q, r⟩] ∧ ((o = .ok () ∧ read r = .ok ()) ∨
      ∃ f e, o = .error f ∧ read r = .error e) := by
  cases o with
  | ok a =>
    obtain ⟨r, hr, rfl⟩ := SmpM.yields_request_ok.mp (SmpM.yields_context_ok.mp h)
    exact ⟨r, rfl, .inl ⟨rfl, hr⟩⟩
  | error f =>
    obtain ⟨f', -, h⟩ := SmpM.yields_context_error.mp h
    obtain ⟨r, e, hr, -, rfl⟩ := SmpM.yields_request_error.mp h
    exact ⟨r, rfl, .inr ⟨f, e, rfl, hr⟩⟩

/-! ## Reconnecting -/

/-- Something in `t` says that the device is not back: a port that does not open, an echo
without an answer, or the deadline. -/
def Lost (t : List Event) : Prop :=
  ∃ x ∈ t, x = ⟨.deadlinePassed, true⟩ ∨ (∃ e, x = ⟨.openChannel, .error e⟩) ∨
    ∃ e, x = ⟨.echo "runtt", .error e⟩

theorem Lost.append_right {s t : List Event} (h : Lost s) : Lost (s ++ t) := by
  obtain ⟨x, hx, hlost⟩ := h
  exact ⟨x, List.mem_append_left t hx, hlost⟩

theorem Lost.cons {x : Event} {t : List Event} (h : Lost t) : Lost (x :: t) := by
  obtain ⟨y, hy, hlost⟩ := h
  exact ⟨y, List.mem_cons_of_mem x hy, hlost⟩

theorem reconnectPoll_cases {t : List Event} {o : Except Failure Unit}
    (h : Yields reconnectPoll t o) :
    (∃ f, o = .error f ∧ Polling t ∧ Lost t) ∨
    (∃ p s, o = .ok () ∧
      t = [⟨.openChannel, .ok ()⟩, ⟨.params, p⟩, ⟨.echo "runtt", .ok s⟩]) := by
  replace h := yields_bind.mp h
  rcases h with ⟨f, rfl, h⟩ | ⟨a, t₁, t₂, rfl, h₁, h₂⟩
  · rcases connect_cases h with ⟨e, rfl, -⟩ | ⟨p, -, ho⟩
    · exact .inl ⟨f, rfl, by simp [Call.polls], ⟨_, List.mem_cons_self, .inr (.inl ⟨e, rfl⟩)⟩⟩
    · cases ho
  · rcases connect_cases h₁ with ⟨e, -, ho⟩ | ⟨p, rfl, -⟩
    · cases ho
    · cases o with
      | ok b =>
        replace h₂ := yields_bind.mp (SmpM.yields_holdingClient_ok.mp h₂)
        rcases h₂ with ⟨f, hf, -⟩ | ⟨s, t₃, t₄, rfl, h₃, h₄⟩
        · cases hf
        · obtain ⟨rfl, -⟩ := yields_pure.mp h₄
          obtain ⟨r, hr, rfl⟩ := SmpM.yields_request_ok.mp h₃
          cases r with
          | error e => cases hr
          | ok s' => exact .inr ⟨p, s', rfl, rfl⟩
      | error f =>
        replace h₂ := SmpM.yields_holdingClient_error.mp h₂
        obtain ⟨t', rfl, h₂⟩ := h₂
        replace h₂ := yields_bind.mp h₂
        rcases h₂ with ⟨f', -, h₂⟩ | ⟨s, t₃, t₄, rfl, h₃, h₄⟩
        · obtain ⟨r, e, hr, -, rfl⟩ := SmpM.yields_request_error.mp h₂
          cases r with
          | ok s => cases hr
          | error e' =>
            exact .inl ⟨f, rfl, by simp [Call.polls],
              ⟨⟨.echo "runtt", .error e'⟩, by simp, .inr (.inr ⟨e', rfl⟩)⟩⟩
        · obtain ⟨-, ho⟩ := yields_pure.mp h₄
          cases ho

theorem timedOut_cases {lastErr : Option Failure} {t : List Event} {o : Except Failure Unit}
    (h : Yields (timedOut lastErr) t o) : t = [] ∧ ∃ f, o = .error f := by
  cases lastErr with
  | none =>
    obtain ⟨rfl, rfl⟩ := SmpM.yields_bail.mp h
    exact ⟨rfl, _, rfl⟩
  | some e =>
    obtain ⟨rfl, rfl⟩ := yields_throw.mp h
    exact ⟨rfl, _, rfl⟩

/-- **One round of `reconnect`**: the deadline has passed, or a poll succeeds or fails. -/
theorem reconnectLoop_round {polls : Nat} {lastErr : Option Failure} {t : List Event}
    {o : Except Failure Unit} (h : Yields (reconnectLoop (polls + 1) lastErr) t o) :
    (t = [⟨.deadlinePassed, true⟩] ∧ ∃ f, o = .error f) ∨
    (∃ t₁, t = ⟨.deadlinePassed, false⟩ :: t₁ ∧ Yields reconnectPoll t₁ (.ok ()) ∧ o = .ok ()) ∨
    ∃ f t₁ t₂, t = ⟨.deadlinePassed, false⟩ :: (t₁ ++ t₂) ∧ Yields reconnectPoll t₁ (.error f) ∧
      Yields (reconnectLoop polls (some f)) t₂ o := by
  obtain ⟨passed, t', rfl, hround⟩ := yields_ask_bind.mp h
  cases passed with
  | true =>
    obtain ⟨rfl, f, rfl⟩ := timedOut_cases hround
    exact .inl ⟨rfl, f, rfl⟩
  | false =>
    obtain ⟨r, t₁, t₂, rfl, h₁, h₂⟩ := SmpM.yields_result_bind.mp hround
    cases r with
    | ok u =>
      obtain ⟨rfl, rfl⟩ := yields_pure.mp h₂
      exact .inr (.inl ⟨t₁, by rw [List.append_nil], h₁, rfl⟩)
    | error f => exact .inr (.inr ⟨f, t₁, t₂, rfl, h₁, h₂⟩)

/-- The exchanges with which a successful reconnect ends: a connect, and an answered
echo on the new client. -/
def Reconnected (t : List Event) : Prop :=
  ∃ pre p s, t = pre ++ [⟨.openChannel, .ok ()⟩, ⟨.params, p⟩, ⟨.echo "runtt", .ok s⟩]

/-- **However many polls it takes, reconnecting writes nothing to the device**; when it
succeeds the last client it opened has answered an echo, and when it fails something
said so. -/
theorem reconnectLoop_cases {polls : Nat} {lastErr : Option Failure} {t : List Event}
    {o : Except Failure Unit} (h : Yields (reconnectLoop polls lastErr) t o) :
    Polling t ∧ ((o = .ok () ∧ Reconnected t) ∨ ∃ f, o = .error f ∧ (0 < polls → Lost t)) := by
  induction polls generalizing lastErr t with
  | zero =>
    obtain ⟨rfl, f, rfl⟩ := timedOut_cases h
    exact ⟨polling_nil, .inr ⟨f, rfl, fun hp => absurd hp (Nat.lt_irrefl 0)⟩⟩
  | succ polls ih =>
    rcases reconnectLoop_round h with
      ⟨rfl, f, rfl⟩ | ⟨t₁, rfl, hpoll, rfl⟩ | ⟨f, t₁, t₂, rfl, hpoll, hrest⟩
    · exact ⟨by simp [Call.polls], .inr ⟨f, rfl, fun _ => ⟨_, List.mem_cons_self, .inl rfl⟩⟩⟩
    · rcases reconnectPoll_cases hpoll with ⟨f, ho, -⟩ | ⟨p, s, -, rfl⟩
      · cases ho
      · exact ⟨by simp [Call.polls], .inl ⟨rfl, [⟨.deadlinePassed, false⟩], p, s, rfl⟩⟩
    · rcases reconnectPoll_cases hpoll with ⟨f', -, hq, hlost⟩ | ⟨p, s, ho, -⟩
      · -- a failed poll: the loop goes on
        obtain ⟨hq', ⟨rfl, pre, p, s, rfl⟩ | ⟨f'', rfl, -⟩⟩ := ih hrest
        · exact ⟨by simp_all [Call.polls],
            .inl ⟨rfl, ⟨.deadlinePassed, false⟩ :: t₁ ++ pre, p, s, by simp⟩⟩
        · exact ⟨by simp_all [Call.polls], .inr ⟨f'', rfl, fun _ => hlost.append_right.cons⟩⟩
      · cases ho

theorem awaitReturn_cases {t : List Event} {o : Except Failure Unit}
    (h : Yields Deploy.awaitReturn t o) :
    Polling t ∧ ((o = .ok () ∧ Reconnected t) ∨ ∃ f, o = .error f ∧ Lost t) := by
  cases o with
  | ok a =>
    obtain ⟨hq, ⟨-, hback⟩ | ⟨f, ho, -⟩⟩ := reconnectLoop_cases (SmpM.yields_context_ok.mp h)
    · exact ⟨hq, .inl ⟨rfl, hback⟩⟩
    · cases ho
  | error f =>
    obtain ⟨f', -, h⟩ := SmpM.yields_context_error.mp h
    obtain ⟨hq, ⟨ho, -⟩ | ⟨f'', -, hlost⟩⟩ := reconnectLoop_cases h
    · cases ho
    · exact ⟨hq, .inr ⟨f, rfl, hlost (by decide)⟩⟩

/-! ## The stretches of `run` -/

namespace Deploy

/-- The first active slot runs `digest`, confirmed. -/
def AlreadyRuns (digest : Bytes) (slots : List ImageSlot) : Prop :=
  ∃ active, activeSlot slots = some active ∧ active.hash = some digest ∧ active.confirmed = true

/-- Some slot holds `digest` and is not bootable. -/
def Rejected (digest : Bytes) (slots : List ImageSlot) : Prop :=
  ∃ s ∈ slots, s.hash = some digest ∧ s.bootable = false

theorem any_active_iff {digest : Bytes} {slots : List ImageSlot} :
    (activeSlot slots).any (fun active => active.hash == some digest && active.confirmed) = true ↔
      AlreadyRuns digest slots := by
  unfold AlreadyRuns
  cases activeSlot slots <;> simp

theorem any_rejected_iff {digest : Bytes} {slots : List ImageSlot} :
    slots.any (fun s => s.hash == some digest && !s.bootable) = true ↔
      Rejected digest slots := by
  simp [Rejected]

/-- **Everything the checks before the upload can do.** -/
theorem vet_cases {d : Deploy} {digest : Bytes} {t : List Event} {o : Except Failure Vetted}
    (h : Yields (d.vet digest) t o) :
    (∃ f, o = .error f ∧ ((∃ e, t = [⟨.echo "runtt", .error e⟩]) ∨
      (∃ s a, t = [⟨.echo "runtt", .ok s⟩, ⟨.describe, a⟩] ∧ ¬ Identified a) ∨
      (∃ s a e, t = [⟨.echo "runtt", .ok s⟩, ⟨.describe, a⟩, ⟨.imageList, .error e⟩]) ∨
      ∃ s a slots, t = [⟨.echo "runtt", .ok s⟩, ⟨.describe, a⟩, ⟨.imageList, .ok slots⟩] ∧
        Rejected digest slots)) ∨
    (∃ s a slots, t = [⟨.echo "runtt", .ok s⟩, ⟨.describe, a⟩, ⟨.imageList, .ok slots⟩] ∧
      Identified a ∧
      ((o = .ok .nothingToDo ∧ d.skipIfSame = true ∧ AlreadyRuns digest slots) ∨
       (o = .ok .proceed ∧ ¬ (d.skipIfSame = true ∧ AlreadyRuns digest slots) ∧
        ¬ Rejected digest slots))) := by
  replace h := yields_bind.mp h
  rcases h with ⟨f, rfl, h⟩ | ⟨s, t₁, t₂, rfl, h₁, h⟩
  · obtain ⟨f', -, h⟩ := SmpM.yields_context_error.mp h
    obtain ⟨r, e, hr, -, rfl⟩ := SmpM.yields_request_error.mp h
    cases r with
    | ok s => cases hr
    | error e' => exact .inl ⟨f, rfl, .inl ⟨e', rfl⟩⟩
  obtain ⟨r, hr, rfl⟩ := SmpM.yields_request_ok.mp (SmpM.yields_context_ok.mp h₁)
  cases r with
  | error e => cases hr
  | ok s' =>
  replace h := yields_bind.mp h
  rcases h with ⟨f, rfl, h⟩ | ⟨u, t₃, t₄, rfl, h₃, h⟩
  · obtain ⟨a, rfl, ⟨ho, -⟩ | ⟨f', -, hid⟩⟩ := identify_cases h
    · cases ho
    · exact .inl ⟨f, rfl, .inr (.inl ⟨s', a, rfl, hid⟩)⟩
  obtain ⟨a, rfl, ⟨-, hid⟩ | ⟨f', ho, -⟩⟩ := identify_cases h₃
  swap
  · cases ho
  replace h := imageList_bind h
  rcases h with ⟨e, g, rfl, rfl⟩ | ⟨slots, t', rfl, h⟩
  · exact .inl ⟨g, rfl, .inr (.inr (.inl ⟨s', a, e, rfl⟩))⟩
  split at h
  · rename_i hskip
    obtain ⟨rfl, rfl⟩ := yields_pure.mp h
    rw [Bool.and_eq_true, any_active_iff] at hskip
    exact .inr ⟨s', a, slots, rfl, hid, .inl ⟨rfl, hskip⟩⟩
  · rename_i hskip
    rw [Bool.and_eq_true, any_active_iff] at hskip
    split at h
    · rename_i hrej
      obtain ⟨rfl, rfl⟩ := SmpM.yields_bail.mp h
      exact .inl ⟨_, rfl, .inr (.inr (.inr ⟨s', a, slots, rfl, any_rejected_iff.mp hrej⟩))⟩
    · rename_i hrej
      obtain ⟨rfl, rfl⟩ := yields_pure.mp h
      rw [any_rejected_iff] at hrej
      exact .inr ⟨s', a, slots, rfl, hid, .inr ⟨rfl, hskip, hrej⟩⟩

/-- After the upload there is no list, or none with the digest. -/
def Unlisted (digest : Bytes) (t : List Event) : Prop :=
  (∃ e, t = [⟨.imageList, .error e⟩]) ∨
  ∃ slots, t = [⟨.imageList, .ok slots⟩] ∧ slotHolding digest slots = none

theorem Unlisted.quiet {digest : Bytes} {t : List Event} (h : Unlisted digest t) : Quiet t := by
  rcases h with ⟨e, rfl⟩ | ⟨slots, rfl, -⟩ <;> simp [Call.writes]

/-- The ways the confirm gate refuses. -/
inductive Unproven (digest : Bytes) : List Event → Prop where
  | listFailed {e : Error} : Unproven digest [⟨.imageList, .error e⟩]
  | notRunning {slots : List ImageSlot}
      (h : ∀ active, activeSlot slots = some active → active.hash ≠ some digest) :
      Unproven digest [⟨.imageList, .ok slots⟩]
  | contract {slots : List ImageSlot} {a : Except Error Describe} (h : ¬ ContractMatches a) :
      Unproven digest [⟨.imageList, .ok slots⟩, ⟨.describe, a⟩]

theorem Unproven.quiet {digest : Bytes} {t : List Event} (h : Unproven digest t) : Quiet t := by
  cases h <;> simp [Call.writes]

/-- **Everything the upload and the test mark can do.** -/
theorem stage_cases {image digest : Bytes} {t : List Event} {o : Except Failure Staged}
    (h : Yields (stage image digest) t o) :
    (∃ f e, o = .error f ∧ t = [⟨.flash image, .error e⟩]) ∨
    (∃ f q, o = .error f ∧ t = ⟨.flash image, .ok ()⟩ :: q ∧ Unlisted digest q) ∨
    (∃ slots landed, t = [⟨.flash image, .ok ()⟩, ⟨.imageList, .ok slots⟩] ∧
      slotHolding digest slots = some landed ∧ landed.active = true ∧ landed.confirmed = true ∧
      o = .ok .writtenDirectly) ∨
    (∃ slots landed r, t = [⟨.flash image, .ok ()⟩, ⟨.imageList, .ok slots⟩,
        ⟨.setState digest false, r⟩] ∧
      slotHolding digest slots = some landed ∧
      ¬ (landed.active = true ∧ landed.confirmed = true) ∧
      ((o = .ok .markedTest ∧ r = .ok ()) ∨ ∃ f e, o = .error f ∧ r = .error e)) := by
  replace h := yields_bind.mp h
  rcases h with ⟨f, rfl, h⟩ | ⟨u, t₁, t₂, rfl, h₁, h⟩
  · obtain ⟨r, rfl, ⟨ho, -⟩ | ⟨f', e, ho, hr⟩⟩ := request_cases h
    · cases ho
    · cases hr
      exact .inl ⟨f, e, rfl, rfl⟩
  obtain ⟨r, rfl, ⟨-, hr⟩ | ⟨f', e, ho, -⟩⟩ := request_cases h₁
  swap
  · cases ho
  cases hr
  replace h := imageList_bind h
  rcases h with ⟨e, g, rfl, rfl⟩ | ⟨slots, t', rfl, h⟩
  · exact .inr (.inl ⟨g, _, rfl, rfl, .inl ⟨e, rfl⟩⟩)
  split at h
  · rename_i hl
    obtain ⟨rfl, rfl⟩ := SmpM.yields_bail.mp h
    exact .inr (.inl ⟨_, _, rfl, rfl, .inr ⟨slots, rfl, hl⟩⟩)
  · rename_i landed hl
    split at h
    · rename_i hboth
      obtain ⟨rfl, rfl⟩ := yields_pure.mp h
      obtain ⟨ha, hc⟩ := Bool.and_eq_true_iff.mp hboth
      exact .inr (.inr (.inl ⟨slots, landed, rfl, hl, ha, hc, rfl⟩))
    · rename_i hboth
      rw [Bool.and_eq_true] at hboth
      replace h := yields_bind.mp h
      rcases h with ⟨f, rfl, h⟩ | ⟨u', t₃, t₄, rfl, h₃, h₄⟩
      · obtain ⟨r, rfl, ⟨ho, -⟩ | ⟨f', e, -, hr⟩⟩ := request_cases h
        · cases ho
        · exact .inr (.inr (.inr ⟨slots, landed, r, rfl, hl, hboth, .inr ⟨f, e, rfl, hr⟩⟩))
      · obtain ⟨rfl, rfl⟩ := yields_pure.mp h₄
        obtain ⟨r, rfl, ⟨-, hr⟩ | ⟨f', e, ho, -⟩⟩ := request_cases h₃
        · exact .inr (.inr (.inr ⟨slots, landed, r, rfl, hl, hboth, .inl ⟨rfl, hr⟩⟩))
        · cases ho

/-- **Everything the confirm gate can do**: stop without a write, or confirm. -/
theorem confirm_cases {digest : Bytes} {t : List Event} {o : Except Failure Unit}
    (h : Yields (confirm digest) t o) :
    (∃ f, o = .error f ∧ Unproven digest t) ∨
    (∃ slots active a r, t = [⟨.imageList, .ok slots⟩, ⟨.describe, a⟩,
        ⟨.setState digest true, r⟩] ∧
      activeSlot slots = some active ∧ active.hash = some digest ∧ ContractMatches a ∧
      ((o = .ok () ∧ r = .ok ()) ∨ ∃ f e, o = .error f ∧ r = .error e)) := by
  replace h := imageList_bind h
  rcases h with ⟨e, g, rfl, rfl⟩ | ⟨slots, t', rfl, h⟩
  · exact .inl ⟨g, rfl, .listFailed⟩
  split at h
  · rename_i hnone
    have hno : ∀ active, activeSlot slots = some active → active.hash ≠ some digest := by
      intro active ha
      rw [hnone] at ha
      cases ha
    split at h <;>
      (obtain ⟨rfl, rfl⟩ := SmpM.yields_bail.mp h
       exact .inl ⟨_, rfl, .notRunning hno⟩)
  · rename_i active ha
    split at h
    · rename_i hash
      obtain ⟨rfl, rfl⟩ := SmpM.yields_bail.mp h
      refine .inl ⟨_, rfl, .notRunning ?_⟩
      intro active' ha'
      rw [ha] at ha'
      cases ha'
      exact hash
    · rename_i hash
      replace h := yields_bind.mp h
      rcases h with ⟨f, rfl, h⟩ | ⟨u, t₁, t₂, rfl, h₁, h₂⟩
      · obtain ⟨a, rfl, ⟨ho, -⟩ | ⟨f', -, hm⟩⟩ := confirmContractMatches_cases h
        · cases ho
        · exact .inl ⟨f, rfl, .contract hm⟩
      · obtain ⟨a, rfl, ⟨-, hm⟩ | ⟨f, ho, -⟩⟩ := confirmContractMatches_cases h₁
        · obtain ⟨r, rfl, hr⟩ := request_cases h₂
          exact .inr ⟨slots, active, a, r, rfl, ha, Classical.not_not.mp hash, hm, hr⟩
        · cases ho

/-- **The ways the installation of `image` can go**, from the upload to the end. -/
inductive Course (image digest : Bytes) : List Event → Except Failure Unit → Prop where
  | uploadFailed {f : Failure} {e : Error} :
      Course image digest [⟨.flash image, .error e⟩, ⟨.drop, ()⟩] (.error f)
  | notLanded {f : Failure} {q : List Event} (hq : Unlisted digest q) :
      Course image digest (⟨.flash image, .ok ()⟩ :: (q ++ [⟨.drop, ()⟩])) (.error f)
  | writtenDirectly {slots : List ImageSlot} {landed : ImageSlot} {r : Except Error Unit}
      {q : List Event} {o : Except Failure Unit}
      (hlanded : slotHolding digest slots = some landed) (hactive : landed.active = true)
      (hconfirmed : landed.confirmed = true) (hq : Polling q) :
      Course image digest (⟨.flash image, .ok ()⟩ :: ⟨.imageList, .ok slots⟩ ::
        ⟨.reset, r⟩ :: q) o
  | markRefused {slots : List ImageSlot} {f : Failure} {e : Error} :
      Course image digest [⟨.flash image, .ok ()⟩, ⟨.imageList, .ok slots⟩,
        ⟨.setState digest false, .error e⟩, ⟨.drop, ()⟩] (.error f)
  | resetRefused {slots : List ImageSlot} {f : Failure} {e : Error} :
      Course image digest [⟨.flash image, .ok ()⟩, ⟨.imageList, .ok slots⟩,
        ⟨.setState digest false, .ok ()⟩, ⟨.reset, .error e⟩, ⟨.drop, ()⟩] (.error f)
  | notBack {slots : List ImageSlot} {f : Failure} {q : List Event}
      (hq : Polling q) (hlost : Lost q) :
      Course image digest (⟨.flash image, .ok ()⟩ :: ⟨.imageList, .ok slots⟩ ::
        ⟨.setState digest false, .ok ()⟩ :: ⟨.reset, .ok ()⟩ :: ⟨.drop, ()⟩ :: q) (.error f)
  | notConfirmed {slots : List ImageSlot} {f : Failure} {q q' : List Event}
      (hq : Polling q) (hno : Unproven digest q') :
      Course image digest (⟨.flash image, .ok ()⟩ :: ⟨.imageList, .ok slots⟩ ::
        ⟨.setState digest false, .ok ()⟩ :: ⟨.reset, .ok ()⟩ :: ⟨.drop, ()⟩ ::
        (q ++ (q' ++ [⟨.drop, ()⟩]))) (.error f)
  | confirmSent {slots slots' : List ImageSlot} {landed active : ImageSlot}
      {q : List Event} {a : Except Error Describe} {r : Except Error Unit}
      {tail : List Event} {o : Except Failure Unit}
      (hlanded : slotHolding digest slots = some landed)
      (hdirect : ¬ (landed.active = true ∧ landed.confirmed = true))
      (hq : Polling q) (hback : Reconnected q)
      (hactive : activeSlot slots' = some active) (hash : active.hash = some digest)
      (hcontract : ContractMatches a)
      (ho : (o = .ok () ∧ r = .ok () ∧ tail = []) ∨
        ∃ f e, o = .error f ∧ r = .error e ∧ tail = [⟨.drop, ()⟩]) :
      Course image digest (⟨.flash image, .ok ()⟩ :: ⟨.imageList, .ok slots⟩ ::
        ⟨.setState digest false, .ok ()⟩ :: ⟨.reset, .ok ()⟩ :: ⟨.drop, ()⟩ :: (q ++
          ⟨.imageList, .ok slots'⟩ :: ⟨.describe, a⟩ :: ⟨.setState digest true, r⟩ :: tail)) o

/-- What an installation writes: its image, marks on its digest, and resets. -/
theorem Course.writes_cases {image digest : Bytes} {t : List Event} {o : Except Failure Unit}
    (h : Course image digest t o) :
    ∀ x ∈ t, x.question.writes = false ∨ x.question = .flash image ∨
      (∃ confirm, x.question = .setState digest confirm) ∨ x.question = .reset := by
  have hquiet {q : List Event} (hq : Quiet q) : ∀ x ∈ q, x.question.writes = false ∨
      x.question = .flash image ∨ (∃ confirm, x.question = .setState digest confirm) ∨
      x.question = .reset := fun x hx => .inl (hq x hx)
  cases h with
  | notLanded hq => simpa [Call.writes, or_imp, forall_and] using hquiet hq.quiet
  | writtenDirectly _ _ _ hq => simpa [Call.writes] using hquiet hq.quiet
  | notBack hq _ => simpa [Call.writes] using hquiet hq.quiet
  | notConfirmed hq hno =>
    simpa [Call.writes, or_imp, forall_and] using
      And.intro (hquiet hq.quiet) (hquiet hno.quiet)
  | confirmSent _ _ hq _ _ _ _ ho =>
    rcases ho with ⟨-, -, rfl⟩ | ⟨f, e, -, -, rfl⟩
    all_goals
      have := hquiet hq.quiet
      simp only [List.forall_mem_cons, List.forall_mem_append, Call.writes]
      exact ⟨by simp, by simp, by simp, by simp, by simp, this, by simp⟩
  | _ => simp [Call.writes]

/-- The direct-write path: a reset, then nothing but the calls of a reconnect. -/
theorem direct_cases {t : List Event} {o : Except Failure Unit}
    (h : Yields (SmpM.thenDrop (do
      resetDevice
      awaitReturn)) t o) :
    ∃ r q, t = ⟨.reset, r⟩ :: q ∧ Polling q := by
  replace h := SmpM.yields_thenDrop.mp h
  obtain ⟨t', rfl, h⟩ := h
  replace h := yields_bind.mp h
  rcases h with ⟨f, -, h⟩ | ⟨u, t₁, t₂, rfl, h₁, h₂⟩
  · obtain ⟨r, rfl, -⟩ := request_cases h
    exact ⟨r, _, rfl, by simp [Call.polls]⟩
  · obtain ⟨r, rfl, -⟩ := request_cases h₁
    refine ⟨r, _, rfl, ?_⟩
    simp [Call.polls, (awaitReturn_cases h₂).1]

section marked
variable {image digest : Bytes} {slots : List ImageSlot} {landed : ImageSlot} {t : List Event}
  {o : Except Failure Unit}

/-- The courses of an image that was marked, from its confirm on. -/
theorem confirm_course (hl : slotHolding digest slots = some landed)
    (hd : ¬ (landed.active = true ∧ landed.confirmed = true)) {q : List Event} (hq : Polling q)
    (hback : Reconnected q) (h : Yields (SmpM.holdingClient (confirm digest)) t o) :
    Course image digest (⟨.flash image, .ok ()⟩ :: ⟨.imageList, .ok slots⟩ ::
      ⟨.setState digest false, .ok ()⟩ :: ⟨.reset, .ok ()⟩ :: ⟨.drop, ()⟩ :: (q ++ t)) o := by
  cases o with
  | ok a =>
    rcases confirm_cases (SmpM.yields_holdingClient_ok.mp h) with
      ⟨f, ho, -⟩ | ⟨slots', active, b, r, rfl, ha, hash, hm, ⟨-, hr⟩ | ⟨f, e, ho, -⟩⟩
    · cases ho
    · exact .confirmSent hl hd hq hback ha hash hm (.inl ⟨rfl, hr, rfl⟩)
    · cases ho
  | error f =>
    obtain ⟨t', rfl, hfail⟩ := SmpM.yields_holdingClient_error.mp h
    rcases confirm_cases hfail with
      ⟨f', -, hno⟩ | ⟨slots', active, b, r, rfl, ha, hash, hm, ⟨ho, -⟩ | ⟨f', e, -, hr⟩⟩
    · exact .notConfirmed hq hno
    · cases ho
    · exact .confirmSent hl hd hq hback ha hash hm (.inr ⟨f, e, rfl, hr, rfl⟩)

/-- The courses of an image that was marked, from the reset on. -/
theorem marked_course (hl : slotHolding digest slots = some landed)
    (hd : ¬ (landed.active = true ∧ landed.confirmed = true))
    (h : Yields (do
      SmpM.holdingClient resetDevice
      ExceptT.mk (.ask .drop fun _ => .done (.ok ()))
      awaitReturn
      SmpM.holdingClient (confirm digest)) t o) :
    Course image digest (⟨.flash image, .ok ()⟩ :: ⟨.imageList, .ok slots⟩ ::
      ⟨.setState digest false, .ok ()⟩ :: t) o := by
  rcases yields_bind.mp h with ⟨f, rfl, hfail⟩ | ⟨u, t₁, t₂, rfl, hreset, hlater⟩
  · obtain ⟨t', rfl, hrequest⟩ := SmpM.yields_holdingClient_error.mp hfail
    obtain ⟨r, rfl, ⟨ho, -⟩ | ⟨f', e, -, hr⟩⟩ := request_cases hrequest
    · cases ho
    · cases hr
      exact .resetRefused
  · obtain ⟨r, rfl, ⟨-, hr⟩ | ⟨f', e, ho, -⟩⟩ :=
      request_cases (SmpM.yields_holdingClient_ok.mp hreset)
    · cases hr
      -- the first client is dropped here
      obtain ⟨-, t₃, rfl, hdropped⟩ := yields_ask_bind.mp hlater
      rcases yields_bind.mp hdropped with ⟨f, rfl, hlost⟩ | ⟨u', t₄, t₅, rfl, hreturn, hconfirm⟩
      · obtain ⟨hq, ⟨ho, -⟩ | ⟨f', -, hlost⟩⟩ := awaitReturn_cases hlost
        · cases ho
        · exact .notBack hq hlost
      · obtain ⟨hq, ⟨-, hback⟩ | ⟨f', ho, -⟩⟩ := awaitReturn_cases hreturn
        · exact confirm_course hl hd hq hback hconfirm
        · cases ho
    · cases ho

end marked

/-- **Every installation takes one of the courses.** -/
theorem install_course {image digest : Bytes} {t : List Event} {o : Except Failure Unit}
    (h : Yields (install image digest) t o) : Course image digest t o := by
  rcases yields_bind.mp h with ⟨f, rfl, hfail⟩ | ⟨staged, t₁, t₂, rfl, hstage, hlater⟩
  · obtain ⟨t', rfl, hstage⟩ := SmpM.yields_holdingClient_error.mp hfail
    rcases stage_cases hstage with
      ⟨f', e, -, rfl⟩ | ⟨f', q, -, rfl, hq⟩ | ⟨slots, landed, -, -, -, -, ho⟩ |
      ⟨slots, landed, r, rfl, -, -, ⟨ho, -⟩ | ⟨f', e, -, rfl⟩⟩
    · exact .uploadFailed
    · exact .notLanded hq
    · cases ho
    · cases ho
    · exact .markRefused
  · rcases stage_cases (SmpM.yields_holdingClient_ok.mp hstage) with
      ⟨f', e, ho, -⟩ | ⟨f', q, ho, -⟩ | ⟨slots, landed, rfl, hl, ha, hc, ho⟩ |
      ⟨slots, landed, r, rfl, hl, hd, ⟨ho, rfl⟩ | ⟨f', e, ho, -⟩⟩
    · cases ho
    · cases ho
    · cases ho
      obtain ⟨r, q, rfl, hq⟩ := direct_cases hlater
      exact .writtenDirectly hl ha hc hq
    · cases ho
      exact marked_course hl hd hlater
    · cases ho

/-- The exchanges of a deploy up to the image list before the upload. -/
def vetting (p : Except Error Unit) (s : String) (a : Except Error Describe)
    (slots : List ImageSlot) : List Event :=
  [⟨.openChannel, .ok ()⟩, ⟨.params, p⟩, ⟨.echo "runtt", .ok s⟩, ⟨.describe, a⟩,
    ⟨.imageList, .ok slots⟩]

theorem quiet_vetting {p : Except Error Unit} {s : String} {a : Except Error Describe}
    {slots : List ImageSlot} : Quiet (vetting p s a slots) := by
  simp [vetting, Call.writes]

/-- **The ways a deploy stops before its first write.** -/
inductive Refusal (d : Deploy) : List Event → Prop where
  | unreadable (h : ∀ image digest, d.firmware = .ok image → ¬ Mcuboot.Accepts image digest) :
      Refusal d []
  | noConnection {e : Error} : Refusal d [⟨.openChannel, .error e⟩]
  | noEcho {p : Except Error Unit} {e : Error} :
      Refusal d [⟨.openChannel, .ok ()⟩, ⟨.params, p⟩, ⟨.echo "runtt", .error e⟩, ⟨.drop, ()⟩]
  | unidentified {p : Except Error Unit} {s : String} {a : Except Error Describe}
      (h : ¬ Identified a) :
      Refusal d [⟨.openChannel, .ok ()⟩, ⟨.params, p⟩, ⟨.echo "runtt", .ok s⟩, ⟨.describe, a⟩,
        ⟨.drop, ()⟩]
  | noList {p : Except Error Unit} {s : String} {a : Except Error Describe} {e : Error} :
      Refusal d [⟨.openChannel, .ok ()⟩, ⟨.params, p⟩, ⟨.echo "runtt", .ok s⟩, ⟨.describe, a⟩,
        ⟨.imageList, .error e⟩, ⟨.drop, ()⟩]
  | rejected {image digest : Bytes} {p : Except Error Unit} {s : String}
      {a : Except Error Describe} {slots : List ImageSlot} (hf : d.firmware = .ok image)
      (hacc : Mcuboot.Accepts image digest) (h : Rejected digest slots) :
      Refusal d (vetting p s a slots ++ [⟨.drop, ()⟩])

theorem Refusal.quiet {d : Deploy} {t : List Event} (h : d.Refusal t) : Quiet t := by
  cases h with
  | rejected _ _ _ => exact quiet_append.mpr ⟨quiet_vetting, by simp [Call.writes]⟩
  | _ => simp [Call.writes]

theorem load_cases {d : Deploy} {t : List Event} {o : Except Failure (Bytes × Bytes)}
    (h : Yields d.load t o) :
    t = [] ∧ ((∃ f, o = .error f ∧
        ∀ image digest, d.firmware = .ok image → ¬ Mcuboot.Accepts image digest) ∨
      ∃ image digest, o = .ok (image, digest) ∧ d.firmware = .ok image ∧
        Mcuboot.Accepts image digest) := by
  unfold load at h
  split at h
  · rename_i e hf
    obtain ⟨rfl, rfl⟩ := yields_throw.mp h
    exact ⟨rfl, .inl ⟨_, rfl, fun image digest hi => by rw [hf] at hi; cases hi⟩⟩
  · rename_i image hf
    -- the file's digest is the one the parser returned, if it returned one
    have hno (hp : ∀ info, Mcuboot.parse image ≠ .ok (.ok info)) :
        ∀ image' digest, d.firmware = .ok image' → ¬ Mcuboot.Accepts image' digest := by
      rintro image' digest hi ⟨info, hacc, -⟩
      rw [hf] at hi
      cases hi
      exact hp info hacc
    split at h
    · rename_i hp
      obtain ⟨rfl, rfl⟩ := yields_throw.mp h
      exact ⟨rfl, .inl ⟨_, rfl, hno fun info hi => by rw [hp] at hi; cases hi⟩⟩
    · rename_i hp
      obtain ⟨rfl, rfl⟩ := yields_throw.mp h
      exact ⟨rfl, .inl ⟨_, rfl, hno fun info hi => by rw [hp] at hi; cases hi⟩⟩
    · rename_i info hp
      obtain ⟨rfl, rfl⟩ := yields_pure.mp h
      exact ⟨rfl, .inr ⟨image, info.digest, rfl, hf, info, hp, rfl⟩⟩

/-- A deploy stops before any write, finds nothing to do, or goes on to the
installation. -/
theorem run_stretches {d : Deploy} {t : List Event} {o : Except Failure Unit}
    (h : Yields d.run t o) :
    (∃ f, o = .error f ∧ d.Refusal t) ∨
    ∃ image digest p s a slots rest, d.firmware = .ok image ∧ Mcuboot.Accepts image digest ∧
      t = vetting p s a slots ++ rest ∧ Identified a ∧
      ((o = .ok () ∧ rest = [] ∧ d.skipIfSame = true ∧ AlreadyRuns digest slots) ∨
       (¬ (d.skipIfSame = true ∧ AlreadyRuns digest slots) ∧ ¬ Rejected digest slots ∧
        Yields (install image digest) rest o)) := by
  replace h := yields_bind.mp h
  rcases h with ⟨f, rfl, h⟩ | ⟨⟨image, digest⟩, t₁, t₂, rfl, h₁, h⟩
  · obtain ⟨rfl, ⟨f', -, hno⟩ | ⟨image, digest, ho, -⟩⟩ := load_cases h
    · exact .inl ⟨f, rfl, .unreadable hno⟩
    · cases ho
  obtain ⟨rfl, ⟨f', ho, -⟩ | ⟨image', digest', ho, hf, hacc⟩⟩ := load_cases h₁
  · cases ho
  cases ho
  rw [List.nil_append]
  replace h := yields_bind.mp h
  rcases h with ⟨f, rfl, h⟩ | ⟨u, t₃, t₄, rfl, h₃, h⟩
  · rcases connect_cases h with ⟨e, rfl, -⟩ | ⟨p, -, ho⟩
    · exact .inl ⟨f, rfl, .noConnection⟩
    · cases ho
  rcases connect_cases h₃ with ⟨e, -, ho⟩ | ⟨p, rfl, -⟩
  · cases ho
  replace h := yields_bind.mp h
  rcases h with ⟨f, rfl, h⟩ | ⟨v, t₅, t₆, rfl, h₅, h₆⟩
  · replace h := SmpM.yields_holdingClient_error.mp h
    obtain ⟨t', rfl, h⟩ := h
    refine .inl ⟨f, rfl, ?_⟩
    rcases vet_cases h with
      ⟨f', -, ⟨e, rfl⟩ | ⟨s, a, rfl, hid⟩ | ⟨s, a, e, rfl⟩ | ⟨s, a, slots, rfl, hrej⟩⟩ |
      ⟨s, a, slots, -, -, ⟨ho, -⟩ | ⟨ho, -⟩⟩
    · exact .noEcho
    · exact .unidentified hid
    · exact .noList
    · exact .rejected hf hacc hrej
    · cases ho
    · cases ho
  · rcases vet_cases (SmpM.yields_holdingClient_ok.mp h₅) with
      ⟨f', ho, -⟩ | ⟨s, a, slots, rfl, hid, ⟨ho, hskip⟩ | ⟨ho, hskip, hrej⟩⟩
    · cases ho
    · cases ho
      obtain ⟨rfl, rfl⟩ := yields_pure.mp h₆
      exact .inr ⟨image, digest, p, s, a, slots, [], hf, hacc, rfl, hid, .inl ⟨rfl, rfl, hskip⟩⟩
    · cases ho
      exact .inr ⟨image, digest, p, s, a, slots, t₆, hf, hacc, rfl, hid,
        .inr ⟨hskip, hrej, h₆⟩⟩

/-- **Everything a deploy can do**: stop before any write, find nothing to do, or
take one of the courses of the installation. -/
theorem run_cases {d : Deploy} {t : List Event} {o : Except Failure Unit}
    (h : Yields d.run t o) :
    (∃ f, o = .error f ∧ d.Refusal t) ∨
    ∃ image digest p s a slots rest, d.firmware = .ok image ∧ Mcuboot.Accepts image digest ∧
      t = vetting p s a slots ++ rest ∧ Identified a ∧
      ((o = .ok () ∧ rest = [] ∧ d.skipIfSame = true ∧ AlreadyRuns digest slots) ∨
       (¬ (d.skipIfSame = true ∧ AlreadyRuns digest slots) ∧ ¬ Rejected digest slots ∧
        Course image digest rest o)) := by
  rcases run_stretches h with
    href | ⟨image, digest, p, s, a, slots, rest, hf, hacc, ht, hid, hdone | ⟨hskip, hrej, hrest⟩⟩
  · exact .inl href
  · exact .inr ⟨image, digest, p, s, a, slots, rest, hf, hacc, ht, hid, .inl hdone⟩
  · exact .inr ⟨image, digest, p, s, a, slots, rest, hf, hacc, ht, hid,
      .inr ⟨hskip, hrej, install_course hrest⟩⟩

/-- What a deploy writes. -/
theorem run_writes_cases {d : Deploy} {t : List Event} {o : Except Failure Unit}
    (h : Yields d.run t o) {x : Event} (hx : x ∈ t) :
    x.question.writes = false ∨
    ∃ image digest, d.firmware = .ok image ∧ Mcuboot.Accepts image digest ∧
      (x.question = .flash image ∨ (∃ confirm, x.question = .setState digest confirm) ∨
        x.question = .reset) := by
  rcases run_cases h with
    ⟨f, -, href⟩ | ⟨image, digest, p, s, a, slots, rest, hf, hacc, rfl, -, ⟨-, rfl, -⟩ |
    ⟨-, -, hcourse⟩⟩
  · exact .inl (href.quiet x hx)
  · rw [List.append_nil] at hx
    exact .inl (quiet_vetting x hx)
  · rcases List.mem_append.mp hx with hx | hx
    · exact .inl (quiet_vetting x hx)
    · exact (hcourse.writes_cases x hx).imp_right fun hw => ⟨image, digest, hf, hacc, hw⟩

end Deploy
end Runtt
