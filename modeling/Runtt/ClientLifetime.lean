import Runtt.ConfirmGate

/-! # One client at a time

A `ToolkitClient` owns the serial handle and the reader thread of its connection, and a
port that another handle still holds does not open.  So a connect has to come after the
earlier client was dropped.  `Clients` follows the clients through the programs of a deploy,
scope by scope: `holdingClient` and `thenDrop` are where one ends.

Every run keeps to it but one kind: on the direct-write path `reconnect` is called while
the first client is still in scope (`one_client_iff`).
-/
namespace Runtt

open Interaction Program

/-- The clients alive after an exchange, of `n` before it. -/
def clientsAfter (n : Nat) : Event → Nat
  | ⟨.openChannel, .ok ()⟩ => n + 1
  | ⟨.drop, ()⟩ => n - 1
  | _ => n

/-- The clients alive after the exchanges of `t`, of `n` before them. -/
def alive (n : Nat) (t : List Event) : Nat := t.foldl clientsAfter n

/-- With `n` clients alive at its start, `t` opens a port only when none is. -/
def OpensFree : Nat → List Event → Prop
  | _, [] => True
  | n, x :: t => (x.question = .openChannel → n = 0) ∧ OpensFree (clientsAfter n x) t

@[simp] theorem alive_nil (n : Nat) : alive n [] = n := rfl

@[simp] theorem alive_cons (n : Nat) (x : Event) (t : List Event) :
    alive n (x :: t) = alive (clientsAfter n x) t := rfl

theorem alive_append (n : Nat) (s t : List Event) : alive n (s ++ t) = alive (alive n s) t :=
  List.foldl_append

theorem opensFree_append {n : Nat} {s t : List Event} :
    OpensFree n (s ++ t) ↔ OpensFree n s ∧ OpensFree (alive n s) t := by
  induction s generalizing n with
  | nil => exact ⟨fun h => ⟨trivial, h⟩, fun h => h.2⟩
  | cons x s ih =>
    show (_ ∧ OpensFree _ (s ++ t)) ↔ (_ ∧ _) ∧ _
    rw [ih, and_assoc]
    rfl

/-- **At most one client.**  Whenever a port is opened no client is alive, and at no
moment is there more than one. -/
structure OneClient (t : List Event) : Prop where
  opens : ∀ pre r post, t = pre ++ ⟨.openChannel, r⟩ :: post → alive 0 pre = 0
  alive_le : ∀ pre post, t = pre ++ post → alive 0 pre ≤ 1

theorem clientsAfter_le {n : Nat} {x : Event} (hn : n ≤ 1)
    (hopen : x.question = .openChannel → n = 0) : clientsAfter n x ≤ 1 := by
  unfold clientsAfter
  split
  · have hzero : n = 0 := hopen rfl
    omega
  · omega
  · exact hn

/-- Ports that are opened without a client alive leave at most one alive. -/
theorem OpensFree.alive_le {n : Nat} {t : List Event} (h : OpensFree n t) (hn : n ≤ 1) :
    alive n t ≤ 1 := by
  induction t generalizing n with
  | nil => exact hn
  | cons x t ih => exact ih h.2 (clientsAfter_le hn h.1)

theorem opensFree_of_splits {n : Nat} {t : List Event}
    (h : ∀ pre r post, t = pre ++ ⟨.openChannel, r⟩ :: post → alive n pre = 0) :
    OpensFree n t := by
  induction t generalizing n with
  | nil => trivial
  | cons x t ih =>
    refine ⟨fun hx => ?_, ih fun pre r post heq => h (x :: pre) r post (by rw [heq]; rfl)⟩
    obtain ⟨q, r⟩ := x
    cases hx
    exact h [] r t rfl

theorem oneClient_iff {t : List Event} : OneClient t ↔ OpensFree 0 t := by
  constructor
  · intro h
    exact opensFree_of_splits h.opens
  · intro h
    refine ⟨fun pre r post heq => ?_, fun pre post heq => ?_⟩
    · rw [heq, opensFree_append] at h
      exact h.2.1 rfl
    · rw [heq, opensFree_append] at h
      exact h.1.alive_le (Nat.zero_le 1)

/-! ## Clients through a program -/

/-- The one number for success, the other for failure. -/
def ends {α : Type} (ok err : Nat) : Except Failure α → Nat
  | .ok _ => ok
  | .error _ => err

/-- Started with `n` clients alive, a run of `p` opens ports only when none is; it leaves
`ok` alive when it succeeds and `err` when it fails. -/
def Clients {α : Type} (n : Nat) (p : SmpM α) (ok err : Nat) : Prop :=
  ∀ t o, Yields p t o → OpensFree n t ∧ alive n t = ends ok err o

section rules
variable {α β : Type} {n k k' e : Nat} {p : SmpM α}

theorem clients_pure {a : α} : Clients n (pure a) n e := by
  intro t o h
  obtain ⟨rfl, rfl⟩ := yields_pure.mp h
  exact ⟨trivial, rfl⟩

theorem clients_throw {f : Failure} : Clients n (throw f : SmpM α) k n := by
  intro t o h
  obtain ⟨rfl, rfl⟩ := yields_throw.mp h
  exact ⟨trivial, rfl⟩

theorem clients_bail {msg : String} : Clients n (SmpM.bail msg : SmpM α) k n := clients_throw

theorem clients_bind {f : α → SmpM β} (hp : Clients n p k e) (hf : ∀ a, Clients k (f a) k' e) :
    Clients n (p >>= f) k' e := by
  intro t o h
  rcases yields_bind.mp h with ⟨f', rfl, hfail⟩ | ⟨a, t₁, t₂, rfl, h₁, h₂⟩
  · exact hp t _ hfail
  · obtain ⟨hopens₁, halive₁⟩ := hp t₁ _ h₁
    have hmid : alive n t₁ = k := halive₁
    obtain ⟨hopens₂, halive₂⟩ := hf a t₂ o h₂
    rw [opensFree_append, alive_append, hmid]
    exact ⟨⟨hopens₁, hopens₂⟩, halive₂⟩

theorem clients_context {msg : String} (hp : Clients n p k e) :
    Clients n (SmpM.context msg p) k e := by
  intro t o h
  cases o with
  | ok a => exact hp t _ (SmpM.yields_context_ok.mp h)
  | error f =>
    obtain ⟨f', -, h⟩ := SmpM.yields_context_error.mp h
    exact hp t (.error f') h

/-- A call that is neither the opening of a port nor the end of a client. -/
theorem clients_request {q : Call} {read : q.Reply → Except Error α} {msg : String}
    (hopen : q ≠ .openChannel) (hdrop : q ≠ .drop) : Clients n (SmpM.request q read msg) n n := by
  have hneutral (r : q.Reply) : OpensFree n [⟨q, r⟩] ∧ alive n [⟨q, r⟩] = n := by
    refine ⟨⟨fun h => absurd h hopen, trivial⟩, ?_⟩
    show clientsAfter n ⟨q, r⟩ = n
    cases q <;> first | rfl | contradiction
  intro t o h
  cases o with
  | ok a =>
    obtain ⟨r, -, rfl⟩ := SmpM.yields_request_ok.mp h
    exact hneutral r
  | error f =>
    obtain ⟨r, -, -, -, rfl⟩ := SmpM.yields_request_error.mp h
    exact hneutral r

/-- A question whose reply is handed on. -/
theorem clients_ask_bind {q : Call} {f : q.Reply → SmpM β} (hopen : q ≠ .openChannel)
    (hf : ∀ r, Clients (clientsAfter n ⟨q, r⟩) (f r) k e) :
    Clients n (ExceptT.mk (.ask q fun r => .done (.ok r)) >>= f) k e := by
  intro t o h
  obtain ⟨r, t', rfl, hrest⟩ := yields_ask_bind.mp h
  obtain ⟨hopens, halive⟩ := hf r t' o hrest
  exact ⟨⟨fun hq => absurd hq hopen, hopens⟩, halive⟩

theorem clients_result (hp : Clients n p n n) : Clients n (SmpM.result p) n e := by
  intro t o h
  obtain ⟨r, rfl, hr⟩ := SmpM.yields_result.mp h
  obtain ⟨hopens, halive⟩ := hp t r hr
  cases r <;> exact ⟨hopens, halive⟩

/-- The client is dropped on the way out of a failure. -/
theorem clients_holdingClient (hp : Clients n p k (e + 1)) :
    Clients n (SmpM.holdingClient p) k e := by
  intro t o h
  cases o with
  | ok a => exact hp t _ (SmpM.yields_holdingClient_ok.mp h)
  | error f =>
    obtain ⟨t', rfl, hfail⟩ := SmpM.yields_holdingClient_error.mp h
    obtain ⟨hopens, halive⟩ := hp t' _ hfail
    have hlast : alive n t' = e + 1 := halive
    rw [opensFree_append, alive_append, hlast]
    exact ⟨⟨hopens, fun hq => (nomatch hq), trivial⟩, rfl⟩

end rules

/-! ## The programs of a deploy -/

theorem clients_connect : Clients 0 connect 1 0 := by
  intro t o h
  rcases connect_cases h with ⟨e, rfl, rfl⟩ | ⟨p, rfl, rfl⟩
  · exact ⟨⟨fun _ => rfl, trivial⟩, rfl⟩
  · exact ⟨⟨fun _ => rfl, fun h => (nomatch h), trivial⟩, rfl⟩

theorem clients_echo {n : Nat} {payload : String} : Clients n (ToolkitClient.echo payload) n n :=
  clients_request (fun h => nomatch h) (fun h => nomatch h)

theorem clients_describe {n : Nat} : Clients n ToolkitClient.describe n n :=
  clients_request (fun h => nomatch h) (fun h => nomatch h)

theorem clients_imageList {n : Nat} : Clients n ToolkitClient.imageList n n :=
  clients_request (fun h => nomatch h) (fun h => nomatch h)

theorem clients_flash {n : Nat} {image : Bytes} : Clients n (ToolkitClient.flash image) n n :=
  clients_request (fun h => nomatch h) (fun h => nomatch h)

theorem clients_setState {n : Nat} {hash : Bytes} {confirm : Bool} :
    Clients n (ToolkitClient.setState hash confirm) n n :=
  clients_request (fun h => nomatch h) (fun h => nomatch h)

theorem clients_reset {n : Nat} : Clients n ToolkitClient.reset n n :=
  clients_request (fun h => nomatch h) (fun h => nomatch h)

theorem clients_reconnectPoll : Clients 0 reconnectPoll 1 0 :=
  clients_bind clients_connect fun _ =>
    clients_holdingClient (clients_bind clients_echo fun _ => clients_pure)

theorem clients_timedOut {lastErr : Option Failure} : Clients 0 (timedOut lastErr) 1 0 := by
  cases lastErr with
  | none => exact clients_bail
  | some e => exact clients_throw

/-- A reconnect drops the client of each failed poll before the next. -/
theorem clients_reconnectLoop {polls : Nat} {lastErr : Option Failure} :
    Clients 0 (reconnectLoop polls lastErr) 1 0 := by
  induction polls generalizing lastErr with
  | zero => exact clients_timedOut
  | succ polls ih =>
    intro t o h
    rcases reconnectLoop_round h with
      ⟨rfl, f, rfl⟩ | ⟨t₁, rfl, hpoll, rfl⟩ | ⟨f, t₁, t₂, rfl, hpoll, hrest⟩
    · exact ⟨⟨fun hq => (nomatch hq), trivial⟩, rfl⟩
    · obtain ⟨hopens, halive⟩ := clients_reconnectPoll t₁ _ hpoll
      exact ⟨⟨fun hq => (nomatch hq), hopens⟩, halive⟩
    · obtain ⟨hopens₁, halive₁⟩ := clients_reconnectPoll t₁ _ hpoll
      obtain ⟨hopens₂, halive₂⟩ := ih t₂ o hrest
      have hnone : alive 0 t₁ = 0 := halive₁
      rw [← List.cons_append, opensFree_append, alive_append]
      show (_ ∧ OpensFree (alive 0 t₁) t₂) ∧ alive (alive 0 t₁) t₂ = _
      rw [hnone]
      exact ⟨⟨⟨fun hq => (nomatch hq), hopens₁⟩, hopens₂⟩, halive₂⟩

namespace Deploy

theorem clients_awaitReturn : Clients 0 awaitReturn 1 0 := clients_context clients_reconnectLoop

theorem clients_resetDevice {n : Nat} : Clients n resetDevice n n := clients_context clients_reset

theorem clients_stage {image digest : Bytes} : Clients 1 (stage image digest) 1 1 := by
  refine clients_bind (clients_context clients_flash) fun _ => ?_
  refine clients_bind clients_imageList fun slots => ?_
  split
  · exact clients_bail
  · split
    · exact clients_pure
    · exact clients_bind (clients_context clients_setState) fun _ => clients_pure

theorem clients_confirmContractMatches : Clients 1 confirmContractMatches 1 1 := by
  refine clients_bind (clients_result clients_describe) fun r => ?_
  split
  · exact clients_pure
  · split
    · exact clients_bail
    · split
      · exact clients_bail
      · exact clients_pure

theorem clients_confirm {digest : Bytes} : Clients 1 (confirm digest) 1 1 := by
  refine clients_bind clients_imageList fun slots => ?_
  split
  · split
    · exact clients_bail
    · exact clients_bail
  · split
    · exact clients_bail
    · exact clients_bind clients_confirmContractMatches fun _ => clients_context clients_setState

/-! ## The two ways to reset -/

/-- What follows the reset of an image that was marked: the first client is dropped
before a port is opened. -/
theorem clients_marked {digest : Bytes} : Clients 1 (do
    SmpM.holdingClient resetDevice
    ExceptT.mk (.ask .drop fun _ => .done (.ok ()))
    awaitReturn
    SmpM.holdingClient (confirm digest)) 1 0 := by
  refine clients_bind (clients_holdingClient clients_resetDevice) fun _ => ?_
  refine clients_ask_bind (fun hq => nomatch hq) fun _ => ?_
  exact clients_bind clients_awaitReturn fun _ => clients_holdingClient clients_confirm

/-- Whatever a poll comes to, it begins with a connect. -/
theorem reconnectPoll_head {t : List Event} {o : Except Failure Unit}
    (h : Yields reconnectPoll t o) : ∃ r rest, t = ⟨.openChannel, r⟩ :: rest := by
  have hconnect : ∃ t₁ t₂ o', t = t₁ ++ t₂ ∧ Yields connect t₁ o' := by
    rcases yields_bind.mp h with ⟨f, -, hfail⟩ | ⟨u, t₁, t₂, rfl, hok, -⟩
    · exact ⟨t, [], _, (List.append_nil t).symm, hfail⟩
    · exact ⟨t₁, t₂, _, rfl, hok⟩
  obtain ⟨t₁, t₂, o', rfl, hconnect⟩ := hconnect
  rcases connect_cases hconnect with ⟨e, rfl, -⟩ | ⟨p, rfl, -⟩
  · exact ⟨_, _, rfl⟩
  · exact ⟨_, _, rfl⟩

/-- Reconnecting opens a port unless the deadline has passed by then. -/
theorem awaitReturn_head {t : List Event} {o : Except Failure Unit}
    (h : Yields awaitReturn t o) :
    t = [⟨.deadlinePassed, true⟩] ∨
      ∃ r rest, t = ⟨.deadlinePassed, false⟩ :: ⟨.openChannel, r⟩ :: rest := by
  have hloop : ∃ o', Yields (reconnectLoop (59 + 1) none) t o' := by
    cases o with
    | ok a => exact ⟨_, SmpM.yields_context_ok.mp h⟩
    | error f =>
      obtain ⟨f', -, hfail⟩ := SmpM.yields_context_error.mp h
      exact ⟨_, hfail⟩
  obtain ⟨o', hloop⟩ := hloop
  rcases reconnectLoop_round hloop with
    ⟨rfl, -⟩ | ⟨t₁, rfl, hpoll, -⟩ | ⟨f, t₁, t₂, rfl, hpoll, -⟩
  · exact .inl rfl
  · obtain ⟨r, rest, rfl⟩ := reconnectPoll_head hpoll
    exact .inr ⟨r, rest, rfl⟩
  · obtain ⟨r, rest, rfl⟩ := reconnectPoll_head hpoll
    exact .inr ⟨r, rest ++ t₂, rfl⟩

/-- On the direct-write path the client is kept: a reset that is answered before the
deadline is followed by the opening of a second one. -/
theorem direct_opens {t : List Event} {o : Except Failure Unit}
    (h : Yields (SmpM.thenDrop (do
      resetDevice
      awaitReturn)) t o) :
    (OpensFree 1 t ∧ ∀ rest, t ≠ ⟨.reset, .ok ()⟩ :: ⟨.deadlinePassed, false⟩ :: rest) ∨
      ∃ r rest, t = ⟨.reset, .ok ()⟩ :: ⟨.deadlinePassed, false⟩ :: ⟨.openChannel, r⟩ :: rest := by
  obtain ⟨t', rfl, hbody⟩ := SmpM.yields_thenDrop.mp h
  rcases yields_bind.mp hbody with ⟨f, rfl, hreset⟩ | ⟨u, t₁, t₂, rfl, hreset, hawait⟩
  · obtain ⟨r, rfl, -⟩ := request_cases hreset
    left
    refine ⟨⟨fun hq => (nomatch hq), fun hq => (nomatch hq), trivial⟩, fun rest heq => ?_⟩
    cases heq
  · obtain ⟨r, rfl, ⟨-, hr⟩ | ⟨f', e, ho, -⟩⟩ := request_cases hreset
    · cases hr
      rcases awaitReturn_head hawait with rfl | ⟨r, rest, rfl⟩
      · left
        refine ⟨⟨fun hq => (nomatch hq), fun hq => (nomatch hq), fun hq => (nomatch hq), trivial⟩,
          fun rest heq => ?_⟩
        cases heq
      · exact .inr ⟨r, rest ++ [⟨.drop, ()⟩], rfl⟩
    · cases ho

/-- **An installation opens a port with a client alive on the direct-write path alone.** -/
theorem install_opens {image digest : Bytes} {t : List Event} {o : Except Failure Unit}
    (h : Yields (install image digest) t o) :
    (OpensFree 1 t ∧ ∀ slots rest, t ≠ ⟨.flash image, .ok ()⟩ :: ⟨.imageList, .ok slots⟩ ::
        ⟨.reset, .ok ()⟩ :: ⟨.deadlinePassed, false⟩ :: rest) ∨
      ∃ slots landed r rest, t = ⟨.flash image, .ok ()⟩ :: ⟨.imageList, .ok slots⟩ ::
          ⟨.reset, .ok ()⟩ :: ⟨.deadlinePassed, false⟩ :: ⟨.openChannel, r⟩ :: rest ∧
        slotHolding digest slots = some landed ∧ landed.active = true ∧
        landed.confirmed = true := by
  have hstage : Clients 1 (SmpM.holdingClient (stage image digest)) 1 0 :=
    clients_holdingClient clients_stage
  rcases yields_bind.mp h with ⟨f, rfl, hfail⟩ | ⟨staged, t₁, t₂, rfl, h₁, h₂⟩
  · left
    refine ⟨(hstage t _ hfail).1, fun slots rest heq => ?_⟩
    obtain ⟨t', rfl, hfail'⟩ := SmpM.yields_holdingClient_error.mp hfail
    rcases stage_cases hfail' with
      ⟨f', e, -, rfl⟩ | ⟨f', q, -, rfl, ⟨e, rfl⟩ | ⟨slots', rfl, -⟩⟩ |
      ⟨slots', landed, -, -, -, -, ho⟩ | ⟨slots', landed, r, rfl, -⟩
    · cases heq
    · cases heq
    · cases heq
    · cases ho
    · cases heq
  · obtain ⟨hopens₁, halive₁⟩ := hstage t₁ _ h₁
    have hone : alive 1 t₁ = 1 := halive₁
    rcases stage_cases (SmpM.yields_holdingClient_ok.mp h₁) with
      ⟨f', e, ho, -⟩ | ⟨f', q, ho, -⟩ | ⟨slots, landed, rfl, hl, ha, hc, ho⟩ |
      ⟨slots, landed, r, rfl, -, -, ⟨ho, -⟩ | ⟨f', e, ho, -⟩⟩
    · cases ho
    · cases ho
    · cases ho
      rcases direct_opens h₂ with ⟨hopens₂, hno⟩ | ⟨r, rest, rfl⟩
      · left
        rw [opensFree_append, hone]
        refine ⟨⟨hopens₁, hopens₂⟩, fun slots' rest heq => ?_⟩
        obtain ⟨-, htail⟩ := List.cons.inj heq
        obtain ⟨-, htail⟩ := List.cons.inj htail
        exact hno rest htail
      · exact .inr ⟨slots, landed, r, rest, rfl, hl, ha, hc⟩
    · cases ho
      left
      rw [opensFree_append, hone]
      refine ⟨⟨hopens₁, (clients_marked t₂ o h₂).1⟩, fun slots' rest heq => ?_⟩
      cases heq
    · cases ho

/-- The run polls for the device on the direct-write path: after the upload the list has
the file's digest in a slot that is active and confirmed, the reset is answered, and
the deadline has not passed when the first poll begins. -/
def PollsDirectly (d : Deploy) (t : List Event) : Prop :=
  ∃ image digest p s a slots slots' landed rest, d.firmware = .ok image ∧
    Mcuboot.Accepts image digest ∧ slotHolding digest slots' = some landed ∧
    landed.active = true ∧ landed.confirmed = true ∧
    t = vetting p s a slots ++ ⟨.flash image, .ok ()⟩ :: ⟨.imageList, .ok slots'⟩ ::
      ⟨.reset, .ok ()⟩ :: ⟨.deadlinePassed, false⟩ :: rest

theorem opensFree_vetting {p : Except Error Unit} {s : String} {a : Except Error Describe}
    {slots : List ImageSlot} :
    OpensFree 0 (vetting p s a slots) ∧ alive 0 (vetting p s a slots) = 1 :=
  ⟨⟨fun _ => rfl, fun hq => (nomatch hq), fun hq => (nomatch hq), fun hq => (nomatch hq),
    fun hq => (nomatch hq), trivial⟩, rfl⟩

theorem Refusal.opensFree {d : Deploy} {t : List Event} (h : d.Refusal t) : OpensFree 0 t := by
  cases h with
  | rejected _ _ _ =>
    rw [opensFree_append, opensFree_vetting.2]
    exact ⟨opensFree_vetting.1, fun hq => (nomatch hq), trivial⟩
  | _ => simp [OpensFree]

/-- **The port is closed before it is reopened, in exactly the runs that do not poll on
the direct-write path.** -/
theorem one_client_iff {d : Deploy} {t : List Event} {o : Except Failure Unit}
    (h : Yields d.run t o) : OneClient t ↔ ¬ d.PollsDirectly t := by
  rw [oneClient_iff]
  rcases run_stretches h with
    ⟨f, -, href⟩ | ⟨image, digest, p, s, a, slots, rest, hf, hacc, rfl, -, ⟨-, rfl, -⟩ |
    ⟨-, -, hinstall⟩⟩
  · refine iff_of_true href.opensFree ?_
    rintro ⟨image, digest, p, s, a, slots, slots', landed, rest, -, -, -, -, -, rfl⟩
    cases href.quiet ⟨.flash image, .ok ()⟩ (by simp)
  · rw [List.append_nil]
    refine iff_of_true opensFree_vetting.1 ?_
    rintro ⟨image, digest, p, s, a, slots, slots', landed, rest, -, -, -, -, -, heq⟩
    cases heq
  · rw [opensFree_append, opensFree_vetting.2]
    rcases install_opens hinstall with
      ⟨hopens, hno⟩ | ⟨slots', landed, r, rest', rfl, hl, ha, hc⟩
    · refine iff_of_true ⟨opensFree_vetting.1, hopens⟩ ?_
      rintro ⟨image', digest', p', s', a', slots₁, slots₂, landed, rest', hf', -, -, -, -, heq⟩
      rw [hf] at hf'
      cases hf'
      cases heq
      exact hno _ _ rfl
    · refine iff_of_false (fun hall => ?_) (not_not_intro ?_)
      · -- one client is alive when the first poll opens the port
        have hzero : (1 : Nat) = 0 := hall.2.2.2.2.2.1 rfl
        cases hzero
      · exact ⟨image, digest, p, s, a, slots, slots', landed, ⟨.openChannel, r⟩ :: rest', hf, hacc,
          hl, ha, hc, rfl⟩

/-- A board on which the release is marked and confirmed. -/
theorem one_client_iff_steady :
    let t := trace (steadyBoard [runningSlot (List.replicate 32 1) false]) (someRelease true).run ()
    OneClient t ↔ ¬ (someRelease true).PollsDirectly t :=
  one_client_iff (exec_runs _ ()).1

/-- A recovery bootloader that reports the upload running and confirmed: the second client
is opened while the first is alive. -/
theorem two_clients :
    ¬ ∀ (d : Deploy) (t : List Event) (o : Except Failure Unit), Yields d.run t o →
      OneClient t := by
  intro hall
  let board := steadyBoard [runningSlot (List.replicate 32 1) true]
  let t := trace board (someRelease false).run ()
  have hone : OneClient t := hall (someRelease false) t _ (exec_runs _ ()).1
  have hopen : t = t.take 9 ++ ⟨.openChannel, .ok ()⟩ :: t.drop 10 := rfl
  have hzero : alive 0 (t.take 9) = 0 := hone.opens _ _ _ hopen
  have hclient : alive 0 (t.take 9) = 1 := rfl
  rw [hclient] at hzero
  cases hzero

end Deploy
end Runtt
