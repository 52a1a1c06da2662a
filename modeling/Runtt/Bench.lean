import Runtt.Deploy
import Runtt.Server

/-! # The runtime against the mock

A handler for `Call` that turns each call into requests to the mock's server and
reads the responses.  What is neither under the runtime's control nor the mock's is
an `Env`: whether the port opens, whether the reconnect deadline has passed, what
`describe` answers, and the choices of `mcumgr-toolkit`.

The link itself is left out: a request reaches the server as the `Request` its frame
decodes to, and a `Response` reaches the client with the fields it carries.  A
request that gets no answer is resent a few times by the toolkit; `World.ask_again` shows
why resending needs no modelling.
-/
namespace Runtt

open Interaction Program

/-- What the bench leaves open. -/
structure Env where
  /-- What opening the port comes to, at each moment. -/
  connect : Nat → Except Error Unit
  /-- Whether the deadline of a reconnect has passed, at each moment. -/
  deadlinePassed : Nat → Bool
  /-- What `describe` comes to, at each moment and state of the server. -/
  describe : Nat → Server → Except Error Describe
  /-- How many bytes the toolkit puts in the chunk at an offset. -/
  chunkLen : Nat → Nat
  chunkLen_pos : ∀ off, 0 < chunkLen off
  /-- The toolkit ends an upload answered `match: false` without an error. -/
  toleratesMismatch : Bool
  /-- The toolkit's error for a request without an answer. -/
  unanswered : Error
  /-- The toolkit's error for an error response. -/
  refused : Error
  /-- The toolkit's error for `match: false`. -/
  mismatch : Error

/-- The server, and how often the environment was consulted. -/
structure World where
  srv : Server
  /-- The server did not return from a request. -/
  hung : Bool
  tick : Nat
  deriving DecidableEq

namespace World

/-- A server just started on `dev`, reporting `contract`. -/
def start (dev : Device) (contract : String) : World := ⟨⟨dev, false, contract⟩, false, 0⟩

/-- One request and its answer. -/
def ask (sha256 : Bytes → Bytes) (w : World) (req : Request) : Option Response × World :=
  if w.hung then (none, w)
  else
    match w.srv.handle sha256 req with
    | .error _ => (none, { w with hung := true })
    | .ok (resp, srv) => (resp, { w with srv })

/-- The environment is consulted. -/
def next (w : World) : World := { w with tick := w.tick + 1 }

end World

/-- The toolkit's `ImageState` of a slot. -/
def SlotReport.toImageSlot (r : SlotReport) : ImageSlot :=
  { image := some 0, slot := r.slot, version := r.img.version, hash := some r.img.hash,
    bootable := r.img.bootable, pending := r.img.pending, confirmed := r.img.confirmed,
    active := r.active, permanent := r.img.permanent }

namespace Env

variable (env : Env) (sha256 : Bytes → Bytes)

/-- The result of a request: `read` its answer, or fail. -/
def result {α : Type} (read : Response → Option α) : Option Response → Except Error α
  | none => .error env.unanswered
  | some resp =>
    match read resp with
    | some a => .ok a
    | none => .error env.refused

/-- A request, and its result. -/
def call {α : Type} (w : World) (req : Request) (read : Response → Option α) :
    Except Error α × World :=
  let (resp, w) := w.ask sha256 req
  (env.result read resp, w)

/-- The request for the chunk of `image` at `off`: length and digest go with the
first. -/
def chunkRequest (image : Bytes) (off : Nat) : Request :=
  .upload off (if off = 0 then some image.length else none)
    (if off = 0 then some (sha256 image) else none)
    ((image.drop off).take (env.chunkLen off))

/-- The end of an upload, on the device's `match`. -/
def uploadResult (matched : Bool) : Except Error Unit :=
  if matched || env.toleratesMismatch then .ok () else .error env.mismatch

/-- `image_upload`: consecutive chunks at the offsets the server returns.  `none` is
the fuel running out, which `uploadLoop_returns` excludes. -/
def uploadLoop (image : Bytes) : Nat → Nat → World → Option (Except Error Unit) × World
  | 0, _, w => (none, w)
  | fuel + 1, off, w =>
    let (resp, w) := w.ask sha256 (env.chunkRequest sha256 image off)
    match resp with
    | some (.continueAt off) =>
      if off < image.length then uploadLoop image fuel off w
      else (some (env.uploadResult true), w)
    | some (.complete off matched) =>
      if off < image.length then uploadLoop image fuel off w
      else (some (env.uploadResult matched), w)
    | some _ => (some (.error env.refused), w)
    | none => (some (.error env.unanswered), w)

/-- Twice around: the image once, and once more after the one restart the mock may
demand. -/
def uploadFuel (image : Bytes) : Nat := 2 * image.length + 2

/-- `ToolkitClient::flash`'s `image_upload`. -/
def upload (image : Bytes) (w : World) : Except Error Unit × World :=
  let (r, w) := env.uploadLoop sha256 image (uploadFuel image) 0 w
  (r.getD (.error env.unanswered), w)

/-- **The bench**: every call the runtime makes, answered by the mock. -/
def bench : (q : Call) → World → q.Reply × World
  | .openChannel, w => (env.connect w.tick, w.next)
  | .params, w => env.call sha256 w .mcumgrParams fun _ => some ()
  | .drop, w => ((), w)
  | .deadlinePassed, w => (env.deadlinePassed w.tick, w.next)
  | .echo payload, w => env.call sha256 w (.echo payload) fun
    | .echoed r => some r
    | _ => none
  | .describe, w => (env.describe w.tick w.srv, w.next)
  | .imageList, w => env.call sha256 w .readState fun
    | .states images => some (images.map SlotReport.toImageSlot)
    | _ => none
  | .flash image, w => env.upload sha256 image w
  | .setState hash confirm, w => env.call sha256 w (.setState (some hash) confirm) fun
    | .states _ => some ()
    | _ => none
  | .reset, w => env.call sha256 w .reset fun
    | .done => some ()
    | _ => none

end Env

/-- The mock within reach: the port opens, no deadline passes, and `describe` comes to
`a`. -/
def Env.withinReach (a : Except Error Describe) : Env where
  connect _ := .ok ()
  deadlinePassed _ := false
  describe _ _ := a
  chunkLen _ := 256
  chunkLen_pos _ := by decide
  toleratesMismatch := false
  unanswered := ["timed out"]
  refused := ["error response"]
  mismatch := ["checksum mismatch"]

/-! ## Requests that change nothing -/

variable {env : Env} {sha256 : Bytes → Bytes} {w : World}

/-- The requests that only read. -/
def Request.reads : Request → Bool
  | echo _ => true
  | mcumgrParams => true
  | readState => true
  | describe => true
  | _ => false

/-- The request gets as far as `dispatch`. -/
def World.hears (w : World) (req : Request) : Bool :=
  !w.hung && !w.srv.silent && !w.srv.withholds req.command

theorem ask_deaf {req : Request} (h : w.hears req = false) : w.ask sha256 req = (none, w) := by
  unfold World.ask
  by_cases hh : w.hung = true
  · rw [if_pos hh]
  · rw [if_neg hh]
    have hmute : (w.srv.silent || w.srv.withholds req.command) = true := by
      simpa [World.hears, hh, ← Bool.or_eq_true, ← Bool.not_or] using h
    rw [Server.handle, if_pos hmute]

theorem ask_hears {req : Request} (h : w.hears req = true) {resp : Option Response} {srv : Server}
    (ha : w.srv.answer sha256 req = .ok (resp, srv)) :
    w.ask sha256 req = (resp, { w with srv }) := by
  simp only [World.hears, Bool.and_eq_true, Bool.not_eq_true'] at h
  obtain ⟨⟨hhung, hsilent⟩, hwith⟩ := h
  unfold World.ask Server.handle
  rw [hhung, hsilent, hwith, ha]
  rfl

theorem call_deaf {α : Type} {req : Request} {read : Response → Option α}
    (h : w.hears req = false) : env.call sha256 w req read = (.error env.unanswered, w) := by
  rw [Env.call, ask_deaf h]
  rfl

theorem call_hears {α : Type} {req : Request} {read : Response → Option α}
    (h : w.hears req = true) {resp : Option Response} {srv : Server}
    (ha : w.srv.answer sha256 req = .ok (resp, srv)) :
    env.call sha256 w req read = (env.result read resp, { w with srv }) := by
  rw [Env.call, ask_hears h ha]

theorem ask_reads {req : Request} (h : req.reads = true) : (w.ask sha256 req).2 = w := by
  cases hh : w.hears req with
  | false => rw [ask_deaf hh]
  | true =>
    have ha : ∃ resp, w.srv.answer sha256 req = .ok (resp, w.srv) := by
      cases req <;> first | exact ⟨_, rfl⟩ | cases h
    obtain ⟨resp, ha⟩ := ha
    rw [ask_hears hh ha]

/-- **The bench's quiet calls leave the server alone.** -/
theorem bench_quiet {q : Call} (h : q.writes = false) :
    ((env.bench sha256) q w).2.srv = w.srv ∧ ((env.bench sha256) q w).2.hung = w.hung := by
  cases q with
  | flash | setState | reset => cases h
  | openChannel | drop | deadlinePassed | describe => exact ⟨rfl, rfl⟩
  | params =>
    have hw : (w.ask sha256 .mcumgrParams).2 = w := ask_reads rfl
    exact ⟨congrArg World.srv hw, congrArg World.hung hw⟩
  | echo payload =>
    have hw : (w.ask sha256 (.echo payload)).2 = w := ask_reads rfl
    exact ⟨congrArg World.srv hw, congrArg World.hung hw⟩
  | imageList =>
    have hw : (w.ask sha256 .readState).2 = w := ask_reads rfl
    exact ⟨congrArg World.srv hw, congrArg World.hung hw⟩

section
variable (env sha256 w)

/-- An image list through the bench fails, or is the device's. -/
theorem bench_imageList :
    (∃ e, env.bench sha256 .imageList w = (.error e, w)) ∨
    env.bench sha256 .imageList w = (.ok (w.srv.dev.imageStates.map SlotReport.toImageSlot), w) := by
  unfold Env.bench
  cases hh : w.hears .readState with
  | false => exact .inl ⟨_, call_deaf hh⟩
  | true => exact .inr (call_hears hh rfl)

/-- A reset through the bench fails and changes nothing, or is the device's. -/
theorem bench_reset :
    (∃ e, env.bench sha256 .reset w = (.error e, w)) ∨
    env.bench sha256 .reset w =
      (.ok (), { w with srv := { w.srv with dev := w.srv.dev.reset } }) := by
  unfold Env.bench
  cases hh : w.hears .reset with
  | false => exact .inl ⟨_, call_deaf hh⟩
  | true => exact .inr (call_hears hh rfl)

/-- A `set_state` through the bench fails and changes nothing, or is the device's. -/
theorem bench_setState (hash : Bytes) (confirm : Bool) :
    (∃ e, env.bench sha256 (.setState hash confirm) w = (.error e, w)) ∨
    ∃ dev', w.srv.dev.setState (some hash) confirm = (.ok (), dev') ∧
      env.bench sha256 (.setState hash confirm) w =
        (.ok (), { w with srv := { w.srv with dev := dev' } }) := by
  unfold Env.bench
  cases hh : w.hears (.setState (some hash) confirm) with
  | false => exact .inl ⟨_, call_deaf hh⟩
  | true =>
    obtain ⟨r, dev', hs⟩ : ∃ r dev', w.srv.dev.setState (some hash) confirm = (r, dev') :=
      ⟨_, _, rfl⟩
    cases r with
    | ok u =>
      have ha : w.srv.answer sha256 (.setState (some hash) confirm) =
          .ok (some (.states dev'.imageStates), { w.srv with dev := dev' }) := by
        simp only [Server.answer, hs]
      exact .inr ⟨dev', hs, call_hears hh ha⟩
    | error msg =>
      rcases Device.setState_cases hs with ⟨-, -, rfl, -⟩ | ⟨-, -, -, hr, -⟩ | ⟨-, -, -, -, hr, -⟩
      · have ha : w.srv.answer sha256 (.setState (some hash) confirm) =
            .ok (some (.refused ERR_EINVAL), w.srv) := by
          simp only [Server.answer, hs]
        exact .inl ⟨env.refused, call_hears hh ha⟩
      · cases hr
      · cases hr

end
end Runtt
