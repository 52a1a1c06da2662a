import Runtt.Basic
import Runtt.Interaction

/-! # What the runtime needs from an SMP server

`runtt_smp`: the five-method surface, `describe`, and the client's life cycle, as
questions to a device that may answer anything.

A question is one call into `mcumgr-toolkit` (or opening and dropping the client
that makes them), its reply is what that call returned, and the context
`ToolkitClient` puts around an error is added here.
-/
namespace Runtt

open Interaction Program

/-- One image slot as reported by the SMP img group. -/
structure ImageSlot where
  image : Option Nat
  /-- 0 = primary (running), 1 = secondary (staging). -/
  slot : Nat
  version : String
  hash : Option Bytes
  bootable : Bool
  /-- Marked for swap on next reset. -/
  pending : Bool
  /-- Will not revert. -/
  confirmed : Bool
  /-- Currently executing. -/
  active : Bool
  permanent : Bool
  deriving DecidableEq, Repr

/-- What the firmware reports about itself. -/
structure Describe where
  contract : String
  board : String
  appVersion : String
  channels : Nat
  img : Option Bool
  idle : Option Bool
  appHealthy : Option Bool
  provisioned : Option Bool
  serial : Option String
  canNodeId : Option Nat
  deriving DecidableEq, Repr

/-- `str::parse::<u32>`: an optional `+`, then decimal digits, within 32 bits. -/
def parseU32 (s : List Char) : Option Nat :=
  let digits := match s with
    | '+' :: rest => rest
    | _ => s
  if digits ≠ [] ∧ digits.all Char.isDigit = true then
    let n := digits.foldl (fun n c => 10 * n + (c.toNat - 48)) 0
    if n < 2 ^ 32 then some n else none
  else none

/-- The first dotted component of a contract string, as a number. -/
def contractMajor (contract : String) : Option Nat :=
  parseU32 (contract.toList.takeWhile (· ≠ '.'))

/-- A call on the client, or the making and dropping of one. -/
inductive Call where
  /-- Open the port and build a `ToolkitClient` on it. -/
  | openChannel
  /-- Ask the device for its buffer sizes. -/
  | params
  /-- The client goes out of scope. -/
  | drop
  /-- `Instant::now() < deadline` came out false. -/
  | deadlinePassed
  | echo (payload : String)
  | describe
  | imageList
  | flash (image : Bytes)
  | setState (hash : Bytes) (confirm : Bool)
  | reset
  deriving DecidableEq

/-- What a call returns. -/
def Call.Reply : Call → Type
  | openChannel => Except Error Unit
  | params => Except Error Unit
  | drop => Unit
  | deadlinePassed => Bool
  | echo _ => Except Error String
  | describe => Except Error Describe
  | imageList => Except Error (List ImageSlot)
  | flash _ => Except Error Unit
  | setState _ _ => Except Error Unit
  | reset => Except Error Unit

/-- The calls that change the device: upload, mark or confirm, and reset. -/
def Call.writes : Call → Bool
  | flash _ => true
  | setState _ _ => true
  | reset => true
  | _ => false

/-- The calls of a reconnect: making and dropping clients, echoes, and the clock. -/
def Call.polls : Call → Bool
  | openChannel => true
  | params => true
  | drop => true
  | deadlinePassed => true
  | echo _ => true
  | _ => false

/-- Why a step of the runtime did not return `Ok`. -/
inductive Failure where
  | error (e : Error)
  /-- It did not return at all. -/
  | halted (h : Halt)
  deriving DecidableEq

def Failure.context (msg : String) : Failure → Failure
  | .error e => .error (msg :: e)
  | .halted h => .halted h

/-- One call with the reply it got. -/
abbrev Event := Exchange Call.Reply

/-- The runtime's own steps: calls on a device, and a `Result`. -/
abbrev SmpM := ExceptT Failure (Program Call Call.Reply)

namespace SmpM

/-- `bail!`. -/
def bail {α : Type} (msg : String) : SmpM α := throw (.error [msg])

/-- `Result::context`. -/
def context {α : Type} (msg : String) (p : SmpM α) : SmpM α :=
  ExceptT.mk (p.run >>= fun
    | .ok a => .done (.ok a)
    | .error f => .done (.error (f.context msg)))

/-- One call, its `Result` read from the reply, with `ToolkitClient`'s context. -/
def request {α : Type} (q : Call) (read : q.Reply → Except Error α) (msg : String) : SmpM α :=
  ExceptT.mk (.ask q fun r => .done (
    match read r with
    | .ok a => .ok a
    | .error e => .error (.error (msg :: e))))

/-- Run `p` while a client is in scope: if `p` fails the client is dropped on the
way out. -/
def holdingClient {α : Type} (p : SmpM α) : SmpM α :=
  ExceptT.mk (p.run >>= fun
    | .ok a => .done (.ok a)
    | .error f => .ask .drop fun _ => .done (.error f))

/-- Run `p` to a `Result` while a client is in scope that is dropped on either way
out. -/
def thenDrop {α : Type} (p : SmpM α) : SmpM α :=
  ExceptT.mk (p.run >>= fun r => .ask .drop fun _ => .done r)

/-- The `Result` of `p` as a value. -/
def result {α : Type} (p : SmpM α) : SmpM (Except Failure α) :=
  ExceptT.mk (p.run >>= fun r => .done (.ok r))

variable {α : Type} {t : List Event}

@[simp] theorem yields_bail {msg : String} {o : Except Failure α} :
    Yields (bail msg : SmpM α) t o ↔ t = [] ∧ o = .error (.error [msg]) := yields_throw

theorem yields_context_ok {msg : String} {p : SmpM α} {a : α} :
    Yields (context msg p) t (.ok a) ↔ Yields p t (.ok a) := by
  unfold Yields context
  rw [ExceptT.run_mk, runs_bind_iff]
  constructor
  · rintro ⟨r, t₁, t₂, rfl, h₁, h₂⟩
    cases r with
    | error f => cases h₂
    | ok b =>
      obtain ⟨rfl, hb⟩ := runs_done_iff.mp h₂
      cases hb
      rwa [List.append_nil]
  · intro h
    exact ⟨.ok a, t, [], (List.append_nil t).symm, h, .done _⟩

theorem yields_context_error {msg : String} {p : SmpM α} {f : Failure} :
    Yields (context msg p) t (.error f) ↔
      ∃ f', f = f'.context msg ∧ Yields p t (.error f') := by
  unfold Yields context
  rw [ExceptT.run_mk, runs_bind_iff]
  constructor
  · rintro ⟨r, t₁, t₂, rfl, h₁, h₂⟩
    cases r with
    | ok b => cases h₂
    | error f' =>
      obtain ⟨rfl, hf⟩ := runs_done_iff.mp h₂
      cases hf
      exact ⟨f', rfl, by rwa [List.append_nil]⟩
  · rintro ⟨f', rfl, h⟩
    exact ⟨.error f', t, [], (List.append_nil t).symm, h, .done _⟩

theorem yields_request_ok {q : Call} {read : q.Reply → Except Error α} {msg : String} {a : α} :
    Yields (request q read msg) t (.ok a) ↔ ∃ r, read r = .ok a ∧ t = [⟨q, r⟩] := by
  unfold Yields request
  rw [ExceptT.run_mk, runs_ask_iff]
  constructor
  · rintro ⟨r, t', rfl, h⟩
    obtain ⟨rfl, ho⟩ := runs_done_iff.mp h
    cases hr : read r with
    | ok b =>
      rw [hr] at ho
      cases ho
      exact ⟨r, hr, rfl⟩
    | error e =>
      rw [hr] at ho
      cases ho
  · rintro ⟨r, hr, rfl⟩
    refine ⟨r, [], rfl, runs_done_iff.mpr ⟨rfl, ?_⟩⟩
    rw [hr]

theorem yields_request_error {q : Call} {read : q.Reply → Except Error α} {msg : String}
    {f : Failure} :
    Yields (request q read msg) t (.error f) ↔
      ∃ r e, read r = .error e ∧ f = .error (msg :: e) ∧ t = [⟨q, r⟩] := by
  unfold Yields request
  rw [ExceptT.run_mk, runs_ask_iff]
  constructor
  · rintro ⟨r, t', rfl, h⟩
    obtain ⟨rfl, ho⟩ := runs_done_iff.mp h
    cases hr : read r with
    | ok b =>
      rw [hr] at ho
      cases ho
    | error e =>
      rw [hr] at ho
      cases ho
      exact ⟨r, e, hr, rfl, rfl⟩
  · rintro ⟨r, e, hr, rfl, rfl⟩
    refine ⟨r, [], rfl, runs_done_iff.mpr ⟨rfl, ?_⟩⟩
    rw [hr]

theorem yields_holdingClient_ok {p : SmpM α} {a : α} :
    Yields (holdingClient p) t (.ok a) ↔ Yields p t (.ok a) := by
  unfold Yields holdingClient
  rw [ExceptT.run_mk, runs_bind_iff]
  constructor
  · rintro ⟨r, t₁, t₂, rfl, h₁, h₂⟩
    cases r with
    | error f =>
      obtain ⟨-, t', -, h⟩ := runs_ask_iff.mp h₂
      cases h
    | ok b =>
      obtain ⟨rfl, hb⟩ := runs_done_iff.mp h₂
      cases hb
      rwa [List.append_nil]
  · intro h
    exact ⟨.ok a, t, [], (List.append_nil t).symm, h, .done _⟩

theorem yields_holdingClient_error {p : SmpM α} {f : Failure} :
    Yields (holdingClient p) t (.error f) ↔
      ∃ t', t = t' ++ [⟨.drop, ()⟩] ∧ Yields p t' (.error f) := by
  unfold Yields holdingClient
  rw [ExceptT.run_mk, runs_bind_iff]
  constructor
  · rintro ⟨r, t₁, t₂, rfl, h₁, h₂⟩
    cases r with
    | ok b => cases h₂
    | error f' =>
      obtain ⟨-, t', rfl, h⟩ := runs_ask_iff.mp h₂
      obtain ⟨rfl, hf⟩ := runs_done_iff.mp h
      cases hf
      exact ⟨t₁, rfl, h₁⟩
  · rintro ⟨t', rfl, h⟩
    exact ⟨.error f, t', [⟨.drop, ()⟩], rfl, h, .ask (.done _)⟩

theorem yields_thenDrop {p : SmpM α} {o : Except Failure α} :
    Yields (thenDrop p) t o ↔ ∃ t', t = t' ++ [⟨.drop, ()⟩] ∧ Yields p t' o := by
  unfold Yields thenDrop
  rw [ExceptT.run_mk, runs_bind_iff]
  constructor
  · rintro ⟨r, t₁, t₂, rfl, h₁, h₂⟩
    obtain ⟨-, t', rfl, h⟩ := runs_ask_iff.mp h₂
    obtain ⟨rfl, rfl⟩ := runs_done_iff.mp h
    exact ⟨t₁, rfl, h₁⟩
  · rintro ⟨t', rfl, h⟩
    exact ⟨o, t', [⟨.drop, ()⟩], rfl, h, .ask (.done _)⟩

theorem yields_result {p : SmpM α} {o : Except Failure (Except Failure α)} :
    Yields (result p) t o ↔ ∃ r, o = .ok r ∧ Yields p t r := by
  unfold Yields result
  rw [ExceptT.run_mk, runs_bind_iff]
  constructor
  · rintro ⟨r, t₁, t₂, rfl, h₁, h₂⟩
    obtain ⟨rfl, rfl⟩ := runs_done_iff.mp h₂
    exact ⟨r, rfl, by rwa [List.append_nil]⟩
  · rintro ⟨r, rfl, h⟩
    exact ⟨r, t, [], (List.append_nil t).symm, h, .done _⟩

/-- What looks at a result goes on after a failure too. -/
theorem yields_result_bind {β : Type} {p : SmpM α} {f : Except Failure α → SmpM β}
    {o : Except Failure β} :
    Yields (result p >>= f) t o ↔ ∃ r t₁ t₂, t = t₁ ++ t₂ ∧ Yields p t₁ r ∧ Yields (f r) t₂ o := by
  rw [yields_bind]
  constructor
  · rintro (⟨e, -, h⟩ | ⟨r, t₁, t₂, rfl, h₁, h₂⟩)
    · obtain ⟨r, hr, -⟩ := yields_result.mp h
      cases hr
    · obtain ⟨r', hr, h₁⟩ := yields_result.mp h₁
      cases hr
      exact ⟨r, t₁, t₂, rfl, h₁, h₂⟩
  · rintro ⟨r, t₁, t₂, rfl, h₁, h₂⟩
    exact .inr ⟨r, t₁, t₂, rfl, yields_result.mpr ⟨r, rfl, h₁⟩, h₂⟩

end SmpM

/-! ## `ToolkitClient` -/

namespace ToolkitClient

/-- `os` group echo — the heartbeat. -/
def echo (payload : String) : SmpM String := SmpM.request (.echo payload) id "SMP echo failed"

/-- Ask the device to describe itself. -/
def describe : SmpM Describe :=
  SmpM.request .describe id "describe failed; does this firmware include the runtt module?"

/-- `img` group state read. -/
def imageList : SmpM (List ImageSlot) :=
  SmpM.request .imageList id "SMP image state read failed"

/-- Upload an image into the secondary slot. Does not mark it. -/
def flash (image : Bytes) : SmpM Unit :=
  SmpM.request (.flash image) id "SMP image upload failed"

/-- `os` group reset. -/
def reset : SmpM Unit := SmpM.request .reset id "SMP reset failed"

/-- Mark an image: test, or permanent. -/
def setState (hash : Bytes) (confirm : Bool) : SmpM Unit :=
  SmpM.request (.setState hash confirm) id ("SMP set-state failed (confirm=" ++ toString confirm ++
    "); the image may already have failed once")

/-- Ask the device for its own buffer sizes.  A device without the command is not an
error. -/
def tuneFrameSize : SmpM Unit := ExceptT.mk (.ask .params fun _ => .done (.ok ()))

end ToolkitClient
end Runtt
