import Mathlib.Data.List.Basic
import Runtt.Basic

/-! # The resident proxy

`proxy.rs`: the process the engine treats as the container.  `create` spawns it; it
installs its handlers, waits for a signal (phase 1), and then deploys and stays resident
(phase 2).

What it does up to the end of phase 1 depends on nothing but the signals that reach it, so
one step of it is a function (`advance`).  A signal goes to its handler once that is in
place, and until then to the default action (`deliver`).
-/
namespace Runtt

def SIGINT : Nat := 2
def SIGKILL : Nat := 9
def SIGUSR1 : Nat := 10
def SIGTERM : Nat := 15

/-- The signals `install_handlers` takes, in its order. -/
def HANDLED : List Nat := [SIGUSR1, SIGTERM, SIGINT]

/-- How far a proxy is. -/
inductive Stage where
  /-- `main`, up to `install_handlers`.  A child that has not executed yet is here too: it
  has no handlers either. -/
  | launching
  /-- In `install_handlers`, with the first `n` handlers in place. -/
  | installing (n : Nat)
  /-- Phase 1, before the `swap`. -/
  | swapping
  /-- Phase 1, at the `match` on what the swap returned. -/
  | matching (taken : Nat)
  /-- Phase 1, about to call `pause`. -/
  | pausing
  /-- Phase 1, blocked in `pause`. -/
  | paused
  /-- Phase 2, up to `resolve`. -/
  | resolving
  /-- Phase 2, about to claim the device with this lock key. -/
  | claiming (key : String)
  /-- Phase 2, past the claim: `Deploy::run` and `stay_resident`. -/
  | deploying
  /-- `run` is over and the process exits with this code. -/
  | exiting (code : Nat)
  /-- The default action of this signal ends the process. -/
  | killed (sig : Nat)
  deriving DecidableEq, Repr

/-- A proxy: its arguments, the lock files it holds a claim on, where it is, and
`SIGNAL_RECEIVED`. -/
structure Proxy where
  containerId : String
  target : String
  firmware : String
  skipIfSame : Bool
  logTarget : Option String
  locks : List String
  stage : Stage
  signalReceived : Nat
  deriving DecidableEq, Repr

namespace Stage

/-- The handlers in place. -/
def handlers : Stage → List Nat
  | .launching => []
  | .installing n => HANDLED.take n
  | _ => HANDLED

theorem mem_handled {stage : Stage} {sig : Nat} (h : sig ∈ stage.handlers) : sig ∈ HANDLED := by
  unfold handlers at h
  split at h
  · cases h
  · exact List.mem_of_mem_take h
  · exact h

/-- In the loop of phase 1. -/
def waiting : Stage → Bool
  | .swapping | .matching _ | .pausing | .paused => true
  | _ => false

/-- Past phase 1: the deploy has begun. -/
def deploys : Stage → Bool
  | .resolving | .claiming _ | .deploying => true
  | _ => false

end Stage

namespace Proxy

/-- A signal reaches the process.

Besides the three it handles, only `SIGKILL` is certain to end it: any other signal is
ignored, stops it for a while, or ends it as anything else may end it. -/
def deliver (p : Proxy) (sig : Nat) : Proxy :=
  match p.stage with
  | .killed _ => p
  | stage =>
    if sig ∈ stage.handlers then
      { p with signalReceived := sig, stage := if stage = .paused then .swapping else stage }
    else if sig = SIGKILL ∨ sig ∈ HANDLED then { p with stage := .killed sig }
    else p

/-- One step of the start-up or of the loop of phase 1. -/
def advance (p : Proxy) : Proxy :=
  match p.stage with
  | .launching => { p with stage := .installing 0 }
  | .installing n =>
    { p with stage := if n + 1 < HANDLED.length then .installing (n + 1) else .swapping }
  | .swapping => { p with stage := .matching p.signalReceived, signalReceived := 0 }
  | .matching taken =>
    if taken = 0 then { p with stage := .pausing }
    else if taken = SIGUSR1 then { p with stage := .resolving }
    else if taken = SIGTERM ∨ taken = SIGINT then { p with stage := .exiting 0 }
    else { p with stage := .swapping }
  | .pausing => { p with stage := .paused }
  | _ => p

/-- A signal changes where the proxy is and what it was sent, and nothing else. -/
theorem deliver_only (p : Proxy) (sig : Nat) : ∃ stage received,
    p.deliver sig = { p with stage := stage, signalReceived := received } := by
  unfold deliver
  split
  · exact ⟨_, _, rfl⟩
  · split
    · exact ⟨_, _, rfl⟩
    · split
      · exact ⟨_, _, rfl⟩
      · exact ⟨_, _, rfl⟩

/-- So does a step of its own. -/
theorem advance_only (p : Proxy) : ∃ stage received,
    p.advance = { p with stage := stage, signalReceived := received } := by
  unfold advance
  split
  · exact ⟨_, _, rfl⟩
  · exact ⟨_, _, rfl⟩
  · exact ⟨_, _, rfl⟩
  · split
    · exact ⟨_, _, rfl⟩
    · split
      · exact ⟨_, _, rfl⟩
      · split
        · exact ⟨_, _, rfl⟩
        · exact ⟨_, _, rfl⟩
  · exact ⟨_, _, rfl⟩
  · exact ⟨_, _, rfl⟩

/-- A signal brings no proxy into phase 2. -/
theorem stage_of_deliver {p : Proxy} {sig : Nat} {stage : Stage}
    (h : (p.deliver sig).stage = stage) (hdeploys : stage.deploys = true) : p.stage = stage := by
  unfold deliver at h
  split at h
  · exact h
  · split at h
    · dsimp only at h
      split at h
      · subst h
        cases hdeploys
      · exact h
    · split at h
      · subst h
        cases hdeploys
      · exact h

/-- A step of its own brings a proxy into phase 2, and no further. -/
theorem stage_of_advance {p : Proxy} {stage : Stage} (h : p.advance.stage = stage)
    (hdeploys : stage.deploys = true) (hresolving : stage ≠ .resolving) : p.stage = stage := by
  unfold advance at h
  split at h
  · subst h
    cases hdeploys
  · dsimp only at h
    split at h <;> (subst h; cases hdeploys)
  · subst h
    cases hdeploys
  · split at h
    · subst h
      cases hdeploys
    · split at h
      · exact absurd h.symm hresolving
      · split at h <;> (subst h; cases hdeploys)
  · subst h
    cases hdeploys
  · exact h

end Proxy
end Runtt
