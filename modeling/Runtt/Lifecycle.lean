import Runtt.Resolve
import Runtt.Transition
import Runtt.VerbContracts

/-! # The runtime as a system of processes

Invocations of the verbs, proxies, and the kernel between them: the state files, the
process table, the locks and the clock.  Everything happens one step at a time, in any
order: an invocation gets the answer to its next question, a proxy takes a step, a process
dies, is reaped, or a new one starts under a pid that is free by then.

What the outside decides (a call that fails, the pid of a new process, what is in a file)
comes with the step, so `System.step` is a function.
-/
namespace Runtt

open Interaction

/-- A live proxy. -/
structure Resident where
  pid : Nat
  /-- The invocation that spawned it. -/
  creator : Nat
  proxy : Proxy
  deriving DecidableEq, Repr

/-- One invocation of the runtime. -/
structure Invocation where
  verb : Verb
  told : Told
  rest : Program Sys Sys.Reply (Except Error Unit)
  /-- When it got its last answer. -/
  since : Nat
  /-- Its process is gone. -/
  exited : Bool

/-- Whom a signal reached. -/
inductive Receiver where
  | nobody
  /-- The proxy, as it was before. -/
  | proxy (r : Resident)
  | other
  deriving DecidableEq, Repr

/-- A signal that was sent. -/
structure Delivery where
  sender : Nat
  pid : Nat
  sig : Nat
  time : Nat
  receiver : Receiver
  deriving DecidableEq, Repr

structure System where
  /-- The state file of a container. -/
  files : String → Option State
  proxies : List Resident
  /-- Dead processes that are still in the table. -/
  zombies : List Nat
  /-- Live processes that are not proxies. -/
  others : List Nat
  invocations : List Invocation
  deliveries : List Delivery
  clock : Nat

/-- What the outside decides about a call. -/
inductive Choice where
  /-- The call does what it is for. -/
  | goes
  | fails (e : Error)
  /-- The call fails after it has changed `state.json`. -/
  | failsLate (e : Error)
  | unread (e : String)
  | config (r : ConfigRead)
  | found (b : Bool)
  | exe (r : Except Error String)
  | spawned (pid : Nat)

/-- One step of the system. -/
inductive SystemMove where
  | invoke (v : Verb)
  /-- The invocation gets the answer to its question. -/
  | answer (i : Nat) (c : Choice)
  /-- The process of the invocation is gone, done or not. -/
  | exit (i : Nat)
  /-- A step of a proxy in its start-up or in phase 1. -/
  | advance (pid : Nat)
  /-- A proxy resolves its target on the host as it is by then. -/
  | resolve (pid : Nat) (host : Host)
  | claim (pid : Nat)
  /-- `run` returns outside phase 1. -/
  | finish (pid code : Nat)
  | die (pid : Nat)
  | reap (pid : Nat)
  | fork (pid : Nat)
  | tick (ms : Nat)

/-- The invocation holds the lock. -/
def Told.holds (t : Told) (name : String) : Bool :=
  t.any fun
    | ⟨.claim n, Claim.claimed⟩ => n == name
    | _ => false

namespace System

/-- The system before the first invocation. -/
def initial : System := ⟨fun _ => none, [], [], [], [], [], 0⟩

/-- The pid belongs to a proxy, dead or alive. -/
def ours (sys : System) (pid : Nat) : Bool :=
  sys.proxies.any (fun r => r.pid == pid) || sys.zombies.contains pid

/-- The pid is taken. -/
def taken (sys : System) (pid : Nat) : Bool := sys.ours pid || sys.others.contains pid

/-- The lock file is locked. -/
def locked (sys : System) (name : String) : Bool :=
  sys.proxies.any (fun r => r.proxy.locks.contains name) ||
    sys.invocations.any fun inv => !inv.exited && inv.told.holds name

/-- Change the proxy with that pid. -/
def change (sys : System) (pid : Nat) (f : Proxy → Proxy) : System :=
  { sys with
    proxies := sys.proxies.map fun r => if r.pid = pid then { r with proxy := f r.proxy } else r }

/-- Whom a signal to `pid` reaches. -/
def receiver (sys : System) (pid : Nat) : Receiver :=
  match sys.proxies.find? fun r => r.pid == pid with
  | some r => .proxy r
  | none => if sys.others.contains pid then .other else .nobody

/-- `kill(pid, sig)`, successful. -/
def send (sys : System) (sender pid sig : Nat) : System :=
  { sys.change pid fun p => p.deliver sig with
    deliveries := sys.deliveries ++ [⟨sender, pid, sig, sys.clock, sys.receiver pid⟩] }

/-- `state.json` of a container. -/
def putFile (sys : System) (id : String) (st : Option State) : System :=
  { sys with files := fun id' => if id' = id then st else sys.files id' }

/-- Another invocation for the container is still running. -/
def rival (sys : System) (i : Nat) (id : String) : Bool :=
  (sys.invocations.eraseIdx i).any fun inv => !inv.exited && inv.verb.id == id

/-- The answer to a question of invocation `i`, which got its last answer at `since`. -/
def reply (sys : System) (i since : Nat) : (q : Sys) → Choice → Option (q.Reply × System)
  | .readConfig _, .config r => some (r, sys)
  | .pathExists _, .found b => some (b, sys)
  | .currentExe, .exe r => some (r, sys)
  | .claim name, .goes => if sys.locked name then some (.busy, sys) else some (.claimed, sys)
  | .claim _, .fails e => some (.failed e, sys)
  | .spawn _ args, .spawned pid =>
    if pid = 0 ∨ sys.taken pid = true then none
    else some (.ok pid, { sys with proxies := ⟨pid, i, args.proxy⟩ :: sys.proxies })
  | .spawn _ _, .fails e => some (.error e, sys)
  | .writePidFile _ _, .goes => some (.ok (), sys)
  | .writePidFile _ _, .fails e => some (.error e, sys)
  | .readState id, .goes => (sys.files id).map fun st => (.ok st, sys)
  | .readState _, .unread e => some (.error e, sys)
  | .writeState st, .goes => some (.ok (), sys.putFile st.id (some st))
  | .writeState _, .fails e => some (.error e, sys)
  -- Two writes share a temporary file: one may put the other in place, whose own rename
  -- then fails.
  | .writeState st, .failsLate e =>
    if sys.rival i st.id then some (.error e, sys.putFile st.id (some st)) else none
  | .removeState id, .goes => some (.removed, sys.putFile id none)
  | .removeState _, .fails e => some (.failed e false, sys)
  | .removeState id, .failsLate e => some (.failed e true, sys.putFile id none)
  | .kill pid sig, .goes => if sys.taken pid then some (.ok (), sys.send i pid sig) else none
  | .kill pid _, .fails e => if sys.ours pid then none else some (.error e, sys)
  | .probe pid, .goes => some (sys.taken pid, sys)
  | .probe pid, .fails _ => if sys.ours pid then none else some (false, sys)
  | .now, .goes => some (sys.clock, sys)
  | .sleep ms, .goes => if since + ms ≤ sys.clock then some ((), sys) else none
  | .print _, .goes => some ((), sys)
  | _, _ => none

/-- A step of a proxy. -/
def onProxy (sys : System) (pid : Nat) (f : Proxy → Option Proxy) : Option System :=
  match sys.proxies.find? fun r => r.pid == pid with
  | some r => (f r.proxy).map fun p => sys.change pid fun _ => p
  | none => none

/-- `Target::parse`, `resolve` and `lock_key`. -/
def resolved (host : Host) (p : Proxy) : Option Proxy :=
  match p.stage with
  | .resolving =>
    match Target.parse p.target >>= Resolve.resolve host with
    | .ok r => some { p with stage := .claiming (r.lockKey host) }
    | .error _ => some { p with stage := .exiting 1 }
  | _ => none

/-- `acquire_resolved`. -/
def claimed (sys : System) (p : Proxy) : Option Proxy :=
  match p.stage with
  | .claiming key =>
    if sys.locked (deviceLock key) then some { p with stage := .exiting 1 }
    else some { p with locks := deviceLock key :: p.locks, stage := .deploying }
  | _ => none

/-- `run` returns, with an error unless it was deployed. -/
def finished (code : Nat) (p : Proxy) : Option Proxy :=
  match p.stage with
  | .launching | .installing _ | .resolving | .claiming _ =>
    if code = 0 then none else some { p with stage := .exiting code }
  | .deploying => some { p with stage := .exiting code }
  | _ => none

/-- One step. -/
def step (root : String) (sys : System) : SystemMove → Option System
  | .invoke v =>
    some { sys with invocations := sys.invocations ++
      [⟨v, [], (v.program root).run, sys.clock, false⟩] }
  | .answer i c =>
    match sys.invocations[i]? with
    | some ⟨verb, told, .ask q next, since, false⟩ =>
      (sys.reply i since q c).map fun a =>
        { a.2 with
          invocations :=
            a.2.invocations.set i ⟨verb, told ++ [⟨q, a.1⟩], next a.1, sys.clock, false⟩ }
    | _ => none
  | .exit i =>
    (sys.invocations[i]?).map fun inv =>
      { sys with invocations := sys.invocations.set i { inv with exited := true } }
  | .advance pid => sys.onProxy pid fun p => some p.advance
  | .resolve pid host => sys.onProxy pid (resolved host)
  | .claim pid => sys.onProxy pid sys.claimed
  | .finish pid code => sys.onProxy pid (finished code)
  | .die pid =>
    if sys.taken pid then
      some { sys with
        proxies := sys.proxies.filter fun r => r.pid != pid
        others := sys.others.filter (· != pid)
        zombies := pid :: sys.zombies.filter (· != pid) }
    else none
  | .reap pid => some { sys with zombies := sys.zombies.filter (· != pid) }
  | .fork pid =>
    if pid = 0 ∨ sys.taken pid = true then none else some { sys with others := pid :: sys.others }
  | .tick ms => some { sys with clock := sys.clock + ms }

/-- The invocation that a move answers, and the exchange. -/
def exchange (sys : System) : SystemMove → Option (Nat × Invocation × Exchange Sys.Reply)
  | .answer i c =>
    match sys.invocations[i]? with
    | some ⟨verb, told, .ask q next, since, false⟩ =>
      (sys.reply i since q c).map fun a =>
        (i, ⟨verb, told, .ask q next, since, false⟩, ⟨q, a.1⟩)
    | _ => none
  | _ => none

/-- A condition on the exchange that a move brings about. -/
def checks (p : System → Invocation → Exchange Sys.Reply → Bool) (sys : System) (m : SystemMove) :
    Bool :=
  match sys.exchange m with
  | some (_, inv, x) => p sys inv x
  | none => true

end System
end Runtt
