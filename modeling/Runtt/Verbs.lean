import Runtt.Guarantee
import Runtt.Proxy
import Runtt.Target

/-! # The five verbs

`verbs.rs`, with what it uses of `state.rs`, `lock.rs` and `proxy.rs`.  Each verb is a
process of its own that shares nothing with the others but files, locks and signals, so a
verb is a program that asks the system: one question for each file it reads or writes,
each lock, each signal and each look at the clock.

A lock file stands for the descriptor that holds it.  What is only logged is left out.
-/
namespace Runtt

open Interaction Program

/-! ## Annotations, and the state of a container -/

def SPEC_TARGET : String := "dev.runtt.target"
def SPEC_SKIP_IF_SAME : String := "dev.runtt.skip-if-same-hash"
def SPEC_LOG_TARGET : String := "dev.runtt.log-target"
def STATE_TARGET : String := "dev.runtt.target"
def STATE_FIRMWARE_PATH : String := "dev.runtt.firmware-path"

/-- What is read of `config.json`. -/
structure Spec where
  annotations : Option (List (String × String))
  args : Option (List String)
  root : Option String
  deriving DecidableEq, Repr

/-- `spec.annotations().as_ref().and_then(|a| a.get(key)).cloned()`. -/
def Spec.annotation (spec : Spec) (key : String) : Option String :=
  spec.annotations.bind fun a => (a.find? fun kv => kv.1 == key).map Prod.snd

inductive ContainerState where
  | creating
  | created
  | running
  | stopped
  deriving DecidableEq, Repr

def ContainerState.display : ContainerState → String
  | .creating => "creating"
  | .created => "created"
  | .running => "running"
  | .stopped => "stopped"

/-- `state.json`. -/
structure State where
  id : String
  status : ContainerState
  pid : Option Nat
  bundle : String
  annotations : List (String × String)
  deriving DecidableEq, Repr

/-- `new_state`. -/
def newState (id bundle : String) : State := ⟨id, .creating, none, bundle, []⟩

/-- `set_annotation`. -/
def setAnnotation (st : State) (key value : String) : State :=
  { st with annotations := (key, value) :: st.annotations.filter fun kv => kv.1 != key }

/-- `validate_container_id`. -/
def validateContainerId (id : String) : Except Error Unit :=
  match id.toList with
  | [] => .error ["container id must not be empty"]
  | first :: chars =>
    if 1024 < id.utf8ByteSize then
      .error [s!"container id is too long ({id.utf8ByteSize} bytes, max 1024)"]
    else if !first.isAlphanum then
      .error [s!"container id {debugStr id} must start with an alphanumeric character"]
    else
      match chars.find? fun c => !(c.isAlphanum || c == '_' || c == '.' || c == '-') with
      | some c =>
        .error [s!"container id {debugStr id} contains disallowed character {debugChar c}"]
      | none => .ok ()

/-! ## What a verb asks -/

/-- The arguments of the resident proxy. -/
structure SpawnArgs where
  containerId : String
  target : String
  firmware : String
  skipIfSame : Bool
  logTarget : Option String
  lock : String
  deriving DecidableEq, Repr

/-- The proxy as it is spawned. -/
def SpawnArgs.proxy (a : SpawnArgs) : Proxy :=
  ⟨a.containerId, a.target, a.firmware, a.skipIfSame, a.logTarget, [a.lock], .launching, 0⟩

/-- Reading and parsing `config.json`. -/
inductive ConfigRead where
  | unreadable (e : Error)
  | malformed (e : Error)
  | spec (s : Spec)
  deriving DecidableEq, Repr

/-- Opening a lock file and `flock`ing it. -/
inductive Claim where
  | claimed
  /-- `EWOULDBLOCK`. -/
  | busy
  /-- Anything else: the directory, the file, the descriptor's flags. -/
  | failed (e : Error)
  deriving DecidableEq, Repr

/-- Removing a state directory. -/
inductive Removal where
  | removed
  /-- `gone` is whether `state.json` was among what was removed by then. -/
  | failed (e : Error) (gone : Bool)
  deriving DecidableEq, Repr

/-- A question to the system. -/
inductive Sys where
  | readConfig (path : String)
  | pathExists (path : String)
  | currentExe
  | claim (name : String)
  | spawn (exe : String) (args : SpawnArgs)
  | writePidFile (path : String) (pid : Nat)
  | readState (id : String)
  | writeState (st : State)
  | removeState (id : String)
  | kill (pid sig : Nat)
  /-- `kill(pid, 0)`. -/
  | probe (pid : Nat)
  | now
  | sleep (ms : Nat)
  | print (st : State)
  deriving DecidableEq, Repr

/-- What comes back. -/
abbrev Sys.Reply : Sys → Type
  | .readConfig _ => ConfigRead
  | .pathExists _ => Bool
  | .currentExe => Except Error String
  | .claim _ => Claim
  | .spawn _ _ => Except Error Nat
  | .writePidFile _ _ => Except Error Unit
  | .readState _ => Except String State
  | .writeState _ => Except Error Unit
  | .removeState _ => Removal
  | .kill _ _ => Except Error Unit
  | .probe _ => Bool
  | .now => Nat
  | .sleep _ => Unit
  | .print _ => Unit

abbrev SysM := ExceptT Error (Program Sys Sys.Reply)

namespace SysM

/-- Ask the system. -/
def ask (q : Sys) : SysM q.Reply := question q

/-- `?` on a value that needs nothing of the system. -/
def fromExcept {α : Type} : Except Error α → SysM α
  | .ok a => pure a
  | .error e => throw e

/-- `Context::context`. -/
def context {α : Type} (msg : String) (p : SysM α) : SysM α :=
  rescue p fun e => throw (msg :: e)

end SysM

open SysM

/-! ## State files -/

/-- `state_file`. -/
def stateFile (root id : String) : String := Text.join (Text.join root id) "state.json"

/-- `state::write`. -/
def writeState (st : State) : SysM Unit := do
  fromExcept (validateContainerId st.id)
  let r : Except Error Unit ← ask (.writeState st)
  match r with
  | .ok () => return ()
  | .error e => throw e

/-- `state::read`. -/
def readState (root id : String) : SysM State := do
  fromExcept (validateContainerId id)
  let r : Except String State ← ask (.readState id)
  match r with
  | .ok st => return st
  | .error e => throw [s!"failed to read {stateFile root id}: {e}"]

/-- `state::remove`. -/
def removeState (id : String) : SysM Unit := do
  fromExcept (validateContainerId id)
  let r : Removal ← ask (.removeState id)
  match r with
  | .removed => return ()
  | .failed e _ => throw e

/-! ## Locks -/

/-- `sanitise`. -/
def sanitise (s : String) : String :=
  String.ofList (s.toList.map fun c => if c.isAlphanum || c == '-' || c == '.' then c else '_')

/-- `lock_name`. -/
def lockName (target : String) : String := "occupancy-" ++ sanitise target ++ ".lock"

/-- The lock file of a resolved board. -/
def deviceLock (key : String) : String := "device-" ++ sanitise key

/-- `acquire_named`. -/
def acquireNamed (name : String) : SysM String := do
  let r : Claim ← ask (.claim name)
  match r with
  | .claimed => return name
  | .busy =>
    throw ["already claimed by another service (exclusive occupancy: one service = one MCU)"]
  | .failed e => throw e

/-- `acquire`. -/
def acquire (target : String) : SysM String :=
  rescue (acquireNamed (lockName target)) fun e =>
    if Text.contains (e.headD "") "already claimed" then
      throw [s!"target {target} is already claimed by another service " ++
        "(exclusive occupancy: one service = one MCU)"]
    else throw e

/-! ## Signals -/

/-- `proxy::signal`. -/
def signal (pid sig : Nat) : SysM Unit := do
  let r : Except Error Unit ← ask (.kill pid sig)
  match r with
  | .ok () => return ()
  | .error e => throw (s!"failed to signal pid {pid}" :: e)

/-- `is_alive`. -/
def isAlive (pid : Nat) : SysM Bool :=
  if 0 < pid then ask (.probe pid) else return false

/-- `while Instant::now() < deadline` of `await_exit`: whether the process was seen gone.
Every round sleeps, so that the deadline has passed after `timeout / 20` of them. -/
def awaitLoop (pid deadline : Nat) : Nat → SysM Bool
  | 0 => return false
  | rounds + 1 => do
    let now : Nat ← ask .now
    if now < deadline then
      if !(← isAlive pid) then return true
      else
        let _ : Unit ← ask (.sleep 20)
        awaitLoop pid deadline rounds
    else return false

/-- `await_exit`, the timeout in milliseconds. -/
def awaitExit (pid timeout : Nat) : SysM Bool := do
  let now : Nat ← ask .now
  if ← awaitLoop pid (now + timeout) (timeout / 20) then return true
  else
    let stillRunning ← isAlive pid
    return !stillRunning

/-- `parse_signal`: any number from 1 to 64, or a name. -/
def parseSignal (input : String) : Except Error Nat :=
  let raw := Text.trim input
  match Text.parseI32 raw with
  | some n =>
    if 1 ≤ n ∧ n ≤ 64 then .ok n.toNat
    else .error [s!"signal number {n} is out of range (1-64)"]
  | none =>
    let upper := Text.toAsciiUppercase raw
    let name := (Text.stripPrefix upper "SIG").getD upper
    if name = "HUP" then .ok 1
    else if name = "INT" then .ok SIGINT
    else if name = "QUIT" then .ok 3
    else if name = "ABRT" then .ok 6
    else if name = "KILL" then .ok SIGKILL
    else if name = "USR1" then .ok SIGUSR1
    else if name = "USR2" then .ok 12
    else if name = "TERM" then .ok SIGTERM
    else if name = "CONT" then .ok 18
    else if name = "STOP" then .ok 19
    else if name = "TSTP" then .ok 20
    else if name = "WINCH" then .ok 28
    else .error [s!"unrecognised signal name {debugStr name}"]

/-! ## The verbs -/

/-- `locate_firmware`. -/
def locateFirmware (spec : Spec) (bundle : String) : SysM String := do
  match spec.args.getD [] with
  | [arg] =>
    match spec.root with
    | none => throw ["spec has no root path"]
    | some root =>
      let rootfs := if Text.startsWith root "/" then root else Text.join bundle root
      let path := Text.join rootfs arg
      let found : Bool ← ask (.pathExists path)
      if !found then
        throw [s!"firmware image {path} does not exist in the container rootfs"]
      else return path
  | args =>
    throw ["expected exactly one entrypoint argument naming the firmware image, got [" ++
      ", ".intercalate (args.map debugStr) ++ "]. A firmware image should be `FROM scratch` " ++
      "with ENTRYPOINT [\"app.signed.bin\"]"]

/-- Reading the spec of a bundle. -/
def readSpec (bundle : String) : SysM Spec := do
  let path := Text.join bundle "config.json"
  let r : ConfigRead ← ask (.readConfig path)
  match r with
  | .unreadable e => throw (s!"failed to read {path}" :: e)
  | .malformed e => throw (s!"failed to parse {path}" :: e)
  | .spec s => return s

/-- `skip_if_same`: on unless the annotation says otherwise. -/
def skipIfSame (spec : Spec) : Bool :=
  match spec.annotation SPEC_SKIP_IF_SAME with
  | none => true
  | some v => Text.toAsciiLowercase (Text.trim v) ∉ ["false", "0", "no"]

/-- A malformed log target fails here rather than halfway through a deploy. -/
def checkLogTarget : Option String → SysM Unit
  | none => return ()
  | some lt =>
    SysM.context s!"{SPEC_LOG_TARGET} is not a valid target" do
      let _ ← fromExcept (Target.parse lt)

/-- What `create` makes of the spec: the arguments of the proxy, but for the lock. -/
def createArgs (id bundle : String) : SysM SpawnArgs := do
  let spec ← readSpec bundle
  match spec.annotation SPEC_TARGET with
  | none =>
    throw [s!"missing required annotation {SPEC_TARGET}: the firmware service must declare " ++
      s!"which MCU it targets, e.g. {SPEC_TARGET}=usb:3-6"]
  | some target =>
    let _ ← fromExcept (Target.parse target)
    let firmware ← locateFirmware spec bundle
    let logTarget := spec.annotation SPEC_LOG_TARGET
    checkLogTarget logTarget
    return ⟨id, target, firmware, skipIfSame spec, logTarget, ""⟩

/-- `proxy::spawn`. -/
def spawn (args : SpawnArgs) : SysM Nat := do
  let r : Except Error String ← ask .currentExe
  match r with
  | .error e => throw ("failed to resolve own executable path" :: e)
  | .ok exe =>
    let r : Except Error Nat ← ask (.spawn exe args)
    match r with
    | .error e => throw ("failed to spawn proxy" :: e)
    | .ok pid => return pid

/-- The state `create` records. -/
def createdState (bundle : String) (args : SpawnArgs) (pid : Nat) : State :=
  let st := { newState args.containerId bundle with status := .created, pid := some pid }
  let st := setAnnotation st STATE_TARGET args.target
  setAnnotation st STATE_FIRMWARE_PATH args.firmware

/-- What `create` does under the guard. -/
def recordCreated (bundle : String) (pidFile : Option String) (args : SpawnArgs) (pid : Nat) :
    SysM Unit := do
  writeState (createdState bundle args pid)
  match pidFile with
  | none => return ()
  | some path =>
    let r : Except Error Unit ← ask (.writePidFile path pid)
    match r with
    | .ok () => return ()
    | .error e => throw (s!"failed to write pid file {path}" :: e)

/-- `create`. -/
def create (id bundle : String) (pidFile : Option String) : SysM Unit := do
  fromExcept (validateContainerId id)
  let args ← createArgs id bundle
  let lock ← acquire args.target
  let args := { args with lock := lock }
  let pid ← SysM.context "failed to spawn the resident proxy process" (spawn args)
  -- `SpawnGuard`: a failure from here on kills the proxy, and its own failure is ignored.
  rescue (recordCreated bundle pidFile args pid) fun e => do
    let _ ← ask (.kill pid SIGKILL)
    throw e

/-- `start`. -/
def start (root id : String) : SysM Unit := do
  let st ← readState root id
  if st.status ≠ .created then
    throw [s!"cannot start container {id}: status is {st.status.display}, expected created"]
  else
    match st.pid with
    | none => throw [s!"state for {id} has no pid"]
    | some pid =>
      SysM.context s!"failed to signal proxy {pid}" (signal pid SIGUSR1)
      writeState { st with status := .running }

/-- `print_state`. -/
def printState (root id : String) : SysM Unit := do
  let st ← readState root id
  if st.status = .running then
    match st.pid with
    | none => ask (.print st)
    | some pid =>
      if ← isAlive pid then ask (.print st)
      else ask (.print { st with status := .stopped })
  else ask (.print st)

/-- Whether the recorded process is alive. -/
def recordedAlive (st : State) : SysM Bool :=
  match st.pid with
  | none => return false
  | some pid => isAlive pid

/-- The end of `kill`. -/
def killRecord (st : State) (sig : Nat) : SysM Unit :=
  if sig = SIGKILL ∨ sig = SIGTERM ∨ sig = SIGINT then writeState { st with status := .stopped }
  else return ()

/-- `kill`. -/
def kill (root id sigText : String) : SysM Unit := do
  let st ← readState root id
  let sig ← fromExcept (parseSignal sigText)
  match st.pid with
  | none => killRecord st sig
  | some pid =>
    if ← isAlive pid then
      SysM.context s!"failed to send {sigText} to proxy {pid}" (signal pid sig)
      killRecord st sig
    else killRecord st sig

/-- `delete`, with the state it read. -/
def deleteRecorded (id : String) (force : Bool) (st : State) : SysM Unit := do
  let alive ← recordedAlive st
  if st.status = .running ∧ alive = true ∧ force = false then
    throw [s!"cannot delete running container {id} (use --force)"]
  else
    match st.pid with
    | some pid =>
      if alive then
        -- The failure of the signal and the result of the wait are ignored.
        let _ ← ask (.kill pid SIGKILL)
        let _ ← awaitExit pid 5000
        removeState id
      else removeState id
    | none => removeState id

/-- `delete`. -/
def delete (root id : String) (force : Bool) : SysM Unit := do
  let st? ← rescue (do return some (← readState root id)) fun e =>
    if force then return none else throw e
  match st? with
  | none => return ()
  | some st => deleteRecorded id force st

/-- An invocation of the runtime. -/
inductive Verb where
  | create (id bundle : String) (pidFile : Option String)
  | start (id : String)
  | state (id : String)
  | kill (id sigText : String)
  | delete (id : String) (force : Bool)
  deriving DecidableEq, Repr

namespace Verb

/-- The container it is about. -/
def id : Verb → String
  | .create id _ _ | .start id | .state id | .kill id _ | .delete id _ => id

/-- Its program. -/
def program (root : String) : Verb → SysM Unit
  | .create id bundle pidFile => Runtt.create id bundle pidFile
  | .start id => Runtt.start root id
  | .state id => Runtt.printState root id
  | .kill id sigText => Runtt.kill root id sigText
  | .delete id force => Runtt.delete root id force

end Verb
end Runtt
