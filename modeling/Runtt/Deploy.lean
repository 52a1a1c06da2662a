import Runtt.SmpClient
import Runtt.Mcuboot

/-! # The deploy sequence

`runtt::flash::Deploy`.  The ordering here *is* the safety property:

```text
upload to the staging slot
mark it TEST            (never confirm yet)
reset
wait for it to enumerate, speak SMP and heartbeat
only then CONFIRM
```

`Deploy.run` is the source's function cut at its comments into the stretches
between two returns: `vet` up to the last check before the upload, `stage` up to
the test mark, `confirm` from the list after the reset to the end.  Clients are
dropped where their scope ends, which is why `stage` and the rest run under
`holdingClient`.

What is printed or logged is left out.
-/
namespace Runtt

open Interaction Program

/-- The wire-contract major version this runtime implements. -/
def CONTRACT_MAJOR : Nat := 2

/-- How long to wait for a board to come back after a reset, in milliseconds. -/
def REBOOT_GRACE : Nat := 30000

/-- The sleep at the head of each poll of `reconnect`, in milliseconds. -/
def RECONNECT_POLL : Nat := 500

/-- Open the management channel, whichever transport it lives on. -/
def connect : SmpM Unit := do
  ExceptT.mk (.ask .openChannel fun r => .done (r.mapError .error))
  ToolkitClient.tuneFrameSize

/-- The first active slot of an image list. -/
def activeSlot (slots : List ImageSlot) : Option ImageSlot := slots.find? (·.active)

/-- The first slot of an image list that holds `digest`. -/
def slotHolding (digest : Bytes) (slots : List ImageSlot) : Option ImageSlot :=
  slots.find? (·.hash == some digest)

/-- Refuse to confirm an image whose contract this runtime does not implement.  A
device that does not answer describe is allowed through. -/
def confirmContractMatches : SmpM Unit := do
  match ← SmpM.result ToolkitClient.describe with
  | .error _ => return ()
  | .ok d =>
    match contractMajor d.contract with
    | none => SmpM.bail ("the deployed image reported an unparseable contract version " ++
        debugStr d.contract)
    | some major =>
      if major ≠ CONTRACT_MAJOR then
        SmpM.bail ("refusing to confirm: the image now running speaks contract " ++ d.contract ++
          " but this runtime implements major " ++ toString CONTRACT_MAJOR ++
          ". It is staged but not confirmed, so the bootloader will revert to the previous " ++
          "firmware on the next boot and the device stays usable. Deploy an image built against " ++
          "contract major " ++ toString CONTRACT_MAJOR ++ ".")
      else return ()

/-- Query the device's own account of itself.  Firmware predating the describe
command is tolerated, and so is another contract major; an unparseable contract and
a device without image management are not. -/
def identify : SmpM Unit := do
  match ← SmpM.result ToolkitClient.describe with
  | .error _ => return ()
  | .ok d =>
    match contractMajor d.contract with
    | none => SmpM.bail ("device reported an unparseable contract version " ++
        debugStr d.contract)
    | some _ =>
      -- Another major is deliberately not fatal here: the check belongs at the
      -- confirm gate, where refusing has a safe outcome.
      if d.img = some false then
        SmpM.bail (d.board ++ " is running a bring-up configuration: it reports contract " ++
          d.contract ++ " with no image management, so it can be identified and its logs read " ++
          "but it cannot receive firmware. That happens when the board has no secondary slot to " ++
          "stage into. Build for a target that has one -- for a Pico that is " ++
          "rpi_pico/rp2040/mcuboot under sysbuild rather than plain rpi_pico.")
      else return ()

/-- One poll of `reconnect`: connect, and echo on the new client. -/
def reconnectPoll : SmpM Unit := do
  connect
  SmpM.holdingClient (do
    let _ ← ToolkitClient.echo "runtt"
    return ())

/-- The end of `reconnect` after the deadline. -/
def timedOut (lastErr : Option Failure) : SmpM Unit :=
  match lastErr with
  | some e => throw (e.context "timed out waiting for the device to return")
  | none => SmpM.bail "timed out waiting for the device to return"

/-- The loop of `reconnect`.  Each poll sleeps first, so that the deadline has
passed after `REBOOT_GRACE / RECONNECT_POLL` of them at the latest. -/
def reconnectLoop : Nat → Option Failure → SmpM Unit
  | 0, lastErr => timedOut lastErr
  | polls + 1, lastErr => do
    let passed : Bool ← ExceptT.mk (.ask .deadlinePassed fun b => .done (.ok b))
    if passed then timedOut lastErr
    else
      match ← SmpM.result reconnectPoll with
      | .ok () => return ()
      | .error e => reconnectLoop polls (some e)

/-- Poll for the device to reappear and answer, within the reboot grace period. -/
def reconnect : SmpM Unit := reconnectLoop (REBOOT_GRACE / RECONNECT_POLL) none

structure Deploy where
  /-- What `self.firmware.display()` shows. -/
  firmwarePath : String
  /-- What `fs::read` makes of it. -/
  firmware : Except Error Bytes
  /-- Skip the upload when the device already runs this exact digest, confirmed. -/
  skipIfSame : Bool

/-- How the checks before the upload end. -/
inductive Vetted where
  | nothingToDo
  | proceed
  deriving DecidableEq

/-- How the upload and the test mark end. -/
inductive Staged where
  | writtenDirectly
  | markedTest
  deriving DecidableEq

namespace Deploy

/-- Read and parse the firmware: its bytes and its MCUboot digest. -/
def load (d : Deploy) : SmpM (Bytes × Bytes) := do
  match d.firmware with
  | .error e => throw (.error (("failed to read firmware " ++ d.firmwarePath) :: e))
  | .ok image =>
    match Mcuboot.parse image with
    | .error halt => throw (.halted halt)
    | .ok (.error e) => throw (.error ((d.firmwarePath ++ " is not a valid MCUboot image. A " ++
        "firmware service must ship an                  imgtool-signed image, not a raw " ++
        "binary.") :: e))
    | .ok (.ok info) => return (image, info.digest)

/-- From the echo to the last check before the upload. -/
def vet (d : Deploy) (digest : Bytes) : SmpM Vetted := do
  let _ ← SmpM.context "the device did not answer an SMP echo; is the firmware contract present?"
    (ToolkitClient.echo "runtt")
  -- Identify the device before writing anything to it.
  identify
  let slots ← ToolkitClient.imageList
  -- Already running exactly this image, confirmed? Then there is nothing to do.
  if d.skipIfSame && (activeSlot slots).any (fun active =>
      active.hash == some digest && active.confirmed) then
    return .nothingToDo
  -- Refuse to reflash a digest the device has already rejected.
  else if slots.any (fun s => s.hash == some digest && !s.bootable) then
    SmpM.bail ("this exact image (" ++ hex digest ++ ") is already present and marked " ++
      "unbootable; refusing to reflash it. Push a different release.")
  else return .proceed

/-- From the upload to the test mark. -/
def stage (image digest : Bytes) : SmpM Staged := do
  SmpM.context "firmware upload failed" (ToolkitClient.flash image)
  -- Cross-check what actually landed against what was sent.
  let slots ← ToolkitClient.imageList
  match slotHolding digest slots with
  | none => SmpM.bail ("after upload the device reports no image with digest " ++ hex digest ++
      ". The upload did not land where expected.")
  | some landed =>
    -- Already running it, confirmed? Then a bootloader wrote it directly.
    if landed.active && landed.confirmed then return .writtenDirectly
    else
      -- Mark TEST, never confirm. This is the invariant.
      SmpM.context "failed to mark the uploaded image for test"
        (ToolkitClient.setState digest false)
      return .markedTest

/-- From the image list after the reset to the end. -/
def confirm (digest : Bytes) : SmpM Unit := do
  let slots ← ToolkitClient.imageList
  match activeSlot slots with
  | none =>
    -- Two very different situations, with opposite remedies.
    if slots.any (fun s => s.hash == some digest && s.pending) then
      SmpM.bail ("the image is staged and marked pending, but nothing swapped it in: no image is " ++
        "active after the reset. On a target with no bootloader this is expected and " ++
        "swap/confirm are unreachable by construction (native_sim cannot chain-load MCUboot). " ++
        "On real hardware it means MCUboot did not run -- check it is actually flashed, and that " ++
        "its swap mode matches the mode the image was built for.")
    else
      SmpM.bail ("no image is active after the reset, and our staged image is not pending either " ++
        "-- the upload appears to have been lost.")
  | some active =>
    if active.hash ≠ some digest then
      SmpM.bail ("after reset the device is running digest " ++
        (active.hash.map hex).getD "<none>" ++ " but we deployed " ++ hex digest ++
        ". The bootloader rejected or reverted the image.")
    else
      -- It enumerated, spoke SMP and answered. One thing left.
      confirmContractMatches
      SmpM.context "failed to confirm the running image" (ToolkitClient.setState digest true)

/-- `c.reset().context(..)`. -/
def resetDevice : SmpM Unit := SmpM.context "failed to reset the device" ToolkitClient.reset

/-- `self.reconnect().context(..)`. -/
def awaitReturn : SmpM Unit := SmpM.context "device did not come back after reset" reconnect

/-- What follows the checks: upload, mark, reset, reconnect, confirm. -/
def install (image digest : Bytes) : SmpM Unit := do
  match ← SmpM.holdingClient (stage image digest) with
  | .writtenDirectly =>
    -- The first client is still in scope while `reconnect` opens the second.
    SmpM.thenDrop (do
      resetDevice
      awaitReturn)
  | .markedTest =>
    SmpM.holdingClient resetDevice
    ExceptT.mk (.ask .drop fun _ => .done (.ok ()))
    -- The device is rebooting; the port may disappear and come back.
    awaitReturn
    SmpM.holdingClient (confirm digest)

/-- Flash, verify and confirm. -/
def run (d : Deploy) : SmpM Unit := do
  let (image, digest) ← d.load
  connect
  match ← SmpM.holdingClient (d.vet digest) with
  | .nothingToDo => return ()
  | .proceed => install image digest

end Deploy
end Runtt
