import Runtt.Mcuboot

/-! # The emulated image-slot state machine

`runtt_mock::device`: two slots, an upload in progress, and the bootloader's
decision at a reset.

```text
upload -> slot1
set_state(hash, confirm=false)  => slot1 pending,  not permanent   [TEST]
reset  => slot1 swaps into slot0, active, NOT confirmed
  confirm  => confirmed, permanent                                 [CONFIRMED]
  no confirm, next reset => the old image swaps back               [REVERT]

set_state(hash, confirm=true) => pending and permanent             [PERMANENT]
```

`sha256` is the hash the mock takes from the `sha2` crate.  No result depends on
which function it is.
-/
namespace Runtt

/-- `faults.rs`: what the mock should do wrong. -/
inductive Fault where
  /-- Behave correctly. -/
  | none
  /-- Stop responding after this many upload chunks have been accepted. -/
  | disconnectMidUpload (afterChunks : UInt32)
  /-- Accept the whole image but report `match: false`. -/
  | badHash
  /-- Reply `off: 0` once, when the client reaches this offset. -/
  | restartUpload (atOffset : Nat)
  /-- Never answer a particular command. -/
  | timeout (group : UInt16) (cmd : UInt8)
  /-- Boot the new image once, then revert on the next reset. -/
  | revertOnBoot
  /-- Refuse to mark an image whose digest already failed once. -/
  | digestAlreadyFailed
  deriving DecidableEq, Repr

structure Image where
  version : String
  hash : Bytes
  bytes : Nat
  bootable : Bool
  pending : Bool
  confirmed : Bool
  permanent : Bool
  deriving DecidableEq, Repr

/-- An in-progress upload. -/
structure Upload where
  expectedLen : Nat
  declaredSha : Option Bytes
  received : Bytes
  chunks : UInt32
  /-- Set once a restart was demanded, so that it is demanded once. -/
  restartDemanded : Bool
  deriving DecidableEq, Repr

/-- `Upload::default`. -/
def Upload.empty : Upload := ⟨0, none, [], 0, false⟩

structure Device where
  /-- slot 0 — the running image. -/
  slot0 : Option Image
  /-- slot 1 — the staging slot. -/
  slot1 : Option Image
  upload : Upload
  fault : Fault
  /-- Digests that have already failed to boot. -/
  failedDigests : List Bytes
  resets : UInt32
  /-- True once a test-marked image has booted but not yet been confirmed. -/
  awaitingConfirm : Bool
  deriving DecidableEq, Repr

inductive UploadOutcome where
  /-- Keep going from this offset. -/
  | continueAt (off : Nat)
  /-- Image fully received; `matched` reports the digest check. -/
  | complete (off : Nat) (matched : Bool)
  /-- Stop answering entirely. -/
  | goSilent
  deriving DecidableEq, Repr

/-- `b"factory-image"`. -/
def FACTORY_IMAGE : Bytes := [102, 97, 99, 116, 111, 114, 121, 45, 105, 109, 97, 103, 101]

section Hashing
variable (sha256 : Bytes → Bytes)

/-- Build an image record the way a real device would: the hash is the MCUboot
digest, or the hash of the bytes when they are no MCUboot image. -/
def Image.fromBytes (data : Bytes) (fallbackVersion : String) : Except Halt Image := do
  let (hash, version) :=
    match ← Mcuboot.parse data with
    | .ok info => (info.digest, info.version)
    | .error _ => (sha256 data, fallbackVersion)
  return { version, hash, bytes := data.length, bootable := true, pending := false,
           confirmed := false, permanent := false }

/-- The record `from_bytes` builds for the factory image, which is no MCUboot
image: too short for a header. -/
def factoryImage : Image :=
  { version := "1.0.0+factory", hash := sha256 FACTORY_IMAGE, bytes := FACTORY_IMAGE.length,
    bootable := true, pending := false, confirmed := true, permanent := true }

/-- A freshly provisioned board: a confirmed image in slot 0, nothing staged. -/
def Device.provisioned (fault : Fault) : Except Halt Device := do
  let img ← Image.fromBytes sha256 FACTORY_IMAGE "1.0.0+factory"
  return { slot0 := some { img with confirmed := true, permanent := true }, slot1 := none,
           upload := .empty, fault, failedDigests := [], resets := 0, awaitingConfirm := false }

namespace Device

/-- A restart of the upload, whether the client's idea or ours. -/
def restartUpload (dev : Device) (len : Option Nat) (sha : Option Bytes) : Device :=
  { dev with upload := { expectedLen := len.getD 0, declaredSha := sha, received := [],
                         chunks := 0, restartDemanded := dev.upload.restartDemanded } }

/-- `Fault::RestartUpload` demands a full restart once, at a chosen offset. -/
def demandsRestart (dev : Device) (off : Nat) : Bool :=
  match dev.fault with
  | .restartUpload atOffset => !dev.upload.restartDemanded && atOffset ≤ off && 0 < off
  | _ => false

/-- `received.extend_from_slice(data)`, and one more chunk counted. -/
def receive (dev : Device) (data : Bytes) : Device :=
  { dev with upload := { dev.upload with received := dev.upload.received ++ data,
                                         chunks := dev.upload.chunks + 1 } }

/-- `Fault::DisconnectMidUpload` goes silent partway through. -/
def goesSilent (dev : Device) : Bool :=
  match dev.fault with
  | .disconnectMidUpload afterChunks => afterChunks ≤ dev.upload.chunks
  | _ => false

/-- All the bytes declared up front have arrived. -/
def uploadComplete (dev : Device) : Bool :=
  0 < dev.upload.expectedLen && dev.upload.expectedLen ≤ dev.upload.received.length

/-- The digest the client declared up front is that of the received bytes. -/
def uploadMatches (dev : Device) : Bool :=
  match dev.fault with
  | .badHash => false
  | _ => dev.upload.declaredSha == some (sha256 dev.upload.received)

/-- `upload_chunk` from the point where the offset is in step. -/
def acceptChunk (dev : Device) (off : Nat) (data : Bytes) :
    Except Halt (UploadOutcome × Device) :=
  if dev.demandsRestart off then
    .ok (.continueAt 0,
      { dev with upload := { dev.upload with restartDemanded := true, received := [] } })
  else
    let dev := dev.receive data
    if dev.goesSilent then
      .ok (.goSilent, dev)
    else if !dev.uploadComplete then
      .ok (.continueAt dev.upload.received.length, dev)
    else if dev.uploadMatches sha256 then do
      let img ← Image.fromBytes sha256 dev.upload.received "2.0.0+staged"
      return (.complete dev.upload.received.length true, { dev with slot1 := some img })
    else
      .ok (.complete dev.upload.received.length false, dev)

/-- Accept an upload chunk.  Returns the offset the client should continue from,
and whether the digest matched once the image is complete. -/
def uploadChunk (dev : Device) (off : Nat) (len : Option Nat) (sha : Option Bytes)
    (data : Bytes) : Except Halt (UploadOutcome × Device) :=
  if off = 0 then
    (dev.restartUpload len sha).acceptChunk sha256 off data
  else if off ≠ dev.upload.received.length then
    .ok (.continueAt dev.upload.received.length, dev)
  else
    dev.acceptChunk sha256 off data

end Device
end Hashing

namespace Device

/-- The `match` on slot 1 at the end of `set_state`. -/
def markStaged (dev : Device) (hash : Bytes) (confirm : Bool) : Except String Unit × Device :=
  match dev.slot1 with
  | some s1 =>
    if s1.hash = hash then
      (.ok (), { dev with slot1 := some { s1 with pending := true, permanent := confirm } })
    else (.error "no image with that digest in a slot", dev)
  | none => (.error "no image with that digest in a slot", dev)

/-- Mark an image by digest. `confirm=false` is test, `true` is permanent. -/
def setState (dev : Device) (hash : Option Bytes) (confirm : Bool) :
    Except String Unit × Device :=
  match hash with
  | none =>
    -- No hash means "confirm the running image".
    match dev.slot0 with
    | some s0 =>
      (.ok (), { dev with slot0 := some { s0 with confirmed := true, permanent := true },
                          awaitingConfirm := false })
    | none => (.error "no running image to confirm", dev)
  | some hash =>
    if dev.fault = .digestAlreadyFailed ∧ hash ∈ dev.failedDigests then
      (.error "image with this digest already failed to boot", dev)
    else
      match dev.slot0 with
      | some s0 =>
        if s0.hash = hash then
          -- Confirming the image that is already running.
          (.ok (), { dev with slot0 := some { s0 with confirmed := true, permanent := true },
                              awaitingConfirm := false })
        else dev.markStaged hash confirm
      | none => dev.markStaged hash confirm

/-- Reset: run MCUboot's decision, then boot. -/
def reset (dev : Device) : Device :=
  let dev := { dev with resets := dev.resets + 1 }
  if dev.awaitingConfirm then
    -- An unconfirmed image that already booted once reverts now.
    match dev.slot0 with
    | some bad =>
      { dev with failedDigests := dev.failedDigests ++ [bad.hash], slot0 := dev.slot1,
                 slot1 := some bad, awaitingConfirm := false }
    | none => { dev with awaitingConfirm := false }
  else
    match dev.slot1 with
    | some incoming =>
      if incoming.pending then
        -- A pending image swaps in.
        { dev with slot0 := some { incoming with pending := false,
                                                 confirmed := incoming.permanent },
                   slot1 := dev.slot0,
                   awaitingConfirm := !incoming.permanent || dev.fault == .revertOnBoot }
      else dev
    | none => dev

/-- `IMG_ERASE`: slot 1 is emptied. -/
def erase (dev : Device) : Device := { dev with slot1 := none }

end Device

/-- One line of the img group's state read. -/
structure SlotReport where
  slot : Nat
  active : Bool
  img : Image
  deriving DecidableEq, Repr

/-- The img group's state read. -/
def Device.imageStates (dev : Device) : List SlotReport :=
  (dev.slot0.toList.map fun s => ⟨0, true, s⟩) ++ (dev.slot1.toList.map fun s => ⟨1, false, s⟩)

/-! ## What one operation can do -/

/-- A record fresh from `from_bytes`: bootable, and none of the three marks. -/
structure Image.Fresh (img : Image) : Prop where
  bootable : img.bootable = true
  pending : img.pending = false
  confirmed : img.confirmed = false
  permanent : img.permanent = false

namespace Image
variable {sha256 : Bytes → Bytes}

theorem fresh_of_fromBytes {data : Bytes} {v : String} {img : Image}
    (h : fromBytes sha256 data v = .ok img) : img.Fresh := by
  unfold fromBytes at h
  cases hp : Mcuboot.parse data with
  | error e =>
    rw [hp] at h
    cases h
  | ok r =>
    rw [hp] at h
    cases h
    exact ⟨rfl, rfl, rfl, rfl⟩

/-- **A file `mcuboot::parse` accepts is recorded under its MCUboot digest**, not
under the hash of its bytes. -/
theorem fromBytes_of_accepts {data d : Bytes} (h : Mcuboot.Accepts data d) (v : String) :
    ∃ img, fromBytes sha256 data v = .ok img ∧ img.hash = d := by
  obtain ⟨info, hp, rfl⟩ := h
  unfold fromBytes
  rw [hp]
  exact ⟨_, rfl, rfl⟩

/-- The factory image is too short to be an MCUboot image. -/
theorem fromBytes_factory : fromBytes sha256 FACTORY_IMAGE "1.0.0+factory" =
    .ok { factoryImage sha256 with confirmed := false, permanent := false } := by
  have hp : Mcuboot.parse FACTORY_IMAGE = .ok (.error
      ["not an MCUboot image: only " ++ toString FACTORY_IMAGE.length ++ " bytes"]) := rfl
  unfold fromBytes
  rw [hp]
  rfl

end Image

namespace Device
variable {sha256 : Bytes → Bytes} {dev dev' : Device}

/-- The factory image runs, and nothing ever happened. -/
def fresh (sha256 : Bytes → Bytes) (fault : Fault) : Device :=
  { slot0 := some (factoryImage sha256), slot1 := none, upload := .empty, fault,
    failedDigests := [], resets := 0, awaitingConfirm := false }

/-- Provisioning does not fail. -/
theorem provisioned_eq (fault : Fault) :
    provisioned sha256 fault = .ok (fresh sha256 fault) := by
  unfold provisioned
  rw [Image.fromBytes_factory]
  rfl

/-- `dev'` differs from `dev` at most in the upload and in slot 1: the running
image, the faults and what the bootloader remembers are as they were. -/
structure KeepsRunning (dev dev' : Device) : Prop where
  slot0 : dev'.slot0 = dev.slot0
  fault : dev'.fault = dev.fault
  failedDigests : dev'.failedDigests = dev.failedDigests
  resets : dev'.resets = dev.resets
  awaitingConfirm : dev'.awaitingConfirm = dev.awaitingConfirm

theorem KeepsRunning.refl (dev : Device) : dev.KeepsRunning dev := ⟨rfl, rfl, rfl, rfl, rfl⟩

theorem KeepsRunning.trans {dev'' : Device} (h : dev.KeepsRunning dev')
    (h' : dev'.KeepsRunning dev'') : dev.KeepsRunning dev'' :=
  ⟨h'.slot0.trans h.slot0, h'.fault.trans h.fault, h'.failedDigests.trans h.failedDigests,
    h'.resets.trans h.resets, h'.awaitingConfirm.trans h.awaitingConfirm⟩

/-- The upload a chunk at `off` is judged against: a new one at offset 0. -/
def uploadAt (dev : Device) (off : Nat) (len : Option Nat) (sha : Option Bytes) : Device :=
  if off = 0 then dev.restartUpload len sha else dev

/-- A chunk that stages an image: in step, not answered by a fault, the last one,
and with the declared digest. -/
def stages (sha256 : Bytes → Bytes) (dev : Device) (off : Nat) (len : Option Nat)
    (sha : Option Bytes) (data : Bytes) : Bool :=
  let up := dev.uploadAt off len sha
  off == up.upload.received.length && !up.demandsRestart off && !(up.receive data).goesSilent &&
    (up.receive data).uploadComplete && (up.receive data).uploadMatches sha256

/-- **Everything an in-step chunk can do.** -/
theorem acceptChunk_cases {off : Nat} {data : Bytes} {o : UploadOutcome}
    (h : dev.acceptChunk sha256 off data = .ok (o, dev')) :
    (dev.demandsRestart off = true ∧ o = .continueAt 0 ∧
      dev' = { dev with upload := { dev.upload with restartDemanded := true, received := [] } }) ∨
    (dev.demandsRestart off = false ∧ (dev.receive data).goesSilent = true ∧ o = .goSilent ∧
      dev' = dev.receive data) ∨
    (dev.demandsRestart off = false ∧ (dev.receive data).goesSilent = false ∧
      (dev.receive data).uploadComplete = false ∧
      o = .continueAt (dev.receive data).upload.received.length ∧ dev' = dev.receive data) ∨
    (dev.demandsRestart off = false ∧ (dev.receive data).goesSilent = false ∧
      (dev.receive data).uploadComplete = true ∧
      (dev.receive data).uploadMatches sha256 = true ∧
      ∃ img, Image.fromBytes sha256 (dev.receive data).upload.received "2.0.0+staged" = .ok img ∧
        o = .complete (dev.receive data).upload.received.length true ∧
        dev' = { dev.receive data with slot1 := some img }) ∨
    (dev.demandsRestart off = false ∧ (dev.receive data).goesSilent = false ∧
      (dev.receive data).uploadComplete = true ∧
      (dev.receive data).uploadMatches sha256 = false ∧
      o = .complete (dev.receive data).upload.received.length false ∧ dev' = dev.receive data) := by
  unfold acceptChunk at h
  cases hd : dev.demandsRestart off with
  | true =>
    rw [hd, if_pos rfl] at h
    cases h
    exact .inl ⟨rfl, rfl, rfl⟩
  | false =>
    rw [hd, if_neg Bool.false_ne_true] at h
    cases hs : (dev.receive data).goesSilent with
    | true =>
      simp only [hs, if_true] at h
      cases h
      exact .inr (.inl ⟨rfl, rfl, rfl, rfl⟩)
    | false =>
      cases hc : (dev.receive data).uploadComplete with
      | false =>
        simp only [hs, hc, Bool.false_eq_true, if_false, Bool.not_false, if_true] at h
        cases h
        exact .inr (.inr (.inl ⟨rfl, rfl, rfl, rfl, rfl⟩))
      | true =>
        cases hm : (dev.receive data).uploadMatches sha256 with
        | false =>
          simp only [hs, hc, hm, Bool.false_eq_true, if_false, Bool.not_true] at h
          cases h
          exact .inr (.inr (.inr (.inr ⟨rfl, rfl, rfl, rfl, rfl, rfl⟩)))
        | true =>
          simp only [hs, hc, hm, Bool.false_eq_true, if_false, Bool.not_true, if_true] at h
          cases hb : Image.fromBytes sha256 (dev.receive data).upload.received "2.0.0+staged" with
          | error e =>
            rw [hb] at h
            cases h
          | ok img =>
            rw [hb] at h
            cases h
            exact .inr (.inr (.inr (.inl ⟨rfl, rfl, rfl, rfl, img, rfl, rfl, rfl⟩)))

theorem acceptChunk_keepsRunning {off : Nat} {data : Bytes} {o : UploadOutcome}
    (h : dev.acceptChunk sha256 off data = .ok (o, dev')) : dev.KeepsRunning dev' := by
  rcases acceptChunk_cases h with
    ⟨-, -, rfl⟩ | ⟨-, -, -, rfl⟩ | ⟨-, -, -, -, rfl⟩ | ⟨-, -, -, -, img, -, -, rfl⟩ |
    ⟨-, -, -, -, -, rfl⟩ <;>
  exact ⟨rfl, rfl, rfl, rfl, rfl⟩

/-- A chunk out of step changes nothing; one in step is accepted by the upload it
belongs to. -/
theorem uploadChunk_cases {off : Nat} {len : Option Nat} {sha : Option Bytes} {data : Bytes}
    {o : UploadOutcome} (h : dev.uploadChunk sha256 off len sha data = .ok (o, dev')) :
    (off ≠ (dev.uploadAt off len sha).upload.received.length ∧
      o = .continueAt dev.upload.received.length ∧ dev' = dev) ∨
    (off = (dev.uploadAt off len sha).upload.received.length ∧
      (dev.uploadAt off len sha).acceptChunk sha256 off data = .ok (o, dev')) := by
  unfold uploadChunk at h
  by_cases hoff : off = 0
  · subst hoff
    exact .inr ⟨rfl, h⟩
  · rw [if_neg hoff] at h
    have hup : dev.uploadAt off len sha = dev := if_neg hoff
    rw [hup]
    by_cases hin : off = dev.upload.received.length
    · rw [if_neg (fun hn => hn hin)] at h
      exact .inr ⟨hin, h⟩
    · rw [if_pos hin] at h
      cases h
      exact .inl ⟨hin, rfl, rfl⟩

theorem uploadAt_keepsRunning (off : Nat) (len : Option Nat) (sha : Option Bytes) :
    dev.KeepsRunning (dev.uploadAt off len sha) := by
  unfold uploadAt
  split <;> exact ⟨rfl, rfl, rfl, rfl, rfl⟩

theorem uploadAt_slot1 (off : Nat) (len : Option Nat) (sha : Option Bytes) :
    (dev.uploadAt off len sha).slot1 = dev.slot1 := by
  unfold uploadAt
  split <;> rfl

/-- **An upload never touches the running image.** -/
theorem uploadChunk_keepsRunning {off : Nat} {len : Option Nat} {sha : Option Bytes}
    {data : Bytes} {o : UploadOutcome}
    (h : dev.uploadChunk sha256 off len sha data = .ok (o, dev')) : dev.KeepsRunning dev' := by
  rcases uploadChunk_cases h with ⟨-, -, rfl⟩ | ⟨-, h⟩
  · exact .refl _
  · exact (uploadAt_keepsRunning off len sha).trans (acceptChunk_keepsRunning h)

/-- Slot 1 changes only by a chunk that stages an image, and then holds the fresh
record of the bytes received. -/
theorem uploadChunk_slot1 {off : Nat} {len : Option Nat} {sha : Option Bytes} {data : Bytes}
    {o : UploadOutcome} (h : dev.uploadChunk sha256 off len sha data = .ok (o, dev')) :
    (dev.stages sha256 off len sha data = false ∧ dev'.slot1 = dev.slot1) ∨
    (dev.stages sha256 off len sha data = true ∧ ∃ img, dev'.slot1 = some img ∧
      Image.fromBytes sha256 dev'.upload.received "2.0.0+staged" = .ok img) := by
  rcases uploadChunk_cases h with ⟨hoff, -, rfl⟩ | ⟨hoff, h⟩
  · refine .inl ⟨?_, rfl⟩
    simp [stages, hoff]
  · rcases acceptChunk_cases h with
      ⟨hd, -, rfl⟩ | ⟨hd, hs, -, rfl⟩ | ⟨hd, hs, hc, -, rfl⟩ | ⟨hd, hs, hc, hm, img, hb, -, rfl⟩ |
      ⟨hd, hs, hc, hm, -, rfl⟩
    · exact .inl ⟨by simp [stages, hd], uploadAt_slot1 off len sha⟩
    · exact .inl ⟨by simp [stages, hs], uploadAt_slot1 off len sha⟩
    · exact .inl ⟨by simp [stages, hc], uploadAt_slot1 off len sha⟩
    · refine .inr ⟨?_, img, rfl, hb⟩
      have hoff' : (off == (dev.uploadAt off len sha).upload.received.length) = true :=
        beq_iff_eq.mpr hoff
      simp [stages, hd, hs, hc, hm, hoff']
    · exact .inl ⟨by simp [stages, hm], uploadAt_slot1 off len sha⟩

/-- No slot holds the digest a `set_state` names. -/
def HoldsNone (dev : Device) (hash : Option Bytes) : Prop :=
  ∀ s, dev.slot0 = some s ∨ dev.slot1 = some s → hash ≠ some s.hash

/-- **Everything a mark on slot 1 can do.** -/
theorem markStaged_cases {hash : Bytes} {confirm : Bool} {r : Except String Unit}
    (h : dev.markStaged hash confirm = (r, dev')) :
    (∃ msg, r = .error msg ∧ dev' = dev ∧ ∀ s1, dev.slot1 = some s1 → s1.hash ≠ hash) ∨
    (∃ s1, dev.slot1 = some s1 ∧ s1.hash = hash ∧ r = .ok () ∧
      dev' = { dev with slot1 := some { s1 with pending := true, permanent := confirm } }) := by
  unfold markStaged at h
  rcases Option.eq_none_or_eq_some dev.slot1 with h1 | ⟨s1, h1⟩
  · simp only [h1] at h
    cases h
    refine .inl ⟨_, rfl, rfl, ?_⟩
    intro s hs
    rw [h1] at hs
    cases hs
  · simp only [h1] at h
    by_cases hh : s1.hash = hash
    · rw [if_pos hh] at h
      cases h
      exact .inr ⟨s1, h1, hh, rfl, rfl⟩
    · rw [if_neg hh] at h
      cases h
      refine .inl ⟨_, rfl, rfl, ?_⟩
      intro s hs
      rw [h1] at hs
      cases hs
      exact hh

/-- **Everything `set_state` can do**: refuse, confirm the running image, or mark
the staged one.  Without the fault it refuses only a digest it does not hold. -/
theorem setState_cases {hash : Option Bytes} {confirm : Bool} {r : Except String Unit}
    (h : dev.setState hash confirm = (r, dev')) :
    (∃ msg, r = .error msg ∧ dev' = dev ∧
      (dev.fault = .digestAlreadyFailed ∨ dev.HoldsNone hash ∧ (hash = none → dev.slot0 = none))) ∨
    (∃ s0, dev.slot0 = some s0 ∧ (hash = none ∨ hash = some s0.hash) ∧ r = .ok () ∧
      dev' = { dev with slot0 := some { s0 with confirmed := true, permanent := true },
                        awaitingConfirm := false }) ∨
    (∃ s1, dev.slot1 = some s1 ∧ hash = some s1.hash ∧
      (∀ s0, dev.slot0 = some s0 → s0.hash ≠ s1.hash) ∧ r = .ok () ∧
      dev' = { dev with slot1 := some { s1 with pending := true, permanent := confirm } }) := by
  cases hash with
  | none =>
    unfold setState at h
    rcases Option.eq_none_or_eq_some dev.slot0 with h0 | ⟨s0, h0⟩
    · simp only [h0] at h
      cases h
      exact .inl ⟨_, rfl, rfl, .inr ⟨fun s _ => nofun, fun _ => h0⟩⟩
    · simp only [h0] at h
      cases h
      exact .inr (.inl ⟨s0, h0, .inl rfl, rfl, rfl⟩)
  | some hash =>
    simp only [setState] at h
    split at h
    · rename_i hfault
      cases h
      exact .inl ⟨_, rfl, rfl, .inl hfault.1⟩
    by_cases hrun : ∃ s0, dev.slot0 = some s0 ∧ s0.hash = hash
    · obtain ⟨s0, h0, rfl⟩ := hrun
      simp only [h0, if_true] at h
      cases h
      exact .inr (.inl ⟨s0, h0, .inr rfl, rfl, rfl⟩)
    · -- slot 0 does not run this digest: the mark goes to slot 1
      have hne : ∀ s0, dev.slot0 = some s0 → s0.hash ≠ hash := fun s0 h0 hh => hrun ⟨s0, h0, hh⟩
      have hm : dev.markStaged hash confirm = (r, dev') := by
        rcases Option.eq_none_or_eq_some dev.slot0 with h0 | ⟨s0, h0⟩
        · simpa only [h0] using h
        · simpa only [h0, if_neg (hne s0 h0)] using h
      rcases markStaged_cases hm with ⟨msg, hr, hd, hne'⟩ | ⟨s1, h1, rfl, hr, hd⟩
      · refine .inl ⟨msg, hr, hd, .inr ⟨?_, nofun⟩⟩
        intro s hs heq
        cases heq
        exact hs.elim (fun h0 => hne s h0 rfl) (fun h1 => hne' s h1 rfl)
      · exact .inr (.inr ⟨s1, h1, rfl, hne, hr, hd⟩)

/-- What a reset makes of an image on probation. -/
def afterRevert (dev : Device) (bad : Image) : Device :=
  { dev with resets := dev.resets + 1, failedDigests := dev.failedDigests ++ [bad.hash],
             slot0 := dev.slot1, slot1 := some bad, awaitingConfirm := false }

/-- What a reset makes of a pending image. -/
def afterSwap (dev : Device) (incoming : Image) : Device :=
  { dev with resets := dev.resets + 1,
             slot0 := some { incoming with pending := false, confirmed := incoming.permanent },
             slot1 := dev.slot0,
             awaitingConfirm := !incoming.permanent || dev.fault == .revertOnBoot }

theorem reset_reverts {bad : Image} (ha : dev.awaitingConfirm = true)
    (h0 : dev.slot0 = some bad) : dev.reset = dev.afterRevert bad := by
  simp only [reset, ha, h0, afterRevert]
  rfl

theorem reset_swaps {incoming : Image} (ha : dev.awaitingConfirm = false)
    (h1 : dev.slot1 = some incoming) (hp : incoming.pending = true) :
    dev.reset = dev.afterSwap incoming := by
  simp only [reset, ha, h1, hp, afterSwap]
  rfl

/-- With nothing on probation and nothing pending, a reset only counts. -/
theorem reset_stays (ha : dev.awaitingConfirm = false)
    (hidle : ∀ s1, dev.slot1 = some s1 → s1.pending = false) :
    dev.reset = { dev with resets := dev.resets + 1 } := by
  rcases Option.eq_none_or_eq_some dev.slot1 with h1 | ⟨s1, h1⟩
  · simp only [reset, ha, h1]
    rfl
  · simp only [reset, ha, h1, hidle s1 h1]
    rfl

/-- With nothing on probation, a reset swaps the pending image in, or only counts. -/
theorem reset_settled_cases (ha : dev.awaitingConfirm = false) :
    (∃ incoming, dev.slot1 = some incoming ∧ incoming.pending = true ∧
      dev.reset = dev.afterSwap incoming) ∨
    ((∀ s1, dev.slot1 = some s1 → s1.pending = false) ∧
      dev.reset = { dev with resets := dev.resets + 1 }) := by
  by_cases hswap : ∃ incoming, dev.slot1 = some incoming ∧ incoming.pending = true
  · obtain ⟨incoming, h1, hp⟩ := hswap
    exact .inl ⟨incoming, h1, hp, reset_swaps ha h1 hp⟩
  · have hidle : ∀ s1, dev.slot1 = some s1 → s1.pending = false := by
      intro s1 h1
      exact Bool.eq_false_iff.mpr fun hp => hswap ⟨s1, h1, hp⟩
    exact .inr ⟨hidle, reset_stays ha hidle⟩

/-- **Everything a reset can do**: revert the image on probation, swap the pending
one in, or nothing. -/
theorem reset_cases (dev : Device) :
    (∃ bad, dev.awaitingConfirm = true ∧ dev.slot0 = some bad ∧
      dev.reset = dev.afterRevert bad) ∨
    (dev.awaitingConfirm = true ∧ dev.slot0 = none ∧
      dev.reset = { dev with resets := dev.resets + 1, awaitingConfirm := false }) ∨
    (∃ incoming, dev.awaitingConfirm = false ∧ dev.slot1 = some incoming ∧
      incoming.pending = true ∧ dev.reset = dev.afterSwap incoming) ∨
    (dev.awaitingConfirm = false ∧ (∀ s1, dev.slot1 = some s1 → s1.pending = false) ∧
      dev.reset = { dev with resets := dev.resets + 1 }) := by
  by_cases ha : dev.awaitingConfirm = true
  · rcases Option.eq_none_or_eq_some dev.slot0 with h0 | ⟨bad, h0⟩
    · refine .inr (.inl ⟨ha, h0, ?_⟩)
      simp only [reset, ha, h0]
      rfl
    · exact .inl ⟨bad, ha, h0, reset_reverts ha h0⟩
  · rw [Bool.not_eq_true] at ha
    rcases reset_settled_cases ha with ⟨incoming, h1, hp, hr⟩ | ⟨hidle, hr⟩
    · exact .inr (.inr (.inl ⟨incoming, ha, h1, hp, hr⟩))
    · exact .inr (.inr (.inr ⟨ha, hidle, hr⟩))

end Device

/-! ## A hash to try it with -/

/-- SHA-256 on the byte strings below, and nothing elsewhere. -/
def sampleSha256 (b : Bytes) : Bytes :=
  if b = FACTORY_IMAGE then
    [0x03, 0x91, 0x2a, 0x46, 0x8d, 0x33, 0x12, 0xd0, 0x72, 0x6a, 0xf3, 0xb4, 0x47, 0x39, 0xd9, 0x06,
      0x4b, 0x04, 0x42, 0xdb, 0xc6, 0x63, 0xb0, 0x61, 0xd3, 0xa3, 0x34, 0x30, 0x31, 0xde, 0xeb, 0x86]
  else if b = [120] then
    [0x2d, 0x71, 0x16, 0x42, 0xb7, 0x26, 0xb0, 0x44, 0x01, 0x62, 0x7c, 0xa9, 0xfb, 0xac, 0x32, 0xf5,
      0xc8, 0x53, 0x0f, 0xb1, 0x90, 0x3c, 0xc4, 0xdb, 0x02, 0x25, 0x87, 0x17, 0x92, 0x1a, 0x48, 0x81]
  else if b = Mcuboot.signedImage (List.replicate 32 1) then
    [0xca, 0x59, 0xd1, 0x30, 0x9c, 0xd9, 0x34, 0xd8, 0x40, 0x84, 0xc3, 0x4f, 0x5d, 0x64, 0x2f, 0xe3,
      0xd1, 0x59, 0x72, 0xae, 0xcd, 0x0f, 0x6f, 0x64, 0x61, 0x04, 0x2c, 0x79, 0xb7, 0x6d, 0xd6, 0x09]
  else []

end Runtt
