import Runtt.Rollback

/-! # A confirmed image stays

Once the running image is confirmed, with nothing pending behind it, no request moves it
but a `set_state` that names another digest: uploads and erases rewrite slot 1 only, an
uploaded image is not pending, and a `set_state` that names the running digest goes to
slot 0 even where slot 1 holds a copy.  So neither branch of a reset is taken.
-/
namespace Runtt
namespace Server

variable {sha256 : Bytes → Bytes} {srv srv' srv'' : Server} {req : Request}
  {resp : Option Response}

/-- Slot 0 runs `hash`, confirmed, and nothing is about to move it. -/
structure Settled (dev : Device) (hash : Bytes) : Prop where
  fault : dev.fault = .none
  running : ∃ img, dev.slot0 = some img ∧ img.hash = hash ∧ img.confirmed = true
  idle : ∀ s1, dev.slot1 = some s1 → s1.pending = false
  settled : dev.awaitingConfirm = false

/-- A `set_state` names no hash, or this one. -/
def KeepsTo (hash : Bytes) (req : Request) : Prop :=
  ∀ named confirm, req = .setState (some named) confirm → named = hash

/-- Confirming the running image settles it. -/
theorem settled_of_confirm {dev : Device} {hash : Bytes} {named : Option Bytes} {confirm : Bool}
    (hfault : dev.fault = .none) (hidle : ∀ s1, dev.slot1 = some s1 → s1.pending = false)
    (hrunning : ∃ img, dev.slot0 = some img ∧ img.hash = hash)
    (hnamed : named = none ∨ named = some hash) :
    Settled (dev.setState named confirm).2 hash := by
  obtain ⟨s0, h0, hhash⟩ := hrunning
  obtain ⟨r, dev', hset⟩ : ∃ r dev', dev.setState named confirm = (r, dev') := ⟨_, _, rfl⟩
  rw [hset]
  rcases Device.setState_cases hset with
    ⟨msg, -, -, hwhy⟩ | ⟨s0', h0', -, -, rfl⟩ | ⟨s1, -, rfl, hother, -, -⟩
  · -- it is refused neither by a fault nor for an unknown digest
    exfalso
    rcases hwhy with hfault' | ⟨hnone, hempty⟩
    · rw [hfault] at hfault'
      cases hfault'
    · rcases hnamed with rfl | rfl
      · rw [hempty rfl] at h0
        cases h0
      · exact hnone s0 (.inl h0) (congrArg some hhash.symm)
  · rw [h0] at h0'
    cases h0'
    exact ⟨hfault, ⟨_, rfl, hhash, rfl⟩, hidle, rfl⟩
  · -- the digest is the running one, so the mark does not go to slot 1
    exfalso
    rcases hnamed with hnamed | hnamed
    · cases hnamed
    · cases hnamed
      exact hother s0 h0 hhash

/-- **A request that names no other digest keeps a settled image.** -/
theorem Settled.step {hash : Bytes} (h : Settled srv.dev hash)
    (hreq : srv.answer sha256 req = .ok (resp, srv')) (hkeeps : KeepsTo hash req) :
    Settled srv'.dev hash := by
  have hdev := answer_dev hreq
  cases req with
  | reset =>
    rw [hdev, Device.reset_stays h.settled h.idle]
    exact ⟨h.fault, h.running, h.idle, h.settled⟩
  | setState named confirm =>
    rw [hdev]
    obtain ⟨img, h0, hhash, -⟩ := h.running
    refine settled_of_confirm h.fault h.idle ⟨img, h0, hhash⟩ ?_
    cases named with
    | none => exact .inl rfl
    | some named => exact .inr (congrArg some (hkeeps named confirm rfl))
  | upload off len sha data =>
    obtain ⟨o, hu⟩ := hdev
    have hkeep := Device.uploadChunk_keepsRunning hu
    refine ⟨hkeep.fault.trans h.fault, by rw [hkeep.slot0]; exact h.running, ?_,
      hkeep.awaitingConfirm.trans h.settled⟩
    rcases Device.uploadChunk_slot1 hu with ⟨-, h1⟩ | ⟨-, img, h1, hbytes⟩
    · rw [h1]
      exact h.idle
    · intro s1 hs1
      rw [h1] at hs1
      cases hs1
      exact (Image.fresh_of_fromBytes hbytes).pending
  | erase =>
    rw [hdev]
    exact ⟨h.fault, h.running, fun s1 hs1 => (nomatch hs1), h.settled⟩
  | _ =>
    rw [hdev]
    exact h

theorem Settled.run {hash : Bytes} {reqs : List Request} (h : Settled srv.dev hash)
    (hrun : srv.run sha256 reqs = .ok srv') (hkeeps : ∀ req ∈ reqs, KeepsTo hash req) :
    Settled srv'.dev hash := by
  induction reqs generalizing srv with
  | nil =>
    cases hrun
    exact h
  | cons req reqs ih =>
    obtain ⟨hhead, htail⟩ := List.forall_mem_cons.mp hkeeps
    rw [Server.run] at hrun
    cases ha : srv.answer sha256 req with
    | error halt =>
      rw [ha] at hrun
      cases hrun
    | ok p =>
      rw [ha] at hrun
      exact ih (h.step ha hhead) hrun htail

/-- **A confirmed image stays.**  On a mock without faults and with nothing pending, after
the running image `hash` is confirmed, whatever is uploaded, erased, read, marked or
confirmed by no hash or by `hash`, or reset, slot 0 runs `hash`, confirmed and not on
probation. -/
theorem confirmed_stays {hash : Bytes} {named : Option Bytes} {confirm : Bool}
    {reqs : List Request} (hfault : srv.dev.fault = .none)
    (hidle : ∀ s1, srv.dev.slot1 = some s1 → s1.pending = false)
    (hrunning : ∃ img, srv.dev.slot0 = some img ∧ img.hash = hash)
    (hnamed : named = none ∨ named = some hash)
    (hconfirm : srv.answer sha256 (.setState named confirm) = .ok (resp, srv'))
    (hrun : srv'.run sha256 reqs = .ok srv'') (hkeeps : ∀ req ∈ reqs, KeepsTo hash req) :
    ∃ img, srv''.dev.slot0 = some img ∧ img.hash = hash ∧ img.confirmed = true ∧
      srv''.dev.awaitingConfirm = false := by
  have hstart : Settled srv'.dev hash := by
    rw [answer_dev hconfirm]
    exact settled_of_confirm hfault hidle hrunning hnamed
  have hend : Settled srv''.dev hash := hstart.run hrun hkeeps
  obtain ⟨img, h0, hhash, hconf⟩ := hend.running
  exact ⟨img, h0, hhash, hconf, hend.settled⟩

/-- Another image uploaded, the running one marked and the slot erased, with resets between. -/
theorem confirmed_stays_sample :
    ∃ srv', sampleBoard.run sampleSha256 [.upload 0 (some 1) (some (sampleSha256 [120])) [120],
        .reset, .setState (some (sampleSha256 FACTORY_IMAGE)) false, .erase, .reset] = .ok srv' ∧
      ∃ img, srv'.dev.slot0 = some img ∧ img.hash = sampleSha256 FACTORY_IMAGE ∧
        img.confirmed = true ∧ srv'.dev.awaitingConfirm = false := by
  have hrun : sampleBoard.run sampleSha256 [.upload 0 (some 1) (some (sampleSha256 [120])) [120],
      .reset, .setState (some (sampleSha256 FACTORY_IMAGE)) false, .erase, .reset] =
      .ok { sampleBoard with dev := { sampleBoard.dev with
        upload := ⟨1, some (sampleSha256 [120]), [120], 1, false⟩
        resets := 2 } } := by
    decide +kernel
  have hconfirm : sampleBoard.answer sampleSha256 (.setState none true) =
      .ok (some (.states sampleBoard.dev.imageStates), sampleBoard) := rfl
  have hidle : ∀ s1, sampleBoard.dev.slot1 = some s1 → s1.pending = false :=
    fun s1 hs1 => nomatch hs1
  refine ⟨_, hrun, confirmed_stays rfl hidle ⟨_, rfl, rfl⟩ (.inl rfl) hconfirm hrun ?_⟩
  simp [KeepsTo]

end Server
end Runtt
