import Runtt.Server

/-! # What confirms an image, and what keeps the way back

Two promises of test-then-confirm, over every state the mock can be driven into:
nothing but a confirm makes an image permanent, and an image on probation leaves the
one it replaced where the next reset finds it.

`Reachable` carries one piece of history with the state: for each slot, the confirm
value of the last `set_state` that marked the image now in it.  Marks move with the
images.
-/
namespace Runtt
namespace Server

variable {sha256 : Bytes → Bytes} {srv srv' : Server} {req : Request} {resp : Option Response}

/-- Requests one after the other, until one of them does not return. -/
def run (sha256 : Bytes → Bytes) (srv : Server) : List Request → Except Halt Server
  | [] => .ok srv
  | req :: reqs => do
    let (_, srv) ← srv.answer sha256 req
    srv.run sha256 reqs

/-- The request names the digest of the image in slot 0. -/
def namesRunning (srv : Server) (hash : Bytes) : Bool := srv.dev.slot0.any (·.hash == hash)

/-- The bootloader moves images at the next reset: a revert, or a swap. -/
def moves (srv : Server) : Bool :=
  if srv.dev.awaitingConfirm then srv.dev.slot0.isSome else srv.dev.slot1.any (·.pending)

/-- The confirm value of the last `set_state` that marked each slot's image. -/
structure Marks where
  slot0 : Option Bool
  slot1 : Option Bool

/-- What a request makes of the marks.  An image that enters slot 1 by an upload has
none yet. -/
def remark (sha256 : Bytes → Bytes) (srv : Server) (marks : Marks) : Request → Marks
  | .setState (some hash) confirm =>
    if !srv.namesRunning hash && srv.dev.slot1.any (·.hash == hash) then
      { marks with slot1 := some confirm }
    else marks
  | .upload off len sha data =>
    if srv.dev.stages sha256 off len sha data then { marks with slot1 := none } else marks
  | .erase => { marks with slot1 := none }
  | .reset => if srv.moves then ⟨marks.slot1, marks.slot0⟩ else marks
  | _ => marks

/-- The states requests can drive a freshly provisioned, fault-free mock into. -/
inductive Reachable (sha256 : Bytes → Bytes) : Server → Marks → Prop where
  | provisioned {dev : Device} {contract : String}
      (h : Device.provisioned sha256 .none = .ok dev) :
      Reachable sha256 ⟨dev, false, contract⟩ ⟨none, none⟩
  | step {srv srv' : Server} {marks : Marks} {req : Request} {resp : Option Response}
      (h : Reachable sha256 srv marks) (hreq : srv.answer sha256 req = .ok (resp, srv')) :
      Reachable sha256 srv' (srv.remark sha256 marks req)

theorem Reachable.run {srv srv' : Server} {marks : Marks} (h : Reachable sha256 srv marks)
    {reqs : List Request} (hrun : srv.run sha256 reqs = .ok srv') :
    ∃ marks', Reachable sha256 srv' marks' := by
  induction reqs generalizing srv marks with
  | nil =>
    cases hrun
    exact ⟨marks, h⟩
  | cons req reqs ih =>
    rw [Server.run] at hrun
    cases ha : srv.answer sha256 req with
    | error halt =>
      rw [ha] at hrun
      cases hrun
    | ok p =>
      rw [ha] at hrun
      exact ih (h.step ha) hrun

/-! ## A board to try it on -/

/-- CBOR as far as the empty map goes; a lone break is not well-formed. -/
def sampleCbor : Cbor where
  encode
    | .map [] => [0xa0]
    | _ => []
  decode b := if b = [0xa0] then some (.map []) else none

/-- The provisioned board. -/
def sampleBoard : Server :=
  { dev := .fresh sampleSha256 .none, silent := false, contract := "2.0.0" }

/-- The one-byte image as the mock records it. -/
def sampleImage : Image :=
  { version := "2.0.0+staged", hash := sampleSha256 [120], bytes := 1, bootable := true,
    pending := false, confirmed := false, permanent := false }

/-- Upload the one-byte image in one chunk and mark it for test. -/
def stageSample : List Request :=
  [.upload 0 (some 1) (some (sampleSha256 [120])) [120],
    .setState (some (sampleSha256 [120])) false]

/-- The board with the one-byte image marked for test. -/
def stagedBoard : Server :=
  { sampleBoard with
    dev := { sampleBoard.dev with
      slot1 := some { sampleImage with pending := true }
      upload := ⟨1, some (sampleSha256 [120]), [120], 1, false⟩ } }

theorem reachable_sampleBoard : Reachable sampleSha256 sampleBoard ⟨none, none⟩ :=
  .provisioned (Device.provisioned_eq .none)

/-- The board after the reset that follows, with that image on probation. -/
def probationBoard : Server :=
  { stagedBoard with
    dev := { stagedBoard.dev with
      slot0 := some sampleImage
      slot1 := some (factoryImage sampleSha256)
      resets := 1
      awaitingConfirm := true } }

theorem run_stageSample : sampleBoard.run sampleSha256 stageSample = .ok stagedBoard := by
  decide +kernel

theorem run_probation :
    sampleBoard.run sampleSha256 (stageSample ++ [.reset]) = .ok probationBoard := by
  decide +kernel

/-- A write frame. -/
def writeFrame (group : UInt16) (cmd : UInt8) (payload : Bytes) : Frame :=
  { op := OP_WRITE, version := 1, flags := 0, group, seq := 0, cmd, payload }

/-! ## Only a confirm confirms -/

/-- An image that would boot permanent was last marked permanent, or is confirmed
already. -/
def MarkedAs (mark : Option Bool) (slot : Option Image) : Prop :=
  ∀ img, slot = some img → img.permanent = true → img.confirmed = false → mark = some true

/-- **The books are in order**: each slot's mark is the one its flags show. -/
structure Bookkept (dev : Device) (marks : Marks) : Prop where
  noFault : dev.fault = .none
  slot0 : MarkedAs marks.slot0 dev.slot0
  slot1 : MarkedAs marks.slot1 dev.slot1

theorem markedAs_none {mark : Option Bool} : MarkedAs mark none := by
  intro img h
  cases h

theorem markedAs_confirmed {mark : Option Bool} {img : Image} (h : img.confirmed = true) :
    MarkedAs mark (some img) := by
  rintro img' hs - hc
  cases hs
  rw [h] at hc
  cases hc

theorem markedAs_fresh {mark : Option Bool} {img : Image} (h : img.Fresh) :
    MarkedAs mark (some img) := by
  rintro img' hs hp -
  cases hs
  rw [h.permanent] at hp
  cases hp

theorem Bookkept.reset {marks : Marks} (h : Bookkept srv.dev marks) :
    Bookkept srv.dev.reset (srv.remark sha256 marks .reset) := by
  rcases srv.dev.reset_cases with
    ⟨bad, ha, h0, hr⟩ | ⟨ha, h0, hr⟩ | ⟨incoming, ha, h1, hp, hr⟩ | ⟨ha, hnp, hr⟩
  · have hmoves : srv.moves = true := by simp [moves, ha, h0]
    rw [remark, if_pos hmoves, hr]
    have hold := h.slot0
    rw [h0] at hold
    exact ⟨h.noFault, h.slot1, hold⟩
  · have hmoves : ¬ srv.moves = true := by simp [moves, ha, h0]
    rw [remark, if_neg hmoves, hr]
    exact ⟨h.noFault, h.slot0, h.slot1⟩
  · have hmoves : srv.moves = true := by simp [moves, ha, h1, hp]
    rw [remark, if_pos hmoves, hr]
    refine ⟨h.noFault, ?_, h.slot0⟩
    -- the incoming image is confirmed as soon as it is permanent
    rintro img hs hperm hconf
    cases hs
    rw [show incoming.permanent = true from hperm] at hconf
    cases hconf
  · have hmoves : ¬ srv.moves = true := by
      cases h1 : srv.dev.slot1 with
      | none => simp [moves, ha, h1]
      | some s1 => simp [moves, ha, h1, hnp s1 h1]
    rw [remark, if_neg hmoves, hr]
    exact ⟨h.noFault, h.slot0, h.slot1⟩

theorem Bookkept.setState {marks : Marks} (h : Bookkept srv.dev marks) (hash : Option Bytes)
    (confirm : Bool) :
    Bookkept (srv.dev.setState hash confirm).2
      (srv.remark sha256 marks (.setState hash confirm)) := by
  obtain ⟨r, dev', hs⟩ : ∃ r dev', srv.dev.setState hash confirm = (r, dev') := ⟨_, _, rfl⟩
  rw [hs]
  rcases Device.setState_cases hs with
    ⟨msg, -, rfl, hf | ⟨hnone, -⟩⟩ | ⟨s0, h0, hh, -, rfl⟩ | ⟨s1, h1, rfl, hne, -, rfl⟩
  · rw [h.noFault] at hf
    cases hf
  · -- refused: neither slot holds the digest, so no mark is recorded
    cases hash with
    | none => exact h
    | some hash =>
      have hany : srv.dev.slot1.any (·.hash == hash) = false := by
        cases h1 : srv.dev.slot1 with
        | none => rfl
        | some s1 =>
          have hne : s1.hash ≠ hash := fun hs => hnone s1 (.inr h1) (congrArg some hs.symm)
          simpa using hne
      simpa [remark, hany] using h
  · have hmarks : srv.remark sha256 marks (.setState hash confirm) = marks := by
      rcases hh with rfl | rfl
      · rfl
      · simp [remark, namesRunning, h0]
    rw [hmarks]
    exact ⟨h.noFault, markedAs_confirmed rfl, h.slot1⟩
  · have hnames : srv.namesRunning s1.hash = false := by
      cases h0 : srv.dev.slot0 with
      | none => simp [namesRunning, h0]
      | some s0 => simpa [namesRunning, h0] using hne s0 h0
    simp only [remark, hnames, h1, Option.any_some, beq_self_eq_true, Bool.not_false, Bool.and_self,
      if_true]
    refine ⟨h.noFault, h.slot0, ?_⟩
    rintro img hs hperm -
    cases hs
    exact congrArg some hperm

/-- **Every request keeps the books.** -/
theorem Bookkept.step {marks : Marks} (h : Bookkept srv.dev marks)
    (hreq : srv.answer sha256 req = .ok (resp, srv')) :
    Bookkept srv'.dev (srv.remark sha256 marks req) := by
  have hdev := answer_dev hreq
  cases req with
  | reset =>
    rw [hdev]
    exact h.reset
  | erase =>
    rw [hdev]
    exact ⟨h.noFault, h.slot0, markedAs_none⟩
  | upload off len sha data =>
    obtain ⟨o, hu⟩ := hdev
    have hkeep := Device.uploadChunk_keepsRunning hu
    have hfault := hkeep.fault.trans h.noFault
    have h0 := hkeep.slot0
    rcases Device.uploadChunk_slot1 hu with ⟨hs, h1⟩ | ⟨hs, img, h1, hb⟩
    · simp only [remark, hs]
      exact ⟨hfault, h0 ▸ h.slot0, h1 ▸ h.slot1⟩
    · simp only [remark, hs]
      exact ⟨hfault, h0 ▸ h.slot0, h1 ▸ markedAs_fresh (Image.fresh_of_fromBytes hb)⟩
  | setState hash confirm =>
    rw [hdev]
    exact h.setState hash confirm
  | _ =>
    rw [hdev]
    exact h

theorem Reachable.bookkept {marks : Marks} (h : Reachable sha256 srv marks) :
    Bookkept srv.dev marks := by
  induction h with
  | provisioned h =>
    rw [Device.provisioned_eq] at h
    cases h
    exact ⟨rfl, markedAs_confirmed rfl, markedAs_none⟩
  | step _ hreq ih => exact ih.step hreq

/-- Every image confirmed in `dev'` is confirmed in `dev`, in the same slot and under
the same digest. -/
def ConfirmsNothing (dev dev' : Device) : Prop :=
  ∀ img, img.confirmed = true →
    (dev'.slot0 = some img →
      ∃ old, dev.slot0 = some old ∧ old.hash = img.hash ∧ old.confirmed = true) ∧
    (dev'.slot1 = some img →
      ∃ old, dev.slot1 = some old ∧ old.hash = img.hash ∧ old.confirmed = true)

theorem confirmsNothing_refl (dev : Device) : ConfirmsNothing dev dev :=
  fun img hc => ⟨fun h => ⟨img, h, rfl, hc⟩, fun h => ⟨img, h, rfl, hc⟩⟩

/-- The request reads as a `set_state` that reaches slot 0: it names no digest, or the
one that runs there. -/
def reachesRunning (srv : Server) : Request → Bool
  | .setState none _ => true
  | .setState (some hash) _ => srv.namesRunning hash
  | _ => false

/-- A request other than a reset confirms nothing unless it is a `set_state` that
reaches slot 0. -/
theorem answer_confirmsNothing (hreq : srv.answer sha256 req = .ok (resp, srv'))
    (hreset : req ≠ .reset) (hreach : srv.reachesRunning req = false) :
    ConfirmsNothing srv.dev srv'.dev := by
  have hdev := answer_dev hreq
  cases req with
  | reset => exact absurd rfl hreset
  | erase =>
    rw [hdev]
    intro img hc
    exact ⟨fun h => ⟨img, h, rfl, hc⟩, nofun⟩
  | upload off len sha data =>
    obtain ⟨o, hu⟩ := hdev
    intro img hc
    constructor
    · intro h
      exact ⟨img, by rw [← (Device.uploadChunk_keepsRunning hu).slot0, h], rfl, hc⟩
    · intro h
      rcases Device.uploadChunk_slot1 hu with ⟨-, h1⟩ | ⟨-, img', h1, hb⟩
      · exact ⟨img, by rw [← h1, h], rfl, hc⟩
      · -- a fresh image is not confirmed
        rw [h1] at h
        cases h
        rw [(Image.fresh_of_fromBytes hb).confirmed] at hc
        cases hc
  | setState hash confirm =>
    rw [hdev]
    obtain ⟨r, dev', hs⟩ : ∃ r dev', srv.dev.setState hash confirm = (r, dev') := ⟨_, _, rfl⟩
    rw [hs]
    rcases Device.setState_cases hs with
      ⟨msg, -, rfl, -⟩ | ⟨s0, h0, hh, -, -⟩ | ⟨s1, h1, rfl, -, -, rfl⟩
    · exact confirmsNothing_refl _
    · exfalso
      rcases hh with rfl | rfl
      · cases hreach
      · simp [reachesRunning, namesRunning, h0] at hreach
    · intro img hc
      refine ⟨fun h => ⟨img, h, rfl, hc⟩, ?_⟩
      intro h
      cases h
      exact ⟨s1, h1, rfl, hc⟩
  | _ =>
    rw [hdev]
    exact confirmsNothing_refl _

/-- A reset leaves every image as it was, but for the pending one it swaps in, which it
confirms if its flags say permanent. -/
theorem reset_confirmed {dev : Device} {img : Image}
    (h : dev.reset.slot0 = some img ∨ dev.reset.slot1 = some img) :
    (dev.slot0 = some img ∨ dev.slot1 = some img) ∨
    ∃ s1, dev.slot1 = some s1 ∧ s1.pending = true ∧ dev.reset.slot0 = some img ∧
      img = { s1 with pending := false, confirmed := s1.permanent } := by
  rcases dev.reset_cases with
    ⟨bad, ha, h0, hr⟩ | ⟨ha, h0, hr⟩ | ⟨incoming, ha, h1, hp, hr⟩ | ⟨ha, hnp, hr⟩
  · rw [hr] at h
    exact .inl (h.elim .inr fun hb => .inl (h0.trans hb))
  · rw [hr] at h
    exact .inl h
  · rw [hr] at h ⊢
    rcases h with h | h
    · exact .inr ⟨incoming, h1, hp, h, (Option.some.inj h).symm⟩
    · exact .inl (.inl h)
  · rw [hr] at h
    exact .inl h

/-- **Only a confirm confirms.**  Over every reachable state and every frame: a request
that is no reset and reaches no running image turns no confirmed flag on; a
`set_state` without a digest it can read makes the image in slot 0 permanent and leaves
slot 1 as it is; and a reset turns a flag on only for a pending image whose last mark was
a `set_state` with `confirm=true`. -/
theorem only_a_confirm_confirms {cbor : Cbor} {marks : Marks} (hreach : Reachable sha256 srv marks)
    {f : Frame} {out : Option Frame} (hd : srv.dispatch sha256 cbor f = .ok (out, srv')) :
    (f.request cbor ≠ .reset → srv.reachesRunning (f.request cbor) = false →
      ConfirmsNothing srv.dev srv'.dev) ∧
    (∀ confirm, f.request cbor = .setState none confirm →
      srv'.dev.slot0 = srv.dev.slot0.map (fun s0 =>
        { s0 with confirmed := true, permanent := true }) ∧
      (srv.dev.slot0.isSome = true → srv'.dev.awaitingConfirm = false) ∧
      srv'.dev.slot1 = srv.dev.slot1) ∧
    (f.request cbor = .reset →
      ∀ img, srv'.dev.slot0 = some img ∨ srv'.dev.slot1 = some img → img.confirmed = true →
        (srv.dev.slot0 = some img ∨ srv.dev.slot1 = some img) ∨
        ∃ s1, srv.dev.slot1 = some s1 ∧ s1.pending = true ∧ srv'.dev.slot0 = some img ∧
          img = { s1 with pending := false, confirmed := true } ∧
          (s1.confirmed = false → marks.slot1 = some true)) := by
  obtain ⟨resp, hreq⟩ := dispatch_answer hd
  refine ⟨answer_confirmsNothing hreq, ?_, ?_⟩
  · intro confirm heq
    rw [heq] at hreq
    have hdev : srv'.dev = (srv.dev.setState none confirm).2 := answer_dev hreq
    rw [hdev]
    cases h0 : srv.dev.slot0 with
    | some s0 =>
      have hset : (srv.dev.setState none confirm).2 =
          { srv.dev with slot0 := some { s0 with confirmed := true, permanent := true },
                         awaitingConfirm := false } := by
        simp only [Device.setState, h0]
      rw [hset]
      exact ⟨rfl, fun _ => rfl, rfl⟩
    | none =>
      have hset : (srv.dev.setState none confirm).2 = srv.dev := by
        simp only [Device.setState, h0]
      rw [hset]
      refine ⟨h0, ?_, rfl⟩
      intro hsome
      cases hsome
  · intro heq img himg hc
    rw [heq] at hreq
    have hdev : srv'.dev = srv.dev.reset := answer_dev hreq
    rw [hdev] at himg ⊢
    rcases reset_confirmed himg with hold | ⟨s1, h1, hp, h0, rfl⟩
    · exact .inl hold
    · have hperm : s1.permanent = true := hc
      refine .inr ⟨s1, h1, hp, h0, by rw [hperm], ?_⟩
      intro hconf
      exact hreach.bookkept.slot1 s1 h1 hperm hconf

/-- The frame of a reset, to a board with an image marked for test. -/
theorem only_a_confirm_confirms_sample :
    ∃ (marks : Marks) (out : Option Frame) (srv' : Server),
      stagedBoard.dispatch sampleSha256 sampleCbor (writeFrame GROUP_OS OS_RESET [0xa0]) =
        .ok (out, srv') ∧
      ∀ img, srv'.dev.slot0 = some img ∨ srv'.dev.slot1 = some img → img.confirmed = true →
        (stagedBoard.dev.slot0 = some img ∨ stagedBoard.dev.slot1 = some img) ∨
        ∃ s1, stagedBoard.dev.slot1 = some s1 ∧ s1.pending = true ∧ srv'.dev.slot0 = some img ∧
          img = { s1 with pending := false, confirmed := true } ∧
          (s1.confirmed = false → marks.slot1 = some true) := by
  obtain ⟨marks, hreach⟩ := reachable_sampleBoard.run run_stageSample
  have hd : stagedBoard.dispatch sampleSha256 sampleCbor (writeFrame GROUP_OS OS_RESET [0xa0]) =
      .ok (some ⟨OP_WRITE_RSP, 1, 0, GROUP_OS, 0, OS_RESET, [0xa0]⟩, probationBoard) := rfl
  exact ⟨marks, _, _, hd, (only_a_confirm_confirms hreach hd).2.2 rfl⟩

/-- **The tolerant reading confirms.**  A `set_state` whose payload is not CBOR reads as
one without a digest, and makes the image on probation permanent. -/
theorem undecodable_setState_confirms :
    ¬ ∀ (sha256 : Bytes → Bytes) (cbor : Cbor) (srv srv' : Server) (marks : Marks) (f : Frame)
        (out : Option Frame), Reachable sha256 srv marks →
        srv.dispatch sha256 cbor f = .ok (out, srv') → f.request cbor ≠ .reset →
        (∀ hash, f.request cbor ≠ .setState hash true) → ConfirmsNothing srv.dev srv'.dev := by
  intro hall
  obtain ⟨marks, hreach⟩ := reachable_sampleBoard.run run_probation
  have hconf := hall sampleSha256 sampleCbor probationBoard _ marks
    (writeFrame GROUP_IMG IMG_STATE [0xff]) _
    hreach rfl (by decide) (fun hash h => by cases h)
  obtain ⟨old, h0, -, hc⟩ :=
    (hconf { sampleImage with confirmed := true, permanent := true } rfl).1 rfl
  cases h0
  cases hc

/-! ## The way back -/

/-- The request leaves the fallback alone: it is no erase, it stages no image, and it is
no `set_state` naming the image on probation. -/
def spares (sha256 : Bytes → Bytes) (srv : Server) : Request → Bool
  | .erase => false
  | .upload off len sha data => !srv.dev.stages sha256 off len sha data
  | .setState (some hash) _ => !srv.namesRunning hash
  | _ => true

/-- Every request of the run leaves the fallback alone. -/
def sparesAll (sha256 : Bytes → Bytes) (srv : Server) : List Request → Bool
  | [] => true
  | req :: reqs => srv.spares sha256 req &&
    match srv.answer sha256 req with
    | .ok (_, srv) => srv.sparesAll sha256 reqs
    | .error _ => true

/-- A confirm: `confirm=true`, or no digest. -/
def Request.confirms : Request → Bool
  | .setState none _ => true
  | .setState (some _) confirm => confirm
  | _ => false

/-- An image is on probation in slot 0, and slot 1 holds a confirmed image with digest
`hash` to go back to. -/
structure OnProbation (dev : Device) (hash : Bytes) : Prop where
  awaiting : dev.awaitingConfirm = true
  running : dev.slot0.isSome = true
  fallback : ∃ img, dev.slot1 = some img ∧ img.hash = hash ∧ img.confirmed = true

/-- A test swap puts the new image on probation and the old one behind it. -/
theorem onProbation_of_swap {dev : Device} {A X : Image} (hwait : dev.awaitingConfirm = false)
    (hA : dev.slot0 = some A) (hconf : A.confirmed = true) (hX : dev.slot1 = some X)
    (hpend : X.pending = true) (htest : X.permanent = false) : OnProbation dev.reset A.hash := by
  rw [Device.reset_swaps hwait hX hpend]
  exact ⟨by rw [Device.afterSwap, htest]; rfl, rfl, A, hA, rfl, hconf⟩

/-- A revert brings the fallback back. -/
theorem OnProbation.reset {dev : Device} {hash : Bytes} (h : OnProbation dev hash) :
    ∃ img, dev.reset.slot0 = some img ∧ img.hash = hash ∧ img.confirmed = true := by
  obtain ⟨bad, h0⟩ := Option.isSome_iff_exists.mp h.running
  rw [Device.reset_reverts h.awaiting h0]
  exact h.fallback

/-- **A request that spares the fallback keeps the probation**, unless it is a reset. -/
theorem OnProbation.step {hash : Bytes} (h : OnProbation srv.dev hash)
    (hreq : srv.answer sha256 req = .ok (resp, srv')) (hreset : req ≠ .reset)
    (hconf : Request.confirms req = false) (hspare : srv.spares sha256 req = true) :
    OnProbation srv'.dev hash := by
  have hdev := answer_dev hreq
  cases req with
  | reset => exact absurd rfl hreset
  | erase => cases hspare
  | upload off len sha data =>
    obtain ⟨o, hu⟩ := hdev
    have hkeep := Device.uploadChunk_keepsRunning hu
    rcases Device.uploadChunk_slot1 hu with ⟨-, h1⟩ | ⟨hs, -⟩
    · exact ⟨hkeep.awaitingConfirm.trans h.awaiting, by rw [hkeep.slot0]; exact h.running,
        by rw [h1]; exact h.fallback⟩
    · simp [spares, hs] at hspare
  | setState named confirm =>
    rw [hdev]
    obtain ⟨r, dev', hs⟩ : ∃ r dev', srv.dev.setState named confirm = (r, dev') := ⟨_, _, rfl⟩
    rw [hs]
    rcases Device.setState_cases hs with
      ⟨msg, -, rfl, -⟩ | ⟨s0, h0, hh, -, -⟩ | ⟨s1, h1, rfl, -, -, rfl⟩
    · exact h
    · exfalso
      rcases hh with rfl | rfl
      · cases hconf
      · simp [spares, namesRunning, h0] at hspare
    · -- the fallback itself is marked: its digest and its confirmation stay
      obtain ⟨img, hi, hash, hc⟩ := h.fallback
      rw [h1] at hi
      cases hi
      exact ⟨h.awaiting, h.running, _, rfl, hash, hc⟩
  | _ =>
    rw [hdev]
    exact h

/-- **The fallback survives probation** under every sequence of requests, as long as none
of them erases, stages an image or names the image on probation: whatever else is
asked, the next reset runs the confirmed image from before the swap again. -/
theorem fallback_survives {A X : Image} (hwait : srv.dev.awaitingConfirm = false)
    (hA : srv.dev.slot0 = some A) (hconf : A.confirmed = true) (hX : srv.dev.slot1 = some X)
    (hpend : X.pending = true) (htest : X.permanent = false) {reqs : List Request}
    (hrun : Server.run sha256 { srv with dev := srv.dev.reset } reqs = .ok srv')
    (hno : ∀ req ∈ reqs, req ≠ .reset ∧ Request.confirms req = false)
    (hspare : Server.sparesAll sha256 { srv with dev := srv.dev.reset } reqs = true) :
    ∃ img, srv'.dev.reset.slot0 = some img ∧ img.hash = A.hash ∧ img.confirmed = true := by
  have hstart : OnProbation ({ srv with dev := srv.dev.reset } : Server).dev A.hash :=
    onProbation_of_swap hwait hA hconf hX hpend htest
  generalize ({ srv with dev := srv.dev.reset } : Server) = cur at hrun hspare hstart
  suffices OnProbation srv'.dev A.hash from this.reset
  induction reqs generalizing cur with
  | nil =>
    cases hrun
    exact hstart
  | cons req reqs ih =>
    obtain ⟨⟨hreset, hc⟩, hrest⟩ := List.forall_mem_cons.mp hno
    obtain ⟨hs, htail⟩ := Bool.and_eq_true_iff.mp hspare
    rw [Server.run] at hrun
    cases ha : cur.answer sha256 req with
    | error halt =>
      rw [ha] at hrun
      cases hrun
    | ok p =>
      rw [ha] at hrun htail
      exact ih hrest _ hrun htail (hstart.step ha hreset hc hs)

/-- Reading the state and offering the first half of another image spares the
fallback. -/
theorem fallback_survives_sample :
    ∃ srv', probationBoard.run sampleSha256 [.readState, .upload 0 (some 2) none [120]] = .ok srv' ∧
      ∃ img, srv'.dev.reset.slot0 = some img ∧ img.hash = sampleSha256 FACTORY_IMAGE ∧
        img.confirmed = true := by
  have hrun : Server.run sampleSha256 { stagedBoard with dev := stagedBoard.dev.reset }
      [.readState, .upload 0 (some 2) none [120]] =
      .ok { probationBoard with dev := { probationBoard.dev with
        upload := ⟨2, none, [120], 1, false⟩ } } := by
    decide +kernel
  exact ⟨_, hrun, fallback_survives rfl rfl rfl rfl rfl rfl hrun (by decide) (by decide +kernel)⟩

/-- **An erase during probation takes the way back.**  The reset after it leaves slot 0
empty. -/
theorem erase_loses_fallback :
    ¬ ∀ (sha256 : Bytes → Bytes) (srv srv' : Server) (marks : Marks) (A X : Image)
        (reqs : List Request), Reachable sha256 srv marks → srv.dev.awaitingConfirm = false →
        srv.dev.slot0 = some A → A.confirmed = true → srv.dev.slot1 = some X →
        X.pending = true → X.permanent = false →
        Server.run sha256 { srv with dev := srv.dev.reset } reqs = .ok srv' →
        (∀ req ∈ reqs, req ≠ .reset ∧ Request.confirms req = false) →
        ∃ img, srv'.dev.reset.slot0 = some img ∧ img.hash = A.hash ∧ img.confirmed = true := by
  intro hall
  obtain ⟨marks, hreach⟩ := reachable_sampleBoard.run run_stageSample
  obtain ⟨img, h0, -⟩ := hall sampleSha256 stagedBoard _ marks _ _ [.erase] hreach rfl rfl rfl rfl
    rfl rfl rfl (by decide)
  cases h0

end Server
end Runtt
