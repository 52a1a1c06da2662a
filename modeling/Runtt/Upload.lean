import Runtt.Bench

/-! # An upload, chunk by chunk

What an offset-following client and the mock's `upload_chunk` do together.  `InSync`
is what holds between two chunks; a chunk either keeps it and leaves less to do, or
ends the upload with the whole image received.
-/
namespace Runtt

open Interaction Program

namespace Device
variable {sha256 : Bytes → Bytes} {image : Bytes} {dev dev' : Device} {off n : Nat}

/-- The chunk at `off` is the one the device is ready for: a first chunk, or one that
continues what was received of this image. -/
structure InSync (sha256 : Bytes → Bytes) (image : Bytes) (dev : Device) (off : Nat) : Prop where
  inside : off < image.length
  continues : off = 0 ∨ (dev.upload.received = image.take off ∧
    dev.upload.expectedLen = image.length ∧ dev.upload.declaredSha = some (sha256 image))

/-- What is left to send: the rest of the image, and all of it again if the device may
still demand a restart. -/
def remaining (image : Bytes) (dev : Device) (off : Nat) : Nat :=
  (if dev.upload.restartDemanded then 0 else image.length + 1) + (image.length - off)

/-- The client's chunk of `n` bytes at `off`. -/
def clientChunk (sha256 : Bytes → Bytes) (image : Bytes) (dev : Device) (off n : Nat) :
    Except Halt (UploadOutcome × Device) :=
  dev.uploadChunk sha256 off (if off = 0 then some image.length else none)
    (if off = 0 then some (sha256 image) else none) ((image.drop off).take n)

/-- The device a client's chunk at `off` is judged against. -/
abbrev clientAt (sha256 : Bytes → Bytes) (image : Bytes) (dev : Device) (off : Nat) : Device :=
  dev.uploadAt off (if off = 0 then some image.length else none)
    (if off = 0 then some (sha256 image) else none)

theorem clientAt_upload (h : InSync sha256 image dev off) :
    (dev.clientAt sha256 image off).upload =
      { dev.upload with expectedLen := image.length, declaredSha := some (sha256 image),
                        received := image.take off,
                        chunks := if off = 0 then 0 else dev.upload.chunks } := by
  by_cases hoff : off = 0
  · subst hoff
    simp [clientAt, uploadAt, restartUpload]
  · rcases h.continues with hz | ⟨hrec, hlen, hsha⟩
    · exact absurd hz hoff
    · simp only [clientAt, uploadAt, if_neg hoff]
      rw [← hrec, ← hlen, ← hsha]

/-- A chunk that does not stage anything, or stages what can be recorded, returns. -/
theorem acceptChunk_returns {data : Bytes}
    (h : (dev.receive data).uploadComplete = true →
      ∃ img, Image.fromBytes sha256 (dev.receive data).upload.received "2.0.0+staged" = .ok img) :
    ∃ o dev', dev.acceptChunk sha256 off data = .ok (o, dev') := by
  unfold acceptChunk
  split
  · exact ⟨_, _, rfl⟩
  · simp only
    split
    · exact ⟨_, _, rfl⟩
    · split
      · exact ⟨_, _, rfl⟩
      · rename_i hc
        split
        · obtain ⟨img, hb⟩ := h (by simpa using hc)
          rw [hb]
          exact ⟨_, _, rfl⟩
        · exact ⟨_, _, rfl⟩

/-! What an in-step chunk comes to, by what it meets. -/

section
variable {data : Bytes} (dev) (hd : dev.demandsRestart off = false)
include hd

theorem acceptChunk_silent (hs : (dev.receive data).goesSilent = true) :
    dev.acceptChunk sha256 off data = .ok (.goSilent, dev.receive data) := by
  simp only [acceptChunk, hd, hs, Bool.false_eq_true, if_false, if_true]

variable (hs : (dev.receive data).goesSilent = false)
include hs

theorem acceptChunk_open (hc : (dev.receive data).uploadComplete = false) :
    dev.acceptChunk sha256 off data =
      .ok (.continueAt (dev.receive data).upload.received.length, dev.receive data) := by
  simp only [acceptChunk, hd, hs, hc, Bool.false_eq_true, if_false, Bool.not_false, if_true]

variable (hc : (dev.receive data).uploadComplete = true)
include hc

theorem acceptChunk_mismatch (hm : (dev.receive data).uploadMatches sha256 = false) :
    dev.acceptChunk sha256 off data =
      .ok (.complete (dev.receive data).upload.received.length false, dev.receive data) := by
  simp only [acceptChunk, hd, hs, hc, hm, Bool.false_eq_true, if_false, Bool.not_true]

theorem acceptChunk_staged {img : Image} (hm : (dev.receive data).uploadMatches sha256 = true)
    (hb : Image.fromBytes sha256 (dev.receive data).upload.received "2.0.0+staged" = .ok img) :
    dev.acceptChunk sha256 off data =
      .ok (.complete (dev.receive data).upload.received.length true,
        { dev.receive data with slot1 := some img }) := by
  simp only [acceptChunk, hd, hs, hc, hm, hb, Bool.false_eq_true, if_false, Bool.not_true, if_true]
  rfl

end

theorem clientChunk_eq (h : InSync sha256 image dev off) :
    dev.clientChunk sha256 image off n =
      (dev.clientAt sha256 image off).acceptChunk sha256 off ((image.drop off).take n) := by
  unfold clientChunk uploadChunk
  by_cases hoff : off = 0
  · subst hoff
    rfl
  · have hlen : off = dev.upload.received.length := by
      rcases h.continues with hz | ⟨hrec, -⟩
      · exact absurd hz hoff
      · rw [hrec, List.length_take, Nat.min_eq_left (Nat.le_of_lt h.inside)]
    simp only [clientAt, uploadAt, if_neg hoff]
    rw [if_neg (fun hne => hne hlen)]

/-- After the chunk at `off` the image is received up to `off + n`. -/
theorem receive_client (h : InSync sha256 image dev off) :
    ((dev.clientAt sha256 image off).receive ((image.drop off).take n)).upload.received =
      image.take (off + n) := by
  simp only [receive, clientAt_upload h]
  rw [List.take_add]

theorem receive_client_complete (h : InSync sha256 image dev off) :
    ((dev.clientAt sha256 image off).receive ((image.drop off).take n)).uploadComplete = true ↔
      image.length ≤ off + n := by
  have hpos : 0 < image.length := Nat.lt_of_le_of_lt (Nat.zero_le _) h.inside
  have hlen : ((dev.clientAt sha256 image off).receive
      ((image.drop off).take n)).upload.expectedLen = image.length := by
    simp only [receive, clientAt_upload h]
  simp only [uploadComplete, hlen, receive_client h, List.length_take, Bool.and_eq_true,
    decide_eq_true_eq]
  omega

theorem demandsRestart_iff : dev.demandsRestart off = true ↔
    ∃ atOffset, dev.fault = .restartUpload atOffset ∧ dev.upload.restartDemanded = false ∧
      atOffset ≤ off ∧ 0 < off := by
  unfold demandsRestart
  cases dev.fault <;> simp [and_assoc]

theorem goesSilent_fault (h : dev.goesSilent = true) :
    ∃ afterChunks, dev.fault = .disconnectMidUpload afterChunks := by
  unfold goesSilent at h
  split at h
  · exact ⟨_, ‹_›⟩
  · cases h

/-- The declared digest is that of the received bytes: only a fault denies it. -/
theorem uploadMatches_fault (hsha : dev.upload.declaredSha = some (sha256 dev.upload.received))
    (h : dev.uploadMatches sha256 = false) : dev.fault = .badHash := by
  unfold uploadMatches at h
  split at h
  · assumption
  · rw [hsha, beq_self_eq_true] at h
    cases h

/-- **Everything a client's chunk can do**, if it returns. -/
theorem clientChunk_outcomes {o : UploadOutcome} (h : InSync sha256 image dev off) (hn : 0 < n)
    (hchunk : dev.clientChunk sha256 image off n = .ok (o, dev')) :
    dev.KeepsRunning dev' ∧
      ((o = .goSilent ∧ (∃ afterChunks, dev.fault = .disconnectMidUpload afterChunks) ∧
          dev'.slot1 = dev.slot1) ∨
       (∃ off', o = .continueAt off' ∧ InSync sha256 image dev' off' ∧ dev'.slot1 = dev.slot1 ∧
         dev'.remaining image off' < dev.remaining image off ∧
         (off' = 0 ∨ off' = off + n ∧
           dev'.upload.chunks = (if off = 0 then 0 else dev.upload.chunks) + 1)) ∨
       (o = .complete image.length false ∧ dev.fault = .badHash ∧ dev'.slot1 = dev.slot1) ∨
       (o = .complete image.length true ∧
         ∃ img, Image.fromBytes sha256 image "2.0.0+staged" = .ok img ∧
           dev'.slot1 = some img)) := by
  have hkeep : dev.KeepsRunning (dev.clientAt sha256 image off) := uploadAt_keepsRunning ..
  have hslot1 : (dev.clientAt sha256 image off).slot1 = dev.slot1 := uploadAt_slot1 ..
  have hup := clientAt_upload h
  have hreceived := receive_client (n := n) h
  have hcomplete := receive_client_complete (n := n) h
  have hinside := h.inside
  rw [clientChunk_eq h] at hchunk
  generalize dev.clientAt sha256 image off = up at *
  have hdemanded : up.upload.restartDemanded = dev.upload.restartDemanded := by rw [hup]
  have hlength : (up.receive ((image.drop off).take n)).upload.received.length =
      min (off + n) image.length := by rw [hreceived, List.length_take]
  -- once everything has arrived, what was received is the image
  have hwhole (hc : (up.receive ((image.drop off).take n)).uploadComplete = true) :
      (up.receive ((image.drop off).take n)).upload.received = image := by
    rw [hreceived, List.take_of_length_le (hcomplete.mp hc)]
  refine ⟨hkeep.trans (acceptChunk_keepsRunning hchunk), ?_⟩
  rcases acceptChunk_cases hchunk with
    ⟨hd, rfl, rfl⟩ | ⟨-, hs, rfl, rfl⟩ | ⟨-, -, hc, rfl, rfl⟩ |
    ⟨-, -, hc, -, img, hb, rfl, rfl⟩ | ⟨-, -, hc, hm, rfl, rfl⟩
  · -- the one restart: from the beginning, and not again
    obtain ⟨-, -, hnot, -⟩ := demandsRestart_iff.mp hd
    refine .inr (.inl ⟨0, rfl, ⟨by omega, .inl rfl⟩, hslot1, ?_, .inl rfl⟩)
    simp only [remaining, ← hdemanded, hnot, if_true, Bool.false_eq_true, if_false]
    omega
  · obtain ⟨afterChunks, hfault⟩ := goesSilent_fault hs
    exact .inl ⟨rfl, ⟨afterChunks, hkeep.fault.symm.trans hfault⟩, hslot1⟩
  · have hlt : off + n < image.length := by
      rw [← Nat.not_le, ← hcomplete, hc]
      exact Bool.false_ne_true
    rw [Nat.min_eq_left (Nat.le_of_lt hlt)] at hlength
    refine .inr (.inl ⟨off + n, by rw [hlength], ⟨hlt, .inr ⟨hreceived, ?_, ?_⟩⟩, hslot1, ?_,
      .inr ⟨rfl, ?_⟩⟩)
    · simp only [receive, hup]
    · simp only [receive, hup]
    · simp only [remaining, receive, hdemanded]
      omega
    · simp only [receive, hup]
  · rw [hwhole hc] at hb
    exact .inr (.inr (.inr ⟨by rw [hwhole hc], img, hb, rfl⟩))
  · refine .inr (.inr (.inl ⟨by rw [hwhole hc], ?_, hslot1⟩))
    have hsha : (up.receive ((image.drop off).take n)).upload.declaredSha =
        some (sha256 (up.receive ((image.drop off).take n)).upload.received) := by
      rw [hwhole hc]
      simp only [receive, hup]
    have hbad : (up.receive ((image.drop off).take n)).fault = .badHash :=
      uploadMatches_fault hsha hm
    exact hkeep.fault.symm.trans hbad

/-- **Everything a client's chunk can do**, to an image the device can record as
`img`. -/
theorem clientChunk_cases {img : Image} (h : InSync sha256 image dev off) (hn : 0 < n)
    (hrec : Image.fromBytes sha256 image "2.0.0+staged" = .ok img) :
    ∃ o dev', dev.clientChunk sha256 image off n = .ok (o, dev') ∧ dev.KeepsRunning dev' ∧
      ((o = .goSilent ∧ dev.fault ≠ .none ∧ dev'.slot1 = dev.slot1) ∨
       (∃ off', o = .continueAt off' ∧ InSync sha256 image dev' off' ∧ dev'.slot1 = dev.slot1 ∧
         dev'.remaining image off' < dev.remaining image off) ∨
       (o = .complete image.length false ∧ dev.fault ≠ .none ∧ dev'.slot1 = dev.slot1) ∨
       (o = .complete image.length true ∧ dev'.slot1 = some img)) := by
  obtain ⟨o, dev', hchunk⟩ : ∃ o dev', dev.clientChunk sha256 image off n = .ok (o, dev') := by
    rw [clientChunk_eq h]
    refine acceptChunk_returns fun hc => ⟨img, ?_⟩
    rw [receive_client h, List.take_of_length_le ((receive_client_complete h).mp hc), hrec]
  obtain ⟨hkeep, hcases⟩ := clientChunk_outcomes h hn hchunk
  refine ⟨o, dev', hchunk, hkeep, ?_⟩
  rcases hcases with ⟨ho, ⟨_, hf⟩, hs⟩ | ⟨off', ho, hsync, hs, hrem, -⟩ | ⟨ho, hf, hs⟩ |
    ⟨ho, img', hrec', hs⟩
  · exact .inl ⟨ho, fun hnone => (nomatch hf.symm.trans hnone), hs⟩
  · exact .inr (.inl ⟨off', ho, hsync, hs, hrem⟩)
  · exact .inr (.inr (.inl ⟨ho, fun hnone => (nomatch hf.symm.trans hnone), hs⟩))
  · rw [hrec] at hrec'
    cases hrec'
    exact .inr (.inr (.inr ⟨ho, hs⟩))

end Device

/-! ## The whole upload -/

variable {env : Env} {sha256 : Bytes → Bytes} {image : Bytes} {w w' : World}

/-- What an upload of the image recorded as `img` leaves behind: the running image is
untouched, and slot 1 holds what it did, or that image. -/
structure Offered (img : Image) (w w' : World) : Prop where
  hung : w'.hung = w.hung
  tick : w'.tick = w.tick
  contract : w'.srv.contract = w.srv.contract
  keeps : w.srv.dev.KeepsRunning w'.srv.dev
  slot1 : w'.srv.dev.slot1 = w.srv.dev.slot1 ∨ w'.srv.dev.slot1 = some img

theorem Offered.refl (img : Image) (w : World) : Offered img w w :=
  ⟨rfl, rfl, rfl, .refl _, .inl rfl⟩

theorem Offered.trans {img : Image} {w'' : World} (h : Offered img w w') (h' : Offered img w' w'') :
    Offered img w w'' where
  hung := h'.hung.trans h.hung
  tick := h'.tick.trans h.tick
  contract := h'.contract.trans h.contract
  keeps := h.keeps.trans h'.keeps
  slot1 := h'.slot1.elim (fun hs => by rw [hs]; exact h.slot1) .inr

/-- The server answers whatever it is asked: no fault, no silence. -/
structure Responsive (w : World) : Prop where
  noFault : w.srv.dev.fault = .none
  notSilent : w.srv.silent = false
  notHung : w.hung = false

theorem Responsive.hears (h : Responsive w) (req : Request) : w.hears req = true := by
  simp [World.hears, h.notHung, h.notSilent, Server.withholds, h.noFault]

theorem Responsive.of_srv (h : Responsive w) (hsrv : w'.srv = w.srv) (hhung : w'.hung = w.hung) :
    Responsive w' := by
  refine ⟨?_, ?_, hhung.trans h.notHung⟩ <;> rw [hsrv]
  exacts [h.noFault, h.notSilent]

/-- The device moved, and kept the fault. -/
theorem Responsive.move (h : Responsive w) {dev : Device} (hfault : dev.fault = w.srv.dev.fault) :
    Responsive { w with srv := { w.srv with dev } } :=
  ⟨hfault.trans h.noFault, h.notSilent, h.notHung⟩

theorem Responsive.next (h : Responsive w) : Responsive w.next :=
  ⟨h.noFault, h.notSilent, h.notHung⟩

/-- A responsive server answers an echo with what it was sent. -/
theorem Responsive.bench_echo (h : Responsive w) (payload : String) :
    env.bench sha256 (.echo payload) w = (.ok payload, w) := by
  unfold Env.bench
  exact call_hears (h.hears (.echo payload)) rfl

theorem Responsive.bench_params (h : Responsive w) :
    env.bench sha256 .params w = (.ok (), w) := by
  unfold Env.bench
  exact call_hears (h.hears .mcumgrParams) rfl

theorem Responsive.bench_imageList (h : Responsive w) : env.bench sha256 .imageList w =
    (.ok (w.srv.dev.imageStates.map SlotReport.toImageSlot), w) := by
  unfold Env.bench
  exact call_hears (h.hears .readState) rfl

theorem Responsive.bench_reset (h : Responsive w) : env.bench sha256 .reset w =
    (.ok (), { w with srv := { w.srv with dev := w.srv.dev.reset } }) := by
  unfold Env.bench
  exact call_hears (h.hears .reset) rfl

/-! ### The first calls of a deploy, along a trace -/

section Along
variable {t : List Event}

theorem along_openChannel {c : Except Error Unit}
    (h : Along (env.bench sha256) w (⟨.openChannel, c⟩ :: t) w') :
    c = env.connect w.tick ∧ Along (env.bench sha256) w.next t w' := along_cons_iff.mp h

theorem along_params (hr : Responsive w) {p : Except Error Unit}
    (h : Along (env.bench sha256) w (⟨.params, p⟩ :: t) w') :
    Along (env.bench sha256) w t w' := by
  have h₂ := (along_cons_iff.mp h).2
  rwa [hr.bench_params] at h₂

theorem along_echo (hr : Responsive w) {payload : String} {r : Except Error String}
    (h : Along (env.bench sha256) w (⟨.echo payload, r⟩ :: t) w') :
    r = .ok payload ∧ Along (env.bench sha256) w t w' := by
  have hc := along_cons_iff.mp h
  rwa [hr.bench_echo] at hc

theorem along_describe {a : Except Error Describe}
    (h : Along (env.bench sha256) w (⟨.describe, a⟩ :: t) w') :
    a = env.describe w.tick w.srv ∧ Along (env.bench sha256) w.next t w' := along_cons_iff.mp h

theorem along_imageList (hr : Responsive w) {r : Except Error (List ImageSlot)}
    (h : Along (env.bench sha256) w (⟨.imageList, r⟩ :: t) w') :
    r = .ok (w.srv.dev.imageStates.map SlotReport.toImageSlot) ∧
      Along (env.bench sha256) w t w' := by
  have hc := along_cons_iff.mp h
  rwa [hr.bench_imageList] at hc

end Along

variable (env) in
/-- One chunk of the toolkit's upload, as the bench plays it. -/
theorem ask_chunk {img : Image} {off : Nat} (hsync : w.srv.dev.InSync sha256 image off)
    (hrec : Image.fromBytes sha256 image "2.0.0+staged" = .ok img) :
    ∃ resp w', w.ask sha256 (env.chunkRequest sha256 image off) = (resp, w') ∧ Offered img w w' ∧
      ((resp = none ∧ ¬ Responsive w) ∨
       (∃ off', resp = some (.continueAt off') ∧ w'.srv.dev.InSync sha256 image off' ∧
         w'.srv.dev.remaining image off' < w.srv.dev.remaining image off ∧
         w'.srv.silent = w.srv.silent) ∨
       (resp = some (.complete image.length false) ∧ ¬ Responsive w) ∨
       (resp = some (.complete image.length true) ∧ w'.srv.dev.slot1 = some img ∧
         w'.srv.silent = w.srv.silent)) := by
  cases hh : w.hears (env.chunkRequest sha256 image off) with
  | false =>
    refine ⟨none, w, ask_deaf hh, .refl _ _, .inl ⟨rfl, ?_⟩⟩
    intro hr
    rw [hr.hears] at hh
    cases hh
  | true =>
    obtain ⟨o, dev', hchunk, hkeep, hcases⟩ :=
      Device.clientChunk_cases hsync (env.chunkLen_pos off) hrec
    have hoffered (hs : dev'.slot1 = w.srv.dev.slot1 ∨ dev'.slot1 = some img) (silent : Bool) :
        Offered img w { w with srv := { w.srv with dev := dev', silent } } :=
      ⟨rfl, rfl, rfl, hkeep, hs⟩
    have hask (resp : Option Response) (silent : Bool)
        (ha : w.srv.answer sha256 (env.chunkRequest sha256 image off) =
          .ok (resp, { w.srv with dev := dev', silent })) :
        w.ask sha256 (env.chunkRequest sha256 image off) =
          (resp, { w with srv := { w.srv with dev := dev', silent } }) := ask_hears hh ha
    have hchunk' : w.srv.dev.uploadChunk sha256 off (if off = 0 then some image.length else none)
        (if off = 0 then some (sha256 image) else none)
        ((image.drop off).take (env.chunkLen off)) = .ok (o, dev') := hchunk
    rcases hcases with ⟨rfl, hf, hs⟩ | ⟨off', rfl, hsync', hs, hrem⟩ | ⟨rfl, hf, hs⟩ | ⟨rfl, hs⟩
    · refine ⟨_, _, hask none true ?_, hoffered (.inl hs) _, .inl ⟨rfl, fun hr => hf hr.noFault⟩⟩
      simp only [Env.chunkRequest, Server.answer, hchunk', bind_ok]
      rfl
    · refine ⟨_, _, hask (some (.continueAt off')) w.srv.silent ?_, hoffered (.inl hs) _,
        .inr (.inl ⟨off', rfl, hsync', hrem, rfl⟩)⟩
      simp only [Env.chunkRequest, Server.answer, hchunk', bind_ok]
      rfl
    · refine ⟨_, _, hask (some (.complete image.length false)) w.srv.silent ?_,
        hoffered (.inl hs) _, .inr (.inr (.inl ⟨rfl, fun hr => hf hr.noFault⟩))⟩
      simp only [Env.chunkRequest, Server.answer, hchunk', bind_ok]
      rfl
    · refine ⟨_, _, hask (some (.complete image.length true)) w.srv.silent ?_,
        hoffered (.inr hs) _, .inr (.inr (.inr ⟨rfl, hs, rfl⟩))⟩
      simp only [Env.chunkRequest, Server.answer, hchunk', bind_ok]
      rfl

variable (env) in
/-- **The upload loop returns**, with fuel for what is left to send, and against a
responsive server it succeeds with the image in slot 1. -/
theorem uploadLoop_returns {img : Image} {off fuel : Nat}
    (hrec : Image.fromBytes sha256 image "2.0.0+staged" = .ok img)
    (hsync : w.srv.dev.InSync sha256 image off)
    (hfuel : w.srv.dev.remaining image off < fuel) :
    ∃ r w', env.uploadLoop sha256 image fuel off w = (some r, w') ∧ Offered img w w' ∧
      (Responsive w → r = .ok () ∧ w'.srv.dev.slot1 = some img ∧ w'.srv.silent = false) := by
  induction fuel generalizing off w with
  | zero => exact absurd hfuel (Nat.not_lt_zero _)
  | succ fuel ih =>
    obtain ⟨resp, w₁, hask, hoff, hcases⟩ := ask_chunk env hsync hrec
    simp only [Env.uploadLoop, hask]
    rcases hcases with ⟨rfl, hr⟩ | ⟨off', rfl, hsync', hrem, hsil⟩ | ⟨rfl, hr⟩ | ⟨rfl, hs, hsil⟩
    · exact ⟨_, _, rfl, hoff, fun h => absurd h hr⟩
    · simp only [hsync'.inside, if_true]
      obtain ⟨r, w₂, hloop, hoff', hok⟩ := ih hsync' (by omega)
      refine ⟨r, w₂, hloop, hoff.trans hoff', fun h => hok ?_⟩
      exact ⟨hoff.keeps.fault.trans h.noFault, hsil.trans h.notSilent, hoff.hung.trans h.notHung⟩
    · simp only [Nat.lt_irrefl, if_false]
      exact ⟨_, _, rfl, hoff, fun h => absurd h hr⟩
    · simp only [Nat.lt_irrefl, if_false]
      exact ⟨_, _, rfl, hoff, fun h => ⟨rfl, hs, hsil.trans h.notSilent⟩⟩

variable (env w) in
/-- **A flash of an accepted image** leaves the running image alone and offers the
uploaded one; a responsive server takes it. -/
theorem flash_cases {img : Image} (hpos : 0 < image.length)
    (hrec : Image.fromBytes sha256 image "2.0.0+staged" = .ok img) :
    ∃ r w', env.bench sha256 (.flash image) w = (r, w') ∧ Offered img w w' ∧
      (Responsive w → r = .ok () ∧ w'.srv.dev.slot1 = some img ∧ Responsive w') := by
  have hfuel : w.srv.dev.remaining image 0 < Env.uploadFuel image := by
    unfold Device.remaining Env.uploadFuel
    split <;> omega
  obtain ⟨r, w', hloop, hoff, hok⟩ := uploadLoop_returns env hrec ⟨hpos, .inl rfl⟩ hfuel
  refine ⟨r, w', ?_, hoff, ?_⟩
  · simp only [Env.bench, Env.upload, hloop]
    rfl
  · intro h
    obtain ⟨hr, hs, hsil⟩ := hok h
    exact ⟨hr, hs, hoff.keeps.fault.trans h.noFault, hsil, hoff.hung.trans h.notHung⟩

end Runtt
