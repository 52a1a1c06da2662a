import Runtt.Resend

/-! # Uploads to a mock with a fault

`Lands` is the condition under which a mock takes a whole image, fault by fault; a flash
returns `Ok` exactly then.  Only the disconnect is a matter of counting: the mock falls
silent at its chunk, so an image of fewer chunks never gets there.
-/
namespace Runtt

variable {env : Env} {sha256 : Bytes → Bytes} {image : Bytes} {w w' : World}

namespace Env

/-- How many chunks the toolkit puts the rest of `size` bytes in, from an offset on. -/
def chunksFrom (env : Env) (size off : Nat) : Nat :=
  if off < size then env.chunksFrom size (off + env.chunkLen off) + 1 else 0
termination_by size - off
decreasing_by
  have hpos := env.chunkLen_pos off
  omega

theorem chunksFrom_inside {size off : Nat} (h : off < size) :
    env.chunksFrom size off = env.chunksFrom size (off + env.chunkLen off) + 1 := by
  rw [chunksFrom, if_pos h]

theorem chunksFrom_end {size off : Nat} (h : size ≤ off) : env.chunksFrom size off = 0 := by
  rw [chunksFrom, if_neg (Nat.not_lt.mpr h)]

/-- The mock takes the whole of `image`, and the client is content with its answer. -/
def Lands (env : Env) (image : Bytes) : Fault → Prop
  | .timeout group cmd => (group, cmd) ≠ (GROUP_IMG, IMG_UPLOAD)
  | .badHash => env.toleratesMismatch = true
  | .disconnectMidUpload afterChunks => env.chunksFrom image.length 0 < afterChunks.toNat
  | _ => True

end Env

namespace Device
variable {dev dev' : Device} {off n : Nat}

/-- The chunks of the upload that a chunk at `off` belongs to, so far. -/
def chunksAt (dev : Device) (off : Nat) : UInt32 := if off = 0 then 0 else dev.upload.chunks

theorem goesSilent_iff : dev.goesSilent = true ↔
    ∃ k, dev.fault = .disconnectMidUpload k ∧ k ≤ dev.upload.chunks := by
  unfold goesSilent
  cases dev.fault <;> simp

theorem uploadMatches_badHash (h : dev.fault = .badHash) : dev.uploadMatches sha256 = false := by
  unfold uploadMatches
  rw [h]

/-- The client's chunk is one too many for a mock that disconnects. -/
theorem receive_client_silent (h : InSync sha256 image dev off) :
    ((dev.clientAt sha256 image off).receive ((image.drop off).take n)).goesSilent = true ↔
      ∃ k, dev.fault = .disconnectMidUpload k ∧ k ≤ dev.chunksAt off + 1 := by
  have hkeep : dev.KeepsRunning (dev.clientAt sha256 image off) := uploadAt_keepsRunning ..
  rw [goesSilent_iff]
  simp only [receive, clientAt_upload h, hkeep.fault, chunksAt]

/-- **Everything a client's chunk can do, and at which fault.** -/
theorem clientChunk_faults {img : Image} (h : InSync sha256 image dev off) (hn : 0 < n)
    (hrec : Image.fromBytes sha256 image "2.0.0+staged" = .ok img) :
    ∃ o dev', dev.clientChunk sha256 image off n = .ok (o, dev') ∧ dev.KeepsRunning dev' ∧
      ((o = .goSilent ∧ dev'.slot1 = dev.slot1 ∧
          ∃ k, dev.fault = .disconnectMidUpload k ∧ k ≤ dev.chunksAt off + 1) ∨
       ((¬ ∃ k, dev.fault = .disconnectMidUpload k ∧ k ≤ dev.chunksAt off + 1) ∧
        ((∃ off', o = .continueAt off' ∧ InSync sha256 image dev' off' ∧
            dev'.slot1 = dev.slot1 ∧ dev'.remaining image off' < dev.remaining image off ∧
            ((∃ atOffset, dev.fault = .restartUpload atOffset) ∨
              off' = off + n ∧ dev'.chunksAt off' = dev.chunksAt off + 1)) ∨
         (image.length ≤ off + n ∧ o = .complete image.length false ∧ dev.fault = .badHash ∧
            dev'.slot1 = dev.slot1) ∨
         (image.length ≤ off + n ∧ o = .complete image.length true ∧ dev.fault ≠ .badHash ∧
            dev'.slot1 = some img)))) := by
  have hkeeps : dev.KeepsRunning (dev.clientAt sha256 image off) := uploadAt_keepsRunning ..
  have hsilent := receive_client_silent (n := n) h
  have hcomplete := receive_client_complete (n := n) h
  have hinside := h.inside
  obtain ⟨o, dev', hchunk, -⟩ := clientChunk_cases h hn hrec
  obtain ⟨hkeep, hcases⟩ := clientChunk_outcomes h hn hchunk
  refine ⟨o, dev', hchunk, hkeep, ?_⟩
  rw [clientChunk_eq h] at hchunk
  rcases acceptChunk_cases hchunk with
    ⟨hd, rfl, -⟩ | ⟨-, hs, rfl, -⟩ | ⟨-, hs, hc, rfl, -⟩ | ⟨-, hs, hc, hm, img', hb, rfl, -⟩ |
    ⟨-, hs, hc, hm, rfl, -⟩
  · -- the one restart
    obtain ⟨atOffset, hfault, -⟩ := demandsRestart_iff.mp hd
    rw [hkeeps.fault] at hfault
    have hno : ¬ ∃ k, dev.fault = .disconnectMidUpload k ∧ k ≤ dev.chunksAt off + 1 := by
      rintro ⟨k, hk, -⟩
      rw [hfault] at hk
      cases hk
    rcases hcases with ⟨ho, -⟩ | ⟨off', ho, hsync, hs, hrem, -⟩ | ⟨ho, -⟩ | ⟨ho, -⟩
    · cases ho
    · exact .inr ⟨hno, .inl ⟨off', ho, hsync, hs, hrem, .inl ⟨atOffset, hfault⟩⟩⟩
    · cases ho
    · cases ho
  · rcases hcases with ⟨-, -, hslot⟩ | ⟨off', ho, -⟩ | ⟨ho, -⟩ | ⟨ho, -⟩
    · exact .inl ⟨rfl, hslot, hsilent.mp hs⟩
    · cases ho
    · cases ho
    · cases ho
  all_goals
    have hno : ¬ ∃ k, dev.fault = .disconnectMidUpload k ∧ k ≤ dev.chunksAt off + 1 := by
      rw [← hsilent, hs]
      exact Bool.false_ne_true
    refine .inr ⟨hno, ?_⟩
  · have hlt : off + n < image.length := by
      rw [← Nat.not_le, ← hcomplete, hc]
      exact Bool.false_ne_true
    rw [receive_client h, List.length_take, Nat.min_eq_left (Nat.le_of_lt hlt)] at hcases ⊢
    rcases hcases with ⟨ho, -⟩ | ⟨off', ho, hsync, hslot, hrem, hoff⟩ | ⟨ho, -⟩ | ⟨ho, -⟩
    · cases ho
    · cases ho
      refine .inl ⟨off + n, rfl, hsync, hslot, hrem, .inr ⟨rfl, ?_⟩⟩
      rcases hoff with hzero | ⟨-, hchunks⟩
      · omega
      · rw [chunksAt, if_neg (by omega), hchunks, chunksAt]
    · cases ho
    · cases ho
  · rcases hcases with ⟨ho, -⟩ | ⟨off', ho, -⟩ | ⟨ho, -⟩ | ⟨ho, img'', hrec', hslot⟩
    · cases ho
    · cases ho
    · cases (UploadOutcome.complete.inj ho).2
    · rw [hrec] at hrec'
      cases hrec'
      refine .inr (.inr ⟨hcomplete.mp hc, ho, ?_, hslot⟩)
      intro hbad
      have hfault : ((dev.clientAt sha256 image off).receive
          ((image.drop off).take n)).fault = .badHash := hkeeps.fault.trans hbad
      rw [uploadMatches_badHash hfault] at hm
      cases hm
  · rcases hcases with ⟨ho, -⟩ | ⟨off', ho, -⟩ | ⟨ho, hbad, hslot⟩ | ⟨ho, -⟩
    · cases ho
    · cases ho
    · exact .inr (.inl ⟨hcomplete.mp hc, ho, hbad, hslot⟩)
    · cases (UploadOutcome.complete.inj ho).2

end Device

/-! ## The whole upload -/

/-- The rest of the image lands, from a chunk at `off` on. -/
def LandsFrom (env : Env) (image : Bytes) (dev : Device) (off : Nat) : Prop :=
  (dev.fault = .badHash → env.toleratesMismatch = true) ∧
    ∀ k, dev.fault = .disconnectMidUpload k →
      (dev.chunksAt off).toNat + env.chunksFrom image.length off < k.toNat

/-- The counter of chunks has not reached the disconnect. -/
def Counted (dev : Device) (off : Nat) : Prop :=
  ∀ k, dev.fault = .disconnectMidUpload k →
    (dev.chunksAt off).toNat = 0 ∨ (dev.chunksAt off).toNat < k.toNat

/-- One more chunk is counted without overflow. -/
theorem Counted.succ {dev : Device} {off : Nat} (h : Counted dev off) {k : UInt32}
    (hk : dev.fault = .disconnectMidUpload k) :
    (dev.chunksAt off + 1).toNat = (dev.chunksAt off).toNat + 1 := by
  have hlt := k.toNat_lt
  rw [UInt32.toNat_add]
  have hone : (1 : UInt32).toNat = 1 := rfl
  rcases h k hk with hz | hz <;> omega

/-- What a chunk's outcome comes to over the bench. -/
def World.afterChunk (w : World) (dev : Device) : UploadOutcome → Option Response × World
  | .goSilent => (none, { w with srv := { w.srv with dev, silent := true } })
  | .continueAt off => (some (.continueAt off), { w with srv := { w.srv with dev } })
  | .complete off matched =>
    (some (.complete off matched), { w with srv := { w.srv with dev } })

theorem ask_chunk_hears {dev' : Device} {off : Nat} {o : UploadOutcome}
    (hh : w.hears (env.chunkRequest sha256 image off) = true)
    (hchunk : w.srv.dev.clientChunk sha256 image off (env.chunkLen off) = .ok (o, dev')) :
    w.ask sha256 (env.chunkRequest sha256 image off) = w.afterChunk dev' o := by
  rw [Device.clientChunk] at hchunk
  cases o with
  | goSilent | continueAt off' | complete off' matched =>
    refine ask_hears hh ?_
    simp only [Env.chunkRequest, Server.answer, hchunk, bind_ok]
    rfl

/-- The server dispatches upload requests. -/
structure TakesChunks (w : World) : Prop where
  notHung : w.hung = false
  notSilent : w.srv.silent = false
  notWithheld : w.srv.withholds (GROUP_IMG, IMG_UPLOAD) = false

theorem TakesChunks.hears (h : TakesChunks w) (off : Nat) :
    w.hears (env.chunkRequest sha256 image off) = true := by
  have hw : w.srv.withholds (env.chunkRequest sha256 image off).command = false := h.notWithheld
  simp [World.hears, h.notHung, h.notSilent, hw]

theorem TakesChunks.move (h : TakesChunks w) {dev : Device} (hfault : dev.fault = w.srv.dev.fault) :
    TakesChunks { w with srv := { w.srv with dev } } := by
  refine ⟨h.notHung, h.notSilent, ?_⟩
  rw [Server.withholds, hfault]
  exact h.notWithheld

variable (env) in
/-- **How the upload loop ends**, with fuel for what is left to send. -/
theorem uploadLoop_faults {img : Image} {off fuel : Nat}
    (hrec : Image.fromBytes sha256 image "2.0.0+staged" = .ok img)
    (htakes : TakesChunks w) (hsync : w.srv.dev.InSync sha256 image off)
    (hcount : Counted w.srv.dev off)
    (hfuel : w.srv.dev.remaining image off < fuel) :
    ∃ r w', env.uploadLoop sha256 image fuel off w = (some r, w') ∧ Offered img w w' ∧
      (r = .ok () ↔ LandsFrom env image w.srv.dev off) ∧
      (r = .ok () → w'.srv.silent = false ∧
        w'.srv.dev.slot1 = if w.srv.dev.fault = .badHash then w.srv.dev.slot1 else some img) := by
  induction fuel generalizing off w with
  | zero => exact absurd hfuel (Nat.not_lt_zero _)
  | succ fuel ih =>
    obtain ⟨o, dev', hchunk, hkeep, hcases⟩ :=
      Device.clientChunk_faults hsync (env.chunkLen_pos off) hrec
    have hask := ask_chunk_hears (htakes.hears off) hchunk
    have hinside := hsync.inside
    have hlast : image.length ≤ off + env.chunkLen off → env.chunksFrom image.length off = 1 := by
      intro hle
      rw [Env.chunksFrom_inside hinside, Env.chunksFrom_end hle]
    have hoffered (slot1 : dev'.slot1 = w.srv.dev.slot1 ∨ dev'.slot1 = some img) (silent : Bool) :
        Offered img w { w with srv := { w.srv with dev := dev', silent } } :=
      ⟨rfl, rfl, rfl, hkeep, slot1⟩
    rw [Env.uploadLoop, hask]
    rcases hcases with ⟨rfl, hs, k, hk, hle⟩ |
      ⟨hno, ⟨off', rfl, hsync', hs, hrem, hwhy⟩ | ⟨hle, rfl, hbad, hs⟩ | ⟨hle, rfl, hbad, hs⟩⟩
    · -- the chunk of the disconnect
      refine ⟨_, _, rfl, hoffered (.inl hs) _, ?_, ?_⟩
      · refine iff_of_false (fun h => by cases h) ?_
        rintro ⟨-, hlands⟩
        have hroom := hlands k hk
        rw [Env.chunksFrom_inside hinside] at hroom
        have hreached := UInt32.le_iff_toNat_le.mp hle
        rw [hcount.succ hk] at hreached
        omega
      · intro h
        cases h
    · have hcount' : Counted dev' off' := by
        intro k hk
        rw [hkeep.fault] at hk
        rcases hwhy with ⟨atOffset, hfault⟩ | ⟨-, hchunks⟩
        · rw [hfault] at hk
          cases hk
        · rw [hchunks, ← UInt32.lt_iff_toNat_lt, ← UInt32.not_le]
          exact .inr fun hle => hno ⟨k, hk, hle⟩
      obtain ⟨r, w₂, hloop, hoff₂, hiff, hend⟩ :=
        ih (htakes.move hkeep.fault) hsync' hcount'
          (Nat.lt_of_lt_of_le hrem (Nat.le_of_lt_succ hfuel))
      refine ⟨r, w₂, (if_pos hsync'.inside).trans hloop, (hoffered (.inl hs) _).trans hoff₂,
        hiff.trans ?_, fun hr => ?_⟩
      · rw [LandsFrom, LandsFrom, hkeep.fault]
        refine and_congr_right fun _ => forall₂_congr fun k hk => ?_
        rcases hwhy with ⟨atOffset, hfault⟩ | ⟨rfl, hchunks⟩
        · rw [hfault] at hk
          cases hk
        · rw [hchunks, hcount.succ hk, Env.chunksFrom_inside hinside]
          omega
      · obtain ⟨hsil, hslot⟩ := hend hr
        refine ⟨hsil, hslot.trans ?_⟩
        simp only [hkeep.fault, hs]
    · refine ⟨_, _, if_neg (Nat.lt_irrefl _), hoffered (.inl hs) _, ?_,
        fun _ => ⟨htakes.notSilent, ?_⟩⟩
      · rw [LandsFrom, hbad]
        simp [Env.uploadResult]
      · rw [if_pos hbad]
        exact hs
    · refine ⟨_, _, if_neg (Nat.lt_irrefl _), hoffered (.inr hs) _, ?_,
        fun _ => ⟨htakes.notSilent, ?_⟩⟩
      · refine iff_of_true (by simp [Env.uploadResult]) ⟨fun h => absurd h hbad, fun k hk => ?_⟩
        rw [hlast hle, ← hcount.succ hk, ← UInt32.lt_iff_toNat_lt, ← UInt32.not_le]
        exact fun hle => hno ⟨k, hk, hle⟩
      · rw [if_neg hbad]
        exact hs

theorem landsFrom_zero (dev : Device) (hwithheld : dev.fault ≠ .timeout GROUP_IMG IMG_UPLOAD) :
    LandsFrom env image dev 0 ↔ env.Lands image dev.fault := by
  have hzero : (dev.chunksAt 0).toNat = 0 := rfl
  unfold LandsFrom
  rw [hzero]
  cases hfault : dev.fault with
  | timeout group cmd =>
    rw [hfault] at hwithheld
    refine iff_of_true ⟨(fun h => by cases h), (fun k hk => by cases hk)⟩ ?_
    intro heq
    cases heq
    exact hwithheld rfl
  | disconnectMidUpload k =>
    constructor
    · intro h
      have hroom := h.2 k rfl
      rwa [Nat.zero_add] at hroom
    · intro h
      refine ⟨(fun h => by cases h), ?_⟩
      rintro k' hk
      cases hk
      rwa [Nat.zero_add]
  | badHash =>
    constructor
    · exact fun h => h.1 rfl
    · exact fun h => ⟨fun _ => h, fun k hk => by cases hk⟩
  | none | restartUpload | revertOnBoot | digestAlreadyFailed =>
    exact iff_of_true ⟨(fun h => by cases h), (fun k hk => by cases hk)⟩ trivial

variable (env) in
/-- **A flash returns `Ok` exactly when the image lands**; it leaves the running image
alone in any case. -/
theorem flash_faults {img : Image} (hpos : 0 < image.length)
    (hrec : Image.fromBytes sha256 image "2.0.0+staged" = .ok img)
    (hhung : w.hung = false) (hsilent : w.srv.silent = false) :
    ∃ r w', env.bench sha256 (.flash image) w = (r, w') ∧ Offered img w w' ∧
      (r = .ok () ↔ env.Lands image w.srv.dev.fault) ∧
      (r = .ok () → w'.srv.silent = false ∧
        w'.srv.dev.slot1 = if w.srv.dev.fault = .badHash then w.srv.dev.slot1 else some img) := by
  by_cases hwithheld : w.srv.dev.fault = .timeout GROUP_IMG IMG_UPLOAD
  · have hh : w.hears (env.chunkRequest sha256 image 0) = false := by
      simp [World.hears, Server.withholds, hwithheld, Env.chunkRequest, Request.command]
    have hb : env.bench sha256 (.flash image) w = (.error env.unanswered, w) := by
      simp only [Env.bench, Env.upload, Env.uploadFuel, Env.uploadLoop, ask_deaf hh]
      rfl
    refine ⟨_, _, hb, .refl _ _, iff_of_false (fun h => by cases h) ?_, (fun h => by cases h)⟩
    rw [hwithheld]
    exact fun h => h rfl
  · have htakes : TakesChunks w := by
      refine ⟨hhung, hsilent, ?_⟩
      unfold Server.withholds
      cases hfault : w.srv.dev.fault with
      | timeout group cmd =>
        rw [hfault] at hwithheld
        rw [beq_eq_false_iff_ne]
        intro heq
        cases heq
        exact hwithheld rfl
      | _ => rfl
    have hfuel : w.srv.dev.remaining image 0 < Env.uploadFuel image := by
      unfold Device.remaining Env.uploadFuel
      split <;> omega
    obtain ⟨r, w', hloop, hoff, hiff, hend⟩ := uploadLoop_faults env hrec htakes
      ⟨hpos, .inl rfl⟩ (fun _ _ => .inl rfl) hfuel
    refine ⟨r, w', ?_, hoff, hiff.trans (landsFrom_zero _ hwithheld), hend⟩
    simp only [Env.bench, Env.upload, hloop]
    rfl

end Runtt
