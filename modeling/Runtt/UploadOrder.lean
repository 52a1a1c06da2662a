import Runtt.DigestSource
import Runtt.Transition
import Runtt.Upload

/-! # Uploads in any order, and clients that follow the offset

Whatever chunks of one image reach a device, duplicated, out of order or resent, what it
has received is a prefix of the image (`survives_reordering`): a chunk that does not
continue it is answered with the offset where it stands.  A client that goes on from
there finishes, whatever the device had before, unless the device cannot record the
image (`follower_finishes_iff`).
-/
namespace Runtt
namespace Device

variable {sha256 : Bytes → Bytes} {image : Bytes}

/-! ## Chunks in any order -/

variable (sha256 image) in
/-- A request for a part of the image, which declares its length and digest at offset 0. -/
structure ChunkRequest where
  off : Nat
  n : Nat
  len : Option Nat
  sha : Option Bytes
  within : off + n ≤ image.length
  declares : off = 0 → len = some image.length ∧ sha = some (sha256 image)

/-- What `upload_chunk` makes of the device, if it returns. -/
def requestChunk (dev : Device) (r : ChunkRequest sha256 image) : Option Device :=
  match dev.uploadChunk sha256 r.off r.len r.sha ((image.drop r.off).take r.n) with
  | .ok (_, dev') => some dev'
  | .error _ => none

/-- The part of the image that was received, and what was declared with it. -/
structure HoldsPart (sha256 : Bytes → Bytes) (image : Bytes) (up : Upload) : Prop where
  received : up.received <+: image
  declared : up.received = [] ∨
    up.expectedLen = image.length ∧ up.declaredSha = some (sha256 image)

theorem HoldsPart.empty : HoldsPart sha256 image .empty := ⟨List.nil_prefix, .inl rfl⟩

/-- A prefix and the bytes of the image that follow it. -/
theorem prefix_append_chunk {received : Bytes} (h : received <+: image) (n : Nat) :
    received ++ (image.drop received.length).take n <+: image := by
  obtain ⟨rest, rfl⟩ := h
  rw [List.drop_left, List.prefix_append_right_inj]
  exact List.take_prefix n rest

/-- The upload that an in-step request continues has declared the image. -/
theorem uploadAt_declares {dev : Device} (h : HoldsPart sha256 image dev.upload)
    (r : ChunkRequest sha256 image)
    (hstep : r.off = (dev.uploadAt r.off r.len r.sha).upload.received.length) :
    (dev.uploadAt r.off r.len r.sha).upload.received <+: image ∧
      (dev.uploadAt r.off r.len r.sha).upload.expectedLen = image.length ∧
      (dev.uploadAt r.off r.len r.sha).upload.declaredSha = some (sha256 image) := by
  by_cases hoff : r.off = 0
  · obtain ⟨hlen, hsha⟩ := r.declares hoff
    rw [uploadAt, if_pos hoff, restartUpload, hlen, hsha]
    exact ⟨List.nil_prefix, rfl, rfl⟩
  · rw [uploadAt, if_neg hoff] at hstep ⊢
    rcases h.declared with hnil | ⟨hlen, hsha⟩
    · rw [hnil] at hstep
      exact absurd hstep hoff
    · exact ⟨h.received, hlen, hsha⟩

/-- **One request** keeps what was received a prefix of the image, and stages nothing but
the whole of it. -/
theorem requestChunk_spec {dev dev' : Device} {r : ChunkRequest sha256 image}
    (h : HoldsPart sha256 image dev.upload) (hstep : dev.requestChunk r = some dev') :
    HoldsPart sha256 image dev'.upload ∧ dev'.slot0 = dev.slot0 ∧
      (dev'.slot1 = dev.slot1 ∨ dev'.upload.received = image ∧
        ∃ img, Image.fromBytes sha256 image "2.0.0+staged" = .ok img ∧
          dev'.slot1 = some img) := by
  unfold requestChunk at hstep
  rcases hchunk : dev.uploadChunk sha256 r.off r.len r.sha ((image.drop r.off).take r.n) with
    _ | ⟨o, dev''⟩
  · rw [hchunk] at hstep
    cases hstep
  rw [hchunk] at hstep
  cases hstep
  have hslot0 := (uploadChunk_keepsRunning hchunk).slot0
  rcases uploadChunk_cases hchunk with ⟨-, -, rfl⟩ | ⟨hin, haccept⟩
  · exact ⟨h, rfl, .inl rfl⟩
  obtain ⟨hpart, hlen, hsha⟩ := uploadAt_declares h r hin
  have hslot1 : (dev.uploadAt r.off r.len r.sha).slot1 = dev.slot1 := uploadAt_slot1 _ _ _
  generalize dev.uploadAt r.off r.len r.sha = up at *
  have hreceived : (up.receive ((image.drop r.off).take r.n)).upload.received <+: image := by
    rw [hin]
    exact prefix_append_chunk hpart r.n
  have hholds : HoldsPart sha256 image (up.receive ((image.drop r.off).take r.n)).upload :=
    ⟨hreceived, .inr ⟨hlen, hsha⟩⟩
  rcases acceptChunk_cases haccept with
    ⟨-, -, rfl⟩ | ⟨-, -, -, rfl⟩ | ⟨-, -, -, -, rfl⟩ | ⟨-, -, hc, -, img, hb, -, rfl⟩ |
    ⟨-, -, -, -, -, rfl⟩
  · exact ⟨⟨List.nil_prefix, .inl rfl⟩, hslot0, .inl hslot1⟩
  · exact ⟨hholds, hslot0, .inl hslot1⟩
  · exact ⟨hholds, hslot0, .inl hslot1⟩
  · -- all the bytes declared are here
    have hwhole : (up.receive ((image.drop r.off).take r.n)).upload.received = image := by
      refine hreceived.eq_of_length_le ?_
      have hexpected : (up.receive ((image.drop r.off).take r.n)).upload.expectedLen =
        image.length := hlen
      rw [uploadComplete, hexpected, Bool.and_eq_true, decide_eq_true_eq, decide_eq_true_eq] at hc
      exact hc.2
    rw [hwhole] at hb
    exact ⟨hholds, hslot0, .inr ⟨hwhole, img, hb, rfl⟩⟩
  · exact ⟨hholds, hslot0, .inl hslot1⟩

/-- **Uploads survive duplication and reordering.**  In every run of requests for parts of
one image, in any order and however often, from a device without an upload: what was
received is a prefix of the image, slot 0 is as it was, and a request that changes slot 1
puts the whole image there, all of which was received. -/
theorem survives_reordering {start dev : Device} (hstart : start.upload = .empty)
    (h : Transition.Reaches (@requestChunk sha256 image) Transition.Any start dev) :
    dev.upload.received <+: image ∧ dev.slot0 = start.slot0 ∧
      ∀ (r : ChunkRequest sha256 image) dev', dev.requestChunk r = some dev' →
        dev'.slot1 = dev.slot1 ∨ dev'.upload.received = image ∧
          ∃ img, Image.fromBytes sha256 image "2.0.0+staged" = .ok img ∧
            dev'.slot1 = some img := by
  have hinv : HoldsPart sha256 image dev.upload ∧ dev.slot0 = start.slot0 := by
    refine h.invariant (I := fun dev => HoldsPart sha256 image dev.upload ∧
      dev.slot0 = start.slot0) ⟨by rw [hstart]; exact .empty, rfl⟩ ?_
    rintro dev dev' r - ⟨hholds, hslot0⟩ - hstep
    obtain ⟨hholds', hslot0', -⟩ := requestChunk_spec hholds hstep
    exact ⟨hholds', hslot0'.trans hslot0⟩
  refine ⟨hinv.1.received, hinv.2, fun r dev' hstep => ?_⟩
  exact (requestChunk_spec hinv.1 hstep).2.2

/-- The first byte of two. -/
def firstByte : ChunkRequest sampleSha256 [120, 121] :=
  ⟨0, 1, some 2, some (sampleSha256 [120, 121]), by decide, fun _ => ⟨rfl, rfl⟩⟩

/-- The second, with a length that is not read. -/
def secondByte : ChunkRequest sampleSha256 [120, 121] :=
  ⟨1, 1, some 7, none, by decide, fun h => absurd h (by decide)⟩

/-- The second byte too early, then both, then the second again. -/
def shuffled : Option Device :=
  [secondByte, firstByte, secondByte, secondByte].foldlM requestChunk (fresh sampleSha256 .none)

theorem survives_reordering_shuffled :
    (shuffled.get (by decide +kernel)).upload.received <+: [120, 121] := by
  have hrun : shuffled = some (shuffled.get (by decide +kernel)) := (Option.some_get _).symm
  have hreaches : Transition.Reaches (@requestChunk sampleSha256 [120, 121]) Transition.Any
      (fresh sampleSha256 .none) (shuffled.get (by decide +kernel)) :=
    Transition.Reaches.refl.run_of_forall (fun _ _ _ => trivial) hrun
  exact (survives_reordering rfl hreaches).1

/-! ## Following the offset -/

/-- A client at `off`: it sends the next `n` bytes, and goes on from the offset that the
device returns until the upload is over.  Without fuel for that many chunks there is no
result. -/
def follow (sha256 : Bytes → Bytes) (image : Bytes) (n : Nat) :
    Nat → Device → Nat → Option (Except Halt (UploadOutcome × Device))
  | 0, _, _ => none
  | fuel + 1, dev, off =>
    match dev.clientChunk sha256 image off n with
    | .ok (.continueAt off', dev') => follow sha256 image n fuel dev' off'
    | result => some result

/-- The chunks of such a client, from offset 0 on: the device each is sent to, and the
offset. -/
inductive Follows (sha256 : Bytes → Bytes) (image : Bytes) (n : Nat) (start : Device) :
    Device → Nat → Prop where
  | first : Follows sha256 image n start start 0
  | next {dev dev' : Device} {off off' : Nat} (h : Follows sha256 image n start dev off)
      (hchunk : dev.clientChunk sha256 image off n = .ok (.continueAt off', dev')) :
      Follows sha256 image n start dev' off'

/-- No fault, or the demand for a restart. -/
def Restarts (fault : Fault) : Prop := fault = .none ∨ ∃ atOffset, fault = .restartUpload atOffset

/-- **A client that follows the offset finishes**, if the device can record the image. -/
theorem follow_finishes {dev : Device} {n off fuel : Nat} {img : Image}
    (hfault : Restarts dev.fault) (hn : 0 < n)
    (hrec : Image.fromBytes sha256 image "2.0.0+staged" = .ok img)
    (hsync : InSync sha256 image dev off) (hfuel : dev.remaining image off < fuel) :
    ∃ dev', follow sha256 image n fuel dev off =
        some (.ok (.complete image.length true, dev')) ∧
      dev'.slot1 = some img ∧ dev'.slot0 = dev.slot0 := by
  induction fuel generalizing dev off with
  | zero => exact absurd hfuel (Nat.not_lt_zero _)
  | succ fuel ih =>
    obtain ⟨o, dev', hchunk, -⟩ := clientChunk_cases hsync hn hrec
    obtain ⟨hkeep, hcases⟩ := clientChunk_outcomes hsync hn hchunk
    rw [follow, hchunk]
    rcases hcases with ⟨-, ⟨_, hsilent⟩, -⟩ | ⟨off', rfl, hsync', -, hrem, -⟩ | ⟨-, hbad, -⟩ |
      ⟨rfl, img', hrec', hslot1⟩
    · rcases hfault with hnone | ⟨_, hrestart⟩
      · exact nomatch hsilent.symm.trans hnone
      · exact nomatch hsilent.symm.trans hrestart
    · obtain ⟨last, hfollow, hslot1, hslot0⟩ := ih (hkeep.fault ▸ hfault) hsync' (by omega)
      exact ⟨last, hfollow, hslot1, hslot0.trans hkeep.slot0⟩
    · rcases hfault with hnone | ⟨_, hrestart⟩
      · exact nomatch hbad.symm.trans hnone
      · exact nomatch hbad.symm.trans hrestart
    · rw [hrec] at hrec'
      cases hrec'
      exact ⟨dev', rfl, hslot1, hkeep.slot0⟩

/-- The device can record the image exactly when parsing it returns. -/
theorem fromBytes_returns_iff (hslice : image.length < 2 ^ 63) (v : String) :
    (∃ img, Image.fromBytes sha256 image v = .ok img) ↔
      ∀ area, Mcuboot.Enters image area → ¬ Mcuboot.Empty image area := by
  have hsmall {t : Nat} : Mcuboot.Enters image t → t < 2 ^ 63 := Mcuboot.Enters.lt hslice
  constructor
  · rintro ⟨img, hrec⟩ area harea hempty
    have hnever : Mcuboot.parse image = .error .never :=
      Mcuboot.parseWith_never hsmall harea hempty _
    rw [Image.fromBytes, hnever] at hrec
    cases hrec
  · intro hempty
    obtain ⟨out, hparse⟩ : ∃ out, Mcuboot.parse image = .ok out := by
      by_cases himage : Mcuboot.IsImage image
      · obtain ⟨found, hlocates⟩ := Mcuboot.exists_locates himage (hempty _)
        exact ⟨_, Mcuboot.parseWith_of_locates hsmall himage (Nat.lt_succ_self _) hlocates⟩
      · obtain ⟨e, he⟩ := Mcuboot.parseWith_refused (image.length + 1) himage
        exact ⟨_, he⟩
    rw [Image.fromBytes, hparse]
    exact ⟨_, rfl⟩

/-- At every chunk the counter of chunks has room for one more. -/
theorem chunks_lt {start dev : Device} {n off : Nat} (hn : 0 < n) (hpos : 0 < image.length)
    (hbig : image.length < 2 ^ 32) (h : Follows sha256 image n start dev off) :
    InSync sha256 image dev off ∧ (dev.clientAt sha256 image off).upload.chunks.toNat ≤ off := by
  induction h with
  | first =>
    have hsync : InSync sha256 image start 0 := ⟨hpos, .inl rfl⟩
    refine ⟨hsync, ?_⟩
    rw [clientAt_upload hsync]
    exact Nat.le_refl 0
  | @next dev dev' off off' _ hchunk ih =>
    obtain ⟨hsync, hcount⟩ := ih
    rw [clientAt_upload hsync] at hcount
    obtain ⟨-, hcases⟩ := clientChunk_outcomes hsync hn hchunk
    rcases hcases with ⟨ho, -⟩ | ⟨off'', ho, hsync', -, -, hoff⟩ | ⟨ho, -⟩ | ⟨ho, -⟩
    · cases ho
    · cases ho
      refine ⟨hsync', ?_⟩
      rw [clientAt_upload hsync']
      rcases hoff with rfl | ⟨hoff, hchunks⟩
      · exact Nat.le_refl 0
      · have hne : off' ≠ 0 := by omega
        have hinside := hsync'.inside
        dsimp only at hcount ⊢
        rw [if_neg hne, hchunks, UInt32.toNat_add]
        have hone : (1 : UInt32).toNat = 1 := rfl
        omega
    · cases ho
    · cases ho

/-- **Offset-following clients finish.**  Whatever upload the device has begun, without a
fault but the demand for a restart, and with chunks of any size: the client gets to a
complete upload that matches, with the image in slot 1 and slot 0 as it was, exactly
when no offset searched in the image holds an empty protected area; at no chunk does the
counter of chunks overflow. -/
theorem follower_finishes_iff {dev : Device} {n : Nat} (hfault : Restarts dev.fault)
    (hn : 0 < n) (hpos : 0 < image.length) (hbig : image.length < 2 ^ 32) :
    ((∃ fuel dev' img, follow sha256 image n fuel dev 0 =
          some (.ok (.complete image.length true, dev')) ∧
        Image.fromBytes sha256 image "2.0.0+staged" = .ok img ∧ dev'.slot1 = some img ∧
        dev'.slot0 = dev.slot0) ↔
      ∀ area, Mcuboot.Enters image area → ¬ Mcuboot.Empty image area) ∧
    ∀ dev' off, Follows sha256 image n dev dev' off →
      (dev'.clientAt sha256 image off).upload.chunks.toNat + 1 < 2 ^ 32 := by
  rw [← fromBytes_returns_iff (by omega) "2.0.0+staged"]
  refine ⟨⟨?_, ?_⟩, fun dev' off hfollows => ?_⟩
  · rintro ⟨fuel, dev', img, -, hrec, -⟩
    exact ⟨img, hrec⟩
  · rintro ⟨img, hrec⟩
    obtain ⟨dev', hfollow, hslot1, hslot0⟩ :=
      follow_finishes hfault hn hrec ⟨hpos, .inl rfl⟩ (Nat.lt_succ_self _)
    exact ⟨_, dev', img, hfollow, hrec, hslot1, hslot0⟩
  · obtain ⟨hsync, hcount⟩ := chunks_lt hn hpos hbig hfollows
    have hinside := hsync.inside
    omega

/-- Two bytes, one by one, to a device that demands a restart. -/
theorem follower_finishes_iff_restart :
    ((∃ fuel dev' img, follow sampleSha256 [120, 121] 1 fuel
          (fresh sampleSha256 (.restartUpload 1)) 0 = some (.ok (.complete 2 true, dev')) ∧
        Image.fromBytes sampleSha256 [120, 121] "2.0.0+staged" = .ok img ∧
        dev'.slot1 = some img ∧ dev'.slot0 = (fresh sampleSha256 (.restartUpload 1)).slot0) ↔
      ∀ area, Mcuboot.Enters [120, 121] area → ¬ Mcuboot.Empty [120, 121] area) ∧
    ∀ dev' off, Follows sampleSha256 [120, 121] 1 (fresh sampleSha256 (.restartUpload 1)) dev' off →
      (dev'.clientAt sampleSha256 [120, 121] off).upload.chunks.toNat + 1 < 2 ^ 32 :=
  follower_finishes_iff (.inr ⟨1, rfl⟩) (by decide) (by decide) (by decide)

/-- An image with a protected area of total length 0 is never recorded. -/
theorem follower_stuck :
    ¬ ∀ (image : Bytes) (dev : Device) (n : Nat), Restarts dev.fault → 0 < n → 0 < image.length →
      image.length < 2 ^ 32 → ∃ fuel dev' img, follow sampleSha256 image n fuel dev 0 =
          some (.ok (.complete image.length true, dev')) ∧
        Image.fromBytes sampleSha256 image "2.0.0+staged" = .ok img ∧ dev'.slot1 = some img ∧
        dev'.slot0 = dev.slot0 := by
  intro h
  obtain ⟨fuel, dev', img, -, hrec, -⟩ := h (Mcuboot.bareImage [0x08, 0x69, 0, 0])
    (fresh sampleSha256 .none) 36 (.inl rfl) (by decide) (by decide) (by decide)
  have hreturns := (fromBytes_returns_iff (by decide) _).mp ⟨img, hrec⟩
  exact hreturns 32 (Mcuboot.enters_bareImage_cursor _) ⟨by decide, rfl, rfl⟩

end Device
end Runtt
