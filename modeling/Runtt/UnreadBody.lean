import Runtt.ImageLayout
import Runtt.Redeploy

/-! # The bytes that `parse` does not read

`parse` reads the first 32 bytes of an image and what stands from the end of its body on.
The digest is taken from there as it is and compared with nothing, so two files that differ
in between are the same image to the runtime, and to a board that runs the one there is
nothing to deploy in the other.
-/
namespace Runtt
namespace Mcuboot

/-- Of one length, and the same from `n` on. -/
structure AlikeFrom (n : Nat) (a b : Bytes) : Prop where
  length : a.length = b.length
  tail : a.drop n = b.drop n

/-- Images of one length, with one header, and the same from the end of the body on. -/
structure Alike (a b : Bytes) : Prop where
  length : a.length = b.length
  header : a.take HEADER_LEN = b.take HEADER_LEN
  trailer : a.drop (bodyEnd a) = b.drop (bodyEnd a)

namespace AlikeFrom
variable {n start pos i : Nat} {a b : Bytes}

theorem byteAt_eq (h : AlikeFrom n a b) (hi : n ≤ i) : byteAt a i = byteAt b i := by
  obtain ⟨j, rfl⟩ := Nat.exists_eq_add_of_le hi
  rw [← byteAt_drop, ← byteAt_drop, h.tail]

theorem halfAt_eq (h : AlikeFrom n a b) (hi : n ≤ i) : halfAt a i = halfAt b i := by
  obtain ⟨j, rfl⟩ := Nat.exists_eq_add_of_le hi
  rw [← halfAt_drop, ← halfAt_drop, h.tail]

theorem dataAt_eq (h : AlikeFrom n a b) (hpos : n ≤ pos) : dataAt a pos = dataAt b pos := by
  obtain ⟨j, rfl⟩ := Nat.exists_eq_add_of_le hpos
  unfold dataAt
  rw [Nat.add_assoc, ← List.drop_drop, h.tail, List.drop_drop]

/-- An iteration at an offset from which the images are alike. -/
theorem walkBody_eq (h : AlikeFrom n a b) (hpos : n ≤ pos) (areaEnd : Nat) :
    walkBody a areaEnd pos = walkBody b areaEnd pos := by
  have hlen : halfAt a (pos + 2) = halfAt b (pos + 2) := h.halfAt_eq (by omega)
  have hend : entryEnd a pos = entryEnd b pos := by
    unfold entryEnd
    rw [hlen]
  have hdigest : IsDigest a pos ↔ IsDigest b pos := by
    unfold IsDigest
    rw [h.byteAt_eq hpos, hlen]
  unfold walkBody
  rw [h.length, hend]
  simp only [hdigest]

theorem areaEnd_eq (h : AlikeFrom n a b) (hstart : n ≤ start) :
    areaEnd a start = areaEnd b start := by
  have htotal : totalAt a start = totalAt b start := h.halfAt_eq (by omega)
  unfold areaEnd
  rw [htotal, h.length]

theorem scan_eq (h : AlikeFrom n a b) (hstart : n ≤ start) : scan a start = scan b start := by
  have hends := (scan_ends a start).congr (I := fun pos => n ≤ pos) (by omega)
    (fun hpos hround => Nat.le_of_lt (Nat.lt_of_le_of_lt hpos (walkBody_advances hround)))
    (fun hpos => h.walkBody_eq hpos _)
  rw [h.areaEnd_eq hstart] at hends
  exact hends.unique (scan_ends b start)

/-- A call of `find_sha256` at an offset from which the images are alike. -/
theorem searchBody_eq (h : AlikeFrom n a b) (hstart : n ≤ start) :
    searchBody a start = searchBody b start := by
  have hmagic : halfAt a start = halfAt b start := h.halfAt_eq hstart
  have harea : IsArea a start ↔ IsArea b start := by
    unfold IsArea
    rw [hmagic, h.length]
  unfold searchBody
  rw [h.scan_eq hstart, hmagic, h.areaEnd_eq hstart]
  simp only [harea]

theorem ends (h : AlikeFrom n a b) (hstart : n ≤ start) {found : Option (Nat × Nat)}
    (hends : Loop.Ends (searchBody a) start found) :
    Loop.Ends (searchBody b) start found :=
  hends.congr (I := fun start => n ≤ start) hstart
    (fun hle hround => Nat.le_trans hle (searchBody_le hround)) fun hle => h.searchBody_eq hle

end AlikeFrom

namespace Alike
variable {a b : Bytes} {i : Nat} {found : Option (Nat × Nat)}

theorem byteAt_eq (h : Alike a b) (hi : i < HEADER_LEN) : byteAt a i = byteAt b i := by
  unfold byteAt
  rw [List.getD_eq_getElem?_getD, List.getD_eq_getElem?_getD, ← List.getElem?_take_of_lt hi,
    h.header, List.getElem?_take_of_lt hi]

theorem halfAt_eq (h : Alike a b) (hi : i + 1 < HEADER_LEN) : halfAt a i = halfAt b i := by
  unfold halfAt
  rw [h.byteAt_eq (by omega), h.byteAt_eq hi]

theorem wordAt_eq (h : Alike a b) (hi : i + 3 < HEADER_LEN) : wordAt a i = wordAt b i := by
  unfold wordAt
  rw [h.byteAt_eq (by omega), h.byteAt_eq (by omega), h.byteAt_eq (by omega), h.byteAt_eq hi]

theorem bodyEnd_eq (h : Alike a b) : bodyEnd a = bodyEnd b := by
  unfold bodyEnd
  rw [h.halfAt_eq (by decide), h.wordAt_eq (by decide)]

theorem protectTlvSize_eq (h : Alike a b) : protectTlvSize a = protectTlvSize b :=
  h.halfAt_eq (by decide)

theorem versionAt_eq (h : Alike a b) : versionAt a = versionAt b := by
  unfold versionAt
  rw [h.byteAt_eq (by decide), h.byteAt_eq (by decide), h.halfAt_eq (by decide),
    h.wordAt_eq (by decide)]

theorem isImage (h : Alike a b) (himage : IsImage a) : IsImage b :=
  ⟨h.length ▸ himage.1, (h.wordAt_eq (by decide)).symm.trans himage.2⟩

theorem symm (h : Alike a b) : Alike b a :=
  ⟨h.length.symm, h.header.symm, by rw [← h.bodyEnd_eq, h.trailer]⟩

theorem alikeFrom (h : Alike a b) : AlikeFrom (bodyEnd a) a b := ⟨h.length, h.trailer⟩

/-- The searches find the same in both. -/
theorem locates (h : Alike a b) (hlocates : Locates a found) : Locates b found := by
  have hcursor {found : Option (Nat × Nat)}
      (hends : Loop.Ends (searchBody a) (bodyEnd a + protectTlvSize a) found) :
      Loop.Ends (searchBody b) (bodyEnd b + protectTlvSize b) found := by
    rw [← h.bodyEnd_eq, ← h.protectTlvSize_eq]
    exact h.alikeFrom.ends (Nat.le_add_right _ _) hends
  cases hlocates with
  | cursor hends => exact .cursor (hcursor hends)
  | unprotected hnone hprotect =>
    exact .unprotected (hcursor hnone) (h.protectTlvSize_eq.symm.trans hprotect)
  | body hnone hprotect hends =>
    have hends' := h.alikeFrom.ends (Nat.le_refl _) hends
    rw [h.bodyEnd_eq] at hends'
    exact .body (hcursor hnone) (h.protectTlvSize_eq ▸ hprotect) hends'

end Alike

/-- Nothing is searched before the end of the body. -/
theorem Enters.bodyEnd_le {image : Bytes} {area : Nat} (h : Enters image area) :
    bodyEnd image ≤ area := by
  induction h with
  | cursor _ => exact Nat.le_add_right _ _
  | body _ _ _ => exact Nat.le_refl _
  | further _ hround ih => exact Nat.le_trans ih (searchBody_le hround)

theorem Alike.outcome_eq {a b : Bytes} {found : Option (Nat × Nat)} (h : Alike a b)
    (himage : IsImage a) (hlocates : Locates a found) : outcome a found = outcome b found := by
  cases found with
  | none => rfl
  | some found =>
    obtain ⟨harea, hmeets⟩ := hlocates.meets himage
    have hbehind : bodyEnd a ≤ found.2 :=
      Nat.le_trans harea.bodyEnd_le (Nat.le_trans (Nat.le_add_right _ 4) hmeets.le)
    simp only [outcome]
    rw [h.alikeFrom.dataAt_eq hbehind, h.versionAt_eq, h.halfAt_eq (by decide),
      h.wordAt_eq (by decide)]

/-- **`parse` cannot tell them apart.** -/
theorem Alike.parse_eq {a b : Bytes} (h : Alike a b) (hslice : a.length < 2 ^ 63) :
    parse a = parse b := by
  have hsmall {t : Nat} : Enters a t → t < 2 ^ 63 := Enters.lt hslice
  have hsmall' {t : Nat} : Enters b t → t < 2 ^ 63 := Enters.lt (h.length ▸ hslice)
  unfold parse
  by_cases himage : IsImage a
  · rcases parseWith_cases (a.length + 1) hsmall himage with ⟨found, hlocates, heq⟩ | hnever
    · rw [heq, parseWith_of_locates hsmall' (h.isImage himage) (Nat.lt_succ_self _)
        (h.locates hlocates), h.outcome_eq himage hlocates]
    · rcases parseWith_cases (b.length + 1) hsmall' (h.isImage himage) with
        ⟨found, hlocates, -⟩ | hnever'
      · rw [parseWith_of_locates hsmall himage (Nat.lt_succ_self _)
          (h.symm.locates hlocates)] at hnever
        cases hnever
      · rw [hnever, hnever']
  · unfold parseWith
    by_cases hshort : a.length < HEADER_LEN
    · rw [if_pos hshort, if_pos (h.length ▸ hshort), h.length]
    · have hlong : 32 ≤ a.length := Nat.not_lt.mp hshort
      have hmagic : wordAt a 0 ≠ IMAGE_MAGIC := fun hmagic => himage ⟨hlong, hmagic⟩
      have hlong' : 32 ≤ b.length := h.length ▸ hlong
      have hword : wordAt a 0 = wordAt b 0 := h.wordAt_eq (by decide)
      have hread : u32le Arch.host a 0 = .ok (wordAt b 0) := by
        rw [u32le_eq (by omega) (by decide), hword]
      have hread' : u32le Arch.host b 0 = .ok (wordAt b 0) := u32le_eq (by omega) (by decide)
      rw [hword] at hmagic
      rw [if_neg hshort, if_neg (h.length ▸ hshort), hread, hread', bind_ok, bind_ok,
        if_pos hmagic, if_pos hmagic]

theorem Alike.accepts {a b digest : Bytes} (h : Alike a b) (hslice : a.length < 2 ^ 63)
    (hacc : Accepts a digest) : Accepts b digest := by
  obtain ⟨info, hparse, hdigest⟩ := hacc
  exact ⟨info, (h.parse_eq hslice).symm.trans hparse, hdigest⟩

end Mcuboot

open Interaction Program

variable {env : Env} {sha256 : Bytes → Bytes} {w w' : World} {t : List Event} {a b digest : Bytes}

namespace Deploy

/-- A board that runs the digest, confirmed, shows it to the checks. -/
theorem alreadyRuns_of_holdsConfirmed {p : Except Error Unit} {s : String}
    {r : Except Error Describe} {slots : List ImageSlot} {rest : List Event}
    (h : HoldsConfirmed digest w.srv.dev)
    (ha : Along (env.bench sha256) w (vetting p s r slots ++ rest) w') :
    AlreadyRuns digest slots := by
  have hsplit : vetting p s r slots ++ rest =
      [⟨.openChannel, .ok ()⟩, ⟨.params, p⟩, ⟨.echo "runtt", .ok s⟩, ⟨.describe, r⟩] ++
        ⟨.imageList, .ok slots⟩ :: rest := rfl
  have hquiet : Quiet [⟨.openChannel, .ok ()⟩, ⟨.params, p⟩, ⟨.echo "runtt", .ok s⟩,
      ⟨.describe, r⟩] := by simp [Call.writes]
  rw [hsplit] at ha
  obtain ⟨v, ha₁, ha₂⟩ := along_append_iff.mp ha
  obtain ⟨-, img, h0, hash, hconf⟩ := ha₁.preserves
    (P := fun v => HoldsConfirmed digest v.srv.dev) h
    fun x hx v hv _ => quiet_preserves (hquiet x hx) hv
  rw [imageList_reply ha₂]
  refine ⟨SlotReport.toImageSlot ⟨0, true, img⟩, ?_, congrArg some hash, hconf⟩
  rw [activeSlot, Device.imageStates, h0]
  rfl

/-- Onto a board that runs its digest, a deploy that may skip writes nothing. -/
theorem skips {d : Deploy} {o : Except Failure Unit} (hy : Yields d.run t o)
    (ha : Along (env.bench sha256) w t w') (hskip : d.skipIfSame = true)
    (hf : d.firmware = .ok b) (hacc : Mcuboot.Accepts b digest)
    (hrun : HoldsConfirmed digest w.srv.dev) : Quiet t ∧ (d.Refusal t ∨ o = .ok ()) := by
  rcases run_stretches hy with
    ⟨f, -, href⟩ | ⟨image, digest', p, s, r, slots, rest, hf', hacc', rfl, -, hrest⟩
  · exact ⟨href.quiet, .inl href⟩
  rw [hf] at hf'
  cases hf'
  cases hacc.unique hacc'
  rcases hrest with ⟨ho, rfl, -⟩ | ⟨hno, -⟩
  · rw [List.append_nil]
    exact ⟨quiet_vetting, .inr ho⟩
  · exact absurd ⟨hskip, alreadyRuns_of_holdsConfirmed hrun ha⟩ hno

end Deploy

/-- **A body is never looked at.**  Two files that differ only between the header and the end
of the body are the same to `parse`, and a board that runs one of them, confirmed, is not
written to by a deploy of the other that may skip: in any environment and at any fault it
makes no call that writes, and it ends well if the mock is healthy, has a contract of this
runtime and is within reach. -/
theorem altered_body_unnoticed (h : Mcuboot.Alike a b) (hslice : a.length < 2 ^ 63) :
    Mcuboot.parse a = Mcuboot.parse b ∧
      ∀ {digest : Bytes} {w : World} {d : Deploy} (sha256 : Bytes → Bytes) (env : Env),
        Mcuboot.Accepts a digest → HoldsConfirmed digest w.srv.dev → d.firmware = .ok b →
        d.skipIfSame = true →
          Quiet (trace (env.bench sha256) d.run.run w) ∧
          (d.runOn env sha256 w).2.srv = w.srv ∧
          (Healthy w → env.Attached → contractMajor w.srv.contract = some CONTRACT_MAJOR →
            (d.runOn env sha256 w).1 = .ok ()) := by
  refine ⟨h.parse_eq hslice, fun {digest w d} sha256 env hacc hrun hf hskip => ?_⟩
  have haccb : Mcuboot.Accepts b digest := h.accepts hslice hacc
  obtain ⟨hy, ha⟩ := exec_runs (h := env.bench sha256) d.run.run w
  obtain ⟨hquiet, hend⟩ := Deploy.skips hy ha hskip hf haccb hrun
  refine ⟨hquiet, ?_, fun hhealthy henv hc => ?_⟩
  · exact (ha.preserves (P := fun v => v.srv = w.srv) rfl
      fun x hx v hv _ => (bench_quiet (hquiet x hx)).1.trans hv).2
  · rcases hend with href | ho
    · rcases href.on_healthy ha hhealthy hf haccb with ⟨e, he⟩ | hno
      · rw [henv.connect] at he
        cases he
      · exact absurd (henv.identified hc) hno
    · exact ho

/-- A release with a body of four bytes. -/
def patchedImage (body : UInt8) : Bytes :=
  [0x3d, 0xb8, 0xf3, 0x96, 0, 0, 0, 0, 32, 0, 0, 0, 4, 0, 0, 0, 0, 0, 0, 0, 1, 0, 0, 0, 0, 0, 0, 0,
    0, 0, 0, 0] ++ List.replicate 4 body ++ [0x07, 0x69, 40, 0] ++ [0x10, 0, 32, 0] ++
    List.replicate 32 7

/-- A board that runs it, whatever the body. -/
def patchedBoard : World :=
  .start { Device.fresh sampleSha256 .none with
    slot0 := some { factoryImage sampleSha256 with hash := List.replicate 32 7 } } "2.0.0"

/-- A patched body is not deployed over the one before. -/
theorem altered_body_unnoticed_patch :
    (Deploy.runOn attachedEnv sampleSha256 ⟨"zephyr.signed.bin", .ok (patchedImage 1), true⟩
      patchedBoard).2.srv = patchedBoard.srv := by
  have halike : Mcuboot.Alike (patchedImage 0) (patchedImage 1) := ⟨rfl, rfl, rfl⟩
  have hacc : Mcuboot.Accepts (patchedImage 0) (List.replicate 32 7) :=
    ⟨⟨List.replicate 32 7, "1.0.0+0", 32, 4⟩, rfl, rfl⟩
  have hrun : HoldsConfirmed (List.replicate 32 7) patchedBoard.srv.dev := ⟨_, rfl, rfl, rfl⟩
  exact ((altered_body_unnoticed halike (by decide)).2 sampleSha256 attachedEnv hacc hrun rfl
    rfl).2.1

end Runtt
