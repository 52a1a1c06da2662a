import Runtt.Basic

/-! # MCUboot image parsing

`runtt_smp::mcuboot`: the header of an image and the walk over its TLV areas.
The digest found there is the identity the device reports and expects.

Reads and additions are the machine's: an index outside the image panics, and a
sum past the width of `usize` panics or wraps as the build decides (`Arch`).  The
loop and the recursion of `find_sha256` take fuel; running out of it is
`Halt.never`.
-/
namespace Runtt.Mcuboot

/-- `IMAGE_MAGIC` from `bootutil/image.h`. -/
def IMAGE_MAGIC : Nat := 0x96f3b83d
/-- `IMAGE_TLV_INFO_MAGIC`, the unprotected TLV area. -/
def TLV_INFO_MAGIC : Nat := 0x6907
/-- `IMAGE_TLV_PROT_INFO_MAGIC`, the protected TLV area, which precedes it. -/
def TLV_PROT_INFO_MAGIC : Nat := 0x6908
/-- `IMAGE_TLV_SHA256`. -/
def TLV_SHA256 : Nat := 0x10

def HEADER_LEN : Nat := 32

/-- What the runtime needs out of an image. -/
structure ImageInfo where
  digest : Bytes
  version : String
  headerSize : Nat
  imageSize : Nat
  deriving DecidableEq, Repr

variable (arch : Arch)

/-- `b[i]`. -/
def index (b : Bytes) (i : Nat) : Except Halt Nat :=
  match b[i]? with
  | some x => .ok x.toNat
  | none => .error .panic

/-- `&b[lo..hi]`. -/
def slice (b : Bytes) (lo hi : Nat) : Except Halt Bytes :=
  if lo ≤ hi ∧ hi ≤ b.length then .ok ((b.drop lo).take (hi - lo)) else .error .panic

def u16le (b : Bytes) (i : Nat) : Except Halt Nat := do
  let x₀ ← index b i
  let x₁ ← index b (← arch.add i 1)
  return x₀ + 2 ^ 8 * x₁

def u32le (b : Bytes) (i : Nat) : Except Halt Nat := do
  let x₀ ← index b i
  let x₁ ← index b (← arch.add i 1)
  let x₂ ← index b (← arch.add i 2)
  let x₃ ← index b (← arch.add i 3)
  return x₀ + 2 ^ 8 * x₁ + 2 ^ 16 * x₂ + 2 ^ 24 * x₃

/-- How the walk over one TLV area ends. -/
inductive Walk where
  /-- A SHA-256 entry of 32 bytes. -/
  | found (digest : Bytes)
  /-- An entry whose data runs past the image. -/
  | cut
  /-- No room for another entry header. -/
  | done
  deriving DecidableEq, Repr

/-- The loop of `find_sha256`. -/
def walk (image : Bytes) (areaEnd : Nat) : Nat → Nat → Except Halt Walk
  | 0, _ => .error .never
  | fuel + 1, pos => do
    if (← arch.add pos 4) ≤ areaEnd then
      let kind ← index image pos
      let len ← u16le arch image (← arch.add pos 2)
      let dataAt ← arch.add pos 4
      if image.length < (← arch.add dataAt len) then
        return .cut
      else if kind = TLV_SHA256 ∧ len = 32 then
        return .found (← slice image dataAt (← arch.add dataAt 32))
      else
        walk image areaEnd fuel (← arch.add dataAt len)
    else
      return .done

/-- Walk a TLV area looking for the SHA-256 entry.  After a protected area the
search continues at its end.  `steps` is the fuel of each walk. -/
def findSha256 (image : Bytes) (steps : Nat) : Nat → Nat → Except Halt (Option Bytes)
  | 0, _ => .error .never
  | fuel + 1, start => do
    if image.length < (← arch.add start 4) then
      return none
    else
      let magic ← u16le arch image start
      if magic ≠ TLV_INFO_MAGIC ∧ magic ≠ TLV_PROT_INFO_MAGIC then
        return none
      else
        let total ← u16le arch image (← arch.add start 2)
        let areaEnd := min (← arch.add start total) image.length
        match ← walk arch image areaEnd steps (← arch.add start 4) with
        | .found digest => return some digest
        | .cut => return none
        | .done =>
          if magic = TLV_PROT_INFO_MAGIC then
            findSha256 image steps fuel areaEnd
          else
            return none

/-- `find_sha256` at `cursor`, and, for an image with a protected area, directly
after the body when nothing is found there. -/
def findDigest (image : Bytes) (fuel cursor bodyEnd protectTlvSize : Nat) :
    Except Halt (Option Bytes) := do
  match ← findSha256 arch image fuel fuel cursor with
  | some digest => return some digest
  | none =>
    if protectTlvSize ≠ 0 then
      findSha256 arch image fuel fuel bodyEnd
    else
      return none

/-- `parse`, with fuel for the loop and the recursion of `find_sha256`. -/
def parseWith (fuel : Nat) (image : Bytes) : Except Halt (Except Error ImageInfo) := do
  if image.length < HEADER_LEN then
    return .error ["not an MCUboot image: only " ++ toString image.length ++ " bytes"]
  else
    let magic ← u32le arch image 0
    if magic ≠ IMAGE_MAGIC then
      return .error ["not an MCUboot image: header magic is " ++ hexWord magic ++
        ", expected " ++ hexWord IMAGE_MAGIC ++ ". Was the binary signed with imgtool?"]
    else
      let headerSize ← u16le arch image 8
      let protectTlvSize ← u16le arch image 10
      let imageSize ← u32le arch image 12
      let version := toString (← index image 20) ++ "." ++ toString (← index image 21) ++ "." ++
        toString (← u16le arch image 22) ++ "+" ++ toString (← u32le arch image 24)
      let bodyEnd ← arch.add headerSize imageSize
      match arch.checkedAdd bodyEnd protectTlvSize with
      | none => return .error ["image header sizes overflow"]
      | some sum =>
        let cursor := if protectTlvSize = 0 then bodyEnd else sum
        match ← findDigest arch image fuel cursor bodyEnd protectTlvSize with
        | none => return .error ["MCUboot image has no SHA256 TLV; cannot determine the digest " ++
            "the device will report"]
        | some digest => return .ok ⟨digest, version, headerSize, imageSize⟩

/-- Parse an MCUboot image, extracting its digest and version.  A walk that makes
progress visits each offset once, so the image's length is fuel enough. -/
def parse (image : Bytes) : Except Halt (Except Error ImageInfo) :=
  parseWith Arch.host (image.length + 1) image

/-- `mcuboot::parse` returned `Ok` with this digest. -/
def Accepts (image : Bytes) (digest : Bytes) : Prop :=
  ∃ info, parse image = .ok (.ok info) ∧ info.digest = digest

/-- An accepted image has at least a header. -/
theorem Accepts.header_le {image digest : Bytes} (h : Accepts image digest) :
    HEADER_LEN ≤ image.length := by
  obtain ⟨info, hp, -⟩ := h
  rcases Nat.lt_or_ge image.length HEADER_LEN with hlt | hge
  · have hparse : parse image = .ok (.error
        ["not an MCUboot image: only " ++ toString image.length ++ " bytes"]) := by
      unfold parse parseWith
      rw [if_pos hlt]
      rfl
    rw [hparse] at hp
    cases hp
  · exact hge

theorem Accepts.pos {image digest : Bytes} (h : Accepts image digest) : 0 < image.length :=
  Nat.lt_of_lt_of_le (by decide) h.header_le

/-- The digest of a file is determined by its bytes. -/
theorem Accepts.unique {image d d' : Bytes} (h : Accepts image d) (h' : Accepts image d') :
    d = d' := by
  obtain ⟨info, hp, rfl⟩ := h
  obtain ⟨info', hp', rfl⟩ := h'
  rw [hp] at hp'
  cases hp'
  rfl

/-! ## Images that are accepted -/

/-- A walk whose first entry is a SHA-256 digest ends there. -/
theorem walk_found {image digest : Bytes} {areaEnd pos fuel : Nat}
    (hroom : pos + 4 ≤ areaEnd) (hbig : image.length < 2 ^ 63)
    (hkind : index image pos = .ok TLV_SHA256)
    (hlen : u16le Arch.host image (pos + 2) = .ok 32)
    (hdata : image.drop (pos + 4) = digest) (hdigest : digest.length = 32) :
    walk Arch.host image areaEnd (fuel + 1) pos = .ok (.found digest) := by
  have hend : pos + 4 + 32 = image.length := by
    have := congrArg List.length hdata
    rw [List.length_drop, hdigest] at this
    omega
  have hslice : slice image (pos + 4) (pos + 4 + 32) = .ok digest := by
    rw [slice, if_pos ⟨Nat.le_add_right _ _, Nat.le_of_eq hend⟩, hdata,
      List.take_of_length_le (by omega)]
  unfold walk
  rw [Arch.host_add (by omega), bind_ok, if_pos hroom, hkind, bind_ok,
    Arch.host_add (by omega), bind_ok,
    hlen, bind_ok, bind_ok, Arch.host_add (by omega), bind_ok,
    if_neg (by omega), if_pos ⟨rfl, rfl⟩, bind_ok, hslice]
  rfl

/-- An unprotected area whose first entry is a SHA-256 digest. -/
theorem findSha256_first {image digest : Bytes} {start total steps fuel : Nat}
    (hbig : image.length < 2 ^ 63)
    (hmagic : u16le Arch.host image start = .ok TLV_INFO_MAGIC)
    (htotal : u16le Arch.host image (start + 2) = .ok total) (hroom : start + total = image.length)
    (hkind : index image (start + 4) = .ok TLV_SHA256)
    (hlen : u16le Arch.host image (start + 6) = .ok 32)
    (hdata : image.drop (start + 8) = digest) (hdigest : digest.length = 32) :
    findSha256 Arch.host image (steps + 1) (fuel + 1) start = .ok (some digest) := by
  have hend : start + 8 + 32 = image.length := by
    have := congrArg List.length hdata
    rw [List.length_drop, hdigest] at this
    omega
  unfold findSha256
  rw [Arch.host_add (by omega), bind_ok, if_neg (by omega), hmagic, bind_ok, if_neg (by simp),
    Arch.host_add (by omega), bind_ok, htotal, bind_ok, Arch.host_add (by omega), bind_ok, bind_ok,
    walk_found (by omega) hbig hkind hlen hdata hdigest, bind_ok]
  rfl

/-- A header over an unprotected image, with the digest found after the body. -/
theorem accepts_of_fields {image digest : Bytes} {headerSize imageSize : Nat}
    (hlong : HEADER_LEN ≤ image.length) (hmagic : u32le Arch.host image 0 = .ok IMAGE_MAGIC)
    (hheader : u16le Arch.host image 8 = .ok headerSize)
    (hprotect : u16le Arch.host image 10 = .ok 0)
    (hsize : u32le Arch.host image 12 = .ok imageSize)
    {major minor revision build : Nat} (hmajor : index image 20 = .ok major)
    (hminor : index image 21 = .ok minor) (hrevision : u16le Arch.host image 22 = .ok revision)
    (hbuild : u32le Arch.host image 24 = .ok build) (hsum : headerSize + imageSize < 2 ^ 64)
    (hfind : findSha256 Arch.host image (image.length + 1) (image.length + 1)
      (headerSize + imageSize) = .ok (some digest)) : Accepts image digest := by
  have hcheck : Arch.host.checkedAdd (headerSize + imageSize) 0 = some (headerSize + imageSize) :=
    if_pos hsum
  refine ⟨⟨digest, toString major ++ "." ++ toString minor ++ "." ++ toString revision ++ "+" ++
    toString build, headerSize, imageSize⟩, ?_, rfl⟩
  unfold parse parseWith
  rw [if_neg (Nat.not_lt.mpr hlong), hmagic, bind_ok, if_neg (fun h => h rfl), hheader, bind_ok,
    hprotect, bind_ok, hsize, bind_ok, hmajor, bind_ok, hminor, bind_ok, hrevision, bind_ok,
    hbuild, bind_ok, Arch.host_add hsum, bind_ok, hcheck]
  simp only [findDigest, if_true, hfind, bind_ok]
  rfl

/-- The smallest image that carries a digest: a header of 32 bytes over an empty
body, then an unprotected TLV area with the SHA-256 entry alone. -/
def signedImage (digest : Bytes) : Bytes :=
  [0x3d, 0xb8, 0xf3, 0x96, 0, 0, 0, 0, 32, 0, 0, 0, 0, 0, 0, 0, 0, 0, 0, 0, 1, 0, 0, 0, 0, 0, 0, 0,
    0, 0, 0, 0] ++ [0x07, 0x69, 40, 0] ++ [0x10, 0, 32, 0] ++ digest

/-- **Every 32-byte digest is that of some image.** -/
theorem accepts_signedImage {digest : Bytes} (h : digest.length = 32) :
    Accepts (signedImage digest) digest := by
  have hlen : (signedImage digest).length = 72 := by
    simp [signedImage, h]
  refine accepts_of_fields (by rw [hlen]; decide) rfl rfl rfl rfl rfl rfl rfl rfl (by decide) ?_
  exact findSha256_first (by rw [hlen]; decide) rfl rfl hlen.symm rfl rfl rfl h

end Runtt.Mcuboot
