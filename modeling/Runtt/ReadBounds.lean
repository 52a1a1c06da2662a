import Runtt.DigestSource

/-! # What is read of an image

A build adds as numbers do below some bound (`Arch.Adds`), and a search whose offsets stay
below it is the search of the 64-bit build (`findSha256_adds`), which stays inside the image.

On 64 bits that is all of `parse`: no offset comes near the width.  On 32 bits a search that
starts in the last four offsets of the address space passes the room test at an offset that
has wrapped.
-/
namespace Runtt

/-- Below the bound, `+` on `usize` is that of numbers. -/
def Arch.Adds (arch : Arch) (bound : Nat) : Prop :=
  ∀ {a b}, a + b < bound → arch.add a b = .ok (a + b)

theorem Arch.adds (arch : Arch) : arch.Adds (2 ^ arch.bits) := fun h => if_pos h

/-- The 64-bit build that checks its additions. -/
def Arch.debug : Arch := ⟨64, true⟩

/-- The 32-bit release build. -/
def Arch.narrow : Arch := ⟨32, false⟩

/-- A sum past the width wraps. -/
theorem Arch.narrow_add_mod (a b : Nat) : Arch.narrow.add a b = .ok ((a + b) % 2 ^ 32) := by
  by_cases h : a + b < 2 ^ 32
  · rw [Arch.narrow.adds h, Nat.mod_eq_of_lt h]
  · exact if_neg h

namespace Mcuboot
variable {image : Bytes}

/-! ## Where sums are those of numbers -/

section adds
variable {arch : Arch} {bound : Nat} (hadds : arch.Adds bound) (hbound : bound ≤ 2 ^ 64)
include hadds hbound

theorem u16le_adds {b : Bytes} {i : Nat} (h : i + 1 < bound) :
    u16le arch b i = u16le Arch.host b i := by
  unfold u16le
  rw [hadds h, Arch.host_add (by omega)]

theorem u32le_adds {b : Bytes} {i : Nat} (h : i + 3 < bound) :
    u32le arch b i = u32le Arch.host b i := by
  unfold u32le
  rw [hadds (by omega), Arch.host_add (by omega), hadds (by omega),
    Arch.host_add (by omega), hadds h, Arch.host_add (by omega)]

/-- The loop over an area of a slice does not wrap. -/
theorem walk_adds {areaEnd : Nat} (hslice : image.length + 2 ^ 18 ≤ bound)
    (hend : areaEnd ≤ image.length) (fuel : Nat) {pos : Nat} (hpos : pos + 4 < bound) :
    walk arch image areaEnd fuel pos = walk Arch.host image areaEnd fuel pos := by
  induction fuel generalizing pos with
  | zero => rfl
  | succ fuel ih =>
    have hlen := halfAt_lt image (pos + 2)
    unfold walk
    rw [hadds hpos, Arch.host_add (by omega), bind_ok, bind_ok]
    by_cases hroom : pos + 4 ≤ areaEnd
    · have hget : u16le Arch.host image (pos + 2) = .ok (halfAt image (pos + 2)) :=
        u16le_eq (by omega) (by omega)
      rw [if_pos hroom, if_pos hroom, index_eq (by omega), bind_ok, bind_ok,
        hadds (by omega), Arch.host_add (by omega), bind_ok, bind_ok,
        u16le_adds hadds hbound (by omega), hget, bind_ok, bind_ok, bind_ok, bind_ok,
        hadds (by omega), Arch.host_add (by omega), bind_ok, bind_ok,
        hadds (by omega), Arch.host_add (by omega), bind_ok, bind_ok, ih (by omega), bind_ok]
    · rw [if_neg hroom, if_neg hroom]

/-- Nor does the search, from an offset where the room test does not. -/
theorem findSha256_adds (hslice : image.length + 2 ^ 18 ≤ bound) (steps fuel : Nat) {start : Nat}
    (hstart : start + 4 < bound) :
    findSha256 arch image steps fuel start = findSha256 Arch.host image steps fuel start := by
  induction fuel generalizing start with
  | zero => rfl
  | succ fuel ih =>
    have htotal := halfAt_lt image (start + 2)
    unfold findSha256
    rw [hadds hstart, Arch.host_add (by omega), bind_ok, bind_ok]
    by_cases hroom : image.length < start + 4
    · rw [if_pos hroom, if_pos hroom]
    · have hmagic : u16le Arch.host image start = .ok (halfAt image start) :=
        u16le_eq (by omega) (by omega)
      have hget : u16le Arch.host image (start + 2) = .ok (halfAt image (start + 2)) :=
        u16le_eq (by omega) (by omega)
      have hle : min (start + halfAt image (start + 2)) image.length ≤ image.length :=
        Nat.min_le_right _ _
      rw [if_neg hroom, if_neg hroom, u16le_adds hadds hbound (by omega), hmagic, bind_ok,
        bind_ok, hadds (by omega), Arch.host_add (by omega), bind_ok, bind_ok,
        u16le_adds hadds hbound (by omega), hget, bind_ok, bind_ok, hadds (by omega),
        Arch.host_add (by omega), bind_ok, bind_ok, bind_ok, bind_ok,
        walk_adds hadds hbound hslice hle steps (by omega), ih (by omega)]

/-- Both searches. -/
theorem findDigest_adds (hslice : image.length + 2 ^ 18 ≤ bound) (fuel : Nat)
    {cursor body protect : Nat} (hcursor : cursor + 4 < bound) (hbody : body + 4 < bound) :
    findDigest arch image fuel cursor body protect =
      findDigest Arch.host image fuel cursor body protect := by
  unfold findDigest
  rw [findSha256_adds hadds hbound hslice fuel fuel hcursor,
    findSha256_adds hadds hbound hslice fuel fuel hbody]

/-- What is not an image is refused at once, and not for its sizes. -/
theorem parseWith_adds_refused (hheader : HEADER_LEN ≤ bound) (fuel : Nat) (h : ¬ IsImage image) :
    ∃ msg, parseWith arch fuel image = .ok (.error [msg]) ∧
      msg ≠ "image header sizes overflow" := by
  have hheader' : 32 ≤ bound := hheader
  have hfirst {msg : String} (hmsg : ∃ rest, msg.toList = 'n' :: rest) :
      msg ≠ "image header sizes overflow" := by
    rintro rfl
    obtain ⟨rest, hrest⟩ := hmsg
    cases (List.cons.inj hrest).1
  unfold parseWith
  by_cases hshort : image.length < HEADER_LEN
  · rw [if_pos hshort]
    exact ⟨_, rfl, hfirst ⟨_, by rw [String.toList_append, String.toList_append]; rfl⟩⟩
  · have hlong : 32 ≤ image.length := Nat.not_lt.mp hshort
    have hmagic : wordAt image 0 ≠ IMAGE_MAGIC := fun hmagic => h ⟨hlong, hmagic⟩
    rw [if_neg hshort, u32le_adds hadds hbound (by omega), u32le_eq (by omega) (by decide), bind_ok,
      if_pos hmagic]
    exact ⟨_, rfl, hfirst ⟨_, by simp only [String.toList_append, List.append_assoc]; rfl⟩⟩

/-- Of an image, the header is read and the digest searched for. -/
theorem parseWith_adds_eq (hheader : HEADER_LEN ≤ bound) (fuel : Nat) (h : IsImage image) :
    parseWith arch fuel image =
      (arch.add (halfAt image 8) (wordAt image 12)).bind fun body =>
        match arch.checkedAdd body (protectTlvSize image) with
        | none => .ok (.error ["image header sizes overflow"])
        | some sum =>
          (findDigest arch image fuel (if protectTlvSize image = 0 then body else sum) body
            (protectTlvSize image)).bind fun
            | none => .ok (outcome image none)
            | some digest =>
              .ok (.ok ⟨digest, versionAt image, halfAt image 8, wordAt image 12⟩) := by
  have hlong : 32 ≤ image.length := h.1
  have hheader' : 32 ≤ bound := hheader
  have hprotect : halfAt image 10 = protectTlvSize image := rfl
  unfold parseWith
  rw [if_neg (Nat.not_lt.mpr h.1), u32le_adds hadds hbound (by omega),
    u32le_eq (by omega) (by decide), bind_ok, if_neg (not_not_intro h.2),
    u16le_adds hadds hbound (by omega), u16le_eq (by omega) (by decide), bind_ok,
    u16le_adds hadds hbound (by omega), u16le_eq (by omega) (by decide), bind_ok,
    u32le_adds hadds hbound (by omega), u32le_eq (by omega) (by decide), bind_ok,
    index_eq (by omega), bind_ok, index_eq (by omega), bind_ok,
    u16le_adds hadds hbound (by omega), u16le_eq (by omega) (by decide), bind_ok,
    u32le_adds hadds hbound (by omega), u32le_eq (by omega) (by decide), bind_ok, hprotect]
  rfl

end adds

/-- The search reads inside the image. -/
theorem findSha256_inside (hslice : image.length < 2 ^ 63) (steps fuel : Nat) {start : Nat}
    (hstart : start < 2 ^ 63) : findSha256 Arch.host image steps fuel start ≠ .error .panic := by
  have hsmall {t : Nat} (hvisits : Loop.Visits (searchBody image) start t) : t < 2 ^ 63 := by
    refine hvisits.invariant (I := fun t => t < 2 ^ 63) hstart fun _ hround => ?_
    obtain ⟨-, -, -, rfl⟩ := searchBody_continues hround
    exact Nat.lt_of_le_of_lt (areaEnd_le _ _) hslice
  rcases findSha256_cases steps fuel hsmall with ⟨found, -, hok⟩ | hnever
  · rw [hok]
    exact fun h => nomatch h
  · rw [hnever]
    exact fun h => nomatch h

/-! ## On 64 bits -/

/-- Checking every addition changes nothing: a slice has at most `isize::MAX` bytes, and the
sizes of a header are of 32 bits. -/
theorem findDigest_debug_eq (hslice : image.length < 2 ^ 63) (fuel : Nat) :
    findDigest Arch.debug image fuel (bodyEnd image + protectTlvSize image) (bodyEnd image)
        (protectTlvSize image) =
      findDigest Arch.host image fuel (bodyEnd image + protectTlvSize image) (bodyEnd image)
        (protectTlvSize image) := by
  have hcursor := cursor_lt image
  have hbound : (2 ^ 64 : Nat) ≤ 2 ^ 64 := Nat.le_refl _
  exact findDigest_adds Arch.debug.adds hbound (show _ ≤ 2 ^ 64 by omega) fuel
    (show _ < 2 ^ 64 by omega) (show _ < 2 ^ 64 by omega)

theorem parseWith_debug_eq (fuel : Nat) (h : IsImage image) :
    parseWith Arch.debug fuel image =
      (findDigest Arch.debug image fuel (bodyEnd image + protectTlvSize image) (bodyEnd image)
        (protectTlvSize image)).bind fun
        | none => .ok (outcome image none)
        | some digest => .ok (.ok ⟨digest, versionAt image, halfAt image 8, wordAt image 12⟩) := by
  have hcursor := cursor_lt image
  have hsum : Arch.debug.add (halfAt image 8) (wordAt image 12) = .ok (bodyEnd image) :=
    Arch.debug.adds (show bodyEnd image < 2 ^ 64 by omega)
  have hcheck : Arch.debug.checkedAdd (bodyEnd image) (protectTlvSize image) =
      some (bodyEnd image + protectTlvSize image) :=
    if_pos (show _ < 2 ^ 64 by omega)
  have hmerge : (if protectTlvSize image = 0 then bodyEnd image
      else bodyEnd image + protectTlvSize image) = bodyEnd image + protectTlvSize image := by
    split
    · omega
    · rfl
  rw [parseWith_adds_eq Arch.debug.adds (Nat.le_refl _) (by decide) fuel h, hsum]
  show (match Arch.debug.checkedAdd (bodyEnd image) (protectTlvSize image) with
    | none => _
    | some sum => _) = _
  rw [hcheck]
  simp only [hmerge]

/-- **No read outside a slice and no sum past the width, on 64 bits**, in any iteration and any
call that `parse` gets to: with every addition checked, no fuel brings it to an index past the
end or to a sum of more than 2^64 - 1, nor to the check of its own. -/
theorem reads_and_sums_inside (hslice : image.length < 2 ^ 63) (fuel : Nat) :
    parseWith Arch.debug fuel image ≠ .error .panic ∧
      parseWith Arch.debug fuel image ≠ .error .overflow ∧
      parseWith Arch.debug fuel image ≠ .ok (.error ["image header sizes overflow"]) := by
  by_cases himage : IsImage image
  · have hsmall {t : Nat} (h : Enters image t) : t < 2 ^ 63 := h.lt hslice
    have hhost : parseWith Arch.debug fuel image = parseWith Arch.host fuel image := by
      rw [parseWith_debug_eq fuel himage, findDigest_debug_eq hslice fuel]
      exact (parseWith_eq himage).symm
    rw [hhost]
    rcases parseWith_cases fuel hsmall himage with ⟨found, -, hfound⟩ | hnever
    · rw [hfound]
      refine ⟨?_, ?_, ?_⟩
      · intro h
        cases h
      · intro h
        cases h
      · intro h
        cases found with
        | none => exact absurd (Except.error.inj (Except.ok.inj h)) (by decide)
        | some found => cases h
    · rw [hnever]
      refine ⟨?_, ?_, ?_⟩ <;>
        · intro h
          cases h
  · obtain ⟨msg, hrefused, hmsg⟩ :=
      parseWith_adds_refused Arch.debug.adds (Nat.le_refl _) (by decide) fuel himage
    rw [hrefused]
    refine ⟨?_, ?_, ?_⟩
    · intro h
      cases h
    · intro h
      cases h
    · intro h
      exact hmsg (List.cons.inj (Except.error.inj (Except.ok.inj h))).1

theorem reads_and_sums_inside_bare :
    parseWith Arch.debug 3 (bareImage []) ≠ .error .panic ∧
      parseWith Arch.debug 3 (bareImage []) ≠ .error .overflow ∧
      parseWith Arch.debug 3 (bareImage []) ≠ .ok (.error ["image header sizes overflow"]) :=
  reads_and_sums_inside (by decide) 3

/-! ## On 32 bits -/

/-- **The room test wraps**: the search reads at an offset outside the image. -/
theorem findSha256_outside (hslice : image.length < 2 ^ 31) (hlong : 4 ≤ image.length)
    (steps fuel : Nat) {start : Nat} (hhigh : 2 ^ 32 ≤ start + 4) (hstart : start < 2 ^ 32) :
    findSha256 Arch.narrow image steps (fuel + 1) start = .error .panic := by
  have hnone : image[start]? = none := List.getElem?_eq_none (by omega)
  have hread : u16le Arch.narrow image start = .error .panic := by
    unfold u16le index
    rw [hnone]
    rfl
  unfold findSha256
  rw [Arch.narrow_add_mod, bind_ok, if_neg (by omega), hread]
  rfl

/-- `body_end` on 32 bits. -/
def narrowBodyEnd (image : Bytes) : Nat := bodyEnd image % 2 ^ 32

/-- Where the search begins, if the checked sum fits. -/
def narrowCursor (image : Bytes) : Nat := narrowBodyEnd image + protectTlvSize image

theorem parseWith_narrow_eq (fuel : Nat) (h : IsImage image) :
    parseWith Arch.narrow fuel image =
      if narrowCursor image < 2 ^ 32 then
        (findDigest Arch.narrow image fuel (narrowCursor image) (narrowBodyEnd image)
          (protectTlvSize image)).bind fun
          | none => .ok (outcome image none)
          | some digest => .ok (.ok ⟨digest, versionAt image, halfAt image 8, wordAt image 12⟩)
      else .ok (.error ["image header sizes overflow"]) := by
  have hsum : Arch.narrow.add (halfAt image 8) (wordAt image 12) = .ok (narrowBodyEnd image) :=
    Arch.narrow_add_mod _ _
  have hcheck : Arch.narrow.checkedAdd (narrowBodyEnd image) (protectTlvSize image) =
      if narrowCursor image < 2 ^ 32 then some (narrowCursor image) else none := rfl
  have hmerge : (if protectTlvSize image = 0 then narrowBodyEnd image
      else narrowCursor image) = narrowCursor image := by
    unfold narrowCursor
    split
    · omega
    · rfl
  rw [parseWith_adds_eq Arch.narrow.adds (by decide) (by decide) fuel h, hsum]
  show (match Arch.narrow.checkedAdd (narrowBodyEnd image) (protectTlvSize image) with
    | none => _
    | some sum => _) = _
  rw [hcheck]
  by_cases hfits : narrowCursor image < 2 ^ 32
  · rw [if_pos hfits, if_pos hfits]
    simp only [hmerge]
  · rw [if_neg hfits, if_neg hfits]

/-- Both searches below the end of the address space. -/
theorem findDigest_inside (hslice : image.length < 2 ^ 31) (fuel : Nat) {cursor body protect : Nat}
    (hcursor : cursor + 4 < 2 ^ 32) (hbody : body + 4 < 2 ^ 32) :
    findDigest Arch.narrow image fuel cursor body protect ≠ .error .panic := by
  have hfirst : findSha256 Arch.host image fuel fuel cursor ≠ .error .panic :=
    findSha256_inside (by omega) fuel fuel (by omega)
  have hsecond : findSha256 Arch.host image fuel fuel body ≠ .error .panic :=
    findSha256_inside (by omega) fuel fuel (by omega)
  rw [findDigest_adds Arch.narrow.adds (by decide) (show _ ≤ 2 ^ 32 by omega) fuel hcursor hbody]
  unfold findDigest
  rcases hfind : findSha256 Arch.host image fuel fuel cursor with e | _ | digest
  · rw [hfind] at hfirst
    exact hfirst
  · rw [bind_ok]
    show (if _ then _ else _) ≠ _
    by_cases hprotect : protect ≠ 0
    · rw [if_pos hprotect]
      exact hsecond
    · rw [if_neg hprotect]
      exact fun h => nomatch h
  · exact fun h => nomatch h

/-- The offsets on 32 bits at which the test for room wraps. -/
def Wraps (image : Bytes) : Prop :=
  IsImage image ∧ 2 ^ 32 ≤ narrowCursor image + 4 ∧ narrowCursor image < 2 ^ 32

/-- **No read outside a slice, on 32 bits**: an index past the end is `Halt.panic`, and for
an image below half the address space none of `parse` is exactly when the first search
does not begin in its last four bytes. -/
theorem reads_inside_iff (hslice : image.length < 2 ^ 31) :
    (∀ fuel, parseWith Arch.narrow fuel image ≠ .error .panic) ↔ ¬ Wraps image := by
  constructor
  · rintro hinside ⟨himage, hhigh, hfits⟩
    have hlong : 32 ≤ image.length := himage.1
    refine hinside 1 ?_
    rw [parseWith_narrow_eq 1 himage, if_pos hfits, findDigest,
      findSha256_outside hslice (by omega) 1 0 hhigh hfits]
    rfl
  · intro hwraps fuel
    by_cases himage : IsImage image
    · rw [parseWith_narrow_eq fuel himage]
      by_cases hfits : narrowCursor image < 2 ^ 32
      · have hcursor : narrowCursor image + 4 < 2 ^ 32 := by
          by_contra hhigh
          exact hwraps ⟨himage, Nat.not_lt.mp hhigh, hfits⟩
        have hbody : narrowBodyEnd image ≤ narrowCursor image := Nat.le_add_right _ _
        have hfind : findDigest Arch.narrow image fuel (narrowCursor image) (narrowBodyEnd image)
            (protectTlvSize image) ≠ .error .panic :=
          findDigest_inside hslice fuel hcursor
            (Nat.lt_of_le_of_lt (Nat.add_le_add_right hbody 4) hcursor)
        rw [if_pos hfits]
        rcases hdigest : findDigest Arch.narrow image fuel (narrowCursor image)
          (narrowBodyEnd image) (protectTlvSize image) with e | _ | digest
        · rw [hdigest] at hfind
          exact fun h => hfind (congrArg Except.error (Except.error.inj h))
        · intro h
          cases h
        · intro h
          cases h
      · rw [if_neg hfits]
        intro h
        cases h
    · obtain ⟨msg, hrefused, -⟩ :=
        parseWith_adds_refused Arch.narrow.adds (by decide) (by decide) fuel himage
      rw [hrefused]
      intro h
      cases h

/-- The smallest image: nothing follows its header. -/
theorem reads_inside_iff_bare :
    (∀ fuel, parseWith Arch.narrow fuel (bareImage []) ≠ .error .panic) ↔
      ¬ Wraps (bareImage []) :=
  reads_inside_iff (by decide)

/-- A header of 32 bytes alone: no sizes but that of the body, 2^32 - 4. -/
def wrappingImage : Bytes :=
  [0x3d, 0xb8, 0xf3, 0x96, 0, 0, 0, 0, 0, 0, 0, 0, 0xfc, 0xff, 0xff, 0xff, 0, 0, 0, 0, 1, 0, 0, 0,
    0, 0, 0, 0, 0, 0, 0, 0]

/-- It is read at the offset 2^32 - 4. -/
theorem read_outside :
    ¬ ∀ image : Bytes, image.length < 2 ^ 31 →
      ∀ fuel, parseWith Arch.narrow fuel image ≠ .error .panic := fun h =>
  h wrappingImage (by decide) 1 (by decide +kernel)

end Mcuboot
end Runtt
