import Runtt.TlvSearch

/-! # Parsing an image: when it ends, and what it takes for the digest

`parse` searches from the end of the protected size and then, for an image with
a protected area, from the end of the body.  `Enters` says at which offsets
`find_sha256` is called, `Locates` in which entry of which area the digest is found, and
`parseWith_cases` that this is what `parse` answers.

A protected area that declares a total length of 0 is searched for ever
(`parse_returns_iff`).  An entry is bounded by the image, not by its area, so that a
digest can lie past the end its area declares (`digest_in_area_iff`).
-/
namespace Runtt.Mcuboot

/-! ## The searches of an image -/

/-- The image is long enough for a header and begins with the image magic. -/
def IsImage (image : Bytes) : Prop :=
  HEADER_LEN ≤ image.length ∧ wordAt image 0 = IMAGE_MAGIC

/-- `protect_tlv_size`. -/
def protectTlvSize (image : Bytes) : Nat := halfAt image 10

/-- `body_end`. -/
def bodyEnd (image : Bytes) : Nat := halfAt image 8 + wordAt image 12

/-- The version of the header. -/
def versionAt (image : Bytes) : String :=
  toString (byteAt image 20) ++ "." ++ toString (byteAt image 21) ++ "." ++
    toString (halfAt image 22) ++ "+" ++ toString (wordAt image 24)

/-- `find_sha256` is called at this offset. -/
inductive Enters (image : Bytes) : Nat → Prop where
  | cursor (himage : IsImage image) : Enters image (bodyEnd image + protectTlvSize image)
  | body (himage : IsImage image) (hprotect : protectTlvSize image ≠ 0)
      (hnone : Loop.Ends (searchBody image) (bodyEnd image + protectTlvSize image) none) :
      Enters image (bodyEnd image)
  | further {area next : Nat} (h : Enters image area)
      (hround : Loop.Continues (searchBody image) area next) : Enters image next

/-- What the two searches find: an area and an entry of it, or nothing. -/
inductive Locates (image : Bytes) : Option (Nat × Nat) → Prop where
  | cursor {found : Nat × Nat}
      (h : Loop.Ends (searchBody image) (bodyEnd image + protectTlvSize image) (some found)) :
      Locates image (some found)
  | unprotected (hnone : Loop.Ends (searchBody image) (bodyEnd image + protectTlvSize image) none)
      (hprotect : protectTlvSize image = 0) : Locates image none
  | body {found : Option (Nat × Nat)}
      (hnone : Loop.Ends (searchBody image) (bodyEnd image + protectTlvSize image) none)
      (hprotect : protectTlvSize image ≠ 0)
      (h : Loop.Ends (searchBody image) (bodyEnd image) found) : Locates image found

/-- What `parse` answers. -/
def outcome (image : Bytes) : Option (Nat × Nat) → Except Error ImageInfo
  | some found =>
    .ok ⟨dataAt image found.2, versionAt image, halfAt image 8, wordAt image 12⟩
  | none => .error ["MCUboot image has no SHA256 TLV; cannot determine the digest " ++
      "the device will report"]

theorem Locates.unique {image : Bytes} {found found' : Option (Nat × Nat)}
    (h : Locates image found) (h' : Locates image found') : found = found' := by
  cases h with
  | cursor h =>
    cases h' with
    | cursor h' => exact h.unique h'
    | unprotected hnone _ => exact nomatch h.unique hnone
    | body hnone _ _ => exact nomatch h.unique hnone
  | unprotected hnone hprotect =>
    cases h' with
    | cursor h' => exact nomatch hnone.unique h'
    | unprotected _ _ => rfl
    | body _ hprotect' _ => exact absurd hprotect hprotect'
  | body hnone hprotect h =>
    cases h' with
    | cursor h' => exact nomatch hnone.unique h'
    | unprotected _ hprotect' => exact absurd hprotect' hprotect
    | body _ _ h' => exact h.unique h'

theorem Enters.visits {image : Bytes} {area t : Nat} (h : Enters image area)
    (hvisits : Loop.Visits (searchBody image) area t) : Enters image t :=
  hvisits.invariant h .further

theorem cursor_lt (image : Bytes) : bodyEnd image + protectTlvSize image < 2 ^ 63 := by
  have hheader := halfAt_lt image 8
  have hsize := wordAt_lt image 12
  have hprotect := halfAt_lt image 10
  show halfAt image 8 + wordAt image 12 + halfAt image 10 < 2 ^ 63
  omega

/-- In a slice every offset that is searched is one of a `usize`. -/
theorem Enters.lt {image : Bytes} {area : Nat} (hbig : image.length < 2 ^ 63)
    (h : Enters image area) : area < 2 ^ 63 := by
  have hcursor := cursor_lt image
  cases h with
  | cursor _ => exact hcursor
  | body _ _ _ => omega
  | further _ hround =>
    obtain ⟨-, -, -, rfl⟩ := searchBody_continues hround
    exact Nat.lt_of_le_of_lt (areaEnd_le _ _) hbig

/-! ## Parsing is these searches -/

section parsing
variable {image : Bytes} {fuel : Nat} {found : Option (Nat × Nat)}

variable (fuel) in
/-- What is not an image is refused at once. -/
theorem parseWith_refused (h : ¬ IsImage image) :
    ∃ e, parseWith Arch.host fuel image = .ok (.error e) := by
  unfold parseWith
  by_cases hshort : image.length < HEADER_LEN
  · rw [if_pos hshort]
    exact ⟨_, rfl⟩
  · have hlong : 32 ≤ image.length := Nat.not_lt.mp hshort
    have hmagic : wordAt image 0 ≠ IMAGE_MAGIC := fun hmagic => h ⟨hlong, hmagic⟩
    rw [if_neg hshort, u32le_eq (by omega) (by decide), bind_ok, if_pos hmagic]
    exact ⟨_, rfl⟩

/-- Of an image, the header is read and the digest searched for. -/
theorem parseWith_eq (h : IsImage image) :
    parseWith Arch.host fuel image =
      (findDigest Arch.host image fuel (bodyEnd image + protectTlvSize image) (bodyEnd image)
        (protectTlvSize image)).bind fun
        | none => .ok (outcome image none)
        | some digest => .ok (.ok ⟨digest, versionAt image, halfAt image 8, wordAt image 12⟩) := by
  have hlong : 32 ≤ image.length := h.1
  have hcursor := cursor_lt image
  have hbody : halfAt image 8 + wordAt image 12 = bodyEnd image := rfl
  have hprotect : halfAt image 10 = protectTlvSize image := rfl
  have hcheck : Arch.host.checkedAdd (bodyEnd image) (protectTlvSize image) =
      some (bodyEnd image + protectTlvSize image) := if_pos (by show _ < 2 ^ 64; omega)
  have hmerge : (if protectTlvSize image = 0 then bodyEnd image
      else bodyEnd image + protectTlvSize image) = bodyEnd image + protectTlvSize image := by
    split
    · omega
    · rfl
  unfold parseWith
  rw [if_neg (Nat.not_lt.mpr h.1), u32le_eq (by omega) (by decide), bind_ok,
    if_neg (not_not_intro h.2), u16le_eq (by omega) (by decide), bind_ok,
    u16le_eq (by omega) (by decide), bind_ok, u32le_eq (by omega) (by decide), bind_ok,
    index_eq (by omega), bind_ok, index_eq (by omega), bind_ok,
    u16le_eq (by omega) (by decide), bind_ok, u32le_eq (by omega) (by decide), bind_ok,
    hprotect, Arch.host_add (by rw [hbody]; omega), bind_ok, hbody, hcheck]
  simp only [hmerge]
  rfl

/-- The second search is made when the first finds nothing in an image with a
protected area. -/
theorem findDigest_eq {cursor body protect : Nat} {first : Option Bytes}
    (h : findSha256 Arch.host image fuel fuel cursor = .ok first) :
    findDigest Arch.host image fuel cursor body protect =
      if first = none ∧ protect ≠ 0 then findSha256 Arch.host image fuel fuel body
      else .ok first := by
  unfold findDigest
  rw [h, bind_ok]
  cases first with
  | some digest => rfl
  | none =>
    by_cases hprotect : protect ≠ 0
    · exact (if_pos hprotect).trans (if_pos ⟨rfl, hprotect⟩).symm
    · exact (if_neg hprotect).trans (if_neg fun h => hprotect h.2).symm

variable (fuel) in
theorem findDigest_cases (hsmall : ∀ {t}, Enters image t → t < 2 ^ 63) (himage : IsImage image) :
    (∃ found, Locates image found ∧
        findDigest Arch.host image fuel (bodyEnd image + protectTlvSize image) (bodyEnd image)
          (protectTlvSize image) = .ok (digestOf image found)) ∨
      findDigest Arch.host image fuel (bodyEnd image + protectTlvSize image) (bodyEnd image)
        (protectTlvSize image) = .error .never := by
  have hcursor : Enters image (bodyEnd image + protectTlvSize image) := .cursor himage
  rcases findSha256_cases fuel fuel fun h => hsmall (hcursor.visits h) with
    ⟨found, hends, heq⟩ | hnever
  · rw [findDigest_eq heq]
    cases found with
    | some found => exact .inl ⟨some found, .cursor hends, if_neg fun h => nomatch h.1⟩
    | none =>
      by_cases hprotect : protectTlvSize image = 0
      · rw [if_neg fun h => h.2 hprotect]
        exact .inl ⟨none, .unprotected hends hprotect, rfl⟩
      · have hbody : Enters image (bodyEnd image) := .body himage hprotect hends
        rw [if_pos ⟨rfl, hprotect⟩]
        rcases findSha256_cases fuel fuel fun h => hsmall (hbody.visits h) with
          ⟨found, hends', heq'⟩ | hnever
        · exact .inl ⟨found, .body hends hprotect hends', heq'⟩
        · exact .inr hnever
  · unfold findDigest
    rw [hnever]
    exact .inr rfl

theorem findDigest_of_locates (hsmall : ∀ {t}, Enters image t → t < 2 ^ 63)
    (himage : IsImage image) (hfuel : image.length < fuel) (h : Locates image found) :
    findDigest Arch.host image fuel (bodyEnd image + protectTlvSize image) (bodyEnd image)
      (protectTlvSize image) = .ok (digestOf image found) := by
  have hcursor : Enters image (bodyEnd image + protectTlvSize image) := .cursor himage
  have hfirst {found : Option (Nat × Nat)}
      (hends : Loop.Ends (searchBody image) (bodyEnd image + protectTlvSize image) found) :
      findSha256 Arch.host image fuel fuel (bodyEnd image + protectTlvSize image) =
        .ok (digestOf image found) :=
    findSha256_of_ends (fun h => hsmall (hcursor.visits h)) hfuel hfuel hends
  cases h with
  | cursor hends =>
    rw [findDigest_eq (hfirst hends)]
    exact if_neg fun h => nomatch h.1
  | unprotected hnone hprotect =>
    rw [findDigest_eq (hfirst hnone)]
    exact if_neg fun h => h.2 hprotect
  | body hnone hprotect hends =>
    have hbody : Enters image (bodyEnd image) := .body himage hprotect hnone
    rw [findDigest_eq (hfirst hnone), if_pos ⟨rfl, hprotect⟩]
    exact findSha256_of_ends (fun h => hsmall (hbody.visits h)) hfuel hfuel hends

variable (fuel) in
/-- **What `parse` answers is what the searches find**, whatever the fuel. -/
theorem parseWith_cases (hsmall : ∀ {t}, Enters image t → t < 2 ^ 63) (himage : IsImage image) :
    (∃ found, Locates image found ∧
        parseWith Arch.host fuel image = .ok (outcome image found)) ∨
      parseWith Arch.host fuel image = .error .never := by
  rw [parseWith_eq himage]
  rcases findDigest_cases fuel hsmall himage with ⟨found, hlocates, heq⟩ | hnever
  · rw [heq]
    cases found with
    | none => exact .inl ⟨none, hlocates, rfl⟩
    | some found => exact .inl ⟨some found, hlocates, rfl⟩
  · rw [hnever]
    exact .inr rfl

theorem parseWith_of_locates (hsmall : ∀ {t}, Enters image t → t < 2 ^ 63)
    (himage : IsImage image) (hfuel : image.length < fuel) (h : Locates image found) :
    parseWith Arch.host fuel image = .ok (outcome image found) := by
  rw [parseWith_eq himage, findDigest_of_locates hsmall himage hfuel h]
  cases found with
  | none => rfl
  | some found => rfl

end parsing

/-! ## Termination -/

/-- A protected area that declares a total length of 0. -/
def Empty (image : Bytes) (area : Nat) : Prop :=
  IsArea image area ∧ halfAt image area = TLV_PROT_INFO_MAGIC ∧ totalAt image area = 0

/-- Each call of `find_sha256` works further on than the call that makes it, and each
iteration of a call's loop further on than the iteration before. -/
structure Advances (image : Bytes) : Prop where
  calls : ∀ {area next}, Enters image area → Loop.Continues (searchBody image) area next →
    area < next
  iterations : ∀ {area pos next}, Enters image area →
    Loop.Visits (walkBody image (areaEnd image area)) (area + 4) pos →
    Loop.Continues (walkBody image (areaEnd image area)) pos next → pos < next

/-- An area that declares no length has no entries, and is its own end. -/
theorem Empty.fixed {image : Bytes} {area : Nat} (h : Empty image area) :
    searchBody image area = .inr area := by
  obtain ⟨harea, hmagic, htotal⟩ := h
  have hroom := harea.1
  have hself : areaEnd image area = area := by
    rw [areaEnd, htotal]
    omega
  have hdone : scan image area = .done := by
    have hends : Loop.Ends (walkBody image (areaEnd image area)) (area + 4) .done :=
      .stop (walkBody_done (by omega))
    exact (scan_ends image area).unique hends
  unfold searchBody
  rw [if_pos harea, hdone]
  show (if _ = _ then _ else _) = _
  rw [if_pos hmagic, hself]

theorem Empty.not_ends {image : Bytes} {area : Nat} {found : Option (Nat × Nat)}
    (h : Empty image area) : ¬ Loop.Ends (searchBody image) area found :=
  Loop.not_ends_of_fixed h.fixed

/-- Any other protected area is left for a larger offset. -/
theorem searchBody_lt {image : Bytes} {area next : Nat} (hempty : ¬ Empty image area)
    (h : Loop.Continues (searchBody image) area next) : area < next := by
  obtain ⟨harea, hmagic, -, rfl⟩ := searchBody_continues h
  have htotal : totalAt image area ≠ 0 := fun htotal => hempty ⟨harea, hmagic, htotal⟩
  have hroom := harea.1
  show area < min _ _
  omega

/-- From an offset that is searched, a search that meets no empty area returns. -/
theorem ends_of_not_empty {image : Bytes} {start : Nat} (hstart : Enters image start)
    (hempty : ∀ {area}, Enters image area → ¬ Empty image area) :
    ∃ found, Loop.Ends (searchBody image) start found := by
  obtain ⟨found, hrun⟩ := searchBody_run (Nat.lt_succ_self image.length)
    fun hvisits hround => searchBody_lt (hempty (hstart.visits hvisits)) hround
  exact ⟨found, Loop.ends_of_run hrun⟩

/-- When both searches return, so does every call they make. -/
theorem Locates.ends_of_enters {image : Bytes} {found : Option (Nat × Nat)}
    (h : Locates image found) {area : Nat} (harea : Enters image area) :
    ∃ found', Loop.Ends (searchBody image) area found' := by
  induction harea with
  | cursor himage =>
    cases h with
    | cursor h => exact ⟨_, h⟩
    | unprotected hnone _ => exact ⟨_, hnone⟩
    | body hnone _ _ => exact ⟨_, hnone⟩
  | body himage hprotect hnone =>
    cases h with
    | cursor h => exact nomatch h.unique hnone
    | unprotected _ hprotect' => exact absurd hprotect' hprotect
    | body _ _ h => exact ⟨_, h⟩
  | further _ hround ih =>
    obtain ⟨found', hends⟩ := ih
    exact ⟨found', (Loop.Visits.ends_iff (.single hround)).mp hends⟩

theorem exists_locates {image : Bytes} (himage : IsImage image)
    (hempty : ∀ {area}, Enters image area → ¬ Empty image area) :
    ∃ found, Locates image found := by
  obtain ⟨first, hfirst⟩ := ends_of_not_empty (.cursor himage) hempty
  cases first with
  | some found => exact ⟨_, .cursor hfirst⟩
  | none =>
    by_cases hprotect : protectTlvSize image = 0
    · exact ⟨_, .unprotected hfirst hprotect⟩
    · obtain ⟨found, hends⟩ := ends_of_not_empty (.body himage hprotect hfirst) hempty
      exact ⟨found, .body hfirst hprotect hends⟩

theorem Enters.isImage {image : Bytes} {area : Nat} (h : Enters image area) : IsImage image := by
  induction h with
  | cursor himage => exact himage
  | body himage _ _ => exact himage
  | further _ _ ih => exact ih

/-- With an empty area among the offsets searched, no fuel is enough. -/
theorem parseWith_never {image : Bytes} (hsmall : ∀ {t}, Enters image t → t < 2 ^ 63) {area : Nat}
    (harea : Enters image area) (hempty : Empty image area) (fuel : Nat) :
    parseWith Arch.host fuel image = .error .never := by
  rcases parseWith_cases fuel hsmall harea.isImage with ⟨found, hlocates, -⟩ | hnever
  · obtain ⟨found', hends⟩ := hlocates.ends_of_enters harea
    exact absurd hends hempty.not_ends
  · exact hnever

/-- **Parsing a slice returns, each call and each iteration further on than the one
before, iff no offset it searches holds a protected area of total length 0**; at such
an area it goes on for ever. -/
theorem parse_returns_iff {image : Bytes} (hslice : image.length < 2 ^ 63) :
    ((∃ fuel out, parseWith Arch.host fuel image = .ok out) ∧ Advances image ↔
        ∀ area, Enters image area → ¬ Empty image area) ∧
      ∀ area, Enters image area → Empty image area →
        ∀ fuel, parseWith Arch.host fuel image = .error .never := by
  have hsmall {t : Nat} : Enters image t → t < 2 ^ 63 := Enters.lt hslice
  refine ⟨⟨?_, fun hempty => ⟨?_, ?_⟩⟩, fun area harea hempty => ?_⟩
  · rintro ⟨-, hadvances⟩ area harea hempty
    exact Nat.lt_irrefl _ (hadvances.calls harea hempty.fixed)
  · by_cases himage : IsImage image
    · obtain ⟨found, hlocates⟩ := exists_locates himage (hempty _)
      exact ⟨_, _, parseWith_of_locates hsmall himage (Nat.lt_succ_self _) hlocates⟩
    · obtain ⟨e, he⟩ := parseWith_refused 0 himage
      exact ⟨0, _, he⟩
  · exact ⟨fun harea hround => searchBody_lt (hempty _ harea) hround,
      fun _ _ hround => walkBody_advances hround⟩
  · exact parseWith_never hsmall harea hempty

/-- A header of 32 bytes over an empty body, then `tlvs`. -/
def bareImage (tlvs : Bytes) : Bytes :=
  [0x3d, 0xb8, 0xf3, 0x96, 0, 0, 0, 0, 32, 0, 0, 0, 0, 0, 0, 0, 0, 0, 0, 0, 1, 0, 0, 0, 0, 0, 0, 0,
    0, 0, 0, 0] ++ tlvs

/-- In a bare image the search begins after the header and, unless it goes on there,
looks nowhere else. -/
theorem enters_bareImage {tlvs : Bytes} {found : Option (Nat × Nat)}
    (hstop : searchBody (bareImage tlvs) 32 = .inl found) {area : Nat}
    (h : Enters (bareImage tlvs) area) : area = 32 := by
  induction h with
  | cursor _ => rfl
  | body _ hprotect _ => exact absurd rfl hprotect
  | further _ hround ih =>
    rw [ih, Loop.Continues, hstop] at hround
    cases hround

theorem isImage_bareImage (tlvs : Bytes) : IsImage (bareImage tlvs) := by
  have hlen : (bareImage tlvs).length = 32 + tlvs.length := List.length_append
  have hread : u32le Arch.host (bareImage tlvs) 0 = .ok (wordAt (bareImage tlvs) 0) :=
    u32le_eq (by omega) (by decide)
  have hlong : 32 ≤ (bareImage tlvs).length := by omega
  exact ⟨hlong, Except.ok.inj hread.symm⟩

theorem enters_bareImage_cursor (tlvs : Bytes) : Enters (bareImage tlvs) 32 :=
  .cursor (isImage_bareImage tlvs)

/-- An image with an unprotected area without entries: it is refused. -/
theorem parse_returns_iff_bare :
    (∃ fuel out, parseWith Arch.host fuel (bareImage [0x07, 0x69, 4, 0]) = .ok out) ∧
      Advances (bareImage [0x07, 0x69, 4, 0]) := by
  refine (parse_returns_iff (by decide)).1.mpr fun area harea => ?_
  have hstop : searchBody (bareImage [0x07, 0x69, 4, 0]) 32 = .inl none := by decide +kernel
  rw [enters_bareImage hstop harea]
  exact fun hempty => absurd hempty.2.1 (by decide)

/-- An image with a protected area of total length 0 is searched for ever. -/
theorem parse_endless :
    ¬ ((∃ fuel out, parseWith Arch.host fuel (bareImage [0x08, 0x69, 0, 0]) = .ok out) ∧
      Advances (bareImage [0x08, 0x69, 0, 0])) := by
  rintro ⟨⟨fuel, out, hok⟩, -⟩
  have hempty : Empty (bareImage [0x08, 0x69, 0, 0]) 32 := ⟨by decide, rfl, rfl⟩
  have hnever := parseWith_never (Enters.lt (by decide)) (enters_bareImage_cursor _) hempty fuel
  rw [hnever] at hok
  cases hok

/-! ## The extent of an area -/

/-- Where the areas of an image begin: at the end of the body, at that end plus the
protected size, and directly after a protected area. -/
inductive Placed (image : Bytes) : Nat → Prop where
  | body : Placed image (bodyEnd image)
  | cursor : Placed image (bodyEnd image + protectTlvSize image)
  | after {area : Nat} (h : Placed image area) (harea : IsArea image area)
      (hmagic : halfAt image area = TLV_PROT_INFO_MAGIC) : Placed image (area + totalAt image area)

/-- In the area at `area` the loop comes to a SHA-256 entry of 32 bytes that is in the
image. -/
structure Meets (image : Bytes) (area entry : Nat) : Prop where
  isArea : IsArea image area
  visits : Loop.Visits (walkBody image (areaEnd image area)) (area + 4) entry
  room : entry + 4 ≤ areaEnd image area
  fits : entryEnd image entry ≤ image.length
  isDigest : IsDigest image entry

/-- The bytes are the data of the entry that was found, which lies inside the declared
extent of its area. -/
def DigestInArea (image digest : Bytes) : Prop :=
  ∃ area entry, Locates image (some (area, entry)) ∧ Placed image area ∧ Meets image area entry ∧
    area + 4 ≤ entry ∧ entry + 36 ≤ area + totalAt image area ∧ digest = dataAt image entry

theorem meets_of_found {image : Bytes} {start area entry : Nat}
    (h : searchBody image start = .inl (some (area, entry))) :
    area = start ∧ Meets image area entry := by
  obtain ⟨rfl, harea, hscan⟩ := searchBody_found h
  have hends := scan_ends image area
  rw [hscan] at hends
  obtain ⟨pos, hvisits, hlast⟩ := hends.last
  obtain ⟨rfl, hroom, hfits, hdigest⟩ := walkBody_found hlast
  exact ⟨rfl, harea, hvisits, hroom, hfits, hdigest⟩

/-- The first such entry is the one that a search from there finds. -/
theorem Meets.found {image : Bytes} {area entry : Nat} (h : Meets image area entry) :
    searchBody image area = .inl (some (area, entry)) := by
  have hlast := walkBody_digest h.room (Nat.not_lt.mpr h.fits) h.isDigest
  have hends : Loop.Ends (walkBody image (areaEnd image area)) (area + 4) (.digest entry) :=
    h.visits.ends_iff.mpr (.stop hlast)
  have hscan : scan image area = .digest entry := (scan_ends image area).unique hends
  unfold searchBody
  rw [if_pos h.isArea, hscan]

theorem Meets.le {image : Bytes} {area entry : Nat} (h : Meets image area entry) :
    area + 4 ≤ entry :=
  h.visits.invariant (I := fun pos => area + 4 ≤ pos) (Nat.le_refl _) fun hle hround =>
    Nat.le_of_lt (Nat.lt_of_le_of_lt hle (walkBody_advances hround))

theorem Enters.placed {image : Bytes} {area : Nat} (h : Enters image area)
    (hroom : area + 4 ≤ image.length) : Placed image area := by
  induction h with
  | cursor _ => exact .cursor
  | body _ _ _ => exact .body
  | @further area _ _ hround ih =>
    obtain ⟨harea, hmagic, -, rfl⟩ := searchBody_continues hround
    -- The end is not clamped: something begins there.
    have hend : areaEnd image area = area + totalAt image area := by
      unfold areaEnd at hroom ⊢
      omega
    rw [hend]
    exact .after (ih harea.1) harea hmagic

/-- What is located is met in an area that is searched. -/
theorem Locates.meets {image : Bytes} (himage : IsImage image) {area entry : Nat}
    (h : Locates image (some (area, entry))) : Enters image area ∧ Meets image area entry := by
  have hfrom {start : Nat} (hstart : Enters image start)
      (hends : Loop.Ends (searchBody image) start (some (area, entry))) :
      Enters image area ∧ Meets image area entry := by
    obtain ⟨t, hvisits, hlast⟩ := hends.last
    obtain ⟨rfl, hmeets⟩ := meets_of_found hlast
    exact ⟨hstart.visits hvisits, hmeets⟩
  cases h with
  | cursor hends => exact hfrom (.cursor himage) hends
  | body hnone hprotect hends => exact hfrom (.body himage hprotect hnone) hends

/-- The entry met in an area that is searched is the one located. -/
theorem Enters.locates {image : Bytes} {area entry : Nat} (h : Enters image area)
    (hends : Loop.Ends (searchBody image) area (some (area, entry))) :
    Locates image (some (area, entry)) := by
  suffices hall : ∀ found, Loop.Ends (searchBody image) area (some found) →
      Locates image (some found) from hall _ hends
  clear hends
  induction h with
  | cursor _ => exact fun found => .cursor
  | body _ hprotect hnone => exact fun found => .body hnone hprotect
  | further _ hround ih =>
    exact fun found hends => ih found ((Loop.Visits.ends_iff (.single hround)).mpr hends)

theorem parse_ok_iff {image : Bytes} (hslice : image.length < 2 ^ 63) {info : ImageInfo} :
    parse image = .ok (.ok info) ↔
      IsImage image ∧ ∃ found, Locates image (some found) ∧
        info = ⟨dataAt image found.2, versionAt image, halfAt image 8, wordAt image 12⟩ := by
  have hsmall {t : Nat} : Enters image t → t < 2 ^ 63 := Enters.lt hslice
  constructor
  · intro hok
    by_cases himage : IsImage image
    · rcases parseWith_cases (image.length + 1) hsmall himage with
        ⟨found, hlocates, heq⟩ | hnever
      · rw [parse, heq] at hok
        cases found with
        | none => cases hok
        | some found =>
          cases hok
          exact ⟨himage, found, hlocates, rfl⟩
      · rw [parse, hnever] at hok
        cases hok
    · obtain ⟨e, he⟩ := parseWith_refused (image.length + 1) himage
      rw [parse, he] at hok
      cases hok
  · rintro ⟨himage, found, hlocates, rfl⟩
    exact parseWith_of_locates hsmall himage (Nat.lt_succ_self _) hlocates

/-- **The digest is taken from inside an area iff no SHA-256 entry that the search
comes to runs past the end its area declares.** -/
theorem digest_in_area_iff {image : Bytes} (hslice : image.length < 2 ^ 63) :
    (∀ info, parse image = .ok (.ok info) → DigestInArea image info.digest) ↔
      ∀ area entry, Enters image area → Meets image area entry →
        entry + 36 ≤ area + totalAt image area := by
  constructor
  · intro hinside area entry harea hmeets
    have hlocates := harea.locates (.stop hmeets.found)
    have hok := (parse_ok_iff hslice).mpr ⟨harea.isImage, _, hlocates, rfl⟩
    obtain ⟨area', entry', hlocates', -, -, -, hend, -⟩ := hinside _ hok
    cases hlocates.unique hlocates'
    exact hend
  · intro hend info hok
    obtain ⟨himage, ⟨area, entry⟩, hlocates, rfl⟩ := (parse_ok_iff hslice).mp hok
    obtain ⟨harea, hmeets⟩ := hlocates.meets himage
    exact ⟨area, entry, hlocates, harea.placed hmeets.isArea.1, hmeets, hmeets.le,
      hend area entry harea hmeets, rfl⟩

/-- A bare image whose only entry is a SHA-256 digest, in an area that declares
`total` bytes; 40 is what the area takes. -/
def declaring (total : UInt8) : Bytes :=
  bareImage ([0x07, 0x69, total, 0, 0x10, 0, 32, 0] ++ List.replicate 32 7)

/-- The area declares its entry's data. -/
theorem digest_in_area_iff_declared : DigestInArea (declaring 40) (List.replicate 32 7) := by
  have hstop : searchBody (declaring 40) 32 = .inl (some (32, 36)) := by decide +kernel
  have hinside := (@digest_in_area_iff (declaring 40) (by decide)).mpr
    fun area entry harea hmeets => by
      cases enters_bareImage hstop harea
      have hfound := hmeets.found
      rw [hstop] at hfound
      cases hfound
      decide +kernel
  exact hinside _ ((parse_ok_iff (by decide)).mpr
    ⟨isImage_bareImage _, (32, 36), .cursor (.stop hstop), rfl⟩)

/-- The area declares 8 bytes and the entry's data comes after them: the digest is the
data of no entry inside any area. -/
theorem digest_outside_area :
    ¬ ∀ info, parse (declaring 8) = .ok (.ok info) →
      ∃ area entry, Placed (declaring 8) area ∧ IsArea (declaring 8) area ∧ area + 4 ≤ entry ∧
        entry + 36 ≤ area + totalAt (declaring 8) area ∧
        info.digest = dataAt (declaring 8) entry := by
  have hplaced {area : Nat} (h : Placed (declaring 8) area) : area = 32 := by
    induction h with
    | body => rfl
    | cursor => rfl
    | after _ _ hmagic ih =>
      rw [ih] at hmagic
      exact absurd hmagic (by decide +kernel)
  have hstop : searchBody (declaring 8) 32 = .inl (some (32, 36)) := by decide +kernel
  have htotal : totalAt (declaring 8) 32 = 8 := rfl
  intro hinside
  obtain ⟨area, entry, harea, -, hle, hend, -⟩ := hinside _ ((parse_ok_iff (by decide)).mpr
    ⟨isImage_bareImage _, (32, 36), .cursor (.stop hstop), rfl⟩)
  rw [hplaced harea] at hle hend
  omega

end Runtt.Mcuboot
