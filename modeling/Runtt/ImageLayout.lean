import Runtt.DigestSource

/-! # Well-formed images

An image laid out as the bootloader has it: header, body, a protected TLV area where the
header gives it a size, an unprotected one, anything after.  Each area is its info header
and entries that tile it.

`parse` finds the first SHA-256 entry of the unprotected area, else that of the protected
area, and nothing else (`parse_layout`).  The unprotected area is searched first although
it comes second; from the protected area the search goes on into it once more.
-/
namespace Runtt.Mcuboot

/-! ## Fields of a piece of the image -/

section fields
variable {image a b : Bytes} {pos i : Nat}

theorem byteAt_drop : byteAt (image.drop pos) i = byteAt image (pos + i) := by
  unfold byteAt
  rw [List.getD_eq_getElem?_getD, List.getD_eq_getElem?_getD, List.getElem?_drop]

theorem halfAt_drop : halfAt (image.drop pos) i = halfAt image (pos + i) := by
  unfold halfAt
  rw [byteAt_drop, byteAt_drop, Nat.add_assoc]

theorem byteAt_append (h : i < a.length) : byteAt (a ++ b) i = byteAt a i := by
  unfold byteAt
  rw [List.getD_eq_getElem?_getD, List.getD_eq_getElem?_getD, List.getElem?_append_left h]

theorem halfAt_append (h : i + 1 < a.length) : halfAt (a ++ b) i = halfAt a i := by
  unfold halfAt
  rw [byteAt_append (by omega), byteAt_append h]

theorem wordAt_append (h : i + 3 < a.length) : wordAt (a ++ b) i = wordAt a i := by
  unfold wordAt
  rw [byteAt_append (by omega), byteAt_append (by omega), byteAt_append (by omega),
    byteAt_append h]

theorem versionAt_append (h : HEADER_LEN ≤ a.length) : versionAt (a ++ b) = versionAt a := by
  have hlong : 32 ≤ a.length := h
  unfold versionAt
  rw [byteAt_append (by omega), byteAt_append (by omega), halfAt_append (by omega),
    wordAt_append (by omega)]

/-- Two bytes, the low one first. -/
def half (n : Nat) : Bytes := [UInt8.ofNat n, UInt8.ofNat (n / 2 ^ 8)]

theorem halfAt_half {n : Nat} (h : n < 2 ^ 16) : halfAt (half n ++ b) 0 = n := by
  show n % 2 ^ 8 + 2 ^ 8 * (n / 2 ^ 8 % 2 ^ 8) = n
  omega

end fields

/-! ## Entries and areas -/

/-- An entry of a TLV area. -/
structure TlvEntry where
  kind : UInt8
  pad : UInt8
  data : Bytes
  short : data.length < 2 ^ 16

def TlvEntry.bytes (e : TlvEntry) : Bytes := [e.kind, e.pad] ++ half e.data.length ++ e.data

/-- A SHA-256 entry of 32 bytes. -/
def TlvEntry.isDigest (e : TlvEntry) : Bool := e.kind.toNat = TLV_SHA256 ∧ e.data.length = 32

/-- The bytes of entries one after another. -/
def entryBytes (es : List TlvEntry) : Bytes := es.flatMap TlvEntry.bytes

/-- The data of the first SHA-256 entry of 32 bytes. -/
def firstDigest (es : List TlvEntry) : Option Bytes :=
  (es.find? TlvEntry.isDigest).map TlvEntry.data

/-- A TLV area: entries that tile it, as far as its total length can say. -/
structure TlvArea where
  entries : List TlvEntry
  short : 4 + (entryBytes entries).length < 2 ^ 16

/-- The total length, the info header included. -/
def TlvArea.total (area : TlvArea) : Nat := 4 + (entryBytes area.entries).length

def TlvArea.bytes (magic : Nat) (area : TlvArea) : Bytes :=
  half magic ++ half area.total ++ entryBytes area.entries

theorem TlvEntry.length_bytes (e : TlvEntry) : e.bytes.length = 4 + e.data.length := by
  simp only [TlvEntry.bytes, half, List.length_append, List.length_cons, List.length_nil]

theorem TlvArea.length_bytes (magic : Nat) (area : TlvArea) :
    (area.bytes magic).length = area.total := by
  simp only [TlvArea.bytes, TlvArea.total, half, List.length_append, List.length_cons,
    List.length_nil]

theorem entryBytes_cons (e : TlvEntry) (es : List TlvEntry) :
    entryBytes (e :: es) = e.bytes ++ entryBytes es := List.flatMap_cons

/-! ## The walk over an area -/

section entry
variable {image rest : Bytes} {pos : Nat} {e : TlvEntry}

theorem kind_of_drop (h : image.drop pos = e.bytes ++ rest) : byteAt image pos = e.kind.toNat := by
  have hread : byteAt (image.drop pos) 0 = byteAt image pos := byteAt_drop
  rw [h] at hread
  exact hread.symm

theorem length_of_drop (h : image.drop pos = e.bytes ++ rest) :
    halfAt image (pos + 2) = e.data.length := by
  have hread : halfAt (image.drop pos) 2 = halfAt image (pos + 2) := halfAt_drop
  rw [h] at hread
  exact hread.symm.trans (halfAt_half (b := e.data ++ rest) e.short)

theorem entryEnd_of_drop (h : image.drop pos = e.bytes ++ rest) :
    entryEnd image pos = pos + e.bytes.length := by
  rw [entryEnd, length_of_drop h, e.length_bytes]
  omega

theorem isDigest_of_drop (h : image.drop pos = e.bytes ++ rest) :
    IsDigest image pos ↔ e.isDigest = true := by
  rw [IsDigest, kind_of_drop h, length_of_drop h, TlvEntry.isDigest, decide_eq_true_iff]

theorem dataAt_of_drop (h : image.drop pos = e.bytes ++ rest) (hdigest : e.isDigest = true) :
    dataAt image pos = e.data := by
  have h32 : e.data.length = 32 := (decide_eq_true_iff.mp hdigest).2
  have hdata : image.drop (pos + 4) = e.data ++ rest := by
    rw [← List.drop_drop, h]
    rfl
  rw [dataAt, hdata, ← h32, List.take_left']
  rfl

end entry

/-- How a walk over entries that tile the rest of their area ends. -/
def walkOver (es : List TlvEntry) : Walk :=
  match firstDigest es with
  | some digest => .found digest
  | none => .done

/-- The walk over an area steps from entry to entry, up to the first digest. -/
theorem ends_entries {image rest : Bytes} {es : List TlvEntry} {pos : Nat}
    (hpos : pos ≤ image.length) (hdrop : image.drop pos = entryBytes es ++ rest) :
    ∃ stop, Loop.Ends (walkBody image (pos + (entryBytes es).length)) pos stop ∧
      stop.walk image = walkOver es := by
  induction es generalizing pos with
  | nil => exact ⟨.done, .stop (walkBody_done (show ¬ pos + 4 ≤ pos + 0 by omega)), rfl⟩
  | cons e es ih =>
    rw [entryBytes_cons, List.append_assoc] at hdrop
    have hlen := congrArg List.length hdrop
    rw [List.length_drop, List.length_append, List.length_append] at hlen
    have hsize := e.length_bytes
    have hend := entryEnd_of_drop hdrop
    have harea : pos + (entryBytes (e :: es)).length =
        pos + e.bytes.length + (entryBytes es).length := by
      rw [entryBytes_cons, List.length_append, Nat.add_assoc]
    rw [harea]
    have hroom : pos + 4 ≤ pos + e.bytes.length + (entryBytes es).length := by omega
    have hfits : ¬ image.length < entryEnd image pos := by omega
    by_cases hdigest : e.isDigest = true
    · refine ⟨.digest pos, .stop ?_, ?_⟩
      · exact walkBody_digest hroom hfits ((isDigest_of_drop hdrop).mpr hdigest)
      · show Walk.found _ = _
        rw [walkOver, firstDigest, List.find?_cons_of_pos hdigest, dataAt_of_drop hdrop hdigest]
        rfl
    · have hnext : image.drop (pos + e.bytes.length) = entryBytes es ++ rest := by
        rw [← List.drop_drop, hdrop, List.drop_left]
      obtain ⟨stop, hends, hwalk⟩ := ih (by omega) hnext
      refine ⟨stop, .again ?_ hends, ?_⟩
      · rw [walkBody_skip hroom hfits (mt (isDigest_of_drop hdrop).mp hdigest), hend]
      · rw [hwalk, walkOver, walkOver, firstDigest, firstDigest, List.find?_cons_of_neg hdigest]

/-! ## The search from an area -/

section area
variable {image rest : Bytes} {start magic : Nat} {area : TlvArea}

theorem magic_of_drop (hmagic : magic < 2 ^ 16)
    (h : image.drop start = area.bytes magic ++ rest) : halfAt image start = magic := by
  have hread : halfAt (image.drop start) 0 = halfAt image start := halfAt_drop
  rw [h, TlvArea.bytes, List.append_assoc, List.append_assoc] at hread
  exact hread.symm.trans (halfAt_half hmagic)

theorem total_of_drop (h : image.drop start = area.bytes magic ++ rest) :
    totalAt image start = area.total := by
  have hread : halfAt (image.drop start) 2 = halfAt image (start + 2) := halfAt_drop
  rw [h, TlvArea.bytes, List.append_assoc, List.append_assoc] at hread
  exact hread.symm.trans (halfAt_half (b := entryBytes area.entries ++ rest) area.short)

theorem room_of_drop (hstart : start ≤ image.length)
    (h : image.drop start = area.bytes magic ++ rest) :
    start + area.total ≤ image.length := by
  have hlen := congrArg List.length h
  rw [List.length_drop, List.length_append, area.length_bytes] at hlen
  omega

theorem areaEnd_of_drop (hstart : start ≤ image.length)
    (h : image.drop start = area.bytes magic ++ rest) :
    areaEnd image start = start + area.total := by
  rw [areaEnd, total_of_drop h]
  exact Nat.min_eq_left (room_of_drop hstart h)

theorem scan_of_drop (hstart : start ≤ image.length)
    (h : image.drop start = area.bytes magic ++ rest) :
    (scan image start).walk image = walkOver area.entries := by
  have hroom := room_of_drop hstart h
  have htotal : area.total = 4 + (entryBytes area.entries).length := rfl
  have hentries : image.drop (start + 4) = entryBytes area.entries ++ rest := by
    rw [← List.drop_drop, h, TlvArea.bytes]
    rfl
  obtain ⟨stop, hends, hwalk⟩ := ends_entries (by omega) hentries
  have hend : areaEnd image start = start + 4 + (entryBytes area.entries).length := by
    rw [areaEnd_of_drop hstart h, htotal, Nat.add_assoc]
  rw [← hend] at hends
  rw [(scan_ends image start).unique hends, hwalk]

/-- The walk finds the first digest of the area, or goes through all of it. -/
theorem scan_cases (hstart : start ≤ image.length)
    (h : image.drop start = area.bytes magic ++ rest) :
    (∃ entry, scan image start = .digest entry ∧
        firstDigest area.entries = some (dataAt image entry)) ∨
      scan image start = .done ∧ firstDigest area.entries = none := by
  have hscan := scan_of_drop hstart h
  cases hfirst : firstDigest area.entries with
  | some digest =>
    rw [walkOver, hfirst] at hscan
    cases hstop : scan image start with
    | digest entry =>
      rw [hstop] at hscan
      exact .inl ⟨entry, rfl, congrArg some (Walk.found.inj hscan).symm⟩
    | cut =>
      rw [hstop] at hscan
      cases hscan
    | done =>
      rw [hstop] at hscan
      cases hscan
  | none =>
    rw [walkOver, hfirst] at hscan
    cases hstop : scan image start with
    | digest entry =>
      rw [hstop] at hscan
      cases hscan
    | cut =>
      rw [hstop] at hscan
      cases hscan
    | done => exact .inr ⟨rfl, rfl⟩

theorem isArea_of_drop (hstart : start ≤ image.length)
    (hmagic : magic = TLV_INFO_MAGIC ∨ magic = TLV_PROT_INFO_MAGIC)
    (h : image.drop start = area.bytes magic ++ rest) : IsArea image start := by
  have hroom := room_of_drop hstart h
  have htotal : area.total = 4 + (entryBytes area.entries).length := rfl
  have hread : halfAt image start = magic :=
    magic_of_drop (by rcases hmagic with rfl | rfl <;> decide) h
  exact ⟨by omega, by rwa [hread]⟩

/-- A search from an unprotected area ends there. -/
theorem search_unprotected (hstart : start ≤ image.length)
    (h : image.drop start = area.bytes TLV_INFO_MAGIC ++ rest) :
    ∃ found, searchBody image start = .inl found ∧
      digestOf image found = firstDigest area.entries := by
  have hmagic : halfAt image start ≠ TLV_PROT_INFO_MAGIC := by
    rw [magic_of_drop (by decide) h]
    decide
  rw [searchBody, if_pos (isArea_of_drop hstart (.inl rfl) h)]
  rcases scan_cases hstart h with ⟨entry, hscan, hfirst⟩ | ⟨hscan, hfirst⟩
  · rw [hscan, hfirst]
    exact ⟨_, rfl, rfl⟩
  · rw [hscan, hfirst]
    exact ⟨none, if_neg hmagic, rfl⟩

/-- A search from a protected area ends there at a digest, and otherwise continues at
the area's end. -/
theorem search_protected (hstart : start ≤ image.length)
    (h : image.drop start = area.bytes TLV_PROT_INFO_MAGIC ++ rest) :
    (∃ found, searchBody image start = .inl (some found) ∧
        firstDigest area.entries = some (dataAt image found.2)) ∨
      firstDigest area.entries = none ∧ searchBody image start = .inr (start + area.total) := by
  have hmagic : halfAt image start = TLV_PROT_INFO_MAGIC := magic_of_drop (by decide) h
  rw [searchBody, if_pos (isArea_of_drop hstart (.inr rfl) h), areaEnd_of_drop hstart h]
  rcases scan_cases hstart h with ⟨entry, hscan, hfirst⟩ | ⟨hscan, hfirst⟩
  · rw [hscan, hfirst]
    exact .inl ⟨_, rfl, rfl⟩
  · rw [hscan, hfirst]
    exact .inr ⟨rfl, if_pos hmagic⟩

end area

/-! ## Images -/

/-- A well-formed image: a header that says how long it, the body and the protected
area are, the body, the areas and any bytes after them.  The protected size counts the
whole area, and is 0 where there is none. -/
structure Layout where
  header : Bytes
  body : Bytes
  protectedArea : Option TlvArea
  unprotectedArea : TlvArea
  rest : Bytes
  long : HEADER_LEN ≤ header.length
  magic : wordAt header 0 = IMAGE_MAGIC
  headerSize : halfAt header 8 = header.length
  protectSize : halfAt header 10 = (protectedArea.map TlvArea.total).getD 0
  imageSize : wordAt header 12 = body.length

namespace Layout
variable (l : Layout)

/-- The areas and what follows them. -/
def tail : Bytes := l.unprotectedArea.bytes TLV_INFO_MAGIC ++ l.rest

def areas : Bytes :=
  ((l.protectedArea.map (TlvArea.bytes TLV_PROT_INFO_MAGIC)).getD []) ++ l.tail

def bytes : Bytes := l.header ++ (l.body ++ l.areas)

/-- The first digest of the unprotected area, else the first of the protected one. -/
def digest : Option Bytes :=
  (firstDigest l.unprotectedArea.entries).or
    (l.protectedArea.bind fun area => firstDigest area.entries)

theorem length_areas :
    l.areas.length = (l.protectedArea.map TlvArea.total).getD 0 + l.tail.length := by
  rw [areas, List.length_append]
  cases l.protectedArea with
  | none => rfl
  | some area =>
    show (area.bytes _).length + _ = area.total + _
    rw [area.length_bytes]

theorem length_bytes :
    l.bytes.length = l.header.length + (l.body.length + l.areas.length) := by
  rw [bytes, List.length_append, List.length_append]

theorem isImage : IsImage l.bytes := by
  have hlong : 32 ≤ l.header.length := l.long
  have hlen := l.length_bytes
  refine ⟨show 32 ≤ _ by omega, ?_⟩
  rw [bytes, wordAt_append (by omega), l.magic]

theorem bodyEnd_eq : bodyEnd l.bytes = l.header.length + l.body.length := by
  have hlong : 32 ≤ l.header.length := l.long
  rw [bodyEnd, bytes, halfAt_append (by omega), wordAt_append (by omega), l.headerSize,
    l.imageSize]

theorem protectTlvSize_eq :
    protectTlvSize l.bytes = (l.protectedArea.map TlvArea.total).getD 0 := by
  have hlong : 32 ≤ l.header.length := l.long
  rw [protectTlvSize, bytes, halfAt_append (by omega), l.protectSize]

/-- After the body come the areas. -/
theorem drop_bodyEnd : l.bytes.drop (bodyEnd l.bytes) = l.areas := by
  rw [l.bodyEnd_eq, bytes, ← List.drop_drop, List.drop_left, List.drop_left]

/-- After the protected area comes the unprotected one. -/
theorem drop_cursor : l.bytes.drop (bodyEnd l.bytes + protectTlvSize l.bytes) = l.tail := by
  rw [← List.drop_drop, l.drop_bodyEnd, l.protectTlvSize_eq, areas]
  cases l.protectedArea with
  | none => rfl
  | some area =>
    show (area.bytes TLV_PROT_INFO_MAGIC ++ l.tail).drop area.total = l.tail
    rw [← area.length_bytes TLV_PROT_INFO_MAGIC, List.drop_left]

theorem cursor_le : bodyEnd l.bytes + protectTlvSize l.bytes ≤ l.bytes.length := by
  rw [l.bodyEnd_eq, l.protectTlvSize_eq, l.length_bytes, l.length_areas]
  omega

theorem bodyEnd_le : bodyEnd l.bytes ≤ l.bytes.length :=
  Nat.le_trans (Nat.le_add_right _ _) l.cursor_le

/-- Where `parse` looks first is the unprotected area. -/
theorem search_cursor :
    ∃ found, searchBody l.bytes (bodyEnd l.bytes + protectTlvSize l.bytes) = .inl found ∧
      digestOf l.bytes found = firstDigest l.unprotectedArea.entries :=
  search_unprotected l.cursor_le l.drop_cursor

/-- With a protected area, a search from the body's end finds that area's first digest,
or goes on to the unprotected area. -/
theorem search_bodyEnd {area : TlvArea} (harea : l.protectedArea = some area) :
    (∃ found, searchBody l.bytes (bodyEnd l.bytes) = .inl (some found) ∧
        firstDigest area.entries = some (dataAt l.bytes found.2)) ∨
      firstDigest area.entries = none ∧
        searchBody l.bytes (bodyEnd l.bytes) = .inr (bodyEnd l.bytes + protectTlvSize l.bytes) := by
  have hareas : l.areas = area.bytes TLV_PROT_INFO_MAGIC ++ l.tail := by
    rw [areas, harea]
    rfl
  have hprotect : protectTlvSize l.bytes = area.total := by
    rw [l.protectTlvSize_eq, harea]
    rfl
  rw [hprotect]
  exact search_protected l.bodyEnd_le (l.drop_bodyEnd.trans hareas)

theorem protectTlvSize_ne_zero {area : TlvArea} (harea : l.protectedArea = some area) :
    protectTlvSize l.bytes ≠ 0 := by
  rw [l.protectTlvSize_eq, harea]
  show 4 + _ ≠ 0
  omega

theorem protectTlvSize_eq_zero (hnone : l.protectedArea = none) : protectTlvSize l.bytes = 0 := by
  rw [l.protectTlvSize_eq, hnone]
  rfl

/-- Only the areas' offsets are searched. -/
theorem enters {t : Nat} (h : Enters l.bytes t) :
    t = bodyEnd l.bytes + protectTlvSize l.bytes ∨ t = bodyEnd l.bytes := by
  induction h with
  | cursor _ => exact .inl rfl
  | body _ _ _ => exact .inr rfl
  | further _ hround ih =>
    unfold Loop.Continues at hround
    have hcursor : ∀ {next},
        searchBody l.bytes (bodyEnd l.bytes + protectTlvSize l.bytes) ≠ .inr next := by
      intro next hnext
      obtain ⟨found, hstop, -⟩ := l.search_cursor
      rw [hstop] at hnext
      cases hnext
    rcases ih with rfl | rfl
    · exact absurd hround hcursor
    · cases harea : l.protectedArea with
      | none =>
        rw [l.protectTlvSize_eq_zero harea] at hcursor
        exact absurd hround hcursor
      | some area =>
        left
        rcases l.search_bodyEnd harea with ⟨found, hstop, -⟩ | ⟨-, hnext⟩
        · rw [hstop] at hround
          cases hround
        · rw [hnext] at hround
          exact (Sum.inr.inj hround).symm

theorem enters_lt {t : Nat} (h : Enters l.bytes t) : t < 2 ^ 63 := by
  have hcursor := cursor_lt l.bytes
  rcases l.enters h with rfl | rfl
  · exact hcursor
  · omega

/-- The two searches find the digest of the layout. -/
theorem locates : ∃ found, Locates l.bytes found ∧ digestOf l.bytes found = l.digest := by
  obtain ⟨first, hstop, hfirst⟩ := l.search_cursor
  have hends : Loop.Ends (searchBody l.bytes) (bodyEnd l.bytes + protectTlvSize l.bytes) first :=
    .stop hstop
  unfold digest
  rw [← hfirst]
  cases first with
  | some found => exact ⟨some found, .cursor hends, rfl⟩
  | none =>
    cases harea : l.protectedArea with
    | none => exact ⟨none, .unprotected hends (l.protectTlvSize_eq_zero harea), rfl⟩
    | some area =>
      have hprotect := l.protectTlvSize_ne_zero harea
      rcases l.search_bodyEnd harea with ⟨found, hfound, hdigest⟩ | ⟨hdigest, hnext⟩
      · exact ⟨some found, .body hends hprotect (.stop hfound), hdigest.symm⟩
      · exact ⟨none, .body hends hprotect (.again hnext hends), hdigest.symm⟩

end Layout

/-- **The identity of a well-formed image** is the first SHA-256 entry of its
unprotected area, or of its protected area when there is none, and without one it is
refused. -/
theorem parse_layout (l : Layout) :
    parse l.bytes = .ok (match l.digest with
      | some digest =>
        .ok ⟨digest, versionAt l.header, l.header.length, l.body.length⟩
      | none => .error ["MCUboot image has no SHA256 TLV; cannot determine the digest " ++
          "the device will report"]) := by
  obtain ⟨found, hlocates, hdigest⟩ := l.locates
  have hlong : 32 ≤ l.header.length := l.long
  have hversion : versionAt l.bytes = versionAt l.header := versionAt_append l.long
  have hheader : halfAt l.bytes 8 = l.header.length :=
    (halfAt_append (by omega)).trans l.headerSize
  have hbody : wordAt l.bytes 12 = l.body.length :=
    (wordAt_append (by omega)).trans l.imageSize
  refine (parseWith_of_locates l.enters_lt l.isImage (Nat.lt_succ_self _) hlocates).trans ?_
  rw [← hdigest]
  cases found with
  | none => rfl
  | some found =>
    show Except.ok (Except.ok _) = Except.ok (Except.ok _)
    rw [hversion, hheader, hbody]

/-- A release with its digest in the protected area alone, after an entry of another kind. -/
def protectedRelease : Layout where
  header := [0x3d, 0xb8, 0xf3, 0x96, 0, 0, 0, 0, 32, 0, 46, 0, 3, 0, 0, 0, 0, 0, 0, 0,
    1, 2, 3, 0, 4, 0, 0, 0, 0, 0, 0, 0]
  body := [1, 2, 3]
  protectedArea := some ⟨[⟨0x50, 0, [9, 9], by decide⟩,
    ⟨0x10, 0, List.replicate 32 7, by decide⟩], by decide⟩
  unprotectedArea := ⟨[⟨0x01, 0, [5], by decide⟩], by decide⟩
  rest := [0xff]
  long := by decide
  magic := rfl
  headerSize := rfl
  protectSize := rfl
  imageSize := rfl

theorem parse_layout_protectedRelease :
    parse protectedRelease.bytes = .ok (.ok ⟨List.replicate 32 7, "1.2.3+4", 32, 3⟩) :=
  parse_layout protectedRelease

end Runtt.Mcuboot
