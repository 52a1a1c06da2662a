import Runtt.Loop
import Runtt.Mcuboot

/-! # Where the digest of an image comes from

The loop and the recursion of `find_sha256` as loops without fuel: `walkBody` is one
iteration over the entries of an area, `searchBody` one call of the function.  They
say at which offset each works, and in which entry of which area the digest is
found; `findSha256` is their execution (`findSha256_cases`).

Nothing wraps as long as the image is a slice: no slice is longer than
`isize::MAX`.
-/
namespace Runtt.Mcuboot

/-! ## Fields -/

/-- The byte at `i`; 0 outside the image. -/
def byteAt (b : Bytes) (i : Nat) : Nat := (b.getD i 0).toNat

def halfAt (b : Bytes) (i : Nat) : Nat := byteAt b i + 2 ^ 8 * byteAt b (i + 1)

def wordAt (b : Bytes) (i : Nat) : Nat :=
  byteAt b i + 2 ^ 8 * byteAt b (i + 1) + 2 ^ 16 * byteAt b (i + 2) + 2 ^ 24 * byteAt b (i + 3)

theorem byteAt_lt (b : Bytes) (i : Nat) : byteAt b i < 2 ^ 8 := UInt8.toNat_lt _

theorem halfAt_lt (b : Bytes) (i : Nat) : halfAt b i < 2 ^ 16 := by
  have h₀ := byteAt_lt b i
  have h₁ := byteAt_lt b (i + 1)
  show _ + _ < _
  omega

theorem wordAt_lt (b : Bytes) (i : Nat) : wordAt b i < 2 ^ 32 := by
  have h₀ := byteAt_lt b i
  have h₁ := byteAt_lt b (i + 1)
  have h₂ := byteAt_lt b (i + 2)
  have h₃ := byteAt_lt b (i + 3)
  show _ + _ + _ + _ < _
  omega

theorem index_eq {b : Bytes} {i : Nat} (h : i < b.length) : index b i = .ok (byteAt b i) := by
  unfold index byteAt
  rw [List.getD_eq_getElem?_getD, List.getElem?_eq_getElem h]
  rfl

theorem u16le_eq {b : Bytes} {i : Nat} (h : i + 1 < b.length) (hsmall : i + 1 < 2 ^ 64) :
    u16le Arch.host b i = .ok (halfAt b i) := by
  unfold u16le
  rw [index_eq (by omega), bind_ok, Arch.host_add hsmall, bind_ok, index_eq h, bind_ok]
  rfl

theorem u32le_eq {b : Bytes} {i : Nat} (h : i + 3 < b.length) (hsmall : i + 3 < 2 ^ 64) :
    u32le Arch.host b i = .ok (wordAt b i) := by
  unfold u32le
  rw [index_eq (by omega), bind_ok, Arch.host_add (by omega), bind_ok, index_eq (by omega),
    bind_ok, Arch.host_add (by omega), bind_ok, index_eq (by omega), bind_ok,
    Arch.host_add hsmall, bind_ok, index_eq h, bind_ok]
  rfl

/-! ## The entries of an area -/

/-- Where the entry at `pos` ends. -/
def entryEnd (image : Bytes) (pos : Nat) : Nat := pos + 4 + halfAt image (pos + 2)

/-- A SHA-256 entry of 32 bytes. -/
def IsDigest (image : Bytes) (pos : Nat) : Prop :=
  byteAt image pos = TLV_SHA256 ∧ halfAt image (pos + 2) = 32

instance (image : Bytes) (pos : Nat) : Decidable (IsDigest image pos) :=
  inferInstanceAs (Decidable (_ ∧ _))

/-- How the loop ends, with the entry at which it found a digest. -/
inductive Stop where
  | digest (entry : Nat)
  | cut
  | done
  deriving DecidableEq, Repr

/-- The 32 bytes of data of the entry at `pos`. -/
def dataAt (image : Bytes) (pos : Nat) : Bytes := (image.drop (pos + 4)).take 32

def Stop.walk (image : Bytes) : Stop → Walk
  | .digest entry => .found (dataAt image entry)
  | .cut => .cut
  | .done => .done

/-- One iteration of the loop of `find_sha256`, at an entry. -/
def walkBody (image : Bytes) (areaEnd pos : Nat) : Stop ⊕ Nat :=
  if pos + 4 ≤ areaEnd then
    if image.length < entryEnd image pos then .inl .cut
    else if IsDigest image pos then .inl (.digest pos)
    else .inr (entryEnd image pos)
  else .inl .done

section iteration
variable {image : Bytes} {areaEnd pos next entry : Nat}

theorem walkBody_done (h : ¬ pos + 4 ≤ areaEnd) : walkBody image areaEnd pos = .inl .done :=
  if_neg h

theorem walkBody_cut (hroom : pos + 4 ≤ areaEnd) (hcut : image.length < entryEnd image pos) :
    walkBody image areaEnd pos = .inl .cut := by
  rw [walkBody, if_pos hroom, if_pos hcut]

theorem walkBody_digest (hroom : pos + 4 ≤ areaEnd) (hfits : ¬ image.length < entryEnd image pos)
    (hdigest : IsDigest image pos) : walkBody image areaEnd pos = .inl (.digest pos) := by
  rw [walkBody, if_pos hroom, if_neg hfits, if_pos hdigest]

theorem walkBody_skip (hroom : pos + 4 ≤ areaEnd) (hfits : ¬ image.length < entryEnd image pos)
    (hdigest : ¬ IsDigest image pos) :
    walkBody image areaEnd pos = .inr (entryEnd image pos) := by
  rw [walkBody, if_pos hroom, if_neg hfits, if_neg hdigest]

/-- The four ways of an iteration. -/
theorem walkBody_cases (image : Bytes) (areaEnd pos : Nat) :
    walkBody image areaEnd pos = .inl .done ∨
    walkBody image areaEnd pos = .inl .cut ∨
    (pos + 4 ≤ areaEnd ∧ entryEnd image pos ≤ image.length ∧ IsDigest image pos ∧
      walkBody image areaEnd pos = .inl (.digest pos)) ∨
    (pos + 4 ≤ areaEnd ∧ walkBody image areaEnd pos = .inr (entryEnd image pos)) := by
  by_cases hroom : pos + 4 ≤ areaEnd
  · right
    by_cases hcut : image.length < entryEnd image pos
    · exact .inl (walkBody_cut hroom hcut)
    · right
      by_cases hdigest : IsDigest image pos
      · exact .inl ⟨hroom, Nat.not_lt.mp hcut, hdigest, walkBody_digest hroom hcut hdigest⟩
      · exact .inr ⟨hroom, walkBody_skip hroom hcut hdigest⟩
  · exact .inl (walkBody_done hroom)

/-- An iteration that goes on is at an entry of the area, and the next one is at its
end. -/
theorem walkBody_continues (h : Loop.Continues (walkBody image areaEnd) pos next) :
    pos + 4 ≤ areaEnd ∧ next = entryEnd image pos := by
  unfold Loop.Continues at h
  rcases walkBody_cases image areaEnd pos with hbody | hbody | ⟨-, -, -, hbody⟩ | ⟨hroom, hbody⟩
  · rw [hbody] at h
    cases h
  · rw [hbody] at h
    cases h
  · rw [hbody] at h
    cases h
  · rw [hbody] at h
    exact ⟨hroom, (Sum.inr.inj h).symm⟩

/-- **Each iteration is further on than the one before.** -/
theorem walkBody_advances (h : Loop.Continues (walkBody image areaEnd) pos next) :
    pos < next := by
  rw [(walkBody_continues h).2]
  show pos < _ + _
  omega

/-- An iteration that finds a digest is at its entry, whose data is in the image. -/
theorem walkBody_found (h : walkBody image areaEnd pos = .inl (.digest entry)) :
    entry = pos ∧ pos + 4 ≤ areaEnd ∧ entryEnd image pos ≤ image.length ∧ IsDigest image pos := by
  rcases walkBody_cases image areaEnd pos with
    hbody | hbody | ⟨hroom, hfits, hdigest, hbody⟩ | ⟨-, hbody⟩
  · rw [hbody] at h
    cases h
  · rw [hbody] at h
    cases h
  · rw [hbody] at h
    cases h
    exact ⟨rfl, hroom, hfits, hdigest⟩
  · rw [hbody] at h
    cases h

end iteration

/-- The loop of `find_sha256` is over in at most one iteration for each byte. -/
theorem walkBody_run (image : Bytes) (pos : Nat) {areaEnd fuel : Nat} (hfuel : areaEnd < fuel) :
    ∃ stop, Loop.run (walkBody image areaEnd) fuel pos = some stop := by
  refine Loop.run_of_lowering (fun p => areaEnd - p) (fun {t u} _ hround => ?_) (by omega)
  have hroom := (walkBody_continues hround).1
  have hless := walkBody_advances hround
  show areaEnd - u < areaEnd - t
  omega

/-- The loop of the source is this loop. -/
theorem walk_eq {image : Bytes} {areaEnd : Nat} (hend : areaEnd ≤ image.length)
    (hsmall : areaEnd < 2 ^ 63 + 2 ^ 16) (fuel : Nat) {pos : Nat} (hpos : pos < 2 ^ 63 + 2 ^ 18) :
    walk Arch.host image areaEnd fuel pos =
      match Loop.run (walkBody image areaEnd) fuel pos with
      | some stop => .ok (stop.walk image)
      | none => .error .never := by
  induction fuel generalizing pos with
  | zero => rfl
  | succ fuel ih =>
    have hlen := halfAt_lt image (pos + 2)
    unfold walk
    rw [Arch.host_add (by omega), bind_ok]
    by_cases hroom : pos + 4 ≤ areaEnd
    · have hget : u16le Arch.host image (pos + 2) = .ok (halfAt image (pos + 2)) :=
        u16le_eq (by omega) (by omega)
      have hentry : pos + 4 + halfAt image (pos + 2) = entryEnd image pos := rfl
      rw [if_pos hroom, index_eq (by omega), bind_ok, Arch.host_add (by omega),
        bind_ok, hget, bind_ok, bind_ok, Arch.host_add (by omega), bind_ok, hentry]
      by_cases hcut : image.length < entryEnd image pos
      · rw [if_pos hcut, Loop.run_stop (walkBody_cut hroom hcut)]
        rfl
      · rw [if_neg hcut]
        by_cases hdigest : IsDigest image pos
        · have hdata : slice image (pos + 4) (pos + 4 + 32) = .ok (dataAt image pos) := by
            have h32 := hdigest.2
            have hsub : pos + 4 + 32 - (pos + 4) = 32 := by omega
            rw [slice, if_pos (by omega), hsub]
            rfl
          rw [if_pos (show _ ∧ _ from hdigest), Arch.host_add (by omega), bind_ok, hdata,
            Loop.run_stop (walkBody_digest hroom hcut hdigest)]
          rfl
        · rw [if_neg (show ¬ (_ ∧ _) from hdigest), bind_ok,
            Loop.run_again (walkBody_skip hroom hcut hdigest)]
          exact ih (by omega)
    · rw [if_neg hroom, Loop.run_stop (walkBody_done hroom)]
      rfl

/-! ## The areas -/

/-- The total length an area's info header declares. -/
def totalAt (image : Bytes) (start : Nat) : Nat := halfAt image (start + 2)

/-- `area_end`. -/
def areaEnd (image : Bytes) (start : Nat) : Nat :=
  min (start + totalAt image start) image.length

/-- A TLV area with a valid info magic begins here. -/
def IsArea (image : Bytes) (start : Nat) : Prop :=
  start + 4 ≤ image.length ∧
    (halfAt image start = TLV_INFO_MAGIC ∨ halfAt image start = TLV_PROT_INFO_MAGIC)

instance (image : Bytes) (start : Nat) : Decidable (IsArea image start) :=
  inferInstanceAs (Decidable (_ ∧ _))

/-- How the loop over the area at `start` ends. -/
def scan (image : Bytes) (start : Nat) : Stop :=
  (Loop.run (walkBody image (areaEnd image start)) (image.length + 1) (start + 4)).getD .done

/-- One call of `find_sha256`: the area and the entry of the digest, or where the
search continues. -/
def searchBody (image : Bytes) (start : Nat) : Option (Nat × Nat) ⊕ Nat :=
  if IsArea image start then
    match scan image start with
    | .digest entry => .inl (some (start, entry))
    | .cut => .inl none
    | .done =>
      if halfAt image start = TLV_PROT_INFO_MAGIC then .inr (areaEnd image start) else .inl none
  else .inl none

theorem areaEnd_le (image : Bytes) (start : Nat) : areaEnd image start ≤ image.length :=
  Nat.min_le_right _ _

theorem scan_ends (image : Bytes) (start : Nat) :
    Loop.Ends (walkBody image (areaEnd image start)) (start + 4) (scan image start) := by
  have hle := areaEnd_le image start
  obtain ⟨stop, hrun⟩ := walkBody_run image (start + 4) (Nat.lt_succ_of_le hle)
  have hscan : scan image start = stop := by
    rw [scan, hrun]
    rfl
  rw [hscan]
  exact Loop.ends_of_run hrun

/-- A search that goes on is at a protected area, and continues at its end. -/
theorem searchBody_continues {image : Bytes} {start next : Nat}
    (h : Loop.Continues (searchBody image) start next) :
    IsArea image start ∧ halfAt image start = TLV_PROT_INFO_MAGIC ∧
      scan image start = .done ∧ next = areaEnd image start := by
  unfold Loop.Continues searchBody at h
  split at h
  · rename_i harea
    split at h
    · cases h
    · cases h
    · rename_i hdone
      split at h
      · rename_i hmagic
        exact ⟨harea, hmagic, hdone, (Sum.inr.inj h).symm⟩
      · cases h
  · cases h

theorem searchBody_found {image : Bytes} {start area entry : Nat}
    (h : searchBody image start = .inl (some (area, entry))) :
    area = start ∧ IsArea image start ∧ scan image start = .digest entry := by
  unfold searchBody at h
  split at h
  · rename_i harea
    split at h
    · rename_i hdigest
      cases h
      exact ⟨rfl, harea, hdigest⟩
    · cases h
    · split at h
      · cases h
      · cases h
  · cases h

/-- What the search returns for what it found. -/
def digestOf (image : Bytes) (found : Option (Nat × Nat)) : Option Bytes :=
  found.map fun p => dataAt image p.2

/-- One call of the source's function is one round of the search, unless the fuel of
its loop gives out. -/
theorem findSha256_succ (image : Bytes) {start : Nat} (hsmall : start < 2 ^ 63)
    (steps fuel : Nat) :
    findSha256 Arch.host image steps (fuel + 1) start =
        (match searchBody image start with
        | .inl found => .ok (digestOf image found)
        | .inr next => findSha256 Arch.host image steps fuel next) ∨
      steps ≤ image.length ∧
        findSha256 Arch.host image steps (fuel + 1) start = .error .never := by
  have htotal := halfAt_lt image (start + 2)
  have hle := areaEnd_le image start
  rw [findSha256, Arch.host_add (by omega), bind_ok]
  by_cases hroom : image.length < start + 4
  · rw [if_pos hroom, searchBody, if_neg (fun h => Nat.not_le.mpr hroom h.1)]
    exact .inl rfl
  · rw [if_neg hroom, u16le_eq (by omega) (by omega), bind_ok]
    by_cases hmagic : halfAt image start ≠ TLV_INFO_MAGIC ∧ halfAt image start ≠ TLV_PROT_INFO_MAGIC
    · have hnot : ¬ IsArea image start := fun h => h.2.elim hmagic.1 hmagic.2
      rw [if_pos hmagic, searchBody, if_neg hnot]
      exact .inl rfl
    · have harea : IsArea image start := ⟨by omega, by omega⟩
      have hget : u16le Arch.host image (start + 2) = .ok (totalAt image start) :=
        u16le_eq (by omega) (by omega)
      have hstop : min (start + totalAt image start) image.length = areaEnd image start := rfl
      have hend : areaEnd image start ≤ start + totalAt image start := Nat.min_le_left _ _
      have hless : totalAt image start < 2 ^ 16 := htotal
      rw [if_neg hmagic, Arch.host_add (by omega), bind_ok, hget, bind_ok,
        Arch.host_add (by omega), bind_ok, hstop, bind_ok,
        walk_eq hle (by omega) steps (by omega), searchBody, if_pos harea]
      cases hrun : Loop.run (walkBody image (areaEnd image start)) steps (start + 4) with
      | none =>
        refine .inr ⟨Nat.not_lt.mp fun hsteps => ?_, rfl⟩
        obtain ⟨stop, h⟩ := walkBody_run image (start + 4) (Nat.lt_of_le_of_lt hle hsteps)
        rw [hrun] at h
        cases h
      | some stop =>
        have hscan : scan image start = stop :=
          (scan_ends image start).unique (Loop.ends_of_run hrun)
        rw [hscan]
        left
        cases stop with
        | digest entry => rfl
        | cut => rfl
        | done =>
          show (if _ then _ else _) = _
          by_cases hprotected : halfAt image start = TLV_PROT_INFO_MAGIC
          · rw [if_pos hprotected, if_pos hprotected]
          · rw [if_neg hprotected, if_neg hprotected]
            rfl

/-! ## The whole search -/

theorem areaEnd_ge {image : Bytes} {start : Nat} (h : IsArea image start) :
    start ≤ areaEnd image start :=
  Nat.le_min.mpr ⟨Nat.le_add_right _ _, by have := h.1; omega⟩

/-- A call that goes on works no further back than its caller. -/
theorem searchBody_le {image : Bytes} {start next : Nat}
    (h : Loop.Continues (searchBody image) start next) : start ≤ next := by
  obtain ⟨harea, -, -, rfl⟩ := searchBody_continues h
  exact areaEnd_ge harea

/-- A search that returns never calls itself at the same offset. -/
theorem searchBody_lt_of_ends {image : Bytes} {start t next : Nat} {found : Option (Nat × Nat)}
    (h : Loop.Ends (searchBody image) start found)
    (hvisits : Loop.Visits (searchBody image) start t)
    (hround : Loop.Continues (searchBody image) t next) : t < next := by
  refine Nat.lt_of_le_of_ne (searchBody_le hround) fun heq => ?_
  subst heq
  exact Loop.not_ends_of_fixed hround (hvisits.ends_iff.mp h)

/-- Rounds that go further on are over in at most one for each byte. -/
theorem searchBody_run {image : Bytes} {start fuel : Nat} (hfuel : image.length < fuel)
    (hadvance : ∀ {t next}, Loop.Visits (searchBody image) start t →
      Loop.Continues (searchBody image) t next → t < next) :
    ∃ found, Loop.run (searchBody image) fuel start = some found := by
  refine Loop.run_of_lowering (fun t => image.length - t) (fun {t next} hvisits hround => ?_)
    (Nat.lt_of_le_of_lt (Nat.sub_le _ _) hfuel)
  have hless := hadvance hvisits hround
  have hroom := (searchBody_continues hround).1.1
  show image.length - next < image.length - t
  omega

/-- **What `find_sha256` returns is what the search finds**, whatever the fuel. -/
theorem findSha256_cases {image : Bytes} {start : Nat} (steps fuel : Nat)
    (hsmall : ∀ {t}, Loop.Visits (searchBody image) start t → t < 2 ^ 63) :
    (∃ found, Loop.Ends (searchBody image) start found ∧
        findSha256 Arch.host image steps fuel start = .ok (digestOf image found)) ∨
      findSha256 Arch.host image steps fuel start = .error .never := by
  induction fuel generalizing start with
  | zero => exact .inr rfl
  | succ fuel ih =>
    rcases findSha256_succ image (hsmall .refl) steps fuel with hsucc | ⟨-, hnever⟩
    · rw [hsucc]
      rcases hbody : searchBody image start with found | next
      · exact .inl ⟨found, .stop hbody, rfl⟩
      · have hround : Loop.Continues (searchBody image) start next := hbody
        have hsmall' {t : Nat} (hvisits : Loop.Visits (searchBody image) next t) : t < 2 ^ 63 :=
          hsmall (.head hround hvisits)
        rcases ih hsmall' with ⟨found, hends, heq⟩ | hnever
        · exact .inl ⟨found, .again hbody hends, heq⟩
        · exact .inr hnever
    · exact .inr hnever

/-- A search that returns does so with fuel for each byte of the image. -/
theorem findSha256_of_ends {image : Bytes} {steps fuel start : Nat} {found : Option (Nat × Nat)}
    (hsmall : ∀ {t}, Loop.Visits (searchBody image) start t → t < 2 ^ 63)
    (hsteps : image.length < steps) (hfuel : image.length < fuel)
    (h : Loop.Ends (searchBody image) start found) :
    findSha256 Arch.host image steps fuel start = .ok (digestOf image found) := by
  obtain ⟨found', hrun⟩ := searchBody_run hfuel (searchBody_lt_of_ends h)
  have heq : found' = found := (Loop.ends_of_run hrun).unique h
  subst heq
  clear h hfuel
  induction fuel generalizing start with
  | zero => cases hrun
  | succ fuel ih =>
    have hsucc := (findSha256_succ image (hsmall .refl) steps fuel).resolve_right
      fun h => Nat.not_le.mpr hsteps h.1
    rw [hsucc]
    rcases hbody : searchBody image start with found | next
    · rw [Loop.run_stop hbody] at hrun
      cases hrun
      rfl
    · rw [Loop.run_again hbody] at hrun
      have hround : Loop.Continues (searchBody image) start next := hbody
      exact ih (fun hvisits => hsmall (.head hround hvisits)) hrun

end Runtt.Mcuboot
