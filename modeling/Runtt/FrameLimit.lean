import Runtt.RoundTrip

/-! # The longest frame

The payload's length is cast to 16 bits twice: as it is in the header, and with the header and
the checksum in front of the packet.  The second cast is the first to lose something, at 65526
bytes, and `encode` returns `Ok` all the same.  Whatever it returns for a longer payload, a
decoder does not get the frame out of it, since it never returns a body of more than 65533
bytes.
-/
namespace Runtt

variable {e : Engine} {f : Frame} {maxLine : Nat}

/-- What a fresh decoder and `Frame::parse` make of an encoded text, line by line: the frames
and the failures. -/
def decodeFrames (e : Engine) (wire : Bytes) : List (Except Error Frame) :=
  (Decoder.new.pushLines e (LineStream.lines NEWLINE wire)).1.filterMap fun
    | .ok none => none
    | .ok (some body) => some (Frame.parse body)
    | .error err => some (.error err)

/-- What `encode` returns is decoded to the frame and nothing else. -/
def GivesBack (e : Engine) (f : Frame) (maxLine : Nat) : Prop :=
  ∀ wire, encode e f maxLine = .ok wire → decodeFrames e wire = [.ok f]

namespace Decoder
variable {d : Decoder}

/-- A line that joins nothing gives no body, and any other one what `complete` gives. -/
theorem pushLine_cases (d : Decoder) (line : Bytes) :
    (d.pushLine e line).1 = .ok none ∨ ∃ d', d.pushLine e line = complete e d' := by
  unfold pushLine
  split
  · split
    · exact .inr ⟨_, rfl⟩
    · split
      · split
        · exact .inl rfl
        · exact .inr ⟨_, rfl⟩
      · exact .inl rfl
  · exact .inl rfl

/-- **A body has room for its checksum in the length prefix.** -/
theorem length_of_pushLine {line body : Bytes} (h : (d.pushLine e line).1 = .ok (some body)) :
    body.length + 2 < 2 ^ 16 := by
  rcases pushLine_cases (e := e) d line with hnone | ⟨d', hcomplete⟩
  · rw [hnone] at h
    cases h
  · obtain ⟨r, d'', hr⟩ : ∃ r d'', complete e d' = (r, d'') := ⟨_, _, rfl⟩
    rw [hcomplete, hr] at h
    subst h
    rcases complete_cases hr with ⟨hnone, -⟩ | ⟨hi, lo, rest, -, -, -, hbody⟩
    · cases hnone
    · rcases hbody with ⟨err, herr⟩ | ⟨body', c₁, c₂, hbody, htake, -⟩
      · cases herr
      · cases hbody
        have hlength := congrArg List.length htake
        have hdeclared := (fromBeBytes hi lo).toNat_lt
        simp only [List.length_take, List.length_append, List.length_cons,
          List.length_nil] at hlength
        omega

theorem length_of_pushLines {lines : List Bytes} {body : Bytes}
    (h : .ok (some body) ∈ (d.pushLines e lines).1) : body.length + 2 < 2 ^ 16 := by
  induction lines generalizing d with
  | nil => cases h
  | cons line rest ih =>
    rw [pushLines] at h
    rcases List.mem_cons.mp h with hhead | hrest
    · exact length_of_pushLine hhead.symm
    · exact ih hrest

end Decoder

/-- A body that parses to a frame is as long as its header and payload. -/
theorem length_of_parse_payload {body : Bytes} (h : Frame.parse body = .ok f) :
    body.length = 8 + f.payload.length := by
  unfold Frame.parse at h
  split at h
  · simp only at h
    split at h
    · cases h
    · cases h
      simp only [List.length_cons]
      omega
  · cases h

/-- No text is decoded to a frame that is too long. -/
theorem payload_of_mem_decodeFrames {wire : Bytes} (h : .ok f ∈ decodeFrames e wire) :
    f.payload.length ≤ 65525 := by
  obtain ⟨r, hr, hframe⟩ := List.mem_filterMap.mp h
  cases r with
  | error err => cases hframe
  | ok body =>
    cases body with
    | none => cases hframe
    | some body =>
      have hbody := Decoder.length_of_pushLines hr
      have hlength := length_of_parse_payload (Option.some.inj hframe)
      omega

/-- The last line of a frame alone gives something. -/
theorem filterMap_completing {x : Frame} {lines : List Bytes} (hlines : lines ≠ []) :
    ((completing x lines).map fun l => delivery l.2).filterMap (fun
      | .ok none => none
      | .ok (some body) => some (Frame.parse body)
      | .error err => some (.error err)) = [Frame.parse x.body] := by
  induction lines with
  | nil => exact absurd rfl hlines
  | cons line rest ih =>
    cases rest with
    | nil => rfl
    | cons line' rest => exact ih (List.cons_ne_nil _ _)

/-- **A frame comes back exactly when its payload has at most 65525 bytes.** -/
theorem gives_back_iff (he : e.Standard) (hop : f.op < 8) (hversion : f.version < 4)
    (hmax : 16 ≤ maxLine) : GivesBack e f maxLine ↔ f.payload.length ≤ 65525 := by
  constructor
  · intro hback
    have hdecoded := hback _ (encode_eq hmax)
    apply payload_of_mem_decodeFrames (e := e)
    rw [hdecoded]
    exact List.mem_singleton_self _
  · intro hpayload wire hwire
    have hf : f.Representable := ⟨hop, hversion, hpayload⟩
    rw [encode_eq hmax] at hwire
    cases hwire
    have hne : wireLines e f maxLine ≠ [] := by
      rw [wireLines, chunks_cons (by omega) (Decoder.text_ne_nil he), markLines]
      exact List.cons_ne_nil _ _
    rw [decodeFrames, lines_encode he hmax, Decoder.pushLines_frame he hf hmax,
      filterMap_completing hne, Frame.parse_body hf]

theorem gives_back_iff_osWrite :
    GivesBack Engine.standard (osWrite 1) MAX_LINE ↔ (osWrite 1).payload.length ≤ 65525 :=
  gives_back_iff Engine.standard_standard (by decide) (by decide) (by decide)

/-- A write of the first length that does not fit. -/
def longWrite : Frame := { osWrite 1 with payload := List.replicate 65526 0 }

/-- `encode` returns lines for it, and they are not decoded to it. -/
theorem longWrite_not_given_back :
    ¬ ∀ (f : Frame) (maxLine : Nat), f.op < 8 → f.version < 4 → 16 ≤ maxLine →
        GivesBack Engine.standard f maxLine := by
  intro hall
  have hback := hall longWrite MAX_LINE (by decide) (by decide) (by decide) _
    (encode_eq (by decide))
  have hmem : .ok longWrite ∈ decodeFrames Engine.standard
      (LineStream.terminated NEWLINE (wireLines Engine.standard longWrite MAX_LINE)) := by
    rw [hback]
    exact List.mem_singleton_self _
  have hlength := payload_of_mem_decodeFrames hmem
  rw [longWrite, List.length_replicate] at hlength
  omega

end Runtt
