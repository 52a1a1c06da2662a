import Runtt.Wire

/-! # Framing round trip on a live link

Frames arrive one after another, each as its lines, with lines of the log anywhere among
them, at a decoder left in any state by what came before.  Each line is passed over or
joins the text; the text is waited on until it is the whole packet, on the frame's last
line.
-/
namespace Runtt

variable {e : Engine} {f : Frame} {maxLine : Nat}

/-- The lines of a frame, each with the frame its arrival completes: the last one alone
completes `x`. -/
def completing (x : Frame) : List Bytes → List (Bytes × Option Frame)
  | [] => []
  | [line] => [(line, some x)]
  | line :: line' :: rest => (line, none) :: completing x (line' :: rest)

theorem map_fst_completing {x : Frame} {ls : List Bytes} : (completing x ls).map Prod.fst = ls := by
  induction ls with
  | nil => rfl
  | cons line rest ih =>
    cases rest with
    | nil => rfl
    | cons line' rest => exact congrArg (line :: ·) ih

/-- What `push_line` returns for a line that completes `x`, or nothing. -/
def delivery (x : Option Frame) : Except Error (Option Bytes) := .ok (x.map Frame.body)

namespace Decoder
variable {d : Decoder}

theorem pushLines_append {ls ls' : List Bytes} : d.pushLines e (ls ++ ls') =
    ((d.pushLines e ls).1 ++ ((d.pushLines e ls).2.pushLines e ls').1,
      ((d.pushLines e ls).2.pushLines e ls').2) := by
  induction ls generalizing d with
  | nil => rfl
  | cons line ls ih =>
    simp only [List.cons_append, pushLines, ih]

/-- **The lines of a packet, from where its text has got to.** -/
theorem pushLines_rest (he : e.Standard) (hf : f.Representable) {n : Nat} (hn : 0 < n)
    {rest : Bytes} (hrest : rest ≠ []) {done : Bytes}
    (htext : done ++ rest = e.encode (packet e f)) :
    pushLines e ⟨done, true⟩ (markLines MARKER_CONT (chunks n rest)) =
      ((completing f (markLines MARKER_CONT (chunks n rest))).map fun x => delivery x.2,
        ⟨e.encode (packet e f), false⟩) := by
  induction rest using chunks_induction hn generalizing done with
  | nil => exact absurd rfl hrest
  | cons rest _ ih =>
    rw [chunks_cons hn hrest, markLines, pushLines, pushLine_cont, if_pos rfl]
    by_cases hlast : rest.drop n = []
    · -- the last line
      have hwhole : done ++ rest.take n = e.encode (packet e f) := by
        rw [← htext, List.take_of_length_le (List.drop_eq_nil_iff.mp hlast)]
      simp only [hwhole, complete_packet he hf, hlast, chunks_nil, markLines, pushLines, completing]
      rfl
    · -- a line before it
      have hpart : done ++ rest.take n =
          (e.encode (packet e f)).take (done ++ rest.take n).length := by
        have hsplit : done ++ rest = done ++ rest.take n ++ rest.drop n := by
          rw [List.append_assoc, List.take_append_drop]
        rw [← htext, hsplit, List.take_left]
      have hshort : (done ++ rest.take n).length < (e.encode (packet e f)).length := by
        rw [← htext]
        have := List.length_pos_iff.mpr hlast
        simp only [List.length_append, List.length_take, List.length_drop] at this ⊢
        omega
      have hwait := complete_part he hf hshort
      rw [← hpart] at hwait
      have htext' : done ++ rest.take n ++ rest.drop n = e.encode (packet e f) := by
        rw [List.append_assoc, List.take_append_drop, htext]
      have hnext := ih hlast htext'
      simp only [hwait, hnext]
      obtain ⟨b, l, hcons⟩ := List.exists_cons_of_ne_nil hlast
      rw [hcons, chunks_cons hn (List.cons_ne_nil b l)]
      rfl

theorem text_ne_nil (he : e.Standard) : e.encode (packet e f) ≠ [] := by
  rw [he.encode, ← List.length_pos_iff, Base64.length_encode, length_packet]
  omega

/-- **One frame, whatever came before it.** -/
theorem pushLines_frame (he : e.Standard) (hf : f.Representable) (hmax : 16 ≤ maxLine) :
    d.pushLines e (wireLines e f maxLine) =
      ((completing f (wireLines e f maxLine)).map fun x => delivery x.2,
        ⟨e.encode (packet e f), false⟩) := by
  have hrest := pushLines_rest he hf (n := maxLine - 3) (by omega) (text_ne_nil he)
    (List.nil_append _)
  -- a start marker clears the text: the first line is a continuation of nothing
  rw [wireLines]
  rw [chunks_cons (by omega) (text_ne_nil he)] at hrest ⊢
  rw [markLines, pushLines, pushLine_cont, if_pos rfl, List.nil_append] at hrest
  rw [markLines, pushLines, pushLine_start]
  generalize chunks (maxLine - 3) ((e.encode (packet e f)).drop (maxLine - 3)) = cs at hrest ⊢
  cases cs <;> exact hrest

/-- Frame after frame. -/
theorem pushLines_frames (he : e.Standard) (hmax : 16 ≤ maxLine) {fs : List Frame}
    (hfs : ∀ f ∈ fs, f.Representable) :
    (d.pushLines e (fs.flatMap (wireLines e · maxLine))).1 =
      (fs.flatMap fun f => completing f (wireLines e f maxLine)).map fun x => delivery x.2 := by
  induction fs generalizing d with
  | nil => rfl
  | cons f fs ih =>
    obtain ⟨hf, hfs⟩ := List.forall_mem_cons.mp hfs
    rw [List.flatMap_cons, pushLines_append, pushLines_frame he hf hmax, List.flatMap_cons,
      List.map_append, ih hfs]

/-- **Lines of the log change nothing**: what holds of the SMP lines alone holds with them
in between. -/
theorem pushLines_interleaved {arrivals : List (Bytes × Option Frame)}
    (hlog : ∀ x ∈ arrivals, isSmpLine x.1 = false → x.2 = none)
    (h : (d.pushLines e ((arrivals.filter (isSmpLine ·.1)).map Prod.fst)).1 =
      (arrivals.filter (isSmpLine ·.1)).map fun x => delivery x.2) :
    (d.pushLines e (arrivals.map Prod.fst)).1 = arrivals.map fun x => delivery x.2 := by
  induction arrivals generalizing d with
  | nil => rfl
  | cons x arrivals ih =>
    obtain ⟨hx, hlog⟩ := List.forall_mem_cons.mp hlog
    cases hsmp : isSmpLine x.1 with
    | false =>
      rw [List.filter_cons_of_neg (by simp [hsmp])] at h
      simp only [List.map_cons, pushLines, pushLine_log hsmp, hx hsmp, ih hlog h]
      rfl
    | true =>
      rw [List.filter_cons_of_pos (by simp [hsmp])] at h
      simp only [List.map_cons, pushLines, List.cons.injEq] at h ⊢
      exact ⟨h.1, ih hlog h.2⟩

end Decoder

/-- The lines of a frame as the encoder writes them, each with the frame it completes. -/
def arrivalsOf (e : Engine) (maxLine : Nat) (f : Frame) : List (Bytes × Option Frame) :=
  match encode e f maxLine with
  | .ok wire => completing f (LineStream.lines NEWLINE wire)
  | .error _ => []

theorem lines_encode (he : e.Standard) (hmax : 16 ≤ maxLine) :
    LineStream.lines NEWLINE (LineStream.terminated NEWLINE (wireLines e f maxLine)) =
      wireLines e f maxLine :=
  LineStream.lines_terminated (newline_notMem_wireLines he hmax)

theorem arrivalsOf_eq (he : e.Standard) (hmax : 16 ≤ maxLine) :
    arrivalsOf e maxLine f = completing f (wireLines e f maxLine) := by
  rw [arrivalsOf, encode_eq hmax]
  exact congrArg (completing f) (lines_encode he hmax)

/-- **Framing round trip on a live link.**  Every frame the format has room for is encoded
into lines that keep the limit and end in newlines; and at a decoder in any state, the
lines of frame after frame, with any lines of the log among them, give no error and one
body a frame, on its last line, which parses to the frame. -/
theorem round_trip (he : e.Standard) (hmax : 16 ≤ maxLine) {fs : List Frame}
    (hfs : ∀ f ∈ fs, f.Representable) (d : Decoder) {arrivals : List (Bytes × Option Frame)}
    (hsmp : arrivals.filter (isSmpLine ·.1) = fs.flatMap (arrivalsOf e maxLine))
    (hlog : ∀ x ∈ arrivals, isSmpLine x.1 = false → x.2 = none) :
    (∀ f ∈ fs, ∃ wire, encode e f maxLine = .ok wire ∧
      wire = LineStream.terminated NEWLINE (LineStream.lines NEWLINE wire) ∧
      ∀ line ∈ LineStream.lines NEWLINE wire, line.length + 1 ≤ maxLine) ∧
    (d.pushLines e (arrivals.map Prod.fst)).1 =
      arrivals.map (fun x => .ok (x.2.map Frame.body)) ∧
    ∀ f ∈ fs, Frame.parse f.body = .ok f := by
  refine ⟨fun f _ => ⟨_, encode_eq hmax, ?_, ?_⟩, Decoder.pushLines_interleaved hlog ?_,
    fun f hf => Frame.parse_body (hfs f hf)⟩
  · rw [lines_encode he hmax]
  · rw [lines_encode he hmax]
    exact length_wireLines he hmax
  · have harrivals : arrivalsOf e maxLine = fun f => completing f (wireLines e f maxLine) :=
      funext fun f => arrivalsOf_eq he hmax
    rw [hsmp, harrivals, ← Decoder.pushLines_frames (d := d) he hmax hfs, List.map_flatMap]
    simp only [map_fst_completing]

/-- A write to the os group. -/
def osWrite (seq : UInt8) : Frame :=
  { op := OP_WRITE, version := 1, flags := 0, group := GROUP_OS, seq, cmd := 0, payload := [0xa0] }

theorem representable_osWrite (seq : UInt8) : (osWrite seq).Representable where
  op := show OP_WRITE < 8 by decide
  version := show (1 : UInt8) < 4 by decide
  payload := show 1 ≤ 65525 by decide

/-- Two frames of two lines each, `b"hello"` between any two of them, and a decoder that
is in the middle of something. -/
theorem round_trip_busy :
    let arrivals := ([osWrite 1, osWrite 2].flatMap (arrivalsOf Engine.standard 16)).intersperse
      ([104, 101, 108, 108, 111], none)
    arrivals.length = 7 ∧
      ((⟨[65, 66, 67], true⟩ : Decoder).pushLines Engine.standard (arrivals.map Prod.fst)).1 =
        arrivals.map (fun x => .ok (x.2.map Frame.body)) := by
  have hfs : ∀ f ∈ [osWrite 1, osWrite 2], f.Representable := by
    simp only [List.forall_mem_cons]
    exact ⟨representable_osWrite 1, representable_osWrite 2, nofun⟩
  exact ⟨by decide +kernel, (round_trip Engine.standard_standard (Nat.le_refl 16) hfs _
    (by decide +kernel) (by decide +kernel)).2.1⟩

end Runtt
