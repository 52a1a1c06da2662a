import Runtt.RoundTrip

/-! # A corrupted character is never believed

One character of a frame's text is replaced.  Whatever bytes a decoder then makes of the
text, each of their bits outside the six of that character is the packet's.  So either
the length the decoder reads is not the one the header inside speaks of, and the parser
refuses; or it is, and then what the checksum covers differs from the frame by a burst of
at most six bits, which the checksum sees.
-/
namespace Runtt

open LineStream

variable {e : Engine} {f : Frame} {maxLine : Nat}

/-! ## The checksum -/

/-- A body with two bytes behind it passes the check exactly when the register is empty
after them. -/
theorem checksum_iff {body : Bytes} {c₁ c₂ : UInt8} :
    fromBeBytes c₁ c₂ = crc16Xmodem body ↔
      ShiftRegister.run 0x1021#16 (BitString.ofBytes (body ++ [c₁, c₂])) 0#16 = 0#16 := by
  rw [BitString.ofBytes_append, ShiftRegister.run_append,
    ShiftRegister.run_eq_zero_iff (by decide) (by simp), ← UInt16.toBitVec_inj]
  have hbit {i : Nat} (hi : i < 16) : (BitString.ofBytes [c₁, c₂]).getD i false =
      (fromBeBytes c₁ c₂).toBitVec.getMsbD i := by
    rw [List.getD_eq_getElem?_getD, getElem?_ofBytes_pair c₁ c₂ hi, Option.getD_some]
  constructor
  · intro h i hi
    rw [hbit hi, h]
    rfl
  · intro h
    apply BitVec.eq_of_getMsbD_eq
    intro i hi
    rw [← hbit hi, h i hi]
    rfl

/-- **Two messages with their checksums do not differ by a short burst.** -/
theorem eq_of_checked_burst {z z' : Bytes} {a : Nat} (hlen : z.length = z'.length)
    (hz : ShiftRegister.run 0x1021#16 (BitString.ofBytes z) 0#16 = 0#16)
    (hz' : ShiftRegister.run 0x1021#16 (BitString.ofBytes z') 0#16 = 0#16)
    (hout : ∀ j, j < a ∨ a + 6 ≤ j → (BitString.ofBytes z)[j]? = (BitString.ofBytes z')[j]?) :
    z = z' := by
  by_contra hne
  refine ShiftRegister.run_ne_of_window (g := 0x1021#16) (by decide) ?_ (by decide)
    (fun h => hne (BitString.ofBytes_injective h)) hout (hz.trans hz'.symm)
  rw [BitString.length_ofBytes, BitString.length_ofBytes, hlen]

/-! ## What a text with one character replaced decodes to -/

/-- `b` encodes to the start of the text of `p`, but for the character at `i`. -/
structure NearText (i : Nat) (b p : Bytes) : Prop where
  length : (Base64.encode b).length ≤ (Base64.encode p).length
  agree : ∀ k, k ≠ i → k < (Base64.encode b).length →
    (Base64.encode b)[k]? = (Base64.encode p)[k]?

namespace NearText
variable {i : Nat} {b p : Bytes}

theorem bit_eq (h : NearText i b p) {j : Nat} (hj : j < 8 * b.length) (hj' : j < 8 * p.length)
    (hne : j / 6 ≠ i) : (BitString.ofBytes b)[j]? = (BitString.ofBytes p)[j]? := by
  refine Base64.bit_eq_of_encode hj hj' (h.agree _ hne ?_)
  rw [Base64.length_encode]
  omega

theorem byte_eq (h : NearText i b p) {k : Nat} (hk : k < b.length) (hk' : k < p.length)
    (hne : ∀ j, j < 8 → (8 * k + j) / 6 ≠ i) : b[k]? = p[k]? :=
  BitString.getElem?_eq_of_bits hk hk' fun j hj => h.bit_eq (by omega) (by omega) (hne j hj)

/-- A byte of a list behind its first two. -/
theorem getD_tail {hi lo : UInt8} {rest : Bytes} {k : Nat} :
    rest.getD k 0 = ((hi :: lo :: rest)[k + 2]?).getD 0 := by
  rw [List.getElem?_cons_succ, List.getElem?_cons_succ, List.getD_eq_getElem?_getD]

/-- Behind the first two bytes, the bits outside the replaced character are the same. -/
theorem tail_bit_eq {hi lo hi₀ lo₀ : UInt8} {rest rest₀ : Bytes} {n : Nat}
    (h : NearText i (hi :: lo :: rest) (hi₀ :: lo₀ :: rest₀)) (hlen : n ≤ rest.length)
    (hlen₀ : n = rest₀.length) {j : Nat} (hj : j < 6 * i - 16 ∨ 6 * i - 16 + 6 ≤ j) :
    (BitString.ofBytes (rest.take n))[j]? = (BitString.ofBytes rest₀)[j]? := by
  by_cases hin : j < 8 * rest₀.length
  · have htake : (BitString.ofBytes (rest.take n))[j]? = (BitString.ofBytes rest)[j]? := by
      rw [BitString.getElem?_ofBytes, BitString.getElem?_ofBytes,
        List.getElem?_take_of_lt (by omega)]
    rw [htake, BitString.getElem?_ofBytes_tail hi lo rest,
      BitString.getElem?_ofBytes_tail hi₀ lo₀ rest₀]
    refine h.bit_eq ?_ ?_ ?_
    · simp only [List.length_cons]
      omega
    · simp only [List.length_cons]
      omega
    · omega
  · have hshort : (rest.take n).length ≤ rest₀.length := by
      rw [List.length_take]
      omega
    rw [List.getElem?_eq_none (by rw [BitString.length_ofBytes]; omega),
      List.getElem?_eq_none (by rw [BitString.length_ofBytes]; omega)]

/-- **Only the frame itself comes out.**  A body with its checksum that a decoder finds in
such bytes and that parses is the frame's own. -/
theorem body_eq {hi lo c₁ c₂ : UInt8} {rest body : Bytes} {f' : Frame} (hf : f.Representable)
    (he : e.Standard) (h : NearText i (hi :: lo :: rest) (packet e f))
    (hlen : (fromBeBytes hi lo).toNat ≤ rest.length)
    (hbody : rest.take (fromBeBytes hi lo).toNat = body ++ [c₁, c₂])
    (hcrc : fromBeBytes c₁ c₂ = e.checksum body) (hparse : Frame.parse body = .ok f') :
    body = f.body := by
  obtain ⟨hi₀, lo₀, rest₀, hp, hlen₀, hrest₀⟩ := packet_eq (e := e) hf
  rw [hp] at h
  obtain ⟨hpos, hsize⟩ := Frame.length_of_parse hparse
  obtain ⟨hpos₀, hsize₀⟩ := Frame.length_of_parse (Frame.parse_body hf)
  have hbodylen : body.length + 2 = (fromBeBytes hi lo).toNat := by
    have := congrArg List.length hbody
    rw [List.length_take, Nat.min_eq_left hlen, List.length_append] at this
    exact this.symm
  have hrestlen₀ : rest₀.length = f.body.length + 2 := by
    rw [hrest₀, List.length_append]
    rfl
  -- a byte of the body is one of the packet's bytes
  have hbyte {k : Nat} (hk : k < body.length) :
      body.getD k 0 = ((hi :: lo :: rest)[k + 2]?).getD 0 := by
    rw [← getD_tail, ← List.getD_append _ [c₁, c₂] _ _ hk, ← hbody,
      List.getD_eq_getElem?_getD, List.getElem?_take_of_lt (by omega), ← List.getD_eq_getElem?_getD]
  have hbyte₀ {k : Nat} (hk : k < f.body.length) :
      f.body.getD k 0 = ((hi₀ :: lo₀ :: rest₀)[k + 2]?).getD 0 := by
    rw [← getD_tail, hrest₀, List.getD_append _ _ _ _ hk]
  -- the two lengths are the same: read from the prefix, or spoken of by the header inside
  have hsame : (fromBeBytes hi lo).toNat = (fromBeBytes hi₀ lo₀).toNat := by
    by_cases hi3 : i < 3
    · have hheader {k : Nat} (hk : k = 2 ∨ k = 3) : body.getD k 0 = f.body.getD k 0 := by
        rw [hbyte (by omega), hbyte₀ (by omega), h.byte_eq (by simp; omega) (by simp; omega)]
        omega
      rw [hheader (.inl rfl), hheader (.inr rfl)] at hsize
      omega
    · have hhead {k : Nat} (hk : k < 2) :
          (hi :: lo :: rest)[k]? = (hi₀ :: lo₀ :: rest₀)[k]? :=
        h.byte_eq (by simp; omega) (by simp; omega) (by omega)
      have hhi := hhead (k := 0) (by decide)
      have hlo := hhead (k := 1) (by decide)
      simp only [List.getElem?_cons_zero, List.getElem?_cons_succ, Option.some.injEq] at hhi hlo
      rw [hhi, hlo]
  have hcover : (body ++ [c₁, c₂]).length = rest₀.length := by
    rw [List.length_append]
    exact hbodylen.trans (hsame.trans hlen₀)
  -- outside the replaced character the covered bits are the packet's
  have hout (j : Nat) (hj : j < 6 * i - 16 ∨ 6 * i - 16 + 6 ≤ j) :
      (BitString.ofBytes (body ++ [c₁, c₂]))[j]? = (BitString.ofBytes rest₀)[j]? := by
    rw [← hbody]
    exact h.tail_bit_eq hlen (hsame.trans hlen₀) hj
  have hchecked : ShiftRegister.run 0x1021#16 (BitString.ofBytes (body ++ [c₁, c₂])) 0#16 = 0#16 :=
    checksum_iff.mp (hcrc.trans (he.checksum body))
  have hchecked₀ : ShiftRegister.run 0x1021#16 (BitString.ofBytes rest₀) 0#16 = 0#16 := by
    rw [hrest₀]
    exact checksum_iff.mp ((fromBeBytes_toBeBytes _).trans (he.checksum f.body))
  have hall := eq_of_checked_burst hcover hchecked hchecked₀ hout
  rw [hrest₀] at hall
  exact (List.append_inj hall (by omega)).1

end NearText

/-! ## The lines with one character replaced -/

/-- Replacing a character behind the marker of a line replaces one of the text. -/
theorem markLines_replace {n : Nat} (hn : 0 < n) {marker : Bytes} (hmarker : marker.length = 2)
    {t head tail : Bytes} {before after : List Bytes} {c b : UInt8} (hhead : 2 ≤ head.length)
    (h : markLines marker (chunks n t) = before ++ (head ++ c :: tail) :: after) :
    ∃ t₁ t₂, t = t₁ ++ c :: t₂ ∧
      before ++ (head ++ b :: tail) :: after = markLines marker (chunks n (t₁ ++ b :: t₂)) := by
  induction t using chunks_induction hn generalizing marker before with
  | nil => simp [markLines] at h
  | cons t ht ih =>
    rw [chunks_cons hn ht, markLines] at h
    cases before with
    | nil =>
      -- the first line: its chunk changes, and is as long as before
      obtain ⟨hline, rfl⟩ := List.cons.inj h
      obtain ⟨as, rfl, hchunk⟩ : ∃ as, head = marker ++ as ∧ t.take n = as ++ c :: tail := by
        refine ⟨head.drop 2, ?_, ?_⟩
        · have := congrArg (List.take 2) hline
          rw [← hmarker, List.take_left, hmarker, List.take_append_of_le_length hhead] at this
          rw [this, List.take_append_drop]
        · have := congrArg (List.drop 2) hline
          rwa [← hmarker, List.drop_left, hmarker, List.drop_append_of_le_length hhead] at this
      have hwhole (b : UInt8) : as ++ b :: (tail ++ t.drop n) = (as ++ b :: tail) ++ t.drop n := by
        simp
      refine ⟨as, tail ++ t.drop n, ?_, ?_⟩
      · rw [hwhole, ← hchunk, List.take_append_drop]
      · have hfit := take_fits n t
        rw [hchunk, List.length_append, List.length_cons, ← List.length_cons (a := b),
          ← List.length_append] at hfit
        rw [hwhole, chunks_append hn (by simp) hfit, markLines, List.append_assoc]
        rfl
    | cons line before =>
      replace h := List.cons.inj h
      obtain ⟨rfl, h⟩ := h
      obtain ⟨t₁, t₂, hrest, hlines⟩ := ih rfl h
      have hfit : (t.take n).length = n := by
        apply (take_fits n t).resolve_right
        intro hlast
        rw [hlast.2] at hrest
        simp at hrest
      refine ⟨t.take n ++ t₁, t₂, ?_, ?_⟩
      · rw [List.append_assoc, ← hrest, List.take_append_drop]
      · rw [List.append_assoc, chunks_append hn (List.length_pos_iff.mp (by omega)) (.inl hfit),
          markLines, ← hlines]
        rfl

/-! ## What the decoder makes of them -/

/-- The frames that reach the server: the bodies returned, as far as they parse. -/
def frames (results : List (Except Error (Option Bytes))) : List Frame :=
  results.filterMap fun
    | .ok (some body) => (Frame.parse body).toOption
    | _ => none

theorem frames_cons {r : Except Error (Option Bytes)} {rs : List (Except Error (Option Bytes))} :
    frames (r :: rs) = frames [r] ++ frames rs :=
  List.filterMap_append (l := [r])

namespace Decoder

/-- Outside a packet, continuation lines are dropped. -/
theorem frames_pushLines_outside {acc : Bytes} {cs : List Bytes} :
    frames (pushLines e ⟨acc, false⟩ (markLines MARKER_CONT cs)).1 = [] := by
  induction cs with
  | nil => rfl
  | cons c cs ih =>
    rw [markLines, pushLines, pushLine_cont, if_neg Bool.false_ne_true]
    exact ih

/-- **Where no text on the way gives another frame, the frame comes out at most once and
nothing else does.** -/
theorem frames_pushLines {n : Nat} (hn : 0 < n) {rest done : Bytes}
    (h : ∀ k r d', complete e ⟨(done ++ rest).take k, true⟩ = (r, d') →
      frames [r] = [] ∨ frames [r] = [f]) :
    frames (pushLines e ⟨done, true⟩ (markLines MARKER_CONT (chunks n rest))).1 = [] ∨
      frames (pushLines e ⟨done, true⟩ (markLines MARKER_CONT (chunks n rest))).1 = [f] := by
  induction rest using chunks_induction hn generalizing done with
  | nil => exact .inl rfl
  | cons rest hrest ih =>
    rw [chunks_cons hn hrest, markLines, pushLines, pushLine_cont, if_pos rfl]
    obtain ⟨r, d', hr⟩ : ∃ r d', complete e ⟨done ++ rest.take n, true⟩ = (r, d') := ⟨_, _, rfl⟩
    simp only [hr]
    have hsplit : done ++ rest = done ++ rest.take n ++ rest.drop n := by
      rw [List.append_assoc, List.take_append_drop]
    rcases complete_cases hr with ⟨rfl, rfl⟩ | ⟨hi, lo, b, -, -, rfl, -⟩
    · -- waiting for more
      exact ih fun k r d' hk => h k r d' (by rwa [hsplit])
    · -- the packet is over, one way or the other
      have hover : frames (pushLines e ⟨done ++ rest.take n, false⟩
          (markLines MARKER_CONT (chunks n (rest.drop n)))).1 = [] := frames_pushLines_outside
      rw [frames_cons, hover, List.append_nil]
      exact h (done ++ rest.take n).length r _ (by rw [hsplit, List.take_left]; exact hr)

/-- **No text with one character replaced gives another frame.** -/
theorem complete_near (he : e.Standard) (hf : f.Representable) {t₁ t₂ : Bytes} {c b : UInt8}
    (htext : e.encode (packet e f) = t₁ ++ c :: t₂) {k : Nat} {r : Except Error (Option Bytes)}
    {d' : Decoder} (h : complete e ⟨(t₁ ++ b :: t₂).take k, true⟩ = (r, d')) :
    frames [r] = [] ∨ frames [r] = [f] := by
  rcases complete_cases h with
    ⟨rfl, -⟩ | ⟨hi, lo, rest, hdec, hlen, -, ⟨err, rfl⟩ | ⟨body, c₁, c₂, rfl, hbody, hcrc⟩⟩
  · exact .inl rfl
  · exact .inl rfl
  rw [he.decode] at hdec
  rw [he.encode] at htext
  have hnear : NearText t₁.length (hi :: lo :: rest) (packet e f) := by
    constructor
    · rw [hdec, htext, List.length_take, List.length_append, List.length_append, List.length_cons,
        List.length_cons]
      omega
    · intro j hne hj
      rw [hdec, List.length_take] at hj
      rw [hdec, htext, List.getElem?_take_of_lt (by omega)]
      rcases Nat.lt_or_gt_of_ne hne with hlt | hgt
      · rw [List.getElem?_append_left hlt, List.getElem?_append_left hlt]
      · obtain ⟨m, rfl⟩ := Nat.exists_eq_add_of_lt hgt
        rw [List.getElem?_append_right (by omega), List.getElem?_append_right (by omega)]
        have hsub : t₁.length + m + 1 - t₁.length = m + 1 := by omega
        rw [hsub, List.getElem?_cons_succ, List.getElem?_cons_succ]
  cases hparse : Frame.parse body with
  | error err => exact .inl (by simp [frames, hparse, Except.toOption])
  | ok f' =>
    have hsame := hnear.body_eq hf he hlen hbody hcrc hparse
    rw [hsame, Frame.parse_body hf] at hparse
    exact .inr (by simp [frames, hsame, Frame.parse_body hf, Except.toOption])

/-- The frame a good transmission delivers. -/
theorem frames_pushLines_frame {d : Decoder} (he : e.Standard) (hf : f.Representable)
    (hmax : 16 ≤ maxLine) : frames (d.pushLines e (wireLines e f maxLine)).1 = [f] := by
  rw [pushLines_frame he hf hmax]
  have hne : wireLines e f maxLine ≠ [] := by
    rw [wireLines, chunks_cons (by omega) (text_ne_nil he)]
    exact List.cons_ne_nil _ _
  generalize wireLines e f maxLine = ls at hne
  induction ls with
  | nil => exact absurd rfl hne
  | cons line ls ih =>
    cases ls with
    | nil => simp [completing, delivery, frames, Frame.parse_body hf, Except.toOption]
    | cons line' ls => exact ih (List.cons_ne_nil _ _)

end Decoder

/-- **A corrupted character is never believed.**  At a decoder in any state, the stream of
a frame with one base64 character replaced by any byte but a newline brings that frame or
none, and an uncorrupted frame sent afterwards is delivered. -/
theorem corrupted_never_believed (he : e.Standard) (hmax : 16 ≤ maxLine) (hf : f.Representable)
    {wire pre post : Bytes} {c b : UInt8} (hwire : encode e f maxLine = .ok wire)
    (hsplit : wire = pre ++ c :: post) (hc : c ≠ NEWLINE) (htext : 2 ≤ (openLine NEWLINE pre).length)
    (hb : b ≠ NEWLINE) (d : Decoder) :
    (frames (d.pushLines e (lines NEWLINE (pre ++ b :: post))).1 = [] ∨
      frames (d.pushLines e (lines NEWLINE (pre ++ b :: post))).1 = [f]) ∧
    ∀ g, g.Representable → ∀ maxLine', 16 ≤ maxLine' → ∀ wire', encode e g maxLine' = .ok wire' →
      frames ((d.pushLines e (lines NEWLINE (pre ++ b :: post))).2.pushLines e
        (lines NEWLINE wire')).1 = [g] := by
  rw [encode_eq hmax] at hwire
  cases hwire
  have hnl := newline_notMem_wireLines (f := f) he hmax
  obtain ⟨before, head, tail, after, hlines, rfl, rfl, hopen⟩ := mem_line_of_split hnl hc hsplit
  rw [hopen] at htext
  have hstream : lines NEWLINE (terminated NEWLINE before ++ head ++
      b :: (tail ++ NEWLINE :: terminated NEWLINE after)) =
        before ++ (head ++ b :: tail) :: after := by
    have hterm : terminated NEWLINE before ++ head ++
        b :: (tail ++ NEWLINE :: terminated NEWLINE after) =
          terminated NEWLINE (before ++ (head ++ b :: tail) :: after) := by
      simp [terminated]
    rw [hterm]
    apply lines_terminated
    intro line hline
    rw [hlines] at hnl
    simp only [List.mem_append, List.mem_cons] at hline
    rcases hline with hline | rfl | hline
    · exact hnl line (by simp [hline])
    · have hold := hnl (head ++ c :: tail) (by simp)
      simp only [List.mem_append, List.mem_cons, not_or] at hold ⊢
      exact ⟨hold.1, hb.symm, hold.2.2⟩
    · exact hnl line (by simp [hline])
  obtain ⟨t₁, t₂, ht, hcorrupted⟩ := markLines_replace (n := maxLine - 3) (by omega) rfl
    (b := b) htext hlines
  rw [hstream, hcorrupted]
  constructor
  · have hnear (k : Nat) (r : Except Error (Option Bytes)) (d' : Decoder)
        (h : Decoder.complete e ⟨([] ++ (t₁ ++ b :: t₂)).take k, true⟩ = (r, d')) :
        frames [r] = [] ∨ frames [r] = [f] := Decoder.complete_near he hf ht h
    have hrest := Decoder.frames_pushLines (n := maxLine - 3) (by omega) hnear
    -- the first line is a continuation of nothing
    rw [chunks_cons (by omega) (by simp)] at hrest ⊢
    rw [markLines, Decoder.pushLines, Decoder.pushLine_cont, if_pos rfl, List.nil_append] at hrest
    rwa [markLines, Decoder.pushLines, Decoder.pushLine_start]
  · intro g hg maxLine' hmax' wire' hwire'
    rw [encode_eq hmax'] at hwire'
    cases hwire'
    rw [lines_encode he hmax']
    exact Decoder.frames_pushLines_frame he hg hmax'

/-- A character of the header's text becomes an `A`, and the frame after it comes
through. -/
theorem corrupted_never_believed_header :
    let wire := terminated NEWLINE (wireLines Engine.standard (osWrite 1) 127)
    let bad := lines NEWLINE (wire.take 9 ++ 65 :: wire.drop 10)
    bad ≠ lines NEWLINE wire ∧
    (frames (Decoder.new.pushLines Engine.standard bad).1 = [] ∨
      frames (Decoder.new.pushLines Engine.standard bad).1 = [osWrite 1]) ∧
    frames ((Decoder.new.pushLines Engine.standard bad).2.pushLines Engine.standard
      (lines NEWLINE (terminated NEWLINE (wireLines Engine.standard (osWrite 2) 127)))).1 =
        [osWrite 2] := by
  intro wire bad
  have hsplit : wire = wire.take 9 ++ wire.getD 9 0 :: wire.drop 10 := by decide +kernel
  obtain ⟨hbad, hlater⟩ := corrupted_never_believed (b := 65) Engine.standard_standard (by decide)
    (representable_osWrite 1) (encode_eq (by decide)) hsplit (by decide +kernel)
    (by decide +kernel) (by decide) Decoder.new
  exact ⟨by decide +kernel, hbad, hlater _ (representable_osWrite 2) 127 (by decide) _
    (encode_eq (by decide))⟩

end Runtt
