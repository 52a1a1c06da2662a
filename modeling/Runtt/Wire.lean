import Runtt.Base64
import Runtt.Codec
import Runtt.LineStream
import Runtt.ShiftRegister

/-! # Packets on the wire

What the framing relies on from its two crates, `Engine.Standard`, and what follows for
every frame that can be represented: the packet says how long it is, its text is cut into
lines the encoder's limit allows, and no text that is not yet the whole packet completes
one.
-/
namespace Runtt

/-- CRC-16/XMODEM: polynomial 0x1021, register 0 at the start, nothing reflected and no
final xor. -/
def crc16Xmodem (b : Bytes) : UInt16 :=
  ⟨ShiftRegister.run 0x1021#16 (BitString.ofBytes b) 0#16⟩

/-- The check value of the catalogue, for `b"123456789"`. -/
example : crc16Xmodem [49, 50, 51, 52, 53, 54, 55, 56, 57] = 0x31c3 := by decide +kernel

/-- What the crates document: `STANDARD` is the standard alphabet with canonical padding,
required when decoding and without trailing bits, and the checksum is CRC-16/XMODEM. -/
structure Engine.Standard (e : Engine) : Prop where
  encode : ∀ b, e.encode b = Base64.encode b
  decode : ∀ t b, e.decode t = some b ↔ Base64.encode b = t
  checksum : ∀ b, e.checksum b = crc16Xmodem b

/-- The two crates, as their documentation has them. -/
def Engine.standard : Engine := ⟨Base64.encode, Base64.decode, crc16Xmodem⟩

theorem Engine.standard_standard : Engine.standard.Standard :=
  ⟨fun _ => rfl, fun _ _ => Base64.decode_eq_some_iff, fun _ => rfl⟩

/-! ## Two bytes and a `u16` -/

theorem fromBeBytes_toBeBytes (n : UInt16) : fromBeBytes (n >>> 8).toUInt8 n.toUInt8 = n := by
  refine UInt16.toBitVec_inj.mp (BitVec.eq_of_getLsbD_eq ?_)
  intro i hi
  simp only [fromBeBytes, UInt16.toBitVec_or, UInt16.toBitVec_shiftLeft, UInt8.toBitVec_toUInt16,
    UInt16.toBitVec_toUInt8, UInt16.toBitVec_shiftRight]
  interval_cases i <;> simp

theorem getElem?_ofBytes_pair (hi lo : UInt8) {i : Nat} (h : i < 16) :
    (BitString.ofBytes [hi, lo])[i]? = some ((fromBeBytes hi lo).toBitVec.getMsbD i) := by
  rw [BitString.getElem?_ofBytes]
  simp only [fromBeBytes, UInt16.toBitVec_or, UInt16.toBitVec_shiftLeft, UInt8.toBitVec_toUInt16]
  interval_cases i <;> simp [BitVec.getMsbD]

theorem toNat_ofNat_of_lt {n : Nat} (h : n < 2 ^ 16) : (UInt16.ofNat n).toNat = n := by
  rw [UInt16.toNat_ofNat', Nat.mod_eq_of_lt h]

/-! ## Frames -/

namespace Frame
variable {f : Frame}

/-- The frames the format has room for. -/
structure Representable (f : Frame) : Prop where
  op : f.op < 8
  version : f.version < 4
  payload : f.payload.length ≤ 65525

@[simp] theorem length_headerBytes : f.headerBytes.length = 8 := rfl

@[simp] theorem length_body : f.body.length = 8 + f.payload.length := by
  rw [body, List.length_append, length_headerBytes]

/-- Byte 0 holds `op` and `version`, and gives both back. -/
theorem byte0_fields {op version : UInt8} (hop : op < 8) (hversion : version < 4) :
    let b := (op &&& (0x07 : UInt8)) ||| ((version &&& (0x03 : UInt8)) <<< (3 : UInt8))
    b &&& 0x07 = op ∧ (b >>> 3) &&& 0x03 = version := by
  have hop' : op.toNat < 8 := hop
  have hversion' : version.toNat < 4 := hversion
  obtain ⟨k, hk, rfl⟩ : ∃ k < 8, op = UInt8.ofNat k := ⟨op.toNat, hop', by simp⟩
  obtain ⟨m, hm, rfl⟩ : ∃ m < 4, version = UInt8.ofNat m := ⟨version.toNat, hversion', by simp⟩
  interval_cases k <;> interval_cases m <;> decide

theorem fromBeBytes_masked (n : UInt16) :
    fromBeBytes (n >>> 8).toUInt8 (n &&& 0xff).toUInt8 = n := by
  have hmask : (n &&& 0xff).toUInt8 = n.toUInt8 := by
    refine UInt8.toBitVec_inj.mp (BitVec.eq_of_getLsbD_eq ?_)
    intro i hi
    simp only [UInt16.toBitVec_toUInt8, UInt16.toBitVec_and]
    interval_cases i <;> simp
  rw [hmask, fromBeBytes_toBeBytes]

/-- **Parsing undoes framing.** -/
theorem parse_body (h : f.Representable) : parse f.body = .ok f := by
  have hlen : f.payload.length = f.declaredLen.toNat := by
    rw [declaredLen, toNat_ofNat_of_lt (by have := h.payload; omega)]
  obtain ⟨hop, hversion⟩ := byte0_fields h.op h.version
  simp only [body, headerBytes, List.cons_append, List.nil_append, parse, hop, hversion,
    fromBeBytes_masked]
  rw [if_neg (fun hne => hne hlen)]

/-- A body that parses is as long as its bytes 2 and 3 say. -/
theorem length_of_parse {b : Bytes} (h : parse b = .ok f) :
    8 ≤ b.length ∧ b.length = 8 + (fromBeBytes (b.getD 2 0) (b.getD 3 0)).toNat := by
  unfold parse at h
  split at h
  · simp only at h
    split at h
    · cases h
    · rename_i hlen
      simp only [List.length_cons, List.getD_cons_succ, List.getD_cons_zero]
      omega
  · cases h

end Frame

/-! ## Packets -/

section Packet
variable {e : Engine} {f : Frame}

@[simp] theorem length_packet : (packet e f).length = f.body.length + 4 := by
  simp [packet, toBeBytes]

/-- A packet's first two bytes say how many more there are. -/
theorem packet_eq (h : f.Representable) : ∃ hi lo rest, packet e f = hi :: lo :: rest ∧
    (fromBeBytes hi lo).toNat = rest.length ∧ rest = f.body ++ toBeBytes (e.checksum f.body) := by
  refine ⟨_, _, _, rfl, ?_, rfl⟩
  have := h.payload
  rw [fromBeBytes_toBeBytes, toNat_ofNat_of_lt (by rw [Frame.length_body]; omega)]
  simp [toBeBytes]

end Packet

/-! ## Lines -/

theorem chunks_go {n fuel : Nat} {l : Bytes} (hn : 0 < n) (hfuel : l.length ≤ fuel) :
    chunks.go n fuel l = chunks.go n l.length l := by
  induction fuel using Nat.strongRecOn generalizing l with
  | ind fuel ih =>
    cases fuel with
    | zero =>
      cases List.eq_nil_of_length_eq_zero (Nat.le_zero.mp hfuel)
      rfl
    | succ fuel =>
      cases l with
      | nil => rfl
      | cons b l =>
        simp only [List.length_cons] at hfuel ⊢
        have hdrop : ((b :: l).drop n).length ≤ l.length := by
          simp only [List.length_drop, List.length_cons]
          omega
        simp only [chunks.go, reduceCtorEq, if_false]
        rw [ih fuel (Nat.lt_succ_self _) (by omega)]
        rcases Nat.lt_or_eq_of_le (show l.length ≤ fuel by omega) with hlt | heq
        · rw [ih l.length (by omega) hdrop]
        · rw [heq, ih fuel (Nat.lt_succ_self _) (by omega)]

/-- One chunk, and the chunks of the rest. -/
theorem chunks_cons {n : Nat} {l : Bytes} (hn : 0 < n) (hl : l ≠ []) :
    chunks n l = l.take n :: chunks n (l.drop n) := by
  cases l with
  | nil => exact absurd rfl hl
  | cons b l =>
    have hdrop : ((b :: l).drop n).length ≤ l.length := by
      simp only [List.length_drop, List.length_cons]
      omega
    rw [chunks, List.length_cons, chunks.go, if_neg hl, chunks_go hn hdrop, ← chunks]

@[simp] theorem chunks_nil {n : Nat} : chunks n [] = [] := rfl

/-- A chunk of its own in front of the rest: `n` bytes, or the last ones. -/
theorem chunks_append {n : Nat} (hn : 0 < n) {chunk rest : Bytes} (hne : chunk ≠ [])
    (hfit : chunk.length = n ∨ chunk.length ≤ n ∧ rest = []) :
    chunks n (chunk ++ rest) = chunk :: chunks n rest := by
  rw [chunks_cons hn (List.append_ne_nil_of_left_ne_nil hne rest)]
  rcases hfit with rfl | ⟨hle, rfl⟩
  · rw [List.take_left, List.drop_left]
  · rw [List.append_nil, List.take_of_length_le hle, List.drop_of_length_le hle]

theorem take_fits (n : Nat) (t : Bytes) :
    (t.take n).length = n ∨ (t.take n).length ≤ n ∧ t.drop n = [] := by
  rw [List.length_take, List.drop_eq_nil_iff]
  omega

/-- What holds of the empty text, and of a text where it holds behind the first chunk,
holds of every text. -/
theorem chunks_induction {n : Nat} (hn : 0 < n) {motive : Bytes → Prop} (nil : motive [])
    (cons : ∀ l, l ≠ [] → motive (l.drop n) → motive l) (l : Bytes) : motive l := by
  induction hlen : l.length using Nat.strongRecOn generalizing l with
  | ind k ih =>
    cases l with
    | nil => exact nil
    | cons b l =>
      refine cons _ nofun (ih _ ?_ _ rfl)
      subst hlen
      simp only [List.length_drop, List.length_cons]
      omega

theorem mem_chunks {n : Nat} (hn : 0 < n) {l c : Bytes} (h : c ∈ chunks n l) :
    c.length ≤ n ∧ ∀ b ∈ c, b ∈ l := by
  induction l using chunks_induction hn with
  | nil => cases h
  | cons l hl ih =>
    rw [chunks_cons hn hl] at h
    rcases List.mem_cons.mp h with rfl | h
    · exact ⟨List.length_take_le n l, fun b => List.mem_of_mem_take⟩
    · exact ⟨(ih h).1, fun b hb => List.mem_of_mem_drop ((ih h).2 b hb)⟩

/-- A line is a marker and a chunk. -/
theorem mem_markLines {marker line : Bytes} {cs : List Bytes} (h : line ∈ markLines marker cs) :
    ∃ c ∈ cs, line = marker ++ c ∨ line = MARKER_CONT ++ c := by
  induction cs generalizing marker with
  | nil => cases h
  | cons c cs ih =>
    rcases List.mem_cons.mp h with rfl | h
    · exact ⟨c, List.mem_cons_self, .inl rfl⟩
    · obtain ⟨c', hc, hline⟩ := ih h
      exact ⟨c', List.mem_cons_of_mem c hc, .inr (or_self_iff.mp hline)⟩

section Lines
variable {e : Engine} {f : Frame} {maxLine : Nat}

/-- The lines of a frame, without their newlines. -/
def wireLines (e : Engine) (f : Frame) (maxLine : Nat) : List Bytes :=
  markLines MARKER_START (chunks (maxLine - 3) (e.encode (packet e f)))

theorem encode_eq (hmax : 16 ≤ maxLine) :
    encode e f maxLine = .ok (LineStream.terminated NEWLINE (wireLines e f maxLine)) := by
  rw [encode, if_neg (Nat.not_lt.mpr hmax)]
  rfl

theorem newline_notMem_text (he : e.Standard) (b : Bytes) : NEWLINE ∉ e.encode b := by
  intro h
  rw [he.encode] at h
  rcases Base64.mem_encode h with h | h
  · exact h (by decide)
  · cases h

/-- What a line of a frame consists of. -/
theorem mem_wireLines (he : e.Standard) (hmax : 16 ≤ maxLine) {line : Bytes}
    (h : line ∈ wireLines e f maxLine) : ∃ marker c, line = marker ++ c ∧
      (marker = MARKER_START ∨ marker = MARKER_CONT) ∧ c.length ≤ maxLine - 3 ∧ NEWLINE ∉ c := by
  obtain ⟨c, hc, hline⟩ := mem_markLines h
  obtain ⟨hlen, hmem⟩ := mem_chunks (by omega) hc
  have hnl : NEWLINE ∉ c := fun hn => newline_notMem_text he _ (hmem _ hn)
  rcases hline with rfl | rfl
  · exact ⟨_, c, rfl, .inl rfl, hlen, hnl⟩
  · exact ⟨_, c, rfl, .inr rfl, hlen, hnl⟩

theorem newline_notMem_wireLines (he : e.Standard) (hmax : 16 ≤ maxLine) :
    ∀ line ∈ wireLines e f maxLine, NEWLINE ∉ line := by
  intro line hline
  obtain ⟨marker, c, rfl, rfl | rfl, -, hnl⟩ := mem_wireLines he hmax hline
  all_goals
    intro h
    exact (List.mem_append.mp h).elim (by decide) hnl

/-- **Every line keeps the limit**, its newline included. -/
theorem length_wireLines (he : e.Standard) (hmax : 16 ≤ maxLine) :
    ∀ line ∈ wireLines e f maxLine, line.length + 1 ≤ maxLine := by
  intro line hline
  obtain ⟨marker, c, rfl, rfl | rfl, hlen, -⟩ := mem_wireLines he hmax hline
  all_goals
    simp only [List.length_append, MARKER_START, MARKER_CONT, List.length_cons, List.length_nil]
    omega

end Lines

/-! ## The decoder -/

namespace Decoder
variable {e : Engine} {d : Decoder} {f : Frame}

theorem pushLine_start {c : Bytes} : d.pushLine e (MARKER_START ++ c) = complete e ⟨c, true⟩ := rfl

theorem pushLine_cont {c : Bytes} : d.pushLine e (MARKER_CONT ++ c) =
    if d.inPacket then complete e ⟨d.acc ++ c, true⟩ else (.ok none, d) := by
  obtain ⟨acc, inPacket⟩ := d
  cases inPacket <;> rfl

/-- A line of the log is passed over. -/
theorem pushLine_log {line : Bytes} (h : isSmpLine line = false) :
    d.pushLine e line = (.ok none, d) := by
  unfold pushLine
  split
  · rename_i m₀ m₁ rest
    rw [isSmpLine, Bool.or_eq_false_iff] at h
    have hstart : [m₀, m₁] ≠ MARKER_START := beq_eq_false_iff_ne.mp h.1
    have hcont : [m₀, m₁] ≠ MARKER_CONT := beq_eq_false_iff_ne.mp h.2
    rw [if_neg hstart, if_neg hcont]
  · rfl

/-- A text that decodes to too little is waited on. -/
theorem complete_short {acc b : Bytes} (hdec : e.decode acc = some b)
    (h : ∀ hi lo rest, b = hi :: lo :: rest → rest.length < (fromBeBytes hi lo).toNat) :
    complete e ⟨acc, true⟩ = (.ok none, ⟨acc, true⟩) := by
  unfold complete
  simp only [hdec]
  split
  · rename_i hb
    cases hb
  · rename_i hi lo rest hb
    cases hb
    rw [if_pos (h hi lo rest rfl)]
  · rfl

theorem complete_undecodable {acc : Bytes} (hdec : e.decode acc = none) :
    complete e ⟨acc, true⟩ = (.ok none, ⟨acc, true⟩) := by
  unfold complete
  simp only [hdec]

/-- **Part of a packet is waited on.**  Cut anywhere, its text does not decode, or to
fewer bytes than the packet says it has. -/
theorem complete_part (he : e.Standard) (hf : f.Representable) {k : Nat}
    (hk : k < (e.encode (packet e f)).length) :
    complete e ⟨(e.encode (packet e f)).take k, true⟩ =
      (.ok none, ⟨(e.encode (packet e f)).take k, true⟩) := by
  cases hdec : e.decode ((e.encode (packet e f)).take k) with
  | none => exact complete_undecodable hdec
  | some b =>
    refine complete_short hdec ?_
    rintro hi lo rest rfl
    rw [he.decode, he.encode] at hdec
    rw [he.encode] at hk
    obtain ⟨hi', lo', rest', hp, hlen, -⟩ := packet_eq (e := e) hf
    rw [hp] at hdec hk
    have hk' : (Base64.encode (hi :: lo :: rest)).length = k := by
      rw [hdec, List.length_take, Nat.min_eq_left (Nat.le_of_lt hk)]
    have hshort := Base64.length_lt_of_encode (hk'.trans_lt hk)
    have hsize := Base64.length_encode (hi :: lo :: rest)
    simp only [List.length_cons] at hshort hsize
    -- the first three characters are those of the whole text, and so are two bytes
    have hhead : (hi :: lo :: rest).take 2 = (hi' :: lo' :: rest').take 2 := by
      apply Base64.take_eq_of_encode (by simp) (by simp)
      intro i hi
      rw [hdec, List.getElem?_take_of_lt (by omega)]
    obtain ⟨rfl, hlo⟩ := List.cons.inj hhead
    obtain ⟨rfl, -⟩ := List.cons.inj hlo
    omega

theorem getD_checksum (body : Bytes) (c₁ c₂ : UInt8) :
    (body ++ [c₁, c₂]).getD body.length 0 = c₁ ∧
      (body ++ [c₁, c₂]).getD (body.length + 1) 0 = c₂ := by
  constructor
  · rw [List.getD_append_right _ _ _ _ (Nat.le_refl _), Nat.sub_self]
    rfl
  · rw [List.getD_append_right _ _ _ _ (Nat.le_add_right _ 1), Nat.add_sub_cancel_left]
    rfl

/-- A text that decodes to a body with its checksum completes the packet. -/
theorem complete_body {acc body rest : Bytes} {hi lo c₁ c₂ : UInt8}
    (hdec : e.decode acc = some (hi :: lo :: rest))
    (hlen : (fromBeBytes hi lo).toNat ≤ rest.length)
    (hrest : rest.take (fromBeBytes hi lo).toNat = body ++ [c₁, c₂])
    (hcrc : fromBeBytes c₁ c₂ = e.checksum body) :
    complete e ⟨acc, true⟩ = (.ok (some body), ⟨acc, false⟩) := by
  have hsplit : (body ++ [c₁, c₂]).length - 2 = body.length := by simp
  unfold complete
  simp only [hdec, if_neg (Nat.not_lt.mpr hlen), hrest, hsplit, List.take_left, getD_checksum, hcrc]
  rw [if_neg (by simp), if_neg (fun h => h rfl)]

/-- **Everything `push_line` can do once the line has joined the text.** -/
theorem complete_cases {d' : Decoder} {r : Except Error (Option Bytes)}
    (h : complete e d = (r, d')) :
    (r = .ok none ∧ d' = d) ∨
    ∃ hi lo rest, e.decode d.acc = some (hi :: lo :: rest) ∧
      (fromBeBytes hi lo).toNat ≤ rest.length ∧ d' = { d with inPacket := false } ∧
      ((∃ err, r = .error err) ∨
       ∃ body c₁ c₂, r = .ok (some body) ∧
        rest.take (fromBeBytes hi lo).toNat = body ++ [c₁, c₂] ∧
        fromBeBytes c₁ c₂ = e.checksum body) := by
  unfold complete at h
  split at h
  · cases h
    exact .inl ⟨rfl, rfl⟩
  · rename_i hi lo rest hdec
    simp only at h
    split at h
    · cases h
      exact .inl ⟨rfl, rfl⟩
    · rename_i hlen
      refine .inr ⟨hi, lo, rest, hdec, Nat.not_lt.mp hlen, ?_⟩
      generalize rest.take (fromBeBytes hi lo).toNat = covered at h ⊢
      split at h
      · cases h
        exact ⟨rfl, .inl ⟨_, rfl⟩⟩
      · rename_i htwo
        split at h
        · cases h
          exact ⟨rfl, .inl ⟨_, rfl⟩⟩
        · rename_i hcrc
          cases h
          refine ⟨rfl, .inr ⟨_, _, _, rfl, ?_, Classical.not_not.mp hcrc⟩⟩
          -- the last two bytes are the checksum's
          have hlast : (covered.drop (covered.length - 2)).length = 2 := by
            rw [List.length_drop]
            omega
          obtain ⟨c₁, c₂, hpair⟩ := List.length_eq_two.mp hlast
          have hsplit := List.take_append_drop (covered.length - 2) covered
          rw [hpair] at hsplit
          have htake : (covered.take (covered.length - 2)).length = covered.length - 2 := by
            rw [List.length_take]
            omega
          have hget := getD_checksum (covered.take (covered.length - 2)) c₁ c₂
          rw [hsplit, htake] at hget
          rw [hget.1, hget.2, hsplit]
  · cases h
    exact .inl ⟨rfl, rfl⟩

/-- **The whole packet gives its body.** -/
theorem complete_packet (he : e.Standard) (hf : f.Representable) :
    complete e ⟨e.encode (packet e f), true⟩ =
      (.ok (some f.body), ⟨e.encode (packet e f), false⟩) := by
  have hdec : e.decode (e.encode (packet e f)) = some (packet e f) := by
    rw [he.decode, he.encode]
  obtain ⟨hi, lo, rest, hp, hlen, rfl⟩ := packet_eq (e := e) hf
  rw [hp] at hdec ⊢
  refine complete_body hdec (Nat.le_of_eq hlen) ?_ (fromBeBytes_toBeBytes (e.checksum f.body))
  rw [hlen, List.take_length]
  rfl

end Decoder
end Runtt
