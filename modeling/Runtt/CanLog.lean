import Mathlib.Data.List.Basic
import Mathlib.Algebra.Group.Nat.Defs
import Runtt.Basic

/-! # The console of a board on a CAN bus

`runtt_transport::can`: a raw socket bound to the bus, a filter on it, and a reader that
turns the frames it receives into a byte stream.

The bus is shared.  A socket hears every frame from its `bind` on; `open` sets the filter
after that, and the kernel applies it to the frames that follow.
-/
namespace Runtt

/-- `CAN_SFF_MASK`: match the full 11-bit standard identifier. -/
def CAN_SFF_MASK : BitVec 32 := 0x7ff#32

/-- `struct can_filter`. -/
structure CanFilter where
  canId : BitVec 32
  canMask : BitVec 32
  deriving DecidableEq, Repr

/-- `struct can_frame`. -/
structure CanFrame where
  canId : BitVec 32
  len : UInt8
  data : Vector UInt8 8
  deriving DecidableEq

/-! ## The bus -/

/-- The kernel's flag for a 29-bit identifier. -/
def CAN_EFF_FLAG : BitVec 32 := 0x80000000#32

/-- The kernel's flag for a remote frame. -/
def CAN_RTR_FLAG : BitVec 32 := 0x40000000#32

/-- A frame as it is on the bus. -/
structure BusFrame where
  extended : Bool
  remote : Bool
  identifier : Nat
  identifier_lt : identifier < if extended then 2 ^ 29 else 2 ^ 11
  data : Bytes
  data_le : data.length ≤ 8

namespace BusFrame

/-- What the kernel makes of it. -/
def canFrame (b : BusFrame) : CanFrame where
  canId := BitVec.ofNat 32 b.identifier ||| (if b.extended then CAN_EFF_FLAG else 0#32) |||
    (if b.remote then CAN_RTR_FLAG else 0#32)
  len := UInt8.ofNat b.data.length
  data := Vector.ofFn fun i => b.data.getD i 0

/-- A standard data frame on `id`. -/
def Console (id : BitVec 32) (b : BusFrame) : Prop :=
  b.extended = false ∧ b.remote = false ∧ b.identifier = id.toNat

end BusFrame

/-- The kernel's test: `frame.can_id & mask == filter.can_id & mask`. -/
def CanFilter.accepts (filter : CanFilter) (f : CanFrame) : Bool :=
  f.canId &&& filter.canMask == filter.canId &&& filter.canMask

/-! ## The reader -/

structure CanLogReader where
  /-- Payload left over when the caller's buffer was smaller than a frame. -/
  pending : Bytes
  /-- Read cursor into `pending`. -/
  pos : Nat
  deriving DecidableEq, Repr

namespace CanLogReader

/-- The filter `open` sets. -/
def filterOf (id : BitVec 32) : CanFilter := ⟨id, CAN_SFF_MASK⟩

/-- The reader `open` returns. -/
def opened : CanLogReader := ⟨[], 0⟩

/-- What a frame hands to the reader: `data[..len.min(8)]`. -/
def payload (f : CanFrame) : Bytes := f.data.toList.take (min f.len.toNat 8)

/-- What is left of the frame before, copied to a buffer of `size` bytes. -/
def handOut (r : CanLogReader) (size : Nat) : Bytes × CanLogReader :=
  let n := min (r.pending.length - r.pos) size
  ((r.pending.drop r.pos).take n, { r with pos := r.pos + n })

/-- `read`, with the receives to come: frames, and receives that fail.  A read that needs
one when none is left does not return. -/
def read {ε : Type} (r : CanLogReader) (size : Nat) (socket : List (Except ε CanFrame)) :
    Option (Except ε Bytes × CanLogReader × List (Except ε CanFrame)) :=
  if size = 0 then some (.ok [], r, socket)
  else if r.pos = r.pending.length then
    match socket with
    | [] => none
    | .error e :: rest => some (.error e, r, rest)
    | .ok f :: rest =>
      let (bytes, r) := handOut ⟨payload f, 0⟩ size
      some (.ok bytes, r, rest)
  else
    let (bytes, r) := r.handOut size
    some (.ok bytes, r, socket)

/-- The frame a read of at least one byte delivers from, `source` being the one before. -/
def sourceOf (r : CanLogReader) (source : Option CanFrame) :
    List (Except Error CanFrame) → Option CanFrame
  | .ok f :: _ => if r.pos = r.pending.length then some f else source
  | _ => source

/-- The deliveries of successive reads, one buffer size each, with the frame the bytes
come from. -/
def deliveries (r : CanLogReader) (source : Option CanFrame) :
    List Nat → List (Except Error CanFrame) → List (Option CanFrame × Bytes)
  | [], _ => []
  | size :: sizes, socket =>
    match r.read size socket with
    | none => []
    | some (.error _, r', rest) => deliveries r' source sizes rest
    | some (.ok bytes, r', rest) =>
      let source := if size = 0 then source else r.sourceOf source socket
      (source, bytes) :: deliveries r' source sizes rest

/-- The frames a filter lets through, between receives that fail. -/
def admitted (filter : CanFilter) (trace : List (Except Error BusFrame)) :
    List (Except Error CanFrame) :=
  trace.filterMap fun
    | .error e => some (.error e)
    | .ok b => if filter.accepts b.canFrame then some (.ok b.canFrame) else none

/-- What the socket of `open` receives: frames between `bind` and `setsockopt` under the
filter a socket starts with, which accepts everything, and what comes `late` under the
one `open` sets. -/
def received (id : BitVec 32) (early : List BusFrame) (late : List (Except Error BusFrame)) :
    List (Except Error CanFrame) :=
  admitted ⟨0#32, 0#32⟩ (early.map .ok) ++ admitted (filterOf id) late

end CanLogReader

/-! ## What the filter lets through -/

namespace BusFrame
variable {b : BusFrame} {id : BitVec 32}

theorem identifier_lt_extended (b : BusFrame) : b.identifier < 2 ^ 29 := by
  have h := b.identifier_lt
  split at h
  · exact h
  · omega

/-- The low eleven bits of the `can_id` are those of the identifier. -/
theorem canId_and_mask (b : BusFrame) :
    b.canFrame.canId &&& CAN_SFF_MASK = BitVec.ofNat 32 (b.identifier % 2 ^ 11) := by
  have heff : (if b.extended then CAN_EFF_FLAG else 0#32) &&& CAN_SFF_MASK = 0#32 := by
    cases b.extended <;> decide
  have hrtr : (if b.remote then CAN_RTR_FLAG else 0#32) &&& CAN_SFF_MASK = 0#32 := by
    cases b.remote <;> decide
  have hmask : CAN_SFF_MASK.toNat = 2 ^ 11 - 1 := rfl
  have hlt := b.identifier_lt_extended
  rw [canFrame, BitVec.and_or_distrib_right, BitVec.and_or_distrib_right, heff, hrtr,
    BitVec.or_zero, BitVec.or_zero]
  apply BitVec.eq_of_toNat_eq
  rw [BitVec.toNat_and, hmask, Nat.and_two_pow_sub_one_eq_mod, BitVec.toNat_ofNat,
    BitVec.toNat_ofNat]
  omega

theorem accepts_iff (hid : id.toNat ≤ 0x7ff) :
    (CanLogReader.filterOf id).accepts b.canFrame = true ↔ b.identifier % 2 ^ 11 = id.toNat := by
  have hself : id &&& CAN_SFF_MASK = id := by
    apply BitVec.eq_of_toNat_eq
    have hmask : CAN_SFF_MASK.toNat = 2 ^ 11 - 1 := rfl
    rw [BitVec.toNat_and, hmask, Nat.and_two_pow_sub_one_of_lt_two_pow (by omega)]
  rw [CanFilter.accepts, CanLogReader.filterOf, beq_iff_eq, hself, canId_and_mask]
  constructor
  · intro h
    have := congrArg BitVec.toNat h
    rw [BitVec.toNat_ofNat] at this
    omega
  · intro h
    rw [h, BitVec.ofNat_toNat, BitVec.setWidth_eq]

theorem accepts_any : (⟨0#32, 0#32⟩ : CanFilter).accepts b.canFrame = true := by
  simp [CanFilter.accepts]

/-- The frame's `can_id` is `id` exactly when it is a standard data frame on `id`. -/
theorem canId_eq_iff (hid : id.toNat ≤ 0x7ff) : b.canFrame.canId = id ↔ b.Console id := by
  have hlt := b.identifier_lt_extended
  constructor
  · intro h
    have hbit (i : Nat) (hi : 29 ≤ i) : (BitVec.ofNat 32 b.identifier).getLsbD i = false := by
      rw [BitVec.getLsbD_ofNat, Nat.testBit_lt_two_pow (Nat.lt_of_lt_of_le hlt
        (Nat.pow_le_pow_right Nat.two_pos hi)), Bool.and_false]
    have hidbit (i : Nat) (hi : 11 ≤ i) : id.getLsbD i = false :=
      Nat.testBit_lt_two_pow (Nat.lt_of_lt_of_le (Nat.lt_succ_of_le hid)
        (Nat.pow_le_pow_right Nat.two_pos hi))
    have hext : b.extended = false := by
      have h31 := congrArg (BitVec.getLsbD · 31) h
      simp only [canFrame, BitVec.getLsbD_or, hbit 31 (by decide), hidbit 31 (by decide)] at h31
      revert h31
      cases b.extended <;> cases b.remote <;> decide
    have hrem : b.remote = false := by
      have h30 := congrArg (BitVec.getLsbD · 30) h
      simp only [canFrame, BitVec.getLsbD_or, hbit 30 (by decide), hidbit 30 (by decide)] at h30
      revert h30
      cases b.extended <;> cases b.remote <;> decide
    refine ⟨hext, hrem, ?_⟩
    have := congrArg BitVec.toNat h
    simp only [canFrame, hext, hrem, Bool.false_eq_true, if_false, BitVec.or_zero,
      BitVec.toNat_ofNat] at this
    omega
  · rintro ⟨hext, hrem, hident⟩
    simp only [canFrame, hext, hrem, Bool.false_eq_true, if_false, BitVec.or_zero, hident,
      BitVec.ofNat_toNat, BitVec.setWidth_eq]

theorem payload_canFrame (b : BusFrame) : CanLogReader.payload b.canFrame = b.data := by
  have hle := b.data_le
  have hlen : min b.canFrame.len.toNat 8 = b.data.length := by
    rw [canFrame, UInt8.toNat_ofNat']
    omega
  rw [CanLogReader.payload, hlen]
  apply List.ext_getElem
  · simp [canFrame]
    omega
  · intro i hi hi'
    simp [canFrame, List.getD_eq_getElem?_getD, hi']

end BusFrame

/-! ## What the reader delivers -/

namespace CanLogReader
variable {r : CanLogReader} {source : Option CanFrame} {socket : List (Except Error CanFrame)}

theorem length_payload (f : CanFrame) : (payload f).length ≤ 8 := by
  rw [payload, List.length_take]
  omega

/-- What the reader holds is the payload of the frame it last took. -/
structure Holds (r : CanLogReader) (source : Option CanFrame) : Prop where
  pending : r.pending = (source.map payload).getD []
  pos_le : r.pos ≤ r.pending.length

theorem Holds.opened : Holds opened none := ⟨rfl, Nat.le_refl 0⟩

theorem Holds.handOut (h : Holds r source) (size : Nat) : Holds (r.handOut size).2 source := by
  refine ⟨h.pending, ?_⟩
  have := h.pos_le
  simp only [CanLogReader.handOut]
  omega

theorem Holds.bytes (h : Holds r source) {size : Nat} (hne : (r.handOut size).1 ≠ []) :
    ∃ f, source = some f ∧ payload f ≠ [] := by
  cases source with
  | none =>
    have hempty : r.pending = [] := h.pending
    simp [CanLogReader.handOut, hempty] at hne
  | some f =>
    refine ⟨f, rfl, ?_⟩
    intro hempty
    have hpending : r.pending = [] := h.pending.trans hempty
    simp [CanLogReader.handOut, hpending] at hne

/-- **Every byte comes from a frame the socket received.** -/
theorem mem_deliveries (h : Holds r source) {sizes : List Nat} {src : Option CanFrame}
    {bytes : Bytes} (hmem : (src, bytes) ∈ deliveries r source sizes socket) (hne : bytes ≠ []) :
    ∃ f, src = some f ∧ payload f ≠ [] ∧ (source = some f ∨ .ok f ∈ socket) := by
  induction sizes generalizing r source socket with
  | nil => cases hmem
  | cons size sizes ih =>
    by_cases hsize : size = 0
    · -- nothing is read into an empty buffer
      subst hsize
      simp only [deliveries, read, if_true] at hmem
      rcases List.mem_cons.mp hmem with heq | hmem
      · cases heq
        exact absurd rfl hne
      · exact ih h hmem
    by_cases hdrained : r.pos = r.pending.length
    · cases socket with
      | nil => simp [deliveries, read, hsize, hdrained] at hmem
      | cons recv rest =>
        cases recv with
        | error e =>
          simp only [deliveries, read, if_neg hsize, if_pos hdrained] at hmem
          obtain ⟨f, hsrc, hpay, hor⟩ := ih h hmem
          exact ⟨f, hsrc, hpay, hor.imp id (List.mem_cons_of_mem _)⟩
        | ok f =>
          have hnew : Holds ⟨payload f, 0⟩ (some f) := ⟨rfl, Nat.zero_le _⟩
          simp only [deliveries, read, if_neg hsize, if_pos hdrained, sourceOf] at hmem
          rcases List.mem_cons.mp hmem with heq | hmem
          · cases heq
            obtain ⟨f', hf, hpay⟩ := hnew.bytes hne
            cases hf
            exact ⟨f, rfl, hpay, .inr List.mem_cons_self⟩
          · obtain ⟨f', hsrc, hpay, hor⟩ := ih (hnew.handOut size) hmem
            refine ⟨f', hsrc, hpay, .inr ?_⟩
            rcases hor with hf | hrest
            · cases hf
              exact List.mem_cons_self
            · exact List.mem_cons_of_mem _ hrest
    · have hsource : r.sourceOf source socket = source := by
        unfold sourceOf
        split
        · exact if_neg hdrained
        · rfl
      simp only [deliveries, read, if_neg hsize, if_neg hdrained, hsource] at hmem
      rcases List.mem_cons.mp hmem with heq | hmem
      · cases heq
        obtain ⟨f, hf, hpay⟩ := h.bytes hne
        exact ⟨f, hf, hpay, .inl hf⟩
      · exact ih (h.handOut size) hmem

/-- **Buffers of a whole frame deliver every frame.** -/
theorem deliveries_whole (hdrained : r.pos = r.pending.length) {f : CanFrame}
    (hmem : .ok f ∈ socket) :
    (some f, payload f) ∈ deliveries r source (List.replicate socket.length 8) socket := by
  induction socket generalizing r source with
  | nil => cases hmem
  | cons recv rest ih =>
    rw [List.length_cons, List.replicate_succ]
    cases recv with
    | error e =>
      simp only [deliveries, read, if_neg (show 8 ≠ 0 by decide), if_pos hdrained]
      rcases List.mem_cons.mp hmem with heq | hmem
      · cases heq
      · exact ih hdrained hmem
    | ok f' =>
      have hlen := length_payload f'
      have hout : handOut ⟨payload f', 0⟩ 8 = (payload f', ⟨payload f', (payload f').length⟩) := by
        simp only [handOut, Nat.sub_zero, Nat.min_eq_left hlen, List.drop_zero, List.take_length,
          Nat.zero_add]
      simp only [deliveries, read, if_neg (show 8 ≠ 0 by decide), if_pos hdrained, hout, sourceOf]
      rcases List.mem_cons.mp hmem with heq | hmem
      · cases heq
        exact List.mem_cons_self
      · exact List.mem_cons_of_mem _ (ih rfl hmem)

theorem mem_admitted {filter : CanFilter} {trace : List (Except Error BusFrame)} {f : CanFrame} :
    .ok f ∈ admitted filter trace ↔
      ∃ b, .ok b ∈ trace ∧ filter.accepts b.canFrame = true ∧ b.canFrame = f := by
  rw [admitted, List.mem_filterMap]
  constructor
  · rintro ⟨recv, hmem, hrecv⟩
    cases recv with
    | error e => cases hrecv
    | ok b =>
      by_cases hacc : filter.accepts b.canFrame = true
      · simp only [hacc, if_true] at hrecv
        cases hrecv
        exact ⟨b, hmem, hacc, rfl⟩
      · simp [hacc] at hrecv
  · rintro ⟨b, hmem, hacc, rfl⟩
    exact ⟨.ok b, hmem, if_pos hacc⟩

/-- The frames whose bytes reach the reader. -/
theorem mem_received {id : BitVec 32} (hid : id.toNat ≤ 0x7ff) {early : List BusFrame}
    {late : List (Except Error BusFrame)} {f : CanFrame} :
    .ok f ∈ received id early late ↔
      ∃ b, (b ∈ early ∨ .ok b ∈ late ∧ b.identifier % 2 ^ 11 = id.toNat) ∧ b.canFrame = f := by
  rw [received, List.mem_append, mem_admitted, mem_admitted]
  constructor
  · rintro (⟨b, hmem, -, rfl⟩ | ⟨b, hmem, hacc, rfl⟩)
    · obtain ⟨b', hb, heq⟩ := List.mem_map.mp hmem
      cases heq
      exact ⟨b, .inl hb, rfl⟩
    · exact ⟨b, .inr ⟨hmem, (BusFrame.accepts_iff hid).mp hacc⟩, rfl⟩
  · rintro ⟨b, hb | ⟨hb, hident⟩, rfl⟩
    · exact .inl ⟨b, List.mem_map_of_mem hb, BusFrame.accepts_any, rfl⟩
    · exact .inr ⟨b, hb, (BusFrame.accepts_iff hid).mpr hident, rfl⟩

/-- **When the log stream carries only the console.**  For every trace and however the
reader is read, the bytes delivered come from standard data frames on `id` alone exactly
when every frame that came before the filter was set carries no data or is one, and so
does every later frame whose identifier ends in the eleven bits of `id`. -/
theorem only_console_iff {id : BitVec 32} (hid : id.toNat ≤ 0x7ff) (early : List BusFrame)
    (late : List (Except Error BusFrame)) :
    (∀ sizes src bytes, (src, bytes) ∈ deliveries opened none sizes (received id early late) →
      bytes ≠ [] → ∃ b, (b ∈ early ∨ .ok b ∈ late) ∧ src = some b.canFrame ∧ b.Console id) ↔
    (∀ b ∈ early, b.data ≠ [] → b.Console id) ∧
    ∀ b, .ok b ∈ late → b.identifier % 2 ^ 11 = id.toNat → b.data ≠ [] →
      b.extended = false ∧ b.remote = false := by
  constructor
  · intro hall
    have hconsole : ∀ b, (b ∈ early ∨ .ok b ∈ late ∧ b.identifier % 2 ^ 11 = id.toNat) →
        b.data ≠ [] → b.Console id := by
      intro b hb hdata
      have hmem := (mem_received hid).mpr ⟨b, hb, rfl⟩
      have hdel : (some b.canFrame, payload b.canFrame) ∈ deliveries opened none _ _ :=
        deliveries_whole rfl hmem
      rw [BusFrame.payload_canFrame] at hdel
      obtain ⟨b', -, hsrc, hb'⟩ := hall _ _ _ hdel hdata
      rw [← BusFrame.canId_eq_iff hid] at hb' ⊢
      rw [Option.some.inj hsrc, hb']
    refine ⟨fun b hb => hconsole b (.inl hb), ?_⟩
    intro b hb hident hdata
    obtain ⟨hext, hrem, -⟩ := hconsole b (.inr ⟨hb, hident⟩) hdata
    exact ⟨hext, hrem⟩
  · rintro ⟨hearly, hlate⟩ sizes src bytes hmem hne
    obtain ⟨f, rfl, hpay, hor⟩ := mem_deliveries Holds.opened hmem hne
    rcases hor with hf | hf
    · cases hf
    obtain ⟨b, hb, rfl⟩ := (mem_received hid).mp hf
    rw [BusFrame.payload_canFrame] at hpay
    rcases hb with hb | ⟨hb, hident⟩
    · exact ⟨b, .inl hb, rfl, hearly b hb hpay⟩
    · obtain ⟨hext, hrem⟩ := hlate b hb hident hpay
      have hlt := b.identifier_lt
      rw [hext, if_neg Bool.false_ne_true] at hlt
      refine ⟨b, .inr hb, rfl, hext, hrem, ?_⟩
      rw [← hident, Nat.mod_eq_of_lt hlt]

/-- A frame of the application's own protocol, with a 29-bit identifier. -/
def extendedFrame : BusFrame where
  extended := true
  remote := false
  identifier := 0x10000044
  identifier_lt := by decide
  data := [88]
  data_le := by decide

/-- The console of node 0x42 says `hi`. -/
def consoleFrame : BusFrame where
  extended := false
  remote := false
  identifier := 0x44
  identifier_lt := by decide
  data := [104, 105]
  data_le := by decide

/-- A frame of another node. -/
def neighbourFrame : BusFrame where
  extended := false
  remote := false
  identifier := 0x45
  identifier_lt := by decide
  data := [88]
  data_le := by decide

/-- Among frames of another node the console's is delivered, and nothing else. -/
theorem only_console_iff_neighbour :
    (some consoleFrame.canFrame, [104, 105]) ∈ deliveries opened none [8]
      (received 0x44#32 [] [.ok neighbourFrame, .ok consoleFrame, .ok neighbourFrame]) ∧
    ∀ sizes src bytes, (src, bytes) ∈ deliveries opened none sizes
      (received 0x44#32 [] [.ok neighbourFrame, .ok consoleFrame, .ok neighbourFrame]) →
      bytes ≠ [] → ∃ b, (b ∈ ([] : List BusFrame) ∨
        .ok b ∈ [(.ok neighbourFrame : Except Error BusFrame), .ok consoleFrame,
          .ok neighbourFrame]) ∧
        src = some b.canFrame ∧ b.Console 0x44#32 := by
  refine ⟨by decide, (only_console_iff (by decide) [] _).mpr ⟨?_, ?_⟩⟩
  · intro b hb
    cases hb
  intro b hb _ _
  simp only [List.mem_cons, Except.ok.injEq, List.not_mem_nil, or_false] at hb
  rcases hb with rfl | rfl | rfl
  all_goals exact ⟨rfl, rfl⟩

/-- **An extended frame leaks into the log**: the filter looks at eleven bits and at no
flag. -/
theorem extended_frame_leaks :
    ¬ ∀ (id : BitVec 32), id.toNat ≤ 0x7ff → ∀ (trace : List BusFrame) sizes src bytes,
      (src, bytes) ∈ deliveries opened none sizes (received id [] (trace.map .ok)) →
      bytes ≠ [] → ∃ b ∈ trace, src = some b.canFrame ∧ b.Console id := by
  intro hall
  have hmem : (some extendedFrame.canFrame, [88]) ∈ deliveries opened none [8]
      (received 0x44#32 [] ([extendedFrame].map .ok)) := by decide
  obtain ⟨b, hb, -, hext, -⟩ := hall 0x44#32 (by decide) [extendedFrame] [8] _ _ hmem nofun
  cases List.mem_singleton.mp hb
  cases hext

end CanLogReader
end Runtt
