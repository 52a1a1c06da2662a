import Runtt.CanLog

/-! # The frames of a CAN console as a byte stream

What `CanLogReader::read` hands out over successive calls: every byte of the frames, once
and in order (`conserved`).  A frame without data is handed out as no bytes, which
`Read` reserves for the end of a stream (`no_false_end_iff`).
-/
namespace Runtt.CanLogReader
variable {ε : Type}

/-- The bytes of the frames received, `data[..len.min(8)]` of each. -/
def consoleBytes (socket : List (Except ε CanFrame)) : Bytes :=
  socket.flatMap fun
    | .ok f => payload f
    | .error _ => []

@[simp] theorem consoleBytes_error (e : ε) (socket : List (Except ε CanFrame)) :
    consoleBytes (.error e :: socket) = consoleBytes socket := rfl

@[simp] theorem consoleBytes_ok (f : CanFrame) (socket : List (Except ε CanFrame)) :
    consoleBytes (.ok f :: socket) = payload f ++ consoleBytes socket := rfl

/-- What is left of the frame before. -/
def unread (r : CanLogReader) : Bytes := r.pending.drop r.pos

/-- Successive reads, one buffer size each, up to one that does not return: their results,
the reader and the receives still to come. -/
def reads (r : CanLogReader) : List Nat → List (Except ε CanFrame) →
    List (Except ε Bytes) × CanLogReader × List (Except ε CanFrame)
  | [], socket => ([], r, socket)
  | size :: sizes, socket =>
    match r.read size socket with
    | none => ([], r, socket)
    | some (result, r', rest) =>
      let (results, last) := reads r' sizes rest
      (result :: results, last)

/-- The bytes that some reads returned. -/
def returned (results : List (Except ε Bytes)) : Bytes :=
  results.flatMap fun
    | .ok bytes => bytes
    | .error _ => []

/-- A caller that takes `Ok(0)` for the end of the stream, and tries again after a failed
receive: the bytes it gets. -/
def readToEnd (r : CanLogReader) : List Nat → List (Except ε CanFrame) → Bytes
  | [], _ => []
  | size :: sizes, socket =>
    match r.read size socket with
    | none => []
    | some (.error _, r', rest) => readToEnd r' sizes rest
    | some (.ok bytes, r', rest) => if bytes = [] then [] else bytes ++ readToEnd r' sizes rest

/-! ## One read -/

variable {r r' : CanLogReader} {size : Nat} {socket rest : List (Except ε CanFrame)}
  {result : Except ε Bytes}

/-- What a read does: nothing with an empty buffer; fail, if a receive does; or hand out of
the next frame, or of the one before. -/
theorem read_cases (h : r.read size socket = some (result, r', rest)) :
    (size = 0 ∧ result = .ok [] ∧ r' = r ∧ rest = socket) ∨
    (0 < size ∧ r.pos = r.pending.length ∧
      ∃ e, socket = .error e :: rest ∧ result = .error e ∧ r' = r) ∨
    (0 < size ∧ r.pos = r.pending.length ∧ ∃ f, socket = .ok f :: rest ∧
      result = .ok (handOut ⟨payload f, 0⟩ size).1 ∧ r' = (handOut ⟨payload f, 0⟩ size).2) ∨
    (0 < size ∧ r.pos ≠ r.pending.length ∧ rest = socket ∧
      result = .ok (r.handOut size).1 ∧ r' = (r.handOut size).2) := by
  unfold read at h
  by_cases hsize : size = 0
  · rw [if_pos hsize] at h
    cases h
    exact .inl ⟨hsize, rfl, rfl, rfl⟩
  have hpos : 0 < size := Nat.pos_of_ne_zero hsize
  rw [if_neg hsize] at h
  by_cases hdrained : r.pos = r.pending.length
  · rw [if_pos hdrained] at h
    cases socket with
    | nil => cases h
    | cons receive rest' =>
      cases receive with
      | error e =>
        cases h
        exact .inr (.inl ⟨hpos, hdrained, e, rfl, rfl, rfl⟩)
      | ok f =>
        cases h
        exact .inr (.inr (.inl ⟨hpos, hdrained, f, rfl, rfl, rfl⟩))
  · rw [if_neg hdrained] at h
    cases h
    exact .inr (.inr (.inr ⟨hpos, hdrained, rfl, rfl, rfl⟩))

/-- The cursor is within what is pending. -/
def Inside (r : CanLogReader) : Prop := r.pos ≤ r.pending.length

theorem inside_opened : Inside opened := Nat.le_refl 0

theorem unread_opened : unread opened = [] := rfl

theorem unread_of_drained (h : r.pos = r.pending.length) : r.unread = [] := by
  rw [unread, h, List.drop_length]

/-- What is handed out, and what is left after it. -/
theorem handOut_unread (r : CanLogReader) (size : Nat) :
    (r.handOut size).1 ++ (r.handOut size).2.unread = r.unread := by
  show (r.pending.drop r.pos).take _ ++ r.pending.drop (r.pos + _) = r.pending.drop r.pos
  rw [← List.drop_drop, List.take_append_drop]

theorem handOut_inside (h : Inside r) (size : Nat) : Inside (r.handOut size).2 := by
  show r.pos + min (r.pending.length - r.pos) size ≤ r.pending.length
  have hle : r.pos ≤ r.pending.length := h
  omega

theorem handOut_ne_nil (h : Inside r) (hleft : r.pos ≠ r.pending.length) (hsize : 0 < size) :
    (r.handOut size).1 ≠ [] := by
  intro hnil
  have hle : r.pos ≤ r.pending.length := h
  have hlen : ((r.handOut size).1).length = min (r.pending.length - r.pos) size := by
    show ((r.pending.drop r.pos).take _).length = _
    rw [List.length_take, List.length_drop]
    omega
  rw [hnil] at hlen
  simp only [List.length_nil] at hlen
  omega

theorem payload_eq_nil {f : CanFrame} : payload f = [] ↔ f.len = 0 := by
  have hlen : (payload f).length = min f.len.toNat 8 := by
    rw [payload, List.length_take, Vector.length_toList]
    omega
  rw [← List.length_eq_zero_iff, hlen]
  constructor
  · intro h
    have hzero : f.len.toNat = 0 := by omega
    exact UInt8.toNat_inj.mp hzero
  · intro h
    rw [h]
    rfl

/-- **One read** neither loses a byte nor invents one, and keeps the cursor inside. -/
theorem read_conserves (hinside : Inside r) (h : r.read size socket = some (result, r', rest)) :
    returned [result] ++ (r'.unread ++ consoleBytes rest) = r.unread ++ consoleBytes socket ∧
      Inside r' := by
  rcases read_cases h with ⟨-, rfl, rfl, rfl⟩ | ⟨-, -, e, rfl, rfl, rfl⟩ |
    ⟨-, hdrained, f, rfl, rfl, rfl⟩ | ⟨-, -, rfl, rfl, rfl⟩
  · exact ⟨rfl, hinside⟩
  · exact ⟨rfl, hinside⟩
  · refine ⟨?_, handOut_inside (Nat.zero_le _) size⟩
    have hout : (handOut ⟨payload f, 0⟩ size).1 ++ (handOut ⟨payload f, 0⟩ size).2.unread =
        payload f := handOut_unread ⟨payload f, 0⟩ size
    rw [unread_of_drained hdrained, consoleBytes_ok, List.nil_append]
    calc returned [Except.ok (handOut ⟨payload f, 0⟩ size).1] ++
          ((handOut ⟨payload f, 0⟩ size).2.unread ++ consoleBytes rest)
        = (handOut ⟨payload f, 0⟩ size).1 ++ (handOut ⟨payload f, 0⟩ size).2.unread ++
            consoleBytes rest := by simp [returned]
      _ = payload f ++ consoleBytes rest := by rw [hout]
  · refine ⟨?_, handOut_inside hinside size⟩
    rw [← List.append_assoc, ← handOut_unread r size]
    simp [returned]

/-- **When a read returns `Ok(0)`** into a buffer that is not empty. -/
theorem read_zero (hinside : Inside r) (hsize : 0 < size)
    (h : r.read size socket = some (.ok [], r', rest)) :
    ∃ f, socket = .ok f :: rest ∧ f.len = 0 := by
  rcases read_cases h with ⟨hzero, -⟩ | ⟨-, -, e, -, hresult, -⟩ |
    ⟨-, -, f, rfl, hresult, -⟩ | ⟨-, hleft, -, hresult, -⟩
  · omega
  · cases hresult
  · refine ⟨f, rfl, payload_eq_nil.mp ?_⟩
    by_contra hne
    have hleft : (0 : Nat) ≠ (payload f).length := fun h =>
      hne (List.length_eq_zero_iff.mp h.symm)
    exact handOut_ne_nil (r := ⟨payload f, 0⟩) (Nat.zero_le _) hleft hsize
      (Except.ok.inj hresult).symm
  · exact absurd (Except.ok.inj hresult).symm (handOut_ne_nil hinside hleft hsize)

/-! ## All reads -/

theorem reads_conserve (hinside : Inside r) (sizes : List Nat) :
    returned (reads r sizes socket).1 ++
        ((reads r sizes socket).2.1.unread ++ consoleBytes (reads r sizes socket).2.2) =
      r.unread ++ consoleBytes socket ∧ Inside (reads r sizes socket).2.1 := by
  induction sizes generalizing r socket with
  | nil => exact ⟨rfl, hinside⟩
  | cons size sizes ih =>
    rw [reads]
    rcases hread : r.read size socket with _ | ⟨result, r', rest⟩
    · exact ⟨rfl, hinside⟩
    · obtain ⟨hone, hinside'⟩ := read_conserves hinside hread
      obtain ⟨hall, hlast⟩ := @ih r' rest hinside'
      refine ⟨?_, hlast⟩
      rw [← hone, ← hall]
      simp [returned]

/-- **Console bytes are neither lost, repeated nor reordered.**  For every sequence of
receives and every sequence of buffer sizes: what was returned, what is left of the frame
in hand and the frames to come make up the frames; the cursor stays inside; and a receive
that fails leaves the reader as it was. -/
theorem conserved (socket : List (Except ε CanFrame)) (sizes : List Nat) :
    let (results, r, rest) := reads opened sizes socket
    returned results ++ (r.unread ++ consoleBytes rest) = consoleBytes socket ∧
      returned results <+: consoleBytes socket ∧
      ((∀ f, .ok f ∉ rest) → r.pos = r.pending.length → returned results = consoleBytes socket) ∧
      r.pos ≤ r.pending.length ∧
      ∀ size e r' rest', r.read size rest = some (.error e, r', rest') → r' = r := by
  obtain ⟨hall, hinside⟩ := @reads_conserve ε opened socket inside_opened sizes
  rw [unread_opened, List.nil_append] at hall
  refine ⟨hall, ⟨_, hall⟩, ?_, hinside, ?_⟩
  · intro hnone hdrained
    have hrest : consoleBytes (reads opened sizes socket).2.2 = [] := by
      refine List.flatMap_eq_nil_iff.mpr fun receive hmem => ?_
      cases receive with
      | error e => rfl
      | ok f => exact absurd hmem (hnone f)
    rw [← hall, unread_of_drained hdrained, hrest, List.append_nil, List.append_nil]
  · intro size e r' rest' hread
    rcases read_cases hread with ⟨-, hresult, -⟩ | ⟨-, -, -, -, -, hsame⟩ |
      ⟨-, -, f, -, hresult, -⟩ | ⟨-, -, -, hresult, -⟩
    · cases hresult
    · exact hsame
    · cases hresult
    · cases hresult

/-! ## No false end of stream -/

/-- Buffers of at least eight bytes take a frame each. -/
theorem reads_buffered (hdrained : r.pos = r.pending.length) (hsize : 8 ≤ size)
    (socket : List (Except ε CanFrame)) :
    (reads r (List.replicate socket.length size) socket).1 = socket.map (Except.map payload) := by
  induction socket generalizing r with
  | nil => rfl
  | cons receive rest ih =>
    have hne : size ≠ 0 := by omega
    rw [List.length_cons, List.replicate_succ, List.map_cons]
    cases receive with
    | error e =>
      simp only [reads, read, if_neg hne, if_pos hdrained, ih hdrained]
      rfl
    | ok f =>
      have hlen := length_payload f
      have hout : handOut ⟨payload f, 0⟩ size =
          (payload f, ⟨payload f, (payload f).length⟩) := by
        have hmin : min (payload f).length size = (payload f).length := by omega
        simp only [handOut, Nat.sub_zero, hmin, List.drop_zero, List.take_length, Nat.zero_add]
      simp only [reads, read, if_neg hne, if_pos hdrained, hout]
      rw [ih rfl]
      rfl

/-- If every frame carries data, then so does every one still to come after a read. -/
theorem rest_carries (h : r.read size socket = some (result, r', rest))
    (hdata : ∀ f, .ok f ∈ socket → f.len ≠ 0) : ∀ f, .ok f ∈ rest → f.len ≠ 0 := by
  intro f hmem
  refine hdata f ?_
  rcases read_cases h with ⟨-, -, -, rfl⟩ | ⟨-, -, e, rfl, -⟩ | ⟨-, -, f, rfl, -⟩ | ⟨-, -, rfl, -⟩
  · exact hmem
  · exact List.mem_cons_of_mem _ hmem
  · exact List.mem_cons_of_mem _ hmem
  · exact hmem

/-- Frames that all carry data are never handed out as no bytes. -/
theorem notMem_reads (hinside : Inside r) (hdata : ∀ f, .ok f ∈ socket → f.len ≠ 0)
    {sizes : List Nat} (hsizes : ∀ n ∈ sizes, 0 < n) : .ok [] ∉ (reads r sizes socket).1 := by
  induction sizes generalizing r socket with
  | nil => exact List.not_mem_nil
  | cons size sizes ih =>
    obtain ⟨hsize, hsizes⟩ := List.forall_mem_cons.mp hsizes
    rw [reads]
    rcases hread : r.read size socket with _ | ⟨result, r', rest⟩
    · exact List.not_mem_nil
    · intro hmem
      rcases List.mem_cons.mp hmem with heq | hmem
      · subst heq
        obtain ⟨f, rfl, hzero⟩ := read_zero hinside hsize hread
        exact hdata f List.mem_cons_self hzero
      · exact ih (read_conserves hinside hread).2 (rest_carries hread hdata) hsizes hmem

theorem read_isNone (h : r.read size socket = none) :
    r.pos = r.pending.length ∧ socket = [] := by
  unfold read at h
  split at h
  · cases h
  · split at h
    · rename_i hdrained
      split at h
      · exact ⟨hdrained, rfl⟩
      · cases h
      · cases h
    · cases h

/-- What a reader has ahead of it: each read lowers it. -/
def ahead (r : CanLogReader) (socket : List (Except ε CanFrame)) : Nat :=
  r.unread.length + 8 * socket.length

theorem read_lowers (hinside : Inside r) (hsize : 0 < size)
    (h : r.read size socket = some (result, r', rest)) (hne : result ≠ .ok []) :
    ahead r' rest < ahead r socket := by
  have hout (r : CanLogReader) (hne : (r.handOut size).1 ≠ []) :
      (r.handOut size).2.unread.length < r.unread.length := by
    have hlen := congrArg List.length (handOut_unread r size)
    have hpos := List.length_pos_of_ne_nil hne
    rw [List.length_append] at hlen
    omega
  unfold ahead
  rcases read_cases h with ⟨hzero, -⟩ | ⟨-, -, e, rfl, -, rfl⟩ |
    ⟨-, hdrained, f, rfl, rfl, rfl⟩ | ⟨-, -, rfl, rfl, rfl⟩
  · omega
  · rw [List.length_cons]
    omega
  · have hless := hout ⟨payload f, 0⟩ fun hnil => hne (congrArg Except.ok hnil)
    have hframe : (unread ⟨payload f, 0⟩).length ≤ 8 := length_payload f
    rw [List.length_cons]
    omega
  · have hless := hout r fun hnil => hne (congrArg Except.ok hnil)
    omega

/-- A caller that stops at `Ok(0)` gets every byte, given reads enough. -/
theorem readToEnd_eq (hinside : Inside r) (hdata : ∀ f, .ok f ∈ socket → f.len ≠ 0)
    {sizes : List Nat} (hsizes : ∀ n ∈ sizes, 0 < n) (hlong : ahead r socket ≤ sizes.length) :
    readToEnd r sizes socket = r.unread ++ consoleBytes socket := by
  induction sizes generalizing r socket with
  | nil =>
    have hsocket : socket.length = 0 := by
      simp only [ahead, List.length_nil] at hlong
      omega
    have hunread : r.unread.length = 0 := by
      simp only [ahead, List.length_nil] at hlong
      omega
    rw [List.length_eq_zero_iff] at hsocket hunread
    rw [hsocket, hunread]
    rfl
  | cons size sizes ih =>
    obtain ⟨hsize, hsizes'⟩ := List.forall_mem_cons.mp hsizes
    have hnever := notMem_reads hinside hdata hsizes
    unfold readToEnd
    unfold reads at hnever
    rcases hread : r.read size socket with _ | ⟨result, r', rest⟩
    · obtain ⟨hdrained, rfl⟩ := read_isNone hread
      rw [unread_of_drained hdrained]
      rfl
    · rw [hread] at hnever
      have hne : result ≠ .ok [] := fun heq => hnever (heq ▸ List.mem_cons_self)
      have hless := read_lowers hinside hsize hread hne
      obtain ⟨hkept, hinside'⟩ := read_conserves hinside hread
      have hrest := ih hinside' (rest_carries hread hdata) hsizes' (by
        rw [List.length_cons] at hlong
        omega)
      cases result with
      | error e =>
        rw [← hkept]
        exact hrest
      | ok bytes =>
        have hbytes : bytes ≠ [] := fun hnil => hne (congrArg Except.ok hnil)
        show (if bytes = [] then [] else bytes ++ readToEnd r' sizes rest) = _
        rw [if_neg hbytes, hrest, ← hkept]
        simp [returned]

/-- **When a CAN console never reports a false end.**  With buffers that are not empty no
read returns `Ok(0)`, so that a caller which stops there goes on to every frame, exactly
when every frame received carries data. -/
theorem no_false_end_iff (socket : List (Except ε CanFrame)) :
    ((∀ sizes : List Nat, (∀ n ∈ sizes, 0 < n) → .ok [] ∉ (reads opened sizes socket).1) ∧
      ∀ sizes : List Nat, (∀ n ∈ sizes, 0 < n) → 8 * socket.length ≤ sizes.length →
        readToEnd opened sizes socket = consoleBytes socket) ↔
      ∀ f, .ok f ∈ socket → f.len ≠ 0 := by
  constructor
  · rintro ⟨hnever, -⟩ f hmem hzero
    refine hnever (List.replicate socket.length 8) (fun n hn => ?_) ?_
    · rw [List.eq_of_mem_replicate hn]
      decide
    · rw [reads_buffered rfl (Nat.le_refl 8)]
      exact List.mem_map.mpr ⟨.ok f, hmem, congrArg Except.ok (payload_eq_nil.mpr hzero)⟩
  · intro hdata
    refine ⟨fun sizes hsizes => notMem_reads inside_opened hdata hsizes, ?_⟩
    intro sizes hsizes hlong
    have hahead : ahead opened socket ≤ sizes.length := by
      show 0 + 8 * socket.length ≤ sizes.length
      omega
    exact readToEnd_eq inside_opened hdata hsizes hahead

/-- A frame without data between two lines. -/
def emptyFrame : CanFrame := ⟨0x120#32, 0, Vector.replicate 8 0⟩

/-- It reads as the end of the stream. -/
theorem false_end :
    ¬ ∀ socket : List (Except Error CanFrame), ∀ sizes : List Nat, (∀ n ∈ sizes, 0 < n) →
      .ok [] ∉ (reads opened sizes socket).1 := by
  intro h
  have hread : (reads (ε := Error) opened [8] [.ok emptyFrame]).1 = [.ok []] := rfl
  refine h [.ok emptyFrame] [8] (by decide) ?_
  rw [hread]
  exact List.mem_cons_self

end Runtt.CanLogReader
