import Mathlib.Data.List.Forall2
import Runtt.CanStream
import Runtt.Demux
import Runtt.LineReader

/-! # The log pump of a two-channel target

`pump_logs`: lines from a log channel, serial or CAN, through a `BufReader` and its `lines`.
Only a timeout is passed over.  A line that is not UTF-8 ends the pump (`content_iff`); a
timeout costs the line it falls into on a serial port, and the pump on CAN, where it is
reported as `WouldBlock` (`silence_iff`).
-/
namespace Runtt

open LineStream LineReader

/-- `str::from_utf8` succeeds. -/
def validUtf8 (b : Bytes) : Bool := (ByteArray.mk b.toArray).validateUTF8

namespace LogPump

open LogDemux (CARRIAGE_RETURN stripReturn)

/-- Where `pump_logs` stands. -/
inductive Outcome where
  /-- In a read that has not returned. -/
  | waiting
  /-- `Ok(())`. -/
  | done
  | failed (e : ErrorKind)
  deriving DecidableEq, Repr

/-- The loop of `pump_logs`: the lines it prints, and where it stands. -/
def pumpWith : Nat → BufReader UInt8 → Option (List Bytes × Outcome)
  | 0, _ => none
  | fuel + 1, r =>
    match nextLine NEWLINE CARRIAGE_RETURN validUtf8 r with
    | none => some ([], .waiting)
    | some (none, _) => some ([], .done)
    | some (some (.ok l), r') => (pumpWith fuel r').map fun p => (l :: p.1, p.2)
    | some (some (.error .timedOut), r') => pumpWith fuel r'
    | some (some (.error e), _) => some ([], .failed e)

/-- `pump_logs`, over the reads of its stream.  There are no more lines than bytes and
reads. -/
def pumpLogs (reads : List (Read UInt8)) : Option (List Bytes × Outcome) :=
  pumpWith (weight reads + 1) ⟨[], reads⟩

/-! ## The log channels -/

/-- What a log channel brings. -/
inductive Arrival (γ : Type) where
  | data (x : γ)
  /-- A signal interrupts the read. -/
  | interrupted
  /-- The receive timeout expires. -/
  | silence
  deriving DecidableEq

namespace Arrival
variable {γ δ : Type}

def map (f : γ → δ) : Arrival γ → Arrival δ
  | .data x => .data (f x)
  | .interrupted => .interrupted
  | .silence => .silence

/-- What a read returns, if this is how a timeout is reported. -/
def read (timeout : ErrorKind) : Arrival γ → Except ErrorKind γ
  | .data x => .ok x
  | .interrupted => .error .interrupted
  | .silence => .error timeout

/-- The data among some arrivals. -/
def pieces (as : List (Arrival γ)) : List γ :=
  as.filterMap fun
    | .data x => some x
    | _ => none

def isSilence : Arrival γ → Bool
  | .silence => true
  | _ => false

end Arrival

/-- The bytes of one read of a serial port. -/
abbrev Piece := { b : Bytes // b ≠ [] }

/-- A log channel, with what arrives on it. -/
inductive LogChannel where
  | serial (arrivals : List (Arrival Piece))
  | can (arrivals : List (Arrival CanFrame))

/-- The capacity of a `BufReader`. -/
def BUF_SIZE : Nat := 8 * 1024

namespace LogChannel

/-- What the reads of the channel's stream return.  `serialport` reports a timeout as
`TimedOut`, a socket as `EAGAIN`. -/
def reads : LogChannel → List (Read UInt8)
  | .serial as => as.map fun a => (a.map Subtype.val).read .timedOut
  | .can as =>
    (CanLogReader.reads .opened (List.replicate as.length BUF_SIZE)
      (as.map (Arrival.read .wouldBlock))).1

/-- The pieces in which the bytes come in. -/
def arrivals : LogChannel → List (Arrival Bytes)
  | .serial as => as.map (Arrival.map Subtype.val)
  | .can as => as.map (Arrival.map CanLogReader.payload)

def timeout : LogChannel → ErrorKind
  | .serial _ => .timedOut
  | .can _ => .wouldBlock

/-- The byte stream of the channel. -/
def bytes (c : LogChannel) : Bytes := (Arrival.pieces c.arrivals).flatten

/-- The same data, without the timeouts. -/
def withoutSilence : LogChannel → LogChannel
  | .serial as => .serial (as.filter fun a => !a.isSilence)
  | .can as => .can (as.filter fun a => !a.isSilence)

/-- No receive times out. -/
def Unbroken (c : LogChannel) : Prop := .silence ∉ c.arrivals

theorem reads_eq (c : LogChannel) : c.reads = c.arrivals.map (Arrival.read c.timeout) := by
  cases c with
  | serial as => simp [reads, arrivals, timeout]
  | can as =>
    have hlen : as.length = (as.map (Arrival.read (γ := CanFrame) .wouldBlock)).length :=
      (List.length_map _).symm
    rw [reads, hlen, CanLogReader.reads_buffered rfl (by decide), arrivals, List.map_map,
      List.map_map]
    refine List.map_congr_left fun a _ => ?_
    cases a <;> rfl

end LogChannel

/-! ## The pump, record by record -/

/-- What the pump makes of the results of `read_until`. -/
def echo : List (Read UInt8) → List Bytes × Outcome
  | [] => ([], .waiting)
  | .ok [] :: _ => ([], .done)
  | .ok (b :: bs) :: rest =>
    if validUtf8 (b :: bs) then
      (chomp NEWLINE CARRIAGE_RETURN (b :: bs) :: (echo rest).1, (echo rest).2)
    else ([], .failed .invalidData)
  | .error .timedOut :: rest => echo rest
  | .error e :: _ => ([], .failed e)

theorem pumpWith_eq {fuel : Nat} {r : BufReader UInt8}
    (hfuel : (recordsOf NEWLINE r).length < fuel) :
    pumpWith fuel r = some (echo (recordsOf NEWLINE r)) := by
  induction fuel generalizing r with
  | zero => exact absurd hfuel (Nat.not_lt_zero _)
  | succ fuel ih =>
    rw [pumpWith, nextLine]
    rcases readUntil_cases NEWLINE r with ⟨hnone, hrecords⟩ | ⟨x, r', hsome, hrecords⟩
    · rw [hnone, hrecords]
      rfl
    · rw [hrecords, List.length_cons] at hfuel
      have hrest := ih (Nat.lt_of_succ_lt_succ hfuel)
      rw [hsome, hrecords]
      rcases x with e | _ | ⟨b, bs⟩
      · cases e with
        | timedOut => exact hrest
        | _ => rfl
      · rfl
      · dsimp only
        rw [echo]
        by_cases hvalid : validUtf8 (b :: bs) = true
        · rw [if_pos hvalid, if_pos hvalid]
          dsimp only
          rw [hrest]
          rfl
        · rw [if_neg hvalid, if_neg hvalid]

/-- **The pump prints the records of its stream**, and it never gives up for lack of fuel. -/
theorem pumpLogs_eq (reads : List (Read UInt8)) :
    pumpLogs reads = some (echo (records NEWLINE [] reads)) := by
  have hlen : (recordsOf NEWLINE ⟨[], reads⟩).length ≤ weight reads :=
    length_records NEWLINE [] reads
  exact pumpWith_eq (Nat.lt_succ_of_le hlen)

/-! ## Records that end it -/

/-- A record that the pump prints. -/
def Printable (record : Bytes) : Prop := record ≠ [] ∧ validUtf8 record = true

/-- Printable records are printed, one by one. -/
theorem echo_printable {ss : List Bytes} (h : ∀ s ∈ ss, Printable s) (more : List (Read UInt8)) :
    echo (ss.map .ok ++ more) =
      (ss.map (chomp NEWLINE CARRIAGE_RETURN) ++ (echo more).1, (echo more).2) := by
  induction ss with
  | nil => rfl
  | cons s ss ih =>
    obtain ⟨⟨hne, hvalid⟩, hss⟩ := List.forall_mem_cons.mp h
    cases s with
    | nil => exact absurd rfl hne
    | cons b bs =>
      rw [List.map_cons, List.cons_append, echo, if_pos hvalid, ih hss]
      rfl

/-- One that is not ends the pump. -/
theorem echo_stops {ss : List Bytes} (h : ¬ ∀ s ∈ ss, Printable s) (more : List (Read UInt8)) :
    echo (ss.map .ok ++ more) = echo (ss.map .ok) ∧
      ((echo (ss.map .ok)).2 = .done ∨ (echo (ss.map .ok)).2 = .failed .invalidData) := by
  induction ss with
  | nil => exact absurd (fun _ hmem => nomatch hmem) h
  | cons s ss ih =>
    cases s with
    | nil => exact ⟨rfl, .inl rfl⟩
    | cons b bs =>
      rw [List.map_cons, List.cons_append, echo, echo]
      by_cases hvalid : validUtf8 (b :: bs) = true
      · have hss : ¬ ∀ s ∈ ss, Printable s := fun hss =>
          h (List.forall_mem_cons.mpr ⟨⟨List.cons_ne_nil b bs, hvalid⟩, hss⟩)
        obtain ⟨hsame, hstop⟩ := ih hss
        rw [if_pos hvalid, if_pos hvalid, hsame]
        exact ⟨rfl, hstop⟩
      · rw [if_neg hvalid, if_neg hvalid]
        exact ⟨rfl, .inr rfl⟩

/-- The pump waits after some records exactly when all of them are printable. -/
theorem echo_waiting_iff {ss : List Bytes} :
    (echo (ss.map .ok)).2 = .waiting ↔ ∀ s ∈ ss, Printable s := by
  constructor
  · intro hwaiting
    by_contra h
    obtain ⟨-, hstop⟩ := echo_stops h []
    rcases hstop with hdone | hfailed
    · rw [hdone] at hwaiting
      cases hwaiting
    · rw [hfailed] at hwaiting
      cases hwaiting
  · intro h
    have hecho := echo_printable h []
    rw [List.append_nil] at hecho
    rw [hecho]
    rfl

/-! ## What the log says does not matter, as long as it is text -/

namespace LogChannel

/-- As long as no read times out, the records are those of the pieces. -/
theorem records_arrivals {as : List (Arrival Bytes)} (h : .silence ∉ as) (timeout : ErrorKind)
    (line : Bytes) (more : List (Read UInt8)) :
    records NEWLINE line (as.map (Arrival.read timeout) ++ more) =
      (segments NEWLINE line (Arrival.pieces as)).map .ok ++
        records NEWLINE (openAfter NEWLINE line (Arrival.pieces as)) more := by
  have hreads : (as.map (Arrival.read timeout)).filter (· ≠ .error .interrupted) =
      (Arrival.pieces as).map .ok := by
    induction as with
    | nil => rfl
    | cons a as ih =>
      obtain ⟨ha, has⟩ := not_or.mp (mt List.mem_cons.mpr h)
      cases a with
      | data b => exact congrArg (List.cons _) (ih has)
      | interrupted => exact ih has
      | silence => exact absurd rfl ha
  rw [← records_filter, List.filter_append, hreads, records_pieces, records_filter]

theorem records_quiet {as : List (Arrival Bytes)} (h : .silence ∉ as) (timeout : ErrorKind)
    (line : Bytes) :
    records NEWLINE line (as.map (Arrival.read timeout)) =
      (segments NEWLINE line (Arrival.pieces as)).map .ok := by
  have hrecords := records_arrivals h timeout line []
  rw [List.append_nil] at hrecords
  exact hrecords.trans (List.append_nil _)

/-- Every frame received carries data. -/
def FramesCarryData : LogChannel → Prop
  | .serial _ => True
  | .can as => ∀ f, .data f ∈ as → f.len ≠ 0

theorem mem_pieces {γ : Type} {as : List (Arrival γ)} {x : γ} :
    x ∈ Arrival.pieces as ↔ .data x ∈ as := by
  rw [Arrival.pieces, List.mem_filterMap]
  constructor
  · rintro ⟨a, hmem, ha⟩
    cases a with
    | data y =>
      cases ha
      exact hmem
    | interrupted => cases ha
    | silence => cases ha
  · intro hmem
    exact ⟨.data x, hmem, rfl⟩

theorem mem_map_data {γ δ : Type} {f : γ → δ} {as : List (Arrival γ)} {y : δ} :
    .data y ∈ as.map (Arrival.map f) ↔ ∃ x, .data x ∈ as ∧ f x = y := by
  rw [List.mem_map]
  constructor
  · rintro ⟨a, hmem, ha⟩
    cases a with
    | data x =>
      cases ha
      exact ⟨x, hmem, rfl⟩
    | interrupted => cases ha
    | silence => cases ha
  · rintro ⟨x, hmem, rfl⟩
    exact ⟨.data x, hmem, rfl⟩

/-- Only a frame without data is a piece without bytes. -/
theorem framesCarryData_iff {c : LogChannel} :
    c.FramesCarryData ↔ [] ∉ Arrival.pieces c.arrivals := by
  rw [mem_pieces]
  cases c with
  | serial as =>
    refine ⟨fun _ hmem => ?_, fun _ => trivial⟩
    obtain ⟨p, -, hp⟩ := mem_map_data.mp hmem
    exact p.2 hp
  | can as =>
    rw [arrivals, mem_map_data]
    constructor
    · rintro h ⟨f, hmem, hf⟩
      exact h f hmem (CanLogReader.payload_eq_nil.mp hf)
    · intro h f hmem hzero
      exact h ⟨f, hmem, CanLogReader.payload_eq_nil.mpr hzero⟩

/-- The records of such a channel are its lines. -/
theorem segments_eq_lines {c : LogChannel} (h : [] ∉ Arrival.pieces c.arrivals) :
    segments NEWLINE [] (Arrival.pieces c.arrivals) =
      (lines NEWLINE c.bytes).map (· ++ [NEWLINE]) :=
  (segments_eq [] fun _ hmem hp => h (hp ▸ hmem)).1

/-- Every line of the stream is UTF-8. -/
def IsText (c : LogChannel) : Prop :=
  ∀ line ∈ lines NEWLINE c.bytes, validUtf8 (line ++ [NEWLINE]) = true

/-- One output for each line, the line itself where it is text; and the pump is still
running. -/
def Survives (c : LogChannel) : Prop :=
  ∃ printed, pumpLogs c.reads = some (printed, .waiting) ∧
    List.Forall₂ (fun line out => validUtf8 (line ++ [NEWLINE]) = true → out = stripReturn line)
      (lines NEWLINE c.bytes) printed

end LogChannel

theorem chomp_terminated (line : Bytes) :
    chomp NEWLINE CARRIAGE_RETURN (line ++ [NEWLINE]) = stripReturn line := by
  rw [chomp, List.getLast?_concat, if_pos rfl, List.dropLast_concat]
  rfl

/-- **No log content stops the pump, as long as it is text.**  On a channel that never
times out the pump prints one line for each line it receives and goes on, exactly when
every line is UTF-8 and, on CAN, every frame carries data. -/
theorem content_iff {c : LogChannel} (hunbroken : c.Unbroken) :
    c.Survives ↔ c.IsText ∧ c.FramesCarryData := by
  have hrecords := LogChannel.records_quiet hunbroken c.timeout []
  unfold LogChannel.Survives
  rw [pumpLogs_eq, c.reads_eq, hrecords, LogChannel.framesCarryData_iff]
  constructor
  · rintro ⟨printed, hpump, hlines⟩
    have hecho := Option.some.inj hpump
    have hprintable := echo_waiting_iff.mp (congrArg Prod.snd hecho)
    have hlen := hlines.length_eq
    have hprinted : printed.length =
        (segments NEWLINE [] (Arrival.pieces c.arrivals)).length := by
      have hall := echo_printable hprintable []
      rw [List.append_nil, hecho] at hall
      have hfst : printed = _ ++ [] := congrArg Prod.fst hall
      rw [hfst, List.append_nil, List.length_map]
    rw [hprinted, length_segments, lines, length_linesFrom, LogChannel.bytes] at hlen
    have hcount : (Arrival.pieces c.arrivals).count [] = 0 := by omega
    have hdata : [] ∉ Arrival.pieces c.arrivals := List.count_eq_zero.mp hcount
    refine ⟨fun line hline => ?_, hdata⟩
    rw [LogChannel.segments_eq_lines hdata] at hprintable
    exact (hprintable _ (List.mem_map_of_mem hline)).2
  · rintro ⟨htext, hdata⟩
    have hprintable : ∀ s ∈ (lines NEWLINE c.bytes).map (· ++ [NEWLINE]), Printable s := by
      intro s hs
      obtain ⟨line, hline, rfl⟩ := List.mem_map.mp hs
      exact ⟨List.append_ne_nil_of_right_ne_nil _ (List.cons_ne_nil _ _), htext line hline⟩
    have hall := echo_printable hprintable []
    rw [List.append_nil] at hall
    refine ⟨(lines NEWLINE c.bytes).map stripReturn, ?_, ?_⟩
    · rw [LogChannel.segments_eq_lines hdata, hall, List.map_map, echo, List.append_nil]
      refine congrArg (fun ls => some (ls, Outcome.waiting)) (List.map_congr_left fun line _ => ?_)
      exact chomp_terminated line
    · rw [List.forall₂_map_right_iff, List.forall₂_same]
      exact fun line _ _ => rfl

/-- Two lines in pieces, the second with a carriage return. -/
def twoLines : LogChannel :=
  .serial [.data ⟨[104, 105, 10, 111], by decide⟩, .interrupted, .data ⟨[107, 13, 10], by decide⟩]

theorem content_iff_text : twoLines.Survives ↔ twoLines.IsText ∧ twoLines.FramesCarryData :=
  content_iff (by unfold LogChannel.Unbroken; decide)

/-- A byte that no UTF-8 text contains, and a line end. -/
def bootNoise : LogChannel := .serial [.data ⟨[0xff, 10], by decide⟩]

/-- It ends the pump. -/
theorem noise_ends_pump : ¬ ∀ c : LogChannel, c.Unbroken → c.Survives := by
  intro h
  obtain ⟨printed, hpump, -⟩ := h bootNoise (by unfold LogChannel.Unbroken; decide)
  have hstops : pumpLogs bootNoise.reads = some ([], .failed .invalidData) := by decide +kernel
  rw [hstops] at hpump
  cases hpump

/-! ## What silence costs -/

/-- Of each line that ends, behind what a timeout cost and what was read since: what is
lost, and what is kept. -/
def spans (lost line : Bytes) : List (Arrival Bytes) → List (Bytes × Bytes)
  | [] => []
  | .data b :: as =>
    match linesFrom NEWLINE line b with
    | [] => spans lost (openFrom NEWLINE line b) as
    | l :: ls => (lost, l) :: (ls.map (Prod.mk []) ++ spans [] (openFrom NEWLINE line b) as)
  | .interrupted :: as => spans lost line as
  | .silence :: as => spans (lost ++ line) [] as

/-- A record of the part of a line that is kept. -/
def keptRecord (p : Bytes × Bytes) : Read UInt8 := .ok (p.2 ++ [NEWLINE])

/-- A record of the whole line. -/
def wholeRecord (p : Bytes × Bytes) : Read UInt8 := .ok (p.1 ++ p.2 ++ [NEWLINE])

/-- Lines cost nothing if none of them has lost anything but a carriage return that was
all of it; the first that is not text may have lost anything, if what is kept is not
text either. -/
def CostsNothing : List (Bytes × Bytes) → Prop
  | [] => True
  | (lost, kept) :: rest =>
    if validUtf8 (lost ++ kept ++ [NEWLINE]) then
      (lost = [] ∨ lost = [CARRIAGE_RETURN] ∧ kept = []) ∧ CostsNothing rest
    else lost = [] ∨ validUtf8 (kept ++ [NEWLINE]) = false

theorem echo_line (line : Bytes) (rest : List (Read UInt8)) :
    echo (.ok (line ++ [NEWLINE]) :: rest) =
      if validUtf8 (line ++ [NEWLINE]) then (stripReturn line :: (echo rest).1, (echo rest).2)
      else ([], .failed .invalidData) := by
  rw [← chomp_terminated]
  cases hline : line ++ [NEWLINE] with
  | nil => exact absurd hline (List.append_ne_nil_of_right_ne_nil _ (List.cons_ne_nil _ _))
  | cons b bs => rfl

/-- Records that are data hand over to what is behind them. -/
theorem echo_congr (ss : List Bytes) {more more' : List (Read UInt8)} (h : echo more = echo more') :
    echo (ss.map .ok ++ more) = echo (ss.map .ok ++ more') := by
  by_cases hss : ∀ s ∈ ss, Printable s
  · rw [echo_printable hss, echo_printable hss, h]
  · rw [(echo_stops hss more).1, (echo_stops hss more').1]

theorem stripReturn_return (line : Bytes) : stripReturn (line ++ [CARRIAGE_RETURN]) = line := by
  rw [stripReturn, List.getLast?_concat, if_pos rfl, List.dropLast_concat]

theorem stripReturn_other {x : UInt8} (hx : x ≠ CARRIAGE_RETURN) (line : Bytes) :
    stripReturn (line ++ [x]) = line ++ [x] := by
  rw [stripReturn, List.getLast?_concat, if_neg fun h => hx (Option.some.inj h)]

/-- What is kept of a line reads like all of it only if nothing visible is lost. -/
theorem stripReturn_lost {lost kept : Bytes} :
    stripReturn kept = stripReturn (lost ++ kept) ↔
      lost = [] ∨ lost = [CARRIAGE_RETURN] ∧ kept = [] := by
  constructor
  · intro h
    rcases List.eq_nil_or_concat' kept with rfl | ⟨init, x, rfl⟩
    · rw [List.append_nil] at h
      rcases List.eq_nil_or_concat' lost with rfl | ⟨init, x, rfl⟩
      · exact .inl rfl
      · by_cases hx : x = CARRIAGE_RETURN
        · subst hx
          rw [stripReturn_return] at h
          exact .inr ⟨by rw [← h]; rfl, rfl⟩
        · rw [stripReturn_other hx] at h
          exact absurd h.symm (List.append_ne_nil_of_right_ne_nil _ (List.cons_ne_nil _ _))
    · rw [← List.append_assoc] at h
      by_cases hx : x = CARRIAGE_RETURN
      · subst hx
        rw [stripReturn_return, stripReturn_return] at h
        exact .inl (List.self_eq_append_left.mp h)
      · rw [stripReturn_other hx, stripReturn_other hx, List.append_assoc] at h
        exact .inl (List.self_eq_append_left.mp h)
  · rintro (rfl | ⟨rfl, rfl⟩)
    · rfl
    · rfl

/-- The pump cannot tell what is kept of the lines from all of them exactly when nothing
they lost costs anything. -/
theorem echo_kept_iff (ps : List (Bytes × Bytes)) :
    echo (ps.map keptRecord) = echo (ps.map wholeRecord) ↔ CostsNothing ps := by
  induction ps with
  | nil => exact ⟨fun _ => trivial, fun _ => rfl⟩
  | cons p ps ih =>
    obtain ⟨lost, kept⟩ := p
    rw [List.map_cons, List.map_cons, keptRecord, wholeRecord, echo_line, echo_line, CostsNothing]
    by_cases hwhole : validUtf8 (lost ++ kept ++ [NEWLINE]) = true
    · rw [if_pos hwhole, if_pos hwhole, ← ih, ← stripReturn_lost]
      by_cases hkept : validUtf8 (kept ++ [NEWLINE]) = true
      · rw [if_pos hkept]
        constructor
        · intro h
          obtain ⟨hprinted, hout⟩ := Prod.ext_iff.mp h
          obtain ⟨hhead, htail⟩ := List.cons.inj hprinted
          exact ⟨hhead, Prod.ext htail hout⟩
        · rintro ⟨hhead, hrest⟩
          dsimp only
          rw [hhead, hrest]
      · rw [if_neg hkept]
        constructor
        · intro h
          exact nomatch congrArg Prod.fst h
        · rintro ⟨hhead, -⟩
          rcases stripReturn_lost.mp hhead with rfl | ⟨-, rfl⟩
          · exact absurd hwhole hkept
          · exact absurd (by decide +kernel) hkept
    · rw [if_neg hwhole, if_neg hwhole]
      by_cases hkept : validUtf8 (kept ++ [NEWLINE]) = true
      · rw [if_pos hkept]
        constructor
        · intro h
          exact nomatch congrArg Prod.fst h
        · rintro (rfl | hfalse)
          · exact absurd hkept hwhole
          · rw [hkept] at hfalse
            cases hfalse
      · rw [if_neg hkept]
        exact ⟨fun _ => .inr (Bool.not_eq_true _ ▸ hkept), fun _ => rfl⟩

/-- On a serial port a timeout drops the line it falls into. -/
theorem echo_spans {as : List (Arrival Bytes)} (hne : .data [] ∉ as) (lost line : Bytes) :
    echo (records NEWLINE line (as.map (Arrival.read .timedOut))) =
      echo ((spans lost line as).map keptRecord) := by
  induction as generalizing lost line with
  | nil => rfl
  | cons a as ih =>
    obtain ⟨ha, has⟩ := not_or.mp (mt List.mem_cons.mpr hne)
    cases a with
    | data b =>
      have hb : b ≠ [] := fun h => ha (h ▸ rfl)
      have hrecords : records NEWLINE line
          ((Arrival.data b :: as).map (Arrival.read .timedOut)) = _ :=
        records_bytes line b hb _
      rw [hrecords, spans]
      cases hlines : linesFrom NEWLINE line b with
      | nil => exact ih has lost _
      | cons l ls =>
        have hrest := echo_congr ((l :: ls).map (· ++ [NEWLINE]))
          (ih has [] (openFrom NEWLINE line b))
        rw [List.map_map] at hrest
        show _ = echo (keptRecord (lost, l) ::
          (ls.map (Prod.mk []) ++ spans [] (openFrom NEWLINE line b) as).map keptRecord)
        rw [List.map_append, List.map_map]
        exact hrest
    | interrupted => exact ih has lost line
    | silence => exact ih has (lost ++ line) []

/-- Without the timeouts the whole lines are read. -/
theorem records_spans {as : List (Arrival Bytes)} (hne : .data [] ∉ as) (lost line : Bytes) :
    records NEWLINE (lost ++ line)
        ((as.filter fun a => !a.isSilence).map (Arrival.read .timedOut)) =
      (spans lost line as).map wholeRecord := by
  induction as generalizing lost line with
  | nil => rfl
  | cons a as ih =>
    obtain ⟨ha, has⟩ := not_or.mp (mt List.mem_cons.mpr hne)
    cases a with
    | data b =>
      have hb : b ≠ [] := fun h => ha (h ▸ rfl)
      have hrecords : records NEWLINE (lost ++ line)
          (((Arrival.data b :: as).filter fun a => !a.isSilence).map
            (Arrival.read .timedOut)) = _ :=
        records_bytes (lost ++ line) b hb _
      rw [hrecords, spans]
      -- what was lost stands in front of the first line that ends, or of none
      have hbehind := @linesFrom_behind _ NEWLINE _ lost line b
      rcases hbehind with ⟨hnone, hnone', hopen⟩ | ⟨l, ls, hsome, hsome', hopen⟩
      · rw [hnone, hnone', hopen]
        exact ih has lost _
      · rw [hsome, hsome', hopen]
        have hrest := ih has [] (openFrom NEWLINE line b)
        rw [List.nil_append] at hrest
        rw [hrest, List.map_cons, List.map_cons, List.map_append, List.map_map]
        rfl
    | interrupted => exact ih has lost line
    | silence =>
      have hrest := ih has (lost ++ line) []
      rw [List.append_nil] at hrest
      exact hrest

namespace LogChannel

/-- A channel whose timeouts cost nothing.  On a serial port they must not cost a line
anything; on CAN none may come before the pump has ended, with a frame without data
between two lines or a line that is not text. -/
def SilenceCostsNothing (c : LogChannel) : Prop :=
  match c with
  | .serial _ => CostsNothing (spans [] [] c.arrivals)
  | .can _ =>
    .silence ∉ c.arrivals ∨
      ¬ ∀ s ∈ segments NEWLINE [] (Arrival.pieces (c.arrivals.takeWhile fun a => !a.isSilence)),
        Printable s

theorem arrivals_withoutSilence (c : LogChannel) :
    c.withoutSilence.arrivals = c.arrivals.filter fun a => !a.isSilence := by
  have hfilter {γ : Type} (f : γ → Bytes) (as : List (Arrival γ)) :
      (as.filter fun a => !a.isSilence).map (Arrival.map f) =
        (as.map (Arrival.map f)).filter fun a => !a.isSilence := by
    rw [List.filter_map]
    refine congrArg _ (List.filter_congr fun a _ => ?_)
    cases a <;> rfl
  cases c with
  | serial as => exact hfilter _ as
  | can as => exact hfilter _ as

theorem timeout_withoutSilence (c : LogChannel) : c.withoutSilence.timeout = c.timeout := by
  cases c <;> rfl

end LogChannel

theorem echo_ne_wouldBlock (ss : List Bytes) : (echo (ss.map .ok)).2 ≠ .failed .wouldBlock := by
  intro h
  by_cases hss : ∀ s ∈ ss, Printable s
  · rw [echo_waiting_iff.mpr hss] at h
    cases h
  · rcases (echo_stops hss []).2 with hdone | hfailed
    · rw [hdone] at h
      cases h
    · rw [hfailed] at h
      cases h

theorem isSilence_of_notMem {as : List (Arrival Bytes)} (h : .silence ∉ as) :
    ∀ a ∈ as, (!a.isSilence) = true := by
  intro a ha
  cases a with
  | silence => exact absurd ha h
  | _ => rfl

/-- On CAN a timeout ends the pump, unless the data before it has. -/
theorem echo_silence_iff (as : List (Arrival Bytes)) :
    echo (records NEWLINE [] (as.map (Arrival.read .wouldBlock))) =
        echo (records NEWLINE []
          ((as.filter fun a => !a.isSilence).map (Arrival.read .wouldBlock))) ↔
      .silence ∉ as ∨
        ¬ ∀ s ∈ segments NEWLINE [] (Arrival.pieces (as.takeWhile fun a => !a.isSilence)),
          Printable s := by
  by_cases hsilence : .silence ∈ as
  · obtain ⟨pre, post, rfl, hpre⟩ := List.eq_append_cons_of_mem hsilence
    have hnone := isSilence_of_notMem hpre
    have htake : ((pre ++ .silence :: post).takeWhile fun a => !a.isSilence) = pre := by
      rw [List.takeWhile_append_of_pos hnone]
      exact List.append_nil pre
    have hfilter : ((pre ++ .silence :: post).filter fun a => !a.isSilence) =
        pre ++ post.filter fun a => !a.isSilence := by
      rw [List.filter_append, List.filter_eq_self.mpr hnone]
      rfl
    have hpost : .silence ∉ post.filter fun a => !a.isSilence := fun hmem =>
      nomatch (List.mem_filter.mp hmem).2
    rw [htake, hfilter, List.map_append, List.map_append,
      LogChannel.records_arrivals hpre, LogChannel.records_arrivals hpre,
      LogChannel.records_quiet hpost]
    by_cases hall : ∀ s ∈ segments NEWLINE [] (Arrival.pieces pre), Printable s
    · constructor
      · intro heq
        rw [echo_printable hall, echo_printable hall] at heq
        have hout : Outcome.failed .wouldBlock = _ := congrArg Prod.snd heq
        exact absurd hout.symm (echo_ne_wouldBlock _)
      · rintro (hnever | hends)
        · exact absurd hsilence hnever
        · exact absurd hall hends
    · rw [(echo_stops hall _).1, (echo_stops hall _).1]
      exact ⟨fun _ => .inr hall, fun _ => rfl⟩
  · rw [List.filter_eq_self.mpr (isSilence_of_notMem hsilence)]
    exact ⟨fun _ => .inl hsilence, fun _ => rfl⟩

/-- **What silence costs.**  For either kind of log channel and any sequence of data,
interruptions and timeouts, the pump prints what it prints without the timeouts, and
stands where it stands then, exactly when they cost nothing. -/
theorem silence_iff (c : LogChannel) :
    pumpLogs c.reads = pumpLogs c.withoutSilence.reads ↔ c.SilenceCostsNothing := by
  rw [pumpLogs_eq, pumpLogs_eq, c.reads_eq, c.withoutSilence.reads_eq,
    c.arrivals_withoutSilence, c.timeout_withoutSilence, Option.some_inj]
  cases c with
  | serial as =>
    have hne : .data [] ∉ (LogChannel.serial as).arrivals := by
      rw [LogChannel.arrivals, LogChannel.mem_map_data]
      rintro ⟨b, -, hb⟩
      exact b.2 hb
    have hkept := echo_spans hne [] []
    have hwhole := records_spans hne [] []
    rw [List.nil_append] at hwhole
    rw [LogChannel.timeout, hkept, hwhole]
    exact echo_kept_iff _
  | can as => exact echo_silence_iff _

/-- A timeout in the middle of a line on a serial port, and one between two lines on CAN. -/
theorem silence_costs :
    (¬ ∀ as : List (Arrival Piece), pumpLogs (LogChannel.serial as).reads =
        pumpLogs (LogChannel.serial as).withoutSilence.reads) ∧
      ¬ ∀ as : List (Arrival CanFrame), pumpLogs (LogChannel.can as).reads =
        pumpLogs (LogChannel.can as).withoutSilence.reads := by
  constructor
  · intro h
    have hsame := h [.data ⟨[104], by decide⟩, .silence, .data ⟨[105, 10], by decide⟩]
    revert hsame
    decide +kernel
  · intro h
    have hsame := h [.silence, .data ⟨0x120#32, 3, #v[104, 105, 10, 0, 0, 0, 0, 0]⟩]
    revert hsame
    decide +kernel

end LogPump
end Runtt
