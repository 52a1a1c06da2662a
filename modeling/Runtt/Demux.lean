import Runtt.Wire

/-! # The log demultiplexer

`runtt_smp::demux`: one thread owns the read side of a shared link, cuts what arrives
into lines, queues the lines that carry a frame marker for the SMP client and hands the
others to the log.

The reads of the port are the list the pump is given.  The list may stop anywhere: that
is a pump still waiting, or asked to stop.  The queue outlives the thread, since dropping
a `LogDemux` joins it first, so a send never fails.
-/
namespace Runtt

open LineStream

namespace LogDemux

/-- What one read of the port returned. -/
inductive PortRead where
  /-- `Ok(n)`, with the `n` bytes; none of them is the end of the stream. -/
  | bytes (b : Bytes)
  /-- `TimedOut` or `WouldBlock`. -/
  | quiet
  /-- Any other error. -/
  | failed
  deriving DecidableEq, Repr

/-- What the pump does with a line. -/
inductive Routed where
  /-- `tx.send`: the line, with its terminator restored. -/
  | queued (line : Bytes)
  /-- `sink`. -/
  | logged (text : Bytes)
  deriving DecidableEq, Repr

def CARRIAGE_RETURN : UInt8 := 13

/-- `line.strip_suffix(b"\r").unwrap_or(&line)`. -/
def stripReturn (line : Bytes) : Bytes :=
  if line.getLast? = some CARRIAGE_RETURN then line.dropLast else line

/-- One byte of a read, behind the `line` so far. -/
def pumpByte (line : Bytes) (byte : UInt8) : List Routed × Bytes :=
  if byte ≠ NEWLINE then ([], line ++ [byte])
  else if isSmpLine line then ([.queued (line ++ [NEWLINE])], [])
  else
    let text := stripReturn line
    (if text ≠ [] then [.logged text] else [], [])

/-- The bytes of one read. -/
def pumpBytes (line : Bytes) : Bytes → List Routed × Bytes
  | [] => ([], line)
  | byte :: rest =>
    let (out, line) := pumpByte line byte
    let (outs, line) := pumpBytes line rest
    (out ++ outs, line)

/-- The pump, from the line so far. -/
def pump (line : Bytes) : List PortRead → List Routed
  | [] => []
  | .bytes [] :: _ => []
  | .bytes b :: reads =>
    let (out, line) := pumpBytes line b
    out ++ pump line reads
  | .quiet :: reads => pump line reads
  | .failed :: _ => []

/-- The bytes the pump got before the device went away. -/
def received : List PortRead → Bytes
  | [] => []
  | .bytes [] :: _ => []
  | .bytes b :: reads => b ++ received reads
  | .quiet :: reads => received reads
  | .failed :: _ => []

/-- The byte stream the queue carries to the SMP client. -/
def queue (out : List Routed) : Bytes :=
  out.flatMap fun
    | .queued line => line
    | .logged _ => []

/-! ## Line by line -/

/-- Where a line of the stream goes, if anywhere. -/
def route (line : Bytes) : Option Routed :=
  if isSmpLine line then some (.queued (line ++ [NEWLINE]))
  else if stripReturn line ≠ [] then some (.logged (stripReturn line))
  else none

theorem pumpByte_newline (line : Bytes) :
    pumpByte line NEWLINE = ((route line).toList, []) := by
  unfold pumpByte route
  by_cases hsmp : isSmpLine line = true
  · simp [hsmp]
  · by_cases htext : stripReturn line = []
    · simp [hsmp, htext]
    · simp [hsmp, htext]

/-- **One read**: the lines it completes, routed one by one, and what is left open. -/
theorem pumpBytes_eq (line b : Bytes) :
    pumpBytes line b = ((linesFrom NEWLINE line b).filterMap route, openFrom NEWLINE line b) := by
  induction b generalizing line with
  | nil => rfl
  | cons byte rest ih =>
    by_cases hbyte : byte = NEWLINE
    · subst hbyte
      simp only [pumpBytes, pumpByte_newline, ih]
      rw [linesFrom, if_pos rfl, List.filterMap_cons, openFrom_sep]
      cases route line <;> rfl
    · have hopen : pumpByte line byte = ([], line ++ [byte]) := if_pos hbyte
      simp only [pumpBytes, hopen, ih]
      rw [linesFrom, if_neg hbyte, openFrom_cons hbyte]
      rfl

/-- **The pump routes the lines of the stream, whatever the reads.** -/
theorem pump_eq (line : Bytes) (reads : List PortRead) :
    pump line reads = (linesFrom NEWLINE line (received reads)).filterMap route := by
  induction reads generalizing line with
  | nil => rfl
  | cons read reads ih =>
    cases read with
    | quiet => exact ih line
    | failed => rfl
    | bytes b =>
      cases b with
      | nil => rfl
      | cons byte rest =>
        simp only [pump, pumpBytes_eq, ih, received]
        rw [linesFrom_append_stream, List.filterMap_append]

/-- The lines the queue carries are the SMP lines of the stream, in order. -/
theorem lines_queue {ls : List Bytes} (h : ∀ line ∈ ls, NEWLINE ∉ line) :
    lines NEWLINE (queue (ls.filterMap route)) = ls.filter isSmpLine := by
  have hqueue : queue (ls.filterMap route) = terminated NEWLINE (ls.filter isSmpLine) := by
    clear h
    induction ls with
    | nil => rfl
    | cons line ls ih =>
      by_cases hsmp : isSmpLine line = true
      · have hroute : route line = some (.queued (line ++ [NEWLINE])) := if_pos hsmp
        rw [List.filterMap_cons, hroute, List.filter_cons_of_pos hsmp, terminated_cons, ← ih]
        simp [queue]
      · rw [List.filter_cons_of_neg hsmp, ← ih, List.filterMap_cons]
        by_cases htext : stripReturn line = []
        · have hroute : route line = none := by simp [route, hsmp, htext]
          rw [hroute]
        · have hroute : route line = some (.logged (stripReturn line)) := by
            simp [route, hsmp, htext]
          rw [hroute]
          rfl
  rw [hqueue]
  apply lines_terminated
  intro line hline
  exact h line (List.mem_of_mem_filter hline)

end LogDemux

/-! ## What the decoder makes of the lines -/

namespace Decoder
variable {e : Engine} {d : Decoder}

/-- The line becomes part of a packet: it starts one, or continues the one being
assembled. -/
def joins (d : Decoder) (line : Bytes) : Bool :=
  match line with
  | m₀ :: m₁ :: _ => [m₀, m₁] == MARKER_START || ([m₀, m₁] == MARKER_CONT && d.inPacket)
  | _ => false

theorem isSmpLine_of_joins {line : Bytes} (h : d.joins line = true) : isSmpLine line = true := by
  unfold joins at h
  split at h
  · rw [Bool.or_eq_true, Bool.and_eq_true] at h
    rw [isSmpLine, Bool.or_eq_true]
    exact h.imp id And.left
  · cases h

/-- The bodies and errors among the results. -/
def outcomes (results : List (Except Error (Option Bytes))) : List (Except Error Bytes) :=
  results.filterMap fun
    | .ok none => none
    | .ok (some body) => some (.ok body)
    | .error err => some (.error err)

/-- **Only the SMP lines matter to the decoder.** -/
theorem pushLines_filter (ls : List Bytes) :
    outcomes (d.pushLines e (ls.filter isSmpLine)).1 = outcomes (d.pushLines e ls).1 ∧
      (d.pushLines e (ls.filter isSmpLine)).2 = (d.pushLines e ls).2 := by
  induction ls generalizing d with
  | nil => exact ⟨rfl, rfl⟩
  | cons line ls ih =>
    by_cases hsmp : isSmpLine line = true
    · rw [List.filter_cons_of_pos hsmp]
      obtain ⟨hout, hend⟩ := ih (d := (d.pushLine e line).2)
      refine ⟨?_, hend⟩
      simp only [pushLines, outcomes, List.filterMap_cons] at hout ⊢
      rw [hout]
    · rw [List.filter_cons_of_neg hsmp]
      have hlog := pushLine_log (e := e) (d := d) (Bool.not_eq_true _ ▸ hsmp)
      simp only [pushLines, hlog]
      exact ih

end Decoder

namespace LogDemux

/-- **The demux is transparent to SMP.**  Whatever arrives and however the port cuts it
into reads: a decoder fed the lines the demux queues ends where one fed every line of
the stream ends, with the same bodies and errors in the same order; and the pump deals
with each line on its own, queueing every one that joins a packet. -/
theorem transparent (e : Engine) (d : Decoder) (reads : List PortRead) :
    Decoder.outcomes (d.pushLines e (lines NEWLINE (queue (pump [] reads)))).1 =
        Decoder.outcomes (d.pushLines e (lines NEWLINE (received reads))).1 ∧
      (d.pushLines e (lines NEWLINE (queue (pump [] reads)))).2 =
        (d.pushLines e (lines NEWLINE (received reads))).2 ∧
      pump [] reads = (lines NEWLINE (received reads)).filterMap route ∧
      ∀ before line after, lines NEWLINE (received reads) = before ++ line :: after →
        (d.pushLines e before).2.joins line = true →
        route line = some (.queued (line ++ [NEWLINE])) := by
  have hpump : pump [] reads = (lines NEWLINE (received reads)).filterMap route := pump_eq [] reads
  have hqueue : lines NEWLINE (queue (pump [] reads)) =
      (lines NEWLINE (received reads)).filter isSmpLine := by
    rw [hpump]
    exact lines_queue fun line hline => notMem_of_mem_lines hline
  rw [hqueue]
  obtain ⟨hout, hend⟩ := Decoder.pushLines_filter (e := e) (d := d) (lines NEWLINE (received reads))
  refine ⟨hout, hend, hpump, ?_⟩
  intro before line after _ hjoins
  exact if_pos (Decoder.isSmpLine_of_joins hjoins)

end LogDemux
end Runtt
