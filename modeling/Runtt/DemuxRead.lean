import Runtt.Demux
import Runtt.LineReader

/-! # Both sides of the log demultiplexer

The pump and the SMP client of a `LogDemux` side by side: the pump deals with the bytes of
each read one at a time and sends whole lines; the client reads from what it has of the
last line it took, and takes the next one from the channel.  A `Run` interleaves their
steps in any way.

Every state of a run accounts for the bytes received (`Accounts`): what was routed is
what the lines received so far say, and what was sent was delivered or still waits.
-/
namespace Runtt

open LineStream
open LineReader (ErrorKind)

namespace LogDemux

/-! ## The lines of each side -/

/-- The lines sent. -/
def queuedLines (out : List Routed) : List Bytes :=
  out.filterMap fun
    | .queued line => some line
    | .logged _ => none

/-- The texts handed to the sink. -/
def loggedTexts (out : List Routed) : List Bytes :=
  out.filterMap fun
    | .queued _ => none
    | .logged text => some text

theorem flatten_queuedLines (out : List Routed) : (queuedLines out).flatten = queue out := by
  induction out with
  | nil => rfl
  | cons r out ih =>
    cases r with
    | queued line => exact congrArg (line ++ ·) ih
    | logged text => exact ih

/-- The lines sent for a stream are its SMP lines, each with its newline. -/
theorem queuedLines_route (ls : List Bytes) :
    queuedLines (ls.filterMap route) = (ls.filter isSmpLine).map (· ++ [NEWLINE]) := by
  rw [queuedLines, List.filterMap_filterMap, ← List.filterMap_eq_map, List.filterMap_filter]
  refine List.filterMap_congr fun line _ => ?_
  by_cases hsmp : isSmpLine line = true
  · simp [route, hsmp]
  · by_cases htext : stripReturn line = []
    · simp [route, hsmp, htext]
    · simp [route, hsmp, htext]

/-- The sink gets the others, without a carriage return at the end, unless they are empty. -/
theorem loggedTexts_route (ls : List Bytes) :
    loggedTexts (ls.filterMap route) =
      ((ls.filter fun line => !isSmpLine line).map stripReturn).filter (· ≠ []) := by
  rw [loggedTexts, List.filterMap_filterMap, List.filter_map, ← List.filterMap_eq_map,
    List.filter_filter, List.filterMap_filter]
  refine List.filterMap_congr fun line _ => ?_
  by_cases hsmp : isSmpLine line = true
  · simp [route, hsmp]
  · by_cases htext : stripReturn line = []
    · simp [route, hsmp, htext]
    · simp [route, hsmp, htext]

/-! ## Steps -/

/-- The pump and the client between two steps. -/
structure Shared where
  /-- What the pump has still to deal with of its last read. -/
  buf : Bytes
  /-- The line it has so far. -/
  line : Bytes
  /-- It has not returned, and holds the sender. -/
  running : Bool
  /-- The lines in the channel. -/
  smp : List Bytes
  /-- What the client has of the line it took last. -/
  pending : Bytes
  deriving DecidableEq, Repr

namespace Shared

def fresh : Shared := ⟨[], [], true, [], []⟩

/-- A read of the port returns. -/
def hear (s : Shared) : PortRead → Shared
  | .bytes [] => { s with running := false }
  | .bytes b => { s with buf := b }
  | .quiet => s
  | .failed => { s with running := false }

/-- The pump has dealt with a byte: what it did, and what is behind the byte. -/
def route (s : Shared) (routed : List Routed × Bytes) (rest : Bytes) : Shared :=
  { s with buf := rest, line := routed.2, smp := s.smp ++ queuedLines routed.1 }

/-- The end of `LogDemux::read`. -/
def drain (s : Shared) (size : Nat) : Except ErrorKind Bytes × Shared :=
  let n := min size s.pending.length
  (.ok (s.pending.take n), { s with pending := s.pending.drop n })

/-- `LogDemux::read`, when the wait for a line is over. -/
def read (s : Shared) (size : Nat) : Except ErrorKind Bytes × Shared :=
  if s.pending = [] then
    match s.smp with
    | line :: smp => drain { s with pending := line, smp := smp } size
    | [] => if s.running then (.error .timedOut, s) else (.ok [], s)
  else s.drain size

end Shared

/-- What happens on either side. -/
inductive Event where
  | heard (read : PortRead)
  | routed (out : List Routed)
  | answered (size : Nat) (result : Except ErrorKind Bytes)
  deriving DecidableEq

/-- One step of the pump, or one read of the client, whose buffer is not empty. -/
inductive Step : Shared → Event → Shared → Prop where
  | hear {s : Shared} {read : PortRead} (hbuf : s.buf = []) (hrunning : s.running = true) :
      Step s (.heard read) (s.hear read)
  | route {s : Shared} {byte : UInt8} {rest : Bytes} (hbuf : s.buf = byte :: rest) :
      Step s (.routed (pumpByte s.line byte).1) (s.route (pumpByte s.line byte) rest)
  | answer {s : Shared} {size : Nat} (hsize : 0 < size) :
      Step s (.answered size (s.read size).1) (s.read size).2

/-- What has happened since the demux was made. -/
inductive Run : List Event → Shared → Prop where
  | start : Run [] .fresh
  | step {es : List Event} {s s' : Shared} {e : Event} (h : Run es s) (hstep : Step s e s') :
      Run (es ++ [e]) s'

/-- The reads of the port. -/
def heard (es : List Event) : List PortRead :=
  es.filterMap fun
    | .heard read => some read
    | _ => none

/-- What the pump did. -/
def routed (es : List Event) : List Routed :=
  es.flatMap fun
    | .routed out => out
    | _ => []

/-- The bytes the client got. -/
def delivered (es : List Event) : Bytes :=
  es.flatMap fun
    | .answered _ (.ok bytes) => bytes
    | _ => []

/-! ## What a run accounts for -/

/-- A read after which the pump returns. -/
def PortRead.ends : PortRead → Bool
  | .bytes b => b.isEmpty
  | .quiet => false
  | .failed => true

theorem received_append {reads : List PortRead} (h : ∀ r ∈ reads, r.ends = false)
    (more : List PortRead) : received (reads ++ more) = received reads ++ received more := by
  induction reads with
  | nil => rfl
  | cons r reads ih =>
    obtain ⟨hr, hreads⟩ := List.forall_mem_cons.mp h
    rcases r with (_ | ⟨b, bs⟩) | _ | _
    · cases hr
    · rw [List.cons_append, received, received, ih hreads, List.append_assoc]
      · intro hnil
        cases hnil
      · intro hnil
        cases hnil
    · exact ih hreads
    · cases hr

/-- The state of a run accounts for every byte received. -/
structure Accounts (es : List Event) (s : Shared) : Prop where
  /-- What was routed, and what the rest of the last read will be. -/
  routing : routed es ++ (linesFrom NEWLINE s.line s.buf).filterMap LogDemux.route =
    (lines NEWLINE (received (heard es))).filterMap LogDemux.route
  openLine : openFrom NEWLINE s.line s.buf = openFrom NEWLINE [] (received (heard es))
  alive : s.running = true → ∀ r ∈ heard es, r.ends = false
  stopped : s.running = false → s.buf = [] ∧ ∃ r ∈ heard es, r.ends = true
  /-- What was sent was delivered, or waits. -/
  sent : delivered es ++ (s.pending ++ s.smp.flatten) = queue (routed es)
  lines_ne_nil : ∀ line ∈ s.smp, line ≠ []

theorem heard_concat (es : List Event) (e : Event) : heard (es ++ [e]) = heard es ++ heard [e] :=
  List.filterMap_append

theorem routed_concat (es : List Event) (e : Event) :
    routed (es ++ [e]) = routed es ++ routed [e] := List.flatMap_append

theorem delivered_concat (es : List Event) (e : Event) :
    delivered (es ++ [e]) = delivered es ++ delivered [e] := List.flatMap_append

variable {es : List Event} {s : Shared}

theorem Accounts.hear (h : Accounts es s) (hbuf : s.buf = []) (hrunning : s.running = true)
    (read : PortRead) : Accounts (es ++ [.heard read]) (s.hear read) := by
  have hall := h.alive hrunning
  have hrec : received (heard es ++ [read]) = received (heard es) ++ received [read] :=
    received_append hall [read]
  have hrouting := h.routing
  have hopen := h.openLine
  rw [hbuf] at hrouting hopen
  have hrouted : routed (es ++ [.heard read]) = routed es := by
    rw [routed_concat]
    exact List.append_nil _
  have hheard : heard (es ++ [.heard read]) = heard es ++ [read] := heard_concat es _
  have hdelivered : delivered (es ++ [.heard read]) = delivered es := by
    rw [delivered_concat]
    exact List.append_nil _
  have halive (hgoes : read.ends = false) :
      ∀ r ∈ heard (es ++ [.heard read]), r.ends = false := by
    rw [hheard]
    exact List.forall_mem_append.mpr ⟨hall, List.forall_mem_singleton.mpr hgoes⟩
  -- a read that ends the pump leaves the lines as they are
  have hends (hend : read.ends = true) (hnone : received [read] = [])
      (hs : s.hear read = { s with running := false }) :
      Accounts (es ++ [.heard read]) (s.hear read) := by
    rw [hs]
    rw [hnone, List.append_nil] at hrec
    refine ⟨?_, ?_, (fun hfalse => nomatch hfalse), fun _ => ⟨hbuf, read, ?_, hend⟩, ?_,
      h.lines_ne_nil⟩
    · rw [hrouted, hheard, hrec, hbuf]
      exact hrouting
    · rw [hheard, hrec, hbuf]
      exact hopen
    · rw [hheard]
      exact List.mem_append_right _ List.mem_cons_self
    · rw [hrouted, hdelivered]
      exact h.sent
  rcases read with (_ | ⟨b, bs⟩) | _ | _
  · exact hends rfl rfl rfl
  · -- more bytes to deal with
    have hbytes : received [PortRead.bytes (b :: bs)] = b :: bs := List.append_nil _
    rw [hbytes] at hrec
    refine ⟨?_, ?_, fun _ => halive rfl, fun hfalse => ?_, ?_, h.lines_ne_nil⟩
    · have hline : openFrom NEWLINE [] (received (heard es)) = s.line := hopen.symm
      rw [hrouted, hheard, hrec, lines, linesFrom_append_stream, List.filterMap_append, hline]
      have hold : routed es = (linesFrom NEWLINE [] (received (heard es))).filterMap
          LogDemux.route := (List.append_nil _).symm.trans hrouting
      rw [← hold]
      rfl
    · rw [hheard, hrec, openFrom_append, ← hopen]
      rfl
    · exact absurd hrunning (Bool.not_eq_true _ ▸ hfalse)
    · rw [hrouted, hdelivered]
      exact h.sent
  · -- a quiet link
    have hnone : received [PortRead.quiet] = [] := rfl
    rw [hnone, List.append_nil] at hrec
    refine ⟨?_, ?_, fun _ => halive rfl, fun hfalse => ?_, ?_, h.lines_ne_nil⟩
    · rw [hrouted, hheard, hrec]
      exact h.routing
    · rw [hheard, hrec]
      exact h.openLine
    · exact absurd hrunning (Bool.not_eq_true _ ▸ hfalse)
    · rw [hrouted, hdelivered]
      exact h.sent
  · exact hends rfl rfl rfl

theorem Accounts.route (h : Accounts es s) {byte : UInt8} {rest : Bytes}
    (hbuf : s.buf = byte :: rest) :
    Accounts (es ++ [.routed (pumpByte s.line byte).1]) (s.route (pumpByte s.line byte) rest) := by
  have hrouting := h.routing
  have hopen := h.openLine
  rw [hbuf] at hrouting hopen
  have hheard : heard (es ++ [.routed (pumpByte s.line byte).1]) = heard es := by
    rw [heard_concat]
    exact List.append_nil _
  have hdelivered : delivered (es ++ [.routed (pumpByte s.line byte).1]) = delivered es := by
    rw [delivered_concat]
    exact List.append_nil _
  have hrouted : routed (es ++ [.routed (pumpByte s.line byte).1]) =
      routed es ++ (pumpByte s.line byte).1 := by
    rw [routed_concat]
    exact congrArg _ (List.append_nil _)
  have hrunning (hstop : s.running = false) : False := by
    have hempty := (h.stopped hstop).1
    rw [hbuf] at hempty
    cases hempty
  have hqueue : queue (routed es ++ (pumpByte s.line byte).1) =
      queue (routed es) ++ (queuedLines (pumpByte s.line byte).1).flatten := by
    rw [flatten_queuedLines, queue, List.flatMap_append]
    rfl
  refine ⟨?_, ?_, ?_, fun hstop => (hrunning hstop).elim, ?_, ?_⟩
  · rw [hrouted, hheard, ← hrouting]
    show _ ++ (linesFrom NEWLINE (pumpByte s.line byte).2 rest).filterMap _ = _
    by_cases hbyte : byte = NEWLINE
    · subst hbyte
      rw [pumpByte_newline, linesFrom, if_pos rfl, List.append_assoc, List.filterMap_cons]
      cases LogDemux.route s.line <;> rfl
    · have hpump : pumpByte s.line byte = ([], s.line ++ [byte]) := if_pos hbyte
      rw [hpump, linesFrom, if_neg hbyte, List.append_nil]
  · rw [hheard, ← hopen]
    show openFrom NEWLINE (pumpByte s.line byte).2 rest = _
    by_cases hbyte : byte = NEWLINE
    · subst hbyte
      rw [pumpByte_newline, openFrom_sep]
    · have hpump : pumpByte s.line byte = ([], s.line ++ [byte]) := if_pos hbyte
      rw [hpump, openFrom_cons hbyte]
  · rw [hheard]
    exact h.alive
  · rw [hdelivered, hrouted, hqueue, ← h.sent]
    show _ ++ (_ ++ (s.smp ++ queuedLines _).flatten) = _
    rw [List.flatten_append, List.append_assoc, List.append_assoc]
    rfl
  · intro line hline
    rcases List.mem_append.mp hline with hline | hline
    · exact h.lines_ne_nil line hline
    · by_cases hbyte : byte = NEWLINE
      · subst hbyte
        have hone : (LogDemux.route s.line).toList = [s.line].filterMap LogDemux.route := by
          rw [List.filterMap_cons]
          cases LogDemux.route s.line <;> rfl
        rw [pumpByte_newline, hone, queuedLines_route] at hline
        obtain ⟨l, -, rfl⟩ := List.mem_map.mp hline
        exact List.append_ne_nil_of_right_ne_nil _ (List.cons_ne_nil _ _)
      · have hpump : pumpByte s.line byte = ([], s.line ++ [byte]) := if_pos hbyte
        rw [hpump] at hline
        cases hline

/-- Bytes that are pending are handed out, at least one of them. -/
theorem Shared.drain_spec {size : Nat} (hpending : s.pending ≠ []) (hsize : 0 < size) :
    ∃ bytes rest, bytes ≠ [] ∧ s.drain size = (.ok bytes, { s with pending := rest }) ∧
      bytes ++ rest = s.pending := by
  refine ⟨_, _, fun hnil => ?_, rfl, List.take_append_drop _ _⟩
  have hlen := List.length_pos_of_ne_nil hpending
  have hzero := congrArg List.length hnil
  rw [List.length_take, List.length_nil] at hzero
  omega

/-- What a read of the client does: it hands out bytes, if some are pending or a line
waits; it times out, as long as the pump may send more; or it is at the end. -/
theorem Shared.read_cases (s : Shared) (hlines : ∀ line ∈ s.smp, line ≠ []) {size : Nat}
    (hsize : 0 < size) :
    (∃ bytes pending smp, bytes ≠ [] ∧
        s.read size = (.ok bytes, { s with pending := pending, smp := smp }) ∧
        bytes ++ (pending ++ smp.flatten) = s.pending ++ s.smp.flatten ∧ smp <:+ s.smp) ∨
      (s.pending = [] ∧ s.smp = [] ∧
        s.read size = (if s.running then .error .timedOut else .ok [], s)) := by
  by_cases hpending : s.pending = []
  · cases hsmp : s.smp with
    | nil =>
      refine .inr ⟨hpending, rfl, ?_⟩
      rw [read, if_pos hpending, hsmp]
      cases s.running <;> rfl
    | cons line smp =>
      have hline : line ≠ [] := hlines line (hsmp ▸ List.mem_cons_self)
      obtain ⟨bytes, rest, hne, hdrain, hkept⟩ :=
        drain_spec (s := { s with pending := line, smp := smp }) hline hsize
      refine .inl ⟨bytes, rest, smp, hne, ?_, ?_, List.suffix_cons line smp⟩
      · rw [read, if_pos hpending, hsmp]
        exact hdrain
      · rw [← List.append_assoc, hkept, hpending]
        rfl
  · obtain ⟨bytes, rest, hne, hdrain, hkept⟩ := drain_spec hpending hsize
    refine .inl ⟨bytes, rest, s.smp, hne, ?_, ?_, List.suffix_refl _⟩
    · rw [read, if_neg hpending]
      exact hdrain
    · rw [← List.append_assoc, hkept]

/-- A read of the client that keeps what was sent accounted for. -/
theorem Accounts.handed (h : Accounts es s) {size : Nat} {result : Except ErrorKind Bytes}
    {pending : Bytes} {smp : List Bytes} (hsuffix : smp <:+ s.smp)
    (hkept : delivered [.answered size result] ++ (pending ++ smp.flatten) =
      s.pending ++ s.smp.flatten) :
    Accounts (es ++ [.answered size result]) { s with pending := pending, smp := smp } := by
  have hheard : heard (es ++ [.answered size result]) = heard es := by
    rw [heard_concat]
    exact List.append_nil _
  have hrouted : routed (es ++ [.answered size result]) = routed es := by
    rw [routed_concat]
    exact List.append_nil _
  refine ⟨?_, ?_, ?_, ?_, ?_, fun line hline => h.lines_ne_nil line (hsuffix.subset hline)⟩
  · rw [hrouted, hheard]
    exact h.routing
  · rw [hheard]
    exact h.openLine
  · rw [hheard]
    exact h.alive
  · rw [hheard]
    exact h.stopped
  · rw [delivered_concat, List.append_assoc, hkept, hrouted]
    exact h.sent

theorem Accounts.answer (h : Accounts es s) {size : Nat} (hsize : 0 < size) :
    Accounts (es ++ [.answered size (s.read size).1]) (s.read size).2 := by
  rcases s.read_cases h.lines_ne_nil hsize with
    ⟨bytes, pending, smp, -, hread, hkept, hsuffix⟩ | ⟨-, -, hread⟩
  · have hone : delivered [.answered size (.ok bytes)] = bytes := List.append_nil _
    rw [hread]
    exact h.handed hsuffix (by rw [hone, hkept])
  · rw [hread]
    cases s.running with
    | true => exact h.handed (List.suffix_refl _) rfl
    | false => exact h.handed (List.suffix_refl _) rfl

/-- **Every run accounts for the bytes received.** -/
theorem Run.accounts (h : Run es s) : Accounts es s := by
  induction h with
  | start =>
    exact ⟨rfl, rfl, (fun _ _ hr => nomatch hr), (fun hstop => nomatch hstop), rfl,
      (fun _ hline => nomatch hline)⟩
  | step _ hstep ih =>
    cases hstep with
    | hear hbuf hrunning => exact ih.hear hbuf hrunning _
    | route hbuf => exact ih.route hbuf
    | answer hsize => exact ih.answer hsize

/-- **The demux routes exactly the lines of the stream, and delivers what it queues.**  In
every run of the pump and its client, whatever the reads of the port and the buffers of
the client: what the pump has done are the first lines received, and all of them when it
has dealt with its last read; it sends the SMP lines with their newlines, and the sink
gets the others without a carriage return, unless they are empty; the bytes delivered,
pending and waiting make up the lines sent; a read of the client returns bytes as long
as some wait; and it is at the end only when the pump has ended and every line of the
stream that goes to the client was delivered. -/
theorem routing_exact (h : Run es s) :
    routed es <+: (lines NEWLINE (received (heard es))).filterMap route ∧
      (s.buf = [] →
        queuedLines (routed es) =
            ((lines NEWLINE (received (heard es))).filter isSmpLine).map (· ++ [NEWLINE]) ∧
          loggedTexts (routed es) =
            (((lines NEWLINE (received (heard es))).filter fun line => !isSmpLine line).map
              stripReturn).filter (· ≠ [])) ∧
      delivered es ++ (s.pending ++ s.smp.flatten) = (queuedLines (routed es)).flatten ∧
      (∀ size, 0 < size → s.pending ++ s.smp.flatten ≠ [] →
        ∃ bytes, bytes ≠ [] ∧ (s.read size).1 = .ok bytes) ∧
      ∀ size, 0 < size → (s.read size).1 = .ok [] →
        s.running = false ∧ s.buf = [] ∧ delivered es = (queuedLines (routed es)).flatten := by
  have hacc := h.accounts
  refine ⟨⟨_, hacc.routing⟩, fun hbuf => ?_, ?_, ?_, ?_⟩
  · have hall := hacc.routing
    rw [hbuf] at hall
    have heq : routed es = _ := (List.append_nil _).symm.trans hall
    rw [heq]
    exact ⟨queuedLines_route _, loggedTexts_route _⟩
  · rw [flatten_queuedLines]
    exact hacc.sent
  · intro size hsize hwaits
    rcases s.read_cases hacc.lines_ne_nil hsize with
      ⟨bytes, pending, smp, hne, hread, -⟩ | ⟨hpending, hsmp, -⟩
    · exact ⟨bytes, hne, congrArg Prod.fst hread⟩
    · rw [hpending, hsmp] at hwaits
      exact absurd rfl hwaits
  · intro size hsize hend
    rcases s.read_cases hacc.lines_ne_nil hsize with
      ⟨bytes, pending, smp, hne, hread, -⟩ | ⟨hpending, hsmp, hread⟩
    · rw [hread] at hend
      exact absurd (Except.ok.inj hend) hne
    · rw [hread] at hend
      have hstopped : s.running = false := by
        cases hrunning : s.running with
        | true =>
          rw [hrunning] at hend
          cases hend
        | false => rfl
      have hsent := hacc.sent
      rw [hpending, hsmp] at hsent
      refine ⟨hstopped, (hacc.stopped hstopped).1, ?_⟩
      rw [flatten_queuedLines, ← hsent]
      exact (List.append_nil _).symm

/-- One SMP line, read in two pieces, the second when the port is gone. -/
theorem routing_exact_pieces :
    delivered [.heard (.bytes [6, 9, 10]), .routed [], .routed [], .routed [.queued [6, 9, 10]],
        .answered 2 (.ok [6, 9]), .heard .failed, .answered 5 (.ok [10])] = [6, 9, 10] := by
  have h₁ := Run.start.step (@Step.hear _ (.bytes [6, 9, 10]) rfl rfl)
  have h₂ := (h₁.step (.route rfl)).step (.route rfl)
  have h₃ := (h₂.step (.route rfl)).step (@Step.answer _ 2 (by decide))
  have h₄ := (h₃.step (@Step.hear _ .failed rfl rfl)).step (@Step.answer _ 5 (by decide))
  obtain ⟨-, -, hsent, -⟩ := routing_exact h₄
  exact (List.append_nil _).symm.trans hsent

end LogDemux
end Runtt
