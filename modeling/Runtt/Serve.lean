import Runtt.Server
import Runtt.Wire

/-! # The loop of the emulated device

`Server::serve`: bytes are read in chunks into a queue and taken from it one by one; a
line goes to the decoder, a packet to the dispatcher.  A host that disconnects takes the
partial line and the partial packet with it.

What is dispatched depends on the bytes between two disconnects alone
(`serve_eq_stretches`).
-/
namespace Runtt

/-- What one read of the link returned to the server. -/
inductive HostRead where
  /-- `Ok(n)`, with the `n` bytes; none of them is a host that went away. -/
  | bytes (b : Bytes)
  /-- `TimedOut` or `Interrupted`. -/
  | idle
  /-- Any other error: the host went away. -/
  | failed
  deriving DecidableEq, Repr

/-- The server in its loop. -/
structure ServeLoop where
  srv : Server
  decoder : Decoder
  line : Bytes
  /-- Responses written so far. -/
  written : Nat
  deriving DecidableEq, Repr

namespace ServeLoop

/-- An empty line buffer and a new decoder. -/
def forget (s : ServeLoop) : ServeLoop := { s with decoder := .new, line := [] }

variable (sha256 : Bytes → Bytes) (cbor : Cbor) (e : Engine) (wrote : Nat → Bool)

/-- The rest of an iteration, once a frame has been dispatched.  `wrote` says which of the
responses the link takes; `serve` returns the error of one that it does not. -/
def respond (s : ServeLoop) : Except Halt (Option Frame × Server) → Option ServeLoop
  | .error _ => none
  | .ok (none, srv) => some { s with srv }
  | .ok (some resp, srv) =>
    match encode e resp MAX_LINE with
    | .error _ => none
    | .ok _ => if wrote s.written then some { s with srv, written := s.written + 1 } else none

/-- The rest of an iteration, once a line is complete: the requests dispatched, at most
one, and the loop, unless it has ended. -/
def request (s : ServeLoop) : Except Error (Option Bytes) → List Frame × Option ServeLoop
  | .ok (some body) =>
    match Frame.parse body with
    | .ok req =>
      if s.srv.silent || s.srv.withholds (req.group, req.cmd) then ([], some s)
      else ([req], s.respond e wrote (s.srv.dispatch sha256 cbor req))
    | .error _ => ([], some s)
  | .ok none => ([], some s)
  | .error _ => ([], some s)

/-- One iteration, for the byte taken from the queue. -/
def takeByte (s : ServeLoop) (b : UInt8) : List Frame × Option ServeLoop :=
  if b ≠ NEWLINE then ([], some { s with line := s.line ++ [b] })
  else
    let (complete, decoder) := s.decoder.pushLine e s.line
    request sha256 cbor e wrote { s with decoder, line := [] } complete

/-- Iterations until the queue is empty. -/
def drain (s : ServeLoop) : Bytes → List Frame × Option ServeLoop
  | [] => ([], some s)
  | b :: pending =>
    match s.takeByte sha256 cbor e wrote b with
    | (out, none) => (out, none)
    | (out, some s') =>
      let (outs, last) := drain s' pending
      (out ++ outs, last)

/-- `serve`, over the reads of the link: the requests dispatched, and the loop after them,
unless it has ended.  It reads only when the queue is empty. -/
def serve (s : ServeLoop) : List HostRead → List Frame × Option ServeLoop
  | [] => ([], some s)
  | .bytes [] :: reads => serve s.forget reads
  | .bytes pending :: reads =>
    match s.drain sha256 cbor e wrote pending with
    | (out, none) => (out, none)
    | (out, some s') =>
      let (outs, last) := serve s' reads
      (out ++ outs, last)
  | .idle :: reads => serve s reads
  | .failed :: reads => serve s.forget reads

end ServeLoop

/-! ## Stretches between disconnects -/

/-- The host went away. -/
def HostRead.gone : HostRead → Bool
  | .bytes b => b.isEmpty
  | .idle => false
  | .failed => true

/-- The bytes up to the first disconnect, and those between later ones. -/
def stretches : List HostRead → Bytes × List Bytes
  | [] => ([], [])
  | r :: reads =>
    let (first, later) := stretches reads
    if r.gone then ([], first :: later)
    else
      match r with
      | .bytes b => (b ++ first, later)
      | _ => (first, later)

namespace ServeLoop
variable (sha256 : Bytes → Bytes) (cbor : Cbor) (e : Engine) (wrote : Nat → Bool)

/-- Goes on with what is left of the loop, if it has not ended. -/
def thenServe (p : List Frame × Option ServeLoop)
    (next : ServeLoop → List Frame × Option ServeLoop) : List Frame × Option ServeLoop :=
  match p with
  | (out, none) => (out, none)
  | (out, some s) => (out ++ (next s).1, (next s).2)

/-- A server that is handed whole stretches, and starts each with an empty line buffer and
a new decoder. -/
def serveStretches (s : ServeLoop) (first : Bytes) : List Bytes → List Frame × Option ServeLoop
  | [] => s.drain sha256 cbor e wrote first
  | next :: later =>
    thenServe (s.drain sha256 cbor e wrote first) fun s' => serveStretches s'.forget next later

variable {sha256 cbor e wrote} {s : ServeLoop}

theorem thenServe_assoc (p : List Frame × Option ServeLoop)
    (f g : ServeLoop → List Frame × Option ServeLoop) :
    thenServe (thenServe p f) g = thenServe p fun s => thenServe (f s) g := by
  rcases p with ⟨out, _ | s⟩
  · rfl
  · simp only [thenServe]
    rcases f s with ⟨outs, _ | s'⟩
    · rfl
    · simp [List.append_assoc]

theorem drain_cons (b : UInt8) (pending : Bytes) :
    s.drain sha256 cbor e wrote (b :: pending) =
      thenServe (s.takeByte sha256 cbor e wrote b) fun s' =>
        s'.drain sha256 cbor e wrote pending := by
  rw [drain]
  rcases s.takeByte sha256 cbor e wrote b with ⟨out, _ | s'⟩
  · rfl
  · rfl

/-- A read that brings bytes. -/
theorem serve_bytes {pending : Bytes} (h : pending ≠ []) (reads : List HostRead) :
    s.serve sha256 cbor e wrote (.bytes pending :: reads) =
      thenServe (s.drain sha256 cbor e wrote pending) fun s' =>
        s'.serve sha256 cbor e wrote reads := by
  rw [serve]
  · rcases s.drain sha256 cbor e wrote pending with ⟨out, _ | s'⟩
    · rfl
    · rfl
  · exact h

theorem drain_append (b b' : Bytes) :
    s.drain sha256 cbor e wrote (b ++ b') =
      thenServe (s.drain sha256 cbor e wrote b) fun s' => s'.drain sha256 cbor e wrote b' := by
  induction b generalizing s with
  | nil => rfl
  | cons x b ih =>
    rw [List.cons_append, drain_cons, drain_cons, thenServe_assoc]
    exact congrArg (thenServe _) (funext fun s' => ih)

/-- Bytes in front of a stretch. -/
theorem serveStretches_append (b first : Bytes) (later : List Bytes) :
    s.serveStretches sha256 cbor e wrote (b ++ first) later =
      thenServe (s.drain sha256 cbor e wrote b) fun s' =>
        s'.serveStretches sha256 cbor e wrote first later := by
  cases later with
  | nil => exact drain_append b first
  | cons next later =>
    rw [serveStretches, drain_append, thenServe_assoc]
    rfl

/-- **The loop dispatches what the stretches say.** -/
theorem serve_eq_stretches (reads : List HostRead) :
    s.serve sha256 cbor e wrote reads =
      s.serveStretches sha256 cbor e wrote (stretches reads).1 (stretches reads).2 := by
  induction reads generalizing s with
  | nil => rfl
  | cons r reads ih =>
    rcases r with (_ | ⟨b, bs⟩) | _ | _
    · exact ih
    · have hstretches : stretches (.bytes (b :: bs) :: reads) =
          (b :: bs ++ (stretches reads).1, (stretches reads).2) := rfl
      rw [hstretches, serveStretches_append, serve_bytes (List.cons_ne_nil b bs)]
      exact congrArg (thenServe _) (funext fun s' => ih)
    · exact ih
    · exact ih

theorem serve_append (before after : List HostRead) :
    s.serve sha256 cbor e wrote (before ++ after) =
      thenServe (s.serve sha256 cbor e wrote before) fun s' =>
        s'.serve sha256 cbor e wrote after := by
  induction before generalizing s with
  | nil => rfl
  | cons r before ih =>
    rcases r with (_ | ⟨b, bs⟩) | _ | _
    · exact ih
    · rw [List.cons_append, serve_bytes (List.cons_ne_nil b bs),
        serve_bytes (List.cons_ne_nil b bs), thenServe_assoc]
      exact congrArg (thenServe _) (funext fun s' => ih)
    · exact ih
    · exact ih

/-- **Read boundaries do not matter, and a host that vanished is forgotten.**  Reads that
bring the same bytes between the same disconnects, in whatever pieces and with whatever
timeouts and interruptions, dispatch the same requests and leave the same loop; and
after a disconnect the loop goes on with an empty line buffer and a new decoder,
whatever came before. -/
theorem insensitive_and_forgets {reads reads' : List HostRead}
    (hsame : stretches reads = stretches reads') (s : ServeLoop) :
    s.serve sha256 cbor e wrote reads = s.serve sha256 cbor e wrote reads' ∧
      ∀ r after, r.gone = true →
        s.serve sha256 cbor e wrote (reads ++ r :: after) =
          thenServe (s.serve sha256 cbor e wrote reads) fun s' =>
            serve sha256 cbor e wrote { s' with decoder := .new, line := [] } after := by
  refine ⟨?_, fun r after hgone => ?_⟩
  · rw [serve_eq_stretches, serve_eq_stretches, hsame]
  · rw [serve_append]
    rcases r with (_ | ⟨b, bs⟩) | _ | _
    · rfl
    · cases hgone
    · cases hgone
    · rfl

/-- A provisioned board whose server has just started. -/
def opened : ServeLoop := ⟨⟨.fresh id .none, false, "2.0.0"⟩, .new, [], 0⟩

/-- A `ciborium` that reads and writes nothing. -/
def mute : Cbor := ⟨fun _ => [], fun _ => none⟩

/-- A request for the buffer parameters. -/
def paramsRequest : Frame :=
  { op := OP_READ, version := 1, flags := 0, group := GROUP_OS, seq := 7, cmd := OS_MCUMGR_PARAMS,
    payload := [] }

/-- Its line on the wire. -/
def paramsLine : Bytes :=
  [6, 9, 65, 65, 111, 73, 65, 65, 65, 65, 65, 65, 65, 72, 66, 117, 101, 76, 10]

/-- The first line of a packet of 40 bytes, and a part of its next line. -/
def cutPacket : Bytes := [6, 9, 65, 67, 103, 66, 10, 4, 20, 65]

/-- The request is dispatched when its line comes in two pieces, as it is when it comes in
one; and it is when the host vanished in the middle of a packet before. -/
theorem insensitive_and_forgets_request :
    (opened.serve id mute Engine.standard (fun _ => true)
      [.bytes (paramsLine.take 5), .idle, .bytes (paramsLine.drop 5)]).1 = [paramsRequest] ∧
    (opened.serve id mute Engine.standard (fun _ => true)
      ([.bytes cutPacket] ++ .failed :: [.bytes paramsLine])).1 = [paramsRequest] := by
  have hwhole : (opened.serve id mute Engine.standard (fun _ => true)
      [.bytes paramsLine]).1 = [paramsRequest] := by decide +kernel
  constructor
  · have hsame : stretches [.bytes paramsLine] =
        stretches [.bytes (paramsLine.take 5), .idle, .bytes (paramsLine.drop 5)] := by decide
    rw [← (insensitive_and_forgets hsame opened).1]
    exact hwhole
  · rw [(insensitive_and_forgets rfl opened).2 .failed [.bytes paramsLine] rfl]
    -- the cut packet dispatches nothing
    have hcut : opened.serve id mute Engine.standard (fun _ => true) [.bytes cutPacket] =
        ([], some { opened with decoder := (opened.decoder.pushLine Engine.standard
          [6, 9, 65, 67, 103, 66]).2, line := [4, 20, 65] }) := by decide +kernel
    rw [hcut]
    simp only [thenServe, List.nil_append]
    exact hwhole

end ServeLoop
end Runtt
