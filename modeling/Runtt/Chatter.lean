import Runtt.RoundTrip
import Runtt.Serve
import Runtt.Demux

/-! # The emulated device on a shared link

`Server::serve` once more, with what it writes.  A single-channel device prints its log on
the link that carries its responses: at the head of each iteration `speak` writes a line
if one is due, and an iteration that completes a request writes the response.  What is
dispatched is `ServeLoop`'s; what is added is the clock, the counter of the lines and the
bytes that the link takes.

`frames_answered` is the step over one request, whatever the chatter around it: the loop
does what `Server.reply` says, and writes the response whole.
-/
namespace Runtt

open LineStream

/-- What the clock and the link do to the server. -/
structure Pty where
  /-- The next line of the log is due, at the head of each iteration. -/
  due : Nat → Bool
  /-- How many bytes of a line of the log the link takes before the write fails, at the
  head of each iteration; `none` is a write that does not fail. -/
  spoken : Nat → Option Nat
  /-- The same for each response. -/
  answered : Nat → Option Nat

namespace Pty

/-- What the link takes of a write. -/
def taken (failure : Option Nat) (b : Bytes) : Bytes :=
  match failure with
  | none => b
  | some n => b.take n

/-- The responses whose write does not fail. -/
def wrote (pty : Pty) (n : Nat) : Bool := (pty.answered n).isNone

/-- No write fails. -/
structure Takes (pty : Pty) : Prop where
  spoken : ∀ n, pty.spoken n = none
  answered : ∀ n, pty.answered n = none

end Pty

/-- What the server does that the link or the device notices. -/
inductive Output where
  /-- It wrote a line of its log, as far as the link took it. -/
  | spoke (b : Bytes)
  /-- It dispatched `req` and wrote `resp`, as far as the link took it. -/
  | answered (req resp : Frame) (b : Bytes)
  /-- It dispatched a request and wrote nothing. -/
  | unanswered (req : Frame)
  deriving DecidableEq, Repr

namespace Output

def bytes : Output → Bytes
  | spoke b => b
  | answered _ _ b => b
  | unanswered _ => []

def isSpoken : Output → Bool
  | spoke _ => true
  | _ => false

/-- The request dispatched. -/
def request : Output → Option Frame
  | spoke _ => none
  | answered req _ _ => some req
  | unanswered req => some req

/-- The response written. -/
def response : Output → Option Frame
  | answered _ resp _ => some resp
  | _ => none

end Output

/-- One iteration of the loop, by what it finds. -/
inductive Tick where
  /-- A byte in the queue, from this read or an earlier one. -/
  | byte (b : UInt8)
  /-- An empty queue, and a read that timed out or was interrupted. -/
  | idle
  /-- An empty queue, and a host that went away. -/
  | gone
  deriving DecidableEq, Repr

/-- The iterations that a read of the link begins: one for each of its bytes, or one for a
read without any. -/
def HostRead.ticks : HostRead → List Tick
  | .bytes [] => [.gone]
  | .bytes b => b.map .byte
  | .idle => [.idle]
  | .failed => [.gone]

/-- Goes on with what is left of a loop, if it has not ended. -/
def goOn {α σ : Type} (p : List α × Option σ) (next : σ → List α × Option σ) :
    List α × Option σ :=
  match p with
  | (out, none) => (out, none)
  | (out, some s) => (out ++ (next s).1, (next s).2)

theorem goOn_assoc {α σ : Type} (p : List α × Option σ) (f g : σ → List α × Option σ) :
    goOn (goOn p f) g = goOn p fun s => goOn (f s) g := by
  rcases p with ⟨out, _ | s⟩
  · rfl
  · simp only [goOn]
    rcases f s with ⟨outs, _ | s'⟩
    · rfl
    · simp [List.append_assoc]

theorem goOn_stop {α σ : Type} (p : List α × Option σ) : (goOn p fun s => ([], some s)) = p := by
  rcases p with ⟨out, _ | s⟩
  · rfl
  · simp [goOn]

/-! ## Responses -/

section
variable (sha256 : Bytes → Bytes) (cbor : Cbor) (e : Engine) (pty : Pty)

namespace ServeLoop

/-- What the server writes for a request that it dispatches. -/
def output (s : ServeLoop) (req : Frame) : Output :=
  match s.srv.dispatch sha256 cbor req with
  | .ok (some resp, _) =>
    match encode e resp MAX_LINE with
    | .ok wire => .answered req resp (Pty.taken (pty.answered s.written) wire)
    | .error _ => .unanswered req
  | _ => .unanswered req

/-- The rest of an iteration without chatter, once a line is complete. -/
def completed (s : ServeLoop) (complete : Except Error (Option Bytes)) :
    List Output × Option ServeLoop :=
  let (reqs, next) := s.request sha256 cbor e pty.wrote complete
  (reqs.map (s.output sha256 cbor e pty), next)

/-- An iteration without chatter. -/
def tick (s : ServeLoop) : Tick → List Output × Option ServeLoop
  | .byte b =>
    let (reqs, next) := s.takeByte sha256 cbor e pty.wrote b
    (reqs.map (s.output sha256 cbor e pty), next)
  | .idle => ([], some s)
  | .gone => ([], some s.forget)

/-- Iterations without chatter. -/
def run (s : ServeLoop) : List Tick → List Output × Option ServeLoop
  | [] => ([], some s)
  | t :: ts => goOn (s.tick sha256 cbor e pty t) fun s' => run s' ts

end ServeLoop

/-! ## Chatter -/

/-- The server with its log. -/
structure Chattering where
  core : ServeLoop
  /-- The text of its lines, if it has a log on this link. -/
  chatter : Option Bytes
  chatterSeq : UInt32
  /-- Iterations begun. -/
  heads : Nat
  deriving DecidableEq, Repr

/-- `{n}`, as `write!` formats it. -/
def decimal (n : UInt32) : Bytes := (Nat.toDigits 10 n.toNat).map fun c => c.toNat.toUInt8

/-- A line of the log without its newline: `{text} {seq}\r`. -/
def chatterText (text : Bytes) (seq : UInt32) : Bytes :=
  text ++ 32 :: (decimal seq ++ [LogDemux.CARRIAGE_RETURN])

namespace Chattering

/-- `speak`.  An error of the write is dropped. -/
def speak (s : Chattering) : List Output × Chattering :=
  match s.chatter with
  | none => ([], { s with heads := s.heads + 1 })
  | some text =>
    if pty.due s.heads then
      ([.spoke (Pty.taken (pty.spoken s.heads) (chatterText text s.chatterSeq ++ [NEWLINE]))],
        { s with chatterSeq := s.chatterSeq + 1, heads := s.heads + 1 })
    else ([], { s with heads := s.heads + 1 })

/-- One iteration. -/
def iteration (s : Chattering) (t : Tick) : List Output × Option Chattering :=
  let (said, s) := s.speak pty
  let (out, next) := s.core.tick sha256 cbor e pty t
  (said ++ out, next.map fun core => { s with core })

def run (s : Chattering) : List Tick → List Output × Option Chattering
  | [] => ([], some s)
  | t :: ts => goOn (s.iteration sha256 cbor e pty t) fun s' => run s' ts

/-- `serve`, over the reads of the link. -/
def serve (s : Chattering) (reads : List HostRead) : List Output × Option Chattering :=
  s.run sha256 cbor e pty (reads.flatMap HostRead.ticks)

end Chattering
end

/-! ## Requests and responses without a link -/

namespace Server
variable (sha256 : Bytes → Bytes) (cbor : Cbor)

/-- One request and its response: a silent server and a withheld command are not even
dispatched. -/
def reply (srv : Server) (req : Frame) : Except Halt (Option Frame × Server) :=
  if srv.silent || srv.withholds (req.group, req.cmd) then .ok (none, srv)
  else srv.dispatch sha256 cbor req

/-- Request after request, each with its response, if any. -/
def converse (srv : Server) : List Frame → Except Halt (List (Option Frame) × Server)
  | [] => .ok ([], srv)
  | req :: reqs => do
    let (resp, srv) ← srv.reply sha256 cbor req
    let (resps, srv) ← converse srv reqs
    return (resp :: resps, srv)

/-- The response to `req` that carries `r`. -/
def responseFrame (cbor : Cbor) (req : Frame) (r : Response) : Frame :=
  { op := req.responseOp, version := req.version, flags := 0, group := req.group,
    seq := req.seq, cmd := req.cmd, payload := cbor.encode (r.payload req.version req.group) }

/-- The command of a request is that of its frame. -/
theorem command_request (f : Frame) : (f.request cbor).command = (f.group, f.cmd) := by
  unfold Frame.request
  simp only
  repeat' split
  all_goals
    first
    | rfl
    | (rename_i h; exact h.symm)
    | (rename_i h; exact h.1.symm)

/-- **The frame around a request only comes back in the response**: what is answered is
what the server answers the request in it. -/
theorem reply_eq_handle (srv : Server) (req : Frame) : srv.reply sha256 cbor req =
    (srv.handle sha256 (req.request cbor)).map fun p =>
      (p.1.map (responseFrame cbor req), p.2) := by
  unfold reply handle
  rw [command_request]
  by_cases hmute : (srv.silent || srv.withholds (req.group, req.cmd)) = true
  · rw [if_pos hmute, if_pos hmute]
    rfl
  · rw [if_neg hmute, if_neg hmute, dispatch]
    cases srv.answer sha256 (req.request cbor) with
    | error halt => rfl
    | ok p => rfl

/-- A response answers its request. -/
structure Answers (req resp : Frame) : Prop where
  op : resp.op = req.responseOp
  version : resp.version = req.version
  group : resp.group = req.group
  seq : resp.seq = req.seq
  cmd : resp.cmd = req.cmd

theorem answers_of_dispatch {srv srv' : Server} {req resp : Frame}
    (h : srv.dispatch sha256 cbor req = .ok (some resp, srv')) : Answers req resp := by
  unfold dispatch at h
  cases ha : srv.answer sha256 (req.request cbor) with
  | error halt =>
    rw [ha] at h
    cases h
  | ok p =>
    obtain ⟨r, srv₁⟩ := p
    rw [ha] at h
    cases r with
    | none => cases h
    | some r =>
      cases h
      exact ⟨rfl, rfl, rfl, rfl, rfl⟩

end Server

/-! ## Line by line, without the chatter -/

namespace ServeLoop
variable {sha256 : Bytes → Bytes} {cbor : Cbor} {e : Engine} {pty : Pty} {s : ServeLoop}

theorem run_append (ts ts' : List Tick) : s.run sha256 cbor e pty (ts ++ ts') =
    goOn (s.run sha256 cbor e pty ts) fun s' => s'.run sha256 cbor e pty ts' := by
  induction ts generalizing s with
  | nil => rfl
  | cons t ts ih =>
    rw [List.cons_append, run, run, goOn_assoc]
    exact congrArg (goOn _) (funext fun s' => ih)

/-- Timeouts do not matter. -/
theorem run_idle (ts : List Tick) :
    s.run sha256 cbor e pty (.idle :: ts) = s.run sha256 cbor e pty ts := by
  rw [run]
  rfl

theorem run_bytes_filter (ts : List Tick) :
    s.run sha256 cbor e pty (ts.filter (· ≠ .idle)) = s.run sha256 cbor e pty ts := by
  induction ts generalizing s with
  | nil => rfl
  | cons t ts ih =>
    by_cases hidle : t = .idle
    · subst hidle
      rw [List.filter_cons_of_neg (by simp), run_idle, ih]
    · rw [List.filter_cons_of_pos (by simpa using hidle), run, run]
      exact congrArg (goOn _) (funext fun s' => ih)

/-- A line is collected. -/
theorem run_open {line : Bytes} (h : NEWLINE ∉ line) :
    s.run sha256 cbor e pty (line.map .byte) = ([], some { s with line := s.line ++ line }) := by
  induction line generalizing s with
  | nil =>
    rw [List.append_nil]
    rfl
  | cons b line ih =>
    obtain ⟨hb, hline⟩ := not_or.mp (mt List.mem_cons.mpr h)
    have htick : s.tick sha256 cbor e pty (.byte b) =
        ([], some { s with line := s.line ++ [b] }) := by
      simp only [tick, takeByte, if_pos (Ne.symm hb), List.map_nil]
    rw [List.map_cons, run, htick, goOn, ih hline, List.append_assoc]
    rfl

/-- **A whole line** is one `push_line`, and what follows from it. -/
theorem run_line {line : Bytes} (h : NEWLINE ∉ line) (hs : s.line = []) :
    s.run sha256 cbor e pty ((line ++ [NEWLINE]).map .byte) =
      completed sha256 cbor e pty { s with decoder := (s.decoder.pushLine e line).2, line := [] }
        (s.decoder.pushLine e line).1 := by
  rw [List.map_append, run_append, run_open h, hs, List.nil_append, goOn, List.map_singleton, run]
  simp only [run, goOn_stop, List.nil_append]
  simp only [tick, takeByte, ne_eq, not_true_eq_false, if_false, completed]
  rfl

/-- The lines of a frame: all but the last are waited on. -/
theorem run_completing {f : Frame} {ls : List Bytes} {d : Decoder} (hne : ls ≠ [])
    (hnl : ∀ line ∈ ls, NEWLINE ∉ line) (hs : s.line = [])
    (hpush : s.decoder.pushLines e ls = ((completing f ls).map fun x => delivery x.2, d)) :
    s.run sha256 cbor e pty ((terminated NEWLINE ls).map .byte) =
      completed sha256 cbor e pty { s with decoder := d, line := [] } (.ok (some f.body)) := by
  induction ls generalizing s with
  | nil => exact absurd rfl hne
  | cons line rest ih =>
    obtain ⟨hline, hrest⟩ := List.forall_mem_cons.mp hnl
    have hsplit : (terminated NEWLINE (line :: rest)).map Tick.byte =
        (line ++ [NEWLINE]).map .byte ++ (terminated NEWLINE rest).map .byte := by
      simp [terminated]
    rw [hsplit, run_append, run_line hline hs]
    cases rest with
    | nil =>
      obtain ⟨hr, hd⟩ := Prod.mk.inj hpush
      change [(s.decoder.pushLine e line).1] = [delivery (some f)] at hr
      change (s.decoder.pushLine e line).2 = d at hd
      rw [(List.cons.inj hr).1, hd]
      exact goOn_stop _
    | cons line' rest =>
      obtain ⟨hr, hd⟩ := Prod.mk.inj hpush
      obtain ⟨hfirst, hlater⟩ := List.cons.inj hr
      change (s.decoder.pushLine e line).1 = delivery none at hfirst
      rw [hfirst]
      exact ih (s := { s with decoder := (s.decoder.pushLine e line).2, line := [] })
        (List.cons_ne_nil _ _) hrest rfl (Prod.ext hlater hd)

/-- **The bytes of a frame**, at a decoder in any state. -/
theorem run_frame (he : e.Standard) {f : Frame} (hf : f.Representable) (hs : s.line = []) :
    s.run sha256 cbor e pty ((terminated NEWLINE (wireLines e f MAX_LINE)).map .byte) =
      completed sha256 cbor e pty
        { s with decoder := ⟨e.encode (packet e f), false⟩, line := [] } (.ok (some f.body)) := by
  have hmax : 16 ≤ MAX_LINE := by decide
  refine run_completing ?_ (newline_notMem_wireLines he hmax) hs
    (Decoder.pushLines_frame he hf hmax)
  rw [wireLines, chunks_cons (by decide) (Decoder.text_ne_nil he)]
  exact List.cons_ne_nil _ _

end ServeLoop

/-! ## A conversation -/

/-- The bytes of a frame on the link. -/
def wireOf (e : Engine) (f : Frame) : Bytes :=
  match encode e f MAX_LINE with
  | .ok wire => wire
  | .error _ => []

theorem wireOf_eq (e : Engine) (f : Frame) :
    wireOf e f = terminated NEWLINE (wireLines e f MAX_LINE) := by
  rw [wireOf, encode_eq (by decide)]

/-- The answers of a conversation, each with its bytes. -/
def exchanges (e : Engine) (reqs : List Frame) (resps : List (Option Frame)) : List Output :=
  (reqs.zip resps).filterMap fun (req, resp) =>
    resp.map fun resp => .answered req resp (wireOf e resp)

/-- A response was written. -/
def Output.isAnswer (o : Output) : Bool := o.response.isSome

namespace ServeLoop
variable {sha256 : Bytes → Bytes} {cbor : Cbor} {e : Engine} {pty : Pty} {s : ServeLoop}

variable (e) in
/-- **One request**: the loop does what `reply` says, and writes the response whole. -/
theorem completed_frame (hpty : ∀ n, pty.answered n = none) {f : Frame} (hf : f.Representable)
    {resp : Option Frame} {srv : Server} (h : s.srv.reply sha256 cbor f = .ok (resp, srv)) :
    ∃ outs s', completed sha256 cbor e pty s (.ok (some f.body)) = (outs, some s') ∧
      s'.srv = srv ∧ s'.line = s.line ∧ s'.decoder = s.decoder ∧
      outs.filter Output.isAnswer = exchanges e [f] [resp] := by
  unfold Server.reply at h
  simp only [completed, request, Frame.parse_body hf]
  by_cases hmute : (s.srv.silent || s.srv.withholds (f.group, f.cmd)) = true
  · rw [if_pos hmute] at h ⊢
    cases h
    exact ⟨[], s, rfl, rfl, rfl, rfl, rfl⟩
  · rw [if_neg hmute] at h ⊢
    simp only [List.map_cons, List.map_nil, output, h]
    cases resp with
    | none => exact ⟨_, _, rfl, rfl, rfl, rfl, rfl⟩
    | some resp =>
      have henc : encode e resp MAX_LINE = .ok (wireOf e resp) := by
        rw [wireOf_eq]
        exact encode_eq (by decide)
      simp only [henc, respond, Pty.wrote, hpty, Option.isNone_none, if_true, Pty.taken]
      exact ⟨_, _, rfl, rfl, rfl, rfl, rfl⟩

/-- **Request after request**: the loop holds the conversation that `converse` holds. -/
theorem run_frames (he : e.Standard) (hpty : ∀ n, pty.answered n = none) {fs : List Frame}
    (hfs : ∀ f ∈ fs, f.Representable) {resps : List (Option Frame)} {srv : Server}
    (hs : s.line = []) (h : s.srv.converse sha256 cbor fs = .ok (resps, srv)) :
    ∃ outs s', s.run sha256 cbor e pty ((fs.flatMap (wireOf e)).map .byte) = (outs, some s') ∧
      s'.srv = srv ∧ s'.line = [] ∧ outs.filter Output.isAnswer = exchanges e fs resps := by
  induction fs generalizing s resps with
  | nil =>
    cases h
    exact ⟨[], s, rfl, rfl, hs, rfl⟩
  | cons f fs ih =>
    obtain ⟨hf, hfs⟩ := List.forall_mem_cons.mp hfs
    rw [Server.converse] at h
    cases hreply : s.srv.reply sha256 cbor f with
    | error halt =>
      rw [hreply] at h
      cases h
    | ok p =>
      obtain ⟨resp, srv₁⟩ := p
      rw [hreply, bind_ok] at h
      cases hrest : srv₁.converse sha256 cbor fs with
      | error halt =>
        simp only [hrest] at h
        cases h
      | ok q =>
        obtain ⟨resps', srv₂⟩ := q
        simp only [hrest] at h
        cases h
        obtain ⟨out, s₁, hone, hsrv, hline, -, hout⟩ :=
          completed_frame e
            (s := { s with decoder := ⟨e.encode (packet e f), false⟩, line := [] }) hpty hf hreply
        subst hsrv
        obtain ⟨outs, s₂, hrun, hsrv', hline', houts⟩ := ih hfs hline hrest
        refine ⟨out ++ outs, s₂, ?_, hsrv', hline', ?_⟩
        · rw [List.flatMap_cons, List.map_append, run_append, wireOf_eq, run_frame he hf hs, hone,
            goOn, hrun]
        · rw [List.filter_append, hout, houts]
          simp only [exchanges, List.zip_cons_cons, List.zip_nil_right, List.filterMap_cons,
            List.filterMap_nil]
          cases resp <;> rfl

end ServeLoop

/-! ## The chatter around it -/

namespace Chattering
variable {sha256 : Bytes → Bytes} {cbor : Cbor} {e : Engine} {pty : Pty} {s : Chattering}

variable (pty) in
/-- What is written for the log. -/
theorem speak_cases (s : Chattering) : (s.speak pty).2.core = s.core ∧
    (s.speak pty).2.chatter = s.chatter ∧
    (((s.speak pty).1 = [] ∧ (s.speak pty).2.chatterSeq = s.chatterSeq) ∨
      ∃ text, s.chatter = some text ∧ (s.speak pty).2.chatterSeq = s.chatterSeq + 1 ∧
        (s.speak pty).1 = [.spoke (Pty.taken (pty.spoken s.heads)
          (chatterText text s.chatterSeq ++ [NEWLINE]))]) := by
  unfold speak
  cases s.chatter with
  | none => exact ⟨rfl, rfl, .inl ⟨rfl, rfl⟩⟩
  | some text =>
    simp only
    split
    · exact ⟨rfl, rfl, .inr ⟨text, rfl, rfl, rfl⟩⟩
    · exact ⟨rfl, rfl, .inl ⟨rfl, rfl⟩⟩

/-- An iteration speaks, and then does what the loop without chatter does. -/
theorem iteration_eq (t : Tick) : s.iteration sha256 cbor e pty t =
    ((s.speak pty).1 ++ (s.core.tick sha256 cbor e pty t).1,
      (s.core.tick sha256 cbor e pty t).2.map fun core => { (s.speak pty).2 with core }) := by
  rw [← (s.speak_cases pty).1]
  rfl

variable (sha256 cbor e pty) in
/-- What the loop itself does is not chatter. -/
theorem tick_not_spoken (core : ServeLoop) (t : Tick) :
    ∀ o ∈ (core.tick sha256 cbor e pty t).1, o.isSpoken = false := by
  intro o ho
  cases t with
  | byte b =>
    obtain ⟨req, -, rfl⟩ := List.mem_map.mp ho
    unfold ServeLoop.output
    split
    · split <;> rfl
    · rfl
  | idle => cases ho
  | gone => cases ho

variable (sha256 cbor e pty) in
/-- **Without its chatter it is the loop of `ServeLoop`.** -/
theorem run_core (ts : List Tick) :
    (s.run sha256 cbor e pty ts).1.filter (fun o => !o.isSpoken) =
        (s.core.run sha256 cbor e pty ts).1 ∧
      (s.run sha256 cbor e pty ts).2.map Chattering.core = (s.core.run sha256 cbor e pty ts).2 := by
  induction ts generalizing s with
  | nil => exact ⟨rfl, rfl⟩
  | cons t ts ih =>
    obtain ⟨-, -, hsaid⟩ := s.speak_cases pty
    have hquiet := tick_not_spoken sha256 cbor e pty s.core t
    have hsaid' : (s.speak pty).1.filter (fun o => !o.isSpoken) = [] := by
      rcases hsaid with ⟨hnone, -⟩ | ⟨text, -, -, hone⟩
      · rw [hnone]
        rfl
      · rw [hone]
        rfl
    rw [run, ServeLoop.run, iteration_eq]
    generalize s.core.tick sha256 cbor e pty t = ticked at hquiet ⊢
    rcases ticked with ⟨out, _ | core⟩
    all_goals
      have hout : out.filter (fun o => !o.isSpoken) = out := by
        rw [List.filter_eq_self]
        intro o ho
        rw [hquiet o ho]
        rfl
    · refine ⟨?_, rfl⟩
      simp only [goOn, Option.map_none, List.filter_append, hsaid', hout, List.nil_append]
    · obtain ⟨houts, hend⟩ := ih (s := { (s.speak pty).2 with core })
      refine ⟨?_, hend⟩
      simp only [goOn, Option.map_some, List.filter_append, hsaid', hout, houts, List.nil_append]

/-- The next `k` lines of the log. -/
def saying (text : Bytes) (seq : UInt32) : Nat → List Bytes
  | 0 => []
  | k + 1 => chatterText text seq :: saying text (seq + 1) k

/-- The next `k` lines of the server's log, if it has one. -/
def log (s : Chattering) (k : Nat) : List Bytes :=
  match s.chatter with
  | none => []
  | some text => saying text s.chatterSeq k

variable (sha256 cbor e) in
/-- **The chatter is the log, line by line.** -/
theorem run_spoken (hpty : ∀ n, pty.spoken n = none) (ts : List Tick) :
    ∃ k, (s.run sha256 cbor e pty ts).1.filter Output.isSpoken =
      (s.log k).map fun line => .spoke (line ++ [NEWLINE]) := by
  induction ts generalizing s with
  | nil => exact ⟨0, by cases hc : s.chatter <;> simp [log, hc, saying, run]⟩
  | cons t ts ih =>
    obtain ⟨-, hchatter, hsaid⟩ := s.speak_cases pty
    have hquiet := tick_not_spoken sha256 cbor e pty s.core t
    -- what the rest of the run says
    have hrest : ∃ k, ((s.run sha256 cbor e pty (t :: ts)).1.filter Output.isSpoken) =
        (s.speak pty).1 ++ ((s.speak pty).2.log k).map fun line => .spoke (line ++ [NEWLINE]) := by
      have hspoke : (s.speak pty).1.filter Output.isSpoken = (s.speak pty).1 := by
        rcases hsaid with ⟨hnone, -⟩ | ⟨text, -, -, hone⟩
        · rw [hnone]
          rfl
        · rw [hone]
          rfl
      rw [run, iteration_eq]
      generalize s.core.tick sha256 cbor e pty t = ticked at hquiet ⊢
      rcases ticked with ⟨out, _ | core⟩
      all_goals
        have hout : out.filter Output.isSpoken = [] := by
          rw [List.filter_eq_nil_iff]
          intro o ho
          rw [hquiet o ho]
          exact Bool.false_ne_true
      · refine ⟨0, ?_⟩
        have hnone : (s.speak pty).2.log 0 = [] := by
          unfold log
          cases (s.speak pty).2.chatter <;> rfl
        simp only [goOn, Option.map_none, List.filter_append, hspoke, hout, hnone, List.map_nil]
      · obtain ⟨k, hk⟩ := ih (s := { (s.speak pty).2 with core })
        refine ⟨k, ?_⟩
        simp only [goOn, Option.map_some, List.filter_append, hspoke, hout, hk, List.append_nil]
        rfl
    obtain ⟨k, hk⟩ := hrest
    rw [hk]
    rcases hsaid with ⟨hnone, hseq⟩ | ⟨text, htext, hseq, hone⟩
    · refine ⟨k, ?_⟩
      rw [hnone, List.nil_append, log, log, hchatter, hseq]
    · refine ⟨k + 1, ?_⟩
      rw [hone, log, log, hchatter, hseq, htext, hpty]
      rfl

end Chattering

/-! ## What is dispatched -/

/-- The requests dispatched, and the loop after them. -/
def dispatched {σ : Type} (p : List Output × Option σ) : List Frame × Option σ :=
  (p.1.filterMap Output.request, p.2)

namespace ServeLoop
variable {sha256 : Bytes → Bytes} {cbor : Cbor} {e : Engine} {pty : Pty} {s : ServeLoop}

theorem dispatched_goOn (p : List Output × Option ServeLoop)
    (f : ServeLoop → List Output × Option ServeLoop) :
    dispatched (goOn p f) = thenServe (dispatched p) fun s => dispatched (f s) := by
  rcases p with ⟨out, _ | s⟩
  · rfl
  · simp [dispatched, goOn, thenServe]

theorem dispatched_tick (b : UInt8) : dispatched (s.tick sha256 cbor e pty (.byte b)) =
    s.takeByte sha256 cbor e pty.wrote b := by
  have hrequest (req : Frame) : (s.output sha256 cbor e pty req).request = some req := by
    unfold output
    split
    · split <;> rfl
    · rfl
  have htick : s.tick sha256 cbor e pty (.byte b) =
      ((s.takeByte sha256 cbor e pty.wrote b).1.map (s.output sha256 cbor e pty),
        (s.takeByte sha256 cbor e pty.wrote b).2) := rfl
  rw [htick, dispatched]
  refine Prod.ext ?_ rfl
  rw [List.filterMap_map]
  have hall : Output.request ∘ s.output sha256 cbor e pty = some := funext hrequest
  rw [hall, List.filterMap_some]

theorem dispatched_bytes (pending : Bytes) :
    dispatched (s.run sha256 cbor e pty (pending.map .byte)) =
      s.drain sha256 cbor e pty.wrote pending := by
  induction pending generalizing s with
  | nil => rfl
  | cons b pending ih =>
    rw [List.map_cons, run, dispatched_goOn, dispatched_tick, drain_cons]
    exact congrArg (thenServe _) (funext fun s' => ih)

/-- Iterations are what `serve` does over the reads. -/
theorem dispatched_run (reads : List HostRead) :
    dispatched (s.run sha256 cbor e pty (reads.flatMap HostRead.ticks)) =
      s.serve sha256 cbor e pty.wrote reads := by
  induction reads generalizing s with
  | nil => rfl
  | cons r reads ih =>
    rw [List.flatMap_cons, run_append, dispatched_goOn]
    have hrest : (fun s' : ServeLoop => dispatched (s'.run sha256 cbor e pty
        (reads.flatMap HostRead.ticks))) = fun s' => s'.serve sha256 cbor e pty.wrote reads :=
      funext fun s' => ih
    rw [hrest]
    rcases r with (_ | ⟨b, bs⟩) | _ | _
    · rfl
    · rw [serve_bytes (List.cons_ne_nil b bs), ← dispatched_bytes]
      rfl
    · rfl
    · rfl

end ServeLoop

namespace Chattering
variable {sha256 : Bytes → Bytes} {cbor : Cbor} {e : Engine} {pty : Pty} {s : Chattering}

variable (sha256 cbor e pty s) in
/-- **Chatter dispatches nothing**: with a log on its link the mock does with its requests
what it does without. -/
theorem dispatched_serve (reads : List HostRead) :
    dispatched (((s.serve sha256 cbor e pty reads).1,
        (s.serve sha256 cbor e pty reads).2.map Chattering.core)) =
      s.core.serve sha256 cbor e pty.wrote reads := by
  obtain ⟨hout, hend⟩ :=
    run_core sha256 cbor e pty (s := s) (reads.flatMap HostRead.ticks)
  rw [← ServeLoop.dispatched_run, dispatched, dispatched, ← hout, ← hend, List.filterMap_filter]
  refine Prod.ext (List.filterMap_congr fun o _ => ?_) rfl
  cases o <;> rfl

end Chattering
end Runtt
