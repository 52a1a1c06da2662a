import Mathlib.Data.List.Forall2
import Mathlib.Data.List.ReduceOption
import Runtt.Bench
import Runtt.Chatter
import Runtt.DemuxRead

/-! # A conversation over the shared link

Both ends of one link.  The runtime writes its requests as frames; the mock reads them in
whatever pieces, prints its log between the responses, and the runtime's demux takes the
two apart again.  The runtime gets, in order and whole, what `Server.converse` answers, and
the log gets the lines of the log (`link_transparent`); and that is what the bench plays
when it hands a `Request` to the server and a `Response` to the client
(`bench_on_the_link`).
-/
namespace Runtt

open LineStream LogDemux

/-! ## Requests on their way in -/

/-- Reads without a disconnect are iterations over their bytes. -/
theorem ticks_of_stretches {reads : List HostRead} {b : Bytes} (h : stretches reads = (b, [])) :
    (reads.flatMap HostRead.ticks).filter (· ≠ .idle) = b.map .byte := by
  induction reads generalizing b with
  | nil =>
    cases h
    rfl
  | cons r reads ih =>
    rw [List.flatMap_cons, List.filter_append]
    rcases r with (_ | ⟨x, xs⟩) | _ | _
    · cases h
    · obtain ⟨hfirst, hlater⟩ := Prod.mk.inj h
      have hbytes : ((HostRead.bytes (x :: xs)).ticks).filter (· ≠ Tick.idle) =
          (x :: xs).map .byte := by
        refine List.filter_eq_self.mpr ?_
        intro t ht
        obtain ⟨y, -, rfl⟩ := List.mem_map.mp ht
        rfl
      rw [hbytes, ih (Prod.ext rfl hlater), ← hfirst, ← List.map_append]
    · exact ih h
    · cases h

/-! ## Lines on their way out -/

theorem isSmpLine_wireLines {e : Engine} (he : e.Standard) {f : Frame} :
    ∀ line ∈ wireLines e f MAX_LINE, isSmpLine line = true := by
  intro line hline
  obtain ⟨marker, c, rfl, rfl | rfl, -, -⟩ := mem_wireLines he (by decide) hline
  all_goals rfl

/-- A text that is no SMP line does not become one by what follows it. -/
theorem isSmpLine_append {text rest : Bytes} (h : isSmpLine text = false) :
    isSmpLine (text ++ 32 :: rest) = false := by
  rcases text with _ | ⟨a, _ | ⟨b, text⟩⟩
  · cases rest <;> rfl
  · simp only [isSmpLine, MARKER_START, MARKER_CONT, List.cons_append, List.nil_append,
      List.take_succ_cons, List.take_zero]
    simp
  · exact h

theorem newline_notMem_decimal (n : UInt32) : NEWLINE ∉ decimal n := by
  intro h
  obtain ⟨c, hc, hnl⟩ := List.mem_map.mp h
  have hdigit := Nat.isDigit_of_mem_toDigits (by decide) (by decide) hc
  rw [Char.isDigit_iff_toNat] at hdigit
  obtain ⟨hlow, hhigh⟩ : 48 ≤ c.toNat ∧ c.toNat ≤ 57 := hdigit
  have hvalue : c.toNat % 256 = 10 := congrArg UInt8.toNat hnl
  omega

theorem newline_notMem_chatterText {text : Bytes} (h : NEWLINE ∉ text) (seq : UInt32) :
    NEWLINE ∉ chatterText text seq := by
  have hspace : NEWLINE ≠ (32 : UInt8) := by decide
  have hreturn : NEWLINE ≠ CARRIAGE_RETURN := by decide
  simp only [chatterText, List.mem_append, List.mem_cons, List.not_mem_nil, or_false, not_or]
  exact ⟨h, hspace, newline_notMem_decimal seq, hreturn⟩

/-- What the sink makes of a line of the log: it strips the carriage return. -/
theorem stripReturn_chatterText (text : Bytes) (seq : UInt32) :
    stripReturn (chatterText text seq) = text ++ 32 :: decimal seq := by
  have hsplit : chatterText text seq = (text ++ 32 :: decimal seq) ++ [CARRIAGE_RETURN] := by
    simp [chatterText]
  rw [hsplit, stripReturn, if_pos List.getLast?_concat, List.dropLast_concat]

/-! ## The output as lines -/

/-- The lines of an output, without their newlines. -/
def Output.lines (e : Engine) : Output → List Bytes
  | spoke b => [b.dropLast]
  | answered _ resp _ => wireLines e resp MAX_LINE
  | unanswered _ => []

namespace Chattering
variable {sha256 : Bytes → Bytes} {cbor : Cbor} {e : Engine} {pty : Pty} {s : Chattering}

/-- What holds of every line of the log. -/
theorem forall_log {P : Bytes → Prop} (h : ∀ text seq, s.chatter = some text →
    P (chatterText text seq)) (k : Nat) : ∀ line ∈ s.log k, P line := by
  unfold log
  cases hc : s.chatter with
  | none => exact fun line hline => absurd hline List.not_mem_nil
  | some text =>
    generalize s.chatterSeq = seq
    induction k generalizing seq with
    | zero => exact fun line hline => absurd hline List.not_mem_nil
    | succ k ih => exact List.forall_mem_cons.mpr ⟨h text seq hc, ih (seq + 1)⟩

end Chattering

/-- Where the lines of an element are all of a kind, or none of them. -/
theorem filter_flatMap {α β : Type} {f : α → List β} {p : α → Bool} {q : β → Bool} {l : List α}
    (hall : ∀ a ∈ l, p a = true → ∀ b ∈ f a, q b = true)
    (hnone : ∀ a ∈ l, p a = false → ∀ b ∈ f a, q b = false) :
    (l.flatMap f).filter q = (l.filter p).flatMap f := by
  induction l with
  | nil => rfl
  | cons a l ih =>
    obtain ⟨hall₁, hall⟩ := List.forall_mem_cons.mp hall
    obtain ⟨hnone₁, hnone⟩ := List.forall_mem_cons.mp hnone
    rw [List.flatMap_cons, List.filter_append, ih hall hnone]
    cases hp : p a with
    | true =>
      rw [List.filter_cons_of_pos hp, List.flatMap_cons, List.filter_eq_self.mpr (hall₁ hp)]
    | false =>
      have hnil : (f a).filter q = [] := by
        rw [List.filter_eq_nil_iff]
        intro b hb
        rw [hnone₁ hp b hb]
        exact Bool.false_ne_true
      rw [List.filter_cons_of_neg (by rw [hp]; exact Bool.false_ne_true), hnil, List.nil_append]

/-- What a server writes in a conversation: the lines of its log and its answers, whole, in
any order among each other. -/
structure Wrote (e : Engine) (said : List Bytes) (reqs : List Frame) (resps : List (Option Frame))
    (outs : List Output) : Prop where
  spoken : outs.filter Output.isSpoken = said.map fun line => .spoke (line ++ [NEWLINE])
  answered : outs.filter Output.isAnswer = exchanges e reqs resps
  plain : ∀ line ∈ said, isSmpLine line = false ∧ NEWLINE ∉ line

section
variable {e : Engine} {said : List Bytes} {reqs : List Frame} {resps : List (Option Frame)}
  {outs : List Output}

theorem Wrote.spoke (h : Wrote e said reqs resps outs) {b : Bytes} (hb : .spoke b ∈ outs) :
    ∃ line ∈ said, b = line ++ [NEWLINE] := by
  have hmem : Output.spoke b ∈ outs.filter Output.isSpoken := List.mem_filter.mpr ⟨hb, rfl⟩
  rw [h.spoken] at hmem
  obtain ⟨line, hline, heq⟩ := List.mem_map.mp hmem
  cases heq
  exact ⟨line, hline, rfl⟩

theorem Wrote.answer (h : Wrote e said reqs resps outs) {req resp : Frame} {b : Bytes}
    (hb : .answered req resp b ∈ outs) : b = wireOf e resp := by
  have hmem : Output.answered req resp b ∈ outs.filter Output.isAnswer :=
    List.mem_filter.mpr ⟨hb, rfl⟩
  rw [h.answered] at hmem
  obtain ⟨⟨req', resp'⟩, -, heq⟩ := List.mem_filterMap.mp hmem
  cases resp' with
  | none => cases heq
  | some resp' =>
    cases heq
    rfl

/-- The output is whole lines. -/
theorem Wrote.bytes (h : Wrote e said reqs resps outs) :
    outs.flatMap Output.bytes = terminated NEWLINE (outs.flatMap (Output.lines e)) := by
  have hone : ∀ o ∈ outs, o.bytes = terminated NEWLINE (o.lines e) := by
    intro o ho
    cases o with
    | spoke b =>
      obtain ⟨line, -, rfl⟩ := h.spoke ho
      simp [Output.bytes, Output.lines, terminated]
    | answered req resp b =>
      rw [Output.bytes, Output.lines, h.answer ho, wireOf_eq]
    | unanswered req => rfl
  rw [terminated, List.flatMap_assoc]
  exact List.flatMap_congr hone

theorem Wrote.newline_notMem (h : Wrote e said reqs resps outs) (he : e.Standard) :
    ∀ line ∈ outs.flatMap (Output.lines e), NEWLINE ∉ line := by
  intro line hline
  obtain ⟨o, ho, hline⟩ := List.mem_flatMap.mp hline
  cases o with
  | spoke b =>
    obtain ⟨l, hl, rfl⟩ := h.spoke ho
    rw [Output.lines, List.dropLast_concat, List.mem_singleton] at hline
    rw [hline]
    exact (h.plain l hl).2
  | answered req resp b => exact newline_notMem_wireLines he (by decide) line hline
  | unanswered req => cases hline

/-- The lines that go to the client are the answers'. -/
theorem Wrote.smp (h : Wrote e said reqs resps outs) (he : e.Standard)
    (hlen : reqs.length = resps.length) :
    (outs.flatMap (Output.lines e)).filter isSmpLine =
      resps.reduceOption.flatMap (wireLines e · MAX_LINE) := by
  have hsplit : (outs.flatMap (Output.lines e)).filter isSmpLine =
      (outs.filter Output.isAnswer).flatMap (Output.lines e) := by
    refine filter_flatMap ?_ ?_
    · intro o _ ho line hline
      cases o with
      | spoke b => cases ho
      | answered req resp b => exact isSmpLine_wireLines he line hline
      | unanswered req => cases ho
    · intro o hmem ho line hline
      cases o with
      | spoke b =>
        obtain ⟨l, hl, rfl⟩ := h.spoke hmem
        rw [Output.lines, List.dropLast_concat, List.mem_singleton] at hline
        rw [hline]
        exact (h.plain l hl).1
      | answered req resp b => cases ho
      | unanswered req => cases hline
  rw [hsplit, h.answered]
  clear hsplit h
  induction reqs generalizing resps with
  | nil =>
    cases resps with
    | nil => rfl
    | cons resp resps => cases hlen
  | cons req reqs ih =>
    cases resps with
    | nil => cases hlen
    | cons resp resps =>
      have hrest := ih (Nat.succ.inj hlen)
      cases resp with
      | none => exact hrest
      | some resp =>
        rw [List.reduceOption_cons_of_some, List.flatMap_cons, ← hrest]
        rfl

/-- The others are the log's. -/
theorem Wrote.log (h : Wrote e said reqs resps outs) (he : e.Standard) :
    (outs.flatMap (Output.lines e)).filter (fun line => !isSmpLine line) = said := by
  have hsplit : (outs.flatMap (Output.lines e)).filter (fun line => !isSmpLine line) =
      (outs.filter Output.isSpoken).flatMap (Output.lines e) := by
    refine filter_flatMap ?_ ?_
    · intro o hmem ho line hline
      cases o with
      | spoke b =>
        obtain ⟨l, hl, rfl⟩ := h.spoke hmem
        rw [Output.lines, List.dropLast_concat, List.mem_singleton] at hline
        rw [hline, (h.plain l hl).1]
        rfl
      | answered req resp b => cases ho
      | unanswered req => cases ho
    · intro o _ ho line hline
      cases o with
      | spoke b => cases ho
      | answered req resp b =>
        rw [isSmpLine_wireLines he line hline]
        rfl
      | unanswered req => cases hline
  rw [hsplit, h.spoken]
  simp [List.flatMap_map, Output.lines]

end

/-! ## The mock's side -/

namespace Server
variable {sha256 : Bytes → Bytes} {cbor : Cbor} {srv srv' : Server} {reqs : List Frame}
  {resps : List (Option Frame)}

/-- A response says which request it answers, and fits a frame where its payload does. -/
structure Responds (req resp : Frame) : Prop where
  answers : Answers req resp
  representable : resp.payload.length ≤ 65525 → resp.Representable

theorem responds_of_reply {req resp : Frame} (hreq : req.Representable)
    (h : srv.reply sha256 cbor req = .ok (some resp, srv')) : Responds req resp := by
  unfold reply at h
  split at h
  · cases h
  · have hanswers := answers_of_dispatch sha256 cbor h
    refine ⟨hanswers, fun hfit => ⟨?_, ?_, hfit⟩⟩
    · rw [hanswers.op, Frame.responseOp]
      split
      · decide
      · split
        · decide
        · exact hreq.op
    · rw [hanswers.version]
      exact hreq.version

/-- **Every response of a conversation answers the request in its place.** -/
theorem responds_of_converse (hreqs : ∀ f ∈ reqs, f.Representable)
    (h : srv.converse sha256 cbor reqs = .ok (resps, srv')) :
    List.Forall₂ (fun req resp => ∀ r, resp = some r → Responds req r) reqs resps := by
  induction reqs generalizing srv resps with
  | nil =>
    cases h
    exact .nil
  | cons req reqs ih =>
    obtain ⟨hreq, hreqs⟩ := List.forall_mem_cons.mp hreqs
    rw [converse] at h
    cases hreply : srv.reply sha256 cbor req with
    | error halt =>
      rw [hreply] at h
      cases h
    | ok p =>
      obtain ⟨resp, srv₁⟩ := p
      rw [hreply, bind_ok] at h
      cases hrest : srv₁.converse sha256 cbor reqs with
      | error halt =>
        simp only [hrest] at h
        cases h
      | ok q =>
        obtain ⟨resps', srv₂⟩ := q
        simp only [hrest] at h
        cases h
        refine .cons ?_ (ih hreqs hrest)
        rintro r rfl
        exact responds_of_reply hreq hreply

theorem responds_of_mem (h : List.Forall₂ (fun req resp => ∀ r, resp = some r → Responds req r)
    reqs resps) {r : Frame} (hr : some r ∈ resps) : ∃ req, Responds req r := by
  induction h with
  | nil => cases hr
  | cons hhead _ ih =>
    rcases List.mem_cons.mp hr with heq | hr
    · exact ⟨_, hhead r heq.symm⟩
    · exact ih hr

end Server

namespace Chattering
variable {sha256 : Bytes → Bytes} {cbor : Cbor} {e : Engine} {pty : Pty} {s : Chattering}

/-- **The mock holds the conversation**, in whatever pieces the requests arrive and whatever
it says in between. -/
theorem serve_converses (he : e.Standard) (hpty : pty.Takes) {reqs : List Frame}
    (hreqs : ∀ f ∈ reqs, f.Representable) {reads : List HostRead}
    (hreads : stretches reads = (reqs.flatMap (wireOf e), [])) (hline : s.core.line = [])
    (htext : ∀ text, s.chatter = some text → NEWLINE ∉ text ∧ isSmpLine text = false)
    {resps : List (Option Frame)} {srv : Server}
    (hconv : s.core.srv.converse sha256 cbor reqs = .ok (resps, srv)) :
    ∃ outs s' k, s.serve sha256 cbor e pty reads = (outs, some s') ∧ s'.core.srv = srv ∧
      Wrote e (s.log k) reqs resps outs := by
  obtain ⟨outs, core, hrun, hsrv, -, hanswered⟩ :=
    ServeLoop.run_frames he hpty.answered hreqs hline hconv
  rw [← ticks_of_stretches hreads, ServeLoop.run_bytes_filter] at hrun
  obtain ⟨hloop, hend⟩ :=
    run_core sha256 cbor e pty (s := s) (reads.flatMap HostRead.ticks)
  obtain ⟨k, hspoken⟩ :=
    run_spoken sha256 cbor e (s := s) hpty.spoken (reads.flatMap HostRead.ticks)
  rw [hrun] at hloop hend
  obtain ⟨s', hs', hcore⟩ := Option.map_eq_some_iff.mp hend
  refine ⟨_, s', k, Prod.ext rfl hs', by rw [hcore, hsrv], hspoken, ?_, ?_⟩
  · change _ = outs at hloop
    rw [serve, ← hanswered, ← hloop, List.filter_filter]
    refine List.filter_congr fun o _ => ?_
    cases o <;> rfl
  · refine forall_log ?_ k
    intro text seq hc
    exact ⟨isSmpLine_append (htext text hc).2, newline_notMem_chatterText (htext text hc).1 seq⟩

end Chattering

/-! ## The runtime's side -/

/-- The bodies and errors a decoder makes of a byte stream. -/
def decoded (e : Engine) (d : Decoder) (b : Bytes) : List (Except Error Bytes) :=
  Decoder.outcomes (d.pushLines e (lines NEWLINE b)).1

theorem lines_mono {b b' : Bytes} (h : b <+: b') : lines NEWLINE b <+: lines NEWLINE b' := by
  obtain ⟨rest, rfl⟩ := h
  exact ⟨_, linesFrom_append_stream.symm⟩

theorem queue_mono {out out' : List Routed} (h : out <+: out') : queue out <+: queue out' := by
  obtain ⟨rest, rfl⟩ := h
  exact ⟨queue rest, List.flatMap_append.symm⟩

theorem loggedTexts_mono {out out' : List Routed} (h : out <+: out') :
    loggedTexts out <+: loggedTexts out' := h.filterMap _

theorem decoded_mono {e : Engine} (d : Decoder) {b b' : Bytes} (h : b <+: b') :
    decoded e d b <+: decoded e d b' := by
  obtain ⟨rest, hrest⟩ := lines_mono h
  refine List.IsPrefix.filterMap _ ?_
  rw [← hrest, Decoder.pushLines_append]
  exact List.prefix_append _ _

/-- The frames of a stream of frames. -/
theorem decoded_frames {e : Engine} (he : e.Standard) (d : Decoder) {fs : List Frame}
    (hfs : ∀ f ∈ fs, f.Representable) :
    decoded e d (terminated NEWLINE (fs.flatMap (wireLines e · MAX_LINE))) =
      fs.map fun f => .ok f.body := by
  have hnl : ∀ line ∈ fs.flatMap (wireLines e · MAX_LINE), NEWLINE ∉ line := by
    intro line hline
    obtain ⟨f, -, hline⟩ := List.mem_flatMap.mp hline
    exact newline_notMem_wireLines he (by decide) line hline
  rw [decoded, lines_terminated hnl, Decoder.pushLines_frames he (by decide) hfs]
  clear hnl hfs
  induction fs with
  | nil => rfl
  | cons f fs ih =>
    have hone : ∀ ls : List Bytes, ls ≠ [] →
        Decoder.outcomes ((completing f ls).map fun x => delivery x.2) = [.ok f.body] := by
      intro ls hne
      induction ls with
      | nil => exact absurd rfl hne
      | cons line rest ihl =>
        cases rest with
        | nil => rfl
        | cons line' rest => exact ihl (List.cons_ne_nil _ _)
    have hne : wireLines e f MAX_LINE ≠ [] := by
      rw [wireLines, chunks_cons (by decide) (Decoder.text_ne_nil he)]
      exact List.cons_ne_nil _ _
    rw [List.flatMap_cons, List.map_append, Decoder.outcomes, List.filterMap_append]
    exact congrArg₂ (· ++ ·) (hone _ hne) ih

/-- **What a run of the demux has of the mock's output**: at any moment the beginning of the
answers and of the log, and all of both once it has dealt with all of it. -/
theorem Wrote.demuxed {e : Engine} (he : e.Standard) {said : List Bytes} {reqs : List Frame}
    {resps : List (Option Frame)} {outs : List Output} (h : Wrote e said reqs resps outs)
    (hlen : reqs.length = resps.length) (hfs : ∀ f ∈ resps.reduceOption, f.Representable)
    (hsaid : ∀ line ∈ said, stripReturn line ≠ []) {es : List LogDemux.Event} {shared : Shared}
    (hrun : Run es shared) (hheard : received (heard es) <+: outs.flatMap Output.bytes)
    (d : Decoder) :
    decoded e d (delivered es) <+: resps.reduceOption.map (fun f => .ok f.body) ∧
      loggedTexts (routed es) <+: said.map stripReturn ∧
      (received (heard es) = outs.flatMap Output.bytes → shared.buf = [] →
        shared.pending = [] → shared.smp = [] →
        decoded e d (delivered es) = resps.reduceOption.map (fun f => .ok f.body) ∧
          loggedTexts (routed es) = said.map stripReturn) := by
  have hlines : lines NEWLINE (outs.flatMap Output.bytes) = outs.flatMap (Output.lines e) := by
    rw [h.bytes, lines_terminated (h.newline_notMem he)]
  -- everything that there is to route, and what it comes to
  have hqueue : queue ((outs.flatMap (Output.lines e)).filterMap LogDemux.route) =
      terminated NEWLINE (resps.reduceOption.flatMap (wireLines e · MAX_LINE)) := by
    rw [← flatten_queuedLines, queuedLines_route, h.smp he hlen]
    simp [terminated, List.flatMap_def]
  have hlogged : loggedTexts ((outs.flatMap (Output.lines e)).filterMap LogDemux.route) =
      said.map stripReturn := by
    rw [loggedTexts_route, h.log he, List.filter_eq_self]
    intro text htext
    obtain ⟨line, hline, rfl⟩ := List.mem_map.mp htext
    exact decide_eq_true (hsaid line hline)
  have hacc := hrun.accounts
  have hrouted : routed es <+: (outs.flatMap (Output.lines e)).filterMap LogDemux.route := by
    refine List.IsPrefix.trans ⟨_, hacc.routing⟩ ?_
    rw [← hlines]
    exact (lines_mono hheard).filterMap _
  have hdelivered : delivered es <+:
      terminated NEWLINE (resps.reduceOption.flatMap (wireLines e · MAX_LINE)) := by
    rw [← hqueue]
    exact List.IsPrefix.trans ⟨_, hacc.sent⟩ (queue_mono hrouted)
  refine ⟨?_, ?_, ?_⟩
  · rw [← decoded_frames he d hfs]
    exact decoded_mono d hdelivered
  · rw [← hlogged]
    exact loggedTexts_mono hrouted
  · intro hall hbuf hpending hsmp
    have hroutes : routed es = (outs.flatMap (Output.lines e)).filterMap LogDemux.route := by
      have hrouting := hacc.routing
      rw [hbuf, hall, hlines] at hrouting
      exact (List.append_nil _).symm.trans hrouting
    have hsent : delivered es = queue (routed es) := by
      have hkept := hacc.sent
      rw [hpending, hsmp] at hkept
      exact (List.append_nil _).symm.trans hkept
    rw [hsent, hroutes, hqueue, decoded_frames he d hfs, hlogged]
    exact ⟨rfl, rfl⟩

variable {sha256 : Bytes → Bytes} {cbor : Cbor} {e : Engine} {pty : Pty} {s : Chattering}

/-- **The shared link is transparent.**  The runtime's requests reach the mock in whatever
pieces; the mock prints lines of its log whenever they are due; and a demux takes in what
the mock writes, in any reads, with its client reading in any order and with any buffers.
Then the mock goes through the conversation that `Server.converse` holds without a link,
each response answers its request, and at any moment the client has decoded the first
responses and nothing else, the sink has the first lines of the log and nothing else, and
once all was dealt with each has all of its own. -/
theorem link_transparent (he : e.Standard) (hpty : pty.Takes) {reqs : List Frame}
    (hreqs : ∀ f ∈ reqs, f.Representable) {reads : List HostRead}
    (hreads : stretches reads = (reqs.flatMap (wireOf e), [])) (hline : s.core.line = [])
    (htext : ∀ text, s.chatter = some text → NEWLINE ∉ text ∧ isSmpLine text = false)
    {resps : List (Option Frame)} {srv : Server}
    (hconv : s.core.srv.converse sha256 cbor reqs = .ok (resps, srv))
    (hfit : ∀ r, some r ∈ resps → r.payload.length ≤ 65525) :
    ∃ outs s' k, s.serve sha256 cbor e pty reads = (outs, some s') ∧ s'.core.srv = srv ∧
      List.Forall₂ (fun req resp => ∀ r, resp = some r →
        Server.Answers req r ∧ Frame.parse r.body = .ok r) reqs resps ∧
      ∀ es shared d, Run es shared → received (heard es) <+: outs.flatMap Output.bytes →
        decoded e d (delivered es) <+: resps.reduceOption.map (fun f => .ok f.body) ∧
        loggedTexts (routed es) <+: (s.log k).map stripReturn ∧
        (received (heard es) = outs.flatMap Output.bytes → shared.buf = [] →
          shared.pending = [] → shared.smp = [] →
          decoded e d (delivered es) = resps.reduceOption.map (fun f => .ok f.body) ∧
            loggedTexts (routed es) = (s.log k).map stripReturn) := by
  obtain ⟨outs, s', k, hserve, hsrv, hwrote⟩ :=
    Chattering.serve_converses he hpty hreqs hreads hline htext hconv
  have hresponds := Server.responds_of_converse hreqs hconv
  have hfs : ∀ f ∈ resps.reduceOption, f.Representable := by
    intro f hf
    have hmem : some f ∈ resps := List.reduceOption_mem_iff.mp hf
    obtain ⟨req, hresp⟩ := Server.responds_of_mem hresponds hmem
    exact hresp.representable (hfit f hmem)
  have hsaid : ∀ line ∈ s.log k, stripReturn line ≠ [] := by
    refine Chattering.forall_log ?_ k
    intro text seq _
    rw [stripReturn_chatterText]
    exact List.append_ne_nil_of_right_ne_nil _ (List.cons_ne_nil _ _)
  refine ⟨outs, s', k, hserve, hsrv, ?_, ?_⟩
  · refine List.forall₂_iff_zip.mpr ⟨hresponds.length_eq, ?_⟩
    rintro req _ hzip r rfl
    have hresp : Server.Responds req r := List.forall₂_zip hresponds hzip r rfl
    have hr := hresp.representable (hfit r (List.of_mem_zip hzip).2)
    exact ⟨hresp.answers, Frame.parse_body hr⟩
  · intro es shared d hrun hheard
    exact hwrote.demuxed he hresponds.length_eq hfs hsaid hrun hheard d

/-! ## What the bench leaves out -/

namespace World

/-- Requests to the server, one after another, and their answers. -/
def asks (sha256 : Bytes → Bytes) (w : World) : List Request → List (Option Response) × World
  | [] => ([], w)
  | req :: reqs =>
    let (resp, w) := w.ask sha256 req
    let (resps, w) := asks sha256 w reqs
    (resp :: resps, w)

variable {w w' : World}

variable (sha256) in
theorem asks_hung (h : w.hung = true) (reqs : List Request) :
    (w.asks sha256 reqs).2 = w := by
  induction reqs generalizing w with
  | nil => rfl
  | cons req reqs ih =>
    have hask : w.ask sha256 req = (none, w) := if_pos h
    simp only [asks, hask]
    exact ih h

/-- **The bench's questions are a conversation**, as long as the server returns from each. -/
theorem converse_of_asks {reqs : List Frame} {answers : List (Option Response)}
    (h : w.asks sha256 (reqs.map (Frame.request cbor)) = (answers, w')) (hw : w'.hung = false) :
    w.srv.converse sha256 cbor reqs =
      .ok (List.zipWith (fun req r => r.map (Server.responseFrame cbor req)) reqs answers,
        w'.srv) := by
  induction reqs generalizing w answers with
  | nil =>
    cases h
    rfl
  | cons req reqs ih =>
    obtain ⟨⟨resp, w₁⟩, hask⟩ : ∃ p, w.ask sha256 (req.request cbor) = p := ⟨_, rfl⟩
    obtain ⟨⟨answers', w₂⟩, hrest⟩ :
        ∃ p, w₁.asks sha256 (reqs.map (Frame.request cbor)) = p := ⟨_, rfl⟩
    simp only [List.map_cons, asks, hask, hrest] at h
    cases h
    have hw₁ : w₁.hung = false := by
      apply Bool.eq_false_iff.mpr
      intro hhung
      have hsame := asks_hung sha256 hhung (reqs.map (Frame.request cbor))
      rw [hrest] at hsame
      rw [← hsame, hw] at hhung
      cases hhung
    unfold World.ask at hask
    split at hask
    · rename_i hhung
      cases hask
      rw [hw₁] at hhung
      cases hhung
    · split at hask
      · cases hask
        cases hw₁
      · rename_i hhandle
        cases hask
        have hreply := Server.reply_eq_handle sha256 cbor w.srv req
        rw [hhandle] at hreply
        rw [Server.converse, hreply]
        simp only [Except.map, bind_ok, ih hrest]
        rfl

end World

/-- **What the bench plays is what happens on the link.**  Requests put to the server as the
bench puts them, frame by frame, have certain answers and leave a certain server.  Sent as
frames over the link that carries the log, in any pieces, they leave that server, and the
client decodes the frames of those answers, each for the request in its place: at any
moment the first of them, and all of them once all was dealt with; and the sink gets
the log. -/
theorem bench_on_the_link {w w' : World} {reqs : List Frame} {answers : List (Option Response)}
    {reads : List HostRead} (he : e.Standard) (hpty : pty.Takes)
    (hreqs : ∀ f ∈ reqs, f.Representable)
    (hreads : stretches reads = (reqs.flatMap (wireOf e), [])) (hline : s.core.line = [])
    (htext : ∀ text, s.chatter = some text → NEWLINE ∉ text ∧ isSmpLine text = false)
    (hsrv : w.srv = s.core.srv)
    (hasks : w.asks sha256 (reqs.map (Frame.request cbor)) = (answers, w')) (hw : w'.hung = false)
    (hfit : ∀ req r, (req, some r) ∈ reqs.zip answers →
      (Server.responseFrame cbor req r).payload.length ≤ 65525) :
    let resps := List.zipWith (fun req r => r.map (Server.responseFrame cbor req)) reqs answers
    ∃ outs s' k, s.serve sha256 cbor e pty reads = (outs, some s') ∧ s'.core.srv = w'.srv ∧
      List.Forall₂ (fun req resp => ∀ r, resp = some r →
        Server.Answers req r ∧ Frame.parse r.body = .ok r) reqs resps ∧
      ∀ es shared d, Run es shared → received (heard es) <+: outs.flatMap Output.bytes →
        decoded e d (delivered es) <+: resps.reduceOption.map (fun f => .ok f.body) ∧
        loggedTexts (routed es) <+: (s.log k).map stripReturn ∧
        (received (heard es) = outs.flatMap Output.bytes → shared.buf = [] →
          shared.pending = [] → shared.smp = [] →
          decoded e d (delivered es) = resps.reduceOption.map (fun f => .ok f.body) ∧
            loggedTexts (routed es) = (s.log k).map stripReturn) := by
  refine link_transparent he hpty hreqs hreads hline htext (hsrv ▸ World.converse_of_asks hasks hw)
    ?_
  intro r hr
  rw [← List.map_uncurry_zip_eq_zipWith] at hr
  obtain ⟨⟨req, answer⟩, hzip, heq⟩ := List.mem_map.mp hr
  obtain ⟨resp, rfl, rfl⟩ := Option.map_eq_some_iff.mp heq
  exact hfit req resp hzip

/-- A mock that prints `hi` at the head of every iteration, and a link that takes it. -/
def talkative : Chattering := ⟨.opened, some [104, 105], 0, 0⟩

def openLink : Pty := ⟨fun _ => true, fun _ => none, fun _ => none⟩

/-- One request in two pieces: nothing but its response is ever decoded. -/
theorem bench_on_the_link_params :
    let reads := [.bytes (ServeLoop.paramsLine.take 5), .idle,
      .bytes (ServeLoop.paramsLine.drop 5)]
    let resp := Server.responseFrame ServeLoop.mute ServeLoop.paramsRequest (.mcumgrParams 384 4)
    ∃ outs s', talkative.serve id ServeLoop.mute Engine.standard openLink reads = (outs, some s') ∧
      ∀ es shared, Run es shared → received (heard es) <+: outs.flatMap Output.bytes →
        decoded Engine.standard .new (delivered es) <+: [.ok resp.body] := by
  intro reads resp
  have hreq : ServeLoop.paramsRequest.Representable :=
    ⟨show OP_READ < 8 by decide, show (1 : UInt8) < 4 by decide, show 0 ≤ 65525 by decide⟩
  have hreads : stretches reads =
      ([ServeLoop.paramsRequest].flatMap (wireOf Engine.standard), []) := by decide +kernel
  have htext : ∀ text, talkative.chatter = some text →
      NEWLINE ∉ text ∧ isSmpLine text = false := by
    intro text ht
    cases ht
    decide
  have hasks : World.asks id ⟨talkative.core.srv, false, 0⟩
      ([ServeLoop.paramsRequest].map (Frame.request ServeLoop.mute)) =
        ([some (.mcumgrParams 384 4)], ⟨talkative.core.srv, false, 0⟩) := rfl
  have hfit : ∀ req r, (req, some r) ∈ [ServeLoop.paramsRequest].zip
      [some (Response.mcumgrParams 384 4)] →
        (Server.responseFrame ServeLoop.mute req r).payload.length ≤ 65525 :=
    fun req r _ => Nat.zero_le _
  have htakes : openLink.Takes := ⟨fun _ => rfl, fun _ => rfl⟩
  obtain ⟨outs, s', k, hserve, -, -, hall⟩ := bench_on_the_link Engine.standard_standard
    htakes (List.forall_mem_singleton.mpr hreq) hreads rfl
    htext rfl hasks rfl hfit
  exact ⟨outs, s', hserve, fun es shared hrun hheard => (hall es shared _ hrun hheard).1⟩

end Runtt
