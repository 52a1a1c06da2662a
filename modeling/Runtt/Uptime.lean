import Mathlib.Data.List.ReduceOption
import Runtt.Chatter

/-! # The mock stays up

A real device stays powered when its host closes the port, and `serve` has no exit but its
errors.  Over every run, whatever arrives and however often the host goes away, the loop
ends at one of two places only: a response that the link does not take, or the last chunk
of an upload whose bytes `mcuboot::parse` does not return from.
-/
namespace Runtt

/-! ## Where the server does not return -/

section
variable {sha256 : Bytes → Bytes} {dev : Device} {off : Nat} {data : Bytes}

variable (sha256) in
theorem Image.fromBytes_halts_iff (v : String) :
    (∃ halt, fromBytes sha256 data v = .error halt) ↔
      ∃ halt, Mcuboot.parse data = .error halt := by
  unfold fromBytes
  cases Mcuboot.parse data with
  | error halt => exact iff_of_true ⟨halt, rfl⟩ ⟨halt, rfl⟩
  | ok r =>
    refine iff_of_false ?_ ?_
    · rintro ⟨halt, h⟩
      cases r <;> cases h
    · rintro ⟨halt, h⟩
      cases h

theorem Device.acceptChunk_halts_iff :
    (∃ halt, dev.acceptChunk sha256 off data = .error halt) ↔
      dev.demandsRestart off = false ∧ (dev.receive data).goesSilent = false ∧
        (dev.receive data).uploadComplete = true ∧
        (dev.receive data).uploadMatches sha256 = true ∧
        ∃ halt, Mcuboot.parse (dev.receive data).upload.received = .error halt := by
  rw [← Image.fromBytes_halts_iff sha256 "2.0.0+staged"]
  unfold acceptChunk
  cases dev.demandsRestart off with
  | true => simp
  | false =>
    cases hs : (dev.receive data).goesSilent with
    | true => simp [hs]
    | false =>
      cases hc : (dev.receive data).uploadComplete with
      | false => simp [hs, hc]
      | true =>
        cases hm : (dev.receive data).uploadMatches sha256 with
        | false => simp [hs, hc, hm]
        | true =>
          simp only [hs, hc, hm, Bool.false_eq_true, if_false, Bool.not_true, if_true, true_and]
          cases Image.fromBytes sha256 (dev.receive data).upload.received "2.0.0+staged" with
          | error halt => exact iff_of_true ⟨halt, rfl⟩ ⟨halt, rfl⟩
          | ok img =>
            refine iff_of_false ?_ ?_
            · rintro ⟨halt, h⟩
              cases h
            · rintro ⟨halt, h⟩
              cases h

end

namespace Server
variable {sha256 : Bytes → Bytes} {cbor : Cbor} {srv : Server} {req : Frame}

/-- The chunk stages an image on whose bytes `mcuboot::parse` does not return. -/
def Stalls (sha256 : Bytes → Bytes) (cbor : Cbor) (srv : Server) (req : Frame) : Prop :=
  ∃ off len sha data, req.request cbor = .upload off len sha data ∧
    srv.dev.stages sha256 off len sha data = true ∧
    ∃ halt, Mcuboot.parse ((srv.dev.uploadAt off len sha).receive data).upload.received =
      .error halt

theorem uploadChunk_halts_iff {len : Option Nat} {sha : Option Bytes} {off : Nat} {data : Bytes} :
    (∃ halt, srv.dev.uploadChunk sha256 off len sha data = .error halt) ↔
      srv.dev.stages sha256 off len sha data = true ∧
        ∃ halt, Mcuboot.parse ((srv.dev.uploadAt off len sha).receive data).upload.received =
          .error halt := by
  have hstages : srv.dev.stages sha256 off len sha data = true ↔
      off = (srv.dev.uploadAt off len sha).upload.received.length ∧
      (srv.dev.uploadAt off len sha).demandsRestart off = false ∧
      ((srv.dev.uploadAt off len sha).receive data).goesSilent = false ∧
      ((srv.dev.uploadAt off len sha).receive data).uploadComplete = true ∧
      ((srv.dev.uploadAt off len sha).receive data).uploadMatches sha256 = true := by
    simp [Device.stages, and_assoc]
  rw [hstages]
  have hchunk : srv.dev.uploadChunk sha256 off len sha data =
      if off = (srv.dev.uploadAt off len sha).upload.received.length then
        (srv.dev.uploadAt off len sha).acceptChunk sha256 off data
      else .ok (.continueAt srv.dev.upload.received.length, srv.dev) := by
    unfold Device.uploadChunk Device.uploadAt
    by_cases hoff : off = 0
    · subst hoff
      rfl
    · rw [if_neg hoff, if_neg hoff]
      by_cases hin : off = srv.dev.upload.received.length
      · rw [if_neg (fun hn => hn hin), if_pos hin]
      · rw [if_pos hin, if_neg hin]
  rw [hchunk]
  by_cases hin : off = (srv.dev.uploadAt off len sha).upload.received.length
  · rw [if_pos hin, Device.acceptChunk_halts_iff]
    simp only [← hin, true_and, and_assoc]
  · rw [if_neg hin]
    refine iff_of_false ?_ fun h => hin h.1.1
    rintro ⟨halt, h⟩
    cases h

/-- **A dispatched request does not return only there.** -/
theorem dispatch_halts_iff :
    (∃ halt, srv.dispatch sha256 cbor req = .error halt) ↔ Stalls sha256 cbor srv req := by
  have hdispatch : (∃ halt, srv.dispatch sha256 cbor req = .error halt) ↔
      ∃ halt, srv.answer sha256 (req.request cbor) = .error halt := by
    unfold dispatch
    cases srv.answer sha256 (req.request cbor) with
    | error halt => exact iff_of_true ⟨halt, rfl⟩ ⟨halt, rfl⟩
    | ok p =>
      refine iff_of_false ?_ ?_
      · rintro ⟨halt, h⟩
        cases h
      · rintro ⟨halt, h⟩
        cases h
  rw [hdispatch, Stalls]
  have hreturns {r : Request} (hup : ∀ off len sha data, r ≠ .upload off len sha data) :
      ¬ ∃ halt, srv.answer sha256 r = .error halt := by
    rintro ⟨halt, h⟩
    cases r with
    | upload off len sha data => exact hup off len sha data rfl
    | setState hash confirm =>
      simp only [answer] at h
      split at h <;> cases h
    | _ => cases h
  by_cases hup : ∃ off len sha data, req.request cbor = .upload off len sha data
  · obtain ⟨off, len, sha, data, hup⟩ := hup
    have hanswer : (∃ halt, srv.answer sha256 (.upload off len sha data) = .error halt) ↔
        ∃ halt, srv.dev.uploadChunk sha256 off len sha data = .error halt := by
      simp only [answer]
      cases srv.dev.uploadChunk sha256 off len sha data with
      | error halt => exact iff_of_true ⟨halt, rfl⟩ ⟨halt, rfl⟩
      | ok p =>
        refine iff_of_false ?_ ?_
        · rintro ⟨halt, h⟩
          rcases p with ⟨_ | _ | _, dev⟩ <;> cases h
        · rintro ⟨halt, h⟩
          cases h
    rw [hup, hanswer, uploadChunk_halts_iff]
    constructor
    · exact fun h => ⟨off, len, sha, data, rfl, h⟩
    · rintro ⟨_, _, _, _, heq, h⟩
      cases heq
      exact h
  · refine iff_of_false (hreturns fun off len sha data h => hup ⟨off, len, sha, data, h⟩) ?_
    rintro ⟨off, len, sha, data, h, -⟩
    exact hup ⟨off, len, sha, data, h⟩

end Server

/-! ## Where the loop ends -/

namespace Server
variable {sha256 : Bytes → Bytes} {cbor : Cbor} {srv srv' srv'' : Server} {req : Frame}

theorem converse_append {before after : List Frame} {resps : List (Option Frame)}
    (h : srv.converse sha256 cbor before = .ok (resps, srv')) :
    srv.converse sha256 cbor (before ++ after) =
      (srv'.converse sha256 cbor after).map fun p => (resps ++ p.1, p.2) := by
  induction before generalizing srv resps with
  | nil =>
    cases h
    rw [List.nil_append]
    cases converse sha256 cbor srv' after with
    | error halt => rfl
    | ok p => rfl
  | cons req before ih =>
    rw [converse] at h
    rw [List.cons_append, converse]
    cases hreply : srv.reply sha256 cbor req with
    | error halt =>
      rw [hreply] at h
      cases h
    | ok p =>
      obtain ⟨resp, srv₁⟩ := p
      rw [hreply, bind_ok] at h
      cases hrest : srv₁.converse sha256 cbor before with
      | error halt =>
        simp only [hrest] at h
        cases h
      | ok q =>
        obtain ⟨resps', srv₂⟩ := q
        simp only [hrest] at h
        cases h
        rw [bind_ok]
        simp only [ih hrest]
        cases converse sha256 cbor srv₂ after with
        | error halt => rfl
        | ok p => rfl

theorem converse_cons {resp : Option Frame} {resps : List (Option Frame)} {reqs : List Frame}
    (hreply : srv.reply sha256 cbor req = .ok (resp, srv'))
    (h : srv'.converse sha256 cbor reqs = .ok (resps, srv'')) :
    srv.converse sha256 cbor (req :: reqs) = .ok (resp :: resps, srv'') := by
  rw [converse, hreply, bind_ok]
  simp only [h]
  rfl

theorem converse_one (req : Frame) : srv.converse sha256 cbor [req] =
    (srv.reply sha256 cbor req).map fun p => ([p.1], p.2) := by
  rw [converse]
  cases srv.reply sha256 cbor req with
  | error halt => rfl
  | ok p => rfl

/-- Not even dispatched. -/
def mutes (srv : Server) (req : Frame) : Bool := srv.silent || srv.withholds (req.group, req.cmd)

end Server

/-- Why the loop ends at a request that it dispatched, having written `n` responses. -/
def EndsAt (sha256 : Bytes → Bytes) (cbor : Cbor) (pty : Pty) (srv : Server) (n : Nat)
    (req : Frame) : Prop :=
  srv.mutes req = false ∧ (srv.Stalls sha256 cbor req ∨
    ∃ resp srv', srv.dispatch sha256 cbor req = .ok (some resp, srv') ∧ pty.wrote n = false)

namespace ServeLoop
variable {sha256 : Bytes → Bytes} {cbor : Cbor} {e : Engine} {pty : Pty} {s : ServeLoop}

/-- What one iteration comes to: it dispatches nothing and goes on, or it dispatches a
request and ends there or goes on from the reply. -/
theorem takeByte_cases (b : UInt8) :
    (∃ s', s.takeByte sha256 cbor e pty.wrote b = ([], some s') ∧ s'.srv = s.srv ∧
      s'.written = s.written) ∨
    (∃ req, s.takeByte sha256 cbor e pty.wrote b = ([req], none) ∧
      EndsAt sha256 cbor pty s.srv s.written req) ∨
    ∃ req resp s', s.takeByte sha256 cbor e pty.wrote b = ([req], some s') ∧
      s.srv.reply sha256 cbor req = .ok (resp, s'.srv) ∧
      s'.written = s.written + resp.toList.length ∧ (resp ≠ none → pty.wrote s.written = true) := by
  unfold takeByte
  split
  · exact .inl ⟨_, rfl, rfl, rfl⟩
  simp only
  generalize hd : (s.decoder.pushLine e s.line).2 = d
  rcases (s.decoder.pushLine e s.line).1 with err | _ | body
  · exact .inl ⟨_, rfl, rfl, rfl⟩
  · exact .inl ⟨_, rfl, rfl, rfl⟩
  simp only [request]
  cases Frame.parse body with
  | error err => exact .inl ⟨_, rfl, rfl, rfl⟩
  | ok req =>
    by_cases hmute : s.srv.mutes req = true
    · rw [Server.mutes] at hmute
      simp only [hmute, if_true]
      exact .inl ⟨_, rfl, rfl, rfl⟩
    · have hreply : s.srv.reply sha256 cbor req = s.srv.dispatch sha256 cbor req := if_neg hmute
      rw [Bool.not_eq_true] at hmute
      have hmute' : (s.srv.silent || s.srv.withholds (req.group, req.cmd)) = false := hmute
      simp only [hmute', Bool.false_eq_true, if_false]
      cases hdispatch : s.srv.dispatch sha256 cbor req with
      | error halt =>
        exact .inr (.inl ⟨req, rfl, hmute, .inl (Server.dispatch_halts_iff.mp ⟨halt, hdispatch⟩)⟩)
      | ok p =>
        rw [hdispatch] at hreply
        obtain ⟨_ | resp, srv⟩ := p
        · exact .inr (.inr ⟨req, none, _, rfl, hreply, rfl, fun h => absurd rfl h⟩)
        · have henc : encode e resp MAX_LINE = .ok _ := encode_eq (by decide)
          simp only [respond, henc]
          cases hwrote : pty.wrote s.written with
          | false => exact .inr (.inl ⟨req, rfl, hmute, .inr ⟨resp, srv, hdispatch, hwrote⟩⟩)
          | true => exact .inr (.inr ⟨req, some resp, _, rfl, hreply, rfl, fun _ => rfl⟩)

theorem tick_cases (t : Tick) :
    (∃ s', dispatched (s.tick sha256 cbor e pty t) = ([], some s') ∧ s'.srv = s.srv ∧
      s'.written = s.written) ∨
    (∃ req, dispatched (s.tick sha256 cbor e pty t) = ([req], none) ∧
      EndsAt sha256 cbor pty s.srv s.written req) ∨
    ∃ req resp s', dispatched (s.tick sha256 cbor e pty t) = ([req], some s') ∧
      s.srv.reply sha256 cbor req = .ok (resp, s'.srv) ∧
      s'.written = s.written + resp.toList.length ∧ (resp ≠ none → pty.wrote s.written = true) := by
  cases t with
  | byte b =>
    rw [dispatched_tick]
    exact takeByte_cases b
  | idle => exact .inl ⟨s, rfl, rfl, rfl⟩
  | gone => exact .inl ⟨s.forget, rfl, rfl, rfl⟩

variable (sha256 cbor e pty s) in
/-- What a run comes to: it goes on from the conversation it has held, or it ends at the
last request that it dispatched. -/
theorem run_cases (ts : List Tick) :
    (∃ s' resps, (dispatched (s.run sha256 cbor e pty ts)).2 = some s' ∧
      s.srv.converse sha256 cbor (dispatched (s.run sha256 cbor e pty ts)).1 =
        .ok (resps, s'.srv) ∧
      s'.written = s.written + resps.reduceOption.length ∧
      ∀ n, s.written ≤ n → n < s'.written → pty.wrote n = true) ∨
    ((dispatched (s.run sha256 cbor e pty ts)).2 = none ∧
      ∃ before req resps srv, (dispatched (s.run sha256 cbor e pty ts)).1 = before ++ [req] ∧
        s.srv.converse sha256 cbor before = .ok (resps, srv) ∧
        EndsAt sha256 cbor pty srv (s.written + resps.reduceOption.length) req) := by
  induction ts generalizing s with
  | nil => exact .inl ⟨s, [], rfl, rfl, rfl, fun n hle hlt => absurd hlt (Nat.not_lt.mpr hle)⟩
  | cons t ts ih =>
    rw [run, dispatched_goOn]
    rcases tick_cases (e := e) (s := s) t with
      ⟨s', htick, hsrv, hwritten⟩ | ⟨req, htick, hends⟩ |
      ⟨req, resp, s', htick, hreply, hwritten, htook⟩
    all_goals rw [htick, thenServe]
    · rw [← hsrv, ← hwritten, List.nil_append]
      exact ih s'
    · exact .inr ⟨rfl, [], req, [], s.srv, rfl, rfl, hends⟩
    · have hcount (resps : List (Option Frame)) :
          s.written + (resp :: resps).reduceOption.length =
            s'.written + resps.reduceOption.length := by
        rw [hwritten, Nat.add_assoc]
        cases resp with
        | none => rw [List.reduceOption_cons_of_none, Option.toList_none, List.length_nil,
            Nat.zero_add]
        | some resp => rw [List.reduceOption_cons_of_some, Option.toList_some, List.length_cons,
            List.length_singleton, Nat.add_comm 1]
      rcases ih s' with
        ⟨s'', resps, hlast, hconv, hw, hall⟩ | ⟨hlast, before, req', resps, srv, hreqs, hconv, hend⟩
      · refine .inl ⟨s'', resp :: resps, hlast, Server.converse_cons hreply hconv, ?_, ?_⟩
        · rw [hw, hcount]
        · intro n hle hlt
          rcases Nat.lt_or_ge n s'.written with hn | hn
          · obtain rfl : n = s.written := by
              cases resp <;> simp at hwritten <;> omega
            refine htook ?_
            rintro rfl
            simp at hwritten
            omega
          · exact hall n hn hlt
      · refine .inr ⟨hlast, req :: before, req', resp :: resps, srv, ?_,
          Server.converse_cons hreply hconv, ?_⟩
        · rw [hreqs]
          rfl
        · rw [hcount]
          exact hend

end ServeLoop

/-- **The mock stays up.**  Whatever arrives, in whatever pieces, and however often the host
goes away, with or without a log on the link: the loop of the mock ends exactly when the
last request it dispatched was answered by a response that the link did not take, or was
the last chunk of an upload, with the digest declared for it, on whose bytes
`mcuboot::parse` does not return. -/
theorem serve_ends_iff {sha256 : Bytes → Bytes} {cbor : Cbor} {e : Engine} {pty : Pty}
    (s : Chattering) (reads : List HostRead) :
    (s.serve sha256 cbor e pty reads).2 = none ↔
      ∃ before req resps srv,
        (s.serve sha256 cbor e pty reads).1.filterMap Output.request = before ++ [req] ∧
        s.core.srv.converse sha256 cbor before = .ok (resps, srv) ∧
        EndsAt sha256 cbor pty srv (s.core.written + resps.reduceOption.length) req := by
  have hserve := Chattering.dispatched_serve sha256 cbor e pty s reads
  rw [← ServeLoop.dispatched_run] at hserve
  have hreqs : (s.serve sha256 cbor e pty reads).1.filterMap Output.request =
      (dispatched (s.core.run sha256 cbor e pty (reads.flatMap HostRead.ticks))).1 :=
    congrArg Prod.fst hserve
  have hlast : (s.serve sha256 cbor e pty reads).2.map Chattering.core =
      (dispatched (s.core.run sha256 cbor e pty (reads.flatMap HostRead.ticks))).2 :=
    congrArg Prod.snd hserve
  rw [hreqs, ← Option.map_eq_none_iff (f := Chattering.core), hlast]
  rcases ServeLoop.run_cases sha256 cbor e pty s.core
      (reads.flatMap HostRead.ticks) with
    ⟨core, resps, hsome, hconv, hwritten, htook⟩ | ⟨hnone, hends⟩
  · rw [hsome]
    refine iff_of_false nofun ?_
    rintro ⟨before, req, resps', srv, heq, hbefore, hmute, hend⟩
    -- the conversation went on behind `before`
    rw [heq, Server.converse_append hbefore, Server.converse_one, Server.reply,
      if_neg (by rw [Server.mutes] at hmute; simp [hmute])] at hconv
    rcases hend with hstalls | ⟨resp, srv', hdispatch, hwrote⟩
    · obtain ⟨halt, hhalt⟩ := Server.dispatch_halts_iff.mpr hstalls
      rw [hhalt] at hconv
      cases hconv
    · rw [hdispatch] at hconv
      cases hconv
      have hcount : (resps' ++ [some resp]).reduceOption.length =
          resps'.reduceOption.length + 1 := by
        rw [List.reduceOption_append, List.length_append]
        rfl
      change core.written = _ + (resps' ++ [some resp]).reduceOption.length at hwritten
      have := htook (s.core.written + resps'.reduceOption.length) (by omega) (by omega)
      rw [hwrote] at this
      cases this
  · exact iff_of_true hnone hends

end Runtt
