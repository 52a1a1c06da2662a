import Runtt.Recovery
import Runtt.Upload

/-! # Answers that get lost

`mcumgr-toolkit` sends a request again when no answer comes, so a request whose answer the
link loses reaches the mock more than once.  Every request but a reset can stand that: a
second one finds the state the first one left, and is answered so that the client goes on
at the same place.
-/
namespace Runtt

open Interaction Program

/-! ## A request, again -/

section
variable {sha256 : Bytes → Bytes} {dev dev' : Device} {off : Nat} {data : Bytes}

namespace Device

/-- A chunk past the start that is not empty is out of step once it has been taken. -/
theorem uploadChunk_past {len : Option Nat} {sha : Option Bytes} {o : UploadOutcome}
    (hoff : off ≠ 0) (hdata : data ≠ [])
    (h : dev.uploadChunk sha256 off len sha data = .ok (o, dev')) :
    o = .goSilent ∨
      dev'.uploadChunk sha256 off len sha data =
        .ok (.continueAt dev'.upload.received.length, dev') ∧
      (o = .continueAt dev'.upload.received.length ∨
        ∃ matched, o = .complete dev'.upload.received.length matched) := by
  have hagain (hne : off ≠ dev'.upload.received.length) :
      dev'.uploadChunk sha256 off len sha data =
        .ok (.continueAt dev'.upload.received.length, dev') := by
    rw [uploadChunk, if_neg hoff, if_pos hne]
  rw [uploadChunk, if_neg hoff] at h
  by_cases hin : off = dev.upload.received.length
  · rw [if_neg (fun hne => hne hin)] at h
    -- what a chunk brings moves the offset on
    have hmoved : off ≠ (dev.receive data).upload.received.length := by
      have hpos : 0 < data.length := List.length_pos_iff.mpr hdata
      simp only [receive, List.length_append]
      omega
    rcases acceptChunk_cases h with
      ⟨-, rfl, rfl⟩ | ⟨-, -, rfl, -⟩ | ⟨-, -, -, rfl, rfl⟩ | ⟨-, -, -, -, img, -, rfl, rfl⟩ |
      ⟨-, -, -, -, rfl, rfl⟩
    · exact .inr ⟨hagain hoff, .inl rfl⟩
    · exact .inl rfl
    · exact .inr ⟨hagain hmoved, .inl rfl⟩
    · exact .inr ⟨hagain hmoved, .inr ⟨true, rfl⟩⟩
    · exact .inr ⟨hagain hmoved, .inr ⟨false, rfl⟩⟩
  · rw [if_pos hin] at h
    cases h
    exact .inr ⟨hagain hin, .inl rfl⟩

/-- What a chunk leaves in slot 1 may as well have been there before. -/
theorem acceptChunk_again {o : UploadOutcome} (hd : dev.demandsRestart off = false)
    (h : dev.acceptChunk sha256 off data = .ok (o, dev')) :
    ({ dev with slot1 := dev'.slot1 } : Device).acceptChunk sha256 off data = .ok (o, dev') := by
  rcases acceptChunk_cases h with
    ⟨hd₁, -, -⟩ | ⟨-, hs, rfl, rfl⟩ | ⟨-, hs, hc, rfl, rfl⟩ | ⟨-, hs, hc, hm, img, hb, rfl, rfl⟩ |
    ⟨-, hs, hc, hm, rfl, rfl⟩
  · rw [hd] at hd₁
    cases hd₁
  · exact acceptChunk_silent _ hd hs
  · exact acceptChunk_open _ hd hs hc
  · exact acceptChunk_staged { dev with slot1 := some img } hd hs hc hm hb
  · exact acceptChunk_mismatch _ hd hs hc hm

/-- A first chunk starts the upload over. -/
theorem uploadChunk_start {len : Option Nat} {sha : Option Bytes} {o : UploadOutcome}
    (h : dev.uploadChunk sha256 0 len sha data = .ok (o, dev')) :
    dev'.uploadChunk sha256 0 len sha data = .ok (o, dev') := by
  rw [uploadChunk, if_pos rfl] at h ⊢
  have hd : (dev.restartUpload len sha).demandsRestart 0 = false := by
    apply Bool.eq_false_iff.mpr
    intro hd
    obtain ⟨-, -, -, -, hpos⟩ := demandsRestart_iff.mp hd
    exact absurd hpos (Nat.lt_irrefl 0)
  have hover : dev'.restartUpload len sha =
      { dev.restartUpload len sha with slot1 := dev'.slot1 } := by
    rcases acceptChunk_cases h with
      ⟨hd₁, -, -⟩ | ⟨-, -, -, rfl⟩ | ⟨-, -, -, -, rfl⟩ | ⟨-, -, -, -, img, -, -, rfl⟩ |
      ⟨-, -, -, -, -, rfl⟩
    · rw [hd] at hd₁
      cases hd₁
    all_goals rfl
  rw [hover]
  exact acceptChunk_again hd h

/-- A mark is made once. -/
theorem setState_again {hash : Option Bytes} {confirm : Bool} {r : Except String Unit}
    (h : dev.setState hash confirm = (r, dev')) : dev'.setState hash confirm = (r, dev') := by
  rcases setState_cases h with ⟨msg, -, rfl, -⟩ | ⟨s, h0, hnames, rfl, rfl⟩ |
    ⟨s, h1, rfl, hother, rfl, rfl⟩
  · exact h
  · rcases hnames with rfl | rfl
    · rfl
    · have hfail : ¬ (dev.fault = .digestAlreadyFailed ∧ s.hash ∈ dev.failedDigests) := by
        intro hf
        rw [setState] at h
        simp only [if_pos hf] at h
        cases h
      simp only [setState, if_neg hfail, if_true]
  · have hfail : ¬ (dev.fault = .digestAlreadyFailed ∧ s.hash ∈ dev.failedDigests) := by
      intro hf
      rw [setState] at h
      simp only [if_pos hf] at h
      cases h
    simp only [setState, if_neg hfail]
    cases h0 : dev.slot0 with
    | none => simp only [markStaged, if_true]
    | some s0 => simp only [if_neg (hother s0 h0), markStaged, if_true]

end Device
end

/-- A request that may be sent again: no reset, and no empty chunk past the start. -/
def Request.Retryable : Request → Prop
  | .reset => False
  | .upload off _ _ data => off = 0 ∨ data ≠ []
  | _ => True

/-- A chunk past the start of an upload. -/
def Request.Past : Request → Prop
  | .upload off _ _ _ => off ≠ 0
  | _ => False

/-- The answers to a request and to the same request again: they are the same, save that
the chunk that ended an upload comes out of step the next time. -/
def Again (req : Request) (resp resp' : Option Response) : Prop :=
  resp' = resp ∨ req.Past ∧ ∃ size matched,
    resp = some (.complete size matched) ∧ resp' = some (.continueAt size)

section
variable {sha256 : Bytes → Bytes} {srv srv' : Server} {req : Request} {resp : Option Response}

theorem Device.reset_fault (dev : Device) : dev.reset.fault = dev.fault := by
  rcases dev.reset_cases with
    ⟨bad, -, -, hr⟩ | ⟨-, -, hr⟩ | ⟨incoming, -, -, -, hr⟩ | ⟨-, -, hr⟩
  all_goals exact (congrArg Device.fault hr).trans rfl

namespace Server

theorem answer_fault (h : srv.answer sha256 req = .ok (resp, srv')) :
    srv'.dev.fault = srv.dev.fault := by
  have hdev := answer_dev h
  cases req with
  | reset =>
    rw [hdev]
    exact srv.dev.reset_fault
  | setState hash confirm =>
    rw [hdev]
    obtain ⟨r, dev', hs⟩ : ∃ r dev', srv.dev.setState hash confirm = (r, dev') := ⟨_, _, rfl⟩
    rw [hs]
    rcases Device.setState_cases hs with ⟨-, -, rfl, -⟩ | ⟨s, -, -, -, rfl⟩ | ⟨s, -, -, -, -, rfl⟩
    all_goals rfl
  | upload off len sha data =>
    obtain ⟨o, hu⟩ := hdev
    exact (Device.uploadChunk_keepsRunning hu).fault
  | erase =>
    rw [hdev]
    rfl
  | _ => exact congrArg Device.fault hdev

/-- **What may be sent again finds the server where the first one left it**: silenced, or
giving the same answer as far as the client can use it. -/
theorem answer_again (hreq : req.Retryable) (h : srv.answer sha256 req = .ok (resp, srv')) :
    srv'.silent = true ∧ resp = none ∨ srv'.silent = srv.silent ∧
      ∃ resp', srv'.answer sha256 req = .ok (resp', srv') ∧ Again req resp resp' := by
  cases req with
  | reset => exact hreq.elim
  | setState hash confirm =>
    obtain ⟨r, dev', hs⟩ : ∃ r dev', srv.dev.setState hash confirm = (r, dev') := ⟨_, _, rfl⟩
    have hagain := Device.setState_again hs
    simp only [answer, hs] at h
    cases r with
    | ok u =>
      cases h
      refine .inr ⟨rfl, _, ?_, .inl rfl⟩
      simp only [answer, hagain]
    | error msg =>
      cases h
      refine .inr ⟨rfl, _, ?_, .inl rfl⟩
      simp only [answer, hagain]
  | upload off len sha data =>
    simp only [answer] at h
    cases hu : srv.dev.uploadChunk sha256 off len sha data with
    | error halt =>
      rw [hu] at h
      cases h
    | ok p =>
      obtain ⟨o, dev'⟩ := p
      rw [hu, bind_ok] at h
      by_cases hoff : off = 0
      · subst hoff
        have hagain := Device.uploadChunk_start hu
        cases o with
        | goSilent =>
          cases h
          exact .inl ⟨rfl, rfl⟩
        | continueAt off' | complete off' matched =>
          cases h
          refine .inr ⟨rfl, _, ?_, .inl rfl⟩
          simp only [answer, hagain]
          rfl
      · rcases Device.uploadChunk_past hoff (hreq.resolve_left hoff) hu with
          rfl | ⟨hagain, ho⟩
        · cases h
          exact .inl ⟨rfl, rfl⟩
        have hnext (srv₁ : Server) (hdev : srv₁.dev = dev') :
            srv₁.answer sha256 (.upload off len sha data) =
              .ok (some (.continueAt dev'.upload.received.length), srv₁) := by
          subst hdev
          simp only [answer, hagain]
          rfl
        rcases ho with rfl | ⟨matched, rfl⟩
        · cases h
          exact .inr ⟨rfl, _, hnext _ rfl, .inl rfl⟩
        · cases h
          exact .inr ⟨rfl, _, hnext _ rfl, .inr ⟨hoff, _, _, rfl, rfl⟩⟩
  | _ =>
    cases h
    exact .inr ⟨rfl, _, rfl, .inl rfl⟩

end Server

variable (sha256) in
/-- The same against the bench's mock, whatever it does with the request. -/
theorem World.ask_again (w : World) (hreq : req.Retryable) :
    ∃ resp', (w.ask sha256 req).2.ask sha256 req = (resp', (w.ask sha256 req).2) ∧
      Again req (w.ask sha256 req).1 resp' := by
  by_cases hh : w.hears req = true
  · have hheard := hh
    simp only [hears, Bool.and_eq_true, Bool.not_eq_true'] at hheard
    obtain ⟨⟨hhung, hsilent⟩, hwith⟩ := hheard
    cases ha : w.srv.answer sha256 req with
    | error halt =>
      have hask : w.ask sha256 req = (none, { w with hung := true }) := by
        simp only [ask, Server.handle, hhung, hsilent, hwith, ha, Bool.or_self,
          Bool.false_eq_true, if_false]
      rw [hask]
      exact ⟨none, ask_deaf (by simp [hears]), .inl rfl⟩
    | ok p =>
      obtain ⟨resp, srv'⟩ := p
      rw [ask_hears hh ha]
      rcases Server.answer_again hreq ha with ⟨hsil, rfl⟩ | ⟨hsil, resp', ha', hagain⟩
      · exact ⟨none, ask_deaf (by simp [hears, hsil]), .inl rfl⟩
      · refine ⟨resp', ask_hears (w := { w with srv := srv' }) ?_ ha', hagain⟩
        have hwith' : srv'.withholds req.command = false := by
          rw [Server.withholds, Server.answer_fault ha]
          exact hwith
        simp [hears, hhung, hsil, hsilent, hwith']
  · rw [Bool.not_eq_true] at hh
    rw [ask_deaf hh]
    exact ⟨none, ask_deaf hh, .inl rfl⟩

/-- A request sent until an answer gets through, after `n` that did not. -/
def World.askPast (sha256 : Bytes → Bytes) (req : Request) : Nat → World → Option Response × World
  | 0, w => w.ask sha256 req
  | n + 1, w => askPast sha256 req n (w.ask sha256 req).2

variable (sha256) in
/-- However often it is sent, the server is left where one request leaves it. -/
theorem World.askPast_again (hreq : req.Retryable) (n : Nat) (w : World) :
    (askPast sha256 req n w).2 = (w.ask sha256 req).2 ∧
      Again req (w.ask sha256 req).1 (askPast sha256 req n w).1 := by
  obtain ⟨resp', hnext, hagain⟩ := ask_again sha256 w hreq
  have hmore (k : Nat) : askPast sha256 req k (w.ask sha256 req).2 =
      (resp', (w.ask sha256 req).2) := by
    induction k with
    | zero => exact hnext
    | succ k ih => rw [askPast, hnext, ih]
  cases n with
  | zero => exact ⟨rfl, .inl rfl⟩
  | succ n =>
    rw [askPast, hmore n]
    exact ⟨rfl, hagain⟩

variable (sha256) in
theorem World.ask_fault (w : World) (req : Request) :
    (w.ask sha256 req).2.srv.dev.fault = w.srv.dev.fault := by
  unfold ask
  split
  · rfl
  · cases hx : w.srv.handle sha256 req with
    | error halt => rfl
    | ok p =>
      obtain ⟨resp, srv'⟩ := p
      unfold Server.handle at hx
      split at hx
      · cases hx
        rfl
      · exact Server.answer_fault hx

end

/-! ## The bench over a link that loses answers -/

/-- The mock behind a link, and how many requests went over it. -/
structure Linked where
  world : World
  sent : Nat

section
variable (env : Env) (sha256 : Bytes → Bytes) (lost : Nat → Request → Nat)

/-- One request: `lost` is how many answers to it go missing. -/
def Linked.ask (l : Linked) (req : Request) : Option Response × Linked :=
  let (resp, world) := World.askPast sha256 req (lost l.sent req) l.world
  (resp, ⟨world, l.sent + 1⟩)

namespace Env

def linkedCall {α : Type} (l : Linked) (req : Request) (read : Response → Option α) :
    Except Error α × Linked :=
  let (resp, l) := l.ask sha256 lost req
  (env.result read resp, l)

def linkedUploadLoop (image : Bytes) : Nat → Nat → Linked → Option (Except Error Unit) × Linked
  | 0, _, l => (none, l)
  | fuel + 1, off, l =>
    let (resp, l) := l.ask sha256 lost (env.chunkRequest sha256 image off)
    match resp with
    | some (.continueAt off) =>
      if off < image.length then linkedUploadLoop image fuel off l
      else (some (env.uploadResult true), l)
    | some (.complete off matched) =>
      if off < image.length then linkedUploadLoop image fuel off l
      else (some (env.uploadResult matched), l)
    | some _ => (some (.error env.refused), l)
    | none => (some (.error env.unanswered), l)

def linkedUpload (image : Bytes) (l : Linked) : Except Error Unit × Linked :=
  let (r, l) := env.linkedUploadLoop sha256 lost image (uploadFuel image) 0 l
  (r.getD (.error env.unanswered), l)

/-- **The bench, over the link**: the calls that are no requests to the mock are the
bench's own. -/
def linkedBench : (q : Call) → Linked → q.Reply × Linked
  | .params, l => env.linkedCall sha256 lost l .mcumgrParams fun _ => some ()
  | .echo payload, l => env.linkedCall sha256 lost l (.echo payload) fun
    | .echoed r => some r
    | _ => none
  | .imageList, l => env.linkedCall sha256 lost l .readState fun
    | .states images => some (images.map SlotReport.toImageSlot)
    | _ => none
  | .flash image, l => env.linkedUpload sha256 lost image l
  | .setState hash confirm, l => env.linkedCall sha256 lost l (.setState (some hash) confirm) fun
    | .states _ => some ()
    | _ => none
  | .reset, l => env.linkedCall sha256 lost l .reset fun
    | .done => some ()
    | _ => none
  | .openChannel, l => (env.connect l.world.tick, { l with world := l.world.next })
  | .drop, l => ((), l)
  | .deadlinePassed, l => (env.deadlinePassed l.world.tick, { l with world := l.world.next })
  | .describe, l => (env.describe l.world.tick l.world.srv, { l with world := l.world.next })

end Env
end

/-! ## Losses change nothing -/

section
variable {env : Env} {sha256 : Bytes → Bytes} {image : Bytes} {lost : Nat → Request → Nat}

variable (env) in
/-- What the mock can answer to a chunk in step, whatever its faults. -/
theorem ask_chunk_cases {w : World} {off : Nat} (h : w.srv.dev.InSync sha256 image off) :
    (w.ask sha256 (env.chunkRequest sha256 image off)).1 = none ∨
    (∃ off', (w.ask sha256 (env.chunkRequest sha256 image off)).1 = some (.continueAt off') ∧
      (w.ask sha256 (env.chunkRequest sha256 image off)).2.srv.dev.InSync sha256 image off') ∨
    ∃ matched, (w.ask sha256 (env.chunkRequest sha256 image off)).1 =
        some (.complete image.length matched) ∧
      (matched = false → w.srv.dev.fault = .badHash) := by
  cases hh : w.hears (env.chunkRequest sha256 image off) with
  | false =>
    rw [ask_deaf hh]
    exact .inl rfl
  | true =>
    cases hchunk : w.srv.dev.clientChunk sha256 image off (env.chunkLen off) with
    | error halt =>
      have hask : (w.ask sha256 (env.chunkRequest sha256 image off)).1 = none := by
        simp only [World.hears, Bool.and_eq_true, Bool.not_eq_true'] at hh
        obtain ⟨⟨hhung, hsilent⟩, hwith⟩ := hh
        rw [Device.clientChunk] at hchunk
        simp only [World.ask, Server.handle, hhung, hsilent, hwith, Bool.or_self,
          Bool.false_eq_true, if_false]
        simp only [Env.chunkRequest, Server.answer, hchunk]
        rfl
      exact .inl hask
    | ok p =>
      obtain ⟨o, dev'⟩ := p
      obtain ⟨-, hcases⟩ := Device.clientChunk_outcomes h (env.chunkLen_pos off) hchunk
      rw [Device.clientChunk] at hchunk
      have hask {resp : Option Response} {srv : Server}
          (ha : w.srv.answer sha256 (env.chunkRequest sha256 image off) = .ok (resp, srv)) :
          w.ask sha256 (env.chunkRequest sha256 image off) = (resp, { w with srv }) :=
        ask_hears hh ha
      rcases hcases with ⟨rfl, -, -⟩ | ⟨off', rfl, hsync, -, -⟩ | ⟨rfl, hbad, -⟩ | ⟨rfl, -⟩
      · rw [hask (by simp only [Env.chunkRequest, Server.answer, hchunk, bind_ok]; rfl)]
        exact .inl rfl
      · rw [hask (by simp only [Env.chunkRequest, Server.answer, hchunk, bind_ok]; rfl)]
        exact .inr (.inl ⟨off', rfl, hsync⟩)
      · rw [hask (by simp only [Env.chunkRequest, Server.answer, hchunk, bind_ok]; rfl)]
        exact .inr (.inr ⟨false, rfl, fun _ => hbad⟩)
      · rw [hask (by simp only [Env.chunkRequest, Server.answer, hchunk, bind_ok]; rfl)]
        refine .inr (.inr ⟨true, rfl, ?_⟩)
        intro hm
        cases hm

/-- An upload ends well even where the mock answers `match: false` to it. -/
def Tolerant (env : Env) (w : World) : Prop :=
  w.srv.dev.fault = .badHash → env.toleratesMismatch = true

variable (lost) in
/-- The loop leaves the mock where it would without losses.  It also comes to the same end,
save that a client which minds `match: false` may never be told of it. -/
theorem linkedUploadLoop_eq (fuel : Nat) {off : Nat} {l : Linked}
    (hsync : off < image.length → l.world.srv.dev.InSync sha256 image off)
    (hoff : off < image.length ∨ off = 0) :
    (Tolerant env l.world → (env.linkedUploadLoop sha256 lost image fuel off l).1 =
        (env.uploadLoop sha256 image fuel off l.world).1) ∧
      (env.linkedUploadLoop sha256 lost image fuel off l).2.world =
        (env.uploadLoop sha256 image fuel off l.world).2 := by
  induction fuel generalizing off l with
  | zero => exact ⟨fun _ => rfl, rfl⟩
  | succ fuel ih =>
    have hretry : (env.chunkRequest sha256 image off).Retryable := by
      rcases Nat.eq_zero_or_pos off with h0 | hpos
      · exact .inl h0
      · have hin : off < image.length := hoff.resolve_right (Nat.ne_of_gt hpos)
        refine .inr (List.ne_nil_of_length_pos ?_)
        rw [List.length_take, List.length_drop]
        have hlen := env.chunkLen_pos off
        omega
    obtain ⟨hmove, hagain⟩ := World.askPast_again sha256 hretry
      (lost l.sent (env.chunkRequest sha256 image off)) l.world
    have hfault := World.ask_fault sha256 l.world (env.chunkRequest sha256 image off)
    have hcases := fun h => ask_chunk_cases env (hsync h)
    simp only [Env.linkedUploadLoop, Env.uploadLoop, Linked.ask]
    generalize World.askPast sha256 (env.chunkRequest sha256 image off)
      (lost l.sent (env.chunkRequest sha256 image off)) l.world = past at *
    generalize l.world.ask sha256 (env.chunkRequest sha256 image off) = once at *
    obtain ⟨resp', w₁⟩ := past
    obtain ⟨resp, w⟩ := once
    simp only at hmove hagain hfault hcases ⊢
    subst hmove
    have hstart {off' : Nat} (hin : off' < image.length) : off < image.length := by
      rcases hoff with h | rfl
      · exact h
      · exact Nat.zero_lt_of_lt hin
    rcases hagain with rfl | ⟨hpast, size, matched, rfl, rfl⟩
    · -- the same answer takes the client to the same place
      have hgo {off' : Nat} (hin : off' < image.length)
          (hnext : w₁.srv.dev.InSync sha256 image off') :
          (Tolerant env l.world →
              (env.linkedUploadLoop sha256 lost image fuel off' ⟨w₁, l.sent + 1⟩).1 =
                (env.uploadLoop sha256 image fuel off' w₁).1) ∧
            (env.linkedUploadLoop sha256 lost image fuel off' ⟨w₁, l.sent + 1⟩).2.world =
              (env.uploadLoop sha256 image fuel off' w₁).2 := by
        obtain ⟨hreply, hworld⟩ := ih (l := ⟨w₁, l.sent + 1⟩) (fun _ => hnext) (.inl hin)
        exact ⟨fun htolerant => hreply fun hb => htolerant (hfault ▸ hb), hworld⟩
      rcases resp' with _ | resp'
      · exact ⟨fun _ => rfl, rfl⟩
      · cases resp' with
        | continueAt off' =>
          simp only
          by_cases hin : off' < image.length
          · rw [if_pos hin, if_pos hin]
            rcases hcases (hstart hin) with hnone | ⟨_, heq, hsync'⟩ | ⟨_, heq, -⟩
            · cases hnone
            · cases heq
              exact hgo hin hsync'
            · cases heq
          · rw [if_neg hin, if_neg hin]
            exact ⟨fun _ => rfl, rfl⟩
        | complete off' matched =>
          simp only
          by_cases hin : off' < image.length
          · rcases hcases (hstart hin) with hnone | ⟨_, heq, -⟩ | ⟨_, heq, -⟩
            · cases hnone
            · cases heq
            · cases heq
              exact absurd hin (Nat.lt_irrefl _)
          · rw [if_neg hin, if_neg hin]
            exact ⟨fun _ => rfl, rfl⟩
        | _ => exact ⟨fun _ => rfl, rfl⟩
    · -- the chunk that ended the upload: its length is all that is left to say
      have hin : off < image.length := hoff.resolve_right hpast
      rcases hcases hin with hnone | ⟨_, heq, -⟩ | ⟨_, heq, hmatched⟩
      · cases hnone
      · cases heq
      · cases heq
        simp only [Nat.lt_irrefl, if_false, and_true]
        intro htolerant
        cases matched with
        | true => rfl
        | false =>
          have htolerates := htolerant (hmatched rfl)
          simp only [Env.uploadResult, htolerates, Bool.or_true]

variable (env sha256) in
theorem uploadLoop_fault (fuel off : Nat) (w : World) :
    (env.uploadLoop sha256 image fuel off w).2.srv.dev.fault = w.srv.dev.fault := by
  induction fuel generalizing off w with
  | zero => rfl
  | succ fuel ih =>
    have hfault := World.ask_fault sha256 w (env.chunkRequest sha256 image off)
    simp only [Env.uploadLoop]
    generalize w.ask sha256 (env.chunkRequest sha256 image off) = asked at *
    obtain ⟨resp, w₁⟩ := asked
    rcases resp with _ | resp
    · exact hfault
    · cases resp with
      | continueAt off' | complete off' matched =>
        simp only
        split
        · exact (ih off' w₁).trans hfault
        · exact hfault
      | _ => exact hfault

theorem World.hears_iff (w : World) (req : Request) :
    w.hears req = true ↔ w.hung = false ∧ w.srv.silent = false ∧
      w.srv.dev.fault ≠ .timeout req.command.1 req.command.2 := by
  have hwithholds : w.srv.withholds req.command = false ↔
      w.srv.dev.fault ≠ .timeout req.command.1 req.command.2 := by
    unfold Server.withholds
    cases w.srv.dev.fault with
    | timeout group cmd =>
      rw [beq_eq_false_iff_ne, ne_eq, ne_eq, Fault.timeout.injEq, Prod.ext_iff]
      exact not_congr ⟨fun h => ⟨h.1.symm, h.2.symm⟩, fun h => ⟨h.1.symm, h.2.symm⟩⟩
    | _ => exact iff_of_true rfl fun h => by cases h
  rw [World.hears, Bool.and_eq_true, Bool.and_eq_true, Bool.not_eq_true', Bool.not_eq_true',
    Bool.not_eq_true', hwithholds, and_assoc]

variable (env sha256) in
/-- No call changes the fault. -/
theorem bench_fault (q : Call) (w : World) :
    (env.bench sha256 q w).2.srv.dev.fault = w.srv.dev.fault := by
  cases q with
  | openChannel | drop | deadlinePassed | describe => rfl
  | flash image => exact uploadLoop_fault env sha256 (Env.uploadFuel image) 0 w
  | params | echo payload | imageList | setState hash confirm | reset =>
    exact World.ask_fault sha256 w _

theorem linkedCall_eq {α : Type} {req : Request} {read : Response → Option α} {l : Linked}
    (hreq : req.Retryable) (hpast : ¬ req.Past) :
    (env.linkedCall sha256 lost l req read).1 = (env.call sha256 l.world req read).1 ∧
      (env.linkedCall sha256 lost l req read).2.world = (env.call sha256 l.world req read).2 := by
  obtain ⟨hmove, hagain⟩ := World.askPast_again sha256 hreq (lost l.sent req) l.world
  have hsame := hagain.resolve_right fun h => hpast h.1
  exact ⟨congrArg (env.result read) hsame, hmove⟩

/-- **A call over the link** leaves the mock where the bench's call leaves it, unless it is
a reset whose answer gets lost; and the reply is the same, unless it is to an upload that a
`match: false` fails. -/
theorem linkedBench_eq {q : Call} {l : Linked} (hreset : q = .reset → lost l.sent .reset = 0) :
    ((∀ image, q = .flash image → Tolerant env l.world) →
        (env.linkedBench sha256 lost q l).1 = (env.bench sha256 q l.world).1) ∧
      (env.linkedBench sha256 lost q l).2.world = (env.bench sha256 q l.world).2 := by
  cases q with
  | openChannel | drop | deadlinePassed | describe => exact ⟨fun _ => rfl, rfl⟩
  | params | echo payload | imageList | setState hash confirm =>
    exact And.imp_left (fun hreply _ => hreply) (linkedCall_eq trivial id)
  | flash image =>
    have hsync : 0 < image.length → l.world.srv.dev.InSync sha256 image 0 := fun h => ⟨h, .inl rfl⟩
    obtain ⟨hreply, hmove⟩ := linkedUploadLoop_eq lost (Env.uploadFuel image) hsync (.inr rfl)
    refine ⟨fun htolerant => ?_, hmove⟩
    exact congrArg (fun r => r.getD (.error env.unanswered)) (hreply (htolerant image rfl))
  | reset =>
    have hone : World.askPast sha256 .reset (lost l.sent .reset) l.world =
        l.world.ask sha256 .reset := by
      rw [hreset rfl]
      rfl
    exact ⟨fun _ => congrArg (env.result _) (congrArg Prod.fst hone), congrArg Prod.snd hone⟩

variable (env sha256) in
/-- **Lost answers change nothing**, as long as none of them answers a reset: over a link
that loses any others, and with requests sent again until an answer gets through, a deploy
of any file comes to the same result and leaves the mock in the same state as without
losses.  Of a mock that reports `match: false` this needs a client that ends the upload
there all the same. -/
theorem deploy_survives_losses (hreset : ∀ n, lost n .reset = 0) (d : Deploy) {l : Linked}
    (hbad : l.world.srv.dev.fault = .badHash → env.toleratesMismatch = true) :
    (exec (env.linkedBench sha256 lost) d.run.run l).1 = (d.runOn env sha256 l.world).1 ∧
      (exec (env.linkedBench sha256 lost) d.run.run l).2.world =
        (d.runOn env sha256 l.world).2 := by
  refine exec_simulates (f := Linked.world) (P := Tolerant env) ?_ ?_ d.run.run hbad
  · intro q w hw hfault
    exact hw ((bench_fault env sha256 q w).symm.trans hfault)
  · intro q l hl
    obtain ⟨hreply, hmove⟩ := linkedBench_eq (fun _ => hreset l.sent)
    exact ⟨hreply fun _ _ => hl, hmove⟩

end

/-- A link that loses the answer to every other request, unless it is a reset's. -/
def lossyLink (n : Nat) (req : Request) : Nat := if req = .reset then 0 else n % 2

/-- A first release over that link is delivered. -/
theorem deploy_survives_losses_release :
    let env := Env.withinReach (.ok (Deploy.describing "2.0.0"))
    (exec (env.linkedBench sampleSha256 lossyLink) (Deploy.someRelease true).run.run
      ⟨.start (.fresh sampleSha256 .none) "2.0.0", 0⟩).1 = .ok () := by
  intro env
  have hreset : ∀ n, lossyLink n .reset = 0 := fun n => rfl
  refine (deploy_survives_losses env sampleSha256 hreset (Deploy.someRelease true) ?_).1.trans ?_
  · intro h
    cases h
  · decide +kernel

end Runtt
