import Runtt.Fleet
import Runtt.Resend
import Runtt.Residency

/-! # A container that stays up

`proxy::run` once more, with its board at the other end of the link: the deploy makes its
calls one by one, and the heartbeats of `stay_resident` are echoes that the mock answers.
Signals arrive between any two steps, and the board may be reset at any time by something
else.

A deploy that returned `Ok` had an echo answered, and an image list after its upload.  So the
mock is not one that withholds echoes, and it is not silent; nothing that follows the upload
makes it silent again.  Its heartbeats are then all answered, and what ends the container is
a signal.
-/
namespace Runtt

open Interaction Program Transition

/-- A proxy and its board, and what is left of its deploy once that has begun. -/
structure Tended where
  running : Running
  world : World
  rest : Option (Program Call Call.Reply (Except Failure Unit))

/-- What happens next. -/
inductive TendedMove where
  /-- A signal, or a step of the proxy that neither deploys nor echoes. -/
  | own (m : RunMove)
  /-- `Deploy::run` begins: `fs::read` makes `firmware` of its file. -/
  | begin (firmware : Except Error Bytes)
  /-- The next call of the deploy. -/
  | call (env : Env)
  /-- `Deploy::run` returns. -/
  | returns
  /-- The echo of `stay_resident`. -/
  | beat (env : Env)
  /-- The board is reset by something else. -/
  | reset

namespace Tended

/-- What `run` goes on with after its deploy: a panic ends it, and a parse that does not
return leaves it where it is. -/
def goesOn : Except Failure Unit → Option RunMove
  | .ok () => some (.deploy (.ok ()))
  | .error (.error e) => some (.deploy (.error e))
  | .error (.halted .never) => none
  | .error (.halted _) => some (.fail 101)

/-- A step that the board has no part in. -/
def isOwn : RunMove → Bool
  | .deploy _ | .echo _ => false
  | _ => true

/-- As it is spawned, next to a board. -/
def spawned (args : SpawnArgs) (w : World) : Tended := ⟨.spawned args, w, none⟩

def step (sha256 : Bytes → Bytes) (x : Tended) : TendedMove → Option Tended
  | .own m => if isOwn m then (x.running.step m).map fun running => { x with running } else none
  | .begin firmware =>
    match x.running.proxy.stage, x.running.work, x.rest with
    | .deploying, .settled _, none =>
      some { x with rest := some (Fleet.deployOf x.running.proxy firmware).run.run }
    | _, _, _ => none
  | .call env =>
    match x.running.proxy.stage, x.rest with
    | .deploying, some (.ask q next) =>
      let a := env.bench sha256 q x.world
      some { x with world := a.2, rest := some (next a.1) }
    | _, _ => none
  | .returns => do
    let m ← (x.rest.bind Program.ended).bind goesOn
    let running ← x.running.step m
    return { x with running }
  | .beat env =>
    let a := env.bench sha256 (.echo "hb") x.world
    (x.running.step (.echo a.1)).map fun running => { x with running, world := a.2 }
  | .reset => some { x with world :=
      { x.world with srv := { x.world.srv with dev := x.world.srv.dev.reset } } }

/-- No second `SIGUSR1` follows the one that started it, except after a request to stop, and
`stay_resident` does not panic. -/
def Fair (x : Tended) : TendedMove → Prop
  | .own m => x.running.Quiet m ∧ ∀ w code, x.running.work = .resident w → m ≠ .fail code
  | _ => True

end Tended

variable {env : Env} {sha256 : Bytes → Bytes} {w w' : World} {t : List Event}

/-! ## What a deploy has heard -/

def Call.uploads : Call → Bool
  | .flash _ => true
  | _ => false

/-- Whether an image list was answered since the last upload. -/
def listed (before : Bool) : Event → Bool
  | ⟨.flash _, _⟩ => false
  | ⟨.imageList, .ok _⟩ => true
  | _ => before

/-- What answers say about the mock: one to an image list, that it hears, until the next
upload; one to an echo, that it does not withhold echoes. -/
structure Heard (t : List Event) (w : World) : Prop where
  hears : t.foldl listed false = true → w.hung = false ∧ w.srv.silent = false
  echoes : ∀ payload s, ⟨.echo payload, .ok s⟩ ∈ t → w.srv.dev.fault ≠ .timeout GROUP_OS OS_ECHO

/-- Only an upload can make a mock silent. -/
theorem bench_hears {q : Call} (hq : q.uploads = false) :
    (env.bench sha256 q w).2.hung = w.hung ∧
      (env.bench sha256 q w).2.srv.silent = w.srv.silent := by
  by_cases hquiet : q.writes = false
  · obtain ⟨hsrv, hhung⟩ := bench_quiet hquiet
    exact ⟨hhung, congrArg Server.silent hsrv⟩
  · cases q with
    | flash image => cases hq
    | setState hash confirm =>
      rcases bench_setState env sha256 w hash confirm with ⟨e, hb⟩ | ⟨dev', -, hb⟩
      · rw [hb]
        exact ⟨rfl, rfl⟩
      · rw [hb]
        exact ⟨rfl, rfl⟩
    | reset =>
      rcases bench_reset env sha256 w with ⟨e, hb⟩ | hb
      · rw [hb]
        exact ⟨rfl, rfl⟩
      · rw [hb]
        exact ⟨rfl, rfl⟩
    | _ => exact absurd rfl hquiet

/-- An answered request was heard. -/
theorem hears_of_call {α : Type} {req : Request} {read : Response → Option α} {a : α}
    (h : (env.call sha256 w req read).1 = .ok a) : w.hears req = true := by
  rw [← Bool.not_eq_false]
  intro hdeaf
  rw [call_deaf hdeaf] at h
  cases h

theorem heard_nil (w : World) : Heard [] w := by
  refine ⟨fun h => ?_, fun payload s h => ?_⟩
  · cases h
  · cases h

/-- What was heard is as true after a call that is no upload, or after a reset. -/
theorem Heard.move (h : Heard t w) (hhung : w'.hung = w.hung)
    (hsilent : w'.srv.silent = w.srv.silent) (hfault : w'.srv.dev.fault = w.srv.dev.fault) :
    Heard t w' where
  hears hlisted := by
    rw [hhung, hsilent]
    exact h.hears hlisted
  echoes payload s hmem := by
    rw [hfault]
    exact h.echoes payload s hmem

/-- One more call. -/
theorem Heard.call (h : Heard t w) (env : Env) (q : Call) :
    Heard (t ++ [⟨q, (env.bench sha256 q w).1⟩]) (env.bench sha256 q w).2 := by
  have hfault := bench_fault env sha256 q w
  refine ⟨fun hlisted => ?_, fun payload s hmem => ?_⟩
  · rw [List.foldl_append, List.foldl_cons, List.foldl_nil] at hlisted
    cases q with
    | flash image => cases hlisted
    | imageList =>
      rcases bench_imageList env sha256 w with ⟨e, hb⟩ | hb
      · rw [hb] at hlisted ⊢
        exact h.hears hlisted
      · have hhears : w.hears .readState = true := hears_of_call (congrArg Prod.fst hb)
        rw [hb]
        obtain ⟨hhung, hsilent, -⟩ := (World.hears_iff w _).mp hhears
        exact ⟨hhung, hsilent⟩
    | _ =>
      have hbefore := h.hears hlisted
      exact ⟨(bench_hears rfl).1.trans hbefore.1, (bench_hears rfl).2.trans hbefore.2⟩
  · rw [hfault]
    rcases List.mem_append.mp hmem with hold | hnew
    · exact h.echoes payload s hold
    · obtain ⟨rfl, hreply⟩ := Exchange.mk.inj (List.mem_singleton.mp hnew)
      have hhears : w.hears (.echo payload) = true := hears_of_call (eq_of_heq hreply).symm
      exact ((World.hears_iff w _).mp hhears).2.2

theorem foldl_listed (h : ∀ x ∈ t, x.question.uploads = false) : t.foldl listed true = true := by
  induction t with
  | nil => rfl
  | cons x t ih =>
    obtain ⟨hx, ht⟩ := List.forall_mem_cons.mp h
    have hkeep : listed true x = true := by
      obtain ⟨q, r⟩ := x
      cases q with
      | flash image => cases hx
      | imageList => cases r <;> rfl
      | _ => rfl
    rw [List.foldl_cons, hkeep]
    exact ih ht

theorem Polling.no_upload (h : Polling t) : ∀ x ∈ t, x.question.uploads = false := by
  intro x hx
  have hpolls := h x hx
  cases hq : x.question with
  | flash image =>
    rw [hq] at hpolls
    cases hpolls
  | _ => rfl

/-- **What a deploy that returns `Ok` has heard.** -/
theorem Deploy.listed_of_ok {d : Deploy} (hy : Yields d.run t (.ok ())) :
    t.foldl listed false = true ∧ ∃ s, ⟨.echo "runtt", .ok s⟩ ∈ t := by
  rcases run_cases hy with
    ⟨f, ho, -⟩ | ⟨image, digest, p, s, a, slots, rest, -, -, rfl, -, hrest⟩
  · cases ho
  refine ⟨?_, s, List.mem_append_left _ (by simp [vetting])⟩
  rw [List.foldl_append]
  rcases hrest with ⟨-, rfl, -⟩ | ⟨-, -, hcourse⟩
  · rfl
  · cases hcourse with
    | writtenDirectly _ _ _ hq =>
      rw [List.foldl_cons, List.foldl_cons]
      exact foldl_listed (List.forall_mem_cons.mpr ⟨rfl, hq.no_upload⟩)
    | confirmSent _ _ hq _ _ _ _ ho =>
      rcases ho with ⟨-, -, rfl⟩ | ⟨f, e, ho, -⟩
      · rw [List.foldl_cons, List.foldl_cons]
        refine foldl_listed ?_
        simp only [List.forall_mem_cons, List.forall_mem_append]
        exact ⟨rfl, rfl, rfl, hq.no_upload, rfl, rfl, rfl, by simp⟩
      · cases ho

/-! ## A resident proxy -/

/-- No heartbeat has failed. -/
def Watch.Unfailed : Watch → Prop
  | .head failures | .slept failures | .echoing failures => failures = 0
  | .returned _ => False

theorem Watch.step_unfailed {watch watch' : Watch} {seen : Seen} (h : watch.Unfailed)
    (hseen : ∀ e, seen ≠ .echo (.error e)) (hstep : watch.step seen = some watch') :
    watch'.Unfailed ∨ watch' = .returned (.ok ()) := by
  cases watch with
  | head failures =>
    cases seen with
    | stop reading =>
      cases reading with
      | false =>
        cases hstep
        exact .inl h
      | true =>
        cases hstep
        exact .inr rfl
    | echo r => cases hstep
  | slept failures =>
    cases seen with
    | stop reading =>
      cases reading with
      | false =>
        cases hstep
        exact .inl h
      | true =>
        cases hstep
        exact .inr rfl
    | echo r => cases hstep
  | echoing failures =>
    cases seen with
    | stop reading => cases hstep
    | echo r =>
      cases r with
      | ok s =>
        cases hstep
        exact .inl rfl
      | error e => exact absurd rfl (hseen e)
  | returned r => cases h

namespace Running

variable {r r' : Running} {m : RunMove} {seen : Seen} {place : Watch}

/-- Where a proxy is that is past its deploy. -/
inductive Ends (r : Running) : Prop where
  | up (h : r.proxy.stage = .deploying)
  | stopped (h : r.proxy.stage = .exiting 0)
  | killed (h : r.proxy.stage = .killed SIGKILL) (hsig : SIGKILL ∈ r.delivered)

/-- If it is resident, no heartbeat has failed, and it is up, was stopped, or was killed. -/
def Steady (r : Running) : Prop := ∀ place, r.work = .resident place → place.Unfailed ∧ r.Ends

/-- Behind phase 1 only `SIGKILL` ends it. -/
theorem deliver_past (p : Proxy) (sig : Nat) (hhandlers : p.stage.handlers = HANDLED)
    (hpaused : p.stage ≠ .paused) (hkilled : ∀ s, p.stage ≠ .killed s) :
    (p.deliver sig).stage = p.stage ∨ sig = SIGKILL ∧ (p.deliver sig).stage = .killed SIGKILL := by
  unfold Proxy.deliver
  split
  · rename_i s hs
    exact absurd hs (hkilled s)
  · rw [hhandlers]
    by_cases hhandled : sig ∈ HANDLED
    · rw [if_pos hhandled]
      exact .inl (if_neg hpaused)
    · rw [if_neg hhandled]
      by_cases hsig : sig = SIGKILL
      · rw [if_pos (.inl hsig)]
        exact .inr ⟨hsig, congrArg Stage.killed hsig⟩
      · rw [if_neg (not_or.mpr ⟨hsig, hhandled⟩)]
        exact .inl rfl

theorem Ends.signal (h : r.Ends) (sig : Nat) :
    Ends { r with proxy := r.proxy.deliver sig, delivered := r.delivered ++ [sig] } := by
  have hmem : sig ∈ r.delivered ++ [sig] := List.mem_append_right _ (List.mem_singleton_self sig)
  cases h with
  | up h =>
    rcases deliver_past r.proxy sig (by rw [h]; rfl) (by rw [h]; decide)
      (fun s hs => by rw [h] at hs; cases hs) with hsame | ⟨rfl, hkill⟩
    · exact .up (hsame.trans h)
    · exact .killed hkill hmem
  | stopped h =>
    rcases deliver_past r.proxy sig (by rw [h]; rfl) (by rw [h]; decide)
      (fun s hs => by rw [h] at hs; cases hs) with hsame | ⟨rfl, hkill⟩
    · exact .stopped (hsame.trans h)
    · exact .killed hkill hmem
  | killed h hsig =>
    have hsame : r.proxy.deliver sig = r.proxy := by
      unfold Proxy.deliver
      rw [h]
    refine .killed ?_ (List.mem_append_left _ hsig)
    rw [hsame]
    exact h

theorem Ends.advance (h : r.Ends) : r.proxy.advance = r.proxy := by
  unfold Proxy.advance
  cases h with
  | up h => rw [h]
  | stopped h => rw [h]
  | killed h _ => rw [h]

theorem watch_cases (h : r.watch seen = some r') :
    ∃ place place', r.work = .resident place ∧ r.proxy.stage = .deploying ∧
      place.step seen = some place' ∧ r' = r.reach place' := by
  unfold Running.watch at h
  split at h
  · rename_i place hstage hwork
    obtain ⟨place', hplace', rfl⟩ := Option.map_eq_some_iff.mp h
    exact ⟨place, place', hwork, hstage, hplace', rfl⟩
  · cases h

theorem Steady.watch (h : r.Steady) (hseen : ∀ e, seen ≠ .echo (.error e))
    (hstep : r.watch seen = some r') : r'.Steady := by
  obtain ⟨place, place', hwork, hstage, hplace, rfl⟩ := watch_cases hstep
  obtain ⟨hunfailed, -⟩ := h place hwork
  rcases Watch.step_unfailed hunfailed hseen hplace with hunfailed' | rfl
  · have hreach : r.reach place' = { r with work := .resident place' } := by
      cases place' with
      | returned r => cases hunfailed'
      | _ => rfl
    rw [hreach]
    intro w hw
    cases hw
    exact ⟨hunfailed', .up hstage⟩
  · intro w hw
    change r.work = .resident w at hw
    exact ⟨(h w hw).1, .stopped rfl⟩

/-- Only the end of the deploy makes it resident. -/
theorem resident_of_step (hstep : r.step m = some r') (hwork : r'.work = .resident place) :
    (∃ place, r.work = .resident place) ∨ m = .deploy (.ok ()) := by
  have hwatch {seen : Seen} (h : r.watch seen = some r') : ∃ place, r.work = .resident place := by
    obtain ⟨place, -, hbefore, -⟩ := watch_cases h
    exact ⟨place, hbefore⟩
  cases m with
  | signal sig =>
    cases hstep
    exact .inl ⟨place, hwork⟩
  | advance =>
    cases hstep
    exact .inl ⟨place, hwork⟩
  | resolve host =>
    simp only [Running.step] at hstep
    split at hstep
    · split at hstep
      · cases hstep
        cases hwork
      · cases hstep
        exact .inl ⟨place, hwork⟩
    · cases hstep
  | claim granted =>
    simp only [Running.step] at hstep
    split at hstep
    · split at hstep
      · cases hstep
        cases hwork
      · cases hstep
        exact .inl ⟨place, hwork⟩
    · cases hstep
  | overrideLog host =>
    simp only [Running.step] at hstep
    split at hstep
    · split at hstep
      · cases hstep
        cases hwork
      · cases hstep
        exact .inl ⟨place, hwork⟩
    · cases hstep
  | deploy outcome =>
    simp only [Running.step] at hstep
    split at hstep
    · split at hstep
      · exact .inr rfl
      · cases hstep
        exact .inl ⟨place, hwork⟩
    · cases hstep
  | look => exact .inl (hwatch hstep)
  | echo outcome => exact .inl (hwatch hstep)
  | fail code =>
    simp only [Running.step] at hstep
    split at hstep
    · cases hstep
    · obtain ⟨p, -, rfl⟩ := Option.map_eq_some_iff.mp hstep
      exact .inl ⟨place, hwork⟩

/-- **A resident proxy stays steady** as long as no echo fails and nothing panics. -/
theorem Steady.step (h : r.Steady)
    (hfree : ∀ place, r.work = .resident place →
      (∀ e, m ≠ .echo (.error e)) ∧ ∀ code, m ≠ .fail code)
    (hstep : r.step m = some r') : r'.Steady := by
  intro place hwork
  rcases resident_of_step hstep hwork with ⟨before, hbefore⟩ | rfl
  · obtain ⟨hecho, hfail⟩ := hfree before hbefore
    obtain ⟨hunfailed, hends⟩ := h before hbefore
    cases m with
    | signal sig =>
      cases hstep
      exact ⟨(h place hwork).1, hends.signal sig⟩
    | advance =>
      cases hstep
      refine ⟨(h place hwork).1, ?_⟩
      rw [hends.advance]
      exact hends
    | look =>
      exact h.watch (fun e he => by cases he) hstep place hwork
    | echo outcome =>
      exact h.watch (fun e he => by cases he; exact hecho e rfl) hstep place hwork
    | fail code => exact absurd rfl (hfail code)
    | resolve host =>
      simp only [Running.step] at hstep
      split at hstep
      · rename_i hstage
        cases hends with
        | up h | stopped h | killed h _ => cases h.symm.trans hstage
      · cases hstep
    | claim granted | overrideLog host | deploy outcome =>
      simp only [Running.step] at hstep
      split at hstep
      · rename_i hwork'
        cases hbefore.symm.trans hwork'
      · cases hstep
  · simp only [Running.step] at hstep
    split at hstep
    · rename_i hstage hsettled
      cases hstep
      cases hwork
      exact ⟨rfl, .up hstage⟩
    · cases hstep

end Running

/-! ## A proxy next to its board -/

namespace Tended

open Running

variable {x x' : Tended} {m : TendedMove} {place : Watch}

/-- The proxy is steady, its deploy is on its way and has heard what the board still says, and it
is resident only once the deploy has returned `Ok`. -/
structure Tends (x : Tended) : Prop where
  unasked : x.running.Asked ∨ x.running.Undisturbed
  steady : x.running.Steady
  onWay : ∀ p, x.rest = some p → ∃ (d : Deploy) (t : List Event),
    After d.run.run t p ∧ Heard t x.world
  deployed : ∀ place, x.running.work = .resident place → x.rest = some (.done (.ok ()))

/-- The mock next to a resident proxy answers its echoes. -/
theorem Tends.hears (h : x.Tends) (hres : x.running.work = .resident place) (payload : String) :
    x.world.hears (.echo payload) = true := by
  obtain ⟨d, t, hafter, hheard⟩ := h.onWay _ (h.deployed place hres)
  have hy : Yields d.run t (.ok ()) := by
    have hruns := hafter.runs (.done _)
    rwa [List.append_nil] at hruns
  obtain ⟨hlisted, s, hecho⟩ := Deploy.listed_of_ok hy
  obtain ⟨hhung, hsilent⟩ := hheard.hears hlisted
  exact (World.hears_iff _ _).mpr ⟨hhung, hsilent, hheard.echoes _ s hecho⟩

theorem Tends.beat (h : x.Tends) (hres : x.running.work = .resident place) (env : Env)
    (payload : String) : (env.bench sha256 (.echo payload) x.world).1 = .ok payload := by
  exact congrArg Prod.fst (call_hears (h.hears hres payload) rfl)

/-- A move that is fair whenever it comes. -/
def isPlain : TendedMove → Bool
  | .own (.signal sig) => sig != SIGUSR1
  | .own (.fail _) => false
  | _ => true

theorem fair_of_isPlain (h : isPlain m = true) (x : Tended) : x.Fair m := by
  cases m with
  | own m =>
    refine ⟨fun hm => ?_, fun place code hres hm => ?_⟩
    · subst hm
      cases h
    · subst hm
      cases h
  | _ => trivial

/-- What the proxy does, and what becomes of its board. -/
inductive Stepped (sha256 : Bytes → Bytes) (x : Tended) : TendedMove → Tended → Prop where
  | own {m : RunMove} {running : Running} (hown : isOwn m = true)
      (hstep : x.running.step m = some running) : Stepped sha256 x (.own m) { x with running }
  | begin {firmware : Except Error Bytes} {resolved : Resolved}
      (hwork : x.running.work = .settled resolved) :
      Stepped sha256 x (.begin firmware)
        { x with rest := some (Fleet.deployOf x.running.proxy firmware).run.run }
  | call {env : Env} {q : Call} {next : q.Reply → Program Call Call.Reply (Except Failure Unit)}
      (hrest : x.rest = some (.ask q next)) :
      Stepped sha256 x (.call env) ⟨x.running, (env.bench sha256 q x.world).2,
        some (next (env.bench sha256 q x.world).1)⟩
  | returns {o : Except Failure Unit} {m : RunMove} {running : Running}
      (hrest : x.rest = some (.done o)) (ho : goesOn o = some m)
      (hstep : x.running.step m = some running) : Stepped sha256 x .returns { x with running }
  | beat {env : Env} {running : Running}
      (hstep : x.running.step (.echo (env.bench sha256 (.echo "hb") x.world).1) = some running) :
      Stepped sha256 x (.beat env)
        { x with running, world := (env.bench sha256 (.echo "hb") x.world).2 }
  | reset : Stepped sha256 x .reset { x with world :=
      { x.world with srv := { x.world.srv with dev := x.world.srv.dev.reset } } }

theorem stepped_of_step (h : x.step sha256 m = some x') : Stepped sha256 x m x' := by
  cases m with
  | own m =>
    simp only [step] at h
    split at h
    · rename_i hown
      obtain ⟨running, hstep, rfl⟩ := Option.map_eq_some_iff.mp h
      exact .own hown hstep
    · cases h
  | begin firmware =>
    simp only [step] at h
    split at h
    · rename_i hwork _
      cases h
      exact .begin hwork
    · cases h
  | call env =>
    simp only [step] at h
    split at h
    · rename_i hrest
      cases h
      exact .call hrest
    · cases h
  | returns =>
    simp only [step] at h
    obtain ⟨m, hm, h⟩ := Option.bind_eq_some_iff.mp h
    obtain ⟨running, hstep, h⟩ := Option.bind_eq_some_iff.mp h
    cases h
    obtain ⟨o, hended, ho⟩ := Option.bind_eq_some_iff.mp hm
    obtain ⟨p, hrest, hp⟩ := Option.bind_eq_some_iff.mp hended
    rw [ended_eq_some.mp hp] at hrest
    exact .returns hrest ho hstep
  | beat env =>
    obtain ⟨running, hstep, rfl⟩ := Option.map_eq_some_iff.mp h
    exact .beat hstep
  | reset =>
    cases h
    exact .reset

theorem goesOn_cases {o : Except Failure Unit} {m : RunMove} (h : goesOn o = some m) :
    (o = .ok () ∧ m = .deploy (.ok ())) ∨ (∃ e, m = .deploy (.error e)) ∨ m = .fail 101 := by
  unfold goesOn at h
  split at h
  · cases h
    exact .inl ⟨rfl, rfl⟩
  · cases h
    exact .inr (.inl ⟨_, rfl⟩)
  · cases h
  · cases h
    exact .inr (.inr rfl)

/-- What the proxy does keeps it from mistaking anything for a request to stop. -/
theorem Tends.unasked_step {running : Running} {m : RunMove} (h : x.Tends)
    (hquiet : x.running.Quiet m) (hstep : x.running.step m = some running) :
    running.Asked ∨ running.Undisturbed :=
  undisturbed_of_does (does_of_step hstep) (Undisturbed.heeds h.unasked hstep) hquiet h.unasked

theorem Tends.step (h : x.Tends) (hfair : x.Fair m) (hstep : Stepped sha256 x m x') :
    x'.Tends := by
  cases hstep with
  | @own m running hown hstep =>
    obtain ⟨hquiet, hfail⟩ := hfair
    refine ⟨h.unasked_step hquiet hstep, h.steady.step (fun place hres => ⟨?_, ?_⟩) hstep,
      h.onWay, fun place hres => ?_⟩
    · rintro e rfl
      cases hown
    · exact fun code => hfail place code hres
    · rcases resident_of_step hstep hres with ⟨before, hbefore⟩ | rfl
      · exact h.deployed before hbefore
      · cases hown
  | begin hwork =>
    refine ⟨h.unasked, h.steady, fun p hp => ?_, fun place hres => ?_⟩
    · cases hp
      exact ⟨_, [], .nil _, heard_nil _⟩
    · cases hwork.symm.trans hres
  | @call env q next hrest =>
    refine ⟨h.unasked, h.steady, fun p hp => ?_, fun place hres => ?_⟩
    · cases hp
      obtain ⟨d, t, hafter, hheard⟩ := h.onWay _ hrest
      exact ⟨d, _, hafter.snoc _, hheard.call env q⟩
    · cases hrest.symm.trans (h.deployed place hres)
  | @returns o m running hrest ho hstep =>
    have hcases := goesOn_cases ho
    have hquiet : x.running.Quiet m := by
      rintro rfl
      rcases hcases with ⟨-, hm⟩ | ⟨e, hm⟩ | hm <;> cases hm
    refine ⟨h.unasked_step hquiet hstep, h.steady.step (fun place hres => ?_) hstep,
      h.onWay, fun place hres => ?_⟩
    · -- a resident proxy's deploy returned `Ok`
      cases hrest.symm.trans (h.deployed place hres)
      cases ho
      exact ⟨fun e he => (by cases he), fun code hcode => (by cases hcode)⟩
    · rcases resident_of_step hstep hres with ⟨before, hbefore⟩ | rfl
      · exact h.deployed before hbefore
      · rcases hcases with ⟨rfl, -⟩ | ⟨e, hm⟩ | hm
        · exact hrest
        · cases hm
        · cases hm
  | @beat env running hstep =>
    refine ⟨h.unasked_step (fun hm => (by cases hm)) hstep,
      h.steady.step (fun place hres => ⟨?_, fun code hcode => (by cases hcode)⟩) hstep,
      fun p hp => ?_, fun place hres => ?_⟩
    · intro e he
      rw [h.beat hres] at he
      cases he
    · obtain ⟨d, t, hafter, hheard⟩ := h.onWay p hp
      exact ⟨d, t, hafter, hheard.move (bench_hears rfl).1 (bench_hears rfl).2
        (bench_fault env sha256 _ _)⟩
    · rcases resident_of_step hstep hres with ⟨before, hbefore⟩ | hm
      · exact h.deployed before hbefore
      · cases hm
  | reset =>
    refine ⟨h.unasked, h.steady, fun p hp => ?_, h.deployed⟩
    obtain ⟨d, t, hafter, hheard⟩ := h.onWay p hp
    exact ⟨d, t, hafter, hheard.move rfl rfl x.world.srv.dev.reset_fault⟩

theorem tends {args : SpawnArgs} {w : World}
    (h : Reaches (step sha256) Fair (spawned args w) x) : x.Tends := by
  refine h.invariant (I := Tends) ?_ fun _ hx hfair hstep => hx.step hfair (stepped_of_step hstep)
  refine ⟨.inr ⟨unasked_spawned args, fun hreleased => (by cases hreleased)⟩, ?_, ?_, ?_⟩
  · intro place hres
    cases hres
  · intro p hp
    cases hp
  · intro place hres
    cases hres

variable (sha256) in
/-- **A container whose deploy succeeded stays up until it is told to stop.**  Whatever the
mock's fault and whatever state it was in, whatever arrives in between and however often the
board is reset by something else: once the proxy is resident, the mock answers every
heartbeat, and the proxy is up, or has exited with 0 after it was asked to stop, or was
killed.  Only a panic and a second `SIGUSR1` are left out. -/
theorem stays_up {args : SpawnArgs} {w : World}
    (h : Reaches (step sha256) Fair (spawned args w) x)
    (hres : x.running.work = .resident place) :
    (∀ env : Env, (env.bench sha256 (.echo "hb") x.world).1 = .ok "hb") ∧
      (x.running.proxy.stage = .deploying ∨
        x.running.proxy.stage = .exiting 0 ∧ x.running.Asked ∨
        x.running.proxy.stage = .killed SIGKILL ∧ SIGKILL ∈ x.running.delivered) := by
  have htends := tends h
  refine ⟨fun env => htends.beat hres env "hb", ?_⟩
  cases (htends.steady place hres).2 with
  | up h => exact .inl h
  | stopped h =>
    refine .inr (.inl ⟨h, htends.unasked.resolve_right fun hun => ?_⟩)
    have hunled := hun.1.stage
    rw [h] at hunled
    exact hunled rfl
  | killed h hsig => exact .inr (.inr ⟨h, hsig⟩)

/-- It is spawned next to a factory board, and comes to its first wait. -/
def launched : List TendedMove := List.replicate 4 (.own .advance)

/-- It is started, deploys, and is told to stop after a heartbeat and a reset of the board. -/
def startedAndStopped : List TendedMove :=
  List.replicate 2 (.own .advance) ++
    [.own (.resolve plainHost), .own (.claim true), .own (.overrideLog plainHost),
      .begin (.ok (Mcuboot.signedImage (List.replicate 32 1)))] ++
    List.replicate 17 (.call attachedEnv) ++
    [.returns, .own .look, .own .look, .beat attachedEnv, .reset, .own .look, .own .look,
      .beat attachedEnv, .own (.signal SIGTERM), .own .look]

def factoryBoard : World := .start (.fresh sampleSha256 .none) "2.0.0"

theorem startedAndStopped_leads :
    ((launched.foldlM (step sampleSha256) (spawned plainArgs factoryBoard)).any fun x =>
      !x.running.released && (x.step sampleSha256 (.own (.signal SIGUSR1))).any fun x₁ =>
        (startedAndStopped.foldlM (step sampleSha256) x₁).any fun x₂ =>
          decide (x₂.running.work = .resident (.head 0)) &&
            decide (x₂.running.proxy.stage = .exiting 0)) = true := by
  decide +kernel

/-- It exits with 0 because of the `SIGTERM`, and the board would still answer. -/
theorem stays_up_stopped : ∃ x x₁ x₂,
    launched.foldlM (step sampleSha256) (spawned plainArgs factoryBoard) = some x ∧
    x.step sampleSha256 (.own (.signal SIGUSR1)) = some x₁ ∧
    startedAndStopped.foldlM (step sampleSha256) x₁ = some x₂ ∧
    x₂.running.proxy.stage = .exiting 0 ∧ x₂.running.Asked ∧
    (attachedEnv.bench sampleSha256 (.echo "hb") x₂.world).1 = .ok "hb" := by
  obtain ⟨x, hlaunched, hx⟩ := (Option.any_eq_true _ _).mp startedAndStopped_leads
  simp only [Bool.and_eq_true, Bool.not_eq_true'] at hx
  obtain ⟨hreleased, hstart⟩ := hx
  obtain ⟨x₁, hstart, hday⟩ := (Option.any_eq_true _ _).mp hstart
  obtain ⟨x₂, hday, hends⟩ := (Option.any_eq_true _ _).mp hday
  simp only [Bool.and_eq_true, decide_eq_true_eq] at hends
  obtain ⟨hres, hexit⟩ := hends
  have hplain {ms : List TendedMove} (hall : ms.all isPlain = true) :
      ∀ m ∈ ms, ∀ x : Tended, x.Fair m := fun m hm =>
    fair_of_isPlain (List.all_eq_true.mp hall m hm)
  have hreaches : Reaches (step sampleSha256) Fair (spawned plainArgs factoryBoard) x :=
    .run_of_forall .refl (hplain rfl) hlaunched
  have hfair : x.Fair (.own (.signal SIGUSR1)) := by
    refine ⟨fun _ hrel => ?_, fun place code _ hm => by cases hm⟩
    rw [hreleased] at hrel
    cases hrel
  have hreaches₂ := (hreaches.step hfair hstart).run_of_forall
    (hplain rfl) hday
  obtain ⟨hbeat, hstage⟩ := stays_up sampleSha256 hreaches₂ hres
  refine ⟨x, x₁, x₂, hlaunched, hstart, hday, hexit, ?_, hbeat attachedEnv⟩
  rw [hexit] at hstage
  rcases hstage with h | ⟨-, hasked⟩ | ⟨h, -⟩
  · cases h
  · exact hasked
  · cases h

end Tended
end Runtt
