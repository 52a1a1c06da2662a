import Runtt.LabelChecks
import Runtt.SignalWait
import Runtt.SystemSteps

/-! # The whole life of a proxy

`proxy::run` from its first instruction to its exit code, and `stay_resident`, which is
where it spends its time.  Signals arrive between any two steps.  What the host, the device
and the other processes answer comes with the step, so a step is a function of it.

The handler keeps the last signal only, and the two phases read it differently: phase 1 by
its number, `stay_resident` by whether there is one.
-/
namespace Runtt

/-- Where `stay_resident` is; `failures` is its `consecutive_failures`. -/
inductive Watch where
  /-- At the first `should_stop` of an iteration. -/
  | head (failures : Nat)
  /-- Behind the sleep, at the second. -/
  | slept (failures : Nat)
  | echoing (failures : Nat)
  | returned (r : Except Error Unit)
  deriving DecidableEq

/-- What `stay_resident` sees: a reading of the stop flag, or the result of an echo. -/
inductive Seen where
  | stop (reading : Bool)
  | echo (r : Except Error String)
  deriving DecidableEq

/-- The loop of `stay_resident`, to its next reading or echo. -/
def Watch.step : Watch → Seen → Option Watch
  | .head failures, .stop reading =>
    some (if reading then .returned (.ok ()) else .slept failures)
  | .slept failures, .stop reading =>
    some (if reading then .returned (.ok ()) else .echoing failures)
  | .echoing _, .echo (.ok _) => some (.head 0)
  | .echoing failures, .echo (.error _) =>
    if 2 ≤ failures + 1 then
      some (.returned (.error
        [s!"lost contact with the device after {failures + 1} heartbeats"]))
    else some (.head (failures + 1))
  | _, _ => none

/-- How far phase 2 is, with what it has found out. -/
inductive Work where
  | notBegun
  | resolved (r : Resolved)
  /-- The device is claimed. -/
  | claimed (r : Resolved)
  /-- The log target is settled. -/
  | settled (r : Resolved)
  | resident (w : Watch)
  deriving DecidableEq

/-- A proxy with what phase 2 has found out, and every signal delivered to it so far. -/
structure Running where
  proxy : Proxy
  work : Work
  delivered : List Nat
  deriving DecidableEq

/-- What happens next to a proxy. -/
inductive RunMove where
  | signal (sig : Nat)
  /-- A step of the start-up or of phase 1. -/
  | advance
  | resolve (host : Host)
  | claim (granted : Bool)
  | overrideLog (host : Host)
  /-- `Deploy::run` returns this. -/
  | deploy (r : Except Error Unit)
  /-- A reading of the stop flag. -/
  | look
  | echo (r : Except Error String)
  /-- Any other step fails, or panics. -/
  | fail (code : Nat)

namespace Running

open Transition

/-- A proxy as it is spawned. -/
def spawned (args : SpawnArgs) : Running := ⟨args.proxy, .notBegun, []⟩

/-- The process exits with this code. -/
def exit (r : Running) (code : Nat) : Running :=
  { r with proxy := { r.proxy with stage := .exiting code } }

/-- `stay_resident` gets here.  Its error is `run`'s, which `main` turns into 1. -/
def reach (r : Running) : Watch → Running
  | .returned (.ok ()) => r.exit 0
  | .returned (.error _) => r.exit 1
  | w => { r with work := .resident w }

/-- `stay_resident` sees something. -/
def watch (r : Running) (seen : Seen) : Option Running :=
  match r.proxy.stage, r.work with
  | .deploying, .resident w => (w.step seen).map r.reach
  | _, _ => none

/-- One step of `proxy::run`, or a signal. -/
def step (r : Running) : RunMove → Option Running
  | .signal sig =>
    some { r with proxy := r.proxy.deliver sig, delivered := r.delivered ++ [sig] }
  | .advance => some { r with proxy := r.proxy.advance }
  | .resolve host =>
    match r.proxy.stage with
    | .resolving =>
      match Proxy.resolveTarget host r.proxy.target with
      | .ok resolved =>
        some { r with
          proxy := { r.proxy with stage := .claiming (resolved.lockKey host) }
          work := .resolved resolved }
      | .error _ => some (r.exit 1)
    | _ => none
  | .claim granted =>
    match r.proxy.stage, r.work with
    | .claiming key, .resolved resolved =>
      if granted then
        some { r with
          proxy := { r.proxy with locks := deviceLock key :: r.proxy.locks, stage := .deploying }
          work := .claimed resolved }
      else some (r.exit 1)
    | _, _ => none
  | .overrideLog host =>
    match r.proxy.stage, r.work with
    | .deploying, .claimed resolved =>
      match Proxy.overrideLog host r.proxy.logTarget resolved with
      | .ok resolved => some { r with work := .settled resolved }
      | .error _ => some (r.exit 1)
    | _, _ => none
  | .deploy outcome =>
    match r.proxy.stage, r.work with
    | .deploying, .settled _ =>
      match outcome with
      | .ok () => some { r with work := .resident (.head 0) }
      | .error _ => some (r.exit 1)
    | _, _ => none
  | .look => r.watch (.stop (r.proxy.signalReceived != 0))
  | .echo outcome => r.watch (.echo outcome)
  | .fail code =>
    if code = 0 then none
    else (System.finished code r.proxy).map fun p => { r with proxy := p }

/-- It was asked to stop. -/
def Asked (r : Running) : Prop := ∃ sig ∈ r.delivered, stops sig

/-- Success means that it was asked to stop. -/
def Honest (r : Running) : Prop := r.proxy.stage = .exiting 0 → r.Asked

/-- `stay_resident` does not find a `SIGUSR1` in the flag, except after a request to stop. -/
def Heeds (r : Running) (m : RunMove) : Prop :=
  m = .look → r.proxy.signalReceived = SIGUSR1 → r.Asked

/-- Phase 1 has taken the signal that ends it. -/
def released (r : Running) : Bool :=
  r.proxy.stage.deploys || r.proxy.stage == .matching SIGUSR1

/-- No second `SIGUSR1` follows the one that started it, except after a request to stop. -/
def Quiet (r : Running) (m : RunMove) : Prop :=
  m = .signal SIGUSR1 → r.released = true → r.Asked

/-! ## What a step can do -/

/-- What a step does to a proxy, as far as its flag and its exit code go. -/
inductive Does (r : Running) : RunMove → Running → Prop where
  | signal (sig : Nat) :
    Does r (.signal sig)
      { r with proxy := r.proxy.deliver sig, delivered := r.delivered ++ [sig] }
  | advance : Does r .advance { r with proxy := r.proxy.advance }
  /-- Phase 2 goes on. -/
  | works {m : RunMove} {stage : Stage} {locks : List String} {work : Work}
    (hlook : m = .look → r.proxy.signalReceived = 0)
    (hbefore : r.proxy.stage.deploys = true) (hafter : stage.deploys = true) :
    Does r m { r with proxy := { r.proxy with stage := stage, locks := locks }, work := work }
  | fails {m : RunMove} {code : Nat} (hlook : m ≠ .look) (hcode : code ≠ 0) :
    Does r m (r.exit code)
  | stops (hflag : r.proxy.signalReceived ≠ 0) : Does r .look (r.exit 0)

theorem Does.goesOn {r : Running} {m : RunMove} {stage : Stage} {locks : List String} {work : Work}
    (hlook : m ≠ .look) (hbefore : r.proxy.stage.deploys = true) (hafter : stage.deploys = true) :
    Does r m { r with proxy := { r.proxy with stage := stage, locks := locks }, work := work } :=
  .works (fun h => absurd h hlook) hbefore hafter

theorem watch_eq_some {r r' : Running} {seen : Seen} (h : r.watch seen = some r') :
    r.proxy.stage = .deploying ∧ ∃ w w' : Watch, w.step seen = some w' ∧ r' = r.reach w' := by
  unfold watch at h
  split at h
  · rename_i w hstage hwork
    obtain ⟨w', hw', rfl⟩ := Option.map_eq_some_iff.mp h
    exact ⟨hstage, w, w', hw', rfl⟩
  · cases h

/-- A reading of the flag ends the process with 0, or changes nothing outside
`stay_resident`. -/
theorem does_look {r r' : Running} (h : r.watch (.stop (r.proxy.signalReceived != 0)) = some r') :
    Does r .look r' := by
  obtain ⟨hstage, w, w', hw, rfl⟩ := watch_eq_some h
  have hdeploys : r.proxy.stage.deploys = true := by rw [hstage]; rfl
  by_cases hflag : r.proxy.signalReceived = 0
  · rw [hflag] at hw
    cases w with
    | head failures =>
      cases hw
      exact .works (fun _ => hflag) hdeploys hdeploys
    | slept failures =>
      cases hw
      exact .works (fun _ => hflag) hdeploys hdeploys
    | echoing failures => cases hw
    | returned o => cases hw
  · rw [bne_iff_ne.mpr hflag] at hw
    cases w with
    | head failures =>
      cases hw
      exact .stops hflag
    | slept failures =>
      cases hw
      exact .stops hflag
    | echoing failures => cases hw
    | returned o => cases hw

/-- An echo never ends the process with 0. -/
theorem does_echo {r r' : Running} {o : Except Error String} (h : r.watch (.echo o) = some r') :
    Does r (.echo o) r' := by
  obtain ⟨hstage, w, w', hw, rfl⟩ := watch_eq_some h
  have hdeploys : r.proxy.stage.deploys = true := by rw [hstage]; rfl
  have hlook : RunMove.echo o ≠ .look := fun h => by cases h
  cases w with
  | head failures => cases hw
  | slept failures => cases hw
  | echoing failures =>
    cases o with
    | ok s =>
      cases hw
      exact .goesOn hlook hdeploys hdeploys
    | error e =>
      simp only [Watch.step] at hw
      split at hw
      · cases hw
        exact .fails hlook one_ne_zero
      · cases hw
        exact .goesOn hlook hdeploys hdeploys
  | returned o => cases hw

/-- Every step is one of these. -/
theorem does_of_step {r r' : Running} {m : RunMove} (h : r.step m = some r') : Does r m r' := by
  cases m with
  | signal sig =>
    cases h
    exact .signal sig
  | advance =>
    cases h
    exact .advance
  | resolve host =>
    have hlook : RunMove.resolve host ≠ .look := fun h => by cases h
    simp only [step] at h
    split at h
    · rename_i hstage
      split at h
      · cases h
        exact .goesOn hlook (by rw [hstage]; rfl) rfl
      · cases h
        exact .fails hlook one_ne_zero
    · cases h
  | claim granted =>
    have hlook : RunMove.claim granted ≠ .look := fun h => by cases h
    simp only [step] at h
    split at h
    · rename_i key resolved hstage hwork
      split at h
      · cases h
        exact .goesOn hlook (by rw [hstage]; rfl) rfl
      · cases h
        exact .fails hlook one_ne_zero
    · cases h
  | overrideLog host =>
    have hlook : RunMove.overrideLog host ≠ .look := fun h => by cases h
    simp only [step] at h
    split at h
    · rename_i resolved hstage hwork
      have hdeploys : r.proxy.stage.deploys = true := by rw [hstage]; rfl
      split at h
      · cases h
        exact .goesOn hlook hdeploys hdeploys
      · cases h
        exact .fails hlook one_ne_zero
    · cases h
  | deploy outcome =>
    have hlook : RunMove.deploy outcome ≠ .look := fun h => by cases h
    simp only [step] at h
    split at h
    · rename_i resolved hstage hwork
      have hdeploys : r.proxy.stage.deploys = true := by rw [hstage]; rfl
      split at h
      · cases h
        exact .goesOn hlook hdeploys hdeploys
      · cases h
        exact .fails hlook one_ne_zero
    · cases h
  | look => exact does_look h
  | echo outcome => exact does_echo h
  | fail code =>
    have hlook : RunMove.fail code ≠ .look := fun h => by cases h
    simp only [step] at h
    split at h
    · cases h
    · rename_i hcode
      obtain ⟨p, hp, rfl⟩ := Option.map_eq_some_iff.mp h
      obtain ⟨-, rfl⟩ := System.finished_stage hp
      exact .fails hlook hcode

/-! ## The proxy of the system -/

/-- The proxy of the system finds the same target. -/
theorem resolved_of_resolveTarget {p : Proxy} {host : Host} (hstage : p.stage = .resolving) :
    System.resolved host p = some (match Proxy.resolveTarget host p.target with
      | .ok resolved => { p with stage := .claiming (resolved.lockKey host) }
      | .error _ => { p with stage := .exiting 1 }) := by
  unfold System.resolved Proxy.resolveTarget
  rw [hstage]
  cases Target.parse p.target with
  | error e => rfl
  | ok parsed =>
    cases hr : Resolve.resolve host parsed with
    | error e => simp [bind, Except.bind, hr, context]
    | ok resolved => simp [bind, Except.bind, hr, context]

/-- A step is one that the proxy can take in the system, or one that the system does not
see. -/
theorem moved_of_step {sys : System} {r r' : Running} {m : RunMove} {pid creator : Nat}
    (hclaim : ∀ granted key, m = .claim granted → r.proxy.stage = .claiming key →
      sys.locked (deviceLock key) = !granted) (h : r.step m = some r') :
    r'.proxy = r.proxy ∨ (∃ sig, m = .signal sig ∧ r'.proxy = r.proxy.deliver sig) ∨
      ∃ m', sys.ProxyMoved ⟨pid, creator, r.proxy⟩ m' r'.proxy := by
  have hexit (code : Nat) (hstage : r.proxy.stage = .deploying) :
      sys.ProxyMoved ⟨pid, creator, r.proxy⟩ (.finish pid code) (r.exit code).proxy :=
    .finish (by simp only [System.finished, hstage]; rfl)
  have hwatch (seen : Seen) (h : r.watch seen = some r') :
      r'.proxy = r.proxy ∨ ∃ m', sys.ProxyMoved ⟨pid, creator, r.proxy⟩ m' r'.proxy := by
    obtain ⟨hstage, w, w', hw', rfl⟩ := watch_eq_some h
    unfold reach
    split
    · exact .inr ⟨_, hexit 0 hstage⟩
    · exact .inr ⟨_, hexit 1 hstage⟩
    · exact .inl rfl
  cases m with
  | signal sig =>
    cases h
    exact .inr (.inl ⟨sig, rfl, rfl⟩)
  | advance =>
    cases h
    exact .inr (.inr ⟨_, .advance⟩)
  | resolve host =>
    simp only [step] at h
    split at h
    · rename_i hstage
      refine .inr (.inr ⟨.resolve pid host, .resolve ?_⟩)
      rw [resolved_of_resolveTarget hstage]
      split at h
      · cases h
        rfl
      · cases h
        rfl
    · cases h
  | claim granted =>
    simp only [step] at h
    split at h
    · rename_i key resolved hstage hwork
      have hlocked := hclaim granted key rfl hstage
      refine .inr (.inr ⟨_, .claim ?_⟩)
      simp only [System.claimed, hstage, hlocked]
      split at h
      · rename_i hgranted
        cases h
        simp [hgranted]
      · rename_i hbusy
        cases h
        simp [hbusy, exit]
    · cases h
  | overrideLog host =>
    simp only [step] at h
    split at h
    · rename_i resolved hstage hwork
      split at h
      · cases h
        exact .inl rfl
      · cases h
        exact .inr (.inr ⟨_, hexit 1 hstage⟩)
    · cases h
  | deploy outcome =>
    simp only [step] at h
    split at h
    · rename_i resolved hstage hwork
      split at h
      · cases h
        exact .inl rfl
      · cases h
        exact .inr (.inr ⟨_, hexit 1 hstage⟩)
    · cases h
  | look => exact (hwatch _ h).imp_right .inr
  | echo outcome => exact (hwatch _ h).imp_right .inr
  | fail code =>
    simp only [step] at h
    split at h
    · cases h
    · obtain ⟨p, hp, rfl⟩ := Option.map_eq_some_iff.mp h
      exact .inr (.inr ⟨_, .finish hp⟩)

/-! ## What the flag holds -/

theorem asked_append {r : Running} {sig : Nat} {p : Proxy} {w : Work} (h : r.Asked) :
    Asked ⟨p, w, r.delivered ++ [sig]⟩ := by
  obtain ⟨sig', hmem, hstops⟩ := h
  exact ⟨sig', List.mem_append_left _ hmem, hstops⟩

theorem asked_of_does {r r' : Running} {m : RunMove} (hdoes : Does r m r') (h : r.Asked) :
    r'.Asked := by
  cases hdoes with
  | signal sig => exact asked_append h
  | advance => exact h
  | works hlook hbefore hafter => exact h
  | fails hlook hcode => exact h
  | stops hflag => exact h

/-- A signal without a handler leaves the flag alone. -/
theorem signalReceived_deliver {p : Proxy} {sig : Nat} (h : sig ∉ HANDLED) :
    (p.deliver sig).signalReceived = p.signalReceived := by
  unfold Proxy.deliver
  split
  · rfl
  · split
    · rename_i hhandled
      exact absurd (Stage.mem_handled hhandled) h
    · split <;> rfl

/-- A stage that no request to stop has led to. -/
def Unled : Stage → Prop
  | .matching taken => taken = 0 ∨ taken = SIGUSR1
  | .exiting code => code ≠ 0
  | _ => True

theorem unled_of_deploys {stage : Stage} (h : stage.deploys = true) : Unled stage := by
  unfold Unled
  split
  · cases h
  · cases h
  · trivial

/-- Until it is asked to stop, nothing but a `SIGUSR1` is in the flag or has been in it. -/
structure Unasked (p : Proxy) : Prop where
  flag : p.signalReceived = 0 ∨ p.signalReceived = SIGUSR1
  stage : Unled p.stage

/-- Of the signals that do not ask it to stop, only `SIGUSR1` leaves a trace. -/
theorem Unasked.deliver {p : Proxy} {sig : Nat} (h : Unasked p) (hsig : ¬ stops sig) :
    Unasked (p.deliver sig) := by
  unfold Proxy.deliver
  split
  · exact h
  · split
    · rename_i hhandled
      refine ⟨.inr ((HandledSignal.cases ⟨sig, Stage.mem_handled hhandled⟩).resolve_right hsig), ?_⟩
      dsimp only
      split
      · trivial
      · exact h.stage
    · split
      · exact ⟨h.flag, trivial⟩
      · exact h

/-- Phase 1 exits with 0 only on what asks it to stop. -/
theorem Unasked.advance {p : Proxy} (h : Unasked p) : Unasked p.advance := by
  unfold Proxy.advance
  split
  · exact ⟨h.flag, trivial⟩
  · refine ⟨h.flag, ?_⟩
    dsimp only
    split <;> trivial
  · exact ⟨.inl rfl, h.flag⟩
  · rename_i taken hstage
    have htaken : taken = 0 ∨ taken = SIGUSR1 := by
      have hunled := h.stage
      rwa [hstage] at hunled
    split
    · exact ⟨h.flag, trivial⟩
    · rename_i hzero
      rw [if_pos (htaken.resolve_left hzero)]
      exact ⟨h.flag, trivial⟩
  · exact ⟨h.flag, trivial⟩
  · exact h

theorem unasked_spawned (args : SpawnArgs) : Unasked (spawned args).proxy := ⟨.inl rfl, trivial⟩

/-- A step that heeds keeps it so, until there is a request to stop. -/
theorem unasked_of_does {r r' : Running} {m : RunMove} (hdoes : Does r m r')
    (hheeds : r.Heeds m) (h : r.Asked ∨ Unasked r.proxy) : r'.Asked ∨ Unasked r'.proxy := by
  rcases h with hasked | h
  · exact .inl (asked_of_does hdoes hasked)
  · cases hdoes with
    | signal sig =>
      by_cases hsig : stops sig
      · exact .inl ⟨sig, List.mem_append_right _ (List.mem_singleton_self sig), hsig⟩
      · exact .inr (h.deliver hsig)
    | advance => exact .inr h.advance
    | works hlook hbefore hafter => exact .inr ⟨h.flag, unled_of_deploys hafter⟩
    | fails hlook hcode => exact .inr ⟨h.flag, hcode⟩
    | stops hflag => exact .inl (hheeds rfl (h.flag.resolve_left hflag))

/-- In a run that heeds, success means that it was asked to stop. -/
theorem honest_of_reaches {args : SpawnArgs} {r : Running}
    (h : Reaches step Heeds (spawned args) r) : r.Honest := by
  have hflag : r.Asked ∨ Unasked r.proxy :=
    h.invariant (I := fun r => r.Asked ∨ Unasked r.proxy) (.inr (unasked_spawned args))
      fun _ hr hheeds hstep => unasked_of_does (does_of_step hstep) hheeds hr
  intro hexit
  refine hflag.resolve_right fun hunasked => ?_
  have hunled := hunasked.stage
  rw [hexit] at hunled
  exact hunled rfl

/-- **Success means a request to stop**, in every state that a proxy goes through, exactly
when `stay_resident` heeds no `SIGUSR1`. -/
theorem honest_iff_heeds (args : SpawnArgs) (ms : List RunMove) :
    Throughout step Honest (spawned args) ms ↔ Along step Heeds (spawned args) ms := by
  constructor
  · intro h pre m r r' hpre hr hstep
    rintro rfl husr1
    -- It exits with 0 on that reading, and has been asked by then as much as before.
    have hexit : r' = r.exit 0 := by
      cases does_of_step hstep with
      | works hlook hbefore hafter =>
        have hzero := hlook rfl
        rw [husr1] at hzero
        cases hzero
      | fails hlook hcode => exact absurd rfl hlook
      | stops hflag => rfl
    have hrun : (pre ++ [RunMove.look]).foldlM step (spawned args) = some r' := by
      rw [foldlM_append_singleton, hr]
      exact hstep
    have hhonest := h (pre ++ [RunMove.look]) r' hpre hrun
    rw [hexit] at hhonest
    exact hhonest rfl
  · intro h pre r hpre hr
    exact honest_of_reaches ((h.take hpre).reaches hr)

/-- The proxy is started, its deploy goes through, and a second `SIGUSR1` follows. -/
def secondUsr1 : List RunMove :=
  [.advance, .advance, .advance, .advance, .signal SIGUSR1, .advance, .advance,
    .resolve plainHost, .claim true, .overrideLog plainHost, .deploy (.ok ()), .look, .look,
    .echo (.ok "hb"), .signal SIGUSR1, .look]

def plainArgs : SpawnArgs := ⟨"blinky", "tty:/dev/ttyACM0", "/b/app.bin", true, none, "blinky"⟩

theorem second_usr1_succeeds :
    (secondUsr1.foldlM step (spawned plainArgs)).map (fun r => (r.proxy.stage, r.delivered)) =
        some (.exiting 0, [SIGUSR1, SIGUSR1]) ∧
      ¬ Throughout step Honest (spawned plainArgs) secondUsr1 := by
  have hrun : (secondUsr1.foldlM step (spawned plainArgs)).map
      (fun r => (r.proxy.stage, r.delivered)) = some (.exiting 0, [SIGUSR1, SIGUSR1]) := by
    decide +kernel
  refine ⟨hrun, fun h => ?_⟩
  obtain ⟨r, hr, heq⟩ := Option.map_eq_some_iff.mp hrun
  obtain ⟨hstage, hdelivered⟩ := Prod.mk.inj heq
  obtain ⟨sig, hsig, hstops⟩ := h secondUsr1 r (List.prefix_refl _) hr hstage
  rw [hdelivered] at hsig
  simp only [List.mem_cons, List.not_mem_nil, or_false, or_self] at hsig
  subst hsig
  revert hstops
  decide

/-! ## A proxy that is started once -/

theorem released_of_deploys {r : Running} (h : r.proxy.stage.deploys = true) :
    r.released = true := by
  rw [released, h, Bool.true_or]

/-- A signal releases no proxy. -/
theorem released_of_deliver {p : Proxy} {sig : Nat} {w w' : Work} {l l' : List Nat}
    (h : released ⟨p.deliver sig, w, l⟩ = true) : released ⟨p, w', l'⟩ = true := by
  unfold Proxy.deliver at h
  split at h
  · exact h
  · split at h
    · simp only [released] at h ⊢
      split at h
      · cases h
      · exact h
    · split at h
      · cases h
      · exact h

/-- Phase 1 empties the flag before it releases the proxy. -/
theorem empty_advance {p : Proxy} {w : Work} {l : List Nat}
    (h : released ⟨p, w, l⟩ = true → p.signalReceived = 0)
    (hreleased : released ⟨p.advance, w, l⟩ = true) : p.advance.signalReceived = 0 := by
  unfold Proxy.advance at hreleased ⊢
  split at hreleased
  · cases hreleased
  · simp only [released] at hreleased
    split at hreleased <;> cases hreleased
  · rfl
  · rename_i taken hstage
    split at hreleased
    · cases hreleased
    · split at hreleased
      · rename_i hzero husr1
        rw [if_neg hzero, if_pos husr1]
        refine h ?_
        simp only [released, hstage, husr1]
        rfl
      · split at hreleased
        · cases hreleased
        · cases hreleased
  · cases hreleased
  · exact h hreleased

/-- Not asked to stop, and no signal since it was released. -/
def Undisturbed (r : Running) : Prop :=
  Unasked r.proxy ∧ (r.released = true → r.proxy.signalReceived = 0)

/-- There is nothing that it could mistake for a request to stop. -/
theorem Undisturbed.heeds {r r' : Running} {m : RunMove} (h : r.Asked ∨ Undisturbed r)
    (hstep : r.step m = some r') : r.Heeds m := by
  rintro rfl husr1
  refine h.resolve_right fun hundisturbed => ?_
  obtain ⟨hstage, -⟩ := watch_eq_some hstep
  have hzero := hundisturbed.2 (released_of_deploys (by rw [hstage]; rfl))
  rw [husr1] at hzero
  cases hzero

theorem undisturbed_of_does {r r' : Running} {m : RunMove} (hdoes : Does r m r')
    (hheeds : r.Heeds m) (hquiet : r.Quiet m) (h : r.Asked ∨ Undisturbed r) :
    r'.Asked ∨ Undisturbed r' := by
  rcases unasked_of_does hdoes hheeds (h.imp_right And.left) with hasked | hunasked
  · exact .inl hasked
  rcases h with hasked | ⟨-, hempty⟩
  · exact .inl (asked_of_does hdoes hasked)
  · cases hdoes with
    | signal sig =>
      by_cases hsig : stops sig
      · exact .inl ⟨sig, List.mem_append_right _ (List.mem_singleton_self sig), hsig⟩
      by_cases hreleased : r.released = true
      · by_cases husr1 : sig = SIGUSR1
        · exact .inl (asked_append (hquiet (by rw [husr1]) hreleased))
        · refine .inr ⟨hunasked, fun _ => ?_⟩
          have hunhandled : sig ∉ HANDLED := fun hmem =>
            (HandledSignal.cases ⟨sig, hmem⟩).elim husr1 hsig
          exact (signalReceived_deliver hunhandled).trans (hempty hreleased)
      · exact .inr ⟨hunasked, fun h => absurd (released_of_deliver h) hreleased⟩
    | advance => exact .inr ⟨hunasked, empty_advance hempty⟩
    | works hlook hbefore hafter =>
      exact .inr ⟨hunasked, fun _ => hempty (released_of_deploys hbefore)⟩
    | fails hlook hcode => exact .inr ⟨hunasked, fun hreleased => by cases hreleased⟩
    | stops hflag => exact .inr ⟨hunasked, fun hreleased => by cases hreleased⟩

/-- A proxy that gets no `SIGUSR1` after the one that starts it heeds none. -/
theorem heeds_of_quiet {args : SpawnArgs} {ms : List RunMove}
    (h : Along step Quiet (spawned args) ms) : Along step Heeds (spawned args) ms := by
  intro pre m r r' hpre hr hstep
  have hreaches := (h.take ((List.prefix_append pre [m]).trans hpre)).reaches hr
  have hundisturbed : r.Asked ∨ Undisturbed r :=
    hreaches.invariant (I := fun r => r.Asked ∨ Undisturbed r)
      (.inr ⟨unasked_spawned args, fun hreleased => by cases hreleased⟩)
      fun _ hr hquiet hstep =>
        undisturbed_of_does (does_of_step hstep) (Undisturbed.heeds hr hstep) hquiet hr
  exact Undisturbed.heeds hundisturbed hstep

end Running
end Runtt
