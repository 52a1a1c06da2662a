import Mathlib.Data.List.Induction
import Mathlib.Data.List.Infix
import Runtt.Proxy

/-! # Waiting for a signal

Phase 1 of the proxy against signals that arrive between any two of its steps.  The slot
holds one signal and `pause` is entered after the slot was looked at, so two things can go
wrong: a signal arrives after the look and before the `pause`, which then blocks with the
slot full; and `SIGUSR1` is taken although `SIGTERM` or `SIGINT` arrived too.

`Safe` says of one arrival that it does neither, and `Proxy.signals_kept_iff` that nothing
else goes wrong: the signals of a run are kept exactly when each arrives safely.
-/
namespace Runtt

/-- A signal of those `install_handlers` takes. -/
abbrev HandledSignal := { sig : Nat // sig ∈ HANDLED }

namespace HandledSignal

def usr1 : HandledSignal := ⟨SIGUSR1, by decide⟩
def term : HandledSignal := ⟨SIGTERM, by decide⟩

end HandledSignal

/-- `SIGTERM` and `SIGINT` ask the proxy to stop. -/
def stops (sig : Nat) : Prop := sig = SIGTERM ∨ sig = SIGINT

instance : DecidablePred stops := fun _ => inferInstanceAs (Decidable (_ ∨ _))

theorem HandledSignal.cases (sig : HandledSignal) : sig.val = SIGUSR1 ∨ stops sig.val := by
  obtain ⟨sig, hsig⟩ := sig
  simpa [HANDLED, stops] using hsig

/-- What happens next: the proxy takes a step, or a signal arrives. -/
inductive Move where
  | tick
  | signal (sig : HandledSignal)
  deriving DecidableEq

namespace Proxy

/-- One move. -/
def move (p : Proxy) : Move → Proxy
  | .tick => p.advance
  | .signal sig => p.deliver sig.val

/-- A run. -/
def run (p : Proxy) (moves : List Move) : Proxy := moves.foldl move p

/-- `n` steps with no signal. -/
def ticks (n : Nat) : List Move := List.replicate n .tick

/-- `install_handlers` has returned and nothing has arrived. -/
structure Installed (p : Proxy) : Prop where
  stage : p.stage = .swapping
  signalReceived : p.signalReceived = 0

/-- `SIGTERM` or `SIGINT` arrived in phase 1. -/
def StopRequested (p : Proxy) (moves : List Move) : Prop :=
  ∃ before sig after, moves = before ++ .signal sig :: after ∧
    stops sig.val ∧ (p.run before).stage.waiting = true

/-- What is promised of the proxy after `moves`: it does not block on a full slot, and if
it was asked to stop in phase 1 then it has not begun to deploy, and left alone it exits
with 0. -/
structure SignalsKept (p : Proxy) (moves : List Move) : Prop where
  not_blocked : (p.run moves).stage = .paused → (p.run moves).signalReceived = 0
  not_deploying : p.StopRequested moves → (p.run moves).stage.deploys = false
  exits : p.StopRequested moves → ∃ n, (p.run (moves ++ ticks n)).stage = .exiting 0

/-- A signal that arrives at `p` is not lost and loses none. -/
def Safe (p : Proxy) (sig : HandledSignal) : Prop :=
  match p.stage with
  -- the slot was empty at the swap and `pause` is not entered yet
  | .matching taken => taken ≠ 0 ∧ ¬ (taken = SIGUSR1 ∧ stops sig.val)
  | .pausing => False
  -- the slot holds a request to stop
  | .swapping => ¬ (stops p.signalReceived ∧ sig.val = SIGUSR1)
  | _ => True

/-- Every signal of the run arrives safely. -/
def SafelyTimed (p : Proxy) (moves : List Move) : Prop :=
  ∀ before sig after, moves = before ++ .signal sig :: after → (p.run before).Safe sig

/-! ## Splitting a run at a signal -/

/-- A signal of a run is its last move or one before that. -/
theorem split_append_singleton {moves before after : List Move} {m : Move} {sig : HandledSignal}
    (h : moves ++ [m] = before ++ .signal sig :: after) :
    (m = .signal sig ∧ moves = before) ∨ ∃ after', moves = before ++ .signal sig :: after' := by
  rcases List.eq_nil_or_concat after with rfl | ⟨after', last, rfl⟩
  · obtain ⟨hbefore, hlast⟩ := List.append_inj' h rfl
    exact .inl ⟨List.singleton_injective hlast, hbefore⟩
  · have hassoc : moves ++ [m] = (before ++ .signal sig :: after') ++ [last] := by
      rw [h]
      simp
    exact .inr ⟨after', (List.append_inj' hassoc rfl).1⟩

theorem run_append (p : Proxy) (moves moves' : List Move) :
    p.run (moves ++ moves') = (p.run moves).run moves' := List.foldl_append

theorem safelyTimed_append_singleton {p : Proxy} {moves : List Move} {m : Move} :
    p.SafelyTimed (moves ++ [m]) ↔
      p.SafelyTimed moves ∧ ∀ sig, m = .signal sig → (p.run moves).Safe sig := by
  constructor
  · intro h
    refine ⟨fun before sig after hsplit => h before sig (after ++ [m]) (by rw [hsplit]; simp), ?_⟩
    rintro sig rfl
    exact h moves sig [] rfl
  · rintro ⟨hbefore, hlast⟩ before sig after hsplit
    rcases split_append_singleton hsplit with ⟨hm, rfl⟩ | ⟨after', hmoves⟩
    · exact hlast sig hm
    · exact hbefore before sig after' hmoves

theorem StopRequested.append {p : Proxy} {moves : List Move} (h : p.StopRequested moves)
    (moves' : List Move) : p.StopRequested (moves ++ moves') := by
  obtain ⟨before, sig, after, rfl, hstop, hwaiting⟩ := h
  exact ⟨before, sig, after ++ moves', by simp, hstop, hwaiting⟩

theorem stopRequested_append_singleton {p : Proxy} {moves : List Move} {m : Move} :
    p.StopRequested (moves ++ [m]) ↔
      p.StopRequested moves ∨
        ∃ sig, m = .signal sig ∧ stops sig.val ∧ (p.run moves).stage.waiting = true := by
  constructor
  · rintro ⟨before, sig, after, hsplit, hstop, hwaiting⟩
    rcases split_append_singleton hsplit with ⟨hm, rfl⟩ | ⟨after', hmoves⟩
    · exact .inr ⟨sig, hm, hstop, hwaiting⟩
    · exact .inl ⟨before, sig, after', hmoves, hstop, hwaiting⟩
  · rintro (h | ⟨sig, rfl, hstop, hwaiting⟩)
    · exact h.append [m]
    · exact ⟨moves, sig, [], rfl, hstop, hwaiting⟩

/-! ## While every signal arrives safely -/

/-- Where phase 1 stands, `stopped` being that the proxy was asked to stop. -/
def Sound (stopped : Prop) (p : Proxy) : Prop :=
  match p.stage with
  | .swapping =>
    (p.signalReceived = 0 ∨ p.signalReceived ∈ HANDLED) ∧ (stopped ↔ stops p.signalReceived)
  | .matching taken =>
    (taken = 0 ∧ p.signalReceived = 0 ∧ ¬ stopped) ∨ (taken = SIGUSR1 ∧ ¬ stopped) ∨ stops taken
  | .pausing | .paused => p.signalReceived = 0 ∧ ¬ stopped
  | .resolving => ¬ stopped
  | .exiting code => code = 0
  | _ => False

/-- A step on its own keeps it sound. -/
theorem Sound.advance {stopped : Prop} {p : Proxy} (h : p.Sound stopped) :
    p.advance.Sound stopped := by
  unfold Sound at h
  unfold Proxy.advance
  split at h
  · rename_i hstage
    obtain ⟨hflag, hiff⟩ := h
    simp only [hstage, Sound]
    rcases hflag with hzero | hhandled
    · have hnot : ¬ stopped := fun hstop => absurd (hzero ▸ hiff.mp hstop) (by decide)
      exact .inl ⟨hzero, trivial, hnot⟩
    · rcases HandledSignal.cases ⟨_, hhandled⟩ with husr1 | hstop
      · have husr1 : p.signalReceived = SIGUSR1 := husr1
        have hnot : ¬ stopped := fun hstop => absurd (husr1 ▸ hiff.mp hstop) (by decide)
        exact .inr (.inl ⟨husr1, hnot⟩)
      · exact .inr (.inr hstop)
  · rename_i taken hstage
    simp only [hstage]
    rcases h with ⟨rfl, hempty, hnot⟩ | ⟨rfl, hnot⟩ | hstop
    · exact ⟨hempty, hnot⟩
    · exact hnot
    · have hzero : taken ≠ 0 := by
        rintro rfl
        exact absurd hstop (by decide)
      have husr1 : taken ≠ SIGUSR1 := by
        rintro rfl
        exact absurd hstop (by decide)
      have hexit : taken = SIGTERM ∨ taken = SIGINT := hstop
      rw [if_neg hzero, if_neg husr1, if_pos hexit]
      rfl
  · rename_i hstage
    simp only [hstage, Sound]
    exact h
  · rename_i hstage
    simp only [hstage, Sound]
    exact h
  · rename_i hstage
    simp only [hstage, Sound]
    exact h
  · rename_i code hstage
    simp only [hstage, Sound]
    exact h
  · exact h.elim

/-- With the handlers in place a signal of theirs goes into the slot and wakes the proxy. -/
theorem deliver_of_sound {stopped : Prop} {p : Proxy} (h : p.Sound stopped) (sig : HandledSignal) :
    p.deliver sig.val = { p with
      signalReceived := sig.val
      stage := if p.stage = .paused then .swapping else p.stage } := by
  unfold Sound at h
  unfold deliver
  split at h
  all_goals
    first
    | exact h.elim
    | rename_i hstage
      simp only [hstage, Stage.handlers]
      exact if_pos sig.property

/-- A signal that arrives safely keeps it sound. -/
theorem Sound.deliver {stopped : Prop} {p : Proxy} (h : p.Sound stopped) {sig : HandledSignal}
    (hsafe : p.Safe sig) :
    (p.deliver sig.val).Sound (stopped ∨ stops sig.val ∧ p.stage.waiting = true) := by
  rw [deliver_of_sound h]
  unfold Sound at h
  unfold Safe at hsafe
  split at h
  · rename_i hstage
    simp only [hstage, Sound, Stage.waiting] at hsafe ⊢
    refine ⟨.inr sig.property, ?_⟩
    rcases sig.cases with husr1 | hstop
    · have hnot : ¬ stops p.signalReceived := fun hstops => hsafe ⟨hstops, husr1⟩
      simp [h.2, hnot]
    · simp [hstop]
  · rename_i taken hstage
    simp only [hstage, Sound, Stage.waiting] at hsafe ⊢
    obtain ⟨hzero, hsafe⟩ := hsafe
    rcases h with ⟨htaken, -⟩ | ⟨husr1, hnot⟩ | hstop
    · exact absurd htaken hzero
    · exact .inr (.inl ⟨husr1, by simp_all⟩)
    · exact .inr (.inr hstop)
  · rename_i hstage
    rw [hstage] at hsafe
    exact hsafe.elim
  · rename_i hstage
    simp only [hstage, Sound, Stage.waiting]
    exact ⟨.inr sig.property, by simp [h.2]⟩
  · rename_i hstage
    simp only [hstage, Sound, Stage.waiting]
    simpa using h
  · rename_i code hstage
    simp only [hstage, Sound]
    exact h
  · exact h.elim

/-- **The invariant of phase 1**: while every signal arrives safely, the slot and the stage
tell whether the proxy was asked to stop. -/
theorem SafelyTimed.sound {p : Proxy} (hp : p.Installed) {moves : List Move}
    (h : p.SafelyTimed moves) : (p.run moves).Sound (p.StopRequested moves) := by
  induction moves using List.reverseRecOn with
  | nil =>
    have hnot : ¬ p.StopRequested [] := by
      rintro ⟨before, sig, after, hsplit, -⟩
      simp at hsplit
    have hempty : ¬ stops p.signalReceived := by
      rw [hp.signalReceived]
      decide
    have hstart : p.run [] = p := rfl
    simp only [hstart, Sound, hp.stage]
    exact ⟨.inl hp.signalReceived, iff_of_false hnot hempty⟩
  | append_singleton moves m ih =>
    obtain ⟨hbefore, hlast⟩ := safelyTimed_append_singleton.mp h
    rw [run_append, stopRequested_append_singleton]
    cases m with
    | tick =>
      have hsound := (ih hbefore).advance
      simpa [run, move] using hsound
    | signal sig =>
      have hsound := (ih hbefore).deliver (hlast sig rfl)
      simpa [run, move] using hsound

/-- A proxy that was asked to stop, every signal having arrived safely, exits with 0. -/
theorem Sound.exits {stopped : Prop} {p : Proxy} (h : p.Sound stopped) (hstopped : stopped) :
    ∃ n, (p.run (ticks n)).stage = .exiting 0 := by
  unfold Sound at h
  split at h
  · rename_i hstage
    have hstops : stops p.signalReceived := h.2.mp hstopped
    refine ⟨2, ?_⟩
    rcases hstops with hterm | hint
    · simp [run, ticks, move, Proxy.advance, hstage, hterm, SIGTERM, SIGUSR1]
    · simp [run, ticks, move, Proxy.advance, hstage, hint, SIGTERM, SIGINT, SIGUSR1]
  · rename_i taken hstage
    refine ⟨1, ?_⟩
    rcases h with ⟨-, -, hnot⟩ | ⟨-, hnot⟩ | hterm | hint
    · exact absurd hstopped hnot
    · exact absurd hstopped hnot
    · simp [run, ticks, move, Proxy.advance, hstage, hterm, SIGTERM, SIGUSR1]
    · simp [run, ticks, move, Proxy.advance, hstage, hint, SIGTERM, SIGINT, SIGUSR1]
  · exact absurd hstopped h.2
  · exact absurd hstopped h.2
  · exact absurd hstopped h
  · rename_i code hstage
    subst h
    exact ⟨0, hstage⟩
  · exact h.elim

/-- What is sound keeps its promises. -/
theorem SafelyTimed.signalsKept {p : Proxy} (hp : p.Installed) {moves : List Move}
    (h : p.SafelyTimed moves) : p.SignalsKept moves := by
  have hsound := h.sound hp
  refine ⟨?_, ?_, ?_⟩
  · intro hpaused
    simp only [Sound, hpaused] at hsound
    exact hsound.1
  · intro hstop
    unfold Sound at hsound
    split at hsound
    all_goals
      first
      | exact hsound.elim
      | exact absurd hstop hsound
      | rename_i hstage
        rw [hstage]
        rfl
  · intro hstop
    obtain ⟨n, hexit⟩ := hsound.exits hstop
    exact ⟨n, by rw [run_append]; exact hexit⟩

/-- Steps alone are safely timed. -/
theorem SafelyTimed.append_ticks {p : Proxy} {moves : List Move} (h : p.SafelyTimed moves)
    (n : Nat) : p.SafelyTimed (moves ++ ticks n) := by
  induction n with
  | zero => simpa [ticks] using h
  | succ n ih =>
    have hsucc : moves ++ ticks (n + 1) = (moves ++ ticks n) ++ [.tick] := by
      simp [ticks, List.replicate_succ']
    rw [hsucc, safelyTimed_append_singleton]
    exact ⟨ih, fun sig htick => absurd htick (by simp)⟩

/-! ## A signal that arrives unsafely -/

/-- Left alone between the look at the empty slot and the `pause`, the proxy blocks with
whatever is in the slot by then. -/
theorem blocks_of_looked {p : Proxy} (h : p.stage = .matching 0 ∨ p.stage = .pausing) :
    ∃ n, (p.run (ticks n)).stage = .paused ∧
      (p.run (ticks n)).signalReceived = p.signalReceived := by
  rcases h with hstage | hstage
  · exact ⟨2, by simp [run, ticks, move, Proxy.advance, hstage]⟩
  · exact ⟨1, by simp [run, ticks, move, Proxy.advance, hstage]⟩

/-- Left alone with `SIGUSR1` in the slot or taken from it, the proxy begins to deploy. -/
theorem deploys_of_usr1 {p : Proxy}
    (h : p.stage = .matching SIGUSR1 ∨ p.stage = .swapping ∧ p.signalReceived = SIGUSR1) :
    ∃ n, (p.run (ticks n)).stage.deploys = true := by
  rcases h with hstage | ⟨hstage, husr1⟩
  · exact ⟨1, by simp [run, ticks, move, Proxy.advance, hstage, Stage.deploys, SIGUSR1]⟩
  · exact ⟨2, by simp [run, ticks, move, Proxy.advance, hstage, husr1, Stage.deploys, SIGUSR1]⟩

/-- A slot that was filled after it was looked at breaks a promise. -/
theorem not_signalsKept_of_looked {p : Proxy} {moves : List Move}
    (hlooked : (p.run moves).stage = .matching 0 ∨ (p.run moves).stage = .pausing)
    (hfull : (p.run moves).signalReceived ≠ 0) :
    ∃ n, ¬ p.SignalsKept (moves ++ ticks n) := by
  obtain ⟨n, hpaused, hslot⟩ := blocks_of_looked hlooked
  refine ⟨n, fun hkept => hfull ?_⟩
  have hempty := hkept.not_blocked (by rw [run_append]; exact hpaused)
  rw [run_append, hslot] at hempty
  exact hempty

/-- A `SIGUSR1` that wins over a request to stop breaks a promise. -/
theorem not_signalsKept_of_usr1 {p : Proxy} {moves : List Move} (hasked : p.StopRequested moves)
    (husr1 : (p.run moves).stage = .matching SIGUSR1 ∨
      (p.run moves).stage = .swapping ∧ (p.run moves).signalReceived = SIGUSR1) :
    ∃ n, ¬ p.SignalsKept (moves ++ ticks n) := by
  obtain ⟨n, hdeploys⟩ := deploys_of_usr1 husr1
  refine ⟨n, fun hkept => ?_⟩
  have hnot := hkept.not_deploying (hasked.append (ticks n))
  rw [run_append, hdeploys] at hnot
  cases hnot

/-- **An unsafe arrival breaks a promise**: left alone after it, the proxy blocks on a full
slot, or deploys although it was asked to stop. -/
theorem not_signalsKept_of_not_safe {p : Proxy} {moves : List Move}
    (hsound : (p.run moves).Sound (p.StopRequested moves)) {sig : HandledSignal}
    (hnotSafe : ¬ (p.run moves).Safe sig) :
    ∃ n, ¬ p.SignalsKept ((moves ++ [.signal sig]) ++ ticks n) := by
  have hafter : p.run (moves ++ [.signal sig]) = (p.run moves).deliver sig.val := by
    rw [run_append]
    rfl
  rw [deliver_of_sound hsound sig] at hafter
  have hfull : (p.run (moves ++ [.signal sig])).signalReceived ≠ 0 := by
    rw [hafter]
    obtain ⟨sig, hsig⟩ := sig
    rintro rfl
    exact absurd hsig (by decide)
  unfold Safe at hnotSafe
  split at hnotSafe
  · rename_i taken hstage
    by_cases hzero : taken = 0
    · refine not_signalsKept_of_looked (.inl ?_) hfull
      rw [hafter]
      simp [hstage, hzero]
    · obtain ⟨rfl, hstop⟩ : taken = SIGUSR1 ∧ stops sig.val := by
        by_contra hnot
        exact hnotSafe ⟨hzero, hnot⟩
      refine not_signalsKept_of_usr1 ⟨moves, sig, [], rfl, hstop, by rw [hstage]; rfl⟩ (.inl ?_)
      rw [hafter]
      simp [hstage]
  · rename_i hstage
    refine not_signalsKept_of_looked (.inr ?_) hfull
    rw [hafter]
    simp [hstage]
  · rename_i hstage
    obtain ⟨hstop, husr1⟩ := not_not.mp hnotSafe
    simp only [Sound, hstage] at hsound
    refine not_signalsKept_of_usr1 ((hsound.2.mpr hstop).append _) (.inr ?_)
    rw [hafter]
    simp [hstage, husr1]
  · exact absurd trivial hnotSafe

/-- **No signal is lost exactly when each arrives safely.**  A proxy that has its handlers
in place keeps its promises after every part of a run, however long it is then left alone,
if and only if no signal of the run arrives between the swap that found the slot empty and
the `pause`, no `SIGUSR1` while the slot holds a request to stop, and no request to stop
once `SIGUSR1` is taken. -/
theorem signals_kept_iff (p : Proxy) (hp : p.Installed) (moves : List Move) :
    (∀ before, before <+: moves → ∀ n, p.SignalsKept (before ++ ticks n)) ↔
      p.SafelyTimed moves := by
  constructor
  · intro hkept
    induction moves using List.reverseRecOn with
    | nil =>
      intro before sig after hsplit
      simp at hsplit
    | append_singleton moves m ih =>
      have hbefore : p.SafelyTimed moves :=
        ih fun before hpre => hkept before (hpre.trans (List.prefix_append moves [m]))
      refine safelyTimed_append_singleton.mpr ⟨hbefore, ?_⟩
      rintro sig rfl
      by_contra hnotSafe
      obtain ⟨n, hbroken⟩ := not_signalsKept_of_not_safe (hbefore.sound hp) hnotSafe
      exact hbroken (hkept (moves ++ [.signal sig]) List.prefix_rfl n)
  · rintro htimed before ⟨after, rfl⟩ n
    have hbefore : p.SafelyTimed before := by
      rintro before' sig after' rfl
      exact htimed before' sig (after' ++ after) (by simp)
    exact (hbefore.append_ticks n).signalsKept hp

/-- A proxy whose handlers are installed. -/
def waitingExample : Proxy where
  containerId := "blinky"
  target := "usb:3-6"
  firmware := "/app.signed.bin"
  skipIfSame := true
  logTarget := none
  locks := ["occupancy-usb_3-6.lock"]
  stage := .swapping
  signalReceived := 0

theorem waitingExample_installed : waitingExample.Installed := ⟨rfl, rfl⟩

theorem signals_kept_iff_example :
    (∀ before, before <+: [.tick, .tick, .tick, .signal .usr1] → ∀ n,
        waitingExample.SignalsKept (before ++ ticks n)) ↔
      waitingExample.SafelyTimed [.tick, .tick, .tick, .signal .usr1] :=
  signals_kept_iff waitingExample waitingExample_installed _

/-- A `SIGUSR1` between the swap and the `pause` leaves the proxy blocked on a full slot, and
a `SIGTERM` followed by a `SIGUSR1` before the swap ends in a deploy. -/
theorem signals_lost :
    waitingExample.Installed ∧
      ¬ waitingExample.SignalsKept [.tick, .signal .usr1, .tick, .tick] ∧
      ¬ waitingExample.SignalsKept [.signal .term, .signal .usr1, .tick, .tick] := by
  refine ⟨⟨rfl, rfl⟩, fun hkept => ?_, fun hkept => ?_⟩
  · exact absurd (hkept.not_blocked (by decide)) (by decide)
  · have hasked : waitingExample.StopRequested [.signal .term, .signal .usr1, .tick, .tick] :=
      ⟨[], .term, _, rfl, .inl rfl, rfl⟩
    exact absurd (hkept.not_deploying hasked) (by decide)

end Proxy
end Runtt
