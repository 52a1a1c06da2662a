import Mathlib.Data.List.Nodup
import Runtt.Lifecycle

/-! # What one step of the system can do

Said once, part by part: what becomes of an invocation (`step_invocation`), of a state file
(`step_files`), of a proxy (`step_proxy`), and what is new in the log of signals
(`step_deliveries`).  Everything that changes because of a verb names the exchange it comes
from (`Tells`), and what an exchange says of the system is in `Says`.
-/
namespace Runtt

open Interaction

/-- An invocation only ever goes on: it is told more, and what is over stays over. -/
structure Invocation.Continues (inv inv' : Invocation) : Prop where
  verb : inv'.verb = inv.verb
  told : inv.told <+: inv'.told
  done : ∀ o, inv.rest = .done o → inv'.rest = .done o ∧ inv'.told = inv.told
  exited : inv.exited = true → inv' = inv

namespace System
variable {sys sys' : System} {root : String} {m : SystemMove} {i since : Nat}

/-! ## Answers -/

/-- What an exchange that changes nothing says of the system. -/
def Says (sys : System) (since : Nat) : Exchange Sys.Reply → Prop
  | ⟨.claim name, r⟩ => r = .claimed → sys.locked name = false
  | ⟨.spawn _ _, r⟩ => ∃ e, r = .error e
  | ⟨.readState id, r⟩ => ∀ st, r = .ok st → sys.files id = some st
  | ⟨.writeState _, r⟩ => ∃ e, r = .error e
  | ⟨.removeState _, r⟩ => ∃ e, r = .failed e false
  | ⟨.kill pid _, r⟩ => (∃ e, r = .error e) ∧ sys.ours pid = false
  | ⟨.probe pid, r⟩ => r = false → sys.ours pid = false
  | ⟨.now, r⟩ => r = sys.clock
  | ⟨.sleep ms, _⟩ => since + ms ≤ sys.clock
  | _ => True

/-- An exchange of invocation `i` and what it does to the system. -/
inductive Answered (sys : System) (i since : Nat) : Exchange Sys.Reply → System → Prop where
  | same {x : Exchange Sys.Reply} (h : sys.Says since x) : Answered sys i since x sys
  | spawned {exe : String} {args : SpawnArgs} {pid : Nat} (hpos : 0 < pid)
      (hfree : sys.taken pid = false) :
      Answered sys i since ⟨.spawn exe args, Except.ok pid⟩
        { sys with proxies := ⟨pid, i, args.proxy⟩ :: sys.proxies }
  | wrote {st : State} {r : Except Error Unit} (h : r = .ok () ∨ sys.rival i st.id = true) :
      Answered sys i since ⟨.writeState st, r⟩ (sys.putFile st.id (some st))
  | removed {id : String} {r : Removal} (h : r = .removed ∨ ∃ e, r = .failed e true) :
      Answered sys i since ⟨.removeState id, r⟩ (sys.putFile id none)
  | sent {pid sig : Nat} (h : sys.taken pid = true) :
      Answered sys i since ⟨.kill pid sig, Except.ok ()⟩ (sys.send i pid sig)

theorem ours_of_not_taken {pid : Nat} (h : sys.taken pid = false) : sys.ours pid = false := by
  rw [taken, Bool.or_eq_false_iff] at h
  exact h.1

theorem reply_answered {q : Sys} {c : Choice} {r : q.Reply}
    (h : sys.reply i since q c = some (r, sys')) : sys.Answered i since ⟨q, r⟩ sys' := by
  cases q with
  | readConfig path =>
    cases c <;> cases h
    exact .same trivial
  | pathExists path =>
    cases c <;> cases h
    exact .same trivial
  | currentExe =>
    cases c <;> cases h
    exact .same trivial
  | claim name =>
    cases c <;> simp only [reply, reduceCtorEq] at h
    · split at h
      · cases h
        exact .same fun hclaimed => by cases hclaimed
      · rename_i hfree
        cases h
        exact .same fun _ => Bool.eq_false_iff.mpr hfree
    · cases h
      exact .same fun hclaimed => by cases hclaimed
  | spawn exe args =>
    cases c <;> simp only [reply, reduceCtorEq] at h
    · cases h
      exact .same ⟨_, rfl⟩
    · split at h
      · cases h
      · rename_i hfree
        rw [not_or] at hfree
        cases h
        exact .spawned (Nat.pos_of_ne_zero hfree.1) (Bool.eq_false_iff.mpr hfree.2)
  | writePidFile path pid =>
    cases c <;> cases h
    · exact .same trivial
    · exact .same trivial
  | readState id =>
    cases c <;> simp only [reply, reduceCtorEq, Option.map_eq_some_iff] at h
    · obtain ⟨st, hst, hr⟩ := h
      cases hr
      exact .same fun st' hst' => by cases hst'; exact hst
    · cases h
      exact .same fun st hst => by cases hst
  | writeState st =>
    cases c <;> simp only [reply, reduceCtorEq] at h
    · cases h
      exact .wrote (.inl rfl)
    · cases h
      exact .same ⟨_, rfl⟩
    · split at h
      · rename_i hrival
        cases h
        exact .wrote (.inr hrival)
      · cases h
  | removeState id =>
    cases c <;> cases h
    · exact .removed (.inl rfl)
    · exact .same ⟨_, rfl⟩
    · exact .removed (.inr ⟨_, rfl⟩)
  | kill pid sig =>
    cases c <;> simp only [reply, reduceCtorEq] at h
    · split at h
      · rename_i htaken
        cases h
        exact .sent htaken
      · cases h
    · split at h
      · cases h
      · rename_i hours
        cases h
        exact .same ⟨⟨_, rfl⟩, Bool.eq_false_iff.mpr hours⟩
  | probe pid =>
    cases c <;> simp only [reply, reduceCtorEq] at h
    · cases h
      exact .same ours_of_not_taken
    · split at h
      · cases h
      · rename_i hours
        cases h
        exact .same fun _ => Bool.eq_false_iff.mpr hours
  | now =>
    cases c <;> cases h
    exact .same rfl
  | sleep ms =>
    cases c <;> simp only [reply, reduceCtorEq] at h
    split at h
    · rename_i hpassed
      cases h
      exact .same hpassed
    · cases h
  | print st =>
    cases c <;> cases h
    exact .same trivial

/-- The move answers invocation `i`, which is `inv` by then, and the exchange is `x`. -/
def Tells (sys : System) (m : SystemMove) (i : Nat) (inv : Invocation)
    (x : Exchange Sys.Reply) : Prop := sys.exchange m = some (i, inv, x)

theorem tells_iff {inv : Invocation} {x : Exchange Sys.Reply} :
    sys.Tells m i inv x ↔
      ∃ c next sys', m = .answer i c ∧ sys.invocations[i]? = some inv ∧ inv.exited = false ∧
        inv.rest = .ask x.question next ∧
        sys.reply i inv.since x.question c = some (x.reply, sys') := by
  constructor
  · intro h
    unfold Tells exchange at h
    split at h
    · split at h
      · rename_i c _ verb told q next since hinv
        obtain ⟨⟨r, sys'⟩, hreply, heq⟩ := Option.map_eq_some_iff.mp h
        cases heq
        exact ⟨c, next, sys', rfl, hinv, rfl, rfl, hreply⟩
      · cases h
    · cases h
  · rintro ⟨c, next, sys', rfl, hinv, hlive, hrest, hreply⟩
    obtain ⟨verb, told, rest, since, exited⟩ := inv
    obtain ⟨q, r⟩ := x
    dsimp only at hlive hrest hreply
    subst hlive hrest
    simp only [Tells, exchange, hinv, hreply, Option.map_some]

/-- A condition that was checked holds of the exchange. -/
theorem Tells.checked {p : System → Invocation → Exchange Sys.Reply → Bool} {inv : Invocation}
    {x : Exchange Sys.Reply} (h : sys.Tells m i inv x) (hcheck : sys.checks p m = true) :
    p sys inv x = true := by
  unfold checks at hcheck
  rw [show sys.exchange m = some (i, inv, x) from h] at hcheck
  exact hcheck

section Tells
variable {inv inv' : Invocation} {x x' : Exchange Sys.Reply} {id : String} {pid sig : Nat}

theorem Tells.running (h : sys.Tells m i inv x) :
    sys.invocations[i]? = some inv ∧ inv.exited = false := by
  obtain ⟨_, _, _, _, hinv, hlive, _⟩ := tells_iff.mp h
  exact ⟨hinv, hlive⟩

theorem Tells.answered (h : sys.Tells m i inv x) : ∃ sys', sys.Answered i inv.since x sys' := by
  obtain ⟨_, _, sys', _, _, _, _, hreply⟩ := tells_iff.mp h
  exact ⟨sys', reply_answered hreply⟩

/-- A move answers one invocation, in one way. -/
theorem Tells.unique {i' : Nat} (h : sys.Tells m i inv x) (h' : sys.Tells m i' inv' x') :
    i = i' ∧ inv = inv' ∧ x = x' := by
  unfold Tells at h h'
  rw [h] at h'
  cases h'
  exact ⟨rfl, rfl, rfl⟩

theorem Tells.claimed {name : String} (h : sys.Tells m i inv ⟨.claim name, Claim.claimed⟩) :
    sys.locked name = false := by
  obtain ⟨_, hans⟩ := h.answered
  cases hans with
  | same hsays => exact hsays rfl

theorem Tells.spawned {exe : String} {args : SpawnArgs}
    (h : sys.Tells m i inv ⟨.spawn exe args, Except.ok pid⟩) :
    0 < pid ∧ sys.taken pid = false := by
  obtain ⟨_, hans⟩ := h.answered
  cases hans with
  | same hsays =>
    obtain ⟨e, he⟩ := hsays
    cases he
  | spawned hpos hfree => exact ⟨hpos, hfree⟩

theorem Tells.read {st : State} (h : sys.Tells m i inv ⟨.readState id, Except.ok st⟩) :
    sys.files id = some st := by
  obtain ⟨_, hans⟩ := h.answered
  cases hans with
  | same hsays => exact hsays st rfl

theorem Tells.probed (h : sys.Tells m i inv ⟨.probe pid, false⟩) : sys.ours pid = false := by
  obtain ⟨_, hans⟩ := h.answered
  cases hans with
  | same hsays => exact hsays rfl

theorem Tells.saw {ms : Nat} (h : sys.Tells m i inv ⟨.now, ms⟩) : ms = sys.clock := by
  obtain ⟨_, hans⟩ := h.answered
  cases hans with
  | same hsays => exact hsays

theorem Tells.slept {ms : Nat} (h : sys.Tells m i inv ⟨.sleep ms, ()⟩) :
    inv.since + ms ≤ sys.clock := by
  obtain ⟨_, hans⟩ := h.answered
  cases hans with
  | same hsays => exact hsays

theorem Tells.unsent {e : Error} (h : sys.Tells m i inv ⟨.kill pid sig, Except.error e⟩) :
    sys.ours pid = false := by
  obtain ⟨_, hans⟩ := h.answered
  cases hans with
  | same hsays => exact hsays.2

end Tells

/-! ## Moves -/

/-- An answer is an exchange, its effect on the system, and one more line for the
invocation. -/
theorem step_answer {c : Choice} (h : sys.step root (.answer i c) = some sys') :
    ∃ inv x next sys₁, sys.Tells (.answer i c) i inv x ∧ inv.rest = .ask x.question next ∧
      sys.Answered i inv.since x sys₁ ∧
      sys' = { sys₁ with
        invocations :=
          sys₁.invocations.set i ⟨inv.verb, inv.told ++ [x], next x.reply, sys.clock, false⟩ } := by
  simp only [step] at h
  split at h
  · rename_i verb told q next since hinv
    obtain ⟨⟨r, sys₁⟩, hreply, rfl⟩ := Option.map_eq_some_iff.mp h
    exact ⟨⟨verb, told, .ask q next, since, false⟩, ⟨q, r⟩, next, sys₁,
      tells_iff.mpr ⟨c, next, sys₁, rfl, hinv, rfl, rfl, hreply⟩, rfl, reply_answered hreply, rfl⟩
  · cases h

/-- An answer leaves the other processes and the clock alone. -/
theorem Answered.frame {x : Exchange Sys.Reply} (h : sys.Answered i since x sys') :
    sys'.invocations = sys.invocations ∧ sys'.others = sys.others ∧ sys'.clock = sys.clock := by
  cases h <;> exact ⟨rfl, rfl, rfl⟩

/-- What a proxy does by itself. -/
inductive ProxyMoved (sys : System) (r : Resident) : SystemMove → Proxy → Prop where
  | advance : ProxyMoved sys r (.advance r.pid) r.proxy.advance
  | resolve {host : Host} {p : Proxy} (h : resolved host r.proxy = some p) :
      ProxyMoved sys r (.resolve r.pid host) p
  | claim {p : Proxy} (h : sys.claimed r.proxy = some p) : ProxyMoved sys r (.claim r.pid) p
  | finish {code : Nat} {p : Proxy} (h : finished code r.proxy = some p) :
      ProxyMoved sys r (.finish r.pid code) p

/-- What a move does to the system. -/
inductive Moved (root : String) (sys : System) : SystemMove → System → Prop where
  | invoke (v : Verb) :
      Moved root sys (.invoke v) { sys with
        invocations := sys.invocations ++ [⟨v, [], (v.program root).run, sys.clock, false⟩] }
  | answer {i : Nat} {c : Choice} {inv : Invocation} {x : Exchange Sys.Reply} {next}
      {sys₁ : System} (htells : sys.Tells (.answer i c) i inv x)
      (hrest : inv.rest = .ask x.question next) (hans : sys.Answered i inv.since x sys₁) :
      Moved root sys (.answer i c) { sys₁ with
        invocations :=
          sys.invocations.set i ⟨inv.verb, inv.told ++ [x], next x.reply, sys.clock, false⟩ }
  | exit {i : Nat} {inv : Invocation} (hinv : sys.invocations[i]? = some inv) :
      Moved root sys (.exit i)
        { sys with invocations := sys.invocations.set i { inv with exited := true } }
  | proxy {m : SystemMove} {r : Resident} {p : Proxy} (hr : r ∈ sys.proxies)
      (hp : sys.ProxyMoved r m p) : Moved root sys m (sys.change r.pid fun _ => p)
  | die {pid : Nat} (htaken : sys.taken pid = true) :
      Moved root sys (.die pid) { sys with
        proxies := sys.proxies.filter fun r => r.pid != pid
        others := sys.others.filter (· != pid)
        zombies := pid :: sys.zombies.filter (· != pid) }
  | reap (pid : Nat) :
      Moved root sys (.reap pid) { sys with zombies := sys.zombies.filter (· != pid) }
  | fork {pid : Nat} (hpos : 0 < pid) (hfree : sys.taken pid = false) :
      Moved root sys (.fork pid) { sys with others := pid :: sys.others }
  | tick (ms : Nat) : Moved root sys (.tick ms) { sys with clock := sys.clock + ms }

theorem onProxy_eq_some {pid : Nat} {f : Proxy → Option Proxy} (h : sys.onProxy pid f = some sys') :
    ∃ r ∈ sys.proxies, r.pid = pid ∧
      ∃ p, f r.proxy = some p ∧ sys' = sys.change pid fun _ => p := by
  unfold onProxy at h
  split at h
  · rename_i r hr
    obtain ⟨p, hp, rfl⟩ := Option.map_eq_some_iff.mp h
    exact ⟨r, List.mem_of_find?_eq_some hr, by simpa using List.find?_some hr, p, hp, rfl⟩
  · cases h

theorem step_moved (h : sys.step root m = some sys') : Moved root sys m sys' := by
  cases m with
  | invoke v =>
    cases h
    exact .invoke v
  | answer i c =>
    obtain ⟨inv, x, next, sys₁, htells, hrest, hans, rfl⟩ := step_answer h
    rw [hans.frame.1]
    exact .answer htells hrest hans
  | exit i =>
    obtain ⟨inv, hinv, rfl⟩ := Option.map_eq_some_iff.mp h
    exact .exit hinv
  | advance pid =>
    simp only [step] at h
    obtain ⟨r, hr, rfl, p, hp, rfl⟩ := onProxy_eq_some h
    cases hp
    exact .proxy hr .advance
  | resolve pid host =>
    simp only [step] at h
    obtain ⟨r, hr, rfl, p, hp, rfl⟩ := onProxy_eq_some h
    exact .proxy hr (.resolve hp)
  | claim pid =>
    simp only [step] at h
    obtain ⟨r, hr, rfl, p, hp, rfl⟩ := onProxy_eq_some h
    exact .proxy hr (.claim hp)
  | finish pid code =>
    simp only [step] at h
    obtain ⟨r, hr, rfl, p, hp, rfl⟩ := onProxy_eq_some h
    exact .proxy hr (.finish hp)
  | die pid =>
    simp only [step] at h
    split at h
    · rename_i htaken
      cases h
      exact .die htaken
    · cases h
  | reap pid =>
    cases h
    exact .reap pid
  | fork pid =>
    simp only [step] at h
    split at h
    · cases h
    · rename_i hfree
      rw [not_or] at hfree
      cases h
      exact .fork (Nat.pos_of_ne_zero hfree.1) (Bool.eq_false_iff.mpr hfree.2)
  | tick ms =>
    cases h
    exact .tick ms

/-! ## Invocations -/

/-- What becomes of an invocation. -/
inductive InvocationAt (root : String) (sys : System) (m : SystemMove) (i : Nat) :
    Invocation → Prop where
  | same {inv : Invocation} (h : sys.invocations[i]? = some inv) : InvocationAt root sys m i inv
  | invoked {v : Verb} (hm : m = .invoke v) (hi : i = sys.invocations.length) :
      InvocationAt root sys m i ⟨v, [], (v.program root).run, sys.clock, false⟩
  | told {inv : Invocation} {x : Exchange Sys.Reply} {next} (h : sys.Tells m i inv x)
      (hrest : inv.rest = .ask x.question next) :
      InvocationAt root sys m i ⟨inv.verb, inv.told ++ [x], next x.reply, sys.clock, false⟩
  | exited {inv : Invocation} (h : sys.invocations[i]? = some inv) (hm : m = .exit i) :
      InvocationAt root sys m i { inv with exited := true }

theorem step_invocation (h : sys.step root m = some sys') {j : Nat} {inv' : Invocation}
    (hinv' : sys'.invocations[j]? = some inv') : InvocationAt root sys m j inv' := by
  cases step_moved h with
  | invoke v =>
    rcases Nat.lt_trichotomy j sys.invocations.length with hj | rfl | hj
    · rw [List.getElem?_append_left hj] at hinv'
      exact .same hinv'
    · rw [List.getElem?_concat_length] at hinv'
      cases hinv'
      exact .invoked rfl rfl
    · rw [List.getElem?_eq_none (by rw [List.length_append]; exact hj)] at hinv'
      cases hinv'
  | @answer i c inv x next sys₁ htells hrest hans =>
    by_cases hij : i = j
    · subst hij
      rw [List.getElem?_set_self (List.getElem?_eq_some_iff.mp htells.running.1).1] at hinv'
      cases hinv'
      exact .told htells hrest
    · rw [List.getElem?_set_ne hij] at hinv'
      exact .same hinv'
  | @exit i inv hinv =>
    by_cases hij : i = j
    · subst hij
      rw [List.getElem?_set_self (List.getElem?_eq_some_iff.mp hinv).1] at hinv'
      cases hinv'
      exact .exited hinv rfl
    · rw [List.getElem?_set_ne hij] at hinv'
      exact .same hinv'
  | proxy hr hp => exact .same hinv'
  | die htaken => exact .same hinv'
  | reap pid => exact .same hinv'
  | fork hpos hfree => exact .same hinv'
  | tick ms => exact .same hinv'

theorem step_length (h : sys.step root m = some sys') :
    sys'.invocations.length = sys.invocations.length ∨
      ∃ v, m = .invoke v ∧ sys'.invocations.length = sys.invocations.length + 1 := by
  cases step_moved h with
  | invoke v => exact .inr ⟨v, rfl, List.length_append⟩
  | answer htells hrest hans => exact .inl List.length_set
  | exit hinv => exact .inl List.length_set
  | proxy hr hp => exact .inl rfl
  | die htaken => exact .inl rfl
  | reap pid => exact .inl rfl
  | fork hpos hfree => exact .inl rfl
  | tick ms => exact .inl rfl

theorem step_length_le (h : sys.step root m = some sys') :
    sys.invocations.length ≤ sys'.invocations.length := by
  rcases step_length h with heq | ⟨v, -, heq⟩
  · exact Nat.le_of_eq heq.symm
  · exact heq ▸ Nat.le_succ _

/-- Every invocation is still there after a step. -/
theorem step_continues (h : sys.step root m = some sys') {j : Nat} {inv : Invocation}
    (hinv : sys.invocations[j]? = some inv) :
    ∃ inv', sys'.invocations[j]? = some inv' ∧ inv.Continues inv' := by
  have hj : j < sys.invocations.length := (List.getElem?_eq_some_iff.mp hinv).1
  obtain ⟨inv', hinv'⟩ : ∃ inv', sys'.invocations[j]? = some inv' :=
    ⟨_, List.getElem?_eq_getElem (Nat.lt_of_lt_of_le hj (step_length_le h))⟩
  refine ⟨inv', hinv', ?_⟩
  cases step_invocation h hinv' with
  | same hsame =>
    rw [hinv] at hsame
    cases hsame
    exact ⟨rfl, List.prefix_rfl, fun o ho => ⟨ho, rfl⟩, fun _ => rfl⟩
  | invoked hm hi => exact absurd hi (Nat.ne_of_lt hj)
  | told htells hrest =>
    obtain ⟨hsame, hlive⟩ := htells.running
    rw [hinv] at hsame
    cases hsame
    refine ⟨rfl, List.prefix_append _ _, fun o ho => ?_, fun hexited => ?_⟩
    · rw [hrest] at ho
      cases ho
    · rw [hlive] at hexited
      cases hexited
  | exited hsame hm =>
    rw [hinv] at hsame
    cases hsame
    refine ⟨rfl, List.prefix_rfl, fun o ho => ⟨ho, rfl⟩, fun hexited => ?_⟩
    cases inv
    cases hexited
    rfl

/-! ## State files, signals, other processes, the clock -/

/-- Only a write or a removal changes a state file. -/
theorem step_files (h : sys.step root m = some sys') (id : String) :
    sys'.files id = sys.files id ∨
      (∃ i inv st r, sys.Tells m i inv ⟨.writeState st, r⟩ ∧ st.id = id ∧
        (r = .ok () ∨ sys.rival i id = true) ∧ sys'.files id = some st) ∨
      ∃ i inv r, sys.Tells m i inv ⟨.removeState id, r⟩ ∧
        (r = .removed ∨ ∃ e, r = .failed e true) ∧ sys'.files id = none := by
  cases step_moved h with
  | answer htells hrest hans =>
    cases hans with
    | same hsays => exact .inl rfl
    | spawned hpos hfree => exact .inl rfl
    | @wrote st r hr =>
      by_cases hid : id = st.id
      · subst hid
        exact .inr (.inl ⟨_, _, st, r, htells, rfl, hr, if_pos rfl⟩)
      · exact .inl (if_neg hid)
    | @removed id' r hr =>
      by_cases hid : id = id'
      · subst hid
        exact .inr (.inr ⟨_, _, r, htells, hr, if_pos rfl⟩)
      · exact .inl (if_neg hid)
    | sent htaken => exact .inl rfl
  | invoke v => exact .inl rfl
  | exit hinv => exact .inl rfl
  | proxy hr hp => exact .inl rfl
  | die htaken => exact .inl rfl
  | reap pid => exact .inl rfl
  | fork hpos hfree => exact .inl rfl
  | tick ms => exact .inl rfl

/-- Only a signal that was sent is logged. -/
theorem step_deliveries (h : sys.step root m = some sys') :
    sys'.deliveries = sys.deliveries ∨
      ∃ i inv pid sig, sys.Tells m i inv ⟨.kill pid sig, Except.ok ()⟩ ∧
        sys'.deliveries = sys.deliveries ++ [⟨i, pid, sig, sys.clock, sys.receiver pid⟩] := by
  cases step_moved h with
  | answer htells hrest hans =>
    cases hans with
    | same hsays => exact .inl rfl
    | spawned hpos hfree => exact .inl rfl
    | wrote hr => exact .inl rfl
    | removed hr => exact .inl rfl
    | sent htaken => exact .inr ⟨_, _, _, _, htells, rfl⟩
  | invoke v => exact .inl rfl
  | exit hinv => exact .inl rfl
  | proxy hr hp => exact .inl rfl
  | die htaken => exact .inl rfl
  | reap pid => exact .inl rfl
  | fork hpos hfree => exact .inl rfl
  | tick ms => exact .inl rfl

/-- What is new in the log was sent in this step. -/
theorem step_delivery (h : sys.step root m = some sys') {d : Delivery} (hd : d ∈ sys'.deliveries) :
    d ∈ sys.deliveries ∨
      ∃ i inv pid sig, sys.Tells m i inv ⟨.kill pid sig, Except.ok ()⟩ ∧
        d = ⟨i, pid, sig, sys.clock, sys.receiver pid⟩ := by
  rcases step_deliveries h with heq | ⟨i, inv, pid, sig, htells, heq⟩
  · exact .inl (heq ▸ hd)
  · rw [heq] at hd
    rcases List.mem_append.mp hd with hd | hd
    · exact .inl hd
    · exact .inr ⟨i, inv, pid, sig, htells, List.mem_singleton.mp hd⟩

/-- What is told takes effect. -/
theorem Tells.effect {inv : Invocation} {x : Exchange Sys.Reply} (h : sys.Tells m i inv x)
    (hstep : sys.step root m = some sys') :
    ∃ next sys₁, inv.rest = .ask x.question next ∧ sys.Answered i inv.since x sys₁ ∧
      sys' = { sys₁ with
        invocations :=
          sys.invocations.set i ⟨inv.verb, inv.told ++ [x], next x.reply, sys.clock, false⟩ } := by
  cases step_moved hstep with
  | answer htells hrest hans =>
    obtain ⟨rfl, rfl, rfl⟩ := h.unique htells
    exact ⟨_, _, hrest, hans, rfl⟩
  | invoke v => obtain ⟨_, _, _, hm, _⟩ := tells_iff.mp h; cases hm
  | exit hinv => obtain ⟨_, _, _, hm, _⟩ := tells_iff.mp h; cases hm
  | proxy hr hp => obtain ⟨_, _, _, hm, _⟩ := tells_iff.mp h; subst hm; cases hp
  | die htaken => obtain ⟨_, _, _, hm, _⟩ := tells_iff.mp h; cases hm
  | reap pid => obtain ⟨_, _, _, hm, _⟩ := tells_iff.mp h; cases hm
  | fork hpos hfree => obtain ⟨_, _, _, hm, _⟩ := tells_iff.mp h; cases hm
  | tick ms => obtain ⟨_, _, _, hm, _⟩ := tells_iff.mp h; cases hm

/-- The invocation after its answer. -/
theorem Tells.after {inv : Invocation} {x : Exchange Sys.Reply} (h : sys.Tells m i inv x)
    (hstep : sys.step root m = some sys') :
    ∃ next, inv.rest = .ask x.question next ∧
      sys'.invocations[i]? =
        some ⟨inv.verb, inv.told ++ [x], next x.reply, sys.clock, false⟩ := by
  obtain ⟨next, sys₁, hrest, -, rfl⟩ := h.effect hstep
  exact ⟨next, hrest, List.getElem?_set_self (List.getElem?_eq_some_iff.mp h.running.1).1⟩

theorem Tells.wrote {inv : Invocation} {st : State}
    (h : sys.Tells m i inv ⟨.writeState st, Except.ok ()⟩) (hstep : sys.step root m = some sys') :
    sys'.files st.id = some st := by
  obtain ⟨next, sys₁, -, hans, rfl⟩ := h.effect hstep
  cases hans with
  | same hsays =>
    obtain ⟨e, he⟩ := hsays
    cases he
  | wrote hr => exact if_pos rfl

theorem Tells.removed {inv : Invocation} {id : String}
    (h : sys.Tells m i inv ⟨.removeState id, Removal.removed⟩)
    (hstep : sys.step root m = some sys') : sys'.files id = none := by
  obtain ⟨next, sys₁, -, hans, rfl⟩ := h.effect hstep
  cases hans with
  | same hsays =>
    obtain ⟨e, he⟩ := hsays
    cases he
  | removed hr => exact if_pos rfl

/-- A call that fails and does nothing else leaves the state files alone. -/
theorem files_of_fails {e : Error} (hstep : sys.step root (.answer i (.fails e)) = some sys') :
    sys'.files = sys.files := by
  simp only [step] at hstep
  split at hstep
  · obtain ⟨⟨r, sys₁⟩, hreply, rfl⟩ := Option.map_eq_some_iff.mp hstep
    rename_i q next since hinv
    cases q <;> simp only [reply, reduceCtorEq] at hreply <;> first
      | (cases hreply; rfl)
      | (split at hreply <;> cases hreply; rfl)
  · cases hstep

theorem Tells.sent {inv : Invocation} {pid sig : Nat}
    (h : sys.Tells m i inv ⟨.kill pid sig, Except.ok ()⟩) (hstep : sys.step root m = some sys') :
    sys'.deliveries = sys.deliveries ++ [⟨i, pid, sig, sys.clock, sys.receiver pid⟩] := by
  obtain ⟨next, sys₁, -, hans, rfl⟩ := h.effect hstep
  cases hans with
  | same hsays =>
    obtain ⟨⟨e, he⟩, -⟩ := hsays
    cases he
  | sent htaken => rfl

theorem step_others (h : sys.step root m = some sys') {pid : Nat} (hpid : pid ∈ sys'.others) :
    pid ∈ sys.others ∨ m = .fork pid := by
  cases step_moved h with
  | answer htells hrest hans => exact .inl (hans.frame.2.1 ▸ hpid)
  | invoke v => exact .inl hpid
  | exit hinv => exact .inl hpid
  | proxy hr hp => exact .inl hpid
  | die htaken => exact .inl (List.mem_of_mem_filter hpid)
  | reap pid => exact .inl hpid
  | fork hpos hfree =>
    rcases List.mem_cons.mp hpid with rfl | hpid
    · exact .inr rfl
    · exact .inl hpid
  | tick ms => exact .inl hpid

theorem step_clock (h : sys.step root m = some sys') :
    sys'.clock = sys.clock ∨ ∃ ms, m = .tick ms ∧ sys'.clock = sys.clock + ms := by
  cases step_moved h with
  | answer htells hrest hans => exact .inl hans.frame.2.2
  | invoke v => exact .inl rfl
  | exit hinv => exact .inl rfl
  | proxy hr hp => exact .inl rfl
  | die htaken => exact .inl rfl
  | reap pid => exact .inl rfl
  | fork hpos hfree => exact .inl rfl
  | tick ms => exact .inr ⟨ms, rfl, rfl⟩

theorem step_clock_le (h : sys.step root m = some sys') : sys.clock ≤ sys'.clock := by
  rcases step_clock h with heq | ⟨ms, -, heq⟩
  · exact Nat.le_of_eq heq.symm
  · exact heq ▸ Nat.le_add_right _ _

/-! ## Proxies -/

/-- What a proxy does past phase 1 starts in a stage of its own. -/
theorem resolved_stage {host : Host} {p p' : Proxy} (h : resolved host p = some p') :
    p.stage = .resolving ∧ ((∃ key, p' = { p with stage := .claiming key }) ∨
      p' = { p with stage := .exiting 1 }) := by
  unfold resolved at h
  split at h
  · rename_i hstage
    split at h
    · cases h
      exact ⟨hstage, .inl ⟨_, rfl⟩⟩
    · cases h
      exact ⟨hstage, .inr rfl⟩
  · cases h

theorem claimed_stage {p p' : Proxy} (h : sys.claimed p = some p') :
    ∃ key, p.stage = .claiming key ∧
      (sys.locked (deviceLock key) = true ∧ p' = { p with stage := .exiting 1 } ∨
        sys.locked (deviceLock key) = false ∧
          p' = { p with locks := deviceLock key :: p.locks, stage := .deploying }) := by
  unfold claimed at h
  split at h
  · rename_i key hstage
    split at h
    · rename_i hlocked
      cases h
      exact ⟨key, hstage, .inl ⟨hlocked, rfl⟩⟩
    · rename_i hfree
      cases h
      exact ⟨key, hstage, .inr ⟨Bool.eq_false_iff.mpr hfree, rfl⟩⟩
  · cases h

theorem finished_stage {code : Nat} {p p' : Proxy} (h : finished code p = some p') :
    (∀ sig, p.stage ≠ .killed sig) ∧ p' = { p with stage := .exiting code } := by
  unfold finished at h
  split at h
  all_goals rename_i hstage
  case h_5 =>
    cases h
    exact ⟨by simp [hstage], rfl⟩
  case h_6 => cases h
  -- Before the deploy `run` returns only with an error.
  all_goals
    split at h
    · cases h
    · cases h
      exact ⟨by simp [hstage], rfl⟩

/-- No two live proxies have a pid in common. -/
def Distinct (sys : System) : Prop := (sys.proxies.map Resident.pid).Nodup

variable {r r' : Resident}

theorem Distinct.eq (hd : sys.Distinct) (hr : r ∈ sys.proxies) (hr' : r' ∈ sys.proxies)
    (hpid : r.pid = r'.pid) : r = r' := List.inj_on_of_nodup_map hd hr hr' hpid

theorem ours_of_mem (hr : r ∈ sys.proxies) : sys.ours r.pid = true := by
  rw [ours, Bool.or_eq_true]
  exact .inl (List.any_eq_true.mpr ⟨r, hr, beq_self_eq_true _⟩)

theorem ne_pid_of_not_ours {pid : Nat} (h : sys.ours pid = false) (hr : r ∈ sys.proxies) :
    r.pid ≠ pid := by
  rintro rfl
  rw [ours_of_mem hr] at h
  cases h

theorem receiver_of_mem (hd : sys.Distinct) (hr : r ∈ sys.proxies) :
    sys.receiver r.pid = .proxy r := by
  unfold receiver
  split
  · rename_i r' hfind
    have hpid : r'.pid = r.pid := by simpa using List.find?_some hfind
    rw [hd.eq (List.mem_of_find?_eq_some hfind) hr hpid]
  · rename_i hfind
    exact absurd (List.find?_eq_none.mp hfind r hr) (by simp)

theorem mem_of_receiver {pid : Nat} (h : sys.receiver pid = .proxy r) :
    r ∈ sys.proxies ∧ r.pid = pid := by
  unfold receiver at h
  split at h
  · rename_i hfind
    cases h
    exact ⟨List.mem_of_find?_eq_some hfind, by simpa using List.find?_some hfind⟩
  · split at h <;> cases h

theorem others_of_receiver {pid : Nat} (h : sys.receiver pid = .other) : pid ∈ sys.others := by
  unfold receiver at h
  split at h
  · cases h
  · split at h
    · rename_i hother
      simpa using hother
    · cases h

theorem change_pids (sys : System) (pid : Nat) (f : Proxy → Proxy) :
    (sys.change pid f).proxies.map Resident.pid = sys.proxies.map Resident.pid := by
  rw [change, List.map_map]
  refine List.map_congr_left fun r _ => ?_
  rw [Function.comp_apply]
  split <;> rfl

theorem step_distinct (hd : sys.Distinct) (h : sys.step root m = some sys') : sys'.Distinct := by
  unfold Distinct at hd ⊢
  cases step_moved h with
  | answer htells hrest hans =>
    cases hans with
    | same hsays => exact hd
    | @spawned exe args pid hpos hfree =>
      refine List.nodup_cons.mpr ⟨fun hmem => ?_, hd⟩
      obtain ⟨r, hr, hpid⟩ := List.mem_map.mp hmem
      exact ne_pid_of_not_ours (ours_of_not_taken hfree) hr hpid
    | wrote hr => exact hd
    | removed hr => exact hd
    | sent htaken =>
      simp only [send, change_pids]
      exact hd
  | invoke v => exact hd
  | exit hinv => exact hd
  | proxy hr hp =>
    rw [change_pids]
    exact hd
  | die htaken => exact hd.sublist (List.filter_sublist.map _)
  | reap pid => exact hd
  | fork hpos hfree => exact hd
  | tick ms => exact hd

/-- What becomes of a proxy in a step. -/
inductive Becomes (sys : System) (m : SystemMove) (r : Resident) : Proxy → Prop where
  | same (h : ∀ i inv sig, ¬ sys.Tells m i inv ⟨.kill r.pid sig, Except.ok ()⟩) :
      Becomes sys m r r.proxy
  | moved {p : Proxy} (h : sys.ProxyMoved r m p) : Becomes sys m r p
  | delivered {i : Nat} {inv : Invocation} {sig : Nat}
      (h : sys.Tells m i inv ⟨.kill r.pid sig, Except.ok ()⟩) :
      Becomes sys m r (r.proxy.deliver sig)

/-- A move that answers nobody tells nothing. -/
theorem not_tells (hm : ∀ i c, m ≠ .answer i c) {inv : Invocation} {x : Exchange Sys.Reply} :
    ¬ sys.Tells m i inv x := by
  intro h
  obtain ⟨c, _, _, rfl, _⟩ := tells_iff.mp h
  exact hm i c rfl

/-- A proxy after a step was one before it, or it was just spawned. -/
theorem step_proxy (hd : sys.Distinct) (h : sys.step root m = some sys') (hr' : r' ∈ sys'.proxies) :
    (∃ r ∈ sys.proxies, r'.pid = r.pid ∧ r'.creator = r.creator ∧ sys.Becomes m r r'.proxy) ∨
      ∃ i inv exe args, sys.Tells m i inv ⟨.spawn exe args, Except.ok r'.pid⟩ ∧
        r' = ⟨r'.pid, i, args.proxy⟩ := by
  have hsame : (∀ i inv pid sig, ¬ sys.Tells m i inv ⟨.kill pid sig, Except.ok ()⟩) →
      r' ∈ sys.proxies →
      ∃ r ∈ sys.proxies, r'.pid = r.pid ∧ r'.creator = r.creator ∧ sys.Becomes m r r'.proxy :=
    fun hquiet hr => ⟨r', hr, rfl, rfl, .same fun i inv sig => hquiet i inv _ sig⟩
  have hsilent : (∀ i c, m ≠ .answer i c) → r' ∈ sys.proxies →
      ∃ r ∈ sys.proxies, r'.pid = r.pid ∧ r'.creator = r.creator ∧ sys.Becomes m r r'.proxy :=
    fun hm hr => hsame (fun _ _ _ _ => not_tells hm) hr
  cases step_moved h with
  | answer htells hrest hans =>
    cases hans with
    | @same x hsays =>
      refine .inl (hsame (fun i' inv' pid sig hkill => ?_) hr')
      obtain ⟨-, -, rfl⟩ := htells.unique hkill
      obtain ⟨⟨e, he⟩, -⟩ := hsays
      cases he
    | @spawned exe args pid hpos hfree =>
      rcases List.mem_cons.mp hr' with rfl | hr'
      · exact .inr ⟨_, _, exe, args, htells, rfl⟩
      · refine .inl (hsame (fun i' inv' pid sig hkill => ?_) hr')
        cases (htells.unique hkill).2.2
    | wrote hr =>
      refine .inl (hsame (fun i' inv' pid sig hkill => ?_) hr')
      cases (htells.unique hkill).2.2
    | removed hr =>
      refine .inl (hsame (fun i' inv' pid sig hkill => ?_) hr')
      cases (htells.unique hkill).2.2
    | @sent pid sig htaken =>
      obtain ⟨r, hr, rfl⟩ := List.mem_map.mp hr'
      refine .inl ⟨r, hr, ?_⟩
      split
      · rename_i hpid
        subst hpid
        exact ⟨rfl, rfl, .delivered htells⟩
      · rename_i hpid
        refine ⟨rfl, rfl, .same fun i' inv' sig' hkill => hpid ?_⟩
        cases (htells.unique hkill).2.2
        rfl
  | invoke v => exact .inl (hsilent (by simp) hr')
  | exit hinv => exact .inl (hsilent (by simp) hr')
  | @proxy m r₀ p hr₀ hp =>
    obtain ⟨r, hr, rfl⟩ := List.mem_map.mp hr'
    refine .inl ⟨r, hr, ?_⟩
    split
    · rename_i hpid
      obtain rfl := hd.eq hr hr₀ hpid
      exact ⟨rfl, rfl, .moved hp⟩
    · refine ⟨rfl, rfl, .same fun i' inv' sig' hkill => ?_⟩
      obtain ⟨c, _, _, rfl, _⟩ := tells_iff.mp hkill
      cases hp
  | die htaken => exact .inl (hsilent (by simp) (List.mem_of_mem_filter hr'))
  | reap pid => exact .inl (hsilent (by simp) hr')
  | fork hpos hfree => exact .inl (hsilent (by simp) hr')
  | tick ms => exact .inl (hsilent (by simp) hr')

/-- A proxy's own step tells nobody anything. -/
theorem ProxyMoved.not_tells {p : Proxy} (h : sys.ProxyMoved r m p) {inv : Invocation}
    {x : Exchange Sys.Reply} : ¬ sys.Tells m i inv x := by
  intro htells
  obtain ⟨c, _, _, rfl, _⟩ := tells_iff.mp htells
  cases h

end System
end Runtt
