import Runtt.StalePid

/-! # The signal that starts a proxy

`start` releases the proxy with a `SIGUSR1`, which is also what `kill` sends when it is
asked to forward one.  What the signal does depends on how far the proxy is: before its
handler is in place it ends the process, and from then on it begins the deploy.
-/
namespace Runtt

open Interaction Program

namespace Proxy
variable {p : Proxy} {sig : Nat}

/-- `SIGUSR1` ends the process unless its handler is in place. -/
theorem deliver_killed_iff :
    (p.deliver sig).stage = .killed SIGUSR1 ↔
      p.stage = .killed SIGUSR1 ∨ sig = SIGUSR1 ∧ SIGUSR1 ∉ p.stage.handlers := by
  unfold deliver
  split
  · rename_i sig' hstage
    rw [hstage]
    simp [Stage.handlers, HANDLED]
  · rename_i hstage
    have hlive : p.stage ≠ .killed SIGUSR1 := hstage SIGUSR1
    split
    · rename_i hhandled
      constructor
      · intro hkilled
        simp only at hkilled
        split at hkilled
        · cases hkilled
        · exact .inl hkilled
      · rintro (hkilled | ⟨rfl, hnot⟩)
        · exact absurd hkilled hlive
        · exact absurd hhandled hnot
    · rename_i hunhandled
      split
      · constructor
        · intro hkilled
          cases hkilled
          exact .inr ⟨rfl, hunhandled⟩
        · rintro (hkilled | ⟨rfl, -⟩)
          · exact absurd hkilled hlive
          · rfl
      · rename_i hother
        constructor
        · exact .inl
        · rintro (hkilled | ⟨rfl, -⟩)
          · exact hkilled
          · exact absurd (.inr (by decide)) hother

/-- A `SIGUSR1` is on its way, or the deploy has begun. -/
def Released (p : Proxy) : Prop :=
  p.signalReceived = SIGUSR1 ∨ p.stage = .matching SIGUSR1 ∨ p.stage.deploys = true

/-- Only a `SIGUSR1` releases a proxy. -/
theorem Released.of_deliver (h : (p.deliver sig).Released) : p.Released ∨ sig = SIGUSR1 := by
  unfold deliver at h
  split at h
  · exact .inl h
  · rename_i hstage
    split at h
    · rcases h with h | h | h
      · exact .inr h
      · simp only at h
        split at h
        · cases h
        · exact .inl (.inr (.inl h))
      · simp only at h
        split at h
        · cases h
        · exact .inl (.inr (.inr h))
    · split at h
      · rcases h with h | h | h
        · exact .inl (.inl h)
        · cases h
        · cases h
      · exact .inl h

/-- A stage of its own releases nobody. -/
theorem Released.of_stage {stage : Stage} (h : Released { p with stage := stage })
    (hstage : stage ≠ .matching SIGUSR1 ∧ stage.deploys = false) : p.Released := by
  rcases h with h | h | h
  · exact .inl h
  · exact absurd h hstage.1
  · rw [hstage.2] at h
    cases h

theorem Released.of_advance (h : p.advance.Released) : p.Released := by
  unfold advance at h
  split at h
  · exact h.of_stage ⟨by simp, rfl⟩
  · refine h.of_stage ?_
    split <;> exact ⟨by simp, rfl⟩
  · rcases h with h | h | h
    · cases h
    · exact .inl (Stage.matching.inj h)
    · cases h
  · rename_i taken hstage
    split at h
    · exact h.of_stage ⟨by simp, rfl⟩
    · split at h
      · rename_i htaken
        exact .inr (.inl (htaken ▸ hstage))
      · split at h
        · exact h.of_stage ⟨by simp, rfl⟩
        · exact h.of_stage ⟨by simp, rfl⟩
  · exact h.of_stage ⟨by simp, rfl⟩
  · exact h

theorem advance_killed_iff : p.advance.stage = .killed sig ↔ p.stage = .killed sig := by
  unfold advance
  split
  · simp_all
  · rename_i hstage
    rw [hstage]
    dsimp only
    split <;> simp
  · simp_all
  · rename_i hstage
    rw [hstage]
    split
    · simp
    · split
      · simp
      · split <;> simp
  · simp_all
  · exact Iff.rfl

end Proxy

/-- The invocation was told the pid, and may send it a `SIGUSR1`: as a `start` of a container
that is only created, or as a `kill` that is asked to. -/
def Invocation.Releases (inv : Invocation) (pid : Nat) : Prop :=
  ∃ st, inv.told.Read inv.verb.id st ∧ st.pid = some pid ∧
    (inv.verb = .start inv.verb.id ∧ st.status = .created ∨
      ∃ sigText, inv.verb = .kill inv.verb.id sigText ∧ parseSignal sigText = .ok SIGUSR1)

namespace System
variable {sys sys' : System} {root : String} {m : SystemMove} {r : Resident} {p : Proxy}

theorem ProxyMoved.killed_iff {sig : Nat} (h : sys.ProxyMoved r m p) :
    p.stage = .killed sig ↔ r.proxy.stage = .killed sig := by
  cases h with
  | advance => exact Proxy.advance_killed_iff
  | resolve h =>
    obtain ⟨hstage, ⟨key, rfl⟩ | rfl⟩ := resolved_stage h
    · simp [hstage]
    · simp [hstage]
  | claim h =>
    obtain ⟨key, hstage, ⟨-, rfl⟩ | ⟨-, rfl⟩⟩ := claimed_stage h
    · simp [hstage]
    · simp [hstage]
  | finish h =>
    obtain ⟨hstage, rfl⟩ := finished_stage h
    simp [hstage sig]

theorem ProxyMoved.released (h : sys.ProxyMoved r m p) (hp : p.Released) : r.proxy.Released := by
  cases h with
  | advance => exact hp.of_advance
  | resolve h =>
    obtain ⟨hstage, -⟩ := resolved_stage h
    exact .inr (.inr (by rw [hstage]; rfl))
  | claim h =>
    obtain ⟨key, hstage, -⟩ := claimed_stage h
    exact .inr (.inr (by rw [hstage]; rfl))
  | finish h =>
    obtain ⟨-, rfl⟩ := finished_stage h
    exact hp.of_stage ⟨by simp, rfl⟩

/-! ## What a signal does -/

variable {guard : System → SystemMove → Prop}

/-- **Whose `SIGUSR1` it is that ends a proxy**: one that was sent before its handler was in
place. -/
theorem killed_iff (h : Reaches root guard sys) (hr : r ∈ sys.proxies) :
    r.proxy.stage = .killed SIGUSR1 ↔
      ∃ p, sys.Delivered r SIGUSR1 p ∧ SIGUSR1 ∉ p.stage.handlers := by
  refine h.invariant (I := fun sys => ∀ r ∈ sys.proxies, r.proxy.stage = .killed SIGUSR1 ↔
    ∃ p, sys.Delivered r SIGUSR1 p ∧ SIGUSR1 ∉ p.stage.handlers) (fun r hr => by cases hr) ?_ r hr
  intro sys sys' m hsys ih _ hstep r' hr'
  rcases step_proxy (distinct hsys) hstep hr' with
    ⟨r, hr, -, hcreator, hbecomes⟩ | ⟨i, inv, exe, args, htells, heq⟩
  · generalize hp : r'.proxy = p' at hbecomes
    cases hbecomes with
    | same hquiet =>
      simp only [delivered_of_quiet hsys hstep hr hcreator hquiet]
      exact ih r hr
    | moved hmoved =>
      simp only [delivered_of_quiet hsys hstep hr hcreator fun _ _ _ => hmoved.not_tells]
      rw [hmoved.killed_iff]
      exact ih r hr
    | delivered htells =>
      simp only [delivered_of_tells hsys hstep hr hcreator htells]
      rw [Proxy.deliver_killed_iff, ih r hr]
      constructor
      · rintro (⟨p, hdelivered, hfatal⟩ | ⟨rfl, hfatal⟩)
        · exact ⟨p, .inl hdelivered, hfatal⟩
        · exact ⟨_, .inr ⟨rfl, rfl⟩, hfatal⟩
      · rintro ⟨p, hdelivered | ⟨rfl, rfl⟩, hfatal⟩
        · exact .inl ⟨p, hdelivered, hfatal⟩
        · exact .inr ⟨rfl, hfatal⟩
  · constructor
    · intro hkilled
      rw [heq] at hkilled
      cases hkilled
    · rintro ⟨p, hdelivered, -⟩
      exact absurd hdelivered (not_delivered_of_spawns hsys hstep htells (by rw [heq]) _ _)

/-- A proxy is released by a `SIGUSR1` it got. -/
theorem delivered_of_released (h : Reaches root guard sys) (hr : r ∈ sys.proxies)
    (hreleased : r.proxy.Released) : ∃ p, sys.Delivered r SIGUSR1 p := by
  refine h.invariant (I := fun sys => ∀ r ∈ sys.proxies, r.proxy.Released →
    ∃ p, sys.Delivered r SIGUSR1 p) (fun r hr => by cases hr) ?_ r hr hreleased
  intro sys sys' m hsys ih _ hstep r' hr' hreleased
  rcases step_proxy (distinct hsys) hstep hr' with
    ⟨r, hr, -, hcreator, hbecomes⟩ | ⟨i, inv, exe, args, htells, heq⟩
  · generalize hp : r'.proxy = p' at hbecomes hreleased
    cases hbecomes with
    | same hquiet =>
      simp only [delivered_of_quiet hsys hstep hr hcreator hquiet]
      exact ih r hr hreleased
    | moved hmoved =>
      simp only [delivered_of_quiet hsys hstep hr hcreator fun _ _ _ => hmoved.not_tells]
      exact ih r hr (hmoved.released hreleased)
    | delivered htells =>
      simp only [delivered_of_tells hsys hstep hr hcreator htells]
      rcases hreleased.of_deliver with hreleased | rfl
      · obtain ⟨p, hdelivered⟩ := ih r hr hreleased
        exact ⟨p, .inl hdelivered⟩
      · exact ⟨_, .inr ⟨rfl, rfl⟩⟩
  · rw [heq] at hreleased
    rcases hreleased with hreleased | hreleased | hreleased <;> cases hreleased

/-! ## The start of a proxy that is still coming up -/

/-- The `SIGUSR1` of a `start` finds the handler of the proxy in place. -/
def startHandled : System → Invocation → Exchange Sys.Reply → Bool
  | sys, ⟨.start _, _, _, _, _⟩, ⟨.kill pid _, _⟩ =>
    sys.proxies.all fun r => r.pid != pid || r.proxy.stage.handlers.contains SIGUSR1
  | _, _, _ => true

/-- Every `start` signals a proxy that has its handler in place. -/
def StartsHandled (sys : System) (m : SystemMove) : Prop := sys.checks startHandled m = true

instance (sys : System) (m : SystemMove) : Decidable (sys.StartsHandled m) :=
  inferInstanceAs (Decidable (_ = true))

/-- `create` and a `start` of its container succeeded, and nothing else was sent to the
proxy: then it was not ended by the default action of `SIGUSR1`. -/
def StartNotFatal (sys : System) : Prop :=
  ∀ r ∈ sys.proxies, ∀ i creator starter, sys.invocations[r.creator]? = some creator →
    creator.rest = .done (.ok ()) → sys.invocations[i]? = some starter →
    starter.verb = .start r.proxy.containerId → starter.rest = .done (.ok ()) →
    (∀ d ∈ sys.deliveries, ∀ p, d.receiver = .proxy ⟨d.pid, r.creator, p⟩ → d.sender = i) →
    r.proxy.stage ≠ .killed SIGUSR1

/-- A `SIGUSR1` of a `start` found the handler in place, if the guard is met. -/
theorem handled_of_startsHandled (h : Reaches root StartsHandled sys) {d : Delivery}
    (hd : d ∈ sys.deliveries) {starter : Invocation} {id : String}
    (hstarter : sys.invocations[d.sender]? = some starter) (hverb : starter.verb = .start id)
    (hreceiver : d.receiver = .proxy r) : SIGUSR1 ∈ r.proxy.stage.handlers := by
  refine h.invariant (I := fun sys => ∀ d ∈ sys.deliveries, ∀ starter id r,
    sys.invocations[d.sender]? = some starter → starter.verb = .start id →
      d.receiver = .proxy r → SIGUSR1 ∈ r.proxy.stage.handlers)
    (fun d hd => by cases hd) ?_ d hd starter id r hstarter hverb hreceiver
  intro sys sys' m hsys ih hguard hstep d hd starter' id r hstarter' hverb hreceiver
  have hold : d ∈ sys.deliveries → SIGUSR1 ∈ r.proxy.stage.handlers := by
    intro hd
    obtain ⟨inv, t, hinv, -, -⟩ := (logged hsys hd).sent
    obtain ⟨inv', hinv', hcont⟩ := step_continues hstep hinv
    rw [hstarter'] at hinv'
    cases hinv'
    exact ih d hd inv id r hinv (hcont.verb ▸ hverb) hreceiver
  rcases step_delivery hstep hd with hd | ⟨i, inv, pid, sig, htells, rfl⟩
  · exact hold hd
  · obtain ⟨inv', hinv', hcont⟩ := step_continues hstep htells.running.1
    rw [hstarter'] at hinv'
    cases hinv'
    obtain ⟨hmem, hpid⟩ := mem_of_receiver hreceiver
    have hcheck := htells.checked hguard
    obtain ⟨verb, told, rest, since, exited⟩ := inv
    have hverb' : verb = .start id := hcont.verb.symm.trans hverb
    subst hverb'
    have hr := List.all_eq_true.mp hcheck r hmem
    simpa [hpid] using hr

/-- **The signal of `start` ends a proxy exactly when it comes before the handler**: in every
reachable state, a proxy was ended by `SIGUSR1` if and only if one was delivered to it before
its handler was in place; and where every `start` signals a proxy with its handler in place,
no `start` is fatal. -/
theorem start_not_fatal_iff (root : String) :
    (∀ sys, Reaches root Transition.Any sys → ∀ r ∈ sys.proxies,
      (r.proxy.stage ≠ .killed SIGUSR1 ↔
        ∀ p, sys.Delivered r SIGUSR1 p → SIGUSR1 ∈ p.stage.handlers)) ∧
      ∀ sys, Reaches root StartsHandled sys → sys.StartNotFatal := by
  constructor
  · intro sys h r hr
    rw [ne_eq, killed_iff h hr]
    simp only [not_exists, not_and, not_not]
  · intro sys h r hr i creator starter _ _ hstarter hverb _ honly hkilled
    obtain ⟨p, ⟨d, hd, -, hreceiver⟩, hfatal⟩ := (killed_iff h hr).mp hkilled
    have hsender := honly d hd p hreceiver
    exact hfatal (handled_of_startsHandled h hd (hsender ▸ hstarter) hverb hreceiver)

/-- A container is created, its proxy takes `n` steps, and it is started. -/
def startedAfter (n : Nat) : List SystemMove :=
  .invoke (.create "a" "/b" none) :: creates 0 (labelled "usb:3-6") 100 ++
    List.replicate n (.advance 100) ++
    [.invoke (.start "a"), .answer 1 .goes, .answer 1 .goes, .answer 1 .goes]

/-- Five steps bring the proxy into phase 1. -/
theorem start_not_fatal_iff_example :
    ∃ sys, after "/run/runtt" StartsHandled (startedAfter 5) = some sys ∧ sys.StartNotFatal ∧
      sys.proxies.map (fun r => r.proxy.signalReceived) = [SIGUSR1] := by
  have hrun : (after "/run/runtt" StartsHandled (startedAfter 5)).isSome = true := rfl
  exact ⟨_, (Option.some_get hrun).symm,
    (start_not_fatal_iff "/run/runtt").2 _ (reaches_after hrun), rfl⟩

/-- `start` comes before the proxy has its handlers: it is killed, and both verbs succeed. -/
theorem start_fatal :
    ¬ ∀ sys, Reaches "/run/runtt" Transition.Any sys → sys.StartNotFatal := by
  intro h
  have hrun : (after "/run/runtt" Transition.Any (startedAfter 0)).isSome = true := rfl
  refine h _ (reaches_after hrun) _ (List.mem_singleton_self _) 1 _ _ rfl rfl rfl rfl rfl ?_ rfl
  intro d hd p _
  cases List.mem_singleton.mp hd
  rfl

/-! ## What a deploy needs -/

/-- The invocation sent the proxy a `SIGUSR1`. -/
def ReleasedBy (sys : System) (r : Resident) (inv : Invocation) : Prop :=
  ∃ d ∈ sys.deliveries, d.sig = SIGUSR1 ∧ sys.invocations[d.sender]? = some inv ∧
    (∃ p, d.receiver = .proxy ⟨r.pid, r.creator, p⟩) ∧ inv.Releases r.pid

/-- Whoever sent a proxy a `SIGUSR1` released it. -/
theorem releasedBy_of_delivered (h : Reaches root guard sys) (hr : r ∈ sys.proxies)
    (hdelivered : sys.Delivered r SIGUSR1 p) : ∃ inv, sys.ReleasedBy r inv := by
  obtain ⟨d, hd, hsig, hreceiver⟩ := hdelivered
  have hlogged := logged h hd
  have hpid : d.pid = r.pid := Born.pid_eq h (hlogged.reached _ hreceiver).2 (born h hr) rfl
  obtain ⟨inv, t, hinv, ht, hallowed⟩ := hlogged.sent
  rw [hpid] at hreceiver hallowed
  refine ⟨inv, d, hd, hsig, hinv, ⟨p, hreceiver⟩, ?_⟩
  rw [hsig] at hallowed
  rcases hallowed with ⟨hkill, -⟩ | ⟨st, hread, hst, ⟨hstart, -, hcreated⟩ | hkill | ⟨hkill, -⟩⟩
  · cases hkill
  · exact ⟨st, ht.subset hread, hst, .inl ⟨hstart, hcreated⟩⟩
  · exact ⟨st, ht.subset hread, hst, .inr hkill⟩
  · cases hkill

/-- **Nothing is deployed unless it is released**: in every run, a proxy that deploys was sent
a `SIGUSR1` by a `start` that read `created` and the proxy's pid, or by a `kill` that read its
pid and was asked to forward that signal; and it is the proxy's own container that either was
about, where no proxy gets a pid that still stands for another container's. -/
theorem deploys_only_if_released (root : String) :
    (∀ sys, Reaches root Transition.Any sys → ∀ r ∈ sys.proxies, r.proxy.stage.deploys = true →
      ∃ inv, sys.ReleasedBy r inv) ∧
      ∀ sys, Reaches root SpawnsFresh sys → ∀ r ∈ sys.proxies, r.proxy.stage.deploys = true →
        ∃ inv, sys.ReleasedBy r inv ∧ inv.verb.id = r.proxy.containerId := by
  have hreleased : ∀ {guard sys}, Reaches root guard sys → ∀ r ∈ sys.proxies,
      r.proxy.stage.deploys = true → ∃ inv, sys.ReleasedBy r inv := by
    intro guard sys h r hr hdeploys
    obtain ⟨p, hdelivered⟩ := delivered_of_released h hr (.inr (.inr hdeploys))
    exact releasedBy_of_delivered h hr hdelivered
  refine ⟨fun sys h => hreleased h, fun sys h r hr hdeploys => ?_⟩
  obtain ⟨inv, hby⟩ := hreleased h r hr hdeploys
  refine ⟨inv, hby, ?_⟩
  obtain ⟨d, hd, -, hinv, ⟨p, hreceiver⟩, -⟩ := hby
  obtain ⟨inv', hinv', hhome⟩ := delivered_home h hd
  rw [hinv] at hinv'
  cases hinv'
  rw [← hhome _ hreceiver]
  exact Born.containerId_eq h ((logged h hd).reached _ hreceiver).2 (born h hr) rfl

theorem deploys_only_if_released_example :
    ∃ sys, after "/run/runtt" (Alone "a") (startedAfter 4 ++ [.advance 100, .advance 100]) =
        some sys ∧ sys.proxies.map (fun r => r.proxy.stage) = [.resolving] ∧
      ∀ r ∈ sys.proxies, r.proxy.stage.deploys = true →
        ∃ inv, sys.ReleasedBy r inv ∧ inv.verb.id = r.proxy.containerId := by
  have hrun : (after "/run/runtt" (Alone "a")
    (startedAfter 4 ++ [.advance 100, .advance 100])).isSome = true := rfl
  have hsys := startsFresh_of_alone (reaches_after hrun)
  exact ⟨_, (Option.some_get hrun).symm, rfl, (deploys_only_if_released "/run/runtt").2 _
    (hsys.mono fun _ _ hfresh => hfresh.1)⟩

/-- A proxy deploys only if a `start` of its container read `created` and signalled it. -/
def DeploysOnlyIfStarted (sys : System) : Prop :=
  ∀ r ∈ sys.proxies, r.proxy.stage = .deploying →
    ∃ (i : Nat) (starter : Invocation) (st : State), sys.invocations[i]? = some starter ∧
      starter.verb = .start r.proxy.containerId ∧
      starter.told.Read r.proxy.containerId st ∧ st.status = .created ∧
      ⟨.kill r.pid SIGUSR1, Except.ok ()⟩ ∈ starter.told

/-- A container is created and its proxy is sent signal 10 by `kill`. -/
def releasedByKill : List SystemMove :=
  .invoke (.create "a" "/b" none) :: creates 0 (labelled "tty:/dev/ttyACM0") 100 ++
    List.replicate 4 (.advance 100) ++
    [.invoke (.kill "a" "10"), .answer 1 .goes, .answer 1 .goes, .answer 1 .goes,
      .advance 100, .advance 100,
      .resolve 100 ⟨fun _ => false, fun _ => true, fun _ => .ok [], fun _ => none, fun _ => none⟩,
      .claim 100]

/-- `kill` forwards any signal, that of `start` too: a container is deployed that nobody
started. -/
theorem deployed_without_start :
    ¬ ∀ sys, Reaches "/run/runtt" Transition.Any sys → sys.DeploysOnlyIfStarted := by
  intro h
  have hrun : (after "/run/runtt" Transition.Any releasedByKill).isSome = true := rfl
  have hverbs : ((after "/run/runtt" Transition.Any releasedByKill).get hrun).invocations.map
      Invocation.verb = [.create "a" "/b" none, .kill "a" "10"] := rfl
  obtain ⟨i, starter, st, hstarter, hverb, -⟩ :=
    h _ (reaches_after hrun) _ (List.mem_singleton_self _) rfl
  have hmem := List.mem_map_of_mem (f := Invocation.verb) (List.mem_of_getElem? hstarter)
  rw [hverbs, hverb] at hmem
  simp at hmem

end System
end Runtt
