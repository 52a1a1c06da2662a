import Runtt.SystemRuns

/-! # Signals and pids that are used again

A verb knows a proxy by a number it read from a file.  The number stands for the proxy as
long as no other process gets it; the kernel gives it out again as soon as the proxy is
reaped, and no verb can tell.
-/
namespace Runtt

open Interaction Program

/-- The verb was told that the pid is that of its container's proxy. -/
def Told.Knows (t : Told) (id : String) (pid : Nat) : Prop :=
  (∃ st, t.Read id st ∧ st.pid = some pid) ∨ ∃ args, t.Spawned args pid

/-- Who signals a pid was told it. -/
theorem Allowed.knows {v : Verb} {t : Told} {pid sig : Nat} (h : Allowed v t (.kill pid sig)) :
    t.Knows v.id pid := by
  rcases h with ⟨-, -, args, hspawned⟩ | ⟨st, hread, hpid, -⟩
  · exact .inr ⟨args, hspawned⟩
  · exact .inl ⟨st, hread, hpid⟩

/-- The invocation has questions left. -/
def Invocation.Running (inv : Invocation) : Prop := inv.exited = false ∧ ∀ o, inv.rest ≠ .done o

namespace System
variable {sys sys' : System} {root : String} {m : SystemMove} {id : String} {pid : Nat}

theorem Tells.is_running {i : Nat} {inv : Invocation} {x : Exchange Sys.Reply}
    (h : sys.Tells m i inv x) : inv.Running := by
  obtain ⟨_, next, _, _, _, hlive, hrest, _⟩ := tells_iff.mp h
  refine ⟨hlive, fun o ho => ?_⟩
  rw [hrest] at ho
  cases ho

/-- The pid stands for the proxy of the container, in its state file or in the memory of a
verb that is still running. -/
def Known (sys : System) (id : String) (pid : Nat) : Prop :=
  (∃ st, sys.files id = some st ∧ st.pid = some pid) ∨
    ∃ (i : Nat) (inv : Invocation), sys.invocations[i]? = some inv ∧ inv.Running ∧
      inv.verb.id = id ∧ inv.told.Knows id pid

/-- No proxy gets a pid that stands for the proxy of another container. -/
def SpawnsFresh (sys : System) (m : SystemMove) : Prop :=
  ∀ i inv exe args pid, sys.Tells m i inv ⟨.spawn exe args, Except.ok pid⟩ →
    ∀ id, sys.Known id pid → id = args.containerId

/-- No process of any kind gets a pid that stands for something else. -/
def StartsFresh (sys : System) (m : SystemMove) : Prop :=
  sys.SpawnsFresh m ∧ ∀ pid, m = .fork pid → ∀ id, ¬ sys.Known id pid

theorem Tells.known {guard : System → SystemMove → Prop} (hsys : Reaches root guard sys) {i : Nat}
    {inv : Invocation} {sig : Nat} {r : Except Error Unit}
    (h : sys.Tells m i inv ⟨.kill pid sig, r⟩) : sys.Known inv.verb.id pid :=
  .inr ⟨i, inv, h.running.1, h.is_running, rfl, (h.allowed hsys).1.knows⟩

/-- A verb writes only what it knows. -/
theorem known_of_writes {guard : System → SystemMove → Prop} (hsys : Reaches root guard sys)
    {i : Nat} {inv : Invocation} {st : State} {r : Except Error Unit}
    (h : sys.Tells m i inv ⟨.writeState st, r⟩) (hpid : st.pid = some pid) :
    sys.Known st.id pid := by
  have hid := h.writes_id hsys
  have hknown : inv.told.Knows inv.verb.id pid → sys.Known st.id pid := fun hknows =>
    .inr ⟨i, inv, h.running.1, h.is_running, hid.symm, hid ▸ hknows⟩
  rcases (h.allowed hsys).1 with
    ⟨bundle, pidFile, args, pid', -, hspawned, rfl⟩ | ⟨st₀, status, hread, rfl⟩
  · cases hpid
    exact hknown (.inr ⟨args, hspawned⟩)
  · exact hknown (.inl ⟨st₀, hread, hpid⟩)

/-- An invocation that is running after a step was running before it. -/
theorem running_before (hstep : sys.step root m = some sys') {i : Nat} {inv inv' : Invocation}
    (hinv' : sys'.invocations[i]? = some inv') (hrunning : inv'.Running)
    (hinv : sys.invocations[i]? = some inv) : inv.Running := by
  cases step_invocation hstep hinv' with
  | same hsame =>
    rw [hinv] at hsame
    cases hsame
    exact hrunning
  | invoked hm hi => exact absurd hi (Nat.ne_of_lt (List.getElem?_eq_some_iff.mp hinv).1)
  | told htells hrest =>
    have hsame := htells.running.1
    rw [hinv] at hsame
    cases hsame
    exact htells.is_running
  | exited hsame hm => exact absurd hrunning.1 (by simp)

/-- Nothing is known that was not known before, but the pid of a proxy just spawned. -/
theorem step_known {guard : System → SystemMove → Prop} (hsys : Reaches root guard sys)
    (hstep : sys.step root m = some sys') (h : sys'.Known id pid) :
    sys.Known id pid ∨
      ∃ i inv exe args, sys.Tells m i inv ⟨.spawn exe args, Except.ok pid⟩ ∧
        id = args.containerId := by
  rcases h with ⟨st, hst, hpid⟩ | ⟨i, inv', hinv', hrunning, rfl, hknows⟩
  · rcases step_files hstep id with
      heq | ⟨i, inv, st', r, htells, hid, -, heq⟩ | ⟨i, inv, r, -, -, heq⟩
    · exact .inl (.inl ⟨st, heq ▸ hst, hpid⟩)
    · rw [heq] at hst
      cases hst
      exact .inl (hid ▸ known_of_writes hsys htells hpid)
    · rw [heq] at hst
      cases hst
  · have hold : ∀ {inv}, sys.invocations[i]? = some inv → inv.verb = inv'.verb →
        inv.told.Knows inv'.verb.id pid → sys.Known inv'.verb.id pid := by
      intro inv hinv hverb hknows
      exact .inr ⟨i, inv, hinv, running_before hstep hinv' hrunning hinv, by rw [hverb], hknows⟩
    rcases hknows with ⟨st, hread, hpid⟩ | ⟨args, exe, hspawned⟩
    · rcases mem_told hstep hinv' hread with ⟨inv, hinv, hverb, hx⟩ | ⟨inv, htells, -, -⟩
      · exact .inl (hold hinv hverb (.inl ⟨st, hx, hpid⟩))
      · exact .inl (.inl ⟨st, htells.read, hpid⟩)
    · rcases mem_told hstep hinv' hspawned with ⟨inv, hinv, hverb, hx⟩ | ⟨inv, htells, hverb, -⟩
      · exact .inl (hold hinv hverb (.inr ⟨args, exe, hx⟩))
      · obtain ⟨-, -, hid, -⟩ := (htells.allowed hsys).1
        exact .inr ⟨i, inv, exe, args, htells, by rw [hid, hverb]⟩

/-- What stands for the proxy of a container is not the pid of another container's. -/
theorem known_container (h : Reaches root SpawnsFresh sys) {r : Resident}
    (hknown : sys.Known id r.pid) (hr : r ∈ sys.proxies) : r.proxy.containerId = id := by
  refine h.invariant (I := fun sys => ∀ id, ∀ r ∈ sys.proxies, sys.Known id r.pid →
    r.proxy.containerId = id) (fun id r hr => by cases hr) ?_ id r hr hknown
  intro sys sys' m hsys ih hfresh hstep id r' hr' hknown
  rcases step_proxy (distinct hsys) hstep hr' with
    ⟨r, hr, hpid, -, hbecomes⟩ | ⟨i, inv, exe, args, htells, heq⟩
  · rw [hpid] at hknown
    rw [hbecomes.continues.containerId]
    rcases step_known hsys hstep hknown with hknown | ⟨i, inv, exe, args, htells, rfl⟩
    · exact ih id r hr hknown
    · exact absurd rfl (ne_pid_of_not_ours (ours_of_not_taken htells.spawned.2) hr)
  · have hcontainer : r'.proxy.containerId = args.containerId := by rw [heq]; rfl
    rw [hcontainer]
    rcases step_known hsys hstep hknown with hknown | ⟨i', inv', exe', args', htells', rfl⟩
    · exact (hfresh _ _ _ _ _ htells id hknown).symm
    · cases (htells.unique htells').2.2
      rfl

/-- What stands for the proxy of a container is not the pid of anything else. -/
theorem known_not_other (h : Reaches root StartsFresh sys) (hknown : sys.Known id pid) :
    pid ∉ sys.others := by
  refine h.invariant (I := fun sys => ∀ id pid, sys.Known id pid → pid ∉ sys.others)
    (fun id pid _ hpid => by cases hpid) ?_ id pid hknown
  intro sys sys' m hsys ih hfresh hstep id pid hknown hpid
  rcases step_known hsys hstep hknown with hknown | ⟨i, inv, exe, args, htells, rfl⟩
  · rcases step_others hstep hpid with hpid | rfl
    · exact ih id pid hknown hpid
    · exact hfresh.2 pid rfl id hknown
  · rcases step_others hstep hpid with hpid | rfl
    · have htaken : sys.taken pid = true := by
        rw [taken, Bool.or_eq_true]
        exact .inr (List.contains_iff_mem.mpr hpid)
      rw [htells.spawned.2] at htaken
      cases htaken
    · obtain ⟨_, _, _, hm, _⟩ := tells_iff.mp htells
      cases hm

/-- Every signal in the log was sent by an invocation for the container, and if it reached a
proxy, that proxy is the container's. -/
theorem delivered_home (h : Reaches root SpawnsFresh sys) {d : Delivery} (hd : d ∈ sys.deliveries) :
    ∃ inv, sys.invocations[d.sender]? = some inv ∧
      ∀ r, d.receiver = .proxy r → r.proxy.containerId = inv.verb.id := by
  refine h.invariant (I := fun sys => ∀ d ∈ sys.deliveries, ∃ inv,
    sys.invocations[d.sender]? = some inv ∧
      ∀ r, d.receiver = .proxy r → r.proxy.containerId = inv.verb.id)
    (fun d hd => by cases hd) ?_ d hd
  intro sys sys' m hsys ih _ hstep d hd
  have hold : d ∈ sys.deliveries → ∃ inv, sys'.invocations[d.sender]? = some inv ∧
      ∀ r, d.receiver = .proxy r → r.proxy.containerId = inv.verb.id := by
    intro hd
    obtain ⟨inv, hinv, hhome⟩ := ih d hd
    obtain ⟨inv', hinv', hcont⟩ := step_continues hstep hinv
    exact ⟨inv', hinv', fun r hr => hcont.verb ▸ hhome r hr⟩
  rcases step_delivery hstep hd with hd | ⟨i, inv, pid, sig, htells, rfl⟩
  · exact hold hd
  · obtain ⟨inv', hinv', hcont⟩ := step_continues hstep htells.running.1
    refine ⟨inv', hinv', fun r hr => ?_⟩
    obtain ⟨hmem, hpid⟩ := mem_of_receiver hr
    rw [hcont.verb]
    exact known_container hsys (hpid ▸ htells.known hsys) hmem

/-- Every signal in the log reached a proxy or nobody. -/
theorem not_delivered_elsewhere (h : Reaches root StartsFresh sys) {d : Delivery}
    (hd : d ∈ sys.deliveries) : d.receiver ≠ .other := by
  refine h.invariant (I := fun sys => ∀ d ∈ sys.deliveries, d.receiver ≠ .other)
    (fun d hd => by cases hd) ?_ d hd
  intro sys sys' m hsys ih _ hstep d hd
  rcases step_delivery hstep hd with hd | ⟨i, inv, pid, sig, htells, rfl⟩
  · exact ih d hd
  · exact fun hother => known_not_other hsys (htells.known hsys) (others_of_receiver hother)

/-- The signal reached the proxy that `create` spawned for the container of its sender, or no
process at all. -/
def ReachedOwnProxy (sys : System) (d : Delivery) : Prop :=
  d.receiver = .nobody ∨ ∃ r sender creator bundle pidFile, d.receiver = .proxy r ∧
    sys.invocations[d.sender]? = some sender ∧ sys.invocations[r.creator]? = some creator ∧
    creator.verb = .create sender.verb.id bundle pidFile ∧ r.proxy.containerId = sender.verb.id

/-- **A stale pid is not signalled as long as it is not used again**: in every run in which no
process starts under a pid that a state file records, or that a running verb has read, every
signal reaches the proxy of its own container, or nobody. -/
theorem stale_pid_not_signalled (root : String) (sys : System) (h : Reaches root StartsFresh sys)
    (d : Delivery) (hd : d ∈ sys.deliveries) : sys.ReachedOwnProxy d := by
  have hspawns : Reaches root SpawnsFresh sys := h.mono fun _ _ hfresh => hfresh.1
  cases hreceiver : d.receiver with
  | nobody => exact .inl hreceiver
  | other => exact absurd hreceiver (not_delivered_elsewhere h hd)
  | proxy r =>
    obtain ⟨sender, hsender, hhome⟩ := delivered_home hspawns hd
    obtain ⟨creator, bundle, pidFile, hcreator, hverb, -⟩ :=
      ((logged h hd).reached r hreceiver).2.create h
    have hid := hhome r hreceiver
    exact .inr ⟨r, sender, creator, bundle, pidFile, hreceiver, hsender, hcreator, hid ▸ hverb, hid⟩

/-! ## With and without another process -/

/-- The step is about this container, and starts no process but its proxies. -/
def alone (id : String) : SystemMove → Bool
  | .invoke v => v.id == id
  | .fork _ => false
  | _ => true

/-- There is only this container, and no other process. -/
def Alone (id : String) (_ : System) (m : SystemMove) : Prop := alone id m = true

instance (id : String) (sys : System) (m : SystemMove) : Decidable (Alone id sys m) :=
  inferInstanceAs (Decidable (_ = true))

/-- A container on its own has its pids to itself. -/
theorem startsFresh_of_alone (h : Reaches root (Alone id) sys) : Reaches root StartsFresh sys := by
  have hall : Reaches root StartsFresh sys ∧
      (∀ (i : Nat) (inv : Invocation), sys.invocations[i]? = some inv → inv.verb.id = id) ∧
        ∀ id' pid, sys.Known id' pid → id' = id := by
    refine h.invariant (I := fun sys => Reaches root StartsFresh sys ∧
      (∀ (i : Nat) (inv : Invocation), sys.invocations[i]? = some inv → inv.verb.id = id) ∧
        ∀ id' pid, sys.Known id' pid → id' = id) ⟨.refl, ?_, ?_⟩ ?_
    · intro i inv hinv
      cases hinv
    · rintro id' pid (⟨st, hst, -⟩ | ⟨i, inv, hinv, -⟩)
      · cases hst
      · cases hinv
    · intro sys sys' m hsys ⟨hfresh, hverbs, hknown⟩ halone hstep
      have hspawn : ∀ i inv exe args pid,
          sys.Tells m i inv ⟨.spawn exe args, Except.ok pid⟩ → args.containerId = id := by
        intro i inv exe args pid htells
        obtain ⟨-, -, hid, -⟩ := (htells.allowed hsys).1
        rw [hid]
        exact hverbs i inv htells.running.1
      refine ⟨.step hfresh ⟨?_, ?_⟩ hstep, fun i inv' hinv' => ?_, fun id' pid hknown' => ?_⟩
      · intro i inv exe args pid htells id' hid'
        rw [hknown id' pid hid', hspawn i inv exe args pid htells]
      · rintro pid rfl
        cases halone
      · cases step_invocation hstep hinv' with
        | same hinv => exact hverbs i _ hinv
        | invoked hm hi =>
          subst hm
          exact eq_of_beq halone
        | @told inv x next htells hrest => exact hverbs i inv htells.running.1
        | @exited inv hinv hm => exact hverbs i inv hinv
      · rcases step_known hsys hstep hknown' with hknown' | ⟨i, inv, exe, args, htells, rfl⟩
        · exact hknown id' pid hknown'
        · exact hspawn i inv exe args pid htells
  exact hall.1

/-- A container that is created, started and killed. -/
def killedAfterStart : List SystemMove :=
  .invoke (.create "a" "/b" none) :: creates 0 (labelled "usb:3-6") 100 ++
    List.replicate 5 (.advance 100) ++
    [.invoke (.start "a"), .answer 1 .goes, .answer 1 .goes, .answer 1 .goes,
      .invoke (.kill "a" "KILL"), .answer 2 .goes, .answer 2 .goes, .answer 2 .goes]

theorem stale_pid_not_signalled_example :
    ∃ sys, after "/run/runtt" (Alone "a") killedAfterStart = some sys ∧
      sys.deliveries.map Delivery.sig = [SIGUSR1, SIGKILL] ∧
      ∀ d ∈ sys.deliveries, sys.ReachedOwnProxy d := by
  have hrun : (after "/run/runtt" (Alone "a") killedAfterStart).isSome = true := rfl
  exact ⟨_, (Option.some_get hrun).symm, rfl, stale_pid_not_signalled "/run/runtt" _
    (startsFresh_of_alone (reaches_after hrun))⟩

/-- The proxy dies, its pid goes to some other process, and `kill` kills that. -/
def killedLate : List SystemMove :=
  .invoke (.create "a" "/b" none) :: creates 0 (labelled "usb:3-6") 100 ++
    [.die 100, .reap 100, .fork 100,
      .invoke (.kill "a" "KILL"), .answer 1 .goes, .answer 1 .goes, .answer 1 .goes]

theorem stale_pid_signalled :
    ¬ ∀ sys, Reaches "/run/runtt" Transition.Any sys →
      ∀ d ∈ sys.deliveries, sys.ReachedOwnProxy d := by
  intro h
  have hrun : (after "/run/runtt" Transition.Any killedLate).isSome = true := rfl
  have hlog : ((after "/run/runtt" Transition.Any killedLate).get hrun).deliveries =
      [⟨1, 100, SIGKILL, 0, .other⟩] := rfl
  rcases h _ (reaches_after hrun) _ (hlog ▸ List.mem_singleton_self _) with
    hnobody | ⟨r, sender, creator, bundle, pidFile, hproxy, -⟩
  · cases hnobody
  · cases hproxy

end System
end Runtt
