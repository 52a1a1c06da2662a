import Runtt.SystemSteps

/-! # Invariants of all runs

Whatever the order of steps: every invocation keeps the contract of its verb, every proxy
was spawned by the `create` of its container, and every signal in the log was sent by a
verb that was allowed to.
-/
namespace Runtt

open Interaction Program

/-- What the invocation was told, and what is left of its program, keep the contract of its
verb. -/
structure Invocation.Lawful (inv : Invocation) : Prop where
  keeps : Keeps (Allowed inv.verb) (Ended inv.verb) inv.told inv.rest
  removal : Keeps (fun t _ => ¬ Told.Removing t) (fun t o => ∀ id, Told.Removed t id → o = .ok ())
    inv.told inv.rest
  asked : ∀ t x s, inv.told = t ++ x :: s → Allowed inv.verb t x.question

namespace Invocation.Lawful
variable {inv : Invocation}

/-- A question that was asked was allowed when it was. -/
theorem allowed (h : inv.Lawful) {x : Exchange Sys.Reply} (hx : x ∈ inv.told) :
    ∃ t, t <+: inv.told ∧ Allowed inv.verb t x.question := by
  obtain ⟨t, s, htold⟩ := List.append_of_mem hx
  exact ⟨t, ⟨x :: s, htold.symm⟩, h.asked t x s htold⟩

/-- A verb spawns one proxy at most. -/
theorem spawned_once (h : inv.Lawful) {exe exe' : String} {args args' : SpawnArgs} {pid pid' : Nat}
    (hx : ⟨.spawn exe args, Except.ok pid⟩ ∈ inv.told)
    (hx' : ⟨.spawn exe' args', Except.ok pid'⟩ ∈ inv.told) : args = args' ∧ pid = pid' := by
  obtain ⟨t, s, htold⟩ := List.append_of_mem hx
  rw [htold] at hx'
  rcases List.mem_append.mp hx' with hmem | hmem
  · obtain ⟨-, -, -, -, -, hfirst⟩ := h.asked _ _ _ htold
    exact absurd ⟨exe', hmem⟩ (hfirst args' pid')
  · rcases List.mem_cons.mp hmem with heq | hmem
    · cases heq
      exact ⟨rfl, rfl⟩
    · obtain ⟨t', s', rfl⟩ := List.append_of_mem hmem
      rw [← List.cons_append, ← List.append_assoc] at htold
      obtain ⟨-, -, -, -, -, hfirst⟩ := h.asked _ _ _ htold
      exact absurd ⟨exe, by simp⟩ (hfirst args pid)

end Invocation.Lawful

/-- A proxy never changes its container or its target, and never gives up a lock. -/
structure Proxy.Continues (p p' : Proxy) : Prop where
  containerId : p'.containerId = p.containerId
  target : p'.target = p.target
  locks : p.locks ⊆ p'.locks

namespace System

/-- What runs reach when each of their steps meets `guard`. -/
abbrev Reaches (root : String) (guard : System → SystemMove → Prop) : System → Prop :=
  Transition.Reaches (step root) guard initial

/-- Where the moves lead when each of them meets `guard`. -/
def after (root : String) (guard : System → SystemMove → Prop)
    [∀ sys m, Decidable (guard sys m)] (ms : List SystemMove) : Option System :=
  ms.foldlM (Transition.guarded (step root) guard) initial

variable {sys sys' : System} {root : String} {m : SystemMove}
  {guard : System → SystemMove → Prop}

theorem reaches_after [∀ sys m, Decidable (guard sys m)] {ms : List SystemMove}
    (h : (after root guard ms).isSome = true) : Reaches root guard ((after root guard ms).get h) :=
  .run .refl (Option.some_get h).symm

/-- A `create` that goes well. -/
def creates (i : Nat) (spec : Spec) (pid : Nat) : List SystemMove :=
  [.answer i (.config (.spec spec)), .answer i (.found true), .answer i .goes,
    .answer i (.exe (.ok "/usr/bin/runtt")), .answer i (.spawned pid), .answer i .goes, .exit i]

/-- The spec of a container with this label. -/
def labelled (target : String) : Spec :=
  ⟨some [(SPEC_TARGET, target)], some ["app.signed.bin"], some "rootfs"⟩

theorem distinct (h : Reaches root guard sys) : sys.Distinct :=
  h.invariant (show Distinct initial from List.nodup_nil) fun _ hd _ hstep => step_distinct hd hstep

/-- What every verb keeps to by itself, every invocation keeps to. -/
theorem keeps_run {allowed : Verb → Told → Sys → Prop}
    {ends : Verb → Told → Except Error Unit → Prop}
    (hverb : ∀ v : Verb, Keeps (allowed v) (ends v) [] (v.program root).run)
    (h : Reaches root guard sys) {i : Nat} {inv : Invocation}
    (hinv : sys.invocations[i]? = some inv) :
    Keeps (allowed inv.verb) (ends inv.verb) inv.told inv.rest := by
  refine h.invariant (I := fun sys => ∀ i inv, sys.invocations[i]? = some inv →
    Keeps (allowed inv.verb) (ends inv.verb) inv.told inv.rest)
    (fun i inv hinv => by cases hinv) ?_ i inv hinv
  intro sys sys' m _ ih _ hstep i inv' hinv'
  cases step_invocation hstep hinv' with
  | same hinv => exact ih i _ hinv
  | @invoked v hm hi => exact hverb v
  | @exited inv hinv hm => exact ih i inv hinv
  | @told inv x next htells hrest =>
    have hkeeps := ih i inv htells.running.1
    rw [hrest] at hkeeps
    exact hkeeps.reply x.reply

/-- What is answered may be asked. -/
theorem asks_of_tells {allowed : Verb → Told → Sys → Prop}
    {ends : Verb → Told → Except Error Unit → Prop}
    (hverb : ∀ v : Verb, Keeps (allowed v) (ends v) [] (v.program root).run)
    (h : Reaches root guard sys) {i : Nat} {inv : Invocation} {x : Exchange Sys.Reply}
    (htells : sys.Tells m i inv x) : allowed inv.verb inv.told x.question := by
  obtain ⟨_, next, _, -, hinv, -, hrest, -⟩ := tells_iff.mp htells
  have hkeeps := keeps_run hverb h hinv
  rw [hrest] at hkeeps
  exact hkeeps.1

/-- Whatever an invocation asked, it was allowed to when it did. -/
theorem asked_run {allowed : Verb → Told → Sys → Prop}
    {ends : Verb → Told → Except Error Unit → Prop}
    (hverb : ∀ v : Verb, Keeps (allowed v) (ends v) [] (v.program root).run)
    (h : Reaches root guard sys) {i : Nat} {inv : Invocation}
    (hinv : sys.invocations[i]? = some inv) (t : Told) (x : Exchange Sys.Reply) (s : Told)
    (htold : inv.told = t ++ x :: s) : allowed inv.verb t x.question := by
  refine h.invariant (I := fun sys => ∀ i inv, sys.invocations[i]? = some inv →
    ∀ t x s, inv.told = t ++ x :: s → allowed inv.verb t x.question)
    (fun i inv hinv => by cases hinv) ?_ i inv hinv t x s htold
  intro sys sys' m hsys ih _ hstep i inv' hinv' t x s htold
  cases step_invocation hstep hinv' with
  | same hinv => exact ih i _ hinv t x s htold
  | invoked hm hi => simp at htold
  | @exited inv hinv hm => exact ih i inv hinv t x s htold
  | @told inv y next htells hrest =>
    -- The last exchange is the new one.
    rcases List.eq_nil_or_concat s with rfl | ⟨s, z, rfl⟩
    · obtain ⟨rfl, heq⟩ := List.append_inj' htold rfl
      cases heq
      exact asks_of_tells hverb hsys htells
    · rw [List.concat_eq_append, ← List.cons_append, ← List.append_assoc] at htold
      exact ih i inv htells.running.1 t x s (List.append_inj' htold rfl).1

/-- Every invocation is lawful. -/
theorem lawful (h : Reaches root guard sys) {i : Nat} {inv : Invocation}
    (hinv : sys.invocations[i]? = some inv) : inv.Lawful where
  keeps := keeps_run (Verb.keeps root) h hinv
  removal := keeps_run (Verb.keeps_removal root) h hinv
  asked := asked_run (Verb.keeps root) h hinv

/-- What an invocation knows of the clock is past. -/
theorem clock_le (h : Reaches root guard sys) {i : Nat} {inv : Invocation}
    (hinv : sys.invocations[i]? = some inv) :
    inv.told.clock ≤ inv.since ∧ inv.since ≤ sys.clock := by
  refine h.invariant (I := fun sys => ∀ i inv, sys.invocations[i]? = some inv →
    inv.told.clock ≤ inv.since ∧ inv.since ≤ sys.clock)
    (fun i inv hinv => by cases hinv) ?_ i inv hinv
  intro sys sys' m _ ih _ hstep i inv' hinv'
  have hclock := step_clock_le hstep
  cases step_invocation hstep hinv' with
  | same hinv => exact ⟨(ih i _ hinv).1, (ih i _ hinv).2.trans hclock⟩
  | invoked hm hi => exact ⟨Nat.zero_le _, hclock⟩
  | exited hinv hm => exact ⟨(ih i _ hinv).1, (ih i _ hinv).2.trans hclock⟩
  | @told inv x next htells hrest =>
    obtain ⟨htold, hsince⟩ := ih i inv htells.running.1
    refine ⟨?_, hclock⟩
    rw [Told.clock_append_singleton]
    unfold Told.clockAfter
    split
    · rename_i ms
      rw [htells.saw]
      exact Nat.max_le.mpr ⟨htold.trans hsince, Nat.le_refl _⟩
    · exact (Nat.add_le_add_right htold _).trans htells.slept
    · exact htold.trans hsince

/-- A state file is about its container. -/
theorem files_id (h : Reaches root guard sys) {id : String} {st : State}
    (hst : sys.files id = some st) : st.id = id := by
  refine h.invariant (I := fun sys => ∀ id st, sys.files id = some st → st.id = id)
    (fun id st hst => by cases hst) ?_ id st hst
  intro sys sys' m _ ih _ hstep id st hst
  rcases step_files hstep id with heq | ⟨i, inv, st', r, -, hid, -, heq⟩ | ⟨i, inv, r, -, -, heq⟩
  · exact ih id st (heq ▸ hst)
  · rw [heq] at hst
    cases hst
    exact hid
  · rw [heq] at hst
    cases hst

/-- A question that is answered is one the verb may ask. -/
theorem Tells.allowed (h : Reaches root guard sys) {i : Nat} {inv : Invocation}
    {x : Exchange Sys.Reply} (htells : sys.Tells m i inv x) :
    Allowed inv.verb inv.told x.question ∧ ¬ inv.told.Removing :=
  ⟨asks_of_tells (Verb.keeps root) h htells, asks_of_tells (Verb.keeps_removal root) h htells⟩

/-- Whatever is told anew is told in this step. -/
theorem mem_told {i : Nat} {inv' : Invocation} {x : Exchange Sys.Reply}
    (hstep : sys.step root m = some sys') (hinv' : sys'.invocations[i]? = some inv')
    (hx : x ∈ inv'.told) :
    (∃ inv, sys.invocations[i]? = some inv ∧ inv.verb = inv'.verb ∧ x ∈ inv.told) ∨
      ∃ inv, sys.Tells m i inv x ∧ inv.verb = inv'.verb ∧ inv'.told = inv.told ++ [x] := by
  cases step_invocation hstep hinv' with
  | same hinv => exact .inl ⟨_, hinv, rfl, hx⟩
  | invoked hm hi => cases hx
  | exited hinv hm => exact .inl ⟨_, hinv, rfl, hx⟩
  | told htells hrest =>
    rcases List.mem_append.mp hx with hx | hx
    · exact .inl ⟨_, htells.running.1, rfl, hx⟩
    · cases List.mem_singleton.mp hx
      exact .inr ⟨_, htells, rfl, rfl⟩

theorem read_id (h : Reaches root guard sys) {i : Nat} {inv : Invocation} {id : String} {st : State}
    (hinv : sys.invocations[i]? = some inv) (hread : inv.told.Read id st) : st.id = id := by
  refine h.invariant (I := fun sys => ∀ i inv, sys.invocations[i]? = some inv →
    ∀ id st, inv.told.Read id st → st.id = id) (fun i inv hinv => by cases hinv) ?_
    i inv hinv id st hread
  intro sys sys' m hsys ih _ hstep i inv' hinv' id st hread
  rcases mem_told hstep hinv' hread with ⟨inv, hinv, -, hx⟩ | ⟨inv, htells, -, -⟩
  · exact ih i inv hinv id st hx
  · exact files_id hsys htells.read

/-- A verb spawns proxies of its own container. -/
theorem spawned_id (hsys : Reaches root guard sys) {i : Nat} {inv : Invocation} {args : SpawnArgs}
    {pid : Nat} (hinv : sys.invocations[i]? = some inv) (h : inv.told.Spawned args pid) :
    args.containerId = inv.verb.id := by
  obtain ⟨exe, hexe⟩ := h
  obtain ⟨t, -, -, -, hid, -⟩ := (lawful hsys hinv).allowed hexe
  exact hid

/-- A verb writes the state file of its own container. -/
theorem Tells.writes_id (hsys : Reaches root guard sys) {i : Nat} {inv : Invocation} {st : State}
    {r : Except Error Unit} (h : sys.Tells m i inv ⟨.writeState st, r⟩) : st.id = inv.verb.id := by
  rcases (h.allowed hsys).1 with
    ⟨bundle, pidFile, args, pid, -, hspawned, rfl⟩ | ⟨st₀, status, hread, rfl⟩
  · exact spawned_id hsys h.running.1 hspawned
  · show st₀.id = inv.verb.id
    exact read_id hsys h.running.1 hread

/-- There are state files only of containers that a verb was invoked for. -/
theorem invoked_of_file (h : Reaches root guard sys) {id : String} {st : State}
    (hst : sys.files id = some st) :
    ∃ (i : Nat) (inv : Invocation), sys.invocations[i]? = some inv ∧ inv.verb.id = id := by
  refine h.invariant (I := fun sys => ∀ id st, sys.files id = some st →
    ∃ (i : Nat) (inv : Invocation), sys.invocations[i]? = some inv ∧ inv.verb.id = id)
    (fun id st hst => by cases hst) ?_ id st hst
  intro sys sys' m hsys ih _ hstep id st hst
  have hold : (∃ (i : Nat) (inv : Invocation), sys.invocations[i]? = some inv ∧ inv.verb.id = id) →
      ∃ (i : Nat) (inv : Invocation), sys'.invocations[i]? = some inv ∧ inv.verb.id = id := by
    rintro ⟨i, inv, hinv, hid⟩
    obtain ⟨inv', hinv', hcont⟩ := step_continues hstep hinv
    exact ⟨i, inv', hinv', by rw [hcont.verb, hid]⟩
  rcases step_files hstep id with
    hsame | ⟨i, inv, st', r, htells, hid, -, -⟩ | ⟨i, inv, r, -, -, hgone⟩
  · exact hold (ih id st (hsame ▸ hst))
  · exact hold ⟨i, inv, htells.running.1, by rw [← htells.writes_id hsys, hid]⟩
  · rw [hgone] at hst
    cases hst

/-- What holds of the state that a `create` records, whatever its status, holds of every state
file, and of all that was read of them. -/
structure AllStates (P : State → Prop) (sys : System) : Prop where
  file : ∀ id st, sys.files id = some st → P st
  read : ∀ (i : Nat) (inv : Invocation), sys.invocations[i]? = some inv → ∀ id st,
    inv.told.Read id st → P st

theorem allStates {P : State → Prop} (h : Reaches root guard sys)
    (hcreated : ∀ bundle args pid, validateContainerId args.containerId = .ok () →
      P (createdState bundle args pid))
    (hstatus : ∀ st status, P st → P { st with status := status }) : sys.AllStates P := by
  refine h.invariant (I := AllStates P) ⟨fun id st hst => ?_, fun i inv hinv => ?_⟩ ?_
  · cases hst
  · cases hinv
  · rintro sys sys' m hsys ⟨hfile, hread⟩ _ hstep
    refine ⟨fun id st hst => ?_, fun i inv' hinv' id st hx => ?_⟩
    · rcases step_files hstep id with
        hsame | ⟨i, inv, st', r, htells, -, -, hwrote⟩ | ⟨i, inv, r, -, -, hgone⟩
      · exact hfile id st (hsame ▸ hst)
      · rw [hwrote] at hst
        cases hst
        rcases (htells.allowed hsys).1 with
          ⟨bundle, pidFile, args, pid, -, ⟨exe, hexe⟩, rfl⟩ | ⟨st₀, status, hx, rfl⟩
        · obtain ⟨t, -, -, hvalid, hid, -⟩ := (lawful hsys htells.running.1).allowed hexe
          exact hcreated bundle args pid (hid ▸ hvalid)
        · exact hstatus st₀ status (hread i inv htells.running.1 _ st₀ hx)
      · rw [hgone] at hst
        cases hst
    · rcases mem_told hstep hinv' hx with ⟨inv, hinv, -, hx⟩ | ⟨inv, htells, -, -⟩
      · exact hread i inv hinv id st hx
      · exact hfile id st htells.read

/-! ## Where proxies come from -/

theorem Becomes.continues {r : Resident} {p : Proxy} (h : sys.Becomes m r p) :
    r.proxy.Continues p := by
  cases h with
  | same hquiet => exact ⟨rfl, rfl, List.Subset.refl _⟩
  | @delivered i inv sig htells =>
    obtain ⟨stage, received, heq⟩ := r.proxy.deliver_only sig
    rw [heq]
    exact ⟨rfl, rfl, List.Subset.refl _⟩
  | moved hmoved =>
    cases hmoved with
    | advance =>
      obtain ⟨stage, received, heq⟩ := r.proxy.advance_only
      rw [heq]
      exact ⟨rfl, rfl, List.Subset.refl _⟩
    | resolve hp =>
      obtain ⟨-, ⟨key, rfl⟩ | rfl⟩ := resolved_stage hp
      · exact ⟨rfl, rfl, List.Subset.refl _⟩
      · exact ⟨rfl, rfl, List.Subset.refl _⟩
    | claim hp =>
      obtain ⟨key, -, ⟨-, rfl⟩ | ⟨-, rfl⟩⟩ := claimed_stage hp
      · exact ⟨rfl, rfl, List.Subset.refl _⟩
      · exact ⟨rfl, rfl, List.subset_cons_self _ _⟩
    | finish hp =>
      obtain ⟨-, rfl⟩ := finished_stage hp
      exact ⟨rfl, rfl, List.Subset.refl _⟩

/-- What holds of a proxy when it is spawned, and is kept whatever becomes of it, holds of all
proxies. -/
theorem proxies_invariant {P : Proxy → Prop} (h : Reaches root guard sys)
    (hspawned : ∀ {sys m i inv exe args pid}, Reaches root guard sys →
      sys.Tells m i inv ⟨.spawn exe args, Except.ok pid⟩ → P args.proxy)
    (hbecomes : ∀ {sys m r p}, Reaches root guard sys → guard sys m → r ∈ sys.proxies →
      P r.proxy → sys.Becomes m r p → P p) : ∀ r ∈ sys.proxies, P r.proxy := by
  refine h.invariant (I := fun sys => ∀ r ∈ sys.proxies, P r.proxy) (fun r hr => by cases hr) ?_
  intro sys sys' m hsys ih hguard hstep r' hr'
  rcases step_proxy (distinct hsys) hstep hr' with
    ⟨r, hr, -, -, hb⟩ | ⟨i, inv, exe, args, htells, heq⟩
  · exact hbecomes hsys hguard hr (ih r hr) hb
  · rw [heq]
    exact hspawned hsys htells

/-- The proxy was spawned by its creator, with the arguments `args`. -/
structure BornOf (sys : System) (r : Resident) (inv : Invocation) (args : SpawnArgs) : Prop where
  creator : sys.invocations[r.creator]? = some inv
  spawned : inv.told.Spawned args r.pid
  containerId : r.proxy.containerId = args.containerId
  target : r.proxy.target = args.target
  lock : args.lock ∈ r.proxy.locks
  pos : 0 < r.pid

/-- The proxy was spawned by an invocation of the system. -/
def Born (sys : System) (r : Resident) : Prop := ∃ inv args, sys.BornOf r inv args

variable {r r' : Resident}

theorem Born.step (h : sys.Born r) (hstep : sys.step root m = some sys') : sys'.Born r := by
  obtain ⟨inv, args, hborn⟩ := h
  obtain ⟨inv', hinv', hcont⟩ := step_continues hstep hborn.creator
  obtain ⟨exe, hexe⟩ := hborn.spawned
  exact ⟨inv', args, { hborn with
    creator := hinv'
    spawned := ⟨exe, hcont.told.subset hexe⟩ }⟩

theorem born (h : Reaches root guard sys) (hr : r ∈ sys.proxies) : sys.Born r := by
  refine h.invariant (I := fun sys => ∀ r ∈ sys.proxies, sys.Born r)
    (fun r hr => by cases hr) ?_ r hr
  intro sys sys' m hsys ih _ hstep r' hr'
  rcases step_proxy (distinct hsys) hstep hr' with
    ⟨r, hr, hpid, hcreator, hbecomes⟩ | ⟨i, inv, exe, args, htells, heq⟩
  · obtain ⟨inv, args, hborn⟩ := (ih r hr).step hstep
    have hcont := hbecomes.continues
    exact ⟨inv, args, {
      creator := hcreator ▸ hborn.creator
      spawned := hpid ▸ hborn.spawned
      containerId := hcont.containerId.trans hborn.containerId
      target := hcont.target.trans hborn.target
      lock := hcont.locks hborn.lock
      pos := hpid ▸ hborn.pos }⟩
  · obtain ⟨inv', hinv', hcont⟩ := step_continues hstep htells.running.1
    obtain ⟨next, sys₁, hrest, hans, rfl⟩ := htells.effect hstep
    have hi : i < sys.invocations.length := (List.getElem?_eq_some_iff.mp htells.running.1).1
    simp only [List.getElem?_set_self hi, Option.some.injEq] at hinv'
    subst hinv'
    rw [heq]
    exact ⟨_, args, {
      creator := List.getElem?_set_self hi
      spawned := ⟨exe, List.mem_append_right _ (List.mem_singleton_self _)⟩
      containerId := rfl
      target := rfl
      lock := List.mem_singleton_self _
      pos := htells.spawned.1 }⟩

/-- Two proxies of one creator are one. -/
theorem Born.pid_eq (h : Reaches root guard sys) (hr : sys.Born r) (hr' : sys.Born r')
    (hcreator : r.creator = r'.creator) : r.pid = r'.pid := by
  obtain ⟨inv, args, hborn⟩ := hr
  obtain ⟨inv', args', hborn'⟩ := hr'
  have hinv := hborn.creator
  rw [hcreator, hborn'.creator] at hinv
  cases hinv
  obtain ⟨exe, hexe⟩ := hborn.spawned
  obtain ⟨exe', hexe'⟩ := hborn'.spawned
  exact ((lawful h hborn'.creator).spawned_once hexe hexe').2

/-- A proxy is spawned by a `create` of its own container, with a valid id, under the lock of
its label. -/
theorem Born.create (h : Reaches root guard sys) (hr : sys.Born r) :
    ∃ inv bundle pidFile, sys.invocations[r.creator]? = some inv ∧
      inv.verb = .create r.proxy.containerId bundle pidFile ∧
      validateContainerId r.proxy.containerId = .ok () ∧
      (∃ args, inv.told.Spawned args r.pid) ∧ lockName r.proxy.target ∈ r.proxy.locks ∧
      0 < r.pid := by
  obtain ⟨inv, args, hborn⟩ := hr
  obtain ⟨exe, hexe⟩ := hborn.spawned
  obtain ⟨t, -, ⟨bundle, pidFile, hverb⟩, hvalid, hid, hlock, -, -⟩ :=
    (lawful h hborn.creator).allowed hexe
  have hcontainer : inv.verb.id = r.proxy.containerId := hid.symm.trans hborn.containerId.symm
  refine ⟨inv, bundle, pidFile, hborn.creator, hcontainer ▸ hverb, hcontainer ▸ hvalid,
    ⟨args, hborn.spawned⟩, ?_, hborn.pos⟩
  rw [hborn.target, ← hlock]
  exact hborn.lock

/-- One creator, one container. -/
theorem Born.containerId_eq (h : Reaches root guard sys) (hr : sys.Born r) (hr' : sys.Born r')
    (hcreator : r.creator = r'.creator) : r.proxy.containerId = r'.proxy.containerId := by
  obtain ⟨inv, bundle, pidFile, hinv, hverb, -⟩ := hr.create h
  obtain ⟨inv', bundle', pidFile', hinv', hverb', -⟩ := hr'.create h
  rw [hcreator, hinv'] at hinv
  cases hinv
  rw [hverb', Verb.create.injEq] at hverb
  exact hverb.1.symm

/-! ## The log of signals -/

/-- A signal in the log was sent by a verb that was allowed to, and reached whoever had the
pid. -/
structure Logged (sys : System) (d : Delivery) : Prop where
  sent : ∃ inv t, sys.invocations[d.sender]? = some inv ∧ t <+: inv.told ∧
    Allowed inv.verb t (.kill d.pid d.sig)
  reached : ∀ r, d.receiver = .proxy r → r.pid = d.pid ∧ sys.Born r
  past : d.time ≤ sys.clock

theorem logged (h : Reaches root guard sys) {d : Delivery} (hd : d ∈ sys.deliveries) :
    sys.Logged d := by
  refine h.invariant (I := fun sys => ∀ d ∈ sys.deliveries, sys.Logged d)
    (fun d hd => by cases hd) ?_ d hd
  intro sys sys' m hsys ih _ hstep d hd
  have hold : d ∈ sys.deliveries → sys'.Logged d := by
    intro hd
    obtain ⟨⟨inv, t, hinv, ht, hallowed⟩, hreached, hpast⟩ := ih d hd
    obtain ⟨inv', hinv', hcont⟩ := step_continues hstep hinv
    refine ⟨⟨inv', t, hinv', ht.trans hcont.told, hcont.verb ▸ hallowed⟩, fun r hr => ?_,
      hpast.trans (step_clock_le hstep)⟩
    exact ⟨(hreached r hr).1, (hreached r hr).2.step hstep⟩
  rcases step_delivery hstep hd with hd | ⟨i, inv, pid, sig, htells, rfl⟩
  · exact hold hd
  · obtain ⟨inv', hinv', hcont⟩ := step_continues hstep htells.running.1
    refine ⟨⟨inv', inv.told, hinv', hcont.told, hcont.verb ▸ (htells.allowed hsys).1⟩,
      fun r hr => ?_, step_clock_le hstep⟩
    obtain ⟨hmem, hpid⟩ := mem_of_receiver hr
    exact ⟨hpid, (born hsys hmem).step hstep⟩

/-! ## Who gets a signal -/

variable {p : Proxy}

/-- The signal was delivered to the proxy, which was `p` by then. -/
def Delivered (sys : System) (r : Resident) (sig : Nat) (p : Proxy) : Prop :=
  ∃ d ∈ sys.deliveries, d.sig = sig ∧ d.receiver = .proxy ⟨d.pid, r.creator, p⟩

/-- A signal that is sent now and reaches a proxy reaches it as it is. -/
theorem receiver_eq (hsys : Reaches root guard sys) (hr : r ∈ sys.proxies) {pid : Nat}
    (hreceiver : sys.receiver pid = .proxy ⟨pid, r.creator, p⟩) : r.pid = pid ∧ r.proxy = p := by
  obtain ⟨hmem, -⟩ := mem_of_receiver hreceiver
  have hpid := Born.pid_eq hsys (born hsys hmem) (born hsys hr) rfl
  rw [← (distinct hsys).eq hmem hr hpid]
  exact ⟨rfl, rfl⟩

/-- Nothing has reached a proxy that is spawned now. -/
theorem not_delivered_of_spawns (hsys : Reaches root guard sys)
    (hstep : sys.step root m = some sys') {i : Nat} {inv : Invocation} {exe : String}
    {args : SpawnArgs} {pid : Nat} (htells : sys.Tells m i inv ⟨.spawn exe args, Except.ok pid⟩)
    (hcreator : r.creator = i) (sig : Nat) (p : Proxy) : ¬ sys'.Delivered r sig p := by
  rintro ⟨d, hd, -, hreceiver⟩
  rcases step_delivery hstep hd with hd | ⟨i', inv', pid', sig', hkill, -⟩
  · obtain ⟨inv', args', hborn⟩ := ((logged hsys hd).reached _ hreceiver).2
    have hinv := hborn.creator
    simp only [hcreator, htells.running.1, Option.some.injEq] at hinv
    subst hinv
    obtain ⟨-, -, -, -, -, hfirst⟩ := (htells.allowed hsys).1
    exact hfirst args' _ hborn.spawned
  · cases (htells.unique hkill).2.2

/-- Signals that go elsewhere change nothing for a proxy. -/
theorem delivered_of_quiet (hsys : Reaches root guard sys) (hstep : sys.step root m = some sys')
    (hr : r ∈ sys.proxies) (hcreator : r'.creator = r.creator)
    (hquiet : ∀ i inv sig, ¬ sys.Tells m i inv ⟨.kill r.pid sig, Except.ok ()⟩) (sig : Nat)
    (p : Proxy) : sys'.Delivered r' sig p ↔ sys.Delivered r sig p := by
  unfold Delivered
  rw [hcreator]
  rcases step_deliveries hstep with hlog | ⟨i, inv, pid, sig', htells, hlog⟩
  · rw [hlog]
  · rw [hlog]
    constructor
    · rintro ⟨d, hd, hsig, hreceiver⟩
      rcases List.mem_append.mp hd with hd | hd
      · exact ⟨d, hd, hsig, hreceiver⟩
      · cases List.mem_singleton.mp hd
        obtain ⟨hpid, -⟩ := receiver_eq hsys hr hreceiver
        exact absurd (hpid ▸ htells) (hquiet _ _ _)
    · rintro ⟨d, hd, hrest⟩
      exact ⟨d, List.mem_append_left _ hd, hrest⟩

/-- A signal that is sent to a proxy reaches it. -/
theorem delivered_of_tells (hsys : Reaches root guard sys) (hstep : sys.step root m = some sys')
    (hr : r ∈ sys.proxies) (hcreator : r'.creator = r.creator) {i : Nat} {inv : Invocation}
    {sig : Nat} (htells : sys.Tells m i inv ⟨.kill r.pid sig, Except.ok ()⟩) (sig' : Nat)
    (p : Proxy) :
    sys'.Delivered r' sig' p ↔ sys.Delivered r sig' p ∨ sig' = sig ∧ p = r.proxy := by
  unfold Delivered
  rw [hcreator, htells.sent hstep]
  constructor
  · rintro ⟨d, hd, hsig, hreceiver⟩
    rcases List.mem_append.mp hd with hd | hd
    · exact .inl ⟨d, hd, hsig, hreceiver⟩
    · cases List.mem_singleton.mp hd
      exact .inr ⟨hsig.symm, (receiver_eq hsys hr hreceiver).2.symm⟩
  · rintro (⟨d, hd, hrest⟩ | ⟨rfl, rfl⟩)
    · exact ⟨d, List.mem_append_left _ hd, hrest⟩
    · exact ⟨_, List.mem_append_right _ (List.mem_singleton_self _), rfl,
        receiver_of_mem (distinct hsys) hr⟩

end System
end Runtt
