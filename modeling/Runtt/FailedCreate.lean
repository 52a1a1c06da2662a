import Runtt.Orphans
import Runtt.StartSignal

/-! # What a `create` that fails leaves behind

`SpawnGuard` kills the proxy, whatever fails behind the spawn.  Nothing takes the state file
back, and there is one call behind the one that writes it: that of the pid file.
-/
namespace Runtt

open Interaction Program SysM

namespace Told
variable {t : Told} {x : Exchange Sys.Reply}

/-- The pid file could not be written. -/
def LostPidFile (t : Told) : Prop :=
  ∃ path pid, ∃ e : Error, ⟨.writePidFile path pid, Except.error e⟩ ∈ t

theorem spawned_append_singleton {args : SpawnArgs} {pid : Nat} :
    Spawned (t ++ [x]) args pid ↔
      t.Spawned args pid ∨ ∃ exe, x = ⟨.spawn exe args, Except.ok pid⟩ := by
  simp only [Spawned, List.mem_append, List.mem_singleton, exists_or, eq_comm]

theorem wrote_append_singleton {st : State} :
    Wrote (t ++ [x]) st ↔ t.Wrote st ∨ x = ⟨.writeState st, Except.ok ()⟩ := by
  simp only [Wrote, List.mem_append, List.mem_singleton, eq_comm]

theorem lostPidFile_append_singleton :
    LostPidFile (t ++ [x]) ↔
      t.LostPidFile ∨ ∃ path pid, ∃ e : Error, x = ⟨.writePidFile path pid, Except.error e⟩ := by
  simp only [LostPidFile, List.mem_append, List.mem_singleton, exists_or, eq_comm]

/-- No state file, and no pid file that failed. -/
structure Unrecorded (t : Told) : Prop where
  wrote : ∀ st, ¬ t.Wrote st
  pidFile : ¬ t.LostPidFile

/-- No proxy either. -/
structure Blank (t : Told) : Prop extends Unrecorded t where
  spawned : ∀ args pid, ¬ t.Spawned args pid

theorem blank_nil : Blank [] where
  spawned := by
    rintro args pid ⟨exe, hmem⟩
    cases hmem
  wrote := by
    intro st hmem
    cases hmem
  pidFile := by
    rintro ⟨path, pid, e, hmem⟩
    cases hmem

/-- A question that does not record the proxy. -/
def Recordless : Sys → Prop
  | .writeState _ | .writePidFile _ _ => False
  | _ => True

/-- Nor spawns it. -/
def Harmless : Sys → Prop
  | .spawn _ _ => False
  | q => Recordless q

theorem Unrecorded.append (h : t.Unrecorded) (hx : Recordless x.question) :
    Unrecorded (t ++ [x]) where
  wrote := by
    intro st hwrote
    rcases wrote_append_singleton.mp hwrote with hwrote | rfl
    · exact h.wrote st hwrote
    · exact hx
  pidFile := by
    intro hlost
    rcases lostPidFile_append_singleton.mp hlost with hlost | ⟨path, pid, e, rfl⟩
    · exact h.pidFile hlost
    · exact hx

theorem recordless_of_harmless {q : Sys} (h : Harmless q) : Recordless q := by
  unfold Harmless at h
  split at h
  · exact h.elim
  · exact h

theorem Blank.append (h : t.Blank) (hx : Harmless x.question) : Blank (t ++ [x]) where
  toUnrecorded := h.toUnrecorded.append (recordless_of_harmless hx)
  spawned := by
    intro args pid hspawned
    rcases spawned_append_singleton.mp hspawned with hspawned | ⟨exe, rfl⟩
    · exact h.spawned args pid hspawned
    · exact hx

/-- What was spawned was killed, and what was written is all that is left: there is a state
exactly when it was the pid file that failed. -/
structure Undone (t : Told) : Prop where
  killed : ∀ args pid, t.Spawned args pid → t.Killed pid
  wrote : (∃ st, t.Wrote st) ↔ t.LostPidFile

theorem Unrecorded.wrote_iff (h : t.Unrecorded) : (∃ st, t.Wrote st) ↔ t.LostPidFile :=
  iff_of_false (fun ⟨st, hwrote⟩ => h.wrote st hwrote) h.pidFile

theorem Blank.undone (h : t.Blank) : t.Undone where
  killed := by
    intro args pid hspawned
    exact absurd hspawned (h.spawned args pid)
  wrote := h.wrote_iff

/-- The guard kills the one proxy there is. -/
theorem undone_of_kill {pid : Nat} {r : Except Error Unit}
    (hspawned : ∀ args pid', t.Spawned args pid' → pid' = pid)
    (hwrote : (∃ st, t.Wrote st) ↔ t.LostPidFile) :
    Undone (t ++ [⟨.kill pid SIGKILL, r⟩]) where
  killed := by
    intro args pid' h
    rcases spawned_append_singleton.mp h with h | ⟨exe, h⟩
    · rw [hspawned args pid' h]
      exact ⟨r, List.mem_append_right _ (List.mem_singleton_self _)⟩
    · cases h
  wrote := by
    simp only [wrote_append_singleton, lostPidFile_append_singleton]
    simpa using hwrote

end Told

/-! ## The undoing of `create` -/

section Undoing
variable {α : Type} {t : Told}

/-- What is left of a `create` undoes what it did if it fails. -/
abbrev Undoes (t : Told) (p : SysM α) (ok : Told → α → Prop) : Prop :=
  Promises (fun _ _ => True) ok (fun t _ => Told.Undone t) t p

/-- Before the spawn there is nothing to undo. -/
theorem undoes_of_harmless {p : SysM α} {A : α → Prop} (ht : t.Blank)
    (h : Promises (fun _ q => Told.Harmless q) (fun _ a => A a) (fun _ _ => True) t p) :
    Undoes t p fun t a => Told.Blank t ∧ A a := by
  have hcarry := Keeps.carry (J := Told.Blank) h ht fun t q r hq ht => ht.append hq
  refine hcarry.mono (fun _ _ _ => trivial) fun t o ho => ?_
  cases o with
  | ok a => exact ⟨ho.2, ho.1⟩
  | error e => exact ho.2.undone

/-- The drop of the guard. -/
theorem guard_undoes {pid : Nat} {e : Error} {ok : Told → Unit → Prop}
    (hspawned : ∀ args pid', t.Spawned args pid' → pid' = pid)
    (hwrote : (∃ st, t.Wrote st) ↔ t.LostPidFile) :
    Undoes t (do
      let _ ← ask (.kill pid SIGKILL)
      throw e) ok :=
  promises_ask_bind trivial fun _ => Told.undone_of_kill hspawned hwrote

/-- Behind the spawn it is the guard that undoes, all but the state. -/
theorem recordCreated_undoes {bundle : String} {pidFile : Option String} {args : SpawnArgs}
    {pid : Nat} (hspawned : ∀ args pid', t.Spawned args pid' → pid' = pid) (ht : t.Unrecorded) :
    Undoes t (rescue (recordCreated bundle pidFile args pid) fun e => do
      let _ ← ask (.kill pid SIGKILL)
      throw e) fun _ _ => True := by
  refine promises_rescue.mpr (promises_bind.mpr (promises_bind.mpr
    (promises_fromExcept (fun _ _ => ?_) fun e _ => ?_)))
  · refine promises_ask_bind trivial fun r => ?_
    cases r with
    | error e =>
      refine guard_undoes ?_ ?_
      · simpa [Told.spawned_append_singleton] using hspawned
      · simpa [Told.wrote_append_singleton, Told.lostPidFile_append_singleton] using ht.wrote_iff
    | ok _ =>
      refine promises_pure.mpr ?_
      cases pidFile with
      | none => exact trivial
      | some path =>
        refine promises_ask_bind trivial fun r => ?_
        cases r with
        | ok _ => exact trivial
        | error e =>
          -- The state is written by now, and stays.
          refine guard_undoes ?_ (iff_of_true ?_ ?_)
          · simpa only [Told.spawned_append_singleton, Exchange.mk.injEq, reduceCtorEq, false_and,
              exists_false, or_false] using hspawned
          · exact ⟨createdState bundle args pid, List.mem_append_left _
              (List.mem_append_right _ (List.mem_singleton_self _))⟩
          · exact ⟨path, pid, e, List.mem_append_right _ (List.mem_singleton_self _)⟩
  · exact guard_undoes hspawned ht.wrote_iff

/-- `create` undoes what it did, all but the state. -/
theorem create_undoes (id bundle : String) (pidFile : Option String) :
    Undoes [] (create id bundle pidFile) fun _ _ => True := by
  refine promises_bind.mpr (promises_fromExcept (fun _ _ => ?_) fun _ _ => Told.blank_nil.undone)
  refine promises_bind.mpr ((undoes_of_harmless (A := fun _ => True) Told.blank_nil
    (promises_createArgs ?_ (fun _ _ _ _ => trivial) fun _ _ => trivial)).mono
    (fun t args ht => ?_) fun _ _ h => h)
  · rintro t q (⟨path, rfl⟩ | ⟨path, rfl⟩)
    · exact trivial
    · exact trivial
  refine promises_bind.mpr ((undoes_of_harmless (A := fun _ => True) ht.1
    (promises_acquire trivial trivial fun _ _ _ => trivial)).mono (fun t lock ht => ?_)
    fun _ _ h => h)
  refine promises_bind.mpr (promises_context (promises_ask_bind trivial fun r => ?_))
  have hexe : Told.Blank (t ++ [⟨.currentExe, r⟩]) := ht.1.append trivial
  cases r with
  | error e => exact hexe.undone
  | ok exe =>
    refine promises_ask_bind trivial fun r => ?_
    have hrecordless : Told.Unrecorded (t ++ [⟨.currentExe, Except.ok exe⟩] ++
        [⟨.spawn exe { args with lock := lock }, r⟩]) := hexe.toUnrecorded.append trivial
    cases r with
    | error e =>
      refine Told.Blank.undone ⟨hrecordless, fun args' pid h => ?_⟩
      rcases Told.spawned_append_singleton.mp h with h | ⟨exe', h⟩
      · exact hexe.spawned args' pid h
      · cases h
    | ok pid =>
      refine recordCreated_undoes (fun args' pid' h => ?_) hrecordless
      rcases Told.spawned_append_singleton.mp h with h | ⟨exe', h⟩
      · exact absurd h (hexe.spawned args' pid')
      · cases h
        rfl

end Undoing

/-- **What a `create` guarantees when it fails.** -/
theorem Verb.keeps_undone (root : String) (v : Verb) :
    Keeps (fun _ _ => True) (fun t o => (∃ bundle pidFile, v = .create v.id bundle pidFile) →
      ∀ e, o = .error e → Told.Undone t) [] (v.program root).run := by
  have hother (h : ∀ bundle pidFile, v ≠ .create v.id bundle pidFile) :
      Keeps (fun _ _ => True) (fun t o => (∃ bundle pidFile, v = .create v.id bundle pidFile) →
        ∀ e, o = .error e → Told.Undone t) [] (v.program root).run := by
    refine (v.keeps root).mono (fun _ _ _ => trivial) fun t o _ hcreate => ?_
    obtain ⟨bundle, pidFile, hcreate⟩ := hcreate
    exact absurd hcreate (h bundle pidFile)
  cases v with
  | create id bundle pidFile =>
    refine Keeps.mono (create_undoes id bundle pidFile) (fun _ _ h => h) fun t o ho _ e he => ?_
    subst he
    exact ho
  | start id => exact hother (by simp)
  | state id => exact hother (by simp)
  | kill id sigText => exact hother (by simp)
  | delete id force => exact hother (by simp)

/-! ## Whom the guard kills -/

theorem Proxy.deliver_sigkill (p : Proxy) : ∃ sig, (p.deliver SIGKILL).stage = .killed sig := by
  unfold Proxy.deliver
  split
  · rename_i sig hkilled
    exact ⟨sig, hkilled⟩
  · split
    · rename_i hhandled
      exact absurd (Stage.mem_handled hhandled) (by decide)
    · exact ⟨SIGKILL, by rw [if_pos (.inl rfl)]⟩

namespace System
variable {sys sys' : System} {root : String} {m : SystemMove} {r : Resident}
  {guard : System → SystemMove → Prop}

/-- A proxy that is killed stays so. -/
theorem Becomes.killed {p : Proxy} {sig : Nat} (h : sys.Becomes m r p)
    (hkilled : r.proxy.stage = .killed sig) : p.stage = .killed sig := by
  cases h with
  | same hquiet => exact hkilled
  | moved hmoved => exact hmoved.killed_iff.mpr hkilled
  | delivered htells =>
    simp only [Proxy.deliver, hkilled]

/-- What a `create` has killed is dead: it has the pid from the spawn on, and nobody else can
have it. -/
theorem killed_of_told (h : Reaches root guard sys) {inv : Invocation} (hr : r ∈ sys.proxies)
    (hinv : sys.invocations[r.creator]? = some inv) (hkill : inv.told.Killed r.pid) :
    ∃ sig, r.proxy.stage = .killed sig := by
  refine h.invariant (I := fun sys => ∀ r ∈ sys.proxies, ∀ inv,
    sys.invocations[r.creator]? = some inv → inv.told.Killed r.pid →
      ∃ sig, r.proxy.stage = .killed sig) (fun r hr => by cases hr) ?_ r hr inv hinv hkill
  intro sys sys' m hsys ih _ hstep r' hr' inv' hinv' hkill
  obtain ⟨res, hkill⟩ := hkill
  rcases step_proxy (distinct hsys) hstep hr' with
    ⟨r, hr, hpid, hcreator, hbecomes⟩ | ⟨i, inv, exe, args, htells, heq⟩
  · rw [hcreator] at hinv'
    rw [hpid] at hkill
    rcases mem_told hstep hinv' hkill with ⟨inv, hinv, -, hkill⟩ | ⟨inv, htells, -, -⟩
    · obtain ⟨sig, hkilled⟩ := ih r hr inv hinv ⟨res, hkill⟩
      exact ⟨sig, hbecomes.killed hkilled⟩
    · cases res with
      | error e =>
        have hours := htells.unsent
        rw [ours_of_mem hr] at hours
        cases hours
      | ok _ =>
        generalize r'.proxy = p' at hbecomes
        cases hbecomes with
        | same hquiet => exact absurd htells (hquiet _ _ _)
        | moved hmoved => exact absurd htells hmoved.not_tells
        | delivered hsent =>
          cases (htells.unique hsent).2.2
          exact r.proxy.deliver_sigkill
  · -- A pid that is spawned now was not killed before.
    have hcreator : r'.creator = i := by rw [heq]
    rw [hcreator] at hinv'
    obtain ⟨next, -, hafter⟩ := htells.after hstep
    rw [hafter] at hinv'
    cases hinv'
    rcases List.mem_append.mp hkill with hkill | hkill
    · have hlawful := lawful hsys htells.running.1
      obtain ⟨⟨bundle, pidFile, hverb⟩, -, -, -, -, hfirst⟩ := (htells.allowed hsys).1
      obtain ⟨t, ht, hallowed⟩ := hlawful.allowed hkill
      rcases hallowed with ⟨-, -, args', exe', hexe⟩ | ⟨st, hread, -⟩
      · exact absurd ⟨exe', ht.subset hexe⟩ (hfirst args' r'.pid)
      · exact absurd (ht.subset hread) (hlawful.not_read_of_create hverb _ st)
    · cases List.mem_singleton.mp hkill

/-! ## Whose the state file is -/

/-- Invocation `i` is the only one there is for the container. -/
def Unrivalled (id : String) (i : Nat) (sys : System) (_ : SystemMove) : Prop :=
  sys.rival i id = false

instance (id : String) (i : Nat) (sys : System) (m : SystemMove) :
    Decidable (Unrivalled id i sys m) := inferInstanceAs (Decidable (_ = false))

/-- Who is told something for the container is that invocation. -/
theorem Tells.unrivalled {id : String} {i j : Nat} {inv : Invocation} {x : Exchange Sys.Reply}
    (h : sys.Tells m j inv x) (hid : inv.verb.id = id) (hunrivalled : Unrivalled id i sys m) :
    j = i := by
  by_contra hne
  have hmem : inv ∈ sys.invocations.eraseIdx i :=
    List.mem_eraseIdx_iff_getElem?.mpr ⟨j, hne, h.running.1⟩
  have hrival : sys.rival i id = true := by
    rw [rival, List.any_eq_true]
    exact ⟨inv, hmem, by simp [h.running.2, hid]⟩
  rw [hunrivalled] at hrival
  cases hrival

variable {id bundle : String} {pidFile : Option String} {i : Nat}

/-- Nothing is left of the `create` that was invocation `i`: no live proxy of its own, and no
state file. -/
def NothingLeft (sys : System) (id : String) (i : Nat) : Prop :=
  (∀ r ∈ sys.proxies, r.creator = i → ∃ sig, r.proxy.stage = .killed sig) ∧ sys.files id = none

/-- The state file of the container is there exactly when the invocation has written it. -/
def OwnsFile (sys : System) (id : String) (inv : Invocation) : Prop :=
  (∃ st, sys.files id = some st) ↔ ∃ st, inv.told.Wrote st

/-- What is done while the `create` has the container to itself. -/
theorem ownsFile_step (hsys : Reaches root Transition.Any sys) {inv inv' : Invocation}
    (hinv : sys.invocations[i]? = some inv) (hverb : inv.verb = .create id bundle pidFile)
    (howns : sys.OwnsFile id inv) (hunrivalled : Unrivalled id i sys m)
    (hstep : sys.step root m = some sys') (hinv' : sys'.invocations[i]? = some inv') :
    sys'.OwnsFile id inv' := by
  have hid : inv.verb.id = id := by rw [hverb]; rfl
  have hcont : inv.Continues inv' := by
    obtain ⟨inv₁, hinv₁, hcont⟩ := step_continues hstep hinv
    rw [hinv'] at hinv₁
    cases hinv₁
    exact hcont
  -- Only this invocation changes the file, and only by writing it.
  have hfiles : sys'.files id = sys.files id ∨
      ∃ st, sys.Tells m i inv ⟨.writeState st, Except.ok ()⟩ ∧ sys'.files id = some st := by
    rcases step_files hstep id with
      hsame | ⟨j, inv₁, st, res, htells, hst, hres, hfile⟩ | ⟨j, inv₁, res, htells, -, -⟩
    · exact .inl hsame
    · have hj := htells.unrivalled ((htells.writes_id hsys).symm.trans hst) hunrivalled
      subst hj
      rcases hres with rfl | hrival
      · rw [htells.running.1] at hinv
        cases hinv
        exact .inr ⟨st, htells, hfile⟩
      · rw [hunrivalled] at hrival
        cases hrival
    · obtain ⟨⟨hremoves, force, hdelete⟩, -⟩ := htells.allowed hsys
      have hj := htells.unrivalled hremoves.symm hunrivalled
      subst hj
      rw [htells.running.1] at hinv
      cases hinv
      rw [hverb] at hdelete
      cases hdelete
  constructor
  · rintro ⟨st, hst⟩
    rcases hfiles with hsame | ⟨st', htells, -⟩
    · obtain ⟨st', hwrote⟩ := howns.mp ⟨st, hsame ▸ hst⟩
      exact ⟨st', hcont.told.subset hwrote⟩
    · obtain ⟨next, -, hafter⟩ := htells.after hstep
      rw [hinv'] at hafter
      cases hafter
      exact ⟨st', List.mem_append_right _ (List.mem_singleton_self _)⟩
  · rintro ⟨st, hwrote⟩
    rcases hfiles with hsame | ⟨st', -, hfile⟩
    · rw [hsame]
      rcases mem_told hstep hinv' hwrote with ⟨inv₁, hinv₁, -, hold⟩ | ⟨inv₁, htells, hverb₁, -⟩
      · rw [hinv] at hinv₁
        cases hinv₁
        exact howns.mpr ⟨st, hold⟩
      · have hst : st.id = id := by
          rw [htells.writes_id hsys, hverb₁, hcont.verb, hid]
        have hfile := htells.wrote hstep
        rw [hst, hsame] at hfile
        exact ⟨st, hfile⟩
    · exact ⟨st', hfile⟩

/-- In a run for as long as it has the container to itself. -/
theorem ownsFile_run {sys₀ sys₁ : System} (h₀ : Reaches root Transition.Any sys₀)
    (hnone : sys₀.files id = none)
    (hinvoke : sys₀.step root (.invoke (.create id bundle pidFile)) = some sys₁)
    (h : Transition.Reaches (step root) (Unrivalled id sys₀.invocations.length) sys₁ sys) :
    Reaches root Transition.Any sys ∧ ∃ inv, sys.invocations[sys₀.invocations.length]? = some inv ∧
      inv.verb = .create id bundle pidFile ∧ sys.OwnsFile id inv := by
  induction h with
  | refl =>
    refine ⟨.step h₀ trivial hinvoke, ?_⟩
    cases hinvoke
    refine ⟨_, List.getElem?_concat_length, rfl, iff_of_false ?_ ?_⟩
    · rintro ⟨st, hst⟩
      rw [show sys₀.files id = some st from hst] at hnone
      cases hnone
    · rintro ⟨st, hwrote⟩
      cases hwrote
  | step _ hunrivalled hstep ih =>
    obtain ⟨hsys, inv, hinv, hverb, howns⟩ := ih
    obtain ⟨inv', hinv', hcont⟩ := step_continues hstep hinv
    exact ⟨.step hsys trivial hstep, inv', hinv', hcont.verb.trans hverb,
      ownsFile_step hsys hinv hverb howns hunrivalled hstep hinv'⟩

/-- A proxy whose `create` has undone what it did is dead. -/
theorem killed_of_undone (hsys : Reaches root guard sys) (hr : r ∈ sys.proxies) {inv : Invocation}
    (hinv : sys.invocations[r.creator]? = some inv) (hundone : inv.told.Undone) :
    ∃ sig, r.proxy.stage = .killed sig := by
  obtain ⟨inv', args, hborn⟩ := born hsys hr
  have hinv' := hborn.creator
  rw [hinv] at hinv'
  cases hinv'
  exact killed_of_told hsys hr hborn.creator (hundone.killed args r.pid hborn.spawned)

/-- **What is left of a `create` that fails**, for a container without a state and while no
other verb runs for it: nothing, exactly when it was not the pid file that could not be written. -/
theorem nothingLeft_iff (root id bundle : String) (pidFile : Option String)
    (sys₀ sys₁ sys : System) (inv : Invocation) (e : Error)
    (h₀ : Reaches root Transition.Any sys₀) (hnone : sys₀.files id = none)
    (hinvoke : sys₀.step root (.invoke (.create id bundle pidFile)) = some sys₁)
    (h : Transition.Reaches (step root) (Unrivalled id sys₀.invocations.length) sys₁ sys)
    (hinv : sys.invocations[sys₀.invocations.length]? = some inv)
    (hfails : inv.rest = .done (.error e)) :
    sys.NothingLeft id sys₀.invocations.length ↔ ¬ inv.told.LostPidFile := by
  obtain ⟨hsys, inv₁, hinv₁, hverb, howns⟩ := ownsFile_run h₀ hnone hinvoke h
  rw [hinv] at hinv₁
  cases hinv₁
  have hundone : inv.told.Undone := by
    have hkeeps := keeps_run (Verb.keeps_undone root) hsys hinv
    rw [hfails] at hkeeps
    exact hkeeps ⟨bundle, pidFile, by rw [hverb]; rfl⟩ e rfl
  have hkilled : ∀ r ∈ sys.proxies, r.creator = sys₀.invocations.length →
      ∃ sig, r.proxy.stage = .killed sig := by
    intro r hr hcreator
    exact killed_of_undone hsys hr (hcreator ▸ hinv) hundone
  have hfile : (∃ st, sys.files id = some st) ↔ inv.told.LostPidFile := howns.trans hundone.wrote
  rw [← hfile, NothingLeft, and_iff_right hkilled, Option.eq_none_iff_forall_ne_some, not_exists]

/-- A `create` up to the spawn. -/
def spawns : List SystemMove :=
  [.answer 0 (.config (.spec (labelled "usb:3-6"))), .answer 0 (.found true), .answer 0 .goes,
    .answer 0 (.exe (.ok "/usr/bin/runtt")), .answer 0 (.spawned 100)]

/-- The state cannot be written. -/
def losesState : List SystemMove :=
  spawns ++ [.advance 100, .answer 0 (.fails ["No space left on device"]), .answer 0 .goes]

/-- The state is written, and the pid file cannot be. -/
def losesPidFile : List SystemMove :=
  spawns ++ [.answer 0 .goes, .answer 0 (.fails ["No such file or directory"]), .answer 0 .goes]

theorem nothingLeft_iff_losesState :
    ∃ sys₁ sys, initial.step "/run/runtt" (.invoke (.create "a" "/b" none)) = some sys₁ ∧
      losesState.foldlM (Transition.guarded (step "/run/runtt") (Unrivalled "a" 0)) sys₁ =
        some sys ∧
      sys.NothingLeft "a" 0 := by
  have hinvoke : (initial.step "/run/runtt" (.invoke (.create "a" "/b" none))).isSome = true := rfl
  have hrun : (losesState.foldlM (Transition.guarded (step "/run/runtt") (Unrivalled "a" 0))
      (Option.get _ hinvoke)).isSome = true := rfl
  refine ⟨_, _, (Option.some_get hinvoke).symm, (Option.some_get hrun).symm, ?_⟩
  refine (nothingLeft_iff "/run/runtt" "a" "/b" none initial _ _ _ _ .refl rfl
    (Option.some_get hinvoke).symm (.run .refl (Option.some_get hrun).symm) rfl rfl).mpr ?_
  rintro ⟨path, pid, e, hmem⟩
  repeat
    rcases List.mem_cons.mp hmem with heq | hmem
    · cases heq
  cases hmem

theorem state_file_left :
    ¬ ∀ (sys₁ sys : System) (inv : Invocation) (e : Error),
      initial.step "/run/runtt" (.invoke (.create "a" "/b" (some "/gone/pid"))) = some sys₁ →
        Transition.Reaches (step "/run/runtt") (Unrivalled "a" 0) sys₁ sys →
          sys.invocations[0]? = some inv → inv.rest = .done (.error e) → sys.NothingLeft "a" 0 := by
  intro h
  have hinvoke : (initial.step "/run/runtt"
      (.invoke (.create "a" "/b" (some "/gone/pid")))).isSome = true := rfl
  have hrun : (losesPidFile.foldlM (Transition.guarded (step "/run/runtt") (Unrivalled "a" 0))
      (Option.get _ hinvoke)).isSome = true := rfl
  obtain ⟨-, hnone⟩ := h _ _ _ _ (Option.some_get hinvoke).symm
    (.run .refl (Option.some_get hrun).symm) rfl rfl
  cases hnone

end System
end Runtt
