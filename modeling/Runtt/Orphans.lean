import Runtt.SystemRuns

/-! # Proxies and the files that record them

A proxy can be reached only through the state file of its container.  Nothing in `create`
looks at that file: what keeps a second `create` from overwriting it is the lock of the
label, so it keeps only one that has the same label.

Here verbs run one after another; proxies and everything else go on beside them.
-/
namespace Runtt

open Interaction Program

namespace Invocation.Lawful
variable {inv : Invocation} {id : String}

/-- A `create` reads no state file. -/
theorem not_read_of_create (h : inv.Lawful) {bundle : String} {pidFile : Option String}
    (hverb : inv.verb = .create id bundle pidFile) (id' : String) (st : State) :
    ¬ inv.told.Read id' st := by
  intro hread
  obtain ⟨t, -, -, hother⟩ := h.allowed hread
  have hid : inv.verb.id = id := by rw [hverb]; rfl
  exact hother bundle pidFile (hid ▸ hverb)

/-- A `create` writes one state: that of the proxy it spawned. -/
theorem wrote_spawned (h : inv.Lawful) {bundle : String} {pidFile : Option String}
    (hverb : inv.verb = .create id bundle pidFile) {st : State} {res : Except Error Unit}
    (hwrote : ⟨.writeState st, res⟩ ∈ inv.told) :
    ∃ args pid, inv.told.Spawned args pid ∧ st = createdState bundle args pid := by
  obtain ⟨t, ht, hallowed⟩ := h.allowed hwrote
  rcases hallowed with
    ⟨bundle', pidFile', args, pid, hverb', ⟨exe, hexe⟩, rfl⟩ | ⟨st₀, status, hread, -⟩
  · rw [hverb] at hverb'
    cases hverb'
    exact ⟨args, pid, ⟨exe, ht.subset hexe⟩, rfl⟩
  · exact absurd (ht.subset hread) (h.not_read_of_create hverb _ st₀)

/-- A removal that succeeded is the end. -/
theorem done_of_removed (h : inv.Lawful) (hremoved : inv.told.Removed id) :
    inv.rest = .done (.ok ()) := by
  have hremoval := h.removal
  cases hrest : inv.rest with
  | done o =>
    rw [hrest] at hremoval
    rw [hremoval id hremoved]
  | ask q next =>
    rw [hrest] at hremoval
    exact absurd ⟨id, _, hremoved⟩ hremoval.1

end Invocation.Lawful

namespace System

/-- The pid in the state file of a container. -/
def recordedPid (sys : System) (id : String) : Option Nat := (sys.files id).bind State.pid

/-- The proxy is in the state file of its container. -/
def Recorded (sys : System) (r : Resident) : Prop :=
  sys.recordedPid r.proxy.containerId = some r.pid

instance (sys : System) (r : Resident) : Decidable (sys.Recorded r) :=
  inferInstanceAs (Decidable (_ = _))

/-- A verb starts when all before it are over. -/
def inTurn (sys : System) : SystemMove → Bool
  | .invoke _ => sys.invocations.all Invocation.exited
  | _ => true

/-- When a `create` asks for the lock of its label, the recorded live proxy of its container,
if there is one, holds that lock; and a removal that fails has not taken the state file from
under a live proxy. -/
def keepsRecord : System → Invocation → Exchange Sys.Reply → Bool
  | sys, inv, ⟨.claim name, _⟩ =>
    sys.proxies.all fun r => r.proxy.locks.contains name ||
      !(r.proxy.containerId == inv.verb.id && decide (sys.Recorded r))
  | sys, _, ⟨.removeState id, .failed _ true⟩ =>
    sys.proxies.all fun r => !(r.proxy.containerId == id && decide (sys.Recorded r))
  | _, _, _ => true

/-- One verb at a time. -/
def InTurn (sys : System) (m : SystemMove) : Prop := sys.inTurn m = true

/-- One verb at a time, and a container keeps the label of its live proxy. -/
def KeepsLabels (sys : System) (m : SystemMove) : Prop :=
  sys.inTurn m = true ∧ sys.checks keepsRecord m = true

instance (sys : System) (m : SystemMove) : Decidable (sys.InTurn m) :=
  inferInstanceAs (Decidable (_ = true))

instance (sys : System) (m : SystemMove) : Decidable (sys.KeepsLabels m) :=
  inferInstanceAs (Decidable (_ ∧ _))

/-- The invocation succeeded. -/
def Succeeded (sys : System) (i : Nat) : Prop :=
  ∃ inv, sys.invocations[i]? = some inv ∧ inv.rest = .done (.ok ())

/-- A `delete` of the container succeeded since the proxy was created. -/
def DeletedSince (sys : System) (r : Resident) : Prop :=
  ∃ (j : Nat) (inv : Invocation) (force : Bool), r.creator < j ∧ sys.invocations[j]? = some inv ∧
    inv.verb = .delete r.proxy.containerId force ∧ inv.rest = .done (.ok ())

/-- **No orphans**: a live proxy whose `create` succeeded is recorded until its container is
deleted. -/
def NoOrphans (sys : System) : Prop :=
  ∀ r ∈ sys.proxies, sys.Succeeded r.creator → ¬ sys.DeletedSince r → sys.Recorded r

/-- A `create` for a container with a recorded live proxy does not succeed, and writes nothing. -/
def RefusesSecond (sys : System) : Prop :=
  ∀ r ∈ sys.proxies, sys.Recorded r → ∀ (i : Nat) (inv : Invocation) (bundle : String)
    (pidFile : Option String), r.creator < i → sys.invocations[i]? = some inv →
      inv.verb = .create r.proxy.containerId bundle pidFile →
        inv.rest ≠ .done (.ok ()) ∧ ∀ st res, ⟨.writeState st, res⟩ ∉ inv.told

/-! ## What a verb knows while no other runs -/

/-- What holds while verbs run one at a time. -/
structure Tidy (sys : System) : Prop where
  /-- Only the last invocation can still be running. -/
  last : ∀ (i : Nat) (inv : Invocation), sys.invocations[i]? = some inv → inv.exited = false →
    i + 1 = sys.invocations.length
  /-- What was read is still recorded. -/
  read : ∀ (i : Nat) (inv : Invocation) (st : State), sys.invocations[i]? = some inv →
    inv.exited = false → inv.told.Read inv.verb.id st → ¬ inv.told.Removing →
      sys.recordedPid inv.verb.id = st.pid
  /-- What was written by a `create` is still recorded. -/
  wrote : ∀ (i : Nat) (inv : Invocation) (bundle : String) (pidFile : Option String) (st : State),
    sys.invocations[i]? = some inv → inv.exited = false →
      inv.verb = .create inv.verb.id bundle pidFile → inv.told.Wrote st →
        sys.recordedPid st.id = st.pid
  /-- A pid that was spawned is not that of an older proxy. -/
  spawned : ∀ (i : Nat) (inv : Invocation) (args : SpawnArgs) (pid : Nat),
    sys.invocations[i]? = some inv → inv.exited = false → inv.told.Spawned args pid →
      ∀ r ∈ sys.proxies, r.pid = pid → r.creator = i
  /-- Who got the lock of a label found no live proxy recorded. -/
  claimed : ∀ (i : Nat) (inv : Invocation) (name : String), sys.invocations[i]? = some inv →
    inv.told.Claimed name → ∀ r ∈ sys.proxies, r.proxy.containerId = inv.verb.id →
      r.creator < i → ¬ sys.Recorded r

variable {sys sys' : System} {root : String} {m : SystemMove} {r r' : Resident} {id : String}
  {guard : System → SystemMove → Prop} {i j : Nat} {inv inv' : Invocation}
  {x : Exchange Sys.Reply}

/-- A verb that is answered is the last one. -/
theorem Tidy.last_of_tells (ht : sys.Tidy) (h : sys.Tells m i inv x) :
    i + 1 = sys.invocations.length :=
  ht.last i inv h.running.1 h.running.2

theorem Tidy.eq_of_live (ht : sys.Tidy) (h : sys.Tells m i inv x)
    (hinv' : sys.invocations[j]? = some inv') (hlive : inv'.exited = false) :
    j = i ∧ inv' = inv := by
  have hj := ht.last j inv' hinv' hlive
  have hi := ht.last_of_tells h
  have hij : j = i := Nat.succ.inj (hj.trans hi.symm)
  subst hij
  rw [h.running.1] at hinv'
  cases hinv'
  exact ⟨rfl, rfl⟩

/-- An invocation that is running after a step was running before it, and was told `x` or
nothing; or it has only been invoked. -/
theorem live_before (hstep : sys.step root m = some sys') (hinv' : sys'.invocations[i]? = some inv')
    (hlive : inv'.exited = false) :
    inv'.told = [] ∨ ∃ inv, sys.invocations[i]? = some inv ∧ inv.exited = false ∧
      inv'.verb = inv.verb ∧ (inv'.told = inv.told ∧ (∀ x, ¬ sys.Tells m i inv x) ∨
        ∃ x, sys.Tells m i inv x ∧ inv'.told = inv.told ++ [x]) := by
  cases step_invocation hstep hinv' with
  | invoked hm hi => exact .inl rfl
  | exited hinv hm => cases hlive
  | @told inv x next htells hrest =>
    exact .inr ⟨inv, htells.running.1, htells.running.2, rfl, .inr ⟨x, htells, rfl⟩⟩
  | same hinv =>
    refine .inr ⟨inv', hinv, hlive, rfl, .inl ⟨rfl, fun x htells => ?_⟩⟩
    obtain ⟨next, -, hafter⟩ := htells.after hstep
    rw [hinv'] at hafter
    have hlength := congrArg (fun inv => inv.told.length) (Option.some.inj hafter)
    simp at hlength

theorem last_step (ht : sys.Tidy) (hturn : sys.inTurn m = true)
    (hstep : sys.step root m = some sys') (hinv' : sys'.invocations[i]? = some inv')
    (hlive : inv'.exited = false) : i + 1 = sys'.invocations.length := by
  have hold : ∀ inv, sys.invocations[i]? = some inv → inv.exited = false →
      i + 1 = sys'.invocations.length := by
    intro inv hinv hlive
    rcases step_length hstep with heq | ⟨v, rfl, -⟩
    · rw [heq]
      exact ht.last i inv hinv hlive
    · have hexited := List.all_eq_true.mp hturn inv (List.mem_of_getElem? hinv)
      rw [hlive] at hexited
      cases hexited
  cases step_invocation hstep hinv' with
  | same hinv => exact hold inv' hinv hlive
  | invoked hm hi =>
    subst hm
    rcases step_length hstep with heq | ⟨v, -, heq⟩
    · have hi' := (List.getElem?_eq_some_iff.mp hinv').1
      omega
    · rw [heq, hi]
  | told htells hrest => exact hold _ htells.running.1 htells.running.2
  | exited hinv hm => cases hlive

/-- A verb that writes a state file keeps the pid that is in it, unless it is a `create`, which
records the proxy it spawned. -/
theorem Tidy.step_recordedPid (ht : sys.Tidy) (hsys : Reaches root guard sys)
    (hstep : sys.step root m = some sys') (id : String) :
    sys'.recordedPid id = sys.recordedPid id ∨
      (∃ i inv bundle pidFile args pid res,
        sys.Tells m i inv ⟨.writeState (createdState bundle args pid), res⟩ ∧
          inv.verb = .create id bundle pidFile ∧ inv.told.Spawned args pid ∧
            sys'.recordedPid id = some pid) ∨
      ∃ i inv res, sys.Tells m i inv ⟨.removeState id, res⟩ ∧
        (res = .removed ∨ ∃ e, res = .failed e true) ∧ sys'.recordedPid id = none := by
  unfold recordedPid
  rcases step_files hstep id with
    heq | ⟨i, inv, st, res, htells, hid, -, heq⟩ | ⟨i, inv, res, htells, hres, heq⟩
  · exact .inl (by rw [heq])
  · rw [heq]
    obtain ⟨hallowed, hremoving⟩ := htells.allowed hsys
    have hverbId : inv.verb.id = id := (htells.writes_id hsys).symm.trans hid
    rcases hallowed with
      ⟨bundle, pidFile, args, pid, hverb, hspawned, rfl⟩ | ⟨st₀, status, hread, rfl⟩
    · rw [hverbId] at hverb
      exact .inr (.inl ⟨i, inv, bundle, pidFile, args, pid, res, htells, hverb, hspawned, rfl⟩)
    · have hpid := ht.read i inv st₀ htells.running.1 htells.running.2 hread hremoving
      rw [hverbId] at hpid
      exact .inl hpid.symm
  · exact .inr (.inr ⟨i, inv, res, htells, hres, by rw [heq]; rfl⟩)

theorem read_step (ht : sys.Tidy) (hsys : Reaches root guard sys)
    (hstep : sys.step root m = some sys') {st : State}
    (hinv' : sys'.invocations[i]? = some inv') (hlive : inv'.exited = false)
    (hread : inv'.told.Read inv'.verb.id st) (hremoving : ¬ inv'.told.Removing) :
    sys'.recordedPid inv'.verb.id = st.pid := by
  have hsys' : Reaches root Transition.Any sys' := .step hsys.any trivial hstep
  rcases live_before hstep hinv' hlive with hnil | ⟨inv, hinv, hlive₀, hverb, htold⟩
  · rw [hnil] at hread
    cases hread
  · have hold : sys.recordedPid inv'.verb.id = st.pid := by
      rcases mem_told hstep hinv' hread with ⟨inv₁, hinv₁, -, hx⟩ | ⟨inv₁, htells, -, -⟩
      · rw [hinv] at hinv₁
        cases hinv₁
        rw [hverb] at hx ⊢
        refine ht.read i inv st hinv hlive₀ hx fun ⟨id, res, hmem⟩ => hremoving ⟨id, res, ?_⟩
        rcases htold with ⟨heq, -⟩ | ⟨x, -, heq⟩
        · exact heq ▸ hmem
        · exact heq ▸ List.mem_append_left _ hmem
      · rw [recordedPid, htells.read]
        rfl
    rcases ht.step_recordedPid hsys hstep inv'.verb.id with
      heq | ⟨j, inv₁, bundle, pidFile, args, pid, res, htells, hcreate, -⟩ |
        ⟨j, inv₁, res, htells, -⟩
    · rw [heq, hold]
    · obtain ⟨rfl, rfl⟩ := ht.eq_of_live htells hinv hlive₀
      exact absurd hread ((lawful hsys' hinv').not_read_of_create (hverb.trans hcreate) _ st)
    · obtain ⟨rfl, rfl⟩ := ht.eq_of_live htells hinv hlive₀
      refine absurd ⟨inv'.verb.id, res, ?_⟩ hremoving
      rcases htold with ⟨-, hquiet⟩ | ⟨x, htells', heq⟩
      · exact absurd htells (hquiet _)
      · rw [heq, (htells.unique htells').2.2]
        exact List.mem_append_right _ (List.mem_singleton_self _)

theorem wrote_step (ht : sys.Tidy) (hsys : Reaches root guard sys)
    (hstep : sys.step root m = some sys') {bundle : String} {pidFile : Option String} {st : State}
    (hinv' : sys'.invocations[i]? = some inv') (hlive : inv'.exited = false)
    (hverb' : inv'.verb = .create inv'.verb.id bundle pidFile) (hwrote : inv'.told.Wrote st) :
    sys'.recordedPid st.id = st.pid := by
  have hsys' : Reaches root Transition.Any sys' := .step hsys.any trivial hstep
  have hlawful' := lawful hsys' hinv'
  rcases live_before hstep hinv' hlive with hnil | ⟨inv, hinv, hlive₀, hverb, -⟩
  · rw [hnil] at hwrote
    cases hwrote
  · rcases mem_told hstep hinv' hwrote with ⟨inv₁, hinv₁, -, hx⟩ | ⟨inv₁, htells, -, -⟩
    · rw [hinv] at hinv₁
      cases hinv₁
      have hold : sys.recordedPid st.id = st.pid := by
        refine ht.wrote i inv bundle pidFile st hinv hlive₀ ?_ hx
        rw [← hverb]
        exact hverb'
      rcases ht.step_recordedPid hsys hstep st.id with
        heq | ⟨j, inv₁, bundle', pidFile', args, pid, res, htells, -, ⟨exe, hexe⟩, heq⟩ |
          ⟨j, inv₁, res, htells, -⟩
      · rw [heq, hold]
      · obtain ⟨rfl, rfl⟩ := ht.eq_of_live htells hinv hlive₀
        -- It is the state that was written already.
        obtain ⟨args', pid', ⟨exe', hexe'⟩, rfl⟩ := hlawful'.wrote_spawned hverb' hwrote
        obtain ⟨inv₂, hinv₂, hcont⟩ := step_continues hstep hinv
        rw [hinv'] at hinv₂
        cases hinv₂
        rw [heq, (hlawful'.spawned_once (hcont.told.subset hexe) hexe').2]
        rfl
      · obtain ⟨rfl, rfl⟩ := ht.eq_of_live htells hinv hlive₀
        obtain ⟨⟨-, force, hdelete⟩, -⟩ := htells.allowed hsys
        rw [← hverb, hverb'] at hdelete
        cases hdelete
    · rw [recordedPid, htells.wrote hstep]
      rfl

theorem spawned_step (ht : sys.Tidy) (hsys : Reaches root guard sys)
    (hstep : sys.step root m = some sys') {args : SpawnArgs} {pid : Nat}
    (hinv' : sys'.invocations[i]? = some inv') (hlive : inv'.exited = false)
    (hspawned : inv'.told.Spawned args pid) (hr' : r' ∈ sys'.proxies) (hpid : r'.pid = pid) :
    r'.creator = i := by
  obtain ⟨exe, hexe⟩ := hspawned
  rcases live_before hstep hinv' hlive with hnil | ⟨inv, hinv, hlive₀, -⟩
  · rw [hnil] at hexe
    cases hexe
  · rcases step_proxy (distinct hsys) hstep hr' with
      ⟨r, hr, hsame, hcreator, -⟩ | ⟨j, inv₁, exe', args', htells, heq⟩
    · rw [hcreator]
      rcases mem_told hstep hinv' hexe with ⟨inv₁, hinv₁, -, hx⟩ | ⟨inv₁, htells, -, -⟩
      · rw [hinv] at hinv₁
        cases hinv₁
        exact ht.spawned i inv args pid hinv hlive₀ ⟨exe, hx⟩ r hr (hsame ▸ hpid)
      · rw [← hpid, hsame] at htells
        exact absurd rfl (ne_pid_of_not_ours (ours_of_not_taken htells.spawned.2) hr)
    · obtain ⟨rfl, rfl⟩ := ht.eq_of_live htells hinv hlive₀
      rw [heq]

/-- Who gets the lock of a label finds no live proxy of its container recorded. -/
theorem not_recorded_of_claims {name : String}
    (h : sys.Tells m i inv ⟨.claim name, Claim.claimed⟩) (hrec : sys.checks keepsRecord m = true)
    (hr : r ∈ sys.proxies) (hid : r.proxy.containerId = inv.verb.id) : ¬ sys.Recorded r := by
  intro hrecorded
  have hkeeps := List.all_eq_true.mp (h.checked hrec) r hr
  have hlock : r.proxy.locks.contains name = true := by simpa [hid, hrecorded] using hkeeps
  have hlocked : sys.locked name = true := by
    rw [locked, Bool.or_eq_true]
    exact .inl (List.any_eq_true.mpr ⟨r, hr, hlock⟩)
  rw [h.claimed] at hlocked
  cases hlocked

theorem Tells.length (h : sys.Tells m i inv x) (hstep : sys.step root m = some sys') :
    sys'.invocations.length = sys.invocations.length := by
  rcases step_length hstep with heq | ⟨v, rfl, -⟩
  · exact heq
  · exact absurd h (not_tells (by simp))

theorem claimed_step (ht : sys.Tidy) (hsys : Reaches root guard sys)
    (hrec : sys.checks keepsRecord m = true) (hstep : sys.step root m = some sys') {name : String}
    (hinv' : sys'.invocations[i]? = some inv') (hclaimed : inv'.told.Claimed name)
    (hr' : r' ∈ sys'.proxies) (hid : r'.proxy.containerId = inv'.verb.id)
    (holder : r'.creator < i) : ¬ sys'.Recorded r' := by
  have hi := (List.getElem?_eq_some_iff.mp hinv').1
  -- The verb that acts now is no older than `i`.
  have hlatest : ∀ {j inv x}, sys.Tells m j inv x → i ≤ j := by
    intro j inv x htells
    have hj := ht.last_of_tells htells
    have hlength := htells.length hstep
    omega
  rcases step_proxy (distinct hsys) hstep hr' with
    ⟨r, hr, hpid, hcreator, hbecomes⟩ | ⟨j, inv₁, exe, args, htells, heq⟩
  · have hcontainer := hbecomes.continues.containerId
    unfold Recorded
    rw [hcontainer, hpid]
    rw [hcontainer] at hid
    rw [hcreator] at holder
    have hold : ¬ sys.Recorded r := by
      rcases mem_told hstep hinv' hclaimed with ⟨inv, hinv, hverb, hx⟩ | ⟨inv, htells, hverb, -⟩
      · exact ht.claimed i inv name hinv hx r hr (hverb ▸ hid) holder
      · exact not_recorded_of_claims htells hrec hr (hverb ▸ hid)
    rcases ht.step_recordedPid hsys hstep r.proxy.containerId with
      heq | ⟨j, inv₁, bundle, pidFile, args, pid, res, htells, -, hspawned, heq⟩ |
        ⟨j, inv₁, res, htells, -, heq⟩
    · rw [heq]
      exact hold
    · rw [heq]
      intro hsame
      have hown := ht.spawned j inv₁ args pid htells.running.1 htells.running.2 hspawned r hr
        (Option.some.inj hsame).symm
      have hle := hlatest htells
      omega
    · rw [heq]
      exact fun hnone => by cases hnone
  · have hown : r'.creator = j := by rw [heq]
    have hle := hlatest htells
    omega

/-- What a `create` that has just succeeded recorded is its proxy. -/
theorem Tidy.recorded_of_created (ht : sys.Tidy) (hsys : Reaches root guard sys)
    (hr : r ∈ sys.proxies) (hinv : sys.invocations[r.creator]? = some inv)
    (hlive : inv.exited = false) (hok : inv.rest = .done (.ok ())) : sys.Recorded r := by
  obtain ⟨inv₁, bundle, pidFile, hinv₁, hverb, -, ⟨args, exe, hexe⟩, -⟩ :=
    (born hsys hr).create hsys
  rw [hinv] at hinv₁
  cases hinv₁
  have hlawful := lawful hsys hinv
  have hended := hlawful.keeps
  rw [hok, hverb] at hended
  obtain ⟨args', pid, hid, ⟨exe', hexe'⟩, hwrote⟩ := hended
  have hverb' : inv.verb = .create inv.verb.id bundle pidFile := by
    rw [hverb]
    rfl
  have hrecorded := ht.wrote _ inv bundle pidFile _ hinv hlive hverb' hwrote
  rw [Recorded, ← hid, (hlawful.spawned_once hexe hexe').2]
  exact hrecorded

/-- The verb that acts now came after one that succeeded. -/
theorem Tidy.lt_of_succeeded (ht : sys.Tidy) (hsucceeded : sys.Succeeded i)
    (htells : sys.Tells m j inv x) : i < j := by
  obtain ⟨creator, hcreator, hok⟩ := hsucceeded
  have hlt := (List.getElem?_eq_some_iff.mp hcreator).1
  have hj := ht.last_of_tells htells
  have hne : i ≠ j := by
    rintro rfl
    rw [htells.running.1] at hcreator
    cases hcreator
    obtain ⟨_, next, _, _, _, _, hrest, _⟩ := tells_iff.mp htells
    rw [hrest] at hok
    cases hok
  omega

/-- A verb that is over ended before this step. -/
theorem succeeded_before (hstep : sys.step root m = some sys')
    (hinv' : sys'.invocations[i]? = some inv') (hexited : inv'.exited = true)
    (hok : inv'.rest = .done (.ok ())) : sys.Succeeded i := by
  cases step_invocation hstep hinv' with
  | same hinv => exact ⟨_, hinv, hok⟩
  | invoked hm hi => cases hexited
  | told htells hrest => cases hexited
  | exited hinv hm => exact ⟨_, hinv, hok⟩

theorem DeletedSince.step (hdeleted : sys.DeletedSince r) (hstep : sys.step root m = some sys')
    (hcreator : r'.creator = r.creator)
    (hcontainer : r'.proxy.containerId = r.proxy.containerId) : sys'.DeletedSince r' := by
  obtain ⟨j, inv, force, hj, hinv, hverb, hok⟩ := hdeleted
  obtain ⟨inv', hinv', hcont⟩ := step_continues hstep hinv
  exact ⟨j, inv', force, hcreator ▸ hj, hinv', hcont.verb.trans (hcontainer ▸ hverb),
    (hcont.done _ hok).1⟩

/-- A recorded live proxy whose `create` is over stays recorded, unless its container is
deleted. -/
theorem recorded_step (ht : sys.Tidy) (hsys : Reaches root guard sys)
    (hrec : sys.checks keepsRecord m = true) (hstep : sys.step root m = some sys')
    (hr : r ∈ sys.proxies) (hsucceeded : sys.Succeeded r.creator) (hrecorded : sys.Recorded r)
    (hkept : ¬ sys'.DeletedSince r) : sys'.Recorded r := by
  have hsys' : Reaches root Transition.Any sys' := .step hsys.any trivial hstep
  unfold Recorded at hrecorded ⊢
  rcases ht.step_recordedPid hsys hstep r.proxy.containerId with
    heq | ⟨j, inv, bundle, pidFile, args, pid, res, htells, hverb, ⟨exe, hexe⟩, -⟩ |
      ⟨j, inv, res, htells, hres, -⟩
  · rw [heq, hrecorded]
  · -- Another `create` for the container would have found the lock taken.
    obtain ⟨t, hpre, -, -, -, -, hclaimed, -⟩ := (lawful hsys htells.running.1).allowed hexe
    have hid : r.proxy.containerId = inv.verb.id := by
      rw [hverb]
      rfl
    exact absurd hrecorded (ht.claimed j inv _ htells.running.1 (hpre.subset hclaimed) r hr hid
      (ht.lt_of_succeeded hsucceeded htells))
  · rcases hres with rfl | ⟨e, rfl⟩
    · obtain ⟨next, hrest, hafter⟩ := htells.after hstep
      obtain ⟨⟨hid, force, hverb⟩, -⟩ := htells.allowed hsys
      have hdone := (lawful hsys' hafter).done_of_removed
        (List.mem_append_right _ (List.mem_singleton_self _))
      refine absurd ⟨j, _, force, ht.lt_of_succeeded hsucceeded htells, hafter, ?_, hdone⟩ hkept
      rw [hid]
      exact hverb
    · have hfree := List.all_eq_true.mp (htells.checked hrec) r hr
      simp [Recorded, hrecorded] at hfree

theorem noOrphans_step (ht : sys.Tidy) (horphans : sys.NoOrphans) (hsys : Reaches root guard sys)
    (hrec : sys.checks keepsRecord m = true) (hstep : sys.step root m = some sys')
    (ht' : sys'.Tidy) : sys'.NoOrphans := by
  intro r' hr' ⟨creator', hcreator', hok'⟩ hkept'
  have hsys' : Reaches root Transition.Any sys' := .step hsys.any trivial hstep
  by_cases hexited : creator'.exited = true
  · have hsucceeded := succeeded_before hstep hcreator' hexited hok'
    rcases step_proxy (distinct hsys) hstep hr' with
      ⟨r, hr, hpid, hcreator, hbecomes⟩ | ⟨j, inv₁, exe, args, htells, heq⟩
    · have hcontainer := hbecomes.continues.containerId
      rw [hcreator] at hsucceeded
      have hkept : ¬ sys.DeletedSince r := fun hdeleted =>
        hkept' (hdeleted.step hstep hcreator hcontainer)
      have hrecorded : sys'.Recorded r := by
        refine recorded_step ht hsys hrec hstep hr hsucceeded (horphans r hr hsucceeded hkept) ?_
        rintro ⟨j, inv, force, hj, hinv, hverb, hok⟩
        exact hkept' ⟨j, inv, force, hcreator ▸ hj, hinv, hcontainer ▸ hverb, hok⟩
      unfold Recorded at hrecorded ⊢
      rw [hcontainer, hpid]
      exact hrecorded
    · have hown : r'.creator = j := by rw [heq]
      have hlater := ht.lt_of_succeeded hsucceeded htells
      omega
  · -- A `create` that has just succeeded.
    exact ht'.recorded_of_created hsys' hr' hcreator' (Bool.eq_false_iff.mpr hexited) hok'

theorem tidy_step (ht : sys.Tidy) (hsys : Reaches root guard sys) (hkeeps : sys.KeepsLabels m)
    (hstep : sys.step root m = some sys') : sys'.Tidy where
  last _ _ hinv' hlive := last_step ht hkeeps.1 hstep hinv' hlive
  read _ _ _ hinv' hlive hread hremoving := read_step ht hsys hstep hinv' hlive hread hremoving
  wrote _ _ _ _ _ hinv' hlive hverb hwrote := wrote_step ht hsys hstep hinv' hlive hverb hwrote
  spawned _ _ _ _ hinv' hlive hspawned _ hr' hpid :=
    spawned_step ht hsys hstep hinv' hlive hspawned hr' hpid
  claimed _ _ _ hinv' hclaimed _ hr' hid holder :=
    claimed_step ht hsys hkeeps.2 hstep hinv' hclaimed hr' hid holder

theorem tidy_initial : initial.Tidy where
  last _ _ hinv := by cases hinv
  read _ _ _ hinv := by cases hinv
  wrote _ _ _ _ _ hinv := by cases hinv
  spawned _ _ _ _ hinv := by cases hinv
  claimed _ _ _ hinv := by cases hinv

theorem tidy (h : Reaches root KeepsLabels sys) : sys.Tidy :=
  h.invariant tidy_initial fun hsys ht hkeeps hstep => tidy_step ht hsys hkeeps hstep

theorem noOrphans (h : Reaches root KeepsLabels sys) : sys.NoOrphans := by
  refine h.invariant (I := NoOrphans) (fun r hr => by cases hr) ?_
  intro sys sys' m hsys horphans hkeeps hstep
  exact noOrphans_step (tidy hsys) horphans hsys hkeeps.2 hstep
    (tidy_step (tidy hsys) hsys hkeeps hstep)

theorem refusesSecond (h : Reaches root KeepsLabels sys) : sys.RefusesSecond := by
  intro r hr hrecorded i inv bundle pidFile hcreator hinv hverb
  have hlawful := lawful h hinv
  have hunspawned : ∀ args pid, ¬ inv.told.Spawned args pid := by
    rintro args pid ⟨exe, hexe⟩
    obtain ⟨t, hpre, -, -, -, -, hclaimed, -⟩ := hlawful.allowed hexe
    refine (tidy h).claimed i inv _ hinv (hpre.subset hclaimed) r hr ?_ hcreator hrecorded
    rw [hverb]
    rfl
  constructor
  · intro hok
    have hended := hlawful.keeps
    rw [hok, hverb] at hended
    obtain ⟨args, pid, -, hspawned, -⟩ := hended
    exact hunspawned args pid hspawned
  · intro st res hwrote
    obtain ⟨args, pid, hspawned, -⟩ := hlawful.wrote_spawned hverb hwrote
    exact hunspawned args pid hspawned

/-- **No orphaned proxy, as long as a container keeps its label**: in every run of verbs one
after another in which no `create` runs under another label for a container whose recorded
proxy is alive, and no failed removal takes the state file of a live proxy, every live proxy
whose `create` succeeded is recorded until its container is deleted, and a `create` for a
container with a recorded live proxy fails and writes nothing. -/
theorem no_orphans (root : String) (sys : System) (h : Reaches root KeepsLabels sys) :
    sys.NoOrphans ∧ sys.RefusesSecond :=
  ⟨noOrphans h, refusesSecond h⟩

/-- A container is created twice, with these labels. -/
def createdTwice (target target' : String) : List SystemMove :=
  .invoke (.create "a" "/b" none) :: creates 0 (labelled target) 100 ++
    .invoke (.create "a" "/b" none) :: creates 1 (labelled target') 200

theorem no_orphans_example :
    ∃ sys, after "/run/runtt" KeepsLabels (.invoke (.create "a" "/b" none) ::
        creates 0 (labelled "usb:3-6") 100 ++ [.invoke (.create "a" "/b" none),
          .answer 1 (.config (.spec (labelled "usb:3-6"))), .answer 1 (.found true),
          .answer 1 .goes]) = some sys ∧
      sys.proxies.map Resident.pid = [100] ∧ sys.NoOrphans ∧ sys.RefusesSecond := by
  have hrun : (after "/run/runtt" KeepsLabels (.invoke (.create "a" "/b" none) ::
    creates 0 (labelled "usb:3-6") 100 ++ [.invoke (.create "a" "/b" none),
      .answer 1 (.config (.spec (labelled "usb:3-6"))), .answer 1 (.found true),
      .answer 1 .goes])).isSome = true := rfl
  exact ⟨_, (Option.some_get hrun).symm, rfl, no_orphans "/run/runtt" _ (reaches_after hrun)⟩

/-- Under another label the second `create` succeeds, and the first proxy is in no file. -/
theorem orphaned :
    ¬ ∀ sys, Reaches "/run/runtt" InTurn sys → sys.NoOrphans := by
  intro h
  have hrun : (after "/run/runtt" InTurn (createdTwice "usb:3-6" "usb:3-7")).isSome = true := rfl
  have hrecorded := h _ (reaches_after hrun) _ (List.mem_cons_of_mem _ (List.mem_singleton_self _))
    ⟨_, rfl, rfl⟩ ?_
  · have hpid : some 200 = some 100 := hrecorded
    cases hpid
  · rintro ⟨j, inv, force, -, hinv, hdelete, -⟩
    have hverbs : ((after "/run/runtt" InTurn
        (createdTwice "usb:3-6" "usb:3-7")).get hrun).invocations.map Invocation.verb =
        [.create "a" "/b" none, .create "a" "/b" none] := rfl
    have hmem := List.mem_map_of_mem (f := Invocation.verb) (List.mem_of_getElem? hinv)
    rw [hverbs, hdelete] at hmem
    simp at hmem

end System
end Runtt
