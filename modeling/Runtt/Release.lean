import Runtt.SystemRuns

/-! # What a successful `delete` leaves behind

`delete` kills the process in the state file and waits for it, for five seconds.  It does
not look at what the wait returns, and where it cannot read the state file `--force` makes
that a success.  So it releases the device when the state file tells the truth and the
proxy dies in time, and not otherwise.
-/
namespace Runtt

open Interaction Program

/-- A `delete` of the container. -/
def Verb.deletes (id : String) : Verb → Bool
  | .delete id' _ => id' == id
  | _ => false

/-- The signal reached the proxy. -/
def Delivery.reaches (d : Delivery) (r : Resident) : Bool :=
  match d.receiver with
  | .proxy r₀ => r₀.creator == r.creator
  | _ => false

/-- The read shows the pid, or shows a failure that `delete` passes on. -/
def readShows (force : Bool) (pid : Nat) : Except String State → Bool
  | .ok st => st.pid == some pid
  | .error _ => !force

namespace System

/-- The signal is the `SIGKILL` of a `delete` of the proxy's container, and it reached the
proxy. -/
def KilledFor (sys : System) (d : Delivery) (r : Resident) : Prop :=
  d.sig = SIGKILL ∧ d.reaches r = true ∧
    (sys.invocations[d.sender]?.any fun inv => inv.verb.deletes r.proxy.containerId) = true

instance (sys : System) (d : Delivery) (r : Resident) : Decidable (sys.KilledFor d r) :=
  inferInstanceAs (Decidable (_ ∧ _))

/-- What `delete` reads is the pid of every live proxy of the container, and no proxy is spawned
for a container that is being deleted. -/
def tellsAll : System → Invocation → Exchange Sys.Reply → Bool
  | sys, ⟨.delete id force, _, _, _, _⟩, ⟨.readState _, res⟩ =>
    sys.proxies.all fun r => r.proxy.containerId != id || readShows force r.pid res
  | sys, _, ⟨.spawn _ args, .ok _⟩ =>
    sys.invocations.all fun inv => inv.exited || !inv.verb.deletes args.containerId
  | _, _, _ => true

/-- A proxy that `delete` killed is gone within five seconds. -/
def diesInTime (sys : System) : SystemMove → Bool
  | .tick ms => decide (∀ d ∈ sys.deliveries, ∀ r ∈ sys.proxies, sys.KilledFor d r →
      sys.clock + ms < d.time + 5000)
  | _ => true

/-- The state file tells the truth, and the proxy dies in time. -/
def Releasable (sys : System) (m : SystemMove) : Prop :=
  sys.checks tellsAll m = true ∧ sys.diesInTime m = true

instance (sys : System) (m : SystemMove) : Decidable (sys.Releasable m) :=
  inferInstanceAs (Decidable (_ ∧ _))

/-- Where a `delete` has just succeeded, no proxy of its container is alive. -/
def DeleteReleases (sys : System) : Prop :=
  ∀ (i : Nat) (inv : Invocation) (id : String) (force : Bool), sys.invocations[i]? = some inv →
    inv.exited = false → inv.verb = .delete id force → inv.rest = .done (.ok ()) →
      ∀ r ∈ sys.proxies, r.proxy.containerId ≠ id

/-! ## What a running `delete` knows of live proxies -/

/-- What a `delete` was told is still true of the live proxies of its container. -/
structure Watches (sys : System) (i : Nat) (id : String) (force : Bool) (t : Told)
    (r : Resident) : Prop where
  read : ∀ st, t.Read id st → st.pid = some r.pid
  readable : t.Unread id → force = false
  present : ¬ t.Gone r.pid
  killed : t.Killed r.pid → ∃ d ∈ sys.deliveries, d.sender = i ∧ d.sig = SIGKILL ∧
    d.reaches r = true
  late : ∀ ms, t.Saw ms → ∃ d ∈ sys.deliveries, d.sender = i ∧ d.sig = SIGKILL ∧
    d.reaches r = true ∧ d.time ≤ ms

/-- Every running `delete` watches every live proxy of its container. -/
def Watched (sys : System) : Prop :=
  ∀ (i : Nat) (inv : Invocation) (id : String) (force : Bool), sys.invocations[i]? = some inv →
    inv.exited = false → inv.verb = .delete id force →
      ∀ r ∈ sys.proxies, r.proxy.containerId = id → sys.Watches i id force inv.told r

variable {sys sys' : System} {root : String} {m : SystemMove} {r r' : Resident} {id : String}
  {guard : System → SystemMove → Prop} {i j : Nat} {inv inv' : Invocation}
  {x : Exchange Sys.Reply}

/-- While a `delete` runs, the live proxies of its container are old ones. -/
theorem older_of_deletes (hsys : Reaches root guard sys) (hguard : sys.Releasable m)
    (hstep : sys.step root m = some sys') (hinv : sys.invocations[i]? = some inv)
    (hlive : inv.exited = false) {force : Bool} (hverb : inv.verb = .delete id force)
    (hr' : r' ∈ sys'.proxies) (hid : r'.proxy.containerId = id) :
    ∃ r ∈ sys.proxies, r'.pid = r.pid ∧ r'.creator = r.creator ∧ r.proxy.containerId = id := by
  rcases step_proxy (distinct hsys) hstep hr' with
    ⟨r, hr, hpid, hcreator, hbecomes⟩ | ⟨j, spawner, exe, args, htells, heq⟩
  · exact ⟨r, hr, hpid, hcreator, hbecomes.continues.containerId.symm.trans hid⟩
  · have hcontainer : args.containerId = id := by
      rw [← hid, heq]
      rfl
    obtain ⟨⟨bundle, pidFile, hcreate⟩, -⟩ := (htells.allowed hsys).1
    have hcheck := htells.checked hguard.1
    obtain ⟨verb, told, rest, since, exited⟩ := spawner
    have hcreate' : verb = .create (Verb.id verb) bundle pidFile := hcreate
    rw [hcreate'] at hcheck
    have hquiet := List.all_eq_true.mp hcheck inv (List.mem_of_getElem? hinv)
    simp [hlive, hverb, Verb.deletes, hcontainer] at hquiet

/-- The log only grows. -/
theorem step_deliveries_subset (hstep : sys.step root m = some sys') :
    sys.deliveries ⊆ sys'.deliveries := by
  rcases step_deliveries hstep with heq | ⟨i, inv, pid, sig, -, heq⟩
  · rw [heq]
    exact List.Subset.refl _
  · rw [heq]
    exact List.subset_append_left _ _

/-- A signal that is sent to a live proxy reaches it. -/
theorem reaches_of_tells (hsys : Reaches root guard sys) (hstep : sys.step root m = some sys')
    (hr : r ∈ sys.proxies) (hcreator : r'.creator = r.creator) {sig : Nat}
    (h : sys.Tells m i inv ⟨.kill r.pid sig, Except.ok ()⟩) :
    ∃ d ∈ sys'.deliveries, d.sender = i ∧ d.sig = sig ∧ d.reaches r' = true := by
  refine ⟨⟨i, r.pid, sig, sys.clock, sys.receiver r.pid⟩, ?_, rfl, rfl, ?_⟩
  · rw [h.sent hstep]
    exact List.mem_append_right _ (List.mem_singleton_self _)
  · rw [Delivery.reaches, receiver_of_mem (distinct hsys) hr]
    exact beq_iff_eq.mpr hcreator.symm

theorem reaches_congr {d : Delivery} (hcreator : r'.creator = r.creator) :
    d.reaches r' = d.reaches r := by
  unfold Delivery.reaches
  rw [hcreator]

/-- What was watched before an answer is watched after it. -/
theorem watches_step (hsys : Reaches root guard sys) (hguard : sys.Releasable m)
    (hstep : sys.step root m = some sys') {force : Bool} (h : sys.Tells m i inv x)
    (hverb : inv.verb = .delete id force) (hr : r ∈ sys.proxies)
    (hid : r.proxy.containerId = id) (hpid : r'.pid = r.pid) (hcreator : r'.creator = r.creator)
    (hw : sys.Watches i id force inv.told r) :
    sys'.Watches i id force (inv.told ++ [x]) r' := by
  have hmem : ∀ {y}, y ∈ inv.told ++ [x] → y ∈ inv.told ∨ sys.Tells m i inv y := by
    intro y hy
    rcases List.mem_append.mp hy with hy | hy
    · exact .inl hy
    · exact .inr (List.mem_singleton.mp hy ▸ h)
  have hreads : ∀ {res : Except String State}, sys.Tells m i inv ⟨.readState id, res⟩ →
      readShows force r.pid res = true := by
    intro res htells
    have hcheck := htells.checked hguard.1
    obtain ⟨verb, told, rest, since, exited⟩ := inv
    dsimp only at hverb
    subst hverb
    simpa [hid] using List.all_eq_true.mp hcheck r hr
  have hlog := step_deliveries_subset hstep
  refine ⟨fun st hread => ?_, fun ⟨e, hunread⟩ => ?_, fun hgone => ?_, fun ⟨res, hkill⟩ => ?_,
    fun ms hsaw => ?_⟩
  · rw [hpid]
    rcases hmem hread with hold | htells
    · exact hw.read st hold
    · exact beq_iff_eq.mp (hreads htells)
  · rcases hmem hunread with hold | htells
    · exact hw.readable ⟨e, hold⟩
    · simpa [readShows] using hreads htells
  · rw [hpid] at hgone
    rcases hmem hgone with hold | htells
    · exact hw.present hold
    · exact ne_pid_of_not_ours htells.probed hr rfl
  · rw [hpid] at hkill
    rcases hmem hkill with hold | htells
    · obtain ⟨d, hd, hsender, hsig, hreaches⟩ := hw.killed ⟨res, hold⟩
      exact ⟨d, hlog hd, hsender, hsig, (reaches_congr hcreator).trans hreaches⟩
    · cases res with
      | ok _ => exact reaches_of_tells hsys hstep hr hcreator htells
      | error e => exact absurd rfl (ne_pid_of_not_ours htells.unsent hr)
  · rcases hmem hsaw with hold | htells
    · obtain ⟨d, hd, hsender, hsig, hreaches, hpast⟩ := hw.late ms hold
      exact ⟨d, hlog hd, hsender, hsig, (reaches_congr hcreator).trans hreaches, hpast⟩
    · -- `delete` looks at the clock only after it has killed the process.
      obtain ⟨⟨st, pid, hread, hst, hkilled⟩, -⟩ := htells.allowed hsys
      rw [hverb] at hread
      rw [hw.read st hread] at hst
      cases hst
      obtain ⟨d, hd, hsender, hsig, hreaches⟩ := hw.killed hkilled
      refine ⟨d, hlog hd, hsender, hsig, (reaches_congr hcreator).trans hreaches, ?_⟩
      rw [htells.saw]
      exact (logged hsys hd).past

theorem watched_step (hw : sys.Watched) (hsys : Reaches root guard sys)
    (hguard : sys.Releasable m) (hstep : sys.step root m = some sys') : sys'.Watched := by
  intro i inv' id force hinv' hlive hverb r' hr' hid
  have hkept : ∀ {inv}, sys.invocations[i]? = some inv → inv.exited = false →
      inv.verb = .delete id force → ∃ r ∈ sys.proxies, r'.pid = r.pid ∧ r'.creator = r.creator ∧
        r.proxy.containerId = id ∧ sys.Watches i id force inv.told r := by
    intro inv hinv hlive hverb
    obtain ⟨r, hr, hpid, hcreator, hid'⟩ :=
      older_of_deletes hsys hguard hstep hinv hlive hverb hr' hid
    exact ⟨r, hr, hpid, hcreator, hid', hw i inv id force hinv hlive hverb r hr hid'⟩
  cases step_invocation hstep hinv' with
  | same hinv =>
    obtain ⟨r, hr, hpid, hcreator, -, hwatches⟩ := hkept hinv hlive hverb
    have hlog := step_deliveries_subset hstep
    refine ⟨fun st hread => hpid ▸ hwatches.read st hread, hwatches.readable,
      hpid ▸ hwatches.present, fun hkilled => ?_, fun ms hsaw => ?_⟩
    · obtain ⟨d, hd, hsender, hsig, hreaches⟩ := hwatches.killed (hpid ▸ hkilled)
      exact ⟨d, hlog hd, hsender, hsig, (reaches_congr hcreator).trans hreaches⟩
    · obtain ⟨d, hd, hsender, hsig, hreaches, hpast⟩ := hwatches.late ms hsaw
      exact ⟨d, hlog hd, hsender, hsig, (reaches_congr hcreator).trans hreaches, hpast⟩
  | invoked hm hi =>
    refine ⟨fun st hread => ?_, fun ⟨e, hunread⟩ => ?_, fun hgone => ?_, fun ⟨res, hkill⟩ => ?_,
      fun ms hsaw => ?_⟩
    · cases hread
    · cases hunread
    · cases hgone
    · cases hkill
    · cases hsaw
  | @told inv x next htells hrest =>
    obtain ⟨r, hr, hpid, hcreator, hid', hwatches⟩ :=
      hkept htells.running.1 htells.running.2 hverb
    exact watches_step hsys hguard hstep htells hverb hr hid' hpid hcreator hwatches
  | exited hinv hm => cases hlive

theorem watched (h : Reaches root Releasable sys) : sys.Watched :=
  h.invariant (show Watched initial from fun i inv id force hinv => by cases hinv)
    fun hsys hw hguard hstep => watched_step hw hsys hguard hstep

/-! ## The deadline -/

/-- Every live proxy that a `delete` of its container killed still has time. -/
def InTime (sys : System) : Prop :=
  ∀ d ∈ sys.deliveries, ∀ r ∈ sys.proxies, sys.KilledFor d r → sys.clock < d.time + 5000

/-- What reached a proxy reached it under the pid it was sent to. -/
theorem delivered_of_reaches (hsys : Reaches root guard sys) {d : Delivery}
    (hd : d ∈ sys.deliveries) (h : d.reaches r = true) : ∃ p, sys.Delivered r d.sig p := by
  unfold Delivery.reaches at h
  split at h
  · rename_i r₀ hreceiver
    refine ⟨r₀.proxy, d, hd, rfl, ?_⟩
    rw [hreceiver, ← ((logged hsys hd).reached r₀ hreceiver).1, ← beq_iff_eq.mp h]
  · cases h

/-- Who sent a signal in the log is about the same container after a step. -/
theorem KilledFor.before (hsys : Reaches root guard sys) (hstep : sys.step root m = some sys')
    {d : Delivery} (hd : d ∈ sys.deliveries) (hcreator : r'.creator = r.creator)
    (hid : r'.proxy.containerId = r.proxy.containerId) (h : sys'.KilledFor d r') :
    sys.KilledFor d r := by
  obtain ⟨hsig, hreaches, hdeletes⟩ := h
  obtain ⟨inv, t, hinv, -, -⟩ := (logged hsys hd).sent
  obtain ⟨inv', hinv', hcont⟩ := step_continues hstep hinv
  refine ⟨hsig, (reaches_congr hcreator).symm.trans hreaches, ?_⟩
  rw [hinv', Option.any_some, hcont.verb, hid] at hdeletes
  rw [hinv, Option.any_some]
  exact hdeletes

theorem inTime_step (hin : sys.InTime) (hsys : Reaches root guard sys)
    (hguard : sys.Releasable m) (hstep : sys.step root m = some sys') : sys'.InTime := by
  intro d hd r' hr' hkilled
  have hsys' : Reaches root Transition.Any sys' := .step hsys.any trivial hstep
  have hold : d ∈ sys.deliveries → sys'.clock < d.time + 5000 := by
    intro hd₀
    rcases step_proxy (distinct hsys) hstep hr' with
      ⟨r, hr, hpid, hcreator, hbecomes⟩ | ⟨j, spawner, exe, args, htells, heq⟩
    · have hkilled₀ := hkilled.before hsys hstep hd₀ hcreator hbecomes.continues.containerId
      rcases step_clock hstep with hclock | ⟨ms, rfl, hclock⟩
      · rw [hclock]
        exact hin d hd₀ r hr hkilled₀
      · rw [hclock]
        exact of_decide_eq_true hguard.2 d hd₀ r hr hkilled₀
    · obtain ⟨p, hdelivered⟩ := delivered_of_reaches hsys' hd hkilled.2.1
      exact absurd hdelivered (not_delivered_of_spawns hsys hstep htells (by rw [heq]) _ _)
  rcases step_delivery hstep hd with hd | ⟨i, inv, pid, sig, htells, rfl⟩
  · exact hold hd
  · rcases step_clock hstep with hclock | ⟨ms, rfl, -⟩
    · rw [hclock]
      exact Nat.lt_add_of_pos_right (by decide)
    · exact absurd htells (not_tells (by simp))

theorem inTime (h : Reaches root Releasable sys) : sys.InTime :=
  h.invariant (show InTime initial from fun d hd => by cases hd)
    fun hsys hin hguard hstep => inTime_step hin hsys hguard hstep

/-- **`delete` releases the device if the state file tells the truth and the proxy dies in
time**: in every run, of verbs in any order and side by side, in which `delete` reads the pid
of every live proxy of its container, no proxy is spawned for a container while it is being
deleted, and a proxy that `delete` killed is gone within five seconds, a `delete` that has
succeeded leaves no live proxy of its container. -/
theorem delete_releases (root : String) (sys : System) (h : Reaches root Releasable sys) :
    sys.DeleteReleases := by
  intro i inv id force hinv hlive hverb hok r hr hid
  have hwatches := watched h i inv id force hinv hlive hverb r hr hid
  obtain ⟨-, bundle, pidFile, -, -, hvalid, -, -, hpos⟩ := (born h hr).create h
  have hended := (lawful h hinv).keeps
  rw [hok, hverb] at hended
  rcases hended with ⟨rfl, hinvalid | hunread⟩ | ⟨st, hread, -, hreleased⟩
  · exact hinvalid (hid ▸ hvalid)
  · cases hwatches.readable hunread
  · rcases hreleased r.pid (hwatches.read st hread) with
      hzero | hgone | ⟨hkilled, ms, hsaw, hlate⟩
    · omega
    · exact hwatches.present hgone
    · obtain ⟨d, hd, rfl, hsig, hreaches, hpast⟩ := hwatches.late ms hsaw
      have hclock := clock_le h hinv
      have hdeletes : (sys.invocations[d.sender]?.any fun inv =>
          inv.verb.deletes r.proxy.containerId) = true := by
        rw [hinv, Option.any_some, hverb, hid]
        exact beq_self_eq_true id
      have hdeadline := inTime h d hd r hr ⟨hsig, hreaches, hdeletes⟩
      omega

/-- Two containers are created, and one is deleted, whose proxy dies when it is killed. -/
def deletedPromptly : List SystemMove :=
  .invoke (.create "a" "/b" none) :: creates 0 (labelled "usb:3-6") 100 ++
    .invoke (.create "b" "/b" none) :: creates 1 (labelled "usb:3-7") 200 ++
    [.invoke (.delete "a" false), .answer 2 .goes, .answer 2 .goes, .answer 2 .goes,
      .answer 2 .goes, .answer 2 .goes, .tick 10, .die 100, .reap 100, .answer 2 .goes,
      .answer 2 .goes]

theorem delete_releases_example :
    ∃ sys, after "/run/runtt" Releasable deletedPromptly = some sys ∧
      sys.proxies.map Resident.pid = [200] ∧ sys.DeleteReleases := by
  have hrun : (after "/run/runtt" Releasable deletedPromptly).isSome = true := rfl
  exact ⟨_, (Option.some_get hrun).symm, rfl, delete_releases "/run/runtt" _ (reaches_after hrun)⟩

/-- A container is created and deleted, and its proxy outlives the wait. -/
def deletedTooSoon : List SystemMove :=
  .invoke (.create "a" "/b" none) :: creates 0 (labelled "usb:3-6") 100 ++
    [.invoke (.delete "a" false), .answer 1 .goes, .answer 1 .goes, .answer 1 .goes,
      .answer 1 .goes, .answer 1 .goes, .answer 1 .goes, .tick 5000, .answer 1 .goes,
      .answer 1 .goes, .answer 1 .goes, .answer 1 .goes]

/-- The wait runs out, and `delete` succeeds with the proxy still there. -/
theorem deleted_alive :
    ¬ ∀ sys, Reaches "/run/runtt" Transition.Any sys → sys.DeleteReleases := by
  intro h
  have hrun : (after "/run/runtt" Transition.Any deletedTooSoon).isSome = true := rfl
  exact h _ (reaches_after hrun) 1 _ "a" false rfl rfl rfl rfl _ (List.mem_singleton_self _) rfl

end System
end Runtt
