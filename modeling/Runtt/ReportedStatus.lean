import Runtt.Orphans

/-! # What `state` reports

The status in the state file is what a verb wrote last; the proxy dies when it dies.
`print_state` looks at the process for one of the recorded statuses, `running`, and it looks
at a pid: any process that has it will do, a dead one that nobody has reaped among them.
-/
namespace Runtt

open Interaction Program SysM

namespace System

/-- `state` prints `st` when it gets its answers from the system as it is. -/
def Prints (root : String) (sys : System) (id : String) (st : State) : Prop :=
  ∃ t o, Yields (printState root id) t o ∧
    (∀ x ∈ t, ∃ c sys', sys.reply sys.invocations.length sys.clock x.question c =
      some (x.reply, sys')) ∧
    ⟨.print st, ()⟩ ∈ t

/-- The proxy that the state file of the container records is alive. -/
def RecordedAlive (sys : System) (id : String) : Prop :=
  ∃ r ∈ sys.proxies, r.proxy.containerId = id ∧ sys.Recorded r

/-- **The reported status is true**. -/
def ReportsTruth (root : String) (sys : System) (id : String) : Prop :=
  ∀ st, Prints root sys id st →
    (st.status = .created ∨ st.status = .running → sys.RecordedAlive id) ∧
      (st.status = .stopped → ¬ sys.RecordedAlive id)

/-- The process that is recorded as `running` is not one that is dead and still in the process
table. -/
def Reaped (sys : System) (id : String) : Prop :=
  ∀ st pid, sys.files id = some st → st.status = .running → st.pid = some pid → pid ∉ sys.zombies

/-! ## When a status fits -/

/-- The pids of the live proxies, with their containers. -/
def tenants (sys : System) : List (Nat × String) :=
  sys.proxies.map fun r => (r.pid, r.proxy.containerId)

/-- The recorded process is a live proxy of the container. -/
def lives (sys : System) (st : State) : Bool :=
  sys.tenants.any fun t => st.pid == some t.1 && t.2 == st.id

/-- The recorded pid is that of a live process which is no proxy of the container. -/
def reused (sys : System) (st : State) : Bool :=
  sys.others.any (fun pid => st.pid == some pid) ||
    sys.tenants.any fun t => st.pid == some t.1 && t.2 != st.id

/-- The status is what `print_state` may read for the processes there are. -/
def fits (sys : System) (st : State) : Bool :=
  match st.status with
  | .creating => true
  | .created => sys.lives st
  | .running => !sys.reused st
  | .stopped => !sys.lives st

/-- It holds of every state file.  There are only those of containers a verb was invoked for. -/
def everyFile (sys : System) (p : State → Bool) : Bool :=
  sys.invocations.all fun inv => (sys.files inv.verb.id).all p

/-- Starting a proxy of container `id` as `pid` leaves the status fitting. -/
def startKeeps (id : String) (pid : Nat) (st : State) : Bool :=
  st.pid != some pid ||
    match st.status with
    | .creating | .created => true
    | .running => st.id == id
    | .stopped => st.id != id

/-- A status is written that fits, and no proxy starts under a pid that is recorded for another
container that is `running`, or for its own that is `stopped`. -/
def writesTruth : System → Invocation → Exchange Sys.Reply → Bool
  | sys, _, ⟨.writeState st, _⟩ => sys.fits st
  | sys, _, ⟨.spawn _ args, .ok pid⟩ => sys.everyFile (startKeeps args.containerId pid)
  | _, _, _ => true

/-- No proxy dies while its state file says `created`, and no other process starts under a pid
that is recorded as `running`. -/
def keepsTruth (sys : System) : SystemMove → Bool
  | .answer _ (.fails _) => true
  | .die pid => sys.everyFile fun st => st.pid != some pid || st.status != .created
  | .fork pid => sys.everyFile fun st => st.pid != some pid || st.status != .running
  | m => sys.checks writesTruth m

/-- The steps that leave every status fitting. -/
def KeepsTruth (sys : System) (m : SystemMove) : Prop := sys.keepsTruth m = true

instance (sys : System) (m : SystemMove) : Decidable (sys.KeepsTruth m) :=
  inferInstanceAs (Decidable (_ = true))

variable {sys sys' : System} {root : String} {m : SystemMove} {i : Nat} {inv : Invocation}
  {id : String} {st : State} {pid : Nat} {guard : System → SystemMove → Prop}

/-! ## What `print_state` makes of a state file -/

/-- What is printed is what was read, if the process was seen alive where `running` was read, or
`stopped` if it was not. -/
def Shows (id : String) (t : Told) (st : State) : Prop :=
  ∃ st₀, t.Read id st₀ ∧
    (st = st₀ ∧ (st₀.status = .running → ∀ pid, st₀.pid = some pid → ⟨.probe pid, true⟩ ∈ t) ∨
      st = { st₀ with status := .stopped } ∧ ∃ pid, st₀.pid = some pid ∧ (pid = 0 ∨ t.Gone pid))

theorem printState_shows (root id : String) :
    Promises (fun t q => ∀ st, q = .print st → Shows id t st) (fun _ _ => True) (fun _ _ => True) []
      (printState root id) := by
  have hprint : ∀ {t : Told} {st : State}, Shows id t st →
      Promises (fun t q => ∀ st, q = .print st → Shows id t st) (fun _ _ => True) (fun _ _ => True)
        t (ask (.print st)) := by
    intro t st h
    refine ⟨fun st' heq => ?_, fun _ => trivial⟩
    cases heq
    exact h
  refine promises_bind.mpr (promises_readState (by simp) (fun st₀ => ?_) (fun _ _ => trivial)
    fun _ _ => trivial)
  have hread : Told.Read ([] ++ [⟨.readState id, Except.ok st₀⟩]) id st₀ :=
    List.mem_singleton_self _
  split
  · split
    · rename_i hnone
      refine hprint ⟨st₀, hread, .inl ⟨rfl, fun _ pid hsome => ?_⟩⟩
      rw [hnone] at hsome
      cases hsome
    · rename_i pid hpid
      refine promises_bind.mpr (promises_isAlive (by simp) (fun hzero => ?_) fun b _ => ?_)
      · exact hprint ⟨st₀, hread, .inr ⟨rfl, pid, hpid, .inl hzero⟩⟩
      · have hread' := List.mem_append_left [⟨.probe pid, b⟩] hread
        have hprobe : ∀ t : Told, ⟨.probe pid, b⟩ ∈ t ++ [⟨.probe pid, b⟩] := fun t =>
          List.mem_append_right t (List.mem_singleton_self _)
        split
        · rename_i halive
          subst halive
          refine hprint ⟨st₀, hread', .inl ⟨rfl, fun _ pid' hpid' => ?_⟩⟩
          rw [hpid] at hpid'
          cases hpid'
          exact hprobe _
        · rename_i hdead
          rw [Bool.not_eq_true] at hdead
          subst hdead
          exact hprint ⟨st₀, hread', .inr ⟨rfl, pid, hpid, .inr (hprobe _)⟩⟩
  · rename_i hnot
    exact hprint ⟨st₀, hread, .inl ⟨rfl, fun hrunning => absurd hrunning hnot⟩⟩

theorem taken_of_probe {since : Nat} {c : Choice}
    (h : sys.reply i since (.probe pid) c = some (true, sys')) : sys.taken pid = true := by
  cases c with
  | goes =>
    have heq := Option.some.inj h
    exact congrArg Prod.fst heq
  | fails e =>
    simp only [reply] at h
    split at h
    · cases h
    · cases h
  | failsLate e => cases h
  | unread e => cases h
  | config r => cases h
  | found b => cases h
  | exe r => cases h
  | spawned pid => cases h

/-- `print_state` prints what is recorded, unless that is `running` and the pid is free, or
prints `stopped` where no process of ours has the pid. -/
theorem prints_cases (h : Prints root sys id st) :
    ∃ st₀, sys.files id = some st₀ ∧
      (st = st₀ ∧ (st₀.status = .running → ∀ pid, st₀.pid = some pid → sys.taken pid = true) ∨
        st = { st₀ with status := .stopped } ∧
          ∃ pid, st₀.pid = some pid ∧ (pid = 0 ∨ sys.ours pid = false)) := by
  obtain ⟨t, o, hruns, hanswers, hprint⟩ := h
  obtain ⟨t₁, t₂, rfl⟩ := List.append_of_mem hprint
  obtain ⟨st₀, hread, hshows⟩ := Keeps.asked (printState_shows root id) hruns st rfl
  have hanswered : ∀ {x : Exchange Sys.Reply}, x ∈ t₁ →
      ∃ c sys', sys.reply sys.invocations.length sys.clock x.question c = some (x.reply, sys') :=
    fun hx => hanswers _ (List.mem_append_left _ hx)
  have hfile : sys.files id = some st₀ := by
    obtain ⟨c, sys', hreply⟩ := hanswered hread
    cases reply_answered hreply with
    | same hsays => exact hsays st₀ rfl
  refine ⟨st₀, hfile, ?_⟩
  rcases hshows with ⟨rfl, hprobed⟩ | ⟨rfl, pid, hpid, hgone⟩
  · refine .inl ⟨rfl, fun hrunning pid hpid => ?_⟩
    obtain ⟨c, sys', hreply⟩ := hanswered (hprobed hrunning pid hpid)
    exact taken_of_probe hreply
  · refine .inr ⟨rfl, pid, hpid, hgone.imp_right fun hgone => ?_⟩
    obtain ⟨c, sys', hreply⟩ := hanswered hgone
    cases reply_answered hreply with
    | same hsays => exact hsays rfl

/-! ## The processes after a step -/

theorem tenants_change {f : Proxy → Proxy}
    (hf : ∀ r ∈ sys.proxies, r.pid = pid → (f r.proxy).containerId = r.proxy.containerId) :
    (sys.change pid f).tenants = sys.tenants := by
  rw [tenants, change, List.map_map]
  refine List.map_congr_left fun r hr => ?_
  show ((if r.pid = pid then { r with proxy := f r.proxy } else r).pid,
    (if r.pid = pid then { r with proxy := f r.proxy } else r).proxy.containerId) = _
  by_cases hpid : r.pid = pid
  · rw [if_pos hpid, hf r hr hpid]
  · rw [if_neg hpid]

/-- The live proxies change when one is spawned and when one dies. -/
theorem step_tenants (hd : sys.Distinct) (hstep : sys.step root m = some sys') :
    sys'.tenants = sys.tenants ∨
      (∃ i inv exe args pid, sys.Tells m i inv ⟨.spawn exe args, Except.ok pid⟩ ∧
        sys'.tenants = (pid, args.containerId) :: sys.tenants) ∨
      ∃ pid, m = .die pid ∧ ∀ t, t ∈ sys'.tenants ↔ t ∈ sys.tenants ∧ t.1 ≠ pid := by
  cases step_moved hstep with
  | answer htells hrest hans =>
    cases hans with
    | same hsays => exact .inl rfl
    | spawned hpos hfree => exact .inr (.inl ⟨_, _, _, _, _, htells, rfl⟩)
    | wrote hr => exact .inl rfl
    | removed hr => exact .inl rfl
    | @sent pid sig htaken =>
      have hsame : (sys.change pid fun p => p.deliver sig).tenants = sys.tenants := by
        refine tenants_change fun r _ _ => ?_
        obtain ⟨stage, received, heq⟩ := r.proxy.deliver_only sig
        rw [heq]
      exact .inl hsame
  | @proxy m r₀ p hr₀ hp =>
    refine .inl (tenants_change fun r hr hpid => ?_)
    obtain rfl := hd.eq hr hr₀ hpid
    exact (Becomes.moved hp).continues.containerId
  | @die pid htaken =>
    refine .inr (.inr ⟨pid, rfl, fun t => ?_⟩)
    show t ∈ (sys.proxies.filter fun r => r.pid != pid).map _ ↔ t ∈ sys.proxies.map _ ∧ _
    simp only [List.mem_map, List.mem_filter, bne_iff_ne]
    constructor
    · rintro ⟨r, ⟨hr, hpid⟩, rfl⟩
      exact ⟨⟨r, hr, rfl⟩, hpid⟩
    · rintro ⟨⟨r, hr, rfl⟩, hpid⟩
      exact ⟨r, ⟨hr, hpid⟩, rfl⟩
  | invoke v => exact .inl rfl
  | exit hinv => exact .inl rfl
  | reap pid => exact .inl rfl
  | fork hpos hfree => exact .inl rfl
  | tick ms => exact .inl rfl

theorem lives_iff :
    sys.lives st = true ↔ ∃ pid, st.pid = some pid ∧ (pid, st.id) ∈ sys.tenants := by
  rw [lives, List.any_eq_true]
  constructor
  · rintro ⟨⟨pid, id⟩, ht, hmatch⟩
    obtain ⟨hpid, hid⟩ := Bool.and_eq_true_iff.mp hmatch
    have hid : id = st.id := eq_of_beq hid
    exact ⟨pid, eq_of_beq hpid, hid ▸ ht⟩
  · rintro ⟨pid, hpid, ht⟩
    exact ⟨_, ht, by rw [hpid, beq_self_eq_true, beq_self_eq_true]; rfl⟩

theorem reused_iff :
    sys.reused st = true ↔ ∃ pid, st.pid = some pid ∧
      (pid ∈ sys.others ∨ ∃ id, id ≠ st.id ∧ (pid, id) ∈ sys.tenants) := by
  rw [reused, Bool.or_eq_true, List.any_eq_true, List.any_eq_true]
  constructor
  · rintro (⟨pid, hmem, hpid⟩ | ⟨⟨pid, id⟩, ht, hmatch⟩)
    · exact ⟨pid, eq_of_beq hpid, .inl hmem⟩
    · obtain ⟨hpid, hid⟩ := Bool.and_eq_true_iff.mp hmatch
      exact ⟨pid, eq_of_beq hpid, .inr ⟨id, bne_iff_ne.mp hid, ht⟩⟩
  · rintro ⟨pid, hpid, hmem | ⟨id, hid, ht⟩⟩
    · exact .inl ⟨pid, hmem, beq_iff_eq.mpr hpid⟩
    · exact .inr ⟨_, ht, by rw [hpid, beq_self_eq_true, bne_iff_ne.mpr hid]; rfl⟩

/-- A live proxy after a step was one before it, or it was just spawned. -/
theorem tenant_before (hd : sys.Distinct) (hstep : sys.step root m = some sys') {id' : String}
    (ht : (pid, id') ∈ sys'.tenants) :
    (pid, id') ∈ sys.tenants ∨ ∃ i inv exe args,
      sys.Tells m i inv ⟨.spawn exe args, Except.ok pid⟩ ∧ args.containerId = id' := by
  rcases step_tenants hd hstep with heq | ⟨i, inv, exe, args, pid', htells, heq⟩ | ⟨pid', -, hiff⟩
  · exact .inl (heq ▸ ht)
  · rw [heq] at ht
    rcases List.mem_cons.mp ht with hnew | ht
    · obtain ⟨rfl, rfl⟩ := Prod.mk.inj hnew
      exact .inr ⟨i, inv, exe, args, htells, rfl⟩
    · exact .inl ht
  · exact .inl ((hiff _).mp ht).1

/-- A recorded proxy goes on living unless it dies. -/
theorem lives_step (hd : sys.Distinct) (hstep : sys.step root m = some sys')
    (hlives : sys.lives st = true) (hdie : ∀ pid, m = .die pid → st.pid ≠ some pid) :
    sys'.lives st = true := by
  obtain ⟨pid, hpid, ht⟩ := lives_iff.mp hlives
  refine lives_iff.mpr ⟨pid, hpid, ?_⟩
  rcases step_tenants hd hstep with heq | ⟨i, inv, exe, args, pid', htells, heq⟩ | ⟨pid', hm, hiff⟩
  · exact heq ▸ ht
  · rw [heq]
    exact List.mem_cons_of_mem _ ht
  · refine (hiff _).mpr ⟨ht, fun heq => hdie pid' hm ?_⟩
    rw [hpid]
    exact congrArg some heq

theorem lives_before (hd : sys.Distinct) (hstep : sys.step root m = some sys')
    (hlives : sys'.lives st = true) :
    sys.lives st = true ∨ ∃ i inv exe args pid,
      sys.Tells m i inv ⟨.spawn exe args, Except.ok pid⟩ ∧ st.pid = some pid ∧
        args.containerId = st.id := by
  obtain ⟨pid, hpid, ht⟩ := lives_iff.mp hlives
  rcases tenant_before hd hstep ht with ht | ⟨i, inv, exe, args, htells, hid⟩
  · exact .inl (lives_iff.mpr ⟨pid, hpid, ht⟩)
  · exact .inr ⟨i, inv, exe, args, pid, htells, hpid, hid⟩

theorem reused_before (hd : sys.Distinct) (hstep : sys.step root m = some sys')
    (hreused : sys'.reused st = true) :
    sys.reused st = true ∨ (∃ pid, m = .fork pid ∧ st.pid = some pid) ∨
      ∃ i inv exe args pid, sys.Tells m i inv ⟨.spawn exe args, Except.ok pid⟩ ∧
        st.pid = some pid ∧ args.containerId ≠ st.id := by
  obtain ⟨pid, hpid, hmem | ⟨id, hid, ht⟩⟩ := reused_iff.mp hreused
  · rcases step_others hstep hmem with hmem | hm
    · exact .inl (reused_iff.mpr ⟨pid, hpid, .inl hmem⟩)
    · exact .inr (.inl ⟨pid, hm, hpid⟩)
  · rcases tenant_before hd hstep ht with ht | ⟨i, inv, exe, args, htells, hid'⟩
    · exact .inl (reused_iff.mpr ⟨pid, hpid, .inr ⟨id, hid, ht⟩⟩)
    · exact .inr (.inr ⟨i, inv, exe, args, pid, htells, hpid, hid' ▸ hid⟩)

/-! ## Every status fits -/

/-- The step does not undo the status. -/
structure Spares (sys : System) (m : SystemMove) (st : State) : Prop where
  die : ∀ pid, m = .die pid → st.pid = some pid → st.status ≠ .created
  fork : ∀ pid, m = .fork pid → st.pid = some pid → st.status ≠ .running
  spawn : ∀ i inv exe args pid, sys.Tells m i inv ⟨.spawn exe args, Except.ok pid⟩ →
    startKeeps args.containerId pid st = true

theorem fits_step (hd : sys.Distinct) (hstep : sys.step root m = some sys')
    (hfits : sys.fits st = true) (hspares : sys.Spares m st) : sys'.fits st = true := by
  unfold fits at hfits ⊢
  cases hstatus : st.status with
  | creating => rfl
  | created =>
    rw [hstatus] at hfits
    exact lives_step hd hstep hfits fun pid hm hpid => hspares.die pid hm hpid hstatus
  | running =>
    rw [hstatus, Bool.not_eq_true', ← Bool.not_eq_true] at hfits
    rw [Bool.not_eq_true', ← Bool.not_eq_true]
    intro hreused
    rcases reused_before hd hstep hreused with
      hold | ⟨pid, hm, hpid⟩ | ⟨i, inv, exe, args, pid, htells, hpid, hid⟩
    · exact hfits hold
    · exact hspares.fork pid hm hpid hstatus
    · have hkeeps := hspares.spawn i inv exe args pid htells
      simp only [startKeeps, hpid, hstatus, bne_self_eq_false, Bool.false_or, beq_iff_eq] at hkeeps
      exact hid hkeeps.symm
  | stopped =>
    rw [hstatus, Bool.not_eq_true', ← Bool.not_eq_true] at hfits
    rw [Bool.not_eq_true', ← Bool.not_eq_true]
    intro hlives
    rcases lives_before hd hstep hlives with hold | ⟨i, inv, exe, args, pid, htells, hpid, hid⟩
    · exact hfits hold
    · have hkeeps := hspares.spawn i inv exe args pid htells
      simp only [startKeeps, hpid, hstatus, bne_self_eq_false, Bool.false_or, bne_iff_ne] at hkeeps
      exact hkeeps hid.symm

theorem file_of_everyFile (hsys : Reaches root guard sys) {p : State → Bool}
    (hevery : sys.everyFile p = true) (hst : sys.files id = some st) : p st = true := by
  obtain ⟨i, inv, hinv, hid⟩ := invoked_of_file hsys hst
  have hall := List.all_eq_true.mp hevery inv (List.mem_of_getElem? hinv)
  rw [hid, hst] at hall
  exact hall

/-- The guard looks at every answer but a plain failure. -/
theorem truth_of_tells (hguard : sys.KeepsTruth m) {x : Exchange Sys.Reply}
    (htells : sys.Tells m i inv x) :
    (∃ e, m = .answer i (.fails e)) ∨ writesTruth sys inv x = true := by
  obtain ⟨c, next, sys', hm, -⟩ := tells_iff.mp htells
  unfold KeepsTruth keepsTruth at hguard
  split at hguard
  · cases hm
    exact .inl ⟨_, rfl⟩
  · cases hm
  · cases hm
  · exact .inr (htells.checked hguard)

/-- A step that meets the guard spares what is recorded. -/
theorem spares_of_file (hsys : Reaches root guard sys) (hguard : sys.KeepsTruth m)
    (hst : sys.files id = some st) : sys.Spares m st where
  die pid hm hpid := by
    subst hm
    have hfile := file_of_everyFile hsys hguard hst
    simp only [hpid, bne_self_eq_false, Bool.false_or, bne_iff_ne] at hfile
    exact hfile
  fork pid hm hpid := by
    subst hm
    have hfile := file_of_everyFile hsys hguard hst
    simp only [hpid, bne_self_eq_false, Bool.false_or, bne_iff_ne] at hfile
    exact hfile
  spawn i inv exe args pid htells := by
    rcases truth_of_tells hguard htells with ⟨e, rfl⟩ | htruth
    · obtain ⟨c, next, sys', heq, -, -, -, hreply⟩ := tells_iff.mp htells
      cases heq
      cases hreply
    · exact file_of_everyFile hsys htruth hst

/-- A write spares everything. -/
theorem spares_of_writes {st' : State} {r : Except Error Unit}
    (htells : sys.Tells m i inv ⟨.writeState st', r⟩) (st : State) : sys.Spares m st where
  die pid hm := by
    obtain ⟨c, _, _, heq, _⟩ := tells_iff.mp htells
    rw [hm] at heq
    cases heq
  fork pid hm := by
    obtain ⟨c, _, _, heq, _⟩ := tells_iff.mp htells
    rw [hm] at heq
    cases heq
  spawn i' inv' exe args pid hspawns := by cases (htells.unique hspawns).2.2

/-- Every recorded status fits the processes there are. -/
theorem fits_of_file (h : Reaches root KeepsTruth sys) (hst : sys.files id = some st) :
    sys.fits st = true := by
  refine h.invariant (I := fun sys => ∀ id st, sys.files id = some st → sys.fits st = true)
    (fun id st hst => by cases hst) ?_ id st hst
  intro sys sys' m hsys ih hguard hstep id st hst
  have hd := distinct hsys
  rcases step_files hstep id with
    hsame | ⟨i, inv, st', r, htells, -, -, hwrote⟩ | ⟨i, inv, r, -, -, hgone⟩
  · rw [hsame] at hst
    exact fits_step hd hstep (ih id st hst) (spares_of_file hsys hguard hst)
  · have hspares := spares_of_writes htells st
    rcases truth_of_tells hguard htells with ⟨e, rfl⟩ | htruth
    · rw [files_of_fails hstep] at hst
      exact fits_step hd hstep (ih id st hst) hspares
    · rw [hwrote] at hst
      cases hst
      exact fits_step hd hstep htruth hspares
  · rw [hgone] at hst
    cases hst

/-! ## The status that is reported -/

/-- What is recorded has a pid. -/
theorem pid_of_file (h : Reaches root guard sys) (hst : sys.files id = some st) :
    ∃ pid, st.pid = some pid :=
  (allStates (P := fun st => ∃ pid, st.pid = some pid) h (fun _ _ pid _ => ⟨pid, rfl⟩)
    fun _ _ hpid => hpid).file id st hst

theorem recordedAlive_iff (hst : sys.files id = some st) :
    sys.RecordedAlive id ↔ ∃ pid, st.pid = some pid ∧ (pid, id) ∈ sys.tenants := by
  constructor
  · rintro ⟨r, hr, rfl, hrecorded⟩
    rw [Recorded, recordedPid, hst] at hrecorded
    exact ⟨r.pid, hrecorded, List.mem_map.mpr ⟨r, hr, rfl⟩⟩
  · rintro ⟨pid, hpid, ht⟩
    obtain ⟨r, hr, heq⟩ := List.mem_map.mp ht
    obtain ⟨rfl, rfl⟩ := Prod.mk.inj heq
    refine ⟨r, hr, rfl, ?_⟩
    rw [Recorded, recordedPid, hst]
    exact hpid

/-- Where a dead process is not in the table any more, a pid that is taken and not used again is
that of the live proxy. -/
theorem alive_of_taken (hst : sys.files id = some st) (hid : st.id = id) (hpid : st.pid = some pid)
    (hreaped : pid ∉ sys.zombies) (hown : sys.reused st = false) (htaken : sys.taken pid = true) :
    sys.RecordedAlive id := by
  rw [← Bool.not_eq_true] at hown
  simp only [taken, ours, Bool.or_eq_true, List.any_eq_true, List.contains_iff_mem] at htaken
  rcases htaken with (⟨r, hr, hrpid⟩ | hzombie) | hother
  · have ht : (pid, r.proxy.containerId) ∈ sys.tenants :=
      List.mem_map.mpr ⟨r, hr, by rw [eq_of_beq hrpid]⟩
    by_cases hcontainer : r.proxy.containerId = id
    · exact (recordedAlive_iff hst).mpr ⟨pid, hpid, hcontainer ▸ ht⟩
    · exact absurd (reused_iff.mpr ⟨pid, hpid, .inr ⟨_, hid ▸ hcontainer, ht⟩⟩) hown
  · exact absurd hzombie hreaped
  · exact absurd (reused_iff.mpr ⟨pid, hpid, .inl hother⟩) hown

/-- A pid that no process of ours has is not that of a live proxy. -/
theorem not_alive_of_not_ours (hsys : Reaches root guard sys) (hst : sys.files id = some st)
    (hpid : st.pid = some pid) (hgone : pid = 0 ∨ sys.ours pid = false) :
    ¬ sys.RecordedAlive id := by
  rintro ⟨r, hr, rfl, hrecorded⟩
  obtain ⟨inv, bundle, pidFile, -, -, -, -, -, hpos⟩ := (born hsys hr).create hsys
  rw [Recorded, recordedPid, hst] at hrecorded
  obtain rfl : r.pid = pid := Option.some.inj (hrecorded.symm.trans hpid)
  rcases hgone with hzero | hgone
  · omega
  · exact ne_pid_of_not_ours hgone hr rfl

/-- **The reported status is true** in every run whose steps keep to the guard, wherever the
process that is recorded as `running`, if it is dead, is no longer in the process table. -/
theorem status_reported (root : String) (sys : System) (h : Reaches root KeepsTruth sys)
    (id : String) (hreaped : sys.Reaped id) : sys.ReportsTruth root id := by
  intro st hprints
  obtain ⟨st₀, hst₀, hcases⟩ := prints_cases hprints
  have hid := files_id h hst₀
  have hfits := fits_of_file h hst₀
  rcases hcases with ⟨rfl, htaken⟩ | ⟨rfl, pid, hpid, hgone⟩
  · unfold fits at hfits
    refine ⟨?_, fun hstopped => ?_⟩
    · rintro (hcreated | hrunning)
      · rw [hcreated] at hfits
        obtain ⟨pid, hpid, ht⟩ := lives_iff.mp hfits
        exact (recordedAlive_iff hst₀).mpr ⟨pid, hpid, hid ▸ ht⟩
      · rw [hrunning, Bool.not_eq_true'] at hfits
        obtain ⟨pid, hpid⟩ := pid_of_file h hst₀
        exact alive_of_taken hst₀ hid hpid (hreaped st pid hst₀ hrunning hpid) hfits
          (htaken hrunning pid hpid)
    · rw [hstopped, Bool.not_eq_true', ← Bool.not_eq_true] at hfits
      intro halive
      obtain ⟨pid, hpid, ht⟩ := (recordedAlive_iff hst₀).mp halive
      exact hfits (lives_iff.mpr ⟨pid, hpid, hid.symm ▸ ht⟩)
  · refine ⟨?_, fun _ => not_alive_of_not_ours h hst₀ hpid hgone⟩
    rintro (hcreated | hrunning)
    · cases hcreated
    · cases hrunning

/-- A status other than `running` is printed as it is recorded. -/
theorem prints_recorded (hvalid : validateContainerId id = .ok ()) (hst : sys.files id = some st)
    (hstatus : st.status ≠ .running) : Prints root sys id st := by
  refine ⟨[⟨.readState id, Except.ok st⟩, ⟨.print st, ()⟩], .ok (), ?_, ?_,
    List.mem_cons_of_mem _ (List.mem_singleton_self _)⟩
  · show Runs (printState root id).run _ _
    rw [printState, readState, hvalid]
    refine .ask ?_
    show Runs (ExceptT.run (if st.status = .running then _ else ask (.print st))) _ _
    rw [if_neg hstatus]
    exact .ask (.done _)
  · intro x hx
    rcases List.mem_cons.mp hx with rfl | hx
    · exact ⟨.goes, sys, by rw [reply, hst]; rfl⟩
    · rw [List.mem_singleton.mp hx]
      exact ⟨.goes, sys, rfl⟩

/-- A container is started, and killed by someone who waits for its proxy to go before
recording it. -/
def stoppedWhenGone : List SystemMove :=
  .invoke (.create "a" "/b" none) :: creates 0 (labelled "usb:3-6") 100 ++
    List.replicate 5 (.advance 100) ++
    [.invoke (.start "a"), .answer 1 .goes, .answer 1 .goes, .answer 1 .goes,
      .invoke (.kill "a" "KILL"), .answer 2 .goes, .answer 2 .goes, .answer 2 .goes, .die 100,
      .reap 100, .answer 2 .goes]

theorem status_reported_example :
    ∃ sys st, after "/run/runtt" KeepsTruth stoppedWhenGone = some sys ∧
      Prints "/run/runtt" sys "a" st ∧ st.status = .stopped ∧
      sys.ReportsTruth "/run/runtt" "a" := by
  have hrun : (after "/run/runtt" KeepsTruth stoppedWhenGone).isSome = true := rfl
  have hzombies : ((after "/run/runtt" KeepsTruth stoppedWhenGone).get hrun).zombies = [] := rfl
  refine ⟨_, _, (Option.some_get hrun).symm, prints_recorded rfl rfl (by simp), rfl, ?_⟩
  refine status_reported "/run/runtt" _ (reaches_after hrun) "a" fun st pid _ _ _ hzombie => ?_
  rw [hzombies] at hzombie
  cases hzombie

/-- The proxy of a container that was never started dies. -/
def createdAndDead : List SystemMove :=
  .invoke (.create "a" "/b" none) :: creates 0 (labelled "usb:3-6") 100 ++ [.die 100, .reap 100]

theorem created_reported_dead :
    ¬ ∀ sys id, Reaches "/run/runtt" Transition.Any sys → sys.ReportsTruth "/run/runtt" id := by
  intro h
  have hrun : (after "/run/runtt" Transition.Any createdAndDead).isSome = true := rfl
  have hproxies : ((after "/run/runtt" Transition.Any createdAndDead).get hrun).proxies = [] := rfl
  have hprints : Prints "/run/runtt"
      ((after "/run/runtt" Transition.Any createdAndDead).get hrun) "a" _ :=
    prints_recorded rfl rfl fun hrunning => by cases hrunning
  obtain ⟨r, hr, -⟩ := (h _ "a" (reaches_after hrun) _ hprints).1 (.inl rfl)
  rw [hproxies] at hr
  cases hr

end System
end Runtt
