import Runtt.Deleted

/-! # A container's life goes one way

`start` and `kill` read the state file, look at what it records, and write it again.  Of two
that overlap, the one that writes last decides, so a `start` can record `running` over
`stopped`.

Here the verbs that may change the state file of one container run one after the other, while
`state`, other signals, the proxies and the verbs of other containers go on beside them.  What
such a verb has read is then still there when it writes: the status goes from `created` over
`running` to `stopped` and never back, and what one `create` has recorded is started once at
most.
-/
namespace Runtt

open Interaction Program SysM

/-- Where the status stands in the life of a container. -/
def ContainerState.rank : ContainerState → Nat
  | .creating => 0
  | .created => 1
  | .running => 2
  | .stopped => 3

/-- The same container and process, and a status that has gone on. -/
structure State.Ages (st st' : State) : Prop where
  same : st' = { st with status := st'.status }
  onward : st.status.rank ≤ st'.status.rank

theorem State.Ages.refl (st : State) : st.Ages st := ⟨rfl, Nat.le_refl _⟩

theorem State.Ages.trans {st₁ st₂ st₃ : State} (h : st₁.Ages st₂) (h' : st₂.Ages st₃) :
    st₁.Ages st₃ := by
  refine ⟨?_, h.onward.trans h'.onward⟩
  rw [h'.same, h.same]

namespace Verb

/-- The verb may change the state file of its container. -/
def changes : Verb → Bool
  | .delete _ _ => true
  | v => v.creates || v.rewrites

/-- What a `start` or a `kill` that has read `st₀` writes. -/
inductive Writes (v : Verb) (st₀ : State) : State → Prop where
  | started (hv : v = .start v.id) (hcreated : st₀.status = .created) :
      Writes v st₀ { st₀ with status := .running }
  | stopped {sigText : String} (hv : v = .kill v.id sigText) :
      Writes v st₀ { st₀ with status := .stopped }

theorem Writes.ages {v : Verb} {st₀ st : State} (h : v.Writes st₀ st) : st₀.Ages st := by
  cases h with
  | started hv hcreated =>
    refine ⟨rfl, ?_⟩
    show st₀.status.rank ≤ ContainerState.running.rank
    rw [hcreated]
    decide
  | stopped hv =>
    refine ⟨rfl, ?_⟩
    show st₀.status.rank ≤ ContainerState.stopped.rank
    cases st₀.status <;> decide

end Verb

/-! ## What is written over what was read -/

/-- A state file was asked to be written. -/
def Told.Writing (t : Told) : Prop := ∃ st r, ⟨.writeState st, r⟩ ∈ t

theorem Told.not_writing_nil : ¬ Told.Writing [] := by
  rintro ⟨st, r, hmem⟩
  cases hmem

theorem Told.not_writing_append {t : Told} {x : Exchange Sys.Reply} (ht : ¬ t.Writing)
    (hx : ∀ st, x.question ≠ .writeState st) : ¬ Told.Writing (t ++ [x]) := by
  rintro ⟨st, r, hmem⟩
  rcases List.mem_append.mp hmem with hmem | hmem
  · exact ht ⟨st, r, hmem⟩
  · exact hx st (congrArg Exchange.question (List.mem_singleton.mp hmem)).symm

/-- A verb that is no `create` asks nothing after a write, and writes over what it has read. -/
def Rewrites (v : Verb) (t : Told) (q : Sys) : Prop :=
  v.creates = false → ¬ t.Writing ∧
    ∀ st, q = .writeState st → ∃ st₀, t.Read v.id st₀ ∧ v.Writes st₀ st

/-- A `start` that succeeds has recorded `running` over `created`. -/
def Restarts (v : Verb) (t : Told) : Except Error Unit → Prop
  | .ok () => v = .start v.id →
    ∃ st₀, t.Read v.id st₀ ∧ st₀.status = .created ∧ t.Wrote { st₀ with status := .running }
  | .error _ => True

section Rewrites
variable {t : Told} {v : Verb}

/-- Where nothing was written, anything but a write may be asked. -/
theorem rewrites_of_ne {q : Sys} (ht : ¬ t.Writing) (hq : ∀ st, q ≠ .writeState st) :
    Rewrites v t q := fun _ => ⟨ht, fun st hst => absurd hst (hq st)⟩

theorem start_rewrites (root id : String) :
    Promises (Rewrites (.start id)) (fun t _ => Restarts (.start id) t (.ok ()))
      (fun _ _ => True) [] (start root id) := by
  refine promises_bind.mpr (promises_readState (rewrites_of_ne Told.not_writing_nil (by simp))
    (fun st => ?_) (fun _ _ => trivial) fun _ _ => trivial)
  have hread : Told.Read ([] ++ [⟨.readState id, Except.ok st⟩]) id st := List.mem_singleton_self _
  have hunwritten : ¬ Told.Writing ([] ++ [⟨.readState id, Except.ok st⟩]) :=
    Told.not_writing_append Told.not_writing_nil (by simp)
  split
  · exact trivial
  · rename_i hcreated
    rw [ne_eq, not_not] at hcreated
    split
    · exact trivial
    · rename_i pid hpid
      refine promises_bind.mpr (promises_context (promises_ask_bind
        (rewrites_of_ne hunwritten (by simp)) fun r => ?_))
      have hunwritten' := Told.not_writing_append (x := ⟨.kill pid SIGUSR1, r⟩) hunwritten (by simp)
      have hread' := List.mem_append_left [⟨.kill pid SIGUSR1, r⟩] hread
      cases r with
      | error e => exact trivial
      | ok _ =>
        refine promises_writeState (fun _ => ⟨hunwritten', ?_⟩) (fun _ => ?_) fun _ _ _ => trivial
        · intro st' hst'
          cases hst'
          exact ⟨st, hread', .started rfl hcreated⟩
        · exact ⟨st, List.mem_append_left _ hread', hcreated,
            List.mem_append_right _ (List.mem_singleton_self _)⟩

/-- What a verb that is neither `create` nor `start` keeps to. -/
abbrev Verb.Rewriting (v : Verb) (t : Told) (p : SysM Unit) : Prop :=
  Promises (Rewrites v) (fun _ _ => True) (fun _ _ => True) t p

theorem killRecord_rewrites {id sigText : String} {st : State} {sig : Nat} (hread : t.Read id st)
    (ht : ¬ t.Writing) : (Verb.kill id sigText).Rewriting t (killRecord st sig) := by
  unfold killRecord
  split
  · refine promises_writeState (fun _ => ⟨ht, ?_⟩) trivial fun _ _ _ => trivial
    intro st' hst'
    cases hst'
    exact ⟨st, hread, .stopped rfl⟩
  · exact trivial

theorem kill_rewrites (root id sigText : String) :
    (Verb.kill id sigText).Rewriting [] (kill root id sigText) := by
  refine promises_bind.mpr (promises_readState (rewrites_of_ne Told.not_writing_nil (by simp))
    (fun st => ?_) (fun _ _ => trivial) fun _ _ => trivial)
  have hread : Told.Read ([] ++ [⟨.readState id, Except.ok st⟩]) id st := List.mem_singleton_self _
  have hunwritten : ¬ Told.Writing ([] ++ [⟨.readState id, Except.ok st⟩]) :=
    Told.not_writing_append Told.not_writing_nil (by simp)
  cases hsig : parseSignal sigText with
  | error e => exact trivial
  | ok sig =>
    refine promises_bind.mpr (promises_pure.mpr ?_)
    split
    · exact killRecord_rewrites hread hunwritten
    · rename_i pid hpid
      refine promises_bind.mpr (promises_isAlive (rewrites_of_ne hunwritten (by simp))
        (fun _ => ?_) fun b _ => ?_)
      · exact killRecord_rewrites hread hunwritten
      · have hread' := List.mem_append_left [⟨.probe pid, b⟩] hread
        have hunwritten' := Told.not_writing_append (x := ⟨.probe pid, b⟩) hunwritten (by simp)
        split
        · refine promises_bind.mpr (promises_context (promises_ask_bind
            (rewrites_of_ne hunwritten' (by simp)) fun r => ?_))
          cases r with
          | error e => exact trivial
          | ok _ =>
            exact killRecord_rewrites (List.mem_append_left _ hread')
              (Told.not_writing_append hunwritten' (by simp))
        · exact killRecord_rewrites hread' hunwritten'

/-- **What every verb writes over what it has read**. -/
theorem Verb.keeps_rewrites (root : String) (v : Verb) :
    Keeps (Rewrites v) (Restarts v) [] (v.program root).run := by
  have hunwritten : ∀ {allowed : Told → Sys → Prop} {ends : Told → Except Error Unit → Prop},
      Keeps allowed ends [] (v.program root).run →
        (∀ t q, allowed t q → ∀ st, q ≠ .writeState st) → v ≠ .start v.id →
          Keeps (Rewrites v) (Restarts v) [] (v.program root).run := by
    intro allowed ends hkeeps hquiet hstart
    have hcarry := Keeps.carry (J := fun t => ¬ Told.Writing t) hkeeps Told.not_writing_nil
      fun t q r hq ht => Told.not_writing_append ht (hquiet t q hq)
    refine hcarry.mono (fun t q hq => rewrites_of_ne hq.2 (hquiet t q hq.1)) fun t o _ => ?_
    cases o with
    | ok _ => exact fun hv => absurd hv hstart
    | error e => exact trivial
  cases v with
  | create id bundle pidFile =>
    refine ((Verb.create id bundle pidFile).keeps root).mono (fun t q _ hno => by cases hno) ?_
    intro t o _
    cases o with
    | ok _ => exact fun hv => by cases hv
    | error e => exact trivial
  | start id =>
    refine Keeps.mono (start_rewrites root id) (fun _ _ hq => hq) fun t o ho => ?_
    cases o with
    | ok _ => exact ho
    | error e => exact trivial
  | state id =>
    exact hunwritten (printState_silent root id) (fun _ _ hq => hq) (by simp)
  | kill id sigText =>
    refine Keeps.mono (kill_rewrites root id sigText) (fun _ _ hq => hq) fun t o _ => ?_
    cases o with
    | ok _ => exact fun hv => by cases hv
    | error e => exact trivial
  | delete id force =>
    refine hunwritten (delete_minding root id force) (fun t q hq st hst => ?_) (by simp)
    rcases hq.1 st hst with h | h
    · cases h
    · cases h

end Rewrites

/-! ## One after the other -/

/-- The invocation may still change the state file of the container. -/
def Invocation.mayChange (inv : Invocation) (id : String) : Bool :=
  inv.verb.id == id && inv.verb.changes && !inv.exited && inv.asks

/-- The invocation is a `start` of the container that has returned `Ok`. -/
def Invocation.hasStarted (inv : Invocation) (id : String) : Bool :=
  match inv.rest with
  | .done (.ok _) => inv.verb == .start id
  | _ => false

namespace System

/-- A verb that may change the state file of the container begins when no other may any more. -/
def byTurns (id : String) (sys : System) : SystemMove → Bool
  | .invoke v =>
    !(v.id == id && v.changes) || sys.invocations.all fun inv => !inv.mayChange id
  | _ => true

/-- The verbs that may change the state file of the container run one after the other. -/
def ByTurns (id : String) (sys : System) (m : SystemMove) : Prop := sys.byTurns id m = true

/-- The same, until a `create` writes the state file of the container. -/
def InOneLife (id : String) (sys : System) (m : SystemMove) : Prop :=
  ByTurns id sys m ∧ leftUncreated id sys m = true

instance (id : String) (sys : System) (m : SystemMove) : Decidable (ByTurns id sys m) :=
  inferInstanceAs (Decidable (_ = true))

instance (id : String) (sys : System) (m : SystemMove) : Decidable (InOneLife id sys m) :=
  inferInstanceAs (Decidable (_ ∧ _))

/-- How many `start`s of the container have succeeded. -/
def started (sys : System) (id : String) : Nat :=
  sys.invocations.countP fun inv => inv.hasStarted id

/-- How many `start`s of the container may still succeed: one, if `created` is recorded. -/
def startable (sys : System) (id : String) : Nat :=
  match sys.files id with
  | some st => if st.status = .created then 1 else 0
  | none => 0

/-- What holds while the verbs run by turns. -/
structure Orderly (id : String) (sys : System) : Prop where
  /-- One invocation at most may change the state file. -/
  alone : ∀ (i j : Nat) (inv inv' : Invocation), sys.invocations[i]? = some inv →
    sys.invocations[j]? = some inv' → inv.mayChange id = true → inv'.mayChange id = true → i = j
  /-- What it has read is still there. -/
  current : ∀ (i : Nat) (inv : Invocation) (st : State), sys.invocations[i]? = some inv →
    inv.mayChange id = true → inv.told.Read id st → sys.files id = some st

variable {sys sys' : System} {root : String} {m : SystemMove} {i j : Nat} {inv inv' : Invocation}
  {id : String} {guard : System → SystemMove → Prop} {x : Exchange Sys.Reply}

theorem mayChange_iff :
    inv.mayChange id = true ↔ inv.verb.id = id ∧ inv.verb.changes = true ∧ inv.exited = false ∧
      inv.asks = true := by
  simp only [Invocation.mayChange, Bool.and_eq_true, beq_iff_eq, Bool.not_eq_true', and_assoc]

theorem Tells.asks (h : sys.Tells m i inv x) : inv.asks = true := by
  obtain ⟨_, next, _, -, -, -, hrest, -⟩ := tells_iff.mp h
  rw [Invocation.asks, hrest]

/-- Who writes the state file may change it. -/
theorem mayChange_of_writes (hsys : Reaches root guard sys) {st : State} {r : Except Error Unit}
    (h : sys.Tells m i inv ⟨.writeState st, r⟩) : inv.mayChange st.id = true := by
  have hchanges : inv.verb.changes = true := by
    have hminds := (asks_of_tells (Verb.keeps_minding root) hsys h).1 st rfl
    unfold Verb.changes
    split
    · rfl
    · rw [Bool.or_eq_true]
      exact hminds.symm
  exact mayChange_iff.mpr ⟨(h.writes_id hsys).symm, hchanges, h.running.2, h.asks⟩

/-- Who removes it, too. -/
theorem mayChange_of_removes (hsys : Reaches root guard sys) {r : Removal}
    (h : sys.Tells m i inv ⟨.removeState id, r⟩) : inv.mayChange id = true := by
  obtain ⟨hid, force, hdelete⟩ := (h.allowed hsys).1
  have hchanges : inv.verb.changes = true := by rw [hdelete]; rfl
  exact mayChange_iff.mpr ⟨hid.symm, hchanges, h.running.2, h.asks⟩

/-- Who may change the file after a step could before, or has just begun. -/
theorem mayChange_before (hstep : sys.step root m = some sys')
    (hinv' : sys'.invocations[i]? = some inv') (hmay : inv'.mayChange id = true) :
    (∃ inv, sys.invocations[i]? = some inv ∧ inv.mayChange id = true ∧
      (inv' = inv ∨ ∃ x, sys.Tells m i inv x ∧ inv'.told = inv.told ++ [x])) ∨
        ∃ v, m = .invoke v ∧ i = sys.invocations.length ∧ v.id = id ∧ v.changes = true ∧
          inv'.told = [] := by
  obtain ⟨hid, hchanges, hlive, hasks⟩ := mayChange_iff.mp hmay
  cases step_invocation hstep hinv' with
  | same hinv => exact .inl ⟨inv', hinv, hmay, .inl rfl⟩
  | @invoked v hm hi => exact .inr ⟨v, hm, hi, hid, hchanges, rfl⟩
  | exited hinv hm => cases hlive
  | @told inv x next htells hrest =>
    exact .inl ⟨inv, htells.running.1,
      mayChange_iff.mpr ⟨hid, hchanges, htells.running.2, htells.asks⟩, .inr ⟨x, htells, rfl⟩⟩

/-- The file is left alone in a step in which the one that may change it does not. -/
theorem Orderly.file_kept (h : sys.Orderly id) (hsys : Reaches root guard sys)
    (hstep : sys.step root m = some sys') (hinv : sys.invocations[i]? = some inv)
    (hmay : inv.mayChange id = true)
    (hquiet : ∀ x, sys.Tells m i inv x →
      (∀ st, x.question ≠ .writeState st) ∧ ∀ id, x.question ≠ .removeState id) :
    sys'.files id = sys.files id := by
  have heq : ∀ {j : Nat} {inv₁ : Invocation}, sys.invocations[j]? = some inv₁ →
      inv₁.mayChange id = true → j = i ∧ inv₁ = inv := by
    intro j inv₁ hinv₁ hmay₁
    obtain rfl := h.alone j i inv₁ inv hinv₁ hinv hmay₁ hmay
    rw [hinv] at hinv₁
    exact ⟨rfl, (Option.some.inj hinv₁).symm⟩
  rcases step_files hstep id with
    hsame | ⟨j, inv₁, st, r, htells, rfl, -, -⟩ | ⟨j, inv₁, r, htells, -, -⟩
  · exact hsame
  · obtain ⟨rfl, rfl⟩ := heq htells.running.1 (mayChange_of_writes hsys htells)
    exact absurd rfl ((hquiet _ htells).1 st)
  · obtain ⟨rfl, rfl⟩ := heq htells.running.1 (mayChange_of_removes hsys htells)
    exact absurd rfl ((hquiet _ htells).2 id)

/-- Who has questions left and has read the file has neither written nor removed it. -/
theorem quiet_of_asks (hsys : Reaches root guard sys) (hinv : sys.invocations[i]? = some inv)
    (hasks : inv.asks = true) (hcreates : inv.verb.creates = false) :
    ¬ inv.told.Writing ∧ ¬ inv.told.Removing := by
  have hwriting := keeps_run (Verb.keeps_rewrites root) hsys hinv
  have hremoving := (lawful hsys hinv).removal
  unfold Invocation.asks at hasks
  split at hasks
  · rename_i q next hrest
    rw [hrest] at hwriting hremoving
    exact ⟨(hwriting.1 hcreates).1, hremoving.1⟩
  · cases hasks

/-- What a `start` that has succeeded was told. -/
theorem restarts_of_hasStarted (hsys : Reaches root guard sys)
    (hinv : sys.invocations[i]? = some inv) (hok : inv.hasStarted id = true) :
    inv.verb = .start id ∧ ∃ st₀, inv.told.Read id st₀ ∧ st₀.status = .created ∧
      inv.told.Wrote { st₀ with status := .running } := by
  have hends := keeps_run (Verb.keeps_rewrites root) hsys hinv
  unfold Invocation.hasStarted at hok
  split at hok
  · rename_i hrest
    have hverb : inv.verb = .start id := eq_of_beq hok
    rw [hrest, hverb] at hends
    exact ⟨hverb, hends rfl⟩
  · cases hok

/-- A `create` reads nothing. -/
theorem not_creates_of_read (hsys : Reaches root guard sys)
    (hinv : sys.invocations[i]? = some inv) {st : State} (hread : inv.told.Read id st) :
    inv.verb.creates = false := by
  rw [← Bool.not_eq_true]
  intro hcreates
  cases hverb : inv.verb with
  | create id' bundle pidFile => exact (lawful hsys hinv).not_read_of_create hverb id st hread
  | start id' | state id' | kill id' sigText | delete id' force =>
    rw [hverb] at hcreates
    cases hcreates

theorem Orderly.step (h : sys.Orderly id) (hsys : Reaches root guard sys)
    (hturn : ByTurns id sys m) (hstep : sys.step root m = some sys') : sys'.Orderly id := by
  have hsys' : Reaches root Transition.Any sys' := .step hsys.any trivial hstep
  -- Where one begins no other was there.
  have hfirst : ∀ {v : Verb} {k : Nat} {inv : Invocation}, m = .invoke v → v.id = id →
      v.changes = true → sys.invocations[k]? = some inv → inv.mayChange id ≠ true := by
    intro v k inv hm hid hchanges hinv hmay
    subst hm
    have hall := hturn
    simp only [ByTurns, byTurns, hid, hchanges, beq_self_eq_true, Bool.and_self, Bool.not_true,
      Bool.false_or, List.all_eq_true] at hall
    have hnot := hall inv (List.mem_of_getElem? hinv)
    rw [hmay] at hnot
    cases hnot
  constructor
  · intro i j inv inv' hinv hinv' hmay hmay'
    rcases mayChange_before hstep hinv hmay with
      ⟨inv₀, hinv₀, hmay₀, -⟩ | ⟨v, hm, hi, hid, hchanges, -⟩
    · rcases mayChange_before hstep hinv' hmay' with
        ⟨inv₁, hinv₁, hmay₁, -⟩ | ⟨v, hm, hj, hid, hchanges, -⟩
      · exact h.alone i j inv₀ inv₁ hinv₀ hinv₁ hmay₀ hmay₁
      · exact absurd hmay₀ (hfirst hm hid hchanges hinv₀)
    · rcases mayChange_before hstep hinv' hmay' with
        ⟨inv₁, hinv₁, hmay₁, -⟩ | ⟨v', hm', hj, -⟩
      · exact absurd hmay₁ (hfirst hm hid hchanges hinv₁)
      · rw [hi, hj]
  · intro i inv' st hinv' hmay' hread
    have hcreates := not_creates_of_read hsys' hinv' hread
    have hquiet := quiet_of_asks hsys' hinv' (mayChange_iff.mp hmay').2.2.2 hcreates
    rcases mayChange_before hstep hinv' hmay' with
      ⟨inv, hinv, hmay, hsame⟩ | ⟨v, hm, hi, hid, hchanges, htold⟩
    · have hfile : sys'.files id = sys.files id := by
        refine h.file_kept hsys hstep hinv hmay fun x htells => ?_
        obtain ⟨next, -, hafter⟩ := htells.after hstep
        rw [hinv'] at hafter
        have hmem : x ∈ inv'.told := by
          rw [Option.some.inj hafter]
          exact List.mem_append_right _ (List.mem_singleton_self x)
        obtain ⟨q, r⟩ := x
        refine ⟨fun st hq => hquiet.1 ⟨st, ?_⟩, fun id hq => hquiet.2 ⟨id, ?_⟩⟩
        · dsimp only at hq
          subst hq
          exact ⟨r, hmem⟩
        · dsimp only at hq
          subst hq
          exact ⟨r, hmem⟩
      rw [hfile]
      rcases hsame with rfl | ⟨x, htells, htold⟩
      · exact h.current i _ st hinv hmay hread
      · rw [htold] at hread
        rcases List.mem_append.mp hread with hread | hread
        · exact h.current i inv st hinv hmay hread
        · rw [← List.mem_singleton.mp hread] at htells
          exact htells.read
    · rw [htold] at hread
      cases hread

theorem orderly (h : Reaches root (ByTurns id) sys) : sys.Orderly id := by
  refine h.invariant (I := Orderly id) ⟨fun i j inv inv' hinv => ?_, fun i inv st hinv => ?_⟩
    fun hsys ho hturn hstep => ho.step hsys hturn hstep
  · cases hinv
  · cases hinv

/-! ## One life -/

/-- What becomes of the state file while no `create` writes it. -/
theorem file_next (hsys : Reaches root (ByTurns id) sys)
    (huncreated : leftUncreated id sys m = true) (hstep : sys.step root m = some sys') :
    sys'.files id = sys.files id ∨ sys'.files id = none ∨
      ∃ (v : Verb) (st₀ st : State), sys.files id = some st₀ ∧ v.Writes st₀ st ∧
        sys'.files id = some st := by
  rcases step_files hstep id with
    hsame | ⟨i, inv, st, r, htells, rfl, -, hwrote⟩ | ⟨i, inv, r, -, -, hgone⟩
  · exact .inl hsame
  · by_cases hcreates : inv.verb.creates = true
    · unfold leftUncreated at huncreated
      split at huncreated
      · exact .inl (congrFun (files_of_fails hstep) _)
      · have hchecked := htells.checked huncreated
        simp only [notCreated, hcreates, beq_self_eq_true, Bool.and_self, Bool.not_true] at hchecked
        cases hchecked
    · rw [Bool.not_eq_true] at hcreates
      obtain ⟨-, hover⟩ := asks_of_tells (Verb.keeps_rewrites root) hsys htells hcreates
      obtain ⟨st₀, hread, hwrites⟩ := hover st rfl
      rw [← htells.writes_id hsys] at hread
      exact .inr (.inr ⟨inv.verb, st₀, st, (orderly hsys).current i inv st₀ htells.running.1
        (mayChange_of_writes hsys htells) hread, hwrites, hwrote⟩)
  · exact .inr (.inl hgone)

theorem ages_step (hsys : Reaches root (ByTurns id) sys)
    (huncreated : leftUncreated id sys m = true) (hstep : sys.step root m = some sys')
    {st' : State} (hst' : sys'.files id = some st') :
    ∃ st, sys.files id = some st ∧ st.Ages st' := by
  rcases file_next hsys huncreated hstep with hsame | hnone | ⟨v, st₀, st, hst₀, hwrites, hst⟩
  · exact ⟨st', hsame ▸ hst', .refl st'⟩
  · rw [hnone] at hst'
    cases hst'
  · rw [hst] at hst'
    cases hst'
    exact ⟨st₀, hst₀, hwrites.ages⟩

/-- Nothing but a `create` makes a container one that can be started. -/
theorem startable_step (hsys : Reaches root (ByTurns id) sys)
    (huncreated : leftUncreated id sys m = true) (hstep : sys.step root m = some sys') :
    sys'.startable id ≤ sys.startable id := by
  unfold startable
  rcases file_next hsys huncreated hstep with hsame | hnone | ⟨v, st₀, st, -, hwrites, hst⟩
  · rw [hsame]
  · rw [hnone]
    exact Nat.zero_le _
  · have hnot : st.status ≠ .created := by
      cases hwrites with
      | started hv hcreated => exact fun h => by cases h
      | stopped hv => exact fun h => by cases h
    rw [hst]
    show (if st.status = .created then 1 else 0) ≤ _
    rw [if_neg hnot]
    exact Nat.zero_le _

/-- A `start` returns `Ok` in the step that records `running` over `created`. -/
theorem startable_of_returns (hsys : Reaches root (ByTurns id) sys)
    (hstep : sys.step root m = some sys') (htells : sys.Tells m i inv x)
    (hinv' : sys'.invocations[i]? = some inv') (hok : inv'.hasStarted id = true) :
    sys.startable id = 1 ∧ sys'.startable id = 0 := by
  have hsys' : Reaches root Transition.Any sys' := .step hsys.any trivial hstep
  obtain ⟨next, -, hafter⟩ := htells.after hstep
  have hafter := Option.some.inj (hinv'.symm.trans hafter)
  have hsame : inv'.verb = inv.verb := by rw [hafter]
  have htold : inv'.told = inv.told ++ [x] := by rw [hafter]
  obtain ⟨hverb, st₀, hread, hcreated, hwrote⟩ := restarts_of_hasStarted hsys' hinv' hok
  rw [htold] at hread hwrote
  rw [hsame] at hverb
  have hunwritten := (quiet_of_asks hsys htells.running.1 htells.asks (by rw [hverb]; rfl)).1
  rcases List.mem_append.mp hwrote with hwrote | hwrote
  · exact absurd ⟨_, _, hwrote⟩ hunwritten
  · rw [← List.mem_singleton.mp hwrote] at htells hread
    have hid : st₀.id = id := by
      have hid : st₀.id = inv.verb.id := htells.writes_id hsys
      rw [hid, hverb]
      rfl
    have hmay := mayChange_of_writes hsys htells
    change inv.mayChange st₀.id = true at hmay
    rw [hid] at hmay
    rcases List.mem_append.mp hread with hread | hread
    · have hfile : sys.files id = some st₀ :=
        (orderly hsys).current i inv st₀ htells.running.1 hmay hread
      have hfile' : sys'.files id = some { st₀ with status := .running } := by
        rw [← hid]
        exact htells.wrote hstep
      unfold startable
      rw [hfile, hfile']
      exact ⟨if_pos hcreated, rfl⟩
    · cases List.mem_singleton.mp hread

/-- Whether a step makes a `start` succeed. -/
theorem started_cases (hsys' : Reaches root guard sys') (hstep : sys.step root m = some sys') :
    sys'.started id ≤ sys.started id ∨ sys'.started id ≤ sys.started id + 1 ∧
      ∃ i inv x inv', sys.Tells m i inv x ∧ sys'.invocations[i]? = some inv' ∧
        inv'.hasStarted id = true := by
  have hset : ∀ {i : Nat} {inv : Invocation} (inv' : Invocation), sys.invocations[i]? = some inv →
      (sys.invocations.set i inv').countP (fun inv => inv.hasStarted id) =
        sys.started id - (if inv.hasStarted id then 1 else 0) +
          if inv'.hasStarted id then 1 else 0 := by
    intro i inv inv' hinv
    obtain ⟨hi, hget⟩ := List.getElem?_eq_some_iff.mp hinv
    rw [List.countP_set hi, hget]
    rfl
  cases step_moved hstep with
  | invoke v =>
    refine .inl ?_
    unfold started
    rw [List.countP_append, List.countP_singleton, if_neg]
    · exact Nat.le_refl _
    · intro hok
      obtain ⟨-, st₀, hread, -⟩ :=
        restarts_of_hasStarted hsys' List.getElem?_concat_length hok
      cases hread
  | @answer i c inv x next sys₁ htells hrest hans =>
    have hcount := hset ⟨inv.verb, inv.told ++ [x], next x.reply, sys.clock, false⟩
      htells.running.1
    by_cases hok : Invocation.hasStarted
        ⟨inv.verb, inv.told ++ [x], next x.reply, sys.clock, false⟩ id = true
    · rw [if_pos hok] at hcount
      refine .inr ⟨?_, i, inv, x, _, htells, ?_, hok⟩
      · exact hcount.le.trans (Nat.add_le_add_right (Nat.sub_le _ _) 1)
      · exact List.getElem?_set_self (List.getElem?_eq_some_iff.mp htells.running.1).1
    · rw [if_neg hok] at hcount
      exact .inl (hcount.le.trans (Nat.sub_le _ _))
  | @exit i inv hinv =>
    refine .inl ?_
    have hcount := hset { inv with exited := true } hinv
    have hsame : Invocation.hasStarted { inv with exited := true } id = inv.hasStarted id := rfl
    rw [hsame] at hcount
    refine hcount.le.trans ?_
    by_cases hok : inv.hasStarted id = true
    · have hpos : 0 < sys.started id :=
        List.countP_pos_iff.mpr ⟨inv, List.mem_of_getElem? hinv, hok⟩
      rw [if_pos hok]
      omega
    · rw [if_neg hok]
      exact Nat.le_refl _
  | proxy hr hp => exact .inl (Nat.le_refl _)
  | die htaken => exact .inl (Nat.le_refl _)
  | reap pid => exact .inl (Nat.le_refl _)
  | fork hpos hfree => exact .inl (Nat.le_refl _)
  | tick ms => exact .inl (Nat.le_refl _)

/-- A `start` that succeeds uses up the `created` that it has found. -/
theorem started_step (hsys : Reaches root (ByTurns id) sys)
    (huncreated : leftUncreated id sys m = true) (hstep : sys.step root m = some sys') :
    sys'.started id + sys'.startable id ≤ sys.started id + sys.startable id := by
  have hsys' : Reaches root Transition.Any sys' := .step hsys.any trivial hstep
  rcases started_cases hsys' hstep with hle | ⟨hle, i, inv, x, inv', htells, hinv', hok⟩
  · exact Nat.add_le_add hle (startable_step hsys huncreated hstep)
  · obtain ⟨hbefore, hafter⟩ := startable_of_returns hsys hstep htells hinv' hok
    rw [hbefore, hafter]
    exact hle

/-- **A container's life goes one way.**  In every run in which the verbs that may change the
state file of a container run one after the other, and from any state of it until a `create`
writes that file again: a file that is there is that of the same container and process as
before, with a status that has not gone back; what was not there stays away; and one `start`
succeeds at most, and only where `created` was recorded. -/
theorem life_goes_one_way (root id : String) (sys sys' : System)
    (h : Reaches root (ByTurns id) sys)
    (hlife : Transition.Reaches (step root) (InOneLife id) sys sys') :
    (∀ st', sys'.files id = some st' → ∃ st, sys.files id = some st ∧ st.Ages st') ∧
      sys'.started id ≤ sys.started id + sys.startable id := by
  have hinit : Reaches root (ByTurns id) sys ∧
      (∀ st', sys.files id = some st' → ∃ st, sys.files id = some st ∧ st.Ages st') ∧
      sys.started id + sys.startable id ≤ sys.started id + sys.startable id :=
    ⟨h, fun st' hst' => ⟨st', hst', .refl st'⟩, Nat.le_refl _⟩
  obtain ⟨-, hages, hstarted⟩ := hlife.invariant (I := fun sys' => Reaches root (ByTurns id) sys' ∧
    (∀ st', sys'.files id = some st' → ∃ st, sys.files id = some st ∧ st.Ages st') ∧
    sys'.started id + sys'.startable id ≤ sys.started id + sys.startable id) hinit (by
      rintro s s' m - ⟨hs, hages, hstarted⟩ ⟨hturn, huncreated⟩ hstep
      refine ⟨.step hs hturn hstep, fun st' hst' => ?_,
        (started_step hs huncreated hstep).trans hstarted⟩
      obtain ⟨st₁, hst₁, hlater⟩ := ages_step hs huncreated hstep hst'
      obtain ⟨st, hst, hearlier⟩ := hages st₁ hst₁
      exact ⟨st, hst, hearlier.trans hlater⟩)
  exact ⟨hages, (Nat.le_add_right _ _).trans hstarted⟩

/-- A container is created. -/
def createdOnce : List SystemMove :=
  .invoke (.create "a" "/b" none) :: creates 0 (labelled "usb:3-6") 100 ++
    List.replicate 5 (.advance 100)

/-- It is started while somebody asks for its state, killed, and started once more. -/
def startedTwice : List SystemMove :=
  [.invoke (.start "a"), .answer 1 .goes, .invoke (.state "a"), .answer 2 .goes, .answer 1 .goes,
    .answer 1 .goes, .invoke (.kill "a" "TERM"), .answer 3 .goes, .answer 3 .goes, .answer 3 .goes,
    .answer 2 .goes, .answer 3 .goes, .invoke (.start "a"), .answer 4 .goes]

theorem startedTwice_leads :
    ((after "/run/runtt" (ByTurns "a") createdOnce).any fun sys =>
      (startedTwice.foldlM (Transition.guarded (step "/run/runtt") (InOneLife "a")) sys).any
        fun sys' => (sys'.files "a").any (fun st => decide (st.status = .stopped)) &&
          decide (sys.started "a" = 0 ∧ sys.startable "a" = 1 ∧ 0 < sys'.started "a")) = true := by
  decide +kernel

theorem life_goes_one_way_example :
    ∃ sys sys', after "/run/runtt" (ByTurns "a") createdOnce = some sys ∧
      startedTwice.foldlM (Transition.guarded (step "/run/runtt") (InOneLife "a")) sys =
        some sys' ∧
      (sys'.files "a").any (fun st => decide (st.status = .stopped)) = true ∧
      sys'.started "a" = 1 := by
  obtain ⟨sys, hcreated, hlater⟩ := (Option.any_eq_true _ _).mp startedTwice_leads
  obtain ⟨sys', hlater, hends⟩ := (Option.any_eq_true _ _).mp hlater
  simp only [Bool.and_eq_true, decide_eq_true_eq] at hends
  obtain ⟨hstopped, hnone, hone, hsome⟩ := hends
  obtain ⟨-, hstarted⟩ := life_goes_one_way "/run/runtt" "a" _ _
    (.run .refl hcreated) (.run .refl hlater)
  rw [hnone, hone] at hstarted
  exact ⟨sys, sys', hcreated, hlater, hstopped, Nat.le_antisymm hstarted hsome⟩

end System
end Runtt
