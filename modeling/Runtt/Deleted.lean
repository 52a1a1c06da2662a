import Runtt.Orphans

/-! # A state file that comes back

`start` and `kill` read the state file, do something, and write it again; nothing stops a
`delete` in between, and `state::write` makes the directory it needs.  And a `delete --force`
takes any failure of its read for a file that is not there.
-/
namespace Runtt

open Interaction Program SysM

/-- The signal is one after which `kill` records `stopped`. -/
def terminal (sig : Nat) : Bool := sig == SIGKILL || sig == SIGTERM || sig == SIGINT

namespace Verb

/-- The verb reads the state file and writes it again. -/
def rewrites : Verb → Bool
  | .start _ => true
  | .kill _ sigText =>
    match parseSignal sigText with
    | .ok sig => terminal sig
    | .error _ => false
  | _ => false

def creates : Verb → Bool
  | .create _ _ _ => true
  | _ => false

/-- A `delete --force`. -/
def forces : Verb → Bool
  | .delete _ force => force
  | _ => false

end Verb

/-- What a verb may ask as far as the state file goes: only some verbs write it, and
`delete --force` is over when it could not read it. -/
def Minds (v : Verb) (t : Told) (q : Sys) : Prop :=
  (∀ st, q = .writeState st → v.rewrites = true ∨ v.creates = true) ∧
    (v.forces = true → ∀ id, ¬ t.Unread id)

/-! ## Which verbs write -/

section Minds
variable {α : Type} {t : Told}

/-- What is left of a verb minds the state file. -/
abbrev Verb.Minding (v : Verb) (t : Told) (p : SysM α) : Prop :=
  Promises (Minds v) (fun _ _ => True) (fun _ _ => True) t p

/-- The program neither reads nor writes a state file. -/
abbrev HandsOff (t : Told) (p : SysM α) : Prop :=
  Promises (fun _ q => (∀ st, q ≠ .writeState st) ∧ ∀ id, q ≠ .readState id) (fun _ _ => True)
    (fun _ _ => True) t p

theorem removeState_handsOff (id : String) : HandsOff t (removeState id) :=
  promises_removeState (by simp) trivial fun _ _ _ => trivial

theorem deleteRecorded_handsOff (id : String) (force : Bool) (st : State) :
    HandsOff t (deleteRecorded id force st) := by
  refine promises_bind.mpr ((promises_recordedAlive (by simp)).mono (fun t alive hpos => ?_)
    fun _ _ (h : True) => h)
  split
  · exact trivial
  · split
    · rename_i pid hpid
      split
      · rename_i halive
        refine promises_ask_bind (by simp) fun r => ?_
        exact promises_bind.mpr (promises_awaitExit (hpos pid hpid halive) (by simp)
          (fun _ _ _ _ => removeState_handsOff id) fun _ _ _ _ _ _ => removeState_handsOff id)
      · exact removeState_handsOff id
    · exact removeState_handsOff id

theorem Told.not_unread_append {x : Exchange Sys.Reply} (ht : ∀ id, ¬ t.Unread id)
    (hx : ∀ id, x.question ≠ .readState id) : ∀ id, ¬ Told.Unread (t ++ [x]) id := by
  rintro id ⟨e, hmem⟩
  rcases List.mem_append.mp hmem with hmem | hmem
  · exact ht id ⟨e, hmem⟩
  · exact hx id (congrArg Exchange.question (List.mem_singleton.mp hmem)).symm

/-- Where no read has failed, none will. -/
theorem HandsOff.minding {p : SysM α} (h : HandsOff t p) (ht : ∀ id, ¬ t.Unread id) (v : Verb) :
    v.Minding t p := by
  have hcarry := Keeps.carry (J := fun t => ∀ id, ¬ Told.Unread t id) h ht
    fun t q r hq ht => Told.not_unread_append ht hq.2
  refine hcarry.mono (fun t q hq => ?_) fun t o _ => ?_
  · exact ⟨fun st hst => absurd hst (hq.1.1 st), fun _ => hq.2⟩
  · cases o with
    | ok a => exact trivial
    | error e => exact trivial

/-- `delete` writes nothing, and asks nothing once a read has failed. -/
theorem delete_minding (root id : String) (force : Bool) :
    (Verb.delete id force).Minding [] (delete root id force) := by
  have hread : Minds (.delete id force) [] (.readState id) := by
    refine ⟨fun _ hst => (nomatch hst), ?_⟩
    rintro - id' ⟨e, hmem⟩
    cases hmem
  refine promises_bind.mpr (promises_rescue.mpr (promises_bind.mpr (promises_readState hread
    (fun st => ?_) (fun e _ => ?_) fun e _ => ?_)))
  · refine promises_pure.mpr ((deleteRecorded_handsOff id force st).minding ?_ _)
    rintro id' ⟨e, hmem⟩
    cases List.mem_singleton.mp hmem
  · cases force with
    | false => exact trivial
    | true => exact trivial
  · cases force with
    | false => exact trivial
    | true => exact trivial

/-- The program does not write a state file. -/
abbrev Silent (t : Told) (p : SysM α) : Prop :=
  Promises (fun _ q => ∀ st, q ≠ .writeState st) (fun _ _ => True) (fun _ _ => True) t p

theorem printState_silent (root id : String) : Silent t (printState root id) := by
  have hprint : ∀ {t : Told} (st : State), Silent t (ask (.print st)) :=
    fun st => ⟨by simp, fun _ => trivial⟩
  refine promises_bind.mpr (promises_readState (by simp) (fun st => ?_) (fun _ _ => trivial)
    fun _ _ => trivial)
  split
  · split
    · exact hprint _
    · refine promises_bind.mpr (promises_isAlive (by simp) (fun _ => hprint _) fun b _ => ?_)
      split
      · exact hprint _
      · exact hprint _
  · exact hprint _

theorem killRecord_silent {sig : Nat} (hsig : terminal sig = false) (st : State) :
    Silent t (killRecord st sig) := by
  have hnot : ¬ (sig = SIGKILL ∨ sig = SIGTERM ∨ sig = SIGINT) := by
    intro h
    simp only [terminal, Bool.or_eq_false_iff, beq_eq_false_iff_ne] at hsig
    rcases h with h | h | h
    · exact hsig.1.1 h
    · exact hsig.1.2 h
    · exact hsig.2 h
  rw [killRecord, if_neg hnot]
  exact trivial

theorem kill_silent (root id sigText : String)
    (hrewrites : (Verb.kill id sigText).rewrites = false) : Silent t (kill root id sigText) := by
  refine promises_bind.mpr (promises_readState (by simp) (fun st => ?_) (fun _ _ => trivial)
    fun _ _ => trivial)
  cases hsig : parseSignal sigText with
  | error e => exact trivial
  | ok sig =>
    have hterminal : terminal sig = false := by
      rw [Verb.rewrites, hsig] at hrewrites
      exact hrewrites
    refine promises_bind.mpr (promises_pure.mpr ?_)
    split
    · exact killRecord_silent hterminal st
    · refine promises_bind.mpr (promises_isAlive (by simp)
        (fun _ => killRecord_silent hterminal st) fun b _ => ?_)
      split
      · exact promises_bind.mpr (promises_context (promises_signal (by simp)
          (fun _ _ => killRecord_silent hterminal st) fun _ _ _ => trivial))
      · exact killRecord_silent hterminal st

theorem Silent.minding {p : SysM α} (h : Silent t p) {v : Verb} (hv : v.forces = false) :
    v.Minding t p := by
  refine Keeps.mono h (fun t q hq => ⟨fun st hst => absurd hst (hq st), fun hforces => ?_⟩)
    fun _ _ ho => ho
  rw [hv] at hforces
  cases hforces

/-- **What every verb does to the state file**: only a `create`, a `start` and a `kill` by
certain signals write it, and a `delete --force` asks nothing once a read has failed. -/
theorem Verb.keeps_minding (root : String) (v : Verb) :
    Keeps (Minds v) (fun _ _ => True) [] (v.program root).run := by
  have hends : ∀ {p : SysM Unit}, v.Minding [] p → Keeps (Minds v) (fun _ _ => True) [] p.run :=
    fun h => Keeps.mono h (fun _ _ hq => hq) fun _ _ _ => trivial
  have hwriter : v.rewrites = true ∨ v.creates = true → v.forces = false →
      Keeps (Minds v) (fun _ _ => True) [] (v.program root).run := by
    intro hwrites hforces
    refine (v.keeps root).mono (fun t q _ => ⟨fun _ _ => hwrites, fun h => ?_⟩) fun _ _ _ => trivial
    rw [hforces] at h
    cases h
  cases v with
  | create id bundle pidFile => exact hwriter (.inr rfl) rfl
  | start id => exact hwriter (.inl rfl) rfl
  | state id => exact hends ((printState_silent root id).minding rfl)
  | kill id sigText =>
    by_cases hrewrites : (Verb.kill id sigText).rewrites = true
    · exact hwriter (.inl hrewrites) rfl
    · exact hends ((kill_silent root id sigText (Bool.eq_false_iff.mpr hrewrites)).minding rfl)
  | delete id force => exact hends (delete_minding root id force)

end Minds

/-! ## Who may still write -/

/-- The state file of `id` was read. -/
def Told.hasRead (t : Told) (id : String) : Bool :=
  t.any fun
    | ⟨.readState id', Except.ok _⟩ => id' == id
    | _ => false

theorem Told.hasRead_iff {t : Told} {id : String} : t.hasRead id = true ↔ ∃ st, t.Read id st := by
  rw [hasRead, List.any_eq_true]
  constructor
  · rintro ⟨⟨q, r⟩, hx, hread⟩
    split at hread
    · rename_i id' st heq
      rw [heq, eq_of_beq hread] at hx
      exact ⟨st, hx⟩
    · cases hread
  · rintro ⟨st, hread⟩
    exact ⟨_, hread, beq_self_eq_true id⟩

/-- The invocation has questions left. -/
def Invocation.asks (inv : Invocation) : Bool :=
  match inv.rest with
  | .ask _ _ => true
  | .done _ => false

/-- The invocation has read the state file of its container, and may still write it. -/
def Invocation.mayRewrite (inv : Invocation) : Bool :=
  inv.verb.rewrites && !inv.exited && inv.asks && inv.told.hasRead inv.verb.id

namespace System

/-- Nobody has read the state file of the container and may still write it. -/
def nobodyRewrites (sys : System) (id : String) : Bool :=
  sys.invocations.all fun inv => !(inv.verb.id == id && inv.mayRewrite)

/-- The state file of `id` is removed while no `start` or `kill` that has read it may still
write it, and `delete --force` fails to read it only when it is not there. -/
def removesAlone (id : String) : System → Invocation → Exchange Sys.Reply → Bool
  | sys, _, ⟨.removeState id', .removed⟩ => id' != id || sys.nobodyRewrites id
  | sys, _, ⟨.removeState id', .failed _ true⟩ => id' != id || sys.nobodyRewrites id
  | sys, inv, ⟨.readState id', .error _⟩ =>
    id' != id || !inv.verb.forces || (sys.files id).isNone
  | _, _, _ => true

/-- No removal overtakes a `start` or a `kill`, and what is not read is not there. -/
def RemovesAlone (id : String) (sys : System) (m : SystemMove) : Prop :=
  sys.checks (removesAlone id) m = true

/-- The exchange is not the write of a `create` of the container. -/
def notCreated (id : String) : System → Invocation → Exchange Sys.Reply → Bool
  | _, inv, ⟨.writeState st, _⟩ => !(inv.verb.creates && st.id == id)
  | _, _, _ => true

/-- No `create` writes the state file of the container in the step. -/
def leftUncreated (id : String) (sys : System) : SystemMove → Bool
  | .answer _ (.fails _) => true
  | m => sys.checks (notCreated id) m

/-- The same, until a `create` writes the state file of the container. -/
def UntilCreated (id : String) (sys : System) (m : SystemMove) : Prop :=
  RemovesAlone id sys m ∧ leftUncreated id sys m = true

instance (id : String) (sys : System) (m : SystemMove) : Decidable (RemovesAlone id sys m) :=
  inferInstanceAs (Decidable (_ = true))

instance (id : String) (sys : System) (m : SystemMove) : Decidable (UntilCreated id sys m) :=
  inferInstanceAs (Decidable (_ ∧ _))

/-- A `delete` of the container returns `Ok` in the step from `sys` to `sys'`. -/
def DeleteReturns (id : String) (sys sys' : System) : Prop :=
  ∃ (i : Nat) (inv : Invocation) (force : Bool), sys'.invocations[i]? = some inv ∧
    inv.verb = .delete id force ∧ inv.rest = .done (.ok ()) ∧ ¬ sys.Succeeded i

variable {sys sys' : System} {root : String} {m : SystemMove} {i : Nat} {inv inv' : Invocation}
  {id : String} {guard : System → SystemMove → Prop}

/-! ## What becomes of the state file -/

/-- What is written over a state that was read is written by a `start` or a `kill` that has
not ended. -/
theorem mayRewrite_of_writes (hsys : Reaches root guard sys) {st : State} {r : Except Error Unit}
    (htells : sys.Tells m i inv ⟨.writeState st, r⟩) (hcreates : inv.verb.creates = false) :
    inv.mayRewrite = true ∧ inv.verb.id = st.id := by
  obtain ⟨_, next, _, -, -, hlive, hrest, -⟩ := tells_iff.mp htells
  have hrewrites : inv.verb.rewrites = true := by
    rcases (asks_of_tells (Verb.keeps_minding root) hsys htells).1 st rfl with h | h
    · exact h
    · rw [hcreates] at h
      cases h
  rcases (htells.allowed hsys).1 with
    ⟨bundle, pidFile, args, pid, hverb, -⟩ | ⟨st₀, status, hread, rfl⟩
  · rw [hverb] at hcreates
    cases hcreates
  · refine ⟨?_, (htells.writes_id hsys).symm⟩
    have hasks : inv.asks = true := by rw [Invocation.asks, hrest]
    rw [Invocation.mayRewrite, hrewrites, hlive, hasks, Told.hasRead_iff.mpr ⟨st₀, hread⟩]
    rfl

/-- Who may write the state file after a step could do so before, or has just read it. -/
theorem mayRewrite_before (hstep : sys.step root m = some sys')
    (hinv' : sys'.invocations[i]? = some inv') (hmay : inv'.mayRewrite = true) :
    (∃ inv, sys.invocations[i]? = some inv ∧ inv.verb = inv'.verb ∧ inv.mayRewrite = true) ∨
      ∃ inv st, sys.Tells m i inv ⟨.readState inv'.verb.id, Except.ok st⟩ := by
  cases step_invocation hstep hinv' with
  | same hinv => exact .inl ⟨inv', hinv, rfl, hmay⟩
  | @invoked v hm hi =>
    have hread : Told.hasRead [] v.id = true := (Bool.and_eq_true_iff.mp hmay).2
    cases hread
  | @exited inv hinv hm =>
    simp only [Invocation.mayRewrite, Bool.not_true, Bool.and_false, Bool.false_and] at hmay
    cases hmay
  | @told inv x next htells hrest =>
    simp only [Invocation.mayRewrite, Bool.and_eq_true] at hmay
    obtain ⟨st, hread⟩ := Told.hasRead_iff.mp hmay.2
    rcases List.mem_append.mp hread with hread | hread
    · refine .inl ⟨inv, htells.running.1, rfl, ?_⟩
      have hasks : inv.asks = true := by rw [Invocation.asks, hrest]
      rw [Invocation.mayRewrite, hmay.1.1.1, htells.running.2, hasks,
        Told.hasRead_iff.mpr ⟨st, hread⟩]
      rfl
    · exact .inr ⟨inv, st, (List.mem_singleton.mp hread) ▸ htells⟩

/-- A removal that meets the guard finds nobody who may write the file again. -/
theorem not_mayRewrite_of_removes (hguard : RemovesAlone id sys m) {r : Removal}
    (htells : sys.Tells m i inv ⟨.removeState id, r⟩)
    (hgone : r = .removed ∨ ∃ e, r = .failed e true) {j : Nat}
    (hinv' : sys.invocations[j]? = some inv') (hid : inv'.verb.id = id) :
    inv'.mayRewrite = false := by
  have hnobody : sys.nobodyRewrites id = true := by
    have hchecked := htells.checked hguard
    rcases hgone with rfl | ⟨e, rfl⟩
    · simpa [removesAlone] using hchecked
    · simpa [removesAlone] using hchecked
  have hall := List.all_eq_true.mp hnobody inv' (List.mem_of_getElem? hinv')
  rw [hid, beq_self_eq_true, Bool.true_and, Bool.not_eq_true'] at hall
  exact hall

/-- While there is no state file, nobody may write one again. -/
theorem not_mayRewrite_of_none (h : Reaches root (RemovesAlone id) sys)
    (hnone : sys.files id = none) (hinv : sys.invocations[i]? = some inv)
    (hid : inv.verb.id = id) : inv.mayRewrite = false := by
  refine h.invariant (I := fun sys => sys.files id = none → ∀ i inv,
    sys.invocations[i]? = some inv → inv.verb.id = id → inv.mayRewrite = false)
    (fun _ i inv hinv => by cases hinv) ?_ hnone i inv hinv hid
  intro sys sys' m hsys ih hguard hstep hnone i inv' hinv' hid
  by_contra hmay
  rw [Bool.not_eq_false] at hmay
  rcases step_files hstep id with
    hsame | ⟨j, inv, st, r, htells, -, -, hwrote⟩ | ⟨j, inv, r, htells, hgone, -⟩
  · rw [hsame] at hnone
    rcases mayRewrite_before hstep hinv' hmay with ⟨inv, hinv, hverb, hold⟩ | ⟨inv, st, hreads⟩
    · rw [ih hnone i inv hinv (hverb ▸ hid)] at hold
      cases hold
    · have hfile := hreads.read
      rw [hid, hnone] at hfile
      cases hfile
  · rw [hnone] at hwrote
    cases hwrote
  · rcases mayRewrite_before hstep hinv' hmay with ⟨inv₀, hinv, hverb, hold⟩ | ⟨inv₀, st, hreads⟩
    · rw [not_mayRewrite_of_removes hguard htells hgone hinv (hverb ▸ hid)] at hold
      cases hold
    · cases (htells.unique hreads).2.2

/-- A state file that is there is that of a valid id. -/
theorem valid_of_file (h : Reaches root guard sys) {st : State} (hst : sys.files id = some st) :
    validateContainerId id = .ok () := by
  have hvalid : validateContainerId st.id = .ok () :=
    (allStates (P := fun st => validateContainerId st.id = .ok ()) h (fun _ _ _ hvalid => hvalid)
      fun _ _ hvalid => hvalid).file id st hst
  rw [files_id h hst] at hvalid
  exact hvalid

/-! ## Deleted is deleted -/

/-- A read of a `delete --force` that fails and meets the guard found no file. -/
theorem file_of_unread (hguard : RemovesAlone id sys m) (hstep : sys.step root m = some sys')
    {e : String} (htells : sys.Tells m i inv ⟨.readState id, Except.error e⟩)
    (hforces : inv.verb.forces = true) : sys'.files id = none := by
  have hchecked := htells.checked hguard
  have hnone : sys.files id = none := by simpa [removesAlone, hforces] using hchecked
  rcases step_files hstep id with hsame | ⟨j, inv₁, st, r, hwrites, -⟩ | ⟨j, inv₁, r, -, -, hgone⟩
  · rw [hsame, hnone]
  · cases (htells.unique hwrites).2.2
  · exact hgone

/-- A `delete` returns `Ok` in the step that removes the state file, or in one where there is
none. -/
theorem file_of_returns (hsys : Reaches root guard sys) (hguard : RemovesAlone id sys m)
    (hstep : sys.step root m = some sys') (hreturns : DeleteReturns id sys sys') :
    sys'.files id = none := by
  obtain ⟨i, inv', force, hinv', hverb, hrest, hfirst⟩ := hreturns
  have hsys' : Reaches root Transition.Any sys' := .step hsys.any trivial hstep
  have hkeeps := (lawful hsys' hinv').keeps
  rw [hverb, hrest] at hkeeps
  have hinvalid : validateContainerId id ≠ .ok () → sys'.files id = none := by
    intro hnot
    cases hfile : sys'.files id with
    | none => rfl
    | some st => exact absurd (valid_of_file hsys' hfile) hnot
  cases step_invocation hstep hinv' with
  | same hinv => exact absurd ⟨inv', hinv, hrest⟩ hfirst
  | @exited inv hinv hm => exact absurd ⟨inv, hinv, hrest⟩ hfirst
  | invoked hm hi =>
    rcases hkeeps with ⟨-, hnot | ⟨e, hmem⟩⟩ | ⟨st, hmem, -⟩
    · exact hinvalid hnot
    · cases hmem
    · cases hmem
  | @told inv x next htells hasks =>
    -- What is told last is the removal, or the failed read.
    rcases hkeeps with ⟨hforce, hnot | ⟨e, hunread⟩⟩ | ⟨st, -, hremoved, -⟩
    · exact hinvalid hnot
    · have hforces : inv.verb.forces = true := (congrArg Verb.forces hverb).trans hforce
      rcases List.mem_append.mp hunread with hunread | hunread
      · have hminds := asks_of_tells (Verb.keeps_minding root) hsys htells
        exact absurd ⟨e, hunread⟩ (hminds.2 hforces id)
      · rw [← List.mem_singleton.mp hunread] at htells
        exact file_of_unread hguard hstep htells hforces
    · rcases List.mem_append.mp hremoved with hremoved | hremoved
      · have hdone := (lawful hsys htells.running.1).done_of_removed hremoved
        rw [hasks] at hdone
        cases hdone
      · rw [← List.mem_singleton.mp hremoved] at htells
        exact htells.removed hstep

/-- Where there is no state file, only a `create` makes one. -/
theorem file_step (hsys : Reaches root (RemovesAlone id) sys) (hnone : sys.files id = none)
    (huncreated : leftUncreated id sys m = true) (hstep : sys.step root m = some sys') :
    sys'.files id = none := by
  rcases step_files hstep id with
    hsame | ⟨i, inv, st, r, htells, hid, -, -⟩ | ⟨i, inv, r, -, -, hgone⟩
  · rw [hsame, hnone]
  · by_cases hcreates : inv.verb.creates = true
    · unfold leftUncreated at huncreated
      split at huncreated
      · rw [files_of_fails hstep, hnone]
      · have hchecked := htells.checked huncreated
        simp only [notCreated, hcreates, hid, beq_self_eq_true, Bool.and_self, Bool.not_true]
          at hchecked
        cases hchecked
    · rw [Bool.not_eq_true] at hcreates
      obtain ⟨hmay, hverb⟩ := mayRewrite_of_writes hsys htells hcreates
      rw [not_mayRewrite_of_none hsys hnone htells.running.1 (hverb.trans hid)] at hmay
      cases hmay
  · exact hgone

/-- **A deleted container stays deleted** in every run in which its state file is not removed
while a `start` or a `kill` that has read it may still write it, and no `delete --force` fails
to read it while it is there: once a `delete` has returned `Ok`, there is no state file until a
`create` writes one. -/
theorem deleted_stays_deleted (root id : String) (sys sys' sys'' : System) (m : SystemMove)
    (h : Reaches root (RemovesAlone id) sys) (hguard : RemovesAlone id sys m)
    (hstep : sys.step root m = some sys') (hreturns : DeleteReturns id sys sys')
    (hlater : Transition.Reaches (step root) (UntilCreated id) sys' sys'') :
    sys''.files id = none := by
  have hinit : Reaches root (RemovesAlone id) sys' ∧ sys'.files id = none :=
    ⟨.step h hguard hstep, file_of_returns h hguard hstep hreturns⟩
  refine (hlater.invariant (I := fun sys => Reaches root (RemovesAlone id) sys ∧
    sys.files id = none) hinit ?_).2
  rintro sys sys' m - ⟨hsys, hnone⟩ ⟨hguard, huncreated⟩ hstep
  exact ⟨.step hsys hguard hstep, file_step hsys hnone huncreated hstep⟩

/-- A container is started, and a `delete` is about to remove its state file. -/
def aboutToDelete : List SystemMove :=
  .invoke (.create "a" "/b" none) :: creates 0 (labelled "usb:3-6") 100 ++
    List.replicate 5 (.advance 100) ++
    [.invoke (.start "a"), .answer 1 .goes, .answer 1 .goes, .answer 1 .goes, .die 100, .reap 100,
      .invoke (.delete "a" false), .answer 2 .goes, .answer 2 .goes]

/-- It is killed and deleted once more. -/
def deletedAgain : List SystemMove :=
  [.invoke (.kill "a" "KILL"), .answer 3 (.unread "No such file or directory"),
    .invoke (.delete "a" true), .answer 4 (.unread "No such file or directory")]

theorem deleted_stays_deleted_example :
    ∃ sys sys' sys'', after "/run/runtt" (RemovesAlone "a") aboutToDelete = some sys ∧
      sys.step "/run/runtt" (.answer 2 .goes) = some sys' ∧
      deletedAgain.foldlM (Transition.guarded (step "/run/runtt") (UntilCreated "a")) sys' =
        some sys'' ∧
      (sys.files "a").isSome = true ∧ sys''.files "a" = none := by
  have hrun : (after "/run/runtt" (RemovesAlone "a") aboutToDelete).isSome = true := rfl
  have hstep : (((after "/run/runtt" (RemovesAlone "a") aboutToDelete).get hrun).step "/run/runtt"
      (.answer 2 .goes)).isSome = true := rfl
  have hlater : (deletedAgain.foldlM (Transition.guarded (step "/run/runtt") (UntilCreated "a"))
      (Option.get _ hstep)).isSome = true := rfl
  refine ⟨_, _, _, (Option.some_get hrun).symm, (Option.some_get hstep).symm,
    (Option.some_get hlater).symm, rfl, ?_⟩
  refine deleted_stays_deleted "/run/runtt" "a" _ _ _ (.answer 2 .goes) (reaches_after hrun) rfl
    (Option.some_get hstep).symm ⟨2, _, false, rfl, rfl, rfl, ?_⟩
    (.run .refl (Option.some_get hlater).symm)
  rintro ⟨inv, hinv, hrest⟩
  cases hinv
  cases hrest

/-- A `delete` overtakes a `start` that has sent its signal and not written the state yet. -/
def overtakesStart : List SystemMove :=
  .invoke (.create "a" "/b" none) :: creates 0 (labelled "usb:3-6") 100 ++
    List.replicate 5 (.advance 100) ++
    [.invoke (.start "a"), .answer 1 .goes, .answer 1 .goes, .invoke (.delete "a" false),
      .answer 2 .goes, .answer 2 .goes, .answer 2 .goes, .answer 2 .goes, .answer 2 .goes,
      .die 100, .reap 100, .answer 2 .goes]

theorem deleted_comes_back :
    ¬ ∀ (sys sys' sys'' : System) (m : SystemMove),
      Reaches "/run/runtt" Transition.Any sys → sys.step "/run/runtt" m = some sys' →
        DeleteReturns "a" sys sys' →
          Transition.Reaches (step "/run/runtt") (fun sys m => leftUncreated "a" sys m = true) sys'
            sys'' → sys''.files "a" = none := by
  intro h
  have hrun : (after "/run/runtt" Transition.Any overtakesStart).isSome = true := rfl
  have hstep : (((after "/run/runtt" Transition.Any overtakesStart).get hrun).step "/run/runtt"
      (.answer 2 .goes)).isSome = true := rfl
  have hwrite : ((Option.get _ hstep).step "/run/runtt" (.answer 1 .goes)).isSome = true := rfl
  have hback := h _ _ _ (.answer 2 .goes) (reaches_after hrun) (Option.some_get hstep).symm
    ⟨2, _, false, rfl, rfl, rfl, fun ⟨inv, hinv, hrest⟩ => by cases hinv; cases hrest⟩
    (.step .refl rfl (Option.some_get hwrite).symm)
  cases hback

end System
end Runtt
