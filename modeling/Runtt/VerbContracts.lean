import Mathlib.Data.List.Induction
import Mathlib.Data.List.Infix
import Runtt.Verbs

/-! # What each verb may ask

A verb runs beside other verbs and beside the proxies, so what is known of it is what it
guarantees by itself: `Allowed` says which questions a verb asks given what it was told,
and `Ended` how it ends.  `Verb.keeps` proves this of the programs, once; nothing after it
looks into a verb again.
-/
namespace Runtt

open Interaction Program SysM

/-- What a verb was told so far. -/
abbrev Told := List (Exchange Sys.Reply)

namespace Told
variable (t : Told)

/-- The state file of `id` was read and holds `st`. -/
def Read (id : String) (st : State) : Prop := ⟨.readState id, Except.ok st⟩ ∈ t

/-- The state file of `id` could not be read. -/
def Unread (id : String) : Prop := ∃ e : String, ⟨.readState id, Except.error e⟩ ∈ t

/-- A proxy was spawned as `pid`. -/
def Spawned (args : SpawnArgs) (pid : Nat) : Prop := ∃ exe, ⟨.spawn exe args, Except.ok pid⟩ ∈ t

/-- The lock file was locked. -/
def Claimed (name : String) : Prop := ⟨.claim name, Claim.claimed⟩ ∈ t

/-- The state was written. -/
def Wrote (st : State) : Prop := ⟨.writeState st, Except.ok ()⟩ ∈ t

/-- The state directory was removed. -/
def Removed (id : String) : Prop := ⟨.removeState id, Removal.removed⟩ ∈ t

/-- The removal of a state directory was asked for. -/
def Removing : Prop := ∃ id r, ⟨.removeState id, r⟩ ∈ t

/-- The process was seen gone. -/
def Gone (pid : Nat) : Prop := ⟨.probe pid, false⟩ ∈ t

/-- `SIGKILL` was sent, whether or not it arrived. -/
def Killed (pid : Nat) : Prop := ∃ r : Except Error Unit, ⟨.kill pid SIGKILL, r⟩ ∈ t

/-- The clock showed `ms`. -/
def Saw (ms : Nat) : Prop := ⟨.now, ms⟩ ∈ t

/-- What the clock shows at least, `ms` being what it showed at least before. -/
def clockAfter (ms : Nat) : Exchange Sys.Reply → Nat
  | ⟨.now, r⟩ => max ms r
  | ⟨.sleep d, _⟩ => ms + d
  | _ => ms

/-- What the clock shows at least by now. -/
def clock : Nat := t.foldl clockAfter 0

end Told

/-- The questions of verb `v`, by what it was told. -/
def Allowed (v : Verb) (t : Told) : Sys → Prop
  | .claim _ => ∃ bundle pidFile, v = .create v.id bundle pidFile
  | .spawn _ args =>
    (∃ bundle pidFile, v = .create v.id bundle pidFile) ∧ validateContainerId v.id = .ok () ∧
      args.containerId = v.id ∧ args.lock = lockName args.target ∧ t.Claimed args.lock ∧
      ∀ args' pid, ¬ t.Spawned args' pid
  | .readState id => id = v.id ∧ ∀ bundle pidFile, v ≠ .create v.id bundle pidFile
  | .writeState st =>
    (∃ bundle pidFile args pid, v = .create v.id bundle pidFile ∧ t.Spawned args pid ∧
      st = createdState bundle args pid) ∨
    ∃ st₀ status, t.Read v.id st₀ ∧ st = { st₀ with status := status }
  | .removeState id => id = v.id ∧ ∃ force, v = .delete v.id force
  | .kill pid sig =>
    (sig = SIGKILL ∧ (∃ bundle pidFile, v = .create v.id bundle pidFile) ∧
      ∃ args, t.Spawned args pid) ∨
    ∃ st, t.Read v.id st ∧ st.pid = some pid ∧
      (v = .start v.id ∧ sig = SIGUSR1 ∧ st.status = .created ∨
        (∃ sigText, v = .kill v.id sigText ∧ parseSignal sigText = .ok sig) ∨
        sig = SIGKILL ∧ ∃ force, v = .delete v.id force)
  | .now => ∃ st pid, t.Read v.id st ∧ st.pid = some pid ∧ t.Killed pid
  | _ => True

/-- How `delete` knows that the recorded process is gone, or has had its time. -/
def Told.Released (t : Told) (pid : Nat) : Prop :=
  pid = 0 ∨ t.Gone pid ∨ t.Killed pid ∧ ∃ ms, t.Saw ms ∧ ms + 5000 ≤ t.clock

/-- How verb `v` ends. -/
def Ended (v : Verb) (t : Told) : Except Error Unit → Prop
  | .ok () =>
    match v with
    | .create id bundle _ =>
      ∃ args pid, args.containerId = id ∧ t.Spawned args pid ∧
        t.Wrote (createdState bundle args pid)
    | .delete id force =>
      (force = true ∧ (validateContainerId id ≠ .ok () ∨ t.Unread id)) ∨
        ∃ st, t.Read id st ∧ t.Removed id ∧ ∀ pid, st.pid = some pid → t.Released pid
    | _ => True
  | .error _ => True

/-! ## What the clock shows -/

namespace Told
variable {t s : Told}

theorem le_clockAfter (ms : Nat) (x : Exchange Sys.Reply) : ms ≤ clockAfter ms x := by
  unfold clockAfter
  split
  · exact Nat.le_max_left _ _
  · exact Nat.le_add_right _ _
  · exact Nat.le_refl _

theorem clock_append_singleton (x : Exchange Sys.Reply) :
    clock (t ++ [x]) = clockAfter t.clock x := by
  rw [clock, List.foldl_append]
  rfl

theorem clock_mono (h : t <+: s) : t.clock ≤ s.clock := by
  obtain ⟨r, rfl⟩ := h
  induction r using List.reverseRecOn with
  | nil => rw [List.append_nil]
  | append_singleton r x ih =>
    rw [← List.append_assoc, clock_append_singleton]
    exact ih.trans (le_clockAfter _ x)

/-- More exchanges tell no less. -/
theorem Released.mono {pid : Nat} (h : t.Released pid) (hts : t <+: s) : s.Released pid := by
  rcases h with h | h | ⟨⟨r, hkill⟩, ms, hsaw, hlate⟩
  · exact .inl h
  · exact .inr (.inl (hts.subset h))
  · exact .inr (.inr ⟨⟨r, hts.subset hkill⟩, ms, hts.subset hsaw,
      hlate.trans (clock_mono hts)⟩)

end Told

/-! ## The functions the verbs are made of -/

section Rules
variable {α : Type} {allowed : Told → Sys → Prop} {ok : Told → α → Prop}
  {err : Told → Error → Prop} {t : Told}

theorem promises_ask_bind {q : Sys} {f : q.Reply → SysM α} (hallowed : allowed t q)
    (hnext : ∀ r, Promises allowed ok err (t ++ [⟨q, r⟩]) (f r)) :
    Promises allowed ok err t (ask q >>= f) :=
  promises_bind.mpr ⟨hallowed, hnext⟩

theorem promises_fromExcept {x : Except Error α} (hok : ∀ a, x = .ok a → ok t a)
    (herr : ∀ e, x = .error e → err t e) : Promises allowed ok err t (fromExcept x) := by
  cases x with
  | ok a => exact hok a rfl
  | error e => exact herr e rfl

theorem promises_context {msg : String} {p : SysM α}
    (h : Promises allowed ok (fun t e => err t (msg :: e)) t p) :
    Promises allowed ok err t (SysM.context msg p) := promises_rescue.mpr h

theorem promises_writeState {ok : Told → Unit → Prop} {st : State}
    (hallowed : allowed t (.writeState st)) (hok : ok (t ++ [⟨.writeState st, Except.ok ()⟩]) ())
    (herr : ∀ t' e, t <+: t' → err t' e) : Promises allowed ok err t (writeState st) := by
  refine promises_bind.mpr (promises_fromExcept (fun _ _ => ?_) fun e _ =>
    herr t e List.prefix_rfl)
  refine promises_ask_bind hallowed fun r => ?_
  cases r with
  | ok _ => exact hok
  | error e => exact herr _ e (List.prefix_append _ _)

/-- A state is read, or the id is not valid, or the read fails. -/
theorem promises_readState {ok : Told → State → Prop} {root id : String}
    (hallowed : allowed t (.readState id))
    (hok : ∀ st, ok (t ++ [⟨.readState id, Except.ok st⟩]) st)
    (hinvalid : ∀ e, validateContainerId id = .error e → err t e)
    (hunread : ∀ (e : String) msg, err (t ++ [⟨.readState id, Except.error e⟩]) msg) :
    Promises allowed ok err t (readState root id) := by
  refine promises_bind.mpr (promises_fromExcept (fun _ _ => ?_) hinvalid)
  refine promises_ask_bind hallowed fun r => ?_
  cases r with
  | ok st => exact hok st
  | error e => exact hunread e _

theorem promises_removeState {ok : Told → Unit → Prop} {id : String}
    (hallowed : allowed t (.removeState id))
    (hok : ok (t ++ [⟨.removeState id, Removal.removed⟩]) ())
    (herr : ∀ t' e, t <+: t' → err t' e) : Promises allowed ok err t (removeState id) := by
  refine promises_bind.mpr (promises_fromExcept (fun _ _ => ?_) fun e _ =>
    herr t e List.prefix_rfl)
  refine promises_ask_bind hallowed fun r => ?_
  cases r with
  | removed => exact hok
  | failed e gone => exact herr _ e (List.prefix_append _ _)

theorem promises_acquireNamed {ok : Told → String → Prop} {name : String}
    (hallowed : allowed t (.claim name)) (hok : ok (t ++ [⟨.claim name, Claim.claimed⟩]) name)
    (herr : ∀ t' e, t <+: t' → err t' e) : Promises allowed ok err t (acquireNamed name) := by
  refine promises_ask_bind hallowed fun r => ?_
  cases r with
  | claimed => exact hok
  | busy => exact herr _ _ (List.prefix_append _ _)
  | failed e => exact herr _ _ (List.prefix_append _ _)

theorem promises_acquire {ok : Told → String → Prop} {target : String}
    (hallowed : allowed t (.claim (lockName target)))
    (hok : ok (t ++ [⟨.claim (lockName target), Claim.claimed⟩]) (lockName target))
    (herr : ∀ t' e, t <+: t' → err t' e) : Promises allowed ok err t (acquire target) := by
  refine promises_rescue.mpr (promises_acquireNamed hallowed hok fun t' e hpre => ?_)
  split
  · exact herr t' _ hpre
  · exact herr t' _ hpre

theorem promises_signal {ok : Told → Unit → Prop} {pid sig : Nat}
    (hallowed : allowed t (.kill pid sig)) (hok : ∀ t', t <+: t' → ok t' ())
    (herr : ∀ t' e, t <+: t' → err t' e) : Promises allowed ok err t (signal pid sig) := by
  refine promises_ask_bind hallowed fun r => ?_
  cases r with
  | ok _ => exact hok _ (List.prefix_append _ _)
  | error e => exact herr _ _ (List.prefix_append _ _)

theorem promises_isAlive {ok : Told → Bool → Prop} {pid : Nat}
    (hallowed : allowed t (.probe pid)) (hzero : pid = 0 → ok t false)
    (hok : ∀ b : Bool, 0 < pid → ok (t ++ [⟨.probe pid, b⟩]) b) :
    Promises allowed ok err t (isAlive pid) := by
  unfold isAlive
  split
  · rename_i hpos
    exact ⟨hallowed, fun b => hok b hpos⟩
  · rename_i hzero'
    exact hzero (Nat.eq_zero_of_not_pos hzero')

theorem promises_locateFirmware {ok : Told → String → Prop} {spec : Spec} {bundle : String}
    (hallowed : ∀ path, allowed t (.pathExists path))
    (hok : ∀ path (b : Bool) firmware, ok (t ++ [⟨.pathExists path, b⟩]) firmware)
    (herr : ∀ t' e, err t' e) : Promises allowed ok err t (locateFirmware spec bundle) := by
  unfold locateFirmware
  split
  · split
    · exact herr _ _
    · refine promises_ask_bind (hallowed _) fun b => ?_
      cases b with
      | false => exact herr _ _
      | true => exact hok _ true _
  · exact herr _ _

theorem promises_checkLogTarget {ok : Told → Unit → Prop} {logTarget : Option String}
    (hok : ok t ()) (herr : ∀ e, err t e) :
    Promises allowed ok err t (checkLogTarget logTarget) := by
  cases logTarget with
  | none => exact hok
  | some lt =>
    refine promises_context (promises_bind.mpr (promises_fromExcept (fun _ _ => ?_) ?_))
    · exact hok
    · intro e _
      exact herr _

/-- The questions before the lock tell nothing that matters later. -/
def Idle (q : Sys) : Prop := (∃ path, q = .readConfig path) ∨ ∃ path, q = .pathExists path

/-- `t'` is `t` and idle questions. -/
def IdleAfter (t t' : Told) : Prop := ∃ s, t' = t ++ s ∧ ∀ x ∈ s, Idle x.question

theorem promises_createArgs {ok : Told → SpawnArgs → Prop} {id bundle : String}
    (hallowed : ∀ t' q, Idle q → allowed t' q)
    (hok : ∀ t' args, IdleAfter t t' → args.containerId = id → ok t' args)
    (herr : ∀ t' e, err t' e) : Promises allowed ok err t (createArgs id bundle) := by
  refine promises_bind.mpr (promises_ask_bind (hallowed t _ (.inl ⟨_, rfl⟩)) fun r => ?_)
  cases r with
  | unreadable e => exact herr _ _
  | malformed e => exact herr _ _
  | spec spec =>
    refine promises_pure.mpr ?_
    split
    · exact herr _ _
    · rename_i target htarget
      refine promises_bind.mpr (promises_fromExcept (fun _ _ => ?_) fun e _ => herr _ e)
      refine promises_bind.mpr (promises_locateFirmware
        (fun path => hallowed _ _ (.inr ⟨path, rfl⟩)) (fun path b firmware => ?_) herr)
      have hidle : IdleAfter t (t ++ [⟨.readConfig (Text.join bundle "config.json"),
          ConfigRead.spec spec⟩] ++ [⟨.pathExists path, b⟩]) := by
        refine ⟨_, List.append_assoc _ _ _, ?_⟩
        intro x hx
        rcases List.mem_append.mp hx with hx | hx
        · rw [List.mem_singleton.mp hx]
          exact .inl ⟨_, rfl⟩
        · rw [List.mem_singleton.mp hx]
          exact .inr ⟨_, rfl⟩
      exact promises_bind.mpr (promises_checkLogTarget (hok _ _ hidle rfl) fun e => herr _ e)

theorem promises_spawn {ok : Told → Nat → Prop} {args : SpawnArgs}
    (hexe : allowed t .currentExe)
    (hallowed : ∀ exe (r : Except Error String),
      allowed (t ++ [⟨.currentExe, r⟩]) (.spawn exe args))
    (hok : ∀ exe pid (r : Except Error String),
      ok (t ++ [⟨.currentExe, r⟩] ++ [⟨.spawn exe args, Except.ok pid⟩]) pid)
    (herr : ∀ t' e, err t' e) : Promises allowed ok err t (spawn args) := by
  refine promises_ask_bind hexe fun r => ?_
  cases r with
  | error e => exact herr _ _
  | ok exe =>
    refine promises_ask_bind (hallowed exe _) fun r => ?_
    cases r with
    | error e => exact herr _ _
    | ok pid => exact hok exe pid _

/-- While the process is still there the clock goes on, and it ends before the rounds do. -/
theorem promises_awaitLoop {ok : Told → Bool → Prop} {pid deadline rounds : Nat} (hpid : 0 < pid)
    (hallowed : ∀ t', t <+: t' → allowed t' .now ∧ allowed t' (.probe pid) ∧
      allowed t' (.sleep 20))
    (hclock : deadline ≤ t.clock + 20 * rounds)
    (hgone : ∀ t', t <+: t' → Told.Gone t' pid → ok t' true)
    (hlate : ∀ t', t <+: t' → deadline ≤ Told.clock t' → ok t' false) :
    Promises allowed ok err t (awaitLoop pid deadline rounds) := by
  induction rounds generalizing t with
  | zero => exact hlate t List.prefix_rfl hclock
  | succ rounds ih =>
    refine promises_ask_bind (hallowed t List.prefix_rfl).1 fun (ms : Nat) => ?_
    have hnow : t <+: t ++ [⟨.now, ms⟩] := List.prefix_append _ _
    have hms : ms ≤ Told.clock (t ++ [⟨.now, ms⟩]) := by
      rw [Told.clock_append_singleton]
      exact Nat.le_max_right _ _
    split
    · refine promises_bind.mpr (promises_isAlive (hallowed _ hnow).2.1
        (fun hzero => absurd hzero (Nat.pos_iff_ne_zero.mp hpid)) fun b _ => ?_)
      have hprobe : t <+: t ++ [⟨.now, ms⟩] ++ [⟨.probe pid, b⟩] :=
        hnow.trans (List.prefix_append _ _)
      cases b with
      | false => exact hgone _ hprobe (List.mem_append_right _ (List.mem_singleton_self _))
      | true =>
        refine promises_ask_bind (hallowed _ hprobe).2.2 fun _ => ?_
        have hsleep : t <+: t ++ [⟨.now, ms⟩] ++ [⟨.probe pid, true⟩] ++ [⟨.sleep 20, ()⟩] :=
          hprobe.trans (List.prefix_append _ _)
        refine ih (fun t' ht' => hallowed t' (hsleep.trans ht')) ?_
          (fun t' ht' => hgone t' (hsleep.trans ht')) fun t' ht' => hlate t' (hsleep.trans ht')
        have hsame := Told.clock_mono hprobe
        rw [Told.clock_append_singleton]
        simp only [Told.clockAfter]
        omega
    · rename_i hdeadline
      exact hlate _ hnow (by omega)

/-- `await_exit` sees the process gone, or has given it its time. -/
theorem promises_awaitExit {ok : Told → Bool → Prop} {pid : Nat} (hpid : 0 < pid)
    (hallowed : ∀ t', t <+: t' → allowed t' .now ∧ allowed t' (.probe pid) ∧
      allowed t' (.sleep 20))
    (hgone : ∀ t' b, t <+: t' → Told.Gone t' pid → ok t' b)
    (hlate : ∀ t' b ms, t <+: t' → Told.Saw t' ms → ms + 5000 ≤ Told.clock t' → ok t' b) :
    Promises allowed ok err t (awaitExit pid 5000) := by
  refine promises_ask_bind (hallowed t List.prefix_rfl).1 fun (ms : Nat) => ?_
  have hnow : t <+: t ++ [⟨.now, ms⟩] := List.prefix_append _ _
  have hms : ms ≤ Told.clock (t ++ [⟨.now, ms⟩]) := by
    rw [Told.clock_append_singleton]
    exact Nat.le_max_right _ _
  refine promises_bind.mpr (promises_awaitLoop hpid
    (fun t' ht' => hallowed t' (hnow.trans ht')) (by omega) ?_ ?_)
  · intro t' ht' hdead
    exact hgone t' true (hnow.trans ht') hdead
  · intro t' ht' hdeadline
    have hpre := hnow.trans ht'
    refine promises_bind.mpr (promises_isAlive (hallowed t' hpre).2.1
      (fun hzero => absurd hzero (Nat.pos_iff_ne_zero.mp hpid)) fun b _ => ?_)
    have hprobe : t <+: t' ++ [⟨.probe pid, b⟩] := hpre.trans (List.prefix_append _ _)
    exact hlate _ _ ms hprobe
      ((ht'.trans (List.prefix_append _ _)).subset
        (List.mem_append_right _ (List.mem_singleton_self _)))
      (hdeadline.trans (Told.clock_mono (List.prefix_append _ _)))

end Rules

/-! ## The verbs -/

/-- Nothing an idle question tells is a spawned proxy. -/
theorem IdleAfter.not_spawned {t : Told} (h : IdleAfter [] t) (args : SpawnArgs) (pid : Nat) :
    ¬ t.Spawned args pid := by
  obtain ⟨s, rfl, hidle⟩ := h
  rintro ⟨exe, hmem⟩
  rcases hidle _ hmem with ⟨path, hq⟩ | ⟨path, hq⟩
  · cases hq
  · cases hq

/-- What is left of verb `v` keeps to what the verb is allowed, and ends as it should. -/
abbrev Verb.Finishes (v : Verb) (t : Told) (p : SysM Unit) : Prop :=
  Promises (Allowed v) (fun t _ => Ended v t (.ok ())) (fun _ _ => True) t p

/-- Once the proxy is spawned, it is recorded, or killed. -/
theorem recordCreated_finishes {id bundle : String} {pidFile : Option String} {args : SpawnArgs}
    {pid : Nat} {t : Told} (hid : args.containerId = id) (hspawned : t.Spawned args pid) :
    (Verb.create id bundle pidFile).Finishes t
      (rescue (recordCreated bundle pidFile args pid) fun e => do
        let _ ← ask (.kill pid SIGKILL)
        throw e) := by
  have hkept : ∀ {t' : Told}, t <+: t' → t'.Spawned args pid := fun ht =>
    hspawned.imp fun _ hmem => ht.subset hmem
  have hkill : ∀ {t' : Told}, t <+: t' →
      Allowed (.create id bundle pidFile) t' (.kill pid SIGKILL) := fun ht =>
    .inl ⟨rfl, ⟨bundle, pidFile, rfl⟩, args, hkept ht⟩
  have hwritten : t <+: t ++ [⟨.writeState (createdState bundle args pid), Except.ok ()⟩] :=
    List.prefix_append _ _
  have hdone : ∀ t', t ++ [⟨.writeState (createdState bundle args pid), Except.ok ()⟩] <+: t' →
      Ended (.create id bundle pidFile) t' (.ok ()) := fun t' ht =>
    ⟨args, pid, hid, hkept (hwritten.trans ht),
      ht.subset (List.mem_append_right _ (List.mem_singleton_self _))⟩
  refine promises_rescue.mpr (promises_bind.mpr (promises_writeState
    (.inl ⟨bundle, pidFile, args, pid, rfl, hspawned, rfl⟩) ?_ fun t' e ht => ?_))
  · split
    · exact hdone _ List.prefix_rfl
    · refine promises_ask_bind trivial fun r => ?_
      cases r with
      | ok _ => exact hdone _ (List.prefix_append _ _)
      | error e =>
        exact promises_ask_bind (hkill (hwritten.trans (List.prefix_append _ _))) fun _ => trivial
  · exact promises_ask_bind (hkill ht) fun _ => trivial

/-- A proxy is spawned once, with the lock that was claimed, and what is recorded is that
proxy. -/
theorem create_finishes (id bundle : String) (pidFile : Option String) :
    (Verb.create id bundle pidFile).Finishes [] (create id bundle pidFile) := by
  have hidle : ∀ t q, Idle q → Allowed (.create id bundle pidFile) t q := by
    rintro t q (⟨path, rfl⟩ | ⟨path, rfl⟩)
    · exact trivial
    · exact trivial
  refine promises_bind.mpr (promises_fromExcept (fun _ hvalid => ?_) fun _ _ => trivial)
  refine promises_bind.mpr (promises_createArgs hidle (fun t args ht hid => ?_)
    fun _ _ => trivial)
  refine promises_bind.mpr (promises_acquire ⟨bundle, pidFile, rfl⟩ ?_ fun _ _ _ => trivial)
  have hclaimed : Told.Claimed (t ++ [⟨.claim (lockName args.target), Claim.claimed⟩])
      (lockName args.target) := List.mem_append_right _ (List.mem_singleton_self _)
  refine promises_bind.mpr (promises_context (promises_spawn trivial (fun exe r => ?_)
    (fun exe pid r => ?_) fun _ _ => trivial))
  · -- Nothing before was a spawn.
    refine ⟨⟨bundle, pidFile, rfl⟩, hvalid, hid, rfl, List.mem_append_left _ hclaimed, ?_⟩
    rintro args' pid ⟨exe', hmem⟩
    rcases List.mem_append.mp hmem with hmem | hmem
    · rcases List.mem_append.mp hmem with hmem | hmem
      · exact ht.not_spawned args' pid ⟨exe', hmem⟩
      · cases List.mem_singleton.mp hmem
    · cases List.mem_singleton.mp hmem
  · exact recordCreated_finishes hid
      ⟨exe, List.mem_append_right _ (List.mem_singleton_self _)⟩

/-- Only a container whose state file says `created` is signalled. -/
theorem start_finishes (root id : String) :
    (Verb.start id).Finishes [] (start root id) := by
  refine promises_bind.mpr (promises_readState ⟨rfl, by simp⟩ (fun st => ?_) (fun _ _ => trivial)
    fun _ _ => trivial)
  have hread : Told.Read ([] ++ [⟨.readState id, Except.ok st⟩]) id st := List.mem_singleton_self _
  split
  · exact trivial
  · rename_i hcreated
    rw [ne_eq, not_not] at hcreated
    split
    · exact trivial
    · rename_i pid hpid
      refine promises_bind.mpr (promises_context (promises_signal
        (.inr ⟨st, hread, hpid, .inl ⟨rfl, rfl, hcreated⟩⟩) (fun t' hpre => ?_)
        fun _ _ _ => trivial))
      exact promises_writeState (.inr ⟨st, .running, hpre.subset hread, rfl⟩) trivial
        fun _ _ _ => trivial

theorem state_finishes (root id : String) :
    (Verb.state id).Finishes [] (printState root id) := by
  refine promises_bind.mpr (promises_readState ⟨rfl, by simp⟩ (fun st => ?_) (fun _ _ => trivial)
    fun _ _ => trivial)
  have hprint : ∀ t st', (Verb.state id).Finishes t (ask (.print st')) :=
    fun _ _ => ⟨trivial, fun _ => trivial⟩
  split
  · split
    · exact hprint _ _
    · refine promises_bind.mpr (promises_isAlive trivial (fun _ => ?_) fun b _ => ?_)
      · exact hprint _ _
      · split
        · exact hprint _ _
        · exact hprint _ _
  · exact hprint _ _

/-- Only the status is changed. -/
theorem killRecord_finishes {id sigText : String} {st : State} {sig : Nat} {t : Told}
    (hread : t.Read id st) : (Verb.kill id sigText).Finishes t (killRecord st sig) := by
  unfold killRecord
  split
  · exact promises_writeState (.inr ⟨st, .stopped, hread, rfl⟩) trivial fun _ _ _ => trivial
  · exact trivial

/-- The recorded process is signalled, and the status is changed. -/
theorem kill_finishes (root id sigText : String) :
    (Verb.kill id sigText).Finishes [] (kill root id sigText) := by
  refine promises_bind.mpr (promises_readState ⟨rfl, by simp⟩ (fun st => ?_) (fun _ _ => trivial)
    fun _ _ => trivial)
  have hread : Told.Read ([] ++ [⟨.readState id, Except.ok st⟩]) id st := List.mem_singleton_self _
  cases hsig : parseSignal sigText with
  | error e => exact trivial
  | ok sig =>
    refine promises_bind.mpr (promises_pure.mpr ?_)
    split
    · exact killRecord_finishes hread
    · rename_i pid hpid
      refine promises_bind.mpr (promises_isAlive trivial (fun _ => ?_) fun b _ => ?_)
      · exact killRecord_finishes hread
      · have hread' : Told.Read ([] ++ [⟨.readState id, Except.ok st⟩] ++ [⟨.probe pid, b⟩])
            id st := List.mem_append_left _ hread
        split
        · refine promises_bind.mpr (promises_context (promises_signal
            (.inr ⟨st, hread', hpid, .inr (.inl ⟨sigText, rfl, hsig⟩)⟩)
            (fun t' hpre => ?_) fun _ _ _ => trivial))
          exact killRecord_finishes (hpre.subset hread')
        · exact killRecord_finishes hread'

/-- What is recorded is removed once its process is gone, or has had its time. -/
theorem removeState_finishes {id : String} {force : Bool} {st : State} {t : Told}
    (hread : t.Read id st) (hreleased : ∀ pid, st.pid = some pid → t.Released pid) :
    (Verb.delete id force).Finishes t (removeState id) := by
  refine promises_removeState ⟨rfl, force, rfl⟩ (.inr ⟨st, ?_, ?_, fun pid hpid => ?_⟩)
    fun _ _ _ => trivial
  · exact List.mem_append_left _ hread
  · exact List.mem_append_right _ (List.mem_singleton_self _)
  · exact (hreleased pid hpid).mono (List.prefix_append _ _)

theorem removeState_finishes_of_pid {id : String} {force : Bool} {st : State} {pid : Nat}
    {t : Told} (hread : t.Read id st) (hpid : st.pid = some pid) (hreleased : t.Released pid) :
    (Verb.delete id force).Finishes t (removeState id) := by
  refine removeState_finishes hread fun pid' hpid' => ?_
  rw [hpid] at hpid'
  cases hpid'
  exact hreleased

/-- A recorded process is killed and waited for before its state is removed. -/
theorem killAndRemove_finishes {id : String} {force : Bool} {st : State} {pid : Nat} {t : Told}
    (hread : t.Read id st) (hpid : st.pid = some pid) (hpos : 0 < pid) :
    (Verb.delete id force).Finishes t (do
      let _ ← ask (.kill pid SIGKILL)
      let _ ← awaitExit pid 5000
      removeState id) := by
  refine promises_ask_bind (.inr ⟨st, hread, hpid, .inr (.inr ⟨rfl, force, rfl⟩)⟩) fun r => ?_
  have hkill : t <+: t ++ [⟨.kill pid SIGKILL, r⟩] := List.prefix_append _ _
  have hkilled : ∀ {t' : Told}, t ++ [⟨.kill pid SIGKILL, r⟩] <+: t' → t'.Killed pid := fun ht =>
    ⟨r, ht.subset (List.mem_append_right _ (List.mem_singleton_self _))⟩
  refine promises_bind.mpr (promises_awaitExit hpos (fun t' ht => ?_)
    (fun t' b ht hgone => ?_) fun t' b ms ht hsaw hlate => ?_)
  · exact ⟨⟨st, pid, (hkill.trans ht).subset hread, hpid, hkilled ht⟩, trivial, trivial⟩
  · exact removeState_finishes_of_pid ((hkill.trans ht).subset hread) hpid (.inr (.inl hgone))
  · exact removeState_finishes_of_pid ((hkill.trans ht).subset hread) hpid
      (.inr (.inr ⟨hkilled ht, ms, hsaw, hlate⟩))

theorem deleteRecorded_finishes {id : String} {force : Bool} {st : State} {t : Told}
    (hread : t.Read id st) : (Verb.delete id force).Finishes t (deleteRecorded id force st) := by
  simp only [deleteRecorded, recordedAlive]
  cases hpid : st.pid with
  | none =>
    refine promises_bind.mpr (promises_pure.mpr ?_)
    split
    · exact trivial
    · refine removeState_finishes hread fun pid hsome => ?_
      rw [hpid] at hsome
      cases hsome
  | some pid =>
    refine promises_bind.mpr (promises_isAlive trivial (fun hzero => ?_) fun b hpos => ?_)
    · split
      · exact trivial
      · exact removeState_finishes_of_pid hread hpid (.inl hzero)
    · split
      · exact trivial
      · cases b with
        | false =>
          exact removeState_finishes_of_pid (List.mem_append_left _ hread) hpid
            (.inr (.inl (List.mem_append_right _ (List.mem_singleton_self _))))
        | true => exact killAndRemove_finishes (List.mem_append_left _ hread) hpid hpos

/-- A container is deleted once its recorded process is gone or has had its time, or
because nothing is recorded. -/
theorem delete_finishes (root id : String) (force : Bool) :
    (Verb.delete id force).Finishes [] (delete root id force) := by
  refine promises_bind.mpr (promises_rescue.mpr (promises_bind.mpr (promises_readState
    ⟨rfl, by simp⟩ (fun st => ?_) (fun e hinvalid => ?_) fun e _ => ?_)))
  · exact promises_pure.mpr (deleteRecorded_finishes (List.mem_singleton_self _))
  · have hnot : validateContainerId id ≠ .ok () := by
      rw [hinvalid]
      intro hok
      cases hok
    cases force with
    | false => exact trivial
    | true => exact promises_pure.mpr (.inl ⟨rfl, .inl hnot⟩)
  · cases force with
    | false => exact trivial
    | true => exact promises_pure.mpr (.inl ⟨rfl, .inr ⟨e, List.mem_singleton_self _⟩⟩)

/-- **What every verb guarantees**: it asks only what it is allowed to, and ends as it
should. -/
theorem Verb.keeps (root : String) (v : Verb) :
    Keeps (Allowed v) (Ended v) [] (v.program root).run := by
  have hends : ∀ {p : SysM Unit}, v.Finishes [] p → Keeps (Allowed v) (Ended v) [] p.run := by
    intro p h
    refine Keeps.mono h (fun _ _ hq => hq) fun t o ho => ?_
    cases o with
    | ok _ => exact ho
    | error e => exact trivial
  cases v with
  | create id bundle pidFile => exact hends (create_finishes id bundle pidFile)
  | start id => exact hends (start_finishes root id)
  | state id => exact hends (state_finishes root id)
  | kill id sigText => exact hends (kill_finishes root id sigText)
  | delete id force => exact hends (delete_finishes root id force)

/-! ## A removal is the last thing a verb does -/

section Removal
variable {α : Type} {ok : Told → α → Prop} {err : Told → Error → Prop} {t : Told}

theorem Told.not_removing_append {x : Exchange Sys.Reply} (ht : ¬ t.Removing)
    (hx : ∀ id, x.question ≠ .removeState id) : ¬ Told.Removing (t ++ [x]) := by
  rintro ⟨id, r, hmem⟩
  rcases List.mem_append.mp hmem with hmem | hmem
  · exact ht ⟨id, r, hmem⟩
  · exact hx id (congrArg Exchange.question (List.mem_singleton.mp hmem)).symm

/-- Before a removal a program may do anything else. -/
theorem promises_before_removal {p : SysM α} {A : α → Prop}
    (h : Promises (fun _ q => ∀ id, q ≠ .removeState id) (fun _ a => A a) (fun _ _ => True) t p)
    (ht : ¬ t.Removing) (hok : ∀ t' a, A a → ¬ Told.Removing t' → ok t' a)
    (herr : ∀ t' e, ¬ Told.Removing t' → err t' e) :
    Promises (fun t _ => ¬ Told.Removing t) ok err t p := by
  have hcarry := Keeps.carry (J := fun t => ¬ Told.Removing t) h ht
    fun t q r hq ht => Told.not_removing_append ht hq
  refine hcarry.mono (fun _ _ hq => hq.2) fun t o ho => ?_
  cases o with
  | ok a => exact hok t a ho.1 ho.2
  | error e => exact herr t e ho.2

/-- What is left of a verb removes last, and does not fail once it has removed. -/
abbrev RemovesLast (t : Told) (p : SysM Unit) : Prop :=
  Promises (fun t _ => ¬ Told.Removing t) (fun _ _ => True)
    (fun t _ => ∀ id, ¬ Told.Removed t id) t p

theorem Told.not_removed (ht : ¬ t.Removing) (id : String) : ¬ t.Removed id :=
  fun hmem => ht ⟨id, _, hmem⟩

theorem removeState_removesLast (ht : ¬ t.Removing) (id : String) :
    RemovesLast t (removeState id) := by
  refine promises_bind.mpr (promises_fromExcept (fun _ _ => ?_) fun _ _ => Told.not_removed ht)
  refine promises_ask_bind ht fun r => ?_
  cases r with
  | removed => exact trivial
  | failed e gone =>
    intro id' hmem
    rcases List.mem_append.mp hmem with hmem | hmem
    · exact Told.not_removed ht id' hmem
    · cases List.mem_singleton.mp hmem

/-- A recorded process that is alive has a pid. -/
theorem promises_recordedAlive {allowed : Told → Sys → Prop} {st : State}
    (hallowed : ∀ pid, allowed t (.probe pid)) :
    Promises allowed (fun _ alive => ∀ pid, st.pid = some pid → alive = true → 0 < pid) err t
      (recordedAlive st) := by
  unfold recordedAlive
  split
  · rename_i hnone
    refine promises_pure.mpr fun pid hsome => ?_
    rw [hnone] at hsome
    cases hsome
  · rename_i pid hpid
    refine promises_isAlive (hallowed pid) (fun _ _ _ halive => by cases halive)
      fun _ hpos pid' hpid' _ => ?_
    rw [hpid] at hpid'
    cases hpid'
    exact hpos

theorem deleteRecorded_removesLast (ht : ¬ t.Removing) (id : String) (force : Bool) (st : State) :
    RemovesLast t (deleteRecorded id force st) := by
  refine promises_bind.mpr (promises_before_removal (promises_recordedAlive (by simp)) ht
    (fun t alive hpos ht => ?_) fun t _ ht => Told.not_removed ht)
  split
  · exact Told.not_removed ht
  · split
    · rename_i pid hpid
      split
      · rename_i halive
        refine promises_ask_bind ht fun r => ?_
        have hkill : ¬ Told.Removing (t ++ [⟨.kill pid SIGKILL, r⟩]) :=
          Told.not_removing_append ht (by simp)
        exact promises_bind.mpr (promises_before_removal (A := fun _ => True)
          (promises_awaitExit (hpos pid hpid halive) (by simp) (fun _ _ _ _ => trivial)
            fun _ _ _ _ _ _ => trivial) hkill
          (fun t _ _ ht => removeState_removesLast ht id) fun t _ ht => Told.not_removed ht)
      · exact removeState_removesLast ht id
    · exact removeState_removesLast ht id

theorem Told.not_removing_nil : ¬ Told.Removing [] := by
  rintro ⟨id, r, hmem⟩
  cases hmem

/-- `delete` removes last, and succeeds if the removal does. -/
theorem delete_removesLast (root id : String) (force : Bool) :
    RemovesLast [] (delete root id force) := by
  refine promises_bind.mpr (promises_before_removal (A := fun _ => True)
    (promises_rescue.mpr (promises_bind.mpr (promises_readState (by simp) (fun _ => trivial)
      (fun _ _ => ?_) fun _ _ => ?_))) Told.not_removing_nil (fun t st? _ ht => ?_)
    fun t _ ht => Told.not_removed ht)
  · split <;> exact trivial
  · split <;> exact trivial
  · cases st? with
    | none => exact trivial
    | some st => exact deleteRecorded_removesLast ht id force st

/-- **What every verb guarantees about removals**: nothing is asked after one, and where it
succeeds so does the verb. -/
theorem Verb.keeps_removal (root : String) (v : Verb) :
    Keeps (fun t _ => ¬ Told.Removing t) (fun t o => ∀ id, Told.Removed t id → o = .ok ()) []
      (v.program root).run := by
  have hother : (∀ force, v ≠ .delete v.id force) →
      Keeps (fun t _ => ¬ Told.Removing t) (fun t o => ∀ id, Told.Removed t id → o = .ok ()) []
        (v.program root).run := by
    intro hv
    have hcarry := Keeps.carry (J := fun t => ¬ Told.Removing t) (v.keeps root)
      Told.not_removing_nil
      fun t q r hq ht => Told.not_removing_append ht fun id hremove => by
        dsimp only at hremove
        subst hremove
        obtain ⟨-, force, hdelete⟩ := hq
        exact hv force hdelete
    refine hcarry.mono (fun _ _ hq => hq.2) fun t o ho id hremoved => ?_
    exact absurd ⟨id, _, hremoved⟩ ho.2
  cases v with
  | delete id force =>
    refine Keeps.mono (delete_removesLast root id force) (fun _ _ hq => hq) fun t o ho => ?_
    cases o with
    | ok _ => exact fun _ _ => rfl
    | error e => exact fun id hremoved => absurd hremoved (ho id)
  | create id bundle pidFile => exact hother (by simp)
  | start id => exact hother (by simp)
  | state id => exact hother (by simp)
  | kill id sigText => exact hother (by simp)

end Removal

end Runtt
