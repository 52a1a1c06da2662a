import Runtt.ConfirmGate
import Runtt.Resend

/-! # A reset that is sent again

The one request of a deploy that does not stand being sent twice.  The first reset boots
the marked image on probation; when its answer gets lost, the second one finds that image
unconfirmed and reverts it.  The deploy then meets the old image: it fails, and whatever
else happens on the way, the old image is what runs.
-/
namespace Runtt

open Interaction Program

variable {env : Env} {sha256 : Bytes → Bytes} {image digest : Bytes} {F : Image}
  {lost : Nat → Request → Nat} {l l' : Linked} {t : List Event}

/-! ## Two resets and more -/

variable (sha256) in
/-- A reset that is sent until its answer gets through resets the device as often, or is
never heard. -/
theorem World.askPast_reset (n : Nat) (w : World) :
    (askPast sha256 .reset n w).2.srv.dev = Device.reset^[n + 1] w.srv.dev ∨
      (askPast sha256 .reset n w).2.srv.dev = w.srv.dev := by
  cases hh : w.hears .reset with
  | false =>
    right
    induction n with
    | zero => rw [askPast, ask_deaf hh]
    | succ n ih => rw [askPast, ask_deaf hh, ih]
  | true =>
    left
    induction n generalizing w with
    | zero =>
      rw [askPast, ask_hears hh rfl]
      rfl
    | succ n ih =>
      have hfault : w.srv.dev.reset.fault = w.srv.dev.fault := w.srv.dev.reset_fault
      have hnext : ({ w with srv := { w.srv with dev := w.srv.dev.reset } } : World).hears .reset =
          true := by
        simpa only [hears, Server.withholds, hfault] using hh
      rw [askPast, ask_hears hh rfl]
      exact ih _ hnext

/-! ## What the old image survives -/

/-- The calls of a deploy of `digest` that do not confirm. -/
structure Confirmless (image digest : Bytes) (x : Event) : Prop where
  writes : x.question.writes = false ∨ x.question = .flash image ∨
    (∃ confirm, x.question = .setState digest confirm) ∨ x.question = .reset
  confirms : x.question.confirms = false

/-- **No call but a confirm takes `F` from slot 0**, where a reset is always sent again. -/
theorem staged_linked (h : l.world.srv.dev.Staged F digest) (hacc : Mcuboot.Accepts image digest)
    (hne : F.hash ≠ digest) (hlost : ∀ n, 0 < lost n .reset) {x : Event}
    (hx : Confirmless image digest x) :
    (env.linkedBench sha256 lost x.question l).2.world.srv.dev.Staged F digest := by
  obtain ⟨q, r⟩ := x
  by_cases hreset : q = .reset
  · subst hreset
    have hmove : (env.linkedBench sha256 lost .reset l).2.world =
        (World.askPast sha256 .reset (lost l.sent .reset) l.world).2 := rfl
    rw [hmove]
    rcases World.askPast_reset sha256 (lost l.sent .reset) l.world with hdev | hdev
    · rw [hdev]
      have htwo : 2 ≤ lost l.sent .reset + 1 := Nat.succ_le_succ (hlost l.sent)
      exact (Device.Recoverable.settles (.inl h) htwo).staged
    · rw [hdev]
      exact h
  · have hmove : (env.linkedBench sha256 lost q l).2.world = (env.bench sha256 q l.world).2 :=
      (linkedBench_eq (fun hq => absurd hq hreset)).2
    have hearly : Early image digest ⟨q, r⟩ := by
      rcases hx.writes with hq | hq | ⟨confirm, hq⟩ | hq
      · exact .inl hq
      · exact .inr (.inl hq)
      · cases confirm with
        | false => exact .inr (.inr hq)
        | true =>
          have hc := hx.confirms
          rw [hq] at hc
          cases hc
      · exact absurd hq hreset
    rw [hmove]
    exact early_staged hacc hne hearly h

/-- Nor does a stretch of them; and every image list read on the way shows `F` running. -/
theorem staged_along_linked (h : l.world.srv.dev.Staged F digest)
    (hacc : Mcuboot.Accepts image digest) (hne : F.hash ≠ digest) (hlost : ∀ n, 0 < lost n .reset)
    (ht : ∀ x ∈ t, Confirmless image digest x)
    (ha : Along (env.linkedBench sha256 lost) l t l') :
    l'.world.srv.dev.Staged F digest ∧ ∀ slots, ⟨.imageList, .ok slots⟩ ∈ t →
      ∃ dev : Device, dev.slot0 = some F ∧ slots = dev.imageStates.map SlotReport.toImageSlot := by
  induction t generalizing l with
  | nil =>
    cases along_nil_iff.mp ha
    exact ⟨h, fun slots hmem => by cases hmem⟩
  | cons x t ih =>
    obtain ⟨hx, ht⟩ := List.forall_mem_cons.mp ht
    obtain ⟨hreply, ha⟩ := along_cons_iff.mp ha
    obtain ⟨hend, hlists⟩ := ih (staged_linked h hacc hne hlost hx) ht ha
    refine ⟨hend, fun slots hmem => ?_⟩
    rcases List.mem_cons.mp hmem with rfl | hmem
    · refine ⟨l.world.srv.dev, h.running, ?_⟩
      have hlist : (env.linkedBench sha256 lost .imageList l).1 =
          (env.bench sha256 .imageList l.world).1 :=
        (linkedBench_eq (fun hq => by cases hq)).1 fun image hq => by cases hq
      rw [show (env.linkedBench sha256 lost .imageList l).1 = .ok slots from hreply.symm] at hlist
      rcases bench_imageList env sha256 l.world with ⟨e, hb⟩ | hb
      · rw [hb] at hlist
        cases hlist
      · rw [hb] at hlist
        exact Except.ok.inj hlist
    · exact hlists slots hmem

namespace Deploy
variable {d : Deploy} {o : Except Failure Unit}

/-- The calls of a run before its confirm. -/
theorem confirmless_of_run (hy : Yields d.run t o) (hf : d.firmware = .ok image)
    (hacc : Mcuboot.Accepts image digest) {x : Event} (hx : x ∈ t)
    (hc : x.question.confirms = false) : Confirmless image digest x := by
  refine ⟨?_, hc⟩
  rcases run_writes_cases hy hx with hq | ⟨image', digest', hf', hacc', hq⟩
  · exact .inl hq
  · rw [hf] at hf'
    cases hf'
    cases hacc.unique hacc'
    exact .inr hq

/-- A run ends well where it found its image running, or with its confirm. -/
theorem found_or_confirms (hy : Yields d.run t (.ok ())) (hf : d.firmware = .ok image)
    (hacc : Mcuboot.Accepts image digest) :
    (∃ slots, ⟨.imageList, .ok slots⟩ ∈ t ∧
      (AlreadyRuns digest slots ∨ FoundRunning digest slots)) ∨
    ⟨.setState digest true, .ok ()⟩ ∈ t := by
  rcases run_cases hy with
    ⟨f, ho, -⟩ | ⟨image', digest', p, s, a, slots, rest, hf', hacc', rfl, -, hrest⟩
  · cases ho
  rw [hf] at hf'
  cases hf'
  cases hacc.unique hacc'
  rcases hrest with ⟨-, -, -, hruns⟩ | ⟨-, -, hcourse⟩
  · exact .inl ⟨slots, by simp [vetting], .inl hruns⟩
  · cases hcourse with
    | @writtenDirectly slots' landed r q _ hlanded hactive hconf hq =>
      exact .inl ⟨slots', by simp, .inr ⟨landed, hlanded, hactive, hconf⟩⟩
    | confirmSent _ _ _ _ _ _ _ ho =>
      rcases ho with ⟨-, rfl, -⟩ | ⟨f, e, ho, -⟩
      · exact .inr (by simp)
      · cases ho

/-- A device that runs `F` does not list another digest as the active one. -/
theorem active_running {dev : Device} {active : ImageSlot} (h : dev.slot0 = some F)
    (hactive : activeSlot (dev.imageStates.map SlotReport.toImageSlot) = some active) :
    active.hash = some F.hash := by
  obtain ⟨img, h0, rfl⟩ := active_imageStates (List.mem_of_find?_eq_some hactive)
    (List.find?_some hactive)
  rw [h] at h0
  cases h0
  rfl

variable (env sha256) in
/-- **A reset that is sent again undoes the test.**  Whatever the mock's fault, whatever the
environment answers and whatever else the link loses: where the answer to the reset gets
lost, a deploy over another image fails, and that image is what runs, not on probation, now
and after any two more resets. -/
theorem lost_reset_reverts (hf : d.firmware = .ok image) (hacc : Mcuboot.Accepts image digest)
    (hne : F.hash ≠ digest) (hlost : ∀ n, 0 < lost n .reset)
    (h : l.world.srv.dev.Staged F digest) :
    let run := exec (env.linkedBench sha256 lost) d.run.run l
    (∃ f, run.1 = .error f) ∧ run.2.world.srv.dev.slot0 = some F ∧
      run.2.world.srv.dev.awaitingConfirm = false ∧
      ∀ n, 2 ≤ n → (Device.reset^[n] run.2.world.srv.dev).slot0 = some F := by
  intro run
  obtain ⟨hy, ha⟩ := exec_runs (h := env.linkedBench sha256 lost) d.run.run l
  change Runs _ _ run.1 at hy
  change Along _ _ _ run.2 at ha
  generalize trace (env.linkedBench sha256 lost) d.run.run l = t at hy ha
  -- a confirm would have seen this digest active
  have hno : ∀ x ∈ t, x.question.confirms = false := by
    rcases run_confirms_cases hy with
      hno | ⟨image', digest', pre, r, post, hf', hacc', heq, hclear, hpre, -⟩
    · exact hno
    exfalso
    rw [hf] at hf'
    cases hf'
    cases hacc.unique hacc'
    rw [heq] at ha
    obtain ⟨v, ha, -⟩ := along_append_iff.mp ha
    have hsafe : ∀ x ∈ pre, Confirmless image digest x := by
      intro x hx
      exact confirmless_of_run hy hf hacc (heq ▸ List.mem_append_left _ hx) (hpre x hx)
    obtain ⟨-, hlists⟩ := staged_along_linked h hacc hne hlost hsafe ha
    obtain ⟨slots, slots', p, s, a, -, ⟨active, hactive, hash⟩, -, hsub⟩ := hclear
    obtain ⟨dev, h0, rfl⟩ := hlists slots' (hsub.subset (by simp))
    rw [active_running h0 hactive] at hash
    exact hne (Option.some.inj hash)
  have hsafe : ∀ x ∈ t, Confirmless image digest x :=
    fun x hx => confirmless_of_run hy hf hacc hx (hno x hx)
  obtain ⟨hend, hlists⟩ := staged_along_linked h hacc hne hlost hsafe ha
  refine ⟨?_, hend.running, hend.awaiting,
    fun n hn => (Device.Recoverable.settles (.inl hend) hn).running⟩
  cases ho : run.1 with
  | error f => exact ⟨f, rfl⟩
  | ok u =>
    exfalso
    rw [ho] at hy
    rcases found_or_confirms hy hf hacc with ⟨slots, hmem, hshown⟩ | hmem
    · obtain ⟨dev, h0, rfl⟩ := hlists slots hmem
      rcases hshown with hruns | hfound
      · exact not_alreadyRuns h0 hne hruns
      · exact not_foundRunning h0 hne hfound
    · cases hno _ hmem

/-- A link that loses one answer to every reset, and no other. -/
def losesResets (_ : Nat) (req : Request) : Nat := if req = .reset then 1 else 0

/-- A factory-new mock behind such a link. -/
def behindLink : Linked := ⟨.start (.fresh sampleSha256 .none) "2.0.0", 0⟩

/-- Over that link the first release is not delivered, and the factory image runs. -/
theorem lost_reset_reverts_release :
    (∃ f, (exec ((Env.withinReach (.ok (describing "2.0.0"))).linkedBench sampleSha256 losesResets)
      (someRelease true).run.run behindLink).1 = .error f) ∧
    (exec ((Env.withinReach (.ok (describing "2.0.0"))).linkedBench sampleSha256 losesResets)
      (someRelease true).run.run behindLink).2.world.srv.dev.slot0 =
        some (factoryImage sampleSha256) := by
  have hsettled : behindLink.world.srv.dev.Settled (factoryImage sampleSha256) :=
    settled_provisioned (Device.provisioned_eq .none)
  have hne : (factoryImage sampleSha256).hash ≠ List.replicate 32 1 := by decide
  have hlost : ∀ n, 0 < losesResets n .reset := fun _ => Nat.one_pos
  have hreverts := lost_reset_reverts (Env.withinReach (.ok (describing "2.0.0"))) sampleSha256
    (d := someRelease true) rfl
    (Mcuboot.accepts_signedImage List.length_replicate) hne hlost hsettled.staged
  exact ⟨hreverts.1, hreverts.2.1⟩

end Deploy

end Runtt
