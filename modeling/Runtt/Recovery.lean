import Mathlib.Logic.Function.Iterate
import Runtt.ConfirmGate
import Runtt.Upload

/-! # A deploy that does not confirm can be taken back

Whatever the environment does, a deploy that gets no confirm acknowledged moves the
mock only between two situations: the old image runs, with at most a test-marked
upload beside it (`Staged`), or the upload is on probation with the old image behind
it (`OnTrial`).  The bootloader leads back from either to the old image.
-/
namespace Runtt

open Interaction Program

namespace Device
variable {F : Image} {digest : Bytes} {dev : Device}

/-- `F` runs, and what slot 1 holds will not boot permanent: if it is pending, it is a
test of `digest`. -/
structure Staged (F : Image) (digest : Bytes) (dev : Device) : Prop where
  awaiting : dev.awaitingConfirm = false
  running : dev.slot0 = some F
  staged : ∀ s1, dev.slot1 = some s1 → s1.pending = true →
    s1.permanent = false ∧ s1.hash = digest

/-- `F` runs, and nothing is going to change that. -/
structure Settled (F : Image) (dev : Device) : Prop where
  awaiting : dev.awaitingConfirm = false
  running : dev.slot0 = some F
  idle : ∀ s1, dev.slot1 = some s1 → s1.pending = false

/-- `digest` is on probation, with `F` behind it. -/
structure OnTrial (F : Image) (digest : Bytes) (dev : Device) : Prop where
  awaiting : dev.awaitingConfirm = true
  running : ∃ X, dev.slot0 = some X ∧ X.hash = digest ∧ X.confirmed = false ∧ X.pending = false
  fallback : dev.slot1 = some F

/-- One of the situations a deploy of `digest` over `F` leaves without a confirm. -/
def Recoverable (F : Image) (digest : Bytes) (dev : Device) : Prop :=
  dev.Staged F digest ∨ dev.OnTrial F digest

theorem Settled.staged (h : dev.Settled F) : dev.Staged F digest :=
  ⟨h.awaiting, h.running, fun s1 h1 hp => absurd hp (Bool.eq_false_iff.mp (h.idle s1 h1))⟩

theorem Settled.reset (h : dev.Settled F) : dev.reset.Settled F := by
  rw [reset_stays h.awaiting h.idle]
  exact ⟨h.awaiting, h.running, h.idle⟩

/-- The test swap, or nothing. -/
theorem Staged.reset (h : dev.Staged F digest) :
    dev.reset.Settled F ∨ dev.reset.OnTrial F digest := by
  rcases reset_settled_cases h.awaiting with ⟨X, h1, hp, hr⟩ | ⟨hnp, hr⟩
  · obtain ⟨htest, hash⟩ := h.staged X h1 hp
    rw [hr]
    exact .inr ⟨by rw [afterSwap, htest]; rfl, ⟨_, rfl, hash, htest, rfl⟩, h.running⟩
  · rw [hr]
    exact .inl ⟨h.awaiting, h.running, hnp⟩

/-- The revert. -/
theorem OnTrial.reset (h : dev.OnTrial F digest) : dev.reset.Settled F := by
  obtain ⟨X, h0, -, -, hidle⟩ := h.running
  rw [reset_reverts h.awaiting h0]
  refine ⟨rfl, h.fallback, ?_⟩
  intro s1 h1
  cases h1
  exact hidle

theorem Recoverable.reset (h : dev.Recoverable F digest) : dev.reset.Recoverable F digest := by
  rcases h with h | h
  · exact h.reset.imp Settled.staged id
  · exact .inl h.reset.staged

theorem settled_iterate (h : dev.Settled F) (n : Nat) : (Device.reset^[n] dev).Settled F := by
  induction n generalizing dev with
  | zero => exact h
  | succ n ih => exact ih h.reset

/-- **Two resets settle it.** -/
theorem Recoverable.settles (h : dev.Recoverable F digest) {n : Nat} (hn : 2 ≤ n) :
    (Device.reset^[n] dev).Settled F := by
  obtain ⟨n, rfl⟩ := Nat.exists_eq_add_of_le' hn
  show (Device.reset^[n] dev.reset.reset).Settled F
  apply settled_iterate
  rcases h with h | h
  · exact h.reset.elim Settled.reset OnTrial.reset
  · exact h.reset.reset

end Device

/-! ## The calls of a deploy -/

section Calls
variable {env : Env} {sha256 : Bytes → Bytes} {image digest : Bytes} {F : Image} {w : World}

/-- The calls up to the test mark. -/
def Early (image digest : Bytes) (x : Event) : Prop :=
  x.question.writes = false ∨ x.question = .flash image ∨ x.question = .setState digest false

/-- The calls from the reset on, but for an acknowledged confirm. -/
def Late (digest : Bytes) (x : Event) : Prop :=
  x.question.writes = false ∨ x.question = .reset ∨ ∃ e, x = ⟨.setState digest true, .error e⟩

/-- A quiet call leaves every fact about the server as it was. -/
theorem quiet_preserves {P : Device → Prop} {x : Event} (hq : x.question.writes = false)
    (h : P w.srv.dev) : P (env.bench sha256 x.question w).2.srv.dev := by
  rw [(bench_quiet hq).1]
  exact h

/-- An image offered to slot 1 is not pending. -/
theorem Offered.staged {img : Image} {w' : World} (h : Offered img w w') (hfresh : img.Fresh)
    (hs : w.srv.dev.Staged F digest) : w'.srv.dev.Staged F digest := by
  refine ⟨h.keeps.awaitingConfirm.trans hs.awaiting, h.keeps.slot0.trans hs.running, ?_⟩
  intro s1 h1 hp
  rcases h.slot1 with hold | hnew
  · exact hs.staged s1 (hold ▸ h1) hp
  · rw [hnew] at h1
    cases h1
    rw [hfresh.pending] at hp
    cases hp

/-- **The calls up to the test mark keep the old image running.** -/
theorem early_staged (hacc : Mcuboot.Accepts image digest) (hne : F.hash ≠ digest) {x : Event}
    (hx : Early image digest x) (h : w.srv.dev.Staged F digest) :
    (env.bench sha256 x.question w).2.srv.dev.Staged F digest := by
  obtain ⟨q, r⟩ := x
  rcases hx with hq | rfl | rfl
  · exact quiet_preserves hq h
  · obtain ⟨img, hrec, -⟩ := Image.fromBytes_of_accepts hacc "2.0.0+staged"
    obtain ⟨r', w', hb, hoff, -⟩ := flash_cases env w hacc.pos hrec
    rw [hb]
    exact hoff.staged (Image.fresh_of_fromBytes hrec) h
  · rcases bench_setState env sha256 w digest false with ⟨e, hb⟩ | ⟨dev', hs, hb⟩
    · rw [hb]
      exact h
    · rw [hb]
      rcases Device.setState_cases hs with
        ⟨msg, -, rfl, -⟩ | ⟨s0, h0, hh, -, -⟩ | ⟨s1, h1, hh, -, -, rfl⟩
      · exact h
      · -- slot 0 runs another digest
        rw [h.running] at h0
        cases h0
        rcases hh with hh | hh
        · cases hh
        · exact absurd (Option.some.inj hh).symm hne
      · refine ⟨h.awaiting, h.running, ?_⟩
        intro s hs' _
        cases hs'
        exact ⟨rfl, (Option.some.inj hh).symm⟩

/-- **From the reset on, the old image runs or is one revert away.** -/
theorem late_recoverable {x : Event} (hx : Late digest x)
    (hreply : x.reply = (env.bench sha256 x.question w).1)
    (h : w.srv.dev.Recoverable F digest) :
    (env.bench sha256 x.question w).2.srv.dev.Recoverable F digest := by
  rcases hx with hq | hq | ⟨e, rfl⟩
  · exact quiet_preserves hq h
  · obtain ⟨q, r⟩ := x
    subst hq
    rcases bench_reset env sha256 w with ⟨e, hb⟩ | hb
    · rw [hb]
      exact h
    · rw [hb]
      exact h.reset
  · rcases bench_setState env sha256 w digest true with ⟨e', hb⟩ | ⟨dev', -, hb⟩
    · rw [hb]
      exact h
    · rw [hb] at hreply
      cases hreply

end Calls

/-! ## The whole deploy -/

theorem Quiet.early {image digest : Bytes} {q : List Event} (h : Quiet q) :
    ∀ x ∈ q, Early image digest x := fun x hx => .inl (h x hx)

theorem Quiet.late {digest : Bytes} {q : List Event} (h : Quiet q) : ∀ x ∈ q, Late digest x :=
  fun x hx => .inl (h x hx)

namespace Deploy
variable {image digest : Bytes} {t : List Event} {o : Except Failure Unit}

/-- No confirm of `t` was acknowledged. -/
def Unconfirmed (digest : Bytes) (t : List Event) : Prop := ⟨.setState digest true, .ok ()⟩ ∉ t

/-- The image list after the upload shows the image running and confirmed already. -/
def FoundRunning (digest : Bytes) (slots : List ImageSlot) : Prop :=
  ∃ landed, slotHolding digest slots = some landed ∧ landed.active = true ∧
    landed.confirmed = true

/-- **Without a confirm, an installation is its early calls and then its late ones**,
or it found the image running. -/
theorem Course.phases (h : Course image digest t o) (hno : Unconfirmed digest t) :
    (∃ slots rest, t = ⟨.flash image, .ok ()⟩ :: ⟨.imageList, .ok slots⟩ :: rest ∧
      FoundRunning digest slots) ∨
    ∃ early late, t = early ++ late ∧ (∀ x ∈ early, Early image digest x) ∧
      ∀ x ∈ late, Late digest x := by
  cases h with
  | @uploadFailed f e =>
    exact .inr ⟨[⟨.flash image, .error e⟩, ⟨.drop, ()⟩], [], rfl,
      by simp [Early, Call.writes], by simp⟩
  | @notLanded f q hq =>
    have hend : Quiet (q ++ [⟨.drop, ()⟩]) := by simp [hq.quiet, Call.writes]
    exact .inr ⟨⟨.flash image, .ok ()⟩ :: (q ++ [⟨.drop, ()⟩]), [], (List.append_nil _).symm,
      List.forall_mem_cons.mpr ⟨.inr (.inl rfl), hend.early⟩, by simp⟩
  | @writtenDirectly slots landed r q o hlanded hactive hconf hq =>
    exact .inl ⟨slots, _, rfl, landed, hlanded, hactive, hconf⟩
  | @markRefused slots f e =>
    exact .inr ⟨[⟨.flash image, .ok ()⟩, ⟨.imageList, .ok slots⟩,
      ⟨.setState digest false, .error e⟩, ⟨.drop, ()⟩], [], rfl,
      by simp [Early, Call.writes], by simp⟩
  | @resetRefused slots f e =>
    exact .inr ⟨[⟨.flash image, .ok ()⟩, ⟨.imageList, .ok slots⟩,
      ⟨.setState digest false, .ok ()⟩], [⟨.reset, .error e⟩, ⟨.drop, ()⟩], rfl,
      by simp [Early, Call.writes], by simp [Late, Call.writes]⟩
  | @notBack slots f q hq _ =>
    have hend : Quiet (⟨.drop, ()⟩ :: q) := by simp [hq.quiet, Call.writes]
    exact .inr ⟨[⟨.flash image, .ok ()⟩, ⟨.imageList, .ok slots⟩,
      ⟨.setState digest false, .ok ()⟩], ⟨.reset, .ok ()⟩ :: ⟨.drop, ()⟩ :: q, rfl,
      by simp [Early, Call.writes],
      List.forall_mem_cons.mpr ⟨.inr (.inl rfl), hend.late⟩⟩
  | @notConfirmed slots f q q' hq hunproven =>
    have hend : Quiet (⟨.drop, ()⟩ :: (q ++ (q' ++ [⟨.drop, ()⟩]))) := by
      simp [hq.quiet, hunproven.quiet, Call.writes]
    exact .inr ⟨[⟨.flash image, .ok ()⟩, ⟨.imageList, .ok slots⟩,
      ⟨.setState digest false, .ok ()⟩], ⟨.reset, .ok ()⟩ :: ⟨.drop, ()⟩ ::
        (q ++ (q' ++ [⟨.drop, ()⟩])), rfl, by simp [Early, Call.writes],
      List.forall_mem_cons.mpr ⟨.inr (.inl rfl), hend.late⟩⟩
  | @confirmSent slots slots' landed active q a r tail o hlanded _ hq _ _ _ _ ho =>
    rcases ho with ⟨-, rfl, rfl⟩ | ⟨f, e, -, rfl, rfl⟩
    · exact absurd (by simp) hno
    · refine .inr ⟨[⟨.flash image, .ok ()⟩, ⟨.imageList, .ok slots⟩,
        ⟨.setState digest false, .ok ()⟩], ⟨.reset, .ok ()⟩ :: ⟨.drop, ()⟩ :: (q ++
          [⟨.imageList, .ok slots'⟩, ⟨.describe, a⟩, ⟨.setState digest true, .error e⟩,
            ⟨.drop, ()⟩]), rfl, by simp [Early, Call.writes], ?_⟩
      refine List.forall_mem_cons.mpr ⟨.inr (.inl rfl), List.forall_mem_cons.mpr ⟨.inl rfl, ?_⟩⟩
      refine List.forall_mem_append.mpr ⟨hq.quiet.late, ?_⟩
      simp only [List.forall_mem_cons, Late]
      exact ⟨.inl rfl, .inl rfl, .inr (.inr ⟨e, rfl⟩), .inl rfl, List.forall_mem_nil _⟩

variable {env : Env} {sha256 : Bytes → Bytes} {F : Image} {d : Deploy} {w w' : World}

/-- The only active slot a device reports is its slot 0. -/
theorem active_imageStates {dev : Device} {s : ImageSlot}
    (h : s ∈ dev.imageStates.map SlotReport.toImageSlot) (hactive : s.active = true) :
    ∃ img, dev.slot0 = some img ∧ s = SlotReport.toImageSlot ⟨0, true, img⟩ := by
  obtain ⟨r, hr, rfl⟩ := List.mem_map.mp h
  rcases List.mem_append.mp hr with hr | hr
  · obtain ⟨img, hi, rfl⟩ := List.mem_map.mp hr
    exact ⟨img, Option.mem_toList.mp hi, rfl⟩
  · obtain ⟨img, -, rfl⟩ := List.mem_map.mp hr
    cases hactive

/-- A device that runs another digest does not show this one running. -/
theorem not_foundRunning {dev : Device} (h : dev.slot0 = some F) (hne : F.hash ≠ digest) :
    ¬ FoundRunning digest (dev.imageStates.map SlotReport.toImageSlot) := by
  rintro ⟨landed, hlanded, hactive, -⟩
  obtain ⟨img, h0, rfl⟩ := active_imageStates (List.mem_of_find?_eq_some hlanded) hactive
  rw [h] at h0
  cases h0
  exact hne (by simpa [SlotReport.toImageSlot] using List.find?_some hlanded)

theorem not_alreadyRuns {dev : Device} (h : dev.slot0 = some F) (hne : F.hash ≠ digest) :
    ¬ AlreadyRuns digest (dev.imageStates.map SlotReport.toImageSlot) := by
  rintro ⟨active, hfind, hash, -⟩
  obtain ⟨img, h0, rfl⟩ := active_imageStates (List.mem_of_find?_eq_some hfind)
    (List.find?_some hfind)
  rw [h] at h0
  cases h0
  exact hne (Option.some.inj hash)

/-- An image list that was read is the device's. -/
theorem imageList_reply {slots : List ImageSlot} {rest : List Event}
    (ha : Along (env.bench sha256) w (⟨.imageList, .ok slots⟩ :: rest) w') :
    slots = w.srv.dev.imageStates.map SlotReport.toImageSlot := by
  obtain ⟨hlist, -⟩ := along_cons_iff.mp ha
  rcases bench_imageList env sha256 w with ⟨e, hb⟩ | hb
  · rw [hb] at hlist
    cases hlist
  · rw [hb] at hlist
    exact Except.ok.inj hlist

/-- Early calls and then late ones, from an image that runs undisturbed. -/
theorem phases_recoverable {early late : List Event} (hacc : Mcuboot.Accepts image digest)
    (hne : F.hash ≠ digest) (hearly : ∀ x ∈ early, Early image digest x)
    (hlate : ∀ x ∈ late, Late digest x) (ha : Along (env.bench sha256) w (early ++ late) w')
    (h : w.srv.dev.Staged F digest) :
    Throughout (env.bench sha256) (fun v => v.srv.dev.Recoverable F digest) w (early ++ late) ∧
      w'.srv.dev.Recoverable F digest := by
  obtain ⟨v, ha₁, ha₂⟩ := along_append_iff.mp ha
  obtain ⟨hthrough₁, hv⟩ := ha₁.preserves (P := fun v => v.srv.dev.Staged F digest) h
    fun x hx v hv _ => early_staged hacc hne (hearly x hx) hv
  obtain ⟨hthrough₂, hw'⟩ := ha₂.preserves (P := fun v => v.srv.dev.Recoverable F digest)
    (.inl hv) fun x hx v hv hreply => late_recoverable (hlate x hx) hreply hv
  exact ⟨(hthrough₁.mono fun _ => .inl).append ha₁ hthrough₂, hw'⟩

/-- The image list of the checks shows the old image running. -/
theorem not_alreadyRuns_at_vetting {p : Except Error Unit} {s : String}
    {a : Except Error Describe} {slots : List ImageSlot} {rest : List Event}
    (hacc : Mcuboot.Accepts image digest) (hne : F.hash ≠ digest)
    (ha : Along (env.bench sha256) w (vetting p s a slots ++ rest) w')
    (h : w.srv.dev.Staged F digest) : ¬ AlreadyRuns digest slots := by
  have hsplit : vetting p s a slots ++ rest =
      [⟨.openChannel, .ok ()⟩, ⟨.params, p⟩, ⟨.echo "runtt", .ok s⟩, ⟨.describe, a⟩] ++
        ⟨.imageList, .ok slots⟩ :: rest := rfl
  rw [hsplit] at ha
  obtain ⟨v, ha₁, ha₂⟩ := along_append_iff.mp ha
  obtain ⟨-, hv⟩ := ha₁.preserves (P := fun v => v.srv.dev.Staged F digest) h
    fun x hx v hv _ => early_staged hacc hne
      (Quiet.early (by simp [Call.writes]) x hx) hv
  rw [imageList_reply ha₂]
  exact not_alreadyRuns hv.running hne

/-- So does the one after the upload. -/
theorem not_foundRunning_after_flash {p : Except Error Unit} {s : String}
    {a : Except Error Describe} {slots slots' : List ImageSlot} {r : Except Error Unit}
    {rest : List Event} (hacc : Mcuboot.Accepts image digest) (hne : F.hash ≠ digest)
    (ha : Along (env.bench sha256) w
      (vetting p s a slots ++ ⟨.flash image, r⟩ :: ⟨.imageList, .ok slots'⟩ :: rest) w')
    (h : w.srv.dev.Staged F digest) : ¬ FoundRunning digest slots' := by
  have hsplit : vetting p s a slots ++ ⟨.flash image, r⟩ :: ⟨.imageList, .ok slots'⟩ :: rest =
      (vetting p s a slots ++ [⟨.flash image, r⟩]) ++ ⟨.imageList, .ok slots'⟩ :: rest := rfl
  rw [hsplit] at ha
  obtain ⟨v, ha₁, ha₂⟩ := along_append_iff.mp ha
  have hearly : ∀ x ∈ vetting p s a slots ++ [⟨.flash image, r⟩], Early image digest x :=
    List.forall_mem_append.mpr ⟨quiet_vetting.early, List.forall_mem_singleton.mpr (.inr (.inl rfl))⟩
  obtain ⟨-, hv⟩ := ha₁.preserves (P := fun v => v.srv.dev.Staged F digest) h
    fun x hx v hv _ => early_staged hacc hne (hearly x hx) hv
  rw [imageList_reply ha₂]
  exact not_foundRunning hv.running hne

/-- **A deploy over another image, with no confirm acknowledged, stays recoverable at
every step.** -/
theorem recoverable_throughout (hf : d.firmware = .ok image)
    (hacc : Mcuboot.Accepts image digest) (hy : Yields d.run t o)
    (ha : Along (env.bench sha256) w t w') (hne : F.hash ≠ digest)
    (hno : Unconfirmed digest t) (h : w.srv.dev.Staged F digest) :
    Throughout (env.bench sha256) (fun v => v.srv.dev.Recoverable F digest) w t ∧
      w'.srv.dev.Recoverable F digest := by
  have hquiet {q : List Event} {v : World} (hq : Quiet q) (ha : Along (env.bench sha256) w q v) :
      Throughout (env.bench sha256) (fun v => v.srv.dev.Recoverable F digest) w q ∧
        v.srv.dev.Recoverable F digest := by
    rw [← List.append_nil q] at ha ⊢
    exact phases_recoverable hacc hne hq.early (List.forall_mem_nil _) ha h
  rcases run_cases hy with
    ⟨f, -, hq⟩ | ⟨image', digest', p, s, a, slots, rest, hf', hacc', rfl, -, ⟨-, rfl, -⟩ |
    ⟨-, -, hcourse⟩⟩
  · exact hquiet hq.quiet ha
  · rw [List.append_nil] at ha ⊢
    exact hquiet quiet_vetting ha
  rw [hf] at hf'
  cases hf'
  cases hacc.unique hacc'
  rcases hcourse.phases fun hmem => hno (List.mem_append_right _ hmem) with
    ⟨slots', rest', rfl, hfound⟩ | ⟨early, late, rfl, hearly, hlate⟩
  · -- the list after the upload is the device's, and it runs the old image
    exact absurd hfound (not_foundRunning_after_flash hacc hne ha h)
  · rw [← List.append_assoc] at ha ⊢
    refine phases_recoverable hacc hne (List.forall_mem_append.mpr ⟨?_, hearly⟩) hlate ha h
    exact quiet_vetting.early

/-- A run that fails had no confirm acknowledged. -/
theorem unconfirmed_of_error {f : Failure} (hy : Yields d.run t (.error f)) :
    Unconfirmed digest t := by
  intro hmem
  rcases run_confirms_cases hy with
    hno | ⟨image, digest', pre, r, post, -, -, rfl, -, hpre, hpost, ho | ⟨e, rfl⟩⟩
  · cases hno _ hmem
  · cases ho
  · rcases List.mem_append.mp hmem with hmem | hmem
    · cases hpre _ hmem
    · rcases List.mem_cons.mp hmem with heq | hmem
      · cases heq
      · cases hpost _ hmem

/-- A deploy on the bench: how it ends, and the world it leaves. -/
def runOn (env : Env) (sha256 : Bytes → Bytes) (d : Deploy) (w : World) :
    Except Failure Unit × World := exec (env.bench sha256) d.run.run w

theorem settled_provisioned {fault : Fault} {dev : Device}
    (h : Device.provisioned sha256 fault = .ok dev) : dev.Settled (factoryImage sha256) := by
  rw [Device.provisioned_eq] at h
  cases h
  exact ⟨rfl, rfl, nofun⟩

/-- **A failed deploy is recoverable.**  Whatever the fault and whatever the environment
answers: when a deploy of another image to the provisioned mock fails, two or more
resets bring the factory image back, confirmed. -/
theorem failed_deploy_recovers {fault : Fault} {dev : Device}
    (hdev : Device.provisioned sha256 fault = .ok dev) {contract : String}
    (hf : d.firmware = .ok image) (hacc : Mcuboot.Accepts image digest)
    (hne : digest ≠ sha256 FACTORY_IMAGE) {f : Failure}
    (hrun : (d.runOn env sha256 (.start dev contract)).1 = .error f) {n : Nat} (hn : 2 ≤ n) :
    let dev' := Device.reset^[n] (d.runOn env sha256 (.start dev contract)).2.srv.dev
    dev'.slot0 = some (factoryImage sha256) ∧ (factoryImage sha256).confirmed = true ∧
      dev'.awaitingConfirm = false := by
  obtain ⟨hy, ha⟩ := exec_runs (h := env.bench sha256) d.run.run (.start dev contract)
  rw [runOn] at hrun
  rw [hrun] at hy
  have hrec := (recoverable_throughout hf hacc hy ha hne.symm (unconfirmed_of_error hy)
    (settled_provisioned hdev).staged).2
  exact ⟨(hrec.settles hn).running, rfl, (hrec.settles hn).awaiting⟩

/-- A describe that reports the contract version `version` and is otherwise the mock's. -/
def describing (version : String) : Describe :=
  { contract := version, board := "runtt-mock", appVersion := "0.1.0", channels := 2,
    img := some true, idle := some false, appHealthy := none, provisioned := none,
    serial := none, canNodeId := none }

/-- An image that speaks another contract is on probation when the deploy fails, and
gone three resets later. -/
theorem failed_deploy_recovers_mismatch :
    let w := ((someRelease true).runOn (.withinReach (.ok (describing "9.0.0"))) sampleSha256
      (.start (.fresh sampleSha256 .none) "9.0.0")).2
    w.srv.dev.awaitingConfirm = true ∧
      (Device.reset^[3] w.srv.dev).slot0 = some (factoryImage sampleSha256) := by
  let run := (someRelease true).runOn (.withinReach (.ok (describing "9.0.0"))) sampleSha256
    (.start (.fresh sampleSha256 .none) "9.0.0")
  obtain ⟨f, hf⟩ : ∃ f, run.1 = .error f := by
    have hb : run.1.toBool = false := by decide +kernel
    cases ho : run.1 with
    | ok u =>
      rw [ho] at hb
      cases hb
    | error f => exact ⟨f, rfl⟩
  exact ⟨by decide +kernel, (failed_deploy_recovers (Device.provisioned_eq .none) rfl
    (Mcuboot.accepts_signedImage List.length_replicate) (by decide +kernel) hf (by decide)).1⟩

end Deploy
end Runtt
