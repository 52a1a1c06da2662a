import Runtt.Recovery

/-! # Deploys that are run again

A restart policy runs the same deploy over and over, with resets in between.  Two
promises are about such histories: an image whose contract the runtime does not
implement is never confirmed, and an image the device has reverted is not sent again.
-/
namespace Runtt

open Interaction Program

variable {env : Env} {sha256 : Bytes → Bytes} {image digest : Bytes} {F : Image} {w w' : World}

/-- One thing that happens to a device: a deploy, or a reset from outside. -/
inductive Act where
  | deploy (d : Deploy)
  | reset

namespace Act

/-- The world after it. -/
def play (env : Env) (sha256 : Bytes → Bytes) (w : World) : Act → World
  | deploy d => (d.runOn env sha256 w).2
  | reset => { w with srv := { w.srv with dev := w.srv.dev.reset } }

/-- What a deploy exchanges with the device on the way; a reset from outside exchanges
nothing. -/
def exchanges (env : Env) (sha256 : Bytes → Bytes) (w : World) : Act → List Event
  | deploy d => trace (env.bench sha256) d.run.run w
  | reset => []

end Act

/-- The world after a history. -/
def playAll (env : Env) (sha256 : Bytes → Bytes) (w : World) (acts : List Act) : World :=
  acts.foldl (Act.play env sha256) w

/-! ## Another contract is never confirmed -/

/-- Slot 0 holds the image with this digest, confirmed. -/
def HoldsConfirmed (digest : Bytes) (dev : Device) : Prop :=
  ∃ img, dev.slot0 = some img ∧ img.hash = digest ∧ img.confirmed = true

instance (digest : Bytes) (dev : Device) : Decidable (HoldsConfirmed digest dev) :=
  decidable_of_iff (dev.slot0.any (fun img => img.hash == digest && img.confirmed) = true)
    (by simp [HoldsConfirmed, Option.any_eq_true])

/-- Slot 0 holds the image with this digest. -/
abbrev RunsImage (digest : Bytes) (dev : Device) : Prop := dev.slot0.map Image.hash = some digest

/-- `describe` always answers, and always with another contract. -/
def Env.SpeaksAnother (env : Env) : Prop :=
  ∀ n srv, ∃ a, env.describe n srv = .ok a ∧ contractMajor a.contract ≠ some CONTRACT_MAJOR

theorem not_holdsConfirmed (h : w.srv.dev.Recoverable F digest) (hne : F.hash ≠ digest) :
    ¬ HoldsConfirmed digest w.srv.dev := by
  rintro ⟨img, h0, hash, hconf⟩
  rcases h with h | h
  · rw [h.running] at h0
    cases h0
    exact hne hash
  · obtain ⟨X, hX, -, hunconf, -⟩ := h.running
    rw [hX] at h0
    cases h0
    rw [hunconf] at hconf
    cases hconf

/-- Every describe of a bench run is the environment's. -/
theorem describe_reply {t : List Event} {a : Except Error Describe}
    (ha : Along (env.bench sha256) w t w') (hmem : ⟨.describe, a⟩ ∈ t) :
    ∃ n srv, a = env.describe n srv := by
  obtain ⟨s, u, rfl⟩ := List.append_of_mem hmem
  obtain ⟨v, -, ha⟩ := along_append_iff.mp ha
  obtain ⟨hreply, -⟩ := along_cons_iff.mp ha
  exact ⟨v.tick, v.srv, hreply⟩

namespace Deploy
variable {d : Deploy} {t : List Event} {o : Except Failure Unit}

/-- Without a describe that matches, no confirm is acknowledged. -/
theorem unconfirmed_of_mismatch (hy : Yields d.run t o)
    (hmis : ∀ a, ⟨.describe, a⟩ ∈ t → ¬ ContractMatches a) : Unconfirmed digest t := by
  intro hmem
  rcases run_confirms_cases hy with
    hno | ⟨image', digest', pre, r, post, -, -, rfl, ⟨_, _, _, _, a, -, -, hmatch, hsub⟩, -⟩
  · cases hno _ hmem
  · exact hmis a (List.mem_append_left _ (hsub.subset (by simp))) hmatch

/-- An `Ok` without a confirm would take a device that runs the image already. -/
theorem not_ok_of_unconfirmed (hf : d.firmware = .ok image) (hacc : Mcuboot.Accepts image digest)
    (hy : Yields d.run t (.ok ())) (ha : Along (env.bench sha256) w t w') (hne : F.hash ≠ digest)
    (h : w.srv.dev.Staged F digest) : ¬ Unconfirmed digest t := by
  intro hno
  rcases run_cases hy with
    ⟨f, ho, -⟩ | ⟨image', digest', p, s, a, slots, rest, hf', hacc', rfl, -, hrest⟩
  · cases ho
  rw [hf] at hf'
  cases hf'
  cases hacc.unique hacc'
  rcases hrest with ⟨-, rfl, -, hruns⟩ | ⟨-, -, hcourse⟩
  · exact not_alreadyRuns_at_vetting hacc hne ha h hruns
  · cases hcourse with
    | writtenDirectly hlanded hactive hconf hq =>
      exact not_foundRunning_after_flash hacc hne ha h ⟨_, hlanded, hactive, hconf⟩
    | confirmSent _ _ _ _ _ _ _ ho =>
      rcases ho with ⟨-, rfl, -⟩ | ⟨f, e, ho, -⟩
      · exact hno (by simp)
      · cases ho

end Deploy

variable (sha256) in
/-- One deploy with another contract, from a device that runs another image. -/
theorem deploy_mismatch {d : Deploy} (henv : env.SpeaksAnother) (hf : d.firmware = .ok image)
    (hacc : Mcuboot.Accepts image digest) (hne : F.hash ≠ digest)
    (h : w.srv.dev.Staged F digest) :
    Throughout (env.bench sha256) (fun v => v.srv.dev.Recoverable F digest) w
        (trace (env.bench sha256) d.run.run w) ∧
      (d.runOn env sha256 w).2.srv.dev.Recoverable F digest ∧
      (d.runOn env sha256 w).1 ≠ .ok () := by
  obtain ⟨hy, ha⟩ := exec_runs (h := env.bench sha256) d.run.run w
  have hno : Deploy.Unconfirmed digest (trace (env.bench sha256) d.run.run w) := by
    apply Deploy.unconfirmed_of_mismatch hy
    intro a hmem hmatch
    obtain ⟨n, srv, rfl⟩ := describe_reply ha hmem
    obtain ⟨a, hdesc, hwrong⟩ := henv n srv
    exact hwrong (hmatch a hdesc)
  obtain ⟨hthrough, hend⟩ := Deploy.recoverable_throughout hf hacc hy ha hne hno h
  refine ⟨hthrough, hend, ?_⟩
  intro hok
  rw [Deploy.runOn] at hok
  rw [hok] at hy
  exact Deploy.not_ok_of_unconfirmed hf hacc hy ha hne h hno

variable (sha256) in
/-- One act of a history with another contract: it keeps the device recoverable, and
confirms nothing on the way. -/
theorem act_mismatch {act : Act} (henv : env.SpeaksAnother) (hacc : Mcuboot.Accepts image digest)
    (hne : F.hash ≠ digest) (hsame : ∀ d, act = .deploy d → d.firmware = .ok image)
    (hstart : ∀ d, act = .deploy d → ¬ RunsImage digest w.srv.dev)
    (h : w.srv.dev.Recoverable F digest) :
    (act.play env sha256 w).srv.dev.Recoverable F digest ∧
      Throughout (env.bench sha256) (fun v => ¬ HoldsConfirmed digest v.srv.dev) w
        (act.exchanges env sha256 w) ∧
      ∀ d, act = .deploy d → (d.runOn env sha256 w).1 ≠ .ok () := by
  cases act with
  | reset => exact ⟨h.reset, not_holdsConfirmed h hne, nofun⟩
  | deploy d =>
    rcases h with h | h
    · obtain ⟨hthrough, hend, hok⟩ :=
        deploy_mismatch sha256 henv (hsame d rfl) hacc hne h
      refine ⟨hend, hthrough.mono fun v hv => not_holdsConfirmed hv hne, ?_⟩
      intro d' hd
      cases hd
      exact hok
    · -- on trial, slot 0 runs the image
      obtain ⟨X, h0, hash, -⟩ := h.running
      exact absurd (by rw [RunsImage, h0, ← hash]; rfl) (hstart d rfl)

/-- **An image with another contract is never confirmed**, however often it is deployed
and the device reset, as long as no deploy starts while slot 0 runs it: at no moment
does slot 0 hold it confirmed, and no run returns `Ok`. -/
theorem mismatch_never_confirmed {fault : Fault} {dev : Device} {contract : String}
    (hdev : Device.provisioned sha256 fault = .ok dev) (henv : env.SpeaksAnother)
    (hacc : Mcuboot.Accepts image digest) (hne : digest ≠ sha256 FACTORY_IMAGE)
    {acts : List Act} (hsame : ∀ d, .deploy d ∈ acts → d.firmware = .ok image)
    (hstart : ∀ pre d post, acts = pre ++ .deploy d :: post →
      ¬ RunsImage digest (playAll env sha256 (.start dev contract) pre).srv.dev) :
    ¬ HoldsConfirmed digest (playAll env sha256 (.start dev contract) acts).srv.dev ∧
    ∀ pre act post, acts = pre ++ act :: post →
      Throughout (env.bench sha256) (fun v => ¬ HoldsConfirmed digest v.srv.dev)
        (playAll env sha256 (.start dev contract) pre)
        (act.exchanges env sha256 (playAll env sha256 (.start dev contract) pre)) ∧
      ∀ d, act = .deploy d →
        (d.runOn env sha256 (playAll env sha256 (.start dev contract) pre)).1 ≠ .ok () := by
  have hfactory : (factoryImage sha256).hash ≠ digest := hne.symm
  have hbegin : (World.start dev contract).srv.dev.Recoverable (factoryImage sha256) digest :=
    .inl (Deploy.settled_provisioned hdev).staged
  generalize World.start dev contract = w at *
  induction acts generalizing w with
  | nil =>
    refine ⟨not_holdsConfirmed hbegin hfactory, ?_⟩
    intro pre act post heq
    simp at heq
  | cons act acts ih =>
    obtain ⟨hnext, hthrough, hok⟩ := act_mismatch sha256 henv hacc hfactory
      (fun d hd => hsame d (hd ▸ List.mem_cons_self))
      (fun d hd => hstart [] d acts (by rw [hd]; rfl)) hbegin
    obtain ⟨hend, hall⟩ := ih (fun d hd => hsame d (List.mem_cons_of_mem _ hd)) _
      (fun pre d post heq => hstart (act :: pre) d post (by rw [heq]; rfl)) hnext
    refine ⟨hend, ?_⟩
    intro pre act' post heq
    cases pre with
    | nil =>
      cases heq
      exact ⟨hthrough, hok⟩
    | cons a pre =>
      cases heq
      exact hall pre act' post rfl

/-- The factory board, and a `describe` that reports major 9. -/
def mismatchedBoard : World := .start (.fresh sampleSha256 .none) "9.0.0"

/-- An environment for it. -/
def mismatchedEnv : Env := .withinReach (.ok (Deploy.describing "9.0.0"))

theorem mismatchedEnv_speaksAnother : mismatchedEnv.SpeaksAnother :=
  fun _ _ => ⟨_, rfl, by decide +kernel⟩

/-- A deploy, the reset that reverts it, and the deploy again. -/
theorem mismatch_never_confirmed_twice :
    ¬ HoldsConfirmed (List.replicate 32 1) (playAll mismatchedEnv sampleSha256 mismatchedBoard
      [.deploy (Deploy.someRelease true), .reset, .deploy (Deploy.someRelease true)]).srv.dev := by
  refine (mismatch_never_confirmed (Device.provisioned_eq .none) mismatchedEnv_speaksAnother
    (Mcuboot.accepts_signedImage List.length_replicate) (by decide +kernel) ?_ ?_).1
  · intro d hd
    simp only [List.mem_cons, Act.deploy.injEq, reduceCtorEq, List.not_mem_nil, or_false,
      false_or, or_self] at hd
    rw [hd]
    rfl
  · rintro pre d post heq
    rcases pre with _ | ⟨a, _ | ⟨b, _ | ⟨c, pre⟩⟩⟩
    · decide +kernel
    · cases heq
    · cases heq
      decide +kernel
    · simp at heq

/-- **A restart without a reset in between confirms.**  The second deploy finds the image
on probation in slot 0, and the mock takes its test mark for a confirm. -/
theorem second_deploy_confirms :
    ¬ ∀ (sha256 : Bytes → Bytes) (env : Env) (dev : Device) (contract : String)
        (image digest : Bytes) (acts : List Act),
        Device.provisioned sha256 .none = .ok dev → env.SpeaksAnother →
        Mcuboot.Accepts image digest → digest ≠ sha256 FACTORY_IMAGE →
        (∀ d, .deploy d ∈ acts → d.firmware = .ok image) →
        ¬ HoldsConfirmed digest (playAll env sha256 (.start dev contract) acts).srv.dev := by
  intro hall
  refine hall sampleSha256 mismatchedEnv _ "9.0.0" _ (List.replicate 32 1)
    [.deploy (Deploy.someRelease true), .deploy (Deploy.someRelease true)]
    (Device.provisioned_eq .none) mismatchedEnv_speaksAnother
    (Mcuboot.accepts_signedImage List.length_replicate) (by decide +kernel) ?_
    (by decide +kernel)
  intro d hd
  simp only [List.mem_cons, Act.deploy.injEq, List.not_mem_nil, or_false, or_self] at hd
  rw [hd]
  rfl

/-! ## A reverted image is sent again -/

/-- The worlds histories of deploys and resets drive a provisioned, fault-free mock into,
each deploy of any file and in any environment. -/
inductive Fielded (sha256 : Bytes → Bytes) : World → Prop where
  | provisioned {dev : Device} {contract : String}
      (h : Device.provisioned sha256 .none = .ok dev) : Fielded sha256 (.start dev contract)
  | act {w : World} (h : Fielded sha256 w) (env : Env) (act : Act) :
      Fielded sha256 (act.play env sha256 w)

/-- The server answers, and both images are bootable. -/
structure Healthy (w : World) : Prop where
  responsive : Responsive w
  bootable0 : ∀ s, w.srv.dev.slot0 = some s → s.bootable = true
  bootable1 : ∀ s, w.srv.dev.slot1 = some s → s.bootable = true

/-- The server does not change the fault, and moves only what it holds. -/
theorem Healthy.reset (h : Healthy w) :
    Healthy { w with srv := { w.srv with dev := w.srv.dev.reset } } := by
  rcases w.srv.dev.reset_cases with
    ⟨bad, -, h0, hr⟩ | ⟨-, -, hr⟩ | ⟨incoming, -, h1, -, hr⟩ | ⟨-, -, hr⟩
  all_goals rw [hr]
  · refine ⟨h.responsive.move rfl, h.bootable1, ?_⟩
    intro s hs
    cases hs
    exact h.bootable0 bad h0
  · exact ⟨h.responsive.move rfl, h.bootable0, h.bootable1⟩
  · refine ⟨h.responsive.move rfl, ?_, h.bootable0⟩
    intro s hs
    cases hs
    exact h.bootable1 incoming h1
  · exact ⟨h.responsive.move rfl, h.bootable0, h.bootable1⟩

theorem Healthy.setState (h : Healthy w) (hash : Bytes) (confirm : Bool) :
    Healthy (env.bench sha256 (.setState hash confirm) w).2 := by
  rcases bench_setState env sha256 w hash confirm with ⟨e, hb⟩ | ⟨dev', hs, hb⟩
  · rw [hb]
    exact h
  · rw [hb]
    rcases Device.setState_cases hs with
      ⟨msg, -, rfl, -⟩ | ⟨s0, h0, -, -, rfl⟩ | ⟨s1, h1, -, -, -, rfl⟩
    · exact h
    · refine ⟨h.responsive.move rfl, ?_, h.bootable1⟩
      intro s hs
      cases hs
      exact h.bootable0 s0 h0
    · refine ⟨h.responsive.move rfl, h.bootable0, ?_⟩
      intro s hs
      cases hs
      exact h.bootable1 s1 h1

theorem Healthy.flash (h : Healthy w) (hacc : Mcuboot.Accepts image digest) :
    Healthy (env.bench sha256 (.flash image) w).2 := by
  obtain ⟨img, hrec, -⟩ := Image.fromBytes_of_accepts hacc "2.0.0+staged"
  obtain ⟨r, w', hb, hoff, hok⟩ := flash_cases env w hacc.pos hrec
  obtain ⟨-, h1, hresp⟩ := hok h.responsive
  rw [hb]
  refine ⟨hresp, fun s hs => h.bootable0 s (hoff.keeps.slot0 ▸ hs), ?_⟩
  intro s hs
  rw [h1] at hs
  cases hs
  exact (Image.fresh_of_fromBytes hrec).bootable

theorem Healthy.quiet (h : Healthy w) {q : Call} (hq : q.writes = false) :
    Healthy (env.bench sha256 q w).2 := by
  have hsame : (env.bench sha256 q w).2.srv = w.srv ∧ (env.bench sha256 q w).2.hung = w.hung :=
    bench_quiet hq
  obtain ⟨hsrv, hhung⟩ := hsame
  refine ⟨h.responsive.of_srv hsrv hhung, ?_, ?_⟩ <;> rw [hsrv]
  exacts [h.bootable0, h.bootable1]

theorem Healthy.play (h : Healthy w) (act : Act) : Healthy (act.play env sha256 w) := by
  cases act with
  | reset => exact h.reset
  | deploy d =>
    obtain ⟨hy, ha⟩ := exec_runs (h := env.bench sha256) d.run.run w
    refine (ha.preserves h ?_).2
    rintro ⟨q, r⟩ hx v hv -
    rcases Deploy.run_writes_cases hy hx with
      hq | ⟨image, digest, -, hacc, rfl | ⟨confirm, rfl⟩ | rfl⟩
    · exact hv.quiet hq
    · exact hv.flash hacc
    · exact hv.setState digest confirm
    · rw [hv.responsive.bench_reset]
      exact hv.reset

/-- **In the field the mock always answers and never calls an image unbootable.** -/
theorem Fielded.healthy (h : Fielded sha256 w) : Healthy w := by
  induction h with
  | provisioned hdev =>
    rw [Device.provisioned_eq] at hdev
    cases hdev
    refine ⟨⟨rfl, rfl, rfl⟩, ?_, nofun⟩
    intro s hs
    cases hs
    rfl
  | act _ env act ih => exact ih.play act

/-- The device reports neither image unbootable. -/
theorem Healthy.not_rejected (h : Healthy w) (digest : Bytes) :
    ¬ Deploy.Rejected digest (w.srv.dev.imageStates.map SlotReport.toImageSlot) := by
  rintro ⟨s, hs, -, hboot⟩
  obtain ⟨r, hr, rfl⟩ := List.mem_map.mp hs
  rcases List.mem_append.mp hr with hr | hr <;> obtain ⟨img, hi, rfl⟩ := List.mem_map.mp hr
  · cases (h.bootable0 img (Option.mem_toList.mp hi)).symm.trans hboot
  · cases (h.bootable1 img (Option.mem_toList.mp hi)).symm.trans hboot

/-- What stops a deploy of an accepted file on a healthy device before its upload. -/
theorem Deploy.Refusal.on_healthy {d : Deploy} {t : List Event} (href : d.Refusal t)
    (ha : Along (env.bench sha256) w t w') (h : Healthy w) (hf : d.firmware = .ok image)
    (hacc : Mcuboot.Accepts image digest) :
    (∃ e, env.connect w.tick = .error e) ∨ ¬ Identified (env.describe (w.tick + 1) w.srv) := by
  have hr := h.responsive.next
  cases href with
  | unreadable hno => exact absurd hacc (hno image digest hf)
  | noConnection => exact .inl ⟨_, (along_openChannel ha).1.symm⟩
  | noEcho =>
    cases (along_echo hr (along_params hr (along_openChannel ha).2)).1
  | unidentified hid =>
    obtain ⟨-, ha⟩ := along_echo hr (along_params hr (along_openChannel ha).2)
    obtain ⟨rfl, -⟩ := along_describe ha
    exact .inr hid
  | noList =>
    obtain ⟨-, ha⟩ := along_echo hr (along_params hr (along_openChannel ha).2)
    cases (along_imageList hr.next (along_describe ha).2).1
  | rejected _ _ hrej =>
    obtain ⟨-, ha⟩ := along_echo hr (along_params hr (along_openChannel ha).2)
    have hslots := (along_imageList hr.next (along_describe ha).2).1
    cases hslots
    exact absurd hrej (h.not_rejected _)

theorem Deploy.Course.flash_mem {t : List Event} {o : Except Failure Unit}
    (h : Course image digest t o) : ∃ r, ⟨.flash image, r⟩ ∈ t := by
  cases h <;> exact ⟨_, List.mem_cons_self⟩

/-- **When a deploy in the field fails before its upload.**  Over every history of
deploys and resets and for every accepted file, one the device has reverted included:
the deploy returns `Err` without an upload exactly when the port does not open, or
`describe` answers what `identify` refuses.  That the device has reverted the image does
not come into it. -/
theorem refused_before_upload_iff (hw : Fielded sha256 w) {d : Deploy}
    (hf : d.firmware = .ok image) (hacc : Mcuboot.Accepts image digest) :
    ((∃ f, (d.runOn env sha256 w).1 = .error f) ∧
      ∀ x ∈ trace (env.bench sha256) d.run.run w, ∀ b, x.question ≠ .flash b) ↔
    (∃ e, env.connect w.tick = .error e) ∨ ¬ Identified (env.describe (w.tick + 1) w.srv) := by
  obtain ⟨hy, ha⟩ := exec_runs (h := env.bench sha256) d.run.run w
  have hr := hw.healthy.responsive.next
  rcases Deploy.run_cases hy with
    ⟨f, ho, href⟩ | ⟨image', digest', p, s, a, slots, rest, -, -, heq, hid, hrest⟩
  · refine iff_of_true ⟨⟨f, ho⟩, ?_⟩ (href.on_healthy ha hw.healthy hf hacc)
    intro x hx b hq
    have := href.quiet x hx
    rw [hq] at this
    cases this
  · refine iff_of_false ?_ ?_
    · rintro ⟨⟨f, hfail⟩, hnone⟩
      rcases hrest with ⟨ho, -⟩ | ⟨-, -, hcourse⟩
      · rw [Deploy.runOn, ho] at hfail
        cases hfail
      · obtain ⟨r, hmem⟩ := hcourse.flash_mem
        exact hnone _ (by rw [heq]; exact List.mem_append_right _ hmem) _ rfl
    · -- the port opened, and the describe went through
      rw [heq] at ha
      obtain ⟨hopen, ha⟩ := along_openChannel ha
      obtain ⟨-, ha⟩ := along_echo hr (along_params hr ha)
      obtain ⟨rfl, -⟩ := along_describe ha
      rintro (⟨e, he⟩ | hno)
      · rw [he] at hopen
        cases hopen
      · exact hno hid

/-- A deploy refused for its contract, and the reset that reverts it. -/
def revertedBoard : World :=
  playAll mismatchedEnv sampleSha256 mismatchedBoard [.deploy (Deploy.someRelease true), .reset]

theorem fielded_revertedBoard : Fielded sampleSha256 revertedBoard :=
  ((Fielded.provisioned (Device.provisioned_eq .none)).act mismatchedEnv
    (.deploy (Deploy.someRelease true))).act mismatchedEnv .reset

/-- The second deploy of the reverted image finds the port closed. -/
theorem refused_before_upload_closed :
    ∃ f, ((Deploy.someRelease true).runOn
      { mismatchedEnv with connect := fun _ => .error ["no such device"] } sampleSha256
      revertedBoard).1 = .error f :=
  ((refused_before_upload_iff fielded_revertedBoard rfl
    (Mcuboot.accepts_signedImage List.length_replicate)).mpr (.inl ⟨_, rfl⟩)).1

/-- **The reflash-revert storm.**  The device has reverted the image and still holds it;
the next deploy uploads it again. -/
theorem reverted_image_sent_again :
    ¬ ∀ (sha256 : Bytes → Bytes) (env : Env) (w : World) (d : Deploy) (image digest : Bytes),
        Fielded sha256 w → digest ∈ w.srv.dev.failedDigests →
        (∃ s, (w.srv.dev.slot0 = some s ∨ w.srv.dev.slot1 = some s) ∧ s.hash = digest) →
        d.firmware = .ok image → Mcuboot.Accepts image digest →
        (∃ f, (d.runOn env sha256 w).1 = .error f) ∧
          ∀ x ∈ trace (env.bench sha256) d.run.run w, ∀ b, x.question ≠ .flash b := by
  intro hall
  have hheld : revertedBoard.srv.dev.slot1.map Image.hash = some (List.replicate 32 1) := by
    decide +kernel
  obtain ⟨s, h1, hash⟩ := Option.map_eq_some_iff.mp hheld
  obtain ⟨-, hnone⟩ := hall sampleSha256 mismatchedEnv revertedBoard (Deploy.someRelease true) _ _
    fielded_revertedBoard (by decide +kernel) ⟨s, .inr h1, hash⟩ rfl
    (Mcuboot.accepts_signedImage List.length_replicate)
  -- the sixth call of the run is the upload
  have hsent : (trace (mismatchedEnv.bench sampleSha256) (Deploy.someRelease true).run.run
      revertedBoard)[5]?.map Exchange.question =
        some (.flash (Mcuboot.signedImage (List.replicate 32 1))) := by
    decide +kernel
  obtain ⟨x, hx, hq⟩ := Option.map_eq_some_iff.mp hsent
  exact hnone x (List.mem_of_getElem? hx) _ hq

end Runtt
