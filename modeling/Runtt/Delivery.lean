import Runtt.Restart

/-! # A deploy delivers

Between a runtime that reaches the mock and a mock without a fault, nothing is left to
chance: the upload lands in slot 1, the test mark goes on it, the reset swaps it in with
the old image behind it, and the confirm makes it stay.  `Holds` is the situation after
each of these calls, and each call of the sequence is one step from one `Holds` to the
next.  A history of releases is an induction over `Serving`.
-/
namespace Runtt

open Interaction Program

variable {env : Env} {sha256 : Bytes → Bytes} {image digest : Bytes} {w w' : World}
  {t : List Event} {A : Image} {c : String} {s0 s1 : Option Image} {awaiting : Bool}

/-- The runtime reaches the mock whenever it tries: the port opens, no deadline passes,
and `describe` brings back the mock's own answer. -/
structure Env.Attached (env : Env) : Prop where
  connect : ∀ n, env.connect n = .ok ()
  deadlinePassed : ∀ n, env.deadlinePassed n = false
  describe : ∀ n srv, ∃ d, env.describe n srv = .ok d ∧ d.contract = srv.contract ∧
    d.img = some true

theorem Env.Attached.identified (h : env.Attached) {n : Nat} {srv : Server}
    (hc : contractMajor srv.contract = some CONTRACT_MAJOR) : Identified (env.describe n srv) := by
  obtain ⟨d, hd, hcontract, himg⟩ := h.describe n srv
  intro d' hd'
  rw [hd] at hd'
  cases hd'
  exact ⟨by rw [hcontract, hc]; nofun, by rw [himg]; nofun⟩

theorem Env.Attached.contractMatches (h : env.Attached) {n : Nat} {srv : Server}
    (hc : contractMajor srv.contract = some CONTRACT_MAJOR) :
    ContractMatches (env.describe n srv) := by
  obtain ⟨d, hd, hcontract, -⟩ := h.describe n srv
  intro d' hd'
  rw [hd] at hd'
  cases hd'
  rw [hcontract, hc]

/-! ## The situations of a deploy -/

/-- The server answers and reports `c`, and the device holds `s0` and `s1`. -/
structure Holds (c : String) (s0 s1 : Option Image) (awaiting : Bool) (w : World) : Prop where
  responsive : Responsive w
  contract : w.srv.contract = c
  slot0 : w.srv.dev.slot0 = s0
  slot1 : w.srv.dev.slot1 = s1
  awaiting : w.srv.dev.awaitingConfirm = awaiting

/-- The image `A` runs, confirmed, and the runtime implements the contract reported. -/
structure Serving (A : Image) (w : World) : Prop where
  responsive : Responsive w
  contract : contractMajor w.srv.contract = some CONTRACT_MAJOR
  running : w.srv.dev.slot0 = some A
  bootable : A.bootable = true
  confirmed : A.confirmed = true
  bootable1 : ∀ s, w.srv.dev.slot1 = some s → s.bootable = true
  settled : w.srv.dev.awaitingConfirm = false

theorem Serving.healthy (h : Serving A w) : Healthy w := by
  refine ⟨h.responsive, ?_, h.bootable1⟩
  intro s hs
  rw [h.running] at hs
  cases hs
  exact h.bootable

theorem Serving.holds (h : Serving A w) :
    Holds w.srv.contract (some A) w.srv.dev.slot1 false w :=
  ⟨h.responsive, rfl, h.running, rfl, h.settled⟩

theorem Holds.of_srv (h : Holds c s0 s1 awaiting w) (hsrv : w'.srv = w.srv)
    (hhung : w'.hung = w.hung) : Holds c s0 s1 awaiting w' := by
  refine ⟨h.responsive.of_srv hsrv hhung, ?_, ?_, ?_, ?_⟩ <;> rw [hsrv]
  exacts [h.contract, h.slot0, h.slot1, h.awaiting]

/-- The device moved, and the server with it. -/
theorem Holds.move (h : Holds c s0 s1 awaiting w) (dev : Device)
    (hfault : dev.fault = w.srv.dev.fault) :
    Holds c dev.slot0 dev.slot1 dev.awaitingConfirm { w with srv := { w.srv with dev } } :=
  ⟨h.responsive.move hfault, h.contract, rfl, rfl, rfl⟩

/-! ### What each call makes of them -/

/-- Whatever only reads leaves the situation as it is. -/
theorem Holds.quiet (h : Holds c s0 s1 awaiting w) (hq : Quiet t)
    (ha : Along (env.bench sha256) w t w') : Holds c s0 s1 awaiting w' :=
  (ha.preserves h fun x hx _ hv _ =>
    hv.of_srv (bench_quiet (hq x hx)).1 (bench_quiet (hq x hx)).2).2

/-- An attached runtime reconnects. -/
theorem Holds.not_lost (h : Holds c s0 s1 awaiting w) (henv : env.Attached) (hq : Polling t)
    (ha : Along (env.bench sha256) w t w') : ¬ Lost t := by
  rintro ⟨x, hx, hlost⟩
  obtain ⟨s, u, rfl⟩ := List.append_of_mem hx
  obtain ⟨v, ha₁, ha₂⟩ := along_append_iff.mp ha
  have hv := h.quiet (polling_append.mp hq).1.quiet ha₁
  rcases hlost with rfl | ⟨e, rfl⟩ | ⟨e, rfl⟩
  · have hreply := (along_cons_iff.mp ha₂).1
    exact absurd (hreply.trans (henv.deadlinePassed v.tick)) nofun
  · exact absurd ((along_openChannel ha₂).1.trans (henv.connect v.tick)) nofun
  · exact absurd (along_echo hv.responsive ha₂).1 nofun

/-- The upload lands in slot 1. -/
theorem Holds.flash (h : Holds c s0 s1 awaiting w) (hacc : Mcuboot.Accepts image digest)
    {r : Except Error Unit} (ha : Along (env.bench sha256) w (⟨.flash image, r⟩ :: t) w') :
    r = .ok () ∧ ∃ img v, img.hash = digest ∧ img.Fresh ∧ Holds c s0 (some img) awaiting v ∧
      Along (env.bench sha256) v t w' := by
  obtain ⟨img, hrec, hash⟩ := Image.fromBytes_of_accepts hacc "2.0.0+staged"
  obtain ⟨r', v, hb, hoff, hok⟩ := flash_cases env w hacc.pos hrec
  obtain ⟨rfl, h1, hresp⟩ := hok h.responsive
  obtain ⟨hr, ha⟩ := along_cons_iff.mp ha
  rw [hb] at hr ha
  exact ⟨hr, img, v, hash, Image.fresh_of_fromBytes hrec, ⟨hresp, hoff.contract.trans h.contract,
    hoff.keeps.slot0.trans h.slot0, h1, hoff.keeps.awaitingConfirm.trans h.awaiting⟩, ha⟩

/-- What the device accepts, the bench reports as accepted. -/
theorem Holds.accepted (h : Holds c s0 s1 awaiting w) {confirm : Bool} {dev : Device}
    (hs : w.srv.dev.setState (some digest) confirm = (.ok (), dev)) {r : Except Error Unit}
    (ha : Along (env.bench sha256) w (⟨.setState digest confirm, r⟩ :: t) w') :
    r = .ok () ∧ Along (env.bench sha256) { w with srv := { w.srv with dev } } t w' := by
  have hanswer : w.srv.answer sha256 (.setState (some digest) confirm) =
      .ok (some (.states dev.imageStates), { w.srv with dev }) := by
    simp only [Server.answer, hs]
  have hb : env.bench sha256 (.setState digest confirm) w =
      (.ok (), { w with srv := { w.srv with dev } }) := by
    unfold Env.bench
    exact call_hears (h.responsive.hears _) hanswer
  obtain ⟨hr, ha⟩ := along_cons_iff.mp ha
  rw [hb] at hr ha
  exact ⟨hr, ha⟩

/-- The test mark goes on slot 1. -/
theorem Holds.mark {img : Image} (h : Holds c (some A) (some img) awaiting w)
    (hne : A.hash ≠ digest) (hash : img.hash = digest) {r : Except Error Unit}
    (ha : Along (env.bench sha256) w (⟨.setState digest false, r⟩ :: t) w') :
    r = .ok () ∧ ∃ v,
      Holds c (some A) (some { img with pending := true, permanent := false }) awaiting v ∧
      Along (env.bench sha256) v t w' := by
  obtain ⟨res, dev, hs⟩ : ∃ res dev, w.srv.dev.setState (some digest) false = (res, dev) :=
    ⟨_, _, rfl⟩
  rcases Device.setState_cases hs with
    ⟨msg, -, -, hf | ⟨hnone, -⟩⟩ | ⟨s, h0, hn | hn, -⟩ | ⟨s, h1, -, -, rfl, rfl⟩
  · rw [h.responsive.noFault] at hf
    cases hf
  · exact absurd (congrArg some hash.symm) (hnone img (.inr h.slot1))
  · cases hn
  · rw [h.slot0] at h0
    cases h0
    exact absurd (Option.some.inj hn).symm hne
  · rw [h.slot1] at h1
    cases h1
    obtain ⟨hr, ha⟩ := h.accepted hs ha
    have hv := h.move { w.srv.dev with
      slot1 := some { img with pending := true, permanent := false } } rfl
    exact ⟨hr, _, h.slot0 ▸ h.awaiting ▸ hv, ha⟩

/-- The reset swaps the marked image in, on probation, with the old one behind it. -/
theorem Holds.swap {img : Image} (h : Holds c s0 (some img) false w) (hp : img.pending = true)
    (htest : img.permanent = false) {r : Except Error Unit}
    (ha : Along (env.bench sha256) w (⟨.reset, r⟩ :: t) w') :
    r = .ok () ∧ ∃ v, Holds c (some { img with pending := false, confirmed := false }) s0 true v ∧
      Along (env.bench sha256) v t w' := by
  obtain ⟨hr, ha⟩ := along_cons_iff.mp ha
  rw [h.responsive.bench_reset] at hr ha
  rw [Device.reset_swaps h.awaiting h.slot1 hp] at ha
  refine ⟨hr, _, ?_, ha⟩
  refine ⟨h.responsive.move rfl, h.contract, ?_, h.slot0, ?_⟩
  · simp only [Device.afterSwap, htest]
  · simp [Device.afterSwap, htest]

/-- The confirm makes it stay. -/
theorem Holds.confirm {img : Image} (h : Holds c (some img) s1 awaiting w)
    (hash : img.hash = digest) {r : Except Error Unit}
    (ha : Along (env.bench sha256) w (⟨.setState digest true, r⟩ :: t) w') :
    r = .ok () ∧ ∃ v, Holds c (some { img with confirmed := true, permanent := true }) s1 false v ∧
      Along (env.bench sha256) v t w' := by
  obtain ⟨res, dev, hs⟩ : ∃ res dev, w.srv.dev.setState (some digest) true = (res, dev) :=
    ⟨_, _, rfl⟩
  rcases Device.setState_cases hs with
    ⟨msg, -, -, hf | ⟨hnone, -⟩⟩ | ⟨s, h0, -, rfl, rfl⟩ | ⟨s, h1, hn, hother, -⟩
  · rw [h.responsive.noFault] at hf
    cases hf
  · exact absurd (congrArg some hash.symm) (hnone img (.inl h.slot0))
  · rw [h.slot0] at h0
    cases h0
    obtain ⟨hr, ha⟩ := h.accepted hs ha
    have hv := h.move { w.srv.dev with
      slot0 := some { img with confirmed := true, permanent := true },
      awaitingConfirm := false } rfl
    exact ⟨hr, _, h.slot1 ▸ hv, ha⟩
  · exact absurd (hash.trans (Option.some.inj hn)) (hother img h.slot0)

/-- The image list shows both slots. -/
theorem Holds.list {img : Image} (h : Holds c (some A) (some img) awaiting w)
    {r : Except Error (List ImageSlot)}
    (ha : Along (env.bench sha256) w (⟨.imageList, r⟩ :: t) w') :
    r = .ok [SlotReport.toImageSlot ⟨0, true, A⟩, SlotReport.toImageSlot ⟨1, false, img⟩] ∧
      Along (env.bench sha256) w t w' := by
  obtain ⟨hr, ha⟩ := along_imageList h.responsive ha
  rw [Device.imageStates, h.slot0, h.slot1] at hr
  exact ⟨hr, ha⟩

theorem slotHolding_staged {img : Image} (hne : A.hash ≠ digest) (hash : img.hash = digest) :
    slotHolding digest [SlotReport.toImageSlot ⟨0, true, A⟩,
      SlotReport.toImageSlot ⟨1, false, img⟩] = some (SlotReport.toImageSlot ⟨1, false, img⟩) := by
  simp [slotHolding, SlotReport.toImageSlot, hne, hash]

/-! ## The whole deploy -/

/-- A polling stretch leaves the situation as it is. -/
theorem Holds.polled (h : Holds c s0 s1 awaiting w) (hq : Polling t) {u : List Event}
    (ha : Along (env.bench sha256) w (⟨.drop, ()⟩ :: (t ++ u)) w') :
    ∃ v, Holds c s0 s1 awaiting v ∧ Along (env.bench sha256) v u w' := by
  obtain ⟨v, ha₁, ha₂⟩ := along_append_iff.mp (along_cons_iff.mp ha).2
  exact ⟨v, h.quiet hq.quiet ha₁, ha₂⟩

/-- From the image list after the upload to the reset. -/
theorem Holds.trial {img : Image} (h : Holds c (some A) (some img) false w) (hne : A.hash ≠ digest)
    (hash : img.hash = digest) {l : Except Error (List ImageSlot)} {r r' : Except Error Unit}
    (ha : Along (env.bench sha256) w
      (⟨.imageList, l⟩ :: ⟨.setState digest false, r⟩ :: ⟨.reset, r'⟩ :: t) w') :
    r' = .ok () ∧ ∃ v,
      Holds c (some { img with pending := false, confirmed := false, permanent := false })
        (some A) true v ∧
      Along (env.bench sha256) v t w' := by
  obtain ⟨-, ha⟩ := h.list ha
  obtain ⟨-, v, hv, ha⟩ := h.mark hne hash ha
  exact hv.swap rfl rfl ha

/-- **Between an attached runtime and a mock without a fault, an installation ends well.**
The new image runs, confirmed, with the old one behind it. -/
theorem Deploy.Course.delivers {o : Except Failure Unit} (hcourse : Course image digest t o)
    (henv : env.Attached) (hc : contractMajor c = some CONTRACT_MAJOR)
    (hacc : Mcuboot.Accepts image digest) (hne : A.hash ≠ digest)
    (h : Holds c (some A) s1 false w) (ha : Along (env.bench sha256) w t w') :
    o = .ok () ∧ ∃ img, img.hash = digest ∧ img.bootable = true ∧ img.confirmed = true ∧
      Holds c (some img) (some A) false w' := by
  cases hcourse with
  | uploadFailed => cases (h.flash hacc ha).1
  | notLanded hq =>
    obtain ⟨-, img, v, hash, -, hv, ha⟩ := h.flash hacc ha
    rcases hq with ⟨e, rfl⟩ | ⟨slots, rfl, hnone⟩
    · cases (hv.list ha).1
    · have hslots := (hv.list ha).1
      cases hslots
      rw [slotHolding_staged hne hash] at hnone
      cases hnone
  | writtenDirectly hlanded hactive _ _ =>
    -- the digest is found in slot 1, which is not the running one
    obtain ⟨-, img, v, hash, -, hv, ha⟩ := h.flash hacc ha
    have hslots := (hv.list ha).1
    cases hslots
    rw [slotHolding_staged hne hash] at hlanded
    cases hlanded
    cases hactive
  | markRefused =>
    obtain ⟨-, img, v, hash, -, hv, ha⟩ := h.flash hacc ha
    cases (hv.mark hne hash (hv.list ha).2).1
  | resetRefused =>
    obtain ⟨-, img, v, hash, -, hv, ha⟩ := h.flash hacc ha
    cases (hv.trial hne hash ha).1
  | notBack hq hlost =>
    obtain ⟨-, img, v, hash, -, hv, ha⟩ := h.flash hacc ha
    obtain ⟨-, v, hv, ha⟩ := hv.trial hne hash ha
    exact absurd hlost (hv.not_lost henv hq (along_cons_iff.mp ha).2)
  | notConfirmed hq hno =>
    obtain ⟨-, img, v, hash, -, hv, ha⟩ := h.flash hacc ha
    obtain ⟨-, v, hv, ha⟩ := hv.trial hne hash ha
    obtain ⟨v, hv, ha⟩ := hv.polled hq ha
    cases hno with
    | listFailed => cases (hv.list ha).1
    | notRunning hrun =>
      have hslots := (hv.list ha).1
      cases hslots
      exact absurd (congrArg some hash) (hrun _ rfl)
    | contract hm =>
      obtain ⟨rfl, -⟩ := along_describe (hv.list ha).2
      exact absurd (henv.contractMatches (hv.contract ▸ hc)) hm
  | confirmSent _ _ hq _ _ _ _ ho =>
    obtain ⟨-, img, v, hash, hfresh, hv, ha⟩ := h.flash hacc ha
    obtain ⟨-, v, hv, ha⟩ := hv.trial hne hash ha
    obtain ⟨v, hv, ha⟩ := hv.polled hq ha
    obtain ⟨-, ha⟩ := hv.list ha
    obtain ⟨-, ha⟩ := along_describe ha
    have hnext : Holds c _ (some A) true v.next := hv.of_srv rfl rfl
    obtain ⟨hr, v, hv, ha⟩ := hnext.confirm hash ha
    rcases ho with ⟨ho, -, rfl⟩ | ⟨f, e, -, rfl, -⟩
    · cases along_nil_iff.mp ha
      refine ⟨ho, _, ?_, ?_, ?_, hv⟩
      exacts [hash, hfresh.bootable, rfl]
    · cases hr

/-- The checks before the upload pass, and change nothing. -/
theorem Holds.vetted (h : Holds c s0 s1 awaiting w) {p : Except Error Unit} {s : String}
    {a : Except Error Describe} {slots : List ImageSlot}
    (ha : Along (env.bench sha256) w (Deploy.vetting p s a slots ++ t) w') :
    slots = w.srv.dev.imageStates.map SlotReport.toImageSlot ∧
      ∃ v, v.srv = w.srv ∧ Holds c s0 s1 awaiting v ∧ Along (env.bench sha256) v t w' := by
  have hr := h.responsive.next
  obtain ⟨-, ha⟩ := along_echo hr (along_params hr (along_openChannel ha).2)
  obtain ⟨hslots, ha⟩ := along_imageList hr.next (along_describe ha).2
  exact ⟨Except.ok.inj hslots, w.next.next, rfl, h.of_srv rfl rfl, ha⟩

theorem Serving.alreadyRuns_iff (h : Serving A w) :
    Deploy.AlreadyRuns digest (w.srv.dev.imageStates.map SlotReport.toImageSlot) ↔
      A.hash = digest := by
  constructor
  · intro hruns
    by_contra hne
    exact Deploy.not_alreadyRuns h.running hne hruns
  · intro hash
    refine ⟨SlotReport.toImageSlot ⟨0, true, A⟩, ?_, congrArg some hash, h.confirmed⟩
    rw [Device.imageStates, h.running]
    rfl

section Deploys
variable {d : Deploy}

variable (sha256) in
/-- **One deploy**, from a device that serves `A`: it ends well, and a device that serves
the image already is left alone. -/
theorem Serving.deploy (h : Serving A w) (henv : env.Attached) (hskip : d.skipIfSame = true)
    (hf : d.firmware = .ok image) (hacc : Mcuboot.Accepts image digest) :
    (d.runOn env sha256 w).1 = .ok () ∧
    (∃ img, Serving img (d.runOn env sha256 w).2 ∧ img.hash = digest) ∧
    (A.hash = digest → Quiet (trace (env.bench sha256) d.run.run w) ∧
      (d.runOn env sha256 w).2.srv = w.srv) ∧
    (A.hash ≠ digest → (d.runOn env sha256 w).2.srv.dev.slot1 = some A) := by
  obtain ⟨hy, ha⟩ := exec_runs (h := env.bench sha256) d.run.run w
  change Along _ _ _ (d.runOn env sha256 w).2 at ha
  change Runs _ _ (d.runOn env sha256 w).1 at hy
  generalize d.runOn env sha256 w = run, trace (env.bench sha256) d.run.run w = t at hy ha
  rcases Deploy.run_cases hy with
    ⟨f, -, href⟩ | ⟨image', digest', p, s, a, slots, rest, hf', hacc', rfl, -, hrest⟩
  · -- nothing stops it before the upload
    rcases href.on_healthy ha h.healthy hf hacc with ⟨e, he⟩ | hno
    · rw [henv.connect] at he
      cases he
    · exact absurd (henv.identified h.contract) hno
  rw [hf] at hf'
  cases hf'
  cases hacc.unique hacc'
  obtain ⟨rfl, v, hsrv, hv, ha⟩ := h.holds.vetted ha
  rw [hskip, h.alreadyRuns_iff] at hrest
  rcases hrest with ⟨ho, rfl, -, hash⟩ | ⟨hne, -, hcourse⟩
  · cases along_nil_iff.mp ha
    refine ⟨ho, ⟨A, ?_, hash⟩, fun _ => ⟨?_, hsrv⟩, fun hne => absurd hash hne⟩
    · refine ⟨hv.responsive, ?_, hv.slot0, h.bootable, h.confirmed, ?_, hv.awaiting⟩
      · rw [hsrv, h.contract]
      · rw [hsrv]
        exact h.bootable1
    · rw [List.append_nil]
      exact Deploy.quiet_vetting
  · replace hne : A.hash ≠ digest := fun hash => hne ⟨rfl, hash⟩
    obtain ⟨ho, img, hash, hboot, hconf, hend⟩ :=
      hcourse.delivers henv h.contract hacc hne hv ha
    refine ⟨ho, ⟨img, ?_, hash⟩, fun heq => absurd heq hne, fun _ => hend.slot1⟩
    refine ⟨hend.responsive, ?_, hend.slot0, hboot, hconf, ?_, hend.awaiting⟩
    · rw [hend.contract, h.contract]
    · intro s hs
      rw [hend.slot1] at hs
      cases hs
      exact h.bootable

/-- A release: an accepted file, and nothing to do where it runs already. -/
def Releases (digest : Bytes) (d : Deploy) : Prop :=
  d.skipIfSame = true ∧ ∃ image, d.firmware = .ok image ∧ Mcuboot.Accepts image digest

/-- Slot 0 holds the image with this digest, confirmed, and it stays there. -/
def Delivered (digest : Bytes) (dev : Device) : Prop :=
  HoldsConfirmed digest dev ∧ dev.awaitingConfirm = false

theorem Serving.delivered (h : Serving A w) (hash : A.hash = digest) :
    Delivered digest w.srv.dev :=
  ⟨⟨A, h.running, hash, h.confirmed⟩, h.settled⟩

variable (sha256) in
/-- Along a sequence of releases the device always serves the last one. -/
theorem Serving.playAll (h : Serving A w) (henv : env.Attached) {releases : List Deploy}
    (hall : ∀ d ∈ releases, ∃ digest, Releases digest d) :
    ∃ B, Serving B (playAll env sha256 w (releases.map .deploy)) := by
  induction releases generalizing A w with
  | nil => exact ⟨A, h⟩
  | cons d releases ih =>
    obtain ⟨digest, hskip, image, hf, hacc⟩ := hall d List.mem_cons_self
    obtain ⟨-, ⟨B, hB, -⟩, -, -⟩ := h.deploy sha256 henv hskip hf hacc
    exact ih hB fun d hd => hall d (List.mem_cons_of_mem _ hd)

/-- **A deploy delivers.**  From any state in which the mock serves a confirmed image,
the deploy of any accepted file returns `Ok` with that file's image running, confirmed,
and the image it replaced in slot 1; the same deploy again writes nothing; and after
every release of a sequence the device runs that release. -/
theorem deploy_delivers (h : Serving A w) (henv : env.Attached) :
    (∀ d digest, Releases digest d →
      (d.runOn env sha256 w).1 = .ok () ∧
      Delivered digest (d.runOn env sha256 w).2.srv.dev ∧
      (digest ≠ A.hash → (d.runOn env sha256 w).2.srv.dev.slot1 = some A) ∧
      (d.runOn env sha256 (d.runOn env sha256 w).2).1 = .ok () ∧
      Quiet (trace (env.bench sha256) d.run.run (d.runOn env sha256 w).2) ∧
      (d.runOn env sha256 (d.runOn env sha256 w).2).2.srv = (d.runOn env sha256 w).2.srv) ∧
    ∀ releases : List Deploy, (∀ d ∈ releases, ∃ digest, Releases digest d) →
      ∀ pre d post digest, releases = pre ++ d :: post → Releases digest d →
        (d.runOn env sha256 (playAll env sha256 w (pre.map .deploy))).1 = .ok () ∧
        Delivered digest (playAll env sha256 w ((pre ++ [d]).map .deploy)).srv.dev := by
  refine ⟨?_, ?_⟩
  · rintro d digest ⟨hskip, image, hf, hacc⟩
    obtain ⟨hok, ⟨B, hB, hash⟩, -, hother⟩ := h.deploy sha256 henv hskip hf hacc
    obtain ⟨hok', -, hsame, -⟩ := hB.deploy sha256 henv hskip hf hacc
    exact ⟨hok, hB.delivered hash, fun hne => hother hne.symm, hok', hsame hash⟩
  · rintro releases hall pre d post digest rfl ⟨hskip, image, hf, hacc⟩
    have hpre : ∀ d ∈ pre, ∃ digest, Releases digest d := fun d hd =>
      hall d (List.mem_append_left _ hd)
    obtain ⟨B, hB⟩ := h.playAll sha256 henv hpre
    obtain ⟨hok, ⟨C, hC, hash⟩, -, -⟩ := hB.deploy sha256 henv hskip hf hacc
    refine ⟨hok, ?_⟩
    rw [List.map_append, Runtt.playAll, List.foldl_append]
    exact hC.delivered hash

end Deploys

/-- A runtime that reaches the mock. -/
def attachedEnv : Env :=
  { Env.withinReach (.error []) with describe := fun _ srv => .ok (Deploy.describing srv.contract) }

theorem attachedEnv_attached : attachedEnv.Attached :=
  ⟨fun _ => rfl, fun _ => rfl, fun _ _ => ⟨_, rfl, rfl, rfl⟩⟩

theorem serving_fresh (sha256 : Bytes → Bytes) :
    Serving (factoryImage sha256) (.start (.fresh sha256 .none) "2.0.0") := by
  have hcontract : contractMajor "2.0.0" = some CONTRACT_MAJOR := by decide +kernel
  exact ⟨⟨rfl, rfl, rfl⟩, hcontract, rfl, rfl, rfl, nofun, rfl⟩

theorem releases_someRelease : Releases (List.replicate 32 1) (Deploy.someRelease true) :=
  ⟨rfl, _, rfl, Mcuboot.accepts_signedImage List.length_replicate⟩

/-- A first release to the factory board: it runs, and the factory image stands by. -/
theorem deploy_delivers_first :
    let w := ((Deploy.someRelease true).runOn attachedEnv sampleSha256
      (.start (.fresh sampleSha256 .none) "2.0.0")).2
    Delivered (List.replicate 32 1) w.srv.dev ∧
      w.srv.dev.slot1 = some (factoryImage sampleSha256) := by
  obtain ⟨-, hdelivered, hbehind, -⟩ :=
    (deploy_delivers (serving_fresh sampleSha256) attachedEnv_attached).1 _ _ releases_someRelease
  exact ⟨hdelivered, hbehind (by decide +kernel)⟩

end Runtt
