import Runtt.Delivery

/-! # A deploy heals

Failed deploys and stray resets leave the mock in situations that a first release never
meets: an image on probation, a fallback that an upload has overwritten, a mark that is
still pending.  `Kept` is what every history keeps of the device, and from there one
deploy through a runtime that reaches the mock ends well: the test mark confirms the
image that runs already, or the reset that would revert the image on probation boots the
marked upload instead.
-/
namespace Runtt

open Interaction Program

variable {env : Env} {sha256 : Bytes → Bytes} {image digest : Bytes} {w w' : World}
  {t : List Event} {A img : Image} {c : String} {s0 s1 : Option Image} {awaiting : Bool}

/-! ## What every history keeps -/

/-- An image runs; one on probation has something behind it and carries no mark; and a
pending upload is not the image that runs. -/
structure Device.Kept (dev : Device) : Prop where
  running : ∃ s, dev.slot0 = some s
  fallback : dev.awaitingConfirm = true → ∃ s, dev.slot1 = some s
  trial : dev.awaitingConfirm = true → ∀ s, dev.slot0 = some s →
    s.confirmed = false ∧ s.pending = false
  marked : ∀ s s', dev.slot0 = some s → dev.slot1 = some s' → s'.pending = true →
    s'.hash ≠ s.hash

namespace Device
variable {dev dev' : Device}

theorem Kept.reset (h : dev.Kept) (hfault : dev.fault = .none) : dev.reset.Kept := by
  rcases dev.reset_cases with
    ⟨bad, ha, h0, hr⟩ | ⟨-, h0, -⟩ | ⟨incoming, -, h1, hp, hr⟩ | ⟨ha, -, hr⟩
  · rw [hr]
    refine ⟨h.fallback ha, nofun, nofun, ?_⟩
    intro s s' _ hs' hpend
    cases hs'
    rw [(h.trial ha bad h0).2] at hpend
    cases hpend
  · obtain ⟨s, hs⟩ := h.running
    rw [h0] at hs
    cases hs
  · rw [hr]
    obtain ⟨s, hs⟩ := h.running
    refine ⟨⟨_, rfl⟩, fun _ => h.running, ?_, ?_⟩
    · intro ha s' hs'
      cases hs'
      refine ⟨?_, rfl⟩
      simpa [afterSwap, hfault] using ha
    · intro s' s'' hs' hs'' _
      cases hs'
      exact (h.marked s'' incoming hs'' h1 hp).symm
  · rw [hr]
    exact ⟨h.running, h.fallback, h.trial, h.marked⟩

theorem Kept.setState (h : dev.Kept) {hash : Option Bytes} {confirm : Bool}
    {r : Except String Unit} (hs : dev.setState hash confirm = (r, dev')) : dev'.Kept := by
  rcases setState_cases hs with ⟨msg, -, rfl, -⟩ | ⟨s, h0, -, -, rfl⟩ | ⟨s, h1, -, hne, -, rfl⟩
  · exact h
  · refine ⟨⟨_, rfl⟩, nofun, nofun, ?_⟩
    intro s' s'' hs' hs'' hp
    cases hs'
    exact h.marked s s'' h0 hs'' hp
  · refine ⟨h.running, fun _ => ⟨_, rfl⟩, h.trial, ?_⟩
    intro s' s'' hs' hs'' _
    cases hs''
    exact (hne s' hs').symm

end Device

/-- An upload brings no mark. -/
theorem Offered.kept (h : Offered img w w') (hfresh : img.Fresh) (hk : w.srv.dev.Kept) :
    w'.srv.dev.Kept := by
  have h0 : w'.srv.dev.slot0 = w.srv.dev.slot0 := h.keeps.slot0
  have ha : w'.srv.dev.awaitingConfirm = w.srv.dev.awaitingConfirm := h.keeps.awaitingConfirm
  rcases h.slot1 with h1 | h1
  · refine ⟨?_, ?_, ?_, ?_⟩ <;> simp only [h0, h1, ha]
    exacts [hk.running, hk.fallback, hk.trial, hk.marked]
  · refine ⟨?_, ?_, ?_, ?_⟩ <;> simp only [h0, h1, ha]
    · exact hk.running
    · exact fun _ => ⟨img, rfl⟩
    · exact hk.trial
    · intro s s' _ hs' hp
      cases hs'
      rw [hfresh.pending] at hp
      cases hp

/-- A call that a deploy makes keeps it, and the mock healthy. -/
theorem Healthy.call {d : Deploy} {q : Call} (h : Healthy w) (hk : w.srv.dev.Kept)
    (hq : q.writes = false ∨ ∃ image digest, d.firmware = .ok image ∧
      Mcuboot.Accepts image digest ∧
      (q = .flash image ∨ (∃ confirm, q = .setState digest confirm) ∨ q = .reset)) :
    Healthy (env.bench sha256 q w).2 ∧ (env.bench sha256 q w).2.srv.dev.Kept := by
  rcases hq with hq | ⟨image, digest, -, hacc, rfl | ⟨confirm, rfl⟩ | rfl⟩
  · exact ⟨h.quiet hq, by rw [(bench_quiet hq).1]; exact hk⟩
  · refine ⟨h.flash hacc, ?_⟩
    obtain ⟨img, hrec, -⟩ := Image.fromBytes_of_accepts hacc "2.0.0+staged"
    obtain ⟨r, v, hb, hoff, -⟩ := flash_cases env w hacc.pos hrec
    rw [hb]
    exact hoff.kept (Image.fresh_of_fromBytes hrec) hk
  · refine ⟨h.setState digest confirm, ?_⟩
    rcases bench_setState env sha256 w digest confirm with ⟨e, hb⟩ | ⟨dev', hs, hb⟩
    · rw [hb]
      exact hk
    · rw [hb]
      exact hk.setState hs
  · rw [h.responsive.bench_reset]
    exact ⟨h.reset, hk.reset h.responsive.noFault⟩

/-- A deploy of any file, in any environment, keeps it. -/
theorem Healthy.kept_play (h : Healthy w) (hk : w.srv.dev.Kept) (act : Act) :
    (act.play env sha256 w).srv.dev.Kept := by
  cases act with
  | reset => exact hk.reset h.responsive.noFault
  | deploy d =>
    obtain ⟨hy, ha⟩ := exec_runs (h := env.bench sha256) d.run.run w
    refine ((ha.preserves (P := fun v => Healthy v ∧ v.srv.dev.Kept) ⟨h, hk⟩ ?_).2).2
    rintro x hx v ⟨hv, hvk⟩ -
    exact hv.call hvk (Deploy.run_writes_cases hy hx)

theorem Fielded.kept (h : Fielded sha256 w) : w.srv.dev.Kept := by
  induction h with
  | provisioned hdev =>
    rw [Device.provisioned_eq] at hdev
    cases hdev
    exact ⟨⟨_, rfl⟩, nofun, nofun, fun _ _ _ h1 => by cases h1⟩
  | act hw env act ih => exact hw.healthy.kept_play ih act

/-! ## An installation from there -/

/-- The mark after an upload: on the uploaded image, or, where the digest runs already, a
confirm of the running one. -/
theorem Holds.marked (h : Holds c (some A) (some img) awaiting w) (hash : img.hash = digest)
    {r : Except Error Unit}
    (ha : Along (env.bench sha256) w (⟨.setState digest false, r⟩ :: t) w') :
    r = .ok () ∧ ∃ v, Along (env.bench sha256) v t w' ∧
      ((A.hash ≠ digest ∧
          Holds c (some A) (some { img with pending := true, permanent := false }) awaiting v) ∨
        A.hash = digest ∧
          Holds c (some { A with confirmed := true, permanent := true }) (some img) false v) := by
  by_cases hrun : A.hash = digest
  · obtain ⟨res, dev, hs⟩ : ∃ res dev, w.srv.dev.setState (some digest) false = (res, dev) :=
      ⟨_, _, rfl⟩
    rcases Device.setState_cases hs with
      ⟨msg, -, -, hf | ⟨hnone, -⟩⟩ | ⟨s, h0, -, rfl, rfl⟩ | ⟨s, h1, hn, hother, -⟩
    · rw [h.responsive.noFault] at hf
      cases hf
    · exact absurd (congrArg some hrun.symm) (hnone A (.inl h.slot0))
    · rw [h.slot0] at h0
      cases h0
      obtain ⟨hr, ha⟩ := h.accepted hs ha
      have hv := h.move { w.srv.dev with
        slot0 := some { A with confirmed := true, permanent := true },
        awaitingConfirm := false } rfl
      exact ⟨hr, _, ha, .inr ⟨hrun, h.slot1 ▸ hv⟩⟩
    · exact absurd (hrun.trans (Option.some.inj hn)) (hother A h.slot0)
  · obtain ⟨hr, v, hv, ha⟩ := h.mark hrun hash ha
    exact ⟨hr, v, ha, .inl ⟨hrun, hv⟩⟩

/-- The reset is the device's. -/
theorem Holds.reset (h : Holds c s0 s1 awaiting w) {r : Except Error Unit}
    (ha : Along (env.bench sha256) w (⟨.reset, r⟩ :: t) w') :
    r = .ok () ∧ ∃ v, Along (env.bench sha256) v t w' ∧
      v = { w with srv := { w.srv with dev := w.srv.dev.reset } } := by
  obtain ⟨hr, ha⟩ := along_cons_iff.mp ha
  rw [h.responsive.bench_reset] at hr ha
  exact ⟨hr, _, ha, rfl⟩

/-- With nothing on probation and nothing pending, a reset changes nothing. -/
theorem Holds.stays (h : Holds c s0 s1 false w) (hidle : ∀ s, s1 = some s → s.pending = false)
    {r : Except Error Unit} (ha : Along (env.bench sha256) w (⟨.reset, r⟩ :: t) w') :
    r = .ok () ∧ ∃ v, Holds c s0 s1 false v ∧ Along (env.bench sha256) v t w' := by
  obtain ⟨hr, v, ha, rfl⟩ := h.reset ha
  refine ⟨hr, _, ?_, ha⟩
  rw [Device.reset_stays h.awaiting (h.slot1 ▸ hidle)]
  exact ⟨h.responsive.move rfl, h.contract, h.slot0, h.slot1, h.awaiting⟩

/-- With `A` on probation, a reset boots whatever slot 1 holds. -/
theorem Holds.reverts (h : Holds c (some A) s1 true w) {r : Except Error Unit}
    (ha : Along (env.bench sha256) w (⟨.reset, r⟩ :: t) w') :
    r = .ok () ∧ ∃ v, Holds c s1 (some A) false v ∧ Along (env.bench sha256) v t w' := by
  obtain ⟨hr, v, ha, rfl⟩ := h.reset ha
  refine ⟨hr, _, ?_, ha⟩
  rw [Device.reset_reverts h.awaiting h.slot0]
  exact ⟨h.responsive.move rfl, h.contract, h.slot1, rfl, rfl⟩

/-- What an installation of `digest` leaves in slot 1. -/
def behind (A img : Image) (digest : Bytes) : Image := if A.hash = digest then img else A

/-- **From the list after the upload to the reset**: whether the digest runs already, is
marked over a settled image, or over one on probation, the reset leaves it in slot 0. -/
theorem Holds.booted (h : Holds c (some A) (some img) awaiting w) (hash : img.hash = digest)
    (hfresh : img.Fresh) {l : Except Error (List ImageSlot)} {r r' : Except Error Unit}
    (ha : Along (env.bench sha256) w
      (⟨.imageList, l⟩ :: ⟨.setState digest false, r⟩ :: ⟨.reset, r'⟩ :: t) w') :
    r' = .ok () ∧ ∃ X aw v, Holds c (some X) (some (behind A img digest)) aw v ∧
      X.hash = digest ∧ Along (env.bench sha256) v t w' := by
  obtain ⟨-, ha⟩ := h.list ha
  obtain ⟨-, v, ha, ⟨hne, hv⟩ | ⟨hrun, hv⟩⟩ := h.marked hash ha
  · rw [behind, if_neg hne]
    cases awaiting with
    | false =>
      obtain ⟨hr, v, hv, ha⟩ := hv.swap rfl rfl ha
      exact ⟨hr, _, _, v, hv, hash, ha⟩
    | true =>
      -- the revert takes the marked upload for the fallback
      obtain ⟨hr, v, hv, ha⟩ := hv.reverts ha
      exact ⟨hr, _, _, v, hv, hash, ha⟩
  · rw [behind, if_pos hrun]
    obtain ⟨hr, v, hv, ha⟩ := hv.stays (fun s hs => by cases hs; exact hfresh.pending) ha
    exact ⟨hr, _, _, v, hv, hrun, ha⟩

/-- **The direct path**: it fails only where the reset does, or the device is lost. -/
theorem Deploy.install_resets {slots : List ImageSlot} {r : Except Error Unit} {q : List Event}
    {o : Except Failure Unit} (h : Yields (install image digest)
      (⟨.flash image, .ok ()⟩ :: ⟨.imageList, .ok slots⟩ :: ⟨.reset, r⟩ :: q) o) :
    o = .ok () ∨ (∃ e, r = .error e) ∨ Lost q := by
  rcases yields_bind.mp h with ⟨f, -, hfail⟩ | ⟨staged, t₁, t₂, heq, hstage, hlater⟩
  · -- no stretch that fails before the reset has one
    exfalso
    obtain ⟨t', heq, hstage⟩ := SmpM.yields_holdingClient_error.mp hfail
    rcases stage_cases hstage with
      ⟨f', e, -, rfl⟩ | ⟨f', q', -, rfl, ⟨e, rfl⟩ | ⟨slots', rfl, -⟩⟩ |
      ⟨slots', landed, rfl, -⟩ | ⟨slots', landed, r', rfl, -⟩
    all_goals
      have hquestions := congrArg (List.map Exchange.question) heq
      simp at hquestions
  · rcases stage_cases (SmpM.yields_holdingClient_ok.mp hstage) with
      ⟨f', e, ho, -⟩ | ⟨f', q', ho, -⟩ | ⟨slots', landed, rfl, -, -, -, ho⟩ |
      ⟨slots', landed, r', rfl, -⟩
    · cases ho
    · cases ho
    · cases ho
      obtain ⟨t', rfl, hdirect⟩ := SmpM.yields_thenDrop.mp hlater
      rcases yields_bind.mp hdirect with ⟨f, rfl, hreset⟩ | ⟨u, t₃, t₄, rfl, hreset, hreturn⟩
      · obtain ⟨r', rfl, ⟨ho, -⟩ | ⟨f', e, -, hr⟩⟩ := request_cases hreset
        · cases ho
        · cases hr
          cases heq
          exact .inr (.inl ⟨e, rfl⟩)
      · obtain ⟨r', rfl, -⟩ := request_cases hreset
        cases heq
        rcases (awaitReturn_cases hreturn).2 with ⟨ho, -⟩ | ⟨f, -, hlost⟩
        · exact .inl ho
        · exact .inr (.inr hlost.append_right)
    · have hquestions := congrArg (List.map Exchange.question) heq
      simp at hquestions

/-- Where the digest runs already, its slot comes first in the list. -/
theorem slotHolding_both (hash : img.hash = digest) :
    slotHolding digest [SlotReport.toImageSlot ⟨0, true, A⟩,
      SlotReport.toImageSlot ⟨1, false, img⟩] =
        some (if A.hash = digest then SlotReport.toImageSlot ⟨0, true, A⟩
          else SlotReport.toImageSlot ⟨1, false, img⟩) := by
  by_cases hrun : A.hash = digest
  · rw [if_pos hrun]
    simp [slotHolding, SlotReport.toImageSlot, hrun]
  · rw [if_neg hrun]
    exact slotHolding_staged hrun hash

/-- What an installation leaves: its digest runs, confirmed, with another image that ran
before it behind it. -/
structure Installed (A : Image) (digest : Bytes) (w : World) : Prop where
  delivered : Delivered digest w.srv.dev
  replaced : A.hash ≠ digest → w.srv.dev.slot1 = some A

theorem Holds.installed {X : Image} (h : Holds c (some X) (some (behind A img digest)) false w)
    (hash : X.hash = digest) (hconf : X.confirmed = true) : Installed A digest w := by
  refine ⟨⟨⟨X, h.slot0, hash, hconf⟩, h.awaiting⟩, ?_⟩
  intro hne
  rw [h.slot1, behind, if_neg hne]

/-- **Whatever ran, and in whatever state, an installation ends well**, between an attached
runtime and a mock without a fault. -/
theorem Deploy.install_heals {o : Except Failure Unit} (hy : Yields (install image digest) t o)
    (henv : env.Attached) (hc : contractMajor c = some CONTRACT_MAJOR)
    (hacc : Mcuboot.Accepts image digest) (hunproven : awaiting = true → A.confirmed = false)
    (h : Holds c (some A) s1 awaiting w) (ha : Along (env.bench sha256) w t w') :
    o = .ok () ∧ Installed A digest w' := by
  have hcourse : Course image digest t o := install_course hy
  cases hcourse with
  | uploadFailed => cases (h.flash hacc ha).1
  | notLanded hq =>
    obtain ⟨-, img, v, hash, -, hv, ha⟩ := h.flash hacc ha
    rcases hq with ⟨e, rfl⟩ | ⟨slots, rfl, hnone⟩
    · cases (hv.list ha).1
    · have hslots := (hv.list ha).1
      cases hslots
      rw [slotHolding_both hash] at hnone
      cases hnone
  | writtenDirectly hlanded hactive hconf hq =>
    obtain ⟨-, img, v, hash, hfresh, hv, ha⟩ := h.flash hacc ha
    obtain ⟨hslots, hreset⟩ := hv.list ha
    cases hslots
    rw [slotHolding_both hash] at hlanded
    cases hlanded
    by_cases hrun : A.hash = digest
    · -- it runs, confirmed, so it is not on probation
      rw [if_pos hrun] at hconf
      change A.confirmed = true at hconf
      obtain rfl : awaiting = false := by
        apply Bool.eq_false_iff.mpr
        intro haw
        rw [hunproven haw] at hconf
        cases hconf
      obtain ⟨rfl, v, hv, hreconnect⟩ :=
        hv.stays (fun s hs => by cases hs; exact hfresh.pending) hreset
      rcases install_resets hy with ho | ⟨e, he⟩ | hlost
      · have hend : Holds c (some A) (some (behind A img digest)) false w' := by
          rw [behind, if_pos hrun]
          exact hv.quiet hq.quiet hreconnect
        exact ⟨ho, hend.installed hrun hconf⟩
      · cases he
      · exact absurd hlost (hv.not_lost henv hq hreconnect)
    · rw [if_neg hrun] at hactive
      cases hactive
  | markRefused =>
    obtain ⟨-, img, v, hash, -, hv, ha⟩ := h.flash hacc ha
    cases (hv.marked hash (hv.list ha).2).1
  | resetRefused =>
    obtain ⟨-, img, v, hash, hfresh, hv, ha⟩ := h.flash hacc ha
    cases (hv.booted hash hfresh ha).1
  | notBack hq hlost =>
    obtain ⟨-, img, v, hash, hfresh, hv, ha⟩ := h.flash hacc ha
    obtain ⟨-, X, aw, v, hv, -, ha⟩ := hv.booted hash hfresh ha
    exact absurd hlost (hv.not_lost henv hq (along_cons_iff.mp ha).2)
  | notConfirmed hq hno =>
    obtain ⟨-, img, v, hash, hfresh, hv, ha⟩ := h.flash hacc ha
    obtain ⟨-, X, aw, v, hv, hX, ha⟩ := hv.booted hash hfresh ha
    obtain ⟨v, hv, ha⟩ := hv.polled hq ha
    cases hno with
    | listFailed => cases (hv.list ha).1
    | notRunning hrun =>
      have hslots := (hv.list ha).1
      cases hslots
      exact absurd (congrArg some hX) (hrun _ rfl)
    | contract hm =>
      obtain ⟨rfl, -⟩ := along_describe (hv.list ha).2
      exact absurd (henv.contractMatches (hv.contract ▸ hc)) hm
  | confirmSent _ _ hq _ _ _ _ ho =>
    obtain ⟨-, img, v, hash, hfresh, hv, ha⟩ := h.flash hacc ha
    obtain ⟨-, X, aw, v, hv, hX, ha⟩ := hv.booted hash hfresh ha
    obtain ⟨v, hv, ha⟩ := hv.polled hq ha
    obtain ⟨-, ha⟩ := along_describe (hv.list ha).2
    have hnext : Holds c (some X) (some (behind A img digest)) aw v.next := hv.of_srv rfl rfl
    obtain ⟨hr, v, hv, ha⟩ := hnext.confirm hX ha
    rcases ho with ⟨ho, -, rfl⟩ | ⟨f, e, -, rfl, -⟩
    · cases along_nil_iff.mp ha
      exact ⟨ho, hv.installed hX rfl⟩
    · cases hr

/-! ## A deploy heals -/

/-- Slot 0 runs `digest`, confirmed, and nothing pending is behind it: resets leave it. -/
theorem delivered_iterate {dev : Device} (h : Delivered digest dev)
    (hidle : ∀ s, dev.slot1 = some s → s.pending = false) (n : Nat) :
    Delivered digest (Device.reset^[n] dev) := by
  obtain ⟨⟨img, h0, hash, hconf⟩, ha⟩ := h
  have hsettled : (Device.reset^[n] dev).Settled img := Device.settled_iterate ⟨ha, h0, hidle⟩ n
  exact ⟨⟨img, hsettled.running, hash, hconf⟩, hsettled.awaiting⟩

/-- A pending image of another digest boots at the next reset. -/
theorem not_delivered_reset {dev : Device} {s : Image} (ha : dev.awaitingConfirm = false)
    (h1 : dev.slot1 = some s) (hp : s.pending = true) (hne : s.hash ≠ digest) :
    ¬ Delivered digest dev.reset := by
  rintro ⟨⟨img, h0, hash, -⟩, -⟩
  rw [Device.reset_swaps ha h1 hp] at h0
  cases h0
  exact hne hash

/-- **A deploy ends well**, from whatever a history leaves, through an attached runtime. -/
theorem Deploy.heals {d : Deploy} {o : Except Failure Unit} (hy : Yields d.run t o)
    (ha : Along (env.bench sha256) w t w') (hh : Healthy w) (hk : w.srv.dev.Kept)
    (henv : env.Attached) (hc : contractMajor w.srv.contract = some CONTRACT_MAJOR)
    (hf : d.firmware = .ok image) (hacc : Mcuboot.Accepts image digest) :
    o = .ok () ∧ Delivered digest w'.srv.dev ∧
      ∀ A, w.srv.dev.slot0 = some A → A.hash ≠ digest → w'.srv.dev.slot1 = some A := by
  obtain ⟨A, h0⟩ := hk.running
  have hunproven (haw : w.srv.dev.awaitingConfirm = true) : A.confirmed = false :=
    (hk.trial haw A h0).1
  have honly (hbehind : A.hash ≠ digest → w'.srv.dev.slot1 = some A) (B : Image)
      (hB : w.srv.dev.slot0 = some B) (hne : B.hash ≠ digest) : w'.srv.dev.slot1 = some B := by
    rw [h0] at hB
    cases hB
    exact hbehind hne
  rcases run_stretches hy with
    ⟨f, -, href⟩ | ⟨image', digest', p, s, a, slots, rest, hf', hacc', rfl, -, hrest⟩
  · rcases href.on_healthy ha hh hf hacc with ⟨e, he⟩ | hno
    · rw [henv.connect] at he
      cases he
    · exact absurd (henv.identified hc) hno
  rw [hf] at hf'
  cases hf'
  cases hacc.unique hacc'
  have hholds : Holds w.srv.contract (some A) w.srv.dev.slot1 w.srv.dev.awaitingConfirm w :=
    ⟨hh.responsive, rfl, h0, rfl, rfl⟩
  obtain ⟨rfl, v, hsrv, hv, ha⟩ := hholds.vetted ha
  rcases hrest with ⟨ho, rfl, -, active, hfind, hash, hconf⟩ | ⟨-, -, hinstall⟩
  · -- nothing to do
    cases along_nil_iff.mp ha
    obtain ⟨B, hB, rfl⟩ := active_imageStates (List.mem_of_find?_eq_some hfind)
      (List.find?_some hfind)
    rw [h0] at hB
    cases hB
    replace hash : A.hash = digest := Option.some.inj hash
    change A.confirmed = true at hconf
    refine ⟨ho, ⟨⟨A, hv.slot0, hash, hconf⟩, hv.awaiting.trans ?_⟩,
      honly fun hne => absurd hash hne⟩
    apply Bool.eq_false_iff.mpr
    intro haw
    rw [hunproven haw] at hconf
    cases hconf
  · obtain ⟨ho, hinstalled⟩ := install_heals hinstall henv hc hacc hunproven hv ha
    exact ⟨ho, hinstalled.delivered, honly hinstalled.replaced⟩

variable (sha256) in
/-- **A deploy heals.**  Whatever deploys and resets came before, each deploy of any file
and in any environment: one deploy of an accepted file through a runtime that reaches the
mock returns `Ok` with that file's image running, confirmed and not on probation; what ran
before, if it was another image, is in slot 1 as it was; and later resets leave the new
image running exactly when what slot 1 holds is not marked pending. -/
theorem redeploy_heals (hw : Fielded sha256 w) (henv : env.Attached)
    (hc : contractMajor w.srv.contract = some CONTRACT_MAJOR) {d : Deploy}
    (hf : d.firmware = .ok image) (hacc : Mcuboot.Accepts image digest) :
    let dev' := (d.runOn env sha256 w).2.srv.dev
    (d.runOn env sha256 w).1 = .ok () ∧ Delivered digest dev' ∧
      (∀ A, w.srv.dev.slot0 = some A → A.hash ≠ digest → dev'.slot1 = some A) ∧
      ((∀ n, Delivered digest (Device.reset^[n] dev')) ↔
        ∀ s, dev'.slot1 = some s → s.pending = false) := by
  obtain ⟨hy, ha⟩ := exec_runs (h := env.bench sha256) d.run.run w
  have hkept' : (d.runOn env sha256 w).2.srv.dev.Kept := (hw.act env (.deploy d)).kept
  change Along _ _ _ (d.runOn env sha256 w).2 at ha
  change Runs _ _ (d.runOn env sha256 w).1 at hy
  obtain ⟨hok, hdelivered, hbehind⟩ := Deploy.heals hy ha hw.healthy hw.kept henv hc hf hacc
  refine ⟨hok, hdelivered, hbehind, ?_, fun hidle n => delivered_iterate hdelivered hidle n⟩
  intro hstays s h1
  apply Bool.eq_false_iff.mpr
  intro hp
  obtain ⟨B, hB, hash, -⟩ := hdelivered.1
  have hne : s.hash ≠ B.hash := hkept'.marked B s hB h1 hp
  exact not_delivered_reset hdelivered.2 h1 hp (hash ▸ hne) (hstays 1)

/-- A board on which a release came up with another contract: it is on probation. -/
def trialBoard : World :=
  Act.play mismatchedEnv sampleSha256 (.start (.fresh sampleSha256 .none) "2.0.0")
    (.deploy (Deploy.someRelease true))

/-- The release after it. -/
def nextRelease : Deploy :=
  ⟨"zephyr.signed.bin", .ok (Mcuboot.signedImage (List.replicate 32 2)), true⟩

/-- The next release overwrites the fallback, boots by way of the revert, and is
confirmed. -/
theorem redeploy_heals_trial :
    trialBoard.srv.dev.awaitingConfirm = true ∧
      Delivered (List.replicate 32 2) (nextRelease.runOn attachedEnv sampleSha256
        trialBoard).2.srv.dev := by
  have hfielded : Fielded sampleSha256 trialBoard :=
    (Fielded.provisioned (Device.provisioned_eq .none)).act mismatchedEnv _
  have hcontract : contractMajor trialBoard.srv.contract = some CONTRACT_MAJOR := by
    decide +kernel
  exact ⟨by decide +kernel, (redeploy_heals sampleSha256 hfielded attachedEnv_attached hcontract
    rfl (Mcuboot.accepts_signedImage List.length_replicate)).2.1⟩

end Runtt
