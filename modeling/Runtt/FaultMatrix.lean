import Runtt.Delivery
import Runtt.FaultyUpload

/-! # The fault matrix

What a deploy comes to at each fault of the mock.  `Harmless` collects what the calls of a
deploy need the fault not to be, one clause for each call; a run gets past its reset only
where all of them hold, and where they all hold it ends well.  A fault that does harm does
it before anything boots.
-/
namespace Runtt

open Interaction Program

variable {env : Env} {sha256 : Bytes → Bytes} {image digest : Bytes} {w w' : World}
  {t : List Event} {A img : Image} {c : String} {s0 s1 : Option Image} {awaiting : Bool}
  {f : Fault} {failed : List Bytes}

/-- The port opens, no deadline passes, and `describe` fails or brings back the mock's own
answer. -/
structure Env.Reaching (env : Env) : Prop where
  connect : ∀ n, env.connect n = .ok ()
  deadlinePassed : ∀ n, env.deadlinePassed n = false
  describe : ∀ n srv d, env.describe n srv = .ok d →
    d.contract = srv.contract ∧ d.img ≠ some false

theorem Env.Reaching.identified (h : env.Reaching) {n : Nat} {srv : Server}
    (hc : contractMajor srv.contract = some CONTRACT_MAJOR) : Identified (env.describe n srv) := by
  intro d hd
  obtain ⟨hcontract, himg⟩ := h.describe n srv d hd
  exact ⟨by rw [hcontract, hc]; nofun, himg⟩

theorem Env.Reaching.contractMatches (h : env.Reaching) {n : Nat} {srv : Server}
    (hc : contractMajor srv.contract = some CONTRACT_MAJOR) :
    ContractMatches (env.describe n srv) := by
  intro d hd
  rw [(h.describe n srv d hd).1, hc]

/-- The fault stands in the way of none of the calls that a deploy makes, on a mock that
has these digests down as failed. -/
structure Harmless (env : Env) (image digest : Bytes) (f : Fault) (failed : List Bytes) :
    Prop where
  echoes : f ≠ .timeout GROUP_OS OS_ECHO
  lists : f ≠ .timeout GROUP_IMG IMG_STATE
  lands : env.Lands image f
  agrees : f ≠ .badHash
  marks : f = .digestAlreadyFailed → digest ∉ failed
  resets : f ≠ .timeout GROUP_OS OS_RESET

/-- **When `set_state` refuses a digest.** -/
theorem Device.setState_fails_iff {dev : Device} {hash : Bytes} {confirm : Bool} :
    (∃ msg, (dev.setState (some hash) confirm).1 = .error msg) ↔
      (dev.fault = .digestAlreadyFailed ∧ hash ∈ dev.failedDigests) ∨
        dev.HoldsNone (some hash) := by
  by_cases hfailed : dev.fault = .digestAlreadyFailed ∧ hash ∈ dev.failedDigests
  · simp only [setState, if_pos hfailed]
    exact iff_of_true ⟨_, rfl⟩ (.inl hfailed)
  obtain ⟨r, dev', hs⟩ : ∃ r dev', dev.setState (some hash) confirm = (r, dev') := ⟨_, _, rfl⟩
  rw [or_iff_right hfailed, hs]
  have hcases := hs
  simp only [setState, if_neg hfailed] at hcases
  rcases setState_cases hs with
    ⟨msg, rfl, -, hfault | ⟨hnone, -⟩⟩ | ⟨s0, h0, hn | hn, rfl, -⟩ | ⟨s1, h1, hn, -, rfl, -⟩
  · -- the fault, but not for this digest: it is no slot's
    refine iff_of_true ⟨msg, rfl⟩ fun s hslot heq => ?_
    obtain rfl := Option.some.inj heq
    rcases hslot with h0 | h1
    · simp only [h0, if_true] at hcases
      cases hcases
    · cases h0 : dev.slot0 with
      | none =>
        simp only [h0, markStaged, h1, if_true] at hcases
        cases hcases
      | some s0 =>
        simp only [h0, markStaged, h1, if_true] at hcases
        split at hcases <;> cases hcases
  · exact iff_of_true ⟨msg, rfl⟩ hnone
  · cases hn
  · refine iff_of_false ?_ fun hnone => hnone s0 (.inl h0) hn
    rintro ⟨msg, h⟩
    cases h
  · refine iff_of_false ?_ fun hnone => hnone s1 (.inr h1) hn
    rintro ⟨msg, h⟩
    cases h

/-! ## The situations of a deploy, at any fault -/

/-- `Holds`, of a mock with the fault `f`. -/
structure Stands (f : Fault) (failed : List Bytes) (c : String) (s0 s1 : Option Image)
    (awaiting : Bool) (w : World) : Prop where
  notHung : w.hung = false
  notSilent : w.srv.silent = false
  fault : w.srv.dev.fault = f
  failed : w.srv.dev.failedDigests = failed
  contract : w.srv.contract = c
  slot0 : w.srv.dev.slot0 = s0
  slot1 : w.srv.dev.slot1 = s1
  awaiting : w.srv.dev.awaitingConfirm = awaiting

namespace Stands

theorem of_srv (h : Stands f failed c s0 s1 awaiting w) (hsrv : w'.srv = w.srv)
    (hhung : w'.hung = w.hung) : Stands f failed c s0 s1 awaiting w' := by
  refine ⟨hhung.trans h.notHung, ?_, ?_, ?_, ?_, ?_, ?_, ?_⟩ <;> rw [hsrv]
  exacts [h.notSilent, h.fault, h.failed, h.contract, h.slot0, h.slot1, h.awaiting]

theorem hears_iff (h : Stands f failed c s0 s1 awaiting w) (req : Request) :
    w.hears req = true ↔ f ≠ .timeout req.command.1 req.command.2 := by
  rw [World.hears_iff, h.fault]
  exact ⟨fun h => h.2.2, fun hf => ⟨h.notHung, h.notSilent, hf⟩⟩

/-- Whatever only reads leaves the situation as it is. -/
theorem quiet (h : Stands f failed c s0 s1 awaiting w) (hq : Quiet t)
    (ha : Along (env.bench sha256) w t w') : Stands f failed c s0 s1 awaiting w' :=
  (ha.preserves h fun x hx _ hv _ =>
    hv.of_srv (bench_quiet (hq x hx)).1 (bench_quiet (hq x hx)).2).2

/-- A quiet call, and the rest of the run. -/
theorem read (h : Stands f failed c s0 s1 awaiting w) {q : Call} {r : q.Reply}
    (hq : q.writes = false) (ha : Along (env.bench sha256) w (⟨q, r⟩ :: t) w') :
    r = (env.bench sha256 q w).1 ∧ ∃ v, Stands f failed c s0 s1 awaiting v ∧
      Along (env.bench sha256) v t w' := by
  obtain ⟨hr, ha⟩ := along_cons_iff.mp ha
  exact ⟨hr, _, h.of_srv (bench_quiet hq).1 (bench_quiet hq).2, ha⟩

/-- An echo comes back unless it is withheld. -/
theorem echo (h : Stands f failed c s0 s1 awaiting w) {payload : String} {r : Except Error String}
    (ha : Along (env.bench sha256) w (⟨.echo payload, r⟩ :: t) w') :
    (∃ s, r = .ok s) ↔ f ≠ .timeout GROUP_OS OS_ECHO := by
  have hr : r = (env.bench sha256 (.echo payload) w).1 := (along_cons_iff.mp ha).1
  simp only [Env.bench] at hr
  have hiff := h.hears_iff (.echo payload)
  cases hh : w.hears (.echo payload) with
  | false =>
    rw [call_deaf hh] at hr
    refine iff_of_false ?_ ?_
    · rintro ⟨s, rfl⟩
      cases hr
    · intro hf
      rw [hiff.mpr hf] at hh
      cases hh
  | true =>
    rw [call_hears hh rfl] at hr
    exact iff_of_true ⟨payload, hr⟩ (hiff.mp hh)

/-- What an image list of a device with these slots shows. -/
def listed (s0 s1 : Option Image) : List ImageSlot :=
  (s0.toList.map fun s => SlotReport.toImageSlot ⟨0, true, s⟩) ++
    s1.toList.map fun s => SlotReport.toImageSlot ⟨1, false, s⟩

theorem listed_slots (dev : Device) :
    dev.imageStates.map SlotReport.toImageSlot = listed dev.slot0 dev.slot1 := by
  rw [listed, Device.imageStates, List.map_append, List.map_map, List.map_map]
  rfl

/-- An image list is the device's unless it is withheld. -/
theorem list (h : Stands f failed c s0 s1 awaiting w) {r : Except Error (List ImageSlot)}
    (ha : Along (env.bench sha256) w (⟨.imageList, r⟩ :: t) w') :
    (f ≠ .timeout GROUP_IMG IMG_STATE ∧ r = .ok (listed s0 s1)) ∨
      (f = .timeout GROUP_IMG IMG_STATE ∧ ∃ e, r = .error e) := by
  have hr : r = (env.bench sha256 .imageList w).1 := (along_cons_iff.mp ha).1
  simp only [Env.bench] at hr
  have hiff := h.hears_iff .readState
  cases hh : w.hears .readState with
  | false =>
    rw [call_deaf hh] at hr
    refine .inr ⟨?_, _, hr⟩
    by_contra hf
    rw [hiff.mpr hf] at hh
    cases hh
  | true =>
    rw [call_hears hh rfl] at hr
    refine .inl ⟨hiff.mp hh, hr.trans ?_⟩
    rw [← h.slot0, ← h.slot1, ← listed_slots]
    rfl

/-- A reset happens unless it is withheld. -/
theorem reset (h : Stands f failed c s0 s1 awaiting w) {r : Except Error Unit}
    (ha : Along (env.bench sha256) w (⟨.reset, r⟩ :: t) w') :
    (f ≠ .timeout GROUP_OS OS_RESET ∧ r = .ok () ∧
      Along (env.bench sha256) { w with srv := { w.srv with dev := w.srv.dev.reset } } t w') ∨
    (f = .timeout GROUP_OS OS_RESET ∧ ∃ e, r = .error e) := by
  obtain ⟨hr, ha⟩ := along_cons_iff.mp ha
  simp only [Env.bench] at hr ha
  have hiff := h.hears_iff .reset
  cases hh : w.hears .reset with
  | false =>
    rw [call_deaf hh] at hr
    refine .inr ⟨?_, _, hr⟩
    by_contra hf
    rw [hiff.mpr hf] at hh
    cases hh
  | true =>
    rw [call_hears hh rfl] at hr ha
    exact .inl ⟨hiff.mp hh, hr, ha⟩

/-- The upload, as far as it lands. -/
theorem flash (h : Stands f failed c s0 s1 awaiting w) (hacc : Mcuboot.Accepts image digest)
    {r : Except Error Unit} (ha : Along (env.bench sha256) w (⟨.flash image, r⟩ :: t) w') :
    (r = .ok () ↔ env.Lands image f) ∧ (r = .ok () → ∃ img v, img.hash = digest ∧ img.Fresh ∧
      Stands f failed c s0 (if f = .badHash then s1 else some img) awaiting v ∧
      Along (env.bench sha256) v t w') := by
  obtain ⟨img, hrec, hash⟩ := Image.fromBytes_of_accepts hacc "2.0.0+staged"
  obtain ⟨r', v, hb, hoff, hiff, hend⟩ :=
    flash_faults env hacc.pos hrec h.notHung h.notSilent
  obtain ⟨hr, ha⟩ := along_cons_iff.mp ha
  rw [hb] at hr ha
  dsimp only at hr ha
  subst hr
  rw [h.fault, h.slot1] at hend
  rw [h.fault] at hiff
  refine ⟨hiff, fun hok => ⟨img, v, hash, Image.fresh_of_fromBytes hrec, ?_, ha⟩⟩
  obtain ⟨hsilent, hslot1⟩ := hend hok
  exact ⟨hoff.hung.trans h.notHung, hsilent, hoff.keeps.fault.trans h.fault,
    hoff.keeps.failedDigests.trans h.failed, hoff.contract.trans h.contract,
    hoff.keeps.slot0.trans h.slot0, hslot1, hoff.keeps.awaitingConfirm.trans h.awaiting⟩

/-- A `set_state` is the device's unless it is withheld. -/
theorem setState (h : Stands f failed c s0 s1 awaiting w) {confirm : Bool} {r : Except Error Unit}
    (ha : Along (env.bench sha256) w (⟨.setState digest confirm, r⟩ :: t) w') :
    (∃ e, r = .error e ∧ (f = .timeout GROUP_IMG IMG_STATE ∨
      ∃ msg, (w.srv.dev.setState (some digest) confirm).1 = .error msg)) ∨
    (r = .ok () ∧ f ≠ .timeout GROUP_IMG IMG_STATE ∧
      ∃ dev, w.srv.dev.setState (some digest) confirm = (.ok (), dev) ∧
      Along (env.bench sha256) { w with srv := { w.srv with dev } } t w') := by
  obtain ⟨hr, ha⟩ := along_cons_iff.mp ha
  simp only [Env.bench] at hr ha
  have hiff := h.hears_iff (.setState (some digest) confirm)
  cases hh : w.hears (.setState (some digest) confirm) with
  | false =>
    rw [call_deaf hh] at hr
    refine .inl ⟨_, hr, .inl ?_⟩
    by_contra hf
    rw [hiff.mpr hf] at hh
    cases hh
  | true =>
    obtain ⟨res, dev, hs⟩ : ∃ res dev, w.srv.dev.setState (some digest) confirm = (res, dev) :=
      ⟨_, _, rfl⟩
    cases res with
    | error msg =>
      have hanswer : w.srv.answer sha256 (.setState (some digest) confirm) =
          .ok (some (.refused ERR_EINVAL), { w.srv with dev }) := by
        simp only [Server.answer, hs]
      rw [call_hears hh hanswer] at hr
      exact .inl ⟨_, hr, .inr ⟨msg, by rw [hs]⟩⟩
    | ok u =>
      have hanswer : w.srv.answer sha256 (.setState (some digest) confirm) =
          .ok (some (.states dev.imageStates), { w.srv with dev }) := by
        simp only [Server.answer, hs]
      rw [call_hears hh hanswer] at hr ha
      exact .inr ⟨hr, hiff.mp hh, dev, hs, ha⟩

/-- The test mark goes on slot 1, if the digest is there and not refused. -/
theorem mark (h : Stands f failed c (some A) s1 awaiting w) (hne : A.hash ≠ digest)
    {r : Except Error Unit}
    (ha : Along (env.bench sha256) w (⟨.setState digest false, r⟩ :: t) w') :
    ((∃ e, r = .error e) ∧ (f = .timeout GROUP_IMG IMG_STATE ∨
      f = .digestAlreadyFailed ∧ digest ∈ failed ∨ ∀ img, s1 = some img → img.hash ≠ digest)) ∨
    (r = .ok () ∧ f ≠ .timeout GROUP_IMG IMG_STATE ∧
      (f = .digestAlreadyFailed → digest ∉ failed) ∧
      ∃ img v, s1 = some img ∧ img.hash = digest ∧
        Stands f failed c (some A) (some { img with pending := true, permanent := false })
          awaiting v ∧ Along (env.bench sha256) v t w') := by
  rcases h.setState ha with ⟨e, hr, hwhy⟩ | ⟨hr, hf, dev, hs, ha⟩
  · refine .inl ⟨⟨e, hr⟩, hwhy.imp_right fun hfails => ?_⟩
    rcases Device.setState_fails_iff.mp hfails with ⟨hfault, hmem⟩ | hnone
    · exact .inl ⟨h.fault.symm.trans hfault, h.failed ▸ hmem⟩
    · refine .inr fun img h1 hash => ?_
      exact hnone img (.inr (h.slot1.trans h1)) (congrArg some hash.symm)
  · have hmarks : f = .digestAlreadyFailed → digest ∉ failed := by
      intro hfault hmem
      obtain ⟨msg, hfails⟩ := Device.setState_fails_iff.mpr
        (.inl ⟨h.fault.trans hfault, h.failed.symm ▸ hmem⟩)
      rw [hs] at hfails
      cases hfails
    rcases Device.setState_cases hs with
      ⟨msg, hr', -⟩ | ⟨s, h0, hn | hn, -⟩ | ⟨s, h1, hn, -, -, rfl⟩
    · cases hr'
    · cases hn
    · rw [h.slot0] at h0
      cases h0
      exact absurd (Option.some.inj hn).symm hne
    · refine .inr ⟨hr, hf, hmarks, s, _, h.slot1.symm.trans h1, (Option.some.inj hn).symm, ?_, ha⟩
      exact ⟨h.notHung, h.notSilent, h.fault, h.failed, h.contract, h.slot0, rfl, h.awaiting⟩

/-- The reset swaps the marked image in, on probation, with the old one behind it. -/
theorem swap (h : Stands f failed c s0 (some img) false w) (hp : img.pending = true)
    (htest : img.permanent = false)
    (ha : Along (env.bench sha256) { w with srv := { w.srv with dev := w.srv.dev.reset } } t w') :
    ∃ v, Stands f failed c (some { img with pending := false, confirmed := false }) s0 true v ∧
      Along (env.bench sha256) v t w' := by
  rw [Device.reset_swaps h.awaiting h.slot1 hp] at ha
  refine ⟨_, ?_, ha⟩
  refine ⟨h.notHung, h.notSilent, h.fault, h.failed, h.contract, ?_, h.slot0, ?_⟩
  · simp only [Device.afterSwap, htest]
  · simp [Device.afterSwap, htest]

/-- The confirm makes it stay. -/
theorem confirm (h : Stands f failed c (some img) s1 awaiting w) (hash : img.hash = digest)
    (hf : f ≠ .timeout GROUP_IMG IMG_STATE) (hmarks : f = .digestAlreadyFailed → digest ∉ failed)
    {r : Except Error Unit}
    (ha : Along (env.bench sha256) w (⟨.setState digest true, r⟩ :: t) w') :
    r = .ok () ∧ ∃ v,
      Stands f failed c (some { img with confirmed := true, permanent := true }) s1 false v ∧
      Along (env.bench sha256) v t w' := by
  rcases h.setState ha with ⟨e, hr, hwhy | hfails⟩ | ⟨hr, -, dev, hs, ha⟩
  · exact absurd hwhy hf
  · rcases Device.setState_fails_iff.mp hfails with ⟨hfault, hmem⟩ | hnone
    · exact absurd (h.failed ▸ hmem) (hmarks (h.fault.symm.trans hfault))
    · exact absurd (congrArg some hash.symm) (hnone img (.inl h.slot0))
  · rcases Device.setState_cases hs with
      ⟨msg, hr', -⟩ | ⟨s, h0, hn, -, rfl⟩ | ⟨s, h1, hn, hother, -⟩
    · cases hr'
    · rw [h.slot0] at h0
      cases h0
      refine ⟨hr, _, ?_, ha⟩
      exact ⟨h.notHung, h.notSilent, h.fault, h.failed, h.contract, rfl, h.slot1, rfl⟩
    · exact absurd (hash.trans (Option.some.inj hn)) (hother img h.slot0)

/-- The checks before the upload: the mock echoed and listed its slots. -/
theorem vetted (h : Stands f failed c s0 s1 awaiting w) {p : Except Error Unit} {s : String}
    {a : Except Error Describe} {slots : List ImageSlot}
    (ha : Along (env.bench sha256) w (Deploy.vetting p s a slots ++ t) w') :
    f ≠ .timeout GROUP_OS OS_ECHO ∧ f ≠ .timeout GROUP_IMG IMG_STATE ∧ slots = listed s0 s1 ∧
      ∃ v, Stands f failed c s0 s1 awaiting v ∧ Along (env.bench sha256) v t w' := by
  obtain ⟨-, v, h, ha⟩ := h.read rfl ha
  obtain ⟨-, v, h, ha⟩ := h.read rfl ha
  have hecho := (h.echo ha).mp ⟨s, rfl⟩
  obtain ⟨-, v, h, ha⟩ := h.read rfl ha
  obtain ⟨-, v, h, ha⟩ := h.read rfl ha
  rcases h.list ha with ⟨hlist, hslots⟩ | ⟨-, e, he⟩
  · obtain ⟨-, v, h, ha⟩ := h.read rfl ha
    exact ⟨hecho, hlist, Except.ok.inj hslots, v, h, ha⟩
  · cases he

/-- **What it takes to get past the reset**, and where that leaves the mock. -/
theorem past_reset (h : Stands f failed c (some A) s1 false w) (hne : A.hash ≠ digest)
    (habsent : ∀ s, s1 = some s → s.hash ≠ digest) (hacc : Mcuboot.Accepts image digest)
    (hecho : f ≠ .timeout GROUP_OS OS_ECHO) {l : Except Error (List ImageSlot)}
    (ha : Along (env.bench sha256) w (⟨.flash image, .ok ()⟩ :: ⟨.imageList, l⟩ ::
      ⟨.setState digest false, .ok ()⟩ :: ⟨.reset, .ok ()⟩ :: t) w') :
    Harmless env image digest f failed ∧
      ∃ X v, X.hash = digest ∧ Stands f failed c (some X) (some A) true v ∧
        Along (env.bench sha256) v t w' := by
  obtain ⟨hiff, hflash⟩ := h.flash hacc ha
  obtain ⟨img, v, hash, hfresh, h, ha⟩ := hflash rfl
  obtain ⟨-, v, h, ha⟩ := h.read rfl ha
  rcases h.mark hne ha with ⟨⟨e, he⟩, -⟩ | ⟨-, hlist, hmarks, img', v, h1, hash', h, ha⟩
  · cases he
  -- the mark found the digest, so the upload is what slot 1 holds
  have hagrees : f ≠ .badHash := by
    intro hbad
    rw [if_pos hbad] at h1
    exact habsent img' h1 hash'
  rcases h.reset ha with ⟨hresets, -, ha⟩ | ⟨-, e, he⟩
  · obtain ⟨v, h, ha⟩ := h.swap rfl rfl ha
    refine ⟨⟨hecho, hlist, hiff.mp rfl, hagrees, hmarks, hresets⟩, _, v, ?_, h, ha⟩
    exact hash'
  · cases he

/-- The runtime reconnects to a mock that echoes. -/
theorem not_lost (h : Stands f failed c s0 s1 awaiting w) (henv : env.Reaching)
    (hecho : f ≠ .timeout GROUP_OS OS_ECHO) (hq : Polling t)
    (ha : Along (env.bench sha256) w t w') : ¬ Lost t := by
  rintro ⟨x, hx, hlost⟩
  obtain ⟨s, u, rfl⟩ := List.append_of_mem hx
  obtain ⟨v, ha₁, ha₂⟩ := along_append_iff.mp ha
  have hv := h.quiet (polling_append.mp hq).1.quiet ha₁
  rcases hlost with rfl | ⟨e, rfl⟩ | ⟨e, rfl⟩
  · have hreply := (along_cons_iff.mp ha₂).1
    exact absurd (hreply.trans (henv.deadlinePassed v.tick)) nofun
  · exact absurd ((along_openChannel ha₂).1.trans (henv.connect v.tick)) nofun
  · obtain ⟨s, hs⟩ := (hv.echo ha₂).mpr hecho
    cases hs

end Stands

/-! ## The matrix -/

/-- An image runs that is not the one to come, and no copy of that is in slot 1. -/
structure Ready (A : Image) (digest : Bytes) (w : World) : Prop where
  notHung : w.hung = false
  notSilent : w.srv.silent = false
  contract : contractMajor w.srv.contract = some CONTRACT_MAJOR
  running : w.srv.dev.slot0 = some A
  other : A.hash ≠ digest
  settled : w.srv.dev.awaitingConfirm = false
  absent : ∀ s, w.srv.dev.slot1 = some s → s.hash ≠ digest

theorem Ready.stands (h : Ready A digest w) : Stands w.srv.dev.fault w.srv.dev.failedDigests
    w.srv.contract (some A) w.srv.dev.slot1 false w :=
  ⟨h.notHung, h.notSilent, rfl, rfl, rfl, h.running, rfl, h.settled⟩

/-! ### What the image lists show -/

theorem listed_cases {slot : ImageSlot} (h : slot ∈ Stands.listed (some A) s1) :
    slot = SlotReport.toImageSlot ⟨0, true, A⟩ ∨
      ∃ s, s1 = some s ∧ slot = SlotReport.toImageSlot ⟨1, false, s⟩ := by
  rcases List.mem_append.mp h with hmem | hmem
  · obtain ⟨s, hs, rfl⟩ := List.mem_map.mp hmem
    cases Option.mem_toList.mp hs
    exact .inl rfl
  · obtain ⟨s, hs, rfl⟩ := List.mem_map.mp hmem
    exact .inr ⟨s, Option.mem_toList.mp hs, rfl⟩

/-- Only slot 0 is active. -/
theorem active_listed {landed : ImageSlot}
    (h : slotHolding digest (Stands.listed (some A) s1) = some landed)
    (hactive : landed.active = true) : A.hash = digest := by
  have hash : landed.hash = some digest := by simpa using List.find?_some h
  rcases listed_cases (List.mem_of_find?_eq_some h) with rfl | ⟨s, -, rfl⟩
  · exact Option.some.inj hash
  · cases hactive

/-- Neither slot of a mock that is ready holds the digest to come. -/
theorem Ready.not_listed (h : Ready A digest w) {slot : ImageSlot}
    (hslot : slot ∈ Stands.listed (some A) w.srv.dev.slot1) : slot.hash ≠ some digest := by
  intro hash
  rcases listed_cases hslot with rfl | ⟨s, hs, rfl⟩
  · exact h.other (Option.some.inj hash)
  · exact h.absent s hs (Option.some.inj hash)

/-! ### Whatever does not boot -/

/-- A call before anything boots: an early one, or a reset that was not answered. -/
def Unbooted (image digest : Bytes) (x : Event) : Prop :=
  Early image digest x ∨ ∃ e, x = ⟨.reset, .error e⟩

/-- Such a call leaves `A` running, and nothing on probation. -/
theorem unbooted_keeps (hacc : Mcuboot.Accepts image digest) (hne : A.hash ≠ digest) {x : Event}
    (hx : Unbooted image digest x) (hreply : x.reply = (env.bench sha256 x.question w).1)
    (h : w.srv.dev.slot0 = some A ∧ w.srv.dev.awaitingConfirm = false) :
    (env.bench sha256 x.question w).2.srv.dev.slot0 = some A ∧
      (env.bench sha256 x.question w).2.srv.dev.awaitingConfirm = false := by
  obtain ⟨q, r⟩ := x
  rcases hx with (hq | heq | heq) | ⟨e, heq⟩
  · exact quiet_preserves (P := fun dev => dev.slot0 = some A ∧ dev.awaitingConfirm = false) hq h
  · dsimp only at heq
    subst heq
    obtain ⟨img, hrec, -⟩ := Image.fromBytes_of_accepts hacc "2.0.0+staged"
    obtain ⟨r', w', hb, hoff, -⟩ := flash_cases env w hacc.pos hrec
    rw [hb]
    exact ⟨hoff.keeps.slot0.trans h.1, hoff.keeps.awaitingConfirm.trans h.2⟩
  · dsimp only at heq
    subst heq
    rcases bench_setState env sha256 w digest false with ⟨e, hb⟩ | ⟨dev', hs, hb⟩
    · rw [hb]
      exact h
    rw [hb]
    rcases Device.setState_cases hs with
      ⟨msg, -, rfl, -⟩ | ⟨s0, h0, hn | hn, -, -⟩ | ⟨s, -, -, -, -, rfl⟩
    · exact h
    · cases hn
    · rw [h.1] at h0
      cases h0
      exact absurd (Option.some.inj hn).symm hne
    · exact h
  · cases heq
    rcases bench_reset env sha256 w with ⟨e', hb⟩ | hb
    · rw [hb]
      exact h
    · rw [hb] at hreply
      cases hreply

theorem Quiet.unbooted (h : Quiet t) : ∀ x ∈ t, Unbooted image digest x :=
  fun x hx => .inl (h.early x hx)

/-! ### The whole deploy -/

/-- **An installation ends well or before anything boots**, and which of the two the fault
decides. -/
theorem Deploy.Course.faults {o : Except Failure Unit} (hcourse : Course image digest t o)
    (henv : env.Reaching) (hc : contractMajor c = some CONTRACT_MAJOR)
    (hacc : Mcuboot.Accepts image digest) (hne : A.hash ≠ digest)
    (habsent : ∀ s, s1 = some s → s.hash ≠ digest) (hecho : f ≠ .timeout GROUP_OS OS_ECHO)
    (hlist : f ≠ .timeout GROUP_IMG IMG_STATE) (h : Stands f failed c (some A) s1 false w)
    (ha : Along (env.bench sha256) w t w') :
    (o = .ok () ∧ Harmless env image digest f failed ∧ ∃ img, img.hash = digest ∧
      img.confirmed = true ∧ Stands f failed c (some img) (some A) false w') ∨
    ((∃ e, o = .error e) ∧ ¬ Harmless env image digest f failed ∧
      ∀ x ∈ t, Unbooted image digest x) := by
  cases hcourse with
  | uploadFailed =>
    refine .inr ⟨⟨_, rfl⟩, fun hharm => ?_, by simp [Unbooted, Early, Call.writes]⟩
    cases (h.flash hacc ha).1.mpr hharm.lands
  | @notLanded _ q hq =>
    refine .inr ⟨⟨_, rfl⟩, fun hharm => ?_, ?_⟩
    · obtain ⟨img, v, hash, -, hv, ha⟩ := (h.flash hacc ha).2 rfl
      rw [if_neg hharm.agrees] at hv
      rcases hq with ⟨e, rfl⟩ | ⟨slots, rfl, hnone⟩
      · rcases hv.list ha with ⟨-, hr⟩ | ⟨hf, -⟩
        · cases hr
        · exact hlist hf
      · rcases hv.list ha with ⟨-, hr⟩ | ⟨hf, -⟩
        · cases hr
          have hcontra := (slotHolding_staged hne hash).symm.trans hnone
          cases hcontra
        · exact hlist hf
    · have hend : Quiet (q ++ [⟨.drop, ()⟩]) := by simp [hq.quiet, Call.writes]
      exact List.forall_mem_cons.mpr ⟨.inl (.inr (.inl rfl)), hend.unbooted⟩
  | writtenDirectly hlanded hactive _ _ =>
    -- whatever slot 1 holds, it is not the running one
    obtain ⟨img, v, -, -, hv, ha⟩ := (h.flash hacc ha).2 rfl
    rcases hv.list ha with ⟨-, hr⟩ | ⟨hf, -⟩
    · cases hr
      exact absurd (active_listed hlanded hactive) hne
    · exact absurd hf hlist
  | markRefused =>
    refine .inr ⟨⟨_, rfl⟩, fun hharm => ?_, by simp [Unbooted, Early, Call.writes]⟩
    obtain ⟨img, v, hash, -, hv, ha⟩ := (h.flash hacc ha).2 rfl
    obtain ⟨-, v, hv, ha⟩ := hv.read rfl ha
    rw [if_neg hharm.agrees] at hv
    rcases hv.mark hne ha with ⟨-, hf | ⟨hf, hmem⟩ | hother⟩ | ⟨hr, -⟩
    · exact hlist hf
    · exact hharm.marks hf hmem
    · exact hother img rfl hash
    · cases hr
  | @resetRefused _ _ e =>
    refine .inr ⟨⟨_, rfl⟩, fun hharm => ?_, ?_⟩
    rotate_left
    · simp only [List.forall_mem_cons, Unbooted, Early, Call.writes]
      exact ⟨by simp, by simp, by simp, .inr ⟨e, rfl⟩, by simp, by simp⟩
    obtain ⟨img, v, -, -, hv, ha⟩ := (h.flash hacc ha).2 rfl
    obtain ⟨-, v, hv, ha⟩ := hv.read rfl ha
    rcases hv.mark hne ha with ⟨⟨e, hr⟩, -⟩ | ⟨-, -, -, img', v, -, -, hv, ha⟩
    · cases hr
    rcases hv.reset ha with ⟨-, hr, -⟩ | ⟨hf, -⟩
    · cases hr
    · exact hharm.resets hf
  | notBack hq hlost =>
    obtain ⟨-, X, v, -, hv, ha⟩ := h.past_reset hne habsent hacc hecho ha
    obtain ⟨-, v, hv, ha⟩ := hv.read rfl ha
    exact absurd hlost (hv.not_lost henv hecho hq ha)
  | @notConfirmed _ _ q q' hq hno =>
    obtain ⟨-, X, v, hash, hv, ha⟩ := h.past_reset hne habsent hacc hecho ha
    obtain ⟨-, v, hv, ha⟩ := hv.read rfl ha
    obtain ⟨v', ha₁, ha⟩ := along_append_iff.mp ha
    replace hv := hv.quiet hq.quiet ha₁
    cases hno with
    | listFailed =>
      rcases hv.list ha with ⟨-, hr⟩ | ⟨hf, -⟩
      · cases hr
      · exact absurd hf hlist
    | notRunning hrun =>
      rcases hv.list ha with ⟨-, hr⟩ | ⟨hf, -⟩
      · cases hr
        exact absurd (congrArg some hash) (hrun _ rfl)
      · exact absurd hf hlist
    | contract hm =>
      obtain ⟨-, v, hv, ha⟩ := hv.read rfl ha
      obtain ⟨rfl, -⟩ := along_describe ha
      exact absurd (henv.contractMatches (hv.contract ▸ hc)) hm
  | confirmSent _ _ hq _ _ _ _ ho =>
    obtain ⟨hharm, X, v, hash, hv, ha⟩ := h.past_reset hne habsent hacc hecho ha
    obtain ⟨-, v, hv, ha⟩ := hv.read rfl ha
    obtain ⟨v', ha₁, ha⟩ := along_append_iff.mp ha
    replace hv := hv.quiet hq.quiet ha₁
    obtain ⟨-, v, hv, ha⟩ := hv.read rfl ha
    obtain ⟨-, v, hv, ha⟩ := hv.read rfl ha
    obtain ⟨hr, v, hv, ha⟩ := hv.confirm hash hlist hharm.marks ha
    rcases ho with ⟨ho, -, rfl⟩ | ⟨f, e, -, rfl, -⟩
    · cases along_nil_iff.mp ha
      refine .inl ⟨ho, hharm, _, ?_, ?_, hv⟩
      exacts [hash, rfl]
    · cases hr

/-- What stops a deploy before its upload is a withheld echo or image list. -/
theorem Ready.refused {d : Deploy} (h : Ready A digest w) (henv : env.Reaching)
    (hf : d.firmware = .ok image) (hacc : Mcuboot.Accepts image digest) (href : d.Refusal t)
    (ha : Along (env.bench sha256) w t w') :
    w.srv.dev.fault = .timeout GROUP_OS OS_ECHO ∨
      w.srv.dev.fault = .timeout GROUP_IMG IMG_STATE := by
  have hv := h.stands
  cases href with
  | unreadable hno => exact absurd hacc (hno image digest hf)
  | noConnection => exact absurd ((along_openChannel ha).1.trans (henv.connect _)) nofun
  | noEcho =>
    obtain ⟨-, v, hv, ha⟩ := hv.read rfl ha
    obtain ⟨-, v, hv, ha⟩ := hv.read rfl ha
    by_contra hno
    obtain ⟨s, hs⟩ := (hv.echo ha).mpr fun hf => hno (.inl hf)
    cases hs
  | unidentified hid =>
    obtain ⟨-, v, hv, ha⟩ := hv.read rfl ha
    obtain ⟨-, v, hv, ha⟩ := hv.read rfl ha
    obtain ⟨-, v, hv, ha⟩ := hv.read rfl ha
    obtain ⟨rfl, -⟩ := along_describe ha
    exact absurd (henv.identified (hv.contract ▸ h.contract)) hid
  | noList =>
    obtain ⟨-, v, hv, ha⟩ := hv.read rfl ha
    obtain ⟨-, v, hv, ha⟩ := hv.read rfl ha
    obtain ⟨-, v, hv, ha⟩ := hv.read rfl ha
    obtain ⟨-, v, hv, ha⟩ := hv.read rfl ha
    rcases hv.list ha with ⟨-, hr⟩ | ⟨hf, -⟩
    · cases hr
    · exact .inr hf
  | rejected hf' hacc' hrej =>
    rw [hf] at hf'
    cases hf'
    cases hacc.unique hacc'
    obtain ⟨-, -, rfl, -⟩ := hv.vetted ha
    obtain ⟨s, hs, hash, -⟩ := hrej
    exact absurd hash (h.not_listed hs)

variable (sha256) in
/-- **The fault matrix.**  From every state in which another image runs and the one to come
is in neither slot, a deploy returns `Ok` exactly when the fault is harmless to it: then the
new image runs, confirmed, with the old one behind it.  A fault that does harm leaves the old
image running, and nothing on probation. -/
theorem fault_matrix {d : Deploy} (h : Ready A digest w) (henv : env.Reaching)
    (hf : d.firmware = .ok image) (hacc : Mcuboot.Accepts image digest) :
    ((d.runOn env sha256 w).1 = .ok () ↔
      Harmless env image digest w.srv.dev.fault w.srv.dev.failedDigests) ∧
    ((d.runOn env sha256 w).1 = .ok () →
      Delivered digest (d.runOn env sha256 w).2.srv.dev ∧
        (d.runOn env sha256 w).2.srv.dev.slot1 = some A) ∧
    ((d.runOn env sha256 w).1 ≠ .ok () →
      (d.runOn env sha256 w).2.srv.dev.slot0 = some A ∧
        (d.runOn env sha256 w).2.srv.dev.awaitingConfirm = false) := by
  obtain ⟨hy, ha⟩ := exec_runs (h := env.bench sha256) d.run.run w
  change Along _ _ _ (d.runOn env sha256 w).2 at ha
  change Runs _ _ (d.runOn env sha256 w).1 at hy
  generalize d.runOn env sha256 w = run, trace (env.bench sha256) d.run.run w = t at hy ha
  obtain ⟨o, w'⟩ := run
  have hkeeps (hun : ∀ x ∈ t, Unbooted image digest x) :
      w'.srv.dev.slot0 = some A ∧ w'.srv.dev.awaitingConfirm = false :=
    (ha.preserves (P := fun v => v.srv.dev.slot0 = some A ∧ v.srv.dev.awaitingConfirm = false)
      ⟨h.running, h.settled⟩ fun x hx v hv hreply =>
        unbooted_keeps hacc h.other (hun x hx) hreply hv).2
  have hfails (e : Failure) (ho : o = .error e) (hun : ∀ x ∈ t, Unbooted image digest x)
      (hharm : ¬ Harmless env image digest w.srv.dev.fault w.srv.dev.failedDigests) :
      (o = .ok () ↔ Harmless env image digest w.srv.dev.fault w.srv.dev.failedDigests) ∧
        (o = .ok () → Delivered digest w'.srv.dev ∧ w'.srv.dev.slot1 = some A) ∧
        (o ≠ .ok () → w'.srv.dev.slot0 = some A ∧ w'.srv.dev.awaitingConfirm = false) := by
    subst ho
    exact ⟨iff_of_false nofun hharm, nofun, fun _ => hkeeps hun⟩
  rcases Deploy.run_cases hy with
    ⟨e, ho, href⟩ | ⟨image', digest', p, s, a, slots, rest, hf', hacc', rfl, -, hrest⟩
  · refine hfails e ho href.quiet.unbooted fun hharm => ?_
    exact (h.refused henv hf hacc href ha).elim hharm.echoes hharm.lists
  rw [hf] at hf'
  cases hf'
  cases hacc.unique hacc'
  obtain ⟨hecho, hlist, rfl, v, hv, ha'⟩ := h.stands.vetted ha
  rcases hrest with ⟨-, -, -, active, hactive, hash, -⟩ | ⟨-, -, hcourse⟩
  · exact absurd hash (h.not_listed (List.mem_of_find?_eq_some hactive))
  rcases hcourse.faults henv h.contract hacc h.other h.absent hecho hlist hv ha' with
    ⟨ho, hharm, img, hash, hconf, hend⟩ | ⟨⟨e, ho⟩, hharm, hun⟩
  · exact ⟨iff_of_true ho hharm,
      fun _ => ⟨⟨⟨img, hend.slot0, hash, hconf⟩, hend.awaiting⟩, hend.slot1⟩,
      fun hno => absurd ho hno⟩
  · exact hfails e ho (List.forall_mem_append.mpr ⟨Deploy.quiet_vetting.unbooted, hun⟩) hharm

theorem attachedEnv_reaching : attachedEnv.Reaching :=
  ⟨fun _ => rfl, fun _ => rfl, fun _ _ _ hd => by cases hd; exact ⟨rfl, nofun⟩⟩

/-- The mock as it starts, with a fault. -/
theorem ready_fresh (sha256 : Bytes → Bytes) (f : Fault) (hne : digest ≠ sha256 FACTORY_IMAGE) :
    Ready (factoryImage sha256) digest (.start (.fresh sha256 f) "2.0.0") := by
  have hcontract : contractMajor "2.0.0" = some CONTRACT_MAJOR := by decide +kernel
  exact ⟨rfl, rfl, hcontract, rfl, hne.symm, rfl, nofun⟩

/-- The fault that reverts on boot does no harm, for the confirm comes in time; an upload
that is cut off does, and the factory image runs on. -/
theorem fault_matrix_release :
    let ends := fun f => (Deploy.someRelease true).runOn attachedEnv sampleSha256
      (.start (.fresh sampleSha256 f) "2.0.0")
    (ends .revertOnBoot).1 = .ok () ∧
      Delivered (List.replicate 32 1) (ends .revertOnBoot).2.srv.dev ∧
      (ends (.disconnectMidUpload 1)).1 ≠ .ok () ∧
      (ends (.disconnectMidUpload 1)).2.srv.dev.slot0 = some (factoryImage sampleSha256) := by
  have hne : List.replicate 32 1 ≠ sampleSha256 FACTORY_IMAGE := by decide +kernel
  obtain ⟨-, image, hf, hacc⟩ := releases_someRelease
  have hreverts := fault_matrix sampleSha256 (ready_fresh sampleSha256 .revertOnBoot hne)
    attachedEnv_reaching hf hacc
  have hcut := fault_matrix sampleSha256 (ready_fresh sampleSha256 (.disconnectMidUpload 1) hne)
    attachedEnv_reaching hf hacc
  have hok := hreverts.1.mpr ⟨nofun, nofun, trivial, nofun, nofun, nofun⟩
  have hno : ((Deploy.someRelease true).runOn attachedEnv sampleSha256
      (.start (.fresh sampleSha256 (.disconnectMidUpload 1)) "2.0.0")).1 ≠ .ok () := by
    intro h
    have hlands : attachedEnv.chunksFrom image.length 0 < 1 := (hcut.1.mp h).lands
    rw [Env.chunksFrom_inside hacc.pos] at hlands
    omega
  exact ⟨hok, (hreverts.2.1 hok).1, hno, (hcut.2.2 hno).1⟩

end Runtt
