import Runtt.DeployRuns

/-! # The confirm gate

`set_state(d, confirm=true)` is the one call after which a bad image stays.  Every
run of a deploy sends it at most once, for the digest of the file it was given, and
only after the evidence the sequence is there to collect: `Cleared`.  The last
section asks the converse question, what an `Ok` has verified.
-/
namespace Runtt

open Interaction Program

/-- The calls that make an image permanent. -/
def Call.confirms : Call → Bool
  | setState _ confirm => confirm
  | _ => false

theorem Quiet.confirms_eq_false {t : List Event} (h : Quiet t) :
    ∀ x ∈ t, x.question.confirms = false := by
  intro x hx
  have := h x hx
  cases hq : x.question <;> simp_all [Call.writes, Call.confirms]

theorem filter_confirms_eq_nil {t : List Event} (h : ∀ x ∈ t, x.question.confirms = false) :
    t.filter (·.question.confirms) = [] := by
  rw [List.filter_eq_nil_iff]
  intro x hx
  rw [h x hx]
  exact Bool.false_ne_true

/-- Where an element occurs once, a list splits around it in one way. -/
theorem eq_of_append_cons {α : Type} {pre post pre' post' : List α} {x y : α}
    (h : pre ++ x :: post = pre' ++ y :: post') (hpre : y ∉ pre) (hpost : y ∉ post) :
    pre = pre' ∧ x = y := by
  rcases List.append_eq_append_iff.mp h with ⟨as, rfl, hl⟩ | ⟨bs, rfl, hr⟩
  · cases as with
    | nil => exact ⟨(List.append_nil pre).symm, (List.cons.inj hl).1⟩
    | cons a as =>
      obtain ⟨rfl, rfl⟩ := List.cons.inj hl
      exact absurd (by simp) hpost
  · cases bs with
    | nil => exact ⟨List.append_nil pre', (List.cons.inj hr).1.symm⟩
    | cons b bs =>
      obtain ⟨rfl, rfl⟩ := List.cons.inj hr
      exact absurd (by simp) hpre

namespace Deploy

/-- What a run has seen before it confirms, in this order: the upload completed, an
image list containing the digest, the test mark and the reset acknowledged, an echo
answered on a client opened after that, an image list whose first active slot runs
the digest, and a describe that does not contradict the contract. -/
def Cleared (image digest : Bytes) (t : List Event) : Prop :=
  ∃ slots slots' p s a, (∃ landed ∈ slots, landed.hash = some digest) ∧
    (∃ active, activeSlot slots' = some active ∧ active.hash = some digest) ∧
    ContractMatches a ∧
    [⟨.flash image, .ok ()⟩, ⟨.imageList, .ok slots⟩, ⟨.setState digest false, .ok ()⟩,
      ⟨.reset, .ok ()⟩, ⟨.openChannel, .ok ()⟩, ⟨.params, p⟩, ⟨.echo "runtt", .ok s⟩,
      ⟨.imageList, .ok slots'⟩, ⟨.describe, a⟩].Sublist t

theorem Cleared.append_left {image digest : Bytes} {t : List Event} (s : List Event)
    (h : Cleared image digest t) : Cleared image digest (s ++ t) := by
  obtain ⟨slots, slots', p, e, a, hlanded, hactive, hcontract, hsub⟩ := h
  exact ⟨slots, slots', p, e, a, hlanded, hactive, hcontract,
    hsub.trans (List.sublist_append_right s t)⟩

theorem mem_of_slotHolding {digest : Bytes} {slots : List ImageSlot} {landed : ImageSlot}
    (h : slotHolding digest slots = some landed) :
    ∃ s ∈ slots, s.hash = some digest :=
  ⟨landed, List.mem_of_find?_eq_some h, by simpa using List.find?_some h⟩

/-- An installation confirms nothing, or confirms once, cleared. -/
theorem Course.confirms_cases {image digest : Bytes} {t : List Event} {o : Except Failure Unit}
    (h : Course image digest t o) :
    (∀ x ∈ t, x.question.confirms = false) ∨
    ∃ pre r post, t = pre ++ ⟨.setState digest true, r⟩ :: post ∧ Cleared image digest pre ∧
      (∀ x ∈ pre, x.question.confirms = false) ∧ (∀ x ∈ post, x.question.confirms = false) ∧
      (o = .ok () ∨ ∃ e, r = .error e) := by
  cases h with
  | uploadFailed => exact .inl (by simp [Call.confirms])
  | notLanded hq =>
    exact .inl (by simpa [Call.confirms, or_imp, forall_and] using hq.quiet.confirms_eq_false)
  | writtenDirectly _ _ _ hq =>
    exact .inl (by simpa [Call.confirms] using hq.quiet.confirms_eq_false)
  | markRefused => exact .inl (by simp [Call.confirms])
  | resetRefused => exact .inl (by simp [Call.confirms])
  | notBack hq _ => exact .inl (by simpa [Call.confirms] using hq.quiet.confirms_eq_false)
  | notConfirmed hq hno =>
    have hboth := And.intro hq.quiet.confirms_eq_false hno.quiet.confirms_eq_false
    exact .inl (by simpa [Call.confirms, or_imp, forall_and] using hboth)
  | @confirmSent slots slots' landed active q a r tail _ hlanded _ hq hback hactive hash hcontract
      ho =>
    refine .inr ⟨⟨.flash image, .ok ()⟩ :: ⟨.imageList, .ok slots⟩ ::
      ⟨.setState digest false, .ok ()⟩ :: ⟨.reset, .ok ()⟩ :: ⟨.drop, ()⟩ ::
      (q ++ [⟨.imageList, .ok slots'⟩, ⟨.describe, a⟩]), r, tail, by simp, ?_, ?_, ?_, ?_⟩
    · obtain ⟨pre, p, s, rfl⟩ := hback
      refine ⟨slots, slots', p, s, a, mem_of_slotHolding hlanded, ⟨active, hactive, hash⟩,
        hcontract, ?_⟩
      simp
    · simpa [Call.confirms, or_imp, forall_and] using hq.quiet.confirms_eq_false
    · rcases ho with ⟨-, -, rfl⟩ | ⟨f, e, -, -, rfl⟩ <;> simp [Call.confirms]
    · rcases ho with ⟨ho, -, -⟩ | ⟨f, e, -, hr, -⟩
      · exact .inl ho
      · exact .inr ⟨e, hr⟩

/-- A run confirms nothing, or confirms once, cleared. -/
theorem run_confirms_cases {d : Deploy} {t : List Event} {o : Except Failure Unit}
    (h : Yields d.run t o) :
    (∀ x ∈ t, x.question.confirms = false) ∨
    ∃ image digest pre r post, d.firmware = .ok image ∧ Mcuboot.Accepts image digest ∧
      t = pre ++ ⟨.setState digest true, r⟩ :: post ∧ Cleared image digest pre ∧
      (∀ x ∈ pre, x.question.confirms = false) ∧ (∀ x ∈ post, x.question.confirms = false) ∧
      (o = .ok () ∨ ∃ e, r = .error e) := by
  rcases run_cases h with
    ⟨f, -, hq⟩ | ⟨image, digest, p, s, a, slots, rest, hf, hacc, rfl, -, ⟨-, rfl, -⟩ |
    ⟨-, -, hcourse⟩⟩
  · exact .inl hq.quiet.confirms_eq_false
  · rw [List.append_nil]
    exact .inl quiet_vetting.confirms_eq_false
  · have hvet : ∀ x ∈ vetting p s a slots, x.question.confirms = false :=
      quiet_vetting.confirms_eq_false
    rcases hcourse.confirms_cases with hno | ⟨pre, r, post, rfl, hclear, hpre, hpost, ho⟩
    · exact .inl (List.forall_mem_append.mpr ⟨hvet, hno⟩)
    · exact .inr ⟨image, digest, vetting p s a slots ++ pre, r, post, hf, hacc,
        (List.append_assoc ..).symm, hclear.append_left _, List.forall_mem_append.mpr ⟨hvet, hpre⟩,
        hpost, ho⟩

/-- **The confirm gate.**  Whatever the device answers and however often it
disappears: a confirm is sent for the digest of the file and after the evidence
`Cleared`, at most one is sent, and a run that fails never had one acknowledged. -/
theorem confirm_gate {d : Deploy} {t : List Event} {o : Except Failure Unit}
    (h : Yields d.run t o) :
    (∀ pre hash r post, t = pre ++ ⟨.setState hash true, r⟩ :: post →
      ∃ image, d.firmware = .ok image ∧ Mcuboot.Accepts image hash ∧ Cleared image hash pre) ∧
    (t.filter (·.question.confirms)).length ≤ 1 ∧
    (∀ f, o = .error f → ∀ hash, ⟨.setState hash true, .ok ()⟩ ∉ t) := by
  rcases run_confirms_cases h with
    hno | ⟨image, digest, pre, r, post, hf, hacc, rfl, hclear, hpre, hpost, ho⟩
  · have hnone : ∀ hash r, ⟨.setState hash true, r⟩ ∉ t := by
      intro hash r hmem
      cases hno _ hmem
    refine ⟨?_, ?_, fun f _ hash => hnone hash _⟩
    · rintro pre hash r post rfl
      exact absurd (by simp) (hnone hash r)
    · rw [filter_confirms_eq_nil hno]
      exact Nat.zero_le 1
  · have hunique : ∀ pre' hash r' post',
        pre ++ ⟨.setState digest true, r⟩ :: post = pre' ++ ⟨.setState hash true, r'⟩ :: post' →
        pre = pre' ∧ (⟨.setState digest true, r⟩ : Event) = ⟨.setState hash true, r'⟩ := by
      intro pre' hash r' post' heq
      have hx : ∀ l : List Event, (∀ x ∈ l, x.question.confirms = false) →
          ⟨.setState hash true, r'⟩ ∉ l := by
        intro l hl hmem
        cases hl _ hmem
      exact eq_of_append_cons heq (hx pre hpre) (hx post hpost)
    refine ⟨?_, ?_, ?_⟩
    · intro pre' hash r' post' heq
      obtain ⟨rfl, hx⟩ := hunique pre' hash r' post' heq
      cases hx
      exact ⟨image, hf, hacc, hclear⟩
    · rw [List.filter_append, List.filter_cons_of_pos rfl, filter_confirms_eq_nil hpre,
        filter_confirms_eq_nil hpost]
      exact Nat.le_refl 1
    · rintro f rfl hash hmem
      obtain ⟨pre', post', heq⟩ := List.append_of_mem hmem
      obtain ⟨-, hx⟩ := hunique pre' hash _ post' heq
      rcases ho with ho | ⟨e, rfl⟩
      · cases ho
      · cases hx

/-- A board that gives one answer to each question, whatever came before. -/
def steadyBoard (slots : List ImageSlot) : (q : Call) → Unit → q.Reply × Unit
  | .openChannel, _ => (.ok (), ())
  | .params, _ => (.ok (), ())
  | .drop, _ => ((), ())
  | .deadlinePassed, _ => (false, ())
  | .echo payload, _ => (.ok payload, ())
  | .describe, _ => (.error ["no such command"], ())
  | .imageList, _ => (.ok slots, ())
  | .flash _, _ => (.ok (), ())
  | .setState _ _, _ => (.ok (), ())
  | .reset, _ => (.ok (), ())

/-- The running slot of a board. -/
def runningSlot (hash : Bytes) (confirmed : Bool) : ImageSlot :=
  { image := none, slot := 0, version := "1.0.0", hash := some hash, bootable := true,
    pending := false, confirmed, active := true, permanent := confirmed }

/-- A release with a digest of 32 ones. -/
def someRelease (skipIfSame : Bool) : Deploy :=
  { firmwarePath := "app.signed.bin", firmware := .ok (Mcuboot.signedImage (List.replicate 32 1)),
    skipIfSame }

/-- A board that boots what it is given but never reports it confirmed: the run goes
all the way, and its one confirm is cleared. -/
theorem confirm_gate_steady :
    let t := trace (steadyBoard [runningSlot (List.replicate 32 1) false]) (someRelease true).run ()
    t.any (·.question.confirms) = true ∧
    (∀ pre hash r post, t = pre ++ ⟨.setState hash true, r⟩ :: post →
      ∃ image, (someRelease true).firmware = .ok image ∧ Mcuboot.Accepts image hash ∧
        Cleared image hash pre) :=
  ⟨by decide +kernel, (confirm_gate (exec_runs _ ()).1).1⟩

/-! ## What an `Ok` has verified -/

/-- Nothing was reset after the last image list of `t`, and there the first active
slot ran `digest`, confirmed there or afterwards. -/
def Verified (digest : Bytes) (t : List Event) : Prop :=
  ∃ pre slots post active, t = pre ++ ⟨.imageList, .ok slots⟩ :: post ∧
    (∀ x ∈ post, x.question ≠ .imageList ∧ x.question ≠ .reset) ∧
    activeSlot slots = some active ∧ active.hash = some digest ∧
    (active.confirmed = true ∨ ⟨.setState digest true, .ok ()⟩ ∈ post)

/-- The image list read right after a completed upload. -/
def listAfterUpload : List Event → Option (List ImageSlot)
  | ⟨.flash _, .ok ()⟩ :: ⟨.imageList, .ok slots⟩ :: _ => some slots
  | _ :: t => listAfterUpload t
  | [] => none

/-- After the upload the device shows the image in its running slot, confirmed: a
bootloader wrote it there directly. -/
def WroteDirectly (digest : Bytes) (t : List Event) : Prop :=
  ∃ slots landed, listAfterUpload t = some slots ∧ slotHolding digest slots = some landed ∧
    landed.active = true ∧ landed.confirmed = true

/-- A reset with a mere reconnect after it leaves nothing verified. -/
theorem not_verified_of_reset {digest : Bytes} {t q : List Event} {r : Except Error Unit}
    (hq : Polling q) : ¬ Verified digest (t ++ ⟨.reset, r⟩ :: q) := by
  rintro ⟨pre, slots, post, active, heq, hpost, -⟩
  rcases List.append_eq_append_iff.mp heq with ⟨as, rfl, hl⟩ | ⟨bs, rfl, hr⟩
  · cases as with
    | nil => cases (List.cons.inj hl).1
    | cons x as =>
      -- the list was read during the reconnect
      obtain ⟨-, rfl⟩ := List.cons.inj hl
      cases hq ⟨.imageList, .ok slots⟩ (by simp)
  · cases bs with
    | nil => cases (List.cons.inj hr).1
    | cons x bs =>
      -- the reset came after the list
      obtain ⟨-, rfl⟩ := List.cons.inj hr
      exact (hpost ⟨.reset, r⟩ (by simp)).2 rfl

/-- **Success means verified, except on the direct-write path.**  A run that returns
`Ok` has verified the digest in the last image list it read, with no reset after it,
exactly when the list read right after the upload did not already show the image
running and confirmed. -/
theorem ok_verified_iff {d : Deploy} {t : List Event} (h : Yields d.run t (.ok ()))
    {image digest : Bytes} (hf : d.firmware = .ok image) (hacc : Mcuboot.Accepts image digest) :
    Verified digest t ↔ ¬ WroteDirectly digest t := by
  rcases run_cases h with
    ⟨f, ho, -⟩ | ⟨image', digest', p, s, a, slots, rest, hf', hacc', rfl, -, ⟨-, rfl, -, active,
     hactive, hash, hconf⟩ | ⟨-, -, hcourse⟩⟩
  · cases ho
  all_goals
    rw [hf] at hf'
    cases hf'
    cases hacc.unique hacc'
  · refine iff_of_true ⟨[⟨.openChannel, .ok ()⟩, ⟨.params, p⟩, ⟨.echo "runtt", .ok s⟩,
      ⟨.describe, a⟩], slots, [], active, rfl, by simp, hactive, hash, .inl hconf⟩ ?_
    rintro ⟨slots', landed, hlist, -⟩
    cases hlist
  · have hlist : listAfterUpload (vetting p s a slots ++ rest) = listAfterUpload rest := rfl
    unfold WroteDirectly
    rw [hlist]
    cases hcourse with
    | @writtenDirectly slots' landed r q _ hlanded hactive hconf hq =>
      refine iff_of_false ?_ (fun hn => hn ⟨slots', landed, rfl, hlanded, hactive, hconf⟩)
      exact not_verified_of_reset (t := vetting p s a slots ++
        [⟨.flash image, .ok ()⟩, ⟨.imageList, .ok slots'⟩]) hq
    | @confirmSent slots' slots'' landed active q b r tail _ hlanded hdirect _ _ hactive hash _ ho =>
      rcases ho with ⟨-, rfl, rfl⟩ | ⟨f, e, ho, -⟩
      · refine iff_of_true ⟨vetting p s a slots ++ ⟨.flash image, .ok ()⟩ ::
          ⟨.imageList, .ok slots'⟩ :: ⟨.setState digest false, .ok ()⟩ :: ⟨.reset, .ok ()⟩ ::
          ⟨.drop, ()⟩ :: q, slots'', [⟨.describe, b⟩, ⟨.setState digest true, .ok ()⟩], active,
          by simp, by simp, hactive, hash, .inr (by simp)⟩ ?_
        rintro ⟨slots₁, landed₁, hsome, hholding, hdir⟩
        cases hsome
        rw [hlanded] at hholding
        cases hholding
        exact hdirect hdir
      · cases ho

/-- The board of `confirm_gate_steady` is the good case. -/
theorem ok_verified_iff_steady :
    let digest := List.replicate 32 1
    let t := trace (steadyBoard [runningSlot digest false]) (someRelease true).run ()
    Verified digest t ↔ ¬ WroteDirectly digest t :=
  ok_verified_iff (exec_yields (by decide +kernel)) rfl
    (Mcuboot.accepts_signedImage List.length_replicate)

/-- A recovery bootloader that reports the upload running and confirmed.  The deploy
resets it, opens a client again and returns `Ok`, without another look at what runs. -/
theorem ok_not_verified :
    ¬ ∀ (d : Deploy) (t : List Event), Yields d.run t (.ok ()) →
      ∀ image digest, d.firmware = .ok image → Mcuboot.Accepts image digest →
        Verified digest t := by
  intro hall
  let board := steadyBoard [runningSlot (List.replicate 32 1) true]
  let t := trace board (someRelease false).run ()
  have hver : Verified (List.replicate 32 1) t :=
    hall (someRelease false) t (exec_yields (by decide +kernel)) _ _ rfl
      (Mcuboot.accepts_signedImage List.length_replicate)
  have hreset : t = t.take 7 ++ ⟨.reset, .ok ()⟩ :: t.drop 8 := rfl
  rw [hreset] at hver
  have hpolls : (t.drop 8).all (·.question.polls) = true := by decide +kernel
  exact not_verified_of_reset (List.all_eq_true.mp hpolls) hver

end Deploy
end Runtt
