import Runtt.ConfirmGate

/-! # Before the first write

Nothing is written to a device before it has answered an echo, had its chance to
describe itself and listed its images (`first_write_vetted`).  What it describes then
may stop the deploy: a device without image management does, and so does one whose
contract string does not begin with a number (`contract_passes_iff`), although another
contract is meant to be a matter for the confirm gate alone.
-/
namespace Runtt

open Interaction Program

/-- Lists split in one way around the first element with a property. -/
theorem eq_of_first {α : Type} {P : α → Prop} {pre post pre' post' : List α} {x y : α}
    (h : pre ++ x :: post = pre' ++ y :: post') (hpre : ∀ z ∈ pre, ¬ P z) (hx : P x)
    (hpre' : ∀ z ∈ pre', ¬ P z) (hy : P y) : pre = pre' ∧ x = y ∧ post = post' := by
  induction pre generalizing pre' with
  | nil =>
    cases pre' with
    | nil =>
      obtain ⟨hxy, hpost⟩ := List.cons.inj h
      exact ⟨rfl, hxy, hpost⟩
    | cons z pre' =>
      obtain ⟨rfl, -⟩ := List.cons.inj h
      exact absurd hx (hpre' x List.mem_cons_self)
  | cons z pre ih =>
    cases pre' with
    | nil =>
      obtain ⟨rfl, -⟩ := List.cons.inj h
      exact absurd hy (hpre z List.mem_cons_self)
    | cons z' pre' =>
      obtain ⟨rfl, htail⟩ := List.cons.inj h
      obtain ⟨rfl, hxy, hpost⟩ := ih htail (fun z hz => hpre z (List.mem_cons_of_mem _ hz))
        (fun z hz => hpre' z (List.mem_cons_of_mem _ hz))
      exact ⟨rfl, hxy, hpost⟩

/-- The first time `q` is asked, the reply is `r`. -/
def FirstReply (q : Call) (r : q.Reply) (t : List Event) : Prop :=
  ∃ pre post, t = pre ++ ⟨q, r⟩ :: post ∧ ∀ x ∈ pre, x.question ≠ q

/-- There is one first reply. -/
theorem FirstReply.unique {q : Call} {r r' : q.Reply} {t post : List Event}
    (h : FirstReply q r t) (pre : List Event) (ht : t = pre ++ ⟨q, r'⟩ :: post)
    (hpre : ∀ x ∈ pre, x.question ≠ q) : r = r' := by
  obtain ⟨pre₁, post₁, rfl, hpre₁⟩ := h
  obtain ⟨-, hx, -⟩ := eq_of_first (P := fun x : Event => x.question = q) ht hpre₁ rfl hpre rfl
  cases hx
  rfl

namespace Deploy

/-- An installation begins with the upload of its image. -/
theorem Course.head {image digest : Bytes} {t : List Event} {o : Except Failure Unit}
    (h : Course image digest t o) : ∃ r rest, t = ⟨.flash image, r⟩ :: rest := by
  cases h <;> exact ⟨_, _, rfl⟩

theorem firstReply_describe {p : Except Error Unit} {s : String} {a b : Except Error Describe}
    {slots : List ImageSlot} {rest : List Event}
    (h : FirstReply .describe b (vetting p s a slots ++ rest)) : b = a :=
  h.unique [⟨.openChannel, .ok ()⟩, ⟨.params, p⟩, ⟨.echo "runtt", .ok s⟩] rfl (by simp)

theorem firstReply_imageList {p : Except Error Unit} {s : String} {a : Except Error Describe}
    {slots : List ImageSlot} {r : Except Error (List ImageSlot)} {rest : List Event}
    (h : FirstReply .imageList r (vetting p s a slots ++ rest)) : r = .ok slots :=
  h.unique [⟨.openChannel, .ok ()⟩, ⟨.params, p⟩, ⟨.echo "runtt", .ok s⟩,
    ⟨.describe, a⟩] rfl (by simp)

/-- The runs of a deploy that write, and the others. -/
theorem run_quiet_or_course {d : Deploy} {t : List Event} {o : Except Failure Unit}
    (h : Yields d.run t o) :
    Quiet t ∨ ∃ image digest p s a slots rest, d.firmware = .ok image ∧
      Mcuboot.Accepts image digest ∧ t = vetting p s a slots ++ rest ∧ Identified a ∧
      ¬ (d.skipIfSame = true ∧ AlreadyRuns digest slots) ∧ ¬ Rejected digest slots ∧
      Course image digest rest o := by
  rcases run_cases h with
    ⟨f, -, href⟩ | ⟨image, digest, p, s, a, slots, rest, hf, hacc, rfl, hid, ⟨-, rfl, -⟩ |
    ⟨hskip, hrej, hcourse⟩⟩
  · exact .inl href.quiet
  · rw [List.append_nil]
    exact .inl quiet_vetting
  · exact .inr ⟨image, digest, p, s, a, slots, rest, hf, hacc, rfl, hid, hskip, hrej, hcourse⟩

/-- **Nothing is written to an unvetted device.**  The first write of a run is the upload
of its file, right after an answered echo, a describe and an image list; and each of
the vetoes (a file that does not parse, `img=false` in that describe, a slot of that list
that holds the digest and is not bootable, the digest running and confirmed where that
is to be skipped) leaves the run without a write. -/
theorem first_write_vetted {d : Deploy} {t : List Event} {o : Except Failure Unit}
    (h : Yields d.run t o) :
    (∀ pre x post, t = pre ++ x :: post → Quiet pre → x.question.writes = true →
      ∃ image p s a slots, d.firmware = .ok image ∧ x.question = .flash image ∧
        pre = [⟨.openChannel, .ok ()⟩, ⟨.params, p⟩, ⟨.echo "runtt", .ok s⟩, ⟨.describe, a⟩,
          ⟨.imageList, .ok slots⟩]) ∧
    ((∀ image digest, d.firmware = .ok image → ¬ Mcuboot.Accepts image digest) → Quiet t) ∧
    (∀ desc, FirstReply .describe (.ok desc) t → desc.img = some false → Quiet t) ∧
    ∀ image digest slots, d.firmware = .ok image → Mcuboot.Accepts image digest →
      FirstReply .imageList (.ok slots) t →
      Rejected digest slots ∨ (d.skipIfSame = true ∧ AlreadyRuns digest slots) → Quiet t := by
  rcases run_quiet_or_course h with
    hquiet | ⟨image, digest, p, s, a, slots, rest, hf, hacc, rfl, hid, hskip, hrej, hcourse⟩
  · refine ⟨fun pre x post heq _ hw => ?_, fun _ => hquiet, fun _ _ _ => hquiet,
      fun _ _ _ _ _ _ _ => hquiet⟩
    have hx := hquiet x (by rw [heq]; simp)
    rw [hw] at hx
    cases hx
  · refine ⟨fun pre x post heq hpre hw => ?_, fun hno => absurd hacc (hno image digest hf),
      fun desc hfirst himg => ?_, fun image' digest' slots' hf' hacc' hfirst hveto => ?_⟩
    · obtain ⟨r, rest', rfl⟩ := hcourse.head
      have hquiet {l : List Event} (hl : Quiet l) : ∀ z ∈ l, ¬ z.question.writes = true := by
        intro z hz hwz
        rw [hl z hz] at hwz
        cases hwz
      obtain ⟨rfl, rfl, -⟩ := eq_of_first (P := fun z : Event => z.question.writes = true) heq
        (hquiet quiet_vetting) rfl (hquiet hpre) hw
      exact ⟨image, p, s, a, slots, hf, rfl, rfl⟩
    · exact absurd himg (hid desc (firstReply_describe hfirst).symm).2
    · rw [hf] at hf'
      cases hf'
      cases hacc.unique hacc'
      cases firstReply_imageList hfirst
      rcases hveto with hrej' | hskip'
      · exact absurd hrej' hrej
      · exact absurd hskip' hskip

/-- A board that takes the release: its first write is vetted. -/
theorem first_write_vetted_steady :
    let t := trace (steadyBoard [runningSlot (List.replicate 32 1) false]) (someRelease true).run ()
    t.any (·.question.writes) = true ∧
    ∀ pre x post, t = pre ++ x :: post → Quiet pre → x.question.writes = true →
      ∃ image p s a slots, (someRelease true).firmware = .ok image ∧ x.question = .flash image ∧
        pre = [⟨.openChannel, .ok ()⟩, ⟨.params, p⟩, ⟨.echo "runtt", .ok s⟩, ⟨.describe, a⟩,
          ⟨.imageList, .ok slots⟩] :=
  ⟨by decide +kernel, (first_write_vetted (exec_runs _ ()).1).1⟩

/-! ## The contract the device reports -/

/-- From an answer to the describe before the upload the run goes on to the image list, and
from a list that vetoes nothing to the upload. -/
def GoesOn (d : Deploy) (image digest : Bytes) (desc : Describe) : Prop :=
  ∀ p s t o, Yields d.run (⟨.openChannel, .ok ()⟩ :: ⟨.params, p⟩ :: ⟨.echo "runtt", .ok s⟩ ::
      ⟨.describe, .ok desc⟩ :: t) o →
    ∃ r t', t = ⟨.imageList, r⟩ :: t' ∧ ∀ slots, r = .ok slots →
      ¬ (d.skipIfSame = true ∧ AlreadyRuns digest slots) → ¬ Rejected digest slots →
      ∃ r' t'', t' = ⟨.flash image, r'⟩ :: t''

/-- A board that describes itself so, and lists no images. -/
def describingBoard (desc : Describe) (q : Call) (u : Unit) : q.Reply × Unit :=
  match q with
  | .describe => (.ok desc, ())
  | q => steadyBoard [] q u

theorem identify_ok_iff {desc : Describe} :
    Yields identify [⟨.describe, .ok desc⟩] (.ok ()) ↔ Identified (.ok desc) := by
  constructor
  · intro h
    obtain ⟨a, ht, ⟨-, hid⟩ | ⟨f, ho, -⟩⟩ := identify_cases h
    · cases ht
      exact hid
    · cases ho
  · intro hid
    obtain ⟨hruns, halong⟩ := exec_runs (h := describingBoard desc) identify.run ()
    obtain ⟨a, ht, hcases⟩ := identify_cases hruns
    rw [ht] at hruns halong
    have ha : a = .ok desc := (along_cons_iff.mp halong).1
    subst ha
    rcases hcases with ⟨ho, -⟩ | ⟨f, -, hno⟩
    · rw [ho] at hruns
      exact hruns
    · exact absurd hid hno

/-- With a describe that identifies it, every run goes on. -/
theorem goesOn_of_identified {d : Deploy} {image digest : Bytes} {desc : Describe}
    (hf : d.firmware = .ok image) (hacc : Mcuboot.Accepts image digest)
    (hid : Identified (.ok desc)) : d.GoesOn image digest desc := by
  intro p s t o h
  rcases run_cases h with
    ⟨f, -, href⟩ | ⟨image', digest', p', s', a', slots', rest, hf', hacc', heq, -, hrest⟩
  · generalize hwhole : (⟨.openChannel, .ok ()⟩ :: ⟨.params, p⟩ :: ⟨.echo "runtt", .ok s⟩ ::
      ⟨.describe, .ok desc⟩ :: t : List Event) = whole at href
    cases href with
    | unreadable _ => cases hwhole
    | noConnection => cases hwhole
    | noEcho => cases hwhole
    | unidentified hno =>
      cases hwhole
      exact absurd hid hno
    | noList =>
      cases hwhole
      exact ⟨_, _, rfl, fun slots hslots => nomatch hslots⟩
    | rejected hf' hacc' hrej =>
      cases hwhole
      rw [hf] at hf'
      cases hf'
      cases hacc.unique hacc'
      refine ⟨_, _, rfl, fun slots hslots _ hno => absurd hrej ?_⟩
      cases hslots
      exact hno
  · cases heq
    rw [hf] at hf'
    cases hf'
    cases hacc.unique hacc'
    refine ⟨_, _, rfl, fun slots hslots hskip _ => ?_⟩
    cases hslots
    rcases hrest with ⟨-, -, hskip'⟩ | ⟨-, -, hcourse⟩
    · exact absurd hskip' hskip
    · exact hcourse.head

/-- A run that goes on has identified the device. -/
theorem identified_of_goesOn {d : Deploy} {image digest : Bytes} {desc : Describe}
    (hf : d.firmware = .ok image) (hacc : Mcuboot.Accepts image digest)
    (h : d.GoesOn image digest desc) : Identified (.ok desc) := by
  obtain ⟨hruns, halong⟩ := exec_runs (h := describingBoard desc) d.run.run ()
  generalize hwhole : trace (describingBoard desc) d.run.run () = whole at hruns halong
  rcases run_cases hruns with
    ⟨f, -, href⟩ | ⟨image', digest', p, s, a, slots, rest, hf', hacc', rfl, hid, -⟩
  · cases href with
    | unreadable hno => exact absurd hacc (hno image digest hf)
    | noConnection => cases (along_cons_iff.mp halong).1
    | noEcho =>
      simp only [along_cons_iff] at halong
      cases halong.2.2.1
    | unidentified hno =>
      simp only [along_cons_iff] at halong
      cases halong.2.2.2.1
      obtain ⟨r, t', ht, -⟩ := h _ _ _ _ hruns
      cases ht
    | noList =>
      simp only [along_cons_iff] at halong
      cases halong.2.2.2.2.1
    | rejected _ _ hrej =>
      simp only [vetting, List.cons_append, along_cons_iff] at halong
      cases halong.2.2.2.2.1
      obtain ⟨x, hx, -⟩ := hrej
      cases hx
  · simp only [vetting, List.cons_append, along_cons_iff] at halong
    cases halong.2.2.2.1
    exact hid

/-- **A reported contract lets the deploy go on iff its first dotted component is a
`u32`.**  Then `identify` returns `Ok` and nothing but the other checks keeps the run
from the upload; otherwise the run ends there, although the contract is meant to be
judged at the confirm gate only. -/
theorem contract_passes_iff {desc : Describe} (himg : desc.img ≠ some false) :
    (Yields identify [⟨.describe, .ok desc⟩] (.ok ()) ↔ contractMajor desc.contract ≠ none) ∧
    ∀ (d : Deploy) (image digest : Bytes), d.firmware = .ok image →
      Mcuboot.Accepts image digest →
      (d.GoesOn image digest desc ↔ contractMajor desc.contract ≠ none) := by
  have hid : Identified (.ok desc) ↔ contractMajor desc.contract ≠ none := by
    refine ⟨fun h => (h desc rfl).1, fun h _ hd => ?_⟩
    cases hd
    exact ⟨h, himg⟩
  refine ⟨identify_ok_iff.trans hid, fun d image digest hf hacc => ⟨fun h => ?_, fun h => ?_⟩⟩
  · exact hid.mp (identified_of_goesOn hf hacc h)
  · exact goesOn_of_identified hf hacc (hid.mpr h)

/-- A device that reports this contract. -/
def reporting (contract : String) : Describe :=
  { contract, board := "qemu", appVersion := "1.0.0", channels := 1, img := none, idle := none,
    appHealthy := none, provisioned := none, serial := none, canNodeId := none }

/-- Another major does not keep the deploy from the upload. -/
theorem contract_passes_iff_other_major :
    Yields identify [⟨.describe, .ok (reporting "9.0.0")⟩] (.ok ()) :=
  (contract_passes_iff (by decide)).1.mpr (by decide +kernel)

/-- A contract that is no version ends it. -/
theorem contract_blocks :
    ¬ ∀ desc : Describe, desc.img ≠ some false →
      Yields identify [⟨.describe, .ok desc⟩] (.ok ()) := by
  intro hall
  have hid := identify_ok_iff.mp (hall (reporting "dev") (by decide))
  exact (hid _ rfl).1 (by decide +kernel)

end Deploy
end Runtt
