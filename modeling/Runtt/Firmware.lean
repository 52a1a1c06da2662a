import Runtt.Paths
import Runtt.Verbs

/-! # Where the firmware image comes from

`locate_firmware` joins the entrypoint argument, text of an image that is not trusted, to the
rootfs of the container.
-/
namespace Runtt

open Interaction Program SysM

/-- The rootfs of the container: `root.path`, of the bundle where it is relative. -/
def containerRootfs (spec : Spec) (bundle : String) : Option String :=
  spec.root.map fun root => if Text.startsWith root "/" then root else Text.join bundle root

/-- The entrypoint names something below a rootfs: its only argument is relative and its own
components never climb above where they start, or it is absolute and inside by itself. -/
def EntrypointInside (spec : Spec) (rootfs : String) : Prop :=
  ∀ arg, spec.args = some [arg] →
    Path.Stays (Path.components arg) ∨
      Text.startsWith arg "/" = true ∧ Path.Inside rootfs arg

/-- **What `locate_firmware` returns**: the argument joined to the rootfs, once something was
seen there. -/
theorem locateFirmware_ok_iff (spec : Spec) (bundle path : String)
    (t : List (Exchange Sys.Reply)) :
    Yields (locateFirmware spec bundle) t (.ok path) ↔
      ∃ arg rootfs, spec.args = some [arg] ∧ containerRootfs spec bundle = some rootfs ∧
        path = Text.join rootfs arg ∧ t = [⟨.pathExists path, true⟩] := by
  unfold locateFirmware containerRootfs
  match hargs : spec.args.getD [] with
  | [] | _ :: _ :: _ =>
    constructor
    · intro h
      cases (yields_throw.mp h).2
    · rintro ⟨arg, rootfs, harg, -⟩
      rw [harg] at hargs
      cases hargs
  | [arg] =>
    have harg : spec.args = some [arg] := by
      cases hspec : spec.args with
      | none => simp [hspec] at hargs
      | some args => simpa [hspec] using hargs
    cases hroot : spec.root with
    | none =>
      constructor
      · intro h
        cases (yields_throw.mp h).2
      · rintro ⟨arg', rootfs, -, hrootfs, -⟩
        cases hrootfs
    | some root =>
      simp only [harg, Option.map_some, Option.some.injEq, List.cons.injEq, and_true,
        exists_eq_left', exists_and_left]
      generalize (if Text.startsWith root "/" then root else Text.join bundle root) = rootfs
      refine yields_ask_bind.trans ?_
      constructor
      · rintro ⟨found, t', rfl, h⟩
        cases found with
        | false => cases (yields_throw.mp h).2
        | true =>
          obtain ⟨rfl, hpath⟩ := yields_pure.mp h
          cases hpath
          exact ⟨rfl, rfl⟩
      · rintro ⟨rfl, rfl⟩
        exact ⟨true, [], rfl, yields_pure.mpr ⟨rfl, rfl⟩⟩

/-- **The firmware comes from the container exactly when its entrypoint names something
there**: joining neither refuses an absolute argument nor one that climbs. -/
theorem locateFirmware_inside_iff (spec : Spec) (bundle : String) :
    (∀ (t : List (Exchange Sys.Reply)) (path : String),
        Yields (locateFirmware spec bundle) t (.ok path) →
          ∃ rootfs, containerRootfs spec bundle = some rootfs ∧ Path.Inside rootfs path) ↔
      ∀ rootfs, containerRootfs spec bundle = some rootfs → EntrypointInside spec rootfs := by
  constructor
  · intro h rootfs hrootfs arg harg
    have hrun := (locateFirmware_ok_iff spec bundle (Text.join rootfs arg)
      [⟨.pathExists (Text.join rootfs arg), true⟩]).mpr ⟨arg, rootfs, harg, hrootfs, rfl, rfl⟩
    obtain ⟨rootfs', hrootfs', hinside⟩ := h _ _ hrun
    cases hrootfs.symm.trans hrootfs'
    exact (Path.inside_join_iff rootfs arg).mp hinside
  · intro h t path hrun
    obtain ⟨arg, rootfs, harg, hrootfs, rfl, -⟩ :=
      (locateFirmware_ok_iff spec bundle path t).mp hrun
    exact ⟨rootfs, hrootfs, (Path.inside_join_iff rootfs arg).mpr (h rootfs hrootfs arg harg)⟩

/-- A spec whose entrypoint climbs out of the rootfs `/b/rootfs`. -/
def climbingSpec : Spec := ⟨none, some ["../../etc/shadow"], some "rootfs"⟩

/-- The firmware can come from outside the container. -/
theorem locateFirmware_outside :
    ¬ ∀ (spec : Spec) (bundle : String) (t : List (Exchange Sys.Reply)) (path : String),
        Yields (locateFirmware spec bundle) t (.ok path) →
          ∃ rootfs, containerRootfs spec bundle = some rootfs ∧ Path.Inside rootfs path := by
  intro h
  obtain ⟨rootfs, hrootfs, hinside⟩ := h climbingSpec "/b"
    [⟨.pathExists "/b/rootfs/../../etc/shadow", true⟩] "/b/rootfs/../../etc/shadow"
    ((locateFirmware_ok_iff _ _ _ _).mpr
      ⟨"../../etc/shadow", "/b/rootfs", rfl, by decide +kernel, by decide +kernel, rfl⟩)
  have hroot : containerRootfs climbingSpec "/b" = some "/b/rootfs" := by decide +kernel
  cases hrootfs.symm.trans hroot
  have hjoin : "/b/rootfs/../../etc/shadow" = Text.join "/b/rootfs" "../../etc/shadow" := by
    decide +kernel
  rw [hjoin] at hinside
  rcases (Path.inside_join_iff _ _).mp hinside with hstays | ⟨habsolute, -⟩
  · revert hstays
    decide +kernel
  · revert habsolute
    decide +kernel

end Runtt
