import Runtt.Interaction
import Runtt.Paths

/-! # Files and directories

A tree of files without links, in which a path leads where its components say, and what a call
to the file system can do to it.  A call can fail at any time; one that removes or writes can
have done part of it by then.  `Footprint` says which locations a call can change at all.
-/
namespace Runtt

/-- From the root of the tree, name by name. -/
abbrev Location := List (List Char)

namespace Path

/-- Where a component leads from a location. -/
def follow : Location → Component → Location
  | _, .rootDir => []
  | l, .curDir => l
  | l, .parentDir => l.dropLast
  | l, .normal name => l ++ [name]

/-- Where a path leads from the current directory. -/
def locate (cwd : Location) (path : List Component) : Location := path.foldl follow cwd

theorem locate_append (cwd : Location) (path rest : List Component) :
    locate cwd (path ++ rest) = locate (locate cwd path) rest := List.foldl_append

theorem locate_concat_normal (cwd : Location) (path : List Component) (name : List Char) :
    locate cwd (path ++ [.normal name]) = locate cwd path ++ [name] := locate_append _ _ _

end Path

namespace FileTree

inductive Node where
  | dir
  | file (bytes : Bytes)
  deriving DecidableEq, Repr

end FileTree

/-- What is at each location. -/
abbrev FileTree := Location → Option FileTree.Node

namespace FileTree

open Runtt.Path

/-- A call to the file system. -/
inductive FileCall where
  | mkdir (path : List Component)
  | isDir (path : List Component)
  | pathExists (path : List Component)
  /-- `std::fs::write`. -/
  | write (path : List Component) (bytes : Bytes)
  | rename (source target : List Component)
  | removeFile (path : List Component)
  /-- `std::fs::remove_dir_all`. -/
  | removeDirAll (path : List Component)
  deriving DecidableEq, Repr

/-- How `mkdir` ends. -/
inductive Made where
  | made
  /-- `ENOENT`: the directory it would be in is not there. -/
  | notFound (e : Error)
  | failed (e : Error)
  deriving DecidableEq, Repr

/-- What comes back. -/
abbrev FileCall.Reply : FileCall → Type
  | .mkdir _ => Made
  | .isDir _ | .pathExists _ => Bool
  | .write _ _ | .rename _ _ | .removeFile _ | .removeDirAll _ => Except Error Unit

variable (cwd : Location)

/-- What is under `source` is moved to `target`, in place of what was there. -/
def moved (fs : FileTree) (source target : Location) : FileTree := fun l =>
  if target <+: l then fs (source ++ l.drop target.length)
  else if source <+: l then none
  else fs l

/-- A call that was answered so can take `fs` to `fs'`. -/
def Effect (fs fs' : FileTree) : Interaction.Exchange FileCall.Reply → Prop
  | ⟨.mkdir path, .made⟩ =>
    fs (locate cwd path) = none ∧ fs (locate cwd path).dropLast = some .dir ∧
      fs' = Function.update fs (locate cwd path) (some .dir)
  | ⟨.isDir path, found⟩ => (found = true ↔ fs (locate cwd path) = some .dir) ∧ fs' = fs
  | ⟨.pathExists path, found⟩ => (found = true → fs (locate cwd path) ≠ none) ∧ fs' = fs
  | ⟨.write path bytes, .ok ()⟩ =>
    fs' = Function.update fs (locate cwd path) (some (.file bytes))
  | ⟨.write path bytes, .error _⟩ =>
    fs' = fs ∨ ∃ written, written <+: bytes ∧
      fs' = Function.update fs (locate cwd path) (some (.file written))
  | ⟨.rename source target, .ok ()⟩ => fs' = moved fs (locate cwd source) (locate cwd target)
  | ⟨.removeFile path, .ok ()⟩ => fs' = Function.update fs (locate cwd path) none
  | ⟨.removeDirAll path, _⟩ => ∀ l, fs' l = fs l ∨ locate cwd path <+: l ∧ fs' l = none
  | _ => fs' = fs

/-- The effects of a run, one call after another. -/
inductive Through : FileTree → List (Interaction.Exchange FileCall.Reply) → FileTree → Prop where
  | nil (fs : FileTree) : Through fs [] fs
  | cons {fs fs' fs'' : FileTree} {x : Interaction.Exchange FileCall.Reply}
      {t : List (Interaction.Exchange FileCall.Reply)} (hx : Effect cwd fs fs' x)
      (ht : Through fs' t fs'') : Through fs (x :: t) fs''

/-- A call can change what is at this location. -/
def Footprint : FileCall → Location → Prop
  | .mkdir path, l | .write path _, l | .removeFile path, l => l = locate cwd path
  | .isDir _, _ | .pathExists _, _ => False
  | .rename source target, l => locate cwd source <+: l ∨ locate cwd target <+: l
  | .removeDirAll path, l => locate cwd path <+: l

/-- A path that leads to a directory through directories. -/
def IsDir (fs : FileTree) (path : List Component) : Prop :=
  ∀ front, front <+: path → fs (locate cwd front) = some .dir

variable {cwd} {fs fs' : FileTree} {l : Location}

/-- **A call changes nothing outside its footprint.** -/
theorem effect_frame {x : Interaction.Exchange FileCall.Reply} (h : Effect cwd fs fs' x)
    (hl : ¬ Footprint cwd x.question l) : fs' l = fs l := by
  unfold Effect at h
  split at h
  · obtain ⟨-, -, rfl⟩ := h
    exact Function.update_of_ne hl _ _
  · rw [h.2]
  · rw [h.2]
  · rw [h]
    exact Function.update_of_ne hl _ _
  · rcases h with rfl | ⟨written, -, rfl⟩
    · rfl
    · exact Function.update_of_ne hl _ _
  · rename_i source target
    obtain ⟨hsource, htarget⟩ := not_or.mp hl
    rw [h, moved, if_neg htarget, if_neg hsource]
  · rw [h]
    exact Function.update_of_ne hl _ _
  · exact (h l).resolve_right fun hremoved => hl hremoved.1
  · rw [h]

/-- `mkdir` only makes a directory of what was not there. -/
theorem effect_mkdir {path : List Component} {r : Made}
    (h : Effect cwd fs fs' ⟨.mkdir path, r⟩) (hchanged : fs' l ≠ fs l) :
    l = locate cwd path ∧ fs l = none ∧ fs' l = some .dir := by
  have hl : l = locate cwd path := by
    by_contra hne
    exact hchanged (effect_frame h hne)
  subst hl
  cases r with
  | made =>
    obtain ⟨hnone, -, rfl⟩ := h
    exact ⟨rfl, hnone, Function.update_self _ _ _⟩
  | notFound e => exact absurd (congrFun h _) hchanged
  | failed e => exact absurd (congrFun h _) hchanged

/-- **What each call of a run leaves as it is, the run does**, given what makes the calls do
so and that they leave it too. -/
theorem Through.frame {t : List (Interaction.Exchange FileCall.Reply)} (ht : Through cwd fs t fs')
    {I : FileTree → Prop} {Kept : Location → Prop} (hI : I fs)
    (hstep : ∀ x ∈ t, ∀ fs fs', I fs → Effect cwd fs fs' x →
      I fs' ∧ ∀ l, Kept l → fs' l = fs l) :
    I fs' ∧ ∀ l, Kept l → fs' l = fs l := by
  induction ht with
  | nil fs => exact ⟨hI, fun _ _ => rfl⟩
  | cons hx _ ih =>
    obtain ⟨hI', hkept⟩ := hstep _ List.mem_cons_self _ _ hI hx
    obtain ⟨hI'', hrest⟩ := ih hI' fun y hy => hstep y (List.mem_cons_of_mem _ hy)
    exact ⟨hI'', fun l hl => (hrest l hl).trans (hkept l hl)⟩

end FileTree
end Runtt
