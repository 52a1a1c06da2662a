import Mathlib.Data.List.Basic
import Mathlib.Logic.Function.Basic

/-! # Names, inodes and descriptors

One directory of a file system: names that lead to inodes, and inodes that hold bytes.  A
descriptor is the number of an inode, so it stays what it is when the name it was opened
under is renamed, removed or given to another file.

No inode has two names: nothing here makes a hard link.
-/
namespace Inodes

universe u
variable {Name : Type u}

/-- A directory.  An inode is its place in `inodes`, and is never used again. -/
structure Directory (Name : Type u) where
  entry : Name → Option Nat
  inodes : List (List UInt8)
  /-- A name leads to an inode that exists. -/
  exists_inode : ∀ {name i}, entry name = some i → i < inodes.length
  /-- An inode has one name at most. -/
  one_name : ∀ {name name' i}, entry name = some i → entry name' = some i → name = name'

/-- No files. -/
def Directory.empty : Directory Name :=
  ⟨fun _ => none, [], fun h => (nomatch h), fun h => (nomatch h)⟩

/-- `new` written over `old` at an offset, with zeros up to the offset where `old` is shorter. -/
def overwrite (old : List UInt8) (offset : Nat) (new : List UInt8) : List UInt8 :=
  old.take offset ++ List.replicate (offset - old.length) 0 ++ new ++ old.drop (offset + new.length)

/-- Writing on at the end of a file. -/
theorem overwrite_end (old new : List UInt8) : overwrite old old.length new = old ++ new := by
  have hdrop : old.drop (old.length + new.length) = [] :=
    List.drop_eq_nil_iff.mpr (Nat.le_add_right _ _)
  rw [overwrite, List.take_length, Nat.sub_self, List.replicate_zero, List.append_nil, hdrop,
    List.append_nil]

namespace Directory

/-! ## Bytes -/

section Data

/-- The bytes of an inode. -/
def data (d : Directory Name) (i : Nat) : List UInt8 := (d.inodes[i]?).getD []

/-- Other bytes in an inode. -/
def put (d : Directory Name) (i : Nat) (bytes : List UInt8) : Directory Name where
  entry := d.entry
  inodes := d.inodes.set i bytes
  exists_inode h := by
    rw [List.length_set]
    exact d.exists_inode h
  one_name := d.one_name

/-- An inode without a name. -/
def grow (d : Directory Name) : Directory Name where
  entry := d.entry
  inodes := d.inodes ++ [[]]
  exists_inode h := by
    rw [List.length_append]
    exact Nat.lt_add_right _ (d.exists_inode h)
  one_name := d.one_name

/-- `write` on a descriptor, at an offset. -/
def writeAt (d : Directory Name) (i offset : Nat) (bytes : List UInt8) : Directory Name :=
  d.put i (overwrite (d.data i) offset bytes)

/-- The descriptor that `create` returns. -/
def created (d : Directory Name) (name : Name) : Nat := (d.entry name).getD d.inodes.length

variable {d : Directory Name} {name : Name} {i j : Nat} {bytes : List UInt8}

theorem data_put_self (hi : i < d.inodes.length) : (d.put i bytes).data i = bytes := by
  rw [data, put, List.getElem?_set_self hi]
  rfl

theorem data_put_of_ne (hij : j ≠ i) : (d.put i bytes).data j = d.data j := by
  rw [data, put, List.getElem?_set_ne (Ne.symm hij), data]

theorem data_grow : d.grow.data j = d.data j := by
  show (((d.inodes ++ [[]])[j]?).getD []) = (d.inodes[j]?).getD []
  by_cases hj : j < d.inodes.length
  · rw [List.getElem?_append_left hj]
  · rw [List.getElem?_append_right (Nat.le_of_not_lt hj),
      List.getElem?_eq_none (Nat.le_of_not_lt hj)]
    cases j - d.inodes.length with
    | zero => rfl
    | succ n => rfl

/-- Past the last inode there is nothing. -/
theorem data_of_le (h : d.inodes.length ≤ j) : d.data j = [] := by
  rw [data, List.getElem?_eq_none h]
  rfl

theorem length_put : (d.put i bytes).inodes.length = d.inodes.length := List.length_set

/-- Writing on at the end of an inode. -/
theorem data_writeAt_end (hi : i < d.inodes.length) {offset : Nat}
    (hend : (d.data i).length = offset) :
    (d.writeAt i offset bytes).data i = d.data i ++ bytes := by
  rw [writeAt, data_put_self hi, ← hend, overwrite_end]

theorem created_of_entry (h : d.entry name = some i) : d.created name = i := by
  rw [created, h]
  rfl

theorem created_of_new (h : d.entry name = none) : d.created name = d.inodes.length := by
  rw [created, h]
  rfl

/-- A descriptor that is not new is that of the file that had the name. -/
theorem entry_of_created (h : d.created name = i) (hi : i < d.inodes.length) :
    d.entry name = some i := by
  cases hentry : d.entry name with
  | some j =>
    rw [created_of_entry hentry] at h
    rw [h]
  | none =>
    rw [created_of_new hentry] at h
    exact absurd h.symm (Nat.ne_of_lt hi)

end Data

/-! ## Names -/

section Names
variable [DecidableEq Name]

/-- `unlink`. -/
def unlink (d : Directory Name) (name : Name) : Directory Name where
  entry := Function.update d.entry name none
  inodes := d.inodes
  exists_inode h := by
    rw [Function.update_apply] at h
    split at h
    · cases h
    · exact d.exists_inode h
  one_name {name₁ name₂ i} h₁ h₂ := by
    rw [Function.update_apply] at h₁ h₂
    split at h₁
    · cases h₁
    · split at h₂
      · cases h₂
      · exact d.one_name h₁ h₂

theorem entry_unlink {d : Directory Name} {name name' : Name} :
    (d.unlink name).entry name' = if name' = name then none else d.entry name' :=
  Function.update_apply _ _ _ _

/-- An inode without a name gets one, and whatever had the name loses it. -/
def link (d : Directory Name) (name : Name) (i : Nat) (hi : i < d.inodes.length)
    (hfree : ∀ name', d.entry name' ≠ some i) : Directory Name where
  entry := Function.update d.entry name (some i)
  inodes := d.inodes
  exists_inode {name' j} h := by
    rw [Function.update_apply] at h
    split at h
    · cases h
      exact hi
    · exact d.exists_inode h
  one_name {name₁ name₂ j} h₁ h₂ := by
    rw [Function.update_apply] at h₁ h₂
    split at h₁ <;> split at h₂
    · rename_i heq₁ heq₂
      rw [heq₁, heq₂]
    · cases h₁
      exact absurd h₂ (hfree _)
    · cases h₂
      exact absurd h₁ (hfree _)
    · exact d.one_name h₁ h₂

/-- `open` with `O_CREAT | O_TRUNC`: a new inode under a new name, or the one that has the
name, emptied. -/
def create (d : Directory Name) (name : Name) : Directory Name :=
  match d.entry name with
  | some i => d.put i []
  | none =>
    d.grow.link name d.inodes.length
      (by
        rw [grow, List.length_append]
        exact Nat.lt_succ_self _)
      fun _ h => absurd (d.exists_inode h) (Nat.lt_irrefl _)

/-- `rename`, which fails when there is no file of the first name. -/
def rename (d : Directory Name) (old new : Name) : Option (Directory Name) :=
  match h : d.entry old with
  | some i =>
    some ((d.unlink old).link new i (d.exists_inode h) fun name' h' => by
      rw [entry_unlink] at h'
      split at h'
      · cases h'
      · rename_i hne
        exact hne (d.one_name h' h))
  | none => none

variable {d d' : Directory Name} {name name' old new : Name} {j : Nat}

/-- Opening for writing empties the file, and leaves all others alone. -/
theorem data_create : (d.create name).data j = if j = d.created name then [] else d.data j := by
  unfold create
  split
  · rename_i i hentry
    rw [created_of_entry hentry]
    split
    · rename_i hj
      rw [hj, data_put_self (d.exists_inode hentry)]
    · rename_i hj
      exact data_put_of_ne hj
  · rename_i hentry
    show d.grow.data j = _
    rw [data_grow, created_of_new hentry]
    split
    · rename_i hj
      exact data_of_le (Nat.le_of_eq hj.symm)
    · rfl

theorem entry_create :
    (d.create name).entry name' =
      if name' = name then some (d.created name) else d.entry name' := by
  unfold create
  split
  · rename_i i hentry
    rw [created_of_entry hentry]
    split
    · rename_i hname
      rw [hname]
      exact hentry
    · rfl
  · rename_i hentry
    rw [created_of_new hentry]
    exact Function.update_apply _ _ _ _

theorem length_le_create : d.inodes.length ≤ (d.create name).inodes.length := by
  unfold create
  split
  · exact Nat.le_of_eq length_put.symm
  · show _ ≤ (d.inodes ++ [[]]).length
    rw [List.length_append]
    exact Nat.le_add_right _ _

theorem created_lt : d.created name < (d.create name).inodes.length :=
  (d.create name).exists_inode (by rw [entry_create, if_pos rfl])

theorem rename_eq_some (h : d.rename old new = some d') :
    ∃ i, d.entry old = some i ∧ d'.inodes = d.inodes ∧
      ∀ name, d'.entry name =
        if name = new then some i else if name = old then none else d.entry name := by
  unfold rename at h
  split at h
  · rename_i i hentry
    cases h
    refine ⟨i, hentry, rfl, fun name => ?_⟩
    show Function.update (Function.update d.entry old none) new (some i) name = _
    rw [Function.update_apply, Function.update_apply]
  · cases h

end Names
end Directory
end Inodes
