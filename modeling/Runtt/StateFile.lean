import Runtt.Basic
import Runtt.Inodes
import Runtt.Transition

/-! # What a reader sees of `state.json`

`state::write` and `state::read` of one container, one call to the file system at a time,
with any number of both beside each other.  A write opens `state.json.tmp`, writes its JSON in
pieces and renames the file; it can stop after each call.  A read opens `state.json` and reads
to its end.

Every write uses the same temporary file.
-/
namespace Runtt

/-- The two names in a state directory. -/
inductive StateName where
  | json
  | tmp
  deriving DecidableEq, Repr

/-- Where a call of `state::write` is. -/
inductive WriteStage where
  /-- Before `File::create` of the temporary file. -/
  | opening
  /-- The temporary file was opened, and so many bytes were written. -/
  | writing (inode count : Nat)
  /-- The rename failed, and the temporary file is about to be removed. -/
  | cleaning
  /-- It has returned, or its process is gone. -/
  | ended
  deriving DecidableEq, Repr

/-- A call of `state::write`, with what `to_vec_pretty` made of the state. -/
structure StateWrite where
  json : Bytes
  stage : WriteStage
  deriving DecidableEq, Repr

/-- Where a call of `state::read` is. -/
inductive StateRead where
  | opening
  /-- `state.json` was opened, and so much was read of it. -/
  | reading (inode : Nat) (got : Bytes)
  /-- What it saw of the file, if there was one. -/
  | ended (seen : Option Bytes)
  deriving DecidableEq, Repr

structure StateDir where
  files : Inodes.Directory StateName
  writes : List StateWrite
  reads : List StateRead

/-- One step of one call. -/
inductive FileMove where
  /-- A call of `state::write`. -/
  | write (json : Bytes)
  | create (k : Nat)
  /-- So many more bytes are written. -/
  | append (k count : Nat)
  | rename (k : Nat)
  /-- The rename fails for any other reason than that there is no file. -/
  | renameFails (k : Nat)
  | remove (k : Nat)
  /-- The process is gone, or another call to the file system failed. -/
  | stop (k : Nat)
  /-- A call of `state::read`. -/
  | read
  | openFile (r : Nat)
  /-- At most so many more bytes are read. -/
  | next (r count : Nat)
  deriving DecidableEq, Repr

namespace StateDir

/-- A state directory with what it holds before the first step: a state file, and a temporary
file that an earlier write left behind. -/
def initial (files : Inodes.Directory StateName) : StateDir := ⟨files, [], []⟩

/-- The temporary file is opened, and emptied. -/
def opened (dir : StateDir) (k : Nat) (json : Bytes) : StateDir :=
  { dir with
    files := dir.files.create .tmp
    writes := dir.writes.set k ⟨json, .writing (dir.files.created .tmp) 0⟩ }

/-- `count` bytes of the JSON are written behind the first `done`. -/
def appended (dir : StateDir) (k : Nat) (json : Bytes) (i done count : Nat) : StateDir :=
  { dir with
    files := dir.files.writeAt i done ((json.drop done).take count)
    writes := dir.writes.set k ⟨json, .writing i (done + count)⟩ }

/-- One step. -/
def step (dir : StateDir) : FileMove → Option StateDir
  | .write json => some { dir with writes := dir.writes ++ [⟨json, .opening⟩] }
  | .create k =>
    match dir.writes[k]? with
    | some ⟨json, .opening⟩ => some (dir.opened k json)
    | _ => none
  | .append k count =>
    match dir.writes[k]? with
    | some ⟨json, .writing i done⟩ =>
      if 0 < count ∧ done + count ≤ json.length then some (dir.appended k json i done count)
      else none
    | _ => none
  | .rename k =>
    match dir.writes[k]? with
    | some ⟨json, .writing _ done⟩ =>
      if done = json.length then
        match dir.files.rename .tmp .json with
        | some files => some { dir with files := files, writes := dir.writes.set k ⟨json, .ended⟩ }
        | none => some { dir with writes := dir.writes.set k ⟨json, .cleaning⟩ }
      else none
    | _ => none
  | .renameFails k =>
    match dir.writes[k]? with
    | some ⟨json, .writing _ done⟩ =>
      if done = json.length then some { dir with writes := dir.writes.set k ⟨json, .cleaning⟩ }
      else none
    | _ => none
  | .remove k =>
    match dir.writes[k]? with
    | some ⟨json, .cleaning⟩ =>
      some { dir with files := dir.files.unlink .tmp, writes := dir.writes.set k ⟨json, .ended⟩ }
    | _ => none
  | .stop k =>
    (dir.writes[k]?).map fun w => { dir with writes := dir.writes.set k { w with stage := .ended } }
  | .read => some { dir with reads := dir.reads ++ [.opening] }
  | .openFile r =>
    match dir.reads[r]? with
    | some .opening =>
      match dir.files.entry .json with
      | some i => some { dir with reads := dir.reads.set r (.reading i []) }
      | none => some { dir with reads := dir.reads.set r (.ended none) }
    | _ => none
  | .next r count =>
    match dir.reads[r]? with
    | some (.reading i got) =>
      if 0 < count then
        match ((dir.files.data i).drop got.length).take count with
        | [] => some { dir with reads := dir.reads.set r (.ended (some got)) }
        | piece => some { dir with reads := dir.reads.set r (.reading i (got ++ piece)) }
      else none
    | _ => none

/-- The file under the name, if there is one. -/
def file (dir : StateDir) : Option Bytes := (dir.files.entry .json).map dir.files.data

/-- What a read may see: no file, the file as it was before, or the JSON of one write. -/
def Whole (before : Option Bytes) (dir : StateDir) (seen : Option Bytes) : Prop :=
  seen = none ∨ seen = before ∨ ∃ w ∈ dir.writes, seen = some w.json

/-- Write `k` has the temporary file open as inode `i`, and has written so much. -/
def Writing (dir : StateDir) (k : Nat) (json : Bytes) (i done : Nat) : Prop :=
  dir.writes[k]? = some ⟨json, .writing i done⟩

/-- The temporary file is opened for writing only while no other write has it open. -/
def opensAlone (dir : StateDir) : FileMove → Bool
  | .create _ => dir.writes.all fun w =>
    match w.stage with
    | .writing _ _ => false
    | _ => true
  | _ => true

/-- One write at a time between its opening of the temporary file and its rename. -/
def OpensAlone (dir : StateDir) (m : FileMove) : Prop := dir.opensAlone m = true

instance (dir : StateDir) (m : FileMove) : Decidable (dir.OpensAlone m) :=
  inferInstanceAs (Decidable (_ = true))

variable {dir dir' : StateDir} {m : FileMove} {k k' i i' j done done' r : Nat}
  {json json' got : Bytes} {before seen : Option Bytes}

/-! ## Steps -/

/-- What a move does. -/
inductive Moved (dir : StateDir) : FileMove → StateDir → Prop where
  | write (json : Bytes) :
      Moved dir (.write json) { dir with writes := dir.writes ++ [⟨json, .opening⟩] }
  | create {k : Nat} {json : Bytes} (h : dir.writes[k]? = some ⟨json, .opening⟩) :
      Moved dir (.create k) (dir.opened k json)
  | append {k i done count : Nat} {json : Bytes} (h : dir.Writing k json i done)
      (hle : done + count ≤ json.length) :
      Moved dir (.append k count) (dir.appended k json i done count)
  | rename {k i : Nat} {json : Bytes} {files : Inodes.Directory StateName}
      (h : dir.Writing k json i json.length)
      (hfiles : dir.files.rename .tmp .json = some files) :
      Moved dir (.rename k) { dir with files := files, writes := dir.writes.set k ⟨json, .ended⟩ }
  | cleaning {m : FileMove} {k i : Nat} {json : Bytes} (h : dir.Writing k json i json.length) :
      Moved dir m { dir with writes := dir.writes.set k ⟨json, .cleaning⟩ }
  | remove {k : Nat} {json : Bytes} (h : dir.writes[k]? = some ⟨json, .cleaning⟩) :
      Moved dir (.remove k)
        { dir with files := dir.files.unlink .tmp, writes := dir.writes.set k ⟨json, .ended⟩ }
  | stop {k : Nat} {w : StateWrite} (h : dir.writes[k]? = some w) :
      Moved dir (.stop k) { dir with writes := dir.writes.set k { w with stage := .ended } }
  | read : Moved dir .read { dir with reads := dir.reads ++ [.opening] }
  | missing {r : Nat} : Moved dir (.openFile r) { dir with reads := dir.reads.set r (.ended none) }
  | opens {r i : Nat} (h : dir.files.entry .json = some i) :
      Moved dir (.openFile r) { dir with reads := dir.reads.set r (.reading i []) }
  | next {r count i : Nat} {got : Bytes} (h : dir.reads[r]? = some (.reading i got)) :
      Moved dir (.next r count)
        { dir with
          reads := dir.reads.set r
            (.reading i (got ++ ((dir.files.data i).drop got.length).take count)) }
  | eof {r count i : Nat} {got : Bytes} (h : dir.reads[r]? = some (.reading i got))
      (hend : (dir.files.data i).drop got.length = []) :
      Moved dir (.next r count) { dir with reads := dir.reads.set r (.ended (some got)) }

theorem step_moved (h : dir.step m = some dir') : dir.Moved m dir' := by
  cases m with
  | write json =>
    cases h
    exact .write json
  | create k =>
    simp only [step] at h
    split at h
    · cases h
      exact .create ‹_›
    · cases h
  | append k count =>
    simp only [step] at h
    split at h
    · split at h
      · rename_i hcount
        cases h
        exact .append ‹_› hcount.2
      · cases h
    · cases h
  | rename k =>
    simp only [step] at h
    split at h
    · split at h
      · rename_i hwriting hdone
        subst hdone
        split at h
        · cases h
          exact .rename hwriting ‹_›
        · cases h
          exact .cleaning hwriting
      · cases h
    · cases h
  | renameFails k =>
    simp only [step] at h
    split at h
    · split at h
      · rename_i hwriting hdone
        subst hdone
        cases h
        exact .cleaning hwriting
      · cases h
    · cases h
  | remove k =>
    simp only [step] at h
    split at h
    · cases h
      exact .remove ‹_›
    · cases h
  | stop k =>
    obtain ⟨w, hw, rfl⟩ := Option.map_eq_some_iff.mp h
    exact .stop hw
  | read =>
    cases h
    exact .read
  | openFile r =>
    simp only [step] at h
    split at h
    · split at h
      · cases h
        exact .opens ‹_›
      · cases h
        exact .missing
    · cases h
  | next r count =>
    simp only [step] at h
    split at h
    · split at h
      · rename_i hreading hcount
        split at h
        · rename_i hpiece
          cases h
          refine .eof hreading ?_
          rcases List.take_eq_nil_iff.mp hpiece with hzero | hnil
          · exact absurd hzero (Nat.pos_iff_ne_zero.mp hcount)
          · exact hnil
        · cases h
          exact .next hreading
      · cases h
    · cases h

/-! ## What a step leaves alone -/

/-- A write can still change the inode, or the name of the temporary file leads to it. -/
def Held (dir : StateDir) (i : Nat) : Prop :=
  dir.files.entry .tmp = some i ∨ ∃ k json done, dir.Writing k json i done

/-- No write is forgotten, and an inode that no write holds stays as it is, and stays so. -/
structure Keeps (dir dir' : StateDir) : Prop where
  inodes : dir.files.inodes.length ≤ dir'.files.inodes.length
  writes : ∀ w ∈ dir.writes, ∃ w' ∈ dir'.writes, w'.json = w.json
  data : ∀ i, i < dir.files.inodes.length → ¬ dir.Held i → dir'.files.data i = dir.files.data i
  held : ∀ i, i < dir.files.inodes.length → dir'.Held i → dir.Held i

theorem writing_set {w : StateWrite}
    (h : (dir.writes.set k w)[k']? = some ⟨json, .writing i done⟩) :
    k' = k ∧ w = ⟨json, .writing i done⟩ ∨ k' ≠ k ∧ dir.Writing k' json i done := by
  by_cases hk : k = k'
  · subst hk
    obtain ⟨hlt, hw⟩ := List.getElem?_eq_some_iff.mp h
    rw [List.getElem_set_self] at hw
    exact .inl ⟨rfl, hw⟩
  · rw [List.getElem?_set_ne hk] at h
    exact .inr ⟨Ne.symm hk, h⟩

/-- A write that is already there keeps its JSON. -/
theorem mem_set_json {w w₀ : StateWrite} (hk : dir.writes[k]? = some w₀)
    (hjson : w.json = w₀.json) :
    ∀ v ∈ dir.writes, ∃ v' ∈ dir.writes.set k w, v'.json = v.json := by
  intro v hv
  obtain ⟨n, hn⟩ := List.mem_iff_getElem?.mp hv
  by_cases hkn : k = n
  · subst hkn
    rw [hk] at hn
    cases hn
    exact ⟨w, List.mem_set (List.getElem?_eq_some_iff.mp hk).1 w, hjson⟩
  · exact ⟨v, List.mem_of_getElem? ((List.getElem?_set_ne hkn).trans hn), rfl⟩

/-- No inode changes, and writes only let go of what they hold. -/
structure LetsGo (dir dir' : StateDir) : Prop where
  inodes : dir'.files.inodes = dir.files.inodes
  writes : ∀ w ∈ dir.writes, ∃ w' ∈ dir'.writes, w'.json = w.json
  tmp : ∀ i, dir'.files.entry .tmp = some i → dir.files.entry .tmp = some i
  writing : ∀ {k json i done}, dir'.Writing k json i done → dir.Writing k json i done

theorem LetsGo.data (h : dir.LetsGo dir') : dir'.files.data i = dir.files.data i := by
  rw [Inodes.Directory.data, h.inodes, Inodes.Directory.data]

theorem LetsGo.keeps (h : dir.LetsGo dir') : dir.Keeps dir' where
  inodes := Nat.le_of_eq (congrArg List.length h.inodes).symm
  writes := h.writes
  data _ _ _ := h.data
  held i _ := by
    rintro (hentry | ⟨k, json, done, hwriting⟩)
    · exact .inl (h.tmp i hentry)
    · exact .inr ⟨k, json, done, h.writing hwriting⟩

/-- A move that only ends what a write was doing. -/
theorem letsGo_of_set {w w₀ : StateWrite} {files : Inodes.Directory StateName}
    (hk : dir.writes[k]? = some w₀) (hjson : w.json = w₀.json)
    (hstage : ∀ i done, w.stage ≠ .writing i done) (hinodes : files.inodes = dir.files.inodes)
    (htmp : ∀ i, files.entry .tmp = some i → dir.files.entry .tmp = some i) :
    dir.LetsGo { dir with files := files, writes := dir.writes.set k w } where
  inodes := hinodes
  writes := mem_set_json hk hjson
  tmp := htmp
  writing hwriting := by
    rcases writing_set hwriting with ⟨-, rfl⟩ | ⟨-, hwriting⟩
    · exact absurd rfl (hstage _ _)
    · exact hwriting

/-- A move that is none of a write's. -/
theorem letsGo_of_reads (reads : List StateRead) : dir.LetsGo { dir with reads := reads } where
  inodes := rfl
  writes w hw := ⟨w, hw, rfl⟩
  tmp _ h := h
  writing h := h

theorem letsGo_of_write (json : Bytes) :
    dir.LetsGo { dir with writes := dir.writes ++ [⟨json, .opening⟩] } where
  inodes := rfl
  writes w hw := ⟨w, List.mem_append_left _ hw, rfl⟩
  tmp _ h := h
  writing {k json i done} h := by
    have hwriting : (dir.writes ++ [_])[k]? = some ⟨json, .writing i done⟩ := h
    by_cases hk : k < dir.writes.length
    · rw [List.getElem?_append_left hk] at hwriting
      exact hwriting
    · rw [List.getElem?_append_right (Nat.le_of_not_lt hk)] at hwriting
      cases List.mem_singleton.mp (List.mem_of_getElem? hwriting)

/-- A step opens the temporary file, or writes on, or is one in which writes only let go. -/
theorem step_writes (hstep : dir.step m = some dir') :
    (∃ k json, m = .create k ∧ dir.writes[k]? = some ⟨json, .opening⟩ ∧ dir' = dir.opened k json) ∨
    (∃ k json i done count, dir.Writing k json i done ∧ done + count ≤ json.length ∧
      dir' = dir.appended k json i done count) ∨
    dir.LetsGo dir' := by
  cases step_moved hstep with
  | write json => exact .inr (.inr (letsGo_of_write json))
  | create h => exact .inl ⟨_, _, rfl, h, rfl⟩
  | append h hle => exact .inr (.inl ⟨_, _, _, _, _, h, hle, rfl⟩)
  | rename h hfiles =>
    obtain ⟨i, -, hinodes, hentry⟩ := Inodes.Directory.rename_eq_some hfiles
    refine .inr (.inr (letsGo_of_set h rfl (by simp) hinodes fun j hj => ?_))
    rw [hentry] at hj
    cases hj
  | cleaning h => exact .inr (.inr (letsGo_of_set h rfl (by simp) rfl fun _ hj => hj))
  | remove h =>
    refine .inr (.inr (letsGo_of_set h rfl (by simp) rfl fun j hj => ?_))
    rw [Inodes.Directory.entry_unlink, if_pos rfl] at hj
    cases hj
  | stop h => exact .inr (.inr (letsGo_of_set h rfl (by simp) rfl fun _ hj => hj))
  | _ => exact .inr (.inr (letsGo_of_reads _))

theorem opened_keeps (h : dir.writes[k]? = some ⟨json, .opening⟩) :
    dir.Keeps (dir.opened k json) where
  inodes := Inodes.Directory.length_le_create
  writes := mem_set_json h rfl
  data i hi hfree := by
    -- What is emptied had the name, or is new.
    refine Inodes.Directory.data_create.trans (if_neg fun hcreated => hfree (.inl ?_))
    exact Inodes.Directory.entry_of_created hcreated.symm hi
  held i hi := by
    have hcreated : dir.files.created .tmp = i → dir.Held i := fun hcreated =>
      .inl (Inodes.Directory.entry_of_created hcreated hi)
    rintro (hentry | ⟨k', json', done, hwriting⟩)
    · rw [opened, Inodes.Directory.entry_create, if_pos rfl] at hentry
      exact hcreated (Option.some.inj hentry)
    · rcases writing_set hwriting with ⟨-, heq⟩ | ⟨-, hwriting⟩
      · cases heq
        exact hcreated rfl
      · exact .inr ⟨k', json', done, hwriting⟩

theorem appended_keeps {count : Nat} (h : dir.Writing k json i done) :
    dir.Keeps (dir.appended k json i done count) where
  inodes := Nat.le_of_eq Inodes.Directory.length_put.symm
  writes := mem_set_json h rfl
  data j _ hfree := by
    refine Inodes.Directory.data_put_of_ne fun hij => hfree ?_
    rw [hij]
    exact .inr ⟨k, json, done, h⟩
  held j _ := by
    rintro (hentry | ⟨k', json', done', hwriting⟩)
    · exact .inl hentry
    · rcases writing_set hwriting with ⟨-, heq⟩ | ⟨-, hwriting⟩
      · cases heq
        exact .inr ⟨k, json, done, h⟩
      · exact .inr ⟨k', json', done', hwriting⟩

theorem step_keeps (hstep : dir.step m = some dir') : dir.Keeps dir' := by
  rcases step_writes hstep with
    ⟨k, json, -, h, rfl⟩ | ⟨k, json, i, done, count, h, -, rfl⟩ | hlets
  · exact opened_keeps h
  · exact appended_keeps h
  · exact hlets.keeps

/-- A write that has the temporary file open had it open before, unless it opens it now. -/
theorem writing_before (hstep : dir.step m = some dir') (hw : dir'.Writing k json i done) :
    (∃ done₀, dir.Writing k json i done₀) ∨ m = .create k := by
  rcases step_writes hstep with
    ⟨k₀, json₀, hm, -, rfl⟩ | ⟨k₀, json₀, i₀, done₀, count, h, -, rfl⟩ | hlets
  · rcases writing_set hw with ⟨rfl, -⟩ | ⟨-, hw⟩
    · exact .inr hm
    · exact .inl ⟨done, hw⟩
  · rcases writing_set hw with ⟨rfl, heq⟩ | ⟨-, hw⟩
    · cases heq
      exact .inl ⟨done₀, h⟩
    · exact .inl ⟨done, hw⟩
  · exact .inl ⟨done, hlets.writing hw⟩

/-- A read after a step. -/
inductive ReadMoved (dir : StateDir) : StateRead → Prop where
  | same {read : StateRead} (h : read ∈ dir.reads) : ReadMoved dir read
  | read : ReadMoved dir .opening
  | missing : ReadMoved dir (.ended none)
  | opens {i : Nat} (h : dir.files.entry .json = some i) : ReadMoved dir (.reading i [])
  | next {i count : Nat} {got : Bytes} (h : .reading i got ∈ dir.reads) :
      ReadMoved dir (.reading i (got ++ ((dir.files.data i).drop got.length).take count))
  | eof {i : Nat} {got : Bytes} (h : .reading i got ∈ dir.reads)
      (hend : (dir.files.data i).drop got.length = []) : ReadMoved dir (.ended (some got))

theorem read_moved (hstep : dir.step m = some dir') {read : StateRead}
    (hread : read ∈ dir'.reads) : dir.ReadMoved read := by
  have hset {r : Nat} {new : StateRead} (hmem : read ∈ dir.reads.set r new)
      (hnew : dir.ReadMoved new) : dir.ReadMoved read := by
    rcases List.mem_or_eq_of_mem_set hmem with hold | heq
    · exact .same hold
    · exact heq ▸ hnew
  cases step_moved hstep with
  | read =>
    rcases List.mem_append.mp hread with hold | hnew
    · exact .same hold
    · exact List.mem_singleton.mp hnew ▸ .read
  | missing => exact hset hread .missing
  | opens h => exact hset hread (.opens h)
  | next h => exact hset hread (.next (List.mem_of_getElem? h))
  | eof h hend => exact hset hread (.eof (List.mem_of_getElem? h) hend)
  | _ => exact .same hread

/-! ## What holds of every run -/

/-- The inode holds a whole file, and no write holds it. -/
structure Settled (before : Option Bytes) (dir : StateDir) (i : Nat) : Prop where
  exists_inode : i < dir.files.inodes.length
  free : ¬ dir.Held i
  whole : dir.Whole before (some (dir.files.data i))

/-- What a write that has the temporary file open may rely on. -/
structure Drafts (dir : StateDir) (json : Bytes) (i done : Nat) : Prop where
  exists_inode : i < dir.files.inodes.length
  le : done ≤ json.length
  data : dir.files.data i = json.take done
  tmp : ∀ j, dir.files.entry .tmp = some j → j = i

/-- What holds of the directory as long as no two writes have the temporary file open. -/
structure Sound (before : Option Bytes) (dir : StateDir) : Prop where
  alone : ∀ {k k' json json' i i' done done'}, dir.Writing k json i done →
    dir.Writing k' json' i' done' → k' = k
  drafts : ∀ {k json i done}, dir.Writing k json i done → dir.Drafts json i done
  file : ∀ {i}, dir.files.entry .json = some i → dir.Settled before i
  reading : ∀ {i got}, .reading i got ∈ dir.reads →
    dir.Settled before i ∧ got <+: dir.files.data i
  ended : ∀ {seen}, .ended seen ∈ dir.reads → dir.Whole before seen

theorem Whole.keeps (h : dir.Whole before seen) (hkeeps : dir.Keeps dir') :
    dir'.Whole before seen := by
  rcases h with h | h | ⟨w, hw, h⟩
  · exact .inl h
  · exact .inr (.inl h)
  · obtain ⟨w', hw', hjson⟩ := hkeeps.writes w hw
    exact .inr (.inr ⟨w', hw', by rw [h, hjson]⟩)

theorem Settled.keeps (h : dir.Settled before i) (hkeeps : dir.Keeps dir') :
    dir'.Settled before i ∧ dir'.files.data i = dir.files.data i := by
  have hdata := hkeeps.data i h.exists_inode h.free
  refine ⟨⟨Nat.lt_of_lt_of_le h.exists_inode hkeeps.inodes,
    fun hheld => h.free (hkeeps.held i h.exists_inode hheld), ?_⟩, hdata⟩
  rw [hdata]
  exact h.whole.keeps hkeeps

theorem not_writing_of_opensAlone (hguard : dir.OpensAlone (.create k)) :
    ¬ dir.Writing k' json i done := by
  intro hwriting
  have h := List.all_eq_true.mp hguard _ (List.mem_of_getElem? hwriting)
  cases h

theorem alone_step (hs : dir.Sound before) (hguard : dir.OpensAlone m)
    (hstep : dir.step m = some dir') (hw : dir'.Writing k json i done)
    (hw' : dir'.Writing k' json' i' done') : k' = k := by
  rcases writing_before hstep hw with ⟨done₀, hold⟩ | hm
  · rcases writing_before hstep hw' with ⟨done₁, hold'⟩ | rfl
    · exact hs.alone hold hold'
    · exact absurd hold (not_writing_of_opensAlone hguard)
  · subst hm
    rcases writing_before hstep hw' with ⟨done₁, hold'⟩ | hm'
    · exact absurd hold' (not_writing_of_opensAlone hguard)
    · exact (FileMove.create.inj hm').symm

theorem drafts_step (hs : dir.Sound before) (hguard : dir.OpensAlone m)
    (hstep : dir.step m = some dir') (hw : dir'.Writing k json i done) :
    dir'.Drafts json i done := by
  rcases step_writes hstep with
    ⟨k₀, json₀, rfl, h, rfl⟩ | ⟨k₀, json₀, i₀, done₀, count, h, hle, rfl⟩ | hlets
  · rcases writing_set hw with ⟨-, heq⟩ | ⟨-, hw⟩
    · cases heq
      refine ⟨Inodes.Directory.created_lt, Nat.zero_le _,
        Inodes.Directory.data_create.trans (if_pos rfl), fun j hj => ?_⟩
      rw [opened, Inodes.Directory.entry_create, if_pos rfl] at hj
      exact (Option.some.inj hj).symm
    · exact absurd hw (not_writing_of_opensAlone hguard)
  · rcases writing_set hw with ⟨-, heq⟩ | ⟨hne, hw⟩
    · cases heq
      obtain ⟨hi, hdone, hdata, htmp⟩ := hs.drafts h
      refine ⟨Nat.lt_of_lt_of_eq hi Inodes.Directory.length_put.symm, hle, ?_, htmp⟩
      have hend : (dir.files.data i).length = done₀ := by
        rw [hdata, List.length_take, Nat.min_eq_left hdone]
      exact (Inodes.Directory.data_writeAt_end hi hend).trans
        (by rw [hdata, List.take_add])
    · exact absurd (hs.alone h hw) hne
  · obtain ⟨hi, hle, hdata, htmp⟩ := hs.drafts (hlets.writing hw)
    refine ⟨?_, hle, hlets.data.trans hdata, fun j hj => htmp j (hlets.tmp j hj)⟩
    rw [hlets.inodes]
    exact hi

/-- What a rename puts in place is whole. -/
theorem file_of_rename (hs : dir.Sound before) (h : dir.Writing k json i json.length)
    {files : Inodes.Directory StateName} (hfiles : dir.files.rename .tmp .json = some files)
    (hkeeps : dir.Keeps { dir with files := files, writes := dir.writes.set k ⟨json, .ended⟩ })
    (hentry : files.entry .json = some j) :
    Settled before { dir with files := files, writes := dir.writes.set k ⟨json, .ended⟩ } j := by
  obtain ⟨hi, -, hdata, htmp⟩ := hs.drafts h
  obtain ⟨t, ht, hinodes, hnames⟩ := Inodes.Directory.rename_eq_some hfiles
  rw [hnames, if_pos rfl] at hentry
  cases hentry
  -- The temporary file is the one this write has open.
  obtain rfl := htmp j ht
  refine ⟨Nat.lt_of_lt_of_le hi hkeeps.inodes, ?_, .inr (.inr ⟨⟨json, .ended⟩, ?_, ?_⟩)⟩
  · rintro (hentry | ⟨k', json', done, hwriting⟩)
    · rw [hnames] at hentry
      cases hentry
    · rcases writing_set hwriting with ⟨-, heq⟩ | ⟨hne, hwriting⟩
      · cases heq
      · exact hne (hs.alone h hwriting)
  · exact List.mem_set (List.getElem?_eq_some_iff.mp h).1 _
  · show some ((files.inodes[j]?).getD []) = some json
    rw [hinodes]
    exact congrArg some (hdata.trans List.take_length)

theorem file_step (hs : dir.Sound before) (hstep : dir.step m = some dir')
    (hentry : dir'.files.entry .json = some i) : dir'.Settled before i := by
  have hkeeps := step_keeps hstep
  have hsame : dir'.files.entry .json = dir.files.entry .json → dir'.Settled before i := by
    intro heq
    rw [heq] at hentry
    exact ((hs.file hentry).keeps hkeeps).1
  cases step_moved hstep with
  | create h => exact hsame (Inodes.Directory.entry_create.trans (if_neg (by simp)))
  | rename h hfiles => exact file_of_rename hs h hfiles hkeeps hentry
  | remove h => exact hsame (Inodes.Directory.entry_unlink.trans (if_neg (by simp)))
  | _ => exact hsame rfl

theorem reading_step (hs : dir.Sound before) (hstep : dir.step m = some dir')
    (hread : .reading i got ∈ dir'.reads) :
    dir'.Settled before i ∧ got <+: dir'.files.data i := by
  have hkeeps := step_keeps hstep
  cases read_moved hstep hread with
  | same h =>
    obtain ⟨hsettled, hgot⟩ := hs.reading h
    obtain ⟨hsettled', hdata⟩ := hsettled.keeps hkeeps
    exact ⟨hsettled', hdata ▸ hgot⟩
  | opens h => exact ⟨((hs.file h).keeps hkeeps).1, List.nil_prefix⟩
  | @next _ count got₀ h =>
    obtain ⟨hsettled, rest, hrest⟩ := hs.reading h
    obtain ⟨hsettled', hdata⟩ := hsettled.keeps hkeeps
    refine ⟨hsettled', ?_⟩
    -- The next piece is the start of what was left.
    rw [hdata, ← hrest, List.drop_left]
    exact (List.prefix_append_right_inj got₀).mpr (List.take_prefix _ _)

theorem ended_step (hs : dir.Sound before) (hstep : dir.step m = some dir')
    (hended : .ended seen ∈ dir'.reads) : dir'.Whole before seen := by
  have hkeeps := step_keeps hstep
  cases read_moved hstep hended with
  | same h => exact (hs.ended h).keeps hkeeps
  | missing => exact .inl rfl
  | eof h hend =>
    obtain ⟨hsettled, rest, hrest⟩ := hs.reading h
    rw [← hrest, List.drop_left] at hend
    rw [hend, List.append_nil] at hrest
    have hwhole := hsettled.whole
    rw [← hrest] at hwhole
    exact hwhole.keeps hkeeps

theorem sound_initial (files : Inodes.Directory StateName) :
    (initial files).Sound (initial files).file where
  alone h := by cases h
  drafts h := by cases h
  file {i} h := by
    refine ⟨files.exists_inode h, ?_, .inr (.inl ?_)⟩
    · rintro (htmp | ⟨k, json, done, hwriting⟩)
      · cases files.one_name h htmp
      · cases hwriting
    · show _ = (files.entry .json).map files.data
      rw [show files.entry .json = some i from h]
      rfl
  reading h := by cases h
  ended h := by cases h

theorem sound {files : Inodes.Directory StateName}
    (h : Transition.Reaches step OpensAlone (initial files) dir) :
    dir.Sound (initial files).file := by
  refine h.invariant (sound_initial files) fun _ hs hguard hstep => ?_
  exact {
    alone := alone_step hs hguard hstep
    drafts := drafts_step hs hguard hstep
    file := file_step hs hstep
    reading := reading_step hs hstep
    ended := ended_step hs hstep }

/-- **A read sees a whole file**: in every run of reads and writes in which the temporary file
is opened only while no other write has it open, whatever was in the directory before and
whichever calls stop, a read that is over saw no file, the file as it was before the first
step, or the JSON of one of the writes. -/
theorem reads_whole (files : Inodes.Directory StateName) (dir : StateDir)
    (h : Transition.Reaches step OpensAlone (initial files) dir) (seen : Option Bytes)
    (hseen : .ended seen ∈ dir.reads) : dir.Whole (initial files).file seen :=
  (sound h).ended hseen

/-- A state file. -/
def stateJson (status : String) : Bytes :=
  ["\x7b", "  \"ociVersion\": \"1.2.1\",", "  \"id\": \"a\",",
    "  \"status\": \"" ++ status ++ "\",", "  \"pid\": 100,", "  \"bundle\": \"/b\",",
    "  \"annotations\": \x7b", "    \"dev.runtt.target\": \"usb:3-6\",",
    "    \"dev.runtt.firmware-path\": \"/b/rootfs/app.signed.bin\"", "  \x7d", "\x7d"].flatMap
      fun line => line.toList.map (fun c => UInt8.ofNat c.toNat) ++ [10]

/-- Write `k`, in one piece. -/
def writesWhole (k : Nat) (json : Bytes) : List FileMove :=
  [.write json, .create k, .append k json.length, .rename k]

/-- A file is written, a write of the next one stops halfway, and another one goes through
while a read has the first open. -/
def readAcross : List FileMove :=
  writesWhole 0 (stateJson "created") ++
    [.write (stateJson "running"), .create 1, .append 1 60, .stop 1, .read, .openFile 0,
      .next 0 64] ++
    writesWhole 2 (stateJson "stopped") ++
    [.next 0 8192, .next 0 8192, .read, .openFile 1, .next 1 8192, .next 1 8192]

theorem reads_whole_example :
    ∃ dir, readAcross.foldlM (Transition.guarded step OpensAlone) (initial .empty) = some dir ∧
      dir.reads = [.ended (some (stateJson "created")), .ended (some (stateJson "stopped"))] ∧
      ∀ seen, .ended seen ∈ dir.reads → dir.Whole (initial .empty).file seen := by
  have hrun : (readAcross.foldlM (Transition.guarded step OpensAlone) (initial .empty)).map
      StateDir.reads =
        some [.ended (some (stateJson "created")), .ended (some (stateJson "stopped"))] := by
    decide +kernel
  obtain ⟨dir, hdir, hreads⟩ := Option.map_eq_some_iff.mp hrun
  exact ⟨dir, hdir, hreads, fun seen hseen => reads_whole .empty dir (.run .refl hdir) seen hseen⟩

/-- Two writes overlap: the second empties the file that the first then puts in place. -/
def tornRead : List FileMove :=
  writesWhole 0 (stateJson "created") ++
    [.write (stateJson "running"), .create 1, .append 1 (stateJson "running").length,
      .write (stateJson "stopped"), .create 2, .rename 1, .read, .openFile 0, .next 0 8192]

theorem read_torn :
    ¬ ∀ (files : Inodes.Directory StateName) (dir : StateDir),
      Transition.Reaches step Transition.Any (initial files) dir →
        ∀ seen, .ended seen ∈ dir.reads → dir.Whole (initial files).file seen := by
  intro h
  have hrun : (tornRead.foldlM (Transition.guarded step Transition.Any) (initial .empty)).map
      (fun dir => (dir.reads, dir.writes.all fun w => !w.json.isEmpty)) =
        some ([.ended (some [])], true) := by
    decide +kernel
  obtain ⟨dir, hdir, heq⟩ := Option.map_eq_some_iff.mp hrun
  obtain ⟨hreads, hjsons⟩ := Prod.mk.inj heq
  have hseen : .ended (some []) ∈ dir.reads := hreads ▸ List.mem_singleton_self _
  rcases h .empty dir (.run .refl hdir) (some []) hseen with hnone | hbefore | ⟨w, hw, hjson⟩
  · cases hnone
  · cases hbefore
  · have hnonempty := List.all_eq_true.mp hjsons w hw
    rw [← Option.some.inj hjson] at hnonempty
    cases hnonempty

end StateDir
end Runtt
