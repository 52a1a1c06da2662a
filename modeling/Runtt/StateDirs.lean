import Runtt.FileTree
import Runtt.Verbs

/-! # The directory of a container

`state.rs` joins a container id, text the engine supplies, to the root of the state directories,
and writes and deletes what is there.  Each function is the calls it makes to the file system.
-/
namespace Runtt

open Interaction Program FileTree

/-! ## Paths -/

/-- `state_dir`. -/
def stateDir (root id : String) : String := Text.join root id

/-- The temporary file of `state::write`. -/
def stateTmp (root id : String) : String := Path.withExtension (stateFile root id) "json.tmp"

/-- **An id that is accepted is one name**, and no other place is called so. -/
theorem isName_of_validate {id : String} (h : validateContainerId id = .ok ()) :
    Path.IsName id.toList := by
  unfold validateContainerId at h
  split at h
  · cases h
  · rename_i first chars hid
    split at h
    · cases h
    · split at h
      · cases h
      · rename_i hfirst
        split at h
        · cases h
        · rename_i hchars
          rw [List.find?_eq_none] at hchars
          rw [Bool.not_eq_true', Bool.not_eq_false] at hfirst
          have hdot : first ≠ '.' := by
            rintro rfl
            revert hfirst
            decide
          rw [hid]
          refine ⟨List.cons_ne_nil _ _, ?_, ?_, ?_⟩
          · intro hslash
            rcases List.mem_cons.mp hslash with rfl | hslash
            · revert hfirst
              decide
            · exact absurd (by decide) (hchars '/' hslash)
          · intro hcur
            exact hdot (List.cons.inj hcur).1
          · intro hparent
            exact hdot (List.cons.inj hparent).1

theorem isName_stateJson : Path.IsName "state.json".toList :=
  ⟨by decide, by decide, by decide, by decide⟩

theorem isName_stateTmp : Path.IsName "state.json.tmp".toList :=
  ⟨by decide, by decide, by decide, by decide⟩

section
variable {root id : String}

theorem components_stateDir (h : Path.IsName id.toList) :
    Path.components (stateDir root id) = Path.components root ++ [.normal id.toList] :=
  Path.components_join_name h

theorem components_stateFile (h : Path.IsName id.toList) :
    Path.components (stateFile root id) =
      Path.components root ++ [.normal id.toList, .normal "state.json".toList] := by
  show Path.components (Text.join (stateDir root id) "state.json") = _
  rw [Path.components_join_name isName_stateJson, components_stateDir h, List.append_assoc]
  rfl

theorem components_stateTmp (h : Path.IsName id.toList) :
    Path.components (stateTmp root id) =
      Path.components root ++ [.normal id.toList, .normal "state.json.tmp".toList] := by
  have hjoin : stateTmp root id = Text.join (stateDir root id) "state.json.tmp" :=
    Path.withExtension_join isName_stateJson (by decide) (by decide) (by decide)
  rw [hjoin, Path.components_join_name isName_stateTmp, components_stateDir h, List.append_assoc]
  rfl

end

/-! ## What is called -/

abbrev FileM := ExceptT Error (Program FileCall FileCall.Reply)

namespace FileM

def call (q : FileCall) : FileM q.Reply := question q

/-- `?` on a value that needs nothing of the file system. -/
def fromExcept {α : Type} : Except Error α → FileM α
  | .ok a => pure a
  | .error e => throw e

/-- `Context::context`. -/
def context {α : Type} (msg : String) (p : FileM α) : FileM α := rescue p fun e => throw (msg :: e)

end FileM

open FileM

/-- `std::fs::create_dir_all`, of a path with its components reversed: a directory that is not
there is made once those above it are. -/
def createDirAll : List Component → FileM Unit
  | [] => return ()
  | c :: above => do
    let path := (c :: above).reverse
    let r : Made ← call (.mkdir path)
    match r with
    | .made => return ()
    | .failed e =>
      let found : Bool ← call (.isDir path)
      if found then return () else throw e
    | .notFound _ =>
      if c = .rootDir then throw ["failed to create whole tree"]
      else
        createDirAll above
        let r : Made ← call (.mkdir path)
        match r with
        | .made => return ()
        | .notFound e | .failed e =>
          let found : Bool ← call (.isDir path)
          if found then return () else throw e

namespace State

/-- `state::write`, with what `to_vec_pretty` makes of the state. -/
def write (root id : String) (json : Except Error Bytes) : FileM Unit := do
  fromExcept (validateContainerId id)
  let dir := stateDir root id
  FileM.context s!"failed to create state directory {dir}"
    (createDirAll (Path.components dir).reverse)
  let finalPath := Path.components (stateFile root id)
  let tmpPath := Path.components (stateTmp root id)
  let json ← FileM.context "failed to serialise state" (fromExcept json)
  let r : Except Error Unit ← call (.write tmpPath json)
  match r with
  | .error e => throw (s!"failed to write {stateTmp root id}" :: e)
  | .ok () =>
    let r : Except Error Unit ← call (.rename tmpPath finalPath)
    match r with
    | .ok () => return ()
    | .error e =>
      -- No stray temporary file stays behind when the rename failed.
      let _ : Except Error Unit ← call (.removeFile tmpPath)
      throw e

/-- `state::remove`. -/
def remove (root id : String) : FileM Unit := do
  fromExcept (validateContainerId id)
  let dir := stateDir root id
  let found : Bool ← call (.pathExists (Path.components dir))
  if found then
    let r : Except Error Unit ← call (.removeDirAll (Path.components dir))
    match r with
    | .ok () => return ()
    | .error e => throw (s!"failed to remove {dir}" :: e)
  else return ()

end State

/-- The calls of `state::write` and `state::remove` for one id: on its directory or above it, and
on the two files. -/
def OnState (root id : String) : FileCall → Prop
  | .mkdir path | .isDir path => path <+: Path.components (stateDir root id)
  | .pathExists path | .removeDirAll path => path = Path.components (stateDir root id)
  | .write path _ | .removeFile path => path = Path.components (stateTmp root id)
  | .rename source target =>
    source = Path.components (stateTmp root id) ∧ target = Path.components (stateFile root id)

/-- All calls are on the state of `id`. -/
abbrev StaysOn {α : Type} (root id : String) (t : List (Exchange FileCall.Reply)) (p : FileM α) :
    Prop :=
  Promises (fun _ q => OnState root id q) (fun _ _ => True) (fun _ _ => True) t p

section
variable {α β : Type} {root id : String} {t : List (Exchange FileCall.Reply)}

theorem StaysOn.bind {p : FileM α} {f : α → FileM β} (hp : StaysOn root id t p)
    (hf : ∀ t a, StaysOn root id t (f a)) : StaysOn root id t (p >>= f) :=
  promises_bind.mpr (hp.mono (fun t a _ => hf t a) fun _ _ _ => trivial)

theorem StaysOn.call_bind {q : FileCall} {f : q.Reply → FileM β} (hq : OnState root id q)
    (hf : ∀ t r, StaysOn root id t (f r)) : StaysOn root id t (call q >>= f) :=
  promises_bind.mpr ⟨hq, fun r => hf _ r⟩

theorem StaysOn.context {msg : String} {p : FileM α} (hp : StaysOn root id t p) :
    StaysOn root id t (FileM.context msg p) := promises_rescue.mpr hp

theorem staysOn_fromExcept (x : Except Error α) : StaysOn root id t (fromExcept x) := by
  cases x with
  | ok a => trivial
  | error e => trivial

theorem createDirAll_staysOn {rev : List Component}
    (h : rev.reverse <+: Path.components (stateDir root id)) :
    StaysOn root id t (createDirAll rev) := by
  induction rev generalizing t with
  | nil => trivial
  | cons c above ih =>
    have habove : above.reverse <+: Path.components (stateDir root id) := by
      refine List.IsPrefix.trans ?_ h
      rw [List.reverse_cons]
      exact List.prefix_append _ _
    have hlook {t : List (Exchange FileCall.Reply)} (e : Error) :
        StaysOn root id t (do
          let found : Bool ← call (.isDir (c :: above).reverse)
          if found then return () else throw e) := by
      refine StaysOn.call_bind h fun t found => ?_
      cases found <;> trivial
    refine StaysOn.call_bind h fun t r => ?_
    cases r with
    | made => trivial
    | failed e => exact hlook e
    | notFound e =>
      show StaysOn root id t (if c = .rootDir then _ else _)
      split
      · trivial
      · refine StaysOn.bind (ih habove) fun t _ => StaysOn.call_bind h fun t r => ?_
        cases r with
        | made => trivial
        | notFound e => exact hlook e
        | failed e => exact hlook e

theorem write_staysOn (json : Except Error Bytes) :
    StaysOn root id t (State.write root id json) := by
  refine StaysOn.bind (staysOn_fromExcept _) fun t _ => ?_
  refine StaysOn.bind (StaysOn.context (createDirAll_staysOn ?_)) fun t _ => ?_
  · rw [List.reverse_reverse]
  refine StaysOn.bind (StaysOn.context (staysOn_fromExcept json)) fun t json => ?_
  refine StaysOn.call_bind rfl fun t r => ?_
  cases r with
  | error e => trivial
  | ok _ =>
    refine StaysOn.call_bind ⟨rfl, rfl⟩ fun t r => ?_
    cases r with
    | ok _ => trivial
    | error e => exact StaysOn.call_bind rfl fun t _ => trivial

theorem remove_staysOn : StaysOn root id t (State.remove root id) := by
  refine StaysOn.bind (staysOn_fromExcept _) fun t _ => ?_
  refine StaysOn.call_bind rfl fun t found => ?_
  cases found with
  | false => trivial
  | true =>
    refine StaysOn.call_bind rfl fun t r => ?_
    cases r with
    | ok _ => trivial
    | error e => trivial

end

/-- In a run every call was on the state of the id. -/
theorem onState_of_mem {root id : String} {p : FileM Unit} {t : List (Exchange FileCall.Reply)}
    {o : Except Error Unit} (hp : StaysOn root id [] p) (h : Yields p t o)
    {x : Exchange FileCall.Reply} (hx : x ∈ t) : OnState root id x.question := by
  obtain ⟨s₁, s₂, rfl⟩ := List.append_of_mem hx
  exact Keeps.asked hp h

/-! ## What is touched -/

/-- Where the state of a container is. -/
def stateAt (cwd : Location) (root id : String) : Location :=
  Path.locate cwd (Path.components root) ++ [id.toList]

/-- Nothing but what is at `dir` and below it is changed. -/
def OnlyIn (dir : Location) (fs fs' : FileTree) : Prop := ∀ l, fs' l ≠ fs l → dir <+: l

section
variable {cwd : Location} {root id : String} {fs fs' : FileTree} {l : Location}

theorem locate_stateDir (h : Path.IsName id.toList) :
    Path.locate cwd (Path.components (stateDir root id)) = stateAt cwd root id := by
  rw [components_stateDir h, Path.locate_concat_normal, stateAt]

theorem locate_stateFile (h : Path.IsName id.toList) :
    Path.locate cwd (Path.components (stateFile root id)) =
      stateAt cwd root id ++ ["state.json".toList] := by
  rw [components_stateFile h, Path.locate_append]
  rfl

theorem locate_stateTmp (h : Path.IsName id.toList) :
    Path.locate cwd (Path.components (stateTmp root id)) =
      stateAt cwd root id ++ ["state.json.tmp".toList] := by
  rw [components_stateTmp h, Path.locate_append]
  rfl

/-- A call changes the state of its id, or makes a directory on the way to the root that was not
there. -/
theorem effect_onState {x : Exchange FileCall.Reply} (h : Path.IsName id.toList)
    (hq : OnState root id x.question) (hx : Effect cwd fs fs' x) (hchanged : fs' l ≠ fs l) :
    stateAt cwd root id <+: l ∨
      fs l = none ∧ fs' l = some .dir ∧
        ∃ front, front <+: Path.components root ∧ l = Path.locate cwd front := by
  have hfoot : Footprint cwd x.question l := by
    by_contra hnot
    exact hchanged (effect_frame hx hnot)
  obtain ⟨q, r⟩ := x
  cases q with
  | mkdir path =>
    obtain ⟨rfl, hnone, hdir⟩ := effect_mkdir hx hchanged
    have hpath : path <+: Path.components (stateDir root id) := hq
    rw [components_stateDir h] at hpath
    rcases List.prefix_concat_iff.mp hpath with hwhole | hfront
    · rw [hwhole, Path.locate_concat_normal]
      exact .inl (List.prefix_refl _)
    · exact .inr ⟨hnone, hdir, path, hfront, rfl⟩
  | isDir path => exact hfoot.elim
  | pathExists path => exact hfoot.elim
  | write path bytes =>
    have hpath : path = Path.components (stateTmp root id) := hq
    have hl : l = Path.locate cwd path := hfoot
    rw [hl, hpath, locate_stateTmp h]
    exact .inl (List.prefix_append _ _)
  | rename source target =>
    have hpaths : source = Path.components (stateTmp root id) ∧
        target = Path.components (stateFile root id) := hq
    have hmoved : Path.locate cwd source <+: l ∨ Path.locate cwd target <+: l := hfoot
    rw [hpaths.1, hpaths.2, locate_stateTmp h, locate_stateFile h] at hmoved
    rcases hmoved with hsource | htarget
    · exact .inl ((List.prefix_append _ _).trans hsource)
    · exact .inl ((List.prefix_append _ _).trans htarget)
  | removeFile path =>
    have hpath : path = Path.components (stateTmp root id) := hq
    have hl : l = Path.locate cwd path := hfoot
    rw [hl, hpath, locate_stateTmp h]
    exact .inl (List.prefix_append _ _)
  | removeDirAll path =>
    have hpath : path = Path.components (stateDir root id) := hq
    have hbelow : Path.locate cwd path <+: l := hfoot
    rw [hpath, locate_stateDir h] at hbelow
    exact .inl hbelow

/-- What leads to the root is there, but for what the state of the id itself holds of it. -/
def Rooted (cwd : Location) (root id : String) (fs : FileTree) : Prop :=
  ∀ front, front <+: Path.components root → ¬ stateAt cwd root id <+: Path.locate cwd front →
    fs (Path.locate cwd front) = some .dir

theorem Rooted.step {x : Exchange FileCall.Reply} (h : Path.IsName id.toList)
    (hroot : Rooted cwd root id fs) (hq : OnState root id x.question)
    (hx : Effect cwd fs fs' x) : OnlyIn (stateAt cwd root id) fs fs' ∧ Rooted cwd root id fs' := by
  have honly : OnlyIn (stateAt cwd root id) fs fs' := by
    intro l hchanged
    rcases effect_onState h hq hx hchanged with hin | ⟨hnone, -, front, hfront, rfl⟩
    · exact hin
    · by_contra hout
      rw [hroot front hfront hout] at hnone
      cases hnone
  refine ⟨honly, fun front hfront hout => ?_⟩
  have hsame : fs' (Path.locate cwd front) = fs (Path.locate cwd front) := by
    by_contra hchanged
    exact hout (honly _ hchanged)
  rw [hsame, hroot front hfront hout]

/-- With a root that is there, a run changes the state of its id alone. -/
theorem Rooted.run {t : List (Exchange FileCall.Reply)} (h : Path.IsName id.toList)
    (hroot : Rooted cwd root id fs) (hq : ∀ x ∈ t, OnState root id x.question)
    (ht : Through cwd fs t fs') : OnlyIn (stateAt cwd root id) fs fs' := by
  have hframe : Rooted cwd root id fs' ∧ ∀ l, ¬ stateAt cwd root id <+: l → fs' l = fs l := by
    refine ht.frame hroot fun x hx fs fs' hroot hx' => ?_
    obtain ⟨honly, hroot'⟩ := hroot.step h (hq x hx) hx'
    refine ⟨hroot', fun l hl => ?_⟩
    by_contra hchanged
    exact hl (honly l hchanged)
  intro l hchanged
  by_contra hl
  exact hchanged (hframe.2 l hl)

end

/-- **The states of two containers are apart.**  An id that is accepted is one name, its directory
is that name in the root, and no path of one id is a path of another.  A call of `state::write`
or `state::remove` changes nothing but what is in the directory of its id, and so nothing of
the other and nothing outside the root, as long as the root is there; where it is not, a write
also makes the directories that are missing on the way to it. -/
theorem state_dirs_isolated {root id id' : String} (h : validateContainerId id = .ok ())
    (h' : validateContainerId id' = .ok ()) (hne : id ≠ id') (cwd : Location) :
    (Path.IsName id.toList ∧
        Path.components (stateDir root id) = Path.components root ++ [.normal id.toList]) ∧
      (∀ p ∈ [stateDir root id, stateFile root id, stateTmp root id],
        ∀ p' ∈ [stateDir root id', stateFile root id', stateTmp root id'],
          Path.locate cwd (Path.components p) ≠ Path.locate cwd (Path.components p')) ∧
      (∀ l, stateAt cwd root id <+: l → ¬ stateAt cwd root id' <+: l ∧
        ∃ rest, rest ≠ [] ∧ l = Path.locate cwd (Path.components root) ++ rest) ∧
      ∀ json, ∀ p ∈ [State.write root id json, State.remove root id],
        ∀ (t : List (Exchange FileCall.Reply)) (o : Except Error Unit), Yields p t o →
          (∀ fs fs', IsDir cwd fs (Path.components root) →
            (∀ x ∈ t, Effect cwd fs fs' x → OnlyIn (stateAt cwd root id) fs fs') ∧
              (Through cwd fs t fs' → OnlyIn (stateAt cwd root id) fs fs')) ∧
            ∀ x ∈ t, ∀ fs fs' l, Effect cwd fs fs' x → fs' l ≠ fs l →
              stateAt cwd root id <+: l ∨
                fs l = none ∧ fs' l = some .dir ∧
                  ∃ front, front <+: Path.components root ∧ l = Path.locate cwd front := by
  have hname := isName_of_validate h
  have hname' := isName_of_validate h'
  have hapart {l : Location} (hl : stateAt cwd root id <+: l) : ¬ stateAt cwd root id' <+: l := by
    intro hl'
    have hsame : stateAt cwd root id = stateAt cwd root id' :=
      (List.prefix_of_prefix_length_le hl hl' (by simp [stateAt])).eq_of_length (by simp [stateAt])
    have hlast := List.append_cancel_left hsame
    exact hne (String.toList_injective (List.cons.inj hlast).1)
  refine ⟨⟨hname, components_stateDir hname⟩, ?_, fun l hl => ⟨hapart hl, ?_⟩, ?_⟩
  · intro p hp p' hp' hsame
    have hin : stateAt cwd root id <+: Path.locate cwd (Path.components p) := by
      simp only [List.mem_cons, List.not_mem_nil, or_false] at hp
      rcases hp with rfl | rfl | rfl
      · rw [locate_stateDir hname]
      · rw [locate_stateFile hname]
        exact List.prefix_append _ _
      · rw [locate_stateTmp hname]
        exact List.prefix_append _ _
    have hin' : stateAt cwd root id' <+: Path.locate cwd (Path.components p') := by
      simp only [List.mem_cons, List.not_mem_nil, or_false] at hp'
      rcases hp' with rfl | rfl | rfl
      · rw [locate_stateDir hname']
      · rw [locate_stateFile hname']
        exact List.prefix_append _ _
      · rw [locate_stateTmp hname']
        exact List.prefix_append _ _
    rw [hsame] at hin
    exact hapart hin hin'
  · obtain ⟨rest, rfl⟩ := hl
    exact ⟨id.toList :: rest, List.cons_ne_nil _ _, by rw [stateAt, List.append_assoc]; rfl⟩
  · intro json p hp t o hrun
    have hstays : StaysOn root id [] p := by
      simp only [List.mem_cons, List.not_mem_nil, or_false] at hp
      rcases hp with rfl | rfl
      · exact write_staysOn json
      · exact remove_staysOn
    have hq : ∀ x ∈ t, OnState root id x.question := fun x hx => onState_of_mem hstays hrun hx
    refine ⟨fun fs fs' hroot => ?_, fun x hx fs fs' l hx' hchanged =>
      effect_onState hname (hq x hx) hx' hchanged⟩
    have hrooted : Rooted cwd root id fs := fun front hfront _ => hroot front hfront
    exact ⟨fun x hx hx' => (hrooted.step hname (hq x hx) hx').1, hrooted.run hname hq⟩

/-- `/run/runtt`, with nothing in it. -/
def emptyRoot : FileTree := fun l =>
  if l <+: ["run".toList, "runtt".toList] then some .dir else none

theorem isDir_emptyRoot : IsDir [] emptyRoot (Path.components "/run/runtt") := by
  intro front hfront
  have hall : ∀ front ∈ (Path.components "/run/runtt").inits,
      emptyRoot (Path.locate [] front) = some .dir := by decide
  exact hall front ((List.mem_inits _ _).mpr hfront)

/-- The calls of the first write for `blinky`. -/
def firstWrite : List (Exchange FileCall.Reply) :=
  [⟨.mkdir (Path.components (stateDir "/run/runtt" "blinky")), .made⟩,
    ⟨.write (Path.components (stateTmp "/run/runtt" "blinky")) [123, 125], .ok ()⟩,
    ⟨.rename (Path.components (stateTmp "/run/runtt" "blinky"))
      (Path.components (stateFile "/run/runtt" "blinky")), .ok ()⟩]

theorem yields_firstWrite :
    Yields (State.write "/run/runtt" "blinky" (.ok [123, 125])) firstWrite (.ok ()) := by
  have hvalid : validateContainerId "blinky" = .ok () := by decide
  have hdirs : (Path.components (stateDir "/run/runtt" "blinky")).reverse =
      [.normal "blinky".toList, .normal "runtt".toList, .normal "run".toList, .rootDir] := by decide
  unfold State.write
  rw [hvalid]
  dsimp only
  rw [hdirs]
  exact .ask (.ask (.ask (.done _)))

/-- Two containers of one service, in the root the engine gives, and the first write for one of
them. -/
theorem state_dirs_isolated_blinky :
    (∀ p ∈ [stateDir "/run/runtt" "blinky", stateFile "/run/runtt" "blinky",
        stateTmp "/run/runtt" "blinky"],
      ∀ p' ∈ [stateDir "/run/runtt" "blinky.2", stateFile "/run/runtt" "blinky.2",
          stateTmp "/run/runtt" "blinky.2"],
        Path.locate [] (Path.components p) ≠ Path.locate [] (Path.components p')) ∧
      (∀ l, stateAt [] "/run/runtt" "blinky" <+: l →
        ¬ stateAt [] "/run/runtt" "blinky.2" <+: l ∧
          ∃ rest, rest ≠ [] ∧ l = Path.locate [] (Path.components "/run/runtt") ++ rest) ∧
      ∃ fs', Through [] emptyRoot firstWrite fs' ∧
        fs' (stateAt [] "/run/runtt" "blinky" ++ ["state.json".toList]) =
          some (.file [123, 125]) ∧
        OnlyIn (stateAt [] "/run/runtt" "blinky") emptyRoot fs' := by
  have hapart := @state_dirs_isolated "/run/runtt" "blinky" "blinky.2" (by decide) (by decide)
    (by decide) []
  obtain ⟨fs', hthrough, hwritten⟩ : ∃ fs', Through [] emptyRoot firstWrite fs' ∧
      fs' (stateAt [] "/run/runtt" "blinky" ++ ["state.json".toList]) =
        some (.file [123, 125]) := by
    refine ⟨_, .cons ⟨?_, ?_, rfl⟩ (.cons rfl (.cons rfl (.nil _))), ?_⟩
    all_goals decide
  have hrun := hapart.2.2.2 (.ok [123, 125]) _ List.mem_cons_self _ _ yields_firstWrite
  exact ⟨hapart.2.1, hapart.2.2.1, fs', hthrough, hwritten,
    (hrun.1 emptyRoot fs' isDir_emptyRoot).2 hthrough⟩

end Runtt
