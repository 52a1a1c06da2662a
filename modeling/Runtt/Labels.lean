import Runtt.Resolve
import Runtt.Verbs

/-! # What the text of a label says

Parsing a label keeps all of its text.  The lock files do not: their names are the label, or
the key of the resolved board, with every character replaced that is not at home in a file
name.
-/
namespace Runtt

/-! ## Parsing and displaying -/

theorem UsbSelector.display_parse (s : String) : (UsbSelector.parse s).display = s := by
  unfold UsbSelector.parse
  split <;> rfl

namespace Target

/-- A target as it is spelled in a label. -/
inductive Spells : String → Target → Prop where
  | usb (rest : String) : Spells ("usb:" ++ rest) (.usb (UsbSelector.parse rest))
  | tty (device : String) : Spells ("tty:" ++ device) (.tty device)
  /-- The interface ends at the first slash. -/
  | can (iface nodeId : String) (h : '/' ∉ iface.toList) :
      Spells ("can:" ++ iface ++ "/" ++ nodeId) (.can iface nodeId)

theorem display_of_spells {label : String} {target : Target} (h : Spells label target) :
    target.display = label := by
  cases h with
  | usb rest => rw [display, UsbSelector.display_parse]
  | tty device => rfl
  | can iface nodeId _ => rfl

/-- What stands before the first separator has none. -/
theorem notMem_of_splitOnce {s a b : String} {sep : Char}
    (h : Text.splitOnce s sep = some (a, b)) : sep ∉ a.toList := by
  unfold Text.splitOnce at h
  split at h
  · cases h
  · cases h
    rw [String.toList_ofList]
    intro hsep
    simpa using List.mem_takeWhile_imp hsep

/-- The text of a label, put together again. -/
theorem eq_of_splitOnce {s a b : String} {sep : Char}
    (h : Text.splitOnce s sep = some (a, b)) : s = a ++ String.singleton sep ++ b := by
  apply String.toList_injective
  rw [Text.toList_of_splitOnce h]
  simp

theorem spells_of_parse {label : String} {target : Target} (h : parse label = .ok target) :
    Spells label target := by
  unfold parse at h
  split at h
  · cases h
  · rename_i pre rest hsplit
    rw [eq_of_splitOnce hsplit]
    split at h
    · rename_i hpre
      subst hpre
      cases h
      exact .usb rest
    · split at h
      · rename_i hpre
        subst hpre
        cases h
        exact .tty rest
      · split at h
        · rename_i hpre
          subst hpre
          split at h
          · cases h
          · rename_i iface nodeId hrest
            cases h
            have hlabel : "can" ++ String.singleton ':' ++ rest =
                "can:" ++ iface ++ "/" ++ nodeId := by
              rw [eq_of_splitOnce hrest]
              apply String.toList_injective
              simp
            rw [hlabel]
            exact .can iface nodeId (notMem_of_splitOnce hrest)
        · cases h

/-- **Labels round-trip**: what is accepted has one of three forms, and displaying what it was
parsed to gives it back, so no two labels are parsed to one target. -/
theorem parse_round_trip (label : String) :
    ((∃ target, parse label = .ok target) ↔
        (∃ rest, label = "usb:" ++ rest) ∨ (∃ rest, label = "tty:" ++ rest) ∨
          ∃ iface rest, '/' ∉ iface.toList ∧ label = "can:" ++ iface ++ "/" ++ rest) ∧
      ∀ target, parse label = .ok target →
        target.display = label ∧ parse target.display = .ok target ∧
          ∀ label', parse label' = .ok target → label' = label := by
  constructor
  · constructor
    · rintro ⟨target, h⟩
      cases spells_of_parse h with
      | usb rest => exact .inl ⟨rest, rfl⟩
      | tty device => exact .inr (.inl ⟨device, rfl⟩)
      | can iface nodeId hiface => exact .inr (.inr ⟨iface, nodeId, hiface, rfl⟩)
    · rintro (⟨rest, rfl⟩ | ⟨rest, rfl⟩ | ⟨iface, rest, hiface, rfl⟩)
      · exact ⟨_, parse_usb rest⟩
      · exact ⟨_, parse_tty rest⟩
      · exact ⟨_, parse_can hiface rest⟩
  · intro target h
    have hdisplay : target.display = label := display_of_spells (spells_of_parse h)
    refine ⟨hdisplay, by rw [hdisplay, h], fun label' h' => ?_⟩
    exact (display_of_spells (spells_of_parse h')).symm.trans hdisplay

example : parse "can:a:b/c/d" = .ok (.can "a:b" "c/d") := by decide +kernel

end Target

/-! ## Lock files -/

/-- A character that `sanitise` keeps. -/
def Kept (c : Char) : Bool := c.isAlphanum || c == '-' || c == '.'

/-- Of different lengths, or with two different characters in one place of which at least one
is kept. -/
def Apart (a b : String) : Prop :=
  a.toList.length ≠ b.toList.length ∨
    ∃ c d, (c, d) ∈ a.toList.zip b.toList ∧ c ≠ d ∧ (Kept c = true ∨ Kept d = true)

theorem sanitiseChar_eq_iff (c d : Char) :
    (if Kept c then c else '_') = (if Kept d then d else '_') ↔
      c = d ∨ Kept c = false ∧ Kept d = false := by
  have hunderscore : Kept '_' = false := rfl
  cases hc : Kept c <;> cases hd : Kept d <;> simp only [Bool.false_eq_true, if_true, if_false]
  · simp
  · constructor
    · rintro rfl
      rw [hunderscore] at hd
      cases hd
    · rintro (rfl | ⟨-, h⟩)
      · rw [hc] at hd
        cases hd
      · cases h
  · constructor
    · rintro rfl
      rw [hunderscore] at hc
      cases hc
    · rintro (rfl | ⟨h, -⟩)
      · rw [hc] at hd
        cases hd
      · cases h
  · simp

theorem sanitise_ne_iff (a b : String) : sanitise a ≠ sanitise b ↔ Apart a b := by
  have hchars : ∀ cs ds : List Char,
      cs.map (fun c => if Kept c then c else '_') = ds.map (fun c => if Kept c then c else '_') ↔
        List.Forall₂ (fun c d => c = d ∨ Kept c = false ∧ Kept d = false) cs ds := by
    intro cs
    induction cs with
    | nil =>
      intro ds
      cases ds <;> simp
    | cons c cs ih =>
      intro ds
      cases ds with
      | nil => simp
      | cons d ds =>
        rw [List.map_cons, List.map_cons, List.cons.injEq, List.forall₂_cons, ih,
          sanitiseChar_eq_iff]
  have hsanitise : sanitise a = sanitise b ↔
      a.toList.map (fun c => if Kept c then c else '_') =
        b.toList.map fun c => if Kept c then c else '_' :=
    ⟨fun h => String.ofList_injective h, fun h => congrArg String.ofList h⟩
  rw [ne_eq, hsanitise, hchars, List.forall₂_iff_zip, Apart, not_and_or]
  simp only [not_forall, not_or, Bool.not_eq_false, not_and_or, exists_prop, ne_eq]

/-- **Two texts have lock files of their own exactly when they are apart**, labels and the keys
of resolved boards alike. -/
theorem lock_names_ne_iff (a b : String) :
    (lockName a ≠ lockName b ↔ Apart a b) ∧ (deviceLock a ≠ deviceLock b ↔ Apart a b) := by
  have hlabel : lockName a = lockName b ↔ sanitise a = sanitise b := by
    constructor
    · intro h
      have hlist := congrArg String.toList h
      simp only [lockName, String.toList_append] at hlist
      exact String.toList_injective
        (List.append_cancel_left (List.append_cancel_right hlist))
    · intro h
      rw [lockName, h, lockName]
  have hkey : deviceLock a = deviceLock b ↔ sanitise a = sanitise b := by
    constructor
    · intro h
      have hlist := congrArg String.toList h
      simp only [deviceLock, String.toList_append] at hlist
      exact String.toList_injective (List.append_cancel_left hlist)
    · intro h
      rw [deviceLock, h, deviceLock]
  exact ⟨(not_congr hlabel).trans (sanitise_ne_iff a b),
    (not_congr hkey).trans (sanitise_ne_iff a b)⟩

/-- A host with every device and no links, and nothing in sysfs. -/
def plainHost : Host where
  isDir _ := false
  pathExists _ := true
  readDir _ := .ok []
  canonicalize path := some path
  readToString _ := none

/-- A directory of boards and a board of that name have one lock file, both by their labels and
by what they are resolved to. -/
theorem different_boards_contend :
    (¬ ∀ (a b : String) (t t' : Target), Target.parse a = .ok t → Target.parse b = .ok t' →
        a ≠ b → lockName a ≠ lockName b) ∧
      ¬ ∀ (h : Host) (a b : String) (r r' : Resolved),
        (Target.parse a >>= Resolve.resolve h) = .ok r →
          (Target.parse b >>= Resolve.resolve h) = .ok r' → r.lockKey h ≠ r'.lockKey h →
            deviceLock (r.lockKey h) ≠ deviceLock (r'.lockKey h) := by
  constructor
  · intro h
    exact h "tty:/dev/boards/1" "tty:/dev/boards_1" (.tty "/dev/boards/1") (.tty "/dev/boards_1")
      (by decide +kernel) (by decide +kernel) (by decide +kernel) (by decide +kernel)
  · intro h
    exact h plainHost "tty:/dev/boards/1" "tty:/dev/boards_1" (.serial "/dev/boards/1" none)
      (.serial "/dev/boards_1" none) (by decide +kernel) (by decide +kernel) (by decide +kernel)
      (by decide +kernel)

end Runtt
