import Runtt.Text

/-! # The components of a path

`std::path::Component`, and what a path names as a sequence of them.  Repeated separators,
a separator at the end and every `.` but a leading one make no difference; `..` stays, since
only the file system knows what is above a name.  Nothing here asks the file system.
-/
namespace Runtt

/-- `std::path::Component`, on a system whose paths have no prefix. -/
inductive Component where
  | rootDir
  | curDir
  | parentDir
  | normal (name : List Char)
  deriving DecidableEq, Repr

/-- Whether a component goes one name down. -/
def Component.isNormal : Component → Bool
  | .normal _ => true
  | _ => false

namespace Path

/-- A segment between separators that is not first in a path. -/
def component : List Char → Option Component
  | [] => none
  | ['.'] => none
  | ['.', '.'] => some .parentDir
  | name => some (.normal name)

/-- The components the segments of a text stand for. -/
def body (cs : List Char) : List Component := (cs.splitOn '/').filterMap component

/-- What only the start of a path can be. -/
def lead (cs : List Char) : List Component :=
  match cs with
  | '/' :: _ => [.rootDir]
  | ['.'] => [.curDir]
  | '.' :: '/' :: _ => [.curDir]
  | _ => []

/-- `Path::components`. -/
def components (path : String) : List Component := lead path.toList ++ body path.toList

/-! ## Joining -/

@[simp] theorem body_nil : body [] = [] := by
  simp [body, component]

theorem body_append_separator (cs ds : List Char) :
    body (cs ++ '/' :: ds) = body cs ++ body ds := by
  rw [body, List.splitOn_append_cons_self, List.filterMap_append]
  rfl

/-- What follows a separator, or the first segment and its separator, is not part of the
lead. -/
theorem lead_append_separator {cs : List Char} (hne : cs ≠ []) (ds : List Char) :
    lead (cs ++ '/' :: ds) = lead cs := by
  match cs, hne with
  | [c], _ =>
    by_cases hslash : c = '/'
    · subst hslash
      rfl
    · by_cases hdot : c = '.'
      · subst hdot
        rfl
      · simp [lead, hslash, hdot]
  | c :: d :: rest, _ =>
    by_cases hslash : c = '/'
    · subst hslash
      rfl
    · by_cases hdot : c = '.'
      · subst hdot
        by_cases hsep : d = '/'
        · subst hsep
          rfl
        · simp [lead, hsep]
      · simp [lead, hslash, hdot]

theorem startsWith_slash_iff (s : String) :
    Text.startsWith s "/" = true ↔ ∃ rest, s.toList = '/' :: rest := by
  unfold Text.startsWith
  rw [List.isPrefixOf_iff_prefix]
  constructor
  · rintro ⟨rest, hrest⟩
    exact ⟨rest, hrest.symm⟩
  · rintro ⟨rest, hrest⟩
    exact ⟨rest, hrest.symm⟩

/-- An absolute path replaces the base. -/
theorem join_absolute {base path : String} (h : Text.startsWith path "/" = true) :
    Text.join base path = path := if_pos h

/-- A path joined to nothing is itself. -/
theorem empty_join (path : String) : Text.join "" path = path := by
  unfold Text.join
  split
  · rfl
  · simp

theorem endsWith_slash_iff (s : String) :
    Text.endsWith s "/" = true ↔ ∃ front, s.toList = front ++ ['/'] := by
  unfold Text.endsWith
  rw [List.isSuffixOf_iff_suffix]
  constructor
  · rintro ⟨front, hfront⟩
    exact ⟨front, hfront.symm⟩
  · rintro ⟨front, hfront⟩
    exact ⟨front, hfront.symm⟩

/-- A base up to where a relative path joins it: with its separator, if it is not empty. -/
def upTo (base : String) : List Char :=
  if base = "" then [] else if Text.endsWith base "/" then base.toList else base.toList ++ ['/']

theorem toList_join (base : String) {path : String} (hpath : Text.startsWith path "/" = false) :
    (Text.join base path).toList = upTo base ++ path.toList := by
  unfold Text.join upTo
  rw [if_neg (by simp [hpath])]
  by_cases hbase : base = ""
  · simp [hbase]
  · by_cases hends : Text.endsWith base "/" = true
    · simp [hbase, hends]
    · simp [hbase, hends]

/-- The separator is brought by the base or added to it. -/
theorem upTo_eq {base : String} (hbase : base ≠ "") : ∃ front, upTo base = front ++ ['/'] ∧
    (base.toList = front ++ ['/'] ∨ base.toList = front) := by
  unfold upTo
  rw [if_neg hbase]
  by_cases hends : Text.endsWith base "/" = true
  · rw [if_pos hends]
    obtain ⟨front, hfront⟩ := (endsWith_slash_iff base).mp hends
    exact ⟨front, hfront, .inl hfront⟩
  · rw [if_neg hends]
    exact ⟨base.toList, rfl, .inr rfl⟩

/-- **A relative path joined to a base**: the components of the base, then its own. -/
theorem components_join {base path : String} (hbase : base ≠ "")
    (hpath : Text.startsWith path "/" = false) :
    components (Text.join base path) = components base ++ body path.toList := by
  obtain ⟨front, hupTo, hfront⟩ := upTo_eq hbase
  have hcomponents : components base = lead (front ++ ['/']) ++ body front := by
    unfold components
    rcases hfront with h | h
    · rw [h, body_append_separator, body_nil, List.append_nil]
    · have hne : front ≠ [] := by
        rintro rfl
        exact hbase (String.toList_eq_nil_iff.mp h)
      rw [h, lead_append_separator hne]
  have hlead : lead (front ++ '/' :: path.toList) = lead (front ++ ['/']) := by
    by_cases hnil : front = []
    · subst hnil
      rfl
    · rw [lead_append_separator hnil, lead_append_separator hnil]
  have hjoin : (Text.join base path).toList = front ++ '/' :: path.toList := by
    rw [toList_join base hpath, hupTo, List.append_assoc]
    rfl
  rw [components, hjoin, hlead, body_append_separator, hcomponents, List.append_assoc]

/-- A text that is one name: not empty, without separators, and neither `.` nor `..`. -/
structure IsName (cs : List Char) : Prop where
  nonempty : cs ≠ []
  separatorless : '/' ∉ cs
  not_cur : cs ≠ ['.']
  not_parent : cs ≠ ['.', '.']

theorem body_of_isName {cs : List Char} (h : IsName cs) : body cs = [.normal cs] := by
  rw [body, List.splitOn_eq_singleton h.separatorless]
  simp [component, h.nonempty, h.not_cur, h.not_parent]

theorem lead_of_isName {cs : List Char} (h : IsName cs) : lead cs = [] := by
  unfold lead
  split
  · exact absurd List.mem_cons_self h.separatorless
  · exact absurd rfl h.not_cur
  · exact absurd (List.mem_cons_of_mem _ List.mem_cons_self) h.separatorless
  · rfl

theorem relative_of_isName {name : String} (h : IsName name.toList) :
    Text.startsWith name "/" = false := by
  rw [Bool.eq_false_iff]
  intro hslash
  obtain ⟨rest, hrest⟩ := (startsWith_slash_iff name).mp hslash
  apply h.separatorless
  rw [hrest]
  exact List.mem_cons_self

/-- **One name joined to a base** is one more component. -/
theorem components_join_name {base name : String} (h : IsName name.toList) :
    components (Text.join base name) = components base ++ [.normal name.toList] := by
  by_cases hbase : base = ""
  · subst hbase
    rw [empty_join, components, lead_of_isName h, body_of_isName h]
    rfl
  · have hrelative : Text.startsWith name "/" = false := by
      rw [Bool.eq_false_iff]
      intro hslash
      obtain ⟨rest, hrest⟩ := (startsWith_slash_iff name).mp hslash
      apply h.separatorless
      rw [hrest]
      exact List.mem_cons_self
    rw [components_join hbase hrelative, body_of_isName h]

/-! ## The last name -/

/-- A path, its characters reversed, without what is behind its last name. -/
def trimEnd : List Char → List Char
  | '/' :: cs => trimEnd cs
  | '.' :: cs =>
    match cs with
    | '/' :: _ => trimEnd cs
    | _ => '.' :: cs
  | cs => cs

/-- `Path::file_stem`, of a name: up to its last dot, unless that is the first character. -/
def fileStem (name : List Char) : List Char :=
  match (name.reverse.dropWhile (· ≠ '.')).drop 1 with
  | [] => name
  | before => before.reverse

/-- `Path::with_extension`. -/
def withExtension (path ext : String) : String :=
  let rev := trimEnd path.toList.reverse
  let name := (rev.takeWhile (· ≠ '/')).reverse
  if name = [] ∨ name = ['.'] ∨ name = ['.', '.'] then path
  else
    let front := (rev.dropWhile (· ≠ '/')).reverse
    String.ofList (front ++ fileStem name ++ if ext = "" then [] else '.' :: ext.toList)

theorem trimEnd_name {name : List Char} (h : IsName name) (rest : List Char) :
    trimEnd (name.reverse ++ rest) = name.reverse ++ rest := by
  obtain ⟨c, cs, hrev⟩ := List.exists_cons_of_ne_nil
    (fun hnil => h.nonempty (List.reverse_eq_nil_iff.mp hnil) : name.reverse ≠ [])
  have hmem : ∀ d ∈ c :: cs, d ≠ '/' := by
    rintro d hd rfl
    rw [← hrev, List.mem_reverse] at hd
    exact h.separatorless hd
  rw [hrev, List.cons_append]
  unfold trimEnd
  split
  · rename_i heq
    exact absurd (List.cons.inj heq).1 (hmem c List.mem_cons_self)
  · rename_i heq
    obtain ⟨rfl, rfl⟩ := List.cons.inj heq
    split
    · rename_i heq
      cases cs with
      | nil =>
        have hname : name = ['.'] := by
          rw [← List.reverse_reverse name, hrev]
          rfl
        exact absurd hname h.not_cur
      | cons d ds =>
        exact absurd (List.cons.inj heq).1 (hmem d (List.mem_cons_of_mem _ List.mem_cons_self))
    · rfl
  · rfl

/-- **The extension of a name joined to a base.** -/
theorem withExtension_join {base name ext named : String} (h : IsName name.toList)
    (hext : ext ≠ "") (hnamed : named.toList = fileStem name.toList ++ '.' :: ext.toList)
    (hrelative : Text.startsWith named "/" = false) :
    withExtension (Text.join base name) ext = Text.join base named := by
  have hjoin := toList_join base (relative_of_isName h)
  have hsplit : ∀ c ∈ name.toList.reverse, decide (c ≠ '/') = true := by
    intro c hc
    rw [decide_eq_true_iff]
    rintro rfl
    exact h.separatorless (List.mem_reverse.mp hc)
  have hend : ((upTo base).reverse.takeWhile (· ≠ '/')) = [] ∧
      ((upTo base).reverse.dropWhile (· ≠ '/')) = (upTo base).reverse := by
    by_cases hbase : base = ""
    · simp [upTo, hbase]
    · obtain ⟨front, hupTo, -⟩ := upTo_eq hbase
      simp [hupTo]
  have hname : ¬ (name.toList = [] ∨ name.toList = ['.'] ∨ name.toList = ['.', '.']) := by
    rintro (hnil | hcur | hparent)
    · exact h.nonempty hnil
    · exact h.not_cur hcur
    · exact h.not_parent hparent
  apply String.toList_injective
  unfold withExtension
  rw [hjoin, List.reverse_append, trimEnd_name h]
  dsimp only
  rw [List.takeWhile_append_of_pos hsplit,
    List.dropWhile_append_of_pos hsplit, hend.1, hend.2, List.append_nil, List.reverse_reverse,
    List.reverse_reverse, if_neg hname, if_neg hext, toList_join base hrelative, hnamed,
    String.toList_ofList, List.append_assoc]

/-! ## Never climbing -/

/-- Relative, and at no point above where it started. -/
structure Stays (rel : List Component) : Prop where
  relative : .rootDir ∉ rel
  low : ∀ front, front <+: rel → front.count .parentDir ≤ front.countP Component.isNormal

instance (rel : List Component) : Decidable (Stays rel) :=
  decidable_of_iff
    (.rootDir ∉ rel ∧
      ∀ front ∈ rel.inits, front.count .parentDir ≤ front.countP Component.isNormal)
    ⟨fun h => ⟨h.1, fun front hfront => h.2 front ((List.mem_inits _ _).mpr hfront)⟩,
      fun h => ⟨h.relative, fun front hfront => h.low front ((List.mem_inits _ _).mp hfront)⟩⟩

/-- `path` is `base` followed by what never climbs above it. -/
def Inside (base path : String) : Prop :=
  ∃ rel, components path = components base ++ rel ∧ Stays rel

/-- A leading `.` neither climbs nor descends. -/
theorem stays_curDir_cons {rel : List Component} : Stays (.curDir :: rel) ↔ Stays rel := by
  constructor
  · intro h
    refine ⟨fun hroot => h.relative (List.mem_cons_of_mem _ hroot), fun front hfront => ?_⟩
    simpa [Component.isNormal] using
      h.low (.curDir :: front) (List.cons_prefix_cons.mpr ⟨rfl, hfront⟩)
  · intro h
    constructor
    · simpa using h.relative
    · intro front hfront
      rcases List.prefix_cons_iff.mp hfront with rfl | ⟨rest, rfl, hrest⟩
      · simp
      · simpa [Component.isNormal] using h.low rest hrest

theorem stays_components_iff {path : String} (h : Text.startsWith path "/" = false) :
    Stays (components path) ↔ Stays (body path.toList) := by
  unfold components lead
  split
  · rename_i rest hrest
    rw [(startsWith_slash_iff path).mpr ⟨rest, hrest⟩] at h
    cases h
  · exact stays_curDir_cons
  · exact stays_curDir_cons
  · rfl

/-- An absolute path does not stay below where it is joined. -/
theorem not_stays_of_absolute {path : String} (h : Text.startsWith path "/" = true) :
    ¬ Stays (components path) := by
  obtain ⟨rest, hrest⟩ := (startsWith_slash_iff path).mp h
  intro hstays
  apply hstays.relative
  simp [components, lead, hrest]

/-- **What a join stays inside of**: a relative path must not climb by itself, and an
absolute one must be inside by itself. -/
theorem inside_join_iff (base path : String) :
    Inside base (Text.join base path) ↔
      Stays (components path) ∨ Text.startsWith path "/" = true ∧ Inside base path := by
  by_cases habsolute : Text.startsWith path "/" = true
  · simp [join_absolute habsolute, habsolute, not_stays_of_absolute habsolute]
  · have hrelative : Text.startsWith path "/" = false := by simpa using habsolute
    have hjoin : Inside base (Text.join base path) ↔ Stays (components path) := by
      by_cases hbase : base = ""
      · subst hbase
        rw [empty_join, Inside]
        simp [components, lead]
      · rw [stays_components_iff hrelative, Inside, components_join hbase hrelative]
        simp
    rw [hjoin]
    simp [habsolute]

example : Inside "/run/rootfs" "/run/rootfs//./fw/../app.bin" := by
  refine ⟨[.normal "fw".toList, .parentDir, .normal "app.bin".toList], ?_, ?_⟩ <;> decide +kernel

end Path
end Runtt
