import Mathlib.Data.List.Basic

/-! # Streams of lines

A stream whose lines each end with a separator: the complete lines of it, and what has
come in since the last separator.
-/
namespace LineStream

variable {α : Type} (sep : α)

/-- The stream of some lines. -/
def terminated (ls : List (List α)) : List α := ls.flatMap (· ++ [sep])

@[simp] theorem terminated_nil : terminated sep [] = [] := rfl

@[simp] theorem terminated_cons {l : List α} {ls : List (List α)} :
    terminated sep (l :: ls) = l ++ sep :: terminated sep ls := by
  simp [terminated]

variable [DecidableEq α]

/-- The complete lines after a start `line` of the first one. -/
def linesFrom (line : List α) : List α → List (List α)
  | [] => []
  | b :: s => if b = sep then line :: linesFrom [] s else linesFrom (line ++ [b]) s

/-- The complete lines of a stream, without their separators. -/
def lines (s : List α) : List (List α) := linesFrom sep [] s

/-- What is open after a start `line` of the first one. -/
def openFrom (line s : List α) : List α :=
  s.foldl (fun line b => if b = sep then [] else line ++ [b]) line

/-- What a stream has said since its last separator. -/
def openLine (s : List α) : List α :=
  s.foldl (fun line b => if b = sep then [] else line ++ [b]) []

variable {sep}

theorem linesFrom_append {l line s : List α} (hl : sep ∉ l) :
    linesFrom sep line (l ++ s) = linesFrom sep (line ++ l) s := by
  induction l generalizing line with
  | nil => simp
  | cons b l ih =>
    obtain ⟨hb, hl⟩ := not_or.mp (mt List.mem_cons.mpr hl)
    rw [List.cons_append, linesFrom, if_neg (Ne.symm hb), ih hl, List.append_assoc]
    rfl

theorem openFrom_sep {line s : List α} : openFrom sep line (sep :: s) = openFrom sep [] s := by
  rw [openFrom, List.foldl_cons, if_pos rfl, openFrom]

theorem openFrom_cons {line s : List α} {b : α} (hb : b ≠ sep) :
    openFrom sep line (b :: s) = openFrom sep (line ++ [b]) s := by
  rw [openFrom, List.foldl_cons, if_neg hb, openFrom]

/-- A stream in two pieces. -/
theorem linesFrom_append_stream {line s s' : List α} :
    linesFrom sep line (s ++ s') =
      linesFrom sep line s ++ linesFrom sep (openFrom sep line s) s' := by
  induction s generalizing line with
  | nil => rfl
  | cons b s ih =>
    by_cases hb : b = sep
    · subst hb
      rw [List.cons_append, linesFrom, if_pos rfl, ih, linesFrom, if_pos rfl, openFrom_sep]
      rfl
    · rw [List.cons_append, linesFrom, if_neg hb, ih, linesFrom, if_neg hb, openFrom_cons hb]

theorem openFrom_append {line s s' : List α} :
    openFrom sep line (s ++ s') = openFrom sep (openFrom sep line s) s' :=
  List.foldl_append

/-- One line ends at each separator. -/
theorem length_linesFrom (line s : List α) : (linesFrom sep line s).length = s.count sep := by
  induction s generalizing line with
  | nil => rfl
  | cons b s ih =>
    by_cases hb : b = sep
    · subst hb
      rw [linesFrom, if_pos rfl, List.length_cons, ih, List.count_cons_self]
    · rw [linesFrom, if_neg hb, ih, List.count_cons_of_ne hb]

/-- What stands before a stream is in front of its first line, which may stay open. -/
theorem linesFrom_behind (pre line s : List α) :
    (linesFrom sep line s = [] ∧ linesFrom sep (pre ++ line) s = [] ∧
        openFrom sep (pre ++ line) s = pre ++ openFrom sep line s) ∨
      ∃ l ls, linesFrom sep line s = l :: ls ∧ linesFrom sep (pre ++ line) s = (pre ++ l) :: ls ∧
        openFrom sep (pre ++ line) s = openFrom sep line s := by
  induction s generalizing line with
  | nil => exact .inl ⟨rfl, rfl, rfl⟩
  | cons b s ih =>
    by_cases hb : b = sep
    · subst hb
      refine .inr ⟨line, linesFrom b [] s, ?_, ?_, ?_⟩
      · rw [linesFrom, if_pos rfl]
      · rw [linesFrom, if_pos rfl]
      · rw [openFrom_sep, openFrom_sep]
    · rw [linesFrom, if_neg hb, linesFrom, if_neg hb, openFrom_cons hb, openFrom_cons hb,
        List.append_assoc]
      exact ih (line ++ [b])

theorem notMem_of_mem_linesFrom {line s l : List α} (hline : sep ∉ line)
    (h : l ∈ linesFrom sep line s) : sep ∉ l := by
  induction s generalizing line with
  | nil => cases h
  | cons b s ih =>
    by_cases hb : b = sep
    · rw [linesFrom, if_pos hb] at h
      rcases List.mem_cons.mp h with rfl | h
      · exact hline
      · exact ih List.not_mem_nil h
    · rw [linesFrom, if_neg hb] at h
      refine ih ?_ h
      rw [List.mem_append, List.mem_singleton]
      exact not_or.mpr ⟨hline, Ne.symm hb⟩

theorem notMem_of_mem_lines {s l : List α} (h : l ∈ lines sep s) : sep ∉ l :=
  notMem_of_mem_linesFrom List.not_mem_nil h

/-- **Lines without a separator in them come back as they were sent.** -/
theorem lines_terminated {ls : List (List α)} (h : ∀ l ∈ ls, sep ∉ l) :
    lines sep (terminated sep ls) = ls := by
  unfold lines
  induction ls with
  | nil => rfl
  | cons l ls ih =>
    obtain ⟨hl, hls⟩ := List.forall_mem_cons.mp h
    rw [terminated_cons, linesFrom_append hl, linesFrom, if_pos rfl, ih hls, List.nil_append]

theorem openLine_append {l s : List α} (hl : sep ∉ l) (hs : openLine sep s = []) :
    openLine sep (s ++ l) = l := by
  have hfold (line : List α) :
      l.foldl (fun line b => if b = sep then [] else line ++ [b]) line = line ++ l := by
    induction l generalizing line with
    | nil => simp
    | cons b l ih =>
      obtain ⟨hb, hl⟩ := not_or.mp (mt List.mem_cons.mpr hl)
      rw [List.foldl_cons, if_neg (Ne.symm hb), ih hl, List.append_assoc]
      rfl
  rw [openLine] at hs ⊢
  rw [List.foldl_append, hs, hfold, List.nil_append]

theorem openLine_terminated {s : List α} {ls : List (List α)} (hs : openLine sep s = []) :
    openLine sep (s ++ terminated sep ls) = [] := by
  induction ls generalizing s with
  | nil => simpa using hs
  | cons l ls ih =>
    have hline : openLine sep (s ++ (l ++ [sep])) = [] := by
      rw [openLine, ← List.append_assoc, List.foldl_append, List.foldl_cons, if_pos rfl,
        List.foldl_nil]
    rw [terminated_cons, ← ih hline]
    simp

/-- **Where a byte of the stream that is no separator lies**: in one line, behind what is
open before it. -/
theorem mem_line_of_split {ls : List (List α)} (h : ∀ l ∈ ls, sep ∉ l) {pre post : List α} {c : α}
    (hc : c ≠ sep) (hsplit : terminated sep ls = pre ++ c :: post) :
    ∃ before head tail after, ls = before ++ (head ++ c :: tail) :: after ∧
      pre = terminated sep before ++ head ∧ post = tail ++ sep :: terminated sep after ∧
      openLine sep pre = head := by
  induction ls generalizing pre with
  | nil => simp at hsplit
  | cons l ls ih =>
    obtain ⟨hl, hls⟩ := List.forall_mem_cons.mp h
    rw [terminated_cons] at hsplit
    rcases List.append_eq_append_iff.mp hsplit with ⟨as, hpre, hpost⟩ | ⟨bs, rfl, hpost⟩
    · cases as with
      | nil => exact absurd (List.cons.inj hpost).1.symm hc
      | cons a as =>
        -- a later line
        replace hpost := List.cons.inj hpost
        obtain ⟨rfl, hpost⟩ := hpost
        obtain ⟨before, head, tail, after, rfl, rfl, rfl, -⟩ := ih hls hpost
        refine ⟨l :: before, head, tail, after, rfl, by simp [hpre], rfl, ?_⟩
        have hhead : sep ∉ head := by
          have := hls (head ++ c :: tail) (by simp)
          simp only [List.mem_append, not_or] at this
          exact this.1
        have hbefore : openLine sep ([] ++ terminated sep (l :: before)) = [] :=
          openLine_terminated rfl
        simpa [hpre] using openLine_append hhead hbefore
    · cases bs with
      | nil => exact absurd (List.cons.inj hpost).1 hc
      | cons b bs =>
        -- this line
        obtain ⟨rfl, rfl⟩ := List.cons.inj hpost
        refine ⟨[], pre, bs, ls, rfl, rfl, rfl, ?_⟩
        simp only [List.mem_append, not_or] at hl
        exact openLine_append (s := []) hl.1 rfl

end LineStream
