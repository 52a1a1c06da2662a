import Mathlib.Data.List.GetD

/-! # Shift registers

A register of `w` bits that takes in a bit string: at each bit it shifts left, and
where the bit that falls out differs from the bit that comes in, it takes on the
generator `g`.  This is division by `x ^ w + g`, and with `w` zeros in mind after the
input it is a cyclic redundancy check without reflection or final xor.

The generators of interest have a constant term, `g.getLsbD 0 = true`.  Then a step can
be undone, and two inputs that differ only within a window of `w` bits end in different
registers (`run_ne_of_window`).
-/
namespace ShiftRegister

variable {w : Nat} (g : BitVec w)

/-- One bit. -/
def step (r : BitVec w) (b : Bool) : BitVec w :=
  r <<< 1 ^^^ (if r.msb ^^ b then g else 0#w)

/-- A bit string. -/
def run (bits : List Bool) (r : BitVec w) : BitVec w := bits.foldl (step g) r

variable {g} {r r' : BitVec w}

@[simp] theorem run_nil : run g [] r = r := rfl

@[simp] theorem run_cons {b : Bool} {bits : List Bool} :
    run g (b :: bits) r = run g bits (step g r b) := rfl

@[simp] theorem run_append {bits bits' : List Bool} :
    run g (bits ++ bits') r = run g bits' (run g bits r) := List.foldl_append

theorem getMsbD_step {b : Bool} {i : Nat} :
    (step g r b).getMsbD i = (r.getMsbD (i + 1) ^^ ((r.msb ^^ b) && g.getMsbD i)) := by
  rw [step, BitVec.getMsbD_xor, BitVec.getMsbD_shiftLeft]
  split <;> rename_i h <;> simp [h]

/-- The last bit of a register after a step is the bit that was fed back. -/
theorem getMsbD_step_last (hg : g.getLsbD 0 = true) {b : Bool} :
    (step g r b).getMsbD (w - 1) = (r.msb ^^ b) := by
  have hw : 0 < w := by
    rcases Nat.eq_zero_or_pos w with rfl | hw
    · simp at hg
    · exact hw
  have hlast : g.getMsbD (w - 1) = true := by
    rw [BitVec.getMsbD_eq_getLsbD, Nat.sub_self, hg, Bool.and_true, decide_eq_true_eq]
    omega
  rw [getMsbD_step, hlast, Nat.sub_add_cancel hw, BitVec.getMsbD_of_ge _ _ (Nat.le_refl w),
    Bool.false_xor, Bool.and_true]

/-- **Undoing a run.**  Where two registers come to the same end on at most `w` bits
each, they differed by what came in. -/
theorem xor_eq_of_run_eq (hg : g.getLsbD 0 = true) {bits bits' : List Bool}
    (hlen : bits.length = bits'.length) (hw : bits.length ≤ w)
    (h : run g bits r = run g bits' r') {i : Nat} (hi : i < w) :
    (r.getMsbD i ^^ bits.getD i false) = (r'.getMsbD i ^^ bits'.getD i false) := by
  induction bits generalizing bits' r r' i with
  | nil =>
    cases bits' with
    | nil => rw [show r = r' from h]
    | cons b' bits' => cases hlen
  | cons b bits ih =>
    cases bits' with
    | nil => cases hlen
    | cons b' bits' =>
      have hlen' : bits.length = bits'.length := Nat.succ.inj hlen
      have hshort : bits.length < w := hw
      have hafter {k : Nat} (hk : k < w) := ih hlen' (Nat.le_of_lt hshort) h hk
      -- past the end of the rest, the two registers agree: so the fed back bits do
      have hfed : (r.msb ^^ b) = (r'.msb ^^ b') := by
        have hend := hafter (k := w - 1) (by omega)
        rw [getMsbD_step_last hg, getMsbD_step_last hg,
          List.getD_eq_default _ _ (show bits.length ≤ w - 1 by omega),
          List.getD_eq_default _ _ (show bits'.length ≤ w - 1 by omega),
          Bool.xor_false, Bool.xor_false] at hend
        exact hend
      cases i with
      | zero =>
        rw [← BitVec.msb_eq_getMsbD_zero, ← BitVec.msb_eq_getMsbD_zero]
        exact hfed
      | succ i =>
        have hnext := hafter (k := i) (by omega)
        rw [getMsbD_step, getMsbD_step, hfed] at hnext
        rw [List.getD_cons_succ, List.getD_cons_succ]
        revert hnext
        cases r.getMsbD (i + 1) <;> cases r'.getMsbD (i + 1) <;> cases bits.getD i false <;>
          cases bits'.getD i false <;> cases ((r'.msb ^^ b') && g.getMsbD i) <;> decide

/-- A run can be undone. -/
theorem run_injective (hg : g.getLsbD 0 = true) (bits : List Bool) :
    Function.Injective (run g bits) := by
  induction bits with
  | nil => exact Function.injective_id
  | cons b bits ih =>
    intro r r' h
    have hstep : run g [b] r = run g [b] r' := ih h
    apply BitVec.eq_of_getMsbD_eq
    intro i hi
    have hbit : (r.getMsbD i ^^ [b].getD i false) = (r'.getMsbD i ^^ [b].getD i false) :=
      xor_eq_of_run_eq hg rfl (by simp; omega) hstep hi
    exact Bool.xor_left_inj.mp hbit

/-- Different windows from one register end in different registers. -/
theorem window_injective (hg : g.getLsbD 0 = true) {bits bits' : List Bool}
    (hlen : bits.length = bits'.length) (hw : bits.length ≤ w)
    (h : run g bits r = run g bits' r) : bits = bits' := by
  apply List.ext_getElem hlen
  intro i hi hi'
  have hbit := Bool.xor_right_inj.mp (xor_eq_of_run_eq hg hlen hw h (Nat.lt_of_lt_of_le hi hw))
  rwa [List.getD_eq_getElem _ _ hi, List.getD_eq_getElem _ _ hi'] at hbit

/-- **Every burst is seen.**  Inputs that differ, and only within a window of at most `w`
bits, end in different registers. -/
theorem run_ne_of_window (hg : g.getLsbD 0 = true) {bits bits' : List Bool} {a n : Nat}
    (hlen : bits.length = bits'.length) (hn : n ≤ w) (hne : bits ≠ bits')
    (hout : ∀ j, j < a ∨ a + n ≤ j → bits[j]? = bits'[j]?) :
    run g bits r ≠ run g bits' r := by
  have hbefore : bits.take a = bits'.take a := by
    apply List.ext_getElem?
    intro j
    by_cases hj : j < a
    · rw [List.getElem?_take_of_lt hj, List.getElem?_take_of_lt hj, hout j (.inl hj)]
    · rw [List.getElem?_take_eq_none (by omega), List.getElem?_take_eq_none (by omega)]
  have hafter : bits.drop (a + n) = bits'.drop (a + n) := by
    apply List.ext_getElem?
    intro j
    rw [List.getElem?_drop, List.getElem?_drop, hout _ (.inr (by omega))]
  have hsplit (l : List Bool) : l = l.take a ++ ((l.drop a).take n ++ l.drop (a + n)) := by
    rw [← List.drop_drop, List.take_append_drop, List.take_append_drop]
  intro h
  rw [hsplit bits, hsplit bits', hbefore, hafter, run_append, run_append, run_append,
    run_append] at h
  have hwindow := window_injective hg (by simp [hlen]) (by simp; omega) (run_injective hg _ h)
  refine hne ?_
  rw [hsplit bits, hsplit bits', hbefore, hafter, hwindow]

/-- A register that takes in its own bits is empty. -/
theorem run_own {bits : List Bool} (hw : bits.length ≤ w)
    (h : ∀ i, i < bits.length → bits.getD i false = r.getMsbD i) :
    run g bits r = r <<< bits.length := by
  induction bits generalizing r with
  | nil => simp
  | cons b bits ih =>
    have hb : b = r.msb := by
      rw [BitVec.msb_eq_getMsbD_zero]
      exact h 0 (Nat.succ_pos _)
    have hstep : step g r b = r <<< 1 := by
      rw [step, hb, Bool.xor_self]
      simp
    rw [run_cons, hstep, ih (Nat.le_of_succ_le hw), ← BitVec.shiftLeft_add, List.length_cons,
      Nat.add_comm]
    intro i hi
    rw [BitVec.getMsbD_shiftLeft]
    exact h (i + 1) (Nat.succ_lt_succ hi)

/-- **The check.**  After `w` more bits the register is empty exactly when those bits are
the register's own. -/
theorem run_eq_zero_iff (hg : g.getLsbD 0 = true) {bits : List Bool} (hlen : bits.length = w) :
    run g bits r = 0#w ↔ ∀ i, i < w → bits.getD i false = r.getMsbD i := by
  constructor
  · intro h i hi
    have hown : run g (List.replicate w false) 0#w = 0#w := by
      rw [run_own (by simp) fun i hi => by simp at hi; simp [hi]]
      simp
    have hbit := xor_eq_of_run_eq hg (by simp [hlen]) (Nat.le_of_eq hlen) (h.trans hown.symm) hi
    rw [BitVec.getMsbD_zero, List.getD_replicate _ hi, Bool.xor_false] at hbit
    revert hbit
    cases r.getMsbD i <;> cases bits.getD i false <;> decide
  · intro h
    rw [run_own (Nat.le_of_eq hlen) (fun i hi => h i (hlen ▸ hi)), hlen]
    simp

end ShiftRegister
