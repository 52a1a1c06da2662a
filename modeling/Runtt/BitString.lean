import Mathlib.Data.List.GetD
import Mathlib.Tactic.IntervalCases

/-! # Bytes as bits

A byte string is a bit string, eight bits a byte and the most significant first: the
order in which text encodings cut it and checksums consume it.
-/
namespace BitString

/-- The bits of a byte, most significant first. -/
def ofByte (b : UInt8) : List Bool := (List.range 8).map b.toBitVec.getMsbD

/-- The bits of a byte string. -/
def ofBytes (d : List UInt8) : List Bool := d.flatMap ofByte

/-- The byte whose bits are `f 0` to `f 7`. -/
def toByte (f : Nat → Bool) : UInt8 :=
  ⟨BitVec.ofBoolListBE [f 0, f 1, f 2, f 3, f 4, f 5, f 6, f 7]⟩

@[simp] theorem length_ofByte (b : UInt8) : (ofByte b).length = 8 := rfl

@[simp] theorem length_ofBytes (d : List UInt8) : (ofBytes d).length = 8 * d.length := by
  induction d with
  | nil => rfl
  | cons b d ih =>
    rw [ofBytes, List.flatMap_cons, List.length_append, ← ofBytes, ih, length_ofByte,
      List.length_cons]
    omega

@[simp] theorem ofBytes_nil : ofBytes [] = [] := rfl

theorem ofBytes_cons (b : UInt8) (d : List UInt8) : ofBytes (b :: d) = ofByte b ++ ofBytes d := rfl

@[simp] theorem ofBytes_append (d d' : List UInt8) :
    ofBytes (d ++ d') = ofBytes d ++ ofBytes d' := List.flatMap_append

theorem getElem?_ofByte (b : UInt8) {i : Nat} (hi : i < 8) :
    (ofByte b)[i]? = some (b.toBitVec.getMsbD i) := by
  simp [ofByte, hi]

/-- Bit `j` lies in byte `j / 8`. -/
theorem getElem?_ofBytes (d : List UInt8) (j : Nat) :
    (ofBytes d)[j]? = d[j / 8]?.map fun b => b.toBitVec.getMsbD (j % 8) := by
  induction d generalizing j with
  | nil => simp
  | cons b d ih =>
    rw [ofBytes_cons]
    by_cases hj : j < 8
    · rw [List.getElem?_append_left (by rwa [length_ofByte]), getElem?_ofByte b hj,
        Nat.div_eq_of_lt hj, Nat.mod_eq_of_lt hj]
      rfl
    · obtain ⟨k, rfl⟩ := Nat.exists_eq_add_of_le (Nat.le_of_not_lt hj)
      rw [List.getElem?_append_right (by rw [length_ofByte]; omega), length_ofByte,
        Nat.add_sub_cancel_left, ih]
      have hdiv : (8 + k) / 8 = k / 8 + 1 := by omega
      have hmod : (8 + k) % 8 = k % 8 := by omega
      rw [hdiv, hmod, List.getElem?_cons_succ]

/-- Two bytes in front move every bit sixteen on. -/
theorem getElem?_ofBytes_tail (b b' : UInt8) (d : List UInt8) (j : Nat) :
    (ofBytes d)[j]? = (ofBytes (b :: b' :: d))[j + 16]? := by
  have hsplit : b :: b' :: d = [b, b'] ++ d := rfl
  rw [hsplit, ofBytes_append, List.getElem?_append_right (by simp)]
  simp

/-- Bytes with the same bits are the same byte. -/
theorem byte_ext {b b' : UInt8} (h : ∀ i, i < 8 → b.toBitVec.getMsbD i = b'.toBitVec.getMsbD i) :
    b = b' :=
  UInt8.toBitVec_inj.mp (BitVec.eq_of_getMsbD_eq h)

theorem getMsbD_toByte (f : Nat → Bool) {i : Nat} (hi : i < 8) :
    (toByte f).toBitVec.getMsbD i = f i := by
  rw [toByte, BitVec.getMsbD_ofBoolListBE]
  interval_cases i <;> rfl

/-- **Byte strings of one length that agree on every bit of a range of bytes agree on
those bytes.** -/
theorem getElem?_eq_of_bits {d d' : List UInt8} {k : Nat} (hk : k < d.length) (hk' : k < d'.length)
    (h : ∀ i, i < 8 → (ofBytes d)[8 * k + i]? = (ofBytes d')[8 * k + i]?) : d[k]? = d'[k]? := by
  rw [List.getElem?_eq_getElem hk, List.getElem?_eq_getElem hk']
  refine congrArg some (byte_ext ?_)
  intro i hi
  have hbit := h i hi
  have hdiv : (8 * k + i) / 8 = k := by omega
  have hmod : (8 * k + i) % 8 = i := by omega
  rw [getElem?_ofBytes, getElem?_ofBytes, hdiv, hmod, List.getElem?_eq_getElem hk,
    List.getElem?_eq_getElem hk'] at hbit
  exact Option.some.inj hbit

theorem ofBytes_injective : Function.Injective ofBytes := by
  intro d d' h
  have hlen : d.length = d'.length := by
    have := congrArg List.length h
    rw [length_ofBytes, length_ofBytes] at this
    omega
  apply List.ext_getElem?
  intro k
  by_cases hk : k < d.length
  · exact getElem?_eq_of_bits hk (hlen ▸ hk) fun i _ => by rw [h]
  · rw [List.getElem?_eq_none (by omega), List.getElem?_eq_none (by omega)]

end BitString
