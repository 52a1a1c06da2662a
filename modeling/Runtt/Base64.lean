import Runtt.BitString

/-! # Base64

RFC 4648 with the standard alphabet and padding: the bits of the input in groups of six,
the last group filled up with zeros, one digit a group, and `=` up to a multiple of four
characters.  Decoding is strict: it accepts what encoding produces, and nothing else.
-/
namespace Base64

/-- The digit of a group. -/
def digit (v : BitVec 6) : UInt8 :=
  if v < 26 then 65 + v.toNat.toUInt8
  else if v < 52 then 71 + v.toNat.toUInt8
  else if v < 62 then v.toNat.toUInt8 - 4
  else if v = 62 then 43
  else 47

/-- The group of a digit. -/
def value (c : UInt8) : Option (BitVec 6) :=
  if 65 ≤ c ∧ c ≤ 90 then some (.ofNat 6 (c.toNat - 65))
  else if 97 ≤ c ∧ c ≤ 122 then some (.ofNat 6 (c.toNat - 71))
  else if 48 ≤ c ∧ c ≤ 57 then some (.ofNat 6 (c.toNat + 4))
  else if c = 43 then some 62
  else if c = 47 then some 63
  else none

/-- `=`. -/
def PAD : UInt8 := 61

theorem value_digit : ∀ v, value (digit v) = some v := by decide +kernel

theorem digit_injective : Function.Injective digit := fun v v' h =>
  Option.some.inj (by rw [← value_digit v, h, value_digit])

theorem digit_ne_pad (v : BitVec 6) : digit v ≠ PAD := by
  intro h
  have hv := value_digit v
  rw [h] at hv
  cases hv

/-- Six bits from position `6 * i` on, zeros where there are none. -/
def group (bits : List Bool) (i : Nat) : BitVec 6 :=
  .ofBoolListBE [bits.getD (6 * i) false, bits.getD (6 * i + 1) false, bits.getD (6 * i + 2) false,
    bits.getD (6 * i + 3) false, bits.getD (6 * i + 4) false, bits.getD (6 * i + 5) false]

theorem getMsbD_group (bits : List Bool) (i : Nat) {k : Nat} (hk : k < 6) :
    (group bits i).getMsbD k = bits.getD (6 * i + k) false := by
  rw [group, BitVec.getMsbD_ofBoolListBE]
  interval_cases k <;> rfl

/-- How many digits `n` bytes take. -/
def digits (n : Nat) : Nat := (8 * n + 5) / 6

/-- How many `=` follow them. -/
def pads (n : Nat) : Nat := (3 - n % 3) % 3

def encode (d : List UInt8) : List UInt8 :=
  (List.range (digits d.length)).map (fun i => digit (group (BitString.ofBytes d) i)) ++
    List.replicate (pads d.length) PAD

theorem length_encode (d : List UInt8) : (encode d).length = 4 * ((d.length + 2) / 3) := by
  simp only [encode, List.length_append, List.length_map, List.length_range, List.length_replicate,
    digits, pads]
  omega

theorem getElem?_encode_digit {d : List UInt8} {i : Nat} (hi : i < digits d.length) :
    (encode d)[i]? = some (digit (group (BitString.ofBytes d) i)) := by
  rw [encode, List.getElem?_append_left (by simpa using hi), List.getElem?_map,
    List.getElem?_range hi]
  rfl

/-- **What a character says.**  Where two encodings have the same digit, their inputs have
the same bits. -/
theorem bit_eq_of_encode {d d' : List UInt8} {j : Nat} (hj : j < 8 * d.length)
    (hj' : j < 8 * d'.length) (h : (encode d)[j / 6]? = (encode d')[j / 6]?) :
    (BitString.ofBytes d)[j]? = (BitString.ofBytes d')[j]? := by
  have hi : j / 6 < digits d.length := by
    unfold digits
    omega
  have hi' : j / 6 < digits d'.length := by
    unfold digits
    omega
  rw [getElem?_encode_digit hi, getElem?_encode_digit hi'] at h
  have hgroup := congrArg (·.getMsbD (j % 6)) (digit_injective (Option.some.inj h))
  simp only [getMsbD_group _ _ (Nat.mod_lt j (by decide)), Nat.div_add_mod] at hgroup
  have hbits (d : List UInt8) (hj : j < 8 * d.length) : (BitString.ofBytes d)[j]? =
      some ((BitString.ofBytes d).getD j false) := by
    have hlen : j < (BitString.ofBytes d).length := by rwa [BitString.length_ofBytes]
    rw [List.getD_eq_getElem _ _ hlen, List.getElem?_eq_getElem hlen]
  rw [hbits d hj, hbits d' hj', hgroup]

/-- Inputs whose encodings agree up to byte `k` agree up to byte `k`. -/
theorem take_eq_of_encode {d d' : List UInt8} {k : Nat} (hk : k ≤ d.length) (hk' : k ≤ d'.length)
    (h : ∀ i, 6 * i < 8 * k → (encode d)[i]? = (encode d')[i]?) : d.take k = d'.take k := by
  apply List.ext_getElem?
  intro j
  by_cases hj : j < k
  · rw [List.getElem?_take_of_lt hj, List.getElem?_take_of_lt hj]
    refine BitString.getElem?_eq_of_bits (by omega) (by omega) ?_
    intro i hi
    exact bit_eq_of_encode (by omega) (by omega) (h _ (by omega))
  · rw [List.getElem?_take_eq_none (by omega), List.getElem?_take_eq_none (by omega)]

/-- A shorter text is that of fewer bytes. -/
theorem length_lt_of_encode {d d' : List UInt8} (h : (encode d).length < (encode d').length) :
    d.length < d'.length := by
  rw [length_encode, length_encode] at h
  omega

/-- The characters of an encoding. -/
theorem mem_encode {d : List UInt8} {c : UInt8} (h : c ∈ encode d) : value c ≠ none ∨ c = PAD := by
  rcases List.mem_append.mp h with h | h
  · obtain ⟨i, -, rfl⟩ := List.mem_map.mp h
    rw [value_digit]
    exact .inl nofun
  · exact .inr (List.eq_of_mem_replicate h)

/-- Bit `j` of a text's digits. -/
def bitAt (t : List UInt8) (j : Nat) : Bool :=
  ((t[j / 6]?.bind value).getD 0).getMsbD (j % 6)

/-- The bytes whole in a text's digits. -/
def bytes (t : List UInt8) : List UInt8 :=
  (List.range ((t.length - t.count PAD) * 6 / 8)).map fun k =>
    BitString.toByte fun i => bitAt t (8 * k + i)

/-- Strict decoding: the text must be what its bytes encode to. -/
def decode (t : List UInt8) : Option (List UInt8) :=
  if encode (bytes t) = t then some (bytes t) else none

theorem count_pad_encode (d : List UInt8) : (encode d).count PAD = pads d.length := by
  rw [encode, List.count_append, List.count_replicate_self, List.count_eq_zero.mpr, Nat.zero_add]
  intro h
  obtain ⟨i, -, hi⟩ := List.mem_map.mp h
  exact digit_ne_pad _ hi

theorem bytes_encode (d : List UInt8) : bytes (encode d) = d := by
  have hlen : ((encode d).length - (encode d).count PAD) * 6 / 8 = d.length := by
    rw [length_encode, count_pad_encode, pads]
    omega
  have hbytes : (bytes (encode d)).length = d.length := by
    rw [bytes, List.length_map, List.length_range, hlen]
  apply List.ext_getElem hbytes
  intro k hk hk'
  simp only [bytes, List.getElem_map, List.getElem_range]
  apply BitString.byte_ext
  intro i hi
  have hdigit : (8 * k + i) / 6 < digits d.length := by
    unfold digits
    omega
  rw [BitString.getMsbD_toByte _ hi, bitAt, getElem?_encode_digit hdigit, Option.bind_some,
    value_digit, Option.getD_some, getMsbD_group _ _ (Nat.mod_lt _ (by decide)), Nat.div_add_mod,
    List.getD_eq_getElem?_getD, BitString.getElem?_ofBytes]
  have hdiv : (8 * k + i) / 8 = k := by omega
  have hmod : (8 * k + i) % 8 = i := by omega
  rw [hdiv, hmod, List.getElem?_eq_getElem hk']
  rfl

/-- **Decoding accepts exactly the encodings.** -/
theorem decode_eq_some_iff {t d : List UInt8} : decode t = some d ↔ encode d = t := by
  unfold decode
  constructor
  · intro h
    split at h
    · rename_i ht
      cases h
      exact ht
    · cases h
  · rintro rfl
    rw [bytes_encode, if_pos rfl]

/-- The test vectors of the standard that need padding. -/
example : encode [102] = [90, 103, 61, 61] ∧ decode [90, 109, 56, 61] = some [102, 111] ∧
    decode [90, 104, 61, 61] = none := by decide +kernel

end Base64
