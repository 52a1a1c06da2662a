import Runtt.LabelChecks
import Runtt.SameBoard

/-! # Node ids on both sides

`make-identity.py` writes the node id of a CAN board into its record, and a `can:` label names
it to the runtime.  The script reads the number with Python's `int`, the runtime with
`u32::from_str_radix`, and neither accepts all that the other does: `int` takes underscores,
`-0` and the digits of other scripts, the runtime takes a plus sign behind `0x` and white space
before it.

Where both read a number off one text it is the same number, and the numbers that can be
written into a record are those that a label can name.
-/
namespace Runtt
namespace Provision

def MAX_STD_ID : Nat := 0x7FF
def IDS_PER_NODE : Nat := 3
def MAX_NODE_ID : Nat := MAX_STD_ID - (IDS_PER_NODE - 1)

/-- What Python knows of the characters of a numeral beyond ASCII, and how many digits of one
it reads. -/
structure NumeralTables extends UnicodeTables where
  /-- The value of a decimal digit. -/
  digitOf : Char → Option (Fin 10)
  space : Char → Bool
  /-- `sys.get_int_max_str_digits()`. -/
  maxStrDigits : Option Nat
  digitOf_space : ∀ c, Text.isWhiteSpace c = true → digitOf c = none

/-- The character as `int` looks at it. -/
def NumeralTables.toAscii (u : NumeralTables) (c : Char) : Char :=
  if c.toNat < 127 then c
  else if u.space c then ' '
  else
    match u.digitOf c with
    | some d => Nat.digitChar d
    | none => '?'

/-- What `int` skips around a numeral. -/
def isSpace (c : Char) : Bool := (9 ≤ c.toNat && c.toNat ≤ 13) || c.toNat == 32

def strip (cs : List Char) : List Char := (cs.dropWhile isSpace).rdropWhile isSpace

/-- Behind a digit, digits with single underscores before them. -/
def moreDigits (base : Nat) : Nat → List Char → Option Nat
  | n, [] => some n
  | n, '_' :: c :: cs => do moreDigits base (n * base + (← Text.toDigit base c)) cs
  | n, c :: cs => do moreDigits base (n * base + (← Text.toDigit base c)) cs

def readDigits (base : Nat) : List Char → Option Nat
  | [] => none
  | c :: cs => do moreDigits base (← Text.toDigit base c) cs

/-- An underscore may follow the `0x` that base 16 allows. -/
def behindPrefix : List Char → List Char
  | '0' :: x :: cs =>
    if x = 'x' ∨ x = 'X' then
      match cs with
      | '_' :: cs => cs
      | cs => cs
    else '0' :: x :: cs
  | cs => cs

/-- A sign, and what is behind it. -/
def splitSign : List Char → Bool × List Char
  | '-' :: cs => (true, cs)
  | '+' :: cs => (false, cs)
  | cs => (false, cs)

/-- The numeral is longer than `int` reads.  There is no limit for base 16. -/
def NumeralTables.tooLong (u : NumeralTables) (base : Nat) (cs : List Char) : Bool :=
  base != 16 && u.maxStrDigits.any fun most => decide (most < (cs.filter (· ≠ '_')).length)

/-- What is behind the sign and the prefix. -/
def digitsPart (base : Nat) (cs : List Char) : List Char :=
  if base = 16 then behindPrefix (splitSign cs).2 else (splitSign cs).2

/-- `int`, of what is left between the spaces. -/
def readLiteral (u : NumeralTables) (base : Nat) (cs : List Char) : Option Int :=
  if u.tooLong base (digitsPart base cs) then none
  else
    (readDigits base (digitsPart base cs)).map fun (n : Nat) =>
      if (splitSign cs).1 then -(n : Int) else n

/-- `int(text, base)`, for bases 10 and 16. -/
def pyInt (u : NumeralTables) (base : Nat) (text : String) : Option Int :=
  readLiteral u base (strip (text.toList.map u.toAscii))

/-- `text.lower().startswith("0x")`. -/
def isHex (text : String) : Bool :=
  match text.toList with
  | '0' :: x :: _ => x == 'x' || x == 'X'
  | _ => false

/-- `{value:#x}`. -/
def pyHex (value : Int) : String :=
  if value < 0 then "-" ++ Text.hexNumber value.natAbs else Text.hexNumber value.natAbs

/-- `parse_id`. -/
def parseId (u : NumeralTables) (text : String) : Except Error Nat :=
  match if isHex text then pyInt u 16 text else pyInt u 10 text with
  | none =>
    .error [s!"CAN node id {pyRepr u.toUnicodeTables text} is not a number; expected e.g. " ++
      "0x42 or 66"]
  | some value =>
    if value < 0 ∨ (MAX_NODE_ID : Int) < value then
      .error [s!"CAN node id {pyRepr u.toUnicodeTables text} ({pyHex value}) is out of range. " ++
        "A node owns three consecutive ids -- requests, replies on +1, console on +2 -- and " ++
        "only standard 11-bit identifiers are used, so the ceiling is " ++
        s!"{pyHex MAX_NODE_ID}."]
    else .ok value.toNat

/-- The node id of a record. -/
def nodeField (record : Bytes) : Nat := (record.getD 8 0).toNat + 256 * (record.getD 9 0).toNat

/-! ## Digits

A run of digits that `from_str_radix` reads is read by `int` alike; what else `int` reads is
digits with underscores between them. -/

theorem moreDigits_cons {base n : Nat} {c : Char} (hc : c ≠ '_') (cs : List Char) :
    moreDigits base n (c :: cs) =
      (Text.toDigit base c).bind fun d => moreDigits base (n * base + d) cs := by
  rw [moreDigits]
  · rfl
  · intro _ _ hunderscore
    exact absurd hunderscore hc

theorem toDigit_underscore (base : Nat) : Text.toDigit base '_' = none := rfl

theorem toDigit_plus (base : Nat) : Text.toDigit base '+' = none := rfl

theorem toDigit_minus (base : Nat) : Text.toDigit base '-' = none := rfl

theorem ne_of_toDigit {base d : Nat} {c c' : Char} (hc : Text.toDigit base c = some d)
    (hc' : Text.toDigit base c' = none) : c ≠ c' := by
  rintro rfl
  rw [hc'] at hc
  cases hc

/-- The step of `digitsValue` from no value. -/
theorem foldl_none (base : Nat) (cs : List Char) :
    cs.foldl (fun acc c => do return (← acc) * base + (← Text.toDigit base c)) none = none := by
  induction cs with
  | nil => rfl
  | cons c cs ih => exact ih

theorem moreDigits_of_foldl {base : Nat} {cs : List Char} {n v : Nat}
    (h : cs.foldl (fun acc c => do return (← acc) * base + (← Text.toDigit base c)) (some n) =
      some v) : moreDigits base n cs = some v ∧ ∀ c ∈ cs, (Text.toDigit base c).isSome := by
  induction cs generalizing n with
  | nil => exact ⟨h, fun c hc => by cases hc⟩
  | cons c cs ih =>
    rw [List.foldl_cons] at h
    cases hdigit : Text.toDigit base c with
    | none =>
      simp only [hdigit, Option.bind_eq_bind, Option.bind_some, Option.bind_none] at h
      cases h.symm.trans (foldl_none base cs)
    | some d =>
      simp only [hdigit, Option.bind_eq_bind, Option.bind_some] at h
      obtain ⟨hmore, hall⟩ := ih h
      constructor
      · rw [moreDigits_cons (ne_of_toDigit hdigit (toDigit_underscore base)), hdigit]
        exact hmore
      · intro c' hc'
        rcases List.mem_cons.mp hc' with rfl | hc'
        · rw [hdigit]
          rfl
        · exact hall c' hc'

theorem readDigits_of_digitsValue {base v : Nat} {cs : List Char}
    (h : Text.digitsValue base cs = some v) :
    readDigits base cs = some v ∧ ∀ c ∈ cs, (Text.toDigit base c).isSome := by
  cases cs with
  | nil => cases h
  | cons c cs =>
    obtain ⟨hmore, hall⟩ := moreDigits_of_foldl (n := 0) h
    refine ⟨?_, hall⟩
    obtain ⟨d, hd⟩ := Option.isSome_iff_exists.mp (hall c List.mem_cons_self)
    rw [moreDigits_cons (ne_of_toDigit hd (toDigit_underscore base)), hd] at hmore
    rw [readDigits, hd]
    simpa using hmore

/-- What `int` reads behind a digit. -/
theorem chars_of_moreDigits {base n v : Nat} {cs : List Char} (h : moreDigits base n cs = some v) :
    ∀ c ∈ cs, c = '_' ∨ (Text.toDigit base c).isSome := by
  fun_induction moreDigits base n cs with
  | case1 n => exact fun c hc => by cases hc
  | case2 n c cs ih =>
    rw [Option.bind_eq_bind, Option.bind_eq_some_iff] at h
    obtain ⟨d, hd, hrest⟩ := h
    intro c' hc'
    rcases List.mem_cons.mp hc' with rfl | hc'
    · exact .inl rfl
    · rcases List.mem_cons.mp hc' with rfl | hc'
      · exact .inr (by rw [hd]; rfl)
      · exact ih d hrest c' hc'
  | case3 n c cs _ ih =>
    rw [Option.bind_eq_bind, Option.bind_eq_some_iff] at h
    obtain ⟨d, hd, hrest⟩ := h
    intro c' hc'
    rcases List.mem_cons.mp hc' with rfl | hc'
    · exact .inr (by rw [hd]; rfl)
    · exact ih d hrest c' hc'

theorem chars_of_readDigits {base v : Nat} {cs : List Char} (h : readDigits base cs = some v) :
    ∀ c ∈ cs, c = '_' ∨ (Text.toDigit base c).isSome := by
  cases cs with
  | nil => cases h
  | cons c cs =>
    rw [readDigits, Option.bind_eq_bind, Option.bind_eq_some_iff] at h
    obtain ⟨d, hd, hrest⟩ := h
    intro c' hc'
    rcases List.mem_cons.mp hc' with rfl | hc'
    · exact .inr (by rw [hd]; rfl)
    · exact chars_of_moreDigits hrest c' hc'

/-! ## Characters -/

/-- A character of a numeral. -/
def InNumeral (base : Nat) (c : Char) : Prop :=
  c = '+' ∨ c = '-' ∨ c = '_' ∨ (Text.toDigit base c).isSome ∨ base = 16 ∧ (c = 'x' ∨ c = 'X')

theorem mem_splitSign {c : Char} {cs : List Char} (hc : c ∈ cs) :
    c = '+' ∨ c = '-' ∨ c ∈ (splitSign cs).2 := by
  unfold splitSign
  split
  · rcases List.mem_cons.mp hc with rfl | hc
    · exact .inr (.inl rfl)
    · exact .inr (.inr hc)
  · rcases List.mem_cons.mp hc with rfl | hc
    · exact .inl rfl
    · exact .inr (.inr hc)
  · exact .inr (.inr hc)

theorem mem_behindPrefix {c : Char} {cs : List Char} (hc : c ∈ cs) :
    c = '_' ∨ c = '0' ∨ c = 'x' ∨ c = 'X' ∨ c ∈ behindPrefix cs := by
  unfold behindPrefix
  split
  · rename_i x rest
    split
    · rename_i hx
      rcases List.mem_cons.mp hc with rfl | hc
      · exact .inr (.inl rfl)
      rcases List.mem_cons.mp hc with rfl | hc
      · exact .inr (.inr (hx.elim .inl fun h => .inr (.inl h)))
      split
      · rcases List.mem_cons.mp hc with rfl | hc
        · exact .inl rfl
        · exact .inr (.inr (.inr (.inr hc)))
      · exact .inr (.inr (.inr (.inr hc)))
    · exact .inr (.inr (.inr (.inr hc)))
  · exact .inr (.inr (.inr (.inr hc)))

/-- What `int` reads between the spaces. -/
theorem chars_of_readLiteral {u : NumeralTables} {base : Nat} {v : Int} {cs : List Char}
    (h : readLiteral u base cs = some v) : ∀ c ∈ cs, InNumeral base c := by
  have hdigits : ∃ n, readDigits base (digitsPart base cs) = some n := by
    unfold readLiteral at h
    split at h
    · cases h
    · obtain ⟨n, hn, -⟩ := Option.map_eq_some_iff.mp h
      exact ⟨n, hn⟩
  obtain ⟨n, hn⟩ := hdigits
  intro c hc
  rcases mem_splitSign hc with hplus | hminus | hc
  · exact .inl hplus
  · exact .inr (.inl hminus)
  unfold digitsPart at hn
  split at hn
  · rename_i hbase
    rcases mem_behindPrefix hc with hunder | rfl | hx | hx | hc
    · exact .inr (.inr (.inl hunder))
    · exact .inr (.inr (.inr (.inl (by rw [hbase]; rfl))))
    · exact .inr (.inr (.inr (.inr ⟨hbase, .inl hx⟩)))
    · exact .inr (.inr (.inr (.inr ⟨hbase, .inr hx⟩)))
    · rcases chars_of_readDigits hn c hc with hunder | hdigit
      · exact .inr (.inr (.inl hunder))
      · exact .inr (.inr (.inr (.inl hdigit)))
  · rcases chars_of_readDigits hn c hc with hunder | hdigit
    · exact .inr (.inr (.inl hunder))
    · exact .inr (.inr (.inr (.inl hdigit)))

/-! ## What both read -/

section
variable {base n : Nat} {c : Char}

theorem toNat_of_toDigit (h : (Text.toDigit base c).isSome) : 48 ≤ c.toNat ∧ c.toNat ≤ 122 := by
  have hle {a b : Char} : a ≤ b ↔ a.toNat ≤ b.toNat := UInt32.le_iff_toNat_le
  have h0 : '0'.toNat = 48 := rfl
  have h9 : '9'.toNat = 57 := rfl
  have ha : 'a'.toNat = 97 := rfl
  have hz : 'z'.toNat = 122 := rfl
  have hA : 'A'.toNat = 65 := rfl
  have hZ : 'Z'.toNat = 90 := rfl
  unfold Text.toDigit at h
  simp only [hle] at h
  split at h
  · omega
  · split at h
    · omega
    · split at h
      · omega
      · cases h

theorem head_of_digitsValue {cs : List Char} (h : Text.digitsValue base cs = some n)
    (hc : Text.toDigit base c = none) : cs.head? ≠ some c := by
  intro hhead
  have hdigit := (readDigits_of_digitsValue h).2 c (List.mem_of_mem_head? hhead)
  rw [hc] at hdigit
  cases hdigit

/-- No digit is a sign. -/
theorem splitSign_of_digitsValue {cs : List Char} (h : Text.digitsValue base cs = some n) :
    splitSign cs = (false, cs) := by
  have hplus := head_of_digitsValue h (toDigit_plus base)
  have hminus := head_of_digitsValue h (toDigit_minus base)
  unfold splitSign
  split
  · exact absurd rfl hminus
  · exact absurd rfl hplus
  · rfl

variable (u : NumeralTables) {cs : List Char}

theorem digitsPart_hex {x : Char} (hx : x = 'x' ∨ x = 'X') (hcs : cs.head? ≠ some '_') :
    digitsPart 16 ('0' :: x :: cs) = cs := by
  have hsign : splitSign ('0' :: x :: cs) = (false, '0' :: x :: cs) := rfl
  rw [digitsPart, if_pos rfl, hsign]
  unfold behindPrefix
  simp only [if_pos hx]
  split
  · exact absurd rfl hcs
  · rfl

/-- Digits behind `0x`. -/
theorem readLiteral_hex {x : Char} (hx : x = 'x' ∨ x = 'X') (h : Text.digitsValue 16 cs = some n) :
    readLiteral u 16 ('0' :: x :: cs) = some (n : Int) := by
  have hprefix : digitsPart 16 ('0' :: x :: cs) = cs :=
    digitsPart_hex hx (head_of_digitsValue h (toDigit_underscore 16))
  have hlimit : u.tooLong 16 cs = false := rfl
  rw [readLiteral, hprefix, hlimit, (readDigits_of_digitsValue h).1]
  rfl

/-- A plus sign there is none of base 16. -/
theorem readLiteral_hex_plus {x : Char} (hx : x = 'x' ∨ x = 'X') :
    readLiteral u 16 ('0' :: x :: '+' :: cs) = none := by
  have hprefix : digitsPart 16 ('0' :: x :: '+' :: cs) = '+' :: cs :=
    digitsPart_hex hx (by simp)
  have hlimit : u.tooLong 16 ('+' :: cs) = false := rfl
  rw [readLiteral, hprefix, hlimit, readDigits, toDigit_plus]
  rfl

/-- Decimal digits, if there are not too many, with or without a plus sign. -/
theorem readLiteral_decimal {ds : List Char} {v : Int} (hcs : cs = ds ∨ cs = '+' :: ds)
    (h : Text.digitsValue 10 ds = some n) (hread : readLiteral u 10 cs = some v) :
    v = (n : Int) := by
  have hsign : splitSign cs = (false, ds) := by
    rcases hcs with rfl | rfl
    · exact splitSign_of_digitsValue h
    · rfl
  have hdigits : digitsPart 10 cs = ds := by
    rw [digitsPart, if_neg (by decide), hsign]
  rw [readLiteral, hdigits, hsign, (readDigits_of_digitsValue h).1] at hread
  split at hread
  · cases hread
  · exact (Option.some.inj hread).symm

end

/-! ## White space around it -/

/-- What is stripped by a predicate, and what is left. -/
theorem exists_stripped {α : Type} (p : α → Bool) (l : List α) :
    ∃ pre post, l = pre ++ ((l.dropWhile p).rdropWhile p ++ post) ∧
      (∀ a ∈ pre, p a = true) ∧ ∀ a ∈ post, p a = true := by
  have hback : (l.dropWhile p).rdropWhile p ++ (l.dropWhile p).rtakeWhile p = l.dropWhile p := by
    rw [List.rdropWhile, List.rtakeWhile, ← List.reverse_append, List.takeWhile_append_dropWhile,
      List.reverse_reverse]
  refine ⟨l.takeWhile p, (l.dropWhile p).rtakeWhile p, ?_, ?_, ?_⟩
  · rw [hback, List.takeWhile_append_dropWhile]
  · exact fun a ha => List.mem_takeWhile_imp ha
  · exact fun a ha => List.mem_rtakeWhile_imp ha

theorem mem_of_mem_stripped {α : Type} {p : α → Bool} {l : List α} {a : α}
    (h : a ∈ (l.dropWhile p).rdropWhile p) : a ∈ l :=
  (List.dropWhile_suffix p).mem ((List.rdropWhile_prefix p _).mem h)

/-- Only what satisfies the predicate is stripped. -/
theorem mem_stripped {α : Type} {p : α → Bool} {l : List α} {a : α} (h : a ∈ l) :
    p a = true ∨ a ∈ (l.dropWhile p).rdropWhile p := by
  obtain ⟨pre, post, hsplit, hpre, hpost⟩ := exists_stripped p l
  rw [hsplit] at h
  rcases List.mem_append.mp h with hin | h
  · exact .inl (hpre a hin)
  rcases List.mem_append.mp h with hin | hin
  · exact .inr hin
  · exact .inl (hpost a hin)

/-- Between stripped ends stands what does not begin or end with what is stripped. -/
theorem stripped_eq {α : Type} {p : α → Bool} {pre l post : List α}
    (hpre : ∀ a ∈ pre, p a = true) (hpost : ∀ a ∈ post, p a = true)
    (hhead : ∀ a, l.head? = some a → p a = false)
    (hlast : ∀ a, l.getLast? = some a → p a = false) :
    ((pre ++ (l ++ post)).dropWhile p).rdropWhile p = l := by
  rw [List.dropWhile_append_of_pos hpre]
  cases l with
  | nil => rw [List.nil_append, List.dropWhile_eq_nil_iff.mpr hpost, List.rdropWhile_nil]
  | cons a l =>
    rw [List.cons_append, List.dropWhile_cons_of_neg (by rw [hhead a rfl]; decide),
      ← List.cons_append, List.rdropWhile, List.reverse_append,
      List.dropWhile_append_of_pos (fun b hb => hpost b (List.mem_reverse.mp hb)),
      ← List.rdropWhile, List.rdropWhile_eq_self_iff]
    intro hne
    rw [hlast _ (List.getLast?_eq_some_getLast hne)]
    decide

theorem isWhiteSpace_of_isSpace {c : Char} (h : isSpace c = true) : Text.isWhiteSpace c = true := by
  simp only [isSpace, Bool.or_eq_true, Bool.and_eq_true, decide_eq_true_eq, beq_iff_eq] at h
  simp only [Text.isWhiteSpace, Bool.or_eq_true, Bool.and_eq_true, decide_eq_true_eq, beq_iff_eq]
  omega

theorem isSpace_eq_false {c : Char} (h : Text.isWhiteSpace c = false) : isSpace c = false := by
  apply Bool.eq_false_iff.mpr
  intro hspace
  rw [isWhiteSpace_of_isSpace hspace] at h
  cases h

section
variable (u : NumeralTables) {base : Nat} {text : String} {v : Int}

theorem toAscii_eq_self {c : Char} (h : c.toNat < 127) : u.toAscii c = c := if_pos h

theorem map_toAscii {cs : List Char} (h : ∀ c ∈ cs, c.toNat < 127) : cs.map u.toAscii = cs := by
  conv_rhs => rw [← List.map_id cs]
  exact List.map_congr_left fun c hc => toAscii_eq_self u (h c hc)

/-- White space that `int` does not skip is no character that it knows. -/
theorem toAscii_whiteSpace {c : Char} (h : Text.isWhiteSpace c = true) :
    isSpace (u.toAscii c) = true ∨ u.toAscii c = '?' := by
  unfold NumeralTables.toAscii
  split
  · rename_i hascii
    left
    simp only [Text.isWhiteSpace, Bool.or_eq_true, Bool.and_eq_true, decide_eq_true_eq,
      beq_iff_eq] at h
    simp only [isSpace, Bool.or_eq_true, Bool.and_eq_true, decide_eq_true_eq, beq_iff_eq]
    omega
  · split
    · exact .inl rfl
    · rw [u.digitOf_space c h]
      exact .inr rfl

/-- What `int` reads has its characters, and the spaces around it. -/
theorem chars_of_pyInt (h : pyInt u base text = some v) :
    ∀ c ∈ text.toList, isSpace (u.toAscii c) = true ∨ InNumeral base (u.toAscii c) := by
  intro c hc
  have hmem : u.toAscii c ∈ text.toList.map u.toAscii := List.mem_map_of_mem hc
  rcases mem_stripped (p := isSpace) hmem with hspace | hin
  · exact .inl hspace
  · exact .inr (chars_of_readLiteral h _ hin)

theorem not_inNumeral_question : ¬ InNumeral base '?' := by
  rintro (h | h | h | h | ⟨-, h | h⟩)
  · cases h
  · cases h
  · cases h
  · cases h
  · cases h
  · cases h

theorem not_inNumeral_x {x : Char} (hx : x = 'x' ∨ x = 'X') : ¬ InNumeral 10 x := by
  rcases hx with rfl | rfl
  all_goals
    rintro (h | h | h | h | ⟨h, -⟩)
    · cases h
    · cases h
    · cases h
    · cases h
    · cases h

/-- What `int` reads off a text that is ASCII between white space is what `trim` leaves. -/
theorem strip_eq_trimChars (h : pyInt u base text = some v)
    (hascii : ∀ c ∈ Text.trimChars text.toList, c.toNat < 127) :
    strip (text.toList.map u.toAscii) = Text.trimChars text.toList := by
  obtain ⟨pre, post, hsplit, hpre, hpost⟩ := exists_stripped Text.isWhiteSpace text.toList
  change text.toList = pre ++ (Text.trimChars text.toList ++ post) at hsplit
  have hspaces {cs : List Char} (hcs : ∀ c ∈ cs, Text.isWhiteSpace c = true)
      (hin : ∀ c ∈ cs, c ∈ text.toList) : ∀ c ∈ cs.map u.toAscii, isSpace c = true := by
    intro c hmapped
    obtain ⟨d, hd, rfl⟩ := List.mem_map.mp hmapped
    rcases toAscii_whiteSpace u (hcs d hd) with hspace | hquestion
    · exact hspace
    · rcases chars_of_pyInt u h d (hin d hd) with hspace | hnumeral
      · exact hspace
      · rw [hquestion] at hnumeral
        exact absurd hnumeral not_inNumeral_question
  obtain ⟨hhead, hlast⟩ := Text.trimChars_eq_self_iff.mp (Text.trimChars_trimChars text.toList)
  have hmap : text.toList.map u.toAscii =
      pre.map u.toAscii ++ (Text.trimChars text.toList ++ post.map u.toAscii) := by
    conv_lhs => rw [hsplit, List.map_append, List.map_append, map_toAscii u hascii]
  rw [hmap]
  refine stripped_eq (hspaces hpre ?_) (hspaces hpost ?_)
    (fun c hc => isSpace_eq_false (hhead c hc)) (fun c hc => isSpace_eq_false (hlast c hc))
  · intro c hc
    rw [hsplit]
    exact List.mem_append_left _ hc
  · intro c hc
    rw [hsplit]
    exact List.mem_append_right _ (List.mem_append_right _ hc)

end

/-! ## The two readers -/

theorem toList_of_stripPrefix {s p rest : String} (h : Text.stripPrefix s p = some rest) :
    s.toList = p.toList ++ rest.toList := by
  unfold Text.stripPrefix Text.startsWith at h
  split at h
  · rename_i hstart
    obtain ⟨tail, htail⟩ := List.isPrefixOf_iff_prefix.mp hstart
    cases h
    rw [String.toList_ofList, ← htail, List.drop_left]
  · cases h

theorem digits_of_u32FromStrRadix {s : String} {radix n : Nat}
    (h : Text.u32FromStrRadix s radix = some n) :
    ∃ ds, (s.toList = ds ∨ s.toList = '+' :: ds) ∧ Text.digitsValue radix ds = some n := by
  unfold Text.u32FromStrRadix at h
  have hvalue := (Option.filter_eq_some_iff.mp h).1
  split at hvalue
  · rename_i ds hs
    exact ⟨ds, .inr hs, hvalue⟩
  · exact ⟨_, .inl rfl, hvalue⟩

/-- What the runtime reads: digits behind `0x`, or decimal ones, with or without a plus sign. -/
theorem nodeNumber_cases {s : String} {n : Nat} (h : Resolve.nodeNumber s = some n) :
    (∃ x ds, (x = 'x' ∨ x = 'X') ∧ Text.digitsValue 16 ds = some n ∧
      (Text.trimChars s.toList = '0' :: x :: ds ∨
        Text.trimChars s.toList = '0' :: x :: '+' :: ds)) ∨
    ∃ ds, Text.digitsValue 10 ds = some n ∧
      (Text.trimChars s.toList = ds ∨ Text.trimChars s.toList = '+' :: ds) := by
  have htrim : (Text.trim s).toList = Text.trimChars s.toList := String.toList_ofList
  unfold Resolve.nodeNumber at h
  simp only at h
  split at h
  · rename_i hex hprefix
    left
    obtain ⟨ds, hds, hvalue⟩ := digits_of_u32FromStrRadix h
    obtain ⟨x, hx, hlist⟩ : ∃ x, (x = 'x' ∨ x = 'X') ∧
        Text.trimChars s.toList = '0' :: x :: hex.toList := by
      rcases Option.or_eq_some_iff.mp hprefix with hlower | ⟨-, hupper⟩
      · exact ⟨'x', .inl rfl, htrim.symm.trans (toList_of_stripPrefix hlower)⟩
      · exact ⟨'X', .inr rfl, htrim.symm.trans (toList_of_stripPrefix hupper)⟩
    refine ⟨x, ds, hx, hvalue, ?_⟩
    rcases hds with hds | hds
    · exact .inl (hds ▸ hlist)
    · exact .inr (hds ▸ hlist)
  · right
    obtain ⟨ds, hds, hvalue⟩ := digits_of_u32FromStrRadix h
    rw [htrim] at hds
    exact ⟨ds, hvalue, hds⟩

/-- The base of the script. -/
theorem isHex_iff {text : String} :
    isHex text = true ↔ ∃ x rest, text.toList = '0' :: x :: rest ∧ (x = 'x' ∨ x = 'X') := by
  unfold isHex
  split
  · rename_i x rest hlist
    rw [hlist, Bool.or_eq_true, beq_iff_eq, beq_iff_eq]
    constructor
    · exact fun hx => ⟨x, rest, rfl, hx⟩
    · rintro ⟨x', rest', heq, hx⟩
      cases heq
      exact hx
  · rename_i hno
    constructor
    · intro h
      cases h
    · rintro ⟨x, rest, heq, -⟩
      exact absurd heq (hno x rest)

section
variable {u : NumeralTables} {text : String} {n : Nat} {v : Int}

theorem not_whiteSpace_x {x : Char} (hx : x = 'x' ∨ x = 'X') : Text.isWhiteSpace x = false := by
  rcases hx with rfl | rfl
  · rfl
  · rfl

/-- Where the runtime reads hexadecimal digits. -/
theorem readers_agree_hex {x : Char} {ds : List Char} (hx : x = 'x' ∨ x = 'X')
    (hvalue : Text.digitsValue 16 ds = some n)
    (htext : Text.trimChars text.toList = '0' :: x :: ds ∨
      Text.trimChars text.toList = '0' :: x :: '+' :: ds)
    (hscript : (if isHex text then pyInt u 16 text else pyInt u 10 text) = some v) :
    v = (n : Int) := by
  have hdigits : ∀ c ∈ ds, c.toNat < 127 := fun c hc =>
    Nat.lt_of_le_of_lt (toNat_of_toDigit ((readDigits_of_digitsValue hvalue).2 c hc)).2
      (by decide)
  have hlower : x.toNat < 127 := by
    rcases hx with rfl | rfl
    · decide
    · decide
  have hascii : x ∈ Text.trimChars text.toList ∧
      ∀ c ∈ Text.trimChars text.toList, c.toNat < 127 := by
    rcases htext with htext | htext
    · rw [htext, List.forall_mem_cons, List.forall_mem_cons]
      exact ⟨by simp, by decide, hlower, hdigits⟩
    · rw [htext, List.forall_mem_cons, List.forall_mem_cons, List.forall_mem_cons]
      exact ⟨by simp, by decide, hlower, by decide, hdigits⟩
  split at hscript
  · have hstrip := strip_eq_trimChars u hscript hascii.2
    rw [pyInt, hstrip] at hscript
    rcases htext with htext | htext
    · rw [htext, readLiteral_hex u hx hvalue] at hscript
      exact (Option.some.inj hscript).symm
    · rw [htext, readLiteral_hex_plus u hx] at hscript
      cases hscript
  · -- behind white space the script does not see the prefix, and takes no `x`
    exfalso
    have hread := chars_of_pyInt u hscript x (mem_of_mem_stripped hascii.1)
    rw [toAscii_eq_self u hlower] at hread
    rcases hread with hspace | hnumeral
    · rw [isSpace_eq_false (not_whiteSpace_x hx)] at hspace
      cases hspace
    · exact not_inNumeral_x hx hnumeral

/-- Where it reads decimal ones. -/
theorem readers_agree_decimal {ds : List Char} (hvalue : Text.digitsValue 10 ds = some n)
    (htext : Text.trimChars text.toList = ds ∨ Text.trimChars text.toList = '+' :: ds)
    (hscript : (if isHex text then pyInt u 16 text else pyInt u 10 text) = some v) :
    v = (n : Int) := by
  have hdigit : ∀ c ∈ Text.trimChars text.toList, c = '+' ∨ (Text.toDigit 10 c).isSome := by
    have hall := (readDigits_of_digitsValue hvalue).2
    rcases htext with htext | htext
    · rw [htext]
      exact fun c hc => .inr (hall c hc)
    · rw [htext, List.forall_mem_cons]
      exact ⟨.inl rfl, fun c hc => .inr (hall c hc)⟩
  have hascii : ∀ c ∈ Text.trimChars text.toList, c.toNat < 127 := by
    intro c hc
    rcases hdigit c hc with rfl | hdigit
    · decide
    · exact Nat.lt_of_le_of_lt (toNat_of_toDigit hdigit).2 (by decide)
  -- an `x` would be left after trimming
  have hnot : ¬ isHex text = true := by
    intro hhex
    obtain ⟨x, rest, hlist, hx⟩ := isHex_iff.mp hhex
    have hmem : x ∈ text.toList := by
      rw [hlist]
      simp
    rcases mem_stripped (p := Text.isWhiteSpace) hmem with hspace | hin
    · rw [not_whiteSpace_x hx] at hspace
      cases hspace
    · rcases hdigit x hin with hplus | hdigit
      · exact not_inNumeral_x hx (.inl hplus)
      · exact not_inNumeral_x hx (.inr (.inr (.inr (.inl hdigit))))
  rw [if_neg hnot] at hscript
  have hstrip := strip_eq_trimChars u hscript hascii
  rw [pyInt, hstrip] at hscript
  exact readLiteral_decimal u htext hvalue hscript

/-- **One text, one number.** -/
theorem readers_agree (hscript : (if isHex text then pyInt u 16 text else pyInt u 10 text) = some v)
    (hruntime : Resolve.nodeNumber text = some n) : v = (n : Int) := by
  rcases nodeNumber_cases hruntime with ⟨x, ds, hx, hvalue, htext⟩ | ⟨ds, hvalue, htext⟩
  · exact readers_agree_hex hx hvalue htext hscript
  · exact readers_agree_decimal hvalue htext hscript

end

/-! ## A number as the script prints it -/

theorem toList_hexNumber (n : Nat) :
    (Text.hexNumber n).toList = '0' :: 'x' :: Nat.toDigits 16 n := by
  simp [Text.hexNumber]

theorem toNat_hexNumber (n : Nat) :
    ∀ c ∈ (Text.hexNumber n).toList, 48 ≤ c.toNat ∧ c.toNat ≤ 122 := by
  rw [toList_hexNumber, List.forall_mem_cons, List.forall_mem_cons]
  exact ⟨by decide, by decide, fun c hc =>
    toNat_of_toDigit ((readDigits_of_digitsValue (Resolve.digitsValue_toDigits n)).2 c hc)⟩

/-- There is no white space in it. -/
theorem not_whiteSpace_hexNumber (n : Nat) :
    ∀ c ∈ (Text.hexNumber n).toList, Text.isWhiteSpace c = false := by
  intro c hc
  obtain ⟨hlow, hhigh⟩ := toNat_hexNumber n c hc
  apply Bool.eq_false_iff.mpr
  intro hspace
  simp only [Text.isWhiteSpace, Bool.or_eq_true, Bool.and_eq_true, decide_eq_true_eq,
    beq_iff_eq] at hspace
  omega

theorem trimChars_hexNumber (n : Nat) :
    Text.trimChars (Text.hexNumber n).toList = (Text.hexNumber n).toList := by
  have hnot := not_whiteSpace_hexNumber n
  rw [Text.trimChars_eq_self_iff]
  exact ⟨fun c hc => hnot c (List.mem_of_mem_head? hc),
    fun c hc => hnot c (List.mem_of_mem_getLast? hc)⟩

theorem pyInt_hexNumber (u : NumeralTables) (n : Nat) :
    pyInt u 16 (Text.hexNumber n) = some (n : Int) := by
  have hself : (Text.hexNumber n).toList.map u.toAscii = (Text.hexNumber n).toList :=
    map_toAscii u fun c hc => Nat.lt_of_le_of_lt (toNat_hexNumber n c hc).2 (by decide)
  have hnot : ∀ c ∈ (Text.hexNumber n).toList, isSpace c = false := fun c hc =>
    isSpace_eq_false (not_whiteSpace_hexNumber n c hc)
  have hstrip : strip (Text.hexNumber n).toList = (Text.hexNumber n).toList := by
    have h := @stripped_eq Char isSpace [] (Text.hexNumber n).toList [] (by simp) (by simp)
      (fun c hc => hnot c (List.mem_of_mem_head? hc))
      (fun c hc => hnot c (List.mem_of_mem_getLast? hc))
    rwa [List.nil_append, List.append_nil] at h
  rw [pyInt, hself, hstrip, toList_hexNumber]
  exact readLiteral_hex u (.inl rfl) (Resolve.digitsValue_toDigits n)

theorem nodeNumber_hexNumber {n : Nat} (h : n < 2 ^ 32) :
    Resolve.nodeNumber (Text.hexNumber n) = some n := by
  have htrim : Text.trim (Text.hexNumber n) = Text.hexNumber n := by
    rw [Text.trim, trimChars_hexNumber, String.ofList_toList]
  have hprefix : Text.stripPrefix (Text.hexNumber n) "0x" =
      some (String.ofList (Nat.toDigits 16 n)) := by
    rw [Text.stripPrefix, Text.startsWith, toList_hexNumber]
    rfl
  have hvalue := Resolve.digitsValue_toDigits n
  have hdigits : Text.u32FromStrRadix (String.ofList (Nat.toDigits 16 n)) 16 = some n := by
    unfold Text.u32FromStrRadix
    rw [String.toList_ofList]
    split
    · rename_i ds hds
      exact absurd (by rw [hds]; rfl) (head_of_digitsValue hvalue (toDigit_plus 16))
    · simp only [hvalue, Option.filter_some, h, decide_true, if_true]
  unfold Resolve.nodeNumber
  simp only [htrim, hprefix, Option.some_or, hdigits]

/-! ## Both sides -/

theorem parseId_eq_ok_iff {u : NumeralTables} {text : String} {n : Nat} :
    parseId u text = .ok n ↔ n ≤ MAX_NODE_ID ∧
      (if isHex text then pyInt u 16 text else pyInt u 10 text) = some (n : Int) := by
  unfold parseId
  cases hread : (if isHex text then pyInt u 16 text else pyInt u 10 text) with
  | none => simp
  | some v =>
    simp only
    split
    · rename_i hout
      constructor
      · intro h
        cases h
      · rintro ⟨hle, heq⟩
        cases heq
        omega
    · rename_i hin
      constructor
      · intro h
        cases h
        refine ⟨by omega, ?_⟩
        rw [Int.toNat_of_nonneg (by omega)]
      · rintro ⟨-, heq⟩
        cases heq
        rfl

theorem parseNodeId_eq_ok_iff {text : String} {n : Nat} :
    Resolve.parseNodeId text = .ok n ↔ n ≤ MAX_NODE_ID ∧ Resolve.nodeNumber text = some n := by
  have hmax : MAX_NODE_ID = 0x7fd := rfl
  have hstd : Runtt.MAX_STD_ID = 0x7ff := rfl
  have hlog : LOG_ID_OFFSET = 2 := rfl
  unfold Resolve.parseNodeId
  cases hread : Resolve.nodeNumber text with
  | none => simp
  | some id =>
    simp only
    split
    · rename_i hbig
      constructor
      · intro h
        cases h
      · rintro ⟨hle, heq⟩
        cases heq
        omega
    · split
      · rename_i hroom
        constructor
        · intro h
          cases h
        · rintro ⟨hle, heq⟩
          cases heq
          omega
      · constructor
        · intro h
          cases h
          exact ⟨by omega, rfl⟩
        · rintro ⟨-, heq⟩
          cases heq
          rfl

/-- The number as the script prints it is read by both. -/
theorem parseId_hexNumber (u : NumeralTables) {n : Nat} (h : n ≤ MAX_NODE_ID) :
    parseId u (Text.hexNumber n) = .ok n := by
  have hhex : isHex (Text.hexNumber n) = true :=
    isHex_iff.mpr ⟨'x', Nat.toDigits 16 n, toList_hexNumber n, .inl rfl⟩
  rw [parseId_eq_ok_iff, if_pos hhex]
  exact ⟨h, pyInt_hexNumber u n⟩

theorem parseNodeId_hexNumber {n : Nat} (h : n ≤ MAX_NODE_ID) :
    Resolve.parseNodeId (Text.hexNumber n) = .ok n := by
  have hmax : MAX_NODE_ID = 0x7fd := rfl
  exact parseNodeId_eq_ok_iff.mpr ⟨h, nodeNumber_hexNumber (by omega)⟩

theorem pyHex_natCast (n : Nat) : pyHex n = Text.hexNumber n :=
  if_neg (Int.not_lt.mpr (Int.natCast_nonneg n))

/-- The record has the node id. -/
theorem nodeField_build {u : UnicodeTables} {n : Nat} {serial : String} {record : Bytes}
    (hn : n < 2 ^ 16) (h : build u (some n) serial = .ok record) : nodeField record = n := by
  unfold build at h
  simp only at h
  split at h
  · cases h
  · cases h
    have hlow : (UInt8.ofNat n).toNat = n % 256 := UInt8.toNat_ofNat'
    have hhigh : (UInt8.ofNat (n / 256)).toNat = n / 256 % 256 := UInt8.toNat_ofNat'
    show (UInt8.ofNat n).toNat + 256 * (UInt8.ofNat (n / 256)).toNat = n
    rw [hlow, hhigh]
    omega

/-- **Both sides have the same node ids.**  A number can be written into a record exactly when
a label can name it.  A text that both read is one number to both; and a board with the number
in its record is found under the label that names it as the script prints it, with its console
on an identifier that the bus has. -/
theorem node_ids_agree (u : NumeralTables) (n : Nat) :
    ((∃ text, parseId u text = .ok n) ↔ ∃ text, Resolve.parseNodeId text = .ok n) ∧
    ∀ text, parseId u text = .ok n →
      (∀ n', Resolve.parseNodeId text = .ok n' → n' = n) ∧
      (∀ (host : Host) (iface : String), '/' ∉ iface.toList →
        host.isDir (Text.join "/sys/class/net" iface) = true →
          ∃ r, (Target.parse ("can:" ++ iface ++ "/" ++ pyHex n) >>= Resolve.resolve host) = .ok r ∧
            r = .can iface n none ∧ r.logSource = some (.can iface (n + LOG_ID_OFFSET)) ∧
            n + LOG_ID_OFFSET ≤ Runtt.MAX_STD_ID) ∧
      ∀ serial record, build u.toUnicodeTables (some n) serial = .ok record →
        nodeField record = n ∧ n ≠ NO_NODE_ID := by
  have hmax : MAX_NODE_ID = 0x7fd := rfl
  constructor
  · constructor
    · rintro ⟨text, htext⟩
      exact ⟨_, parseNodeId_hexNumber (parseId_eq_ok_iff.mp htext).1⟩
    · rintro ⟨text, htext⟩
      exact ⟨_, parseId_hexNumber u (parseNodeId_eq_ok_iff.mp htext).1⟩
  · intro text htext
    obtain ⟨hle, hread⟩ := parseId_eq_ok_iff.mp htext
    refine ⟨?_, ?_, ?_⟩
    · intro n' hn'
      have hsame := readers_agree hread (parseNodeId_eq_ok_iff.mp hn').2
      exact (Int.natCast_inj.mp hsame).symm
    · intro host iface hiface hdir
      have hresolve : Resolve.resolve host (.can iface (pyHex n)) = .ok (.can iface n none) := by
        rw [Resolve.resolve, pyHex_natCast, parseNodeId_hexNumber hle, bind_ok, hdir]
        rfl
      have hconsole : n + LOG_ID_OFFSET ≤ Runtt.MAX_STD_ID := Nat.add_le_add_right hle 2
      refine ⟨_, ?_, rfl, rfl, hconsole⟩
      rw [Target.parse_can hiface, bind_ok, hresolve]
    · intro serial record hrecord
      refine ⟨nodeField_build (by omega) hrecord, ?_⟩
      have hnone : NO_NODE_ID = 0xFFFF := rfl
      omega

/-- Python without numerals beyond ASCII. -/
def asciiNumerals : NumeralTables where
  toUnicodeTables := asciiTables
  digitOf _ := none
  space _ := false
  maxStrDigits := some 4300
  digitOf_space _ _ := rfl

/-- The script takes `6_6`, which the runtime does not, and the board is found as `0x42`. -/
theorem node_ids_agree_66 :
    parseId asciiNumerals "6_6" = .ok 66 ∧ (∀ n, Resolve.parseNodeId "6_6" ≠ .ok n) ∧
    (∃ r, (Target.parse "can:can0/0x42" >>= Resolve.resolve (Resolve.portHost "3-6")) = .ok r ∧
      r = .can "can0" 66 none ∧ r.logSource = some (.can "can0" 68)) ∧
    ∃ record, build asciiTables (some 66) "arm-01" = .ok record ∧ nodeField record = 66 := by
  have hscript : parseId asciiNumerals "6_6" = .ok 66 := by decide +kernel
  obtain ⟨-, hall⟩ := node_ids_agree asciiNumerals 66
  obtain ⟨-, hlabel, hrecord⟩ := hall "6_6" hscript
  obtain ⟨r, hr, hsame, hlog, -⟩ := hlabel (Resolve.portHost "3-6") "can0" (by decide) (by decide)
  refine ⟨hscript, ?_, ⟨r, hr, hsame, hlog⟩, ?_⟩
  · intro n h
    have hnone : Resolve.nodeNumber "6_6" = none := by decide +kernel
    rw [parseNodeId_eq_ok_iff, hnone] at h
    cases h.2
  · obtain ⟨record, hbuilt⟩ : ∃ record, build asciiTables (some 66) "arm-01" = .ok record :=
      ⟨_, rfl⟩
    exact ⟨record, hbuilt, (hrecord "arm-01" record hbuilt).1⟩

end Provision
end Runtt
