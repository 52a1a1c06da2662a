import Mathlib.Data.List.DropRight
import Mathlib.Data.List.Infix
import Mathlib.Data.Nat.Digits.Defs
import Runtt.Basic

/-! # Strings, numerals and paths as `std` has them

What the label parser, the resolver and the verbs use of `str`, of integer parsing and of
`std::path`.  A path is its text; `display` is the text itself.
-/
namespace Runtt
namespace Text

/-- `str::starts_with`. -/
def startsWith (s p : String) : Bool := p.toList.isPrefixOf s.toList

/-- `str::ends_with`. -/
def endsWith (s p : String) : Bool := p.toList.isSuffixOf s.toList

/-- `str::contains`, for a string. -/
def contains (s part : String) : Bool := decide (part.toList <:+: s.toList)

/-- `str::strip_prefix`. -/
def stripPrefix (s p : String) : Option String :=
  if startsWith s p then some (String.ofList (s.toList.drop p.toList.length)) else none

/-- `str::split_once`, at a character. -/
def splitOnce (s : String) (sep : Char) : Option (String × String) :=
  match s.toList.dropWhile (· ≠ sep) with
  | [] => none
  | _ :: rest => some (String.ofList (s.toList.takeWhile (· ≠ sep)), String.ofList rest)

/-- `char::is_whitespace`: Unicode `White_Space`. -/
def isWhiteSpace (c : Char) : Bool :=
  let n := c.toNat
  (9 ≤ n && n ≤ 13) || n == 0x20 || n == 0x85 || n == 0xa0 || n == 0x1680 ||
    (0x2000 ≤ n && n ≤ 0x200a) || n == 0x2028 || n == 0x2029 || n == 0x202f || n == 0x205f ||
    n == 0x3000

/-- `str::trim`, on characters. -/
def trimChars (s : List Char) : List Char := (s.dropWhile isWhiteSpace).rdropWhile isWhiteSpace

/-- `str::trim`. -/
def trim (s : String) : String := String.ofList (trimChars s.toList)

/-- `str::to_ascii_uppercase`. -/
def toAsciiUppercase (s : String) : String :=
  String.ofList (s.toList.map fun c => if 'a' ≤ c ∧ c ≤ 'z' then Char.ofNat (c.toNat - 32) else c)

/-- `str::to_ascii_lowercase`. -/
def toAsciiLowercase (s : String) : String :=
  String.ofList (s.toList.map fun c => if 'A' ≤ c ∧ c ≤ 'Z' then Char.ofNat (c.toNat + 32) else c)

/-! ## Numerals -/

/-- `char::to_digit`. -/
def toDigit (radix : Nat) (c : Char) : Option Nat :=
  let n :=
    if '0' ≤ c ∧ c ≤ '9' then some (c.toNat - 48)
    else if 'a' ≤ c ∧ c ≤ 'z' then some (c.toNat - 87)
    else if 'A' ≤ c ∧ c ≤ 'Z' then some (c.toNat - 55)
    else none
  n.filter (· < radix)

/-- The number a string of digits stands for, if it is one and not empty. -/
def digitsValue (radix : Nat) : List Char → Option Nat
  | [] => none
  | cs => cs.foldl (fun acc c => do return (← acc) * radix + (← toDigit radix c)) (some 0)

/-- `u32::from_str_radix`: an optional `+`, then at least one digit. -/
def u32FromStrRadix (s : String) (radix : Nat) : Option Nat :=
  let digits :=
    match s.toList with
    | '+' :: cs => cs
    | cs => cs
  (digitsValue radix digits).filter (· < 2 ^ 32)

/-- `str::parse::<i32>`: an optional sign, then at least one digit. -/
def parseI32 (s : String) : Option Int :=
  match s.toList with
  | '-' :: cs => ((digitsValue 10 cs).filter (· ≤ 2 ^ 31)).map fun n => -(n : Int)
  | '+' :: cs => ((digitsValue 10 cs).filter (· < 2 ^ 31)).map Int.ofNat
  | cs => ((digitsValue 10 cs).filter (· < 2 ^ 31)).map Int.ofNat

/-- `{n:#x}`. -/
def hexNumber (n : Nat) : String := "0x" ++ String.ofList (Nat.toDigits 16 n)

/-! ## Paths -/

/-- `Path::join`: an absolute path replaces the base. -/
def join (base path : String) : String :=
  if startsWith path "/" then path
  else if base = "" ∨ endsWith base "/" then base ++ path
  else base ++ "/" ++ path

/-- The components of an absolute path without `.` in it. -/
def components (path : String) : List (List Char) :=
  (path.toList.splitOn '/').filter (· ≠ [])

/-- `Path::file_name`. -/
def fileName (path : String) : Option String :=
  match (components path).getLast? with
  | some name => if name = ['.', '.'] then none else some (String.ofList name)
  | none => none

/-- `Path::parent`, of an absolute path. -/
def parent (path : String) : Option String :=
  match components path with
  | [] => none
  | parts => some (String.ofList ('/' :: ['/'].intercalate parts.dropLast))

/-! ## Facts about them -/

theorem splitOnce_append {before rest : List Char} {sep : Char} (h : sep ∉ before) :
    splitOnce (String.ofList (before ++ sep :: rest)) sep =
      some (String.ofList before, String.ofList rest) := by
  have hne : ∀ c ∈ before, decide (c ≠ sep) = true := by
    intro c hc
    rw [decide_eq_true_iff]
    rintro rfl
    exact h hc
  unfold splitOnce
  rw [String.toList_ofList, List.dropWhile_append_of_pos hne, List.takeWhile_append_of_pos hne]
  simp

/-- What `split_once` returns, put together again. -/
theorem toList_of_splitOnce {s a b : String} {sep : Char} (h : splitOnce s sep = some (a, b)) :
    s.toList = a.toList ++ sep :: b.toList := by
  unfold splitOnce at h
  split at h
  · cases h
  · rename_i c rest hdrop
    cases h
    have hsep : c = sep := by
      have hhead := List.head?_dropWhile_not (fun c => decide (c ≠ sep)) s.toList
      rw [hdrop] at hhead
      simpa using hhead
    subst hsep
    rw [String.toList_ofList, String.toList_ofList, ← hdrop, List.takeWhile_append_dropWhile]

/-- Trimming keeps exactly what has no white space at either end. -/
theorem trimChars_eq_self_iff {s : List Char} :
    trimChars s = s ↔
      (∀ c, s.head? = some c → isWhiteSpace c = false) ∧
        ∀ c, s.getLast? = some c → isWhiteSpace c = false := by
  constructor
  · intro h
    have hfront : s.dropWhile isWhiteSpace = s := by
      apply (List.dropWhile_suffix isWhiteSpace).eq_of_length_le
      have hlength := (List.rdropWhile_prefix isWhiteSpace (s.dropWhile isWhiteSpace)).length_le
      have hsame : (s.dropWhile isWhiteSpace).rdropWhile isWhiteSpace = s := h
      rwa [hsame] at hlength
    have hback : s.rdropWhile isWhiteSpace = s := by
      rw [trimChars, hfront] at h
      exact h
    constructor
    · intro c hc
      cases s with
      | nil => cases hc
      | cons d cs =>
        cases hc
        have hhead := List.dropWhile_eq_self_iff.mp hfront (Nat.succ_pos cs.length)
        exact Bool.not_eq_true _ ▸ hhead
    · intro c hc
      have hne : s ≠ [] := by
        rintro rfl
        cases hc
      rw [List.getLast?_eq_some_getLast hne] at hc
      cases hc
      simpa using List.rdropWhile_eq_self_iff.mp hback hne
  · rintro ⟨hfirst, hlast⟩
    have hfront : s.dropWhile isWhiteSpace = s := by
      rw [List.dropWhile_eq_self_iff]
      intro hpos
      have hhead := hfirst s[0] (by rw [List.head?_eq_getElem?, List.getElem?_eq_getElem hpos])
      simp [hhead]
    have hback : s.rdropWhile isWhiteSpace = s := by
      rw [List.rdropWhile_eq_self_iff]
      intro hne
      have hend := hlast (s.getLast hne) (List.getLast?_eq_some_getLast hne)
      simp [hend]
    rw [trimChars, hfront, hback]

/-- White space at the end makes no difference to what is trimmed. -/
theorem trimChars_append {s ws : List Char} (hws : ∀ c ∈ ws, isWhiteSpace c = true) :
    trimChars (s ++ ws) = trimChars s := by
  have hback : ∀ cs : List Char,
      (cs ++ ws).rdropWhile isWhiteSpace = cs.rdropWhile isWhiteSpace := by
    intro cs
    rw [List.rdropWhile, List.reverse_append,
      List.dropWhile_append_of_pos (fun c hc => hws c (List.mem_reverse.mp hc))]
    rfl
  unfold trimChars
  by_cases hall : ∀ c ∈ s, isWhiteSpace c = true
  · rw [List.dropWhile_append_of_pos hall, List.dropWhile_eq_nil_iff.mpr hall,
      List.dropWhile_eq_nil_iff.mpr hws]
  · have hne : s.dropWhile isWhiteSpace ≠ [] := fun hnil =>
      hall (List.dropWhile_eq_nil_iff.mp hnil)
    have hfront : (s ++ ws).dropWhile isWhiteSpace = s.dropWhile isWhiteSpace ++ ws := by
      rw [List.dropWhile_append]
      simp [hne]
    rw [hfront, hback]

/-- Trimming twice is trimming once. -/
theorem trimChars_trimChars (s : List Char) : trimChars (trimChars s) = trimChars s := by
  rw [trimChars_eq_self_iff]
  constructor
  · intro c hc
    have hpre : trimChars s <+: s.dropWhile isWhiteSpace := List.rdropWhile_prefix _ _
    obtain ⟨rest, hrest⟩ := hpre
    have hhead : (s.dropWhile isWhiteSpace).head? = some c := by
      rw [← hrest, List.head?_append, hc]
      rfl
    simpa [hhead] using List.head?_dropWhile_not isWhiteSpace s
  · intro c hc
    have hne : trimChars s ≠ [] := by
      intro hnil
      rw [hnil] at hc
      cases hc
    rw [List.getLast?_eq_some_getLast hne] at hc
    cases hc
    exact Bool.not_eq_true _ ▸ List.rdropWhile_last_not isWhiteSpace _ hne

end Text
end Runtt
