import Mathlib.Algebra.Group.Nat.Defs
import Mathlib.Data.List.Basic

/-! # Bytes, errors, and the ways not to return

The vocabulary every module shares.  A byte string is a list of bytes.  An
`anyhow::Error` is its chain of messages, outermost context first.
-/
namespace Runtt

/-- A byte string. -/
abbrev Bytes := List UInt8

/-- The chain of messages of an `anyhow::Error`, outermost context first. -/
abbrev Error := List String

/-- `Context::context`: one more message around an error. -/
def Error.context (msg : String) (e : Error) : Error := msg :: e

/-- `Result::context`. -/
def context {α : Type} (msg : String) : Except Error α → Except Error α
  | .ok a => .ok a
  | .error e => .error (Error.context msg e)

@[simp] theorem context_ok {α : Type} (msg : String) (a : α) :
    context msg (.ok a) = .ok a := rfl

@[simp] theorem context_error {α : Type} (msg : String) (e : Error) :
    context msg (.error e : Except Error α) = .error (msg :: e) := rfl

@[simp] theorem bind_ok {ε α β : Type} (a : α) (f : α → Except ε β) :
    ((Except.ok a : Except ε α) >>= f) = f a := rfl

/-- How a function of the source can fail to return at all: an index outside its
slice or a checked addition past the width of `usize` panics, and a loop or a
recursion can go on for ever. -/
inductive Halt where
  | panic
  | overflow
  | never
  deriving DecidableEq, Repr

/-- The width of `usize`, and whether the build checks additions (`debug`) or
lets them wrap (`release`). -/
structure Arch where
  bits : Nat
  checked : Bool

/-- The 64-bit release build. -/
def Arch.host : Arch := ⟨64, false⟩

/-- `a + b` on `usize`. -/
def Arch.add (arch : Arch) (a b : Nat) : Except Halt Nat :=
  if a + b < 2 ^ arch.bits then .ok (a + b)
  else if arch.checked then .error .overflow
  else .ok ((a + b) % 2 ^ arch.bits)

/-- Below the width nothing wraps. -/
theorem Arch.host_add {a b : Nat} (h : a + b < 2 ^ 64) : Arch.host.add a b = .ok (a + b) := if_pos h

/-- `a.checked_add(b)` on `usize`. -/
def Arch.checkedAdd (arch : Arch) (a b : Nat) : Option Nat :=
  if a + b < 2 ^ arch.bits then some (a + b) else none

/-- One lower-case hexadecimal digit. -/
def hexDigit (n : Nat) : Char := if n < 10 then Char.ofNat (48 + n) else Char.ofNat (87 + n)

/-- `{b:02x}` for each byte. -/
def hex (b : Bytes) : String :=
  String.ofList (b.flatMap fun x => [hexDigit (x.toNat / 16), hexDigit (x.toNat % 16)])

/-- `{n:#010x}` for a `u32`. -/
def hexWord (n : Nat) : String :=
  "0x" ++ String.ofList ((List.range 8).reverse.map fun i => hexDigit (n / 16 ^ i % 16))

/-- `{n:#06x}` for a `u16`. -/
def hexHalf (n : Nat) : String :=
  "0x" ++ String.ofList ((List.range 4).reverse.map fun i => hexDigit (n / 16 ^ i % 16))

/-- A character between quotes of one kind, as `Debug` writes it.  Beyond the control characters
each is taken to be printable. -/
def escapeDebug (quote c : Char) : List Char :=
  if c = quote then ['\\', c]
  else if c = '\\' then ['\\', '\\']
  else if c = '\n' then ['\\', 'n']
  else if c = '\r' then ['\\', 'r']
  else if c = '\t' then ['\\', 't']
  else if c.toNat = 0 then ['\\', '0']
  else if c.toNat < 0x20 ∨ (0x7f ≤ c.toNat ∧ c.toNat < 0xa0) then
    ['\\', 'u', Char.ofNat 0x7b] ++ Nat.toDigits 16 c.toNat ++ [Char.ofNat 0x7d]
  else [c]

/-- `{s:?}`, of a string. -/
def debugStr (s : String) : String :=
  String.ofList ('"' :: s.toList.flatMap (escapeDebug '"') ++ ['"'])

/-- `{c:?}`, of a character. -/
def debugChar (c : Char) : String :=
  let quote := Char.ofNat 39
  String.ofList (quote :: escapeDebug quote c ++ [quote])

end Runtt
