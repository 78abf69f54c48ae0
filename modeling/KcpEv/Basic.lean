import Mathlib.Algebra.Order.Group.Nat
import Mathlib.Algebra.Ring.Int.Defs
import Mathlib.Data.List.Basic

/-!
Outcomes shared by the whole model. A C function that returns is an `ok`
value; a run that leaves the defined behaviour of the program, or the process
itself, is a `Stop`. Byte strings are lists, buffers are memories with a size.
-/
namespace KcpEv

abbrev Bytes := List UInt8

/-- Why a call does not return. -/
inductive Stop
  /-- `exit(1)` -/
  | exit
  /-- a failed `assert` -/
  | assertion
  /-- an access outside of an array -/
  | outOfBounds
  /-- an object used after it was freed -/
  | useAfterFree
  /-- a null pointer dereferenced -/
  | nullPointer
  /-- a local variable read before it was set -/
  | uninitialised
  /-- the description of the environment ends before the call does -/
  | unfinished
  deriving DecidableEq, Repr

abbrev Exec := Except Stop

/-- `assert(p)` -/
def cAssert (p : Prop) [Decidable p] : Exec Unit :=
  if p then .ok () else .error .assertion

theorem cAssert_pos {p : Prop} [Decidable p] (h : p) : cAssert p = .ok () := by
  simp [cAssert, h]

/-- A returning sequence is a returning first call followed by a returning rest. -/
theorem bind_eq_ok {α β : Type*} {x : Exec α} {f : α → Exec β} {b : β} :
    x.bind f = .ok b ↔ ∃ a, x = .ok a ∧ f a = .ok b := by
  cases x <;> simp [Except.bind]

def kcpevBufferSize : ℕ := 65536

theorem kcpevBufferSize_eq : kcpevBufferSize = 65536 := rfl

/-- `malloc`: no memory, or a block whose contents are not initialised. -/
abbrev Malloc := Option (ℕ → UInt8)

/-- A `size_t` stored in an `int` keeps its low 32 bits in two's complement. -/
def toInt (n : ℕ) : ℤ := (n : ℤ).bmod (2 ^ 32)

theorem toInt_small {n : ℕ} (h : n < 2 ^ 31) : toInt n = n := by
  unfold toInt
  rw [Int.bmod_eq_of_le] <;> omega

/-- `(size_t)-1` -/
def sizeMinusOne : ℕ := 2 ^ 64 - 1

end KcpEv
