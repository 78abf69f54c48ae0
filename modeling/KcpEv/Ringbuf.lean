import KcpEv.Basic
import KcpEv.Lib.Circular

/-!
The ring buffer of `kcpev_ringbuf.c`. The positions and the fill level are
`size_t` values that stay far below the word size, so they are natural numbers;
every `assert` and every block copy is checked, and the two `memcpy` calls of a
wrapped access stay separate.
-/
namespace KcpEv

open Circular

structure Ringbuf where
  /-- allocated size -/
  n : ℕ
  /-- used space -/
  u : ℕ
  /-- input position -/
  i : ℕ
  /-- output position -/
  o : ℕ
  d : ℕ → UInt8

namespace Ringbuf

def new (mem : Malloc) (sz : ℕ) : Option Ringbuf :=
  mem.map fun d => { n := sz, u := 0, i := 0, o := 0, d := d }

/-- `memcpy(&r->d[off], data, data.length)` -/
def copyIn (r : Ringbuf) (off : ℕ) (data : Bytes) : Exec Ringbuf :=
  if off + data.length ≤ r.n then .ok { r with d := store r.d off data }
  else .error .outOfBounds

/-- `memcpy(data, &r->d[off], len)` -/
def copyOut (r : Ringbuf) (off len : ℕ) : Exec Bytes :=
  if off + len ≤ r.n then .ok (load r.d off len) else .error .outOfBounds

/-- The two assignments that end `ringbuf_put`. -/
def advance (r : Ringbuf) (len : ℕ) : Ringbuf :=
  { r with i := (r.i + len) % r.n, u := r.u + len }

def put (r : Ringbuf) (data : Bytes) : Exec (Ringbuf × ℤ) :=
  let len := data.length
  if r.i < r.o then do
    -- available space is a contiguous buffer
    let a := r.o - r.i
    cAssert (a = r.n - r.u)
    if a < len then return (r, -1)
    let r ← r.copyIn r.i data
    return (r.advance len, 0)
  else do
    -- available space wraps; it is two buffers
    let b := r.n - r.i
    let c := r.o
    let a := if r.i = r.o then r.n - r.u else b + c
    cAssert (a = r.n - r.u)
    if a < len then return (r, -1)
    let r ← r.copyIn r.i (data.take (min b len))
    let r ← if b < len then r.copyIn 0 (data.drop b) else pure r
    return (r.advance len, 0)

def getPendingSize (r : Ringbuf) : ℕ := r.u

/-- The next contiguous chunk: its offset in `d` and its length. -/
def getNextChunk (r : Ringbuf) : Exec (ℕ × ℕ) :=
  if r.o < r.i then do
    cAssert (r.u = r.i - r.o)
    return (r.o, r.u)
  else if r.o = r.i ∧ r.u = 0 then .ok (0, 0)
  else do
    let b := r.n - r.o
    let c := r.i
    cAssert (r.u = b + c)
    return (r.o, b)

def markConsumed (r : Ringbuf) (len : ℕ) : Exec Ringbuf := do
  cAssert (len ≤ r.u)
  return { r with o := (r.o + len) % r.n, u := r.u - len }

def clear (r : Ringbuf) : Ringbuf := { r with u := 0, i := 0, o := 0 }

/-- Copy the first `len` pending bytes without consuming them. -/
def copyData (r : Ringbuf) (len : ℕ) : Exec (Option Bytes) :=
  if r.u < len then .ok none
  else do
    let b := r.n - r.o
    if r.o < r.i ∨ len ≤ b then
      let data ← r.copyOut r.o len
      return some data
    else
      let head ← r.copyOut r.o b
      let tail ← r.copyOut 0 (len - b)
      return some (head ++ tail)

/-- The pending bytes, oldest first. -/
def contents (r : Ringbuf) : Bytes := window r.d r.n r.o r.u

@[simp] theorem length_contents (r : Ringbuf) : r.contents.length = r.u :=
  length_window r.d r.n r.o r.u

/-- Positions inside the buffer, and the input position `u` bytes behind the
output position. This is what the assertions of the source rest on. -/
structure Valid (r : Ringbuf) : Prop where
  capacity : 0 < r.n
  used : r.u ≤ r.n
  output : r.o < r.n
  input : r.i = (r.o + r.u) % r.n

namespace Valid

variable {r : Ringbuf}

theorem input_lt (h : r.Valid) : r.i < r.n := by
  rw [h.input]
  exact Nat.mod_lt _ h.capacity

/-- Where the input position stands, without the modulus. -/
theorem input_cases (h : r.Valid) :
    (r.i = r.o + r.u ∧ r.o + r.u < r.n) ∨ (r.i + r.n = r.o + r.u ∧ r.n ≤ r.o + r.u) := by
  have hu := h.used
  have ho := h.output
  have hi := h.input
  by_cases hlt : r.o + r.u < r.n
  · rw [Nat.mod_eq_of_lt hlt] at hi
    exact Or.inl ⟨hi, hlt⟩
  · rw [Nat.mod_eq_sub_mod (by omega), Nat.mod_eq_of_lt (by omega)] at hi
    exact Or.inr ⟨by omega, by omega⟩

end Valid

theorem new_valid (mem : Malloc) (sz : ℕ) (r : Ringbuf) (hsz : 0 < sz)
    (h : new mem sz = some r) : r.Valid ∧ r.n = sz ∧ r.contents = [] := by
  obtain ⟨d, rfl, rfl⟩ := Option.map_eq_some_iff.mp h
  exact ⟨⟨hsz, Nat.zero_le _, hsz, by simp⟩, rfl, rfl⟩

end Ringbuf

end KcpEv
