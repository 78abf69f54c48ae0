import Mathlib.Data.List.Basic
import Mathlib.Data.Nat.ModEq
import Mathlib.Tactic.NormNum

/-!
Blocks of cells and circular windows over them. A memory is a function from
offsets to cells; `load` and `store` move a contiguous block, and `window`
reads a block that wraps at the capacity. Nothing here depends on what the
cells hold, and the bounds of the underlying object are left to the caller.
-/
namespace KcpEv.Circular

variable {α : Type*}

/-- The `len` cells from offset `off` on. -/
def load (m : ℕ → α) (off len : ℕ) : List α :=
  (List.range len).map fun j => m (off + j)

/-- Overwrite the cells from offset `off` on with `data`. -/
def store (m : ℕ → α) (off : ℕ) (data : List α) : ℕ → α :=
  fun j => if off ≤ j then (data[j - off]?).getD (m j) else m j

/-- The `len` cells from offset `off` on, wrapping at the capacity `n`. -/
def window (m : ℕ → α) (n off len : ℕ) : List α :=
  (List.range len).map fun j => m ((off + j) % n)

@[simp] theorem length_load (m : ℕ → α) (off len : ℕ) :
    (load m off len).length = len := by simp [load]

@[simp] theorem length_window (m : ℕ → α) (n off len : ℕ) :
    (window m n off len).length = len := by simp [window]

@[simp] theorem load_zero (m : ℕ → α) (off : ℕ) : load m off 0 = [] := rfl

@[simp] theorem window_zero (m : ℕ → α) (n off : ℕ) : window m n off 0 = [] := rfl

theorem load_add (m : ℕ → α) (off a b : ℕ) :
    load m off (a + b) = load m off a ++ load m (off + a) b := by
  simp [load, List.range_add, Nat.add_assoc]

theorem window_add (m : ℕ → α) (n off a b : ℕ) :
    window m n off (a + b) = window m n off a ++ window m n (off + a) b := by
  simp [window, List.range_add, Nat.add_assoc]

theorem window_mod (m : ℕ → α) (n off len : ℕ) :
    window m n (off % n) len = window m n off len := by
  simp [window]

theorem window_congr {m m' : ℕ → α} {n off len : ℕ}
    (h : ∀ j, j < len → m ((off + j) % n) = m' ((off + j) % n)) :
    window m n off len = window m' n off len := by
  apply List.map_congr_left
  intro j hj
  exact h j (List.mem_range.mp hj)

/-- A window that does not reach the capacity is a contiguous block. -/
theorem window_eq_load (m : ℕ → α) {n off len : ℕ} (h : off + len ≤ n) :
    window m n off len = load m off len := by
  apply List.map_congr_left
  intro j hj
  have hj' := List.mem_range.mp hj
  rw [Nat.mod_eq_of_lt (by omega)]

/-- A window that crosses the capacity once is a tail block and a head block. -/
theorem window_wrap (m : ℕ → α) {n off len : ℕ} (hoff : off ≤ n) (hlo : n ≤ off + len)
    (hhi : len ≤ n) :
    window m n off len = load m off (n - off) ++ load m 0 (len - (n - off)) := by
  have hsplit : len = (n - off) + (len - (n - off)) := by omega
  conv => lhs; rw [hsplit, window_add]
  rw [window_eq_load m (by omega), ← window_mod m n (off + (n - off))]
  have hend : (off + (n - off)) % n = 0 := by
    rw [show off + (n - off) = n by omega, Nat.mod_self]
  rw [hend, window_eq_load m (by omega)]

theorem take_window (m : ℕ → α) (n off : ℕ) {a len : ℕ} (h : a ≤ len) :
    (window m n off len).take a = window m n off a := by
  obtain ⟨b, rfl⟩ := Nat.exists_eq_add_of_le h
  rw [window_add, List.take_left' (length_window m n off a)]

theorem drop_window (m : ℕ → α) (n off : ℕ) {a len : ℕ} (h : a ≤ len) :
    (window m n off len).drop a = window m n (off + a) (len - a) := by
  obtain ⟨b, rfl⟩ := Nat.exists_eq_add_of_le h
  rw [window_add, List.drop_left' (length_window m n off a), Nat.add_sub_cancel_left]

theorem store_at (m : ℕ → α) (off : ℕ) (data : List α) (j : ℕ) (hj : j < data.length) :
    store m off data (off + j) = data[j] := by
  simp [store, hj]

theorem store_outside (m : ℕ → α) (off : ℕ) (data : List α) (k : ℕ)
    (hk : k < off ∨ off + data.length ≤ k) : store m off data k = m k := by
  unfold store
  split
  · rw [List.getElem?_eq_none (by omega), Option.getD_none]
  · rfl

theorem load_store_same (m : ℕ → α) (off : ℕ) (data : List α) :
    load (store m off data) off data.length = data := by
  apply List.ext_getElem
  · simp
  · intro j h1 h2
    simp only [load, List.getElem_map, List.getElem_range]
    exact store_at m off data j h2

theorem load_store_outside (m : ℕ → α) (off : ℕ) (data : List α) (a len : ℕ)
    (h : a + len ≤ off ∨ off + data.length ≤ a) :
    load (store m off data) a len = load m a len := by
  apply List.map_congr_left
  intro j hj
  have hj' := List.mem_range.mp hj
  exact store_outside m off data (a + j) (by omega)

/-- Write `data` from offset `i` on, wrapping at the capacity `n`. -/
def storeWrap (m : ℕ → α) (n i : ℕ) (data : List α) : ℕ → α :=
  store (store m i (data.take (n - i))) 0 (data.drop (n - i))

theorem storeWrap_at (m : ℕ → α) {n i : ℕ} (data : List α) (hi : i < n)
    (hlen : data.length ≤ n) (j : ℕ) (hj : j < data.length) :
    storeWrap m n i data ((i + j) % n) = data[j] := by
  unfold storeWrap
  by_cases hwrap : i + j < n
  · rw [Nat.mod_eq_of_lt hwrap, store_outside _ _ _ _ (Or.inr (by simp; omega))]
    rw [store_at _ _ _ _ (by simp; omega), List.getElem_take]
  · have hmod : (i + j) % n = i + j - n := by
      rw [Nat.mod_eq_sub_mod (by omega), Nat.mod_eq_of_lt (by omega)]
    have hzero : i + j - n = 0 + (j - (n - i)) := by omega
    rw [hmod, hzero, store_at _ _ _ _ (by simp; omega), List.getElem_drop]
    congr 1
    omega

theorem storeWrap_outside (m : ℕ → α) {n i : ℕ} (data : List α) (hi : i < n)
    (j : ℕ) (hj : data.length ≤ j) (hjn : j < n) :
    storeWrap m n i data ((i + j) % n) = m ((i + j) % n) := by
  unfold storeWrap
  by_cases hwrap : i + j < n
  · rw [Nat.mod_eq_of_lt hwrap, store_outside _ _ _ _ (Or.inr (by simp; omega)),
      store_outside _ _ _ _ (Or.inr (by simp; omega))]
  · have hmod : (i + j) % n = i + j - n := by
      rw [Nat.mod_eq_sub_mod (by omega), Nat.mod_eq_of_lt (by omega)]
    rw [hmod, store_outside _ _ _ _ (Or.inr (by simp; omega)),
      store_outside _ _ _ _ (Or.inl (by omega))]

/-- Writing right behind a window extends the window by the written data. -/
theorem window_storeWrap (m : ℕ → α) {n o u : ℕ} (data : List α) (hn : 0 < n)
    (hroom : u + data.length ≤ n) :
    window (storeWrap m n ((o + u) % n) data) n o (u + data.length) =
      window m n o u ++ data := by
  have hi : (o + u) % n < n := Nat.mod_lt _ hn
  rw [window_add]
  congr 1
  · apply window_congr
    intro j hj
    have hindex : (o + j) % n = ((o + u) % n + (n - u + j)) % n := by
      rw [Nat.mod_add_mod, show o + u + (n - u + j) = o + j + n by omega, Nat.add_mod_right]
    rw [hindex]
    exact storeWrap_outside m data hi _ (by omega) (by omega)
  · apply List.ext_getElem
    · simp
    · intro j h1 h2
      simp only [window, List.getElem_map, List.getElem_range]
      have hindex : (o + u + j) % n = ((o + u) % n + j) % n := (Nat.mod_add_mod _ _ _).symm
      rw [hindex]
      exact storeWrap_at m data hi (by omega) j h2

end KcpEv.Circular
