import KcpEv.Ringbuf

/-!
The ring buffer is a bounded byte queue. Each operation on a valid ring is
described once, by what it does to the pending bytes; no assertion fails and
no copy leaves the allocated block. Later modules use these descriptions and
never unfold the operations again.
-/
namespace KcpEv.Ringbuf

open Circular

variable {r : Ringbuf}

theorem copyIn_ok {off : ℕ} {data : Bytes} (h : off + data.length ≤ r.n) :
    r.copyIn off data = .ok { r with d := store r.d off data } := by
  simp [copyIn, h]

theorem copyOut_ok {off len : ℕ} (h : off + len ≤ r.n) :
    r.copyOut off len = .ok (load r.d off len) := by
  simp [copyOut, h]

/-- The ring behind a `put` that fits. -/
def appended (r : Ringbuf) (data : Bytes) : Ringbuf :=
  { r with
    i := (r.i + data.length) % r.n
    u := r.u + data.length
    d := storeWrap r.d r.n r.i data }

theorem storeWrap_contiguous (m : ℕ → UInt8) (n i : ℕ) (data : Bytes)
    (h : data.length ≤ n - i) : storeWrap m n i data = store m i data := by
  funext j
  simp [storeWrap, List.take_of_length_le h, List.drop_eq_nil_of_le h, store]

/-- A block that fits is appended, in one piece or in two. -/
theorem put_room (h : r.Valid) (data : Bytes) (hroom : r.u + data.length ≤ r.n) :
    r.put data = .ok (r.appended data, 0) := by
  have hu := h.used
  have ho := h.output
  have hi := h.input_lt
  unfold put
  by_cases hio : r.i < r.o
  · have ha : r.o - r.i = r.n - r.u := by
      have := h.input_cases
      omega
    have hfit : ¬ r.o - r.i < data.length := by omega
    simp only [hio, if_true, cAssert_pos ha, hfit, if_false,
      copyIn_ok (show r.i + data.length ≤ r.n by omega)]
    simp [appended, advance, storeWrap_contiguous _ _ _ _ (show data.length ≤ r.n - r.i by omega),
      bind, Except.bind, pure, Except.pure]
  · have ha : (if r.i = r.o then r.n - r.u else r.n - r.i + r.o) = r.n - r.u := by
      have := h.input_cases
      split <;> omega
    have hfit : ¬ r.n - r.u < data.length := by omega
    have hhead : r.i + (data.take (min (r.n - r.i) data.length)).length ≤ r.n := by
      simp only [List.length_take]
      omega
    simp only [hio, if_false, ha, cAssert_pos, hfit, copyIn_ok hhead]
    by_cases hwrap : r.n - r.i < data.length
    · have htail : 0 + (data.drop (r.n - r.i)).length ≤ r.n := by
        simp only [List.length_drop]
        omega
      simp [hwrap, copyIn, show data.length - (r.n - r.i) ≤ r.n by omega, appended, advance,
        storeWrap, Nat.min_eq_left hwrap.le, bind, Except.bind, pure, Except.pure]
    · have hle : data.length ≤ r.n - r.i := by omega
      simp [hwrap, appended, advance, storeWrap_contiguous _ _ _ _ hle, Nat.min_eq_right hle,
        bind, Except.bind, pure, Except.pure]

/-- A block that does not fit is refused and changes nothing. -/
theorem put_full (h : r.Valid) (data : Bytes) (hfull : r.n < r.u + data.length) :
    r.put data = .ok (r, -1) := by
  have hu := h.used
  unfold put
  by_cases hio : r.i < r.o
  · have ha : r.o - r.i = r.n - r.u := by
      have := h.input_cases
      omega
    have hfit : r.o - r.i < data.length := by omega
    simp [hio, cAssert_pos ha, hfit, bind, Except.bind, pure, Except.pure]
  · have ha : (if r.i = r.o then r.n - r.u else r.n - r.i + r.o) = r.n - r.u := by
      have := h.input_cases
      split <;> omega
    have hfit : r.n - r.u < data.length := by omega
    simp [hio, ha, cAssert, hfit, bind, Except.bind, pure, Except.pure]

theorem appended_valid (h : r.Valid) (data : Bytes) (hroom : r.u + data.length ≤ r.n) :
    (r.appended data).Valid := by
  refine ⟨h.capacity, hroom, h.output, ?_⟩
  change (r.i + data.length) % r.n = (r.o + (r.u + data.length)) % r.n
  rw [h.input, Nat.mod_add_mod, Nat.add_assoc]

theorem contents_appended (h : r.Valid) (data : Bytes) (hroom : r.u + data.length ≤ r.n) :
    (r.appended data).contents = r.contents ++ data := by
  have hwindow := window_storeWrap r.d (o := r.o) data h.capacity hroom
  rw [← h.input] at hwindow
  exact hwindow

@[simp] theorem appended_n (data : Bytes) : (r.appended data).n = r.n := rfl

@[simp] theorem appended_u (data : Bytes) : (r.appended data).u = r.u + data.length := rfl

/-- The ring with its first `len` pending bytes gone. -/
def consumed (r : Ringbuf) (len : ℕ) : Ringbuf :=
  { r with o := (r.o + len) % r.n, u := r.u - len }

theorem markConsumed_ok {len : ℕ} (hlen : len ≤ r.u) :
    r.markConsumed len = .ok (r.consumed len) := by
  unfold markConsumed
  rw [cAssert_pos hlen]
  rfl

theorem consumed_valid (h : r.Valid) {len : ℕ} (hlen : len ≤ r.u) : (r.consumed len).Valid := by
  have hu := h.used
  refine ⟨h.capacity, by simp only [consumed]; omega, Nat.mod_lt _ h.capacity, ?_⟩
  change r.i = ((r.o + len) % r.n + (r.u - len)) % r.n
  rw [Nat.mod_add_mod, h.input, show r.o + len + (r.u - len) = r.o + r.u by omega]

theorem contents_consumed {len : ℕ} (hlen : len ≤ r.u) :
    (r.consumed len).contents = r.contents.drop len := by
  change window r.d r.n ((r.o + len) % r.n) (r.u - len) = _
  rw [window_mod, contents, drop_window r.d r.n r.o hlen]

@[simp] theorem consumed_n (len : ℕ) : (r.consumed len).n = r.n := rfl

@[simp] theorem consumed_u (len : ℕ) : (r.consumed len).u = r.u - len := rfl

/-- Copying out reads the first pending bytes, in one piece or in two. -/
theorem copyData_ok (h : r.Valid) {len : ℕ} (hlen : len ≤ r.u) :
    r.copyData len = .ok (some (r.contents.take len)) := by
  have hu := h.used
  have ho := h.output
  unfold copyData
  rw [if_neg (by omega), contents, take_window r.d r.n r.o hlen]
  by_cases hcont : r.o < r.i ∨ len ≤ r.n - r.o
  · have hfit : r.o + len ≤ r.n := by
      have := h.input_cases
      have := h.input_lt
      omega
    simp [hcont, copyOut_ok hfit, window_eq_load r.d hfit, bind, Except.bind, pure, Except.pure]
  · have hwrap := window_wrap r.d (show r.o ≤ r.n by omega) (show r.n ≤ r.o + len by omega)
      (by omega)
    simp [hcont, copyOut, show r.o + (r.n - r.o) ≤ r.n by omega,
      show len - (r.n - r.o) ≤ r.n by omega, hwrap, bind, Except.bind, pure, Except.pure]

/-- Reading more than what is pending is refused. -/
theorem copyData_short {len : ℕ} (hlen : r.u < len) : r.copyData len = .ok none := by
  simp [copyData, hlen]

/-- The next chunk is a prefix of the pending bytes, and empty only with them. -/
theorem getNextChunk_ok (h : r.Valid) :
    ∃ off len, r.getNextChunk = .ok (off, len) ∧ len ≤ r.u ∧ (len = 0 ↔ r.u = 0) ∧
      off + len ≤ r.n ∧ load r.d off len = r.contents.take len := by
  have hu := h.used
  have ho := h.output
  have hi := h.input_lt
  have hcases := h.input_cases
  unfold getNextChunk
  by_cases hoi : r.o < r.i
  · have ha : r.u = r.i - r.o := by omega
    refine ⟨r.o, r.u, ?_, Nat.le_refl _, Iff.rfl, by omega, ?_⟩
    · simp [hoi, cAssert_pos ha, bind, Except.bind, pure, Except.pure]
    · rw [contents, take_window r.d r.n r.o (Nat.le_refl _), window_eq_load r.d (by omega)]
  · by_cases hempty : r.o = r.i ∧ r.u = 0
    · exact ⟨0, 0, by simp [hempty], Nat.zero_le _, by simp [hempty.2], Nat.zero_le _, rfl⟩
    · have ha : r.u = (r.n - r.o) + r.i := by omega
      refine ⟨r.o, r.n - r.o, ?_, by omega, by omega, by omega, ?_⟩
      · simp [hoi, hempty, cAssert_pos ha, bind, Except.bind, pure, Except.pure]
      · rw [contents, take_window r.d r.n r.o (by omega), window_eq_load r.d (by omega)]

end KcpEv.Ringbuf
