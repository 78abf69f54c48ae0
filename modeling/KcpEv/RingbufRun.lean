import KcpEv.RingbufQueue
import KcpEv.Lib.BoundedQueue

/-!
The ring buffer over whole sequences of operations. It answers as a byte queue of
its capacity, and no assertion fails. Its two readers agree: what `ringbuf_copy_data`
copies is what the chunks deliver, in whatever portions they are consumed.
-/
namespace KcpEv.Ringbuf

open BoundedQueue Circular

/-- One operation; the chunk is read where the returned pointer points to. -/
def apply (r : Ringbuf) : Op UInt8 → Exec (Ringbuf × Reply UInt8)
  | .put data => do
    let (r, ret) ← r.put data
    return (r, .put (ret = 0))
  | .copy len => do
    let data ← r.copyData len
    return (r, .copied data)
  | .chunk => do
    let (off, size) ← r.getNextChunk
    let data ← r.copyOut off size
    return (r, .chunk data)
  | .consume len => do
    let r ← r.markConsumed len
    return (r, .done)
  | .clear => .ok (r.clear, .done)

/-- Rounds of `ringbuf_get_next_chunk` and `ringbuf_mark_consumed`, each of which
consumes so many bytes of the chunk, or all of a shorter one. -/
def deliver : List ℕ → Ringbuf → Exec (Ringbuf × Bytes)
  | [], r => .ok (r, [])
  | k :: ks, r => do
    let (off, size) ← r.getNextChunk
    let chunk ← r.copyOut off (min k size)
    let r ← r.markConsumed (min k size)
    let (r, rest) ← deliver ks r
    return (r, chunk ++ rest)

variable {r : Ringbuf} {n : ℕ}

theorem new_some (d : ℕ → UInt8) (sz : ℕ) :
    new (some d) sz = some { n := sz, u := 0, i := 0, o := 0, d } := rfl

theorem clear_valid (h : r.Valid) : r.clear.Valid :=
  ⟨h.capacity, Nat.zero_le _, h.capacity, by simp [clear]⟩

/-- A valid ring does what the queue of its capacity does. -/
theorem implements_queue (n : ℕ) :
    Implements apply (fun r => r.Valid ∧ r.n = n) contents n where
  apply_ok {r op} hr hop := by
    obtain ⟨hr, hn⟩ := hr
    have hlen := r.length_contents
    cases op with
    | put data =>
      by_cases hroom : r.u + data.length ≤ n
      · refine ⟨r.appended data, .put true, ?_, ⟨appended_valid hr data (by omega), hn⟩, ?_, ?_⟩
        · simp [apply, put_room hr data (by omega), bind, Except.bind, pure, Except.pure]
        · simp [Answers, hroom]
        · rw [contents_appended hr data (by omega), next, hlen, if_pos hroom]
      · refine ⟨r, .put false, ?_, ⟨hr, hn⟩, ?_, ?_⟩
        · simp [apply, put_full hr data (by omega), bind, Except.bind, pure, Except.pure]
        · simp [Answers, hroom]
        · rw [next, hlen, if_neg hroom]
    | copy len =>
      by_cases hshort : r.u < len
      · refine ⟨r, .copied none, ?_, ⟨hr, hn⟩, ?_, rfl⟩
        · simp [apply, copyData_short hshort, bind, Except.bind, pure, Except.pure]
        · simp [Answers, hshort]
      · refine ⟨r, .copied (some (r.contents.take len)), ?_, ⟨hr, hn⟩, ?_, rfl⟩
        · simp [apply, copyData_ok hr (Nat.le_of_not_lt hshort), bind, Except.bind, pure,
            Except.pure]
        · simp [Answers, hshort]
    | chunk =>
      obtain ⟨off, size, hchunk, hle, hempty, hfit, hload⟩ := getNextChunk_ok hr
      refine ⟨r, .chunk (load r.d off size), ?_, ⟨hr, hn⟩, ⟨?_, ?_⟩, rfl⟩
      · simp [apply, hchunk, copyOut_ok hfit, bind, Except.bind, pure, Except.pure]
      · rw [hload]
        exact List.take_prefix _ _
      · rw [← List.length_eq_zero_iff, length_load, hempty, ← hlen, List.length_eq_zero_iff]
    | consume len =>
      have hle : len ≤ r.u := hlen ▸ hop
      refine ⟨r.consumed len, .done, ?_, ⟨consumed_valid hr hle, hn⟩, trivial, ?_⟩
      · simp [apply, markConsumed_ok hle, bind, Except.bind, pure, Except.pure]
      · exact contents_consumed hle
    | clear => exact ⟨r.clear, .done, rfl, ⟨clear_valid hr, hn⟩, trivial, rfl⟩

/-- The chunks deliver a front of the pending bytes. With a round for every pending
byte they deliver all. -/
theorem deliver_ok (h : r.Valid) (ks : List ℕ) :
    ∃ r' m, r.deliver ks = .ok (r', r.contents.take m) ∧ m ≤ r.u ∧
      ((∀ k ∈ ks, 0 < k) → r.u ≤ ks.length → m = r.u) := by
  induction ks generalizing r with
  | nil =>
    refine ⟨r, 0, by simp [deliver], Nat.zero_le _, fun _ hrounds => ?_⟩
    rw [List.length_nil] at hrounds
    omega
  | cons k ks ih =>
    obtain ⟨off, size, hchunk, hle, hempty, hfit, hload⟩ := getNextChunk_ok h
    have hpart : min k size ≤ r.u := (Nat.min_le_right _ _).trans hle
    obtain ⟨r', m, hrest, hm, hall⟩ := ih (consumed_valid h hpart)
    rw [contents_consumed hpart] at hrest
    rw [consumed_u] at hm hall
    have hpiece : load r.d off (min k size) = r.contents.take (min k size) := by
      have hmin := Nat.min_le_right k size
      have hsplit : size = min k size + (size - min k size) := by omega
      have htake := congrArg (List.take (min k size)) hload
      rw [List.take_take, Nat.min_eq_left hmin] at htake
      rw [← htake, hsplit, load_add, ← hsplit, List.take_left' (length_load ..)]
    refine ⟨r', min k size + m, ?_, by omega, fun hpos hrounds => ?_⟩
    · rw [deliver, hchunk]
      simp only [copyOut_ok (show off + min k size ≤ r.n by omega), markConsumed_ok hpart, hrest,
        bind, Except.bind, pure, Except.pure]
      rw [hpiece, List.take_add]
    · have hk : 0 < k := hpos k List.mem_cons_self
      rw [List.length_cons] at hrounds
      have hlast := hall (fun k' hk' => hpos k' (List.mem_cons_of_mem k hk'))
      by_cases hnone : r.u = 0
      · omega
      · have hsize : size ≠ 0 := fun hzero => hnone (hempty.mp hzero)
        have := hlast (by omega)
        omega

/-- A ring of five bytes that is filled, read in part and filled behind its end. -/
def wrapAround : List (Op UInt8) :=
  [.put [1, 1, 1, 1], .consume 3, .put [2, 2, 2, 2], .copy 6, .copy 5, .chunk]

end KcpEv.Ringbuf
