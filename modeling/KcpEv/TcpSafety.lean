import KcpEv.TcpRun

/-!
Hostile input on the TCP receive path. The states of a ring are closed under
single calls of `on_tcp_recv` and `get_tcp_buf_chunk`, so every call made
between two loop rounds is covered, and not only the states between callbacks.
-/
namespace KcpEv.TcpSafety

open Circular Framing TcpRecv

/-- The states of the ring of one connection, whatever bytes are received and
whatever `malloc` returns. -/
inductive Reachable : Option Ringbuf → Prop
  | fresh : Reachable none
  | received {rb rb' : Option Ringbuf} {data : Bytes} {newMem growMem : Malloc} {size : ℕ} :
      Reachable rb → 1 ≤ data.length → data.length ≤ kcpevBufferSize →
      onTcpRecv rb data newMem growMem = .ok (rb', size) → Reachable rb'
  | chunk {rb rb' : Option Ringbuf} {frame : Bytes} :
      Reachable rb → getTcpBufChunk rb kcpevBufferSize = .ok (rb', frame) → Reachable rb'

/-- Every call of `on_tcp_recv` returns, and leaves a valid ring. -/
theorem onTcpRecv_ok {rb : Option Ringbuf} (h : RingOk rb) (data : Bytes)
    (newMem growMem : Malloc) :
    ∃ rb' size, onTcpRecv rb data newMem growMem = .ok (rb', size) ∧ RingOk rb' := by
  by_cases hd : Direct (pending rb) data
  · exact ⟨rb, data.length, onTcpRecv_direct newMem growMem hd, h⟩
  · obtain ⟨rb', size, hbuf, hrb', -⟩ := bufferChunk_ok h data newMem growMem
    exact ⟨rb', size, (onTcpRecv_buffered newMem growMem hd).trans hbuf, hrb'⟩

/-- Every call of `get_tcp_buf_chunk` returns, within the buffer it is given. -/
theorem getTcpBufChunk_ok {rb : Option Ringbuf} (h : RingOk rb) :
    ∃ rb' frame, getTcpBufChunk rb kcpevBufferSize = .ok (rb', frame) ∧ RingOk rb' ∧
      frame.length ≤ kcpevBufferSize ∧
      (pending rb').length + frame.length = (pending rb).length := by
  by_cases hc : header.Complete (pending rb)
  · obtain ⟨rb', hget, hrb', hpend⟩ := getTcpBufChunk_complete h hc
    refine ⟨rb', _, hget, hrb', ?_, ?_⟩
    · exact (List.length_take_le' _ _).trans h.length_le
    · rw [hpend, List.length_drop, List.length_take]
      have := hc.2.2
      omega
  · exact ⟨rb, [], getTcpBufChunk_incomplete h hc, h, Nat.zero_le _, by simp⟩

theorem Reachable.ringOk {rb : Option Ringbuf} (h : Reachable rb) : RingOk rb := by
  induction h with
  | fresh => exact ringOk_none
  | @received rb rb' data newMem growMem size _ _ _ hrun ih =>
    obtain ⟨rb'', size', hrun', hrb''⟩ := onTcpRecv_ok ih data newMem growMem
    rw [hrun] at hrun'
    cases hrun'
    exact hrb''
  | chunk _ hrun ih =>
    obtain ⟨rb'', frame', hrun', hrb'', -⟩ := getTcpBufChunk_ok ih
    rw [hrun] at hrun'
    cases hrun'
    exact hrb''

variable {S O : Type}

/-- The drain loop ends after at most as many rounds as there are pending bytes. -/
theorem drain_ends (handle : O → S → Bytes → S × ℤ) (outs : List O) {rb : Option Ringbuf}
    (h : RingOk rb) (s : S) (houts : (pending rb).length ≤ outs.length) :
    ∃ x, drain (fun o s b => .ok (handle o s b)) outs rb s = .ok x := by
  obtain ⟨y, hy⟩ := drainBytes_ends handle outs (pending rb) s ((split_count_le _).trans houts)
  have hrefine := (drain_refines (fun o s b => .ok (handle o s b)) outs h s).1
  rw [hy] at hrefine
  cases hrun : drain (fun o s b => .ok (handle o s b)) outs rb s with
  | error e =>
    rw [hrun] at hrefine
    cases hrefine
  | ok x => exact ⟨x, rfl⟩

theorem Reachable.drain {rb : Option Ringbuf} (h : Reachable rb)
    {dispatch : O → S → Bytes → Exec (S × ℤ)} {outs : List O} {s : S}
    {x : Option Ringbuf × S × Bool} (hrun : TcpRecv.drain dispatch outs rb s = .ok x) :
    Reachable x.1 := by
  induction outs generalizing rb s with
  | nil =>
    unfold TcpRecv.drain at hrun
    obtain ⟨⟨rb', frame⟩, hget, hrest⟩ := bind_eq_ok.mp hrun
    have hrb' := h.chunk hget
    simp only at hrest
    split at hrest
    · cases hrest
      exact hrb'
    · cases hrest
  | cons o outs ih =>
    unfold TcpRecv.drain at hrun
    obtain ⟨⟨rb', frame⟩, hget, hrest⟩ := bind_eq_ok.mp hrun
    have hrb' := h.chunk hget
    simp only at hrest
    split at hrest
    · cases hrest
      exact hrb'
    · obtain ⟨⟨s', ret⟩, -, hnext⟩ := bind_eq_ok.mp hrest
      simp only at hnext
      split at hnext
      · exact ih hrb' hnext
      · cases hnext
        exact hrb'

theorem Reachable.tcpRecv {rb : Option Ringbuf} (h : Reachable rb)
    {dispatch : O → S → Bytes → Exec (S × ℤ)} {outs : List O} {newMem growMem : Malloc} {s : S}
    {data : Bytes} (hlo : 1 ≤ data.length) (hhi : data.length ≤ kcpevBufferSize)
    {x : Option Ringbuf × S × Bool}
    (hrun : TcpRecv.tcpRecv dispatch outs newMem growMem rb s data = .ok x) : Reachable x.1 := by
  obtain ⟨rb', size, hrecv, -⟩ := onTcpRecv_ok h.ringOk data newMem growMem
  have hrb' := h.received hlo hhi hrecv
  rw [tcpRecv_of_onTcpRecv dispatch outs s hrecv] at hrun
  by_cases hpos : 0 < toInt size
  · cases outs with
    | nil =>
      rw [dispatchAndDrain_unfinished dispatch rb' s data hpos] at hrun
      cases hrun
    | cons o outs =>
      rw [dispatchAndDrain_pos dispatch o outs rb' s data hpos] at hrun
      obtain ⟨⟨s', ret⟩, -, hnext⟩ := bind_eq_ok.mp hrun
      simp only at hnext
      split at hnext
      · exact hrb'.drain hnext
      · cases hnext
        exact hrb'
  · rw [dispatchAndDrain_nonpos dispatch outs rb' s data hpos] at hrun
    exact hrb'.drain hrun

theorem tcpRecv_ends (handle : O → S → Bytes → S × ℤ) (outs : List O) (newMem growMem : Malloc)
    {rb : Option Ringbuf} (h : RingOk rb) (s : S) (data : Bytes)
    (houts : kcpevBufferSize ≤ outs.length) :
    ∃ x, tcpRecv (fun o s b => .ok (handle o s b)) outs newMem growMem rb s data = .ok x := by
  obtain ⟨rb', size, hrecv, hrb'⟩ := onTcpRecv_ok h data newMem growMem
  have hpend := hrb'.length_le
  rw [tcpRecv_of_onTcpRecv _ outs s hrecv]
  by_cases hpos : 0 < toInt size
  · have hd : Direct (pending rb) data := by
      by_contra hd
      obtain ⟨_, size', hbuf, -, hsmall, -⟩ := bufferChunk_ok h data newMem growMem
      rw [onTcpRecv_buffered newMem growMem hd, hbuf] at hrecv
      cases hrecv
      exact hsmall hpos
    have hsame : rb' = rb := by
      rw [onTcpRecv_direct newMem growMem hd] at hrecv
      cases hrecv
      rfl
    subst hsame
    cases outs with
    | nil => exact absurd houts (Nat.not_le_of_lt (show 0 < kcpevBufferSize by decide))
    | cons o outs =>
      rw [dispatchAndDrain_pos _ o outs rb' s data hpos]
      simp only [Except.bind]
      split
      · exact drain_ends handle outs h _ (by rw [hd.1]; exact Nat.zero_le _)
      · exact ⟨_, rfl⟩
  · rw [dispatchAndDrain_nonpos _ outs rb' s data hpos]
    exact drain_ends handle outs hrb' s (hpend.trans houts)

/-- Safety of the receive path for arbitrary bytes and allocation failures: in
every reachable state the positions are inside the ring; every call of
`on_tcp_recv` and `get_tcp_buf_chunk` returns, so no assertion fails and no
copy leaves its object; a chunk fits the 65536 bytes it is written to; the
drain loop ends within as many rounds as bytes are pending, whatever frames are
dispatched to; and the callback as a whole returns in a reachable state. -/
theorem receive_safe {rb : Option Ringbuf} (h : Reachable rb) :
    (∀ r, rb = some r → r.i < r.n ∧ r.o < r.n ∧ r.u ≤ r.n ∧ r.n = 65536) ∧
    (∀ data newMem growMem, 1 ≤ data.length → data.length ≤ 65536 →
      ∃ rb' size, onTcpRecv rb data newMem growMem = .ok (rb', size)) ∧
    (∃ rb' frame, getTcpBufChunk rb 65536 = .ok (rb', frame) ∧ frame.length ≤ 65536) ∧
    (∀ {S O : Type} (handle : O → S → Bytes → S × ℤ) (outs : List O) (s : S),
      (pending rb).length ≤ outs.length →
      ∃ rb' s' alive, drain (fun o s b => .ok (handle o s b)) outs rb s = .ok (rb', s', alive) ∧
        Reachable rb') ∧
    (∀ {S O : Type} (handle : O → S → Bytes → S × ℤ) (outs : List O) (s : S) data newMem growMem,
      1 ≤ data.length → data.length ≤ 65536 → 65536 ≤ outs.length →
      ∃ rb' s' alive, tcpRecv (fun o s b => .ok (handle o s b)) outs newMem growMem rb s data =
        .ok (rb', s', alive) ∧ Reachable rb') := by
  have hring := h.ringOk
  refine ⟨?_, ?_, ?_, ?_, ?_⟩
  · intro r hr
    obtain ⟨hvalid, hn⟩ := hring r hr
    exact ⟨hvalid.input_lt, hvalid.output, hvalid.used, hn⟩
  · intro data newMem growMem _ _
    obtain ⟨rb', size, hrecv, -⟩ := onTcpRecv_ok hring data newMem growMem
    exact ⟨rb', size, hrecv⟩
  · obtain ⟨rb', frame, hget, -, hlen, -⟩ := getTcpBufChunk_ok hring
    exact ⟨rb', frame, hget, hlen⟩
  · intro S O handle outs s houts
    obtain ⟨⟨rb', s', alive⟩, hrun⟩ := drain_ends handle outs hring s houts
    exact ⟨rb', s', alive, hrun, h.drain hrun⟩
  · intro S O handle outs s data newMem growMem hlo hhi houts
    obtain ⟨⟨rb', s', alive⟩, hrun⟩ :=
      tcpRecv_ends handle outs newMem growMem hring s data houts
    exact ⟨rb', s', alive, hrun, h.tcpRecv hlo hhi hrun⟩

/-- A chunk that goes through the ring and finds room there. -/
theorem Reachable.buffered {rb : Option Ringbuf} (h : Reachable rb) (data : Bytes)
    (hlo : 1 ≤ data.length) (hd : ¬ Direct (pending rb) data)
    (hroom : (pending rb).length + data.length ≤ kcpevBufferSize) :
    ∃ rb', Reachable rb' ∧ pending rb' = pending rb ++ data := by
  obtain ⟨rb', size, hbuf, -, -, hpend⟩ :=
    bufferChunk_ok h.ringOk data (some fun _ => 0) none
  have havail : ringAvailable rb (some fun _ => 0) = true := by simp [ringAvailable]
  have hhi : data.length ≤ kcpevBufferSize := (Nat.le_add_left _ _).trans hroom
  refine ⟨rb', h.received hlo hhi ((onTcpRecv_buffered _ _ hd).trans hbuf), ?_⟩
  rw [hpend, havail]
  simp [bufferedBytes, hroom]

/-- A frame of twelve bytes that is cut inside its header. -/
def hostileFrame : Bytes := [0, 0, 0, 12, 1, 0, 0, 0, 9, 9, 9, 9]

/-- A header that declares 2^32 - 1 bytes, and what follows it. -/
def oversized (n : ℕ) : Bytes := List.replicate n 0xff

theorem size_oversized {n : ℕ} (hn : 8 ≤ n) : header.size (oversized n) = 2 ^ 32 - 1 := by
  have hsplit : oversized n = oversized 8 ++ oversized (n - 8) := by
    rw [oversized, oversized, oversized, List.replicate_append_replicate]
    congr 1
    omega
  have hhead : header.len ≤ (oversized 8).length := by decide
  rw [hsplit, header.size_append _ _ hhead]
  decide

/-- The first frame has been taken, the oversized header stands at the front, and four
bytes of the ring are free. -/
theorem exists_hostile : ∃ rb, Reachable rb ∧ pending rb = oversized 65532 := by
  have hsize := kcpevBufferSize_eq
  obtain ⟨rb₁, h₁, hp₁⟩ := Reachable.fresh.buffered (hostileFrame.take 3) (by decide)
    (by decide) (by decide)
  have htail : (hostileFrame.drop 3 ++ oversized 65524).length = 65533 := by
    rw [List.length_append, oversized, List.length_replicate]
    rfl
  have hnext : (pending rb₁).length = 3 := by
    rw [hp₁]
    rfl
  obtain ⟨rb₂, h₂, hp₂⟩ := h₁.buffered (hostileFrame.drop 3 ++ oversized 65524)
    (by rw [htail]; omega) (fun hd => by rw [hd.1] at hnext; cases hnext)
    (by rw [htail, hnext, hsize])
  have hfront : pending rb₂ = hostileFrame ++ oversized 65524 := by
    rw [hp₂, hp₁, pending_none, List.nil_append, ← List.append_assoc, List.take_append_drop]
  have hframe : header.IsFrame hostileFrame := by
    unfold Header.IsFrame
    decide
  have hlen : header.size (pending rb₂) = 12 := by
    rw [hfront, header.size_append _ _ hframe.1]
    decide
  obtain ⟨rb₃, hget, -, hp₃⟩ := getTcpBufChunk_complete h₂.ringOk
    (by rw [hfront]; exact header.complete_frame _ hframe)
  have hrest : pending rb₃ = oversized 65524 := by
    rw [hp₃, hlen, hfront]
    exact List.drop_left' rfl
  have hlong : (pending rb₃).length = 65524 := by
    rw [hrest, oversized, List.length_replicate]
  obtain ⟨rb₄, h₄, hp₄⟩ := (h₂.chunk hget).buffered (oversized 8) (by decide)
    (fun hd => by rw [hd.1] at hlong; cases hlong) (by rw [hlong]; decide)
  refine ⟨rb₄, h₄, ?_⟩
  rw [hp₄, hrest, oversized, oversized, List.replicate_append_replicate]
  rfl

/-- Behind the hostile chunks, more bytes than fit are received, the loop drains, and
a whole callback runs. -/
theorem receive_safe_hostile : ∃ rb, Reachable rb ∧ pending rb = oversized 65532 ∧
    header.size (pending rb) = 2 ^ 32 - 1 ∧ (∀ r, rb = some r → r.u ≤ r.n) ∧
    (∃ rb' size, onTcpRecv rb (oversized 100) none (some fun _ => 0) = .ok (rb', size)) ∧
    (∃ rb' log alive, drain (fun _ s b => .ok (s ++ [b], (0 : ℤ))) (List.replicate 65536 ()) rb
      ([] : List Bytes) = .ok (rb', log, alive) ∧ Reachable rb') ∧
    (∃ rb' log alive, tcpRecv (fun _ s b => .ok (s ++ [b], (0 : ℤ))) (List.replicate 65536 ())
      none none rb ([] : List Bytes) (oversized 4) = .ok (rb', log, alive) ∧ Reachable rb') := by
  obtain ⟨rb, h, hpend⟩ := exists_hostile
  have hlen : (pending rb).length ≤ (List.replicate 65536 ()).length := by
    rw [hpend, oversized, List.length_replicate, List.length_replicate]
    omega
  obtain ⟨hring, hrecv, -, hdrain, hcall⟩ := receive_safe h
  have hdeclared : header.size (pending rb) = 2 ^ 32 - 1 := by
    rw [hpend]
    exact size_oversized (by omega)
  refine ⟨rb, h, hpend, hdeclared, fun r hr => (hring r hr).2.2.1, ?_, ?_, ?_⟩
  · exact hrecv _ _ _ (by decide) (by decide)
  · exact hdrain (fun _ s b => (s ++ [b], 0)) _ [] hlen
  · exact hcall (fun _ s b => (s ++ [b], 0)) _ [] _ _ _ (by decide) (by decide)
      (by rw [List.length_replicate])

/-! The direct path. -/

/-- The plain algorithm: append the chunk to the pending bytes, then split complete
frames off their front and dispatch them, up to the first error. -/
def plainReceive (dispatch : O → S → Bytes → Exec (S × ℤ)) (outs : List O) (p : Bytes) (s : S)
    (data : Bytes) : Exec (Bytes × S × Bool) :=
  drainBytes dispatch outs (p ++ data) s

/-- Whatever the frames are dispatched to, the callback dispatches the frames that
the plain algorithm does, in the same order and with the same results, and leaves
the same bytes pending. -/
theorem tcpRecv_eq_plain {rb : Option Ringbuf} (h : Reachable rb) {newMem : Malloc}
    (growMem : Malloc) (hring : ringAvailable rb newMem = true) {data : Bytes}
    (hroom : (pending rb).length + data.length ≤ kcpevBufferSize)
    (dispatch : O → S → Bytes → Exec (S × ℤ)) (outs : List O) (s : S) :
    (tcpRecv dispatch outs newMem growMem rb s data).map abstractResult =
      plainReceive dispatch outs (pending rb) s data := by
  have hdata : data.length ≤ kcpevBufferSize := (Nat.le_add_left _ _).trans hroom
  obtain ⟨hrefines, -⟩ := tcpRecv_refines dispatch outs newMem growMem h.ringOk s data hdata
  rw [hrefines, hring]
  exact receiveBytes_room dispatch outs growMem.isSome (pending rb) s data hroom

/-- Three bytes of a frame are pending; the chunk holds the rest of it, a second frame
and the start of a third one. -/
theorem tcpRecv_eq_plain_behind : ∃ rb, Reachable rb ∧ pending rb = hostileFrame.take 3 ∧
    (tcpRecv record [0, 0] (some fun _ => 0) none rb []
        (hostileFrame.drop 3 ++ hostileFrame ++ [0, 0])).map abstractResult =
      .ok ([0, 0], [hostileFrame, hostileFrame], true) := by
  obtain ⟨rb, h, hpend⟩ := Reachable.fresh.buffered (hostileFrame.take 3) (by decide)
    (by decide) (by decide)
  rw [pending_none, List.nil_append] at hpend
  refine ⟨rb, h, hpend, ?_⟩
  have havail : ringAvailable rb (some fun _ => 0) = true := by simp [ringAvailable]
  rw [tcpRecv_eq_plain h none havail (by rw [hpend]; decide) record [0, 0] [], hpend]
  decide

end KcpEv.TcpSafety
