import KcpEv.TcpRecv

/-!
The TCP receive path refines a receiver over byte strings. `drainBytes` takes
complete frames off the front of the pending bytes and dispatches them;
`receiveBytes` appends the received chunk first. The ring, its positions and
the three ways a chunk can go through `on_tcp_recv` do not occur in them. The
refinement holds for every valid ring of the capacity `on_tcp_recv` allocates.
-/
namespace KcpEv.TcpRecv

open Circular Framing

/-- The pending bytes of a connection. -/
def pending (rb : Option Ringbuf) : Bytes := rb.elim [] Ringbuf.contents

@[simp] theorem pending_none : pending none = [] := rfl

@[simp] theorem pending_some (r : Ringbuf) : pending (some r) = r.contents := rfl

theorem length_pending (rb : Option Ringbuf) : (pending rb).length = pendingSize rb := by
  cases rb with
  | none => rfl
  | some r => exact r.length_contents

/-- The ring of a connection is valid and has the capacity it was allocated with. -/
def RingOk (rb : Option Ringbuf) : Prop := ∀ r, rb = some r → r.Valid ∧ r.n = kcpevBufferSize

theorem ringOk_none : RingOk none := fun _ h => nomatch h

theorem ringOk_some {r : Ringbuf} (h : r.Valid) (hn : r.n = kcpevBufferSize) :
    RingOk (some r) := by
  intro r' hr'
  cases hr'
  exact ⟨h, hn⟩

theorem RingOk.length_le {rb : Option Ringbuf} (h : RingOk rb) :
    (pending rb).length ≤ kcpevBufferSize := by
  cases rb with
  | none => exact Nat.zero_le _
  | some r =>
    obtain ⟨hr, hn⟩ := h r rfl
    rw [pending_some, r.length_contents, ← hn]
    exact hr.used

variable {S O : Type}

/-- Dispatch complete frames off the front of the pending bytes. -/
def drainBytes (dispatch : O → S → Bytes → Exec (S × ℤ)) :
    List O → Bytes → S → Exec (Bytes × S × Bool)
  | outs, p, s =>
    if header.Complete p then
      match outs with
      | [] => .error .unfinished
      | o :: outs => do
        let (s, ret) ← dispatch o s (p.take (header.size p))
        let rest := p.drop (header.size p)
        if ret = 0 then drainBytes dispatch outs rest s else return (rest, s, false)
    else .ok (p, s, true)

theorem drainBytes_incomplete (dispatch : O → S → Bytes → Exec (S × ℤ)) (outs : List O)
    {p : Bytes} (s : S) (h : ¬ header.Complete p) :
    drainBytes dispatch outs p s = .ok (p, s, true) := by
  unfold drainBytes
  rw [if_neg h]

theorem drainBytes_unfinished (dispatch : O → S → Bytes → Exec (S × ℤ)) {p : Bytes} (s : S)
    (h : header.Complete p) : drainBytes dispatch [] p s = .error .unfinished := by
  unfold drainBytes
  rw [if_pos h]

theorem drainBytes_cons (dispatch : O → S → Bytes → Exec (S × ℤ)) (o : O) (outs : List O)
    {p : Bytes} (s : S) (h : header.Complete p) :
    drainBytes dispatch (o :: outs) p s =
      (dispatch o s (p.take (header.size p))).bind fun x =>
        if x.2 = 0 then drainBytes dispatch outs (p.drop (header.size p)) x.1
        else .ok (p.drop (header.size p), x.1, false) := by
  conv => lhs; unfold drainBytes
  rw [if_pos h]
  rfl

theorem drainBytes_nil (dispatch : O → S → Bytes → Exec (S × ℤ)) (outs : List O) (s : S) :
    drainBytes dispatch outs [] s = .ok ([], s, true) :=
  drainBytes_incomplete dispatch outs s (by decide)

/-- What is pending once a chunk went through the ring: the chunk is appended
when there is a ring and room in it; otherwise it is lost, and so are the
pending bytes when a bigger ring could be allocated. -/
def bufferedBytes (ring grow : Bool) (p data : Bytes) : Bytes :=
  if ring = false then p
  else if p.length + data.length ≤ kcpevBufferSize then p ++ data
  else if grow then [] else p

/-- The chunk is one frame and nothing is pending. -/
def Direct (p data : Bytes) : Prop :=
  p = [] ∧ headerSize ≤ data.length ∧ header.size data = data.length

instance (p data : Bytes) : Decidable (Direct p data) := by
  unfold Direct
  infer_instance

def receiveBytes (dispatch : O → S → Bytes → Exec (S × ℤ)) (outs : List O)
    (ring grow : Bool) (p : Bytes) (s : S) (data : Bytes) : Exec (Bytes × S × Bool) :=
  if Direct p data then drainBytes dispatch outs data s
  else drainBytes dispatch outs (bufferedBytes ring grow p data) s

/-! The ring operations of the receive path, by what they do to the pending bytes. -/

theorem getTcpBufChunk_incomplete {rb : Option Ringbuf} (h : RingOk rb)
    (hc : ¬ header.Complete (pending rb)) : getTcpBufChunk rb kcpevBufferSize = .ok (rb, []) := by
  have hbuf : ¬ kcpevBufferSize < headerSize := by decide
  unfold getTcpBufChunk
  rw [if_neg hbuf]
  cases rb with
  | none => rfl
  | some r =>
    obtain ⟨hr, hn⟩ := h r rfl
    by_cases hlen : r.u < headerSize
    · simp [Ringbuf.getPendingSize, hlen]
    · have hhead : headerSize ≤ r.u := Nat.le_of_not_lt hlen
      have hsize : header.size (r.contents.take headerSize) = header.size r.contents := by
        have happ := header.size_append (r.contents.take headerSize) (r.contents.drop headerSize)
          (by simp [header, hhead])
        rw [List.take_append_drop] at happ
        exact happ.symm
      simp only [Ringbuf.getPendingSize, hlen, if_false, Ringbuf.copyData_ok hr hhead,
        headerFromNet_eq _ (Nat.le_of_not_lt hbuf), bind, Except.bind]
      by_cases hle : (be32toh (r.contents.take headerSize)).toNat ≤ r.u
      · have hzero : (be32toh (r.contents.take headerSize)).toNat = 0 := by
          change header.size _ = 0
          rw [hsize]
          by_contra hpos
          apply hc
          refine ⟨by simpa [header] using hhead, Nat.pos_of_ne_zero hpos, ?_⟩
          rw [pending_some, r.length_contents, ← hsize]
          exact hle
        have hsame : r.consumed 0 = r := by
          simp [Ringbuf.consumed, Nat.mod_eq_of_lt hr.output]
        simp [hzero, Ringbuf.copyData_ok hr (Nat.zero_le _), Ringbuf.markConsumed_ok, hsame,
          pure, Except.pure]
      · simp [hle, pure, Except.pure]

theorem getTcpBufChunk_complete {rb : Option Ringbuf} (h : RingOk rb)
    (hc : header.Complete (pending rb)) :
    ∃ rb', getTcpBufChunk rb kcpevBufferSize =
        .ok (rb', (pending rb).take (header.size (pending rb))) ∧
      RingOk rb' ∧ pending rb' = (pending rb).drop (header.size (pending rb)) := by
  have hbuf : ¬ kcpevBufferSize < headerSize := by decide
  cases rb with
  | none => exact absurd hc.1 (by decide)
  | some r =>
    obtain ⟨hr, hn⟩ := h r rfl
    obtain ⟨hhead, hpos, hle⟩ := hc
    simp only [pending_some, r.length_contents] at hhead hpos hle ⊢
    have hhead' : headerSize ≤ r.u := hhead
    have hsize : header.size (r.contents.take headerSize) = header.size r.contents := by
      have happ := header.size_append (r.contents.take headerSize) (r.contents.drop headerSize)
        (by simp [header, hhead'])
      rw [List.take_append_drop] at happ
      exact happ.symm
    have hdeclared : (be32toh (r.contents.take headerSize)).toNat = header.size r.contents := hsize
    have hfits : ¬ kcpevBufferSize < header.size r.contents := by
      have := hr.used
      omega
    refine ⟨some (r.consumed (header.size r.contents)), ?_,
      ringOk_some (Ringbuf.consumed_valid hr hle) hn, Ringbuf.contents_consumed hle⟩
    unfold getTcpBufChunk
    simp only [hbuf, if_false, Ringbuf.getPendingSize, Nat.not_lt.mpr hhead',
      Ringbuf.copyData_ok hr hhead', headerFromNet_eq _ (Nat.le_of_not_lt hbuf), hdeclared, hle,
      if_true, Ringbuf.copyData_ok hr hle, Ringbuf.markConsumed_ok hle, bind, Except.bind]
    simp [hle, hfits, pure, Except.pure]

/-- Moving the pending bytes to a ring with room for them ends, and leaves the
first ring empty. -/
theorem moveChunks_ok (fuel : ℕ) {r newRb : Ringbuf} (hr : r.Valid) (hnew : newRb.Valid)
    (hroom : newRb.u + r.u ≤ newRb.n) (hfuel : r.u < fuel) :
    ∃ r', moveChunks fuel r newRb = .ok (r', true) ∧ r'.Valid ∧ r'.n = r.n ∧ r'.u = 0 := by
  induction fuel generalizing r newRb with
  | zero => omega
  | succ fuel ih =>
    obtain ⟨off, size, hchunk, hle, hempty, hfit, hload⟩ := Ringbuf.getNextChunk_ok hr
    unfold moveChunks
    by_cases hsize : size = 0
    · refine ⟨r, ?_, hr, rfl, hempty.mp hsize⟩
      simp [hchunk, hsize, bind, Except.bind, pure, Except.pure]
    · have hput := Ringbuf.put_room hnew (load r.d off size) (by rw [length_load]; omega)
      have hnext := @ih (r.consumed size) (newRb.appended (load r.d off size))
        (Ringbuf.consumed_valid hr hle)
        (Ringbuf.appended_valid hnew _ (by rw [length_load]; omega))
        (by simp only [Ringbuf.appended_u, Ringbuf.consumed_u, Ringbuf.appended_n, length_load]
            omega)
        (by simp only [Ringbuf.consumed_u]; omega)
      obtain ⟨r', hrun, hvalid, hn, hu⟩ := hnext
      refine ⟨r', ?_, hvalid, hn, hu⟩
      simp [hchunk, hsize, Ringbuf.copyOut_ok hfit, hput, Ringbuf.markConsumed_ok hle, hrun,
        bind, Except.bind]

/-- There is a ring, or one can be allocated. -/
def ringAvailable (rb : Option Ringbuf) (newMem : Malloc) : Bool := rb.isSome || newMem.isSome

theorem ring_of_available {rb : Option Ringbuf} {newMem : Malloc} (h : RingOk rb)
    (ha : ringAvailable rb newMem = true) :
    ∃ r, (rb <|> Ringbuf.new newMem kcpevBufferSize) = some r ∧ r.Valid ∧
      r.n = kcpevBufferSize ∧ r.contents = pending rb := by
  cases rb with
  | some r =>
    obtain ⟨hr, hn⟩ := h r rfl
    exact ⟨r, rfl, hr, hn, rfl⟩
  | none =>
    cases newMem with
    | none => cases ha
    | some d =>
      have hnew := Ringbuf.new_valid (some d) kcpevBufferSize _ (by decide) rfl
      exact ⟨_, rfl, hnew.1, hnew.2.1, hnew.2.2⟩

/-- The buffered path of `on_tcp_recv` stores what `bufferedBytes` says, and
returns nothing to dispatch. -/
theorem bufferChunk_ok {rb : Option Ringbuf} (h : RingOk rb) (data : Bytes)
    (newMem growMem : Malloc) :
    ∃ rb' size, bufferChunk rb data newMem growMem = .ok (rb', size) ∧ RingOk rb' ∧
      ¬ 0 < toInt size ∧
      pending rb' = bufferedBytes (ringAvailable rb newMem) growMem.isSome (pending rb) data := by
  have hzero : ¬ 0 < toInt 0 := by decide
  have hminus : ¬ 0 < toInt sizeMinusOne := by decide
  cases ha : ringAvailable rb newMem with
  | false =>
    cases rb with
    | some r => cases ha
    | none =>
      cases newMem with
      | some d => cases ha
      | none => exact ⟨none, sizeMinusOne, rfl, ringOk_none, hminus, rfl⟩
  | true =>
    obtain ⟨r, hring, hr, hn, hcontents⟩ := ring_of_available h ha
    have hu : (pending rb).length = r.u := by rw [← hcontents, r.length_contents]
    unfold bufferChunk bufferedBytes
    rw [hring, hu]
    by_cases hroom : r.u + data.length ≤ kcpevBufferSize
    · have hroom' : r.u + data.length ≤ r.n := by rw [hn]; exact hroom
      refine ⟨some (r.appended data), 0, ?_, ringOk_some (Ringbuf.appended_valid hr data hroom') hn,
        hzero, ?_⟩
      · simp [Ringbuf.put_room hr data hroom', bind, Except.bind, pure, Except.pure]
      · rw [pending_some, Ringbuf.contents_appended hr data hroom', hcontents]
        simp [hroom]
    · have hfull : r.n < r.u + data.length := by rw [hn]; exact Nat.lt_of_not_le hroom
      cases growMem with
      | none =>
        refine ⟨some r, sizeMinusOne, ?_, ringOk_some hr hn, hminus, ?_⟩
        · simp [Ringbuf.put_full hr data hfull, Ringbuf.new, bind, Except.bind, pure, Except.pure]
        · simp [hroom, hcontents]
      | some d =>
        have hpos : 0 < r.n + kcpevBufferSize := by
          have := hr.capacity
          omega
        obtain ⟨hnew, hnewN, hnewC⟩ := Ringbuf.new_valid (some d) (r.n + kcpevBufferSize) _ hpos rfl
        obtain ⟨r', hrun, hvalid, hn', hu'⟩ := moveChunks_ok (r.u + 1) hr hnew
          (by have := hr.used; simp only at hnewN ⊢; omega) (by omega)
        refine ⟨some r', 0, ?_, ringOk_some hvalid (hn'.trans hn), hzero, ?_⟩
        · simp only [Ringbuf.put_full hr data hfull, Ringbuf.new, Option.map_some, bind,
            Except.bind, pure, Except.pure, if_true, hrun]
        · have hempty : r'.contents = [] := by
            rw [← List.length_eq_zero_iff, r'.length_contents, hu']
          simp [hroom, hempty]

/-- The direct path hands the chunk back; every other path buffers it. -/
theorem onTcpRecv_direct {rb : Option Ringbuf} {data : Bytes} (newMem growMem : Malloc)
    (hd : Direct (pending rb) data) :
    onTcpRecv rb data newMem growMem = .ok (rb, data.length) := by
  obtain ⟨hp, hlen, hsize⟩ := hd
  have hpend : pendingSize rb = 0 := by rw [← length_pending, hp]; rfl
  have hdeclared : (be32toh data).toNat = data.length := hsize
  unfold onTcpRecv
  simp [hpend, hlen, headerFromNet_eq data hlen, hdeclared]

theorem onTcpRecv_buffered {rb : Option Ringbuf} {data : Bytes} (newMem growMem : Malloc)
    (hd : ¬ Direct (pending rb) data) :
    onTcpRecv rb data newMem growMem = bufferChunk rb data newMem growMem := by
  unfold onTcpRecv
  by_cases hcond : pendingSize rb = 0 ∧ headerSize ≤ data.length
  · have hp : pending rb = [] := by rw [← List.length_eq_zero_iff, length_pending]; exact hcond.1
    have hne : (be32toh data).toNat ≠ data.length := fun heq => hd ⟨hp, hcond.2, heq⟩
    simp [hcond, headerFromNet_eq data hcond.2, hne]
  · simp [hcond]

/-! The two loops. -/

/-- Forget the ring, keep its pending bytes. -/
def abstractResult (x : Option Ringbuf × S × Bool) : Bytes × S × Bool := (pending x.1, x.2)

/-- A run on the ring does what the run on its pending bytes does, and leaves a
valid ring. -/
def Refines (run : Exec (Option Ringbuf × S × Bool)) (spec : Exec (Bytes × S × Bool)) : Prop :=
  run.map abstractResult = spec ∧ ∀ x, run = .ok x → RingOk x.1

theorem Refines.error (e : Stop) : Refines (S := S) (.error e) (.error e) :=
  ⟨rfl, fun _ h => nomatch h⟩

theorem Refines.ok {rb : Option Ringbuf} (h : RingOk rb) (s : S) (b : Bool) :
    Refines (.ok (rb, s, b)) (.ok (pending rb, s, b)) := by
  refine ⟨rfl, ?_⟩
  intro x hx
  cases hx
  exact h

/-- A dispatch, and then either the rest of the loop or the `error` label. -/
theorem Refines.dispatch {x : Exec (S × ℤ)} {rb : Option Ringbuf} {p : Bytes}
    {run : S → Exec (Option Ringbuf × S × Bool)} {spec : S → Exec (Bytes × S × Bool)}
    (hp : pending rb = p) (h : RingOk rb) (hrun : ∀ s, Refines (run s) (spec s)) :
    Refines (x.bind fun y => if y.2 = 0 then run y.1 else .ok (rb, y.1, false))
      (x.bind fun y => if y.2 = 0 then spec y.1 else .ok (p, y.1, false)) := by
  cases x with
  | error e => exact Refines.error e
  | ok y =>
    change Refines (if y.2 = 0 then _ else _) (if y.2 = 0 then _ else _)
    by_cases hret : y.2 = 0
    · rw [if_pos hret, if_pos hret]
      exact hrun y.1
    · rw [if_neg hret, if_neg hret, ← hp]
      exact Refines.ok h y.1 false

theorem drain_incomplete (dispatch : O → S → Bytes → Exec (S × ℤ)) (outs : List O)
    {rb : Option Ringbuf} (h : RingOk rb) (s : S) (hc : ¬ header.Complete (pending rb)) :
    drain dispatch outs rb s = .ok (rb, s, true) := by
  unfold drain
  rw [getTcpBufChunk_incomplete h hc]
  rfl

theorem take_size_ne_nil {p : Bytes} (h : header.Complete p) : p.take (header.size p) ≠ [] := by
  obtain ⟨_, hpos, hle⟩ := h
  rw [← List.length_pos_iff, List.length_take]
  omega

theorem drain_refines (dispatch : O → S → Bytes → Exec (S × ℤ)) (outs : List O)
    {rb : Option Ringbuf} (h : RingOk rb) (s : S) :
    Refines (drain dispatch outs rb s) (drainBytes dispatch outs (pending rb) s) := by
  induction outs generalizing rb s with
  | nil =>
    by_cases hc : header.Complete (pending rb)
    · obtain ⟨rb', hget, hrb', hpend⟩ := getTcpBufChunk_complete h hc
      rw [drainBytes_unfinished dispatch s hc]
      unfold drain
      simp only [hget, take_size_ne_nil hc, if_false, bind, Except.bind]
      exact Refines.error .unfinished
    · rw [drain_incomplete dispatch [] h s hc, drainBytes_incomplete dispatch [] s hc]
      exact Refines.ok h s true
  | cons o outs ih =>
    by_cases hc : header.Complete (pending rb)
    · obtain ⟨rb', hget, hrb', hpend⟩ := getTcpBufChunk_complete h hc
      rw [drainBytes_cons dispatch o outs s hc]
      have hspec := Refines.dispatch
        (x := dispatch o s ((pending rb).take (header.size (pending rb))))
        hpend hrb' (fun s' => ih hrb' s')
      rw [hpend] at hspec
      unfold drain
      simp only [hget, take_size_ne_nil hc, if_false, bind, Except.bind]
      exact hspec
    · rw [drain_incomplete dispatch _ h s hc, drainBytes_incomplete dispatch _ s hc]
      exact Refines.ok h s true

/-- A positive length dispatches that much of the caller's buffer first. -/
theorem dispatchAndDrain_pos (dispatch : O → S → Bytes → Exec (S × ℤ)) (o : O) (outs : List O)
    (rb : Option Ringbuf) (s : S) (data : Bytes) {len : ℤ} (h : 0 < len) :
    dispatchAndDrain dispatch (o :: outs) rb s data len =
      (dispatch o s (data.take len.toNat)).bind fun x =>
        if x.2 = 0 then drain dispatch outs rb x.1 else .ok (rb, x.1, false) := by
  unfold dispatchAndDrain
  rw [if_pos h]
  rfl

theorem dispatchAndDrain_nonpos (dispatch : O → S → Bytes → Exec (S × ℤ)) (outs : List O)
    (rb : Option Ringbuf) (s : S) (data : Bytes) {len : ℤ} (h : ¬ 0 < len) :
    dispatchAndDrain dispatch outs rb s data len = drain dispatch outs rb s := by
  unfold dispatchAndDrain
  rw [if_neg h]

theorem dispatchAndDrain_unfinished (dispatch : O → S → Bytes → Exec (S × ℤ))
    (rb : Option Ringbuf) (s : S) (data : Bytes) {len : ℤ} (h : 0 < len) :
    dispatchAndDrain dispatch [] rb s data len = .error .unfinished := by
  unfold dispatchAndDrain
  rw [if_pos h]

/-- A call whose `on_tcp_recv` returned goes on with the returned size. -/
theorem tcpRecv_of_onTcpRecv (dispatch : O → S → Bytes → Exec (S × ℤ)) (outs : List O)
    {newMem growMem : Malloc} {rb rb' : Option Ringbuf} (s : S) {data : Bytes} {size : ℕ}
    (h : onTcpRecv rb data newMem growMem = .ok (rb', size)) :
    tcpRecv dispatch outs newMem growMem rb s data =
      dispatchAndDrain dispatch outs rb' s data (toInt size) := by
  unfold tcpRecv
  simp only [h, bind, Except.bind]

/-- One received chunk, on the ring and on byte strings. -/
theorem tcpRecv_refines (dispatch : O → S → Bytes → Exec (S × ℤ)) (outs : List O)
    (newMem growMem : Malloc) {rb : Option Ringbuf} (h : RingOk rb) (s : S) (data : Bytes)
    (hdata : data.length ≤ kcpevBufferSize) :
    Refines (tcpRecv dispatch outs newMem growMem rb s data)
      (receiveBytes dispatch outs (ringAvailable rb newMem) growMem.isSome (pending rb) s
        data) := by
  unfold receiveBytes
  by_cases hd : Direct (pending rb) data
  · have hsize := kcpevBufferSize_eq
    have hhead := headerSize_eq
    have hlen := hd.2.1
    have hint : toInt data.length = data.length := toInt_small (by omega)
    have hpos : 0 < toInt data.length := by omega
    have htake : data.take (toInt data.length).toNat = data := by
      rw [hint, Int.toNat_natCast, List.take_length]
    have hc : header.Complete data := ⟨hlen, by rw [hd.2.2]; omega, hd.2.2.le⟩
    have hdrop : data.drop (header.size data) = pending rb := by
      rw [hd.2.2, List.drop_length, hd.1]
    rw [if_pos hd, tcpRecv_of_onTcpRecv dispatch outs s (onTcpRecv_direct newMem growMem hd)]
    cases outs with
    | nil =>
      rw [dispatchAndDrain_unfinished dispatch rb s data hpos, drainBytes_unfinished dispatch s hc]
      exact Refines.error .unfinished
    | cons o outs =>
      rw [dispatchAndDrain_pos dispatch o outs rb s data hpos, htake,
        drainBytes_cons dispatch o outs s hc, hdrop, hd.2.2, List.take_length]
      exact Refines.dispatch rfl h (fun s' => drain_refines dispatch outs h s')
  · obtain ⟨rb', size, hbuf, hrb', hsmall, hpend⟩ := bufferChunk_ok h data newMem growMem
    rw [if_neg hd, ← hpend, tcpRecv_of_onTcpRecv dispatch outs s
      ((onTcpRecv_buffered newMem growMem hd).trans hbuf),
      dispatchAndDrain_nonpos dispatch outs rb' s data hsmall]
    exact drain_refines dispatch outs hrb' s

end KcpEv.TcpRecv
