import KcpEv.TcpRun
import Mathlib.Data.List.Induction

/-!
Reassembly of frames from an arbitrarily cut stream. As long as no chunk meets
a ring too full for it, the dispatched frames are the frames of the stream and
the pending bytes are the part of the stream behind them. A chunk that does not
fit takes the growing branch of `on_tcp_recv`, whose new ring is never stored:
the pending bytes and the chunk are gone.
-/
namespace KcpEv.Reassembly

open Circular Framing TcpRecv

/-- `malloc` succeeds for both rings. -/
def Allocates (e : Chunk ℤ) : Prop := e.newMem.isSome ∧ e.growMem.isSome

/-- The bytes received in a run. -/
def arrived (es : List (Chunk ℤ)) : ℕ := (es.map Chunk.data).flatten.length

/-- Whatever the frame handler returns: after every prefix of the chunks, the
frames handed to it are the completed ones, and the pending bytes are those
behind them, unless a rejected frame has ended the connection. -/
def Reassembles (frames chunks : List Bytes) : Prop :=
  ∀ es : List (Chunk ℤ), es.map Chunk.data = chunks →
    (∀ e ∈ es, Allocates e ∧ e.Answered) →
    ∀ pre, pre <+: es → ∃ rb log alive,
      tcpRun record pre none [] = .ok (rb, log, alive) ∧
      (alive = true → log = Header.completed frames (arrived pre) ∧
        pending rb = Header.uncompleted frames (arrived pre)) ∧
      (alive = false → log <+: frames ∧ ∃ e ∈ pre, ∃ ret ∈ e.outs, ret ≠ 0)

/-- Every chunk finds room for itself behind the bytes not yet completed. -/
def NeverOverflows (frames chunks : List Bytes) : Prop :=
  ∀ pre c, pre ++ [c] <+: chunks →
    (Header.uncompleted frames pre.flatten.length).length + c.length ≤ kcpevBufferSize

/-- A stream of packed frames, cut into chunks that `recv` can return. -/
structure Cut (frames chunks : List Bytes) : Prop where
  packed : ∀ f ∈ frames, Packed f
  stream : chunks.flatten = frames.flatten
  chunk : ∀ c ∈ chunks, 1 ≤ c.length ∧ c.length ≤ kcpevBufferSize

theorem Cut.take_arrived {frames chunks : List Bytes} (h : Cut frames chunks) {pre : List Bytes}
    (hpre : pre <+: chunks) : frames.flatten.take pre.flatten.length = pre.flatten := by
  obtain ⟨post, rfl⟩ := hpre
  rw [← h.stream, List.flatten_append, List.take_left]

theorem Cut.frames {frames chunks : List Bytes} (h : Cut frames chunks) :
    ∀ f ∈ frames, header.IsFrame f := fun f hf => (h.packed f hf).isFrame.1

/-- One chunk behind a prefix of the stream. The induction over a run rests on
this step: the split of what has arrived goes on with the remainder. -/
theorem completed_step {frames chunks : List Bytes} (h : Cut frames chunks) {pre : List Bytes}
    {c : Bytes} (hpre : pre ++ [c] <+: chunks) :
    header.split (Header.uncompleted frames pre.flatten.length ++ c) =
        ((header.split (Header.uncompleted frames pre.flatten.length ++ c)).1,
          Header.uncompleted frames (pre ++ [c]).flatten.length) ∧
      Header.completed frames (pre ++ [c]).flatten.length =
        Header.completed frames pre.flatten.length ++
          (header.split (Header.uncompleted frames pre.flatten.length ++ c)).1 := by
  have hbefore := header.split_take_frames frames h.frames pre.flatten.length
  have hafter := header.split_take_frames frames h.frames (pre ++ [c]).flatten.length
  rw [h.take_arrived ((List.prefix_append pre [c]).trans hpre)] at hbefore
  rw [h.take_arrived hpre, List.flatten_append, List.flatten_singleton, header.split_append,
    hbefore] at hafter
  rw [List.flatten_append, List.flatten_singleton]
  obtain ⟨h1, h2⟩ := Prod.mk.inj hafter
  exact ⟨by rw [← h2], h1.symm⟩

theorem completed_add_uncompleted {frames chunks : List Bytes} (h : Cut frames chunks)
    {pre : List Bytes} (hpre : pre <+: chunks) :
    (Header.completed frames pre.flatten.length).flatten.length +
      (Header.uncompleted frames pre.flatten.length).length = pre.flatten.length := by
  have hflat := header.split_flatten (frames.flatten.take pre.flatten.length)
  rw [header.split_take_frames frames h.frames, h.take_arrived hpre] at hflat
  rw [← List.length_append, hflat]

/-- The state of a run that is alive behind the chunks `pre`. -/
structure Reached (frames : List Bytes) (pre : List Bytes) (rb : Option Ringbuf)
    (log : List Bytes) : Prop where
  ring : RingOk rb
  log_eq : log = Header.completed frames pre.flatten.length
  pending_eq : pending rb = Header.uncompleted frames pre.flatten.length

theorem reached_nil (frames : List Bytes) (hpacked : ∀ f ∈ frames, Packed f) :
    Reached frames [] none [] := by
  refine ⟨ringOk_none, ?_, by simp [Header.uncompleted]⟩
  cases frames with
  | nil => rfl
  | cons f fs =>
    have hf := (hpacked f (List.mem_cons_self ..)).isFrame.2.1
    have hlt : ¬ f.length ≤ 0 := by omega
    simp [Header.completed, hlt]

/-- One more chunk with room restores the state, or the handler rejected a frame. -/
theorem Reached.step {frames chunks pre : List Bytes} {e : Chunk ℤ} {rb : Option Ringbuf}
    {log : List Bytes} (h : Reached frames pre rb log) (hcut : Cut frames chunks)
    (hpre : pre ++ [e.data] <+: chunks) (halloc : Allocates e) (houts : e.Answered)
    (hroom : (Header.uncompleted frames pre.flatten.length).length + e.data.length ≤
      kcpevBufferSize) :
    ∃ rb' log' alive,
      tcpRecv record e.outs e.newMem e.growMem rb log e.data = .ok (rb', log', alive) ∧
      (alive = true → Reached frames (pre ++ [e.data]) rb' log') ∧
      (alive = false → log' <+: frames ∧ ∃ ret ∈ e.outs, ret ≠ 0) := by
  obtain ⟨hsplit, hcompleted⟩ := completed_step hcut hpre
  have hfits : e.data.length ≤ kcpevBufferSize :=
    (hcut.chunk e.data (hpre.subset (by simp))).2
  have havail : ringAvailable rb e.newMem = true := by simp [ringAvailable, halloc.1]
  have hgrow : e.growMem.isSome = true := halloc.2
  obtain ⟨habs, hring⟩ := tcpRecv_refines record e.outs e.newMem e.growMem h.ring log e.data hfits
  rw [havail, h.pending_eq, hgrow, receiveBytes_room _ _ _ _ _ _ hroom] at habs
  have hcount : (header.split (Header.uncompleted frames pre.flatten.length ++ e.data)).1.length ≤
      e.outs.length := by
    have hle := split_count_le (Header.uncompleted frames pre.flatten.length ++ e.data)
    rw [List.length_append] at hle
    exact hle.trans (hroom.trans houts)
  cases hrun : tcpRecv record e.outs e.newMem e.growMem rb log e.data with
  | error err =>
    rw [hrun] at habs
    rcases drainBytes_record e.outs _ log hcount with hall | ⟨p', k, hstop, _⟩
    · rw [hall] at habs
      cases habs
    · rw [hstop] at habs
      cases habs
  | ok x =>
    obtain ⟨rb', log', alive⟩ := x
    rw [hrun] at habs
    refine ⟨rb', log', alive, rfl, ?_⟩
    simp only [Except.map, abstractResult] at habs
    rcases drainBytes_record e.outs _ log hcount with hall | ⟨p', k, hstop, hbad⟩
    · rw [hall] at habs
      simp only [Except.ok.injEq, Prod.mk.injEq] at habs
      obtain ⟨hp, hlog, rfl⟩ := habs
      refine ⟨fun _ => ⟨hring _ hrun, ?_, ?_⟩, fun hdead => Bool.noConfusion hdead⟩
      · rw [hlog, hcompleted, h.log_eq]
      · rw [hp, hsplit]
    · rw [hstop] at habs
      simp only [Except.ok.injEq, Prod.mk.injEq] at habs
      obtain ⟨-, hlog, rfl⟩ := habs
      refine ⟨fun halive => Bool.noConfusion halive, fun _ => ⟨?_, hbad⟩⟩
      rw [hlog, h.log_eq]
      have hall := Header.completed_prefix frames (pre ++ [e.data]).flatten.length
      rw [hcompleted] at hall
      exact ((List.prefix_append_right_inj _).mpr (List.take_prefix _ _)).trans hall

theorem prefix_data {es pre : List (Chunk ℤ)} {chunks : List Bytes}
    (hes : es.map Chunk.data = chunks) (h : pre <+: es) : pre.map Chunk.data <+: chunks :=
  hes ▸ h.map Chunk.data

/-- The run behind any prefix of the chunks, when none of them overflows. -/
theorem run_reached {frames chunks : List Bytes} (hcut : Cut frames chunks)
    (hroom : NeverOverflows frames chunks) {es : List (Chunk ℤ)}
    (hes : es.map Chunk.data = chunks) (hans : ∀ e ∈ es, Allocates e ∧ e.Answered)
    {pre : List (Chunk ℤ)} (hpre : pre <+: es) :
    ∃ rb log alive, tcpRun record pre none [] = .ok (rb, log, alive) ∧
      (alive = true → Reached frames (pre.map Chunk.data) rb log) ∧
      (alive = false → log <+: frames ∧ ∃ e ∈ pre, ∃ ret ∈ e.outs, ret ≠ 0) := by
  induction pre using List.reverseRecOn with
  | nil =>
    exact ⟨none, [], true, rfl, fun _ => reached_nil frames hcut.packed,
      fun h => Bool.noConfusion h⟩
  | append_singleton pre e ih =>
    obtain ⟨rb, log, alive, hrun, hgood, hdead⟩ := ih ((List.prefix_append pre [e]).trans hpre)
    cases alive with
    | false =>
      obtain ⟨hlog, bad, hbad, hret⟩ := hdead rfl
      exact ⟨rb, log, false, tcpRun_snoc_dead record e hrun, fun h => Bool.noConfusion h,
        fun _ => ⟨hlog, bad, List.mem_append_left [e] hbad, hret⟩⟩
    | true =>
      obtain ⟨halloc, houts⟩ := hans e (hpre.subset (by simp))
      have hdata : pre.map Chunk.data ++ [e.data] <+: chunks := by
        simpa using prefix_data hes hpre
      obtain ⟨rb', log', alive', hstep, hgood', hdead'⟩ :=
        (hgood rfl).step hcut hdata halloc houts (hroom _ _ hdata)
      refine ⟨rb', log', alive', ?_, ?_, ?_⟩
      · rw [tcpRun_snoc record e hrun, hstep]
      · simpa using hgood'
      · intro hfalse
        obtain ⟨hlog, hret⟩ := hdead' hfalse
        exact ⟨hlog, e, by simp, hret⟩

/-- A chunk that overflows is not reassembled, whatever was received before. -/
theorem not_reassembles_of_overflow {frames chunks : List Bytes} (hcut : Cut frames chunks)
    (pre : List Bytes) {c : Bytes} (hpre : pre ++ [c] <+: chunks)
    (hover : kcpevBufferSize <
      (Header.uncompleted frames pre.flatten.length).length + c.length) :
    ¬ Reassembles frames chunks := by
  intro hre
  -- every frame is accepted, and both allocations succeed
  let answer : Bytes → Chunk ℤ := fun data =>
    { data, newMem := some fun _ => 0, growMem := some fun _ => 0,
      outs := List.replicate kcpevBufferSize 0 }
  have hzero : ∀ es : List Bytes, ∀ e ∈ es.map answer, ∀ ret ∈ e.outs, ret = 0 := by
    intro es e he ret hret
    obtain ⟨data, _, rfl⟩ := List.mem_map.mp he
    exact List.eq_of_mem_replicate hret
  have hall := hre (chunks.map answer) (by simp [answer, Function.comp_def]) (by
    intro e he
    obtain ⟨data, _, rfl⟩ := List.mem_map.mp he
    exact ⟨⟨rfl, rfl⟩, by simp [Chunk.Answered, answer]⟩)
  have harrived : ∀ es : List Bytes, arrived (es.map answer) = es.flatten.length := by
    intro es
    simp [arrived, answer, Function.comp_def]
  have hpre' : pre <+: chunks := (List.prefix_append pre [c]).trans hpre
  -- both runs are alive, so both are described by the stream
  have halive : ∀ es : List Bytes, es <+: chunks →
      ∃ rb, tcpRun record (es.map answer) none [] =
          .ok (rb, Header.completed frames es.flatten.length, true) ∧
        pending rb = Header.uncompleted frames es.flatten.length := by
    intro es hpref
    obtain ⟨rb, log, alive, hrun, hgood, hdead⟩ := hall (es.map answer) (hpref.map answer)
    cases alive with
    | false =>
      obtain ⟨_, e, he, ret, hret, hne⟩ := hdead rfl
      exact absurd (hzero es e he ret hret) hne
    | true =>
      obtain ⟨hlog, hpend⟩ := hgood rfl
      rw [harrived] at hlog hpend
      exact ⟨rb, by rw [hrun, hlog], hpend⟩
  obtain ⟨rb, hrun, hpend⟩ := halive pre hpre'
  obtain ⟨rb', hrun', hpend'⟩ := halive (pre ++ [c]) hpre
  have hring : RingOk rb := by
    refine tcpRun_ringOk record ?_ ringOk_none hrun
    intro e he
    obtain ⟨data, hmem, rfl⟩ := List.mem_map.mp he
    exact hcut.chunk data (hpre'.subset hmem)
  rw [List.map_append, List.map_singleton, tcpRun_snoc record (answer c) hrun] at hrun'
  have hfits := (hcut.chunk c (hpre.subset (by simp))).2
  obtain ⟨habs, -⟩ := tcpRecv_refines record (answer c).outs (answer c).newMem (answer c).growMem
    hring (Header.completed frames pre.flatten.length) c hfits
  have havail : ringAvailable rb (answer c).newMem = true := by simp [ringAvailable, answer]
  have hgrow : (answer c).growMem.isSome = true := rfl
  rw [havail, hgrow, receiveBytes_overflow _ _ _ _ _ hfits (by rw [hpend]; exact hover)] at habs
  have hdata : (answer c).data = c := rfl
  rw [hdata] at hrun'
  rw [hrun'] at habs
  simp only [Except.map, abstractResult, Except.ok.injEq, Prod.mk.injEq] at habs
  obtain ⟨hempty, hsame, -⟩ := habs
  have hbefore := completed_add_uncompleted hcut hpre'
  have hafter := completed_add_uncompleted hcut hpre
  rw [hsame, ← hpend', hempty] at hafter
  simp only [List.flatten_append, List.flatten_singleton, List.length_append, List.length_nil]
    at hafter hover
  omega

/-- The stream is reassembled, whatever the frame handler answers, exactly when
no chunk meets a ring too full for it. -/
theorem reassembles_iff {frames chunks : List Bytes} (hcut : Cut frames chunks) :
    Reassembles frames chunks ↔ NeverOverflows frames chunks := by
  constructor
  · intro hre pre c hpre
    by_contra hover
    exact not_reassembles_of_overflow hcut _ hpre (Nat.lt_of_not_le hover) hre
  · intro hroom es hes hans pre hpre
    obtain ⟨rb, log, alive, hrun, hgood, hdead⟩ := run_reached hcut hroom hes hans hpre
    refine ⟨rb, log, alive, hrun, ?_, hdead⟩
    intro halive
    exact ⟨(hgood halive).log_eq, (hgood halive).pending_eq⟩

theorem packed_frameBytes (command : UInt8) (msg : Bytes)
    (h : msg.length + 8 ≤ kcpevBufferSize) : Packed (frameBytes command [0, 0, 0] msg) := by
  obtain ⟨buf', hpack, hload⟩ := packSendBuf_fits (fun _ => 0) command msg h
  exact ⟨_, buf', command, msg, _, hpack, by omega, by rw [hload]; rfl⟩

theorem frameBytes_length (command : UInt8) (msg : Bytes) :
    (frameBytes command [0, 0, 0] msg).length = msg.length + 8 := by
  simp only [frameBytes, htobe32, List.length_append, List.length_cons, List.length_nil]
  omega

/-- A `COMMAND_DATA` frame with `n` zero bytes of payload. -/
def zeroFrame (n : ℕ) : Bytes := frameBytes Command.data.toByte [0, 0, 0] (List.replicate n 0)

theorem length_zeroFrame (n : ℕ) : (zeroFrame n).length = n + 8 := by
  rw [zeroFrame, frameBytes_length, List.length_replicate]

theorem neverOverflows_short {frames chunks : List Bytes} (hcut : Cut frames chunks)
    (hshort : frames.flatten.length ≤ kcpevBufferSize) : NeverOverflows frames chunks := by
  intro pre c hpre
  have hall := (congrArg List.length (hcut.take_arrived hpre)).symm.trans_le
    (List.length_take_le' _ _)
  rw [List.flatten_append, List.flatten_singleton, List.length_append] at hall
  have hrest := completed_add_uncompleted hcut ((List.prefix_append pre [c]).trans hpre)
  omega

/-- Three frames, cut inside the header of the first and of the second one and inside
the payload of the second one. -/
def threeFrames : List Bytes :=
  [zeroFrame 4, frameBytes Command.data.toByte [0, 0, 0] [1, 2, 3, 4, 5], zeroFrame 0]

def threeChunks : List Bytes :=
  [threeFrames.flatten.take 5, (threeFrames.flatten.drop 5).take 10,
    (threeFrames.flatten.drop 15).take 7, threeFrames.flatten.drop 22]

theorem threeFrames_cut : Cut threeFrames threeChunks := by
  refine ⟨?_, by decide, by decide⟩
  intro f hf
  simp only [threeFrames, List.mem_cons, List.not_mem_nil, or_false] at hf
  rcases hf with rfl | rfl | rfl
  · exact packed_frameBytes _ _ (by decide)
  · exact packed_frameBytes _ _ (by decide)
  · exact packed_frameBytes _ _ (by decide)

/-- The frames are reassembled, and behind each of the first three chunks a part of a
frame is pending. -/
theorem reassembles_threeFrames : Reassembles threeFrames threeChunks ∧
    Header.uncompleted threeFrames 5 = (zeroFrame 4).take 5 ∧
    Header.uncompleted threeFrames 15 = (threeFrames.flatten.drop 12).take 3 ∧
    Header.uncompleted threeFrames 22 = (threeFrames.flatten.drop 12).take 10 := by
  refine ⟨(reassembles_iff threeFrames_cut).mpr ?_, by decide, by decide, by decide⟩
  exact neverOverflows_short threeFrames_cut (by decide)

/-- Two frames whose second one arrives in a chunk of 65530 bytes, with ten
bytes of the first one pending. -/
def burstFrames : List Bytes := [zeroFrame 8, zeroFrame 65516]

def burstChunks : List Bytes :=
  [burstFrames.flatten.take 10, burstFrames.flatten.drop 10]

theorem burst_length : burstFrames.flatten.length = 65540 := by
  simp only [burstFrames, List.flatten_cons, List.flatten_nil, List.append_nil, List.length_append,
    length_zeroFrame]

theorem burst_cut : Cut burstFrames burstChunks := by
  have hlen := burst_length
  refine ⟨?_, ?_, ?_⟩
  · intro f hf
    simp only [burstFrames, List.mem_cons, List.not_mem_nil, or_false] at hf
    have hsize := kcpevBufferSize_eq
    rcases hf with rfl | rfl
    · exact packed_frameBytes _ _ (by rw [List.length_replicate]; omega)
    · exact packed_frameBytes _ _ (by rw [List.length_replicate]; omega)
  · simp [burstChunks]
  · intro c hc
    have hsize := kcpevBufferSize_eq
    simp only [burstChunks, List.mem_cons, List.not_mem_nil, or_false] at hc
    rcases hc with rfl | rfl
    · rw [List.length_take, hlen]
      omega
    · rw [List.length_drop, hlen]
      omega

/-- Both frames of the burst are lost. -/
theorem burst_not_reassembled : Cut burstFrames burstChunks ∧
    ¬ Reassembles burstFrames burstChunks := by
  refine ⟨burst_cut, not_reassembles_of_overflow burst_cut [burstFrames.flatten.take 10]
    (c := burstFrames.flatten.drop 10) (List.prefix_refl _) ?_⟩
  have hsize := kcpevBufferSize_eq
  have hlen := burst_length
  have hten : ([burstFrames.flatten.take 10].flatten).length = 10 := by
    rw [List.flatten_singleton, List.length_take, hlen]
    rfl
  have hcompleted : Header.completed burstFrames 10 = [] := by
    have hlt : ¬ (zeroFrame 8).length ≤ 10 := by
      rw [length_zeroFrame]
      omega
    simp [burstFrames, Header.completed, hlt]
  rw [hten, Header.uncompleted, hcompleted, List.flatten_nil, List.length_nil, List.drop_zero,
    List.length_take, List.length_drop, hlen]
  omega

end KcpEv.Reassembly
