import KcpEv.ServerCallback

/-!
What a session has pending when its `server_tcp_recv` is done. A header that
declares less than its own size gets the connection closed. One that declares
nothing, or more than the buffer holds, is neither handed out nor rejected, and
it stays at the front of the ring.
-/
namespace KcpEv

open Framing Guarded TcpRecv

/-- The pending bytes are a proper prefix of an acceptable frame. -/
def Acceptable (p : Bytes) : Prop :=
  p.length < headerSize ∨
    headerSize ≤ header.size p ∧ header.size p ≤ kcpevBufferSize ∧ p.length < header.size p

/-- The header in front is one `get_tcp_buf_chunk` can only leave there. -/
def Dead (p : Bytes) : Prop :=
  headerSize ≤ p.length ∧ (header.size p = 0 ∨ kcpevBufferSize < header.size p)

instance (p : Bytes) : Decidable (Acceptable p) := inferInstanceAs (Decidable (_ ∨ _))

instance (p : Bytes) : Decidable (Dead p) := inferInstanceAs (Decidable (_ ∧ _))

theorem Dead.not_acceptable {p : Bytes} (h : Dead p) : ¬ Acceptable p := by
  obtain ⟨hlen, hsize⟩ := h
  rintro (hshort | ⟨hlo, hhi, -⟩)
  · omega
  · have := headerSize_eq
    omega

/-- What is left when no frame is complete. -/
theorem acceptable_of_incomplete {p : Bytes} (h : ¬ header.Complete p) (hdead : ¬ Dead p) :
    Acceptable p := by
  unfold Acceptable
  by_contra hnot
  have hlen : headerSize ≤ p.length := by omega
  have hpos : header.size p ≠ 0 := fun hzero => hdead ⟨hlen, Or.inl hzero⟩
  have hfits : ¬ kcpevBufferSize < header.size p := fun hbig => hdead ⟨hlen, Or.inr hbig⟩
  refine h ⟨hlen, by omega, ?_⟩
  omega

/-- Wherever a frame starts in the stream, its header, if it is there, declares something,
and no more than the buffer holds. -/
def SoundHeaders (stream : Bytes) : Prop := ∀ rest ∈ header.starts stream, ¬ Dead rest

instance (stream : Bytes) : Decidable (SoundHeaders stream) :=
  inferInstanceAs (Decidable (∀ rest ∈ header.starts stream, ¬ Dead rest))

/-- While the frames fit the buffer, only the last header can be dead. -/
theorem soundHeaders_iff {stream : Bytes}
    (h : ∀ frame ∈ (header.split stream).1, frame.length ≤ kcpevBufferSize) :
    SoundHeaders stream ↔ ¬ Dead (header.split stream).2 := by
  constructor
  · intro hsound
    exact hsound _ (header.rest_mem_starts stream)
  · intro hrest rest hmem
    rcases header.mem_starts hmem with rfl | ⟨⟨-, hpos, hle⟩, hframe⟩
    · exact hrest
    · have hfits := h _ hframe
      rw [List.length_take, min_eq_left hle] at hfits
      rintro ⟨-, hzero | hbig⟩
      · omega
      · omega

variable {K T : Type}

section Step
variable [KcpImpl K] [ClockImpl T] {p p' : Process K T} {i : Input T}

/-- The connection of a session is not wedged: what is pending between its callbacks can become
a frame, and a frame shorter than its header gets it closed. -/
structure Process.NeverWedged (p : Process K T) (c : ℕ) : Prop where
  pending : p.ctl.onTcp c = false → ∀ obj, p.world.objs c = some obj → obj.hasServer = true →
    Acceptable (TcpRecv.pending obj.tcp.rb)
  rejects : ∀ addr buf a p', p.ctl = .frame (.serverTcpRecv c) addr buf →
    buf.length < headerSize → step p (.round a) = .ok p' → p'.ctl = .closing c ∧
      ∀ a p'', step p' (.round a) = .ok p'' → p''.ctl = .loop ∧ p''.world.objs c = none

theorem onServerRecv_short {w : World K T} {client : Option ℕ} {buf : Bytes} {addr : Addr}
    {a : RecvAnswer} (h : buf.length < headerSize) :
    onServerRecv w client buf addr a = .ok (w, -1) := by
  simp [onServerRecv, parseFrame, h]

/-- A frame shorter than its header gets the connection closed. -/
theorem short_frame_closes {c : ℕ} {addr : Addr} {buf : Bytes} {a : RecvAnswer}
    (hctl : p.ctl = .frame (.serverTcpRecv c) addr buf) (hshort : buf.length < headerSize)
    (hs : step p (.round a) = .ok p') : p'.ctl = .closing c := by
  unfold step at hs
  obtain ⟨⟨w₁, ctl₁⟩, hround, hs⟩ := bind_eq_ok.mp hs
  cases hs
  rw [hctl] at hround
  obtain ⟨⟨w₂, ret⟩, hdispatch, hround⟩ := bind_eq_ok.mp hround
  obtain ⟨ctl₂, hnext, hround⟩ := bind_eq_ok.mp hround
  cases hround
  obtain ⟨client, -, hdispatch⟩ := bind_eq_ok.mp hdispatch
  split at hdispatch
  · cases hdispatch
  rw [onServerRecv_short hshort] at hdispatch
  cases hdispatch
  cases hnext
  rfl

/-- The connection that is being closed is gone after the next step. -/
theorem closing_destroys {c : ℕ} {a : RecvAnswer} (hctl : p.ctl = .closing c)
    (hs : step p (.round a) = .ok p') : p'.ctl = .loop ∧ p'.world.objs c = none := by
  unfold step at hs
  obtain ⟨⟨w₁, ctl₁⟩, hround, hs⟩ := bind_eq_ok.mp hs
  cases hs
  rw [hctl] at hround
  obtain ⟨w₂, hclose, hround⟩ := bind_eq_ok.mp hround
  cases hround
  obtain ⟨client, server, -, -, -, rfl⟩ := World.closeClient_cases hclose
  refine ⟨rfl, ?_⟩
  simp [World.destroyKcpev]

end Step

section Run
variable [KcpImpl K] [ClockImpl T] {p : Process K T} {now : T} {is : List (Input T)} {c : ℕ}

/-- Between its callbacks a connection on which nothing was lost waits for a frame if and only
if all the headers of the stream are sound. -/
theorem run_acceptable_iff (hrun : Run step (fun p i => p.KeepsData c i) (.init now) is p)
    {obj : Kcpev T} (hobj : p.world.objs c = some obj) (hidle : p.ctl.onTcp c = false) :
    Acceptable (pending obj.tcp.rb) ↔
      SoundHeaders (history step (tcpArrival c) (Process.init (K := K) now) is) := by
  have hstream := run_streaming hrun
  have hall := hstream.all hobj hidle
  have hincomplete := hstream.rest (by rw [hobj]; rfl) hidle
  rw [World.pendingOf_some hobj] at hincomplete
  have hsound : SoundHeaders (history step (tcpArrival c) (Process.init (K := K) now) is) ↔
      ¬ Dead (header.split (history step (tcpArrival c) (Process.init (K := K) now) is)).2 := by
    refine soundHeaders_iff fun frame hframe => ?_
    rw [hall] at hframe
    exact run_dispatched_length hrun hframe
  rw [hsound, hall]
  exact ⟨fun hacc hdead => hdead.not_acceptable hacc, acceptable_of_incomplete hincomplete⟩

/-- As long as nothing of the stream of a client is lost, and all its headers are sound, its
connection is not wedged; and the first header that is not wedges it. -/
theorem run_neverWedged (hrun : Run step (fun p i => p.KeepsData c i) (.init now) is p) :
    (SoundHeaders (history step (tcpArrival c) (Process.init (K := K) now) is) →
      p.NeverWedged c) ∧
    ∀ obj, p.world.objs c = some obj → obj.hasServer = true → p.ctl.onTcp c = false →
      (p.NeverWedged c ↔
        SoundHeaders (history step (tcpArrival c) (Process.init (K := K) now) is)) := by
  have hnever : SoundHeaders (history step (tcpArrival c) (Process.init (K := K) now) is) →
      p.NeverWedged c := by
    intro hsound
    constructor
    · intro hidle obj hobj _
      exact (run_acceptable_iff hrun hobj hidle).mpr hsound
    · intro addr buf a p' hctl hshort hs
      have hclosing := short_frame_closes hctl hshort hs
      exact ⟨hclosing, fun a p'' hs' => closing_destroys hclosing hs'⟩
  refine ⟨hnever, fun obj hobj hserver hidle => ⟨fun h => ?_, hnever⟩⟩
  exact (run_acceptable_iff hrun hobj hidle).mp (h.pending hidle obj hobj hserver)

end Run

/-- A client sends a frame and the first bytes of another one, cut inside the first. -/
def partialFrame : List (Input ℕ) :=
  oneAccept ++ [.serverSetCb, .io 4 (.receives (sampleData.take 5) 9), .round (.socket 6),
    .io 4 (.receives (sampleData.drop 5 ++ [0, 0, 0, 24, 0, 0, 0, 0, 1]) 9),
    .round (.socket 6), .round (.socket 6), .round (.socket 6)]

theorem run_neverWedged_partialFrame : ∃ (p : Process Unit ℕ) (obj : Kcpev ℕ),
    Run step (fun p i => p.KeepsData 3 i) (.init 0) partialFrame p ∧ p.ctl = .loop ∧
      p.world.objs 3 = some obj ∧ obj.hasServer = true ∧ p.NeverWedged 3 ∧
      (pending obj.tcp.rb).length = 9 := by
  obtain ⟨p, hrun, htest⟩ := Run.exists_of_exec (step (K := Unit)) (fun p i => p.KeepsData 3 i)
    (.init 0) partialFrame (fun p => p.ctl = .loop ∧
      (p.world.objs 3).any fun obj => obj.hasServer && (pending obj.tcp.rb).length == 9)
    (by decide)
  obtain ⟨hctl, hlive⟩ := of_decide_eq_true htest
  obtain ⟨obj, hobj, hserver, hlen⟩ : ∃ obj, p.world.objs 3 = some obj ∧ obj.hasServer = true ∧
      (pending obj.tcp.rb).length = 9 := by
    simpa [Option.any_eq_true] using hlive
  have hstream : history step (tcpArrival 3) (Process.init (K := Unit) 0) partialFrame =
      sampleData ++ [0, 0, 0, 24, 0, 0, 0, 0, 1] := by
    decide
  have hframe : header.IsFrame sampleData := by
    unfold Header.IsFrame
    decide
  have hsplit : header.split (sampleData ++ [0, 0, 0, 24, 0, 0, 0, 0, 1]) =
      ([sampleData], [0, 0, 0, 24, 0, 0, 0, 0, 1]) := by
    rw [header.split_cons_frame _ hframe, header.split_incomplete (by decide)]
  have hsound : SoundHeaders (sampleData ++ [0, 0, 0, 24, 0, 0, 0, 0, 1]) := by
    rw [soundHeaders_iff]
    · rw [hsplit]
      decide
    · rw [hsplit]
      decide
  refine ⟨p, obj, hrun, hctl, hobj, hserver, ?_, hlen⟩
  exact (run_neverWedged hrun).1 (by rw [hstream]; exact hsound)

/-- A client sends eight zero bytes. -/
def zeroHeader : List (Input ℕ) :=
  oneAccept ++ [.io 4 (.receives (List.replicate 8 0) 9), .round (.socket 6)]

/-- The connection stays open, with a header in front that declares nothing. -/
theorem zero_header_wedges : ∃ p : Process Unit ℕ,
    Run step (fun _ _ => True) (.init 0) zeroHeader p ∧ p.ctl = .loop ∧
      (p.world.objs 3).isSome ∧ ¬ p.NeverWedged 3 := by
  obtain ⟨p, hrun, htest⟩ := Run.exists_of_exec (step (K := Unit)) (fun _ _ => True)
    (.init 0) zeroHeader (fun p => p.ctl = .loop ∧
      (p.world.objs 3).any fun obj => obj.hasServer && decide (Dead (pending obj.tcp.rb)))
    (by decide)
  obtain ⟨hctl, hlive⟩ := of_decide_eq_true htest
  obtain ⟨obj, hobj, hserver, hdead⟩ : ∃ obj, p.world.objs 3 = some obj ∧ obj.hasServer = true ∧
      Dead (pending obj.tcp.rb) := by
    simpa [Option.any_eq_true] using hlive
  refine ⟨p, hrun, hctl, by simp [hobj], fun hnever => ?_⟩
  exact hdead.not_acceptable (hnever.pending (by rw [hctl]; rfl) obj hobj hserver)

end KcpEv
