import KcpEv.ClientSteps
import KcpEv.Linked

/-!
UDP trouble and the TCP connection of a client. What arrives on the connection is
a part of the stream of frames of its server, so each frame the ring hands out is
one of these. A frame ends the client exactly when it is the first handshake
message, there is a UDP socket, and `send` does not take the answer.
-/
namespace KcpEv

open Framing Guarded TcpRecv

variable {K T : Type}

/-- What a server puts on the TCP connection of a session. -/
def FromServer (key : KcpevKey) (frame : Bytes) : Prop :=
  Frame .shakeHand1 key.val frame ∨ Frame .udpInvalid key.val frame ∨ ∃ msg, Frame .data msg frame

theorem FromServer.isFrame {key : KcpevKey} {frame : Bytes} (h : FromServer key frame) :
    header.IsFrame frame := by
  rcases h with h | h | ⟨msg, h⟩
  · exact h.isFrame
  · exact h.isFrame
  · exact h.isFrame

namespace Process

/-- No datagram of the server gives the client another key. -/
def KeepsKey (p : Process K T) (c : ℕ) (key : KcpevKey) : Prop :=
  ∀ src addr buf key', p.ctl = .frame src addr buf → src ≠ .clientTcpRecv c →
    src.ToClient p.world c → Parses buf .shakeHand1 key'.val → key' = key

/-- A chunk that arrives is a frame of its own, or there is room for it in the ring. -/
def HasRoom (p : Process K T) (c : ℕ) (i : Input T) : Prop :=
  ∀ q a obj, i = .io q a → p.world.objs c = some obj →
    Direct (pending obj.tcp.rb) (tcpArrival c p i) ∨
      ringAvailable obj.tcp.rb a.newMem = true ∧
        (pending obj.tcp.rb).length + (tcpArrival c p i).length ≤ kcpevBufferSize

/-- The input lets `client_tcp_recv` start or go on, and `recv` does not fail. -/
def RunsClientTcp (p : Process K T) (c : ℕ) : Input T → Prop
  | .round _ => p.ctl.source = some (.clientTcpRecv c)
  | .io q a => p.ctl = .loop ∧ ∃ e, p.world.os.ios q = some e ∧ e.cb = .clientTcpRecv ∧
      e.data = .kcpev c ∧ (recv p.world.os e.fd kcpevBufferSize a.recv).isSome
  | _ => False

/-- The first handshake message came on the TCP connection, and cannot be sent on
the UDP socket. -/
def ShakeHandFails (p : Process K T) (c : ℕ) : Input T → Prop
  | .round a => ∃ addr buf data obj, p.ctl = .frame (.clientTcpRecv c) addr buf ∧
      Parses buf .shakeHand1 data ∧ p.world.objs c = some obj ∧ obj.udp.sock ≠ 0 ∧
      ¬ a.send.Takes 24
  | _ => False

end Process

/-! What is received is a part of the stream of the server. -/

/-- A client in a run, when so much was received on its TCP connection. -/
structure Follows (key : KcpevKey) (frames : List Bytes) (received : Bytes) (p : Process K T)
    (c : ℕ) (obj : Kcpev T) : Prop where
  ring : RingOk obj.tcp.rb
  stream : ∃ k, (frames.take k).flatten ++ pending obj.tcp.rb = received
  keyed : obj.udp.status ≠ .invalid → obj.key = key
  frame : ∀ {addr buf}, p.ctl = .frame (.clientTcpRecv c) addr buf → buf ∈ frames

section Step
variable {key : KcpevKey} {frames : List Bytes} {received : Bytes} {p p' : Process K T}
  {i : Input T} {c : ℕ} {obj' : Kcpev T}

theorem tcpArrival_length_le : (tcpArrival c p i).length ≤ kcpevBufferSize := by
  unfold tcpArrival
  split
  · split
    · split
      · rename_i q a _ _ e _ _ _
        unfold recv
        split
        · exact List.length_take_le _ _
        · exact Nat.zero_le _
      · exact Nat.zero_le _
    · exact Nat.zero_le _
  · exact Nat.zero_le _

/-- The next frame of the stream is what is handed out. -/
theorem next_frame (hframes : ∀ f ∈ frames, header.IsFrame f) {k : ℕ} {l : Bytes}
    (hpart : (frames.take k).flatten ++ l <+: frames.flatten) (hc : header.Complete l) :
    l.take (header.size l) ∈ frames ∧
      (frames.take (k + 1)).flatten ++ l.drop (header.size l) = (frames.take k).flatten ++ l := by
  have hsplit : frames.flatten = (frames.take k).flatten ++ (frames.drop k).flatten := by
    rw [← List.flatten_append, List.take_append_drop]
  rw [hsplit, List.prefix_append_right_inj] at hpart
  have hdrop : ∀ f ∈ frames.drop k, header.IsFrame f :=
    fun f hf => hframes f (List.mem_of_mem_drop hf)
  obtain ⟨f, rest, hrest, htake⟩ := header.take_size_of_part hdrop hc hpart
  have hmem : f ∈ frames := by
    apply List.mem_of_mem_drop (i := k)
    rw [hrest]
    exact List.mem_cons_self
  refine ⟨by rwa [htake], ?_⟩
  have hnext : (frames.take (k + 1)).flatten = (frames.take k).flatten ++ f := by
    rw [List.take_add, List.flatten_append, hrest]
    simp
  rw [hnext, List.append_assoc, ← htake, List.take_append_drop]

theorem Follows.receive {obj : Kcpev T} {a : IoAnswer} {src : Source} {addr : Addr}
    {rb : Option Ringbuf} {size : ℕ} {data : Bytes} (h : Follows key frames received p c obj)
    (hframes : ∀ f ∈ frames, header.IsFrame f) (hlen : data.length ≤ kcpevBufferSize)
    (hpart : received ++ data <+: frames.flatten)
    (hroom : Direct (pending obj.tcp.rb) data ∨ ringAvailable obj.tcp.rb a.newMem = true ∧
      (pending obj.tcp.rb).length + data.length ≤ kcpevBufferSize)
    (hrecv : onTcpRecv obj.tcp.rb data a.newMem a.growMem = .ok (rb, size))
    (hctl : p'.ctl = if 0 < toInt size then .frame src addr (data.take (toInt size).toNat)
      else .drain src addr) :
    Follows key frames (received ++ data) p' c { obj with tcp := { obj.tcp with rb } } := by
  have hsize := kcpevBufferSize_eq
  obtain ⟨k, hk⟩ := h.stream
  by_cases hd : Direct (pending obj.tcp.rb) data
  · obtain ⟨hempty, hhead, hwhole⟩ := hd
    rw [onTcpRecv_direct _ _ ⟨hempty, hhead, hwhole⟩] at hrecv
    cases hrecv
    rw [hempty, List.append_nil] at hk
    rw [← hk] at hpart
    rw [headerSize_eq] at hhead
    have hcomplete : header.Complete data := ⟨hhead, by omega, hwhole.le⟩
    obtain ⟨hmem, hnext⟩ := next_frame hframes hpart hcomplete
    rw [hwhole, List.take_length] at hmem
    rw [hwhole, List.drop_length, hk] at hnext
    refine ⟨h.ring, ⟨k + 1, by rw [hempty, hnext]⟩, h.keyed, fun {addr' buf} hframe => ?_⟩
    rw [hctl, toInt_small (by omega), if_pos (by omega), Int.toNat_natCast, List.take_length]
      at hframe
    cases hframe
    exact hmem
  · obtain ⟨havailable, hfits⟩ := hroom.resolve_left hd
    obtain ⟨rb', size', hbuffer, hring, hnone, hpending⟩ := bufferChunk_ok h.ring data a.newMem
      a.growMem
    rw [onTcpRecv_buffered _ _ hd, hbuffer] at hrecv
    cases hrecv
    rw [havailable] at hpending
    simp only [bufferedBytes, Bool.true_eq_false, if_false, hfits, if_true] at hpending
    refine ⟨hring, ⟨k, ?_⟩, h.keyed, fun {addr' buf} hframe => ?_⟩
    · rw [hpending, ← List.append_assoc, hk]
    · rw [hctl, if_neg hnone] at hframe
      cases hframe

theorem Follows.drain {obj : Kcpev T} {src : Source} {addr : Addr} {rb : Option Ringbuf}
    {chunk : Bytes} (h : Follows key frames received p c obj)
    (hframes : ∀ f ∈ frames, header.IsFrame f) (hpart : received <+: frames.flatten)
    (hchunk : getTcpBufChunk obj.tcp.rb kcpevBufferSize = .ok (rb, chunk))
    (hctl : p'.ctl = if chunk = [] then .loop else .frame src addr chunk) :
    Follows key frames received p' c { obj with tcp := { obj.tcp with rb } } := by
  obtain ⟨k, hk⟩ := h.stream
  by_cases hc : header.Complete (pending obj.tcp.rb)
  · obtain ⟨rb', hnext, hring, hpending⟩ := getTcpBufChunk_complete h.ring hc
    rw [hnext] at hchunk
    cases hchunk
    rw [← hk] at hpart
    obtain ⟨hmem, hstream⟩ := next_frame hframes hpart hc
    refine ⟨hring, ⟨k + 1, ?_⟩, h.keyed, fun {addr' buf} hframe => ?_⟩
    · rw [hpending, hstream, hk]
    · rw [hctl, if_neg (take_size_ne_nil hc)] at hframe
      cases hframe
      exact hmem
  · rw [getTcpBufChunk_incomplete h.ring hc] at hchunk
    cases hchunk
    refine ⟨h.ring, ⟨k, hk⟩, h.keyed, fun {addr' buf} hframe => ?_⟩
    rw [hctl, if_pos rfl] at hframe
    cases hframe

/-- What holds of a client at its address, or of the address before it exists. -/
structure FollowsAt (key : KcpevKey) (frames : List Bytes) (c : ℕ) (received : Bytes)
    (p : Process K T) : Prop where
  fresh : p.world.os.next ≤ c → received = []
  client : ∀ {obj}, p.world.objs c = some obj → obj.hasServer = false →
    Follows key frames received p c obj

/-- The key and the ring are what they were, or the server has given the key. -/
theorem Follows.changed (h : FollowsAt key frames c received p) (hp : p.Typed)
    (hframes : ∀ f ∈ frames, FromServer key f) (hkey : p.KeepsKey c key)
    (hchange : ClientChange p c obj') (hclient : obj'.hasServer = false)
    (hctl : ∀ {addr buf}, p'.ctl = .frame (.clientTcpRecv c) addr buf →
      p.ctl = .frame (.clientTcpRecv c) addr buf) : Follows key frames received p' c obj' := by
  rcases hchange with ⟨hc, hfresh⟩ | ⟨hobj, hsteady⟩ |
    ⟨hobj, hframe, hsrc, hparse, hserver, hown, hrb⟩ |
    ⟨hobj, hstatus, hserver, hown, hrb⟩
  · refine ⟨?_, ⟨0, ?_⟩, fun hstatus => absurd hfresh.status hstatus, fun {addr buf} hframe => ?_⟩
    · rw [hfresh.rb]
      exact ringOk_none
    · rw [hfresh.rb, h.fresh hc]
      rfl
    · have hsource : p.ctl.source = some (.clientTcpRecv c) := by
        rw [hctl hframe]
        rfl
      have hlt := (hp.ctl hsource rfl).1
      omega
  · have hold := h.client hobj (hsteady.hasServer.symm.trans hclient)
    refine ⟨?_, ?_, fun hstatus => ?_, fun hframe => hold.frame (hctl hframe)⟩
    · rw [hsteady.rb]
      exact hold.ring
    · rw [hsteady.rb]
      exact hold.stream
    · rw [hsteady.key]
      apply hold.keyed
      rw [← hsteady.status.resolve_right hstatus]
      exact hstatus
  · rename_i obj src addr buf key'
    have hold := h.client hobj (hserver.symm.trans hclient)
    have hgiven : key' = key := by
      by_cases htcp : src = .clientTcpRecv c
      · rw [htcp] at hframe
        rcases hframes buf (hold.frame hframe) with hone | hone | ⟨msg, hone⟩
        · exact Subtype.ext (hone.parses.unique hparse).2
        · exact absurd (hone.parses.unique hparse).1 (by decide)
        · exact absurd (hone.parses.unique hparse).1 (by decide)
      · exact hkey src addr buf key' hframe htcp hsrc hparse
    refine ⟨?_, ?_, fun _ => hown.trans hgiven, fun hframe => hold.frame (hctl hframe)⟩
    · rw [hrb]
      exact hold.ring
    · rw [hrb]
      exact hold.stream
  · have hold := h.client hobj (hserver.symm.trans hclient)
    refine ⟨?_, ?_, fun _ => ?_, fun hframe => hold.frame (hctl hframe)⟩
    · rw [hrb]
      exact hold.ring
    · rw [hrb]
      exact hold.stream
    · rw [hown]
      exact hold.keyed (by simp [hstatus])

variable [KcpImpl K] [ClockImpl T]

theorem tcpArrival_fresh (hnone : p.world.objs c = none) (h : step p i = .ok p') :
    tcpArrival c p i = [] := by
  have dead : p.world.kcpev c = .error .useAfterFree := by
    simp [World.kcpev, hnone]
  unfold tcpArrival
  split
  · rename_i q a
    split
    · rename_i e hctl he
      split
      · rename_i hreceives
        obtain ⟨hdata, hcb⟩ := hreceives
        simp only [step, hctl, he] at h
        obtain ⟨x, hio, -⟩ := bind_eq_ok.mp h
        rcases hcb with hcb | hcb
        · simp only [ioEvent, hcb, hdata, clientTcpRecv] at hio
          split at hio
          · cases hio
          · rw [dead] at hio
            cases hio
        · simp only [ioEvent, hcb, hdata, serverTcpRecv, dead] at hio
          cases hio
      · rfl
    · rfl
  · rfl

theorem followsAt_step (h : FollowsAt key frames c received p) (hp : p.Typed)
    (hframes : ∀ f ∈ frames, FromServer key f)
    (hroles : ∀ {key d obj}, (key, d) ∈ p.world.hash → p.world.objs d = some obj →
      obj.hasServer = true) (hkey : p.KeepsKey c key) (hroom : p.HasRoom c i)
    (hpart : received ++ tcpArrival c p i <+: frames.flatten) (hs : step p i = .ok p') :
    FollowsAt key frames c (received ++ tcpArrival c p i) p' := by
  have hwhole : ∀ f ∈ frames, header.IsFrame f := fun f hf => (hframes f hf).isFrame
  have hages := (typed_effect hp.world (step_effect hp hs)).ages
  refine ⟨fun hc => ?_, fun {obj'} hobj' hclient => ?_⟩
  · have hold := hages.next.trans hc
    rw [h.fresh hold, tcpArrival_fresh (hp.world.fresh hold) hs]
    rfl
  · rcases client_step hroles hs hobj' hclient with ⟨hchange, harrival, hctl⟩ |
      ⟨hinput, hobj, harrival, hrecv, hobj', hctl⟩ | ⟨hobj, harrival, hchunk, hobj', hctl⟩
    · rw [harrival, List.append_nil] at hpart ⊢
      exact Follows.changed h hp hframes hkey hchange hclient hctl
    · subst hobj'
      rw [← harrival] at hrecv hctl
      exact (h.client hobj hclient).receive hwhole tcpArrival_length_le hpart
        (hroom _ _ _ hinput hobj) hrecv hctl
    · subst hobj'
      rw [harrival, List.append_nil] at hpart ⊢
      exact (h.client hobj hclient).drain hwhole hpart hchunk hctl

end Step

/-! What the client does with a frame of its server. -/

section Dispatch
variable [KcpImpl K] {key : KcpevKey} {w : World K T} {c : ℕ} {obj : Kcpev T} {buf : Bytes}
  {a : RecvAnswer}

/-- The dispatcher fails on such a frame only when it cannot send the first
handshake message. -/
theorem onClientRecv_fromServer (hframe : FromServer key buf) (hobj : w.objs c = some obj)
    (hopen : obj.udp.sock ≠ 0 → (w.os.socks obj.udp.sock).isSome)
    (hkeyed : obj.udp.status ≠ .invalid → obj.key = key) :
    (onClientRecv w c buf a = .error .nullPointer ∧ obj.hasRecvCb = false ∧
      ¬ ∃ data, Parses buf .shakeHand1 data) ∨
      ∃ w' ret, onClientRecv w c buf a = .ok (w', ret) ∧
        (ret ≠ 0 ↔ (∃ data, Parses buf .shakeHand1 data) ∧ obj.udp.sock ≠ 0 ∧
          ¬ a.send.Takes 24) := by
  have dispatched : ∀ {command data}, Parses buf command data →
      onClientRecv w c buf a = match command with
        | .data => clientData w c obj data
        | .shakeHand1 => clientShakeHand1 w c obj data a
        | .shakeHand2 => clientShakeHand2 w c obj data a
        | .heartbeat1 => clientHeartbeat1 w c obj data a
        | .udpInvalid => clientUdpInvalid w c obj data
        | .heartbeat2 => .ok (w, -1) := by
    intro command data hparse
    rw [Parses] at hparse
    simp only [onClientRecv, World.kcpev, hobj, bind, Except.bind, hparse,
      Command.ofByte_toByte]
    cases command <;> rfl
  have other : ∀ {command data}, Parses buf command data → command ≠ .shakeHand1 →
      ¬ ∃ data, Parses buf .shakeHand1 data := by
    rintro command data hparse hne ⟨data', hone⟩
    exact hne (hone.unique hparse).1
  rcases hframe with hone | hinvalid | ⟨msg, hdata⟩
  · right
    rw [dispatched hone.parses]
    dsimp only
    unfold clientShakeHand1
    split
    · rename_i hsock
      exact ⟨w, 0, rfl, by simp [hsock]⟩
    · rename_i hsock
      have hfits : key.val.length + 8 ≤ kcpevBufferSize := by
        rw [key.property]
        decide
      obtain ⟨os', ret, hsend⟩ := sockSendCommand_returns w.os obj.udp.sock .shakeHand1 a.send hfits
      have hret := sockSendCommand_ret (hopen hsock) hfits hsend
      rw [key.property] at hret
      have hiff : ret ≠ 0 ↔ (∃ data, Parses buf .shakeHand1 data) ∧ obj.udp.sock ≠ 0 ∧
          ¬ a.send.Takes 24 := by
        rw [ne_eq, hret]
        exact ⟨fun hnot => ⟨⟨_, hone.parses⟩, hsock, hnot⟩, fun hall => hall.2.2⟩
      rw [KcpevKey.ofBytes_val]
      simp only [hsend, bind, Except.bind]
      by_cases hr : ret = 0
      · rw [if_neg (not_not.mpr hr)]
        rw [hr] at hiff
        exact ⟨_, _, rfl, hiff⟩
      · rw [if_pos hr]
        exact ⟨_, _, rfl, iff_of_true (by decide) (hiff.mp hr)⟩
  · right
    have hnot := other hinvalid.parses (by decide)
    rw [dispatched hinvalid.parses]
    dsimp only
    unfold clientUdpInvalid
    split
    · exact ⟨w, 0, rfl, by simp [hnot]⟩
    · rename_i hvalid
      have hstatus : obj.udp.status ≠ .invalid := by
        obtain ⟨-, -, hstatus, -⟩ := not_not.mp hvalid
        rcases hstatus with hstatus | hstatus
        · simp [hstatus]
        · simp [hstatus]
      rw [if_neg (by simp [key.property]), if_neg (by simp [hkeyed hstatus])]
      exact ⟨_, 0, rfl, by simp [hnot]⟩
  · have hnot := other hdata.parses (by decide)
    rw [dispatched hdata.parses]
    dsimp only
    unfold clientData
    split
    · rename_i hcb
      exact Or.inl ⟨rfl, by simpa using hcb, hnot⟩
    · exact Or.inr ⟨_, 0, rfl, by simp [hnot]⟩

end Dispatch

section Round
variable [KcpImpl K] [ClockImpl T] {key : KcpevKey} {p : Process K T} {c : ℕ} {obj : Kcpev T}
  {addr : Addr} {buf : Bytes}

/-- A round that asks the ring goes on as long as there is a frame in it. -/
theorem drain_returns (hctl : p.ctl = .drain (.clientTcpRecv c) addr)
    (hobj : p.world.objs c = some obj) (hring : RingOk obj.tcp.rb) (a : RecvAnswer) :
    ∃ p', step p (.round a) = .ok p' ∧
      (p'.ctl = .loop ↔ ¬ header.Complete (pending obj.tcp.rb)) := by
  by_cases hc : header.Complete (pending obj.tcp.rb)
  · obtain ⟨rb, hchunk, -, -⟩ := getTcpBufChunk_complete hring hc
    simp only [step, hctl, callbackRound, drainRound, World.kcpev, hobj, hchunk, bind, Except.bind,
      take_size_ne_nil hc, if_false]
    exact ⟨_, rfl, iff_of_false (by simp [World.toFrame]) (not_not.mpr hc)⟩
  · simp only [step, hctl, callbackRound, drainRound, World.kcpev, hobj,
      getTcpBufChunk_incomplete hring hc, bind, Except.bind, if_true]
    exact ⟨_, rfl, iff_of_true rfl hc⟩

theorem step_frame (hctl : p.ctl = .frame (.clientTcpRecv c) addr buf) (a : RecvAnswer) :
    step p (.round a) = (onClientRecv p.world c buf a).bind fun x =>
      if x.2 = 0 then .ok { world := x.1, ctl := .drain (.clientTcpRecv c) addr }
      else .error .exit := by
  simp only [step, hctl, callbackRound, dispatch, dispatched, bind, Except.bind]
  rcases onClientRecv p.world c buf a with e | ⟨w', ret⟩
  · rfl
  · dsimp only
    by_cases hret : ret = 0
    · rw [if_pos hret, if_pos hret]
      rfl
    · rw [if_neg hret, if_neg hret]

/-- The event starts the callback, which puts the chunk away. -/
theorem io_ne_exit {q : ℕ} {a : IoAnswer} (hruns : p.RunsClientTcp c (.io q a))
    (hring : ∀ {obj}, p.world.objs c = some obj → RingOk obj.tcp.rb) :
    step p (.io q a) ≠ .error .exit := by
  obtain ⟨hctl, e, he, hcb, hdata, hrecv⟩ := hruns
  obtain ⟨chunk, hchunk⟩ := Option.isSome_iff_exists.mp hrecv
  have hio : ioEvent p.world e a = clientTcpRecv p.world c e.fd a := by
    unfold ioEvent
    rw [hcb, hdata]
  intro hexit
  simp only [step, hctl, he, hio] at hexit
  unfold clientTcpRecv at hexit
  rw [hchunk] at hexit
  dsimp only at hexit
  rcases hobj : p.world.objs c with _ | obj
  · simp [World.kcpev, hobj, bind, Except.bind] at hexit
  · obtain ⟨rb, size, hput⟩ : ∃ rb size,
        onTcpRecv obj.tcp.rb chunk a.newMem a.growMem = .ok (rb, size) := by
      by_cases hd : Direct (pending obj.tcp.rb) chunk
      · exact ⟨_, _, onTcpRecv_direct _ _ hd⟩
      · obtain ⟨rb, size, hbuffer, -⟩ := bufferChunk_ok (hring hobj) chunk a.newMem a.growMem
        exact ⟨rb, size, (onTcpRecv_buffered _ _ hd).trans hbuffer⟩
    by_cases hpos : 0 < toInt size
    · simp [World.kcpev, hobj, tcpReceived, hput, hpos, bind, Except.bind, pure, Except.pure]
        at hexit
    · simp [World.kcpev, hobj, tcpReceived, hput, hpos, bind, Except.bind, pure, Except.pure]
        at hexit

end Round

section Run
variable [KcpImpl K] [ClockImpl T] {key : KcpevKey} {frames : List Bytes} {p : Process K T}
  {now : T} {is : List (Input T)} {c : ℕ}

theorem run_followsAt (hframes : ∀ f ∈ frames, FromServer key f)
    (hrun : Run step (fun p i => p.KeepsKey c key ∧ p.HasRoom c i) (.init now) is p)
    (hreceived : history step (tcpArrival c) (Process.init (K := K) now) is <+: frames.flatten) :
    FollowsAt key frames c (history step (tcpArrival c) (Process.init (K := K) now) is) p := by
  induction hrun with
  | nil => exact ⟨fun _ => rfl, fun hobj => by cases hobj⟩
  | snoc hrun hok hs ih =>
    rw [hrun.history_snoc hs] at hreceived ⊢
    exact followsAt_step (ih ((List.prefix_append _ _).trans hreceived)) (run_typed hrun) hframes
      (fun hmem hobj => ((run_registered hrun).hasServer_of_mem hmem hobj).1) hok.1 hok.2
      hreceived hs

/-- Against an honest server, and as long as the chunks fit the ring, a client ends
on its TCP connection exactly when the first handshake message cannot be sent. It
goes on behind every other frame until no frame is left, and what it sends goes to
TCP while the KCP side is not valid. -/
theorem client_exits_iff (hframes : ∀ f ∈ frames, FromServer key f)
    (hrun : Run step (fun p i => p.KeepsKey c key ∧ p.HasRoom c i) (.init now) is p)
    (hreceived : history step (tcpArrival c) (Process.init (K := K) now) is <+: frames.flatten) :
    (∀ {i}, p.RunsClientTcp c i → (step p i = .error .exit ↔ p.ShakeHandFails c i)) ∧
    (∀ {addr buf obj a}, p.ctl = .frame (.clientTcpRecv c) addr buf → p.world.objs c = some obj →
      obj.hasRecvCb = true → ¬ p.ShakeHandFails c (.round a) →
      ∃ p', step p (.round a) = .ok p' ∧ p'.ctl = .drain (.clientTcpRecv c) addr) ∧
    (∀ {addr obj a}, p.ctl = .drain (.clientTcpRecv c) addr → p.world.objs c = some obj →
      ∃ p', step p (.round a) = .ok p' ∧
        (p'.ctl = .loop ↔ ¬ header.Complete (pending obj.tcp.rb))) ∧
    ∀ {obj}, p.world.objs c = some obj → ¬ obj.udp.isKcpValid → ∀ msg a,
      kcpevSend p.world.os obj.toKcpevBase msg a =
        kcpevSendTcp p.world.os obj.toKcpevBase msg a := by
  have hfollows := run_followsAt hframes hrun hreceived
  have hp := run_typed hrun
  have follows : ∀ {obj}, p.ctl.source = some (.clientTcpRecv c) → p.world.objs c = some obj →
      Follows key frames (history step (tcpArrival c) (Process.init (K := K) now) is) p c obj := by
    intro obj hsource hobj
    exact hfollows.client hobj ((hp.ctl hsource rfl).2 obj hobj)
  have hopen : ∀ {obj}, p.world.objs c = some obj → obj.udp.sock ≠ 0 →
      (p.world.os.socks obj.udp.sock).isSome := by
    intro obj hobj hsock
    exact (run_separate hrun).sock_open hobj hsock
  have framed : ∀ {addr buf obj} (a : RecvAnswer), p.ctl = .frame (.clientTcpRecv c) addr buf →
      p.world.objs c = some obj → (onClientRecv p.world c buf a = .error .nullPointer ∧
        obj.hasRecvCb = false ∧ ¬ p.ShakeHandFails c (.round a)) ∨
          ∃ w' ret, onClientRecv p.world c buf a = .ok (w', ret) ∧
            (ret ≠ 0 ↔ p.ShakeHandFails c (.round a)) := by
    intro addr buf obj a hctl hobj
    have hfollow := follows (by rw [hctl]; rfl) hobj
    have hfails : p.ShakeHandFails c (.round a) ↔ (∃ data, Parses buf .shakeHand1 data) ∧
        obj.udp.sock ≠ 0 ∧ ¬ a.send.Takes 24 := by
      constructor
      · rintro ⟨addr', buf', data, obj', hctl', hparse, hobj', hsock, hnot⟩
        rw [hctl] at hctl'
        rw [hobj] at hobj'
        cases hctl'
        cases hobj'
        exact ⟨⟨data, hparse⟩, hsock, hnot⟩
      · rintro ⟨⟨data, hparse⟩, hsock, hnot⟩
        exact ⟨addr, buf, data, obj, hctl, hparse, hobj, hsock, hnot⟩
    rw [hfails]
    rcases onClientRecv_fromServer (a := a) (hframes buf (hfollow.frame hctl)) hobj (hopen hobj)
      hfollow.keyed with ⟨hnull, hcb, hnot⟩ | hreturns
    · exact Or.inl ⟨hnull, hcb, fun hall => hnot hall.1⟩
    · exact Or.inr hreturns
  refine ⟨fun {i} hruns => ?_, fun {addr buf obj a} hctl hobj hcb hfails => ?_,
    fun {addr obj a} hctl hobj => drain_returns hctl hobj (follows (by rw [hctl]; rfl) hobj).ring a,
    fun {obj} _ hvalid msg a => ?_⟩
  · cases i with
    | round a =>
      rw [Process.RunsClientTcp] at hruns
      rcases hctl : p.ctl with _ | ⟨src, addr, buf⟩ | ⟨src, addr⟩ | d
      · rw [hctl] at hruns
        cases hruns
      · rw [hctl] at hruns
        obtain rfl : src = .clientTcpRecv c := Option.some.inj hruns
        rw [step_frame hctl]
        rcases hobj : p.world.objs c with _ | obj
        · have hdead : onClientRecv p.world c buf a = .error .useAfterFree := by
            simp [onClientRecv, World.kcpev, hobj, bind, Except.bind]
          rw [hdead]
          refine iff_of_false (by simp [Except.bind]) ?_
          rintro ⟨addr', buf', data, obj, -, -, hlive, -⟩
          rw [hobj] at hlive
          cases hlive
        · rcases framed a hctl hobj with ⟨hnull, -, hnot⟩ | ⟨w', ret, hw, hret⟩
          · rw [hnull]
            exact iff_of_false (by simp [Except.bind]) hnot
          · rw [hw, ← hret]
            by_cases hzero : ret = 0 <;> simp [Except.bind, hzero]
      · rw [hctl] at hruns
        obtain rfl : src = .clientTcpRecv c := Option.some.inj hruns
        refine iff_of_false (fun hexit => ?_) ?_
        · rcases hobj : p.world.objs c with _ | obj
          · simp [step, hctl, callbackRound, drainRound, World.kcpev, hobj, bind, Except.bind]
              at hexit
          · obtain ⟨p', hs, -⟩ := drain_returns hctl hobj (follows (by rw [hctl]; rfl) hobj).ring a
            rw [hs] at hexit
            cases hexit
        · rintro ⟨addr', buf, data, obj, hframe, -⟩
          rw [hctl] at hframe
          cases hframe
      · rw [hctl] at hruns
        cases hruns
    | io q a =>
      refine iff_of_false (io_ne_exit hruns fun {obj} hobj => ?_) id
      obtain ⟨-, e, he, hcb, hdata, -⟩ := hruns
      exact (hfollows.client hobj ((hp.world.io he ⟨hdata, Or.inl hcb⟩).2 obj hobj)).ring
    | _ => exact hruns.elim
  · rcases framed a hctl hobj with ⟨-, hnone, -⟩ | ⟨w', ret, hw, hret⟩
    · rw [hcb] at hnone
      cases hnone
    · have hzero : ret = 0 := by
        by_contra hne
        exact hfails (hret.mp hne)
      rw [step_frame hctl, hw, hzero]
      exact ⟨_, rfl, rfl⟩
  · exact kcpevSendCommand_tcp _ hvalid _ _ _

end Run

/-! A client whose first handshake message arrives. -/

/-- A client connects, and then the key of its session arrives. -/
def keyArrives : List (Input ℕ) :=
  [.createClient { alloc := true, bind := .sockets 5 6, kcp := true, initEv := ⟨true, true⟩ },
    .setCb 1,
    .connect 1 9 { tcp := { getaddrinfo := true, connects := [true] }
                   udp := { getaddrinfo := true, connects := [true] } },
    .io 3 (.receives (handshakeFrame .shakeHand1) 9)]

/-- A test for the conditions of a step, where nothing is dispatched. -/
def Process.keepsFitting (p : Process Unit ℕ) : Input ℕ → Bool
  | .io q a => decide (p.ctl.source = none) && (a.newMem.isSome && (p.world.objs 1).all fun obj =>
      (pending obj.tcp.rb).length + (tcpArrival 1 p (.io q a)).length ≤ kcpevBufferSize)
  | _ => decide (p.ctl.source = none)

theorem keepsFitting_iff {p : Process Unit ℕ} {i : Input ℕ} (h : p.keepsFitting i = true) :
    p.KeepsKey 1 sampleKey ∧ p.HasRoom 1 i := by
  have hsource : p.ctl.source = none := by
    unfold Process.keepsFitting at h
    split at h
    · exact of_decide_eq_true (Bool.and_eq_true_iff.mp h).1
    · exact of_decide_eq_true h
  constructor
  · intro src addr buf key' hctl
    rw [hctl] at hsource
    cases hsource
  · intro q a obj hinput hobj
    subst hinput
    simp only [Process.keepsFitting, hobj, Option.all_some, Bool.and_eq_true, decide_eq_true_eq]
      at h
    obtain ⟨-, hmem, hroom⟩ := h
    right
    refine ⟨?_, hroom⟩
    rw [ringAvailable, hmem, Bool.or_true]

theorem handshakeFrame_fromServer : FromServer sampleKey (handshakeFrame .shakeHand1) :=
  Or.inl ⟨by decide, [0, 0, 0], rfl, rfl⟩

/-- `send` does not take the first handshake message. -/
def RecvAnswer.unsent : RecvAnswer :=
  { RecvAnswer.socket 0 with send := { SendAnswer.whole with send := none } }

/-- What the examples test: the key was dispatched to a client that can answer. -/
def Process.gotKey (p : Process Unit ℕ) : Bool :=
  decide (history step (tcpArrival 1) (Process.init (K := Unit) 0) keyArrives =
      handshakeFrame .shakeHand1) &&
    (match p.ctl with
      | .frame (.clientTcpRecv 1) 9 buf => decide (buf = handshakeFrame .shakeHand1)
      | _ => false) &&
    (p.world.objs 1).any fun obj => obj.hasRecvCb && decide (obj.udp.sock = 6)

theorem gotKey_iff {p : Process Unit ℕ} (h : p.gotKey = true) :
    history step (tcpArrival 1) (Process.init (K := Unit) 0) keyArrives <+:
        [handshakeFrame .shakeHand1].flatten ∧
      p.ctl = .frame (.clientTcpRecv 1) 9 (handshakeFrame .shakeHand1) ∧
      ∃ obj, p.world.objs 1 = some obj ∧ obj.hasRecvCb = true ∧ obj.udp.sock = 6 := by
  simp only [Process.gotKey, Bool.and_eq_true, decide_eq_true_eq, Option.any_eq_true] at h
  obtain ⟨⟨hhistory, hctl⟩, obj, hobj, hcb, hsock⟩ := h
  refine ⟨by simp [hhistory], ?_, obj, hobj, hcb, hsock⟩
  split at hctl
  · rename_i buf heq
    rw [heq, decide_eq_true_eq.mp hctl]
  · cases hctl

def Process.exits (p : Process Unit ℕ) (i : Input ℕ) : Bool :=
  match step p i with
  | .error .exit => true
  | _ => false

/-- A client with a working UDP socket ends at the first frame of its server, when
one datagram cannot be sent. -/
theorem key_ends_client : ∃ p : Process Unit ℕ,
    Run step (fun p i => p.KeepsKey 1 sampleKey ∧ p.HasRoom 1 i) (.init 0) keyArrives p ∧
      FromServer sampleKey (handshakeFrame .shakeHand1) ∧
      history step (tcpArrival 1) (Process.init (K := Unit) 0) keyArrives <+:
        [handshakeFrame .shakeHand1].flatten ∧
      p.ctl = .frame (.clientTcpRecv 1) 9 (handshakeFrame .shakeHand1) ∧
      step p (.round .unsent) = .error .exit := by
  obtain ⟨p, hrun, htest⟩ := Run.exists_of_exec (step (K := Unit))
    (fun p i => p.keepsFitting i = true) (.init 0) keyArrives
    (fun p => p.gotKey && p.exits (.round .unsent)) (by decide)
  rw [Bool.and_eq_true] at htest
  obtain ⟨hkey, hexits⟩ := htest
  obtain ⟨hhistory, hctl, -⟩ := gotKey_iff hkey
  refine ⟨p, hrun.mono keepsFitting_iff, handshakeFrame_fromServer, hhistory, hctl, ?_⟩
  unfold Process.exits at hexits
  split at hexits
  · assumption
  · cases hexits

theorem keyArrives_exits_iff : ∃ p : Process Unit ℕ,
    Run step (fun p i => p.KeepsKey 1 sampleKey ∧ p.HasRoom 1 i) (.init 0) keyArrives p ∧
      step p (.round .unsent) = .error .exit ∧
      ∃ p', step p (.round (.socket 0)) = .ok p' ∧ p'.ctl = .drain (.clientTcpRecv 1) 9 := by
  obtain ⟨p, hrun, htest⟩ := Run.exists_of_exec (step (K := Unit))
    (fun p i => p.keepsFitting i = true) (.init 0) keyArrives Process.gotKey (by decide)
  obtain ⟨hhistory, hctl, obj, hobj, hcb, hsock⟩ := gotKey_iff htest
  have hrun' := hrun.mono keepsFitting_iff
  have hparse : Parses (handshakeFrame .shakeHand1) .shakeHand1 sampleKey.val := by decide
  obtain ⟨hexits, hgoes, -, -⟩ := client_exits_iff
    (fun f hf => by rw [List.mem_singleton.mp hf]; exact handshakeFrame_fromServer) hrun' hhistory
  have hruns : p.RunsClientTcp 1 (.round .unsent) := by
    rw [Process.RunsClientTcp, hctl]
    rfl
  refine ⟨p, hrun', (hexits hruns).mpr ?_, hgoes hctl hobj hcb ?_⟩
  · refine ⟨9, _, _, obj, hctl, hparse, hobj, by simp [hsock], ?_⟩
    rintro ⟨k, hk, -⟩
    cases hk
  · rintro ⟨-, -, -, -, -, -, -, -, hnot⟩
    exact hnot ⟨65536, rfl, by decide⟩

end KcpEv
