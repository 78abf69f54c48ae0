import KcpEv.Demux

/-!
A message on its way through KCP: the fragments `ikcp_send` makes of its frame,
and what `try_kcp_recv` does when they are in the queue of the peer. The buffer
of the receiver has room for a terminator only behind frames that are shorter
than the longest one a sender packs.
-/
namespace KcpEv

open Ikcp

variable {T : Type}

/-! Fragments and their reassembly. -/

/-- Segments that carry what these fragments carry. -/
def Carry (frags segs : List IkcpSeg) : Prop :=
  segs.map (fun seg => (seg.frg, seg.data)) = frags.map fun seg => (seg.frg, seg.data)

theorem carry_cons {frag : IkcpSeg} {frags segs : List IkcpSeg} (h : Carry (frag :: frags) segs) :
    ∃ seg rest, segs = seg :: rest ∧ seg.frg = frag.frg ∧ seg.data = frag.data ∧
      Carry frags rest := by
  obtain ⟨seg, rest, rfl, hseg, hrest⟩ := List.map_eq_cons_iff.mp h
  have hpair := Prod.mk.inj hseg
  exact ⟨seg, rest, rfl, hpair.1, hpair.2, hrest⟩

namespace Ikcp

theorem ikcpMss_eq : ikcpMss = 1376 := rfl

theorem length_fragment (count : ℕ) (buffer : Bytes) : (fragment count buffer).length = count := by
  induction count generalizing buffer with
  | zero => rfl
  | succ i ih =>
    unfold fragment
    rw [List.length_cons, ih]

theorem fragmentCount_pos (len : ℕ) : 0 < fragmentCount len := by
  have hmss := ikcpMss_eq
  unfold fragmentCount
  split
  · omega
  · apply Nat.div_pos
    · omega
    · omega

theorem fragmentCount_bounds (len : ℕ) :
    len ≤ fragmentCount len * ikcpMss ∧ fragmentCount len * ikcpMss < len + ikcpMss + 1 := by
  have hmss := ikcpMss_eq
  unfold fragmentCount
  split
  · omega
  · rw [hmss]
    omega

theorem fragmentCount_le {len : ℕ} (h : len ≤ kcpevBufferSize) : fragmentCount len ≤ 48 := by
  have hmss := ikcpMss_eq
  have hsize := kcpevBufferSize_eq
  have hbounds := fragmentCount_bounds len
  rw [hmss] at hbounds
  omega

theorem frg_eq_zero_iff {i : ℕ} (h : i < 256) : UInt8.ofNat i = 0 ↔ i = 0 := by
  rw [← UInt8.toNat_inj, UInt8.toNat_ofNat', Nat.mod_eq_of_lt (by omega)]
  rfl

/-- Segments that carry the fragments of a message are merged into it, and what
is behind them stays. -/
theorem mergeFragments_fragment {count : ℕ} {buffer : Bytes} {segs : List IkcpSeg}
    (hpos : 0 < count) (hcount : count ≤ 256) (hlen : buffer.length ≤ count * ikcpMss)
    (h : Carry (fragment count buffer) segs) (rest : List IkcpSeg) :
    mergeFragments (segs ++ rest) = (buffer, rest) ∧
      messageLength (segs ++ rest) = buffer.length := by
  induction count generalizing buffer segs with
  | zero => omega
  | succ i ih =>
    obtain ⟨seg, tail, rfl, hfrg, hdata, htail⟩ := carry_cons h
    have hfrg' : seg.frg = UInt8.ofNat i := hfrg
    have hdata' : seg.data = buffer.take ikcpMss := hdata
    have hzero := frg_eq_zero_iff (show i < 256 by omega)
    rw [← hfrg'] at hzero
    rw [List.cons_append, mergeFragments, messageLength]
    rcases Nat.eq_zero_or_pos i with rfl | hi
    · have hwhole : buffer.take ikcpMss = buffer := by
        apply List.take_of_length_le
        omega
      have hnil : tail = [] := List.map_eq_nil_iff.mp htail
      rw [if_pos (hzero.mpr rfl), if_pos (hzero.mpr rfl), hdata', hwhole, hnil]
      exact ⟨rfl, Nat.add_zero _⟩
    · have hne : ¬ seg.frg = 0 := by
        intro h0
        have := hzero.mp h0
        omega
      have hdrop : (buffer.drop ikcpMss).length ≤ i * ikcpMss := by
        rw [Nat.add_mul, Nat.one_mul] at hlen
        rw [List.length_drop]
        omega
      obtain ⟨hmerge, hlength⟩ := ih hi (by omega) hdrop htail
      rw [if_neg hne, if_neg hne, hmerge, hlength, hdata']
      refine ⟨?_, ?_⟩
      · simp only [List.take_append_drop]
      · rw [← List.length_append, List.take_append_drop]

theorem recv_fragment {buffer : Bytes} {segs rest : List IkcpSeg} {k : Ikcp}
    (hfits : buffer.length ≤ kcpevBufferSize)
    (h : Carry (fragment (fragmentCount buffer.length) buffer) segs)
    (hqueue : k.rcvQueue = segs ++ rest) :
    ∃ k', k.recv kcpevBufferSize = (k', some buffer) := by
  have hpos := fragmentCount_pos buffer.length
  have hcount := fragmentCount_le hfits
  have hbounds := (fragmentCount_bounds buffer.length).1
  obtain ⟨hmerge, hlength⟩ := mergeFragments_fragment hpos (by omega) hbounds h rest
  have hpeek : k.peeksize = some buffer.length := by
    have hsegs : segs.length = fragmentCount buffer.length := by
      have hmap := congrArg List.length h
      rw [List.length_map, List.length_map, length_fragment] at hmap
      exact hmap
    obtain ⟨i, hi⟩ := Nat.exists_eq_succ_of_ne_zero (Nat.pos_iff_ne_zero.mp hpos)
    rw [hi] at h hsegs
    obtain ⟨seg, tail, rfl, hfrg, -, -⟩ := carry_cons h
    have hfrg' : seg.frg = UInt8.ofNat i := hfrg
    unfold peeksize
    rw [hqueue]
    rw [List.cons_append] at hlength ⊢
    simp only
    by_cases hzero : seg.frg = 0
    · rw [messageLength, if_pos hzero, Nat.add_zero] at hlength
      rw [if_pos hzero, hlength]
    · rw [if_neg hzero, if_neg]
      · rw [hlength]
      · rw [hfrg', UInt8.toNat_ofNat', List.length_cons, List.length_append]
        rw [List.length_cons] at hsegs
        have := Nat.mod_le i (2 ^ 8)
        omega
  unfold recv
  rw [hpeek]
  simp only
  rw [if_neg (by omega), hqueue, hmerge]
  exact ⟨_, rfl⟩

end Ikcp

/-! The sender. -/

/-- A KCP object has taken these fragments. -/
def Queues (os os' : Os Ikcp T) (p : ℕ) (frags : List IkcpSeg) : Prop :=
  ∃ k, os.kcps p = some k ∧
    os'.kcps p = some { k with state := { k.state with sndQueue := k.state.sndQueue ++ frags } }

theorem Queues.unique {os os' : Os Ikcp T} {p : ℕ} {frags frags' : List IkcpSeg}
    (h : Queues os os' p frags) (h' : Queues os os' p frags') : frags = frags' := by
  obtain ⟨k, hk, hq⟩ := h
  obtain ⟨k', hk', hq'⟩ := h'
  rw [hk, Option.some.injEq] at hk'
  rw [hq, ← hk', Option.some.injEq] at hq'
  have hqueue := congrArg (fun x => x.state.sndQueue) hq'
  exact List.append_cancel_left hqueue

/-- What `kcpev_send` gives to KCP when it returns zero. -/
theorem kcpevSend_queues {os os' : Os Ikcp T} {b : KcpevBase T} {p : ℕ} {msg : Bytes}
    {a : SendAnswer} (hvalid : b.udp.isKcpValid) (hkcp : b.udp.kcp = some p)
    (h : kcpevSend os b msg a = .ok (os', 0)) :
    ∃ frame, Frame .data msg frame ∧
      Queues os os' p (fragment (fragmentCount frame.length) frame) := by
  unfold kcpevSend at h
  rw [kcpevSendCommand_kcp os hvalid] at h
  obtain ⟨⟨buf, n⟩, hpack, h⟩ := bind_eq_ok.mp h
  rcases packSendBuf_cases hpack with rfl | ⟨rfl, hfits, hload⟩
  · cases h
  · have hframe :
        Frame .data msg (frameBytes Command.data.toByte (Circular.load a.stack 5 3) msg) :=
      frame_load hfits rfl
    simp only [Nat.add_eq_zero_iff, OfNat.ofNat_ne_zero, and_false, if_false, hvalid, if_true,
      hkcp, hload] at h
    obtain ⟨k, hk, rfl, hret⟩ := ikcpSend_cases h
    refine ⟨_, hframe, k, hk, ?_⟩
    have hlen := hframe.length
    generalize frameBytes Command.data.toByte (Circular.load a.stack 5 3) msg = frame at *
    have hcount : fragmentCount frame.length ≤ 48 := fragmentCount_le (by omega)
    have hsmall : ¬ 255 < fragmentCount frame.length := by omega
    simp only [Os.setKcp, Function.update_self, KcpImpl.send, Ikcp.send, if_neg hsmall]

/-! The receiver. -/

/-- A live object with a live KCP object and a callback to be called. -/
structure Listens (w : World Ikcp T) (c q : ℕ) (client : Kcpev T) (k : Ikcpcb Ikcp) : Prop where
  live : w.objs c = some client
  kcp : w.os.kcps q = some k
  callback : if client.hasServer then ∃ server, w.server = some server ∧ server.hasRecvCb
    else client.hasRecvCb

/-- The call of the application that a message leads to. -/
def Kcpev.callback (client : Kcpev T) (c : ℕ) (msg : Bytes) : Output :=
  if client.hasServer then .serverRecvCb (some c) msg else .clientRecvCb c msg

/-- One round of `try_kcp_recv` takes a message that leaves room for the
terminator, and its dispatch gives the payload to the callback. -/
def Delivers [ClockImpl T] (w : World Ikcp T) (c q : ℕ) (client : Kcpev T) (msg : Bytes)
    (r : RecvAnswer) : Prop :=
  ∃ w₁ addr frame w₂,
    drainRound w (.tryKcpRecv c q) 0 = .ok (w₁, .frame (.tryKcpRecv c q) addr frame) ∧
    frame.length < kcpevBufferSize ∧
    dispatch w₁ (.tryKcpRecv c q) addr frame r = .ok (w₂, 0) ∧
    w₂.os.out = w₁.os.out ++ [client.callback c msg]

/-- What the system has to do for a session: name the peer, twice. -/
def Kcpev.Named (w : World Ikcp T) (client : Kcpev T) (r : RecvAnswer) : Prop :=
  client.hasServer → (w.os.getpeername client.udp.sock).isSome ∧ r.getnameinfo

section Receiver
variable {w : World Ikcp T} {c q : ℕ} {client : Kcpev T} {k : Ikcpcb Ikcp} {k' : Ikcp}
  {frame msg : Bytes} {r : RecvAnswer}

theorem drainRound_kcp (h : Listens w c q client k)
    (hrecv : k.state.recv kcpevBufferSize = (k', some frame)) (hne : frame ≠ []) :
    drainRound w (.tryKcpRecv c q) 0 =
      let w' : World Ikcp T := { w with os := w.os.setKcp q { k with state := k' } }
      if kcpevBufferSize ≤ frame.length then .error .outOfBounds
      else if client.hasServer then
        match w.os.getpeername client.udp.sock with
        | none => .ok (w', .loop)
        | some addr => .ok (w'.toFrame (.tryKcpRecv c q) addr frame)
      else .ok (w'.toFrame (.tryKcpRecv c q) 0 frame) := by
  obtain ⟨b, rest, rfl⟩ := List.exists_cons_of_ne_nil hne
  have hlive : World.kcpev { w with os := w.os.setKcp q { k with state := k' } } c = .ok client :=
    World.kcpev_ok.mpr h.live
  have hrecv' : KcpImpl.recv k.state kcpevBufferSize = (k', some (b :: rest)) := hrecv
  unfold drainRound World.ikcpRecv
  simp only [h.kcp, hrecv', bind, Except.bind, hlive]
  rfl

variable [ClockImpl T]

theorem dispatch_data (r : RecvAnswer) (addr : Addr) (h : Listens w c q client k)
    (hparse : Parses frame .data msg)
    (hnamed : client.hasServer → r.getnameinfo) :
    ∃ w', dispatch w (.tryKcpRecv c q) addr frame r = .ok (w', 0) ∧
      w'.os.out = w.os.out ++ [client.callback c msg] := by
  have hlive : w.kcpev c = .ok client := World.kcpev_ok.mpr h.live
  have hcallback := h.callback
  rw [Parses] at hparse
  by_cases hserver : client.hasServer
  · rw [if_pos hserver] at hcallback
    obtain ⟨server, hs, hcb⟩ := hcallback
    refine ⟨{ w with os := w.os.emit (.serverRecvCb (some c) msg) }, ?_, ?_⟩
    · simp [dispatch, onSessionRecv, hlive, hserver, onServerRecv, hparse, hnamed hserver,
        Command.ofByte_toByte, serverData, World.kcpevServer_ok.mpr hs, hcb, bind, Except.bind,
        pure, Except.pure]
    · rw [Kcpev.callback, if_pos hserver]
      rfl
  · rw [if_neg hserver] at hcallback
    refine ⟨{ w with os := w.os.emit (.clientRecvCb c msg) }, ?_, ?_⟩
    · simp [dispatch, hlive, hserver, onClientRecv, hparse, Command.ofByte_toByte, clientData,
        hcallback, bind, Except.bind]
    · rw [Kcpev.callback, if_neg hserver]
      rfl

theorem dispatch_unnamed (addr : Addr) (hlive : w.objs c = some client) (hserver : client.hasServer)
    (hparse : Parses frame .data msg) (hname : ¬ r.getnameinfo) :
    dispatch w (.tryKcpRecv c q) addr frame r = .ok (w, -1) := by
  rw [Parses] at hparse
  simp [dispatch, onSessionRecv, World.kcpev_ok.mpr hlive, hserver, onServerRecv, hparse, hname,
    bind, Except.bind]

omit [ClockImpl T] in
theorem Listens.toFrame (h : Listens w c q client k) (k' : Ikcp) (src : Source) (addr : Addr)
    (frame : Bytes) :
    Listens ({ w with os := w.os.setKcp q { k with state := k' } }.toFrame src addr frame).1 c q
      client { k with state := k' } :=
  ⟨h.live, Function.update_self .., h.callback⟩

/-- A frame at the front of the queue is delivered exactly when there is room
for the terminator, and the system can name the peer of a session. -/
theorem delivers_iff (h : Listens w c q client k) (hframe : Frame .data msg frame)
    (hrecv : k.state.recv kcpevBufferSize = (k', some frame)) :
    Delivers w c q client msg r ↔
      msg.length + headerSize < kcpevBufferSize ∧ client.Named w r := by
  have hlen : frame.length = msg.length + headerSize := hframe.length
  have hne : frame ≠ [] := by
    apply List.ne_nil_of_length_pos
    rw [hlen, headerSize_eq]
    omega
  have hround := drainRound_kcp h hrecv hne
  simp only at hround
  constructor
  · rintro ⟨w₁, addr, frame', w₂, hdrain, hroom, hdispatch, -⟩
    rw [hround] at hdrain
    by_cases hlong : kcpevBufferSize ≤ frame.length
    · rw [if_pos hlong] at hdrain
      cases hdrain
    · refine ⟨by omega, fun hserver => ?_⟩
      rw [if_neg hlong, if_pos hserver] at hdrain
      rcases hpeer : w.os.getpeername client.udp.sock with _ | peer
      · rw [hpeer] at hdrain
        cases hdrain
      · rw [hpeer] at hdrain
        cases hdrain
        refine ⟨rfl, ?_⟩
        by_contra hname
        have hunnamed := dispatch_unnamed (q := q) addr
          (h.toFrame k' (.tryKcpRecv c q) addr frame).live hserver hframe.parses hname
        have hret := hunnamed.symm.trans hdispatch
        cases hret
  · rintro ⟨hroom, hnamed⟩
    have hshort : ¬ kcpevBufferSize ≤ frame.length := by omega
    rw [if_neg hshort] at hround
    by_cases hserver : client.hasServer
    · obtain ⟨hpeer, hname⟩ := hnamed hserver
      obtain ⟨addr, haddr⟩ := Option.isSome_iff_exists.mp hpeer
      rw [if_pos hserver, haddr] at hround
      obtain ⟨w₂, hdispatch, hout⟩ := dispatch_data r addr
        (h.toFrame k' (.tryKcpRecv c q) addr frame) hframe.parses (fun _ => hname)
      exact ⟨_, addr, frame, w₂, hround, by omega, hdispatch, hout⟩
    · rw [if_neg hserver] at hround
      obtain ⟨w₂, hdispatch, hout⟩ := dispatch_data r 0
        (h.toFrame k' (.tryKcpRecv c q) 0 frame) hframe.parses (fun hs => absurd hs hserver)
      exact ⟨_, 0, frame, w₂, hround, by omega, hdispatch, hout⟩

end Receiver

/-- A message that KCP has accepted is received intact exactly when its frame is
shorter than the receiver's buffer, and the system can name the peer of a
session. The fragments always fit the windows. -/
theorem received_intact_iff [ClockImpl T] {os os' : Os Ikcp T} {b : KcpevBase T} {p : ℕ}
    {msg : Bytes} {a : SendAnswer} (hvalid : b.udp.isKcpValid) (hkcp : b.udp.kcp = some p)
    (hsent : kcpevSend os b msg a = .ok (os', 0)) :
    ∃ frags, Queues os os' p frags ∧ frags.length ≤ 255 ∧
      frags.length ≤ Ikcp.kcpevCreateKcp.rcvWnd.toNat ∧
      ∀ (w : World Ikcp T) (c q : ℕ) (client : Kcpev T) (k : Ikcpcb Ikcp)
        (segs rest : List IkcpSeg) (r : RecvAnswer), Listens w c q client k → Carry frags segs →
        k.state.rcvQueue = segs ++ rest →
        (Delivers w c q client msg r ↔
          msg.length + headerSize < kcpevBufferSize ∧ client.Named w r) := by
  obtain ⟨frame, hframe, hqueues⟩ := kcpevSend_queues hvalid hkcp hsent
  have hfits : frame.length ≤ kcpevBufferSize := by
    rw [hframe.length]
    exact hframe.1
  have hcount := fragmentCount_le hfits
  have hwindow : Ikcp.kcpevCreateKcp.rcvWnd.toNat = 128 := rfl
  refine ⟨_, hqueues, ?_, ?_, ?_⟩
  · rw [length_fragment]
    omega
  · rw [length_fragment, hwindow]
    omega
  · intro w c q client k segs rest r hlistens hcarry hqueue
    obtain ⟨k', hrecv⟩ := recv_fragment hfits hcarry hqueue
    exact delivers_iff hlistens hframe hrecv

/-- A valid connection takes every message that fits the frame buffer. -/
theorem kcpevSend_accepts {b : KcpevBase T} {p : ℕ} {k : Ikcpcb Ikcp} (os : Os Ikcp T)
    (msg : Bytes) (hvalid : b.udp.isKcpValid) (hkcp : b.udp.kcp = some p)
    (hlive : os.kcps p = some k) (hfits : msg.length + 8 ≤ kcpevBufferSize) (a : SendAnswer) :
    ∃ os', kcpevSend os b msg a = .ok (os', 0) := by
  obtain ⟨buf, hpack, -⟩ := packSendBuf_fits a.stack Command.data.toByte msg hfits
  have hcount : fragmentCount (msg.length + 8) ≤ 48 := fragmentCount_le hfits
  have hsmall : ¬ 255 < fragmentCount (msg.length + 8) := by omega
  unfold kcpevSend
  rw [kcpevSendCommand_kcp os hvalid]
  simp [kcpSendCommand, hpack, hvalid, hkcp, ikcpSend, hlive, KcpImpl.send, Ikcp.send, hsmall, bind,
    Except.bind]

/-- One KCP object, as the library creates it. -/
def Os.oneKcp (queue : List IkcpSeg) : Os Ikcp ℕ :=
  { (Process.init (K := Ikcp) 0).world.os with
    kcps := Function.update (fun _ => none) 1
      (some ⟨7, { Ikcp.kcpevCreateKcp with rcvQueue := queue }⟩) }

def Kcpev.readyClient : Kcpev ℕ :=
  { (kcpevCreate : Kcpev ℕ) with
    udp := { (KcpevBase.zero : KcpevBase ℕ).udp with
      sock := 3, evt := some 2, kcp := some 1, status := .ready }
    hasRecvCb := true }

/-- That client, with segments in the queue of its KCP object. -/
def World.oneClient (queue : List IkcpSeg) : World Ikcp ℕ :=
  { os := .oneKcp queue, server := none
    objs := Function.update (fun _ => none) 1 (some Kcpev.readyClient) }

theorem listens_oneClient (queue : List IkcpSeg) :
    Listens (World.oneClient queue) 1 1 Kcpev.readyClient
      ⟨7, { Ikcp.kcpevCreateKcp with rcvQueue := queue }⟩ :=
  ⟨rfl, rfl, rfl⟩

/-- The longest message that leaves room for the terminator gets through, in 48 fragments. -/
theorem received_intact_longest : ∃ os' frags,
    kcpevSend (.oneKcp []) Kcpev.readyClient.toKcpevBase (List.replicate 65527 7) .whole =
        .ok (os', 0) ∧
      Queues (.oneKcp []) os' 1 frags ∧ frags.length = 48 ∧
      Delivers (World.oneClient frags) 1 1 Kcpev.readyClient (List.replicate 65527 7)
        (.socket 0) := by
  have hlength : (List.replicate 65527 (7 : UInt8)).length = 65527 := List.length_replicate
  generalize List.replicate 65527 (7 : UInt8) = msg at hlength ⊢
  have hsize := kcpevBufferSize_eq
  have hvalid : Kcpev.readyClient.udp.isKcpValid := by decide
  obtain ⟨os', hsent⟩ := kcpevSend_accepts (.oneKcp []) msg hvalid rfl rfl (by omega) .whole
  obtain ⟨frags, hqueues, -, -, hiff⟩ := received_intact_iff hvalid rfl hsent
  obtain ⟨frame, hframe, hfragments⟩ := kcpevSend_queues hvalid rfl hsent
  have hcount : frags.length = 48 := by
    rw [hqueues.unique hfragments, length_fragment, hframe.length, hlength]
    rfl
  refine ⟨os', frags, hsent, hqueues, hcount, ?_⟩
  refine (hiff _ _ _ _ _ frags [] _ (listens_oneClient frags) rfl (List.append_nil _).symm).mpr ?_
  exact ⟨by rw [hlength]; decide, fun h => absurd h (by decide)⟩

/-- The longest message the sender takes overflows the buffer of its receiver. -/
theorem longest_message_overflows :
    ∃ os' frags, kcpevSend (.oneKcp []) Kcpev.readyClient.toKcpevBase
        (List.replicate 65528 0) .whole = .ok (os', 0) ∧
      Queues (.oneKcp []) os' 1 frags ∧
      drainRound (World.oneClient frags) (.tryKcpRecv 1 1) 0 = .error .outOfBounds := by
  have hlength : (List.replicate 65528 (0 : UInt8)).length = 65528 := List.length_replicate
  generalize List.replicate 65528 (0 : UInt8) = msg at hlength ⊢
  have hsize := kcpevBufferSize_eq
  have hvalid : Kcpev.readyClient.udp.isKcpValid := by decide
  obtain ⟨os', hsent⟩ := kcpevSend_accepts (.oneKcp []) msg hvalid rfl rfl (by omega)
    .whole
  obtain ⟨frame, hframe, hqueues⟩ := kcpevSend_queues hvalid rfl hsent
  refine ⟨os', _, hsent, hqueues, ?_⟩
  have hlen := hframe.length
  obtain ⟨k', hrecv⟩ := recv_fragment
    (k := { Ikcp.kcpevCreateKcp with rcvQueue := fragment (fragmentCount frame.length) frame })
    (by omega) rfl (List.append_nil _).symm
  have hround := drainRound_kcp (listens_oneClient _) hrecv (List.ne_nil_of_length_pos (by omega))
  rw [hround]
  simp only
  rw [if_pos (by omega)]

end KcpEv
