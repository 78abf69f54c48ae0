import KcpEv.Objects

/-!
Sending a command: directly on a socket, through KCP, or whichever of TCP and
KCP `is_kcp_valid` selects. The frame is packed in a buffer on the stack.
-/
namespace KcpEv

open Circular

/-- What a sending function gets: the contents of its stack buffer, and the
answer of `send`. -/
structure SendAnswer where
  stack : ℕ → UInt8
  send : Option ℕ

namespace KcpevUdp

variable {T : Type}

def isKcpValid (udp : KcpevUdp T) : Prop :=
  udp.sock ≠ 0 ∧ udp.kcp.isSome ∧ (udp.status = .ready ∨ udp.status = .heartbeat) ∧ udp.evt.isSome

instance (udp : KcpevUdp T) : Decidable udp.isKcpValid :=
  inferInstanceAs (Decidable (_ ∧ _))

def setKcpInvalid (udp : KcpevUdp T) : KcpevUdp T :=
  if udp.status = .invalid then udp else { udp with status := .invalid }

theorem setKcpInvalid_eq (udp : KcpevUdp T) :
    udp.setKcpInvalid = { udp with status := .invalid } := by
  unfold setKcpInvalid
  split
  · rename_i h
    rw [← h]
  · rfl

theorem not_isKcpValid_setKcpInvalid (udp : KcpevUdp T) : ¬ udp.setKcpInvalid.isKcpValid := by
  rw [setKcpInvalid_eq]
  rintro ⟨-, -, h | h, -⟩
  · cases h
  · cases h

end KcpevUdp

variable {K T : Type}

namespace Os

/-- The two states have the same sockets, watchers and KCP objects, and the
callback of the server was not called. The delays of the timers, what the KCP
objects hold, the clock and the rest of the record may differ. -/
structure Same (os os' : Os K T) : Prop where
  socks : os'.socks = os.socks
  ios : os'.ios = os.ios
  timers : ∀ p, (os'.timers p).map (fun t => (t.data, t.cb)) =
    (os.timers p).map (fun t => (t.data, t.cb))
  kcps : ∀ p, (os'.kcps p).isSome = (os.kcps p).isSome
  next : os'.next = os.next
  calls : os'.serverCalls = os.serverCalls

theorem Same.refl (os : Os K T) : Same os os :=
  ⟨rfl, rfl, fun _ => rfl, fun _ => rfl, rfl, rfl⟩

theorem Same.trans {os₁ os₂ os₃ : Os K T} (h : Same os₁ os₂) (h' : Same os₂ os₃) :
    Same os₁ os₃ where
  socks := h'.socks.trans h.socks
  ios := h'.ios.trans h.ios
  timers p := (h'.timers p).trans (h.timers p)
  kcps p := (h'.kcps p).trans (h.kcps p)
  next := h'.next.trans h.next
  calls := h'.calls.trans h.calls

/-- The conversation numbers are the same too. -/
structure Keeps (os os' : Os K T) : Prop extends Same os os' where
  convs : ∀ p, (os'.kcps p).map Ikcpcb.conv = (os.kcps p).map Ikcpcb.conv

theorem Keeps.refl (os : Os K T) : Keeps os os := ⟨Same.refl os, fun _ => rfl⟩

theorem Keeps.trans {os₁ os₂ os₃ : Os K T} (h : Keeps os₁ os₂) (h' : Keeps os₂ os₃) :
    Keeps os₁ os₃ :=
  ⟨h.toSame.trans h'.toSame, fun p => (h'.convs p).trans (h.convs p)⟩

theorem keeps_emit (os : Os K T) (o : Output) (h : o.serverCall = none) : Keeps os (os.emit o) :=
  ⟨⟨rfl, rfl, fun _ => rfl, fun _ => rfl, rfl, by simp [serverCalls, emit, h]⟩, fun _ => rfl⟩

theorem keeps_now (os : Os K T) (now : T) : Keeps os { os with now } :=
  ⟨⟨rfl, rfl, fun _ => rfl, fun _ => rfl, rfl, rfl⟩, fun _ => rfl⟩

theorem same_setKcp (os : Os K T) {p : ℕ} {k : Ikcpcb K} (h : os.kcps p = some k)
    (k' : Ikcpcb K) : Same os (os.setKcp p k') := by
  refine ⟨rfl, rfl, fun _ => rfl, fun q => ?_, rfl, rfl⟩
  rcases eq_or_ne q p with rfl | hne
  · simp [setKcp, h]
  · simp [setKcp, hne]

theorem keeps_setKcp (os : Os K T) {p : ℕ} {k k' : Ikcpcb K} (h : os.kcps p = some k)
    (hconv : k'.conv = k.conv) : Keeps os (os.setKcp p k') := by
  refine ⟨os.same_setKcp h k', fun q => ?_⟩
  rcases eq_or_ne q p with rfl | hne
  · simp [setKcp, h, hconv]
  · simp [setKcp, hne]

theorem keeps_evTimerAgain (os : Os K T) (p : ℕ) {again : ℕ} (h : again ≠ 0) :
    Keeps os (os.evTimerAgain p again) := by
  unfold evTimerAgain
  split
  · exact Keeps.refl os
  · rename_i t ht
    refine ⟨⟨rfl, rfl, fun q => ?_, fun _ => rfl, rfl, rfl⟩, fun _ => rfl⟩
    rcases eq_or_ne q p with rfl | hne
    · simp [h, ht]
    · simp [hne]

theorem send_cases (os : Os K T) (fd : ℕ) (buf : Bytes) (answer : Option ℕ) :
    os.send fd buf answer = (os, -1) ∨
      ∃ k, os.send fd buf answer =
        (os.emit (.sent fd (buf.take k)), ((buf.take k).length : ℤ)) := by
  unfold send
  split
  · rename_i k _
    exact Or.inr ⟨k, rfl⟩
  · exact Or.inl rfl

end Os

def sockSendCommand (os : Os K T) (sock : ℕ) (command : Command) (msg : Bytes)
    (a : SendAnswer) : Exec (Os K T × ℤ) := do
  let (buf, realSize) ← packSendBuf a.stack 65536 command.toByte msg
  if realSize = 0 then return (os, -1)
  let (os, ret) := os.send sock (load buf 0 realSize) a.send
  return (os, if ret = realSize then 0 else -1)

section Kcp
variable [KcpImpl K]

def ikcpSend (os : Os K T) (kcp : ℕ) (buf : Bytes) : Exec (Os K T × ℤ) :=
  match os.kcps kcp with
  | none => .error .useAfterFree
  | some k =>
    let (state, ret) := KcpImpl.send k.state buf
    .ok (os.setKcp kcp { k with state }, ret)

def kcpSendCommand (os : Os K T) (udp : KcpevUdp T) (command : Command) (msg : Bytes)
    (stack : ℕ → UInt8) : Exec (Os K T × ℤ) := do
  let (buf, realSize) ← packSendBuf stack 65536 command.toByte msg
  if realSize = 0 then return (os, -1)
  if udp.isKcpValid then
    match udp.kcp with
    | none => throw .nullPointer
    | some kcp => ikcpSend os kcp (load buf 0 realSize)
  else return (os, -1)

def kcpevSendCommand (os : Os K T) (b : KcpevBase T) (command : Command) (msg : Bytes)
    (a : SendAnswer) : Exec (Os K T × ℤ) := do
  let (buf, realSize) ← packSendBuf a.stack 65536 command.toByte msg
  if realSize = 0 then return (os, -1)
  if b.udp.isKcpValid then
    match b.udp.kcp with
    | none => throw .nullPointer
    | some kcp => ikcpSend os kcp (load buf 0 realSize)
  else
    let (os, ret) := os.send b.tcp.sock (load buf 0 realSize) a.send
    return (os, if ret = realSize then 0 else -1)

def kcpevSend (os : Os K T) (b : KcpevBase T) (msg : Bytes) (a : SendAnswer) :
    Exec (Os K T × ℤ) :=
  kcpevSendCommand os b .data msg a

end Kcp

def kcpevSendTcp (os : Os K T) (b : KcpevBase T) (msg : Bytes) (a : SendAnswer) :
    Exec (Os K T × ℤ) :=
  sockSendCommand os b.tcp.sock .data msg a

/-! What sending leaves as it is, and what it puts on a socket. -/

/-- What a returning `pack_send_buf` has produced. -/
theorem packSendBuf_cases {stack buf : ℕ → UInt8} {command : UInt8} {msg : Bytes} {n : ℕ}
    (h : packSendBuf stack 65536 command msg = .ok (buf, n)) :
    n = 0 ∨ (n = msg.length + 8 ∧ msg.length + 8 ≤ kcpevBufferSize ∧
      load buf 0 n = frameBytes command (load stack 5 3) msg) := by
  rcases Nat.eq_zero_or_pos n with h0 | hpos
  · exact Or.inl h0
  · have hfits := packSendBuf_ok h hpos
    obtain ⟨buf', hpack, hload⟩ := packSendBuf_fits stack command msg hfits
    rw [hpack] at h
    cases h
    exact Or.inr ⟨rfl, hfits, hload⟩

/-- A frame with the padding the stack buffer happens to hold. -/
def Frame (command : Command) (msg frame : Bytes) : Prop :=
  msg.length + 8 ≤ kcpevBufferSize ∧
    ∃ padding : Bytes, padding.length = 3 ∧ frame = frameBytes command.toByte padding msg

theorem frame_load {stack : ℕ → UInt8} {command : Command} {msg frame : Bytes}
    (hfits : msg.length + 8 ≤ kcpevBufferSize)
    (hframe : frame = frameBytes command.toByte (load stack 5 3) msg) : Frame command msg frame :=
  ⟨hfits, load stack 5 3, length_load .., hframe⟩

theorem Frame.length {command : Command} {msg frame : Bytes} (h : Frame command msg frame) :
    frame.length = msg.length + 8 := by
  obtain ⟨-, padding, hpad, rfl⟩ := h
  simp only [frameBytes, htobe32, List.length_append, List.length_cons, List.length_nil, hpad]
  omega

theorem Frame.isFrame {command : Command} {msg frame : Bytes} (h : Frame command msg frame) :
    header.IsFrame frame := by
  have hsize := kcpevBufferSize_eq
  have hlen := h.length
  obtain ⟨hfits, padding, -, rfl⟩ := h
  have hdeclared : header.size (frameBytes command.toByte padding msg) = msg.length + 8 := by
    change (be32toh _).toNat = _
    rw [frameBytes, List.append_assoc, be32toh_htobe32, realSize_toNat (by omega)]
  refine ⟨?_, ?_, ?_⟩
  · rw [header_len]
    omega
  · omega
  · rw [hdeclared, hlen]

/-- Nothing happens, or a part of the frame is put on the socket; the whole one
when the call succeeds. -/
theorem sockSendCommand_cases {os os' : Os K T} {sock : ℕ} {command : Command} {msg : Bytes}
    {a : SendAnswer} {ret : ℤ} (h : sockSendCommand os sock command msg a = .ok (os', ret)) :
    (os' = os ∧ ret = -1) ∨
      ∃ frame k, Frame command msg frame ∧ os' = os.emit (.sent sock (frame.take k)) ∧
        ret = if frame.length ≤ k then 0 else -1 := by
  obtain ⟨⟨buf, n⟩, hpack, h⟩ := bind_eq_ok.mp h
  rcases packSendBuf_cases hpack with rfl | ⟨rfl, hfits, hload⟩
  · cases h
    exact Or.inl ⟨rfl, rfl⟩
  · have hframe := frame_load hfits hload
    have hlen := hframe.length
    simp only [Nat.add_eq_zero_iff, OfNat.ofNat_ne_zero, and_false, if_false] at h
    rcases os.send_cases sock (load buf 0 (msg.length + 8)) a.send with hs | ⟨k, hs⟩
    · rw [hs] at h
      cases h
      exact Or.inl ⟨rfl, if_neg (by omega)⟩
    · rw [hs] at h
      cases h
      refine Or.inr ⟨_, k, hframe, rfl, ?_⟩
      simp only [List.length_take, hlen]
      congr 1
      apply propext
      constructor
      · intro hk
        have : min k (msg.length + 8) = msg.length + 8 := by exact_mod_cast hk
        omega
      · intro hk
        have : min k (msg.length + 8) = msg.length + 8 := by omega
        exact_mod_cast this

/-- What a call on an open socket does with a message that fits. -/
theorem sockSendCommand_open {os : Os K T} {sock : ℕ} {msg : Bytes}
    (hopen : (os.socks sock).isSome) (hfits : msg.length + 8 ≤ kcpevBufferSize)
    (command : Command) (a : SendAnswer) :
    sockSendCommand os sock command msg a =
      .ok (match a.send with
        | none => (os, -1)
        | some k =>
          (os.emit (.sent sock ((frameBytes command.toByte (load a.stack 5 3) msg).take k)),
            if msg.length + 8 ≤ k then 0 else -1)) := by
  obtain ⟨v, hv⟩ := Option.isSome_iff_exists.mp hopen
  obtain ⟨buf, hpack, hload⟩ := packSendBuf_fits a.stack command.toByte msg hfits
  have hlen : (frameBytes command.toByte (load a.stack 5 3) msg).length = msg.length + 8 := by
    rw [← hload, length_load]
  unfold sockSendCommand
  simp only [hpack, bind, Except.bind, Nat.add_eq_zero_iff, OfNat.ofNat_ne_zero, and_false,
    if_false, hload]
  rcases hsend : a.send with _ | k
  · have hs : os.send sock (frameBytes command.toByte (load a.stack 5 3) msg) none =
        (os, -1) := by
      simp [Os.send, hv]
    rw [hs]
    simp only [pure, Except.pure]
    rw [if_neg (by omega)]
  · have hs : os.send sock (frameBytes command.toByte (load a.stack 5 3) msg) (some k) =
        (os.emit (.sent sock ((frameBytes command.toByte (load a.stack 5 3) msg).take k)),
          ((min k (msg.length + 8) : ℕ) : ℤ)) := by
      simp [Os.send, hv, hlen]
    rw [hs]
    simp only [pure, Except.pure]
    by_cases hk : msg.length + 8 ≤ k
    · rw [if_pos (by omega), if_pos hk]
    · rw [if_neg (by omega), if_neg hk]

/-- On an open socket the answer of `send` decides. -/
theorem sockSendCommand_ret {os os' : Os K T} {sock : ℕ} {command : Command} {msg : Bytes}
    {a : SendAnswer} {ret : ℤ} (hopen : (os.socks sock).isSome)
    (hfits : msg.length + 8 ≤ kcpevBufferSize)
    (h : sockSendCommand os sock command msg a = .ok (os', ret)) :
    ret = 0 ↔ ∃ k, a.send = some k ∧ msg.length + 8 ≤ k := by
  rw [sockSendCommand_open hopen hfits] at h
  rcases hsend : a.send with _ | k
  · rw [hsend] at h
    cases h
    simp
  · rw [hsend] at h
    cases h
    by_cases hk : msg.length + 8 ≤ k <;> simp [hk]

theorem keeps_sockSendCommand {os os' : Os K T} {sock : ℕ} {command : Command} {msg : Bytes}
    {a : SendAnswer} {ret : ℤ} (h : sockSendCommand os sock command msg a = .ok (os', ret)) :
    os.Keeps os' := by
  rcases sockSendCommand_cases h with ⟨rfl, -⟩ | ⟨frame, k, -, rfl, -⟩
  · exact Os.Keeps.refl _
  · exact Os.keeps_emit _ _ rfl

section Kcp
variable [KcpImpl K]

theorem ikcpSend_cases {os os' : Os K T} {kcp : ℕ} {buf : Bytes} {ret : ℤ}
    (h : ikcpSend os kcp buf = .ok (os', ret)) :
    ∃ k, os.kcps kcp = some k ∧
      os' = os.setKcp kcp { k with state := (KcpImpl.send k.state buf).1 } ∧
      ret = (KcpImpl.send k.state buf).2 := by
  unfold ikcpSend at h
  split at h
  · cases h
  · rename_i k hk
    cases h
    exact ⟨k, hk, rfl, rfl⟩

theorem keeps_ikcpSend {os os' : Os K T} {kcp : ℕ} {buf : Bytes} {ret : ℤ}
    (h : ikcpSend os kcp buf = .ok (os', ret)) : os.Keeps os' ∧ os'.out = os.out := by
  obtain ⟨k, hk, rfl, -⟩ := ikcpSend_cases h
  exact ⟨os.keeps_setKcp hk rfl, rfl⟩

theorem keeps_kcpSendCommand {os os' : Os K T} {udp : KcpevUdp T} {command : Command}
    {msg : Bytes} {stack : ℕ → UInt8} {ret : ℤ}
    (h : kcpSendCommand os udp command msg stack = .ok (os', ret)) :
    os.Keeps os' ∧ os'.out = os.out := by
  obtain ⟨⟨buf, n⟩, -, h⟩ := bind_eq_ok.mp h
  by_cases hn : n = 0
  · subst hn
    cases h
    exact ⟨Os.Keeps.refl _, rfl⟩
  · simp only [hn, if_false] at h
    split at h
    · split at h
      · cases h
      · exact keeps_ikcpSend h
    · cases h
      exact ⟨Os.Keeps.refl _, rfl⟩

theorem kcpevSendCommand_tcp (os : Os K T) {b : KcpevBase T} (h : ¬ b.udp.isKcpValid)
    (command : Command) (msg : Bytes) (a : SendAnswer) :
    kcpevSendCommand os b command msg a = sockSendCommand os b.tcp.sock command msg a := by
  unfold kcpevSendCommand sockSendCommand
  simp only [h, if_false]

theorem kcpevSendCommand_kcp (os : Os K T) {b : KcpevBase T} (h : b.udp.isKcpValid)
    (command : Command) (msg : Bytes) (a : SendAnswer) :
    kcpevSendCommand os b command msg a = kcpSendCommand os b.udp command msg a.stack := by
  unfold kcpevSendCommand kcpSendCommand
  simp only [h, if_true]

/-- A command is given to KCP, or a part of its frame to the TCP socket. -/
theorem kcpevSendCommand_cases {os os' : Os K T} {b : KcpevBase T} {command : Command}
    {msg : Bytes} {a : SendAnswer} {ret : ℤ}
    (h : kcpevSendCommand os b command msg a = .ok (os', ret)) :
    os.Keeps os' ∧ (os'.out = os.out ∨ ∃ frame k, Frame command msg frame ∧
      os'.out = os.out ++ [.sent b.tcp.sock (frame.take k)]) := by
  obtain ⟨⟨buf, n⟩, hpack, h⟩ := bind_eq_ok.mp h
  by_cases hn : n = 0
  · subst hn
    cases h
    exact ⟨Os.Keeps.refl _, Or.inl rfl⟩
  · simp only [hn, if_false] at h
    split at h
    · split at h
      · cases h
      · exact (keeps_ikcpSend h).imp_right Or.inl
    · rcases packSendBuf_cases hpack with rfl | ⟨rfl, hfits, hload⟩
      · exact absurd rfl hn
      rcases os.send_cases b.tcp.sock (load buf 0 (msg.length + 8)) a.send with hs | ⟨k, hs⟩
      · rw [hs] at h
        cases h
        exact ⟨Os.Keeps.refl _, Or.inl rfl⟩
      · rw [hs] at h
        cases h
        exact ⟨Os.keeps_emit _ _ rfl, Or.inr ⟨_, k, frame_load hfits hload, rfl⟩⟩

end Kcp

end KcpEv
