import KcpEv.Send

/-!
Two runs of a sender that differ in what its stack buffer held before. Each of the
three senders packs the message and hands the packed bytes to `send` or `ikcp_send`.
`header_to_net` writes five of the eight bytes of the header, so the three bytes
between the command and the message come from the stack.
-/
namespace KcpEv

open Circular

/-- A sender and whom it sends for. -/
inductive Sender (T : Type)
  | sockSendCommand (sock : ℕ)
  | kcpSendCommand (udp : KcpevUdp T)
  | kcpevSendCommand (b : KcpevBase T)

/-- The bytes of the stack buffer that `pack_send_buf` has filled. -/
def packed (stack : ℕ → UInt8) (command : Command) (msg : Bytes) : Exec Bytes := do
  let (buf, realSize) ← packSendBuf stack 65536 command.toByte msg
  return load buf 0 realSize

namespace Sender

variable {K T : Type} [KcpImpl K]

def run (os : Os K T) (command : Command) (msg : Bytes) (a : SendAnswer) :
    Sender T → Exec (Os K T × ℤ)
  | sockSendCommand sock => KcpEv.sockSendCommand os sock command msg a
  | kcpSendCommand udp => KcpEv.kcpSendCommand os udp command msg a.stack
  | kcpevSendCommand b => KcpEv.kcpevSendCommand os b command msg a

/-- What a sender does with the bytes it hands over: the call of `send` or of
`ikcp_send`, and the returned value. -/
def handOver (os : Os K T) (bytes : Bytes) (send : Option ℕ) : Sender T → Exec (Os K T × ℤ)
  | sockSendCommand sock =>
    match os.send sock bytes send with
    | (os, ret) => .ok (os, if ret = bytes.length then 0 else -1)
  | kcpSendCommand udp =>
    if udp.isKcpValid then
      match udp.kcp with
      | none => .error .nullPointer
      | some kcp => ikcpSend os kcp bytes
    else .ok (os, -1)
  | kcpevSendCommand b =>
    if b.udp.isKcpValid then
      match b.udp.kcp with
      | none => .error .nullPointer
      | some kcp => ikcpSend os kcp bytes
    else
      match os.send b.tcp.sock bytes send with
      | (os, ret) => .ok (os, if ret = bytes.length then 0 else -1)

/-- A sender depends on its stack buffer by the packed bytes alone. -/
theorem run_eq (os : Os K T) (command : Command) (msg : Bytes) (a : SendAnswer) (s : Sender T) :
    s.run os command msg a = (packed a.stack command msg).bind fun bytes =>
      if bytes = [] then .ok (os, -1) else s.handOver os bytes a.send := by
  have hempty : ∀ (buf : ℕ → UInt8) n, load buf 0 n = [] ↔ n = 0 := by
    intro buf n
    rw [← List.length_eq_zero_iff, length_load]
  rcases hpack : packSendBuf a.stack 65536 command.toByte msg with e | ⟨buf, n⟩
  · cases s <;> simp [run, packed, KcpEv.sockSendCommand, KcpEv.kcpSendCommand,
      KcpEv.kcpevSendCommand, hpack, bind, Except.bind]
  · by_cases hn : n = 0
    · cases s <;> simp [run, packed, KcpEv.sockSendCommand, KcpEv.kcpSendCommand,
        KcpEv.kcpevSendCommand, hpack, hn, bind, Except.bind, pure, Except.pure]
    · cases s with
      | sockSendCommand sock =>
        simp [run, packed, KcpEv.sockSendCommand, handOver, hpack, hn, hempty, bind, Except.bind,
          pure, Except.pure]
      | kcpSendCommand udp =>
        simp [run, packed, KcpEv.kcpSendCommand, handOver, hpack, hn, hempty, bind, Except.bind,
          pure, Except.pure]
        rfl
      | kcpevSendCommand b =>
        simp [run, packed, KcpEv.kcpevSendCommand, handOver, hpack, hn, hempty, bind, Except.bind,
          pure, Except.pure]
        rfl

end Sender

theorem packed_fits (stack : ℕ → UInt8) (command : Command) {msg : Bytes}
    (h : msg.length + 8 ≤ kcpevBufferSize) :
    packed stack command msg = .ok (frameBytes command.toByte (load stack 5 3) msg) := by
  obtain ⟨buf, hpack, hload⟩ := packSendBuf_fits stack command.toByte msg h
  simp only [packed, hpack, bind, Except.bind, pure, Except.pure, hload]

/-- Two buffers give the same bytes for the wire exactly when they hold the same
three bytes behind the command. The wire gets these bytes as they are. -/
theorem wire_eq_iff (command : Command) {msg : Bytes} (h : msg.length + 8 ≤ kcpevBufferSize)
    (stack₁ stack₂ : ℕ → UInt8) :
    (packed stack₁ command msg = packed stack₂ command msg ↔
      stack₁ 5 = stack₂ 5 ∧ stack₁ 6 = stack₂ 6 ∧ stack₁ 7 = stack₂ 7) ∧
    ∀ {K T : Type} [KcpImpl K] (s : Sender T) (os : Os K T) (send : Option ℕ),
      s.run os command msg { stack := stack₁, send } =
        (packed stack₁ command msg).bind fun bytes => s.handOver os bytes send := by
  constructor
  · rw [packed_fits stack₁ command h, packed_fits stack₂ command h]
    simp [frameBytes, load, List.range_succ]
  · intro K T _ s os send
    rw [s.run_eq os command msg _, packed_fits stack₁ command h]
    simp [Except.bind, frameBytes, htobe32]

/-- A stack buffer that holds one byte everywhere but behind the command. -/
def paddedStack (x : UInt8) (j : ℕ) : UInt8 := if 5 ≤ j ∧ j ≤ 7 then 9 else x

/-- Two such buffers give the same bytes, and `send` gets these. -/
theorem wire_eq_iff_padded :
    (∀ j, j < 5 ∨ 7 < j → paddedStack 0 j ≠ paddedStack 255 j) ∧
      packed (paddedStack 0) .data [1, 2, 3] = packed (paddedStack 255) .data [1, 2, 3] ∧
      ∀ os : Os Unit ℕ, sockSendCommand os 5 .data [1, 2, 3] ⟨paddedStack 0, some 11⟩ =
        sockSendCommand os 5 .data [1, 2, 3] ⟨paddedStack 255, some 11⟩ := by
  have hfits : ([1, 2, 3] : Bytes).length + 8 ≤ kcpevBufferSize := by decide
  have hsame : packed (paddedStack 0) .data [1, 2, 3] = packed (paddedStack 255) .data [1, 2, 3] :=
    (wire_eq_iff .data hfits _ _).1.mpr ⟨rfl, rfl, rfl⟩
  refine ⟨fun j hj => ?_, hsame, fun os => ?_⟩
  · have hnot : ¬ (5 ≤ j ∧ j ≤ 7) := by omega
    rw [paddedStack, paddedStack, if_neg hnot, if_neg hnot]
    decide
  · have hzero := (wire_eq_iff .data hfits (paddedStack 0) (paddedStack 255)).2
      (.sockSendCommand 5) os (some 11)
    have hones := (wire_eq_iff .data hfits (paddedStack 255) (paddedStack 0)).2
      (.sockSendCommand 5) os (some 11)
    rw [hsame] at hzero
    exact hzero.trans hones.symm

/-- The header of an empty message ends with what the stack held. -/
theorem padding_on_wire : ∃ os : Os Unit ℕ,
    sockSendCommand os 5 .data [] { stack := fun _ => 0, send := some 8 } =
        .ok (os.emit (.sent 5 [0, 0, 0, 8, 1, 0, 0, 0]), 0) ∧
      sockSendCommand os 5 .data [] { stack := fun _ => 255, send := some 8 } =
        .ok (os.emit (.sent 5 [0, 0, 0, 8, 1, 255, 255, 255]), 0) := by
  refine ⟨{ socks := fun _ => some ⟨none⟩, ios := fun _ => none, timers := fun _ => none
            kcps := fun _ => none, next := 1, now := 0, out := [] }, ?_, ?_⟩
  · rw [sockSendCommand_open rfl (by decide)]
    rfl
  · rw [sockSendCommand_open rfl (by decide)]
    rfl

end KcpEv
