import KcpEv.Process

/-!
The encoder over the whole range of lengths. The size of a frame is computed in
64 bits and compared in 32: a length just below a multiple of `2 ^ 32` passes
the check, and the payload is then copied past the end of the buffer.
-/
namespace KcpEv

open Circular

variable {K T : Type}

/-- The size of the frame passes the check only because it was cut to 32 bits. -/
def Wraps (bufSize : UInt32) (len : ℕ) : Prop :=
  2 ^ 32 ≤ len + headerSize ∧ (len + headerSize) % 2 ^ 32 ≤ bufSize.toNat ∧
    headerSize ≤ bufSize.toNat

/-- What `pack_send_buf` is for: a frame when the sum of the two sizes is at
most the size of the buffer, and nothing otherwise. -/
def PackExact (buf : ℕ → UInt8) (bufSize : UInt32) (command : UInt8) (msg : Bytes) : Prop :=
  if msg.length + headerSize ≤ bufSize.toNat then
    ∃ buf' h, packSendBuf buf bufSize command msg = .ok (buf', msg.length + headerSize) ∧
      (∀ j, msg.length + headerSize ≤ j → buf' j = buf j) ∧
      headerFromNet (load buf' 0 (msg.length + headerSize)) (msg.length + headerSize) = some h ∧
      h.size.toNat = msg.length + headerSize ∧ h.command = command ∧
      load buf' headerSize msg.length = msg
  else packSendBuf buf bufSize command msg = .ok (buf, 0)

/-- A message that has no room in the buffer of a sending function is refused,
and nothing is sent. -/
def SendersRefuse [KcpImpl K] (os : Os K T) (b : KcpevBase T) (command : Command) (msg : Bytes)
    (a : SendAnswer) : Prop :=
  kcpevBufferSize < msg.length + headerSize →
    (∃ ret, kcpevSend os b msg a = .ok (os, ret) ∧ ret < 0) ∧
    (∃ ret, kcpevSendTcp os b msg a = .ok (os, ret) ∧ ret < 0) ∧
    (∃ ret, kcpSendCommand os b.udp command msg a.stack = .ok (os, ret) ∧ ret < 0)

theorem length_htobe32 (x : UInt32) : (htobe32 x).length = 4 := rfl

theorem realSize_toNat_mod (len : ℕ) : (realSize len).toNat = (len + headerSize) % 2 ^ 32 := by
  rw [realSize, UInt32.toNat_ofNat']

theorem not_wraps {bufSize : UInt32} {len : ℕ} (h : len + headerSize ≤ bufSize.toNat) :
    ¬ Wraps bufSize len := by
  have hword := bufSize.toNat_lt
  rintro ⟨hlow, -, -⟩
  omega

/-- The frame that is written when the size is what it should be. -/
theorem packSendBuf_eq (buf : ℕ → UInt8) {bufSize : UInt32} (command : UInt8) {msg : Bytes}
    (h : msg.length + headerSize ≤ bufSize.toNat) :
    packSendBuf buf bufSize command msg =
      .ok (store (store (store buf 0 (htobe32 (realSize msg.length))) 4 [command]) headerSize msg,
        msg.length + headerSize) := by
  have hword := bufSize.toNat_lt
  have hreal : (realSize msg.length).toNat = msg.length + headerSize := by
    rw [realSize_toNat_mod, Nat.mod_eq_of_lt (by omega)]
  have hfits : ¬ bufSize < realSize msg.length := by
    rw [UInt32.lt_iff_toNat_lt, hreal]
    omega
  unfold packSendBuf
  rw [if_neg hfits, headerToNet_eq _ _ (show headerSize ≤ bufSize.toNat by omega)]
  simp only [hreal]
  rw [if_pos (by omega)]

/-- A size that is not cut is refused without a write. -/
theorem packSendBuf_zero (buf : ℕ → UInt8) {bufSize : UInt32} (command : UInt8) {msg : Bytes}
    (hlarge : bufSize.toNat < msg.length + headerSize) (h : ¬ Wraps bufSize msg.length) :
    packSendBuf buf bufSize command msg = .ok (buf, 0) := by
  unfold packSendBuf
  by_cases hcheck : bufSize < realSize msg.length
  · rw [if_pos hcheck]
  · rw [if_neg hcheck]
    have hle : (msg.length + headerSize) % 2 ^ 32 ≤ bufSize.toNat := by
      rw [UInt32.lt_iff_toNat_lt, realSize_toNat_mod] at hcheck
      omega
    have hsmall : bufSize.toNat < headerSize := by
      by_contra hroom
      apply h
      refine ⟨?_, hle, by omega⟩
      by_contra hword
      rw [Nat.mod_eq_of_lt (by omega)] at hle
      omega
    simp only [headerToNet, if_pos hsmall]

/-- A size that was cut lets `memcpy` run over the end of the buffer. -/
theorem packSendBuf_overflows (buf : ℕ → UInt8) {bufSize : UInt32} (command : UInt8)
    {msg : Bytes} (h : Wraps bufSize msg.length) :
    packSendBuf buf bufSize command msg = .error .outOfBounds := by
  obtain ⟨hlow, hcheck, hheader⟩ := h
  have hword := bufSize.toNat_lt
  have hpasses : ¬ bufSize < realSize msg.length := by
    rw [UInt32.lt_iff_toNat_lt, realSize_toNat_mod]
    omega
  unfold packSendBuf
  rw [if_neg hpasses, headerToNet_eq _ _ hheader]
  simp only
  rw [if_neg (by omega)]

theorem packExact_fits (buf : ℕ → UInt8) {bufSize : UInt32} (command : UInt8) {msg : Bytes}
    (h : msg.length + headerSize ≤ bufSize.toNat) : PackExact buf bufSize command msg := by
  have hword := bufSize.toNat_lt
  have hheader := headerSize_eq
  unfold PackExact
  rw [if_pos h]
  refine ⟨_, _, packSendBuf_eq buf command h, ?_, headerFromNet_eq _ (Nat.le_add_left _ _), ?_, ?_,
    load_store_same _ _ _⟩
  · intro j hj
    rw [store_outside _ _ _ _ (Or.inr (by omega)),
      store_outside _ _ _ _ (Or.inr (by simp only [List.length_singleton]; omega)),
      store_outside _ _ _ _ (Or.inr (by rw [length_htobe32]; omega))]
  · change (be32toh _).toNat = _
    have hhead : ∀ m : ℕ → UInt8, load m 0 (msg.length + headerSize) =
        load m 0 4 ++ load m 4 (msg.length + 4) := by
      intro m
      rw [headerSize_eq, show msg.length + 8 = 4 + (msg.length + 4) by omega, load_add,
        Nat.zero_add]
    rw [hhead, load_store_outside _ _ _ _ _ (Or.inl (by omega)),
      load_store_outside _ _ _ _ _ (Or.inl (by omega)),
      show (4 : ℕ) = (htobe32 (realSize msg.length)).length from rfl, load_store_same,
      be32toh_htobe32, realSize_toNat_mod, Nat.mod_eq_of_lt (by omega)]
  · change (_ : Option UInt8).getD 0 = command
    rw [load, List.getElem?_map, List.getElem?_range (by omega)]
    simp only [Option.map_some, Option.getD_some, Nat.zero_add]
    rw [store_outside _ _ _ _ (Or.inl (by omega))]
    rfl

theorem packExact_iff (buf : ℕ → UInt8) (bufSize : UInt32) (command : UInt8) (msg : Bytes) :
    PackExact buf bufSize command msg ↔ ¬ Wraps bufSize msg.length := by
  by_cases hfits : msg.length + headerSize ≤ bufSize.toNat
  · exact iff_of_true (packExact_fits buf command hfits) (not_wraps hfits)
  · unfold PackExact
    rw [if_neg hfits]
    constructor
    · intro h hwraps
      rw [packSendBuf_overflows buf command hwraps] at h
      cases h
    · exact packSendBuf_zero buf command (by omega)

section Senders
variable [KcpImpl K]

theorem sendersRefuse (os : Os K T) (b : KcpevBase T) (command : Command) {msg : Bytes}
    (a : SendAnswer) (h : ¬ Wraps 65536 msg.length) : SendersRefuse os b command msg a := by
  intro hlarge
  have hpack : ∀ c : Command, packSendBuf a.stack 65536 c.toByte msg = .ok (a.stack, 0) :=
    fun c => packSendBuf_zero a.stack c.toByte hlarge h
  refine ⟨⟨-1, ?_, by omega⟩, ⟨-1, ?_, by omega⟩, ⟨-1, ?_, by omega⟩⟩
  · unfold kcpevSend kcpevSendCommand
    rw [hpack]
    rfl
  · unfold kcpevSendTcp sockSendCommand
    rw [hpack]
    rfl
  · unfold kcpSendCommand
    rw [hpack]
    rfl

theorem not_sendersRefuse (os : Os K T) (b : KcpevBase T) (command : Command) {msg : Bytes}
    (a : SendAnswer) (h : Wraps 65536 msg.length) : ¬ SendersRefuse os b command msg a := by
  intro hrefuse
  have hlarge : kcpevBufferSize < msg.length + headerSize := by
    have hsize := kcpevBufferSize_eq
    have hlow := h.1
    omega
  obtain ⟨-, ⟨ret, hsend, -⟩, -⟩ := hrefuse hlarge
  unfold kcpevSendTcp sockSendCommand at hsend
  rw [packSendBuf_overflows a.stack _ h] at hsend
  cases hsend

/-- The encoder is exact, and the senders refuse what does not fit, except for
the lengths whose sum with the header is cut to one that fits. -/
theorem encoder_exact_iff (os : Os K T) (b : KcpevBase T) (a : SendAnswer) (buf : ℕ → UInt8)
    (bufSize : UInt32) (command : UInt8) (cmd : Command) (msg : Bytes) :
    (PackExact buf bufSize command msg ↔ ¬ Wraps bufSize msg.length) ∧
      (SendersRefuse os b cmd msg a ↔ ¬ Wraps 65536 msg.length) := by
  refine ⟨packExact_iff buf bufSize command msg, ?_, sendersRefuse os b cmd a⟩
  intro hrefuse hwraps
  exact not_sendersRefuse os b cmd a hwraps hrefuse

/-- `2 ^ 32` bytes are packed as if they were none. -/
theorem four_gigabytes_overflow :
    ¬ PackExact (fun _ => 0) 65536 1 (List.replicate (2 ^ 32) 0) ∧
      ¬ SendersRefuse (K := Unit) (Process.init 0).world.os KcpevBase.zero .data
        (List.replicate (2 ^ 32) 0) .whole := by
  have hlength : (List.replicate (2 ^ 32) (0 : UInt8)).length = 2 ^ 32 := List.length_replicate
  generalize List.replicate (2 ^ 32) (0 : UInt8) = msg at hlength ⊢
  have hwraps : Wraps 65536 msg.length := by
    rw [hlength]
    refine ⟨?_, ?_, ?_⟩ <;> decide
  constructor
  · intro hexact
    exact (packExact_iff _ _ _ _).mp hexact hwraps
  · exact not_sendersRefuse _ _ _ _ hwraps

end Senders

end KcpEv
