import KcpEv.Basic
import KcpEv.Lib.Circular
import KcpEv.Lib.Framing

/-!
The frame header: a big-endian total size and a command byte, in a structure
whose size is padded to eight bytes. `header_to_net` writes five of them, so
three bytes of the sender's buffer stand between the command and the payload.
-/
namespace KcpEv

open Circular Framing

/-- `enum Command` -/
inductive Command
  | data | shakeHand1 | shakeHand2 | heartbeat1 | heartbeat2 | udpInvalid
  deriving DecidableEq, Repr

namespace Command

def toByte : Command → UInt8
  | data => 1
  | shakeHand1 => 2
  | shakeHand2 => 3
  | heartbeat1 => 4
  | heartbeat2 => 5
  | udpInvalid => 6

/-- The cases of a `switch` over a command byte. -/
def ofByte (b : UInt8) : Option Command :=
  if b = 1 then some data
  else if b = 2 then some shakeHand1
  else if b = 3 then some shakeHand2
  else if b = 4 then some heartbeat1
  else if b = 5 then some heartbeat2
  else if b = 6 then some udpInvalid
  else none

theorem ofByte_toByte (c : Command) : ofByte c.toByte = some c := by
  cases c <;> rfl

theorem ofByte_eq_some_iff (b : UInt8) (c : Command) : ofByte b = some c ↔ b = c.toByte := by
  constructor
  · intro h
    unfold ofByte at h
    repeat' split at h
    all_goals cases h
    all_goals assumption
  · rintro rfl
    exact ofByte_toByte c

end Command

structure KcpevHeader where
  size : UInt32
  command : UInt8
  deriving DecidableEq, Repr

/-- `sizeof(KcpevHeader)`, three bytes of padding included. -/
def headerSize : ℕ := 8

theorem headerSize_eq : headerSize = 8 := rfl

/-- The four bytes of `htobe32(x)` in memory. -/
def htobe32 (x : UInt32) : Bytes :=
  [UInt8.ofNat (x.toNat / 2 ^ 24), UInt8.ofNat (x.toNat / 2 ^ 16),
    UInt8.ofNat (x.toNat / 2 ^ 8), UInt8.ofNat x.toNat]

/-- `be32toh` of the word at the front of a buffer. -/
def be32toh (buf : Bytes) : UInt32 :=
  UInt32.ofNat ((buf.take 4).foldl (fun acc b => acc * 256 + b.toNat) 0)

theorem be32toh_htobe32 (x : UInt32) (rest : Bytes) : be32toh (htobe32 x ++ rest) = x := by
  have hx := x.toNat_lt
  apply UInt32.toNat_inj.mp
  simp only [be32toh, htobe32, List.cons_append, List.nil_append, List.take_succ_cons,
    List.take_zero, List.foldl_cons, List.foldl_nil, UInt8.toNat_ofNat', UInt32.toNat_ofNat']
  omega

theorem be32toh_append (a b : Bytes) (h : 4 ≤ a.length) : be32toh (a ++ b) = be32toh a := by
  unfold be32toh
  rw [List.take_append_of_le_length h]

def headerToNet (header : KcpevHeader) (buf : ℕ → UInt8) (len : ℕ) : Option (ℕ → UInt8) :=
  if len < headerSize then none
  else some (store (store buf 0 (htobe32 header.size)) 4 [header.command])

theorem headerToNet_eq (header : KcpevHeader) (buf : ℕ → UInt8) {len : ℕ}
    (h : headerSize ≤ len) :
    headerToNet header buf len =
      some (store (store buf 0 (htobe32 header.size)) 4 [header.command]) := by
  simp [headerToNet, Nat.not_lt.mpr h]

def headerFromNet (buf : Bytes) (len : ℕ) : Option KcpevHeader :=
  if len < headerSize then none
  else some { size := be32toh buf, command := (buf[4]?).getD 0 }

theorem headerFromNet_eq (buf : Bytes) {len : ℕ} (h : headerSize ≤ len) :
    headerFromNet buf len = some { size := be32toh buf, command := (buf[4]?).getD 0 } := by
  simp [headerFromNet, Nat.not_lt.mpr h]

/-- `real_size`, which is computed in 64 bits and stored in 32. -/
def realSize (len : ℕ) : UInt32 := UInt32.ofNat (len + headerSize)

def packSendBuf (buf : ℕ → UInt8) (bufSize : UInt32) (command : UInt8) (msg : Bytes) :
    Exec ((ℕ → UInt8) × ℕ) :=
  if bufSize < realSize msg.length then .ok (buf, 0)
  else
    match headerToNet { size := realSize msg.length, command } buf bufSize.toNat with
    | none => .ok (buf, 0)
    | some buf' =>
      if headerSize + msg.length ≤ bufSize.toNat then
        .ok (store buf' headerSize msg, (realSize msg.length).toNat)
      else .error .outOfBounds

/-- The header format, as seen by the receivers. -/
def header : Header UInt8 where
  len := headerSize
  size buf := (be32toh buf).toNat
  size_append a b h := by
    have : headerSize = 8 := rfl
    rw [be32toh_append a b (by omega)]

theorem header_len : header.len = 8 := rfl

/-- The bytes of a frame: size, command, three bytes of the buffer, payload. -/
def frameBytes (command : UInt8) (padding msg : Bytes) : Bytes :=
  htobe32 (realSize msg.length) ++ command :: padding ++ msg

theorem realSize_toNat {len : ℕ} (h : len + 8 < 2 ^ 32) : (realSize len).toNat = len + 8 := by
  simp only [realSize, headerSize, UInt32.toNat_ofNat']
  omega

theorem packSendBuf_fits (buf : ℕ → UInt8) (command : UInt8) (msg : Bytes)
    (h : msg.length + 8 ≤ kcpevBufferSize) :
    ∃ buf', packSendBuf buf 65536 command msg = .ok (buf', msg.length + 8) ∧
      load buf' 0 (msg.length + 8) = frameBytes command (load buf 5 3) msg := by
  have hsize := kcpevBufferSize_eq
  have hreal : (realSize msg.length).toNat = msg.length + 8 := realSize_toNat (by omega)
  have hfits : ¬ (65536 : UInt32) < realSize msg.length := by
    rw [UInt32.lt_iff_toNat_lt, hreal]
    simp only [UInt32.reduceToNat]
    omega
  refine ⟨store (store (store buf 0 (htobe32 (realSize msg.length))) 4 [command]) 8 msg, ?_, ?_⟩
  · unfold packSendBuf
    rw [if_neg hfits, headerToNet_eq _ _ (show headerSize ≤ (65536 : UInt32).toNat by decide)]
    have hroom : headerSize + msg.length ≤ (65536 : UInt32).toNat := by
      rw [headerSize_eq]
      change 8 + msg.length ≤ 65536
      omega
    simp only [hroom, if_true, hreal]
    rfl
  · have hhead : load (store (store (store buf 0 (htobe32 (realSize msg.length))) 4 [command])
        8 msg) 0 8 = htobe32 (realSize msg.length) ++ command :: load buf 5 3 := by
      rw [load_store_outside _ _ _ _ _ (Or.inl (by omega))]
      rfl
    rw [Nat.add_comm msg.length 8, load_add, Nat.zero_add, load_store_same, hhead]
    rfl

/-- Frames as they leave `pack_send_buf` with a buffer of `KCPEV_BUFFER_SIZE`. -/
def Packed (f : Bytes) : Prop :=
  ∃ (buf buf' : ℕ → UInt8) (command : UInt8) (msg : Bytes) (n : ℕ),
    packSendBuf buf 65536 command msg = .ok (buf', n) ∧ 0 < n ∧ f = load buf' 0 n

/-- A returned size is never reduced modulo the word. -/
theorem packSendBuf_ok {buf buf' : ℕ → UInt8} {command : UInt8} {msg : Bytes} {n : ℕ}
    (h : packSendBuf buf 65536 command msg = .ok (buf', n)) (hn : 0 < n) :
    msg.length + 8 ≤ kcpevBufferSize := by
  have hsize := kcpevBufferSize_eq
  unfold packSendBuf at h
  split at h
  · cases h
    omega
  · split at h
    · cases h
      omega
    · split at h
      · rename_i hfit
        have hfit' : 8 + msg.length ≤ 65536 := hfit
        omega
      · cases h

/-- A packed frame declares its own length, which fits the buffer. -/
theorem Packed.isFrame {f : Bytes} (h : Packed f) :
    header.IsFrame f ∧ 8 ≤ f.length ∧ f.length ≤ kcpevBufferSize := by
  obtain ⟨buf, buf', command, msg, n, hpack, hn, rfl⟩ := h
  have hsize := kcpevBufferSize_eq
  have hfits := packSendBuf_ok hpack hn
  obtain ⟨buf'', hpack', hload⟩ := packSendBuf_fits buf command msg hfits
  rw [hpack] at hpack'
  cases hpack'
  have hdeclared : header.size (frameBytes command (load buf 5 3) msg) = msg.length + 8 := by
    change (be32toh _).toNat = _
    rw [frameBytes, List.append_assoc, be32toh_htobe32, realSize_toNat (by omega)]
  refine ⟨⟨?_, ?_, ?_⟩, ?_, ?_⟩
  · rw [header_len, length_load]
    omega
  · rw [length_load]
    omega
  · rw [length_load, hload, hdeclared]
  · rw [length_load]
    omega
  · rw [length_load]
    exact hfits

end KcpEv
