import KcpEv.IkcpFlush
import KcpEv.Process

/-!
Frames and datagrams on one UDP socket. The first four bytes of a frame are its
size, the most significant first; those of a datagram are a conversation number,
the least significant first. A number of one byte is never a size, and the other
way round: the size of the largest frame reads as 256.
-/
namespace KcpEv

open Circular

variable {K T : Type}

/-- A datagram that starts with this conversation number. -/
def Leads (conv : UInt32) (d : Bytes) : Prop := encode32u conv <+: d

theorem KcpevKey.conv_lt (key : KcpevKey) : key.conv < 256 := UInt8.toNat_lt _

/-! A frame is not a datagram. -/

/-- The size of a frame, read as a conversation number. -/
theorem decode32u_size (x : UInt32) (rest : Bytes) (hlow : 0 < x.toNat)
    (hhigh : x.toNat ≤ kcpevBufferSize) : 256 ≤ (decode32u (htobe32 x ++ rest) 0).toNat := by
  have hsize := kcpevBufferSize_eq
  simp only [decode32u, leNat, htobe32, List.drop_zero, List.cons_append, List.nil_append,
    List.take_succ_cons, List.take_zero, List.foldr_cons, List.foldr_nil, UInt8.toNat_ofNat',
    UInt32.toNat_ofNat']
  have hbytes : x.toNat = x.toNat / 2 ^ 16 % 256 * 2 ^ 16 + x.toNat / 2 ^ 8 % 256 * 2 ^ 8 +
      x.toNat % 256 := by omega
  have htop : x.toNat / 2 ^ 24 = 0 := Nat.div_eq_of_lt (by omega)
  have h₁ := Nat.mod_lt (x.toNat / 2 ^ 16) (show 0 < 256 by omega)
  have h₂ := Nat.mod_lt (x.toNat / 2 ^ 8) (show 0 < 256 by omega)
  have h₃ := Nat.mod_lt x.toNat (show 0 < 256 by omega)
  change 256 ≤ (x.toNat / 2 ^ 24 % 256 + 256 * (x.toNat / 2 ^ 16 % 256 +
    256 * (x.toNat / 2 ^ 8 % 256 + 256 * (x.toNat % 256 + 256 * 0)))) % 2 ^ 32
  rw [htop]
  generalize x.toNat / 2 ^ 16 % 256 = b₁ at *
  generalize x.toNat / 2 ^ 8 % 256 = b₂ at *
  generalize x.toNat % 256 = b₃ at *
  omega

theorem Packed.decode32u_ge {frame : Bytes} (h : Packed frame) :
    256 ≤ (decode32u frame 0).toNat := by
  obtain ⟨buf, buf', command, msg, n, hpack, hn, rfl⟩ := h
  have hsize := kcpevBufferSize_eq
  have hfits := packSendBuf_ok hpack hn
  obtain ⟨buf'', hpack', hload⟩ := packSendBuf_fits buf command msg hfits
  rw [hpack] at hpack'
  cases hpack'
  have hreal : (realSize msg.length).toNat = msg.length + 8 := realSize_toNat (by omega)
  rw [hload, frameBytes, List.append_assoc]
  apply decode32u_size
  · omega
  · omega

/-- `ikcp_input` rejects a frame before it changes anything. -/
theorem Packed.input_eq {frame : Bytes} (h : Packed frame) {conv : ℕ} (hconv : conv < 256)
    (k : Ikcp) : k.input conv frame = (k, -1) := by
  unfold Ikcp.input
  by_cases hshort : frame.length < 24
  · rw [if_pos hshort]
  · rw [if_neg hshort]
    have hnum : decode32u frame 0 ≠ UInt32.ofNat conv := by
      intro heq
      have hlarge := h.decode32u_ge
      rw [heq, UInt32.toNat_ofNat'] at hlarge
      omega
    rw [Ikcp.inputLoop]
    simp only [ikcpOverhead, hshort, dite_false, hnum, ne_eq, not_false_eq_true, if_true]
    rfl

/-! A datagram is not a frame. -/

theorem be32toh_leads {conv : ℕ} (hconv : conv < 256) {d : Bytes}
    (h : Leads (UInt32.ofNat conv) d) : (be32toh d).toNat = conv * 2 ^ 24 := by
  obtain ⟨rest, rfl⟩ := h
  have hnum : (UInt32.ofNat conv).toNat = conv := by
    rw [UInt32.toNat_ofNat', Nat.mod_eq_of_lt (by omega)]
  have h₁ : conv / 2 ^ 8 = 0 := Nat.div_eq_of_lt (by omega)
  have h₂ : conv / 2 ^ 16 = 0 := Nat.div_eq_of_lt (by omega)
  have h₃ : conv / 2 ^ 24 = 0 := Nat.div_eq_of_lt (by omega)
  simp only [be32toh, encode32u, hnum, h₁, h₂, h₃, List.cons_append, List.nil_append,
    List.take_succ_cons, List.take_zero, List.foldl_cons, List.foldl_nil, UInt8.toNat_ofNat',
    UInt32.toNat_ofNat']
  omega

/-- The dispatchers find no frame in a datagram. -/
theorem parseFrame_leads {conv : ℕ} (hconv : conv < 256) {d : Bytes}
    (h : Leads (UInt32.ofNat conv) d) (hlen : d.length ≤ kcpevBufferSize) :
    parseFrame d = none := by
  have hsize := kcpevBufferSize_eq
  unfold parseFrame
  by_cases hshort : d.length < headerSize
  · rw [if_pos hshort]
  · have hbe := be32toh_leads hconv h
    have hheader := headerSize_eq
    rw [if_neg hshort, headerFromNet_eq d (by omega)]
    simp only
    rw [if_pos]
    omega

theorem onClientRecv_rejects [KcpImpl K] {w : World K T} {c : ℕ} {client : Kcpev T} {d : Bytes}
    (a : RecvAnswer) (hobj : w.objs c = some client) (h : parseFrame d = none) :
    onClientRecv w c d a = .ok (w, -1) := by
  unfold onClientRecv
  rw [World.kcpev_ok.mpr hobj, h]
  rfl

theorem onServerRecv_rejects [KcpImpl K] [ClockImpl T] (w : World K T) (client : Option ℕ)
    {d : Bytes} (addr : Addr) (a : RecvAnswer) (h : parseFrame d = none) :
    onServerRecv w client d addr a = .ok (w, -1) := by
  unfold onServerRecv
  rw [h]

/-! What a flush hands to the output callback. -/

namespace Ikcp

/-- A number of one byte. -/
def Byte (conv : UInt32) : Prop := ∃ n, n < 256 ∧ conv = UInt32.ofNat n

/-- Everything written so far are datagrams with numbers of one byte. -/
structure Flushed.Tagged (f : Flushed) : Prop where
  buffer : f.buffer = [] ∨ ∃ conv, Byte conv ∧ Leads conv f.buffer
  out : ∀ d ∈ f.out, ∃ conv, Byte conv ∧ Leads conv d

theorem leads_encode (seg : IkcpSeg) : Leads seg.conv seg.encode := by
  unfold IkcpSeg.encode IkcpSeg.encodeHeader
  simp only [List.append_assoc]
  exact List.prefix_append _ _

theorem Flushed.Tagged.output {f : Flushed} (h : f.Tagged) : f.output.Tagged := by
  refine ⟨Or.inl rfl, ?_⟩
  unfold Flushed.output
  intro d hd
  by_cases hempty : f.buffer = []
  · simp only [hempty, if_true] at hd
    exact h.out d hd
  · simp only [hempty, if_false] at hd
    rcases List.mem_append.mp hd with hd | hd
    · exact h.out d hd
    · rw [List.mem_singleton.mp hd]
      exact h.buffer.resolve_left hempty

theorem Flushed.Tagged.put {f : Flushed} (h : f.Tagged) {seg : IkcpSeg} (hseg : Byte seg.conv) :
    (f.put seg).Tagged := by
  have append : ∀ {g : Flushed}, g.Tagged → Flushed.Tagged ⟨g.buffer ++ seg.encode, g.out⟩ := by
    intro g hg
    refine ⟨Or.inr ?_, hg.out⟩
    rcases hg.buffer with hempty | ⟨conv, hconv, hlead⟩
    · simp only [hempty, List.nil_append]
      exact ⟨seg.conv, hseg, leads_encode seg⟩
    · exact ⟨conv, hconv, hlead.trans (List.prefix_append _ _)⟩
  unfold Flushed.put
  apply append
  split
  · exact h.output
  · exact h

theorem tagged_foldl {segs : List IkcpSeg} (hsegs : ∀ seg ∈ segs, Byte seg.conv) {f : Flushed}
    (h : f.Tagged) : (segs.foldl Flushed.put f).Tagged := by
  induction segs generalizing f with
  | nil => exact h
  | cons seg segs ih =>
    rw [List.foldl_cons]
    apply ih (fun s hs => hsegs s (List.mem_cons_of_mem seg hs))
    exact h.put (hsegs seg List.mem_cons_self)

theorem byte_conv {conv : ℕ} (h : conv < 256) : Byte (UInt32.ofNat conv) := ⟨conv, h, rfl⟩

theorem tagged_flushControl {conv : ℕ} (hconv : conv < 256) (k : Ikcp) :
    (k.flushControl conv).Tagged := by
  unfold flushControl
  apply tagged_foldl
  · have hbyte := byte_conv hconv
    intro seg hseg
    rcases List.mem_append.mp hseg with hseg | hseg
    · rcases List.mem_append.mp hseg with hseg | hseg
      · obtain ⟨⟨sn, ts⟩, -, rfl⟩ := List.mem_map.mp hseg
        exact hbyte
      · split at hseg
        · rw [List.mem_singleton.mp hseg]
          exact hbyte
        · cases hseg
    · split at hseg
      · rw [List.mem_singleton.mp hseg]
        exact hbyte
      · cases hseg
  · exact ⟨Or.inl rfl, List.forall_mem_nil _⟩

/-- What was sent, or is about to be, has numbers of one byte. -/
def Numbered (k : Ikcp) : Prop := ∀ seg ∈ k.sndBuf, Byte seg.conv

theorem decideSeg_conv (k : Ikcp) (resent rtomin : UInt32) (seg : IkcpSeg) :
    (k.decideSeg resent rtomin seg).1.conv = seg.conv := by
  unfold decideSeg
  split
  · rfl
  · split
    · rfl
    · split
      · rfl
      · rfl

theorem flushSegs_tagged (k : Ikcp) (resent rtomin : UInt32) {segs : List IkcpSeg}
    (hsegs : ∀ seg ∈ segs, Byte seg.conv) {f : Flushed} (h : f.Tagged) :
    (k.flushSegs resent rtomin f segs).1.Tagged ∧
      ∀ seg ∈ (k.flushSegs resent rtomin f segs).2.1, Byte seg.conv := by
  induction segs generalizing f with
  | nil => exact ⟨h, List.forall_mem_nil _⟩
  | cons seg segs ih =>
    have hrest : ∀ s ∈ segs, Byte s.conv := fun s hs => hsegs s (List.mem_cons_of_mem seg hs)
    have hconv := k.decideSeg_conv resent rtomin seg
    have hbyte := hsegs seg List.mem_cons_self
    rw [← hconv] at hbyte
    rcases hseg : k.decideSeg resent rtomin seg with ⟨seg', _ | reason⟩
    all_goals
      rw [hseg] at hbyte
      simp only [flushSegs, hseg]
    · exact ⟨(ih hrest h).1, List.forall_mem_cons.mpr ⟨hbyte, (ih hrest h).2⟩⟩
    · have hput := h.put hbyte
      exact ⟨(ih hrest hput).1, List.forall_mem_cons.mpr ⟨hbyte, (ih hrest hput).2⟩⟩

theorem moveToBuf_byte {conv : ℕ} (hconv : conv < 256) (k : Ikcp) (limit : UInt32)
    (queue : List IkcpSeg) (nxt : UInt32) :
    ∀ seg ∈ (moveToBuf conv k limit queue nxt).1, Byte seg.conv := by
  induction queue generalizing nxt with
  | nil => exact List.forall_mem_nil _
  | cons seg queue ih =>
    unfold moveToBuf
    split
    · exact List.forall_mem_cons.mpr ⟨byte_conv hconv, ih (nxt + 1)⟩
    · exact List.forall_mem_nil _

theorem probeWindow_sndBuf (k : Ikcp) : k.probeWindow.sndBuf = k.sndBuf := by
  unfold probeWindow
  split
  · split
    · rfl
    · split
      · rfl
      · rfl
  · rfl

theorem adjustCwnd_sndBuf (k : Ikcp) (cwnd resent : UInt32) (reasons : List Reason) :
    (k.adjustCwnd cwnd resent reasons).sndBuf = k.sndBuf := by
  unfold adjustCwnd
  simp only
  split <;> split <;> split <;> rfl

theorem flush_numbered {conv : ℕ} (hconv : conv < 256) {k : Ikcp} (h : k.Numbered) :
    (k.flush conv).1.Numbered ∧ ∀ d ∈ (k.flush conv).2, ∃ c, Byte c ∧ Leads c d := by
  unfold flush
  split
  · exact ⟨h, List.forall_mem_nil _⟩
  · have hbuf : ∀ seg ∈ k.sndBuf ++ (moveToBuf conv { k.probeWindow with acklist := [], probe := 0 }
        (k.probeWindow.sndUna + flushWindow { k.probeWindow with acklist := [], probe := 0 })
        k.probeWindow.sndQueue k.probeWindow.sndNxt).1, Byte seg.conv := by
      intro seg hseg
      rcases List.mem_append.mp hseg with hseg | hseg
      · exact h seg hseg
      · exact moveToBuf_byte hconv _ _ _ _ seg hseg
    rw [← k.probeWindow_sndBuf] at hbuf
    constructor
    · unfold Numbered
      rw [adjustCwnd_sndBuf]
      exact (flushSegs_tagged _ _ _ hbuf (tagged_flushControl hconv k)).2
    · exact (flushSegs_tagged _ _ _ hbuf (tagged_flushControl hconv k)).1.output.out

theorem update_numbered {conv : ℕ} (hconv : conv < 256) {k : Ikcp} (h : k.Numbered)
    (now : UInt32) :
    (k.update conv now).1.Numbered ∧ ∀ d ∈ (k.update conv now).2, ∃ c, Byte c ∧ Leads c d := by
  have clock : ∀ {b : Bool} {t : UInt32},
      Numbered { k with current := now, updated := b, tsFlush := t } := h
  unfold update
  simp only
  split <;> split <;> split
  all_goals first
    | exact flush_numbered hconv clock
    | exact ⟨clock, List.forall_mem_nil _⟩

/-! What the other functions do to the segments in flight. -/

theorem parseUna_numbered {k : Ikcp} (h : k.Numbered) (una : UInt32) :
    (k.parseUna una).Numbered := by
  intro seg hseg
  exact h seg ((List.dropWhile_suffix _).subset hseg)

theorem shrinkBuf_sndBuf (k : Ikcp) : k.shrinkBuf.sndBuf = k.sndBuf := by
  unfold shrinkBuf
  split
  · rfl
  · rfl

theorem shrinkBuf_numbered {k : Ikcp} (h : k.Numbered) : k.shrinkBuf.Numbered := by
  unfold Numbered
  rw [shrinkBuf_sndBuf]
  exact h

theorem mem_eraseAcked {sn : UInt32} {segs : List IkcpSeg} {seg : IkcpSeg}
    (h : seg ∈ eraseAcked sn segs) : seg ∈ segs := by
  induction segs with
  | nil => exact h
  | cons s segs ih =>
    unfold eraseAcked at h
    split at h
    · exact List.mem_cons_of_mem s h
    · split at h
      · exact h
      · rcases List.mem_cons.mp h with rfl | h
        · exact List.mem_cons_self
        · exact List.mem_cons_of_mem s (ih h)

theorem parseAck_numbered {k : Ikcp} (h : k.Numbered) (sn : UInt32) : (k.parseAck sn).Numbered := by
  unfold parseAck
  split
  · exact h
  · intro seg hseg
    exact h seg (mem_eraseAcked hseg)

theorem countFastack_byte {sn : UInt32} {segs : List IkcpSeg} (h : ∀ seg ∈ segs, Byte seg.conv) :
    ∀ seg ∈ countFastack sn segs, Byte seg.conv := by
  induction segs with
  | nil => exact h
  | cons s segs ih =>
    have hrest := ih fun seg hseg => h seg (List.mem_cons_of_mem s hseg)
    have hfirst := h s List.mem_cons_self
    unfold countFastack
    split
    · exact h
    · refine List.forall_mem_cons.mpr ⟨?_, hrest⟩
      split
      · exact hfirst
      · exact hfirst

theorem parseFastack_numbered {k : Ikcp} (h : k.Numbered) (sn : UInt32) :
    (k.parseFastack sn).Numbered := by
  unfold parseFastack
  split
  · exact h
  · exact countFastack_byte h

theorem parseData_sndBuf (k : Ikcp) (seg : IkcpSeg) : (k.parseData seg).sndBuf = k.sndBuf := by
  unfold parseData
  split
  · rfl
  · rfl

theorem inputSeg_numbered {k : Ikcp} (h : k.Numbered) (maxack : Option UInt32) (seg : IkcpSeg) :
    (k.inputSeg maxack seg).1.Numbered := by
  have hk : (({ k with rmtWnd := seg.wnd.toUInt32 }.parseUna seg.una).shrinkBuf).Numbered :=
    shrinkBuf_numbered (parseUna_numbered (k := { k with rmtWnd := seg.wnd.toUInt32 }) h seg.una)
  unfold inputSeg
  generalize ({ k with rmtWnd := seg.wnd.toUInt32 }.parseUna seg.una).shrinkBuf = k at hk ⊢
  rcases seg.cmd with _ | _ | _ | _
  · simp only
    split
    · split
      · unfold Numbered
        rw [parseData_sndBuf]
        exact hk
      · exact hk
    · exact hk
  · have hack : ∀ k : Ikcp, k.Numbered → ((k.parseAck seg.sn).shrinkBuf).Numbered :=
      fun k hk => shrinkBuf_numbered (parseAck_numbered hk seg.sn)
    have hrtt : (if 0 ≤ itimediff k.current seg.ts then
        k.updateAck (k.current - seg.ts).toInt32 else k).Numbered := by
      split
      · exact hk
      · exact hk
    rcases maxack with _ | sn
    · exact hack _ hrtt
    · exact hack _ hrtt
  · exact hk
  · exact hk

theorem inputLoop_numbered (conv : ℕ) {k : Ikcp} (h : k.Numbered) (maxack : Option UInt32)
    (data : Bytes) : (k.inputLoop conv maxack data).1.Numbered := by
  fun_induction inputLoop conv k maxack data with
  | case1 => exact h
  | case2 => exact h
  | case3 => exact h
  | case4 => exact h
  | case5 k maxack data _ _ len _ cmd _ k' maxack' hseg ih =>
    apply ih
    have hk' := inputSeg_numbered h maxack (decodeSeg cmd data len)
    rw [hseg] at hk'
    exact hk'

theorem growCwnd_sndBuf (k : Ikcp) : k.growCwnd.sndBuf = k.sndBuf := by
  unfold growCwnd
  simp only
  repeat' split
  all_goals rfl

theorem input_numbered {conv : ℕ} {k : Ikcp} (h : k.Numbered) (data : Bytes) :
    (k.input conv data).1.Numbered := by
  unfold input
  split
  · exact h
  · have hloop := inputLoop_numbered conv h none data
    rcases hr : k.inputLoop conv none data with ⟨k', maxack, ret⟩
    rw [hr] at hloop
    have grow : ∀ k' : Ikcp, k'.Numbered →
        (if 0 < itimediff k'.sndUna k.sndUna then k'.growCwnd else k').Numbered := by
      intro k' hk'
      split
      · unfold Numbered
        rw [growCwnd_sndBuf]
        exact hk'
      · exact hk'
    simp only
    split
    · exact hloop
    · rcases maxack with _ | sn
      · exact grow _ hloop
      · exact grow _ (parseFastack_numbered hloop sn)

theorem send_sndBuf (k : Ikcp) (buffer : Bytes) : (k.send buffer).1.sndBuf = k.sndBuf := by
  unfold send
  simp only
  split
  · rfl
  · rfl

theorem recv_sndBuf (k : Ikcp) (len : ℕ) : (k.recv len).1.sndBuf = k.sndBuf := by
  unfold recv
  split
  · rfl
  · split
    · rfl
    · simp only
      split
      · rfl
      · rfl

/-- The control blocks an object comes to hold, with its conversation number. The
number is that of a key, and a client gets another one from its server. -/
inductive Reachable : ℕ → Ikcp → Prop
  | create (key : KcpevKey) : Reachable key.conv kcpevCreateKcp
  | setConv {conv : ℕ} {k : Ikcp} (key : KcpevKey) (h : Reachable conv k) : Reachable key.conv k
  | send {conv : ℕ} {k : Ikcp} (buffer : Bytes) (h : Reachable conv k) :
    Reachable conv (k.send buffer).1
  | recv {conv : ℕ} {k : Ikcp} (len : ℕ) (h : Reachable conv k) : Reachable conv (k.recv len).1
  | input {conv : ℕ} {k : Ikcp} (data : Bytes) (h : Reachable conv k) :
    Reachable conv (k.input conv data).1
  | update {conv : ℕ} {k : Ikcp} (now : UInt32) (h : Reachable conv k) :
    Reachable conv (k.update conv now).1

theorem Reachable.numbered {conv : ℕ} {k : Ikcp} (h : Reachable conv k) :
    conv < 256 ∧ k.Numbered := by
  induction h with
  | create key => exact ⟨key.conv_lt, List.forall_mem_nil _⟩
  | setConv key _ ih => exact ⟨key.conv_lt, ih.2⟩
  | @send conv k buffer _ ih =>
    refine ⟨ih.1, ?_⟩
    unfold Numbered
    rw [send_sndBuf]
    exact ih.2
  | @recv conv k len _ ih =>
    refine ⟨ih.1, ?_⟩
    unfold Numbered
    rw [recv_sndBuf]
    exact ih.2
  | input data _ ih => exact ⟨ih.1, input_numbered ih.2 data⟩
  | update now _ ih => exact ⟨ih.1, (update_numbered ih.1 ih.2 now).1⟩

/-- `d` is handed to the output callback by a flush. -/
def Emits (conv : ℕ) (k : Ikcp) (d : Bytes) : Prop :=
  d ∈ (k.flush conv).2 ∨ ∃ now, d ∈ (k.update conv now).2

theorem Reachable.leads {conv : ℕ} {k : Ikcp} (h : Reachable conv k) {d : Bytes}
    (hd : k.Emits conv d) : ∃ n, n < 256 ∧ Leads (UInt32.ofNat n) d := by
  obtain ⟨hconv, hk⟩ := h.numbered
  have byte : (∃ c, Byte c ∧ Leads c d) → ∃ n, n < 256 ∧ Leads (UInt32.ofNat n) d := by
    rintro ⟨-, ⟨n, hn, rfl⟩, hlead⟩
    exact ⟨n, hn, hlead⟩
  rcases hd with hd | ⟨now, hd⟩
  · exact byte ((flush_numbered hconv hk).2 d hd)
  · exact byte ((update_numbered hconv hk now).2 d hd)

end Ikcp

/-- Frames and datagrams on one UDP socket are never confused. -/
theorem frames_datagrams_apart [KcpImpl K] [ClockImpl T] (w : World K T) (key : KcpevKey)
    (k : Ikcp) (h : Ikcp.Reachable key.conv k) :
    (∀ frame, Packed frame → k.input key.conv frame = (k, -1)) ∧
    ∀ d, k.Emits key.conv d → d.length ≤ kcpevBufferSize →
      (∀ c client a, w.objs c = some client → onClientRecv w c d a = .ok (w, -1)) ∧
      ∀ client addr a, onServerRecv w client d addr a = .ok (w, -1) := by
  refine ⟨fun frame hframe => hframe.input_eq key.conv_lt k, ?_⟩
  intro d hd hlen
  obtain ⟨n, hn, hlead⟩ := h.leads hd
  have hparse := parseFrame_leads hn hlead hlen
  refine ⟨?_, ?_⟩
  · intro c client a hobj
    exact onClientRecv_rejects a hobj hparse
  · intro client addr a
    exact onServerRecv_rejects w client addr a hparse

/-- The first datagram of a KCP object that was given a message is no frame for a server. -/
theorem frames_datagrams_apart_message :
    ∃ d ∈ ((Ikcp.kcpevCreateKcp.send [7]).1.update KcpevKey.zero.conv 1000).2,
      onServerRecv (Process.init (K := Unit) 0).world none d 9 (.socket 0) =
        .ok ((Process.init (K := Unit) 0).world, -1) := by
  have happart := frames_datagrams_apart (Process.init (K := Unit) 0).world .zero _
    ((Ikcp.Reachable.create .zero).send [7])
  have hsent : ((Ikcp.kcpevCreateKcp.send [7]).1.update KcpevKey.zero.conv 1000).2 ≠ [] := by decide
  have hlen : ∀ d ∈ ((Ikcp.kcpevCreateKcp.send [7]).1.update KcpevKey.zero.conv 1000).2,
      d.length ≤ kcpevBufferSize := by decide
  obtain ⟨d, hd⟩ := List.exists_mem_of_ne_nil _ hsent
  exact ⟨d, hd, (happart.2 d (Or.inr ⟨1000, hd⟩) (hlen d hd)).2 none 9 (.socket 0)⟩

end KcpEv
