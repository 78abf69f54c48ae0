import KcpEv.IkcpFlush
import Mathlib.Data.List.Basic

/-!
Datagrams on the wire. `ikcp_input` takes apart what `ikcp_flush` puts together:
the segments of a flush, cut into datagrams that respect the mtu, are handled one
after the other in the order in which they were written.
-/
namespace KcpEv

/-! Numbers. -/

theorem leNat_encode32u (x : UInt32) : leNat (encode32u x) = x.toNat := by
  have hx := x.toNat_lt
  simp only [leNat, encode32u, List.foldr_cons, List.foldr_nil, UInt8.toNat_ofNat']
  omega

theorem leNat_encode16u (x : UInt16) : leNat (encode16u x) = x.toNat := by
  have hx := x.toNat_lt
  simp only [leNat, encode16u, List.foldr_cons, List.foldr_nil, UInt8.toNat_ofNat']
  omega

theorem ofNat_leNat32 (x : UInt32) : UInt32.ofNat (leNat (encode32u x)) = x := by
  rw [leNat_encode32u, UInt32.ofNat_toNat]

theorem ofNat_leNat16 (x : UInt16) : UInt16.ofNat (leNat (encode16u x)) = x := by
  rw [leNat_encode16u, UInt16.ofNat_toNat]

theorem IkcpCmd.ofByte_byte (cmd : IkcpCmd) : IkcpCmd.ofByte cmd.toByte = some cmd := by
  cases cmd <;> rfl

/-! One segment. -/

namespace IkcpSeg

/-- A segment as it arrives: the fields that are not sent are empty. -/
def arrived (seg : IkcpSeg) : IkcpSeg :=
  { seg with resendts := 0, rto := 0, fastack := 0, xmit := 0 }

theorem length_encodeHeader (seg : IkcpSeg) : seg.encodeHeader.length = ikcpOverhead := rfl

theorem length_encode (seg : IkcpSeg) : seg.encode.length = ikcpOverhead + seg.data.length := by
  rw [encode, List.length_append, length_encodeHeader]

end IkcpSeg

namespace Ikcp

section Decode
variable (seg : IkcpSeg) (rest : Bytes)

theorem decode_conv : decode32u (seg.encode ++ rest) 0 = seg.conv := ofNat_leNat32 seg.conv

theorem decode_cmd : decode8u (seg.encode ++ rest) 4 = seg.cmd.toByte := rfl

theorem decode_len : decode32u (seg.encode ++ rest) 20 = UInt32.ofNat seg.data.length :=
  ofNat_leNat32 _

theorem decodeSeg_encode :
    decodeSeg seg.cmd (seg.encode ++ rest) seg.data.length = seg.arrived := by
  have hdata : ((seg.encode ++ rest).drop ikcpOverhead).take seg.data.length = seg.data := by
    rw [IkcpSeg.encode, List.append_assoc, List.drop_left' seg.length_encodeHeader, List.take_left]
  have hconv : decode32u (seg.encode ++ rest) 0 = seg.conv := decode_conv seg rest
  have hfrg : decode8u (seg.encode ++ rest) 5 = seg.frg := rfl
  have hwnd : decode16u (seg.encode ++ rest) 6 = seg.wnd := ofNat_leNat16 seg.wnd
  have hts : decode32u (seg.encode ++ rest) 8 = seg.ts := ofNat_leNat32 seg.ts
  have hsn : decode32u (seg.encode ++ rest) 12 = seg.sn := ofNat_leNat32 seg.sn
  have huna : decode32u (seg.encode ++ rest) 16 = seg.una := ofNat_leNat32 seg.una
  unfold decodeSeg
  rw [hdata, hconv, hfrg, hwnd, hts, hsn, huna]
  rfl

end Decode

/-! A datagram. -/

def datagram (segs : List IkcpSeg) : Bytes := segs.flatMap IkcpSeg.encode

/-- What `ikcp_input` does with the segments of a datagram. -/
def inputSegs (k : Ikcp) (maxack : Option UInt32) (segs : List IkcpSeg) : Ikcp × Option UInt32 :=
  segs.foldl (fun s seg => s.1.inputSeg s.2 seg.arrived) (k, maxack)

/-- The segments belong to a conversation, and their lengths can be written. -/
def Sendable (conv : ℕ) (segs : List IkcpSeg) : Prop :=
  ∀ seg ∈ segs, seg.conv = UInt32.ofNat conv ∧ seg.data.length < 2 ^ 32

theorem Sendable.tail {conv : ℕ} {seg : IkcpSeg} {segs : List IkcpSeg}
    (h : Sendable conv (seg :: segs)) : Sendable conv segs :=
  fun s hs => h s (List.mem_cons_of_mem seg hs)

/-- The loop of `ikcp_input` handles a datagram segment by segment, to its end. -/
theorem inputLoop_datagram {conv : ℕ} {segs : List IkcpSeg} (h : Sendable conv segs) (k : Ikcp)
    (maxack : Option UInt32) : k.inputLoop conv maxack (datagram segs) =
      ((k.inputSegs maxack segs).1, (k.inputSegs maxack segs).2, 0) := by
  induction segs generalizing k maxack with
  | nil =>
    unfold inputLoop
    rfl
  | cons seg segs ih =>
    obtain ⟨hconv, hlt⟩ := h seg List.mem_cons_self
    have hcons : datagram (seg :: segs) = seg.encode ++ datagram segs := rfl
    have hlen : (seg.encode ++ datagram segs).length =
        ikcpOverhead + seg.data.length + (datagram segs).length := by
      rw [List.length_append, seg.length_encode]
    have hdata : (decode32u (seg.encode ++ datagram segs) 20).toNat = seg.data.length := by
      rw [decode_len, UInt32.toNat_ofNat', Nat.mod_eq_of_lt hlt]
    have hdrop : (seg.encode ++ datagram segs).drop (ikcpOverhead + seg.data.length) =
        datagram segs := List.drop_left' seg.length_encode
    rw [hcons]
    unfold inputLoop
    rw [dif_neg (by omega), decode_conv, if_neg (not_not_intro hconv)]
    simp only [hdata, decode_cmd, IkcpCmd.ofByte_byte, decodeSeg_encode, hdrop]
    rw [if_neg (by omega)]
    exact ih h.tail _ _

/-- The bytes of a datagram tell its segments. -/
theorem datagram_inj {conv : ℕ} {segs segs' : List IkcpSeg} (h : Sendable conv segs)
    (h' : Sendable conv segs') (heq : datagram segs = datagram segs') :
    segs.map IkcpSeg.arrived = segs'.map IkcpSeg.arrived := by
  induction segs generalizing segs' with
  | nil =>
    cases segs' with
    | nil => rfl
    | cons seg' rest' => cases heq
  | cons seg rest ih =>
    cases segs' with
    | nil => cases heq
    | cons seg' rest' =>
      have hbytes : seg.encode ++ datagram rest = seg'.encode ++ datagram rest' := heq
      have hcmd : seg.cmd = seg'.cmd := by
        have hbyte := congrArg (fun bytes => IkcpCmd.ofByte (decode8u bytes 4)) hbytes
        simp only [decode_cmd, IkcpCmd.ofByte_byte, Option.some.injEq] at hbyte
        exact hbyte
      have hlen : seg.data.length = seg'.data.length := by
        have hword := congrArg (fun bytes => (decode32u bytes 20).toNat) hbytes
        simp only [decode_len, UInt32.toNat_ofNat'] at hword
        rwa [Nat.mod_eq_of_lt (h seg List.mem_cons_self).2,
          Nat.mod_eq_of_lt (h' seg' List.mem_cons_self).2] at hword
      have hseg : seg.arrived = seg'.arrived := by
        rw [← decodeSeg_encode seg (datagram rest), ← decodeSeg_encode seg' (datagram rest'),
          hbytes, hcmd, hlen]
      have hsize : seg.encode.length = seg'.encode.length := by
        rw [seg.length_encode, seg'.length_encode, hlen]
      rw [List.map_cons, List.map_cons, hseg, ih h.tail h'.tail
        (List.append_inj_right hbytes hsize)]

/-- What is left to do behind the loop of `ikcp_input`; `una` is `snd_una` before it. -/
def inputDone (una : UInt32) (k : Ikcp) (maxack : Option UInt32) : Ikcp :=
  let k := match maxack with
    | none => k
    | some sn => k.parseFastack sn
  if 0 < itimediff k.sndUna una then k.growCwnd else k

theorem input_datagram {conv : ℕ} {segs : List IkcpSeg} (h : Sendable conv segs) (hne : segs ≠ [])
    (k : Ikcp) : k.input conv (datagram segs) =
      (inputDone k.sndUna (k.inputSegs none segs).1 (k.inputSegs none segs).2, 0) := by
  have hlong : ¬ (datagram segs).length < 24 := by
    obtain ⟨seg, rest, rfl⟩ := List.exists_cons_of_ne_nil hne
    have hcons : datagram (seg :: rest) = seg.encode ++ datagram rest := rfl
    have hover : ikcpOverhead = 24 := rfl
    rw [hcons, List.length_append, seg.length_encode]
    omega
  unfold input
  rw [if_neg hlong, inputLoop_datagram h]
  rfl

/-! The datagrams of a flush. -/

theorem datagram_append (segs segs' : List IkcpSeg) :
    datagram (segs ++ segs') = datagram segs ++ datagram segs' := List.flatMap_append

/-- A datagram that `ikcp_output` gets. -/
structure Fits (segs : List IkcpSeg) : Prop where
  ne : segs ≠ []
  le : (datagram segs).length ≤ ikcpMtuDef

/-- The segments in the buffer of a flush, and those in the datagrams before it. -/
structure Flushed.Holds (f : Flushed) (done : List (List IkcpSeg)) (last : List IkcpSeg) :
    Prop where
  buffer : f.buffer = datagram last
  size : (datagram last).length ≤ ikcpMtuDef
  out : f.out = done.map datagram
  done : ∀ segs ∈ done, Fits segs

/-- The segments written so far. -/
def Flushed.Wrote (f : Flushed) (segs : List IkcpSeg) : Prop :=
  ∃ done last, f.Holds done last ∧ done.flatten ++ last = segs

theorem datagram_eq_nil {segs : List IkcpSeg} : datagram segs = [] ↔ segs = [] := by
  constructor
  · intro h
    cases segs with
    | nil => rfl
    | cons seg rest => cases h
  · rintro rfl
    rfl

theorem Flushed.Holds.output {f : Flushed} {done : List (List IkcpSeg)} {last : List IkcpSeg}
    (h : f.Holds done last) :
    ∃ done', f.output.Holds done' [] ∧ done'.flatten = done.flatten ++ last := by
  unfold Flushed.output
  by_cases hempty : f.buffer = []
  · have hlast : last = [] := datagram_eq_nil.mp (h.buffer ▸ hempty)
    rw [if_pos hempty, hlast, List.append_nil]
    exact ⟨done, ⟨rfl, Nat.zero_le _, h.out, h.done⟩, rfl⟩
  · have hne : last ≠ [] := fun heq => hempty (h.buffer.trans (datagram_eq_nil.mpr heq))
    rw [if_neg hempty]
    refine ⟨done ++ [last], ⟨rfl, Nat.zero_le _, ?_, ?_⟩, ?_⟩
    · rw [List.map_append, h.out, h.buffer]
      rfl
    · intro segs hsegs
      rcases List.mem_append.mp hsegs with hold | hnew
      · exact h.done segs hold
      · rw [List.mem_singleton.mp hnew]
        exact ⟨hne, h.size⟩
    · rw [List.flatten_append, List.flatten_singleton]

theorem Flushed.Wrote.put {f : Flushed} {segs : List IkcpSeg} (h : f.Wrote segs) {seg : IkcpSeg}
    (hseg : seg.data.length ≤ ikcpMss) : (f.put seg).Wrote (segs ++ [seg]) := by
  have hmss : ikcpOverhead + ikcpMss = ikcpMtuDef := rfl
  -- behind a datagram with room the segment is appended
  have append : ∀ {g : Flushed} {done last}, g.Holds done last →
      (datagram last).length + (ikcpOverhead + seg.data.length) ≤ ikcpMtuDef →
      Flushed.Holds { g with buffer := g.buffer ++ seg.encode } done (last ++ [seg]) := by
    intro g done last hg hroom
    have happend : datagram (last ++ [seg]) = datagram last ++ seg.encode := by
      rw [datagram_append]
      exact congrArg _ (List.append_nil _)
    refine ⟨?_, ?_, hg.out, hg.done⟩
    · rw [happend]
      exact congrArg (· ++ seg.encode) hg.buffer
    · rw [happend, List.length_append, seg.length_encode]
      exact hroom
  obtain ⟨done, last, hf, rfl⟩ := h
  unfold Flushed.put
  by_cases hfull : ikcpMtuDef < f.buffer.length + ikcpOverhead + seg.data.length
  · obtain ⟨done', hout, hflat⟩ := hf.output
    refine ⟨done', [seg], ?_, by rw [hflat]⟩
    have hnil : (datagram []).length = 0 := rfl
    simp only [hfull, if_true]
    exact append hout (by omega)
  · refine ⟨done, last ++ [seg], ?_, List.append_assoc _ _ _ |>.symm⟩
    rw [hf.buffer] at hfull
    simp only [hf.buffer, hfull, if_false]
    rw [← hf.buffer]
    exact append hf (by omega)

theorem wrote_foldl {segs new : List IkcpSeg} (hnew : ∀ seg ∈ new, seg.data.length ≤ ikcpMss)
    {f : Flushed} (h : f.Wrote segs) : (new.foldl Flushed.put f).Wrote (segs ++ new) := by
  induction new generalizing f segs with
  | nil =>
    rw [List.append_nil]
    exact h
  | cons seg new ih =>
    rw [List.foldl_cons, List.append_cons]
    exact ih (fun s hs => hnew s (List.mem_cons_of_mem seg hs))
      (h.put (hnew seg List.mem_cons_self))

end Ikcp

end KcpEv
