import KcpEv.KcpDelivery
import Mathlib.Data.List.DropRight

/-!
What keeps two control blocks going. A flush at the right time sends the first
segment in flight again, or numbers the next one; what comes in is acknowledged; and
an end whose window has opened says so when it is asked.
-/
namespace KcpEv.Ikcp

open Relation Arq

/-! Time. -/

/-- The control block that `ikcp_update` flushes. -/
def ticked (k : Ikcp) (now tsFlush : UInt32) : Ikcp :=
  { k with current := now, updated := true, tsFlush }

theorem update_flushes (conv : ℕ) {k : Ikcp} {now : UInt32}
    (h : itimediff now k.tsFlush < -10000 ∨ 0 ≤ itimediff now k.tsFlush) :
    ∃ tsFlush, k.update conv now = (k.ticked now tsFlush).flush conv := by
  unfold update ticked
  dsimp only
  by_cases hupdated : k.updated
  · have hgo : (10000 ≤ itimediff now k.tsFlush ∨ itimediff now k.tsFlush < -10000) ∨
        0 ≤ itimediff now k.tsFlush := by omega
    by_cases hfar : 10000 ≤ itimediff now k.tsFlush ∨ itimediff now k.tsFlush < -10000
    · simp only [hupdated, if_true, hfar, true_or]
      exact ⟨_, rfl⟩
    · have hslap : 0 ≤ itimediff now k.tsFlush := hgo.resolve_left hfar
      simp only [hupdated, if_true, hfar, if_false, hslap, or_true]
      exact ⟨_, rfl⟩
  · simp only [hupdated, Bool.false_eq_true, if_false, itimediff_self, le_refl, or_true, if_true]
    exact ⟨_, rfl⟩

/-- There is a time at which something is due and `ikcp_update` flushes. -/
theorem exists_flush (conv : ℕ) (k : Ikcp) (due : UInt32) : ∃ now tsFlush,
    0 ≤ itimediff now due ∧ k.update conv now = (k.ticked now tsFlush).flush conv := by
  by_cases hslap : itimediff due k.tsFlush < -10000 ∨ 0 ≤ itimediff due k.tsFlush
  · obtain ⟨tsFlush, hflush⟩ := update_flushes conv hslap
    exact ⟨due, tsFlush, (itimediff_self due).ge, hflush⟩
  · -- the next flush is near, and this is behind it
    have hahead : ahead due k.tsFlush = -itimediff due k.tsFlush := by
      have hneg : itimediff due k.tsFlush < 0 := by omega
      obtain ⟨hback, hsub⟩ := itimediff_pending hneg (by omega)
      rw [← hback, hsub]
      rfl
    have hlater : ahead due (due + 20000) = 20000 := by
      have hadd := ahead_add due due (n := 20000) (by rw [ahead_self]; omega)
      rwa [ahead_self, Nat.zero_add] at hadd
    have hdue : 0 ≤ itimediff (due + 20000) due :=
      (itimediff_base _ _).mpr (by omega)
    have hflush : itimediff (due + 20000) k.tsFlush =
        (ahead due (due + 20000) : ℤ) - ahead due k.tsFlush :=
      itimediff_ahead (by omega) (by omega)
    have hslap : itimediff (due + 20000) k.tsFlush < -10000 ∨
        0 ≤ itimediff (due + 20000) k.tsFlush := by omega
    obtain ⟨tsFlush, heq⟩ := update_flushes conv hslap
    exact ⟨_, tsFlush, hdue, heq⟩

/-! What is heard. -/

/-- What `ikcp_input` does with every segment first. -/
def hearUna (k : Ikcp) (seg : IkcpSeg) : Ikcp :=
  ({ k with rmtWnd := seg.wnd.toUInt32 }.parseUna seg.una).shrinkBuf

theorem hearUna_twice (k : Ikcp) (seg : IkcpSeg) :
    (k.hearUna seg).hearUna seg = k.hearUna seg := by
  unfold hearUna
  rw [shrinkBuf_eq, shrinkBuf_eq]
  unfold parseUna
  dsimp only
  rw [List.dropWhile_idempotent]

theorem inputSeg_hearUna (k : Ikcp) (maxack : Option UInt32) (seg : IkcpSeg) :
    (k.hearUna seg).inputSeg maxack seg = k.inputSeg maxack seg := by
  have htwice := k.hearUna_twice seg
  unfold hearUna at htwice ⊢
  unfold inputSeg
  rw [htwice]

section Waits
variable {conv : ℕ} {sndWnd : UInt32} {heard : IkcpSeg → Prop} {k k' : Ikcp}

theorem Outgoing.step_waits {s s' : Outgoing} (h : s.Step conv sndWnd heard s') :
    s'.buf.length + s'.queue.length ≤ s.buf.length + s.queue.length := by
  cases h with
  | settle _ hleft _ =>
    have hle := hleft.length_le
    dsimp only
    omega
  | number hqueue =>
    dsimp only
    rw [hqueue, List.length_append, List.length_singleton, List.length_cons]
    omega
  | touch hsame => exact Nat.le_of_eq (congrArg (· + s.queue.length) hsame.length_eq.symm)

theorem Moves.waitsnd_le (h : Moves conv heard k k') : k'.waitsnd ≤ k.waitsnd := by
  have hsteps := h.outgoing
  change k'.outgoing.buf.length + k'.outgoing.queue.length ≤
    k.outgoing.buf.length + k.outgoing.queue.length
  generalize k'.outgoing = s' at hsteps ⊢
  induction hsteps with
  | refl => exact Nat.le_refl _
  | tail _ hstep ih => exact (Outgoing.step_waits hstep).trans ih

theorem call_waitsnd_le (k : Ikcp) {c : Call} (hc : ∀ buffer, c ≠ .send buffer) :
    (k.call conv c).waitsnd ≤ k.waitsnd := by
  cases c with
  | send buffer => exact absurd rfl (hc buffer)
  | recv len =>
    rcases recv_cases conv (fun _ => True) k len with heq | ⟨rest, k', -, -, hmoves, heq⟩
    · have hcall : k.call conv (.recv len) = k := congrArg Prod.fst heq
      rw [hcall]
    · have hcall : k.call conv (.recv len) = k' := congrArg Prod.fst heq
      rw [hcall]
      exact hmoves.waitsnd_le
  | input data =>
    have hmoves : Moves conv (fun _ => True) k (k.input conv data).1 := moves_input k data
    exact hmoves.waitsnd_le
  | update now =>
    have hmoves : Moves conv (fun _ => True) k (k.update conv now).1 := moves_update k now
    exact hmoves.waitsnd_le

theorem hearUna_waitsnd_lt {seg first : IkcpSeg} {rest : List IkcpSeg}
    (hbuf : k.sndBuf = first :: rest) (huna : 0 < itimediff seg.una first.sn) :
    (k.hearUna seg).waitsnd < k.waitsnd := by
  have hdrop : (k.hearUna seg).sndBuf = rest.dropWhile fun s => 0 < itimediff seg.una s.sn := by
    unfold hearUna
    rw [shrinkBuf_eq]
    unfold parseUna
    dsimp only
    rw [hbuf]
    exact List.dropWhile_cons_of_pos (decide_eq_true huna)
  have hqueue : (k.hearUna seg).sndQueue = k.sndQueue := by
    unfold hearUna
    rw [shrinkBuf_eq]
    rfl
  have hsub : (rest.dropWhile fun s => 0 < itimediff seg.una s.sn).Sublist rest :=
    List.dropWhile_sublist _
  have hle := hsub.length_le
  unfold waitsnd
  rw [hdrop, hqueue, hbuf, List.length_cons]
  omega

theorem input_waitsnd_lt {segs : List IkcpSeg} (hsend : Sendable conv segs) (hne : segs ≠ [])
    {first : IkcpSeg} {rest : List IkcpSeg} (hbuf : k.sndBuf = first :: rest)
    (huna : ∀ seg ∈ segs, 0 < itimediff seg.una first.sn) :
    (k.input conv (datagram segs)).1.waitsnd < k.waitsnd := by
  obtain ⟨seg, tail, rfl⟩ := List.exists_cons_of_ne_nil hne
  rw [input_datagram hsend hne]
  have hfirst := hearUna_waitsnd_lt hbuf (huna seg List.mem_cons_self)
  have hseg : Moves conv (fun _ => True) (k.hearUna seg.arrived)
      ((k.hearUna seg.arrived).inputSeg none seg.arrived).1 := moves_inputSeg trivial _ _
  rw [inputSeg_hearUna] at hseg
  have htail : Moves conv (fun _ => True) (k.inputSeg none seg.arrived).1
      ((k.inputSeg none seg.arrived).1.inputSegs (k.inputSeg none seg.arrived).2 tail).1 :=
    moves_inputSegs (fun _ _ => trivial) _ _
  have hmoves := (hseg.trans htail).trans (moves_inputDone k.sndUna _
    ((k.inputSeg none seg.arrived).1.inputSegs (k.inputSeg none seg.arrived).2 tail).2)
  exact Nat.lt_of_le_of_lt hmoves.waitsnd_le hfirst

end Waits

/-! What is to be said. -/

theorem and_or_ne_zero {p q mask : UInt32} (h : p &&& mask ≠ 0) : (p ||| q) &&& mask ≠ 0 := by
  have hdistrib : (p ||| q) &&& mask = (p &&& mask) ||| (q &&& mask) :=
    UInt32.toBitVec_inj.mp BitVec.and_or_distrib_right
  rw [hdistrib]
  exact fun hzero => h (UInt32.or_eq_zero_iff.mp hzero).1

/-- The window was asked for, or it has opened. -/
def Asked (k : Ikcp) : Prop := k.probe &&& ikcpAskTell ≠ 0

/-- What is to be said is not forgotten, and the window of the peer stays. -/
structure Notes (k k' : Ikcp) : Prop where
  acks : k.acklist ⊆ k'.acklist
  asked : k.Asked → k'.Asked
  rmtWnd : k'.rmtWnd = k.rmtWnd

section Notes
variable {k k' k'' : Ikcp}

theorem Notes.refl (k : Ikcp) : k.Notes k := ⟨List.Subset.refl _, id, rfl⟩

theorem Notes.trans (h : k.Notes k') (h' : k'.Notes k'') : k.Notes k'' :=
  ⟨List.Subset.trans h.acks h'.acks, h'.asked ∘ h.asked, h'.rmtWnd.trans h.rmtWnd⟩

theorem Notes.of_eq (hacks : k'.acklist = k.acklist) (hprobe : k'.probe = k.probe)
    (hwnd : k'.rmtWnd = k.rmtWnd) : k.Notes k' := by
  refine ⟨?_, ?_, hwnd⟩
  · rw [hacks]
    exact List.Subset.refl _
  · unfold Asked
    rw [hprobe]
    exact id

theorem Notes.of_asked (h : k.Notes k') : k.Notes { k' with probe := k'.probe ||| ikcpAskTell } :=
  ⟨h.acks, fun hasked => and_or_ne_zero (h.asked hasked), h.rmtWnd⟩

theorem notes_shrinkBuf (k : Ikcp) : k.Notes k.shrinkBuf := by
  rw [shrinkBuf_eq]
  exact .of_eq rfl rfl rfl

theorem notes_parseAck (k : Ikcp) (sn : UInt32) : k.Notes (k.parseAck sn) := by
  unfold parseAck
  split
  · exact .refl k
  · exact .of_eq rfl rfl rfl

theorem notes_parseData (k : Ikcp) (seg : IkcpSeg) : k.Notes (k.parseData seg) := by
  unfold parseData
  split
  · exact .refl k
  · exact .of_eq rfl rfl rfl

theorem notes_push (k : Ikcp) (seg : IkcpSeg) :
    k.Notes (if 0 ≤ itimediff seg.sn k.rcvNxt then
      { k with acklist := k.acklist ++ [(seg.sn, seg.ts)] }.parseData seg
    else { k with acklist := k.acklist ++ [(seg.sn, seg.ts)] }) := by
  have hnoted : k.Notes { k with acklist := k.acklist ++ [(seg.sn, seg.ts)] } :=
    ⟨List.subset_append_left _ _, id, rfl⟩
  split
  · exact hnoted.trans (notes_parseData _ seg)
  · exact hnoted

theorem notes_inputSeg (k : Ikcp) (maxack : Option UInt32) (seg : IkcpSeg) :
    (k.hearUna seg).Notes (k.inputSeg maxack seg).1 := by
  unfold inputSeg hearUna
  generalize ({ k with rmtWnd := seg.wnd.toUInt32 }.parseUna seg.una).shrinkBuf = k'
  rcases seg.cmd with _ | _ | _ | _
  · simp only
    split
    · have hpush := notes_push k' seg
      split
      · rename_i hfirst
        rwa [if_pos hfirst] at hpush
      · rename_i hfirst
        rwa [if_neg hfirst] at hpush
    · exact .refl k'
  · have hrtt : k'.Notes (if 0 ≤ itimediff k'.current seg.ts then
        k'.updateAck (k'.current - seg.ts).toInt32 else k') := by
      split
      · exact .of_eq rfl rfl rfl
      · exact .refl k'
    have hack := (hrtt.trans (notes_parseAck _ seg.sn)).trans (notes_shrinkBuf _)
    rcases maxack with _ | sn
    · exact hack
    · exact hack
  · exact Notes.of_asked (.refl k')
  · exact .refl k'

theorem hearUna_eq (k : Ikcp) (seg : IkcpSeg) : ∃ sndBuf sndUna, k.hearUna seg =
    { k with sndBuf, sndUna, rmtWnd := seg.wnd.toUInt32 } := by
  unfold hearUna
  rw [shrinkBuf_eq]
  exact ⟨_, _, rfl⟩

theorem inputSeg_acks (k : Ikcp) (maxack : Option UInt32) (seg : IkcpSeg) :
    k.acklist ⊆ (k.inputSeg maxack seg).1.acklist := by
  have hacks := (notes_inputSeg k maxack seg).acks
  obtain ⟨sndBuf, sndUna, heq⟩ := k.hearUna_eq seg
  rwa [heq] at hacks

theorem inputSeg_asked (maxack : Option UInt32) {seg : IkcpSeg}
    (h : k.Asked ∨ seg.cmd = .wask) : (k.inputSeg maxack seg).1.Asked := by
  rcases h with hasked | hwask
  · have hnoted := (notes_inputSeg k maxack seg).asked
    obtain ⟨sndBuf, sndUna, heq⟩ := k.hearUna_eq seg
    rw [heq] at hnoted
    exact hnoted hasked
  · unfold inputSeg Asked
    simp only [hwask]
    rw [UInt32.or_comm]
    exact and_or_ne_zero (by decide)

theorem inputSeg_rmtWnd (k : Ikcp) (maxack : Option UInt32) (seg : IkcpSeg) :
    (k.inputSeg maxack seg).1.rmtWnd = seg.wnd.toUInt32 := by
  obtain ⟨sndBuf, sndUna, heq⟩ := k.hearUna_eq seg
  rw [(notes_inputSeg k maxack seg).rmtWnd, heq]

/-- A data segment in the window, or before it, is to be acknowledged. -/
theorem inputSeg_push (maxack : Option UInt32) {seg : IkcpSeg} (hcmd : seg.cmd = .push)
    (hwnd : itimediff seg.sn (k.rcvNxt + k.rcvWnd) < 0) :
    (seg.sn, seg.ts) ∈ (k.inputSeg maxack seg).1.acklist := by
  obtain ⟨sndBuf, sndUna, heq⟩ := k.hearUna_eq seg
  have hinside : itimediff seg.sn ((k.hearUna seg).rcvNxt + (k.hearUna seg).rcvWnd) < 0 := by
    rw [heq]
    exact hwnd
  have hmem : (seg.sn, seg.ts) ∈ (k.hearUna seg).acklist ++ [(seg.sn, seg.ts)] :=
    List.mem_append_right _ List.mem_cons_self
  unfold inputSeg
  unfold hearUna at hinside hmem
  generalize ({ k with rmtWnd := seg.wnd.toUInt32 }.parseUna seg.una).shrinkBuf = k' at *
  simp only [hcmd, hinside, if_true]
  split
  · exact (notes_parseData _ seg).acks hmem
  · exact hmem

/-! A datagram. -/

theorem inputSegs_acks (k : Ikcp) (maxack : Option UInt32) (segs : List IkcpSeg) :
    k.acklist ⊆ (k.inputSegs maxack segs).1.acklist := by
  induction segs generalizing k maxack with
  | nil => exact List.Subset.refl _
  | cons seg segs ih => exact List.Subset.trans (inputSeg_acks k maxack seg.arrived) (ih _ _)

theorem inputSegs_asked (maxack : Option UInt32) {segs : List IkcpSeg}
    (h : k.Asked ∨ ∃ seg ∈ segs, seg.cmd = .wask) : (k.inputSegs maxack segs).1.Asked := by
  induction segs generalizing k maxack with
  | nil =>
    rcases h with hasked | ⟨seg, hseg, -⟩
    · exact hasked
    · cases hseg
  | cons seg segs ih =>
    refine ih (k := (k.inputSeg maxack seg.arrived).1) (k.inputSeg maxack seg.arrived).2 ?_
    rcases h with hasked | ⟨other, hother, hwask⟩
    · exact Or.inl (inputSeg_asked maxack (Or.inl hasked))
    · rcases List.mem_cons.mp hother with rfl | htail
      · exact Or.inl (inputSeg_asked maxack (Or.inr hwask))
      · exact Or.inr ⟨other, htail, hwask⟩

theorem inputSegs_rmtWnd (k : Ikcp) (maxack : Option UInt32) {segs : List IkcpSeg} {wnd : UInt16}
    (hne : segs ≠ []) (h : ∀ seg ∈ segs, seg.wnd = wnd) :
    (k.inputSegs maxack segs).1.rmtWnd = wnd.toUInt32 := by
  induction segs generalizing k maxack with
  | nil => exact absurd rfl hne
  | cons seg segs ih =>
    rcases List.eq_nil_or_concat segs with rfl | ⟨init, last, hsegs⟩
    · rw [← h seg List.mem_cons_self]
      exact inputSeg_rmtWnd k maxack seg.arrived
    · exact ih _ _ (by simp [hsegs]) fun s hs => h s (List.mem_cons_of_mem seg hs)

theorem notes_inputDone (una : UInt32) (k : Ikcp) (maxack : Option UInt32) :
    k.Notes (inputDone una k maxack) := by
  have grow : ∀ k' : Ikcp, k'.Notes (if 0 < itimediff k'.sndUna una then k'.growCwnd else k') := by
    intro k'
    split
    · obtain ⟨cwnd, incr, heq⟩ := k'.growCwnd_cases
      rw [heq]
      exact .of_eq rfl rfl rfl
    · exact .refl k'
  rcases maxack with _ | sn
  · exact grow k
  · have hfast : k.Notes (k.parseFastack sn) := by
      unfold parseFastack
      split
      · exact .refl k
      · exact .of_eq rfl rfl rfl
    exact hfast.trans (grow _)

theorem input_asked {conv : ℕ} {segs : List IkcpSeg} (hsend : Sendable conv segs)
    (h : ∃ seg ∈ segs, seg.cmd = .wask) : (k.input conv (datagram segs)).1.Asked := by
  obtain ⟨seg, hseg, hwask⟩ := h
  rw [input_datagram hsend (List.ne_nil_of_mem hseg)]
  exact (notes_inputDone _ _ _).asked (inputSegs_asked none (Or.inr ⟨seg, hseg, hwask⟩))

theorem input_rmtWnd {conv : ℕ} {segs : List IkcpSeg} (hsend : Sendable conv segs)
    (hne : segs ≠ []) {wnd : UInt16} (h : ∀ seg ∈ segs, seg.wnd = wnd) :
    (k.input conv (datagram segs)).1.rmtWnd = wnd.toUInt32 := by
  rw [input_datagram hsend hne]
  exact (notes_inputDone _ _ _).rmtWnd.trans (inputSegs_rmtWnd k none hne h)

end Notes

section Synced
variable {conv : ℕ} {data acks : Set (Statement Content)} {offered read : List Content} {k : Ikcp}

/-- A data segment that is expected, or was expected before, is to be acknowledged. -/
theorem Synced.input_acks (h : Synced conv offered read k) (hlimit : offered.length < serialLimit)
    (hacks : ∀ n, .upto n ∈ acks → n < 2 ^ 31) (hdata : ∀ n a, .data n a ∈ data → n < serialLimit)
    {segs : List IkcpSeg} (hsendable : Sendable conv segs)
    (hears : ∀ seg ∈ segs, Hears data acks seg.arrived) {seg : IkcpSeg} (hseg : seg ∈ segs)
    (hcmd : seg.cmd = .push) (hpast : seg.sn.toNat ≤ k.rcvNxt.toNat) :
    (seg.sn, seg.ts) ∈ (k.input conv (datagram segs)).1.acklist := by
  have hlim : serialLimit = 2 ^ 31 - 128 := rfl
  rw [input_datagram hsendable (List.ne_nil_of_mem hseg)]
  obtain ⟨before, after, rfl⟩ := List.append_of_mem hseg
  have hsplit : k.inputSegs none (before ++ seg :: after) =
      ((k.inputSegs none before).1.inputSeg (k.inputSegs none before).2 seg.arrived).1.inputSegs
        ((k.inputSegs none before).1.inputSeg (k.inputSegs none before).2 seg.arrived).2 after := by
    unfold inputSegs
    rw [List.foldl_append, List.foldl_cons]
  rw [hsplit]
  refine (notes_inputDone _ _ _).acks (inputSegs_acks _ _ _ (inputSeg_push _ hcmd ?_))
  -- the window has not moved back
  have hmoves : Moves conv (Hears data acks) k (k.inputSegs none before).1 :=
    moves_inputSegs (fun s hs => hears s (List.mem_append_left _ hs)) k none
  obtain ⟨hsynced, -, hreceives⟩ := h.moves hlimit hacks hdata hmoves
  have hgrows := (released_steps hreceives).length_le
  have hwnd := hsynced.bounded.windows.2
  have hold : k.rcvNxt.toNat = (k.incoming.receiver read).released.length := h.receiving.nxt
  have hnew := hsynced.receiving.nxt
  have hnear := hsynced.receiving.near
  change (k.inputSegs none before).1.rcvNxt.toNat =
    ((k.inputSegs none before).1.incoming.receiver read).released.length at hnew
  change (k.inputSegs none before).1.rcvNxt.toNat ≤ serialLimit at hnear
  rw [hwnd]
  generalize (k.inputSegs none before).1.rcvNxt = nxt at hnew hnear ⊢
  have hend : (nxt + 128).toNat = nxt.toNat + 128 := by
    rw [UInt32.toNat_add]
    change (nxt.toNat + 128) % 2 ^ 32 = _
    omega
  have hsn := ahead_zero seg.sn
  have hlast := ahead_zero (nxt + 128)
  have hdiff : itimediff seg.sn (nxt + 128) = (ahead 0 seg.sn : ℤ) - ahead 0 (nxt + 128) :=
    itimediff_ahead (by omega) (by omega)
  change itimediff seg.sn (nxt + 128) < 0
  omega

end Synced

/-! What is said. -/

section Flush
variable (conv : ℕ) {k : Ikcp}

theorem probed_cases (k : Ikcp) : ∃ tsProbe probeWait,
    k.probed = { k with acklist := [], probe := 0, tsProbe, probeWait } := by
  obtain ⟨probe, tsProbe, probeWait, heq⟩ := k.probeWindow_cases
  unfold probed
  rw [heq]
  exact ⟨_, _, rfl⟩

theorem decideSeg_wnd {resent rtomin : UInt32} {seg : IkcpSeg} {reason : Reason}
    (h : (k.decideSeg resent rtomin seg).2 = some reason) :
    (k.decideSeg resent rtomin seg).1.wnd = k.wndUnused := by
  unfold decideSeg at h ⊢
  split
  · rfl
  · split
    · rfl
    · split
      · rfl
      · rename_i hfirst htimeout hfast
        simp only [hfirst, htimeout, hfast, if_false] at h
        cases h

theorem flushSent_wnd {conv : ℕ} {seg : IkcpSeg} (h : seg ∈ k.flushSent conv) :
    seg.wnd = k.wndUnused := by
  rcases List.mem_append.mp h with hcontrol | hdata
  · obtain ⟨cmd, sn, ts, rfl, -, -⟩ := exists_controlSeg hcontrol
    rfl
  · obtain ⟨sent, -, heq⟩ := List.mem_filterMap.mp hdata
    obtain ⟨reason, hreason, rfl⟩ := Option.map_eq_some_iff.mp heq
    obtain ⟨tsProbe, probeWait, hprobed⟩ := k.probed_cases
    have hready : (k.flushReady conv).wndUnused = k.wndUnused := by
      unfold flushReady
      rw [hprobed]
      rfl
    rw [← hready]
    exact decideSeg_wnd hreason

theorem flush_cases (hupdated : k.updated = true) : ∃ ssthresh cwnd incr, (k.flush conv).1 =
    { k.flushReady conv with
      sndBuf := (k.flushReady conv).sndBuf.map fun seg => ((k.flushReady conv).flushSeg seg).1
      ssthresh, cwnd, incr } := by
  obtain ⟨ssthresh, cwnd, incr, heq, -, -⟩ := adjustCwnd_cases
    { k.flushReady conv with
      sndBuf := (k.flushReady conv).sndBuf.map fun seg => ((k.flushReady conv).flushSeg seg).1 }
    k.probed.flushWindow (k.flushReady conv).resent
    ((k.flushReady conv).sndBuf.filterMap fun seg => ((k.flushReady conv).flushSeg seg).2)
  rw [flush_eq conv hupdated]
  exact ⟨ssthresh, cwnd, incr, heq⟩

theorem flush_rmtWnd (hupdated : k.updated = true) : (k.flush conv).1.rmtWnd = k.rmtWnd := by
  obtain ⟨ssthresh, cwnd, incr, heq⟩ := flush_cases conv hupdated
  obtain ⟨tsProbe, probeWait, hprobed⟩ := k.probed_cases
  rw [heq]
  unfold flushReady
  rw [hprobed]

/-- Whoever has something to acknowledge, or was asked for the window, says it. -/
theorem flush_answers (h : k.acklist ≠ [] ∨ k.Asked) : k.flushSent conv ≠ [] := by
  suffices hcontrol : k.controlSegs conv ≠ [] from List.append_ne_nil_of_left_ne_nil hcontrol _
  unfold controlSegs
  rcases h with hacks | hasked
  · simp [hacks]
  · have htell : k.probeWindow.probe &&& ikcpAskTell ≠ 0 := by
      unfold probeWindow
      split
      · split
        · exact hasked
        · split
          · exact and_or_ne_zero hasked
          · exact hasked
      · exact hasked
    simp [htell]

theorem flush_asks (hwnd : k.rmtWnd = 0) (hwait : k.probeWait ≠ 0)
    (hdue : 0 ≤ itimediff k.current k.tsProbe) : ∃ seg ∈ k.flushSent conv, seg.cmd = .wask := by
  have hask : k.probeWindow.probe &&& ikcpAskSend ≠ 0 := by
    unfold probeWindow
    rw [if_pos hwnd, if_neg hwait, if_pos hdue]
    dsimp only
    rw [UInt32.or_comm]
    exact and_or_ne_zero (by decide)
  obtain ⟨sn, ts, hmem⟩ : ∃ sn ts, k.controlSeg conv .wask sn ts ∈ k.controlSegs conv := by
    unfold controlSegs
    dsimp only
    rw [if_pos hask]
    exact ⟨_, _, List.mem_append_left _ (List.mem_append_right _ List.mem_cons_self)⟩
  exact ⟨_, List.mem_append_left _ hmem, rfl⟩

theorem flush_first (hupdated : k.updated = true) {seg : IkcpSeg} {rest : List IkcpSeg}
    (hbuf : (k.flushReady conv).sndBuf = seg :: rest)
    (hdue : seg.xmit = 0 ∨ 0 ≤ itimediff k.current seg.resendts) :
    ∃ first rest, (k.flush conv).1.sndBuf = first :: rest ∧ first ∈ k.flushSent conv := by
  have hcurrent : (k.flushReady conv).current = k.current := by
    obtain ⟨tsProbe, probeWait, hprobed⟩ := k.probed_cases
    unfold flushReady
    rw [hprobed]
  obtain ⟨reason, hreason⟩ : ∃ reason, ((k.flushReady conv).flushSeg seg).2 = some reason := by
    unfold flushSeg decideSeg
    split
    · exact ⟨_, rfl⟩
    · rename_i hxmit
      rw [hcurrent, if_pos (hdue.resolve_left hxmit)]
      exact ⟨_, rfl⟩
  have hfirst := flush_sndBuf conv hupdated
  rw [hbuf, List.map_cons] at hfirst
  refine ⟨_, _, hfirst, List.mem_append_right _ ?_⟩
  refine List.mem_filterMap.mpr ⟨seg, hbuf ▸ List.mem_cons_self, ?_⟩
  rw [hreason]
  rfl

/-- When nothing is in flight, and the window is open, the next segment is numbered. -/
theorem flushReady_next (h : k.Bounded) (hbuf : k.sndBuf = []) (hqueue : k.sndQueue ≠ [])
    (hwnd : k.rmtWnd ≠ 0) :
    ∃ seg rest, (k.flushReady conv).sndBuf = seg :: rest ∧ seg.xmit = 0 := by
  obtain ⟨tsProbe, probeWait, hprobed⟩ := k.probed_cases
  obtain ⟨first, queue, hfirst⟩ := List.exists_cons_of_ne_nil hqueue
  have huna : k.sndUna = k.sndNxt := by
    have huna := h.outgoing.una
    change k.sndUna = firstSn k.sndBuf k.sndNxt at huna
    rwa [hbuf] at huna
  have hwindow : k.probed.flushWindow = min k.sndWnd k.rmtWnd := by
    have hnocwnd : k.nocwnd = true := congrArg Config.nocwnd h.config
    unfold flushWindow
    rw [hprobed]
    simp only [hnocwnd, if_true]
  have hsmall : (min k.sndWnd k.rmtWnd).toNat ≤ 128 := by
    have hle := UInt32.le_iff_toNat_le.mp (umin_le k.sndWnd k.rmtWnd).1
    rw [h.windows.1] at hle ⊢
    exact hle
  have hopen : 0 < (min k.sndWnd k.rmtWnd).toNat := by
    rw [h.windows.1]
    change 0 < (if (128 : UInt32) ≤ k.rmtWnd then 128 else k.rmtWnd).toNat
    split
    · decide
    · exact Nat.pos_of_ne_zero fun hzero => hwnd (UInt32.toNat_inj.mp hzero)
  have hroom : itimediff k.sndNxt (k.sndUna + min k.sndWnd k.rmtWnd) < 0 := by
    rw [huna, itimediff_end (by omega)]
    omega
  unfold flushReady
  dsimp only
  rw [hwindow, hprobed]
  simp only [hfirst, hbuf, moveToBuf, hroom, if_true, List.nil_append]
  exact ⟨_, _, rfl, rfl⟩

end Flush

/-! A flush at some time. -/

/-- A datagram that `ikcp_update` sends at some time. -/
structure Sends (conv : ℕ) (k : Ikcp) (now : UInt32) (segs : List IkcpSeg) : Prop where
  out : datagram segs ∈ k.outputs conv (.update now)
  sendable : Sendable conv segs
  una : ∀ seg ∈ segs, seg.una = k.rcvNxt
  wnd : ∀ seg ∈ segs, seg.wnd = k.wndUnused

section Sends
variable {conv : ℕ} {offered read : List Content} {k : Ikcp}

theorem Synced.sends (h : Synced conv offered read k) {now tsFlush : UInt32}
    (hcall : Synced conv offered read (k.call conv (.update now)))
    (hflush : k.update conv now = (k.ticked now tsFlush).flush conv) {seg : IkcpSeg}
    (hseg : seg ∈ (k.ticked now tsFlush).flushSent conv) :
    ∃ segs, k.Sends conv now segs ∧ seg ∈ segs := by
  have hticked : Synced conv offered read (k.ticked now tsFlush) :=
    ⟨⟨h.bounded.config, h.bounded.incoming, h.bounded.outgoing, h.bounded.rto,
      h.bounded.ssthresh⟩, h.sending, h.receiving⟩
  have hafter : k.call conv (.update now) = _ := congrArg Prod.fst hflush
  have hout : k.outputs conv (.update now) = _ := congrArg Prod.snd hflush
  rw [hafter] at hcall
  obtain ⟨ds, hds, hflat, hfits⟩ := hticked.bounded.flush_datagrams conv rfl
  rw [← hflat] at hseg
  obtain ⟨segs, hsegs, hmem⟩ := List.mem_flatten.mp hseg
  have hsub : ∀ s ∈ segs, s ∈ (k.ticked now tsFlush).flushSent conv := by
    rw [← hflat]
    exact fun s hs => List.mem_flatten_of_mem hsegs hs
  refine ⟨segs, ⟨?_, ?_, fun s hs => ?_, fun s hs => ?_⟩, hmem⟩
  · rw [hout, hds]
    exact List.mem_map_of_mem hsegs
  · exact (hticked.speaks hcall rfl (hfits segs hsegs).ne hsub).sendable
  · exact (mem_flushSent rfl (hsub s hs)).1
  · have hwnd := flushSent_wnd (hsub s hs)
    exact hwnd

/-- What waits is sent at some time, if it was sent before or the window is open. -/
theorem Synced.resends (h : Synced conv offered read k)
    (hcall : ∀ now, Synced conv offered read (k.call conv (.update now)))
    (hwaits : k.sndBuf ≠ [] ∨ k.sndQueue ≠ [] ∧ k.rmtWnd ≠ 0) :
    ∃ now segs first rest, k.Sends conv now segs ∧ first ∈ segs ∧
      (k.call conv (.update now)).sndBuf = first :: rest := by
  suffices hready : ∃ now tsFlush seg rest,
      k.update conv now = (k.ticked now tsFlush).flush conv ∧
        ((k.ticked now tsFlush).flushReady conv).sndBuf = seg :: rest ∧
          (seg.xmit = 0 ∨ 0 ≤ itimediff now seg.resendts) by
    obtain ⟨now, tsFlush, seg, rest, hflush, hbuf, hdue⟩ := hready
    obtain ⟨first, rest', hfirst, hsent⟩ :=
      flush_first conv (k := k.ticked now tsFlush) rfl hbuf hdue
    obtain ⟨segs, hsends, hmem⟩ := h.sends (hcall now) hflush hsent
    have hafter : k.call conv (.update now) = _ := congrArg Prod.fst hflush
    rw [← hafter] at hfirst
    exact ⟨now, segs, first, rest', hsends, hmem, hfirst⟩
  rcases hbuf : k.sndBuf with _ | ⟨seg, rest⟩
  · obtain ⟨now, tsFlush, -, hflush⟩ := exists_flush conv k 0
    obtain ⟨hqueue, hwnd⟩ := hwaits.resolve_left (not_not_intro hbuf)
    have hbounded : (k.ticked now tsFlush).Bounded :=
      ⟨h.bounded.config, h.bounded.incoming, h.bounded.outgoing, h.bounded.rto, h.bounded.ssthresh⟩
    obtain ⟨seg, rest, hnext, hxmit⟩ := flushReady_next conv hbounded hbuf hqueue hwnd
    exact ⟨now, tsFlush, seg, rest, hflush, hnext, Or.inl hxmit⟩
  · obtain ⟨now, tsFlush, hdue, hflush⟩ := exists_flush conv k seg.resendts
    obtain ⟨tsProbe, probeWait, hprobed⟩ := (k.ticked now tsFlush).probed_cases
    obtain ⟨rest', hfirst⟩ : ∃ rest',
        ((k.ticked now tsFlush).flushReady conv).sndBuf = seg :: rest' := by
      unfold flushReady
      rw [hprobed]
      exact ⟨_, congrArg (· ++ _) hbuf⟩
    exact ⟨now, tsFlush, seg, rest', hflush, hfirst, Or.inr hdue⟩

/-- A closed window is asked for at some time, or the time to ask for it is set. -/
theorem Synced.asks (h : Synced conv offered read k)
    (hcall : ∀ now, Synced conv offered read (k.call conv (.update now))) (hwnd : k.rmtWnd = 0)
    (hwait : k.probeWait ≠ 0) :
    ∃ now segs, k.Sends conv now segs ∧ ∃ seg ∈ segs, seg.cmd = .wask := by
  obtain ⟨now, tsFlush, hdue, hflush⟩ := exists_flush conv k k.tsProbe
  obtain ⟨seg, hseg, hwask⟩ := flush_asks conv (k := k.ticked now tsFlush) hwnd hwait hdue
  obtain ⟨segs, hsends, hmem⟩ := h.sends (hcall now) hflush hseg
  exact ⟨now, segs, hsends, seg, hmem, hwask⟩

theorem exists_probeWait (conv : ℕ) (hwnd : k.rmtWnd = 0) (hwait : k.probeWait = 0) : ∃ now,
    (k.call conv (.update now)).probeWait ≠ 0 ∧ (k.call conv (.update now)).rmtWnd = 0 := by
  obtain ⟨now, tsFlush, -, hflush⟩ := exists_flush conv k 0
  have hafter : k.call conv (.update now) = _ := congrArg Prod.fst hflush
  refine ⟨now, ?_, ?_⟩
  · rw [hafter]
    obtain ⟨ssthresh, cwnd, incr, heq⟩ := flush_cases conv (k := k.ticked now tsFlush) rfl
    rw [heq]
    change (k.ticked now tsFlush).probeWindow.probeWait ≠ 0
    unfold probeWindow
    rw [if_pos (show (k.ticked now tsFlush).rmtWnd = 0 from hwnd),
      if_pos (show (k.ticked now tsFlush).probeWait = 0 from hwait)]
    change ikcpProbeInit ≠ 0
    decide
  · rw [hafter, flush_rmtWnd conv rfl]
    exact hwnd

theorem Synced.answers (h : Synced conv offered read k)
    (hcall : ∀ now, Synced conv offered read (k.call conv (.update now)))
    (howes : k.acklist ≠ [] ∨ k.Asked) : ∃ now segs, k.Sends conv now segs ∧ segs ≠ [] := by
  obtain ⟨now, tsFlush, -, hflush⟩ := exists_flush conv k 0
  obtain ⟨seg, rest, hsent⟩ := List.exists_cons_of_ne_nil
    (flush_answers conv (k := k.ticked now tsFlush) howes)
  obtain ⟨segs, hsends, hmem⟩ := h.sends (hcall now) hflush (hsent ▸ List.mem_cons_self)
  exact ⟨now, segs, hsends, List.ne_nil_of_mem hmem⟩

end Sends

end KcpEv.Ikcp
