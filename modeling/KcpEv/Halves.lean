import KcpEv.IkcpCases
import KcpEv.Demux
import Mathlib.Data.List.Forall2
import Mathlib.Data.List.TakeWhile
import Mathlib.Logic.Relation

/-!
The two halves of a control block. What goes out is numbered, kept in `snd_buf` and
forgotten when the peer says so; what comes in is sorted into `rcv_buf` and moved to
`rcv_queue` in order. Every function is a sequence of small steps of the two, and
these are all they do: nothing else touches the queues and the numbers.
-/
namespace KcpEv

open Relation

/-- The fields of a segment that no retransmission changes. -/
structure IkcpSeg.Same (seg seg' : IkcpSeg) : Prop where
  conv : seg'.conv = seg.conv
  cmd : seg'.cmd = seg.cmd
  sn : seg'.sn = seg.sn
  frg : seg'.frg = seg.frg
  data : seg'.data = seg.data

theorem IkcpSeg.Same.refl (seg : IkcpSeg) : seg.Same seg := ⟨rfl, rfl, rfl, rfl, rfl⟩

instance : Std.Refl IkcpSeg.Same := ⟨IkcpSeg.Same.refl⟩

namespace Ikcp

structure Outgoing where
  una : UInt32
  nxt : UInt32
  queue : List IkcpSeg
  buf : List IkcpSeg

structure Incoming where
  nxt : UInt32
  queue : List IkcpSeg
  buf : List IkcpSeg
  acks : List (UInt32 × UInt32)

/-- What no function changes once the object is created. -/
structure Config where
  sndWnd : UInt32
  rcvWnd : UInt32
  rxMinrto : Int32
  interval : UInt32
  nodelay : Bool
  fastresend : UInt32
  nocwnd : Bool
  deriving DecidableEq

def outgoing (k : Ikcp) : Outgoing := ⟨k.sndUna, k.sndNxt, k.sndQueue, k.sndBuf⟩

def incoming (k : Ikcp) : Incoming := ⟨k.rcvNxt, k.rcvQueue, k.rcvBuf, k.acklist⟩

def config (k : Ikcp) : Config :=
  ⟨k.sndWnd, k.rcvWnd, k.rxMinrto, k.interval, k.nodelay, k.fastresend, k.nocwnd⟩

/-- The number of the first segment in flight, or the next one. -/
def firstSn (buf : List IkcpSeg) (nxt : UInt32) : UInt32 :=
  match buf with
  | [] => nxt
  | seg :: _ => seg.sn

/-- A segment from the peer says that one in flight has arrived. -/
def Settles (seg sent : IkcpSeg) : Prop :=
  0 < itimediff seg.una sent.sn ∨ (seg.cmd = .ack ∧ seg.sn = sent.sn)

/-- A step of the outgoing half; `heard` holds of the segments that come in. -/
inductive Outgoing.Step (conv : ℕ) (sndWnd : UInt32) (heard : IkcpSeg → Prop) (s : Outgoing) :
    Outgoing → Prop
  | settle {seg : IkcpSeg} {left : List IkcpSeg} (h : heard seg) (hleft : left.Sublist s.buf)
    (hrest : ∀ sent ∈ s.buf, sent ∈ left ∨ Settles seg sent) :
    Step conv sndWnd heard s { s with una := firstSn left s.nxt, buf := left }
  | number {seg newseg : IkcpSeg} {queue : List IkcpSeg} {cwnd : UInt32}
    (hqueue : s.queue = seg :: queue) (hwnd : cwnd ≤ sndWnd)
    (hroom : itimediff s.nxt (s.una + cwnd) < 0) (hconv : newseg.conv = UInt32.ofNat conv)
    (hcmd : newseg.cmd = .push) (hsn : newseg.sn = s.nxt) (hfrg : newseg.frg = seg.frg)
    (hdata : newseg.data = seg.data) :
    Step conv sndWnd heard s { s with nxt := s.nxt + 1, queue, buf := s.buf ++ [newseg] }
  | touch {buf : List IkcpSeg} (h : List.Forall₂ IkcpSeg.Same s.buf buf) :
    Step conv sndWnd heard s { s with buf }

/-- A step of the incoming half. -/
inductive Incoming.Step (rcvWnd : UInt32) (heard : IkcpSeg → Prop) (s : Incoming) :
    Incoming → Prop
  | insert {seg : IkcpSeg} {below above : List IkcpSeg} (h : heard seg) (hcmd : seg.cmd = .push)
    (hfirst : 0 ≤ itimediff seg.sn s.nxt) (hlast : itimediff seg.sn (s.nxt + rcvWnd) < 0)
    (hbuf : s.buf = below ++ above)
    (habove : ∀ other ∈ above, other.sn ≠ seg.sn ∧ ¬ 0 < itimediff seg.sn other.sn)
    (hbelow : ∀ other, below.getLast? = some other →
      other.sn ≠ seg.sn ∧ 0 < itimediff seg.sn other.sn) :
    Step rcvWnd heard s { s with buf := below ++ seg :: above }
  | note {seg : IkcpSeg} (h : heard seg) (hcmd : seg.cmd = .push)
    (hlast : itimediff seg.sn (s.nxt + rcvWnd) < 0)
    (hgot : itimediff seg.sn s.nxt < 0 ∨ ∃ other ∈ s.buf, other.sn = seg.sn) :
    Step rcvWnd heard s { s with acks := s.acks ++ [(seg.sn, seg.ts)] }
  | advance {seg : IkcpSeg} {buf : List IkcpSeg} (hbuf : s.buf = seg :: buf)
    (hsn : seg.sn = s.nxt) (hroom : s.queue.length < rcvWnd.toNat) :
    Step rcvWnd heard s { s with nxt := s.nxt + 1, queue := s.queue ++ [seg], buf }
  | clear : Step rcvWnd heard s { s with acks := [] }

/-- From one state to another by steps of the two halves. -/
structure Moves (conv : ℕ) (heard : IkcpSeg → Prop) (k k' : Ikcp) : Prop where
  config : k'.config = k.config
  outgoing : ReflTransGen (Outgoing.Step conv k.sndWnd heard) k.outgoing k'.outgoing
  incoming : ReflTransGen (Incoming.Step k.rcvWnd heard) k.incoming k'.incoming
  rto : k'.rxRto = k.rxRto ∨
    ∃ rto, k'.rxRto = (ibound k.rxMinrto.toUInt32 rto ikcpRtoMax).toInt32
  ssthresh : k'.ssthresh = k.ssthresh ∨ ikcpThreshMin ≤ k'.ssthresh

theorem Moves.refl {conv : ℕ} {heard : IkcpSeg → Prop} (k : Ikcp) : Moves conv heard k k :=
  ⟨rfl, .refl, .refl, .inl rfl, .inl rfl⟩

theorem Moves.trans {conv : ℕ} {heard : IkcpSeg → Prop} {k k' k'' : Ikcp}
    (h : Moves conv heard k k') (h' : Moves conv heard k' k'') : Moves conv heard k k'' := by
  have hsnd : k'.sndWnd = k.sndWnd := congrArg Config.sndWnd h.config
  have hrcv : k'.rcvWnd = k.rcvWnd := congrArg Config.rcvWnd h.config
  have hminrto : k'.rxMinrto = k.rxMinrto := congrArg Config.rxMinrto h.config
  have houtgoing := h'.outgoing
  have hincoming := h'.incoming
  have hrto := h'.rto
  rw [hsnd] at houtgoing
  rw [hrcv] at hincoming
  rw [hminrto] at hrto
  refine ⟨h'.config.trans h.config, h.outgoing.trans houtgoing, h.incoming.trans hincoming, ?_, ?_⟩
  · rcases hrto with hsame | hbound
    · rw [hsame]
      exact h.rto
    · exact Or.inr hbound
  · rcases h'.ssthresh with hsame | hbound
    · rw [hsame]
      exact h.ssthresh
    · exact Or.inr hbound

/-! What the peer says about the segments in flight. -/

section Input
variable {conv : ℕ} {heard : IkcpSeg → Prop} {k : Ikcp} {seg : IkcpSeg}

theorem shrinkBuf_eq (k : Ikcp) : k.shrinkBuf = { k with sndUna := firstSn k.sndBuf k.sndNxt } := by
  unfold shrinkBuf firstSn
  split
  · rename_i h
    rw [h]
  · rename_i h
    rw [h]

theorem mem_dropWhile {p : IkcpSeg → Bool} {segs : List IkcpSeg} {s : IkcpSeg} (h : s ∈ segs) :
    s ∈ segs.dropWhile p ∨ p s = true := by
  rw [← List.takeWhile_append_dropWhile (p := p) (l := segs)] at h
  rcases List.mem_append.mp h with htake | hdrop
  · exact Or.inr (List.mem_takeWhile_imp htake)
  · exact Or.inl hdrop

theorem eraseAcked_sublist (sn : UInt32) (segs : List IkcpSeg) :
    (eraseAcked sn segs).Sublist segs := by
  induction segs with
  | nil => exact List.Sublist.refl _
  | cons s segs ih =>
    unfold eraseAcked
    split
    · exact List.sublist_cons_self _ _
    · split
      · exact List.Sublist.refl _
      · exact ih.cons_cons s

theorem mem_eraseAcked_or {sn : UInt32} {segs : List IkcpSeg} {s : IkcpSeg} (h : s ∈ segs) :
    s ∈ eraseAcked sn segs ∨ sn = s.sn := by
  induction segs with
  | nil => cases h
  | cons t segs ih =>
    unfold eraseAcked
    split
    · rename_i heq
      rcases List.mem_cons.mp h with rfl | htail
      · exact Or.inr heq
      · exact Or.inl htail
    · split
      · exact Or.inl h
      · rcases List.mem_cons.mp h with rfl | htail
        · exact Or.inl List.mem_cons_self
        · exact (ih htail).imp (List.mem_cons_of_mem t) id

theorem moves_parseUna (h : heard seg) (k : Ikcp) :
    Moves conv heard k (k.parseUna seg.una).shrinkBuf := by
  rw [shrinkBuf_eq]
  refine ⟨rfl, .single (.settle h (List.dropWhile_sublist _) ?_), .refl, .inl rfl, .inl rfl⟩
  intro sent hsent
  rcases mem_dropWhile (p := fun s => 0 < itimediff seg.una s.sn) hsent with hleft | hpast
  · exact Or.inl hleft
  · exact Or.inr (Or.inl (of_decide_eq_true hpast))

theorem moves_parseAck (h : heard seg) (hcmd : seg.cmd = .ack) (k : Ikcp) :
    Moves conv heard k (k.parseAck seg.sn).shrinkBuf := by
  rw [shrinkBuf_eq]
  unfold parseAck
  split
  · refine ⟨rfl, .single (.settle h (List.Sublist.refl _) fun sent hsent => Or.inl hsent), .refl,
      .inl rfl, .inl rfl⟩
  · refine ⟨rfl, .single (.settle h (eraseAcked_sublist _ _) ?_), .refl, .inl rfl, .inl rfl⟩
    intro sent hsent
    exact (mem_eraseAcked_or hsent).imp id fun heq => Or.inr ⟨hcmd, heq⟩

theorem moves_updateAck (k : Ikcp) (rtt : Int32) : Moves conv heard k (k.updateAck rtt) :=
  ⟨rfl, .refl, .refl, .inr ⟨_, rfl⟩, .inl rfl⟩

theorem countFastack_same (sn : UInt32) (segs : List IkcpSeg) :
    List.Forall₂ IkcpSeg.Same segs (countFastack sn segs) := by
  induction segs with
  | nil => exact .nil
  | cons s segs ih =>
    unfold countFastack
    split
    · exact List.forall₂_refl _
    · refine .cons ?_ ih
      split
      · exact .refl s
      · exact ⟨rfl, rfl, rfl, rfl, rfl⟩

/-- `ikcp_parse_fastack` counts, and changes nothing else. -/
theorem moves_parseFastack (k : Ikcp) (sn : UInt32) : Moves conv heard k (k.parseFastack sn) := by
  unfold parseFastack
  split
  · exact .refl k
  · exact ⟨rfl, .single (.touch (countFastack_same sn _)), .refl, .inl rfl, .inl rfl⟩

/-! What the peer sends. -/

/-- The first segments of `rcv_buf` are moved one after the other, as long as they
are the next ones and there is room. -/
theorem moves_moveAvailable (rcvWnd : UInt32) (s : Incoming) :
    ReflTransGen (Incoming.Step rcvWnd heard) s
      { s with
        nxt := (moveAvailable rcvWnd s.buf s.queue s.nxt).2.2
        queue := (moveAvailable rcvWnd s.buf s.queue s.nxt).2.1
        buf := (moveAvailable rcvWnd s.buf s.queue s.nxt).1 } := by
  obtain ⟨nxt, queue, buf, acks⟩ := s
  induction buf generalizing nxt queue with
  | nil => exact .refl
  | cons s buf ih =>
    unfold moveAvailable
    by_cases hnext : s.sn = nxt ∧ queue.length < rcvWnd.toNat
    · simp only [hnext, and_self, if_true]
      have hadvance : Incoming.Step rcvWnd heard ⟨nxt, queue, s :: buf, acks⟩
          ⟨nxt + 1, queue ++ [s], buf, acks⟩ := .advance rfl hnext.1 hnext.2
      exact .head hadvance (ih _ _)
    · simp only [hnext, if_false]
      exact .refl

theorem moves_fillQueue (k : Ikcp) : Moves conv heard k k.fillQueue :=
  ⟨rfl, .refl, moves_moveAvailable k.rcvWnd k.incoming, .inl rfl, .inl rfl⟩

/-- The walk of `ikcp_parse_data` from the end of `rcv_buf`. -/
theorem insertRev_cases (newseg : IkcpSeg) (segs : List IkcpSeg) :
    (insertRev newseg segs = none ∧ ∃ seg ∈ segs, seg.sn = newseg.sn) ∨
      ∃ above below, segs = above ++ below ∧
        insertRev newseg segs = some (above ++ newseg :: below) ∧
        (∀ seg ∈ above, seg.sn ≠ newseg.sn ∧ ¬ 0 < itimediff newseg.sn seg.sn) ∧
        ∀ seg, below.head? = some seg → seg.sn ≠ newseg.sn ∧ 0 < itimediff newseg.sn seg.sn := by
  induction segs with
  | nil => exact Or.inr ⟨[], [], rfl, rfl, List.forall_mem_nil _, fun _ h => by cases h⟩
  | cons seg segs ih =>
    unfold insertRev
    by_cases hsame : seg.sn = newseg.sn
    · rw [if_pos hsame]
      exact Or.inl ⟨rfl, seg, List.mem_cons_self, hsame⟩
    · rw [if_neg hsame]
      by_cases hless : 0 < itimediff newseg.sn seg.sn
      · rw [if_pos hless]
        refine Or.inr ⟨[], seg :: segs, rfl, rfl, List.forall_mem_nil _, ?_⟩
        intro s hs
        cases hs
        exact ⟨hsame, hless⟩
      · rw [if_neg hless]
        rcases ih with ⟨hnone, s, hs, heq⟩ | ⟨above, below, rfl, hsome, habove, hbelow⟩
        · rw [hnone]
          exact Or.inl ⟨rfl, s, List.mem_cons_of_mem seg hs, heq⟩
        · rw [hsome]
          exact Or.inr ⟨seg :: above, below, rfl, rfl,
            List.forall_mem_cons.mpr ⟨⟨hsame, hless⟩, habove⟩, hbelow⟩

/-- What `ikcp_parse_data` does to `rcv_buf` when the segment is in the window. -/
theorem insert_cases (newseg : IkcpSeg) (buf : List IkcpSeg) :
    (((insertRev newseg buf.reverse).map List.reverse).getD buf = buf ∧
        ∃ seg ∈ buf, seg.sn = newseg.sn) ∨
      ∃ below above, buf = below ++ above ∧
        ((insertRev newseg buf.reverse).map List.reverse).getD buf = below ++ newseg :: above ∧
        (∀ seg ∈ above, seg.sn ≠ newseg.sn ∧ ¬ 0 < itimediff newseg.sn seg.sn) ∧
        ∀ seg, below.getLast? = some seg → seg.sn ≠ newseg.sn ∧ 0 < itimediff newseg.sn seg.sn := by
  rcases insertRev_cases newseg buf.reverse with
    ⟨hnone, seg, hseg, heq⟩ | ⟨above, below, hbuf, hsome, habove, hbelow⟩
  · rw [hnone]
    exact Or.inl ⟨rfl, seg, List.mem_reverse.mp hseg, heq⟩
  · rw [hsome]
    refine Or.inr ⟨below.reverse, above.reverse, ?_, ?_, ?_, ?_⟩
    · rw [← List.reverse_append, ← hbuf, List.reverse_reverse]
    · rw [Option.map_some, Option.getD_some, List.reverse_append, List.reverse_cons,
        List.append_assoc, List.singleton_append]
    · exact fun seg hseg => habove seg (List.mem_reverse.mp hseg)
    · intro seg hseg
      rw [List.getLast?_reverse] at hseg
      exact hbelow seg hseg

/-- A segment that carries data is acknowledged, and kept if it is new. -/
theorem moves_push (h : heard seg) (hcmd : seg.cmd = .push) (k : Ikcp)
    (hlast : itimediff seg.sn (k.rcvNxt + k.rcvWnd) < 0) :
    Moves conv heard k (if 0 ≤ itimediff seg.sn k.rcvNxt then
      { k with acklist := k.acklist ++ [(seg.sn, seg.ts)] }.parseData seg
    else { k with acklist := k.acklist ++ [(seg.sn, seg.ts)] }) := by
  by_cases hfirst : 0 ≤ itimediff seg.sn k.rcvNxt
  · have hinside : ¬ (0 ≤ itimediff seg.sn (k.rcvNxt + k.rcvWnd) ∨
        itimediff seg.sn k.rcvNxt < 0) := by omega
    rw [if_pos hfirst]
    unfold parseData
    simp only [hinside, if_false]
    refine .trans ?_ (moves_fillQueue _)
    -- the new segment is in the buffer when its acknowledgement is noted
    rcases insert_cases seg k.rcvBuf with ⟨hsame, hdup⟩ | ⟨below, above, hbuf, hnew, habove, hbelow⟩
    · rw [hsame]
      exact ⟨rfl, .refl, .single (.note h hcmd hlast (Or.inr hdup)), .inl rfl, .inl rfl⟩
    · rw [hnew]
      have hinsert : Incoming.Step k.rcvWnd heard k.incoming
          { k.incoming with buf := below ++ seg :: above } :=
        .insert h hcmd hfirst hlast hbuf habove hbelow
      have hgot : ∃ other ∈ below ++ seg :: above, other.sn = seg.sn :=
        ⟨seg, List.mem_append_right _ List.mem_cons_self, rfl⟩
      exact ⟨rfl, .refl, .tail (.single hinsert) (.note h hcmd hlast (Or.inr hgot)), .inl rfl,
        .inl rfl⟩
  · rw [if_neg hfirst]
    exact ⟨rfl, .refl, .single (.note h hcmd hlast (Or.inl (Int.not_le.mp hfirst))), .inl rfl,
      .inl rfl⟩

theorem moves_inputSeg (h : heard seg) (k : Ikcp) (maxack : Option UInt32) :
    Moves conv heard k (k.inputSeg maxack seg).1 := by
  have hwnd : Moves conv heard k { k with rmtWnd := seg.wnd.toUInt32 } :=
    ⟨rfl, .refl, .refl, .inl rfl, .inl rfl⟩
  have huna : Moves conv heard k
      ({ k with rmtWnd := seg.wnd.toUInt32 }.parseUna seg.una).shrinkBuf :=
    hwnd.trans (moves_parseUna h _)
  unfold inputSeg
  generalize ({ k with rmtWnd := seg.wnd.toUInt32 }.parseUna seg.una).shrinkBuf = k' at huna ⊢
  refine huna.trans ?_
  rcases hcmd : seg.cmd with _ | _ | _ | _
  · simp only
    split
    · rename_i hlast
      have hpush : Moves conv heard k' _ := moves_push h hcmd k' hlast
      split
      · rename_i hfirst
        rwa [if_pos hfirst] at hpush
      · rename_i hfirst
        rwa [if_neg hfirst] at hpush
    · exact .refl k'
  · have hrtt : Moves conv heard k' (if 0 ≤ itimediff k'.current seg.ts then
        k'.updateAck (k'.current - seg.ts).toInt32 else k') := by
      split
      · exact moves_updateAck _ _
      · exact .refl k'
    have hack := hrtt.trans (moves_parseAck h hcmd _)
    rcases maxack with _ | sn
    · exact hack
    · exact hack
  · exact ⟨rfl, .refl, .refl, .inl rfl, .inl rfl⟩
  · exact .refl k'

theorem moves_inputSegs {segs : List IkcpSeg} (h : ∀ seg ∈ segs, heard seg.arrived) (k : Ikcp)
    (maxack : Option UInt32) : Moves conv heard k (k.inputSegs maxack segs).1 := by
  induction segs generalizing k maxack with
  | nil => exact .refl k
  | cons seg segs ih =>
    have hseg : Moves conv heard k _ := moves_inputSeg (h seg List.mem_cons_self) k maxack
    exact hseg.trans (ih (fun s hs => h s (List.mem_cons_of_mem seg hs)) _ _)

/-- Whatever the bytes are. -/
theorem moves_inputLoop (k : Ikcp) (maxack : Option UInt32) (data : Bytes) :
    Moves conv (fun _ => True) k (k.inputLoop conv maxack data).1 := by
  fun_induction inputLoop conv k maxack data with
  | case1 => exact .refl _
  | case2 => exact .refl _
  | case3 => exact .refl _
  | case4 => exact .refl _
  | case5 k maxack data _ _ len _ cmd _ k' maxack' hseg ih =>
    have hmoves : Moves conv (fun _ => True) k (k.inputSeg maxack (decodeSeg cmd data len)).1 :=
      moves_inputSeg trivial k maxack
    rw [hseg] at hmoves
    exact hmoves.trans ih

theorem moves_growCwnd (k : Ikcp) : Moves conv heard k k.growCwnd := by
  obtain ⟨cwnd, incr, heq⟩ := k.growCwnd_cases
  rw [heq]
  exact ⟨rfl, .refl, .refl, .inl rfl, .inl rfl⟩

theorem moves_inputDone (una : UInt32) (k : Ikcp) (maxack : Option UInt32) :
    Moves conv heard k (inputDone una k maxack) := by
  have grow : ∀ k' : Ikcp, Moves conv heard k' (if 0 < itimediff k'.sndUna una then k'.growCwnd
      else k') := by
    intro k'
    split
    · exact moves_growCwnd k'
    · exact .refl k'
  rcases maxack with _ | sn
  · exact grow k
  · exact (moves_parseFastack k sn).trans (grow _)

theorem moves_input (k : Ikcp) (data : Bytes) :
    Moves conv (fun _ => True) k (k.input conv data).1 := by
  unfold input
  split
  · exact .refl k
  · have hloop : Moves conv (fun _ => True) k _ := moves_inputLoop k none data
    rcases hr : k.inputLoop conv none data with ⟨k', maxack, ret⟩
    rw [hr] at hloop
    dsimp only
    split
    · exact hloop
    · exact hloop.trans (moves_inputDone k.sndUna k' maxack)

theorem moves_datagram {segs : List IkcpSeg} (hsend : Sendable conv segs) (hne : segs ≠ [])
    (h : ∀ seg ∈ segs, heard seg.arrived) (k : Ikcp) :
    Moves conv heard k (k.input conv (datagram segs)).1 := by
  rw [input_datagram hsend hne]
  exact (moves_inputSegs h k none).trans (moves_inputDone _ _ _)

end Input

/-! What is sent. -/

section Flush
variable {conv : ℕ} {heard : IkcpSeg → Prop}

theorem decideSeg_same (k : Ikcp) (resent rtomin : UInt32) (seg : IkcpSeg) :
    seg.Same (k.decideSeg resent rtomin seg).1 := by
  unfold decideSeg
  split
  · exact ⟨rfl, rfl, rfl, rfl, rfl⟩
  · split
    · exact ⟨rfl, rfl, rfl, rfl, rfl⟩
    · split
      · exact ⟨rfl, rfl, rfl, rfl, rfl⟩
      · exact .refl seg

theorem umin_le (a b : UInt32) : min a b ≤ a ∧ min a b ≤ b := by
  change (if a ≤ b then a else b) ≤ a ∧ (if a ≤ b then a else b) ≤ b
  split
  · rename_i h
    exact ⟨UInt32.le_refl a, h⟩
  · rename_i h
    exact ⟨UInt32.le_of_lt (UInt32.not_le.mp h), UInt32.le_refl b⟩

theorem flushWindow_le (k : Ikcp) : k.flushWindow ≤ k.sndWnd := by
  unfold flushWindow
  dsimp only
  split
  · exact (umin_le _ _).1
  · exact UInt32.le_trans (umin_le _ _).2 (umin_le _ _).1

/-- Segments of `snd_queue` are numbered as long as there is room in the window. -/
theorem moves_moveToBuf (k : Ikcp) {cwnd : UInt32} (hcwnd : cwnd ≤ k.sndWnd) (s : Outgoing) :
    ReflTransGen (Outgoing.Step conv k.sndWnd heard) s
      { s with
        nxt := (moveToBuf conv k (s.una + cwnd) s.queue s.nxt).2.2
        queue := (moveToBuf conv k (s.una + cwnd) s.queue s.nxt).2.1
        buf := s.buf ++ (moveToBuf conv k (s.una + cwnd) s.queue s.nxt).1 } := by
  obtain ⟨una, nxt, queue, buf⟩ := s
  induction queue generalizing nxt buf with
  | nil =>
    simp only [moveToBuf, List.append_nil]
    exact .refl
  | cons seg queue ih =>
    unfold moveToBuf
    by_cases hroom : itimediff nxt (una + cwnd) < 0
    · simp only [hroom, if_true]
      rw [List.append_cons]
      refine .head ?_ (ih _ _)
      exact .number rfl hcwnd hroom rfl rfl rfl rfl rfl
    · simp only [hroom, if_false, List.append_nil]
      exact .refl

theorem moves_probed (k : Ikcp) : Moves conv heard k k.probed := by
  obtain ⟨probe, tsProbe, probeWait, heq⟩ := k.probeWindow_cases
  unfold probed
  rw [heq]
  exact ⟨rfl, .refl, .single .clear, .inl rfl, .inl rfl⟩

theorem moves_flushReady (k : Ikcp) : Moves conv heard k (k.flushReady conv) := by
  refine (moves_probed k).trans ?_
  exact ⟨rfl, moves_moveToBuf k.probed k.probed.flushWindow_le k.probed.outgoing, .refl, .inl rfl,
    .inl rfl⟩

theorem moves_adjustCwnd (k : Ikcp) (cwnd resent : UInt32) (reasons : List Reason) :
    Moves conv heard k (k.adjustCwnd cwnd resent reasons) := by
  obtain ⟨ssthresh, cwnd', incr, heq, -, hss⟩ := k.adjustCwnd_cases cwnd resent reasons
  rw [heq]
  exact ⟨rfl, .refl, .refl, .inl rfl, hss⟩

theorem moves_flush (k : Ikcp) : Moves conv heard k (k.flush conv).1 := by
  by_cases hupdated : k.updated
  · rw [flush_eq conv hupdated]
    refine (moves_flushReady k).trans (.trans ?_ (moves_adjustCwnd _ _ _ _))
    refine ⟨rfl, .single (.touch ?_), .refl, .inl rfl, .inl rfl⟩
    exact List.forall₂_map_right_iff.mpr
      (List.forall₂_same.mpr fun seg _ => decideSeg_same _ _ _ seg)
  · unfold flush
    rw [if_pos hupdated]
    exact .refl k

theorem moves_update (k : Ikcp) (now : UInt32) : Moves conv heard k (k.update conv now).1 := by
  have hclock : ∀ tsFlush, Moves conv heard k
      { k with current := now, updated := true, tsFlush } :=
    fun _ => ⟨rfl, .refl, .refl, .inl rfl, .inl rfl⟩
  obtain ⟨tsFlush, heq | heq⟩ := update_cases conv k now
  · rw [heq]
    exact hclock tsFlush
  · rw [heq]
    exact (hclock tsFlush).trans (moves_flush _)

end Flush

/-! Messages. -/

/-- The segments of the first message of `rcv_queue`. -/
def firstMessage : List IkcpSeg → List IkcpSeg
  | [] => []
  | seg :: rest => if seg.frg = 0 then [seg] else seg :: firstMessage rest

theorem mergeFragments_eq (queue : List IkcpSeg) : ∃ rest, queue = firstMessage queue ++ rest ∧
    mergeFragments queue = ((firstMessage queue).flatMap fun seg => seg.data, rest) := by
  induction queue with
  | nil => exact ⟨[], rfl, rfl⟩
  | cons seg queue ih =>
    unfold firstMessage mergeFragments
    by_cases hlast : seg.frg = 0
    · rw [if_pos hlast, if_pos hlast]
      exact ⟨queue, rfl, by simp⟩
    · obtain ⟨rest, hqueue, hmerge⟩ := ih
      rw [if_neg hlast, if_neg hlast, hmerge]
      exact ⟨rest, congrArg (seg :: ·) hqueue, rfl⟩

/-- `ikcp_recv` takes the first message out of the queue, or nothing. -/
theorem recv_cases (conv : ℕ) (heard : IkcpSeg → Prop) (k : Ikcp) (len : ℕ) :
    k.recv len = (k, none) ∨ ∃ rest k', k.rcvQueue = firstMessage k.rcvQueue ++ rest ∧
      k.peeksize.isSome ∧ Moves conv heard { k with rcvQueue := rest } k' ∧
      k.recv len = (k', some ((firstMessage k.rcvQueue).flatMap fun seg => seg.data)) := by
  unfold recv
  rcases hpeek : k.peeksize with _ | size
  · exact Or.inl rfl
  · dsimp only
    by_cases hlong : len < size
    · rw [if_pos hlong]
      exact Or.inl rfl
    · obtain ⟨rest, hqueue, hmerge⟩ := mergeFragments_eq k.rcvQueue
      rw [if_neg hlong, hmerge]
      have hfill : Moves conv heard { k with rcvQueue := rest } _ := moves_fillQueue _
      refine Or.inr ⟨rest, _, hqueue, rfl, ?_, rfl⟩
      refine hfill.trans ?_
      dsimp only
      split
      · exact ⟨rfl, .refl, .refl, .inl rfl, .inl rfl⟩
      · exact .refl _

theorem send_cases (k : Ikcp) (buffer : Bytes) :
    k.send buffer = (k, -2) ∨ fragmentCount buffer.length ≤ 255 ∧ k.send buffer =
      ({ k with sndQueue := k.sndQueue ++ fragment (fragmentCount buffer.length) buffer }, 0) := by
  unfold send
  dsimp only
  split
  · exact Or.inl rfl
  · rename_i hcount
    exact Or.inr ⟨Nat.not_lt.mp hcount, rfl⟩

end Ikcp

end KcpEv
