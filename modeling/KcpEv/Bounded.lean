import KcpEv.Halves
import KcpEv.KcpMessages
import KcpEv.Serial

/-!
Whatever a peer sends, the buffers of a control block stay within their windows. The
numbers in them are in order, seen from the first one that is missing, and the
estimate of the retransmission time stays between its bounds.
-/
namespace KcpEv.Ikcp

open Relation

/-- Numbers in ascending order, seen from a base. -/
def Ascending (base : UInt32) (sns : List UInt32) : Prop :=
  sns.Pairwise fun x y => ahead base x < ahead base y

theorem Ascending.length_le {base : UInt32} {sns : List UInt32} (h : Ascending base sns) {n : ℕ}
    (hlt : ∀ x ∈ sns, ahead base x < n) : sns.length ≤ n := by
  have hnodup : (sns.map (ahead base)).Nodup :=
    List.pairwise_map.mpr (h.imp fun hxy => Nat.ne_of_lt hxy)
  have hsub : sns.map (ahead base) ⊆ List.range n := by
    intro m hm
    obtain ⟨x, hx, rfl⟩ := List.mem_map.mp hm
    exact List.mem_range.mpr (hlt x hx)
  have hlen := (hnodup.subperm hsub).length_le
  rwa [List.length_map, List.length_range] at hlen

def sns (segs : List IkcpSeg) : List UInt32 := segs.map fun seg => seg.sn

theorem mem_sns {segs : List IkcpSeg} {x : UInt32} : x ∈ sns segs ↔ ∃ seg ∈ segs, seg.sn = x :=
  List.mem_map

/-! The incoming half. -/

structure Incoming.Ok (rcvWnd : UInt32) (s : Incoming) : Prop where
  queue : s.queue.length ≤ rcvWnd.toNat
  sorted : Ascending s.nxt (sns s.buf)
  near : ∀ x ∈ sns s.buf, ahead s.nxt x < rcvWnd.toNat

section Incoming
variable {rcvWnd : UInt32} {heard : IkcpSeg → Prop} {s s' : Incoming}

theorem Incoming.Ok.insert (h : s.Ok rcvWnd) (hwnd : rcvWnd.toNat < 2 ^ 31) {seg : IkcpSeg}
    {below above : List IkcpSeg} (hfirst : 0 ≤ itimediff seg.sn s.nxt)
    (hlast : itimediff seg.sn (s.nxt + rcvWnd) < 0) (hbuf : s.buf = below ++ above)
    (habove : ∀ other ∈ above, other.sn ≠ seg.sn ∧ ¬ 0 < itimediff seg.sn other.sn)
    (hbelow : ∀ other, below.getLast? = some other →
      other.sn ≠ seg.sn ∧ 0 < itimediff seg.sn other.sn) :
    Incoming.Ok rcvWnd { s with buf := below ++ seg :: above } := by
  have hseg := ahead_window hwnd hfirst hlast
  have hsns : sns s.buf = sns below ++ sns above := by
    rw [hbuf]
    exact List.map_append
  have hnear := h.near
  have hsorted := h.sorted
  rw [hsns] at hnear hsorted
  obtain ⟨hlow, hhigh, hcross⟩ := List.pairwise_append.mp hsorted
  -- inside the window the numbers are compared as they are
  have compare : ∀ {x}, ahead s.nxt x < rcvWnd.toNat →
      itimediff seg.sn x = (ahead s.nxt seg.sn : ℤ) - ahead s.nxt x :=
    fun hx => itimediff_ahead (by omega) (by omega)
  have hgreater : ∀ x ∈ sns above, ahead s.nxt seg.sn < ahead s.nxt x := by
    intro x hx
    have hxnear := hnear x (List.mem_append_right _ hx)
    obtain ⟨other, hother, rfl⟩ := mem_sns.mp hx
    obtain ⟨hne, hle⟩ := habove other hother
    have hdiff : ahead s.nxt other.sn ≠ ahead s.nxt seg.sn := mt ahead_inj.mp hne
    rw [compare hxnear] at hle
    omega
  have hless : ∀ x ∈ sns below, ahead s.nxt x < ahead s.nxt seg.sn := by
    intro x hx
    rcases List.eq_nil_or_concat below with rfl | ⟨init, last, rfl⟩
    · cases hx
    · obtain ⟨-, hpos⟩ := hbelow last (by simp)
      have hsplit : sns (init ++ [last]) = sns init ++ [last.sn] := List.map_append
      rw [List.concat_eq_append, hsplit] at hx hlow hnear
      have hlastnear := hnear last.sn (by simp)
      rw [compare hlastnear] at hpos
      rcases List.mem_append.mp hx with hinit | hin
      · have hbefore := (List.pairwise_append.mp hlow).2.2 x hinit last.sn List.mem_cons_self
        omega
      · rw [List.mem_singleton.mp hin]
        omega
  have hnew : sns (below ++ seg :: above) = sns below ++ seg.sn :: sns above := List.map_append
  refine ⟨h.queue, ?_, ?_⟩
  · rw [hnew]
    refine List.pairwise_append.mpr ⟨hlow, List.pairwise_cons.mpr ⟨hgreater, hhigh⟩, ?_⟩
    intro x hx y hy
    rcases List.mem_cons.mp hy with rfl | hy
    · exact hless x hx
    · exact hcross x hx y hy
  · rw [hnew]
    intro x hx
    rcases List.mem_append.mp hx with hx | hx
    · exact hnear x (List.mem_append_left _ hx)
    · rcases List.mem_cons.mp hx with rfl | hx
      · exact hseg
      · exact hnear x (List.mem_append_right _ hx)

/-- The first segment is the next one, and everything else comes one closer. -/
theorem Incoming.Ok.advance (h : s.Ok rcvWnd) {seg : IkcpSeg} {buf : List IkcpSeg}
    (hbuf : s.buf = seg :: buf) (hsn : seg.sn = s.nxt) (hroom : s.queue.length < rcvWnd.toNat) :
    Incoming.Ok rcvWnd { s with nxt := s.nxt + 1, queue := s.queue ++ [seg], buf } := by
  have hsns : sns s.buf = s.nxt :: sns buf := by
    rw [hbuf, ← hsn]
    rfl
  have hsorted := h.sorted
  have hnear := h.near
  rw [hsns] at hsorted hnear
  obtain ⟨hafter, htail⟩ := List.pairwise_cons.mp hsorted
  have hone : ahead s.nxt (s.nxt + 1) = 1 := by
    rw [ahead_succ _ _ (by rw [ahead_self]; omega), ahead_self]
  have closer : ∀ x ∈ sns buf, ahead (s.nxt + 1) x = ahead s.nxt x - 1 ∧ 0 < ahead s.nxt x := by
    intro x hx
    have hpos := hafter x hx
    rw [ahead_self] at hpos
    have hrebase : ahead (s.nxt + 1) x = ahead s.nxt x - ahead s.nxt (s.nxt + 1) :=
      ahead_rebase (by omega)
    rw [hone] at hrebase
    exact ⟨hrebase, hpos⟩
  refine ⟨?_, ?_, ?_⟩
  · rw [List.length_append, List.length_singleton]
    exact hroom
  · refine List.Pairwise.imp_of_mem ?_ htail
    intro x y hx hy hxy
    have hxc := closer x hx
    have hyc := closer y hy
    change ahead (s.nxt + 1) x < ahead (s.nxt + 1) y
    omega
  · intro x hx
    have hxc := closer x hx
    have hxn := hnear x (List.mem_cons_of_mem _ hx)
    change ahead (s.nxt + 1) x < rcvWnd.toNat
    omega

theorem Incoming.Ok.step (h : s.Ok rcvWnd) (hwnd : rcvWnd.toNat < 2 ^ 31)
    (hstep : s.Step rcvWnd heard s') : s'.Ok rcvWnd := by
  cases hstep with
  | insert _ _ hfirst hlast hbuf habove hbelow =>
    exact h.insert hwnd hfirst hlast hbuf habove hbelow
  | note _ _ _ _ => exact ⟨h.queue, h.sorted, h.near⟩
  | advance hbuf hsn hroom => exact h.advance hbuf hsn hroom
  | clear => exact ⟨h.queue, h.sorted, h.near⟩

theorem Incoming.Ok.steps (h : s.Ok rcvWnd) (hwnd : rcvWnd.toNat < 2 ^ 31)
    (hsteps : ReflTransGen (Incoming.Step rcvWnd heard) s s') : s'.Ok rcvWnd := by
  induction hsteps with
  | refl => exact h
  | tail _ hstep ih => exact ih.step hwnd hstep

end Incoming

/-! The outgoing half. -/

structure Outgoing.Ok (sndWnd : UInt32) (s : Outgoing) : Prop where
  una : s.una = firstSn s.buf s.nxt
  sorted : Ascending s.una (sns s.buf)
  before : ∀ x ∈ sns s.buf, ahead s.una x < ahead s.una s.nxt
  window : ahead s.una s.nxt ≤ sndWnd.toNat
  sized : ∀ seg ∈ s.queue ++ s.buf, seg.data.length ≤ ikcpMss
  pushes : ∀ seg ∈ s.buf, seg.cmd = .push

section Outgoing
variable {conv : ℕ} {sndWnd : UInt32} {heard : IkcpSeg → Prop} {s s' : Outgoing}

theorem firstSn_eq (buf : List IkcpSeg) (nxt : UInt32) :
    firstSn buf nxt = (sns buf).head?.getD nxt := by
  cases buf <;> rfl

/-- What is left is still in order, seen from its first number. -/
theorem Outgoing.Ok.settle (h : s.Ok sndWnd) {left : List IkcpSeg} (hleft : left.Sublist s.buf) :
    Outgoing.Ok sndWnd { s with una := firstSn left s.nxt, buf := left } := by
  have hsub : (sns left).Sublist (sns s.buf) := hleft.map _
  have hsized : ∀ seg ∈ s.queue ++ left, seg.data.length ≤ ikcpMss := fun seg hseg =>
    h.sized seg (((List.Sublist.refl s.queue).append hleft).subset hseg)
  have hpushes : ∀ seg ∈ left, seg.cmd = .push := fun seg hseg => h.pushes seg (hleft.subset hseg)
  have hsorted := List.Pairwise.sublist hsub h.sorted
  have hbefore := fun x hx => h.before x (hsub.subset hx)
  have hwindow := h.window
  cases left with
  | nil =>
    refine ⟨rfl, List.Pairwise.nil, List.forall_mem_nil _, ?_, hsized, hpushes⟩
    change ahead s.nxt s.nxt ≤ _
    rw [ahead_self]
    exact Nat.zero_le _
  | cons first rest =>
    have hmost : ∀ x ∈ sns (first :: rest), ahead s.una first.sn ≤ ahead s.una x := by
      intro x hx
      rcases List.mem_cons.mp hx with rfl | hx
      · exact Nat.le_refl _
      · exact Nat.le_of_lt ((List.pairwise_cons.mp hsorted).1 x hx)
    have hnxt := hbefore first.sn List.mem_cons_self
    have hrebase : ahead first.sn s.nxt = ahead s.una s.nxt - ahead s.una first.sn :=
      ahead_rebase (Nat.le_of_lt hnxt)
    refine ⟨rfl, ?_, ?_, ?_, hsized, hpushes⟩
    · refine List.Pairwise.imp_of_mem ?_ hsorted
      intro x y hx hy hxy
      change ahead first.sn x < ahead first.sn y
      have hxm := hmost x hx
      rw [ahead_rebase hxm, ahead_rebase (hmost y hy)]
      omega
    · intro x hx
      change ahead first.sn x < ahead first.sn s.nxt
      have hxm := hmost x hx
      have hxb := hbefore x hx
      rw [ahead_rebase hxm, hrebase]
      omega
    · change ahead first.sn s.nxt ≤ _
      omega

theorem Outgoing.Ok.number (h : s.Ok sndWnd) (hsnd : sndWnd.toNat < 2 ^ 31)
    {seg newseg : IkcpSeg} {queue : List IkcpSeg} {cwnd : UInt32} (hqueue : s.queue = seg :: queue)
    (hwnd : cwnd ≤ sndWnd) (hroom : itimediff s.nxt (s.una + cwnd) < 0)
    (hcmd : newseg.cmd = .push) (hsn : newseg.sn = s.nxt) (hdata : newseg.data = seg.data) :
    Outgoing.Ok sndWnd { s with nxt := s.nxt + 1, queue, buf := s.buf ++ [newseg] } := by
  have hwindow := h.window
  have hcwnd := UInt32.le_iff_toNat_le.mp hwnd
  have hinside : ahead s.una s.nxt < cwnd.toNat :=
    ahead_window (by omega) ((itimediff_base _ _).mpr (by omega)) hroom
  have hsucc : ahead s.una (s.nxt + 1) = ahead s.una s.nxt + 1 := ahead_succ _ _ (by omega)
  have hsns : sns (s.buf ++ [newseg]) = sns s.buf ++ [s.nxt] := by
    rw [← hsn]
    exact List.map_append
  refine ⟨?_, ?_, ?_, ?_, ?_, ?_⟩
  · change s.una = firstSn (s.buf ++ [newseg]) (s.nxt + 1)
    rw [firstSn_eq, hsns, h.una, firstSn_eq]
    cases sns s.buf <;> rfl
  · change Ascending s.una (sns (s.buf ++ [newseg]))
    rw [hsns]
    refine List.pairwise_append.mpr ⟨h.sorted, List.pairwise_singleton _ _, ?_⟩
    intro x hx y hy
    rw [List.mem_singleton.mp hy]
    exact h.before x hx
  · change ∀ x ∈ sns (s.buf ++ [newseg]), ahead s.una x < ahead s.una (s.nxt + 1)
    rw [hsns, hsucc]
    intro x hx
    rcases List.mem_append.mp hx with hx | hx
    · exact Nat.lt_succ_of_lt (h.before x hx)
    · rw [List.mem_singleton.mp hx]
      exact Nat.lt_succ_self _
  · change ahead s.una (s.nxt + 1) ≤ _
    omega
  · have hsized := h.sized
    rw [hqueue] at hsized
    intro x hx
    rcases List.mem_append.mp hx with hx | hx
    · exact hsized x (List.mem_append_left _ (List.mem_cons_of_mem _ hx))
    · rcases List.mem_append.mp hx with hx | hx
      · exact hsized x (List.mem_append_right _ hx)
      · rw [List.mem_singleton.mp hx, hdata]
        exact hsized seg List.mem_cons_self
  · intro x hx
    rcases List.mem_append.mp hx with hx | hx
    · exact h.pushes x hx
    · rw [List.mem_singleton.mp hx]
      exact hcmd

theorem same_sns {buf buf' : List IkcpSeg} (h : List.Forall₂ IkcpSeg.Same buf buf') :
    sns buf' = sns buf := by
  induction h with
  | nil => rfl
  | cons hseg _ ih => exact congrArg₂ List.cons hseg.sn ih

theorem same_mem {buf buf' : List IkcpSeg} (h : List.Forall₂ IkcpSeg.Same buf buf') {seg' : IkcpSeg}
    (hseg : seg' ∈ buf') : ∃ seg ∈ buf, seg.Same seg' := by
  induction h with
  | nil => cases hseg
  | cons hsame _ ih =>
    rcases List.mem_cons.mp hseg with rfl | hseg
    · exact ⟨_, List.mem_cons_self, hsame⟩
    · obtain ⟨seg, hmem, hsame'⟩ := ih hseg
      exact ⟨seg, List.mem_cons_of_mem _ hmem, hsame'⟩

theorem Outgoing.Ok.touch (h : s.Ok sndWnd) {buf : List IkcpSeg}
    (hsame : List.Forall₂ IkcpSeg.Same s.buf buf) : Outgoing.Ok sndWnd { s with buf } := by
  have hsns := same_sns hsame
  have huna := h.una
  have hsorted := h.sorted
  have hbefore := h.before
  rw [firstSn_eq] at huna
  rw [← hsns] at huna hsorted hbefore
  refine ⟨?_, hsorted, hbefore, h.window, ?_, ?_⟩
  · rw [firstSn_eq]
    exact huna
  · intro x hx
    rcases List.mem_append.mp hx with hx | hx
    · exact h.sized x (List.mem_append_left _ hx)
    · obtain ⟨seg, hseg, hsegsame⟩ := same_mem hsame hx
      rw [hsegsame.data]
      exact h.sized seg (List.mem_append_right _ hseg)
  · intro x hx
    obtain ⟨seg, hseg, hsegsame⟩ := same_mem hsame hx
    rw [hsegsame.cmd]
    exact h.pushes seg hseg

theorem Outgoing.Ok.step (h : s.Ok sndWnd) (hsnd : sndWnd.toNat < 2 ^ 31)
    (hstep : s.Step conv sndWnd heard s') : s'.Ok sndWnd := by
  cases hstep with
  | settle _ hleft _ => exact h.settle hleft
  | number hqueue hwnd hroom _ hcmd hsn _ hdata =>
    exact h.number hsnd hqueue hwnd hroom hcmd hsn hdata
  | touch hsame => exact h.touch hsame

theorem Outgoing.Ok.steps (h : s.Ok sndWnd) (hsnd : sndWnd.toNat < 2 ^ 31)
    (hsteps : ReflTransGen (Outgoing.Step conv sndWnd heard) s s') : s'.Ok sndWnd := by
  induction hsteps with
  | refl => exact h
  | tail _ hstep ih => exact ih.step hsnd hstep

end Outgoing

/-! Every call. -/

theorem fragment_le {count : ℕ} {buffer : Bytes} {seg : IkcpSeg} (h : seg ∈ fragment count buffer) :
    seg.data.length ≤ ikcpMss := by
  induction count generalizing buffer with
  | zero => cases h
  | succ i ih =>
    rcases List.mem_cons.mp h with rfl | h
    · exact List.length_take_le _ _
    · exact ih h

structure Bounded (k : Ikcp) : Prop where
  config : k.config = kcpevCreateKcp.config
  incoming : k.incoming.Ok k.rcvWnd
  outgoing : k.outgoing.Ok k.sndWnd
  rto : 30 ≤ k.rxRto.toInt ∧ k.rxRto.toInt ≤ 60000
  ssthresh : ikcpThreshMin ≤ k.ssthresh

theorem bounded_create : kcpevCreateKcp.Bounded where
  config := rfl
  incoming := ⟨Nat.zero_le _, List.Pairwise.nil, List.forall_mem_nil _⟩
  outgoing := ⟨rfl, List.Pairwise.nil, List.forall_mem_nil _, Nat.zero_le _, List.forall_mem_nil _,
    List.forall_mem_nil _⟩
  rto := by decide
  ssthresh := by decide

namespace Bounded

variable {k k' : Ikcp}

theorem windows (h : k.Bounded) : k.sndWnd = 128 ∧ k.rcvWnd = 128 :=
  ⟨congrArg Config.sndWnd h.config, congrArg Config.rcvWnd h.config⟩

theorem toInt_toInt32 {x : UInt32} (h : x.toNat < 2 ^ 31) : x.toInt32.toInt = x.toNat := by
  rw [Int32.toInt, UInt32.toBitVec_toInt32, BitVec.toInt_eq_toNat_bmod, UInt32.toNat_toBitVec,
    Int.bmod_def, Int.emod_eq_of_lt (by omega) (by omega), if_pos (by omega)]

theorem queue_le (h : k.Bounded) : k.rcvQueue.length ≤ 128 := by
  have hle := h.incoming.queue
  rw [h.windows.2] at hle
  exact hle

theorem ibound_rto (rto : UInt32) :
    30 ≤ (ibound ikcpRtoNdl.toUInt32 rto ikcpRtoMax).toInt32.toInt ∧
      (ibound ikcpRtoNdl.toUInt32 rto ikcpRtoMax).toInt32.toInt ≤ 60000 := by
  have hlow := UInt32.le_iff_toNat_le.mp (le_umax ikcpRtoNdl.toUInt32 rto).1
  have hndl : ikcpRtoNdl.toUInt32.toNat = 30 := rfl
  have hmax : ikcpRtoMax.toNat = 60000 := rfl
  have hhigh := UInt32.le_iff_toNat_le.mp (umin_le (max ikcpRtoNdl.toUInt32 rto) ikcpRtoMax).2
  have hmin : 30 ≤ (min (max ikcpRtoNdl.toUInt32 rto) ikcpRtoMax).toNat := by
    change 30 ≤ (if max ikcpRtoNdl.toUInt32 rto ≤ ikcpRtoMax then max ikcpRtoNdl.toUInt32 rto
      else ikcpRtoMax).toNat
    split
    · omega
    · omega
  unfold ibound
  rw [toInt_toInt32 (by omega)]
  omega

theorem moves {conv : ℕ} {heard : IkcpSeg → Prop} (h : k.Bounded) (hmoves : Moves conv heard k k') :
    k'.Bounded := by
  obtain ⟨hsnd, hrcv⟩ := h.windows
  have hincoming := h.incoming.steps (by rw [hrcv]; decide) hmoves.incoming
  have houtgoing := h.outgoing.steps (by rw [hsnd]; decide) hmoves.outgoing
  have hrcv' : k'.rcvWnd = k.rcvWnd := congrArg Config.rcvWnd hmoves.config
  have hsnd' : k'.sndWnd = k.sndWnd := congrArg Config.sndWnd hmoves.config
  have hminrto : k.rxMinrto = ikcpRtoNdl := congrArg Config.rxMinrto h.config
  rw [← hrcv'] at hincoming
  rw [← hsnd'] at houtgoing
  refine ⟨hmoves.config.trans h.config, hincoming, houtgoing, ?_, ?_⟩
  · rcases hmoves.rto with hsame | ⟨rto, hbound⟩
    · rw [hsame]
      exact h.rto
    · rw [hbound, hminrto]
      exact ibound_rto rto
  · rcases hmoves.ssthresh with hsame | hbound
    · rw [hsame]
      exact h.ssthresh
    · exact hbound

theorem send (h : k.Bounded) (buffer : Bytes) : (k.send buffer).1.Bounded := by
  rcases send_cases k buffer with heq | ⟨-, heq⟩
  · rw [heq]
    exact h
  · rw [heq]
    refine { h with outgoing := { h.outgoing with sized := ?_ } }
    intro seg hseg
    rcases List.mem_append.mp hseg with hqueue | hbuf
    · rcases List.mem_append.mp hqueue with hold | hnew
      · exact h.outgoing.sized seg (List.mem_append_left _ hold)
      · exact fragment_le hnew
    · exact h.outgoing.sized seg (List.mem_append_right _ hbuf)

theorem recv (h : k.Bounded) (len : ℕ) : (k.recv len).1.Bounded := by
  rcases recv_cases 0 (fun _ => True) k len with
    heq | ⟨rest, k', hqueue, -, hmoves, heq⟩
  · rw [heq]
    exact h
  · have hlen := congrArg List.length hqueue
    rw [List.length_append] at hlen
    have hrest : Bounded { k with rcvQueue := rest } := by
      refine { h with incoming := { h.incoming with queue := ?_ } }
      have hle := h.incoming.queue
      change rest.length ≤ k.rcvWnd.toNat
      change k.rcvQueue.length ≤ k.rcvWnd.toNat at hle
      omega
    rw [heq]
    exact hrest.moves hmoves

end Bounded

/-! Nothing that can be read is left in `rcv_buf`. -/

/-- The next segment stays in `rcv_buf` only when `rcv_queue` is full. -/
def Filled (k : Ikcp) : Prop :=
  k.rcvQueue.length < k.rcvWnd.toNat → ∀ seg, k.rcvBuf.head? = some seg → seg.sn ≠ k.rcvNxt

section Filled
variable {conv : ℕ} {k k' : Ikcp}

theorem moveAvailable_stops (rcvWnd : UInt32) (buf queue : List IkcpSeg) (nxt : UInt32)
    (hroom : (moveAvailable rcvWnd buf queue nxt).2.1.length < rcvWnd.toNat) {seg : IkcpSeg}
    (hhead : (moveAvailable rcvWnd buf queue nxt).1.head? = some seg) :
    seg.sn ≠ (moveAvailable rcvWnd buf queue nxt).2.2 := by
  induction buf generalizing queue nxt with
  | nil => cases hhead
  | cons s buf ih =>
    unfold moveAvailable at hroom hhead ⊢
    by_cases hnext : s.sn = nxt ∧ queue.length < rcvWnd.toNat
    · simp only [hnext, and_self, if_true] at hroom hhead ⊢
      exact ih _ _ hroom hhead
    · simp only [hnext, if_false] at hroom hhead ⊢
      cases hhead
      exact fun heq => hnext ⟨heq, hroom⟩

theorem filled_fillQueue (k : Ikcp) : k.fillQueue.Filled :=
  fun hroom _ hhead => moveAvailable_stops k.rcvWnd k.rcvBuf k.rcvQueue k.rcvNxt hroom hhead

theorem Filled.congr (h : k.Filled) (hqueue : k'.rcvQueue = k.rcvQueue)
    (hbuf : k'.rcvBuf = k.rcvBuf) (hnxt : k'.rcvNxt = k.rcvNxt)
    (hwnd : k'.rcvWnd = k.rcvWnd) : k'.Filled := by
  unfold Filled
  rw [hqueue, hbuf, hnxt, hwnd]
  exact h

theorem Filled.parseData (h : k.Filled) (seg : IkcpSeg) : (k.parseData seg).Filled := by
  unfold Ikcp.parseData
  split
  · exact h
  · exact filled_fillQueue _

theorem Filled.shrinkBuf (h : k.Filled) : k.shrinkBuf.Filled := by
  rw [shrinkBuf_eq]
  exact h

theorem Filled.parseAck (h : k.Filled) (sn : UInt32) : (k.parseAck sn).Filled := by
  unfold Ikcp.parseAck
  split
  · exact h
  · exact h

theorem Filled.parseFastack (h : k.Filled) (sn : UInt32) : (k.parseFastack sn).Filled := by
  unfold Ikcp.parseFastack
  split
  · exact h
  · exact h

theorem Filled.inputSeg (h : k.Filled) (maxack : Option UInt32) (seg : IkcpSeg) :
    (k.inputSeg maxack seg).1.Filled := by
  have huna : ({ k with rmtWnd := seg.wnd.toUInt32 }.parseUna seg.una).Filled := h
  have hshrunk := huna.shrinkBuf
  unfold Ikcp.inputSeg
  generalize ({ k with rmtWnd := seg.wnd.toUInt32 }.parseUna seg.una).shrinkBuf = k at hshrunk ⊢
  rcases seg.cmd with _ | _ | _ | _
  · simp only
    split
    · split
      · have hnoted : Filled { k with acklist := k.acklist ++ [(seg.sn, seg.ts)] } := hshrunk
        exact hnoted.parseData seg
      · exact hshrunk
    · exact hshrunk
  · have hrtt : (if 0 ≤ itimediff k.current seg.ts then
        k.updateAck (k.current - seg.ts).toInt32 else k).Filled := by
      split
      · exact hshrunk
      · exact hshrunk
    rcases maxack with _ | sn
    · exact (hrtt.parseAck seg.sn).shrinkBuf
    · exact (hrtt.parseAck seg.sn).shrinkBuf
  · exact hshrunk
  · exact hshrunk

theorem Filled.inputLoop (h : k.Filled) (conv : ℕ) (maxack : Option UInt32) (data : Bytes) :
    (k.inputLoop conv maxack data).1.Filled := by
  fun_induction Ikcp.inputLoop conv k maxack data with
  | case1 => exact h
  | case2 => exact h
  | case3 => exact h
  | case4 => exact h
  | case5 k maxack data _ _ len _ cmd _ k' maxack' hseg ih =>
    apply ih
    have hk' := h.inputSeg maxack (decodeSeg cmd data len)
    rw [hseg] at hk'
    exact hk'

theorem Filled.inputDone (h : k.Filled) (una : UInt32) (maxack : Option UInt32) :
    (inputDone una k maxack).Filled := by
  have grow : ∀ k' : Ikcp, k'.Filled →
      (if 0 < itimediff k'.sndUna una then k'.growCwnd else k').Filled := by
    intro k' hk'
    split
    · obtain ⟨cwnd, incr, heq⟩ := k'.growCwnd_cases
      rw [heq]
      exact hk'
    · exact hk'
  rcases maxack with _ | sn
  · exact grow k h
  · exact grow _ (h.parseFastack sn)

theorem Filled.input (h : k.Filled) (conv : ℕ) (data : Bytes) : (k.input conv data).1.Filled := by
  unfold Ikcp.input
  split
  · exact h
  · have hloop := h.inputLoop conv none data
    rcases hr : k.inputLoop conv none data with ⟨k', maxack, ret⟩
    rw [hr] at hloop
    dsimp only
    split
    · exact hloop
    · exact hloop.inputDone k.sndUna maxack

theorem Filled.recv (h : k.Filled) (len : ℕ) : (k.recv len).1.Filled := by
  unfold Ikcp.recv
  split
  · exact h
  · split
    · exact h
    · dsimp only
      split
      · exact filled_fillQueue _
      · exact filled_fillQueue _

end Filled

/-! The datagrams of a flush. -/

theorem exists_controlSeg {conv : ℕ} {k : Ikcp} {seg : IkcpSeg} (h : seg ∈ k.controlSegs conv) :
    ∃ cmd sn ts, seg = k.controlSeg conv cmd sn ts ∧ cmd ≠ .push ∧
      (cmd = .ack → (sn, ts) ∈ k.acklist) := by
  unfold controlSegs at h
  rcases List.mem_append.mp h with h | hwins
  · rcases List.mem_append.mp h with hack | hwask
    · obtain ⟨⟨sn, ts⟩, hmem, rfl⟩ := List.mem_map.mp hack
      exact ⟨.ack, sn, ts, rfl, by decide, fun _ => hmem⟩
    · split at hwask
      · exact ⟨.wask, _, _, List.mem_singleton.mp hwask, by decide, fun hack => by cases hack⟩
      · cases hwask
  · split at hwins
    · exact ⟨.wins, _, _, List.mem_singleton.mp hwins, by decide, fun hack => by cases hack⟩
    · cases hwins

theorem mem_controlSegs {conv : ℕ} {k : Ikcp} {seg : IkcpSeg} (h : seg ∈ k.controlSegs conv) :
    seg.una = k.rcvNxt ∧ seg.data = [] ∧ seg.conv = UInt32.ofNat conv ∧ seg.cmd ≠ .push ∧
      (seg.cmd = .ack → ∃ ts, (seg.sn, ts) ∈ k.acklist) := by
  obtain ⟨cmd, sn, ts, rfl, hcmd, hack⟩ := exists_controlSeg h
  exact ⟨rfl, rfl, rfl, hcmd, fun heq => ⟨ts, hack heq⟩⟩

theorem decideSeg_una {k : Ikcp} {resent rtomin : UInt32} {seg : IkcpSeg} {reason : Reason}
    (h : (k.decideSeg resent rtomin seg).2 = some reason) :
    (k.decideSeg resent rtomin seg).1.una = k.rcvNxt := by
  unfold decideSeg at h ⊢
  split
  · rfl
  · split
    · rfl
    · split
      · rfl
      · rename_i hfirst htimeout hfast
        simp only [hfirst, htimeout, hfast, if_false] at h
        cases h

/-- A data segment that is sent stays in `snd_buf` as it was sent. -/
theorem mem_sentSegs {k : Ikcp} {seg : IkcpSeg} (h : seg ∈ k.sentSegs) :
    seg.una = k.rcvNxt ∧ seg ∈ k.sndBuf.map fun sent => (k.flushSeg sent).1 := by
  obtain ⟨sent, hsent, heq⟩ := List.mem_filterMap.mp h
  obtain ⟨reason, hreason, rfl⟩ := Option.map_eq_some_iff.mp heq
  exact ⟨decideSeg_una hreason, List.mem_map_of_mem hsent⟩

theorem flush_sndBuf (conv : ℕ) {k : Ikcp} (hupdated : k.updated = true) :
    (k.flush conv).1.sndBuf =
      (k.flushReady conv).sndBuf.map fun seg => ((k.flushReady conv).flushSeg seg).1 := by
  rw [flush_eq conv hupdated]
  exact adjustCwnd_sndBuf _ _ _ _

theorem flush_incoming (conv : ℕ) {k : Ikcp} (hupdated : k.updated = true) :
    (k.flush conv).1.incoming = { k.incoming with acks := [] } := by
  obtain ⟨ssthresh, cwnd, incr, heq, -, -⟩ := adjustCwnd_cases
    { k.flushReady conv with
      sndBuf := (k.flushReady conv).sndBuf.map fun seg => ((k.flushReady conv).flushSeg seg).1 }
    k.probed.flushWindow (k.flushReady conv).resent
    ((k.flushReady conv).sndBuf.filterMap fun seg => ((k.flushReady conv).flushSeg seg).2)
  obtain ⟨probe, tsProbe, probeWait, hprobe⟩ := k.probeWindow_cases
  rw [flush_eq conv hupdated, heq]
  change Incoming.mk k.probeWindow.rcvNxt k.probeWindow.rcvQueue k.probeWindow.rcvBuf [] = _
  rw [hprobe]
  rfl

theorem flushReady_rcvNxt (conv : ℕ) (k : Ikcp) : (k.flushReady conv).rcvNxt = k.rcvNxt := by
  obtain ⟨probe, tsProbe, probeWait, hprobe⟩ := k.probeWindow_cases
  change k.probeWindow.rcvNxt = k.rcvNxt
  rw [hprobe]

/-- A segment of a flush acknowledges what has come in; it is one of the
acknowledgements and probes, or it is in `snd_buf`. -/
theorem mem_flushSent {conv : ℕ} {k : Ikcp} (hupdated : k.updated = true) {seg : IkcpSeg}
    (h : seg ∈ k.flushSent conv) : seg.una = k.rcvNxt ∧
      (seg ∈ k.controlSegs conv ∨ seg ∈ (k.flush conv).1.sndBuf) := by
  rcases List.mem_append.mp h with hcontrol | hdata
  · exact ⟨(mem_controlSegs hcontrol).1, Or.inl hcontrol⟩
  · obtain ⟨huna, hmem⟩ := mem_sentSegs hdata
    rw [flushReady_rcvNxt] at huna
    rw [flush_sndBuf conv hupdated]
    exact ⟨huna, Or.inr hmem⟩

namespace Bounded

variable {k : Ikcp}

theorem flush (h : k.Bounded) (conv : ℕ) : (k.flush conv).1.Bounded := by
  have hmoves : Moves conv (fun _ => True) k (k.flush conv).1 := moves_flush k
  exact h.moves hmoves

theorem flushSent_le (h : k.Bounded) (conv : ℕ) (hupdated : k.updated = true) {seg : IkcpSeg}
    (hseg : seg ∈ k.flushSent conv) : seg.data.length ≤ ikcpMss := by
  rcases (mem_flushSent hupdated hseg).2 with hcontrol | hsent
  · rw [(mem_controlSegs hcontrol).2.1]
    exact Nat.zero_le _
  · exact (h.flush conv).outgoing.sized seg (List.mem_append_right _ hsent)

/-- The segments of a flush are cut into datagrams, none of them empty or longer than
the mtu. -/
theorem flush_datagrams (h : k.Bounded) (conv : ℕ) (hupdated : k.updated = true) :
    ∃ ds : List (List IkcpSeg), (k.flush conv).2 = ds.map datagram ∧
      ds.flatten = k.flushSent conv ∧ ∀ segs ∈ ds, Fits segs := by
  have hempty : Flushed.Wrote ⟨[], []⟩ [] :=
    ⟨[], [], ⟨rfl, Nat.zero_le _, rfl, List.forall_mem_nil _⟩, rfl⟩
  have hwrote := wrote_foldl (fun _ => h.flushSent_le conv hupdated) hempty
  rw [List.nil_append] at hwrote
  obtain ⟨done, last, hholds, hflat⟩ := hwrote
  obtain ⟨ds, hds, hdsflat⟩ := hholds.output
  rw [flush_eq conv hupdated]
  exact ⟨ds, hds.out, hdsflat.trans hflat, hds.done⟩

end Bounded

theorem Filled.update {conv : ℕ} {k : Ikcp} (h : k.Filled) (now : UInt32) :
    (k.update conv now).1.Filled := by
  obtain ⟨tsFlush, heq | heq⟩ := update_cases conv k now
  · rw [heq]
    exact h
  · have hmoves : Moves conv (fun _ => True) k (k.update conv now).1 := moves_update k now
    have hwnd : (k.update conv now).1.rcvWnd = k.rcvWnd := congrArg Config.rcvWnd hmoves.config
    have hincoming : (k.update conv now).1.incoming = { k.incoming with acks := [] } := by
      rw [heq]
      exact flush_incoming conv rfl
    exact h.congr (congrArg Incoming.queue hincoming) (congrArg Incoming.buf hincoming)
      (congrArg Incoming.nxt hincoming) hwnd

/-- A KCP object that takes whatever a peer sends. -/
theorem Reachable.bounded {conv : ℕ} {k : Ikcp} (h : Reachable conv k) : k.Bounded := by
  induction h with
  | create key => exact bounded_create
  | setConv key _ ih => exact ih
  | send buffer _ ih => exact ih.send buffer
  | recv len _ ih => exact ih.recv len
  | @input conv k data _ ih => exact ih.moves (moves_input k data)
  | @update conv k now _ ih =>
    have hmoves : Moves conv (fun _ => True) k (k.update conv now).1 := moves_update k now
    exact ih.moves hmoves

end KcpEv.Ikcp
