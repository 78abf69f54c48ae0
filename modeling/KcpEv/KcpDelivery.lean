import KcpEv.KcpPair
import KcpEv.KcpMessages

/-!
What the application sees of two control blocks: the messages that come out at one
end are those that were given to the other one, in the same order and once each. When
`ikcp_waitsnd` is zero and nothing is left to read, they are all of them.
-/
namespace KcpEv

open Guarded Relation Arq

namespace Ikcp

/-- `ikcp_waitsnd` -/
def waitsnd (k : Ikcp) : ℕ := k.sndBuf.length + k.sndQueue.length

/-! Messages and their fragments. -/

theorem contents_length (buffer : Bytes) :
    (contents buffer).length = fragmentCount buffer.length := by
  rw [contents, List.length_map, length_fragment]

theorem contents_head {buffer : Bytes} {a : Content} {rest : List Content}
    (h : contents buffer = a :: rest) (hcount : fragmentCount buffer.length ≤ 255) :
    a.1.toNat + 1 = fragmentCount buffer.length := by
  have hpos := fragmentCount_pos buffer.length
  unfold contents at h
  generalize fragmentCount buffer.length = count at *
  cases count with
  | zero => omega
  | succ i =>
    unfold fragment at h
    rw [List.map_cons] at h
    cases h
    change (UInt8.ofNat i).toNat + 1 = i + 1
    rw [UInt8.toNat_ofNat', Nat.mod_eq_of_lt (by omega)]

theorem firstMessage_contents {buffer : Bytes} {segs rest : List IkcpSeg}
    (hcount : fragmentCount buffer.length ≤ 255)
    (h : segs.map IkcpSeg.content = contents buffer) :
    firstMessage (segs ++ rest) = segs ∧ segs.flatMap (fun seg => seg.data) = buffer := by
  have hpos := fragmentCount_pos buffer.length
  have hbounds := (fragmentCount_bounds buffer.length).1
  obtain ⟨hmerge, -⟩ := mergeFragments_fragment hpos (by omega) hbounds h rest
  obtain ⟨rest', hsplit, heq⟩ := mergeFragments_eq (segs ++ rest)
  rw [hmerge] at heq
  obtain ⟨hbuffer, rfl⟩ := Prod.mk.inj heq
  have hfirst := (List.append_cancel_right hsplit).symm
  rw [hfirst] at hbuffer
  exact ⟨hfirst, hbuffer.symm⟩

/-- There is a message to read exactly when all its fragments are in the queue. -/
theorem peeksize_contents {k : Ikcp} {buffer : Bytes} {rest : List Bytes}
    (hcount : fragmentCount buffer.length ≤ 255) (hne : k.rcvQueue ≠ [])
    (h : k.rcvQueue.map IkcpSeg.content <+: (buffer :: rest).flatMap contents) :
    k.peeksize.isSome ↔ fragmentCount buffer.length ≤ k.rcvQueue.length := by
  obtain ⟨seg, queue, hqueue⟩ := List.exists_cons_of_ne_nil hne
  have hpos := fragmentCount_pos buffer.length
  rw [List.flatMap_cons] at h
  obtain ⟨a, tail, hcontents⟩ := List.exists_cons_of_ne_nil (l := contents buffer) (by
    intro hnil
    have hlen := contents_length buffer
    rw [hnil] at hlen
    simp at hlen
    omega)
  have hhead := contents_head hcontents hcount
  rw [hqueue, hcontents, List.map_cons, List.cons_append] at h
  have hfrg : seg.frg = a.1 := congrArg Prod.fst (List.cons_prefix_cons.mp h).1
  unfold peeksize
  rw [hqueue]
  dsimp only
  by_cases hzero : seg.frg = 0
  · have hnat : a.1.toNat = 0 := by
      rw [← hfrg, hzero]
      rfl
    rw [if_pos hzero, List.length_cons]
    exact iff_of_true rfl (by omega)
  · rw [if_neg hzero, hfrg]
    by_cases hlong : (seg :: queue).length < a.1.toNat + 1
    · rw [if_pos hlong]
      exact iff_of_false (by simp) (by omega)
    · rw [if_neg hlong]
      exact iff_of_true rfl (by omega)

theorem recv_next {k k' : Ikcp} {len : ℕ} {msg : Bytes} {rest : List Bytes}
    (hcount : ∀ b ∈ rest, fragmentCount b.length ≤ 255)
    (h : k.rcvQueue.map IkcpSeg.content <+: rest.flatMap contents)
    (hrecv : k.recv len = (k', some msg)) : ∃ rest', rest = msg :: rest' ∧
      (firstMessage k.rcvQueue).map IkcpSeg.content = contents msg ∧
      fragmentCount msg.length ≤ k.rcvQueue.length := by
  rcases recv_cases 0 (fun _ => True) k len with hnone | ⟨tail, k'', hqueue, hpeek, -, hsome⟩
  · rw [hnone] at hrecv
    cases hrecv
  · rw [hsome] at hrecv
    obtain ⟨-, hmsg⟩ := Prod.mk.inj hrecv
    have hne : k.rcvQueue ≠ [] := by
      intro hnil
      unfold peeksize at hpeek
      rw [hnil] at hpeek
      cases hpeek
    cases rest with
    | nil =>
      rw [List.flatMap_nil, List.prefix_nil, List.map_eq_nil_iff] at h
      exact absurd h hne
    | cons buffer rest =>
      have hbuffer := hcount buffer List.mem_cons_self
      have hwhole := (peeksize_contents hbuffer hne h).mp hpeek
      -- the first fragments in the queue are those of the message
      have htake : (k.rcvQueue.take (fragmentCount buffer.length)).map IkcpSeg.content =
          contents buffer := by
        rw [List.flatMap_cons] at h
        have hinside : contents buffer <+: k.rcvQueue.map IkcpSeg.content := by
          refine List.prefix_of_prefix_length_le (List.prefix_append _ _) h ?_
          rw [contents_length, List.length_map]
          exact hwhole
        have heq := List.prefix_iff_eq_take.mp hinside
        rw [contents_length] at heq
        rw [List.map_take, ← heq]
      have hmessage : firstMessage (k.rcvQueue.take (fragmentCount buffer.length) ++
          k.rcvQueue.drop (fragmentCount buffer.length)) = _ ∧ _ :=
        firstMessage_contents hbuffer htake
      rw [List.take_append_drop] at hmessage
      obtain ⟨hfirst, hdata⟩ := hmessage
      rw [hfirst, hdata, Option.some.injEq] at hmsg
      subst hmsg
      exact ⟨rest, rfl, by rw [hfirst, htake], hwhole⟩

theorem accepts_count {k : Ikcp} {c : Call} {buffer : Bytes} (h : buffer ∈ k.accepts c) :
    fragmentCount buffer.length ≤ 255 := by
  cases c with
  | send b =>
    rcases send_cases k b with heq | ⟨hcount, heq⟩
    · simp [accepts, heq] at h
    · simp only [accepts, heq, if_true, List.mem_singleton] at h
      rw [h]
      exact hcount
  | recv | input | update => cases h

end Ikcp

/-! Messages in order. -/

open Ikcp

section Run
variable {conv : ℕ} {s s' : Pair} {arq : End → Arq.State Content} {e x : End} {c : Call}
  {is : List (End × Call)} {rest : List Bytes}

/-- The messages that came out at an end are the first of those given to the other
one, and what was taken out of its queue are their contents. -/
structure Ordered (s : Pair) (x : End) (rest : List Bytes) : Prop where
  accepted : s.accepted x.other = s.delivered x ++ rest
  taken : s.taken x = (s.delivered x).flatMap contents
  count : ∀ b ∈ rest, fragmentCount b.length ≤ 255
  whole : ∀ b ∈ s.delivered x, fragmentCount b.length ≤ 128

/-- The queue holds the beginning of what has not come out yet. -/
theorem Ordered.queue (h : Ordered s x rest) (hsim : Simulates conv s arq) :
    (s.party x).rcvQueue.map IkcpSeg.content <+: rest.flatMap contents := by
  have hprefix := (hsim.reachable x.other).released_initial
  rw [hsim.receiver, hsim.sender, x.other_other] at hprefix
  change s.taken x ++ (s.party x).rcvQueue.map IkcpSeg.content <+:
    (s.accepted x.other).flatMap contents at hprefix
  rw [h.taken, h.accepted, List.flatMap_append] at hprefix
  exact (List.prefix_append_right_inj _).mp hprefix

/-- A call at the end itself can only give out the next message. -/
theorem Ordered.self (h : Ordered s e rest) (hsim : Simulates conv s arq)
    (hstep : Joint.step (next conv) s (e, c) = .ok s') : ∃ rest', Ordered s' e rest' := by
  have hdelivered : s'.delivered e = s.delivered e ++ delivers (s.party e) c :=
    log_self delivers hstep
  have htaken : s'.taken e = s.taken e ++ reads (s.party e) c := log_self reads hstep
  have haccepted : s'.accepted e.other = s.accepted e.other := log_other accepts hstep
  have quiet : delivers (s.party e) c = [] → reads (s.party e) c = [] →
      ∃ rest', Ordered s' e rest' := by
    intro hnone hread
    rw [hnone, List.append_nil] at hdelivered
    rw [hread, List.append_nil] at htaken
    refine ⟨rest, by rw [haccepted, hdelivered, h.accepted], by rw [htaken, hdelivered, h.taken],
      h.count, ?_⟩
    rw [hdelivered]
    exact h.whole
  cases c with
  | send | input | update => exact quiet rfl rfl
  | recv len =>
    rcases hrecv : (s.party e).recv len with ⟨k', _ | msg⟩
    · exact quiet (by simp [delivers, hrecv]) (by simp [reads, hrecv])
    · obtain ⟨rest', hrest, hfirst, hwhole⟩ := recv_next h.count (h.queue hsim) hrecv
      have hqueue := (hsim.synced e).bounded.queue_le
      have hone : delivers (s.party e) (.recv len) = [msg] := by
        simp [delivers, hrecv]
      have hread : reads (s.party e) (.recv len) = contents msg := by
        simp [reads, hrecv, hfirst]
      refine ⟨rest', ?_, ?_, fun b hb => h.count b (hrest ▸ List.mem_cons_of_mem msg hb), ?_⟩
      · rw [haccepted, hdelivered, hone, List.append_assoc, List.singleton_append, ← hrest,
          h.accepted]
      · rw [htaken, hdelivered, hone, hread, h.taken, List.flatMap_append]
        simp
      · rw [hdelivered, hone]
        intro b hb
        rcases List.mem_append.mp hb with hb | hb
        · exact h.whole b hb
        · rw [List.mem_singleton.mp hb]
          omega

/-- A call at the other end can only give it another message. -/
theorem Ordered.other (h : Ordered s e.other rest)
    (hstep : Joint.step (next conv) s (e, c) = .ok s') : ∃ rest', Ordered s' e.other rest' := by
  have hdelivered : s'.delivered e.other = s.delivered e.other := log_other delivers hstep
  have htaken : s'.taken e.other = s.taken e.other := log_other reads hstep
  have haccepted : s'.accepted e = s.accepted e ++ accepts (s.party e) c := log_self accepts hstep
  have hold := h.accepted
  rw [e.other_other] at hold
  refine ⟨rest ++ accepts (s.party e) c, ?_, ?_, fun b hb => ?_, ?_⟩
  · rw [e.other_other, haccepted, hdelivered, hold, List.append_assoc]
  · rw [htaken, hdelivered, h.taken]
  rotate_left
  · rw [hdelivered]
    exact h.whole
  · rcases List.mem_append.mp hb with hb | hb
    · exact h.count b hb
    · exact accepts_count hb

theorem run_ordered (hrun : Run (Joint.step (next conv)) (Genuine conv) Pair.start is s)
    (hlimit : ∀ x, (s.offered x).length < serialLimit) (x : End) : ∃ rest, Ordered s x rest := by
  induction hrun generalizing x with
  | nil => exact ⟨[], rfl, rfl, List.forall_mem_nil _, List.forall_mem_nil _⟩
  | @snoc is s s' i hrun hok hstep ih =>
    have hbefore : ∀ x, (s.offered x).length < serialLimit := fun x =>
      Nat.lt_of_le_of_lt (offered_grows hstep x).length_le (hlimit x)
    obtain ⟨arq, hsim⟩ := run_simulates hrun hbefore
    obtain ⟨rest, hordered⟩ := ih hbefore x
    rcases x.eq_or i.1 with rfl | rfl
    · exact hordered.self hsim hstep
    · exact hordered.other hstep

/-- Whatever the network does to the datagrams, the messages that come out at one end
are those that were given to the other end, in the same order and once each. A message
of more fragments than the receive window stops them for ever. -/
theorem delivered_in_order
    (hrun : Run (Joint.step (next conv)) (Genuine conv) Pair.start is s)
    (hlimit : ∀ x, (s.offered x).length < serialLimit) (x : End) :
    s.delivered x <+: (s.accepted x.other).takeWhile fun b => fragmentCount b.length ≤ 128 := by
  obtain ⟨rest, hordered⟩ := run_ordered hrun hlimit x
  have hwhole : ∀ b ∈ s.delivered x, decide (fragmentCount b.length ≤ 128) = true :=
    fun b hb => decide_eq_true (hordered.whole b hb)
  rw [hordered.accepted, List.takeWhile_append_of_pos hwhole]
  exact List.prefix_append _ _

/-- A push segment on the wire. -/
def pushBytes (frg ts₀ ts₁ sn len₀ len₁ : UInt8) (data : Bytes) : Bytes :=
  [1, 0, 0, 0, 81, frg, 128, 0, ts₀, ts₁, 0, 0, sn, 0, 0, 0, 0, 0, 0, 0, len₀, len₁, 0, 0] ++ data

/-- The acknowledgement of one of three segments. -/
def ackBytes (ts₀ ts₁ sn : UInt8) : Bytes :=
  [1, 0, 0, 0, 82, 0, 128, 0, ts₀, ts₁, 0, 0, sn, 0, 0, 0, 3, 0, 0, 0, 0, 0, 0, 0]

/-- A message of two fragments. -/
def longMessage : Bytes := List.replicate 1400 7

/-- The second datagram holds the end of the long message, and a message of one byte. -/
def secondDatagram : Bytes :=
  pushBytes 0 0 0 1 24 0 (List.replicate 24 7) ++ pushBytes 0 0 0 2 1 0 [9]

/-- The first datagram of two messages is lost, and comes twice when it is sent again, behind
the second one. -/
def lossyCalls : List (End × Call) :=
  [(.client, .send longMessage), (.client, .send [9]), (.client, .update 0),
    (.server, .input secondDatagram), (.server, .recv 65536), (.client, .update 300),
    (.server, .input (pushBytes 1 44 1 0 96 5 (List.replicate 1376 7))),
    (.server, .input (pushBytes 1 44 1 0 96 5 (List.replicate 1376 7))),
    (.server, .recv 65536), (.server, .recv 65536), (.server, .update 0),
    (.client, .input (ackBytes 0 0 1 ++ ackBytes 0 0 2 ++ ackBytes 44 1 0 ++ ackBytes 44 1 0))]

/-- What is checked at the end of that run. -/
def lossyEnd (s : Pair) : Bool :=
  decide ((s.offered .client).length < 4) && decide ((s.offered .server).length < 4) &&
    decide (s.accepted .client = [longMessage, [9]]) && decide ((s.party .client).waitsnd = 0) &&
      decide ((s.party .server).peeksize = none)

theorem lossyRun : ∃ s : Pair,
    Run (Joint.step (next 1)) (Genuine 1) Pair.start lossyCalls s ∧
    lossyEnd s = true :=
  Run.exists_of_exec _ _ _ _ _ (by decide +kernel)

theorem lossyEnd_limit {s : Pair} (h : lossyEnd s = true) (x : End) :
    (s.offered x).length < serialLimit := by
  have hlim : serialLimit = 2 ^ 31 - 128 := rfl
  simp only [lossyEnd, Bool.and_eq_true, decide_eq_true_eq] at h
  cases x <;> omega

theorem delivered_in_order_lossy : ∃ s : Pair,
    Run (Joint.step (next 1)) (Genuine 1) Pair.start lossyCalls s ∧
    s.delivered .server <+:
      (s.accepted .client).takeWhile fun b => fragmentCount b.length ≤ 128 := by
  obtain ⟨s, hrun, hend⟩ := lossyRun
  exact ⟨s, hrun, delivered_in_order hrun (lossyEnd_limit hend) .server⟩

/-! Nothing is lost. -/

theorem call_filled {k : Ikcp} (h : k.Filled) (c : Call) : (k.call conv c).Filled := by
  cases c with
  | send buffer =>
    rcases send_cases k buffer with heq | ⟨-, heq⟩
    · have hcall : k.call conv (.send buffer) = k := congrArg Prod.fst heq
      rw [hcall]
      exact h
    · have hcall : k.call conv (.send buffer) = _ := congrArg Prod.fst heq
      rw [hcall]
      exact h
  | recv len => exact h.recv len
  | input data => exact h.input conv data
  | update now => exact h.update now

theorem run_filled (hrun : Run (Joint.step (next conv)) (Genuine conv) Pair.start is s) (x : End) :
    (s.party x).Filled := by
  obtain ⟨js, hjs⟩ := Joint.party_run (Q := fun _ _ => True) (fun _ => trivial) hrun x
  refine hjs.invariant (fun _ _ h => by cases h) fun hk _ hstep => ?_
  rw [next_ok hstep]
  exact call_filled hk _

/-- When the queue has room, the next segment is not in `rcv_buf`. -/
theorem Ikcp.Filled.not_mem {k : Ikcp} (h : k.Filled) (hbounded : k.Bounded)
    (hroom : k.rcvQueue.length < k.rcvWnd.toNat) : ∀ seg ∈ k.rcvBuf, seg.sn ≠ k.rcvNxt := by
  intro seg hseg heq
  have hsorted := hbounded.incoming.sorted
  change Ascending k.rcvNxt (sns k.rcvBuf) at hsorted
  have hfirst := h hroom
  rcases hbuf : k.rcvBuf with _ | ⟨first, rest⟩
  · rw [hbuf] at hseg
    cases hseg
  · rw [hbuf] at hseg hsorted hfirst
    rcases List.mem_cons.mp hseg with rfl | hrest
    · exact hfirst seg rfl heq
    · have hlt := (List.pairwise_cons.mp hsorted).1 seg.sn (List.mem_map_of_mem hrest)
      rw [heq, ahead_self] at hlt
      exact Nat.not_lt_zero _ hlt

/-- When `ikcp_waitsnd` is zero at one end, everything given to it is in the queue of the
other end or was taken out of it, unless that queue is full. -/
theorem all_released (hrun : Run (Joint.step (next conv)) (Genuine conv) Pair.start is s)
    (hsim : Simulates conv s arq)
    (hwaitsnd : (s.party x.other).waitsnd = 0)
    (hroom : (s.party x).rcvQueue.length < (s.party x).rcvWnd.toNat) :
    s.taken x ++ (s.party x).rcvQueue.map IkcpSeg.content = s.offered x.other := by
  have hsynced := hsim.synced x.other
  have hbuf : (s.party x.other).sndBuf = [] := by
    apply List.eq_nil_of_length_eq_zero
    unfold waitsnd at hwaitsnd
    omega
  have hnil : (s.party x.other).sndQueue = [] := by
    apply List.eq_nil_of_length_eq_zero
    unfold waitsnd at hwaitsnd
    omega
  have hdrop := hsynced.sending.queue
  change (s.party x.other).sndQueue.map IkcpSeg.content = _ at hdrop
  rw [hnil, List.map_nil] at hdrop
  have hall := List.drop_eq_nil_iff.mp hdrop.symm
  have hnumbered : (arq x.other).sender.numbered = (arq x.other).sender.offered.length := by
    rw [hsim.sender]
    exact Nat.le_antisymm hsynced.sending.nxt hall
  have hnone : (arq x.other).sender.outstanding = ∅ := by
    rw [hsim.sender]
    change carried (s.party x.other).sndBuf = ∅
    rw [hbuf, carried_nil]
  have hstuck : ∀ a, ((arq x.other).receiver.released.length, a) ∉
      (arq x.other).receiver.buffered := by
    rw [hsim.receiver, x.other_other]
    rintro a ⟨seg, hseg, heq⟩
    have hsn : seg.sn.toNat = (s.party x).rcvNxt.toNat :=
      (congrArg Prod.fst heq).trans (hsim.synced x).receiving.nxt.symm
    exact (run_filled hrun x).not_mem (hsim.synced x).bounded hroom seg hseg
      (UInt32.toNat_inj.mp hsn)
  have hreleased := (hsim.reachable x.other).all_released hnumbered hnone hstuck
  rw [hsim.receiver, hsim.sender, x.other_other] at hreleased
  exact hreleased

/-- When there is nothing to read, not all fragments of the next message are in the queue. -/
theorem Ordered.short {b : Bytes} (h : Ordered s x (b :: rest)) (hsim : Simulates conv s arq)
    (hpeek : (s.party x).peeksize = none) :
    (s.party x).rcvQueue.length < fragmentCount b.length := by
  by_contra hwhole
  have hpos := fragmentCount_pos b.length
  have hne : (s.party x).rcvQueue ≠ [] := by
    apply List.ne_nil_of_length_pos
    omega
  have hsome := (peeksize_contents (h.count b List.mem_cons_self) hne (h.queue hsim)).mpr
    (Nat.not_lt.mp hwhole)
  rw [hpeek] at hsome
  cases hsome

theorem Ordered.room (h : Ordered s x rest) (hsim : Simulates conv s arq)
    (hfits : ∀ b ∈ s.accepted x.other, fragmentCount b.length ≤ 128)
    (hpeek : (s.party x).peeksize = none) :
    (s.party x).rcvQueue.length < (s.party x).rcvWnd.toNat := by
  rw [(hsim.synced x).bounded.windows.2]
  change _ < 128
  rcases rest with _ | ⟨b, rest⟩
  · have hqueue := h.queue hsim
    rw [List.flatMap_nil, List.prefix_nil, List.map_eq_nil_iff] at hqueue
    rw [hqueue]
    decide
  · have hcount := hfits b (h.accepted ▸ List.mem_append_right _ List.mem_cons_self)
    have hshort := h.short hsim hpeek
    omega

theorem Ordered.complete (h : Ordered s x rest) (hsim : Simulates conv s arq)
    (hrun : Run (Joint.step (next conv)) (Genuine conv) Pair.start is s)
    (hfits : ∀ b ∈ s.accepted x.other, fragmentCount b.length ≤ 128)
    (hwaitsnd : (s.party x.other).waitsnd = 0) (hpeek : (s.party x).peeksize = none) :
    rest = [] := by
  cases rest with
  | nil => rfl
  | cons b rest =>
    have hshort := h.short hsim hpeek
    have hreleased := all_released hrun hsim hwaitsnd (h.room hsim hfits hpeek)
    rw [h.taken, Pair.offered, h.accepted, List.flatMap_append] at hreleased
    have hlen := congrArg List.length (List.append_cancel_left hreleased)
    rw [List.length_map, List.flatMap_cons, List.length_append, contents_length] at hlen
    omega

/-- When `ikcp_waitsnd` is zero at one end and there is nothing to read at the other
one, every message has come out, if each of them fits the receive window. -/
theorem all_delivered
    (hrun : Run (Joint.step (next conv)) (Genuine conv) Pair.start is s)
    (hlimit : ∀ x, (s.offered x).length < serialLimit) (x : End)
    (hfits : ∀ b ∈ s.accepted x.other, fragmentCount b.length ≤ 128)
    (hwaitsnd : (s.party x.other).waitsnd = 0) (hpeek : (s.party x).peeksize = none) :
    s.delivered x = s.accepted x.other := by
  obtain ⟨rest, hordered⟩ := run_ordered hrun hlimit x
  obtain ⟨arq, hsim⟩ := run_simulates hrun hlimit
  rw [hordered.accepted, hordered.complete hsim hrun hfits hwaitsnd hpeek, List.append_nil]

theorem all_delivered_lossy : ∃ s : Pair,
    Run (Joint.step (next 1)) (Genuine 1) Pair.start lossyCalls s ∧
    s.delivered .server = [longMessage, [9]] := by
  obtain ⟨s, hrun, hend⟩ := lossyRun
  have hlimit := lossyEnd_limit hend
  simp only [lossyEnd, Bool.and_eq_true, decide_eq_true_eq] at hend
  obtain ⟨⟨⟨-, haccepted⟩, hwaitsnd⟩, hpeek⟩ := hend
  refine ⟨s, hrun, ?_⟩
  rw [← haccepted]
  refine all_delivered hrun hlimit .server ?_ hwaitsnd hpeek
  rw [show End.server.other = End.client from rfl, haccepted]
  decide +kernel

end Run

end KcpEv
