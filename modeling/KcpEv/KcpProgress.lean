import KcpEv.KcpLive

/-!
Two control blocks never come to a standstill. Whatever was lost, repeated or reordered
before, and however full the windows are: from every state there is a way to go on,
without another message, on which everything that was sent comes out at the other end.
-/
namespace KcpEv

open Guarded Relation Arq Ikcp

/-- A call that gives no new message. -/
def Quiet (conv : ℕ) (s : Pair) (i : End × Call) : Prop :=
  Genuine conv s i ∧ ∀ buffer, i.2 ≠ .send buffer

/-- A state that can be reached, in which the messages fit the receive window and the
serial numbers do not come around. -/
structure Going (conv : ℕ) (s : Pair) : Prop where
  run : ∃ is, Run (Joint.step (next conv)) (Genuine conv) Pair.start is s
  limit : ∀ x, (s.offered x).length < serialLimit
  fits : ∀ x, ∀ b ∈ s.accepted x, fragmentCount b.length ≤ 128

/-- There is a way from a state to another one without a new message. -/
def Onward (conv : ℕ) (s s' : Pair) : Prop :=
  ∃ is, Run (Joint.step (next conv)) (Quiet conv) s is s'

/-- What a quiet call of an end does. -/
structure Calls (conv : ℕ) (s : Pair) (e : End) (c : Call) (s' : Pair) : Prop where
  quiet : Quiet conv s (e, c)
  step : Joint.step (next conv) s (e, c) = .ok s'
  self : s'.party e = (s.party e).call conv c
  other : s'.party e.other = s.party e.other

section Quiet
variable {conv : ℕ} {s s' s'' : Pair} {e x : End} {c : Call}

theorem exists_calls (h : Quiet conv s (e, c)) : ∃ s', Calls conv s e c s' := by
  have hstep : ∃ s', Joint.step (next conv) s (e, c) = .ok s' := ⟨_, rfl⟩
  obtain ⟨s', hs'⟩ := hstep
  exact ⟨s', h, hs', next_ok (Joint.step_self hs').1, Joint.step_other hs' e.other_ne⟩

theorem quiet_update (s : Pair) (e : End) (now : UInt32) : Quiet conv s (e, .update now) :=
  ⟨trivial, fun _ h => by cases h⟩

theorem quiet_recv (s : Pair) (e : End) (len : ℕ) : Quiet conv s (e, .recv len) :=
  ⟨trivial, fun _ h => by cases h⟩

theorem quiet_input {d : Bytes} (h : d ∈ s.sent conv e.other) : Quiet conv s (e, .input d) :=
  ⟨h, fun _ h => by cases h⟩

theorem Onward.refl (s : Pair) : Onward conv s s := ⟨[], .nil⟩

theorem Onward.trans (h : Onward conv s s') (h' : Onward conv s' s'') : Onward conv s s'' := by
  obtain ⟨is, hrun⟩ := h
  obtain ⟨js, hrun'⟩ := h'
  exact ⟨is ++ js, hrun.append hrun'⟩

theorem Calls.onward (h : Calls conv s e c s') : Onward conv s s' := by
  have hnil : Run (Joint.step (next conv)) (Quiet conv) s [] s := .nil
  exact ⟨_, hnil.snoc h.quiet h.step⟩

theorem quiet_accepts (h : Quiet conv s (e, c)) : accepts (s.party e) c = [] := by
  cases c with
  | send buffer => exact absurd rfl (h.2 buffer)
  | recv | input | update => rfl

theorem Onward.accepted (h : Onward conv s s') (x : End) : s'.accepted x = s.accepted x := by
  obtain ⟨is, hrun⟩ := h
  induction hrun with
  | nil => rfl
  | @snoc is s₁ s₂ i hrun hquiet hstep ih =>
    rw [← ih]
    rcases x.eq_or i.1 with rfl | rfl
    · have hself : s₂.accepted i.1 = s₁.accepted i.1 ++ accepts (s₁.party i.1) i.2 :=
        log_self accepts hstep
      rw [hself, quiet_accepts hquiet, List.append_nil]
    · exact log_other accepts hstep

theorem Onward.waitsnd_le (h : Onward conv s s') (x : End) :
    (s'.party x).waitsnd ≤ (s.party x).waitsnd := by
  obtain ⟨is, hrun⟩ := h
  induction hrun with
  | nil => exact Nat.le_refl _
  | @snoc is s₁ s₂ i hrun hquiet hstep ih =>
    refine Nat.le_trans ?_ ih
    rcases x.eq_or i.1 with rfl | rfl
    · rw [next_ok (Joint.step_self hstep).1]
      exact call_waitsnd_le _ hquiet.2
    · rw [Joint.step_other hstep i.1.other_ne]

theorem Going.onward (h : Going conv s) (honward : Onward conv s s') : Going conv s' := by
  obtain ⟨is, hrun⟩ := h.run
  have haccepted := fun x => honward.accepted x
  obtain ⟨js, hrun'⟩ := honward
  refine ⟨⟨is ++ js, hrun.append (hrun'.mono fun hquiet => hquiet.1)⟩, fun x => ?_, fun x => ?_⟩
  · unfold Pair.offered
    rw [haccepted]
    exact h.limit x
  · rw [haccepted]
    exact h.fits x

theorem Going.simulates (h : Going conv s) : ∃ arq, Simulates conv s arq := by
  obtain ⟨is, hrun⟩ := h.run
  exact run_simulates hrun h.limit

theorem Going.filled (h : Going conv s) (x : End) : (s.party x).Filled := by
  obtain ⟨is, hrun⟩ := h.run
  exact run_filled hrun x

theorem Going.ordered (h : Going conv s) (x : End) : ∃ rest, Ordered s x rest := by
  obtain ⟨is, hrun⟩ := h.run
  exact run_ordered hrun h.limit x

theorem Going.does (h : Going conv s) (hgenuine : Genuine conv s (e, c)) :
    ∃ data acks, Does conv data acks (s.offered e) (s.taken e) (s.party e) c := by
  obtain ⟨arq, hsim⟩ := h.simulates
  exact ⟨_, _, hsim.does h.limit hgenuine⟩

theorem Calls.rcvNxt_le (h : Calls conv s e c s') (hgoing : Going conv s) :
    (s.party e).rcvNxt.toNat ≤ (s'.party e).rcvNxt.toNat := by
  obtain ⟨data, acks, hdoes⟩ := hgoing.does h.quiet.1
  obtain ⟨arq, hsim⟩ := hgoing.simulates
  have hle := (released_steps hdoes.receiver).length_le
  have hold : (s.party e).rcvNxt.toNat = _ := (hsim.synced e).receiving.nxt
  have hnew : ((s.party e).call conv c).rcvNxt.toNat = _ := hdoes.synced.receiving.nxt
  rw [h.self, hold, hnew]
  exact hle

end Quiet

/-! The application reads. -/

theorem Ikcp.recv_some {k : Ikcp} {size : ℕ} (h : k.peeksize = some size) :
    ∃ k' msg, k.recv size = (k', some msg) := by
  unfold recv
  rw [h]
  dsimp only
  rw [if_neg (Nat.lt_irrefl size)]
  exact ⟨_, _, rfl⟩

theorem Ikcp.notes_recv (k : Ikcp) (len : ℕ) : k.Notes (k.recv len).1 := by
  unfold recv
  split
  · exact .refl k
  · split
    · exact .refl k
    · dsimp only
      split
      · exact Notes.of_asked (.of_eq rfl rfl rfl)
      · exact .of_eq rfl rfl rfl

section Progress
variable {conv : ℕ} {s s' : Pair} {arq : End → Arq.State Content} {e x : End}

/-- What an end has to say stays when it reads, and it expects no less. -/
structure Reads (conv : ℕ) (s : Pair) (x : End) (s' : Pair) : Prop where
  onward : Onward conv s s'
  other : s'.party x.other = s.party x.other
  notes : (s.party x).Notes (s'.party x)
  rcvNxt : (s.party x).rcvNxt.toNat ≤ (s'.party x).rcvNxt.toNat

theorem Going.read_all (h : Going conv s) (x : End) :
    ∃ s', Reads conv s x s' ∧ (s'.party x).peeksize = none := by
  have hstart : Reads conv s x s := ⟨.refl s, rfl, .refl _, Nat.le_refl _⟩
  suffices hdescend : ∃ is s', Run (Joint.step (next conv)) (Quiet conv) s is s' ∧
      Reads conv s x s' ∧ (s'.party x).peeksize = none by
    obtain ⟨is, s', -, hreads⟩ := hdescend
    exact ⟨s', hreads⟩
  refine Run.descend (fun s' : Pair => (s'.accepted x.other).length - (s'.delivered x).length) ?_
    hstart
  intro (s₁ : Pair) hs₁ hpeek
  obtain ⟨size, hsize⟩ := Option.ne_none_iff_exists'.mp hpeek
  obtain ⟨k', msg, hrecv⟩ := recv_some hsize
  obtain ⟨s₂, hcalls⟩ : ∃ s₂, Calls conv s₁ x (.recv size) s₂ :=
    exists_calls (quiet_recv s₁ x size)
  have hgoing := h.onward hs₁.onward
  obtain ⟨is, hrun⟩ := hcalls.onward
  refine ⟨is, s₂, hrun, ⟨hs₁.onward.trans hcalls.onward, hcalls.other.trans hs₁.other, ?_, ?_⟩, ?_⟩
  · rw [hcalls.self]
    exact hs₁.notes.trans (notes_recv _ size)
  · exact hs₁.rcvNxt.trans (hcalls.rcvNxt_le hgoing)
  · obtain ⟨rest, hordered⟩ := (hgoing.onward hcalls.onward).ordered x
    have haccepted := hcalls.onward.accepted x.other
    have hdelivered : s₂.delivered x = s₁.delivered x ++ delivers (s₁.party x) (.recv size) :=
      log_self delivers hcalls.step
    have hone : delivers (s₁.party x) (.recv size) = [msg] := by
      simp [delivers, hrecv]
    have hlen := congrArg List.length hordered.accepted
    rw [hdelivered, hone, List.length_append, List.length_append, List.length_singleton] at hlen
    rw [haccepted, hdelivered, hone, List.length_append, List.length_singleton]
    rw [haccepted] at hlen
    omega

/-- The first segment in flight is not behind what the peer expects, if that has room:
what was acknowledged there was also moved to its queue. -/
theorem Going.first_le (h : Going conv s) {first : IkcpSeg} {rest : List IkcpSeg}
    (hbuf : (s.party e).sndBuf = first :: rest)
    (hroom : (s.party e.other).rcvQueue.length < (s.party e.other).rcvWnd.toNat) :
    first.sn.toNat ≤ (s.party e.other).rcvNxt.toNat := by
  by_contra hlt
  have hlim : serialLimit = 2 ^ 31 - 128 := rfl
  obtain ⟨arq, hsim⟩ := h.simulates
  have hsynced := hsim.synced e
  have houtgoing := hsynced.bounded.outgoing
  have hlimit := h.limit e
  have hnxt : (s.party e).sndNxt.toNat ≤ (s.offered e).length := hsynced.sending.nxt
  have hmem : first ∈ (s.party e).sndBuf := hbuf ▸ List.mem_cons_self
  have hfirst : first.sn.toNat < (s.party e).sndNxt.toNat := (hsynced.sending.buf first hmem).1
  have hexpected : (s.party e.other).rcvNxt.toNat = (arq e).receiver.released.length := by
    rw [hsim.receiver]
    exact (hsim.synced e.other).receiving.nxt
  have hnumbered : (arq e).receiver.released.length < (arq e).sender.numbered := by
    rw [hsim.sender]
    change _ < (s.party e).sndNxt.toNat
    omega
  rcases (hsim.reachable e).inv.arrived _ hnumbered with ⟨a, hout⟩ | hpast | ⟨a, hin⟩
  · -- the segments in flight are in order
    rw [hsim.sender] at hout
    obtain ⟨seg, hseg, heq⟩ : ∃ seg ∈ (s.party e).sndBuf, _ := hout
    have hsn : seg.sn.toNat = _ := congrArg Prod.fst heq
    have huna : (s.party e).sndUna = first.sn := by
      have huna := houtgoing.una
      change (s.party e).sndUna = firstSn (s.party e).sndBuf (s.party e).sndNxt at huna
      rwa [hbuf] at huna
    have hbefore : ahead (s.party e).sndUna seg.sn < ahead (s.party e).sndUna (s.party e).sndNxt :=
      houtgoing.before seg.sn (List.mem_map_of_mem hseg)
    rw [huna, ahead_eq, ahead_eq] at hbefore
    omega
  · exact absurd hpast (Nat.lt_irrefl _)
  · rw [← hexpected, hsim.receiver] at hin
    obtain ⟨seg, hseg, heq⟩ : ∃ seg ∈ (s.party e.other).rcvBuf, _ := hin
    have hsn : seg.sn.toNat = _ := congrArg Prod.fst heq
    exact (h.filled e.other).not_mem (hsim.synced e.other).bounded hroom seg hseg
      (UInt32.toNat_inj.mp (by omega))

/-- An end gets the first segment in flight, if it has room. -/
theorem Going.hears (h : Going conv s) {segs : List IkcpSeg} {first : IkcpSeg}
    {rest : List IkcpSeg} (hsent : datagram segs ∈ s.sent conv e) (hsendable : Sendable conv segs)
    (hfirst : first ∈ segs) (hbuf : (s.party e).sndBuf = first :: rest)
    (hroom : (s.party e.other).rcvQueue.length < (s.party e.other).rcvWnd.toNat) :
    ∃ s', Calls conv s e.other (.input (datagram segs)) s' ∧
      first.sn.toNat < (s'.party e.other).rcvNxt.toNat ∧ (s'.party e.other).acklist ≠ [] := by
  have hquiet : Quiet conv s (e.other, .input (datagram segs)) :=
    quiet_input (by rwa [e.other_other])
  obtain ⟨s', hcalls⟩ := exists_calls hquiet
  have hpast := h.first_le hbuf hroom
  have hstays := hcalls.rcvNxt_le h
  obtain ⟨arq, hsim⟩ := h.simulates
  have hgoing := h.onward hcalls.onward
  obtain ⟨arq', hsim'⟩ := hgoing.simulates
  -- the segment is found again in what arrives
  obtain ⟨segs', heq, -, hsendable', hears⟩ := hsim.wire e _ hsent
  obtain ⟨seg, hseg, hsame⟩ : ∃ seg ∈ segs', seg.arrived = first.arrived := by
    have hmem : first.arrived ∈ segs.map IkcpSeg.arrived := List.mem_map_of_mem hfirst
    rw [datagram_inj hsendable hsendable' heq] at hmem
    exact List.mem_map.mp hmem
  have hsn : seg.arrived.sn = first.arrived.sn := by rw [hsame]
  have hcmd : seg.arrived.cmd = first.arrived.cmd := by rw [hsame]
  change seg.sn = first.sn at hsn
  change seg.cmd = first.cmd at hcmd
  have hmem : first ∈ (s.party e).sndBuf := hbuf ▸ List.mem_cons_self
  have hpush : first.cmd = .push := (hsim.synced e).bounded.outgoing.pushes first hmem
  have hack : (seg.sn, seg.ts) ∈ (s'.party e.other).acklist := by
    rw [hcalls.self, heq]
    refine (hsim.synced e.other).input_acks (h.limit e.other)
      (hsim.bounds e.other (h.limit e.other)).1 (hsim.bounds e (h.limit e)).2 hsendable' hears hseg
      (hcmd.trans hpush) ?_
    rwa [hsn]
  refine ⟨s', hcalls, ?_, List.ne_nil_of_mem hack⟩
  by_contra hlt
  -- then nothing was released, and there is still room
  have htaken : s'.taken e.other = s.taken e.other := by
    have hlog : s'.taken e.other = s.taken e.other ++ reads (s.party e.other) _ :=
      log_self reads hcalls.step
    rw [hlog]
    exact List.append_nil _
  have hold : (s.party e.other).rcvNxt.toNat = _ := (hsim.synced e.other).receiving.nxt
  have hnew : (s'.party e.other).rcvNxt.toNat = _ := (hsim'.synced e.other).receiving.nxt
  have hgot := (hsim'.synced e.other).receiving.acks _ hack
  have hwnd := (hsim.synced e.other).bounded.windows.2
  have hwnd' := (hsim'.synced e.other).bounded.windows.2
  have hroom' : (s'.party e.other).rcvQueue.length < (s'.party e.other).rcvWnd.toNat := by
    rw [htaken, List.length_append, List.length_map] at hnew
    rw [List.length_append, List.length_map] at hold
    change _ = _ + (s.party e.other).rcvQueue.length at hold
    change _ = _ + (s'.party e.other).rcvQueue.length at hnew
    rw [hwnd] at hroom
    rw [hwnd']
    omega
  rcases hgot with hpassed | ⟨a, other, hother, hnumber⟩
  · change seg.sn.toNat < _ at hpassed
    rw [hsn] at hpassed
    exact hlt (hnew ▸ hpassed)
  · have hothersn : other.sn.toNat = seg.sn.toNat := congrArg Prod.fst hnumber
    rw [hsn] at hothersn
    exact (hgoing.filled e.other).not_mem (hsim'.synced e.other).bounded hroom' other hother
      (UInt32.toNat_inj.mp (by omega))

/-- After a call that reads nothing and brings no message, the block is still in step. -/
theorem Going.synced_update (h : Going conv s) (x : End) (now : UInt32) :
    Synced conv (s.offered x) (s.taken x) ((s.party x).call conv (.update now)) := by
  obtain ⟨data, acks, hdoes⟩ := h.does (quiet_update s x now).1
  have hsynced := hdoes.synced
  change Synced conv (s.offered x ++ []) (s.taken x ++ []) _ at hsynced
  rwa [List.append_nil, List.append_nil] at hsynced

/-- What an end sends at some time is on the way to the other one. -/
theorem exists_sends {now : UInt32} {segs : List IkcpSeg}
    (hsends : (s.party e).Sends conv now segs) :
    ∃ s', Calls conv s e (.update now) s' ∧ datagram segs ∈ s'.sent conv e := by
  obtain ⟨s', hcalls⟩ : ∃ s', Calls conv s e (.update now) s' := exists_calls (quiet_update s e now)
  have hsent : s'.sent conv e = s.sent conv e ++ outputs conv (s.party e) (.update now) :=
    log_self (outputs conv) hcalls.step
  refine ⟨s', hcalls, ?_⟩
  rw [hsent]
  exact List.mem_append_right _ hsends.out

theorem Ikcp.wndUnused_ne {k : Ikcp} (hwnd : k.rcvWnd = 128)
    (hroom : k.rcvQueue.length < k.rcvWnd.toNat) : k.wndUnused.toUInt32 ≠ 0 := by
  unfold wndUnused
  rw [if_pos hroom]
  rw [hwnd] at hroom ⊢
  change k.rcvQueue.length < 128 at hroom
  intro hzero
  have hnat : (UInt16.ofNat (128 - k.rcvQueue.length)).toNat = 0 := congrArg UInt32.toNat hzero
  rw [UInt16.toNat_ofNat'] at hnat
  omega

/-- An end that has something to say opens the window of the other one, which forgets
what has arrived. -/
theorem Going.answered (h : Going conv s)
    (howes : (s.party e.other).acklist ≠ [] ∨ (s.party e.other).Asked) :
    ∃ s', Onward conv s s' ∧ (s'.party e).rmtWnd ≠ 0 ∧
      ∀ {first rest}, (s.party e).sndBuf = first :: rest →
        first.sn.toNat < (s.party e.other).rcvNxt.toNat →
          (s'.party e).waitsnd < (s.party e).waitsnd := by
  obtain ⟨s₁, hreads, hpeek⟩ := h.read_all e.other
  have hgoing₁ := h.onward hreads.onward
  obtain ⟨arq, hsim⟩ := hgoing₁.simulates
  have hsynced := hsim.synced e.other
  have hroom : (s₁.party e.other).rcvQueue.length < (s₁.party e.other).rcvWnd.toNat := by
    obtain ⟨rest, hordered⟩ := hgoing₁.ordered e.other
    exact hordered.room hsim (hgoing₁.fits _) hpeek
  have howes₁ : (s₁.party e.other).acklist ≠ [] ∨ (s₁.party e.other).Asked := by
    refine howes.imp (fun hne hnil => hne ?_) hreads.notes.asked
    exact List.subset_nil.mp (hnil ▸ hreads.notes.acks)
  -- the other end says it
  obtain ⟨now, segs, hsends, hne⟩ :=
    hsynced.answers (hgoing₁.synced_update e.other) howes₁
  obtain ⟨s₂, hcalls, hsent⟩ := exists_sends hsends
  have hself : s₂.party e = s.party e := by
    have hother := hcalls.other
    have hread := hreads.other
    rw [e.other_other] at hother hread
    exact hother.trans hread
  -- and it is heard
  obtain ⟨s₃, hhears⟩ := exists_calls (quiet_input hsent)
  refine ⟨s₃, (hreads.onward.trans hcalls.onward).trans hhears.onward, ?_, ?_⟩
  · rw [hhears.self]
    change ((s₂.party e).input conv (datagram segs)).1.rmtWnd ≠ 0
    rw [input_rmtWnd hsends.sendable hne hsends.wnd]
    exact wndUnused_ne hsynced.bounded.windows.2 hroom
  · intro first rest hbuf hpast
    rw [hhears.self, hself]
    refine input_waitsnd_lt hsends.sendable hne hbuf fun seg hseg => ?_
    have hnear : (s₁.party e.other).rcvNxt.toNat ≤ serialLimit := hsynced.receiving.near
    have hlim : serialLimit = 2 ^ 31 - 128 := rfl
    have hstays := hreads.rcvNxt
    rw [hsends.una seg hseg, itimediff_small (by omega) (by omega)]
    omega

theorem Going.asked (h : Going conv s) (hclosed : (s.party e).rmtWnd = 0) :
    ∃ s', Onward conv s s' ∧ (s'.party e.other).Asked := by
  suffices hasks : ∀ {s : Pair}, Going conv s → (s.party e).rmtWnd = 0 →
      (s.party e).probeWait ≠ 0 → ∃ s', Onward conv s s' ∧ (s'.party e.other).Asked by
    by_cases hwait : (s.party e).probeWait = 0
    · obtain ⟨now, hset, hstays⟩ := exists_probeWait conv hclosed hwait
      obtain ⟨s₁, hcalls⟩ : ∃ s₁, Calls conv s e (.update now) s₁ :=
        exists_calls (quiet_update s e now)
      rw [← hcalls.self] at hset hstays
      obtain ⟨s', honward, hasked⟩ := hasks (h.onward hcalls.onward) hstays hset
      exact ⟨s', hcalls.onward.trans honward, hasked⟩
    · exact hasks h hclosed hwait
  intro s h hclosed hwait
  obtain ⟨arq, hsim⟩ := h.simulates
  obtain ⟨now, segs, hsends, hwask⟩ := (hsim.synced e).asks (h.synced_update e) hclosed hwait
  obtain ⟨s₁, hcalls, hsent⟩ := exists_sends hsends
  obtain ⟨s₂, hhears⟩ : ∃ s₂, Calls conv s₁ e.other (.input (datagram segs)) s₂ :=
    exists_calls (quiet_input (by rwa [e.other_other]))
  refine ⟨s₂, hcalls.onward.trans hhears.onward, ?_⟩
  rw [hhears.self]
  exact input_asked hsends.sendable hwask

/-- What waits can always become less. -/
theorem Going.round (h : Going conv s) (hwaits : (s.party e).waitsnd ≠ 0) :
    ∃ s', Onward conv s s' ∧ (s'.party e).waitsnd < (s.party e).waitsnd := by
  suffices hopen : ∀ {s : Pair}, Going conv s → (s.party e).sndBuf ≠ [] ∨
      (s.party e).sndQueue ≠ [] ∧ (s.party e).rmtWnd ≠ 0 →
      ∃ s', Onward conv s s' ∧ (s'.party e).waitsnd < (s.party e).waitsnd by
    have hsome : ∀ {k : Ikcp}, k.waitsnd ≠ 0 → k.sndBuf ≠ [] ∨ k.sndQueue ≠ [] := by
      intro k hne
      by_contra hnone
      simp only [not_or, not_not] at hnone
      unfold waitsnd at hne
      rw [hnone.1, hnone.2] at hne
      exact hne rfl
    by_cases hclosed : (s.party e).rmtWnd = 0
    · -- the window is asked for and opens
      obtain ⟨s₁, honward₁, hasked⟩ := h.asked hclosed
      obtain ⟨s₂, honward₂, hwnd, -⟩ := (h.onward honward₁).answered (Or.inr hasked)
      have honward := honward₁.trans honward₂
      have hle := honward.waitsnd_le e
      by_cases hless : (s₂.party e).waitsnd < (s.party e).waitsnd
      · exact ⟨s₂, honward, hless⟩
      · have hstill : (s₂.party e).waitsnd ≠ 0 := by omega
        obtain ⟨s₃, honward₃, hlt⟩ := hopen (h.onward honward)
          ((hsome hstill).imp_right fun hqueue => ⟨hqueue, hwnd⟩)
        exact ⟨s₃, honward.trans honward₃, by omega⟩
    · exact hopen h ((hsome hwaits).imp_right fun hqueue => ⟨hqueue, hclosed⟩)
  intro s h hwaits
  -- the peer makes room
  obtain ⟨s₁, hreads, hpeek⟩ := h.read_all e.other
  have hgoing₁ := h.onward hreads.onward
  obtain ⟨arq, hsim⟩ := hgoing₁.simulates
  obtain ⟨rest₁, hordered⟩ := hgoing₁.ordered e.other
  have hroom := hordered.room hsim (hgoing₁.fits _) hpeek
  have hself := hreads.other
  rw [e.other_other] at hself
  rw [← hself] at hwaits
  -- the first segment is sent, heard and acknowledged
  obtain ⟨now, segs, first, rest, hsends, hfirst, hbuf⟩ :=
    (hsim.synced e).resends (hgoing₁.synced_update e) hwaits
  obtain ⟨s₂, hcalls, hsent⟩ := exists_sends hsends
  have hgoing₂ := hgoing₁.onward hcalls.onward
  rw [← hcalls.self] at hbuf
  rw [← hcalls.other] at hroom
  obtain ⟨s₃, hhears, hpast, hacks⟩ := hgoing₂.hears hsent hsends.sendable hfirst hbuf hroom
  have hsame := hhears.other
  rw [e.other_other] at hsame
  rw [← hsame] at hbuf
  obtain ⟨s₄, honward, -, hless⟩ := (hgoing₂.onward hhears.onward).answered (Or.inl hacks)
  have honward₃ := (hreads.onward.trans hcalls.onward).trans hhears.onward
  exact ⟨s₄, honward₃.trans honward,
    Nat.lt_of_lt_of_le (hless hbuf hpast) (honward₃.waitsnd_le e)⟩

theorem Going.drained (h : Going conv s) (e : End) :
    ∃ s', Onward conv s s' ∧ (s'.party e).waitsnd = 0 := by
  suffices hdescend : ∃ is s', Run (Joint.step (next conv)) (Quiet conv) s is s' ∧
      Onward conv s s' ∧ (s'.party e).waitsnd = 0 by
    obtain ⟨is, s', -, hdrained⟩ := hdescend
    exact ⟨s', hdrained⟩
  refine Run.descend (fun s' : Pair => (s'.party e).waitsnd) ?_ (Onward.refl s)
  intro (s₁ : Pair) hs₁ hwaits
  obtain ⟨s₂, honward, hless⟩ := (h.onward hs₁).round hwaits
  obtain ⟨is, hrun⟩ := honward
  exact ⟨is, s₂, hrun, hs₁.trans ⟨is, hrun⟩, hless⟩

/-- From every state, whatever was lost before and however full the windows are, there
is a way to go on without another message on which everything comes out. -/
theorem never_stuck {is : List (End × Call)}
    (hrun : Run (Joint.step (next conv)) (Genuine conv) Pair.start is s)
    (hlimit : ∀ x, (s.offered x).length < serialLimit)
    (hfits : ∀ x, ∀ b ∈ s.accepted x, fragmentCount b.length ≤ 128) :
    ∃ js, ∃ s' : Pair, Run (Joint.step (next conv)) (Quiet conv) s js s' ∧
      ∀ x, s'.delivered x = s.accepted x.other := by
  have hgoing : Going conv s := ⟨⟨is, hrun⟩, hlimit, hfits⟩
  obtain ⟨s₁, honward₁, hclient⟩ := hgoing.drained .client
  obtain ⟨s₂, honward₂, hserver⟩ := (hgoing.onward honward₁).drained .server
  have hgoing₂ := hgoing.onward (honward₁.trans honward₂)
  obtain ⟨s₃, hreads₃, hpeek₃⟩ := hgoing₂.read_all .client
  obtain ⟨s₄, hreads₄, hpeek₄⟩ := (hgoing₂.onward hreads₃.onward).read_all .server
  have honward : Onward conv s s₄ :=
    ((honward₁.trans honward₂).trans hreads₃.onward).trans hreads₄.onward
  have hwaitsnd : ∀ x, (s₄.party x).waitsnd = 0 := by
    have hlast := hreads₃.onward.trans hreads₄.onward
    intro x
    cases x with
    | client =>
      have hle := (honward₂.trans hlast).waitsnd_le .client
      omega
    | server =>
      have hle := hlast.waitsnd_le .server
      omega
  have hpeek : ∀ x, (s₄.party x).peeksize = none := by
    intro x
    cases x with
    | client =>
      have hsame : s₄.party .client = s₃.party .client := hreads₄.other
      rw [hsame, hpeek₃]
    | server => exact hpeek₄
  have hgoing₄ := hgoing.onward honward
  obtain ⟨arq, hsim⟩ := hgoing₄.simulates
  obtain ⟨is₄, hrun₄⟩ := hgoing₄.run
  have haccepted := honward.accepted
  obtain ⟨js, hjs⟩ := honward
  refine ⟨js, s₄, hjs, fun x => ?_⟩
  obtain ⟨rest, hordered⟩ := hgoing₄.ordered x
  have hcomplete := hordered.complete hsim hrun₄ (hgoing₄.fits _) (hwaitsnd _) (hpeek x)
  rw [← haccepted, hordered.accepted, hcomplete, List.append_nil]

/-- Two messages are sent in two datagrams, and the first of these is lost. -/
def lostCalls : List (End × Call) :=
  [(.client, .send longMessage), (.client, .send [9]), (.client, .update 0),
    (.server, .input secondDatagram)]

theorem never_stuck_lost : ∃ s : Pair,
    Run (Joint.step (next 1)) (Genuine 1) Pair.start lostCalls s ∧
    ∃ js, ∃ s' : Pair, Run (Joint.step (next 1)) (Quiet 1) s js s' ∧
      s'.delivered .server = [longMessage, [9]] := by
  let test (s : Pair) : Bool :=
    decide (s.accepted .client = [longMessage, [9]]) && decide (s.accepted .server = [])
  obtain ⟨s, hrun, hend⟩ : ∃ s : Pair,
      Run (Joint.step (next 1)) (Genuine 1) Pair.start lostCalls s ∧ test s = true :=
    Run.exists_of_exec _ _ _ _ _ (by decide +kernel)
  simp only [test, Bool.and_eq_true, decide_eq_true_eq] at hend
  obtain ⟨hclient, hserver⟩ := hend
  have hlimit : ∀ x, (s.offered x).length < serialLimit := by
    intro x
    unfold Pair.offered
    cases x with
    | client =>
      rw [hclient]
      decide +kernel
    | server =>
      rw [hserver]
      decide
  have hfits : ∀ x, ∀ b ∈ s.accepted x, fragmentCount b.length ≤ 128 := by
    intro x
    cases x with
    | client =>
      rw [hclient]
      decide +kernel
    | server =>
      rw [hserver]
      decide
  obtain ⟨js, s', hjs, hdelivered⟩ := never_stuck hrun hlimit hfits
  refine ⟨s, hrun, js, s', hjs, ?_⟩
  rw [hdelivered .server, show End.server.other = End.client from rfl, hclient]

end Progress

end KcpEv
