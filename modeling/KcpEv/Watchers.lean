import KcpEv.Resources

/-!
Which watchers a call starts. Of the library's functions only `kcpev_init_ev`
starts any, and it says whom they belong to.
-/
namespace KcpEv

variable {K T : Type}

/-- A change that starts only watchers of one kind. -/
structure Os.Starts (P : EvIo → Prop) (os os' : Os K T) : Prop where
  next : os.next ≤ os'.next
  io : ∀ {q e}, os'.ios q = some e → os.ios q = some e ∨ P e
  calls : os'.serverCalls = os.serverCalls

namespace Os.Starts

variable {P P' : EvIo → Prop} {os os' os'' : Os K T}

theorem refl (os : Os K T) : os.Starts P os := ⟨le_rfl, Or.inl, rfl⟩

theorem trans (h : os.Starts P os') (h' : os'.Starts P os'') : os.Starts P os'' where
  next := h.next.trans h'.next
  io he := by
    rcases h'.io he with he | he
    · exact h.io he
    · exact Or.inr he
  calls := h'.calls.trans h.calls

theorem of_same (h : os.Same os') : os.Starts P os' :=
  ⟨h.next.ge, fun he => Or.inl (by rw [← h.ios]; exact he), h.calls⟩

theorem of_ios (hnext : os.next ≤ os'.next) (hios : os'.ios = os.ios) (hout : os'.out = os.out) :
    os.Starts P os' :=
  ⟨hnext, fun he => Or.inl (by rw [← hios]; exact he), by rw [Os.serverCalls, hout]; rfl⟩

theorem destroySock (os : Os K T) (k : KcpevSock) : os.Starts P (k.destroy os).1 where
  next := (Owned.destroySock_rest os k).2.2.1.ge
  calls := by rw [Os.serverCalls, (Owned.destroySock_rest os k).2.2.2]; rfl
  io {q e} he := by
    rw [Owned.destroySock_ios] at he
    rcases hk : k.evio with _ | p
    · rw [hk] at he
      exact Or.inl he
    · rw [hk, Option.elim_some] at he
      rcases eq_or_ne q p with rfl | hne
      · rw [Function.update_self] at he
        cases he
      · rw [Function.update_of_ne hne] at he
        exact Or.inl he

theorem destroyUdp (os : Os K T) (udp : KcpevUdp T) : os.Starts P (udp.destroy os).1 := by
  refine (destroySock os udp.toKcpevSock).trans (of_ios (le_of_eq ?_) ?_ ?_)
  · simp only [KcpevUdp.destroy, Owned.releaseKcp_fst, Owned.stopEvh_fst, Owned.stopEvt_fst]
  · simp only [KcpevUdp.destroy, Owned.releaseKcp_fst, Owned.stopEvh_fst, Owned.stopEvt_fst]
  · simp only [KcpevUdp.destroy, Owned.releaseKcp_fst, Owned.stopEvh_fst, Owned.stopEvt_fst]

theorem destroy (os : Os K T) (b : KcpevBase T) : os.Starts P (b.destroy os) :=
  (destroySock os b.tcp.toKcpevSock).trans (destroyUdp _ b.udp)

theorem bindSocket {k k' : KcpevSock} {reuse : Bool} {a : BindAnswer} {ret : ℤ}
    (h : kcpevBindSocket os k reuse a = (os', k', ret)) : os.Starts P os' := by
  unfold kcpevBindSocket at h
  split at h
  · cases h
    exact refl os
  · rcases bindLoop_cases reuse a.addrs os with ⟨hl, -⟩ | ⟨fd, -, hl, -⟩ | ⟨fd, -, hl, -⟩
    · rw [hl] at h
      cases h
      exact refl os
    · rw [hl] at h
      cases h
      exact of_ios le_rfl rfl rfl
    · rw [hl] at h
      cases h
      exact of_ios le_rfl rfl rfl

theorem connectSocket {k : KcpevSock} {addr : Addr} {a : ConnectAnswer} {ret : ℤ}
    (h : kcpevConnectSocket os k addr a = (os', ret)) : os.Starts P os' := by
  have hconn : os.Starts P (os.connect k.sock addr) := by
    unfold Os.connect
    split
    · exact refl os
    · exact of_ios le_rfl rfl rfl
  unfold kcpevConnectSocket at h
  split at h
  · cases h
    exact refl os
  split at h
  · cases h
    exact refl os
  split at h
  · cases h
    exact hconn
  · cases h
    exact refl os

theorem setEvIf {o : Owner} {k k' : KcpevSock} {cb : Option IoCb} {alloc : Bool} {ret : ℤ}
    (hP : ∀ fd cb', cb = some cb' → P { fd, data := o, cb := cb' })
    (h : kcpevSetEvIf os o k cb alloc = (os', k', ret)) : os.Starts P os' := by
  rcases cb with _ | cb
  · cases h
    exact refl os
  unfold kcpevSetEvIf kcpevSetEv at h
  dsimp only at h
  split at h
  · cases h
    exact refl os
  split at h
  · cases h
    exact refl os
  · cases h
    refine ⟨Nat.le_succ _, fun {q e} he => ?_, rfl⟩
    simp only [Os.evIoStart] at he
    rcases eq_or_ne q os.next with rfl | hne
    · rw [Function.update_self] at he
      cases he
      exact Or.inr (hP _ _ rfl)
    · rw [Function.update_of_ne hne] at he
      exact Or.inl he

theorem initEv {o : Owner} {b b' : KcpevBase T} {tcpCb udpCb : Option IoCb} {a : InitEvAnswer}
    {ret : ℤ} (htcp : ∀ fd cb, tcpCb = some cb → P { fd, data := o, cb })
    (hudp : ∀ fd cb, udpCb = some cb → P { fd, data := o, cb })
    (h : kcpevInitEv os o b tcpCb udpCb a = (os', b', ret)) : os.Starts P os' := by
  unfold kcpevInitEv at h
  split at h
  rename_i os₁ k r hr
  have hfirst : os.Starts P os₁ := setEvIf htcp hr
  split at h
  · cases h
    exact hfirst
  · cases h
    exact hfirst.trans (setEvIf hudp rfl)

theorem kcpevBind {b b' : KcpevBase T} {reuse : Bool} {a : KcpevBindAnswer} {ret : ℤ}
    (h : KcpEv.kcpevBind os b reuse a = (os', b', ret)) : os.Starts P os' := by
  unfold KcpEv.kcpevBind at h
  split at h
  rename_i os₁ k r hr
  have hfirst : os.Starts P os₁ := bindSocket hr
  dsimp only at h
  split at h
  · cases h
    exact hfirst
  split at h
  · cases h
    exact hfirst
  split at h
  · cases h
    exact hfirst
  · cases h
    exact hfirst.trans (bindSocket rfl)

theorem kcpevConnect {b b' : KcpevBase T} {addr : Addr} {a : KcpevConnectAnswer} {ret : ℤ}
    (h : KcpEv.kcpevConnect os b addr a = (os', b', ret)) : os.Starts P os' := by
  unfold KcpEv.kcpevConnect at h
  split at h
  rename_i os₁ r₁ htcp
  have hfirst : os.Starts P os₁ := connectSocket htcp
  split at h
  · cases h
    exact hfirst
  split at h
  rename_i os₂ r₂ hudp
  have hsecond : os.Starts P os₂ := hfirst.trans (connectSocket hudp)
  split at h
  · have hclose : os₂.Starts P (closeSock os₂ b.udp.toKcpevSock).1 := by
      unfold closeSock
      split
      · exact refl os₂
      · exact of_ios le_rfl rfl rfl
    cases h
    exact hsecond.trans hclose
  · cases h
    exact hsecond

section Kcp
variable [KcpImpl K]

theorem createKcp {udp udp' : KcpevUdp T} {conv : ℕ} {alloc : Bool} {ret : ℤ}
    (h : kcpevCreateKcp os udp conv alloc = (os', udp', ret)) : os.Starts P os' := by
  unfold kcpevCreateKcp at h
  split at h
  · cases h
    exact refl os
  · cases h
    exact of_ios (Nat.le_succ _) rfl rfl

theorem connectClientUdp {c : ℕ} {client client' : Kcpev T} {addr : Addr} {a : RecvAnswer}
    {ret : ℤ} (hP : ∀ fd, P { fd, data := .kcpev c, cb := .serverUdpRecv })
    (h : KcpEv.connectClientUdp os c client addr a = (os', client', ret)) :
    os.Starts P os' ∧ client'.key = client.key ∧ client'.hasServer = client.hasServer := by
  have error : ∀ {os₁ os₂ : Os K T} {udp : KcpevUdp T} {client₂ : Kcpev T} {r : ℤ},
      os.Starts P os₁ → connectClientUdpError os₁ client udp = (os₂, client₂, r) →
      os.Starts P os₂ ∧ client₂.key = client.key ∧ client₂.hasServer = client.hasServer := by
    intro os₁ os₂ udp client₂ r hos herr
    cases herr
    exact ⟨hos.trans (destroyUdp _ _), rfl, rfl⟩
  unfold KcpEv.connectClientUdp at h
  rcases hbind : kcpevBindSocket os client.udp.toKcpevSock true a.bind with ⟨os₁, k, r⟩
  rw [hbind] at h
  have hbound : os.Starts P os₁ := bindSocket hbind
  dsimp only at h
  split at h
  · exact error hbound h
  split at h
  · exact error hbound h
  have hconn : os.Starts P (os₁.connect k.sock addr) := by
    refine hbound.trans ?_
    unfold Os.connect
    split
    · exact refl _
    · exact of_ios le_rfl rfl rfl
  rcases hcreate : kcpevCreateKcp (os₁.connect k.sock addr)
    { client.udp with toKcpevSock := k } client.key.conv a.kcp with ⟨os₂, udp, r₂⟩
  rw [hcreate] at h
  have hcreated := hconn.trans (createKcp hcreate)
  split at h
  · exact error hcreated h
  rcases hinit : kcpevInitEv os₂ (.kcpev c) { client.toKcpevBase with udp } none
    (some .serverUdpRecv) { tcp := true, udp := a.evio } with ⟨os₃, b, r₃⟩
  dsimp only at h
  rw [hinit] at h
  have hdone := hcreated.trans (initEv (P := P) (fun _ _ hcb => by cases hcb)
    (fun fd cb hcb => by cases hcb; exact hP fd) hinit)
  split at h
  · exact error hdone h
  · cases h
    exact ⟨hdone, rfl, rfl⟩

end Kcp

theorem createTimer {o : Owner} {udp udp' : KcpevUdp T} {hcb : TimerCb} {evt evh : Bool} {ret : ℤ}
    (h : checkCreateKcpTimer os o udp hcb evt evh = .ok (os', udp', ret)) : os.Starts P os' := by
  unfold checkCreateKcpTimer at h
  split at h
  · cases h
    exact refl os
  split at h
  · cases h
  dsimp only at h
  split at h
  · cases h
    exact of_ios (Nat.le_succ _) rfl rfl
  · cases h
    refine of_ios ?_ rfl rfl
    simp only [Os.evTimerStart]
    omega

end Os.Starts

end KcpEv
