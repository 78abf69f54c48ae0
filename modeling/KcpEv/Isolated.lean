import KcpEv.Isolation
import KcpEv.ServerHash

/-!
What a server does for one session, on either side of a pair of runs. No frame
that is dispatched, no answer that is sent and no connection that is closed
touches the session that was put aside, and the rest goes on alike.
-/
namespace KcpEv

open Guarded Ownership Relational

variable {K T : Type}

/-- The frame makes the server look up this key. -/
def Carries (key : KcpevKey) (buf : Bytes) : Prop :=
  Parses buf .shakeHand1 key.val ∨ Parses buf .shakeHand2 key.val

instance (key : KcpevKey) (buf : Bytes) : Decidable (Carries key buf) :=
  inferInstanceAs (Decidable (_ ∨ _))

/-! Nothing is recorded while an object is set up or destroyed. -/

theorem KcpevUdp.destroy_out (os : Os K T) (udp : KcpevUdp T) :
    (udp.destroy os).1.out = os.out := by
  simp only [KcpevUdp.destroy, Owned.releaseKcp_fst, Owned.stopEvh_fst, Owned.stopEvt_fst]
  exact (Owned.destroySock_rest os udp.toKcpevSock).2.2.2

theorem KcpevBase.destroy_out (os : Os K T) (b : KcpevBase T) : (b.destroy os).out = os.out := by
  have htcp := (Owned.destroySock_rest os b.tcp.toKcpevSock).2.2.2
  have hudp := KcpevUdp.destroy_out (b.tcp.toKcpevSock.destroy os).1 b.udp
  exact hudp.trans htcp

theorem kcpevBindSocket_out {os os' : Os K T} {k k' : KcpevSock} {reuse : Bool} {a : BindAnswer}
    {ret : ℤ} (h : kcpevBindSocket os k reuse a = (os', k', ret)) : os'.out = os.out := by
  unfold kcpevBindSocket at h
  split at h
  · cases h
    rfl
  rcases bindLoop_cases reuse a.addrs os with ⟨hl, -⟩ | ⟨fd, -, hl, -⟩ | ⟨fd, -, hl, -⟩
  · rw [hl] at h
    cases h
    rfl
  · rw [hl] at h
    cases h
    rfl
  · rw [hl] at h
    cases h
    rfl

theorem connectClientUdp_out [KcpImpl K] {os os' : Os K T} {c : ℕ} {obj obj' : Kcpev T}
    {addr : Addr} {a : RecvAnswer} {ret : ℤ}
    (h : connectClientUdp os c obj addr a = (os', obj', ret)) : os'.out = os.out := by
  have hconn := connectClientUdp_cases h
  unfold connectClientUdp at h
  rcases hbind : kcpevBindSocket os obj.udp.toKcpevSock true a.bind with ⟨os₁, k, r⟩
  have hbound := kcpevBindSocket_out hbind
  rw [hbind] at h
  dsimp only at h
  have error : ∀ {os₂ : Os K T} {udp : KcpevUdp T}, os₂.out = os₁.out →
      connectClientUdpError os₂ obj udp = (os', obj', ret) → os'.out = os.out := by
    intro os₂ udp hout herr
    rw [connectClientUdpError_eq] at herr
    have hos : (udp.destroy os₂).1 = os' := congrArg Prod.fst herr
    rw [← hos, KcpevUdp.destroy_out, hout]
    exact hbound
  split at h
  · exact error rfl h
  split at h
  · exact error rfl h
  rcases hconn with ⟨hret, -⟩ | ⟨-, hconnected⟩
  swap
  · exact hconnected.out
  have hconnect : (os₁.connect k.sock addr).out = os₁.out := by
    unfold Os.connect
    split <;> rfl
  by_cases hkcp : a.kcp
  · have hne := (kcpevBindSocket_ret hbind).2.resolve_left (by assumption)
    simp only [kcpevCreateKcp_alloc hkcp] at h
    rw [kcpevInitEv_udp _ _ _ hne] at h
    simp only [lt_self_iff_false, if_false, Prod.mk.injEq] at h
    omega
  · simp only [kcpevCreateKcp, hkcp, Bool.false_eq_true, not_false_eq_true, if_true] at h
    exact error hconnect h

theorem checkCreateKcpTimer_out {os os' : Os K T} {data : Owner} {udp udp' : KcpevUdp T}
    {hcb : TimerCb} {evt evh : Bool} {ret : ℤ}
    (h : checkCreateKcpTimer os data udp hcb evt evh = .ok (os', udp', ret)) :
    os'.out = os.out := by
  rcases checkCreateKcpTimer_cases h with ⟨-, -, rfl, -⟩ | ⟨-, -, -, -, rfl, -⟩ |
    ⟨-, -, -, -, rfl, -⟩
  · rfl
  · rfl
  · rfl

/-- A call of `send` leaves the two states as they are, or puts the same on both
sockets. -/
def SendsAlike (os₁ os₂ : Os K T) (fd₁ fd₂ : ℕ) (x y : Os K T × ℤ) : Prop :=
  x.2 = y.2 ∧ ((x.1 = os₁ ∧ y.1 = os₂) ∨
    ∃ buf, x.1 = os₁.emit (.sent fd₁ buf) ∧ y.1 = os₂.emit (.sent fd₂ buf))

section Send
variable {os₁ os₂ : Os K T} {fd₁ fd₂ : ℕ}

theorem send_alike (h : os₁.socks fd₁ = os₂.socks fd₂) (buf : Bytes) (answer : Option ℕ) :
    SendsAlike os₁ os₂ fd₁ fd₂ (os₁.send fd₁ buf answer) (os₂.send fd₂ buf answer) := by
  unfold Os.send
  rw [h]
  split
  · exact ⟨rfl, Or.inr ⟨_, rfl, rfl⟩⟩
  · exact ⟨rfl, Or.inl ⟨rfl, rfl⟩⟩

theorem sockSendCommand_alike (h : os₁.socks fd₁ = os₂.socks fd₂) (command : Command)
    (msg : Bytes) (a : SendAnswer) : Both (SendsAlike os₁ os₂ fd₁ fd₂)
      (sockSendCommand os₁ fd₁ command msg a) (sockSendCommand os₂ fd₂ command msg a) := by
  unfold sockSendCommand
  apply Both.bind (Both.same _ fun _ => rfl)
  rintro ⟨buf, n⟩ - rfl
  apply Both.ite Iff.rfl
  · intro _ _
    exact .ok ⟨rfl, Or.inl ⟨rfl, rfl⟩⟩
  · intro _ _
    have hsend := send_alike h (Circular.load buf 0 n) a.send
    generalize os₁.send fd₁ (Circular.load buf 0 n) a.send = x at hsend
    generalize os₂.send fd₂ (Circular.load buf 0 n) a.send = y at hsend
    obtain ⟨os₁', ret⟩ := x
    obtain ⟨os₂', ret'⟩ := y
    obtain ⟨rfl, hos⟩ := hsend
    exact .ok ⟨rfl, hos⟩

end Send

namespace World.Paired

variable {A B c : ℕ} {key₁ key₂ : KcpevKey} {old₁ old₂ w₁ w₂ : World K T}
  {track : Option (ℕ × ℕ)} {obj₁ obj₂ : Kcpev T}

theorem sends (h : World.Paired B key₁ key₂ old₁ old₂ track w₁ w₂) (hc : c ≠ B)
    (h₁ : w₁.objs c = some obj₁) (h₂ : w₂.objs c = some obj₂) (side : Side) {x y : Os K T × ℤ}
    (hxy : SendsAlike w₁.os w₂.os (obj₁.toKcpevBase.slots.sock side).sock
      (obj₂.toKcpevBase.slots.sock side).sock x y) :
    World.Ends B key₁ key₂ old₁ old₂ track w₁ w₂ Eq ({ w₁ with os := x.1 }, x.2)
      ({ w₂ with os := y.1 }, y.2) := by
  obtain ⟨hret, ⟨hx, hy⟩ | ⟨buf, hx, hy⟩⟩ := hxy
  · rw [hx, hy]
    exact ⟨h, .none rfl rfl, hret⟩
  · rw [hx, hy]
    refine ⟨h.emit _ _, .one rfl rfl fun d hd => ?_, hret⟩
    exact (h.emit _ _).sentBy_eq hc h₁ h₂ side buf hd

theorem sendTcp (h : World.Paired B key₁ key₂ old₁ old₂ track w₁ w₂) (hA : A ≠ B) (msg : Bytes)
    (a : SendAnswer) : Both (fun x y => World.Ends B key₁ key₂ old₁ old₂ track w₁ w₂ Eq
      (x, ()) (y, ())) (w₁.sendTcp A msg a) (w₂.sendTcp A msg a) := by
  unfold World.sendTcp kcpevSendTcp
  apply Both.bind (h.kcpev hA)
  rintro obj₁ obj₂ ⟨h₁, h₂, -⟩
  apply Both.bind (sockSendCommand_alike (h.socks_eq hA h₁ h₂ .tcp) _ _ _)
  intro x y hxy
  have hends := h.sends hA h₁ h₂ .tcp hxy
  exact .ok ⟨hends.paired, hends.sent, rfl⟩

theorem drainTcp (h : World.Paired B key₁ key₂ old₁ old₂ track w₁ w₂) (hA : A ≠ B) (addr : Addr)
    [KcpImpl K] :
    Both (World.Ends B key₁ key₂ old₁ old₂ track w₁ w₂ (Control.Alike A track))
      (drainRound w₁ (.serverTcpRecv A) addr) (drainRound w₂ (.serverTcpRecv A) addr) := by
  apply Both.bind (h.kcpev hA)
  rintro obj₁ obj₂ ⟨h₁, h₂, hplain⟩
  have hrb : obj₁.tcp.rb = obj₂.tcp.rb := congrArg (fun x => x.2.2.2.1) hplain
  rw [hrb]
  apply Both.bind (Both.same _ fun _ => rfl)
  rintro ⟨rb, chunk⟩ - rfl
  have hset := h.setRb hA h₁ h₂ hplain rb
  apply Both.ite Iff.rfl
  · intro _ _
    exact .ok ⟨hset, .none rfl rfl, .loop⟩
  · intro _ _
    have hframe := hset.toFrame (A := A) .tcp addr chunk
    exact .ok ⟨hframe.paired, hframe.sent, hframe.result⟩

section Kcp
variable [KcpImpl K]

theorem drainKcp {i j : ℕ} (h : World.Paired B key₁ key₂ old₁ old₂ (some (i, j)) w₁ w₂)
    (hA : A ≠ B) (addr : Addr) :
    Both (World.Ends B key₁ key₂ old₁ old₂ (some (i, j)) w₁ w₂ (Control.Alike A (some (i, j))))
      (drainRound w₁ (.tryKcpRecv A i) addr) (drainRound w₂ (.tryKcpRecv A j) addr) := by
  obtain ⟨-, -, htracked⟩ := h.os.tracked rfl
  have recv : Both (fun x y => World.Paired B key₁ key₂ old₁ old₂ (some (i, j)) x.1 y.1 ∧
      x.1.os.out = w₁.os.out ∧ y.1.os.out = w₂.os.out ∧ x.2 = y.2)
      (w₁.ikcpRecv i kcpevBufferSize) (w₂.ikcpRecv j kcpevBufferSize) := by
    unfold World.ikcpRecv
    rw [← htracked.same]
    rcases hk : w₁.os.kcps i with _ | k
    · exact .error _
    · have hlive : (w₁.os.kcps i).isSome := by
        rw [hk]
        rfl
      exact .ok ⟨h.withOs (h.os.setTracked hlive _), rfl, rfl, rfl⟩
  apply Both.bind recv
  rintro ⟨w₁', answer⟩ ⟨w₂', -⟩ ⟨hpaired, hout₁, hout₂, rfl⟩
  have stop : World.Ends B key₁ key₂ old₁ old₂ (some (i, j)) w₁ w₂ (Control.Alike A (some (i, j)))
      (w₁', .loop) (w₂', .loop) := ⟨hpaired, .none hout₁ hout₂, .loop⟩
  have go : ∀ (addr : Addr) (buf : Bytes), World.Ends B key₁ key₂ old₁ old₂ (some (i, j)) w₁ w₂
      (Control.Alike A (some (i, j))) (w₁'.toFrame (.tryKcpRecv A i) addr buf)
      (w₂'.toFrame (.tryKcpRecv A j) addr buf) := by
    intro addr buf
    have hsrc : Source.Alike A (some (i, j)) (.tryKcpRecv A i) (.tryKcpRecv A j) := .kcp
    have hframe := hpaired.toFrame hsrc addr buf
    exact ⟨hframe.paired, hframe.sent.of_out hout₁ hout₂, hframe.result⟩
  rcases answer with _ | _ | ⟨b, rest⟩
  · exact .ok stop
  · exact .ok stop
  apply Both.ite Iff.rfl
  · intro _ _
    exact .error _
  intro _ _
  apply Both.bind (hpaired.kcpev hA)
  rintro obj₁ obj₂ ⟨h₁, h₂, hplain⟩
  have hserver : obj₁.hasServer = obj₂.hasServer := congrArg (fun x => x.2.1) hplain
  have haddr : w₁'.os.getpeername obj₁.udp.sock = w₂'.os.getpeername obj₂.udp.sock :=
    hpaired.getpeername_eq hA h₁ h₂ .udp
  rw [hserver, haddr]
  split
  · split
    · exact .ok stop
    · exact .ok (go _ _)
  · exact .ok (go _ _)

theorem kcpSendCommand (h : World.Paired B key₁ key₂ old₁ old₂ track w₁ w₂) (hc : c ≠ B)
    (h₁ : w₁.objs c = some obj₁) (h₂ : w₂.objs c = some obj₂) (hplain : obj₁.plain = obj₂.plain)
    (command : Command) (msg : Bytes) (stack : ℕ → UInt8) :
    Both (fun x y => World.Ends B key₁ key₂ old₁ old₂ track w₁ w₂ Eq ({ w₁ with os := x.1 }, x.2)
        ({ w₂ with os := y.1 }, y.2))
      (KcpEv.kcpSendCommand w₁.os obj₁.udp command msg stack)
      (KcpEv.kcpSendCommand w₂.os obj₂.udp command msg stack) := by
  apply Both.bind (Both.same _ fun _ => rfl)
  rintro ⟨buf, n⟩ - rfl
  apply Both.ite Iff.rfl
  · intro _ _
    exact .ok (h.ends rfl)
  intro _ _
  apply Both.ite (h.valid_iff hc h₁ h₂ hplain)
  · intro _ _
    rcases h.kcp_cases hc h₁ h₂ with ⟨hi, hj⟩ | ⟨i, j, hi, hj, hk, hi', hj'⟩
    · rw [hi, hj]
      exact .error _
    rw [hi, hj]
    unfold ikcpSend
    dsimp only
    rw [hk]
    split
    · exact .error _
    · rename_i k _
      exact .ok ⟨h.setKcp hc hi' hj' _, .none rfl rfl, rfl⟩
  · intro _ _
    exact .ok (h.ends rfl)

theorem send (h : World.Paired B key₁ key₂ old₁ old₂ track w₁ w₂) (hA : A ≠ B) (msg : Bytes)
    (a : SendAnswer) : Both (fun x y => World.Ends B key₁ key₂ old₁ old₂ track w₁ w₂ Eq
      (x, ()) (y, ())) (w₁.send A msg a) (w₂.send A msg a) := by
  unfold World.send kcpevSend
  apply Both.bind (h.kcpev hA)
  rintro obj₁ obj₂ ⟨h₁, h₂, hplain⟩
  have hvalid := h.valid_iff hA h₁ h₂ hplain
  by_cases hv : obj₁.udp.isKcpValid
  · rw [kcpevSendCommand_kcp _ hv, kcpevSendCommand_kcp _ (hvalid.mp hv)]
    apply Both.bind (h.kcpSendCommand hA h₁ h₂ hplain _ _ _)
    intro x y hends
    exact .ok ⟨hends.paired, hends.sent, rfl⟩
  · rw [kcpevSendCommand_tcp _ hv, kcpevSendCommand_tcp _ fun hv₂ => hv (hvalid.mpr hv₂)]
    apply Both.bind (sockSendCommand_alike (h.socks_eq hA h₁ h₂ .tcp) _ _ _)
    intro x y hxy
    have hends := h.sends hA h₁ h₂ .tcp hxy
    exact .ok ⟨hends.paired, hends.sent, rfl⟩

/-! The dispatcher. -/

omit [KcpImpl K] in
theorem serverData (h : World.Paired B key₁ key₂ old₁ old₂ track w₁ w₂) (client : Option ℕ)
    (data : Bytes) : Both (World.Ends B key₁ key₂ old₁ old₂ track w₁ w₂ Eq)
      (KcpEv.serverData w₁ client data) (KcpEv.serverData w₂ client data) := by
  apply Both.bind h.kcpevServer
  rintro server₁ server₂ ⟨-, -, hrest, -⟩
  have hcb : server₁.hasRecvCb = server₂.hasRecvCb := congrArg Prod.snd hrest
  rw [hcb]
  apply Both.ite Iff.rfl
  · intro _ _
    exact .error _
  · intro _ _
    exact .ok ⟨h.emit _ _, .one rfl rfl fun _ _ => rfl, rfl⟩

/-- `server_heartbeat1` sends the time of the last answer. -/
theorem serverHeartbeat1 [ClockImpl T] (h : World.Paired B key₁ key₂ old₁ old₂ track w₁ w₂)
    (hA : A ≠ B) (data : Bytes) {a₁ a₂ : RecvAnswer} (ha : a₁.send = a₂.send) :
    Both (World.Ends B key₁ key₂ old₁ old₂ track w₁ w₂ Eq)
      (KcpEv.serverHeartbeat1 w₁ (some A) data a₁)
      (KcpEv.serverHeartbeat1 w₂ (some A) data a₂) := by
  apply Both.bind (h.kcpev hA)
  rintro obj₁ obj₂ ⟨h₁, h₂, hplain⟩
  have hkey : obj₁.key = obj₂.key := congrArg Prod.fst hplain
  have hheart : obj₁.udp.heart = obj₂.udp.heart := congrArg (fun x => x.2.2.2.2.2) hplain
  apply Both.ite (not_congr (h.valid_iff hA h₁ h₂ hplain))
  · intro _ _
    exact .ok (h.ends rfl)
  intro _ _
  apply Both.ite Iff.rfl
  · intro _ _
    exact .ok (h.ends rfl)
  intro _ _
  rw [hkey, hheart, ha]
  apply Both.ite Iff.rfl
  · intro _ _
    exact .ok (h.ends rfl)
  intro _ _
  apply Both.bind (h.kcpSendCommand hA h₁ h₂ hplain _ _ _)
  intro x y hends
  have hret : x.2 = y.2 := hends.result
  refine .ok ⟨hends.paired, hends.sent, ?_⟩
  rw [hret]

omit [KcpImpl K] in
theorem serverHeartbeat2 [ClockImpl T] (h : World.Paired B key₁ key₂ old₁ old₂ track w₁ w₂)
    (hA : A ≠ B) (data : Bytes) : Both (World.Ends B key₁ key₂ old₁ old₂ track w₁ w₂ Eq)
      (KcpEv.serverHeartbeat2 w₁ (some A) data) (KcpEv.serverHeartbeat2 w₂ (some A) data) := by
  apply Both.bind (h.kcpev hA)
  rintro obj₁ obj₂ ⟨h₁, h₂, hplain⟩
  obtain ⟨hkey, hserver, hcb, hrb, hstatus, hheart⟩ := by
    simpa only [Kcpev.plain, Prod.mk.injEq] using hplain
  apply Both.ite (not_congr (h.valid_iff hA h₁ h₂ hplain))
  · intro _ _
    exact .ok (h.ends rfl)
  intro _ _
  apply Both.ite Iff.rfl
  · intro _ _
    exact .ok (h.ends rfl)
  intro _ _
  rw [hkey, hheart]
  apply Both.ite Iff.rfl
  · intro _ _
    exact .ok (h.ends rfl)
  intro _ _
  apply Both.ite Iff.rfl
  · intro _ _
    exact .ok (h.ends rfl)
  · intro _ _
    refine .ok ⟨h.storeSame hA h₁ h₂ rfl rfl ?_, .none rfl rfl, rfl⟩
    simp only [Kcpev.plain, hserver, hcb, hrb, hstatus, h.os.now]

theorem serverShakeHand1 (h : World.Paired B key₁ key₂ old₁ old₂ track w₁ w₂) {data : Bytes}
    (hdata : ∀ {k}, KcpevKey.ofBytes data = some k → k ≠ key₁ ∧ k ≠ key₂) (addr : Addr)
    {a₁ a₂ : RecvAnswer} (ha : a₁.Alike w₁.os w₂.os a₂) :
    Both (World.Ends B key₁ key₂ old₁ old₂ track w₁ w₂ Eq)
      (KcpEv.serverShakeHand1 w₁ data addr a₁) (KcpEv.serverShakeHand1 w₂ data addr a₂) := by
  unfold KcpEv.serverShakeHand1
  rcases hkey : KcpevKey.ofBytes data with _ | k
  · exact .ok (h.ends rfl)
  obtain ⟨hk₁, hk₂⟩ := hdata hkey
  apply Both.bind h.kcpevServer
  rintro server₁ server₂ ⟨-, -, -, hfind⟩
  obtain ⟨hsame, hne⟩ := hfind hk₁ hk₂
  rw [← hsame]
  rcases hc : server₁.hashFind k with _ | c
  · exact .ok (h.ends rfl)
  have hcB : c ≠ B := by
    intro heq
    rw [hc, heq] at hne
    exact hne rfl
  apply Both.bind (h.kcpev hcB)
  rintro obj₁ obj₂ ⟨h₁, h₂, hplain⟩
  rcases hconn₁ : connectClientUdp w₁.os c obj₁ addr a₁ with ⟨os₁, obj₁', r⟩
  rcases hconn₂ : connectClientUdp w₂.os c obj₂ addr a₂ with ⟨os₂, obj₂', r'⟩
  obtain ⟨rfl, hplain', hos⟩ := KcpEv.Paired.connectClientUdp (h.at_obj h₁ h₂) (ne_owner hcB)
    hplain ha hconn₁ hconn₂
  have hout₁ := connectClientUdp_out hconn₁
  have hout₂ := connectClientUdp_out hconn₂
  apply Both.ite Iff.rfl
  · intro _ _
    exact .ok ⟨h.store hcB hos hplain', .none hout₁ hout₂, rfl⟩
  intro _ _
  obtain ⟨hkey', hserver, hcb, hrb, -, hheart⟩ := by
    simpa only [Kcpev.plain, Prod.mk.injEq] using hplain'
  have hstored : World.Paired B key₁ key₂ old₁ old₂ track
      (w₁.store os₁ c { obj₁' with udp := { obj₁'.udp with status := .shakingHand } })
      (w₂.store os₂ c { obj₂' with udp := { obj₂'.udp with status := .shakingHand } }) := by
    refine h.store hcB hos ?_
    simp only [Kcpev.plain, hkey', hserver, hcb, hrb, hheart]
  have hself : ∀ (w : World K T) (os : Os K T) (obj : Kcpev T),
    (w.store os c obj).objs c = some obj :=
    fun w os obj => Function.update_self ..
  have hsock := hstored.socks_eq hcB (hself ..) (hself ..) .udp
  have hsend : Both (SendsAlike os₁ os₂ obj₁'.udp.sock obj₂'.udp.sock)
      (sockSendCommand os₁ obj₁'.udp.sock .shakeHand2 obj₁'.key.val a₁.send)
      (sockSendCommand os₂ obj₂'.udp.sock .shakeHand2 obj₂'.key.val a₂.send) := by
    rw [hkey', ← ha.fields.2.1]
    exact sockSendCommand_alike hsock _ _ _
  apply Both.bind hsend
  rintro ⟨os₁', ret⟩ ⟨os₂', ret'⟩ hxy
  have hends := hstored.sends hcB (hself ..) (hself ..) .udp hxy
  exact .ok ⟨hends.paired, hends.sent.of_out hout₁ hout₂, rfl⟩

omit [KcpImpl K] in
theorem serverShakeHand2 [ClockImpl T] (h : World.Paired B key₁ key₂ old₁ old₂ track w₁ w₂)
    {data : Bytes} (hdata : ∀ {k}, KcpevKey.ofBytes data = some k → k ≠ key₁ ∧ k ≠ key₂)
    {a₁ a₂ : RecvAnswer} (ha : a₁.evt = a₂.evt ∧ a₁.evh = a₂.evh) :
    Both (World.Ends B key₁ key₂ old₁ old₂ track w₁ w₂ Eq)
      (KcpEv.serverShakeHand2 w₁ data a₁) (KcpEv.serverShakeHand2 w₂ data a₂) := by
  unfold KcpEv.serverShakeHand2
  rcases hkey : KcpevKey.ofBytes data with _ | k
  · exact .ok (h.ends rfl)
  obtain ⟨hk₁, hk₂⟩ := hdata hkey
  apply Both.bind h.kcpevServer
  rintro server₁ server₂ ⟨-, -, -, hfind⟩
  obtain ⟨hsame, hne⟩ := hfind hk₁ hk₂
  rw [← hsame]
  rcases hc : server₁.hashFind k with _ | c
  · exact .ok (h.ends rfl)
  have hcB : c ≠ B := by
    intro heq
    rw [hc, heq] at hne
    exact hne rfl
  apply Both.bind (h.kcpev hcB)
  rintro obj₁ obj₂ ⟨h₁, h₂, hplain⟩
  have hstatus : obj₁.udp.status = obj₂.udp.status := congrArg (fun x => x.2.2.2.2.1) hplain
  rw [hstatus, ha.1, ha.2]
  apply Both.ite Iff.rfl
  · intro _ _
    exact .ok (h.ends rfl)
  intro _ _
  apply Both.bind (KcpEv.Paired.createTimer (h.at_obj h₁ h₂) (ne_owner hcB) hplain _ _ _ _).returned
  rintro ⟨os₁, udp₁, r⟩ ⟨os₂, udp₂, -⟩ ⟨⟨rfl, hplain', hos⟩, hx, hy⟩
  have hout₁ := checkCreateKcpTimer_out hx
  have hout₂ := checkCreateKcpTimer_out hy
  apply Both.ite Iff.rfl
  · intro _ _
    exact .ok ⟨h.store hcB hos hplain', .none hout₁ hout₂, rfl⟩
  · intro _ _
    obtain ⟨hkey', hserver, hcb, hrb, -, hheart⟩ := by
      simpa only [Kcpev.plain, Prod.mk.injEq] using hplain'
    refine .ok ⟨h.store hcB hos ?_, .none hout₁ hout₂, rfl⟩
    simp only [Kcpev.plain, hkey', hserver, hcb, hrb, hheart]

theorem onServerRecv [ClockImpl T] (h : World.Paired B key₁ key₂ old₁ old₂ track w₁ w₂)
    (hA : A ≠ B) {client : Option ℕ} (hclient : client = none ∨ client = some A) {buf : Bytes}
    (hbuf : ¬ Carries key₁ buf ∧ ¬ Carries key₂ buf) (addr : Addr) {a₁ a₂ : RecvAnswer}
    (ha : a₁.Alike w₁.os w₂.os a₂) :
    Both (World.Ends B key₁ key₂ old₁ old₂ track w₁ w₂ Eq)
      (KcpEv.onServerRecv w₁ client buf addr a₁) (KcpEv.onServerRecv w₂ client buf addr a₂) := by
  obtain ⟨hname, hsend, hevt, hevh⟩ := ha.fields
  unfold KcpEv.onServerRecv
  rw [hname]
  split
  · exact .ok (h.ends rfl)
  rename_i byte data hframe
  apply Both.ite Iff.rfl
  · intro _ _
    exact .ok (h.ends rfl)
  intro _ _
  have parses : ∀ {command : Command} {k : KcpevKey}, Command.ofByte byte = some command →
      KcpevKey.ofBytes data = some k → Parses buf command k.val := by
    intro command k hcommand hk
    rw [← KcpevKey.ofBytes_eq_some hk]
    exact parses_of_ofByte hframe hcommand
  have other : ∀ {k : KcpevKey}, Parses buf .shakeHand1 k.val ∨ Parses buf .shakeHand2 k.val →
      k ≠ key₁ ∧ k ≠ key₂ := by
    intro k hparse
    constructor
    · intro heq
      rw [heq] at hparse
      exact hbuf.1 hparse
    · intro heq
      rw [heq] at hparse
      exact hbuf.2 hparse
  split
  · exact h.serverData client data
  · rename_i hcommand
    exact h.serverShakeHand1 (fun hk => other (Or.inl (parses hcommand hk))) addr ha
  · rename_i hcommand
    exact h.serverShakeHand2 (fun hk => other (Or.inr (parses hcommand hk))) ⟨hevt, hevh⟩
  · rcases hclient with rfl | rfl
    · exact .ok (h.ends rfl)
    · exact h.serverHeartbeat1 hA data hsend
  · rcases hclient with rfl | rfl
    · exact .ok (h.ends rfl)
    · exact h.serverHeartbeat2 hA data
  · exact .ok (h.ends rfl)
  · exact .ok (h.ends rfl)

end Kcp

theorem closeClient (h : World.Paired B key₁ key₂ old₁ old₂ track w₁ w₂) (hA : A ≠ B) :
    Both (World.Paired B key₁ key₂ old₁ old₂ track) (w₁.closeClient A) (w₂.closeClient A) := by
  apply Both.bind (h.kcpev hA)
  rintro obj₁ obj₂ ⟨h₁, h₂, hplain⟩
  have hserver : obj₁.hasServer = obj₂.hasServer := congrArg (fun x => x.2.1) hplain
  rw [hserver]
  apply Both.ite Iff.rfl
  · intro _ _
    exact .error _
  intro _ _
  apply Both.bind h.kcpevServer
  rintro server₁ server₂ ⟨hs₁, hs₂, hrest, -⟩
  have registers : ∀ {w : World K T} {obj : Kcpev T} {server : KcpevServer T} {key : KcpevKey},
      w.server = some server → w.Registers key B →
      ({ w with server := some (server.hashDel A) }.destroyKcpev A obj).Registers key B := by
    rintro w obj server key hs ⟨server', hs', hfind, honly⟩
    obtain rfl : server' = server := by simpa [hs] using hs'.symm
    refine ⟨_, rfl, ?_, fun k hk => honly k (mem_hashDel.mp hk).1⟩
    unfold KcpevServer.hashFind at *
    obtain ⟨e, he, hB⟩ := Option.map_eq_some_iff.mp hfind
    have hkeep : (server'.hashDel A).hash.find? (fun e => e.1 = key) = some e := by
      unfold KcpevServer.hashDel
      rw [List.find?_filter]
      have hne : e.2 ≠ A := by
        rw [hB]
        exact hA.symm
      rw [List.find?_eq_some_iff_append] at he ⊢
      obtain ⟨hkey, before, after, heq, hbefore⟩ := he
      refine ⟨by simp [hne, of_decide_eq_true hkey], before, after, heq, fun e' he' => ?_⟩
      simp [hbefore e' he']
    rw [hkeep, Option.map_some, hB]
  have slots : ∀ {w : World K T} {obj : Kcpev T} {server : KcpevServer T}, w.server = some server →
      ({ w with server := some (server.hashDel A) }.destroyKcpev A obj).slots =
        Function.update w.slots (.kcpev A) none := by
    intro w obj server hs
    rw [slots_destroyKcpev, slots_hash hs (server.hashDel A) rfl w.os]
  refine .ok ⟨?_, fun {d} hd => ?_, ?_, ?_, ?_, registers hs₁ h.registered₁,
    registers hs₂ h.registered₂⟩
  · rw [slots hs₁, slots hs₂]
    exact KcpEv.Paired.destroy (h.at_obj h₁ h₂) (ne_owner hA)
  · rcases eq_or_ne d A with heq | hne
    · simp [World.destroyKcpev, heq]
    · simpa [World.destroyKcpev, hne] using h.plain hd
  · obtain ⟨hhash, hcb⟩ := Prod.mk.inj hrest
    have hdel : ∀ server : KcpevServer T, (server.hashDel A).rest B =
        ((server.rest B).1.filter fun e => e.2 ≠ A, server.hasRecvCb) := by
      intro server
      simp only [KcpevServer.rest, KcpevServer.hashDel, List.filter_comm]
    simp only [World.destroyKcpev, Option.map_some, hdel, hrest, hcb]
  · simpa [World.destroyKcpev, hA.symm] using h.left
  · simpa [World.destroyKcpev, hA.symm] using h.right

end World.Paired

end KcpEv
