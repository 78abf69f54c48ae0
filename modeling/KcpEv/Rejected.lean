import KcpEv.IkcpFlush
import KcpEv.Linked
import KcpEv.Replay

/-!
What a rejected frame leaves behind. A dispatcher that returns `-1` may have
changed a session all the same: the key is stored before it is sent on, the old
socket goes before the new one is there, and the second message is sent before
the timers start.
-/
namespace KcpEv

open Guarded

variable {K T : Type}

def Command.IsHandshake (command : Command) : Prop :=
  command = .shakeHand1 ∨ command = .shakeHand2

/-- Every session has its key, its UDP state, its socket, its watcher, its KCP
object and its timers, and no handshake frame was sent. -/
structure World.Undisturbed (w w' : World K T) : Prop where
  server : w'.server = w.server
  sessions : ∀ c, (w'.objs c).map (fun obj => (obj.key, obj.udp)) =
    (w.objs c).map fun obj => (obj.key, obj.udp)
  socks : ∀ {fd s}, w.os.socks fd = some s → w'.os.socks fd = some s
  ios : w'.os.ios = w.os.ios
  timers : w'.os.timers = w.os.timers
  kcps : w'.os.kcps = w.os.kcps
  silent : ∃ outs, w'.os.out = w.os.out ++ outs ∧ ∀ fd command msg frame,
    Command.IsHandshake command → Frame command msg frame → .sent fd frame ∉ outs

theorem fst_of_ok {α β : Type} {x x' : α} {y y' : β}
    (h : (.ok (x, y) : Exec (α × β)) = .ok (x', y')) : x = x' :=
  congrArg Prod.fst (Except.ok.inj h)

theorem Frame.not_of_take {command command' : Command} {msg msg' frame : Bytes} {k : ℕ}
    (h : Frame command msg frame) (hk : k < frame.length) :
    ¬ Frame command' msg' (frame.take k) := by
  intro h'
  exact header.not_isFrame_take h.isFrame hk h'.isFrame

namespace World.Undisturbed

variable {w : World K T}

theorem refl (w : World K T) : w.Undisturbed w where
  server := rfl
  sessions _ := rfl
  socks h := h
  ios := rfl
  timers := rfl
  kcps := rfl
  silent := ⟨[], by simp, by simp⟩

/-- A frame that is not sent as a whole disturbs nobody. -/
theorem unsent {os' : Os K T} {sock : ℕ} {command : Command} {msg : Bytes} {a : SendAnswer}
    {ret : ℤ} (hsend : sockSendCommand w.os sock command msg a = .ok (os', ret)) (hret : ret ≠ 0) :
    w.Undisturbed { w with os := os' } := by
  rcases sockSendCommand_cases hsend with ⟨rfl, -⟩ | ⟨frame, k, hframe, rfl, hr⟩
  · exact refl w
  · have hk : k < frame.length := by
      by_contra hle
      apply hret
      rw [hr, if_pos (by omega)]
    refine ⟨rfl, fun _ => rfl, fun h => h, rfl, rfl, rfl, [.sent sock (frame.take k)], rfl, ?_⟩
    intro fd command' msg' frame' _ hframe' hmem
    have heq := List.mem_singleton.mp hmem
    injection heq with _ htake
    rw [htake] at hframe'
    exact hframe.not_of_take hk hframe'

/-- An object is stored that has the key and the UDP state of the one before. -/
theorem store {w' : World K T} (h : w.Undisturbed w') {c : ℕ} {obj obj' : Kcpev T}
    (hobj : w'.objs c = some obj) (hkey : obj'.key = obj.key) (hudp : obj'.udp = obj.udp) :
    w.Undisturbed (w'.store w'.os c obj') := by
  refine ⟨h.server, fun d => ?_, h.socks, h.ios, h.timers, h.kcps, h.silent⟩
  rw [← h.sessions d]
  rcases eq_or_ne d c with heq | hne
  · rw [heq, hobj]
    simp [World.store, hkey, hudp]
  · simp [World.store, hne]

/-- The object that was stored is the one before, as far as a rejected frame goes. -/
theorem stored {os : Os K T} {c : ℕ} {obj obj' : Kcpev T} (h : w.Undisturbed (w.store os c obj'))
    (hobj : w.objs c = some obj) : obj'.key = obj.key ∧ obj'.udp = obj.udp := by
  have hsession := h.sessions c
  rw [hobj] at hsession
  simpa [World.store] using hsession

end World.Undisturbed

/-! A frame that KCP does not take changes nothing. -/

section Kcp

theorem ikcpSend_refused {os os' : Os Ikcp T} {kcp : ℕ} {buf : Bytes} {ret : ℤ}
    (h : ikcpSend os kcp buf = .ok (os', ret)) (hret : ret ≠ 0) : os' = os := by
  obtain ⟨k, hk, rfl, rfl⟩ := ikcpSend_cases h
  have hstate : (Ikcp.send k.state buf).1 = k.state := by
    change (Ikcp.send k.state buf).2 ≠ 0 at hret
    unfold Ikcp.send at hret ⊢
    dsimp only at hret ⊢
    split at hret
    · rename_i hcount
      rw [if_pos hcount]
    · exact absurd rfl hret
  change os.setKcp kcp { k with state := (Ikcp.send k.state buf).1 } = os
  rw [hstate, Os.setKcp, ← hk, Function.update_eq_self]

theorem kcpSendCommand_refused {os os' : Os Ikcp T} {udp : KcpevUdp T} {command : Command}
    {msg : Bytes} {stack : ℕ → UInt8} {ret : ℤ}
    (h : kcpSendCommand os udp command msg stack = .ok (os', ret)) (hret : ret ≠ 0) :
    os' = os := by
  obtain ⟨⟨buf, n⟩, -, h⟩ := bind_eq_ok.mp h
  by_cases hn : n = 0
  · simp only [hn, if_true] at h
    cases h
    rfl
  simp only [hn, if_false] at h
  split at h
  · split at h
    · cases h
    · exact ikcpSend_refused h hret
  · cases h
    rfl

end Kcp

/-! The server. -/

/-- Nothing goes that was there; new sockets may be open. -/
structure Os.Spares (os os' : Os K T) : Prop where
  socks : ∀ {fd s}, os.socks fd = some s → os'.socks fd = some s
  ios : os'.ios = os.ios
  timers : os'.timers = os.timers
  kcps : os'.kcps = os.kcps
  out : os'.out = os.out

namespace Os.Spares

variable {os os' : Os K T} {fd : ℕ}

theorem refl (os : Os K T) : os.Spares os := ⟨fun h => h, rfl, rfl, rfl, rfl⟩

theorem update (h : os.Spares os') (hfree : os.socks fd = none) (v : Option Sock) :
    os.Spares { os' with socks := Function.update os'.socks fd v } := by
  refine ⟨fun {fd' s} hs => ?_, h.ios, h.timers, h.kcps, h.out⟩
  have hne : fd' ≠ fd := by
    intro heq
    rw [heq, hfree] at hs
    cases hs
  simpa [hne] using h.socks hs

theorem connect (h : os.Spares os') (hfree : os.socks fd = none) (addr : Addr) :
    os.Spares (os'.connect fd addr) := by
  unfold Os.connect
  split
  · exact h
  · exact h.update hfree _

theorem closeSock (h : os.Spares os') {k : KcpevSock}
    (hfree : k.sock = 0 ∨ os.socks k.sock = none) : os.Spares (KcpEv.closeSock os' k).1 := by
  unfold KcpEv.closeSock
  split
  · exact h
  · rename_i hne
    exact h.update (hfree.resolve_left hne) none

theorem bindSocket {k k' : KcpevSock} {reuse : Bool} {a : BindAnswer} {ret : ℤ}
    (hk : k.sock = 0) (h : kcpevBindSocket os k reuse a = (os', k', ret)) :
    os.Spares os' ∧ (k'.sock = 0 ∨ os.socks k'.sock = none) := by
  unfold kcpevBindSocket at h
  split at h
  · cases h
    exact ⟨refl os, Or.inl hk⟩
  rcases bindLoop_cases reuse a.addrs os with ⟨hl, -⟩ | ⟨fd, hfree, hl, -⟩ | ⟨fd, hfree, hl, -⟩
  · rw [hl] at h
    cases h
    exact ⟨refl os, Or.inl rfl⟩
  · rw [hl] at h
    cases h
    exact ⟨(refl os).update hfree _, Or.inr hfree⟩
  · rw [hl] at h
    cases h
    exact ⟨(refl os).update hfree _, Or.inl rfl⟩

theorem destroyUdp (h : os.Spares os') {udp : KcpevUdp T} (hudp : udp.cleared = udp)
    {k : KcpevSock} (hevio : k.evio = none) (hfree : k.sock = 0 ∨ os.socks k.sock = none) :
    os.Spares ({ udp with toKcpevSock := k }.destroy os').1 := by
  have hclose := h.closeSock hfree
  have hfst : ({ udp with toKcpevSock := k }.destroy os').1 = (KcpEv.closeSock os' k).1 := by
    rw [← hudp]
    simp [KcpevUdp.destroy, KcpevSock.destroy, KcpevUdp.cleared, stopIo, stopEvt, stopEvh,
      releaseKcp, closeSock_snd, hevio]
  rw [hfst]
  exact hclose

end Os.Spares

section Server
variable {w w' : World K T} {c c' : ℕ} {obj obj' : Kcpev T} {client : Option ℕ}
  {buf data : Bytes} {addr : Addr} {a : RecvAnswer} {command : Command}

theorem Finds.unique (h : Finds w buf command c obj) (h' : Finds w buf command c' obj') :
    c' = c ∧ obj' = obj := by
  obtain ⟨server, key, hparse, hserver, hfind, hobj⟩ := h
  obtain ⟨server', key', hparse', hserver', hfind', hobj'⟩ := h'
  obtain rfl : server = server' := by simpa [hserver] using hserver'
  obtain rfl : key' = key := Subtype.ext (hparse.unique hparse').2
  obtain rfl : c = c' := by simpa [hfind] using hfind'
  exact ⟨rfl, by simpa [hobj] using hobj'.symm⟩

variable [KcpImpl K]

/-- On a session that has nothing on the UDP side a failed `connect_client_udp`
is without consequences. -/
theorem connectClientUdp_spares {os os' : Os K T} (hudp : obj.udp.cleared = obj.udp)
    (h : connectClientUdp os c obj addr a = (os', obj', -1)) :
    os.Spares os' ∧ obj' = obj := by
  rcases connectClientUdp_cases h with ⟨-, rfl⟩ | ⟨hret, -⟩
  swap
  · omega
  refine ⟨?_, by rw [hudp]⟩
  have hzero : obj.udp.toKcpevSock = KcpevSock.zero := by
    rw [← hudp]
    rfl
  have error : ∀ {os₁ : Os K T} {k : KcpevSock}, os.Spares os₁ → k.evio = none →
      (k.sock = 0 ∨ os.socks k.sock = none) →
      connectClientUdpError os₁ obj { obj.udp with toKcpevSock := k } =
        (os', { obj with udp := obj.udp.cleared }, -1) → os.Spares os' := by
    intro os₁ k hspares hevio hfree herr
    rw [connectClientUdpError_eq] at herr
    obtain rfl : _ = os' := congrArg Prod.fst herr
    exact hspares.destroyUdp hudp hevio hfree
  unfold connectClientUdp at h
  rcases hbind : kcpevBindSocket os obj.udp.toKcpevSock true a.bind with ⟨os₁, k, r⟩
  rw [hbind] at h
  dsimp only at h
  obtain ⟨hspares, hfree⟩ := Os.Spares.bindSocket (by rw [hzero]; rfl) hbind
  have hevio : k.evio = none := by
    rw [(kcpevBindSocket_ret hbind).1, hzero]
    rfl
  split at h
  · exact error hspares hevio hfree h
  rename_i hr
  have hne := (kcpevBindSocket_ret hbind).2.resolve_left hr
  split at h
  · exact error hspares hevio hfree h
  have hconnected := hspares.connect (hfree.resolve_left hne) addr
  by_cases hkcp : a.kcp
  · simp only [kcpevCreateKcp_alloc hkcp] at h
    rw [kcpevInitEv_udp _ _ _ hne] at h
    simp at h
  · simp only [kcpevCreateKcp, hkcp, Bool.false_eq_true, not_false_eq_true, if_true] at h
    exact error hconnected hevio hfree h

omit [KcpImpl K] in
/-- The lookup both handshake commands of the server start with. -/
theorem lookup_cases {ret : ℤ} {f : ℕ → Kcpev T → Exec (World K T × ℤ)}
    (hparse : Parses buf command data)
    (h : (match KcpevKey.ofBytes data with
      | none => .ok (w, -1)
      | some key => do
        let server ← w.kcpevServer
        match server.hashFind key with
        | none => return (w, -1)
        | some c =>
          let client ← w.kcpev c
          f c client : Exec (World K T × ℤ)) = .ok (w', ret)) :
    (w' = w ∧ ∀ c obj, ¬ Finds w buf command c obj) ∨
      ∃ c obj, Finds w buf command c obj ∧ f c obj = .ok (w', ret) := by
  split at h
  · rename_i hnone
    left
    refine ⟨(fst_of_ok h).symm, ?_⟩
    rintro c obj ⟨server, key, hparse', -⟩
    rw [← (hparse.unique hparse').2, KcpevKey.ofBytes_val] at hnone
    cases hnone
  rename_i key hkey
  have hdata := KcpevKey.ofBytes_eq_some hkey
  obtain ⟨server, hserver, h⟩ := bind_eq_ok.mp h
  rw [World.kcpevServer_ok] at hserver
  split at h
  · rename_i hnone
    left
    refine ⟨(fst_of_ok h).symm, ?_⟩
    rintro c obj ⟨server', key', hparse', hserver', hfind, -⟩
    obtain rfl : server = server' := by simpa [hserver] using hserver'
    have hkeys : key = key' := Subtype.ext (hdata.symm.trans (hparse.unique hparse').2.symm)
    rw [← hkeys, hnone] at hfind
    cases hfind
  · rename_i c hc
    obtain ⟨obj, hobj, h⟩ := bind_eq_ok.mp h
    rw [hdata] at hparse
    exact Or.inr ⟨c, obj, ⟨server, key, hparse, hserver, hc, World.kcpev_ok.mp hobj⟩, h⟩

theorem serverShakeHand1_rejects (hparse : Parses buf .shakeHand1 data)
    (h : serverShakeHand1 w data addr a = .ok (w', -1)) :
    w.Undisturbed w' ↔ ∀ c obj, Finds w buf .shakeHand1 c obj → obj.udp.cleared = obj.udp := by
  rcases lookup_cases (w := w) hparse h with ⟨rfl, hnone⟩ | ⟨c, obj, hfind, h⟩
  · exact ⟨fun _ c obj hfind => absurd hfind (hnone c obj), fun _ => .refl w'⟩
  have hobj : w.objs c = some obj := by
    obtain ⟨server, key, -, -, -, hobj⟩ := hfind
    exact hobj
  have hret := connectClientUdp_ret w.os c obj addr a
  rcases hconn : connectClientUdp w.os c obj addr a with ⟨os, obj', r⟩
  rw [hconn] at h hret
  rcases hret with rfl | rfl
  swap
  · obtain ⟨⟨os', r'⟩, -, h⟩ := bind_eq_ok.mp h
    cases h
  obtain rfl : w.store os c obj' = w' := fst_of_ok h
  constructor
  · intro hw c' obj'' hfind'
    obtain ⟨-, rfl⟩ := hfind.unique hfind'
    rcases connectClientUdp_cases hconn with ⟨-, rfl⟩ | ⟨hret, -⟩
    · exact (hw.stored hobj).2
    · omega
  · intro hcleared
    obtain ⟨hspares, rfl⟩ := connectClientUdp_spares (hcleared c obj hfind) hconn
    have hos : w.Undisturbed { w with os } :=
      ⟨rfl, fun _ => rfl, hspares.socks, hspares.ios, hspares.timers, hspares.kcps, [], by
        rw [List.append_nil]
        exact hspares.out, by simp⟩
    exact hos.store hobj rfl rfl

omit [KcpImpl K] in
/-- The timers of a session do not start, or the first of them is lost. -/
theorem serverShakeHand2_rejects (hfresh : w.os.timers w.os.next = none)
    (hparse : Parses buf .shakeHand2 data) (h : serverShakeHand2 w data a = .ok (w', -1)) :
    w.Undisturbed w' ↔ ∀ c obj, Finds w buf .shakeHand2 c obj →
      obj.udp.status = .shakingHand → obj.udp.evt.isSome := by
  rcases lookup_cases (w := w) hparse h with ⟨rfl, hnone⟩ | ⟨c, obj, hfind, h⟩
  · exact ⟨fun _ c obj hfind => absurd hfind (hnone c obj), fun _ => .refl w'⟩
  have hobj : w.objs c = some obj := by
    obtain ⟨server, key, -, -, -, hobj⟩ := hfind
    exact hobj
  by_cases hstatus : obj.udp.status = .shakingHand
  swap
  · rw [if_pos hstatus] at h
    obtain rfl : w = w' := fst_of_ok h
    refine ⟨fun _ c' obj' hfind' hstatus' => ?_, fun _ => .refl w⟩
    obtain ⟨-, rfl⟩ := hfind.unique hfind'
    exact absurd hstatus' hstatus
  rw [if_neg (by simpa using hstatus)] at h
  obtain ⟨⟨os, udp, r⟩, htimer, h⟩ := bind_eq_ok.mp h
  rcases checkCreateKcpTimer_cases htimer with ⟨rfl, hevt, rfl, rfl⟩ |
    ⟨rfl, hevt, -, -, rfl, rfl⟩ | ⟨rfl, -⟩
  · obtain rfl : w.store w.os c obj = w' := fst_of_ok h
    refine ⟨fun _ c' obj' hfind' _ => ?_, fun _ => (World.Undisturbed.refl w).store hobj rfl rfl⟩
    obtain ⟨-, rfl⟩ := hfind.unique hfind'
    exact hevt
  · obtain rfl := fst_of_ok h
    constructor
    · intro hw
      have htimers := congrFun hw.timers w.os.next
      rw [hfresh] at htimers
      simp [World.store, Os.evTimerStart] at htimers
    · intro hsome
      have hevt' := hsome c obj hfind hstatus
      rw [hevt] at hevt'
      cases hevt'
  · cases h

end Server

/-- What the server would lose by a handshake frame that it rejects: the session
has a UDP side, or its first timer is started before there is memory for the
second. -/
def World.ServerSpares (w : World K T) (buf : Bytes) (a : RecvAnswer) : Prop :=
  a.getnameinfo →
    (∀ c obj, Finds w buf .shakeHand1 c obj → obj.udp.cleared = obj.udp) ∧
    ∀ c obj, Finds w buf .shakeHand2 c obj → obj.udp.status = .shakingHand → obj.udp.evt.isSome

section ServerRecv
variable [ClockImpl T] {w w' : World Ikcp T} {client : Option ℕ} {buf data : Bytes} {addr : Addr}
  {a : RecvAnswer}

theorem serverHeartbeat1_rejects (h : serverHeartbeat1 w client data a = .ok (w', -1)) :
    w' = w := by
  unfold serverHeartbeat1 at h
  split at h
  · exact (fst_of_ok h).symm
  obtain ⟨obj, -, h⟩ := bind_eq_ok.mp h
  split at h
  · cases h
  split at h
  · exact (fst_of_ok h).symm
  split at h
  · exact (fst_of_ok h).symm
  obtain ⟨⟨os, r⟩, hsend, h⟩ := bind_eq_ok.mp h
  have hpair := Prod.mk.inj (Except.ok.inj h)
  have hr : r ≠ 0 := by
    intro hzero
    rw [hzero] at hpair
    exact absurd hpair.2 (by decide)
  rw [← hpair.1, kcpSendCommand_refused hsend hr]

theorem serverHeartbeat2_rejects (h : serverHeartbeat2 w client data = .ok (w', -1)) : w' = w := by
  unfold serverHeartbeat2 at h
  split at h
  · exact (fst_of_ok h).symm
  obtain ⟨obj, -, h⟩ := bind_eq_ok.mp h
  split at h
  · cases h
  split at h
  · exact (fst_of_ok h).symm
  split at h
  · exact (fst_of_ok h).symm
  split at h
  · cases h
  · cases h

omit [ClockImpl T] in
theorem Finds.ofByte {byte : UInt8} {command : Command} {c : ℕ} {obj : Kcpev T}
    (h : Finds w buf command c obj) (hframe : parseFrame buf = some (byte, data)) :
    Command.ofByte byte = some command := by
  obtain ⟨server, key, hparse, -⟩ := h
  exact (hparse.ofByte hframe).1

theorem onServerRecv_rejects_iff (hfresh : w.os.timers w.os.next = none)
    (h : onServerRecv w client buf addr a = .ok (w', -1)) :
    w.Undisturbed w' ↔ w.ServerSpares buf a := by
  have kept : w' = w → (a.getnameinfo → ∀ command c obj, Command.IsHandshake command →
      ¬ Finds w buf command c obj) → (w.Undisturbed w' ↔ w.ServerSpares buf a) := by
    intro hw hnone
    constructor
    · intro _ hname
      exact ⟨fun c obj hfind => absurd hfind (hnone hname _ c obj (Or.inl rfl)),
        fun c obj hfind => absurd hfind (hnone hname _ c obj (Or.inr rfl))⟩
    · intro _
      rw [hw]
      exact .refl w
  unfold onServerRecv at h
  split at h
  · rename_i hframe
    apply kept (fst_of_ok h).symm
    rintro - command c obj - ⟨server, key, hparse, -⟩
    rw [Parses, hframe] at hparse
    cases hparse
  rename_i byte data hframe
  split at h
  · rename_i hname
    exact kept (fst_of_ok h).symm fun hname' => absurd hname' hname
  rename_i hname
  rw [not_not] at hname
  have other : ∀ {command : Option Command}, Command.ofByte byte = command →
      command ≠ some .shakeHand1 → command ≠ some .shakeHand2 → w' = w →
      (w.Undisturbed w' ↔ w.ServerSpares buf a) := by
    intro command hbyte hone htwo hw
    apply kept hw
    rintro - command' c obj (rfl | rfl) hfind
    · exact hone (hbyte.symm.trans (hfind.ofByte hframe))
    · exact htwo (hbyte.symm.trans (hfind.ofByte hframe))
  split at h
  · obtain ⟨server, -, h⟩ := bind_eq_ok.mp h
    split at h
    · cases h
    · cases h
  · rename_i hbyte
    rw [serverShakeHand1_rejects (parses_of_ofByte hframe hbyte) h]
    constructor
    · intro hone _
      refine ⟨hone, fun c obj hfind => ?_⟩
      have htwo := hfind.ofByte hframe
      rw [hbyte] at htwo
      cases htwo
    · intro hspares
      exact (hspares hname).1
  · rename_i hbyte
    rw [serverShakeHand2_rejects hfresh (parses_of_ofByte hframe hbyte) h]
    constructor
    · intro htwo _
      refine ⟨fun c obj hfind => ?_, htwo⟩
      have hone := hfind.ofByte hframe
      rw [hbyte] at hone
      cases hone
    · intro hspares
      exact (hspares hname).2
  · rename_i hbyte
    exact other hbyte (by decide) (by decide) (serverHeartbeat1_rejects h)
  · rename_i hbyte
    exact other hbyte (by decide) (by decide) (serverHeartbeat2_rejects h)
  · rename_i hbyte
    exact other hbyte (by decide) (by decide) (fst_of_ok h).symm
  · rename_i hbyte
    exact other hbyte (by decide) (by decide) (fst_of_ok h).symm

end ServerRecv

/-! The client. -/

/-- `send` takes at least so many bytes. -/
def SendAnswer.Takes (a : SendAnswer) (n : ℕ) : Prop := ∃ k, a.send = some k ∧ n ≤ k

/-- What a client would lose by a handshake frame that it rejects: the key of the
session, or the second message is sent and then there are no timers. -/
def Kcpev.Spares (obj : Kcpev T) (buf : Bytes) (a : RecvAnswer) : Prop :=
  obj.udp.sock ≠ 0 →
    (∀ key : KcpevKey, Parses buf .shakeHand1 key.val → key = obj.key) ∧
    (Parses buf .shakeHand2 obj.key.val → obj.udp.status = .shakingHand → ¬ a.send.Takes 24)

section Client
variable {w w' : World K T} {c : ℕ} {obj : Kcpev T} {buf data : Bytes}
  {a : RecvAnswer}

theorem clientShakeHand1_rejects (hparse : Parses buf .shakeHand1 data) (hobj : w.objs c = some obj)
    (h : clientShakeHand1 w c obj data a = .ok (w', -1)) :
    w.Undisturbed w' ↔ ∀ key : KcpevKey, Parses buf .shakeHand1 key.val → key = obj.key := by
  unfold clientShakeHand1 at h
  split at h
  · cases h
  split at h
  · rename_i hnone
    obtain rfl : w = w' := fst_of_ok h
    refine ⟨fun _ key hparse' => ?_, fun _ => .refl w⟩
    rw [← (hparse.unique hparse').2, KcpevKey.ofBytes_val] at hnone
    cases hnone
  rename_i key hkey
  have hdata := KcpevKey.ofBytes_eq_some hkey
  obtain ⟨⟨os, r⟩, hsend, h⟩ := bind_eq_ok.mp h
  by_cases hr : r = 0
  · simp only [hr, ne_eq, not_true_eq_false, if_false] at h
    cases h
  simp only [ne_eq, hr, not_false_eq_true, if_true] at h
  obtain rfl : w.store os c { obj with key } = w' := fst_of_ok h
  constructor
  · intro hw key' hparse'
    rw [← (hw.stored hobj).1]
    exact Subtype.ext ((hparse.unique hparse').2.trans hdata)
  · intro hsame
    rw [hdata] at hparse
    exact (World.Undisturbed.unsent hsend hr).store hobj (hsame key hparse) rfl

/-- The second message goes out before the timers start. -/
theorem clientShakeHand2_rejects (hopen : obj.udp.sock ≠ 0 → (w.os.socks obj.udp.sock).isSome)
    (hparse : Parses buf .shakeHand2 data)
    (h : clientShakeHand2 w c obj data a = .ok (w', -1)) :
    w.Undisturbed w' ↔ (Parses buf .shakeHand2 obj.key.val → obj.udp.status = .shakingHand →
      ¬ a.send.Takes 24) := by
  have kept : w = w' → ¬ (data = obj.key.val ∧ obj.udp.status = .shakingHand) →
      (w.Undisturbed w' ↔ (Parses buf .shakeHand2 obj.key.val → obj.udp.status = .shakingHand →
        ¬ a.send.Takes 24)) := by
    rintro rfl hnot
    exact ⟨fun _ hparse' hstatus => absurd ⟨(hparse'.unique hparse).2, hstatus⟩ hnot,
      fun _ => .refl w⟩
  unfold clientShakeHand2 at h
  split at h
  · cases h
  rename_i hsock
  split at h
  · rename_i hnone
    apply kept (fst_of_ok h)
    rintro ⟨hdata, -⟩
    rw [hdata, KcpevKey.ofBytes_val] at hnone
    cases hnone
  rename_i key hkey
  have hdata := KcpevKey.ofBytes_eq_some hkey
  split at h
  · rename_i hstatus
    exact kept (fst_of_ok h) fun hboth => hstatus hboth.2
  rename_i hstatus
  rw [ne_eq, not_not] at hstatus
  split at h
  · rename_i hne
    apply kept (fst_of_ok h)
    rintro ⟨hown, -⟩
    exact hne (Subtype.ext (hdata.symm.trans hown))
  rename_i hown
  rw [ne_eq, not_not] at hown
  rw [hown] at hdata
  subst hdata
  obtain ⟨⟨os, r⟩, hsend, h⟩ := bind_eq_ok.mp h
  have hfits : obj.key.val.length + 8 ≤ kcpevBufferSize := by
    rw [obj.key.property]
    decide
  have hret := sockSendCommand_ret (hopen hsock) hfits hsend
  rw [obj.key.property] at hret
  by_cases hr : r = 0
  · -- the frame is out, so the timers are what failed
    obtain ⟨k, hk⟩ := hret.mp hr
    rcases sockSendCommand_cases hsend with ⟨-, hneg⟩ | ⟨frame, n, hframe, rfl, hn⟩
    · omega
    have hwhole : frame.length ≤ n := by
      by_contra hlt
      rw [if_neg hlt] at hn
      omega
    simp only [hr, ne_eq, not_true_eq_false, if_false] at h
    obtain ⟨⟨os', udp, r'⟩, htimer, h⟩ := bind_eq_ok.mp h
    have hout : os'.out = w.os.out ++ [.sent obj.udp.sock frame] := by
      rcases checkCreateKcpTimer_cases htimer with ⟨-, -, rfl, -⟩ | ⟨-, -, -, -, rfl, -⟩ |
        ⟨-, -, -, -, rfl, -⟩ <;> simp [Os.emit, Os.evTimerStart, List.take_of_length_le hwhole]
    have hstored : w'.os.out = os'.out := by
      dsimp only at h
      split at h
      · obtain rfl := fst_of_ok h
        rfl
      split at h
      · cases h
      split at h
      · cases h
      · cases h
    constructor
    · intro hw
      obtain ⟨outs, hall, hsilent⟩ := hw.silent
      rw [hstored, hout, List.append_cancel_left_eq] at hall
      exact absurd (hall ▸ List.mem_singleton_self _)
        (hsilent _ _ _ _ (Or.inr rfl) hframe)
    · intro hnot
      exact absurd ⟨k, hk⟩ (hnot hparse hstatus)
  · simp only [ne_eq, hr, not_false_eq_true, if_true] at h
    obtain rfl : ({ w with os } : World K T) = w' := fst_of_ok h
    refine ⟨fun _ _ _ htakes => hr (hret.mpr htakes), fun _ => .unsent hsend hr⟩

end Client

section ClientRecv
variable {w w' : World Ikcp T} {c : ℕ} {obj : Kcpev T} {buf data : Bytes} {a : RecvAnswer}

theorem clientHeartbeat1_rejects (h : clientHeartbeat1 w c obj data a = .ok (w', -1)) :
    w' = w := by
  unfold clientHeartbeat1 at h
  split at h
  · cases h
  rename_i hvalid
  rw [not_not] at hvalid
  split at h
  · exact (fst_of_ok h).symm
  split at h
  · exact (fst_of_ok h).symm
  split at h
  · exact (fst_of_ok h).symm
  obtain ⟨⟨os, r⟩, hsend, h⟩ := bind_eq_ok.mp h
  rw [kcpevSendCommand_kcp _ hvalid] at hsend
  by_cases hr : r = 0
  · simp only [hr, ne_eq, not_true_eq_false, if_false] at h
    cases h
  · simp only [ne_eq, hr, not_false_eq_true, if_true] at h
    have hw : ({ w with os } : World Ikcp T) = w' := fst_of_ok h
    rw [← hw, kcpSendCommand_refused hsend hr]

theorem clientUdpInvalid_rejects (h : clientUdpInvalid w c obj data = .ok (w', -1)) : w' = w := by
  unfold clientUdpInvalid at h
  split at h
  · cases h
  split at h
  · exact (fst_of_ok h).symm
  split at h
  · exact (fst_of_ok h).symm
  · cases h

theorem onClientRecv_rejects_iff (hobj : w.objs c = some obj)
    (hopen : obj.udp.sock ≠ 0 → (w.os.socks obj.udp.sock).isSome)
    (h : onClientRecv w c buf a = .ok (w', -1)) : w.Undisturbed w' ↔ obj.Spares buf a := by
  obtain ⟨obj', hobj', h⟩ := bind_eq_ok.mp h
  rw [World.kcpev_ok, hobj] at hobj'
  obtain rfl := Option.some.inj hobj'
  have kept : w' = w → (∀ command data', Command.IsHandshake command →
      ¬ Parses buf command data') → (w.Undisturbed w' ↔ obj.Spares buf a) := by
    intro hw hnone
    constructor
    · intro _ _
      exact ⟨fun key hparse => absurd hparse (hnone _ _ (Or.inl rfl)),
        fun hparse => absurd hparse (hnone _ _ (Or.inr rfl))⟩
    · intro _
      rw [hw]
      exact .refl w
  split at h
  · rename_i hframe
    apply kept (fst_of_ok h).symm
    intro command data' _ hparse
    rw [Parses, hframe] at hparse
    cases hparse
  rename_i byte data hframe
  have other : ∀ {command : Option Command}, Command.ofByte byte = command →
      command ≠ some .shakeHand1 → command ≠ some .shakeHand2 → w' = w →
      (w.Undisturbed w' ↔ obj.Spares buf a) := by
    intro command hbyte hone htwo hw
    apply kept hw
    rintro command' data' (rfl | rfl) hparse
    · exact hone (hbyte.symm.trans (hparse.ofByte hframe).1)
    · exact htwo (hbyte.symm.trans (hparse.ofByte hframe).1)
  split at h
  · unfold clientData at h
    split at h
    · cases h
    · cases h
  · rename_i hbyte
    have hparse := parses_of_ofByte hframe hbyte
    have hsock : obj.udp.sock ≠ 0 := by
      intro hzero
      unfold clientShakeHand1 at h
      rw [if_pos hzero] at h
      cases h
    rw [clientShakeHand1_rejects hparse hobj h]
    constructor
    · intro hone _
      exact ⟨hone, fun hparse' => absurd (hparse.unique hparse').1 (by decide)⟩
    · intro hspares
      exact (hspares hsock).1
  · rename_i hbyte
    have hparse := parses_of_ofByte hframe hbyte
    have hsock : obj.udp.sock ≠ 0 := by
      intro hzero
      unfold clientShakeHand2 at h
      rw [if_pos hzero] at h
      cases h
    rw [clientShakeHand2_rejects hopen hparse h]
    constructor
    · intro htwo _
      exact ⟨fun key hparse' => absurd (hparse.unique hparse').1 (by decide), htwo⟩
    · intro hspares
      exact (hspares hsock).2
  · rename_i hbyte
    exact other hbyte (by decide) (by decide) (clientHeartbeat1_rejects h)
  · rename_i hbyte
    exact other hbyte (by decide) (by decide) (clientUdpInvalid_rejects h)
  · rename_i hbyte
    exact other hbyte (by decide) (by decide) (fst_of_ok h).symm
  · rename_i hbyte
    exact other hbyte (by decide) (by decide) (fst_of_ok h).symm

end ClientRecv

section Run
variable [ClockImpl T] {p : Process Ikcp T} {ok : Process Ikcp T → Input T → Prop} {now : T}
  {is : List (Input T)}

/-- A rejected frame disturbs no session exactly when it finds nothing to lose. -/
theorem rejected_frame_iff (hrun : Run step ok (.init now) is p) (buf : Bytes) (a : RecvAnswer) :
    (∀ {client addr w'}, onServerRecv p.world client buf addr a = .ok (w', -1) →
      (p.world.Undisturbed w' ↔ p.world.ServerSpares buf a)) ∧
    ∀ {c obj w'}, p.world.objs c = some obj → onClientRecv p.world c buf a = .ok (w', -1) →
      (p.world.Undisturbed w' ↔ obj.Spares buf a) := by
  have hsep := run_separate hrun
  constructor
  · intro client addr w' h
    exact onServerRecv_rejects_iff (hsep.fresh le_rfl).2.1 h
  · intro c obj w' hobj h
    exact onClientRecv_rejects_iff hobj (hsep.sock_open hobj) h

end Run

/-! The first message of the sample client when the session gets no socket. -/

def RecvAnswer.noSocket : RecvAnswer :=
  { RecvAnswer.socket 0 with bind := { getaddrinfo := false, addrs := [] } }

/-- What the examples test: the dispatcher rejects the first message. -/
def World.rejectsFirst (w : World Ikcp ℕ) : Bool :=
  match onServerRecv w none (handshakeFrame .shakeHand1) 9 .noSocket with
  | .ok (_, ret) => ret = -1
  | .error _ => false

theorem rejectsFirst_iff {w : World Ikcp ℕ} (h : w.rejectsFirst = true) :
    ∃ w', onServerRecv w none (handshakeFrame .shakeHand1) 9 .noSocket = .ok (w', -1) := by
  unfold World.rejectsFirst at h
  split at h
  · rename_i w' ret hret
    exact ⟨w', by rw [hret, of_decide_eq_true h]⟩
  · cases h

/-- What the examples test: the dispatcher rejects a second message. -/
def World.rejectsSecond (w : World Ikcp ℕ) : Bool :=
  match onServerRecv w (some 3) (handshakeFrame .shakeHand2) 9 (.socket 0) with
  | .ok (_, ret) => ret = -1
  | .error _ => false

theorem rejectsSecond_iff {w : World Ikcp ℕ} (h : w.rejectsSecond = true) : ∃ w',
    onServerRecv w (some 3) (handshakeFrame .shakeHand2) 9 (.socket 0) = .ok (w', -1) := by
  unfold World.rejectsSecond at h
  split at h
  · rename_i w' ret hret
    exact ⟨w', by rw [hret, of_decide_eq_true h]⟩
  · cases h

/-- A session that is ready rejects a repeated second message, and loses nothing. -/
theorem rejected_frame_ready : ∃ (p : Process Ikcp ℕ) (obj : Kcpev ℕ) (w' : World Ikcp ℕ),
    Run step (fun _ _ => True) (.init 0) completeHandshake p ∧ p.world.objs 3 = some obj ∧
      obj.udp.isKcpValid ∧
      onServerRecv p.world (some 3) (handshakeFrame .shakeHand2) 9 (.socket 0) = .ok (w', -1) ∧
      p.world.Undisturbed w' := by
  obtain ⟨p, hrun, htest⟩ := Run.exists_of_exec (step (K := Ikcp)) (fun _ _ => True) (.init 0)
    completeHandshake (fun p => p.world.rejectsSecond && p.world.hash = [(sampleKey, 3)] &&
      (p.world.objs 3).any fun obj => obj.udp.isKcpValid && obj.udp.status ≠ .shakingHand)
    (by decide)
  simp only [Bool.and_eq_true, decide_eq_true_eq] at htest
  obtain ⟨⟨hrejects, hhash⟩, hready⟩ := htest
  obtain ⟨w', hw⟩ := rejectsSecond_iff hrejects
  obtain ⟨obj, hobj, hready⟩ := (Option.any_eq_true _ _).mp hready
  rw [Bool.and_eq_true, decide_eq_true_eq] at hready
  refine ⟨p, obj, w', hrun, hobj, hready.1, hw,
    ((rejected_frame_iff hrun _ _).1 hw).mpr fun _ => ⟨?_, ?_⟩⟩
  · rintro c obj' ⟨server, key, hparse, -⟩
    have htwo : Parses (handshakeFrame .shakeHand2) .shakeHand2 sampleKey.val := by decide
    exact absurd (htwo.unique hparse).1 (by decide)
  · rintro c obj' ⟨server, key, -, hserver, hfind, hobj'⟩ hstatus
    have hmem := KcpevServer.hashFind_mem hfind
    simp only [World.hash, hserver, Option.elim] at hhash
    rw [hhash, List.mem_singleton, Prod.mk.injEq] at hmem
    rw [hmem.2, hobj, Option.some.injEq] at hobj'
    rw [← hobj'] at hstatus
    exact absurd hstatus (of_decide_eq_true hready.2)

/-- A working session is destroyed by a first message that is rejected. -/
theorem working_session_destroyed : ∃ (p : Process Ikcp ℕ) (obj : Kcpev ℕ) (w' : World Ikcp ℕ),
    Run step (fun _ _ => True) (.init 0) completeHandshake p ∧ p.world.objs 3 = some obj ∧
      obj.udp.isKcpValid ∧
      onServerRecv p.world none (handshakeFrame .shakeHand1) 9 .noSocket = .ok (w', -1) ∧
      ¬ p.world.Undisturbed w' := by
  obtain ⟨p, hrun, htest⟩ := Run.exists_of_exec (step (K := Ikcp)) (fun _ _ => True) (.init 0)
    completeHandshake (fun p => p.world.rejectsFirst && (p.world.sampleSession 7 true &&
      (p.world.objs 3).all fun obj => obj.udp.isKcpValid)) (by decide)
  simp only [Bool.and_eq_true] at htest
  obtain ⟨hrejects, hsession, hvalid⟩ := htest
  obtain ⟨w', hw⟩ := rejectsFirst_iff hrejects
  obtain ⟨-, ⟨server, hserver, hfind⟩, obj, hobj, hevt⟩ := sampleSession_iff hsession
  refine ⟨p, obj, w', hrun, hobj, by simpa [hobj] using hvalid, hw, ?_⟩
  rw [onServerRecv_rejects_iff ((run_separate hrun).fresh le_rfl).2.1 hw]
  intro hspares
  have hcleared := (hspares rfl).1 3 obj ⟨server, sampleKey, by decide, hserver, hfind, hobj⟩
  rw [← hcleared] at hevt
  cases hevt

end KcpEv
