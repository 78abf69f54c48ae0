import KcpEv.Intact
import KcpEv.Lib.Outcomes

/-!
Which calls return. What sends needs a message whose length does not wrap and a KCP
object that is there; the two dispatchers need the invariant of `Intact`, the callback
that a data frame is given to, and memory for the first timer.
-/
namespace KcpEv

open Guarded Outcomes TcpRecv

variable {K T : Type} {allowed : Stop → Prop}

/-! Sending. -/

theorem packSendBuf_ends (stack : ℕ → UInt8) (command : UInt8) {msg : Bytes}
    (hlen : msg.length + 8 < 2 ^ 32) :
    Ends allowed (fun _ => True) (packSendBuf stack 65536 command msg) := by
  unfold packSendBuf
  split
  · trivial
  rename_i hfits
  rw [UInt32.not_lt, UInt32.le_iff_toNat_le, realSize_toNat hlen] at hfits
  rw [headerToNet_eq _ _ (show headerSize ≤ (65536 : UInt32).toNat by decide)]
  have hroom : headerSize + msg.length ≤ (65536 : UInt32).toNat := by
    rw [headerSize_eq]
    omega
  simp only [if_pos hroom]
  trivial

theorem sockSendCommand_ends (os : Os K T) (sock : ℕ) (command : Command) {msg : Bytes}
    (a : SendAnswer) (hlen : msg.length + 8 < 2 ^ 32) :
    Ends allowed (fun _ => True) (sockSendCommand os sock command msg a) := by
  refine Ends.bind (packSendBuf_ends a.stack command.toByte hlen) ?_
  rintro ⟨buf, n⟩ - -
  refine Ends.ite (fun _ => ?_) fun _ => ?_
  · trivial
  · trivial

theorem checkCreateKcpTimer_ends (os : Os K T) (data : Owner) {udp : KcpevUdp T} (hcb : TimerCb)
    {evt : Bool} (evh : Bool) (hmem : udp.evt = none → evt = true) :
    Ends allowed (fun _ => True) (checkCreateKcpTimer os data udp hcb evt evh) := by
  unfold checkCreateKcpTimer
  refine Ends.ite (fun _ => trivial) fun hnone => ?_
  rw [Option.not_isSome_iff_eq_none] at hnone
  refine Ends.ite (fun hno => absurd (hmem hnone) hno) fun _ => ?_
  refine Ends.ite (fun _ => ?_) fun _ => ?_
  · trivial
  · trivial

theorem checkCreateKcpTimer_kcps {os os' : Os K T} {o : Owner} {udp udp' : KcpevUdp T}
    {hcb : TimerCb} {evt evh : Bool} {ret : ℤ}
    (h : checkCreateKcpTimer os o udp hcb evt evh = .ok (os', udp', ret)) : os'.kcps = os.kcps := by
  rcases checkCreateKcpTimer_cases h with ⟨-, -, rfl, -⟩ | ⟨-, -, -, -, rfl, -⟩ |
    ⟨-, -, -, -, rfl, -⟩
  · rfl
  · rfl
  · rfl

/-- The KCP object an object refers to is there. -/
def KcpevUdp.KcpLive (os : Os K T) (udp : KcpevUdp T) : Prop :=
  ∀ q, udp.kcp = some q → ∃ k, os.kcps q = some k

section Kcp
variable [KcpImpl K]

theorem ikcpSend_ends {os : Os K T} {q : ℕ} (h : ∃ k, os.kcps q = some k) (buf : Bytes) :
    Ends allowed (fun _ => True) (ikcpSend os q buf) := by
  obtain ⟨k, hk⟩ := h
  unfold ikcpSend
  rw [hk]
  trivial

theorem kcpSendCommand_ends {os : Os K T} {udp : KcpevUdp T} (hlive : udp.KcpLive os)
    (command : Command) {msg : Bytes} (stack : ℕ → UInt8) (hlen : msg.length + 8 < 2 ^ 32) :
    Ends allowed (fun _ => True) (kcpSendCommand os udp command msg stack) := by
  refine Ends.bind (packSendBuf_ends stack command.toByte hlen) ?_
  rintro ⟨buf, n⟩ - -
  refine Ends.ite (fun _ => trivial) fun _ => ?_
  refine Ends.ite (fun hvalid => ?_) fun _ => trivial
  obtain ⟨q, hq⟩ := Option.isSome_iff_exists.mp hvalid.2.1
  rw [hq]
  exact ikcpSend_ends (hlive q hq) _

theorem kcpevSendCommand_ends {os : Os K T} {b : KcpevBase T} (hlive : b.udp.KcpLive os)
    (command : Command) {msg : Bytes} (a : SendAnswer) (hlen : msg.length + 8 < 2 ^ 32) :
    Ends allowed (fun _ => True) (kcpevSendCommand os b command msg a) := by
  by_cases hvalid : b.udp.isKcpValid
  · rw [kcpevSendCommand_kcp os hvalid]
    exact kcpSendCommand_ends hlive command a.stack hlen
  · rw [kcpevSendCommand_tcp os hvalid]
    exact sockSendCommand_ends os b.tcp.sock command a hlen

end Kcp

/-! The invariant. -/

namespace World

/-- Everything the objects of a process refer to is there, and the other way round. -/
structure Intact (known : List (KcpevKey × ℕ)) (w : World K T) : Prop where
  typed : Typed w
  ios : w.IosTyped
  exact : Exact known w
  tidy : w.Tidy
  timed : w.Timed
  rings : w.RingsOk

variable {w : World K T} {known : List (KcpevKey × ℕ)} {c : ℕ} {obj : Kcpev T}

namespace Intact

open Ownership

theorem kcpLive (h : w.Intact known) (hobj : w.objs c = some obj) : obj.udp.KcpLive w.os := by
  intro q hq
  have href : refs Slots.kcpSlot w.slots (.kcpev c, ()) = some q :=
    refs_eq_some.mpr ⟨_, World.slots_some hobj, hq⟩
  exact Option.isSome_iff_exists.mp (h.tidy.owned.kcps.live href)

theorem server (h : w.Intact known) (hobj : w.objs c = some obj) (hsession : obj.hasServer = true) :
    ∃ server, w.server = some server := by
  have hmem : (obj.key, c) ∈ w.hash :=
    h.exact.session (World.sessionKey_eq_some.mpr ⟨obj, hobj, hsession, rfl⟩)
  rcases hserver : w.server with _ | server
  · simp [World.hash, hserver] at hmem
  · exact ⟨server, rfl⟩

theorem found (h : w.Intact known) {server : KcpevServer T} {key : KcpevKey}
    (hserver : w.server = some server) (hfind : server.hashFind key = some c) :
    ∃ obj, w.objs c = some obj := by
  have hmem := KcpevServer.hashFind_mem hfind
  rw [← World.hash_some hserver] at hmem
  exact Option.isSome_iff_exists.mp (h.exact.live hmem)

theorem ofIo (h : w.Intact known) {q : ℕ} {e : EvIo} (he : w.os.ios q = some e) :
    ∃ s, w.slots e.data = some s := by
  obtain ⟨⟨o, side⟩, hx⟩ := h.tidy.owned.ios.held (by rw [he]; rfl)
  obtain ⟨s, hs, -⟩ := refs_eq_some.mp hx
  obtain ⟨hdata, -⟩ := h.tidy.owned.watch hx he
  rw [hdata]
  exact ⟨s, hs⟩

theorem ofTimer (h : w.Intact known) {q : ℕ} {t : EvTimer} (ht : w.os.timers q = some t) :
    ∃ s, w.slots t.data = some s ∧ s.evt.isSome := by
  obtain ⟨⟨o, clock⟩, hx⟩ := h.tidy.owned.timers.held (by rw [ht]; rfl)
  obtain ⟨s, hs, hclock⟩ := refs_eq_some.mp hx
  have hdata := h.tidy.owned.timed hx ht
  rw [hdata]
  refine ⟨s, hs, ?_⟩
  cases clock with
  | evt => exact Option.isSome_of_eq_some hclock
  | evh =>
    have hpaired := h.tidy.paired hs
    rw [← Option.not_isNone, Bool.not_eq_true']
    by_contra hnone
    rw [Bool.not_eq_false, Option.isNone_iff_eq_none] at hnone
    have hevh : s.evh = some q := hclock
    rw [hpaired hnone] at hevh
    cases hevh

end Intact

theorem slots_kcpev {s : Slots} (h : w.slots (.kcpev c) = some s) :
    ∃ obj, w.objs c = some obj ∧ obj.toKcpevBase.slots = s :=
  Option.map_eq_some_iff.mp h

theorem slots_server_some {s : Slots} (h : w.slots .server = some s) :
    ∃ server, w.server = some server := by
  obtain ⟨server, hserver, -⟩ := Option.map_eq_some_iff.mp h
  exact ⟨server, hserver⟩

end World

theorem World.kcpev_ends {w : World K T} {c : ℕ} {obj : Kcpev T} (hobj : w.objs c = some obj) :
    Outcomes.Ends allowed (fun x => x = obj) (w.kcpev c) := by
  rw [World.kcpev_ok.mpr hobj]
  rfl

theorem World.kcpevServer_ends {w : World K T} {server : KcpevServer T}
    (hserver : w.server = some server) :
    Outcomes.Ends allowed (fun x => x = server) w.kcpevServer := by
  rw [World.kcpevServer_ok.mpr hserver]
  rfl

/-! The dispatchers. -/

section Recv
variable [KcpImpl K] {w : World K T} {known : List (KcpevKey × ℕ)} {buf : Bytes}
  {a : RecvAnswer}

theorem KcpevKey.val_short (key : KcpevKey) : key.val.length + 8 < 2 ^ 32 := by
  rw [key.property]
  omega

section Server
variable {server : KcpevServer T}

theorem serverShakeHand1_ends (h : w.Intact known) (hserver : w.server = some server)
    (data : Bytes) (addr : Addr) :
    Ends allowed (fun _ => True) (serverShakeHand1 w data addr a) := by
  unfold serverShakeHand1
  split
  · trivial
  refine Ends.bind (World.kcpevServer_ends hserver) ?_
  rintro server' - rfl
  split
  · trivial
  rename_i c hc
  obtain ⟨obj, hobj⟩ := h.found hserver hc
  refine Ends.bind (World.kcpev_ends hobj) ?_
  rintro obj' - rfl
  rcases connectClientUdp w.os c obj' addr a with ⟨os, client, ret⟩
  refine Ends.ite (fun _ => trivial) fun _ => ?_
  refine Ends.bind (sockSendCommand_ends os _ _ a.send client.key.val_short) ?_
  rintro ⟨os', ret'⟩ - -
  trivial

omit [KcpImpl K] in
theorem serverShakeHand2_ends (h : w.Intact known) (hserver : w.server = some server)
    {data : Bytes} (hparse : Parses buf .shakeHand2 data)
    (hmem : ∀ c obj, Finds w buf .shakeHand2 c obj → obj.udp.status = .shakingHand →
      obj.udp.evt = none → a.evt = true) :
    Ends allowed (fun _ => True) (serverShakeHand2 w data a) := by
  unfold serverShakeHand2
  split
  · trivial
  rename_i key hkey
  refine Ends.bind (World.kcpevServer_ends hserver) ?_
  rintro server' - rfl
  split
  · trivial
  rename_i c hc
  obtain ⟨obj, hobj⟩ := h.found hserver hc
  refine Ends.bind (World.kcpev_ends hobj) ?_
  rintro obj' - rfl
  refine Ends.ite (fun _ => trivial) fun hstatus => ?_
  rw [ne_eq, not_not] at hstatus
  rw [KcpevKey.ofBytes_eq_some hkey] at hparse
  have halloc := hmem c obj' ⟨server', key, hparse, hserver, hc, hobj⟩ hstatus
  refine Ends.bind (checkCreateKcpTimer_ends w.os _ _ a.evh halloc) ?_
  rintro ⟨os, udp, ret⟩ - -
  refine Ends.ite (fun _ => ?_) fun _ => ?_
  · trivial
  · trivial

variable [ClockImpl T]

theorem serverHeartbeat1_ends (h : w.Intact known) {client : Option ℕ}
    (hclient : ∀ c, client = some c → ∃ obj, w.objs c = some obj) (data : Bytes) :
    Ends allowed (fun _ => True) (serverHeartbeat1 w client data a) := by
  rcases client with _ | c
  · trivial
  obtain ⟨obj, hobj⟩ := hclient c rfl
  refine Ends.bind (World.kcpev_ends hobj) ?_
  rintro obj' - rfl
  refine Ends.ite (fun _ => trivial) fun _ => Ends.ite (fun _ => trivial) fun _ =>
    Ends.ite (fun _ => trivial) fun _ => ?_
  have hlen : (obj'.key.val ++ htobe64 (ClockImpl.bits obj'.udp.heart)).length + 8 < 2 ^ 32 := by
    rw [List.length_append, obj'.key.property]
    simp [htobe64]
  refine Ends.bind (kcpSendCommand_ends (h.kcpLive hobj) _ a.send.stack hlen) ?_
  rintro ⟨os, ret⟩ - -
  trivial

omit [KcpImpl K] in
theorem serverHeartbeat2_ends {client : Option ℕ}
    (hclient : ∀ c, client = some c → ∃ obj, w.objs c = some obj) (data : Bytes) :
    Ends allowed (fun _ => True) (serverHeartbeat2 w client data) := by
  rcases client with _ | c
  · trivial
  obtain ⟨obj, hobj⟩ := hclient c rfl
  refine Ends.bind (World.kcpev_ends hobj) ?_
  rintro obj' - rfl
  refine Ends.ite (fun _ => trivial) fun _ => Ends.ite (fun _ => trivial) fun _ =>
    Ends.ite (fun _ => trivial) fun _ => Ends.ite (fun _ => ?_) fun _ => ?_
  · trivial
  · trivial

theorem onServerRecv_ends (h : w.Intact known) (hserver : w.server = some server)
    {client : Option ℕ} (hclient : ∀ c, client = some c → ∃ obj, w.objs c = some obj) (addr : Addr)
    (hcb : a.getnameinfo = true → ∀ data, Parses buf .data data → server.hasRecvCb = true)
    (hmem : a.getnameinfo = true → ∀ c obj, Finds w buf .shakeHand2 c obj →
      obj.udp.status = .shakingHand → obj.udp.evt = none → a.evt = true) :
    Ends allowed (fun _ => True) (onServerRecv w client buf addr a) := by
  unfold onServerRecv
  split
  · trivial
  rename_i byte data hframe
  refine Ends.ite (fun _ => trivial) fun hname => ?_
  rw [not_not] at hname
  split
  · rename_i hbyte
    refine Ends.bind (World.kcpevServer_ends hserver) ?_
    rintro server' - rfl
    have hset := hcb hname data (parses_of_ofByte hframe hbyte)
    refine Ends.ite (fun hno => absurd hset hno) fun _ => ?_
    trivial
  · exact serverShakeHand1_ends h hserver data addr
  · exact serverShakeHand2_ends h hserver (parses_of_ofByte hframe (by assumption)) (hmem hname)
  · exact serverHeartbeat1_ends h hclient data
  · exact serverHeartbeat2_ends hclient data
  · trivial
  · trivial

end Server

section Client
variable {c : ℕ} {obj : Kcpev T}

omit [KcpImpl K] in
theorem clientShakeHand1_ends (data : Bytes) :
    Ends allowed (fun _ => True) (clientShakeHand1 w c obj data a) := by
  unfold clientShakeHand1
  refine Ends.ite (fun _ => trivial) fun _ => ?_
  split
  · trivial
  rename_i key hkey
  have hlen : data.length + 8 < 2 ^ 32 := by
    rw [KcpevKey.ofBytes_eq_some hkey]
    exact key.val_short
  refine Ends.bind (sockSendCommand_ends w.os _ _ a.send hlen) ?_
  rintro ⟨os, ret⟩ - -
  refine Ends.ite (fun _ => ?_) fun _ => ?_
  · trivial
  · trivial

omit [KcpImpl K] in
theorem clientShakeHand2_ends (h : w.Intact known) (hobj : w.objs c = some obj)
    (hkind : obj.hasServer = false) {data : Bytes}
    (hmem : data = obj.key.val → obj.udp.status = .shakingHand → obj.udp.evt = none →
      a.evt = true) :
    Ends allowed (fun _ => True) (clientShakeHand2 w c obj data a) := by
  unfold clientShakeHand2
  refine Ends.ite (fun _ => trivial) fun _ => ?_
  split
  · trivial
  rename_i key hkey
  refine Ends.ite (fun _ => trivial) fun hstatus => Ends.ite (fun _ => trivial) fun hmatch => ?_
  rw [ne_eq, not_not] at hstatus hmatch
  have hdata := KcpevKey.ofBytes_eq_some hkey
  rw [hmatch] at hdata
  have hlen : data.length + 8 < 2 ^ 32 := by
    rw [hdata]
    exact obj.key.val_short
  refine Ends.bind (sockSendCommand_ends w.os _ _ a.send hlen) ?_
  rintro ⟨os, ret⟩ hsend -
  refine Ends.ite (fun _ => trivial) fun _ => ?_
  refine Ends.bind (checkCreateKcpTimer_ends os _ _ a.evh (hmem hdata hstatus)) ?_
  rintro ⟨os', udp, ret'⟩ htimer -
  refine Ends.ite (fun _ => trivial) fun _ => ?_
  -- the KCP object is the one the client has had since it was created
  obtain ⟨q, hq⟩ := Option.isSome_iff_exists.mp ((h.timed.objs hobj).client hkind)
  obtain ⟨k, hk⟩ := h.kcpLive hobj q hq
  have hsame : (os'.kcps q).isSome = (w.os.kcps q).isSome := by
    rw [checkCreateKcpTimer_kcps htimer, (keeps_sockSendCommand hsend).kcps q]
  rw [hk, Option.isSome_some, Option.isSome_iff_exists] at hsame
  obtain ⟨k', hk'⟩ := hsame
  rw [show udp.kcp = some q from (checkCreateKcpTimer_kcp htimer).trans hq]
  simp only [hk']
  trivial

theorem clientHeartbeat1_ends (h : w.Intact known) (hobj : w.objs c = some obj) (data : Bytes) :
    Ends allowed (fun _ => True) (clientHeartbeat1 w c obj data a) := by
  unfold clientHeartbeat1
  refine Ends.ite (fun _ => trivial) fun _ => Ends.ite (fun _ => trivial) fun hlen =>
    Ends.ite (fun _ => trivial) fun _ => Ends.ite (fun _ => trivial) fun _ => ?_
  rw [ne_eq, not_not] at hlen
  have hshort : data.length + 8 < 2 ^ 32 := by
    rw [hlen]
    decide
  refine Ends.bind (kcpevSendCommand_ends (h.kcpLive hobj) _ a.send hshort) ?_
  rintro ⟨os, ret⟩ - -
  refine Ends.ite (fun _ => ?_) fun _ => ?_
  · trivial
  · trivial

theorem onClientRecv_ends (h : w.Intact known) (hobj : w.objs c = some obj)
    (hkind : obj.hasServer = false)
    (hcb : ∀ data, Parses buf .data data → obj.hasRecvCb = true)
    (hmem : Parses buf .shakeHand2 obj.key.val → obj.udp.status = .shakingHand →
      obj.udp.evt = none → a.evt = true) :
    Ends allowed (fun _ => True) (onClientRecv w c buf a) := by
  refine Ends.bind (World.kcpev_ends hobj) ?_
  rintro obj' - rfl
  split
  · trivial
  rename_i byte data hframe
  split
  · rename_i hbyte
    have hset := hcb data (parses_of_ofByte hframe hbyte)
    exact Ends.ite (fun hno => absurd hset hno) fun _ => trivial
  · exact clientShakeHand1_ends data
  · rename_i hbyte
    refine clientShakeHand2_ends h hobj hkind fun hdata => hmem ?_
    rw [← hdata]
    exact parses_of_ofByte hframe hbyte
  · exact clientHeartbeat1_ends h hobj data
  · unfold clientUdpInvalid
    exact Ends.ite (fun _ => trivial) fun _ => Ends.ite (fun _ => trivial) fun _ =>
      Ends.ite (fun _ => trivial) fun _ => trivial
  · trivial
  · trivial

end Client

end Recv

end KcpEv
