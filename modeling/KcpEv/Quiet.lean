import KcpEv.Process
import KcpEv.Slots

/-!
Most of what a process does leaves alone which objects are alive, which
resources they hold and how they are registered. Such a change of the world is
quiet.
-/
namespace KcpEv

variable {K T : Type}

/-- A session has a key for good; the key of a client changes. -/
def Kcpev.role (client : Kcpev T) : Option KcpevKey :=
  if client.hasServer then some client.key else none

/-- The session is in the middle of a handshake. -/
def Kcpev.Shaking (client : Kcpev T) : Prop :=
  client.hasServer = true ∧ client.udp.status = .shakingHand

/-- The KCP objects have the same conversation numbers. -/
def Os.SameConvs (os os' : Os K T) : Prop :=
  ∀ q, (os'.kcps q).map Ikcpcb.conv = (os.kcps q).map Ikcpcb.conv

namespace World

/-- The resources each live object refers to. -/
def slots (w : World K T) : Owner → Option Slots
  | .server => w.server.map fun server => server.toKcpevBase.slots
  | .kcpev c => (w.objs c).map fun client => client.toKcpevBase.slots

def hash (w : World K T) : List (KcpevKey × ℕ) := w.server.elim [] KcpevServer.hash

structure Quiet (w w' : World K T) : Prop where
  os : w.os.Same w'.os
  slots : w'.slots = w.slots
  hash : w'.hash = w.hash
  server : w'.server.isSome = w.server.isSome
  role : ∀ c, (w'.objs c).map Kcpev.role = (w.objs c).map Kcpev.role
  /-- no session begins a handshake -/
  shaking : ∀ {c obj'}, w'.objs c = some obj' → obj'.Shaking →
    ∃ obj, w.objs c = some obj ∧ obj.Shaking

namespace Quiet

variable {w w' w'' : World K T}

theorem of_objs {w' : World K T} (hobjs : w'.objs = w.objs) (hos : w.os.Same w'.os)
    (hslots : w'.slots = w.slots) (hhash : w'.hash = w.hash)
    (hserver : w'.server.isSome = w.server.isSome) : w.Quiet w' where
  os := hos
  slots := hslots
  hash := hhash
  server := hserver
  role c := by rw [hobjs]
  shaking hobj hshaking := ⟨_, by rw [← hobjs]; exact hobj, hshaking⟩

theorem refl (w : World K T) : w.Quiet w := of_objs rfl (Os.Same.refl _) rfl rfl rfl

theorem trans (h : w.Quiet w') (h' : w'.Quiet w'') : w.Quiet w'' where
  os := h.os.trans h'.os
  slots := h'.slots.trans h.slots
  hash := h'.hash.trans h.hash
  server := h'.server.trans h.server
  role c := (h'.role c).trans (h.role c)
  shaking hobj hshaking := by
    obtain ⟨obj, hobj₁, hshaking₁⟩ := h'.shaking hobj hshaking
    exact h.shaking hobj₁ hshaking₁

/-- Liveness is among what a quiet change keeps. -/
theorem isSome (h : w.Quiet w') (c : ℕ) : (w'.objs c).isSome = (w.objs c).isSome := by
  have hc := congrArg Option.isSome (h.role c)
  simpa using hc

/-- An object of the later world and what it was. -/
theorem old (h : w.Quiet w') {c : ℕ} {obj' : Kcpev T} (hobj : w'.objs c = some obj') :
    ∃ obj, w.objs c = some obj ∧ obj.role = obj'.role ∧
      obj.toKcpevBase.slots = obj'.toKcpevBase.slots := by
  have hrole := h.role c
  have hslots := congrFun h.slots (.kcpev c)
  rw [hobj, Option.map_some] at hrole
  simp only [World.slots, hobj, Option.map_some] at hslots
  obtain ⟨obj, hobj, hr⟩ := Option.map_eq_some_iff.mp hrole.symm
  rw [hobj, Option.map_some, Option.some.injEq] at hslots
  exact ⟨obj, hobj, hr, hslots.symm⟩

end Quiet

/-- And the conversation numbers stay. -/
structure Calm (w w' : World K T) : Prop extends Quiet w w' where
  convs : w.os.SameConvs w'.os

namespace Calm

variable {w w' w'' : World K T}

theorem of_objs (hobjs : w'.objs = w.objs) (hos : w.os.Keeps w'.os)
    (hslots : w'.slots = w.slots) (hhash : w'.hash = w.hash)
    (hserver : w'.server.isSome = w.server.isSome) : w.Calm w' :=
  ⟨.of_objs hobjs hos.toSame hslots hhash hserver, hos.convs⟩

theorem refl (w : World K T) : w.Calm w := ⟨.refl w, fun _ => rfl⟩

theorem trans (h : w.Calm w') (h' : w'.Calm w'') : w.Calm w'' :=
  ⟨h.toQuiet.trans h'.toQuiet, fun q => (h'.convs q).trans (h.convs q)⟩

end Calm

theorem slots_store (w : World K T) (os : Os K T) (c : ℕ) (client : Kcpev T) :
    (w.store os c client).slots =
      Function.update w.slots (.kcpev c) (some client.toKcpevBase.slots) := by
  funext o
  rcases o with _ | c'
  · rfl
  · rcases eq_or_ne c' c with rfl | hne
    · simp [slots, store]
    · have : Owner.kcpev c' ≠ .kcpev c := by
        intro h
        cases h
        exact hne rfl
      simp [slots, store, hne, this]

theorem slots_some {w : World K T} {c : ℕ} {client : Kcpev T} (h : w.objs c = some client) :
    w.slots (.kcpev c) = some client.toKcpevBase.slots := by
  simp [slots, h]

theorem calm_os (w : World K T) {os : Os K T} (h : w.os.Keeps os) : w.Calm { w with os } :=
  .of_objs rfl h rfl rfl rfl

theorem quiet_store (w : World K T) {os : Os K T} {c : ℕ} {client client' : Kcpev T}
    (hobj : w.objs c = some client) (hos : w.os.Same os)
    (hslots : client'.toKcpevBase.slots = client.toKcpevBase.slots)
    (hrole : client'.role = client.role) (hshaking : client'.Shaking → client.Shaking) :
    w.Quiet (w.store os c client') where
  os := hos
  slots := by
    rw [slots_store, hslots, ← slots_some hobj, Function.update_eq_self]
  hash := rfl
  server := rfl
  role c' := by
    rcases eq_or_ne c' c with rfl | hne
    · simp [store, hobj, hrole]
    · simp [store, hne]
  shaking {c' obj'} hobj' h := by
    rcases eq_or_ne c' c with rfl | hne
    · simp only [store, Function.update_self, Option.some.injEq] at hobj'
      rw [← hobj'] at h
      exact ⟨client, hobj, hshaking h⟩
    · simp only [store, Function.update_of_ne hne] at hobj'
      exact ⟨obj', hobj', h⟩

theorem calm_store (w : World K T) {os : Os K T} {c : ℕ} {client client' : Kcpev T}
    (hobj : w.objs c = some client) (hos : w.os.Keeps os)
    (hslots : client'.toKcpevBase.slots = client.toKcpevBase.slots)
    (hrole : client'.role = client.role) (hshaking : client'.Shaking → client.Shaking) :
    w.Calm (w.store os c client') :=
  ⟨w.quiet_store hobj hos.toSame hslots hrole hshaking, hos.convs⟩

theorem calm_setRb (w : World K T) {c : ℕ} {client : Kcpev T} (hobj : w.objs c = some client)
    (rb : Option Ringbuf) : w.Calm (w.setRb c client rb) :=
  w.calm_store hobj (Os.Keeps.refl _) rfl rfl id

theorem calm_emit (w : World K T) (o : Output) (h : o.serverCall = none) :
    w.Calm { w with os := w.os.emit o } :=
  w.calm_os (Os.keeps_emit _ _ h)

end World

section Events
variable {w w' : World K T} {ctl : Control} {c fd : ℕ} {a : IoAnswer}

theorem calm_tcpReceived {src : Source} {client : Kcpev T} {addr : Addr} {data : Bytes}
    (hobj : w.objs c = some client)
    (h : tcpReceived w src c client addr data a = .ok (w', ctl)) : w.Calm w' := by
  obtain ⟨⟨rb, size⟩, -, h⟩ := bind_eq_ok.mp h
  have hrb := w.calm_setRb hobj rb
  dsimp only at h
  split at h
  · cases h
    exact hrb.trans (World.calm_emit _ _ rfl)
  · cases h
    exact hrb

theorem calm_serverTcpRecv (h : serverTcpRecv w c fd a = .ok (w', ctl)) : w.Calm w' := by
  obtain ⟨client, hobj, h⟩ := bind_eq_ok.mp h
  split at h
  · cases h
    exact World.Calm.refl _
  · exact calm_tcpReceived (World.kcpev_ok.mp hobj) h

theorem calm_clientTcpRecv (h : clientTcpRecv w c fd a = .ok (w', ctl)) : w.Calm w' := by
  unfold clientTcpRecv at h
  split at h
  · cases h
  · obtain ⟨client, hobj, h⟩ := bind_eq_ok.mp h
    exact calm_tcpReceived (World.kcpev_ok.mp hobj) h

theorem calm_tryKcpRecv (h : tryKcpRecv w c = .ok (w', ctl)) : w.Calm w' := by
  obtain ⟨client, -, h⟩ := bind_eq_ok.mp h
  split at h
  · cases h
  · cases h
    exact World.Calm.refl _

theorem calm_serverUdpRecvAll : w.Calm (serverUdpRecvAll w fd a).1 := by
  unfold serverUdpRecvAll
  split
  · exact World.Calm.refl _
  · exact World.calm_emit _ _ rfl

section Kcp
variable [KcpImpl K]

theorem calm_kcpReceived {client : Kcpev T} {data : Bytes}
    (h : kcpReceived w c client data = .ok (w', ctl)) : w.Calm w' := by
  unfold kcpReceived at h
  split at h
  · cases h
  rename_i kcp _
  obtain ⟨os, hin, h⟩ := bind_eq_ok.mp h
  have hos : w.os.Keeps os := by
    unfold ikcpInput at hin
    split at hin
    · cases hin
    · rename_i k hk
      cases hin
      exact w.os.keeps_setKcp hk rfl
  exact (w.calm_os hos).trans (calm_tryKcpRecv h)

theorem calm_clientUdpRecv (h : clientUdpRecv w c fd a = .ok (w', ctl)) : w.Calm w' := by
  unfold clientUdpRecv at h
  split at h
  · cases h
    exact World.Calm.refl _
  · obtain ⟨client, -, h⟩ := bind_eq_ok.mp h
    split at h
    · cases h
      exact World.calm_emit _ _ rfl
    · exact calm_kcpReceived h

theorem calm_serverUdpRecv (h : serverUdpRecv w c fd a = .ok (w', ctl)) : w.Calm w' := by
  unfold serverUdpRecv at h
  split at h
  · cases h
    exact World.Calm.refl _
  · obtain ⟨client, -, h⟩ := bind_eq_ok.mp h
    split at h
    · split at h
      · cases h
        exact World.Calm.refl _
      · cases h
        exact World.calm_emit _ _ rfl
    · exact calm_kcpReceived h

omit [KcpImpl K] in
theorem keeps_udpOutputs (sock : ℕ) (answers : ℕ → Option ℕ) (bufs : List Bytes) (n : ℕ)
    (os : Os K T) : os.Keeps (udpOutputs sock answers n os bufs) := by
  induction bufs generalizing n os with
  | nil => exact Os.Keeps.refl os
  | cons buf bufs ih =>
    refine Os.Keeps.trans ?_ (ih (n + 1) _)
    rcases os.send_cases sock buf (answers n) with hs | ⟨k, hs⟩
    · rw [hs]
      exact Os.Keeps.refl os
    · rw [hs]
      exact Os.keeps_emit _ _ rfl

variable [ClockImpl T]

theorem calm_kcpevTimerRepeat {output : ℕ → Option ℕ}
    (h : kcpevTimerRepeat w c output = .ok w') : w.Calm w' := by
  obtain ⟨client, -, h⟩ := bind_eq_ok.mp h
  split at h
  · cases h
    exact World.Calm.refl _
  rename_i p _
  split at h
  · cases h
  rename_i kcp hkcp
  dsimp only at h
  split at h
  · cases h
  rename_i evt _
  cases h
  apply World.calm_os
  have hagain : ∀ next now : UInt32, (if next ≤ now then 10 else (next - now).toNat) ≠ 0 := by
    intro next now
    split
    · omega
    · rename_i hlt
      rw [UInt32.not_le] at hlt
      rw [UInt32.toNat_sub_of_le _ _ (UInt32.le_of_lt hlt)]
      have : now.toNat < next.toNat := UInt32.lt_iff_toNat_lt.mp hlt
      omega
  refine Os.Keeps.trans ?_ (Os.keeps_evTimerAgain _ _ (hagain _ _))
  split
  · have hout := keeps_udpOutputs client.udp.sock output
      (KcpImpl.update kcp.conv kcp.state (ClockImpl.ms w.os.now)).2 0 w.os
    refine hout.trans ?_
    have hp := hout.convs p
    rw [hkcp, Option.map_some] at hp
    obtain ⟨kcp', hkcp', hconv⟩ := Option.map_eq_some_iff.mp hp
    exact Os.keeps_setKcp _ hkcp' hconv.symm
  · exact Os.keeps_setKcp _ hkcp rfl

theorem calm_kcpevOnTimer {a : TimerAnswer} (h : kcpevOnTimer w c a = .ok (w', ctl)) :
    w.Calm w' := by
  obtain ⟨w₁, hrepeat, h⟩ := bind_eq_ok.mp h
  exact (calm_kcpevTimerRepeat hrepeat).trans (calm_tryKcpRecv h)

omit [KcpImpl K] [ClockImpl T] in
theorem slots_setKcpInvalid (client : Kcpev T) :
    ({ client with udp := client.udp.setKcpInvalid } : Kcpev T).toKcpevBase.slots =
      client.toKcpevBase.slots := by
  rw [KcpevUdp.setKcpInvalid_eq]
  rfl

omit [KcpImpl K] [ClockImpl T] in
theorem not_shaking_setKcpInvalid (client : Kcpev T)
    (h : ({ client with udp := client.udp.setKcpInvalid } : Kcpev T).Shaking) :
    client.Shaking := by
  have hstatus := h.2
  rw [KcpevUdp.setKcpInvalid_eq] at hstatus
  cases hstatus

theorem calm_onClientHeartbeatTimer {a : TimerAnswer}
    (h : onClientHeartbeatTimer w c a = .ok w') : w.Calm w' := by
  obtain ⟨client, hobj, h⟩ := bind_eq_ok.mp h
  rw [World.kcpev_ok] at hobj
  split at h
  · cases h
    exact World.Calm.refl _
  split at h
  · cases h
    exact w.calm_store hobj (Os.Keeps.refl _) (slots_setKcpInvalid client) rfl
      (not_shaking_setKcpInvalid client)
  · obtain ⟨⟨os, r⟩, hsend, h⟩ := bind_eq_ok.mp h
    cases h
    exact w.calm_os (keeps_kcpSendCommand hsend).1

omit [KcpImpl K] in
theorem calm_onServerHeartbeatTimer {a : TimerAnswer}
    (h : onServerHeartbeatTimer w c a = .ok w') : w.Calm w' := by
  obtain ⟨client, hobj, h⟩ := bind_eq_ok.mp h
  rw [World.kcpev_ok] at hobj
  split at h
  · cases h
    exact World.Calm.refl _
  split at h
  · obtain ⟨⟨os, r⟩, hsend, h⟩ := bind_eq_ok.mp h
    cases h
    exact w.calm_store hobj (keeps_sockSendCommand hsend) (slots_setKcpInvalid client) rfl
      (not_shaking_setKcpInvalid client)
  · cases h
    exact World.Calm.refl _

omit [ClockImpl T] in
theorem calm_drainRound {src : Source} {addr : Addr}
    (h : drainRound w src addr = .ok (w', ctl)) : w.Calm w' := by
  unfold drainRound at h
  split at h
  · obtain ⟨client, hobj, h⟩ := bind_eq_ok.mp h
    rw [World.kcpev_ok] at hobj
    obtain ⟨⟨rb, chunk⟩, -, h⟩ := bind_eq_ok.mp h
    dsimp only at h
    split at h
    · cases h
      exact w.calm_setRb hobj rb
    · cases h
      exact (w.calm_setRb hobj rb).trans (World.calm_emit _ _ rfl)
  · obtain ⟨client, hobj, h⟩ := bind_eq_ok.mp h
    rw [World.kcpev_ok] at hobj
    obtain ⟨⟨rb, chunk⟩, -, h⟩ := bind_eq_ok.mp h
    dsimp only at h
    split at h
    · cases h
      exact w.calm_setRb hobj rb
    · cases h
      exact (w.calm_setRb hobj rb).trans (World.calm_emit _ _ rfl)
  · rename_i c p
    obtain ⟨⟨w₁, answer⟩, hrecv, h⟩ := bind_eq_ok.mp h
    have hw₁ : w.Calm w₁ := by
      unfold World.ikcpRecv at hrecv
      split at hrecv
      · cases hrecv
      · rename_i k hk
        cases hrecv
        exact w.calm_os (w.os.keeps_setKcp hk rfl)
    rcases answer with _ | _ | ⟨b, rest⟩
    · cases h
      exact hw₁
    · cases h
      exact hw₁
    dsimp only at h
    split at h
    · cases h
    obtain ⟨obj, -, h⟩ := bind_eq_ok.mp h
    split at h
    · split at h
      · cases h
        exact hw₁
      · cases h
        exact hw₁.trans (World.calm_emit _ _ rfl)
    · cases h
      exact hw₁.trans (World.calm_emit _ _ rfl)
  · cases h
    exact World.Calm.refl _
  · cases h
    exact World.Calm.refl _
  · cases h
    exact World.Calm.refl _

end Kcp

end Events

end KcpEv
