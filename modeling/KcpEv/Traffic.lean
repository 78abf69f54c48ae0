import KcpEv.Linked
import KcpEv.Setup

/-!
What an object puts on its sockets and gives to its KCP object. A KCP object
remembers the messages it has accepted; everything else it does is done by the
KCP object it stands for. Most functions put nothing anywhere, and what one object
puts does not show in the resources of another.
-/
namespace KcpEv

open Ownership

variable {K T : Type}

/-- A KCP object, with the messages for which `ikcp_send` returned zero. -/
structure Logged (K : Type) where
  kcp : K
  accepted : List Bytes

instance loggedKcp [KcpImpl K] : KcpImpl (Logged K) where
  create := ⟨KcpImpl.create, []⟩
  send k buf :=
    let (kcp, ret) := KcpImpl.send k.kcp buf
    (⟨kcp, if ret = 0 then k.accepted ++ [buf] else k.accepted⟩, ret)
  recv k size :=
    let (kcp, answer) := KcpImpl.recv k.kcp size
    (⟨kcp, k.accepted⟩, answer)
  input conv k data :=
    let (kcp, ret) := KcpImpl.input conv k.kcp data
    (⟨kcp, k.accepted⟩, ret)
  check k now := KcpImpl.check k.kcp now
  update conv k now :=
    let (kcp, bufs) := KcpImpl.update conv k.kcp now
    (⟨kcp, k.accepted⟩, bufs)

/-- The bytes an output puts on a socket. -/
def Output.on (fd : ℕ) : Output → Option Bytes
  | .sent fd' buf => if fd' = fd then some buf else none
  | .received .. | .serverRecvCb .. | .clientRecvCb .. => none

/-- What an object has put on its sockets and given to its KCP object. -/
structure Traffic where
  kcp : List Bytes
  tcp : List Bytes
  udp : List Bytes
  deriving DecidableEq

def Traffic.none : Traffic := ⟨[], [], []⟩

namespace Os

variable (os os' : Os (Logged K) T)

/-- What a KCP object has accepted. -/
def log (q : ℕ) : List Bytes := ((os.kcps q).map fun k => k.state.accepted).getD []

/-- What was put on a descriptor. -/
def putOn (fd : ℕ) : List Bytes := os.out.filterMap (Output.on fd)

/-- What a KCP object, if there is one, has accepted since. -/
def given (q : Option ℕ) : List Bytes :=
  q.elim [] fun q => (os'.log q).drop (os.log q).length

/-- What was put since on a descriptor that is not zero. -/
def put (fd : ℕ) : List Bytes :=
  if fd = 0 then [] else (os'.putOn fd).drop (os.putOn fd).length

end Os

/-- What the object at an address put and gave between two worlds. -/
def World.traffic (w w' : World (Logged K) T) (c : ℕ) : Traffic :=
  match w'.objs c with
  | none => .none
  | some obj =>
    { kcp := w.os.given w'.os obj.udp.kcp
      tcp := w.os.put w'.os obj.tcp.sock
      udp := w.os.put w'.os obj.udp.sock }

namespace Os

variable {os os' os'' : Os (Logged K) T} {b : KcpevBase T}

/-- Nothing was put anywhere or given to KCP; a KCP object may be new or gone. -/
structure Mute (os os' : Os (Logged K) T) : Prop where
  log : ∀ q, os'.log q = os.log q ∨ os'.log q = []
  put : ∀ fd, os'.putOn fd = os.putOn fd

namespace Mute

theorem refl (os : Os (Logged K) T) : os.Mute os := ⟨fun _ => Or.inl rfl, fun _ => rfl⟩

theorem trans (h : os.Mute os') (h' : os'.Mute os'') : os.Mute os'' where
  log q := by
    rcases h'.log q with hq | hq
    · rw [hq]
      exact h.log q
    · exact Or.inr hq
  put fd := (h'.put fd).trans (h.put fd)

theorem of_eq (hout : os'.out = os.out) (hkcps : os'.kcps = os.kcps) : os.Mute os' where
  log q := by
    unfold Os.log
    rw [hkcps]
    exact Or.inl rfl
  put fd := by rw [putOn, hout, putOn]

theorem emit (os : Os (Logged K) T) {o : Output} (h : ∀ fd, o.on fd = none) :
    os.Mute (os.emit o) := by
  refine ⟨fun _ => Or.inl rfl, fun fd => ?_⟩
  simp [putOn, Os.emit, h fd]

theorem setKcp {q : ℕ} {k k' : Ikcpcb (Logged K)} (hk : os.kcps q = some k)
    (h : k'.state.accepted = k.state.accepted) : os.Mute (os.setKcp q k') := by
  refine ⟨fun r => Or.inl ?_, fun _ => rfl⟩
  unfold Os.log
  rcases eq_or_ne r q with heq | hne
  · rw [heq, hk]
    simp [Os.setKcp, h]
  · simp [Os.setKcp, hne]

theorem release (os : Os (Logged K) T) (q : ℕ) : os.Mute (os.ikcpRelease q) := by
  refine ⟨fun r => ?_, fun _ => rfl⟩
  unfold Os.log
  rcases eq_or_ne r q with heq | hne
  · rw [heq]
    simp [ikcpRelease]
  · simp [ikcpRelease, hne]

theorem create [KcpImpl K] (os : Os (Logged K) T) (conv : ℕ) : os.Mute (os.ikcpCreate conv).1 := by
  refine ⟨fun r => ?_, fun _ => rfl⟩
  unfold Os.log
  rcases eq_or_ne r os.next with heq | hne
  · rw [heq]
    simp only [ikcpCreate, Function.update_self, Option.map_some, Option.getD_some]
    exact Or.inr rfl
  · simp [ikcpCreate, hne]

end Mute

/-- What was put or given belongs to one object. -/
structure Only (os os' : Os (Logged K) T) (b : KcpevBase T) : Prop where
  log : ∀ q, b.udp.kcp ≠ some q → os'.log q = os.log q ∨ os'.log q = []
  put : ∀ fd, fd ≠ 0 → fd ≠ b.tcp.sock → fd ≠ b.udp.sock → os'.putOn fd = os.putOn fd

theorem Mute.only (h : os.Mute os') (b : KcpevBase T) : os.Only os' b :=
  ⟨fun q _ => h.log q, fun fd _ _ _ => h.put fd⟩

theorem Only.trans (h : os.Only os' b) (h' : os'.Only os'' b) : os.Only os'' b where
  log q hq := by
    rcases h'.log q hq with hlog | hlog
    · rw [hlog]
      exact h.log q hq
    · exact Or.inr hlog
  put fd h₀ h₁ h₂ := (h'.put fd h₀ h₁ h₂).trans (h.put fd h₀ h₁ h₂)

/-- These bytes were put on one descriptor, and nothing else anywhere. -/
structure Puts (os os' : Os (Logged K) T) (fd : ℕ) (bufs : List Bytes) : Prop where
  log : ∀ q, os'.log q = os.log q ∨ os'.log q = []
  put : ∀ fd', os'.putOn fd' = os.putOn fd' ++ if fd' = fd then bufs else []

namespace Puts

variable {fd : ℕ} {bufs bufs' : List Bytes}

theorem nil (os : Os (Logged K) T) (fd : ℕ) : os.Puts os fd [] :=
  ⟨fun _ => Or.inl rfl, fun fd' => by simp⟩

theorem append (h : os.Puts os' fd bufs) (h' : os'.Puts os'' fd bufs') :
    os.Puts os'' fd (bufs ++ bufs') where
  log q := by
    rcases h'.log q with hq | hq
    · rw [hq]
      exact h.log q
    · exact Or.inr hq
  put fd' := by
    rw [h'.put, h.put]
    split
    · rw [List.append_assoc]
    · simp

theorem after (hmute : os.Mute os') (h : os'.Puts os'' fd bufs) : os.Puts os'' fd bufs where
  log q := by
    rcases h.log q with hq | hq
    · rw [hq]
      exact hmute.log q
    · exact Or.inr hq
  put fd' := by rw [h.put, hmute.put]

theorem before (h : os.Puts os' fd bufs) (hmute : os'.Mute os'') : os.Puts os'' fd bufs where
  log q := by
    rcases hmute.log q with hq | hq
    · rw [hq]
      exact h.log q
    · exact Or.inr hq
  put fd' := by rw [hmute.put, h.put]

theorem emit (os : Os (Logged K) T) (fd : ℕ) (buf : Bytes) :
    os.Puts (os.emit (.sent fd buf)) fd [buf] := by
  refine ⟨fun _ => Or.inl rfl, fun fd' => ?_⟩
  rcases eq_or_ne fd' fd with heq | hne
  · rw [heq]
    simp [putOn, Os.emit, Output.on]
  · simp [putOn, Os.emit, Output.on, hne, hne.symm]

theorem send (os : Os (Logged K) T) (fd : ℕ) (buf : Bytes) (answer : Option ℕ) :
    ∃ bufs, os.Puts (os.send fd buf answer).1 fd bufs ∧ ∀ b ∈ bufs, ∃ k, b = buf.take k := by
  rcases os.send_cases fd buf answer with hs | ⟨k, hs⟩
  · rw [hs]
    exact ⟨[], nil os fd, List.forall_mem_nil _⟩
  · rw [hs]
    refine ⟨[buf.take k], emit os fd _, fun b hb => ⟨k, List.mem_singleton.mp hb⟩⟩

theorem only (h : os.Puts os' fd bufs) (hfd : fd = b.tcp.sock ∨ fd = b.udp.sock) :
    os.Only os' b := by
  refine ⟨fun q _ => h.log q, fun fd' _ h₁ h₂ => ?_⟩
  have hne : fd' ≠ fd := by
    rcases hfd with heq | heq
    · rwa [heq]
    · rwa [heq]
  rw [h.put, if_neg hne, List.append_nil]

end Puts

theorem only_setKcp (os : Os (Logged K) T) {q : ℕ} (k : Ikcpcb (Logged K))
    (h : b.udp.kcp = some q) : os.Only (os.setKcp q k) b := by
  refine ⟨fun r hr => Or.inl ?_, fun _ _ _ _ => rfl⟩
  have hne : r ≠ q := by
    intro heq
    rw [heq] at hr
    exact hr h
  simp [Os.log, Os.setKcp, hne]

/-! What is new on a KCP object or a descriptor. -/

theorem given_same {q : Option ℕ} (h : ∀ p, q = some p → os'.log p = os.log p ∨ os'.log p = []) :
    os.given os' q = [] := by
  rcases q with _ | p
  · rfl
  · rcases h p rfl with hlog | hlog
    · simp [given, hlog]
    · simp [given, hlog]

theorem put_same {fd : ℕ} (h : fd ≠ 0 → os'.putOn fd = os.putOn fd) : os.put os' fd = [] := by
  unfold put
  split
  · rfl
  · rename_i hne
    rw [h hne, List.drop_length]

theorem Puts.put_self {fd : ℕ} {bufs : List Bytes} (h : os.Puts os' fd bufs) (hfd : fd ≠ 0) :
    os.put os' fd = bufs := by
  rw [Os.put, if_neg hfd, h.put, if_pos rfl, List.drop_left]

theorem Puts.put_other {fd fd' : ℕ} {bufs : List Bytes} (h : os.Puts os' fd bufs)
    (hne : fd' ≠ fd) : os.put os' fd' = [] :=
  put_same fun _ => by rw [h.put, if_neg hne, List.append_nil]

theorem given_ikcpSend [KcpImpl K] {q : ℕ} {buf : Bytes} {ret : ℤ}
    (h : ikcpSend os q buf = .ok (os', ret)) :
    os.given os' (some q) = if ret = 0 then [buf] else [] := by
  obtain ⟨k, hk, rfl, rfl⟩ := ikcpSend_cases h
  simp only [given, Option.elim_some, log, Os.setKcp, Function.update_self, hk, Option.map_some,
    Option.getD_some]
  by_cases hret : (KcpImpl.send k.state.kcp buf).2 = 0
  · simp [KcpImpl.send, hret]
  · simp [KcpImpl.send, hret]

end Os

namespace World

variable {w w' : World (Logged K) T} {os : Os (Logged K) T} {c d : ℕ} {obj obj' : Kcpev T}

theorem traffic_some (h : w'.objs c = some obj) : w.traffic w' c =
    { kcp := w.os.given w'.os obj.udp.kcp
      tcp := w.os.put w'.os obj.tcp.sock
      udp := w.os.put w'.os obj.udp.sock } := by
  unfold traffic
  rw [h]

theorem traffic_mute (h : w.os.Mute w'.os) : w.traffic w' c = .none := by
  rcases hobj : w'.objs c with _ | obj
  · unfold traffic
    rw [hobj]
  · rw [traffic_some hobj, Os.given_same fun q _ => h.log q, Os.put_same fun _ => h.put _,
      Os.put_same fun _ => h.put _]
    rfl

/-- Two live objects have different resources. -/
theorem Separate.sock_ne (h : w.Separate) (hc : w.objs c = some obj) (hd : w.objs d = some obj')
    (hne : c ≠ d) (s s' : Side) (hsock : (obj.toKcpevBase.slots.sock s).sock ≠ 0) :
    (obj.toKcpevBase.slots.sock s).sock ≠ (obj'.toKcpevBase.slots.sock s').sock := by
  intro heq
  have hcref : refs Slots.sockSlot w.slots (.kcpev c, s) =
      some (obj.toKcpevBase.slots.sock s).sock := by
    rw [refs_eq_some]
    exact ⟨_, slots_some hc, if_neg hsock⟩
  have hdref : refs Slots.sockSlot w.slots (.kcpev d, s') =
      some (obj.toKcpevBase.slots.sock s).sock := by
    rw [refs_eq_some]
    rw [heq] at hsock ⊢
    exact ⟨_, slots_some hd, if_neg hsock⟩
  have hpair := h.socks.unique hcref hdref
  injection hpair with howner _
  injection howner with hcd
  exact hne hcd

theorem Separate.kcp_ne (h : w.Separate) (hc : w.objs c = some obj) (hd : w.objs d = some obj')
    (hne : c ≠ d) {q : ℕ} (hkcp : obj.udp.kcp = some q) : obj'.udp.kcp ≠ some q := by
  intro hkcp'
  have hcref : refs Slots.kcpSlot w.slots (.kcpev c, ()) = some q := by
    rw [refs_eq_some]
    exact ⟨_, slots_some hc, hkcp⟩
  have hdref : refs Slots.kcpSlot w.slots (.kcpev d, ()) = some q := by
    rw [refs_eq_some]
    exact ⟨_, slots_some hd, hkcp'⟩
  have hpair := h.kcps.unique hcref hdref
  injection hpair with howner _
  injection howner with hcd
  exact hne hcd

/-- The TCP socket of an object is not its UDP socket. -/
theorem Separate.tcp_ne_udp (h : w.Separate) (hobj : w.objs c = some obj)
    (hsock : obj.tcp.sock ≠ 0) : obj.tcp.sock ≠ obj.udp.sock := by
  intro heq
  have htcp : refs Slots.sockSlot w.slots (.kcpev c, .tcp) = some obj.tcp.sock := by
    rw [refs_eq_some]
    exact ⟨_, slots_some hobj, if_neg hsock⟩
  have hudp : refs Slots.sockSlot w.slots (.kcpev c, .udp) = some obj.tcp.sock := by
    rw [refs_eq_some]
    rw [heq] at hsock ⊢
    exact ⟨_, slots_some hobj, if_neg hsock⟩
  have hpair := h.socks.unique htcp hudp
  cases hpair

theorem traffic_tcp {fd : ℕ} {bufs : List Bytes} (hobj : w'.objs c = some obj)
    (hsep : w'.Separate) (h : w.os.Puts w'.os fd bufs) (hfd : fd = obj.tcp.sock) :
    w.traffic w' c = ⟨[], if fd = 0 then [] else bufs, []⟩ := by
  rw [traffic_some hobj, Os.given_same fun q _ => h.log q, ← hfd]
  by_cases hzero : fd = 0
  · have hnone : w.os.put w'.os obj.udp.sock = [] := by
      rcases eq_or_ne obj.udp.sock fd with heq | hne
      · rw [heq, hzero]
        rfl
      · exact h.put_other hne
    rw [hnone, if_pos hzero, hzero]
    rfl
  · have hne : obj.udp.sock ≠ fd := by
      rw [hfd] at hzero ⊢
      exact (hsep.tcp_ne_udp hobj hzero).symm
    rw [h.put_self hzero, h.put_other hne, if_neg hzero]

theorem traffic_udp {fd : ℕ} {bufs : List Bytes} (hobj : w'.objs c = some obj)
    (hsep : w'.Separate) (h : w.os.Puts w'.os fd bufs) (hfd : fd = obj.udp.sock) :
    w.traffic w' c = ⟨[], [], if fd = 0 then [] else bufs⟩ := by
  have htcp : w.os.put w'.os obj.tcp.sock = [] := by
    by_cases hzero : obj.tcp.sock = 0
    · rw [hzero]
      rfl
    · apply h.put_other
      rw [hfd]
      exact hsep.tcp_ne_udp hobj hzero
  rw [traffic_some hobj, Os.given_same fun q _ => h.log q, htcp, ← hfd]
  by_cases hzero : fd = 0
  · rw [if_pos hzero, hzero]
    rfl
  · rw [h.put_self hzero, if_neg hzero]

theorem traffic_kcp [KcpImpl K] {q : ℕ} {frame : Bytes} {ret : ℤ} (hobj : w'.objs c = some obj)
    (h : ikcpSend w.os q frame = .ok (w'.os, ret)) (hq : obj.udp.kcp = some q) :
    w.traffic w' c = ⟨if ret = 0 then [frame] else [], [], []⟩ := by
  have hout := (keeps_ikcpSend h).2
  have hput : ∀ fd, w.os.put w'.os fd = [] := fun fd =>
    Os.put_same fun _ => by rw [Os.putOn, hout, Os.putOn]
  rw [traffic_some hobj, hq, Os.given_ikcpSend h, hput, hput]

/-- What one object does is no traffic of another. -/
theorem traffic_other (h : w'.Separate) (hc : w'.objs c = some obj) (hd : w'.objs d = some obj')
    (hne : c ≠ d) (honly : w.os.Only w'.os obj'.toKcpevBase) : w.traffic w' c = .none := by
  rw [traffic_some hc]
  have hkcp : w.os.given w'.os obj.udp.kcp = [] :=
    Os.given_same fun q hq => honly.log q (h.kcp_ne hc hd hne hq)
  have htcp : w.os.put w'.os obj.tcp.sock = [] :=
    Os.put_same fun hsock => honly.put _ hsock
      (h.sock_ne hc hd hne .tcp .tcp hsock) (h.sock_ne hc hd hne .tcp .udp hsock)
  have hudp : w.os.put w'.os obj.udp.sock = [] :=
    Os.put_same fun hsock => honly.put _ hsock
      (h.sock_ne hc hd hne .udp .tcp hsock) (h.sock_ne hc hd hne .udp .udp hsock)
  rw [hkcp, htcp, hudp]
  rfl

end World

/-! The functions that put nothing anywhere. -/

section Mute
variable {os os' : Os (Logged K) T}

theorem mute_timers {data : Owner} {udp udp' : KcpevUdp T} {hcb : TimerCb} {evt evh : Bool}
    {ret : ℤ}
    (h : checkCreateKcpTimer os data udp hcb evt evh = .ok (os', udp', ret)) : os.Mute os' := by
  rcases checkCreateKcpTimer_cases h with ⟨-, -, rfl, -⟩ | ⟨-, -, -, -, rfl, -⟩ |
    ⟨-, -, -, -, rfl, -⟩
  · exact .refl _
  · exact .of_eq rfl rfl
  · exact .of_eq rfl rfl

theorem mute_evTimerAgain (os : Os (Logged K) T) (p again : ℕ) :
    os.Mute (os.evTimerAgain p again) := by
  unfold Os.evTimerAgain
  split
  · exact .refl os
  · exact .of_eq rfl rfl

variable [KcpImpl K]

/-- Nothing is put anywhere while an object is set up or destroyed. -/
theorem mute : Os.Setup (K := Logged K) (T := T) Os.Mute where
  refl := .refl
  trans := .trans
  rest hout hkcps _ _ := .of_eq hout hkcps
  stop _ _ := .of_eq rfl rfl
  release := .release
  create := .create

theorem mute_ikcpInput {kcp : ℕ} {data : Bytes} (h : ikcpInput os kcp data = .ok os') :
    os.Mute os' := by
  unfold ikcpInput at h
  split at h
  · cases h
  · rename_i k hk
    cases h
    exact .setKcp hk rfl

theorem mute_ikcpRecv {w w' : World (Logged K) T} {p size : ℕ} {answer : Option Bytes}
    (h : w.ikcpRecv p size = .ok (w', answer)) : w.os.Mute w'.os ∧ w'.objs = w.objs := by
  unfold World.ikcpRecv at h
  split at h
  · cases h
  · rename_i k hk
    cases h
    exact ⟨.setKcp hk rfl, rfl⟩

end Mute

/-! The functions that send. -/

section Send
variable {os os' : Os (Logged K) T} {command : Command} {msg : Bytes} {ret : ℤ}

/-- Nothing, or a part of a frame, which is the whole one when the call succeeds. -/
inductive Parts (command : Command) (msg : Bytes) (ret : ℤ) : List Bytes → Prop
  | unsent (hret : ret = -1) : Parts command msg ret []
  | part {frame : Bytes} {k : ℕ} (hframe : Frame command msg frame) (hk : k < frame.length)
    (hret : ret = -1) : Parts command msg ret [frame.take k]
  | whole {frame : Bytes} (hframe : Frame command msg frame) (hret : ret = 0) :
    Parts command msg ret [frame]

theorem sockSendCommand_puts {sock : ℕ} {a : SendAnswer}
    (h : sockSendCommand os sock command msg a = .ok (os', ret)) :
    ∃ bufs, os.Puts os' sock bufs ∧ Parts command msg ret bufs := by
  rcases sockSendCommand_cases h with ⟨rfl, hret⟩ | ⟨frame, k, hframe, rfl, hret⟩
  · exact ⟨[], .nil _ sock, .unsent hret⟩
  · refine ⟨_, .emit os sock _, ?_⟩
    by_cases hk : frame.length ≤ k
    · rw [if_pos hk] at hret
      rw [List.take_of_length_le hk]
      exact .whole hframe hret
    · rw [if_neg hk] at hret
      exact .part hframe (by omega) hret

theorem udpOutputs_puts (sock : ℕ) (answers : ℕ → Option ℕ) (bufs : List Bytes) (n : ℕ)
    (os : Os (Logged K) T) : ∃ puts, os.Puts (udpOutputs sock answers n os bufs) sock puts ∧
      ∀ b ∈ puts, ∃ d ∈ bufs, ∃ k, b = d.take k := by
  induction bufs generalizing n os with
  | nil => exact ⟨[], .nil os sock, List.forall_mem_nil _⟩
  | cons buf bufs ih =>
    obtain ⟨puts, hputs, hparts⟩ := Os.Puts.send os sock buf (answers n)
    obtain ⟨puts', hputs', hparts'⟩ := ih (n + 1) (os.send sock buf (answers n)).1
    refine ⟨_, hputs.append hputs', fun b hb => ?_⟩
    rcases List.mem_append.mp hb with hb | hb
    · exact ⟨buf, List.mem_cons_self, hparts b hb⟩
    · obtain ⟨d, hd, hk⟩ := hparts' b hb
      exact ⟨d, List.mem_cons_of_mem _ hd, hk⟩

theorem udpOutputs_kcps {K : Type} (sock : ℕ) (answers : ℕ → Option ℕ) (bufs : List Bytes) (n : ℕ)
    (os : Os K T) : (udpOutputs sock answers n os bufs).kcps = os.kcps := by
  induction bufs generalizing n os with
  | nil => rfl
  | cons buf bufs ih =>
    unfold udpOutputs
    rw [ih]
    rcases os.send_cases sock buf (answers n) with hs | ⟨k, hs⟩
    · rw [hs]
    · rw [hs]
      rfl

/-- A command is packed, and given to the KCP object. -/
theorem kcpSendCommand_valid {K : Type} [KcpImpl K] {os os' : Os K T} {udp : KcpevUdp T}
    {stack : ℕ → UInt8} (hvalid : udp.isKcpValid)
    (h : kcpSendCommand os udp command msg stack = .ok (os', ret)) :
    (os' = os ∧ ret = -1) ∨ ∃ q frame, udp.kcp = some q ∧ Frame command msg frame ∧
      ikcpSend os q frame = .ok (os', ret) := by
  obtain ⟨⟨buf, n⟩, hpack, h⟩ := bind_eq_ok.mp h
  rcases packSendBuf_cases hpack with rfl | ⟨rfl, hfits, hload⟩
  · cases h
    exact Or.inl ⟨rfl, rfl⟩
  · simp only [Nat.add_eq_zero_iff, OfNat.ofNat_ne_zero, and_false, if_false, hvalid,
      if_true] at h
    split at h
    · cases h
    · rename_i q hq
      exact Or.inr ⟨q, _, hq, frame_load hfits hload, h⟩

/-- While KCP cannot be used, a part of the frame may go to the TCP socket. -/
theorem kcpevSend_cases [KcpImpl K] {b : KcpevBase T} {a : SendAnswer}
    (h : kcpevSend os b msg a = .ok (os', ret)) :
    (os' = os) ∨ (∃ q frame, b.udp.kcp = some q ∧ Frame .data msg frame ∧
      ikcpSend os q frame = .ok (os', ret)) ∨
    ∃ bufs, os.Puts os' b.tcp.sock bufs ∧ Parts .data msg ret bufs := by
  unfold kcpevSend at h
  by_cases hvalid : b.udp.isKcpValid
  · rw [kcpevSendCommand_kcp os hvalid] at h
    rcases kcpSendCommand_valid hvalid h with ⟨rfl, -⟩ | hgiven
    · exact Or.inl rfl
    · exact Or.inr (Or.inl hgiven)
  · rw [kcpevSendCommand_tcp os hvalid] at h
    exact Or.inr (Or.inr (sockSendCommand_puts h))

end Send

end KcpEv
