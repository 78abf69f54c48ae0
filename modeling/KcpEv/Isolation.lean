import KcpEv.Paired
import Mathlib.Data.List.Find

/-!
The sessions of a server are isolated. Two runs of one event of a session, from
states that differ in another session only, go on side by side: the session is
treated alike, and the other one is not touched at all.
-/
namespace KcpEv

open Ownership Relational

variable {K T : Type}

/-- The frames put on the sockets of an object. -/
def World.sentBy (w : World K T) (c : ℕ) : Output → Option (Side × Bytes)
  | .sent fd buf =>
    match w.slots (.kcpev c) with
    | none => none
    | some s =>
      if s.sockSlot .tcp = some fd then some (.tcp, buf)
      else if s.sockSlot .udp = some fd then some (.udp, buf)
      else none
  | .received .. | .serverRecvCb .. | .clientRecvCb .. => none

/-- What a server holds besides numbers and addresses and the session `B`. -/
def KcpevServer.rest (B : ℕ) (server : KcpevServer T) : List (KcpevKey × ℕ) × Bool :=
  (server.hash.filter fun e => e.2 ≠ B, server.hasRecvCb)

/-- The session is found under its key, and has no other one. -/
def World.Registers (w : World K T) (key : KcpevKey) (c : ℕ) : Prop :=
  ∃ server, w.server = some server ∧ server.hashFind key = some c ∧
    ∀ k, (k, c) ∈ server.hash → k = key

/-- The session `B`, which has the keys `key₁` and `key₂`, is put aside; the rest of
the two worlds is the same up to numbers and addresses. -/
structure World.Paired (B : ℕ) (key₁ key₂ : KcpevKey) (old₁ old₂ : World K T)
    (track : Option (ℕ × ℕ)) (w₁ w₂ : World K T) : Prop where
  os : KcpEv.Paired (.kcpev B) old₁.os old₂.os track w₁.os w₁.slots w₂.os w₂.slots
  plain : ∀ {c}, c ≠ B → (w₁.objs c).map Kcpev.plain = (w₂.objs c).map Kcpev.plain
  server : w₁.server.map (KcpevServer.rest B) = w₂.server.map (KcpevServer.rest B)
  left : w₁.objs B = old₁.objs B
  right : w₂.objs B = old₂.objs B
  registered₁ : w₁.Registers key₁ B
  registered₂ : w₂.Registers key₂ B

namespace World.Paired

variable {B c : ℕ} {key₁ key₂ : KcpevKey} {old₁ old₂ w₁ w₂ : World K T} {track : Option (ℕ × ℕ)}
  {obj₁ obj₂ : Kcpev T} {os₁ os₂ : Os K T}

theorem ne_owner (hc : c ≠ B) : Owner.kcpev c ≠ .kcpev B := fun h => hc (Owner.kcpev.inj h)

theorem kcpev (h : World.Paired B key₁ key₂ old₁ old₂ track w₁ w₂) (hc : c ≠ B) :
    Both (fun obj₁ obj₂ => w₁.objs c = some obj₁ ∧ w₂.objs c = some obj₂ ∧
      obj₁.plain = obj₂.plain) (w₁.kcpev c) (w₂.kcpev c) := by
  have hplain := h.plain hc
  unfold World.kcpev
  rcases h₁ : w₁.objs c with _ | obj₁
  · rw [h₁] at hplain
    rw [Option.map_eq_none_iff.mp hplain.symm]
    exact .error _
  · rw [h₁, Option.map_some] at hplain
    obtain ⟨obj₂, h₂, heq⟩ := Option.map_eq_some_iff.mp hplain.symm
    rw [h₂]
    exact .ok ⟨rfl, rfl, heq.symm⟩

/-- The two servers, which find the same session under any other key. -/
theorem kcpevServer (h : World.Paired B key₁ key₂ old₁ old₂ track w₁ w₂) :
    Both (fun server₁ server₂ => w₁.server = some server₁ ∧ w₂.server = some server₂ ∧
      server₁.rest B = server₂.rest B ∧ ∀ {k}, k ≠ key₁ → k ≠ key₂ →
        server₁.hashFind k = server₂.hashFind k ∧ server₁.hashFind k ≠ some B)
      w₁.kcpevServer w₂.kcpevServer := by
  obtain ⟨server₁, h₁, -, honly₁⟩ := h.registered₁
  obtain ⟨server₂, h₂, -, honly₂⟩ := h.registered₂
  have hrest := h.server
  rw [h₁, h₂, Option.map_some, Option.map_some, Option.some.injEq] at hrest
  have find : ∀ {server : KcpevServer T} {k : KcpevKey}, (k, B) ∉ server.hash →
      server.hashFind k = ((server.rest B).1.find? fun e => e.1 = k).map Prod.snd := by
    intro server k hk
    unfold KcpevServer.hashFind KcpevServer.rest
    rw [List.find?_filter]
    congr 1
    apply List.find?_congr
    rintro ⟨k', c⟩ he
    by_cases hkey : k' = k
    · have hne : c ≠ B := by
        intro hB
        rw [hkey, hB] at he
        exact hk he
      simp [hkey, hne]
    · simp [hkey]
  unfold World.kcpevServer
  rw [h₁, h₂]
  refine .ok ⟨rfl, rfl, hrest, fun {k} hk₁ hk₂ => ?_⟩
  have hfind₁ := find fun hmem => hk₁ (honly₁ k hmem)
  have hfind₂ := find fun hmem => hk₂ (honly₂ k hmem)
  refine ⟨by rw [hfind₁, hfind₂, hrest], fun hB => ?_⟩
  exact hk₁ (honly₁ k (KcpevServer.hashFind_mem hB))

theorem at_obj (h : World.Paired B key₁ key₂ old₁ old₂ track w₁ w₂) (h₁ : w₁.objs c = some obj₁)
    (h₂ : w₂.objs c = some obj₂) :
    PairedAt (.kcpev B) (.kcpev c) old₁.os old₂.os track w₁.slots w₂.slots w₁.os
      obj₁.toKcpevBase.slots w₂.os obj₂.toKcpevBase.slots := by
  unfold PairedAt
  rw [slots_self h₁, slots_self h₂]
  exact h.os

theorem store (h : World.Paired B key₁ key₂ old₁ old₂ track w₁ w₂) (hc : c ≠ B)
    (hos : PairedAt (.kcpev B) (.kcpev c) old₁.os old₂.os track w₁.slots w₂.slots os₁
      obj₁.toKcpevBase.slots os₂ obj₂.toKcpevBase.slots) (hplain : obj₁.plain = obj₂.plain) :
    World.Paired B key₁ key₂ old₁ old₂ track (w₁.store os₁ c obj₁) (w₂.store os₂ c obj₂) := by
  refine ⟨?_, fun {d} hd => ?_, h.server, ?_, ?_, h.registered₁, h.registered₂⟩
  · rw [slots_store, slots_store]
    exact hos
  · rcases eq_or_ne d c with heq | hne
    · simp [World.store, heq, hplain]
    · simpa [World.store, hne] using h.plain hd
  · simpa [World.store, hc.symm] using h.left
  · simpa [World.store, hc.symm] using h.right

/-- The two objects change, and their slots stay. -/
theorem storeSame (h : World.Paired B key₁ key₂ old₁ old₂ track w₁ w₂) (hc : c ≠ B)
    (h₁ : w₁.objs c = some obj₁) (h₂ : w₂.objs c = some obj₂) {obj₁' obj₂' : Kcpev T}
    (hs₁ : obj₁'.toKcpevBase.slots = obj₁.toKcpevBase.slots)
    (hs₂ : obj₂'.toKcpevBase.slots = obj₂.toKcpevBase.slots) (hplain : obj₁'.plain = obj₂'.plain) :
    World.Paired B key₁ key₂ old₁ old₂ track (w₁.store w₁.os c obj₁') (w₂.store w₂.os c obj₂') := by
  apply h.store hc _ hplain
  rw [hs₁, hs₂]
  exact h.at_obj h₁ h₂

theorem withOs (h : World.Paired B key₁ key₂ old₁ old₂ track w₁ w₂)
    (hos : KcpEv.Paired (.kcpev B) old₁.os old₂.os track os₁ w₁.slots os₂ w₂.slots) :
    World.Paired B key₁ key₂ old₁ old₂ track { w₁ with os := os₁ } { w₂ with os := os₂ } :=
  ⟨hos, h.plain, h.server, h.left, h.right, h.registered₁, h.registered₂⟩

theorem emit (h : World.Paired B key₁ key₂ old₁ old₂ track w₁ w₂) (x₁ x₂ : Output) :
    World.Paired B key₁ key₂ old₁ old₂ track { w₁ with os := w₁.os.emit x₁ }
      { w₂ with os := w₂.os.emit x₂ } :=
  h.withOs ⟨h.os.socks, h.os.ios, h.os.timers, h.os.kcps, h.os.fresh₁, h.os.fresh₂, h.os.zero,
    h.os.now, h.os.tracked⟩

section Object
variable (h : World.Paired B key₁ key₂ old₁ old₂ track w₁ w₂) (hc : c ≠ B)
  (h₁ : w₁.objs c = some obj₁) (h₂ : w₂.objs c = some obj₂)

include h hc h₁ h₂

theorem socks_eq (side : Side) :
    w₁.os.socks (obj₁.toKcpevBase.slots.sock side).sock =
      w₂.os.socks (obj₂.toKcpevBase.slots.sock side).sock := by
  have hat := h.at_obj h₁ h₂
  have hzero := hat.ref_zero_iff (ne_owner hc) side
  by_cases hz : (obj₁.toKcpevBase.slots.sock side).sock = 0
  · rw [hz, hzero.mp hz]
    exact h.os.zero
  · have hsame := hat.socks.same (k := (Owner.kcpev c, side)) (ne_owner hc)
    have hz₂ : (obj₂.toKcpevBase.slots.sock side).sock ≠ 0 := fun heq => hz (hzero.mpr heq)
    rw [KcpEv.Paired.refs_sock, KcpEv.Paired.refs_sock, KcpevSock.ref, KcpevSock.ref, if_neg hz,
      if_neg hz₂] at hsame
    simpa using hsame

theorem kcp_eq : obj₁.udp.kcp.map w₁.os.kcps = obj₂.udp.kcp.map w₂.os.kcps := by
  have hat := h.at_obj h₁ h₂
  have hsame := hat.kcps.same (k := (Owner.kcpev c, ())) (ne_owner hc)
  have href₁ : refs Slots.kcpSlot (Function.update w₁.slots (.kcpev c)
    (some obj₁.toKcpevBase.slots)) (.kcpev c, ()) = obj₁.udp.kcp := refs_self ..
  have href₂ : refs Slots.kcpSlot (Function.update w₂.slots (.kcpev c)
    (some obj₂.toKcpevBase.slots)) (.kcpev c, ()) = obj₂.udp.kcp := refs_self ..
  rw [href₁, href₂] at hsame
  simpa using hsame

theorem valid_iff (hplain : obj₁.plain = obj₂.plain) :
    obj₁.udp.isKcpValid ↔ obj₂.udp.isKcpValid := by
  have hat := h.at_obj h₁ h₂
  have hsock := hat.ref_zero_iff (ne_owner hc) .udp
  have hkcp := congrArg Option.isSome (h.kcp_eq hc h₁ h₂)
  rw [Option.isSome_map, Option.isSome_map] at hkcp
  have hevt := hat.timers.eq_none_iff (k := (Owner.kcpev c, Clock.evt)) (ne_owner hc)
  have href₁ : refs Slots.timerSlot (Function.update w₁.slots (.kcpev c)
    (some obj₁.toKcpevBase.slots)) (.kcpev c, .evt) = obj₁.udp.evt := refs_self ..
  have href₂ : refs Slots.timerSlot (Function.update w₂.slots (.kcpev c)
    (some obj₂.toKcpevBase.slots)) (.kcpev c, .evt) = obj₂.udp.evt := refs_self ..
  rw [href₁, href₂] at hevt
  have hstatus : obj₁.udp.status = obj₂.udp.status :=
    congrArg (fun x => x.2.2.2.2.1) hplain
  have hsock' : obj₁.udp.sock = 0 ↔ obj₂.udp.sock = 0 := hsock
  have hevt' : obj₁.udp.evt.isSome = obj₂.udp.evt.isSome := by
    rw [← not_iff_not] at hevt
    rw [Bool.eq_iff_iff, ← Option.ne_none_iff_isSome, ← Option.ne_none_iff_isSome]
    exact hevt
  unfold KcpevUdp.isKcpValid
  rw [ne_eq, ne_eq, hsock', hkcp, hstatus, hevt']

end Object

end World.Paired

/-! What one step sends. -/

/-- The frames sent on the sockets of all objects but one are the same. -/
def World.SentAlike (B : ℕ) (w₁ w₁' w₂ w₂' : World K T) : Prop :=
  ∃ x₁ x₂, w₁'.os.out = w₁.os.out ++ x₁ ∧ w₂'.os.out = w₂.os.out ++ x₂ ∧
    ∀ c, c ≠ B → x₁.filterMap (w₁'.sentBy c) = x₂.filterMap (w₂'.sentBy c)

theorem World.SentAlike.none {B : ℕ} {w₁ w₁' w₂ w₂' : World K T} (h₁ : w₁'.os.out = w₁.os.out)
    (h₂ : w₂'.os.out = w₂.os.out) : World.SentAlike B w₁ w₁' w₂ w₂' :=
  ⟨[], [], by simp [h₁], by simp [h₂], fun _ _ => rfl⟩

theorem World.SentAlike.one {B : ℕ} {w₁ w₁' w₂ w₂' : World K T} {x₁ x₂ : Output}
    (h₁ : w₁'.os.out = w₁.os.out ++ [x₁]) (h₂ : w₂'.os.out = w₂.os.out ++ [x₂])
    (h : ∀ c, c ≠ B → w₁'.sentBy c x₁ = w₂'.sentBy c x₂) : World.SentAlike B w₁ w₁' w₂ w₂' := by
  refine ⟨[x₁], [x₂], h₁, h₂, fun c hc => ?_⟩
  simp only [List.filterMap_cons, List.filterMap_nil, h c hc]

theorem World.SentAlike.of_out {B : ℕ} {w₁ w₁' w₁'' w₂ w₂' w₂'' : World K T}
    (h : World.SentAlike B w₁' w₁'' w₂' w₂'') (h₁ : w₁'.os.out = w₁.os.out)
    (h₂ : w₂'.os.out = w₂.os.out) : World.SentAlike B w₁ w₁'' w₂ w₂'' := by
  unfold SentAlike at *
  rw [← h₁, ← h₂]
  exact h

/-- The results of one function on either side. -/
structure World.Ends (B : ℕ) (key₁ key₂ : KcpevKey) (old₁ old₂ : World K T) (track : Option (ℕ × ℕ))
    (w₁ w₂ : World K T) {α β : Type} (R : α → β → Prop) (x : World K T × α) (y : World K T × β) :
    Prop where
  paired : World.Paired B key₁ key₂ old₁ old₂ track x.1 y.1
  sent : World.SentAlike B w₁ x.1 w₂ y.1
  result : R x.2 y.2

/-- Two sources of frames for the session `A`; `track` are the KCP objects. -/
inductive Source.Alike (A : ℕ) : Option (ℕ × ℕ) → Source → Source → Prop
  | tcp {track : Option (ℕ × ℕ)} : Alike A track (.serverTcpRecv A) (.serverTcpRecv A)
  | udp {track : Option (ℕ × ℕ)} : Alike A track (.serverUdpRecv A) (.serverUdpRecv A)
  | all {track : Option (ℕ × ℕ)} : Alike A track .serverUdpRecvAll .serverUdpRecvAll
  | kcp {i j : ℕ} : Alike A (some (i, j)) (.tryKcpRecv A i) (.tryKcpRecv A j)

inductive Control.Alike (A : ℕ) (track : Option (ℕ × ℕ)) : Control → Control → Prop
  | loop : Alike A track .loop .loop
  | frame {src₁ src₂ : Source} (h : src₁.Alike A track src₂) (addr : Addr) (buf : Bytes) :
    Alike A track (.frame src₁ addr buf) (.frame src₂ addr buf)
  | drain {src₁ src₂ : Source} (h : src₁.Alike A track src₂) (addr : Addr) :
    Alike A track (.drain src₁ addr) (.drain src₂ addr)
  | closing : Alike A track (.closing A) (.closing A)

namespace World.Paired

variable {A B c : ℕ} {key₁ key₂ : KcpevKey} {old₁ old₂ w₁ w₂ : World K T} {track : Option (ℕ × ℕ)}
  {obj₁ obj₂ : Kcpev T}

/-- A socket of an object has numbers that no other slot has. -/
theorem sentBy_eq (h : World.Paired B key₁ key₂ old₁ old₂ track w₁ w₂) (hc : c ≠ B)
    (h₁ : w₁.objs c = some obj₁) (h₂ : w₂.objs c = some obj₂) (side : Side) (buf : Bytes) {d : ℕ}
    (hd : d ≠ B) : w₁.sentBy d (.sent (obj₁.toKcpevBase.slots.sock side).sock buf) =
      w₂.sentBy d (.sent (obj₂.toKcpevBase.slots.sock side).sock buf) := by
  have hzero := (h.at_obj h₁ h₂).ref_zero_iff (ne_owner hc) side
  have hplain := h.plain hd
  unfold World.sentBy
  rcases hd₁ : w₁.objs d with _ | obj₃
  · rw [hd₁] at hplain
    have hd₂ := Option.map_eq_none_iff.mp hplain.symm
    simp [World.slots, hd₁, hd₂]
  rw [hd₁, Option.map_some] at hplain
  obtain ⟨obj₄, hd₂, -⟩ := Option.map_eq_some_iff.mp hplain.symm
  rw [slots_some hd₁, slots_some hd₂]
  have hslot : ∀ side', obj₃.toKcpevBase.slots.sockSlot side' =
      some (obj₁.toKcpevBase.slots.sock side).sock ↔ obj₄.toKcpevBase.slots.sockSlot side' =
      some (obj₂.toKcpevBase.slots.sock side).sock := by
    intro side'
    by_cases hz : (obj₁.toKcpevBase.slots.sock side).sock = 0
    · rw [hz, hzero.mp hz]
      constructor
      · intro h
        exact absurd rfl (KcpevSock.ref_eq_some.mp h).2
      · intro h
        exact absurd rfl (KcpevSock.ref_eq_some.mp h).2
    have hz₂ : (obj₂.toKcpevBase.slots.sock side).sock ≠ 0 := fun heq => hz (hzero.mpr heq)
    have ref : ∀ {w : World K T} {obj : Kcpev T} {e : ℕ} {sd : Side} {fd : ℕ}, w.objs e = some obj →
        (refs Slots.sockSlot w.slots (.kcpev e, sd) = some fd ↔
          obj.toKcpevBase.slots.sockSlot sd = some fd) := by
      intro w obj e sd fd hobj
      rw [refs_eq_some]
      constructor
      · rintro ⟨s, hs, hfd⟩
        rw [slots_some hobj] at hs
        obtain rfl := Option.some.inj hs
        exact hfd
      · intro hfd
        exact ⟨_, slots_some hobj, hfd⟩
    have own₁ : refs Slots.sockSlot w₁.slots (.kcpev c, side) =
        some (obj₁.toKcpevBase.slots.sock side).sock := (ref h₁).mpr (if_neg hz)
    have own₂ : refs Slots.sockSlot w₂.slots (.kcpev c, side) =
        some (obj₂.toKcpevBase.slots.sock side).sock := (ref h₂).mpr (if_neg hz₂)
    rw [← ref hd₁, ← ref hd₂]
    constructor
    · intro hfd
      have hsame := h.os.socks.left.unique hfd own₁
      rw [hsame]
      exact own₂
    · intro hfd
      have hsame := h.os.socks.right.unique hfd own₂
      rw [hsame]
      exact own₁
  simp only [hslot]

theorem toFrame (h : World.Paired B key₁ key₂ old₁ old₂ track w₁ w₂) {src₁ src₂ : Source}
    (hsrc : src₁.Alike A track src₂) (addr : Addr) (buf : Bytes) :
    World.Ends B key₁ key₂ old₁ old₂ track w₁ w₂ (Control.Alike A track) (w₁.toFrame src₁ addr buf)
      (w₂.toFrame src₂ addr buf) where
  paired := h.emit _ _
  sent := .one rfl rfl fun _ _ => rfl
  result := .frame hsrc addr buf

theorem ends (h : World.Paired B key₁ key₂ old₁ old₂ track w₁ w₂)
    {α β : Type} {R : α → β → Prop} {x : α} {y : β} (hR : R x y) :
    World.Ends B key₁ key₂ old₁ old₂ track w₁ w₂ R (w₁, x) (w₂, y) :=
  ⟨h, .none rfl rfl, hR⟩

theorem setRb (h : World.Paired B key₁ key₂ old₁ old₂ track w₁ w₂) (hc : c ≠ B)
    (h₁ : w₁.objs c = some obj₁) (h₂ : w₂.objs c = some obj₂) (hplain : obj₁.plain = obj₂.plain)
    (rb : Option Ringbuf) :
    World.Paired B key₁ key₂ old₁ old₂ track (w₁.setRb c obj₁ rb) (w₂.setRb c obj₂ rb) := by
  unfold World.setRb
  refine h.storeSame hc h₁ h₂ rfl rfl ?_
  obtain ⟨hkey, hserver, hcb, -, hstatus, hheart⟩ := by
    simpa only [Kcpev.plain, Prod.mk.injEq] using hplain
  simp only [Kcpev.plain, hkey, hserver, hcb, hstatus, hheart]

theorem tcpReceived (h : World.Paired B key₁ key₂ old₁ old₂ track w₁ w₂) (hA : A ≠ B)
    (h₁ : w₁.objs A = some obj₁) (h₂ : w₂.objs A = some obj₂) (hplain : obj₁.plain = obj₂.plain)
    (addr : Addr) (data : Bytes) (a : IoAnswer) :
    Both (World.Ends B key₁ key₂ old₁ old₂ track w₁ w₂ (Control.Alike A track))
      (tcpReceived w₁ (.serverTcpRecv A) A obj₁ addr data a)
      (tcpReceived w₂ (.serverTcpRecv A) A obj₂ addr data a) := by
  have hrb : obj₁.tcp.rb = obj₂.tcp.rb := congrArg (fun x => x.2.2.2.1) hplain
  unfold KcpEv.tcpReceived
  rw [hrb]
  apply Both.bind (Both.same _ fun _ => rfl)
  rintro ⟨rb, size⟩ - rfl
  have hset := h.setRb hA h₁ h₂ hplain rb
  apply Both.ite Iff.rfl
  · intro _ _
    have hframe := hset.toFrame (A := A) .tcp addr (data.take (toInt size).toNat)
    exact .ok ⟨hframe.paired, hframe.sent, hframe.result⟩
  · intro _ _
    exact .ok ⟨hset, .none rfl rfl, .drain .tcp addr⟩

theorem recv_eq {os₁ os₂ : Os K T} {fd₁ fd₂ : ℕ}
    (h : (os₁.socks fd₁).isSome = (os₂.socks fd₂).isSome) (size : ℕ) (answer : Option Bytes) :
    recv os₁ fd₁ size answer = recv os₂ fd₂ size answer := by
  unfold recv
  rcases h₁ : os₁.socks fd₁ with _ | v₁
  · rw [h₁] at h
    have h₂ : os₂.socks fd₂ = none := by simpa using h.symm
    rw [h₂]
  · rw [h₁] at h
    obtain ⟨v₂, h₂⟩ := Option.isSome_iff_exists.mp h.symm
    rw [h₂]
    rcases answer with _ | _ | ⟨b, data⟩ <;> rfl

theorem getpeername_eq (h : World.Paired B key₁ key₂ old₁ old₂ track w₁ w₂) (hc : c ≠ B)
    (h₁ : w₁.objs c = some obj₁) (h₂ : w₂.objs c = some obj₂) (side : Side) :
    w₁.os.getpeername (obj₁.toKcpevBase.slots.sock side).sock =
      w₂.os.getpeername (obj₂.toKcpevBase.slots.sock side).sock := by
  unfold Os.getpeername
  rw [h.socks_eq hc h₁ h₂ side]

theorem serverTcpRecv (h : World.Paired B key₁ key₂ old₁ old₂ track w₁ w₂) (hA : A ≠ B)
    {fd₁ fd₂ : ℕ}
    (hfd : (w₁.os.socks fd₁).isSome = (w₂.os.socks fd₂).isSome) (a : IoAnswer) :
    Both (World.Ends B key₁ key₂ old₁ old₂ track w₁ w₂ (Control.Alike A track))
      (serverTcpRecv w₁ A fd₁ a) (serverTcpRecv w₂ A fd₂ a) := by
  unfold KcpEv.serverTcpRecv
  apply Both.bind (h.kcpev hA)
  rintro obj₁ obj₂ ⟨h₁, h₂, hplain⟩
  rw [recv_eq hfd]
  split
  · exact .ok (h.ends .closing)
  · have haddr : w₁.os.getpeername obj₁.tcp.sock = w₂.os.getpeername obj₂.tcp.sock :=
      h.getpeername_eq hA h₁ h₂ .tcp
    rw [haddr]
    exact h.tcpReceived hA h₁ h₂ hplain _ _ a

/-- The KCP object of a live session is there on both sides, or on neither. -/
theorem kcp_cases (h : World.Paired B key₁ key₂ old₁ old₂ track w₁ w₂) (hc : c ≠ B)
    (h₁ : w₁.objs c = some obj₁) (h₂ : w₂.objs c = some obj₂) :
    (obj₁.udp.kcp = none ∧ obj₂.udp.kcp = none) ∨
      ∃ i j, obj₁.udp.kcp = some i ∧ obj₂.udp.kcp = some j ∧ w₁.os.kcps i = w₂.os.kcps j ∧
        refs Slots.kcpSlot w₁.slots (.kcpev c, ()) = some i ∧
        refs Slots.kcpSlot w₂.slots (.kcpev c, ()) = some j := by
  have hkcp := h.kcp_eq hc h₁ h₂
  rcases hi : obj₁.udp.kcp with _ | i
  · rw [hi] at hkcp
    exact Or.inl ⟨rfl, Option.map_eq_none_iff.mp hkcp.symm⟩
  · rw [hi, Option.map_some] at hkcp
    obtain ⟨j, hj, heq⟩ := Option.map_eq_some_iff.mp hkcp.symm
    exact Or.inr ⟨i, j, rfl, hj, heq.symm, refs_eq_some.mpr ⟨_, slots_some h₁, hi⟩,
      refs_eq_some.mpr ⟨_, slots_some h₂, hj⟩⟩

theorem setKcp (h : World.Paired B key₁ key₂ old₁ old₂ track w₁ w₂) (hc : c ≠ B) {i j : ℕ}
    (hi : refs Slots.kcpSlot w₁.slots (.kcpev c, ()) = some i)
    (hj : refs Slots.kcpSlot w₂.slots (.kcpev c, ()) = some j) (k : Ikcpcb K) :
    World.Paired B key₁ key₂ old₁ old₂ track { w₁ with os := w₁.os.setKcp i k }
      { w₂ with os := w₂.os.setKcp j k } :=
  h.withOs (h.os.setKcp (ne_owner hc) hi hj k)

theorem serverUdpRecvAll (h : World.Paired B key₁ key₂ old₁ old₂ track w₁ w₂) {fd₁ fd₂ : ℕ}
    (hfd : (w₁.os.socks fd₁).isSome = (w₂.os.socks fd₂).isSome) (a : IoAnswer) :
    World.Ends B key₁ key₂ old₁ old₂ track w₁ w₂ (Control.Alike A track) (serverUdpRecvAll w₁ fd₁ a)
      (serverUdpRecvAll w₂ fd₂ a) := by
  unfold KcpEv.serverUdpRecvAll
  rw [recv_eq hfd]
  split
  · exact h.ends .loop
  · exact h.toFrame .all _ _

theorem tryKcpRecv (h : World.Paired B key₁ key₂ old₁ old₂ track w₁ w₂) (hA : A ≠ B) :
    Both (fun x y => ∃ track',
        World.Ends B key₁ key₂ old₁ old₂ track' w₁ w₂ (Control.Alike A track') x y)
      (tryKcpRecv w₁ A) (tryKcpRecv w₂ A) := by
  unfold KcpEv.tryKcpRecv
  apply Both.bind (h.kcpev hA)
  rintro obj₁ obj₂ ⟨h₁, h₂, -⟩
  rcases h.kcp_cases hA h₁ h₂ with ⟨hi, hj⟩ | ⟨i, j, hi, hj, -, hi', hj'⟩
  · rw [hi, hj]
    exact .error _
  rw [hi, hj]
  refine .ok ⟨some (i, j),
    ⟨⟨?_, h.plain, h.server, h.left, h.right, h.registered₁, h.registered₂⟩, .none rfl rfl,
    .drain .kcp 0⟩⟩
  refine ⟨h.os.socks, h.os.ios, h.os.timers, h.os.kcps, h.os.fresh₁, h.os.fresh₂, h.os.zero,
    h.os.now, fun hij => ?_⟩
  obtain ⟨rfl, rfl⟩ := Prod.mk.inj (Option.some.inj hij)
  have lt : ∀ {os : Os K T} {p : ℕ}, (os.kcps p).isSome →
      (∀ {p}, os.next ≤ p → os.ios p = none ∧ os.timers p = none ∧ os.kcps p = none) →
      p < os.next := by
    intro os p hlive hfresh
    by_contra hle
    rw [(hfresh (by omega)).2.2] at hlive
    cases hlive
  exact ⟨lt (h.os.kcps.left.live hi') h.os.fresh₁, lt (h.os.kcps.right.live hj') h.os.fresh₂,
    .of_slot h.os.kcps (ne_owner hA) hi' hj'⟩

variable [KcpImpl K]

theorem serverUdpRecv (h : World.Paired B key₁ key₂ old₁ old₂ track w₁ w₂) (hA : A ≠ B)
    {fd₁ fd₂ : ℕ}
    (hfd : (w₁.os.socks fd₁).isSome = (w₂.os.socks fd₂).isSome) (a : IoAnswer) :
    Both (fun x y => ∃ track',
        World.Ends B key₁ key₂ old₁ old₂ track' w₁ w₂ (Control.Alike A track') x y)
      (serverUdpRecv w₁ A fd₁ a) (serverUdpRecv w₂ A fd₂ a) := by
  unfold KcpEv.serverUdpRecv
  rw [recv_eq hfd]
  split
  · exact .ok ⟨track, h.ends .loop⟩
  rename_i data _
  apply Both.bind (h.kcpev hA)
  rintro obj₁ obj₂ ⟨h₁, h₂, hplain⟩
  apply Both.ite (not_congr (h.valid_iff hA h₁ h₂ hplain))
  · intro _ _
    have haddr : w₁.os.getpeername obj₁.udp.sock = w₂.os.getpeername obj₂.udp.sock :=
      h.getpeername_eq hA h₁ h₂ .udp
    rw [haddr]
    split
    · exact .ok ⟨track, h.ends .loop⟩
    · exact .ok ⟨track, h.toFrame .udp _ _⟩
  · intro _ _
    unfold kcpReceived
    rcases h.kcp_cases hA h₁ h₂ with ⟨hi, hj⟩ | ⟨i, j, hi, hj, hk, hi', hj'⟩
    · rw [hi, hj]
      exact .error _
    rw [hi, hj]
    unfold ikcpInput
    dsimp only
    rw [hk]
    split
    · exact .error _
    · rename_i k _
      have hset := h.setKcp hA hi' hj' { k with state := (KcpImpl.input k.conv k.state data).1 }
      apply (hset.tryKcpRecv hA).mono
      rintro x y ⟨track', hends⟩
      exact ⟨track', hends.paired, hends.sent, hends.result⟩

end World.Paired

end KcpEv
