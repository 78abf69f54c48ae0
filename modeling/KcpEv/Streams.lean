import KcpEv.Degrade
import KcpEv.Intact

/-!
The connections of a process as streams. Whatever happens between the calls of `recv` on
a connection, and however the bytes are cut, the frames that are dispatched are those
the stream splits into, and the ring holds the rest; as long as there is room in the
ring for what arrives.
-/
namespace KcpEv

open Framing Guarded TcpRecv

variable {K T : Type}

/-- The frame of a connection in front of which a callback stands. -/
def Control.tcpFrame (c : ℕ) : Control → Option Bytes
  | .frame (.serverTcpRecv d) _ buf | .frame (.clientTcpRecv d) _ buf =>
    if d = c then some buf else none
  | .loop | .frame .. | .drain .. | .closing _ => none

/-- A callback of a connection is running. -/
def Control.onTcp (c : ℕ) : Control → Bool
  | .frame (.serverTcpRecv d) _ _ | .frame (.clientTcpRecv d) _ _ | .drain (.serverTcpRecv d) _
  | .drain (.clientTcpRecv d) _ | .closing d => d = c
  | .loop | .frame .. | .drain .. => false

theorem Control.tcpFrame_off {ctl : Control} {c : ℕ} (h : ctl.onTcp c = false) :
    ctl.tcpFrame c = none := by
  rcases ctl with _ | ⟨src, addr, buf⟩ | ⟨src, addr⟩ | d
  · rfl
  · cases src with
    | serverTcpRecv d => simpa [Control.onTcp, Control.tcpFrame] using h
    | clientTcpRecv d => simpa [Control.onTcp, Control.tcpFrame] using h
    | _ => rfl
  · rfl
  · rfl

theorem Control.of_offTcp {ctl : Control} (h : ctl.offTcp = true) (c : ℕ) :
    ctl.tcpFrame c = none ∧ ctl.onTcp c = false := by
  rcases ctl with _ | ⟨src, addr, buf⟩ | ⟨src, addr⟩ | d
  · exact ⟨rfl, rfl⟩
  · cases src with
    | serverTcpRecv => cases h
    | clientTcpRecv => cases h
    | _ => exact ⟨rfl, rfl⟩
  · cases src with
    | serverTcpRecv => cases h
    | clientTcpRecv => cases h
    | _ => exact ⟨rfl, rfl⟩
  · cases h

/-- The frames a step dispatches from the connection of an object. -/
def tcpDispatched (c : ℕ) (p : Process K T) : Input T → List Bytes
  | .round _ => (p.ctl.tcpFrame c).toList
  | _ => []

/-- The memory a step finds for a first ring. -/
def Input.newMem : Input T → Malloc
  | .io _ a => a.newMem
  | _ => none

/-- What arrives on the connection of an object is kept: it is a frame of its own, or there
is room for it in the ring. -/
def Process.KeepsData (p : Process K T) (c : ℕ) (i : Input T) : Prop :=
  tcpArrival c p i ≠ [] → ∀ obj ∈ p.world.objs c,
    Direct (pending obj.tcp.rb) (tcpArrival c p i) ∨ ringAvailable obj.tcp.rb i.newMem = true ∧
      (pending obj.tcp.rb).length + (tcpArrival c p i).length ≤ kcpevBufferSize

instance (p : Process K T) (c : ℕ) (i : Input T) : Decidable (p.KeepsData c i) :=
  inferInstanceAs (Decidable (_ ≠ [] → ∀ obj ∈ p.world.objs c, _))

/-! What is pending for an object. -/

namespace World

variable {w w' : World K T} {c : ℕ} {obj : Kcpev T}

def pendingOf (w : World K T) (c : ℕ) : Bytes :=
  (w.objs c).elim [] fun obj => pending obj.tcp.rb

theorem pendingOf_some (hobj : w.objs c = some obj) : w.pendingOf c = pending obj.tcp.rb := by
  rw [pendingOf, hobj, Option.elim_some]

theorem pendingOf_none (hobj : w.objs c = none) : w.pendingOf c = [] := by
  rw [pendingOf, hobj, Option.elim_none]

/-- What is pending for the objects that are left, or new, is what was. -/
structure KeepsPending (w w' : World K T) : Prop where
  pending : ∀ {c obj'}, w'.objs c = some obj' → pending obj'.tcp.rb = w.pendingOf c

namespace KeepsPending

theorem of_objs (h : ∀ {c obj}, w'.objs c = some obj → w.objs c = some obj) :
    w.KeepsPending w' :=
  ⟨fun hobj => (pendingOf_some (h hobj)).symm⟩

theorem refl (w : World K T) : w.KeepsPending w := of_objs id

theorem store {os : Os K T} {obj' : Kcpev T} (hobj : w.objs c = some obj)
    (hrb : obj'.tcp.rb = obj.tcp.rb) : w.KeepsPending (w.store os c obj') := by
  refine ⟨fun {d obj''} hd => ?_⟩
  rcases eq_or_ne d c with rfl | hne
  · simp only [World.store, Function.update_self, Option.some.injEq] at hd
    rw [← hd, hrb, pendingOf_some hobj]
  · simp only [World.store, Function.update_of_ne hne] at hd
    rw [pendingOf_some hd]

theorem of_steady (hfresh : ∀ {c}, w.os.next ≤ c → w.objs c = none) (h : w.Steady w') :
    w.KeepsPending w' := by
  refine ⟨fun {c obj'} hobj' => ?_⟩
  rcases h.objs hobj' with ⟨obj, hobj, hsteady⟩ | ⟨hnew, hobj⟩
  · rw [hsteady.rb, pendingOf_some hobj]
  · rw [hobj.rb, pendingOf_none (hfresh hnew)]
    rfl

section Recv
variable [KcpImpl K] {buf : Bytes} {addr : Addr} {a : RecvAnswer} {ret : ℤ}

theorem serverRecv {client : Option ℕ} (hrecv : ServerRecv w client buf addr a w' ret) :
    w.KeepsPending w' := by
  have connected : ∀ {c : ℕ} {obj obj' : Kcpev T} {os : Os K T} {ret : ℤ},
      connectClientUdp w.os c obj addr a = (os, obj', ret) → obj'.tcp.rb = obj.tcp.rb := by
    intro c obj obj' os ret hconn
    rcases connectClientUdp_cases hconn with ⟨-, rfl⟩ | ⟨-, hconnected⟩
    · rfl
    · rw [hconnected.fields]
  cases hrecv with
  | unchanged => exact .refl w
  | data => exact .of_objs id
  | shakeHand1Failed hname hfind hconn =>
    obtain ⟨server, key, -, -, -, hobj⟩ := hfind
    exact .store hobj (connected hconn)
  | shakeHand1 hname hfind hconn =>
    obtain ⟨server, key, -, -, -, hobj⟩ := hfind
    have hrb := connected hconn
    exact .store hobj hrb
  | shakeHand2Failed hname hfind =>
    obtain ⟨server, key, -, -, -, hobj⟩ := hfind
    exact .store hobj rfl
  | shakeHand2 hname hfind =>
    obtain ⟨server, key, -, -, -, hobj⟩ := hfind
    exact .store hobj rfl
  | heartbeat1 => exact .of_objs id
  | heartbeat2 hclient hobj => exact .store hobj rfl

theorem clientRecv (hrecv : ClientRecv w c buf a w' ret) : w.KeepsPending w' := by
  cases hrecv with
  | unchanged => exact .refl w
  | data => exact .of_objs id
  | shakeHand1Unsent hparse hobj => exact .store hobj rfl
  | shakeHand1 hparse hobj => exact .store hobj rfl
  | shakeHand2Unsent => exact .of_objs id
  | shakeHand2Failed hparse hobj => exact .store hobj rfl
  | shakeHand2 hparse hobj => exact .store hobj rfl
  | heartbeat1Unsent => exact .of_objs id
  | heartbeat1 hobj => exact .store hobj rfl
  | udpInvalid hobj => exact .store hobj rfl

theorem dispatch [ClockImpl T] {src : Source}
    (hdispatch : KcpEv.dispatch w src addr buf a = .ok (w', ret)) : w.KeepsPending w' := by
  have session : ∀ {c : ℕ}, onSessionRecv w c buf addr a = .ok (w', ret) →
      w.KeepsPending w' := by
    intro c hsession
    obtain ⟨client, -, hsession⟩ := bind_eq_ok.mp hsession
    split at hsession
    · cases hsession
    · exact serverRecv (onServerRecv_cases hsession)
  rcases src with c | c | c | c | _ | ⟨c, q⟩
  · exact session hdispatch
  · exact clientRecv (onClientRecv_cases hdispatch)
  · exact session hdispatch
  · exact clientRecv (onClientRecv_cases hdispatch)
  · exact serverRecv (onServerRecv_cases hdispatch)
  · obtain ⟨kcpev, -, hdispatch⟩ := bind_eq_ok.mp hdispatch
    split at hdispatch
    · exact session hdispatch
    · exact clientRecv (onClientRecv_cases hdispatch)

end Recv

end KeepsPending

/-- The ring of an object changes, and those of the others do not. -/
theorem pendingOf_setRb (w : World K T) (c : ℕ) (client : Kcpev T) (rb : Option Ringbuf) :
    (w.setRb c client rb).pendingOf c = pending rb := by
  simp [pendingOf, setRb, World.store]

theorem objs_setRb_of_ne {d : ℕ} (hne : d ≠ c) (client : Kcpev T) (rb : Option Ringbuf) :
    (w.setRb c client rb).objs d = w.objs d := by
  simp [setRb, World.store, hne]

end World

/-! The steps of a stream. -/

/-- What a step does with the connection of an object. -/
inductive StreamStep (c : ℕ) (p : Process K T) (i : Input T) (p' : Process K T) : Prop
  | idle (hrecv : tcpArrival c p i = []) (hframes : tcpDispatched c p i = [])
    (hframe : p'.ctl.tcpFrame c = p.ctl.tcpFrame c)
    (hbusy : p.ctl.onTcp c = true → p'.ctl.onTcp c = true)
    (hpend : p'.world.pendingOf c = p.world.pendingOf c)
  /-- through the ring -/
  | buffered (hkept : p.KeepsData c i) (hlive : (p.world.objs c).isSome)
    (hframes : tcpDispatched c p i = []) (hframe : p.ctl.tcpFrame c = none)
    (hframe' : p'.ctl.tcpFrame c = none)
    (hbusy : p'.ctl.onTcp c = true)
    (hpend : p'.world.pendingOf c = p.world.pendingOf c ++ tcpArrival c p i)
  /-- past the ring -/
  | direct (hkept : p.KeepsData c i) (hlive : (p.world.objs c).isSome)
    (hframes : tcpDispatched c p i = []) (hframe : p.ctl.tcpFrame c = none)
    (hframe' : p'.ctl.tcpFrame c = some (tcpArrival c p i))
    (hbusy : p'.ctl.onTcp c = true) (hdirect : Direct (p.world.pendingOf c) (tcpArrival c p i))
    (hpend : p'.world.pendingOf c = [])
  /-- there is no room for what arrives, and what is pending may be lost too -/
  | lost (hlost : ¬ p.KeepsData c i) (hframe' : p'.ctl.tcpFrame c = none)
    (hpend : p'.world.pendingOf c = p.world.pendingOf c ∨ p'.world.pendingOf c = [])
  | taken (hlive : (p.world.objs c).isSome) (hrecv : tcpArrival c p i = [])
    (hframes : tcpDispatched c p i = []) (hframe : p.ctl.tcpFrame c = none)
    (hcomplete : header.Complete (p.world.pendingOf c))
    (hframe' : p'.ctl.tcpFrame c =
      some ((p.world.pendingOf c).take (header.size (p.world.pendingOf c))))
    (hbusy : p'.ctl.onTcp c = true)
    (hpend : p'.world.pendingOf c =
      (p.world.pendingOf c).drop (header.size (p.world.pendingOf c)))
  /-- no frame is complete -/
  | stopped (hrecv : tcpArrival c p i = []) (hframes : tcpDispatched c p i = [])
    (hframe : p.ctl.tcpFrame c = none) (hcomplete : ¬ header.Complete (p.world.pendingOf c))
    (hframe' : p'.ctl.tcpFrame c = none) (hpend : p'.world.pendingOf c = p.world.pendingOf c)
  | dispatched {buf : Bytes} (hrecv : tcpArrival c p i = []) (hframes : tcpDispatched c p i = [buf])
    (hframe : p.ctl.tcpFrame c = some buf) (hframe' : p'.ctl.tcpFrame c = none)
    (hbusy : p'.ctl.onTcp c = true) (hpend : p'.world.pendingOf c = p.world.pendingOf c)
  /-- the object is destroyed -/
  | ended (hlive : (p.world.objs c).isSome) (hgone : p'.world.objs c = none)
    (hframe : p'.ctl.tcpFrame c = p.ctl.tcpFrame c ∨ p'.ctl.tcpFrame c = none)

namespace StreamStep

variable {p p' : Process K T} {i : Input T} {c : ℕ}

/-- What is pending stays, unless the object is destroyed. -/
theorem of_pend (hkeeps : p.world.KeepsPending p'.world)
    (hframe : p'.ctl.tcpFrame c = p.ctl.tcpFrame c ∨ p'.ctl.tcpFrame c = none)
    (h : p'.world.pendingOf c = p.world.pendingOf c → StreamStep c p i p') :
    StreamStep c p i p' := by
  rcases hobj' : p'.world.objs c with _ | obj'
  · rcases hobj : p.world.objs c with _ | obj
    · refine h ?_
      rw [World.pendingOf_none hobj, World.pendingOf_none hobj']
    · exact .ended (by rw [hobj]; rfl) hobj' hframe
  · refine h ?_
    rw [World.pendingOf_some hobj', hkeeps.pending hobj']

/-- An event of the loop that leads to no callback of a connection. -/
theorem of_offTcp {q : ℕ} {a : IoAnswer} (hrecv : tcpArrival c p (.io q a) = [])
    (hctl : p.ctl = .loop) (hoff : p'.ctl.offTcp = true)
    (hkeeps : p.world.KeepsPending p'.world) : StreamStep c p (.io q a) p' := by
  obtain ⟨hframe, -⟩ := Control.of_offTcp hoff c
  refine of_pend hkeeps (Or.inr hframe) fun hpend => .idle hrecv rfl ?_ ?_ hpend
  · rw [hframe, hctl]
    rfl
  · simp [hctl, Control.onTcp]

/-- A round between two places where no callback of a connection runs. -/
theorem of_offTcp_round {a : RecvAnswer} {w' : World K T} {ctl : Control}
    (hoff : p.ctl.offTcp = true) (hoff' : ctl.offTcp = true) (hkeeps : p.world.KeepsPending w') :
    StreamStep c p (.round a) { world := w', ctl } := by
  obtain ⟨hframe, hidle⟩ := Control.of_offTcp hoff c
  obtain ⟨hframe', -⟩ := Control.of_offTcp hoff' c
  refine of_pend hkeeps (Or.inr hframe') fun hpend =>
    .idle rfl ?_ (hframe'.trans hframe.symm) (by simp [hidle]) hpend
  rw [tcpDispatched, hframe]
  rfl

/-- A chunk that finds no room is not appended. -/
theorem bufferedBytes_lost {ring grow : Bool} {pend data : Bytes}
    (h : ring = true → ¬ pend.length + data.length ≤ kcpevBufferSize) :
    bufferedBytes ring grow pend data = pend ∨ bufferedBytes ring grow pend data = [] := by
  unfold bufferedBytes
  cases ring with
  | false => simp
  | true =>
    rw [if_neg (by simp), if_neg (h rfl)]
    cases grow with
    | false => simp
    | true => simp

/-- A callback of another connection leaves this one alone. -/
theorem of_other {d : ℕ} {client : Kcpev T} {rb : Option Ringbuf} {w₁ : World K T} {ctl₁ : Control}
    (hne : c ≠ d) (hrecv : tcpArrival c p i = []) (hframes : tcpDispatched c p i = [])
    (hnone : p.ctl.tcpFrame c = none) (hoff : p.ctl.onTcp c = false)
    (hobjs : w₁.objs = (p.world.setRb d client rb).objs) (hframe : ctl₁.tcpFrame c = none) :
    StreamStep c p i { world := w₁, ctl := ctl₁ } := by
  refine .idle hrecv hframes (hframe.trans hnone.symm) (by simp [hoff]) ?_
  rw [World.pendingOf, hobjs, World.objs_setRb_of_ne hne, World.pendingOf]

/-- Where a callback of the connection `d` goes on. -/
theorem onTcp_of_src {d : ℕ} {src : Source}
    (hsrc : src = .serverTcpRecv d ∨ src = .clientTcpRecv d) (c : ℕ) (addr : Addr) (buf : Bytes) :
    (Control.frame src addr buf).tcpFrame c = (if d = c then some buf else none) ∧
      (Control.frame src addr buf).onTcp c = decide (d = c) ∧
      (Control.drain src addr).tcpFrame c = none ∧
      (Control.drain src addr).onTcp c = decide (d = c) := by
  rcases hsrc with rfl | rfl
  · exact ⟨rfl, rfl, rfl, rfl⟩
  · exact ⟨rfl, rfl, rfl, rfl⟩

/-- The chunk is a frame, and is dispatched from the buffer it came in. -/
theorem of_received_direct {q : ℕ} {a : IoAnswer} {src : Source} {addr : Addr} {client : Kcpev T}
    {data : Bytes} {w' : World K T} {ctl : Control} (hctl : p.ctl = .loop)
    (harrival : tcpArrival c p (.io q a) = data) (hobj : p.world.objs c = some client)
    (hsrc : src = .serverTcpRecv c ∨ src = .clientTcpRecv c)
    (hdirect : Direct (pending client.tcp.rb) data)
    (h : tcpReceived p.world src c client addr data a = .ok (w', ctl)) :
    StreamStep c p (.io q a) { world := w', ctl } := by
  have hpend : p.world.pendingOf c = pending client.tcp.rb := World.pendingOf_some hobj
  obtain ⟨hframe', hbusy, -⟩ := onTcp_of_src hsrc c addr data
  rw [if_pos rfl] at hframe'
  rw [decide_eq_true rfl] at hbusy
  obtain ⟨⟨rb, size⟩, hrecv, h⟩ := bind_eq_ok.mp h
  rw [onTcpRecv_direct a.newMem a.growMem hdirect] at hrecv
  cases hrecv
  have hlen := tcpArrival_length_le (p := p) (i := .io q a) (c := c)
  rw [harrival] at hlen
  have hsize := kcpevBufferSize_eq
  have hheader : 8 ≤ data.length := hdirect.2.1
  dsimp only at h
  rw [toInt_small (by omega), if_pos (by omega), Int.toNat_natCast, List.take_length] at h
  cases h
  have hkept : p.KeepsData c (.io q a) := by
    intro _ obj hobj'
    rw [Option.mem_def, hobj, Option.some.injEq] at hobj'
    rw [← hobj', harrival]
    exact Or.inl hdirect
  refine .direct hkept (by rw [hobj]; rfl) rfl (by rw [hctl]; rfl) ?_ hbusy ?_ ?_
  · rw [harrival]
    exact hframe'
  · rw [hpend, harrival]
    exact hdirect
  · exact (World.pendingOf_setRb p.world c client client.tcp.rb).trans hdirect.1

/-- The chunk goes to the ring, or is lost. -/
theorem of_received_buffered {q : ℕ} {a : IoAnswer} {src : Source} {addr : Addr}
    {client : Kcpev T} {data : Bytes} {w' : World K T} {ctl : Control} (hctl : p.ctl = .loop)
    (harrival : tcpArrival c p (.io q a) = data) (hobj : p.world.objs c = some client)
    (hsrc : src = .serverTcpRecv c ∨ src = .clientTcpRecv c) (hrings : p.world.RingsOk)
    (hdirect : ¬ Direct (pending client.tcp.rb) data)
    (h : tcpReceived p.world src c client addr data a = .ok (w', ctl)) :
    StreamStep c p (.io q a) { world := w', ctl } := by
  have hpend : p.world.pendingOf c = pending client.tcp.rb := World.pendingOf_some hobj
  obtain ⟨-, -, hframe', hbusy⟩ := onTcp_of_src hsrc c addr []
  rw [decide_eq_true rfl] at hbusy
  obtain ⟨⟨rb, size⟩, hrecv, h⟩ := bind_eq_ok.mp h
  have hpend' : (p.world.setRb c client rb).pendingOf c = pending rb :=
    World.pendingOf_setRb p.world c client rb
  rw [onTcpRecv_buffered a.newMem a.growMem hdirect] at hrecv
  obtain ⟨rb', size', hbuffer, -, hpos, hbytes⟩ :=
    bufferChunk_ok (hrings.ring hobj) data a.newMem a.growMem
  rw [hbuffer] at hrecv
  cases hrecv
  dsimp only at h
  rw [if_neg hpos] at h
  cases h
  by_cases hok : p.KeepsData c (.io q a)
  · refine .buffered hok (by rw [hobj]; rfl) rfl (by rw [hctl]; rfl) hframe' hbusy ?_
    rw [harrival, hpend, hpend', hbytes, bufferedBytes]
    by_cases hnil : data = []
    · subst hnil
      have hlen := (hrings.ring hobj).length_le
      simp [hlen]
    · have hroom := hok (by rwa [harrival]) client hobj
      rw [harrival] at hroom
      obtain ⟨hring, hfits⟩ := hroom.resolve_left hdirect
      have havail : ringAvailable client.tcp.rb a.newMem = true := hring
      rw [if_neg (by simp [havail]), if_pos hfits]
  · refine .lost hok hframe' ?_
    rw [hpend, hpend', hbytes]
    exact bufferedBytes_lost fun hring hfits => hok fun _ obj hobj' => by
      rw [Option.mem_def, hobj, Option.some.injEq] at hobj'
      rw [← hobj', harrival]
      exact Or.inr ⟨hring, hfits⟩

theorem of_tcpReceived {d q : ℕ} {a : IoAnswer} {src : Source} {addr : Addr}
    {client : Kcpev T} {data : Bytes} {w' : World K T} {ctl : Control} (hctl : p.ctl = .loop)
    (harrival : tcpArrival c p (.io q a) = if d = c then data else [])
    (hobj : p.world.objs d = some client)
    (hsrc : src = .serverTcpRecv d ∨ src = .clientTcpRecv d) (hrings : p.world.RingsOk)
    (h : tcpReceived p.world src d client addr data a = .ok (w', ctl)) :
    StreamStep c p (.io q a) { world := w', ctl } := by
  rcases eq_or_ne c d with rfl | hne
  · rw [if_pos rfl] at harrival
    by_cases hdirect : Direct (pending client.tcp.rb) data
    · exact of_received_direct hctl harrival hobj hsrc hdirect h
    · exact of_received_buffered hctl harrival hobj hsrc hrings hdirect h
  · rw [if_neg hne.symm] at harrival
    have hidle : p.ctl.tcpFrame c = none ∧ p.ctl.onTcp c = false := by
      rw [hctl]
      exact ⟨rfl, rfl⟩
    obtain ⟨⟨rb, size⟩, -, h⟩ := bind_eq_ok.mp h
    dsimp only at h
    generalize toInt size = len at h
    split at h
    · cases h
      refine of_other hne harrival rfl hidle.1 hidle.2 rfl ?_
      exact (onTcp_of_src hsrc _ _ _).1.trans (if_neg hne.symm)
    · cases h
      exact of_other hne harrival rfl hidle.1 hidle.2 rfl (onTcp_of_src hsrc _ _ []).2.2.1

theorem of_drainRound [KcpImpl K] {d : ℕ} {a : RecvAnswer} {src : Source} {addr : Addr}
    {w' : World K T} {ctl : Control} (hctl : p.ctl = .drain src addr)
    (hsrc : src = .serverTcpRecv d ∨ src = .clientTcpRecv d) (hrings : p.world.RingsOk)
    (h : KcpEv.drainRound p.world src addr = .ok (w', ctl)) :
    StreamStep c p (.round a) { world := w', ctl } := by
  obtain ⟨-, -, hnone, hoff⟩ := onTcp_of_src hsrc c addr []
  rw [← hctl] at hnone hoff
  have hframes : tcpDispatched c p (.round a) = [] := by
    rw [tcpDispatched, hnone]
    rfl
  have h' : (do
      let client ← p.world.kcpev d
      let r ← TcpRecv.getTcpBufChunk client.tcp.rb kcpevBufferSize
      if r.2 = [] then return (p.world.setRb d client r.1, Control.loop)
      else return (p.world.setRb d client r.1).toFrame src addr r.2) = .ok (w', ctl) := by
    rcases hsrc with rfl | rfl
    · exact h
    · exact h
  obtain ⟨client, hobj, h'⟩ := bind_eq_ok.mp h'
  rw [World.kcpev_ok] at hobj
  obtain ⟨r, hchunk, h'⟩ := bind_eq_ok.mp h'
  have hpend' : (p.world.setRb d client r.1).pendingOf d = pending r.1 :=
    World.pendingOf_setRb p.world d client r.1
  rcases eq_or_ne c d with rfl | hne
  · have hpend : p.world.pendingOf c = pending client.tcp.rb := World.pendingOf_some hobj
    by_cases hcomplete : header.Complete (pending client.tcp.rb)
    · obtain ⟨rb, hget, -, hrest⟩ := getTcpBufChunk_complete (hrings.ring hobj) hcomplete
      rw [hget] at hchunk
      cases hchunk
      rw [if_neg (take_size_ne_nil hcomplete)] at h'
      cases h'
      obtain ⟨hframe', hbusy, -⟩ := onTcp_of_src hsrc c addr
        ((pending client.tcp.rb).take (header.size (pending client.tcp.rb)))
      rw [if_pos rfl] at hframe'
      refine .taken (by rw [hobj]; rfl) rfl hframes hnone (by rwa [hpend]) ?_
        (hbusy.trans (decide_eq_true rfl)) ?_
      · rw [hpend]
        exact hframe'
      · rw [hpend, ← hrest]
        exact hpend'
    · rw [getTcpBufChunk_incomplete (hrings.ring hobj) hcomplete] at hchunk
      cases hchunk
      rw [if_pos rfl] at h'
      cases h'
      exact .stopped rfl hframes hnone (by rwa [hpend]) rfl (hpend'.trans hpend.symm)
  · rw [decide_eq_false hne.symm] at hoff
    split at h'
    · cases h'
      exact of_other hne rfl hframes hnone hoff rfl rfl
    · cases h'
      refine of_other hne rfl hframes hnone hoff rfl ?_
      exact (onTcp_of_src hsrc _ _ _).1.trans (if_neg hne.symm)

theorem of_dispatched {a : RecvAnswer} {src : Source} {addr : Addr} {buf : Bytes} {ret : ℤ}
    {w' : World K T} {ctl : Control} (hctl : p.ctl = .frame src addr buf)
    (hkeeps : p.world.KeepsPending w') (h : KcpEv.dispatched src addr ret = .ok ctl) :
    StreamStep c p (.round a) { world := w', ctl } := by
  have tcp : ∀ {d : ℕ}, src = .serverTcpRecv d ∨ src = .clientTcpRecv d →
      ctl.tcpFrame c = none ∧ ctl.onTcp c = decide (d = c) →
      StreamStep c p (.round a) { world := w', ctl } := by
    rintro d hsrc ⟨hframe', hbusy⟩
    obtain ⟨hframe, hidle, -⟩ := onTcp_of_src hsrc c addr buf
    rw [← hctl] at hframe hidle
    refine of_pend hkeeps (Or.inr hframe') fun hpend => ?_
    by_cases hd : d = c
    · rw [if_pos hd] at hframe
      refine .dispatched rfl ?_ hframe hframe' (by simpa [hd] using hbusy) hpend
      rw [tcpDispatched, hframe]
      rfl
    · rw [if_neg hd] at hframe
      rw [decide_eq_false hd] at hidle
      refine .idle rfl ?_ (hframe'.trans hframe.symm) (by simp [hidle]) hpend
      rw [tcpDispatched, hframe]
      rfl
  rcases src with d | d | d | d | _ | ⟨d, q⟩
  · simp only [KcpEv.dispatched, Except.ok.injEq] at h
    refine tcp (Or.inl rfl) ?_
    rw [← h]
    split
    · exact ⟨rfl, rfl⟩
    · exact ⟨rfl, rfl⟩
  · simp only [KcpEv.dispatched] at h
    split at h
    · cases h
      exact tcp (Or.inr rfl) ⟨rfl, rfl⟩
    · cases h
  · cases h
    exact of_offTcp_round (by rw [hctl]; rfl) rfl hkeeps
  · cases h
    exact of_offTcp_round (by rw [hctl]; rfl) rfl hkeeps
  · cases h
    exact of_offTcp_round (by rw [hctl]; rfl) rfl hkeeps
  · simp only [KcpEv.dispatched, Except.ok.injEq] at h
    refine of_offTcp_round (by rw [hctl]; rfl) ?_ hkeeps
    rw [← h]
    split
    · rfl
    · rfl

end StreamStep

section Step
variable [KcpImpl K] [ClockImpl T] {p p' : Process K T} {i : Input T}

theorem stream_io {c q : ℕ} {e : EvIo} {a : IoAnswer} {w' : World K T} {ctl : Control}
    (hp : p.Typed) (hrings : p.world.RingsOk) (hctl : p.ctl = .loop)
    (he : p.world.os.ios q = some e) (h : ioEvent p.world e a = .ok (w', ctl)) :
    StreamStep c p (.io q a) { world := w', ctl } := by
  have harrival : tcpArrival c p (.io q a) =
      if e.data = .kcpev c ∧ (e.cb = .clientTcpRecv ∨ e.cb = .serverTcpRecv) then
        (recv p.world.os e.fd kcpevBufferSize a.recv).getD []
      else [] := by
    simp only [tcpArrival, hctl, he]
  have other : tcpArrival c p (.io q a) = [] → p.world.Steady w' ∧ ctl.offTcp = true →
      StreamStep c p (.io q a) { world := w', ctl } := by
    rintro hnone ⟨hsteady, hoff⟩
    exact .of_offTcp hnone hctl hoff (.of_steady hp.world.fresh hsteady)
  unfold ioEvent at h
  split at h
  · rename_i hcb hdata
    obtain ⟨w₁, haccept, h⟩ := bind_eq_ok.mp h
    cases h
    exact other (by rw [harrival, if_neg (by simp [hdata])]) ⟨steady_tcpAccept haccept, rfl⟩
  · rename_i hcb hdata
    have hsteady := serverUdpRecvAll_steady p.world e.fd a
    rw [Except.ok.inj h] at hsteady
    exact other (by rw [harrival, if_neg (by simp [hdata])]) hsteady
  · rename_i d hcb hdata
    obtain ⟨client, hobj, h⟩ := bind_eq_ok.mp h
    rw [World.kcpev_ok] at hobj
    split at h
    · rename_i hrecv
      cases h
      refine .idle ?_ rfl (by rw [hctl]; rfl) (by simp [hctl, Control.onTcp]) rfl
      rw [harrival, hrecv]
      split <;> rfl
    · rename_i data hrecv
      refine .of_tcpReceived hctl ?_ hobj (Or.inl rfl) hrings h
      rw [harrival, hrecv, hdata, hcb]
      simp
  · rename_i d hcb hdata
    exact other (by rw [harrival, if_neg (by simp [hcb])]) (serverUdpRecv_steady h)
  · rename_i d hcb hdata
    unfold clientTcpRecv at h
    split at h
    · cases h
    rename_i data hrecv
    obtain ⟨client, hobj, h⟩ := bind_eq_ok.mp h
    rw [World.kcpev_ok] at hobj
    refine .of_tcpReceived hctl ?_ hobj (Or.inr rfl) hrings h
    rw [harrival, hrecv, hdata, hcb]
    simp
  · rename_i d hcb hdata
    exact other (by rw [harrival, if_neg (by simp [hcb])]) (clientUdpRecv_steady h)
  · rename_i hother₁ hother₂ hother₃ hother₄ hother₅ hother₆
    cases h
    refine other ?_ ⟨.refl _, rfl⟩
    rw [harrival, if_neg]
    rintro ⟨hdata, hcb | hcb⟩
    · exact hother₅ c hcb hdata
    · exact hother₃ c hcb hdata

theorem stream_round {c : ℕ} {a : RecvAnswer} {w' : World K T} {ctl : Control} (hp : p.Typed)
    (hrings : p.world.RingsOk) (hround : callbackRound p.world p.ctl a = .ok (w', ctl)) :
    StreamStep c p (.round a) { world := w', ctl } := by
  unfold callbackRound at hround
  split at hround
  · rename_i hctl
    cases hround
    refine .idle rfl ?_ ?_ ?_ rfl
    · rw [tcpDispatched, hctl]
      rfl
    · rw [hctl]
    · rw [hctl]
      exact id
  · rename_i src addr hctl
    have other : p.ctl.offTcp = true → p.world.Steady w' ∧ ctl.offTcp = true →
        StreamStep c p (.round a) { world := w', ctl } := by
      rintro hoff ⟨hsteady, hoff'⟩
      exact .of_offTcp_round hoff hoff' (.of_steady hp.world.fresh hsteady)
    rcases src with d | d | d | d | _ | ⟨d, q⟩
    · exact .of_drainRound hctl (Or.inl rfl) hrings hround
    · exact .of_drainRound hctl (Or.inr rfl) hrings hround
    · cases hround
      exact other (by rw [hctl]; rfl) ⟨.refl _, rfl⟩
    · cases hround
      exact other (by rw [hctl]; rfl) ⟨.refl _, rfl⟩
    · cases hround
      exact other (by rw [hctl]; rfl) ⟨.refl _, rfl⟩
    · exact other (by rw [hctl]; rfl) (drainKcp_steady hround)
  · rename_i src addr buf hctl
    obtain ⟨⟨w₂, ret⟩, hdispatch, hround⟩ := bind_eq_ok.mp hround
    obtain ⟨ctl₂, hctl₂, hround⟩ := bind_eq_ok.mp hround
    cases hround
    exact .of_dispatched hctl (.dispatch hdispatch) hctl₂
  · rename_i d hctl
    obtain ⟨w₂, hclose, hround⟩ := bind_eq_ok.mp hround
    cases hround
    obtain ⟨client, server, hobj, -, -, rfl⟩ := World.closeClient_cases hclose
    rcases eq_or_ne c d with rfl | hne
    · refine .ended (by rw [hobj]; rfl) ?_ (Or.inr rfl)
      simp [World.destroyKcpev]
    · refine .of_pend (.of_objs fun hobj => World.objs_destroyKcpev _ hobj) (Or.inr rfl)
        fun hpend => .idle rfl ?_ ?_ ?_ hpend
      · rw [tcpDispatched, hctl]
        rfl
      · rw [hctl]
        rfl
      · rw [hctl]
        simp [Control.onTcp, hne.symm]

theorem stream_step {c : ℕ} (hp : p.Typed) (hrings : p.world.RingsOk)
    (hs : step p i = .ok p') : StreamStep c p i p' := by
  have same : ∀ {w : World K T}, tcpArrival c p i = [] → tcpDispatched c p i = [] →
      p.world.KeepsPending w → StreamStep c p i { p with world := w } := by
    intro w hrecv hframes hkeeps
    exact .of_pend hkeeps (Or.inl rfl) fun hpend => .idle hrecv hframes rfl id hpend
  unfold step at hs
  split at hs
  · rename_i a
    obtain ⟨⟨w₁, ctl₁⟩, hround, hs⟩ := bind_eq_ok.mp hs
    cases hs
    exact stream_round hp hrings hround
  · rename_i q a
    split at hs
    · rename_i e hctl he
      obtain ⟨⟨w₁, ctl₁⟩, hio, hs⟩ := bind_eq_ok.mp hs
      cases hs
      exact stream_io hp hrings hctl he hio
    · rename_i hnot
      cases hs
      exact same (tcpArrival_other hnot) rfl (.refl _)
  · split at hs
    · rename_i q a _ _ t hctl ht
      obtain ⟨⟨w₁, ctl₁⟩, htimer, hs⟩ := bind_eq_ok.mp hs
      cases hs
      obtain ⟨hsteady, hoff⟩ := timerEvent_steady htimer
      obtain ⟨hframe, -⟩ := Control.of_offTcp hoff c
      refine .of_pend (.of_steady hp.world.fresh hsteady) (Or.inr hframe) fun hpend =>
        .idle rfl rfl ?_ (by simp [hctl, Control.onTcp]) hpend
      rw [hframe, hctl]
      rfl
    · cases hs
      exact same rfl rfl (.refl _)
  · split at hs
    · obtain ⟨w₁, hdestroy, hs⟩ := bind_eq_ok.mp hs
      cases hs
      exact same rfl rfl (.of_objs fun hobj => World.objs_serverDestroy hdestroy hobj)
    · cases hs
      exact same rfl rfl (.refl _)
  · rename_i hround hio htimer hdestroy
    have hrecv : tcpArrival c p i = [] := by
      cases i with
      | io q a => exact absurd rfl (hio q a)
      | _ => rfl
    have hframes : tcpDispatched c p i = [] := by
      cases i with
      | round a => exact absurd rfl (hround a)
      | _ => rfl
    split at hs
    · obtain ⟨w₁, happly, hs⟩ := bind_eq_ok.mp hs
      cases hs
      exact same hrecv hframes (.of_steady hp.world.fresh (apply_steady happly))
    · cases hs
      exact same hrecv hframes (.refl _)

end Step

/-! What has arrived, and what was dispatched. -/

/-- What has arrived on the connection of an object, and the frames that were dispatched from
it: these are the first of those it splits into, and the rest of the stream is kept. -/
structure Streaming (c : ℕ) (arrived : Bytes) (frames : List Bytes) (p : Process K T) : Prop where
  fresh : p.world.os.next ≤ c → arrived = [] ∧ frames = [] ∧ p.ctl.tcpFrame c = none
  split : (p.world.objs c).isSome → header.split arrived =
    (frames ++ (p.ctl.tcpFrame c).toList ++ (header.split (p.world.pendingOf c)).1,
      (header.split (p.world.pendingOf c)).2)
  rest : (p.world.objs c).isSome → p.ctl.onTcp c = false →
    ¬ header.Complete (p.world.pendingOf c)

theorem isFrame_of_direct {pend data : Bytes} (h : Direct pend data) : header.IsFrame data :=
  ⟨h.2.1, Nat.lt_of_lt_of_le (by decide) h.2.1, h.2.2⟩

namespace Streaming

variable {p p' : Process K T} {i : Input T} {c : ℕ} {arrived : Bytes} {frames : List Bytes}

theorem first (h : Streaming c arrived frames p) (hlive : (p.world.objs c).isSome) :
    frames <+: (header.split arrived).1 := by
  rw [h.split hlive, List.append_assoc]
  exact List.prefix_append _ _

/-- When no callback of the connection runs, no frame waits. -/
theorem all (h : Streaming c arrived frames p) {obj : Kcpev T} (hobj : p.world.objs c = some obj)
    (hoff : p.ctl.onTcp c = false) : header.split arrived = (frames, pending obj.tcp.rb) := by
  have hlive : (p.world.objs c).isSome := by
    rw [hobj]
    rfl
  have hrest := h.rest hlive hoff
  rw [h.split hlive, Control.tcpFrame_off hoff, header.split_incomplete hrest,
    World.pendingOf_some hobj]
  simp

theorem init (now : T) (c : ℕ) : Streaming c [] [] (Process.init now : Process K T) where
  fresh _ := ⟨rfl, rfl, rfl⟩
  split hlive := by cases hlive
  rest hlive := by cases hlive

variable [KcpImpl K] [ClockImpl T]

theorem step (h : Streaming c arrived frames p) (hp : p.Typed) (hrings : p.world.RingsOk)
    (hok : p.KeepsData c i) (hs : KcpEv.step p i = .ok p') :
    Streaming c (arrived ++ tcpArrival c p i) (frames ++ tcpDispatched c p i) p' := by
  have hages := (typed_effect hp.world (step_effect hp hs)).ages
  -- an object that is not there yet has the empty stream
  have hnew : p.world.os.next ≤ c → arrived = [] ∧ frames = [] ∧ p.ctl.tcpFrame c = none ∧
      p.world.objs c = none ∧ p.world.pendingOf c = [] := by
    intro hc
    obtain ⟨harrived, hframes, hframe⟩ := h.fresh hc
    have hnone := hp.world.fresh hc
    exact ⟨harrived, hframes, hframe, hnone, World.pendingOf_none hnone⟩
  have hold : (p'.world.objs c).isSome → (p.world.objs c).isSome ∨ p.world.os.next ≤ c := by
    intro hlive'
    rcases Nat.lt_or_ge c p.world.os.next with hc | hc
    · obtain ⟨obj', hobj'⟩ := Option.isSome_iff_exists.mp hlive'
      obtain ⟨obj, hobj, -⟩ := hages.objs hc hobj'
      exact Or.inl (by rw [hobj]; rfl)
    · exact Or.inr hc
  have hsplit : (p'.world.objs c).isSome → header.split arrived =
      (frames ++ (p.ctl.tcpFrame c).toList ++ (header.split (p.world.pendingOf c)).1,
        (header.split (p.world.pendingOf c)).2) := by
    intro hlive'
    rcases hold hlive' with hlive | hc
    · exact h.split hlive
    · obtain ⟨harrived, hframes, hframe, -, hpend⟩ := hnew hc
      rw [harrived, hframes, hframe, hpend, header.split_nil]
      rfl
  have hrest : (p'.world.objs c).isSome → p.ctl.onTcp c = false →
      ¬ header.Complete (p.world.pendingOf c) := by
    intro hlive' hoff
    rcases hold hlive' with hlive | hc
    · exact h.rest hlive hoff
    · obtain ⟨-, -, -, -, hpend⟩ := hnew hc
      rw [hpend]
      exact header.not_complete_nil
  have hdead : (p.world.objs c).isSome → p'.world.os.next ≤ c → False := by
    intro hlive hc
    obtain ⟨-, -, -, hnone, -⟩ := hnew (hages.next.trans hc)
    rw [hnone] at hlive
    cases hlive
  rcases stream_step hp hrings hs with ⟨hrecv, hframes, hframe, hbusy, hpend⟩ |
    ⟨-, hlive, hframes, hframe, hframe', hbusy, hpend⟩ |
    ⟨-, hlive, hframes, hframe, hframe', hbusy, hdirect, hpend⟩ | ⟨hlost⟩ |
    ⟨hlive, hrecv, hframes, hframe, hcomplete, hframe', hbusy, hpend⟩ |
    ⟨hrecv, hframes, hframe, hcomplete, hframe', hpend⟩ |
    ⟨hrecv, hframes, hframe, hframe', hbusy, hpend⟩ | ⟨hlive, hgone⟩
  · rw [hrecv, hframes, List.append_nil, List.append_nil]
    refine ⟨fun hc => ?_, fun hlive' => ?_, fun hlive' hoff => ?_⟩
    · obtain ⟨harrived, hnil, hnone, -, -⟩ := hnew (hages.next.trans hc)
      exact ⟨harrived, hnil, hframe.trans hnone⟩
    · rw [hframe, hpend]
      exact hsplit hlive'
    · rw [hpend]
      refine hrest hlive' ?_
      by_contra hon
      rw [hbusy (by simpa using hon)] at hoff
      cases hoff
  · rw [hframes, List.append_nil]
    refine ⟨fun hc => (hdead hlive hc).elim, fun hlive' => ?_, fun _ hoff => ?_⟩
    · have hold := hsplit hlive'
      rw [hframe, Option.toList_none, List.append_nil] at hold
      rw [hframe', hpend, header.split_append arrived, hold,
        header.split_append (p.world.pendingOf c)]
      simp
    · rw [hbusy] at hoff
      cases hoff
  · rw [hframes, List.append_nil]
    refine ⟨fun hc => (hdead hlive hc).elim, fun hlive' => ?_, fun _ hoff => ?_⟩
    · have hold := hsplit hlive'
      rw [hframe, hdirect.1, header.split_nil] at hold
      have hwhole : header.split (tcpArrival c p i) = ([tcpArrival c p i], []) := by
        have hframe := header.split_cons_frame [] (isFrame_of_direct hdirect)
        rwa [List.append_nil, header.split_nil] at hframe
      rw [hframe', hpend, header.split_append arrived, hold, List.nil_append, hwhole,
        header.split_nil]
      simp
    · rw [hbusy] at hoff
      cases hoff
  · exact absurd hok hlost
  · rw [hrecv, hframes, List.append_nil, List.append_nil]
    refine ⟨fun hc => (hdead hlive hc).elim, fun hlive' => ?_, fun _ hoff => ?_⟩
    · have hold := hsplit hlive'
      rw [hframe, header.split_complete hcomplete] at hold
      rw [hold, hframe', hpend]
      simp
    · rw [hbusy] at hoff
      cases hoff
  · rw [hrecv, hframes, List.append_nil, List.append_nil]
    refine ⟨fun hc => ?_, fun hlive' => ?_, fun _ _ => ?_⟩
    · obtain ⟨harrived, hnil, -, -, -⟩ := hnew (hages.next.trans hc)
      exact ⟨harrived, hnil, hframe'⟩
    · have hold := hsplit hlive'
      rw [hframe] at hold
      rw [hframe', hpend, hold]
    · rwa [hpend]
  · rw [hrecv, hframes, List.append_nil]
    refine ⟨fun hc => ?_, fun hlive' => ?_, fun _ hoff => ?_⟩
    · obtain ⟨-, -, hnone, -, -⟩ := hnew (hages.next.trans hc)
      rw [hframe] at hnone
      cases hnone
    · have hold := hsplit hlive'
      rw [hframe] at hold
      rw [hold, hframe', hpend]
      simp
    · rw [hbusy] at hoff
      cases hoff
  · refine ⟨fun hc => (hdead hlive hc).elim, fun hlive' => ?_, fun hlive' _ => ?_⟩
    · rw [hgone] at hlive'
      cases hlive'
    · rw [hgone] at hlive'
      cases hlive'

end Streaming

/-! What a connection has kept, when there was not always room for what arrived. -/

/-- The bytes on the connection of an object that a step keeps. -/
def tcpKept (c : ℕ) (p : Process K T) (i : Input T) : Bytes :=
  if p.KeepsData c i then tcpArrival c p i else []

theorem tcpKept_eq_nil {c : ℕ} {p : Process K T} {i : Input T} (h : tcpArrival c p i = []) :
    tcpKept c p i = [] := by
  rw [tcpKept, h, ite_self]

/-- What is pending, and the frame in front of which a callback stands, are pieces of what
the connection has kept. -/
structure Process.Holds (c : ℕ) (kept : Bytes) (p : Process K T) : Prop where
  pending : p.world.pendingOf c <:+ kept
  frame : ∀ {buf}, p.ctl.tcpFrame c = some buf → buf <:+: kept
  length_le : ∀ {buf}, p.ctl.tcpFrame c = some buf → buf.length ≤ kcpevBufferSize

theorem World.RingsOk.pendingOf_length_le {w : World K T} (h : w.RingsOk) (c : ℕ) :
    (w.pendingOf c).length ≤ kcpevBufferSize := by
  rcases hobj : w.objs c with _ | obj
  · rw [World.pendingOf_none hobj]
    exact Nat.zero_le _
  · rw [World.pendingOf_some hobj]
    exact (h.ring hobj).length_le

namespace Process.Holds

variable {p p' : Process K T} {i : Input T} {c : ℕ} {kept : Bytes}

theorem mono (h : p.Holds c kept) (more : Bytes)
    (hpend : p'.world.pendingOf c <:+ kept ++ more)
    (hframe : p'.ctl.tcpFrame c = p.ctl.tcpFrame c ∨ p'.ctl.tcpFrame c = none) :
    p'.Holds c (kept ++ more) := by
  have hold : ∀ {buf}, p'.ctl.tcpFrame c = some buf → p.ctl.tcpFrame c = some buf := by
    intro buf hbuf
    rcases hframe with hsame | hnone
    · rwa [hsame] at hbuf
    · rw [hnone] at hbuf
      cases hbuf
  exact ⟨hpend, fun hbuf => (h.frame (hold hbuf)).trans (List.prefix_append kept more).isInfix,
    fun hbuf => h.length_le (hold hbuf)⟩

theorem step [KcpImpl K] [ClockImpl T] (h : p.Holds c kept) (hp : p.Typed)
    (hrings : p.world.RingsOk) (hs : KcpEv.step p i = .ok p') :
    p'.Holds c (kept ++ tcpKept c p i) := by
  rcases stream_step hp hrings hs with ⟨hrecv, -, hframe, -, hpend⟩ |
    ⟨hkept, -, -, -, hframe', -, hpend⟩ | ⟨hkept, -, -, -, hframe', -, -, hpend⟩ |
    ⟨hlost, hframe', hpend⟩ | ⟨-, hrecv, -, -, -, hframe', -, hpend⟩ |
    ⟨hrecv, -, -, -, hframe', hpend⟩ | ⟨hrecv, -, -, hframe', -, hpend⟩ | ⟨-, hgone, hframe⟩
  · rw [tcpKept_eq_nil hrecv]
    exact h.mono [] (by rw [hpend, List.append_nil]; exact h.pending) (Or.inl hframe)
  · obtain ⟨front, hfront⟩ := h.pending
    rw [tcpKept, if_pos hkept]
    refine h.mono _ ⟨front, ?_⟩ (Or.inr hframe')
    rw [hpend, ← List.append_assoc, hfront]
  · rw [tcpKept, if_pos hkept]
    refine ⟨by rw [hpend]; exact List.nil_suffix, fun {buf} hbuf => ?_, fun {buf} hbuf => ?_⟩
    · rw [hframe', Option.some.injEq] at hbuf
      rw [← hbuf]
      exact (List.suffix_append kept _).isInfix
    · rw [hframe', Option.some.injEq] at hbuf
      rw [← hbuf]
      exact tcpArrival_length_le
  · rw [tcpKept, if_neg hlost]
    refine h.mono [] ?_ (Or.inr hframe')
    rw [List.append_nil]
    rcases hpend with hpend | hpend
    · rw [hpend]
      exact h.pending
    · rw [hpend]
      exact List.nil_suffix
  · rw [tcpKept_eq_nil hrecv, List.append_nil]
    refine ⟨by rw [hpend]; exact (List.drop_suffix _ _).trans h.pending, fun {buf} hbuf => ?_,
      fun {buf} hbuf => ?_⟩
    · rw [hframe', Option.some.injEq] at hbuf
      rw [← hbuf]
      exact (List.take_prefix _ _).isInfix.trans h.pending.isInfix
    · rw [hframe', Option.some.injEq] at hbuf
      rw [← hbuf, List.length_take]
      exact (min_le_right _ _).trans (hrings.pendingOf_length_le c)
  · rw [tcpKept_eq_nil hrecv]
    exact h.mono [] (by rw [hpend, List.append_nil]; exact h.pending) (Or.inr hframe')
  · rw [tcpKept_eq_nil hrecv]
    exact h.mono [] (by rw [hpend, List.append_nil]; exact h.pending) (Or.inr hframe')
  · refine h.mono _ ?_ hframe
    rw [World.pendingOf_none hgone]
    exact List.nil_suffix

end Process.Holds

section Run
variable [KcpImpl K] [ClockImpl T] {p : Process K T} {now : T} {is : List (Input T)} {c : ℕ}

theorem run_ringsOk {ok : Process K T → Input T → Prop} (hrun : Run step ok (.init now) is p) :
    p.world.RingsOk := by
  induction hrun with
  | nil => exact ⟨fun hobj => by cases hobj⟩
  | snoc _ _ hs ih => exact ih.step hs

theorem run_holds {ok : Process K T → Input T → Prop} (hrun : Run step ok (.init now) is p) :
    p.Holds c (history step (tcpKept c) (Process.init (K := K) now) is) := by
  induction hrun with
  | nil => exact ⟨List.nil_suffix, fun hbuf => (by cases hbuf), fun hbuf => by cases hbuf⟩
  | snoc hrun _ hs ih =>
    rw [hrun.history_snoc hs]
    exact ih.step (run_typed hrun) (run_ringsOk hrun) hs

/-- Only what fits the buffer is dispatched. -/
theorem run_dispatched_length {ok : Process K T → Input T → Prop}
    (hrun : Run step ok (.init now) is p) {frame : Bytes}
    (h : frame ∈ history step (tcpDispatched c) (Process.init (K := K) now) is) :
    frame.length ≤ kcpevBufferSize := by
  induction hrun with
  | nil => cases h
  | @snoc is p p' i hrun _ hs ih =>
    rw [hrun.history_snoc hs, List.mem_append] at h
    rcases h with hold | hnew
    · exact ih hold
    · cases i with
      | round a => exact (run_holds hrun).length_le (Option.mem_toList.mp hnew)
      | _ => cases hnew

theorem run_streaming (hrun : Run step (fun p i => p.KeepsData c i) (.init now) is p) :
    Streaming c (history step (tcpArrival c) (Process.init (K := K) now) is)
      (history step (tcpDispatched c) (Process.init (K := K) now) is) p := by
  induction hrun with
  | nil => exact .init now c
  | snoc hrun hok hs ih =>
    rw [hrun.history_snoc hs, hrun.history_snoc hs]
    exact ih.step (run_typed hrun) (run_ringsOk hrun) hok hs

/-- However the bytes on the connection of an object are cut, and whatever the process does
between them, the frames that are dispatched are the first frames of the stream, each once
and in order. When no callback of the connection runs, these are all, and the ring holds the
rest. So of what the peer writes no frame is torn, and in the end none is left. -/
theorem run_dispatches_stream (hrun : Run step (fun p i => p.KeepsData c i) (.init now) is p)
    {obj : Kcpev T} (hobj : p.world.objs c = some obj) :
    history step (tcpDispatched c) (Process.init (K := K) now) is <+:
        (header.split (history step (tcpArrival c) (Process.init (K := K) now) is)).1 ∧
      (p.ctl.onTcp c = false →
        header.split (history step (tcpArrival c) (Process.init (K := K) now) is) =
          (history step (tcpDispatched c) (Process.init (K := K) now) is, pending obj.tcp.rb)) ∧
      ∀ written : List Bytes, (∀ f ∈ written, header.IsFrame f) →
        history step (tcpArrival c) (Process.init (K := K) now) is <+: written.flatten →
          history step (tcpDispatched c) (Process.init (K := K) now) is <+: written ∧
          (history step (tcpArrival c) (Process.init (K := K) now) is = written.flatten →
            p.ctl.onTcp c = false →
            history step (tcpDispatched c) (Process.init (K := K) now) is = written) := by
  have hstream := run_streaming hrun
  have hlive : (p.world.objs c).isSome := by
    rw [hobj]
    rfl
  have hfirst := hstream.first hlive
  refine ⟨hfirst, hstream.all hobj, fun written hframes hpart => ?_⟩
  refine ⟨hfirst.trans (header.split_prefix hframes hpart), fun hwhole hoff => ?_⟩
  have hall := hstream.all hobj hoff
  rw [hwhole, header.split_frames hframes] at hall
  exact (Prod.mk.inj hall).1.symm

end Run

/-! A client whose first handshake message arrives in two parts. -/

/-- The key of a session arrives in two chunks, and three bytes behind it. -/
def keyInParts : List (Input ℕ) :=
  keyArrives.take 3 ++ [
    .io 3 (.receives ((handshakeFrame .shakeHand1).take 5) 9), .round (.socket 0),
    .io 3 (.receives ((handshakeFrame .shakeHand1).drop 5 ++ [0, 0, 0]) 9),
    .round (.socket 0), .round (.socket 0), .round (.socket 0)]

theorem run_dispatches_stream_inParts : ∃ (p : Process Unit ℕ) (obj : Kcpev ℕ),
    Run step (fun p i => p.KeepsData 1 i) (.init 0) keyInParts p ∧
      p.world.objs 1 = some obj ∧
      header.split (history step (tcpArrival 1) (Process.init (K := Unit) 0) keyInParts) =
        ([handshakeFrame .shakeHand1], pending obj.tcp.rb) := by
  obtain ⟨p, hrun, htest⟩ := Run.exists_of_exec (step (K := Unit)) (fun p i => p.KeepsData 1 i)
    (.init 0) keyInParts (fun p => (p.world.objs 1).isSome && decide (p.ctl = .loop))
    (by decide)
  rw [Bool.and_eq_true, decide_eq_true_eq] at htest
  obtain ⟨hlive, hctl⟩ := htest
  obtain ⟨obj, hobj⟩ := Option.isSome_iff_exists.mp hlive
  have hdispatched : history step (tcpDispatched 1) (Process.init (K := Unit) 0) keyInParts =
      [handshakeFrame .shakeHand1] := by
    decide
  have hsplit := (run_dispatches_stream hrun hobj).2.1 (by rw [hctl]; rfl)
  rw [hdispatched] at hsplit
  exact ⟨p, obj, hrun, hobj, hsplit⟩

end KcpEv
