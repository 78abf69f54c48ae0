import KcpEv.Rejected
import KcpEv.Steady
import KcpEv.TcpRefine

/-!
What one step does to a client: it receives a chunk on the TCP connection, takes
a frame out of the ring, or leaves the ring alone. Then the key of the client
only changes with the first handshake message, and the state of its UDP side
only goes up with the two handshake messages.
-/
namespace KcpEv

open Framing Guarded TcpRecv

variable {K T : Type}

/-- The bytes a step receives on the TCP connection of an object. -/
def tcpArrival (c : ℕ) (p : Process K T) : Input T → Bytes
  | .io q a =>
    match p.ctl, p.world.os.ios q with
    | .loop, some e =>
      if e.data = .kcpev c ∧ (e.cb = .clientTcpRecv ∨ e.cb = .serverTcpRecv) then
        (recv p.world.os e.fd kcpevBufferSize a.recv).getD []
      else []
    | _, _ => []
  | _ => []

/-- What a step that receives nothing on the TCP connection of an object does to the
object, when it is no session. -/
inductive ClientChange (p : Process K T) (c : ℕ) (obj' : Kcpev T) : Prop
  | fresh (hc : p.world.os.next ≤ c) (hfresh : obj'.toKcpevBase.Fresh)
  | steady {obj : Kcpev T} (hobj : p.world.objs c = some obj) (hsteady : obj.Steady obj')
  /-- the first handshake message was dispatched -/
  | keyed {obj : Kcpev T} {src : Source} {addr : Addr} {buf : Bytes} {key : KcpevKey}
    (hobj : p.world.objs c = some obj) (hframe : p.ctl = .frame src addr buf)
    (hsrc : src.ToClient p.world c) (hparse : Parses buf .shakeHand1 key.val)
    (hserver : obj'.hasServer = obj.hasServer) (hkey : obj'.key = key)
    (hrb : obj'.tcp.rb = obj.tcp.rb)
  /-- the second one was dispatched -/
  | ready {obj : Kcpev T} (hobj : p.world.objs c = some obj)
    (hstatus : obj.udp.status = .shakingHand) (hserver : obj'.hasServer = obj.hasServer)
    (hkey : obj'.key = obj.key) (hrb : obj'.tcp.rb = obj.tcp.rb)

/-- What a step does to an object that is no session. -/
inductive ClientStep (p : Process K T) (i : Input T) (p' : Process K T) (c : ℕ) (obj' : Kcpev T) :
    Prop
  | idle (hchange : ClientChange p c obj') (harrival : tcpArrival c p i = [])
    (hctl : ∀ {addr buf}, p'.ctl = .frame (.clientTcpRecv c) addr buf →
      p.ctl = .frame (.clientTcpRecv c) addr buf)
  | received {obj : Kcpev T} {src : Source} {addr : Addr} {data : Bytes} {q : ℕ} {a : IoAnswer}
    {rb : Option Ringbuf} {size : ℕ} (hinput : i = .io q a) (hobj : p.world.objs c = some obj)
    (harrival : tcpArrival c p i = data)
    (hrecv : onTcpRecv obj.tcp.rb data a.newMem a.growMem = .ok (rb, size))
    (hobj' : obj' = { obj with tcp := { obj.tcp with rb } })
    (hctl : p'.ctl = if 0 < toInt size then .frame src addr (data.take (toInt size).toNat)
      else .drain src addr)
  | drained {obj : Kcpev T} {src : Source} {addr : Addr} {rb : Option Ringbuf} {chunk : Bytes}
    (hobj : p.world.objs c = some obj) (harrival : tcpArrival c p i = [])
    (hchunk : getTcpBufChunk obj.tcp.rb kcpevBufferSize = .ok (rb, chunk))
    (hobj' : obj' = { obj with tcp := { obj.tcp with rb } })
    (hctl : p'.ctl = if chunk = [] then .loop else .frame src addr chunk)

section Dispatch
variable [KcpImpl K] {p : Process K T} {src : Source} {buf : Bytes} {addr : Addr}
  {a : RecvAnswer} {w' : World K T} {c d : ℕ} {obj' : Kcpev T} {ret : ℤ}

omit [KcpImpl K] in
theorem ClientChange.of_store {w : World K T} (hw : ∀ {obj}, w.objs c = some obj →
    p.world.objs c = some obj) {os : Os K T} {obj : Kcpev T}
    (hobj' : (w.store os d obj).objs c = some obj')
    (hself : c = d → ClientChange p d obj) : ClientChange p c obj' := by
  rcases eq_or_ne c d with heq | hne
  · have hd := hself heq
    rw [heq] at hobj' ⊢
    simp only [World.store, Function.update_self, Option.some.injEq] at hobj'
    rw [← hobj']
    exact hd
  · simp only [World.store, Function.update_of_ne hne] at hobj'
    exact .steady (hw hobj') (.refl obj')

theorem serverRecv_change {client : Option ℕ}
    (hroles : ∀ {key d obj}, (key, d) ∈ p.world.hash → p.world.objs d = some obj →
      obj.hasServer = true)
    (h : ServerRecv p.world client buf addr a w' ret) (hobj' : w'.objs c = some obj')
    (hclient : obj'.hasServer = false) : ClientChange p c obj' := by
  have session : ∀ {command : Command} {d : ℕ} {obj : Kcpev T}, Finds p.world buf command d obj →
      obj.hasServer = true := by
    intro command d obj hfind
    obtain ⟨server, key, -, hserver, hfound, hobj⟩ := hfind
    have hmem : (key, d) ∈ p.world.hash := by
      rw [World.hash_some hserver]
      exact KcpevServer.hashFind_mem hfound
    exact hroles hmem hobj
  have other : ∀ {os : Os K T} {d : ℕ} {obj : Kcpev T},
      (p.world.store os d obj).objs c = some obj' → obj.hasServer = true →
      ClientChange p c obj' := by
    intro os d obj hobj' hserver
    refine .of_store id hobj' fun heq => ?_
    rw [heq] at hobj'
    simp only [World.store, Function.update_self, Option.some.injEq] at hobj'
    rw [← hobj', hserver] at hclient
    cases hclient
  have connected : ∀ {obj obj₂ : Kcpev T} {d : ℕ} {os : Os K T} {r : ℤ},
      connectClientUdp p.world.os d obj addr a = (os, obj₂, r) →
      obj₂.hasServer = obj.hasServer := by
    intro obj obj₂ d os r hconn
    rcases connectClientUdp_cases hconn with ⟨-, heq⟩ | ⟨-, hconnected⟩
    · rw [heq]
    · rw [hconnected.fields]
  cases h with
  | unchanged => exact .steady hobj' (.refl obj')
  | data => exact .steady hobj' (.refl obj')
  | shakeHand1Failed hname hfind hconn =>
    exact other hobj' ((connected hconn).trans (session hfind))
  | shakeHand1 hname hfind hconn =>
    have hserver := (connected hconn).trans (session hfind)
    exact other hobj' hserver
  | shakeHand2Failed hname hfind =>
    have hserver := session hfind
    exact other hobj' hserver
  | shakeHand2 hname hfind =>
    have hserver := session hfind
    exact other hobj' hserver
  | heartbeat1 => exact .steady hobj' (.refl obj')
  | heartbeat2 hclient' hobj =>
    exact .of_store id hobj' fun _ => .steady hobj ⟨rfl, rfl, rfl, Or.inl rfl⟩

theorem clientRecv_change (hctl : p.ctl = .frame src addr buf) (hsrc : src.ToClient p.world d)
    (h : ClientRecv p.world d buf a w' ret) (hobj' : w'.objs c = some obj') :
    ClientChange p c obj' := by
  cases h with
  | unchanged => exact .steady hobj' (.refl obj')
  | data => exact .steady hobj' (.refl obj')
  | shakeHand1Unsent hparse hobj =>
    exact .of_store id hobj' fun _ => .keyed hobj hctl hsrc hparse rfl rfl rfl
  | shakeHand1 hparse hobj =>
    exact .of_store id hobj' fun _ => .keyed hobj hctl hsrc hparse rfl rfl rfl
  | shakeHand2Unsent => exact .steady hobj' (.refl obj')
  | shakeHand2Failed hparse hobj hsock hstatus =>
    exact .of_store id hobj' fun _ => .ready hobj hstatus rfl rfl rfl
  | shakeHand2 hparse hobj hsock hstatus =>
    exact .of_store id hobj' fun _ => .ready hobj hstatus rfl rfl rfl
  | heartbeat1Unsent => exact .steady hobj' (.refl obj')
  | heartbeat1 hobj =>
    exact .of_store id hobj' fun _ => .steady hobj ⟨rfl, rfl, rfl, Or.inl rfl⟩
  | udpInvalid hobj =>
    refine .of_store id hobj' fun _ => .steady hobj ⟨rfl, rfl, rfl, Or.inr ?_⟩
    rw [KcpevUdp.setKcpInvalid_eq]

theorem dispatch_change [ClockImpl T]
    (hroles : ∀ {key d obj}, (key, d) ∈ p.world.hash → p.world.objs d = some obj →
      obj.hasServer = true) (hctl : p.ctl = .frame src addr buf)
    (h : dispatch p.world src addr buf a = .ok (w', ret)) (hobj' : w'.objs c = some obj')
    (hclient : obj'.hasServer = false) : ClientChange p c obj' := by
  have session : ∀ {d : ℕ}, onSessionRecv p.world d buf addr a = .ok (w', ret) →
      ClientChange p c obj' := by
    intro d h
    obtain ⟨client, -, h⟩ := bind_eq_ok.mp h
    split at h
    · cases h
    · exact serverRecv_change hroles (onServerRecv_cases h) hobj' hclient
  unfold dispatch at h
  split at h
  · exact session h
  · exact session h
  · exact clientRecv_change hctl rfl (onClientRecv_cases h) hobj'
  · exact clientRecv_change hctl rfl (onClientRecv_cases h) hobj'
  · exact serverRecv_change hroles (onServerRecv_cases h) hobj' hclient
  · obtain ⟨kcpev, hkcpev, h⟩ := bind_eq_ok.mp h
    split at h
    · exact session h
    · rename_i hserver
      have hto : kcpev.hasServer = false := by simpa using hserver
      exact clientRecv_change hctl ⟨rfl, kcpev, World.kcpev_ok.mp hkcpev, hto⟩
        (onClientRecv_cases h) hobj'

end Dispatch

section Step
variable {p p' : Process K T} {i : Input T} {c d fd : ℕ} {obj' : Kcpev T} {src : Source}
  {addr : Addr} {w' : World K T} {ctl : Control}

theorem tcpReceived_cases {obj : Kcpev T} {data : Bytes} {a : IoAnswer}
    (h : tcpReceived p.world src d obj addr data a = .ok (w', ctl)) :
    ∃ rb size, onTcpRecv obj.tcp.rb data a.newMem a.growMem = .ok (rb, size) ∧
      w'.objs = (p.world.setRb d obj rb).objs ∧
      ctl = if 0 < toInt size then .frame src addr (data.take (toInt size).toNat)
        else .drain src addr := by
  obtain ⟨⟨rb, size⟩, hrecv, h⟩ := bind_eq_ok.mp h
  dsimp only at h
  refine ⟨rb, size, hrecv, ?_⟩
  split at h
  · rename_i hpos
    cases h
    exact ⟨rfl, (if_pos hpos).symm⟩
  · rename_i hpos
    cases h
    exact ⟨rfl, (if_neg hpos).symm⟩

theorem clientStep_received {obj : Kcpev T} {data : Bytes} {q : ℕ} {a : IoAnswer}
    (hinput : i = .io q a) (hobj : p.world.objs d = some obj)
    (hsrc : src = .clientTcpRecv d ∨ src = .serverTcpRecv d)
    (harrival : tcpArrival c p i = if d = c then data else [])
    (h : tcpReceived p.world src d obj addr data a = .ok (w', ctl))
    (hobj' : w'.objs c = some obj') : ClientStep p i { world := w', ctl } c obj' := by
  obtain ⟨rb, size, hrecv, hobjs, hctl⟩ := tcpReceived_cases h
  rw [hobjs] at hobj'
  rcases eq_or_ne d c with heq | hne
  · subst heq
    rw [if_pos rfl] at harrival
    simp only [World.setRb, World.store, Function.update_self, Option.some.injEq] at hobj'
    exact .received hinput hobj harrival hrecv hobj'.symm hctl
  · rw [if_neg hne] at harrival
    simp only [World.setRb, World.store, Function.update_of_ne hne.symm] at hobj'
    refine .idle (.steady hobj' (.refl obj')) harrival fun {addr' buf} hframe => ?_
    have hsrc' : src = .clientTcpRecv c := by
      rw [hctl] at hframe
      split at hframe
      · cases hframe
        rfl
      · cases hframe
    rw [hsrc'] at hsrc
    rcases hsrc with heq | heq
    · cases heq
      exact absurd rfl hne
    · cases heq

theorem drainTcp_cases {obj : Kcpev T} (hobj : p.world.objs d = some obj)
    (h : (do
      let client ← p.world.kcpev d
      let (rb, chunk) ← getTcpBufChunk client.tcp.rb kcpevBufferSize
      let w := p.world.setRb d client rb
      if chunk = [] then return (w, Control.loop)
      else return w.toFrame src addr chunk) = .ok (w', ctl)) :
    ∃ rb chunk, getTcpBufChunk obj.tcp.rb kcpevBufferSize = .ok (rb, chunk) ∧
      w'.objs = (p.world.setRb d obj rb).objs ∧
      ctl = if chunk = [] then .loop else .frame src addr chunk := by
  obtain ⟨client, hclient, h⟩ := bind_eq_ok.mp h
  rw [World.kcpev_ok, hobj] at hclient
  obtain rfl := Option.some.inj hclient
  obtain ⟨⟨rb, chunk⟩, hchunk, h⟩ := bind_eq_ok.mp h
  dsimp only at h
  refine ⟨rb, chunk, hchunk, ?_⟩
  split at h
  · rename_i hempty
    cases h
    exact ⟨rfl, (if_pos hempty).symm⟩
  · rename_i hframe
    cases h
    exact ⟨rfl, (if_neg hframe).symm⟩

theorem clientStep_drained (hctl : p.ctl = .drain src addr) {a : RecvAnswer}
    (hsrc : src = .clientTcpRecv d ∨ src = .serverTcpRecv d)
    (h : (do
      let client ← p.world.kcpev d
      let (rb, chunk) ← getTcpBufChunk client.tcp.rb kcpevBufferSize
      let w := p.world.setRb d client rb
      if chunk = [] then return (w, Control.loop)
      else return w.toFrame src addr chunk) = .ok (w', ctl))
    (hobj' : w'.objs c = some obj') : ClientStep p (.round a) { world := w', ctl } c obj' := by
  have hlive : ∃ obj, p.world.objs d = some obj := by
    obtain ⟨client, hclient, -⟩ := bind_eq_ok.mp h
    exact ⟨client, World.kcpev_ok.mp hclient⟩
  obtain ⟨obj, hobj⟩ := hlive
  obtain ⟨rb, chunk, hchunk, hobjs, hctl'⟩ := drainTcp_cases hobj h
  rw [hobjs] at hobj'
  rcases eq_or_ne d c with heq | hne
  · subst heq
    simp only [World.setRb, World.store, Function.update_self, Option.some.injEq] at hobj'
    exact .drained hobj rfl hchunk hobj'.symm hctl'
  · simp only [World.setRb, World.store, Function.update_of_ne hne.symm] at hobj'
    refine .idle (.steady hobj' (.refl obj')) rfl fun {addr' buf} hframe => ?_
    have hsrc' : src = .clientTcpRecv c := by
      rw [hctl'] at hframe
      split at hframe
      · cases hframe
      · cases hframe
        rfl
    rw [hsrc'] at hsrc
    rcases hsrc with heq | heq
    · cases heq
      exact absurd rfl hne
    · cases heq

theorem ClientChange.of_steady (h : p.world.Steady w') (hobj' : w'.objs c = some obj') :
    ClientChange p c obj' := by
  rcases h.objs hobj' with ⟨obj, hobj, hsteady⟩ | ⟨hc, hfresh⟩
  · exact .steady hobj hsteady
  · exact .fresh hc hfresh

theorem ClientStep.of_steady (h : p.world.Steady w' ∧ ctl.offTcp = true)
    (harrival : tcpArrival c p i = []) (hobj' : w'.objs c = some obj') :
    ClientStep p i { world := w', ctl } c obj' := by
  obtain ⟨hsteady, hctl⟩ := h
  refine .idle (.of_steady hsteady hobj') harrival fun {addr buf} hframe => ?_
  dsimp only at hframe
  rw [hframe] at hctl
  cases hctl

theorem tcpArrival_other {q : ℕ} {a : IoAnswer}
    (hnone : ∀ e, p.ctl = .loop → p.world.os.ios q = some e → False) :
    tcpArrival c p (.io q a) = [] := by
  dsimp only [tcpArrival]
  split
  · rename_i e hctl he
    exact (hnone e hctl he).elim
  · rfl

variable [KcpImpl K] [ClockImpl T]

theorem client_step
    (hroles : ∀ {key d obj}, (key, d) ∈ p.world.hash → p.world.objs d = some obj →
      obj.hasServer = true) (h : step p i = .ok p') (hobj' : p'.world.objs c = some obj')
    (hclient : obj'.hasServer = false) : ClientStep p i p' c obj' := by
  unfold step at h
  split at h
  · obtain ⟨⟨w₁, ctl₁⟩, hround, h⟩ := bind_eq_ok.mp h
    cases h
    unfold callbackRound at hround
    split at hround
    · cases hround
      exact .of_steady ⟨.refl _, rfl⟩ rfl hobj'
    · rename_i src addr hctl
      rcases src with d | d | d | d | _ | ⟨d, q⟩
      · exact clientStep_drained hctl (Or.inr rfl) hround hobj'
      · exact clientStep_drained hctl (Or.inl rfl) hround hobj'
      · cases hround
        exact .of_steady ⟨.refl _, rfl⟩ rfl hobj'
      · cases hround
        exact .of_steady ⟨.refl _, rfl⟩ rfl hobj'
      · cases hround
        exact .of_steady ⟨.refl _, rfl⟩ rfl hobj'
      · exact .of_steady (drainKcp_steady hround) rfl hobj'
    · rename_i src addr buf hctl
      obtain ⟨⟨w₂, ret⟩, hdispatch, hround⟩ := bind_eq_ok.mp hround
      obtain ⟨ctl₂, hctl₂, hround⟩ := bind_eq_ok.mp hround
      cases hround
      refine .idle (dispatch_change hroles hctl hdispatch hobj' hclient) rfl fun hframe => ?_
      dsimp only at hframe
      rw [hframe] at hctl₂
      exact absurd hctl₂ dispatched_ne_frame
    · rename_i d hctl
      obtain ⟨w₂, hclose, hround⟩ := bind_eq_ok.mp hround
      cases hround
      obtain ⟨client, server, -, -, -, rfl⟩ := World.closeClient_cases hclose
      have hobj : p.world.objs c = some obj' := World.objs_destroyKcpev _ hobj'
      exact .idle (.steady hobj (.refl obj')) rfl fun hframe => by cases hframe
  · split at h
    · rename_i q a _ _ e hctl he
      obtain ⟨⟨w₁, ctl₁⟩, hio, h⟩ := bind_eq_ok.mp h
      cases h
      have harrival : tcpArrival c p (.io q a) =
          if e.data = .kcpev c ∧ (e.cb = .clientTcpRecv ∨ e.cb = .serverTcpRecv) then
            (recv p.world.os e.fd kcpevBufferSize a.recv).getD []
          else [] := by
        simp only [tcpArrival, hctl, he]
      unfold ioEvent at hio
      split at hio
      · rename_i hcb hdata
        obtain ⟨w₂, haccept, hio⟩ := bind_eq_ok.mp hio
        cases hio
        refine .of_steady ⟨steady_tcpAccept haccept, rfl⟩ ?_ hobj'
        rw [harrival, if_neg (by simp [hdata])]
      · rename_i hcb hdata
        have hsteady := serverUdpRecvAll_steady p.world e.fd a
        rw [Except.ok.inj hio] at hsteady
        refine .of_steady hsteady ?_ hobj'
        rw [harrival, if_neg (by simp [hdata])]
      · rename_i d hcb hdata
        obtain ⟨client, hobj, hio⟩ := bind_eq_ok.mp hio
        rw [World.kcpev_ok] at hobj
        split at hio
        · rename_i hrecv
          cases hio
          refine .idle (.steady hobj' (.refl obj')) ?_ fun hframe => by cases hframe
          rw [harrival, hrecv]
          split <;> rfl
        · rename_i data hrecv
          refine clientStep_received rfl hobj (Or.inr rfl) ?_ hio hobj'
          rw [harrival, hrecv, hdata, hcb]
          simp
      · rename_i d hcb hdata
        refine .of_steady (serverUdpRecv_steady hio) ?_ hobj'
        rw [harrival, if_neg (by simp [hcb])]
      · rename_i d hcb hdata
        unfold clientTcpRecv at hio
        split at hio
        · cases hio
        · rename_i data hrecv
          obtain ⟨client, hobj, hio⟩ := bind_eq_ok.mp hio
          rw [World.kcpev_ok] at hobj
          refine clientStep_received rfl hobj (Or.inl rfl) ?_ hio hobj'
          rw [harrival, hrecv, hdata, hcb]
          simp
      · rename_i d hcb hdata
        refine .of_steady (clientUdpRecv_steady hio) ?_ hobj'
        rw [harrival, if_neg (by simp [hcb])]
      · rename_i hother₁ hother₂ hother₃ hother₄ hother₅ hother₆
        cases hio
        refine .of_steady ⟨.refl _, rfl⟩ ?_ hobj'
        rw [harrival, if_neg]
        rintro ⟨hdata, hcb | hcb⟩
        · exact hother₅ c hcb hdata
        · exact hother₃ c hcb hdata
    · rename_i hnone
      cases h
      exact .idle (.steady hobj' (.refl obj')) (tcpArrival_other hnone) id
  · split at h
    · obtain ⟨⟨w₁, ctl₁⟩, htimer, h⟩ := bind_eq_ok.mp h
      cases h
      exact .of_steady (timerEvent_steady htimer) rfl hobj'
    · cases h
      exact .idle (.steady hobj' (.refl obj')) rfl id
  · split at h
    · obtain ⟨w₁, hdestroy, h⟩ := bind_eq_ok.mp h
      cases h
      exact .idle (.steady (World.objs_serverDestroy hdestroy hobj') (.refl obj')) rfl id
    · cases h
      exact .idle (.steady hobj' (.refl obj')) rfl id
  · rename_i hround hio htimer hdestroy
    have harrival : tcpArrival c p i = [] := by
      unfold tcpArrival
      split
      · rename_i q a
        exact (hio q a rfl).elim
      · rfl
    split at h
    · obtain ⟨w₁, happly, h⟩ := bind_eq_ok.mp h
      cases h
      exact .idle (.of_steady (apply_steady happly) hobj') harrival id
    · cases h
      exact .idle (.steady hobj' (.refl obj')) harrival id

end Step

end KcpEv
