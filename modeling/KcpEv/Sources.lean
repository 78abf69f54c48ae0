import KcpEv.Acts

/-!
Where a frame comes from says what its object is like. A datagram is dispatched as a
frame only while the KCP object of its client is not in use, and a callback drains
the KCP object that its client has.
-/
namespace KcpEv

variable {K T : Type}

/-- A datagram was taken for a frame only because the KCP object is not in use. -/
def Control.Raw (w : World K T) : Control → Prop
  | .frame (.serverUdpRecv c) _ _ | .frame (.clientUdpRecv c) _ _ =>
    ∀ obj, w.objs c = some obj → ¬ obj.udp.isKcpValid
  | .loop | .frame .. | .drain .. | .closing _ => True

variable [KcpImpl K]

section
variable {w w' : World K T} {src : Source} {addr : Addr} {buf : Bytes} {c : ℕ} {ctl : Control}

omit [KcpImpl K] in
theorem tcpReceived_raw {client : Kcpev T} {data : Bytes} {a : IoAnswer}
    (hsrc : src = .serverTcpRecv c ∨ src = .clientTcpRecv c)
    (h : tcpReceived w src c client addr data a = .ok (w', ctl)) : ctl.Raw w' := by
  obtain ⟨⟨rb, size⟩, hrecv, h⟩ := bind_eq_ok.mp h
  dsimp only at h
  split at h
  · cases h
    rcases hsrc with rfl | rfl
    · trivial
    · trivial
  · cases h
    trivial

theorem kcpReceived_raw {client : Kcpev T} {data : Bytes}
    (h : kcpReceived w c client data = .ok (w', ctl)) : ctl.Raw w' := by
  obtain ⟨obj, q, -, -, rfl⟩ := kcpReceived_kcp h
  trivial

theorem drainRound_raw (h : drainRound w src addr = .ok (w', ctl)) : ctl.Raw w' := by
  rcases ctl with _ | ⟨src', addr', buf⟩ | _ | _
  · trivial
  · obtain rfl := drainRound_source h rfl
    cases src' with
    | serverUdpRecv c => cases h
    | clientUdpRecv c => cases h
    | _ => trivial
  · trivial
  · trivial
end

section Step
variable [ClockImpl T] {p p' : Process K T} {i : Input T}

theorem ioEvent_raw {w w' : World K T} {e : EvIo} {a : IoAnswer} {ctl : Control}
    (h : ioEvent w e a = .ok (w', ctl)) : ctl.Raw w' := by
  unfold ioEvent at h
  split at h
  · obtain ⟨w₁, -, h⟩ := bind_eq_ok.mp h
    cases h
    trivial
  · have hall := Except.ok.inj h
    unfold serverUdpRecvAll at hall
    split at hall
    · cases hall
      trivial
    · cases hall
      trivial
  · obtain ⟨client, -, h⟩ := bind_eq_ok.mp h
    split at h
    · cases h
      trivial
    · exact tcpReceived_raw (Or.inl rfl) h
  · unfold serverUdpRecv at h
    split at h
    · cases h
      trivial
    obtain ⟨client, hclient, h⟩ := bind_eq_ok.mp h
    rw [World.kcpev_ok] at hclient
    split at h
    · rename_i hinvalid
      split at h
      · cases h
        trivial
      · cases h
        intro obj hobj
        have hsame : w.objs _ = some obj := hobj
        rw [hclient, Option.some.injEq] at hsame
        rw [← hsame]
        exact hinvalid
    · exact kcpReceived_raw h
  · unfold clientTcpRecv at h
    split at h
    · cases h
    obtain ⟨client, -, h⟩ := bind_eq_ok.mp h
    exact tcpReceived_raw (Or.inr rfl) h
  · unfold clientUdpRecv at h
    split at h
    · cases h
      trivial
    obtain ⟨client, hclient, h⟩ := bind_eq_ok.mp h
    rw [World.kcpev_ok] at hclient
    split at h
    · rename_i hinvalid
      cases h
      intro obj hobj
      have hsame : w.objs _ = some obj := hobj
      rw [hclient, Option.some.injEq] at hsame
      rw [← hsame]
      exact hinvalid
    · exact kcpReceived_raw h
  · cases h
    trivial

theorem timerEvent_raw {w w' : World K T} {e : EvTimer} {a : TimerAnswer} {ctl : Control}
    (h : timerEvent w e a = .ok (w', ctl)) : ctl.Raw w' := by
  unfold timerEvent at h
  split at h
  · obtain ⟨w₁, -, h⟩ := bind_eq_ok.mp h
    obtain ⟨obj, q, -, -, rfl⟩ := tryKcpRecv_kcp h
    trivial
  · obtain ⟨w₁, -, h⟩ := bind_eq_ok.mp h
    cases h
    trivial
  · obtain ⟨w₁, -, h⟩ := bind_eq_ok.mp h
    cases h
    trivial
  · cases h
    trivial

/-- Nothing comes between the taking of a datagram and its dispatch. -/
theorem step_raw (hp : p.ctl.Raw p.world) (h : step p i = .ok p') : p'.ctl.Raw p'.world := by
  have idle : ∀ {w : World K T}, p.ctl.appMayCall = true → p.ctl.Raw w := by
    intro w hmay
    rcases hctl : p.ctl with _ | ⟨src, addr, buf⟩ | _ | _
    · trivial
    · rw [hctl] at hmay
      cases hmay
    · trivial
    · trivial
  unfold step at h
  split at h
  · obtain ⟨⟨w₁, ctl₁⟩, hround, h⟩ := bind_eq_ok.mp h
    cases h
    unfold callbackRound at hround
    split at hround
    · cases hround
      trivial
    · exact drainRound_raw hround
    · obtain ⟨⟨w₂, ret⟩, -, hround⟩ := bind_eq_ok.mp hround
      obtain ⟨ctl₂, hnext, hround⟩ := bind_eq_ok.mp hround
      cases hround
      rcases ctl₁ with _ | ⟨src', addr', buf'⟩ | _ | _
      · trivial
      · exact absurd hnext dispatched_ne_frame
      · trivial
      · trivial
    · obtain ⟨w₂, -, hround⟩ := bind_eq_ok.mp hround
      cases hround
      trivial
  · split at h
    · obtain ⟨⟨w₁, ctl₁⟩, hio, h⟩ := bind_eq_ok.mp h
      cases h
      exact ioEvent_raw hio
    · cases h
      exact hp
  · split at h
    · obtain ⟨⟨w₁, ctl₁⟩, htimer, h⟩ := bind_eq_ok.mp h
      cases h
      exact timerEvent_raw htimer
    · cases h
      exact hp
  · split at h
    · rename_i hctl
      obtain ⟨w₁, -, h⟩ := bind_eq_ok.mp h
      cases h
      rw [hctl]
      trivial
    · cases h
      exact hp
  · split at h
    · rename_i hmay
      obtain ⟨w₁, -, h⟩ := bind_eq_ok.mp h
      cases h
      exact idle hmay
    · cases h
      exact hp

end Step

/-- A callback that drains a KCP object drains that of its client. -/
def Control.Drains (w : World K T) (c : ℕ) (ctl : Control) : Prop :=
  ∀ q, ctl.source = some (.tryKcpRecv c q) →
    c < w.os.next ∧ ∀ obj, w.objs c = some obj → obj.udp.kcp = some q

section Act
variable [ClockImpl T] {p p' : Process (Logged K) T} {i : Input T} {c : ℕ} {obj obj' : Kcpev T}
  {t : Traffic}

/-- Only the first message of a handshake brings another KCP object. -/
theorem Act.kcp (h : Act p i c obj obj' t) : obj'.udp.kcp = obj.udp.kcp ∨
    ∃ src addr buf a data, Dispatches p i src addr buf a ∧ Parses buf .shakeHand1 data := by
  cases h with
  | still hstill => exact Or.inl hstill.kcp
  | data hobj => exact Or.inl (by rw [hobj])
  | segments _ hobj => exact Or.inl (by rw [hobj])
  | ask _ _ _ _ hobj => exact Or.inl (by rw [hobj])
  | clientLate _ _ _ hobj =>
    rw [hobj, KcpevUdp.setKcpInvalid_eq]
    exact Or.inl rfl
  | serverLate _ _ _ _ _ hobj =>
    rw [hobj, KcpevUdp.setKcpInvalid_eq]
    exact Or.inl rfl
  | reply _ _ _ _ _ _ hobj => exact Or.inl (by rw [hobj])
  | refresh _ _ _ _ _ _ _ _ hobj => exact Or.inl (by rw [hobj])
  | echo _ _ _ _ _ _ _ hobj => exact Or.inl (by rw [hobj])
  | told _ _ _ _ hobj =>
    rw [hobj, KcpevUdp.setKcpInvalid_eq]
    exact Or.inl rfl
  | keyed _ _ _ _ _ hobj =>
    rw [hobj]
    dsimp only
    split
    · exact Or.inl rfl
    · exact Or.inl rfl
  | confirm _ _ _ _ _ hstill => exact Or.inl hstill.kcp
  | ready _ _ _ _ _ _ _ hobj =>
    rw [hobj]
    exact Or.inl rfl
  | cleared hframe _ _ hfind =>
    obtain ⟨server, key, hparse, -⟩ := hfind
    exact Or.inr ⟨_, _, _, _, _, hframe, hparse⟩
  | connected hframe _ hfind =>
    obtain ⟨server, key, hparse, -⟩ := hfind
    exact Or.inr ⟨_, _, _, _, _, hframe, hparse⟩
  | started _ _ _ _ _ hobj =>
    rw [hobj]
    exact Or.inl rfl

/-- An object that lives after a step was born in it, or it has lived before. -/
theorem step_object (hp : p.Typed) (hsep : p.world.Separate) (h : step p i = .ok p')
    (hobj' : p'.world.objs c = some obj') :
    (p.world.objs c = none ∧ Birth obj' (p.world.traffic p'.world c)) ∨
      ∃ obj, p.world.objs c = some obj ∧ obj'.hasServer = obj.hasServer ∧
        Act p i c obj obj' (p.world.traffic p'.world c) := by
  rcases hobj : p.world.objs c with _ | obj
  · exact Or.inl ⟨rfl, step_birth hp hsep h hobj hobj'⟩
  · obtain ⟨obj₀, hobj₀, hserver⟩ :=
      (typed_effect hp.world (step_effect hp h)).ages.objs (hp.world.lt_next hobj) hobj'
    rw [hobj, Option.some.injEq] at hobj₀
    rw [← hobj₀] at hserver
    exact Or.inr ⟨obj, rfl, hserver, step_act hp hsep h hobj hobj'⟩

/-- A client whose KCP object gives no first message of a handshake drains the KCP
object it has. -/
theorem step_drains (hp : p.Typed) (hsep : p.world.Separate) (hdrains : p.ctl.Drains p.world c)
    (hframe : ∀ {q addr buf a data}, Dispatches p i (.tryKcpRecv c q) addr buf a →
      ¬ Parses buf .shakeHand1 data)
    (h : step p i = .ok p') : p'.ctl.Drains p'.world c := by
  have hages := (typed_effect hp.world (step_effect hp h)).ages
  intro q hsrc
  have hold : c < p.world.os.next ∧ ∀ obj, p.world.objs c = some obj → obj.udp.kcp = some q := by
    rcases (step_started h).2 c q hsrc with hsame | ⟨obj, hobj, hkcp⟩
    · exact hdrains q hsame
    · refine ⟨hp.world.lt_next hobj, fun obj' hobj' => ?_⟩
      rw [hobj, Option.some.injEq] at hobj'
      rw [← hobj']
      exact hkcp
  refine ⟨hold.1.trans_le hages.next, fun obj' hobj' => ?_⟩
  obtain ⟨obj, hobj, -⟩ := hages.objs hold.1 hobj'
  rcases (step_act hp hsep h hobj hobj').kcp with hkcp |
    ⟨src, addr, buf, a, data, hdispatch, hparse⟩
  · rw [hkcp]
    exact hold.2 obj hobj
  · have hsame : src = .tryKcpRecv c q := by
      obtain ⟨hctl, rfl⟩ := hdispatch
      obtain ⟨⟨w₁, ctl₁⟩, hround, h⟩ := bind_eq_ok.mp h
      cases h
      have hsource := callbackRound_source hround hsrc
      rw [hctl] at hsource
      exact Option.some.inj hsource
    rw [hsame] at hdispatch
    exact absurd hparse (hframe hdispatch)

/-! The frames an object gives to its KCP object and puts on its connection. -/

/-- A frame that the KCP object accepts. -/
inductive Given (p : Process (Logged K) T) (i : Input T) (c : ℕ) (obj : Kcpev T) : Bytes → Prop
  | data {msg frame : Bytes} (hframe : Frame .data msg frame) : Given p i c obj frame
  | ask {frame : Bytes} (hframe : Frame .heartbeat1 obj.key.val frame) : Given p i c obj frame
  | reply {src : Source} {addr : Addr} {buf frame : Bytes} {a : RecvAnswer}
    (hdispatch : Dispatches p i src addr buf a) (hsrc : src.ToSession c)
    (hserver : obj.hasServer = true) (hvalid : obj.udp.isKcpValid)
    (hparse : Parses buf .heartbeat1 obj.key.val)
    (hframe : Frame .heartbeat1 (obj.key.val ++ htobe64 (ClockImpl.bits obj.udp.heart)) frame) :
    Given p i c obj frame
  | echo {src : Source} {addr : Addr} {buf data frame : Bytes} {a : RecvAnswer}
    (hdispatch : Dispatches p i src addr buf a) (hsrc : src.ToClient p.world c)
    (hvalid : obj.udp.isKcpValid) (hparse : Parses buf .heartbeat1 data)
    (hlen : data.length = heartbeatSize) (hframe : Frame .heartbeat2 data frame) :
    Given p i c obj frame

theorem Act.given (h : Act p i c obj obj' t) {frame : Bytes} (hframe : frame ∈ t.kcp) :
    Given p i c obj frame := by
  cases h with
  | data _ hkcp =>
    obtain ⟨msg, hdata⟩ := hkcp frame hframe
    exact .data hdata
  | ask _ _ _ hask =>
    rw [List.mem_singleton.mp hframe]
    exact .ask hask
  | reply hdispatch hsrc hserver hvalid hparse hreply =>
    rw [List.mem_singleton.mp hframe]
    exact .reply hdispatch hsrc hserver hvalid hparse hreply
  | echo hdispatch hsrc hvalid hparse hlen _ hecho =>
    rw [List.mem_singleton.mp hframe]
    exact .echo hdispatch hsrc hvalid hparse hlen hecho
  | still | segments | clientLate | serverLate | refresh | told | keyed | confirm | ready
  | cleared | connected | started => cases hframe

omit [KcpImpl K] in
/-- KCP carries nothing of a handshake and no notification. -/
theorem Given.command {frame data : Bytes} {command : Command} (h : Given p i c obj frame)
    (hparse : Parses frame command data) :
    command = .data ∨ command = .heartbeat1 ∨ command = .heartbeat2 := by
  cases h with
  | data hframe => exact Or.inl (hframe.parses.unique hparse).1
  | ask hframe => exact Or.inr (Or.inl (hframe.parses.unique hparse).1)
  | reply _ _ _ _ _ hframe => exact Or.inr (Or.inl (hframe.parses.unique hparse).1)
  | echo _ _ _ _ _ hframe => exact Or.inr (Or.inr (hframe.parses.unique hparse).1)

/-- A message that is put on the connection, or the part of it that was accepted. -/
inductive Put (obj : Kcpev T) : Bytes → Prop
  | data {msg frame : Bytes} {k : ℕ} (hframe : Frame .data msg frame) : Put obj (frame.take k)
  | late {frame : Bytes} {k : ℕ} (hframe : Frame .udpInvalid obj.key.val frame) :
    Put obj (frame.take k)

omit [KcpImpl K] [ClockImpl T] in
theorem Parts.put {ret : ℤ} {bufs : List Bytes} {buf : Bytes}
    (h : Parts .udpInvalid obj.key.val ret bufs) (hbuf : buf ∈ bufs) : Put obj buf := by
  cases h with
  | unsent => cases hbuf
  | part hframe =>
    rw [List.mem_singleton.mp hbuf]
    exact .late hframe
  | @whole frame hframe =>
    have hput : Put obj (frame.take frame.length) := .late hframe
    rw [List.take_length] at hput
    rw [List.mem_singleton.mp hbuf]
    exact hput

theorem Act.put (h : Act p i c obj obj' t) {buf : Bytes} (hbuf : buf ∈ t.tcp) : Put obj buf := by
  cases h with
  | data _ _ htcp =>
    obtain ⟨msg, frame, k, hframe, rfl⟩ := htcp buf hbuf
    exact .data hframe
  | serverLate _ _ _ _ hparts =>
    dsimp only at hbuf
    split at hbuf
    · cases hbuf
    · exact hparts.put hbuf
  | still | segments | ask | clientLate | reply | refresh | echo | told | keyed | confirm | ready
  | cleared | connected | started => cases hbuf

omit [KcpImpl K] in
theorem Birth.kcp (h : Birth obj t) : t.kcp = [] := by
  cases h with
  | client => rfl
  | session => rfl

omit [KcpImpl K] in
theorem Birth.heart (h : Birth obj t) (hserver : obj.hasServer = true) :
    obj.udp.heart = ClockImpl.zero := by
  cases h with
  | client hclient =>
    rw [hserver] at hclient
    cases hclient
  | session _ hudp =>
    rw [hudp]
    rfl

omit [KcpImpl K] in
theorem Birth.tcp (h : Birth obj t) {buf : Bytes} (hbuf : buf ∈ t.tcp) :
    obj.hasServer = true ∧ Frame .shakeHand1 obj.key.val buf := by
  cases h with
  | client => cases hbuf
  | session hserver _ _ hframe =>
    rw [List.mem_singleton.mp hbuf]
    exact ⟨hserver, hframe⟩

theorem step_given (hp : p.Typed) (hsep : p.world.Separate) (h : step p i = .ok p')
    {frame : Bytes} (hframe : frame ∈ (p.world.traffic p'.world c).kcp) :
    ∃ obj, p.world.objs c = some obj ∧ Given p i c obj frame := by
  rcases hobj' : p'.world.objs c with _ | obj'
  · simp [World.traffic, hobj', Traffic.none] at hframe
  rcases step_object hp hsep h hobj' with ⟨-, hbirth⟩ | ⟨obj, hobj, -, hact⟩
  · rw [hbirth.kcp] at hframe
    cases hframe
  · exact ⟨obj, hobj, hact.given hframe⟩

/-- What is put on a connection was put by an object that was there, or is the key of a new
session. -/
theorem step_put (hp : p.Typed) (hsep : p.world.Separate) (h : step p i = .ok p') {buf : Bytes}
    (hbuf : buf ∈ (p.world.traffic p'.world c).tcp) :
    (∃ obj, p.world.objs c = some obj ∧ Put obj buf) ∨
      ∃ obj', p'.world.objs c = some obj' ∧ obj'.hasServer = true ∧
        Frame .shakeHand1 obj'.key.val buf := by
  rcases hobj' : p'.world.objs c with _ | obj'
  · simp [World.traffic, hobj', Traffic.none] at hbuf
  rcases step_object hp hsep h hobj' with ⟨-, hbirth⟩ | ⟨obj, hobj, -, hact⟩
  · exact Or.inr ⟨obj', rfl, hbirth.tcp hbuf⟩
  · exact Or.inl ⟨obj, hobj, hact.put hbuf⟩

end Act

end KcpEv
