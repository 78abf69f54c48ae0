import KcpEv.Leaks
import KcpEv.Returns

/-!
A process never uses an object that is gone, follows a null pointer, leaves a buffer,
reads what was not set or fails an assertion, in all runs that stay clear of the
places where the library itself drops or loses something. A client may call `exit`.
-/
namespace KcpEv

open Guarded Outcomes TcpRecv

variable {K T : Type} {allowed : Stop → Prop}

/-! The loop. -/

/-- What the application may call: it uses objects that are there, and sends messages
whose length does not wrap in `pack_send_buf`. -/
def Input.Refers (w : World K T) : Input T → Prop
  | .setCb c | .connect c _ _ => ∃ obj, w.objs c = some obj
  | .send c msg _ | .sendTcp c msg _ => (∃ obj, w.objs c = some obj) ∧ msg.length + 8 < 2 ^ 32
  | .serverSetCb | .serverDestroy => ∃ server, w.server = some server
  | .createClient _ | .createServer _ | .now _ | .io .. | .timer .. | .round _ => True

/-- The step is one of `client_tcp_recv`, which exits when the connection ends or a
frame is rejected. -/
inductive Process.InClientTcp (p : Process K T) : Input T → Prop
  | io {q : ℕ} {e : EvIo} {a : IoAnswer} (he : p.world.os.ios q = some e)
    (hcb : e.cb = .clientTcpRecv) : InClientTcp p (.io q a)
  | round {c : ℕ} {addr : Addr} {buf : Bytes} {a : RecvAnswer}
    (hctl : p.ctl = .frame (.clientTcpRecv c) addr buf) : InClientTcp p (.round a)

section Loop
variable [KcpImpl K]

/-- A step stays clear of the places where something is dropped or lost. -/
structure Process.Careful (p : Process K T) (i : Input T) : Prop where
  nothing : p.DropsNothing i
  whole : p.AcceptsWhole i
  kcp : p.KeepsKcp i
  drains : p.DrainsOn i
  /-- there is memory for the first timer -/
  serverTimer : ∀ buf addr a c obj, ServerFrame p i buf addr a →
    Finds p.world buf .shakeHand2 c obj → obj.udp.status = .shakingHand → obj.udp.evt = none →
      a.evt = true
  clientTimer : ∀ c buf a obj, ClientFrame p i c buf a → p.world.objs c = some obj →
    Parses buf .shakeHand2 obj.key.val → obj.udp.status = .shakingHand → obj.udp.evt = none →
      a.evt = true
  /-- the application has set its callbacks -/
  serverCb : ∀ buf addr a data server, ServerFrame p i buf addr a → Parses buf .data data →
    p.world.server = some server → server.hasRecvCb = true
  clientCb : ∀ c buf a data obj, ClientFrame p i c buf a → Parses buf .data data →
    p.world.objs c = some obj → obj.hasRecvCb = true
  /-- `ikcp_recv` leaves room for the zero behind the message -/
  room : ∀ c q addr k msg, p.ctl = .drain (.tryKcpRecv c q) addr → p.world.os.kcps q = some k →
    (KcpImpl.recv k.state kcpevBufferSize).2 = some msg → msg.length < kcpevBufferSize
  app : i.Refers p.world

/-- What holds between the steps. -/
structure Process.Intact (known : List (KcpevKey × ℕ)) (p : Process K T) : Prop where
  world : p.world.Intact known
  typed : p.Typed
  running : p.ctl.Runs p.world

variable {p : Process K T} {i : Input T} {known : List (KcpevKey × ℕ)} {w : World K T}

theorem drainRound_ends (h : w.Intact known) {src : Source} (hruns : src.Runs w) (addr : Addr)
    (hroom : ∀ c q k msg, src = .tryKcpRecv c q → w.os.kcps q = some k →
      (KcpImpl.recv k.state kcpevBufferSize).2 = some msg → msg.length < kcpevBufferSize) :
    Ends allowed (fun x => x.2.Runs w) (drainRound w src addr) := by
  have stream : ∀ {c : ℕ} {src : Source} {obj : Kcpev T}, w.objs c = some obj → src.Runs w →
      Ends allowed (fun x => x.2.Runs w) (do
        let client ← w.kcpev c
        let r ← TcpRecv.getTcpBufChunk client.tcp.rb kcpevBufferSize
        if r.2 = [] then return (w.setRb c client r.1, Control.loop)
        else return (w.setRb c client r.1).toFrame src addr r.2) := by
    intro c src obj hobj hruns
    refine Ends.bind (World.kcpev_ends hobj) ?_
    rintro client - rfl
    obtain ⟨rb, frame, hchunk, -⟩ := TcpSafety.getTcpBufChunk_ok (h.rings.ring hobj)
    refine Ends.bind (.of_ok hchunk) ?_
    rintro ⟨rb', frame'⟩ - -
    refine Ends.ite (fun _ => ?_) fun _ => ?_
    · trivial
    · exact hruns
  rcases src with c | c | c | c | _ | ⟨c, q⟩
  · obtain ⟨obj, hobj, -⟩ := id hruns
    exact stream hobj hruns
  · obtain ⟨obj, hobj⟩ := id hruns
    exact stream hobj hruns
  · trivial
  · trivial
  · trivial
  · obtain ⟨obj, hobj, hkcp⟩ := id hruns
    obtain ⟨k, hk⟩ := h.kcpLive hobj q hkcp
    have hrecv : w.ikcpRecv q kcpevBufferSize =
        .ok ({ w with os := w.os.setKcp q { k with
          state := (KcpImpl.recv k.state kcpevBufferSize).1 } },
          (KcpImpl.recv k.state kcpevBufferSize).2) := by
      simp [World.ikcpRecv, hk]
    refine Ends.bind (.of_ok hrecv) ?_
    rintro ⟨w₁, answer⟩ hw₁ -
    rw [hrecv] at hw₁
    obtain ⟨rfl, hanswer⟩ := Prod.mk.inj (Except.ok.inj hw₁)
    rcases answer with _ | _ | ⟨b, rest⟩
    · trivial
    · trivial
    have hlen := hroom c q k _ rfl hk hanswer
    refine Ends.ite (fun hfull => absurd hlen (not_lt.mpr hfull)) fun _ => ?_
    refine Ends.bind (World.kcpev_ends hobj) ?_
    rintro obj' - rfl
    refine Ends.ite (fun _ => ?_) fun _ => ?_
    · split
      · trivial
      · exact hruns
    · exact hruns

variable [ClockImpl T]

theorem dispatch_ends (h : p.Intact known) (hok : p.Careful i) {src : Source} {addr : Addr}
    {buf : Bytes} {a : RecvAnswer} (hctl : p.ctl = .frame src addr buf) (hi : i = .round a) :
    Ends allowed (fun _ => True) (dispatch p.world src addr buf a) := by
  have hruns : src.Runs p.world := by
    have hrunning := h.running
    rw [hctl] at hrunning
    exact hrunning
  have server : ∀ {server : KcpevServer T} {client : Option ℕ}, src.ToServer p.world →
      p.world.server = some server → (∀ c, client = some c → ∃ obj, p.world.objs c = some obj) →
      Ends allowed (fun _ => True) (onServerRecv p.world client buf addr a) := by
    intro server client hto hserver hclient
    refine onServerRecv_ends h.world hserver hclient addr (fun hname data hparse => ?_)
      fun hname c obj => ?_
    · exact hok.serverCb buf addr a data server ⟨src, hctl, hi, hto, hname⟩ hparse hserver
    · exact hok.serverTimer buf addr a c obj ⟨src, hctl, hi, hto, hname⟩
  have session : ∀ {c : ℕ} {obj : Kcpev T}, src.ToServer p.world → p.world.objs c = some obj →
      obj.hasServer = true → Ends allowed (fun _ => True) (onSessionRecv p.world c buf addr a) := by
    intro c obj hto hobj hsession
    obtain ⟨srv, hserver⟩ := h.world.server hobj hsession
    refine Ends.bind (World.kcpev_ends hobj) ?_
    rintro obj' - rfl
    refine Ends.ite (fun hno => absurd hsession hno) fun _ => ?_
    refine server hto hserver fun d hd => ?_
    cases hd
    exact ⟨obj', hobj⟩
  have client : ∀ {c : ℕ} {obj : Kcpev T}, src.ToClient p.world c → p.world.objs c = some obj →
      Ends allowed (fun _ => True) (onClientRecv p.world c buf a) := by
    intro c obj hto hobj
    have hframe : ClientFrame p i c buf a := ⟨src, addr, hctl, hi, hto⟩
    exact onClientRecv_ends h.world hobj (hframe.client h.typed hobj)
      (fun data hparse => hok.clientCb c buf a data obj hframe hparse hobj)
      fun hparse hstatus hnone => hok.clientTimer c buf a obj hframe hobj hparse hstatus hnone
  rcases src with c | c | c | c | _ | ⟨c, q⟩
  · obtain ⟨obj, hobj, hsession⟩ := hruns
    exact session trivial hobj hsession
  · obtain ⟨obj, hobj⟩ := hruns
    exact client rfl hobj
  · obtain ⟨obj, hobj, hsession⟩ := hruns
    exact session trivial hobj hsession
  · obtain ⟨obj, hobj⟩ := hruns
    exact client rfl hobj
  · obtain ⟨srv, hserver⟩ := hruns
    exact server trivial hserver nofun
  · obtain ⟨obj, hobj, -⟩ := hruns
    refine Ends.bind (World.kcpev_ends hobj) ?_
    rintro obj' - rfl
    refine Ends.ite (fun hsession => ?_) fun hclient => ?_
    · exact session ⟨obj', hobj, hsession⟩ hobj hsession
    · exact client ⟨rfl, obj', hobj, by simpa using hclient⟩ hobj

omit [KcpImpl K] [ClockImpl T] in
/-- Where a callback goes on; only `client_tcp_recv` exits. -/
theorem dispatched_ends {src : Source} (hruns : src.Runs w) (addr : Addr) (ret : ℤ)
    (hexit : ∀ c, src = .clientTcpRecv c → allowed .exit) :
    Ends allowed (Control.Runs w) (dispatched src addr ret) := by
  rcases src with c | c | c | c | _ | ⟨c, q⟩
  · change Control.Runs w (if ret = 0 then .drain (.serverTcpRecv c) addr else .closing c)
    split
    · exact hruns
    · exact hruns
  · exact Ends.ite (fun _ => hruns) fun _ => hexit c rfl
  · trivial
  · trivial
  · trivial
  · change Control.Runs w (if ret = 0 then .drain (.tryKcpRecv c q) addr else .loop)
    split
    · exact hruns
    · trivial

theorem callbackRound_ends (h : p.Intact known) (hok : p.Careful i) {a : RecvAnswer}
    (hi : i = .round a) (hexit : p.InClientTcp i → allowed .exit) :
    Ends allowed (fun x => x.2.Runs p.world) (callbackRound p.world p.ctl a) := by
  have hrunning := h.running
  rcases hctl : p.ctl with _ | ⟨src, addr, buf⟩ | ⟨src, addr⟩ | c
  · trivial
  · rw [hctl] at hrunning
    refine Ends.bind (dispatch_ends h hok hctl hi) ?_
    rintro ⟨w₁, ret⟩ - -
    refine Ends.bind (dispatched_ends hrunning addr ret fun c hsrc => hexit ?_) ?_
    · rw [hi]
      exact .round (by rw [hctl, hsrc])
    · rintro ctl - hctl
      exact hctl
  · rw [hctl] at hrunning
    refine drainRound_ends h.world hrunning addr fun c q k msg hsrc hk hrecv => ?_
    exact hok.room c q addr k msg (by rw [hctl, hsrc]) hk hrecv
  · rw [hctl] at hrunning
    obtain ⟨obj, hobj, hsession⟩ := hrunning
    obtain ⟨server, hserver⟩ := h.world.server hobj hsession
    refine Ends.bind (P := fun _ => True) (Ends.bind (World.kcpev_ends hobj) ?_) ?_
    · rintro obj' - rfl
      refine Ends.ite (fun hno => absurd hsession hno) fun _ => ?_
      refine Ends.bind (World.kcpevServer_ends hserver) ?_
      rintro server' - -
      trivial
    · rintro w₁ - -
      trivial

omit [KcpImpl K] [ClockImpl T] in
theorem tcpReceived_ends (h : w.Intact known) {src : Source} (hruns : src.Runs w) {c : ℕ}
    {obj : Kcpev T} (hobj : w.objs c = some obj) (addr : Addr) (data : Bytes) (a : IoAnswer) :
    Ends allowed (fun x => x.2.Runs w) (tcpReceived w src c obj addr data a) := by
  obtain ⟨rb, size, hrecv, -⟩ := TcpSafety.onTcpRecv_ok (h.rings.ring hobj) data a.newMem a.growMem
  unfold tcpReceived
  simp only [hrecv, bind, Except.bind]
  generalize toInt size = len
  split
  · exact hruns
  · exact hruns

omit [KcpImpl K] [ClockImpl T] in
theorem tryKcpRecv_ends {c q : ℕ} {obj : Kcpev T} (hobj : w.objs c = some obj)
    (hkcp : obj.udp.kcp = some q) : Ends allowed (fun x => x.2.Runs w) (tryKcpRecv w c) := by
  refine Ends.bind (World.kcpev_ends hobj) ?_
  rintro obj' - rfl
  rw [hkcp]
  exact ⟨obj', hobj, hkcp⟩

omit [ClockImpl T] in
theorem kcpReceived_ends (h : w.Intact known) {c : ℕ} {obj : Kcpev T} (hobj : w.objs c = some obj)
    (hvalid : obj.udp.isKcpValid) (data : Bytes) :
    Ends allowed (fun x => x.2.Runs w) (kcpReceived w c obj data) := by
  obtain ⟨q, hq⟩ := Option.isSome_iff_exists.mp hvalid.2.1
  obtain ⟨k, hk⟩ := h.kcpLive hobj q hq
  unfold kcpReceived
  rw [hq]
  have hinput : ikcpInput w.os q data =
      .ok (w.os.setKcp q { k with state := (KcpImpl.input k.conv k.state data).1 }) := by
    simp [ikcpInput, hk]
  refine Ends.bind (.of_ok hinput) ?_
  rintro os - -
  have hsame : ({ w with os } : World K T).objs c = some obj := hobj
  have hends : Ends allowed _ (tryKcpRecv { w with os } c) := tryKcpRecv_ends hsame hq
  exact hends

omit [KcpImpl K] in
theorem acceptClient_ends {server : KcpevServer T} (hserver : w.server = some server) (os : Os K T)
    (c s : ℕ) (a : AcceptAnswer) : Ends allowed (fun _ => True) (acceptClient w os c s a) := by
  refine Ends.bind (World.kcpevServer_ends hserver) ?_
  rintro server' - -
  rcases kcpevInitEv os (.kcpev c) (acceptBase s : KcpevBase T) (some .serverTcpRecv) none
    { tcp := a.evio, udp := true } with ⟨os₁, b, ret⟩
  refine Ends.ite (fun _ => trivial) fun _ => ?_
  refine Ends.bind (sockSendCommand_ends os₁ s _ a.send a.uuid.val_short) ?_
  rintro ⟨os₂, ret₂⟩ - -
  refine Ends.ite (fun _ => ?_) fun _ => ?_
  · trivial
  · trivial

omit [KcpImpl K] in
theorem tcpAccept_ends {server : KcpevServer T} (hserver : w.server = some server) (fd : ℕ)
    (answer : Option AcceptAnswer) : Ends allowed (fun _ => True) (tcpAccept w fd answer) := by
  unfold tcpAccept
  split
  · trivial
  · trivial
  split
  · trivial
  · exact Ends.ite (fun _ => trivial) fun _ => Ends.ite (fun _ => trivial) fun _ =>
      Ends.ite (fun _ => trivial) fun _ => acceptClient_ends hserver _ _ _ _

theorem ioEvent_ends (h : w.Intact known) {q : ℕ} {e : EvIo} (he : w.os.ios q = some e)
    (a : IoAnswer) (hexit : e.cb = .clientTcpRecv → allowed .exit) :
    Ends allowed (fun x => x.2.Runs w) (ioEvent w e a) := by
  have owner := h.ofIo he
  unfold ioEvent
  split
  · rename_i hcb hdata
    obtain ⟨s, hs⟩ := owner
    rw [hdata] at hs
    obtain ⟨server, hserver⟩ := World.slots_server_some hs
    refine Ends.bind (tcpAccept_ends hserver e.fd a.accept) ?_
    rintro w₁ - -
    trivial
  · rename_i hcb hdata
    obtain ⟨s, hs⟩ := owner
    rw [hdata] at hs
    change Control.Runs w (serverUdpRecvAll w e.fd a).2
    unfold serverUdpRecvAll
    split
    · trivial
    · exact World.slots_server_some hs
  · rename_i c hcb hdata
    obtain ⟨s, hs⟩ := owner
    rw [hdata] at hs
    obtain ⟨obj, hobj, -⟩ := World.slots_kcpev hs
    have hsession := (h.ios.io he ⟨hdata, Or.inl hcb⟩).2 obj hobj
    have hruns : (Source.serverTcpRecv c).Runs w := ⟨obj, hobj, hsession⟩
    refine Ends.bind (World.kcpev_ends hobj) ?_
    rintro obj' - rfl
    split
    · exact hruns
    · exact tcpReceived_ends h hruns hobj _ _ a
  · rename_i c hcb hdata
    obtain ⟨s, hs⟩ := owner
    rw [hdata] at hs
    obtain ⟨obj, hobj, -⟩ := World.slots_kcpev hs
    have hsession := (h.ios.io he ⟨hdata, Or.inr hcb⟩).2 obj hobj
    unfold serverUdpRecv
    split
    · trivial
    refine Ends.bind (World.kcpev_ends hobj) ?_
    rintro obj' - rfl
    refine Ends.ite (fun _ => ?_) fun hvalid => ?_
    · split
      · trivial
      · exact ⟨obj', hobj, hsession⟩
    · exact kcpReceived_ends h hobj (not_not.mp hvalid) _
  · rename_i c hcb hdata
    obtain ⟨s, hs⟩ := owner
    rw [hdata] at hs
    obtain ⟨obj, hobj, -⟩ := World.slots_kcpev hs
    have hruns : (Source.clientTcpRecv c).Runs w := ⟨obj, hobj⟩
    unfold clientTcpRecv
    split
    · exact hexit hcb
    refine Ends.bind (World.kcpev_ends hobj) ?_
    rintro obj' - rfl
    exact tcpReceived_ends h hruns hobj _ _ a
  · rename_i c hcb hdata
    obtain ⟨s, hs⟩ := owner
    rw [hdata] at hs
    obtain ⟨obj, hobj, -⟩ := World.slots_kcpev hs
    unfold clientUdpRecv
    split
    · trivial
    refine Ends.bind (World.kcpev_ends hobj) ?_
    rintro obj' - rfl
    refine Ends.ite (fun _ => ⟨obj', hobj⟩) fun hvalid => ?_
    exact kcpReceived_ends h hobj (not_not.mp hvalid) _
  · trivial

theorem timerEvent_ends (h : w.Intact known) {q : ℕ} {t : EvTimer} (ht : w.os.timers q = some t)
    (a : TimerAnswer) : Ends allowed (fun x => x.2.Runs w) (timerEvent w t a) := by
  obtain ⟨s, hs, hevt⟩ := h.ofTimer ht
  unfold timerEvent
  split
  · rename_i c hcb hdata
    rw [hdata] at hs
    obtain ⟨obj, hobj, rfl⟩ := World.slots_kcpev hs
    obtain ⟨hkcp, -⟩ := h.timed.slots hs hevt
    obtain ⟨r, hr⟩ := Option.isSome_iff_exists.mp hkcp
    obtain ⟨v, hv⟩ := Option.isSome_iff_exists.mp hevt
    obtain ⟨k, hk⟩ := h.kcpLive hobj r hr
    rcases kcpevTimerRepeat_returns a.output hobj hr hv with hstop | ⟨w₁, hrepeat⟩
    · exfalso
      have hget : w.kcpev c = .ok obj := World.kcpev_ok.mpr hobj
      simp [kcpevTimerRepeat, hget, bind, Except.bind, show obj.udp.kcp = some r from hr, hk,
        show obj.udp.evt = some v from hv, pure, Except.pure] at hstop
    · refine Ends.bind (.of_ok hrepeat) ?_
      rintro w₂ hw₂ -
      have hsame : w₂.objs c = some obj := by
        rw [timerRepeat_objs hw₂]
        exact hobj
      refine Ends.post (tryKcpRecv_ends hsame hr) fun {x} hx => ?_
      obtain ⟨obj', kcp, hobj', hkcp', hctl⟩ := tryKcpRecv_kcp hx
      rw [hsame, Option.some.injEq] at hobj'
      subst hobj'
      rw [hctl]
      exact ⟨obj, hobj, hkcp'⟩
  · rename_i c hcb hdata
    rw [hdata] at hs
    obtain ⟨obj, hobj, rfl⟩ := World.slots_kcpev hs
    refine Ends.bind (P := fun _ => True) (Ends.bind (World.kcpev_ends hobj) ?_) ?_
    · rintro obj' - rfl
      refine Ends.ite (fun _ => trivial) fun _ => Ends.ite (fun _ => trivial) fun _ => ?_
      refine Ends.bind (kcpSendCommand_ends (h.kcpLive hobj) _ a.send.stack obj'.key.val_short) ?_
      rintro ⟨os, ret⟩ - -
      trivial
    · rintro w₁ - -
      trivial
  · rename_i c hcb hdata
    rw [hdata] at hs
    obtain ⟨obj, hobj, rfl⟩ := World.slots_kcpev hs
    refine Ends.bind (P := fun _ => True) (Ends.bind (World.kcpev_ends hobj) ?_) ?_
    · rintro obj' - rfl
      refine Ends.ite (fun _ => trivial) fun _ => Ends.ite (fun _ => ?_) fun _ => trivial
      refine Ends.bind (sockSendCommand_ends w.os _ _ a.send obj'.key.val_short) ?_
      rintro ⟨os, ret⟩ - -
      trivial
    · rintro w₁ - -
      trivial
  · trivial

theorem apply_ends (h : w.Intact known) (hrefers : i.Refers w) :
    Ends allowed (fun _ => True) (apply w i) := by
  cases i with
  | createClient a => trivial
  | createServer a => trivial
  | serverDestroy => trivial
  | setCb c =>
    obtain ⟨obj, hobj⟩ := hrefers
    refine Ends.bind (World.kcpev_ends hobj) ?_
    rintro obj' - -
    trivial
  | serverSetCb =>
    obtain ⟨server, hserver⟩ := hrefers
    refine Ends.bind (World.kcpevServer_ends hserver) ?_
    rintro server' - -
    trivial
  | connect c addr a =>
    obtain ⟨obj, hobj⟩ := hrefers
    refine Ends.bind (World.kcpev_ends hobj) ?_
    rintro obj' - -
    refine Ends.ite (fun _ => ?_) fun _ => ?_
    · trivial
    · trivial
  | send c msg a =>
    obtain ⟨⟨obj, hobj⟩, hlen⟩ := hrefers
    refine Ends.bind (World.kcpev_ends hobj) ?_
    rintro obj' - rfl
    refine Ends.bind (kcpevSendCommand_ends (h.kcpLive hobj) .data a hlen) ?_
    rintro ⟨os, ret⟩ - -
    trivial
  | sendTcp c msg a =>
    obtain ⟨⟨obj, hobj⟩, hlen⟩ := hrefers
    refine Ends.bind (World.kcpev_ends hobj) ?_
    rintro obj' - rfl
    refine Ends.bind (sockSendCommand_ends w.os _ .data a hlen) ?_
    rintro ⟨os, ret⟩ - -
    trivial
  | now time => trivial
  | io q a => trivial
  | timer q a => trivial
  | round a => trivial

theorem step_ends (h : p.Intact known) (hok : p.Careful i) :
    Ends (fun e => e = .exit ∧ p.InClientTcp i) (fun p' => p'.ctl.Runs p.world) (step p i) := by
  have stay : p.ctl.Runs p.world := h.running
  have call : ∀ {j : Input T}, j.Refers p.world →
      Ends (fun e => e = .exit ∧ p.InClientTcp i) (fun p' => p'.ctl.Runs p.world)
        (if p.ctl.appMayCall then do
          let world ← apply p.world j
          return { p with world }
        else .ok p) := by
    intro j hrefers
    refine Ends.ite (fun _ => ?_) fun _ => stay
    refine Ends.bind (apply_ends h.world hrefers) ?_
    rintro w₁ - -
    exact stay
  cases i with
  | createClient a => exact call hok.app
  | createServer a => exact call hok.app
  | setCb c => exact call hok.app
  | serverSetCb => exact call hok.app
  | connect c addr a => exact call hok.app
  | send c msg a => exact call hok.app
  | sendTcp c msg a => exact call hok.app
  | now time => exact call hok.app
  | serverDestroy =>
    simp only [step]
    split
    · obtain ⟨server, hserver⟩ := hok.app
      obtain ⟨w₁, hdestroy⟩ := h.world.exact.serverDestroy (Option.isSome_of_eq_some hserver)
      refine Ends.bind (.of_ok hdestroy) ?_
      rintro w₂ - -
      exact stay
    · exact stay
  | io q a =>
    simp only [step]
    split
    · rename_i e hctl he
      refine Ends.bind (ioEvent_ends h.world he a fun hcb => ⟨rfl, .io he hcb⟩) ?_
      rintro ⟨w₁, ctl⟩ - hruns
      exact hruns
    · exact stay
  | timer q a =>
    simp only [step]
    split
    · rename_i t hctl ht
      refine Ends.bind (timerEvent_ends h.world ht a) ?_
      rintro ⟨w₁, ctl⟩ - hruns
      exact hruns
    · exact stay
  | round a =>
    refine Ends.bind (callbackRound_ends h hok rfl fun hin => ⟨rfl, hin⟩) ?_
    rintro ⟨w₁, ctl⟩ - hruns
    exact hruns

/-! Runs. -/

variable {p' : Process K T} {now : T} {is : List (Input T)}

omit [KcpImpl K] [ClockImpl T] in
theorem Process.intact_init (now : T) : (Process.init now : Process K T).Intact [] where
  world :=
    { typed := (Process.typed_init now).world
      ios := ⟨nofun⟩
      exact := World.exact_init now
      tidy := World.tidy_init now
      timed := timed_init now
      rings := ⟨nofun⟩ }
  typed := Process.typed_init now
  running := trivial

theorem Process.Intact.step (h : p.Intact known) (hok : p.Careful i)
    (hkeys : ((known ++ p.generated i).map Prod.fst).Nodup) (hs : KcpEv.step p i = .ok p') :
    p'.Intact (known ++ p.generated i) := by
  have heffect := step_effect h.typed hs
  have hreg := h.world.exact.toRegistered
  have htyped := h.typed.step hs
  refine ⟨⟨htyped.world, ?_, ?_, ?_, ?_, ?_⟩, htyped, ?_⟩
  · exact iosTyped_effect h.world.ios h.world.typed hreg heffect
  · exact exact_step h.typed h.world.exact hok.whole hkeys hs
  · exact tidy_effect h.world.tidy h.world.typed hreg hok.nothing heffect
  · exact timed_effect h.world.timed h.typed hreg hok.kcp heffect
  · exact h.world.rings.step hs
  · exact Control.Runs.step h.world.typed heffect hok.drains hs ((step_ends h hok).ok_post hs)

theorem run_intact (hrun : Run step Process.Careful (.init now) is p)
    (hkeys : ((generatedKeys (K := K) now is).map Prod.fst).Nodup) :
    p.Intact (generatedKeys (K := K) now is) := by
  have hinv : p.Typed ∧ (((generatedKeys (K := K) now is).map Prod.fst).Nodup →
      p.Intact (generatedKeys (K := K) now is)) := by
    refine hrun.invariant_history (P := fun known p =>
      p.Typed ∧ ((known.map Prod.fst).Nodup → p.Intact known)) ?_ ?_
    · exact ⟨Process.typed_init now, fun _ => Process.intact_init now⟩
    · rintro known s i s' ⟨hp, h⟩ hok hs
      refine ⟨hp.step hs, fun hnew => ?_⟩
      have hold : (known.map Prod.fst).Nodup := by
        rw [List.map_append] at hnew
        exact hnew.of_append_left
      exact (h hold).step hok hnew hs
  exact hinv.2 hkeys

end Loop

/-! A run of a server. -/

/-- Steps of a server that are careful. -/
def Process.serves (p : Process Unit ℕ) (i : Input ℕ) : Bool :=
  decide (p.AcceptsWhole i) && p.Retains i && p.Supplied i &&
  match i with
  | .createServer _ | .io .. | .timer .. => true
  | .serverSetCb => p.world.server.isSome
  | .round a =>
    match p.ctl with
    | .frame .serverUdpRecvAll _ _ | .frame (.serverTcpRecv _) _ _ =>
      a.evt && p.world.server.all KcpevServer.hasRecvCb
    | .drain (.serverTcpRecv _) _ | .closing _ => true
    | _ => false
  | _ => false

theorem careful_of_serves {p : Process Unit ℕ} {i : Input ℕ} (h : p.serves i = true) :
    p.Careful i := by
  unfold Process.serves at h
  rw [Bool.and_eq_true, Bool.and_eq_true, Bool.and_eq_true, decide_eq_true_iff] at h
  obtain ⟨⟨⟨hwhole, hretains⟩, hsupplied⟩, h⟩ := h
  have frame : ∀ {src addr buf a}, p.ctl = .frame src addr buf → i = .round a →
      (src = .serverUdpRecvAll ∨ ∃ c, src = .serverTcpRecv c) ∧ a.evt = true ∧
        p.world.server.all KcpevServer.hasRecvCb = true := by
    rintro src addr buf a hctl rfl
    rw [hctl] at h
    cases src with
    | serverUdpRecvAll => exact ⟨Or.inl rfl, by simpa using h⟩
    | serverTcpRecv c => exact ⟨Or.inr ⟨c, rfl⟩, by simpa using h⟩
    | _ => cases h
  have client : ∀ {c buf a}, ¬ ClientFrame p i c buf a := by
    rintro c buf a ⟨src, addr, hctl, hi, hto⟩
    rcases (frame hctl hi).1 with rfl | ⟨d, rfl⟩
    · exact hto
    · exact hto
  exact
    { nothing := dropsNothing_of_retains hretains
      whole := hwhole
      kcp := keepsKcp_of_supplied hsupplied
      drains := by
        rintro buf addr a c obj q ⟨src, hctl, hi, -⟩ hfind hsrc
        rw [hctl] at hsrc
        rcases (frame hctl hi).1 with rfl | ⟨d, rfl⟩
        · cases hsrc
        · cases hsrc
      serverTimer := by
        rintro buf addr a c obj ⟨src, hctl, hi, -⟩ hfind hstatus hnone
        exact (frame hctl hi).2.1
      clientTimer := fun c buf a obj hframe => absurd hframe client
      serverCb := by
        rintro buf addr a data server ⟨src, hctl, hi, -⟩ hparse hserver
        have htest := (frame hctl hi).2.2
        simpa [hserver] using htest
      clientCb := fun c buf a data obj hframe => absurd hframe client
      room := by
        intro c q addr k msg hctl hk hmsg
        cases hmsg
      app := by
        cases i with
        | serverSetCb => exact Option.isSome_iff_exists.mp h
        | _ => trivial }

/-- A server sets its callback, accepts a client, and finishes the handshake with it. -/
def servedHandshake : List (Input ℕ) :=
  [.createServer (.sockets 3 4), .serverSetCb, .io 1 (.accepts (.connection 5 9 sampleKey)),
    .io 2 (.receives (handshakeFrame .shakeHand1) 9), .round (.socket 6),
    .io 2 (.receives (handshakeFrame .shakeHand2) 9), .round (.socket 7)]

/-- The KCP timer of the session expires. -/
def kcpTick : Input ℕ := .timer 8 { output := fun _ => none, send := .whole }

end KcpEv
