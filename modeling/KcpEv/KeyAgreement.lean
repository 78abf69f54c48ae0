import KcpEv.ClientKeys

/-!
Agreement on the key. A session gets ready only after the client at the other end of its
connection has, and the two have the same key and the same conversation number. The UDP
socket of the session is connected to where that client has sent from.
-/
namespace KcpEv

open Guarded

variable {T ι : Type}

/-! Sessions. -/

/-- And `connect_client_udp` does not fail for a session that is in the middle of a
handshake, or ready. -/
structure KeepsPaths [ClockImpl T] (x : Wires ι T) (l : Net ι T) (i : Host ι × Input T) : Prop
    extends Net.Honest x l i where
  connects : ∀ buf addr a s obj, i.1 = .server → ServerFrame (l.party .server) i.2 buf addr a →
    Finds (l.party .server).world buf .shakeHand1 s obj → obj.Engaged →
      a.Connects (l.party .server).world.os

section Sessions
variable [ClockImpl T] [DecidableEq ι] {x : Wires ι T} {now : Host ι → T}
  {is : List (Host ι × Input T)} {l l' : Net ι T} {i : Input T} {n : ι} {c s : ℕ}
  {obj obj' : Kcpev T} {m : Event ι T} {key : KcpevKey}

theorem hands_known (hrun : Run (Joint.step step) (Net.Honest x) (.init (hosts now)) is l)
    (hm : m ∈ l.history) {command : Command} (hhand : command.IsHand)
    (hhands : Event.Hands m n c command key) :
    ∃ s, (key, s) ∈ l.generated ∧ x.peer s = (n, c) := by
  cases command with
  | shakeHand1 => exact hands_one hrun hm hhands
  | shakeHand2 =>
    obtain ⟨m₀, hm₀, hready⟩ := hands_two hrun hm hhands
    obtain ⟨obj, hobj, hclient, hevt, rfl⟩ := ready_lives hrun hm₀ hready
    exact client_known hrun hobj hclient (Or.inr hevt)
  | data | heartbeat1 | heartbeat2 | udpInvalid => exact hhand.elim

/-- A message of a handshake for a session is from the client at the other end of its
connection. -/
theorem server_hands (hrun : Run (Joint.step step) (Net.Honest x) (.init (hosts now)) is l)
    (hkeys : (l.generated.map Prod.fst).Nodup) (hok : Net.Honest x l (.server, i)) {src : Source}
    {addr : Addr} {buf : Bytes} {a : RecvAnswer} {command : Command}
    (hframe : Dispatches (l.party .server) i src addr buf a)
    (hfind : Finds (l.party .server).world buf command s obj) (hhand : command.IsHand) :
    ∃ m ∈ l.history, Event.Hands m (x.peer s).1 (x.peer s).2 command obj.key ∧
      x.source m = addr := by
  obtain ⟨server, key, hparse, hserver, hfound, hobj⟩ := hfind
  have hreg := (server_registered hrun).1
  obtain ⟨hsession, rfl⟩ := hreg.hasServer_of_find hserver hfound hobj
  obtain ⟨-, m, hm, n, c, hwho, hsays, hsource⟩ :=
    server_hand hrun (hok.genuine _ _ _ _ hframe) hparse hhand
  have hhands : Event.Hands m n c command obj.key := ⟨hwho, buf, hsays, hparse⟩
  obtain ⟨s', hkey, hpeer⟩ := hands_known hrun hm hhand hhands
  have hsame : (obj.key, s') = (obj.key, s) :=
    List.inj_on_of_nodup_map hkeys hkey (session_generated hrun hobj hsession) rfl
  cases hsame
  rw [hpeer]
  exact ⟨m, hm, hhands, hsource⟩

/-- What a step does to the path of a session. -/
inductive SessionTurn (x : Wires ι T) (l : Net ι T) (s : ℕ) (w' : World (Logged Ikcp) T)
    (obj obj' : Kcpev T) : Prop
  | keeps (hkeeps : obj.Keeps obj')
  | idle (hidle : ¬ obj'.Engaged)
  | connected {addr : Addr} {m : Event ι T} (hpath : w'.Path obj' addr) (hm : m ∈ l.history)
    (hhands : Event.Hands m (x.peer s).1 (x.peer s).2 .shakeHand1 obj'.key)
    (hsource : x.source m = addr) (hstatus : obj'.udp.status = .shakingHand)
  | started {m : Event ι T} (hold : obj.udp.status = .shakingHand)
    (hsock : obj'.udp.sock = obj.udp.sock) (hkcp : obj'.udp.kcp = obj.udp.kcp)
    (hkey : obj'.key = obj.key) (hm : m ∈ l.history)
    (hready : Event.GetsReady m (x.peer s).1 (x.peer s).2 obj.key)

theorem session_turn (hrun : Run (Joint.step step) (Net.Honest x) (.init (hosts now)) is l)
    (hkeys : (l.generated.map Prod.fst).Nodup) (hok : KeepsPaths x l (.server, i))
    {p' : Process (Logged Ikcp) T} (hs : step (l.party .server) i = .ok p')
    (hobj : (l.party .server).world.objs s = some obj) (hobj' : p'.world.objs s = some obj') :
    SessionTurn x l s p'.world obj obj' := by
  have hreg := host_regular hrun .server
  have foreign : ∀ {src : Source} {addr : Addr} {buf data : Bytes} {command : Command}
      {a : RecvAnswer}, Dispatches (l.party .server) i src addr buf a →
      src.ToClient (l.party .server).world s → Parses buf command data → ¬ command.IsHand := by
    intro src addr buf data command a hframe hsrc hparse hhand
    exact (server_hand hrun (hok.genuine src addr buf a hframe) hparse hhand).1 _ _ hsrc
  cases (step_act hreg.typed hreg.separate hs hobj hobj').turn with
  | keeps hkeeps => exact .keeps hkeeps
  | keyed hframe hsrc hparse => exact absurd trivial (foreign hframe hsrc hparse)
  | ready hframe hsrc hparse => exact absurd trivial (foreign hframe hsrc hparse)
  | cleared hframe hsrc hname hfind hfailed hstatus =>
    refine .idle fun hengaged => ?_
    have hold : obj.Engaged := by
      unfold Kcpev.Engaged at hengaged ⊢
      rwa [hstatus] at hengaged
    have hconnects := hok.connects _ _ _ _ _ rfl
      ⟨_, hframe.ctl, hframe.input, hsrc, hname⟩ hfind hold
    cases connectClientUdp_connects hconnects hfailed
  | connected hframe hsrc hfind hsock hkcp hkey hstatus =>
    have hnew : obj'.udp.kcp ≠ obj.udp.kcp := by
      intro hsame
      rw [hkcp] at hsame
      have hlive := hreg.separate.kcp_live hobj hsame.symm
      rw [(hreg.separate.fresh le_rfl).2.2] at hlive
      cases hlive
    obtain ⟨m, hm, hhands, hsource⟩ :=
      server_hands hrun hkeys hok.toHonest hframe hfind trivial
    rw [← hkey] at hhands
    exact .connected (connected_path hframe hsrc hfind hs hobj' hsock hnew) hm hhands hsource
      hstatus
  | started hframe hsrc hfind hold hsock hkcp hkey =>
    obtain ⟨m, hm, hhands, -⟩ := server_hands hrun hkeys hok.toHonest hframe hfind trivial
    obtain ⟨m₀, hm₀, hready⟩ := hands_two hrun hm hhands
    exact .started hold hsock hkcp hkey hm₀ hready

/-- What there is of the client of a session that has begun a handshake, and of one that
is ready. -/
structure Agreeing (x : Wires ι T) (l : Net ι T) (s : ℕ) (obj : Kcpev T) : Prop where
  path : obj.Engaged → ∃ addr, (l.party .server).world.Path obj addr ∧
    ∃ m ∈ l.history, Event.Hands m (x.peer s).1 (x.peer s).2 .shakeHand1 obj.key ∧
      x.source m = addr
  ready : obj.udp.status = .ready →
    ∃ m ∈ l.history, Event.GetsReady m (x.peer s).1 (x.peer s).2 obj.key

theorem session_agreeing (hrun : Run (Joint.step step) (KeepsPaths x) (.init (hosts now)) is l)
    (hkeys : (l.generated.map Prod.fst).Nodup) (hobj : (l.party .server).world.objs s = some obj)
    (hsession : obj.hasServer = true) : Agreeing x l s obj := by
  induction hrun generalizing obj with
  | nil => cases hobj
  | @snoc is l l' i hrun hok hs ih =>
    obtain ⟨h, i⟩ := i
    obtain ⟨hnext, -⟩ := Joint.step_self hs
    have hold : (l.generated.map Prod.fst).Nodup := by
      rw [generated_step hs, List.map_append] at hkeys
      exact hkeys.of_append_left
    cases h with
    | client n =>
      have hsame : l'.party .server = l.party .server := Joint.step_other hs (by simp)
      rw [hsame] at hobj
      obtain ⟨hpath, hready⟩ := ih hold hobj hsession
      refine ⟨fun hengaged => ?_, fun h => Joint.step_past hs (hready h)⟩
      obtain ⟨addr, haddr, hhands⟩ := hpath hengaged
      rw [hsame]
      exact ⟨addr, haddr, Joint.step_past hs hhands⟩
    | server =>
      have hrun' : Run (Joint.step step) (Net.Honest x) (.init (hosts now)) is l :=
        hrun.mono fun h => h.toHonest
      have hreg := host_regular hrun' .server
      rcases step_object hreg.typed hreg.separate hnext hobj with ⟨-, hbirth⟩ |
        ⟨old, holdobj, hkind, -⟩
      · have hinvalid : obj.udp.status = .invalid := by
          generalize (l.party .server).world.traffic (l'.party .server).world s = t at hbirth
          cases hbirth with
          | client _ hstatus => exact hstatus
          | session _ hudp => rw [hudp]; rfl
        refine ⟨fun hengaged => ?_, fun hready => ?_⟩
        · rcases hengaged with hstatus | hstatus
          · cases hinvalid.symm.trans hstatus
          · cases hinvalid.symm.trans hstatus
        · cases hinvalid.symm.trans hready
      · rw [hsession] at hkind
        obtain ⟨hpath, hready⟩ := ih hold holdobj hkind.symm
        have keeps : old.Engaged → obj.udp.sock = old.udp.sock → obj.udp.kcp = old.udp.kcp →
            obj.key = old.key → ∃ addr, (l'.party .server).world.Path obj addr ∧
              ∃ m ∈ l'.history, Event.Hands m (x.peer s).1 (x.peer s).2 .shakeHand1 obj.key ∧
                x.source m = addr := by
          intro hengaged hsock hkcp hkey
          obtain ⟨addr, haddr, hhands⟩ := hpath hengaged
          rw [hkey]
          exact ⟨addr, step_path hreg.typed hreg.separate hnext holdobj hobj hkind.symm hsock hkcp
            hkey haddr, Joint.step_past hs hhands⟩
        cases session_turn hrun' hold hok hnext holdobj hobj with
        | keeps hkeeps =>
          refine ⟨fun hengaged => ?_, fun h => ?_⟩
          · have hsock : obj.udp.sock = old.udp.sock := by
              rcases hkeeps.sock with hsock | hclient
              · exact hsock
              · cases hkind.trans hclient
            exact keeps (hkeeps.engaged hengaged) hsock hkeeps.kcp hkeeps.key
          · rw [hkeeps.key]
            exact Joint.step_past hs (hready (hkeeps.ready h))
        | idle hidle => exact ⟨fun h => absurd h hidle, fun h => absurd (Or.inr h) hidle⟩
        | connected haddr hm hhands hsource hstatus =>
          refine ⟨fun _ => ⟨_, haddr, Joint.step_past hs ⟨_, hm, hhands, hsource⟩⟩, fun h => ?_⟩
          cases hstatus.symm.trans h
        | started hshaking hsock hkcp hkey hm hgets =>
          refine ⟨fun _ => keeps (Or.inl hshaking) hsock hkcp hkey, fun _ => ?_⟩
          rw [hkey]
          exact Joint.step_past hs ⟨_, hm, hgets⟩

/-- A session and the client at the other end of its connection, when they agree. -/
structure Agreement (x : Wires ι T) (l : Net ι T) (s : ℕ) (session : Kcpev T) (n : ι) (c : ℕ)
    (client : Kcpev T) (addr : Addr) : Prop where
  peer : x.peer s = (n, c)
  lives : (l.party (.client n)).world.objs c = some client
  role : client.hasServer = false
  key : client.key = session.key
  /-- no other client has begun a handshake with the key -/
  holder : ∀ n' c' other, (l.party (.client n')).world.objs c' = some other →
    other.hasServer = false → other.Engaged → other.key = session.key → (n', c') = (n, c)
  ready : ∃ m ∈ l.history, Event.GetsReady m n c session.key
  conv : (l.party (.client n)).world.Numbered client
  path : (l.party .server).world.Path session addr
  source : ∃ m ∈ l.history, Event.Hands m n c .shakeHand1 session.key ∧ x.source m = addr

/-- Every session that is ready agrees with its client. -/
def Net.Agreed (x : Wires ι T) (l : Net ι T) : Prop :=
  ∀ s session, (l.party .server).world.objs s = some session → session.hasServer = true →
    session.udp.status = .ready → ∃ n c client addr, Agreement x l s session n c client addr

theorem sessions_agreed (hrun : Run (Joint.step step) (KeepsPaths x) (.init (hosts now)) is l)
    (hkeys : (l.generated.map Prod.fst).Nodup) : l.Agreed x := by
  intro s session hsession hserver hready
  have hrun' : Run (Joint.step step) (Net.Honest x) (.init (hosts now)) is l :=
    hrun.mono fun h => h.toHonest
  have hagreeing := session_agreeing hrun hkeys hsession hserver
  obtain ⟨m, hm, hgets⟩ := hagreeing.ready hready
  obtain ⟨addr, hpath, hhands⟩ := hagreeing.path (Or.inr hready)
  obtain ⟨client, hclient, hkind, hevt, hkey⟩ := ready_lives hrun' hm hgets
  refine ⟨_, _, client, addr, rfl, hclient, hkind, hkey, ?_, ⟨m, hm, hgets⟩,
    (client_ready hrun' hclient hkind hevt).1, hpath, hhands⟩
  intro n c other hother hkind' hengaged hsame
  obtain ⟨s', hknown, hpeer⟩ := client_known hrun' hother hkind' (Or.inl hengaged)
  rw [hsame] at hknown
  cases List.inj_on_of_nodup_map hkeys hknown (session_generated hrun' hsession hserver) rfl
  exact hpeer.symm

end Sessions

/-! Two clients get ready, and a repeated datagram fails. -/

instance (m : Event ι T) (c : ℕ) (session : Bool) (way : Way) (buf : Bytes) :
    Decidable (Event.Says m c session way buf) :=
  inferInstanceAs (Decidable (∃ obj ∈ m.after.world.objs c, obj.hasServer = session ∧ _))

/-- Session `s` is connected with the first object on host `s`, which has address `s`. -/
def sampleWires : Wires ℕ T where
  peer s := (s, 1)
  one _ _ h := congrArg Prod.fst h
  source m :=
    match m.who with
    | .server => 0
    | .client n => n

/-- The frame was sent by the other side: a test for the sources that the examples have. -/
def Net.sampleGenuine (l : Net ℕ T) (h : Host ℕ) (src : Source) (addr : Addr) (buf : Bytes) :
    Bool :=
  match h, src with
  | .server, .serverUdpRecvAll => l.history.any fun m =>
    m.who = .client addr && decide (Event.Says m 1 false .udp buf)
  | .client n, .clientTcpRecv 1 => l.history.any fun m =>
    m.who = .server && decide (Event.Says m n true .tcp buf)
  | .client _, .clientUdpRecv 1 => l.history.any fun m =>
    m.who = .server && [3, 5].any fun s => decide (Event.Says m s true .udp buf)
  | _, _ => false

def Net.sampleHonest (l : Net ℕ T) (i : Host ℕ × Input T) : Bool :=
  match i.2 with
  | .round a => a.kcp && a.evio && a.evt && a.evh &&
    match (l.party i.1).ctl with
    | .frame src addr buf => l.sampleGenuine i.1 src addr buf
    | .loop | .drain .. | .closing _ => true
  | _ => true

/-- A first message of a handshake does not fail. -/
def Net.sampleConnects (l : Net ℕ T) (i : Host ℕ × Input T) : Bool :=
  match i.1, i.2, (l.party i.1).ctl with
  | .server, .round a, .frame _ _ buf =>
    (parseFrame buf).all (fun r => r.1 ≠ Command.shakeHand1.toByte) ||
      decide (a.Connects (l.party .server).world.os)
  | _, _, _ => true

section Sample
variable {l : Net ℕ T} {i : Host ℕ × Input T} {h : Host ℕ} {src : Source} {addr : Addr}
  {buf : Bytes}

theorem genuine_of_sample (hsample : l.sampleGenuine h src addr buf = true) :
    Net.Genuine sampleWires l h src addr buf := by
  unfold Net.sampleGenuine at hsample
  split at hsample
  · obtain ⟨m, hm, hboth⟩ := List.any_eq_true.mp hsample
    simp only [Bool.and_eq_true, decide_eq_true_eq] at hboth
    refine ⟨m, hm, addr, 1, hboth.1, hboth.2, ?_⟩
    simp only [sampleWires, hboth.1]
  · obtain ⟨m, hm, hboth⟩ := List.any_eq_true.mp hsample
    simp only [Bool.and_eq_true, decide_eq_true_eq] at hboth
    exact ⟨_, rfl, m, hm, hboth.1, hboth.2⟩
  · obtain ⟨m, hm, hboth⟩ := List.any_eq_true.mp hsample
    rw [Bool.and_eq_true, decide_eq_true_eq] at hboth
    obtain ⟨s, -, hsays⟩ := List.any_eq_true.mp hboth.2
    exact ⟨s, m, hm, hboth.1, of_decide_eq_true hsays⟩
  · cases hsample

theorem honest_of_sample (hsample : l.sampleHonest i = true) : Net.Honest sampleWires l i where
  genuine src addr buf a hframe := by
    obtain ⟨hctl, hinput⟩ := hframe
    simp only [Net.sampleHonest, hctl, hinput, Bool.and_eq_true] at hsample
    exact genuine_of_sample hsample.2
  memory a hinput := by
    simp only [Net.sampleHonest, hinput, Bool.and_eq_true] at hsample
    obtain ⟨⟨⟨⟨hkcp, hevio⟩, hevt⟩, hevh⟩, -⟩ := hsample
    exact ⟨hkcp, hevio, hevt, hevh⟩

theorem keepsPaths_of_sample [ClockImpl T] (hhonest : l.sampleHonest i = true)
    (hconnects : l.sampleConnects i = true) : KeepsPaths sampleWires l i :=
  { honest_of_sample hhonest with
    connects := by
      intro buf addr a s obj hwho hframe hfind hengaged
      obtain ⟨src, hctl, hinput, -, -⟩ := hframe
      obtain ⟨server, key, hparse, -⟩ := hfind
      rw [Parses] at hparse
      simpa [Net.sampleConnects, hinput, hwho, hctl, hparse] using hconnects }

end Sample

/-- A frame of a handshake with a key. -/
def handFrame (command : Command) (key : KcpevKey) : Bytes :=
  frameBytes command.toByte [0, 0, 0] key.val

/-- A client is created and gets its key. -/
def clientJoins (n : ℕ) (key : KcpevKey) : List (Host ℕ × Input ℕ) :=
  [(.client n, .createClient
      { alloc := true, bind := .sockets 5 6, kcp := true, initEv := ⟨true, true⟩ }),
    (.client n, .connect 1 9 { tcp := { getaddrinfo := true, connects := [true] }
                               udp := { getaddrinfo := true, connects := [true] } }),
    (.client n, .io 3 (.receives (handFrame .shakeHand1 key) 9)),
    (.client n, .round (.socket 0)), (.client n, .round (.socket 0))]

/-- Sessions 3 and 5 are connected with the clients on hosts 3 and 5. -/
def twoClients : List (Host ℕ × Input ℕ) :=
  [(.server, .createServer (.sockets 3 4)),
    (.server, .io 1 (.accepts (.connection 5 3 sampleKey))),
    (.server, .io 1 (.accepts (.connection 6 5 otherKey)))] ++
  clientJoins 3 sampleKey ++ clientJoins 5 otherKey

/-- A datagram arrives at the listening socket of the server, and is dispatched. -/
def serverHears (n : ℕ) (buf : Bytes) (a : RecvAnswer) : List (Host ℕ × Input ℕ) :=
  [(.server, .io 2 (.receives buf n)), (.server, .round a)]

/-- A datagram arrives at a client. -/
def clientHears (n : ℕ) (buf : Bytes) : List (Host ℕ × Input ℕ) :=
  [(.client n, .io 4 (.receives buf 9)), (.client n, .round (.socket 0))]

/-- The first message of the first client arrives twice, and both sessions get ready. -/
def twoReady : List (Host ℕ × Input ℕ) :=
  twoClients ++
    serverHears 3 (handFrame .shakeHand1 sampleKey) (.socket 7) ++
    serverHears 5 (handFrame .shakeHand1 otherKey) (.socket 8) ++
    serverHears 3 (handFrame .shakeHand1 sampleKey) (.socket 9) ++
    clientHears 5 (handFrame .shakeHand2 otherKey) ++
    clientHears 3 (handFrame .shakeHand2 sampleKey) ++
    serverHears 3 (handFrame .shakeHand2 sampleKey) (.socket 0) ++
    serverHears 5 (handFrame .shakeHand2 otherKey) (.socket 0)

/-- `bind` finds the port in use. -/
def BindAnswer.inUse (fd : ℕ) : BindAnswer :=
  { getaddrinfo := true, addrs := [{ socket := some fd, setsockopt := true, bind := false }] }

/-- The first message arrives again, and `bind` fails for it; then the second arrives. -/
def boundAgain : List (Host ℕ × Input ℕ) :=
  twoClients ++
    serverHears 3 (handFrame .shakeHand1 sampleKey) (.socket 7) ++
    clientHears 3 (handFrame .shakeHand2 sampleKey) ++
    serverHears 3 (handFrame .shakeHand1 sampleKey)
      { RecvAnswer.socket 9 with bind := .inUse 9 } ++
    serverHears 3 (handFrame .shakeHand2 sampleKey) (.socket 0)

theorem sessions_agreed_twoReady : ∃ l : Net ℕ ℕ,
    Run (Joint.step step) (KeepsPaths sampleWires) (.init (hosts fun _ => 0)) twoReady l ∧
      l.Agreed sampleWires ∧
      ∀ s ∈ ([3, 5] : List ℕ), ∃ obj ∈ (l.party .server).world.objs s,
        obj.hasServer = true ∧ obj.udp.status = .ready := by
  obtain ⟨l, hrun, htest⟩ := Run.exists_of_exec (Joint.step step)
    (fun l i => Net.sampleHonest l i = true ∧ Net.sampleConnects l i = true)
    (.init (hosts fun _ => 0)) twoReady
    (fun l : Net ℕ ℕ => decide ((l.generated.map Prod.fst).Nodup ∧
      ∀ s ∈ ([3, 5] : List ℕ), ∃ obj ∈ (l.party .server).world.objs s,
        obj.hasServer = true ∧ obj.udp.status = .ready)) (by decide +kernel)
  obtain ⟨hkeys, hready⟩ := of_decide_eq_true htest
  have hkeeps : Run _ (KeepsPaths sampleWires) _ twoReady l :=
    hrun.mono fun h => keepsPaths_of_sample h.1 h.2
  exact ⟨l, hkeeps, sessions_agreed hkeeps hkeys, hready⟩

/-- A session gets ready without a socket and a KCP object. -/
theorem not_sessions_agreed_boundAgain : ∃ l : Net ℕ ℕ,
    Run (Joint.step step) (Net.Honest sampleWires) (.init (hosts fun _ => 0)) boundAgain l ∧
      (l.generated.map Prod.fst).Nodup ∧ ¬ l.Agreed sampleWires := by
  obtain ⟨l, hrun, htest⟩ := Run.exists_of_exec (Joint.step step)
    (fun l i => Net.sampleHonest l i = true) (.init (hosts fun _ => 0)) boundAgain
    (fun l : Net ℕ ℕ => decide ((l.generated.map Prod.fst).Nodup ∧
      ∃ obj ∈ (l.party .server).world.objs 3,
        obj.hasServer = true ∧ obj.udp.status = .ready ∧ obj.udp.sock = 0)) (by decide +kernel)
  obtain ⟨hkeys, obj, hobj, hsession, hready, hsock⟩ := of_decide_eq_true htest
  refine ⟨l, hrun.mono honest_of_sample, hkeys, fun hagreed => ?_⟩
  obtain ⟨n, c, client, addr, hagreement⟩ := hagreed 3 obj hobj hsession hready
  exact hagreement.path.sock hsock

end KcpEv
