import KcpEv.Paths
import KcpEv.Confined
import KcpEv.KcpTimers
import KcpEv.Lib.Joint

/-!
A server and any number of clients, each on a host of its own. A session is connected
with one client; what arrives on the connection, through a KCP object or as a datagram
was sent by the other side. Datagrams get lost, repeated and delayed in any way, but
nobody makes one up.
-/
namespace KcpEv

open Guarded

variable {T : Type}

/-! A datagram of a KCP object is no frame. -/

namespace Ikcp

theorem IsDatagram.not_parses {d : Bytes} (h : IsDatagram d) (k : ℕ) {command : Command}
    {data : Bytes} : ¬ Parses (d.take k) command data := by
  intro hparse
  obtain ⟨segs, rfl, -⟩ := h
  unfold Parses parseFrame at hparse
  split at hparse
  · cases hparse
  rename_i hlen
  rw [Nat.not_lt] at hlen
  rw [headerFromNet_eq _ hlen] at hparse
  dsimp only at hparse
  split at hparse
  · cases hparse
  rw [Option.some.injEq, Prod.mk.injEq] at hparse
  rw [List.length_take, headerSize_eq] at hlen
  cases segs with
  | nil =>
    have hzero : (datagram []).length = 0 := rfl
    omega
  | cons seg segs =>
    have hbyte : ((datagram (seg :: segs)).take k)[4]? = some seg.cmd.toByte := by
      rw [List.getElem?_take_of_lt (by omega)]
      rfl
    rw [hbyte, Option.getD_some] at hparse
    have hne : seg.cmd.toByte ≠ command.toByte := by
      cases seg.cmd <;> cases command <;> decide
    exact hne hparse.1

/-- What the control blocks of a process are like, with the messages they have accepted. -/
def Kept (k : Logged Ikcp) : Prop := k.kcp.Bounded ∧ k.kcp.Filled

theorem kept_logged : KcpKept Kept IsDatagram where
  create := kept_bounded.create
  send h buf := kept_bounded.send h buf
  recv h len := kept_bounded.recv h len
  input h conv data := kept_bounded.input h conv data
  update h conv now := kept_bounded.update h conv now
  output h conv now := kept_bounded.output h conv now

end Ikcp

theorem emits_not_parses {os : Os (Logged Ikcp) T} (h : os.Confined Ikcp.Kept Ikcp.IsDatagram)
    {buf data : Bytes} {command : Command} (hbuf : os.Emits buf) : ¬ Parses buf command data := by
  obtain ⟨q, kcp, now, hkcp, d, hd, k, rfl⟩ := hbuf
  exact (Ikcp.kept_logged.output (h.kcps hkcp) kcp.conv now d hd).not_parses k

/-- Of a message only the whole is a frame. -/
theorem Parts.parses {command command' : Command} {msg buf data : Bytes} {ret : ℤ}
    {bufs : List Bytes} (h : Parts command msg ret bufs) (hbuf : buf ∈ bufs)
    (hparse : Parses buf command' data) : command' = command ∧ data = msg ∧ ret = 0 := by
  cases h with
  | unsent => cases hbuf
  | part hframe hk =>
    rw [List.mem_singleton.mp hbuf] at hparse
    exact absurd hparse.isFrame (header.not_isFrame_take hframe.isFrame hk)
  | whole hframe hret =>
    rw [List.mem_singleton.mp hbuf] at hparse
    obtain ⟨hcommand, hdata⟩ := hframe.parses.unique hparse
    exact ⟨hcommand, hdata, hret⟩

/-! The hosts and what is said between them. -/

inductive Host (ι : Type)
  | server
  | client (n : ι)
  deriving DecidableEq

abbrev Net (ι T : Type) := Joint.State (Host ι) (Process (Logged Ikcp) T) (Input T)

abbrev Event (ι T : Type) := Joint.Moment (Host ι) (Process (Logged Ikcp) T) (Input T)

variable {ι : Type}

def hosts (now : Host ι → T) (h : Host ι) : Process (Logged Ikcp) T := .init (now h)

inductive Way
  | tcp | kcp | udp
  deriving DecidableEq

def Traffic.on (t : Traffic) : Way → List Bytes
  | .tcp => t.tcp
  | .kcp => t.kcp
  | .udp => t.udp

/-- In this step a session or a client sends the bytes on its TCP or UDP socket, or gives
them to its KCP object. -/
def Event.Says (m : Event ι T) (c : ℕ) (session : Bool) (way : Way) (buf : Bytes) : Prop :=
  ∃ obj, m.after.world.objs c = some obj ∧ obj.hasServer = session ∧
    buf ∈ (m.before.world.traffic m.after.world c).on way

def Net.Said (l : Net ι T) (h : Host ι) (c : ℕ) (session : Bool) (way : Way) (buf : Bytes) : Prop :=
  ∃ m ∈ l.history, m.who = h ∧ Event.Says m c session way buf

/-- The client at the other end of the connection of each session, with its host, and the
address that the datagrams sent in a step come from. -/
structure Wires (ι T : Type) where
  peer : ℕ → ι × ℕ
  one : Function.Injective peer
  source : Event ι T → Addr

/-- The frame in front of which a process stands was sent by the other side. -/
def Net.Genuine (x : Wires ι T) (l : Net ι T) (h : Host ι) (src : Source) (addr : Addr)
    (buf : Bytes) : Prop :=
  match h, src with
  | .server, .serverTcpRecv s => l.Said (.client (x.peer s).1) (x.peer s).2 false .tcp buf
  | .server, .tryKcpRecv s _ => l.Said (.client (x.peer s).1) (x.peer s).2 false .kcp buf
  | .server, .serverUdpRecv _ | .server, .serverUdpRecvAll =>
    ∃ m ∈ l.history, ∃ n c, m.who = .client n ∧ Event.Says m c false .udp buf ∧ x.source m = addr
  | .client n, .clientTcpRecv c => ∃ s, x.peer s = (n, c) ∧ l.Said .server s true .tcp buf
  | .client n, .tryKcpRecv c _ => ∃ s, x.peer s = (n, c) ∧ l.Said .server s true .kcp buf
  | .client _, .clientUdpRecv _ => ∃ s, l.Said .server s true .udp buf
  | .server, .clientTcpRecv _ | .server, .clientUdpRecv _ | .client _, .serverTcpRecv _
  | .client _, .serverUdpRecv _ | .client _, .serverUdpRecvAll => False

/-- Nothing is made up, and there is memory for what a frame asks for. -/
structure Net.Honest (x : Wires ι T) (l : Net ι T) (i : Host ι × Input T) : Prop where
  genuine : ∀ src addr buf a, Dispatches (l.party i.1) i.2 src addr buf a →
    Net.Genuine x l i.1 src addr buf
  memory : ∀ a, i.2 = .round a → a.kcp ∧ a.evio ∧ a.evt ∧ a.evh

/-- The keys the server has generated, with the sessions they were generated for. -/
def Net.generated (l : Net ι T) : List (KcpevKey × ℕ) :=
  l.history.flatMap fun m =>
    match m.who with
    | .server => m.before.generated m.input
    | .client _ => []

theorem mem_generated {l : Net ι T} {e : KcpevKey × ℕ} : e ∈ l.generated ↔
    ∃ m ∈ l.history, m.who = .server ∧ e ∈ m.before.generated m.input := by
  unfold Net.generated
  rw [List.mem_flatMap]
  constructor
  · rintro ⟨m, hm, he⟩
    split at he
    · exact ⟨m, hm, by assumption, he⟩
    · cases he
  · rintro ⟨m, hm, hwho, he⟩
    refine ⟨m, hm, ?_⟩
    rw [hwho]
    exact he

section Run
variable [ClockImpl T] [DecidableEq ι] {x : Wires ι T}
  {ok : Net ι T → Host ι × Input T → Prop} {now : Host ι → T} {is : List (Host ι × Input T)}
  {l l' : Net ι T} {history : List (Event ι T)} {m : Event ι T} {h : Host ι} {i : Input T} {c s : ℕ}
  {n : ι} {buf data : Bytes} {command : Command} {src : Source} {addr : Addr} {a : RecvAnswer}

/-- What holds of the process of every host. -/
structure Process.Regular (p : Process (Logged Ikcp) T) : Prop where
  typed : p.Typed
  separate : p.world.Separate
  confined : p.world.os.Confined Ikcp.Kept Ikcp.IsDatagram
  registered : ∃ known, World.Registered known p.world

theorem host_regular (hrun : Run (Joint.step step) ok (.init (hosts now)) is l) (h : Host ι) :
    (l.party h).Regular := by
  obtain ⟨js, hjs⟩ := Joint.party_run (Q := fun _ _ => True) (fun _ => trivial) hrun h
  exact ⟨run_typed hjs, run_separate hjs, run_confined Ikcp.kept_logged hjs, _, run_registered hjs⟩

theorem taken_regular (htaken : Joint.Taken step ok (hosts now) history m l) :
    m.before.Regular := by
  obtain ⟨is, hrun⟩ := htaken.run
  rw [htaken.before]
  exact host_regular hrun m.who

/-- A step of the server generates a key, or none; a step of a client generates none. -/
theorem generated_step (hs : Joint.step step l (h, i) = .ok l') : l'.generated = l.generated ++
    match h with
    | .server => (l.party .server).generated i
    | .client _ => [] := by
  obtain ⟨-, hhistory⟩ := Joint.step_self hs
  unfold Net.generated
  rw [hhistory, List.flatMap_append]
  cases h <;> simp

theorem generated_mono (hs : Joint.step step l (h, i) = .ok l') {e : KcpevKey × ℕ}
    (he : e ∈ l.generated) : e ∈ l'.generated := by
  rw [generated_step hs]
  exact List.mem_append_left _ he

theorem taken_generated {l₀ : Net ι T} (htaken : Joint.Taken step ok (hosts now) l.history m l₀)
    {e : KcpevKey × ℕ} (he : e ∈ l₀.generated) : e ∈ l.generated := by
  obtain ⟨m₀, hm₀, hgenerated⟩ := mem_generated.mp he
  exact mem_generated.mpr ⟨m₀, htaken.mem hm₀, hgenerated⟩

/-- The sessions have the keys that were generated for them, one for each. -/
theorem server_registered (hrun : Run (Joint.step step) ok (.init (hosts now)) is l) :
    World.Registered l.generated (l.party .server).world ∧
      ∀ {k k' s}, (k, s) ∈ l.generated → (k', s) ∈ l.generated → k = k' := by
  induction hrun with
  | nil =>
    refine ⟨(World.exact_init (now .server)).toRegistered, ?_⟩
    intro k k' s hk
    cases hk
  | @snoc is l l' i hrun hok hs ih =>
    obtain ⟨h, i⟩ := i
    obtain ⟨hreg, hone⟩ := ih
    rw [generated_step hs]
    cases h with
    | client n =>
      simp only [List.append_nil]
      rw [Joint.step_other hs (by simp)]
      exact ⟨hreg, hone⟩
    | server =>
      obtain ⟨hnext, -⟩ := Joint.step_self hs
      refine ⟨registered_step (host_regular hrun .server).typed hreg hnext, ?_⟩
      have new : ∀ {k s}, (k, s) ∈ (l.party .server).generated i →
          (l.party .server).generated i = [(k, (l.party .server).world.os.next)] ∧
            s = (l.party .server).world.os.next := by
        intro k s hk
        rcases hadds : (l.party .server).hashAdds i with _ | a
        · rw [generated_none hadds] at hk
          cases hk
        · rw [generated_some hadds] at hk ⊢
          rw [List.mem_singleton, Prod.mk.injEq] at hk
          exact ⟨by rw [hk.1], hk.2⟩
      intro k k' s hk hk'
      rcases List.mem_append.mp hk with hold | hnew
      · rcases List.mem_append.mp hk' with hold' | hnew'
        · exact hone hold hold'
        · have hlt := (hreg.role hold).1
          rw [(new hnew').2] at hlt
          exact absurd hlt (lt_irrefl _)
      · obtain ⟨heq, rfl⟩ := new hnew
        rcases List.mem_append.mp hk' with hold' | hnew'
        · exact absurd (hreg.role hold').1 (lt_irrefl _)
        · rw [heq, List.mem_singleton, Prod.mk.injEq] at hnew'
          exact hnew'.1.symm

theorem session_generated (hrun : Run (Joint.step step) ok (.init (hosts now)) is l)
    {obj : Kcpev T} (hobj : (l.party .server).world.objs s = some obj)
    (hserver : obj.hasServer = true) : (obj.key, s) ∈ l.generated := by
  obtain ⟨hreg, -⟩ := server_registered hrun
  exact hreg.hash (hreg.session (World.sessionKey_eq_some.mpr ⟨obj, hobj, hserver, rfl⟩))

theorem said_kcp (hrun : Run (Joint.step step) ok (.init (hosts now)) is l) {session : Bool}
    (hsaid : l.Said h c session .kcp buf) (hparse : Parses buf command data) :
    command = .data ∨ command = .heartbeat1 ∨ command = .heartbeat2 := by
  obtain ⟨m, hm, -, obj, -, -, hbuf⟩ := hsaid
  obtain ⟨l₀, htaken⟩ := Joint.taken hrun hm
  have hreg := taken_regular htaken
  obtain ⟨obj, -, hgiven⟩ := step_given hreg.typed hreg.separate htaken.next hbuf
  exact hgiven.command hparse

theorem said_tcp_client (hrun : Run (Joint.step step) ok (.init (hosts now)) is l)
    (hsaid : l.Said h c false .tcp buf) (hparse : Parses buf command data) :
    command = .data ∨ command = .udpInvalid := by
  obtain ⟨m, hm, -, obj', hobj', hclient, hbuf⟩ := hsaid
  obtain ⟨l₀, htaken⟩ := Joint.taken hrun hm
  have hreg := taken_regular htaken
  rcases step_put hreg.typed hreg.separate htaken.next hbuf with ⟨obj, -, hput⟩ |
    ⟨obj, hobj, hserver, -⟩
  · cases hput with
    | data hframe => exact Or.inl (hframe.parses_take hparse).1
    | late hframe => exact Or.inr (hframe.parses_take hparse).1
  · rw [hobj', Option.some.injEq] at hobj
    rw [hobj, hserver] at hclient
    cases hclient

/-- A key that a session sends on its connection was generated for it. -/
theorem said_tcp_key (hrun : Run (Joint.step step) ok (.init (hosts now)) is l)
    (hsaid : l.Said .server s true .tcp buf) {key : KcpevKey}
    (hparse : Parses buf .shakeHand1 key.val) : (key, s) ∈ l.generated := by
  obtain ⟨m, hm, hwho, -, -, -, hbuf⟩ := hsaid
  obtain ⟨l₀, htaken⟩ := Joint.taken hrun hm
  have hregular := taken_regular htaken
  rcases step_put hregular.typed hregular.separate htaken.next hbuf with ⟨obj, -, hput⟩ |
    ⟨obj, hobj, hserver, hframe⟩
  · cases hput with
    | data hframe => cases (hframe.parses_take hparse).1
    | late hframe => cases (hframe.parses_take hparse).1
  · obtain ⟨is₀, hrun₀⟩ := htaken.run
    have hbefore := htaken.before
    rw [hwho] at hbefore
    have hreg := (server_registered hrun₀).1
    rw [← hbefore] at hreg
    have hafter := registered_step hregular.typed hreg htaken.next
    have hmem := hafter.hash
      (hafter.session (World.sessionKey_eq_some.mpr ⟨obj, hobj, hserver, rfl⟩))
    have hkey : key = obj.key := Subtype.ext (hframe.parses.unique hparse).2
    rw [hkey]
    rcases List.mem_append.mp hmem with hold | hnew
    · exact taken_generated htaken hold
    · exact mem_generated.mpr ⟨m, hm, hwho, hnew⟩

/-- The commands of a handshake. -/
def Command.IsHand : Command → Prop
  | .shakeHand1 | .shakeHand2 => True
  | .data | .heartbeat1 | .heartbeat2 | .udpInvalid => False

theorem not_hand_kcp (hrun : Run (Joint.step step) ok (.init (hosts now)) is l) {session : Bool}
    (hsaid : l.Said h c session .kcp buf) (hparse : Parses buf command data) :
    ¬ command.IsHand := by
  rcases said_kcp hrun hsaid hparse with rfl | rfl | rfl
  all_goals exact id

/-- A handshake message that the server dispatches is a datagram of a client. -/
theorem server_hand (hrun : Run (Joint.step step) ok (.init (hosts now)) is l)
    (hgenuine : Net.Genuine x l .server src addr buf) (hparse : Parses buf command data)
    (hhand : command.IsHand) : (∀ w c, ¬ src.ToClient (K := Logged Ikcp) (T := T) w c) ∧
      ∃ m ∈ l.history, ∃ n c, m.who = .client n ∧ Event.Says m c false .udp buf ∧
        x.source m = addr := by
  cases src with
  | serverTcpRecv s =>
    rcases said_tcp_client hrun hgenuine hparse with rfl | rfl
    · exact hhand.elim
    · exact hhand.elim
  | serverUdpRecv s => exact ⟨fun _ _ => id, hgenuine⟩
  | serverUdpRecvAll => exact ⟨fun _ _ => id, hgenuine⟩
  | clientTcpRecv => exact hgenuine.elim
  | clientUdpRecv => exact hgenuine.elim
  | tryKcpRecv s => exact absurd hhand (not_hand_kcp hrun hgenuine hparse)

/-- A handshake message that the host of a client dispatches is for a client. It came on
its connection, or it is a datagram of a session. -/
theorem client_hand (hrun : Run (Joint.step step) ok (.init (hosts now)) is l)
    (hgenuine : Net.Genuine x l (.client n) src addr buf) (hparse : Parses buf command data)
    (hhand : command.IsHand) : (∀ w, ¬ src.ToServer (K := Logged Ikcp) (T := T) w) ∧
      ∀ w c, src.ToClient (K := Logged Ikcp) (T := T) w c →
        (∃ s, x.peer s = (n, c) ∧ l.Said .server s true .tcp buf) ∨
          ∃ s, l.Said .server s true .udp buf := by
  cases src with
  | serverTcpRecv => exact hgenuine.elim
  | serverUdpRecv => exact hgenuine.elim
  | serverUdpRecvAll => exact hgenuine.elim
  | clientTcpRecv c =>
    refine ⟨fun _ => id, fun _ c' hc' => Or.inl ?_⟩
    cases hc'
    exact hgenuine
  | clientUdpRecv c => exact ⟨fun _ => id, fun _ _ _ => Or.inr hgenuine⟩
  | tryKcpRecv c =>
    obtain ⟨s, -, hsaid⟩ := hgenuine
    exact absurd hhand (not_hand_kcp hrun hsaid hparse)

/-- The only frames among the datagrams of a session are second messages of a handshake. -/
theorem said_udp_server (hrun : Run (Joint.step step) (Net.Honest x) (.init (hosts now)) is l)
    (hsaid : l.Said .server s true .udp buf) (hparse : Parses buf command data) :
    command = .shakeHand2 := by
  obtain ⟨m, hm, hwho, obj', hobj', -, hbuf⟩ := hsaid
  obtain ⟨l₀, htaken⟩ := Joint.taken hrun hm
  have hregular := taken_regular htaken
  obtain ⟨is₀, hrun₀⟩ := htaken.run
  have foreign : ∀ {src : Source} {addr : Addr} {buf data : Bytes} {command : Command}
      {a : RecvAnswer}, Dispatches m.before m.input src addr buf a →
      src.ToClient m.before.world s → Parses buf command data → command.IsHand → False := by
    intro src addr buf data command a hframe hsrc hparse hhand
    rw [htaken.before] at hframe
    have hgenuine := htaken.ok.genuine src addr buf a hframe
    rw [hwho] at hgenuine
    exact (server_hand hrun₀ hgenuine hparse hhand).1 _ _ hsrc
  rcases step_object hregular.typed hregular.separate htaken.next hobj' with ⟨-, hbirth⟩ |
    ⟨obj, -, -, hact⟩
  · generalize m.before.world.traffic m.after.world s = t at hbirth hbuf
    cases hbirth with
    | client => cases hbuf
    | session => cases hbuf
  · generalize m.before.world.traffic m.after.world s = t at hact hbuf
    cases hact with
    | data _ _ _ hudp =>
      rw [Traffic.on, hudp] at hbuf
      cases hbuf
    | segments _ _ hbufs =>
      exact absurd hparse (emits_not_parses hregular.confined (hbufs buf hbuf))
    | keyed hframe hsrc hkey => exact (foreign hframe hsrc hkey trivial).elim
    | confirm hframe hsrc hkey => exact (foreign hframe hsrc hkey trivial).elim
    | ready hframe hsrc hkey => exact (foreign hframe hsrc hkey trivial).elim
    | connected _ _ _ _ hparts => exact (hparts.parses hbuf hparse).1
    | still | ask | clientLate | serverLate | reply | refresh | echo | told | cleared | started =>
      cases hbuf

/-- A client gets its key from its session. -/
theorem client_key (hrun : Run (Joint.step step) (Net.Honest x) (.init (hosts now)) is l)
    (hok : Net.Honest x l (.client n, i)) {src : Source} {addr : Addr} {buf : Bytes}
    {a : RecvAnswer} (hframe : Dispatches (l.party (.client n)) i src addr buf a)
    (hsrc : src.ToClient (l.party (.client n)).world c) {key : KcpevKey}
    (hparse : Parses buf .shakeHand1 key.val) :
    ∃ s, (key, s) ∈ l.generated ∧ x.peer s = (n, c) := by
  have hgenuine := hok.genuine src addr buf a hframe
  rcases (client_hand hrun hgenuine hparse trivial).2 _ _ hsrc with ⟨s, hpeer, hsaid⟩ | ⟨s, hsaid⟩
  · exact ⟨s, said_tcp_key hrun hsaid hparse, hpeer⟩
  · cases said_udp_server hrun hsaid hparse

end Run

end KcpEv
