import KcpEv.Sources
import KcpEv.ServerHash
import KcpEv.Lib.Joint

/-!
A connection: the process of the server with one session, and the process of its
client. The two take their steps in any order, and every step is remembered. What
arrives from the other end is what the other end has put on the connection, or what
its KCP object has accepted; nothing is assumed of datagrams.
-/
namespace KcpEv

open Guarded

inductive End
  | server | client
  deriving DecidableEq, Repr

def End.other : End → End
  | .server => .client
  | .client => .server

theorem End.other_other (e : End) : e.other.other = e := by
  cases e <;> rfl

/-- The two processes, with the steps they have taken. -/
abbrev Link (K T : Type) := Joint.State End (Process (Logged K) T) (Input T)

abbrev Moment (K T : Type) := Joint.Moment End (Process (Logged K) T) (Input T)

variable {K T : Type}

/-- The processes before they call the library. -/
def ends (now : End → T) (e : End) : Process (Logged K) T := .init (now e)

/-- The frame a step dispatches. -/
def Process.hears (p : Process K T) : Input T → Option (Source × Bytes)
  | .round _ =>
    match p.ctl with
    | .frame src _ buf => some (src, buf)
    | .loop | .drain .. | .closing _ => none
  | _ => none

theorem hears_eq_some {p : Process K T} {i : Input T} {src : Source} {buf : Bytes} :
    p.hears i = some (src, buf) ↔ ∃ addr a, Dispatches p i src addr buf a := by
  constructor
  · intro h
    unfold Process.hears at h
    split at h
    · split at h
      · rename_i hctl
        cases h
        exact ⟨_, _, hctl, rfl⟩
      · cases h
      · cases h
      · cases h
    · cases h
  · rintro ⟨addr, a, hctl, rfl⟩
    simp [Process.hears, hctl]

section Ends
variable (x : End → ℕ)

/-- What the object at its end puts and gives in a step. -/
def Moment.traffic (m : Moment K T) : Traffic :=
  m.before.world.traffic m.after.world (x m.who)

/-- The frames the KCP object at an end has accepted. -/
def Link.gave (l : Link K T) (e : End) : List Bytes :=
  (l.history.filter fun m => m.who = e).flatMap fun m => (Moment.traffic x m).kcp

/-- What was put on the connection at an end. -/
def Link.put (l : Link K T) (e : End) : List Bytes :=
  (l.history.filter fun m => m.who = e).flatMap fun m => (Moment.traffic x m).tcp

/-- The next step dispatches nothing on behalf of its end that the other end has not
put on the connection or given to its KCP object. -/
def FromPeer (l : Link K T) (i : End × Input T) : Prop :=
  match (l.party i.1).hears i.2 with
  | some (.tryKcpRecv c _, buf) => c = x i.1 → buf ∈ l.gave x i.1.other
  | some (.serverTcpRecv c, buf) | some (.clientTcpRecv c, buf) =>
    c = x i.1 → buf ∈ l.put x i.1.other
  | some (.serverUdpRecv _, _) | some (.clientUdpRecv _, _) | some (.serverUdpRecvAll, _)
  | none => True

instance (l : Link K T) (i : End × Input T) : Decidable (FromPeer x l i) := by
  unfold FromPeer
  split <;> infer_instance

theorem mem_gave {l : Link K T} {e : End} {buf : Bytes} : buf ∈ l.gave x e ↔
    ∃ m ∈ l.history, m.who = e ∧ buf ∈ (Moment.traffic x m).kcp := by
  simp [Link.gave, and_assoc]

theorem mem_put {l : Link K T} {e : End} {buf : Bytes} : buf ∈ l.put x e ↔
    ∃ m ∈ l.history, m.who = e ∧ buf ∈ (Moment.traffic x m).tcp := by
  simp [Link.put, and_assoc]

end Ends

section Run
variable [KcpImpl K] [ClockImpl T] {x : End → ℕ} {ok : Link K T → End × Input T → Prop}
  {now : End → T} {is : List (End × Input T)} {l : Link K T} {history : List (Moment K T)}
  {m : Moment K T} {e : End} {i : Input T}

theorem party_typed (hrun : Run (Joint.step step) ok (.init (ends now)) is l) (e : End) :
    (l.party e).Typed ∧ (l.party e).world.Separate := by
  obtain ⟨js, hjs⟩ := Joint.party_run (Q := fun _ _ => True) (fun _ => trivial) hrun e
  exact ⟨run_typed hjs, run_separate hjs⟩

theorem party_raw (hrun : Run (Joint.step step) ok (.init (ends now)) is l) (e : End) :
    (l.party e).ctl.Raw (l.party e).world := by
  obtain ⟨js, hjs⟩ := Joint.party_run (Q := fun _ _ => True) (fun _ => trivial) hrun e
  exact hjs.invariant (P := fun p => p.ctl.Raw p.world) trivial fun hp _ hs => step_raw hp hs

theorem taken_typed (h : Joint.Taken step ok (ends now) history m l) :
    m.before.Typed ∧ m.before.world.Separate := by
  obtain ⟨is, hrun⟩ := h.run
  rw [h.before]
  exact party_typed hrun m.who

theorem taken_given (h : Joint.Taken step ok (ends now) history m l) {frame : Bytes}
    (hframe : frame ∈ (Moment.traffic x m).kcp) : ∃ obj, m.before.world.objs (x m.who) = some obj ∧
      Given m.before m.input (x m.who) obj frame := by
  obtain ⟨hp, hsep⟩ := taken_typed h
  exact step_given hp hsep h.next hframe

theorem taken_put (h : Joint.Taken step ok (ends now) history m l) {buf : Bytes}
    (hbuf : buf ∈ (Moment.traffic x m).tcp) :
    (∃ obj, m.before.world.objs (x m.who) = some obj ∧ Put obj buf) ∨
      ∃ key : KcpevKey, Frame .shakeHand1 key.val buf := by
  obtain ⟨hp, hsep⟩ := taken_typed h
  rcases step_put hp hsep h.next hbuf with hold | ⟨obj', -, -, hframe⟩
  · exact Or.inl hold
  · exact Or.inr ⟨_, hframe⟩

/-- What arrives on the connection is data, the key or a notification. -/
theorem put_command (hrun : Run (Joint.step step) ok (.init (ends now)) is l) {buf data : Bytes}
    {command : Command} (hbuf : buf ∈ l.put x e) (hparse : Parses buf command data) :
    command = .data ∨ command = .udpInvalid ∨ command = .shakeHand1 := by
  obtain ⟨m, hm, -, hput⟩ := (mem_put x).mp hbuf
  obtain ⟨l₀, htaken⟩ := Joint.taken hrun hm
  rcases taken_put htaken hput with ⟨obj, -, hput⟩ | ⟨key, hframe⟩
  · cases hput with
    | data hframe => exact Or.inl (hframe.parses_take hparse).1
    | late hframe => exact Or.inr (Or.inl (hframe.parses_take hparse).1)
  · exact Or.inr (Or.inr (hframe.parses.unique hparse).1)

/-- What arrives through KCP is data or a heartbeat. -/
theorem gave_command (hrun : Run (Joint.step step) ok (.init (ends now)) is l)
    {frame data : Bytes} {command : Command} (hframe : frame ∈ l.gave x e)
    (hparse : Parses frame command data) :
    command = .data ∨ command = .heartbeat1 ∨ command = .heartbeat2 := by
  obtain ⟨m, hm, -, hgave⟩ := (mem_gave x).mp hframe
  obtain ⟨l₀, htaken⟩ := Joint.taken hrun hm
  obtain ⟨obj, -, hgiven⟩ := taken_given htaken hgave
  exact hgiven.command hparse

omit [KcpImpl K] [ClockImpl T] in
theorem FromPeer.kcp {q : ℕ} {addr : Addr} {buf : Bytes} {a : RecvAnswer} (h : FromPeer x l (e, i))
    (hdispatch : Dispatches (l.party e) i (.tryKcpRecv (x e) q) addr buf a) :
    buf ∈ l.gave x e.other := by
  have hhears := hears_eq_some.mpr ⟨addr, a, hdispatch⟩
  unfold FromPeer at h
  rw [hhears] at h
  exact h rfl

omit [KcpImpl K] [ClockImpl T] in
theorem FromPeer.tcp {src : Source} {addr : Addr} {buf : Bytes} {a : RecvAnswer}
    (h : FromPeer x l (e, i)) (hdispatch : Dispatches (l.party e) i src addr buf a)
    (hsrc : src = .serverTcpRecv (x e) ∨ src = .clientTcpRecv (x e)) :
    buf ∈ l.put x e.other := by
  have hhears := hears_eq_some.mpr ⟨addr, a, hdispatch⟩
  unfold FromPeer at h
  rw [hhears] at h
  rcases hsrc with rfl | rfl
  · exact h rfl
  · exact h rfl

/-- Each end drains the KCP object that it has. -/
theorem party_drains (hok : ∀ {l i}, ok l i → FromPeer x l i)
    (hrun : Run (Joint.step step) ok (.init (ends now)) is l) (e : End) :
    (l.party e).ctl.Drains (l.party e).world (x e) := by
  induction hrun with
  | nil =>
    intro q hsrc
    cases hsrc
  | @snoc is l l' i hrun hi hs ih =>
    rcases eq_or_ne e i.1 with heq | hne
    · obtain ⟨hp, hsep⟩ := party_typed hrun e
      have hnext := (Joint.step_self hs).1
      rw [← heq] at hnext
      refine step_drains hp hsep ih (fun {q addr buf a data} hdispatch hparse => ?_) hnext
      have hpeer := hok hi
      rw [← Prod.mk.eta (p := i), ← heq] at hpeer
      rcases gave_command hrun (hpeer.kcp hdispatch) hparse with hc | hc | hc
      · cases hc
      · cases hc
      · cases hc
    · rw [Joint.step_other hs hne]
      exact ih

/-- While its KCP object is in use, all that is dispatched for a client was sent by the
other end. -/
theorem client_source (hrun : Run (Joint.step step) ok (.init (ends now)) is l)
    (hpeer : FromPeer x l (e, i)) {src : Source} {addr : Addr} {buf : Bytes} {a : RecvAnswer}
    {obj : Kcpev T} (hframe : Dispatches (l.party e) i src addr buf a)
    (hsrc : src.ToClient (l.party e).world (x e))
    (hobj : (l.party e).world.objs (x e) = some obj) (hvalid : obj.udp.isKcpValid) :
    buf ∈ l.put x e.other ∨ buf ∈ l.gave x e.other := by
  rcases src with c | c | c | c | _ | ⟨c, q⟩
  · exact hsrc.elim
  · cases hsrc
    exact Or.inl (hpeer.tcp hframe (Or.inr rfl))
  · exact hsrc.elim
  · cases hsrc
    have hraw := party_raw hrun e
    rw [hframe.ctl] at hraw
    exact absurd hvalid (hraw obj hobj)
  · exact hsrc.elim
  · obtain ⟨rfl, -⟩ := hsrc
    exact Or.inr (hpeer.kcp hframe)

/-- And so it is with a session; what comes out of KCP comes out of its KCP object. -/
theorem session_source (hok : ∀ {l i}, ok l i → FromPeer x l i)
    (hrun : Run (Joint.step step) ok (.init (ends now)) is l) (hpeer : FromPeer x l (e, i))
    {src : Source} {addr : Addr} {buf : Bytes} {a : RecvAnswer} {obj : Kcpev T}
    (hframe : Dispatches (l.party e) i src addr buf a) (hsrc : src.ToSession (x e))
    (hobj : (l.party e).world.objs (x e) = some obj) (hvalid : obj.udp.isKcpValid) :
    buf ∈ l.put x e.other ∨
      ∃ q, src = .tryKcpRecv (x e) q ∧ obj.udp.kcp = some q ∧ buf ∈ l.gave x e.other := by
  rcases src with c | c | c | c | _ | ⟨c, q⟩
  · cases hsrc
    exact Or.inl (hpeer.tcp hframe (Or.inl rfl))
  · exact hsrc.elim
  · cases hsrc
    have hraw := party_raw hrun e
    rw [hframe.ctl] at hraw
    exact absurd hvalid (hraw obj hobj)
  · exact hsrc.elim
  · exact hsrc.elim
  · cases hsrc
    refine Or.inr ⟨q, rfl, ?_, hpeer.kcp hframe⟩
    refine (party_drains hok hrun e q ?_).2 obj hobj
    rw [hframe.ctl]
    rfl

end Run

/-! A connection for the examples: the network of its KCP objects loses nothing, and a
datagram is a message. -/

structure Mailbox where
  sent : List Bytes
  arrived : List Bytes

instance mailboxKcp : KcpImpl Mailbox where
  create := ⟨[], []⟩
  send k buf := (⟨k.sent ++ [buf], k.arrived⟩, 0)
  recv k _ :=
    match k.arrived with
    | [] => (k, none)
    | buf :: rest => (⟨k.sent, rest⟩, some buf)
  input _ k data := (⟨k.sent, k.arrived ++ [data]⟩, 0)
  check _ now := now
  update _ k _ := (⟨[], k.arrived⟩, k.sent)

/-- Where the session and the client of the examples are. -/
def sampleEnds : End → ℕ
  | .server => 3
  | .client => 1

def TimerAnswer.whole : TimerAnswer := { output := fun _ => some 65536, send := .whole }

/-- The client connects, and both ends get ready. -/
def bothReady : List (End × Input T) :=
  [(.server, .createServer (.sockets 3 4)),
    (.server, .io 1 (.accepts (.connection 5 9 sampleKey))),
    (.client, .createClient
      { alloc := true, bind := .sockets 5 6, kcp := true, initEv := ⟨true, true⟩ }),
    (.client, .connect 1 9 { tcp := { getaddrinfo := true, connects := [true] }
                             udp := { getaddrinfo := true, connects := [true] } }),
    (.client, .io 3 (.receives (handshakeFrame .shakeHand1) 9)),
    (.client, .round (.socket 0)), (.client, .round (.socket 0)),
    (.server, .io 2 (.receives (handshakeFrame .shakeHand1) 9)), (.server, .round (.socket 6)),
    (.client, .io 4 (.receives (handshakeFrame .shakeHand2) 9)), (.client, .round (.socket 0)),
    (.server, .io 2 (.receives (handshakeFrame .shakeHand2) 9)), (.server, .round (.socket 0))]

/-- The datagram of a frame arrives at a KCP object, and is dispatched. -/
def arrives (e : End) (w : ℕ) (frame : Bytes) : List (End × Input T) :=
  [(e, .io w (.receives frame 9)), (e, .round (.socket 0)), (e, .round (.socket 0)),
    (e, .round (.socket 0))]

/-- The answer of the server with this token, or its echo. -/
def answerFrame (command : Command) (token : UInt64) : Bytes :=
  frameBytes command.toByte [0, 0, 0] (sampleKey.val ++ htobe64 token)

end KcpEv
