import KcpEv.Callbacks
import KcpEv.OnRecvCases

/-!
A process that uses the library, as a state machine. A step is one call of the
application, one event of the loop, or one round of a running callback: the
taking of a frame, its dispatch, or the closing of a connection.
-/
namespace KcpEv

structure Process (K T : Type) where
  world : World K T
  ctl : Control

inductive Input (T : Type)
  | createClient (a : CreateClientAnswer)
  | createServer (a : CreateServerAnswer)
  | serverDestroy
  | setCb (c : ℕ)
  | serverSetCb
  | connect (c : ℕ) (addr : Addr) (a : KcpevConnectAnswer)
  | send (c : ℕ) (msg : Bytes) (a : SendAnswer)
  | sendTcp (c : ℕ) (msg : Bytes) (a : SendAnswer)
  /-- the clock of the loop moves -/
  | now (now : T)
  /-- the loop finds a descriptor readable -/
  | io (w : ℕ) (a : IoAnswer)
  /-- a timer expires -/
  | timer (w : ℕ) (a : TimerAnswer)
  /-- the running callback goes on -/
  | round (a : RecvAnswer)

variable {K T : Type}

namespace World

/-! The calls of the application. -/

def kcpevSetCb (w : World K T) (c : ℕ) : Exec (World K T) := do
  let client ← w.kcpev c
  return w.store w.os c { client with hasRecvCb := true }

def kcpevServerSetCb (w : World K T) : Exec (World K T) := do
  let server ← w.kcpevServer
  return { w with server := some { server with hasRecvCb := true } }

/-- An application connects the clients it has created itself. -/
def connect (w : World K T) (c : ℕ) (addr : Addr) (a : KcpevConnectAnswer) :
    Exec (World K T) := do
  let client ← w.kcpev c
  if client.hasServer then return w
  else
    match kcpevConnect w.os client.toKcpevBase addr a with
    | (os, b, _) => return w.store os c { client with toKcpevBase := b }

def sendTcp (w : World K T) (c : ℕ) (msg : Bytes) (a : SendAnswer) : Exec (World K T) := do
  let client ← w.kcpev c
  let (os, _) ← kcpevSendTcp w.os client.toKcpevBase msg a
  return { w with os }

section Kcp
variable [KcpImpl K]

def send (w : World K T) (c : ℕ) (msg : Bytes) (a : SendAnswer) : Exec (World K T) := do
  let client ← w.kcpev c
  let (os, _) ← kcpevSend w.os client.toKcpevBase msg a
  return { w with os }

def ikcpRecv (w : World K T) (p size : ℕ) : Exec (World K T × Option Bytes) :=
  match w.os.kcps p with
  | none => .error .useAfterFree
  | some k =>
    let (state, answer) := KcpImpl.recv k.state size
    .ok ({ w with os := w.os.setKcp p { k with state } }, answer)

end Kcp

end World

/-! The loop. -/

section Loop
variable [KcpImpl K] [ClockImpl T]

omit [ClockImpl T] in
/-- `get_tcp_buf_chunk`, or `ikcp_recv` with what follows it up to the dispatch. -/
def drainRound (w : World K T) (src : Source) (addr : Addr) : Exec (World K T × Control) :=
  match src with
  | .serverTcpRecv c | .clientTcpRecv c => do
    let client ← w.kcpev c
    let (rb, chunk) ← TcpRecv.getTcpBufChunk client.tcp.rb kcpevBufferSize
    let w := w.setRb c client rb
    if chunk = [] then return (w, .loop)
    else return w.toFrame src addr chunk
  | .tryKcpRecv c p => do
    let (w, answer) ← w.ikcpRecv p kcpevBufferSize
    match answer with
    | none | some [] => return (w, .loop)
    | some (b :: rest) =>
      let buf := b :: rest
      -- `buf[len] = '\0'`
      if kcpevBufferSize ≤ buf.length then throw .outOfBounds
      else
        let kcpev ← w.kcpev c
        if kcpev.hasServer then
          match w.os.getpeername kcpev.udp.sock with
          | none => return (w, .loop)
          | some addr => return w.toFrame src addr buf
        else return w.toFrame src addr buf
  | .serverUdpRecv _ | .clientUdpRecv _ | .serverUdpRecvAll => .ok (w, .loop)

/-- `on_server_recv(client->server, client, ...)` -/
def onSessionRecv (w : World K T) (c : ℕ) (buf : Bytes) (addr : Addr) (a : RecvAnswer) :
    Exec (World K T × ℤ) := do
  let client ← w.kcpev c
  if ¬ client.hasServer then throw .nullPointer
  else onServerRecv w (some c) buf addr a

def dispatch (w : World K T) (src : Source) (addr : Addr) (buf : Bytes) (a : RecvAnswer) :
    Exec (World K T × ℤ) :=
  match src with
  | .serverTcpRecv c | .serverUdpRecv c => onSessionRecv w c buf addr a
  | .clientTcpRecv c | .clientUdpRecv c => onClientRecv w c buf a
  | .serverUdpRecvAll => onServerRecv w none buf addr a
  | .tryKcpRecv c _ => do
    let kcpev ← w.kcpev c
    if kcpev.hasServer then onSessionRecv w c buf addr a
    else onClientRecv w c buf a

/-- Where the callback goes on after a dispatch that returned `ret`. -/
def dispatched (src : Source) (addr : Addr) (ret : ℤ) : Exec Control :=
  match src with
  | .serverTcpRecv c => .ok (if ret = 0 then .drain src addr else .closing c)
  | .clientTcpRecv _ => if ret = 0 then .ok (.drain src addr) else .error .exit
  | .tryKcpRecv _ _ => .ok (if ret = 0 then .drain src addr else .loop)
  | .serverUdpRecv _ | .clientUdpRecv _ | .serverUdpRecvAll => .ok .loop

def callbackRound (w : World K T) (ctl : Control) (a : RecvAnswer) :
    Exec (World K T × Control) :=
  match ctl with
  | .loop => .ok (w, .loop)
  | .drain src addr => drainRound w src addr
  | .frame src addr buf => do
    let (w, ret) ← dispatch w src addr buf a
    let ctl ← dispatched src addr ret
    return (w, ctl)
  | .closing c => do
    let w ← w.closeClient c
    return (w, .loop)

def ioEvent (w : World K T) (e : EvIo) (a : IoAnswer) : Exec (World K T × Control) :=
  match e.cb, e.data with
  | .tcpAccept, .server => do
    let w ← tcpAccept w e.fd a.accept
    return (w, .loop)
  | .serverUdpRecvAll, .server => .ok (serverUdpRecvAll w e.fd a)
  | .serverTcpRecv, .kcpev c => serverTcpRecv w c e.fd a
  | .serverUdpRecv, .kcpev c => serverUdpRecv w c e.fd a
  | .clientTcpRecv, .kcpev c => clientTcpRecv w c e.fd a
  | .clientUdpRecv, .kcpev c => clientUdpRecv w c e.fd a
  | _, _ => .ok (w, .loop)

def timerEvent (w : World K T) (t : EvTimer) (a : TimerAnswer) : Exec (World K T × Control) :=
  match t.cb, t.data with
  | .kcpevOnTimer, .kcpev c => kcpevOnTimer w c a
  | .onClientHeartbeatTimer, .kcpev c => do
    let w ← onClientHeartbeatTimer w c a
    return (w, .loop)
  | .onServerHeartbeatTimer, .kcpev c => do
    let w ← onServerHeartbeatTimer w c a
    return (w, .loop)
  | _, .server => .ok (w, .loop)

/-- The application runs outside of the loop, and in callbacks that have just
dispatched a frame. -/
def Control.appMayCall : Control → Bool
  | .loop | .drain .. => true
  | .frame .. | .closing _ => false

def apply (w : World K T) (i : Input T) : Exec (World K T) :=
  match i with
  | .createClient a => .ok (kcpevCreateClient w a)
  | .createServer a => .ok (if w.server.isSome then w else kcpevCreateServer w a)
  | .setCb c => w.kcpevSetCb c
  | .serverSetCb => w.kcpevServerSetCb
  | .connect c addr a => w.connect c addr a
  | .send c msg a => w.send c msg a
  | .sendTcp c msg a => w.sendTcp c msg a
  | .now now => .ok { w with os := { w.os with now } }
  | .serverDestroy | .io .. | .timer .. | .round _ => .ok w

/-- An input that does not apply where the process is changes nothing. -/
def step (p : Process K T) (i : Input T) : Exec (Process K T) :=
  match i with
  | .round a => do
    let (world, ctl) ← callbackRound p.world p.ctl a
    return { world, ctl }
  | .io w a =>
    match p.ctl, p.world.os.ios w with
    | .loop, some e => do
      let (world, ctl) ← ioEvent p.world e a
      return { world, ctl }
    | _, _ => .ok p
  | .timer w a =>
    match p.ctl, p.world.os.timers w with
    | .loop, some t => do
      let (world, ctl) ← timerEvent p.world t a
      return { world, ctl }
    | _, _ => .ok p
  | .serverDestroy =>
    match p.ctl with
    | .loop => do
      let world ← p.world.kcpevServerDestroy
      return { p with world }
    | _ => .ok p
  | i =>
    if p.ctl.appMayCall then do
      let world ← apply p.world i
      return { p with world }
    else .ok p

end Loop

/-! Answers of a system in which every call succeeds. -/

def SendAnswer.whole : SendAnswer := { stack := fun _ => 0, send := some 65536 }

def BindAnswer.socket (fd : ℕ) : BindAnswer :=
  { getaddrinfo := true, addrs := [{ socket := some fd, setsockopt := true, bind := true }] }

def KcpevBindAnswer.sockets (tcp udp : ℕ) : KcpevBindAnswer :=
  { tcp := .socket tcp, getsockname := true, getnameinfo := true, udp := .socket udp }

def CreateServerAnswer.sockets (tcp udp : ℕ) : CreateServerAnswer :=
  { alloc := true, bind := .sockets tcp udp, initEv := ⟨true, true⟩, listen := true }

def AcceptAnswer.connection (sock : ℕ) (peer : Addr) (uuid : KcpevKey) : AcceptAnswer :=
  { sock, peer, getnameinfo := true, alloc := true, uuid, evio := true, send := .whole }

def RecvAnswer.socket (fd : ℕ) : RecvAnswer :=
  { getnameinfo := true, bind := .socket fd, connect := true, kcp := true, evio := true
    send := .whole, evt := true, evh := true }

/-- The loop finds a connection to accept. -/
def IoAnswer.accepts (a : AcceptAnswer) : IoAnswer :=
  { recv := none, addr := 0, newMem := none, growMem := none, accept := some a }

/-- The loop finds data to receive. -/
def IoAnswer.receives (data : Bytes) (addr : Addr) : IoAnswer :=
  { recv := some data, addr, newMem := some fun _ => 0, growMem := none, accept := none }

/-- A process that has not called the library yet. Address zero is null. -/
def Process.init (now : T) : Process K T where
  world :=
    { os :=
        { socks := fun _ => none, ios := fun _ => none, timers := fun _ => none
          kcps := fun _ => none, next := 1, now, out := [] }
      server := none
      objs := fun _ => none }
  ctl := .loop

end KcpEv
