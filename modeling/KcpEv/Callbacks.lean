import KcpEv.OnRecv
import KcpEv.TcpRecv

/-!
Creation and destruction of clients and servers, and the callbacks of the event
loop. A callback that dispatches frames stops in front of each of them: it
leaves a `Control`, which says where it goes on.
-/
namespace KcpEv

variable {K T : Type}

/-- Where the process is. -/
inductive Control
  /-- the loop waits for an event -/
  | loop
  /-- in front of `on_server_recv` or `on_client_recv` -/
  | frame (src : Source) (addr : Addr) (buf : Bytes)
  /-- in front of `get_tcp_buf_chunk` or `ikcp_recv` -/
  | drain (src : Source) (addr : Addr)
  /-- at the `error` label of `server_tcp_recv` -/
  | closing (c : ℕ)
  deriving DecidableEq, Repr

namespace World

def destroyKcpev (w : World K T) (c : ℕ) (client : Kcpev T) : World K T :=
  { w with os := client.toKcpevBase.destroy w.os, objs := Function.update w.objs c none }

def kcpevDestroy (w : World K T) (c : ℕ) : Exec (World K T) := do
  let client ← w.kcpev c
  return w.destroyKcpev c client

/-- The loop of `delete_hash`. -/
def deleteHash : World K T → List (KcpevKey × ℕ) → Exec (World K T)
  | w, [] => .ok w
  | w, e :: rest => do
    let w ← w.kcpevDestroy e.2
    deleteHash w rest

/-- The oldest entry of the hash is visited first. -/
def kcpevServerDestroy (w : World K T) : Exec (World K T) := do
  let server ← w.kcpevServer
  let w ← deleteHash { w with os := server.toKcpevBase.destroy w.os } server.hash.reverse
  return { w with server := none }

def closeClient (w : World K T) (c : ℕ) : Exec (World K T) := do
  let client ← w.kcpev c
  if ¬ client.hasServer then throw .nullPointer
  else
    let server ← w.kcpevServer
    return { w with server := some (server.hashDel c) }.destroyKcpev c client

def setRb (w : World K T) (c : ℕ) (client : Kcpev T) (rb : Option Ringbuf) : World K T :=
  w.store w.os c { client with tcp := { client.tcp with rb } }

/-- Record a frame in front of which the process stops. -/
def toFrame (w : World K T) (src : Source) (addr : Addr) (buf : Bytes) : World K T × Control :=
  ({ w with os := w.os.emit (.received src buf) }, .frame src addr buf)

end World

/-! Creation. -/

section Create
variable [KcpImpl K] [ClockImpl T]

structure CreateClientAnswer where
  alloc : Bool
  bind : KcpevBindAnswer
  kcp : Bool
  initEv : InitEvAnswer
  deriving DecidableEq, Repr

/-- The address of the new client is the next one `malloc` returns. -/
def kcpevCreateClient (w : World K T) (a : CreateClientAnswer) : World K T :=
  if ¬ a.alloc then w
  else
    let c := w.os.next
    let kcpev : Kcpev T := kcpevCreate
    let (os, b, ret) := kcpevBind { w.os with next := c + 1 } kcpev.toKcpevBase false a.bind
    if ret < 0 then { w with os := b.destroy os }
    else
      let (os, udp, ret) := kcpevCreateKcp os b.udp kcpev.key.conv a.kcp
      let b := { b with udp }
      if ret < 0 then { w with os := b.destroy os }
      else
        let (os, b, ret) := kcpevInitEv os (.kcpev c) b (some .clientTcpRecv) (some .clientUdpRecv)
          a.initEv
        if ret < 0 then { w with os := b.destroy os }
        else w.store os c { kcpev with toKcpevBase := b }

structure CreateServerAnswer where
  alloc : Bool
  bind : KcpevBindAnswer
  initEv : InitEvAnswer
  listen : Bool
  deriving DecidableEq, Repr

omit [KcpImpl K] in
/-- A failed creation destroys the server, whose hash is still empty. -/
def kcpevCreateServer (w : World K T) (a : CreateServerAnswer) : World K T :=
  if ¬ a.alloc then w
  else
    let kcpev : KcpevServer T := kcpevServerCreate
    let (os, b, ret) := kcpevBind w.os kcpev.toKcpevBase true a.bind
    if ret < 0 then { w with os := b.destroy os }
    else
      let (os, b, ret) := kcpevInitEv os .server b (some .tcpAccept) (some .serverUdpRecvAll)
        a.initEv
      if ret < 0 then { w with os := b.destroy os }
      else if ¬ a.listen then { w with os := b.destroy os }
      else { w with os, server := some { kcpev with toKcpevBase := b } }

structure AcceptAnswer where
  /-- the descriptor `accept` returns -/
  sock : ℕ
  peer : Addr
  getnameinfo : Bool
  alloc : Bool
  /-- what `uuid_generate` gives -/
  uuid : KcpevKey
  evio : Bool
  send : SendAnswer

omit [KcpImpl K] in
/-- The base of the object `tcp_accept` builds for a descriptor. -/
def acceptBase (s : ℕ) : KcpevBase T :=
  { (KcpevBase.zero : KcpevBase T) with
    tcp := { (KcpevBase.zero : KcpevBase T).tcp with sock := s } }

omit [KcpImpl K] in
/-- `tcp_accept` with a new object at `c`. From `HASH_ADD` on, the `error` label
destroys the client, whose entry stays in the hash. -/
def acceptClient (w : World K T) (os : Os K T) (c s : ℕ) (a : AcceptAnswer) :
    Exec (World K T) := do
  let server ← w.kcpevServer
  let w := { w with server := some (server.hashAdd a.uuid c) }
  match kcpevInitEv os (.kcpev c) (acceptBase s) (some .serverTcpRecv) none
    { tcp := a.evio, udp := true } with
  | (os, b, ret) =>
    if ret < 0 then return { w with os := b.destroy os }
    else
      let (os, ret) ← sockSendCommand os s .shakeHand1 a.uuid.val a.send
      if ret ≠ 0 then return { w with os := b.destroy os }
      else
        let client := { (kcpevCreate : Kcpev T) with
          toKcpevBase := b, key := a.uuid, hasServer := true }
        return w.store os c client

omit [KcpImpl K] in
/-- `accept` fails, or gives a connection. Descriptor zero is refused without
being closed. -/
def tcpAccept (w : World K T) (fd : ℕ) (answer : Option AcceptAnswer) : Exec (World K T) :=
  match w.os.socks fd, answer with
  | none, _ | _, none => .ok w
  | some _, some a =>
  match w.os.openSock (some a.sock) (some a.peer) with
  | (_, none) => .ok w
  | (os, some s) =>
    if s = 0 then .ok { w with os }
    else if ¬ a.getnameinfo then .ok { w with os := os.close s }
    else if ¬ a.alloc then .ok { w with os := os.close s }
    else acceptClient w { os with next := os.next + 1 } os.next s a

end Create

/-! Input. -/

structure IoAnswer where
  recv : Option Bytes
  /-- the source of a datagram, or what the address holds that `getpeername` did not set -/
  addr : Addr
  /-- `malloc` of the ring -/
  newMem : Malloc
  /-- `malloc` of the bigger ring -/
  growMem : Malloc
  accept : Option AcceptAnswer

/-- `recv`, where no data and an error are the same to the callers. -/
def recv (os : Os K T) (fd size : ℕ) (answer : Option Bytes) : Option Bytes :=
  match os.socks fd, answer with
  | some _, some (b :: data) => some ((b :: data).take size)
  | _, _ => none

/-- What both TCP callbacks do with a received chunk. -/
def tcpReceived (w : World K T) (src : Source) (c : ℕ) (client : Kcpev T) (addr : Addr)
    (data : Bytes) (a : IoAnswer) : Exec (World K T × Control) := do
  let (rb, size) ← TcpRecv.onTcpRecv client.tcp.rb data a.newMem a.growMem
  let w := w.setRb c client rb
  let len := toInt size
  if 0 < len then return w.toFrame src addr (data.take len.toNat)
  else return (w, .drain src addr)

def serverTcpRecv (w : World K T) (c fd : ℕ) (a : IoAnswer) : Exec (World K T × Control) := do
  let client ← w.kcpev c
  match recv w.os fd kcpevBufferSize a.recv with
  | none => return (w, .closing c)
  | some data =>
    let addr := (w.os.getpeername client.tcp.sock).getD a.addr
    tcpReceived w (.serverTcpRecv c) c client addr data a

def clientTcpRecv (w : World K T) (c fd : ℕ) (a : IoAnswer) : Exec (World K T × Control) :=
  match recv w.os fd kcpevBufferSize a.recv with
  | none => .error .exit
  | some data => do
    let client ← w.kcpev c
    tcpReceived w (.clientTcpRecv c) c client a.addr data a

/-- The start of `try_kcp_recv`; `ikcp_recv` asserts that there is a KCP object. -/
def tryKcpRecv (w : World K T) (c : ℕ) : Exec (World K T × Control) := do
  let kcpev ← w.kcpev c
  match kcpev.udp.kcp with
  | none => throw .assertion
  | some kcp => return (w, .drain (.tryKcpRecv c kcp) 0)

section Kcp
variable [KcpImpl K]

def ikcpInput (os : Os K T) (kcp : ℕ) (data : Bytes) : Exec (Os K T) :=
  match os.kcps kcp with
  | none => .error .useAfterFree
  | some k => .ok (os.setKcp kcp { k with state := (KcpImpl.input k.conv k.state data).1 })

/-- What both UDP callbacks do with a datagram when `is_kcp_valid`. -/
def kcpReceived (w : World K T) (c : ℕ) (client : Kcpev T) (data : Bytes) :
    Exec (World K T × Control) :=
  match client.udp.kcp with
  | none => .error .nullPointer
  | some kcp => do
    let os ← ikcpInput w.os kcp data
    tryKcpRecv { w with os } c

def clientUdpRecv (w : World K T) (c fd : ℕ) (a : IoAnswer) : Exec (World K T × Control) :=
  match recv w.os fd kcpevBufferSize a.recv with
  | none => .ok (w, .loop)
  | some data => do
    let client ← w.kcpev c
    if ¬ client.udp.isKcpValid then return w.toFrame (.clientUdpRecv c) a.addr data
    else kcpReceived w c client data

def serverUdpRecv (w : World K T) (c fd : ℕ) (a : IoAnswer) : Exec (World K T × Control) :=
  match recv w.os fd kcpevBufferSize a.recv with
  | none => .ok (w, .loop)
  | some data => do
    let client ← w.kcpev c
    if ¬ client.udp.isKcpValid then
      match w.os.getpeername client.udp.sock with
      | none => return (w, .loop)
      | some addr => return w.toFrame (.serverUdpRecv c) addr data
    else kcpReceived w c client data

end Kcp

/-- One byte of the buffer is left free. -/
def serverUdpRecvAll (w : World K T) (fd : ℕ) (a : IoAnswer) : World K T × Control :=
  match recv w.os fd (kcpevBufferSize - 1) a.recv with
  | none => (w, .loop)
  | some data => w.toFrame .serverUdpRecvAll a.addr data

/-! Timers. -/

structure TimerAnswer where
  /-- `send` of each datagram of one `ikcp_update` -/
  output : ℕ → Option ℕ
  send : SendAnswer

/-- The calls of `udp_output` made by one `ikcp_update`. -/
def udpOutputs (sock : ℕ) (answers : ℕ → Option ℕ) : ℕ → Os K T → List Bytes → Os K T
  | _, os, [] => os
  | n, os, buf :: bufs => udpOutputs sock answers (n + 1) (os.send sock buf (answers n)).1 bufs

section Timer
variable [KcpImpl K] [ClockImpl T]

/-- The delay is in milliseconds. -/
def kcpevTimerRepeat (w : World K T) (c : ℕ) (output : ℕ → Option ℕ) : Exec (World K T) := do
  let kcpev ← w.kcpev c
  match kcpev.udp.kcp with
  | none => return w
  | some p =>
    match w.os.kcps p with
    | none => throw .useAfterFree
    | some kcp =>
      let now := ClockImpl.ms w.os.now
      let next := KcpImpl.check kcp.state now
      let (os, state, next) :=
        if next ≤ now then
          let (state, bufs) := KcpImpl.update kcp.conv kcp.state now
          (udpOutputs kcpev.udp.sock output 0 w.os bufs, state, KcpImpl.check state now)
        else (w.os, kcp.state, next)
      let again := if next ≤ now then 10 else (next - now).toNat
      match kcpev.udp.evt with
      | none => throw .nullPointer
      | some evt => return { w with os := (os.setKcp p { kcp with state }).evTimerAgain evt again }

def kcpevOnTimer (w : World K T) (c : ℕ) (a : TimerAnswer) : Exec (World K T × Control) := do
  let w ← kcpevTimerRepeat w c a.output
  tryKcpRecv w c

def onClientHeartbeatTimer (w : World K T) (c : ℕ) (a : TimerAnswer) : Exec (World K T) := do
  let client ← w.kcpev c
  if ¬ client.udp.isKcpValid then return w
  else if ClockImpl.late w.os.now client.udp.heart then
    return w.store w.os c { client with udp := client.udp.setKcpInvalid }
  else
    let (os, _) ← kcpSendCommand w.os client.udp .heartbeat1 client.key.val a.send.stack
    return { w with os }

omit [KcpImpl K] in
def onServerHeartbeatTimer (w : World K T) (c : ℕ) (a : TimerAnswer) : Exec (World K T) := do
  let client ← w.kcpev c
  if ¬ client.udp.isKcpValid then return w
  else if ClockImpl.late w.os.now client.udp.heart then
    let (os, _) ← sockSendCommand w.os client.tcp.sock .udpInvalid client.key.val a.send
    return w.store os c { client with udp := client.udp.setKcpInvalid }
  else return w

end Timer

end KcpEv
