import KcpEv.Os
import KcpEv.Ringbuf

/-!
The objects of the library and what creates, connects and destroys them. A
descriptor that is zero and a pointer that is `none` mean that there is none.
The functions work on one object and the surroundings; the answers of the
system calls they make are arguments.
-/
namespace KcpEv

open Circular

/-- `KcpevKey`: sixteen bytes, of which the last is the conversation number. -/
abbrev KcpevKey := { uuid : Bytes // uuid.length = 16 }

namespace KcpevKey

/-- The key of an object that `calloc` has just zeroed. -/
def zero : KcpevKey := ⟨List.replicate 16 0, rfl⟩

/-- `key.split_key.conv` -/
def conv (key : KcpevKey) : ℕ := ((key.val[15]?).getD 0).toNat

/-- The key a payload of `sizeof(KcpevKey)` bytes is. -/
def ofBytes (data : Bytes) : Option KcpevKey :=
  if h : data.length = 16 then some ⟨data, h⟩ else none

@[simp] theorem ofBytes_val (key : KcpevKey) : ofBytes key.val = some key := by
  simp [ofBytes, key.property]

theorem ofBytes_eq_some {data : Bytes} {key : KcpevKey} (h : ofBytes data = some key) :
    data = key.val := by
  unfold ofBytes at h
  split at h
  · cases h
    rfl
  · cases h

end KcpevKey

inductive UdpStatus
  | invalid | shakingHand | ready | heartbeat
  deriving DecidableEq, Repr

structure KcpevSock where
  sock : ℕ
  evio : Option ℕ
  deriving DecidableEq, Repr

structure KcpevTcp extends KcpevSock where
  rb : Option Ringbuf

structure KcpevUdp (T : Type) extends KcpevSock where
  /-- kcp timer -/
  evt : Option ℕ
  /-- heartbeat timer -/
  evh : Option ℕ
  kcp : Option ℕ
  status : UdpStatus
  heart : T

/-- `KCPEV_BASE` -/
structure KcpevBase (T : Type) where
  tcp : KcpevTcp
  udp : KcpevUdp T

structure Kcpev (T : Type) extends KcpevBase T where
  key : KcpevKey
  /-- `kcpev->server` is not null -/
  hasServer : Bool
  /-- `kcpev->recv_cb` is not null -/
  hasRecvCb : Bool

/-- The server; `hash` lists the registered clients under their keys, the last
added one first. -/
structure KcpevServer (T : Type) extends KcpevBase T where
  hasRecvCb : Bool
  hash : List (KcpevKey × ℕ)

variable {K T : Type}

section Create
variable [ClockImpl T]

def KcpevSock.zero : KcpevSock := { sock := 0, evio := none }

def KcpevBase.zero : KcpevBase T :=
  { tcp := { KcpevSock.zero with rb := none }
    udp := { KcpevSock.zero with
      evt := none, evh := none, kcp := none, status := .invalid, heart := ClockImpl.zero } }

/-- `kcpev_create`, whose memory is zeroed. -/
def kcpevCreate : Kcpev T :=
  { (KcpevBase.zero : KcpevBase T) with key := .zero, hasServer := false, hasRecvCb := false }

def kcpevServerCreate : KcpevServer T :=
  { (KcpevBase.zero : KcpevBase T) with hasRecvCb := false, hash := [] }

end Create

/-! Destruction. -/

/-- `if(evs->sock) { close(evs->sock); evs->sock = 0; }` -/
def closeSock (os : Os K T) (evs : KcpevSock) : Os K T × KcpevSock :=
  if evs.sock = 0 then (os, evs) else (os.close evs.sock, { evs with sock := 0 })

/-- `if(evs->evio) { ev_io_stop(loop, evs->evio); ... evs->evio = NULL; }` -/
def stopIo (os : Os K T) (evs : KcpevSock) : Os K T × KcpevSock :=
  match evs.evio with
  | none => (os, evs)
  | some p => (os.evIoStop p, { evs with evio := none })

def KcpevSock.destroy (os : Os K T) (evs : KcpevSock) : Os K T × KcpevSock :=
  let (os, evs) := closeSock os evs
  stopIo os evs

def KcpevTcp.destroy (os : Os K T) (evs : KcpevTcp) : Os K T × KcpevTcp :=
  let (os, s) := evs.toKcpevSock.destroy os
  (os, { s with rb := none })

/-- `if(evs->evt) { ev_timer_stop(loop, evs->evt); ... evs->evt = NULL; }` -/
def stopEvt (os : Os K T) (evs : KcpevUdp T) : Os K T × KcpevUdp T :=
  match evs.evt with
  | none => (os, evs)
  | some p => (os.evTimerStop p, { evs with evt := none })

def stopEvh (os : Os K T) (evs : KcpevUdp T) : Os K T × KcpevUdp T :=
  match evs.evh with
  | none => (os, evs)
  | some p => (os.evTimerStop p, { evs with evh := none })

def releaseKcp (os : Os K T) (evs : KcpevUdp T) : Os K T × KcpevUdp T :=
  match evs.kcp with
  | none => (os, evs)
  | some p => (os.ikcpRelease p, { evs with kcp := none })

/-- The status and the heart are left as they are. -/
def KcpevUdp.destroy (os : Os K T) (evs : KcpevUdp T) : Os K T × KcpevUdp T :=
  let (os, s) := evs.toKcpevSock.destroy os
  let (os, evs) := stopEvt os { evs with toKcpevSock := s }
  let (os, evs) := stopEvh os evs
  releaseKcp os evs

/-- What `kcpev_destroy` and `kcpev_server_destroy` do to the base of an object. -/
def KcpevBase.destroy (os : Os K T) (b : KcpevBase T) : Os K T :=
  let (os, _) := b.tcp.destroy os
  let (os, _) := b.udp.destroy os
  os

/-! Sockets and watchers. -/

/-- The calls made for one entry of the address list. -/
structure AddrAnswer where
  socket : Option ℕ
  setsockopt : Bool
  bind : Bool
  deriving DecidableEq, Repr

structure BindAnswer where
  getaddrinfo : Bool
  addrs : List AddrAnswer
  deriving DecidableEq, Repr

/-- The `for` loop of `kcpev_bind_socket`: `none` when it is left by `goto error`,
which neither closes the new socket nor frees the list; otherwise the bound
descriptor, or zero. -/
def bindLoop (reuse : Bool) : Os K T → List AddrAnswer → Os K T × Option ℕ
  | os, [] => (os, some 0)
  | os, a :: rest =>
    match os.openSock a.socket none with
    | (os, none) => bindLoop reuse os rest
    | (os, some s) =>
      if reuse ∧ ¬ a.setsockopt then (os, none)
      else if ¬ a.bind then bindLoop reuse (os.close s) rest
      else (os, some s)

def kcpevBindSocket (os : Os K T) (sock : KcpevSock) (reuse : Bool) (a : BindAnswer) :
    Os K T × KcpevSock × ℤ :=
  if ¬ a.getaddrinfo then (os, sock, -1)
  else
    match bindLoop reuse os a.addrs with
    | (os, none) => (os, { sock with sock := 0 }, -1)
    | (os, some s) => (os, { sock with sock := s }, if s = 0 then -1 else 0)

structure KcpevBindAnswer where
  tcp : BindAnswer
  getsockname : Bool
  getnameinfo : Bool
  udp : BindAnswer
  deriving DecidableEq, Repr

/-- Only the TCP socket is required. -/
def kcpevBind (os : Os K T) (b : KcpevBase T) (reuse : Bool) (a : KcpevBindAnswer) :
    Os K T × KcpevBase T × ℤ :=
  let (os, s, ret) := kcpevBindSocket os b.tcp.toKcpevSock reuse a.tcp
  let b := { b with tcp := { b.tcp with toKcpevSock := s } }
  if ret < 0 then (os, b, -1)
  else if ¬ a.getsockname then (os, b, -1)
  else if ¬ a.getnameinfo then (os, b, -1)
  else
    let (os, s, _) := kcpevBindSocket os b.udp.toKcpevSock reuse a.udp
    (os, { b with udp := { b.udp with toKcpevSock := s } }, 0)

structure ConnectAnswer where
  getaddrinfo : Bool
  connects : List Bool
  deriving DecidableEq, Repr

def kcpevConnectSocket (os : Os K T) (sock : KcpevSock) (addr : Addr) (a : ConnectAnswer) :
    Os K T × ℤ :=
  if sock.sock = 0 then (os, -1)
  else if ¬ a.getaddrinfo then (os, -1)
  else if a.connects.any id then (os.connect sock.sock addr, 0)
  else (os, -1)

structure KcpevConnectAnswer where
  tcp : ConnectAnswer
  udp : ConnectAnswer
  deriving DecidableEq, Repr

/-- When the UDP socket cannot be connected it is closed; its watcher is not
stopped. -/
def kcpevConnect (os : Os K T) (b : KcpevBase T) (addr : Addr) (a : KcpevConnectAnswer) :
    Os K T × KcpevBase T × ℤ :=
  let (os, ret) := kcpevConnectSocket os b.tcp.toKcpevSock addr a.tcp
  if ret < 0 then (os, b, -1)
  else
    let (os, ret) := kcpevConnectSocket os b.udp.toKcpevSock addr a.udp
    if ret < 0 then
      let (os, s) := closeSock os b.udp.toKcpevSock
      (os, { b with udp := { b.udp with toKcpevSock := s } }, 0)
    else (os, b, 0)

/-- `alloc` is the answer of `malloc`. -/
def kcpevSetEv (os : Os K T) (data : Owner) (evs : KcpevSock) (cb : IoCb) (alloc : Bool) :
    Os K T × KcpevSock × ℤ :=
  if evs.sock = 0 then (os, evs, 0)
  else if ¬ alloc then (os, evs, -1)
  else
    let (os, p) := os.evIoStart { fd := evs.sock, data, cb }
    (os, { evs with evio := some p }, 0)

structure InitEvAnswer where
  tcp : Bool
  udp : Bool
  deriving DecidableEq, Repr

/-- A side without a callback is left alone. -/
def kcpevSetEvIf (os : Os K T) (data : Owner) (evs : KcpevSock) (cb : Option IoCb)
    (alloc : Bool) : Os K T × KcpevSock × ℤ :=
  match cb with
  | none => (os, evs, 0)
  | some cb => kcpevSetEv os data evs cb alloc

/-- A failure on the UDP side is only logged. -/
def kcpevInitEv (os : Os K T) (data : Owner) (b : KcpevBase T) (tcpCb udpCb : Option IoCb)
    (a : InitEvAnswer) : Os K T × KcpevBase T × ℤ :=
  let (os, s, ret) := kcpevSetEvIf os data b.tcp.toKcpevSock tcpCb a.tcp
  let b := { b with tcp := { b.tcp with toKcpevSock := s } }
  if ret < 0 then (os, b, -1)
  else
    let (os, s, _) := kcpevSetEvIf os data b.udp.toKcpevSock udpCb a.udp
    (os, { b with udp := { b.udp with toKcpevSock := s } }, 0)

end KcpEv
