import KcpEv.Header
import Mathlib.Logic.Function.Basic

/-!
What the library asks of its surroundings: sockets, the watchers started in the
event loop, and the KCP objects. Addresses returned by `malloc` are never
reused, so that a pointer to freed memory stays visible; a descriptor may be
any number that is not open. Every call that can fail takes its answer as an
argument.

KCP itself is a parameter. The functions of `ikcp.c` read the conversation
number and never assign it, so it is kept beside the rest of the control block.
-/
namespace KcpEv

open Circular

/-- The functions of `ikcp.c` the library calls, over the control block without
its conversation number. `recv` gives nothing for a negative result; `update`
gives the datagrams handed to the output callback. -/
class KcpImpl (K : Type) where
  create : K
  send : K → Bytes → K × ℤ
  recv : K → ℕ → K × Option Bytes
  input : ℕ → K → Bytes → K × ℤ
  check : K → UInt32 → UInt32
  update : ℕ → K → UInt32 → K × List Bytes

structure Ikcpcb (K : Type) where
  conv : ℕ
  state : K

/-- The loop clock `ev_tstamp`: the bytes of the double, the timeout test of the
heartbeat timers, and the truncated millisecond clock. -/
class ClockImpl (T : Type) where
  zero : T
  bits : T → UInt64
  late : T → T → Bool
  ms : T → UInt32

/-- KCP objects nothing is given to: enough to run the model without UDP data. -/
instance idleKcp : KcpImpl Unit where
  create := ()
  send k _ := (k, -1)
  recv k _ := (k, none)
  input _ k _ := (k, -1)
  check _ now := now
  update _ k _ := (k, [])

/-- A clock in whole seconds. -/
instance secondsClock : ClockImpl ℕ where
  zero := 0
  bits t := UInt64.ofNat t
  late now heart := 30 < now - heart
  ms t := UInt32.ofNat (1000 * t)

/-- A socket address. -/
abbrev Addr := ℕ

structure Sock where
  peer : Option Addr
  deriving DecidableEq, Repr

/-- The objects a watcher's `data` pointer can point to. -/
inductive Owner
  | server
  | kcpev (c : ℕ)
  deriving DecidableEq, Repr

inductive IoCb
  | tcpAccept | serverUdpRecvAll | serverTcpRecv | serverUdpRecv | clientTcpRecv | clientUdpRecv
  deriving DecidableEq, Repr

inductive TimerCb
  | kcpevOnTimer | onClientHeartbeatTimer | onServerHeartbeatTimer
  deriving DecidableEq, Repr

structure EvIo where
  fd : ℕ
  data : Owner
  cb : IoCb
  deriving DecidableEq, Repr

structure EvTimer where
  data : Owner
  cb : TimerCb
  /-- milliseconds until it expires -/
  again : ℕ
  deriving DecidableEq, Repr

/-- The function that has received a frame, with the object it works for. -/
inductive Source
  | serverTcpRecv (c : ℕ)
  | clientTcpRecv (c : ℕ)
  | serverUdpRecv (c : ℕ)
  | clientUdpRecv (c : ℕ)
  | serverUdpRecvAll
  /-- with the KCP object it reads from -/
  | tryKcpRecv (c kcp : ℕ)
  deriving DecidableEq, Repr

/-- What is recorded of a run: bytes put on a socket, frames taken out of a
stream, a KCP object or a datagram, and calls of the application. -/
inductive Output
  | sent (fd : ℕ) (buf : Bytes)
  | received (src : Source) (buf : Bytes)
  | serverRecvCb (client : Option ℕ) (data : Bytes)
  | clientRecvCb (client : ℕ) (data : Bytes)
  deriving DecidableEq, Repr

/-- A call of the server's callback: the client, and the data. -/
def Output.serverCall : Output → Option (Option ℕ × Bytes)
  | .serverRecvCb client data => some (client, data)
  | .sent .. | .received .. | .clientRecvCb .. => none

structure Os (K T : Type) where
  /-- open sockets -/
  socks : ℕ → Option Sock
  /-- started `ev_io` watchers -/
  ios : ℕ → Option EvIo
  /-- started `ev_timer` watchers -/
  timers : ℕ → Option EvTimer
  /-- live KCP objects -/
  kcps : ℕ → Option (Ikcpcb K)
  /-- the next address `malloc` returns -/
  next : ℕ
  now : T
  out : List Output

namespace Os

variable {K T : Type} (os : Os K T)

/-- The calls of the server's callback so far. -/
def serverCalls : List (Option ℕ × Bytes) := os.out.filterMap Output.serverCall

def emit (o : Output) : Os K T := { os with out := os.out ++ [o] }

/-- `socket` or `accept`: no descriptor, or one that is not open yet. -/
def openSock (answer : Option ℕ) (peer : Option Addr) : Os K T × Option ℕ :=
  match answer with
  | none => (os, none)
  | some fd =>
    if (os.socks fd).isSome then (os, none)
    else ({ os with socks := Function.update os.socks fd (some ⟨peer⟩) }, some fd)

theorem openSock_cases (answer : Option ℕ) (peer : Option Addr) :
    os.openSock answer peer = (os, none) ∨ ∃ fd, os.socks fd = none ∧ os.openSock answer peer =
      ({ os with socks := Function.update os.socks fd (some ⟨peer⟩) }, some fd) := by
  unfold openSock
  split
  · exact Or.inl rfl
  · split
    · exact Or.inl rfl
    · rename_i hfree
      exact Or.inr ⟨_, Option.not_isSome_iff_eq_none.mp hfree, rfl⟩

def close (fd : ℕ) : Os K T := { os with socks := Function.update os.socks fd none }

/-- `connect`: an open socket gets a peer. -/
def connect (fd : ℕ) (addr : Addr) : Os K T :=
  match os.socks fd with
  | none => os
  | some _ => { os with socks := Function.update os.socks fd (some ⟨some addr⟩) }

def getpeername (fd : ℕ) : Option Addr := (os.socks fd).bind Sock.peer

/-- `send`: an error, or the number of bytes put on the socket. -/
def send (fd : ℕ) (buf : Bytes) (answer : Option ℕ) : Os K T × ℤ :=
  match os.socks fd, answer with
  | some _, some k => (os.emit (.sent fd (buf.take k)), (buf.take k).length)
  | _, _ => (os, -1)

/-- `malloc`, `ev_io_init` and `ev_io_start` of a new watcher. -/
def evIoStart (w : EvIo) : Os K T × ℕ :=
  ({ os with ios := Function.update os.ios os.next (some w), next := os.next + 1 }, os.next)

def evIoStop (p : ℕ) : Os K T := { os with ios := Function.update os.ios p none }

def evTimerStart (t : EvTimer) : Os K T × ℕ :=
  ({ os with timers := Function.update os.timers os.next (some t), next := os.next + 1 }, os.next)

def evTimerStop (p : ℕ) : Os K T := { os with timers := Function.update os.timers p none }

/-- `ev_timer_again` on a started timer; a zero delay stops it. -/
def evTimerAgain (p : ℕ) (again : ℕ) : Os K T :=
  match os.timers p with
  | none => os
  | some t =>
    { os with
      timers := Function.update os.timers p (if again = 0 then none else some { t with again }) }

def ikcpCreate [KcpImpl K] (conv : ℕ) : Os K T × ℕ :=
  ({ os with
      kcps := Function.update os.kcps os.next (some ⟨conv, KcpImpl.create⟩)
      next := os.next + 1 }, os.next)

def ikcpRelease (p : ℕ) : Os K T := { os with kcps := Function.update os.kcps p none }

/-- Store a changed KCP object. -/
def setKcp (p : ℕ) (k : Ikcpcb K) : Os K T :=
  { os with kcps := Function.update os.kcps p (some k) }

end Os

end KcpEv
