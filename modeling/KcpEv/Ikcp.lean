import KcpEv.Os

/-!
The control block of `ikcp.c`: the functions that fragment and reassemble
messages, and those that take a datagram apart. The queues are lists, and the
counters beside them are their lengths. Logging, the link state and the mtu,
which nothing changes, are left out.
-/
namespace KcpEv

/-! Encoding, least significant byte first. -/

def encode32u (l : UInt32) : Bytes :=
  [UInt8.ofNat l.toNat, UInt8.ofNat (l.toNat / 2 ^ 8), UInt8.ofNat (l.toNat / 2 ^ 16),
    UInt8.ofNat (l.toNat / 2 ^ 24)]

def encode16u (w : UInt16) : Bytes := [UInt8.ofNat w.toNat, UInt8.ofNat (w.toNat / 2 ^ 8)]

/-- The value of bytes, the first of which counts least. -/
def leNat (buf : Bytes) : ℕ := buf.foldr (fun b acc => b.toNat + 256 * acc) 0

def decode8u (buf : Bytes) (off : ℕ) : UInt8 := (buf[off]?).getD 0

def decode16u (buf : Bytes) (off : ℕ) : UInt16 := UInt16.ofNat (leNat ((buf.drop off).take 2))

def decode32u (buf : Bytes) (off : ℕ) : UInt32 := UInt32.ofNat (leNat ((buf.drop off).take 4))

/-- `_itimediff`: the difference of two wrapping counters, with a sign. -/
def itimediff (later earlier : UInt32) : ℤ := (later - earlier).toInt32.toInt

def ibound (lower middle upper : UInt32) : UInt32 := min (max lower middle) upper

/-! Constants. -/

def ikcpRtoNdl : Int32 := 30
def ikcpRtoDef : Int32 := 200
def ikcpRtoMin : Int32 := 100
def ikcpRtoMax : UInt32 := 60000
def ikcpAskSend : UInt32 := 1
def ikcpAskTell : UInt32 := 2
def ikcpMtuDef : ℕ := 1400
def ikcpOverhead : ℕ := 24
def ikcpMss : ℕ := ikcpMtuDef - ikcpOverhead
def ikcpThreshMin : UInt32 := 2
def ikcpProbeInit : UInt32 := 7000
def ikcpProbeLimit : UInt32 := 120000

/-- `IKCP_CMD_PUSH` and its siblings -/
inductive IkcpCmd
  | push | ack | wask | wins
  deriving DecidableEq, Repr

namespace IkcpCmd

def toByte : IkcpCmd → UInt8
  | push => 81
  | ack => 82
  | wask => 83
  | wins => 84

def ofByte (b : UInt8) : Option IkcpCmd :=
  if b = 81 then some push
  else if b = 82 then some ack
  else if b = 83 then some wask
  else if b = 84 then some wins
  else none

end IkcpCmd

/-- `IKCPSEG`; `len` is the length of the data. A segment of the send queue has
only `frg` and its data, the other fields are set when it is sent. -/
structure IkcpSeg where
  conv : UInt32
  cmd : IkcpCmd
  frg : UInt8
  wnd : UInt16
  ts : UInt32
  sn : UInt32
  una : UInt32
  resendts : UInt32
  rto : UInt32
  fastack : UInt32
  xmit : UInt32
  data : Bytes
  deriving DecidableEq, Repr

/-- `IKCPCB` without the conversation number. -/
structure Ikcp where
  sndUna : UInt32
  sndNxt : UInt32
  rcvNxt : UInt32
  ssthresh : UInt32
  rxRttval : Int32
  rxSrtt : Int32
  rxRto : Int32
  rxMinrto : Int32
  sndWnd : UInt32
  rcvWnd : UInt32
  rmtWnd : UInt32
  cwnd : UInt32
  probe : UInt32
  current : UInt32
  interval : UInt32
  tsFlush : UInt32
  nodelay : Bool
  updated : Bool
  tsProbe : UInt32
  probeWait : UInt32
  incr : UInt32
  sndQueue : List IkcpSeg
  rcvQueue : List IkcpSeg
  sndBuf : List IkcpSeg
  rcvBuf : List IkcpSeg
  /-- sequence number and time of each segment to be acknowledged -/
  acklist : List (UInt32 × UInt32)
  fastresend : UInt32
  nocwnd : Bool
  deriving DecidableEq, Repr

namespace Ikcp

def create : Ikcp :=
  { sndUna := 0, sndNxt := 0, rcvNxt := 0, ssthresh := 2, rxRttval := 0, rxSrtt := 0
    rxRto := ikcpRtoDef, rxMinrto := ikcpRtoMin, sndWnd := 32, rcvWnd := 32, rmtWnd := 32
    cwnd := 0, probe := 0, current := 0, interval := 100, tsFlush := 100, nodelay := false
    updated := false, tsProbe := 0, probeWait := 0, incr := 0, sndQueue := [], rcvQueue := []
    sndBuf := [], rcvBuf := [], acklist := [], fastresend := 0, nocwnd := false }

def wndsize (k : Ikcp) (sndwnd rcvwnd : UInt32) : Ikcp :=
  { k with
    sndWnd := if 0 < sndwnd then sndwnd else k.sndWnd
    rcvWnd := if 0 < rcvwnd then rcvwnd else k.rcvWnd }

/-- `ikcp_nodelay`, whose arguments are not negative here. -/
def setNodelay (k : Ikcp) (nodelay : Bool) (interval resend : UInt32) (nc : Bool) : Ikcp :=
  { k with
    nodelay, rxMinrto := if nodelay then ikcpRtoNdl else ikcpRtoMin
    interval := ibound 10 interval 5000, fastresend := resend, nocwnd := nc }

/-- The KCP object of `kcpev_create_kcp`, in the mode `KCPEV_KCP_MODE`. -/
def kcpevCreateKcp : Ikcp := (create.wndsize 128 128).setNodelay true 10 2 true

/-! Messages. -/

/-- A segment as `ikcp_send` leaves it. -/
def queued (frg : UInt8) (data : Bytes) : IkcpSeg :=
  { conv := 0, cmd := .push, frg, wnd := 0, ts := 0, sn := 0, una := 0, resendts := 0, rto := 0
    fastack := 0, xmit := 0, data }

/-- The loop of `ikcp_send`; the fragments are numbered downwards. -/
def fragment : ℕ → Bytes → List IkcpSeg
  | 0, _ => []
  | i + 1, buffer =>
    queued (UInt8.ofNat i) (buffer.take ikcpMss) :: fragment i (buffer.drop ikcpMss)

def fragmentCount (len : ℕ) : ℕ := if len ≤ ikcpMss then 1 else (len + ikcpMss - 1) / ikcpMss

def send (k : Ikcp) (buffer : Bytes) : Ikcp × ℤ :=
  let count := fragmentCount buffer.length
  if 255 < count then (k, -2)
  else ({ k with sndQueue := k.sndQueue ++ fragment count buffer }, 0)

/-- The length of the fragments up to the last one of a message. -/
def messageLength : List IkcpSeg → ℕ
  | [] => 0
  | seg :: rest => seg.data.length + if seg.frg = 0 then 0 else messageLength rest

/-- `ikcp_peeksize`; a negative answer is `none`. -/
def peeksize (k : Ikcp) : Option ℕ :=
  match k.rcvQueue with
  | [] => none
  | seg :: _ =>
    if seg.frg = 0 then some seg.data.length
    else if k.rcvQueue.length < seg.frg.toNat + 1 then none
    else some (messageLength k.rcvQueue)

/-- The loop that merges the fragments of the first message. -/
def mergeFragments : List IkcpSeg → Bytes × List IkcpSeg
  | [] => ([], [])
  | seg :: rest =>
    if seg.frg = 0 then (seg.data, rest)
    else
      let (buffer, queue) := mergeFragments rest
      (seg.data ++ buffer, queue)

/-- Move available data from `rcv_buf` to `rcv_queue`. -/
def moveAvailable (rcvWnd : UInt32) :
    List IkcpSeg → List IkcpSeg → UInt32 → List IkcpSeg × List IkcpSeg × UInt32
  | [], queue, nxt => ([], queue, nxt)
  | seg :: buf, queue, nxt =>
    if seg.sn = nxt ∧ queue.length < rcvWnd.toNat then
      moveAvailable rcvWnd buf (queue ++ [seg]) (nxt + 1)
    else (seg :: buf, queue, nxt)

def fillQueue (k : Ikcp) : Ikcp :=
  match moveAvailable k.rcvWnd k.rcvBuf k.rcvQueue k.rcvNxt with
  | (rcvBuf, rcvQueue, rcvNxt) => { k with rcvBuf, rcvQueue, rcvNxt }

/-- `ikcp_recv` with a buffer of `len` bytes; a negative answer is `none`. -/
def recv (k : Ikcp) (len : ℕ) : Ikcp × Option Bytes :=
  match k.peeksize with
  | none => (k, none)
  | some size =>
    if len < size then (k, none)
    else
      let recover := k.rcvWnd.toNat ≤ k.rcvQueue.length
      let (buffer, rcvQueue) := mergeFragments k.rcvQueue
      let k := { k with rcvQueue }.fillQueue
      let k := if k.rcvQueue.length < k.rcvWnd.toNat ∧ recover then
        { k with probe := k.probe ||| ikcpAskTell } else k
      (k, some buffer)

/-! Acknowledgements. -/

def updateAck (k : Ikcp) (rtt : Int32) : Ikcp :=
  let (rxSrtt, rxRttval) :=
    if k.rxSrtt = 0 then (rtt, rtt / 2)
    else
      let delta := (rtt - k.rxSrtt).toInt.natAbs
      let rttval := Int32.ofInt (((3 * k.rxRttval).toInt + delta).tdiv 4)
      let srtt := (7 * k.rxSrtt + rtt) / 8
      (if srtt < 1 then 1 else srtt, rttval)
  let rto := rxSrtt.toUInt32 + max 1 (4 * rxRttval).toUInt32
  { k with rxSrtt, rxRttval, rxRto := (ibound k.rxMinrto.toUInt32 rto ikcpRtoMax).toInt32 }

def shrinkBuf (k : Ikcp) : Ikcp :=
  match k.sndBuf with
  | [] => { k with sndUna := k.sndNxt }
  | seg :: _ => { k with sndUna := seg.sn }

/-- The loop of `ikcp_parse_ack`. -/
def eraseAcked (sn : UInt32) : List IkcpSeg → List IkcpSeg
  | [] => []
  | seg :: rest =>
    if sn = seg.sn then rest
    else if itimediff sn seg.sn < 0 then seg :: rest
    else seg :: eraseAcked sn rest

def parseAck (k : Ikcp) (sn : UInt32) : Ikcp :=
  if itimediff sn k.sndUna < 0 ∨ 0 ≤ itimediff sn k.sndNxt then k
  else { k with sndBuf := eraseAcked sn k.sndBuf }

def parseUna (k : Ikcp) (una : UInt32) : Ikcp :=
  { k with sndBuf := k.sndBuf.dropWhile fun seg => 0 < itimediff una seg.sn }

/-- The loop of `ikcp_parse_fastack`. -/
def countFastack (sn : UInt32) : List IkcpSeg → List IkcpSeg
  | [] => []
  | seg :: rest =>
    if itimediff sn seg.sn < 0 then seg :: rest
    else (if sn = seg.sn then seg else { seg with fastack := seg.fastack + 1 }) ::
      countFastack sn rest

def parseFastack (k : Ikcp) (sn : UInt32) : Ikcp :=
  if itimediff sn k.sndUna < 0 ∨ 0 ≤ itimediff sn k.sndNxt then k
  else { k with sndBuf := countFastack sn k.sndBuf }

/-! Data. -/

/-- Where `ikcp_parse_data` puts a segment into `rcv_buf`, which is walked from
its end: nowhere, when there is one with its number. -/
def insertRev (newseg : IkcpSeg) : List IkcpSeg → Option (List IkcpSeg)
  | [] => some [newseg]
  | seg :: rest =>
    if seg.sn = newseg.sn then none
    else if 0 < itimediff newseg.sn seg.sn then some (newseg :: seg :: rest)
    else (insertRev newseg rest).map (seg :: ·)

def parseData (k : Ikcp) (newseg : IkcpSeg) : Ikcp :=
  if 0 ≤ itimediff newseg.sn (k.rcvNxt + k.rcvWnd) ∨ itimediff newseg.sn k.rcvNxt < 0 then k
  else
    let rcvBuf := ((insertRev newseg k.rcvBuf.reverse).map List.reverse).getD k.rcvBuf
    { k with rcvBuf }.fillQueue

/-- The header of a segment, and behind it `len` bytes. -/
def decodeSeg (cmd : IkcpCmd) (data : Bytes) (len : ℕ) : IkcpSeg :=
  { queued (decode8u data 5) ((data.drop ikcpOverhead).take len) with
    conv := decode32u data 0, cmd, wnd := decode16u data 6, ts := decode32u data 8
    sn := decode32u data 12, una := decode32u data 16 }

/-- What `ikcp_input` does with one segment; `maxack` is the largest number
acknowledged so far. -/
def inputSeg (k : Ikcp) (maxack : Option UInt32) (seg : IkcpSeg) : Ikcp × Option UInt32 :=
  let k := ({ k with rmtWnd := seg.wnd.toUInt32 }.parseUna seg.una).shrinkBuf
  match seg.cmd with
  | .ack =>
    let rtt := (k.current - seg.ts).toInt32
    let k := if 0 ≤ itimediff k.current seg.ts then k.updateAck rtt else k
    let k := (k.parseAck seg.sn).shrinkBuf
    match maxack with
    | none => (k, some seg.sn)
    | some sn => (k, if 0 < itimediff seg.sn sn then some seg.sn else some sn)
  | .push =>
    if itimediff seg.sn (k.rcvNxt + k.rcvWnd) < 0 then
      let k := { k with acklist := k.acklist ++ [(seg.sn, seg.ts)] }
      (if 0 ≤ itimediff seg.sn k.rcvNxt then k.parseData seg else k, maxack)
    else (k, maxack)
  | .wask => ({ k with probe := k.probe ||| ikcpAskTell }, maxack)
  | .wins => (k, maxack)

/-- The loop of `ikcp_input`, with its answer. -/
def inputLoop (conv : ℕ) (k : Ikcp) (maxack : Option UInt32) (data : Bytes) :
    Ikcp × Option UInt32 × ℤ :=
  if _h : data.length < ikcpOverhead then (k, maxack, 0)
  else if decode32u data 0 ≠ UInt32.ofNat conv then (k, maxack, -1)
  else
    let len := (decode32u data 20).toNat
    if data.length - ikcpOverhead < len then (k, maxack, -2)
    else
      match IkcpCmd.ofByte (decode8u data 4) with
      | none => (k, maxack, -3)
      | some cmd =>
        match inputSeg k maxack (decodeSeg cmd data len) with
        | (k, maxack) => inputLoop conv k maxack (data.drop (ikcpOverhead + len))
termination_by data.length
decreasing_by
  have hover : ikcpOverhead = 24 := rfl
  rw [List.length_drop]
  omega

/-- The congestion window grows when something new was acknowledged. -/
def growCwnd (k : Ikcp) : Ikcp :=
  let mss := UInt32.ofNat ikcpMss
  if k.cwnd < k.rmtWnd then
    let k : Ikcp :=
      if k.cwnd < k.ssthresh then { k with cwnd := k.cwnd + 1, incr := k.incr + mss }
      else
        let incr := max k.incr mss
        let incr := incr + (mss * mss / incr + mss / 16)
        { k with cwnd := if (k.cwnd + 1) * mss ≤ incr then k.cwnd + 1 else k.cwnd, incr }
    if k.rmtWnd < k.cwnd then { k with cwnd := k.rmtWnd, incr := k.rmtWnd * mss } else k
  else k

def input (conv : ℕ) (k : Ikcp) (data : Bytes) : Ikcp × ℤ :=
  if data.length < 24 then (k, -1)
  else
    match inputLoop conv k none data with
    | (k', maxack, ret) =>
      if ret < 0 then (k', ret)
      else
        let k' := match maxack with
          | none => k'
          | some sn => k'.parseFastack sn
        (if 0 < itimediff k'.sndUna k.sndUna then k'.growCwnd else k', 0)

end Ikcp

end KcpEv
