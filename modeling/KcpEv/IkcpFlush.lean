import KcpEv.Ikcp

/-!
What a control block sends: `ikcp_flush`, and the two functions that decide when
it is called. Segments are put into a buffer that is handed to the output
callback whenever the next segment would exceed the mtu.
-/
namespace KcpEv

namespace IkcpSeg

def encodeHeader (seg : IkcpSeg) : Bytes :=
  encode32u seg.conv ++ [seg.cmd.toByte, seg.frg] ++ encode16u seg.wnd ++ encode32u seg.ts ++
    encode32u seg.sn ++ encode32u seg.una ++ encode32u (UInt32.ofNat seg.data.length)

/-- `ikcp_encode_seg`, and the data behind it. -/
def encode (seg : IkcpSeg) : Bytes := seg.encodeHeader ++ seg.data

end IkcpSeg

namespace Ikcp

/-- The buffer of a flush, and what was handed to the output callback. -/
structure Flushed where
  buffer : Bytes
  out : List Bytes
  deriving DecidableEq, Repr

namespace Flushed

/-- `ikcp_output`, which gives nothing to the callback for an empty buffer. -/
def output (f : Flushed) : Flushed :=
  { buffer := [], out := if f.buffer = [] then f.out else f.out ++ [f.buffer] }

def put (f : Flushed) (seg : IkcpSeg) : Flushed :=
  let f := if ikcpMtuDef < f.buffer.length + ikcpOverhead + seg.data.length then f.output else f
  { f with buffer := f.buffer ++ seg.encode }

end Flushed

def wndUnused (k : Ikcp) : UInt16 :=
  if k.rcvQueue.length < k.rcvWnd.toNat then
    UInt16.ofNat (k.rcvWnd.toNat - k.rcvQueue.length)
  else 0

/-- The segment of a flush that is reused for acknowledgements and probes. -/
def controlSeg (conv : ℕ) (k : Ikcp) (cmd : IkcpCmd) (sn ts : UInt32) : IkcpSeg :=
  { queued 0 [] with
    conv := UInt32.ofNat conv, cmd, wnd := k.wndUnused, una := k.rcvNxt, sn, ts }

/-- Probe the window of the remote end when it is closed. -/
def probeWindow (k : Ikcp) : Ikcp :=
  if k.rmtWnd = 0 then
    if k.probeWait = 0 then
      { k with probeWait := ikcpProbeInit, tsProbe := k.current + ikcpProbeInit }
    else if 0 ≤ itimediff k.current k.tsProbe then
      let wait := max k.probeWait ikcpProbeInit
      let wait := min (wait + wait / 2) ikcpProbeLimit
      { k with
        probeWait := wait, tsProbe := k.current + wait, probe := k.probe ||| ikcpAskSend }
    else k
  else { k with tsProbe := 0, probeWait := 0 }

/-- The window of a flush, in segments. -/
def flushWindow (k : Ikcp) : UInt32 :=
  let cwnd := min k.sndWnd k.rmtWnd
  if k.nocwnd then cwnd else min k.cwnd cwnd

/-- The loop that moves data from `snd_queue` to `snd_buf`: the new segments,
what stays in the queue, and the next number. -/
def moveToBuf (conv : ℕ) (k : Ikcp) (limit : UInt32) :
    List IkcpSeg → UInt32 → List IkcpSeg × List IkcpSeg × UInt32
  | [], nxt => ([], [], nxt)
  | seg :: queue, nxt =>
    if itimediff nxt limit < 0 then
      let newseg :=
        { seg with
          conv := UInt32.ofNat conv, cmd := .push, wnd := k.wndUnused, ts := k.current, sn := nxt
          una := k.rcvNxt, resendts := k.current, rto := k.rxRto.toUInt32, fastack := 0, xmit := 0 }
      match moveToBuf conv k limit queue (nxt + 1) with
      | (buf, queue, nxt) => (newseg :: buf, queue, nxt)
    else ([], seg :: queue, nxt)

/-- Why a segment is sent in a flush. -/
inductive Reason
  | first | timeout | fastack
  deriving DecidableEq, Repr

/-- A segment sent now. -/
def touch (k : Ikcp) (seg : IkcpSeg) : IkcpSeg :=
  { seg with ts := k.current, wnd := k.wndUnused, una := k.rcvNxt, xmit := seg.xmit + 1 }

/-- The branches of the loop that flushes data segments. -/
def decideSeg (k : Ikcp) (resent rtomin : UInt32) (seg : IkcpSeg) : IkcpSeg × Option Reason :=
  if seg.xmit = 0 then
    let rto := k.rxRto.toUInt32
    (k.touch { seg with rto, resendts := k.current + rto + rtomin }, some .first)
  else if 0 ≤ itimediff k.current seg.resendts then
    let rto := seg.rto + (if k.nodelay then k.rxRto / 2 else k.rxRto).toUInt32
    (k.touch { seg with rto, resendts := k.current + rto }, some .timeout)
  else if resent ≤ seg.fastack then
    (k.touch { seg with fastack := 0, resendts := k.current + seg.rto }, some .fastack)
  else (seg, none)

/-- The loop that flushes data segments. -/
def flushSegs (k : Ikcp) (resent rtomin : UInt32) :
    Flushed → List IkcpSeg → Flushed × List IkcpSeg × List Reason
  | f, [] => (f, [], [])
  | f, seg :: rest =>
    match k.decideSeg resent rtomin seg with
    | (seg, none) =>
      match flushSegs k resent rtomin f rest with
      | (f, rest, reasons) => (f, seg :: rest, reasons)
    | (seg, some reason) =>
      match flushSegs k resent rtomin (f.put seg) rest with
      | (f, rest, reasons) => (f, seg :: rest, reason :: reasons)

/-- What a flush writes before the data: acknowledgements and probes. -/
def flushControl (conv : ℕ) (k : Ikcp) : Flushed :=
  let acks := k.acklist.map fun (sn, ts) => k.controlSeg conv .ack sn ts
  let (sn, ts) := (k.acklist.getLast?).getD (0, 0)
  let asks := k.probeWindow.probe
  let wask := if asks &&& ikcpAskSend ≠ 0 then [k.controlSeg conv .wask sn ts] else []
  let wins := if asks &&& ikcpAskTell ≠ 0 then [k.controlSeg conv .wins sn ts] else []
  (acks ++ wask ++ wins).foldl Flushed.put ⟨[], []⟩

/-- The windows after the data was flushed. -/
def adjustCwnd (k : Ikcp) (cwnd resent : UInt32) (reasons : List Reason) : Ikcp :=
  let mss := UInt32.ofNat ikcpMss
  let k : Ikcp :=
    if .fastack ∈ reasons then
      let ssthresh := max ((k.sndNxt - k.sndUna) / 2) ikcpThreshMin
      { k with ssthresh, cwnd := ssthresh + resent, incr := (ssthresh + resent) * mss }
    else k
  let k : Ikcp :=
    if .timeout ∈ reasons then
      { k with ssthresh := max (cwnd / 2) ikcpThreshMin, cwnd := 1, incr := mss }
    else k
  if k.cwnd < 1 then { k with cwnd := 1, incr := mss } else k

/-- `ikcp_flush`, with the datagrams it hands to the output callback. -/
def flush (conv : ℕ) (k : Ikcp) : Ikcp × List Bytes :=
  if ¬ k.updated then (k, [])
  else
    let f := k.flushControl conv
    let k : Ikcp := { k.probeWindow with acklist := [], probe := 0 }
    let cwnd := k.flushWindow
    let (newsegs, sndQueue, sndNxt) := moveToBuf conv k (k.sndUna + cwnd) k.sndQueue k.sndNxt
    let k : Ikcp := { k with sndBuf := k.sndBuf ++ newsegs, sndQueue, sndNxt }
    let resent : UInt32 := if k.fastresend = 0 then 0xffffffff else k.fastresend
    let rtomin : UInt32 := if k.nodelay then 0 else (k.rxRto >>> 3).toUInt32
    let (f, sndBuf, reasons) := k.flushSegs resent rtomin f k.sndBuf
    ({ k with sndBuf }.adjustCwnd cwnd resent reasons, f.output.out)

def update (conv : ℕ) (k : Ikcp) (current : UInt32) : Ikcp × List Bytes :=
  let k := { k with current }
  let k := if k.updated then k else { k with updated := true, tsFlush := current }
  let slap := itimediff current k.tsFlush
  let far := 10000 ≤ slap ∨ slap < -10000
  let k := if far then { k with tsFlush := current } else k
  if far ∨ 0 ≤ slap then
    let tsFlush := k.tsFlush + k.interval
    let tsFlush := if 0 ≤ itimediff current tsFlush then current + k.interval else tsFlush
    { k with tsFlush }.flush conv
  else (k, [])

/-- How long `ikcp_check` waits for the segments that are not acknowledged;
`none` when one of them is due. -/
def packetWait (current : UInt32) : List IkcpSeg → Option ℤ
  | [] => some 0x7fffffff
  | seg :: rest =>
    let diff := itimediff seg.resendts current
    if diff ≤ 0 then none else (packetWait current rest).map (min diff)

def check (k : Ikcp) (current : UInt32) : UInt32 :=
  if ¬ k.updated then current
  else
    let diff := itimediff current k.tsFlush
    let tsFlush := if 10000 ≤ diff ∨ diff < -10000 then current else k.tsFlush
    if 0 ≤ itimediff current tsFlush then current
    else
      match packetWait current k.sndBuf with
      | none => current
      | some packet =>
        let minimal := UInt32.ofNat (min packet (itimediff tsFlush current)).toNat
        current + min minimal k.interval

end Ikcp

/-- The KCP objects the library creates. -/
instance ikcp : KcpImpl Ikcp where
  create := Ikcp.kcpevCreateKcp
  send := Ikcp.send
  recv := Ikcp.recv
  input := Ikcp.input
  check := Ikcp.check
  update := Ikcp.update

end KcpEv
