import KcpEv.Header
import KcpEv.RingbufQueue

/-!
The TCP receive path: `on_tcp_recv`, `get_tcp_buf_chunk` and the loop that
`client_tcp_recv` and `server_tcp_recv` share. What a frame is dispatched to is
a parameter, which may read and change everything but the ring of the
connection; the outcomes of its system calls are taken from a list, one element
for every dispatched frame.
-/
namespace KcpEv.TcpRecv

open Circular Framing

/-- `ringbuf_get_pending_size`, where a missing ring has nothing pending. -/
def pendingSize (rb : Option Ringbuf) : ℕ := rb.elim 0 Ringbuf.getPendingSize

/-- The `while` loop that empties `rb` into `new_rb`. The result says whether it
ended at an empty ring; each round consumes a byte, so `fuel` need not exceed
the fill level. -/
def moveChunks : ℕ → Ringbuf → Ringbuf → Exec (Ringbuf × Bool)
  | 0, _, _ => .error .unfinished
  | fuel + 1, rb, newRb => do
    let (off, size) ← rb.getNextChunk
    if size = 0 then return (rb, true)
    let chunk ← rb.copyOut off size
    let (newRb, ret) ← newRb.put chunk
    if ret = -1 then return (rb, false)
    let rb ← rb.markConsumed size
    moveChunks fuel rb newRb

/-- The part of `on_tcp_recv` behind the direct path. When the chunk does not
fit, the pending bytes are moved to a bigger ring, which is then neither stored
in `tcp->rb` nor freed; the chunk itself is not stored anywhere. -/
def bufferChunk (rb : Option Ringbuf) (data : Bytes) (newMem growMem : Malloc) :
    Exec (Option Ringbuf × ℕ) :=
  match rb <|> Ringbuf.new newMem kcpevBufferSize with
  | none => .ok (none, sizeMinusOne)
  | some r => do
    let (r, ret) ← r.put data
    if ret = -1 then
      match Ringbuf.new growMem (r.n + kcpevBufferSize) with
      | none => return (some r, sizeMinusOne)
      | some newRb =>
        let (r, moved) ← moveChunks (r.u + 1) r newRb
        return (some r, if moved then 0 else sizeMinusOne)
    else return (some r, 0)

/-- The new ring of the connection, and the returned `size_t`. `newMem` and
`growMem` are what the two `ringbuf_new` calls get from `malloc`. -/
def onTcpRecv (rb : Option Ringbuf) (data : Bytes) (newMem growMem : Malloc) :
    Exec (Option Ringbuf × ℕ) :=
  let len := data.length
  -- no pending data
  if pendingSize rb = 0 ∧ headerSize ≤ len then
    match headerFromNet data len with
    | none => .ok (rb, sizeMinusOne)
    | some header =>
      if header.size.toNat = len then .ok (rb, len)
      else bufferChunk rb data newMem growMem
  else bufferChunk rb data newMem growMem

/-- The bytes written to `ret_data`, as many as the returned size. `len` is the
size of `ret_data`, and a longer frame is written beyond its end. -/
def getTcpBufChunk (rb : Option Ringbuf) (len : ℕ) : Exec (Option Ringbuf × Bytes) :=
  if len < headerSize then .ok (rb, [])
  else
    match rb with
    | none => .ok (none, [])
    | some r =>
      let size := r.getPendingSize
      if size < headerSize then .ok (some r, [])
      else do
        match ← r.copyData headerSize with
        | none => return (some r, [])
        | some head =>
          match headerFromNet head len with
          | none => throw .uninitialised
          | some header =>
            if header.size.toNat ≤ size then
              match ← r.copyData header.size.toNat with
              | none => return (some r, [])
              | some data =>
                if len < data.length then throw .outOfBounds
                let r ← r.markConsumed header.size.toNat
                return (some r, data)
            else return (some r, [])

variable {S O : Type}

/-- `while((len = get_tcp_buf_chunk(client, buf, sizeof(buf)))) { ... }`. The
result says whether the loop ended at an empty chunk. -/
def drain (dispatch : O → S → Bytes → Exec (S × ℤ)) :
    List O → Option Ringbuf → S → Exec (Option Ringbuf × S × Bool)
  | outs, rb, s => do
    let (rb, chunk) ← getTcpBufChunk rb kcpevBufferSize
    if chunk = [] then return (rb, s, true)
    match outs with
    | [] => throw .unfinished
    | o :: outs =>
      let (s, ret) ← dispatch o s chunk
      if ret = 0 then drain dispatch outs rb s else return (rb, s, false)

/-- The rest of the callback, with `len` the returned size as an `int`: a positive
one is the length of a frame that lies in the caller's buffer. -/
def dispatchAndDrain (dispatch : O → S → Bytes → Exec (S × ℤ)) (outs : List O)
    (rb : Option Ringbuf) (s : S) (data : Bytes) (len : ℤ) : Exec (Option Ringbuf × S × Bool) :=
  if 0 < len then
    match outs with
    | [] => .error .unfinished
    | o :: outs => do
      let (s, ret) ← dispatch o s (data.take len.toNat)
      if ret = 0 then drain dispatch outs rb s else return (rb, s, false)
  else drain dispatch outs rb s

/-- What happens to one received chunk. The result says whether the callback
returned, or went to its `error` label. -/
def tcpRecv (dispatch : O → S → Bytes → Exec (S × ℤ)) (outs : List O)
    (newMem growMem : Malloc) (rb : Option Ringbuf) (s : S) (data : Bytes) :
    Exec (Option Ringbuf × S × Bool) := do
  let (rb, size) ← onTcpRecv rb data newMem growMem
  dispatchAndDrain dispatch outs rb s data (toInt size)

end KcpEv.TcpRecv
