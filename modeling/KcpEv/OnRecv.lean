import KcpEv.Handshake

/-!
The two dispatchers, `on_client_recv` and `on_server_recv`, over all objects of
a process. A frame is dispatched with the object it came from; the handshake
commands of the server look the object up in the hash instead.
-/
namespace KcpEv

/-- The objects of one process. An object that was freed is `none`. -/
structure World (K T : Type) where
  os : Os K T
  server : Option (KcpevServer T)
  objs : ℕ → Option (Kcpev T)

variable {K T : Type}

namespace World

/-- Follow a pointer to a `Kcpev`. -/
def kcpev (w : World K T) (c : ℕ) : Exec (Kcpev T) :=
  match w.objs c with
  | none => .error .useAfterFree
  | some client => .ok client

/-- Follow a pointer to the server. -/
def kcpevServer (w : World K T) : Exec (KcpevServer T) :=
  match w.server with
  | none => .error .useAfterFree
  | some server => .ok server

def store (w : World K T) (os : Os K T) (c : ℕ) (client : Kcpev T) : World K T :=
  { w with os, objs := Function.update w.objs c (some client) }

theorem kcpev_ok {w : World K T} {c : ℕ} {client : Kcpev T} :
    w.kcpev c = .ok client ↔ w.objs c = some client := by
  unfold kcpev
  split <;> simp_all

theorem kcpevServer_ok {w : World K T} {server : KcpevServer T} :
    w.kcpevServer = .ok server ↔ w.server = some server := by
  unfold kcpevServer
  split <;> simp_all

end World

namespace KcpevServer

/-- `HASH_FIND` -/
def hashFind (server : KcpevServer T) (key : KcpevKey) : Option ℕ :=
  (server.hash.find? fun e => e.1 = key).map Prod.snd

/-- `HASH_ADD` -/
def hashAdd (server : KcpevServer T) (key : KcpevKey) (c : ℕ) : KcpevServer T :=
  { server with hash := (key, c) :: server.hash }

/-- `HASH_DEL` -/
def hashDel (server : KcpevServer T) (c : ℕ) : KcpevServer T :=
  { server with hash := server.hash.filter fun e => e.2 ≠ c }

theorem hashFind_mem {server : KcpevServer T} {key : KcpevKey} {c : ℕ}
    (h : server.hashFind key = some c) : (key, c) ∈ server.hash := by
  unfold hashFind at h
  obtain ⟨⟨k, c'⟩, hfind, rfl⟩ := Option.map_eq_some_iff.mp h
  have hk : k = key := by simpa using List.find?_some hfind
  rw [← hk]
  exact List.mem_of_find?_eq_some hfind

end KcpevServer

/-- `htobe64`, as bytes. -/
def htobe64 (x : UInt64) : Bytes :=
  (List.range 8).map fun i => UInt8.ofNat (x.toNat / 2 ^ (56 - 8 * i))

/-- `be64toh` of the word at the front of a buffer. -/
def be64toh (buf : Bytes) : UInt64 :=
  UInt64.ofNat ((buf.take 8).foldl (fun acc b => acc * 256 + b.toNat) 0)

theorem be64toh_htobe64 (x : UInt64) (rest : Bytes) : be64toh (htobe64 x ++ rest) = x := by
  have hx := x.toNat_lt
  have hbytes : htobe64 x = [UInt8.ofNat (x.toNat / 2 ^ 56), UInt8.ofNat (x.toNat / 2 ^ 48),
      UInt8.ofNat (x.toNat / 2 ^ 40), UInt8.ofNat (x.toNat / 2 ^ 32),
      UInt8.ofNat (x.toNat / 2 ^ 24), UInt8.ofNat (x.toNat / 2 ^ 16),
      UInt8.ofNat (x.toNat / 2 ^ 8), UInt8.ofNat (x.toNat / 2 ^ 0)] := rfl
  apply UInt64.toNat_inj.mp
  simp only [be64toh, hbytes, List.cons_append, List.nil_append, List.take_succ_cons,
    List.take_zero, List.foldl_cons, List.foldl_nil, UInt8.toNat_ofNat', UInt64.toNat_ofNat']
  omega

/-- The checks both dispatchers make before they look at the command: the command
byte and the payload of a buffer that is exactly one frame. -/
def parseFrame (buf : Bytes) : Option (UInt8 × Bytes) :=
  if buf.length < headerSize then none
  else
    match headerFromNet buf buf.length with
    | none => none
    | some header =>
      if header.size.toNat ≠ buf.length then none
      else some (header.command, buf.drop headerSize)

/-- A buffer that is one frame with a known command. -/
def Parses (buf : Bytes) (command : Command) (data : Bytes) : Prop :=
  parseFrame buf = some (command.toByte, data)

instance (buf : Bytes) (command : Command) (data : Bytes) : Decidable (Parses buf command data) :=
  inferInstanceAs (Decidable (_ = _))

theorem Parses.ofByte {buf data data' : Bytes} {byte : UInt8} {command : Command}
    (h : Parses buf command data) (hframe : parseFrame buf = some (byte, data')) :
    Command.ofByte byte = some command ∧ data' = data := by
  rw [Parses, hframe] at h
  obtain ⟨rfl, rfl⟩ := Prod.mk.inj (Option.some.inj h)
  exact ⟨Command.ofByte_toByte command, rfl⟩

theorem Parses.unique {buf data data' : Bytes} {command command' : Command}
    (h : Parses buf command data) (h' : Parses buf command' data') :
    command' = command ∧ data' = data := by
  obtain ⟨hbyte, rfl⟩ := h'.ofByte h
  rw [Command.ofByte_toByte] at hbyte
  exact ⟨(Option.some.inj hbyte).symm, rfl⟩

/-- The receivers find in a frame what the senders have put there. -/
theorem Frame.parses {command : Command} {msg frame : Bytes} (h : Frame command msg frame) :
    Parses frame command msg := by
  have hsize := kcpevBufferSize_eq
  have hlen := h.length
  obtain ⟨hfits, padding, hpad, rfl⟩ := h
  obtain ⟨p₀, p₁, p₂, rfl⟩ := List.length_eq_three.mp hpad
  have hdeclared : (be32toh (frameBytes command.toByte [p₀, p₁, p₂] msg)).toNat =
      msg.length + 8 := by
    rw [frameBytes, List.append_assoc, be32toh_htobe32, realSize_toNat (by omega)]
  unfold Parses parseFrame
  rw [hlen, if_neg (by rw [headerSize_eq]; omega),
    headerFromNet_eq _ (show headerSize ≤ msg.length + 8 by rw [headerSize_eq]; omega)]
  simp only
  rw [if_neg (by rw [hdeclared]; simp)]
  rfl

/-- What the receivers accept declares its own length. -/
theorem Parses.isFrame {buf data : Bytes} {command : Command} (h : Parses buf command data) :
    header.IsFrame buf := by
  unfold Parses parseFrame at h
  split at h
  · cases h
  rename_i hlong
  rw [not_lt, headerSize_eq] at hlong
  rw [headerFromNet_eq _ (by rw [headerSize_eq]; omega)] at h
  dsimp only at h
  split at h
  · cases h
  rename_i hsize
  rw [ne_eq, not_not] at hsize
  refine ⟨?_, ?_, hsize⟩
  · rw [header_len]
    omega
  · omega

/-- A part of a frame is no frame, so what the receivers accept of it is the whole one. -/
theorem Frame.parses_take {command command' : Command} {msg frame data : Bytes} {k : ℕ}
    (h : Frame command msg frame) (hparse : Parses (frame.take k) command' data) :
    command' = command ∧ data = msg := by
  rcases Nat.lt_or_ge k frame.length with hlt | hge
  · exact absurd hparse.isFrame (header.not_isFrame_take h.isFrame hlt)
  · rw [List.take_of_length_le hge] at hparse
    exact h.parses.unique hparse

section Client
variable [KcpImpl K]

def clientData (w : World K T) (c : ℕ) (client : Kcpev T) (data : Bytes) :
    Exec (World K T × ℤ) :=
  if ¬ client.hasRecvCb then .error .nullPointer
  else .ok ({ w with os := w.os.emit (.clientRecvCb c data) }, 0)

def clientShakeHand1 (w : World K T) (c : ℕ) (client : Kcpev T) (data : Bytes)
    (a : RecvAnswer) : Exec (World K T × ℤ) :=
  if client.udp.sock = 0 then .ok (w, 0)
  else
    match KcpevKey.ofBytes data with
    | none => .ok (w, -1)
    | some key => do
      let client := { client with key }
      let (os, ret) ← sockSendCommand w.os client.udp.sock .shakeHand1 data a.send
      if ret ≠ 0 then return (w.store os c client, -1)
      else
        let udp := { client.udp with status := .shakingHand }
        return (w.store os c { client with udp }, 0)

def clientShakeHand2 (w : World K T) (c : ℕ) (client : Kcpev T) (data : Bytes)
    (a : RecvAnswer) : Exec (World K T × ℤ) :=
  if client.udp.sock = 0 then .ok (w, 0)
  else
    match KcpevKey.ofBytes data with
    | none => .ok (w, -1)
    | some key =>
      if client.udp.status ≠ .shakingHand then .ok (w, -1)
      else if key ≠ client.key then .ok (w, -1)
      else do
        let (os, ret) ← sockSendCommand w.os client.udp.sock .shakeHand2 data a.send
        if ret ≠ 0 then return ({ w with os }, -1)
        else
          let (os, udp, ret) ← checkCreateKcpTimer os (.kcpev c) client.udp
            .onClientHeartbeatTimer a.evt a.evh
          if ret < 0 then return (w.store os c { client with udp }, -1)
          else
            match udp.kcp with
            | none => throw .nullPointer
            | some p =>
              match os.kcps p with
              | none => throw .useAfterFree
              | some kcp =>
                let os := os.setKcp p { kcp with conv := client.key.conv }
                return (w.store os c { client with udp := { udp with status := .ready } }, 0)

/-- `sizeof(KcpevKey) + sizeof(uint64_t)` -/
def heartbeatSize : ℕ := 24

def clientHeartbeat1 (w : World K T) (c : ℕ) (client : Kcpev T) (data : Bytes)
    (a : RecvAnswer) : Exec (World K T × ℤ) :=
  if ¬ client.udp.isKcpValid then .ok (w, 0)
  else if data.length ≠ heartbeatSize then .ok (w, -1)
  else if client.udp.status ≠ .ready then .ok (w, -1)
  else if data.take 16 ≠ client.key.val then .ok (w, -1)
  else do
    let (os, ret) ← kcpevSendCommand w.os client.toKcpevBase .heartbeat2 data a.send
    if ret ≠ 0 then return ({ w with os }, -1)
    else return (w.store os c { client with udp := { client.udp with heart := os.now } }, 0)

def clientUdpInvalid (w : World K T) (c : ℕ) (client : Kcpev T) (data : Bytes) :
    Exec (World K T × ℤ) :=
  if ¬ client.udp.isKcpValid then .ok (w, 0)
  else if data.length ≠ 16 then .ok (w, -1)
  else if data ≠ client.key.val then .ok (w, -1)
  else .ok (w.store w.os c { client with udp := client.udp.setKcpInvalid }, 0)

def onClientRecv (w : World K T) (c : ℕ) (buf : Bytes) (a : RecvAnswer) :
    Exec (World K T × ℤ) := do
  let client ← w.kcpev c
  match parseFrame buf with
  | none => return (w, -1)
  | some (command, data) =>
    match Command.ofByte command with
    | some .data => clientData w c client data
    | some .shakeHand1 => clientShakeHand1 w c client data a
    | some .shakeHand2 => clientShakeHand2 w c client data a
    | some .heartbeat1 => clientHeartbeat1 w c client data a
    | some .udpInvalid => clientUdpInvalid w c client data
    | some .heartbeat2 | none => return (w, -1)

end Client

section Server
variable [KcpImpl K] [ClockImpl T]

/-- The callback gets whatever pointer the dispatcher was called with. -/
def serverData (w : World K T) (client : Option ℕ) (data : Bytes) : Exec (World K T × ℤ) := do
  let server ← w.kcpevServer
  if ¬ server.hasRecvCb then throw .nullPointer
  else return ({ w with os := w.os.emit (.serverRecvCb client data) }, 0)

/-- A failed `connect_client_udp` leaves the status of the session as it was; a
failed answer to the client is only logged. -/
def serverShakeHand1 (w : World K T) (data : Bytes) (addr : Addr) (a : RecvAnswer) :
    Exec (World K T × ℤ) :=
  match KcpevKey.ofBytes data with
  | none => .ok (w, -1)
  | some key => do
    let server ← w.kcpevServer
    match server.hashFind key with
    | none => return (w, -1)
    | some c =>
      let client ← w.kcpev c
      match connectClientUdp w.os c client addr a with
      | (os, client, ret) =>
        if ret < 0 then return (w.store os c client, -1)
        else
          let client := { client with udp := { client.udp with status := .shakingHand } }
          let (os, _) ← sockSendCommand os client.udp.sock .shakeHand2 client.key.val a.send
          return (w.store os c client, 0)

def serverShakeHand2 (w : World K T) (data : Bytes) (a : RecvAnswer) :
    Exec (World K T × ℤ) :=
  match KcpevKey.ofBytes data with
  | none => .ok (w, -1)
  | some key => do
    let server ← w.kcpevServer
    match server.hashFind key with
    | none => return (w, -1)
    | some c =>
      let client ← w.kcpev c
      if client.udp.status ≠ .shakingHand then return (w, -1)
      else
        let (os, udp, ret) ← checkCreateKcpTimer w.os (.kcpev c) client.udp
          .onServerHeartbeatTimer a.evt a.evh
        if ret < 0 then return (w.store os c { client with udp }, -1)
        else return (w.store os c { client with udp := { udp with status := .ready } }, 0)

def serverHeartbeat1 (w : World K T) (client : Option ℕ) (data : Bytes) (a : RecvAnswer) :
    Exec (World K T × ℤ) :=
  match client with
  | none => .ok (w, -1)
  | some c => do
    let client ← w.kcpev c
    if ¬ client.udp.isKcpValid then return (w, 0)
    else if data.length ≠ 16 then return (w, -1)
    else if data ≠ client.key.val then return (w, -1)
    else
      let sendBuf := client.key.val ++ htobe64 (ClockImpl.bits client.udp.heart)
      let (os, ret) ← kcpSendCommand w.os client.udp .heartbeat1 sendBuf a.send.stack
      return ({ w with os }, if ret = 0 then 0 else -1)

def serverHeartbeat2 (w : World K T) (client : Option ℕ) (data : Bytes) :
    Exec (World K T × ℤ) :=
  match client with
  | none => .ok (w, -1)
  | some c => do
    let client ← w.kcpev c
    if ¬ client.udp.isKcpValid then return (w, 0)
    else if data.length ≠ heartbeatSize then return (w, -1)
    else if data.take 16 ≠ client.key.val then return (w, -1)
    else if be64toh (data.drop 16) ≠ ClockImpl.bits client.udp.heart then return (w, 0)
    else
      let udp := { client.udp with heart := w.os.now }
      return (w.store w.os c { client with udp }, 0)

def onServerRecv (w : World K T) (client : Option ℕ) (buf : Bytes) (addr : Addr)
    (a : RecvAnswer) : Exec (World K T × ℤ) :=
  match parseFrame buf with
  | none => .ok (w, -1)
  | some (command, data) =>
    if ¬ a.getnameinfo then .ok (w, -1)
    else
      match Command.ofByte command with
      | some .data => serverData w client data
      | some .shakeHand1 => serverShakeHand1 w data addr a
      | some .shakeHand2 => serverShakeHand2 w data a
      | some .heartbeat1 => serverHeartbeat1 w client data a
      | some .heartbeat2 => serverHeartbeat2 w client data
      | some .udpInvalid | none => .ok (w, -1)

end Server

end KcpEv
