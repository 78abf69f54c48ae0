import KcpEv.Encoder
import KcpEv.Lib.Attempts

/-!
Sequences of sending calls on one TCP socket, where each `send` may fail or
stop short. How much of a frame is on the stream is kept nowhere: the next call
starts its own frame behind what the last one has left.
-/
namespace KcpEv

open Circular Attempts

/-- A call of the application, or of the library itself, that sends. -/
inductive SendCall (T : Type)
  | kcpevSend (b : KcpevBase T) (msg : Bytes) (a : SendAnswer)
  | kcpevSendTcp (b : KcpevBase T) (msg : Bytes) (a : SendAnswer)
  | sockSendCommand (sock : ℕ) (command : Command) (msg : Bytes) (a : SendAnswer)

variable {K T : Type}

namespace SendCall

def sock : SendCall T → ℕ
  | kcpevSend b _ _ | kcpevSendTcp b _ _ => b.tcp.sock
  | sockSendCommand sock _ _ _ => sock

def command : SendCall T → Command
  | kcpevSend _ _ _ | kcpevSendTcp _ _ _ => .data
  | sockSendCommand _ command _ _ => command

def msg : SendCall T → Bytes
  | kcpevSend _ msg _ | kcpevSendTcp _ msg _ | sockSendCommand _ _ msg _ => msg

def answer : SendCall T → SendAnswer
  | kcpevSend _ _ a | kcpevSendTcp _ _ a | sockSendCommand _ _ _ a => a

/-- The KCP object the call uses instead of the socket. -/
def kcp : SendCall T → Option ℕ
  | kcpevSend b _ _ => if b.udp.isKcpValid then b.udp.kcp else none
  | kcpevSendTcp .. | sockSendCommand .. => none

/-- The frame the call packs. -/
def frame (call : SendCall T) : Bytes :=
  frameBytes call.command.toByte (load call.answer.stack 5 3) call.msg

/-- How many bytes of it the call puts on the socket. -/
def count (call : SendCall T) : ℕ :=
  if call.kcp = none ∧ call.msg.length + headerSize ≤ kcpevBufferSize then
    call.answer.send.getD 0
  else 0

/-- The socket takes some bytes of the frame, but not all. -/
def StopsShort (call : SendCall T) : Prop :=
  0 < call.count ∧ call.count < call.msg.length + headerSize

instance (call : SendCall T) : Decidable call.StopsShort := inferInstanceAs (Decidable (_ ∧ _))

/-- The call is on the socket `fd`, and the KCP object it may use is live. -/
structure On (os : Os K T) (fd : ℕ) (call : SendCall T) : Prop where
  sock : call.sock = fd
  live : ∀ p, call.kcp = some p → (os.kcps p).isSome

def run [KcpImpl K] (os : Os K T) : SendCall T → Exec (Os K T × ℤ)
  | kcpevSend b msg a => KcpEv.kcpevSend os b msg a
  | kcpevSendTcp b msg a => KcpEv.kcpevSendTcp os b msg a
  | sockSendCommand sock command msg a => KcpEv.sockSendCommand os sock command msg a

/-- One call after the other, with what they return. -/
def runAll [KcpImpl K] (os : Os K T) : List (SendCall T) → Exec (Os K T × List ℤ)
  | [] => .ok (os, [])
  | call :: calls => do
    let (os, ret) ← call.run os
    let (os, rets) ← runAll os calls
    return (os, ret :: rets)

/-- The frames of the calls on the socket that returned zero. -/
def sentFrames : List (SendCall T) → List ℤ → Bytes
  | call :: calls, ret :: rets =>
    (if call.kcp = none ∧ ret = 0 then call.frame else []) ++ sentFrames calls rets
  | _, _ => []

theorem length_frame (call : SendCall T) : call.frame.length = call.msg.length + 8 := by
  unfold frame frameBytes
  simp only [List.length_append, List.length_cons, length_load, length_htobe32]
  omega

def attempt (call : SendCall T) : Attempt UInt8 where
  frame := call.frame
  count := call.count
  nonempty := by
    apply List.ne_nil_of_length_pos
    rw [length_frame]
    omega

theorem short_attempt (call : SendCall T) : call.attempt.Short ↔ call.StopsShort := by
  unfold Attempt.Short StopsShort
  rw [headerSize_eq, ← length_frame]
  rfl

end SendCall

namespace Os

/-- What was put on the socket `fd`. -/
def stream (os : Os K T) (fd : ℕ) : Bytes :=
  os.out.flatMap fun
    | .sent sock buf => if sock = fd then buf else []
    | .received .. | .serverRecvCb .. | .clientRecvCb .. => []

theorem stream_of_out {os os' : Os K T} (fd : ℕ) (h : os'.out = os.out) :
    os'.stream fd = os.stream fd := by
  unfold stream
  rw [h]

theorem stream_emit_sent (os : Os K T) (fd : ℕ) (buf : Bytes) :
    (os.emit (.sent fd buf)).stream fd = os.stream fd ++ buf := by
  unfold stream emit
  simp only [List.flatMap_append, List.flatMap_cons, List.flatMap_nil, if_true, List.append_nil]

end Os

/-- The calls return, and at every moment between two of them the bytes put on
the socket since the first are the frames of those that returned zero, or there
is a part of another frame behind these and nothing is put on the socket later. -/
def FramingSurvives [KcpImpl K] (os : Os K T) (fd : ℕ) (calls : List (SendCall T)) : Prop :=
  ∀ l₁ l₂, calls = l₁ ++ l₂ → ∃ os₁ rets₁ os₂ rets₂,
    SendCall.runAll os l₁ = .ok (os₁, rets₁) ∧ SendCall.runAll os₁ l₂ = .ok (os₂, rets₂) ∧
    (os₁.stream fd = os.stream fd ++ SendCall.sentFrames l₁ rets₁ ∨
      ∃ call ∈ l₁, ∃ part, part <+: call.frame ∧ part ≠ call.frame ∧
        os₁.stream fd = os.stream fd ++ SendCall.sentFrames l₁ rets₁ ++ part ∧
        os₂.stream fd = os₁.stream fd)

namespace SendCall

section Run
variable [KcpImpl K]

/-- Without KCP, each of the three functions is `sock_send_command`. -/
theorem run_tcp (os : Os K T) {call : SendCall T} (h : call.kcp = none) :
    call.run os = KcpEv.sockSendCommand os call.sock call.command call.msg call.answer := by
  cases call with
  | kcpevSend b msg a =>
    apply kcpevSendCommand_tcp os
    intro hvalid
    have hkcp := hvalid.2.1
    simp only [kcp, hvalid, if_true] at h
    rw [h] at hkcp
    cases hkcp
  | kcpevSendTcp b msg a => rfl
  | sockSendCommand sock command msg a => rfl

theorem run_kcp (os : Os K T) {call : SendCall T} {p : ℕ} (h : call.kcp = some p) :
    ∃ udp : KcpevUdp T, udp.isKcpValid ∧ udp.kcp = some p ∧
      call.run os = kcpSendCommand os udp call.command call.msg call.answer.stack := by
  cases call with
  | kcpevSend b msg a =>
    by_cases hvalid : b.udp.isKcpValid
    · simp only [kcp, hvalid, if_true] at h
      exact ⟨b.udp, hvalid, h, kcpevSendCommand_kcp os hvalid .data msg a⟩
    · simp only [kcp, hvalid, if_false] at h
      cases h
  | kcpevSendTcp b msg a => cases h
  | sockSendCommand sock command msg a => cases h

theorem run_wraps (os : Os K T) {call : SendCall T} (h : Wraps 65536 call.msg.length) :
    call.run os = .error .outOfBounds := by
  have hpack := fun c => packSendBuf_overflows call.answer.stack c h
  rcases hkcp : call.kcp with _ | p
  · rw [run_tcp os hkcp]
    unfold KcpEv.sockSendCommand
    rw [hpack]
    rfl
  · obtain ⟨udp, -, -, hrun⟩ := run_kcp os hkcp
    rw [hrun]
    unfold kcpSendCommand
    rw [hpack]
    rfl

theorem run_ok {os : Os K T} {fd : ℕ} {call : SendCall T} (hopen : (os.socks fd).isSome)
    (hon : call.On os fd) (h : ¬ Wraps 65536 call.msg.length) :
    ∃ os' ret, call.run os = .ok (os', ret) ∧ os.Keeps os' ∧
      os'.stream fd = os.stream fd ++ call.attempt.put ∧
      ((call.kcp = none ∧ ret = 0) ↔ call.attempt.Whole) := by
  obtain ⟨rfl, hlive⟩ := hon
  have hwhole : call.attempt.Whole ↔ call.msg.length + 8 ≤ call.count := by
    rw [← length_frame]
    rfl
  have hempty : call.count = 0 → call.attempt.put = [] := (call.attempt.put_eq_nil_iff).mpr
  by_cases hfits : call.msg.length + headerSize ≤ kcpevBufferSize
  · rcases hkcp : call.kcp with _ | p
    · have hrun := run_tcp os hkcp
      have hcount : call.count = call.answer.send.getD 0 := if_pos ⟨hkcp, hfits⟩
      rw [sockSendCommand_open hopen hfits] at hrun
      rcases hsend : call.answer.send with _ | k
      · rw [hsend] at hrun hcount
        refine ⟨os, -1, hrun, Os.Keeps.refl os, ?_, ?_⟩
        · rw [hempty hcount, List.append_nil]
        · rw [hwhole, hcount]
          simp
      · rw [hsend] at hrun hcount
        refine ⟨_, _, hrun, os.keeps_emit _ rfl, ?_, ?_⟩
        · rw [Os.stream_emit_sent, Attempt.put, attempt, hcount]
          rfl
        · rw [hwhole, hcount, Option.getD_some]
          by_cases hk : call.msg.length + 8 ≤ k <;> simp [hk]
    · obtain ⟨udp, hvalid, hudp, hrun⟩ := run_kcp os hkcp
      have hcount : call.count = 0 := if_neg (by simp [hkcp])
      obtain ⟨k, hk⟩ := Option.isSome_iff_exists.mp (hlive p hkcp)
      obtain ⟨buf, hpack, hload⟩ := packSendBuf_fits call.answer.stack call.command.toByte call.msg
        hfits
      have hret : ∃ r, call.run os = .ok r := by
        rw [hrun]
        unfold kcpSendCommand ikcpSend
        simp [hpack, hvalid, hudp, hk, bind, Except.bind]
      obtain ⟨⟨os', ret⟩, hret⟩ := hret
      obtain ⟨hkeeps, hout⟩ := keeps_kcpSendCommand (hrun.symm.trans hret)
      refine ⟨os', ret, hret, hkeeps, ?_, ?_⟩
      · rw [hempty hcount, List.append_nil, Os.stream_of_out _ hout]
      · rw [hwhole, hcount]
        simp
  · have hcount : call.count = 0 := if_neg (fun hc => hfits hc.2)
    have hpack : packSendBuf call.answer.stack 65536 call.command.toByte call.msg =
        .ok (call.answer.stack, 0) :=
      packSendBuf_zero _ _ (Nat.lt_of_not_le hfits) h
    refine ⟨os, -1, ?_, Os.Keeps.refl os, ?_, ?_⟩
    · rcases hkcp : call.kcp with _ | p
      · rw [run_tcp os hkcp]
        unfold KcpEv.sockSendCommand
        rw [hpack]
        rfl
      · obtain ⟨udp, -, -, hrun⟩ := run_kcp os hkcp
        rw [hrun]
        unfold kcpSendCommand
        rw [hpack]
        rfl
    · rw [hempty hcount, List.append_nil]
    · rw [hwhole, hcount]
      simp

omit [KcpImpl K] in
theorem On.keeps {os os' : Os K T} {fd : ℕ} {call : SendCall T} (h : call.On os fd)
    (hkeeps : os.Keeps os') : call.On os' fd := by
  refine ⟨h.sock, fun p hp => ?_⟩
  rw [hkeeps.kcps p]
  exact h.live p hp

theorem runAll_ok {os : Os K T} {fd : ℕ} {calls : List (SendCall T)}
    (hopen : (os.socks fd).isSome) (hon : ∀ call ∈ calls, call.On os fd)
    (h : ∀ call ∈ calls, ¬ Wraps 65536 call.msg.length) :
    ∃ os' rets, runAll os calls = .ok (os', rets) ∧ os.Keeps os' ∧
      os'.stream fd = os.stream fd ++ Attempts.stream (calls.map attempt) ∧
      sentFrames calls rets = wholes (calls.map attempt) := by
  induction calls generalizing os with
  | nil => exact ⟨os, [], rfl, Os.Keeps.refl os, (List.append_nil _).symm, rfl⟩
  | cons call calls ih =>
    obtain ⟨os₁, ret, hrun, hkeeps, hput, hret⟩ :=
      run_ok hopen (hon call List.mem_cons_self) (h call List.mem_cons_self)
    have hopen₁ : (os₁.socks fd).isSome := by rwa [hkeeps.socks]
    obtain ⟨os₂, rets, hall, hkeeps', hputs, hframes⟩ := ih hopen₁
      (fun c hc => (hon c (List.mem_cons_of_mem call hc)).keeps hkeeps)
      (fun c hc => h c (List.mem_cons_of_mem call hc))
    refine ⟨os₂, ret :: rets, ?_, hkeeps.trans hkeeps', ?_, ?_⟩
    · simp only [runAll, hrun, hall, bind, Except.bind, pure, Except.pure]
    · rw [hputs, hput, List.map_cons, stream_cons, List.append_assoc]
    · unfold sentFrames
      rw [List.map_cons, hframes]
      by_cases hw : call.attempt.Whole
      · rw [if_pos (hret.mpr hw), wholes_cons_whole _ hw]
        rfl
      · rw [if_neg (fun hc => hw (hret.mp hc)), wholes_cons _ hw, List.nil_append]

/-- A sequence that returns packs every message at its size. -/
theorem runAll_noWrap {os os' : Os K T} {calls : List (SendCall T)} {rets : List ℤ}
    (h : runAll os calls = .ok (os', rets)) :
    ∀ call ∈ calls, ¬ Wraps 65536 call.msg.length := by
  induction calls generalizing os rets with
  | nil => exact List.forall_mem_nil _
  | cons call calls ih =>
    obtain ⟨⟨os₁, ret⟩, hrun, h⟩ := bind_eq_ok.mp h
    obtain ⟨⟨os₂, rets'⟩, hall, hdone⟩ := bind_eq_ok.mp h
    cases hdone
    intro c hc hwraps
    rcases List.mem_cons.mp hc with rfl | hc
    · rw [run_wraps os hwraps] at hrun
      cases hrun
    · exact ih hall c hc hwraps

/-- The framing survives as that of the attempts the calls make. -/
theorem framingSurvives_iff_intact {os : Os K T} {fd : ℕ} {calls : List (SendCall T)}
    (hopen : (os.socks fd).isSome) (hon : ∀ call ∈ calls, call.On os fd) :
    FramingSurvives os fd calls ↔
      (∀ call ∈ calls, ¬ Wraps 65536 call.msg.length) ∧ Intact (calls.map attempt) := by
  constructor
  · intro h
    have hnowrap : ∀ call ∈ calls, ¬ Wraps 65536 call.msg.length := by
      obtain ⟨os₁, rets₁, -, -, hrun, -⟩ := h calls [] (List.append_nil _).symm
      exact runAll_noWrap hrun
    refine ⟨hnowrap, fun l₁ l₂ hl => ?_⟩
    obtain ⟨c₁, c₂, rfl, rfl, rfl⟩ := List.map_eq_append_iff.mp hl
    obtain ⟨os₁, rets₁, os₂, rets₂, hrun₁, hrun₂, hframed⟩ := h c₁ c₂ rfl
    have hon₁ : ∀ call ∈ c₁, call.On os fd := fun c hc => hon c (List.mem_append_left _ hc)
    obtain ⟨os₁', rets₁', hrun₁', hkeeps, hput₁, hframes⟩ := runAll_ok hopen hon₁
      (fun c hc => hnowrap c (List.mem_append_left _ hc))
    rw [hrun₁] at hrun₁'
    cases hrun₁'
    have hopen₁ : (os₁.socks fd).isSome := by rwa [hkeeps.socks]
    obtain ⟨os₂', rets₂', hrun₂', -, hput₂, -⟩ := runAll_ok hopen₁
      (fun c hc => (hon c (List.mem_append_right _ hc)).keeps hkeeps)
      (fun c hc => hnowrap c (List.mem_append_right _ hc))
    rw [hrun₂] at hrun₂'
    cases hrun₂'
    rw [hput₁, hframes] at hframed
    rcases hframed with hwhole | ⟨call, hcall, part, hprefix, hne, hpart, hquiet⟩
    · exact Or.inl (List.append_cancel_left hwhole)
    · refine Or.inr ⟨call.attempt, List.mem_map_of_mem hcall, part, hprefix, hne, ?_, ?_⟩
      · rw [List.append_assoc] at hpart
        exact List.append_cancel_left hpart
      · rw [hput₂, hput₁] at hquiet
        exact List.append_right_eq_self.mp hquiet
  · rintro ⟨hnowrap, h⟩ c₁ c₂ rfl
    obtain ⟨os₁, rets₁, hrun₁, hkeeps, hput₁, hframes⟩ := runAll_ok hopen
      (fun c hc => hon c (List.mem_append_left _ hc))
      (fun c hc => hnowrap c (List.mem_append_left _ hc))
    have hopen₁ : (os₁.socks fd).isSome := by rwa [hkeeps.socks]
    obtain ⟨os₂, rets₂, hrun₂, -, hput₂, -⟩ := runAll_ok hopen₁
      (fun c hc => (hon c (List.mem_append_right _ hc)).keeps hkeeps)
      (fun c hc => hnowrap c (List.mem_append_right _ hc))
    refine ⟨os₁, rets₁, os₂, rets₂, hrun₁, hrun₂, ?_⟩
    rw [hput₁, hframes]
    rcases h _ _ (List.map_append ..) with hwhole | ⟨x, hx, part, hprefix, hne, hpart, hquiet⟩
    · rw [hwhole]
      exact Or.inl rfl
    · obtain ⟨call, hcall, rfl⟩ := List.mem_map.mp hx
      refine Or.inr ⟨call, hcall, part, hprefix, hne, ?_, ?_⟩
      · rw [hpart, List.append_assoc]
      · rw [hput₂, hput₁, hquiet, List.append_nil]

omit [KcpImpl K] in
/-- No call puts anything behind a frame of which a part was written. -/
theorem intact_attempts_iff (calls : List (SendCall T)) :
    Intact (calls.map attempt) ↔
      ∀ l₁ x l₂, calls = l₁ ++ x :: l₂ → x.StopsShort → ∀ y ∈ l₂, y.count = 0 := by
  rw [intact_iff]
  constructor
  · rintro h l₁ x l₂ rfl hx y hy
    exact h (l₁.map attempt) x.attempt (l₂.map attempt) (by simp) (x.short_attempt.mpr hx)
      y.attempt (List.mem_map_of_mem hy)
  · intro h l₁ x l₂ hl hx y hy
    obtain ⟨c₁, c₂, rfl, rfl, hc⟩ := List.map_eq_append_iff.mp hl
    obtain ⟨c, c₂', rfl, rfl, rfl⟩ := List.map_eq_cons_iff.mp hc
    obtain ⟨d, hd, rfl⟩ := List.mem_map.mp hy
    exact h c₁ c c₂' rfl (c.short_attempt.mp hx) d hd

end Run

end SendCall

/-- TCP framing survives exactly when no size is cut and nothing is put on the
socket after a write that stopped short. -/
theorem framing_survives_iff [KcpImpl K] (os : Os K T) (fd : ℕ) (calls : List (SendCall T))
    (hopen : (os.socks fd).isSome) (hon : ∀ call ∈ calls, call.On os fd) :
    FramingSurvives os fd calls ↔
      (∀ call ∈ calls, ¬ Wraps 65536 call.msg.length) ∧
      ∀ l₁ x l₂, calls = l₁ ++ x :: l₂ → x.StopsShort → ∀ y ∈ l₂, y.count = 0 := by
  rw [SendCall.framingSurvives_iff_intact hopen hon, SendCall.intact_attempts_iff]

/-- A process with one TCP socket, the descriptor 3. -/
def Os.oneSocket : Os Unit ℕ := ((Process.init 0).world.os.openSock (some 3) none).1

/-- `kcpev_send_tcp` of one byte, of whose frame `k` bytes are written. -/
def SendCall.oneByte (b : UInt8) (k : ℕ) : SendCall ℕ :=
  .kcpevSendTcp { (KcpevBase.zero : KcpevBase ℕ) with
    tcp := { sock := 3, evio := none, rb := none } } [b] { stack := fun _ => 0, send := some k }

theorem SendCall.oneByte_on (b : UInt8) (k : ℕ) : (oneByte b k).On Os.oneSocket 3 :=
  ⟨rfl, fun _ h => by cases h⟩

/-- A write that stops short does no harm when it is the last one. -/
theorem framing_survives_last_short :
    FramingSurvives Os.oneSocket 3 [.oneByte 1 9, .oneByte 2 5] := by
  refine (framing_survives_iff _ _ _ rfl ?_).mpr ⟨?_, ?_⟩
  · simp only [List.forall_mem_cons]
    exact ⟨SendCall.oneByte_on 1 9, SendCall.oneByte_on 2 5, List.forall_mem_nil _⟩
  · simp only [List.forall_mem_cons]
    exact ⟨not_wraps (by decide), not_wraps (by decide), List.forall_mem_nil _⟩
  · intro l₁ x l₂ hl hx
    rcases List.cons_eq_append_iff.mp hl with ⟨-, hxl⟩ | ⟨l, -, hl⟩
    · cases hxl
      exact absurd hx (by decide)
    · rcases List.cons_eq_append_iff.mp hl with ⟨-, hxl⟩ | ⟨l', -, hl'⟩
      · cases hxl
        exact List.forall_mem_nil _
      · simp at hl'

/-- Behind five bytes of one frame, the next call writes its whole frame. -/
theorem frame_behind_partial_frame :
    ¬ FramingSurvives Os.oneSocket 3 [.oneByte 1 5, .oneByte 2 9] := by
  intro h
  have hintact := ((SendCall.framingSurvives_iff_intact rfl (by
    simp only [List.forall_mem_cons]
    exact ⟨SendCall.oneByte_on 1 5, SendCall.oneByte_on 2 9, List.forall_mem_nil _⟩)).mp h).2
  have hquiet := (SendCall.intact_attempts_iff _).mp hintact [] _ _ rfl (by decide) _
    List.mem_cons_self
  exact absurd hquiet (by decide)

end KcpEv
