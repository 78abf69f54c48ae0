import KcpEv.ServerHash
import KcpEv.Streams

/-!
Calls of the callback of the server. A call is made for a registered client,
with the payload of a frame out of its TCP stream or its KCP object, as long as
`on_server_recv` gets no `COMMAND_DATA` frame in a datagram. For such a frame it
makes the call too, with the null pointer if the datagram came from anyone.
-/
namespace KcpEv

open Guarded

variable {K T : Type}

section Effect
variable [KcpImpl K] [ClockImpl T] {p : Process K T} {i : Input T} {w w' : World K T}

omit [KcpImpl K] [ClockImpl T] in
theorem deleteHash_calls {l : List (KcpevKey × ℕ)} (h : w.deleteHash l = .ok w') :
    w'.os.serverCalls = w.os.serverCalls := by
  induction l generalizing w with
  | nil =>
    cases h
    rfl
  | cons e rest ih =>
    obtain ⟨w₁, hdestroy, h⟩ := bind_eq_ok.mp h
    obtain ⟨client, -, hdestroy⟩ := bind_eq_ok.mp hdestroy
    cases hdestroy
    have hstarts : w.os.Starts (fun _ => False) (client.toKcpevBase.destroy w.os) :=
      Os.Starts.destroy _ _
    exact (ih h).trans hstarts.calls

omit [KcpImpl K] [ClockImpl T] in
theorem serverDestroy_calls (h : w.kcpevServerDestroy = .ok w') :
    w'.os.serverCalls = w.os.serverCalls := by
  obtain ⟨server, -, h⟩ := bind_eq_ok.mp h
  obtain ⟨w₁, hdelete, h⟩ := bind_eq_ok.mp h
  cases h
  have hstarts : w.os.Starts (fun _ => False) (server.toKcpevBase.destroy w.os) :=
    Os.Starts.destroy _ _
  exact (deleteHash_calls hdelete).trans hstarts.calls

omit [KcpImpl K] in
theorem tcpAccept_calls {fd : ℕ} {answer : Option AcceptAnswer}
    (h : tcpAccept w fd answer = .ok w') : w'.os.serverCalls = w.os.serverCalls := by
  cases tcpAccept_cases h with
  | nothing => rfl
  | zero => rfl
  | failed ha hadds hserver hborn => exact (hborn.starts.trans (Os.Starts.destroy _ _)).calls
  | added ha hadds hserver hborn hnext hudp hsend =>
    exact (keeps_sockSendCommand hsend).toSame.calls.trans hborn.starts.calls

/-- Only the dispatch of a data frame calls the callback of the server. -/
theorem effect_calls (he : Effect p i w') :
    w'.os.serverCalls = p.world.os.serverCalls ∨ ∃ src buf data, DataFrame p i src buf data ∧
      w'.os.serverCalls = p.world.os.serverCalls ++ [(src.client, data)] := by
  cases he with
  | quiet hquiet => exact Or.inl hquiet.os.calls
  | @data src buf data hdata =>
    refine Or.inr ⟨src, buf, data, hdata, ?_⟩
    simp [Os.serverCalls, Os.emit, Output.serverCall]
  | createClient hi =>
    left
    rcases kcpevCreateClient_cases p.world _ with hw | ⟨os, b, hborn, -, hw | ⟨-, hw⟩⟩
    · rw [hw]
    · rw [hw]
      exact (hborn.starts.trans (Os.Starts.destroy os b)).calls
    · rw [hw]
      exact hborn.starts.calls
  | createServer hi hserver =>
    left
    rcases kcpevCreateServer_cases p.world _ with hw | ⟨os, b, hborn, hw | hw⟩
    · rw [hw]
    · rw [hw]
      exact (hborn.starts.trans (Os.Starts.destroy os b)).calls
    · rw [hw]
      exact hborn.starts.calls
  | serverDestroy hi hctl hw => exact Or.inl (serverDestroy_calls hw)
  | connect hi hobj hclient hconn =>
    exact Or.inl (Os.Starts.kcpevConnect (P := fun _ => False) hconn).calls
  | accept hi hctl he hcb hdata hw => exact Or.inl (tcpAccept_calls hw)
  | close hctl hw =>
    obtain ⟨client, server, -, -, -, rfl⟩ := World.closeClient_cases hw
    exact Or.inl (Os.Starts.destroy (P := fun _ => False) _ _).calls
  | connectSession hframe hfind hconn hquiet =>
    have hstarts := (Os.Starts.connectClientUdp (P := fun _ => True) (fun _ => trivial) hconn).1
    exact Or.inl (hquiet.os.calls.trans hstarts.calls)
  | serverTimers hframe hfind hstatus htimer hquiet =>
    have hstarts := Os.Starts.createTimer (P := fun _ => False) htimer
    exact Or.inl (hquiet.os.calls.trans hstarts.calls)
  | clientTimers hframe hobj hparse hsock hstatus hsend htimer hquiet =>
    have hstarts := Os.Starts.createTimer (P := fun _ => False) htimer
    have hsent := (keeps_sockSendCommand hsend).toSame.calls
    exact Or.inl (hquiet.os.calls.trans (hstarts.calls.trans hsent))

end Effect

section Run
variable [KcpImpl K] [ClockImpl T] {p p' : Process K T} {i : Input T} {now : T}
  {is : List (Input T)}

/-- The states of a run in which its steps start. -/
def visited (now : T) (is : List (Input T)) : List (World K T) :=
  history step (fun p _ => [p.world]) (.init now) is

/-- The message in front of which a callback stands has been taken out of its KCP object, and
the KCP object it drains was one of its client. -/
structure Process.Taken (worlds : List (World K T)) (messages : ℕ → ℕ → List Bytes)
    (p : Process K T) : Prop where
  frame : ∀ {c q addr buf}, p.ctl = .frame (.tryKcpRecv c q) addr buf → buf ∈ messages c q
  kcp : ∀ {c q}, p.ctl.source = some (.tryKcpRecv c q) →
    ∃ w ∈ worlds, ∃ obj, w.objs c = some obj ∧ obj.udp.kcp = some q

theorem Process.Taken.step {worlds : List (World K T)} {messages : ℕ → ℕ → List Bytes}
    (h : p.Taken worlds messages) (hs : step p i = .ok p') :
    p'.Taken (worlds ++ [p.world]) fun c q => messages c q ++ kcpTaken c q p i := by
  obtain ⟨hframe, hkcp⟩ := step_started hs
  constructor
  · intro c q addr buf hctl
    rcases hframe c q addr buf hctl with hold | hnew
    · exact List.mem_append_left _ (h.frame hold)
    · exact List.mem_append_right _ hnew
  · intro c q hsrc
    rcases hkcp c q hsrc with hold | hnew
    · obtain ⟨w, hw, hobj⟩ := h.kcp hold
      exact ⟨w, List.mem_append_left _ hw, hobj⟩
    · exact ⟨p.world, by simp, hnew⟩

theorem run_taken {ok : Process K T → Input T → Prop} (hrun : Run step ok (.init now) is p) :
    p.Taken (visited now is)
      fun c q => history step (kcpTaken c q) (Process.init (K := K) now) is := by
  induction hrun with
  | nil => exact ⟨fun hctl => (by cases hctl), fun hsrc => by cases hsrc⟩
  | snoc hrun _ hs ih =>
    have hnext := ih.step hs
    rw [visited, hrun.history_snoc hs]
    refine ⟨fun {c q addr buf} hctl => ?_, hnext.kcp⟩
    rw [hrun.history_snoc hs]
    exact hnext.frame hctl

variable (now is) in
/-- A frame out of the TCP stream of a client: a piece of what its connection has kept, and
the next frame of what has arrived, as long as nothing was lost. -/
structure OutOfTcp (p : Process K T) (c : ℕ) (buf : Bytes) : Prop where
  kept : buf <:+: history step (tcpKept c) (Process.init (K := K) now) is
  next : Run step (fun p i => p.KeepsData c i) (.init now) is p →
    history step (tcpDispatched c) (Process.init (K := K) now) is ++ [buf] <+:
      (header.split (history step (tcpArrival c) (Process.init (K := K) now) is)).1

variable (K now is) in
/-- A message that `ikcp_recv` has given, on a KCP object the client had. -/
structure OutOfKcp (c q : ℕ) (buf : Bytes) : Prop where
  given : buf ∈ history step (kcpTaken c q) (Process.init (K := K) now) is
  owned : ∃ w ∈ visited (K := K) now is, ∃ obj, w.objs c = some obj ∧ obj.udp.kcp = some q

variable (now is) in
/-- A call that is made as it should be: for a live client with an entry in the hash, with
the payload of a `COMMAND_DATA` frame out of its TCP stream or its KCP object. -/
structure CallsBack (p : Process K T) (c : ℕ) (data : Bytes) : Prop where
  registered : ∃ key obj, (key, c) ∈ p.world.hash ∧ p.world.objs c = some obj ∧
    obj.hasServer = true ∧ obj.key = key
  payload : ∃ src addr buf, p.ctl = .frame src addr buf ∧ Parses buf .data data ∧
    (src = .serverTcpRecv c ∧ OutOfTcp now is p c buf ∨
      ∃ q, src = .tryKcpRecv c q ∧ OutOfKcp K now is c q buf)

/-- The frame of a connection that is dispatched has come over it. -/
theorem run_outOfTcp {ok : Process K T → Input T → Prop} (hrun : Run step ok (.init now) is p)
    {c : ℕ} {buf : Bytes} (hframe : p.ctl.tcpFrame c = some buf)
    (hlive : (p.world.objs c).isSome) : OutOfTcp now is p c buf := by
  refine ⟨(run_holds hrun).frame hframe, fun hkeeps => ?_⟩
  rw [(run_streaming hkeeps).split hlive, hframe]
  exact List.prefix_append _ _

/-- No `COMMAND_DATA` frame in a datagram gets as far as the callback. -/
def Process.NoRawData (p : Process K T) (i : Input T) : Prop :=
  ∀ src buf data, DataFrame p i src buf data →
    src ≠ .serverUdpRecvAll ∧ ∀ c, src ≠ .serverUdpRecv c

/-- In a run without raw data frames, a step calls the callback of the server at
most once, and as it should. -/
theorem run_callsBack (hrun : Run step Process.NoRawData (.init now) is p) (hok : p.NoRawData i)
    (hs : step p i = .ok p') : p'.world.os.serverCalls = p.world.os.serverCalls ∨
      ∃ c data, p'.world.os.serverCalls = p.world.os.serverCalls ++ [(some c, data)] ∧
        CallsBack now is p c data := by
  have hp := run_typed hrun
  have hreg := run_registered hrun
  have htaken := run_taken hrun
  rcases effect_calls (step_effect hp hs) with hnone | ⟨src, buf, data, hdata, hcalls⟩
  · exact Or.inl hnone
  right
  obtain ⟨hall, hraw⟩ := hok src buf data hdata
  obtain ⟨addr, a, hctl, -, -, hserver, hparse, hlive⟩ := hdata
  have called : ∀ {c : ℕ}, src.client = some c →
      (∀ obj, p.world.objs c = some obj → src = .serverTcpRecv c ∧ OutOfTcp now is p c buf ∨
        ∃ q, src = .tryKcpRecv c q ∧ OutOfKcp K now is c q buf) →
      ∃ c data, p'.world.os.serverCalls = p.world.os.serverCalls ++ [(some c, data)] ∧
        CallsBack now is p c data := by
    intro c hclient hout
    obtain ⟨obj, hobj, hsession⟩ := hlive c hclient
    have hkey : p.world.sessionKey c = some obj.key :=
      World.sessionKey_eq_some.mpr ⟨obj, hobj, hsession, rfl⟩
    exact ⟨c, data, by rw [hcalls, hclient],
      ⟨obj.key, obj, hreg.session hkey, hobj, hsession, rfl⟩,
      src, addr, buf, hctl, hparse, hout obj hobj⟩
  rcases src with c | c | c | c | _ | ⟨c, q⟩
  · refine called rfl fun obj hobj => Or.inl ⟨rfl, run_outOfTcp hrun ?_ ?_⟩
    · rw [hctl, Control.tcpFrame, if_pos rfl]
    · rw [hobj]
      rfl
  · cases hserver
  · exact absurd rfl (hraw c)
  · cases hserver
  · exact absurd rfl hall
  · refine called rfl fun obj hobj => Or.inr ⟨q, rfl, htaken.frame hctl, htaken.kcp ?_⟩
    rw [hctl]
    rfl

end Run

/-- No datagram is being dispatched by the server. -/
def Process.NoDatagram (p : Process K T) : Bool :=
  match p.ctl with
  | .frame .serverUdpRecvAll _ _ | .frame (.serverUdpRecv _) _ _ => false
  | _ => true

theorem noRawData_of_noDatagram {p : Process K T} {i : Input T} (h : p.NoDatagram = true) :
    p.NoRawData i := by
  rintro src buf data ⟨addr, a, hctl, -⟩
  unfold Process.NoDatagram at h
  rw [hctl] at h
  constructor
  · rintro rfl
    cases h
  · rintro c rfl
    cases h

/-- Data with four bytes of payload. -/
def sampleData : Bytes := frameBytes Command.data.toByte [0, 0, 0] [1, 2, 3, 4]

/-- An accepted client sends data over TCP, in two parts. -/
def tcpData : List (Input ℕ) :=
  oneAccept ++ [.serverSetCb, .io 4 (.receives (sampleData.take 5) 9), .round (.socket 6),
    .io 4 (.receives (sampleData.drop 5) 9), .round (.socket 6)]

theorem run_callsBack_tcpData : ∃ p p' : Process Unit ℕ,
    Run step Process.NoRawData (.init 0) tcpData p ∧ step p (.round (.socket 6)) = .ok p' ∧
      p'.world.os.serverCalls = [(some 3, [1, 2, 3, 4])] ∧
      CallsBack 0 tcpData p 3 [1, 2, 3, 4] := by
  obtain ⟨p, hrun, htest⟩ := Run.exists_of_exec (step (K := Unit)) (fun p _ => p.NoDatagram = true)
    (.init 0) tcpData (fun p => p.NoDatagram ∧ p.world.os.serverCalls = [] ∧
      (step p (.round (.socket 6))).toOption.any fun p' =>
        p'.world.os.serverCalls = [(some 3, [1, 2, 3, 4])])
    (by decide)
  obtain ⟨hok, hbefore, hcalls⟩ := of_decide_eq_true htest
  have hraw : Run step Process.NoRawData (.init 0) tcpData p :=
    hrun.mono fun h => noRawData_of_noDatagram h
  rcases hs : step p (.round (.socket 6)) with _ | p'
  · rw [hs] at hcalls
    cases hcalls
  rw [hs] at hcalls
  have hafter := of_decide_eq_true hcalls
  refine ⟨p, p', hraw, hs, hafter, ?_⟩
  rcases run_callsBack hraw (noRawData_of_noDatagram hok) hs with hsame | ⟨c, data, hnew, hback⟩
  · rw [hafter, hbefore] at hsame
    cases hsame
  · rw [hafter, hbefore] at hnew
    cases hnew
    exact hback

/-- Anyone sends a data frame to the listening UDP socket. -/
def udpData : List (Input ℕ) :=
  [.createServer (.sockets 3 4), .serverSetCb, .io 2 (.receives sampleData 9)]

/-- The callback gets the null pointer. -/
theorem datagram_calls_back : ∃ p p' : Process Unit ℕ,
    Run step (fun _ _ => True) (.init 0) udpData p ∧ step p (.round (.socket 6)) = .ok p' ∧
      p'.world.os.serverCalls = p.world.os.serverCalls ++ [(none, [1, 2, 3, 4])] := by
  obtain ⟨p, hrun, htest⟩ := Run.exists_of_exec (step (K := Unit)) (fun _ _ => True)
    (.init 0) udpData (fun p => p.world.os.serverCalls = [] ∧
      (step p (.round (.socket 6))).toOption.any fun p' =>
        p'.world.os.serverCalls = [(none, [1, 2, 3, 4])])
    (by decide)
  obtain ⟨hbefore, hcalls⟩ := of_decide_eq_true htest
  rcases hs : step p (.round (.socket 6)) with _ | p'
  · rw [hs] at hcalls
    cases hcalls
  rw [hs] at hcalls
  refine ⟨p, p', hrun, hs, ?_⟩
  rw [hbefore]
  exact of_decide_eq_true hcalls

end KcpEv
