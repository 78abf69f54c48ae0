import KcpEv.Heartbeat

/-!
The use of KCP. An object starts to use its KCP object at the end of a handshake, when
its heart is the time, and it gives it up when its heart is too old, or when the other
end says so.
-/
namespace KcpEv

open Guarded

variable {K T : Type}

section Act
variable [KcpImpl K] [ClockImpl T] {p p' : Process (Logged K) T} {i : Input T} {c : ℕ}
  {obj obj' : Kcpev T} {t : Traffic} {src : Source} {addr : Addr} {buf data : Bytes}
  {a : RecvAnswer}

/-- The end of a handshake: the object gets ready, and its heart is the time. -/
structure GetsReady (p : Process (Logged K) T) (i : Input T) (obj obj' : Kcpev T) : Prop where
  frame : ∃ src addr buf a, Dispatches p i src addr buf a
  before : obj.udp.status = .shakingHand
  idle : obj.udp.evt = none
  after : obj'.udp.status = .ready
  heart : obj'.udp.heart = p.world.os.now

/-- The KCP object of an object comes into use only at the end of a handshake. -/
theorem Act.valid (h : Act p i c obj obj' t) (hvalid : obj'.udp.isKcpValid) :
    obj.udp.isKcpValid ∨ GetsReady p i obj obj' := by
  cases h with
  | still hstill =>
    obtain ⟨hsock, hkcp, hstatus, hevt⟩ := hvalid
    rw [hstill.kcp] at hkcp
    rw [hstill.status] at hstatus
    rw [hstill.evt] at hevt
    rcases hstill.sock with hsame | ⟨-, hzero⟩
    · rw [hsame] at hsock
      exact Or.inl ⟨hsock, hkcp, hstatus, hevt⟩
    · exact absurd hzero hsock
  | data hobj =>
    rw [hobj] at hvalid
    exact Or.inl hvalid
  | segments _ hobj =>
    rw [hobj] at hvalid
    exact Or.inl hvalid
  | ask _ hold => exact Or.inl hold
  | clientLate _ hold => exact Or.inl hold
  | serverLate _ hold => exact Or.inl hold
  | reply _ _ _ hold => exact Or.inl hold
  | refresh _ _ _ hold => exact Or.inl hold
  | echo _ _ hold => exact Or.inl hold
  | told _ _ hold => exact Or.inl hold
  | keyed _ _ _ _ _ hobj =>
    rw [hobj] at hvalid
    dsimp only at hvalid
    split at hvalid
    · obtain ⟨-, -, hstatus | hstatus, -⟩ := hvalid
      · cases hstatus
      · cases hstatus
    · exact Or.inl hvalid
  | confirm _ _ _ hstatus _ hstill =>
    obtain ⟨-, -, hready, -⟩ := hvalid
    rw [hstill.status, hstatus] at hready
    rcases hready with hready | hready
    · cases hready
    · cases hready
  | ready hframe _ _ _ hstatus hevt _ hobj =>
    refine Or.inr ⟨⟨_, _, _, _, hframe⟩, hstatus, hevt, ?_, ?_⟩
    · rw [hobj]
    · rw [hobj]
      rfl
  | cleared _ _ _ _ _ hobj =>
    rw [hobj] at hvalid
    exact absurd rfl hvalid.1
  | connected _ _ _ _ _ hobj =>
    rw [hobj] at hvalid
    obtain ⟨-, -, hstatus | hstatus, -⟩ := hvalid
    · cases hstatus
    · cases hstatus
  | started hframe _ _ hstatus hevt hobj =>
    refine Or.inr ⟨⟨_, _, _, _, hframe⟩, hstatus, hevt, ?_, ?_⟩
    · rw [hobj]
    · rw [hobj]
      rfl

/-- An object that gets ready has its timers. -/
theorem Act.evt_of_ready (h : Act p i c obj obj' t) (hold : obj.udp.status ≠ .ready)
    (hnew : obj'.udp.status = .ready) : obj'.udp.evt.isSome := by
  cases h with
  | still hstill => exact absurd (hstill.status.symm.trans hnew) hold
  | confirm _ _ _ _ _ hstill => exact absurd (hstill.status.symm.trans hnew) hold
  | data hobj =>
    rw [hobj] at hnew
    exact absurd hnew hold
  | segments _ hobj =>
    rw [hobj] at hnew
    exact absurd hnew hold
  | ask _ _ _ _ hobj =>
    rw [hobj] at hnew
    exact absurd hnew hold
  | clientLate _ _ _ hobj =>
    rw [hobj, KcpevUdp.setKcpInvalid_eq] at hnew
    cases hnew
  | serverLate _ _ _ _ _ hobj =>
    rw [hobj, KcpevUdp.setKcpInvalid_eq] at hnew
    cases hnew
  | reply _ _ _ _ _ _ hobj =>
    rw [hobj] at hnew
    exact absurd hnew hold
  | refresh _ _ _ _ _ _ _ _ hobj =>
    rw [hobj] at hnew
    exact absurd hnew hold
  | echo _ _ _ _ _ _ _ hobj =>
    rw [hobj] at hnew
    exact absurd hnew hold
  | told _ _ _ _ hobj =>
    rw [hobj, KcpevUdp.setKcpInvalid_eq] at hnew
    cases hnew
  | keyed _ _ _ _ _ hobj =>
    rw [hobj] at hnew
    dsimp only at hnew
    split at hnew
    · cases hnew
    · exact absurd hnew hold
  | ready _ _ _ _ _ _ _ hobj => rw [hobj]; rfl
  | cleared _ _ _ _ _ hobj =>
    rw [hobj] at hnew
    exact absurd hnew hold
  | connected _ _ _ _ _ hobj =>
    rw [hobj] at hnew
    cases hnew
  | started _ _ _ _ _ hobj => rw [hobj]; rfl

omit [KcpImpl K] in
theorem Birth.not_valid (h : Birth obj t) : ¬ obj.udp.isKcpValid := by
  rintro ⟨-, -, hstatus, hevt⟩
  cases h with
  | client _ _ hnone =>
    rw [hnone] at hevt
    cases hevt
  | session _ hudp =>
    rw [hudp] at hevt
    cases hevt

/-- Why an object gives its KCP object up: its heart is too old, or it is told to. A
session that gives it up says so. -/
inductive GivesUp (p : Process (Logged K) T) (i : Input T) (c : ℕ) (obj : Kcpev T)
    (t : Traffic) : Prop
  | clientLate {a : TimerAnswer} (htick : Ticks p i c .onClientHeartbeatTimer a)
    (hvalid : obj.udp.isKcpValid)
    (hlate : ClockImpl.late p.world.os.now obj.udp.heart = true) : GivesUp p i c obj t
  | serverLate {a : TimerAnswer} {ret : ℤ} {os : Os (Logged K) T} {bufs : List Bytes}
    (htick : Ticks p i c .onServerHeartbeatTimer a) (hvalid : obj.udp.isKcpValid)
    (hlate : ClockImpl.late p.world.os.now obj.udp.heart = true)
    (hsend : sockSendCommand p.world.os obj.tcp.sock .udpInvalid obj.key.val a.send =
      .ok (os, ret))
    (hparts : Parts .udpInvalid obj.key.val ret bufs)
    (htcp : t.tcp = if obj.tcp.sock = 0 then [] else bufs) : GivesUp p i c obj t
  | told {src : Source} {addr : Addr} {buf : Bytes} {a : RecvAnswer}
    (hframe : Dispatches p i src addr buf a) (hsrc : src.ToClient p.world c)
    (hvalid : obj.udp.isKcpValid) (hparse : Parses buf .udpInvalid obj.key.val) :
    GivesUp p i c obj t

omit [KcpImpl K] in
theorem GivesUp.valid (h : GivesUp p i c obj t) : obj.udp.isKcpValid := by
  cases h with
  | clientLate _ hvalid => exact hvalid
  | serverLate _ hvalid => exact hvalid
  | told _ _ hvalid => exact hvalid

theorem Act.givesUp (h : Act p i c obj obj' t) (hold : obj.udp.status ≠ .invalid)
    (hnew : obj'.udp.status = .invalid) : GivesUp p i c obj t := by
  cases h with
  | still hstill => exact absurd (hstill.status.symm.trans hnew) hold
  | data hobj =>
    rw [hobj] at hnew
    exact absurd hnew hold
  | segments _ hobj =>
    rw [hobj] at hnew
    exact absurd hnew hold
  | ask _ _ _ _ hobj =>
    rw [hobj] at hnew
    exact absurd hnew hold
  | clientLate htick hvalid hlate => exact .clientLate htick hvalid hlate
  | serverLate htick hvalid hlate hsend hparts =>
    exact .serverLate htick hvalid hlate hsend hparts rfl
  | reply _ _ _ _ _ _ hobj =>
    rw [hobj] at hnew
    exact absurd hnew hold
  | refresh _ _ _ _ _ _ _ _ hobj =>
    rw [hobj] at hnew
    exact absurd hnew hold
  | echo _ _ _ _ _ _ _ hobj =>
    rw [hobj] at hnew
    exact absurd hnew hold
  | told hframe hsrc hvalid hparse => exact .told hframe hsrc hvalid hparse
  | keyed _ _ _ _ _ hobj =>
    rw [hobj] at hnew
    dsimp only at hnew
    split at hnew
    · cases hnew
    · exact absurd hnew hold
  | confirm _ _ _ _ _ hstill => exact absurd (hstill.status.symm.trans hnew) hold
  | ready _ _ _ _ _ _ _ hobj =>
    rw [hobj] at hnew
    cases hnew
  | cleared _ _ _ _ _ hobj =>
    rw [hobj] at hnew
    exact absurd hnew hold
  | connected _ _ _ _ _ hobj =>
    rw [hobj] at hnew
    cases hnew
  | started _ _ _ _ _ hobj =>
    rw [hobj] at hnew
    cases hnew

/-- A notification is sent by an end that gives its KCP object up. -/
theorem Act.notifies (h : Act p i c obj obj' t) (hbuf : buf ∈ t.tcp)
    (hparse : Parses buf .udpInvalid data) :
    obj.udp.status ≠ .invalid ∧ obj'.udp.status = .invalid := by
  cases h with
  | data _ _ htcp =>
    obtain ⟨msg, frame, k, hframe, rfl⟩ := htcp buf hbuf
    have hcommand := (hframe.parses_take hparse).1
    cases hcommand
  | serverLate _ hvalid _ _ _ hobj =>
    refine ⟨fun hstatus => ?_, ?_⟩
    · obtain ⟨-, -, hready | hready, -⟩ := hvalid
      · rw [hstatus] at hready
        cases hready
      · rw [hstatus] at hready
        cases hready
    · rw [hobj, KcpevUdp.setKcpInvalid_eq]
  | still | segments | ask | clientLate | reply | refresh | echo | told | keyed | confirm | ready
  | cleared | connected | started => cases hbuf

/-- The client that echoes an answer has a young heart. -/
theorem Act.echoes (h : Act p i c obj obj' t) {frame : Bytes} (hframe : frame ∈ t.kcp)
    (hparse : Parses frame .heartbeat2 data) : obj'.udp.heart = p.world.os.now := by
  cases h with
  | data _ hkcp =>
    obtain ⟨msg, hdata⟩ := hkcp frame hframe
    have hcommand := (hdata.parses.unique hparse).1
    cases hcommand
  | ask _ _ _ hask =>
    rw [List.mem_singleton.mp hframe] at hparse
    have hcommand := (hask.parses.unique hparse).1
    cases hcommand
  | reply _ _ _ _ _ hreply =>
    rw [List.mem_singleton.mp hframe] at hparse
    have hcommand := (hreply.parses.unique hparse).1
    cases hcommand
  | echo _ _ _ _ _ _ _ hobj => rw [hobj]
  | still | segments | clientLate | serverLate | refresh | told | keyed | confirm | ready
  | cleared | connected | started => cases hframe

theorem Act.key (h : Act p i c obj obj' t) (hp : p.Typed) (hobj₀ : p.world.objs c = some obj)
    (hserver : obj.hasServer = true) : obj'.key = obj.key := by
  cases h with
  | still hstill => exact hstill.key
  | confirm _ _ _ _ _ hstill => exact hstill.key
  | data hobj => rw [hobj]
  | segments _ hobj => rw [hobj]
  | ask _ _ _ _ hobj => rw [hobj]
  | clientLate _ _ _ hobj => rw [hobj]
  | serverLate _ _ _ _ _ hobj => rw [hobj]
  | reply _ _ _ _ _ _ hobj => rw [hobj]
  | refresh _ _ _ _ _ _ _ _ hobj => rw [hobj]
  | echo _ _ _ _ _ _ _ hobj => rw [hobj]
  | told _ _ _ _ hobj => rw [hobj]
  | keyed hframe hsrc =>
    have hclient : ClientFrame p i c _ _ := ⟨_, _, hframe.ctl, hframe.input, hsrc⟩
    have hnone := hclient.client hp hobj₀
    rw [hserver] at hnone
    cases hnone
  | ready _ _ _ _ _ _ _ hobj => rw [hobj]
  | cleared _ _ _ _ _ hobj => rw [hobj]
  | connected _ _ _ hconn _ hobj => rw [hobj, hconn.fields]
  | started _ _ _ _ _ hobj => rw [hobj]

/-- A session that processes the echo of an answer with its heart has a young heart. -/
theorem step_echo {q : ℕ} (hframe : Dispatches p i (.tryKcpRecv c q) addr buf a)
    (hname : a.getnameinfo = true) (hobj : p.world.objs c = some obj)
    (hserver : obj.hasServer = true) (hvalid : obj.udp.isKcpValid)
    (hparse : Parses buf .heartbeat2 (obj.key.val ++ htobe64 (ClockImpl.bits obj.udp.heart)))
    (h : step p i = .ok p') (hobj' : p'.world.objs c = some obj') :
    obj'.udp.heart = p.world.os.now := by
  obtain ⟨hctl, rfl⟩ := hframe
  obtain ⟨⟨w₁, ctl₁⟩, hround, h⟩ := bind_eq_ok.mp h
  cases h
  rw [hctl] at hround
  obtain ⟨⟨w₂, ret⟩, hdispatch, hround⟩ := bind_eq_ok.mp hround
  obtain ⟨ctl₂, -, hround⟩ := bind_eq_ok.mp hround
  cases hround
  have hclient : p.world.kcpev c = .ok obj := World.kcpev_ok.mpr hobj
  have hlen : (obj.key.val ++ htobe64 (ClockImpl.bits obj.udp.heart)).length = heartbeatSize := by
    rw [List.length_append, obj.key.property]
    rfl
  have hrecv : onServerRecv p.world (some c) buf addr a = .ok (w₁, ret) := by
    obtain ⟨client, hclient₁, hdispatch⟩ := bind_eq_ok.mp hdispatch
    rw [hclient, Except.ok.injEq] at hclient₁
    rw [← hclient₁, if_pos hserver] at hdispatch
    obtain ⟨client₂, hclient₂, hdispatch⟩ := bind_eq_ok.mp hdispatch
    rw [hclient, Except.ok.injEq] at hclient₂
    rw [← hclient₂, if_neg (not_not.mpr hserver)] at hdispatch
    exact hdispatch
  rw [Parses] at hparse
  simp only [onServerRecv, hparse, hname, not_true_eq_false, if_false, Command.ofByte_toByte]
    at hrecv
  obtain ⟨client, hclient₁, hbeat⟩ := bind_eq_ok.mp hrecv
  rw [hclient, Except.ok.injEq] at hclient₁
  rw [← hclient₁, if_neg (not_not.mpr hvalid), if_neg (not_not.mpr hlen),
    List.take_left' obj.key.property, if_neg (not_not.mpr rfl), token_answer,
    if_neg (not_not.mpr rfl)] at hbeat
  cases hbeat
  simp only [World.store, Function.update_self, Option.some.injEq] at hobj'
  rw [← hobj']

end Act

/-! Giving KCP up, on a connection. -/

/-- An end executes `set_kcp_invalid`. -/
def Moment.givesUp (x : End → ℕ) (m : Moment K T) : Bool :=
  match m.before.world.objs (x m.who), m.after.world.objs (x m.who) with
  | some obj, some obj' => obj.udp.status ≠ .invalid && obj'.udp.status = .invalid
  | _, _ => false

theorem givesUp_iff {x : End → ℕ} {m : Moment K T} : Moment.givesUp x m = true ↔
    ∃ obj obj', m.before.world.objs (x m.who) = some obj ∧
      m.after.world.objs (x m.who) = some obj' ∧ obj.udp.status ≠ .invalid ∧
        obj'.udp.status = .invalid := by
  unfold Moment.givesUp
  rcases m.before.world.objs (x m.who) with _ | obj
  · simp
  rcases m.after.world.objs (x m.who) with _ | obj'
  · simp
  · simp

def Moment.getsReady (x : End → ℕ) (m : Moment K T) : Bool :=
  match m.before.world.objs (x m.who), m.after.world.objs (x m.who) with
  | some obj, some obj' => obj.udp.status ≠ .ready && obj'.udp.status = .ready
  | _, _ => false

theorem getsReady_iff {x : End → ℕ} {m : Moment K T} : Moment.getsReady x m = true ↔
    ∃ obj obj', m.before.world.objs (x m.who) = some obj ∧
      m.after.world.objs (x m.who) = some obj' ∧ obj.udp.status ≠ .ready ∧
        obj'.udp.status = .ready := by
  unfold Moment.getsReady
  rcases m.before.world.objs (x m.who) with _ | obj
  · simp
  rcases m.after.world.objs (x m.who) with _ | obj'
  · simp
  · simp

section Run
variable [KcpImpl K] [ClockImpl T] {x : End → ℕ} {ok : Link K T → End × Input T → Prop}
  {now : End → T} {is : List (End × Input T)} {l : Link K T} {history : List (Moment K T)}
  {m : Moment K T} {e : End} {i : Input T}

theorem taken_givesUp (h : Joint.Taken step ok (ends now) history m l)
    (hgives : Moment.givesUp x m = true) : ∃ obj, m.before.world.objs (x m.who) = some obj ∧
      GivesUp m.before m.input (x m.who) obj (Moment.traffic x m) := by
  obtain ⟨hp, hsep⟩ := taken_typed h
  obtain ⟨obj, obj', hobj, hobj', hold, hnew⟩ := givesUp_iff.mp hgives
  exact ⟨obj, hobj, (step_act hp hsep h.next hobj hobj').givesUp hold hnew⟩

/-- A notification on the connection was put there by an end that gave its KCP object up. -/
theorem put_notifies (hrun : Run (Joint.step step) ok (.init (ends now)) is l) {buf data : Bytes}
    (hbuf : buf ∈ l.put x e) (hparse : Parses buf .udpInvalid data) :
    ∃ m ∈ l.history, m.who = e ∧ Moment.givesUp x m = true := by
  obtain ⟨m, hm, hwho, hput⟩ := (mem_put x).mp hbuf
  obtain ⟨l₀, htaken⟩ := Joint.taken hrun hm
  obtain ⟨hp, hsep⟩ := taken_typed htaken
  refine ⟨m, hm, hwho, givesUp_iff.mpr ?_⟩
  rcases hobj' : m.after.world.objs (x m.who) with _ | obj'
  · simp [Moment.traffic, World.traffic, hobj', Traffic.none] at hput
  rcases step_object hp hsep htaken.next hobj' with ⟨-, hbirth⟩ | ⟨obj, hobj, -, hact⟩
  · have hcommand := ((hbirth.tcp hput).2.parses.unique hparse).1
    cases hcommand
  · obtain ⟨hold, hnew⟩ := hact.notifies hput hparse
    exact ⟨obj, obj', hobj, rfl, hold, hnew⟩

/-- An end that is told to give its KCP object up is told by the other end. -/
theorem told_notified (hrun : Run (Joint.step step) ok (.init (ends now)) is l)
    (hpeer : FromPeer x l (e, i)) {src : Source} {addr : Addr} {buf data : Bytes}
    {a : RecvAnswer} {obj : Kcpev T} (hframe : Dispatches (l.party e) i src addr buf a)
    (hsrc : src.ToClient (l.party e).world (x e))
    (hobj : (l.party e).world.objs (x e) = some obj) (hvalid : obj.udp.isKcpValid)
    (hparse : Parses buf .udpInvalid data) :
    ∃ m ∈ l.history, m.who = e.other ∧ Moment.givesUp x m = true := by
  rcases client_source hrun hpeer hframe hsrc hobj hvalid with hput | hgave
  · exact put_notifies hrun hput hparse
  · rcases gave_command hrun hgave hparse with hc | hc | hc
    · cases hc
    · cases hc
    · cases hc

end Run

end KcpEv
