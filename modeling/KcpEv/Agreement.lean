import KcpEv.Validity
import KcpEv.Replay
import KcpEv.TimerKinds
import KcpEv.Lib.Fifo

/-!
The two ends and the use of KCP. A session that gives its KCP object up says so on the
connection, and when the client has read what is on it, it has given up its own. A
client does not say it; its session goes on until its own timer has run out.
-/
namespace KcpEv

open Guarded

variable {K T : Type}

/-- A first message of a handshake for a session that has timers does not fail. -/
def Process.KeepsTimers (p : Process K T) (i : Input T) : Prop :=
  ∀ buf addr a c obj, ServerFrame p i buf addr a → Finds p.world buf .shakeHand1 c obj →
    obj.udp.evt.isSome → a.Succeeds p.world.os

section Act
variable [KcpImpl K] [ClockImpl T] {p p' : Process (Logged K) T} {i : Input T} {c : ℕ}
  {obj obj' : Kcpev T} {t : Traffic}

theorem Act.tcp (h : Act p i c obj obj' t) : obj'.tcp.sock = obj.tcp.sock := by
  cases h with
  | still hstill => exact hstill.tcp
  | confirm _ _ _ _ _ hstill => exact hstill.tcp
  | data hobj => rw [hobj]
  | segments _ hobj => rw [hobj]
  | ask _ _ _ _ hobj => rw [hobj]
  | clientLate _ _ _ hobj => rw [hobj]
  | serverLate _ _ _ _ _ hobj => rw [hobj]
  | reply _ _ _ _ _ _ hobj => rw [hobj]
  | refresh _ _ _ _ _ _ _ _ hobj => rw [hobj]
  | echo _ _ _ _ _ _ _ hobj => rw [hobj]
  | told _ _ _ _ hobj => rw [hobj]
  | keyed _ _ _ _ _ hobj => rw [hobj]
  | ready _ _ _ _ _ _ _ hobj => rw [hobj]
  | cleared _ _ _ _ _ hobj => rw [hobj]
  | connected _ _ _ hconn _ hobj => rw [hobj, hconn.fields]
  | started _ _ _ _ _ hobj => rw [hobj]

theorem Act.evt (h : Act p i c obj obj' t) (hkeeps : p.KeepsTimers i)
    (hevt : obj.udp.evt.isSome) : obj'.udp.evt.isSome := by
  cases h with
  | still hstill => rwa [hstill.evt]
  | confirm _ _ _ _ _ hstill => rwa [hstill.evt]
  | data hobj => rwa [hobj]
  | segments _ hobj => rwa [hobj]
  | ask _ _ _ _ hobj => rwa [hobj]
  | clientLate _ _ _ hobj => rwa [hobj, KcpevUdp.setKcpInvalid_eq]
  | serverLate _ _ _ _ _ hobj => rwa [hobj, KcpevUdp.setKcpInvalid_eq]
  | reply _ _ _ _ _ _ hobj => rwa [hobj]
  | refresh _ _ _ _ _ _ _ _ hobj => rwa [hobj]
  | echo _ _ _ _ _ _ _ hobj => rwa [hobj]
  | told _ _ _ _ hobj => rwa [hobj, KcpevUdp.setKcpInvalid_eq]
  | keyed _ _ _ _ _ hobj =>
    rw [hobj]
    dsimp only
    split
    · exact hevt
    · exact hevt
  | ready _ _ _ _ _ _ _ hobj => rw [hobj]; rfl
  | cleared hframe hsrc hname hfind hfailed =>
    have hsucceeds := hkeeps _ _ _ _ _ ⟨_, hframe.ctl, hframe.input, hsrc, hname⟩ hfind hevt
    obtain ⟨os', client', hconn, -⟩ := connectClientUdp_succeeds hsucceeds c obj _
    rw [hfailed] at hconn
    cases hconn
  | connected _ _ _ hconn _ hobj =>
    rw [hobj, hconn.fields]
    exact hevt
  | started _ _ _ _ _ hobj => rw [hobj]; rfl

/-- The object at an address, if it still lives, has had its timers started. -/
structure Clocked (c : ℕ) (p : Process (Logged K) T) : Prop where
  old : c < p.world.os.next
  evt : ∀ {obj}, p.world.objs c = some obj → obj.udp.evt.isSome

/-- And it does not use its KCP object any more. -/
structure Spent (c : ℕ) (p : Process (Logged K) T) : Prop extends Clocked c p where
  unused : ∀ {obj}, p.world.objs c = some obj → ¬ obj.udp.isKcpValid

theorem Clocked.step (h : Clocked c p) (hp : p.Typed) (hsep : p.world.Separate)
    (hok : p.KeepsTimers i) (hs : step p i = .ok p') : Clocked c p' := by
  have hages := (typed_effect hp.world (step_effect hp hs)).ages
  refine ⟨h.old.trans_le hages.next, fun {obj'} hobj' => ?_⟩
  obtain ⟨obj, hobj, -⟩ := hages.objs h.old hobj'
  exact (step_act hp hsep hs hobj hobj').evt hok (h.evt hobj)

theorem Spent.step (h : Spent c p) (hp : p.Typed) (hsep : p.world.Separate)
    (hok : p.KeepsTimers i) (hs : step p i = .ok p') : Spent c p' := by
  refine ⟨h.toClocked.step hp hsep hok hs, fun {obj'} hobj' hvalid => ?_⟩
  have hages := (typed_effect hp.world (step_effect hp hs)).ages
  obtain ⟨obj, hobj, -⟩ := hages.objs h.old hobj'
  rcases (step_act hp hsep hs hobj hobj').valid hvalid with hold | hready
  · exact h.unused hobj hold
  · have hevt := h.evt hobj
    rw [hready.idle] at hevt
    cases hevt

theorem step_told {src : Source} {addr : Addr} {buf data : Bytes} {a : RecvAnswer}
    (hframe : Dispatches p i src addr buf a)
    (hsrc : src = .serverTcpRecv c ∨ src = .clientTcpRecv c) (hobj : p.world.objs c = some obj)
    (hclient : obj.hasServer = false) (hparse : Parses buf .udpInvalid data)
    (h : step p i = .ok p') (hobj' : p'.world.objs c = some obj') : ¬ obj'.udp.isKcpValid := by
  obtain ⟨hctl, rfl⟩ := hframe
  obtain ⟨⟨w₁, ctl₁⟩, hround, h⟩ := bind_eq_ok.mp h
  cases h
  rw [hctl] at hround
  obtain ⟨⟨w₂, ret⟩, hdispatch, hround⟩ := bind_eq_ok.mp hround
  obtain ⟨ctl₂, hctl₂, hround⟩ := bind_eq_ok.mp hround
  cases hround
  have hget : p.world.kcpev c = .ok obj := World.kcpev_ok.mpr hobj
  rcases hsrc with rfl | rfl
  · obtain ⟨client, hclient₁, hdispatch⟩ := bind_eq_ok.mp hdispatch
    rw [hget, Except.ok.injEq] at hclient₁
    rw [← hclient₁, if_pos (by rw [hclient]; nofun)] at hdispatch
    cases hdispatch
  · have hret : ret = 0 := by
      by_contra hne
      unfold dispatched at hctl₂
      rw [if_neg hne] at hctl₂
      cases hctl₂
    obtain ⟨client, hclient₁, hdispatch⟩ := bind_eq_ok.mp hdispatch
    rw [hget, Except.ok.injEq] at hclient₁
    rw [← hclient₁] at hdispatch
    rw [Parses] at hparse
    simp only [hparse, Command.ofByte_toByte, clientUdpInvalid] at hdispatch
    split at hdispatch
    · rename_i hinvalid
      cases hdispatch
      rw [hobj, Option.some.injEq] at hobj'
      rwa [← hobj']
    split at hdispatch
    · cases hdispatch
      cases hret
    split at hdispatch
    · cases hdispatch
      cases hret
    · cases hdispatch
      simp only [World.store, Function.update_self, Option.some.injEq] at hobj'
      rw [← hobj']
      exact KcpevUdp.not_isKcpValid_setKcpInvalid _

/-- The connections of the sessions are there. -/
structure Process.Seated (p : Process (Logged K) T) : Prop where
  tcp : ∀ {c obj}, p.world.objs c = some obj → obj.hasServer = true → obj.tcp.sock ≠ 0

theorem Process.Seated.step (h : p.Seated) (hp : p.Typed) (hsep : p.world.Separate)
    (hs : step p i = .ok p') : p'.Seated := by
  refine ⟨fun {c obj'} hobj' hsession => ?_⟩
  rcases step_object hp hsep hs hobj' with ⟨-, hbirth⟩ | ⟨obj, hobj, hkind, hact⟩
  · generalize p.world.traffic p'.world c = t at hbirth
    cases hbirth with
    | client hserver =>
      rw [hsession] at hserver
      cases hserver
    | session _ _ hsock => exact hsock
  · rw [hact.tcp]
    exact h.tcp hobj (hkind.symm.trans hsession)

theorem run_seated {ok : Process (Logged K) T → Input T → Prop} {now : T} {is : List (Input T)}
    (hrun : Run step ok (.init now) is p) : p.Seated := by
  have hinv : (p.Typed ∧ p.world.Separate) ∧ p.Seated := by
    refine hrun.invariant (P := fun p => (p.Typed ∧ p.world.Separate) ∧ p.Seated) ?_ ?_
    · refine ⟨⟨Process.typed_init now, separate_init now⟩, ⟨fun {c obj} hobj => ?_⟩⟩
      cases hobj
    · rintro s i s' ⟨⟨hp, hsep⟩, hseated⟩ - hs
      exact ⟨⟨hp.step hs, separate_effect hsep hp.world (step_effect hp hs)⟩,
        hseated.step hp hsep hs⟩
  exact hinv.2

end Act

/-! What is read from the connection, and in which order. -/

/-- The frame a step dispatches from the connection of an object. -/
def Process.hearsTcp (p : Process K T) (i : Input T) (c : ℕ) : Option Bytes :=
  match p.hears i with
  | some (.serverTcpRecv d, buf) | some (.clientTcpRecv d, buf) => if d = c then some buf else none
  | some (.serverUdpRecv _, _) | some (.clientUdpRecv _, _) | some (.serverUdpRecvAll, _)
  | some (.tryKcpRecv .., _) | none => none

theorem hearsTcp_eq_some {p : Process K T} {i : Input T} {c : ℕ} {buf : Bytes}
    (h : p.hearsTcp i c = some buf) : ∃ src addr a, Dispatches p i src addr buf a ∧
      (src = .serverTcpRecv c ∨ src = .clientTcpRecv c) := by
  unfold Process.hearsTcp at h
  split at h
  · rename_i d buf' hhears
    split at h
    · rename_i hd
      cases h
      obtain ⟨addr, a, hframe⟩ := hears_eq_some.mp hhears
      exact ⟨_, addr, a, hframe, Or.inl (by rw [hd])⟩
    · cases h
  · rename_i d buf' hhears
    split at h
    · rename_i hd
      cases h
      obtain ⟨addr, a, hframe⟩ := hears_eq_some.mp hhears
      exact ⟨_, addr, a, hframe, Or.inr (by rw [hd])⟩
    · cases h
  all_goals cases h

section Ends
variable (x : End → ℕ)

def Moment.heard (m : Moment K T) : Option Bytes := m.before.hearsTcp m.input (x m.who)

def Link.heard (l : Link K T) (e : End) : List Bytes :=
  (l.history.filter fun m => m.who = e).filterMap (Moment.heard x)

/-- What is dispatched from a connection next is the next that was put on it. -/
def InOrder (l : Link K T) (i : End × Input T) : Prop :=
  ∀ buf ∈ (l.party i.1).hearsTcp i.2 (x i.1), l.heard x i.1 ++ [buf] <+: l.put x i.1.other

def Link.Drained (l : Link K T) : Prop := ∀ e : End, l.heard x e = l.put x e.other

def Moment.puts (e : End) (m : Moment K T) : List Bytes :=
  if m.who = e then (Moment.traffic x m).tcp else []

def Moment.hears (e : End) (m : Moment K T) : Option Bytes :=
  if m.who = e then Moment.heard x m else none

variable {x}

theorem put_eq (l : Link K T) (e : End) : l.put x e = l.history.flatMap (Moment.puts x e) := by
  unfold Link.put Moment.puts
  induction l.history with
  | nil => rfl
  | cons m h ih =>
    by_cases hm : m.who = e
    · simp [hm, ih]
    · simp [hm, ih]

theorem heard_eq (l : Link K T) (e : End) :
    l.heard x e = l.history.filterMap (Moment.hears x e) := by
  unfold Link.heard Moment.hears
  induction l.history with
  | nil => rfl
  | cons m h ih =>
    by_cases hm : m.who = e
    · simp [hm, ih, List.filterMap_cons]
    · simp [hm, ih]

end Ends

/-- A `send` in a timer of the next step takes the whole buffer. -/
def Input.SendsWhole : Input T → Prop
  | .timer _ a => ∃ k ∈ a.send.send, kcpevBufferSize ≤ k
  | _ => True

/-- The steps of a client and its session whose connection loses nothing and keeps the
order. Nothing is assumed of datagrams or timers. -/
structure Connects (x : End → ℕ) (l : Link K T) (i : End × Input T) : Prop where
  kinds : ∀ obj ∈ (l.party i.1).world.objs (x i.1), obj.hasServer = decide (i.1 = .server)
  peer : FromPeer x l i
  order : InOrder x l i
  sends : i.2.SendsWhole

/-- And the heart of a client that uses its KCP object gets too old only after the session
has given up, and no session loses its timers. -/
structure Agrees [KcpImpl K] [ClockImpl T] (x : End → ℕ) (l : Link K T) (i : End × Input T) :
    Prop extends Connects x l i where
  timers : (l.party i.1).KeepsTimers i.2
  late : ∀ a obj, Ticks (l.party i.1) i.2 (x i.1) .onClientHeartbeatTimer a →
    (l.party i.1).world.objs (x i.1) = some obj → obj.udp.isKcpValid →
      ClockImpl.late (l.party i.1).world.os.now obj.udp.heart = true →
        ∃ m ∈ l.history, m.who = i.1.other ∧ Moment.givesUp x m = true

/-- When both ends have been ready and one of them has given its KCP object up since, and
nothing is left on the connection, the other end does not use its KCP object. -/
def Link.Agreed (x : End → ℕ) (l : Link K T) : Prop :=
  l.Drained x → ∀ {k : ℕ} {m : Moment K T}, l.history[k]? = some m → Moment.givesUp x m = true →
    (∀ e : End, ∃ m₀ ∈ l.history.take k, m₀.who = e ∧ Moment.getsReady x m₀ = true) →
      ∀ obj ∈ (l.party m.who.other).world.objs (x m.who.other), ¬ obj.udp.isKcpValid

section Run
variable [KcpImpl K] [ClockImpl T] {x : End → ℕ} {ok : Link K T → End × Input T → Prop}
  {now : End → T} {is : List (End × Input T)} {l l₀ : Link K T} {history : List (Moment K T)}
  {m : Moment K T} {e : End} {i : Input T}

theorem taken_session (h : Joint.Taken step ok (ends now) history m l) {c : ℕ} {a : TimerAnswer}
    (htick : Ticks m.before m.input c .onServerHeartbeatTimer a) {obj : Kcpev T}
    (hobj : m.before.world.objs c = some obj) : obj.hasServer = true ∧ obj.tcp.sock ≠ 0 := by
  obtain ⟨is, hrun⟩ := h.run
  obtain ⟨js, hjs⟩ := Joint.party_run (Q := fun _ _ => True) (fun _ => trivial) hrun m.who
  rw [← h.before] at hjs
  obtain ⟨q, e, -, he, hcb, hdata⟩ := htick.input
  have hsession := ((run_timersTyped hjs).timer he c hdata).1 hcb
  have hserver := hsession.2 obj hobj
  exact ⟨hserver, (run_seated hjs).tcp hobj hserver⟩

theorem run_fifo (hok : ∀ {l i}, ok l i → InOrder x l i)
    (hrun : Run (Joint.step step) ok (.init (ends now)) is l) (e : End) :
    Fifo (Moment.puts x e.other) (Moment.hears x e) l.history := by
  induction hrun with
  | nil => exact .nil
  | @snoc is l l' i hrun hi hs ih =>
    obtain ⟨-, hhistory⟩ := Joint.step_self hs
    rw [hhistory]
    refine ih.snoc _ fun buf hbuf => ?_
    rw [← put_eq, ← heard_eq]
    unfold Moment.hears at hbuf
    split at hbuf
    · rename_i hwho
      subst hwho
      exact hok hi buf hbuf
    · cases hbuf

/-- What was put on a connection has been dispatched since, when nothing is left on it. -/
theorem heard_later (hok : ∀ {l i}, ok l i → InOrder x l i)
    (hrun : Run (Joint.step step) ok (.init (ends now)) is l) (hdrained : l.Drained x) {k : ℕ}
    (hk : l.history[k]? = some m) (hwho : m.who = e.other) {buf : Bytes}
    (hbuf : buf ∈ (Moment.traffic x m).tcp) : ∃ k' m', k < k' ∧ l.history[k']? = some m' ∧
      m'.who = e ∧ Moment.heard x m' = some buf := by
  obtain ⟨hlt, hm⟩ := List.getElem?_eq_some_iff.mp hk
  have hsplit : l.history = l.history.take k ++ m :: l.history.drop (k + 1) := by
    rw [← hm, List.cons_getElem_drop_succ, List.take_append_drop]
  have hfifo := run_fifo hok hrun e
  have hall := hdrained e
  rw [put_eq, heard_eq] at hall
  rw [hsplit] at hfifo hall
  have hputs : buf ∈ Moment.puts x e.other m := by
    unfold Moment.puts
    rwa [if_pos hwho]
  obtain ⟨m', hm', hhears⟩ := hfifo.received_later hall hputs
  obtain ⟨j, hj⟩ := List.mem_iff_getElem?.mp hm'
  rw [List.getElem?_drop] at hj
  unfold Moment.hears at hhears
  split at hhears
  · rename_i hwho'
    exact ⟨_, m', by omega, hj, hwho', hhears⟩
  · cases hhears

theorem Agrees.keeps (h : Agrees x l (e, i)) : (l.party e).KeepsTimers i := h.timers

theorem clocked_of_ready (hrun : Run (Joint.step step) (Agrees x) (.init (ends now)) is l)
    (hm : m ∈ l.history) (hready : Moment.getsReady x m = true) :
    Clocked (x m.who) (l.party m.who) := by
  obtain ⟨l₀, htaken⟩ := Joint.taken hrun hm
  obtain ⟨hp, hsep⟩ := taken_typed htaken
  refine Joint.kept (P := Clocked (x m.who)) Agrees.keeps hrun (fun hjs h hok hs =>
    h.step (run_typed hjs) (run_separate hjs) hok hs) hm ?_
  obtain ⟨obj, obj', hobj, hobj', hold, hnew⟩ := getsReady_iff.mp hready
  refine ⟨(hp.step htaken.next).world.lt_next hobj', fun {obj₁} hobj₁ => ?_⟩
  rw [hobj', Option.some.injEq] at hobj₁
  rw [← hobj₁]
  exact (step_act hp hsep htaken.next hobj hobj').evt_of_ready hold hnew

theorem spent_later (hrun : Run (Joint.step step) (Agrees x) (.init (ends now)) is l)
    (hm : m ∈ l.history) (h : Spent (x m.who) m.after) : Spent (x m.who) (l.party m.who) :=
  Joint.kept (P := Spent (x m.who)) Agrees.keeps hrun (fun hjs h hok hs =>
    h.step (run_typed hjs) (run_separate hjs) hok hs) hm h

theorem spent_of_givesUp (hrun : Run (Joint.step step) (Agrees x) (.init (ends now)) is l)
    (hm : m ∈ l.history) (hgives : Moment.givesUp x m = true) :
    Spent (x m.who) (l.party m.who) := by
  obtain ⟨l₀, htaken⟩ := Joint.taken hrun hm
  obtain ⟨hp, hsep⟩ := taken_typed htaken
  apply spent_later hrun hm
  obtain ⟨obj, obj', hobj, hobj', hold, hnew⟩ := givesUp_iff.mp hgives
  have hact := step_act hp hsep htaken.next hobj hobj'
  have hkeeps : m.before.KeepsTimers m.input := by
    rw [htaken.before]
    exact htaken.ok.timers
  have same : ∀ {obj₁}, m.after.world.objs (x m.who) = some obj₁ → obj₁ = obj' := by
    intro obj₁ hobj₁
    rw [hobj', Option.some.injEq] at hobj₁
    exact hobj₁.symm
  refine ⟨⟨(hp.step htaken.next).world.lt_next hobj', fun hobj₁ => ?_⟩, fun hobj₁ hvalid => ?_⟩
  · rw [same hobj₁]
    exact hact.evt hkeeps (hact.givesUp hold hnew).valid.2.2.2
  · rw [same hobj₁] at hvalid
    obtain ⟨-, -, hready | hbeat, -⟩ := hvalid
    · rw [hnew] at hready
      cases hready
    · rw [hnew] at hbeat
      cases hbeat

/-- A client that has read a notification after it was ready does not use its KCP object. -/
theorem spent_of_told (hrun : Run (Joint.step step) (Agrees x) (.init (ends now)) is l) {k : ℕ}
    (hk : l.history[k]? = some m) (hwho : m.who = .client) {buf data : Bytes}
    (hheard : Moment.heard x m = some buf) (hparse : Parses buf .udpInvalid data)
    (hready : ∃ m₀ ∈ l.history.take k, m₀.who = .client ∧ Moment.getsReady x m₀ = true) :
    Spent (x m.who) (l.party m.who) := by
  obtain ⟨l₀, htaken, hpast⟩ := Joint.taken_at hrun hk
  obtain ⟨hp, hsep⟩ := taken_typed htaken
  apply spent_later hrun (List.mem_of_getElem? hk)
  obtain ⟨is₀, hrun₀⟩ := htaken.run
  obtain ⟨m₀, hm₀, hwho₀, hready₀⟩ := hready
  have hclocked : Clocked (x m.who) m.before := by
    rw [← hpast] at hm₀
    have h := clocked_of_ready hrun₀ hm₀ hready₀
    rwa [hwho₀, ← hwho, ← htaken.before] at h
  have hkeeps : m.before.KeepsTimers m.input := by
    rw [htaken.before]
    exact htaken.ok.timers
  refine ⟨hclocked.step hp hsep hkeeps htaken.next, fun {obj'} hobj' => ?_⟩
  obtain ⟨obj, hobj, -⟩ :=
    (typed_effect hp.world (step_effect hp htaken.next)).ages.objs hclocked.old hobj'
  have hkind : obj.hasServer = false := by
    have hobj₀ := hobj
    rw [htaken.before] at hobj₀
    have h := htaken.ok.kinds obj hobj₀
    rw [h]
    simp [hwho]
  obtain ⟨src, addr, a, hframe, hsrc⟩ := hearsTcp_eq_some hheard
  exact step_told hframe hsrc hobj hkind hparse htaken.next hobj'

/-- A session that has waited too long says so. -/
theorem notifies (h : Joint.Taken step (Agrees x) (ends now) history m l) {a : TimerAnswer}
    {ret : ℤ} {os : Os (Logged K) T} {bufs : List Bytes} {obj : Kcpev T}
    (hobj : m.before.world.objs (x m.who) = some obj)
    (htick : Ticks m.before m.input (x m.who) .onServerHeartbeatTimer a)
    (hsend : sockSendCommand m.before.world.os obj.tcp.sock .udpInvalid obj.key.val a.send =
      .ok (os, ret))
    (hparts : Parts .udpInvalid obj.key.val ret bufs)
    (htcp : (Moment.traffic x m).tcp = if obj.tcp.sock = 0 then [] else bufs) :
    m.who = .server ∧ ∃ frame, Frame .udpInvalid obj.key.val frame ∧
      frame ∈ (Moment.traffic x m).tcp := by
  obtain ⟨hp, hsep⟩ := taken_typed h
  obtain ⟨hserver, hsock⟩ := taken_session h htick hobj
  have hopen : (m.before.world.os.socks obj.tcp.sock).isSome := hsep.open_sock hobj .tcp hsock
  have hwho : m.who = .server := by
    have hobj₀ := hobj
    rw [h.before] at hobj₀
    have hkind := h.ok.kinds obj hobj₀
    rw [hserver] at hkind
    exact of_decide_eq_true hkind.symm
  refine ⟨hwho, ?_⟩
  obtain ⟨q, e, hinput, -⟩ := htick.input
  have hwhole := h.ok.sends
  dsimp only at hwhole
  rw [hinput] at hwhole
  obtain ⟨k, hk, hle⟩ := hwhole
  have hret : ret = 0 := by
    have hsize := kcpevBufferSize_eq
    have hlen : obj.key.val.length = 16 := obj.key.property
    rw [sockSendCommand_open hopen (by omega)] at hsend
    rw [Option.mem_def] at hk
    rw [hk] at hsend
    simp only [Except.ok.injEq, Prod.mk.injEq] at hsend
    rw [← hsend.2, if_pos (by omega)]
  rw [if_neg hsock] at htcp
  cases hparts with
  | unsent hfailed =>
    rw [hret] at hfailed
    cases hfailed
  | part _ _ hfailed =>
    rw [hret] at hfailed
    cases hfailed
  | whole hframe =>
    refine ⟨_, hframe, ?_⟩
    rw [htcp]
    exact List.mem_singleton.mpr rfl

end Run

/-! The timer of the session runs out, and the timer of the client. -/

instance (i : Input T) : Decidable i.SendsWhole :=
  match i with
  | .timer _ a => inferInstanceAs (Decidable (∃ k ∈ a.send.send, kcpevBufferSize ≤ k))
  | .createClient _ | .createServer _ | .serverDestroy | .setCb _ | .serverSetCb | .connect ..
  | .send .. | .sendTcp .. | .now _ | .io .. | .round _ => inferInstanceAs (Decidable True)

instance (x : End → ℕ) (l : Link K T) (i : End × Input T) : Decidable (Connects x l i) :=
  decidable_of_iff ((∀ obj ∈ (l.party i.1).world.objs (x i.1),
      obj.hasServer = decide (i.1 = .server)) ∧ FromPeer x l i ∧
        (∀ buf ∈ (l.party i.1).hearsTcp i.2 (x i.1), l.heard x i.1 ++ [buf] <+: l.put x i.1.other) ∧
          i.2.SendsWhole)
    ⟨fun ⟨hkinds, hpeer, horder, hsends⟩ => ⟨hkinds, hpeer, horder, hsends⟩,
      fun h => ⟨h.kinds, h.peer, h.order, h.sends⟩⟩

/-- A step that runs no heartbeat timer of a client before the other end has given up, and
dispatches no frame when a session has timers. -/
def Link.Undisturbed (x : End → ℕ) (l : Link K T) (i : End × Input T) : Bool :=
  let p := l.party i.1
  match i.2 with
  | .timer q _ => (p.world.os.timers q).all (fun e => e.cb ≠ .onClientHeartbeatTimer) ||
      l.history.any fun m => m.who = i.1.other && Moment.givesUp x m
  | .round _ => (p.hears i.2).all fun _ =>
      p.world.hash.all fun e => (p.world.objs e.2).all fun obj => obj.udp.evt.isNone
  | _ => true

theorem keepsTimers_of_undisturbed {x : End → ℕ} {l : Link K T} {e : End} {i : Input T}
    (h : l.Undisturbed x (e, i) = true) : (l.party e).KeepsTimers i := by
  rintro buf addr a c obj ⟨src, hctl, rfl, -, -⟩ ⟨server, key, -, hserver, hfind, hobj⟩ hevt
  have hhears : (l.party e).hears (.round a) = some (src, buf) :=
    hears_eq_some.mpr ⟨addr, a, hctl, rfl⟩
  have hmem : (key, c) ∈ (l.party e).world.hash := by
    rw [World.hash_some hserver]
    exact KcpevServer.hashFind_mem hfind
  simp only [Link.Undisturbed, hhears, Option.all_some, List.all_eq_true] at h
  have hnone := h _ hmem
  rw [hobj, Option.all_some, Option.isNone_iff_eq_none] at hnone
  rw [hnone] at hevt
  cases hevt

theorem late_of_undisturbed {x : End → ℕ} {l : Link K T} {e : End} {i : Input T}
    (h : l.Undisturbed x (e, i) = true) {c : ℕ} {a : TimerAnswer}
    (htick : Ticks (l.party e) i c .onClientHeartbeatTimer a) :
    ∃ m ∈ l.history, m.who = e.other ∧ Moment.givesUp x m = true := by
  obtain ⟨-, q, t, rfl, ht, hcb, -⟩ := htick
  simpa [Link.Undisturbed, ht, hcb] using h

theorem Connects.agrees [KcpImpl K] [ClockImpl T] {x : End → ℕ} {l : Link K T}
    {i : End × Input T} (h : Connects x l i) (hstep : l.Undisturbed x i = true) :
    Agrees x l i :=
  { h with
    timers := keepsTimers_of_undisturbed hstep
    late := fun _ _ htick _ _ _ => late_of_undisturbed hstep htick }

def notice : Bytes := frameBytes Command.udpInvalid.toByte [0, 0, 0] sampleKey.val

/-- The session gives its KCP object up, then the client does, and then it reads that the
session did. -/
def sessionLate : List (End × Input ℕ) :=
  bothReady ++ [(.server, .now 40), (.client, .now 40), (.server, .timer 8 .whole),
    (.client, .timer 6 .whole), (.client, .io 3 (.receives notice 9)),
    (.client, .round (.socket 0))]

/-- The client gives its KCP object up. -/
def clientLate : List (End × Input ℕ) :=
  bothReady ++ [(.server, .now 40), (.client, .now 40), (.client, .timer 6 .whole)]

/-- What the examples test in the end. -/
def Link.SampleDrained (l : Link Mailbox ℕ) : Prop :=
  ∀ e ∈ [End.server, End.client], l.heard sampleEnds e = l.put sampleEnds e.other

instance (l : Link Mailbox ℕ) : Decidable l.SampleDrained :=
  inferInstanceAs (Decidable (∀ e ∈ _, _))

theorem Link.SampleDrained.drained {l : Link Mailbox ℕ} (h : l.SampleDrained) :
    l.Drained sampleEnds := by
  intro e
  cases e with
  | server => exact h .server (by simp)
  | client => exact h .client (by simp)

end KcpEv
