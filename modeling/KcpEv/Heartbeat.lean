import KcpEv.Clock
import KcpEv.Link
import Mathlib.Order.Fin.Basic

/-!
The heartbeat of a session. The answer of the server carries the bits of its heart,
and what the client sends back is taken only while the heart is still the same. So a
heart is refreshed only by the echo of an answer that was sent since the last time,
and no echo refreshes it twice.
-/
namespace KcpEv

open Guarded

variable {K T : Type}

/-! What a step does to the heart of an object. -/

section Act
variable [KcpImpl K] [ClockImpl T] {p p' : Process (Logged K) T} {i : Input T} {c : ℕ}
  {obj obj' : Kcpev T} {t : Traffic} {src : Source} {addr : Addr} {buf data : Bytes}
  {a : RecvAnswer}

/-- What brings a heart up to date: the echo of an answer, the answer itself, or the
end of the handshake. -/
inductive Beats (p : Process (Logged K) T) (i : Input T) (c : ℕ) (obj : Kcpev T) : Prop
  | refresh {src : Source} {addr : Addr} {buf data : Bytes} {a : RecvAnswer}
    (hframe : Dispatches p i src addr buf a) (hsrc : src.ToSession c)
    (hserver : obj.hasServer = true) (hvalid : obj.udp.isKcpValid)
    (hparse : Parses buf .heartbeat2 data) (hlen : data.length = heartbeatSize)
    (htoken : be64toh (data.drop 16) = ClockImpl.bits obj.udp.heart) : Beats p i c obj
  | echo {src : Source} {addr : Addr} {buf data : Bytes} {a : RecvAnswer}
    (hframe : Dispatches p i src addr buf a) (hparse : Parses buf .heartbeat1 data) :
    Beats p i c obj
  | shakeHand2 {src : Source} {addr : Addr} {buf data : Bytes} {a : RecvAnswer}
    (hframe : Dispatches p i src addr buf a) (hparse : Parses buf .shakeHand2 data) :
    Beats p i c obj

theorem Act.beats (h : Act p i c obj obj' t) : obj'.udp.heart = obj.udp.heart ∨
    (obj'.udp.heart = p.world.os.now ∧ Beats p i c obj) := by
  cases h with
  | still hstill => exact Or.inl hstill.heart
  | data hobj => exact Or.inl (by rw [hobj])
  | segments _ hobj => exact Or.inl (by rw [hobj])
  | ask _ _ _ _ hobj => exact Or.inl (by rw [hobj])
  | clientLate _ _ _ hobj =>
    rw [hobj, KcpevUdp.setKcpInvalid_eq]
    exact Or.inl rfl
  | serverLate _ _ _ _ _ hobj =>
    rw [hobj, KcpevUdp.setKcpInvalid_eq]
    exact Or.inl rfl
  | reply _ _ _ _ _ _ hobj => exact Or.inl (by rw [hobj])
  | refresh hframe hsrc hserver hvalid hparse hlen _ htoken hobj =>
    refine Or.inr ⟨?_, .refresh hframe hsrc hserver hvalid hparse hlen htoken⟩
    rw [hobj]
  | echo hframe _ _ hparse _ _ _ hobj =>
    refine Or.inr ⟨?_, .echo hframe hparse⟩
    rw [hobj]
  | told _ _ _ _ hobj =>
    rw [hobj, KcpevUdp.setKcpInvalid_eq]
    exact Or.inl rfl
  | keyed _ _ _ _ _ hobj =>
    rw [hobj]
    dsimp only
    split
    · exact Or.inl rfl
    · exact Or.inl rfl
  | confirm _ _ _ _ _ hstill => exact Or.inl hstill.heart
  | ready hframe _ hparse _ _ _ _ hobj =>
    refine Or.inr ⟨?_, .shakeHand2 hframe hparse⟩
    rw [hobj]
    rfl
  | cleared _ _ _ _ _ hobj =>
    rw [hobj]
    exact Or.inl rfl
  | connected _ _ _ hconn _ hobj =>
    rw [hobj, hconn.fields]
    exact Or.inl rfl
  | started hframe _ hfind _ _ hobj =>
    obtain ⟨server, key, hparse, -⟩ := hfind
    refine Or.inr ⟨?_, .shakeHand2 hframe hparse⟩
    rw [hobj]
    rfl

omit [KcpImpl K] in
theorem Beats.dispatches (h : Beats p i c obj) :
    ∃ src addr buf a, Dispatches p i src addr buf a := by
  cases h with
  | refresh hframe => exact ⟨_, _, _, _, hframe⟩
  | echo hframe => exact ⟨_, _, _, _, hframe⟩
  | shakeHand2 hframe => exact ⟨_, _, _, _, hframe⟩

/-- A heart stays where it is, or becomes the time. -/
theorem Act.heart (h : Act p i c obj obj' t) :
    obj'.udp.heart = obj.udp.heart ∨ obj'.udp.heart = p.world.os.now := by
  rcases h.beats with hsame | ⟨hnow, -⟩
  · exact Or.inl hsame
  · exact Or.inr hnow

omit [KcpImpl K] [ClockImpl T] in
theorem Dispatches.unique {src' : Source} {addr' : Addr} {buf' : Bytes} {a' : RecvAnswer}
    (h : Dispatches p i src addr buf a) (h' : Dispatches p i src' addr' buf' a') :
    src' = src ∧ buf' = buf := by
  have hctl := h'.ctl
  rw [h.ctl] at hctl
  cases hctl
  exact ⟨rfl, rfl⟩

/-- An echo that moves a heart is for a session with this heart. -/
theorem Act.refreshes (h : Act p i c obj obj' t) (hframe : Dispatches p i src addr buf a)
    (hparse : Parses buf .heartbeat2 data) (hne : obj'.udp.heart ≠ obj.udp.heart) :
    src.ToSession c ∧ obj.hasServer = true ∧ obj.udp.isKcpValid ∧
      be64toh (data.drop 16) = ClockImpl.bits obj.udp.heart := by
  rcases h.beats with hsame | ⟨-, hbeats⟩
  · exact absurd hsame hne
  cases hbeats with
  | refresh hframe' hsrc hserver hvalid hparse' _ htoken =>
    obtain ⟨rfl, rfl⟩ := hframe.unique hframe'
    obtain ⟨-, rfl⟩ := hparse.unique hparse'
    exact ⟨hsrc, hserver, hvalid, htoken⟩
  | echo hframe' hparse' =>
    obtain ⟨rfl, rfl⟩ := hframe.unique hframe'
    have hcommand := (hparse.unique hparse').1
    cases hcommand
  | shakeHand2 hframe' hparse' =>
    obtain ⟨rfl, rfl⟩ := hframe.unique hframe'
    have hcommand := (hparse.unique hparse').1
    cases hcommand

end Act

/-! The clock does not go back. -/

/-- The step does not put the clock of the loop back. -/
def Process.Forward [LE T] (p : Process K T) : Input T → Prop
  | .now t => p.world.os.now ≤ t
  | _ => True

instance [LE T] [DecidableLE T] (p : Process K T) (i : Input T) : Decidable (p.Forward i) :=
  match i with
  | .now t => inferInstanceAs (Decidable (p.world.os.now ≤ t))
  | .createClient _ | .createServer _ | .serverDestroy | .setCb _ | .serverSetCb | .connect ..
  | .send .. | .sendTcp .. | .io .. | .timer .. | .round _ => .isTrue trivial

section Past
variable [KcpImpl K] [ClockImpl T] [Preorder T] {p p' : Process (Logged K) T} {i : Input T}

theorem step_forward (hok : p.Forward i) (h : step p i = .ok p') :
    p.world.os.now ≤ p'.world.os.now := by
  rcases step_now h with hsame | rfl
  · exact hsame.ge
  · exact hok

/-- The heart of every session is in the past. -/
structure Process.Past (p : Process K T) : Prop where
  clock : ClockImpl.zero ≤ p.world.os.now
  heart : ∀ {c obj}, p.world.objs c = some obj → obj.hasServer = true →
    obj.udp.heart ≤ p.world.os.now

theorem step_past (hp : p.Typed) (hsep : p.world.Separate) (hpast : p.Past) (hok : p.Forward i)
    (h : step p i = .ok p') : p'.Past := by
  have hforward := step_forward hok h
  refine ⟨hpast.clock.trans hforward, fun {c obj'} hobj' hserver => ?_⟩
  rcases step_object hp hsep h hobj' with ⟨-, hbirth⟩ | ⟨obj, hobj, hkind, hact⟩
  · rw [hbirth.heart hserver]
    exact hpast.clock.trans hforward
  · rw [hserver] at hkind
    rcases hact.heart with hsame | hnow
    · rw [hsame]
      exact (hpast.heart hobj hkind.symm).trans hforward
    · rw [hnow]
      exact hforward

theorem run_past {now : T} {is : List (Input T)} (hzero : ClockImpl.zero ≤ now)
    (hrun : Run step Process.Forward (.init now) is p) : p.Past := by
  induction hrun with
  | nil => exact ⟨hzero, fun hobj => by cases hobj⟩
  | snoc hrun hok hs ih => exact step_past (run_typed hrun) (run_separate hrun) ih hok hs

/-- The heart a session had is not after the one it has. -/
def HeartSince (c : ℕ) (p p' : Process (Logged K) T) : Prop :=
  ∀ obj, p.world.objs c = some obj → obj.hasServer = true →
    c < p'.world.os.next ∧ obj.udp.heart ≤ p'.world.os.now ∧
      ∀ obj', p'.world.objs c = some obj' → obj.udp.heart ≤ obj'.udp.heart

omit [KcpImpl K] in
theorem Process.Past.since (hp : p.Typed) (hpast : p.Past) (c : ℕ) : HeartSince c p p := by
  intro obj hobj hserver
  refine ⟨hp.world.lt_next hobj, hpast.heart hobj hserver, fun obj' hobj' => ?_⟩
  rw [hobj, Option.some.injEq] at hobj'
  rw [hobj']

theorem HeartSince.step {c : ℕ} {p₀ : Process (Logged K) T} (h : HeartSince c p₀ p) (hp : p.Typed)
    (hsep : p.world.Separate) (hok : p.Forward i) (hs : step p i = .ok p') :
    HeartSince c p₀ p' := by
  intro obj₀ hobj₀ hserver
  obtain ⟨hc, hnow, hheart⟩ := h obj₀ hobj₀ hserver
  have hages := (typed_effect hp.world (step_effect hp hs)).ages
  refine ⟨hc.trans_le hages.next, hnow.trans (step_forward hok hs), fun obj' hobj' => ?_⟩
  obtain ⟨obj, hobj, -⟩ := hages.objs hc hobj'
  rcases (step_act hp hsep hs hobj hobj').heart with hsame | hbeat
  · rw [hsame]
    exact hheart obj hobj
  · rw [hbeat]
    exact hnow

end Past

/-! Heartbeats on a connection. -/

section Run
variable [KcpImpl K] [ClockImpl T] {x : End → ℕ} {ok : Link K T → End × Input T → Prop}
  {now : End → T} {is : List (End × Input T)} {l l' : Link K T} {e : End} {i : Input T}
  {frame data : Bytes}

theorem gave_echo (hok : ∀ {l i}, ok l i → FromPeer x l i)
    (hrun : Run (Joint.step step) ok (.init (ends now)) is l) (hframe : frame ∈ l.gave x e)
    (hparse : Parses frame .heartbeat2 data) :
    data.length = heartbeatSize ∧ ∃ answer ∈ l.gave x e.other, Parses answer .heartbeat1 data := by
  obtain ⟨m, hm, rfl, hgave⟩ := (mem_gave x).mp hframe
  obtain ⟨l₀, htaken⟩ := Joint.taken hrun hm
  obtain ⟨is₀, hrun₀⟩ := htaken.run
  obtain ⟨obj, hobj, hgiven⟩ := taken_given htaken hgave
  cases hgiven with
  | data hdata =>
    have hcommand := (hdata.parses.unique hparse).1
    cases hcommand
  | ask hask =>
    have hcommand := (hask.parses.unique hparse).1
    cases hcommand
  | reply _ _ _ _ _ hreply =>
    have hcommand := (hreply.parses.unique hparse).1
    cases hcommand
  | @echo src addr buf data' frame a hdispatch hsrc hvalid hanswer hlen hecho =>
    obtain ⟨-, rfl⟩ := hecho.parses.unique hparse
    refine ⟨hlen, buf, ?_, hanswer⟩
    rw [htaken.before] at hdispatch hsrc hobj
    rcases client_source hrun₀ (hok htaken.ok) hdispatch hsrc hobj hvalid with hput | hgave₀
    · -- the connection brings no answers
      rcases put_command hrun₀ hput hanswer with hc | hc | hc
      · cases hc
      · cases hc
      · cases hc
    · obtain ⟨m₀, hm₀, hwho, hkcp⟩ := (mem_gave x).mp hgave₀
      exact (mem_gave x).mpr ⟨m₀, htaken.mem hm₀, hwho, hkcp⟩

omit [KcpImpl K] in
theorem Given.answer {p : Process (Logged K) T} {c : ℕ} {obj : Kcpev T}
    (h : Given p i c obj frame) (hparse : Parses frame .heartbeat1 data)
    (hlen : data.length = heartbeatSize) : obj.hasServer = true ∧
      data = obj.key.val ++ htobe64 (ClockImpl.bits obj.udp.heart) := by
  cases h with
  | data hdata =>
    have hcommand := (hdata.parses.unique hparse).1
    cases hcommand
  | ask hask =>
    obtain ⟨-, rfl⟩ := hask.parses.unique hparse
    rw [obj.key.property] at hlen
    cases hlen
  | reply _ _ hserver _ _ hreply => exact ⟨hserver, (hreply.parses.unique hparse).2⟩
  | echo _ _ _ _ _ hecho =>
    have hcommand := (hecho.parses.unique hparse).1
    cases hcommand

theorem gave_answer (hrun : Run (Joint.step step) ok (.init (ends now)) is l)
    (hframe : frame ∈ l.gave x e) (hparse : Parses frame .heartbeat1 data)
    (hlen : data.length = heartbeatSize) : ∃ m ∈ l.history, m.who = e ∧ ∃ obj,
      m.before.world.objs (x m.who) = some obj ∧ frame ∈ (Moment.traffic x m).kcp ∧
        data = obj.key.val ++ htobe64 (ClockImpl.bits obj.udp.heart) := by
  obtain ⟨m, hm, hwho, hgave⟩ := (mem_gave x).mp hframe
  obtain ⟨l₀, htaken⟩ := Joint.taken hrun hm
  obtain ⟨obj, hobj, hgiven⟩ := taken_given htaken hgave
  exact ⟨m, hm, hwho, obj, hobj, hgave, (hgiven.answer hparse hlen).2⟩

theorem token_answer {key : KcpevKey} (heart : T) :
    be64toh ((key.val ++ htobe64 (ClockImpl.bits heart)).drop 16) = ClockImpl.bits heart := by
  rw [List.drop_left' key.property]
  have hword := be64toh_htobe64 (ClockImpl.bits heart) []
  rwa [List.append_nil] at hword

variable (x) in
/-- What arrives was sent by the other end, and the clocks do not go back. -/
def Honest [LE T] (l : Link K T) (i : End × Input T) : Prop :=
  FromPeer x l i ∧ (l.party i.1).Forward i.2

instance [LE T] [DecidableLE T] (l : Link K T) (i : End × Input T) : Decidable (Honest x l i) :=
  inferInstanceAs (Decidable (_ ∧ _))

variable (x) in
/-- The echo that moves the heart of a session is the echo of an answer with this heart,
and it has not moved the heart before. -/
structure Fresh [LT T] (l : Link K T) (obj obj' : Kcpev T) (src : Source) (data : Bytes) :
    Prop where
  later : obj.udp.heart < obj'.udp.heart
  kcp : ∃ q, src = .tryKcpRecv (x .server) q ∧ obj.udp.kcp = some q
  answers : ∃ m ∈ l.history, m.who = .server ∧ ∃ old frame,
    m.before.world.objs (x .server) = some old ∧ old.udp.heart = obj.udp.heart ∧
      frame ∈ (Moment.traffic x m).kcp ∧ Parses frame .heartbeat1 data
  once : ∀ m ∈ l.history, m.who = .server → ∀ {src buf old old'},
    m.before.hears m.input = some (src, buf) → Parses buf .heartbeat2 data →
    m.before.world.objs (x .server) = some old → m.after.world.objs (x .server) = some old' →
    old'.udp.heart = old.udp.heart

theorem honest_past [Preorder T] {now : End → T} (hzero : ∀ e, ClockImpl.zero ≤ now e)
    (hrun : Run (Joint.step step) (Honest x) (.init (ends now)) is l) (e : End) :
    (l.party e).Past := by
  obtain ⟨js, hjs⟩ := Joint.party_run (fun h => h.2) hrun e
  exact run_past (hzero e) hjs

/-- The heart a session has is not before any that it had. -/
theorem honest_since [Preorder T] {now : End → T} (hzero : ∀ e, ClockImpl.zero ≤ now e)
    (hrun : Run (Joint.step step) (Honest x) (.init (ends now)) is l) {m : Moment K T}
    (hm : m ∈ l.history) (c : ℕ) : HeartSince c m.after (l.party m.who) := by
  refine Joint.since (R := HeartSince c) (fun h => h.2) hrun (fun {e js p} hjs => ?_)
    (fun {e js p₀ p i p'} hjs h hok hs => ?_) hm
  · exact (run_past (hzero e) hjs).since (run_typed hjs) c
  · exact h.step (run_typed hjs) (run_separate hjs) hok hs

/-- The heart of a session never goes back, and it is refreshed only by fresh echoes. -/
theorem session_heart_fresh [PartialOrder T] {now : End → T}
    (hbits : Function.Injective (ClockImpl.bits : T → UInt64))
    (hzero : ∀ e, ClockImpl.zero ≤ now e)
    (hrun : Run (Joint.step step) (Honest x) (.init (ends now)) is l)
    (hi : Honest x l (.server, i)) (hs : Joint.step step l (.server, i) = .ok l')
    {obj obj' : Kcpev T} (hobj : (l.party .server).world.objs (x .server) = some obj)
    (hserver : obj.hasServer = true)
    (hobj' : (l'.party .server).world.objs (x .server) = some obj') :
    obj.udp.heart ≤ obj'.udp.heart ∧
      ∀ {src buf data}, (l.party .server).hears i = some (src, buf) →
        Parses buf .heartbeat2 data → obj'.udp.heart ≠ obj.udp.heart →
        Fresh x l obj obj' src data := by
  have hpeer : ∀ {l : Link K T} {i}, Honest x l i → FromPeer x l i := fun h => h.1
  obtain ⟨hp, hsep⟩ := party_typed hrun .server
  have hact := step_act hp hsep (Joint.step_self hs).1 hobj hobj'
  have hpast := honest_past hzero hrun .server
  have hle : obj.udp.heart ≤ obj'.udp.heart := by
    rcases hact.heart with hsame | hbeat
    · exact hsame.ge
    · rw [hbeat]
      exact hpast.heart hobj hserver
  refine ⟨hle, fun {src buf data} hhears hparse hne => ?_⟩
  obtain ⟨addr, a, hframe⟩ := hears_eq_some.mp hhears
  obtain ⟨hsrc, -, hvalid, htoken⟩ := hact.refreshes hframe hparse hne
  obtain ⟨q, rfl, hq, hgave⟩ : ∃ q, src = .tryKcpRecv (x .server) q ∧ obj.udp.kcp = some q ∧
      buf ∈ l.gave x .client := by
    rcases session_source hpeer hrun hi.1 hframe hsrc hobj hvalid with hput | hkcp
    · rcases put_command hrun hput hparse with hc | hc | hc
      · cases hc
      · cases hc
      · cases hc
    · exact hkcp
  obtain ⟨hlen, answer, hanswer, hparse₁⟩ := gave_echo hpeer hrun hgave hparse
  obtain ⟨m, hm, hwho, old, hold, hkcp, hdata⟩ := gave_answer hrun hanswer hparse₁ hlen
  refine ⟨lt_of_le_of_ne hle hne.symm, ⟨q, rfl, hq⟩, ?_, ?_⟩
  · -- the token of the answer is the heart of the session when it was sent
    rw [hdata, token_answer] at htoken
    rw [hwho] at hold
    exact ⟨m, hm, hwho, old, answer, hold, hbits htoken, hkcp, hparse₁⟩
  · intro m hm hwho src₁ buf₁ old old' hhears₁ hparse₁ hold hold'
    by_contra hmoved
    obtain ⟨l₀, htaken⟩ := Joint.taken hrun hm
    obtain ⟨is₀, hrun₀⟩ := htaken.run
    obtain ⟨hp₀, hsep₀⟩ := taken_typed htaken
    have hpast₀ : m.before.Past := by
      rw [htaken.before]
      exact honest_past hzero hrun₀ m.who
    have hsince := honest_since hzero hrun hm (x .server)
    rw [hwho] at hsince
    rcases step_object hp₀ hsep₀ htaken.next hold' with ⟨hnone, -⟩ | ⟨old₁, hold₁, hkind, hact₀⟩
    · rw [hold] at hnone
      cases hnone
    rw [hold, Option.some.injEq] at hold₁
    subst hold₁
    obtain ⟨addr₁, a₁, hframe₁⟩ := hears_eq_some.mp hhears₁
    obtain ⟨-, hserver₀, -, htoken₀⟩ := hact₀.refreshes hframe₁ hparse₁ hmoved
    have hheart : old.udp.heart = obj.udp.heart := by
      rw [htoken] at htoken₀
      exact (hbits htoken₀).symm
    have hle₀ : old.udp.heart ≤ old'.udp.heart := by
      rcases hact₀.heart with hsame | hbeat
      · exact absurd hsame hmoved
      · rw [hbeat]
        exact hpast₀.heart hold hserver₀
    have hge : old'.udp.heart ≤ old.udp.heart := by
      rw [hheart]
      exact (hsince old' hold' (hkind.trans hserver₀)).2.2 obj hobj
    exact hmoved (le_antisymm hge hle₀)

end Run

/-! A clock whose readings are the words they are sent as. -/

instance wordClock : ClockImpl (Fin (2 ^ 64)) where
  zero := 0
  bits t := UInt64.ofNat t.val
  late now heart := 30 < now.val - heart.val
  ms t := UInt32.ofNat (1000 * t.val)

theorem wordClock_bits : Function.Injective (ClockImpl.bits : Fin (2 ^ 64) → UInt64) := by
  intro a b h
  have hval := congrArg UInt64.toNat h
  simp only [ClockImpl.bits, UInt64.toNat_ofNat'] at hval
  apply Fin.ext
  omega

/-- The client asks, the session answers, and the echo is in front of its dispatch. -/
def echoArrives : List (End × Input (Fin (2 ^ 64))) :=
  bothReady ++ [(.client, .timer 6 .whole)] ++
    arrives .server 6 (frameBytes Command.heartbeat1.toByte [0, 0, 0] sampleKey.val) ++
    arrives .client 4 (answerFrame .heartbeat1 0) ++
    [(.server, .now 10), (.server, .io 6 (.receives (answerFrame .heartbeat2 0) 9)),
      (.server, .round (.socket 0))]

/-- What the example tests: the step dispatches the echo, and the heart moves. -/
def Link.beats (l : Link Mailbox (Fin (2 ^ 64))) : Bool :=
  decide (Honest sampleEnds l (.server, .round (.socket 0))) &&
    decide ((l.party .server).hears (.round (.socket 0)) =
      some (.tryKcpRecv 3 5, answerFrame .heartbeat2 0)) &&
    match Joint.step step l (.server, .round (.socket 0)) with
    | .ok l' =>
      match (l.party .server).world.objs 3, (l'.party .server).world.objs 3 with
      | some obj, some obj' => obj.hasServer && decide (obj'.udp.heart ≠ obj.udp.heart)
      | _, _ => false
    | .error _ => false

theorem session_heart_fresh_echo : ∃ (l l' : Link Mailbox (Fin (2 ^ 64)))
    (obj obj' : Kcpev (Fin (2 ^ 64))),
    Run (Joint.step step) (Honest sampleEnds) (.init (ends fun _ => 0)) echoArrives l ∧
      Joint.step step l (.server, .round (.socket 0)) = .ok l' ∧
      (l.party .server).world.objs 3 = some obj ∧ (l'.party .server).world.objs 3 = some obj' ∧
      Fresh sampleEnds l obj obj' (.tryKcpRecv 3 5) (sampleKey.val ++ htobe64 0) := by
  obtain ⟨l, hrun, htest⟩ := Run.exists_of_exec (Joint.step step) (Honest sampleEnds)
    (.init (ends fun _ => 0)) echoArrives Link.beats (by decide +kernel)
  simp only [Link.beats, Bool.and_eq_true, decide_eq_true_eq] at htest
  obtain ⟨⟨hok, hhears⟩, hbeats⟩ := htest
  split at hbeats
  · rename_i l' hs
    split at hbeats
    · rename_i obj obj' hobj hobj'
      simp only [Bool.and_eq_true, decide_eq_true_eq] at hbeats
      refine ⟨l, l', obj, obj', hrun, hs, hobj, hobj', ?_⟩
      exact (session_heart_fresh wordClock_bits (fun _ => Fin.zero_le _) hrun hok hs hobj hbeats.1
        hobj').2 hhears (by decide) hbeats.2
    · cases hbeats
  · cases hbeats

end KcpEv
