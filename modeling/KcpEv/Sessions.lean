import KcpEv.Isolated

/-!
Events of one session of a server, over whole processes: what the callbacks of
its sockets and of the listening UDP socket do, round by round, with the calls
the application makes for the session meanwhile.
-/
namespace KcpEv

open Guarded Ownership Relational

variable {K T : Type}

/-- A watcher of a socket of the session `A`, or of the listening UDP socket. -/
inductive EvIo.OfSession (A : ℕ) (e : EvIo) : Prop
  | tcp (h : e.callback = (.kcpev A, .serverTcpRecv))
  | udp (h : e.callback = (.kcpev A, .serverUdpRecv))
  | all (h : e.callback = (.server, .serverUdpRecvAll))

/-- An input of an event of the session `A`. No frame makes the server look up `key`. -/
def Input.OfSession (A : ℕ) (key : KcpevKey) (p : Process K T) : Input T → Prop
  | .io q _ => ∃ e, p.world.os.ios q = some e ∧ e.OfSession A
  | .round _ => ∀ {src addr buf}, p.ctl = .frame src addr buf → ¬ Carries key buf
  | .send c _ _ | .sendTcp c _ _ => c = A
  | .createClient _ | .createServer _ | .serverDestroy | .setCb _ | .serverSetCb
  | .connect .. | .now _ | .timer .. => False

/-- The same input on either side: the same callback is called and gets the same
data, and the system answers alike. -/
inductive Input.Alike (p₁ p₂ : Process K T) : Input T → Input T → Prop
  | io {q₁ q₂ : ℕ} {e₁ e₂ : EvIo} (h₁ : p₁.world.os.ios q₁ = some e₁)
    (h₂ : p₂.world.os.ios q₂ = some e₂) (hcallback : e₁.callback = e₂.callback)
    (hopen : (p₁.world.os.socks e₁.fd).isSome = (p₂.world.os.socks e₂.fd).isSome) (a : IoAnswer) :
    Alike p₁ p₂ (.io q₁ a) (.io q₂ a)
  | round {a₁ a₂ : RecvAnswer} (h : a₁.Alike p₁.world.os p₂.world.os a₂) :
    Alike p₁ p₂ (.round a₁) (.round a₂)
  | send (c : ℕ) (msg : Bytes) (a : SendAnswer) : Alike p₁ p₂ (.send c msg a) (.send c msg a)
  | sendTcp (c : ℕ) (msg : Bytes) (a : SendAnswer) :
    Alike p₁ p₂ (.sendTcp c msg a) (.sendTcp c msg a)

/-- One step of an event of the session `A` on both sides. -/
structure SessionStep (A : ℕ) (key₁ key₂ : KcpevKey) (p₁ p₂ : Process K T) (i₁ i₂ : Input T) :
    Prop where
  left : i₁.OfSession A key₁ p₁
  right : i₂.OfSession A key₂ p₂
  alike : Input.Alike p₁ p₂ i₁ i₂

/-- Two processes that differ in the session `B` only, while they serve `A`. -/
structure Process.Paired (A B : ℕ) (key₁ key₂ : KcpevKey) (old₁ old₂ : World K T)
    (p₁ p₂ : Process K T) : Prop where
  world : ∃ track, World.Paired B key₁ key₂ old₁ old₂ track p₁.world p₂.world ∧
    Control.Alike A track p₁.ctl p₂.ctl
  session : ∀ {obj}, p₁.world.objs A = some obj → obj.hasServer = true

namespace Control.Alike

variable {A : ℕ} {track : Option (ℕ × ℕ)} {ctl₁ ctl₂ : Control}

theorem appMayCall (h : ctl₁.Alike A track ctl₂) : ctl₁.appMayCall = ctl₂.appMayCall := by
  cases h <;> rfl

theorem of_frame {src₁ : Source} {addr : Addr} {buf : Bytes}
    (h : Control.Alike A track (.frame src₁ addr buf) ctl₂) :
    ∃ src₂, ctl₂ = .frame src₂ addr buf := by
  cases h with
  | frame => exact ⟨_, rfl⟩

end Control.Alike

section Step
variable [KcpImpl K] [ClockImpl T] {A B : ℕ} {key₁ key₂ : KcpevKey} {old₁ old₂ w₁ w₂ : World K T}
  {track : Option (ℕ × ℕ)} {p₁ p₂ : Process K T} {i₁ i₂ : Input T}

namespace World.Paired

theorem dispatch (h : World.Paired B key₁ key₂ old₁ old₂ track w₁ w₂) (hA : A ≠ B)
    (hsession : ∀ {obj}, w₁.objs A = some obj → obj.hasServer = true) {src₁ src₂ : Source}
    (hsrc : src₁.Alike A track src₂) (addr : Addr) {buf : Bytes}
    (hbuf : ¬ Carries key₁ buf ∧ ¬ Carries key₂ buf) {a₁ a₂ : RecvAnswer}
    (ha : a₁.Alike w₁.os w₂.os a₂) :
    Both (World.Ends B key₁ key₂ old₁ old₂ track w₁ w₂ Eq) (KcpEv.dispatch w₁ src₁ addr buf a₁)
      (KcpEv.dispatch w₂ src₂ addr buf a₂) := by
  have hrecv : Both (World.Ends B key₁ key₂ old₁ old₂ track w₁ w₂ Eq)
      (onSessionRecv w₁ A buf addr a₁) (onSessionRecv w₂ A buf addr a₂) := by
    apply Both.bind (h.kcpev hA)
    rintro obj₁ obj₂ ⟨h₁, h₂, hplain⟩
    have hserver : obj₁.hasServer = obj₂.hasServer := congrArg (fun x => x.2.1) hplain
    rw [hserver]
    apply Both.ite Iff.rfl
    · intro _ _
      exact .error _
    · intro _ _
      exact h.onServerRecv hA (Or.inr rfl) hbuf addr ha
  cases hsrc with
  | tcp => exact hrecv
  | udp => exact hrecv
  | all => exact h.onServerRecv hA (Or.inl rfl) hbuf addr ha
  | kcp =>
    apply Both.bind (h.kcpev hA)
    rintro obj₁ obj₂ ⟨h₁, h₂, hplain⟩
    have hserver : obj₁.hasServer = obj₂.hasServer := congrArg (fun x => x.2.1) hplain
    rw [← hserver, hsession h₁]
    exact hrecv

omit [KcpImpl K] [ClockImpl T] in
theorem dispatched {src₁ src₂ : Source} (hsrc : src₁.Alike A track src₂) (addr : Addr) (ret : ℤ) :
    Both (Control.Alike A track) (KcpEv.dispatched src₁ addr ret)
      (KcpEv.dispatched src₂ addr ret) := by
  cases hsrc with
  | tcp =>
    by_cases hret : ret = 0
    · simp only [KcpEv.dispatched, hret, if_true]
      exact .ok (.drain .tcp addr)
    · simp only [KcpEv.dispatched, hret, if_false]
      exact .ok .closing
  | udp => exact .ok .loop
  | all => exact .ok .loop
  | kcp =>
    by_cases hret : ret = 0
    · simp only [KcpEv.dispatched, hret, if_true]
      exact .ok (.drain .kcp addr)
    · simp only [KcpEv.dispatched, hret, if_false]
      exact .ok .loop

omit [KcpImpl K] [ClockImpl T] in
theorem closing (h : World.Paired B key₁ key₂ old₁ old₂ track w₁ w₂) (hA : A ≠ B) :
    Both (fun x y => World.Ends B key₁ key₂ old₁ old₂ track w₁ w₂ Eq (x, ()) (y, ()))
      (w₁.closeClient A) (w₂.closeClient A) := by
  have out : ∀ {w w' : World K T}, w.closeClient A = .ok w' → w'.os.out = w.os.out := by
    intro w w' hw
    obtain ⟨client, server, -, -, -, rfl⟩ := closeClient_cases hw
    exact KcpevBase.destroy_out ..
  apply (h.closeClient hA).returned.mono
  rintro w₁' w₂' ⟨hpaired, hx, hy⟩
  exact ⟨hpaired, .none (out hx) (out hy), rfl⟩

theorem callbackRound (h : World.Paired B key₁ key₂ old₁ old₂ track w₁ w₂) (hA : A ≠ B)
    (hsession : ∀ {obj}, w₁.objs A = some obj → obj.hasServer = true) {ctl₁ ctl₂ : Control}
    (hctl : ctl₁.Alike A track ctl₂)
    (hbuf : ∀ {src₁ addr buf}, ctl₁ = .frame src₁ addr buf →
      ¬ Carries key₁ buf ∧ ¬ Carries key₂ buf)
    {a₁ a₂ : RecvAnswer} (ha : a₁.Alike w₁.os w₂.os a₂) :
    Both (World.Ends B key₁ key₂ old₁ old₂ track w₁ w₂ (Control.Alike A track))
      (KcpEv.callbackRound w₁ ctl₁ a₁) (KcpEv.callbackRound w₂ ctl₂ a₂) := by
  cases hctl with
  | loop => exact .ok (h.ends .loop)
  | frame hsrc addr buf =>
    apply Both.bind (h.dispatch hA hsession hsrc addr (hbuf rfl) ha)
    rintro ⟨w₁', ret⟩ ⟨w₂', -⟩ ⟨hpaired, hsent, rfl⟩
    apply Both.bind (dispatched hsrc addr ret)
    intro ctl₁ ctl₂ hctl
    exact .ok ⟨hpaired, hsent, hctl⟩
  | drain hsrc addr =>
    cases hsrc with
    | tcp => exact h.drainTcp hA addr
    | udp => exact .ok (h.ends .loop)
    | all => exact .ok (h.ends .loop)
    | kcp => exact h.drainKcp hA addr
  | closing =>
    apply Both.bind (h.closing hA)
    intro w₁' w₂' hends
    exact .ok ⟨hends.paired, hends.sent, .loop⟩

theorem ioEvent (h : World.Paired B key₁ key₂ old₁ old₂ track w₁ w₂) (hA : A ≠ B)
    {e₁ e₂ : EvIo} (he : e₁.OfSession A) (hcallback : e₁.callback = e₂.callback)
    (hopen : (w₁.os.socks e₁.fd).isSome = (w₂.os.socks e₂.fd).isSome) (a : IoAnswer) :
    Both (fun x y => ∃ track',
        World.Ends B key₁ key₂ old₁ old₂ track' w₁ w₂ (Control.Alike A track') x y)
      (KcpEv.ioEvent w₁ e₁ a) (KcpEv.ioEvent w₂ e₂ a) := by
  obtain ⟨fd₁, data₁, cb₁⟩ := e₁
  obtain ⟨fd₂, data₂, cb₂⟩ := e₂
  obtain ⟨rfl, rfl⟩ := Prod.mk.inj hcallback
  cases he with
  | tcp hcb =>
    obtain ⟨rfl, rfl⟩ := Prod.mk.inj hcb
    apply (h.serverTcpRecv hA hopen a).mono
    intro x y hends
    exact ⟨track, hends⟩
  | udp hcb =>
    obtain ⟨rfl, rfl⟩ := Prod.mk.inj hcb
    exact h.serverUdpRecv hA hopen a
  | all hcb =>
    obtain ⟨rfl, rfl⟩ := Prod.mk.inj hcb
    exact .ok ⟨track, h.serverUdpRecvAll hopen a⟩

end World.Paired

theorem Process.Paired.step (h : Process.Paired A B key₁ key₂ old₁ old₂ p₁ p₂) (hA : A ≠ B)
    (htyped : p₁.Typed) (hlive : A < p₁.world.os.next) (hi : SessionStep A key₁ key₂ p₁ p₂ i₁ i₂) :
    Both (fun q₁ q₂ => Process.Paired A B key₁ key₂ old₁ old₂ q₁ q₂ ∧
      World.SentAlike B p₁.world q₁.world p₂.world q₂.world) (KcpEv.step p₁ i₁)
      (KcpEv.step p₂ i₂) := by
  obtain ⟨⟨track, hworld, hctl⟩, hsession⟩ := h
  have session : ∀ {q₁ : Process K T}, KcpEv.step p₁ i₁ = .ok q₁ → ∀ {obj},
      q₁.world.objs A = some obj → obj.hasServer = true := by
    intro q₁ hs obj' hobj'
    have hages := (typed_effect htyped.world (step_effect htyped hs)).ages
    obtain ⟨obj, hobj, hsame⟩ := hages.objs hlive hobj'
    rw [hsame]
    exact hsession hobj
  have hboth : Both (fun q₁ q₂ => (∃ track', World.Paired B key₁ key₂ old₁ old₂ track' q₁.world
      q₂.world ∧ Control.Alike A track' q₁.ctl q₂.ctl) ∧
      World.SentAlike B p₁.world q₁.world p₂.world q₂.world) (KcpEv.step p₁ i₁)
      (KcpEv.step p₂ i₂) := by
    have hstay : Both (fun q₁ q₂ => (∃ track', World.Paired B key₁ key₂ old₁ old₂ track' q₁.world
        q₂.world ∧ Control.Alike A track' q₁.ctl q₂.ctl) ∧
        World.SentAlike B p₁.world q₁.world p₂.world q₂.world) (.ok p₁ : Exec (Process K T))
        (.ok p₂) := .ok ⟨⟨track, hworld, hctl⟩, .none rfl rfl⟩
    obtain ⟨hleft, hright, halike⟩ := hi
    cases halike with
    | @io q₁ q₂ e₁ e₂ h₁ h₂ hcallback hopen a =>
      obtain ⟨e, he, hofSession⟩ := hleft
      obtain rfl : e₁ = e := by simpa [h₁] using he
      have hevent := hworld.ioEvent hA hofSession hcallback hopen a
      obtain ⟨w₁, ctl₁⟩ := p₁
      obtain ⟨w₂, ctl₂⟩ := p₂
      simp only [KcpEv.step]
      rw [h₁, h₂]
      cases hctl with
      | loop =>
        apply Both.bind hevent
        rintro x y ⟨track', hends⟩
        exact .ok ⟨⟨track', hends.paired, hends.result⟩, hends.sent⟩
      | frame => exact hstay
      | drain => exact hstay
      | closing => exact hstay
    | round ha =>
      have hbuf : ∀ {src₁ addr buf}, p₁.ctl = .frame src₁ addr buf →
          ¬ Carries key₁ buf ∧ ¬ Carries key₂ buf := by
        intro src₁ addr buf hframe
        refine ⟨hleft hframe, ?_⟩
        rw [hframe] at hctl
        obtain ⟨src₂, hframe₂⟩ := hctl.of_frame
        exact hright hframe₂
      apply Both.bind (hworld.callbackRound hA hsession hctl hbuf ha)
      rintro x y hends
      exact .ok ⟨⟨track, hends.paired, hends.result⟩, hends.sent⟩
    | send c msg a =>
      obtain rfl : c = A := hleft
      have hsend := hworld.send hA msg a
      simp only [KcpEv.step, apply]
      rw [hctl.appMayCall]
      split
      · apply Both.bind hsend
        intro w₁' w₂' hends
        exact .ok ⟨⟨track, hends.paired, hctl⟩, hends.sent⟩
      · exact hstay
    | sendTcp c msg a =>
      obtain rfl : c = A := hleft
      have hsend := hworld.sendTcp hA msg a
      simp only [KcpEv.step, apply]
      rw [hctl.appMayCall]
      split
      · apply Both.bind hsend
        intro w₁' w₂' hends
        exact .ok ⟨⟨track, hends.paired, hctl⟩, hends.sent⟩
      · exact hstay
  apply hboth.returned.mono
  rintro q₁ q₂ ⟨⟨hpaired, hsent⟩, hs, -⟩
  exact ⟨⟨hpaired, session hs⟩, hsent⟩

/-- The frames a step puts on the sockets of an object. -/
def sentFrames (c : ℕ) (p : Process K T) (i : Input T) : List (Side × Bytes) :=
  match step p i with
  | .ok q => (q.world.os.out.drop p.world.os.out.length).filterMap (q.world.sentBy c)
  | .error _ => []

/-- Events of a session, on both sides. -/
theorem Process.Paired.run {q₁ q₂ : Process K T} {is₁ is₂ : List (Input T)}
    (h : Process.Paired A B key₁ key₂ old₁ old₂ p₁ p₂) (hA : A ≠ B) (htyped : p₁.Typed)
    (hlive : A < p₁.world.os.next)
    (hrun : Lockstep KcpEv.step (SessionStep A key₁ key₂) p₁ p₂ is₁ q₁ is₂ q₂) :
    (Process.Paired A B key₁ key₂ old₁ old₂ q₁ q₂ ∧ q₁.Typed ∧ A < q₁.world.os.next) ∧
      history KcpEv.step (sentFrames A) p₁ is₁ = history KcpEv.step (sentFrames A) p₂ is₂ := by
  refine hrun.simulation
    (P := fun q₁ q₂ => Process.Paired A B key₁ key₂ old₁ old₂ q₁ q₂ ∧ q₁.Typed ∧
      A < q₁.world.os.next) ⟨h, htyped, hlive⟩ ?_
  rintro t₁ t₁' t₂ t₂' i₁ i₂ ⟨hpaired, htyped, hlive⟩ hi h₁ h₂
  obtain ⟨hpaired', x₁, x₂, hout₁, hout₂, hsent⟩ :=
    (hpaired.step hA htyped hlive hi).results h₁ h₂
  have hages := (typed_effect htyped.world (step_effect htyped h₁)).ages
  refine ⟨⟨hpaired', htyped.step h₁, hlive.trans_le hages.next⟩, ?_⟩
  simp only [sentFrames, h₁, h₂, hout₁, hout₂, List.drop_left]
  exact hsent A hA

end Step

/-! Worlds that differ in one session. -/

namespace World

/-- The slots of an object refer to the same on both sides. -/
structure AlikeAt (o : Owner) (w₁ w₂ : World K T) : Prop where
  socks : ∀ side, (refs Slots.sockSlot w₁.slots (o, side)).map w₁.os.socks =
    (refs Slots.sockSlot w₂.slots (o, side)).map w₂.os.socks
  ios : ∀ side, (refs Slots.ioSlot w₁.slots (o, side)).map
      (fun p => (w₁.os.ios p).map EvIo.callback) =
    (refs Slots.ioSlot w₂.slots (o, side)).map fun p => (w₂.os.ios p).map EvIo.callback
  timers : ∀ clock, (refs Slots.timerSlot w₁.slots (o, clock)).map w₁.os.timers =
    (refs Slots.timerSlot w₂.slots (o, clock)).map w₂.os.timers
  kcps : (refs Slots.kcpSlot w₁.slots (o, ())).map w₁.os.kcps =
    (refs Slots.kcpSlot w₂.slots (o, ())).map w₂.os.kcps

/-- All but the session `B` is the same, up to the numbers of descriptors and the
addresses of watchers, timers and KCP objects. -/
structure AlikeBut (B : ℕ) (w₁ w₂ : World K T) : Prop where
  now : w₁.os.now = w₂.os.now
  zero : w₁.os.socks 0 = w₂.os.socks 0
  server : w₁.server.map (KcpevServer.rest B) = w₂.server.map (KcpevServer.rest B)
  plain : ∀ {c}, c ≠ B → (w₁.objs c).map Kcpev.plain = (w₂.objs c).map Kcpev.plain
  slots : ∀ {o}, o ≠ .kcpev B → AlikeAt o w₁ w₂

theorem AlikeBut.refl (B : ℕ) (w : World K T) : AlikeBut B w w :=
  ⟨rfl, rfl, rfl, fun _ => rfl, fun _ => ⟨fun _ => rfl, fun _ => rfl, fun _ => rfl, rfl⟩⟩

/-- The object is the same one as before, and so is all its slots refer to. -/
structure Untouched (c : ℕ) (w w' : World K T) : Prop where
  obj : w'.objs c = w.objs c
  socks : ∀ {side fd}, refs Slots.sockSlot w.slots (.kcpev c, side) = some fd →
    w'.os.socks fd = w.os.socks fd
  ios : ∀ {side p}, refs Slots.ioSlot w.slots (.kcpev c, side) = some p →
    w'.os.ios p = w.os.ios p
  timers : ∀ {clock p}, refs Slots.timerSlot w.slots (.kcpev c, clock) = some p →
    w'.os.timers p = w.os.timers p
  kcps : ∀ {p}, refs Slots.kcpSlot w.slots (.kcpev c, ()) = some p → w'.os.kcps p = w.os.kcps p

/-- A registered client of the server. -/
def HasSession (w : World K T) (key : KcpevKey) (c : ℕ) : Prop :=
  ∃ server obj, w.server = some server ∧ w.objs c = some obj ∧ obj.hasServer = true ∧
    obj.key = key ∧ server.hashFind key = some c

instance (w : World K T) (key : KcpevKey) (c : ℕ) : Decidable (w.HasSession key c) :=
  match hserver : w.server, hobj : w.objs c with
  | some server, some obj =>
    decidable_of_iff (obj.hasServer = true ∧ obj.key = key ∧ server.hashFind key = some c)
      ⟨fun h => ⟨server, obj, hserver, hobj, h⟩, fun ⟨server', obj', hserver', hobj', h⟩ => by
        rw [hserver] at hserver'
        rw [hobj] at hobj'
        cases hserver'
        cases hobj'
        exact h⟩
  | none, _ => isFalse fun ⟨server, _, h, _⟩ => by
    rw [hserver] at h
    cases h
  | some _, none => isFalse fun ⟨_, obj, _, h, _⟩ => by
    rw [hobj] at h
    cases h

variable {B : ℕ} {key key₁ key₂ : KcpevKey} {old₁ old₂ w w' w₁ w₂ : World K T}
  {track : Option (ℕ × ℕ)}

theorem HasSession.registers {known : List (KcpevKey × ℕ)} (h : w.HasSession key B)
    (hw : Registered known w) : w.Registers key B := by
  obtain ⟨server, obj, hserver, -, -, -, hfind⟩ := h
  refine ⟨server, hserver, hfind, fun k hk => ?_⟩
  have hnodup := hw.nodup
  rw [hash_some hserver] at hnodup
  have heq := List.inj_on_of_nodup_map hnodup hk (KcpevServer.hashFind_mem hfind) rfl
  exact congrArg Prod.fst heq

theorem HasSession.of_registers (h : w.HasSession key B) (hobj : w'.objs B = w.objs B)
    (hregistered : w'.Registers key B) : w'.HasSession key B := by
  obtain ⟨-, obj, -, hB, hserver, hkey, -⟩ := h
  obtain ⟨server, hs, hfind, -⟩ := hregistered
  exact ⟨server, obj, hs, hobj.trans hB, hserver, hkey, hfind⟩

namespace Paired

/-- Two worlds that differ in one session only. -/
theorem of_alikeBut (h : AlikeBut B w₁ w₂) (h₁ : w₁.Separate) (h₂ : w₂.Separate)
    (hregistered₁ : w₁.Registers key₁ B) (hregistered₂ : w₂.Registers key₂ B) :
    World.Paired B key₁ key₂ w₁ w₂ none w₁ w₂ := by
  refine ⟨⟨⟨.refl h₁.socks, .refl h₂.socks, fun {x} hx => ?_⟩, ⟨.refl h₁.ios, .refl h₂.ios,
    fun {x} hx => ?_⟩, ⟨.refl h₁.timers, .refl h₂.timers, fun {x} hx => ?_⟩,
    ⟨.refl h₁.kcps, .refl h₂.kcps, fun {x} hx => ?_⟩, h₁.fresh, h₂.fresh, h.zero, h.now,
    fun hij => by cases hij⟩, h.plain, h.server, rfl, rfl, hregistered₁, hregistered₂⟩
  · simpa using (h.slots hx).socks x.2
  · exact (h.slots hx).ios x.2
  · simpa using (h.slots hx).timers x.2
  · simpa using (h.slots hx).kcps

theorem alikeBut (h : World.Paired B key₁ key₂ old₁ old₂ track w₁ w₂) : AlikeBut B w₁ w₂ where
  now := h.os.now
  zero := h.os.zero
  server := h.server
  plain := h.plain
  slots {o} ho :=
    { socks := fun side => by simpa using h.os.socks.same (k := (o, side)) ho
      ios := fun side => h.os.ios.same (k := (o, side)) ho
      timers := fun clock => by simpa using h.os.timers.same (k := (o, clock)) ho
      kcps := by simpa using h.os.kcps.same (k := (o, ())) ho }

theorem untouched (h : World.Paired B key₁ key₂ old₁ old₂ track w₁ w₂) : Untouched B old₁ w₁ := by
  have hslots : w₁.slots (.kcpev B) = old₁.slots (.kcpev B) := by
    simp only [World.slots, h.left]
  have hrefs : ∀ {κ : Type} {slot : Slots → κ → Option ℕ} {x : κ} {p : ℕ},
      refs slot old₁.slots (.kcpev B, x) = some p → refs slot w₁.slots (.kcpev B, x) = some p := by
    intro κ slot x p hp
    rw [refs_eq_some] at hp ⊢
    rw [hslots]
    exact hp
  exact ⟨h.left, fun hfd => h.os.socks.left.kept rfl (hrefs hfd),
    fun hp => h.os.ios.left.kept rfl (hrefs hp), fun hp => h.os.timers.left.kept rfl (hrefs hp),
    fun hp => h.os.kcps.left.kept rfl (hrefs hp)⟩

end Paired

end World

section Run
variable [KcpImpl K] [ClockImpl T] {ok ok' : Process K T → Input T → Prop} {now now' : T}
  {is is' : List (Input T)} {p p' : Process K T} {A B : ℕ} {keyA keyB keyB' : KcpevKey}

/-- Two processes that have just come back to their loops. -/
theorem paired_of_runs (hrun : Run step ok (.init now) is p)
    (hrun' : Run step ok' (.init now') is' p')
    (hctl : p.ctl = .loop) (hctl' : p'.ctl = .loop) (hA : p.world.HasSession keyA A)
    (hB : p.world.HasSession keyB B) (hB' : p'.world.HasSession keyB' B)
    (halike : p.world.AlikeBut B p'.world) :
    Process.Paired A B keyB keyB' p.world p'.world p p' := by
  refine ⟨⟨none, .of_alikeBut halike (run_separate hrun) (run_separate hrun')
    (hB.registers (run_registered hrun)) (hB'.registers (run_registered hrun')), ?_⟩, ?_⟩
  · rw [hctl, hctl']
    exact .loop
  · intro obj' hobj'
    obtain ⟨-, obj, -, hobj, hserver, -⟩ := hA
    obtain rfl : obj = obj' := by simpa [hobj] using hobj'
    exact hserver

end Run

end KcpEv
