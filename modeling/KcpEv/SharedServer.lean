import KcpEv.MemorySafety
import KcpEv.Sessions

/-!
Two sessions of one server. What happens on the sockets of one of them and on the listening
UDP socket leaves the other one as it is, and does not depend on it, as long as it leaves the
server running. A message of 65536 bytes out of KCP, or a key whose client was freed, ends
the server for all of its sessions.
-/
namespace KcpEv

open Guarded Ownership Relational

variable {K T : Type}

section Step
variable {p : Process K T} {i : Input T} {A B : ℕ} {key key₁ key₂ : KcpevKey}

/-- No client is accepted in an event of a session. -/
theorem generated_ofSession (h : i.OfSession A key p) : p.generated i = [] := by
  unfold Process.generated
  rcases hadds : p.hashAdds i with _ | a
  · rfl
  · obtain ⟨q, io, e, rfl, -, he, hcb, -⟩ := hashAdds_cases hadds
    obtain ⟨e', he', hevent⟩ := h
    rw [he, Option.some.injEq] at he'
    subst he'
    cases hevent with
    | tcp hcallback => simp [EvIo.callback, hcb] at hcallback
    | udp hcallback => simp [EvIo.callback, hcb] at hcallback
    | all hcallback => simp [EvIo.callback, hcb] at hcallback

theorem Process.Paired.not_inClientTcp {old₁ old₂ : World K T} {p' : Process K T}
    (h : Process.Paired A B key₁ key₂ old₁ old₂ p p') (hi : i.OfSession A key p) :
    ¬ p.InClientTcp i := by
  intro hin
  cases hin with
  | io he hcb =>
    obtain ⟨e', he', hevent⟩ := hi
    rw [he, Option.some.injEq] at he'
    subst he'
    cases hevent with
    | tcp hcallback => simp [EvIo.callback, hcb] at hcallback
    | udp hcallback => simp [EvIo.callback, hcb] at hcallback
    | all hcallback => simp [EvIo.callback, hcb] at hcallback
  | round hctl =>
    obtain ⟨⟨track, -, halike⟩, -⟩ := h
    rw [hctl] at halike
    generalize p'.ctl = ctl' at halike
    cases halike with
    | frame hsrc => cases hsrc

theorem World.HasSession.ne {w : World K T} (hA : w.HasSession key₁ A) (hB : w.HasSession key₂ B)
    (hkeys : key₁ ≠ key₂) : A ≠ B := by
  rintro rfl
  obtain ⟨-, obj, -, hobj, -, hkey, -⟩ := hA
  obtain ⟨-, obj', -, hobj', -, hkey', -⟩ := hB
  obtain rfl : obj = obj' := by simpa [hobj] using hobj'
  exact hkeys (hkey.symm.trans hkey')

theorem World.HasSession.lt_next {w : World K T} (hA : w.HasSession key A) (hw : Typed w) :
    A < w.os.next := by
  obtain ⟨-, obj, -, hobj, -⟩ := hA
  exact hw.lt_next hobj

end Step

section Run
variable [KcpImpl K] [ClockImpl T] {ok : Process K T → Input T → Prop} {now : T}
  {is js : List (Input T)} {p q : Process K T} {A B : ℕ} {keyA keyB : KcpevKey}

theorem lockstep_self (h : Run step (fun p i => i.OfSession A keyB p) p js q) :
    Lockstep step (SessionStep A keyB keyB) p p js q js q := by
  refine .diagonal h fun {t i} hi => ⟨hi, hi, ?_⟩
  cases i with
  | io q a =>
    obtain ⟨e, he, -⟩ := hi
    exact .io he he rfl rfl a
  | round a => exact .round (.refl _ a)
  | send c msg a => exact .send c msg a
  | sendTcp c msg a => exact .sendTcp c msg a
  | createClient | createServer | serverDestroy | setCb | serverSetCb | connect | now | timer =>
    exact hi.elim

/-- What is left of two sessions after events of the first. -/
theorem run_session (hrun : Run step ok (.init now) is p) (hctl : p.ctl = .loop)
    (hA : p.world.HasSession keyA A) (hB : p.world.HasSession keyB B) (hkeys : keyA ≠ keyB)
    (h : Run step (fun p i => i.OfSession A keyB p) p js q) :
    Process.Paired A B keyB keyB p.world p.world q q ∧ q.world.HasSession keyB B ∧
      p.world.Untouched B q.world := by
  have hpaired := paired_of_runs hrun hrun hctl hctl hA hB hB (.refl B _)
  have hq := (hpaired.run (hA.ne hB hkeys) (run_typed hrun)
    (hA.lt_next (run_typed hrun).world) (lockstep_self h)).1.1
  obtain ⟨track, hworld, -⟩ := hq.world
  exact ⟨hq, hB.of_registers hworld.left hworld.registered₁, hworld.untouched⟩

/-- Careful events of a session keep what holds between the steps. -/
theorem intact_session {known : List (KcpevKey × ℕ)} (hp : p.Intact known)
    (hkeys : (known.map Prod.fst).Nodup)
    (h : Run step (fun p i => i.OfSession A keyB p ∧ p.Careful i) p js q) : q.Intact known := by
  induction h with
  | nil => exact hp
  | snoc _ hi hs ih =>
    have hgenerated := generated_ofSession hi.1
    have hnext := ih.step hi.2 (by rwa [hgenerated, List.append_nil]) hs
    rwa [hgenerated, List.append_nil] at hnext

end Run

/-! Runs of a server with two sessions. -/

/-- An input of an event of the session `A`, as `Input.OfSession` has it. -/
def Process.isOfSession (p : Process Unit ℕ) (A : ℕ) (key : KcpevKey) (i : Input ℕ) : Bool :=
  match i with
  | .io q _ => (p.world.os.ios q).any fun e => e.callback = (.kcpev A, .serverTcpRecv) ||
      e.callback = (.kcpev A, .serverUdpRecv) || e.callback = (.server, .serverUdpRecvAll)
  | .round _ =>
    match p.ctl with
    | .frame _ _ buf => ¬ Carries key buf
    | _ => true
  | .send c _ _ | .sendTcp c _ _ => c = A
  | _ => false

theorem ofSession_of_test {p : Process Unit ℕ} {A : ℕ} {key : KcpevKey} {i : Input ℕ}
    (h : p.isOfSession A key i = true) : i.OfSession A key p := by
  cases i with
  | io q a =>
    simp only [Process.isOfSession, Option.any_eq_true, Bool.or_eq_true, decide_eq_true_eq] at h
    obtain ⟨e, he, (htcp | hudp) | hall⟩ := h
    · exact ⟨e, he, .tcp htcp⟩
    · exact ⟨e, he, .udp hudp⟩
    · exact ⟨e, he, .all hall⟩
  | round a =>
    intro src addr buf hctl
    simpa [Process.isOfSession, hctl] using h
  | send c msg a =>
    have hc : c = A := by simpa [Process.isOfSession] using h
    exact hc
  | sendTcp c msg a =>
    have hc : c = A := by simpa [Process.isOfSession] using h
    exact hc
  | _ => cases h

/-- The slots of an object that has no KCP object refer to the same on both sides. -/
def World.isAlikeAt (o : Owner) (w₁ w₂ : World Unit ℕ) : Bool :=
  ([Side.tcp, .udp].all fun side =>
    (refs Slots.sockSlot w₁.slots (o, side)).map w₁.os.socks =
        (refs Slots.sockSlot w₂.slots (o, side)).map w₂.os.socks &&
      (refs Slots.ioSlot w₁.slots (o, side)).map (fun p => (w₁.os.ios p).map EvIo.callback) =
        (refs Slots.ioSlot w₂.slots (o, side)).map fun p => (w₂.os.ios p).map EvIo.callback) &&
  ([Clock.evt, .evh].all fun clock =>
    (refs Slots.timerSlot w₁.slots (o, clock)).map w₁.os.timers =
      (refs Slots.timerSlot w₂.slots (o, clock)).map w₂.os.timers) &&
  (refs Slots.kcpSlot w₁.slots (o, ())).isNone && (refs Slots.kcpSlot w₂.slots (o, ())).isNone

theorem World.alikeAt_of_test {o : Owner} {w₁ w₂ : World Unit ℕ}
    (h : World.isAlikeAt o w₁ w₂ = true) : AlikeAt o w₁ w₂ := by
  simp only [isAlikeAt, List.all_cons, List.all_nil, Bool.and_true, Bool.and_eq_true,
    decide_eq_true_eq, Option.isNone_iff_eq_none] at h
  obtain ⟨⟨⟨⟨⟨htcp, htcpIo⟩, hudp, hudpIo⟩, hevt, hevh⟩, hkcp₁⟩, hkcp₂⟩ := h
  constructor
  · intro side
    cases side with
    | tcp => exact htcp
    | udp => exact hudp
  · intro side
    cases side with
    | tcp => exact htcpIo
    | udp => exact hudpIo
  · intro clock
    cases clock with
    | evt => exact hevt
    | evh => exact hevh
  · rw [hkcp₁, hkcp₂]
    rfl

/-- An object without a ring, besides numbers and addresses. -/
def Kcpev.isPlain (obj₁ obj₂ : Kcpev ℕ) : Bool :=
  obj₁.key = obj₂.key && obj₁.hasServer = obj₂.hasServer && obj₁.hasRecvCb = obj₂.hasRecvCb &&
  obj₁.tcp.rb.isNone && obj₂.tcp.rb.isNone && obj₁.udp.status = obj₂.udp.status &&
  obj₁.udp.heart = obj₂.udp.heart

theorem Kcpev.plain_of_test {obj₁ obj₂ : Kcpev ℕ} (h : obj₁.isPlain obj₂ = true) :
    obj₁.plain = obj₂.plain := by
  simp only [isPlain, Bool.and_eq_true, decide_eq_true_eq, Option.isNone_iff_eq_none] at h
  obtain ⟨⟨⟨⟨⟨⟨hkey, hserver⟩, hcb⟩, hrb₁⟩, hrb₂⟩, hstatus⟩, hheart⟩ := h
  simp only [plain, hkey, hserver, hcb, hrb₁, hrb₂, hstatus, hheart]

/-- Everything below the address `n`, but the session `B`, is the same on both sides. -/
def World.isAlikeBut (B n : ℕ) (w₁ w₂ : World Unit ℕ) : Bool :=
  w₁.os.next ≤ n && w₂.os.next ≤ n && w₁.os.now = w₂.os.now && w₁.os.socks 0 = w₂.os.socks 0 &&
  w₁.server.map (KcpevServer.rest B) = w₂.server.map (KcpevServer.rest B) &&
  World.isAlikeAt .server w₁ w₂ && (List.range n).all fun c => c = B ||
    (match w₁.objs c, w₂.objs c with
    | none, none => true
    | some obj₁, some obj₂ => obj₁.isPlain obj₂
    | _, _ => false) && World.isAlikeAt (.kcpev c) w₁ w₂

/-- Beyond the last address there is nothing to compare. -/
theorem World.alikeBut_of_test {B n : ℕ} {w₁ w₂ : World Unit ℕ} (h₁ : Typed w₁) (h₂ : Typed w₂)
    (h : World.isAlikeBut B n w₁ w₂ = true) : AlikeBut B w₁ w₂ := by
  simp only [isAlikeBut, Bool.and_eq_true, decide_eq_true_eq, List.all_eq_true,
    List.mem_range, Bool.or_eq_true] at h
  obtain ⟨⟨⟨⟨⟨⟨hn₁, hn₂⟩, hnow⟩, hzero⟩, hserver⟩, hat⟩, hobjs⟩ := h
  have hbelow : ∀ c, c ≠ B → c < n ∨ w₁.objs c = none ∧ w₂.objs c = none := by
    intro c _
    by_cases hc : c < n
    · exact Or.inl hc
    · exact Or.inr ⟨h₁.fresh (by omega), h₂.fresh (by omega)⟩
  refine ⟨hnow, hzero, hserver, fun {c} hc => ?_, fun {o} ho => ?_⟩
  · rcases hbelow c hc with hlt | ⟨hnone₁, hnone₂⟩
    · have hplain := ((hobjs c hlt).resolve_left hc).1
      split at hplain
      · rename_i hx hy
        rw [hx, hy]
      · rename_i hx hy
        rw [hx, hy, Option.map_some, Option.map_some, Kcpev.plain_of_test hplain]
      · cases hplain
    · rw [hnone₁, hnone₂]
  · cases o with
    | server => exact alikeAt_of_test hat
    | kcpev c =>
      have hc : c ≠ B := fun heq => ho (by rw [heq])
      rcases hbelow c hc with hlt | ⟨hnone₁, hnone₂⟩
      · exact alikeAt_of_test ((hobjs c hlt).resolve_left hc).2
      · have hslots₁ : w₁.slots (.kcpev c) = none := by simp [World.slots, hnone₁]
        have hslots₂ : w₂.slots (.kcpev c) = none := by simp [World.slots, hnone₂]
        exact ⟨fun side => by simp [refs, hslots₁, hslots₂],
          fun side => by simp [refs, hslots₁, hslots₂],
          fun clock => by simp [refs, hslots₁, hslots₂], by simp [refs, hslots₁, hslots₂]⟩

/-- The same input is alike on both sides. -/
def Process.takesAlike (p₁ p₂ : Process Unit ℕ) : Input ℕ → Bool
  | .io q _ =>
    match p₁.world.os.ios q, p₂.world.os.ios q with
    | some e₁, some e₂ => e₁.callback = e₂.callback &&
        (p₁.world.os.socks e₁.fd).isSome = (p₂.world.os.socks e₂.fd).isSome
    | _, _ => false
  | .round a => a.bind.addrs.all fun x =>
      (p₁.world.os.openSock x.socket none).2.map (fun fd => decide (fd = 0)) =
        (p₂.world.os.openSock x.socket none).2.map fun fd => decide (fd = 0)
  | .send .. | .sendTcp .. => true
  | _ => false

theorem alike_of_test {p₁ p₂ : Process Unit ℕ} {i : Input ℕ} (h : p₁.takesAlike p₂ i = true) :
    Input.Alike p₁ p₂ i i := by
  cases i with
  | io q a =>
    simp only [Process.takesAlike] at h
    split at h
    · rename_i e₁ e₂ he₁ he₂
      rw [Bool.and_eq_true, decide_eq_true_eq, decide_eq_true_eq] at h
      exact .io he₁ he₂ h.1 h.2 a
    · cases h
  | round a =>
    simp only [Process.takesAlike, List.all_eq_true, decide_eq_true_eq] at h
    exact .round ⟨⟨rfl, List.forall₂_same.mpr fun x hx => ⟨h x hx, rfl, rfl⟩⟩, rfl⟩
  | send c msg a => exact .send c msg a
  | sendTcp c msg a => exact .sendTcp c msg a
  | _ => cases h

/-- How a step ends, if it does not succeed. -/
def Process.stop (p : Process Unit ℕ) (i : Input ℕ) : Option Stop :=
  match step p i with
  | .error e => some e
  | .ok _ => none

theorem step_of_stop {p : Process Unit ℕ} {i : Input ℕ} {e : Stop} (h : p.stop i = some e) :
    step p i = .error e := by
  unfold Process.stop at h
  split at h
  · rename_i hs
    rw [hs, Option.some.inj h]
  · cases h

/-- The third key of the examples. -/
def thirdKey : KcpevKey := ⟨List.replicate 16 3, rfl⟩

/-- A server accepts two clients. -/
def twoAccepts : List (Input ℕ) :=
  [.createServer (.sockets 3 4), .serverSetCb, .io 1 (.accepts (.connection 5 9 sampleKey)),
    .io 1 (.accepts (.connection 6 10 otherKey))]

/-- The second client has another key, and has begun its handshake. -/
def otherAccepts : List (Input ℕ) :=
  twoAccepts.take 3 ++ [.io 1 (.accepts (.connection 8 10 thirdKey)),
    .io 2 (.receives (frameBytes Command.shakeHand1.toByte [0, 0, 0] thirdKey.val) 10),
    .round (.socket 9)]

/-- The first client begins its handshake, sends data, and closes its connection. -/
def firstClient : List (Input ℕ) :=
  [.io 2 (.receives (handshakeFrame .shakeHand1) 9), .round (.socket 7),
    .io 4 (.receives (frameBytes Command.data.toByte [0, 0, 0] [1, 2, 3]) 9),
    .round (.socket 11), .round (.socket 11), .io 4 (.receives [] 9)]

/-- The input of a session is the same for both servers. -/
def servesAlike (x : Process Unit ℕ × Process Unit ℕ) (i : Input ℕ) : Bool :=
  x.1.isOfSession 3 otherKey i && x.2.isOfSession 3 thirdKey i && x.1.takesAlike x.2 i &&
    x.1.serves i

/-- A server accepts two clients, and a third one to which it cannot send its key. -/
def failedThird : List (Input ℕ) :=
  twoAccepts ++ [.io 1 (.accepts
    { AcceptAnswer.connection 7 11 thirdKey with send := { stack := fun _ => 0, send := none } })]

/-- The first client sends the first message of a handshake, with the third key. -/
def thirdShakeHand1 : List (Input ℕ) :=
  [.io 4 (.receives (frameBytes Command.shakeHand1.toByte [0, 0, 0] thirdKey.val) 9)]

end KcpEv
