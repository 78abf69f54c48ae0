import KcpEv.ServerHash
import KcpEv.Tidy

/-!
The resources of a process over whole runs. They belong to its objects as long
as no step comes to a place where the library drops one. A repeated handshake is
such a place: it drops the socket, the watcher and the KCP object of the first.
-/
namespace KcpEv

open Guarded Ownership

variable {K T : Type}

/-- What belongs to the live objects: the watchers of the loop, each `ev_io` on
the open socket of the same object, the open sockets, and the KCP objects. -/
structure World.OwnsResources (w : World K T) : Prop where
  io : ∀ q e, w.os.ios q = some e → ∃ s side, w.slots e.data = some s ∧
    (s.sock side).evio = some q ∧ (s.sock side).sock = e.fd ∧ e.fd ≠ 0 ∧ (w.os.socks e.fd).isSome
  timer : ∀ q t, w.os.timers q = some t → ∃ s clock, w.slots t.data = some s ∧
    s.timerSlot clock = some q
  sock : ∀ fd, (w.os.socks fd).isSome →
    ∃! x : Owner × Side, ∃ s, w.slots x.1 = some s ∧ (s.sock x.2).sock = fd ∧ fd ≠ 0
  kcp : ∀ q, (w.os.kcps q).isSome → ∃! o : Owner, ∃ s, w.slots o = some s ∧ s.kcp = some q

theorem ownsResources {w : World K T} (h : Owned w.os w.slots) : w.OwnsResources where
  io q e he := by
    obtain ⟨⟨o, side⟩, hx⟩ := h.ios.held (by rw [he]; rfl)
    obtain ⟨hdata, hfd⟩ := h.watch hx he
    have hopen := h.socks.live hfd
    obtain ⟨s, hs, hev⟩ := refs_eq_some.mp hx
    obtain ⟨s', hs', hsock⟩ := refs_eq_some.mp hfd
    rw [hs] at hs'
    cases hs'
    obtain ⟨heq, hne⟩ := KcpevSock.ref_eq_some.mp hsock
    refine ⟨s, side, ?_, hev, heq, hne, hopen⟩
    rw [hdata]
    exact hs
  timer q t ht := by
    obtain ⟨⟨o, clock⟩, hx⟩ := h.timers.held (by rw [ht]; rfl)
    have hdata := h.timed hx ht
    obtain ⟨s, hs, hclock⟩ := refs_eq_some.mp hx
    refine ⟨s, clock, ?_, hclock⟩
    rw [hdata]
    exact hs
  sock fd hfd := by
    have href : ∀ x : Owner × Side, (∃ s, w.slots x.1 = some s ∧ (s.sock x.2).sock = fd ∧ fd ≠ 0) ↔
        refs Slots.sockSlot w.slots x = some fd := by
      intro x
      rw [refs_eq_some]
      simp only [Slots.sockSlot, KcpevSock.ref_eq_some]
    simp only [href]
    exact h.socks.existsUnique hfd
  kcp q hq := by
    obtain ⟨⟨o, u⟩, hx, hunique⟩ := h.kcps.existsUnique hq
    obtain ⟨s, hs, hkcp⟩ := refs_eq_some.mp hx
    refine ⟨o, ⟨s, hs, hkcp⟩, ?_⟩
    rintro o' ⟨s', hs', hkcp'⟩
    have hpair := hunique (o', ()) (refs_eq_some.mpr ⟨s', hs', hkcp'⟩)
    exact congrArg Prod.fst hpair

theorem World.tidy_init (now : T) : (Process.init now : Process K T).world.Tidy where
  owned := by
    have hslots : (Process.init now : Process K T).world.slots = fun _ => none := by
      funext o
      rcases o with _ | c
      · rfl
      · rfl
    rw [hslots]
    exact ⟨Owns.empty, Owns.empty, Owns.empty, Owns.empty, fun h => (by cases h),
      fun h => (by cases h), fun _ => ⟨rfl, rfl, rfl⟩⟩
  paired {o s} h := by
    rcases o with _ | c
    · cases h
    · cases h
  bare h := by cases h

section Run
variable [KcpImpl K] [ClockImpl T] {p : Process K T} {now : T} {is : List (Input T)}

theorem run_tidy (hrun : Run step Process.DropsNothing (.init now) is p) : p.world.Tidy := by
  have hinv : p.Typed ∧ World.Registered (generatedKeys (K := K) now is) p.world ∧
      p.world.Tidy := by
    refine hrun.invariant_history (P := fun known p =>
      p.Typed ∧ World.Registered known p.world ∧ p.world.Tidy) ?_ ?_
    · exact ⟨Process.typed_init now, (World.exact_init now).toRegistered, World.tidy_init now⟩
    · rintro known s i s' ⟨hp, hreg, htidy⟩ hok hs
      exact ⟨hp.step hs, registered_step hp hreg hs,
        tidy_effect htidy hp.world hreg hok (step_effect hp hs)⟩
  exact hinv.2.2

/-- In a run whose steps drop nothing, all resources belong to live objects. -/
theorem run_ownsResources (hrun : Run step Process.DropsNothing (.init now) is p) :
    p.world.OwnsResources :=
  ownsResources (run_tidy hrun).owned

end Run


/-- A test of the session a handshake frame finds. -/
def World.finding (w : World K T) (data : Bytes) (test : Kcpev T → Bool) : Bool :=
  w.server.all fun server =>
    (((KcpevKey.ofBytes data).bind server.hashFind).bind w.objs).all test

theorem World.finding_sound {w : World K T} {data buf : Bytes} {byte : UInt8}
    {test : Kcpev T → Bool} (h : w.finding data test = true)
    (hframe : parseFrame buf = some (byte, data))
    {command : Command} {c : ℕ} {obj : Kcpev T} (hfind : Finds w buf command c obj) :
    test obj = true := by
  obtain ⟨server, key, hparse, hserver, hc, hobj⟩ := hfind
  obtain ⟨-, rfl⟩ := hparse.ofByte hframe
  simpa [World.finding, hserver, hc, hobj] using h

/-- A step that is seen to drop nothing. -/
def Process.Retains (p : Process K T) (i : Input T) : Bool :=
  match i with
  | .createServer a => a.Sound p.world.os
  | .createClient _ | .connect .. => false
  | .io _ x => x.accept.all fun a => a.sock ≠ 0
  | .round a =>
    match p.ctl with
    | .frame _ _ buf => a.evh && a.bind.Sound true p.world.os &&
      (parseFrame buf).all fun x => x.1 ≠ Command.shakeHand1.toByte ||
        p.world.finding x.2 fun obj => obj.udp.sock = 0
    | _ => true
  | _ => true

theorem dropsNothing_of_retains {p : Process K T} {i : Input T} (h : p.Retains i = true) :
    p.DropsNothing i := by
  have frame : ∀ {src addr buf a}, p.ctl = .frame src addr buf → i = .round a →
      a.evh = true ∧ a.bind.Sound true p.world.os ∧
      (parseFrame buf).all (fun x => x.1 ≠ Command.shakeHand1.toByte ||
        p.world.finding x.2 fun obj => obj.udp.sock = 0) = true := by
    rintro src addr buf a hctl rfl
    simp only [Process.Retains, hctl, Bool.and_eq_true, decide_eq_true_eq] at h
    exact ⟨h.1.1, h.1.2, h.2⟩
  exact
    { createClient := by
        rintro a rfl
        cases h
      createServer := by
        rintro a rfl - -
        exact of_decide_eq_true h
      accept := by
        rintro q io e a rfl - - - ha -
        simpa [Process.Retains, ha] using h
      connect := by
        rintro c addr a obj rfl
        cases h
      shakeHand1 := by
        rintro buf addr a c obj ⟨src, hctl, hi, -⟩ hfind
        obtain ⟨-, hsound, htest⟩ := frame hctl hi
        obtain ⟨server, key, hparse, -⟩ := id hfind
        rw [Parses] at hparse
        simp only [hparse, Option.all_some, ne_eq, not_true_eq_false, decide_false,
          Bool.false_or] at htest
        exact ⟨hsound, Or.inl (by simpa using World.finding_sound htest hparse hfind)⟩
      serverTimers := by
        rintro buf addr a c obj ⟨src, hctl, hi, -⟩ - - - -
        exact (frame hctl hi).1
      clientTimers := by
        rintro c buf a obj ⟨src, addr, hctl, hi, -⟩ - - - - -
        exact (frame hctl hi).1 }

/-- The resources of the client that is left are there, those of the other one are gone. -/
theorem run_ownsResources_busyServer : ∃ p : Process Unit ℕ,
    Run step Process.DropsNothing (.init 0) busyServer p ∧ p.world.OwnsResources ∧
      p.world.os.socks 5 = none ∧ (p.world.os.socks 6).isSome ∧ p.world.os.socks 7 = none ∧
      p.world.os.kcps 7 = none ∧ p.world.os.timers 9 = none := by
  obtain ⟨p, hrun, htest⟩ := Run.exists_of_exec (step (K := Unit))
    (fun p i => p.Retains i = true) (.init 0) busyServer
    (fun p => p.world.os.socks 5 = none ∧ (p.world.os.socks 6).isSome ∧
      p.world.os.socks 7 = none ∧ (p.world.os.kcps 7).isNone ∧ p.world.os.timers 9 = none)
    (by decide)
  obtain ⟨h5, h6, h7, hkcp, htimer⟩ := of_decide_eq_true htest
  have hdrops : Run step Process.DropsNothing (.init 0) busyServer p :=
    hrun.mono fun h => dropsNothing_of_retains h
  exact ⟨p, hdrops, run_ownsResources hdrops, h5, h6, h7, Option.isNone_iff_eq_none.mp hkcp,
    htimer⟩

/-- The client repeats its first handshake message, and all calls succeed. -/
def repeatedShakeHand1 : List (Input ℕ) :=
  oneAccept ++
    [.io 2 (.receives (handshakeFrame .shakeHand1) 9), .round (.socket 6),
      .io 2 (.receives (handshakeFrame .shakeHand1) 9), .round (.socket 7)]

/-- The watcher on the first UDP socket of the session stays in the loop. -/
theorem repeated_shakeHand1_leaks : ∃ p : Process Unit ℕ,
    Run step (fun _ _ => True) (.init 0) repeatedShakeHand1 p ∧ ¬ p.world.OwnsResources := by
  obtain ⟨p, hrun, htest⟩ := Run.exists_of_exec (step (K := Unit)) (fun _ _ => True)
    (.init 0) repeatedShakeHand1 (fun p =>
      p.world.os.ios 6 = some { fd := 6, data := .kcpev 3, cb := .serverUdpRecv } ∧
      p.world.slots (.kcpev 3) = some
        { tcp := { sock := 5, evio := some 4 }, udp := { sock := 7, evio := some 8 }
          evt := none, evh := none, kcp := some 7 })
    (by decide)
  obtain ⟨hio, hslots⟩ := of_decide_eq_true htest
  refine ⟨p, hrun, fun howns => ?_⟩
  obtain ⟨s, side, hs, hevio, -⟩ := howns.io 6 _ hio
  rw [hslots] at hs
  cases hs
  rcases side with _ | _
  · cases hevio
  · cases hevio

end KcpEv
