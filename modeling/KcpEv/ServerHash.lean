import KcpEv.Registry

/-!
The hash over whole runs. It always holds the live sessions. It holds nothing
else in the runs in which no `tcp_accept` fails behind its `HASH_ADD`; after such
a failure the entry of the destroyed client stays.
-/
namespace KcpEv

open Guarded

variable {K T : Type}

namespace World

/-- The hash is exact: `known` are the keys generated so far, with the clients
they were generated for. -/
structure HashExact (known : List (KcpevKey × ℕ)) (w : World K T) : Prop where
  /-- an entry for each client that was accepted and is not destroyed -/
  entries : ∀ k c, (k, c) ∈ w.hash ↔ (k, c) ∈ known ∧ (w.objs c).isSome
  /-- each under its own key -/
  sessions : ∀ k c, (k, c) ∈ w.hash ↔ w.sessionKey c = some k
  once : (w.hash.map Prod.fst).Nodup ∧ (w.hash.map Prod.snd).Nodup
  found : ∀ server, w.server = some server → ∀ k c,
    server.hashFind k = some c ↔ (k, c) ∈ w.hash
  closed : ∀ server, w.server = some server → ∀ k c,
    (k, c) ∈ known → w.objs c = none → server.hashFind k = none
  /-- the server is destroyed with all of its clients, none of them twice -/
  destroyed : w.server.isSome → ∃ w', w.kcpevServerDestroy = .ok w' ∧
    ∀ c, w'.objs c = if (w.sessionKey c).isSome then none else w.objs c

theorem find_of_mem {l : List (KcpevKey × ℕ)} (hnodup : (l.map Prod.fst).Nodup) {k : KcpevKey}
    {c : ℕ} (hmem : (k, c) ∈ l) : l.find? (fun e => e.1 = k) = some (k, c) := by
  induction l with
  | nil => cases hmem
  | cons e rest ih =>
    rw [List.map_cons, List.nodup_cons] at hnodup
    rcases List.mem_cons.mp hmem with rfl | hrest
    · exact List.find?_cons_of_pos (by simp)
    · have hne : e.1 ≠ k := by
        rintro rfl
        exact hnodup.1 (List.mem_map.mpr ⟨(e.1, c), hrest, rfl⟩)
      rw [List.find?_cons_of_neg (by simpa using hne)]
      exact ih hnodup.2 hrest

theorem hashFind_iff {server : KcpevServer T} (hnodup : (server.hash.map Prod.fst).Nodup)
    (k : KcpevKey) (c : ℕ) : server.hashFind k = some c ↔ (k, c) ∈ server.hash := by
  constructor
  · exact KcpevServer.hashFind_mem
  · intro hmem
    simp [KcpevServer.hashFind, find_of_mem hnodup hmem]

section Exact
variable {w : World K T} {known : List (KcpevKey × ℕ)}

theorem Registered.sessionKey (h : Registered known w) {k : KcpevKey} {c : ℕ}
    (hmem : (k, c) ∈ known) (hlive : (w.objs c).isSome) : w.sessionKey c = some k := by
  obtain ⟨obj, hobj⟩ := Option.isSome_iff_exists.mp hlive
  have hrole := (h.role hmem).2 obj hobj
  simp [World.sessionKey, hobj, hrole]

theorem Exact.mem_hash (h : Exact known w) (k : KcpevKey) (c : ℕ) :
    (k, c) ∈ w.hash ↔ w.sessionKey c = some k := by
  constructor
  · intro he
    exact h.sessionKey (h.hash he) (h.live he)
  · exact h.session

theorem Exact.mem_pointers (h : Exact known w) (c : ℕ) :
    c ∈ w.hash.map Prod.snd ↔ (w.sessionKey c).isSome := by
  rw [List.mem_map, Option.isSome_iff_exists]
  constructor
  · rintro ⟨⟨k, c'⟩, he, rfl⟩
    exact ⟨k, (h.mem_hash k c').mp he⟩
  · rintro ⟨k, hk⟩
    exact ⟨(k, c), h.session hk, rfl⟩

theorem Exact.hashExact (h : Exact known w) (hknown : (known.map Prod.fst).Nodup) :
    HashExact known w where
  entries k c := by
    constructor
    · intro he
      exact ⟨h.hash he, h.live he⟩
    · rintro ⟨hmem, hlive⟩
      exact h.session (h.sessionKey hmem hlive)
  sessions := h.mem_hash
  once := ⟨h.keys, h.nodup⟩
  found server hserver := by
    have hkeys := h.keys
    rw [hash_some hserver] at hkeys ⊢
    exact hashFind_iff hkeys
  closed server hserver k c hmem hdead := by
    rw [Option.eq_none_iff_forall_ne_some]
    intro c' hfind
    have he := KcpevServer.hashFind_mem hfind
    rw [← hash_some hserver] at he
    have heq : c' = c := by
      have hpair := List.inj_on_of_nodup_map hknown (h.hash he) hmem rfl
      exact congrArg Prod.snd hpair
    have hlive := h.live he
    rw [heq, hdead] at hlive
    cases hlive
  destroyed hserver := by
    obtain ⟨w', hw'⟩ := h.serverDestroy hserver
    refine ⟨w', hw', fun c => ?_⟩
    rw [(kcpevServerDestroy_cases hw').2.2 c]
    simp only [h.mem_pointers]

end Exact

end World

section Run
variable [KcpImpl K] [ClockImpl T]

/-- No `tcp_accept` fails behind its `HASH_ADD`. -/
def Process.AcceptsWhole (p : Process K T) (i : Input T) : Prop :=
  ∀ a, p.hashAdds i = some a → ¬ a.Fails

instance (p : Process K T) (i : Input T) : Decidable (p.AcceptsWhole i) :=
  inferInstanceAs (Decidable (∀ a ∈ p.hashAdds i, ¬ a.Fails))

variable {p p' : Process K T} {i : Input T} {known : List (KcpevKey × ℕ)}

omit [KcpImpl K] [ClockImpl T] in
theorem generated_none (h : p.hashAdds i = none) : p.generated i = [] := by
  simp [Process.generated, h]

omit [KcpImpl K] [ClockImpl T] in
theorem generated_some {a : AcceptAnswer} (h : p.hashAdds i = some a) :
    p.generated i = [(a.uuid, p.world.os.next)] := by
  simp [Process.generated, h]

theorem registered_step (hp : p.Typed) (h : World.Registered known p.world)
    (hs : step p i = .ok p') : World.Registered (known ++ p.generated i) p'.world := by
  cases session_step hp hs with
  | same hnone hsame =>
    rw [generated_none hnone, List.append_nil]
    exact h.same hsame hp.world
  | accepted hadds hnext hhash hobjs ho =>
    rw [generated_some hadds]
    refine h.accepted hnext hhash hobjs fun obj hobj => ?_
    rcases ho with ⟨ho, -⟩ | ⟨obj', ho, hrole⟩
    · rw [ho] at hobj
      cases hobj
    · rw [ho] at hobj
      cases hobj
      exact hrole
  | closed hnone hserver hw =>
    rw [generated_none hnone, List.append_nil, hw]
    exact h.close hserver
  | destroyed hnone hw =>
    rw [generated_none hnone, List.append_nil]
    exact (h.destroyed hw).1

theorem exact_step (hp : p.Typed) (h : World.Exact known p.world) (hok : p.AcceptsWhole i)
    (hnew : ((known ++ p.generated i).map Prod.fst).Nodup) (hs : step p i = .ok p') :
    World.Exact (known ++ p.generated i) p'.world := by
  cases session_step hp hs with
  | same hnone hsame =>
    rw [generated_none hnone, List.append_nil]
    exact h.same hsame hp.world
  | @accepted a o hadds hnext hhash hobjs ho =>
    obtain ⟨obj, rfl, hrole⟩ := ho.resolve_left fun hfailed => hok a hadds hfailed.2
    rw [generated_some hadds] at hnew ⊢
    refine h.accepted hnext hhash hobjs hrole fun hmem => ?_
    rw [List.map_append, List.nodup_append] at hnew
    exact hnew.2.2 _ (List.map_subset _ h.hash hmem) _ (by simp) rfl
  | closed hnone hserver hw =>
    rw [generated_none hnone, List.append_nil, hw]
    exact h.close hserver
  | destroyed hnone hw =>
    rw [generated_none hnone, List.append_nil]
    exact h.destroyed hw

/-! Runs from the start of the process. -/

variable {ok : Process K T → Input T → Prop} {now : T} {is : List (Input T)}

/-- The keys generated in a run, with the objects they were generated for. -/
def generatedKeys (now : T) (is : List (Input T)) : List (KcpevKey × ℕ) :=
  history (step (K := K)) Process.generated (.init now) is

theorem run_typed (hrun : Run step ok (.init now) is p) : p.Typed :=
  hrun.invariant (Process.typed_init now) fun hp _ hs => hp.step hs

omit [KcpImpl K] [ClockImpl T] in
theorem World.exact_init (now : T) : World.Exact [] (Process.init now : Process K T).world where
  role h := by cases h
  hash := List.nil_subset _
  session h := by cases h
  nodup := List.nodup_nil
  live h := by cases h
  keys := List.nodup_nil

/-- Every session of a run is registered. -/
theorem run_registered (hrun : Run step ok (.init now) is p) :
    World.Registered (generatedKeys (K := K) now is) p.world := by
  have hinv : p.Typed ∧ World.Registered (generatedKeys (K := K) now is) p.world :=
    hrun.invariant_history (P := fun known p => p.Typed ∧ World.Registered known p.world)
      ⟨Process.typed_init now, (World.exact_init now).toRegistered⟩
      fun ⟨hp, h⟩ _ hs => ⟨hp.step hs, registered_step hp h hs⟩
  exact hinv.2

/-- In a run in which no `tcp_accept` fails behind its `HASH_ADD`, and whose keys
are distinct, the hash is exact. -/
theorem run_hashExact (hrun : Run step Process.AcceptsWhole (.init now) is p)
    (hkeys : ((generatedKeys (K := K) now is).map Prod.fst).Nodup) :
    p.world.HashExact (generatedKeys (K := K) now is) := by
  have hinv : p.Typed ∧ (((generatedKeys (K := K) now is).map Prod.fst).Nodup →
      World.Exact (generatedKeys (K := K) now is) p.world) := by
    refine hrun.invariant_history (P := fun known p =>
      p.Typed ∧ ((known.map Prod.fst).Nodup → World.Exact known p.world)) ?_ ?_
    · exact ⟨Process.typed_init now, fun _ => World.exact_init now⟩
    · rintro known s i s' ⟨hp, h⟩ hok hs
      refine ⟨hp.step hs, fun hnew => exact_step hp (h ?_) hok hnew hs⟩
      rw [List.map_append] at hnew
      exact hnew.of_append_left
  exact (hinv.2 hkeys).hashExact hkeys

end Run

/-- The key of a client in the examples. -/
def sampleKey : KcpevKey := ⟨List.replicate 16 1, rfl⟩

/-- The frame of a handshake command with this key. -/
def handshakeFrame (command : Command) : Bytes :=
  frameBytes command.toByte [0, 0, 0] sampleKey.val

/-- A server accepts a client. -/
def oneAccept : List (Input ℕ) :=
  [.createServer (.sockets 3 4), .io 1 (.accepts (.connection 5 9 sampleKey))]

/-- The key of another client. -/
def otherKey : KcpevKey := ⟨List.replicate 16 2, rfl⟩

/-- Two clients are accepted, the first one finishes its handshake, and its connection
ends. -/
def busyServer : List (Input ℕ) :=
  oneAccept ++ [.io 1 (.accepts (.connection 6 8 otherKey)),
    .io 2 (.receives (handshakeFrame .shakeHand1) 9), .round (.socket 7),
    .io 2 (.receives (handshakeFrame .shakeHand2) 9), .round (.socket 9),
    .io 4 (.receives [] 0), .round (.socket 9)]

theorem run_hashExact_busyServer : ∃ p : Process Unit ℕ,
    Run step Process.AcceptsWhole (.init 0) busyServer p ∧
      p.world.HashExact (generatedKeys (K := Unit) 0 busyServer) ∧
      p.world.hash = [(otherKey, 5)] ∧ p.world.objs 3 = none := by
  obtain ⟨p, hrun, htest⟩ := Run.exists_of_exec (step (K := Unit)) Process.AcceptsWhole
    (.init 0) busyServer
    (fun p => p.world.hash = [(otherKey, 5)] ∧ (p.world.objs 3).isNone) (by decide)
  obtain ⟨hhash, hgone⟩ := of_decide_eq_true htest
  exact ⟨p, hrun, run_hashExact hrun (by decide), hhash, Option.isNone_iff_eq_none.mp hgone⟩

/-- The key cannot be sent to the client. -/
def failedAccept : List (Input ℕ) :=
  [.createServer (.sockets 3 4),
    .io 1 (.accepts
      { AcceptAnswer.connection 5 9 sampleKey with send := { stack := fun _ => 0, send := none } })]

/-- The client of a failed accept is destroyed, and found all the same. -/
theorem failed_accept_dangles : ∃ p : Process Unit ℕ,
    Run step (fun _ _ => True) (.init 0) failedAccept p ∧
      ((generatedKeys (K := Unit) 0 failedAccept).map Prod.fst).Nodup ∧
      ¬ p.world.HashExact (generatedKeys (K := Unit) 0 failedAccept) ∧
      (sampleKey, 3) ∈ p.world.hash ∧ p.world.objs 3 = none := by
  obtain ⟨p, hrun, htest⟩ := Run.exists_of_exec (step (K := Unit)) (fun _ _ => True)
    (.init 0) failedAccept (fun p => (sampleKey, 3) ∈ p.world.hash ∧ (p.world.objs 3).isNone)
    (by decide)
  obtain ⟨hmem, hdead⟩ : (sampleKey, 3) ∈ p.world.hash ∧ p.world.objs 3 = none := by
    simpa using htest
  refine ⟨p, hrun, by decide, fun hexact => ?_, hmem, hdead⟩
  have hlive := ((hexact.entries _ _).mp hmem).2
  rw [hdead] at hlive
  cases hlive

end KcpEv
