import KcpEv.Typed
import Mathlib.Data.List.Nodup

/-!
The hash of the server and its clients. In every run the live sessions are
registered under their keys, each once. The entries also lead to live sessions
as long as `tcp_accept` does not fail behind its `HASH_ADD`.
-/
namespace KcpEv

variable {K T : Type}

namespace World

/-- The key of the session at an address, while there is one. -/
def sessionKey (w : World K T) (c : ℕ) : Option KcpevKey := (w.objs c).bind Kcpev.role

/-- What holds without any condition, where `known` lists the keys generated so
far: an entry of the hash belongs to a session that may be gone, and a session
has its entry. -/
structure Registered (known : List (KcpevKey × ℕ)) (w : World K T) : Prop where
  role : ∀ {k c}, (k, c) ∈ known → c < w.os.next ∧ ∀ obj, w.objs c = some obj → obj.role = some k
  hash : w.hash ⊆ known
  session : ∀ {k c}, w.sessionKey c = some k → (k, c) ∈ w.hash
  nodup : (w.hash.map Prod.snd).Nodup

/-- The hash contains exactly the live sessions, and every key once. -/
structure Exact (known : List (KcpevKey × ℕ)) (w : World K T) : Prop
    extends Registered known w where
  live : ∀ {k c}, (k, c) ∈ w.hash → (w.objs c).isSome
  keys : (w.hash.map Prod.fst).Nodup

theorem sessionKey_eq_some {w : World K T} {c : ℕ} {k : KcpevKey} :
    w.sessionKey c = some k ↔
      ∃ obj, w.objs c = some obj ∧ obj.hasServer = true ∧ obj.key = k := by
  unfold sessionKey Kcpev.role
  rw [Option.bind_eq_some_iff]
  constructor
  · rintro ⟨obj, hobj, hrole⟩
    split at hrole
    · cases hrole
      exact ⟨obj, hobj, by assumption, rfl⟩
    · cases hrole
  · rintro ⟨obj, hobj, hserver, rfl⟩
    exact ⟨obj, hobj, if_pos hserver⟩

theorem hash_some {w : World K T} {server : KcpevServer T} (h : w.server = some server) :
    w.hash = server.hash := by
  simp [hash, h]

/-- The objects that change keep their kind and, if they are sessions, their key;
the new ones are no sessions. -/
structure SameSessions (w w' : World K T) : Prop where
  next : w.os.next ≤ w'.os.next
  hash : w'.hash = w.hash
  old : ∀ {c}, c < w.os.next → (w'.objs c).map Kcpev.role = (w.objs c).map Kcpev.role
  new : ∀ {c obj}, w.os.next ≤ c → w'.objs c = some obj → obj.role = none

theorem Quiet.sameSessions {w w' : World K T} (h : w.Quiet w')
    (hfresh : ∀ {c}, w.os.next ≤ c → w.objs c = none) : w.SameSessions w' where
  next := h.os.next.ge
  hash := h.hash
  old _ := h.role _
  new {c obj} hc hobj := by
    have hnone := h.isSome c
    rw [hobj, hfresh hc] at hnone
    cases hnone

theorem SameSessions.trans {w w' w'' : World K T} (h : w.SameSessions w')
    (h' : w'.SameSessions w'') : w.SameSessions w'' where
  next := h.next.trans h'.next
  hash := h'.hash.trans h.hash
  old hc := (h'.old (hc.trans_le h.next)).trans (h.old hc)
  new {c obj} hc hobj := by
    rcases Nat.lt_or_ge c w'.os.next with hlt | hge
    · have hrole := h'.old hlt
      rw [hobj, Option.map_some] at hrole
      obtain ⟨obj', hobj', hr⟩ := Option.map_eq_some_iff.mp hrole.symm
      rw [← hr]
      exact h.new hc hobj'
    · exact h'.new hge hobj

theorem sameSessions_store {w : World K T} {os : Os K T} {c : ℕ} {obj obj' : Kcpev T}
    (ht : Typed w) (hnext : w.os.next ≤ os.next) (hobj : w.objs c = some obj)
    (hrole : obj'.role = obj.role) : w.SameSessions (w.store os c obj') where
  next := hnext
  hash := rfl
  old {c'} _ := by
    rcases eq_or_ne c' c with rfl | hne
    · simp [store, hobj, hrole]
    · simp [store, hne]
  new {c' obj''} hc' hobj' := by
    have hne : c' ≠ c := by
      rintro rfl
      rw [ht.fresh hc'] at hobj
      cases hobj
    simp only [store, Function.update_of_ne hne, ht.fresh hc'] at hobj'
    cases hobj'

/-- One object changes, and then nothing that matters. -/
theorem sameSessions_store_quiet {w w' : World K T} {os : Os K T} {c : ℕ} {obj obj' : Kcpev T}
    (ht : Typed w) (hnext : w.os.next ≤ os.next) (hobj : w.objs c = some obj)
    (hrole : obj'.role = obj.role) (hquiet : (w.store os c obj').Quiet w') :
    w.SameSessions w' := by
  refine (sameSessions_store ht hnext hobj hrole).trans (hquiet.sameSessions fun {c'} hc' => ?_)
  have hfresh := ht.fresh (hnext.trans hc')
  have hne : c' ≠ c := by
    rintro rfl
    rw [hfresh] at hobj
    cases hobj
  simp only [store, Function.update_of_ne hne, hfresh]

theorem sessionKey_map (w : World K T) (c : ℕ) :
    w.sessionKey c = ((w.objs c).map Kcpev.role).join := by
  unfold World.sessionKey
  rcases w.objs c with _ | obj
  · rfl
  · rfl

theorem SameSessions.sessionKey {w w' : World K T} (h : w.SameSessions w') (ht : Typed w) (c : ℕ) :
    w'.sessionKey c = w.sessionKey c := by
  rcases Nat.lt_or_ge c w.os.next with hlt | hge
  · rw [sessionKey_map, sessionKey_map, h.old hlt]
  · unfold World.sessionKey
    rw [ht.fresh hge, Option.bind_none]
    rcases hobj : w'.objs c with _ | obj
    · rfl
    · exact h.new hge hobj

section Same
variable {w w' : World K T} {known : List (KcpevKey × ℕ)}

theorem Registered.same (h : Registered known w) (hs : w.SameSessions w') (ht : Typed w) :
    Registered known w' where
  role {k c} he := by
    obtain ⟨hlt, hrole⟩ := h.role he
    refine ⟨hlt.trans_le hs.next, fun obj hobj => ?_⟩
    have hold := hs.old hlt
    rw [hobj, Option.map_some] at hold
    obtain ⟨obj', hobj', hr⟩ := Option.map_eq_some_iff.mp hold.symm
    rw [← hr]
    exact hrole obj' hobj'
  hash := by
    rw [hs.hash]
    exact h.hash
  session {k c} hk := by
    rw [hs.sessionKey ht] at hk
    rw [hs.hash]
    exact h.session hk
  nodup := by
    rw [hs.hash]
    exact h.nodup

theorem Exact.same (h : Exact known w) (hs : w.SameSessions w') (ht : Typed w) :
    Exact known w' where
  toRegistered := h.toRegistered.same hs ht
  live {k c} he := by
    rw [hs.hash] at he
    have hold := congrArg Option.isSome (hs.old (h.role (h.hash he)).1)
    simp only [Option.isSome_map] at hold
    rw [hold]
    exact h.live he
  keys := by
    rw [hs.hash]
    exact h.keys

end Same

/-- An entry of the hash is a session, if it is alive. -/
theorem Registered.hasServer_of_mem {w : World K T} {known : List (KcpevKey × ℕ)}
    (h : Registered known w) {key : KcpevKey} {c : ℕ} {obj : Kcpev T} (hmem : (key, c) ∈ w.hash)
    (hobj : w.objs c = some obj) : obj.hasServer = true ∧ obj.key = key := by
  have hrole := (h.role (h.hash hmem)).2 obj hobj
  unfold Kcpev.role at hrole
  split at hrole
  · rename_i hsession
    exact ⟨hsession, Option.some.inj hrole⟩
  · cases hrole

theorem Registered.hasServer_of_find {w : World K T} {known : List (KcpevKey × ℕ)}
    (h : Registered known w) {server : KcpevServer T} {key : KcpevKey} {c : ℕ} {obj : Kcpev T}
    (hserver : w.server = some server) (hfind : server.hashFind key = some c)
    (hobj : w.objs c = some obj) : obj.hasServer = true ∧ obj.key = key := by
  have hmem := KcpevServer.hashFind_mem hfind
  rw [← hash_some hserver] at hmem
  exact h.hasServer_of_mem hmem hobj

/-! The end of objects. -/

theorem deleteHash_objs {w w' : World K T} {l : List (KcpevKey × ℕ)}
    (h : w.deleteHash l = .ok w') :
    w.os.next ≤ w'.os.next ∧
      ∀ c, w'.objs c = if c ∈ l.map Prod.snd then none else w.objs c := by
  induction l generalizing w with
  | nil =>
    cases h
    exact ⟨le_rfl, fun c => by simp⟩
  | cons e rest ih =>
    obtain ⟨w₁, hdestroy, h⟩ := bind_eq_ok.mp h
    obtain ⟨client, -, hdestroy⟩ := bind_eq_ok.mp hdestroy
    cases hdestroy
    obtain ⟨hnext, hobjs⟩ := ih h
    have hstarts : w.os.Starts (fun _ => False) (client.toKcpevBase.destroy w.os) :=
      Os.Starts.destroy _ _
    refine ⟨hstarts.next.trans hnext, fun c => ?_⟩
    rw [hobjs c]
    by_cases hc : c = e.2
    · subst hc
      simp [destroyKcpev]
    · simp only [destroyKcpev, Function.update_of_ne hc, List.map_cons, List.mem_cons, hc, false_or]

/-- Every object of a list without repetitions is alive when its turn comes. -/
theorem deleteHash_ok {w : World K T} {l : List (KcpevKey × ℕ)} (hnodup : (l.map Prod.snd).Nodup)
    (hlive : ∀ e ∈ l, (w.objs e.2).isSome) : ∃ w', w.deleteHash l = .ok w' := by
  induction l generalizing w with
  | nil => exact ⟨w, rfl⟩
  | cons e rest ih =>
    obtain ⟨client, hclient⟩ := Option.isSome_iff_exists.mp (hlive e List.mem_cons_self)
    rw [List.map_cons, List.nodup_cons] at hnodup
    obtain ⟨w', hw'⟩ := @ih (w.destroyKcpev e.2 client) hnodup.2 fun e' he' => by
      have hne : e'.2 ≠ e.2 := by
        intro heq
        exact hnodup.1 (heq ▸ List.mem_map_of_mem he')
      simp only [destroyKcpev, Function.update_of_ne hne]
      exact hlive e' (List.mem_cons_of_mem _ he')
    refine ⟨w', ?_⟩
    simp only [deleteHash, kcpevDestroy, kcpev, hclient, bind, Except.bind, pure, Except.pure]
    exact hw'

theorem kcpevServerDestroy_cases {w w' : World K T} (h : w.kcpevServerDestroy = .ok w') :
    w.os.next ≤ w'.os.next ∧ w'.server = none ∧
      ∀ c, w'.objs c = if c ∈ w.hash.map Prod.snd then none else w.objs c := by
  obtain ⟨server, hserver, h⟩ := bind_eq_ok.mp h
  rw [kcpevServer_ok] at hserver
  obtain ⟨w₁, hdelete, h⟩ := bind_eq_ok.mp h
  cases h
  obtain ⟨hnext, hobjs⟩ := deleteHash_objs hdelete
  have hstarts : w.os.Starts (fun _ => False) (server.toKcpevBase.destroy w.os) :=
    Os.Starts.destroy _ _
  refine ⟨hstarts.next.trans hnext, rfl, fun c => ?_⟩
  rw [hash_some hserver]
  simpa only [List.map_reverse, List.mem_reverse] using hobjs c

/-- The server is destroyed without an object being destroyed twice. -/
theorem Exact.serverDestroy {w : World K T} {known : List (KcpevKey × ℕ)} (h : Exact known w)
    (hserver : w.server.isSome) :
    ∃ w', w.kcpevServerDestroy = .ok w' := by
  obtain ⟨server, hs⟩ := Option.isSome_iff_exists.mp hserver
  have hhash := hash_some hs
  have hnodup : (server.hash.reverse.map Prod.snd).Nodup := by
    rw [List.map_reverse, List.nodup_reverse, ← hhash]
    exact h.nodup
  obtain ⟨w', hw'⟩ := deleteHash_ok (w := { w with os := server.toKcpevBase.destroy w.os }) hnodup
    fun e he => by
      rw [List.mem_reverse, ← hhash] at he
      exact h.live he
  refine ⟨{ w' with server := none }, bind_eq_ok.mpr ⟨server, kcpevServer_ok.mpr hs, ?_⟩⟩
  exact bind_eq_ok.mpr ⟨w', hw', rfl⟩

theorem closeClient_cases {w w' : World K T} {c : ℕ} (h : w.closeClient c = .ok w') :
    ∃ client server, w.objs c = some client ∧ client.hasServer = true ∧ w.server = some server ∧
      w' = { w with server := some (server.hashDel c) }.destroyKcpev c client := by
  obtain ⟨client, hclient, h⟩ := bind_eq_ok.mp h
  rw [kcpev_ok] at hclient
  split at h
  · cases h
  rename_i hs
  obtain ⟨server, hserver, h⟩ := bind_eq_ok.mp h
  rw [kcpevServer_ok] at hserver
  cases h
  exact ⟨client, server, hclient, by simpa using hs, hserver, rfl⟩

section Close
variable {w : World K T} {c : ℕ} {client : Kcpev T} {server : KcpevServer T}
  {known : List (KcpevKey × ℕ)}

theorem mem_hashDel {e : KcpevKey × ℕ} :
    e ∈ (server.hashDel c).hash ↔ e ∈ server.hash ∧ e.2 ≠ c := by
  simp [KcpevServer.hashDel]

theorem Registered.close (h : Registered known w) (hserver : w.server = some server) :
    Registered known ({ w with server := some (server.hashDel c) }.destroyKcpev c client) where
  role {k c'} he := by
    have hstarts : w.os.Starts (fun _ => False) (client.toKcpevBase.destroy w.os) :=
      Os.Starts.destroy _ _
    obtain ⟨hlt, hrole⟩ := h.role he
    refine ⟨hlt.trans_le hstarts.next, fun obj hobj => ?_⟩
    rcases eq_or_ne c' c with rfl | hne
    · simp [destroyKcpev] at hobj
    · simp only [destroyKcpev, Function.update_of_ne hne] at hobj
      exact hrole obj hobj
  hash e he := by
    obtain ⟨hmem, -⟩ := mem_hashDel.mp he
    rw [← hash_some hserver] at hmem
    exact h.hash hmem
  session {k c'} hk := by
    have hne : c' ≠ c := by
      rintro rfl
      simp [sessionKey, destroyKcpev] at hk
    simp only [sessionKey, destroyKcpev, Function.update_of_ne hne] at hk
    refine mem_hashDel.mpr ⟨?_, hne⟩
    rw [← hash_some hserver]
    exact h.session hk
  nodup := by
    have hnodup := h.nodup
    rw [hash_some hserver] at hnodup
    exact hnodup.sublist (List.Sublist.map _ List.filter_sublist)

theorem Exact.close (h : Exact known w) (hserver : w.server = some server) :
    Exact known ({ w with server := some (server.hashDel c) }.destroyKcpev c client) where
  toRegistered := h.toRegistered.close hserver
  live {k c'} he := by
    obtain ⟨hmem, hne⟩ := mem_hashDel.mp he
    rw [← hash_some hserver] at hmem
    simp only [destroyKcpev, Function.update_of_ne hne]
    exact h.live hmem
  keys := by
    have hnodup := h.keys
    rw [hash_some hserver] at hnodup
    exact hnodup.sublist (List.Sublist.map _ List.filter_sublist)

end Close

section Destroy
variable {w w' : World K T} {known : List (KcpevKey × ℕ)}

/-- No session outlives its server, whose entry it has. -/
theorem Registered.destroyed (h : Registered known w) (hw : w.kcpevServerDestroy = .ok w') :
    Registered known w' ∧ w'.hash = [] := by
  obtain ⟨hnext, hserver, hobjs⟩ := kcpevServerDestroy_cases hw
  have hhash : w'.hash = [] := by simp [World.hash, hserver]
  refine ⟨⟨fun {k c} he => ?_, ?_, fun {k c} hk => ?_, ?_⟩, hhash⟩
  · obtain ⟨hlt, hrole⟩ := h.role he
    refine ⟨hlt.trans_le hnext, fun obj hobj => ?_⟩
    rw [hobjs c] at hobj
    split at hobj
    · cases hobj
    · exact hrole obj hobj
  · rw [hhash]
    exact List.nil_subset _
  · unfold sessionKey at hk
    rw [hobjs c] at hk
    split at hk
    · cases hk
    · rename_i hc
      exact absurd (List.mem_map_of_mem (f := Prod.snd) (h.session hk)) hc
  · rw [hhash]
    exact List.nodup_nil

theorem Exact.destroyed (h : Exact known w) (hw : w.kcpevServerDestroy = .ok w') :
    Exact known w' := by
  obtain ⟨hreg, hhash⟩ := h.toRegistered.destroyed hw
  refine ⟨hreg, fun {k c} he => ?_, ?_⟩
  · rw [hhash] at he
    cases he
  · rw [hhash]
    exact List.nodup_nil

end Destroy

section Accepted
variable {w w' : World K T} {known : List (KcpevKey × ℕ)} {key : KcpevKey} {o : Option (Kcpev T)}

/-- `HASH_ADD` of a new key, for an object that is created or already gone. -/
theorem Registered.accepted (h : Registered known w) (hnext : w.os.next < w'.os.next)
    (hhash : w'.hash = (key, w.os.next) :: w.hash)
    (hobjs : w'.objs = Function.update w.objs w.os.next o)
    (ho : ∀ obj, o = some obj → obj.role = some key) :
    Registered (known ++ [(key, w.os.next)]) w' where
  role {k c} he := by
    rcases List.mem_append.mp he with he | he
    · obtain ⟨hlt, hrole⟩ := h.role he
      refine ⟨hlt.trans hnext, fun obj hobj => ?_⟩
      rw [hobjs, Function.update_of_ne (Nat.ne_of_lt hlt)] at hobj
      exact hrole obj hobj
    · cases List.mem_singleton.mp he
      refine ⟨hnext, fun obj hobj => ?_⟩
      rw [hobjs, Function.update_self] at hobj
      exact ho obj hobj
  hash := by
    rw [hhash, List.cons_subset]
    constructor
    · simp
    · exact fun e he => List.mem_append_left _ (h.hash he)
  session {k c} hk := by
    rw [hhash]
    unfold sessionKey at hk
    rcases eq_or_ne c w.os.next with rfl | hne
    · rw [hobjs, Function.update_self, Option.bind_eq_some_iff] at hk
      obtain ⟨obj, hobj, hrole⟩ := hk
      rw [ho obj hobj] at hrole
      cases hrole
      exact List.mem_cons_self
    · rw [hobjs, Function.update_of_ne hne] at hk
      exact List.mem_cons_of_mem _ (h.session hk)
  nodup := by
    rw [hhash, List.map_cons, List.nodup_cons]
    refine ⟨fun hmem => ?_, h.nodup⟩
    obtain ⟨⟨k, c⟩, he, hc⟩ := List.mem_map.mp hmem
    have hlt := (h.role (h.hash he)).1
    dsimp only at hc
    omega

theorem Exact.accepted (h : Exact known w) (hnext : w.os.next < w'.os.next)
    (hhash : w'.hash = (key, w.os.next) :: w.hash) {obj : Kcpev T}
    (hobjs : w'.objs = Function.update w.objs w.os.next (some obj)) (ho : obj.role = some key)
    (hkey : key ∉ w.hash.map Prod.fst) : Exact (known ++ [(key, w.os.next)]) w' where
  toRegistered := h.toRegistered.accepted hnext hhash hobjs fun obj' hobj => by
    rw [← Option.some.inj hobj]
    exact ho
  live {k c} he := by
    rw [hhash] at he
    rcases List.mem_cons.mp he with heq | he
    · cases heq
      simp [hobjs]
    · have hne := Nat.ne_of_lt (h.role (h.hash he)).1
      rw [hobjs, Function.update_of_ne hne]
      exact h.live he
  keys := by
    rw [hhash, List.map_cons, List.nodup_cons]
    exact ⟨hkey, h.keys⟩

end Accepted

/-! One step. -/

theorem role_fresh {w : World K T} (ht : Typed w) {c : ℕ} {obj : Kcpev T} (hc : w.os.next ≤ c)
    (hobj : w.objs c = some obj) : obj.role = none := by
  rw [ht.fresh hc] at hobj
  cases hobj

theorem sameSessions_new {w w' : World K T} (hnext : w.os.next ≤ w'.os.next)
    (hhash : w'.hash = w.hash)
    (hold : ∀ {c}, c < w.os.next → w'.objs c = w.objs c)
    (hnew : ∀ {c obj}, w.os.next ≤ c → w'.objs c = some obj → obj.role = none) :
    w.SameSessions w' :=
  ⟨hnext, hhash, fun hc => by rw [hold hc], hnew⟩

theorem sameSessions_createClient [KcpImpl K] [ClockImpl T] {w : World K T} (ht : Typed w)
    (a : CreateClientAnswer) : w.SameSessions (kcpevCreateClient w a) := by
  rcases kcpevCreateClient_cases w a with hw | ⟨os, b, hborn, hnext, hw | ⟨-, hw⟩⟩
  · rw [hw]
    exact sameSessions_new le_rfl rfl (fun _ => rfl) (role_fresh ht)
  · rw [hw]
    have hstarts := hborn.starts.trans (Os.Starts.destroy os b)
    exact sameSessions_new hstarts.next rfl (fun _ => rfl) (role_fresh ht)
  · rw [hw]
    refine sameSessions_new hborn.starts.next rfl (fun {c} hc => ?_) (fun {c obj} hc hobj => ?_)
    · exact Function.update_of_ne (Nat.ne_of_lt hc) _ _
    · rcases eq_or_ne c w.os.next with rfl | hne
      · simp only [store, Function.update_self, Option.some.injEq] at hobj
        rw [← hobj]
        rfl
      · simp only [store, Function.update_of_ne hne] at hobj
        exact role_fresh ht hc hobj

theorem sameSessions_createServer [ClockImpl T] {w : World K T} (ht : Typed w)
    (hserver : w.server = none) (a : CreateServerAnswer) :
    w.SameSessions (kcpevCreateServer w a) := by
  rcases kcpevCreateServer_cases w a with hw | ⟨os, b, hborn, hw | hw⟩
  · rw [hw]
    exact sameSessions_new le_rfl rfl (fun _ => rfl) (role_fresh ht)
  · rw [hw]
    have hstarts := hborn.starts.trans (Os.Starts.destroy os b)
    exact sameSessions_new hstarts.next rfl (fun _ => rfl) (role_fresh ht)
  · rw [hw]
    refine sameSessions_new hborn.starts.next ?_ (fun _ => rfl) (role_fresh ht)
    simp [hash, hserver, kcpevServerCreate]

end World

/-- The connection with which `tcp_accept` gets as far as `HASH_ADD` in a step. -/
def Process.hashAdds (p : Process K T) (i : Input T) : Option AcceptAnswer :=
  match i, p.ctl with
  | .io q io, .loop =>
    match p.world.os.ios q with
    | some e =>
      if e.cb = .tcpAccept ∧ e.data = .server then
        io.accept.filter fun a => a.Adds p.world.os e.fd
      else none
    | none => none
  | _, _ => none

/-- What `uuid_generate` gives in a step, with the object that gets it. -/
def Process.generated (p : Process K T) (i : Input T) : List (KcpevKey × ℕ) :=
  (p.hashAdds i).toList.map fun a => (a.uuid, p.world.os.next)

theorem hashAdds_cases {p : Process K T} {i : Input T} {a : AcceptAnswer}
    (h : p.hashAdds i = some a) : ∃ q io e, i = .io q io ∧ p.ctl = .loop ∧
      p.world.os.ios q = some e ∧ e.cb = .tcpAccept ∧ e.data = .server ∧ io.accept = some a ∧
      a.Adds p.world.os e.fd := by
  unfold Process.hashAdds at h
  split at h
  · rename_i _ q io hctl
    split at h
    · rename_i e he
      split at h
      · rename_i hcb
        obtain ⟨hio, hadds⟩ := Option.filter_eq_some_iff.mp h
        exact ⟨q, io, e, rfl, hctl, he, hcb.1, hcb.2, hio, by simpa using hadds⟩
      · cases h
    · cases h
  · cases h

theorem role_congr {obj obj' : Kcpev T} (hkey : obj'.key = obj.key)
    (hserver : obj'.hasServer = obj.hasServer) : obj'.role = obj.role := by
  unfold Kcpev.role
  rw [hkey, hserver]

section Effect
variable [KcpImpl K] [ClockImpl T]

/-- What a step does to the hash and the sessions. -/
inductive SessionEffect (p : Process K T) (i : Input T) (w : World K T) : Prop
  | same (hnone : p.hashAdds i = none) (hsame : p.world.SameSessions w)
  | accepted {a : AcceptAnswer} {o : Option (Kcpev T)} (hadds : p.hashAdds i = some a)
    (hnext : p.world.os.next < w.os.next)
    (hhash : w.hash = (a.uuid, p.world.os.next) :: p.world.hash)
    (hobjs : w.objs = Function.update p.world.objs p.world.os.next o)
    (ho : o = none ∧ a.Fails ∨ ∃ obj, o = some obj ∧ obj.role = some a.uuid)
  | closed {c : ℕ} {client : Kcpev T} {server : KcpevServer T} (hnone : p.hashAdds i = none)
    (hserver : p.world.server = some server)
    (hw : w = { p.world with server := some (server.hashDel c) }.destroyKcpev c client)
  | destroyed (hnone : p.hashAdds i = none) (hw : p.world.kcpevServerDestroy = .ok w)

theorem session_accept {p p' : Process K T} {i : Input T} {a : AcceptAnswer} (ht : Typed p.world)
    (hadds : p.hashAdds i = some a) (hs : step p i = .ok p') : SessionEffect p i p'.world := by
  obtain ⟨q, io, e, rfl, hctl, he, hcb, hdata, hio, hreach⟩ := hashAdds_cases hadds
  simp only [step, hctl, he, ioEvent, hcb, hdata] at hs
  obtain ⟨⟨w, ctl⟩, hevent, hs⟩ := bind_eq_ok.mp hs
  cases hs
  obtain ⟨w₁, hw, hevent⟩ := bind_eq_ok.mp hevent
  cases hevent
  rw [hio] at hw
  cases tcpAccept_cases hw with
  | nothing hnot => exact absurd hreach (hnot a rfl)
  | zero ha hsock hfree =>
    cases ha
    exact absurd hsock hreach.2.2.1
  | @failed _ server os b ha _ hserver hborn hnext hfails =>
    cases ha
    have hdestroy : os.Starts (fun _ => False) (b.destroy os) := Os.Starts.destroy os b
    refine .accepted hadds (hnext.trans_le hdestroy.next) ?_ ?_ (Or.inl ⟨rfl, hfails⟩)
    · rw [World.hash_some hserver]
      rfl
    · rw [← ht.fresh le_rfl, Function.update_eq_self]
  | @added _ server os os' b s ha _ hserver hborn hnext hudp hsend =>
    cases ha
    have hsame := (keeps_sockSendCommand hsend).toSame
    refine .accepted hadds (hnext.trans_le hsame.next.ge) ?_ rfl (Or.inr ⟨_, rfl, rfl⟩)
    rw [World.hash_some hserver]
    rfl

theorem session_effect {p : Process K T} {i : Input T} {w : World K T} (ht : Typed p.world)
    (hnone : p.hashAdds i = none) (he : Effect p i w) : SessionEffect p i w := by
  cases he with
  | quiet hquiet => exact .same hnone (hquiet.sameSessions ht.fresh)
  | data hdata =>
    exact .same hnone (World.sameSessions_new le_rfl rfl (fun _ => rfl) (World.role_fresh ht))
  | createClient hi => exact .same hnone (World.sameSessions_createClient ht _)
  | createServer hi hserver => exact .same hnone (World.sameSessions_createServer ht hserver _)
  | serverDestroy hi hctl hw => exact .destroyed hnone hw
  | connect hi hobj hclient hconn =>
    have hstarts : p.world.os.Starts (fun _ => False) _ := Os.Starts.kcpevConnect hconn
    exact .same hnone (World.sameSessions_store ht hstarts.next hobj rfl)
  | @accept q a e w hi hctl he hcb hdata hw =>
    have habsurd : ∀ {a' : AcceptAnswer}, a.accept = some a' → ¬ a'.Adds p.world.os e.fd := by
      intro a' ha hadds
      simp [Process.hashAdds, hi, hctl, he, hcb, hdata, ha, hadds] at hnone
    cases tcpAccept_cases hw with
    | nothing hnot =>
      exact .same hnone (World.sameSessions_new le_rfl rfl (fun _ => rfl) (World.role_fresh ht))
    | zero ha hsock hfree =>
      exact .same hnone (World.sameSessions_new le_rfl rfl (fun _ => rfl) (World.role_fresh ht))
    | failed ha hadds => exact absurd hadds (habsurd ha)
    | added ha hadds => exact absurd hadds (habsurd ha)
  | close hctl hw =>
    obtain ⟨client, server, -, -, hserver, rfl⟩ := World.closeClient_cases hw
    exact .closed hnone hserver rfl
  | connectSession hframe hfind hconn hquiet =>
    obtain ⟨server, key, -, -, -, hobj⟩ := hfind
    obtain ⟨hstarts, hkey, hserver⟩ := Os.Starts.connectClientUdp (P := fun _ => True)
      (fun _ => trivial) hconn
    refine .same hnone (World.sameSessions_store_quiet ht hstarts.next hobj ?_ hquiet)
    exact role_congr hkey hserver
  | serverTimers hframe hfind hstatus htimer hquiet =>
    obtain ⟨server, key, -, -, -, hobj⟩ := hfind
    have hstarts := Os.Starts.createTimer (P := fun _ => False) htimer
    refine .same hnone (World.sameSessions_store_quiet ht hstarts.next hobj ?_ hquiet)
    exact role_congr rfl rfl
  | clientTimers hframe hobj hparse hsock hstatus hsend htimer hquiet =>
    have hsent := (keeps_sockSendCommand hsend).toSame.next.ge
    have hstarts := Os.Starts.createTimer (P := fun _ => False) htimer
    refine .same hnone
      (World.sameSessions_store_quiet ht (hsent.trans hstarts.next) hobj ?_ hquiet)
    exact role_congr rfl rfl

theorem session_step {p p' : Process K T} {i : Input T} (hp : p.Typed) (hs : step p i = .ok p') :
    SessionEffect p i p'.world := by
  rcases hadds : p.hashAdds i with _ | a
  · exact session_effect hp.world hadds (step_effect hp hs)
  · exact session_accept hp.world hadds hs

end Effect

end KcpEv
