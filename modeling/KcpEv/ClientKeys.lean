import KcpEv.Hosts

/-!
What a client keeps of a handshake: the key of its session, and since it has got ready its
timers and the conversation number of the key. It sends no message of a handshake with
another key.
-/
namespace KcpEv

open Guarded

variable {K T : Type}

/-- The object is in the middle of a handshake, or ready. -/
def Kcpev.Engaged (obj : Kcpev T) : Prop := obj.udp.status = .shakingHand ∨ obj.udp.status = .ready

/-- An object keeps what it has of a path and goes no further in a handshake. -/
structure Kcpev.Keeps (obj obj' : Kcpev T) : Prop where
  key : obj'.key = obj.key
  kcp : obj'.udp.kcp = obj.udp.kcp
  evt : obj'.udp.evt = obj.udp.evt
  sock : obj'.udp.sock = obj.udp.sock ∨ obj.hasServer = false
  status : obj'.udp.status = obj.udp.status ∨ obj'.udp.status = .invalid

theorem Kcpev.Keeps.refl (obj : Kcpev T) : obj.Keeps obj :=
  ⟨rfl, rfl, rfl, Or.inl rfl, Or.inl rfl⟩

theorem Kcpev.Still.keeps {obj obj' : Kcpev T} (h : obj.Still obj') : obj.Keeps obj' :=
  ⟨h.key, h.kcp, h.evt, h.sock.imp_right And.left, Or.inl h.status⟩

theorem Kcpev.keeps_invalid (obj : Kcpev T) :
    obj.Keeps { obj with udp := obj.udp.setKcpInvalid } := by
  rw [KcpevUdp.setKcpInvalid_eq]
  exact ⟨rfl, rfl, rfl, Or.inl rfl, Or.inr rfl⟩

theorem Kcpev.Keeps.engaged {obj obj' : Kcpev T} (h : obj.Keeps obj') (hengaged : obj'.Engaged) :
    obj.Engaged := by
  rcases h.status with hsame | hinvalid
  · unfold Engaged at hengaged ⊢
    rwa [hsame] at hengaged
  · rcases hengaged with hstatus | hstatus
    · cases hinvalid.symm.trans hstatus
    · cases hinvalid.symm.trans hstatus

theorem Kcpev.Keeps.ready {obj obj' : Kcpev T} (h : obj.Keeps obj')
    (hready : obj'.udp.status = .ready) : obj.udp.status = .ready := by
  rcases h.status with hsame | hinvalid
  · rwa [hsame] at hready
  · cases hinvalid.symm.trans hready

/-- What a step does to the path of an object. -/
inductive Turn [KcpImpl K] [ClockImpl T] (p : Process (Logged K) T) (i : Input T) (c : ℕ)
    (obj obj' : Kcpev T) : Prop
  | keeps (hkeeps : obj.Keeps obj')
  | keyed {src : Source} {addr : Addr} {buf : Bytes} {a : RecvAnswer}
    (hframe : Dispatches p i src addr buf a) (hsrc : src.ToClient p.world c)
    (hparse : Parses buf .shakeHand1 obj'.key.val) (hkcp : obj'.udp.kcp = obj.udp.kcp)
    (hevt : obj'.udp.evt = obj.udp.evt)
    (hstatus : obj'.udp.status = obj.udp.status ∨ obj'.udp.status = .shakingHand)
  | ready {src : Source} {addr : Addr} {buf : Bytes} {a : RecvAnswer}
    (hframe : Dispatches p i src addr buf a) (hsrc : src.ToClient p.world c)
    (hparse : Parses buf .shakeHand2 obj.key.val) (hold : obj.udp.status = .shakingHand)
    (hready : obj'.udp.status = .ready) (hkey : obj'.key = obj.key)
    (hevt : obj'.udp.evt.isSome)
  | cleared {src : Source} {addr : Addr} {buf : Bytes} {a : RecvAnswer}
    {os : Os (Logged K) T} {client : Kcpev T} (hframe : Dispatches p i src addr buf a)
    (hsrc : src.ToServer p.world) (hname : a.getnameinfo)
    (hfind : Finds p.world buf .shakeHand1 c obj)
    (hfailed : connectClientUdp p.world.os c obj addr a = (os, client, -1))
    (hstatus : obj'.udp.status = obj.udp.status)
  | connected {src : Source} {addr : Addr} {buf : Bytes} {a : RecvAnswer}
    (hframe : Dispatches p i src addr buf a) (hsrc : src.ToServer p.world)
    (hfind : Finds p.world buf .shakeHand1 c obj) (hsock : obj'.udp.sock ≠ 0)
    (hkcp : obj'.udp.kcp = some p.world.os.next) (hkey : obj'.key = obj.key)
    (hstatus : obj'.udp.status = .shakingHand)
  | started {src : Source} {addr : Addr} {buf : Bytes} {a : RecvAnswer}
    (hframe : Dispatches p i src addr buf a) (hsrc : src.ToServer p.world)
    (hfind : Finds p.world buf .shakeHand2 c obj) (hold : obj.udp.status = .shakingHand)
    (hsock : obj'.udp.sock = obj.udp.sock) (hkcp : obj'.udp.kcp = obj.udp.kcp)
    (hkey : obj'.key = obj.key)

section Act
variable [KcpImpl K] [ClockImpl T] {p p' : Process (Logged K) T} {i : Input T} {c : ℕ}
  {obj obj' : Kcpev T} {t : Traffic}

theorem Act.turn (h : Act p i c obj obj' t) : Turn p i c obj obj' := by
  cases h with
  | still hstill => exact .keeps hstill.keeps
  | confirm _ _ _ _ _ hstill => exact .keeps hstill.keeps
  | data hobj | segments _ hobj | ask _ _ _ _ hobj | reply _ _ _ _ _ _ hobj =>
    rw [hobj]
    exact .keeps (.refl obj)
  | clientLate _ _ _ hobj | serverLate _ _ _ _ _ hobj | told _ _ _ _ hobj =>
    rw [hobj]
    exact .keeps obj.keeps_invalid
  | refresh _ _ _ _ _ _ _ _ hobj | echo _ _ _ _ _ _ _ hobj =>
    rw [hobj]
    exact .keeps ⟨rfl, rfl, rfl, Or.inl rfl, Or.inl rfl⟩
  | keyed hframe hsrc hparse _ _ hobj =>
    rw [hobj]
    refine .keyed hframe hsrc hparse ?_ ?_ ?_
    all_goals dsimp only
    all_goals split
    · rfl
    · rfl
    · rfl
    · rfl
    · exact Or.inr rfl
    · exact Or.inl rfl
  | ready hframe hsrc hparse _ hstatus _ _ hobj =>
    rw [hobj]
    exact .ready hframe hsrc hparse hstatus rfl rfl rfl
  | cleared hframe hsrc hname hfind hfailed hobj =>
    rw [hobj]
    exact .cleared hframe hsrc hname hfind hfailed rfl
  | connected hframe hsrc hfind hconn _ hobj =>
    rw [hobj]
    have hfields := hconn.fields
    refine .connected hframe hsrc hfind hconn.sock ?_ ?_ rfl
    · rw [hfields]
    · rw [hfields]
  | started hframe hsrc hfind hstatus _ hobj =>
    rw [hobj]
    exact .started hframe hsrc hfind hstatus rfl rfl rfl

/-- A client lives as long as its process. -/
theorem step_lives (hp : p.Typed) {known : List (KcpevKey × ℕ)}
    (hreg : World.Registered known p.world) (h : step p i = .ok p')
    (hobj : p.world.objs c = some obj) (hclient : obj.hasServer = false) :
    ∃ obj', p'.world.objs c = some obj' ∧ obj'.hasServer = false := by
  have heffect := step_effect hp h
  suffices hlives : ∃ obj', p'.world.objs c = some obj' by
    obtain ⟨obj', hobj'⟩ := hlives
    obtain ⟨old, hold, hserver⟩ :=
      (typed_effect hp.world heffect).ages.objs (hp.world.lt_next hobj) hobj'
    rw [hobj, Option.some.injEq] at hold
    rw [← hold, hclient] at hserver
    exact ⟨obj', hobj', hserver⟩
  have hold : c ≠ p.world.os.next := (hp.world.lt_next hobj).ne
  generalize p'.world = w' at heffect ⊢
  have stored : ∀ {os : Os (Logged K) T} {d : ℕ} {client : Kcpev T},
      ∃ obj', (p.world.store os d client).objs c = some obj' := by
    intro os d client
    rcases eq_or_ne c d with heq | hne
    · exact ⟨client, by simp [World.store, heq]⟩
    · exact ⟨obj, by simpa [World.store, hne] using hobj⟩
  have quiet : ∀ {w : World (Logged K) T}, (∃ obj', w.objs c = some obj') → w.Quiet w' →
      ∃ obj', w'.objs c = some obj' := by
    intro w hw hquiet
    rw [← Option.isSome_iff_exists] at hw ⊢
    rw [hquiet.isSome c]
    exact hw
  cases heffect with
  | quiet hquiet => exact quiet ⟨obj, hobj⟩ hquiet
  | data => exact ⟨obj, hobj⟩
  | @createClient a =>
    rcases kcpevCreateClient_cases p.world a with heq | ⟨os, b, -, -, heq | ⟨-, heq⟩⟩
    · exact ⟨obj, by rw [heq]; exact hobj⟩
    · exact ⟨obj, by rw [heq]; exact hobj⟩
    · rw [heq]
      exact stored
  | @createServer a =>
    rcases kcpevCreateServer_cases p.world a with heq | ⟨os, b, -, heq | heq⟩
    all_goals exact ⟨obj, by rw [heq]; exact hobj⟩
  | serverDestroy _ _ hw =>
    refine ⟨obj, ?_⟩
    rw [(World.kcpevServerDestroy_cases hw).2.2, if_neg, hobj]
    intro hmem
    obtain ⟨⟨k, d⟩, he, rfl⟩ := List.mem_map.mp hmem
    have hserver := (hreg.hasServer_of_mem he hobj).1
    rw [hclient] at hserver
    cases hserver
  | connect => exact stored
  | accept _ _ _ _ _ hw =>
    refine ⟨obj, ?_⟩
    cases tcpAccept_puts hw with
    | nothing _ hobjs => rw [hobjs, hobj]
    | lost _ _ hobjs => rw [hobjs, hobj]
    | added hc _ _ hobjs => rw [hobjs, Function.update_of_ne (by rw [hc]; exact hold), hobj]
  | @close d _ _ hw =>
    obtain ⟨client, server, hlive, hserver, -, rfl⟩ := World.closeClient_cases hw
    refine ⟨obj, ?_⟩
    have hne : c ≠ d := by
      rintro rfl
      rw [hobj, Option.some.injEq] at hlive
      rw [← hlive, hclient] at hserver
      cases hserver
    simpa [World.destroyKcpev, hne] using hobj
  | connectSession _ _ _ hquiet => exact quiet stored hquiet
  | serverTimers _ _ _ _ hquiet => exact quiet stored hquiet
  | clientTimers _ _ _ _ _ _ _ hquiet => exact quiet stored hquiet

end Act

/-! Clients. -/

variable {ι : Type}

/-- In this step a client gets ready with the key. -/
def Event.GetsReady (m : Event ι T) (n : ι) (c : ℕ) (key : KcpevKey) : Prop :=
  m.who = .client n ∧ ∃ obj obj', m.before.world.objs c = some obj ∧ obj.hasServer = false ∧
    obj.udp.status ≠ .ready ∧ m.after.world.objs c = some obj' ∧ obj'.udp.status = .ready ∧
      obj'.key = key

/-- In this step a client sends a message of a handshake in a datagram. -/
def Event.Hands (m : Event ι T) (n : ι) (c : ℕ) (command : Command) (key : KcpevKey) : Prop :=
  m.who = .client n ∧ ∃ buf, Event.Says m c false .udp buf ∧ Parses buf command key.val

section Clients
variable [ClockImpl T] [DecidableEq ι] {x : Wires ι T} {now : Host ι → T}
  {is : List (Host ι × Input T)} {l l' : Net ι T} {i : Input T} {n : ι} {c : ℕ}
  {obj obj' : Kcpev T} {m : Event ι T} {history : List (Event ι T)} {key : KcpevKey}

/-- A client has one key. -/
theorem key_unique (hrun : Run (Joint.step step) (Net.Honest x) (.init (hosts now)) is l)
    {key key' : KcpevKey} {s s' : ℕ} (h : (key, s) ∈ l.generated) (h' : (key', s') ∈ l.generated)
    (hpeer : x.peer s = x.peer s') : key = key' := by
  rw [x.one hpeer] at h
  exact (server_registered hrun).2 h h'

/-- What a step does to the path of a client. -/
inductive ClientTurn (x : Wires ι T) (l : Net ι T) (n : ι) (c : ℕ) (w' : World (Logged Ikcp) T)
    (obj obj' : Kcpev T) : Prop
  | keeps (hkeeps : obj.Keeps obj')
  | keyed {s : ℕ} (hkey : (obj'.key, s) ∈ l.generated) (hpeer : x.peer s = (n, c))
    (hkcp : obj'.udp.kcp = obj.udp.kcp) (hevt : obj'.udp.evt = obj.udp.evt)
    (hstatus : obj'.udp.status = obj.udp.status ∨ obj'.udp.status = .shakingHand)
  | ready (hold : obj.udp.status = .shakingHand) (hready : obj'.udp.status = .ready)
    (hkey : obj'.key = obj.key) (hevt : obj'.udp.evt.isSome) (hnum : w'.Numbered obj')

theorem client_turn (hrun : Run (Joint.step step) (Net.Honest x) (.init (hosts now)) is l)
    (hok : Net.Honest x l (.client n, i)) {p' : Process (Logged Ikcp) T}
    (hs : step (l.party (.client n)) i = .ok p')
    (hobj : (l.party (.client n)).world.objs c = some obj)
    (hobj' : p'.world.objs c = some obj') : ClientTurn x l n c p'.world obj obj' := by
  have hreg := host_regular hrun (.client n)
  have foreign : ∀ {src : Source} {addr : Addr} {buf data : Bytes} {command : Command}
      {a : RecvAnswer}, Dispatches (l.party (.client n)) i src addr buf a →
      src.ToServer (l.party (.client n)).world → Parses buf command data → ¬ command.IsHand := by
    intro src addr buf data command a hframe hsrc hparse hhand
    exact (client_hand hrun (hok.genuine src addr buf a hframe) hparse hhand).1 _ hsrc
  cases (step_act hreg.typed hreg.separate hs hobj hobj').turn with
  | keeps hkeeps => exact .keeps hkeeps
  | keyed hframe hsrc hparse hkcp hevt hstatus =>
    obtain ⟨s, hkey, hpeer⟩ := client_key hrun hok hframe hsrc hparse
    exact .keyed hkey hpeer hkcp hevt hstatus
  | ready hframe hsrc hparse hold hready hkey hevt =>
    have hnum := ready_numbered hframe hsrc hobj hparse hold hs hobj' hready
    exact .ready hold hready hkey hevt hnum
  | cleared hframe hsrc _ hfind =>
    obtain ⟨server, key, hparse, -⟩ := hfind
    exact absurd trivial (foreign hframe hsrc hparse)
  | connected hframe hsrc hfind =>
    obtain ⟨server, key, hparse, -⟩ := hfind
    exact absurd trivial (foreign hframe hsrc hparse)
  | started hframe hsrc hfind =>
    obtain ⟨server, key, hparse, -⟩ := hfind
    exact absurd trivial (foreign hframe hsrc hparse)

/-- A client that has a step behind it was there before, or it has just been created. -/
theorem client_object (hrun : Run (Joint.step step) (Net.Honest x) (.init (hosts now)) is l)
    (hok : Net.Honest x l (.client n, i)) {p' : Process (Logged Ikcp) T}
    (hs : step (l.party (.client n)) i = .ok p') (hobj' : p'.world.objs c = some obj')
    (hclient : obj'.hasServer = false) :
    (obj'.udp.status = .invalid ∧ obj'.udp.evt = none) ∨
      ∃ obj, (l.party (.client n)).world.objs c = some obj ∧ obj.hasServer = false ∧
        ClientTurn x l n c p'.world obj obj' := by
  have hreg := host_regular hrun (.client n)
  rcases step_object hreg.typed hreg.separate hs hobj' with ⟨-, hbirth⟩ | ⟨obj, hobj, hkind, -⟩
  · generalize (l.party (.client n)).world.traffic p'.world c = t at hbirth
    cases hbirth with
    | client _ hstatus hevt => exact Or.inl ⟨hstatus, hevt⟩
    | session hserver =>
      rw [hclient] at hserver
      cases hserver
  · exact Or.inr ⟨obj, hobj, hkind.symm.trans hclient, client_turn hrun hok hs hobj hobj'⟩

/-- A client that has begun a handshake has the key of its session. -/
theorem client_known (hrun : Run (Joint.step step) (Net.Honest x) (.init (hosts now)) is l)
    (hobj : (l.party (.client n)).world.objs c = some obj) (hclient : obj.hasServer = false)
    (hbegun : obj.Engaged ∨ obj.udp.evt.isSome) :
    ∃ s, (obj.key, s) ∈ l.generated ∧ x.peer s = (n, c) := by
  induction hrun generalizing obj with
  | nil => cases hobj
  | @snoc is l l' i hrun hok hs ih =>
    obtain ⟨h, i⟩ := i
    have later : (∃ s, (obj.key, s) ∈ l.generated ∧ x.peer s = (n, c)) →
        ∃ s, (obj.key, s) ∈ l'.generated ∧ x.peer s = (n, c) := by
      rintro ⟨s, hkey, hpeer⟩
      exact ⟨s, generated_mono hs hkey, hpeer⟩
    apply later
    by_cases hh : h = .client n
    · subst hh
      have hnext := (Joint.step_self hs).1
      rcases client_object hrun hok hnext hobj hclient with ⟨hstatus, hevt⟩ |
        ⟨old, hold, hkind, hturn⟩
      · rcases hbegun with (hshaking | hready) | hsome
        · cases hstatus.symm.trans hshaking
        · cases hstatus.symm.trans hready
        · rw [hevt] at hsome
          cases hsome
      · cases hturn with
        | keeps hkeeps =>
          rw [hkeeps.key]
          rw [hkeeps.evt] at hbegun
          exact ih hold hkind (hbegun.imp_left hkeeps.engaged)
        | keyed hkey hpeer => exact ⟨_, hkey, hpeer⟩
        | ready hshaking _ hkey =>
          rw [hkey]
          exact ih hold hkind (Or.inl (Or.inl hshaking))
    · rw [Joint.step_other hs (Ne.symm hh)] at hobj
      exact ih hobj hclient hbegun

/-- A client with timers has got ready with its key, and has numbered its KCP object. -/
theorem client_ready (hrun : Run (Joint.step step) (Net.Honest x) (.init (hosts now)) is l)
    (hobj : (l.party (.client n)).world.objs c = some obj) (hclient : obj.hasServer = false)
    (hevt : obj.udp.evt.isSome) :
    (l.party (.client n)).world.Numbered obj ∧ ∃ m ∈ l.history, Event.GetsReady m n c obj.key := by
  induction hrun generalizing obj with
  | nil => cases hobj
  | @snoc is l l' i hrun hok hs ih =>
    obtain ⟨h, i⟩ := i
    obtain ⟨hnext, hhistory⟩ := Joint.step_self hs
    by_cases hh : h = .client n
    · subst hh
      have hreg := host_regular hrun (.client n)
      -- the object has had its timers before, and still has its key and its KCP object
      have same : ∀ {old : Kcpev T}, (l.party (.client n)).world.objs c = some old →
          old.hasServer = false → old.udp.evt.isSome → obj.udp.kcp = old.udp.kcp →
          obj.key = old.key → (l'.party (.client n)).world.Numbered obj ∧
            ∃ m ∈ l'.history, Event.GetsReady m n c obj.key := by
        intro old hold hkind hsome hkcp hkey
        obtain ⟨hnum, hready⟩ := ih hold hkind hsome
        refine ⟨step_numbered hreg.typed hreg.separate hnext hold hobj hkcp hkey hnum, ?_⟩
        rw [hkey]
        exact Joint.step_past hs hready
      rcases client_object hrun hok hnext hobj hclient with ⟨-, hnone⟩ | ⟨old, hold, hkind, hturn⟩
      · rw [hnone] at hevt
        cases hevt
      · cases hturn with
        | keeps hkeeps =>
          rw [hkeeps.evt] at hevt
          exact same hold hkind hevt hkeeps.kcp hkeeps.key
        | keyed hkey hpeer hkcp hsame =>
          rw [hsame] at hevt
          obtain ⟨s, hkey', hpeer'⟩ := client_known hrun hold hkind (Or.inr hevt)
          exact same hold hkind hevt hkcp (key_unique hrun hkey hkey' (hpeer.trans hpeer'.symm))
        | ready hshaking hready _ _ hnum =>
          have hne : old.udp.status ≠ .ready := by
            rw [hshaking]
            decide
          rw [hhistory]
          exact ⟨hnum, _, List.mem_append_right _ (List.mem_singleton.mpr rfl), rfl,
            old, obj, hold, hkind, hne, hobj, hready, rfl⟩
    · rw [Joint.step_other hs (Ne.symm hh)] at hobj ⊢
      obtain ⟨hnum, hready⟩ := ih hobj hclient hevt
      exact ⟨hnum, Joint.step_past hs hready⟩

/-- A client that has got ready lives, and keeps its key and its timers. -/
theorem ready_lives (hrun : Run (Joint.step step) (Net.Honest x) (.init (hosts now)) is l)
    (hm : m ∈ l.history) (hready : Event.GetsReady m n c key) :
    ∃ obj, (l.party (.client n)).world.objs c = some obj ∧ obj.hasServer = false ∧
      obj.udp.evt.isSome ∧ obj.key = key := by
  induction hrun with
  | nil => cases hm
  | @snoc is l l' i hrun hok hs ih =>
    obtain ⟨h, i⟩ := i
    obtain ⟨hnext, hhistory⟩ := Joint.step_self hs
    rw [hhistory] at hm
    rcases List.mem_append.mp hm with hpast | hnew
    · obtain ⟨old, hold, hkind, hevt, hkey⟩ := ih hpast
      by_cases hh : h = .client n
      · subst hh
        have hreg := host_regular hrun (.client n)
        obtain ⟨known, hknown⟩ := hreg.registered
        obtain ⟨obj, hobj, hclient⟩ := step_lives hreg.typed hknown hnext hold hkind
        refine ⟨obj, hobj, hclient, ?_⟩
        cases client_turn hrun hok hnext hold hobj with
        | keeps hkeeps => exact ⟨by rw [hkeeps.evt]; exact hevt, hkeeps.key.trans hkey⟩
        | keyed hnewkey hpeer _ hsame =>
          obtain ⟨s, hkey', hpeer'⟩ := client_known hrun hold hkind (Or.inr hevt)
          rw [key_unique hrun hnewkey hkey' (hpeer.trans hpeer'.symm), hsame]
          exact ⟨hevt, hkey⟩
        | ready _ _ hsame hsome => exact ⟨hsome, hsame.trans hkey⟩
      · rw [Joint.step_other hs (Ne.symm hh)]
        exact ⟨old, hold, hkind, hevt, hkey⟩
    · rw [List.mem_singleton] at hnew
      subst hnew
      obtain ⟨rfl, old, obj, hold, hkind, hne, hobj, hstatus, hkey⟩ := hready
      have hreg := host_regular hrun (.client n)
      obtain ⟨known, hknown⟩ := hreg.registered
      obtain ⟨obj', hobj', hclient⟩ := step_lives hreg.typed hknown hnext hold hkind
      rw [hobj, Option.some.injEq] at hobj'
      rw [← hobj'] at hclient
      refine ⟨obj, hobj, hclient, ?_, hkey⟩
      cases client_turn hrun hok hnext hold hobj with
      | keeps hkeeps => exact absurd (hkeeps.ready hstatus) hne
      | keyed _ _ _ _ hsame =>
        rcases hsame with hsame | hshaking
        · exact absurd (hsame.symm.trans hstatus) hne
        · cases hshaking.symm.trans hstatus
      | ready _ _ _ hevt => exact hevt

/-- A client sends the key of its session, first when it gets it, and again when it gets
ready. -/
theorem taken_hands (htaken : Joint.Taken step (Net.Honest x) (hosts now) history m l)
    {command : Command} (hhands : Event.Hands m n c command key) :
    (command = .shakeHand1 ∧ ∃ s, (key, s) ∈ l.generated ∧ x.peer s = (n, c)) ∨
      (command = .shakeHand2 ∧ (Event.GetsReady m n c key ∨
        ∃ obj, (l.party (.client n)).world.objs c = some obj ∧ obj.hasServer = false ∧
          obj.udp.evt.isSome ∧ obj.key = key)) := by
  obtain ⟨hwho, buf, ⟨obj', hobj', hclient, hbuf⟩, hparse⟩ := hhands
  have hreg := taken_regular htaken
  obtain ⟨is, hrun⟩ := htaken.run
  have hok := htaken.ok
  have hbefore := htaken.before
  have hnext := htaken.next
  rw [hwho] at hok hbefore
  rcases step_object hreg.typed hreg.separate hnext hobj' with ⟨-, hbirth⟩ |
    ⟨obj, hobj, hkind, hact⟩
  · generalize m.before.world.traffic m.after.world c = t at hbirth hbuf
    cases hbirth with
    | client => cases hbuf
    | session => cases hbuf
  · rw [hclient] at hkind
    generalize m.before.world.traffic m.after.world c = t at hact hbuf
    cases hact with
    | data _ _ _ hudp =>
      rw [Traffic.on, hudp] at hbuf
      cases hbuf
    | segments _ _ hbufs => exact absurd hparse (emits_not_parses hreg.confined (hbufs buf hbuf))
    | keyed hframe hsrc hkey _ hparts =>
      obtain ⟨rfl, hdata, -⟩ := hparts.parses hbuf hparse
      rw [hbefore] at hframe hsrc
      rw [Subtype.ext hdata]
      exact Or.inl ⟨rfl, client_key hrun hok hframe hsrc hkey⟩
    | confirm hframe _ _ _ hparts _ hfailed =>
      obtain ⟨rfl, hdata, hret⟩ := hparts.parses hbuf hparse
      rw [hbefore] at hobj
      rcases hfailed with hne | hevt | hevh
      · exact absurd hret hne
      · exact Or.inr ⟨rfl, Or.inr ⟨obj, hobj, hkind.symm, hevt, (Subtype.ext hdata).symm⟩⟩
      · have hmemory := (hok.memory _ hframe.input).2.2.2
        rw [hevh] at hmemory
        cases hmemory
    | ready hframe _ _ _ hold _ hsent hready =>
      rw [List.mem_singleton.mp hbuf] at hparse
      obtain ⟨rfl, hdata⟩ := hsent.parses.unique hparse
      have hne : obj.udp.status ≠ .ready := by
        rw [hold]
        decide
      refine Or.inr ⟨rfl, Or.inl ⟨hwho, obj, obj', hobj, hkind.symm, hne, hobj', ?_, ?_⟩⟩
      · rw [hready]
      · rw [hready]
        exact (Subtype.ext hdata).symm
    | connected hframe hsrc hfind =>
      obtain ⟨server, k, hhand, -⟩ := hfind
      rw [hbefore] at hframe hsrc
      have hgenuine := hok.genuine _ _ _ _ hframe
      exact absurd hsrc ((client_hand hrun hgenuine hhand trivial).1 _)
    | still | ask | clientLate | serverLate | reply | refresh | echo | told | cleared | started =>
      cases hbuf

theorem hands_one (hrun : Run (Joint.step step) (Net.Honest x) (.init (hosts now)) is l)
    (hm : m ∈ l.history) (hhands : Event.Hands m n c .shakeHand1 key) :
    ∃ s, (key, s) ∈ l.generated ∧ x.peer s = (n, c) := by
  obtain ⟨l₀, htaken⟩ := Joint.taken hrun hm
  rcases taken_hands htaken hhands with ⟨-, s, hkey, hpeer⟩ | ⟨hno, -⟩
  · exact ⟨s, taken_generated htaken hkey, hpeer⟩
  · cases hno

/-- A client that sends the second message has got ready. -/
theorem hands_two (hrun : Run (Joint.step step) (Net.Honest x) (.init (hosts now)) is l)
    (hm : m ∈ l.history) (hhands : Event.Hands m n c .shakeHand2 key) :
    ∃ m₀ ∈ l.history, Event.GetsReady m₀ n c key := by
  obtain ⟨l₀, htaken⟩ := Joint.taken hrun hm
  rcases taken_hands htaken hhands with ⟨hno, -⟩ | ⟨-, hready | ⟨obj, hobj, hclient, hevt, rfl⟩⟩
  · cases hno
  · exact ⟨m, hm, hready⟩
  · obtain ⟨is₀, hrun₀⟩ := htaken.run
    obtain ⟨-, m₀, hm₀, hready⟩ := client_ready hrun₀ hobj hclient hevt
    exact ⟨m₀, htaken.mem hm₀, hready⟩

end Clients

end KcpEv
