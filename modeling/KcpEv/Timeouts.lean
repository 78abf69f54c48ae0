import KcpEv.Validity

/-!
The heartbeat timers in time. When the timer of the client runs every ten seconds and
every exchange it starts is processed before it runs again, no heart of either end
gets older than twenty seconds, and no end gives its KCP object up.
-/
namespace KcpEv

open Guarded

variable {K : Type}

/-! What the steps of one process keep. -/

section Process
variable [KcpImpl K] {p p' : Process (Logged K) ℕ} {i : Input ℕ} {c v : ℕ}

/-- The KCP object of an object is in use only with a heart of this time or later. -/
structure Young (c v : ℕ) (p : Process (Logged K) ℕ) : Prop where
  old : c < p.world.os.next
  now : v ≤ p.world.os.now
  heart : ∀ {obj}, p.world.objs c = some obj → obj.udp.isKcpValid → v ≤ obj.udp.heart

theorem Young.step (h : Young c v p) (hp : p.Typed) (hsep : p.world.Separate)
    (hok : p.Forward i) (hs : step p i = .ok p') : Young c v p' := by
  have hages := (typed_effect hp.world (step_effect hp hs)).ages
  refine ⟨h.old.trans_le hages.next, h.now.trans (step_forward hok hs), ?_⟩
  intro obj' hobj' hvalid
  obtain ⟨obj, hobj, -⟩ := hages.objs h.old hobj'
  have hact := step_act hp hsep hs hobj hobj'
  rcases hact.heart with hsame | hbeat
  · rcases hact.valid hvalid with hold | hready
    · rw [hsame]
      exact h.heart hobj hold
    · rw [hready.heart]
      exact h.now
  · rw [hbeat]
    exact h.now

/-- A session with this key, whose heart is still this one, or young. -/
structure Waiting (c v : ℕ) (key : KcpevKey) (heart : ℕ) (p : Process (Logged K) ℕ) : Prop where
  old : c < p.world.os.next
  now : v ≤ p.world.os.now
  session : ∀ {obj}, p.world.objs c = some obj → obj.hasServer = true ∧ obj.key = key ∧
    (obj.udp.heart = heart ∨ v ≤ obj.udp.heart)

theorem Waiting.step {key : KcpevKey} {heart : ℕ} (h : Waiting c v key heart p) (hp : p.Typed)
    (hsep : p.world.Separate) (hok : p.Forward i) (hs : step p i = .ok p') :
    Waiting c v key heart p' := by
  have hages := (typed_effect hp.world (step_effect hp hs)).ages
  refine ⟨h.old.trans_le hages.next, h.now.trans (step_forward hok hs), ?_⟩
  intro obj' hobj'
  obtain ⟨obj, hobj, hkind⟩ := hages.objs h.old hobj'
  obtain ⟨hserver, hkey, hheart⟩ := h.session hobj
  have hact := step_act hp hsep hs hobj hobj'
  refine ⟨hkind.trans hserver, (hact.key hp hobj hserver).trans hkey, ?_⟩
  rcases hact.heart with hsame | hbeat
  · rw [hsame]
    exact hheart
  · rw [hbeat]
    exact Or.inr h.now

end Process

/-! The history of a connection in time. -/

/-- The step is not a reading of the clock. -/
def Moment.acts (m : Moment K ℕ) : Bool :=
  match m.input with
  | .now _ => false
  | _ => true

/-- When a step is taken. -/
def Moment.time (m : Moment K ℕ) : ℕ := m.before.world.os.now

section History
variable (x : End → ℕ)

/-- The heartbeat timer of the client runs. -/
def Moment.ticks (m : Moment K ℕ) : Bool :=
  match m.who, m.before.ctl, m.input with
  | .client, .loop, .timer q _ => (m.before.world.os.timers q).any fun e =>
      e.cb = .onClientHeartbeatTimer && e.data = .kcpev (x .client)
  | _, _, _ => false

/-- When the client got ready. -/
def readyAt (h : List (Moment K ℕ)) : Option ℕ :=
  (h.find? fun m => m.who = .client && Moment.getsReady x m).map Moment.time

/-- How often the heartbeat timer of the client has run. -/
def ticksOf (h : List (Moment K ℕ)) : ℕ := h.countP (Moment.ticks x)

/-- An exchange that the client has started at this time is processed: the session has
answered, the client has sent the answer back, and the session has taken the echo. -/
inductive Exchanged (h : List (Moment K ℕ)) (time : ℕ) : Prop
  | intro {k₀ k₁ k₂ k₃ q₁ q₂ q₃ : ℕ} {m₀ m₁ m₂ m₃ : Moment K ℕ} {ask answer echo data : Bytes}
    {addr₁ addr₂ addr₃ : Addr} {a₁ a₂ a₃ : RecvAnswer}
    (hm₀ : h[k₀]? = some m₀) (hticks : Moment.ticks x m₀ = true) (htime : m₀.time = time)
    (hask : ask ∈ (Moment.traffic x m₀).kcp)
    (h₁ : k₀ < k₁) (hm₁ : h[k₁]? = some m₁) (hwho₁ : m₁.who = .server)
    (hframe₁ : Dispatches m₁.before m₁.input (.tryKcpRecv (x .server) q₁) addr₁ ask a₁)
    (hanswer : answer ∈ (Moment.traffic x m₁).kcp) (hparse₁ : Parses answer .heartbeat1 data)
    (hlen : data.length = heartbeatSize)
    (h₂ : k₁ < k₂) (hm₂ : h[k₂]? = some m₂) (hwho₂ : m₂.who = .client)
    (hframe₂ : Dispatches m₂.before m₂.input (.tryKcpRecv (x .client) q₂) addr₂ answer a₂)
    (hecho : echo ∈ (Moment.traffic x m₂).kcp) (hparse₂ : Parses echo .heartbeat2 data)
    (h₃ : k₂ < k₃) (hm₃ : h[k₃]? = some m₃) (hwho₃ : m₃.who = .server)
    (hframe₃ : Dispatches m₃.before m₃.input (.tryKcpRecv (x .server) q₃) addr₃ echo a₃)
    (hname : a₃.getnameinfo = true) : Exchanged h time

/-- The next step comes at its time: the ends read one clock, the timer of the client
runs ten seconds after it got ready or has run before, the exchange it started then is
processed, and a session gets ready only after its client. -/
structure OnTime (h : List (Moment K ℕ)) (m : Moment K ℕ) : Prop where
  order : m.acts = true → ∀ m₀ ∈ h, m₀.acts = true → m₀.time ≤ m.time
  tick : Moment.ticks x m = true → ∃ t, readyAt x h = some t ∧ m.time = t + 10 * (ticksOf x h + 1)
  due : m.acts = true → ∀ t, readyAt x h = some t → m.time ≤ t + 10 * (ticksOf x h + 1)
  exchange : Moment.ticks x m = true → 0 < ticksOf x h → ∀ t, readyAt x h = some t →
    Exchanged x h (t + 10 * ticksOf x h)
  ready : m.who = .server → Moment.getsReady x m = true → (readyAt x h).isSome

/-- The steps of a connection whose heartbeats are on time. -/
def Timely [KcpImpl K] (l : Link K ℕ) (i : End × Input ℕ) : Prop :=
  Honest x l i ∧ ∀ {after}, step (l.party i.1) i.2 = .ok after →
    OnTime x l.history ⟨i.1, l.party i.1, i.2, after⟩

end History

section Run
variable [KcpImpl K] {x : End → ℕ} {now : End → ℕ} {is : List (End × Input ℕ)} {l l' l₀ : Link K ℕ}
  {history : List (Moment K ℕ)} {m m₀ : Moment K ℕ} {v : ℕ}

theorem taken_onTime (h : Joint.Taken step (Timely x) (ends now) history m l₀) :
    OnTime x l₀.history m := by
  have hnext := h.next
  rw [h.before] at hnext
  have htime := h.ok.2 hnext
  rw [← h.before] at htime
  exact htime

omit [KcpImpl K] in
theorem acts_of_dispatches {src : Source} {addr : Addr} {buf : Bytes} {a : RecvAnswer}
    (h : Dispatches m.before m.input src addr buf a) : m.acts = true := by
  unfold Moment.acts
  rw [h.input]

omit [KcpImpl K] in
theorem acts_of_ticks (h : Moment.ticks x m = true) : m.acts = true := by
  unfold Moment.ticks at h
  split at h
  · rename_i hinput
    unfold Moment.acts
    rw [hinput]
  · cases h

omit [KcpImpl K] in
theorem mem_past {k k₀ : ℕ} (hm₀ : history[k₀]? = some m₀) (hk : k₀ < k) :
    m₀ ∈ history.take k := by
  apply List.mem_of_getElem?
  rw [List.getElem?_take_of_lt hk]
  exact hm₀

theorem taken_forward (h : Joint.Taken step (Timely x) (ends now) history m l₀) :
    m.before.world.os.now ≤ m.after.world.os.now := by
  have hforward : m.before.Forward m.input := by
    rw [h.before]
    exact h.ok.1.2
  exact step_forward hforward h.next

/-- After an exchange the heart of the client is not older than its start. -/
theorem Exchanged.client (h : Exchanged x l.history v)
    (hrun : Run (Joint.step step) (Timely x) (.init (ends now)) is l) :
    Young (x .client) v (l.party .client) := by
  obtain @⟨k₀, k₁, k₂, k₃, q₁, q₂, q₃, m₀, m₁, m₂, m₃, ask, answer, echo, data, addr₁, addr₂, addr₃,
    a₁, a₂, a₃, hm₀, hticks, rfl, -, h₁, -, -, -, -, -, -, h₂, hm₂, hwho₂, hframe₂, hecho, hparse₂,
    -⟩ := h
  obtain ⟨l₂, htaken, hpast⟩ := Joint.taken_at hrun hm₂
  obtain ⟨hp, hsep⟩ := taken_typed htaken
  have hle : m₀.time ≤ m₂.before.world.os.now := by
    refine (taken_onTime htaken).order (acts_of_dispatches hframe₂) m₀ ?_ (acts_of_ticks hticks)
    rw [hpast]
    exact mem_past hm₀ (h₁.trans h₂)
  rw [← hwho₂]
  refine Joint.kept (Q := Process.Forward) (fun h => h.1.2) hrun
    (fun hjs h hok hs => h.step (run_typed hjs) (run_separate hjs) hok hs)
    (List.mem_of_getElem? hm₂) ?_
  obtain ⟨obj, hobj, -⟩ := taken_given htaken hecho
  have hages := (typed_effect hp.world (step_effect hp htaken.next)).ages
  refine ⟨(hp.world.lt_next hobj).trans_le hages.next, hle.trans (taken_forward htaken), ?_⟩
  intro obj' hobj' _
  rw [(step_act hp hsep htaken.next hobj hobj').echoes hecho hparse₂]
  exact hle

/-- After an exchange the heart of the session is not older than its start: either it
still is the heart of the answer, and the echo refreshes it, or it has been refreshed
since. -/
theorem Exchanged.server (h : Exchanged x l.history v)
    (hrun : Run (Joint.step step) (Timely x) (.init (ends now)) is l) :
    Young (x .server) v (l.party .server) := by
  obtain @⟨k₀, k₁, k₂, k₃, q₁, q₂, q₃, m₀, m₁, m₂, m₃, ask, answer, echo, data, addr₁, addr₂, addr₃,
    a₁, a₂, a₃, hm₀, hticks, rfl, -, h₁, hm₁, hwho₁, hframe₁, hanswer, hparse₁, hlen,
    h₂, -, -, -, -, hparse₂, h₃, hm₃, hwho₃, hframe₃, hname⟩ := h
  obtain ⟨l₁, htaken₁, hpast₁⟩ := Joint.taken_at hrun hm₁
  obtain ⟨l₃, htaken₃, hpast₃⟩ := Joint.taken_at hrun hm₃
  obtain ⟨is₃, hrun₃⟩ := htaken₃.run
  obtain ⟨hp₁, hsep₁⟩ := taken_typed htaken₁
  obtain ⟨hp₃, hsep₃⟩ := taken_typed htaken₃
  obtain ⟨obj, hobj, hgiven⟩ := taken_given htaken₁ hanswer
  rw [hwho₁] at hobj
  have hle : m₀.time ≤ m₁.before.world.os.now := by
    refine (taken_onTime htaken₁).order (acts_of_dispatches hframe₁) m₀ ?_ (acts_of_ticks hticks)
    rw [hpast₁]
    exact mem_past hm₀ h₁
  -- the answer has the heart of the session as its token
  obtain ⟨hserver, hdata⟩ := hgiven.answer hparse₁ hlen
  have hwaiting : Waiting (x .server) m₀.time obj.key obj.udp.heart m₁.after := by
    have hages := (typed_effect hp₁.world (step_effect hp₁ htaken₁.next)).ages
    refine ⟨(hp₁.world.lt_next hobj).trans_le hages.next, hle.trans (taken_forward htaken₁), ?_⟩
    intro obj' hobj'
    obtain ⟨obj₀, hobj₀, hkind⟩ := hages.objs (hp₁.world.lt_next hobj) hobj'
    rw [hobj, Option.some.injEq] at hobj₀
    rw [← hobj₀] at hkind
    have hact := step_act hp₁ hsep₁ htaken₁.next hobj hobj'
    refine ⟨hkind.trans hserver, hact.key hp₁ hobj hserver, ?_⟩
    rcases hact.heart with hsame | hbeat
    · exact Or.inl hsame
    · rw [hbeat]
      exact Or.inr hle
  have hwaits : Waiting (x .server) m₀.time obj.key obj.udp.heart m₃.before := by
    have hmem : m₁ ∈ l₃.history := by
      rw [hpast₃]
      exact mem_past hm₁ (h₂.trans h₃)
    have hkept := Joint.kept (Q := Process.Forward) (fun h => h.1.2) hrun₃
      (fun hjs h hok hs => h.step (run_typed hjs) (run_separate hjs) hok hs) hmem hwaiting
    have hparty : m₃.before = l₃.party m₁.who := by rw [htaken₃.before, hwho₃, hwho₁]
    rw [hparty]
    exact hkept
  have hyoung : Young (x .server) m₀.time m₃.after := by
    have hages := (typed_effect hp₃.world (step_effect hp₃ htaken₃.next)).ages
    refine ⟨hwaits.old.trans_le hages.next, hwaits.now.trans (taken_forward htaken₃), ?_⟩
    intro obj' hobj' hvalid
    obtain ⟨obj₃, hobj₃, -⟩ := hages.objs hwaits.old hobj'
    obtain ⟨hserver₃, hkey₃, hheart₃⟩ := hwaits.session hobj₃
    have hact := step_act hp₃ hsep₃ htaken₃.next hobj₃ hobj'
    rcases hact.heart with hsame | hbeat
    · rcases hact.valid hvalid with hold | hready
      · rcases hheart₃ with hheart | hyoung
        · -- nothing has refreshed it, so the echo does
          rw [hdata, ← hkey₃, ← hheart] at hparse₂
          rw [step_echo hframe₃ hname hobj₃ hserver₃ hold hparse₂ htaken₃.next hobj']
          exact hwaits.now
        · rw [hsame]
          exact hyoung
      · rw [hready.heart]
        exact hwaits.now
    · rw [hbeat]
      exact hwaits.now
  rw [← hwho₃]
  rw [← hwho₃] at hyoung
  exact Joint.kept (Q := Process.Forward) (fun h => h.1.2) hrun
    (fun hjs h hok hs => h.step (run_typed hjs) (run_separate hjs) hok hs)
    (List.mem_of_getElem? hm₃) hyoung

/-! The history grows. -/

omit [KcpImpl K] in
theorem readyAt_append (h : List (Moment K ℕ)) (m : Moment K ℕ) : readyAt x (h ++ [m]) =
    (readyAt x h).or
      (if m.who = .client ∧ Moment.getsReady x m = true then some m.time else none) := by
  unfold readyAt
  rw [List.find?_append, List.find?_singleton, Option.map_or]
  by_cases hready : m.who = .client ∧ Moment.getsReady x m = true
  · simp [hready]
  · simp [hready]

omit [KcpImpl K] in
theorem ticksOf_append (h : List (Moment K ℕ)) (m : Moment K ℕ) :
    ticksOf x (h ++ [m]) = ticksOf x h + if Moment.ticks x m = true then 1 else 0 := by
  unfold ticksOf
  rw [List.countP_append, List.countP_singleton]

omit [KcpImpl K] in
theorem Exchanged.append (h : Exchanged x history v) (rest : List (Moment K ℕ)) :
    Exchanged x (history ++ rest) v := by
  have later : ∀ {k : ℕ} {m : Moment K ℕ}, history[k]? = some m →
    (history ++ rest)[k]? = some m := by
    intro k m hm
    have hk : k < history.length := (List.getElem?_eq_some_iff.mp hm).1
    rw [List.getElem?_append_left hk]
    exact hm
  obtain ⟨hm₀, hticks, htime, hask, h₁, hm₁, hwho₁, hframe₁, hanswer, hparse₁, hlen, h₂, hm₂, hwho₂,
    hframe₂, hecho, hparse₂, h₃, hm₃, hwho₃, hframe₃, hname⟩ := h
  exact ⟨later hm₀, hticks, htime, hask, h₁, later hm₁, hwho₁, hframe₁, hanswer, hparse₁, hlen, h₂,
    later hm₂, hwho₂, hframe₂, hecho, hparse₂, h₃, later hm₃, hwho₃, hframe₃, hname⟩

theorem now_objs {p p' : Process (Logged K) ℕ} {t : ℕ} (h : step p (.now t) = .ok p') :
    p'.world.objs = p.world.objs := by
  unfold step at h
  dsimp only at h
  split at h
  · cases h
    rfl
  · cases h
    rfl

theorem acts_of_getsReady (hnext : step m.before m.input = .ok m.after)
    (h : Moment.getsReady x m = true) : m.acts = true := by
  obtain ⟨obj, obj', hobj, hobj', hold, hnew⟩ := getsReady_iff.mp h
  unfold Moment.acts
  split
  · rename_i now hinput
    rw [hinput] at hnext
    rw [now_objs hnext, hobj, Option.some.injEq] at hobj'
    rw [← hobj'] at hnew
    exact absurd hnew hold
  · rfl

theorem ready_le (hrun : Run (Joint.step step) (Timely x) (.init (ends now)) is l)
    (htime : OnTime x l.history m) (hacts : m.acts = true) {t : ℕ}
    (ht : readyAt x l.history = some t) : t ≤ m.time := by
  obtain ⟨m₀, hfind, rfl⟩ := Option.map_eq_some_iff.mp ht
  have hm₀ := List.mem_of_find?_eq_some hfind
  obtain ⟨l₀, htaken⟩ := Joint.taken hrun hm₀
  have hready : Moment.getsReady x m₀ = true := by
    have hfound := List.find?_some hfind
    simp only [Bool.and_eq_true] at hfound
    exact hfound.2
  exact htime.order hacts m₀ hm₀ (acts_of_getsReady htaken.next hready)

/-- The hearts in use are not before the client got ready, and all exchanges but the
last are processed. -/
structure Scheduled (x : End → ℕ) (l : Link K ℕ) : Prop where
  heart : ∀ {e obj}, (l.party e).world.objs (x e) = some obj → obj.udp.isKcpValid →
    ∃ t, readyAt x l.history = some t ∧ t ≤ obj.udp.heart
  idle : readyAt x l.history = none → ticksOf x l.history = 0
  exchange : ∀ {t}, readyAt x l.history = some t → 2 ≤ ticksOf x l.history →
    Exchanged x l.history (t + 10 * (ticksOf x l.history - 1))

theorem Scheduled.heart_step (h : Scheduled x l)
    (hrun : Run (Joint.step step) (Timely x) (.init (ends now)) is l) {e : End} {i : Input ℕ}
    (hok : Timely x l (e, i)) (hs : Joint.step step l (e, i) = .ok l') {obj' : Kcpev ℕ}
    (hobj' : (l'.party e).world.objs (x e) = some obj') (hvalid : obj'.udp.isKcpValid) :
    ∃ t, readyAt x l'.history = some t ∧ t ≤ obj'.udp.heart := by
  obtain ⟨hnext, hhistory⟩ := Joint.step_self hs
  obtain ⟨hp, hsep⟩ := party_typed hrun e
  have htime := hok.2 hnext
  rw [hhistory, readyAt_append]
  rcases step_object hp hsep hnext hobj' with ⟨-, hbirth⟩ | ⟨obj, hobj, -, hact⟩
  · exact absurd hvalid hbirth.not_valid
  rcases hact.valid hvalid with hold | hready
  · obtain ⟨t, ht, hle⟩ := h.heart hobj hold
    refine ⟨t, by rw [ht]; rfl, ?_⟩
    rcases hact.beats with hsame | ⟨hbeat, hbeats⟩
    · rw [hsame]
      exact hle
    · obtain ⟨src, addr, buf, a, hframe⟩ := hbeats.dispatches
      rw [hbeat]
      exact ready_le hrun htime (acts_of_dispatches hframe) ht
  · obtain ⟨src, addr, buf, a, hframe⟩ := hready.frame
    have hacts := acts_of_dispatches (m := ⟨e, l.party e, i, l'.party e⟩) hframe
    have hgets : Moment.getsReady x ⟨e, l.party e, i, l'.party e⟩ = true := by
      refine getsReady_iff.mpr ⟨obj, obj', hobj, hobj', ?_, hready.after⟩
      rw [hready.before]
      nofun
    rw [hready.heart]
    rcases ht : readyAt x l.history with _ | t
    · -- nobody is ready yet, so this is the client
      rcases e with _ | _
      · have hsome := htime.ready rfl hgets
        rw [ht] at hsome
        cases hsome
      · refine ⟨_, if_pos ⟨rfl, hgets⟩, le_rfl⟩
    · exact ⟨t, rfl, ready_le hrun htime hacts ht⟩

theorem scheduled_step (h : Scheduled x l)
    (hrun : Run (Joint.step step) (Timely x) (.init (ends now)) is l) {e : End} {i : Input ℕ}
    (hok : Timely x l (e, i)) (hs : Joint.step step l (e, i) = .ok l') : Scheduled x l' := by
  obtain ⟨hnext, hhistory⟩ := Joint.step_self hs
  have htime := hok.2 hnext
  refine ⟨fun {e' obj'} hobj' hvalid => ?_, fun hnone => ?_, fun {t} ht hmany => ?_⟩
  · rcases eq_or_ne e' e with rfl | hne
    · exact h.heart_step hrun hok hs hobj' hvalid
    · rw [Joint.step_other hs hne] at hobj'
      obtain ⟨t, ht, hle⟩ := h.heart hobj' hvalid
      rw [hhistory, readyAt_append, ht]
      exact ⟨t, rfl, hle⟩
  · rw [hhistory, readyAt_append, Option.or_eq_none_iff] at hnone
    rw [hhistory, ticksOf_append, h.idle hnone.1]
    by_cases hticks : Moment.ticks x ⟨e, l.party e, i, l'.party e⟩ = true
    · obtain ⟨t, ht, -⟩ := htime.tick hticks
      rw [hnone.1] at ht
      cases ht
    · rw [if_neg hticks]
  · rw [hhistory, ticksOf_append] at hmany ⊢
    rw [hhistory, readyAt_append] at ht
    have hold : readyAt x l.history = some t := by
      rcases hready : readyAt x l.history with _ | t'
      · rw [h.idle hready] at hmany
        split at hmany
        · omega
        · omega
      · rw [hready] at ht
        exact ht
    by_cases hticks : Moment.ticks x ⟨e, l.party e, i, l'.party e⟩ = true
    · rw [if_pos hticks] at hmany ⊢
      exact (htime.exchange hticks (by omega) t hold).append _
    · rw [if_neg hticks] at hmany ⊢
      exact (h.exchange hold (by omega)).append _

theorem run_scheduled (hrun : Run (Joint.step step) (Timely x) (.init (ends now)) is l) :
    Scheduled x l := by
  induction hrun with
  | nil =>
    refine ⟨fun {e obj} hobj => ?_, fun _ => rfl, fun {t} ht => ?_⟩
    · cases hobj
    · simp [readyAt, Joint.State.init] at ht
  | snoc hrun hok hs ih => exact scheduled_step ih hrun hok hs

/-- No heart in use is older than twenty seconds. -/
theorem Scheduled.young (h : Scheduled x l)
    (hrun : Run (Joint.step step) (Timely x) (.init (ends now)) is l)
    (htime : OnTime x l.history m) (hacts : m.acts = true) {e : End} {obj : Kcpev ℕ}
    (hobj : (l.party e).world.objs (x e) = some obj) (hvalid : obj.udp.isKcpValid) :
    m.time ≤ obj.udp.heart + 20 := by
  obtain ⟨t, ht, hheart⟩ := h.heart hobj hvalid
  have hdue := htime.due hacts t ht
  rcases Nat.lt_or_ge (ticksOf x l.history) 2 with hfew | hmany
  · omega
  · have hexchange := h.exchange ht hmany
    have hyoung : t + 10 * (ticksOf x l.history - 1) ≤ obj.udp.heart := by
      rcases e with _ | _
      · exact (hexchange.server hrun).heart hobj hvalid
      · exact (hexchange.client hrun).heart hobj hvalid
    omega

/-- No end gives its KCP object up. -/
theorem no_spurious_fallback (hrun : Run (Joint.step step) (Timely x) (.init (ends now)) is l) :
    ∀ m ∈ l.history, Moment.givesUp x m = false := by
  induction hrun with
  | nil =>
    intro m hm
    cases hm
  | @snoc is l l' i hrun hok hs ih =>
    obtain ⟨hnext, hhistory⟩ := Joint.step_self hs
    obtain ⟨hp, hsep⟩ := party_typed hrun i.1
    have htime := hok.2 hnext
    intro m hm
    rw [hhistory] at hm
    rcases List.mem_append.mp hm with hold | hnew
    · exact ih m hold
    rw [List.mem_singleton] at hnew
    subst hnew
    by_contra hgives
    rw [Bool.not_eq_false] at hgives
    obtain ⟨obj, obj', hobj, hobj', hvalid, hinvalid⟩ := givesUp_iff.mp hgives
    have young : ∀ {cb : TimerCb} {a : TimerAnswer}, Ticks (l.party i.1) i.2 (x i.1) cb a →
        obj.udp.isKcpValid → ¬ ClockImpl.late (l.party i.1).world.os.now obj.udp.heart = true := by
      intro cb a htick hvalid hlate
      obtain ⟨q, e, hinput, -⟩ := htick.input
      have hacts : Moment.acts ⟨i.1, l.party i.1, i.2, l'.party i.1⟩ = true := by
        unfold Moment.acts
        dsimp only
        rw [hinput]
      have hyoung := (run_scheduled hrun).young hrun htime hacts hobj hvalid
      have hold : 30 < (l.party i.1).world.os.now - obj.udp.heart := of_decide_eq_true hlate
      have htime' : (l.party i.1).world.os.now ≤ obj.udp.heart + 20 := hyoung
      omega
    cases (step_act hp hsep hnext hobj hobj').givesUp hvalid hinvalid with
    | clientLate htick hvalid hlate => exact young htick hvalid hlate
    | serverLate htick hvalid hlate => exact young htick hvalid hlate
    | told hframe hsrc hvalid hparse =>
      obtain ⟨m, hm, -, hgave⟩ := told_notified hrun hok.1.1 hframe hsrc hobj hvalid hparse
      rw [ih m hm] at hgave
      cases hgave

end Run

/-! Two ticks of a client with an exchange between them. -/

/-- The frames of the example, and where they are sent and dispatched. -/
def exchanged (h : List (Moment Mailbox ℕ)) : Bool :=
  let ask := frameBytes Command.heartbeat1.toByte [0, 0, 0] sampleKey.val
  let answer := answerFrame .heartbeat1 0
  let echo := answerFrame .heartbeat2 0
  (h[15]?).any (fun m => Moment.ticks sampleEnds m && m.time = 10 &&
      (Moment.traffic sampleEnds m).kcp.contains ask) &&
    (h[18]?).any (fun m => decide (m.who = .server) &&
      decide (m.before.hears m.input = some (.tryKcpRecv 3 5, ask)) &&
      (Moment.traffic sampleEnds m).kcp.contains answer) &&
    (h[22]?).any (fun m => decide (m.who = .client) &&
      decide (m.before.hears m.input = some (.tryKcpRecv 1 2, answer)) &&
      (Moment.traffic sampleEnds m).kcp.contains echo) &&
    (h[26]?).any fun m => decide (m.who = .server) &&
      decide (m.before.hears m.input = some (.tryKcpRecv 3 5, echo)) &&
      match m.input with
      | .round a => a.getnameinfo
      | _ => false

theorem exchanged_sound {h : List (Moment Mailbox ℕ)} (hcheck : exchanged h = true) :
    Exchanged sampleEnds h 10 := by
  simp only [exchanged, Bool.and_eq_true, Option.any_eq_true, decide_eq_true_eq,
    List.contains_iff_mem] at hcheck
  obtain ⟨⟨⟨⟨m₀, hm₀, ⟨hticks, htime⟩, hask⟩, m₁, hm₁, ⟨hwho₁, hhears₁⟩, hanswer⟩,
    m₂, hm₂, ⟨hwho₂, hhears₂⟩, hecho⟩, m₃, hm₃, ⟨hwho₃, hhears₃⟩, hname⟩ := hcheck
  obtain ⟨addr₁, a₁, hframe₁⟩ := hears_eq_some.mp hhears₁
  obtain ⟨addr₂, a₂, hframe₂⟩ := hears_eq_some.mp hhears₂
  obtain ⟨addr₃, a₃, hframe₃⟩ := hears_eq_some.mp hhears₃
  rw [hframe₃.input] at hname
  have hparse₁ : Parses (answerFrame .heartbeat1 0) .heartbeat1 (sampleKey.val ++ htobe64 0) := by
    decide
  have hparse₂ : Parses (answerFrame .heartbeat2 0) .heartbeat2 (sampleKey.val ++ htobe64 0) := by
    decide
  exact .intro hm₀ hticks htime hask (by decide) hm₁ hwho₁ hframe₁ hanswer hparse₁ (by decide)
    (by decide) hm₂ hwho₂ hframe₂ hecho hparse₂ (by decide) hm₃ hwho₃ hframe₃ hname

/-- What the example tests of a step. -/
def SampleTime (h : List (Moment Mailbox ℕ)) (m : Moment Mailbox ℕ) : Prop :=
  (m.acts = true → ∀ m₀ ∈ h, m₀.acts = true → m₀.time ≤ m.time) ∧
    (m.acts = true → (readyAt sampleEnds h).all
      fun t => t = 0 && decide (m.time ≤ 10 * (ticksOf sampleEnds h + 1))) ∧
    (Moment.ticks sampleEnds m = true → readyAt sampleEnds h = some 0 ∧
      m.time = 10 * (ticksOf sampleEnds h + 1) ∧
        (ticksOf sampleEnds h = 0 ∨ ticksOf sampleEnds h = 1 ∧ exchanged h = true)) ∧
    (m.who = .server → Moment.getsReady sampleEnds m = true → (readyAt sampleEnds h).isSome)

instance (h : List (Moment Mailbox ℕ)) (m : Moment Mailbox ℕ) : Decidable (SampleTime h m) :=
  inferInstanceAs (Decidable (_ ∧ _ ∧ _ ∧ _))

theorem SampleTime.onTime {h : List (Moment Mailbox ℕ)} {m : Moment Mailbox ℕ}
    (hsample : SampleTime h m) : OnTime sampleEnds h m := by
  obtain ⟨horder, hdue, htick, hready⟩ := hsample
  refine ⟨horder, fun hticks => ?_, fun hacts t ht => ?_, fun hticks hpos t ht => ?_, hready⟩
  · obtain ⟨hzero, htime, -⟩ := htick hticks
    exact ⟨0, hzero, by omega⟩
  · have hall := hdue hacts
    rw [ht, Option.all_some, Bool.and_eq_true, decide_eq_true_eq, decide_eq_true_eq] at hall
    omega
  · obtain ⟨hzero, -, hnone | ⟨hone, hexchanged⟩⟩ := htick hticks
    · omega
    · rw [hzero, Option.some.injEq] at ht
      rw [hone, ← ht]
      exact exchanged_sound hexchanged

def beatsOnTime : List (End × Input ℕ) :=
  bothReady ++ [(.client, .now 10), (.server, .now 10), (.client, .timer 6 .whole)] ++
    arrives .server 6 (frameBytes Command.heartbeat1.toByte [0, 0, 0] sampleKey.val) ++
    arrives .client 4 (answerFrame .heartbeat1 0) ++
    arrives .server 6 (answerFrame .heartbeat2 0) ++
    [(.client, .now 20), (.server, .now 20), (.client, .timer 6 .whole),
      (.server, .timer 8 .whole)]

/-- What the example tests of a step that succeeds. -/
def SampleStep (l : Link Mailbox ℕ) (i : End × Input ℕ) : Prop :=
  Honest sampleEnds l i ∧
    match step (l.party i.1) i.2 with
    | .ok after => SampleTime l.history ⟨i.1, l.party i.1, i.2, after⟩
    | .error _ => True

instance (l : Link Mailbox ℕ) (i : End × Input ℕ) : Decidable (SampleStep l i) := by
  unfold SampleStep
  refine @instDecidableAnd _ _ _ ?_
  split <;> infer_instance

theorem SampleStep.timely {l : Link Mailbox ℕ} {i : End × Input ℕ} (h : SampleStep l i) :
    Timely sampleEnds l i := by
  refine ⟨h.1, fun {after} hnext => ?_⟩
  have htime := h.2
  rw [hnext] at htime
  exact htime.onTime

theorem no_spurious_fallback_beats : ∃ l : Link Mailbox ℕ,
    Run (Joint.step step) (Timely sampleEnds) (.init (ends fun _ => 0)) beatsOnTime l ∧
      ticksOf sampleEnds l.history = 2 ∧
      ∀ m ∈ l.history, Moment.givesUp sampleEnds m = false := by
  obtain ⟨l, hrun, htest⟩ := Run.exists_of_exec (Joint.step step) SampleStep
    (.init (ends fun _ => 0)) beatsOnTime (fun l => ticksOf sampleEnds l.history = 2)
    (by decide +kernel)
  have htimely := hrun.mono SampleStep.timely
  exact ⟨l, htimely, by simpa using htest, no_spurious_fallback htimely⟩

end KcpEv
