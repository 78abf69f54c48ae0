import KcpEv.TcpRefine

/-!
Runs of one connection: its callback is called once for every received chunk
until it goes to its `error` label. A chunk comes with the results of the two
`malloc` calls it may cause and with the outcomes of the dispatched frames.
Byte-level facts about the drain loop are collected here: which frames it
dispatches, when it ends, and what it leaves pending.
-/
namespace KcpEv.TcpRecv

open Circular Framing

/-- One `recv` on the connection, with what its environment answers. -/
structure Chunk (O : Type) where
  data : Bytes
  newMem : Malloc
  growMem : Malloc
  outs : List O

variable {S O : Type}

def tcpRun (dispatch : O → S → Bytes → Exec (S × ℤ)) :
    List (Chunk O) → Option Ringbuf → S → Exec (Option Ringbuf × S × Bool)
  | [], rb, s => .ok (rb, s, true)
  | e :: es, rb, s => do
    let (rb, s, alive) ← tcpRecv dispatch e.outs e.newMem e.growMem rb s e.data
    if alive then tcpRun dispatch es rb s else return (rb, s, false)

/-- `recv` returns at least one byte and at most as many as its buffer holds. -/
def Chunk.Fits (e : Chunk O) : Prop := 1 ≤ e.data.length ∧ e.data.length ≤ kcpevBufferSize

/-- The environment answers as many dispatches as a buffer has bytes. -/
def Chunk.Answered (e : Chunk O) : Prop := kcpevBufferSize ≤ e.outs.length

theorem tcpRun_append (dispatch : O → S → Bytes → Exec (S × ℤ)) (es es' : List (Chunk O))
    (rb : Option Ringbuf) (s : S) :
    tcpRun dispatch (es ++ es') rb s = (tcpRun dispatch es rb s).bind fun x =>
      if x.2.2 then tcpRun dispatch es' x.1 x.2.1 else .ok (x.1, x.2.1, false) := by
  induction es generalizing rb s with
  | nil => rfl
  | cons e es ih =>
    simp only [List.cons_append, tcpRun, bind]
    cases tcpRecv dispatch e.outs e.newMem e.growMem rb s e.data with
    | error err => rfl
    | ok x =>
      obtain ⟨rb', s', alive⟩ := x
      cases alive with
      | true => exact ih rb' s'
      | false => rfl

theorem tcpRun_snoc (dispatch : O → S → Bytes → Exec (S × ℤ)) {es : List (Chunk O)} (e : Chunk O)
    {rb rb' : Option Ringbuf} {s s' : S} (h : tcpRun dispatch es rb s = .ok (rb', s', true)) :
    tcpRun dispatch (es ++ [e]) rb s =
      tcpRecv dispatch e.outs e.newMem e.growMem rb' s' e.data := by
  rw [tcpRun_append, h]
  simp only [Except.bind, if_true, tcpRun, bind]
  cases tcpRecv dispatch e.outs e.newMem e.growMem rb' s' e.data with
  | error err => rfl
  | ok x =>
    obtain ⟨rb'', s'', alive⟩ := x
    cases alive <;> rfl

theorem tcpRun_snoc_dead (dispatch : O → S → Bytes → Exec (S × ℤ)) {es : List (Chunk O)}
    (e : Chunk O) {rb rb' : Option Ringbuf} {s s' : S}
    (h : tcpRun dispatch es rb s = .ok (rb', s', false)) :
    tcpRun dispatch (es ++ [e]) rb s = .ok (rb', s', false) := by
  rw [tcpRun_append, h]
  rfl

/-- The ring of a connection stays valid over a whole run. -/
theorem tcpRun_ringOk (dispatch : O → S → Bytes → Exec (S × ℤ)) {es : List (Chunk O)}
    (hfits : ∀ e ∈ es, e.Fits) {rb rb' : Option Ringbuf} {s s' : S} {alive : Bool}
    (h : RingOk rb) (hrun : tcpRun dispatch es rb s = .ok (rb', s', alive)) : RingOk rb' := by
  induction es generalizing rb s with
  | nil =>
    cases hrun
    exact h
  | cons e es ih =>
    obtain ⟨⟨rb₁, s₁, alive₁⟩, hstep, hrest⟩ := bind_eq_ok.mp hrun
    have hrb₁ := (tcpRecv_refines dispatch e.outs e.newMem e.growMem h s e.data
      (hfits e (List.mem_cons_self ..)).2).2 _ hstep
    cases alive₁ with
    | true => exact ih (fun e' he' => hfits e' (List.mem_cons_of_mem e he')) hrb₁ hrest
    | false =>
      cases hrest
      exact hrb₁

theorem split_count_le (p : Bytes) : (header.split p).1.length ≤ p.length := by
  induction p using Header.split.induct header with
  | case1 p h ih =>
    rw [header.split_complete h]
    simp only [List.length_cons, List.length_drop] at ih ⊢
    have := h.2
    omega
  | case2 p h =>
    rw [header.split_incomplete h]
    exact Nat.zero_le _

/-- With an outcome for every frame and a handler that returns, the loop ends. -/
theorem drainBytes_ends (handle : O → S → Bytes → S × ℤ) (outs : List O) (p : Bytes) (s : S)
    (houts : (header.split p).1.length ≤ outs.length) :
    ∃ x, drainBytes (fun o s b => .ok (handle o s b)) outs p s = .ok x := by
  induction outs generalizing p s with
  | nil =>
    by_cases hc : header.Complete p
    · rw [header.split_complete hc] at houts
      simp at houts
    · exact ⟨_, drainBytes_incomplete _ _ s hc⟩
  | cons o outs ih =>
    by_cases hc : header.Complete p
    · rw [header.split_complete hc] at houts
      rw [drainBytes_cons _ o outs s hc]
      simp only [Except.bind]
      split
      · exact ih _ _ (by simpa using houts)
      · exact ⟨_, rfl⟩
    · exact ⟨_, drainBytes_incomplete _ _ s hc⟩

/-- A handler that only records the frames; its return values are the outcomes. -/
def record (ret : ℤ) (log : List Bytes) (buf : Bytes) : Exec (List Bytes × ℤ) :=
  .ok (log ++ [buf], ret)

/-- The loop records the frames of the split, up to the first rejected one. -/
theorem drainBytes_record (outs : List ℤ) (p : Bytes) (log : List Bytes)
    (houts : (header.split p).1.length ≤ outs.length) :
    (drainBytes record outs p log = .ok ((header.split p).2, log ++ (header.split p).1, true)) ∨
      ∃ p' k, drainBytes record outs p log = .ok (p', log ++ (header.split p).1.take k, false) ∧
        ∃ ret ∈ outs, ret ≠ 0 := by
  induction outs generalizing p log with
  | nil =>
    by_cases hc : header.Complete p
    · rw [header.split_complete hc] at houts
      simp at houts
    · left
      rw [drainBytes_incomplete _ _ log hc, header.split_incomplete hc, List.append_nil]
  | cons ret outs ih =>
    by_cases hc : header.Complete p
    · rw [header.split_complete hc] at houts ⊢
      rw [drainBytes_cons _ ret outs log hc]
      simp only [record, Except.bind]
      by_cases hret : ret = 0
      · rw [if_pos hret]
        rcases ih (p.drop (header.size p)) (log ++ [p.take (header.size p)]) (by simpa using houts)
          with hall | ⟨p', k, hstop, bad, hmem, hbad⟩
        · left
          rw [hall, List.append_assoc, List.singleton_append]
        · right
          refine ⟨p', k + 1, ?_, bad, List.mem_cons_of_mem ret hmem, hbad⟩
          rw [hstop, List.append_assoc, List.singleton_append, List.take_succ_cons]
      · right
        rw [if_neg hret]
        exact ⟨_, 1, rfl, ret, List.mem_cons_self .., hret⟩
    · left
      rw [drainBytes_incomplete _ _ log hc, header.split_incomplete hc, List.append_nil]

/-- A chunk that fits behind the pending bytes, on any path, is appended to them. -/
theorem receiveBytes_room (dispatch : O → S → Bytes → Exec (S × ℤ)) (outs : List O) (grow : Bool)
    (p : Bytes) (s : S) (data : Bytes) (hroom : p.length + data.length ≤ kcpevBufferSize) :
    receiveBytes dispatch outs true grow p s data = drainBytes dispatch outs (p ++ data) s := by
  unfold receiveBytes
  split
  · rename_i hd
    rw [hd.1, List.nil_append]
  · simp [bufferedBytes, hroom]

/-- A chunk that does not fit is lost, and so are the pending bytes. -/
theorem receiveBytes_overflow (dispatch : O → S → Bytes → Exec (S × ℤ)) (outs : List O)
    (p : Bytes) (s : S) (data : Bytes) (hdata : data.length ≤ kcpevBufferSize)
    (hfull : kcpevBufferSize < p.length + data.length) :
    receiveBytes dispatch outs true true p s data = .ok ([], s, true) := by
  have hd : ¬ Direct p data := by
    rintro ⟨rfl, -, -⟩
    simp at hfull
    omega
  unfold receiveBytes
  rw [if_neg hd]
  simp only [bufferedBytes, Nat.not_le.mpr hfull, if_false, if_true, Bool.true_eq_false]
  exact drainBytes_nil dispatch outs s

end KcpEv.TcpRecv
