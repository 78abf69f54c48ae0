import KcpEv.Wire

/-!
What the functions of the control block can change. Whatever else depends on the
clock and the windows is left open here, so that an invariant of the queues and the
numbers needs one case for each kind of change.
-/
namespace KcpEv.Ikcp

/-! Functions that leave the queues alone. -/

theorem probeWindow_cases (k : Ikcp) :
    ∃ probe tsProbe probeWait, k.probeWindow = { k with probe, tsProbe, probeWait } := by
  unfold probeWindow
  split
  · split
    · exact ⟨_, _, _, rfl⟩
    · split
      · exact ⟨_, _, _, rfl⟩
      · exact ⟨_, _, _, rfl⟩
  · exact ⟨_, _, _, rfl⟩

theorem growCwnd_cases (k : Ikcp) : ∃ cwnd incr, k.growCwnd = { k with cwnd, incr } := by
  have capped : ∀ cwnd incr : UInt32, ∃ cwnd' incr',
      (if k.rmtWnd < cwnd then
        { k with cwnd := k.rmtWnd, incr := k.rmtWnd * UInt32.ofNat ikcpMss }
      else { k with cwnd, incr }) = { k with cwnd := cwnd', incr := incr' } := by
    intro cwnd incr
    split
    · exact ⟨_, _, rfl⟩
    · exact ⟨_, _, rfl⟩
  unfold growCwnd
  dsimp only
  split
  · split
    · exact capped _ _
    · exact capped _ _
  · exact ⟨_, _, rfl⟩

theorem le_umax (a b : UInt32) : a ≤ max a b ∧ b ≤ max a b := by
  change a ≤ (if a ≤ b then b else a) ∧ b ≤ if a ≤ b then b else a
  split
  · rename_i h
    exact ⟨h, UInt32.le_refl b⟩
  · rename_i h
    exact ⟨UInt32.le_refl a, UInt32.le_of_lt (UInt32.not_le.mp h)⟩

theorem adjustCwnd_cases (k : Ikcp) (cwnd resent : UInt32) (reasons : List Reason) :
    ∃ ssthresh cwnd' incr, k.adjustCwnd cwnd resent reasons =
      { k with ssthresh, cwnd := cwnd', incr } ∧ 1 ≤ cwnd' ∧
        (ssthresh = k.ssthresh ∨ ikcpThreshMin ≤ ssthresh) := by
  have least : ∀ {ssthresh cwnd' incr : UInt32},
      ssthresh = k.ssthresh ∨ ikcpThreshMin ≤ ssthresh →
      ∃ ssthresh' cwnd'' incr',
        (if ({ k with ssthresh, cwnd := cwnd', incr } : Ikcp).cwnd < 1 then
          { ({ k with ssthresh, cwnd := cwnd', incr } : Ikcp) with
            cwnd := 1, incr := UInt32.ofNat ikcpMss }
        else { k with ssthresh, cwnd := cwnd', incr }) =
          { k with ssthresh := ssthresh', cwnd := cwnd'', incr := incr' } ∧ 1 ≤ cwnd'' ∧
            (ssthresh' = k.ssthresh ∨ ikcpThreshMin ≤ ssthresh') := by
    intro ssthresh cwnd' incr h
    split
    · exact ⟨_, _, _, rfl, UInt32.le_refl 1, h⟩
    · rename_i hone
      exact ⟨_, _, _, rfl, UInt32.not_lt.mp hone, h⟩
  unfold adjustCwnd
  dsimp only
  by_cases hfast : Reason.fastack ∈ reasons
  · by_cases hlost : Reason.timeout ∈ reasons
    · simp only [hfast, hlost, if_true]
      exact least (Or.inr (le_umax _ _).2)
    · simp only [hfast, hlost, if_true, if_false]
      exact least (Or.inr (le_umax _ _).2)
  · by_cases hlost : Reason.timeout ∈ reasons
    · simp only [hfast, hlost, if_true, if_false]
      exact least (Or.inr (le_umax _ _).2)
    · simp only [hfast, hlost, if_false]
      exact least (Or.inl rfl)

/-! A flush. -/

/-- The segments a flush writes before the data. -/
def controlSegs (conv : ℕ) (k : Ikcp) : List IkcpSeg :=
  let (sn, ts) := (k.acklist.getLast?).getD (0, 0)
  (k.acklist.map fun (sn, ts) => k.controlSeg conv .ack sn ts) ++
    (if k.probeWindow.probe &&& ikcpAskSend ≠ 0 then [k.controlSeg conv .wask sn ts] else []) ++
    if k.probeWindow.probe &&& ikcpAskTell ≠ 0 then [k.controlSeg conv .wins sn ts] else []

theorem flushControl_eq (conv : ℕ) (k : Ikcp) :
    k.flushControl conv = (k.controlSegs conv).foldl Flushed.put ⟨[], []⟩ := rfl

/-- The control block of a flush when acknowledgements and probes are written. -/
def probed (k : Ikcp) : Ikcp := { k.probeWindow with acklist := [], probe := 0 }

/-- The control block of a flush when the window has been filled. -/
def flushReady (conv : ℕ) (k : Ikcp) : Ikcp :=
  let k := k.probed
  let moved := moveToBuf conv k (k.sndUna + k.flushWindow) k.sndQueue k.sndNxt
  { k with sndBuf := k.sndBuf ++ moved.1, sndQueue := moved.2.1, sndNxt := moved.2.2 }

def resent (k : Ikcp) : UInt32 := if k.fastresend = 0 then 0xffffffff else k.fastresend

def rtomin (k : Ikcp) : UInt32 := if k.nodelay then 0 else (k.rxRto >>> 3).toUInt32

/-- What becomes of a segment in a flush, and whether it is sent. -/
def flushSeg (k : Ikcp) (seg : IkcpSeg) : IkcpSeg × Option Reason :=
  k.decideSeg k.resent k.rtomin seg

/-- The data segments a flush sends. -/
def sentSegs (k : Ikcp) : List IkcpSeg :=
  k.sndBuf.filterMap fun seg => (k.flushSeg seg).2.map fun _ => (k.flushSeg seg).1

theorem flushSegs_eq (k : Ikcp) (resent rtomin : UInt32) (f : Flushed) (segs : List IkcpSeg) :
    k.flushSegs resent rtomin f segs =
      ((segs.filterMap fun seg => (k.decideSeg resent rtomin seg).2.map fun _ =>
          (k.decideSeg resent rtomin seg).1).foldl Flushed.put f,
        segs.map fun seg => (k.decideSeg resent rtomin seg).1,
        segs.filterMap fun seg => (k.decideSeg resent rtomin seg).2) := by
  induction segs generalizing f with
  | nil => rfl
  | cons seg segs ih =>
    rcases hseg : k.decideSeg resent rtomin seg with ⟨seg', _ | reason⟩
    · simp only [flushSegs, hseg, ih, List.filterMap_cons, List.map_cons, Option.map_none]
    · simp only [flushSegs, hseg, ih, List.filterMap_cons, List.map_cons, Option.map_some,
        List.foldl_cons]

/-- The segments a flush sends. -/
def flushSent (conv : ℕ) (k : Ikcp) : List IkcpSeg :=
  k.controlSegs conv ++ (k.flushReady conv).sentSegs

theorem flush_eq (conv : ℕ) {k : Ikcp} (h : k.updated = true) :
    k.flush conv = ({ k.flushReady conv with
        sndBuf := (k.flushReady conv).sndBuf.map fun seg => ((k.flushReady conv).flushSeg seg).1
        }.adjustCwnd k.probed.flushWindow (k.flushReady conv).resent
          ((k.flushReady conv).sndBuf.filterMap fun seg => ((k.flushReady conv).flushSeg seg).2),
      ((k.flushSent conv).foldl Flushed.put ⟨[], []⟩).output.out) := by
  unfold flush
  rw [if_neg (by simp [h])]
  dsimp only
  rw [flushSegs_eq]
  unfold flushSent
  rw [List.foldl_append, ← flushControl_eq]
  rfl

/-- `ikcp_update` sets the clock, and it may flush. -/
theorem update_cases (conv : ℕ) (k : Ikcp) (now : UInt32) : ∃ tsFlush,
    k.update conv now = ({ k with current := now, updated := true, tsFlush }, []) ∨
      k.update conv now = { k with current := now, updated := true, tsFlush }.flush conv := by
  unfold update
  dsimp only
  -- the clock of the first flush is set when the object is updated for the first time
  obtain ⟨start, hstart⟩ : ∃ tsFlush, (if k.updated then { k with current := now } else
      { k with current := now, updated := true, tsFlush := now }) =
        ({ k with current := now, updated := true, tsFlush } : Ikcp) := by
    by_cases hupdated : k.updated
    · exact ⟨k.tsFlush, by simp [hupdated]⟩
    · exact ⟨now, if_neg hupdated⟩
  simp only [hstart]
  by_cases hfar : 10000 ≤ itimediff now start ∨ itimediff now start < -10000
  · simp only [hfar, if_true, true_or]
    exact ⟨_, Or.inr rfl⟩
  · simp only [hfar, if_false, false_or]
    split
    · exact ⟨_, Or.inr rfl⟩
    · exact ⟨_, Or.inl rfl⟩

end KcpEv.Ikcp
