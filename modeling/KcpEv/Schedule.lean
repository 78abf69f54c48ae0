import Mathlib
import KcpEv.Callbacks
import KcpEv.IkcpFlush

/-!
The schedule of the KCP timer. `ikcp_check` answers with a time on a clock that
wraps, and it compares times by their signed difference. `kcpev_timer_repeat`
compares its answer with the clock as plain numbers, so a time behind the wrap
looks like one that has passed.
-/
namespace KcpEv

/-! Differences on the wrapping clock. -/

theorem itimediff_eq (a b : UInt32) : itimediff a b = ((a - b).toNat : ℤ).bmod (2 ^ 32) := by
  unfold itimediff
  rw [Int32.toInt, UInt32.toBitVec_toInt32, BitVec.toInt_eq_toNat_bmod, UInt32.toNat_toBitVec]

theorem itimediff_cases (a b : UInt32) :
    ((a - b).toNat < 2 ^ 31 ∧ itimediff a b = (a - b).toNat) ∨
      (2 ^ 31 ≤ (a - b).toNat ∧ itimediff a b = (a - b).toNat - 2 ^ 32) := by
  have hlt := (a - b).toNat_lt
  rw [itimediff_eq, Int.bmod_def, Int.emod_eq_of_lt (by omega) (by omega)]
  split
  · left
    omega
  · right
    omega

theorem toNat_sub_add (a b : UInt32) (h : a ≠ b) :
    (a - b).toNat + (b - a).toNat = 2 ^ 32 := by
  have ha := a.toNat_lt
  have hb := b.toNat_lt
  have hne : a.toNat ≠ b.toNat := fun heq => h (UInt32.toNat_inj.mp heq)
  rw [UInt32.toNat_sub, UInt32.toNat_sub]
  omega

theorem itimediff_self (a : UInt32) : itimediff a a = 0 := by
  simp [itimediff]

/-- A time that has not come is as far away as the two clocks say. -/
theorem itimediff_pending {now t : UInt32} (h : itimediff now t < 0)
    (hnear : -10000 ≤ itimediff now t) :
    itimediff t now = -itimediff now t ∧ itimediff t now = (t - now).toNat := by
  have hne : now ≠ t := by
    intro heq
    rw [heq, itimediff_self] at h
    omega
  have hsum := toNat_sub_add now t hne
  rcases itimediff_cases now t with hcase | hcase
  · omega
  · rcases itimediff_cases t now with hback | hback
    · omega
    · omega

theorem toNat_sub_of_pos {now t : UInt32} (h : 0 < itimediff t now) :
    ((t - now).toNat : ℤ) = itimediff t now := by
  rcases itimediff_cases t now with hcase | hcase
  · exact hcase.2.symm
  · have hlt := (t - now).toNat_lt
    omega

theorem toNat_ofNat_lt {m : ℕ} (hm : m < 2 ^ 32) : (UInt32.ofNat m).toNat = m := by
  rw [UInt32.toNat_ofNat', Nat.mod_eq_of_lt hm]

theorem add_ofNat_sub (now : UInt32) {m : ℕ} (hm : m < 2 ^ 32) :
    (now + UInt32.ofNat m - now).toNat = m := by
  have hnow := now.toNat_lt
  rw [UInt32.toNat_sub, UInt32.toNat_add, toNat_ofNat_lt hm]
  omega

theorem lt_add_ofNat (now : UInt32) {m : ℕ} (hpos : 0 < m) (hm : m < 2 ^ 31) :
    now < now + UInt32.ofNat m ↔ now.toNat + m < 2 ^ 32 := by
  have hnow := now.toNat_lt
  rw [UInt32.lt_iff_toNat_lt, UInt32.toNat_add, toNat_ofNat_lt (by omega)]
  omega

theorem min_ofNat {a b : ℕ} (ha : a < 2 ^ 32) (hb : b < 2 ^ 32) :
    min (UInt32.ofNat a) (UInt32.ofNat b) = UInt32.ofNat (min a b) := by
  change (if UInt32.ofNat a ≤ UInt32.ofNat b then _ else _) = _
  have hiff : UInt32.ofNat a ≤ UInt32.ofNat b ↔ a ≤ b := by
    rw [UInt32.le_iff_toNat_le, toNat_ofNat_lt ha, toNat_ofNat_lt hb]
  by_cases hle : a ≤ b
  · rw [if_pos (hiff.mpr hle), Nat.min_eq_left hle]
  · rw [if_neg (mt hiff.mp hle), Nat.min_eq_right (Nat.le_of_not_le hle)]

namespace Ikcp

/-! What `ikcp_check` says. -/

/-- The times `ikcp_update` is waited for. -/
def deadlines (k : Ikcp) : List UInt32 := k.tsFlush :: k.sndBuf.map fun seg => seg.resendts

/-- An update is due: at the first call, at the time of the flush or far away from
it, and at the time of a segment. -/
def Due (k : Ikcp) (now : UInt32) : Prop :=
  k.updated = false ∨ itimediff now k.tsFlush < -10000 ∨ 0 ≤ itimediff now k.tsFlush ∨
    ∃ seg ∈ k.sndBuf, itimediff seg.resendts now ≤ 0

instance (k : Ikcp) (now : UInt32) : Decidable (k.Due now) := inferInstanceAs (Decidable (_ ∨ _))

/-- The milliseconds to the first deadline, ten at most. -/
def wait (k : Ikcp) (now : UInt32) : ℕ :=
  (k.deadlines.map fun t => (t - now).toNat).foldr min 10

/-- The waiting time for the segments is that of the first one. -/
theorem packetWait_cases (now : UInt32) (segs : List IkcpSeg) :
    (packetWait now segs = none ∧ ∃ seg ∈ segs, itimediff seg.resendts now ≤ 0) ∨
      ∃ m : ℕ, packetWait now segs = some (m : ℤ) ∧ 0 < m ∧ m < 2 ^ 31 ∧
        (∀ seg ∈ segs, 0 < itimediff seg.resendts now) ∧
        min m 10 = (segs.map fun seg => (seg.resendts - now).toNat).foldr min 10 := by
  induction segs with
  | nil => exact Or.inr ⟨0x7fffffff, rfl, by decide, by decide, by simp, rfl⟩
  | cons seg segs ih =>
    by_cases hdue : itimediff seg.resendts now ≤ 0
    · exact Or.inl ⟨by simp [packetWait, hdue], seg, List.mem_cons_self, hdue⟩
    · have hdiff := toNat_sub_of_pos (Int.not_le.mp hdue)
      rcases ih with ⟨hnone, seg', hmem, hseg'⟩ | ⟨m, hm, hpos, hlt, hall, hmin⟩
      · exact Or.inl ⟨by simp [packetWait, hnone], seg', List.mem_cons_of_mem _ hmem, hseg'⟩
      · refine Or.inr ⟨min (seg.resendts - now).toNat m, ?_, by omega, by omega, ?_, ?_⟩
        · rw [packetWait, if_neg hdue, hm, Option.map_some, Nat.cast_min, hdiff]
        · intro seg' hmem
          rcases List.mem_cons.mp hmem with heq | hmem
          · rw [heq]
            omega
          · exact hall seg' hmem
        · rw [List.map_cons, List.foldr_cons, ← hmin]
          omega

theorem check_due {k : Ikcp} {now : UInt32} (h : k.Due now) : k.check now = now := by
  unfold check
  split
  · rfl
  · rename_i hupdated
    dsimp only
    split
    · rw [itimediff_self, if_pos le_rfl]
    · rename_i hfar
      split
      · rfl
      · rename_i hflush
        rcases packetWait_cases now k.sndBuf with ⟨hnone, -⟩ | ⟨m, -, -, -, hall, -⟩
        · rw [hnone]
        · rcases h with h | h | h | ⟨seg, hmem, hseg⟩
          · exact absurd h (by simpa using hupdated)
          · omega
          · omega
          · have hpending := hall seg hmem
            omega

theorem foldr_min_le {l : List ℕ} {a : ℕ} (h : a ∈ l) (b : ℕ) : l.foldr min b ≤ a := by
  induction l with
  | nil => cases h
  | cons c l ih =>
    rw [List.foldr_cons]
    rcases List.mem_cons.mp h with heq | hmem
    · omega
    · have hle := ih hmem
      omega

/-- An update that is not due is so many milliseconds away, and no deadline is closer. -/
theorem check_wait {k : Ikcp} {now : UInt32} (h : ¬ k.Due now) (hinterval : k.interval = 10) :
    k.check now = now + UInt32.ofNat (k.wait now) ∧ 0 < k.wait now ∧ k.wait now ≤ 10 ∧
      ∀ t ∈ k.deadlines, (k.wait now : ℤ) ≤ itimediff t now := by
  simp only [Due, not_or, not_exists, not_and] at h
  obtain ⟨hupdated, hnear, hflush, hsegs⟩ := h
  obtain ⟨hback, hnat⟩ := itimediff_pending (Int.not_le.mp hflush) (Int.not_lt.mp hnear)
  rcases packetWait_cases now k.sndBuf with ⟨-, seg, hmem, hseg⟩ | ⟨m, hm, hpos, hlt, hall, hmin⟩
  · exact absurd hseg (hsegs seg hmem)
  · have hwait : k.wait now = min (k.tsFlush - now).toNat (min m 10) := by
      rw [wait, deadlines, List.map_cons, List.foldr_cons, List.map_map, hmin]
      rfl
    have hminimal : min (UInt32.ofNat (min (m : ℤ) (itimediff k.tsFlush now)).toNat) (10 : UInt32) =
        UInt32.ofNat (k.wait now) := by
      rw [show (10 : UInt32) = UInt32.ofNat 10 from rfl, min_ofNat (by omega) (by omega), hwait]
      congr 1
      omega
    refine ⟨?_, by omega, by omega, fun t ht => ?_⟩
    · unfold check
      have hfar : ¬ (10000 ≤ itimediff now k.tsFlush ∨ itimediff now k.tsFlush < -10000) := by
        omega
      rw [if_neg (by simpa using hupdated)]
      simp only [hfar, if_false, hflush, hm, hinterval]
      rw [hminimal]
    · rcases List.mem_cons.mp ht with heq | hmem
      · rw [heq]
        omega
      · obtain ⟨seg, hseg, heq⟩ := List.mem_map.mp hmem
        rw [← heq, ← toNat_sub_of_pos (hall seg hseg)]
        have hle := foldr_min_le (List.mem_map_of_mem (f := fun seg : IkcpSeg =>
          (seg.resendts - now).toNat) hseg) 10
        omega

/-! What `ikcp_update` leaves alone. -/

theorem probeWindow_interval (k : Ikcp) : k.probeWindow.interval = k.interval := by
  unfold probeWindow
  split
  · split
    · rfl
    · split
      · rfl
      · rfl
  · rfl

theorem adjustCwnd_interval (k : Ikcp) (cwnd resent : UInt32) (reasons : List Reason) :
    (k.adjustCwnd cwnd resent reasons).interval = k.interval := by
  unfold adjustCwnd
  dsimp only
  split
  · split
    · split <;> rfl
    · split <;> rfl
  · split
    · split <;> rfl
    · split <;> rfl

theorem flush_interval (conv : ℕ) (k : Ikcp) : (k.flush conv).1.interval = k.interval := by
  unfold flush
  split
  · rfl
  · dsimp only
    rw [adjustCwnd_interval]
    exact probeWindow_interval k

theorem update_interval (conv : ℕ) (k : Ikcp) (now : UInt32) :
    (k.update conv now).1.interval = k.interval := by
  have flushed : ∀ {b : Bool} {t : UInt32},
      (flush conv { k with current := now, updated := b, tsFlush := t }).1.interval = k.interval :=
    flush_interval conv _
  unfold update
  simp only
  split <;> split <;> split
  all_goals first
    | exact flushed
    | rfl

end Ikcp

/-! One call of `kcpev_timer_repeat`. -/

/-- What a call does to the KCP object and its timer. -/
structure TimerPlan (K : Type) where
  /-- `ikcp_update` is called -/
  called : Bool
  state : K
  bufs : List Bytes
  again : ℕ

/-- The decisions of `kcpev_timer_repeat`. -/
def timerPlan {K : Type} [KcpImpl K] (conv : ℕ) (k : K) (now : UInt32) : TimerPlan K :=
  let next := KcpImpl.check k now
  if next ≤ now then
    let (state, bufs) := KcpImpl.update conv k now
    let next := KcpImpl.check state now
    { called := true, state, bufs, again := if next ≤ now then 10 else (next - now).toNat }
  else { called := false, state := k, bufs := [], again := (next - now).toNat }

/-- A call with a live KCP object and a timer carries out the plan. -/
theorem kcpevTimerRepeat_eq {K T : Type} [KcpImpl K] [ClockImpl T] {w : World K T} {c q evt : ℕ}
    {obj : Kcpev T} {kcp : Ikcpcb K} (output : ℕ → Option ℕ) (hobj : w.objs c = some obj)
    (hkcp : obj.udp.kcp = some q) (hlive : w.os.kcps q = some kcp) (hevt : obj.udp.evt = some evt) :
    kcpevTimerRepeat w c output =
      let plan := timerPlan kcp.conv kcp.state (ClockImpl.ms w.os.now)
      .ok { w with os := ((udpOutputs obj.udp.sock output 0 w.os plan.bufs).setKcp q
        { kcp with state := plan.state }).evTimerAgain evt plan.again } := by
  have hget : w.kcpev c = .ok obj := World.kcpev_ok.mpr hobj
  unfold kcpevTimerRepeat timerPlan
  simp only [hget, hkcp, hlive, hevt, bind, Except.bind]
  by_cases hdue : KcpImpl.check kcp.state (ClockImpl.ms w.os.now) ≤ ClockImpl.ms w.os.now
  · simp only [hdue, if_true]
    rfl
  · simp only [hdue, if_false]
    rfl

/-- The timer follows `ikcp_check`: an update is made exactly when it is due; the
delay is the time to the next one, or ten milliseconds when one is still due; it is
between one and ten, and no deadline passes that has not come yet. -/
structure TimerExact (conv : ℕ) (k : Ikcp) (now : UInt32) : Prop where
  called : (timerPlan conv k now).called = true ↔ k.check now = now
  again : (timerPlan conv k now).again =
    if (timerPlan conv k now).state.check now = now then 10
    else ((timerPlan conv k now).state.check now - now).toNat
  range : 1 ≤ (timerPlan conv k now).again ∧ (timerPlan conv k now).again ≤ 10
  deadlines : ∀ t ∈ (timerPlan conv k now).state.deadlines, 0 < itimediff t now →
    ((timerPlan conv k now).again : ℤ) ≤ itimediff t now

/-- When it does: the time waited for is not behind the wrap, unless ten milliseconds
are waited anyway, and what is still due does not hide a closer deadline. -/
def TimerInTime (conv : ℕ) (k : Ikcp) (now : UInt32) : Prop :=
  if k.Due now then
    let k' := (k.update conv now).1
    if k'.Due now then ∀ t ∈ k'.deadlines, 0 < itimediff t now → 10 ≤ itimediff t now
    else now.toNat + k'.wait now < 2 ^ 32 ∨ k'.wait now = 10
  else now.toNat + k.wait now < 2 ^ 32

instance (conv : ℕ) (k : Ikcp) (now : UInt32) : Decidable (TimerInTime conv k now) := by
  unfold TimerInTime
  infer_instance

namespace Ikcp

variable {k : Ikcp} {now : UInt32}

/-- A time that is not due is not passed, as a number, unless it is behind the wrap. -/
theorem check_le_iff (h : ¬ k.Due now) (hinterval : k.interval = 10) :
    k.check now ≤ now ↔ 2 ^ 32 ≤ now.toNat + k.wait now := by
  obtain ⟨hcheck, hpos, hten, -⟩ := check_wait h hinterval
  rw [hcheck, ← UInt32.not_lt, lt_add_ofNat now hpos (by omega)]
  omega

theorem check_eq_iff (hinterval : k.interval = 10) : k.check now = now ↔ k.Due now := by
  constructor
  · intro heq
    by_contra h
    obtain ⟨hcheck, hpos, hten, -⟩ := check_wait h hinterval
    have hzero := add_ofNat_sub now (m := k.wait now) (by omega)
    rw [← hcheck, heq, UInt32.sub_self] at hzero
    have : (0 : UInt32).toNat = 0 := rfl
    omega
  · exact check_due

theorem check_sub (h : ¬ k.Due now) (hinterval : k.interval = 10) :
    (k.check now - now).toNat = k.wait now := by
  obtain ⟨hcheck, -, hten, -⟩ := check_wait h hinterval
  rw [hcheck, add_ofNat_sub now (by omega)]

end Ikcp

section Plan
variable {conv : ℕ} {k : Ikcp} {now : UInt32}

theorem timerPlan_called (conv : ℕ) (h : k.check now ≤ now) :
    timerPlan conv k now =
      { called := true, state := (k.update conv now).1, bufs := (k.update conv now).2
        again := if (k.update conv now).1.check now ≤ now then 10
          else ((k.update conv now).1.check now - now).toNat } := by
  unfold timerPlan
  exact if_pos h

theorem timerPlan_waits (conv : ℕ) (h : ¬ k.check now ≤ now) :
    timerPlan conv k now =
      { called := false, state := k, bufs := [], again := (k.check now - now).toNat } := by
  unfold timerPlan
  exact if_neg h

theorem check_le_of_due (h : k.Due now) : k.check now ≤ now := by
  rw [Ikcp.check_due h]
  exact UInt32.le_refl now

/-- Nothing is due. -/
theorem timerExact_waits (hdue : ¬ k.Due now) (hinterval : k.interval = 10) :
    TimerExact conv k now ↔ now.toNat + k.wait now < 2 ^ 32 := by
  obtain ⟨-, hpos, hten, hfirst⟩ := Ikcp.check_wait hdue hinterval
  have hne : k.check now ≠ now := fun heq => hdue ((Ikcp.check_eq_iff hinterval).mp heq)
  by_cases hwrap : k.check now ≤ now
  · have hbehind := (Ikcp.check_le_iff hdue hinterval).mp hwrap
    refine iff_of_false (fun h => hne (h.called.mp ?_)) (by omega)
    rw [timerPlan_called _ hwrap]
  · have hbefore : ¬ 2 ^ 32 ≤ now.toNat + k.wait now :=
      fun h => hwrap ((Ikcp.check_le_iff hdue hinterval).mpr h)
    have hplan := timerPlan_waits conv hwrap
    have hdelay := Ikcp.check_sub hdue hinterval
    refine iff_of_true ⟨?_, ?_, ?_, ?_⟩ (by omega)
    · rw [hplan]
      exact iff_of_false (by simp) hne
    · rw [hplan]
      dsimp only
      rw [if_neg hne]
    · rw [hplan]
      dsimp only
      omega
    · intro t ht _
      rw [hplan] at ht ⊢
      dsimp only at ht ⊢
      rw [hdelay]
      exact hfirst t ht

/-- An update is due, and is still due behind it. -/
theorem timerExact_still (hdue : k.Due now)
    (hstill : (k.update conv now).1.Due now) :
    TimerExact conv k now ↔
      ∀ t ∈ (k.update conv now).1.deadlines, 0 < itimediff t now → 10 ≤ itimediff t now := by
  have hplan := timerPlan_called conv (check_le_of_due hdue)
  rw [if_pos (check_le_of_due hstill)] at hplan
  constructor
  · intro h t ht hpos
    have hlate := h.deadlines t (by rw [hplan]; exact ht) hpos
    rw [hplan] at hlate
    exact hlate
  · intro h
    refine ⟨?_, ?_, ?_, ?_⟩
    · rw [hplan]
      exact iff_of_true rfl (Ikcp.check_due hdue)
    · rw [hplan]
      dsimp only
      rw [if_pos (Ikcp.check_due hstill)]
    · rw [hplan]
      exact ⟨Nat.succ_pos 9, le_rfl⟩
    · intro t ht hpos
      rw [hplan] at ht ⊢
      exact h t ht hpos

/-- An update is due, and the next one is not. -/
theorem timerExact_next (hdue : k.Due now) (hinterval : k.interval = 10)
    (hnext : ¬ (k.update conv now).1.Due now) :
    TimerExact conv k now ↔ now.toNat + (k.update conv now).1.wait now < 2 ^ 32 ∨
      (k.update conv now).1.wait now = 10 := by
  have hinterval' : (k.update conv now).1.interval = 10 := by
    rw [Ikcp.update_interval, hinterval]
  obtain ⟨-, hpos, hten, hfirst⟩ := Ikcp.check_wait hnext hinterval'
  have hplan := timerPlan_called conv (check_le_of_due hdue)
  have hwrap := Ikcp.check_le_iff hnext hinterval'
  have hdelay := Ikcp.check_sub hnext hinterval'
  have hne : (k.update conv now).1.check now ≠ now :=
    fun heq => hnext ((Ikcp.check_eq_iff hinterval').mp heq)
  have hagain : (timerPlan conv k now).again = if 2 ^ 32 ≤ now.toNat +
      (k.update conv now).1.wait now then 10 else (k.update conv now).1.wait now := by
    rw [hplan]
    simp only [hwrap, hdelay]
  have hstate : (timerPlan conv k now).state = (k.update conv now).1 := by
    rw [hplan]
  constructor
  · intro h
    have hexact := h.again
    rw [hagain, hstate, if_neg hne, hdelay] at hexact
    split at hexact
    · omega
    · omega
  · intro h
    have hsame : (timerPlan conv k now).again = (k.update conv now).1.wait now := by
      rw [hagain]
      split
      · omega
      · rfl
    refine ⟨?_, ?_, ?_, ?_⟩
    · rw [hplan]
      exact iff_of_true rfl (Ikcp.check_due hdue)
    · rw [hsame, hstate, if_neg hne, hdelay]
    · rw [hsame]
      exact ⟨hpos, hten⟩
    · intro t ht _
      rw [hsame]
      rw [hstate] at ht
      exact hfirst t ht

end Plan

/-- Sixteen milliseconds before the wrap the flush is due, and so is the first of the two
segments in flight; the second one is due six milliseconds later. -/
def nearWrap : Ikcp :=
  { Ikcp.kcpevCreateKcp with
    updated := true, tsFlush := 0xfffffff0, sndNxt := 2, cwnd := 2
    sndBuf := [
      { conv := 7, cmd := .push, frg := 1, wnd := 128, ts := 0xffffff00, sn := 0, una := 0
        resendts := 0xffffffee, rto := 200, fastack := 0, xmit := 1, data := [1, 2, 3] },
      { conv := 7, cmd := .push, frg := 0, wnd := 128, ts := 0xffffff00, sn := 1, una := 0
        resendts := 0xfffffff6, rto := 200, fastack := 0, xmit := 1, data := [4] }] }

/-- A client with that KCP object. The clock of the loop stands where its milliseconds wrap
sixteen later. -/
def World.nearWrap : World Ikcp ℕ :=
  { os :=
      { socks := Function.update (fun _ => none) 3 (some ⟨some 9⟩), ios := fun _ => none
        timers := Function.update (fun _ => none) 2 (some ⟨.kcpev 1, .kcpevOnTimer, 10⟩)
        kcps := Function.update (fun _ => none) 1 (some ⟨7, KcpEv.nearWrap⟩)
        next := 3, now := 1378684502, out := [] }
    server := none
    objs := Function.update (fun _ => none) 1 (some
      { (kcpevCreate : Kcpev ℕ) with
        udp := { (KcpevBase.zero : KcpevBase ℕ).udp with
          sock := 3, evt := some 2, kcp := some 1, status := .ready } }) }

/-- Three milliseconds before the wrap, eight before the flush. -/
def beforeWrap : Ikcp := { Ikcp.kcpevCreateKcp with updated := true, tsFlush := 5 }

end KcpEv
