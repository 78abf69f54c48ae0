import KcpEv.Schedule

/-!
Serial numbers of 32 bits. Around any of them the others are as far ahead as their
difference says, and `_itimediff` orders those that are less than half of the circle
apart.
-/
namespace KcpEv

/-- How far a number is ahead of another. -/
def ahead (base x : UInt32) : ℕ := (x - base).toNat

theorem ahead_lt (base x : UInt32) : ahead base x < 2 ^ 32 := UInt32.toNat_lt _

theorem ahead_self (base : UInt32) : ahead base base = 0 := by
  rw [ahead, UInt32.sub_self]
  rfl

theorem ahead_zero (x : UInt32) : ahead 0 x = x.toNat := by
  rw [ahead, UInt32.sub_zero]

theorem ahead_eq (base x : UInt32) :
    ahead base x = (2 ^ 32 - base.toNat + x.toNat) % 2 ^ 32 := UInt32.toNat_sub _ _

theorem ahead_inj {base x y : UInt32} : ahead base x = ahead base y ↔ x = y := by
  constructor
  · intro h
    rw [ahead_eq, ahead_eq] at h
    have hbase := base.toNat_lt
    have hx := x.toNat_lt
    have hy := y.toNat_lt
    exact UInt32.toNat_inj.mp (by omega)
  · rintro rfl
    rfl

/-- The base can move up to a number. -/
theorem ahead_rebase {base mid x : UInt32} (h : ahead base mid ≤ ahead base x) :
    ahead mid x = ahead base x - ahead base mid := by
  rw [ahead_eq, ahead_eq] at h
  rw [ahead_eq, ahead_eq base x, ahead_eq base mid]
  have hbase := base.toNat_lt
  have hmid := mid.toNat_lt
  have hx := x.toNat_lt
  omega

theorem ahead_add (base x : UInt32) {n : ℕ} (h : ahead base x + n < 2 ^ 32) :
    ahead base (x + UInt32.ofNat n) = ahead base x + n := by
  rw [ahead_eq] at h ⊢
  rw [ahead_eq base x, UInt32.toNat_add, UInt32.toNat_ofNat']
  have hbase := base.toNat_lt
  have hx := x.toNat_lt
  omega

theorem ahead_succ (base x : UInt32) (h : ahead base x + 1 < 2 ^ 32) :
    ahead base (x + 1) = ahead base x + 1 := ahead_add base x h

/-- Numbers near each other are compared as they should be. -/
theorem itimediff_ahead {base x y : UInt32} (hlow : ahead base y ≤ 2 ^ 31 + ahead base x)
    (hhigh : ahead base x < 2 ^ 31 + ahead base y) :
    itimediff x y = (ahead base x : ℤ) - ahead base y := by
  have hbase := base.toNat_lt
  have hx := x.toNat_lt
  have hy := y.toNat_lt
  have hsub : (x - y).toNat = (2 ^ 32 - y.toNat + x.toNat) % 2 ^ 32 := UInt32.toNat_sub _ _
  rw [ahead_eq, ahead_eq] at *
  rcases itimediff_cases x y with hcase | hcase
  · omega
  · omega

theorem itimediff_base (base x : UInt32) : 0 ≤ itimediff x base ↔ ahead base x < 2 ^ 31 := by
  have hlt := ahead_lt base x
  rcases itimediff_cases x base with hcase | hcase
  · rw [hcase.2]
    exact iff_of_true (Int.natCast_nonneg _) hcase.1
  · have hfar : 2 ^ 31 ≤ ahead base x := hcase.1
    have heq : itimediff x base = (ahead base x : ℤ) - 2 ^ 32 := hcase.2
    omega

theorem ahead_end (base wnd : UInt32) : ahead base (base + wnd) = wnd.toNat := by
  rw [ahead_eq, UInt32.toNat_add]
  have hbase := base.toNat_lt
  have hwnd := wnd.toNat_lt
  omega

/-- A number that is not behind the base and before the end of a window is inside. -/
theorem ahead_window {base wnd x : UInt32} (hwnd : wnd.toNat < 2 ^ 31)
    (hfirst : 0 ≤ itimediff x base) (hlast : itimediff x (base + wnd) < 0) :
    ahead base x < wnd.toNat := by
  have hnear := (itimediff_base base x).mp hfirst
  have hend := ahead_end base wnd
  have hdiff : itimediff x (base + wnd) = (ahead base x : ℤ) - ahead base (base + wnd) :=
    itimediff_ahead (by omega) (by omega)
  rw [hdiff, hend] at hlast
  omega

theorem itimediff_end {base wnd : UInt32} (hwnd : wnd.toNat < 2 ^ 31) :
    itimediff base (base + wnd) = -wnd.toNat := by
  have hend := ahead_end base wnd
  have hself := ahead_self base
  have hdiff : itimediff base (base + wnd) = (ahead base base : ℤ) - ahead base (base + wnd) :=
    itimediff_ahead (by omega) (by omega)
  rw [hdiff, hend, hself]
  omega

/-! Small numbers. -/

theorem itimediff_small {x y : UInt32} (hx : x.toNat < 2 ^ 31) (hy : y.toNat < 2 ^ 31) :
    itimediff x y = (x.toNat : ℤ) - y.toNat := by
  rw [← ahead_zero x, ← ahead_zero y] at *
  exact itimediff_ahead (by omega) (by omega)

theorem toNat_succ {x : UInt32} (h : x.toNat + 1 < 2 ^ 32) : (x + 1).toNat = x.toNat + 1 := by
  rw [← ahead_zero x, ← ahead_zero (x + 1)] at *
  exact ahead_succ 0 x h

end KcpEv
