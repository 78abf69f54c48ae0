import KcpEv.Lib.Relational
import KcpEv.Linked

/-!
Two states of the surroundings side by side. The slots of all objects but one
refer to the same things on both sides, whatever their numbers and addresses;
what the slots of that one refer to stays as it was.
-/
namespace KcpEv

open Ownership Relational

variable {K T : Type}

/-- What a watcher does, without the number of the descriptor it watches. -/
def EvIo.callback (e : EvIo) : Owner × IoCb := (e.data, e.cb)

/-- `track` is a pointer to a KCP object that a running callback has on either side. -/
structure Paired (B : Owner) (old₁ old₂ : Os K T) (track : Option (ℕ × ℕ)) (os₁ : Os K T)
    (objs₁ : Owner → Option Slots) (os₂ : Os K T) (objs₂ : Owner → Option Slots) : Prop where
  socks : Twin (fun x => x.1 = B) id old₁.socks old₂.socks os₁.socks (refs Slots.sockSlot objs₁)
    os₂.socks (refs Slots.sockSlot objs₂)
  ios : Twin (fun x => x.1 = B) EvIo.callback old₁.ios old₂.ios os₁.ios (refs Slots.ioSlot objs₁)
    os₂.ios (refs Slots.ioSlot objs₂)
  timers : Twin (fun x => x.1 = B) id old₁.timers old₂.timers os₁.timers
    (refs Slots.timerSlot objs₁) os₂.timers (refs Slots.timerSlot objs₂)
  kcps : Twin (fun x => x.1 = B) id old₁.kcps old₂.kcps os₁.kcps (refs Slots.kcpSlot objs₁)
    os₂.kcps (refs Slots.kcpSlot objs₂)
  fresh₁ : ∀ {p}, os₁.next ≤ p → os₁.ios p = none ∧ os₁.timers p = none ∧ os₁.kcps p = none
  fresh₂ : ∀ {p}, os₂.next ≤ p → os₂.ios p = none ∧ os₂.timers p = none ∧ os₂.kcps p = none
  zero : os₁.socks 0 = os₂.socks 0
  now : os₁.now = os₂.now
  tracked : ∀ {i j}, track = some (i, j) → i < os₁.next ∧ j < os₂.next ∧
    Tracked (fun x => x.1 = B) os₁.kcps (refs Slots.kcpSlot objs₁) os₂.kcps
      (refs Slots.kcpSlot objs₂) i j

/-- The two states while the functions of the library work on one object. -/
abbrev PairedAt (B o : Owner) (old₁ old₂ : Os K T) (track : Option (ℕ × ℕ))
    (objs₁ objs₂ : Owner → Option Slots) (os₁ : Os K T) (s₁ : Slots) (os₂ : Os K T)
    (s₂ : Slots) : Prop :=
  Paired B old₁ old₂ track os₁ (Function.update objs₁ o (some s₁)) os₂
    (Function.update objs₂ o (some s₂))

namespace Paired

variable {B o : Owner} {old₁ old₂ os₁ os₂ os₁' os₂' : Os K T} {track : Option (ℕ × ℕ)}
  {objs₁ objs₂ : Owner → Option Slots} {s₁ s₂ : Slots} {side : Side}

/-- The slots for one socket change, and with them the tables of sockets and watchers. -/
theorem withSock (h : PairedAt B o old₁ old₂ track objs₁ objs₂ os₁ s₁ os₂ s₂) (side : Side)
    {k₁ k₂ : KcpevSock}
    (hsocks : Twin (fun x => x.1 = B) id old₁.socks old₂.socks os₁'.socks
      (Function.update (refs Slots.sockSlot (Function.update objs₁ o (some s₁))) (o, side) k₁.ref)
      os₂'.socks
      (Function.update (refs Slots.sockSlot (Function.update objs₂ o (some s₂))) (o, side) k₂.ref))
    (hios : Twin (fun x => x.1 = B) EvIo.callback old₁.ios old₂.ios os₁'.ios
      (Function.update (refs Slots.ioSlot (Function.update objs₁ o (some s₁))) (o, side) k₁.evio)
      os₂'.ios
      (Function.update (refs Slots.ioSlot (Function.update objs₂ o (some s₂))) (o, side) k₂.evio))
    (hzero : os₁'.socks 0 = os₂'.socks 0)
    (hrest₁ : os₁'.timers = os₁.timers ∧ os₁'.kcps = os₁.kcps ∧ os₁.next ≤ os₁'.next ∧
      os₁'.now = os₁.now)
    (hrest₂ : os₂'.timers = os₂.timers ∧ os₂'.kcps = os₂.kcps ∧ os₂.next ≤ os₂'.next ∧
      os₂'.now = os₂.now)
    (hfresh₁ : ∀ {p}, os₁'.next ≤ p → os₁'.ios p = none)
    (hfresh₂ : ∀ {p}, os₂'.next ≤ p → os₂'.ios p = none) :
    PairedAt B o old₁ old₂ track objs₁ objs₂ os₁' (s₁.withSock side k₁) os₂'
      (s₂.withSock side k₂) := by
  obtain ⟨htimers₁, hkcps₁, hnext₁, hnow₁⟩ := hrest₁
  obtain ⟨htimers₂, hkcps₂, hnext₂, hnow₂⟩ := hrest₂
  refine ⟨?_, ?_, ?_, ?_, fun hp => ?_, fun hp => ?_, hzero, ?_, fun hij => ?_⟩
  · rw [refs_update o (s₁.sockSlot_withSock side k₁), refs_update o (s₂.sockSlot_withSock side k₂)]
    exact hsocks
  · rw [refs_update o (s₁.ioSlot_withSock side k₁), refs_update o (s₂.ioSlot_withSock side k₂)]
    exact hios
  · rw [refs_congr o (s₁.timerSlot_withSock side k₁), refs_congr o (s₂.timerSlot_withSock side k₂),
      htimers₁, htimers₂]
    exact h.timers
  · rw [refs_congr o (s₁.kcpSlot_withSock side k₁), refs_congr o (s₂.kcpSlot_withSock side k₂),
      hkcps₁, hkcps₂]
    exact h.kcps
  · rw [htimers₁, hkcps₁]
    exact ⟨hfresh₁ hp, (h.fresh₁ (hnext₁.trans hp)).2⟩
  · rw [htimers₂, hkcps₂]
    exact ⟨hfresh₂ hp, (h.fresh₂ (hnext₂.trans hp)).2⟩
  · rw [hnow₁, hnow₂]
    exact h.now
  · rw [refs_congr o (s₁.kcpSlot_withSock side k₁), refs_congr o (s₂.kcpSlot_withSock side k₂),
      hkcps₁, hkcps₂]
    obtain ⟨hi, hj, htracked⟩ := h.tracked hij
    exact ⟨hi.trans_le hnext₁, hj.trans_le hnext₂, htracked⟩

/-- The table of watchers when the watchers of the slots stay. -/
theorem ios_self (h : PairedAt B o old₁ old₂ track objs₁ objs₂ os₁ s₁ os₂ s₂) (side : Side)
    {k₁ k₂ : KcpevSock}
    (hk₁ : k₁.evio = (s₁.sock side).evio) (hk₂ : k₂.evio = (s₂.sock side).evio) :
    Twin (fun x => x.1 = B) EvIo.callback old₁.ios old₂.ios os₁.ios
      (Function.update (refs Slots.ioSlot (Function.update objs₁ o (some s₁))) (o, side) k₁.evio)
      os₂.ios
      (Function.update (refs Slots.ioSlot (Function.update objs₂ o (some s₂))) (o, side)
        k₂.evio) := by
  have hself₁ : refs Slots.ioSlot (Function.update objs₁ o (some s₁)) (o, side) = k₁.evio := by
    rw [refs_self, hk₁]
    rfl
  have hself₂ : refs Slots.ioSlot (Function.update objs₂ o (some s₂)) (o, side) = k₂.evio := by
    rw [refs_self, hk₂]
    rfl
  rw [← hself₁, Function.update_eq_self, ← hself₂, Function.update_eq_self]
  exact h.ios

/-- The table of sockets changes, and the slots stay. -/
theorem withSocks (h : Paired B old₁ old₂ track os₁ objs₁ os₂ objs₂)
    {socks₁ socks₂ : ℕ → Option Sock}
    (hsocks : Twin (fun x => x.1 = B) id old₁.socks old₂.socks socks₁
      (refs Slots.sockSlot objs₁) socks₂ (refs Slots.sockSlot objs₂))
    (hzero : socks₁ 0 = socks₂ 0) :
    Paired B old₁ old₂ track { os₁ with socks := socks₁ } objs₁ { os₂ with socks := socks₂ }
      objs₂ :=
  ⟨hsocks, h.ios, h.timers, h.kcps, h.fresh₁, h.fresh₂, hzero, h.now, h.tracked⟩

/-- The numbers of two sockets are both zero, or neither is. -/
theorem update_zero {fd₁ fd₂ : ℕ} (hzero : fd₁ = 0 ↔ fd₂ = 0) (v : Option Sock)
    (h : os₁.socks 0 = os₂.socks 0) :
    Function.update os₁.socks fd₁ v 0 = Function.update os₂.socks fd₂ v 0 := by
  by_cases h₁ : fd₁ = 0
  · simp [h₁, hzero.mp h₁]
  · have h₂ : fd₂ ≠ 0 := fun heq => h₁ (hzero.mpr heq)
    rw [Function.update_of_ne (Ne.symm h₁), Function.update_of_ne h₂.symm]
    exact h

theorem openSock (h : PairedAt B o old₁ old₂ track objs₁ objs₂ os₁ s₁ os₂ s₂) (ho : o ≠ B)
    (side : Side) {fd₁ fd₂ : ℕ}
    (hzero : fd₁ = 0 ↔ fd₂ = 0) (hfree₁ : os₁.socks fd₁ = none) (hfree₂ : os₂.socks fd₂ = none)
    (v : Sock) :
    PairedAt B o old₁ old₂ track objs₁ objs₂
      { os₁ with socks := Function.update os₁.socks fd₁ (some v) }
      (s₁.withSock side { s₁.sock side with sock := fd₁ })
      { os₂ with socks := Function.update os₂.socks fd₂ (some v) }
      (s₂.withSock side { s₂.sock side with sock := fd₂ }) := by
  refine h.withSock side ?_ (h.ios_self side rfl rfl) (update_zero hzero _ h.zero)
    ⟨rfl, rfl, le_rfl, rfl⟩ ⟨rfl, rfl, le_rfl, rfl⟩ (fun hp => (h.fresh₁ hp).1)
    fun hp => (h.fresh₂ hp).1
  by_cases h₁ : fd₁ = 0
  · have href₁ : KcpevSock.ref { s₁.sock side with sock := fd₁ } = none := if_pos h₁
    have href₂ : KcpevSock.ref { s₂.sock side with sock := fd₂ } = none := if_pos (hzero.mp h₁)
    rw [href₁, href₂]
    have hdrop := h.socks.drop (o, side)
    exact hdrop.strays hfree₁ hfree₂ _ _
  · have h₂ : fd₂ ≠ 0 := fun heq => h₁ (hzero.mpr heq)
    have href₁ : KcpevSock.ref { s₁.sock side with sock := fd₁ } = some fd₁ := if_neg h₁
    have href₂ : KcpevSock.ref { s₂.sock side with sock := fd₂ } = some fd₂ := if_neg h₂
    rw [href₁, href₂]
    exact h.socks.acquire ho hfree₁ hfree₂ rfl

/-- A socket field is cleared without a `close`. -/
theorem dropSock (h : PairedAt B o old₁ old₂ track objs₁ objs₂ os₁ s₁ os₂ s₂) (side : Side) :
    PairedAt B o old₁ old₂ track objs₁ objs₂ os₁ (s₁.withSock side { s₁.sock side with sock := 0 })
      os₂ (s₂.withSock side { s₂.sock side with sock := 0 }) :=
  h.withSock side (h.socks.drop (o, side)) (h.ios_self side rfl rfl) h.zero
    ⟨rfl, rfl, le_rfl, rfl⟩ ⟨rfl, rfl, le_rfl, rfl⟩ (fun hp => (h.fresh₁ hp).1)
    fun hp => (h.fresh₂ hp).1

/-- New sockets nobody refers to. -/
theorem leakSock (h : Paired B old₁ old₂ track os₁ objs₁ os₂ objs₂) {fd₁ fd₂ : ℕ}
    (hzero : fd₁ = 0 ↔ fd₂ = 0) (hfree₁ : os₁.socks fd₁ = none) (hfree₂ : os₂.socks fd₂ = none)
    (v : Sock) :
    Paired B old₁ old₂ track { os₁ with socks := Function.update os₁.socks fd₁ (some v) } objs₁
      { os₂ with socks := Function.update os₂.socks fd₂ (some v) } objs₂ :=
  h.withSocks (h.socks.strays hfree₁ hfree₂ _ _) (update_zero hzero _ h.zero)

theorem refs_sock (objs : Owner → Option Slots) (s : Slots) (side : Side) :
    refs Slots.sockSlot (Function.update objs o (some s)) (o, side) = (s.sock side).ref :=
  refs_self ..

theorem ref_zero_iff (h : PairedAt B o old₁ old₂ track objs₁ objs₂ os₁ s₁ os₂ s₂) (ho : o ≠ B)
    (side : Side) :
    (s₁.sock side).sock = 0 ↔ (s₂.sock side).sock = 0 := by
  have hnone := h.socks.eq_none_iff (k := (o, side)) ho
  rw [refs_sock, refs_sock] at hnone
  simpa [KcpevSock.ref] using hnone

theorem connect (h : PairedAt B o old₁ old₂ track objs₁ objs₂ os₁ s₁ os₂ s₂) (ho : o ≠ B)
    (side : Side) (addr : Addr) :
    PairedAt B o old₁ old₂ track objs₁ objs₂ (os₁.connect (s₁.sock side).sock addr) s₁
      (os₂.connect (s₂.sock side).sock addr) s₂ := by
  have hzero := h.ref_zero_iff ho side
  by_cases h₁ : (s₁.sock side).sock = 0
  · have h₂ := hzero.mp h₁
    have heq := h.zero
    unfold Os.connect
    rw [h₁, h₂, ← heq]
    split
    · exact h
    · rename_i v hv
      have none_zero : ∀ {objs : Owner → Option Slots} (k : Owner × Side),
          refs Slots.sockSlot objs k ≠ some 0 := by
        intro objs k hk
        obtain ⟨s, -, hs⟩ := refs_eq_some.mp hk
        exact (KcpevSock.ref_eq_some.mp hs).2 rfl
      exact h.withSocks (h.socks.stray none_zero none_zero _ _) (by simp)
  · have h₂ : (s₂.sock side).sock ≠ 0 := fun heq => h₁ (hzero.mpr heq)
    have href₁ : refs Slots.sockSlot (Function.update objs₁ o (some s₁)) (o, side) =
        some (s₁.sock side).sock := (refs_sock ..).trans (if_neg h₁)
    have href₂ : refs Slots.sockSlot (Function.update objs₂ o (some s₂)) (o, side) =
        some (s₂.sock side).sock := (refs_sock ..).trans (if_neg h₂)
    obtain ⟨v₁, hv₁⟩ := Option.isSome_iff_exists.mp (h.socks.left.live href₁)
    obtain ⟨v₂, hv₂⟩ := Option.isSome_iff_exists.mp (h.socks.right.live href₂)
    simp only [Os.connect, hv₁, hv₂]
    exact h.withSocks (h.socks.change ho href₁ href₂ rfl) (update_zero hzero _ h.zero)

theorem startIo (h : PairedAt B o old₁ old₂ track objs₁ objs₂ os₁ s₁ os₂ s₂) (ho : o ≠ B)
    (side : Side) (cb : IoCb) :
    PairedAt B o old₁ old₂ track objs₁ objs₂
      (os₁.evIoStart { fd := (s₁.sock side).sock, data := o, cb }).1
      (s₁.withSock side { s₁.sock side with evio := some os₁.next })
      (os₂.evIoStart { fd := (s₂.sock side).sock, data := o, cb }).1
      (s₂.withSock side { s₂.sock side with evio := some os₂.next }) := by
  have fresh : ∀ {os : Os K T} {e : EvIo} {p : ℕ},
      (∀ {p}, os.next ≤ p → os.ios p = none ∧ os.timers p = none ∧ os.kcps p = none) →
      (os.evIoStart e).1.next ≤ p → (os.evIoStart e).1.ios p = none := by
    intro os e p hfresh hp
    have hlt : os.next + 1 ≤ p := hp
    simp only [Os.evIoStart]
    rw [Function.update_of_ne (by omega)]
    exact (hfresh (by omega)).1
  refine h.withSock side ?_ ?_ h.zero ⟨rfl, rfl, Nat.le_succ _, rfl⟩ ⟨rfl, rfl, Nat.le_succ _, rfl⟩
    (fresh h.fresh₁) (fresh h.fresh₂)
  · have hself₁ : refs Slots.sockSlot (Function.update objs₁ o (some s₁)) (o, side) =
        KcpevSock.ref { s₁.sock side with evio := some os₁.next } := refs_self ..
    have hself₂ : refs Slots.sockSlot (Function.update objs₂ o (some s₂)) (o, side) =
        KcpevSock.ref { s₂.sock side with evio := some os₂.next } := refs_self ..
    rw [← hself₁, Function.update_eq_self, ← hself₂, Function.update_eq_self]
    exact h.socks
  · exact h.ios.acquire ho (h.fresh₁ le_rfl).1 (h.fresh₂ le_rfl).1 rfl

theorem refs_io (objs : Owner → Option Slots) (s : Slots) (side : Side) :
    refs Slots.ioSlot (Function.update objs o (some s)) (o, side) = (s.sock side).evio :=
  refs_self ..

theorem destroySock_now (os : Os K T) (k : KcpevSock) : (k.destroy os).1.now = os.now := by
  rcases k with ⟨fd, _ | p⟩
  · by_cases h : fd = 0 <;> simp [KcpevSock.destroy, closeSock, stopIo, h, Os.close]
  · by_cases h : fd = 0 <;> simp [KcpevSock.destroy, closeSock, stopIo, h, Os.close, Os.evIoStop]

/-- Descriptor zero is never closed. -/
theorem destroySock_zero (os : Os K T) (k : KcpevSock) : (k.destroy os).1.socks 0 = os.socks 0 := by
  rw [Owned.destroySock_socks]
  rcases hk : k.ref with _ | fd
  · rfl
  · have hne := (KcpevSock.ref_eq_some.mp hk).2
    rw [Option.elim_some, Function.update_of_ne hne.symm]

theorem destroySock (h : PairedAt B o old₁ old₂ track objs₁ objs₂ os₁ s₁ os₂ s₂) (ho : o ≠ B)
    (side : Side) :
    PairedAt B o old₁ old₂ track objs₁ objs₂ ((s₁.sock side).destroy os₁).1
      (s₁.withSock side KcpevSock.zero) ((s₂.sock side).destroy os₂).1
      (s₂.withSock side KcpevSock.zero) := by
  obtain ⟨htimers₁, hkcps₁, hnext₁, hnow₁⟩ := Owned.destroySock_rest os₁ (s₁.sock side)
  obtain ⟨htimers₂, hkcps₂, hnext₂, hnow₂⟩ := Owned.destroySock_rest os₂ (s₂.sock side)
  refine h.withSock side ?_ ?_ ?_ ⟨htimers₁, hkcps₁, hnext₁.ge, ?_⟩
    ⟨htimers₂, hkcps₂, hnext₂.ge, ?_⟩
    ?_ ?_
  · rw [Owned.destroySock_socks os₁, Owned.destroySock_socks os₂, ← refs_sock objs₁ s₁ side,
      ← refs_sock objs₂ s₂ side]
    exact h.socks.clear ho
  · rw [Owned.destroySock_ios os₁, Owned.destroySock_ios os₂, ← refs_io objs₁ s₁ side,
      ← refs_io objs₂ s₂ side]
    exact h.ios.clear ho
  · rw [destroySock_zero, destroySock_zero]
    exact h.zero
  · exact destroySock_now os₁ _
  · exact destroySock_now os₂ _
  · intro p hp
    rw [hnext₁] at hp
    rw [Owned.destroySock_ios os₁]
    exact Owned.elim_update_none _ (h.fresh₁ hp).1
  · intro p hp
    rw [hnext₂] at hp
    rw [Owned.destroySock_ios os₂]
    exact Owned.elim_update_none _ (h.fresh₂ hp).1

/-- The slot for one timer changes, and with it the table of timers. -/
theorem withClock (h : PairedAt B o old₁ old₂ track objs₁ objs₂ os₁ s₁ os₂ s₂) (clock : Clock)
    {v₁ v₂ : Option ℕ} {timers₁ timers₂ : ℕ → Option EvTimer} {next₁ next₂ : ℕ}
    (htimers : Twin (fun x => x.1 = B) id old₁.timers old₂.timers timers₁
      (Function.update (refs Slots.timerSlot (Function.update objs₁ o (some s₁))) (o, clock) v₁)
      timers₂
      (Function.update (refs Slots.timerSlot (Function.update objs₂ o (some s₂))) (o, clock) v₂))
    (hfresh₁ : ∀ {p}, next₁ ≤ p → os₁.next ≤ p ∧ timers₁ p = none)
    (hfresh₂ : ∀ {p}, next₂ ≤ p → os₂.next ≤ p ∧ timers₂ p = none) :
    PairedAt B o old₁ old₂ track objs₁ objs₂ { os₁ with timers := timers₁, next := next₁ }
      (s₁.withClock clock v₁) { os₂ with timers := timers₂, next := next₂ }
      (s₂.withClock clock v₂) := by
  refine ⟨?_, ?_, ?_, ?_, fun hp => ?_, fun hp => ?_, h.zero, h.now, fun hij => ?_⟩
  · rw [refs_congr o (s₁.sockSlot_withClock clock v₁),
      refs_congr o (s₂.sockSlot_withClock clock v₂)]
    exact h.socks
  · rw [refs_congr o (s₁.ioSlot_withClock clock v₁), refs_congr o (s₂.ioSlot_withClock clock v₂)]
    exact h.ios
  · rw [refs_update o (s₁.timerSlot_withClock clock v₁),
      refs_update o (s₂.timerSlot_withClock clock v₂)]
    exact htimers
  · rw [refs_congr o (s₁.kcpSlot_withClock clock v₁), refs_congr o (s₂.kcpSlot_withClock clock v₂)]
    exact h.kcps
  · obtain ⟨hle, ht⟩ := hfresh₁ hp
    obtain ⟨hio, -, hkcp⟩ := h.fresh₁ hle
    exact ⟨hio, ht, hkcp⟩
  · obtain ⟨hle, ht⟩ := hfresh₂ hp
    obtain ⟨hio, -, hkcp⟩ := h.fresh₂ hle
    exact ⟨hio, ht, hkcp⟩
  · rw [refs_congr o (s₁.kcpSlot_withClock clock v₁), refs_congr o (s₂.kcpSlot_withClock clock v₂)]
    obtain ⟨hi, hj, htracked⟩ := h.tracked hij
    exact ⟨hi.trans_le (hfresh₁ le_rfl).1, hj.trans_le (hfresh₂ le_rfl).1, htracked⟩

theorem timers_fresh {os : Os K T} (t : EvTimer)
    (hfresh : ∀ {p}, os.next ≤ p → os.ios p = none ∧ os.timers p = none ∧ os.kcps p = none)
    {p : ℕ} (hp : os.next + 1 ≤ p) :
    os.next ≤ p ∧ Function.update os.timers os.next (some t) p = none := by
  refine ⟨by omega, ?_⟩
  rw [Function.update_of_ne (by omega)]
  exact (hfresh (by omega)).2.1

theorem startTimer (h : PairedAt B o old₁ old₂ track objs₁ objs₂ os₁ s₁ os₂ s₂) (ho : o ≠ B)
    (clock : Clock) (t : EvTimer) :
    PairedAt B o old₁ old₂ track objs₁ objs₂ (os₁.evTimerStart t).1
      (s₁.withClock clock (some os₁.next)) (os₂.evTimerStart t).1
      (s₂.withClock clock (some os₂.next)) :=
  h.withClock clock
    (h.timers.acquire ho (h.fresh₁ le_rfl).2.1 (h.fresh₂ le_rfl).2.1 rfl)
    (timers_fresh t h.fresh₁) (timers_fresh t h.fresh₂)

/-- A timer that was started is forgotten. -/
theorem loseTimer (h : PairedAt B o old₁ old₂ track objs₁ objs₂ os₁ s₁ os₂ s₂) (clock : Clock)
    (t : EvTimer) :
    PairedAt B o old₁ old₂ track objs₁ objs₂ (os₁.evTimerStart t).1 (s₁.withClock clock none)
      (os₂.evTimerStart t).1 (s₂.withClock clock none) :=
  h.withClock clock
    ((h.timers.drop (o, clock)).strays (h.fresh₁ le_rfl).2.1 (h.fresh₂ le_rfl).2.1 _ _)
    (timers_fresh t h.fresh₁) (timers_fresh t h.fresh₂)

theorem dropTimer (h : PairedAt B o old₁ old₂ track objs₁ objs₂ os₁ s₁ os₂ s₂) (clock : Clock) :
    PairedAt B o old₁ old₂ track objs₁ objs₂ os₁ (s₁.withClock clock none) os₂
      (s₂.withClock clock none) :=
  h.withClock clock (h.timers.drop (o, clock)) (fun hp => ⟨hp, (h.fresh₁ hp).2.1⟩)
    fun hp => ⟨hp, (h.fresh₂ hp).2.1⟩

/-- `ev_timer_stop` of a timer of the object, if it has one. -/
theorem stopTimer (h : PairedAt B o old₁ old₂ track objs₁ objs₂ os₁ s₁ os₂ s₂) (ho : o ≠ B)
    (clock : Clock) :
    PairedAt B o old₁ old₂ track objs₁ objs₂
      { os₁ with timers := (s₁.timerSlot clock).elim os₁.timers fun p =>
        Function.update os₁.timers p none } (s₁.withClock clock none)
      { os₂ with timers := (s₂.timerSlot clock).elim os₂.timers fun p =>
        Function.update os₂.timers p none } (s₂.withClock clock none) := by
  have href₁ : refs Slots.timerSlot (Function.update objs₁ o (some s₁)) (o, clock) =
    s₁.timerSlot clock := refs_self ..
  have href₂ : refs Slots.timerSlot (Function.update objs₂ o (some s₂)) (o, clock) =
    s₂.timerSlot clock := refs_self ..
  refine h.withClock clock ?_ (fun hp => ⟨hp, ?_⟩) fun hp => ⟨hp, ?_⟩
  · rw [← href₁, ← href₂]
    exact h.timers.clear ho
  · exact Owned.elim_update_none _ (h.fresh₁ hp).2.1
  · exact Owned.elim_update_none _ (h.fresh₂ hp).2.1

/-- The slot for the KCP object changes, and with it the table. -/
theorem withKcp (h : PairedAt B o old₁ old₂ track objs₁ objs₂ os₁ s₁ os₂ s₂)
    {v₁ v₂ : Option ℕ} {kcps₁ kcps₂ : ℕ → Option (Ikcpcb K)} {next₁ next₂ : ℕ}
    (hkcps : Twin (fun x => x.1 = B) id old₁.kcps old₂.kcps kcps₁
      (Function.update (refs Slots.kcpSlot (Function.update objs₁ o (some s₁))) (o, ()) v₁) kcps₂
      (Function.update (refs Slots.kcpSlot (Function.update objs₂ o (some s₂))) (o, ()) v₂))
    (hfresh₁ : ∀ {p}, next₁ ≤ p → os₁.next ≤ p ∧ kcps₁ p = none)
    (hfresh₂ : ∀ {p}, next₂ ≤ p → os₂.next ≤ p ∧ kcps₂ p = none)
    (htracked : ∀ {i j}, track = some (i, j) → i < os₁.next ∧ j < os₂.next ∧
      Tracked (fun x => x.1 = B) kcps₁
        (Function.update (refs Slots.kcpSlot (Function.update objs₁ o (some s₁))) (o, ()) v₁) kcps₂
        (Function.update (refs Slots.kcpSlot (Function.update objs₂ o (some s₂))) (o, ()) v₂) i j) :
    PairedAt B o old₁ old₂ track objs₁ objs₂ { os₁ with kcps := kcps₁, next := next₁ }
      { s₁ with kcp := v₁ } { os₂ with kcps := kcps₂, next := next₂ } { s₂ with kcp := v₂ } := by
  refine ⟨?_, ?_, ?_, ?_, fun hp => ?_, fun hp => ?_, h.zero, h.now, fun hij => ?_⟩
  · rw [refs_congr o (s₁.sockSlot_kcp v₁), refs_congr o (s₂.sockSlot_kcp v₂)]
    exact h.socks
  · rw [refs_congr o (s₁.ioSlot_kcp v₁), refs_congr o (s₂.ioSlot_kcp v₂)]
    exact h.ios
  · rw [refs_congr o (s₁.timerSlot_kcp v₁), refs_congr o (s₂.timerSlot_kcp v₂)]
    exact h.timers
  · rw [refs_update o (s₁.kcpSlot_kcp v₁), refs_update o (s₂.kcpSlot_kcp v₂)]
    exact hkcps
  · obtain ⟨hle, hk⟩ := hfresh₁ hp
    obtain ⟨hio, ht, -⟩ := h.fresh₁ hle
    exact ⟨hio, ht, hk⟩
  · obtain ⟨hle, hk⟩ := hfresh₂ hp
    obtain ⟨hio, ht, -⟩ := h.fresh₂ hle
    exact ⟨hio, ht, hk⟩
  · rw [refs_update o (s₁.kcpSlot_kcp v₁), refs_update o (s₂.kcpSlot_kcp v₂)]
    obtain ⟨hi, hj, ht⟩ := htracked hij
    exact ⟨hi.trans_le (hfresh₁ le_rfl).1, hj.trans_le (hfresh₂ le_rfl).1, ht⟩

theorem createKcp [KcpImpl K] (h : PairedAt B o old₁ old₂ track objs₁ objs₂ os₁ s₁ os₂ s₂)
    (ho : o ≠ B) (conv : ℕ) :
    PairedAt B o old₁ old₂ track objs₁ objs₂ (os₁.ikcpCreate conv).1
      { s₁ with kcp := some os₁.next } (os₂.ikcpCreate conv).1
      { s₂ with kcp := some os₂.next } := by
  have fresh : ∀ {os : Os K T} {p : ℕ},
      (∀ {p}, os.next ≤ p → os.ios p = none ∧ os.timers p = none ∧ os.kcps p = none) →
      os.next + 1 ≤ p → os.next ≤ p ∧
        Function.update os.kcps os.next (some ⟨conv, KcpImpl.create⟩) p = none := by
    intro os p hfresh hp
    refine ⟨by omega, ?_⟩
    rw [Function.update_of_ne (by omega)]
    exact (hfresh (by omega)).2.2
  refine h.withKcp (h.kcps.acquire ho (h.fresh₁ le_rfl).2.2 (h.fresh₂ le_rfl).2.2 rfl)
    (fresh h.fresh₁) (fresh h.fresh₂) fun hij => ?_
  obtain ⟨hi, hj, htracked⟩ := h.tracked hij
  exact ⟨hi, hj, htracked.acquire hi.ne' hj.ne' _ ho⟩

/-- `ikcp_release` of the KCP object of the object, if it has one. -/
theorem releaseKcp (h : PairedAt B o old₁ old₂ track objs₁ objs₂ os₁ s₁ os₂ s₂) (ho : o ≠ B) :
    PairedAt B o old₁ old₂ track objs₁ objs₂
      { os₁ with kcps := s₁.kcp.elim os₁.kcps fun p => Function.update os₁.kcps p none }
      { s₁ with kcp := none }
      { os₂ with kcps := s₂.kcp.elim os₂.kcps fun p => Function.update os₂.kcps p none }
      { s₂ with kcp := none } := by
  have href₁ : refs Slots.kcpSlot (Function.update objs₁ o (some s₁)) (o, ()) = s₁.kcp :=
    refs_self ..
  have href₂ : refs Slots.kcpSlot (Function.update objs₂ o (some s₂)) (o, ()) = s₂.kcp :=
    refs_self ..
  have hclear := h.kcps.clear (k := (o, ())) ho
  have hnone := h.kcps.eq_none_iff (k := (o, ())) ho
  rw [href₁, href₂] at hclear
  refine h.withKcp hclear (fun hp => ⟨hp, ?_⟩) (fun hp => ⟨hp, ?_⟩) fun hij => ?_
  · exact Owned.elim_update_none _ (h.fresh₁ hp).2.2
  · exact Owned.elim_update_none _ (h.fresh₂ hp).2.2
  · obtain ⟨hi, hj, htracked⟩ := h.tracked hij
    have hcleared := htracked.clear ho hnone
    rw [href₁, href₂] at hcleared
    exact ⟨hi, hj, hcleared⟩

/-- The table of KCP objects changes, and the slots stay. -/
theorem withKcps (h : Paired B old₁ old₂ track os₁ objs₁ os₂ objs₂) {p₁ p₂ : ℕ}
    {k₁ k₂ : Ikcpcb K} (hlive₁ : (os₁.kcps p₁).isSome) (hlive₂ : (os₂.kcps p₂).isSome)
    (hkcps : Twin (fun x => x.1 = B) id old₁.kcps old₂.kcps (Function.update os₁.kcps p₁ (some k₁))
      (refs Slots.kcpSlot objs₁) (Function.update os₂.kcps p₂ (some k₂))
      (refs Slots.kcpSlot objs₂))
    (htracked : ∀ {i j}, track = some (i, j) → Tracked (fun x => x.1 = B)
      (Function.update os₁.kcps p₁ (some k₁)) (refs Slots.kcpSlot objs₁)
      (Function.update os₂.kcps p₂ (some k₂)) (refs Slots.kcpSlot objs₂) i j) :
    Paired B old₁ old₂ track (os₁.setKcp p₁ k₁) objs₁ (os₂.setKcp p₂ k₂) objs₂ := by
  have fresh : ∀ {os : Os K T} {p q : ℕ} {k : Ikcpcb K}, (os.kcps p).isSome →
      os.ios q = none ∧ os.timers q = none ∧ os.kcps q = none →
      os.ios q = none ∧ os.timers q = none ∧ Function.update os.kcps p (some k) q = none := by
    intro os p q k hlive hq
    have hne : q ≠ p := by
      intro heq
      rw [heq] at hq
      rw [hq.2.2] at hlive
      cases hlive
    rw [Function.update_of_ne hne]
    exact hq
  exact ⟨h.socks, h.ios, h.timers, hkcps, fun hp => fresh hlive₁ (h.fresh₁ hp),
    fun hp => fresh hlive₂ (h.fresh₂ hp), h.zero, h.now,
    fun hij => ⟨(h.tracked hij).1, (h.tracked hij).2.1, htracked hij⟩⟩

theorem setKcp (h : Paired B old₁ old₂ track os₁ objs₁ os₂ objs₂) (ho : o ≠ B) {p₁ p₂ : ℕ}
    (hp₁ : refs Slots.kcpSlot objs₁ (o, ()) = some p₁)
    (hp₂ : refs Slots.kcpSlot objs₂ (o, ()) = some p₂) (k : Ikcpcb K) :
    Paired B old₁ old₂ track (os₁.setKcp p₁ k) objs₁ (os₂.setKcp p₂ k) objs₂ :=
  h.withKcps (h.kcps.left.live hp₁) (h.kcps.right.live hp₂) (h.kcps.change ho hp₁ hp₂ rfl)
    fun hij => (h.tracked hij).2.2.change ho hp₁ hp₂ (some k)

/-- The KCP object a callback reads from changes. -/
theorem setTracked {i j : ℕ} (h : Paired B old₁ old₂ (some (i, j)) os₁ objs₁ os₂ objs₂)
    (hlive : (os₁.kcps i).isSome) (k : Ikcpcb K) :
    Paired B old₁ old₂ (some (i, j)) (os₁.setKcp i k) objs₁ (os₂.setKcp j k) objs₂ := by
  obtain ⟨-, -, htracked⟩ := h.tracked rfl
  obtain ⟨hkcps, hset⟩ := htracked.set h.kcps k
  refine h.withKcps hlive (htracked.same ▸ hlive) hkcps fun hij => ?_
  obtain ⟨rfl, rfl⟩ := Prod.mk.inj (Option.some.inj hij)
  exact hset

theorem vacant (h : PairedAt B o old₁ old₂ track objs₁ objs₂ os₁ Slots.empty os₂ Slots.empty) :
    Paired B old₁ old₂ track os₁ (Function.update objs₁ o none) os₂
      (Function.update objs₂ o none) := by
  have hsock : Slots.sockSlot Slots.empty = fun _ => none := by
    funext x
    cases x <;> rfl
  have hio : Slots.ioSlot Slots.empty = fun _ => none := by
    funext x
    cases x <;> rfl
  have htimer : Slots.timerSlot Slots.empty = fun _ => none := by
    funext x
    cases x <;> rfl
  have hkcp : Slots.kcpSlot Slots.empty = fun _ => none := rfl
  refine ⟨?_, ?_, ?_, ?_, h.fresh₁, h.fresh₂, h.zero, h.now, fun hij => ?_⟩
  · rw [refs_vacant o hsock, refs_vacant o hsock]
    exact h.socks
  · rw [refs_vacant o hio, refs_vacant o hio]
    exact h.ios
  · rw [refs_vacant o htimer, refs_vacant o htimer]
    exact h.timers
  · rw [refs_vacant o hkcp, refs_vacant o hkcp]
    exact h.kcps
  · rw [refs_vacant o hkcp, refs_vacant o hkcp]
    exact h.tracked hij

end Paired

/-! Answers of the system on either side. A descriptor that is not free is no answer. -/

/-- Both calls of `socket` find a descriptor, or neither does. -/
structure AddrAnswer.Alike (os₁ os₂ : Os K T) (x y : AddrAnswer) : Prop where
  socket : (os₁.openSock x.socket none).2.map (fun fd => decide (fd = 0)) =
    (os₂.openSock y.socket none).2.map fun fd => decide (fd = 0)
  setsockopt : x.setsockopt = y.setsockopt
  bind : x.bind = y.bind

structure BindAnswer.Alike (os₁ os₂ : Os K T) (a b : BindAnswer) : Prop where
  getaddrinfo : a.getaddrinfo = b.getaddrinfo
  addrs : List.Forall₂ (AddrAnswer.Alike os₁ os₂) a.addrs b.addrs

structure RecvAnswer.Alike (os₁ os₂ : Os K T) (a b : RecvAnswer) : Prop where
  bind : a.bind.Alike os₁ os₂ b.bind
  rest : { a with bind := b.bind } = b

theorem RecvAnswer.Alike.fields {os₁ os₂ : Os K T} {a b : RecvAnswer} (h : a.Alike os₁ os₂ b) :
    a.getnameinfo = b.getnameinfo ∧ a.send = b.send ∧ a.evt = b.evt ∧ a.evh = b.evh := by
  rw [← h.rest]
  exact ⟨rfl, rfl, rfl, rfl⟩

theorem RecvAnswer.Alike.refl (os : Os K T) (a : RecvAnswer) : a.Alike os os a where
  bind := ⟨rfl, List.forall₂_same.mpr fun _ _ => ⟨rfl, rfl, rfl⟩⟩
  rest := rfl

/-- What the two loops over the addresses leave: nothing, or a new socket each. -/
inductive BoundAlike (os₁ os₂ : Os K T) : Os K T × Option ℕ → Os K T × Option ℕ → Prop
  | zero : BoundAlike os₁ os₂ (os₁, some 0) (os₂, some 0)
  | bound {fd₁ fd₂ : ℕ} (hzero : fd₁ = 0 ↔ fd₂ = 0) (hfree₁ : os₁.socks fd₁ = none)
    (hfree₂ : os₂.socks fd₂ = none) : BoundAlike os₁ os₂
      ({ os₁ with socks := Function.update os₁.socks fd₁ (some ⟨none⟩) }, some fd₁)
      ({ os₂ with socks := Function.update os₂.socks fd₂ (some ⟨none⟩) }, some fd₂)
  | error {fd₁ fd₂ : ℕ} (hzero : fd₁ = 0 ↔ fd₂ = 0) (hfree₁ : os₁.socks fd₁ = none)
    (hfree₂ : os₂.socks fd₂ = none) : BoundAlike os₁ os₂
      ({ os₁ with socks := Function.update os₁.socks fd₁ (some ⟨none⟩) }, none)
      ({ os₂ with socks := Function.update os₂.socks fd₂ (some ⟨none⟩) }, none)

theorem Os.close_opened (os : Os K T) {fd : ℕ} (hfree : os.socks fd = none) (v : Option Sock) :
    ({ os with socks := Function.update os.socks fd v } : Os K T).close fd = os := by
  simp only [Os.close, Function.update_idem]
  rw [← hfree, Function.update_eq_self]

theorem bindLoop_alike {os₁ os₂ : Os K T} (reuse : Bool) {l₁ l₂ : List AddrAnswer}
    (h : List.Forall₂ (AddrAnswer.Alike os₁ os₂) l₁ l₂) :
    BoundAlike os₁ os₂ (bindLoop reuse os₁ l₁) (bindLoop reuse os₂ l₂) := by
  induction h with
  | nil => exact .zero
  | @cons x y l₁ l₂ hxy hl ih =>
    have hsocket := hxy.socket
    rcases os₁.openSock_cases x.socket none with h₁ | ⟨fd₁, hfree₁, h₁⟩
    · rcases os₂.openSock_cases y.socket none with h₂ | ⟨fd₂, hfree₂, h₂⟩
      · simp only [bindLoop, h₁, h₂]
        exact ih
      · rw [h₁, h₂] at hsocket
        cases hsocket
    rcases os₂.openSock_cases y.socket none with h₂ | ⟨fd₂, hfree₂, h₂⟩
    · rw [h₁, h₂] at hsocket
      cases hsocket
    have hzero : fd₁ = 0 ↔ fd₂ = 0 := by
      rw [h₁, h₂] at hsocket
      simpa using hsocket
    simp only [bindLoop, h₁, h₂]
    rw [← hxy.setsockopt, ← hxy.bind]
    split
    · exact .error hzero hfree₁ hfree₂
    · split
      · rw [os₁.close_opened hfree₁, os₂.close_opened hfree₂]
        exact ih
      · exact .bound hzero hfree₁ hfree₂

/-- What an object holds besides numbers and addresses. -/
def Kcpev.plain (obj : Kcpev T) : KcpevKey × Bool × Bool × Option Ringbuf × UdpStatus × T :=
  (obj.key, obj.hasServer, obj.hasRecvCb, obj.tcp.rb, obj.udp.status, obj.udp.heart)

namespace Paired

variable {B o : Owner} {old₁ old₂ os₁ os₂ os₁' os₂' : Os K T} {track : Option (ℕ × ℕ)}
  {objs₁ objs₂ : Owner → Option Slots} {s₁ s₂ : Slots} {r₁ r₂ : ℤ}

theorem bindSocket (h : PairedAt B o old₁ old₂ track objs₁ objs₂ os₁ s₁ os₂ s₂) (ho : o ≠ B)
    (side : Side) {reuse : Bool} {a₁ a₂ : BindAnswer} (ha : a₁.Alike os₁ os₂ a₂)
    {k₁ k₂ : KcpevSock} (h₁ : kcpevBindSocket os₁ (s₁.sock side) reuse a₁ = (os₁', k₁, r₁))
    (h₂ : kcpevBindSocket os₂ (s₂.sock side) reuse a₂ = (os₂', k₂, r₂)) :
    r₁ = r₂ ∧ PairedAt B o old₁ old₂ track objs₁ objs₂ os₁' (s₁.withSock side k₁) os₂'
      (s₂.withSock side k₂) := by
  unfold kcpevBindSocket at h₁ h₂
  rw [← ha.getaddrinfo] at h₂
  split at h₁
  · rename_i hnone
    rw [if_pos hnone] at h₂
    cases h₁
    cases h₂
    refine ⟨rfl, ?_⟩
    rw [s₁.withSock_sock side, s₂.withSock_sock side]
    exact h
  · rename_i hsome
    rw [if_neg hsome] at h₂
    have hloop := bindLoop_alike reuse ha.addrs
    generalize bindLoop reuse os₁ a₁.addrs = x at h₁ hloop
    generalize bindLoop reuse os₂ a₂.addrs = y at h₂ hloop
    cases hloop with
    | zero =>
      cases h₁
      cases h₂
      exact ⟨rfl, h.dropSock side⟩
    | bound hzero hfree₁ hfree₂ =>
      cases h₁
      cases h₂
      refine ⟨by simp only [hzero], h.openSock ho side hzero hfree₁ hfree₂ _⟩
    | error hzero hfree₁ hfree₂ =>
      cases h₁
      cases h₂
      exact ⟨rfl, (h.dropSock side).leakSock hzero hfree₁ hfree₂ _⟩

variable {b₁ b₂ : KcpevBase T}

theorem destroyUdp (b₁ b₂ : KcpevBase T)
    (h : PairedAt B o old₁ old₂ track objs₁ objs₂ os₁ b₁.slots os₂ b₂.slots) (ho : o ≠ B) :
    PairedAt B o old₁ old₂ track objs₁ objs₂ (b₁.udp.destroy os₁).1
      { Slots.empty with tcp := b₁.tcp.toKcpevSock } (b₂.udp.destroy os₂).1
      { Slots.empty with tcp := b₂.tcp.toKcpevSock } := by
  have hall := (((h.destroySock ho .udp).stopTimer ho .evt).stopTimer ho .evh).releaseKcp ho
  have hos : ∀ (b : KcpevBase T) (os : Os K T), (b.udp.destroy os).1 =
      (KcpEv.releaseKcp (stopEvh (stopEvt
        (b.udp.toKcpevSock.destroy os).1 { b.udp with toKcpevSock := KcpevSock.zero }).1
        { b.udp with toKcpevSock := KcpevSock.zero, evt := none }).1
        { b.udp with toKcpevSock := KcpevSock.zero, evt := none, evh := none }).1 := by
    intro b os
    simp only [KcpevUdp.destroy, KcpevSock.destroy_snd, stopEvt_snd, stopEvh_snd]
  rw [hos, hos, Owned.releaseKcp_fst, Owned.stopEvh_fst, Owned.stopEvt_fst, Owned.releaseKcp_fst,
    Owned.stopEvh_fst, Owned.stopEvt_fst]
  exact hall

theorem destroy (h : PairedAt B o old₁ old₂ track objs₁ objs₂ os₁ b₁.slots os₂ b₂.slots)
    (ho : o ≠ B) :
    Paired B old₁ old₂ track (b₁.destroy os₁) (Function.update objs₁ o none) (b₂.destroy os₂)
      (Function.update objs₂ o none) := by
  have htcp := h.destroySock ho .tcp
  exact vacant (destroyUdp { b₁ with tcp := { KcpevSock.zero with rb := none } }
    { b₂ with tcp := { KcpevSock.zero with rb := none } } htcp ho)

variable {obj₁ obj₂ obj₁' obj₂' : Kcpev T}

theorem createTimer
    (h : PairedAt B o old₁ old₂ track objs₁ objs₂ os₁ obj₁.toKcpevBase.slots os₂
      obj₂.toKcpevBase.slots) (ho : o ≠ B) (hplain : obj₁.plain = obj₂.plain) (data : Owner)
    (hcb : TimerCb) (evt evh : Bool) :
    Both (fun x y => x.2.2 = y.2.2 ∧
        ({ obj₁ with udp := x.2.1 } : Kcpev T).plain =
          ({ obj₂ with udp := y.2.1 } : Kcpev T).plain ∧
        PairedAt B o old₁ old₂ track objs₁ objs₂ x.1 { obj₁.toKcpevBase with udp := x.2.1 }.slots
          y.1 { obj₂.toKcpevBase with udp := y.2.1 }.slots)
      (checkCreateKcpTimer os₁ data obj₁.udp hcb evt evh)
      (checkCreateKcpTimer os₂ data obj₂.udp hcb evt evh) := by
  have href₁ : refs Slots.timerSlot (Function.update objs₁ o (some obj₁.toKcpevBase.slots))
    (o, .evt) = obj₁.udp.evt := refs_self ..
  have href₂ : refs Slots.timerSlot (Function.update objs₂ o (some obj₂.toKcpevBase.slots))
    (o, .evt) = obj₂.udp.evt := refs_self ..
  have hnone := h.timers.eq_none_iff (k := (o, .evt)) ho
  rw [href₁, href₂] at hnone
  obtain ⟨hkey, hserver, hcb', hrb, hstatus, hheart⟩ := by
    simpa only [Kcpev.plain, Prod.mk.injEq] using hplain
  unfold checkCreateKcpTimer
  apply Both.ite
  · rw [← not_iff_not, Option.not_isSome_iff_eq_none, Option.not_isSome_iff_eq_none]
    exact hnone
  · intro _ _
    exact .ok ⟨rfl, hplain, h⟩
  intro _ _
  apply Both.ite Iff.rfl
  · intro _ _
    exact .error _
  intro _ _
  dsimp only
  apply Both.ite Iff.rfl
  · intro _ _
    refine .ok ⟨rfl, ?_, ?_⟩
    · simp only [Kcpev.plain, hkey, hserver, hcb', hrb, hstatus, hheart]
    · exact (h.loseTimer .evt _).dropTimer .evh
  · intro _ _
    refine .ok ⟨rfl, ?_, ?_⟩
    · have hnow : os₁.now = os₂.now := h.now
      simp only [Kcpev.plain, hkey, hserver, hcb', hrb, hstatus, Os.evTimerStart, hnow]
    · exact (h.startTimer ho .evt _).startTimer ho .evh _

theorem connectClientUdp [KcpImpl K] {c : ℕ} {addr : Addr} {a₁ a₂ : RecvAnswer}
    (h : PairedAt B (.kcpev c) old₁ old₂ track objs₁ objs₂ os₁ obj₁.toKcpevBase.slots os₂
      obj₂.toKcpevBase.slots) (ho : .kcpev c ≠ B) (hplain : obj₁.plain = obj₂.plain)
    (ha : a₁.Alike os₁ os₂ a₂)
    (h₁ : KcpEv.connectClientUdp os₁ c obj₁ addr a₁ = (os₁', obj₁', r₁))
    (h₂ : KcpEv.connectClientUdp os₂ c obj₂ addr a₂ = (os₂', obj₂', r₂)) :
    r₁ = r₂ ∧ obj₁'.plain = obj₂'.plain ∧
      PairedAt B (.kcpev c) old₁ old₂ track objs₁ objs₂ os₁' obj₁'.toKcpevBase.slots os₂'
        obj₂'.toKcpevBase.slots := by
  obtain ⟨hbindAlike, hrest⟩ := ha
  have hkey : obj₁.key = obj₂.key := congrArg Prod.fst hplain
  have error : ∀ {os₃ os₄ : Os K T} {k₁ k₂ : KcpevSock},
      PairedAt B (.kcpev c) old₁ old₂ track objs₁ objs₂ os₃
        (obj₁.toKcpevBase.slots.withSock .udp k₁) os₄ (obj₂.toKcpevBase.slots.withSock .udp k₂) →
      KcpEv.connectClientUdpError os₃ obj₁ { obj₁.udp with toKcpevSock := k₁ } =
        (os₁', obj₁', r₁) →
      KcpEv.connectClientUdpError os₄ obj₂ { obj₂.udp with toKcpevSock := k₂ } =
        (os₂', obj₂', r₂) →
      r₁ = r₂ ∧ obj₁'.plain = obj₂'.plain ∧
        PairedAt B (.kcpev c) old₁ old₂ track objs₁ objs₂ os₁' obj₁'.toKcpevBase.slots os₂'
          obj₂'.toKcpevBase.slots := by
    intro os₃ os₄ k₁ k₂ hpaired herr₁ herr₂
    rw [connectClientUdpError_eq] at herr₁ herr₂
    cases herr₁
    cases herr₂
    exact ⟨rfl, hplain,
      destroyUdp { obj₁.toKcpevBase with udp := { obj₁.udp with toKcpevSock := k₁ } }
      { obj₂.toKcpevBase with udp := { obj₂.udp with toKcpevSock := k₂ } } hpaired ho⟩
  unfold KcpEv.connectClientUdp at h₁ h₂
  rw [← hrest] at h₂
  rcases hbind₁ : kcpevBindSocket os₁ obj₁.udp.toKcpevSock true a₁.bind with ⟨os₃, k₁, q₁⟩
  rcases hbind₂ : kcpevBindSocket os₂ obj₂.udp.toKcpevSock true a₂.bind with ⟨os₄, k₂, q₂⟩
  rw [hbind₁] at h₁
  rw [hbind₂] at h₂
  obtain ⟨rfl, hbound⟩ := h.bindSocket ho .udp hbindAlike hbind₁ hbind₂
  dsimp only at h₁ h₂
  split at h₁
  · rename_i hneg
    rw [if_pos hneg] at h₂
    exact error hbound h₁ h₂
  rename_i hneg
  rw [if_neg hneg] at h₂
  split at h₁
  · rename_i hconn
    rw [if_pos hconn] at h₂
    exact error hbound h₁ h₂
  rename_i hconn
  rw [if_neg hconn] at h₂
  have hconnected := hbound.connect ho .udp addr
  have hne₁ := (kcpevBindSocket_ret hbind₁).2.resolve_left hneg
  have hne₂ := (kcpevBindSocket_ret hbind₂).2.resolve_left hneg
  by_cases hkcp : a₁.kcp
  · simp only [kcpevCreateKcp_alloc hkcp] at h₁ h₂
    rw [kcpevInitEv_udp _ _ _ hne₁] at h₁
    rw [kcpevInitEv_udp _ _ _ hne₂] at h₂
    simp only [lt_self_iff_false, if_false, Prod.mk.injEq] at h₁ h₂
    obtain ⟨rfl, rfl, rfl⟩ := h₁
    obtain ⟨rfl, rfl, rfl⟩ := h₂
    have hconv : obj₁.key.conv = obj₂.key.conv := congrArg _ hkey
    refine ⟨rfl, hplain, ?_⟩
    rw [hconv]
    have hcreated := hconnected.createKcp ho obj₂.key.conv
    by_cases hevio : a₁.evio
    · simp only [hevio, if_true]
      exact hcreated.startIo ho .udp .serverUdpRecv
    · simp only [hevio]
      exact hcreated
  · simp only [kcpevCreateKcp, hkcp, Bool.false_eq_true, not_false_eq_true, if_true] at h₁ h₂
    exact error hconnected h₁ h₂

end Paired

end KcpEv
