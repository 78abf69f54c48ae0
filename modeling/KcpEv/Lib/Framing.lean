import Mathlib.Data.List.Basic
import Mathlib.Algebra.Order.Group.Nat

/-!
Streams of length-prefixed frames over an arbitrary alphabet. A header format
says how many letters a header takes and what size of frame it declares; a
stream is split by taking complete frames off its front. The split does not
depend on how the stream arrives: splitting a prefix first and the remainder
together with the rest later gives the same frames.
-/
namespace KcpEv.Framing

/-- A header of `len` letters that declares the size of its whole frame. -/
structure Header (β : Type*) where
  len : ℕ
  size : List β → ℕ
  size_append : ∀ a b : List β, len ≤ a.length → size (a ++ b) = size a

variable {β : Type*} (H : Header β)

namespace Header

/-- A complete frame stands at the front of the stream. -/
def Complete (l : List β) : Prop :=
  H.len ≤ l.length ∧ 0 < H.size l ∧ H.size l ≤ l.length

instance (l : List β) : Decidable (H.Complete l) := by
  unfold Complete
  infer_instance

/-- A word that is exactly one frame. -/
def IsFrame (f : List β) : Prop := H.len ≤ f.length ∧ 0 < f.length ∧ H.size f = f.length

theorem complete_append {a : List β} (b : List β) (h : H.Complete a) : H.Complete (a ++ b) := by
  unfold Complete at *
  rw [H.size_append a b h.1]
  simp only [List.length_append]
  omega

theorem complete_frame {f : List β} (b : List β) (h : H.IsFrame f) : H.Complete (f ++ b) := by
  apply H.complete_append b
  exact ⟨h.1, by rw [h.2.2]; exact h.2.1, h.2.2.le⟩

theorem not_isFrame_take {f : List β} {k : ℕ} (h : H.IsFrame f) (hk : k < f.length) :
    ¬ H.IsFrame (f.take k) := by
  intro h'
  have hsize : H.size f = H.size (f.take k) := by
    rw [← H.size_append (f.take k) (f.drop k) h'.1, List.take_append_drop]
  have hwhole := h.2.2
  rw [hsize, h'.2.2, List.length_take] at hwhole
  omega

/-- Take complete frames off the front as long as there is one. -/
def split (l : List β) : List (List β) × List β :=
  if _h : H.Complete l then
    let rest := split (l.drop (H.size l))
    (l.take (H.size l) :: rest.1, rest.2)
  else ([], l)
termination_by l.length
decreasing_by
  simp only [List.length_drop]
  unfold Complete at _h
  omega

/-- A complete frame at the front of a part of a stream of frames is its first frame. -/
theorem take_size_of_part {fs : List (List β)} (hfs : ∀ f ∈ fs, H.IsFrame f) {l : List β}
    (hc : H.Complete l) (hl : l <+: fs.flatten) :
    ∃ f rest, fs = f :: rest ∧ l.take (H.size l) = f := by
  obtain ⟨hlen, hpos, hle⟩ := hc
  obtain ⟨r, hr⟩ := hl
  cases fs with
  | nil =>
    have hnil : l = [] := (List.append_eq_nil_iff.mp hr).1
    rw [hnil] at hpos hle
    simp only [List.length_nil] at hle
    omega
  | cons f rest =>
    have hf := hfs f List.mem_cons_self
    rw [List.flatten_cons] at hr
    have hsize : H.size l = f.length := by
      rw [← H.size_append l r hlen, hr, H.size_append f _ hf.1, hf.2.2]
    refine ⟨f, rest, rfl, ?_⟩
    rw [hsize] at hle ⊢
    rw [← List.take_append_of_le_length hle, hr, List.take_left']
    rfl

theorem split_complete {l : List β} (h : H.Complete l) :
    H.split l = (l.take (H.size l) :: (H.split (l.drop (H.size l))).1,
      (H.split (l.drop (H.size l))).2) := by
  rw [split]
  simp only [h, dite_true]

theorem split_incomplete {l : List β} (h : ¬ H.Complete l) : H.split l = ([], l) := by
  rw [split]
  simp only [h, dite_false]

theorem not_complete_nil : ¬ H.Complete ([] : List β) := by
  intro h
  have hpos := h.2.1
  have hle : H.size [] ≤ 0 := h.2.2
  omega

theorem split_nil : H.split ([] : List β) = ([], []) := H.split_incomplete H.not_complete_nil

/-- The frames and the remainder are the stream. -/
theorem split_flatten (l : List β) : (H.split l).1.flatten ++ (H.split l).2 = l := by
  induction l using split.induct H with
  | case1 l h ih =>
    rw [H.split_complete h]
    simp only [List.flatten_cons, List.append_assoc, ih, List.take_append_drop]
  | case2 l h =>
    rw [H.split_incomplete h]
    rfl

/-- What is left of the stream wherever a frame starts: in front of each frame that is split
off, and in front of the rest. -/
def starts (l : List β) : List (List β) :=
  if _h : H.Complete l then l :: starts (l.drop (H.size l)) else [l]
termination_by l.length
decreasing_by
  simp only [List.length_drop]
  unfold Complete at _h
  omega

theorem starts_complete {l : List β} (h : H.Complete l) :
    H.starts l = l :: H.starts (l.drop (H.size l)) := by
  rw [starts]
  simp only [h, dite_true]

theorem starts_incomplete {l : List β} (h : ¬ H.Complete l) : H.starts l = [l] := by
  rw [starts]
  simp only [h, dite_false]

theorem rest_mem_starts (l : List β) : (H.split l).2 ∈ H.starts l := by
  induction l using split.induct H with
  | case1 l h ih =>
    rw [H.split_complete h, H.starts_complete h]
    exact List.mem_cons_of_mem l ih
  | case2 l h =>
    rw [H.split_incomplete h, H.starts_incomplete h]
    exact List.mem_singleton_self l

theorem mem_starts {l r : List β} (hr : r ∈ H.starts l) :
    r = (H.split l).2 ∨ H.Complete r ∧ r.take (H.size r) ∈ (H.split l).1 := by
  induction l using split.induct H with
  | case1 l h ih =>
    rw [H.starts_complete h, List.mem_cons] at hr
    rw [H.split_complete h]
    rcases hr with rfl | hr
    · exact Or.inr ⟨h, List.mem_cons_self⟩
    · rcases ih hr with hrest | ⟨hc, hmem⟩
      · exact Or.inl hrest
      · exact Or.inr ⟨hc, List.mem_cons_of_mem _ hmem⟩
  | case2 l h =>
    rw [H.starts_incomplete h, List.mem_singleton] at hr
    rw [H.split_incomplete h]
    exact Or.inl hr

/-- A frame at the front is split off first. -/
theorem split_cons_frame {f : List β} (b : List β) (h : H.IsFrame f) :
    H.split (f ++ b) = (f :: (H.split b).1, (H.split b).2) := by
  have hsize : H.size (f ++ b) = f.length := by rw [H.size_append f b h.1, h.2.2]
  rw [H.split_complete (H.complete_frame b h), hsize, List.take_left, List.drop_left]

/-- Splitting what has arrived, and later the remainder with the rest, is
splitting all at once. -/
theorem split_append (a b : List β) :
    H.split (a ++ b) = ((H.split a).1 ++ (H.split ((H.split a).2 ++ b)).1,
      (H.split ((H.split a).2 ++ b)).2) := by
  induction a using split.induct H with
  | case1 a h ih =>
    have hsize := H.size_append a b h.1
    have hdrop : (a ++ b).drop (H.size a) = a.drop (H.size a) ++ b :=
      List.drop_append_of_le_length h.2.2
    have htake : (a ++ b).take (H.size a) = a.take (H.size a) :=
      List.take_append_of_le_length h.2.2
    rw [H.split_complete (H.complete_append b h), H.split_complete h, hsize, hdrop, htake, ih]
    rfl
  | case2 a h =>
    rw [H.split_incomplete h]
    rfl

/-- The frames that lie within the first `m` letters of their concatenation. -/
def completed : List (List β) → ℕ → List (List β)
  | [], _ => []
  | f :: fs, m => if f.length ≤ m then f :: completed fs (m - f.length) else []

/-- The letters behind the completed frames, among the first `m`. -/
def uncompleted (fs : List (List β)) (m : ℕ) : List β :=
  (fs.flatten.take m).drop (completed fs m).flatten.length

theorem completed_prefix (fs : List (List β)) (m : ℕ) : completed fs m <+: fs := by
  induction fs generalizing m with
  | nil => exact List.prefix_refl _
  | cons f fs ih =>
    unfold completed
    split
    · exact List.cons_prefix_cons.mpr ⟨rfl, ih (m - f.length)⟩
    · exact List.nil_prefix

theorem completed_all (fs : List (List β)) {m : ℕ} (h : fs.flatten.length ≤ m) :
    completed fs m = fs := by
  induction fs generalizing m with
  | nil => rfl
  | cons f fs ih =>
    simp only [List.flatten_cons, List.length_append] at h
    unfold completed
    rw [if_pos (by omega), ih (by omega)]

theorem uncompleted_cons {f : List β} (fs : List (List β)) {m : ℕ} (h : f.length ≤ m) :
    uncompleted (f :: fs) m = uncompleted fs (m - f.length) := by
  have hcompleted : completed (f :: fs) m = f :: completed fs (m - f.length) := if_pos h
  unfold uncompleted
  rw [hcompleted]
  simp only [List.flatten_cons, List.length_append]
  rw [List.take_append, List.take_of_length_le h, ← List.drop_drop, List.drop_left]

theorem take_incomplete {f : List β} (h : H.IsFrame f) {m : ℕ} (hm : m < f.length) (b : List β) :
    ¬ H.Complete ((f ++ b).take m) := by
  intro hc
  have htake : (f ++ b).take m = f.take m := List.take_append_of_le_length hm.le
  rw [htake] at hc
  have hlen : H.len ≤ (f.take m).length := hc.1
  have hsize : H.size f = H.size (f.take m) := by
    conv => lhs; rw [← List.take_append_drop m f]
    exact H.size_append _ _ hlen
  have hle : H.size (f.take m) ≤ (f.take m).length := hc.2.2
  rw [← hsize, h.2.2, List.length_take] at hle
  omega

/-- Splitting a prefix of a concatenation of frames gives the frames that are
complete within it, and leaves the letters behind them. -/
theorem split_take_frames (fs : List (List β)) (hfs : ∀ f ∈ fs, H.IsFrame f) (m : ℕ) :
    H.split (fs.flatten.take m) = (completed fs m, uncompleted fs m) := by
  induction fs generalizing m with
  | nil =>
    simpa [completed, uncompleted] using H.split_nil
  | cons f fs ih =>
    have hf : H.IsFrame f := hfs f (List.mem_cons_self ..)
    have hrest : ∀ g ∈ fs, H.IsFrame g := fun g hg => hfs g (List.mem_cons_of_mem f hg)
    by_cases hm : f.length ≤ m
    · rw [uncompleted_cons fs hm, List.flatten_cons, List.take_append, List.take_of_length_le hm,
        H.split_cons_frame _ hf, ih hrest]
      simp only [completed, hm, if_true]
    · have hinc := H.take_incomplete hf (Nat.lt_of_not_le hm) fs.flatten
      rw [List.flatten_cons, H.split_incomplete hinc]
      simp only [completed, uncompleted, hm, if_false, List.flatten_nil, List.length_nil,
        List.drop_zero, List.flatten_cons]

theorem split_frames {fs : List (List β)} (hfs : ∀ f ∈ fs, H.IsFrame f) :
    H.split fs.flatten = (fs, []) := by
  have h := H.split_take_frames fs hfs fs.flatten.length
  have hall := completed_all fs (Nat.le_refl fs.flatten.length)
  rw [List.take_length, hall, uncompleted, hall, List.take_length, List.drop_length] at h
  exact h

/-- What a part of a concatenation of frames splits into are the first of them. -/
theorem split_prefix {fs : List (List β)} (hfs : ∀ f ∈ fs, H.IsFrame f) {l : List β}
    (h : l <+: fs.flatten) : (H.split l).1 <+: fs := by
  rw [List.prefix_iff_eq_take.mp h, H.split_take_frames fs hfs]
  exact completed_prefix fs l.length

end Header

end KcpEv.Framing
