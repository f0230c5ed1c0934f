import MyUvpp.Uti.RingBuffer

/-! # Iterators and logical positions (`ring_buffer.hpp`)

An iterator of a ring buffer moves in a logical region of the array, from `_lfirst` to `_llast`; where
`_llast` is in front of `_lfirst`, the region goes on at the first slot. `end()` points behind the region.
`operator+=` knows this position and `operator-` of two iterators does not: in a region that wraps around
it takes the slot behind `_llast` for one that is below `_llast`, whatever the other iterator is. -/

namespace MyUvpp

/-- A logical region of an array of `N` slots. -/
structure LogicalRegion (N : ℕ) where
  lfirst : ℤ
  llast : ℤ
  lfirst_nonneg : 0 ≤ lfirst
  lfirst_lt : lfirst < N
  llast_nonneg : 0 ≤ llast
  llast_lt : llast < N

namespace LogicalRegion

variable {N : ℕ} (R : LogicalRegion N)

/-- The region goes on at the first slot of the array. -/
def Wrapped : Prop := R.llast < R.lfirst

/-- Whether a region wraps around the end of the array is one comparison. -/
instance : Decidable R.Wrapped := inferInstanceAs (Decidable (_ < _))

/-- The region wraps around and consists of all slots. -/
def Full : Prop := R.llast + 1 = R.lfirst

/-- Whether a region fills the array is one comparison. -/
instance : Decidable R.Full := inferInstanceAs (Decidable (_ = _))

/-- The slots of the region: those between its ends, or, when it wraps around, those outside of them. -/
def Slot (p : ℤ) : Prop :=
  (R.lfirst ≤ p ∧ p ≤ R.llast) ∨ (R.Wrapped ∧ (R.lfirst ≤ p ∧ p < N ∨ 0 ≤ p ∧ p ≤ R.llast))

/-- Whether an address is a slot of the region is a disjunction of comparisons. -/
instance (p : ℤ) : Decidable (R.Slot p) := inferInstanceAs (Decidable (_ ∨ _))

/-- The positions of iterators: the slots, and the one behind the last slot unless that is the first
one again. -/
def At (p : ℤ) : Prop := R.Slot p ∨ (¬ R.Full ∧ p = R.llast + 1)

/-- Whether an iterator can stand at an address is a disjunction of comparisons. -/
instance (p : ℤ) : Decidable (R.At p) := inferInstanceAs (Decidable (_ ∨ _))

/-- The number of slots, counted around the end of the array where the region wraps. -/
def size : ℤ := if R.Wrapped then N - R.lfirst + R.llast + 1 else R.llast - R.lfirst + 1

/-- The logical position of a slot; the one behind the last slot has the size of the region. -/
def idx (p : ℤ) : ℤ := if R.Wrapped ∧ p < R.lfirst then p + N - R.lfirst else p - R.lfirst

/-- The iterator at a position, with the bounds of the region and of the array. -/
def iterator (p : ℤ) : IteratorImpl := ⟨p, R.lfirst, R.llast, RingBuffer.first, RingBuffer.last N⟩

section Positions

variable {R} {p q : ℤ}

/-- An iterator can stand at every slot. -/
theorem Slot.at (h : R.Slot p) : R.At p := .inl h

/-- Logical positions are counted from zero, and up to the size of the region. -/
theorem At.idx_mem (h : R.At p) : 0 ≤ R.idx p ∧ R.idx p ≤ R.size := by
  have h1 := R.lfirst_lt
  have h2 := R.llast_nonneg
  unfold At Slot Full Wrapped at h
  unfold idx size Wrapped
  split_ifs <;> omega

/-- The logical position determines the position. -/
theorem At.eq_of_idx_eq (hp : R.At p) (hq : R.At q) (heq : R.idx p = R.idx q) : p = q := by
  have h1 := R.lfirst_lt
  have h2 := R.llast_nonneg
  unfold At Slot Full Wrapped at hp hq
  unfold idx Wrapped at heq
  split_ifs at heq <;> omega

/-- The slots come before the end. -/
theorem At.slot_iff (h : R.At p) : R.Slot p ↔ R.idx p < R.size := by
  have h1 := R.lfirst_lt
  have h2 := R.llast_nonneg
  unfold At Full at h
  unfold Slot Wrapped at h ⊢
  unfold idx size Wrapped
  split_ifs <;> omega

/-- The position behind a region that wraps around and has room. -/
theorem idx_end (hwrapped : R.Wrapped) (h : ¬ R.Full) : R.idx (R.llast + 1) = R.size := by
  unfold Full at h
  unfold Wrapped at hwrapped
  unfold idx size Wrapped
  split_ifs <;> omega

/-- The one place of an iterator that is no slot is the end of a region that does not fill the array. -/
theorem At.eq_end (h : R.At p) (hnot : ¬ R.Slot p) : ¬ R.Full ∧ p = R.llast + 1 := h.resolve_left hnot

/-! ### Moving an iterator -/

/-- Where `operator+` leads, which is modulo the array only where the region wraps around. -/
def moved (R : LogicalRegion N) (p n : ℤ) : ℤ :=
  if ¬ R.Wrapped then p + n
  else if R.lfirst ≤ p then if p + n < N then p + n else p + n - N
  else if 0 ≤ p + n then p + n else p + n + N

/-- Adding to an iterator moves it and leaves its region. -/
theorem iterator_add (p n : ℤ) : (R.iterator p).add n = R.iterator (R.moved p n) := by
  have hlast : (RingBuffer.last N : ℤ) = N - 1 := rfl
  unfold IteratorImpl.add IteratorImpl.addAssign IteratorImpl.logicalRegionIsContiguous moved Wrapped
    iterator
  simp only [hlast, RingBuffer.first, decide_eq_true_eq, not_lt, IteratorImpl.ext_iff]
  split_ifs <;> simp only [and_true] <;> omega

/-- **`operator+` is addition on logical positions**, up to the end of the region; only behind the last
slot of the whole array comes the first one again. -/
theorem at_moved {n : ℤ} (hlow : 0 ≤ R.idx p + n) (hhigh : R.idx p + n ≤ R.size) :
    R.At (R.moved p n) ∧
      R.idx (R.moved p n) = if R.Full ∧ R.idx p + n = R.size then 0 else R.idx p + n := by
  have h1 := R.lfirst_nonneg
  have h2 := R.lfirst_lt
  have h3 := R.llast_nonneg
  have h4 := R.llast_lt
  by_cases hwrapped : R.Wrapped
  · have hlt : R.llast < R.lfirst := hwrapped
    unfold At Slot Full
    simp only [moved, idx, size, hwrapped, not_true_eq_false, if_true, if_false, true_and]
      at hlow hhigh ⊢
    split_ifs at hlow hhigh ⊢ <;> omega
  · have hle : R.lfirst ≤ R.llast := not_lt.mp hwrapped
    unfold At Slot Full
    simp only [moved, idx, size, hwrapped, not_false_eq_true, if_true, if_false, false_and, or_false]
      at hlow hhigh ⊢
    split_ifs <;> omega

/-! ### The distance of two iterators -/

/-- **`operator-` is the difference of logical positions** where the region does not wrap around. -/
theorem At.diff_of_not_wrapped (hp : R.At p) (hq : R.At q) (hnot : ¬ R.Wrapped) :
    (R.iterator p).diff N (R.iterator q) = R.idx p - R.idx q := by
  have hle : R.lfirst ≤ R.llast := not_lt.mp hnot
  unfold At Slot at hp hq
  simp only [hnot, false_and, or_false] at hp hq
  simp only [IteratorImpl.diff, iterator, idx, hnot, false_and, if_false]
  split_ifs <;> omega

/-- It is so for two slots of any region. -/
theorem Slot.diff (hp : R.Slot p) (hq : R.Slot q) :
    (R.iterator p).diff N (R.iterator q) = R.idx p - R.idx q := by
  by_cases hwrapped : R.Wrapped
  · have hlt : R.llast < R.lfirst := hwrapped
    unfold Slot at hp hq
    simp only [hwrapped, true_and] at hp hq
    simp only [IteratorImpl.diff, iterator, idx, hwrapped, true_and]
    split_ifs <;> omega
  · exact hp.at.diff_of_not_wrapped hq.at hwrapped

/-- The end of a region that wraps around is taken for a slot at the front of the array, and the other
iterator for one at its back. -/
theorem diff_end (p : ℤ) (hwrapped : R.Wrapped) (h : ¬ R.Full) :
    (R.iterator (R.llast + 1)).diff N (R.iterator p) = N - (p - (R.llast + 1)) ∧
      (R.iterator p).diff N (R.iterator (R.llast + 1)) = N - (R.llast + 1 - p) := by
  have hlt : R.llast < R.lfirst := hwrapped
  unfold Full at h
  simp only [IteratorImpl.diff, iterator]
  constructor <;> split_ifs <;> omega

/-- A position is less than an array away from the end. -/
theorem At.end_near (hp : R.At p) (hwrapped : R.Wrapped) :
    p - (R.llast + 1) < N ∧ R.llast + 1 - p < N := by
  have h1 := R.lfirst_lt
  have h2 := R.llast_nonneg
  unfold Wrapped at hwrapped
  unfold At Slot at hp
  omega

/-! ### Comparisons -/

/-- `operator<=`: equal or smaller. -/
theorem le_eq_true_iff (p q : ℤ) : (R.iterator p).le N (R.iterator q) = true ↔
    p = q ∨ (R.iterator p).lt N (R.iterator q) = true := by
  by_cases h : p = q <;> simp [IteratorImpl.le, IteratorImpl.eq, iterator, h]

/-- `operator>=`: equal or greater. -/
theorem ge_eq_true_iff (p q : ℤ) : (R.iterator p).ge N (R.iterator q) = true ↔
    p = q ∨ (R.iterator p).gt N (R.iterator q) = true := by
  by_cases h : p = q <;> simp [IteratorImpl.ge, IteratorImpl.eq, iterator, h]

end Positions

/-- The arithmetic of iterators is the one of integers. -/
structure Arithmetic (R : LogicalRegion N) (a b n : ℤ) : Prop where
  add_at : R.At ((R.iterator a).add n).iter
  idx_add : R.idx ((R.iterator a).add n).iter = R.idx a + n
  diff_eq : (R.iterator a).diff N (R.iterator b) = R.idx a - R.idx b
  add_diff : ((R.iterator a).add n).diff N (R.iterator a) = n
  lt_iff : (R.iterator a).lt N (R.iterator b) = true ↔ R.idx a < R.idx b
  gt_iff : (R.iterator a).gt N (R.iterator b) = true ↔ R.idx a > R.idx b
  le_iff : (R.iterator a).le N (R.iterator b) = true ↔ R.idx a ≤ R.idx b
  ge_iff : (R.iterator a).ge N (R.iterator b) = true ↔ R.idx a ≥ R.idx b

/-- Where the region wraps around, neither iterator is at its end, and `a + n` is not there either unless
`a` is in the part at the back of the array; there is no end where the region is the whole array. -/
def AwayFromEnd (R : LogicalRegion N) (a b n : ℤ) : Prop :=
  R.Wrapped → R.Slot a ∧ R.Slot b ∧ (R.idx a + n < R.size ∨ (¬ R.Full ∧ R.lfirst ≤ a))

/-- Whether the distance of two iterators avoids the defect at the end can be looked up in their places. -/
instance (R : LogicalRegion N) (a b n : ℤ) : Decidable (R.AwayFromEnd a b n) :=
  inferInstanceAs (Decidable (_ → _))

section Arithmetic

variable {R : LogicalRegion N} {a b n : ℤ}

/-- Away from the end of a region that wraps around, all operators are right. -/
theorem AwayFromEnd.arithmetic (ha : R.At a) (hb : R.At b) (hlow : 0 ≤ R.idx a + n)
    (hhigh : R.idx a + n ≤ R.size) (h : R.AwayFromEnd a b n) : R.Arithmetic a b n := by
  obtain ⟨hmoved, hidx⟩ := at_moved hlow hhigh
  have hadd : R.idx (R.moved a n) = R.idx a + n := by
    rw [hidx, if_neg]
    rintro ⟨hfull, hend⟩
    have hwrapped : R.Wrapped := by
      unfold Full at hfull
      unfold Wrapped
      omega
    obtain ⟨-, -, hlt | ⟨hnot, -⟩⟩ := h hwrapped
    · exact hlt.ne hend
    · exact hnot hfull
  have hdiff : (R.iterator a).diff N (R.iterator b) = R.idx a - R.idx b ∧
      (R.iterator b).diff N (R.iterator a) = R.idx b - R.idx a := by
    by_cases hwrapped : R.Wrapped
    · obtain ⟨hsa, hsb, -⟩ := h hwrapped
      exact ⟨hsa.diff hsb, hsb.diff hsa⟩
    · exact ⟨ha.diff_of_not_wrapped hb hwrapped, hb.diff_of_not_wrapped ha hwrapped⟩
  have haddDiff : (R.iterator (R.moved a n)).diff N (R.iterator a) = n := by
    by_cases hwrapped : R.Wrapped
    · obtain ⟨hsa, -, hlast⟩ := h hwrapped
      by_cases hslot : R.Slot (R.moved a n)
      · rw [hslot.diff hsa, hadd]
        omega
      · -- the end, seen from the back of the array
        obtain ⟨hfull, hend⟩ := hmoved.eq_end hslot
        have hsize := hadd
        rw [hend, idx_end hwrapped hfull] at hsize
        have hback : R.lfirst ≤ a := (hlast.resolve_left (by omega)).2
        rw [hend, (diff_end a hwrapped hfull).1]
        simp only [size, idx, hwrapped, not_lt.mpr hback, and_false, if_true, if_false] at hsize
        omega
    · rw [hmoved.diff_of_not_wrapped ha hwrapped, hadd]
      omega
  have heq : a = b ↔ R.idx a = R.idx b := ⟨fun heq => by rw [heq], ha.eq_of_idx_eq hb⟩
  rw [← iterator_add] at haddDiff
  constructor
  case add_at =>
    rw [iterator_add]
    exact hmoved
  case idx_add =>
    rw [iterator_add]
    exact hadd
  case diff_eq => exact hdiff.1
  case add_diff => exact haddDiff
  case lt_iff =>
    rw [IteratorImpl.lt, hdiff.2, decide_eq_true_eq]
    omega
  case gt_iff =>
    rw [IteratorImpl.gt, hdiff.1, decide_eq_true_eq]
    omega
  case le_iff =>
    rw [le_eq_true_iff, IteratorImpl.lt, hdiff.2, decide_eq_true_eq, heq]
    omega
  case ge_iff =>
    rw [ge_eq_true_iff, IteratorImpl.gt, hdiff.1, decide_eq_true_eq, heq]
    omega

/-- In a region that wraps around, what compares as it should is not the end. -/
theorem Arithmetic.awayFromEnd (ha : R.At a) (hb : R.At b) (hhigh : R.idx a + n ≤ R.size)
    (h : R.Arithmetic a b n) : R.AwayFromEnd a b n := by
  intro hwrapped
  have hsa : R.Slot a := by
    by_contra hnot
    -- the end is less than every iterator
    obtain ⟨hfull, rfl⟩ := ha.eq_end hnot
    have hlt : (R.iterator (R.llast + 1)).lt N (R.iterator b) = true := by
      rw [IteratorImpl.lt, (diff_end b hwrapped hfull).2, decide_eq_true_eq]
      have := hb.end_near hwrapped
      omega
    have hidx := h.lt_iff.mp hlt
    rw [idx_end hwrapped hfull] at hidx
    exact absurd hb.idx_mem.2 (not_le.mpr hidx)
  have hsb : R.Slot b := by
    by_contra hnot
    -- and every iterator is greater than the end
    obtain ⟨hfull, rfl⟩ := hb.eq_end hnot
    have hgt : (R.iterator a).gt N (R.iterator (R.llast + 1)) = true := by
      rw [IteratorImpl.gt, (diff_end a hwrapped hfull).2, decide_eq_true_eq]
      have := ha.end_near hwrapped
      omega
    have hidx := h.gt_iff.mp hgt
    rw [idx_end hwrapped hfull] at hidx
    exact absurd ha.idx_mem.2 (not_le.mpr hidx)
  refine ⟨hsa, hsb, ?_⟩
  by_contra hnot
  obtain ⟨hge, hfront⟩ := not_or.mp hnot
  have hsize : R.idx a + n = R.size := le_antisymm hhigh (not_lt.mp hge)
  have hpos : 0 < N := by
    have h1 := R.lfirst_nonneg
    have h2 := R.lfirst_lt
    omega
  obtain ⟨hat, hadd, -, haddDiff, -⟩ := h
  rw [iterator_add] at hat hadd haddDiff
  replace hat : R.At (R.moved a n) := hat
  replace hadd : R.idx (R.moved a n) = R.idx a + n := hadd
  -- nothing but the end has the size of the region for its logical position
  have hend : ¬ R.Slot (R.moved a n) := by
    rw [hat.slot_iff, hadd, hsize]
    exact lt_irrefl _
  obtain ⟨hfull, hmoved⟩ := hat.eq_end hend
  have hlow : a < R.lfirst := not_le.mp fun hback => hfront ⟨hfull, hback⟩
  rw [hmoved, (diff_end a hwrapped hfull).1] at haddDiff
  unfold idx size at hsize
  simp only [hwrapped, hlow, and_self, if_true] at hsize
  omega

end Arithmetic

end LogicalRegion

/-- **When iterator arithmetic is integer arithmetic.** For all iterators of a region and every step that
stays in it, `operator+`, `operator-` and the comparisons are those of the logical positions if and only if,
should the region wrap around, its end is avoided. -/
theorem iterator_arithmetic_iff {N : ℕ} (R : LogicalRegion N) {a b n : ℤ} (ha : R.At a) (hb : R.At b)
    (hlow : 0 ≤ R.idx a + n) (hhigh : R.idx a + n ≤ R.size) :
    R.Arithmetic a b n ↔ R.AwayFromEnd a b n :=
  ⟨fun h => h.awayFromEnd ha hb hhigh, fun h => h.arithmetic ha hb hlow hhigh⟩

/-- Three slots of five, from the last one on: the step from the first of them to the third. -/
theorem iterator_arithmetic_iff_wrapped :
    let R : LogicalRegion 5 := ⟨4, 1, by decide, by decide, by decide, by decide⟩
    R.Arithmetic 4 1 2 ↔ R.AwayFromEnd 4 1 2 :=
  iterator_arithmetic_iff _ (by decide) (by decide) (by decide) (by decide)

/-- In this region the end is less than itself, and its distance to itself is five. -/
theorem not_iterator_arithmetic :
    ¬ ∀ (N : ℕ) (R : LogicalRegion N) (a b n : ℤ), R.At a → R.At b → 0 ≤ R.idx a + n →
      R.idx a + n ≤ R.size → R.Arithmetic a b n := by
  intro hall
  let R : LogicalRegion 5 := ⟨4, 1, by decide, by decide, by decide, by decide⟩
  have h := hall 5 R 2 2 0 (by decide) (by decide) (by decide) (by decide)
  exact absurd h.diff_eq (by decide)

end MyUvpp
