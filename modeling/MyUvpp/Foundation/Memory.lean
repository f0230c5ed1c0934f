import Mathlib.Algebra.Order.Ring.Int
import Mathlib.Data.Int.ModEq
import Mathlib.Data.List.Basic
import Mathlib.Tactic.Ring

/-! # Flat memory

A memory is one cell of type `α` at every integer offset. `Mem.read` copies a range out as a list
and `Mem.write` copies a list in, so that `memcpy` and `memmove` between two buffers are a `read`
followed by a `write`. Offsets and counts are integers: a negative count reads nothing, and the
lemmas ask for the sign facts the callers must establish anyway. -/

namespace MyUvpp

/-- A flat memory: one cell of type `α` at every integer offset. -/
abbrev Mem (α : Type*) := ℤ → α

namespace Mem

variable {α : Type*}

/-- The `n` cells from `off` on, as a list (no cell when `n ≤ 0`). -/
def read (m : Mem α) (off n : ℤ) : List α :=
  (List.range n.toNat).map fun i : ℕ => m (off + i)

/-- Overwrite the cells from `off` on by the elements of `l`. -/
def write (m : Mem α) (off : ℤ) (l : List α) : Mem α := fun i =>
  if i < off then m i else (l[(i - off).toNat]?).getD (m i)

/-! ### Reading -/

/-- A read has as many cells as it asks for. -/
@[simp] theorem length_read (m : Mem α) (off n : ℤ) : (m.read off n).length = n.toNat := by
  simp [read]

/-- A non-positive count reads nothing. -/
theorem read_of_nonpos (m : Mem α) (off : ℤ) {n : ℤ} (hn : n ≤ 0) : m.read off n = [] := by
  simp [read, Int.toNat_of_nonpos hn]

/-- A read of no cells is empty. -/
@[simp] theorem read_zero (m : Mem α) (off : ℤ) : m.read off 0 = [] :=
  read_of_nonpos m off le_rfl

/-- The `i`-th element read is the cell at `off + i`. -/
theorem getElem?_read (m : Mem α) (off n : ℤ) {i : ℕ} (hi : i < n.toNat) :
    (m.read off n)[i]? = some (m (off + i)) := by
  simp [read, hi]

/-- Two memories that agree on a range read the same there. -/
theorem read_congr {m m' : Mem α} {off n : ℤ} (h : ∀ i, off ≤ i → i < off + n → m i = m' i) :
    m.read off n = m'.read off n := by
  unfold read
  apply List.map_congr_left
  intro i hi
  rw [List.mem_range] at hi
  exact h _ (by omega) (by omega)

/-- A range splits into its first `a` and its next `b` cells. -/
theorem read_add (m : Mem α) (off : ℤ) {a b : ℤ} (ha : 0 ≤ a) (hb : 0 ≤ b) :
    m.read off (a + b) = m.read off a ++ m.read (off + a) b := by
  unfold read
  rw [Int.toNat_add ha hb, List.range_add, List.map_append, List.map_map]
  congr 1
  apply List.map_congr_left
  intro i _
  show m (off + ((a.toNat + i : ℕ) : ℤ)) = m (off + a + i)
  congr 1
  omega

/-- A range of at least one cell starts with the cell at its offset. -/
theorem read_eq_cons (m : Mem α) (off : ℤ) {n : ℤ} (hn : 0 < n) :
    m.read off n = m off :: m.read (off + 1) (n - 1) := by
  have h := read_add m off (a := 1) (b := n - 1) (by omega) (by omega)
  rw [show (1 : ℤ) + (n - 1) = n by ring] at h
  rw [h]
  simp [read]

/-- The first `k` cells of a range. -/
theorem take_read (m : Mem α) (off : ℤ) {n : ℤ} {k : ℕ} (hk : (k : ℤ) ≤ n) :
    (m.read off n).take k = m.read off k := by
  have h := read_add m off (a := k) (b := n - k) (by omega) (by omega)
  rw [show (k : ℤ) + (n - k) = n by ring] at h
  rw [h, List.take_left' (by simp)]

/-! ### Writing -/

/-- A cell before the written range keeps its value. -/
theorem write_of_lt (m : Mem α) {off i : ℤ} (l : List α) (h : i < off) : m.write off l i = m i := by
  simp [write, h]

/-- A cell after the written range keeps its value. -/
theorem write_of_ge (m : Mem α) {off i : ℤ} (l : List α) (h : off + l.length ≤ i) :
    m.write off l i = m i := by
  have hge : l.length ≤ (i - off).toNat := by omega
  simp [write, List.getElem?_eq_none hge]

/-- Writing nothing changes nothing. -/
@[simp] theorem write_nil (m : Mem α) (off : ℤ) : m.write off [] = m := by
  funext i
  simp [write]

/-- Reading back the written range gives the written list. -/
theorem read_write (m : Mem α) (off : ℤ) (l : List α) {n : ℤ} (hn : n = l.length) :
    (m.write off l).read off n = l := by
  subst hn
  apply List.ext_getElem?
  intro i
  by_cases hi : i < l.length
  · rw [getElem?_read _ _ _ (by omega)]
    have hge : ¬ off + (i : ℤ) < off := by omega
    simp [write, hge, hi]
  · rw [List.getElem?_eq_none (by simp; omega), List.getElem?_eq_none (by omega)]

/-- A range that ends before the written one reads as before. -/
theorem read_write_of_le (m : Mem α) {off off' n : ℤ} (l : List α) (h : off' + n ≤ off) :
    (m.write off l).read off' n = m.read off' n :=
  read_congr fun _ _ hi => write_of_lt m l (by omega)

/-- Appending at `k`: the first `k + |l|` cells are the old first `k` followed by `l`. -/
theorem read_write_append (m : Mem α) (off : ℤ) {k n : ℤ} (l : List α) (hk : 0 ≤ k)
    (hn : n = k + l.length) :
    (m.write (off + k) l).read off n = m.read off k ++ l := by
  rw [hn, read_add _ _ hk (by omega), read_write_of_le _ _ le_rfl, read_write _ _ _ rfl]

/-! ### Circular memory -/

/-- The `n` elements from `pos` on in a circular memory of `cap` cells. -/
def readRing (m : Mem α) (cap pos n : ℤ) : List α :=
  (List.range n.toNat).map fun i : ℕ => m ((pos + i) % cap)

/-- A read of a ring has as many cells as it asks for. -/
@[simp] theorem length_readRing (m : Mem α) (cap pos n : ℤ) :
    (m.readRing cap pos n).length = n.toNat := by
  simp [readRing]

/-- Two consecutive readings of a circular memory. -/
theorem readRing_add (m : Mem α) (cap pos : ℤ) {a b : ℤ} (ha : 0 ≤ a) (hb : 0 ≤ b) :
    m.readRing cap pos (a + b) = m.readRing cap pos a ++ m.readRing cap ((pos + a) % cap) b := by
  unfold readRing
  rw [Int.toNat_add ha hb, List.range_add, List.map_append, List.map_map]
  congr 1
  apply List.map_congr_left
  intro i _
  simp only [Function.comp_apply, Int.emod_add_emod]
  congr 2
  push_cast
  omega

/-- Up to the last cell, a circular memory is read as a plain one. -/
theorem readRing_of_le (m : Mem α) {cap pos n : ℤ} (hpos : 0 ≤ pos) (h : pos + n ≤ cap) :
    m.readRing cap pos n = m.read pos n := by
  unfold readRing read
  apply List.map_congr_left
  intro i hi
  rw [List.mem_range] at hi
  rw [Int.emod_eq_of_lt (by omega) (by omega)]

/-- A reading that passes the last cell goes on at the first one. -/
theorem readRing_of_ge (m : Mem α) {cap pos n : ℤ} (hpos : 0 ≤ pos) (hcap : pos ≤ cap)
    (h : cap ≤ pos + n) (hn : n ≤ cap) :
    m.readRing cap pos n = m.read pos (cap - pos) ++ m.read 0 (n - (cap - pos)) := by
  rw [show n = (cap - pos) + (n - (cap - pos)) by ring, readRing_add _ _ _ (by omega) (by omega),
    readRing_of_le m hpos (by omega), add_sub_cancel, Int.emod_self,
    readRing_of_le m le_rfl (by omega)]
  simp

/-- Writing behind the first `n` elements of a circular memory appends to them, as long as the
writing does not pass the last cell and does not come round to the first element. -/
theorem readRing_write_append (m : Mem α) {cap pos n w : ℤ} {l : List α} (hn : 0 ≤ n)
    (hw : (pos + n) % cap = w) (hw0 : 0 ≤ w) (hfit : w + l.length ≤ cap) (hle : n + l.length ≤ cap) :
    (m.write w l).readRing cap pos (n + l.length) = m.readRing cap pos n ++ l := by
  rw [readRing_add _ _ _ hn (by omega), hw, readRing_of_le _ hw0 hfit, read_write _ _ _ rfl]
  congr 1
  unfold readRing
  apply List.map_congr_left
  intro i hi
  rw [List.mem_range] at hi
  -- none of the first `n` elements is in the written range
  by_cases hlt : (pos + i) % cap < w
  · exact write_of_lt _ _ hlt
  · refine write_of_ge _ _ ?_
    by_contra hge
    -- the cell would be `k < l.length` behind `w`, that is `n + k - i` cells from itself
    obtain ⟨k, hk⟩ : ∃ k : ℤ, (pos + i) % cap = w + k := ⟨(pos + i) % cap - w, by ring⟩
    have hmod : (pos + n + k) % cap = (pos + i) % cap := by
      rw [← Int.emod_add_emod, hw, ← hk, Int.emod_emod_of_dvd _ (dvd_refl _)]
    have hdvd : cap ∣ n + k - i := by
      have := Int.ModEq.dvd (hmod : (pos + n + k) ≡ (pos + i) [ZMOD cap]).symm
      rwa [show pos + n + k - (pos + i) = n + k - i by ring] at this
    have := Int.le_of_dvd (by omega) hdvd
    omega

end Mem

end MyUvpp
