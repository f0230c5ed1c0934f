import Mathlib.Logic.Equiv.Basic
import Mathlib.Order.Lattice

/-! # The order of a binary heap

A complete binary tree with `n` nodes has its root at position 1, and the children of the node at `i` at
`2 * i` and `2 * i + 1`. A heap is such a tree in which no node has a smaller key than its parent. A node
whose key may be out of place is moved by swaps with a child or with its parent; `Displaced` says that
nothing else is out of place, and the lemmas about swaps that each of them keeps it so, with the node at
its new position. -/

namespace MyUvpp

namespace HeapOrder

/-- The keys after the nodes at two positions have changed places. -/
theorem swap_apply {κ : Type*} (k : ℕ → κ) (p c i : ℕ) :
    (k ∘ Equiv.swap p c) i = if i = p then k c else if i = c then k p else k i := by
  rw [Function.comp_apply, Equiv.swap_apply_def]
  split
  · rfl
  · split <;> rfl

variable {κ : Type*} [LinearOrder κ] {k : ℕ → κ} {n p c : ℕ}

/-- No node has a smaller key than its parent. -/
def Ordered (k : ℕ → κ) (n : ℕ) : Prop := ∀ i, 2 ≤ i → i ≤ n → k (i / 2) ≤ k i

/-- Every node but the one at `p` is in its place. -/
structure Displaced (k : ℕ → κ) (n p : ℕ) : Prop where
  others : ∀ i, 2 ≤ i → i ≤ n → i ≠ p → i / 2 ≠ p → k (i / 2) ≤ k i
  around : 2 ≤ p → ∀ c ≤ n, c / 2 = p → k (p / 2) ≤ k c

/-- No child of the node at `p` has a smaller key. -/
def Above (k : ℕ → κ) (n p : ℕ) : Prop := ∀ c ≤ n, c / 2 = p → k p ≤ k c

/-- The root has the least key. -/
theorem Ordered.root_le (h : Ordered k n) {i : ℕ} (hi : 1 ≤ i) (hn : i ≤ n) : k 1 ≤ k i := by
  induction i using Nat.strongRecOn with
  | ind i ih =>
    rcases Nat.eq_or_lt_of_le hi with rfl | hlt
    · exact le_refl _
    · have hparent := ih (i / 2) (by omega) (by omega) (by omega)
      exact hparent.trans (h i hlt hn)

/-- In a heap any position may be taken to be the one that is out of order. -/
theorem Ordered.displaced (h : Ordered k n) (hp : p ≤ n) : Displaced k n p where
  others i h2 hn _ _ := h i h2 hn
  around h2 c hc hcp := by
    subst hcp
    exact (h (c / 2) h2 hp).trans (h c (by omega) hc)

/-- With the last node taken away the others stay in order. -/
theorem Ordered.mono (h : Ordered k n) {m : ℕ} (hm : m ≤ n) : Ordered k m :=
  fun i h2 hi => h i h2 (hi.trans hm)

/-- Only the keys of the positions in the heap matter. -/
theorem Ordered.congr {k' : ℕ → κ} (h : Ordered k n) (hk : ∀ i, 1 ≤ i → i ≤ n → k' i = k i) :
    Ordered k' n := by
  intro i h2 hn
  rw [hk i (by omega) hn, hk (i / 2) (by omega) (by omega)]
  exact h i h2 hn

/-- The key at one position may be changed, when that is the one out of place. -/
theorem Displaced.congr {k' : ℕ → κ} (h : Displaced k n p) (hk : ∀ i, i ≠ p → k' i = k i) :
    Displaced k' n p where
  others i h2 hn hi hi2 := by
    rw [hk i hi, hk (i / 2) hi2]
    exact h.others i h2 hn hi hi2
  around h2 c hc hcp := by
    rw [hk (p / 2) (by omega), hk c (by omega)]
    exact h.around h2 c hc hcp

/-- A new last node may be out of place, and has no children. -/
theorem Ordered.snoc (h : Ordered k n) : Displaced k (n + 1) (n + 1) ∧ Above k (n + 1) (n + 1) := by
  refine ⟨⟨fun i h2 hi hne _ => h i h2 (by omega), fun h2 c hc hcp => ?_⟩, fun c hc hcp => ?_⟩
  · omega
  · omega

/-- A node that is not smaller than its parent, nor greater than its children, is in its place. -/
theorem Displaced.ordered (h : Displaced k n p) (habove : Above k n p)
    (hparent : 2 ≤ p → k (p / 2) ≤ k p) : Ordered k n := by
  intro i h2 hn
  by_cases hi : i = p
  · subst hi
    exact hparent h2
  · by_cases hip : i / 2 = p
    · rw [hip]
      exact habove i hn hip
    · exact h.others i h2 hn hi hip

/-- **A step down**: the node changes places with its smallest child, which is smaller. -/
theorem Displaced.down (h : Displaced k n p) (hp : 1 ≤ p) (hc : c ≤ n) (hcp : c / 2 = p)
    (hlt : k c < k p) (hleast : ∀ d ≤ n, d / 2 = p → k c ≤ k d) :
    Displaced (k ∘ Equiv.swap p c) n c := by
  constructor
  · intro i h2 hn hi hic
    rw [swap_apply, swap_apply]
    by_cases hip : i = p
    · subst hip
      rw [if_neg (by omega), if_neg hic, if_pos rfl]
      exact h.around h2 c hc hcp
    · rw [if_neg hip, if_neg hi]
      by_cases hparent : i / 2 = p
      · rw [if_pos hparent]
        exact hleast i hn hparent
      · rw [if_neg hparent, if_neg hic]
        exact h.others i h2 hn hip hparent
  · intro h2 d hd hdc
    rw [swap_apply, swap_apply, if_pos hcp, if_neg (by omega), if_neg (by omega)]
    have hpair := h.others d (by omega) hd (by omega) (by omega)
    rwa [hdc] at hpair

/-- **A step up**: the node changes places with its parent, which is greater. -/
theorem Displaced.up (h : Displaced k n p) (h2 : 2 ≤ p) (hn : p ≤ n) (hlt : k p < k (p / 2)) :
    Displaced (k ∘ Equiv.swap (p / 2) p) n (p / 2) ∧ Above (k ∘ Equiv.swap (p / 2) p) n (p / 2) := by
  -- the other child of the parent
  have hsibling : ∀ c ≤ n, c / 2 = p / 2 → c ≠ p → k (p / 2) ≤ k c := by
    intro c hc hcq hcp
    have hpair := h.others c (by omega) hc hcp (by omega)
    rwa [hcq] at hpair
  refine ⟨⟨fun i hi2 hi hiq hip => ?_, fun hq2 c hc hcq => ?_⟩, fun c hc hcq => ?_⟩
  · rw [swap_apply, swap_apply, if_neg hip, if_neg hiq]
    have hine : i ≠ p := fun heq => hip (by rw [heq])
    rw [if_neg hine]
    by_cases hparent : i / 2 = p
    · rw [if_pos hparent]
      exact h.around h2 i hi hparent
    · rw [if_neg hparent]
      exact h.others i hi2 hi hine hparent
  · rw [swap_apply, swap_apply, if_neg (by omega), if_neg (by omega), if_neg (by omega)]
    have hgrand := h.others (p / 2) hq2 (by omega) (by omega) (by omega)
    by_cases hcp : c = p
    · rw [if_pos hcp]
      exact hgrand
    · rw [if_neg hcp]
      exact hgrand.trans (hsibling c hc hcq hcp)
  · rw [swap_apply, swap_apply, if_pos rfl, if_neg (by omega)]
    by_cases hcp : c = p
    · rw [if_pos hcp]
      exact hlt.le
    · rw [if_neg hcp]
      exact hlt.le.trans (hsibling c hc hcq hcp)

end HeapOrder

end MyUvpp
