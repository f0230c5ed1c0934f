import MyUvpp.Foundation.HeapOrder
import MyUvpp.Foundation.Numerals
import MyUvpp.Uv.Heap

/-! # The tree of a heap

The nodes of a heap are linked to a complete binary tree: `slot` is the address of the node at each
position. Swapping two neighbours exchanges their positions, whatever the pointers around them are. -/

namespace MyUvpp

namespace UvHeap

variable {h : UvHeap}

/-! ### Writing to memory -/

/-- Writing `left` changes one node. -/
theorem nodes_setLeft (addr : ℕ) (v : Option ℕ) (x : ℕ) :
    (h.setLeft addr v).nodes x = if x = addr then { h.nodes x with left := v } else h.nodes x := by
  by_cases hx : x = addr
  · subst hx
    simp [setLeft]
  · simp [setLeft, hx]

/-- Writing `right` changes one node. -/
theorem nodes_setRight (addr : ℕ) (v : Option ℕ) (x : ℕ) :
    (h.setRight addr v).nodes x = if x = addr then { h.nodes x with right := v } else h.nodes x := by
  by_cases hx : x = addr
  · subst hx
    simp [setRight]
  · simp [setRight, hx]

/-- Writing `parent` changes one node. -/
theorem nodes_setParent (addr : ℕ) (v : Option ℕ) (x : ℕ) :
    (h.setParent addr v).nodes x = if x = addr then { h.nodes x with parent := v } else h.nodes x := by
  by_cases hx : x = addr
  · subst hx
    simp [setParent]
  · simp [setParent, hx]

/-- Writing the parent of a node that may be null changes that node, if there is one. -/
theorem nodes_setParentOf (p : Option ℕ) (v x : ℕ) :
    (h.setParentOf p v).nodes x =
      if p = some x then { h.nodes x with parent := some v } else h.nodes x := by
  cases p with
  | none => simp [setParentOf]
  | some addr =>
    rw [setParentOf, nodes_setParent]
    simp only [Option.some.injEq, eq_comm]

/-- It leaves every `left`. -/
@[simp] theorem left_setParentOf (p : Option ℕ) (v x : ℕ) :
    ((h.setParentOf p v).nodes x).left = (h.nodes x).left := by
  rw [nodes_setParentOf]
  split <;> rfl

/-- It leaves every `right`. -/
@[simp] theorem right_setParentOf (p : Option ℕ) (v x : ℕ) :
    ((h.setParentOf p v).nodes x).right = (h.nodes x).right := by
  rw [nodes_setParentOf]
  split <;> rfl

/-- The parents after the write. -/
theorem parent_setParentOf (p : Option ℕ) (v x : ℕ) :
    ((h.setParentOf p v).nodes x).parent = if p = some x then some v else (h.nodes x).parent := by
  rw [nodes_setParentOf]
  split <;> rfl

/-- It leaves the root. -/
@[simp] theorem min_setParentOf (p : Option ℕ) (v : ℕ) : (h.setParentOf p v).min = h.min := by
  cases p <;> rfl

/-- It leaves the number of nodes. -/
@[simp] theorem nelts_setParentOf (p : Option ℕ) (v : ℕ) : (h.setParentOf p v).nelts = h.nelts := by
  cases p <;> rfl

/-- The branch of the swap that tells the parent of its new child: the left one when the old was the left,
else the right one. -/
theorem nodes_replaceChild (parent : Option ℕ) (old new x : ℕ) :
    (h.replaceChild parent old new).nodes x =
      if parent = some x then
        if (h.nodes x).left = some old then { h.nodes x with left := some new }
        else { h.nodes x with right := some new }
      else h.nodes x := by
  cases parent with
  | none => simp [replaceChild]
  | some addr =>
    rw [replaceChild]
    by_cases hx : x = addr
    · subst hx
      rw [if_pos rfl]
      split
      · rw [nodes_setLeft, if_pos rfl]
      · rw [nodes_setRight, if_pos rfl]
    · rw [if_neg fun heq => hx (Option.some.inj heq).symm]
      split
      · rw [nodes_setLeft, if_neg hx]
      · rw [nodes_setRight, if_neg hx]

/-- The left children after it. -/
theorem left_replaceChild (parent : Option ℕ) (old new x : ℕ) :
    ((h.replaceChild parent old new).nodes x).left =
      if parent = some x ∧ (h.nodes x).left = some old then some new else (h.nodes x).left := by
  rw [nodes_replaceChild]
  by_cases hx : parent = some x <;> by_cases hleft : (h.nodes x).left = some old <;> simp [hx, hleft]

/-- The right children after it. -/
theorem right_replaceChild (parent : Option ℕ) (old new x : ℕ) :
    ((h.replaceChild parent old new).nodes x).right =
      if parent = some x ∧ (h.nodes x).left ≠ some old then some new else (h.nodes x).right := by
  rw [nodes_replaceChild]
  by_cases hx : parent = some x <;> by_cases hleft : (h.nodes x).left = some old <;> simp [hx, hleft]

/-- It leaves every parent. -/
@[simp] theorem parent_replaceChild (parent : Option ℕ) (old new x : ℕ) :
    ((h.replaceChild parent old new).nodes x).parent = (h.nodes x).parent := by
  rw [nodes_replaceChild]
  by_cases hx : parent = some x <;> by_cases hleft : (h.nodes x).left = some old <;> simp [hx, hleft]

/-- Without a parent the new child is the root. -/
theorem min_replaceChild (parent : Option ℕ) (old new : ℕ) :
    (h.replaceChild parent old new).min = if parent = none then some new else h.min := by
  cases parent with
  | none => rfl
  | some addr =>
    rw [replaceChild]
    split <;> rfl

/-- It leaves the number of nodes. -/
@[simp] theorem nelts_replaceChild (parent : Option ℕ) (old new : ℕ) :
    (h.replaceChild parent old new).nelts = h.nelts := by
  cases parent with
  | none => rfl
  | some addr =>
    rw [replaceChild]
    split <;> rfl

/-! ### Trees -/

/-- The address of the node at a position of a tree with `n` nodes. -/
def addrAt (n : ℕ) (slot : ℕ → ℕ) (i : ℕ) : Option ℕ := if 1 ≤ i ∧ i ≤ n then some (slot i) else none

/-- The nodes are linked to a complete binary tree with `n` nodes, with the one at `slot i` at the
position `i`. -/
structure Tree (h : UvHeap) (n : ℕ) (slot : ℕ → ℕ) : Prop where
  inj : ∀ i j, 1 ≤ i → i ≤ n → 1 ≤ j → j ≤ n → slot i = slot j → i = j
  min : h.min = addrAt n slot 1
  nodes : ∀ i, 1 ≤ i → i ≤ n →
    h.nodes (slot i) = ⟨addrAt n slot (2 * i), addrAt n slot (2 * i + 1), addrAt n slot (i / 2)⟩

variable {n : ℕ} {slot : ℕ → ℕ}

/-- The address at a position of the tree. -/
theorem addrAt_of_le {i : ℕ} (h1 : 1 ≤ i) (hn : i ≤ n) : addrAt n slot i = some (slot i) := if_pos ⟨h1, hn⟩

/-- There is none at a position out of it. -/
theorem addrAt_eq_none {i : ℕ} (hi : i < 1 ∨ n < i) : addrAt n slot i = none := if_neg (by omega)

/-- Which position an address belongs to. -/
theorem Tree.addrAt_eq_iff (ht : h.Tree n slot) {i j : ℕ} (h1 : 1 ≤ j) (hn : j ≤ n) :
    addrAt n slot i = some (slot j) ↔ i = j := by
  rw [addrAt]
  split
  case isTrue hi =>
    rw [Option.some.injEq]
    exact ⟨ht.inj i j hi.1 hi.2 h1 hn, congrArg slot⟩
  case isFalse hi =>
    refine iff_of_false (by simp) ?_
    rintro rfl
    exact hi ⟨h1, hn⟩

/-- The other child of a node. -/
def sibling (h : UvHeap) (parent child : ℕ) : Option ℕ :=
  if (h.nodes parent).left = some child then (h.nodes parent).right else (h.nodes parent).left

/-- What the exchange of two nodes writes. -/
theorem exchange_eq {parent child : ℕ} (hne : parent ≠ child) :
    (h.exchange parent child).2 = h.sibling parent child ∧
      (h.exchange parent child).1.min = h.min ∧
      ∀ x, (h.exchange parent child).1.nodes x =
        if x = parent then ⟨(h.nodes child).left, (h.nodes child).right, some child⟩
        else if x = child then
          if (h.nodes parent).left = some child then
            ⟨some parent, (h.nodes parent).right, (h.nodes parent).parent⟩
          else ⟨(h.nodes parent).left, some parent, (h.nodes parent).parent⟩
        else h.nodes x := by
  have hparent : ∀ x, ((UvHeap.setParent { h with
      nodes := Function.update (Function.update h.nodes parent (h.nodes child)) child (h.nodes parent) }
        parent (some child)).nodes x) =
      if x = parent then ⟨(h.nodes child).left, (h.nodes child).right, some child⟩
      else if x = child then h.nodes parent else h.nodes x := by
    intro x
    rw [nodes_setParent]
    by_cases hx : x = parent
    · subst hx
      simp [Function.update_of_ne hne]
    · by_cases hx' : x = child
      · subst hx'
        simp [hx]
      · simp [hx, hx']
  rw [exchange]
  dsimp only
  rw [hparent child, if_neg hne.symm, if_pos rfl]
  by_cases hleft : (h.nodes parent).left = some child
  · rw [if_pos hleft, sibling, if_pos hleft]
    refine ⟨rfl, rfl, fun x => ?_⟩
    simp only [nodes_setLeft, hparent, if_pos hleft]
    by_cases hx : x = parent
    · rw [hx, if_neg hne, if_pos rfl, if_pos rfl]
    · rw [if_neg hx, if_neg hx]
      by_cases hx' : x = child
      · simp [hx']
      · simp [hx']
  · rw [if_neg hleft, sibling, if_neg hleft]
    refine ⟨rfl, rfl, fun x => ?_⟩
    simp only [nodes_setRight, hparent, if_neg hleft]
    by_cases hx : x = parent
    · rw [hx, if_neg hne, if_pos rfl, if_pos rfl]
    · rw [if_neg hx, if_neg hx]
      by_cases hx' : x = child
      · simp [hx']
      · simp [hx']

/-- **What `heap_node_swap` writes**, where the pointers of the two nodes do not lead back to them. -/
theorem heapNodeSwap_eq {parent child : ℕ} (hne : parent ≠ child)
    (hs : h.sibling parent child ≠ some parent ∧ h.sibling parent child ≠ some child)
    (hl : (h.nodes child).left ≠ some parent ∧ (h.nodes child).left ≠ some child)
    (hr : (h.nodes child).right ≠ some parent ∧ (h.nodes child).right ≠ some child)
    (hp : (h.nodes parent).parent ≠ some parent ∧ (h.nodes parent).parent ≠ some child) :
    (h.heapNodeSwap parent child).min =
        (if (h.nodes parent).parent = none then some child else h.min) ∧
      (h.heapNodeSwap parent child).nodes parent =
        ⟨(h.nodes child).left, (h.nodes child).right, some child⟩ ∧
      (h.heapNodeSwap parent child).nodes child =
        (if (h.nodes parent).left = some child then
          ⟨some parent, (h.nodes parent).right, (h.nodes parent).parent⟩
        else ⟨(h.nodes parent).left, some parent, (h.nodes parent).parent⟩) ∧
      ∀ x, x ≠ parent → x ≠ child → (h.heapNodeSwap parent child).nodes x =
        ⟨if (h.nodes parent).parent = some x ∧ (h.nodes x).left = some parent then some child
          else (h.nodes x).left,
          if (h.nodes parent).parent = some x ∧ (h.nodes x).left ≠ some parent then some child
          else (h.nodes x).right,
          if (h.nodes child).left = some x ∨ (h.nodes child).right = some x then some parent
          else if h.sibling parent child = some x then some child else (h.nodes x).parent⟩ := by
  obtain ⟨hsibling, hmin, hnodes⟩ := exchange_eq (h := h) hne
  have hP := (hnodes parent).trans (if_pos rfl)
  have hC := (hnodes child).trans ((if_neg hne.symm).trans (if_pos rfl))
  have hQ : ((h.exchange parent child).1.nodes child).parent = (h.nodes parent).parent := by
    rw [hC]
    split <;> rfl
  -- the new parent of the child is the old one of the parent
  have heq : h.heapNodeSwap parent child =
      ((((h.exchange parent child).1.setParentOf (h.sibling parent child) child).setParentOf
        (h.nodes child).left parent).setParentOf (h.nodes child).right parent).replaceChild
          (h.nodes parent).parent parent child := by
    rw [heapNodeSwap]
    simp only [left_setParentOf, right_setParentOf, hsibling, hP]
    rw [parent_setParentOf, if_neg hr.2, parent_setParentOf, if_neg hl.2, parent_setParentOf,
      if_neg hs.2, hQ]
  rw [heq]
  refine ⟨?_, ?_, ?_, fun x hx hx' => ?_⟩
  · rw [min_replaceChild, min_setParentOf, min_setParentOf, min_setParentOf, hmin]
  · rw [nodes_replaceChild, if_neg hp.1, nodes_setParentOf, if_neg hr.1, nodes_setParentOf, if_neg hl.1,
      nodes_setParentOf, if_neg hs.1, hP]
  · rw [nodes_replaceChild, if_neg hp.2, nodes_setParentOf, if_neg hr.2, nodes_setParentOf, if_neg hl.2,
      nodes_setParentOf, if_neg hs.2, hC]
  · have hX := (hnodes x).trans ((if_neg hx).trans (if_neg hx'))
    refine HeapNode.ext ?_ ?_ ?_
    · simp only [left_replaceChild, left_setParentOf, hX]
    · simp only [right_replaceChild, left_setParentOf, right_setParentOf, hX]
    · simp only [parent_replaceChild, parent_setParentOf, hX]
      by_cases hright : (h.nodes child).right = some x
      · rw [if_pos hright, if_pos (.inr hright)]
      · rw [if_neg hright]
        simp only [hright, or_false]

/-- The addresses after two nodes have changed places. -/
theorem addrAt_swap (slot : ℕ → ℕ) {p c : ℕ} (hp : 1 ≤ p ∧ p ≤ n) (hc : 1 ≤ c ∧ c ≤ n) (i : ℕ) :
    addrAt n (slot ∘ Equiv.swap p c) i =
      if i = p then some (slot c) else if i = c then some (slot p) else addrAt n slot i := by
  rw [addrAt, HeapOrder.swap_apply]
  by_cases hip : i = p
  · rw [if_pos hip, if_pos hip, if_pos (hip ▸ hp)]
  · by_cases hic : i = c
    · rw [if_neg hip, if_neg hip, if_pos hic, if_pos hic, if_pos (hic ▸ hc)]
    · rw [if_neg hip, if_neg hip, if_neg hic, if_neg hic]
      rfl

/-- **What `heap_node_swap` writes in a tree**, where `c` is a child of `p`. -/
theorem Tree.heapNodeSwap_eq (ht : h.Tree n slot) {p c : ℕ} (hp : 1 ≤ p) (hc : c ≤ n) (hcp : c / 2 = p) :
    (h.heapNodeSwap (slot p) (slot c)).min = (if p = 1 then some (slot c) else addrAt n slot 1) ∧
      (h.heapNodeSwap (slot p) (slot c)).nodes (slot p) =
        ⟨addrAt n slot (2 * c), addrAt n slot (2 * c + 1), some (slot c)⟩ ∧
      (h.heapNodeSwap (slot p) (slot c)).nodes (slot c) =
        (if 2 * p = c then ⟨some (slot p), addrAt n slot (2 * p + 1), addrAt n slot (p / 2)⟩
        else ⟨addrAt n slot (2 * p), some (slot p), addrAt n slot (p / 2)⟩) ∧
      ∀ i, 1 ≤ i → i ≤ n → i ≠ p → i ≠ c → (h.heapNodeSwap (slot p) (slot c)).nodes (slot i) =
        ⟨if 2 * i = p then some (slot c) else addrAt n slot (2 * i),
          if 2 * i + 1 = p then some (slot c) else addrAt n slot (2 * i + 1),
          if i / 2 = p then some (slot c) else if i / 2 = c then some (slot p)
          else addrAt n slot (i / 2)⟩ := by
  have hpn : p ≤ n := by omega
  have hc1 : 1 ≤ c := by omega
  have hP := ht.nodes p hp hpn
  have hC := ht.nodes c hc1 hc
  have hatp (i : ℕ) : addrAt n slot i = some (slot p) ↔ i = p := ht.addrAt_eq_iff hp hpn
  have hatc (i : ℕ) : addrAt n slot i = some (slot c) ↔ i = c := ht.addrAt_eq_iff hc1 hc
  have hne : slot p ≠ slot c := fun heq => absurd (ht.inj p c hp hpn hc1 hc heq) (by omega)
  have hsibling : h.sibling (slot p) (slot c) = addrAt n slot (4 * p + 1 - c) := by
    rw [sibling, hP]
    simp only [hatc]
    split <;> exact congrArg _ (by omega)
  -- no pointer of the two nodes leads back to one of them, but between them
  obtain ⟨hmin, hnodesP, hnodesC, hnodes⟩ := UvHeap.heapNodeSwap_eq (h := h) hne
    (by rw [hsibling]; exact ⟨by rw [Ne, hatp]; omega, by rw [Ne, hatc]; omega⟩)
    (by rw [hC]; exact ⟨by rw [Ne, hatp]; omega, by rw [Ne, hatc]; omega⟩)
    (by rw [hC]; exact ⟨by rw [Ne, hatp]; omega, by rw [Ne, hatc]; omega⟩)
    (by rw [hP]; exact ⟨by rw [Ne, hatp]; omega, by rw [Ne, hatc]; omega⟩)
  refine ⟨?_, ?_, ?_, fun i hi hin hip hic => ?_⟩
  · rw [hmin, hP, ht.min]
    by_cases hroot : p = 1
    · rw [if_pos hroot, if_pos (addrAt_eq_none (by omega))]
    · have hsome : addrAt n slot (p / 2) ≠ none := by
        rw [addrAt_of_le (by omega) (by omega)]
        exact Option.some_ne_none _
      rw [if_neg hroot, if_neg hsome]
  · rw [hnodesP, hC]
  · rw [hnodesC, hP]
    simp only [hatc]
  · have hati (j : ℕ) : addrAt n slot j = some (slot i) ↔ j = i := ht.addrAt_eq_iff hi hin
    have hslotp : slot i ≠ slot p := fun heq => hip (ht.inj i p hi hin hp hpn heq)
    have hslotc : slot i ≠ slot c := fun heq => hic (ht.inj i c hi hin hc1 hc heq)
    rw [hnodes _ hslotp hslotc, ht.nodes i hi hin, hP, hC, hsibling]
    simp only [hati, hatp, ne_eq]
    refine HeapNode.ext ?_ ?_ ?_ <;> dsimp only
    · exact if_congr (by omega) rfl rfl
    · exact if_congr (by omega) rfl rfl
    · by_cases hsib : i / 2 = p
      · rw [if_neg (by omega), if_pos (by omega), if_pos hsib]
      · rw [if_neg hsib]
        by_cases hchild : i / 2 = c
        · rw [if_pos hchild, if_pos (by omega)]
        · rw [if_neg hchild, if_neg (by omega), if_neg (by omega)]

/-- **Two neighbours change places** and nothing else does. -/
theorem Tree.swap (ht : h.Tree n slot) {p c : ℕ} (hp : 1 ≤ p) (hc : c ≤ n) (hcp : c / 2 = p) :
    (h.heapNodeSwap (slot p) (slot c)).Tree n (slot ∘ Equiv.swap p c) := by
  have hpn : p ≤ n := by omega
  have hc1 : 1 ≤ c := by omega
  have haddr := addrAt_swap slot ⟨hp, hpn⟩ ⟨hc1, hc⟩
  obtain ⟨hmin, hnodesP, hnodesC, hnodes⟩ := ht.heapNodeSwap_eq hp hc hcp
  constructor
  case inj =>
    have hrange : ∀ i, 1 ≤ i → i ≤ n → 1 ≤ Equiv.swap p c i ∧ Equiv.swap p c i ≤ n := by
      intro i hi hin
      rw [Equiv.swap_apply_def]
      split_ifs <;> omega
    intro i j hi hin hj hjn heq
    exact (Equiv.swap p c).injective
      (ht.inj _ _ (hrange i hi hin).1 (hrange i hi hin).2 (hrange j hj hjn).1 (hrange j hj hjn).2 heq)
  case min =>
    rw [hmin, haddr, if_neg (show 1 ≠ c by omega)]
    exact if_congr eq_comm rfl rfl
  case nodes =>
    intro i hi hin
    rw [HeapOrder.swap_apply, haddr, haddr, haddr]
    by_cases hip : i = p
    · subst hip
      rw [if_pos rfl, hnodesC, if_neg (show i / 2 ≠ i by omega), if_neg (show i / 2 ≠ c by omega),
        if_neg (show 2 * i ≠ i by omega), if_neg (show 2 * i + 1 ≠ i by omega)]
      by_cases hleft : 2 * i = c
      · rw [if_pos hleft, if_pos hleft, if_neg (by omega)]
      · rw [if_neg hleft, if_neg hleft, if_pos (by omega)]
    · by_cases hic : i = c
      · subst hic
        rw [if_neg hip, if_pos rfl, hnodesP, if_pos hcp, if_neg (show 2 * i ≠ p by omega),
          if_neg (show 2 * i ≠ i by omega), if_neg (show 2 * i + 1 ≠ p by omega),
          if_neg (show 2 * i + 1 ≠ i by omega)]
      · rw [if_neg hip, if_neg hic, hnodes i hi hin hip hic, if_neg (show 2 * i ≠ c by omega),
          if_neg (show 2 * i + 1 ≠ c by omega)]

/-! ### The path to a node -/

/-- The position that a path of `k` steps leads to. -/
def walk : ℕ → ℕ → ℕ → ℕ
  | 0, _, i => i
  | k + 1, path, i => walk k (path / 2) (2 * i + path % 2)

/-- Walking down a path leads to greater positions. -/
theorem le_walk (k path i : ℕ) : i ≤ walk k path i := by
  induction k generalizing path i with
  | zero => exact le_refl i
  | succ k ih => exact le_trans (by omega) (ih (path / 2) (2 * i + path % 2))

/-- The path that is calculated for a node leads to it. -/
theorem walk_pathLoop (path k n : ℕ) (hn : 1 ≤ n) :
    walk (pathLoop path k n).2 (pathLoop path k n).1 1 = walk k path n := by
  induction path, k, n using pathLoop.induct with
  | case1 path k n h2 ih =>
    have hpath : path <<< 1 ||| n &&& 1 = 2 * path + n % 2 := by
      rw [Nat.and_one_is_mod, shiftLeft_or_eq_mul_add (k := 1) path (by omega)]
      omega
    rw [pathLoop, if_pos h2, ih (by omega), hpath, walk]
    congr 1 <;> omega
  | case2 path k n h2 =>
    rw [pathLoop, if_neg h2]
    congr 1
    omega

/-- The link to the node at a position. -/
def linkAt (slot : ℕ → ℕ) (i : ℕ) : HeapLink :=
  if i ≤ 1 then .min else if i % 2 = 0 then .left (slot (i / 2)) else .right (slot (i / 2))

/-- The link of a position holds the address at the position, or null when it is the next free one. -/
theorem Tree.deref_linkAt (ht : h.Tree n slot) {i : ℕ} (h1 : 1 ≤ i) (hi : i / 2 ≤ n) :
    h.deref (linkAt slot i) = addrAt n slot i := by
  rw [linkAt]
  split
  case isTrue hroot =>
    obtain rfl : i = 1 := by omega
    exact ht.min
  case isFalse hroot =>
    have hnode := ht.nodes (i / 2) (by omega) hi
    split
    case isTrue heven =>
      rw [deref, hnode]
      exact congrArg (addrAt n slot) (show 2 * (i / 2) = i by omega)
    case isFalse hodd =>
      rw [deref, hnode]
      exact congrArg (addrAt n slot) (show 2 * (i / 2) + 1 = i by omega)

/-- **Following a path** leads to the link at its end, as long as there is a node at every step. -/
theorem Tree.descend (ht : h.Tree n slot) (k path i : ℕ) (parent : HeapLink) (h1 : 1 ≤ i)
    (hn : walk k path i / 2 ≤ n) :
    ∃ parent', h.descend k path parent (linkAt slot i) = some (parent', linkAt slot (walk k path i)) ∧
      (k = 0 → parent' = parent) ∧
      (k ≠ 0 → h.deref parent' = addrAt n slot (walk k path i / 2)) := by
  induction k generalizing path i parent with
  | zero => exact ⟨parent, rfl, fun _ => rfl, fun h => absurd rfl h⟩
  | succ k ih =>
    have hle := le_walk k (path / 2) (2 * i + path % 2)
    rw [walk] at hn ⊢
    have haddr := ht.deref_linkAt h1 (by omega)
    rw [addrAt_of_le h1 (by omega)] at haddr
    have hnext : (if path &&& 1 ≠ 0 then HeapLink.right (slot i) else .left (slot i)) =
        linkAt slot (2 * i + path % 2) := by
      have hroot : ¬ 2 * i + path % 2 ≤ 1 := by omega
      have hhalf : (2 * i + path % 2) / 2 = i := by omega
      rw [Nat.and_one_is_mod, linkAt, if_neg hroot, hhalf]
      rcases Nat.mod_two_eq_zero_or_one path with hbit | hbit
      · rw [if_neg (not_not.mpr hbit), if_pos (by omega)]
      · rw [if_pos (by omega), if_neg (by omega)]
    obtain ⟨parent', hdescend, hzero, hsucc⟩ := ih (path / 2) (2 * i + path % 2) (linkAt slot i)
      (by omega) hn
    refine ⟨parent', ?_, nofun, fun _ => ?_⟩
    · rw [UvHeap.descend, haddr, Option.bind_some, hnext, Nat.shiftRight_eq_div_pow, pow_one, hdescend]
    · by_cases hk : k = 0
      · subst hk
        rw [hzero rfl, ht.deref_linkAt h1 (by omega), walk]
        exact congrArg _ (by omega)
      · exact hsucc hk

end UvHeap

end MyUvpp
