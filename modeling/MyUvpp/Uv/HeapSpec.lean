import MyUvpp.Uv.HeapTree
import Mathlib.Data.Finset.Image
import Mathlib.Order.Interval.Finset.Nat

/-! # What the operations of a heap do

`heap_insert` and `heap_remove` link and unlink the last node of the tree, and then move one node up or
down until the order is restored. Seen from outside a heap is a finite set of nodes, of which `heap_min` is
the first. -/

namespace MyUvpp

namespace UvHeap

variable {h h' : UvHeap} {n p : ℕ} {slot : ℕ → ℕ}

/-! ### Linking and unlinking -/

/-- Only the nodes of the tree matter. -/
theorem Tree.congr (ht : h.Tree n slot) (hmin : h'.min = h.min)
    (hnodes : ∀ i, 1 ≤ i → i ≤ n → h'.nodes (slot i) = h.nodes (slot i)) : h'.Tree n slot :=
  ⟨ht.inj, hmin.trans ht.min, fun i hi hin => (hnodes i hi hin).trans (ht.nodes i hi hin)⟩

/-- Writing to the link of a position changes what is at that position. -/
theorem assign_linkAt {A : ℕ → Option ℕ}
    (hinj : ∀ i j, 1 ≤ i → i ≤ n → 1 ≤ j → j ≤ n → slot i = slot j → i = j)
    (hnodes : ∀ i, 1 ≤ i → i ≤ n → h.nodes (slot i) = ⟨A (2 * i), A (2 * i + 1), A (i / 2)⟩) {j : ℕ}
    (h1 : 1 ≤ j) (hj : j / 2 ≤ n) (v : Option ℕ) :
    (h.assign (linkAt slot j) v).min = (if j = 1 then v else h.min) ∧
      (∀ i, 1 ≤ i → i ≤ n → i / 2 ≠ j → (h.assign (linkAt slot j) v).nodes (slot i) =
        ⟨Function.update A j v (2 * i), Function.update A j v (2 * i + 1),
          Function.update A j v (i / 2)⟩) ∧
      ∀ x, (∀ i, 1 ≤ i → i ≤ n → slot i ≠ x) → (h.assign (linkAt slot j) v).nodes x = h.nodes x := by
  rw [linkAt]
  by_cases hroot : j ≤ 1
  · obtain rfl : j = 1 := by omega
    rw [if_pos (le_refl 1), if_pos rfl]
    refine ⟨rfl, fun i hi hin hne => ?_, fun _ _ => rfl⟩
    rw [Function.update_of_ne (by omega), Function.update_of_ne (by omega), Function.update_of_ne hne]
    exact hnodes i hi hin
  · rw [if_neg hroot, if_neg (show j ≠ 1 by omega)]
    have hat : ∀ i, 1 ≤ i → i ≤ n → (slot i = slot (j / 2) ↔ i = j / 2) := fun i hi hin =>
      ⟨hinj i (j / 2) hi hin (by omega) hj, congrArg slot⟩
    by_cases heven : j % 2 = 0
    · rw [if_pos heven]
      refine ⟨rfl, fun i hi hin hne => ?_, fun x hx => ?_⟩
      · rw [UvHeap.assign, nodes_setLeft, hnodes i hi hin, Function.update_of_ne hne]
        by_cases hij : i = j / 2
        · rw [if_pos ((hat i hi hin).mpr hij), show 2 * i = j by omega, Function.update_self,
            Function.update_of_ne (by omega)]
        · rw [if_neg fun heq => hij ((hat i hi hin).mp heq), Function.update_of_ne (by omega),
            Function.update_of_ne (by omega)]
      · rw [UvHeap.assign, nodes_setLeft, if_neg (hx (j / 2) (by omega) hj).symm]
    · rw [if_neg heven]
      refine ⟨rfl, fun i hi hin hne => ?_, fun x hx => ?_⟩
      · rw [UvHeap.assign, nodes_setRight, hnodes i hi hin, Function.update_of_ne hne]
        by_cases hij : i = j / 2
        · rw [if_pos ((hat i hi hin).mpr hij), show 2 * i + 1 = j by omega, Function.update_self,
            Function.update_of_ne (by omega)]
        · rw [if_neg fun heq => hij ((hat i hi hin).mp heq), Function.update_of_ne (by omega),
            Function.update_of_ne (by omega)]
      · rw [UvHeap.assign, nodes_setRight, if_neg (hx (j / 2) (by omega) hj).symm]

/-- The addresses stay different when another one is put at one position. -/
theorem inj_update {b : ℕ}
    (hinj : ∀ i j, 1 ≤ i → i ≤ n → i ≠ p → 1 ≤ j → j ≤ n → j ≠ p → slot i = slot j → i = j)
    (hb : ∀ i, 1 ≤ i → i ≤ n → i ≠ p → slot i ≠ b) (i j : ℕ) (hi : 1 ≤ i) (hin : i ≤ n) (hj : 1 ≤ j)
    (hjn : j ≤ n) (heq : Function.update slot p b i = Function.update slot p b j) : i = j := by
  by_cases hi' : i = p
  · by_cases hj' : j = p
    · rw [hi', hj']
    · rw [hi', Function.update_self, Function.update_of_ne hj'] at heq
      exact absurd heq.symm (hb j hj hjn hj')
  · by_cases hj' : j = p
    · rw [hj', Function.update_self, Function.update_of_ne hi'] at heq
      exact absurd heq (hb i hi hin hi')
    · rw [Function.update_of_ne hi', Function.update_of_ne hj'] at heq
      exact hinj i j hi hin hi' hj hjn hj' heq

/-- A new node behind the last one. -/
theorem Tree.link (ht : h.Tree n slot) {a : ℕ} (ha : ∀ i, 1 ≤ i → i ≤ n → slot i ≠ a)
    (hnode : h.nodes a = ⟨none, none, addrAt n slot ((n + 1) / 2)⟩) :
    (h.assign (linkAt slot (n + 1)) (some a)).Tree (n + 1) (Function.update slot (n + 1) a) := by
  obtain ⟨hmin, hnodes, houtside⟩ :=
    assign_linkAt ht.inj ht.nodes (j := n + 1) (by omega) (by omega) (some a)
  have haddr : addrAt (n + 1) (Function.update slot (n + 1) a) =
      Function.update (addrAt n slot) (n + 1) (some a) := by
    funext i
    by_cases hi : i = n + 1
    · rw [hi, Function.update_self, addrAt_of_le (by omega) (le_refl _), Function.update_self]
    · rw [Function.update_of_ne hi, addrAt, addrAt, Function.update_of_ne hi]
      exact if_congr (by omega) rfl rfl
  constructor
  case inj =>
    exact inj_update
      (fun i j hi hin hi' hj hjn hj' => ht.inj i j hi (by omega) hj (by omega))
      fun i hi hin hi' => ha i hi (by omega)
  case min =>
    rw [hmin, haddr, ht.min, Function.update_apply]
    exact if_congr (by omega) rfl rfl
  case nodes =>
    intro i hi hin
    rw [haddr]
    by_cases hi' : i = n + 1
    · subst hi'
      have hleft : addrAt n slot (2 * (n + 1)) = none := addrAt_eq_none (by omega)
      have hright : addrAt n slot (2 * (n + 1) + 1) = none := addrAt_eq_none (by omega)
      rw [Function.update_self, houtside a ha, hnode, Function.update_of_ne (by omega),
        Function.update_of_ne (by omega), Function.update_of_ne (by omega), hleft, hright]
    · rw [Function.update_of_ne hi', hnodes i hi (by omega) (by omega)]

/-- The last node is unlinked. -/
theorem Tree.unlink (ht : h.Tree (n + 1) slot) :
    (h.assign (linkAt slot (n + 1)) none).Tree n slot := by
  obtain ⟨hmin, hnodes, -⟩ := assign_linkAt ht.inj ht.nodes (j := n + 1) (by omega) (by omega) none
  have haddr : addrAt n slot = Function.update (addrAt (n + 1) slot) (n + 1) none := by
    funext i
    by_cases hi : i = n + 1
    · rw [hi, Function.update_self, addrAt_eq_none (by omega)]
    · rw [Function.update_of_ne hi, addrAt, addrAt]
      exact if_congr (by omega) rfl rfl
  refine ⟨fun i j hi hin hj hjn => ht.inj i j hi (by omega) hj (by omega), ?_, fun i hi hin => ?_⟩
  · rw [hmin, haddr, ht.min, Function.update_apply]
    exact if_congr (by omega) rfl rfl
  · rw [haddr]
    exact hnodes i hi (by omega) (by omega)

/-- What `heap_remove` writes when it replaces a node by another, which is not in the tree. -/
theorem Tree.replaceNode_eq (ht : h.Tree n slot) (hp : 1 ≤ p) (hpn : p ≤ n) {b : ℕ}
    (hb : ∀ i, 1 ≤ i → i ≤ n → slot i ≠ b) :
    (h.replaceNode (slot p) b).min = (if p = 1 then some b else addrAt n slot 1) ∧
      (h.replaceNode (slot p) b).nodes b =
        ⟨addrAt n slot (2 * p), addrAt n slot (2 * p + 1), addrAt n slot (p / 2)⟩ ∧
      ∀ i, 1 ≤ i → i ≤ n → i ≠ p → (h.replaceNode (slot p) b).nodes (slot i) =
        ⟨if 2 * i = p then some b else addrAt n slot (2 * i),
          if 2 * i + 1 = p then some b else addrAt n slot (2 * i + 1),
          if i / 2 = p then some b else addrAt n slot (i / 2)⟩ := by
  have hP := ht.nodes p hp hpn
  have hatp (i : ℕ) : addrAt n slot i = some (slot p) ↔ i = p := ht.addrAt_eq_iff hp hpn
  have hatb (i : ℕ) : addrAt n slot i ≠ some b := by
    rw [addrAt]
    split
    case isTrue hi => exact fun heq => hb i hi.1 hi.2 (Option.some.inj heq)
    case isFalse => exact (Option.some_ne_none _).symm
  -- the pointers of the node that is replaced lead to others
  generalize hg : ({ h with nodes := Function.update h.nodes b ⟨addrAt n slot (2 * p),
    addrAt n slot (2 * p + 1), addrAt n slot (p / 2)⟩ } : UvHeap) = g
  have hgb : g.nodes b = ⟨addrAt n slot (2 * p), addrAt n slot (2 * p + 1), addrAt n slot (p / 2)⟩ := by
    rw [← hg]
    exact Function.update_self _ _ _
  have hgx (i : ℕ) (hi : 1 ≤ i) (hin : i ≤ n) : g.nodes (slot i) = h.nodes (slot i) := by
    rw [← hg]
    exact Function.update_of_ne (hb i hi hin) _ _
  have hleft : addrAt n slot (2 * p) ≠ some (slot p) := by rw [Ne, hatp]; omega
  have hright : addrAt n slot (2 * p + 1) ≠ some (slot p) := by rw [Ne, hatp]; omega
  have heq : h.replaceNode (slot p) b = ((g.setParentOf (addrAt n slot (2 * p)) b).setParentOf
      (addrAt n slot (2 * p + 1)) b).replaceChild (addrAt n slot (p / 2)) (slot p) b := by
    rw [replaceNode]
    simp only [hP, hg, Function.update_self, right_setParentOf, hgb, parent_setParentOf, if_neg hleft,
      if_neg hright, hgx p hp hpn]
  rw [heq]
  refine ⟨?_, ?_, fun i hi hin hip => ?_⟩
  · have hmin : g.min = h.min := by rw [← hg]
    rw [min_replaceChild, min_setParentOf, min_setParentOf, hmin, ht.min]
    by_cases hroot : p = 1
    · rw [if_pos hroot, if_pos (addrAt_eq_none (by omega))]
    · have hsome : addrAt n slot (p / 2) ≠ none := by
        rw [addrAt_of_le (by omega) (by omega)]
        exact Option.some_ne_none _
      rw [if_neg hroot, if_neg hsome]
  · rw [nodes_replaceChild, if_neg (hatb _), nodes_setParentOf, if_neg (hatb _), nodes_setParentOf,
      if_neg (hatb _), hgb]
  · have hati (j : ℕ) : addrAt n slot j = some (slot i) ↔ j = i := ht.addrAt_eq_iff hi hin
    have hX := (hgx i hi hin).trans (ht.nodes i hi hin)
    refine HeapNode.ext ?_ ?_ ?_
    · simp only [left_replaceChild, left_setParentOf, hX, hati, hatp]
      exact if_congr (by omega) rfl rfl
    · simp only [right_replaceChild, left_setParentOf, right_setParentOf, hX, hati, hatp, ne_eq]
      exact if_congr (by omega) rfl rfl
    · simp only [parent_replaceChild, parent_setParentOf, hX, hati]
      by_cases hchild : i / 2 = p
      · rw [if_pos hchild]
        by_cases hright : 2 * p + 1 = i
        · rw [if_pos hright]
        · rw [if_neg hright, if_pos (by omega)]
      · rw [if_neg hchild, if_neg (by omega), if_neg (by omega)]

/-- Another node takes the place of one. -/
theorem Tree.replace (ht : h.Tree n slot) (hp : 1 ≤ p) (hpn : p ≤ n) {b : ℕ}
    (hb : ∀ i, 1 ≤ i → i ≤ n → slot i ≠ b) :
    (h.replaceNode (slot p) b).Tree n (Function.update slot p b) := by
  obtain ⟨hmin, hnodesB, hnodes⟩ := ht.replaceNode_eq hp hpn hb
  have haddr (i : ℕ) : addrAt n (Function.update slot p b) i =
      if i = p then some b else addrAt n slot i := by
    by_cases hi : i = p
    · rw [if_pos hi, hi, addrAt_of_le hp hpn, Function.update_self]
    · rw [if_neg hi, addrAt, addrAt, Function.update_of_ne hi]
  constructor
  case inj =>
    exact inj_update (fun i j hi hin _ hj hjn _ => ht.inj i j hi hin hj hjn)
      fun i hi hin _ => hb i hi hin
  case min =>
    rw [hmin, haddr]
    exact if_congr eq_comm rfl rfl
  case nodes =>
    intro i hi hin
    rw [haddr, haddr, haddr]
    by_cases hip : i = p
    · subst hip
      rw [Function.update_self, hnodesB, if_neg (show 2 * i ≠ i by omega),
        if_neg (show 2 * i + 1 ≠ i by omega), if_neg (show i / 2 ≠ i by omega)]
    · rw [Function.update_of_ne hip, hnodes i hi hin hip]

/-! ### Moving a node -/

/-- The nodes of a tree, at the positions from 1 on. -/
def addrs (n : ℕ) (slot : ℕ → ℕ) : Finset ℕ := (Finset.Icc 1 n).image slot

/-- The addresses of a tree are those at its positions. -/
theorem mem_addrs {a : ℕ} : a ∈ addrs n slot ↔ ∃ i, 1 ≤ i ∧ i ≤ n ∧ slot i = a := by
  simp only [addrs, Finset.mem_image, Finset.mem_Icc, and_assoc]

/-- Exchanging two positions keeps the addresses. -/
theorem addrs_swap {c : ℕ} (hp : 1 ≤ p ∧ p ≤ n) (hc : 1 ≤ c ∧ c ≤ n) :
    addrs n (slot ∘ Equiv.swap p c) = addrs n slot := by
  have hrange : ∀ i, 1 ≤ i ∧ i ≤ n → 1 ≤ Equiv.swap p c i ∧ Equiv.swap p c i ≤ n := by
    intro i hi
    rw [Equiv.swap_apply_def]
    split_ifs
    · exact hc
    · exact hp
    · exact hi
  ext a
  rw [mem_addrs, mem_addrs]
  constructor
  · rintro ⟨i, hi, hin, rfl⟩
    obtain ⟨h1, hn⟩ := hrange i ⟨hi, hin⟩
    exact ⟨Equiv.swap p c i, h1, hn, rfl⟩
  · rintro ⟨i, hi, hin, rfl⟩
    obtain ⟨h1, hn⟩ := hrange i ⟨hi, hin⟩
    exact ⟨Equiv.swap p c i, h1, hn, congrArg slot (Equiv.swap_apply_self p c i)⟩

/-- The nodes with a new one behind the last. -/
theorem addrs_append (n : ℕ) (slot : ℕ → ℕ) (a : ℕ) :
    addrs (n + 1) (Function.update slot (n + 1) a) = insert a (addrs n slot) := by
  ext b
  rw [Finset.mem_insert, mem_addrs, mem_addrs]
  constructor
  · rintro ⟨i, hi, hin, rfl⟩
    by_cases hi' : i = n + 1
    · rw [hi', Function.update_self]
      exact .inl rfl
    · exact .inr ⟨i, hi, by omega, (Function.update_of_ne hi' a slot).symm⟩
  · rintro (rfl | ⟨i, hi, hin, rfl⟩)
    · exact ⟨n + 1, by omega, le_refl _, Function.update_self _ _ _⟩
    · exact ⟨i, hi, by omega, Function.update_of_ne (by omega) _ _⟩

/-- The nodes with the last one in the place of another, which is taken out. -/
theorem Tree.addrs_erase (ht : h.Tree (n + 1) slot) (hp : 1 ≤ p) (hpn : p ≤ n + 1) :
    addrs n (Function.update slot p (slot (n + 1))) = (addrs (n + 1) slot).erase (slot p) := by
  ext b
  rw [Finset.mem_erase, mem_addrs, mem_addrs]
  constructor
  · rintro ⟨i, hi, hin, rfl⟩
    by_cases hip : i = p
    · subst hip
      rw [Function.update_self]
      refine ⟨fun heq => ?_, n + 1, by omega, le_refl _, rfl⟩
      exact absurd (ht.inj (n + 1) i (by omega) (le_refl _) hp hpn heq) (by omega)
    · rw [Function.update_of_ne hip]
      exact ⟨fun heq => hip (ht.inj i p hi (by omega) hp hpn heq), i, hi, by omega, rfl⟩
  · rintro ⟨hne, i, hi, hin, rfl⟩
    have hip : i ≠ p := fun heq => hne (congrArg slot heq)
    by_cases hlast : i = n + 1
    · exact ⟨p, hp, by omega, by rw [Function.update_self, hlast]⟩
    · exact ⟨i, hi, by omega, Function.update_of_ne hip _ _⟩

/-- A swap keeps the number of nodes. -/
@[simp] theorem nelts_heapNodeSwap (parent child : ℕ) :
    (h.heapNodeSwap parent child).nelts = h.nelts := by
  have hexchange : (h.exchange parent child).1.nelts = h.nelts := by
    rw [exchange]
    dsimp only
    split <;> rfl
  simp only [heapNodeSwap, nelts_replaceChild, nelts_setParentOf, hexchange]

/-- So does writing through a link. -/
@[simp] theorem nelts_assign (link : HeapLink) (v : Option ℕ) : (h.assign link v).nelts = h.nelts := by
  cases link <;> rfl

/-- So does putting one node in the place of another. -/
@[simp] theorem nelts_replaceNode (node child : ℕ) : (h.replaceNode node child).nelts = h.nelts := by
  simp only [replaceNode, nelts_replaceChild, nelts_setParentOf]

/-- The heap without its last node. -/
def unlinked (h : UvHeap) (slot : ℕ → ℕ) (n : ℕ) : UvHeap :=
  { h with nelts := n }.assign (linkAt slot (n + 1)) none

/-- Without its last node the heap counts one less. -/
theorem nelts_unlinked (h : UvHeap) (slot : ℕ → ℕ) (n : ℕ) : (h.unlinked slot n).nelts = n :=
  nelts_assign _ _

/-- The tree without its last position. -/
theorem Tree.unlinked (ht : h.Tree (n + 1) slot) : (h.unlinked slot n).Tree n slot := by
  have hshort : ({ h with nelts := n } : UvHeap).Tree (n + 1) slot := ht.congr rfl fun _ _ _ => rfl
  exact hshort.unlink

/-- The last node is at one position only. -/
theorem Tree.ne_last (ht : h.Tree (n + 1) slot) {i : ℕ} (hi : 1 ≤ i) (hin : i ≤ n) :
    slot i ≠ slot (n + 1) := fun heq =>
  absurd (ht.inj i (n + 1) hi (by omega) (by omega) (le_refl _) heq) (by omega)

variable {κ : Type*} [LinearOrder κ] {key : ℕ → κ} {lessThan : ℕ → ℕ → Bool}
  (hless : ∀ a b, lessThan a b = true ↔ key a < key b)
include hless

/-- **Walking up** puts a node in its place that is not greater than its children. -/
theorem siftUp_spec (ht : h.Tree n slot) (hp : 1 ≤ p) (hpn : p ≤ n)
    (hdisplaced : HeapOrder.Displaced (key ∘ slot) n p) (habove : HeapOrder.Above (key ∘ slot) n p)
    {fuel : ℕ} (hfuel : p ≤ fuel) :
    ∃ h' slot', siftUp lessThan fuel h (slot p) = some h' ∧ h'.Tree n slot' ∧
      HeapOrder.Ordered (key ∘ slot') n ∧ addrs n slot' = addrs n slot ∧ h'.nelts = h.nelts := by
  induction fuel generalizing h slot p with
  | zero => omega
  | succ fuel ih =>
    rw [siftUp, ht.nodes p hp hpn]
    dsimp only
    by_cases hroot : p = 1
    · rw [addrAt_eq_none (by omega)]
      exact ⟨h, slot, rfl, ht, hdisplaced.ordered habove (by omega), rfl, rfl⟩
    · rw [addrAt_of_le (by omega) (by omega)]
      dsimp only
      by_cases hlt : key (slot p) < key (slot (p / 2))
      · rw [if_pos ((hless _ _).mpr hlt)]
        obtain ⟨hdisplaced', habove'⟩ := hdisplaced.up (by omega) hpn hlt
        have hself : slot p = (slot ∘ Equiv.swap (p / 2) p) (p / 2) := by
          rw [HeapOrder.swap_apply, if_pos rfl]
        obtain ⟨h', slot', hsift, ht', hordered, haddrs, hnelts⟩ :=
          ih (ht.swap (by omega) hpn rfl) (by omega) (by omega) hdisplaced' habove' (by omega)
        rw [← hself] at hsift
        exact ⟨h', slot', hsift, ht', hordered,
          haddrs.trans (addrs_swap ⟨by omega, by omega⟩ ⟨hp, hpn⟩),
          hnelts.trans (nelts_heapNodeSwap _ _)⟩
      · rw [if_neg fun heq => hlt ((hless _ _).mp heq)]
        exact ⟨h, slot, rfl, ht, hdisplaced.ordered habove fun _ => not_lt.mp hlt, rfl, rfl⟩

/-- `lesser` is one of the two nodes compared, and no greater than either. -/
theorem lesser_spec (o : Option ℕ) (s : ℕ) :
    (lesser lessThan o s = s ∨ o = some (lesser lessThan o s) ∧ key (lesser lessThan o s) < key s) ∧
      key (lesser lessThan o s) ≤ key s ∧ ∀ a ∈ o, key (lesser lessThan o s) ≤ key a := by
  cases o with
  | none => exact ⟨.inl rfl, le_refl _, nofun⟩
  | some addr =>
    rw [lesser]
    by_cases hlt : key addr < key s
    · rw [if_pos ((hless addr s).mpr hlt)]
      refine ⟨.inr ⟨rfl, hlt⟩, hlt.le, ?_⟩
      rintro a ⟨rfl⟩
      exact le_refl _
    · rw [if_neg fun heq => hlt ((hless addr s).mp heq)]
      refine ⟨.inl rfl, le_refl _, ?_⟩
      rintro a ⟨rfl⟩
      exact not_lt.mp hlt

/-- The smallest of a node and its children. -/
theorem smallest_spec (ht : h.Tree n slot) (hp : 1 ≤ p) (hpn : p ≤ n) :
    h.smallest lessThan (slot p) = slot p ∧ HeapOrder.Above (key ∘ slot) n p ∨
      ∃ c ≤ n, c / 2 = p ∧ h.smallest lessThan (slot p) = slot c ∧ key (slot c) < key (slot p) ∧
        ∀ d ≤ n, d / 2 = p → key (slot c) ≤ key (slot d) := by
  rw [smallest, ht.nodes p hp hpn]
  dsimp only
  obtain ⟨hleft, hleft_le, hleft_child⟩ := lesser_spec hless (addrAt n slot (2 * p)) (slot p)
  generalize lesser lessThan (addrAt n slot (2 * p)) (slot p) = l at hleft hleft_le hleft_child
  obtain ⟨hright, hright_le, hright_child⟩ := lesser_spec hless (addrAt n slot (2 * p + 1)) l
  generalize lesser lessThan (addrAt n slot (2 * p + 1)) l = r at hright hright_le hright_child
  -- the result is not greater than any child
  have hleast : ∀ d ≤ n, d / 2 = p → key r ≤ key (slot d) := by
    intro d hd hdp
    rcases (show d = 2 * p ∨ d = 2 * p + 1 by omega) with rfl | rfl
    · exact hright_le.trans (hleft_child _ (addrAt_of_le (by omega) hd))
    · exact hright_child _ (addrAt_of_le (by omega) hd)
  have hchild : ∀ c, addrAt n slot c = some r → c ≤ n ∧ r = slot c := by
    intro c hc
    rw [addrAt] at hc
    split at hc
    case isTrue hcn => exact ⟨hcn.2, (Option.some.inj hc).symm⟩
    case isFalse => cases hc
  rcases hright with rfl | ⟨hright, hlt⟩
  · rcases hleft with rfl | ⟨hleft, hlt⟩
    · exact .inl ⟨rfl, hleast⟩
    · obtain ⟨hn, rfl⟩ := hchild _ hleft
      exact .inr ⟨2 * p, hn, by omega, rfl, hlt, hleast⟩
  · obtain ⟨hn, rfl⟩ := hchild _ hright
    exact .inr ⟨2 * p + 1, hn, by omega, rfl, hlt.trans_le hleft_le, hleast⟩

/-- **Walking down** leaves a node where it is not greater than its children. -/
theorem siftDown_spec (ht : h.Tree n slot) (hp : 1 ≤ p) (hpn : p ≤ n)
    (hdisplaced : HeapOrder.Displaced (key ∘ slot) n p) {fuel : ℕ} (hfuel : n + 1 ≤ p + fuel) :
    ∃ h' slot' p', siftDown lessThan fuel h (slot p) = some h' ∧ h'.Tree n slot' ∧
      1 ≤ p' ∧ p' ≤ n ∧ slot' p' = slot p ∧ HeapOrder.Displaced (key ∘ slot') n p' ∧
      HeapOrder.Above (key ∘ slot') n p' ∧ addrs n slot' = addrs n slot ∧ h'.nelts = h.nelts := by
  induction fuel generalizing h slot p with
  | zero => omega
  | succ fuel ih =>
    rw [siftDown]
    rcases smallest_spec hless ht hp hpn with ⟨heq, habove⟩ | ⟨c, hc, hcp, heq, hlt, hleast⟩
    · rw [if_pos heq]
      exact ⟨h, slot, p, rfl, ht, hp, hpn, rfl, hdisplaced, habove, rfl, rfl⟩
    · have hne : slot c ≠ slot p := fun hslot => absurd hlt (by rw [hslot]; exact lt_irrefl _)
      rw [heq, if_neg hne]
      have hself : slot p = (slot ∘ Equiv.swap p c) c := by
        rw [HeapOrder.swap_apply, if_neg (by omega), if_pos rfl]
      obtain ⟨h', slot', p', hsift, ht', hp', hpn', hslot, hdisplaced', habove, haddrs, hnelts⟩ :=
        ih (ht.swap hp hc hcp) (by omega) hc (hdisplaced.down hp hc hcp hlt hleast) (by omega)
      rw [← hself] at hsift hslot
      exact ⟨h', slot', p', hsift, ht', hp', hpn', hslot, hdisplaced', habove,
        haddrs.trans (addrs_swap ⟨hp, hpn⟩ ⟨by omega, hc⟩), hnelts.trans (nelts_heapNodeSwap _ _)⟩

/-! ### The operations -/

omit hless in
/-- The link to the last node of a tree is found by the path to it. -/
theorem Tree.descend_path (ht : h.Tree n slot) {m : ℕ} (h1 : 1 ≤ m) (hm : m / 2 ≤ n) :
    ∃ parent, h.descend (pathLoop 0 0 m).2 (pathLoop 0 0 m).1 .min .min = some (parent, linkAt slot m) ∧
      (n < m → h.deref parent = addrAt n slot (m / 2)) := by
  have hwalk : walk (pathLoop 0 0 m).2 (pathLoop 0 0 m).1 1 = m := walk_pathLoop 0 0 m h1
  obtain ⟨parent, hdescend, hzero, hsucc⟩ := ht.descend (pathLoop 0 0 m).2 (pathLoop 0 0 m).1 1 .min
    (le_refl 1) (by rwa [hwalk])
  rw [hwalk] at hdescend hsucc
  refine ⟨parent, hdescend, fun hlt => ?_⟩
  by_cases hk : (pathLoop 0 0 m).2 = 0
  · -- the first node of a heap
    rw [hk, walk] at hwalk
    have hmin : h.deref .min = addrAt n slot 1 := ht.min
    rw [hzero hk, hmin, addrAt_eq_none (by omega), addrAt_eq_none (by omega)]
  · exact hsucc hk

/-- A heap with these nodes: a tree in which no node is less than its parent. -/
def IsHeap (key : ℕ → κ) (h : UvHeap) (s : Finset ℕ) : Prop :=
  ∃ slot, h.Tree h.nelts slot ∧ HeapOrder.Ordered (key ∘ slot) h.nelts ∧ addrs h.nelts slot = s

omit hless

/-- `heap_init` gives the heap of no nodes. -/
theorem isHeap_init (key : ℕ → κ) (nodes : ℕ → HeapNode) : (init nodes).IsHeap key ∅ :=
  ⟨id, ⟨fun i j hi hin => absurd hin (by simp [init]; omega), rfl, fun i hi hin => absurd hin (by simp [init]; omega)⟩,
    fun i h2 hi => absurd hi (by simp [init]; omega), rfl⟩

/-- The heap depends on the order of its own nodes only. -/
theorem IsHeap.congr {key' : ℕ → κ} {s : Finset ℕ} (hh : h.IsHeap key s)
    (hkey : ∀ a ∈ s, key' a = key a) : h.IsHeap key' s := by
  obtain ⟨slot, ht, hordered, rfl⟩ := hh
  exact ⟨slot, ht, hordered.congr fun i hi hin => hkey _ (mem_addrs.mpr ⟨i, hi, hin, rfl⟩), rfl⟩

/-- `nelts` is the number of the nodes. -/
theorem IsHeap.nelts_eq {s : Finset ℕ} (hh : h.IsHeap key s) : h.nelts = s.card := by
  obtain ⟨slot, ht, -, rfl⟩ := hh
  rw [addrs, Finset.card_image_of_injOn, Nat.card_Icc, Nat.add_sub_cancel]
  intro i hi j hj heq
  simp only [Finset.coe_Icc, Set.mem_Icc] at hi hj
  exact ht.inj i j hi.1 hi.2 hj.1 hj.2 heq

/-- The nodes that the pointers of a heap lead to. -/
inductive Holds (h : UvHeap) : ℕ → Prop where
  | min {a : ℕ} (hmin : h.min = some a) : Holds h a
  | left {a b : ℕ} (ha : Holds h a) (hleft : (h.nodes a).left = some b) : Holds h b
  | right {a b : ℕ} (ha : Holds h a) (hright : (h.nodes a).right = some b) : Holds h b

/-- The pointers of a tree lead to each of its positions, and nowhere else. -/
theorem Tree.holds_iff (ht : h.Tree n slot) {a : ℕ} : h.Holds a ↔ a ∈ addrs n slot := by
  -- a pointer to a position is a pointer to a node of the tree
  have haddr : ∀ {i b : ℕ}, addrAt n slot i = some b → b ∈ addrs n slot := by
    intro i b hb
    obtain ⟨⟨h1, hin⟩, heq⟩ := Option.ite_none_right_eq_some.mp hb
    exact mem_addrs.mpr ⟨i, h1, hin, Option.some.inj heq⟩
  constructor
  · intro hholds
    induction hholds with
    | min hmin => exact haddr (ht.min ▸ hmin)
    | left ha hleft ih =>
      obtain ⟨i, h1, hin, rfl⟩ := mem_addrs.mp ih
      rw [ht.nodes i h1 hin] at hleft
      exact haddr hleft
    | right ha hright ih =>
      obtain ⟨i, h1, hin, rfl⟩ := mem_addrs.mp ih
      rw [ht.nodes i h1 hin] at hright
      exact haddr hright
  · intro hmem
    obtain ⟨i, h1, hin, rfl⟩ := mem_addrs.mp hmem
    clear hmem
    -- on the position: a node is the left or the right child of the one at half of it
    induction i using Nat.strongRecOn with
    | _ i ih =>
      rcases Nat.lt_or_ge i 2 with hroot | hchild
      · obtain rfl : i = 1 := by omega
        exact .min (ht.min.trans (addrAt_of_le h1 hin))
      · have hparent := ih (i / 2) (by omega) (by omega) (by omega)
        have hnode := ht.nodes (i / 2) (by omega) (by omega)
        rcases Nat.even_or_odd' i with ⟨j, hj | hj⟩
        · have hi : 2 * (i / 2) = i := by omega
          rw [hi, addrAt_of_le h1 hin] at hnode
          exact .left hparent (congrArg HeapNode.left hnode)
        · have hi : 2 * (i / 2) + 1 = i := by omega
          rw [hi, addrAt_of_le h1 hin] at hnode
          exact .right hparent (congrArg HeapNode.right hnode)

/-- The nodes that can be reached from the root are exactly the set. -/
theorem IsHeap.holds_iff {s : Finset ℕ} (hh : h.IsHeap key s) {a : ℕ} : h.Holds a ↔ a ∈ s := by
  obtain ⟨slot, ht, -, rfl⟩ := hh
  exact ht.holds_iff

/-- **`heap_min`** is the first of the nodes, and null where there is none. -/
theorem IsHeap.heapMin_spec {s : Finset ℕ} (hh : h.IsHeap key s) :
    (h.heapMin = none ↔ s = ∅) ∧ ∀ a ∈ h.heapMin, a ∈ s ∧ ∀ b ∈ s, key a ≤ key b := by
  have hcard := hh.nelts_eq
  obtain ⟨slot, ht, hordered, rfl⟩ := hh
  rw [heapMin, ht.min]
  by_cases hn : h.nelts = 0
  · rw [addrAt_eq_none (by omega)]
    exact ⟨iff_of_true rfl (Finset.card_eq_zero.mp (hcard.symm.trans hn)), nofun⟩
  · rw [addrAt_of_le (le_refl 1) (by omega)]
    refine ⟨iff_of_false nofun fun hempty => hn ?_, ?_⟩
    · rw [hcard, hempty, Finset.card_empty]
    · rintro a ⟨rfl⟩
      refine ⟨mem_addrs.mpr ⟨1, le_refl 1, by omega, rfl⟩, fun b hb => ?_⟩
      obtain ⟨i, hi, hin, rfl⟩ := mem_addrs.mp hb
      exact hordered.root_le hi hin

include hless

/-- **`heap_insert`** adds a node. -/
theorem IsHeap.heapInsert {s : Finset ℕ} (hh : h.IsHeap key s) {a : ℕ} (ha : a ∉ s)
    (hcard : s.card + 1 < 2 ^ 32) :
    ∃ h', h.heapInsert lessThan a = some h' ∧ h'.IsHeap key (insert a s) := by
  have hnelts := hh.nelts_eq
  obtain ⟨slot, ht, hordered, rfl⟩ := hh
  have hnot : ∀ i, 1 ≤ i → i ≤ h.nelts → slot i ≠ a := fun i hi hin heq =>
    ha (mem_addrs.mpr ⟨i, hi, hin, heq⟩)
  generalize hh₁ : ({ h with nodes := Function.update h.nodes a ⟨none, none, none⟩ } : UvHeap) = h₁
  have hn₁ : h₁.nelts = h.nelts := by rw [← hh₁]
  have ht₁ : h₁.Tree h.nelts slot := ht.congr (by rw [← hh₁]) fun i hi hin => by
    rw [← hh₁]
    exact Function.update_of_ne (hnot i hi hin) _ _
  have ha₁ : h₁.nodes a = ⟨none, none, none⟩ := by
    rw [← hh₁]
    exact Function.update_self _ _ _
  -- the place of the new node
  obtain ⟨parent, hdescend, hparent⟩ := ht₁.descend_path (m := h.nelts + 1) (by omega) (by omega)
  have ht₂ : (h₁.setParent a (h₁.deref parent)).Tree h.nelts slot := ht₁.congr rfl fun i hi hin => by
    rw [nodes_setParent, if_neg (hnot i hi hin)]
  have ha₂ : (h₁.setParent a (h₁.deref parent)).nodes a =
      ⟨none, none, addrAt h.nelts slot ((h.nelts + 1) / 2)⟩ := by
    rw [nodes_setParent, if_pos rfl, ha₁, hparent (by omega)]
  have ht₃ := ht₂.link hnot ha₂
  generalize hh₄ : ({ (h₁.setParent a (h₁.deref parent)).assign (linkAt slot (h.nelts + 1)) (some a) with
    nelts := (h.nelts + 1) % 2 ^ 32 } : UvHeap) = h₄
  have hn₄ : h₄.nelts = h.nelts + 1 := by
    rw [← hh₄]
    exact Nat.mod_eq_of_lt (by omega)
  have ht₄ : h₄.Tree (h.nelts + 1) (Function.update slot (h.nelts + 1) a) :=
    ht₃.congr (by rw [← hh₄]) fun i hi hin => by rw [← hh₄]
  -- the others are in order
  have hordered' : HeapOrder.Ordered (key ∘ Function.update slot (h.nelts + 1) a) h.nelts :=
    hordered.congr fun i hi hin => congrArg key (Function.update_of_ne (by omega) _ _)
  obtain ⟨hdisplaced, habove⟩ := hordered'.snoc
  obtain ⟨h', slot', hsift, ht', hordered'', haddrs, hnelts'⟩ := siftUp_spec hless ht₄ (by omega)
    (le_refl _) hdisplaced habove (show h.nelts + 1 ≤ h₄.nelts + 1 by omega)
  rw [Function.update_self] at hsift
  refine ⟨h', ?_, slot', ?_, ?_, ?_⟩
  · have hn : (1 + h.nelts) % 2 ^ 32 = h.nelts + 1 := by
      rw [Nat.mod_eq_of_lt (by omega), Nat.add_comm]
    rcases hpath : pathLoop 0 0 (h.nelts + 1) with ⟨path, k⟩
    rw [hpath] at hdescend
    have hnelts₃ : ((h₁.setParent a (h₁.deref parent)).assign (linkAt slot (h.nelts + 1)) (some a)).nelts =
        h.nelts := (nelts_assign _ _).trans hn₁
    simp only [UvHeap.heapInsert, hh₁, hn, hpath, hdescend, Option.bind_some, hnelts₃, hh₄]
    rw [Nat.mod_eq_of_lt (by omega), ← hn₄]
    exact hsift
  · rwa [hnelts', hn₄]
  · rwa [hnelts', hn₄]
  · rw [hnelts', hn₄, haddrs]
    exact addrs_append h.nelts slot a

omit hless in
/-- `heap_remove` unlinks the last node, which takes the place of the one that is removed. -/
theorem Tree.heapRemove_eq (lessThan : ℕ → ℕ → Bool) {m : ℕ} (ht : h.Tree (m + 1) slot)
    (hm : h.nelts = m + 1) (a : ℕ) :
    h.heapRemove lessThan a =
      if slot (m + 1) = a then
        some (if some (slot (m + 1)) = (h.unlinked slot m).min then { h.unlinked slot m with min := none }
          else h.unlinked slot m)
      else
        (siftDown lessThan (m + 1) ((h.unlinked slot m).replaceNode a (slot (m + 1)))
          (slot (m + 1))).bind fun h => siftUp lessThan (h.nelts + 1) h (slot (m + 1)) := by
  obtain ⟨parent, hdescend, -⟩ := ht.descend_path (m := m + 1) (by omega) (by omega)
  have hderef : ({ h with nelts := m } : UvHeap).deref (linkAt slot (m + 1)) = some (slot (m + 1)) := by
    have hmax := ht.deref_linkAt (i := m + 1) (by omega) (by omega)
    rw [addrAt_of_le (by omega) (le_refl _)] at hmax
    exact hmax
  have hsub : m + 1 - 1 = m := rfl
  rcases hpath : pathLoop 0 0 (m + 1) with ⟨path, k⟩
  rw [hpath] at hdescend
  simp only [UvHeap.heapRemove, UvHeap.unlinked, hm, hpath, hdescend, Option.bind_some, hsub, hderef,
    nelts_assign]
  rw [if_neg (Nat.succ_ne_zero m)]

omit hless in
/-- The last node is taken out. -/
theorem Tree.heapRemove_last {m : ℕ} (ht : h.Tree (m + 1) slot) (hm : h.nelts = m + 1)
    (hordered : HeapOrder.Ordered (key ∘ slot) (m + 1)) :
    ∃ h', h.heapRemove lessThan (slot (m + 1)) = some h' ∧
      h'.IsHeap key ((addrs (m + 1) slot).erase (slot (m + 1))) := by
  have ht₁ := ht.unlinked
  have hmin : some (slot (m + 1)) ≠ (h.unlinked slot m).min := by
    rw [ht₁.min, addrAt]
    split
    case isTrue hi => exact fun heq => ht.ne_last (le_refl 1) hi.2 (Option.some.inj heq).symm
    case isFalse => exact Option.some_ne_none _
  rw [ht.heapRemove_eq lessThan hm, if_pos rfl, if_neg hmin]
  refine ⟨_, rfl, slot, ?_, ?_, ?_⟩
  · rwa [nelts_unlinked]
  · rw [nelts_unlinked]
    exact hordered.mono (by omega)
  · rw [nelts_unlinked, ← ht.addrs_erase (by omega) (le_refl _), Function.update_eq_self]

/-- Another node is taken out: the last one takes its place, and is moved down or up from there. -/
theorem Tree.heapRemove_inner {m : ℕ} (ht : h.Tree (m + 1) slot) (hm : h.nelts = m + 1)
    (hordered : HeapOrder.Ordered (key ∘ slot) (m + 1)) (hp : 1 ≤ p) (hpm : p ≤ m) :
    ∃ h', h.heapRemove lessThan (slot p) = some h' ∧
      h'.IsHeap key ((addrs (m + 1) slot).erase (slot p)) := by
  rw [ht.heapRemove_eq lessThan hm, if_neg (ht.ne_last hp hpm).symm]
  have ht₁ := ht.unlinked.replace hp hpm fun i hi hin => ht.ne_last hi hin
  have hself : Function.update slot p (slot (m + 1)) p = slot (m + 1) := Function.update_self _ _ _
  have hdisplaced : HeapOrder.Displaced (key ∘ Function.update slot p (slot (m + 1))) m p :=
    ((hordered.mono (by omega : m ≤ m + 1)).displaced hpm).congr fun i hi =>
      congrArg key (Function.update_of_ne hi _ _)
  obtain ⟨h₂, slot₂, q, hdown, ht₂, hq, hqm, hslot₂, hdisplaced₂, habove₂, haddrs₂, hn₂⟩ :=
    siftDown_spec hless ht₁ hp hpm hdisplaced (show m + 1 ≤ p + (m + 1) by omega)
  have hn₂' : h₂.nelts = m := by rw [hn₂, nelts_replaceNode, nelts_unlinked]
  obtain ⟨h₃, slot₃, hup, ht₃, hordered₃, haddrs₃, hn₃⟩ :=
    siftUp_spec hless ht₂ hq hqm hdisplaced₂ habove₂ (show q ≤ h₂.nelts + 1 by omega)
  rw [hself] at hdown hslot₂
  rw [hslot₂] at hup
  rw [hdown]
  refine ⟨h₃, hup, slot₃, ?_, ?_, ?_⟩
  · rwa [hn₃, hn₂']
  · rwa [hn₃, hn₂']
  · rw [hn₃, hn₂', haddrs₃, haddrs₂, ht.addrs_erase hp (by omega)]

/-- **`heap_remove`** takes a node out. -/
theorem IsHeap.heapRemove {s : Finset ℕ} (hh : h.IsHeap key s) {a : ℕ} (ha : a ∈ s) :
    ∃ h', h.heapRemove lessThan a = some h' ∧ h'.IsHeap key (s.erase a) := by
  obtain ⟨slot, ht, hordered, rfl⟩ := hh
  obtain ⟨p, hp, hpn, rfl⟩ := mem_addrs.mp ha
  obtain ⟨m, hm⟩ : ∃ m, h.nelts = m + 1 := ⟨h.nelts - 1, by omega⟩
  rw [hm] at ht hordered hpn
  rw [hm]
  by_cases hpm : p = m + 1
  · subst hpm
    exact ht.heapRemove_last hm hordered
  · exact ht.heapRemove_inner hless hm hordered hp (by omega)

end UvHeap

end MyUvpp
