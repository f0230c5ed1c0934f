import MyUvpp.Foundation.LinkedRing

/-! # Queues (`queue.h`)

The macros for queues, over the links of all nodes. Each is an assignment after the other, as in the source. A
queue is a ring with its head. -/

namespace MyUvpp

namespace Links

variable {α : Type*} [DecidableEq α] (m : Links α)

/-- `QUEUE_EMPTY`: the head leads to itself. -/
def queueEmpty (q : α) : Bool := q = m.next q

/-- `QUEUE_HEAD`, the node that the head leads to. -/
def queueHead (q : α) : α := m.next q

/-- `QUEUE_INIT`: the head leads to itself in both directions. -/
def queueInit (q : α) : Links α := (m.setNext q q).setPrev q q

/-- `QUEUE_ADD`: the nodes of the second queue go behind those of the first; its head stays outside. -/
def queueAdd (h n : α) : Links α :=
  let m := m.setNext (m.prev h) (m.next n)
  let m := m.setPrev (m.next n) (m.prev h)
  let m := m.setPrev h (m.prev n)
  m.setNext (m.prev h) h

/-- `QUEUE_SPLIT`: the nodes from `q` on go to the new head. -/
def queueSplit (h q n : α) : Links α :=
  let m := m.setPrev n (m.prev h)
  let m := m.setNext (m.prev n) n
  let m := m.setNext n q
  let m := m.setPrev h (m.prev q)
  let m := m.setNext (m.prev h) h
  m.setPrev q n

/-- `QUEUE_MOVE`: all the nodes go to the new head, and the old one is left empty. -/
def queueMove (h n : α) : Links α :=
  if m.queueEmpty h then m.queueInit n else m.queueSplit h (m.queueHead h) n

/-- `QUEUE_INSERT_HEAD`: four assignments, the later ones reading what the earlier ones wrote. -/
def queueInsertHead (h q : α) : Links α :=
  let m := m.setNext q (m.next h)
  let m := m.setPrev q h
  let m := m.setPrev (m.next q) q
  m.setNext h q

/-- `QUEUE_INSERT_TAIL`: four assignments, the later ones reading what the earlier ones wrote. -/
def queueInsertTail (h q : α) : Links α :=
  let m := m.setNext q h
  let m := m.setPrev q (m.prev h)
  let m := m.setNext (m.prev q) q
  m.setPrev h q

/-- `QUEUE_REMOVE`: the neighbours of the node lead past it; its own links stay. -/
def queueRemove (q : α) : Links α :=
  let m := m.setNext (m.prev q) (m.next q)
  m.setPrev (m.next q) (m.prev q)

/-- The nodes that `QUEUE_FOREACH` comes to from a node, in at most so many rounds. -/
def queueForeach (h : α) : ℕ → α → List α
  | 0, _ => []
  | rounds + 1, q => if q = h then [] else q :: queueForeach h rounds (m.next q)

variable {m} {h n q a : α} {l l₁ l₂ : List α}

/-! ### What the macros read -/

/-- `QUEUE_EMPTY` tells whether the list is empty. -/
theorem Ring.queueEmpty (hring : m.Ring h l) : m.queueEmpty h = l.isEmpty := by
  rw [Links.queueEmpty, Bool.eq_iff_iff, decide_eq_true_eq, eq_comm, hring.next_eq_iff, List.isEmpty_iff]

omit [DecidableEq α] in
/-- `QUEUE_HEAD` is the first of the list. -/
theorem Ring.queueHead (hring : m.Ring h (a :: l)) : m.queueHead h = a := hring.next_cons

/-- `QUEUE_FOREACH` from a node of the ring visits the list from there to the head. -/
theorem Path.queueForeach (hpath : m.Path a l h) (hnot : h ∉ l) {rounds : ℕ} (hrounds : l.length < rounds) :
    m.queueForeach h rounds (m.next a) = l := by
  induction l generalizing a rounds with
  | nil =>
    cases rounds with
    | zero => rfl
    | succ rounds => rw [hpath.1, Links.queueForeach, if_pos rfl]
  | cons c l ih =>
    obtain ⟨hc, -, hrest⟩ := hpath
    obtain ⟨hne, hnot'⟩ := List.ne_and_not_mem_of_not_mem_cons hnot
    cases rounds with
    | zero => exact absurd hrounds (Nat.not_lt_zero _)
    | succ rounds =>
      rw [hc, Links.queueForeach, if_neg (Ne.symm hne), ih hrest hnot' (Nat.lt_of_succ_lt_succ hrounds)]

/-- `QUEUE_FOREACH` comes to every node once, in the order of the queue. -/
theorem Ring.queueForeach (hring : m.Ring h l) {rounds : ℕ} (hrounds : l.length < rounds) :
    m.queueForeach h rounds (m.next h) = l :=
  hring.path.queueForeach (List.nodup_cons.mp hring.nodup).1 hrounds

/-! ### What the macros do to a queue -/

/-- `QUEUE_INIT` makes the empty ring. -/
theorem ring_queueInit (m : Links α) (q : α) : (m.queueInit q).Ring q [] where
  path := ⟨Function.update_self .., Function.update_self ..⟩
  nodup := List.nodup_singleton q

/-- The four assignments of `QUEUE_INSERT_TAIL` as two updates of each direction. -/
theorem queueInsertTail_eq : m.queueInsertTail h q =
    ⟨Function.update (Function.update m.next q h) (m.prev h) q,
      Function.update (Function.update m.prev q (m.prev h)) h q⟩ := by
  simp [queueInsertTail, setNext, setPrev]

/-- The four assignments of `QUEUE_INSERT_HEAD` as two updates of each direction. -/
theorem queueInsertHead_eq : m.queueInsertHead h q =
    ⟨Function.update (Function.update m.next q (m.next h)) h q,
      Function.update (Function.update m.prev q h) (m.next h) q⟩ := by
  simp [queueInsertHead, setNext, setPrev]

/-- The two assignments of `QUEUE_REMOVE`. -/
theorem queueRemove_eq : m.queueRemove q =
    ⟨Function.update m.next (m.prev q) (m.next q), Function.update m.prev (m.next q) (m.prev q)⟩ := by
  have hnext : Function.update m.next (m.prev q) (m.next q) q = m.next q := by
    by_cases heq : q = m.prev q
    · rw [← heq, Function.update_self]
    · rw [Function.update_of_ne heq]
  simp [queueRemove, setNext, setPrev, hnext]

/-- `QUEUE_INSERT_TAIL` appends. -/
theorem Ring.queueInsertTail (hring : m.Ring h l) (hq : q ∉ h :: l) :
    (m.queueInsertTail h q).Ring h (l ++ [q]) := by
  obtain ⟨hqh, hql⟩ := List.ne_and_not_mem_of_not_mem_cons hq
  have hlast : m.prev h ≠ q := fun heq => hq (heq ▸ hring.prev_mem)
  rw [queueInsertTail_eq]
  refine ⟨path_append.mpr ⟨hring.path.bend_end hring.nodup ?_ ?_ ?_ ?_, ?_, ?_⟩, ?_⟩
  · exact Function.update_self ..
  · dsimp only
    rw [Function.update_of_ne hqh, Function.update_self]
  · intro x hx hne
    have hxq : x ≠ q := fun heq => hq (heq ▸ hx)
    dsimp only
    rw [Function.update_of_ne hne, Function.update_of_ne hxq]
  · intro x hx
    have hxq : x ≠ q := fun heq => hql (heq ▸ hx)
    have hxh : x ≠ h := fun heq => (List.nodup_cons.mp hring.nodup).1 (heq ▸ hx)
    dsimp only
    rw [Function.update_of_ne hxh, Function.update_of_ne hxq]
  · dsimp only
    rw [Function.update_of_ne hlast.symm, Function.update_self]
  · exact Function.update_self ..
  · rw [← List.cons_append, ← List.concat_eq_append, List.nodup_concat]
    exact ⟨hq, hring.nodup⟩

/-- `QUEUE_INSERT_HEAD` puts in front. -/
theorem Ring.queueInsertHead (hring : m.Ring h l) (hq : q ∉ h :: l) :
    (m.queueInsertHead h q).Ring h (q :: l) := by
  obtain ⟨hqh, hql⟩ := List.ne_and_not_mem_of_not_mem_cons hq
  have hfirst : m.next h ≠ q := by
    cases l with
    | nil => exact fun heq => hqh (heq.symm.trans hring.path.1)
    | cons c l => exact fun heq => hql (heq.symm.trans hring.next_cons ▸ List.mem_cons_self)
  rw [queueInsertHead_eq]
  refine ⟨⟨Function.update_self .., ?_, hring.path.bend_start hring.nodup_concat ?_ ?_ ?_ ?_⟩, ?_⟩
  · dsimp only
    rw [Function.update_of_ne hfirst.symm, Function.update_self]
  · dsimp only
    rw [Function.update_of_ne hqh, Function.update_self]
  · exact Function.update_self ..
  · intro x hx
    have hxq : x ≠ q := fun heq => hql (heq ▸ hx)
    have hxh : x ≠ h := fun heq => (List.nodup_cons.mp hring.nodup).1 (heq ▸ hx)
    dsimp only
    rw [Function.update_of_ne hxh, Function.update_of_ne hxq]
  · intro x hx hne
    have hxq : x ≠ q := by
      rintro rfl
      rcases List.mem_append.mp hx with hx | hx
      · exact hql hx
      · exact hqh (List.mem_singleton.mp hx)
    dsimp only
    rw [Function.update_of_ne hne, Function.update_of_ne hxq]
  · exact (List.Perm.swap q h l).nodup_iff.mpr (List.nodup_cons.mpr ⟨hq, hring.nodup⟩)

/-- `QUEUE_REMOVE` takes the node out and keeps the others in order. -/
theorem Ring.queueRemove (hring : m.Ring h (l₁ ++ q :: l₂)) : (m.queueRemove q).Ring h (l₁ ++ l₂) := by
  obtain ⟨hpath₁, hpath₂⟩ := path_append.mp hring.path
  have hperm : (h :: (l₁ ++ q :: l₂)).Perm (q :: (h :: (l₁ ++ l₂))) :=
    (List.Perm.cons h List.perm_middle).trans (List.Perm.swap q h _)
  obtain ⟨hq, hnodup⟩ := List.nodup_cons.mp (hperm.nodup_iff.mp hring.nodup)
  have hnodup₁ : (h :: l₁).Nodup := hnodup.sublist (List.Sublist.cons_cons h (List.sublist_append_left l₁ l₂))
  have hlast := hpath₁.prev_mem
  refine ⟨?_, hnodup⟩
  rw [queueRemove_eq]
  cases l₂ with
  | nil =>
    rw [List.append_nil]
    obtain ⟨hnext, -⟩ := hpath₂
    rw [hnext]
    refine hpath₁.bend_end hnodup₁ (Function.update_self ..) (Function.update_self ..) ?_ ?_
    · exact fun x hx hne => Function.update_of_ne hne ..
    · intro x hx
      have hxh : x ≠ h := fun heq => (List.nodup_cons.mp hnodup₁).1 (heq ▸ hx)
      exact Function.update_of_ne hxh ..
  | cons c l₂ =>
    obtain ⟨hnext, -, hrest⟩ := hpath₂
    rw [hnext]
    obtain ⟨-, hnodup₂, hdisjoint⟩ := List.nodup_append.mp (show ((h :: l₁) ++ c :: l₂).Nodup from hnodup)
    refine path_append.mpr ⟨?_, hrest.congr ?_ ?_⟩
    · refine hpath₁.bend_end hnodup₁ (Function.update_self ..) (Function.update_self ..) ?_ ?_
      · exact fun x hx hne => Function.update_of_ne hne ..
      · intro x hx
        have hxc : x ≠ c := hdisjoint x (List.mem_cons_of_mem h hx) c List.mem_cons_self
        exact Function.update_of_ne hxc ..
    · exact fun x hx => Function.update_of_ne (hdisjoint _ hlast x hx).symm ..
    · intro x hx
      have hxc : x ≠ c := by
        rintro rfl
        rcases List.mem_append.mp hx with hx | hx
        · exact (List.nodup_cons.mp hnodup₂).1 hx
        · exact hdisjoint h List.mem_cons_self x List.mem_cons_self (List.mem_singleton.mp hx).symm
      exact Function.update_of_ne hxc ..

/-- The six assignments of `QUEUE_SPLIT`. -/
theorem queueSplit_eq (hprev : m.prev q = h) (hqn : q ≠ n) : m.queueSplit h q n =
    ⟨Function.update (Function.update (Function.update m.next (m.prev h) n) n q) h h,
      Function.update (Function.update (Function.update m.prev n (m.prev h)) h h) q n⟩ := by
  simp [queueSplit, setNext, setPrev, Function.update_of_ne hqn, Function.update_self, hprev]

/-- All nodes of a queue get another head, and its own head is left alone. -/
theorem Ring.queueMove (hring : m.Ring h l) (hn : n ∉ h :: l) :
    (m.queueMove h n).Ring n l ∧ (m.queueMove h n).Ring h [] := by
  obtain ⟨hnh, hnl⟩ := List.ne_and_not_mem_of_not_mem_cons hn
  rw [Links.queueMove, hring.queueEmpty]
  cases l with
  | nil =>
    have hxn : ∀ x ∈ [h], x ≠ n := fun x hx heq => hn (heq ▸ hx)
    refine ⟨ring_queueInit m n, hring.congr ?_ ?_⟩
    · exact fun x hx => Function.update_of_ne (hxn x hx) ..
    · exact fun x hx => Function.update_of_ne (hxn x hx) ..
  | cons q l =>
    obtain ⟨hnq, -⟩ := List.ne_and_not_mem_of_not_mem_cons hnl
    obtain ⟨hh, hnodup⟩ := List.nodup_cons.mp hring.nodup
    obtain ⟨hnext, hprev, hrest⟩ := hring.path
    have hlast : m.prev h ∈ q :: l := hrest.prev_mem
    have hlasth : m.prev h ≠ h := fun heq => hh (heq ▸ hlast)
    have hqh : q ≠ h := fun heq => hh (heq ▸ List.mem_cons_self)
    rw [List.isEmpty_cons, if_neg Bool.false_ne_true, hring.queueHead, queueSplit_eq hprev hnq.symm]
    refine ⟨⟨?_, List.nodup_cons.mpr ⟨hnl, hnodup⟩⟩, ⟨Function.update_self .., ?_⟩, List.nodup_singleton h⟩
    · -- first the end, then the start
      have hend : (Links.mk (Function.update m.next (m.prev h) n) (Function.update m.prev n (m.prev h))).Path
          h (q :: l) n := by
        refine hring.path.bend_end hring.nodup (Function.update_self ..) (Function.update_self ..) ?_ ?_
        · exact fun x hx hne => Function.update_of_ne hne ..
        · intro x hx
          have hxn : x ≠ n := fun heq => hnl (heq ▸ hx)
          exact Function.update_of_ne hxn ..
      have hfirst : Function.update m.next (m.prev h) n h = q := (Function.update_of_ne hlasth.symm ..).trans hnext
      refine hend.bend_start ?_ ?_ ?_ ?_ ?_
      · rw [← List.concat_eq_append, List.nodup_concat]
        exact ⟨hnl, hnodup⟩
      · dsimp only
        rw [hfirst, Function.update_of_ne hnh, Function.update_self]
      · dsimp only
        rw [hfirst, Function.update_self]
      · intro x hx
        have hxh : x ≠ h := fun heq => hh (heq ▸ hx)
        have hxn : x ≠ n := fun heq => hnl (heq ▸ hx)
        dsimp only
        rw [Function.update_of_ne hxh, Function.update_of_ne hxn]
      · intro x hx hne
        dsimp only at hne ⊢
        rw [hfirst] at hne
        have hxh : x ≠ h := by
          rintro rfl
          rcases List.mem_append.mp hx with hx | hx
          · exact hh hx
          · exact hnh (List.mem_singleton.mp hx).symm
        rw [Function.update_of_ne hne, Function.update_of_ne hxh]
    · dsimp only
      rw [Function.update_of_ne hqh.symm, Function.update_self]

/-- What is in none of the queues is left alone. -/
theorem Ring.queueMove_of_not_mem (hring : m.Ring h l) (hn : n ∉ h :: l) {x : α} (hx : x ∉ h :: l)
    (hxn : x ≠ n) :
    (m.queueMove h n).next x = m.next x ∧ (m.queueMove h n).prev x = m.prev x := by
  rw [Links.queueMove, hring.queueEmpty]
  cases l with
  | nil => exact ⟨Function.update_of_ne hxn .., Function.update_of_ne hxn ..⟩
  | cons q l =>
    obtain ⟨hxh, hxl⟩ := List.ne_and_not_mem_of_not_mem_cons hx
    have hxq : x ≠ q := fun heq => hxl (heq ▸ List.mem_cons_self)
    have hxp : x ≠ m.prev h := fun heq => hx (heq ▸ hring.prev_mem)
    rw [List.isEmpty_cons, if_neg Bool.false_ne_true, hring.queueHead]
    have hqn : q ≠ n := fun heq => hn (heq ▸ List.mem_cons_of_mem h List.mem_cons_self)
    rw [queueSplit_eq hring.path.2.1 hqn]
    dsimp only
    rw [Function.update_of_ne hxh, Function.update_of_ne hxn, Function.update_of_ne hxp,
      Function.update_of_ne hxq, Function.update_of_ne hxh, Function.update_of_ne hxn]
    exact ⟨rfl, rfl⟩

/-- The four assignments of `QUEUE_ADD`. -/
theorem queueAdd_eq (hne : n ≠ m.prev h) : m.queueAdd h n =
    let last := if m.next n = n then m.prev h else m.prev n
    ⟨Function.update (Function.update m.next (m.prev h) (m.next n)) last h,
      Function.update (Function.update m.prev (m.next n) (m.prev h)) h last⟩ := by
  have hlast : Function.update m.prev (m.next n) (m.prev h) n =
      if m.next n = n then m.prev h else m.prev n := by
    rw [Function.update_apply]
    exact if_congr eq_comm rfl rfl
  simp [queueAdd, setNext, setPrev, Function.update_of_ne hne, hlast]

/-- All nodes of a queue come behind those of another one. -/
theorem Ring.queueAdd (hring : m.Ring h l₁) (hring' : m.Ring n l₂)
    (hdisjoint : ∀ x ∈ h :: l₁, x ∉ n :: l₂) : (m.queueAdd h n).Ring h (l₁ ++ l₂) := by
  have hlast := hring.prev_mem
  obtain ⟨hh, hnodup⟩ := List.nodup_cons.mp hring.nodup
  have hlastn : n ≠ m.prev h := fun heq => hdisjoint _ hlast (heq ▸ List.mem_cons_self)
  rw [queueAdd_eq hlastn]
  cases l₂ with
  | nil =>
    -- the links of the queue are written again
    have hnext : m.next n = n := hring'.path.1
    rw [if_pos hnext, hnext, List.append_nil]
    refine ⟨hring.path.bend_end hring.nodup (Function.update_self ..) (Function.update_self ..) ?_ ?_, hring.nodup⟩
    · intro x hx hne
      dsimp only
      rw [Function.update_of_ne hne, Function.update_of_ne hne]
    · intro x hx
      have hxh : x ≠ h := fun heq => hh (heq ▸ hx)
      have hxn : x ≠ n := fun heq => hdisjoint x (List.mem_cons_of_mem h hx) (heq ▸ List.mem_cons_self)
      dsimp only
      rw [Function.update_of_ne hxh, Function.update_of_ne hxn]
  | cons c l₂ =>
    obtain ⟨hnext, -, hrest⟩ := hring'.path
    obtain ⟨hn, hnodup'⟩ := List.nodup_cons.mp hring'.nodup
    have hlast' : m.prev n ∈ c :: l₂ := hrest.prev_mem
    have hcn : m.next n ≠ n := fun heq => hn (hnext.symm.trans heq ▸ List.mem_cons_self)
    have hdisjoint' : ∀ x ∈ h :: l₁, x ∉ c :: l₂ := fun x hx hmem => hdisjoint x hx (List.mem_cons_of_mem n hmem)
    have hch : c ≠ h := fun heq => hdisjoint' h List.mem_cons_self (heq ▸ List.mem_cons_self)
    rw [if_neg hcn, hnext]
    refine ⟨path_append.mpr ⟨hring.path.bend_end hring.nodup ?_ ?_ ?_ ?_, hrest.bend_end hnodup' ?_ ?_ ?_ ?_⟩,
      List.nodup_append.mpr ⟨hring.nodup, hnodup', ?_⟩⟩
    · have hne : m.prev h ≠ m.prev n := fun heq => hdisjoint' _ hlast (heq ▸ hlast')
      dsimp only
      rw [Function.update_of_ne hne, Function.update_self]
    · dsimp only
      rw [Function.update_of_ne hch, Function.update_self]
    · intro x hx hne
      have hxn : x ≠ m.prev n := fun heq => hdisjoint' x hx (heq ▸ hlast')
      dsimp only
      rw [Function.update_of_ne hxn, Function.update_of_ne hne]
    · intro x hx
      have hxh : x ≠ h := fun heq => hh (heq ▸ hx)
      have hxc : x ≠ c := fun heq => hdisjoint' x (List.mem_cons_of_mem h hx) (heq ▸ List.mem_cons_self)
      dsimp only
      rw [Function.update_of_ne hxh, Function.update_of_ne hxc]
    · exact Function.update_self ..
    · exact Function.update_self ..
    · intro x hx hne
      have hxh : x ≠ m.prev h := fun heq => hdisjoint' _ hlast (heq ▸ hx)
      dsimp only
      rw [Function.update_of_ne hne, Function.update_of_ne hxh]
    · intro x hx
      have hxh : x ≠ h := fun heq => hdisjoint' h List.mem_cons_self (heq ▸ List.mem_cons_of_mem c hx)
      have hxc : x ≠ c := fun heq => (List.nodup_cons.mp hnodup').1 (heq ▸ hx)
      dsimp only
      rw [Function.update_of_ne hxh, Function.update_of_ne hxc]
    · exact fun x hx y hy heq => hdisjoint' x hx (heq ▸ hy)

/-- What is in none of the queues is left alone. -/
theorem Ring.queueAdd_of_not_mem (hring : m.Ring h l₁) (hring' : m.Ring n l₂)
    (hdisjoint : ∀ x ∈ h :: l₁, x ∉ n :: l₂) {x : α} (hx : x ∉ h :: l₁) (hx' : x ∉ n :: l₂) :
    (m.queueAdd h n).next x = m.next x ∧ (m.queueAdd h n).prev x = m.prev x := by
  have hlast := hring.prev_mem
  have hlastn : n ≠ m.prev h := fun heq => hdisjoint _ hlast (heq ▸ List.mem_cons_self)
  have hxh : x ≠ h := fun heq => hx (heq ▸ List.mem_cons_self)
  have hxp : x ≠ m.prev h := fun heq => hx (heq ▸ hlast)
  have hxp' : x ≠ m.prev n := fun heq => hx' (heq ▸ hring'.prev_mem)
  have hxn : x ≠ m.next n := fun heq => hx' (heq ▸ hring'.next_mem)
  have hxlast : x ≠ if m.next n = n then m.prev h else m.prev n := by split_ifs <;> assumption
  rw [queueAdd_eq hlastn]
  dsimp only
  rw [Function.update_of_ne hxlast, Function.update_of_ne hxp, Function.update_of_ne hxh,
    Function.update_of_ne hxn]
  exact ⟨rfl, rfl⟩

end Links

end MyUvpp
