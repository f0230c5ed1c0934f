import MyUvpp.Foundation.TransitionSystem
import MyUvpp.Uv.Queue
import Mathlib.Data.List.Perm.Lattice

/-! # Queues are lists

Several queues over the same memory, each a head and the list of its nodes. Whatever the macros are called
for, in whatever order, the links of the memory are those of the lists. -/

namespace MyUvpp

variable {α : Type*}

/-- The queues of a program, each with its head. -/
abbrev Queues (α : Type*) := List (α × List α)

namespace Queues

/-- The heads and the nodes of some queues. -/
def nodes (Q : Queues α) : List α := Q.flatMap fun p => p.1 :: p.2

/-- The queue with a head, and the other ones. -/
def take [DecidableEq α] (h : α) : Queues α → Option (List α × Queues α)
  | [] => none
  | (n, l) :: Q => if n = h then some (l, Q) else (take h Q).map fun (k, rest) => (k, (n, l) :: rest)

/-- Taking a queue out of the family leaves the rest of it. -/
theorem perm_of_take [DecidableEq α] {h : α} {Q rest : Queues α} {l : List α}
    (htake : Q.take h = some (l, rest)) : Q.Perm ((h, l) :: rest) := by
  induction Q generalizing l rest with
  | nil => cases htake
  | cons p Q ih =>
    obtain ⟨n, k⟩ := p
    rw [take] at htake
    split_ifs at htake with heq
    · cases htake
      rw [heq]
    · obtain ⟨⟨l', rest'⟩, htake', heq'⟩ := Option.map_eq_some_iff.mp htake
      cases heq'
      exact ((ih htake').cons _).trans (List.Perm.swap _ _ _)

/-- The nodes do not depend on the order of the family. -/
theorem perm_nodes {Q Q' : Queues α} (hperm : Q.Perm Q') : (nodes Q).Perm (nodes Q') :=
  hperm.flatMap_right _

end Queues

open Queues

/-! ### The memory of some queues -/

namespace Links

variable {m m' : Links α} {Q rest : Queues α} {h n q : α} {l : List α}

/-- The links of some queues, which have no node in common. -/
structure Represents (m : Links α) (Q : Queues α) : Prop where
  ring : ∀ p ∈ Q, m.Ring p.1 p.2
  nodup : (nodes Q).Nodup

namespace Represents

/-- Neither does what memory represents. -/
theorem of_perm (hrep : m.Represents Q) (hperm : Q.Perm rest) : m.Represents rest where
  ring p hp := hrep.ring p (hperm.mem_iff.mpr hp)
  nodup := (perm_nodes hperm).nodup_iff.mp hrep.nodup

/-- **The other queues stay as they are.** -/
theorem replace (old new : Queues α) (hrep : m.Represents (old ++ rest)) (hring : ∀ p ∈ new, m'.Ring p.1 p.2)
    (hnodup : (nodes (new ++ rest)).Nodup)
    (hsame : ∀ x ∈ nodes rest, m'.next x = m.next x ∧ m'.prev x = m.prev x) : m'.Represents (new ++ rest) := by
  refine ⟨fun p hp => ?_, hnodup⟩
  rcases List.mem_append.mp hp with hp | hp
  · exact hring p hp
  · have hmem : ∀ x ∈ p.1 :: p.2, x ∈ nodes rest := fun x hx => List.mem_flatMap.mpr ⟨p, hp, hx⟩
    exact (hrep.ring p (List.mem_append_right old hp)).congr (fun x hx => (hsame x (hmem x hx)).1)
      fun x hx => (hsame x (hmem x hx)).2

/-- A queue and the other ones have no node in common. -/
theorem not_mem_rest (hrep : m.Represents ((h, l) :: rest)) {x : α} (hx : x ∈ nodes rest) : x ∉ h :: l :=
  fun hmem => (List.nodup_append.mp hrep.nodup).2.2 x hmem x hx rfl

/-- A queue whose memory is given up. -/
theorem tail (hrep : m.Represents ((h, l) :: rest)) : m.Represents rest where
  ring p hp := hrep.ring p (List.mem_cons_of_mem _ hp)
  nodup := (List.nodup_append.mp hrep.nodup).2.1

variable [DecidableEq α]

/-- `QUEUE_INIT` of a node outside adds an empty queue. -/
theorem queueInit (hrep : m.Represents Q) (hq : q ∉ nodes Q) : (m.queueInit q).Represents ((q, []) :: Q) := by
  refine replace [] [(q, [])] hrep ?_ (List.nodup_cons.mpr ⟨hq, hrep.nodup⟩) fun x hx => ?_
  · rintro _ (_ | ⟨_, ⟨⟩⟩)
    exact ring_queueInit m q
  · have hne : x ≠ q := fun heq => hq (heq ▸ hx)
    exact ⟨Function.update_of_ne hne .., Function.update_of_ne hne ..⟩

/-- `QUEUE_INSERT_TAIL` of a node outside appends it to one queue and leaves the others. -/
theorem queueInsertTail (hrep : m.Represents ((h, l) :: rest)) (hq : q ∉ nodes ((h, l) :: rest)) :
    (m.queueInsertTail h q).Represents ((h, l ++ [q]) :: rest) := by
  have hring := hrep.ring (h, l) List.mem_cons_self
  have hperm : (nodes ((h, l ++ [q]) :: rest)).Perm (q :: nodes ((h, l) :: rest)) := by
    simp only [nodes, List.flatMap_cons, List.cons_append, List.append_assoc]
    exact @List.perm_middle α q (h :: l) (nodes rest)
  refine replace [(h, l)] [(h, l ++ [q])] hrep ?_
    (hperm.nodup_iff.mpr (List.nodup_cons.mpr ⟨hq, hrep.nodup⟩)) fun x hx => ?_
  · rintro _ (_ | ⟨_, ⟨⟩⟩)
    exact hring.queueInsertTail fun hmem => hq (List.mem_append_left _ hmem)
  · have hnot := hrep.not_mem_rest hx
    have hxq : x ≠ q := fun heq => hq (heq ▸ List.mem_append_right _ hx)
    have hxh : x ≠ h := fun heq => hnot (heq ▸ List.mem_cons_self)
    have hxp : x ≠ m.prev h := fun heq => hnot (heq ▸ hring.prev_mem)
    rw [queueInsertTail_eq]
    dsimp only
    rw [Function.update_of_ne hxp, Function.update_of_ne hxq, Function.update_of_ne hxh,
      Function.update_of_ne hxq]
    exact ⟨rfl, rfl⟩

/-- `QUEUE_INSERT_HEAD` of a node outside puts it in front of one queue and leaves the others. -/
theorem queueInsertHead (hrep : m.Represents ((h, l) :: rest)) (hq : q ∉ nodes ((h, l) :: rest)) :
    (m.queueInsertHead h q).Represents ((h, q :: l) :: rest) := by
  have hring := hrep.ring (h, l) List.mem_cons_self
  have hperm : (nodes ((h, q :: l) :: rest)).Perm (q :: nodes ((h, l) :: rest)) :=
    List.Perm.swap q h (l ++ nodes rest)
  refine replace [(h, l)] [(h, q :: l)] hrep ?_
    (hperm.nodup_iff.mpr (List.nodup_cons.mpr ⟨hq, hrep.nodup⟩)) fun x hx => ?_
  · rintro _ (_ | ⟨_, ⟨⟩⟩)
    exact hring.queueInsertHead fun hmem => hq (List.mem_append_left _ hmem)
  · have hnot := hrep.not_mem_rest hx
    have hxq : x ≠ q := fun heq => hq (heq ▸ List.mem_append_right _ hx)
    have hxh : x ≠ h := fun heq => hnot (heq ▸ List.mem_cons_self)
    have hxn : x ≠ m.next h := fun heq => hnot (heq ▸ hring.next_mem)
    rw [queueInsertHead_eq]
    dsimp only
    rw [Function.update_of_ne hxh, Function.update_of_ne hxq, Function.update_of_ne hxn,
      Function.update_of_ne hxq]
    exact ⟨rfl, rfl⟩

/-- `QUEUE_REMOVE` takes a node out of the queue it is in and leaves the others. -/
theorem queueRemove {l₁ l₂ : List α} (hrep : m.Represents ((h, l₁ ++ q :: l₂) :: rest)) :
    (m.queueRemove q).Represents ((h, l₁ ++ l₂) :: rest) := by
  have hring := hrep.ring (h, l₁ ++ q :: l₂) List.mem_cons_self
  have hsub : (h :: (l₁ ++ l₂)).Sublist (h :: (l₁ ++ q :: l₂)) :=
    ((List.sublist_cons_self q l₂).append_left l₁).cons_cons h
  refine replace [(h, l₁ ++ q :: l₂)] [(h, l₁ ++ l₂)] hrep ?_
    (hrep.nodup.sublist (hsub.append_right _)) fun x hx => ?_
  · rintro _ (_ | ⟨_, ⟨⟩⟩)
    exact hring.queueRemove
  · have hnot : x ∉ h :: (l₁ ++ l₂) := fun hmem => hrep.not_mem_rest hx (hsub.subset hmem)
    obtain ⟨hprev, hnext⟩ := hring.mem_of_mem
    have hxp : x ≠ m.prev q := fun heq => hnot (heq ▸ hprev)
    have hxn : x ≠ m.next q := fun heq => hnot (heq ▸ hnext)
    rw [queueRemove_eq]
    exact ⟨Function.update_of_ne hxp .., Function.update_of_ne hxn ..⟩

/-- `QUEUE_MOVE` gives the whole list to the new head. -/
theorem queueMove (hrep : m.Represents ((h, l) :: rest)) (hn : n ∉ nodes ((h, l) :: rest)) :
    (m.queueMove h n).Represents ((h, []) :: (n, l) :: rest) := by
  have hring := hrep.ring (h, l) List.mem_cons_self
  obtain ⟨hringn, hringh⟩ := hring.queueMove (fun hmem => hn (List.mem_append_left _ hmem))
  have hperm : (nodes ((h, []) :: (n, l) :: rest)).Perm (n :: nodes ((h, l) :: rest)) :=
    List.Perm.swap n h (l ++ nodes rest)
  refine replace [(h, l)] [(h, []), (n, l)] hrep ?_
    (hperm.nodup_iff.mpr (List.nodup_cons.mpr ⟨hn, hrep.nodup⟩)) fun x hx => ?_
  · rintro _ (_ | ⟨_, _ | ⟨_, ⟨⟩⟩⟩)
    · exact hringh
    · exact hringn
  · have hnot := hrep.not_mem_rest hx
    have hxn : x ≠ n := fun heq => hn (heq ▸ List.mem_append_right _ hx)
    exact hring.queueMove_of_not_mem (fun hmem => hn (List.mem_append_left _ hmem)) hnot hxn

/-- `QUEUE_ADD` appends the list of the second head to that of the first. -/
theorem queueAdd {k : List α} (hrep : m.Represents ((h, l) :: (n, k) :: rest)) :
    (m.queueAdd h n).Represents ((h, l ++ k) :: rest) := by
  have hring := hrep.ring (h, l) List.mem_cons_self
  have hring' := hrep.ring (n, k) (List.mem_cons_of_mem _ List.mem_cons_self)
  have hsub : (nodes ((h, l ++ k) :: rest)).Sublist (nodes ((h, l) :: (n, k) :: rest)) := by
    simp only [nodes, List.flatMap_cons, List.cons_append, List.append_assoc]
    exact ((List.sublist_cons_self n _).append_left l).cons_cons h
  have hdisjoint : ∀ x ∈ h :: l, x ∉ n :: k := fun x hx hmem =>
    hrep.not_mem_rest (List.mem_append_left _ hmem) hx
  refine replace [(h, l), (n, k)] [(h, l ++ k)] hrep ?_ (hrep.nodup.sublist hsub)
    fun x hx => ?_
  · rintro _ (_ | ⟨_, ⟨⟩⟩)
    exact hring.queueAdd hring' hdisjoint
  · have hnot := hrep.not_mem_rest (List.mem_append_right _ hx)
    exact hring.queueAdd_of_not_mem hring' hdisjoint hnot (hrep.tail.not_mem_rest hx)

end Represents

end Links

/-! ### Runs of the macros -/

/-- A use of a macro. What it does not see is given for statements about it: the queue that a node is taken
out of, and that the memory of a queue is given up. -/
inductive QueueOp (α : Type*) where
  | init (q : α)
  | insertHead (h q : α)
  | insertTail (h q : α)
  | remove (h q : α)
  | move (h n : α)
  | add (h n : α)
  | forget (h : α)
  deriving DecidableEq, Repr

section Runs

variable [DecidableEq α]

/-- What a macro does to the memory. -/
def Links.apply (m : Links α) : QueueOp α → Links α
  | .init q => m.queueInit q
  | .insertHead h q => m.queueInsertHead h q
  | .insertTail h q => m.queueInsertTail h q
  | .remove _ q => m.queueRemove q
  | .move h n => m.queueMove h n
  | .add h n => m.queueAdd h n
  | .forget _ => m

/-- What a macro does to the lists. A node that is put into a queue is in no queue, and no queue is moved to
itself. -/
def Queues.step (Q : Queues α) : QueueOp α → Option (Queues α)
  | .init q => if q ∈ nodes Q then none else some ((q, []) :: Q)
  | .insertHead h q =>
    if q ∈ nodes Q then none else (Q.take h).map fun (l, rest) => (h, q :: l) :: rest
  | .insertTail h q =>
    if q ∈ nodes Q then none else (Q.take h).map fun (l, rest) => (h, l ++ [q]) :: rest
  | .remove h q => (Q.take h).bind fun (l, rest) => if q ∈ l then some ((h, l.erase q) :: rest) else none
  | .move h n =>
    if n ∈ nodes Q then none else (Q.take h).map fun (l, rest) => (h, []) :: (n, l) :: rest
  | .add h n =>
    (Q.take h).bind fun (l, rest) => (Queues.take n rest).map fun (k, rest) => (h, l ++ k) :: rest
  | .forget h => (Q.take h).map Prod.snd

variable {m : Links α} {Q Q' : Queues α} {op : QueueOp α} {ops : List (QueueOp α)}

/-- **A macro does to the memory what it does to the lists.** -/
theorem Links.Represents.apply (hrep : m.Represents Q) (hstep : Q.step op = some Q') :
    (m.apply op).Represents Q' := by
  cases op with
  | init q =>
    rw [Queues.step] at hstep
    split_ifs at hstep with hq
    cases hstep
    exact hrep.queueInit hq
  | insertHead h q =>
    rw [Queues.step] at hstep
    split_ifs at hstep with hq
    obtain ⟨⟨l, rest⟩, htake, rfl⟩ := Option.map_eq_some_iff.mp hstep
    have hperm := perm_of_take htake
    exact (hrep.of_perm hperm).queueInsertHead fun hmem => hq ((perm_nodes hperm).mem_iff.mpr hmem)
  | insertTail h q =>
    rw [Queues.step] at hstep
    split_ifs at hstep with hq
    obtain ⟨⟨l, rest⟩, htake, rfl⟩ := Option.map_eq_some_iff.mp hstep
    have hperm := perm_of_take htake
    exact (hrep.of_perm hperm).queueInsertTail fun hmem => hq ((perm_nodes hperm).mem_iff.mpr hmem)
  | remove h q =>
    obtain ⟨⟨l, rest⟩, htake, hrest⟩ := Option.bind_eq_some_iff.mp hstep
    dsimp only at hrest
    split_ifs at hrest with hq
    cases hrest
    have hrep' := hrep.of_perm (perm_of_take htake)
    obtain ⟨l₁, l₂, hnot, rfl, herase⟩ := List.exists_erase_eq hq
    rw [herase]
    exact hrep'.queueRemove
  | move h n =>
    rw [Queues.step] at hstep
    split_ifs at hstep with hn
    obtain ⟨⟨l, rest⟩, htake, rfl⟩ := Option.map_eq_some_iff.mp hstep
    have hperm := perm_of_take htake
    exact (hrep.of_perm hperm).queueMove fun hmem => hn ((perm_nodes hperm).mem_iff.mpr hmem)
  | add h n =>
    obtain ⟨⟨l, rest⟩, htake, hrest⟩ := Option.bind_eq_some_iff.mp hstep
    obtain ⟨⟨k, rest'⟩, htake', rfl⟩ := Option.map_eq_some_iff.mp hrest
    exact (hrep.of_perm ((perm_of_take htake).trans ((perm_of_take htake').cons _))).queueAdd
  | forget h =>
    obtain ⟨⟨l, rest⟩, htake, rfl⟩ := Option.map_eq_some_iff.mp hstep
    exact (hrep.of_perm (perm_of_take htake)).tail

/-- A run of the macros is the run on lists. -/
theorem Links.Represents.run (hrep : m.Represents Q) (hrun : run Queues.step Q ops = some Q') :
    (ops.foldl Links.apply m).Represents Q' := by
  induction ops generalizing m Q with
  | nil =>
    cases hrun
    exact hrep
  | cons op ops ih =>
    obtain ⟨Q₁, hstep, hrun'⟩ := run_cons_eq_some.mp hrun
    exact ih (hrep.apply hstep) hrun'

/-- **Queues are lists.** Whatever is in the memory first, and whatever is done to any number of queues:
`QUEUE_EMPTY`, `QUEUE_HEAD` and `QUEUE_FOREACH` give what they give for lists, `QUEUE_FOREACH` ends, and the
links lead through the same nodes in the other direction. -/
theorem queues_are_lists (m : Links α) (hrun : run Queues.step [] ops = some Q) :
    ∀ p ∈ Q, (ops.foldl Links.apply m).queueEmpty p.1 = p.2.isEmpty ∧
      (∀ a l, p.2 = a :: l → (ops.foldl Links.apply m).queueHead p.1 = a) ∧
      ∀ rounds, p.2.length < rounds →
        (ops.foldl Links.apply m).queueForeach p.1 rounds ((ops.foldl Links.apply m).next p.1) = p.2 ∧
        (ops.foldl Links.apply m).flip.queueForeach p.1 rounds ((ops.foldl Links.apply m).prev p.1) =
          p.2.reverse := by
  have hempty : m.Represents [] := ⟨fun _ hp => absurd hp List.not_mem_nil, List.nodup_nil⟩
  rintro ⟨h, l⟩ hp
  have hring := (hempty.run hrun).ring (h, l) hp
  refine ⟨hring.queueEmpty, ?_, fun rounds hrounds => ⟨hring.queueForeach hrounds, ?_⟩⟩
  · rintro a l' rfl
    exact hring.queueHead
  · exact hring.flip.queueForeach (by rw [List.length_reverse]; exact hrounds)

/-- A loop over a queue, in which a node is taken out and others are put in. -/
def loopOps : List (QueueOp ℕ) :=
  [.init 1, .insertTail 1 10, .insertTail 1 11, .insertHead 1 12, .move 1 2, .remove 2 12, .insertTail 1 12,
    .remove 2 11, .insertHead 1 13]

/-- Memory that was used for something else. -/
def loopLinks : Links ℕ := loopOps.foldl Links.apply ⟨fun _ => 10, fun _ => 2⟩

/-- The two directions read back from one loop. -/
theorem queues_are_lists_loop : loopLinks.queueForeach 1 3 (loopLinks.next 1) = [13, 12] ∧
    loopLinks.flip.queueForeach 1 3 (loopLinks.prev 1) = [12, 13] :=
  (queues_are_lists (Q := [(1, [13, 12]), (2, [10])]) _ (by decide) (1, [13, 12]) (by decide)).2.2 3
    (by decide)

end Runs

end MyUvpp
