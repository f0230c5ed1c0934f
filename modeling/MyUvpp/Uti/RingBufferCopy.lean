import MyUvpp.Uti.RingBufferFifo

/-! # Copies, assignments and exchanges of ring buffers (`ring_buffer.hpp`)

The copy constructor, `operator=` and `swap` walk the elements of one buffer from its `_head` on and
construct them in the other one from its own `_head` on. Neither `_head` is moved: a buffer that has popped
elements has less room for the elements of another one than its array has slots. `operator=` clears the
buffer before it looks at the other one, which may be the buffer itself. -/

namespace MyUvpp

/-- The `n` positions from `start` on. -/
def Window (start : ℤ) (n : ℕ) (p : ℤ) : Prop := start ≤ p ∧ p < start + n

/-- Whether an address lies in a window is two comparisons. -/
instance (start : ℤ) (n : ℕ) (p : ℤ) : Decidable (Window start n p) := inferInstanceAs (Decidable (_ ∧ _))

section Windows

variable {start p : ℤ} {n N : ℕ}

/-- The empty window has no address. -/
theorem window_zero : ¬ Window start 0 p := by
  unfold Window
  omega

/-- The first position of a window and the others. -/
theorem window_succ : Window start (n + 1) p ↔ p = start ∨ Window (start + 1) n p := by
  unfold Window
  omega

/-- The addresses of a window are its start and what is added below its length. -/
theorem window_add {i : ℕ} (hi : i < n) : Window start n (start + i) := by
  unfold Window
  omega

/-- A window is in the array where its end is. -/
theorem window_inArray_iff (hstart : 0 ≤ start) :
    (∀ p, Window start n p → 0 ≤ p ∧ p < N) ↔ n = 0 ∨ start + n ≤ N := by
  unfold Window
  constructor
  · intro h
    by_contra hnot
    have hlast := h (start + n - 1) (by omega)
    omega
  · intro h p hp
    omega

end Windows

namespace RingBuffer

section Loops

variable {T : Type*} {ti oi : IteratorImpl}

/-! ### The loops

An iterator in a contiguous region walks through a window of positions. -/

/-- One step of a loop that takes a window of other slots, which may change behind it. -/
theorem slots_step {n : ℕ} {t o p : ℤ} {slots other other' : ℤ → Option T}
    (hother : ∀ q, q ≠ o → other' q = other q) :
    (if Window (t + 1) n p then other' (o + 1 + (p - (t + 1))) else Function.update slots t (other o) p) =
      if Window t (n + 1) p then other (o + (p - t)) else slots p := by
  have hshift : o + 1 + (p - (t + 1)) = o + (p - t) := by omega
  rw [hshift]
  by_cases hp : p = t
  · have hnot : ¬ Window (t + 1) n p := by
      unfold Window
      omega
    have hin : Window t (n + 1) p := window_succ.mpr (.inl hp)
    rw [if_neg hnot, if_pos hin, hp, Function.update_self, sub_self, add_zero]
  · have hne : o + (p - t) ≠ o := by omega
    simp only [window_succ, hp, false_or, hother _ hne, Function.update_of_ne hp]

/-- One step of a loop that refers to a window of slots. -/
theorem touched_step {n : ℕ} {t p : ℤ} {touched : List ℤ} :
    p ∈ t :: touched ∨ Window (t + 1) n p ↔ p ∈ touched ∨ Window t (n + 1) p := by
  rw [List.mem_cons, window_succ, or_right_comm, or_comm]

/-- The loop of the copy constructor copies a window of the other memory. -/
theorem slots_copyLoop (n : ℕ) (hti : ti.lfirst ≤ ti.llast) (hoi : oi.lfirst ≤ oi.llast)
    (buffer other : Backing T) (p : ℤ) : (copyLoop n ti oi buffer other).1.slots p =
      if Window ti.iter n p then other.slots (oi.iter + (p - ti.iter)) else buffer.slots p := by
  induction n generalizing ti oi buffer other with
  | zero => rw [if_neg window_zero, copyLoop]
  | succ n ih =>
    rw [copyLoop, IteratorImpl.addAssign_of_le hti, IteratorImpl.addAssign_of_le hoi,
      ih (by exact hti) (by exact hoi)]
    exact slots_step fun q hq => rfl

/-- The `i`-th address copied to holds what the `i`-th address copied from held. -/
theorem slots_copyLoop_add (n : ℕ) (hti : ti.lfirst ≤ ti.llast) (hoi : oi.lfirst ≤ oi.llast)
    (buffer other : Backing T) {i : ℕ} (hi : i < n) :
    (copyLoop n ti oi buffer other).1.slots (ti.iter + i) = other.slots (oi.iter + i) := by
  rw [slots_copyLoop n hti hoi, if_pos (window_add hi), add_sub_cancel_left]

/-- It refers to that window, and constructs what it copies. -/
theorem mem_touched_copyLoop (n : ℕ) (hti : ti.lfirst ≤ ti.llast) (hoi : oi.lfirst ≤ oi.llast)
    (buffer other : Backing T) (p : ℤ) :
    (p ∈ (copyLoop n ti oi buffer other).1.touched ↔ p ∈ buffer.touched ∨ Window ti.iter n p) ∧
      (p ∈ (copyLoop n ti oi buffer other).2.touched ↔ p ∈ other.touched ∨ Window oi.iter n p) := by
  induction n generalizing ti oi buffer other with
  | zero => simp [copyLoop, window_zero]
  | succ n ih =>
    rw [copyLoop, IteratorImpl.addAssign_of_le hti, IteratorImpl.addAssign_of_le hoi,
      (ih (by exact hti) (by exact hoi) _ _).1, (ih (by exact hti) (by exact hoi) _ _).2]
    exact ⟨touched_step, touched_step⟩

/-- It leaves the objects of the other memory alone. -/
theorem slots_copyLoop_other (n : ℕ) (buffer other : Backing T) :
    (copyLoop n ti oi buffer other).2.slots = other.slots := by
  induction n generalizing ti oi buffer other with
  | zero => rfl
  | succ n ih =>
    rw [copyLoop, ih]
    rfl

/-- The loop of `operator=` is the one of the copy constructor, with `_tail` for the iterator. -/
theorem assignLoop_eq (oi : IteratorImpl) (n : ℕ) (b : RingBuffer T) (htail : b.tail.lfirst ≤ b.tail.llast)
    (other : Backing T) : assignLoop n oi b other =
      ({ b with
          buffer := (copyLoop n b.tail oi b.buffer other).1
          buffered := b.buffered + n
          tail := b.tail.addAssign n },
        (copyLoop n b.tail oi b.buffer other).2) := by
  induction n generalizing oi b other with
  | zero => simp [assignLoop, copyLoop, IteratorImpl.addAssign_of_le htail]
  | succ n ih =>
    have hmoved := IteratorImpl.addAssign_of_le htail
    have hcount : b.buffered + 1 + n = b.buffered + (n + 1) := by omega
    have hplace : (b.tail.addAssign 1).addAssign n = b.tail.addAssign (n + 1 : ℕ) := by
      rw [hmoved 1, IteratorImpl.addAssign_of_le (by exact htail), hmoved, Nat.cast_succ]
      simp only [IteratorImpl.mk.injEq, and_true]
      omega
    rw [assignLoop, ih _ _ (by rw [hmoved 1]; exact htail), copyLoop]
    simp only [hcount, hplace]

/-- Where the exchange of two windows leaves its iterators. -/
theorem iterators_swapLoop (n : ℕ) (hti : ti.lfirst ≤ ti.llast) (hoi : oi.lfirst ≤ oi.llast)
    (buffer other : Backing T) : (swapLoop n ti oi buffer other).1 =
      ({ ti with iter := ti.iter + n }, { oi with iter := oi.iter + n }) := by
  induction n generalizing ti oi buffer other with
  | zero => simp [swapLoop]
  | succ n ih =>
    rw [swapLoop, IteratorImpl.addAssign_of_le hti, IteratorImpl.addAssign_of_le hoi,
      ih (by exact hti) (by exact hoi)]
    simp only [Nat.cast_succ, Prod.mk.injEq, IteratorImpl.mk.injEq, and_true]
    omega

/-- The exchange is the same from the side of the other memory. -/
theorem swapLoop_comm (n : ℕ) (buffer other : Backing T) :
    (swapLoop n oi ti other buffer).2 = (swapLoop n ti oi buffer other).2.swap := by
  induction n generalizing ti oi buffer other with
  | zero => rfl
  | succ n ih =>
    rw [swapLoop, swapLoop, ← ih]
    rfl

/-- It takes the window of the other memory. -/
theorem slots_swapLoop (n : ℕ) (hti : ti.lfirst ≤ ti.llast) (hoi : oi.lfirst ≤ oi.llast)
    (buffer other : Backing T) (p : ℤ) : (swapLoop n ti oi buffer other).2.1.slots p =
      if Window ti.iter n p then other.slots (oi.iter + (p - ti.iter)) else buffer.slots p := by
  induction n generalizing ti oi buffer other with
  | zero => rw [if_neg window_zero, swapLoop]
  | succ n ih =>
    rw [swapLoop, IteratorImpl.addAssign_of_le hti, IteratorImpl.addAssign_of_le hoi,
      ih (by exact hti) (by exact hoi)]
    exact slots_step fun q hq => Function.update_of_ne hq _ _

/-- The swap touches, beyond what was touched before, the window it walks. -/
theorem mem_touched_swapLoop (n : ℕ) (hti : ti.lfirst ≤ ti.llast) (hoi : oi.lfirst ≤ oi.llast)
    (buffer other : Backing T) (p : ℤ) :
    p ∈ (swapLoop n ti oi buffer other).2.1.touched ↔ p ∈ buffer.touched ∨ Window ti.iter n p := by
  induction n generalizing ti oi buffer other with
  | zero => simp [swapLoop, window_zero]
  | succ n ih =>
    rw [swapLoop, IteratorImpl.addAssign_of_le hti, IteratorImpl.addAssign_of_le hoi,
      ih (by exact hti) (by exact hoi)]
    exact touched_step

/-- The elements without a counterpart are moved. -/
theorem slots_moveLoop (n : ℕ) (hti : ti.lfirst ≤ ti.llast) (hoi : oi.lfirst ≤ oi.llast)
    (buffer other : Backing T) (p : ℤ) : (moveLoop n ti oi buffer other).1.slots p =
      if Window ti.iter n p then other.slots (oi.iter + (p - ti.iter)) else buffer.slots p := by
  induction n generalizing ti oi buffer other with
  | zero => rw [if_neg window_zero, moveLoop]
  | succ n ih =>
    rw [moveLoop, IteratorImpl.addAssign_of_le hti, IteratorImpl.addAssign_of_le hoi,
      ih (by exact hti) (by exact hoi)]
    exact slots_step fun q hq => Function.update_of_ne hq _ _

/-- What lies in front of them keeps its place. -/
theorem slots_moveLoop_other (n : ℕ) (hti : ti.lfirst ≤ ti.llast) (hoi : oi.lfirst ≤ oi.llast)
    (buffer other : Backing T) {p : ℤ} (hp : p < oi.iter) :
    (moveLoop n ti oi buffer other).2.slots p = other.slots p := by
  induction n generalizing ti oi buffer other with
  | zero => rfl
  | succ n ih =>
    rw [moveLoop, IteratorImpl.addAssign_of_le hti, IteratorImpl.addAssign_of_le hoi,
      ih (by exact hti) (by exact hoi) _ _ (by exact hp.trans (lt_add_one _)),
      Backing.slots_destruct_of_ne _ (by exact hp.ne)]
    rfl

/-- The move touches the window of each of the two arrays. -/
theorem mem_touched_moveLoop (n : ℕ) (hti : ti.lfirst ≤ ti.llast) (hoi : oi.lfirst ≤ oi.llast)
    (buffer other : Backing T) (p : ℤ) :
    (p ∈ (moveLoop n ti oi buffer other).1.touched ↔ p ∈ buffer.touched ∨ Window ti.iter n p) ∧
      (p ∈ (moveLoop n ti oi buffer other).2.touched ↔ p ∈ other.touched ∨ Window oi.iter n p) := by
  induction n generalizing ti oi buffer other with
  | zero => simp [moveLoop, window_zero]
  | succ n ih =>
    rw [moveLoop, IteratorImpl.addAssign_of_le hti, IteratorImpl.addAssign_of_le hoi,
      (ih (by exact hti) (by exact hoi) _ _).1, (ih (by exact hti) (by exact hoi) _ _).2]
    refine ⟨touched_step, ?_⟩
    -- the object that is moved is referred to and destroyed
    have htwice : p ∈ oi.iter :: oi.iter :: other.touched ↔ p ∈ oi.iter :: other.touched := by simp
    exact (or_congr_left htwice).trans touched_step

/-- Both loops of `swap`, from the side of the buffer with fewer elements: the first one exchanges what
has a counterpart, the second one goes on where the first one stops. -/
theorem exchange {tb ob : ℕ} (hle : tb ≤ ob) (hti : ti.lfirst ≤ ti.llast) (hoi : oi.lfirst ≤ oi.llast)
    (buffer other : Backing T) {s : (IteratorImpl × IteratorImpl) × Backing T × Backing T}
    (hs : s = swapLoop tb ti oi buffer other) {memory : Backing T × Backing T}
    (hmemory : memory = moveLoop (ob - tb) s.1.1 s.1.2 s.2.1 s.2.2) :
    ((∀ i < ob, memory.1.slots (ti.iter + (i : ℕ)) = other.slots (oi.iter + i)) ∧
      ∀ i < tb, memory.2.slots (oi.iter + (i : ℕ)) = buffer.slots (ti.iter + i)) ∧
    (∀ p, p ∈ memory.1.touched ↔ p ∈ buffer.touched ∨ Window ti.iter ob p) ∧
      ∀ p, p ∈ memory.2.touched ↔ p ∈ other.touched ∨ Window oi.iter ob p := by
  have hiters := iterators_swapLoop tb hti hoi buffer other
  have hother : (swapLoop tb ti oi buffer other).2.2 = (swapLoop tb oi ti other buffer).2.1 := by
    rw [swapLoop_comm]
    rfl
  rw [← hs] at hiters hother
  have hjoin (start : ℤ) (p : ℤ) :
      Window start tb p ∨ Window (start + tb) (ob - tb) p ↔ Window start ob p := by
    unfold Window
    omega
  subst hmemory
  rw [hiters]
  refine ⟨⟨fun i hi => ?_, fun i hi => ?_⟩, fun p => ?_, fun p => ?_⟩
  · rw [slots_moveLoop _ (by exact hti) (by exact hoi)]
    simp only
    split_ifs with hmoved
    · -- behind the exchanged elements the other memory is as it was
      have hout : ¬ Window oi.iter tb (oi.iter + tb + (ti.iter + i - (ti.iter + tb))) := by
        unfold Window at hmoved ⊢
        omega
      rw [hother, slots_swapLoop _ hoi hti, if_neg hout]
      congr 1
      omega
    · have hin : Window ti.iter tb (ti.iter + i) := by
        unfold Window at hmoved ⊢
        omega
      rw [hs, slots_swapLoop _ hti hoi, if_pos hin, add_sub_cancel_left]
  · rw [slots_moveLoop_other _ (by exact hti) (by exact hoi) _ _ (by simp only; omega), hother,
      slots_swapLoop _ hoi hti, if_pos (window_add hi), add_sub_cancel_left]
  · rw [(mem_touched_moveLoop _ (by exact hti) (by exact hoi) _ _ p).1, hs,
      mem_touched_swapLoop _ hti hoi, or_assoc, hjoin]
  · rw [(mem_touched_moveLoop _ (by exact hti) (by exact hoi) _ _ p).2, hother,
      mem_touched_swapLoop _ hoi hti, or_assoc, hjoin]

end Loops

end RingBuffer

section Copies

variable {T : Type*} {N : ℕ} {a b : RingBuffer T} {p q : PolicyQueue T N}

/-! ### The operations -/

/-- The region that `begin()` walks is not wrapped. -/
theorem Holds.begin_contiguous (h : Holds N b q) : (b.begin N).lfirst ≤ (b.begin N).llast :=
  h.head_le_lastLogical

/-- The privileged region, the whole array, is not wrapped. -/
theorem privileged_contiguous (hN : 0 < N) (iter : ℤ) :
    ({ RingBuffer.privileged N with iter } : IteratorImpl).lfirst ≤
      ({ RingBuffer.privileged N with iter } : IteratorImpl).llast := by
  simp only [RingBuffer.privileged, RingBuffer.first, RingBuffer.last]
  omega

/-- The new buffer holds the elements in its first slots. -/
theorem Holds.copyConstruct (h : Holds N a p) (hN : 0 < N) :
    Holds N (a.copyConstruct N).1 p ∧ Holds N (a.copyConstruct N).2 p := by
  have hti := privileged_contiguous hN RingBuffer.first
  refine ⟨⟨rfl, addAssign_privileged hN RingBuffer.first _, le_refl _, h.buffered_eq, h.policy_eq,
    fun i hi => ?_⟩, h.head_eq, h.tail_eq, h.head_nonneg, h.buffered_eq, h.policy_eq, fun i hi => ?_⟩
  · have hcopied := RingBuffer.slots_copyLoop_add a.buffered hti h.begin_contiguous
      (.empty : Backing T) a.buffer hi
    exact hcopied.trans (h.slots_eq i hi)
  · rw [← h.slots_eq i hi, RingBuffer.copyConstruct]
    exact congrFun (RingBuffer.slots_copyLoop_other _ _ _) _

/-- The addresses that the copy constructor touches, in the new array and in the one it copies. -/
theorem Holds.mem_touched_copyConstruct (h : Holds N a p) (hN : 0 < N) (x : ℤ) :
    (x ∈ (a.copyConstruct N).1.buffer.touched ↔ Window RingBuffer.first a.buffered x) ∧
      (x ∈ (a.copyConstruct N).2.buffer.touched ↔
        x ∈ a.buffer.touched ∨ Window a.head.iter a.buffered x) := by
  have hti := privileged_contiguous hN RingBuffer.first
  have hloop := RingBuffer.mem_touched_copyLoop a.buffered hti h.begin_contiguous
    (.empty : Backing T) a.buffer x
  exact ⟨hloop.1.trans (or_iff_right (List.not_mem_nil)), hloop.2⟩

/-- The tail that `clear()` leaves walks a region that is not wrapped. -/
theorem Holds.clear_tail_contiguous (h : Holds N a p) (hN : 0 < N) :
    (a.clear N).tail.lfirst ≤ (a.clear N).tail.llast := by
  have hhead := privileged_contiguous hN a.head.iter
  rw [← h.head_eq] at hhead
  exact hhead

/-- `operator=` in terms of the loop of the copy constructor. -/
theorem Holds.assign_eq (h : Holds N a p) (hN : 0 < N) (b : RingBuffer T) : a.assign N b =
    ({ a.clear N with
        buffer := (RingBuffer.copyLoop b.buffered a.head (b.begin N) (a.clear N).buffer b.buffer).1
        buffered := b.buffered
        owpolicy := b.owpolicy
        tail := a.head.addAssign b.buffered },
      { b with buffer :=
        (RingBuffer.copyLoop b.buffered a.head (b.begin N) (a.clear N).buffer b.buffer).2 }) := by
  have hloop := RingBuffer.assignLoop_eq (b.begin N) b.buffered
    { a.clear N with owpolicy := b.owpolicy } (h.clear_tail_contiguous hN) b.buffer
  have hcount : (a.clear N).buffered + b.buffered = b.buffered := Nat.zero_add _
  rw [RingBuffer.assign, hloop]
  simp only [hcount]
  rfl

/-- `operator=` constructs the elements from `_head` on. -/
theorem Holds.assign (h : Holds N a p) (h' : Holds N b q) (hN : 0 < N) :
    Holds N (a.assign N b).1 q ∧ Holds N (a.assign N b).2 q := by
  rw [h.assign_eq hN]
  refine ⟨⟨h.head_eq, h.head_addAssign hN _, h.head_nonneg, h'.buffered_eq, h'.policy_eq,
    fun i hi => ?_⟩, h'.head_eq, h'.tail_eq, h'.head_nonneg, h'.buffered_eq, h'.policy_eq,
    fun i hi => ?_⟩
  · have hcopied := RingBuffer.slots_copyLoop_add b.buffered (h.clear_tail_contiguous hN)
      h'.begin_contiguous (a.clear N).buffer b.buffer hi
    exact hcopied.trans (h'.slots_eq i hi)
  · rw [← h'.slots_eq i hi]
    exact congrFun (RingBuffer.slots_copyLoop_other _ _ _) _

/-- The addresses that the assignment touches, in the array assigned to and in the one it copies. -/
theorem Holds.mem_touched_assign (h : Holds N a p) (h' : Holds N b q) (hN : 0 < N) (x : ℤ) :
    (x ∈ (a.assign N b).1.buffer.touched ↔ x ∈ a.buffer.touched ∨
        Window a.head.iter (max a.buffered b.buffered) x) ∧
      (x ∈ (a.assign N b).2.buffer.touched ↔
        x ∈ b.buffer.touched ∨ Window b.head.iter b.buffered x) := by
  have hloop := RingBuffer.mem_touched_copyLoop b.buffered (h.clear_tail_contiguous hN)
    h'.begin_contiguous (a.clear N).buffer b.buffer x
  rw [h.assign_eq hN]
  have hjoin : Window a.head.iter a.buffered x ∨ Window a.head.iter b.buffered x ↔
      Window a.head.iter (max a.buffered b.buffered) x := by
    unfold Window
    omega
  refine ⟨?_, hloop.2⟩
  rw [← hjoin, ← or_assoc]
  exact hloop.1.trans (or_congr_left (h.mem_touched_clear x))

/-- An assignment of the buffer to itself is a call of `clear`. -/
theorem selfAssign_eq_clear (N : ℕ) (a : RingBuffer T) : a.selfAssign N = a.clear N := rfl

/-- The distance of `_tail` from `_head` is the number of elements. -/
theorem Holds.tail_diff_head (h : Holds N a p) : a.tail.diff N a.head = a.buffered := by
  have hnonneg := h.head_nonneg
  have hdiff : a.tail.iter - a.head.iter = a.buffered := by
    rw [h.tail_iter, add_sub_cancel_left]
  have hfirst : a.tail.lfirst = 0 := by
    rw [h.tail_eq]
    rfl
  have htail := h.tail_iter
  rw [IteratorImpl.diff, hfirst, if_pos (c := _ ∧ _) (by omega), ite_self, hdiff]

/-- The elements change places, whichever buffer has more of them. -/
theorem Holds.slots_swapElements (h : Holds N a p) (h' : Holds N b q) :
    (∀ i < b.buffered, (RingBuffer.swapElements N a b).1.slots (a.head.iter + (i : ℕ)) =
        q.queue.content[i]?) ∧
      ∀ i < a.buffered, (RingBuffer.swapElements N a b).2.slots (b.head.iter + (i : ℕ)) =
        p.queue.content[i]? := by
  rw [RingBuffer.swapElements]
  split_ifs with hle
  · obtain ⟨⟨hmoved, hswapped⟩, -⟩ := RingBuffer.exchange hle h.begin_contiguous h'.begin_contiguous
      a.buffer b.buffer rfl rfl
    exact ⟨fun i hi => (hmoved i hi).trans (h'.slots_eq i hi),
      fun i hi => (hswapped i hi).trans (h.slots_eq i hi)⟩
  · obtain ⟨⟨hmoved, hswapped⟩, -⟩ := RingBuffer.exchange (not_le.mp hle).le h'.begin_contiguous
      h.begin_contiguous b.buffer a.buffer rfl rfl
    exact ⟨fun i hi => (hswapped i hi).trans (h'.slots_eq i hi),
      fun i hi => (hmoved i hi).trans (h.slots_eq i hi)⟩

/-- Both buffers are walked through for as long as one of them has elements. -/
theorem Holds.mem_touched_swapElements (h : Holds N a p) (h' : Holds N b q) (x : ℤ) :
    (x ∈ (RingBuffer.swapElements N a b).1.touched ↔ x ∈ a.buffer.touched ∨
        Window a.head.iter (max a.buffered b.buffered) x) ∧
      (x ∈ (RingBuffer.swapElements N a b).2.touched ↔ x ∈ b.buffer.touched ∨
        Window b.head.iter (max a.buffered b.buffered) x) := by
  rw [RingBuffer.swapElements]
  split_ifs with hle
  · obtain ⟨-, hthis, hother⟩ := RingBuffer.exchange hle h.begin_contiguous h'.begin_contiguous
      a.buffer b.buffer rfl rfl
    rw [max_eq_right hle]
    exact ⟨hthis x, hother x⟩
  · obtain ⟨-, hother, hthis⟩ := RingBuffer.exchange (not_le.mp hle).le h'.begin_contiguous
      h.begin_contiguous b.buffer a.buffer rfl rfl
    rw [max_eq_left (not_le.mp hle).le]
    exact ⟨hthis x, hother x⟩

/-- `_tail` moves to the end of the other buffer's elements. -/
theorem Holds.tail_swapped (h : Holds N a p) (h' : Holds N b q) (hN : 0 < N) :
    a.tail.addAssign (b.tail.diff N b.head - a.tail.diff N a.head) =
      { RingBuffer.privileged N with iter := a.head.iter + b.buffered } := by
  have hplace : a.head.iter + (a.buffered : ℤ) + (b.buffered - a.buffered) =
      a.head.iter + b.buffered := by omega
  rw [h.tail_diff_head, h'.tail_diff_head, h.tail_addAssign hN, hplace]

/-- `swap` exchanges the elements and leaves each `_head` where it is. -/
theorem Holds.swap (h : Holds N a p) (h' : Holds N b q) (hN : 0 < N) :
    Holds N (a.swap N b).1 q ∧ Holds N (a.swap N b).2 p :=
  ⟨⟨h.head_eq, h.tail_swapped h' hN, h.head_nonneg, h'.buffered_eq, h'.policy_eq,
    (h.slots_swapElements h').1⟩,
  ⟨h'.head_eq, h'.tail_swapped h hN, h'.head_nonneg, h.buffered_eq, h.policy_eq,
    (h.slots_swapElements h').2⟩⟩

/-- The exchange of the elements with themselves refers to them. -/
theorem mem_touched_selfSwapLoop (n : ℕ) {ti : IteratorImpl} (hti : ti.lfirst ≤ ti.llast)
    (buffer : Backing T) (x : ℤ) : x ∈ (RingBuffer.selfSwapLoop n ti buffer).touched ↔
      x ∈ buffer.touched ∨ Window ti.iter n x := by
  induction n generalizing ti buffer with
  | zero => simp [RingBuffer.selfSwapLoop, window_zero]
  | succ n ih =>
    rw [RingBuffer.selfSwapLoop, IteratorImpl.addAssign_of_le hti, ih (by exact hti)]
    exact RingBuffer.touched_step

/-- Swapping a buffer with itself leaves its elements where they are. -/
theorem slots_selfSwapLoop (n : ℕ) (ti : IteratorImpl) (buffer : Backing T) :
    (RingBuffer.selfSwapLoop n ti buffer).slots = buffer.slots := by
  induction n generalizing ti buffer with
  | zero => rfl
  | succ n ih =>
    rw [RingBuffer.selfSwapLoop, ih]
    rfl

/-- An exchange with itself leaves the buffer as it was. -/
theorem Holds.selfSwap (h : Holds N a p) (hN : 0 < N) : Holds N (a.selfSwap N) p := by
  refine ⟨h.head_eq, ?_, h.head_nonneg, h.buffered_eq, h.policy_eq, fun i hi => ?_⟩
  · have hback : a.head.iter + (a.buffered : ℤ) + 0 + 0 = a.head.iter + a.buffered := by omega
    rw [RingBuffer.selfSwap]
    simp only [sub_self]
    rw [h.tail_addAssign hN, addAssign_privileged hN, hback]
  · rw [← h.slots_eq i hi, RingBuffer.selfSwap]
    exact congrFun (slots_selfSwapLoop _ _ _) _

end Copies

/-! ### When they do what they are for -/

namespace RingBuffer

variable {T : Type*}

/-- The buffer, with the record of the slots it refers to begun anew. -/
def recorded (b : RingBuffer T) : RingBuffer T := { b with buffer := { b.buffer with touched := [] } }

/-- The slots on record lie in the array. -/
def InArray (N : ℕ) (b : RingBuffer T) : Prop := ∀ p ∈ b.buffer.touched, 0 ≤ p ∧ p < N

/-- From `_head` on the array has `n` slots. -/
def Room (N : ℕ) (b : RingBuffer T) (n : ℕ) : Prop := n = 0 ∨ b.head.iter + n ≤ N

/-- Whether the window of a call fits the array is a comparison. -/
instance (N : ℕ) (b : RingBuffer T) (n : ℕ) : Decidable (b.Room N n) := inferInstanceAs (Decidable (_ ∨ _))

end RingBuffer

/-- The operations on whole buffers. The argument of the last ones is the buffer itself. -/
inductive WholeOp where
  | copy
  | assign
  | swap
  | selfAssign
  | selfSwap
  deriving DecidableEq, Repr

namespace WholeOp

variable {T : Type*} {N : ℕ}

/-- The buffers that an operation of `a` leaves behind: the copy of `a` and `a`, or `a` and its argument
`b`, or `a`. -/
def buffers (N : ℕ) (a b : RingBuffer T) : WholeOp → List (RingBuffer T)
  | copy => [(a.copyConstruct N).1, (a.copyConstruct N).2]
  | assign => [(a.assign N b).1, (a.assign N b).2]
  | swap => [(a.swap N b).1, (a.swap N b).2]
  | selfAssign => [a.selfAssign N]
  | selfSwap => [a.selfSwap N]

/-- The queues that these should be. -/
def queues (p q : PolicyQueue T N) : WholeOp → List (PolicyQueue T N)
  | copy => [p, p]
  | assign => [q, q]
  | swap => [q, p]
  | selfAssign => [p]
  | selfSwap => [p]

/-- Every buffer is the queue it should be, and the operation has stayed in the arrays. -/
def Meets (r s : RingRun T N) (op : WholeOp) : Prop :=
  List.Forall₂ (fun b q => Holds N b q ∧ b.InArray N) (op.buffers N r.ring.recorded s.ring.recorded)
    (op.queues r.fifo s.fifo)

/-- There is room behind `_head` for what the operation moves there, and a buffer that is assigned to
itself is empty. -/
def Fits (N : ℕ) (a b : RingBuffer T) : WholeOp → Prop
  | copy => a.Room N a.size
  | assign => a.Room N (max a.size b.size) ∧ b.Room N b.size
  | swap => a.Room N (max a.size b.size) ∧ b.Room N (max a.size b.size)
  | selfAssign => a.size = 0
  | selfSwap => a.Room N a.size

end WholeOp

section Whole

variable {T : Type*} {N : ℕ} {a b : RingBuffer T} {p q : PolicyQueue T N}

/-- Forgetting which addresses were touched changes no element. -/
theorem Holds.recorded (h : Holds N b q) : Holds N b.recorded q :=
  ⟨h.head_eq, h.tail_eq, h.head_nonneg, h.buffered_eq, h.policy_eq, h.slots_eq⟩

/-- What an operation refers to is on record alone. -/
theorem mem_recorded {x : ℤ} {P : Prop} : x ∈ b.recorded.buffer.touched ∨ P ↔ P :=
  or_iff_right List.not_mem_nil

/-- A call that touched one window stayed in the array exactly when the window ends within it. -/
theorem inArray_iff_room {start : ℤ} {n : ℕ} (hstart : 0 ≤ start)
    (h : ∀ x, x ∈ b.buffer.touched ↔ Window start n x) : b.InArray N ↔ n = 0 ∨ start + n ≤ N := by
  rw [← window_inArray_iff hstart, RingBuffer.InArray]
  simp only [h]

/-- A copy construction stays in the arrays where the elements are in theirs. -/
theorem Holds.copyConstruct_inArray (h : Holds N a.recorded p) (hN : 0 < N) :
    (a.recorded.copyConstruct N).1.InArray N ∧
      ((a.recorded.copyConstruct N).2.InArray N ↔ a.Room N a.size) := by
  have htouched := h.mem_touched_copyConstruct hN
  constructor
  · refine (inArray_iff_room (le_refl _) fun x => (htouched x).1).mpr (.inr ?_)
    exact (zero_add _).trans_le (Int.ofNat_le.mpr h.buffered_le)
  · exact inArray_iff_room h.head_nonneg fun x => (htouched x).2.trans mem_recorded

/-- An assignment needs room for the elements of both buffers. -/
theorem Holds.assign_inArray (h : Holds N a.recorded p) (h' : Holds N b.recorded q) (hN : 0 < N) :
    ((a.recorded.assign N b.recorded).1.InArray N ↔ a.Room N (max a.size b.size)) ∧
      ((a.recorded.assign N b.recorded).2.InArray N ↔ b.Room N b.size) := by
  have htouched := h.mem_touched_assign h' hN
  exact ⟨inArray_iff_room h.head_nonneg fun x => (htouched x).1.trans mem_recorded,
    inArray_iff_room h'.head_nonneg fun x => (htouched x).2.trans mem_recorded⟩

/-- An exchange needs it in both buffers. -/
theorem Holds.swap_inArray (h : Holds N a.recorded p) (h' : Holds N b.recorded q) :
    ((a.recorded.swap N b.recorded).1.InArray N ↔ a.Room N (max a.size b.size)) ∧
      ((a.recorded.swap N b.recorded).2.InArray N ↔ b.Room N (max a.size b.size)) := by
  have htouched := h.mem_touched_swapElements h'
  exact ⟨inArray_iff_room h.head_nonneg fun x => (htouched x).1.trans mem_recorded,
    inArray_iff_room h'.head_nonneg fun x => (htouched x).2.trans mem_recorded⟩

/-- Swapping a buffer with itself stays in the array exactly when its elements lie unwrapped. -/
theorem Holds.selfSwap_inArray (h : Holds N a.recorded p) :
    (a.recorded.selfSwap N).InArray N ↔ a.Room N a.size :=
  inArray_iff_room h.head_nonneg fun x =>
    (mem_touched_selfSwapLoop _ h.begin_contiguous _ x).trans mem_recorded

/-- A buffer that is assigned to itself loses its elements. -/
theorem Holds.selfAssign_iff (h : Holds N a.recorded p) :
    (Holds N (a.recorded.selfAssign N) p ∧ (a.recorded.selfAssign N).InArray N) ↔ a.size = 0 := by
  rw [selfAssign_eq_clear]
  constructor
  · rintro ⟨hkept, -⟩
    have hcleared : 0 = p.queue.content.length := hkept.buffered_eq
    exact h.buffered_eq.trans hcleared.symm
  · intro hempty
    have hnil : p.queue = .empty := by
      ext1
      exact List.length_eq_zero_iff.mp (h.buffered_eq.symm.trans hempty)
    have hcleared := h.clear
    rw [← hnil] at hcleared
    refine ⟨hcleared, ?_⟩
    have htouched (x : ℤ) := (h.mem_touched_clear x).trans mem_recorded
    exact (inArray_iff_room h.head_nonneg htouched).mpr (.inl hempty)

/-- Whatever was called before, a buffer holds its queue, in the array or behind it. -/
theorem RingRun.holds {ops : List (RingOp T)} {r : RingRun T N} (hN : 0 < N)
    (hrun : run RingRun.step RingRun.start ops = some r) : Holds N r.ring r.fifo := by
  refine run_invariant (I := fun r : RingRun T N => Holds N r.ring r.fifo) ?_ represents_new.toHolds hrun
  rintro r op r' h ⟨⟩
  cases op with
  | push v | pushBack v | emplace v | emplaceBack v => exact h.insert hN _ v
  | pop => exact h.pop
  | clear => exact h.clear
  | setOverwritePolicy pol => exact h.setOverwritePolicy pol

end Whole

/-- **When copies, assignments and exchanges preserve the contents.** Whatever was called on two new
buffers, a copy construction, an assignment or a `swap` leaves the buffers with the elements and the policies
they should have and refers to slots of their arrays, if and only if the array has enough slots from `_head` on
for the elements of both buffers; and an assignment of a buffer to itself if and only if it is empty. -/
theorem ringBuffer_whole_iff {T : Type*} {N : ℕ} (hN : 0 < N) (opsA opsB : List (RingOp T))
    {r s : RingRun T N} (hr : run RingRun.step RingRun.start opsA = some r)
    (hs : run RingRun.step RingRun.start opsB = some s) (op : WholeOp) :
    op.Meets r s ↔ op.Fits N r.ring s.ring := by
  have h := (RingRun.holds hN hr).recorded
  have h' := (RingRun.holds hN hs).recorded
  cases op
  all_goals
    simp only [WholeOp.Meets, WholeOp.buffers, WholeOp.queues, WholeOp.Fits, List.forall₂_cons,
      List.Forall₂.nil, and_true]
  case copy =>
    have hcopied := h.copyConstruct hN
    have hin := h.copyConstruct_inArray hN
    simp only [hcopied, hin, true_and]
  case assign =>
    have hassigned := h.assign h' hN
    have hin := h.assign_inArray h' hN
    simp only [hassigned, hin, true_and]
  case swap =>
    have hswapped := h.swap h' hN
    have hin := h.swap_inArray h'
    simp only [hswapped, hin, true_and]
  case selfAssign => exact h.selfAssign_iff
  case selfSwap =>
    have hkept := h.selfSwap hN
    have hin := h.selfSwap_inArray
    simp only [hkept, hin, true_and]

/-- Behind a popped element there is room for one element of the other buffer. -/
theorem ringBuffer_whole_iff_popped :
    ∃ r s : RingRun ℕ 2, run RingRun.step RingRun.start [.push 1, .pop, .push 2] = some r ∧
      run RingRun.step RingRun.start [.push 3] = some s ∧ WholeOp.swap.Meets r s :=
  ⟨_, _, rfl, rfl, (ringBuffer_whole_iff (by decide) [.push 1, .pop, .push 2] [.push 3] rfl rfl
    .swap).mpr ⟨by decide, by decide⟩⟩

/-- A buffer with one element that is assigned to itself loses it, and the second element of another buffer
is put behind the array of a buffer that has popped one. -/
theorem ringBuffer_loses_elements :
    (∃ r : RingRun ℕ 2, run RingRun.step RingRun.start [.push 1] = some r ∧
        ¬ WholeOp.selfAssign.Meets r r) ∧
      ∃ r s : RingRun ℕ 2, run RingRun.step RingRun.start [.push 1, .pop] = some r ∧
        run RingRun.step RingRun.start [.push 2, .push 3] = some s ∧ ¬ WholeOp.assign.Meets r s := by
  refine ⟨⟨_, rfl, ?_⟩, _, _, rfl, rfl, ?_⟩
  · rintro (_ | ⟨⟨hkept, -⟩, -⟩)
    exact absurd hkept.buffered_eq (by decide)
  · rintro (_ | ⟨⟨-, hin⟩, -⟩)
    exact absurd (hin 2 (by decide)).2 (by decide)

end MyUvpp
