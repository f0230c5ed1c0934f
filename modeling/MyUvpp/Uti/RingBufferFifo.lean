import MyUvpp.Foundation.BoundedQueue
import MyUvpp.Foundation.TransitionSystem
import MyUvpp.Uti.RingBuffer

/-! # The ring buffer as a bounded queue

What `ringbuffer<T, N>` is for: a queue of at most `N` elements that refuses or evicts when it is full.
The logical region of `_tail` and `_head` is the whole array, which is contiguous, so that `operator+=`
never takes them back to the first slot. The buffer is the queue for as long as `_tail` has not left the
array: from then on an insertion constructs its element behind the last slot. -/

namespace MyUvpp

/-- A bounded queue and what it does when it is full. -/
structure PolicyQueue (T : Type*) (N : ℕ) where
  queue : BoundedQueue T N
  policy : OverwritePolicy

namespace PolicyQueue

variable {T : Type*} {N : ℕ}

/-- The empty queue, which refuses when it is full. -/
def empty : PolicyQueue T N := ⟨.empty, .no_overwrite⟩

/-- Append an element, and whether it is refused. -/
def insert (q : PolicyQueue T N) (v : T) : PolicyQueue T N × Bool :=
  if q.queue.content.length = N ∧ q.policy = .no_overwrite then (q, true)
  else ({ q with queue := q.queue.pushEvict v }, false)

/-- What each call is for. -/
def call (q : PolicyQueue T N) : RingOp T → PolicyQueue T N × Bool
  | .push v | .pushBack v | .emplace v | .emplaceBack v => q.insert v
  | .pop => ({ q with queue := q.queue.read 1 }, false)
  | .clear => ({ q with queue := .empty }, false)
  | .setOverwritePolicy pol => ({ q with policy := pol }, false)

end PolicyQueue

/-- A ring buffer and the queue that it should be: the buffer before and after the last call, what that
call threw, and whether the queue refused it. -/
structure RingRun (T : Type*) (N : ℕ) where
  before : RingBuffer T
  ring : RingBuffer T
  threw : Option String
  fifo : PolicyQueue T N
  refused : Bool

namespace RingRun

variable {T : Type*} {N : ℕ}

/-- A freshly constructed buffer. -/
def start : RingRun T N := ⟨.new N, .new N, none, .empty, false⟩

/-- One call. -/
def step (r : RingRun T N) (op : RingOp T) : Option (RingRun T N) :=
  some ⟨r.ring, (r.ring.call N op).1, (r.ring.call N op).2, (r.fifo.call op).1, (r.fifo.call op).2⟩

/-- The buffer has stayed inside its array and is the queue. -/
structure Meets (r : RingRun T N) : Prop where
  inArray : ∀ p ∈ r.ring.buffer.touched, 0 ≤ p ∧ p < N
  size_eq : r.ring.size = r.fifo.queue.content.length
  policy_eq : r.ring.owpolicy = r.fifo.policy
  throws : r.threw.isSome = r.refused
  unchanged : r.threw.isSome = true → r.ring = r.before
  front_inArray : r.fifo.queue.content ≠ [] → 0 ≤ r.ring.frontSlot ∧ r.ring.frontSlot < N
  front_eq : r.fifo.queue.content ≠ [] → r.ring.front = r.fifo.queue.content.head?
  back_inArray : r.fifo.queue.content ≠ [] → 0 ≤ r.ring.backSlot ∧ r.ring.backSlot < N
  back_eq : r.fifo.queue.content ≠ [] → r.ring.back = r.fifo.queue.content.getLast?

/-- The call inserts nothing, or it is refused, or it finds `_tail` inside the array. -/
def Fits (r : RingRun T N) : RingOp T → Prop
  | .push _ | .pushBack _ | .emplace _ | .emplaceBack _ =>
    r.ring.tail.addressof < N ∨ r.ring.buffered = N ∧ r.ring.owpolicy = .no_overwrite
  | .pop | .clear | .setOverwritePolicy _ => True

end RingRun

/-- The buffer holds the queue in the slots from `_head` to `_tail`, wherever they lie. -/
structure Holds {T : Type*} (N : ℕ) (b : RingBuffer T) (q : PolicyQueue T N) : Prop where
  head_eq : b.head = { RingBuffer.privileged N with iter := b.head.iter }
  tail_eq : b.tail = { RingBuffer.privileged N with iter := b.head.iter + b.buffered }
  head_nonneg : 0 ≤ b.head.iter
  buffered_eq : b.buffered = q.queue.content.length
  policy_eq : b.owpolicy = q.policy
  slots_eq : ∀ i < b.buffered, b.buffer.slots (b.head.iter + i) = q.queue.content[i]?

/-- The buffer holds the queue in the slots from `_head` to `_tail`, all of them in the array. -/
structure Represents {T : Type*} (N : ℕ) (b : RingBuffer T) (q : PolicyQueue T N) : Prop
    extends Holds N b q where
  tail_le : b.head.iter + b.buffered ≤ N
  inArray : ∀ p ∈ b.buffer.touched, 0 ≤ p ∧ p < N

section Privileged

variable {T : Type*} {N : ℕ} {b : RingBuffer T} {q : PolicyQueue T N}

/-- The tail stands the number of elements behind the head, counted without wrapping. -/
theorem Holds.tail_iter (h : Holds N b q) : b.tail.iter = b.head.iter + b.buffered := by
  rw [h.tail_eq]

/-- In an array with a slot the privileged iterators move as pointers do. -/
theorem addAssign_privileged (hN : 0 < N) (p n : ℤ) :
    ({ RingBuffer.privileged N with iter := p } : IteratorImpl).addAssign n =
      { RingBuffer.privileged N with iter := p + n } := by
  apply IteratorImpl.addAssign_of_le
  simp only [RingBuffer.privileged, RingBuffer.first, RingBuffer.last]
  omega

/-- Where the tail goes when it steps on. -/
theorem Holds.tail_addAssign (h : Holds N b q) (hN : 0 < N) (n : ℤ) :
    b.tail.addAssign n = { RingBuffer.privileged N with iter := b.head.iter + b.buffered + n } := by
  rw [h.tail_eq, addAssign_privileged hN]

/-- Where the head goes when it steps on. -/
theorem Holds.head_addAssign (h : Holds N b q) (hN : 0 < N) (n : ℤ) :
    b.head.addAssign n = { RingBuffer.privileged N with iter := b.head.iter + n } := by
  rw [h.head_eq, addAssign_privileged hN]

/-- A buffer has at most its capacity in elements. -/
theorem Holds.buffered_le (h : Holds N b q) : b.buffered ≤ N := by
  rw [h.buffered_eq]
  exact q.queue.length_le

/-- A new buffer is the empty queue. -/
theorem represents_new : Represents N (.new N : RingBuffer T) .empty where
  head_eq := rfl
  tail_eq := rfl
  head_nonneg := le_refl _
  tail_le := by simp [RingBuffer.new, RingBuffer.privileged, RingBuffer.first]
  buffered_eq := rfl
  policy_eq := rfl
  slots_eq := by simp [RingBuffer.new]
  inArray := by simp [RingBuffer.new, Backing.empty]

end Privileged

section Insert

variable {T : Type*} {N : ℕ} {b : RingBuffer T} {q : PolicyQueue T N}

/-- An insertion with room left appends to the queue. -/
theorem Holds.insert_of_lt (h : Holds N b q) (what : String) (v : T) (hlt : b.buffered < N) :
    Holds N (b.insert N what v).1 (q.insert v).1 := by
  have hlen : q.queue.content.length < N := h.buffered_eq ▸ hlt
  have hN : 0 < N := by omega
  have hq : q.insert v = ({ q with queue := q.queue.pushEvict v }, false) := by
    simp [PolicyQueue.insert, hlen.ne]
  have hcontent := BoundedQueue.content_pushEvict_of_lt v hlen
  simp only [RingBuffer.insert, hlt, if_true, hq]
  refine ⟨h.head_eq, ?_, h.head_nonneg, ?_, h.policy_eq, fun i hi => ?_⟩
  · rw [h.tail_addAssign hN, Nat.cast_succ, add_assoc]
  · rw [hcontent, List.length_append, h.buffered_eq, List.length_singleton]
  · rw [hcontent, IteratorImpl.addressof, h.tail_iter]
    -- the new element is the last one, the others have kept their slots
    rcases Nat.lt_succ_iff_lt_or_eq.mp hi with hold | hnew
    · have hne : b.head.iter + i ≠ b.head.iter + b.buffered := by omega
      rw [Backing.slots_construct_of_ne _ _ hne, h.slots_eq i hold,
        List.getElem?_append_left (h.buffered_eq ▸ hold)]
    · rw [hnew, Backing.slots_construct_self, h.buffered_eq, List.getElem?_concat_length]

/-- An insertion that evicts takes the slot behind the newest element. -/
theorem Holds.insert_of_overwrite (h : Holds N b q) (hN : 0 < N) (what : String) (v : T)
    (hfull : b.buffered = N) (hpol : b.owpolicy = .overwrite) :
    Holds N (b.insert N what v).1 (q.insert v).1 := by
  have hlen : q.queue.content.length = N := h.buffered_eq ▸ hfull
  have hq : q.insert v = ({ q with queue := q.queue.pushEvict v }, false) := by
    simp [PolicyQueue.insert, ← h.policy_eq, hpol]
  have hcontent := BoundedQueue.content_pushEvict_of_full v hlen
  simp only [RingBuffer.insert, hfull, hpol, lt_irrefl, if_false, if_true, hq]
  have htail := h.tail_addAssign hN 1
  have hhead := h.head_addAssign hN 1
  refine ⟨?_, ?_, ?_, ?_, hpol ▸ h.policy_eq, fun i (hi : i < N) => ?_⟩
  · rw [hhead]
  · rw [hhead, htail, hfull, add_right_comm]
  · rw [hhead]
    exact Int.add_nonneg h.head_nonneg (by decide)
  · rw [hcontent, List.length_drop, List.length_append, hlen, List.length_singleton,
      Nat.add_sub_cancel]
  · rw [hcontent, List.getElem?_drop, IteratorImpl.addressof, h.tail_iter, hhead]
    have hnext : b.head.iter + 1 + i = b.head.iter + ((1 + i : ℕ) : ℤ) := by omega
    rw [hnext]
    rcases Nat.lt_or_eq_of_le (show 1 + i ≤ b.buffered by omega) with hold | hnew
    · have hne : b.head.iter + ((1 + i : ℕ) : ℤ) ≠ b.head.iter + b.buffered := by omega
      rw [Backing.slots_construct_of_ne _ _ hne, Backing.slots_destruct_of_ne _ hne,
        h.slots_eq _ hold, List.getElem?_append_left (h.buffered_eq ▸ hold)]
    · rw [hnew, Backing.slots_construct_self, h.buffered_eq, List.getElem?_concat_length]

/-- A refused insertion leaves the buffer and the queue as they are. -/
theorem Holds.insert_of_no_overwrite (h : Holds N b q) (what : String) (v : T)
    (hfull : b.buffered = N) (hpol : b.owpolicy = .no_overwrite) :
    (b.insert N what v).1 = b ∧ (q.insert v).1 = q := by
  have hq : q.queue.content.length = N ∧ q.policy = .no_overwrite :=
    ⟨h.buffered_eq ▸ hfull, h.policy_eq ▸ hpol⟩
  rw [RingBuffer.insert, if_neg (by omega), if_neg (by simp [hpol]), PolicyQueue.insert, if_pos hq]
  exact ⟨rfl, rfl⟩

/-- Every insertion is one on the queue, wherever it constructs its element. -/
theorem Holds.insert (h : Holds N b q) (hN : 0 < N) (what : String) (v : T) :
    Holds N (b.insert N what v).1 (q.insert v).1 := by
  rcases h.buffered_le.lt_or_eq with hlt | hfull
  · exact h.insert_of_lt what v hlt
  · cases hpol : b.owpolicy with
    | no_overwrite =>
      obtain ⟨hb, hq⟩ := h.insert_of_no_overwrite what v hfull hpol
      rwa [hb, hq]
    | overwrite => exact h.insert_of_overwrite hN what v hfull hpol

/-- An insertion that finds `_tail` in the array, or is refused, stays in it. -/
theorem Represents.insert (h : Represents N b q) (what : String) (v : T)
    (hfits : b.tail.addressof < N ∨ b.buffered = N ∧ b.owpolicy = .no_overwrite) :
    Represents N (b.insert N what v).1 (q.insert v).1 := by
  have hnonneg := h.head_nonneg
  have htail := h.toHolds.tail_iter
  by_cases hlt : b.buffered < N
  · refine ⟨h.toHolds.insert_of_lt what v hlt, ?_, ?_⟩
    all_goals simp only [RingBuffer.insert, hlt, if_true]
    · rcases hfits with hin | ⟨hfull, -⟩
      · rw [IteratorImpl.addressof, htail] at hin
        omega
      · omega
    · intro p hp
      rw [Backing.touched_construct, List.mem_cons, IteratorImpl.addressof] at hp
      rcases hp with hp | hp
      · rcases hfits with hin | ⟨hfull, -⟩
        · rw [IteratorImpl.addressof] at hin
          omega
        · omega
      · exact h.inArray p hp
  · -- a full buffer reaches to the end of the array, so that the insertion was refused
    have hfull : b.buffered = N := by
      have hle := h.toHolds.buffered_le
      omega
    have hpol : b.owpolicy = .no_overwrite := by
      rcases hfits with hin | ⟨-, hpol⟩
      · rw [IteratorImpl.addressof, htail] at hin
        omega
      · exact hpol
    obtain ⟨hb, hq⟩ := h.toHolds.insert_of_no_overwrite what v hfull hpol
    rwa [hb, hq]

/-- An insertion throws where the queue refuses, and then the buffer is as it was. -/
theorem Holds.insert_throws (h : Holds N b q) (what : String) (v : T) :
    (b.insert N what v).2.isSome = (q.insert v).2 ∧
      ((b.insert N what v).2.isSome = true → (b.insert N what v).1 = b) := by
  rw [RingBuffer.insert, PolicyQueue.insert, ← h.buffered_eq, ← h.policy_eq]
  rcases h.buffered_le.lt_or_eq with hlt | hfull
  · simp [hlt, hlt.ne]
  · cases hpol : b.owpolicy with
    | no_overwrite => simp [hfull]
    | overwrite => simp [hfull]

/-- An insertion that is not refused and finds `_tail` behind the array constructs its element there. -/
theorem Holds.insert_outside (h : Holds N b q) (what : String) (v : T)
    (hnot : ¬(b.tail.addressof < N ∨ b.buffered = N ∧ b.owpolicy = .no_overwrite)) :
    b.tail.addressof ∈ (b.insert N what v).1.buffer.touched := by
  obtain ⟨-, hkept⟩ := not_or.mp hnot
  rw [RingBuffer.insert]
  rcases h.buffered_le.lt_or_eq with hlt | hfull
  · simp [hlt]
  · cases hpol : b.owpolicy with
    | no_overwrite => exact absurd ⟨hfull, hpol⟩ hkept
    | overwrite => simp [hfull]

end Insert

section Remove

variable {T : Type*} {N : ℕ} {b : RingBuffer T} {q : PolicyQueue T N}

/-- `pop` removes the oldest element. -/
theorem Holds.pop (h : Holds N b q) : Holds N b.pop { q with queue := q.queue.read 1 } := by
  have hlen : (q.queue.read 1).content.length = b.buffered - 1 := by
    rw [BoundedQueue.read, List.length_drop, h.buffered_eq]
  rw [RingBuffer.pop]
  split_ifs with hpos
  · have hN : 0 < N := hpos.trans_le h.buffered_le
    have hhead := h.head_addAssign hN 1
    have hcast : ((b.buffered - 1 : ℕ) : ℤ) = b.buffered - 1 := by omega
    refine ⟨?_, ?_, ?_, hlen.symm, h.policy_eq, fun i (hi : i < b.buffered - 1) => ?_⟩
    · rw [hhead]
    · rw [hhead, hcast, h.tail_eq]
      simp
    · rw [hhead]
      exact Int.add_nonneg h.head_nonneg (by decide)
    · rw [hhead, IteratorImpl.addressof]
      have hne : b.head.iter + 1 + i ≠ b.head.iter := by omega
      have hnext : b.head.iter + 1 + i = b.head.iter + ((i + 1 : ℕ) : ℤ) := by omega
      have hi' : i + 1 < b.buffered := by omega
      rw [Backing.slots_destruct_of_ne _ hne, hnext, h.slots_eq (i + 1) hi', BoundedQueue.read,
        List.getElem?_drop, add_comm 1 i]
  · have hnil : q.queue.read 1 = q.queue := by
      have hzero : q.queue.content = [] := List.length_eq_zero_iff.mp (by rw [← h.buffered_eq]; omega)
      ext1
      simp [BoundedQueue.read, hzero]
    rwa [hnil]

/-- `pop` destroys a slot of the array. -/
theorem Represents.pop (h : Represents N b q) :
    Represents N b.pop { q with queue := q.queue.read 1 } := by
  have htail := h.tail_le
  have hnonneg := h.head_nonneg
  refine ⟨h.toHolds.pop, ?_, ?_⟩
  all_goals
    rw [RingBuffer.pop]
    split_ifs with hpos
  · rw [h.toHolds.head_addAssign (by omega)]
    simp only
    omega
  · exact htail
  · intro p hp
    rw [Backing.touched_destruct, List.mem_cons, IteratorImpl.addressof] at hp
    rcases hp with hp | hp
    · omega
    · exact h.inArray p hp
  · exact h.inArray

/-- The region of `end()` is contiguous. -/
theorem Holds.head_le_lastLogical (h : Holds N b q) : b.head.iter ≤ b.lastLogical := by
  have heq : b.tail.eq b.head = decide (b.buffered = 0) := by
    simp [IteratorImpl.eq, h.tail_iter]
  rw [RingBuffer.lastLogical, heq]
  rcases Nat.eq_zero_or_pos b.buffered with hzero | hpos
  · simp [hzero, IteratorImpl.addressof, h.tail_iter]
  · have hsub : (b.tail.sub 1).iter = b.head.iter + b.buffered + -1 := by
      rw [IteratorImpl.sub, IteratorImpl.subAssign, h.tail_addAssign (hpos.trans_le h.buffered_le)]
    simp only [hpos.ne', decide_false, IteratorImpl.addressof, hsub, Bool.false_eq_true, if_false]
    omega

/-- The loop of `clear` destroys the slots below its iterator. -/
theorem mem_touched_clearLoop (n : ℕ) {it : IteratorImpl} (hregion : it.lfirst ≤ it.llast)
    (buffer : Backing T) (p : ℤ) : p ∈ (RingBuffer.clearLoop n it buffer).touched ↔
      p ∈ buffer.touched ∨ it.iter - n ≤ p ∧ p < it.iter := by
  induction n generalizing it buffer with
  | zero =>
    rw [RingBuffer.clearLoop]
    refine (or_iff_left ?_).symm
    omega
  | succ n ih =>
    have hback : it.subAssign 1 = { it with iter := it.iter + -1 } :=
      IteratorImpl.addAssign_of_le hregion _
    have hlast : p = it.iter + -1 ∨ (it.iter + -1 - n ≤ p ∧ p < it.iter + -1) ↔
        it.iter - (n + 1 : ℕ) ≤ p ∧ p < it.iter := by omega
    rw [RingBuffer.clearLoop, hback, ih (by exact hregion), Backing.touched_destruct, List.mem_cons,
      IteratorImpl.addressof, or_right_comm, hlast, or_comm]

/-- The slots that `clear` destroys. -/
theorem Holds.mem_touched_clear (h : Holds N b q) (p : ℤ) : p ∈ (b.clear N).buffer.touched ↔
    p ∈ b.buffer.touched ∨ b.head.iter ≤ p ∧ p < b.head.iter + b.buffered := by
  have hfinish : (b.finish N).iter = b.head.iter + b.buffered := h.tail_iter
  rw [RingBuffer.clear, mem_touched_clearLoop _ h.head_le_lastLogical, hfinish, add_sub_cancel_right]

/-- `clear` empties the queue. -/
theorem Holds.clear (h : Holds N b q) : Holds N (b.clear N) { q with queue := .empty } where
  head_eq := h.head_eq
  tail_eq := by
    simp only [RingBuffer.clear, Nat.cast_zero, add_zero]
    exact h.head_eq
  head_nonneg := h.head_nonneg
  buffered_eq := rfl
  policy_eq := h.policy_eq
  slots_eq := by simp [RingBuffer.clear]

/-- `clear` destroys slots of the array. -/
theorem Represents.clear (h : Represents N b q) :
    Represents N (b.clear N) { q with queue := .empty } := by
  have htail := h.tail_le
  have hnonneg := h.head_nonneg
  refine ⟨h.toHolds.clear, ?_, fun p hp => ?_⟩
  · simp only [RingBuffer.clear, Nat.cast_zero, add_zero]
    omega
  · rcases (h.toHolds.mem_touched_clear p).mp hp with hold | ⟨hlow, hhigh⟩
    · exact h.inArray p hold
    · omega

/-- Changing the policy leaves the elements alone. -/
theorem Holds.setOverwritePolicy (h : Holds N b q) (pol : OverwritePolicy) :
    Holds N (b.setOverwritePolicy pol) { q with policy := pol } :=
  ⟨h.head_eq, h.tail_eq, h.head_nonneg, h.buffered_eq, rfl, h.slots_eq⟩

end Remove

section Ends

variable {T : Type*} {N : ℕ} {b : RingBuffer T} {q : PolicyQueue T N}

/-- `front()` refers to the oldest element. -/
theorem Represents.front (h : Represents N b q) (hne : q.queue.content ≠ []) :
    (0 ≤ b.frontSlot ∧ b.frontSlot < N) ∧ b.front = q.queue.content.head? := by
  have hpos : 0 < b.buffered := by
    rw [h.buffered_eq]
    exact List.length_pos_of_ne_nil hne
  have htail := h.tail_le
  have hnonneg := h.head_nonneg
  have hslot : b.frontSlot = b.head.iter := by
    rw [RingBuffer.frontSlot, IteratorImpl.index, IteratorImpl.add, h.toHolds.head_addAssign (by omega),
      add_zero]
  refine ⟨by omega, ?_⟩
  have hfront := h.slots_eq 0 hpos
  rw [Nat.cast_zero, add_zero] at hfront
  rw [RingBuffer.front, hslot, hfront, List.head?_eq_getElem?]

/-- `back()` refers to the newest element. -/
theorem Represents.back (h : Represents N b q) (hne : q.queue.content ≠ []) :
    (0 ≤ b.backSlot ∧ b.backSlot < N) ∧ b.back = q.queue.content.getLast? := by
  have hpos : 0 < b.buffered := by
    rw [h.buffered_eq]
    exact List.length_pos_of_ne_nil hne
  have htail := h.tail_le
  have hnonneg := h.head_nonneg
  have hslot : b.backSlot = b.head.iter + ((b.buffered - 1 : ℕ) : ℤ) := by
    have hdistinct : b.tail.eq b.head = false := by
      simp [IteratorImpl.eq, h.toHolds.tail_iter, hpos.ne']
    rw [RingBuffer.backSlot, hdistinct, if_neg Bool.false_ne_true, IteratorImpl.index,
      IteratorImpl.add, h.toHolds.tail_addAssign (by omega)]
    simp only
    omega
  refine ⟨by omega, ?_⟩
  rw [RingBuffer.back, hslot, h.slots_eq _ (by omega), h.buffered_eq, List.getLast?_eq_getElem?]

end Ends

namespace RingRun

variable {T : Type*} {N : ℕ}

/-- The invariant of the runs that stay in the array. -/
structure Inv (r : RingRun T N) : Prop where
  represents : Represents N r.ring r.fifo
  throws : r.threw.isSome = r.refused
  unchanged : r.threw.isSome = true → r.ring = r.before

/-- The run starts with an empty buffer and an empty queue. -/
theorem Inv.start : Inv (start : RingRun T N) where
  represents := represents_new
  throws := rfl
  unchanged := fun _ => rfl

/-- What the invariant says about the buffer. -/
theorem Inv.meets {r : RingRun T N} (h : r.Inv) : r.Meets where
  inArray := h.represents.inArray
  size_eq := h.represents.buffered_eq
  policy_eq := h.represents.policy_eq
  throws := h.throws
  unchanged := h.unchanged
  front_inArray := fun hne => (h.represents.front hne).1
  front_eq := fun hne => (h.represents.front hne).2
  back_inArray := fun hne => (h.represents.back hne).1
  back_eq := fun hne => (h.represents.back hne).2

/-- Every call that fits keeps the invariant. -/
theorem Inv.step {r r' : RingRun T N} (op : RingOp T) (h : r.Inv) (hfits : r.Fits op)
    (hstep : r.step op = some r') : r'.Inv := by
  cases hstep
  have hrep := h.represents
  cases op with
  | push v | pushBack v | emplace v | emplaceBack v =>
    exact ⟨hrep.insert _ v hfits, (hrep.toHolds.insert_throws _ v).1, (hrep.toHolds.insert_throws _ v).2⟩
  | pop => exact ⟨hrep.pop, rfl, fun hthrew => by cases hthrew⟩
  | clear => exact ⟨hrep.clear, rfl, fun hthrew => by cases hthrew⟩
  | setOverwritePolicy pol =>
    have hkept : Represents _ _ _ := ⟨hrep.toHolds.setOverwritePolicy pol, hrep.tail_le, hrep.inArray⟩
    exact ⟨hkept, rfl, fun hthrew => by cases hthrew⟩

/-- Every other call leaves the array. -/
theorem Inv.not_meets {r r' : RingRun T N} (op : RingOp T) (h : r.Inv) (hfits : ¬ r.Fits op)
    (hstep : r.step op = some r') : ¬ r'.Meets := by
  cases hstep
  intro hmeets
  cases op with
  | push v | pushBack v | emplace v | emplaceBack v =>
    have hin := hmeets.inArray _ (h.represents.toHolds.insert_outside _ v hfits)
    exact hfits (.inl hin.2)
  | pop | clear | setOverwritePolicy => exact hfits trivial

/-- Every list of calls can be made. -/
theorem exists_run (ops : List (RingOp T)) (r : RingRun T N) : ∃ r', run RingRun.step r ops = some r' := by
  induction ops generalizing r with
  | nil => exact ⟨r, rfl⟩
  | cons op ops ih => exact ih _

end RingRun

/-- **When a ring buffer is a bounded queue inside its array.** Over any sequence of calls on a new
buffer, the slots constructed, destroyed and referred to lie in the array and the buffer is the queue,
refusals, evictions and both ends included, if and only if every insertion that is not refused finds
`_tail` inside the array. -/
theorem ringBuffer_meets_iff {T : Type*} {N : ℕ} (ops : List (RingOp T)) :
    Throughout RingRun.step RingRun.Meets (RingRun.start : RingRun T N) ops ↔
      Along RingRun.step RingRun.Fits (RingRun.start : RingRun T N) ops := by
  obtain ⟨r', hrun⟩ := RingRun.exists_run ops (RingRun.start : RingRun T N)
  exact throughout_iff_along (fun r op r' h hfits => h.step op hfits)
    (fun r op r' h hfits => h.not_meets op hfits) (fun r h => h.meets) RingRun.Inv.start hrun

/-- One element that is pushed and popped takes `_tail` and `_head` behind the only slot, and the next
one is constructed there. -/
theorem ringBuffer_leaves_array :
    ¬ Throughout RingRun.step RingRun.Meets (RingRun.start : RingRun ℕ 1) [.push 1, .pop, .push 2] := by
  rintro ⟨-, -, -, hmeets⟩
  exact absurd (hmeets.inArray 1 (by decide)).2 (by decide)

end MyUvpp
