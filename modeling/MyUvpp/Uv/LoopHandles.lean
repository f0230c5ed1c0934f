import MyUvpp.Uv.QueueRuns

/-! # Handles that are initialised again

`uv__handle_init` links a handle at the end of `handle_queue` and resets its flags, whether the loop has the
handle already or not. A handle that is initialised a second time before it has been closed is linked a second
time, so that the handles behind it drop out of the queue, and `uv__handle_start` counts it as active once more.
`uv__async_event` gets over it: each handle that it takes out of its queue mends the links of the next one. -/

namespace MyUvpp

namespace Links

variable {α : Type*} [DecidableEq α] {m m' : Links α} {a b c h n q x : α} {k l l₁ l₂ : List α}

/-! ### A node that is inserted again -/

/-- `QUEUE_FOREACH` follows the links forward, up to a node that leads back to the head. -/
theorem Path.queueForeach_of_next (hpath : m.Path c (l₁ ++ a :: l₂) b) (hnot : h ∉ l₁ ++ [a])
    (hnext : ∀ x ∈ c :: l₁, m'.next x = m.next x) (hlast : m'.next a = h) {rounds : ℕ}
    (hrounds : l₁.length + 1 < rounds) : m'.queueForeach h rounds (m'.next c) = l₁ ++ [a] := by
  induction l₁ generalizing c rounds with
  | nil =>
    obtain ⟨rounds, rfl⟩ : ∃ r, rounds = r + 2 := Nat.exists_eq_add_of_le' hrounds
    obtain ⟨hc, -⟩ := hpath
    have hne : a ≠ h := fun heq => hnot (heq ▸ List.mem_cons_self)
    rw [hnext c List.mem_cons_self, hc, Links.queueForeach, if_neg hne, hlast, Links.queueForeach, if_pos rfl,
      List.nil_append]
  | cons d l₁ ih =>
    obtain ⟨rounds, rfl⟩ : ∃ r, rounds = r + 1 := Nat.exists_eq_add_of_le' (Nat.zero_lt_of_lt hrounds)
    obtain ⟨hc, -, hrest⟩ := hpath
    obtain ⟨hne, hnot'⟩ := List.ne_and_not_mem_of_not_mem_cons hnot
    rw [hnext c List.mem_cons_self, hc, Links.queueForeach, if_neg hne.symm, List.cons_append,
      ih hrest hnot' (fun x hx => hnext x (List.mem_cons_of_mem c hx)) (Nat.lt_of_succ_lt_succ hrounds)]

/-- **What is behind a node that is inserted again drops out of the queue.** -/
theorem Ring.queueForeach_insert_again (hring : m.Ring h (l₁ ++ a :: b :: l₂)) {rounds : ℕ}
    (hrounds : l₁.length + 1 < rounds) :
    (m.queueInsertTail h a).queueForeach h rounds ((m.queueInsertTail h a).next h) = l₁ ++ [a] := by
  obtain ⟨hh, hnodup⟩ := List.nodup_cons.mp hring.nodup
  obtain ⟨-, hnodup₂, hdisjoint⟩ := List.nodup_append.mp hnodup
  -- the last node is one of those behind
  have hlast : m.prev h ∈ b :: l₂ := (path_append.mp hring.path).2.2.2.prev_mem
  have hlasta : a ≠ m.prev h := fun heq => (List.nodup_cons.mp hnodup₂).1 (heq ▸ hlast)
  rw [queueInsertTail_eq]
  refine hring.path.queueForeach_of_next (fun hmem => hh ?_) (fun x hx => ?_) ?_ hrounds
  · rcases List.mem_append.mp hmem with hmem | hmem
    · exact List.mem_append_left _ hmem
    · exact List.mem_append_right _ (List.mem_singleton.mp hmem ▸ List.mem_cons_self)
  · have hxa : x ≠ a := by
      rintro rfl
      rcases List.mem_cons.mp hx with rfl | hx
      · exact hh (List.mem_append_right _ List.mem_cons_self)
      · exact hdisjoint x hx x List.mem_cons_self rfl
    have hxl : x ≠ m.prev h := by
      rintro rfl
      rcases List.mem_cons.mp hx with heq | hx
      · exact hh (heq ▸ List.mem_append_right _ (List.mem_cons_of_mem a hlast))
      · exact hdisjoint _ hx _ (List.mem_cons_of_mem a hlast) rfl
    exact (Function.update_of_ne hxl ..).trans (Function.update_of_ne hxa ..)
  · exact (Function.update_of_ne hlasta ..).trans (Function.update_self ..)

/-- The last node of a queue that is inserted again leads to itself. -/
theorem next_insert_last_again (hlast : m.prev h = a) : (m.queueInsertTail h a).next a = a := by
  rw [queueInsertTail_eq, hlast]
  exact Function.update_self ..

/-! ### `uv__async_event` -/

/-- The loop of `uv__async_event` without its callbacks, in at most so many rounds: the handles that it comes
to, and the links that it leaves. -/
def asyncEventRounds (h n : α) : ℕ → Links α → List α × Links α
  | 0, m => ([], m)
  | rounds + 1, m =>
    if m.queueEmpty n then ([], m)
    else
      let q := m.queueHead n
      let r := asyncEventRounds h n rounds ((m.queueRemove q).queueInsertTail h q)
      (q :: r.1, r.2)

/-- A round takes the first handle of the local queue to the queue of the loop. -/
theorem Represents.putBack (hrep : m.Represents [(h, k), (n, q :: l)]) :
    ((m.queueRemove q).queueInsertTail h q).Represents [(h, k ++ [q]), (n, l)] := by
  have hswapped : m.Represents [(n, [] ++ q :: l), (h, k)] := hrep.of_perm (List.Perm.swap _ _ _)
  have hremoved := hswapped.queueRemove.of_perm (List.Perm.swap _ _ _)
  refine hremoved.queueInsertTail fun hmem => ?_
  -- the handle was in the local queue only
  have hperm : (Queues.nodes [(h, k), (n, q :: l)]).Perm (q :: Queues.nodes [(h, k), (n, l)]) := by
    simp only [Queues.nodes, List.flatMap_cons, List.flatMap_nil, List.append_nil, List.cons_append]
    rw [List.append_cons, List.append_cons k n l]
    exact @List.perm_middle α q (h :: (k ++ [n])) l
  exact (List.nodup_cons.mp (hperm.nodup_iff.mp hrep.nodup)).1 hmem

/-- One round of the loop of `uv__async_event`: the head is put back at the tail. -/
theorem asyncEventRounds_succ (hnext : m.next n = q) (hqn : q ≠ n) (rounds : ℕ) :
    asyncEventRounds h n (rounds + 1) m =
      (q :: (asyncEventRounds h n rounds ((m.queueRemove q).queueInsertTail h q)).1,
        (asyncEventRounds h n rounds ((m.queueRemove q).queueInsertTail h q)).2) := by
  rw [asyncEventRounds, queueEmpty, queueHead, hnext, if_neg (by simpa using hqn.symm)]

/-- The loop comes to every handle of the local queue, in its order. -/
theorem Represents.asyncEvent_visits (hrep : m.Represents [(h, k), (n, l)]) {rounds : ℕ}
    (hrounds : l.length ≤ rounds) :
    (asyncEventRounds h n rounds m).1 = l ∧
      (asyncEventRounds h n rounds m).2.Represents [(h, k ++ l), (n, [])] := by
  induction l generalizing m k rounds with
  | nil =>
    have hring : m.Ring n [] := hrep.ring (n, []) (List.mem_cons_of_mem _ List.mem_cons_self)
    rw [List.append_nil]
    cases rounds with
    | zero => exact ⟨rfl, hrep⟩
    | succ rounds =>
      rw [asyncEventRounds, hring.queueEmpty]
      exact ⟨rfl, hrep⟩
  | cons q l ih =>
    obtain ⟨rounds, rfl⟩ : ∃ r, rounds = r + 1 := Nat.exists_eq_add_of_le' (Nat.zero_lt_of_lt hrounds)
    obtain ⟨hvisits, hleaves⟩ := ih hrep.putBack (Nat.le_of_succ_le_succ hrounds)
    have hring : m.Ring n (q :: l) := hrep.ring (n, q :: l) (List.mem_cons_of_mem _ List.mem_cons_self)
    have hqn : q ≠ n := fun heq => (List.nodup_cons.mp hring.nodup).1 (heq ▸ List.mem_cons_self)
    rw [asyncEventRounds_succ hring.next_cons hqn, List.append_cons]
    exact ⟨congrArg (q :: ·) hvisits, hleaves⟩

/-- A wrong link back to the node before lasts until that node has gone. -/
theorem round_setPrev (hqa : q ≠ a) (hha : h ≠ a) (hnext : m.next q ≠ a) :
    ((m.setPrev a x).queueRemove q).queueInsertTail h q =
      ((m.queueRemove q).queueInsertTail h q).setPrev a x := by
  have hprev : (m.setPrev a x).prev q = m.prev q := Function.update_of_ne hqa ..
  have hlast : Function.update (Function.update m.prev a x) (m.next q) (m.prev q) h =
      Function.update m.prev (m.next q) (m.prev q) h := by
    rw [Function.update_comm hnext.symm, Function.update_of_ne hha]
  rw [queueInsertTail_eq, queueInsertTail_eq, queueRemove_eq, queueRemove_eq, hprev]
  simp only [setPrev, hlast]
  rw [Function.update_comm hnext.symm, Function.update_comm hqa.symm, Function.update_comm hha.symm]

/-- With that node the link is put right. -/
theorem queueRemove_setPrev (hqa : q ≠ a) (hnext : m.next q = a) :
    (m.setPrev a x).queueRemove q = m.queueRemove q := by
  have hprev : (m.setPrev a x).prev q = m.prev q := Function.update_of_ne hqa ..
  rw [queueRemove_eq, queueRemove_eq, hprev]
  simp only [setPrev, hnext, Function.update_idem]

/-- The rounds never read the `prev` of the last node before they write it. -/
theorem Represents.asyncEventRounds_setPrev (hrep : m.Represents [(h, k), (n, l ++ [a])]) (hl : l ≠ [])
    {rounds : ℕ} (hrounds : l.length ≤ rounds) :
    asyncEventRounds h n rounds (m.setPrev a x) = asyncEventRounds h n rounds m := by
  induction l generalizing m k rounds with
  | nil => exact absurd rfl hl
  | cons q l ih =>
    obtain ⟨rounds, rfl⟩ : ∃ r, rounds = r + 1 := Nat.exists_eq_add_of_le' (Nat.zero_lt_of_lt hrounds)
    have hring : m.Ring n (q :: (l ++ [a])) :=
      hrep.ring (n, q :: l ++ [a]) (List.mem_cons_of_mem _ List.mem_cons_self)
    obtain ⟨hn, hnodup⟩ := List.nodup_cons.mp hring.nodup
    have hqa : q ≠ a := fun heq => (List.nodup_cons.mp hnodup).1 (heq ▸ List.mem_concat_self)
    have hha : h ≠ a := by
      rintro rfl
      refine hrep.not_mem_rest (x := h) ?_ List.mem_cons_self
      exact List.mem_append_left _ (List.mem_cons_of_mem n (List.mem_append_right _ List.mem_cons_self))
    have hqn : q ≠ n := fun heq => hn (heq ▸ List.mem_cons_self)
    have hnext' : (m.setPrev a x).next n = q := hring.next_cons
    rw [asyncEventRounds_succ hring.next_cons hqn, asyncEventRounds_succ hnext' hqn]
    cases l with
    | nil => rw [queueRemove_setPrev hqa hring.path.2.2.1]
    | cons c l =>
      have hnext : m.next q ≠ a := by
        rw [hring.path.2.2.1]
        rintro rfl
        exact (List.nodup_cons.mp (List.nodup_cons.mp hnodup).2).1 List.mem_concat_self
      rw [round_setPrev hqa hha hnext, ih hrep.putBack (List.cons_ne_nil c l) (Nat.le_of_succ_le_succ hrounds)]

/-- The last node of a queue, inserted again: what moves to the local queue is right but for one link. -/
theorem Ring.queueMove_insert_again (hring : m.Ring h (l ++ [a])) (hl : l ≠ []) (hn : n ∉ h :: (l ++ [a])) :
    (m.queueInsertTail h a).queueMove h n = (m.queueMove h n).setPrev a a := by
  obtain ⟨q, l, rfl⟩ := List.exists_cons_of_ne_nil hl
  obtain ⟨hh, hnodup⟩ := List.nodup_cons.mp hring.nodup
  have hlast : m.prev h = a := (path_append.mp hring.path).2.2
  have hha : h ≠ a := fun heq => hh (heq ▸ List.mem_concat_self)
  have hqa : q ≠ a := fun heq => (List.nodup_cons.mp hnodup).1 (heq ▸ List.mem_concat_self)
  have hna : n ≠ a := fun heq => hn (heq ▸ List.mem_cons_of_mem h List.mem_concat_self)
  have hqn : q ≠ n := fun heq => hn (heq ▸ List.mem_cons_of_mem h List.mem_cons_self)
  have hqh : q ≠ h := fun heq => hh (heq ▸ List.mem_cons_self)
  have hnext : m.next h = q := hring.next_cons
  have hprev : m.prev q = h := hring.path.2.1
  -- the node leads to itself, in both directions
  have hagain : m.queueInsertTail h a = ⟨Function.update m.next a a, Function.update m.prev a a⟩ := by
    rw [queueInsertTail_eq, hlast, Function.update_idem, Links.mk.injEq]
    refine ⟨rfl, ?_⟩
    rw [Function.update_eq_self_iff, Function.update_of_ne hha, hlast]
  have hnext' : (m.queueInsertTail h a).next h = q := by
    rw [hagain]
    exact (Function.update_of_ne hha ..).trans hnext
  have hprev' : (m.queueInsertTail h a).prev q = h := by
    rw [hagain]
    exact (Function.update_of_ne hqa ..).trans hprev
  have hlast' : (m.queueInsertTail h a).prev h = a := by
    rw [hagain]
    exact (Function.update_of_ne hha ..).trans hlast
  have hempty : ∀ m' : Links α, m'.next h = q → m'.queueMove h n = m'.queueSplit h q n := by
    intro m' hm'
    rw [Links.queueMove, Links.queueHead, Links.queueEmpty, hm', if_neg (by simpa using hqh.symm)]
  rw [hempty m hnext, hempty _ hnext', queueSplit_eq hprev hqn, queueSplit_eq hprev' hqn, hlast, hlast', hagain]
  simp only [setPrev, Function.update_idem]
  rw [Function.update_comm hqa, Function.update_comm hha, Function.update_comm hna]

/-- **`uv__async_event` gets over a handle that has been initialised again.** It comes to the same handles as
before, and leaves its queue in order. -/
theorem Represents.asyncEvent_insert_again (hrep : m.Represents [(h, l ++ [a])]) (hl : l ≠ [])
    (hn : n ∉ h :: (l ++ [a])) {rounds : ℕ} (hrounds : l.length < rounds) :
    (asyncEventRounds h n rounds ((m.queueInsertTail h a).queueMove h n)).1 = l ++ [a] ∧
      (asyncEventRounds h n rounds ((m.queueInsertTail h a).queueMove h n)).2.Represents
        [(h, l ++ [a]), (n, [])] := by
  have hmoved : (m.queueMove h n).Represents [(h, []), (n, l ++ [a])] :=
    hrep.queueMove (by simpa [Queues.nodes] using hn)
  have hring : m.Ring h (l ++ [a]) := hrep.ring (h, l ++ [a]) List.mem_cons_self
  rw [hring.queueMove_insert_again hl hn, hmoved.asyncEventRounds_setPrev hl (Nat.le_of_lt hrounds)]
  exact hmoved.asyncEvent_visits (by simpa using Nat.succ_le_of_lt hrounds)

/-- Further initialisations change nothing. -/
theorem queueInsertTail_insertTail (hlast : m.prev h = a) (hha : h ≠ a) :
    (m.queueInsertTail h a).queueInsertTail h a = m.queueInsertTail h a := by
  have hlast' : (m.queueInsertTail h a).prev h = a := by
    rw [queueInsertTail_eq]
    exact Function.update_self ..
  rw [queueInsertTail_eq, hlast', queueInsertTail_eq, hlast]
  simp only [Function.update_idem]
  rw [Function.update_comm hha]
  simp only [Function.update_idem]

end Links

/-! ### The handles of a loop -/

/-- The nodes in `handle_queue` of a loop, whose users have the handles `η`. -/
inductive LoopNode (η : Type*) where
  /-- `handle_queue` of the loop. -/
  | head
  /-- A handle of the loop itself. -/
  | internal (n : ℕ)
  | handle (h : η)
  deriving DecidableEq, Repr

/-- `handle_queue` and `active_handles` of a loop, and the flags of its handles. -/
structure LoopHandles (η : Type*) where
  links : Links (LoopNode η)
  /-- Whether `UV__HANDLE_ACTIVE` is set. -/
  active : η → Bool
  activeHandles : ℕ

namespace LoopHandles

variable {η : Type*} [DecidableEq η]

/-- `uv_loop_init`, in memory that was used for anything: the loop has two handles of its own, `child_watcher`
and `wq_async`, which do not keep it alive. -/
def new (m : Links (LoopNode η)) : LoopHandles η where
  links := ((m.queueInit .head).queueInsertTail .head (.internal 0)).queueInsertTail .head (.internal 1)
  active _ := false
  activeHandles := 0

variable (loop : LoopHandles η) (handle : η)

/-- `uv__handle_init`, on a handle that the loop may have already. -/
def uvHandleInit : LoopHandles η :=
  { loop with
    links := loop.links.queueInsertTail .head (.handle handle)
    active := Function.update loop.active handle false }

/-- `uv__handle_start`, for a handle with `UV__HANDLE_REF`. -/
def uvHandleStart : LoopHandles η :=
  if loop.active handle then loop
  else
    { loop with
      active := Function.update loop.active handle true
      activeHandles := loop.activeHandles + 1 }

/-- What a successful `uv_async_init` does to the handles of the loop. -/
def uvAsyncInit : LoopHandles η := (loop.uvHandleInit handle).uvHandleStart handle

/-- What `QUEUE_FOREACH` finds in `handle_queue`, in at most so many rounds. -/
def queue (rounds : ℕ) : List (LoopNode η) := loop.links.queueForeach .head rounds (loop.links.next .head)

/-- A handle that is initialised and started counts as active, even if it has been counted before. -/
theorem uvAsyncInit_activeHandles : (loop.uvAsyncInit handle).activeHandles = loop.activeHandles + 1 := by
  have hreset : (loop.uvHandleInit handle).active handle = false := Function.update_self ..
  rw [uvAsyncInit, uvHandleStart, hreset]
  rfl

/-- A started handle is not counted less. -/
theorem le_uvHandleStart_activeHandles : loop.activeHandles ≤ (loop.uvHandleStart handle).activeHandles := by
  rw [uvHandleStart]
  split
  case isTrue => exact Nat.le_refl _
  case isFalse => exact Nat.le_succ _

end LoopHandles

end MyUvpp
