import MyUvpp.Uv.QueueRuns

/-! # Walking over the handles of a loop (`uv_walk`)

`uv_walk` moves the handles of a loop to a queue of its own, and puts each one back before it calls the
callback for it. Handles can be initialised and closed between two rounds of its loop. The loop and the handles
are given by the addresses of their nodes. A callback that calls `uv_walk` again is left out. -/

namespace MyUvpp

variable {α : Type*}

/-- Where the loop thread is, between two steps that a callback may come between. -/
inductive WalkPhase (α : Type*) where
  /-- Not in `uv_walk`. -/
  | idle
  /-- At the condition of its loop, with the address of the local queue. -/
  | loop (queue : α)
  /-- In the callback for a handle. -/
  | callback (queue handle : α)
  deriving DecidableEq, Repr

namespace WalkPhase

/-- The local queue, with some handles in it. -/
def queues (k : List α) : WalkPhase α → Queues α
  | idle => []
  | loop queue | callback queue _ => [(queue, k)]

/-- Outside a walk there is no second queue. -/
@[simp] theorem queues_idle (k : List α) : idle.queues k = [] := rfl

/-- Between two callbacks the second queue holds the handles still to visit. -/
@[simp] theorem queues_loop (queue : α) (k : List α) : (loop queue).queues k = [(queue, k)] := rfl

/-- So it does while a callback runs. -/
@[simp] theorem queues_callback (queue handle : α) (k : List α) :
    (callback queue handle).queues k = [(queue, k)] := rfl

/-- Within a walk there is one second queue. -/
theorem exists_queue {phase : WalkPhase α} (hne : phase ≠ idle) :
    ∃ queue, ∀ k, phase.queues k = [(queue, k)] := by
  cases phase with
  | idle => exact absurd rfl hne
  | loop queue => exact ⟨queue, fun _ => rfl⟩
  | callback queue _ => exact ⟨queue, fun _ => rfl⟩

/-- The loop thread is where other code can be called. -/
def outside : WalkPhase α → Bool
  | loop _ => false
  | _ => true

/-- The rounds that are to come when the local queue is empty. -/
def exits : WalkPhase α → ℕ
  | idle => 0
  | _ => 1

end WalkPhase

/-- The handles of a loop. The last two fields record what happened, for statements about it. -/
structure HandleQueue (α : Type*) where
  links : Links α
  /-- The address of `handle_queue` of the loop. -/
  head : α
  /-- `UV__HANDLE_INTERNAL` is set. -/
  internal : α → Bool
  phase : WalkPhase α
  /-- The handles that are initialised and not closed. -/
  handles : List α
  /-- The handles for which the last `uv_walk` has called the callback. -/
  called : List α

/-- What happens to the handles of a loop. -/
inductive WalkEvent (α : Type*) where
  /-- `uv__handle_init`, and whether the library then sets `UV__HANDLE_INTERNAL`. -/
  | init (handle : α) (internal : Bool)
  /-- `uv__finish_close`, or an initialisation that is undone. -/
  | finishClose (handle : α)
  /-- A call of `uv_walk`, with the address of its local variable. -/
  | walk (queue : α)
  /-- A round of its loop up to the callback. -/
  | round
  /-- The callback returns. -/
  | return
  deriving DecidableEq, Repr

namespace HandleQueue

variable [DecidableEq α]

/-- `uv_loop_init`, in memory that was used for anything. -/
def initial (m : Links α) (head : α) : HandleQueue α where
  links := m.queueInit head
  head
  internal _ := false
  phase := .idle
  handles := []
  called := []

variable (s : HandleQueue α)

/-- What `uv__handle_init` does to the queue and the flags. -/
def uvHandleInit (handle : α) (internal : Bool) : HandleQueue α :=
  { s with
    links := s.links.queueInsertTail s.head handle
    internal := Function.update s.internal handle internal
    handles := handle :: s.handles }

/-- What `uv__finish_close` does to the queue: the handle goes out of the one it is in. -/
def uvFinishClose (handle : α) : HandleQueue α :=
  { s with links := s.links.queueRemove handle, handles := s.handles.erase handle }

/-- `uv_walk` up to its loop: all the handles go to a local queue. -/
def uvWalk (queue : α) : HandleQueue α :=
  { s with links := s.links.queueMove s.head queue, phase := .loop queue, called := [] }

/-- A handle is put back into the queue of the loop. -/
def putBack (q : α) : HandleQueue α :=
  { s with links := (s.links.queueRemove q).queueInsertTail s.head q }

/-- A round of the loop of `uv_walk`. -/
def uvWalkRound (queue : α) : HandleQueue α :=
  if s.links.queueEmpty queue then { s with phase := .idle }
  else
    let q := s.links.queueHead queue
    let s := s.putBack q
    if s.internal q then s else { s with phase := .callback queue q, called := s.called ++ [q] }

/-- What a step does. A handle is initialised where no node is, and it is closed once. -/
def step : WalkEvent α → Option (HandleQueue α)
  | .init handle internal =>
    if s.phase.outside = true ∧ handle ∉ Queues.nodes ((s.head, s.handles) :: s.phase.queues []) then
      some (s.uvHandleInit handle internal)
    else none
  | .finishClose handle =>
    if s.phase.outside = true ∧ handle ∈ s.handles then some (s.uvFinishClose handle) else none
  | .walk queue =>
    if s.phase = .idle ∧ queue ∉ s.head :: s.handles then some (s.uvWalk queue) else none
  | .round =>
    match s.phase with
    | .loop queue => some (s.uvWalkRound queue)
    | _ => none
  | .return =>
    match s.phase with
    | .callback queue _ => some { s with phase := .loop queue }
    | _ => none

/-- The handles in the queue of the loop, as `QUEUE_FOREACH` comes to them. -/
def queue : List α := s.links.queueForeach s.head (s.handles.length + 1) (s.links.next s.head)

/-- Some handles without the internal ones, which `uv_walk` skips. -/
def external (k : List α) : List α := k.filter fun handle => !s.internal handle

/-- The check of `uv_loop_close`: a handle that is not internal is still there, or a request is active. -/
def uvLoopCloseBusy (activeReqs : Bool) : Bool := activeReqs || s.queue.any fun handle => !s.internal handle

variable {s s' : HandleQueue α} {e : WalkEvent α} {es es' : List (WalkEvent α)} {l k l' k' : List α}

/-! ### The two queues -/

/-- The handles are in the queue of the loop and in the local queue. -/
structure Shape (s : HandleQueue α) (l k : List α) : Prop where
  represents : s.links.Represents ((s.head, l) :: s.phase.queues k)
  perm : (l ++ k).Perm s.handles
  idle : s.phase = .idle → k = []

/-- A loop just initialised has no handles and no walk. -/
theorem shape_initial (m : Links α) (head : α) : (initial m head).Shape [] [] where
  represents := Links.Represents.queueInit ⟨fun _ hp => absurd hp List.not_mem_nil, List.nodup_nil⟩
    List.not_mem_nil
  perm := List.Perm.nil
  idle _ := rfl

/-- What a step can do, with what it does to the two queues. -/
inductive Moves (s : HandleQueue α) :
    List α → List α → WalkEvent α → HandleQueue α → List α → List α → Prop where
  | initialised (l k : List α) (handle : α) (internal : Bool) (hnew : handle ∉ s.handles) :
      Moves s l k (.init handle internal) (s.uvHandleInit handle internal) (l ++ [handle]) k
  | closed (l k : List α) (handle : α) :
      Moves s l k (.finishClose handle) (s.uvFinishClose handle) (l.erase handle) (k.erase handle)
  | walks (l : List α) (queue : α) (hidle : s.phase = .idle) :
      Moves s l [] (.walk queue) (s.uvWalk queue) [] l
  | ended (l : List α) (queue : α) (hphase : s.phase = .loop queue) :
      Moves s l [] .round { s with phase := .idle } l []
  | passed (l k : List α) (queue q : α) (hphase : s.phase = .loop queue) (hinternal : s.internal q = true) :
      Moves s l (q :: k) .round (s.putBack q) (l ++ [q]) k
  | called (l k : List α) (queue q : α) (hphase : s.phase = .loop queue) (hinternal : s.internal q = false) :
      Moves s l (q :: k) .round
        { s.putBack q with phase := .callback queue q, called := s.called ++ [q] } (l ++ [q]) k
  | returned (l k : List α) (queue q : α) (hphase : s.phase = .callback queue q) :
      Moves s l k .return { s with phase := .loop queue } l k

/-- The nodes in use are the heads of the queues and the handles. -/
theorem Shape.mem_nodes (h : s.Shape l k) {x : α} :
    x ∈ Queues.nodes ((s.head, l) :: s.phase.queues k) ↔
      x ∈ Queues.nodes ((s.head, s.handles) :: s.phase.queues []) := by
  have hmem : x ∈ s.handles ↔ x ∈ l ∨ x ∈ k := by rw [← h.perm.mem_iff, List.mem_append]
  by_cases hidle : s.phase = .idle
  · rw [h.idle hidle] at hmem ⊢
    simp [Queues.nodes, hidle, hmem]
  · obtain ⟨queue, hqueues⟩ := WalkPhase.exists_queue hidle
    rw [hqueues, hqueues]
    simp only [Queues.nodes, List.flatMap_cons, List.flatMap_nil, List.append_nil, List.mem_append,
      List.mem_cons, List.not_mem_nil, hmem]
    tauto

omit [DecidableEq α] in
/-- No handle is in two queues or twice in one. -/
theorem Shape.nodup (h : s.Shape l k) : (l ++ k).Nodup := by
  have hnodup := h.represents.nodup
  by_cases hidle : s.phase = .idle
  · rw [h.idle hidle, List.append_nil]
    exact (List.nodup_append.mp (List.nodup_cons.mp hnodup).2).1
  · obtain ⟨queue, hqueues⟩ := WalkPhase.exists_queue hidle
    rw [hqueues] at hnodup
    exact (List.nodup_cons.mp hnodup).2.sublist (by simp)

/-- A new handle goes to the tail of the handles of the loop. -/
theorem Shape.initialised (h : s.Shape l k) {handle : α} (internal : Bool)
    (hnew : handle ∉ Queues.nodes ((s.head, s.handles) :: s.phase.queues [])) :
    (s.uvHandleInit handle internal).Shape (l ++ [handle]) k where
  represents := h.represents.queueInsertTail fun hmem => hnew (h.mem_nodes.mp hmem)
  perm := by
    rw [List.append_assoc]
    exact List.perm_middle.trans (h.perm.cons handle)
  idle := h.idle

/-- Taking a handle out of the second queue leaves the first. -/
theorem queueRemove_local {m : Links α} {head queue q : α} (k₁ : List α) {k₂ : List α}
    (hrep : m.Represents [(head, l), (queue, k₁ ++ q :: k₂)]) :
    (m.queueRemove q).Represents [(head, l), (queue, k₁ ++ k₂)] :=
  (hrep.of_perm (List.Perm.swap _ _ [])).queueRemove.of_perm (List.Perm.swap _ _ [])

/-- A handle whose close ends goes out of the queue it is in. -/
theorem Shape.closed (h : s.Shape l k) {handle : α} (hmem : handle ∈ s.handles) :
    (s.uvFinishClose handle).Shape (l.erase handle) (k.erase handle) := by
  have hdisjoint := List.disjoint_of_nodup_append h.nodup
  have hperm := h.perm.erase handle
  by_cases hl : handle ∈ l
  · have hk : handle ∉ k := fun hk => hdisjoint hl hk
    rw [List.erase_append_left _ hl] at hperm
    rw [List.erase_of_not_mem hk]
    obtain ⟨l₁, l₂, -, rfl, herase⟩ := List.exists_erase_eq hl
    rw [herase] at hperm ⊢
    exact ⟨h.represents.queueRemove, hperm, h.idle⟩
  · have hk : handle ∈ k := (List.mem_append.mp (h.perm.mem_iff.mpr hmem)).resolve_left hl
    have hidle : s.phase ≠ .idle := fun hidle => List.not_mem_nil (h.idle hidle ▸ hk)
    obtain ⟨queue, hqueues⟩ := WalkPhase.exists_queue hidle
    rw [List.erase_append_right _ hl] at hperm
    rw [List.erase_of_not_mem hl]
    obtain ⟨k₁, k₂, -, rfl, herase⟩ := List.exists_erase_eq hk
    rw [herase] at hperm ⊢
    refine ⟨?_, hperm, fun hidle' => absurd hidle' hidle⟩
    change (s.links.queueRemove handle).Represents ((s.head, l) :: s.phase.queues (k₁ ++ k₂))
    have hrep := h.represents
    rw [hqueues] at hrep ⊢
    exact queueRemove_local k₁ hrep

/-- `uv_walk` moves all the handles to its own queue. -/
theorem Shape.walks (h : s.Shape l k) {queue : α} (hidle : s.phase = .idle)
    (hnew : queue ∉ s.head :: s.handles) : k = [] ∧ (s.uvWalk queue).Shape [] l := by
  have hk := h.idle hidle
  subst hk
  have hperm := h.perm
  have hrep := h.represents
  rw [hidle] at hrep
  rw [List.append_nil] at hperm
  refine ⟨rfl, hrep.queueMove fun hmem => hnew ?_, hperm, fun hloop => by cases hloop⟩
  rw [Queues.nodes, WalkPhase.queues_idle, List.flatMap_singleton] at hmem
  exact (hperm.cons s.head).mem_iff.mp hmem

/-- A handle goes from the local queue to the one of the loop. -/
theorem Shape.putBack {queue q : α} (h : s.Shape l (q :: k)) (hphase : s.phase = .loop queue) :
    (s.putBack q).links.Represents [(s.head, l ++ [q]), (queue, k)] ∧ (l ++ [q] ++ k).Perm s.handles := by
  have hrep := h.represents
  rw [hphase, WalkPhase.queues_loop] at hrep
  have hperm : (Queues.nodes [(s.head, l), (queue, q :: k)]).Perm
      (q :: Queues.nodes [(s.head, l), (queue, k)]) := by
    simp only [Queues.nodes, List.flatMap_cons, List.flatMap_nil, List.append_nil, List.cons_append]
    rw [List.append_cons, List.append_cons l queue k]
    exact @List.perm_middle α q (s.head :: (l ++ [queue])) k
  have hq := (List.nodup_cons.mp (hperm.nodup_iff.mp hrep.nodup)).1
  rw [List.append_assoc, List.singleton_append]
  exact ⟨(queueRemove_local [] hrep).queueInsertTail hq, h.perm⟩

/-- **A step does to the memory what it does to the two queues.** -/
theorem Shape.step (h : s.Shape l k) (hstep : s.step e = some s') :
    ∃ l' k', Moves s l k e s' l' k' ∧ s'.Shape l' k' := by
  cases e with
  | init handle internal =>
    rw [HandleQueue.step] at hstep
    split_ifs at hstep with hallowed
    cases hstep
    refine ⟨l ++ [handle], k, .initialised l k handle internal fun hmem => hallowed.2 ?_,
      h.initialised internal hallowed.2⟩
    exact List.mem_append_left _ (List.mem_cons_of_mem _ hmem)
  | finishClose handle =>
    rw [HandleQueue.step] at hstep
    split_ifs at hstep with hallowed
    cases hstep
    exact ⟨_, _, .closed l k handle, h.closed hallowed.2⟩
  | walk queue =>
    rw [HandleQueue.step] at hstep
    split_ifs at hstep with hallowed
    cases hstep
    obtain ⟨rfl, hshape⟩ := h.walks hallowed.1 hallowed.2
    exact ⟨[], l, .walks l queue hallowed.1, hshape⟩
  | round =>
    rw [HandleQueue.step] at hstep
    split at hstep
    next queue hphase =>
      cases hstep
      have hrep := h.represents
      rw [hphase, WalkPhase.queues_loop] at hrep
      have hring := hrep.ring (queue, k) (by simp)
      cases k with
      | nil =>
        rw [uvWalkRound, if_pos (by rw [hring.queueEmpty]; rfl)]
        exact ⟨l, [], .ended l queue hphase, (hrep.of_perm (List.Perm.swap _ _ [])).tail, h.perm, fun _ => rfl⟩
      | cons q k =>
        obtain ⟨hrep', hperm⟩ := h.putBack hphase
        rw [uvWalkRound, if_neg (by rw [hring.queueEmpty]; simp)]
        dsimp only
        rw [hring.queueHead]
        split
        next hinternal =>
          refine ⟨_, _, .passed l k queue q hphase hinternal, ?_, hperm, fun hidle => ?_⟩
          · change (s.putBack q).links.Represents ((s.head, l ++ [q]) :: s.phase.queues k)
            rw [hphase]
            exact hrep'
          · cases hphase.symm.trans hidle
        next hinternal =>
          refine ⟨_, _, .called l k queue q hphase (Bool.not_eq_true _ ▸ hinternal), hrep', hperm,
            fun hidle => ?_⟩
          cases hidle
    next => cases hstep
  | «return» =>
    rw [HandleQueue.step] at hstep
    split at hstep
    next queue handle hphase =>
      cases hstep
      have hrep := h.represents
      rw [hphase, WalkPhase.queues_callback] at hrep
      exact ⟨l, k, .returned l k queue handle hphase, hrep, h.perm, fun hidle => by cases hidle⟩
    next => cases hstep

/-- In every state that is reached, the handles are in the two queues. -/
theorem exists_shape {m : Links α} {head : α} (hrun : run step (initial m head) es = some s) :
    ∃ l k, s.Shape l k :=
  run_invariant (I := fun s : HandleQueue α => ∃ l k, s.Shape l k)
    (fun _ _ _ ⟨_, _, h⟩ hstep => (h.step hstep).imp fun _ ⟨k, _, h⟩ => ⟨k, h⟩)
    ⟨[], [], shape_initial m head⟩ hrun

/-- What is read from memory is the list. -/
theorem Shape.queue_eq (h : s.Shape l k) : s.queue = l := by
  have hring := h.represents.ring (s.head, l) List.mem_cons_self
  have hlength : l.length ≤ s.handles.length := by
    rw [← h.perm.length_eq, List.length_append]
    exact Nat.le_add_right _ _
  exact hring.queueForeach (Nat.lt_succ_of_le hlength)

/-! ### A walk -/

/-- What a walk has done when some events have followed its call. -/
structure Walked (todo : List α) (rounds : ℕ) (hist : List (WalkEvent α)) (s : HandleQueue α) (k : List α) :
    Prop where
  sublist : (s.called ++ s.external k).Sublist todo
  kept : ∀ handle ∈ todo, .finishClose handle ∉ hist → handle ∈ s.called ++ s.external k
  rounds_le : hist.count .round + k.length + s.phase.exits ≤ rounds

variable {todo : List α} {rounds : ℕ} {hist : List (WalkEvent α)}

/-- One event within the walk keeps what is said of the handles visited so far. -/
theorem Walked.moves (h : s.Walked todo rounds hist k) (hm : Moves s l k e s' l' k')
    (he : ∀ queue, e ≠ .walk queue) (hk : ∀ handle ∈ k, handle ∈ s.handles) :
    s'.Walked todo rounds (hist ++ [e]) k' := by
  obtain ⟨hsub, hkept, hrounds⟩ := h
  have hkept' : ∀ handle ∈ todo, .finishClose handle ∉ hist ++ [e] → handle ∈ s.called ++ s.external k :=
    fun handle hmem hnot => hkept handle hmem fun hhist => hnot (List.mem_append_left _ hhist)
  cases hm with
  | initialised _ handle internal hnew =>
    have hext : (s.uvHandleInit handle internal).external k = s.external k := by
      refine List.filter_congr fun x hx => ?_
      have hne : x ≠ handle := fun heq => hnew (heq ▸ hk x hx)
      exact congrArg _ (Function.update_of_ne hne ..)
    refine ⟨hext ▸ hsub, hext ▸ hkept', ?_⟩
    rw [List.count_append]
    exact hrounds
  | closed _ handle =>
    refine ⟨?_, fun x hx hnot => ?_, ?_⟩
    · exact ((List.erase_sublist.filter _).append_left _).trans hsub
    · have hne : x ≠ handle := by
        rintro rfl
        exact hnot (List.mem_append_right _ List.mem_cons_self)
      rcases List.mem_append.mp (hkept' x hx hnot) with hcalled | hmem
      · exact List.mem_append_left _ hcalled
      · obtain ⟨hmem, hexternal⟩ := List.mem_filter.mp hmem
        exact List.mem_append_right _ (List.mem_filter.mpr ⟨(List.mem_erase_of_ne hne).mpr hmem, hexternal⟩)
    · rw [List.count_append]
      have hle : (k.erase handle).length ≤ k.length := List.erase_sublist.length_le
      exact Nat.le_trans (Nat.add_le_add_right (Nat.add_le_add_left hle _) _) hrounds
  | walks queue hidle => exact absurd rfl (he queue)
  | ended queue hphase =>
    refine ⟨hsub, hkept', ?_⟩
    rw [List.count_append]
    rw [hphase] at hrounds
    exact hrounds
  | passed _ queue q hphase hinternal =>
    have hext : s.external (q :: k') = s.external k' := List.filter_cons_of_neg (by simp [hinternal])
    rw [hext] at hsub hkept'
    refine ⟨hsub, hkept', ?_⟩
    rw [List.count_append, List.count_singleton_self, Nat.add_assoc _ 1, Nat.add_comm 1]
    exact hrounds
  | called _ queue q hphase hinternal =>
    have hext : s.external (q :: k') = q :: s.external k' := List.filter_cons_of_pos (by simp [hinternal])
    rw [hext, List.append_cons s.called q] at hsub hkept'
    refine ⟨hsub, hkept', ?_⟩
    rw [hphase] at hrounds
    rw [List.count_append, List.count_singleton_self, Nat.add_assoc _ 1, Nat.add_comm 1]
    exact hrounds
  | returned _ queue q hphase =>
    refine ⟨hsub, hkept', ?_⟩
    rw [List.count_append]
    rw [hphase] at hrounds
    exact hrounds

/-- So does any run from the start of the walk to the end of it. -/
theorem Walked.of_run {queue : α} (h : s.Shape l []) (hrun : run step s (.walk queue :: es) = some s')
    (hone : ∀ queue, .walk queue ∉ es) :
    ∃ l' k', s'.Shape l' k' ∧ s'.Walked (s.external l) (l.length + 1) es k' := by
  obtain ⟨s₁, hstep, hrun'⟩ := run_cons_eq_some.mp hrun
  obtain ⟨l₁, k₁, hm, hshape⟩ := h.step hstep
  have hfirst : s₁.Walked (s.external l) (l.length + 1) [] k₁ := by
    cases hm with
    | walks _ hidle =>
      refine ⟨List.Sublist.refl _, fun handle hmem _ => hmem, ?_⟩
      rw [List.count_nil, Nat.zero_add]
      exact Nat.le_refl _
  have hinv : (∀ queue, .walk queue ∉ [] ++ es) →
      ∃ l' k', s'.Shape l' k' ∧ s'.Walked (s.external l) (l.length + 1) ([] ++ es) k' := by
    refine run_invariant_history (I := fun (hist : List (WalkEvent α)) (s' : HandleQueue α) =>
        (∀ queue, .walk queue ∉ hist) →
          ∃ l' k', s'.Shape l' k' ∧ s'.Walked (s.external l) (l.length + 1) hist k')
      (fun hist s₂ e s₃ ih hstep hone => ?_) (fun _ => ⟨l₁, k₁, hshape, hfirst⟩) hrun'
    obtain ⟨l₂, k₂, hshape₂, hwalked⟩ := ih fun queue hmem => hone queue (List.mem_append_left _ hmem)
    obtain ⟨l₃, k₃, hm, hshape₃⟩ := hshape₂.step hstep
    refine ⟨l₃, k₃, hshape₃, hwalked.moves hm ?_ fun handle hmem => ?_⟩
    · rintro queue rfl
      exact hone queue (List.mem_append_right _ List.mem_cons_self)
    · exact hshape₂.perm.mem_iff.mp (List.mem_append_right _ hmem)
  exact hinv hone

/-- A walk starts when no other walk is in progress. -/
theorem idle_of_walk {queue : α} (hrun : run step s (.walk queue :: es) = some s') : s.phase = .idle := by
  obtain ⟨s₁, hstep, -⟩ := run_cons_eq_some.mp hrun
  rw [step] at hstep
  split_ifs at hstep with hallowed
  exact hallowed.1

/-- Three handles, one of which is internal. -/
def threeInits : List (WalkEvent ℕ) := [.init 10 false, .init 11 true, .init 12 false]

/-- The handles of a loop whose memory was used for something else. -/
def threeHandles : HandleQueue ℕ :=
  (((initial ⟨fun _ => 10, fun _ => 2⟩ 1).uvHandleInit 10 false).uvHandleInit 11 true).uvHandleInit 12 false

/-- Three handles are initialised on a new loop. -/
theorem run_threeInits : run step (initial ⟨fun _ => 10, fun _ => 2⟩ 1) threeInits = some threeHandles := rfl

/-- In the first callback, a handle is initialised and another one is closed. -/
def changingWalk : List (WalkEvent ℕ) := [.round, .init 13 false, .finishClose 12, .return, .round, .round]

/-- The example run starts no second walk. -/
theorem walk_not_mem_changingWalk : ∀ queue, .walk queue ∉ changingWalk := by
  intro queue hmem
  simp [changingWalk] at hmem

section Walks

variable {m : Links α} {head queue : α}

/-- **A walk calls the callback once for each handle.** Whatever is initialised and closed meanwhile: the
callback is called in the order of the queue for handles that were in it, for none of them twice, for no internal
one, and for each other one that is not closed before the walk has returned. -/
theorem walk_calls_each_handle (hrun : run step (initial m head) es = some s)
    (hwalk : run step s (.walk queue :: es') = some s') (hone : ∀ queue, .walk queue ∉ es') :
    s'.called.Sublist (s.external s.queue) ∧ s'.called.Nodup ∧
      (s'.phase = .idle → ∀ handle ∈ s.handles, s.internal handle = false → .finishClose handle ∉ es' →
        handle ∈ s'.called) := by
  obtain ⟨l, k, h⟩ := exists_shape hrun
  obtain rfl := h.idle (idle_of_walk hwalk)
  obtain ⟨l', k', h', hwalked⟩ := Walked.of_run h hwalk hone
  have hsub : s'.called.Sublist (s.external l) := (List.sublist_append_left _ _).trans hwalked.sublist
  have hnodup := h.nodup
  rw [List.append_nil] at hnodup
  rw [h.queue_eq]
  refine ⟨hsub, (hnodup.sublist List.filter_sublist).sublist hsub, fun hidle handle hmem hexternal hnot => ?_⟩
  have hl : handle ∈ l := by
    rw [← h.perm.mem_iff, List.append_nil] at hmem
    exact hmem
  have hkept := hwalked.kept handle (List.mem_filter.mpr ⟨hl, by simp [hexternal]⟩) hnot
  rw [h'.idle hidle] at hkept
  exact (List.mem_append.mp hkept).resolve_right List.not_mem_nil

/-- A walk whose callback closes one handle and opens another: each handle is called at most once, and the
first one is. -/
theorem walk_calls_each_handle_changing : ∃ s, run step threeHandles (.walk 2 :: changingWalk) = some s ∧
    s.called.Sublist (threeHandles.external threeHandles.queue) ∧ 10 ∈ s.called := by
  refine exists_last_of_map phase (show _ = some .idle by decide) fun s hrun hidle => ?_
  obtain ⟨hsub, -, hall⟩ := walk_calls_each_handle run_threeInits hrun walk_not_mem_changingWalk
  exact ⟨hsub, hall hidle 10 (by decide) rfl (by decide)⟩

/-- **A walk returns.** Its loop has one round for each handle that was in the queue, and one more, also
where every callback initialises handles, and nothing stops it on the way. -/
theorem walk_returns (hrun : run step (initial m head) es = some s)
    (hwalk : run step s (.walk queue :: es') = some s') (hone : ∀ queue, .walk queue ∉ es') :
    es'.count .round ≤ s.handles.length + 1 ∧
      (s'.phase = .idle ∨ (s'.step .round).isSome = true ∨ (s'.step .return).isSome = true) := by
  obtain ⟨l, k, h⟩ := exists_shape hrun
  obtain rfl := h.idle (idle_of_walk hwalk)
  obtain ⟨l', k', h', hwalked⟩ := Walked.of_run h hwalk hone
  have hlength := h.perm.length_eq
  rw [List.append_nil] at hlength
  constructor
  · rw [← hlength]
    exact Nat.le_trans (Nat.le_add_right _ _) (Nat.le_trans (Nat.le_add_right _ _) hwalked.rounds_le)
  · cases hphase : s'.phase with
    | idle => exact .inl rfl
    | loop queue =>
      rw [step, hphase]
      exact .inr (.inl rfl)
    | callback queue handle =>
      refine .inr (.inr ?_)
      rw [step, hphase]
      rfl

/-- The walk of the example takes at most four rounds. -/
theorem walk_returns_changing : ∃ s, run step threeHandles (.walk 2 :: changingWalk) = some s ∧
    changingWalk.count .round ≤ 4 := by
  refine exists_last (by decide) fun s hrun => ?_
  exact (walk_returns run_threeInits hrun walk_not_mem_changingWalk).1

/-- **No handle is lost.** Outside of `uv_walk`, the queue of the loop has every handle once, and
`uv_loop_close` finds out whether there is one. -/
theorem handles_in_queue (hrun : run step (initial m head) es = some s) (hidle : s.phase = .idle) :
    s.queue.Perm s.handles ∧ s.queue.Nodup ∧
      ∀ activeReqs, s.uvLoopCloseBusy activeReqs = true ↔
        activeReqs = true ∨ ∃ handle ∈ s.handles, s.internal handle = false := by
  obtain ⟨l, k, h⟩ := exists_shape hrun
  obtain rfl := h.idle hidle
  have hperm := h.perm
  have hnodup := h.nodup
  rw [List.append_nil] at hperm hnodup
  rw [h.queue_eq]
  refine ⟨hperm, hnodup, fun activeReqs => ?_⟩
  rw [uvLoopCloseBusy, h.queue_eq]
  simp only [Bool.or_eq_true, List.any_eq_true, Bool.not_eq_true', hperm.mem_iff]

/-- After it the queue holds the handles that are open, and the loop is busy. -/
theorem handles_in_queue_changing : ∃ s, run step threeHandles (.walk 2 :: changingWalk) = some s ∧
    s.queue.Perm [13, 11, 10] ∧ s.uvLoopCloseBusy false = true := by
  have hmap : (run step threeHandles (.walk 2 :: changingWalk)).map
      (fun s => (s.phase, s.handles, s.internal 13)) = some (.idle, [13, 11, 10], false) := by decide
  refine exists_last_of_map _ hmap fun s hrun hlast => ?_
  obtain ⟨hidle, hlast⟩ := Prod.mk.inj hlast
  obtain ⟨hhandles, hexternal⟩ := Prod.mk.inj hlast
  have hrun' : run step (initial ⟨fun _ => 10, fun _ => 2⟩ 1) (threeInits ++ .walk 2 :: changingWalk) =
      some s := by
    rw [run_append, run_threeInits, Option.bind_some]
    exact hrun
  obtain ⟨hperm, -, hbusy⟩ := handles_in_queue hrun' hidle
  rw [hhandles] at hperm hbusy
  exact ⟨hperm, (hbusy false).mpr (.inr ⟨13, List.mem_cons_self, hexternal⟩)⟩

end Walks

end HandleQueue

end MyUvpp
