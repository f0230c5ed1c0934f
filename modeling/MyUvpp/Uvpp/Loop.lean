import Mathlib.Data.List.Count
import Mathlib.Logic.Function.Basic
import MyUvpp.Foundation.TransitionSystem

/-! # The owner of a loop (`loop.hpp`)

Every `uv::Loop` works on the default loop of libuv, of which there is one: the constructor asks for it
and initialises it once more, the move operations copy the pointer, and the destructor closes the loop
it points to. A successful initialisation by a constructor has a number, which goes with the pointer
when it is copied, so that the calls of `uv_loop_close` can be counted for each of them. No request is
started on the loop. -/

namespace MyUvpp

/-- The result of `uv_loop_init`: success, or a failure before or after the queues of the loop have been
emptied. -/
inductive LoopInitResult where
  | ok
  | failsBefore
  | failsAfter
  deriving DecidableEq

/-- `default_loop_struct`, the one loop that all objects of the class share. -/
structure UvLoop where
  /-- It has been initialised, and not closed since. -/
  usable : Bool
  /-- The handles in `handle_queue` that are not internal ones, each with the `Loop` through which it
  was registered. -/
  handleQueue : List (ℕ × ℕ)

/-- `uv_loop_init`, whose result says how far it has come. -/
def UvLoop.init (l : UvLoop) : LoopInitResult → UvLoop
  | .ok => ⟨true, []⟩
  | .failsBefore => ⟨false, l.handleQueue⟩
  | .failsAfter => ⟨false, []⟩

/-- After a failure the loop cannot be used. -/
theorem UvLoop.usable_init {l : UvLoop} {r : LoopInitResult} (h : r ≠ .ok) :
    (l.init r).usable = false := by
  cases r with
  | ok => exact absurd rfl h
  | failsBefore | failsAfter => rfl

/-- The handles that are registered through a `Loop`. -/
def handlesOf (queue : List (ℕ × ℕ)) (i : ℕ) : List (ℕ × ℕ) := queue.filter (·.2 = i)

/-- A `uv::Loop`. `m_uv_loop` is the address of the default loop. -/
structure Loop where
  /-- The initialisation that `m_uv_loop` comes from. -/
  init : ℕ
  /-- It has been moved from, and not assigned to since. -/
  movedFrom : Bool

/-- The objects after the pointer of `i` has been copied to `j`. -/
def copyPointer (loops : ℕ → Option Loop) (i j : ℕ) (o : Loop) : ℕ → Option Loop :=
  Function.update (Function.update loops i (some ⟨o.init, true⟩)) j (some ⟨o.init, false⟩)

/-- After a copy or a move of the pointer each object has the initialisation flag it had, or is one that was
there. -/
theorem copyPointer_cases {loops : ℕ → Option Loop} {i j k : ℕ} {o o' : Loop}
    (h : copyPointer loops i j o k = some o') :
    (k = j ∨ k = i) ∧ o'.init = o.init ∨ loops k = some o' := by
  unfold copyPointer at h
  rcases eq_or_ne k j with rfl | hj
  · rw [Function.update_self, Option.some.injEq] at h
    exact .inl ⟨.inl rfl, by rw [← h]⟩
  · rw [Function.update_of_ne hj] at h
    rcases eq_or_ne k i with rfl | hi
    · rw [Function.update_self, Option.some.injEq] at h
      exact .inl ⟨.inr rfl, by rw [← h]⟩
    · rw [Function.update_of_ne hi] at h
      exact .inr h

/-- The default loop and the objects that refer to it. -/
structure LoopWorld where
  /-- `default_loop_ptr` is not null. -/
  defaultLoopPtr : Bool
  loop : UvLoop
  /-- The number of the next object. -/
  created : ℕ
  loops : ℕ → Option Loop
  /-- How often a constructor has initialised the loop with success. -/
  inits : ℕ
  /-- The calls of `uv_loop_close`, each with the initialisation that the pointer came from. -/
  closeCalls : List ℕ
  /-- The object that the last event has constructed or destroyed. -/
  subject : Option ℕ
  /-- The queue before the last event. -/
  queueBefore : List (ℕ × ℕ)

/-- What may happen next: an operation on a `Loop`, or a handle is registered or unregistered. -/
inductive LoopEvent where
  /-- `Loop()`, with the results of `uv_loop_init` in `uv_default_loop` and after it. -/
  | construct (first second : LoopInitResult)
  /-- `Loop(std::move(i))`. -/
  | moveConstruct (i : ℕ)
  /-- `j = std::move(i)`. -/
  | moveAssign (j i : ℕ)
  | destroy (i : ℕ)
  /-- A handle is initialised with the loop of `i`. -/
  | register (i h : ℕ)
  /-- The close of a handle is completed. -/
  | unregister (h : ℕ)

namespace LoopWorld

/-- No loop has been initialised, and no object constructed. -/
def new : LoopWorld where
  defaultLoopPtr := false
  loop := ⟨false, []⟩
  created := 0
  loops _ := none
  inits := 0
  closeCalls := []
  subject := none
  queueBefore := []

variable (s : LoopWorld)

/-- `uv_default_loop`. Where it returns the null pointer, the constructor does not survive the
`uv_loop_init` that follows. -/
def uvDefaultLoop (first : LoopInitResult) : Option LoopWorld :=
  if s.defaultLoopPtr then some s
  else if first = .ok then some { s with defaultLoopPtr := true, loop := s.loop.init .ok }
  else none

/-- The rest of the constructor: the second `uv_loop_init`, and the exception if it fails. -/
def construct (second : LoopInitResult) : LoopWorld :=
  if second = .ok then
    { s with
      loop := s.loop.init .ok
      created := s.created + 1
      loops := Function.update s.loops s.created (some ⟨s.inits, false⟩)
      inits := s.inits + 1 }
  else { s with loop := s.loop.init second, created := s.created + 1 }

/-- `Loop::Loop(Loop&&)` from the object `i`, which keeps its pointer. -/
def moveConstruct (i : ℕ) (o : Loop) : LoopWorld :=
  { s with
    created := s.created + 1
    loops := copyPointer s.loops i s.created o }

/-- `Loop::operator=(Loop&&)`, which leaves the pointer of the other object where it was. -/
def moveAssign (j i : ℕ) (o : Loop) : LoopWorld :=
  if j = i then s else { s with loops := copyPointer s.loops i j o }

/-- `uv_loop_close`: nothing is closed while a handle is registered. -/
def uvLoopClose (init : ℕ) : LoopWorld :=
  let s := { s with closeCalls := init :: s.closeCalls }
  if s.loop.handleQueue = [] then
    { s with loop := { s.loop with usable := false }, defaultLoopPtr := false }
  else s

/-- `Loop::~Loop`, which closes the loop whoever else points to it. -/
def destroy (i : ℕ) (o : Loop) : LoopWorld :=
  { s.uvLoopClose o.init with loops := Function.update s.loops i none }

/-- Keep what the last event was about. -/
def after (before : LoopWorld) (subject : Option ℕ) : LoopWorld :=
  { s with subject, queueBefore := before.loop.handleQueue }

/-- One step; there is none where the event cannot occur. -/
def step (s : LoopWorld) : LoopEvent → Option LoopWorld
  | .construct first second =>
    (s.uvDefaultLoop first).map fun s' => (s'.construct second).after s (some s.created)
  | .moveConstruct i => (s.loops i).map fun o => (s.moveConstruct i o).after s none
  | .moveAssign j i =>
    if s.loops j = none then none
    else (s.loops i).map fun o => (s.moveAssign j i o).after s none
  | .destroy i => (s.loops i).map fun o => (s.destroy i o).after s (some i)
  | .register i h =>
    if s.loops i = none ∨ s.loop.usable = false then none
    else some (({ s with loop := { s.loop with handleQueue := (h, i) :: s.loop.handleQueue } } :
      LoopWorld).after s none)
  | .unregister h =>
    some (({ s with loop := { s.loop with handleQueue := s.loop.handleQueue.filter (·.1 ≠ h) } } :
      LoopWorld).after s none)

/-- The loop has an owner: it is closed at most once for each initialisation, whoever has not been moved
from refers to a loop that is in use, and neither a constructor nor a destructor touches the handles of
another object. -/
structure Owned : Prop where
  closes_init : ∀ t ∈ s.closeCalls, t < s.inits
  closed_once : ∀ t, s.closeCalls.count t ≤ 1
  usable : ∀ i o, s.loops i = some o → o.movedFrom = false → s.loop.usable = true
  undisturbed : ∀ i, s.subject = some i → ∀ j ≠ i,
    handlesOf s.loop.handleQueue j = handlesOf s.queueBefore j

/-- Every object but `i` has been moved from. -/
def OthersMoved (i : ℕ) : Prop := ∀ j ≠ i, ∀ o, s.loops j = some o → o.movedFrom = true

/-- A constructor finds no handle that it would lose, and where it fails nobody who needs the loop; a
move finds the loop in use; a destructor closes it for the first time and under nobody else. -/
def Fits : LoopEvent → Prop
  | .construct _ second =>
    (second = .failsBefore ∨ s.loop.handleQueue = []) ∧ (second = .ok ∨ s.OthersMoved s.created)
  | .moveConstruct _ => s.loop.usable = true
  | .moveAssign j i => j = i ∨ s.loop.usable = true
  | .destroy i =>
    (∀ o, s.loops i = some o → o.init ∉ s.closeCalls) ∧
      (s.loop.handleQueue = [] → s.OthersMoved i)
  | .register _ _ | .unregister _ => True

/-- The invariant of the runs whose steps all fit. -/
structure Inv : Prop where
  owned : s.Owned
  init_lt : ∀ i o, s.loops i = some o → o.init < s.inits
  loops_lt : ∀ i o, s.loops i = some o → i < s.created
  owner_lt : ∀ p ∈ s.loop.handleQueue, p.2 < s.created
  null : s.defaultLoopPtr = false → s.loop.usable = false ∧ s.loop.handleQueue = []

variable {s}

/-- A program that has constructed no loop. -/
theorem Inv.new : new.Inv where
  owned := ⟨by simp [LoopWorld.new], by simp [LoopWorld.new], by simp [LoopWorld.new],
    by simp [LoopWorld.new]⟩
  init_lt := by simp [LoopWorld.new]
  loops_lt := by simp [LoopWorld.new]
  owner_lt := by simp [LoopWorld.new]
  null := by simp [LoopWorld.new]

/-- `uv_default_loop` loses no handle. -/
theorem Inv.uvDefaultLoop {s' : LoopWorld} (h : s.Inv) {first : LoopInitResult}
    (hs' : s.uvDefaultLoop first = some s') :
    ∃ l : UvLoop, s' = { s with defaultLoopPtr := true, loop := l } ∧
      l.handleQueue = s.loop.handleQueue := by
  rw [LoopWorld.uvDefaultLoop] at hs'
  split_ifs at hs' with hptr hok
  · refine ⟨s.loop, ?_, rfl⟩
    rw [← Option.some.inj hs', ← hptr]
  · refine ⟨s.loop.init .ok, (Option.some.inj hs').symm, ?_⟩
    rw [(h.null (by simpa using hptr)).2, UvLoop.init]

/-- The queue before and after a step is the same. -/
theorem undisturbed_of_eq {s' before : LoopWorld} {i : Option ℕ}
    (h : s'.loop.handleQueue = before.loop.handleQueue) :
    ∀ k, (s'.after before i).subject = some k → ∀ j ≠ k,
      handlesOf (s'.after before i).loop.handleQueue j =
        handlesOf (s'.after before i).queueBefore j := by
  intro k _ j _
  exact congrArg (handlesOf · j) h

/-- A constructor that finds the queue empty. -/
theorem Inv.construct_ok {s' : LoopWorld} (h : s.Inv) {l : UvLoop} (hempty : s.loop.handleQueue = [])
    (hs' : s' = { s with defaultLoopPtr := true, loop := l }) :
    ((s'.construct .ok).after s (some s.created)).Inv := by
  subst hs'
  have hloops : ∀ i o, Function.update s.loops s.created (some ⟨s.inits, false⟩) i = some o →
      i = s.created ∧ o.init = s.inits ∨ s.loops i = some o := by
    intro i o hi
    rcases eq_or_ne i s.created with rfl | hne
    · rw [Function.update_self, Option.some.injEq] at hi
      exact .inl ⟨rfl, by rw [← hi]⟩
    · rw [Function.update_of_ne hne] at hi
      exact .inr hi
  refine ⟨⟨fun t ht => ?_, h.owned.closed_once, fun _ _ _ _ => rfl, ?_⟩, fun i o hi => ?_,
    fun i o hi => ?_, by simp [construct, after, UvLoop.init], by simp [construct, after]⟩
  · exact Nat.lt_succ_of_lt (h.owned.closes_init t ht)
  · exact undisturbed_of_eq (by simp [construct, UvLoop.init, hempty])
  · rcases hloops i o hi with ⟨-, hinit⟩ | hold
    · exact hinit ▸ Nat.lt_succ_self _
    · exact Nat.lt_succ_of_lt (h.init_lt i o hold)
  · rcases hloops i o hi with ⟨rfl, -⟩ | hold
    · exact Nat.lt_succ_self _
    · exact Nat.lt_succ_of_lt (h.loops_lt i o hold)

/-- A constructor that fails when nobody needs the loop. -/
theorem Inv.construct_fails {s' : LoopWorld} (h : s.Inv) {l : UvLoop} {second : LoopInitResult}
    (hfail : second ≠ .ok) (hl : l.handleQueue = s.loop.handleQueue)
    (hempty : second = .failsBefore ∨ s.loop.handleQueue = []) (hmoved : s.OthersMoved s.created)
    (hs' : s' = { s with defaultLoopPtr := true, loop := l }) :
    ((s'.construct second).after s (some s.created)).Inv := by
  subst hs'
  have hqueue : (l.init second).handleQueue = s.loop.handleQueue := by
    cases second with
    | ok => exact absurd rfl hfail
    | failsBefore => exact hl
    | failsAfter =>
      rcases hempty with hbefore | hempty
      · cases hbefore
      · rw [hempty, UvLoop.init]
  simp only [construct, hfail, if_false]
  refine ⟨⟨h.owned.closes_init, h.owned.closed_once, fun i o hi hnot => ?_, ?_⟩, h.init_lt,
    fun i o hi => ?_, fun p hp => ?_, fun hnull => by cases hnull⟩
  · have hne : i ≠ s.created := Nat.ne_of_lt (h.loops_lt i o hi)
    exact absurd (hmoved i hne o hi) (by simp [hnot])
  · exact undisturbed_of_eq hqueue
  · exact Nat.lt_succ_of_lt (h.loops_lt i o hi)
  · exact Nat.lt_succ_of_lt (h.owner_lt p (hqueue ▸ hp))

/-- A pointer to a loop in use is copied. -/
theorem Inv.copyPointer {s' : LoopWorld} (h : s.Inv) (husable : s.loop.usable = true) {i j : ℕ} {o : Loop}
    (hi : s.loops i = some o) (hcreated : s.created ≤ s'.created) (hj : j < s'.created)
    (hs' : s' = { s with created := s'.created, loops := MyUvpp.copyPointer s.loops i j o }) :
    (s'.after s none).Inv := by
  have hlt := h.init_lt i o hi
  have hlt' := h.loops_lt i o hi
  rw [hs']
  refine ⟨⟨h.owned.closes_init, h.owned.closed_once, fun _ _ _ _ => husable, fun k hk => by cases hk⟩,
    fun k o' hk => ?_, fun k o' hk => ?_, fun p hp => ?_, h.null⟩
  · rcases copyPointer_cases hk with ⟨-, hinit⟩ | hold
    · exact hinit ▸ hlt
    · exact h.init_lt k o' hold
  · rcases copyPointer_cases hk with ⟨rfl | rfl, -⟩ | hold
    · exact hj
    · exact Nat.lt_of_lt_of_le hlt' hcreated
    · exact Nat.lt_of_lt_of_le (h.loops_lt k o' hold) hcreated
  · exact Nat.lt_of_lt_of_le (h.owner_lt p hp) hcreated

/-- A destructor that closes the loop for the first time, and under nobody else. -/
theorem Inv.destroy (h : s.Inv) {i : ℕ} {o : Loop} (hi : s.loops i = some o)
    (honce : o.init ∉ s.closeCalls) (hothers : s.loop.handleQueue = [] → s.OthersMoved i) :
    ((s.destroy i o).after s (some i)).Inv := by
  have hloops : ∀ k o', Function.update s.loops i none k = some o' → k ≠ i ∧ s.loops k = some o' := by
    intro k o' hk
    rcases eq_or_ne k i with rfl | hne
    · rw [Function.update_self] at hk
      cases hk
    · rw [Function.update_of_ne hne] at hk
      exact ⟨hne, hk⟩
  have hinit : ∀ t ∈ o.init :: s.closeCalls, t < s.inits := by
    intro t ht
    rcases List.mem_cons.mp ht with rfl | ht
    · exact h.init_lt i o hi
    · exact h.owned.closes_init t ht
  have hcount : ∀ t, (o.init :: s.closeCalls).count t ≤ 1 := by
    intro t
    rcases eq_or_ne o.init t with rfl | hne
    · simp [List.count_eq_zero_of_not_mem honce]
    · rw [List.count_cons_of_ne hne]
      exact h.owned.closed_once t
  rw [LoopWorld.destroy, uvLoopClose]
  split_ifs with hempty
  · refine ⟨⟨hinit, hcount, fun k o' hk hnot => ?_, ?_⟩, fun k o' hk => h.init_lt k o' (hloops k o' hk).2,
      fun k o' hk => h.loops_lt k o' (hloops k o' hk).2, h.owner_lt, fun _ => ⟨rfl, hempty⟩⟩
    · obtain ⟨hne, hk⟩ := hloops k o' hk
      exact absurd (hothers hempty k hne o' hk) (by simp [hnot])
    · exact undisturbed_of_eq rfl
  · refine ⟨⟨hinit, hcount, fun k o' hk hnot => ?_, ?_⟩, fun k o' hk => h.init_lt k o' (hloops k o' hk).2,
      fun k o' hk => h.loops_lt k o' (hloops k o' hk).2, h.owner_lt, h.null⟩
    · exact h.owned.usable k o' (hloops k o' hk).2 hnot
    · exact undisturbed_of_eq rfl

/-- Handles come and go. -/
theorem Inv.setQueue (h : s.Inv) {queue : List (ℕ × ℕ)} (howner : ∀ p ∈ queue, p.2 < s.created)
    (hnull : s.defaultLoopPtr = false → s.loop.usable = false ∧ queue = []) :
    (({ s with loop := { s.loop with handleQueue := queue } } : LoopWorld).after s none).Inv :=
  ⟨⟨h.owned.closes_init, h.owned.closed_once, h.owned.usable, fun k hk => by cases hk⟩, h.init_lt,
    h.loops_lt, howner, hnull⟩

/-- Every step that fits keeps the invariant. -/
theorem Inv.step {s' : LoopWorld} (e : LoopEvent) (h : s.Inv) (hfits : s.Fits e)
    (hstep : s.step e = some s') : s'.Inv := by
  cases e with
  | construct first second =>
    obtain ⟨s₁, hs₁, rfl⟩ := Option.map_eq_some_iff.mp hstep
    obtain ⟨l, hs₁, hl⟩ := h.uvDefaultLoop hs₁
    by_cases hok : second = .ok
    · subst hok
      exact h.construct_ok (hfits.1.resolve_left (by simp)) hs₁
    · exact h.construct_fails hok hl hfits.1 (hfits.2.resolve_left hok) hs₁
  | moveConstruct i =>
    obtain ⟨o, hi, rfl⟩ := Option.map_eq_some_iff.mp hstep
    exact h.copyPointer hfits hi (Nat.le_succ _) (Nat.lt_succ_self _) rfl
  | moveAssign j i =>
    rw [LoopWorld.step] at hstep
    split_ifs at hstep with hj
    obtain ⟨o, hi, rfl⟩ := Option.map_eq_some_iff.mp hstep
    rw [LoopWorld.moveAssign]
    split_ifs with hji
    · exact h.setQueue h.owner_lt h.null
    · obtain ⟨oj, hj⟩ := Option.ne_none_iff_exists'.mp hj
      exact h.copyPointer (hfits.resolve_left hji) hi (Nat.le_refl _) (h.loops_lt j oj hj) rfl
  | destroy i =>
    obtain ⟨o, hi, rfl⟩ := Option.map_eq_some_iff.mp hstep
    exact h.destroy hi (hfits.1 o hi) hfits.2
  | register i x =>
    rw [LoopWorld.step] at hstep
    split_ifs at hstep with hbad
    cases hstep
    obtain ⟨hi, husable⟩ := not_or.mp hbad
    obtain ⟨o, hi⟩ := Option.ne_none_iff_exists'.mp hi
    refine h.setQueue (fun p hp => ?_) fun hnull => ?_
    · rcases List.mem_cons.mp hp with rfl | hp
      · exact h.loops_lt i o hi
      · exact h.owner_lt p hp
    · exact absurd (h.null hnull).1 husable
  | unregister x =>
    cases hstep
    refine h.setQueue (fun p hp => h.owner_lt p (List.mem_of_mem_filter hp)) fun hnull => ?_
    rw [(h.null hnull).2, List.filter_nil]
    exact ⟨(h.null hnull).1, rfl⟩

/-- A handle of another object that is in the queue before an event and not after it. -/
theorem Owned.queue_eq_nil {s' : LoopWorld} (h : s'.Owned) {i : ℕ} (hsubject : s'.subject = some i)
    (howner : ∀ p ∈ s'.queueBefore, p.2 < i) (hempty : s'.loop.handleQueue = []) : s'.queueBefore = [] := by
  by_contra hne
  obtain ⟨p, hp⟩ := List.exists_mem_of_ne_nil _ hne
  have hsame := h.undisturbed i hsubject p.2 (Nat.ne_of_lt (howner p hp))
  have hmem : p ∈ handlesOf s'.queueBefore p.2 := List.mem_filter.mpr ⟨hp, by simp⟩
  rw [← hsame, hempty] at hmem
  cases hmem

/-- Every step that does not fit ends the ownership. -/
theorem Inv.not_owned {s' : LoopWorld} (e : LoopEvent) (h : s.Inv) (hfits : ¬ s.Fits e)
    (hstep : s.step e = some s') : ¬ s'.Owned := by
  intro howned
  apply hfits
  cases e with
  | construct first second =>
    obtain ⟨s₁, hs₁, rfl⟩ := Option.map_eq_some_iff.mp hstep
    obtain ⟨l, rfl, hl⟩ := h.uvDefaultLoop hs₁
    have hnil := howned.queue_eq_nil rfl h.owner_lt
    by_cases hok : second = .ok
    · subst hok
      exact ⟨.inr (hnil rfl), .inl rfl⟩
    · refine ⟨?_, .inr fun j hj o ho => ?_⟩
      · cases second with
        | ok => exact absurd rfl hok
        | failsBefore => exact .inl rfl
        | failsAfter => exact .inr (hnil rfl)
      · by_contra hnot
        rw [construct, if_neg hok] at howned
        have husable := howned.usable j o ho (by simpa using hnot)
        rw [after, UvLoop.usable_init hok] at husable
        cases husable
  | moveConstruct i =>
    obtain ⟨o, hi, rfl⟩ := Option.map_eq_some_iff.mp hstep
    exact howned.usable s.created ⟨o.init, false⟩ (Function.update_self _ _ _) rfl
  | moveAssign j i =>
    rw [LoopWorld.step] at hstep
    split_ifs at hstep with hj
    obtain ⟨o, hi, rfl⟩ := Option.map_eq_some_iff.mp hstep
    refine or_iff_not_imp_left.mpr fun hji => ?_
    rw [LoopWorld.moveAssign, if_neg hji] at howned
    exact howned.usable j ⟨o.init, false⟩ (Function.update_self _ _ _) rfl
  | destroy i =>
    obtain ⟨o, hi, rfl⟩ := Option.map_eq_some_iff.mp hstep
    rw [LoopWorld.destroy, uvLoopClose] at howned
    refine ⟨fun o' ho' hmem => ?_, fun hempty j hj o' ho' => ?_⟩
    · obtain rfl : o = o' := Option.some.inj (hi.symm.trans ho')
      have hcount : (o.init :: s.closeCalls).count o.init ≤ 1 := by
        have honce := howned.closed_once o.init
        split_ifs at honce <;> exact honce
      rw [List.count_cons_self] at hcount
      have hpos := List.count_pos_iff.mpr hmem
      omega
    · rw [if_pos hempty] at howned
      by_contra hnot
      have husable := howned.usable j o' ((Function.update_of_ne hj _ _).trans ho') (by simpa using hnot)
      cases husable
  | register | unregister => trivial

end LoopWorld

/-- **When a `Loop` owns its loop.** In every run, the loop is closed at most once for each
initialisation, nobody refers to a closed loop and nobody touches the handles of another, at every
moment, if and only if every constructor finds the queue empty (and fails only when nobody needs the
loop), every move finds the loop in use, and every destructor closes it for the first time and under
nobody else. -/
theorem loop_owned_iff {s' : LoopWorld} {es : List LoopEvent}
    (hrun : run LoopWorld.step LoopWorld.new es = some s') :
    Throughout LoopWorld.step LoopWorld.Owned LoopWorld.new es ↔
      Along LoopWorld.step LoopWorld.Fits LoopWorld.new es :=
  throughout_iff_along (fun _ e _ h hfits => h.step e hfits) (fun _ e _ h hfits => h.not_owned e hfits)
    (fun _ h => h.owned) LoopWorld.Inv.new hrun

/-- A `Loop` that is constructed, moved and used through the new object, after which the empty one is
destroyed last. -/
theorem loop_owned_iff_moved :
    ∃ s', run LoopWorld.step LoopWorld.new
        [.construct .ok .ok, .moveConstruct 0, .register 1 7, .unregister 7, .destroy 1] = some s' ∧
      (Throughout LoopWorld.step LoopWorld.Owned LoopWorld.new
          [.construct .ok .ok, .moveConstruct 0, .register 1 7, .unregister 7, .destroy 1] ↔
        Along LoopWorld.step LoopWorld.Fits LoopWorld.new
          [.construct .ok .ok, .moveConstruct 0, .register 1 7, .unregister 7, .destroy 1]) :=
  exists_last (by decide +kernel) fun _ hs => loop_owned_iff hs

/-- A second `Loop` empties the queue in which the first one has registered a handle. -/
theorem not_loop_owned :
    ¬ Throughout LoopWorld.step LoopWorld.Owned LoopWorld.new
      [.construct .ok .ok, .register 0 7, .construct .ok .ok] := by
  rintro ⟨-, -, -, howned⟩
  exact absurd (howned.undisturbed 1 rfl 0 (by decide)) (by decide)

end MyUvpp
