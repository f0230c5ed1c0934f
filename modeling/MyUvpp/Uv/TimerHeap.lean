import MyUvpp.Foundation.TransitionSystem
import MyUvpp.Uv.HeapSpec
import MyUvpp.Uv.Timer

/-! # The heap of the timers

The heap of a loop holds the timers that are active, and every function of `timer.c` leaves it so: no call
follows a null pointer. What the functions do to the timers is said by `Stopped` and `Activated`. -/

namespace MyUvpp

namespace TimerLoop

variable {s s' : TimerLoop} {a b : ℕ}

/-! ### The order -/

/-- `timer_less_than`: the timeout decides, and between equal timeouts the number of the start. -/
theorem key_lt_iff : s.key a < s.key b ↔ (s.timers a).timeout < (s.timers b).timeout ∨
    (s.timers a).timeout = (s.timers b).timeout ∧ (s.timers a).startId < (s.timers b).startId :=
  Prod.Lex.toLex_lt_toLex

/-- `timer_less_than` is the order of the timers. -/
theorem timerLessThan_iff (s : TimerLoop) (a b : ℕ) : s.timerLessThan a b = true ↔ s.key a < s.key b := by
  rw [key_lt_iff, timerLessThan]
  split_ifs with hab hba hid
  · exact iff_of_true rfl (.inl hab)
  · exact iff_of_false nofun (by omega)
  · exact iff_of_true rfl (.inr ⟨by omega, hid⟩)
  · exact iff_of_false nofun (by omega)

/-! ### The invariant -/

/-- The start of an active timer, from the fields that it left in the timer. -/
def startOf (s : TimerLoop) (addr : ℕ) : TimerStart :=
  ⟨addr, (s.timers addr).timerCb.getD 0, (s.timers addr).timeout, (s.timers addr).startId⟩

/-- The heap holds the active timers, which are among `handles`, and their starts are numbered. -/
structure Inv (handles : Finset ℕ) (s : TimerLoop) : Prop where
  heap : ∃ set ⊆ handles, s.timerHeap.IsHeap s.key set ∧ ∀ a, a ∈ set ↔ (s.timers a).active = true
  timerCb : ∀ a, (s.timers a).active = true → (s.timers a).timerCb ≠ none
  repeat_lt : ∀ a, (s.timers a).repeatValue < 2 ^ 64
  time_lt : s.time < 2 ^ 64
  startOf_mem : ∀ a, (s.timers a).active = true → s.startOf a ∈ s.started
  started_lt : ∀ x ∈ s.started, x.startId < s.timerCounter
  started_inj : ∀ x ∈ s.started, ∀ y ∈ s.started, x.startId = y.startId → x = y

variable {handles : Finset ℕ}

/-- The start of an active timer says where it comes. -/
theorem key_eq_of_startOf (h : s'.startOf a = s.startOf a) : s'.key a = s.key a :=
  congrArg TimerStart.key h

/-- A loop just initialised has no active timer and an empty heap. -/
theorem inv_initial {time : ℕ} (htime : time < 2 ^ 64) (nodes : ℕ → HeapNode) :
    (initial time nodes).Inv handles where
  heap := ⟨∅, Finset.empty_subset _, UvHeap.isHeap_init _ nodes, fun a => by simp [initial]⟩
  timerCb _ h := by cases h
  repeat_lt _ := by simp [initial]
  time_lt := htime
  startOf_mem _ h := by cases h
  started_lt _ h := absurd h List.not_mem_nil
  started_inj _ h := absurd h List.not_mem_nil

/-- The timer just written is the one read. -/
@[simp] theorem timers_setTimer (s : TimerLoop) (addr : ℕ) (timer : TimerHandle) :
    (s.setTimer addr timer).timers addr = timer := Function.update_self _ _ _

/-- Writing one timer leaves the others. -/
theorem timers_setTimer_of_ne (s : TimerLoop) {addr : ℕ} (ha : a ≠ addr) (timer : TimerHandle) :
    (s.setTimer addr timer).timers a = s.timers a := Function.update_of_ne ha _ _

/-- Two active timers with the same number are the same. -/
theorem Inv.eq_of_startId (h : s.Inv handles) (ha : (s.timers a).active = true)
    (hb : (s.timers b).active = true) (heq : (s.timers a).startId = (s.timers b).startId) : a = b :=
  congrArg TimerStart.addr
    (h.started_inj _ (h.startOf_mem a ha) _ (h.startOf_mem b hb) heq)

/-- The heap holds the active timers, and no others. -/
theorem Inv.holds_iff (h : s.Inv handles) (a : ℕ) : s.timerHeap.Holds a ↔ (s.timers a).active = true := by
  obtain ⟨set, -, hheap, hactive⟩ := h.heap
  exact hheap.holds_iff.trans (hactive a)

/-- And `nelts` counts them. -/
theorem Inv.nelts_eq (h : s.Inv handles) :
    s.timerHeap.nelts = (handles.filter fun a => (s.timers a).active = true).card := by
  obtain ⟨set, hsub, hheap, hactive⟩ := h.heap
  have hset : set = handles.filter fun a => (s.timers a).active = true := by
    ext a
    rw [Finset.mem_filter, ← hactive a]
    exact (and_iff_right_of_imp fun ha => hsub ha).symm
  rw [hheap.nelts_eq, hset]

/-- **The first timer**: no other active timer comes before it, or at the same place. -/
theorem Inv.heapMin_spec (h : s.Inv handles) :
    (s.timerHeap.heapMin = none ↔ ∀ a, (s.timers a).active = false) ∧
      ∀ a ∈ s.timerHeap.heapMin, (s.timers a).active = true ∧
        ∀ b, (s.timers b).active = true → b ≠ a → s.key a < s.key b := by
  obtain ⟨set, -, hheap, hactive⟩ := h.heap
  obtain ⟨hnone, hmin⟩ := hheap.heapMin_spec
  constructor
  · rw [hnone, Finset.eq_empty_iff_forall_notMem]
    simp only [hactive, Bool.not_eq_true]
  · intro a ha
    obtain ⟨hmem, hle⟩ := hmin a ha
    have hact := (hactive a).mp hmem
    refine ⟨hact, fun b hb hne => (hle b ((hactive b).mpr hb)).lt_of_ne fun heq => hne ?_⟩
    exact h.eq_of_startId hb hact (congrArg (fun k => (ofLex k).2) heq.symm)

/-! ### Stopping and starting -/

/-- What `uv_timer_stop` does to a loop, apart from the heap. -/
structure Stopped (s : TimerLoop) (addr : ℕ) (s' : TimerLoop) : Prop where
  timer : s'.timers addr = { s.timers addr with active := false }
  others : ∀ a, a ≠ addr → s'.timers a = s.timers a
  time : s'.time = s.time
  timerCounter : s'.timerCounter = s.timerCounter
  started : s'.started = s.started
  fired : s'.fired = s.fired

/-- A timer that is active after a stop was active before, and is another one. -/
theorem Stopped.active (h : s.Stopped a s') (hb : (s'.timers b).active = true) :
    b ≠ a ∧ (s.timers b).active = true := by
  by_cases heq : b = a
  · rw [heq, h.timer] at hb
    cases hb
  · exact ⟨heq, h.others b heq ▸ hb⟩

/-- The start of another timer is the same after a stop. -/
theorem Stopped.startOf_eq (h : s.Stopped a s') (hb : b ≠ a) : s'.startOf b = s.startOf b := by
  rw [startOf, startOf, h.others b hb]

/-- Stopping changes the order of no timers. -/
theorem Stopped.key_eq (h : s.Stopped a s') (b : ℕ) : s'.key b = s.key b := by
  rw [key, key]
  by_cases hb : b = a
  · rw [hb, h.timer]
  · rw [h.others b hb]

/-- A stop that takes the timer out of the heap keeps the invariant. -/
theorem Inv.stopped (h : s.Inv handles) (hstop : s.Stopped a s')
    (hheap : ∃ set ⊆ handles, s'.timerHeap.IsHeap s.key set ∧
      ∀ b, b ∈ set ↔ b ≠ a ∧ (s.timers b).active = true) : s'.Inv handles where
  heap := by
    obtain ⟨set, hsub, hheap, hset⟩ := hheap
    refine ⟨set, hsub, hheap.congr fun b _ => hstop.key_eq b, fun b => ?_⟩
    rw [hset]
    refine ⟨fun hb => (hstop.others b hb.1).symm ▸ hb.2, hstop.active⟩
  timerCb := by
    intro b hb
    obtain ⟨hne, hactive⟩ := hstop.active hb
    rw [hstop.others b hne]
    exact h.timerCb b hactive
  repeat_lt := by
    intro b
    by_cases hb : b = a
    · rw [hb, hstop.timer]
      exact h.repeat_lt a
    · rw [hstop.others b hb]
      exact h.repeat_lt b
  time_lt := hstop.time ▸ h.time_lt
  startOf_mem := by
    intro b hb
    obtain ⟨hne, hactive⟩ := hstop.active hb
    rw [hstop.startOf_eq hne, hstop.started]
    exact h.startOf_mem b hactive
  started_lt := by
    rw [hstop.started, hstop.timerCounter]
    exact h.started_lt
  started_inj := by
    rw [hstop.started]
    exact h.started_inj

/-- **`uv_timer_stop`** takes a timer out of the heap. -/
theorem Inv.uvTimerStop (h : s.Inv handles) (addr : ℕ) :
    ∃ s', s.uvTimerStop addr = some s' ∧ s'.Inv handles ∧ s.Stopped addr s' := by
  obtain ⟨set, hsub, hheap, hset⟩ := h.heap
  rw [TimerLoop.uvTimerStop]
  split
  case isTrue hactive =>
    obtain ⟨timerHeap, hremove, hheap'⟩ :=
      hheap.heapRemove s.timerLessThan_iff ((hset addr).mpr hactive)
    have hstop : s.Stopped addr
        ({ s with timerHeap }.setTimer addr { s.timers addr with active := false }) :=
      ⟨timers_setTimer _ _ _, fun b hb => timers_setTimer_of_ne _ hb _, rfl, rfl, rfl, rfl⟩
    rw [hremove]
    refine ⟨_, rfl, h.stopped hstop ⟨set.erase addr, ?_, hheap', fun b => ?_⟩, hstop⟩
    · exact (Finset.erase_subset addr set).trans hsub
    · rw [Finset.mem_erase, hset]
  case isFalse hactive =>
    refine ⟨s, rfl, h, ?_, fun _ _ => rfl, rfl, rfl, rfl, rfl⟩
    rw [← Bool.eq_false_of_not_eq_true hactive]

/-- What an activation does to a loop. -/
structure Activated (s : TimerLoop) (start : TimerStart) (repeatValue : ℕ) (s' : TimerLoop) : Prop where
  timer : s'.timers start.addr = ⟨(s.timers start.addr).initialized, true, some start.timerCb,
    start.timeout, repeatValue, start.startId⟩
  others : ∀ a, a ≠ start.addr → s'.timers a = s.timers a
  time : s'.time = s.time
  timerCounter : s'.timerCounter = s.timerCounter + 1
  started : s'.started = s.started ++ [start]
  fired : s'.fired = s.fired

/-- The timer just started has the start recorded. -/
theorem Activated.startOf_self {start : TimerStart} {r : ℕ} (h : s.Activated start r s') :
    s'.startOf start.addr = start := by
  rw [startOf, h.timer]
  rfl

/-- The start of another timer is the same after it. -/
theorem Activated.startOf_eq {start : TimerStart} {r : ℕ} (h : s.Activated start r s')
    (hb : b ≠ start.addr) : s'.startOf b = s.startOf b := by
  rw [startOf, startOf, h.others b hb]

/-- A start that puts the timer into the heap keeps the invariant. -/
theorem Inv.activated (h : s.Inv handles) {start : TimerStart} {r : ℕ}
    (hact : s.Activated start r s') (hid : start.startId = s.timerCounter) (hrepeat : r < 2 ^ 64)
    (hheap : ∃ set ⊆ handles, s'.timerHeap.IsHeap s'.key set ∧
      ∀ b, b ∈ set ↔ b = start.addr ∨ (s.timers b).active = true) : s'.Inv handles where
  heap := by
    obtain ⟨set, hsub, hheap, hset⟩ := hheap
    refine ⟨set, hsub, hheap, fun b => ?_⟩
    rw [hset]
    by_cases hb : b = start.addr
    · rw [hb, hact.timer]
      exact iff_of_true (.inl rfl) rfl
    · rw [hact.others b hb]
      exact or_iff_right hb
  timerCb := by
    intro b hb
    by_cases heq : b = start.addr
    · rw [heq, hact.timer]
      exact nofun
    · rw [hact.others b heq] at hb ⊢
      exact h.timerCb b hb
  repeat_lt := by
    intro b
    by_cases hb : b = start.addr
    · rw [hb, hact.timer]
      exact hrepeat
    · rw [hact.others b hb]
      exact h.repeat_lt b
  time_lt := hact.time ▸ h.time_lt
  startOf_mem := by
    intro b hb
    rw [hact.started]
    by_cases heq : b = start.addr
    · rw [heq, hact.startOf_self]
      exact List.mem_append_right _ (List.mem_singleton_self _)
    · rw [hact.startOf_eq heq]
      exact List.mem_append_left _ (h.startOf_mem b (hact.others b heq ▸ hb))
  started_lt := by
    rw [hact.started, hact.timerCounter]
    intro x hx
    rcases List.mem_append.mp hx with hx | hx
    · exact (h.started_lt x hx).trans (Nat.lt_succ_self _)
    · rw [List.mem_singleton.mp hx, hid]
      exact Nat.lt_succ_self _
  started_inj := by
    rw [hact.started]
    -- the number of the new start is greater than all others
    have hne : ∀ x ∈ s.started, x.startId ≠ start.startId := fun x hx =>
      hid ▸ Nat.ne_of_lt (h.started_lt x hx)
    intro x hx y hy heq
    rcases List.mem_append.mp hx with hx | hx
    · rcases List.mem_append.mp hy with hy | hy
      · exact h.started_inj x hx y hy heq
      · rw [List.mem_singleton.mp hy] at heq
        exact absurd heq (hne x hx)
    · rw [List.mem_singleton.mp hx] at heq ⊢
      rcases List.mem_append.mp hy with hy | hy
      · exact absurd heq.symm (hne y hy)
      · exact (List.mem_singleton.mp hy).symm

/-- **An activation** puts a timer into the heap. -/
theorem Inv.activate (h : s.Inv handles) {addr repeatValue : ℕ} (timerCb timeout : ℕ)
    (hinactive : (s.timers addr).active = false) (hmem : addr ∈ handles)
    (hcard : handles.card < 2 ^ 32) (hcounter : s.timerCounter + 1 < 2 ^ 64)
    (hrepeat : repeatValue < 2 ^ 64) :
    ∃ s', s.activate addr timerCb timeout repeatValue = some s' ∧ s'.Inv handles ∧
      s.Activated ⟨addr, timerCb, s.clampedTimeout timeout, s.timerCounter⟩ repeatValue s' := by
  obtain ⟨set, hsub, hheap, hset⟩ := h.heap
  have hnot : addr ∉ set := by
    rw [hset, hinactive]
    exact Bool.false_ne_true
  have hsize : set.card + 1 < 2 ^ 32 := by
    rw [← Finset.card_insert_of_notMem hnot]
    exact (Finset.card_le_card (Finset.insert_subset hmem hsub)).trans_lt hcard
  -- the heap does not see the fields of a timer that is not active
  generalize hs₁ : ({ s.setTimer addr { s.timers addr with
      timerCb := some timerCb
      timeout := s.clampedTimeout timeout
      repeatValue
      startId := s.timerCounter } with timerCounter := (s.timerCounter + 1) % 2 ^ 64 } : TimerLoop) = s₁
  have hself : s₁.timers addr = { s.timers addr with
      timerCb := some timerCb
      timeout := s.clampedTimeout timeout
      repeatValue
      startId := s.timerCounter } := by
    rw [← hs₁]
    exact timers_setTimer _ _ _
  have hother : ∀ b, b ≠ addr → s₁.timers b = s.timers b := by
    intro b hb
    rw [← hs₁]
    exact timers_setTimer_of_ne _ hb _
  have hheap₁ : s.timerHeap.IsHeap s₁.key set := hheap.congr fun b hb => by
    rw [key, key, hother b fun heq => hnot (heq ▸ hb)]
  obtain ⟨timerHeap, hinsert, hheap₂⟩ := hheap₁.heapInsert s₁.timerLessThan_iff hnot hsize
  have hact : s.Activated ⟨addr, timerCb, s.clampedTimeout timeout, s.timerCounter⟩ repeatValue
      (({ s₁ with
          timerHeap
          started := s₁.started ++
            [(⟨addr, timerCb, s.clampedTimeout timeout, s.timerCounter⟩ : TimerStart)] } :
        TimerLoop).setTimer addr { s₁.timers addr with active := true }) := by
    refine ⟨?_, fun b hb => ?_, ?_, ?_, ?_, ?_⟩
    · rw [timers_setTimer, hself]
    · exact (timers_setTimer_of_ne _ hb _).trans (hother b hb)
    · rw [← hs₁]
      rfl
    · rw [← hs₁]
      exact Nat.mod_eq_of_lt hcounter
    · rw [← hs₁]
      rfl
    · rw [← hs₁]
      rfl
  refine ⟨_, ?_, h.activated hact rfl hrepeat ⟨insert addr set, ?_, ?_, fun b => ?_⟩, hact⟩
  · rw [← hs₁]
    rw [← hs₁] at hinsert
    exact congrArg (Option.map _) hinsert
  · exact Finset.insert_subset hmem hsub
  · refine hheap₂.congr fun b _ => ?_
    by_cases hb : b = addr
    · rw [hb, key, key, timers_setTimer]
    · rw [key, key, timers_setTimer_of_ne _ hb]
  · rw [Finset.mem_insert, hset]

/-! ### The functions -/

/-- Stopping a timer twice is stopping it once. -/
theorem Stopped.trans {s'' : TimerLoop} (h : s.Stopped a s') (h' : s'.Stopped a s'') : s.Stopped a s'' where
  timer := by rw [h'.timer, h.timer]
  others b hb := (h'.others b hb).trans (h.others b hb)
  time := h'.time.trans h.time
  timerCounter := h'.timerCounter.trans h.timerCounter
  started := h'.started.trans h.started
  fired := h'.fired.trans h.fired

/-- When a timer will expire does not depend on the other timers. -/
theorem Stopped.clampedTimeout_eq (h : s.Stopped a s') (timeout : ℕ) :
    s'.clampedTimeout timeout = s.clampedTimeout timeout := by
  rw [clampedTimeout, clampedTimeout, h.time]

/-- What `uv_timer_start` does to a loop: a stop, and then a start. -/
def Restarted (s : TimerLoop) (addr timerCb timeout repeatValue : ℕ) (s' : TimerLoop) : Prop :=
  ∃ s₁, s.Stopped addr s₁ ∧
    s₁.Activated ⟨addr, timerCb, s.clampedTimeout timeout, s.timerCounter⟩ repeatValue s'

/-- **`uv_timer_start`** stops a timer and activates it. -/
theorem Inv.uvTimerStart (h : s.Inv handles) {addr repeatValue : ℕ} (timerCb timeout : ℕ)
    (hmem : addr ∈ handles)
    (hcard : handles.card < 2 ^ 32) (hcounter : s.timerCounter + 1 < 2 ^ 64)
    (hrepeat : repeatValue < 2 ^ 64) :
    ∃ s', s.uvTimerStart addr (some timerCb) timeout repeatValue = some (0, s') ∧ s'.Inv handles ∧
      s.Restarted addr timerCb timeout repeatValue s' := by
  obtain ⟨s₁, hs₁, hinv₁, hstop⟩ := h.uvTimerStop addr
  have hinactive : (s₁.timers addr).active = false := by rw [hstop.timer]
  rw [← hstop.timerCounter] at hcounter
  obtain ⟨s', hs', hinv', hact⟩ :=
    hinv₁.activate timerCb timeout hinactive hmem hcard hcounter hrepeat
  refine ⟨s', ?_, hinv', s₁, hstop, ?_⟩
  · rw [TimerLoop.uvTimerStart, hs₁, Option.bind_some, hs', Option.map_some]
  · rw [hstop.clampedTimeout_eq, hstop.timerCounter] at hact
    exact hact

/-- **`uv_timer_again`** starts a timer that repeats, and does nothing to another one. -/
theorem Inv.uvTimerAgain (h : s.Inv handles) {addr : ℕ} (hmem : addr ∈ handles)
    (hcard : handles.card < 2 ^ 32) (hcounter : s.timerCounter + 1 < 2 ^ 64) :
    ∃ r s', s.uvTimerAgain addr = some (r, s') ∧ s'.Inv handles ∧
      (((s.timers addr).timerCb = none ∨ (s.timers addr).repeatValue = 0) ∧ s' = s ∨
        (s.timers addr).repeatValue ≠ 0 ∧
          s.Restarted addr ((s.timers addr).timerCb.getD 0) (s.timers addr).repeatValue
            (s.timers addr).repeatValue s') := by
  rw [TimerLoop.uvTimerAgain]
  split_ifs with hcb hzero
  · exact ⟨_, s, rfl, h, .inl ⟨.inl hcb, rfl⟩⟩
  · obtain ⟨timerCb, htimerCb⟩ := Option.ne_none_iff_exists'.mp hcb
    obtain ⟨s₁, hs₁, hinv₁, hstop⟩ := h.uvTimerStop addr
    have htimer := hstop.timer
    obtain ⟨s', hs', hinv', s₂, hstop', hact⟩ :=
      hinv₁.uvTimerStart timerCb (s₁.timers addr).repeatValue hmem hcard
        (hstop.timerCounter ▸ hcounter) (hinv₁.repeat_lt addr)
    refine ⟨0, s', ?_, hinv', .inr ⟨hzero, s₂, hstop.trans hstop', ?_⟩⟩
    · have hcb₁ : (s₁.timers addr).timerCb = some timerCb := by
        rw [htimer]
        exact htimerCb
      rw [hs₁, Option.bind_some, hcb₁, hs', Option.map_some]
    · rw [htimerCb, Option.getD_some]
      rw [hstop.clampedTimeout_eq, hstop.timerCounter, htimer] at hact
      exact hact
  · exact ⟨_, s, rfl, h, .inl ⟨.inr (not_not.mp hzero), rfl⟩⟩

/-- A timer that is set up anew while it is not active, or whose repeat value is set. -/
theorem Inv.setTimer (h : s.Inv handles) (addr : ℕ) (timer : TimerHandle)
    (hactive : timer.active = (s.timers addr).active)
    (hsame : timer.active = true → timer.timerCb = (s.timers addr).timerCb ∧
      timer.timeout = (s.timers addr).timeout ∧ timer.startId = (s.timers addr).startId)
    (hrepeat : timer.repeatValue < 2 ^ 64) :
    (s.setTimer addr timer).Inv handles ∧
      (∀ b, ((s.setTimer addr timer).timers b).active = (s.timers b).active) ∧
      ∀ b, (s.timers b).active = true → (s.setTimer addr timer).startOf b = s.startOf b := by
  have hact : ∀ b, ((s.setTimer addr timer).timers b).active = (s.timers b).active := by
    intro b
    by_cases hb : b = addr
    · rw [hb, timers_setTimer, hactive]
    · rw [timers_setTimer_of_ne s hb]
  have hstart : ∀ b, (s.timers b).active = true → (s.setTimer addr timer).startOf b = s.startOf b := by
    intro b hb
    by_cases heq : b = addr
    · obtain ⟨htimerCb, htimeout, hstartId⟩ := hsame (hactive.trans (heq ▸ hb))
      rw [heq, startOf, startOf, timers_setTimer, htimerCb, htimeout, hstartId]
    · rw [startOf, startOf, timers_setTimer_of_ne s heq]
  refine ⟨⟨?_, fun b hb => ?_, fun b => ?_, h.time_lt, fun b hb => ?_, h.started_lt, h.started_inj⟩,
    hact, hstart⟩
  · obtain ⟨set, hsub, hheap, hset⟩ := h.heap
    refine ⟨set, hsub, hheap.congr fun b hb => ?_, fun b => by rw [hset, hact]⟩
    exact key_eq_of_startOf (hstart b ((hset b).mp hb))
  · by_cases heq : b = addr
    · rw [heq, timers_setTimer] at hb ⊢
      rw [(hsame hb).1]
      exact h.timerCb addr (hactive ▸ hb)
    · rw [timers_setTimer_of_ne s heq] at hb ⊢
      exact h.timerCb b hb
  · by_cases heq : b = addr
    · rw [heq, timers_setTimer]
      exact hrepeat
    · rw [timers_setTimer_of_ne s heq]
      exact h.repeat_lt b
  · rw [hact] at hb
    rw [hstart b hb]
    exact h.startOf_mem b hb

/-- Record that a callback has been called. -/
def fire (s : TimerLoop) (f : TimerStart × ℕ) : TimerLoop := { s with fired := s.fired ++ [f] }

/-- Recording a firing keeps the invariant. -/
theorem Inv.fire (h : s.Inv handles) (f : TimerStart × ℕ) : (s.fire f).Inv handles :=
  ⟨h.heap, h.timerCb, h.repeat_lt, h.time_lt, h.startOf_mem, h.started_lt, h.started_inj⟩

/-- **A round of `uv__run_timers`** stops the timer, calls its callback, and activates the timer again if
it repeats. -/
theorem Inv.uvRunTimer (h : s.Inv handles) {addr : ℕ} (hactive : (s.timers addr).active = true)
    (hmem : addr ∈ handles) (hcard : handles.card < 2 ^ 32) (hcounter : s.timerCounter + 1 < 2 ^ 64) :
    ∃ s₁ s', s.uvRunTimer addr = some s' ∧ s'.Inv handles ∧ s.Stopped addr s₁ ∧
      ((s.timers addr).repeatValue = 0 ∧ s' = s₁.fire (s.startOf addr, s.time) ∨
        (s.timers addr).repeatValue ≠ 0 ∧ ∃ s₂, s' = s₂.fire (s.startOf addr, s.time) ∧
          s₁.Activated ⟨addr, (s.timers addr).timerCb.getD 0,
            s.clampedTimeout (s.timers addr).repeatValue, s.timerCounter⟩
            (s.timers addr).repeatValue s₂) := by
  obtain ⟨s₁, hs₁, hinv₁, hstop⟩ := h.uvTimerStop addr
  obtain ⟨r, s₂, hs₂, hinv₂, hagain⟩ :=
    hinv₁.uvTimerAgain hmem hcard (hstop.timerCounter ▸ hcounter)
  have hrun : s.uvRunTimer addr = some (s₂.fire (s.startOf addr, s₂.time)) := by
    rw [TimerLoop.uvRunTimer]
    dsimp only
    rw [hs₁, Option.bind_some, hs₂]
    rfl
  rw [hstop.timer] at hagain
  rcases hagain with ⟨hnone, rfl⟩ | ⟨hrepeat, s₃, hstop', hact⟩
  · refine ⟨s₂, _, hrun, hinv₂.fire _, hstop, .inl ⟨?_, by rw [hstop.time]⟩⟩
    exact hnone.resolve_left (h.timerCb addr hactive)
  · rw [hstop.clampedTimeout_eq, hstop.timerCounter] at hact
    have htime : s₂.time = s.time := (hact.time.trans hstop'.time).trans hstop.time
    exact ⟨s₃, _, hrun, hinv₂.fire _, hstop.trans hstop',
      .inr ⟨hrepeat, s₂, by rw [htime], hact⟩⟩

end TimerLoop

end MyUvpp
