import MyUvpp.Uv.TimerChanges

/-! # When timers fire

Whatever callbacks do with the timers: a start is fired at most once and never early, and the starts fire
in the order of their timeouts. A timer that nobody touches fires when its time has come, and one that has
been stopped does not. A pass of `uv__run_timers` ends. -/

namespace MyUvpp

namespace TimerLoop

/-- The timers that a run is about are fewer than the heap can count, and the starts fewer than
`timer_counter` can. -/
structure Usage (handles : Finset ℕ) (time : ℕ) (es : List TimerEvent) : Prop where
  time_lt : time < 2 ^ 64
  handles_lt : handles.card < 2 ^ 32
  events_lt : es.length < 2 ^ 64
  addr_mem : ∀ e ∈ es, ∀ a ∈ e.addr, a ∈ handles

variable {handles : Finset ℕ} {time : ℕ} {nodes : ℕ → HeapNode} {es es' : List TimerEvent}
  {s s' : TimerLoop} {a : ℕ}

/-- What holds behind every run of a new loop. -/
theorem Usage.inv (h : Usage handles time es) (hrun : run step (initial time nodes) es = some s) :
    s.Inv handles ∧ s.FiredInv ∧ s.timerCounter ≤ es.length := by
  obtain ⟨hinv, hle, hchanges⟩ := (inv_initial h.time_lt nodes).of_run h.handles_lt h.addr_mem
    ((Nat.zero_add es.length).trans_lt h.events_lt) hrun
  exact ⟨hinv, (firedInv_initial time nodes).changes hchanges, hle.trans_eq (Nat.zero_add _)⟩

/-- The first part of a run. -/
theorem Usage.left (h : Usage handles time (es ++ es')) : Usage handles time es where
  time_lt := h.time_lt
  handles_lt := h.handles_lt
  events_lt := (List.length_append ▸ Nat.le_add_right _ _).trans_lt h.events_lt
  addr_mem e he := h.addr_mem e (List.mem_append_left _ he)

/-- The changes of a second part of a run. -/
theorem Usage.changes (h : Usage handles time (es ++ es')) (hrun : run step (initial time nodes) es = some s)
    (hrun' : run step s es' = some s') : Changes (fun a => ∃ e ∈ es', e.addr = some a) s s' := by
  have hlt := h.events_lt
  rw [List.length_append] at hlt
  obtain ⟨hinv, -, hle⟩ := h.left.inv hrun
  exact (hinv.of_run h.handles_lt (fun e he => h.addr_mem e (List.mem_append_right _ he)) (by omega) hrun').2.2

/-- Two timers are started, the second of which repeats. -/
def twoTimers : List TimerEvent := [.init 0, .init 1, .start 0 (some 7) 5 0, .start 1 (some 8) 3 4]

/-- Their times come. -/
def twoRounds : List TimerEvent := [.updateTime 6, .runTimer, .runTimer]

/-- The run with two timers stays within the bounds of a run. -/
theorem usage_twoTimers : Usage {0, 1} 0 (twoTimers ++ twoRounds) :=
  ⟨by decide, by decide, by decide, by decide⟩

/-- **The heap and the timers agree.** Behind every run the nodes of the heap are just the active timers, and
`nelts` is their number; its minimum is the first active timer, and null where none is active. Every call that
is allowed succeeds: no null pointer is followed in the heap. -/
theorem timer_heap_agrees (h : Usage handles time es) (hrun : run step (initial time nodes) es = some s) :
    (∀ a, s.timerHeap.Holds a ↔ (s.timers a).active = true) ∧
      s.timerHeap.nelts = (handles.filter fun a => (s.timers a).active = true).card ∧
      (s.timerHeap.heapMin = none ↔ ∀ a, (s.timers a).active = false) ∧
      (∀ a ∈ s.timerHeap.heapMin, (s.timers a).active = true ∧
        ∀ b, (s.timers b).active = true → b ≠ a → s.key a < s.key b) ∧
      (es.length + 1 < 2 ^ 64 →
        ∀ e, s.Allowed e → (∀ a ∈ e.addr, a ∈ handles) → (s.step e).isSome = true) := by
  obtain ⟨hinv, -, hle⟩ := h.inv hrun
  refine ⟨hinv.holds_iff, hinv.nelts_eq, hinv.heapMin_spec.1, hinv.heapMin_spec.2, fun hlt e hallowed hmem => ?_⟩
  obtain ⟨s', hs', -⟩ := hinv.exists_step hallowed hmem h.handles_lt (by omega)
  exact Option.isSome_iff_exists.mpr ⟨s', hs'⟩

/-- The heap with two timers in it. -/
theorem timer_heap_agrees_two_timers :
    ∃ s, run step (initial 0 fun _ => ⟨none, none, none⟩) twoTimers = some s ∧
      (∀ a, s.timerHeap.Holds a ↔ (s.timers a).active = true) ∧
      s.timerHeap.nelts = (({0, 1} : Finset ℕ).filter fun a => (s.timers a).active = true).card ∧
      (s.timerHeap.heapMin = none ↔ ∀ a, (s.timers a).active = false) ∧
      (∀ a ∈ s.timerHeap.heapMin, (s.timers a).active = true ∧
        ∀ b, (s.timers b).active = true → b ≠ a → s.key a < s.key b) ∧
      (twoTimers.length + 1 < 2 ^ 64 →
        ∀ e, s.Allowed e → (∀ a ∈ e.addr, a ∈ ({0, 1} : Finset ℕ)) → (s.step e).isSome = true) :=
  exists_last (by decide +kernel) fun _ hs => timer_heap_agrees usage_twoTimers.left hs

/-- The time that is left until a timer is due, or `INT_MAX`. -/
def remaining (s : TimerLoop) (a : ℕ) : ℤ := min ((s.timers a).timeout - s.time : ℕ) uvIntMax

/-- **The poll timeout.** Behind every run `uv__next_timeout` is the least of the times that are left until
the active timers are due, so that the loop sleeps through none; with no timers it is -1. -/
theorem uvNextTimeout_least (h : Usage handles time es) (hrun : run step (initial time nodes) es = some s) :
    ((∀ a, (s.timers a).active = false) → s.uvNextTimeout = -1) ∧
      ∀ a, (s.timers a).active = true → s.uvNextTimeout ≤ s.remaining a ∧
        ∃ b, (s.timers b).active = true ∧ s.uvNextTimeout = s.remaining b := by
  obtain ⟨hinv, -, -⟩ := h.inv hrun
  obtain ⟨hnone, hmin⟩ := hinv.heapMin_spec
  constructor
  · intro hinactive
    rw [uvNextTimeout, hnone.mpr hinactive]
  · intro a ha
    cases hb : s.timerHeap.heapMin with
    | none =>
      rw [hnone.mp hb a] at ha
      cases ha
    | some b =>
      obtain ⟨hactive, hfirst⟩ := hmin b hb
      have heq : s.uvNextTimeout = s.remaining b := by
        rw [uvNextTimeout, hb, remaining]
        dsimp only
        split_ifs
        · omega
        · omega
        · omega
      refine ⟨?_, b, hactive, heq⟩
      rw [heq, remaining, remaining]
      by_cases hab : a = b
      · rw [hab]
      · have hkey := key_lt_iff.mp (hfirst a ha hab)
        omega

/-- The loop sleeps until the time of the second timer. -/
theorem uvNextTimeout_least_two_timers :
    ∃ s, run step (initial 0 fun _ => ⟨none, none, none⟩) twoTimers = some s ∧
      ((∀ a, (s.timers a).active = false) → s.uvNextTimeout = -1) ∧
        ∀ a, (s.timers a).active = true → s.uvNextTimeout ≤ s.remaining a ∧
          ∃ b, (s.timers b).active = true ∧ s.uvNextTimeout = s.remaining b :=
  exists_last (by decide +kernel) fun _ hs => uvNextTimeout_least usage_twoTimers.left hs

/-- **The order of the callbacks.** In every run, the starts that are fired have been started, are fired in
the order of their timeouts, and in the order in which they were started where these are equal, hence each
at most once; and none is fired early. -/
theorem timers_fire_in_order (h : Usage handles time es) (hrun : run step (initial time nodes) es = some s) :
    s.fired.Pairwise (fun f g => f.1.key < g.1.key ∧ f.2 ≤ g.2) ∧
      ∀ f ∈ s.fired, f.1 ∈ s.started ∧ f.1.timeout ≤ f.2 ∧ f.2 ≤ s.time := by
  obtain ⟨-, hfired, -⟩ := h.inv hrun
  exact ⟨hfired.sorted, fun f hf => ⟨hfired.started f hf, hfired.due f hf⟩⟩

/-- The second timer is due before the first one. -/
theorem timers_fire_in_order_two_timers :
    ∃ s, run step (initial 0 fun _ => ⟨none, none, none⟩) (twoTimers ++ twoRounds) = some s ∧
      s.fired.map (fun f => f.1.addr) = [1, 0] ∧
      s.fired.Pairwise (fun f g => f.1.key < g.1.key ∧ f.2 ≤ g.2) ∧
      ∀ f ∈ s.fired, f.1 ∈ s.started ∧ f.1.timeout ≤ f.2 ∧ f.2 ≤ s.time :=
  exists_last_of_map (fun s => s.fired.map fun f => f.1.addr) (by decide +kernel) fun _ hs hfired =>
    ⟨hfired, timers_fire_in_order usage_twoTimers hs⟩

/-- **No timer is lost.** A timer that is active, and that is not passed to a function from there on, has
fired once its time has come and `uv__run_timers` has ended, whatever happens to other timers. -/
theorem timer_not_lost (h : Usage handles time (es ++ es'))
    (hrun : run step (initial time nodes) es = some s) (hrun' : run step s es' = some s')
    (hactive : (s.timers a).active = true) (hnot : ∀ e ∈ es', e.addr ≠ some a)
    (hdue : s'.due = none) (htime : (s.timers a).timeout ≤ s'.time) :
    ∃ later, s'.fired = s.fired ++ later ∧ s.startOf a ∈ later.map Prod.fst := by
  have hchanges := h.changes hrun hrun'
  obtain ⟨-, hfired, -⟩ := h.left.inv hrun
  have hrun'' : run step (initial time nodes) (es ++ es') = some s' := by
    rw [run_append, hrun]
    exact hrun'
  obtain ⟨hinv', -, -⟩ := h.inv hrun''
  obtain ⟨later, hlater, -⟩ := (followed_of_changes hchanges).later
  refine ⟨later, hlater, ?_⟩
  have huntouched : ¬ ∃ e ∈ es', e.addr = some a := fun ⟨e, he, hea⟩ => hnot e he hea
  rcases fired_of_changes hactive huntouched hchanges with ⟨hact, hstart⟩ | ⟨t, ht⟩
  · -- it would be due
    have hlt := hinv'.time_lt_of_due hdue hact
    have heq : (s'.timers a).timeout = (s.timers a).timeout := congrArg TimerStart.timeout hstart
    omega
  · rw [hlater] at ht
    rcases List.mem_append.mp ht with hold | hnew
    · exact absurd (hfired.before _ hold a hactive) (lt_irrefl _)
    · exact List.mem_map.mpr ⟨_, hnew, rfl⟩

/-- The first timer fires at last. -/
theorem timer_not_lost_two_timers :
    ∃ s s', run step (initial 0 fun _ => ⟨none, none, none⟩) twoTimers = some s ∧
      run step s twoRounds = some s' ∧
      ∃ later, s'.fired = s.fired ++ later ∧ s.startOf 0 ∈ later.map Prod.fst := by
  have hfirst : (run step (initial 0 fun _ => ⟨none, none, none⟩) twoTimers).map (fun s =>
      ((s.timers 0).active, (s.timers 0).timeout,
        (run step s twoRounds).map fun s' => (s'.due, s'.time))) =
      some (true, 5, some (none, 6)) := by decide +kernel
  obtain ⟨s, hs, hlast⟩ := Option.map_eq_some_iff.mp hfirst
  obtain ⟨s', hs', hlast'⟩ := Option.map_eq_some_iff.mp (congrArg (fun x => x.2.2) hlast)
  have htime : (s.timers 0).timeout ≤ s'.time := by
    have h₁ : (s.timers 0).timeout = 5 := congrArg (fun x => x.2.1) hlast
    have h₂ : s'.time = 6 := congrArg Prod.snd hlast'
    omega
  refine ⟨s, s', hs, hs', ?_⟩
  exact timer_not_lost usage_twoTimers hs hs' (congrArg Prod.fst hlast) (by decide)
    (congrArg Prod.fst hlast') htime

/-- **A stopped timer does not fire.** Behind a call of `uv_timer_stop` the callback of the timer is called
only for a start that is made later. -/
theorem stopped_timer_not_fired {s₁ : TimerLoop} (h : Usage handles time (es ++ .stop a :: es'))
    (hrun : run step (initial time nodes) es = some s) (hstop : s.step (.stop a) = some s₁)
    (hrun' : run step s₁ es' = some s') :
    ∃ later, s'.fired = s.fired ++ later ∧
      ∀ f ∈ later, f.1.addr = a → s.timerCounter ≤ f.1.startId := by
  obtain ⟨hinv, -, -⟩ := h.left.inv hrun
  obtain ⟨s₂, hs₂, -, hstopped⟩ := hinv.uvTimerStop a
  have hs₁ : s₁ = s₂ := by
    have hallowed := allowed_of_step hstop
    unfold TimerLoop.step at hstop
    rw [if_pos hallowed] at hstop
    exact Option.some_injective _ (hstop.symm.trans hs₂)
  subst hs₁
  have hrun₁ : run step (initial time nodes) (es ++ [.stop a]) = some s₁ := by
    rw [run_append, hrun]
    exact run_cons_eq_some.mpr ⟨s₁, hstop, rfl⟩
  rw [List.append_cons] at h
  obtain ⟨later, hlater, hahead⟩ := (followed_of_changes (h.changes hrun₁ hrun')).later
  refine ⟨later, hlater.trans (congrArg (· ++ later) hstopped.fired), fun f hf haddr => ?_⟩
  rcases hahead f hf with ⟨hactive, -⟩ | hle
  · rw [haddr, hstopped.timer] at hactive
    cases hactive
  · exact hstopped.timerCounter.ge.trans hle

/-- The second timer is stopped before its time comes. -/
theorem stopped_timer_not_fired_two_timers :
    ∃ s s₁ s', run step (initial 0 fun _ => ⟨none, none, none⟩) twoTimers = some s ∧
      s.step (.stop 1) = some s₁ ∧ run step s₁ [.updateTime 6, .runTimer] = some s' ∧
      ∃ later, s'.fired = s.fired ++ later ∧
        ∀ f ∈ later, f.1.addr = 1 → s.timerCounter ≤ f.1.startId := by
  have hfirst : (run step (initial 0 fun _ => ⟨none, none, none⟩) twoTimers).map (fun s =>
      (run step s [.stop 1, .updateTime 6, .runTimer]).isSome) = some true := by decide +kernel
  obtain ⟨s, hs, hrest⟩ := Option.map_eq_some_iff.mp hfirst
  obtain ⟨s', hs'⟩ := Option.isSome_iff_exists.mp hrest
  obtain ⟨s₁, hstop, hrun'⟩ := run_cons_eq_some.mp hs'
  have husage : Usage {0, 1} 0 (twoTimers ++ .stop 1 :: [.updateTime 6, .runTimer]) :=
    ⟨by decide, by decide, by decide, by decide⟩
  exact ⟨s, s₁, s', hs, hstop, hrun', stopped_timer_not_fired husage hs hstop hrun'⟩

/-! ### A pass -/

/-- The timers that are due. -/
def dueTimers (handles : Finset ℕ) (s : TimerLoop) : Finset ℕ :=
  handles.filter fun a => (s.timers a).active = true ∧ (s.timers a).timeout ≤ s.time

/-- A timeout that is started is yet to come, if it is not zero and the clock is not at its end. -/
theorem time_lt_clampedTimeout (htime : s.time + 1 < 2 ^ 64) {timeout : ℕ} (hlt : timeout < 2 ^ 64)
    (hne : timeout ≠ 0) : s.time < s.clampedTimeout timeout := by
  rw [clampedTimeout]
  split_ifs
  · omega
  · omega

/-- What a round of `uv__run_timers` does. -/
theorem Inv.round (h : s.Inv handles) (hcard : handles.card < 2 ^ 32) (hdue : s.due = some a)
    (hcounter : s.timerCounter + 1 < 2 ^ 64) (htime : s.time + 1 < 2 ^ 64) :
    ∃ s', s.step .runTimer = some s' ∧ s'.Inv handles ∧ s'.timerCounter ≤ s.timerCounter + 1 ∧
      s'.time = s.time ∧ s'.fired = s.fired ++ [(s.startOf a, s.time)] ∧
      (∀ b, b ≠ a → s'.timers b = s.timers b) ∧
      ((s'.timers a).active = true → s.time < (s'.timers a).timeout) := by
  obtain ⟨hactive, -, -⟩ := h.due_spec hdue
  obtain ⟨s₁, s', hs', hinv', hstop, hround⟩ :=
    h.uvRunTimer hactive (h.mem_handles hactive) hcard hcounter
  have hstep : s.step .runTimer = some s' := by
    have hallowed : s.Allowed .runTimer := Option.isSome_iff_exists.mpr ⟨a, hdue⟩
    unfold TimerLoop.step
    rw [if_pos hallowed]
    dsimp only
    rw [hdue, Option.bind_some, hs']
  refine ⟨s', hstep, hinv', ?_⟩
  rcases hround with ⟨-, rfl⟩ | ⟨hrepeat, s₂, rfl, hact⟩
  · refine ⟨hstop.timerCounter.le.trans (Nat.le_succ _), hstop.time, ?_, hstop.others, fun hfalse => ?_⟩
    · exact congrArg (· ++ [(s.startOf a, s.time)]) hstop.fired
    · have hfalse' : (s₁.timers a).active = true := hfalse
      rw [hstop.timer] at hfalse'
      cases hfalse'
  · refine ⟨(hact.timerCounter.trans (congrArg (· + 1) hstop.timerCounter)).le,
      hact.time.trans hstop.time, ?_, fun b hb => ?_, fun _ => ?_⟩
    · exact congrArg (· ++ [(s.startOf a, s.time)]) (hact.fired.trans hstop.fired)
    · exact (hact.others b hb).trans (hstop.others b hb)
    · have htimeout : (s₂.timers a).timeout = s.clampedTimeout (s.timers a).repeatValue :=
        congrArg TimerHandle.timeout hact.timer
      exact (time_lt_clampedTimeout htime (h.repeat_lt a) hrepeat).trans_eq htimeout.symm

/-- The loop of `uv__run_timers`, where the callbacks do nothing: one timer after the other is due no more. -/
theorem Inv.pass (hcard : handles.card < 2 ^ 32) {n : ℕ} (h : s.Inv handles)
    (hn : (dueTimers handles s).card = n) (hcounter : s.timerCounter + n < 2 ^ 64)
    (htime : s.time + 1 < 2 ^ 64) :
    ∃ later : List ℕ, later.Nodup ∧ later.length = n ∧
      (∀ a, a ∈ later ↔ a ∈ dueTimers handles s) ∧
      ∃ s', run step s (List.replicate n .runTimer) = some s' ∧ s'.due = none ∧
        s'.fired = s.fired ++ later.map fun a => (s.startOf a, s.time) := by
  induction n generalizing s with
  | zero =>
    have hempty := Finset.card_eq_zero.mp hn
    refine ⟨[], List.nodup_nil, rfl, fun a => by simp [hempty], s, rfl, ?_, (List.append_nil _).symm⟩
    cases hdue : s.due with
    | none => rfl
    | some a =>
      obtain ⟨hactive, hle, -⟩ := h.due_spec hdue
      have hmem : a ∈ dueTimers handles s := Finset.mem_filter.mpr ⟨h.mem_handles hactive, hactive, hle⟩
      rw [hempty] at hmem
      cases hmem
  | succ n ih =>
    have hdue : s.due ≠ none := by
      intro hnone
      obtain ⟨b, hb⟩ : (dueTimers handles s).Nonempty := Finset.card_pos.mp (by omega)
      obtain ⟨-, hactive, hle⟩ := Finset.mem_filter.mp hb
      exact absurd (h.time_lt_of_due hnone hactive) (not_lt.mpr hle)
    obtain ⟨a, hdue⟩ := Option.ne_none_iff_exists'.mp hdue
    obtain ⟨hactive, hle, -⟩ := h.due_spec hdue
    obtain ⟨s₁, hs₁, hinv₁, hcounter₁, htime₁, hfired, hothers, hself⟩ :=
      h.round hcard hdue (by omega) htime
    have hmem : a ∈ dueTimers handles s := Finset.mem_filter.mpr ⟨h.mem_handles hactive, hactive, hle⟩
    -- the timer that has fired is the only one that is due no more
    have herase : dueTimers handles s₁ = (dueTimers handles s).erase a := by
      ext b
      rw [Finset.mem_erase, dueTimers, dueTimers, Finset.mem_filter, Finset.mem_filter, htime₁]
      by_cases hb : b = a
      · subst hb
        exact iff_of_false (fun hb => absurd (hself hb.2.1) (not_lt.mpr hb.2.2)) fun hb => hb.1 rfl
      · rw [hothers b hb]
        exact (and_iff_right hb).symm
    have hn₁ : (dueTimers handles s₁).card = n := by
      rw [herase, Finset.card_erase_of_mem hmem, hn]
      rfl
    obtain ⟨later, hnodup, hlength, hiff, s', hrun, hdone, hlater⟩ :=
      ih hinv₁ hn₁ (by omega) (htime₁ ▸ htime)
    rw [herase] at hiff
    have hne : ∀ b ∈ later, b ≠ a := fun b hb => Finset.ne_of_mem_erase ((hiff b).mp hb)
    refine ⟨a :: later, List.nodup_cons.mpr ⟨fun ha => hne a ha rfl, hnodup⟩,
      congrArg (· + 1) hlength, fun b => ?_, s', run_cons_eq_some.mpr ⟨s₁, hs₁, hrun⟩, hdone, ?_⟩
    · rw [List.mem_cons, hiff, Finset.mem_erase]
      by_cases hb : b = a
      · exact iff_of_true (.inl hb) (hb ▸ hmem)
      · rw [or_iff_right hb, and_iff_right hb]
    · have hmap : later.map (fun b => (s₁.startOf b, s.time)) = later.map fun b => (s.startOf b, s.time) :=
        List.map_congr_left fun b hb => by rw [startOf, startOf, hothers b (hne b hb)]
      rw [hlater, hfired, htime₁, hmap, List.append_assoc]
      rfl

/-- **`uv__run_timers` ends.** Behind every run, if the callbacks leave the timers alone, each timer that is
due is called once, in one round, and then none is due, though timers that repeat have been started
again. -/
theorem run_timers_ends (h : Usage handles time es) (hrun : run step (initial time nodes) es = some s)
    (hlength : es.length + handles.card < 2 ^ 64) (htime : s.time + 1 < 2 ^ 64) :
    ∃ later : List ℕ, later.Nodup ∧
      (∀ a, a ∈ later ↔ (s.timers a).active = true ∧ (s.timers a).timeout ≤ s.time) ∧
      ∃ s', run step s (List.replicate later.length .runTimer) = some s' ∧ s'.due = none ∧
        s'.fired = s.fired ++ later.map fun a => (s.startOf a, s.time) := by
  obtain ⟨hinv, -, hle⟩ := h.inv hrun
  have hcard : (dueTimers handles s).card ≤ handles.card := Finset.card_le_card (Finset.filter_subset _ _)
  obtain ⟨later, hnodup, hlater, hiff, s', hrun', hdue, hfired⟩ :=
    hinv.pass h.handles_lt rfl (by omega) htime
  refine ⟨later, hnodup, fun a => ?_, s', hlater ▸ hrun', hdue, hfired⟩
  rw [hiff, dueTimers, Finset.mem_filter]
  exact and_iff_right_of_imp fun h => hinv.mem_handles h.1

/-- Both timers are due at the same time. -/
theorem run_timers_ends_two_timers :
    ∃ s, run step (initial 0 fun _ => ⟨none, none, none⟩) (twoTimers ++ [.updateTime 6]) = some s ∧
      ∃ later : List ℕ, later.Nodup ∧
        (∀ a, a ∈ later ↔ (s.timers a).active = true ∧ (s.timers a).timeout ≤ s.time) ∧
        ∃ s', run step s (List.replicate later.length .runTimer) = some s' ∧ s'.due = none ∧
          s'.fired = s.fired ++ later.map fun a => (s.startOf a, s.time) := by
  have husage : Usage {0, 1} 0 (twoTimers ++ [.updateTime 6]) :=
    ⟨by decide, by decide, by decide, by decide⟩
  refine exists_last_of_map (fun s => s.time) (b := 6) (by decide +kernel) fun s hs htime => ?_
  exact run_timers_ends husage hs (by decide) (by rw [htime]; decide)

end TimerLoop

end MyUvpp
