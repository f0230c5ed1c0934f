import Mathlib.Logic.Relation
import MyUvpp.Foundation.TransitionSystem
import MyUvpp.Uv.TimerHeap

/-! # The steps of the timers

Every step that is allowed succeeds and consists of changes of a few kinds. What holds of every run is
read off these: the order of the callbacks, that a timer nobody touches is not lost, and that none fires
which was not started. -/

namespace MyUvpp

namespace TimerLoop

variable {s s' : TimerLoop} {handles : Finset ℕ} {touched : ℕ → Prop} {a b : ℕ}

/-! ### The changes of a step -/

/-- A timeout that is started is not over. -/
theorem time_le_clampedTimeout (htime : s.time < 2 ^ 64) {timeout : ℕ} (hlt : timeout < 2 ^ 64) :
    s.time ≤ s.clampedTimeout timeout := by
  rw [clampedTimeout]
  split_ifs
  · omega
  · omega

/-- What the steps consist of, where only timers with `touched` are passed to the functions. -/
inductive Change (touched : ℕ → Prop) (s s' : TimerLoop) : Prop where
  | adjusted (active : ∀ a, (s'.timers a).active = (s.timers a).active)
      (startOf : ∀ a, (s.timers a).active = true → s'.startOf a = s.startOf a) (time : s.time ≤ s'.time)
      (timerCounter : s'.timerCounter = s.timerCounter) (started : s'.started = s.started)
      (fired : s'.fired = s.fired)
  | stopped (a : ℕ) (touched : touched a) (stopped : s.Stopped a s')
  | activated (start : TimerStart) (repeatValue : ℕ) (inactive : (s.timers start.addr).active = false)
      (startId : start.startId = s.timerCounter) (time : s.time ≤ start.timeout)
      (activated : s.Activated start repeatValue s')
  | fired (a : ℕ) (active : (s.timers a).active = true) (due : (s.timers a).timeout ≤ s.time)
      (first : ∀ b, (s.timers b).active = true → b ≠ a → s.key a < s.key b) (s₁ : TimerLoop)
      (stopped : s.Stopped a s₁) (eq : s' = s₁.fire (s.startOf a, s.time))

/-- Changes one after the other. -/
abbrev Changes (touched : ℕ → Prop) : TimerLoop → TimerLoop → Prop :=
  Relation.ReflTransGen (Change touched)

/-- A change that touches some timers touches no more than a larger set. -/
theorem Change.mono {touched' : ℕ → Prop} (h : ∀ a, touched a → touched' a)
    (hchange : Change touched s s') : Change touched' s s' := by
  cases hchange with
  | adjusted active startOf time timerCounter started fired =>
    exact .adjusted active startOf time timerCounter started fired
  | stopped a ht hstop => exact .stopped a (h a ht) hstop
  | activated start r inactive startId time hact => exact .activated start r inactive startId time hact
  | fired a active due first s₁ hstop heq => exact .fired a active due first s₁ hstop heq

/-- So does a sequence of changes. -/
theorem Changes.mono {touched' : ℕ → Prop} (hchanges : Changes touched s s')
    (h : ∀ a, touched a → touched' a) : Changes touched' s s' :=
  Relation.ReflTransGen.mono (fun _ _ => Change.mono h) _ _ hchanges

/-- Starting a timer is stopping it and activating it. -/
theorem Restarted.changes {addr timerCb timeout repeatValue : ℕ}
    (h : s.Restarted addr timerCb timeout repeatValue s') (htime : s.time < 2 ^ 64)
    (hlt : timeout < 2 ^ 64) (ht : touched addr) : Changes touched s s' := by
  obtain ⟨s₁, hstop, hact⟩ := h
  refine .tail (.single (.stopped addr ht hstop)) (.activated _ repeatValue ?_ ?_ ?_ hact)
  · rw [hstop.timer]
  · exact hstop.timerCounter.symm
  · rw [hstop.time]
    exact time_le_clampedTimeout htime hlt

/-- A start takes the next number. -/
theorem Restarted.timerCounter {addr timerCb timeout repeatValue : ℕ}
    (h : s.Restarted addr timerCb timeout repeatValue s') : s'.timerCounter = s.timerCounter + 1 := by
  obtain ⟨s₁, hstop, hact⟩ := h
  rw [hact.timerCounter, hstop.timerCounter]

/-- The timer that is due is active and the first one. -/
theorem Inv.due_spec (h : s.Inv handles) (hdue : s.due = some a) :
    (s.timers a).active = true ∧ (s.timers a).timeout ≤ s.time ∧
      ∀ b, (s.timers b).active = true → b ≠ a → s.key a < s.key b := by
  rw [due] at hdue
  cases hmin : s.timerHeap.heapMin with
  | none =>
    rw [hmin] at hdue
    cases hdue
  | some addr =>
    rw [hmin] at hdue
    dsimp only at hdue
    split at hdue
    case isTrue => cases hdue
    case isFalse hle =>
      cases hdue
      obtain ⟨hactive, hfirst⟩ := h.heapMin_spec.2 a hmin
      exact ⟨hactive, not_lt.mp hle, hfirst⟩

/-- **With none due, the time of no active timer has come.** -/
theorem Inv.time_lt_of_due (h : s.Inv handles) (hdue : s.due = none) (hactive : (s.timers a).active = true) :
    s.time < (s.timers a).timeout := by
  rw [due] at hdue
  cases hmin : s.timerHeap.heapMin with
  | none =>
    rw [h.heapMin_spec.1.mp hmin a] at hactive
    cases hactive
  | some addr =>
    rw [hmin] at hdue
    dsimp only at hdue
    split at hdue
    case isFalse => cases hdue
    case isTrue hlt =>
      by_cases ha : a = addr
      · rw [ha]
        exact hlt
      · have hkey := key_lt_iff.mp ((h.heapMin_spec.2 addr hmin).2 a hactive ha)
        omega

/-- The same changes with a record of a callback. -/
theorem Activated.fire {start : TimerStart} {r : ℕ} (h : s.Activated start r s') (f : TimerStart × ℕ) :
    (s.fire f).Activated start r (s'.fire f) where
  timer := h.timer
  others := h.others
  time := h.time
  timerCounter := h.timerCounter
  started := h.started
  fired := congrArg (· ++ [f]) h.fired

/-- The heap holds what is active, if only `handles` are used. -/
theorem Inv.mem_handles (h : s.Inv handles) (hactive : (s.timers a).active = true) : a ∈ handles := by
  obtain ⟨set, hsub, -, hset⟩ := h.heap
  exact hsub ((hset a).mpr hactive)

/-- A call that was answered was one that may be made. -/
theorem allowed_of_step {e : TimerEvent} (h : s.step e = some s') : s.Allowed e := by
  by_contra hnot
  unfold TimerLoop.step at h
  rw [if_neg hnot] at h
  cases h

/-- **No step fails**, and each one consists of changes. -/
theorem Inv.exists_step (h : s.Inv handles) {e : TimerEvent} (hallowed : s.Allowed e)
    (hmem : ∀ a ∈ e.addr, a ∈ handles) (hcard : handles.card < 2 ^ 32)
    (hcounter : s.timerCounter + 1 < 2 ^ 64) :
    ∃ s', s.step e = some s' ∧ s'.Inv handles ∧ s'.timerCounter ≤ s.timerCounter + 1 ∧
      Changes (fun a => e.addr = some a) s s' := by
  unfold TimerLoop.step
  rw [if_pos hallowed]
  cases e with
  | init addr =>
    obtain ⟨hinv, hactive, hstart⟩ := h.setTimer addr
      { s.timers addr with
        initialized := true
        active := false
        timerCb := none
        repeatValue := 0 } (Eq.symm hallowed) nofun (Nat.two_pow_pos 64)
    exact ⟨_, rfl, hinv, Nat.le_succ _, .single (.adjusted hactive hstart le_rfl rfl rfl rfl)⟩
  | start addr cb timeout repeatValue =>
    obtain ⟨-, htimeout, hrepeat⟩ := hallowed
    cases cb with
    | none => exact ⟨s, rfl, h, Nat.le_succ _, .refl⟩
    | some timerCb =>
      obtain ⟨s', hs', hinv', hre⟩ := h.uvTimerStart timerCb timeout (hmem addr rfl)
        hcard hcounter hrepeat
      refine ⟨s', ?_, hinv', hre.timerCounter.le, hre.changes h.time_lt htimeout rfl⟩
      dsimp only
      rw [hs', Option.map_some]
  | stop addr =>
    obtain ⟨s', hs', hinv', hstop⟩ := h.uvTimerStop addr
    exact ⟨s', hs', hinv', hstop.timerCounter.le.trans (Nat.le_succ _), .single (.stopped addr rfl hstop)⟩
  | again addr =>
    obtain ⟨r, s', hs', hinv', hagain⟩ := h.uvTimerAgain (hmem addr rfl) hcard hcounter
    refine ⟨s', ?_, hinv', ?_⟩
    · dsimp only
      rw [hs', Option.map_some]
    · rcases hagain with ⟨-, rfl⟩ | ⟨-, hre⟩
      · exact ⟨Nat.le_succ _, .refl⟩
      · exact ⟨hre.timerCounter.le, hre.changes h.time_lt (h.repeat_lt addr) rfl⟩
  | setRepeat addr repeatValue =>
    obtain ⟨hinv, hactive, hstart⟩ := h.setTimer addr
      { s.timers addr with repeatValue } rfl (fun _ => ⟨rfl, rfl, rfl⟩) hallowed.2
    exact ⟨_, rfl, hinv, Nat.le_succ _, .single (.adjusted hactive hstart le_rfl rfl rfl rfl)⟩
  | updateTime time =>
    refine ⟨_, rfl, { h with time_lt := hallowed.2 }, Nat.le_succ _, .single ?_⟩
    exact .adjusted (fun _ => rfl) (fun _ _ => rfl) hallowed.1 rfl rfl rfl
  | runTimer =>
    obtain ⟨addr, hdue⟩ := Option.isSome_iff_exists.mp hallowed
    obtain ⟨hactive, hle, hfirst⟩ := h.due_spec hdue
    obtain ⟨s₁, s', hs', hinv', hstop, hround⟩ :=
      h.uvRunTimer hactive (h.mem_handles hactive) hcard hcounter
    refine ⟨s', ?_, hinv', ?_⟩
    · dsimp only
      rw [hdue, Option.bind_some, hs']
    · have hfired : Change (fun a => TimerEvent.runTimer.addr = some a) s
          (s₁.fire (s.startOf addr, s.time)) :=
        .fired addr hactive hle hfirst s₁ hstop rfl
      rcases hround with ⟨-, rfl⟩ | ⟨-, s₂, rfl, hact⟩
      · exact ⟨hstop.timerCounter.le.trans (Nat.le_succ _), .single hfired⟩
      · refine ⟨(hact.timerCounter.trans (congrArg (· + 1) hstop.timerCounter)).le,
          .tail (.single hfired) (.activated _ _ ?_ ?_ ?_ (hact.fire _))⟩
        · exact congrArg TimerHandle.active hstop.timer
        · exact hstop.timerCounter.symm
        · exact hstop.time.trans_le (time_le_clampedTimeout h.time_lt (h.repeat_lt addr))

/-! ### Runs -/

/-- A run with its changes. -/
theorem Inv.of_run (hcard : handles.card < 2 ^ 32) {es : List TimerEvent} (h : s.Inv handles)
    (hmem : ∀ e ∈ es, ∀ a ∈ e.addr, a ∈ handles) (hcounter : s.timerCounter + es.length < 2 ^ 64)
    (hrun : run TimerLoop.step s es = some s') :
    s'.Inv handles ∧ s'.timerCounter ≤ s.timerCounter + es.length ∧
      Changes (fun a => ∃ e ∈ es, e.addr = some a) s s' := by
  induction es generalizing s with
  | nil =>
    cases hrun
    exact ⟨h, le_rfl, .refl⟩
  | cons e es ih =>
    obtain ⟨s₁, hs₁, hrun'⟩ := run_cons_eq_some.mp hrun
    rw [List.length_cons] at hcounter ⊢
    obtain ⟨s₂, hs₂, hinv₁, hle, hchanges⟩ :=
      h.exists_step (allowed_of_step hs₁) (hmem e List.mem_cons_self) hcard (by omega)
    obtain rfl : s₁ = s₂ := Option.some_injective _ (hs₁.symm.trans hs₂)
    obtain ⟨hinv', hle', hchanges'⟩ :=
      ih hinv₁ (fun e' he' => hmem e' (List.mem_cons_of_mem e he')) (by omega) hrun'
    refine ⟨hinv', by omega,
      (hchanges.mono fun a ha => ?_).trans (hchanges'.mono fun a ⟨e', he', ha⟩ => ?_)⟩
    · exact ⟨e, List.mem_cons_self, ha⟩
    · exact ⟨e', List.mem_cons_of_mem e he', ha⟩

/-! ### The order of the callbacks -/

/-- The callbacks that have been called are in order, and the timers that are active come behind them. -/
structure FiredInv (s : TimerLoop) : Prop where
  active : ∀ a, (s.timers a).active = true →
    s.startOf a ∈ s.started ∧ (s.timers a).startId < s.timerCounter
  started : ∀ f ∈ s.fired, f.1 ∈ s.started
  startId : ∀ f ∈ s.fired, f.1.startId < s.timerCounter
  due : ∀ f ∈ s.fired, f.1.timeout ≤ f.2 ∧ f.2 ≤ s.time
  sorted : s.fired.Pairwise fun f g => f.1.key < g.1.key ∧ f.2 ≤ g.2
  before : ∀ f ∈ s.fired, ∀ a, (s.timers a).active = true → f.1.key < s.key a

/-- Nothing was started and nothing fired yet. -/
theorem firedInv_initial (time : ℕ) (nodes : ℕ → HeapNode) : (initial time nodes).FiredInv where
  active _ h := by cases h
  started _ h := absurd h List.not_mem_nil
  startId _ h := absurd h List.not_mem_nil
  due _ h := absurd h List.not_mem_nil
  sorted := .nil
  before _ h := absurd h List.not_mem_nil

/-- What is recorded of the firings depends on the active timers, their starts and the records only. -/
theorem FiredInv.adjusted (h : s.FiredInv) (hactive : ∀ a, (s'.timers a).active = (s.timers a).active)
    (hstart : ∀ a, (s.timers a).active = true → s'.startOf a = s.startOf a) (htime : s.time ≤ s'.time)
    (hcounter : s'.timerCounter = s.timerCounter) (hstarted : s'.started = s.started)
    (hfired : s'.fired = s.fired) : s'.FiredInv where
  active := by
    intro a ha
    rw [hactive] at ha
    have hid := congrArg TimerStart.startId (hstart a ha)
    rw [hstart a ha, hstarted, hcounter]
    exact ⟨(h.active a ha).1, hid.trans_lt (h.active a ha).2⟩
  started := by
    rw [hfired, hstarted]
    exact h.started
  startId := by
    rw [hfired, hcounter]
    exact h.startId
  due := by
    rw [hfired]
    exact fun f hf => ⟨(h.due f hf).1, (h.due f hf).2.trans htime⟩
  sorted := by
    rw [hfired]
    exact h.sorted
  before := by
    rw [hfired]
    intro f hf a ha
    rw [hactive] at ha
    rw [key_eq_of_startOf (hstart a ha)]
    exact h.before f hf a ha

/-- Stopping a timer keeps the records. -/
theorem FiredInv.stopped (h : s.FiredInv) (hstop : s.Stopped a s') : s'.FiredInv where
  active := by
    intro b hb
    obtain ⟨hne, hb⟩ := hstop.active hb
    rw [hstop.startOf_eq hne, hstop.others b hne, hstop.started, hstop.timerCounter]
    exact h.active b hb
  started := by
    rw [hstop.fired, hstop.started]
    exact h.started
  startId := by
    rw [hstop.fired, hstop.timerCounter]
    exact h.startId
  due := by
    rw [hstop.fired, hstop.time]
    exact h.due
  sorted := by
    rw [hstop.fired]
    exact h.sorted
  before := by
    rw [hstop.fired]
    intro f hf b hb
    rw [hstop.key_eq]
    exact h.before f hf b (hstop.active hb).2

/-- A start comes behind all callbacks that have been called. -/
theorem FiredInv.activated (h : s.FiredInv) {start : TimerStart} {r : ℕ} (hact : s.Activated start r s')
    (htime : s.time ≤ start.timeout) (hid : start.startId = s.timerCounter) : s'.FiredInv where
  active := by
    intro b hb
    rw [hact.started, hact.timerCounter]
    by_cases heq : b = start.addr
    · rw [heq, hact.startOf_self, hact.timer]
      exact ⟨List.mem_append_right _ (List.mem_singleton_self start), hid.trans_lt (Nat.lt_succ_self _)⟩
    · rw [hact.others b heq] at hb
      rw [hact.startOf_eq heq, hact.others b heq]
      exact ⟨List.mem_append_left _ (h.active b hb).1, (h.active b hb).2.trans (Nat.lt_succ_self _)⟩
  started := by
    rw [hact.fired, hact.started]
    exact fun f hf => List.mem_append_left _ (h.started f hf)
  startId := by
    rw [hact.fired, hact.timerCounter]
    exact fun f hf => (h.startId f hf).trans (Nat.lt_succ_self _)
  due := by
    rw [hact.fired, hact.time]
    exact h.due
  sorted := by
    rw [hact.fired]
    exact h.sorted
  before := by
    rw [hact.fired]
    intro f hf b hb
    by_cases heq : b = start.addr
    · -- its timeout is not before the time, and its number is new
      obtain ⟨hdue, hle⟩ := h.due f hf
      have hlt := h.startId f hf
      have hkey : s'.key start.addr = start.key := congrArg TimerStart.key hact.startOf_self
      rw [heq, hkey, TimerStart.key, TimerStart.key, Prod.Lex.toLex_lt_toLex]
      dsimp only
      omega
    · rw [key_eq_of_startOf (hact.startOf_eq heq)]
      exact h.before f hf b (hact.others b heq ▸ hb)

/-- The first timer comes behind the callbacks and before the other timers. -/
theorem FiredInv.fire (h : s.FiredInv) (hactive : (s.timers a).active = true)
    (hdue : (s.timers a).timeout ≤ s.time)
    (hfirst : ∀ b, (s.timers b).active = true → b ≠ a → s.key a < s.key b) {s₁ : TimerLoop}
    (hstop : s.Stopped a s₁) : (s₁.fire (s.startOf a, s.time)).FiredInv := by
  have h₁ := h.stopped hstop
  have hcases : ∀ {P : TimerStart × ℕ → Prop}, (∀ f ∈ s.fired, P f) → P (s.startOf a, s.time) →
      ∀ f ∈ (s₁.fire (s.startOf a, s.time)).fired, P f := by
    intro P hold hnew f hf
    rcases List.mem_append.mp hf with hf | hf
    · exact hold f (hstop.fired ▸ hf)
    · rw [List.mem_singleton.mp hf]
      exact hnew
  refine ⟨h₁.active, hcases ?_ ?_, hcases ?_ ?_, hcases ?_ ?_, ?_, hcases ?_ ?_⟩
  · exact fun f hf => h₁.started f (hstop.fired.symm ▸ hf)
  · exact hstop.started.symm ▸ (h.active a hactive).1
  · exact fun f hf => h₁.startId f (hstop.fired.symm ▸ hf)
  · exact hstop.timerCounter.symm ▸ (h.active a hactive).2
  · exact fun f hf => h₁.due f (hstop.fired.symm ▸ hf)
  · exact ⟨hdue, hstop.time.ge⟩
  · refine List.pairwise_append.mpr ⟨h₁.sorted, List.pairwise_singleton _ _, fun f hf g hg => ?_⟩
    rw [hstop.fired] at hf
    rw [List.mem_singleton.mp hg]
    exact ⟨h.before f hf a hactive, (h.due f hf).2⟩
  · exact fun f hf => h₁.before f (hstop.fired.symm ▸ hf)
  · intro b hb
    obtain ⟨hne, hb⟩ := hstop.active hb
    exact (hfirst b hb hne).trans_eq (hstop.key_eq b).symm

/-- A sequence of starts and stops keeps the records. -/
theorem FiredInv.changes (h : s.FiredInv) (hchanges : Changes touched s s') : s'.FiredInv := by
  induction hchanges with
  | refl => exact h
  | tail _ hchange ih =>
    cases hchange with
    | adjusted active startOf time timerCounter started fired =>
      exact ih.adjusted active startOf time timerCounter started fired
    | stopped a _ hstop => exact ih.stopped hstop
    | activated start r _ startId time hact => exact ih.activated hact time startId
    | fired a active due first s₁ hstop heq => exact heq ▸ ih.fire active due first hstop

/-! ### Which starts are fired -/

/-- A timer that has been started, is not passed to a function, and is not active any more has fired. -/
theorem fired_of_changes (hactive : (s.timers a).active = true) (hnot : ¬ touched a)
    (hchanges : Changes touched s s') :
    (s'.timers a).active = true ∧ s'.startOf a = s.startOf a ∨ ∃ t, (s.startOf a, t) ∈ s'.fired := by
  induction hchanges with
  | refl => exact .inl ⟨hactive, rfl⟩
  | tail _ hchange ih =>
    cases hchange with
    | adjusted active startOf _ _ _ fired =>
      rw [fired]
      refine ih.imp_left fun ⟨hb, heq⟩ => ⟨(active a).trans hb, (startOf a hb).trans heq⟩
    | stopped b ht hstop =>
      rw [hstop.fired]
      refine ih.imp_left fun ⟨hb, heq⟩ => ?_
      have hne : a ≠ b := fun hab => hnot (hab ▸ ht)
      rw [hstop.startOf_eq hne, hstop.others a hne]
      exact ⟨hb, heq⟩
    | activated start r inactive _ _ hact =>
      rw [hact.fired]
      refine ih.imp_left fun ⟨hb, heq⟩ => ?_
      have hne : a ≠ start.addr := by
        intro hab
        rw [hab, inactive] at hb
        cases hb
      rw [hact.startOf_eq hne, hact.others a hne]
      exact ⟨hb, heq⟩
    | fired b _ _ _ s₁ hstop heq =>
      rw [heq]
      rcases ih with ⟨hb, hstart⟩ | ⟨t, ht⟩
      · by_cases hab : a = b
        · rw [← hab, hstart]
          exact .inr ⟨_, List.mem_append_right _ (List.mem_singleton_self _)⟩
        · refine .inl ⟨?_, ?_⟩
          · exact (congrArg TimerHandle.active (hstop.others a hab)).trans hb
          · exact (hstop.startOf_eq hab).trans hstart
      · rw [← hstop.fired] at ht
        exact .inr ⟨t, List.mem_append_left _ ht⟩

/-- The starts that are not over in a state: those of the active timers, and those still to come. -/
def Ahead (s : TimerLoop) (x : TimerStart) : Prop :=
  (s.timers x.addr).active = true ∧ x = s.startOf x.addr ∨ s.timerCounter ≤ x.startId

/-- What is active or fired behind some changes was ahead before them. -/
structure Followed (s s' : TimerLoop) : Prop where
  timerCounter : s.timerCounter ≤ s'.timerCounter
  active : ∀ a, (s'.timers a).active = true → s.Ahead (s'.startOf a)
  later : ∃ later, s'.fired = s.fired ++ later ∧ ∀ f ∈ later, s.Ahead f.1

/-- Stopping a timer is something a run may do next. -/
theorem Followed.stopped {s'' : TimerLoop} (h : s.Followed s') (hstop : s'.Stopped a s'') :
    s.Followed s'' where
  timerCounter := hstop.timerCounter.symm ▸ h.timerCounter
  active := by
    intro b hb
    obtain ⟨hne, hb⟩ := hstop.active hb
    rw [hstop.startOf_eq hne]
    exact h.active b hb
  later := hstop.fired.symm ▸ h.later

/-- Starting a timer is something a run may do next. -/
theorem Followed.activated {s'' : TimerLoop} {start : TimerStart} {r : ℕ} (h : s.Followed s')
    (hact : s'.Activated start r s'') (hid : start.startId = s'.timerCounter) : s.Followed s'' where
  timerCounter := hact.timerCounter.symm ▸ h.timerCounter.trans (Nat.le_succ _)
  active := by
    intro b hb
    by_cases heq : b = start.addr
    · rw [heq, hact.startOf_self]
      exact .inr (hid.symm ▸ h.timerCounter)
    · rw [hact.others b heq] at hb
      rw [hact.startOf_eq heq]
      exact h.active b hb
  later := hact.fired.symm ▸ h.later

/-- Firing an active timer is something a run may do next. -/
theorem Followed.fire {s'' : TimerLoop} (h : s.Followed s') (hactive : (s'.timers a).active = true)
    (hstop : s'.Stopped a s'') : s.Followed (s''.fire (s'.startOf a, s'.time)) where
  timerCounter := (h.stopped hstop).timerCounter
  active := (h.stopped hstop).active
  later := by
    obtain ⟨later, hlater, hahead⟩ := h.later
    refine ⟨later ++ [(s'.startOf a, s'.time)], ?_, fun f hf => ?_⟩
    · rw [← List.append_assoc, ← hlater, ← hstop.fired]
      rfl
    · rcases List.mem_append.mp hf with hf | hf
      · exact hahead f hf
      · rw [List.mem_singleton.mp hf]
        exact h.active a hactive

/-- A sequence of starts and stops is such a run. -/
theorem followed_of_changes (hchanges : Changes touched s s') : s.Followed s' := by
  induction hchanges with
  | refl => exact ⟨le_rfl, fun a ha => .inl ⟨ha, rfl⟩, [], (List.append_nil _).symm, nofun⟩
  | tail _ hchange ih =>
    cases hchange with
    | adjusted active startOf _ timerCounter _ fired =>
      refine ⟨timerCounter.symm ▸ ih.timerCounter, fun a ha => ?_, fired.symm ▸ ih.later⟩
      rw [active] at ha
      rw [startOf a ha]
      exact ih.active a ha
    | stopped a _ hstop => exact ih.stopped hstop
    | activated start r _ startId _ hact => exact ih.activated hact startId
    | fired a active _ _ s₁ hstop heq => exact heq ▸ ih.fire active hstop

end TimerLoop

end MyUvpp
