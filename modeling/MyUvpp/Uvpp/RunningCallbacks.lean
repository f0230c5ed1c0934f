import MyUvpp.Foundation.TransitionSystem
import MyUvpp.Uv.Handle
import MyUvpp.Uvpp.Callback

/-! # The callbacks that are running (`callback.hpp`, `free_handle.hpp`)

`callbacks::invoke` enters a callback object through a plain pointer, and the object stays owned by its
slot while it runs. A `store` to that slot destroys it, and so does the deletion of the whole table. Every
callback object has its own number here, the invocations under way are a stack, and what is destroyed is
recorded. -/

namespace MyUvpp

/-- The slots in their order, which is the order of their destruction. -/
def UvCallbackId.all : List UvCallbackId :=
  [.close, .listen, .readStart, .write, .shutdown, .connect, .connect6, .accept, .tcp, .timer]

/-- The list of the callback ids is complete. -/
theorem UvCallbackId.mem_all (cid : UvCallbackId) : cid ∈ all := by
  cases cid <;> decide

/-- An invocation under way: its slot and the callback object that it has entered. -/
structure Invocation where
  cid : UvCallbackId
  object : ℕ
  deriving DecidableEq

/-- A handle of libuv with the callbacks of its user and the object that owns it. -/
structure HandleCalls where
  /-- The number of the next callback object. -/
  next : ℕ
  /-- `m_uv_handle->data`, the numbers of the objects in their slots; `none` once it is deleted. -/
  data : Option (Callbacks ℕ)
  state : HandleState Unit
  /-- `m_will_close` of the `uv::Handle`; `none` once that is destroyed. -/
  willClose : Option Bool
  /-- The invocations under way, the innermost first. -/
  running : List Invocation
  /-- The callback objects that have been destroyed. -/
  destroyed : List ℕ

/-- What may happen next: an operation stores a callback, or the loop enters or leaves one. -/
inductive HandleCall where
  /-- `Stream::listen`. -/
  | listen
  /-- `Stream::read_start`. -/
  | readStart
  /-- One of the three forms of `Stream::write`. -/
  | write
  /-- `Tcp::connect`. -/
  | connect
  /-- `Tcp::connect6`. -/
  | connect6
  /-- One of the two forms of `Timer::start`. -/
  | start
  | close
  /-- `Handle::~Handle`. -/
  | destroy
  /-- libuv calls back. -/
  | invoke (cid : UvCallbackId)
  /-- The innermost callback returns. -/
  | returned

/-- The slot of an operation that stores its callback, whatever libuv returns then. `Stream::shutdown`
does not compile when it is used. -/
def HandleCall.stores : HandleCall → Option UvCallbackId
  | .listen => some .listen
  | .readStart => some .readStart
  | .write => some .write
  | .connect => some .connect
  | .connect6 => some .connect6
  | .start => some .timer
  | .close | .destroy | .invoke _ | .returned => none

namespace HandleCalls

/-- `Handle::Handle` and `uv_tcp_init` or `uv_timer_init`. -/
def new : HandleCalls := ⟨0, some .new, .opened, some false, [], []⟩

variable (s : HandleCalls)

/-- `callbacks::store` of a new callback object: the one in the slot is destroyed. -/
def store (t : Callbacks ℕ) (cid : UvCallbackId) : HandleCalls :=
  { s with
    next := s.next + 1
    data := some (t.store cid s.next)
    destroyed := s.destroyed ++ (t.invoke cid).toList }

/-- `free_handle`: the table is deleted with all objects in it. -/
def freeHandle : HandleCalls :=
  match s.data with
  | some t => { s with
      data := none
      destroyed := s.destroyed ++ UvCallbackId.all.filterMap t.invoke }
  | none => s

/-- `Handle::close`: nothing if the handle is closing. -/
def close (t : Callbacks ℕ) : HandleCalls :=
  if s.state = .opened then
    { s.store t .close with willClose := some true, state := .closing (some ()) }
  else s

/-- `Handle::~Handle`: free a handle that was not closed. -/
def destroy (willClose : Bool) : HandleCalls :=
  let s := { s with willClose := none }
  if willClose then s else s.freeHandle

/-- `callbacks::invoke` enters the object in a slot. The close of the handle is completed when libuv
calls its callback. -/
def enter (cid : UvCallbackId) (object : ℕ) : HandleCalls :=
  { s with
    running := ⟨cid, object⟩ :: s.running
    state := if cid = .close then .unregistered else s.state }

/-- A callback returns; behind the one of the close the handle is freed. -/
def leave (f : Invocation) (rest : List Invocation) : HandleCalls :=
  let s := { s with running := rest }
  if f.cid = .close then s.freeHandle else s

/-- libuv calls back any callback that it has been given, at any time until the close is completed, and
the close callback once. -/
def mayInvoke : UvCallbackId → Bool
  | .close => s.state = .closing (some ())
  | _ => s.state ≠ .unregistered

/-- The table, as long as there is a `uv::Handle` through which it can be reached. -/
def reachable : Option (Callbacks ℕ) := if s.willClose = none then none else s.data

/-- The callback object in a slot, as its number, if the table is still there. -/
def slot (cid : UvCallbackId) : Option ℕ := s.data.bind fun t => t.invoke cid

/-- One step; there is none where the event cannot occur. -/
def step (s : HandleCalls) (e : HandleCall) : Option HandleCalls :=
  match e.stores with
  | some cid => s.reachable.map fun t => s.store t cid
  | none =>
    match e with
    | .close => s.reachable.map s.close
    | .destroy => s.willClose.map s.destroy
    | .invoke cid => if s.mayInvoke cid then (s.slot cid).map (s.enter cid) else none
    | .returned =>
      match s.running with
      | f :: rest => some (s.leave f rest)
      | [] => none
    | _ => none

/-- No callback that is running has been destroyed. -/
def RunningAlive (s : HandleCalls) : Prop := ∀ f ∈ s.running, f.object ∉ s.destroyed

/-- The exact condition on a step: no operation stores a callback of the kind of one that is running, a
handle that was not closed is not destroyed while one is running, and the close callback is the last to
return. -/
def Allowed (s : HandleCalls) (e : HandleCall) : Prop :=
  match e with
  | .destroy => s.willClose = some true ∨ s.running = []
  | .returned => ∀ f rest, s.running = f :: rest → f.cid = .close → rest = []
  | e => ∀ cid, e.stores = some cid → ∀ f ∈ s.running, f.cid ≠ cid

/-- The invariant of the allowed steps: what is running is in its slot. -/
structure Inv (s : HandleCalls) : Prop where
  slot_lt : ∀ cid k, s.slot cid = some k → k < s.next
  slot_alive : ∀ cid k, s.slot cid = some k → k ∉ s.destroyed
  slot_unique : ∀ cid cid' k, s.slot cid = some k → s.slot cid' = some k → cid = cid'
  destroyed_lt : ∀ k ∈ s.destroyed, k < s.next
  running : ∀ f ∈ s.running, s.slot f.cid = some f.object
  /-- A close callback that is running was called by a loop that has let the handle go. -/
  close_running : ∀ f ∈ s.running, f.cid = .close → s.state = .unregistered

/-- A handle just constructed has no callback and none is running. -/
theorem inv_new : new.Inv where
  slot_lt _ _ h := by cases h
  slot_alive _ _ _ := List.not_mem_nil
  slot_unique _ _ _ h := by cases h
  destroyed_lt _ h := absurd h List.not_mem_nil
  running _ h := absurd h List.not_mem_nil
  close_running _ h := absurd h List.not_mem_nil

variable {s} {s' : HandleCalls} {t : Callbacks ℕ}

/-- What is running is alive. -/
theorem Inv.runningAlive (h : s.Inv) : s.RunningAlive := fun f hf =>
  h.slot_alive f.cid f.object (h.running f hf)

/-! ### Stores -/

/-- The table that can be reached is the one in `data`. -/
theorem reachable_eq_some (h : s.reachable = some t) : s.data = some t := by
  unfold reachable at h
  split at h
  · cases h
  · exact h

/-- The callback just stored is the one in the slot. -/
theorem slot_store_self (t : Callbacks ℕ) (cid : UvCallbackId) :
    (s.store t cid).slot cid = some s.next :=
  Callbacks.invoke_store t cid s.next

/-- Storing in one slot leaves the others. -/
theorem slot_store_of_ne (ht : s.data = some t) {cid cid' : UvCallbackId} (hne : cid' ≠ cid) :
    (s.store t cid).slot cid' = s.slot cid' := by
  simp only [slot, store, ht, Option.bind_some]
  exact Callbacks.invoke_store_of_ne t hne s.next

/-- A store destroys what was in the slot, and nothing else. -/
theorem mem_destroyed_store (ht : s.data = some t) {cid : UvCallbackId} {k : ℕ} :
    k ∈ (s.store t cid).destroyed ↔ k ∈ s.destroyed ∨ s.slot cid = some k := by
  simp [store, slot, ht]

/-- A store to a slot whose callback is not running. -/
theorem Inv.store (h : s.Inv) (ht : s.data = some t) {cid : UvCallbackId}
    (hcid : ∀ f ∈ s.running, f.cid ≠ cid) : (s.store t cid).Inv := by
  -- an object in a slot is the new one or was there before
  have hslot : ∀ cid' k, (s.store t cid).slot cid' = some k →
      (cid' = cid ∧ k = s.next) ∨ (cid' ≠ cid ∧ s.slot cid' = some k) := by
    intro cid' k hk
    by_cases heq : cid' = cid
    · subst heq
      rw [slot_store_self] at hk
      exact .inl ⟨rfl, (Option.some.inj hk).symm⟩
    · rw [slot_store_of_ne ht heq] at hk
      exact .inr ⟨heq, hk⟩
  constructor
  case slot_lt =>
    intro cid' k hk
    show k < s.next + 1
    rcases hslot cid' k hk with ⟨-, rfl⟩ | ⟨-, hk⟩
    · omega
    · have hlt := h.slot_lt cid' k hk
      omega
  case slot_alive =>
    intro cid' k hk hmem
    rw [mem_destroyed_store ht] at hmem
    rcases hslot cid' k hk with ⟨-, rfl⟩ | ⟨hne, hk⟩
    · rcases hmem with hmem | hmem
      · exact lt_irrefl _ (h.destroyed_lt _ hmem)
      · exact lt_irrefl _ (h.slot_lt cid _ hmem)
    · rcases hmem with hmem | hmem
      · exact h.slot_alive cid' k hk hmem
      · exact hne (h.slot_unique cid' cid k hk hmem)
  case slot_unique =>
    intro cid' cid'' k hk hk'
    rcases hslot cid' k hk with ⟨rfl, rfl⟩ | ⟨-, hold⟩
    · rcases hslot cid'' _ hk' with ⟨rfl, -⟩ | ⟨-, hold'⟩
      · rfl
      · exact absurd (h.slot_lt cid'' _ hold') (lt_irrefl _)
    · rcases hslot cid'' _ hk' with ⟨-, rfl⟩ | ⟨-, hold'⟩
      · exact absurd (h.slot_lt cid' _ hold) (lt_irrefl _)
      · exact h.slot_unique cid' cid'' k hold hold'
  case destroyed_lt =>
    intro k hk
    show k < s.next + 1
    have hlt : k < s.next := by
      rcases (mem_destroyed_store ht).mp hk with hk | hk
      · exact h.destroyed_lt k hk
      · exact h.slot_lt cid k hk
    omega
  case running =>
    intro f hf
    rw [slot_store_of_ne ht (hcid f hf)]
    exact h.running f hf
  case close_running => exact h.close_running

/-- A store to the slot of a callback that is running destroys it. -/
theorem not_runningAlive_store (h : s.Inv) (ht : s.data = some t) {cid : UvCallbackId} {f : Invocation}
    (hf : f ∈ s.running) (hcid : f.cid = cid) : ¬ (s.store t cid).RunningAlive := by
  intro halive
  have hslot : s.slot cid = some f.object := hcid ▸ h.running f hf
  exact halive f hf ((mem_destroyed_store ht).mpr (.inr hslot))

/-! ### The deletion of the table -/

/-- Freeing the handle destroys its table and the callbacks in it. -/
theorem freeHandle_eq (s : HandleCalls) :
    s.freeHandle = { s with
      data := none
      destroyed := s.destroyed ++ UvCallbackId.all.filterMap s.slot } := by
  obtain ⟨next, data, state, willClose, running, destroyed⟩ := s
  cases data with
  | none => simp [freeHandle, slot]
  | some t => rfl

/-- The callbacks destroyed then are those in the slots. -/
theorem mem_destroyed_freeHandle {k : ℕ} :
    k ∈ s.freeHandle.destroyed ↔ k ∈ s.destroyed ∨ ∃ cid, s.slot cid = some k := by
  rw [freeHandle_eq]
  simp [UvCallbackId.mem_all]

/-- The deletion of the table when no callback is running. -/
theorem Inv.freeHandle (h : s.Inv) (hidle : s.running = []) : s.freeHandle.Inv := by
  have hdestroyed : ∀ k ∈ s.freeHandle.destroyed, k < s.next := by
    intro k hk
    rcases mem_destroyed_freeHandle.mp hk with hk | ⟨cid, hk⟩
    · exact h.destroyed_lt k hk
    · exact h.slot_lt cid k hk
  rw [freeHandle_eq] at hdestroyed ⊢
  exact ⟨nofun, nofun, nofun, hdestroyed, by simp [hidle], by simp [hidle]⟩

/-- The deletion destroys every callback that is running. -/
theorem not_runningAlive_freeHandle (h : s.Inv) {f : Invocation} (hf : f ∈ s.running) :
    ¬ s.freeHandle.RunningAlive := by
  intro halive
  have hrunning : f ∈ s.freeHandle.running := by
    rw [freeHandle_eq]
    exact hf
  exact halive f hrunning (mem_destroyed_freeHandle.mpr (.inr ⟨f.cid, h.running f hf⟩))

/-! ### The other operations -/

/-- The objects and the slots stay, and no other callback is running. -/
theorem Inv.move (h : s.Inv) (hnext : s'.next = s.next) (hdata : s'.data = s.data)
    (hdestroyed : s'.destroyed = s.destroyed)
    (hrunning : ∀ f ∈ s'.running, s.slot f.cid = some f.object ∧ (f.cid = .close → s'.state = .unregistered)) :
    s'.Inv := by
  have hslot : s'.slot = s.slot := by
    funext cid
    rw [slot, slot, hdata]
  refine ⟨?_, ?_, ?_, ?_, fun f hf => ?_, fun f hf => (hrunning f hf).2⟩
  · rw [hslot, hnext]
    exact h.slot_lt
  · rw [hslot, hdestroyed]
    exact h.slot_alive
  · rw [hslot]
    exact h.slot_unique
  · rw [hdestroyed, hnext]
    exact h.destroyed_lt
  · rw [hslot]
    exact (hrunning f hf).1

/-- While the handle is opened its close callback is not running. -/
theorem Inv.close (h : s.Inv) (ht : s.data = some t) : (s.close t).Inv := by
  unfold HandleCalls.close
  split
  case isTrue hopened =>
    have hclose : ∀ f ∈ s.running, f.cid ≠ .close := by
      intro f hf hcid
      rw [h.close_running f hf hcid] at hopened
      cases hopened
    have hstore := h.store ht hclose
    exact hstore.move rfl rfl rfl fun f hf => ⟨hstore.running f hf, fun hcid => absurd hcid (hclose f hf)⟩
  case isFalse => exact h

/-- Entering the callback in a slot keeps the invariant. -/
theorem Inv.enter (h : s.Inv) {cid : UvCallbackId} {k : ℕ} (hslot : s.slot cid = some k) :
    (s.enter cid k).Inv := by
  refine h.move rfl rfl rfl fun f hf => ?_
  rcases List.mem_cons.mp hf with rfl | hf
  · exact ⟨hslot, fun hclose => if_pos hclose⟩
  · refine ⟨h.running f hf, fun hclose => ?_⟩
    show (if cid = .close then HandleState.unregistered else s.state) = .unregistered
    rw [h.close_running f hf hclose, ite_self]

/-- A callback returns. -/
theorem Inv.pop (h : s.Inv) {f : Invocation} {rest : List Invocation} (hrunning : s.running = f :: rest) :
    Inv { s with running := rest } := by
  refine h.move rfl rfl rfl fun g hg => ?_
  have hmem : g ∈ s.running := by
    rw [hrunning]
    exact List.mem_cons_of_mem f hg
  exact ⟨h.running g hmem, h.close_running g hmem⟩

/-- The owner is destroyed. -/
theorem Inv.disown (h : s.Inv) : Inv { s with willClose := none } :=
  h.move rfl rfl rfl fun f hf => ⟨h.running f hf, h.close_running f hf⟩

/-! ### Steps and runs -/

/-- An operation that stores a callback. -/
theorem step_of_stores {e : HandleCall} {cid : UvCallbackId} (he : e.stores = some cid)
    (hstep : s.step e = some s') : ∃ t, s.data = some t ∧ s' = s.store t cid := by
  simp only [step, he] at hstep
  obtain ⟨t, ht, rfl⟩ := Option.map_eq_some_iff.mp hstep
  exact ⟨t, reachable_eq_some ht, rfl⟩

/-- A store is allowed exactly when no callback of its slot is running. -/
theorem allowed_of_stores {e : HandleCall} {cid : UvCallbackId} (he : e.stores = some cid) :
    s.Allowed e ↔ ∀ f ∈ s.running, f.cid ≠ cid := by
  cases e with
  | close | destroy | invoke | returned => cases he
  | listen | readStart | write | connect | connect6 | start =>
    cases he
    simp [Allowed, HandleCall.stores]

/-- Every other event, and what it does. -/
theorem step_cases {e : HandleCall} (he : e.stores = none) (hstep : s.step e = some s') :
    (e = .close ∧ ∃ t, s.data = some t ∧ s' = s.close t) ∨
      (e = .destroy ∧ ∃ willClose, s.willClose = some willClose ∧ s' = s.destroy willClose) ∨
      (∃ cid k, e = .invoke cid ∧ s.slot cid = some k ∧ s' = s.enter cid k) ∨
      (e = .returned ∧ ∃ f rest, s.running = f :: rest ∧ s' = s.leave f rest) := by
  cases e with
  | listen | readStart | write | connect | connect6 | start => cases he
  | close =>
    obtain ⟨t, ht, rfl⟩ := Option.map_eq_some_iff.mp hstep
    exact .inl ⟨rfl, t, reachable_eq_some ht, rfl⟩
  | destroy =>
    obtain ⟨willClose, hclose, rfl⟩ := Option.map_eq_some_iff.mp hstep
    exact .inr (.inl ⟨rfl, willClose, hclose, rfl⟩)
  | invoke cid =>
    obtain ⟨-, heq⟩ := Option.ite_none_right_eq_some.mp hstep
    obtain ⟨k, hk, rfl⟩ := Option.map_eq_some_iff.mp heq
    exact .inr (.inr (.inl ⟨cid, k, rfl, hk, rfl⟩))
  | returned =>
    simp only [step, HandleCall.stores] at hstep
    split at hstep
    case h_1 f rest hrunning =>
      cases hstep
      exact .inr (.inr (.inr ⟨rfl, f, rest, hrunning, rfl⟩))
    case h_2 => cases hstep

/-- An allowed step keeps what is running in its slot. -/
theorem step_inv (h : s.Inv) {e : HandleCall} (hallowed : s.Allowed e) (hstep : s.step e = some s') :
    s'.Inv := by
  cases he : e.stores with
  | some cid =>
    obtain ⟨t, ht, rfl⟩ := step_of_stores he hstep
    exact h.store ht ((allowed_of_stores he).mp hallowed)
  | none =>
    rcases step_cases he hstep with ⟨rfl, t, ht, rfl⟩ | ⟨rfl, willClose, hclose, rfl⟩ |
      ⟨cid, k, rfl, hk, rfl⟩ | ⟨rfl, f, rest, hrunning, rfl⟩
    · exact h.close ht
    · unfold destroy
      split
      case isTrue => exact h.disown
      case isFalse hopen =>
        refine h.disown.freeHandle (hallowed.resolve_left fun hclosed => hopen ?_)
        exact Option.some.inj (hclose.symm.trans hclosed)
    · exact h.enter hk
    · unfold leave
      split
      case isTrue hcid => exact (h.pop hrunning).freeHandle (hallowed f rest hrunning hcid)
      case isFalse => exact h.pop hrunning

/-- Every other step destroys a callback that is running. -/
theorem step_not_runningAlive (h : s.Inv) {e : HandleCall} (hnot : ¬ s.Allowed e)
    (hstep : s.step e = some s') : ¬ s'.RunningAlive := by
  cases he : e.stores with
  | some cid =>
    obtain ⟨t, ht, rfl⟩ := step_of_stores he hstep
    rw [allowed_of_stores he] at hnot
    push Not at hnot
    obtain ⟨f, hf, hcid⟩ := hnot
    exact not_runningAlive_store h ht hf hcid
  | none =>
    rcases step_cases he hstep with ⟨rfl, t, ht, rfl⟩ | ⟨rfl, willClose, hclose, rfl⟩ |
      ⟨cid, k, rfl, hk, rfl⟩ | ⟨rfl, f, rest, hrunning, rfl⟩
    · exact absurd (fun cid hcid => by cases hcid) hnot
    · simp only [Allowed, not_or] at hnot
      obtain ⟨f, hf⟩ := List.exists_mem_of_ne_nil _ hnot.2
      have hopen : willClose = false := by
        rw [hclose] at hnot
        simpa using hnot.1
      subst hopen
      exact not_runningAlive_freeHandle h.disown hf
    · exact absurd (fun cid hcid => by cases hcid) hnot
    · simp only [Allowed, hrunning] at hnot
      push Not at hnot
      obtain ⟨f', rest', heq, hcid, hrest⟩ := hnot
      cases heq
      obtain ⟨g, hg⟩ := List.exists_mem_of_ne_nil _ hrest
      rw [leave, if_pos hcid]
      exact not_runningAlive_freeHandle (h.pop hrunning) hg

end HandleCalls

/-- **When a running callback is not destroyed.** In every state of a run of a handle all callbacks under
way are alive if and only if no operation of the kind of a running callback is issued, the `uv::Handle` is
not destroyed without a close while a callback is running, and the close callback returns when no other
one is running. -/
theorem running_callback_alive_iff (es : List HandleCall) (s : HandleCalls)
    (hrun : run HandleCalls.step .new es = some s) :
    Throughout HandleCalls.step HandleCalls.RunningAlive .new es ↔
      Along HandleCalls.step HandleCalls.Allowed .new es :=
  throughout_iff_along (fun _ _ _ h hallowed hstep => HandleCalls.step_inv h hallowed hstep)
    (fun _ _ _ h hnot hstep => HandleCalls.step_not_runningAlive h hnot hstep)
    (fun _ h => h.runningAlive) HandleCalls.inv_new hrun

/-- A stream is closed from its read callback. -/
theorem running_callback_alive_iff_close :
    ∃ s, run HandleCalls.step .new [.readStart, .write, .invoke .readStart, .close, .returned,
        .invoke .write, .returned, .invoke .close, .returned] = some s ∧
      (Throughout HandleCalls.step HandleCalls.RunningAlive .new
          [.readStart, .write, .invoke .readStart, .close, .returned, .invoke .write, .returned,
            .invoke .close, .returned] ↔
        Along HandleCalls.step HandleCalls.Allowed .new
          [.readStart, .write, .invoke .readStart, .close, .returned, .invoke .write, .returned,
            .invoke .close, .returned]) :=
  exists_last (by decide +kernel) fun s hs => running_callback_alive_iff _ s hs

/-- A write callback that writes again. -/
theorem not_running_callback_alive :
    ¬ ∀ es s, run HandleCalls.step .new es = some s →
      Throughout HandleCalls.step HandleCalls.RunningAlive .new es := by
  intro hall
  have hthrough := hall [.write, .invoke .write, .write] _ rfl
  have halive : HandleCalls.RunningAlive _ := hthrough.2.2.2
  exact absurd (halive ⟨.write, 0⟩ (by decide)) (by decide)

end MyUvpp
