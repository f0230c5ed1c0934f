import MyUvpp.Foundation.Reaching
import MyUvpp.Uv.AsyncWakeups
import MyUvpp.Uv.Handle
import Mathlib.Algebra.BigOperators.Group.List.Basic

/-! # Runs of the async handles

In whatever order the threads and the loop go on: no call of `uv_async_send` is lost, no callback comes
without a call, none comes behind `uv_close`, and when nobody calls `uv_async_send` any more, everybody comes
to rest with every call answered. -/

namespace MyUvpp

namespace AsyncLoop

variable {α : Type*} [DecidableEq α] {s s' s₁ : AsyncLoop α} {e : AsyncEvent α} {es es' : List (AsyncEvent α)}

/-- What no step breaks. -/
structure Inv (s : AsyncLoop α) : Prop where
  shape : s.Shape
  told : s.Told
  answered : s.Answered

/-- One event keeps all that is said of the loop and its senders. -/
theorem Inv.step (h : s.Inv) (hstep : s.step e = some s') : s'.Inv :=
  have hm := moves_of_step hstep
  ⟨h.shape.moves hm, h.told.moves h.shape hm, h.answered.moves hm⟩

/-- From a loop just initialised, any run keeps it. -/
theorem inv_of_run (hrun : run step (initial : AsyncLoop α) es = some s) : s.Inv :=
  run_invariant (fun _ _ _ h hstep => Inv.step h hstep) ⟨shape_initial, told_initial, answered_initial⟩ hrun

omit [DecidableEq α] in
/-- Nothing is asserted about what is read from a pipe. -/
theorem exists_uvAsyncIo_pipe {capacity n : ℕ} (hfd : s.fd = some (.pipe capacity)) :
    ∃ s', s.uvAsyncIo n = some s' := by
  unfold uvAsyncIo
  simp only [hfd]
  split_ifs with hfull
  · exact ⟨_, rfl⟩
  · refine ⟨_, if_neg ?_⟩
    rintro ⟨heq, -⟩
    cases heq

/-- No assertion fails. -/
theorem Shape.exists_next (h : s.Shape) (hallowed : s.Allowed e) : ∃ s', s.next e = some s' := by
  cases e with
  | init | close | send | exchange | poll => exact ⟨_, rfl⟩
  | write call =>
    have hinit := h.calls call hallowed.1
    obtain ⟨fd, hfd⟩ := Option.ne_none_iff_exists'.mp (h.started (List.ne_nil_of_mem hinit))
    exact ⟨_, by rw [next, write, hfd]; rfl⟩
  | read =>
    have hio : s.phase.inIo = true := hallowed
    unfold next
    cases hphase : s.phase with
    | idle | event | callback =>
      rw [hphase] at hio
      cases hio
    | polled =>
      have hcount := h.polled hphase
      obtain ⟨fd, hfd⟩ := Option.ne_none_iff_exists'.mp (h.counted hcount)
      cases fd with
      | eventfd =>
        -- the poll has found the file descriptor readable, so that eight bytes are read
        simp [uvAsyncIo, uvAsyncEvent, hfd, hcount.ne']
      | pipe capacity => exact exists_uvAsyncIo_pipe hfd
    | reading n =>
      obtain ⟨capacity, hfd⟩ := h.reading n hphase
      exact exists_uvAsyncIo_pipe hfd
  | take =>
    have hevent : s.phase.inEvent = true := hallowed
    unfold next
    cases hphase : s.phase with
    | idle | polled | reading | callback =>
      rw [hphase] at hevent
      cases hevent
    | event queue => cases queue <;> exact ⟨_, rfl⟩
  | «return» =>
    have hcallback : s.phase.inCallback = true := hallowed
    unfold next
    cases hphase : s.phase with
    | idle | polled | reading | event =>
      rw [hphase] at hcallback
      cases hcallback
    | callback handle queue => exact ⟨_, rfl⟩

/-- An allowed event can happen: no assertion of `uv__async_send` or `uv__async_io` fails. -/
theorem Shape.exists_step (h : s.Shape) (hallowed : s.Allowed e) : ∃ s', s.step e = some s' := by
  rw [AsyncLoop.step, if_pos hallowed]
  exact h.exists_next hallowed

/-! ### No call is lost -/

/-- Two handles on a loop, two threads that send at the same time, and one of them while the callback runs. -/
def twoSenders : List (AsyncEvent ℕ) :=
  [.init 1 true (.ok .eventfd), .init 2 true (.ok .eventfd), .send 1, .send 2, .exchange ⟨1, false, 0⟩,
    .exchange ⟨2, false, 0⟩, .write ⟨1, true, 0⟩, .poll, .read, .take, .send 1, .return, .take,
    .exchange ⟨1, false, 1⟩]

/-- **The loop is told.** In every state that a run leads to, every step that is allowed succeeds; and if a
handle is pending that is not closed, the loop is about to visit it, or there is something to read, or the
loop is about to take the handles, or a thread is about to write. -/
theorem async_told (hrun : run step (initial : AsyncLoop α) es = some s) :
    (∀ e, s.Allowed e → (s.step e).isSome = true) ∧
      ∀ handle ∈ s.opened, s.pending handle = true →
        handle ∈ s.phase.queue ∨ 0 < s.count ∨ s.phase.inIo = true ∨ ∃ c ∈ s.calls, c.won = true := by
  have hinv := inv_of_run hrun
  refine ⟨fun e hallowed => ?_, hinv.told⟩
  obtain ⟨s', hs'⟩ := hinv.shape.exists_step hallowed
  rw [hs']
  rfl

/-- Two threads that send to two handles: in the state they leave, the loop is told of both. -/
theorem async_told_two_senders : ∃ s, run step (initial : AsyncLoop ℕ) twoSenders = some s ∧
    (∀ e, s.Allowed e → (s.step e).isSome = true) ∧
      ∀ handle ∈ s.opened, s.pending handle = true →
        handle ∈ s.phase.queue ∨ 0 < s.count ∨ s.phase.inIo = true ∨ ∃ c ∈ s.calls, c.won = true :=
  exists_last (by decide +kernel) fun _ hs => async_told hs

/-- **No call is lost.** Behind every run, for every call of `uv_async_send` that has returned, the callback
of the handle has been called since the call began, or the handle is pending, and then the loop is told if
the handle is not closed. -/
theorem sends_answered (hrun : run step (initial : AsyncLoop α) es = some s) {c : AsyncCall α}
    (hreturned : c ∈ s.returned) (hcb : s.asyncCb c.handle = true) :
    c.since < s.called c.handle ∨ s.pending c.handle = true ∧
      (c.handle ∈ s.opened →
        c.handle ∈ s.phase.queue ∨ 0 < s.count ∨ s.phase.inIo = true ∨ ∃ c ∈ s.calls, c.won = true) := by
  have hinv := inv_of_run hrun
  rcases (hinv.answered.returned c hreturned).owed hcb with hpending | hlt
  · exact .inr ⟨hpending, fun hopened => hinv.told c.handle hopened hpending⟩
  · exact .inl hlt

/-- In the same run the first handle is called back or still to be. -/
theorem sends_answered_two_senders : ∃ s, run step (initial : AsyncLoop ℕ) twoSenders = some s ∧
    (0 < s.called 1 ∨ s.pending 1 = true ∧
      (1 ∈ s.opened → 1 ∈ s.phase.queue ∨ 0 < s.count ∨ s.phase.inIo = true ∨ ∃ c ∈ s.calls, c.won = true)) :=
  exists_last_of_map (fun s => (s.returned, s.asyncCb 1)) (b := ([⟨1, true, 0⟩], true)) (by decide +kernel)
    fun s hs heq => by
      obtain ⟨hreturned, hcb⟩ := Prod.ext_iff.mp heq
      dsimp only at hreturned hcb
      exact sends_answered (c := ⟨1, true, 0⟩) hs (hreturned ▸ List.mem_singleton_self _) hcb

/-! ### No callback without a call -/

/-- **No callback comes without a call.** In every stretch of a run in which a handle is not initialised
again, there are at most as many callbacks as there are calls of `uv_async_send`, those included that were
under way or not answered before. -/
theorem callbacks_have_sends {handle : α} (hcb : s.asyncCb handle = true)
    (hspares : ∀ e ∈ es, e.Spares handle) (hrun : run step s es = some s') :
    s'.called handle + (s'.pending handle).toNat ≤
      s.called handle + (s.pending handle).toNat + s.unwon handle + es.countP (AsyncEvent.sendsTo handle) := by
  suffices hbudget : s'.budget handle ≤ s.budget handle + es.countP (AsyncEvent.sendsTo handle) from
    (Nat.le_add_right _ _).trans hbudget
  induction es generalizing s with
  | nil =>
    cases hrun
    exact Nat.le_add_right _ _
  | cons e es ih =>
    obtain ⟨s₁, hs₁, hrun'⟩ := run_cons_eq_some.mp hrun
    obtain ⟨hcb₁, hle⟩ := (moves_of_step hs₁).budget_le (hspares e List.mem_cons_self) hcb
    have hrest := ih hcb₁ (fun e' he' => hspares e' (List.mem_cons_of_mem e he')) hrun'
    rw [List.countP_cons]
    cases hsends : e.sendsTo handle with
    | true =>
      rw [hsends, Bool.toNat_true] at hle
      rw [if_pos rfl]
      omega
    | false =>
      rw [hsends, Bool.toNat_false] at hle
      rw [if_neg Bool.false_ne_true]
      omega

/-- A call of `uv_async_send`, up to the callback. -/
def oneSend : List (AsyncEvent ℕ) :=
  [.send 1, .exchange ⟨1, false, 0⟩, .write ⟨1, true, 0⟩, .poll, .read, .take]

/-- The run with one send initialises no handle again and closes none. -/
theorem spares_oneSend : ∀ e ∈ oneSend, e.Spares 1 := by
  intro e he
  simp only [oneSend, List.mem_cons, List.not_mem_nil, or_false] at he
  rcases he with rfl | rfl | rfl | rfl | rfl | rfl <;> trivial

/-- In that run the one send pays for the one callback. -/
theorem callbacks_have_sends_one_send :
    ∃ s, run step (initial : AsyncLoop ℕ) [.init 1 true (.ok .eventfd)] = some s ∧
      ∃ s', run step s oneSend = some s' ∧
        s'.called 1 + (s'.pending 1).toNat ≤
          s.called 1 + (s.pending 1).toNat + s.unwon 1 + oneSend.countP (AsyncEvent.sendsTo 1) :=
  exists_last_of_map (fun s => (s.asyncCb 1, (run step s oneSend).isSome)) (b := (true, true))
    (by decide +kernel) fun s _ heq => by
      obtain ⟨hcb, hsome⟩ := Prod.ext_iff.mp heq
      exact exists_last hsome fun s' hs' => callbacks_have_sends hcb spares_oneSend hs'

/-! ### A handle is a flag -/

end AsyncLoop

/-- What is done with an async handle by itself. -/
inductive UvAsync.Op where
  | send
  | received
  deriving DecidableEq, Repr

/-- It is called back only if something was sent. -/
def UvAsync.step {κ : Type*} (h : UvAsync κ) : UvAsync.Op → Option (UvAsync κ)
  | .send => some h.send
  | .received => if h.sent then some h.received else none

namespace AsyncLoop

variable {α κ : Type*} [DecidableEq α] {s s' s₁ : AsyncLoop α} {e : AsyncEvent α} {es es' : List (AsyncEvent α)}

/-- An open handle of the loop by itself. -/
def toUvAsync (κ : Type*) (s : AsyncLoop α) (handle : α) : UvAsync κ := ⟨.opened, s.pending handle⟩

/-- What an event does to a handle by itself. A call of `uv_async_send` takes effect once: at its cheap read if
`pending` is set there, and otherwise at its `cmpxchgi`, whether `pending` has been set in between or not. -/
def opsOf (s : AsyncLoop α) (handle : α) : AsyncEvent α → List UvAsync.Op
  | .send h => if h = handle ∧ s.pending handle = true then [.send] else []
  | .exchange call => if call.handle = handle then [.send] else []
  | .take =>
    match s.phase with
    | .event (h :: _) =>
      if h = handle ∧ s.pending handle = true ∧ s.asyncCb handle = true then [.received] else []
    | _ => []
  | _ => []

/-- What a run does to a handle by itself. -/
def opsAlong (handle : α) : AsyncLoop α → List (AsyncEvent α) → List UvAsync.Op
  | _, [] => []
  | s, e :: es =>
    s.opsOf handle e ++
      match s.step e with
      | some s' => opsAlong handle s' es
      | none => []

/-- What an event does to a handle is allowed by the handle, and leads to the handle behind the event. -/
theorem Moves.run_opsOf (hm : Moves s e s') {handle : α} (he : e.Spares handle) (hcb : s.asyncCb handle = true) :
    run UvAsync.step (s.toUvAsync κ handle) (s.opsOf handle e) = some (s'.toUvAsync κ handle) := by
  cases hm with
  | started new =>
    simp only [toUvAsync, opsOf, Function.update_of_ne he.symm]
    rfl
  | seen new hpending =>
    by_cases heq : new = handle
    · subst heq
      simp only [toUvAsync, opsOf, hpending, and_self, if_true]
      rfl
    · rw [opsOf, if_neg fun h => heq h.1]
      rfl
  | called new hinit hpending =>
    have hnot : ¬ (new = handle ∧ s.pending handle = true) := by
      rintro ⟨rfl, hp⟩
      rw [hpending] at hp
      cases hp
    rw [opsOf, if_neg hnot]
    rfl
  | lost call hcall hwon hpending =>
    by_cases heq : call.handle = handle
    · -- another call has been faster
      subst heq
      simp only [toUvAsync, opsOf, if_true, hpending]
      rfl
    · rw [opsOf, if_neg heq]
      rfl
  | won call hcall hwon hpending =>
    by_cases heq : call.handle = handle
    · subst heq
      simp only [toUvAsync, opsOf, if_true, Function.update_self]
      rfl
    · simp only [toUvAsync, opsOf, if_neg heq, Function.update_of_ne (Ne.symm heq)]
      rfl
  | ended hphase =>
    simp only [toUvAsync, opsOf, hphase]
    rfl
  | passed new queue hphase hpending =>
    have hnot : ¬ (new = handle ∧ s.pending handle = true ∧ s.asyncCb handle = true) := by
      rintro ⟨rfl, hp, -⟩
      rw [hpending] at hp
      cases hp
    simp only [toUvAsync, opsOf, hphase, if_neg hnot]
    rfl
  | cleared new queue hphase hpending hcb' =>
    have hne : new ≠ handle := by
      rintro rfl
      rw [hcb] at hcb'
      cases hcb'
    simp only [toUvAsync, opsOf, hphase, hne, false_and, if_false, Function.update_of_ne hne.symm]
    rfl
  | callback new queue hphase hpending =>
    by_cases heq : new = handle
    · subst heq
      simp only [toUvAsync, opsOf, hphase, hpending, hcb, and_self, if_true, Function.update_self]
      rfl
    · simp only [toUvAsync, opsOf, hphase, heq, false_and, if_false, Function.update_of_ne (Ne.symm heq)]
      rfl
  | _ => rfl

/-- The callback is called as often as the handle is received. -/
theorem Moves.called_opsOf (hm : Moves s e s') {handle : α} (he : e.Spares handle) :
    s'.called handle = s.called handle + (s.opsOf handle e).count .received := by
  cases hm with
  | started new => exact Function.update_of_ne he.symm ..
  | seen new hpending | called new hinit hpending =>
    rw [opsOf]
    split <;> rfl
  | lost call | won call =>
    rw [opsOf]
    split <;> rfl
  | ended hphase =>
    simp only [opsOf, hphase]
    rfl
  | passed new queue hphase hpending =>
    have hnot : ¬ (new = handle ∧ s.pending handle = true ∧ s.asyncCb handle = true) := by
      rintro ⟨rfl, hp, -⟩
      rw [hpending] at hp
      cases hp
    simp only [opsOf, hphase, if_neg hnot]
    rfl
  | cleared new queue hphase hpending hcb =>
    have hnot : ¬ (new = handle ∧ s.pending handle = true ∧ s.asyncCb handle = true) := by
      rintro ⟨rfl, -, hc⟩
      rw [hcb] at hc
      cases hc
    simp only [opsOf, hphase, if_neg hnot]
    rfl
  | callback new queue hphase hpending hcb =>
    by_cases heq : new = handle
    · subst heq
      simp only [opsOf, hphase, hpending, hcb, and_self, if_true, Function.update_self]
      rfl
    · simp only [opsOf, hphase, heq, false_and, if_false, Function.update_of_ne (Ne.symm heq)]
      rfl
  | _ => rfl

/-- Each call of `uv_async_send` takes effect once, or is still to do so. -/
theorem Moves.unwon_opsOf (hm : Moves s e s') (handle : α) :
    (s.opsOf handle e).count .send + s'.unwon handle = s.unwon handle + (e.sendsTo handle).toNat := by
  have htake : (s.opsOf handle .take).count .send = 0 := by
    rw [opsOf]
    split
    case h_1 => split <;> rfl
    case h_2 => rfl
  cases hm with
  | seen new hpending =>
    simp only [opsOf, AsyncEvent.sendsTo]
    by_cases heq : new = handle
    · subst heq
      simp only [hpending, and_self, if_true, decide_true]
      exact Nat.add_comm 1 _
    · simp only [heq, false_and, if_false, decide_false]
      exact Nat.zero_add _
  | called new hinit hpending =>
    have hnot : ¬ (new = handle ∧ s.pending handle = true) := by
      rintro ⟨rfl, hp⟩
      rw [hpending] at hp
      cases hp
    rw [opsOf, if_neg hnot]
    simp only [unwon, List.countP_append, List.countP_singleton, AsyncEvent.sendsTo, and_true,
      decide_eq_true_eq, List.count_nil, Nat.zero_add]
    by_cases heq : new = handle
    · rw [if_pos heq, decide_eq_true heq, Bool.toNat_true]
    · rw [if_neg heq, decide_eq_false heq, Bool.toNat_false]
  | lost call hcall hwon =>
    have hunwon := unwon_erase hcall hwon handle
    simp only [unwon, opsOf, AsyncEvent.sendsTo, Bool.toNat_false] at hunwon ⊢
    by_cases heq : call.handle = handle
    · rw [if_pos heq] at hunwon ⊢
      rw [List.count_singleton_self]
      omega
    · rw [if_neg heq] at hunwon ⊢
      rw [List.count_nil]
      omega
  | won call hcall hwon =>
    have hunwon := unwon_erase hcall hwon handle
    simp only [unwon, List.countP_append, List.countP_singleton, Bool.true_eq_false, and_false,
      decide_false, Bool.false_eq_true, if_false, opsOf, AsyncEvent.sendsTo, Bool.toNat_false] at hunwon ⊢
    by_cases heq : call.handle = handle
    · rw [if_pos heq] at hunwon ⊢
      rw [List.count_singleton_self]
      omega
    · rw [if_neg heq] at hunwon ⊢
      rw [List.count_nil]
      omega
  | wrote call fd count hcall hwon =>
    -- the call took effect when it won
    have hsame : s.unwon handle = (s.calls.erase call).countP fun c => c.handle = handle ∧ c.won = false := by
      rw [unwon, (List.perm_cons_erase hcall).countP_eq, List.countP_cons]
      simp [hwon]
    rw [hsame]
    exact Nat.zero_add _
  | ended | passed | cleared | callback => exact (congrArg (· + s.unwon handle) htake).trans (Nat.zero_add _)
  | _ => exact Nat.zero_add _

/-- **A handle is a flag.** What happens to a handle in a stretch of a run, taken by itself, is what the handle
that the client and the server are modelled with allows: it is set by the calls of `uv_async_send`, each of
which takes effect once or has not come so far, and the callback is called only where something was sent and
not received; it is called as often there as in the run. -/
theorem handle_is_flag {handle : α} (hcb : s.asyncCb handle = true) (hspares : ∀ e ∈ es, e.Spares handle)
    (hrun : run step s es = some s') :
    run UvAsync.step (s.toUvAsync κ handle) (s.opsAlong handle es) = some (s'.toUvAsync κ handle) ∧
      s'.called handle = s.called handle + (s.opsAlong handle es).count .received ∧
      (s.opsAlong handle es).count .send + s'.unwon handle =
        s.unwon handle + es.countP (AsyncEvent.sendsTo handle) := by
  induction es generalizing s with
  | nil =>
    cases hrun
    exact ⟨rfl, rfl, Nat.zero_add _⟩
  | cons e es ih =>
    obtain ⟨s₁, hs₁, hrun'⟩ := run_cons_eq_some.mp hrun
    obtain ⟨he, hes⟩ := List.forall_mem_cons.mp hspares
    have hm := moves_of_step hs₁
    obtain ⟨hops, hcalled, hunwon⟩ := ih (hm.budget_le he hcb).1 hes hrun'
    have hunwon₁ := hm.unwon_opsOf handle
    have hsends : (e :: es).countP (AsyncEvent.sendsTo handle) =
        (e.sendsTo handle).toNat + es.countP (AsyncEvent.sendsTo handle) := by
      rw [List.countP_cons, Nat.add_comm]
      cases e.sendsTo handle <;> rfl
    rw [opsAlong, hs₁, List.count_append, List.count_append, hsends]
    refine ⟨?_, ?_, ?_⟩
    · rw [run_append, hm.run_opsOf he hcb]
      exact hops
    · rw [hcalled, hm.called_opsOf he, Nat.add_assoc]
    · dsimp only
      omega

/-- One call of `uv_async_send`: the handle is sent, and received. -/
theorem handle_is_flag_one_send :
    ∃ s, run step (initial : AsyncLoop ℕ) [.init 1 true (.ok .eventfd)] = some s ∧
      ∃ s', run step s oneSend = some s' ∧
        run UvAsync.step (s.toUvAsync Unit 1) (s.opsAlong 1 oneSend) = some (s'.toUvAsync Unit 1) ∧
          s'.called 1 = s.called 1 + (s.opsAlong 1 oneSend).count .received ∧
          (s.opsAlong 1 oneSend).count .send + s'.unwon 1 =
            s.unwon 1 + oneSend.countP (AsyncEvent.sendsTo 1) :=
  exists_last_of_map (fun s => (s.asyncCb 1, (run step s oneSend).isSome)) (b := (true, true))
    (by decide +kernel) fun s _ heq => by
      obtain ⟨hcb, hsome⟩ := Prod.ext_iff.mp heq
      exact exists_last hsome fun s' hs' => handle_is_flag hcb spares_oneSend hs'

/-! ### No callback behind the close -/

/-- **No callback comes behind `uv_close`.** Once a handle is closed, wherever the loop is and whatever was
sent, its callback is not called, unless it is initialised again. -/
theorem closed_not_called {handle : α} (hrun : run step (initial : AsyncLoop α) es = some s)
    (hclose : s.step (.close handle) = some s₁) (hspares : ∀ e ∈ es', e.Spares handle)
    (hrun' : run step s₁ es' = some s') : s'.called handle = s.called handle := by
  have hinv := inv_of_run hrun
  have hinv₁ := hinv.step hclose
  obtain ⟨-, hnext⟩ := allowed_of_step hclose
  obtain rfl := Option.some_injective _ hnext
  have hclosed : handle ∉ (s.uvAsyncClose handle).opened := fun hmem =>
    ((mem_opened_close hinv.shape.nodup).mp hmem).1 rfl
  suffices h : s'.Inv ∧ handle ∉ s'.opened ∧ s'.called handle = s.called handle from h.2.2
  refine run_invariant_along (P := fun _ e => e.Spares handle)
    (I := fun s' => s'.Inv ∧ handle ∉ s'.opened ∧ s'.called handle = s.called handle) ?_
    ⟨hinv₁, hclosed, rfl⟩ (Along.of_forall hspares) hrun'
  rintro s₁ e s₂ ⟨hinv, hnot, hcalled⟩ he hstep
  obtain ⟨hnot', hcalled'⟩ := (moves_of_step hstep).of_closed hinv.shape.nodup he hnot
  exact ⟨hinv.step hstep, hnot', hcalled'.trans hcalled⟩

/-- The loop goes on behind a callback, and comes back once. -/
def comesBack : List (AsyncEvent ℕ) := [.return, .take, .write ⟨2, true, 0⟩, .poll, .read, .take, .take]

/-- The handle is closed in a callback while it is pending and in the local queue of the loop. -/
theorem closed_not_called_two_senders :
    ∃ s, run step (initial : AsyncLoop ℕ) (twoSenders.take 10) = some s ∧
      ∃ s₁ s', s.step (.close 2) = some s₁ ∧ run step s₁ comesBack = some s' ∧ s'.called 2 = s.called 2 :=
  exists_last_of_map (fun s => (s.step (.close 2)).map fun s₁ => (run step s₁ comesBack).isSome)
    (b := some true) (by decide +kernel) fun s hs heq => by
      obtain ⟨s₁, hs₁, hsome⟩ := Option.map_eq_some_iff.mp heq
      obtain ⟨s', hs'⟩ := Option.isSome_iff_exists.mp hsome
      refine ⟨s₁, s', hs₁, hs', closed_not_called hs hs₁ ?_ hs'⟩
      intro e he
      simp only [comesBack, List.mem_cons, List.not_mem_nil, or_false] at he
      rcases he with rfl | rfl | rfl | rfl | rfl | rfl | rfl <;> trivial

/-! ### Everybody comes to rest -/

/-- A bound on the steps of a pass over some handles. -/
def passWork (n : ℕ) : ℕ := 2 * n + 6

/-- What is left to do for a call. -/
def callWork (n : ℕ) (c : AsyncCall α) : ℕ := if c.won then passWork n + 1 else passWork n + 2

/-- What is left of a pass. -/
def phaseWork (n : ℕ) : AsyncPhase α → ℕ
  | .idle => 1
  | .polled => 0
  | .reading _ => 2 * n + 5
  | .event queue => 2 * queue.length + 3
  | .callback _ queue => 2 * queue.length + 4

/-- A bound on the steps that are left if nobody calls `uv_async_send`: whatever is written can cause a pass
over the handles. -/
def work (s : AsyncLoop α) : ℕ :=
  s.count * passWork s.opened.length + (s.calls.map (callWork s.opened.length)).sum +
    phaseWork s.opened.length s.phase

/-- The work of the calls in progress is that of one of them and that of the others. -/
theorem sum_callWork_erase {call : AsyncCall α} {calls : List (AsyncCall α)} (hcall : call ∈ calls) (n : ℕ) :
    (calls.map (callWork n)).sum = callWork n call + ((calls.erase call).map (callWork n)).sum :=
  (List.sum_map_erase (callWork n) hcall).symm

/-- **Every step leaves less to do.** -/
theorem Moves.work_lt (hm : Moves s e s') (he : e.GoesOn) (hshape : s.Shape) : s'.work < s.work := by
  have hopened := hm.opened_eq he
  unfold work
  rw [hopened]
  set n := s.opened.length with hn
  cases hm with
  | notStarted | started | closed | seen | called => exact absurd he id
  | lost call hcall hwon =>
    have hsum := sum_callWork_erase hcall n
    simp only [callWork, hwon, Bool.false_eq_true, if_false] at hsum
    dsimp only
    omega
  | won call hcall hwon =>
    have hsum := sum_callWork_erase hcall n
    simp only [callWork, hwon, Bool.false_eq_true, if_false] at hsum
    simp only [List.map_append, List.sum_append, List.map_cons, List.map_nil, List.sum_singleton, callWork,
      if_true]
    omega
  | wrote call fd count hcall hwon hfd hpos hle =>
    have hsum := sum_callWork_erase hcall n
    simp only [callWork, hwon, if_true] at hsum
    have hmul := Nat.mul_le_mul_right (passWork n) hle
    rw [Nat.add_mul, Nat.one_mul] at hmul
    dsimp only
    omega
  | polled hidle hcount =>
    simp only [hidle, phaseWork]
    omega
  | reads m count capacity hio hfd hlt =>
    have hmul := Nat.mul_le_mul_right (passWork n) (Nat.succ_le_of_lt hlt)
    rw [Nat.succ_mul, passWork] at hmul
    simp only [passWork, phaseWork]
    omega
  | drained count hio hle hlt =>
    have hlength : s.asyncHandles.length = n := by
      rw [hn, opened, AsyncPhase.queue_of_inIo hio, List.append_nil]
    simp only [phaseWork, hlength]
    cases hphase : s.phase with
    | idle | event | callback =>
      rw [hphase] at hio
      cases hio
    | polled =>
      have hmul := Nat.mul_le_mul_right (passWork n) (Nat.succ_le_of_lt (hlt (hshape.polled hphase)))
      rw [Nat.succ_mul, passWork] at hmul
      simp only [passWork]
      omega
    | reading m =>
      have hmul := Nat.mul_le_mul_right (passWork n) hle
      dsimp only
      omega
  | ended hphase =>
    simp only [hphase, phaseWork, List.length_nil]
    omega
  | passed handle queue hphase | cleared handle queue hphase | callback handle queue hphase =>
    simp only [hphase, phaseWork, List.length_cons]
    omega
  | returned handle queue hphase =>
    simp only [hphase, phaseWork]
    omega

/-- **Everybody comes to rest.** From every state that a run leads to, if nobody calls `uv_async_send`, and no
handle is opened or closed, then there is a bound on the steps that the threads and the loop can make, in
whatever order. Where none can be made, no thread is in `uv_async_send`, the loop sleeps, no handle is pending
that is not closed, and for every call the callback has been called since the call began. -/
theorem async_settles (hrun : run step (initial : AsyncLoop α) es = some s) :
    (∃ n, ∀ es' s', (∀ e ∈ es', e.GoesOn) → run step s es' = some s' → es'.length ≤ n) ∧
      ((∀ e, e.GoesOn → s.step e = none) → s.calls = [] ∧ s.phase = .idle ∧ s.count = 0 ∧
        (∀ handle ∈ s.opened, s.pending handle = false) ∧
        ∀ c ∈ s.returned, c.handle ∈ s.opened → s.asyncCb c.handle = true → c.since < s.called c.handle) := by
  have hinv := inv_of_run hrun
  refine ⟨⟨s.work, fun es' s' hgo hrun' => ?_⟩, fun hstop => ?_⟩
  · refine (Nat.le_add_right _ _).trans (length_add_le_of_decreasing (I := Inv) work (fun s e s' hs he hstep => ?_)
      hinv (Along.of_forall hgo) hrun')
    exact ⟨hs.step hstep, (moves_of_step hstep).work_lt he hs.shape⟩
  · have hnot : ∀ e, e.GoesOn → ¬ s.Allowed e := by
      intro e he hallowed
      obtain ⟨s', hs'⟩ := hinv.shape.exists_step hallowed
      rw [hstop e he] at hs'
      cases hs'
    have hcalls : s.calls = [] := by
      refine List.eq_nil_iff_forall_not_mem.mpr fun c hc => ?_
      cases hwon : c.won with
      | true => exact hnot (.write c) trivial ⟨hc, hwon⟩
      | false => exact hnot (.exchange c) trivial ⟨hc, hwon⟩
    have hidle : s.phase = .idle := by
      cases hphase : s.phase with
      | idle => rfl
      | polled | reading => exact absurd (by rw [Allowed, hphase]; rfl) (hnot .read trivial)
      | event => exact absurd (by rw [Allowed, hphase]; rfl) (hnot .take trivial)
      | callback => exact absurd (by rw [Allowed, hphase]; rfl) (hnot .return trivial)
    have hcount : s.count = 0 := by
      by_contra hne
      exact hnot .poll trivial ⟨hidle, Nat.pos_of_ne_zero hne⟩
    have hpending : ∀ handle ∈ s.opened, s.pending handle = false := by
      intro handle hopened
      refine Bool.eq_false_of_not_eq_true fun hpending => ?_
      rcases hinv.told handle hopened hpending with hqueue | hpos | hio | ⟨c, hc, -⟩
      · rw [hidle] at hqueue
        cases hqueue
      · exact hpos.ne' hcount
      · rw [hidle] at hio
        cases hio
      · rw [hcalls] at hc
        cases hc
    refine ⟨hcalls, hidle, hcount, hpending, fun c hc hopened hcb => ?_⟩
    refine ((hinv.answered.returned c hc).owed hcb).resolve_left fun htrue => ?_
    rw [hpending c.handle hopened] at htrue
    cases htrue

/-- Two senders have to come to rest, and at rest both handles have been called back. -/
theorem async_settles_two_senders : ∃ s, run step (initial : AsyncLoop ℕ) twoSenders = some s ∧
    (∃ n, ∀ es' s', (∀ e ∈ es', e.GoesOn) → run step s es' = some s' → es'.length ≤ n) ∧
      ((∀ e, e.GoesOn → s.step e = none) → s.calls = [] ∧ s.phase = .idle ∧ s.count = 0 ∧
        (∀ handle ∈ s.opened, s.pending handle = false) ∧
        ∀ c ∈ s.returned, c.handle ∈ s.opened → s.asyncCb c.handle = true → c.since < s.called c.handle) :=
  exists_last (by decide +kernel) fun _ hs => async_settles hs

end AsyncLoop

end MyUvpp
