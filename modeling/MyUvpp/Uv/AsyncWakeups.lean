import MyUvpp.Foundation.TransitionSystem
import MyUvpp.Uv.Async
import Mathlib.Data.List.Count
import Mathlib.Data.List.Nodup

/-! # What wakes the loop up

What a step of the async handles can do, and what no step breaks: a handle that is `pending` is in the local
queue of the loop, or something tells the loop to come back; and a call of `uv_async_send` that has returned
has been answered or its handle is `pending`. -/

namespace MyUvpp

namespace AsyncLoop

variable {α : Type*} [DecidableEq α] {s s' : AsyncLoop α} {e : AsyncEvent α}

/-! ### What a step can do -/

/-- What a step can do, with what it rests on. -/
inductive Moves (s : AsyncLoop α) : AsyncEvent α → AsyncLoop α → Prop where
  | notStarted (handle : α) (cb : Bool) (r : Except ℤ WakeFd) : Moves s (.init handle cb r) s
  | started (handle : α) (cb : Bool) (r : Except ℤ WakeFd) (fd : WakeFd) (count : ℕ)
      (hnew : handle ∉ s.opened) (hcalls : ∀ c ∈ s.calls, c.handle ≠ handle)
      (hstart : s.fd = some fd ∧ count = s.count ∨ s.fd = none ∧ count = 0 ∧ 0 < fd.capacity) :
      Moves s (.init handle cb r) { s with
        fd := some fd
        count
        asyncCb := Function.update s.asyncCb handle cb
        pending := Function.update s.pending handle false
        asyncHandles := s.asyncHandles ++ [handle]
        initialised := handle :: s.initialised
        called := Function.update s.called handle 0
        returned := s.returned.filter fun c => c.handle ≠ handle }
  | closed (handle : α) (hmem : handle ∈ s.opened) : Moves s (.close handle) (s.uvAsyncClose handle)
  | seen (handle : α) (hpending : s.pending handle = true) :
      Moves s (.send handle) { s with
        returned := s.returned ++ [⟨handle, false, s.called handle⟩] }
  | called (handle : α) (hinit : handle ∈ s.initialised) (hpending : s.pending handle = false) :
      Moves s (.send handle) { s with
        calls := s.calls ++ [⟨handle, false, s.called handle⟩] }
  | lost (call : AsyncCall α) (hcall : call ∈ s.calls) (hwon : call.won = false)
      (hpending : s.pending call.handle = true) :
      Moves s (.exchange call) { s with calls := s.calls.erase call, returned := s.returned ++ [call] }
  | won (call : AsyncCall α) (hcall : call ∈ s.calls) (hwon : call.won = false)
      (hpending : s.pending call.handle = false) :
      Moves s (.exchange call) { s with
        calls := s.calls.erase call ++ [{ call with won := true }]
        pending := Function.update s.pending call.handle true }
  | wrote (call : AsyncCall α) (fd : WakeFd) (count : ℕ) (hcall : call ∈ s.calls) (hwon : call.won = true)
      (hfd : s.fd = some fd) (hpos : 0 < fd.capacity → 0 < count) (hle : count ≤ s.count + 1) :
      Moves s (.write call) { s with
        calls := s.calls.erase call
        count
        returned := s.returned ++ [call] }
  | polled (hidle : s.phase = .idle) (hcount : 0 < s.count) : Moves s .poll { s with phase := .polled }
  | reads (n count capacity : ℕ) (hio : s.phase.inIo = true) (hfd : s.fd = some (.pipe capacity))
      (hlt : count < s.count) :
      Moves s .read { s with count, phase := .reading n }
  | drained (count : ℕ) (hio : s.phase.inIo = true) (hle : count ≤ s.count)
      (hlt : 0 < s.count → count < s.count) :
      Moves s .read { s with count, phase := .event s.asyncHandles, asyncHandles := [] }
  | ended (hphase : s.phase = .event []) : Moves s .take { s with phase := .idle }
  | passed (handle : α) (queue : List α) (hphase : s.phase = .event (handle :: queue))
      (hpending : s.pending handle = false) :
      Moves s .take { s with asyncHandles := s.asyncHandles ++ [handle], phase := .event queue }
  | cleared (handle : α) (queue : List α) (hphase : s.phase = .event (handle :: queue))
      (hpending : s.pending handle = true) (hcb : s.asyncCb handle = false) :
      Moves s .take { s with
        asyncHandles := s.asyncHandles ++ [handle]
        phase := .event queue
        pending := Function.update s.pending handle false }
  | callback (handle : α) (queue : List α) (hphase : s.phase = .event (handle :: queue))
      (hpending : s.pending handle = true) (hcb : s.asyncCb handle = true) :
      Moves s .take { s with
        asyncHandles := s.asyncHandles ++ [handle]
        phase := .callback handle queue
        pending := Function.update s.pending handle false
        called := Function.update s.called handle (s.called handle + 1) }
  | returned (handle : α) (queue : List α) (hphase : s.phase = .callback handle queue) :
      Moves s .return { s with phase := .event queue }

omit [DecidableEq α] in
/-- `uv__async_start` fails, or sets the descriptor and its count and nothing else. -/
theorem uvAsyncStart_eq (r : Except ℤ WakeFd) :
    (∃ err, s.uvAsyncStart r = .error err) ∨
      ∃ fd count, s.uvAsyncStart r = .ok { s with fd := some fd, count } ∧
        (s.fd = some fd ∧ count = s.count ∨ s.fd = none ∧ count = 0 ∧ r = .ok fd) := by
  unfold uvAsyncStart
  split
  next fd hfd =>
    refine .inr ⟨fd, s.count, ?_, .inl ⟨hfd, rfl⟩⟩
    rw [← hfd]
  next hfd =>
    cases r with
    | error err => exact .inl ⟨err, rfl⟩
    | ok fd => exact .inr ⟨fd, 0, rfl, .inr ⟨hfd, rfl, rfl⟩⟩

/-- An event that happened was allowed, and led where `next` says. -/
theorem allowed_of_step (h : s.step e = some s') : s.Allowed e ∧ s.next e = some s' := by
  unfold step at h
  split at h
  next hallowed => exact ⟨hallowed, h⟩
  next => cases h

/-- A round of the loop of `uv__async_io`. -/
theorem moves_of_uvAsyncIo {n : ℕ} (hio : s.phase.inIo = true) (h : s.uvAsyncIo n = some s') :
    Moves s .read s' := by
  unfold uvAsyncIo at h
  split at h
  next => cases h
  next =>
    unfold uvAsyncEvent at h
    split_ifs at h with hzero hassert hassert
    · cases h
      exact .drained s.count hio le_rfl fun hpos => absurd hzero hpos.ne'
    · cases h
      exact .drained 0 hio (Nat.zero_le _) id
  next capacity hfd =>
    dsimp only at h
    split_ifs at h with hfull
    · cases h
      refine .reads _ _ capacity hio hfd ?_
      omega
    · unfold uvAsyncEvent at h
      rw [if_neg (by rintro ⟨heq, -⟩; cases heq)] at h
      cases h
      refine .drained _ hio (Nat.sub_le _ _) fun hpos => Nat.sub_lt hpos ?_
      exact Nat.lt_min.mpr ⟨hpos, by decide⟩

/-- `uv_async_init` starts the wakeups of the loop, or finds them started, or fails. -/
theorem moves_of_uvAsyncInit {handle : α} (cb : Bool) {r : Except ℤ WakeFd} (hnew : handle ∉ s.opened)
    (hcalls : ∀ c ∈ s.calls, c.handle ≠ handle)
    (hr : match r with
      | .ok fd => 0 < fd.capacity
      | .error err => err < 0) :
    Moves s (.init handle cb r) (s.uvAsyncInit handle cb r).2 := by
  unfold uvAsyncInit
  rcases s.uvAsyncStart_eq r with ⟨err, herr⟩ | ⟨fd, count, hok, hstart⟩
  · rw [herr]
    exact .notStarted handle cb r
  · rw [hok]
    refine .started handle cb r fd count hnew hcalls (hstart.imp_right ?_)
    rintro ⟨hfd, hcount, rfl⟩
    exact ⟨hfd, hcount, hr⟩

/-- `uv_async_send` returns at once from a handle that is pending already. -/
theorem moves_of_uvAsyncSend {handle : α} (hinit : handle ∈ s.initialised) :
    Moves s (.send handle) (s.uvAsyncSend handle) := by
  unfold uvAsyncSend
  by_cases hpending : s.pending handle = true
  · rw [if_pos hpending]
    exact .seen handle hpending
  · rw [if_neg hpending]
    exact .called handle hinit (Bool.eq_false_of_not_eq_true hpending)

/-- A call has won when it is the one that sets `pending`. -/
theorem moves_of_exchange {call : AsyncCall α} (hcall : call ∈ s.calls) (hwon : call.won = false) :
    Moves s (.exchange call) (s.exchange call) := by
  unfold exchange
  by_cases hpending : s.pending call.handle = true
  · rw [if_pos hpending]
    exact .lost call hcall hwon hpending
  · rw [if_neg hpending]
    exact .won call hcall hwon (Bool.eq_false_of_not_eq_true hpending)

/-- A write leaves something to read in every file descriptor that can hold anything. -/
theorem moves_of_write {call : AsyncCall α} (hcall : call ∈ s.calls) (hwon : call.won = true)
    (h : s.write call = some s') : Moves s (.write call) s' := by
  unfold write at h
  obtain ⟨fd, hfd, rfl⟩ := Option.map_eq_some_iff.mp h
  refine .wrote call fd _ hcall hwon hfd (fun hpos => ?_) ?_
  · split_ifs <;> omega
  · split_ifs <;> omega

/-- What the loop of `uv__async_event` does with the handle at the head of its queue. -/
theorem moves_of_uvAsyncTake {handle : α} {queue : List α} (hphase : s.phase = .event (handle :: queue)) :
    Moves s .take (s.uvAsyncTake handle queue) := by
  unfold uvAsyncTake callback
  by_cases hpending : s.pending handle = true
  · rw [if_pos hpending]
    by_cases hcb : s.asyncCb handle = true
    · rw [if_pos hcb]
      exact .callback handle queue hphase hpending hcb
    · rw [if_neg hcb]
      exact .cleared handle queue hphase hpending (Bool.eq_false_of_not_eq_true hcb)
  · rw [if_neg hpending]
    exact .passed handle queue hphase (Bool.eq_false_of_not_eq_true hpending)

/-- A step in the loop of `uv__async_io`. -/
theorem moves_of_read (h : s.next .read = some s') : Moves s .read s' := by
  simp only [next] at h
  split at h
  next hphase => exact moves_of_uvAsyncIo (by rw [hphase]; rfl) h
  next n hphase => exact moves_of_uvAsyncIo (by rw [hphase]; rfl) h
  next => cases h

/-- A step in the loop of `uv__async_event`, which ends when its queue is empty. -/
theorem moves_of_take (h : s.next .take = some s') : Moves s .take s' := by
  simp only [next] at h
  split at h
  next hphase =>
    cases h
    exact .ended hphase
  next handle queue hphase =>
    cases h
    exact moves_of_uvAsyncTake hphase
  next => cases h

/-- A callback returns to the loop of `uv__async_event`. -/
theorem moves_of_return (h : s.next .return = some s') : Moves s .return s' := by
  simp only [next] at h
  split at h
  next handle queue hphase =>
    cases h
    exact .returned handle queue hphase
  next => cases h

/-- **What a step can do.** -/
theorem moves_of_step (h : s.step e = some s') : Moves s e s' := by
  obtain ⟨hallowed, hnext⟩ := allowed_of_step h
  cases e with
  | init handle cb r =>
    obtain ⟨-, hnew, hcalls, hr⟩ := hallowed
    cases hnext
    exact moves_of_uvAsyncInit cb hnew hcalls hr
  | close handle =>
    cases hnext
    exact .closed handle hallowed.2
  | send handle =>
    cases hnext
    exact moves_of_uvAsyncSend hallowed
  | exchange call =>
    cases hnext
    exact moves_of_exchange hallowed.1 hallowed.2
  | write call => exact moves_of_write hallowed.1 hallowed.2 hnext
  | poll =>
    cases hnext
    exact .polled hallowed.1 hallowed.2
  | read => exact moves_of_read hnext
  | take => exact moves_of_take hnext
  | «return» => exact moves_of_return hnext

/-! ### The handles and the file descriptor -/

omit [DecidableEq α] in
/-- A round of the loop of `uv__async_event` leaves the same handles. -/
theorem opened_take {handle : α} {queue : List α} (hphase : s.phase = .event (handle :: queue)) :
    s.asyncHandles ++ [handle] ++ queue = s.opened := by
  rw [opened, hphase, List.append_assoc]
  rfl

/-- Going on opens and closes nothing. -/
theorem Moves.opened_eq (hm : Moves s e s') (he : e.GoesOn) : s'.opened = s.opened := by
  cases hm with
  | notStarted | started | closed | seen | called => exact absurd he id
  | lost | won | wrote => rfl
  | polled hidle => simp [opened, hidle]
  | reads n count capacity hio => simp [opened, AsyncPhase.queue_of_inIo hio]
  | drained count hio => simp [opened, AsyncPhase.queue_of_inIo hio]
  | ended hphase => simp [opened, hphase]
  | passed handle queue hphase | cleared handle queue hphase | callback handle queue hphase =>
    exact opened_take hphase
  | returned handle queue hphase => simp [opened, hphase]

/-- Every handle that is not closed is in one queue, once, and what is used is there. -/
structure Shape (s : AsyncLoop α) : Prop where
  nodup : s.opened.Nodup
  known : ∀ handle ∈ s.opened, handle ∈ s.initialised
  started : s.initialised ≠ [] → s.fd ≠ none
  capacity : ∀ fd, s.fd = some fd → 0 < fd.capacity
  counted : 0 < s.count → s.fd ≠ none
  calls : ∀ c ∈ s.calls, c.handle ∈ s.initialised
  polled : s.phase = .polled → 0 < s.count
  reading : ∀ n, s.phase = .reading n → ∃ capacity, s.fd = some (.pipe capacity)

omit [DecidableEq α] in
/-- A loop just initialised has no handles, no calls and no queue. -/
theorem shape_initial : (initial : AsyncLoop α).Shape where
  nodup := List.nodup_nil
  known _ h := by cases h
  started h := absurd rfl h
  capacity _ h := by cases h
  counted h := absurd h (lt_irrefl 0)
  calls _ h := by cases h
  polled h := by cases h
  reading _ h := by cases h

/-- The handles that stay open when one is closed. -/
theorem mem_opened_close {handle h : α} (hnodup : s.opened.Nodup) :
    h ∈ (s.uvAsyncClose handle).opened ↔ h ≠ handle ∧ h ∈ s.opened := by
  obtain ⟨hhandles, hqueue, -⟩ := List.nodup_append.mp hnodup
  simp only [opened, uvAsyncClose, AsyncPhase.queue_close, List.mem_append, hhandles.mem_erase_iff,
    hqueue.mem_erase_iff]
  tauto

/-- Closing a handle does not bring the loop to another place. -/
theorem phase_of_close {handle : α} :
    ((s.uvAsyncClose handle).phase = .polled → s.phase = .polled) ∧
      ∀ n, (s.uvAsyncClose handle).phase = .reading n → s.phase = .reading n := by
  unfold uvAsyncClose
  cases s.phase with
  | idle | polled | reading => exact ⟨id, fun _ => id⟩
  | event | callback => exact ⟨by simp [AsyncPhase.close], by simp [AsyncPhase.close]⟩

/-- A new handle is put behind the others, and the loop has its file descriptor from then on. -/
theorem Shape.moves_init (h : s.Shape) {handle : α} {cb : Bool} {r : Except ℤ WakeFd}
    (hm : Moves s (.init handle cb r) s') : s'.Shape := by
  cases hm with
  | notStarted => exact h
  | started _ _ _ fd count hnew hcalls hstart =>
    have hperm : (s.asyncHandles ++ [handle] ++ s.phase.queue).Perm (handle :: s.opened) := by
      rw [List.append_assoc]
      exact List.perm_middle
    refine ⟨hperm.nodup_iff.mpr (List.nodup_cons.mpr ⟨hnew, h.nodup⟩), ?_, fun _ => Option.some_ne_none fd, ?_,
      fun _ => Option.some_ne_none fd, fun c hc => List.mem_cons_of_mem _ (h.calls c hc), ?_, ?_⟩
    · intro h' hmem
      rcases List.mem_cons.mp (hperm.mem_iff.mp hmem) with rfl | hold
      · exact List.mem_cons_self
      · exact List.mem_cons_of_mem _ (h.known h' hold)
    · intro fd' hfd'
      obtain rfl := Option.some_injective _ hfd'
      rcases hstart with ⟨hfd, -⟩ | ⟨-, -, hpos⟩
      · exact h.capacity fd hfd
      · exact hpos
    · intro hpolled
      have hcount := h.polled hpolled
      rcases hstart with ⟨-, rfl⟩ | ⟨hfd, -⟩
      · exact hcount
      · exact absurd hfd (h.counted hcount)
    · intro n hn
      obtain ⟨capacity, hpipe⟩ := h.reading n hn
      rcases hstart with ⟨hfd, -⟩ | ⟨hfd, -⟩
      · exact ⟨capacity, hfd.symm.trans hpipe⟩
      · rw [hfd] at hpipe
        cases hpipe

/-- **A step keeps the handles in one queue**, and what is used there. A handle that is closed leaves the
queue that it is in; every other step of a thread concerns the calls only, and every step of the loop leaves
the same handles in the order that they have. -/
theorem Shape.moves (h : s.Shape) (hm : Moves s e s') : s'.Shape := by
  have hopened := hm.opened_eq
  cases hm with
  | notStarted handle cb r => exact h
  | started handle cb r fd count hnew hcalls hstart =>
    exact h.moves_init (.started handle cb r fd count hnew hcalls hstart)
  | closed handle hmem =>
    refine ⟨?_, fun h' hmem' => h.known h' ((mem_opened_close h.nodup).mp hmem').2, h.started, h.capacity,
      h.counted, h.calls, fun hpolled => h.polled (phase_of_close.1 hpolled),
      fun n hn => h.reading n (phase_of_close.2 n hn)⟩
    rw [AsyncLoop.opened, uvAsyncClose, AsyncPhase.queue_close]
    exact h.nodup.sublist (List.erase_sublist.append List.erase_sublist)
  | seen handle hpending =>
    exact ⟨h.nodup, h.known, h.started, h.capacity, h.counted, h.calls, h.polled, h.reading⟩
  | called handle hinit hpending =>
    refine ⟨h.nodup, h.known, h.started, h.capacity, h.counted, fun c hc => ?_, h.polled, h.reading⟩
    rcases List.mem_append.mp hc with hc | hc
    · exact h.calls c hc
    · rw [List.mem_singleton.mp hc]
      exact hinit
  | lost call hcall hwon hpending =>
    exact ⟨h.nodup, h.known, h.started, h.capacity, h.counted,
      fun c hc => h.calls c (List.mem_of_mem_erase hc), h.polled, h.reading⟩
  | won call hcall hwon hpending =>
    refine ⟨h.nodup, h.known, h.started, h.capacity, h.counted, fun c hc => ?_, h.polled, h.reading⟩
    rcases List.mem_append.mp hc with hc | hc
    · exact h.calls c (List.mem_of_mem_erase hc)
    · rw [List.mem_singleton.mp hc]
      exact h.calls call hcall
  | wrote call fd count hcall hwon hfd hpos hle =>
    refine ⟨h.nodup, h.known, h.started, h.capacity, fun _ => ?_,
      fun c hc => h.calls c (List.mem_of_mem_erase hc), fun _ => hpos (h.capacity fd hfd), h.reading⟩
    rw [hfd]
    exact Option.some_ne_none fd
  | polled hidle hcount =>
    refine ⟨?_, ?_, h.started, h.capacity, h.counted, h.calls, fun _ => hcount, by simp⟩
    · exact (hopened trivial).symm ▸ h.nodup
    · exact (hopened trivial).symm ▸ h.known
  | reads n count capacity hio hfd hlt =>
    refine ⟨?_, ?_, h.started, h.capacity, fun hpos => h.counted (hpos.trans hlt), h.calls, by simp,
      fun _ _ => ⟨capacity, hfd⟩⟩
    · exact (hopened trivial).symm ▸ h.nodup
    · exact (hopened trivial).symm ▸ h.known
  | drained count hio hle hlt =>
    refine ⟨?_, ?_, h.started, h.capacity, fun hpos => h.counted (hpos.trans_le hle), h.calls, by simp, by simp⟩
    · exact (hopened trivial).symm ▸ h.nodup
    · exact (hopened trivial).symm ▸ h.known
  | ended hphase | passed handle queue hphase | cleared handle queue hphase | callback handle queue hphase
  | returned handle queue hphase =>
    refine ⟨?_, ?_, h.started, h.capacity, h.counted, h.calls, by simp, by simp⟩
    · exact (hopened trivial).symm ▸ h.nodup
    · exact (hopened trivial).symm ▸ h.known

/-! ### What is pending -/

/-- Something tells the loop to come back. -/
def Woken (s : AsyncLoop α) : Prop := 0 < s.count ∨ s.phase.inIo = true ∨ ∃ c ∈ s.calls, c.won = true

/-- A handle that is pending is still to be visited, or the loop will come back. -/
def Told (s : AsyncLoop α) : Prop :=
  ∀ handle ∈ s.opened, s.pending handle = true → handle ∈ s.phase.queue ∨ s.Woken

omit [DecidableEq α] in
/-- A loop just initialised has no handle to be told of. -/
theorem told_initial : (initial : AsyncLoop α).Told := by
  intro handle h
  cases h

/-- A call that has not won says nothing to the loop. -/
theorem exists_won_erase {call : AsyncCall α} {calls : List (AsyncCall α)} (hwon : call.won = false)
    (h : ∃ c ∈ calls, c.won = true) : ∃ c ∈ calls.erase call, c.won = true := by
  obtain ⟨c, hc, hcwon⟩ := h
  refine ⟨c, (List.mem_erase_of_ne ?_).mpr hc, hcwon⟩
  rintro rfl
  rw [hwon] at hcwon
  cases hcwon

omit [DecidableEq α] in
/-- A round of the loop of `uv__async_event`: the handle is not pending behind it. -/
theorem Told.take (h : s.Told) {handle : α} {queue : List α} (hphase : s.phase = .event (handle :: queue))
    {h' : α} (hmem : h' ∈ s.asyncHandles ++ [handle] ++ queue) (hne : h' ≠ handle)
    (hpending : s.pending h' = true) : h' ∈ queue ∨ 0 < s.count ∨ ∃ c ∈ s.calls, c.won = true := by
  rw [opened_take hphase] at hmem
  rcases h h' hmem hpending with hqueue | hcount | hio | hwon
  · rw [hphase] at hqueue
    exact .inl ((List.mem_cons.mp hqueue).resolve_left hne)
  · exact .inr (.inl hcount)
  · rw [hphase] at hio
    cases hio
  · exact .inr (.inr hwon)

/-- A handle that is initialised is not pending, and a file descriptor that is there is kept. -/
theorem Told.moves_init (h : s.Told) (hshape : s.Shape) {handle : α} {cb : Bool} {r : Except ℤ WakeFd}
    (hm : Moves s (.init handle cb r) s') : s'.Told := by
  cases hm with
  | notStarted => exact h
  | started _ _ _ fd count hnew hcalls hstart =>
    intro h' hmem hpending
    have hne : h' ≠ handle := by
      rintro rfl
      dsimp only at hpending
      rw [Function.update_self] at hpending
      cases hpending
    dsimp only at hpending
    rw [Function.update_of_ne hne] at hpending
    have hold : h' ∈ s.opened := by
      simp only [opened, List.mem_append, List.mem_singleton] at hmem ⊢
      tauto
    refine (h h' hold hpending).imp_right (Or.imp_left fun hcount => ?_)
    rcases hstart with ⟨-, heq⟩ | ⟨hfd, -⟩
    · exact heq ▸ hcount
    · exact absurd hfd (hshape.counted hcount)

/-- The handles that stay are to be visited as before. -/
theorem Told.moves_close (h : s.Told) (hshape : s.Shape) (handle : α) : (s.uvAsyncClose handle).Told := by
  intro h' hmem hpending
  obtain ⟨hne, hold⟩ := (mem_opened_close hshape.nodup).mp hmem
  refine (h h' hold hpending).imp (fun hqueue => ?_) (Or.imp_right (Or.imp_left fun hio => ?_))
  · rw [uvAsyncClose, AsyncPhase.queue_close]
    exact (List.mem_erase_of_ne hne).mpr hqueue
  · rwa [uvAsyncClose, AsyncPhase.inIo_close]

omit [DecidableEq α] in
/-- At the end of `uv__async_event` no handle is left to visit. -/
theorem Told.moves_end (h : s.Told) (hphase : s.phase = .event []) : { s with phase := .idle }.Told := by
  intro h' hmem hp
  have hopened : h' ∈ s.opened := by
    rw [opened, hphase]
    exact hmem
  rcases h h' hopened hp with hqueue | hcount | hio | hwon
  · rw [hphase] at hqueue
    cases hqueue
  · exact .inr (.inl hcount)
  · rw [hphase] at hio
    cases hio
  · exact .inr (.inr (.inr hwon))

omit [DecidableEq α] in
/-- A callback that returns leaves the same handles to visit. -/
theorem Told.moves_return (h : s.Told) {handle : α} {queue : List α}
    (hphase : s.phase = .callback handle queue) : { s with phase := .event queue }.Told := by
  intro h' hmem hp
  have hopened : h' ∈ s.opened := by
    rw [opened, hphase]
    exact hmem
  have htold := h h' hopened hp
  rw [Woken, hphase] at htold
  exact htold

/-- **A step keeps the handles that are pending told of.** A handle becomes pending by a call that has won,
which tells the loop until it has written; and the loop passes by a handle only when it is not pending, or
clears it. -/
theorem Told.moves (h : s.Told) (hshape : s.Shape) (hm : Moves s e s') : s'.Told := by
  cases hm with
  | notStarted handle cb r => exact h
  | started handle cb r fd count hnew hcalls hstart =>
    exact h.moves_init hshape (.started handle cb r fd count hnew hcalls hstart)
  | closed handle hmem => exact h.moves_close hshape handle
  | seen handle hpending => exact h
  | called handle hinit hpending =>
    exact fun h' hmem hp => (h h' hmem hp).imp_right (Or.imp_right (Or.imp_right fun ⟨c, hc, hwon⟩ =>
      ⟨c, List.mem_append_left _ hc, hwon⟩))
  | lost call hcall hwon hpending =>
    exact fun h' hmem hp => (h h' hmem hp).imp_right (Or.imp_right (Or.imp_right (exists_won_erase hwon)))
  | won call hcall hwon hpending =>
    exact fun h' hmem hp => .inr (.inr (.inr ⟨_, List.mem_append_right _ (List.mem_singleton_self _), rfl⟩))
  | wrote call fd count hcall hwon hfd hpos hle =>
    exact fun h' hmem hp => .inr (.inl (hpos (hshape.capacity fd hfd)))
  | polled hidle hcount => exact fun h' hmem hp => .inr (.inl hcount)
  | reads n count capacity hio hfd hlt => exact fun h' hmem hp => .inr (.inr (.inl rfl))
  | drained count hio hle hlt => exact fun h' hmem hp => .inl hmem
  | ended hphase => exact h.moves_end hphase
  | passed handle queue hphase hpending =>
    intro h' hmem hp
    have hne : h' ≠ handle := by
      rintro rfl
      rw [hpending] at hp
      cases hp
    exact (h.take hphase hmem hne hp).imp_right (Or.imp_right .inr)
  | cleared handle queue hphase | callback handle queue hphase =>
    intro h' hmem hp
    -- the handle that is visited has been cleared
    have hne : h' ≠ handle := by
      rintro rfl
      dsimp only at hp
      rw [Function.update_self] at hp
      cases hp
    dsimp only at hp
    rw [Function.update_of_ne hne] at hp
    exact (h.take hphase hmem hne hp).imp_right (Or.imp_right .inr)
  | returned handle queue hphase => exact h.moves_return hphase

/-! ### What has been answered -/

/-- The callback has been called since a call of `uv_async_send` began, or its handle is pending. -/
structure Owed (s : AsyncLoop α) (c : AsyncCall α) : Prop where
  since_le : c.since ≤ s.called c.handle
  owed : s.asyncCb c.handle = true → s.pending c.handle = true ∨ c.since < s.called c.handle

/-- Every call that has set `pending`, or found it set, is answered or will be. -/
structure Answered (s : AsyncLoop α) : Prop where
  since_le : ∀ c ∈ s.calls, c.since ≤ s.called c.handle
  won : ∀ c ∈ s.calls, c.won = true → s.Owed c
  returned : ∀ c ∈ s.returned, s.Owed c

omit [DecidableEq α] in
/-- Nor a call to be answered. -/
theorem answered_initial : (initial : AsyncLoop α).Answered where
  since_le _ h := by cases h
  won _ h := by cases h
  returned _ h := by cases h

/-- Callbacks are not taken back. -/
theorem Moves.called_le (hm : Moves s e s') {handle : α} (he : e.Spares handle) :
    s.called handle ≤ s'.called handle := by
  cases hm with
  | started h => exact (Function.update_of_ne he.symm 0 s.called).ge
  | callback h =>
    by_cases heq : handle = h
    · subst heq
      dsimp only
      rw [Function.update_self]
      exact Nat.le_succ _
    · exact (Function.update_of_ne heq ..).ge
  | _ => exact le_rfl

/-- **What is owed stays owed until the callback.** -/
theorem Owed.moves {c : AsyncCall α} (h : s.Owed c) (hm : Moves s e s')
    (he : e.Spares c.handle) : s'.Owed c := by
  refine ⟨h.since_le.trans (hm.called_le he), ?_⟩
  cases hm with
  | started handle =>
    dsimp only
    rw [Function.update_of_ne he.symm, Function.update_of_ne he.symm, Function.update_of_ne he.symm]
    exact h.owed
  | won call =>
    intro hcb
    refine (h.owed hcb).imp_left fun hpending => ?_
    dsimp only
    by_cases heq : c.handle = call.handle
    · rw [heq, Function.update_self]
    · rw [Function.update_of_ne heq, hpending]
  | cleared handle queue hphase hpending hcb =>
    intro hcb'
    dsimp only at hcb' ⊢
    have hne : c.handle ≠ handle := by
      intro heq
      rw [heq, hcb] at hcb'
      cases hcb'
    rw [Function.update_of_ne hne]
    exact h.owed hcb'
  | callback handle queue hphase hpending hcb =>
    intro hcb'
    dsimp only at hcb' ⊢
    by_cases heq : c.handle = handle
    · rw [← heq, Function.update_self, Function.update_self]
      exact .inr (Nat.lt_succ_of_le h.since_le)
    · rw [Function.update_of_ne heq, Function.update_of_ne heq]
      exact h.owed hcb'
  | _ => exact h.owed

/-- What a step leaves as it was. -/
theorem Answered.moves_of_mem (h : s.Answered) (hm : Moves s e s') (hcalls : ∀ c ∈ s'.calls, c ∈ s.calls)
    (hreturned : ∀ c ∈ s'.returned, c ∈ s.returned)
    (hspares : ∀ c ∈ s'.calls ++ s'.returned, e.Spares c.handle) : s'.Answered where
  since_le c hc := (h.since_le c (hcalls c hc)).trans (hm.called_le (hspares c (List.mem_append_left _ hc)))
  won c hc hwon := (h.won c (hcalls c hc) hwon).moves hm (hspares c (List.mem_append_left _ hc))
  returned c hc := (h.returned c (hreturned c hc)).moves hm (hspares c (List.mem_append_right _ hc))

/-- Whatever one event does to the loop, the calls that returned stay answered. -/
theorem Answered.moves (h : s.Answered) (hm : Moves s e s') : s'.Answered := by
  have hstep := hm
  cases hm with
  | notStarted => exact h
  | started handle cb r fd count hnew hcalls =>
    refine h.moves_of_mem hstep (fun c => id) (fun c hc => (List.mem_filter.mp hc).1) fun c hc => ?_
    rcases List.mem_append.mp hc with hc | hc
    · exact (hcalls c hc).symm
    · exact (of_decide_eq_true (List.mem_filter.mp hc).2).symm
  | seen handle hpending =>
    refine ⟨h.since_le, fun c hc hwon => (h.won c hc hwon).moves hstep trivial, fun c hc => ?_⟩
    rcases List.mem_append.mp hc with hc | hc
    · exact (h.returned c hc).moves hstep trivial
    · rw [List.mem_singleton.mp hc]
      exact ⟨le_rfl, fun _ => .inl hpending⟩
  | called handle hinit hpending =>
    refine ⟨fun c hc => ?_, fun c hc hwon => ?_, fun c hc => (h.returned c hc).moves hstep trivial⟩
    · rcases List.mem_append.mp hc with hc | hc
      · exact h.since_le c hc
      · obtain rfl := List.mem_singleton.mp hc
        exact le_rfl
    · rcases List.mem_append.mp hc with hc | hc
      · exact (h.won c hc hwon).moves hstep trivial
      · rw [List.mem_singleton.mp hc] at hwon
        cases hwon
  | lost call hcall hwon hpending =>
    refine ⟨fun c hc => h.since_le c (List.mem_of_mem_erase hc),
      fun c hc hwon => (h.won c (List.mem_of_mem_erase hc) hwon).moves hstep trivial, fun c hc => ?_⟩
    rcases List.mem_append.mp hc with hc | hc
    · exact (h.returned c hc).moves hstep trivial
    · rw [List.mem_singleton.mp hc]
      exact ⟨h.since_le call hcall, fun _ => .inl hpending⟩
  | won call hcall hwon hpending =>
    refine ⟨fun c hc => ?_, fun c hc hwon' => ?_, fun c hc => (h.returned c hc).moves hstep trivial⟩
    · rcases List.mem_append.mp hc with hc | hc
      · exact h.since_le c (List.mem_of_mem_erase hc)
      · rw [List.mem_singleton.mp hc]
        exact h.since_le call hcall
    · rcases List.mem_append.mp hc with hc | hc
      · exact (h.won c (List.mem_of_mem_erase hc) hwon').moves hstep trivial
      · rw [List.mem_singleton.mp hc]
        exact ⟨h.since_le call hcall, fun _ => .inl (Function.update_self ..)⟩
  | wrote call fd count hcall hwon hfd hpos hle =>
    refine ⟨fun c hc => h.since_le c (List.mem_of_mem_erase hc),
      fun c hc hwon => (h.won c (List.mem_of_mem_erase hc) hwon).moves hstep trivial, fun c hc => ?_⟩
    rcases List.mem_append.mp hc with hc | hc
    · exact (h.returned c hc).moves hstep trivial
    · rw [List.mem_singleton.mp hc]
      exact (h.won call hcall hwon).moves hstep trivial
  | _ => exact h.moves_of_mem hstep (fun _ => id) (fun _ => id) fun _ _ => trivial

/-! ### How often the callback is called -/

/-- The calls on a handle that have not set `pending` so far. -/
def unwon (s : AsyncLoop α) (handle : α) : ℕ := s.calls.countP fun c => c.handle = handle ∧ c.won = false

/-- The callbacks so far, and those that there can be without another call. -/
def budget (s : AsyncLoop α) (handle : α) : ℕ :=
  s.called handle + (s.pending handle).toNat + s.unwon handle

/-- A call that has not won yet is one of those counted by `unwon` until it returns. -/
theorem unwon_erase {call : AsyncCall α} (hcall : call ∈ s.calls) (hwon : call.won = false) (handle : α) :
    s.unwon handle = { s with calls := s.calls.erase call }.unwon handle +
      if call.handle = handle then 1 else 0 := by
  rw [unwon, (List.perm_cons_erase hcall).countP_eq, List.countP_cons]
  simp only [hwon, and_true, decide_eq_true_eq]
  rfl

/-- **Every callback is for a call of `uv_async_send` of its own.** -/
theorem Moves.budget_le (hm : Moves s e s') {handle : α} (he : e.Spares handle)
    (hcb : s.asyncCb handle = true) :
    s'.asyncCb handle = true ∧ s'.budget handle ≤ s.budget handle + (e.sendsTo handle).toNat := by
  cases hm with
  | started new =>
    simp only [budget, unwon, Function.update_of_ne he.symm]
    exact ⟨hcb, Nat.le_add_right _ _⟩
  | seen => exact ⟨hcb, Nat.le_add_right _ _⟩
  | called new =>
    refine ⟨hcb, ?_⟩
    simp only [budget, unwon, List.countP_append, List.countP_singleton, AsyncEvent.sendsTo, and_true,
      decide_eq_true_eq]
    by_cases heq : new = handle
    · rw [if_pos heq, decide_eq_true heq, Bool.toNat_true]
      omega
    · rw [if_neg heq]
      exact Nat.le_add_right _ _
  | lost call hcall hwon hpending =>
    refine ⟨hcb, ?_⟩
    have hunwon := unwon_erase hcall hwon handle
    simp only [budget, unwon] at hunwon ⊢
    omega
  | won call hcall hwon hpending =>
    refine ⟨hcb, ?_⟩
    have hunwon := unwon_erase hcall hwon handle
    simp only [budget, unwon, List.countP_append, List.countP_singleton, Bool.true_eq_false, and_false,
      decide_false, Bool.false_eq_true, if_false] at hunwon ⊢
    by_cases heq : handle = call.handle
    · subst heq
      rw [if_pos rfl] at hunwon
      rw [Function.update_self, Bool.toNat_true, hpending, Bool.toNat_false]
      omega
    · rw [Function.update_of_ne heq]
      omega
  | wrote call =>
    refine ⟨hcb, ?_⟩
    have hcount := (List.erase_sublist (a := call) (l := s.calls)).countP_le
      (p := fun c => decide (c.handle = handle ∧ c.won = false))
    simp only [budget, unwon]
    omega
  | cleared new queue hphase hpending hcb' =>
    have hne : handle ≠ new := by
      rintro rfl
      rw [hcb] at hcb'
      cases hcb'
    simp only [budget, unwon, Function.update_of_ne hne]
    exact ⟨hcb, Nat.le_add_right _ _⟩
  | callback new queue hphase hpending =>
    refine ⟨hcb, ?_⟩
    simp only [budget, unwon]
    by_cases heq : handle = new
    · subst heq
      rw [Function.update_self, Function.update_self, hpending, Bool.toNat_true, Bool.toNat_false]
      omega
    · rw [Function.update_of_ne heq, Function.update_of_ne heq]
      exact Nat.le_add_right _ _
  | _ => exact ⟨hcb, Nat.le_add_right _ _⟩

/-! ### What is closed -/

/-- A handle that is closed stays closed, and its callback is not called. -/
theorem Moves.of_closed (hm : Moves s e s') (hnodup : s.opened.Nodup) {handle : α} (he : e.Spares handle)
    (hclosed : handle ∉ s.opened) : handle ∉ s'.opened ∧ s'.called handle = s.called handle := by
  have hopened := hm.opened_eq
  cases hm with
  | notStarted | seen | called => exact ⟨hclosed, rfl⟩
  | started new =>
    refine ⟨fun hmem => hclosed ?_, Function.update_of_ne he.symm ..⟩
    simp only [opened, List.mem_append, List.mem_singleton] at hmem ⊢
    rcases hmem with (hmem | rfl) | hmem
    · exact .inl hmem
    · exact absurd rfl he
    · exact .inr hmem
  | closed new hmem => exact ⟨fun hmem' => hclosed ((mem_opened_close hnodup).mp hmem').2, rfl⟩
  | callback new queue hphase =>
    have hne : handle ≠ new := by
      rintro rfl
      refine hclosed ?_
      rw [opened, hphase]
      exact List.mem_append_right _ List.mem_cons_self
    exact ⟨(hopened trivial).symm ▸ hclosed, Function.update_of_ne hne ..⟩
  | _ => exact ⟨(hopened trivial).symm ▸ hclosed, rfl⟩

end AsyncLoop

end MyUvpp
