import Mathlib.Algebra.Order.Ring.Int
import Mathlib.Logic.Function.Basic

/-! # Waking a loop up (`unix/async.c`)

A thread that calls `uv_async_send` sets `pending` of a handle and writes to a file descriptor that the loop
polls. The loop reads what has been written and then takes the handles one by one. The threads and the loop
go on in any order: a step is one access to what they share. An `assert` or an `abort` on the way has no
result. -/

namespace MyUvpp

/-- What the loop is woken up with. -/
inductive WakeFd where
  | eventfd
  /-- Where there is no `eventfd`: a pipe that holds some bytes. -/
  | pipe (capacity : ℕ)
  deriving DecidableEq, Repr

/-- The greatest value of an `eventfd`, or the greatest number of bytes in a pipe. -/
def WakeFd.capacity : WakeFd → ℕ
  | .eventfd => 2 ^ 64 - 2
  | .pipe capacity => capacity

/-- Where the loop is, between two steps that other threads may come between. -/
inductive AsyncPhase (α : Type*) where
  /-- In none of the functions. -/
  | idle
  /-- The poll has found the file descriptor readable. -/
  | polled
  /-- In the loop of `uv__async_io`, with the bytes read so far. -/
  | reading (n : ℕ)
  /-- In the loop of `uv__async_event`, with the local queue. -/
  | event (queue : List α)
  /-- In the callback of a handle. -/
  | callback (handle : α) (queue : List α)
  deriving DecidableEq, Repr

namespace AsyncPhase

variable {α : Type*}

/-- The local queue of `uv__async_event`, empty where the loop is in none. -/
def queue : AsyncPhase α → List α
  | event queue | callback _ queue => queue
  | _ => []

/-- A loop between two polls has no local queue. -/
@[simp] theorem queue_idle : (idle : AsyncPhase α).queue = [] := rfl

/-- Neither has a loop that has just left the poll. -/
@[simp] theorem queue_polled : (polled : AsyncPhase α).queue = [] := rfl

/-- Neither has a loop that drains the wake-up descriptor. -/
@[simp] theorem queue_reading (n : ℕ) : (reading n : AsyncPhase α).queue = [] := rfl

/-- The local queue of `uv__async_io` between two callbacks. -/
@[simp] theorem queue_event (queue : List α) : (event queue).queue = queue := rfl

/-- The local queue that is left while a callback runs. -/
@[simp] theorem queue_callback (handle : α) (queue : List α) : (callback handle queue).queue = queue := rfl

/-- The loop thread is where other code can be called. -/
def outside : AsyncPhase α → Bool
  | idle | polled | callback .. => true
  | _ => false

/-- The loop is at a `read` of `uv__async_io`. -/
def inIo : AsyncPhase α → Bool
  | polled | reading _ => true
  | _ => false

/-- The loop is in the loop of `uv__async_event`. -/
def inEvent : AsyncPhase α → Bool
  | event _ => true
  | _ => false

/-- Whether a callback of the loop is running. -/
def inCallback : AsyncPhase α → Bool
  | callback .. => true
  | _ => false

/-- `uv__async_close` for the local queue, from which the handle is taken like from the one of the loop. -/
def close [DecidableEq α] (handle : α) : AsyncPhase α → AsyncPhase α
  | event queue => event (queue.erase handle)
  | callback h queue => callback h (queue.erase handle)
  | phase => phase

/-- While the descriptor is drained there is no local queue yet. -/
theorem queue_of_inIo {phase : AsyncPhase α} (h : phase.inIo = true) : phase.queue = [] := by
  cases phase <;> first | rfl | cases h

/-- `uv_close` takes the handle out of the local queue as well. -/
@[simp] theorem queue_close [DecidableEq α] (handle : α) (phase : AsyncPhase α) :
    (phase.close handle).queue = phase.queue.erase handle := by
  cases phase <;> rfl

/-- `uv_close` does not end the draining of the descriptor. -/
@[simp] theorem inIo_close [DecidableEq α] (handle : α) (phase : AsyncPhase α) :
    (phase.close handle).inIo = phase.inIo := by
  cases phase <;> rfl

end AsyncPhase

/-- A call of `uv_async_send` that is under way. -/
structure AsyncCall (α : Type*) where
  handle : α
  /-- It has set `pending` and will write. -/
  won : Bool
  /-- How often the callback had been called before, for statements about it. -/
  since : ℕ
  deriving DecidableEq, Repr

/-- What a loop and its async handles share with the threads. The last two fields record what happened since
`uv_async_init`, for statements about it. -/
structure AsyncLoop (α : Type*) where
  /-- `async_watcher`, where it has been started. -/
  fd : Option WakeFd
  /-- The value of the `eventfd`, or the number of the bytes in the pipe. -/
  count : ℕ
  asyncHandles : List α
  pending : α → Bool
  /-- `async_cb` is not `NULL`. -/
  asyncCb : α → Bool
  /-- The handles that have been initialised. -/
  initialised : List α
  phase : AsyncPhase α
  calls : List (AsyncCall α)
  /-- How often the callback has been called. -/
  called : α → ℕ
  /-- The calls of `uv_async_send` that have returned. -/
  returned : List (AsyncCall α)

namespace AsyncLoop

variable {α : Type*} [DecidableEq α]

/-- `uv__async_init`: a loop without handles, which has not been started. -/
def initial : AsyncLoop α where
  fd := none
  count := 0
  asyncHandles := []
  pending _ := false
  asyncCb _ := false
  initialised := []
  phase := .idle
  calls := []
  called _ := 0
  returned := []

variable (s : AsyncLoop α)

/-- The handles that are not closed, in the queue of the loop or in the local one. -/
def opened : List α := s.asyncHandles ++ s.phase.queue

/-- `uv__async_start`, with what the system gives it. -/
def uvAsyncStart (r : Except ℤ WakeFd) : Except ℤ (AsyncLoop α) :=
  match s.fd with
  | some _ => .ok s
  | none => r.map fun fd => { s with fd := some fd, count := 0 }

/-- `uv_async_init`: the loop is started if it was not, and the handle goes to the end of its queue. -/
def uvAsyncInit (handle : α) (cb : Bool) (r : Except ℤ WakeFd) : ℤ × AsyncLoop α :=
  match s.uvAsyncStart r with
  | .error err => (err, s)
  | .ok s => (0, { s with
      asyncCb := Function.update s.asyncCb handle cb
      pending := Function.update s.pending handle false
      asyncHandles := s.asyncHandles ++ [handle]
      initialised := handle :: s.initialised
      called := Function.update s.called handle 0
      returned := s.returned.filter fun c => c.handle ≠ handle })

/-- The cheap read of `uv_async_send`: where the handle is pending already, the call returns. -/
def uvAsyncSend (handle : α) : AsyncLoop α :=
  let call : AsyncCall α := ⟨handle, false, s.called handle⟩
  if s.pending handle then { s with returned := s.returned ++ [call] }
  else { s with calls := s.calls ++ [call] }

/-- The `cmpxchgi` of `uv_async_send`: the call that makes the handle pending goes on to tell the loop. -/
def exchange (call : AsyncCall α) : AsyncLoop α :=
  let s := { s with calls := s.calls.erase call }
  if s.pending call.handle then { s with returned := s.returned ++ [call] }
  else { s with
    pending := Function.update s.pending call.handle true
    calls := s.calls ++ [{ call with won := true }] }

/-- `uv__async_send`: one more, unless it is full. -/
def write (call : AsyncCall α) : Option (AsyncLoop α) :=
  s.fd.map fun fd => { s with
    calls := s.calls.erase call
    count := if s.count + 1 ≤ fd.capacity then s.count + 1 else s.count
    returned := s.returned ++ [call] }

/-- `uv__async_io` behind its loop: from here on `uv__async_event` has a queue of its own. -/
def uvAsyncEvent (fd : WakeFd) (n : ℕ) : Option (AsyncLoop α) :=
  if fd = .eventfd ∧ n ≠ 8 then none
  else some { s with phase := .event s.asyncHandles, asyncHandles := [] }

/-- A round of the loop of `uv__async_io`, with the bytes read before. -/
def uvAsyncIo (n : ℕ) : Option (AsyncLoop α) :=
  match s.fd with
  | none => none
  | some .eventfd =>
    if s.count = 0 then s.uvAsyncEvent .eventfd n
    else { s with count := 0 }.uvAsyncEvent .eventfd ((n + 8) % 2 ^ 32)
  | some (.pipe capacity) =>
    let r := min s.count 1024
    let s := { s with count := s.count - r }
    if r = 1024 then some { s with phase := .reading ((n + r) % 2 ^ 32) }
    else s.uvAsyncEvent (.pipe capacity) ((n + r) % 2 ^ 32)

/-- The callback of a handle begins, if it has one. -/
def callback (handle : α) (queue : List α) : AsyncLoop α :=
  if s.asyncCb handle then
    { s with
      phase := .callback handle queue
      called := Function.update s.called handle (s.called handle + 1) }
  else { s with phase := .event queue }

/-- A round of the loop of `uv__async_event`. -/
def uvAsyncTake (handle : α) (queue : List α) : AsyncLoop α :=
  let s := { s with asyncHandles := s.asyncHandles ++ [handle] }
  if s.pending handle then { s with pending := Function.update s.pending handle false }.callback handle queue
  else { s with phase := .event queue }

/-- `uv__async_close`: the handle leaves the queue that it is in. -/
def uvAsyncClose (handle : α) : AsyncLoop α :=
  { s with asyncHandles := s.asyncHandles.erase handle, phase := s.phase.close handle }

end AsyncLoop

/-- What may happen next, in the loop or in any of the threads; each event is one atomic step. -/
inductive AsyncEvent (α : Type*) where
  /-- `uv_async_init`, with what the system gives the loop. -/
  | init (handle : α) (cb : Bool) (r : Except ℤ WakeFd)
  /-- `uv_close`. -/
  | close (handle : α)
  /-- A thread calls `uv_async_send`. -/
  | send (handle : α)
  /-- A thread is at the `cmpxchgi` of `uv_async_send`. -/
  | exchange (call : AsyncCall α)
  /-- A thread is in `uv__async_send`. -/
  | write (call : AsyncCall α)
  /-- The loop polls. -/
  | poll
  /-- A round of the loop of `uv__async_io`. -/
  | read
  /-- A round of the loop of `uv__async_event`, or its end. -/
  | take
  /-- The callback returns. -/
  | return

/-- A thread goes on in `uv_async_send`, or the loop goes on. -/
def AsyncEvent.GoesOn {α : Type*} : AsyncEvent α → Prop
  | .init .. | .close _ | .send _ => False
  | _ => True

/-- An event that does not initialise the handle again. -/
def AsyncEvent.Spares {α : Type*} (handle : α) : AsyncEvent α → Prop
  | .init h _ _ => h ≠ handle
  | _ => True

/-- Whether an event is the entry of `uv_async_send` for the handle. -/
def AsyncEvent.sendsTo {α : Type*} [DecidableEq α] (handle : α) : AsyncEvent α → Bool
  | .send h => h = handle
  | _ => false

namespace AsyncLoop

variable {α : Type*} [DecidableEq α] (s : AsyncLoop α)

/-- What the callers and the system have to see to: handles are initialised before they are used, closed once,
and not initialised again as long as they are in use. -/
def Allowed : AsyncEvent α → Prop
  | .init handle _ r => s.phase.outside = true ∧ handle ∉ s.opened ∧ (∀ c ∈ s.calls, c.handle ≠ handle) ∧
      match r with
      | .ok fd => 0 < fd.capacity
      | .error err => err < 0
  | .close handle => s.phase.outside = true ∧ handle ∈ s.opened
  | .send handle => handle ∈ s.initialised
  | .exchange call => call ∈ s.calls ∧ call.won = false
  | .write call => call ∈ s.calls ∧ call.won = true
  | .poll => s.phase = .idle ∧ 0 < s.count
  | .read => s.phase.inIo = true
  | .take => s.phase.inEvent = true
  | .return => s.phase.inCallback = true

/-- One step. There is no result where an assertion fails or the program is aborted. -/
def next : AsyncEvent α → Option (AsyncLoop α)
  | .init handle cb r => some (s.uvAsyncInit handle cb r).2
  | .close handle => some (s.uvAsyncClose handle)
  | .send handle => some (s.uvAsyncSend handle)
  | .exchange call => some (s.exchange call)
  | .write call => s.write call
  | .poll => some { s with phase := .polled }
  | .read =>
    match s.phase with
    | .polled => s.uvAsyncIo 0
    | .reading n => s.uvAsyncIo n
    | _ => none
  | .take =>
    match s.phase with
    | .event [] => some { s with phase := .idle }
    | .event (handle :: queue) => some (s.uvAsyncTake handle queue)
    | _ => none
  | .return =>
    match s.phase with
    | .callback _ queue => some { s with phase := .event queue }
    | _ => none

/-- Whether an event is allowed can be looked up in the state. -/
instance (e : AsyncEvent α) : Decidable (s.Allowed e) :=
  match e with
  | .init _ _ (.ok _) => inferInstanceAs (Decidable (_ ∧ _ ∧ _ ∧ _))
  | .init _ _ (.error _) => inferInstanceAs (Decidable (_ ∧ _ ∧ _ ∧ _))
  | .close _ => inferInstanceAs (Decidable (_ ∧ _))
  | .send _ => inferInstanceAs (Decidable (_ ∈ _))
  | .exchange _ | .write _ => inferInstanceAs (Decidable (_ ∧ _))
  | .poll => inferInstanceAs (Decidable (_ ∧ _))
  | .read => inferInstanceAs (Decidable (s.phase.inIo = true))
  | .take => inferInstanceAs (Decidable (s.phase.inEvent = true))
  | .return => inferInstanceAs (Decidable (s.phase.inCallback = true))

/-- One step, where it is allowed. `none` where it is not, or where an assertion of the source fails. -/
def step (s : AsyncLoop α) (e : AsyncEvent α) : Option (AsyncLoop α) :=
  if s.Allowed e then s.next e else none

end AsyncLoop

end MyUvpp
