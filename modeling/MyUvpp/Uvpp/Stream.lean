import MyUvpp.Foundation.TransitionSystem
import MyUvpp.Uvpp.Callback
import Mathlib.Algebra.Order.Ring.Int

/-! # Writing to a stream (`stream.hpp`)

The three overloads of `uv::Stream::write` put their callback into the slot for writes and call
`uv_write` with a fresh request; the completion of a request calls whatever is in the slot by then.
libuv completes the requests of a stream in the order in which it has accepted them. -/

namespace MyUvpp

/-- A write that libuv has accepted: the callback passed with it, which the request does not hold, and
its bytes. -/
structure StreamWrite (κ : Type*) where
  callback : κ
  bufs : List UInt8

/-- A `uv::Stream` whose callbacks are of type `κ`. The last three fields are for statements about the
writes. -/
structure Stream (κ : Type*) where
  /-- `m_uv_handle->data`. -/
  data : Callbacks κ
  /-- The accepted writes that are not completed, the oldest first. -/
  pending : List (StreamWrite κ)
  /-- The completed writes and their results, in order. -/
  written : List (StreamWrite κ × ℤ)
  /-- The callbacks that the completions have called, and with what. -/
  invoked : List (Option κ × ℤ)

/-- What may happen next to a stream. -/
inductive StreamEvent (κ : Type*) where
  | listen (callback : κ)
  | readStart (callback : κ)
  /-- `write(const char*, ssize_t, CallbackWithResult)`; `iret` is what `uv_write` returns. -/
  | write (buf : List UInt8) (len : ℕ) (callback : κ) (iret : ℤ)
  /-- `write(const std::vector<char>, CallbackWithResult)`. -/
  | writeVector (buf : List UInt8) (callback : κ) (iret : ℤ)
  /-- `write(const std::string&, CallbackWithResult)`. -/
  | writeString (buf : List UInt8) (callback : κ) (iret : ℤ)
  /-- libuv completes the oldest pending write. -/
  | written (status : ℤ)

/-- The callback of a call of `write`. -/
def StreamEvent.writes {κ : Type*} : StreamEvent κ → Option κ
  | .write _ _ callback _ => some callback
  | .writeVector _ callback _ => some callback
  | .writeString _ callback _ => some callback
  | _ => none

namespace Stream

variable {κ : Type*}

/-- `Stream::Stream`: a stream without callbacks, which has written nothing. -/
def new : Stream κ := ⟨.new, [], [], []⟩

/-- `Stream::listen`, which stores its callback before it calls libuv. -/
def listen (s : Stream κ) (callback : κ) : Stream κ :=
  { s with data := s.data.store .listen callback }

/-- `Stream::read_start`, which stores its callback before it calls libuv. -/
def readStart (s : Stream κ) (callback : κ) : Stream κ :=
  { s with data := s.data.store .readStart callback }

/-- What the overloads of `write` have in common: store the callback, then call `uv_write`. -/
def writeBufs (s : Stream κ) (bufs : List UInt8) (callback : κ) (iret : ℤ) : Stream κ × Bool :=
  let s := { s with data := s.data.store .write callback }
  (if iret = 0 then { s with pending := s.pending ++ [⟨callback, bufs⟩] } else s, iret = 0)

/-- `Stream::write` of `len` characters of an array. -/
def write (s : Stream κ) (buf : List UInt8) (len : ℕ) (callback : κ) (iret : ℤ) : Stream κ × Bool :=
  s.writeBufs (buf.take len) callback iret

/-- `Stream::write` of a vector, all of it. -/
def writeVector (s : Stream κ) (buf : List UInt8) (callback : κ) (iret : ℤ) : Stream κ × Bool :=
  s.writeBufs buf callback iret

/-- `Stream::write` of a string, all of it. -/
def writeString (s : Stream κ) (buf : List UInt8) (callback : κ) (iret : ℤ) : Stream κ × Bool :=
  s.writeBufs buf callback iret

/-- The completion of the oldest pending write: what is in the slot is called with its status. -/
def complete (s : Stream κ) (w : StreamWrite κ) (ws : List (StreamWrite κ)) (status : ℤ) : Stream κ :=
  { s with
    pending := ws
    written := s.written ++ [(w, status)]
    invoked := s.invoked ++ [(s.data.invoke .write, status)] }

/-- One step of a stream; there is none where the event cannot occur. -/
def step (s : Stream κ) : StreamEvent κ → Option (Stream κ)
  | .listen callback => some (s.listen callback)
  | .readStart callback => some (s.readStart callback)
  | .write buf len callback iret => some (s.write buf len callback iret).1
  | .writeVector buf callback iret => some (s.writeVector buf callback iret).1
  | .writeString buf callback iret => some (s.writeString buf callback iret).1
  | .written status =>
    match s.pending with
    | w :: ws => some (s.complete w ws status)
    | [] => none

/-- Each completed write has called the callback passed with it, once and with its own status, and
each pending one is going to. -/
structure CallbacksKept (s : Stream κ) : Prop where
  invoked : s.invoked = s.written.map fun w => (some w.1.callback, w.2)
  pending : ∀ w ∈ s.pending, s.data.invoke .write = some w.callback

/-- A call of `write` passes the callback of the writes that are pending. -/
def SameCallback (s : Stream κ) (e : StreamEvent κ) : Prop :=
  ∀ callback, e.writes = some callback → ∀ w ∈ s.pending, w.callback = callback

variable {s s' : Stream κ}

/-- A stream just constructed has stored no callback. -/
theorem callbacksKept_new : (new : Stream κ).CallbacksKept where
  invoked := rfl
  pending _ hw := absurd hw List.not_mem_nil

/-! ### Calls of `write` -/

/-- A call of `write` with either result. -/
theorem writeBufs_cases (s : Stream κ) (bufs : List UInt8) (callback : κ) (iret : ℤ) :
    (s.writeBufs bufs callback iret).1 = { s with data := s.data.store .write callback } ∨
      (s.writeBufs bufs callback iret).1 =
        { s with
          data := s.data.store .write callback
          pending := s.pending ++ [⟨callback, bufs⟩] } := by
  rw [writeBufs]
  split
  case isTrue => exact .inr rfl
  case isFalse => exact .inl rfl

/-- Every call of `write` is one of `writeBufs`. -/
theorem step_of_writes {e : StreamEvent κ} {callback : κ} (he : e.writes = some callback)
    (hstep : s.step e = some s') : ∃ bufs iret, s' = (s.writeBufs bufs callback iret).1 := by
  cases e with
  | listen => cases he
  | readStart => cases he
  | write buf len callback' iret =>
    cases he
    exact ⟨_, iret, (Option.some.inj hstep).symm⟩
  | writeVector buf callback' iret =>
    cases he
    exact ⟨_, iret, (Option.some.inj hstep).symm⟩
  | writeString buf callback' iret =>
    cases he
    exact ⟨_, iret, (Option.some.inj hstep).symm⟩
  | written => cases he

/-- A call with the callback of the pending writes keeps it for them. -/
theorem CallbacksKept.writeBufs (h : s.CallbacksKept) (bufs : List UInt8) {callback : κ}
    (hsame : ∀ w ∈ s.pending, w.callback = callback) (iret : ℤ) :
    (s.writeBufs bufs callback iret).1.CallbacksKept := by
  rcases s.writeBufs_cases bufs callback iret with heq | heq
  · rw [heq]
    refine ⟨h.invoked, fun w hw => ?_⟩
    rw [hsame w hw]
    exact Callbacks.invoke_store _ _ _
  · rw [heq]
    refine ⟨h.invoked, fun w hw => ?_⟩
    -- the new write is pending too
    have hcallback : w.callback = callback := by
      rcases List.mem_append.mp hw with hw | hw
      · exact hsame w hw
      · rw [List.mem_singleton.mp hw]
    rw [hcallback]
    exact Callbacks.invoke_store _ _ _

/-- A call with another callback takes it from the pending writes, whatever `uv_write` returns. -/
theorem not_callbacksKept_writeBufs (bufs : List UInt8) {callback : κ} (iret : ℤ) {w : StreamWrite κ}
    (hw : w ∈ s.pending) (hne : w.callback ≠ callback) :
    ¬ (s.writeBufs bufs callback iret).1.CallbacksKept := by
  intro h
  have hmem : w ∈ (s.writeBufs bufs callback iret).1.pending := by
    rcases s.writeBufs_cases bufs callback iret with heq | heq
    · rw [heq]
      exact hw
    · rw [heq]
      exact List.mem_append_left _ hw
  -- the slot is overwritten before `uv_write` is called
  have hslot : (s.writeBufs bufs callback iret).1.data.invoke .write = some callback := by
    rcases s.writeBufs_cases bufs callback iret with heq | heq <;>
      rw [heq] <;> exact Callbacks.invoke_store _ _ _
  exact hne (Option.some.inj ((h.pending w hmem).symm.trans hslot))

/-! ### Steps and runs -/

/-- Another slot than the one for writes. -/
theorem CallbacksKept.store (h : s.CallbacksKept) {cid : UvCallbackId} (hcid : .write ≠ cid)
    (callback : κ) : CallbacksKept { s with data := s.data.store cid callback } := by
  refine ⟨h.invoked, fun w hw => ?_⟩
  rw [← h.pending w hw]
  exact Callbacks.invoke_store_of_ne _ hcid _

/-- The completion of the oldest write calls its own callback. -/
theorem CallbacksKept.complete (h : s.CallbacksKept) {w : StreamWrite κ} {ws : List (StreamWrite κ)}
    (hpending : s.pending = w :: ws) (status : ℤ) : (s.complete w ws status).CallbacksKept := by
  constructor
  case invoked =>
    -- what is in the slot is the callback of the oldest write
    have hslot := h.pending w (by rw [hpending]; exact List.mem_cons_self)
    show s.invoked ++ [(s.data.invoke .write, status)] =
      (s.written ++ [(w, status)]).map fun w => (some w.1.callback, w.2)
    rw [List.map_append, h.invoked, hslot]
    rfl
  case pending =>
    intro v hv
    exact h.pending v (by rw [hpending]; exact List.mem_cons_of_mem _ hv)

/-- A step that keeps to the pending callback. -/
theorem step_callbacksKept (h : s.CallbacksKept) {e : StreamEvent κ} (hsame : s.SameCallback e)
    (hstep : s.step e = some s') : s'.CallbacksKept := by
  -- a call of `write` of any kind, or another event
  cases hwrites : e.writes with
  | some callback =>
    obtain ⟨bufs, iret, rfl⟩ := step_of_writes hwrites hstep
    exact h.writeBufs bufs (hsame callback hwrites) iret
  | none =>
    cases e with
    | listen callback =>
      cases hstep
      exact h.store (fun heq => by cases heq) callback
    | readStart callback =>
      cases hstep
      exact h.store (fun heq => by cases heq) callback
    | write => cases hwrites
    | writeVector => cases hwrites
    | writeString => cases hwrites
    | written status =>
      simp only [step] at hstep
      split at hstep
      case h_1 w ws hpending =>
        cases hstep
        exact h.complete hpending status
      case h_2 => cases hstep

/-- A step that does not. -/
theorem step_not_callbacksKept {e : StreamEvent κ} (hother : ¬ s.SameCallback e)
    (hstep : s.step e = some s') : ¬ s'.CallbacksKept := by
  rw [SameCallback] at hother
  push Not at hother
  obtain ⟨callback, hwrites, w, hw, hne⟩ := hother
  obtain ⟨bufs, iret, rfl⟩ := step_of_writes hwrites hstep
  exact not_callbacksKept_writeBufs bufs iret hw hne

end Stream

/-- **When the completions reach their callbacks.** In every state of a run of a stream all completed
writes have called their own callback with their own status, and all pending ones are going to, if and
only if no call of `write`, accepted or rejected, passes another callback than that of the writes that
are pending at that moment. -/
theorem write_callbacks_kept_iff {κ : Type*} (es : List (StreamEvent κ)) (s : Stream κ)
    (hrun : run Stream.step .new es = some s) :
    Throughout Stream.step Stream.CallbacksKept .new es ↔
      Along Stream.step Stream.SameCallback .new es :=
  throughout_iff_along (fun _ _ _ h hsame hstep => Stream.step_callbacksKept h hsame hstep)
    (fun _ _ _ _ hother hstep => Stream.step_not_callbacksKept hother hstep) (fun _ h => h)
    Stream.callbacksKept_new hrun

/-- Two writes with one callback, of which the second is rejected, and a third one with another
callback when the first is completed. -/
theorem write_callbacks_kept_three_writes :
    Throughout Stream.step Stream.CallbacksKept (.new : Stream ℕ)
      [.write [1, 2] 2 5 0, .writeString [3] 5 (-9), .written 0, .writeVector [4] 6 0,
        .written (-32)] := by
  obtain ⟨s, hs⟩ := Option.isSome_iff_exists.mp (show (run Stream.step (.new : Stream ℕ)
    [.write [1, 2] 2 5 0, .writeString [3] 5 (-9), .written 0, .writeVector [4] 6 0,
      .written (-32)]).isSome = true from rfl)
  refine (write_callbacks_kept_iff _ s hs).mpr ?_
  simp [Along, Stream.SameCallback, Stream.step, Stream.write, Stream.writeString,
    Stream.writeVector, Stream.writeBufs, Stream.new, Stream.complete, StreamEvent.writes]

/-- Of two pending writes the first calls the callback of the second, and so it does when the second
has been rejected. -/
theorem write_callback_overwritten :
    (∃ s, run Stream.step (.new : Stream ℕ) [.write [1] 1 5 0, .write [2] 1 6 0, .written 0] = some s ∧
      s.written = [(⟨5, [1]⟩, 0)] ∧ s.invoked = [(some 6, 0)]) ∧
    (∃ s, run Stream.step (.new : Stream ℕ) [.write [1] 1 5 0, .write [2] 1 6 (-9), .written 0] =
        some s ∧
      s.written = [(⟨5, [1]⟩, 0)] ∧ s.invoked = [(some 6, 0)]) :=
  ⟨⟨_, rfl, rfl, rfl⟩, ⟨_, rfl, rfl, rfl⟩⟩

end MyUvpp
