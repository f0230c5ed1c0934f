import Mathlib.Algebra.Order.Ring.Int

/-! # The handles of libuv, as their users see them

A handle is registered with a loop by its `init` function, is closing from `uv_close` on, and is
unregistered again when its close callback is called. A stream adds its user data, whether it is being
read and its pending connect request; a timer whether it is armed; an async handle whether it has been
signalled. What the functions do with a handle follows `src/libuv-1.x1/src/unix`. Their results come
from outside, and a call that fails leaves the handle as it was. -/

namespace MyUvpp

/-- The life cycle of a handle with close callbacks `κ`. -/
inductive HandleState (κ : Type*) where
  | unregistered
  | opened
  /-- `uv_close` has been called, with a callback or with `NULL`. -/
  | closing (cb : Option κ)
  deriving DecidableEq

/-- `uv_is_closing`, for a handle that is registered. -/
def HandleState.isClosing {κ : Type*} : HandleState κ → Bool
  | .closing _ => true
  | _ => false

/-- `uv_tcp_t` with user data `δ` and close callbacks `κ`. -/
structure UvTcp (δ κ : Type*) where
  state : HandleState κ
  /-- The field `data`, `none` while it is indeterminate. -/
  data : Option δ
  /-- Whether `uv_read_start` is in effect. -/
  reading : Bool
  /-- Whether the field `connect_req` is set: its callback is still to come. -/
  connectReq : Bool

namespace UvTcp

variable {δ κ : Type*}

/-- A handle that was never initialised. -/
def unused : UvTcp δ κ := ⟨.unregistered, none, false, false⟩

/-- Assign the field `data`, which libuv never looks at. -/
def setData (h : UvTcp δ κ) (data : δ) : UvTcp δ κ := { h with data := some data }

/-- `uv_tcp_init`: sets all fields anew but `data`. A handle that is registered is linked into the loop a second
time, which its user does not see in the handle: see `LoopHandles`. -/
def init (h : UvTcp δ κ) (iret : ℤ) : UvTcp δ κ :=
  if iret = 0 then { h with state := .opened, reading := false, connectReq := false } else h

/-- `uv_tcp_connect`: its callback will be called once. -/
def connect (h : UvTcp δ κ) (iret : ℤ) : UvTcp δ κ :=
  if iret = 0 then { h with connectReq := true } else h

/-- libuv has an answer to the connect request. -/
def answerConnect (h : UvTcp δ κ) : UvTcp δ κ := { h with connectReq := false }

/-- `uv_read_start`: the read callback is called from now on. -/
def readStart (h : UvTcp δ κ) (iret : ℤ) : UvTcp δ κ :=
  if iret = 0 then { h with reading := true } else h

/-- `uv_close`: reading stops. -/
def close (h : UvTcp δ κ) (cb : Option κ) : UvTcp δ κ :=
  { h with state := .closing cb, reading := false }

/-- `uv_close` for a handle that `uv_walk` finds and that is not closing. -/
def walkClose (h : UvTcp δ κ) (cb : κ) : UvTcp δ κ :=
  match h.state with
  | .opened => h.close (some cb)
  | _ => h

/-- The close has completed. -/
def closed (h : UvTcp δ κ) : UvTcp δ κ := { h with state := .unregistered }

section Fields

variable (h : UvTcp δ κ) (data : δ) (iret : ℤ) (cb : κ)

/-- Storing `data` changes `data` only. -/
@[simp] theorem setData_state : (h.setData data).state = h.state := rfl
@[simp] theorem setData_data : (h.setData data).data = some data := rfl
@[simp] theorem setData_reading : (h.setData data).reading = h.reading := rfl
@[simp] theorem setData_connectReq : (h.setData data).connectReq = h.connectReq := rfl

/-- The initialisation of libuv does not touch `data`. -/
@[simp] theorem init_data : (h.init iret).data = h.data := by
  rw [init]
  split <;> rfl

/-- `uv_tcp_connect` leaves the state: the handle was initialised before. -/
@[simp] theorem connect_state : (h.connect iret).state = h.state := by
  rw [connect]
  split <;> rfl

/-- `uv_tcp_connect` leaves `data`. -/
@[simp] theorem connect_data : (h.connect iret).data = h.data := by
  rw [connect]
  split <;> rfl

/-- `uv_tcp_connect` starts no reading. -/
@[simp] theorem connect_reading : (h.connect iret).reading = h.reading := by
  rw [connect]
  split <;> rfl

/-- The delivery of the connect callback answers the request and changes nothing else. -/
@[simp] theorem answerConnect_state : h.answerConnect.state = h.state := rfl
@[simp] theorem answerConnect_data : h.answerConnect.data = h.data := rfl
@[simp] theorem answerConnect_reading : h.answerConnect.reading = h.reading := rfl
@[simp] theorem answerConnect_connectReq : h.answerConnect.connectReq = false := rfl

/-- `uv_read_start` leaves the state. -/
@[simp] theorem readStart_state : (h.readStart iret).state = h.state := by
  rw [readStart]
  split <;> rfl

/-- `uv_read_start` leaves `data`. -/
@[simp] theorem readStart_data : (h.readStart iret).data = h.data := by
  rw [readStart]
  split <;> rfl

/-- `uv_read_start` leaves the connect request. -/
@[simp] theorem readStart_connectReq : (h.readStart iret).connectReq = h.connectReq := by
  rw [readStart]
  split <;> rfl

/-- After `uv_close` the handle waits for its close callback and reads no more; `data` and the connect
request stay, the latter to be cancelled by the loop. -/
@[simp] theorem close_state (cb : Option κ) : (h.close cb).state = .closing cb := rfl
@[simp] theorem close_data (cb : Option κ) : (h.close cb).data = h.data := rfl
@[simp] theorem close_reading (cb : Option κ) : (h.close cb).reading = false := rfl
@[simp] theorem close_connectReq (cb : Option κ) : (h.close cb).connectReq = h.connectReq := rfl

/-- After the close callback the handle is not registered; the rest stays as `uv_close` left it. -/
@[simp] theorem closed_state : h.closed.state = .unregistered := rfl
@[simp] theorem closed_data : h.closed.data = h.data := rfl
@[simp] theorem closed_reading : h.closed.reading = h.reading := rfl
@[simp] theorem closed_connectReq : h.closed.connectReq = h.connectReq := rfl

/-- The walk leaves `data`. -/
@[simp] theorem walkClose_data : (h.walkClose cb).data = h.data := by
  rw [walkClose]
  split <;> rfl

/-- The walk leaves the connect request. -/
@[simp] theorem walkClose_connectReq : (h.walkClose cb).connectReq = h.connectReq := by
  rw [walkClose]
  split <;> rfl

variable {h}

/-- The walk closes an open handle. -/
theorem walkClose_of_opened (hs : h.state = .opened) : h.walkClose cb = h.close (some cb) := by
  rw [walkClose, hs]

/-- It leaves any other as it is. -/
theorem walkClose_of_not_opened (hs : h.state ≠ .opened) : h.walkClose cb = h := by
  rw [walkClose]
  split
  case h_1 h' => exact absurd h' hs
  case h_2 => rfl

/-- After the walk the handle is not open. -/
theorem walkClose_state_ne : (h.walkClose cb).state ≠ .opened := by
  by_cases hs : h.state = .opened
  · rw [walkClose_of_opened cb hs, close_state]
    exact fun h => by cases h
  · rwa [walkClose_of_not_opened cb hs]

/-- After `uv_walk`, a registered handle is closing. -/
theorem walkClose_isClosing (hs : h.state ≠ .unregistered) : (h.walkClose cb).state.isClosing = true := by
  by_cases hopened : h.state = .opened
  · rw [walkClose_of_opened cb hopened, close_state]
    rfl
  · rw [walkClose_of_not_opened cb hopened]
    cases hstate : h.state with
    | unregistered => exact absurd hstate hs
    | opened => exact absurd hstate hopened
    | closing cb' => rfl

/-- Only an open handle is being read, and so none after `uv_walk`. -/
theorem walkClose_reading (hr : h.reading = true → h.state = .opened) :
    (h.walkClose cb).reading = false := by
  by_cases hs : h.state = .opened
  · rw [walkClose_of_opened cb hs, close_reading]
  · rw [walkClose_of_not_opened cb hs]
    exact Bool.eq_false_iff.mpr fun hreading => hs (hr hreading)

end Fields

end UvTcp

/-- `uv_timer_t`, as a client uses it: its timeout is one of the events of the loop. -/
structure UvTimer (κ : Type*) where
  state : HandleState κ
  /-- Whether the timer has been started and not stopped. -/
  armed : Bool

namespace UvTimer

variable {κ : Type*}

/-- A timer that was never initialised. -/
def unused : UvTimer κ := ⟨.unregistered, false⟩

/-- `uv_timer_init`. A handle that is registered is linked into the loop a second time: see `LoopHandles`. -/
def init (h : UvTimer κ) (iret : ℤ) : UvTimer κ := if iret = 0 then ⟨.opened, false⟩ else h

/-- `uv_timer_start` with a repeat: the timer stays armed until it is stopped. -/
def start (h : UvTimer κ) : UvTimer κ := { h with armed := true }

/-- `uv_timer_stop`, also for a timer that is not started. -/
def stop (h : UvTimer κ) : UvTimer κ := { h with armed := false }

/-- `uv_close`: the timer is stopped. -/
def close (_ : UvTimer κ) (cb : Option κ) : UvTimer κ := ⟨.closing cb, false⟩

/-- `uv_close` for a timer that `uv_walk` finds and that is not closing. -/
def walkClose (h : UvTimer κ) (cb : κ) : UvTimer κ :=
  match h.state with
  | .opened => h.close (some cb)
  | _ => h

/-- The close has completed. -/
def closed (h : UvTimer κ) : UvTimer κ := { h with state := .unregistered }

/-- A timer that was started is armed. -/
@[simp] theorem start_armed (h : UvTimer κ) : h.start.armed = true := rfl

/-- A timer that was stopped is not. -/
@[simp] theorem stop_armed (h : UvTimer κ) : h.stop.armed = false := rfl

end UvTimer

/-- `uv_async_t`, whose signals libuv may merge. -/
structure UvAsync (κ : Type*) where
  state : HandleState κ
  /-- Whether `uv_async_send` has been called since the last callback. -/
  sent : Bool

namespace UvAsync

variable {κ : Type*}

/-- An async handle that was never initialised. -/
def unused : UvAsync κ := ⟨.unregistered, false⟩

/-- `uv_async_init`. A handle that is registered is linked into the loop a second time: see `LoopHandles`. -/
def init (h : UvAsync κ) (iret : ℤ) : UvAsync κ := if iret = 0 then ⟨.opened, false⟩ else h

/-- `uv_async_send`: one callback will come for all the signals before it. -/
def send (h : UvAsync κ) : UvAsync κ := { h with sent := true }

/-- libuv calls back, for all the signals since the last callback. -/
def received (h : UvAsync κ) : UvAsync κ := { h with sent := false }

/-- `uv_close` for a handle that `uv_walk` finds and that is not closing. -/
def walkClose (h : UvAsync κ) (cb : κ) : UvAsync κ :=
  match h.state with
  | .opened => { h with state := .closing (some cb) }
  | _ => h

/-- The close has completed. -/
def closed (h : UvAsync κ) : UvAsync κ := { h with state := .unregistered }

/-- The walk leaves a close handle that is not open. -/
theorem walkClose_of_not_opened {h : UvAsync κ} (cb : κ) (hs : h.state ≠ .opened) : h.walkClose cb = h := by
  rw [walkClose]
  split
  case h_1 h' => exact absurd h' hs
  case h_2 => rfl

/-- `uv_async_send` leaves the state. -/
@[simp] theorem send_state (h : UvAsync κ) : h.send.state = h.state := rfl

/-- The delivery of a wake-up leaves the state. -/
@[simp] theorem received_state (h : UvAsync κ) : h.received.state = h.state := rfl

end UvAsync

end MyUvpp
