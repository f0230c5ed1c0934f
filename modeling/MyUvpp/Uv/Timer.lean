import MyUvpp.Uv.Heap
import Mathlib.Data.Prod.Lex

/-! # The timers of libuv (`timer.c`)

The timers that are active are the nodes of the heap of their loop, a timer and its node having the same
address. Callbacks run between the rounds of `uv__run_timers`, and may do with the timers what they like. -/

namespace MyUvpp

/-- `UV_EINVAL`, which a start without a callback returns. -/
def uvEinval : ℤ := -22

/-- `INT_MAX`, the longest time that the poll is given. -/
def uvIntMax : ℕ := 2 ^ 31 - 1

/-- The fields of `uv_timer_t` that are used, without its heap node. -/
structure TimerHandle where
  /-- `uv_timer_init` has been called. -/
  initialized : Bool
  active : Bool
  timerCb : Option ℕ
  timeout : ℕ
  /-- `repeat`. -/
  repeatValue : ℕ
  startId : ℕ
  deriving DecidableEq, Repr

/-- One start of a timer, with the timeout and the number that `uv_timer_start` gives it. -/
structure TimerStart where
  addr : ℕ
  timerCb : ℕ
  timeout : ℕ
  startId : ℕ
  deriving DecidableEq, Repr

/-- The fields of `uv_loop_t` that the timers use, and the timers. The last two fields record what happened,
for statements about it. -/
structure TimerLoop where
  time : ℕ
  timerCounter : ℕ
  timerHeap : UvHeap
  /-- The timer at each address. -/
  timers : ℕ → TimerHandle
  /-- The starts, in their order. -/
  started : List TimerStart
  /-- The starts whose callback has been called, each with the time of the loop then. -/
  fired : List (TimerStart × ℕ)

namespace TimerLoop

/-- A new loop, with no timers: what is in memory at the nodes of the heap does not matter. -/
def initial (time : ℕ) (nodes : ℕ → HeapNode) : TimerLoop where
  time
  timerCounter := 0
  timerHeap := .init nodes
  timers _ := ⟨false, false, none, 0, 0, 0⟩
  started := []
  fired := []

variable (s : TimerLoop)

/-- Assign to the timer at an address. -/
def setTimer (addr : ℕ) (timer : TimerHandle) : TimerLoop :=
  { s with timers := Function.update s.timers addr timer }

/-- `timer_less_than`: the earlier timeout first, and of equal ones the earlier start. -/
def timerLessThan (a b : ℕ) : Bool :=
  if (s.timers a).timeout < (s.timers b).timeout then true
  else if (s.timers b).timeout < (s.timers a).timeout then false
  else if (s.timers a).startId < (s.timers b).startId then true
  else false

/-- `uv_timer_init`, on a timer that is not active. -/
def uvTimerInit (addr : ℕ) : TimerLoop :=
  s.setTimer addr { s.timers addr with
    initialized := true
    active := false
    timerCb := none
    repeatValue := 0 }

/-- `uv_timer_stop`, which returns 0. An active timer goes out of the heap. -/
def uvTimerStop (addr : ℕ) : Option TimerLoop :=
  if (s.timers addr).active then
    (s.timerHeap.heapRemove s.timerLessThan addr).map fun timerHeap =>
      { s with timerHeap }.setTimer addr { s.timers addr with active := false }
  else some s

/-- `loop->time + timeout`, or the greatest time where that overflows. -/
def clampedTimeout (timeout : ℕ) : ℕ :=
  let clamped := (s.time + timeout) % 2 ^ 64
  if clamped < timeout then 2 ^ 64 - 1 else clamped

/-- `uv_timer_start` behind its checks: the timer is not active. -/
def activate (addr timerCb timeout repeatValue : ℕ) : Option TimerLoop :=
  let start : TimerStart := ⟨addr, timerCb, s.clampedTimeout timeout, s.timerCounter⟩
  let s := s.setTimer addr { s.timers addr with
    timerCb := some timerCb
    timeout := start.timeout
    repeatValue
    startId := start.startId }
  let s := { s with timerCounter := (s.timerCounter + 1) % 2 ^ 64 }
  (s.timerHeap.heapInsert s.timerLessThan addr).map fun timerHeap =>
    { s with timerHeap, started := s.started ++ [start] }.setTimer addr
      { s.timers addr with active := true }

/-- `uv_timer_start`: an active timer is stopped first. -/
def uvTimerStart (addr : ℕ) (cb : Option ℕ) (timeout repeatValue : ℕ) : Option (ℤ × TimerLoop) :=
  match cb with
  | none => some (uvEinval, s)
  | some timerCb =>
    (s.uvTimerStop addr).bind fun s =>
      (s.activate addr timerCb timeout repeatValue).map fun s => (0, s)

/-- `uv_timer_again`: a timer that repeats is started again with its repeat value. -/
def uvTimerAgain (addr : ℕ) : Option (ℤ × TimerLoop) :=
  if (s.timers addr).timerCb = none then some (uvEinval, s)
  else if (s.timers addr).repeatValue ≠ 0 then
    (s.uvTimerStop addr).bind fun s =>
      (s.uvTimerStart addr (s.timers addr).timerCb (s.timers addr).repeatValue
        (s.timers addr).repeatValue).map fun (_, s) => (0, s)
  else some (0, s)

/-- `uv_timer_set_repeat`, which an active timer notices when it is started the next time. -/
def uvTimerSetRepeat (addr repeatValue : ℕ) : TimerLoop :=
  s.setTimer addr { s.timers addr with repeatValue }

/-- `uv__next_timeout`: how long the poll may last, -1 for ever and 0 not at all. -/
def uvNextTimeout : ℤ :=
  match s.timerHeap.heapMin with
  | none => -1
  | some addr =>
    if (s.timers addr).timeout ≤ s.time then 0
    else
      let diff := (s.timers addr).timeout - s.time
      if diff > uvIntMax then uvIntMax else diff

/-- The timer that the next round of `uv__run_timers` fires; with none the loop ends. -/
def due : Option ℕ :=
  match s.timerHeap.heapMin with
  | none => none
  | some addr => if (s.timers addr).timeout > s.time then none else some addr

/-- A round of `uv__run_timers`: the timer is stopped, started again if it repeats, and its callback is
called, which is what follows. -/
def uvRunTimer (addr : ℕ) : Option TimerLoop :=
  let timer := s.timers addr
  let start : TimerStart := ⟨addr, timer.timerCb.getD 0, timer.timeout, timer.startId⟩
  (s.uvTimerStop addr).bind fun s =>
    (s.uvTimerAgain addr).map fun (_, s) => { s with fired := s.fired ++ [(start, s.time)] }

end TimerLoop

/-- What may happen next: a call of the program, the clock, or a pass of `uv__run_timers`. -/
inductive TimerEvent where
  | init (addr : ℕ)
  | start (addr : ℕ) (cb : Option ℕ) (timeout repeatValue : ℕ)
  /-- `uv_timer_stop`, or the part of `uv_close` for timers. -/
  | stop (addr : ℕ)
  | again (addr : ℕ)
  | setRepeat (addr repeatValue : ℕ)
  /-- `uv__update_time`, with what the clock returns. -/
  | updateTime (time : ℕ)
  /-- A round of `uv__run_timers`. -/
  | runTimer

/-- The timer that is passed to a function. -/
def TimerEvent.addr : TimerEvent → Option ℕ
  | .init addr | .start addr _ _ _ | .stop addr | .again addr | .setRepeat addr _ => some addr
  | .updateTime _ | .runTimer => none

namespace TimerLoop

/-- What the caller has to see to, and the clock: a timer is initialised before it is used and not while it
is active, arguments fit their types, and the time does not go back. -/
def Allowed (s : TimerLoop) : TimerEvent → Prop
  | .init addr => (s.timers addr).active = false
  | .start addr _ timeout repeatValue =>
    (s.timers addr).initialized ∧ timeout < 2 ^ 64 ∧ repeatValue < 2 ^ 64
  | .stop addr | .again addr => (s.timers addr).initialized
  | .setRepeat addr repeatValue => (s.timers addr).initialized ∧ repeatValue < 2 ^ 64
  | .updateTime time => s.time ≤ time ∧ time < 2 ^ 64
  | .runTimer => s.due.isSome

/-- Whether a call may be made can be looked up in the state. -/
instance (s : TimerLoop) (e : TimerEvent) : Decidable (s.Allowed e) :=
  match e with
  | .init _ => inferInstanceAs (Decidable (_ = _))
  | .start .. => inferInstanceAs (Decidable (_ ∧ _ ∧ _))
  | .stop _ | .again _ => inferInstanceAs (Decidable (_ = true))
  | .setRepeat .. | .updateTime _ => inferInstanceAs (Decidable (_ ∧ _))
  | .runTimer => inferInstanceAs (Decidable (_ = true))

/-- One step; there is none where the event cannot occur, or where a null pointer would be followed. -/
def step (s : TimerLoop) (e : TimerEvent) : Option TimerLoop :=
  if s.Allowed e then
    match e with
    | .init addr => some (s.uvTimerInit addr)
    | .start addr cb timeout repeatValue => (s.uvTimerStart addr cb timeout repeatValue).map Prod.snd
    | .stop addr => s.uvTimerStop addr
    | .again addr => (s.uvTimerAgain addr).map Prod.snd
    | .setRepeat addr repeatValue => some (s.uvTimerSetRepeat addr repeatValue)
    | .updateTime time => some { s with time }
    | .runTimer => s.due.bind s.uvRunTimer
  else none

/-- The order of the starts: the timeouts, and for equal ones the numbers of the starts. -/
def key (s : TimerLoop) (addr : ℕ) : ℕ ×ₗ ℕ := toLex ((s.timers addr).timeout, (s.timers addr).startId)

end TimerLoop

/-- The order of the starts. -/
def TimerStart.key (start : TimerStart) : ℕ ×ₗ ℕ := toLex (start.timeout, start.startId)

end MyUvpp
