import MyUvpp.Buffers.BufferQueue
import MyUvpp.Foundation.TransitionSystem
import MyUvpp.Uv.WriteParam
import Mathlib.Logic.Function.Basic

/-! # The way of a sent byte (`tcpclient.cpp`)

`TCPClient::Send`, called by any number of threads, puts bytes into `write_circularbuf_`; the loop
thread takes them out again in `send_inl` and passes them to `uv_write`. The steps are the critical
sections of `mutex_writebuf_` and what lies between them: a thread may run between any two of them,
also between the `read` of `send_inl` and its `uv_write`. Requests live at addresses, so that a
`write_param` may be recycled, freed and allocated again. -/

namespace MyUvpp

/-- `MAXLISTSIZE` of `tcpclient.cpp`, which bounds the list of the free write parameters. -/
def maxListSize : ℕ := 20

/-- Where a call of `Send` stands: its loop is the test, the critical section, and back. -/
inductive SendPc where
  /-- At the test of `isuseraskforclosed_`. -/
  | check
  /-- Before the critical section. -/
  | write
  | returned
  deriving DecidableEq

/-- A call of `Send(data, len)` with the bytes accepted so far and its place in the loop. -/
structure SendCall where
  data : List UInt8
  iret : ℕ
  pc : SendPc

/-- The argument `len - iret` of `write`, converted to `int`. -/
def SendCall.count (c : SendCall) : ℤ := int32 ((c.data.length : ℤ) - c.iret)

/-- Where the loop thread stands with respect to `send_inl`. -/
inductive LoopPc where
  /-- In the event loop, between two callbacks. -/
  | idle
  /-- At the top of the loop of `send_inl`. -/
  | drain
  /-- In `send_inl`, with the request at `addr` filled and not yet passed to `uv_write`. -/
  | handOver (addr : ℕ)
  deriving DecidableEq

/-- The fields of `TCPClient` that sending uses, the threads, and the write requests. The last three
fields record what happened, for statements about it. -/
structure SendState where
  isuseraskforclosed : Bool
  writeCircularbuf : PodCircularBuffer UInt8
  writeparamList : List ℕ
  /-- The `write_param` at each address. -/
  heap : ℕ → WriteParam
  /-- The calls of `Send`, in the order in which they were made. -/
  sends : List SendCall
  loop : LoopPc
  /-- The requests whose `AfterSend` is still to come, each as it was passed to `uv_write`. -/
  inFlight : List (ℕ × WriteParam)
  /-- The bytes accepted by `write_circularbuf_.write`, in the order of the critical sections. -/
  accepted : List UInt8
  /-- The calls whose whole buffer has been accepted, in the order in which that happened. -/
  completed : List ℕ
  /-- The bytes passed to `uv_write`, in the order of the calls. -/
  passed : List UInt8

/-- What may happen next, on any of the threads. Each is one step, between two of which another may come. -/
inductive SendEvent where
  /-- A thread calls `Send` with a non-null pointer. -/
  | send (data : List UInt8)
  /-- Call number `i` tests `isuseraskforclosed_`. -/
  | sendCheck (i : ℕ)
  /-- The critical section of call number `i`. -/
  | sendWrite (i : ℕ)
  /-- `Close` sets `isuseraskforclosed_`. -/
  | close
  | asyncCB
  /-- `AfterRecv` with `nread >= 0`. -/
  | afterRecv
  | afterSend (addr : ℕ) (status : ℤ)
  /-- The critical section of `send_inl`; `addr` and `base` are what `malloc` would return. -/
  | drainRead (addr : ℕ) (base : Mem UInt8)
  /-- The call of `uv_write` and its result. -/
  | uvWrite (iret : ℤ)

/-- An event of the loop thread: a callback, or a step of `send_inl`. -/
def SendEvent.OnLoop : SendEvent → Prop
  | .send _ | .sendCheck _ | .sendWrite _ | .close => False
  | _ => True

namespace SendState

/-- `TCPClient::TCPClient`, as far as sending is concerned: an empty circular buffer and no calls. -/
def initial (pBuf : Mem UInt8) (heap : ℕ → WriteParam) : SendState where
  isuseraskforclosed := false
  writeCircularbuf := .new bufferSize pBuf
  writeparamList := []
  heap
  sends := []
  loop := .idle
  inFlight := []
  accepted := []
  completed := []
  passed := []

/-- `Send` until its loop; null and empty data are refused. -/
def send (s : SendState) (data : List UInt8) : SendState :=
  let pc := if data.length = 0 then .returned else .check
  { s with sends := s.sends ++ [⟨data, 0, pc⟩] }

/-- The critical section of `Send`: write what is left of the buffer, and go on until all of it has
been accepted. -/
def sendWrite (s : SendState) (i : ℕ) (c : SendCall) : SendState :=
  let (writeCircularbuf, n, _) := s.writeCircularbuf.write (c.data.drop c.iret) c.count
  let iret := c.iret + n.toNat
  { s with
    writeCircularbuf
    sends := s.sends.set i { c with iret, pc := if iret < c.data.length then .check else .returned }
    accepted := s.accepted ++ (c.data.drop c.iret).take n.toNat
    completed := if iret < c.data.length then s.completed else s.completed ++ [i] }

/-- Keep a finished request for later use, or free it. -/
def recycle (s : SendState) (addr : ℕ) : SendState :=
  if s.writeparamList.length > maxListSize then s
  else { s with writeparamList := s.writeparamList ++ [addr] }

/-- `AfterSend`: recycle the request and, after a success, go on sending. -/
def afterSend (s : SendState) (addr : ℕ) (status : ℤ) : SendState :=
  let s := { s with inFlight := s.inFlight.filter (·.1 ≠ addr) }.recycle addr
  if status < 0 then s else { s with loop := .drain }

/-- The critical section of `send_inl` with a filled buffer: take a request, recycled or new, and read
into it. -/
def drainRead (s : SendState) (addr : ℕ) (base : Mem UInt8) : SendState :=
  let (addr, w, writeparamList) :=
    match s.writeparamList with
    | [] => (addr, allocWriteParam base, [])
    | a :: as => (a, s.heap a, as)
  let (writeCircularbuf, dst, n, _) := s.writeCircularbuf.read w.base w.truelen
  { s with
    writeCircularbuf
    writeparamList
    heap := Function.update s.heap addr { w with base := dst, len := n }
    loop := .handOver addr }

/-- The call of `uv_write` on the filled request; a request that is refused is recycled. -/
def uvWrite (s : SendState) (addr : ℕ) (iret : ℤ) : SendState :=
  let s := { s with passed := s.passed ++ (s.heap addr).bytes, loop := .drain }
  if iret ≠ 0 then { s with writeparamList := s.writeparamList ++ [addr] }
  else { s with inFlight := s.inFlight ++ [(addr, s.heap addr)] }

/-- The addresses of the requests that exist. -/
def owned (s : SendState) : List ℕ :=
  (match s.loop with
    | .handOver addr => [addr]
    | _ => []) ++ s.writeparamList ++ s.inFlight.map Prod.fst

/-- The request that `send_inl` is filling: it is neither free nor in flight. -/
def filling (s : SendState) : Option ℕ :=
  match s.loop with
  | .handOver addr => some addr
  | _ => none

/-- Who has which request: the one in the hand of `send_inl`, the free ones, and those in flight. -/
def pool (s : SendState) : RequestPool ℕ := ⟨s.filling, s.writeparamList, s.inFlight.map Prod.fst⟩

/-- One step of a thread or of the event loop; there is none where the event cannot occur. -/
def step (s : SendState) : SendEvent → Option SendState
  | .send data => some (s.send data)
  | .sendCheck i =>
    match s.sends[i]? with
    | some c =>
      if c.pc = .check then
        let pc := if s.isuseraskforclosed then .returned else .write
        some { s with sends := s.sends.set i { c with pc } }
      else none
    | none => none
  | .sendWrite i =>
    match s.sends[i]? with
    | some c => if c.pc = .write then some (s.sendWrite i c) else none
    | none => none
  | .close => some { s with isuseraskforclosed := true }
  | .asyncCB =>
    if s.loop = .idle then
      -- `closeinl` has no effect on what is modelled here
      some (if s.isuseraskforclosed then s else { s with loop := .drain })
    else none
  | .afterRecv => if s.loop = .idle then some { s with loop := .drain } else none
  | .afterSend addr status =>
    if s.loop = .idle ∧ addr ∈ s.inFlight.map Prod.fst then some (s.afterSend addr status) else none
  | .drainRead addr base =>
    if s.loop = .drain ∧ addr ∉ s.owned then
      some (if s.writeCircularbuf.empty then { s with loop := .idle } else s.drainRead addr base)
    else none
  | .uvWrite iret =>
    match s.loop with
    | .handOver addr => some (s.uvWrite addr iret)
    | _ => none

/-! What a step needs and does when it continues a call of `Send` or hands a request over. The guards
of the other events are a single condition. -/

variable {s s' : SendState}

/-- A call of `Send` that is at its check goes on to write. -/
theorem step_sendCheck {i : ℕ} (hstep : s.step (.sendCheck i) = some s') :
    ∃ c, s.sends[i]? = some c ∧ c.pc = .check ∧
      s' = { s with
        sends := s.sends.set i { c with pc := if s.isuseraskforclosed then .returned else .write } }
      := by
  simp only [step] at hstep
  split at hstep
  case h_1 c hc =>
    obtain ⟨hpc, heq⟩ := Option.ite_none_right_eq_some.mp hstep
    exact ⟨c, hc, hpc, (Option.some.inj heq).symm⟩
  case h_2 => cases hstep

/-- A call of `Send` that is at its write writes. -/
theorem step_sendWrite {i : ℕ} (hstep : s.step (.sendWrite i) = some s') :
    ∃ c, s.sends[i]? = some c ∧ c.pc = .write ∧ s' = s.sendWrite i c := by
  simp only [step] at hstep
  split at hstep
  case h_1 c hc =>
    obtain ⟨hpc, heq⟩ := Option.ite_none_right_eq_some.mp hstep
    exact ⟨c, hc, hpc, (Option.some.inj heq).symm⟩
  case h_2 => cases hstep

/-- `uv_write` is called for the request that is handed over. -/
theorem step_uvWrite {iret : ℤ} (hstep : s.step (.uvWrite iret) = some s') :
    ∃ addr, s.loop = .handOver addr ∧ s' = s.uvWrite addr iret := by
  simp only [step] at hstep
  split at hstep
  case h_1 addr hhand => exact ⟨addr, hhand, (Option.some.inj hstep).symm⟩
  case h_2 => cases hstep

/-- The loop thread has nothing to do with the calls of `Send`, what they have written, and the flag. -/
theorem step_onLoop {e : SendEvent} (hstep : s.step e = some s') (hloop : e.OnLoop) :
    s'.sends = s.sends ∧ s'.accepted = s.accepted ∧ s'.completed = s.completed ∧
      s'.isuseraskforclosed = s.isuseraskforclosed := by
  cases e with
  | send data => exact hloop.elim
  | sendCheck i => exact hloop.elim
  | sendWrite i => exact hloop.elim
  | close => exact hloop.elim
  | asyncCB =>
    obtain ⟨-, heq⟩ := Option.ite_none_right_eq_some.mp hstep
    cases heq
    split <;> exact ⟨rfl, rfl, rfl, rfl⟩
  | afterRecv =>
    obtain ⟨-, heq⟩ := Option.ite_none_right_eq_some.mp hstep
    cases heq
    exact ⟨rfl, rfl, rfl, rfl⟩
  | afterSend addr status =>
    obtain ⟨-, heq⟩ := Option.ite_none_right_eq_some.mp hstep
    cases heq
    rw [afterSend, recycle]
    split <;> split <;> exact ⟨rfl, rfl, rfl, rfl⟩
  | drainRead addr base =>
    obtain ⟨-, heq⟩ := Option.ite_none_right_eq_some.mp hstep
    cases heq
    split <;> exact ⟨rfl, rfl, rfl, rfl⟩
  | uvWrite iret =>
    obtain ⟨addr, -, rfl⟩ := step_uvWrite hstep
    rw [uvWrite]
    split <;> exact ⟨rfl, rfl, rfl, rfl⟩

/-! ### The requests -/

/-- Where the loop thread is idle or at the head of the loop of `send_inl`, no request is being filled. -/
theorem filling_eq_none (h : s.loop = .idle ∨ s.loop = .drain) : s.filling = none := by
  rw [filling]
  rcases h with h | h <;> rw [h]

/-- Where it hands a request over, that is the one being filled. -/
theorem filling_eq_some {addr : ℕ} (h : s.loop = .handOver addr) : s.filling = some addr := by
  rw [filling, h]

/-- The requests that exist are those of the pool. -/
theorem pool_owned : s.pool.owned = s.owned := by
  rw [RequestPool.owned, SendState.owned, pool, filling]
  cases s.loop with
  | idle => rfl
  | drain => rfl
  | handOver addr => rfl

/-- `send_inl` takes the first request of the list, or a new one. -/
theorem drainRead_pool (addr : ℕ) (base : Mem UInt8) :
    (s.drainRead addr base).pool =
      match s.writeparamList with
      | [] => s.pool.alloc addr
      | a :: as => s.pool.take a as := by
  rw [drainRead, pool, pool]
  cases hlist : s.writeparamList with
  | nil => rfl
  | cons a as => rfl

/-- What the result of `uv_write` means for the pool. -/
theorem uvWrite_pool (addr : ℕ) (iret : ℤ) :
    (s.uvWrite addr iret).pool = if iret ≠ 0 then s.pool.reject addr else s.pool.submit addr := by
  rw [uvWrite]
  split
  case isTrue => rfl
  case isFalse =>
    rw [RequestPool.submit, pool, pool]
    exact congrArg (RequestPool.mk none s.writeparamList) List.map_append

/-- `AfterSend` touches the requests, and may make the loop thread go on. -/
theorem afterSend_eq (hidle : s.loop = .idle) (addr : ℕ) (status : ℤ) :
    ∃ loop, (loop = .idle ∨ loop = .drain) ∧ s.afterSend addr status = { s with
      inFlight := s.inFlight.filter (·.1 ≠ addr)
      writeparamList :=
        if s.writeparamList.length > maxListSize then s.writeparamList
        else s.writeparamList ++ [addr]
      loop } := by
  rw [afterSend, recycle]
  simp only
  split <;> split
  · exact ⟨_, .inl hidle, rfl⟩
  · exact ⟨_, .inl hidle, rfl⟩
  · exact ⟨_, .inr rfl, rfl⟩
  · exact ⟨_, .inr rfl, rfl⟩

/-- What the end of a write means for the pool. -/
theorem afterSend_pool (hidle : s.loop = .idle) (addr : ℕ) (status : ℤ) :
    (s.afterSend addr status).pool = s.pool.complete maxListSize addr := by
  obtain ⟨loop, hloop, heq⟩ := afterSend_eq hidle addr status
  have hfill := filling_eq_none (s := s) (.inl hidle)
  rw [heq, pool, filling_eq_none hloop, RequestPool.map_fst_filter_ne, RequestPool.complete, pool,
    hfill]
  split <;> rfl

/-- A step of the loop thread that is not filling a request. -/
theorem move_pool {loop : LoopPc} (hfrom : s.loop = .idle ∨ s.loop = .drain)
    (hto : loop = .idle ∨ loop = .drain) : pool { s with loop } = s.pool := by
  rw [pool, pool, filling_eq_none hfrom, filling_eq_none hto]

end SendState

end MyUvpp
