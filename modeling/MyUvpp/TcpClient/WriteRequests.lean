import MyUvpp.TcpClient.SendExactlyOnce

/-! # The write requests of a client

What `send_inl` and `AfterSend` do with the requests, next to the run of the send path, and that it is
proper. -/

namespace MyUvpp

/-- The copy into the caller's buffer, of the given size, that `read` makes. -/
def BufferEffect.blockCopy (size : ℤ) : BufferEffect → Option BlockCopy
  | .memcpy _ off n => some ⟨size, off, n⟩
  | .assert _ => none

/-- Whatever `read` copies into a buffer with room for `count` elements stays within it. -/
theorem BufferEffect.Safe.blockCopy {bufSize count : ℤ} {effects : List BufferEffect}
    (h : ∀ e ∈ effects, e.Safe bufSize count) :
    ∀ c ∈ effects.filterMap (BufferEffect.blockCopy count), c.Safe := by
  intro c hc
  obtain ⟨e, he, heq⟩ := List.mem_filterMap.mp hc
  cases e with
  | memcpy pos off n =>
    obtain ⟨hn, -, -, hoff, hle⟩ := h _ he
    cases heq
    exact ⟨hn, hoff, hle⟩
  | assert holds => cases heq

namespace SendState

variable (s : SendState)

/-- The log after the critical section of `send_inl` with the request `w`; `call` says where it comes
from, and the memory of the requests has the given sizes. -/
def drainRecord (log : RequestLog) (call : RequestCall ℕ) (sizes : ℕ → ℤ) (w : WriteParam) :
    RequestLog where
  calls := log.calls ++ [call]
  sizes
  copies := log.copies ++ (s.writeCircularbuf.read w.base w.truelen).2.2.2.filterMap
    (BufferEffect.blockCopy (sizes call.addr))

/-- The log after an event. -/
def record (log : RequestLog) : SendEvent → RequestLog
  | .drainRead addr base =>
    if s.writeCircularbuf.empty then log
    else
      match s.writeparamList with
      | [] =>
        s.drainRecord log ⟨.alloc, addr⟩ (Function.update log.sizes addr bufferSize)
          (allocWriteParam base)
      | a :: _ => s.drainRecord log ⟨.take, a⟩ log.sizes (s.heap a)
  | .uvWrite iret =>
    match s.loop with
    | .handOver addr =>
      { log with calls := log.calls ++
          if iret ≠ 0 then [⟨.reject, addr⟩, ⟨.recycle, addr⟩] else [⟨.submit, addr⟩] }
    | _ => log
  | .afterSend addr _ =>
    { log with calls := log.calls ++
        [⟨.complete, addr⟩, ⟨if s.writeparamList.length > maxListSize then .free else .recycle, addr⟩] }
  | _ => log

end SendState

/-- The send path with what has happened to its requests. -/
structure SendHistory where
  state : SendState
  log : RequestLog

namespace SendHistory

/-- A new client. -/
def initial (pBuf : Mem UInt8) (heap : ℕ → WriteParam) : SendHistory := ⟨.initial pBuf heap, .new⟩

/-- A step of the send path, and its log. -/
def step (h : SendHistory) (e : SendEvent) : Option SendHistory :=
  (h.state.step e).map fun s => ⟨s, h.state.record h.log e⟩

/-- The invariant of the send path, and the requests are in order. -/
structure Inv (h : SendHistory) : Prop where
  path : h.state.Inv
  requests : RequestsInOrder maxListSize h.state.pool h.state.heap h.log

end SendHistory

namespace SendState

variable {s s' : SendState} {log : RequestLog}

/-- The end of a write does not touch the bytes of the requests. -/
theorem afterSend_heap (addr : ℕ) (status : ℤ) : (s.afterSend addr status).heap = s.heap := by
  rw [afterSend, recycle]
  split <;> split <;> rfl

/-- Nor does the result of `uv_write`. -/
theorem uvWrite_heap (addr : ℕ) (iret : ℤ) : (s.uvWrite addr iret).heap = s.heap := by
  rw [uvWrite]
  split <;> rfl

/-! ### Steps -/

/-- The critical section of `send_inl` allocates or takes a request, and copies within it. -/
theorem drainRead_requests (hinv : s.Inv) (h : RequestsInOrder maxListSize s.pool s.heap log)
    {addr : ℕ} (base : Mem UInt8) (hdrain : s.loop = .drain) (haddr : addr ∉ s.owned)
    (hfull : s.writeCircularbuf.empty = false) :
    RequestsInOrder maxListSize (s.drainRead addr base).pool (s.drainRead addr base).heap
      (s.record log (.drainRead addr base)) := by
  have htaken : s.pool.taken = none := filling_eq_none (.inr hdrain)
  rw [← pool_owned] at haddr
  have hread := fun w : WriteParam =>
    BufferEffect.Safe.blockCopy (PodCircularBuffer.read_spec hinv.buf w.base w.truelen).safe
  rw [drainRead_pool, record, if_neg (by rw [hfull]; exact Bool.false_ne_true)]
  simp only [drainRead]
  cases hlist : s.writeparamList with
  | nil =>
    -- a new request, of the default size
    refine (h.alloc htaken haddr hlist _).copy ?_
    rw [Function.update_self]
    exact hread (allocWriteParam base)
  | cons a as =>
    -- a finished request, with the memory it has
    have howned : ∀ b ∈ (s.pool.take a as).owned, b ∈ s.pool.owned := fun b hb =>
      RequestPool.mem_owned_take htaken hlist hb
    have ha : a ∈ (s.pool.take a as).owned := RequestPool.mem_owned.mpr (.inl rfl)
    have htake := h.moved (h.pool.take htaken hlist) (RequestPool.run_take htaken hlist) howned
    refine RequestsInOrder.copy (RequestsInOrder.refill_same htake ha ?_) ?_
    · rfl
    · rw [h.sizes a (howned a ha)]
      exact hread (s.heap a)

/-- `uv_write` takes the request, or it goes back to the list. -/
theorem uvWrite_requests (h : RequestsInOrder maxListSize s.pool s.heap log) {addr : ℕ} (iret : ℤ)
    (hhand : s.loop = .handOver addr) :
    RequestsInOrder maxListSize (s.uvWrite addr iret).pool (s.uvWrite addr iret).heap
      (s.record log (.uvWrite iret)) := by
  have htaken : s.pool.taken = some addr := filling_eq_some hhand
  rw [uvWrite_pool, uvWrite_heap, record, hhand]
  dsimp only
  by_cases hiret : iret ≠ 0
  · rw [if_pos hiret, if_pos hiret]
    exact h.moved (h.pool.reject htaken) (RequestPool.run_reject htaken) fun b hb =>
      RequestPool.mem_owned_reject htaken hb
  · rw [if_neg hiret, if_neg hiret]
    exact h.moved (h.pool.submit htaken) (RequestPool.run_submit h.nodup htaken) fun b hb =>
      RequestPool.mem_owned_submit htaken hb

/-- A request that has been completed is recycled or freed. -/
theorem afterSend_requests (h : RequestsInOrder maxListSize s.pool s.heap log) {addr : ℕ} (status : ℤ)
    (hidle : s.loop = .idle) (haddr : addr ∈ s.inFlight.map Prod.fst) :
    RequestsInOrder maxListSize (s.afterSend addr status).pool (s.afterSend addr status).heap
      (s.record log (.afterSend addr status)) := by
  have htaken : s.pool.taken = none := filling_eq_none (.inl hidle)
  rw [afterSend_pool hidle, afterSend_heap]
  exact h.moved (h.pool.complete htaken haddr) (RequestPool.run_complete h.nodup htaken haddr)
    fun b hb => RequestPool.mem_owned_complete haddr hb

end SendState

namespace SendHistory

variable {h h' : SendHistory}

/-- Every step keeps the requests in order. -/
theorem step_requests {e : SendEvent} (hinv : h.Inv) (hstep : h.step e = some h') :
    RequestsInOrder maxListSize h'.state.pool h'.state.heap h'.log := by
  obtain ⟨s', hs, rfl⟩ := Option.map_eq_some_iff.mp hstep
  have hreq := hinv.requests
  cases e with
  | send data =>
    cases hs
    exact hreq
  | sendCheck i =>
    obtain ⟨c, -, -, rfl⟩ := SendState.step_sendCheck hs
    exact hreq
  | sendWrite i =>
    obtain ⟨c, -, -, rfl⟩ := SendState.step_sendWrite hs
    exact hreq
  | close =>
    cases hs
    exact hreq
  | asyncCB =>
    obtain ⟨hidle, heq⟩ := Option.ite_none_right_eq_some.mp hs
    cases heq
    split
    case isTrue => exact hreq
    case isFalse => exact SendState.move_pool (.inl hidle) (.inr rfl) ▸ hreq
  | afterRecv =>
    obtain ⟨hidle, heq⟩ := Option.ite_none_right_eq_some.mp hs
    cases heq
    exact SendState.move_pool (.inl hidle) (.inr rfl) ▸ hreq
  | afterSend addr status =>
    obtain ⟨⟨hidle, hflight⟩, heq⟩ := Option.ite_none_right_eq_some.mp hs
    cases heq
    exact SendState.afterSend_requests hreq status hidle hflight
  | drainRead addr base =>
    obtain ⟨⟨hdrain, hfresh⟩, heq⟩ := Option.ite_none_right_eq_some.mp hs
    cases heq
    split
    case isTrue hempty =>
      rw [SendState.record, if_pos hempty]
      exact SendState.move_pool (.inr hdrain) (.inl rfl) ▸ hreq
    case isFalse hfull =>
      exact SendState.drainRead_requests hinv.path hreq base hdrain hfresh
        (Bool.eq_false_of_not_eq_true hfull)
  | uvWrite iret =>
    obtain ⟨addr, hhand, rfl⟩ := SendState.step_uvWrite hs
    exact SendState.uvWrite_requests hreq iret hhand

/-- The requests of a new client are in order. -/
theorem inv_initial (pBuf : Mem UInt8) (heap : ℕ → WriteParam) : (initial pBuf heap).Inv :=
  ⟨SendState.inv_initial pBuf heap, .new maxListSize heap⟩

/-- Every step keeps the invariant. -/
theorem Inv.step_inv {e : SendEvent} (hinv : h.Inv) (hstep : h.step e = some h') : h'.Inv := by
  refine ⟨?_, step_requests hinv hstep⟩
  obtain ⟨s', hs, rfl⟩ := Option.map_eq_some_iff.mp hstep
  exact SendState.step_inv hinv.path hs

end SendHistory

end MyUvpp
