import Mathlib.Algebra.Order.Ring.Int
import Mathlib.Data.List.Basic

/-! # Writing to a stream (`unix/stream.c`)

The side of a TCP stream of libuv that is written to: the queues of the write requests, the watcher of the
socket, and the functions that the loop calls. Callbacks are called between the steps of the loop, and may
call what they like. The kernel decides how much of a buffer it takes. Every `assert` on the way is checked:
where it fails there is no result. -/

namespace MyUvpp

/-- `EBADF` of Linux, which libuv returns negated. -/
def ebadf : ℤ := 9
/-- `ENOMEM` of Linux. -/
def enomem : ℤ := 12
/-- `EINPROGRESS` of Linux. -/
def einprogress : ℤ := 115
/-- `ECANCELED` of Linux. -/
def ecanceled : ℤ := 125

/-- `uv_buf_t`, some bytes of the memory. What they are is read when they are written. -/
structure WriteBuf where
  base : ℕ
  len : ℕ
  deriving DecidableEq, Repr

/-- What is in a buffer at this moment. -/
def WriteBuf.bytes (memory : ℕ → UInt8) (buf : WriteBuf) : List UInt8 :=
  (List.range buf.len).map fun i => memory (buf.base + i)

/-- What is in some buffers at this moment, one after the other. -/
def bufsBytes (memory : ℕ → UInt8) (bufs : List WriteBuf) : List UInt8 := bufs.flatMap (·.bytes memory)

/-- The number of the bytes of some buffers. -/
def totalLen (bufs : List WriteBuf) : ℕ := (bufs.map WriteBuf.len).sum

/-- `uv__count_bufs`, as a `size_t`. -/
def countBufs (bufs : List WriteBuf) : ℕ := totalLen bufs % 2 ^ 64

/-- `uv_write_t`. The last two fields record what is behind the request, for statements about it. -/
structure UvWrite where
  addr : ℕ
  /-- `bufs` from `write_index` on, or `NULL`. -/
  bufs : Option (List WriteBuf)
  error : ℤ
  /-- What was in the buffers when `uv_write` was called. -/
  data : List UInt8
  /-- How many bytes the kernel has taken. -/
  written : ℕ
  deriving DecidableEq, Repr

/-- What `write(2)` or `writev(2)` returns: a number of bytes, or an error, of which `EAGAIN` is one to wait
on. -/
inductive WriteResult where
  | wrote (n : ℕ)
  /-- `EAGAIN` -/
  | again
  | failed (errno : ℤ)
  deriving DecidableEq, Repr

/-- Where the loop is in the functions of a stream. -/
inductive StreamPhase where
  /-- In none of them. -/
  | idle
  /-- In `uv__write_callbacks` in `uv__stream_io`. -/
  | io
  /-- In the callback of `uv__stream_connect`, with its error. -/
  | connectCb (error : ℤ)
  /-- In `uv__write_callbacks` in `uv__stream_connect`. -/
  | connect
  /-- In `uv__write_callbacks` in `uv__stream_destroy`. -/
  | destroy
  deriving DecidableEq, Repr

/-- Whether the connect callback is running. -/
def StreamPhase.inConnectCb : StreamPhase → Bool
  | .connectCb _ => true
  | _ => false

/-- The loop is in `uv__write_callbacks`, which is called from three places. -/
def StreamPhase.inCallbacks : StreamPhase → Bool
  | .io | .connect | .destroy => true
  | _ => false

/-- The fields of `uv_stream_t` that are used, and the memory. The last three fields record what happened,
for statements about it. -/
structure UvStream where
  /-- The file descriptor of the stream is not negative. -/
  fdOpen : Bool
  closing : Bool
  closed : Bool
  /-- `connect_req` is set. -/
  connectReq : Bool
  /-- `POLLOUT` is watched. -/
  pollout : Bool
  /-- The watcher is in the pending queue of the loop. -/
  fed : Bool
  writeQueue : List UvWrite
  writeCompletedQueue : List UvWrite
  writeQueueSize : ℕ
  phase : StreamPhase
  memory : ℕ → UInt8
  /-- What the kernel has taken. -/
  sent : List UInt8
  /-- The requests that `uv_write` has accepted, with their data. -/
  accepted : List (ℕ × List UInt8)
  /-- The requests whose callbacks have been called, with the status in `error`. -/
  called : List UvWrite

namespace UvStream

/-- `uv__stream_init`: no socket, no requests, nothing watched. -/
def initial (memory : ℕ → UInt8) : UvStream where
  fdOpen := false
  closing := false
  closed := false
  connectReq := false
  pollout := false
  fed := false
  writeQueue := []
  writeCompletedQueue := []
  writeQueueSize := 0
  phase := .idle
  memory
  sent := []
  accepted := []
  called := []

variable (s : UvStream)

/-- `uv__write_req_finish`, for the head of the queue. -/
def uvWriteReqFinish (req : UvWrite) : UvStream :=
  { s with
    writeQueue := s.writeQueue.tail
    writeCompletedQueue := s.writeCompletedQueue ++ [if req.error = 0 then { req with bufs := none } else req]
    fed := true }

/-- The loop of `uv__write` behind a successful write of `n` bytes: the buffers that are left, and
`write_queue_size`. -/
def writeLoop : List WriteBuf → ℕ → ℕ → Option (List WriteBuf × ℕ)
  | [], _, _ => none
  | buf :: bufs, n, writeQueueSize =>
    if n < buf.len then
      some (⟨buf.base + n, buf.len - n⟩ :: bufs, (writeQueueSize + 2 ^ 64 - n) % 2 ^ 64)
    else if writeQueueSize < buf.len then none
    else if bufs.isEmpty then
      if n = buf.len then some ([], writeQueueSize - buf.len) else none
    else writeLoop bufs (n - buf.len) (writeQueueSize - buf.len)

/-- `uv__write`, with what the kernel returns: the first request goes on, or is finished with success or an
error. -/
def uvWrite (iovmax : ℕ) (r : WriteResult) : Option UvStream :=
  if s.fdOpen then
    match s.writeQueue with
    | [] => some s
    | req :: queue =>
      req.bufs.bind fun bufs =>
        match r with
        | .failed errno => some { s.uvWriteReqFinish { req with error := -errno } with pollout := false }
        | .again => some { s with pollout := true }
        | .wrote n =>
          (writeLoop bufs n s.writeQueueSize).map fun (left, writeQueueSize) =>
            let req := { req with bufs := some left, written := req.written + n }
            let s := { s with
              writeQueueSize
              sent := s.sent ++ (bufsBytes s.memory (bufs.take iovmax)).take n }
            if left.isEmpty then s.uvWriteReqFinish req
            else { s with writeQueue := req :: queue, pollout := true }
  else none

/-- A new request for `uv_write2`. What it is about is read from memory now, for statements about it. -/
def newWrite (addr : ℕ) (bufs : List WriteBuf) : UvWrite := ⟨addr, some bufs, 0, bufsBytes s.memory bufs, 0⟩

/-- `uv_write2` without a handle to send; more than four buffers are copied to memory that may be short. -/
def uvWrite2 (iovmax addr : ℕ) (bufs : List WriteBuf) (allocated : Bool) (r : WriteResult) :
    Option (ℤ × UvStream) :=
  if bufs.isEmpty then none
  else if s.fdOpen = false then some (-ebadf, s)
  else if 4 < bufs.length ∧ allocated = false then some (-enomem, s)
  else
    let req := s.newWrite addr bufs
    let emptyQueue : Bool := s.writeQueueSize = 0
    let s := { s with
      writeQueueSize := (s.writeQueueSize + countBufs bufs) % 2 ^ 64
      writeQueue := s.writeQueue ++ [req]
      accepted := s.accepted ++ [(addr, req.data)] }
    if s.connectReq then some (0, s)
    else if emptyQueue then (s.uvWrite iovmax r).map fun s => (0, s)
    else some (0, { s with pollout := true })

/-- A round of `uv__write_callbacks`: what follows is the callback of the request. -/
def uvWriteCallback : Option UvStream :=
  match s.writeCompletedQueue with
  | [] => none
  | req :: queue =>
    let size := req.bufs.elim 0 countBufs
    if s.writeQueueSize < size then none
    else some { s with
      writeCompletedQueue := queue
      writeQueueSize := s.writeQueueSize - size
      called := s.called ++ [{ req with bufs := none }] }

/-- `uv__drain`, where the stream is not being shut down. -/
def uvDrain : Option UvStream :=
  if s.writeQueue.isEmpty then some { s with pollout := false } else none

/-- `uv__stream_flush_write_queue`: all waiting requests are completed with the error. -/
def uvStreamFlushWriteQueue (error : ℤ) : UvStream :=
  { s with
    writeQueue := []
    writeCompletedQueue := s.writeCompletedQueue ++ s.writeQueue.map fun req => { req with error } }

/-- `uv__stream_connect` up to the callback, unless the connection is still being made. -/
def uvStreamConnect (error : ℤ) : UvStream :=
  if error = -einprogress then s
  else
    { s with
      connectReq := false
      pollout := s.pollout && !(decide (error < 0) || s.writeQueue.isEmpty)
      phase := .connectCb error }

/-- `uv__stream_connect` behind the callback, which may have closed the stream. -/
def uvStreamConnected (error : ℤ) : UvStream :=
  if s.fdOpen = false then { s with phase := .idle }
  else if error < 0 then { s.uvStreamFlushWriteQueue (-ecanceled) with phase := .connect }
  else { s with phase := .idle }

/-- `uv__stream_io` up to the callbacks of the requests, for an event that is written on. -/
def uvStreamIo (iovmax : ℕ) (r : WriteResult) (error : ℤ) : Option UvStream :=
  if s.closing then none
  else if s.connectReq then some (s.uvStreamConnect error)
  else (s.uvWrite iovmax r).map fun s => { s with phase := .io }

/-- `uv__tcp_connect`, where the connection is under way then. -/
def uvTcpConnect (delayed : Bool) : UvStream :=
  { s with fdOpen := true, connectReq := true, pollout := true, fed := s.fed || delayed }

/-- `uv_close`, `uv__stream_close`: the socket is closed at once, the requests are left to
`uv__stream_destroy`. -/
def uvClose : UvStream := { s with closing := true, fdOpen := false, pollout := false, fed := false }

/-- `uv__finish_close`, `uv__stream_destroy` up to the callbacks of the requests. -/
def uvStreamDestroy : Option UvStream :=
  if s.pollout then none
  else some { { s with closed := true, connectReq := false }.uvStreamFlushWriteQueue (-ecanceled) with
    phase := .destroy }

/-- What follows `uv__write_callbacks`, at the place from which it was called. -/
def callbacksEnd : Option UvStream :=
  match s.phase with
  | .io => (if s.writeQueue.isEmpty then s.uvDrain else some s).map fun s => { s with phase := .idle }
  | .connect => some { s with phase := .idle }
  | .destroy => if s.writeQueueSize = 0 then some { s with phase := .idle } else none
  | _ => none

end UvStream

/-- What may happen next: a call of the program, a step of the loop, or a write to the memory. -/
inductive UvStreamEvent where
  /-- Somebody writes to the memory. -/
  | memory (memory : ℕ → UInt8)
  /-- The stream gets a socket: it is bound or accepted, or a connection could not be made. -/
  | socket
  /-- `uv_tcp_connect`; the error may be one for the next tick. -/
  | connect (delayed : Bool)
  /-- `uv_write`. -/
  | write (addr : ℕ) (bufs : List WriteBuf) (allocated : Bool) (r : WriteResult)
  | close
  /-- `uv__stream_io`, from the pending queue or from the poll. -/
  | io (pending : Bool) (r : WriteResult) (error : ℤ)
  /-- The callback of the connection returns. -/
  | connected
  /-- A round of `uv__write_callbacks`. -/
  | callback
  /-- `uv__write_callbacks` ends. -/
  | callbacksEnd
  /-- `uv__finish_close`. -/
  | destroy

namespace UvStream

/-- What the kernel can return for a request: it takes at most what it is given. -/
def Possible (iovmax : ℕ) (req : Option UvWrite) : WriteResult → Prop
  | .wrote n => ∀ bufs ∈ req.bind UvWrite.bufs, n ≤ totalLen (bufs.take iovmax)
  | .again => True
  | .failed errno => 0 < errno

/-- Whether a result of the write is possible can be looked up in the buffers of the request. -/
instance (iovmax : ℕ) (req : Option UvWrite) (r : WriteResult) : Decidable (Possible iovmax req r) :=
  match r with
  | .wrote _ => inferInstanceAs (Decidable (∀ bufs ∈ req.bind UvWrite.bufs, _ ≤ _))
  | .again => inferInstanceAs (Decidable True)
  | .failed errno => inferInstanceAs (Decidable (0 < errno))

/-- What the caller, the loop and the kernel have to see to: the buffers of the requests that are waiting
are left as they are, a request is used for one write at a time, the bytes under way can be counted, and a
stream is connected before it is written to. -/
def Allowed (iovmax : ℕ) (s : UvStream) : UvStreamEvent → Prop
  | .memory memory => ∀ req ∈ s.writeQueue, ∀ bufs ∈ req.bufs, bufsBytes memory bufs = bufsBytes s.memory bufs
  | .socket => s.fdOpen = false ∧ s.closing = false
  | .connect _ => s.closing = false ∧ s.connectReq = false ∧ s.phase = .idle ∧ s.writeQueue = [] ∧
      s.writeCompletedQueue = []
  | .write addr bufs _ r => bufs ≠ [] ∧ s.writeQueueSize + totalLen bufs < 2 ^ 64 ∧
      addr ∉ (s.writeCompletedQueue ++ s.writeQueue).map UvWrite.addr ∧
      Possible iovmax (s.writeQueue ++ [s.newWrite addr bufs]).head? r
  | .close => s.closing = false
  | .io pending r _ => s.fdOpen = true ∧ s.phase = .idle ∧ (pending = true → s.fed = true) ∧
      Possible iovmax s.writeQueue.head? r
  | .connected => s.phase.inConnectCb = true
  | .callback => s.phase.inCallbacks = true ∧ s.writeCompletedQueue ≠ []
  | .callbacksEnd => s.phase.inCallbacks = true ∧ s.writeCompletedQueue = []
  | .destroy => s.closing = true ∧ s.closed = false ∧ s.phase = .idle

/-- One step. The kernel takes at most `iovmax` buffers at once. There is no result where an assertion
fails. -/
def next (iovmax : ℕ) (s : UvStream) : UvStreamEvent → Option UvStream
  | .memory memory => some { s with memory }
  | .socket => some { s with fdOpen := true }
  | .connect delayed => some (s.uvTcpConnect delayed)
  | .write addr bufs allocated r => (s.uvWrite2 iovmax addr bufs allocated r).map Prod.snd
  | .close => some s.uvClose
  | .io pending r error => { s with fed := s.fed && !pending }.uvStreamIo iovmax r error
  | .connected =>
    match s.phase with
    | .connectCb error => some (s.uvStreamConnected error)
    | _ => none
  | .callback => s.uvWriteCallback
  | .callbacksEnd => s.callbacksEnd
  | .destroy => s.uvStreamDestroy

/-- Whether an event is allowed can be looked up in the state. -/
instance (iovmax : ℕ) (s : UvStream) (e : UvStreamEvent) : Decidable (s.Allowed iovmax e) :=
  match e with
  | .memory _ => inferInstanceAs (Decidable (∀ req ∈ s.writeQueue, ∀ bufs ∈ req.bufs, _ = _))
  | .socket | .callback | .callbacksEnd => inferInstanceAs (Decidable (_ ∧ _))
  | .connect _ => inferInstanceAs (Decidable (_ ∧ _ ∧ _ ∧ _ ∧ _))
  | .write .. => inferInstanceAs (Decidable (_ ∧ _ ∧ _ ∧ _))
  | .close => inferInstanceAs (Decidable (s.closing = false))
  | .connected => inferInstanceAs (Decidable (s.phase.inConnectCb = true))
  | .io .. => inferInstanceAs (Decidable (_ ∧ _ ∧ (_ → _) ∧ _))
  | .destroy => inferInstanceAs (Decidable (_ ∧ _ ∧ _))

/-- One step, where it is allowed. `none` where it is not, or where an assertion of the source fails. -/
def step (iovmax : ℕ) (s : UvStream) (e : UvStreamEvent) : Option UvStream :=
  if s.Allowed iovmax e then s.next iovmax e else none

end UvStream

end MyUvpp
