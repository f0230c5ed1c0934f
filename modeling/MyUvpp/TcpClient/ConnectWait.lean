import MyUvpp.TcpClient.Lifecycle

/-! # The wait for a connection

While `Connect` waits, its request is pending or has been answered. The answer sets `connectstatus_`, and
nothing else does so before another call of `Connect` or a call of `ReconnectTimer`. -/

namespace MyUvpp

/-- What may happen while `Connect` or `Connect6` waits, its own sleeps included: not another call of
them, and not `ReconnectTimer`, which is called a second after an answer at the earliest, while the wait
loop looks at the status ten times a second. -/
def ClientEvent.DuringWait : ClientEvent → Prop
  | .connect _ | .connect6 _ | .connectWaited | .reconnectTimer _ => False
  | _ => True

/-- Whether an event may come during the wait can be decided. -/
instance : DecidablePred ClientEvent.DuringWait := fun e => by
  cases e <;> first | exact isTrue trivial | exact isFalse id

/-- A call of `Connect` or `Connect6`. -/
def ClientEvent.IsConnect : ClientEvent → Prop
  | .connect _ | .connect6 _ => True
  | _ => False

/-- A callback for `tcphandle` or for the timer; `SetReconnectCB` does no more than they do. -/
def ClientEvent.OfCallback : ClientEvent → Prop
  | .setReconnectCB | .afterConnect _ _ | .afterRecv _ | .reconnectTimer _ | .tcpClosed _ | .timerClosed => True
  | _ => False

/-- The end of the wait: the last sleep is over, or another status than `CONNECT_DIS` has been found. -/
def ClientEvent.EndsWait : ClientEvent → Prop
  | .connectSlept | .connectWaited => True
  | _ => False

/-- Whether a sleep of the wait loop begins, counted. -/
def ClientEvent.sleep : ClientEvent → ℕ
  | .connectWait => 1
  | _ => 0

/-- The answer that an event gives to a request that is pending: the status of `AfterConnect` and what
`uv_read_start` returns. A request is canceled when the close of its handle completes. -/
def ClientEvent.answer : ClientEvent → Option (ℤ × ℤ)
  | .afterConnect status readStart => some (status, readStart)
  | .tcpClosed _ => some (uvEcanceled, 0)
  | _ => none

/-- `connectstatus_` after an answer. -/
def answerStatus (a : ℤ × ℤ) : ConnectStatus :=
  if a.1 ≠ 0 then .connectError else if a.2 ≠ 0 then .connectError else .connectFinish

/-- An answer ends `CONNECT_DIS`. -/
theorem answerStatus_ne_dis (a : ℤ × ℤ) : answerStatus a ≠ .connectDis := by
  rw [answerStatus]
  split
  case isTrue => exact fun h => by cases h
  case isFalse => split <;> exact fun h => by cases h

/-- Only a success sets `CONNECT_FINISH`. -/
theorem answerStatus_eq_finish {a : ℤ × ℤ} : answerStatus a = .connectFinish ↔ a = (0, 0) := by
  rw [answerStatus, Prod.ext_iff]
  -- `AfterConnect` looks at its status first, then at the result of `uv_read_start`
  split
  case isTrue hstatus => exact iff_of_false (fun h => by cases h) fun h => hstatus h.1
  case isFalse hstatus =>
    split
    case isTrue hread => exact iff_of_false (fun h => by cases h) fun h => hread h.2
    case isFalse hread => exact iff_of_true rfl ⟨not_not.mp hstatus, not_not.mp hread⟩

namespace TCPClient

/-- The request of a call of `Connect` is pending, and `connectstatus_` is `q`. -/
structure Pending (q : ConnectStatus) (s : TCPClient) : Prop where
  connectReq : s.tcphandle.connectReq = true
  connectstatus : s.connectstatus = q
  data : s.tcphandle.data = some .tcpClientCtx
  /-- Reading starts with the answer. -/
  reading : s.tcphandle.reading = false

/-- There is no request, and `connectstatus_` is `q`. -/
structure Answered (q : ConnectStatus) (s : TCPClient) : Prop where
  connectReq : s.tcphandle.connectReq = false
  connectstatus : s.connectstatus = q

variable {host : Host} {s s' : TCPClient} {q : ConnectStatus} {e : ClientEvent}

/-- The rest of the client does not matter to the request. -/
theorem Pending.congr (h : s.Pending q) (htcp : s'.tcphandle = s.tcphandle)
    (hstatus : s'.connectstatus = s.connectstatus) : s'.Pending q where
  connectReq := htcp ▸ h.connectReq
  connectstatus := hstatus.trans h.connectstatus
  data := htcp ▸ h.data
  reading := htcp ▸ h.reading

/-- Only the request and the status matter. -/
theorem Answered.congr (h : s.Answered q)
    (hreq : s'.tcphandle.connectReq = s.tcphandle.connectReq)
    (hstatus : s'.connectstatus = s.connectstatus) : s'.Answered q :=
  ⟨hreq.trans h.connectReq, hstatus.trans h.connectstatus⟩

/-! ### The call of a closed client -/

/-- The last call of `Connect` or `Connect6` has returned this. -/
def Returned (s : TCPClient) (ok : Bool) : Prop := s.log.getLast? = some (.connectReturn ok)

/-- A call returns what it returns. -/
theorem returned_connectReturn (s : TCPClient) (ok ok' : Bool) :
    (s.connectReturn ok).Returned ok' ↔ ok = ok' := by
  rw [Returned, connectReturn, List.getLast?_concat]
  refine ⟨fun h => ?_, fun h => h ▸ rfl⟩
  cases h
  rfl

/-- A call returns true when the wait loop has found `CONNECT_FINISH`. -/
theorem returned_connectWaited (s : TCPClient) :
    s.connectWaited.Returned true ↔ s.connectstatus = .connectFinish := by
  rw [connectWaited, returned_connectReturn, decide_eq_true_iff]

/-- A closed client at the beginning of the wait loop. -/
def waiting (s : TCPClient) (isIPv6 : Bool) : TCPClient :=
  { { s.uvAsyncInit.freshHandle.startPacket with
      reconnectTimer := s.reconnectTimer.init 0, isclosed := false, isIPv6 }.uvTcpConnect 0 with
    loopThreads := s.loopThreads + 1, connecting := true, asleep := false, waitCount := 0 }

/-- A call of `Connect` or `Connect6` returns false, or comes to the wait loop. -/
theorem connectTo_of_closed (h : s.isclosed = true) (isIPv6 : Bool) (r : ConnectResult) :
    ((s.connectTo isIPv6 r).Returned false ∧ (s.connectTo isIPv6 r).connecting = false) ∨
      s.connectTo isIPv6 r = s.waiting isIPv6 := by
  have hreturn : ∀ t : TCPClient, (t.connectReturn false).Returned false ∧
      (t.connectReturn false).connecting = false :=
    fun t => ⟨(returned_connectReturn t false false).mpr rfl, rfl⟩
  have hcloseinl : s.closeinl = s := if_pos h
  rcases connectTo_cases s isIPv6 r with heq | ⟨hinit, heq⟩
  -- `init` has failed
  · rw [heq]
    exact .inl (hreturn _)
  · rw [heq]
    rw [hcloseinl, init_eq h] at hinit ⊢
    -- `init` has succeeded
    split at hinit
    case isTrue => cases hinit
    case isFalse hasync =>
      split at hinit
      case isTrue => cases hinit
      case isFalse htcp =>
        split at hinit
        case isTrue => cases hinit
        case isFalse htimer =>
          rw [if_neg hasync, if_neg htcp, if_neg htimer, startConnect]
          -- parsing the address, `uv_tcp_connect` and creating the thread may fail
          split
          case isTrue => exact .inl (hreturn _)
          case isFalse =>
            by_cases hconnect : r.tcpConnect = 0
            · rw [hconnect]
              simp only [ne_eq, not_true_eq_false, if_false]
              split
              case isTrue => exact .inl (hreturn _)
              case isFalse => exact .inr rfl
            · refine .inl ?_
              simp only [if_pos hconnect]
              exact hreturn _

/-- There the request is pending. -/
theorem pending_waiting (s : TCPClient) (isIPv6 : Bool) :
    (s.waiting isIPv6).Pending s.connectstatus where
  connectReq := rfl
  connectstatus := rfl
  data := rfl
  reading := rfl

/-! ### The answer -/

/-- `AfterConnect` sets the status, and makes no request. -/
theorem answered_afterConnect (hreq : s.tcphandle.connectReq = false)
    (hdata : s.tcphandle.data = some .tcpClientCtx) (status readStart : ℤ) :
    (s.afterConnect status readStart).Answered (answerStatus (status, readStart)) := by
  have hread : ((s.callback .afterConnect).startReading readStart).tcphandle.connectReq = false :=
    (UvTcp.readStart_connectReq _ _).trans hreq
  -- a failure or a success, while reconnecting or not
  rcases afterConnect_cases hdata status readStart with
    ⟨hstatus, -, heq⟩ | ⟨hstatus, -, heq⟩ | ⟨rfl, -, heq⟩ | ⟨rfl, -, heq⟩
  · rw [heq, answerStatus, if_pos hstatus]
    exact ⟨hreq, rfl⟩
  · rw [heq, answerStatus, if_pos hstatus]
    exact ⟨hreq, rfl⟩
  · obtain ⟨log, hlog⟩ := callReconnectCb_eq
      (((s.callback .afterConnect).startReading readStart).stopReconnect) .reconnect
    rw [heq, hlog, answerStatus, if_neg (not_not.mpr rfl)]
    exact ⟨hread, rfl⟩
  · rw [heq, answerStatus, if_neg (not_not.mpr rfl)]
    exact ⟨hread, rfl⟩

/-- `AfterConnect` decides about the status by what it is told. -/
theorem Pending.answerConnect (h : s.Pending q) (status readStart : ℤ) :
    (s.answerConnect status readStart).Answered (answerStatus (status, readStart)) :=
  answered_afterConnect (s := s.answered) rfl h.data status readStart

/-! ### The close of the handle -/

/-- `AfterClientClose` has no part in it. -/
theorem Answered.tcpClosed (h : s.streamDestroy.Answered q) (cb : Option ClientCloseCb)
    (timerStart : ℤ) : (s.tcpClosed cb timerStart).Answered q := by
  rw [TCPClient.tcpClosed.eq_def]
  cases cb with
  | none => exact h.congr rfl rfl
  | some cb =>
    obtain ⟨reconnectTimer, heq⟩ := afterClientClose_eq
      { s.streamDestroy with tcphandle := s.streamDestroy.tcphandle.closed } timerStart
    simp only [heq]
    exact h.congr rfl rfl

/-- The close of the handle cancels the request. -/
theorem Pending.streamDestroy (h : s.Pending q) :
    s.streamDestroy.Answered (answerStatus (uvEcanceled, 0)) := by
  rw [TCPClient.streamDestroy, if_pos h.connectReq]
  exact h.answerConnect uvEcanceled 0

/-- The end of a close answers no request twice. -/
theorem Answered.streamDestroy (h : s.Answered q) : s.streamDestroy.Answered q := by
  rw [TCPClient.streamDestroy, if_neg (Bool.eq_false_iff.mp h.connectReq)]
  exact h

/-! ### Other callbacks -/

/-- `closeinl` leaves the request to the close of the handle. -/
theorem Pending.closeinl (h : s.Pending q) : s.closeinl.Pending q := by
  rw [TCPClient.closeinl]
  split
  case isTrue => exact h
  case isFalse =>
    -- `uv_walk` closes the handle; the request goes when that close completes
    refine ⟨?_, h.connectstatus, ?_, ?_⟩
    · exact (UvTcp.walkClose_connectReq _ _).trans h.connectReq
    · exact UvTcp.walkClose_data _ _
    · refine UvTcp.walkClose_reading _ fun hreading => ?_
      cases h.reading.symm.trans hreading

/-- `closeinl` does not touch the status. -/
theorem Answered.closeinl (h : s.Answered q) : s.closeinl.Answered q := by
  rw [TCPClient.closeinl]
  split
  case isTrue => exact h
  case isFalse => exact h.congr (UvTcp.walkClose_connectReq _ _) rfl

/-- What is received does not matter. -/
theorem Answered.afterRecv (h : s.Answered q) {nread : Option (List UInt8)}
    (hrecv : s.afterRecv host nread = some s') : s'.Answered q := by
  -- no context, an error, an empty read, or bytes for the decoder
  rcases afterRecv_cases hrecv with ⟨-, rfl⟩ | ⟨-, ⟨-, rfl⟩ | ⟨-, rfl⟩ | ⟨_, _, _, -, -, rfl⟩⟩
  · exact h.congr rfl rfl
  · rw [afterRecvError]
    obtain ⟨log, heq⟩ := callReconnectCb_eq
      ((s.callback .allocBufferForRecv).callback .afterRecv) .disconnect
    rw [heq]
    exact h.congr rfl rfl
  · exact h.congr rfl rfl
  · exact h.congr rfl rfl

/-! ### What the callbacks leave alone -/

/-- What the callbacks for `tcphandle` and for the timer leave alone: the wait loop, the close that the user asks
for, and what the loop thread runs on. -/
structure Apart (s s' : TCPClient) : Prop where
  isuseraskforclosed : s'.isuseraskforclosed = s.isuseraskforclosed
  connecting : s'.connecting = s.connecting
  asleep : s'.asleep = s.asleep
  waitCount : s'.waitCount = s.waitCount
  loopThreads : s'.loopThreads = s.loopThreads
  asyncHandle : s'.asyncHandle = s.asyncHandle

/-- The callback of the user leaves the wait alone. -/
theorem apart_callReconnectCb (s : TCPClient) (event : NetEventType) :
    s.Apart (s.callReconnectCb event) := by
  obtain ⟨log, heq⟩ := s.callReconnectCb_eq event
  rw [heq]
  exact ⟨rfl, rfl, rfl, rfl, rfl, rfl⟩

/-- `AfterConnect` leaves the wait alone, but for the status that it is about. -/
theorem apart_afterConnect (s : TCPClient) (status readStart : ℤ) :
    s.Apart (s.afterConnect status readStart) := by
  by_cases hdata : s.tcphandle.data = some .tcpClientCtx
  · rcases afterConnect_cases hdata status readStart with
      ⟨-, -, heq⟩ | ⟨-, -, heq⟩ | ⟨-, -, heq⟩ | ⟨-, -, heq⟩
    · rw [heq]
      exact ⟨rfl, rfl, rfl, rfl, rfl, rfl⟩
    · rw [heq]
      exact ⟨rfl, rfl, rfl, rfl, rfl, rfl⟩
    · rw [heq]
      have hcall := apart_callReconnectCb
        (((s.callback .afterConnect).startReading readStart).stopReconnect) .reconnect
      exact ⟨hcall.1, hcall.2, hcall.3, hcall.4, hcall.5, hcall.6⟩
    · rw [heq]
      exact ⟨rfl, rfl, rfl, rfl, rfl, rfl⟩
  -- the callback does nothing without its context
  · rw [afterConnect_of_data_ne hdata]
    exact ⟨rfl, rfl, rfl, rfl, rfl, rfl⟩

/-- `AfterRecv` leaves the wait alone. -/
theorem apart_afterRecv {nread : Option (List UInt8)} (hrecv : s.afterRecv host nread = some s') :
    s.Apart s' := by
  -- no context, an error, an empty read, or bytes for the decoder
  rcases afterRecv_cases hrecv with ⟨-, rfl⟩ | ⟨-, ⟨-, rfl⟩ | ⟨-, rfl⟩ | ⟨_, _, _, -, -, rfl⟩⟩
  · exact ⟨rfl, rfl, rfl, rfl, rfl, rfl⟩
  · have hcall := apart_callReconnectCb
      ((s.callback .allocBufferForRecv).callback .afterRecv) .disconnect
    exact ⟨hcall.1, hcall.2, hcall.3, hcall.4, hcall.5, hcall.6⟩
  · exact ⟨rfl, rfl, rfl, rfl, rfl, rfl⟩
  · exact ⟨rfl, rfl, rfl, rfl, rfl, rfl⟩

/-- The timer leaves the wait alone. -/
theorem apart_reconnectTimerCb (s : TCPClient) (r : AttemptResult) :
    s.Apart (s.reconnectTimerCb r) := by
  rcases reconnectTimerCb_cases s r with
    ⟨-, heq⟩ | ⟨-, ⟨_, -, heq⟩ | heq | ⟨_, -, heq⟩ | heq⟩ <;>
  · rw [heq]
    exact ⟨rfl, rfl, rfl, rfl, rfl, rfl⟩

/-- The end of a close leaves the wait alone. -/
theorem apart_tcpClosed (s : TCPClient) (cb : Option ClientCloseCb) (timerStart : ℤ) :
    s.Apart (s.tcpClosed cb timerStart) := by
  obtain ⟨_, _, _, _, _, hdestroy⟩ := s.streamDestroy_eq
  rw [TCPClient.tcpClosed.eq_def, hdestroy]
  cases cb with
  | none => exact ⟨rfl, rfl, rfl, rfl, rfl, rfl⟩
  | some cb =>
    obtain ⟨_, heq⟩ := afterClientClose_eq (s := { s.streamDestroy with
      tcphandle := s.streamDestroy.tcphandle.closed }) timerStart
    rw [hdestroy] at heq
    simp only [heq]
    exact ⟨rfl, rfl, rfl, rfl, rfl, rfl⟩

/-- Their steps. -/
theorem step_apart (hcallback : e.OfCallback) (hstep : s.step host e = some s') : s.Apart s' := by
  cases steps_of_step hstep with
  | setReconnectCB | timerClosed => exact ⟨rfl, rfl, rfl, rfl, rfl, rfl⟩
  | afterConnect status readStart =>
    have hafter := apart_afterConnect s.answered status readStart
    exact ⟨hafter.1, hafter.2, hafter.3, hafter.4, hafter.5, hafter.6⟩
  | afterRecv nread _ _ _ _ hrecv => exact apart_afterRecv hrecv
  | reconnectTimer r => exact apart_reconnectTimerCb s r
  | tcpClosed cb timerStart => exact apart_tcpClosed s cb timerStart
  | _ => exact hcallback.elim

/-! ### Steps -/

/-- A sleep after which the wait loop goes on. -/
theorem connectSlept_of_connecting (hconn : s.connectSlept.connecting = true) :
    s.waitCount < 100 ∧ s.connectSlept = { s with asleep := false, waitCount := s.waitCount + 1 } := by
  rcases s.connectSlept_cases with hslept | ⟨-, heq⟩
  · exact hslept
  · rw [heq] at hconn
    cases hconn

/-- Most events have nothing to do with the handle and the status, as long as the wait goes on. -/
theorem step_passive (hwait : e.DuringWait) (hnone : e.answer = none) (hasync : e ≠ .asyncCB)
    (hrecv : ∀ nread, e ≠ .afterRecv nread) (hstep : s.step host e = some s')
    (hconn : s'.connecting = true) :
    s'.tcphandle = s.tcphandle ∧ s'.connectstatus = s.connectstatus := by
  cases steps_of_step hstep with
  | setReconnectCB | connectWait | send | asyncClosed | timerClosed | loopExit => exact ⟨rfl, rfl⟩
  | connect | connect6 | connectWaited | reconnectTimer => exact hwait.elim
  | connectSlept =>
    -- the time of the call is not up
    rw [(connectSlept_of_connecting hconn).2]
    exact ⟨rfl, rfl⟩
  | close =>
    rw [close]
    split <;> exact ⟨rfl, rfl⟩
  | asyncCB => exact absurd rfl hasync
  | afterConnect | tcpClosed => cases hnone
  | afterRecv nread => exact absurd rfl (hrecv nread)

/-- `AsyncCB` does not touch the handle, but by `closeinl`. -/
theorem Pending.asyncCB (h : s.Pending q) : s.asyncCB.Pending q := by
  have hreceived : Pending q { s with asyncHandle := s.asyncHandle.received } := h.congr rfl rfl
  rw [TCPClient.asyncCB]
  split
  case isTrue => exact hreceived.closeinl
  case isFalse => exact hreceived

/-- `AsyncCB` does not answer again. -/
theorem Answered.asyncCB (h : s.Answered q) : s.asyncCB.Answered q := by
  have hreceived : Answered q { s with asyncHandle := s.asyncHandle.received } := h.congr rfl rfl
  rw [TCPClient.asyncCB]
  split
  case isTrue => exact hreceived.closeinl
  case isFalse => exact hreceived

/-- An event that gives no answer leaves the request pending. -/
theorem Pending.step (h : s.Pending q) (hwait : e.DuringWait) (hnone : e.answer = none)
    (hstep : s.step host e = some s') (hconn : s'.connecting = true) : s'.Pending q := by
  by_cases hasync : e = .asyncCB
  · subst hasync
    cases steps_of_step hstep
    exact h.asyncCB
  by_cases hrecv : ∃ nread, e = .afterRecv nread
  · -- nothing is read before the answer
    obtain ⟨nread, rfl⟩ := hrecv
    cases steps_of_step hstep with
    | afterRecv _ _ _ _ hreading hrecv => cases h.reading.symm.trans hreading
  obtain ⟨htcp, hstatus⟩ := step_passive hwait hnone hasync (not_exists.mp hrecv) hstep hconn
  exact h.congr htcp hstatus

/-- The event that answers the request decides about the status. -/
theorem Pending.step_answer (h : s.Pending q) {a : ℤ × ℤ} (hanswer : e.answer = some a)
    (hstep : s.step host e = some s') : s'.Answered (answerStatus a) := by
  cases steps_of_step hstep with
  | afterConnect status readStart =>
    cases hanswer
    exact h.answerConnect status readStart
  | tcpClosed cb timerStart =>
    -- the request is canceled before the callback of the close runs
    cases hanswer
    exact h.streamDestroy.tcpClosed cb timerStart
  | _ => cases hanswer

/-- After the answer, the status stays while `Connect` waits. -/
theorem Answered.step (h : s.Answered q) (hwait : e.DuringWait) (hstep : s.step host e = some s')
    (hconn : s'.connecting = true) : s'.Answered q := by
  by_cases hasync : e = .asyncCB
  · subst hasync
    cases steps_of_step hstep
    exact h.asyncCB
  by_cases hrecv : ∃ nread, e = .afterRecv nread
  · obtain ⟨nread, rfl⟩ := hrecv
    cases steps_of_step hstep with
    | afterRecv _ _ _ _ _ hrecv => exact h.afterRecv hrecv
  cases hanswer : e.answer with
  | none =>
    obtain ⟨htcp, hstatus⟩ := step_passive hwait hanswer hasync (not_exists.mp hrecv) hstep hconn
    exact h.congr (congrArg UvTcp.connectReq htcp) hstatus
  | some a =>
    cases steps_of_step hstep with
    | afterConnect status readStart _ _ hreq =>
      -- there is no request that could be answered
      cases h.connectReq.symm.trans hreq
    | tcpClosed cb timerStart => exact h.streamDestroy.tcpClosed cb timerStart
    | _ => cases hanswer

/-! ### The wait loop

It sleeps a hundred times for a tenth of a second, and a last time. -/

/-- The wait loop, when `n` sleeps have begun. -/
structure WaitLoop (n : ℕ) (s : TCPClient) : Prop where
  connecting : s.connecting = true
  sleeps : s.waitCount + s.asleep.toNat = n
  bound : s.waitCount ≤ 100

/-- The wait begins with no sleeps. -/
theorem waitLoop_waiting (s : TCPClient) (isIPv6 : Bool) : (s.waiting isIPv6).WaitLoop 0 :=
  ⟨rfl, rfl, Nat.zero_le 100⟩

/-- Only its own events move it. -/
theorem step_apart_wait (hwait : e.DuringWait) (hsleep : e ≠ .connectWait) (hslept : e ≠ .connectSlept)
    (hstep : s.step host e = some s') :
    s'.connecting = s.connecting ∧ s'.asleep = s.asleep ∧ s'.waitCount = s.waitCount := by
  have hcallback : e.OfCallback → s'.connecting = s.connecting ∧ s'.asleep = s.asleep ∧
      s'.waitCount = s.waitCount := by
    intro he
    have h := step_apart he hstep
    exact ⟨h.connecting, h.asleep, h.waitCount⟩
  cases steps_of_step hstep with
  | connect | connect6 | connectWaited => exact hwait.elim
  | connectWait => exact absurd rfl hsleep
  | connectSlept => exact absurd rfl hslept
  | send | asyncClosed | loopExit => exact ⟨rfl, rfl, rfl⟩
  | close =>
    rw [close]
    split <;> exact ⟨rfl, rfl, rfl⟩
  | asyncCB =>
    rw [asyncCB]
    split
    case isTrue =>
      rw [closeinl]
      split <;> exact ⟨rfl, rfl, rfl⟩
    case isFalse => exact ⟨rfl, rfl, rfl⟩
  | setReconnectCB | afterConnect | afterRecv | reconnectTimer | tcpClosed | timerClosed =>
    exact hcallback trivial

/-- Nothing but a call of `Connect` or `Connect6` comes to it. -/
theorem connecting_of_step (hwait : e.DuringWait) (hstep : s.step host e = some s')
    (hconn : s'.connecting = true) : s.connecting = true := by
  by_cases hsleep : e = .connectWait
  · rw [hsleep] at hstep
    exact (Option.ite_none_right_eq_some.mp hstep).1.1
  by_cases hslept : e = .connectSlept
  · rw [hslept] at hstep
    exact (Option.ite_none_right_eq_some.mp hstep).1.1
  obtain ⟨hconnecting, -⟩ := step_apart_wait hwait hsleep hslept hstep
  exact hconnecting.symm.trans hconn

/-- It goes on as long as the call has not returned. -/
theorem WaitLoop.step {n : ℕ} (h : s.WaitLoop n) (hwait : e.DuringWait)
    (hstep : s.step host e = some s') (hconn : s'.connecting = true) : s'.WaitLoop (n + e.sleep) := by
  have hsleeps := h.sleeps
  by_cases hsleep : e = .connectWait
  · -- a sleep begins
    subst hsleep
    obtain ⟨⟨-, hasleep, -⟩, heq⟩ := Option.ite_none_right_eq_some.mp hstep
    cases heq
    rw [hasleep] at hsleeps
    exact ⟨hconn, congrArg (· + 1) hsleeps, h.bound⟩
  by_cases hslept : e = .connectSlept
  · -- a sleep ends, and is counted
    subst hslept
    obtain ⟨⟨-, hasleep⟩, heq⟩ := Option.ite_none_right_eq_some.mp hstep
    cases heq
    obtain ⟨hlt, heq⟩ := connectSlept_of_connecting hconn
    rw [heq] at hconn ⊢
    rw [hasleep] at hsleeps
    exact ⟨hconn, hsleeps, hlt⟩
  obtain ⟨-, hasleep, hcount⟩ := step_apart_wait hwait hsleep hslept hstep
  have hnone : e.sleep = 0 := by
    cases e with
    | connectWait => exact absurd rfl hsleep
    | _ => rfl
  rw [hnone]
  exact ⟨hconn, by rw [hcount, hasleep]; exact hsleeps, by rw [hcount]; exact h.bound⟩

/-- After an answer it does not sleep again. -/
theorem Answered.not_sleep (h : s.Answered q) (hq : q ≠ .connectDis) (hstep : s.step host e = some s') :
    e.sleep = 0 := by
  cases e with
  | connectWait =>
    obtain ⟨⟨-, -, hstatus⟩, -⟩ := Option.ite_none_right_eq_some.mp hstep
    exact absurd (h.connectstatus.symm.trans hstatus) hq
  | _ => rfl

/-- The last sleep ends it, and the call returns false. -/
theorem WaitLoop.connectSlept {n : ℕ} (h : s.WaitLoop n) (hstep : s.step host .connectSlept = some s')
    (hconn : s'.connecting = false) : 100 < n ∧ s'.Returned false := by
  obtain ⟨⟨-, hasleep⟩, heq⟩ := Option.ite_none_right_eq_some.mp hstep
  cases heq
  have hsleeps := h.sleeps
  rw [hasleep] at hsleeps
  rcases s.connectSlept_cases with ⟨-, heq⟩ | ⟨hup, heq⟩
  -- the time of the call is not up
  · rw [heq] at hconn
    cases h.connecting.symm.trans hconn
  · rw [heq]
    exact ⟨hsleeps ▸ Nat.lt_succ_of_le hup, (returned_connectReturn _ false false).mpr rfl⟩

/-- Before that, it ends when it finds another status than `CONNECT_DIS`. -/
theorem WaitLoop.connectWaited {n : ℕ} (h : s.WaitLoop n) (hstep : s.step host .connectWaited = some s') :
    n ≤ 100 ∧ (s'.Returned true ↔ s.connectstatus = .connectFinish) := by
  obtain ⟨⟨-, hasleep, -⟩, heq⟩ := Option.ite_none_right_eq_some.mp hstep
  cases heq
  have hsleeps := h.sleeps
  rw [hasleep] at hsleeps
  exact ⟨hsleeps ▸ h.bound, returned_connectWaited s⟩

/-! ### After the wait -/

/-- The loop thread runs, and can be woken. -/
structure Awake (s : TCPClient) : Prop where
  loopThreads : 0 < s.loopThreads
  asyncHandle : s.asyncHandle.state = .opened

/-- It begins with a loop thread that can be woken. -/
theorem awake_waiting (s : TCPClient) (isIPv6 : Bool) : (s.waiting isIPv6).Awake :=
  ⟨Nat.succ_pos _, rfl⟩

/-- It stays so until the user asks for the close or connects again. -/
theorem Awake.step (h : s.Awake) (huser : s.isuseraskforclosed = false) (hclose : e ≠ .close)
    (hconnect : ¬ e.IsConnect) (hstep : s.step host e = some s') : s'.Awake := by
  have hcallback : e.OfCallback → s'.Awake := by
    intro he
    have happart := step_apart he hstep
    exact ⟨happart.loopThreads ▸ h.loopThreads, happart.asyncHandle ▸ h.asyncHandle⟩
  cases steps_of_step hstep with
  | connect | connect6 => exact absurd trivial hconnect
  | connectWait | connectWaited | send => exact ⟨h.loopThreads, h.asyncHandle⟩
  | connectSlept =>
    rcases s.connectSlept_cases with ⟨-, heq⟩ | ⟨-, heq⟩
    · rw [heq]
      exact ⟨h.loopThreads, h.asyncHandle⟩
    · rw [heq]
      exact ⟨h.loopThreads, h.asyncHandle⟩
  | close => exact absurd rfl hclose
  | asyncCB =>
    -- the callback does not close the client
    rw [asyncCB, if_neg (Bool.eq_false_iff.mp huser)]
    exact ⟨h.loopThreads, h.asyncHandle⟩
  | asyncClosed _ _ hclosing => cases h.asyncHandle.symm.trans hclosing
  | loopExit _ halive =>
    -- the async handle keeps the loop alive
    exact absurd h.asyncHandle (loopAlive_eq_false halive).1
  | setReconnectCB | afterConnect | afterRecv | reconnectTimer | tcpClosed | timerClosed =>
    exact hcallback trivial

end TCPClient

end MyUvpp
