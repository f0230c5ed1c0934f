import MyUvpp.Foundation.TransitionSystem
import MyUvpp.Packet.PacketSync
import MyUvpp.Uv.Handle

/-! # Connecting, reconnecting and closing (`tcpclient.cpp`)

`TCPClient` as a state machine: the calls of its user (`Connect`, `Connect6`, `Send`, `Close`), the
callbacks that libuv makes on the loop thread, and the end of the loop. What a call into libuv returns
is part of the event. The state records what happened (`log`), for statements about the calls. The
texts of errors, the address and the `closedcb_` of the user have no part in it, and what `send_inl`
does is in `SendState`. -/

namespace MyUvpp

/-- What `client_handle_->tcphandle.data` may point to: the context, which the read callbacks cast to, or
the client itself, which `AfterClientClose` casts to while it reconnects. -/
inductive HandleData where
  | tcpClientCtx
  | tcpClient
  deriving DecidableEq

/-- The close callbacks of a client's handles. -/
inductive ClientCloseCb where
  | afterClientClose
  deriving DecidableEq

/-- The callbacks that libuv makes for `client_handle_->tcphandle`. -/
inductive TcpCallback where
  | allocBufferForRecv
  | afterRecv
  | afterConnect
  | afterClientClose
  deriving DecidableEq

/-- The type to which a callback casts `tcphandle.data`. -/
def TcpCallback.casts : TcpCallback → HandleData
  | .afterClientClose => .tcpClient
  | _ => .tcpClientCtx

/-- `connectstatus_`, the one word that `AfterConnect` on the loop thread and the wait loop of `Connect`
share. -/
inductive ConnectStatus where
  | connectTimeout
  | connectFinish
  | connectError
  | connectDis
  deriving DecidableEq

/-- The events that `reconnectcb_` is told about. -/
inductive NetEventType where
  | disconnect
  | reconnect
  deriving DecidableEq

/-- A call whose circumstances are recorded in the log of the client: what libuv was asked in which state,
and what the callbacks of the user were told. -/
inductive ClientCall where
  /-- `uv_tcp_init` on `tcphandle` in this state. -/
  | tcpInit (state : HandleState ClientCloseCb)
  /-- `uv_tcp_connect` with `connect_req_`, of which so many uses are unanswered. -/
  | tcpConnect (unanswered : ℕ)
  /-- A callback for `tcphandle`, which finds this in `tcphandle.data`. -/
  | callback (cb : TcpCallback) (data : Option HandleData)
  /-- `reconnectcb_`, at this `connectstatus_`. -/
  | reconnectCb (event : NetEventType) (status : ConnectStatus)
  /-- `Connect` or `Connect6` returns. -/
  | connectReturn (ok : Bool)
  deriving DecidableEq

/-- The fields of `TCPClient`, those of its `client_handle_` included, and of its loop. -/
structure TCPClient where
  packetHead : UInt8
  packetTail : UInt8
  /-- `client_handle_->tcphandle`. -/
  tcphandle : UvTcp HandleData ClientCloseCb
  /-- `client_handle_->packet_`. -/
  packet : PacketSync
  asyncHandle : UvAsync ClientCloseCb
  reconnectTimer : UvTimer ClientCloseCb
  isclosed : Bool
  isuseraskforclosed : Bool
  connectstatus : ConnectStatus
  isIPv6 : Bool
  isreconnecting : Bool
  /-- `repeat_time_`, assigned before its first use. -/
  repeatTime : ℕ
  /-- Whether `reconnectcb_` is set. -/
  reconnectcb : Bool
  /-- Whether a call of `Connect` or `Connect6` is in its wait loop. -/
  connecting : Bool
  /-- Whether that call is in `ThreadSleep`. -/
  asleep : Bool
  /-- The `wait_count` of that call. -/
  waitCount : ℕ
  /-- The number of threads in `uv_run`. -/
  loopThreads : ℕ
  /-- The uses of `connect_req_` whose `AfterConnect` has not been called. -/
  unanswered : ℕ
  /-- Whether an `AfterRecv` has reported an error or the end of the stream. -/
  disconnected : Bool
  log : List ClientCall
  /-- The frames passed to `recvcb_`. -/
  received : List (NetPacket × List UInt8)

/-- What the calls of `init` return, in the order in which they are made; 0 is success. -/
structure InitResult where
  asyncInit : ℤ
  tcpInit : ℤ
  timerInit : ℤ

/-- What the calls of `Connect` return, those of `init` first; 0 is success. -/
structure ConnectResult extends InitResult where
  /-- `uv_ip4_addr` or `uv_ip6_addr`. -/
  addr : ℤ
  tcpConnect : ℤ
  threadCreate : ℤ

/-- What the calls of `ReconnectTimer` return when it makes one more attempt. -/
structure AttemptResult where
  tcpInit : ℤ
  ip4Addr : ℤ
  ip6Addr : ℤ
  tcpConnect : ℤ

/-- The call that parses the address of the client. -/
def AttemptResult.addr (r : AttemptResult) (isIPv6 : Bool) : ℤ :=
  if isIPv6 then r.ip6Addr else r.ip4Addr

/-- Every call succeeds. -/
instance : Inhabited ConnectResult := ⟨⟨⟨0, 0, 0⟩, 0, 0, 0⟩⟩

/-- Every call succeeds. -/
instance : Inhabited AttemptResult := ⟨⟨0, 0, 0, 0⟩⟩

/-- `UV_ECANCELED`, the status of a connect request that the close of its handle has cancelled. -/
def uvEcanceled : ℤ := -125

namespace TCPClient

/-- `TCPClient::TCPClient`. -/
def new (packhead packtail : UInt8) (u : Indeterminate) : TCPClient where
  packetHead := packhead
  packetTail := packtail
  tcphandle := .unused
  packet := newPacketSync u
  asyncHandle := .unused
  reconnectTimer := .unused
  isclosed := true
  isuseraskforclosed := false
  connectstatus := .connectDis
  isIPv6 := false
  isreconnecting := false
  repeatTime := 0
  reconnectcb := false
  connecting := false
  asleep := false
  waitCount := 0
  loopThreads := 0
  unanswered := 0
  disconnected := false
  log := []
  received := []

variable (s : TCPClient)

/-! ### The calls into libuv and to the user -/

/-- A successful `uv_async_init(&loop_, &async_handle_, AsyncCB)`: the handle can be signalled from now on.
-/
def uvAsyncInit : TCPClient := { s with asyncHandle := s.asyncHandle.init 0 }

/-- `uv_tcp_init(&loop_, &client_handle_->tcphandle)`. The state in which it finds the handle goes into the
log. -/
def uvTcpInit (iret : ℤ) : TCPClient :=
  { s with tcphandle := s.tcphandle.init iret, log := s.log ++ [.tcpInit s.tcphandle.state] }

/-- `uv_tcp_connect(&connect_req_, &client_handle_->tcphandle, .., AfterConnect)`. How many uses of
`connect_req_` are unanswered at that moment goes into the log. -/
def uvTcpConnect (iret : ℤ) : TCPClient :=
  { s with
    tcphandle := s.tcphandle.connect iret
    unanswered := if iret = 0 then s.unanswered + 1 else s.unanswered
    log := s.log ++ [.tcpConnect s.unanswered] }

/-- `uv_close((uv_handle_t*)&client_handle_->tcphandle, cb)`, which only asks for the close: `tcpClosed` is
its completion. -/
def uvClose (cb : Option ClientCloseCb) : TCPClient := { s with tcphandle := s.tcphandle.close cb }

/-- Assign `client_handle_->tcphandle.data`, which the next callback for the handle casts. -/
def setData (data : HandleData) : TCPClient := { s with tcphandle := s.tcphandle.setData data }

/-- libuv calls back for `tcphandle`. What the callback finds in `data` goes into the log. -/
def callback (cb : TcpCallback) : TCPClient :=
  { s with log := s.log ++ [.callback cb s.tcphandle.data] }

/-- `if (reconnectcb_) reconnectcb_(event, reconnect_userdata_)`. The event and the status at that moment go
into the log. -/
def callReconnectCb (event : NetEventType) : TCPClient :=
  if s.reconnectcb then { s with log := s.log ++ [.reconnectCb event s.connectstatus] } else s

/-! ### The methods -/

/-- `TCPClient::StartReconnect`: from here on a completed close starts the timer, as `data` points to the
client. -/
def startReconnect : TCPClient :=
  { s.setData .tcpClient with isreconnecting := true, repeatTime := 1000 }

/-- `TCPClient::StopReconnect`: `data` points to the context again, the interval is the first one, and the
timer is stopped. -/
def stopReconnect : TCPClient :=
  { s.setData .tcpClientCtx with
    isreconnecting := false
    repeatTime := 1000
    reconnectTimer := s.reconnectTimer.stop }

/-- Stop the timer, double its period and start it again. -/
def restartTimer : TCPClient :=
  { s with reconnectTimer := s.reconnectTimer.stop.start, repeatTime := s.repeatTime * 2 }

/-- `uv_walk(&loop_, CloseWalkCB, this)`, which closes each of the three handles that is registered and not
closing. -/
def walkClose : TCPClient :=
  { s with
    tcphandle := s.tcphandle.walkClose .afterClientClose
    asyncHandle := s.asyncHandle.walkClose .afterClientClose
    reconnectTimer := s.reconnectTimer.walkClose .afterClientClose }

/-- `TCPClient::closeinl`: nothing on a closed client, else the end of reconnecting and the close of all
handles. -/
def closeinl : TCPClient := if s.isclosed then s else s.stopReconnect.walkClose

/-- The calls `SetPacketCB` and `Start` on `client_handle_->packet_`. -/
def startPacket : TCPClient :=
  { s with packet := s.packet.setPacketCB.start s.packetHead s.packetTail }

/-- `TCPClient::init`: nothing on an open client. The steps before the one that fails are not undone, and
`isclosed_` becomes false with the last one only. -/
def init (r : InitResult) : TCPClient × Bool :=
  if !s.isclosed then (s, true)
  else if r.asyncInit ≠ 0 then (s, false)
  else
    let s := s.uvAsyncInit.uvTcpInit r.tcpInit
    if r.tcpInit ≠ 0 then (s, false)
    else
      let s := (s.setData .tcpClientCtx).startPacket
      if r.timerInit ≠ 0 then (s, false)
      else ({ s with reconnectTimer := s.reconnectTimer.init r.timerInit, isclosed := false }, true)

/-- `Connect` or `Connect6` returns. The result goes into the log. -/
def connectReturn (ok : Bool) : TCPClient :=
  { s with connecting := false, log := s.log ++ [.connectReturn ok] }

/-- `Connect` or `Connect6` after `init` has succeeded, up to the wait loop. -/
def startConnect (isIPv6 : Bool) (r : ConnectResult) : TCPClient :=
  let s := { s with isIPv6 }
  if r.addr ≠ 0 then s.connectReturn false
  else
    let s := s.uvTcpConnect r.tcpConnect
    if r.tcpConnect ≠ 0 then s.connectReturn false
    else if r.threadCreate ≠ 0 then s.connectReturn false
    else
      { s with
        loopThreads := s.loopThreads + 1
        connecting := true
        asleep := false
        waitCount := 0 }

/-- `TCPClient::Connect` and `TCPClient::Connect6`, up to their wait loop. -/
def connectTo (isIPv6 : Bool) (r : ConnectResult) : TCPClient :=
  match s.closeinl.init r.toInitResult with
  | (s, false) => s.connectReturn false
  | (s, true) => s.startConnect isIPv6 r

/-- `TCPClient::Connect`, for an address of IPv4, up to its wait loop. -/
def connect (r : ConnectResult) : TCPClient := s.connectTo false r

/-- `TCPClient::Connect6`, for an address of IPv6, up to its wait loop. -/
def connect6 (r : ConnectResult) : TCPClient := s.connectTo true r

/-- The wait loop of `Connect` and `Connect6` finds `CONNECT_DIS`, and sleeps. -/
def connectWait : TCPClient := { s with asleep := true }

/-- `ThreadSleep` of the wait loop returns. After the last one the status is set to `CONNECT_TIMEOUT`,
whatever it has become during that sleep, and the call returns false. -/
def connectSlept : TCPClient :=
  let s := { s with asleep := false, waitCount := s.waitCount + 1 }
  if s.waitCount > 100 then { s with connectstatus := .connectTimeout }.connectReturn false else s

/-- The wait loop of `Connect` and `Connect6` finds another status than `CONNECT_DIS`, and the call
returns. -/
def connectWaited : TCPClient := s.connectReturn (s.connectstatus = .connectFinish)

/-- `TCPClient::Close`: leaves a request for the loop thread and wakes it, unless the client is closed. -/
def close : TCPClient :=
  if s.isclosed then s
  else { s with isuseraskforclosed := true, asyncHandle := s.asyncHandle.send }

/-! ### The callbacks

A callback that finds an object of another type in `tcphandle.data` has no defined behaviour: it is
recorded and does nothing. -/

/-- `uv_read_start` in `AfterConnect`, and the status that follows from its result. -/
def startReading (iret : ℤ) : TCPClient :=
  { s with
    tcphandle := s.tcphandle.readStart iret
    connectstatus := if iret ≠ 0 then .connectError else .connectFinish }

/-- `TCPClient::AfterConnect`; `readStart` is what `uv_read_start` would return. -/
def afterConnect (status readStart : ℤ) : TCPClient :=
  let s := s.callback .afterConnect
  if s.tcphandle.data ≠ some .tcpClientCtx then s
  else if status ≠ 0 then
    let s := { s with connectstatus := .connectError }
    if s.isreconnecting then s.restartTimer else s
  else
    let s := s.startReading readStart
    if s.isreconnecting then s.stopReconnect.callReconnectCb .reconnect else s

/-- The connect request of `tcphandle` is no longer pending. -/
def answered : TCPClient :=
  { s with tcphandle := s.tcphandle.answerConnect, unanswered := s.unanswered - 1 }

/-- libuv answers the connect request of `tcphandle`. -/
def answerConnect (status readStart : ℤ) : TCPClient := s.answered.afterConnect status readStart

/-- `TCPClient::AfterRecv` with `nread < 0`: the user is told of the disconnection, and the handle is closed
to be connected again. -/
def afterRecvError : TCPClient :=
  { (s.callReconnectCb .disconnect).startReconnect.uvClose (some .afterClientClose) with
    disconnected := true }

/-- `TCPClient::AllocBufferForRecv` and `TCPClient::AfterRecv`, with the bytes read or `none` for
`nread < 0`. -/
def afterRecv (host : Host) (nread : Option (List UInt8)) : Option TCPClient :=
  let s := (s.callback .allocBufferForRecv).callback .afterRecv
  if s.tcphandle.data ≠ some .tcpClientCtx then some s
  else
    match nread with
    | none => some s.afterRecvError
    | some [] => some s
    | some data => (recvdata host s.packet data).map fun (packet, log) =>
        { s with packet, received := s.received ++ frames log }

/-- `TCPClient::AfterClientClose` for `tcphandle`; `timerStart` is what `uv_timer_start` would return.
For the other handles it does nothing. -/
def afterClientClose (timerStart : ℤ) : TCPClient :=
  let s := s.callback .afterClientClose
  if s.tcphandle.data ≠ some .tcpClient then s
  else if s.isreconnecting then
    if timerStart ≠ 0 then
      { s with reconnectTimer := s.reconnectTimer.close (some .afterClientClose) }
    else { s with reconnectTimer := s.reconnectTimer.start }
  else s

/-- The close of `tcphandle` cancels the connect request, if there is one (`uv__stream_destroy`). -/
def streamDestroy : TCPClient :=
  if s.tcphandle.connectReq then s.answerConnect uvEcanceled 0 else s

/-- The close of `tcphandle` completes: its pending connect request is cancelled first, then the close
callback is called if there is one. -/
def tcpClosed (cb : Option ClientCloseCb) (timerStart : ℤ) : TCPClient :=
  let s := { s.streamDestroy with tcphandle := s.streamDestroy.tcphandle.closed }
  match cb with
  | none => s
  | some .afterClientClose => s.afterClientClose timerStart

/-- `TCPClient::AsyncCB`, as far as it is about the life of the client: it closes when the user has asked
for it. -/
def asyncCB : TCPClient :=
  let s := { s with asyncHandle := s.asyncHandle.received }
  if s.isuseraskforclosed then s.closeinl else s

/-- `TCPClient::ReconnectTimer`: one attempt to connect the handle again, or the timer is started for the
next one. -/
def reconnectTimerCb (r : AttemptResult) : TCPClient :=
  if !s.isreconnecting then s
  else
    let s := s.uvTcpInit r.tcpInit
    if r.tcpInit ≠ 0 then s.restartTimer
    else
      let s := s.setData .tcpClientCtx
      if r.addr s.isIPv6 ≠ 0 then (s.uvClose none).restartTimer
      else
        let s := s.uvTcpConnect r.tcpConnect
        if r.tcpConnect ≠ 0 then (s.uvClose none).restartTimer else s

/-! ### Case analysis

What a method can do, for the invariants. -/

variable {s : TCPClient}

/-- The state in which `Connect` and `ReconnectTimer` leave `tcphandle` before they connect. -/
def freshHandle (s : TCPClient) : TCPClient := (s.uvTcpInit 0).setData .tcpClientCtx

/-- `ReconnectTimer` has nothing to do, fails at one of its three calls, or starts to connect. -/
theorem reconnectTimerCb_cases (s : TCPClient) (r : AttemptResult) :
    (s.isreconnecting = false ∧ s.reconnectTimerCb r = s) ∨
      s.isreconnecting = true ∧
        ((∃ iret, iret ≠ 0 ∧ s.reconnectTimerCb r = (s.uvTcpInit iret).restartTimer) ∨
          s.reconnectTimerCb r = (s.freshHandle.uvClose none).restartTimer ∨
          (∃ iret, iret ≠ 0 ∧
            s.reconnectTimerCb r = ((s.freshHandle.uvTcpConnect iret).uvClose none).restartTimer) ∨
          s.reconnectTimerCb r = s.freshHandle.uvTcpConnect 0) := by
  rw [reconnectTimerCb]
  split
  case isTrue h => exact .inl ⟨by simpa using h, rfl⟩
  case isFalse h =>
    refine .inr ⟨by simpa using h, ?_⟩
    by_cases htcp : r.tcpInit = 0
    · simp only [htcp, ne_eq, not_true_eq_false, if_false]
      refine .inr ?_
      by_cases haddr : r.addr s.isIPv6 = 0
      · by_cases hconn : r.tcpConnect = 0
        · refine .inr (.inr ?_)
          rw [hconn]
          exact (if_neg (not_not.mpr haddr)).trans (if_neg (not_not.mpr rfl))
        · exact .inr (.inl ⟨r.tcpConnect, hconn,
            (if_neg (not_not.mpr haddr)).trans (if_pos hconn)⟩)
      · exact .inl (if_pos haddr)
    · exact .inl ⟨r.tcpInit, htcp, if_pos htcp⟩

/-- `init` of a closed client fails at one of its three calls or succeeds. -/
theorem init_eq (h : s.isclosed = true) (r : InitResult) :
    s.init r =
      if r.asyncInit ≠ 0 then (s, false)
      else if r.tcpInit ≠ 0 then (s.uvAsyncInit.uvTcpInit r.tcpInit, false)
      else if r.timerInit ≠ 0 then (s.uvAsyncInit.freshHandle.startPacket, false)
      else ({ s.uvAsyncInit.freshHandle.startPacket with
        reconnectTimer := s.reconnectTimer.init 0, isclosed := false }, true) := by
  have hguard : ¬ (!s.isclosed) = true := by
    rw [h]
    decide
  rw [init, if_neg hguard]
  refine ite_congr rfl (fun _ => rfl) fun _ => ?_
  by_cases htcp : r.tcpInit = 0
  · simp only [htcp, ne_eq, not_true_eq_false, if_false]
    by_cases htimer : r.timerInit = 0
    · rw [if_neg (not_not.mpr htimer), if_neg (not_not.mpr htimer), htimer]
      rfl
    · rw [if_pos htimer, if_pos htimer]
      rfl
  · rw [if_pos htcp, if_pos htcp]

/-- The outcomes of `init`. -/
theorem init_cases (s : TCPClient) (r : InitResult) :
    (s.isclosed = false ∧ s.init r = (s, true)) ∨
      s.isclosed = true ∧
        (s.init r = (s, false) ∨
          (∃ iret, iret ≠ 0 ∧ s.init r = (s.uvAsyncInit.uvTcpInit iret, false)) ∨
          (r.timerInit ≠ 0 ∧ s.init r = (s.uvAsyncInit.freshHandle.startPacket, false)) ∨
          s.init r = ({ s.uvAsyncInit.freshHandle.startPacket with
            reconnectTimer := s.reconnectTimer.init 0, isclosed := false }, true)) := by
  cases hclosed : s.isclosed with
  | false =>
    refine .inl ⟨rfl, ?_⟩
    rw [init, hclosed]
    rfl
  | true =>
    refine .inr ⟨rfl, ?_⟩
    rw [init_eq hclosed]
    split
    case isTrue => exact .inl rfl
    case isFalse =>
      split
      case isTrue htcp => exact .inr (.inl ⟨_, htcp, rfl⟩)
      case isFalse =>
        split
        case isTrue htimer => exact .inr (.inr (.inl ⟨htimer, rfl⟩))
        case isFalse => exact .inr (.inr (.inr rfl))

/-- A call of `Connect` or `Connect6` after `init` parses the address, calls `uv_tcp_connect` and
starts the loop; it returns when one of the three fails. -/
theorem startConnect_cases (s : TCPClient) (isIPv6 : Bool) (r : ConnectResult) :
    s.startConnect isIPv6 r = { s with isIPv6 }.connectReturn false ∨
      s.startConnect isIPv6 r =
        ({ s with isIPv6 }.uvTcpConnect r.tcpConnect).connectReturn false ∨
      s.startConnect isIPv6 r = { { s with isIPv6 }.uvTcpConnect r.tcpConnect with
        loopThreads := s.loopThreads + 1, connecting := true, asleep := false, waitCount := 0 } := by
  rw [startConnect]
  split
  case isTrue => exact .inl rfl
  case isFalse =>
    refine .inr ?_
    simp only
    split
    case isTrue => exact .inl rfl
    case isFalse =>
      split
      case isTrue => exact .inl rfl
      case isFalse => exact .inr rfl

/-- `Connect` and `Connect6` go on where `init` succeeds. -/
theorem connectTo_cases (s : TCPClient) (isIPv6 : Bool) (r : ConnectResult) :
    s.connectTo isIPv6 r = (s.closeinl.init r.toInitResult).1.connectReturn false ∨
      ((s.closeinl.init r.toInitResult).2 = true ∧
        s.connectTo isIPv6 r = (s.closeinl.init r.toInitResult).1.startConnect isIPv6 r) := by
  rw [connectTo]
  split
  case h_1 heq =>
    rw [heq]
    exact .inl rfl
  case h_2 heq =>
    rw [heq]
    exact .inr ⟨rfl, rfl⟩

/-- The wait loop goes on after a sleep, or its time is up. -/
theorem connectSlept_cases (s : TCPClient) :
    (s.waitCount < 100 ∧ s.connectSlept = { s with asleep := false, waitCount := s.waitCount + 1 }) ∨
      (100 ≤ s.waitCount ∧ s.connectSlept = { s with
        asleep := false
        waitCount := s.waitCount + 1
        connectstatus := .connectTimeout }.connectReturn false) := by
  rw [connectSlept]
  by_cases hup : s.waitCount < 100
  · exact .inl ⟨hup, if_neg (by simp only; omega)⟩
  · exact .inr ⟨Nat.le_of_not_lt hup, if_pos (by simp only; omega)⟩

/-- `AfterConnect` with a handle of the context: the request failed, or reading starts. -/
theorem afterConnect_cases (hdata : s.tcphandle.data = some .tcpClientCtx) (status readStart : ℤ) :
    (status ≠ 0 ∧ s.isreconnecting = true ∧
        s.afterConnect status readStart =
          { s.callback .afterConnect with connectstatus := .connectError }.restartTimer) ∨
      (status ≠ 0 ∧ s.isreconnecting = false ∧
        s.afterConnect status readStart =
          { s.callback .afterConnect with connectstatus := .connectError }) ∨
      (status = 0 ∧ s.isreconnecting = true ∧
        s.afterConnect status readStart =
          (((s.callback .afterConnect).startReading readStart).stopReconnect).callReconnectCb
            .reconnect) ∨
      (status = 0 ∧ s.isreconnecting = false ∧
        s.afterConnect status readStart = (s.callback .afterConnect).startReading readStart) := by
  have hnot : ¬ (s.callback .afterConnect).tcphandle.data ≠ some .tcpClientCtx := not_not.mpr hdata
  rw [afterConnect]
  simp only
  rw [if_neg hnot]
  by_cases hstatus : status = 0
  · rw [if_neg (not_not.mpr hstatus)]
    cases hrec : s.isreconnecting with
    | true => exact .inr (.inr (.inl ⟨hstatus, rfl, if_pos hrec⟩))
    | false => exact .inr (.inr (.inr ⟨hstatus, rfl, if_neg (Bool.eq_false_iff.mp hrec)⟩))
  · rw [if_pos hstatus]
    cases hrec : s.isreconnecting with
    | true => exact .inl ⟨hstatus, rfl, if_pos hrec⟩
    | false => exact .inr (.inl ⟨hstatus, rfl, if_neg (Bool.eq_false_iff.mp hrec)⟩)

/-- `AfterConnect` with a handle of another owner. -/
theorem afterConnect_of_data_ne (hdata : s.tcphandle.data ≠ some .tcpClientCtx)
    (status readStart : ℤ) : s.afterConnect status readStart = s.callback .afterConnect :=
  if_pos (show (s.callback .afterConnect).tcphandle.data ≠ _ from hdata)

/-- `AfterConnect` for a request that failed touches the timer and the status only. -/
theorem afterConnect_error (s : TCPClient) {status : ℤ} (hstatus : status ≠ 0) (readStart : ℤ) :
    ∃ reconnectTimer repeatTime connectstatus, s.afterConnect status readStart =
      { s.callback .afterConnect with reconnectTimer, repeatTime, connectstatus } := by
  by_cases hdata : s.tcphandle.data = some .tcpClientCtx
  · rcases afterConnect_cases hdata status readStart with
      ⟨-, -, heq⟩ | ⟨-, -, heq⟩ | ⟨hzero, -⟩ | ⟨hzero, -⟩
    · exact ⟨_, _, _, heq⟩
    · exact ⟨_, _, _, heq⟩
    · exact absurd hzero hstatus
    · exact absurd hzero hstatus
  · exact ⟨_, _, _, afterConnect_of_data_ne hdata status readStart⟩

/-- `AfterRecv` with a handle of the context: an error, nothing, or bytes for the decoder. -/
theorem afterRecv_cases {host : Host} {nread : Option (List UInt8)} {s' : TCPClient}
    (hrecv : s.afterRecv host nread = some s') :
    let c := (s.callback .allocBufferForRecv).callback .afterRecv
    (s.tcphandle.data ≠ some .tcpClientCtx ∧ s' = c) ∨
      s.tcphandle.data = some .tcpClientCtx ∧
        ((nread = none ∧ s' = c.afterRecvError) ∨
          (nread = some [] ∧ s' = c) ∨
          ∃ data packet effects, nread = some data ∧
            recvdata host s.packet data = some (packet, effects) ∧
            s' = { c with packet, received := s.received ++ frames effects }) := by
  simp only [afterRecv] at hrecv
  split at hrecv
  case isTrue hne => exact .inl ⟨hne, (Option.some.inj hrecv).symm⟩
  case isFalse hdata =>
    refine .inr ⟨not_not.mp hdata, ?_⟩
    split at hrecv
    case h_1 => exact .inl ⟨rfl, (Option.some.inj hrecv).symm⟩
    case h_2 => exact .inr (.inl ⟨rfl, (Option.some.inj hrecv).symm⟩)
    case h_3 data _ =>
      obtain ⟨⟨packet, effects⟩, hpacket, rfl⟩ := Option.map_eq_some_iff.mp hrecv
      exact .inr (.inr ⟨data, packet, effects, rfl, hpacket, rfl⟩)

/-- A call of `reconnectcb_` leaves a record only. -/
theorem callReconnectCb_eq (s : TCPClient) (event : NetEventType) :
    ∃ log, s.callReconnectCb event = { s with log } := by
  rw [callReconnectCb]
  split
  case isTrue => exact ⟨_, rfl⟩
  case isFalse => exact ⟨s.log, rfl⟩

/-- The end of a close takes the request from the handle; what else changes is what `AfterConnect`
changes with an error. -/
theorem streamDestroy_eq (s : TCPClient) :
    ∃ reconnectTimer repeatTime connectstatus unanswered log, s.streamDestroy =
      { s with
        tcphandle := s.tcphandle.answerConnect
        reconnectTimer, repeatTime, connectstatus, unanswered, log } := by
  cases hreq : s.tcphandle.connectReq with
  | false =>
    refine ⟨s.reconnectTimer, s.repeatTime, s.connectstatus, s.unanswered, s.log, ?_⟩
    rw [streamDestroy, if_neg (Bool.eq_false_iff.mp hreq), UvTcp.answerConnect, ← hreq]
  | true =>
    obtain ⟨reconnectTimer, repeatTime, connectstatus, heq⟩ :=
      afterConnect_error s.answered (show uvEcanceled ≠ 0 by decide) 0
    refine ⟨reconnectTimer, repeatTime, connectstatus, s.unanswered - 1,
      (s.answered.callback .afterConnect).log, ?_⟩
    rw [streamDestroy, hreq, if_pos rfl, answerConnect, heq]
    rfl

/-- The handle at the end of a close: without a request, and otherwise as it was. -/
theorem streamDestroy_tcphandle (s : TCPClient) :
    s.streamDestroy.tcphandle = s.tcphandle.answerConnect := by
  obtain ⟨_, _, _, _, _, heq⟩ := s.streamDestroy_eq
  rw [heq]

/-- `AfterClientClose` touches the timer only. -/
theorem afterClientClose_eq (s : TCPClient) (timerStart : ℤ) :
    ∃ reconnectTimer, s.afterClientClose timerStart =
      { s.callback .afterClientClose with reconnectTimer } := by
  rw [afterClientClose]
  split
  case isTrue => exact ⟨_, rfl⟩
  case isFalse =>
    split
    case isTrue => split <;> exact ⟨_, rfl⟩
    case isFalse => exact ⟨_, rfl⟩

/-! ### The steps -/

/-- Whether the loop has an active handle or request or a closing handle (`uv__loop_alive`). -/
def loopAlive (s : TCPClient) : Bool :=
  s.asyncHandle.state = .opened || s.reconnectTimer.armed ||
    (s.tcphandle.state = .opened && s.tcphandle.reading) || s.unanswered ≠ 0 ||
    s.tcphandle.state.isClosing || s.asyncHandle.state.isClosing || s.reconnectTimer.state.isClosing

/-- What a loop that is not alive has: no async handle, no timer, no request, and no close of
`tcphandle`. -/
theorem loopAlive_eq_false (h : s.loopAlive = false) :
    s.asyncHandle.state ≠ .opened ∧ s.reconnectTimer.armed = false ∧ s.unanswered = 0 ∧
      s.tcphandle.state.isClosing = false := by
  simp only [loopAlive, Bool.or_eq_false_iff, decide_eq_false_iff_not, not_not] at h
  exact ⟨h.1.1.1.1.1.1, h.1.1.1.1.1.2, h.1.1.1.2, h.1.1.2⟩

end TCPClient

/-- What may happen next to a client. -/
inductive ClientEvent where
  /-- `SetReconnectCB` with a callback. -/
  | setReconnectCB
  | connect (r : ConnectResult)
  | connect6 (r : ConnectResult)
  /-- The wait loop of a call of `Connect` or `Connect6` goes on to sleep. -/
  | connectWait
  /-- A sleep of the wait loop is over. -/
  | connectSlept
  /-- A call of `Connect` or `Connect6` finds that its wait is over. -/
  | connectWaited
  /-- `Send` of a non-empty buffer wakes the loop thread. -/
  | send
  | close
  | asyncCB
  | afterConnect (status readStart : ℤ)
  | afterRecv (nread : Option (List UInt8))
  | reconnectTimer (r : AttemptResult)
  /-- The close of `tcphandle` completes. -/
  | tcpClosed (timerStart : ℤ)
  /-- The close of `async_handle_` completes. -/
  | asyncClosed
  /-- The close of `reconnect_timer_` completes. -/
  | timerClosed
  /-- `uv_run` returns in `run`. -/
  | loopExit

namespace TCPClient

/-- One step of a client; there is none where the event cannot occur. -/
def step (host : Host) (s : TCPClient) : ClientEvent → Option TCPClient
  | .setReconnectCB => some { s with reconnectcb := true }
  | .connect r => some (s.connect r)
  | .connect6 r => some (s.connect6 r)
  | .connectWait =>
    if s.connecting ∧ s.asleep = false ∧ s.connectstatus = .connectDis then some s.connectWait else none
  | .connectSlept => if s.connecting ∧ s.asleep then some s.connectSlept else none
  | .connectWaited =>
    if s.connecting ∧ s.asleep = false ∧ s.connectstatus ≠ .connectDis then some s.connectWaited else none
  | .send => some { s with asyncHandle := s.asyncHandle.send }
  | .close => some s.close
  | .asyncCB =>
    if 0 < s.loopThreads ∧ s.asyncHandle.state = .opened ∧ s.asyncHandle.sent then some s.asyncCB
    else none
  | .afterConnect status readStart =>
    if 0 < s.loopThreads ∧ s.tcphandle.state = .opened ∧ s.tcphandle.connectReq then
      some (s.answerConnect status readStart)
    else none
  | .afterRecv nread =>
    if 0 < s.loopThreads ∧ s.tcphandle.state = .opened ∧ s.tcphandle.reading then
      s.afterRecv host nread
    else none
  | .reconnectTimer r =>
    if 0 < s.loopThreads ∧ s.reconnectTimer.armed then some (s.reconnectTimerCb r) else none
  | .tcpClosed timerStart =>
    match s.tcphandle.state with
    | .closing cb => if 0 < s.loopThreads then some (s.tcpClosed cb timerStart) else none
    | _ => none
  | .asyncClosed =>
    match s.asyncHandle.state with
    | .closing _ =>
      if 0 < s.loopThreads then some { s with asyncHandle := s.asyncHandle.closed } else none
    | _ => none
  | .timerClosed =>
    match s.reconnectTimer.state with
    | .closing _ =>
      if 0 < s.loopThreads then some { s with reconnectTimer := s.reconnectTimer.closed } else none
    | _ => none
  | .loopExit =>
    if 0 < s.loopThreads ∧ s.loopAlive = false then
      some { s with loopThreads := s.loopThreads - 1, isclosed := true }
    else none

/-! ### What a step can do -/

/-- A step of the client, with what it rests on. -/
inductive Steps (host : Host) (s : TCPClient) : ClientEvent → TCPClient → Prop where
  | setReconnectCB : Steps host s .setReconnectCB { s with reconnectcb := true }
  | connect (r : ConnectResult) : Steps host s (.connect r) (s.connect r)
  | connect6 (r : ConnectResult) : Steps host s (.connect6 r) (s.connect6 r)
  | connectWait (hconnecting : s.connecting = true) (hasleep : s.asleep = false)
      (hstatus : s.connectstatus = .connectDis) : Steps host s .connectWait s.connectWait
  | connectSlept (hconnecting : s.connecting = true) (hasleep : s.asleep = true) :
      Steps host s .connectSlept s.connectSlept
  | connectWaited (hconnecting : s.connecting = true) (hasleep : s.asleep = false)
      (hstatus : s.connectstatus ≠ .connectDis) : Steps host s .connectWaited s.connectWaited
  | send : Steps host s .send { s with asyncHandle := s.asyncHandle.send }
  | close : Steps host s .close s.close
  | asyncCB (hrunning : 0 < s.loopThreads) (hopened : s.asyncHandle.state = .opened)
      (hsent : s.asyncHandle.sent = true) : Steps host s .asyncCB s.asyncCB
  | afterConnect (status readStart : ℤ) (hrunning : 0 < s.loopThreads)
      (hopened : s.tcphandle.state = .opened) (hreq : s.tcphandle.connectReq = true) :
      Steps host s (.afterConnect status readStart) (s.answerConnect status readStart)
  | afterRecv (nread : Option (List UInt8)) (s' : TCPClient) (hrunning : 0 < s.loopThreads)
      (hopened : s.tcphandle.state = .opened) (hreading : s.tcphandle.reading = true)
      (hrecv : s.afterRecv host nread = some s') : Steps host s (.afterRecv nread) s'
  | reconnectTimer (r : AttemptResult) (hrunning : 0 < s.loopThreads)
      (harmed : s.reconnectTimer.armed = true) :
      Steps host s (.reconnectTimer r) (s.reconnectTimerCb r)
  | tcpClosed (cb : Option ClientCloseCb) (timerStart : ℤ) (hrunning : 0 < s.loopThreads)
      (hclosing : s.tcphandle.state = .closing cb) :
      Steps host s (.tcpClosed timerStart) (s.tcpClosed cb timerStart)
  | asyncClosed (cb : Option ClientCloseCb) (hrunning : 0 < s.loopThreads)
      (hclosing : s.asyncHandle.state = .closing cb) :
      Steps host s .asyncClosed { s with asyncHandle := s.asyncHandle.closed }
  | timerClosed (cb : Option ClientCloseCb) (hrunning : 0 < s.loopThreads)
      (hclosing : s.reconnectTimer.state = .closing cb) :
      Steps host s .timerClosed { s with reconnectTimer := s.reconnectTimer.closed }
  | loopExit (hrunning : 0 < s.loopThreads) (halive : s.loopAlive = false) :
      Steps host s .loopExit { s with loopThreads := s.loopThreads - 1, isclosed := true }

variable {host : Host} {s s' : TCPClient} {e : ClientEvent}

/-- The close of `tcphandle` completes. -/
theorem steps_tcpClosed {timerStart : ℤ} (hstep : s.step host (.tcpClosed timerStart) = some s') :
    Steps host s (.tcpClosed timerStart) s' := by
  rw [step] at hstep
  split at hstep
  case h_1 cb hclosing =>
    obtain ⟨hrunning, heq⟩ := Option.ite_none_right_eq_some.mp hstep
    cases heq
    exact .tcpClosed cb timerStart hrunning hclosing
  case h_2 => cases hstep

/-- The close of `async_handle_` completes. -/
theorem steps_asyncClosed (hstep : s.step host .asyncClosed = some s') :
    Steps host s .asyncClosed s' := by
  rw [step] at hstep
  split at hstep
  case h_1 cb hclosing =>
    obtain ⟨hrunning, heq⟩ := Option.ite_none_right_eq_some.mp hstep
    cases heq
    exact .asyncClosed cb hrunning hclosing
  case h_2 => cases hstep

/-- The close of `reconnect_timer_` completes. -/
theorem steps_timerClosed (hstep : s.step host .timerClosed = some s') :
    Steps host s .timerClosed s' := by
  rw [step] at hstep
  split at hstep
  case h_1 cb hclosing =>
    obtain ⟨hrunning, heq⟩ := Option.ite_none_right_eq_some.mp hstep
    cases heq
    exact .timerClosed cb hrunning hclosing
  case h_2 => cases hstep

/-- **What a step can do.** -/
theorem steps_of_step (hstep : s.step host e = some s') : Steps host s e s' := by
  cases e with
  | setReconnectCB =>
    cases hstep
    exact .setReconnectCB
  | connect r =>
    cases hstep
    exact .connect r
  | connect6 r =>
    cases hstep
    exact .connect6 r
  | connectWait =>
    obtain ⟨⟨hconnecting, hasleep, hstatus⟩, heq⟩ := Option.ite_none_right_eq_some.mp hstep
    cases heq
    exact .connectWait hconnecting hasleep hstatus
  | connectSlept =>
    obtain ⟨⟨hconnecting, hasleep⟩, heq⟩ := Option.ite_none_right_eq_some.mp hstep
    cases heq
    exact .connectSlept hconnecting hasleep
  | connectWaited =>
    obtain ⟨⟨hconnecting, hasleep, hstatus⟩, heq⟩ := Option.ite_none_right_eq_some.mp hstep
    cases heq
    exact .connectWaited hconnecting hasleep hstatus
  | send =>
    cases hstep
    exact .send
  | close =>
    cases hstep
    exact .close
  | asyncCB =>
    obtain ⟨⟨hrunning, hopened, hsent⟩, heq⟩ := Option.ite_none_right_eq_some.mp hstep
    cases heq
    exact .asyncCB hrunning hopened hsent
  | afterConnect status readStart =>
    obtain ⟨⟨hrunning, hopened, hreq⟩, heq⟩ := Option.ite_none_right_eq_some.mp hstep
    cases heq
    exact .afterConnect status readStart hrunning hopened hreq
  | afterRecv nread =>
    obtain ⟨⟨hrunning, hopened, hreading⟩, hrecv⟩ := Option.ite_none_right_eq_some.mp hstep
    exact .afterRecv nread s' hrunning hopened hreading hrecv
  | reconnectTimer r =>
    obtain ⟨⟨hrunning, harmed⟩, heq⟩ := Option.ite_none_right_eq_some.mp hstep
    cases heq
    exact .reconnectTimer r hrunning harmed
  | tcpClosed timerStart => exact steps_tcpClosed hstep
  | asyncClosed => exact steps_asyncClosed hstep
  | timerClosed => exact steps_timerClosed hstep
  | loopExit =>
    obtain ⟨⟨hrunning, halive⟩, heq⟩ := Option.ite_none_right_eq_some.mp hstep
    cases heq
    exact .loopExit hrunning halive

end TCPClient

end MyUvpp
