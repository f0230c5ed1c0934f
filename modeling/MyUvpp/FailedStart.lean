import MyUvpp.TcpClient.Lifecycle
import MyUvpp.TcpServer.Lifecycle
import MyUvpp.Uv.LoopHandles

/-! # A start that fails

`Start` and `Connect` register handles one after the other and mark the object as open when `init` has
succeeded; a call that fails later returns without taking anything back. Only a failure of `uv_async_init`,
before there is anything to take back, leaves the object as it was. A handle that an earlier call has left
registered is registered a second time: the loop counts it as active once more, and what was registered after
it drops out of `handle_queue`. -/

namespace MyUvpp

/-! ### The server -/

/-- The handles of a server, as nodes of the queue of its loop. -/
inductive ServerHandle where
  /-- `tcp_handle_`. -/
  | server
  /-- `async_handle_close_`. -/
  | asyncClose
  /-- `tcphandle` of the context at an address. -/
  | client (addr : ℕ)
  deriving DecidableEq

namespace ServerState

/-- The state of a handle. -/
def handleState (s : ServerState) : ServerHandle → HandleState ServerCloseCb
  | .server => s.tcpHandle.state
  | .asyncClose => s.asyncHandleClose.state
  | .client addr => (s.heap addr).tcphandle.state

/-- The handles registered with `loop_`. -/
def registered (s : ServerState) : Set ServerHandle := { h | s.handleState h ≠ .unregistered }

/-- The server without the record of what its calls have returned. -/
def forgetReturns (s : ServerState) : ServerState := { s with startReturns := [] }

/-- What `init` does to the handles of `loop_`. -/
def initLoop (s : ServerState) (r : ServerInitResult) (loop : LoopHandles ServerHandle) :
    LoopHandles ServerHandle :=
  if !s.isclosed then loop
  else if r.asyncInit ≠ 0 then loop
  else
    let loop := loop.uvAsyncInit .asyncClose
    if r.tcpInit ≠ 0 then loop else loop.uvHandleInit .server

/-- What `Start` and `Start6` do to the handles of `loop_` after `closeinl`: `init` registers them, and
`uv_listen` starts `tcp_handle_`. -/
def startLoop (s : ServerState) (r : StartResult) (loop : LoopHandles ServerHandle) :
    LoopHandles ServerHandle :=
  let loop := s.initLoop r.toServerInitResult loop
  if (s.init r.toServerInitResult).2 ∧ r.addr = 0 ∧ r.tcpBind = 0 ∧ r.listen = 0 then
    loop.uvHandleStart .server
  else loop

/-- A call has left a server `s` with the handles `loop` of its loop as `s'` and `loop'`, as if it had not been
made: closed, with the same handles, with its mutex free, and ready to be started as for the first time. -/
structure Restored (s s' : ServerState) (loop loop' : LoopHandles ServerHandle) : Prop where
  isclosed : s'.isclosed = true
  registered : s'.registered = s.registered
  /-- `handle_queue` holds the same handles. -/
  queue : ∀ rounds, loop'.queue rounds = loop.queue rounds
  /-- The loop waits for as many of them. -/
  activeHandles : loop'.activeHandles = loop.activeHandles
  unlocked : s'.mutexClients.holders = []
  retry : ∀ t, (s'.start t default).map forgetReturns = (s.start t default).map forgetReturns
  retryLoop : s'.startLoop default loop' = s.startLoop default loop

variable {s s' : ServerState}

/-- `closeinl` does nothing to a closed server. -/
theorem start_of_closed (h : s.isclosed = true) (t : ServerThread) (r : StartResult) :
    s.start t r = some (s.startInit r) := by
  rw [start, closeinl, if_pos h, Option.map_some]

/-- `init` of a closed server whose `uv_async_init` fails does nothing. -/
theorem init_of_asyncInit (h : s.isclosed = true) {r : ServerInitResult} (hasync : r.asyncInit ≠ 0) :
    s.init r = (s, false) := by
  have hguard : ¬ (!s.isclosed) = true := by
    rw [h]
    decide
  rw [init, if_neg hguard]
  refine (if_pos hasync).trans ?_
  rw [UvAsync.init, if_neg hasync]

/-- Nor does it do anything to the loop. -/
theorem startLoop_of_asyncInit (h : s.isclosed = true) {r : StartResult} (hasync : r.asyncInit ≠ 0)
    (loop : LoopHandles ServerHandle) : s.startLoop r loop = loop := by
  have hguard : ¬ (!s.isclosed) = true := by
    rw [h]
    decide
  rw [startLoop, init_of_asyncInit h hasync, initLoop, if_neg hguard, if_pos hasync]
  exact if_neg fun hok => by cases hok.1

/-- An `init` that gets past `uv_async_init` leaves `async_handle_close_` with the loop. -/
theorem lt_initLoop_activeHandles (h : s.isclosed = true) {r : ServerInitResult} (hasync : r.asyncInit = 0)
    (loop : LoopHandles ServerHandle) : loop.activeHandles < (s.initLoop r loop).activeHandles := by
  have hguard : ¬ (!s.isclosed) = true := by
    rw [h]
    decide
  have hlt : loop.activeHandles < (loop.uvAsyncInit .asyncClose).activeHandles := by
    rw [LoopHandles.uvAsyncInit_activeHandles]
    exact Nat.lt_succ_self _
  rw [initLoop, if_neg hguard, if_neg (not_not.mpr hasync)]
  simp only
  split
  case isTrue => exact hlt
  -- `uv_tcp_init` registers a handle, but does not start it
  case isFalse => exact hlt

/-- Where the async handle is initialised, the loop has an active handle more than before. -/
theorem lt_startLoop_activeHandles (h : s.isclosed = true) {r : StartResult} (hasync : r.asyncInit = 0)
    (loop : LoopHandles ServerHandle) : loop.activeHandles < (s.startLoop r loop).activeHandles := by
  have hinit := lt_initLoop_activeHandles h hasync loop
  rw [startLoop]
  split
  case isTrue => exact Nat.lt_of_lt_of_le hinit (LoopHandles.le_uvHandleStart_activeHandles _ _)
  case isFalse => exact hinit

/-- A start that succeeds up to the creation of the thread: nothing of the handles before is left. -/
theorem startInit_default (h : s.isclosed = true) :
    s.startInit default =
      { s with
        asyncHandleClose := ⟨.opened, false⟩
        tcpHandle := ⟨.opened, some (), false, false⟩
        listening := true
        isclosed := false
        newThreads := s.newThreads + 1
        starting := true } := by
  rw [startInit, init, h]
  rfl

/-- Where nothing fails, the loop gets both handles, and the listening one is started. -/
theorem startLoop_default (h : s.isclosed = true) (loop : LoopHandles ServerHandle) :
    s.startLoop default loop =
      ((loop.uvAsyncInit .asyncClose).uvHandleInit .server).uvHandleStart .server := by
  rw [startLoop, initLoop, init, h]
  rfl

/-- **A call of `Start` or `Start6`** on a closed server. -/
theorem restored_startInit_iff (h : s.isclosed = true) (r : StartResult) (loop : LoopHandles ServerHandle) :
    s.Restored (s.startInit r) loop (s.startLoop r loop) ↔ s.mutexClients.holders = [] ∧ r.asyncInit ≠ 0 := by
  by_cases hasync : r.asyncInit = 0
  · -- the loop counts one handle more, whatever fails later
    refine iff_of_false (fun hres => ?_) fun hcond => hcond.2 hasync
    exact Nat.ne_of_gt (lt_startLoop_activeHandles h hasync loop) hres.activeHandles
  · -- nothing has been done
    have hstart : s.startInit r = s.startReturn false := by
      rw [startInit, init_of_asyncInit h hasync]
    have hclosed : (s.startReturn false).isclosed = true := h
    rw [hstart, startLoop_of_asyncInit h hasync]
    refine ⟨fun hres => ⟨hres.unlocked, hasync⟩, fun hcond => ?_⟩
    refine ⟨h, rfl, fun _ => rfl, rfl, hcond.1, fun t => ?_, ?_⟩
    · rw [start_of_closed h, start_of_closed hclosed, startInit_default h, startInit_default hclosed]
      rfl
    · rw [startLoop_default h, startLoop_default hclosed]

end ServerState

/-! ### The client -/

/-- The handles of a client, as nodes of the queue of its loop. -/
inductive ClientHandle where
  /-- `client_handle_->tcphandle`. -/
  | tcp
  /-- `async_handle_`. -/
  | async
  /-- `reconnect_timer_`. -/
  | timer
  deriving DecidableEq

namespace TCPClient

/-- The state of a handle. -/
def handleState (s : TCPClient) : ClientHandle → HandleState ClientCloseCb
  | .tcp => s.tcphandle.state
  | .async => s.asyncHandle.state
  | .timer => s.reconnectTimer.state

/-- The handles registered with `loop_`. -/
def registered (s : TCPClient) : Set ClientHandle := { h | s.handleState h ≠ .unregistered }

/-- The client without the record of its calls. -/
def forgetLog (s : TCPClient) : TCPClient := { s with log := [] }

/-- What `init` does to the handles of `loop_`, and so `Connect` and `Connect6`, which start none of them. -/
def initLoop (s : TCPClient) (r : InitResult) (loop : LoopHandles ClientHandle) : LoopHandles ClientHandle :=
  if !s.isclosed then loop
  else if r.asyncInit ≠ 0 then loop
  else
    let loop := loop.uvAsyncInit .async
    if r.tcpInit ≠ 0 then loop
    else
      let loop := loop.uvHandleInit .tcp
      if r.timerInit ≠ 0 then loop else loop.uvHandleInit .timer

/-- A call has left a client `s` with the handles `loop` of its loop as `s'` and `loop'`, as if it had not been
made: closed, with the same handles, and ready to be connected as for the first time. The calls lock no
mutex. -/
structure Restored (s s' : TCPClient) (loop loop' : LoopHandles ClientHandle) : Prop where
  isclosed : s'.isclosed = true
  registered : s'.registered = s.registered
  /-- `handle_queue` holds the same handles. -/
  queue : ∀ rounds, loop'.queue rounds = loop.queue rounds
  /-- The loop waits for as many of them. -/
  activeHandles : loop'.activeHandles = loop.activeHandles
  retry : ∀ isIPv6, (s'.connectTo isIPv6 default).forgetLog = (s.connectTo isIPv6 default).forgetLog
  retryLoop : ∀ r, s'.initLoop r loop' = s.initLoop r loop

variable {s s' : TCPClient}

/-- A call that succeeds up to the creation of the thread: nothing of the handles before is left. -/
theorem connectTo_default (h : s.isclosed = true) (isIPv6 : Bool) :
    (s.connectTo isIPv6 default).forgetLog =
      { s with
        asyncHandle := ⟨.opened, false⟩
        tcphandle := ⟨.opened, some .tcpClientCtx, false, true⟩
        packet := s.packet.setPacketCB.start s.packetHead s.packetTail
        reconnectTimer := ⟨.opened, false⟩
        isclosed := false
        isIPv6
        unanswered := s.unanswered + 1
        loopThreads := s.loopThreads + 1
        connecting := true
        asleep := false
        waitCount := 0
        log := [] } := by
  rw [connectTo, closeinl, if_pos h, init, h]
  rfl

/-- An `init` whose `uv_async_init` fails does nothing to the loop. -/
theorem initLoop_of_asyncInit {r : InitResult} (hasync : r.asyncInit ≠ 0) (loop : LoopHandles ClientHandle) :
    s.initLoop r loop = loop := by
  rw [initLoop, if_pos hasync]
  exact ite_self _

/-- One that gets past it leaves `async_handle_` with the loop. -/
theorem lt_initLoop_activeHandles (h : s.isclosed = true) {r : InitResult} (hasync : r.asyncInit = 0)
    (loop : LoopHandles ClientHandle) : loop.activeHandles < (s.initLoop r loop).activeHandles := by
  have hguard : ¬ (!s.isclosed) = true := by
    rw [h]
    decide
  have hlt : loop.activeHandles < (loop.uvAsyncInit .async).activeHandles := by
    rw [LoopHandles.uvAsyncInit_activeHandles]
    exact Nat.lt_succ_self _
  rw [initLoop, if_neg hguard, if_neg (not_not.mpr hasync)]
  simp only
  split
  case isTrue => exact hlt
  case isFalse =>
    -- `uv_tcp_init` and `uv_timer_init` register a handle, but do not start it
    split
    case isTrue => exact hlt
    case isFalse => exact hlt

/-- **A call of `Connect` or `Connect6`** on a closed client. -/
theorem restored_connectTo_iff (h : s.isclosed = true) (isIPv6 : Bool) (r : ConnectResult)
    (loop : LoopHandles ClientHandle) :
    s.Restored (s.connectTo isIPv6 r) loop (s.initLoop r.toInitResult loop) ↔ r.asyncInit ≠ 0 := by
  by_cases hasync : r.asyncInit = 0
  · -- the loop counts one handle more, whatever fails later
    refine iff_of_false (fun hres => ?_) fun hne => hne hasync
    exact Nat.ne_of_gt (lt_initLoop_activeHandles h hasync loop) hres.activeHandles
  · -- nothing has been done
    have hcloseinl : s.closeinl = s := if_pos h
    have hconnect : s.connectTo isIPv6 r = s.connectReturn false := by
      rw [connectTo, hcloseinl, init_eq h, if_pos hasync]
    have hclosed : (s.connectReturn false).isclosed = true := h
    rw [hconnect, initLoop_of_asyncInit hasync]
    refine iff_of_true ⟨h, rfl, fun _ => rfl, rfl, fun isIPv6' => ?_, fun _ => rfl⟩ hasync
    rw [connectTo_default h, connectTo_default hclosed]
    rfl

end TCPClient

/-- **A failed start leaves the object as it was**, closed and with the handles, the free mutex and the
next start it had before, exactly if it fails in `uv_async_init` (and, for a server, if nobody held the mutex
before). This is so for every call of `Start`, `Start6`, `Connect` and `Connect6` on a closed object, whatever
earlier calls have left in its loop; on such an object no call waits for the mutex. -/
theorem failed_start_restored_iff (s : ServerState) (hs : s.isclosed = true) (t : ServerThread)
    (r : StartResult) (loop : LoopHandles ServerHandle) (c : TCPClient) (hc : c.isclosed = true)
    (isIPv6 : Bool) (r' : ConnectResult) (loop' : LoopHandles ClientHandle) :
    (∃ s', s.start t r = some s' ∧
        (s.Restored s' loop (s.startLoop r loop) ↔ s.mutexClients.holders = [] ∧ r.asyncInit ≠ 0)) ∧
      (c.Restored (c.connectTo isIPv6 r') loop' (c.initLoop r'.toInitResult loop') ↔ r'.asyncInit ≠ 0) :=
  ⟨⟨_, ServerState.start_of_closed hs t r, ServerState.restored_startInit_iff hs r loop⟩,
    TCPClient.restored_connectTo_iff hc isIPv6 r' loop'⟩

/-- A new server and a new client whose `uv_async_init` fails, with the start that follows. -/
theorem failed_start_restored_asyncInit :
    (∃ s', (ServerState.new 1 2).start (.user 0) ⟨⟨-24, 0, 0⟩, 0, 0, 0, 0⟩ = some s' ∧
      (ServerState.new 1 2).Restored s' (.new ⟨id, id⟩)
        ((ServerState.new 1 2).startLoop ⟨⟨-24, 0, 0⟩, 0, 0, 0, 0⟩ (.new ⟨id, id⟩))) ∧
    (TCPClient.new 1 2 default).Restored
      ((TCPClient.new 1 2 default).connectTo false ⟨⟨-24, 0, 0⟩, 0, 0, 0⟩) (.new ⟨id, id⟩)
      ((TCPClient.new 1 2 default).initLoop ⟨-24, 0, 0⟩ (.new ⟨id, id⟩)) := by
  obtain ⟨⟨s', hs', hserver⟩, hclient⟩ := failed_start_restored_iff (.new 1 2) rfl (.user 0)
    ⟨⟨-24, 0, 0⟩, 0, 0, 0, 0⟩ (.new ⟨id, id⟩) (.new 1 2 default) rfl false ⟨⟨-24, 0, 0⟩, 0, 0, 0⟩
    (.new ⟨id, id⟩)
  exact ⟨⟨s', hs', hserver.mpr ⟨rfl, by decide⟩⟩, hclient.mpr (by decide)⟩

/-- A new server whose `bind` fails counts as open and has its handles registered; the next start locks
the mutex for good. A new client whose address is not one counts as open too. -/
theorem failed_start_not_restored :
    (∃ s', (ServerState.new 1 2).start (.user 0) ⟨⟨0, 0, 0⟩, 0, -98, 0, 0⟩ = some s' ∧
      s'.startReturns = [false] ∧ s'.isclosed = false ∧ s'.tcpHandle.state = .opened ∧
      (∃ s'', s'.start (.user 0) default = some s'' ∧ s''.mutexClients.holders = [.user 0]) ∧
      ¬ (ServerState.new 1 2).Restored s' (.new ⟨id, id⟩)
        ((ServerState.new 1 2).startLoop ⟨⟨0, 0, 0⟩, 0, -98, 0, 0⟩ (.new ⟨id, id⟩))) ∧
    ((TCPClient.new 1 2 default).connectTo false ⟨⟨0, 0, 0⟩, -22, 0, 0⟩).log =
        [.tcpInit .unregistered, .connectReturn false] ∧
      ¬ (TCPClient.new 1 2 default).Restored
        ((TCPClient.new 1 2 default).connectTo false ⟨⟨0, 0, 0⟩, -22, 0, 0⟩) (.new ⟨id, id⟩)
        ((TCPClient.new 1 2 default).initLoop ⟨0, 0, 0⟩ (.new ⟨id, id⟩)) := by
  refine ⟨⟨_, rfl, rfl, rfl, rfl, ⟨_, rfl, rfl⟩, fun hres => ?_⟩, rfl, fun hres => ?_⟩
  -- `init` has succeeded, and left `isclosed_` false
  · cases hres.isclosed
  · cases hres.isclosed

/-- A call of `Connect` that fails in `uv_timer_init` leaves two handles in `handle_queue`; when the next one
fails in `uv_tcp_init`, it has taken `tcphandle` out of it. -/
example :
    let client := TCPClient.new 1 2 default
    let loop := client.initLoop ⟨0, 0, -12⟩ (.new ⟨id, id⟩)
    let loop' := (client.connectTo false ⟨⟨0, 0, -12⟩, 0, 0, 0⟩).initLoop ⟨0, -12, 0⟩ loop
    loop.queue 10 = [.internal 0, .internal 1, .handle .async, .handle .tcp] ∧
      loop'.queue 10 = [.internal 0, .internal 1, .handle .async] := by
  decide

end MyUvpp
