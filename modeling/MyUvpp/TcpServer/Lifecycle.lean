import MyUvpp.TcpServer.ConnectionPool
import MyUvpp.Uv.Mutex

/-! # Starting and closing a server (`tcpserver.cpp`)

The whole `TCPServer`: to the connections of `TCPServer` in the model this adds its own handles, its
flags, the mutex of `clients_list_`, the calls of its users and the threads that run its loop. What a
call into libuv returns is part of the event. A critical section is one step: whoever else needs the
mutex waits for its end. The texts of errors, the address, what is sent and the callbacks that are kept
for a client have no part in it. -/

namespace MyUvpp

/-- The threads that use a server and may hold its mutex: those of the user, and the one that runs the loop.
-/
inductive ServerThread where
  | user (n : ℕ)
  /-- The thread of `StartThread`. -/
  | loop
  deriving DecidableEq

/-- `startstatus_`, which the loop thread sets and the wait loop of `Start` looks at. -/
inductive StartStatus where
  | startTimeout
  | startFinish
  | startError
  | startDis
  deriving DecidableEq

/-- `TCPServer` with its loop: the connections, the two handles of the server, and its flags. -/
structure ServerState extends TCPServer where
  tcpHandle : UvTcp Unit ServerCloseCb
  /-- Whether `uv_listen` is in effect for `tcp_handle_`. -/
  listening : Bool
  asyncHandleClose : UvAsync ServerCloseCb
  isclosed : Bool
  isuseraskforclosed : Bool
  startstatus : StartStatus
  mutexClients : UvMutex ServerThread
  /-- Whether a call of `Start` or `Start6` is in its wait loop. -/
  starting : Bool
  /-- The number of threads that have been created and have not reached `StartThread`. -/
  newThreads : ℕ
  /-- The number of threads in `uv_run`. -/
  loopThreads : ℕ
  /-- How often `uv_close` has been called for the handle of the context at an address since its last
  `uv_tcp_init`. -/
  closeCalls : ℕ → ℕ
  /-- What the calls of `Start` and `Start6` have returned. -/
  startReturns : List Bool

/-- What the calls of `TCPServer::init` return, in the order in which they are made; 0 is success. -/
structure ServerInitResult where
  asyncInit : ℤ
  tcpInit : ℤ
  tcpNodelay : ℤ

/-- What the calls of `Start` return, those of `init` first; 0 is success. -/
structure StartResult extends ServerInitResult where
  /-- `uv_ip4_addr` or `uv_ip6_addr`. -/
  addr : ℤ
  tcpBind : ℤ
  listen : ℤ
  threadCreate : ℤ

/-- Every call succeeds. -/
instance : Inhabited StartResult := ⟨⟨⟨0, 0, 0⟩, 0, 0, 0, 0⟩⟩

/-- What `closedcb_`, the callback of the user, may call when it is told of a closed client. -/
inductive ServerCall where
  | setRecvCB
  | close
  deriving DecidableEq

namespace ServerState

/-- `TCPServer::TCPServer`: a closed server without connections, whose handles were never initialised. -/
def new (packhead packtail : UInt8) : ServerState :=
  { TCPServer.new packhead packtail with
    tcpHandle := .unused
    listening := false
    asyncHandleClose := .unused
    isclosed := true
    isuseraskforclosed := false
    startstatus := .startDis
    mutexClients := .new
    starting := false
    newThreads := 0
    loopThreads := 0
    closeCalls := fun _ => 0
    startReturns := [] }

variable (s : ServerState)

/-! ### The mutex -/

/-- `uv_mutex_lock(&mutex_clients_)`, `none` while another thread holds the mutex: the caller waits. -/
def lockClients (t : ServerThread) : Option ServerState :=
  (s.mutexClients.lock t).map fun mutexClients => { s with mutexClients }

/-- `uv_mutex_unlock(&mutex_clients_)` by the thread that holds the mutex. -/
def unlockClients : ServerState := { s with mutexClients := s.mutexClients.unlock }

/-- `TCPServer::SetRecvCB`, which locks and unlocks the mutex of the clients; the callbacks themselves are
not modelled. -/
def setRecvCB (t : ServerThread) : Option ServerState := (s.lockClients t).map unlockClients

/-- `TCPServer::broadcast`; the mutex is not touched when there is nothing to send. -/
def broadcast (t : ServerThread) (empty : Bool) : Option ServerState :=
  if empty then some s else (s.lockClients t).map unlockClients

/-! ### Closing -/

/-- `AcceptClient::Close`; each call of `uv_close` is counted for its handle. -/
def closeClient (c : AcceptClient) : ServerState :=
  { s with
    toTCPServer := s.closeAcceptClient c
    closeCalls :=
      if c.isclosed then s.closeCalls
      else Function.update s.closeCalls c.clientHandle (s.closeCalls c.clientHandle + 1) }

/-- `AcceptClient::Close` for all clients, in the order of `clients_list_`. -/
def closeClients : ServerState := s.clientsList.foldl closeClient s

/-- `uv_walk(&loop_, CloseWalkCB, this)`, which closes every handle of the loop that is not closing, those
of the clients included. -/
def walkClose : ServerState :=
  { s with
    heap := fun a => { s.heap a with
      tcphandle := (s.heap a).tcphandle.walkClose .afterServerClose }
    closeCalls := fun a =>
      if (s.heap a).tcphandle.state = .opened then s.closeCalls a + 1 else s.closeCalls a
    tcpHandle := s.tcpHandle.walkClose .afterServerClose
    asyncHandleClose := s.asyncHandleClose.walkClose .afterServerClose }

/-- `TCPServer::closeinl` behind its guard; the mutex is not unlocked. -/
def closeAll (t : ServerThread) : Option ServerState :=
  (s.lockClients t).map fun s => s.closeClients.walkClose

/-- `TCPServer::closeinl`: nothing behind its guard `isclosed_`, else `closeAll`. -/
def closeinl (t : ServerThread) : Option ServerState :=
  if s.isclosed then some s else s.closeAll t

/-- `TCPServer::Close`: leaves a request for the loop thread and wakes it, unless the server is closed. -/
def close : ServerState :=
  if s.isclosed then s
  else { s with isuseraskforclosed := true, asyncHandleClose := s.asyncHandleClose.send }

/-- `TCPServer::AsyncCloseCB`: the loop thread closes the server if the user has asked for it. -/
def asyncCloseCB : Option ServerState :=
  let s := { s with asyncHandleClose := s.asyncHandleClose.received }
  if s.isuseraskforclosed then s.closeinl .loop else some s

/-! ### Starting -/

/-- `uv_tcp_init(&loop_, &tcp_handle_)`; a handle that is initialised again does not listen any more. -/
def uvTcpInit (iret : ℤ) : ServerState :=
  { s with
    tcpHandle := s.tcpHandle.init iret
    listening := if iret = 0 then false else s.listening }

/-- `TCPServer::init`: nothing on an open server. The steps before the one that fails are not undone, and
`isclosed_` becomes false with the last one only. -/
def init (r : ServerInitResult) : ServerState × Bool :=
  if !s.isclosed then (s, true)
  else
    let s := { s with asyncHandleClose := s.asyncHandleClose.init r.asyncInit }
    if r.asyncInit ≠ 0 then (s, false)
    else
      let s := s.uvTcpInit r.tcpInit
      if r.tcpInit ≠ 0 then (s, false)
      else
        let s := { s with tcpHandle := s.tcpHandle.setData () }
        if r.tcpNodelay ≠ 0 then (s, false) else ({ s with isclosed := false }, true)

/-- `Start` or `Start6` returns. The result is recorded. -/
def startReturn (ok : Bool) : ServerState :=
  { s with starting := false, startReturns := s.startReturns ++ [ok] }

/-- `Start` or `Start6` after `init` has succeeded, up to the wait loop. -/
def startListening (r : StartResult) : ServerState :=
  if r.addr ≠ 0 then s.startReturn false
  else if r.tcpBind ≠ 0 then s.startReturn false
  else if r.listen ≠ 0 then s.startReturn false
  else
    let s := { s with listening := true }
    if r.threadCreate ≠ 0 then s.startReturn false
    else { s with newThreads := s.newThreads + 1, starting := true }

/-- `Start` and `Start6` after `closeinl`: `init`, and on its success the rest up to the wait loop. -/
def startInit (r : StartResult) : ServerState :=
  match s.init r.toServerInitResult with
  | (s, false) => s.startReturn false
  | (s, true) => s.startListening r

/-- `TCPServer::Start` and `TCPServer::Start6`, up to their wait loop; they differ in the function
that parses the address. -/
def start (t : ServerThread) (r : StartResult) : Option ServerState :=
  (s.closeinl t).map (·.startInit r)

/-- The end of `Start` and `Start6`: the wait loop finds another status than `START_DIS`, or its time is
up after a sleep and it writes over whatever the status has become meanwhile. -/
def startWaited (timedOut : Bool) : ServerState :=
  let s := if timedOut then { s with startstatus := .startTimeout } else s
  s.startReturn (s.startstatus = .startFinish)

/-- `TCPServer::StartThread`, up to `uv_run`: the loop thread tells the caller of `Start` that it runs. -/
def startThread : ServerState :=
  { s with
    newThreads := s.newThreads - 1
    startstatus := .startFinish
    loopThreads := s.loopThreads + 1 }

/-- `uv_run` returns in `StartThread`: the server is closed, and the request of the user is forgotten. -/
def loopExit : ServerState :=
  { s with loopThreads := s.loopThreads - 1, isclosed := true, isuseraskforclosed := false }

/-! ### The callbacks of connections -/

/-- `TCPServer::AcceptConnection`; an accepted client is inserted under the mutex. -/
def acceptConnection (status : ℤ) (r : AcceptResult) (addr : ℕ) (u : Indeterminate) :
    Option ServerState :=
  let a := s.takenAddr addr
  let s := { s with toTCPServer := s.toTCPServer.acceptConnection status r addr u }
  if status ≠ 0 ∨ r.tcpInit ≠ 0 then some s
  else
    let s := { s with closeCalls := Function.update s.closeCalls a 0 }
    if r.accept ≠ 0 then some s
    else if r.readStart ≠ 0 then
      some { s with closeCalls := Function.update s.closeCalls a (s.closeCalls a + 1) }
    else (s.lockClients .loop).map unlockClients

/-- `AfterRecv`: a read error closes the client, bytes go to its decoder. -/
def afterRecv (host : Host) (addr : ℕ) (nread : Option (List UInt8)) : Option ServerState :=
  match nread with
  | none =>
    (s.clientsList.find? (some ·.clientId = (s.heap addr).parentAcceptclient)).map s.closeClient
  | some data => (s.toTCPServer.afterRecv host addr (some data)).map fun toTCPServer =>
      { s with toTCPServer }

/-- A call from `closedcb_`, on the loop thread. -/
def call : ServerCall → Option ServerState
  | .setRecvCB => s.setRecvCB .loop
  | .close => some s.close

/-- The calls from `closedcb_`, in order; `none` where one of them would wait for the mutex forever. -/
def calls : List ServerCall → ServerState → Option ServerState
  | [], s => some s
  | c :: cs, s => (s.call c).bind (calls cs)

/-- The close of the handle at an address completes; `closedcb` are the calls from `closedcb_`, which
`SubClientClosed` calls under the mutex for a client that it finds. -/
def tcpClosed (addr : ℕ) (cb : Option ServerCloseCb) (closedcb : List ServerCall) :
    Option ServerState :=
  let s' := { s with toTCPServer := s.toTCPServer.tcpClosed addr cb }
  match cb, (s.heap addr).tcphandle.data with
  | some .afterClientClose, some (.acceptClient clientId) =>
    let found := s.clientsList.any (·.clientId = clientId)
    ((s'.lockClients .loop).bind (calls (if found then closedcb else []))).map unlockClients
  | _, _ => some s'

/-- Whether the loop has an active or a closing handle (`uv__loop_alive`). -/
def loopAlive : Bool :=
  s.asyncHandleClose.state ≠ .unregistered || (s.tcpHandle.state = .opened && s.listening) ||
    s.tcpHandle.state.isClosing ||
    s.live.any fun a => (s.heap a).tcphandle.state.isClosing || (s.heap a).tcphandle.reading

end ServerState

/-- What may happen next to a server. -/
inductive ServerLifeEvent where
  | start (t : ServerThread) (r : StartResult)
  /-- A thread that has been created begins with `StartThread`. -/
  | startThread
  /-- A call of `Start` or `Start6` leaves its wait loop, because its time is up or without that. -/
  | startWaited (timedOut : Bool)
  | setRecvCB (t : ServerThread)
  | broadcast (t : ServerThread) (empty : Bool)
  | close
  | asyncCloseCB
  | acceptConnection (status : ℤ) (r : AcceptResult) (addr : ℕ) (u : Indeterminate)
  | afterRecv (addr : ℕ) (nread : Option (List UInt8))
  /-- The close of the handle of a context completes. -/
  | tcpClosed (addr : ℕ) (closedcb : List ServerCall)
  /-- The close of `tcp_handle_` completes. -/
  | serverClosed
  /-- The close of `async_handle_close_` completes. -/
  | asyncClosed
  | loopExit

namespace ServerState

/-- One step of a server; there is none where the event cannot occur. -/
def step (host : Host) (s : ServerState) : ServerLifeEvent → Option ServerState
  | .start t r => s.start t r
  | .startThread => if 0 < s.newThreads then some s.startThread else none
  | .startWaited timedOut =>
    if s.starting ∧ (timedOut ∨ s.startstatus ≠ .startDis) then some (s.startWaited timedOut) else none
  | .setRecvCB t => s.setRecvCB t
  | .broadcast t empty => s.broadcast t empty
  | .close => some s.close
  | .asyncCloseCB =>
    if 0 < s.loopThreads ∧ s.asyncHandleClose.state = .opened ∧ s.asyncHandleClose.sent then
      s.asyncCloseCB
    else none
  | .acceptConnection status r addr u =>
    if 0 < s.loopThreads ∧ s.tcpHandle.state = .opened ∧ s.listening ∧ addr ∉ s.live then
      s.acceptConnection status r addr u
    else none
  | .afterRecv addr nread =>
    if 0 < s.loopThreads ∧ addr ∈ s.live ∧ (s.heap addr).tcphandle.state = .opened ∧
        (s.heap addr).tcphandle.reading ∧
        (s.heap addr).tcphandle.data = some .tcpClientCtx then
      s.afterRecv host addr nread
    else none
  | .tcpClosed addr closedcb =>
    match (s.heap addr).tcphandle.state with
    | .closing cb =>
      if 0 < s.loopThreads ∧ addr ∈ s.live then s.tcpClosed addr cb closedcb else none
    | _ => none
  | .serverClosed =>
    match s.tcpHandle.state with
    | .closing _ =>
      if 0 < s.loopThreads then some { s with tcpHandle := s.tcpHandle.closed } else none
    | _ => none
  | .asyncClosed =>
    match s.asyncHandleClose.state with
    | .closing _ =>
      if 0 < s.loopThreads then some { s with asyncHandleClose := s.asyncHandleClose.closed }
      else none
    | _ => none
  | .loopExit =>
    if 0 < s.loopThreads ∧ s.loopAlive = false then some s.loopExit else none

/-! ### What a step can do -/

/-- A step of the server, with what it rests on. -/
inductive Steps (host : Host) (s : ServerState) : ServerLifeEvent → ServerState → Prop where
  | start (t : ServerThread) (r : StartResult) (s' : ServerState) (hstart : s.start t r = some s') :
      Steps host s (.start t r) s'
  | startThread (hnew : 0 < s.newThreads) : Steps host s .startThread s.startThread
  | startWaited (timedOut : Bool) (hstarting : s.starting = true)
      (hover : timedOut = true ∨ s.startstatus ≠ .startDis) :
      Steps host s (.startWaited timedOut) (s.startWaited timedOut)
  | setRecvCB (t : ServerThread) (s' : ServerState) (hset : s.setRecvCB t = some s') :
      Steps host s (.setRecvCB t) s'
  | broadcast (t : ServerThread) (empty : Bool) (s' : ServerState)
      (hsend : s.broadcast t empty = some s') : Steps host s (.broadcast t empty) s'
  | close : Steps host s .close s.close
  | asyncCloseCB (s' : ServerState) (hrunning : 0 < s.loopThreads)
      (hopened : s.asyncHandleClose.state = .opened) (hsent : s.asyncHandleClose.sent = true)
      (hcb : s.asyncCloseCB = some s') : Steps host s .asyncCloseCB s'
  | acceptConnection (status : ℤ) (r : AcceptResult) (addr : ℕ) (u : Indeterminate) (s' : ServerState)
      (hrunning : 0 < s.loopThreads) (hopened : s.tcpHandle.state = .opened)
      (hlistening : s.listening = true) (haddr : addr ∉ s.live)
      (hcb : s.acceptConnection status r addr u = some s') :
      Steps host s (.acceptConnection status r addr u) s'
  | afterRecv (addr : ℕ) (nread : Option (List UInt8)) (s' : ServerState) (hrunning : 0 < s.loopThreads)
      (hlive : addr ∈ s.live) (hopened : (s.heap addr).tcphandle.state = .opened)
      (hreading : (s.heap addr).tcphandle.reading = true)
      (hdata : (s.heap addr).tcphandle.data = some .tcpClientCtx)
      (hcb : s.afterRecv host addr nread = some s') : Steps host s (.afterRecv addr nread) s'
  | tcpClosed (addr : ℕ) (cb : Option ServerCloseCb) (closedcb : List ServerCall) (s' : ServerState)
      (hrunning : 0 < s.loopThreads) (hlive : addr ∈ s.live)
      (hclosing : (s.heap addr).tcphandle.state = .closing cb)
      (hcb : s.tcpClosed addr cb closedcb = some s') : Steps host s (.tcpClosed addr closedcb) s'
  | serverClosed (hrunning : 0 < s.loopThreads) (hclosing : s.tcpHandle.state.isClosing = true) :
      Steps host s .serverClosed { s with tcpHandle := s.tcpHandle.closed }
  | asyncClosed (hrunning : 0 < s.loopThreads)
      (hclosing : s.asyncHandleClose.state.isClosing = true) :
      Steps host s .asyncClosed { s with asyncHandleClose := s.asyncHandleClose.closed }
  | loopExit (hrunning : 0 < s.loopThreads) (halive : s.loopAlive = false) :
      Steps host s .loopExit s.loopExit

variable {host : Host} {s s' : ServerState} {e : ServerLifeEvent}

/-- The close of the handle of a context completes. -/
theorem steps_tcpClosed {addr : ℕ} {closedcb : List ServerCall}
    (hstep : s.step host (.tcpClosed addr closedcb) = some s') :
    Steps host s (.tcpClosed addr closedcb) s' := by
  rw [step] at hstep
  split at hstep
  case h_1 cb hclosing =>
    obtain ⟨⟨hrunning, hlive⟩, hcb⟩ := Option.ite_none_right_eq_some.mp hstep
    exact .tcpClosed addr cb closedcb s' hrunning hlive hclosing hcb
  case h_2 => cases hstep

/-- The close of `tcp_handle_` completes. -/
theorem steps_serverClosed (hstep : s.step host .serverClosed = some s') :
    Steps host s .serverClosed s' := by
  rw [step] at hstep
  split at hstep
  case h_1 cb hclosing =>
    obtain ⟨hrunning, heq⟩ := Option.ite_none_right_eq_some.mp hstep
    cases heq
    exact .serverClosed hrunning (by rw [hclosing]; rfl)
  case h_2 => cases hstep

/-- The close of `async_handle_close_` completes. -/
theorem steps_asyncClosed (hstep : s.step host .asyncClosed = some s') :
    Steps host s .asyncClosed s' := by
  rw [step] at hstep
  split at hstep
  case h_1 cb hclosing =>
    obtain ⟨hrunning, heq⟩ := Option.ite_none_right_eq_some.mp hstep
    cases heq
    exact .asyncClosed hrunning (by rw [hclosing]; rfl)
  case h_2 => cases hstep

/-- **What a step can do.** -/
theorem steps_of_step (hstep : s.step host e = some s') : Steps host s e s' := by
  cases e with
  | start t r => exact .start t r s' hstep
  | startThread =>
    obtain ⟨hnew, heq⟩ := Option.ite_none_right_eq_some.mp hstep
    cases heq
    exact .startThread hnew
  | startWaited timedOut =>
    obtain ⟨⟨hstarting, hover⟩, heq⟩ := Option.ite_none_right_eq_some.mp hstep
    cases heq
    exact .startWaited timedOut hstarting hover
  | setRecvCB t => exact .setRecvCB t s' hstep
  | broadcast t empty => exact .broadcast t empty s' hstep
  | close =>
    cases hstep
    exact .close
  | asyncCloseCB =>
    obtain ⟨⟨hrunning, hopened, hsent⟩, hcb⟩ := Option.ite_none_right_eq_some.mp hstep
    exact .asyncCloseCB s' hrunning hopened hsent hcb
  | acceptConnection status r addr u =>
    obtain ⟨⟨hrunning, hopened, hlistening, haddr⟩, hcb⟩ := Option.ite_none_right_eq_some.mp hstep
    exact .acceptConnection status r addr u s' hrunning hopened hlistening haddr hcb
  | afterRecv addr nread =>
    obtain ⟨⟨hrunning, hlive, hopened, hreading, hdata⟩, hcb⟩ :=
      Option.ite_none_right_eq_some.mp hstep
    exact .afterRecv addr nread s' hrunning hlive hopened hreading hdata hcb
  | tcpClosed addr closedcb => exact steps_tcpClosed hstep
  | serverClosed => exact steps_serverClosed hstep
  | asyncClosed => exact steps_asyncClosed hstep
  | loopExit =>
    obtain ⟨⟨hrunning, halive⟩, heq⟩ := Option.ite_none_right_eq_some.mp hstep
    cases heq
    exact .loopExit hrunning halive

end ServerState

end MyUvpp
