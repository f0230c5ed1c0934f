import MyUvpp.TcpClient.Lifecycle

/-! # One connection attempt at a time

`ReconnectTimer` initialises `tcphandle` and connects whenever it fires while the client is
reconnecting. Nothing stops the timer while an attempt is under way, and `AfterConnect` leaves the
handle of a failed attempt open, so that the next tick may find the handle in use. Where no attempt has
failed in `AfterConnect` and none is under way when the timer fires, the handle is free whenever it is
initialised and `connect_req_` whenever it is used. -/

namespace MyUvpp

/-- The handle and the request are free when they are used. -/
def ClientCall.AttemptOk : ClientCall → Prop
  | .tcpInit state => state = .unregistered
  | .tcpConnect unanswered => unanswered = 0
  | _ => True

namespace TCPClient

/-- The uses of `tcphandle` and `connect_req_` so far. -/
structure AttemptCore (s : TCPClient) : Prop where
  data : s.tcphandle.state = .opened → s.tcphandle.data = some .tcpClientCtx
  reading : s.tcphandle.reading = true → s.tcphandle.state = .opened ∧
    s.tcphandle.connectReq = false ∧ s.isreconnecting = false
  request : s.unanswered = if s.tcphandle.connectReq then 1 else 0
  logged : ∀ c ∈ s.log, c.AttemptOk

/-- The invariant between two events. While the client is reconnecting, an open handle has an attempt
under way or one that failed, and only `closeinl` closes the async handle. -/
structure AttemptInv (s : TCPClient) : Prop extends AttemptCore s where
  closed : s.isclosed = true →
    s.tcphandle.state = .unregistered ∧ s.unanswered = 0 ∧ s.isreconnecting = false
  async : s.isclosed = false → s.asyncHandle.state ≠ .opened →
    s.tcphandle.state ≠ .opened ∧ s.isreconnecting = false
  attempt : s.isreconnecting = true → s.tcphandle.state = .opened →
    s.tcphandle.connectReq = true ∨ s.connectstatus = .connectError

/-- When the timer fires while the client is reconnecting, no attempt has failed in `AfterConnect`, none
is under way, and no close is pending. A closed client is connected with a `uv_timer_init` that succeeds,
an open one while it has no request on its way. And no wait loop of `Connect` comes to its end after an
attempt has failed, so that it does not hide the failure. -/
def FiresIdle (s : TCPClient) : ClientEvent → Prop
  | .connect r | .connect6 r =>
    (s.isclosed = true → r.timerInit = 0) ∧ (s.isclosed = false → s.tcphandle.connectReq = false)
  | .connectSlept => s.isreconnecting = true → s.connectstatus = .connectError → s.waitCount < 100
  | .reconnectTimer _ => s.isreconnecting = true → s.connectstatus ≠ .connectError ∧
    s.tcphandle.connectReq = false ∧ s.tcphandle.state.isClosing = false
  | _ => True

/-- Whether an event meets the condition can be decided. -/
instance (s : TCPClient) : DecidablePred s.FiresIdle
  | .connect _ | .connect6 _ => inferInstanceAs (Decidable ((_ → _) ∧ (_ → _)))
  | .connectSlept => inferInstanceAs (Decidable (_ → _ → _))
  | .reconnectTimer _ => inferInstanceAs (Decidable (_ → _ ∧ _ ∧ _))
  | .setReconnectCB | .connectWait | .connectWaited | .send | .close | .asyncCB | .afterConnect _ _
  | .afterRecv _ | .tcpClosed _ | .asyncClosed | .timerClosed | .loopExit =>
    inferInstanceAs (Decidable True)

/-- A new client has nothing under way. -/
theorem attemptInv_new (packhead packtail : UInt8) (u : Indeterminate) :
    (new packhead packtail u).AttemptInv where
  data h := by cases h
  reading h := by cases h
  request := rfl
  logged c hc := absurd hc List.not_mem_nil
  closed _ := ⟨rfl, rfl, rfl⟩
  async h := by cases h
  attempt h := by cases h

variable {s : TCPClient}

/-! ### The parts of the methods -/

/-- Only the handle, the flag, the number of requests and the log matter. -/
theorem AttemptCore.congr {s' : TCPClient} (h : s.AttemptCore) (htcp : s'.tcphandle = s.tcphandle)
    (hrec : s'.isreconnecting = s.isreconnecting) (hreq : s'.unanswered = s.unanswered)
    (hlog : s'.log = s.log) : s'.AttemptCore := by
  obtain ⟨h₁, h₂, h₃, h₄⟩ := h
  rw [← htcp] at h₁
  rw [← htcp, ← hrec] at h₂
  rw [← htcp, ← hreq] at h₃
  rw [← hlog] at h₄
  exact ⟨h₁, h₂, h₃, h₄⟩

/-- Beside them the state of the client and of its async handle matter, and the status as far as it is not an
error. -/
theorem AttemptInv.congr {s' : TCPClient} (h : s.AttemptInv) (htcp : s'.tcphandle = s.tcphandle)
    (hasync : s'.asyncHandle.state = s.asyncHandle.state) (hclosed : s'.isclosed = s.isclosed)
    (hrec : s'.isreconnecting = s.isreconnecting) (hreq : s'.unanswered = s.unanswered)
    (hlog : s'.log = s.log)
    (hstatus : s.isreconnecting = true → s.connectstatus = .connectError →
      s'.connectstatus = .connectError) :
    s'.AttemptInv := by
  obtain ⟨hcore, h₁, h₂, h₃⟩ := h
  rw [← htcp, ← hreq, ← hrec, ← hclosed] at h₁
  rw [← htcp, ← hasync, ← hrec, ← hclosed] at h₂
  rw [← hrec] at hstatus
  rw [← htcp, ← hrec] at h₃
  exact ⟨hcore.congr htcp hrec hreq hlog, h₁, h₂, fun hr ho => (h₃ hr ho).imp_right (hstatus hr)⟩

/-- One more recorded call that is in order. -/
theorem AttemptCore.log_append {c : ClientCall} (h : s.AttemptCore) (hc : c.AttemptOk) :
    ({ s with log := s.log ++ [c] } : TCPClient).AttemptCore := by
  refine ⟨h.data, h.reading, h.request, fun d hd => ?_⟩
  rcases List.mem_append.mp hd with hd | hd
  · exact h.logged d hd
  · rw [List.mem_singleton] at hd
    exact hd ▸ hc

/-- A call that finds what it should is added to the log. -/
theorem AttemptInv.log_append {c : ClientCall} (h : s.AttemptInv) (hc : c.AttemptOk) :
    ({ s with log := s.log ++ [c] } : TCPClient).AttemptInv :=
  ⟨h.toAttemptCore.log_append hc, h.closed, h.async, h.attempt⟩

/-- The callback of the user makes no attempt. -/
theorem attemptInv_callReconnectCb (h : s.AttemptInv) (event : NetEventType) :
    (s.callReconnectCb event).AttemptInv := by
  rw [callReconnectCb]
  split
  case isTrue => exact h.log_append trivial
  case isFalse => exact h

/-- The return of `Connect` makes no attempt. -/
theorem attemptInv_connectReturn (h : s.AttemptInv) (ok : Bool) :
    (s.connectReturn ok).AttemptInv :=
  (h.log_append (c := .connectReturn ok) trivial).congr rfl rfl rfl rfl rfl rfl fun _ => id

/-- The end of a reconnection makes no attempt. -/
theorem attemptInv_stopReconnect (h : s.AttemptInv) : s.stopReconnect.AttemptInv where
  data _ := rfl
  reading hr := ⟨(h.reading hr).1, (h.reading hr).2.1, rfl⟩
  request := h.request
  logged := h.logged
  closed hc := ⟨(h.closed hc).1, (h.closed hc).2.1, rfl⟩
  async hc ha := ⟨(h.async hc ha).1, rfl⟩
  attempt hr := by cases hr

/-- A failed `uv_tcp_init` of a handle that is not registered. -/
theorem attemptInv_uvTcpInit_error (h : s.AttemptInv) (hstate : s.tcphandle.state = .unregistered)
    {iret : ℤ} (hiret : iret ≠ 0) : (s.uvTcpInit iret).AttemptInv :=
  (h.log_append (c := .tcpInit s.tcphandle.state) hstate).congr (if_neg hiret) rfl rfl rfl rfl rfl
    fun _ => id

/-- A handle that is not registered and has no request can be initialised. -/
theorem attemptCore_freshHandle (h : s.AttemptCore) (hstate : s.tcphandle.state = .unregistered)
    (hreq : s.tcphandle.connectReq = false) : s.freshHandle.AttemptCore where
  data _ := rfl
  reading hr := by cases hr
  request := by
    have := h.request
    rwa [hreq] at this
  logged := (h.log_append (c := .tcpInit s.tcphandle.state) hstate).logged

/-- With no request on its way, `connect_req_` can be used. -/
theorem attemptCore_uvTcpConnect (h : s.AttemptCore) (hreq : s.tcphandle.connectReq = false)
    (hreading : s.tcphandle.reading = false) (iret : ℤ) : (s.uvTcpConnect iret).AttemptCore := by
  -- the invariant counts the request that is on its way
  have hzero : s.unanswered = 0 := by
    rw [h.request, hreq]
    rfl
  refine ⟨fun hs => ?_, fun hr => ?_, ?_, (h.log_append (c := .tcpConnect s.unanswered) hzero).logged⟩
  · exact (UvTcp.connect_data _ _).trans (h.data ((UvTcp.connect_state _ _).symm.trans hs))
  · cases hreading.symm.trans ((UvTcp.connect_reading _ _).symm.trans hr)
  · simp only [uvTcpConnect, UvTcp.connect, hzero]
    split
    case isTrue => rfl
    case isFalse => rw [hreq]; rfl

/-- An attempt that failed closes the handle. -/
theorem attemptCore_uvClose (h : s.AttemptCore) (cb : Option ClientCloseCb) :
    (s.uvClose cb).AttemptCore where
  data hs := by cases hs
  reading hr := by cases hr
  request := h.request
  logged := h.logged

/-! ### Connecting and closing -/

/-- `closeinl` ends the reconnection and closes the handle, of which a request may still be pending. -/
theorem attemptInv_closeinl (h : s.AttemptInv) : s.closeinl.AttemptInv := by
  rw [closeinl]
  split
  case isTrue => exact h
  case isFalse hclosed =>
    have hstop := attemptInv_stopReconnect h
    have hstate : s.stopReconnect.walkClose.tcphandle.state ≠ .opened := UvTcp.walkClose_state_ne _
    -- `uv_walk` stops reading, and leaves a request to the close
    have hreading : s.stopReconnect.walkClose.tcphandle.reading = false :=
      UvTcp.walkClose_reading _ fun hr => (h.reading hr).1
    refine ⟨⟨fun hs => absurd hs hstate, fun hr => ?_, ?_, hstop.logged⟩,
      fun hc => absurd hc hclosed, fun _ _ => ⟨hstate, rfl⟩, nofun⟩
    · cases hreading.symm.trans hr
    · have hreq : s.stopReconnect.walkClose.tcphandle.connectReq = s.tcphandle.connectReq :=
        UvTcp.walkClose_connectReq _ _
      rw [hreq]
      exact h.request

/-- The client while `Connect` sets it up: open, not reconnecting, and with no request. -/
structure Prepared (s : TCPClient) : Prop extends AttemptInv s where
  connectReq : s.tcphandle.connectReq = false
  notReading : s.tcphandle.reading = false
  notReconnecting : s.isreconnecting = false
  notClosed : s.isclosed = false

/-- `init` of a closed client leaves it closed, or prepares it. -/
theorem attemptInv_init (h : s.AttemptInv) (hclosed : s.isclosed = true) {r : InitResult}
    (htimer : r.timerInit = 0) :
    (s.init r).1.AttemptInv ∧ ((s.init r).2 = true → (s.init r).1.Prepared) := by
  obtain ⟨hstate, hzero, hrec⟩ := h.closed hclosed
  -- a closed client has no request
  have hreq : s.tcphandle.connectReq = false := by
    cases hr : s.tcphandle.connectReq with
    | false => rfl
    | true =>
      have := h.request
      rw [hr, hzero] at this
      cases this
  have hasync : s.uvAsyncInit.AttemptInv :=
    ⟨h.toAttemptCore.congr rfl rfl rfl rfl, h.closed, fun _ ha => absurd rfl ha, h.attempt⟩
  -- open already, a failure of one of three calls of libuv, or none
  rcases init_cases s r with ⟨hopen, -⟩ | ⟨-, heq | ⟨iret, hiret, heq⟩ | ⟨hne, -⟩ | heq⟩
  · cases hclosed.symm.trans hopen
  · rw [heq]
    exact ⟨h, nofun⟩
  · rw [heq]
    exact ⟨attemptInv_uvTcpInit_error hasync hstate hiret, nofun⟩
  · exact absurd htimer hne
  · have hfresh := attemptCore_freshHandle hasync.toAttemptCore hstate hreq
    have hinv : ({ s.uvAsyncInit.freshHandle.startPacket with
        reconnectTimer := s.reconnectTimer.init 0, isclosed := false } : TCPClient).AttemptInv := by
      refine ⟨hfresh.congr rfl rfl rfl rfl, nofun, fun _ ha => absurd rfl ha, fun hr => ?_⟩
      cases hrec.symm.trans hr
    rw [heq]
    exact ⟨hinv, fun _ => ⟨hinv, rfl, rfl, hrec, rfl⟩⟩

/-- The attempt of `Connect` finds a new handle without a request. -/
theorem attemptInv_startConnect (h : s.Prepared) (isIPv6 : Bool) (r : ConnectResult) :
    (s.startConnect isIPv6 r).AttemptInv := by
  have h₁ : ({ s with isIPv6 } : TCPClient).AttemptInv :=
    h.toAttemptInv.congr rfl rfl rfl rfl rfl rfl fun _ => id
  have h₂ : (({ s with isIPv6 } : TCPClient).uvTcpConnect r.tcpConnect).AttemptInv := by
    refine ⟨attemptCore_uvTcpConnect h₁.toAttemptCore h.connectReq h.notReading _, fun hc => ?_,
      fun hc ha => ?_, fun hr => ?_⟩
    · cases h.notClosed.symm.trans hc
    · obtain ⟨hstate, hrec⟩ := h₁.async hc ha
      exact ⟨fun hs => hstate ((UvTcp.connect_state _ _).symm.trans hs), hrec⟩
    · cases h.notReconnecting.symm.trans hr
  -- no address, a failure of `uv_tcp_connect` or of the thread, or none
  rcases startConnect_cases s isIPv6 r with heq | heq | heq
  · rw [heq]
    exact attemptInv_connectReturn h₁ false
  · rw [heq]
    exact attemptInv_connectReturn h₂ false
  · rw [heq]
    exact h₂.congr rfl rfl rfl rfl rfl rfl fun _ => id

/-- `closeinl` prepares an open client that has no request on its way. -/
theorem prepared_closeinl (h : s.AttemptInv) (hopen : s.isclosed = false)
    (hreq : s.tcphandle.connectReq = false) : s.closeinl.Prepared := by
  refine ⟨attemptInv_closeinl h, ?_, ?_, ?_, ?_⟩ <;>
    rw [closeinl, if_neg (Bool.eq_false_iff.mp hopen)]
  · exact (UvTcp.walkClose_connectReq _ _).trans hreq
  · exact UvTcp.walkClose_reading _ fun hr => (h.reading hr).1
  · rfl
  · exact hopen

/-- What `Connect` and `Connect6` do after `closeinl` and `init`. -/
theorem attemptInv_afterInit {r : ConnectResult} (hinit : (s.closeinl.init r.toInitResult).1.AttemptInv)
    (hok : (s.closeinl.init r.toInitResult).2 = true → (s.closeinl.init r.toInitResult).1.Prepared)
    (isIPv6 : Bool) : (s.connectTo isIPv6 r).AttemptInv := by
  rcases connectTo_cases s isIPv6 r with heq | ⟨htrue, heq⟩
  · rw [heq]
    exact attemptInv_connectReturn hinit false
  · rw [heq]
    exact attemptInv_startConnect (hok htrue) isIPv6 r

/-- `Connect` and `Connect6` make their attempt when the condition holds. -/
theorem attemptInv_connectTo (h : s.AttemptInv) (isIPv6 : Bool) {r : ConnectResult}
    (hc : s.FiresIdle (.connect r)) : (s.connectTo isIPv6 r).AttemptInv := by
  obtain ⟨htimer, hreq⟩ := hc
  cases hclosed : s.isclosed with
  | true =>
    have hcloseinl : s.closeinl = s := if_pos hclosed
    have hinit := attemptInv_init (r := r.toInitResult) h hclosed (htimer hclosed)
    rw [← hcloseinl] at hinit
    exact attemptInv_afterInit hinit.1 hinit.2 isIPv6
  | false =>
    have hprepared := prepared_closeinl h hclosed (hreq hclosed)
    -- `init` has nothing to do
    have hinit : s.closeinl.init r.toInitResult = (s.closeinl, true) := by
      rw [init, hprepared.notClosed]
      rfl
    refine attemptInv_afterInit ?_ (fun _ => ?_) isIPv6
    · rw [hinit]
      exact hprepared.toAttemptInv
    · rw [hinit]
      exact hprepared

/-- The wait loop goes on, or returns without hiding a failed attempt. -/
theorem attemptInv_connectSlept (h : s.AttemptInv) (hc : s.FiresIdle .connectSlept) :
    s.connectSlept.AttemptInv := by
  rcases s.connectSlept_cases with ⟨-, heq⟩ | ⟨hup, heq⟩
  · rw [heq]
    exact h.congr rfl rfl rfl rfl rfl rfl fun _ => id
  · have hslept : ({ s with
        asleep := false
        waitCount := s.waitCount + 1
        connectstatus := .connectTimeout } : TCPClient).AttemptInv :=
      h.congr rfl rfl rfl rfl rfl rfl fun hrec herror =>
        absurd (hc hrec herror) (Nat.not_lt_of_le hup)
    rw [heq]
    exact attemptInv_connectReturn hslept false

/-! ### The callbacks -/

/-- An open handle keeps the client and the async handle open. -/
theorem isclosed_of_opened (h : s.AttemptInv) (hstate : s.tcphandle.state = .opened) :
    s.isclosed = false ∧ s.asyncHandle.state = .opened := by
  have hopen : s.isclosed = false := by
    cases hc : s.isclosed with
    | false => rfl
    | true => cases hstate.symm.trans (h.closed hc).1
  -- while the client is open, the async handle closes only with the others
  exact ⟨hopen, by_contra fun ha => (h.async hopen ha).1 hstate⟩

/-- A client that has nothing under way, with an open handle. -/
theorem attemptInv_idle (hopen : s.isclosed = false ∧ s.asyncHandle.state = .opened)
    (hstate : s.tcphandle.state = .opened) (hdata : s.tcphandle.data = some .tcpClientCtx)
    (hreq : s.tcphandle.connectReq = false) (hzero : s.unanswered = 0)
    (hrec : s.isreconnecting = false) (hlog : ∀ c ∈ s.log, c.AttemptOk) : s.AttemptInv where
  data _ := hdata
  reading _ := ⟨hstate, hreq, hrec⟩
  request := by rw [hzero, hreq]; rfl
  logged := hlog
  closed hc := by cases hopen.1.symm.trans hc
  async _ ha := absurd hopen.2 ha
  attempt hr := by cases hrec.symm.trans hr

/-- While the client is open, the invariant is about the handle and the request only. -/
theorem attemptInv_of_open (hcore : s.AttemptCore)
    (hopen : s.isclosed = false ∧ s.asyncHandle.state = .opened)
    (hattempt : s.tcphandle.state = .opened →
      s.tcphandle.connectReq = true ∨ s.connectstatus = .connectError) : s.AttemptInv := by
  refine ⟨hcore, fun hc => ?_, fun _ ha => absurd hopen.2 ha, fun _ => hattempt⟩
  cases hopen.1.symm.trans hc

/-- The request that was under way is answered. -/
theorem attemptInv_answerConnect (h : s.AttemptInv) (hstate : s.tcphandle.state = .opened)
    (hreq : s.tcphandle.connectReq = true) (status readStart : ℤ) :
    (s.answerConnect status readStart).AttemptInv := by
  have hopen := isclosed_of_opened h hstate
  have hdata := h.data hstate
  have hzero : s.unanswered - 1 = 0 := by
    rw [h.request, hreq]
    rfl
  have hlog := (h.log_append (c := .callback .afterConnect s.tcphandle.data) trivial).logged
  have hread : ((s.answered.callback .afterConnect).startReading readStart).tcphandle.state =
    .opened := (UvTcp.readStart_state _ _).trans hstate
  have hreq' : ((s.answered.callback .afterConnect).startReading readStart).tcphandle.connectReq =
    false := UvTcp.readStart_connectReq _ _
  rw [answerConnect]
  rcases afterConnect_cases (s := s.answered) hdata status readStart with
    ⟨-, -, heq⟩ | ⟨-, hrec, heq⟩ | ⟨-, -, heq⟩ | ⟨-, hrec, heq⟩
  · -- the handle stays open, and the status says so
    rw [heq]
    refine attemptInv_of_open ⟨h.data, fun hr => ?_, hzero, hlog⟩ hopen fun _ => .inr rfl
    cases hreq.symm.trans (h.reading hr).2.1
  -- a first call: `Connect` will see the status
  · rw [heq]
    exact attemptInv_idle hopen hstate hdata rfl hzero hrec hlog
  · rw [heq]
    refine attemptInv_callReconnectCb ?_ _
    exact attemptInv_idle hopen hread rfl hreq' hzero rfl hlog
  · rw [heq]
    exact attemptInv_idle hopen hread ((UvTcp.readStart_data _ _).trans hdata) hreq' hzero hrec hlog

/-- A disconnection is found on a handle that is being read, and so has no request. -/
theorem attemptInv_afterRecvError (h : s.AttemptInv) (hreading : s.tcphandle.reading = true) :
    s.afterRecvError.AttemptInv := by
  have hcall := attemptInv_callReconnectCb h .disconnect
  have htcp : (s.callReconnectCb .disconnect).tcphandle = s.tcphandle := by
    obtain ⟨log, heq⟩ := s.callReconnectCb_eq .disconnect
    rw [heq]
  obtain ⟨hstate, -, -⟩ := h.reading hreading
  have hopen := isclosed_of_opened hcall (htcp ▸ hstate)
  refine ⟨⟨nofun, nofun, hcall.request, hcall.logged⟩, fun hc => ?_, fun _ ha => absurd hopen.2 ha,
    nofun⟩
  cases hopen.1.symm.trans hc

/-- A read makes no attempt, and after an error the handle is closed. -/
theorem attemptInv_afterRecv (h : s.AttemptInv) (hreading : s.tcphandle.reading = true)
    {host : Host} {nread : Option (List UInt8)} {s' : TCPClient}
    (hrecv : s.afterRecv host nread = some s') : s'.AttemptInv := by
  have hcall : ((s.callback .allocBufferForRecv).callback .afterRecv).AttemptInv :=
    AttemptInv.log_append (h.log_append (c := .callback .allocBufferForRecv s.tcphandle.data) trivial)
      (c := .callback .afterRecv s.tcphandle.data) trivial
  rcases afterRecv_cases hrecv with ⟨-, rfl⟩ | ⟨-, ⟨-, rfl⟩ | ⟨-, rfl⟩ | ⟨_, packet, _, -, -, rfl⟩⟩
  · exact hcall
  · exact attemptInv_afterRecvError hcall hreading
  · exact hcall
  · exact hcall.congr rfl rfl rfl rfl rfl rfl fun _ => id

/-- A client that is reconnecting is open, as is its async handle. -/
theorem isclosed_of_isreconnecting (h : s.AttemptInv) (hrec : s.isreconnecting = true) :
    s.isclosed = false ∧ s.asyncHandle.state = .opened := by
  have hopen : s.isclosed = false := by
    cases hc : s.isclosed with
    | false => rfl
    | true => cases hrec.symm.trans (h.closed hc).2.2
  refine ⟨hopen, by_contra fun ha => ?_⟩
  cases hrec.symm.trans (h.async hopen ha).2

/-- The timer fires when nothing is under way. -/
theorem attemptInv_reconnectTimerCb (h : s.AttemptInv)
    (hidle : s.isreconnecting = true → s.connectstatus ≠ .connectError ∧
      s.tcphandle.connectReq = false ∧ s.tcphandle.state.isClosing = false) (r : AttemptResult) :
    (s.reconnectTimerCb r).AttemptInv := by
  rcases reconnectTimerCb_cases s r with ⟨-, heq⟩ | ⟨hrec, hcases⟩
  · rw [heq]
    exact h
  obtain ⟨hstatus, hreq, hclosing⟩ := hidle hrec
  have hopen := isclosed_of_isreconnecting h hrec
  -- an open handle would have an attempt under way
  have hstate : s.tcphandle.state = .unregistered := by
    cases hs : s.tcphandle.state with
    | unregistered => rfl
    | opened => cases hreq.symm.trans ((h.attempt hrec hs).resolve_right hstatus)
    | closing cb =>
      rw [hs] at hclosing
      cases hclosing
  have hfresh := attemptCore_freshHandle h.toAttemptCore hstate hreq
  have hconn := attemptCore_uvTcpConnect hfresh rfl rfl
  rcases hcases with ⟨iret, hiret, heq⟩ | heq | ⟨iret, -, heq⟩ | heq
  · rw [heq]
    exact (attemptInv_uvTcpInit_error h hstate hiret).congr rfl rfl rfl rfl rfl rfl fun _ => id
  · rw [heq]
    exact attemptInv_of_open
      ((attemptCore_uvClose hfresh none).congr rfl rfl rfl rfl) hopen nofun
  · rw [heq]
    exact attemptInv_of_open
      ((attemptCore_uvClose (hconn iret) none).congr rfl rfl rfl rfl) hopen nofun
  · rw [heq]
    exact attemptInv_of_open (hconn 0) hopen fun _ => .inl rfl

/-! ### The end of a close -/

/-- A close cancels the request of the handle, if it has one. -/
theorem attemptInv_streamDestroy (h : s.AttemptInv) (hs : s.tcphandle.state ≠ .opened) :
    s.streamDestroy.AttemptInv := by
  rw [streamDestroy]
  split
  case isFalse => exact h
  case isTrue hreq =>
    have hzero : s.unanswered - 1 = 0 := by
      rw [h.request, hreq]
      rfl
    have hanswered : s.answered.AttemptInv :=
      ⟨⟨h.data, fun hr => absurd (h.reading hr).1 hs, hzero, h.logged⟩,
        fun hc => ⟨(h.closed hc).1, hzero, (h.closed hc).2.2⟩, h.async, fun _ ho => absurd ho hs⟩
    obtain ⟨_, _, _, heq⟩ := afterConnect_error s.answered (show uvEcanceled ≠ 0 by decide) 0
    rw [answerConnect, heq]
    exact ⟨(hanswered.toAttemptCore.log_append
      (c := .callback .afterConnect s.tcphandle.data) trivial).congr rfl rfl rfl rfl,
      hanswered.closed, hanswered.async, fun _ ho => absurd ho hs⟩

/-- A handle whose close has completed can be initialised again. -/
theorem attemptInv_closed (h : s.AttemptInv) (hs : s.tcphandle.state ≠ .opened) :
    ({ s with tcphandle := s.tcphandle.closed } : TCPClient).AttemptInv where
  data ho := by cases ho
  reading hr := absurd (h.reading hr).1 hs
  request := h.request
  logged := h.logged
  closed hc := ⟨rfl, (h.closed hc).2⟩
  async hc ha := ⟨nofun, (h.async hc ha).2⟩
  attempt _ ho := by cases ho

/-- The end of a close cancels the request, and starts the timer. -/
theorem attemptInv_tcpClosed (h : s.AttemptInv) {cb : Option ClientCloseCb}
    (hs : s.tcphandle.state = .closing cb) (timerStart : ℤ) :
    (s.tcpClosed cb timerStart).AttemptInv := by
  have hnot : s.tcphandle.state ≠ .opened := by
    rw [hs]
    exact nofun
  have hclosed := attemptInv_closed (attemptInv_streamDestroy h hnot)
    (by rw [streamDestroy_tcphandle]; exact hnot)
  cases cb with
  | none => exact hclosed
  | some cb =>
    obtain ⟨_, heq⟩ := afterClientClose_eq
      { s.streamDestroy with tcphandle := s.streamDestroy.tcphandle.closed } timerStart
    simp only [tcpClosed, heq]
    exact (hclosed.log_append
      (c := .callback .afterClientClose s.streamDestroy.tcphandle.data) trivial).congr
      rfl rfl rfl rfl rfl rfl fun _ => id

/-! ### Runs -/

/-- `AsyncCB` closes the handles when the user has asked for it. -/
theorem attemptInv_asyncCB (h : s.AttemptInv) : s.asyncCB.AttemptInv := by
  have h₁ : ({ s with asyncHandle := s.asyncHandle.received } : TCPClient).AttemptInv :=
    h.congr rfl rfl rfl rfl rfl rfl fun _ => id
  rw [asyncCB]
  split
  case isTrue => exact attemptInv_closeinl h₁
  case isFalse => exact h₁

/-- A loop that ends has no active handle and none that is being closed: `closeinl` has closed them, and
`isclosed_` is set only now. -/
theorem unregistered_of_not_alive (h : s.AttemptInv) (halive : s.loopAlive = false) :
    s.tcphandle.state = .unregistered ∧ s.isreconnecting = false := by
  obtain ⟨hasync, -, -, hclosing⟩ := loopAlive_eq_false halive
  cases hopen : s.isclosed with
  | true => exact ⟨(h.closed hopen).1, (h.closed hopen).2.2⟩
  | false =>
    obtain ⟨hnot, hrec⟩ := h.async hopen hasync
    refine ⟨?_, hrec⟩
    cases hs : s.tcphandle.state with
    | unregistered => rfl
    | opened => exact absurd hs hnot
    | closing cb =>
      rw [hs] at hclosing
      cases hclosing

/-- Every step that meets the condition preserves the invariant. -/
theorem attemptInv_step (host : Host) (s : TCPClient) (e : ClientEvent) (s' : TCPClient)
    (h : s.AttemptInv) (hc : s.FiresIdle e) (hstep : s.step host e = some s') :
    s'.AttemptInv := by
  cases steps_of_step hstep with
  | setReconnectCB | connectWait | send | timerClosed =>
    exact h.congr rfl rfl rfl rfl rfl rfl fun _ => id
  | connect r => exact attemptInv_connectTo h false hc
  | connect6 r => exact attemptInv_connectTo h true hc
  | connectSlept => exact attemptInv_connectSlept h hc
  | connectWaited => exact attemptInv_connectReturn h _
  | close =>
    rw [close]
    split <;> exact h.congr rfl rfl rfl rfl rfl rfl fun _ => id
  | asyncCB => exact attemptInv_asyncCB h
  | afterConnect status readStart _ hopened hreq =>
    exact attemptInv_answerConnect h hopened hreq status readStart
  | afterRecv nread _ _ _ hreading hrecv => exact attemptInv_afterRecv h hreading hrecv
  | reconnectTimer r => exact attemptInv_reconnectTimerCb h hc r
  | tcpClosed cb timerStart _ hs => exact attemptInv_tcpClosed h hs timerStart
  | asyncClosed cb _ hclosing =>
    refine ⟨h.toAttemptCore.congr rfl rfl rfl rfl, h.closed, fun hopen _ => ?_, h.attempt⟩
    -- the handle was not open before the end of its close either
    refine h.async hopen fun hopened => ?_
    cases hclosing.symm.trans hopened
  | loopExit _ halive =>
    obtain ⟨hunregistered, hrec⟩ := unregistered_of_not_alive h halive
    obtain ⟨-, -, hzero, -⟩ := loopAlive_eq_false halive
    exact ⟨h.toAttemptCore.congr rfl rfl rfl rfl, fun _ => ⟨hunregistered, hzero, hrec⟩, nofun,
      h.attempt⟩

end TCPClient

/-- **One attempt at a time**, in every run in which the timer never fires after a failed `AfterConnect`,
during an attempt or during a close, and in which `Connect` does not meet a pending request, a
`uv_timer_init` that fails or, at the end of its wait, a failed attempt: `uv_tcp_init` finds a handle that
is not registered, and `uv_tcp_connect` a request that is not pending. -/
theorem one_attempt_at_a_time (host : Host) (packhead packtail : UInt8) (u : Indeterminate)
    (es : List ClientEvent) (s : TCPClient)
    (hcond : Along (TCPClient.step host) TCPClient.FiresIdle (.new packhead packtail u) es)
    (hrun : run (TCPClient.step host) (.new packhead packtail u) es = some s) :
    (∀ state, .tcpInit state ∈ s.log → state = .unregistered) ∧
      ∀ unanswered, .tcpConnect unanswered ∈ s.log → unanswered = 0 := by
  have h : s.AttemptInv := run_invariant_along (TCPClient.attemptInv_step host)
    (TCPClient.attemptInv_new packhead packtail u) hcond hrun
  exact ⟨fun state hmem => h.logged _ hmem, fun unanswered hmem => h.logged _ hmem⟩

/-- Two disconnections, each followed by an attempt that succeeds; the second attempt follows one whose
address could not be parsed. -/
theorem one_attempt_at_a_time_two_disconnections : ∃ s,
    run (TCPClient.step .little) (.new 1 2 default)
      [.connect default, .afterConnect 0 0, .connectWaited, .afterRecv none, .tcpClosed 0,
        .reconnectTimer default, .afterConnect 0 0, .afterRecv none, .tcpClosed 0,
        .reconnectTimer ⟨0, -22, 0, 0⟩, .tcpClosed 0, .reconnectTimer default, .afterConnect 0 0] =
        some s ∧
    (∀ state, .tcpInit state ∈ s.log → state = .unregistered) ∧
      ∀ unanswered, .tcpConnect unanswered ∈ s.log → unanswered = 0 :=
  ⟨_, rfl, one_attempt_at_a_time .little 1 2 default
    [.connect default, .afterConnect 0 0, .connectWaited, .afterRecv none, .tcpClosed 0,
      .reconnectTimer default, .afterConnect 0 0, .afterRecv none, .tcpClosed 0,
      .reconnectTimer ⟨0, -22, 0, 0⟩, .tcpClosed 0, .reconnectTimer default, .afterConnect 0 0]
    _ (by decide) rfl⟩

/-- **The timer does not wait for an attempt.** After a refused attempt the next tick initialises a
handle that is open, and a tick during an attempt uses the request that is pending. -/
theorem reconnectTimer_reuses_handle :
    (¬ ∀ (es : List ClientEvent) (s : TCPClient),
      run (TCPClient.step .little) (.new 1 2 default) es = some s →
        ∀ state, .tcpInit state ∈ s.log → state = .unregistered) ∧
    ¬ ∀ (es : List ClientEvent) (s : TCPClient),
      run (TCPClient.step .little) (.new 1 2 default) es = some s →
        ∀ unanswered, .tcpConnect unanswered ∈ s.log → unanswered = 0 := by
  constructor
  · intro h
    have hstate := h [.connect default, .afterConnect 0 0, .connectWaited, .afterRecv none,
      .tcpClosed 0, .reconnectTimer default, .afterConnect (-111) 0, .reconnectTimer default]
      _ rfl .opened (by decide)
    cases hstate
  · intro h
    have hzero := h [.connect default, .afterConnect 0 0, .connectWaited, .afterRecv none,
      .tcpClosed 0, .reconnectTimer default, .reconnectTimer default] _ rfl 1 (by decide)
    cases hzero

end MyUvpp
