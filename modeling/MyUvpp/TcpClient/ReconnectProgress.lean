import MyUvpp.TcpClient.Lifecycle

/-! # Reconnecting makes progress

From the first disconnection to the user's `Close` something always remains that will go on: while the
client is reconnecting, `AfterRecv` hands over to the close of the handle, `AfterClientClose` to the
timer, and the timer keeps firing until `AfterConnect` has started to read; afterwards the client is
connected. The one exception is an `AfterConnect` whose `uv_read_start` fails: it ends the reconnection
and reports it to the user all the same. -/

namespace MyUvpp

/-- A reconnection is reported only when the client is connected. -/
def ClientCall.ReportOk : ClientCall → Prop
  | .reconnectCb .reconnect status => status = .connectFinish
  | _ => True

namespace TCPClient

/-- Between the first disconnection and the user's `Close`. -/
def Disconnected (s : TCPClient) : Prop := s.disconnected = true ∧ s.isuseraskforclosed = false

/-- `connectstatus_` says that the client is connected, or the wait loop of `Connect` has written over it
when its time was up. -/
def Finished (s : TCPClient) : Prop :=
  s.connectstatus = .connectFinish ∨ s.connectstatus = .connectTimeout ∧ 100 < s.waitCount

/-- The client is connected and reads. -/
def Connected (s : TCPClient) : Prop :=
  s.Finished ∧ s.tcphandle.state = .opened ∧ s.tcphandle.reading = true

/-- A close of `tcphandle` is pending, the timer is armed, a connect request is in flight, or the
client is connected. -/
def Progresses (s : TCPClient) : Prop :=
  s.tcphandle.state.isClosing = true ∨ s.reconnectTimer.armed = true ∨
    s.tcphandle.connectReq = true ∨ s.Connected

/-- A close of `tcphandle` that goes on with the timer. -/
def ClosesToReconnect (s : TCPClient) : Prop :=
  s.tcphandle.state = .closing (some .afterClientClose) ∧ s.tcphandle.data = some .tcpClient

/-- Who goes on: the pending close or the timer while the client is reconnecting, and nobody needs to
once it is connected. A call of `Connect` leaves the handle to its close. -/
structure Alive (s : TCPClient) : Prop where
  reconnecting : s.isreconnecting = true → s.ClosesToReconnect ∨ s.reconnectTimer.armed = true
  connected : s.isreconnecting = false →
    s.tcphandle.state.isClosing = true ∨ s.Connected ∧ s.tcphandle.connectReq = false

/-- The invariant of reconnecting. -/
structure ProgressInv (s : TCPClient) : Prop where
  alive : s.Disconnected → s.Alive
  logged : ∀ c ∈ s.log, c.ReportOk

/-- Where an attempt to reconnect succeeds, so does `uv_read_start`; the timer can be started. After a
disconnection, `Connect` is called while the client is open and its handle registered, so that it closes
the handle; and no close completes but those that belong to the reconnection. -/
def ReadsOnReconnect (s : TCPClient) : ClientEvent → Prop
  | .connect _ | .connect6 _ =>
    s.Disconnected → s.isclosed = false ∧ s.tcphandle.state ≠ .unregistered
  | .afterConnect status readStart => s.isreconnecting = true → status = 0 → readStart = 0
  | .tcpClosed timerStart => timerStart = 0 ∧ (s.Disconnected → s.isreconnecting = true)
  | _ => True

/-- Whether the client is disconnected can be decided. -/
instance (s : TCPClient) : Decidable s.Disconnected := inferInstanceAs (Decidable (_ ∧ _))

/-- Whether the reconnection has come to its end can be decided. -/
instance (s : TCPClient) : Decidable s.Finished := inferInstanceAs (Decidable (_ ∨ _ ∧ _))

/-- Whether the client is connected can be decided. -/
instance (s : TCPClient) : Decidable s.Connected := inferInstanceAs (Decidable (_ ∧ _ ∧ _))

/-- Whether a disconnected client makes progress can be decided. -/
instance (s : TCPClient) : Decidable s.Progresses := inferInstanceAs (Decidable (_ ∨ _ ∨ _ ∨ _))

/-- Whether an event meets the condition can be decided. -/
instance (s : TCPClient) : DecidablePred s.ReadsOnReconnect
  | .connect _ | .connect6 _ => inferInstanceAs (Decidable (_ → _ ∧ _))
  | .afterConnect _ _ => inferInstanceAs (Decidable (_ → _ → _))
  | .tcpClosed _ => inferInstanceAs (Decidable (_ ∧ (_ → _)))
  | .setReconnectCB | .connectWait | .connectSlept | .connectWaited | .send | .close | .asyncCB
  | .afterRecv _ | .reconnectTimer _ | .asyncClosed | .timerClosed | .loopExit =>
    inferInstanceAs (Decidable True)

/-- A new client is not disconnected, and has reported nothing. -/
theorem progressInv_new (packhead packtail : UInt8) (u : Indeterminate) :
    (new packhead packtail u).ProgressInv where
  alive h := by cases h.1
  logged c hc := absurd hc List.not_mem_nil

variable {s : TCPClient}

/-- **Somebody goes on.** -/
theorem Alive.progresses (h : s.Alive) : s.Progresses := by
  cases hrec : s.isreconnecting with
  | false =>
    rcases h.connected hrec with hclosing | ⟨hconn, -⟩
    · exact .inl hclosing
    · exact .inr (.inr (.inr hconn))
  | true =>
    -- the handle is being closed for the reconnection, or the timer fires
    rcases h.reconnecting hrec with ⟨hs, -⟩ | harmed
    · refine .inl ?_
      rw [hs]
      rfl
    · exact .inr (.inl harmed)

/-- A client that differs in other fields only. -/
theorem Alive.congr {s' : TCPClient} (h : s.Alive) (htcp : s'.tcphandle = s.tcphandle)
    (hrec : s'.isreconnecting = s.isreconnecting) (htimer : s'.reconnectTimer = s.reconnectTimer)
    (hstatus : s.Finished → s'.Finished) : s'.Alive := by
  refine ⟨fun hr => ?_, fun hr => ?_⟩
  · rw [ClosesToReconnect, htcp, htimer]
    exact h.reconnecting (hrec.symm.trans hr)
  · rw [Connected, htcp]
    exact (h.connected (hrec.symm.trans hr)).imp_right fun ⟨⟨hfinish, hconn⟩, hreq⟩ =>
      ⟨⟨hstatus hfinish, hconn⟩, hreq⟩

/-- While the client is reconnecting, an armed timer is enough. -/
theorem alive_of_armed (hrec : s.isreconnecting = true) (harmed : s.reconnectTimer.armed = true) :
    s.Alive :=
  ⟨fun _ => .inr harmed, fun h => by cases hrec.symm.trans h⟩

/-! ### The parts of the methods -/

/-- One more recorded call that is in order. -/
theorem reportOk_append {log : List ClientCall} {c : ClientCall} (h : ∀ d ∈ log, d.ReportOk)
    (hc : c.ReportOk) : ∀ d ∈ log ++ [c], d.ReportOk := by
  intro d hd
  rcases List.mem_append.mp hd with hd | hd
  · exact h d hd
  · rw [List.mem_singleton] at hd
    exact hd ▸ hc

/-- What `Connect` does up to its connect request is not between the two calls: it leaves the window as
it was, and reports nothing. -/
structure Quiet (s s' : TCPClient) : Prop where
  disconnected : s'.disconnected = s.disconnected
  userclosed : s'.isuseraskforclosed = s.isuseraskforclosed
  logged : (∀ c ∈ s.log, c.ReportOk) → ∀ c ∈ s'.log, c.ReportOk

namespace Quiet

/-- Two steps that are quiet are so one after the other. -/
theorem trans {s₁ s₂ s₃ : TCPClient} (h : Quiet s₁ s₂) (h' : Quiet s₂ s₃) : Quiet s₁ s₃ :=
  ⟨h'.disconnected.trans h.disconnected, h'.userclosed.trans h.userclosed, h'.logged ∘ h.logged⟩

/-- A step that leaves the window and the log alone. -/
theorem of_eq {s' : TCPClient} (hd : s'.disconnected = s.disconnected)
    (hu : s'.isuseraskforclosed = s.isuseraskforclosed) (hlog : s'.log = s.log) : Quiet s s' :=
  ⟨hd, hu, fun h => hlog ▸ h⟩

/-- `uv_tcp_init` is quiet. -/
theorem uvTcpInit (s : TCPClient) (iret : ℤ) : Quiet s (s.uvTcpInit iret) :=
  ⟨rfl, rfl, fun h => reportOk_append h trivial⟩

/-- `uv_tcp_connect` is quiet. -/
theorem uvTcpConnect (s : TCPClient) (iret : ℤ) : Quiet s (s.uvTcpConnect iret) :=
  ⟨rfl, rfl, fun h => reportOk_append h trivial⟩

/-- A callback of libuv is recorded. -/
theorem callback (s : TCPClient) (cb : TcpCallback) : Quiet s (s.callback cb) :=
  ⟨rfl, rfl, fun h => reportOk_append h trivial⟩

/-- The return of `Connect` is recorded. -/
theorem connectReturn (s : TCPClient) (ok : Bool) : Quiet s (s.connectReturn ok) :=
  ⟨rfl, rfl, fun h => reportOk_append h trivial⟩

/-- A report that is in order. -/
theorem callReconnectCb (s : TCPClient) (event : NetEventType)
    (hevent : ClientCall.ReportOk (.reconnectCb event s.connectstatus)) :
    Quiet s (s.callReconnectCb event) := by
  rw [TCPClient.callReconnectCb]
  split
  case isTrue => exact ⟨rfl, rfl, fun h => reportOk_append h hevent⟩
  case isFalse => exact of_eq rfl rfl rfl

/-- `closeinl` is quiet: the flag of the user stays. -/
theorem closeinl (s : TCPClient) : Quiet s s.closeinl := by
  rw [TCPClient.closeinl]
  split <;> exact of_eq rfl rfl rfl

/-- A new handle is quiet. -/
theorem freshHandle (s : TCPClient) : Quiet s s.freshHandle :=
  (uvTcpInit s 0).trans (of_eq rfl rfl rfl)

/-- `init` is quiet. -/
theorem init (s : TCPClient) (r : InitResult) : Quiet s (s.init r).1 := by
  have hasync : Quiet s s.uvAsyncInit := of_eq rfl rfl rfl
  have hfresh := hasync.trans (freshHandle s.uvAsyncInit)
  rcases init_cases s r with ⟨-, heq⟩ | ⟨-, heq | ⟨iret, -, heq⟩ | ⟨-, heq⟩ | heq⟩
  · rw [heq]
    exact of_eq rfl rfl rfl
  · rw [heq]
    exact of_eq rfl rfl rfl
  · rw [heq]
    exact hasync.trans (uvTcpInit _ iret)
  · rw [heq]
    exact hfresh.trans (of_eq rfl rfl rfl)
  · rw [heq]
    exact hfresh.trans (of_eq rfl rfl rfl)

/-- The attempt of `Connect` is quiet. -/
theorem startConnect (s : TCPClient) (isIPv6 : Bool) (r : ConnectResult) :
    Quiet s (s.startConnect isIPv6 r) := by
  have h₁ : Quiet s { s with isIPv6 } := of_eq rfl rfl rfl
  have h₂ := h₁.trans (uvTcpConnect _ r.tcpConnect)
  rcases startConnect_cases s isIPv6 r with heq | heq | heq
  · rw [heq]
    exact h₁.trans (connectReturn _ false)
  · rw [heq]
    exact h₂.trans (connectReturn _ false)
  · rw [heq]
    exact h₂.trans (of_eq rfl rfl rfl)

/-- `Connect` and `Connect6` are quiet. -/
theorem connectTo (s : TCPClient) (isIPv6 : Bool) (r : ConnectResult) :
    Quiet s (s.connectTo isIPv6 r) := by
  have hinit := (closeinl s).trans (init s.closeinl r.toInitResult)
  rcases connectTo_cases s isIPv6 r with heq | ⟨-, heq⟩
  · rw [heq]
    exact hinit.trans (connectReturn _ false)
  · rw [heq]
    exact hinit.trans (startConnect _ isIPv6 r)

/-- The timer is quiet: it reports nothing. -/
theorem reconnectTimerCb (s : TCPClient) (r : AttemptResult) : Quiet s (s.reconnectTimerCb r) := by
  have hfresh := freshHandle s
  rcases reconnectTimerCb_cases s r with
    ⟨-, heq⟩ | ⟨-, ⟨iret, -, heq⟩ | heq | ⟨iret, -, heq⟩ | heq⟩
  · rw [heq]
    exact of_eq rfl rfl rfl
  · rw [heq]
    exact (uvTcpInit s iret).trans (of_eq rfl rfl rfl)
  · rw [heq]
    exact hfresh.trans (of_eq rfl rfl rfl)
  · rw [heq]
    exact (hfresh.trans (uvTcpConnect _ iret)).trans (of_eq rfl rfl rfl)
  · rw [heq]
    exact hfresh.trans (uvTcpConnect _ 0)

/-- `AfterClientClose` is quiet. -/
theorem afterClientClose (s : TCPClient) (timerStart : ℤ) :
    Quiet s (s.afterClientClose timerStart) := by
  obtain ⟨_, heq⟩ := afterClientClose_eq s timerStart
  rw [heq]
  exact (callback s _).trans (of_eq rfl rfl rfl)

/-- The request that a close cancels is reported as an error. -/
theorem streamDestroy (s : TCPClient) : Quiet s s.streamDestroy := by
  rw [TCPClient.streamDestroy]
  split
  case isTrue =>
    obtain ⟨_, _, _, heq⟩ := afterConnect_error s.answered (show uvEcanceled ≠ 0 by decide) 0
    have hanswered : Quiet s s.answered := of_eq rfl rfl rfl
    rw [answerConnect, heq]
    exact hanswered.trans ((callback _ _).trans (of_eq rfl rfl rfl))
  case isFalse => exact of_eq rfl rfl rfl

/-- So is the end of the close as a whole. -/
theorem tcpClosed (s : TCPClient) (cb : Option ClientCloseCb) (timerStart : ℤ) :
    Quiet s (s.tcpClosed cb timerStart) := by
  have hclosed : Quiet s { s.streamDestroy with tcphandle := s.streamDestroy.tcphandle.closed } :=
    (streamDestroy s).trans (of_eq rfl rfl rfl)
  cases cb with
  | none => exact hclosed
  | some cb => exact hclosed.trans (afterClientClose _ timerStart)

/-- Where reading starts, the report of a reconnection is in order. -/
theorem answerConnect (s : TCPClient) {status readStart : ℤ}
    (hread : s.isreconnecting = true → status = 0 → readStart = 0) :
    Quiet s (s.answerConnect status readStart) := by
  have hanswered : Quiet s s.answered := of_eq rfl rfl rfl
  have hcall : Quiet s (s.answered.callback .afterConnect) := hanswered.trans (callback _ _)
  rw [TCPClient.answerConnect]
  by_cases hdata : s.answered.tcphandle.data = some .tcpClientCtx
  · rcases afterConnect_cases hdata status readStart with
      ⟨-, -, heq⟩ | ⟨-, -, heq⟩ | ⟨hzero, hrec, heq⟩ | ⟨-, -, heq⟩
    · rw [heq]
      exact hcall.trans (of_eq rfl rfl rfl)
    · rw [heq]
      exact hcall.trans (of_eq rfl rfl rfl)
    · rw [heq, hread hrec hzero]
      have hstop : Quiet s ((s.answered.callback .afterConnect).startReading 0).stopReconnect :=
        hcall.trans (of_eq rfl rfl rfl)
      exact hstop.trans (callReconnectCb _ .reconnect rfl)
    · rw [heq]
      exact hcall.trans (of_eq rfl rfl rfl)
  · rw [afterConnect_of_data_ne hdata]
    exact hcall

end Quiet

/-- A quiet step preserves the invariant, if in the window somebody still goes on. -/
theorem ProgressInv.of_quiet {s' : TCPClient} (h : s.ProgressInv) (hq : Quiet s s')
    (halive : s.Disconnected → s.Alive → s'.Alive) : s'.ProgressInv := by
  refine ⟨fun hd => ?_, hq.logged h.logged⟩
  rw [Disconnected, hq.disconnected, hq.userclosed] at hd
  exact halive hd (h.alive hd)

/-! ### The calls of the user -/

/-- `Connect` closes the handle of an open client, and stops reconnecting. -/
theorem alive_connectTo (hopen : s.isclosed = false) (hstate : s.tcphandle.state ≠ .unregistered)
    (isIPv6 : Bool) (r : ConnectResult) : (s.connectTo isIPv6 r).Alive := by
  have hcloseinl : s.closeinl = s.stopReconnect.walkClose := if_neg (Bool.eq_false_iff.mp hopen)
  have hclosed : s.stopReconnect.walkClose.isclosed = false := hopen
  have hinit : s.closeinl.init r.toInitResult = (s.stopReconnect.walkClose, true) := by
    rw [hcloseinl, init, hclosed]
    rfl
  have hclosing : s.stopReconnect.walkClose.tcphandle.state.isClosing = true :=
    UvTcp.walkClose_isClosing _ hstate
  -- the rest of the call does not touch the close
  have hrest : (s.connectTo isIPv6 r).isreconnecting = false ∧
      (s.connectTo isIPv6 r).tcphandle.state = s.stopReconnect.walkClose.tcphandle.state := by
    rcases connectTo_cases s isIPv6 r with heq | ⟨-, heq⟩
    · rw [heq, hinit]
      exact ⟨rfl, rfl⟩
    · rw [heq, hinit]
      rcases startConnect_cases s.stopReconnect.walkClose isIPv6 r with hstart | hstart | hstart <;>
        rw [hstart]
      · exact ⟨rfl, rfl⟩
      · exact ⟨rfl, UvTcp.connect_state _ _⟩
      · exact ⟨rfl, UvTcp.connect_state _ _⟩
  refine ⟨fun hr => ?_, fun _ => .inl ?_⟩
  · cases hrest.1.symm.trans hr
  · rw [hrest.2, hclosing]

/-- The wait loop of `Connect` writes over the status only when its time is up. -/
theorem alive_connectSlept (h : s.Alive) : s.connectSlept.Alive := by
  rcases s.connectSlept_cases with ⟨-, heq⟩ | ⟨hup, heq⟩
  · rw [heq]
    exact h.congr rfl rfl rfl fun hfin => hfin.imp_right fun ⟨hstatus, hlt⟩ =>
      ⟨hstatus, Nat.lt_succ_of_lt hlt⟩
  · rw [heq]
    exact h.congr rfl rfl rfl fun _ => .inr ⟨rfl, Nat.lt_succ_of_le hup⟩

/-- A sleep of the wait loop is quiet. -/
theorem Quiet.connectSlept (s : TCPClient) : Quiet s s.connectSlept := by
  rcases s.connectSlept_cases with ⟨-, heq⟩ | ⟨-, heq⟩
  · rw [heq]
    exact .of_eq rfl rfl rfl
  · have hslept : Quiet s { s with
        asleep := false
        waitCount := s.waitCount + 1
        connectstatus := .connectTimeout } := .of_eq rfl rfl rfl
    rw [heq]
    exact hslept.trans (connectReturn _ false)

/-! ### The callbacks -/

/-- The timer keeps firing until an attempt succeeds. -/
theorem alive_reconnectTimerCb (h : s.Alive) (harmed : s.reconnectTimer.armed = true)
    (r : AttemptResult) : (s.reconnectTimerCb r).Alive := by
  -- the timer is stopped, an attempt fails in one of three calls, or the request is made
  rcases reconnectTimerCb_cases s r with
    ⟨-, heq⟩ | ⟨hrec, ⟨iret, -, heq⟩ | heq | ⟨iret, -, heq⟩ | heq⟩
  · rw [heq]
    exact h
  · rw [heq]
    exact alive_of_armed hrec rfl
  · rw [heq]
    exact alive_of_armed hrec rfl
  · rw [heq]
    exact alive_of_armed hrec rfl
  · rw [heq]
    exact alive_of_armed hrec harmed

/-- A request that failed leaves the timer armed. -/
theorem afterConnect_error_armed (hrec : s.isreconnecting = true) {status : ℤ} (hstatus : status ≠ 0)
    (readStart : ℤ) :
    (s.afterConnect status readStart).isreconnecting = true ∧
      (s.reconnectTimer.armed = true →
        (s.afterConnect status readStart).reconnectTimer.armed = true) := by
  by_cases hdata : s.tcphandle.data = some .tcpClientCtx
  · rcases afterConnect_cases hdata status readStart with
      ⟨-, -, heq⟩ | ⟨-, hnot, -⟩ | ⟨hzero, -⟩ | ⟨hzero, -⟩
    -- the timer is started again
    · rw [heq]
      exact ⟨hrec, fun _ => rfl⟩
    · cases hrec.symm.trans hnot
    · exact absurd hzero hstatus
    · exact absurd hzero hstatus
  · rw [afterConnect_of_data_ne hdata]
    exact ⟨hrec, id⟩

/-- In the window, an attempt that is answered is one to reconnect, and the timer is armed meanwhile. -/
theorem Alive.reconnecting_of_request (h : s.Alive) (hstate : s.tcphandle.state = .opened)
    (hreq : s.tcphandle.connectReq = true) :
    s.isreconnecting = true ∧ s.reconnectTimer.armed = true := by
  have hrec : s.isreconnecting = true := by
    cases hrec : s.isreconnecting with
    | true => rfl
    | false =>
      rcases h.connected hrec with hclosing | ⟨-, hnot⟩
      · rw [hstate] at hclosing
        cases hclosing
      · cases hreq.symm.trans hnot
  refine ⟨hrec, (h.reconnecting hrec).resolve_left fun hcloses => ?_⟩
  -- the handle of the request is open, and so it is not being closed
  cases hstate.symm.trans hcloses.1

/-- An attempt that succeeds connects the client, and one that fails leaves the timer armed. -/
theorem alive_answerConnect (h : s.Alive) (hstate : s.tcphandle.state = .opened)
    (hreq : s.tcphandle.connectReq = true) {status readStart : ℤ}
    (hread : s.isreconnecting = true → status = 0 → readStart = 0) :
    (s.answerConnect status readStart).Alive := by
  obtain ⟨hrec, harmed⟩ := h.reconnecting_of_request hstate hreq
  rw [answerConnect]
  by_cases hzero : status = 0
  · by_cases hdata : s.answered.tcphandle.data = some .tcpClientCtx
    · rcases afterConnect_cases hdata status readStart with
        ⟨hne, -⟩ | ⟨hne, -⟩ | ⟨-, -, heq⟩ | ⟨-, hnot, -⟩
      · exact absurd hzero hne
      · exact absurd hzero hne
      · rw [heq, hread hrec hzero]
        -- the attempt has succeeded, and reading has started
        have hconn : ((s.answered.callback .afterConnect).startReading 0).stopReconnect.Alive :=
          ⟨(fun hr => by cases hr), fun _ => .inr ⟨⟨.inl rfl, hstate, rfl⟩, rfl⟩⟩
        rw [callReconnectCb]
        split
        case isTrue => exact hconn.congr rfl rfl rfl id
        case isFalse => exact hconn
      · cases hrec.symm.trans hnot
    · rw [afterConnect_of_data_ne hdata]
      exact alive_of_armed hrec harmed
  · obtain ⟨hrec', harmed'⟩ :=
      afterConnect_error_armed (s := s.answered) hrec hzero readStart
    exact alive_of_armed hrec' (harmed' harmed)

/-- `AfterClientClose` starts the timer where it finds the client. -/
theorem alive_afterClientClose (hrec : s.isreconnecting = true)
    (h : s.tcphandle.data = some .tcpClient ∨ s.reconnectTimer.armed = true) :
    (s.afterClientClose 0).Alive := by
  rw [afterClientClose]
  split
  case isTrue hne => exact alive_of_armed hrec (h.resolve_left hne)
  case isFalse =>
    split
    case isTrue => exact alive_of_armed hrec rfl
    case isFalse hnot => exact absurd hrec hnot

/-- The close that follows a disconnection starts the timer, and every other one leaves it armed. -/
theorem alive_tcpClosed (h : s.Alive) (hrec : s.isreconnecting = true) {cb : Option ClientCloseCb}
    (hs : s.tcphandle.state = .closing cb) : (s.tcpClosed cb 0).Alive := by
  -- a canceled request counts as a failed attempt
  have hdestroy : s.streamDestroy.isreconnecting = true ∧
      (s.reconnectTimer.armed = true → s.streamDestroy.reconnectTimer.armed = true) := by
    rw [streamDestroy]
    split
    case isTrue => exact afterConnect_error_armed (s := s.answered) hrec (by decide) 0
    case isFalse => exact ⟨hrec, id⟩
  have hdata : s.streamDestroy.tcphandle.closed.data = s.tcphandle.data := by
    rw [streamDestroy_tcphandle]
    rfl
  cases cb with
  | none =>
    -- a close without a callback is not the one that follows a disconnection
    have harmed := (h.reconnecting hrec).resolve_left fun hcloses => by
      cases hs.symm.trans hcloses.1
    exact alive_of_armed hdestroy.1 (hdestroy.2 harmed)
  | some cb =>
    refine alive_afterClientClose (s := { s.streamDestroy with
      tcphandle := s.streamDestroy.tcphandle.closed }) hdestroy.1 ?_
    exact (h.reconnecting hrec).imp (fun hcloses => hdata.trans hcloses.2) hdestroy.2

/-- A disconnection closes the handle for the reconnection. -/
theorem progressInv_afterRecvError (h : s.ProgressInv) : s.afterRecvError.ProgressInv :=
  ⟨fun _ => ⟨fun _ => .inl ⟨rfl, rfl⟩, nofun⟩,
    (Quiet.callReconnectCb s .disconnect trivial).logged h.logged⟩

/-- A read leaves a client that is disconnected to its close, or is not one that disconnects it. -/
theorem progressInv_afterRecv (h : s.ProgressInv) {host : Host} {nread : Option (List UInt8)}
    {s' : TCPClient} (hrecv : s.afterRecv host nread = some s') : s'.ProgressInv := by
  have hcall : ((s.callback .allocBufferForRecv).callback .afterRecv).ProgressInv :=
    h.of_quiet ((Quiet.callback s _).trans (Quiet.callback _ _)) fun _ ha => ha.congr rfl rfl rfl id
  rcases afterRecv_cases hrecv with ⟨-, rfl⟩ | ⟨-, ⟨-, rfl⟩ | ⟨-, rfl⟩ | ⟨_, packet, _, -, -, rfl⟩⟩
  · exact hcall
  · exact progressInv_afterRecvError hcall
  · exact hcall
  · exact hcall.of_quiet (.of_eq rfl rfl rfl) fun _ ha => ha.congr rfl rfl rfl id

/-! ### Runs -/

/-- `Close` is the end of the reconnection. -/
theorem progressInv_close (h : s.ProgressInv) : s.close.ProgressInv := by
  rw [close]
  split
  case isTrue => exact h
  case isFalse =>
    refine ⟨fun hd => ?_, h.logged⟩
    cases hd.2

/-- `AsyncCB` closes the handles only when the user has asked for it. -/
theorem progressInv_asyncCB (h : s.ProgressInv) : s.asyncCB.ProgressInv := by
  have hquiet : Quiet s { s with asyncHandle := s.asyncHandle.received } := .of_eq rfl rfl rfl
  rw [asyncCB]
  split
  case isTrue huser =>
    refine h.of_quiet (hquiet.trans (Quiet.closeinl _)) fun hd => ?_
    cases hd.2.symm.trans huser
  case isFalse => exact h.of_quiet hquiet fun _ ha => ha.congr rfl rfl rfl id

/-- Every step that meets the condition preserves the invariant. -/
theorem progressInv_step (host : Host) (s : TCPClient) (e : ClientEvent) (s' : TCPClient)
    (h : s.ProgressInv) (hc : s.ReadsOnReconnect e) (hstep : s.step host e = some s') :
    s'.ProgressInv := by
  cases steps_of_step hstep with
  | setReconnectCB | connectWait | send | asyncClosed | loopExit =>
    exact h.of_quiet (.of_eq rfl rfl rfl) fun _ ha => ha.congr rfl rfl rfl id
  | connect r =>
    -- between a disconnection and `Close`, the call leaves the handle to its close
    exact h.of_quiet (Quiet.connectTo s false r) fun hd _ =>
      alive_connectTo (hc hd).1 (hc hd).2 false r
  | connect6 r =>
    exact h.of_quiet (Quiet.connectTo s true r) fun hd _ =>
      alive_connectTo (hc hd).1 (hc hd).2 true r
  | connectSlept => exact h.of_quiet (Quiet.connectSlept s) fun _ ha => alive_connectSlept ha
  | connectWaited =>
    exact h.of_quiet (Quiet.connectReturn s _) fun _ ha => ha.congr rfl rfl rfl id
  | close => exact progressInv_close h
  | asyncCB => exact progressInv_asyncCB h
  | afterConnect status readStart _ hopened hreq =>
    exact h.of_quiet (Quiet.answerConnect s hc) fun _ ha => alive_answerConnect ha hopened hreq hc
  | afterRecv nread _ _ _ _ hrecv => exact progressInv_afterRecv h hrecv
  | reconnectTimer r _ harmed =>
    exact h.of_quiet (Quiet.reconnectTimerCb s r) fun _ ha => alive_reconnectTimerCb ha harmed r
  | tcpClosed cb timerStart _ hs =>
    obtain ⟨rfl, hrec⟩ := hc
    exact h.of_quiet (Quiet.tcpClosed s cb 0) fun hd ha => alive_tcpClosed ha (hrec hd) hs
  | timerClosed =>
    -- a timer that is being closed has been stopped
    refine h.of_quiet (.of_eq rfl rfl rfl) fun _ ha => ⟨fun hr => ?_, ha.connected⟩
    exact ha.reconnecting hr

end TCPClient

/-- **Reconnecting makes progress and reports no false success**, in every run in which `uv_read_start`
succeeds wherever an attempt to reconnect does, the timer can be started, and no call of `Connect` after a
disconnection has brought the reconnection to its end. -/
theorem reconnect_progresses (host : Host) (packhead packtail : UInt8) (u : Indeterminate)
    (es : List ClientEvent) (s : TCPClient)
    (hcond : Along (TCPClient.step host) TCPClient.ReadsOnReconnect (.new packhead packtail u) es)
    (hrun : run (TCPClient.step host) (.new packhead packtail u) es = some s) :
    (s.Disconnected → s.Progresses) ∧
      ∀ status, .reconnectCb .reconnect status ∈ s.log → status = .connectFinish := by
  have h : s.ProgressInv := run_invariant_along (TCPClient.progressInv_step host)
    (TCPClient.progressInv_new packhead packtail u) hcond hrun
  exact ⟨fun hd => (h.alive hd).progresses, fun status hmem => h.logged _ hmem⟩

/-- A disconnection, four attempts that fail at the four calls, and one that succeeds. -/
theorem reconnect_progresses_five_attempts : ∃ s,
    run (TCPClient.step .little) (.new 1 2 default)
      [.setReconnectCB, .connect default, .afterConnect 0 0, .connectWaited, .afterRecv none,
        .tcpClosed 0, .reconnectTimer ⟨-24, 0, 0, 0⟩, .reconnectTimer ⟨0, -22, 0, 0⟩, .tcpClosed 0,
        .reconnectTimer ⟨0, 0, 0, -101⟩, .tcpClosed 0, .reconnectTimer default,
        .afterConnect (-111) 0, .reconnectTimer default, .afterConnect 0 0] = some s ∧
    (s.Disconnected → s.Progresses) ∧
      ∀ status, .reconnectCb .reconnect status ∈ s.log → status = .connectFinish :=
  ⟨_, rfl, reconnect_progresses .little 1 2 default
    [.setReconnectCB, .connect default, .afterConnect 0 0, .connectWaited, .afterRecv none,
      .tcpClosed 0, .reconnectTimer ⟨-24, 0, 0, 0⟩, .reconnectTimer ⟨0, -22, 0, 0⟩, .tcpClosed 0,
      .reconnectTimer ⟨0, 0, 0, -101⟩, .tcpClosed 0, .reconnectTimer default,
      .afterConnect (-111) 0, .reconnectTimer default, .afterConnect 0 0] _ (by decide) rfl⟩

/-- **A failed `uv_read_start` ends the reconnection.** Nothing goes on after it, and the user is told
that the client has been reconnected. -/
theorem failed_readStart_is_reported_as_reconnect : ∃ s,
    run (TCPClient.step .little) (.new 1 2 default)
      [.setReconnectCB, .connect default, .afterConnect 0 0, .connectWaited, .afterRecv none,
        .tcpClosed 0, .reconnectTimer default, .afterConnect 0 (-22)] = some s ∧
    ¬ (s.Disconnected → s.Progresses) ∧
      ¬ ∀ status, .reconnectCb .reconnect status ∈ s.log → status = .connectFinish := by
  refine ⟨_, rfl, by decide, fun h => ?_⟩
  cases h .connectError (by decide)

end MyUvpp
