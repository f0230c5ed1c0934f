import MyUvpp.TcpClient.Lifecycle

/-! # What the callbacks of a client find in their handle

`tcphandle.data` belongs to the `TcpClientCtx` while the handle is open and to the `TCPClient` while a
close that `AfterClientClose` is to complete is pending. `closeinl` breaks this: `StopReconnect` gives
the field to the context just before the handle is closed with `AfterClientClose`. Where `closeinl`
has nothing to close or a close without a callback is pending, every callback finds what it casts
to. -/

namespace MyUvpp

/-- A callback finds an object of the type to which it casts `tcphandle.data`. -/
def ClientCall.DataOk : ClientCall → Prop
  | .callback cb data => data = some cb.casts
  | _ => True

/-- Whether a callback has found what it casts to can be decided. -/
instance : DecidablePred ClientCall.DataOk
  | .callback cb data => inferInstanceAs (Decidable (data = some cb.casts))
  | .tcpInit _ | .tcpConnect _ | .reconnectCb _ _ | .connectReturn _ =>
    inferInstanceAs (Decidable True)

namespace TCPClient

/-- The owner of `tcphandle.data`, by the state of the handle. A handle that is being read is open and
has no connect request. -/
structure DataInv (s : TCPClient) : Prop where
  opened : s.tcphandle.state = .opened → s.tcphandle.data = some .tcpClientCtx
  closing : ∀ cb, s.tcphandle.state = .closing (some cb) → s.tcphandle.data = some .tcpClient
  request : s.tcphandle.connectReq = true → s.tcphandle.data = some .tcpClientCtx
  reading : s.tcphandle.reading = true →
    s.tcphandle.state = .opened ∧ s.tcphandle.connectReq = false
  logged : ∀ c ∈ s.log, c.DataOk

/-- `closeinl` returns at once, or finds `tcphandle` not registered or closing without a callback. -/
def Closable (s : TCPClient) : Prop :=
  s.isclosed = true ∨ s.tcphandle.state = .unregistered ∨ s.tcphandle.state = .closing none

/-- The events at which `closeinl` is called meet a client that is `Closable`. -/
def ClosesCleanly (s : TCPClient) : ClientEvent → Prop
  | .connect _ | .connect6 _ => s.Closable
  | .asyncCB => s.isuseraskforclosed = true → s.Closable
  | _ => True

/-- Whether a close finds the handle as it should be can be decided. -/
instance (s : TCPClient) : Decidable s.Closable :=
  inferInstanceAs (Decidable (_ ∨ _ ∨ _))

/-- Whether an event meets the condition can be decided. -/
instance (s : TCPClient) : DecidablePred s.ClosesCleanly
  | .connect _ | .connect6 _ => inferInstanceAs (Decidable s.Closable)
  | .asyncCB => inferInstanceAs (Decidable (_ → s.Closable))
  | .setReconnectCB | .connectWait | .connectSlept | .connectWaited | .send | .close
  | .afterConnect _ _ | .afterRecv _ | .reconnectTimer _ | .tcpClosed _ | .asyncClosed | .timerClosed
  | .loopExit =>
    inferInstanceAs (Decidable True)

/-- A new client is in order: nothing has been called, and no handle is registered. -/
theorem dataInv_new (packhead packtail : UInt8) (u : Indeterminate) :
    (new packhead packtail u).DataInv where
  opened h := by cases h
  closing _ h := by cases h
  request h := by cases h
  reading h := by cases h
  logged c hc := absurd hc List.not_mem_nil

variable {s : TCPClient}

/-! ### The parts of the methods -/

/-- The owner of `tcphandle.data` is settled by the handle and the log. -/
theorem DataInv.congr {s' : TCPClient} (h : s.DataInv) (htcp : s'.tcphandle = s.tcphandle)
    (hlog : s'.log = s.log) : s'.DataInv := by
  refine ⟨?_, ?_, ?_, ?_, ?_⟩
  · rw [htcp]
    exact h.opened
  · rw [htcp]
    exact h.closing
  · rw [htcp]
    exact h.request
  · rw [htcp]
    exact h.reading
  · rw [hlog]
    exact h.logged

/-- One more recorded call that is in order. -/
theorem DataInv.log_append {c : ClientCall} (h : s.DataInv) (hc : c.DataOk) :
    ({ s with log := s.log ++ [c] } : TCPClient).DataInv := by
  refine ⟨h.opened, h.closing, h.request, h.reading, fun d hd => ?_⟩
  rcases List.mem_append.mp hd with hd | hd
  · exact h.logged d hd
  · rw [List.mem_singleton] at hd
    exact hd ▸ hc

/-- The context may have the field unless a close with a callback is pending. -/
theorem DataInv.setData (h : s.DataInv) (hs : ∀ cb, s.tcphandle.state ≠ .closing (some cb)) :
    (s.setData .tcpClientCtx).DataInv where
  opened _ := rfl
  closing cb hcb := absurd hcb (hs cb)
  request _ := rfl
  reading := h.reading
  logged := h.logged

/-- The end of a reconnection gives the data back to the context, which a close of the client forbids. -/
theorem dataInv_stopReconnect (h : s.DataInv)
    (hs : ∀ cb, s.tcphandle.state ≠ .closing (some cb)) : s.stopReconnect.DataInv :=
  (h.setData hs).congr rfl rfl

/-- With the field given to the context, no close with a callback is pending. -/
theorem DataInv.not_closing (h : s.DataInv) (hdata : s.tcphandle.data = some .tcpClientCtx)
    (cb : ClientCloseCb) : s.tcphandle.state ≠ .closing (some cb) := by
  intro hcb
  cases (h.closing cb hcb).symm.trans hdata

/-- The callback of the user is not one of libuv. -/
theorem dataInv_callReconnectCb (h : s.DataInv) (event : NetEventType) :
    (s.callReconnectCb event).DataInv := by
  rw [callReconnectCb]
  split
  case isTrue => exact h.log_append trivial
  case isFalse => exact h

/-- The return of `Connect` is not a callback of libuv. -/
theorem dataInv_connectReturn (h : s.DataInv) (ok : Bool) : (s.connectReturn ok).DataInv :=
  (h.log_append (c := .connectReturn ok) trivial).congr rfl rfl

/-- A `uv_tcp_init` that fails leaves the handle as it is. -/
theorem dataInv_uvTcpInit_error (h : s.DataInv) {iret : ℤ} (hiret : iret ≠ 0) :
    (s.uvTcpInit iret).DataInv := by
  refine (h.log_append (c := .tcpInit s.tcphandle.state) trivial).congr ?_ rfl
  exact if_neg hiret

/-- A handle that has just been initialised is given to the context. -/
theorem dataInv_freshHandle (h : s.DataInv) : s.freshHandle.DataInv where
  opened _ := rfl
  closing cb hcb := by cases hcb
  request _ := rfl
  reading hr := by cases hr
  logged := (h.log_append (c := .tcpInit s.tcphandle.state) trivial).logged

/-- A request is made on a handle that belongs to the context and is not read. -/
theorem dataInv_uvTcpConnect (h : s.DataInv) (hdata : s.tcphandle.data = some .tcpClientCtx)
    (hreading : s.tcphandle.reading = false) (iret : ℤ) : (s.uvTcpConnect iret).DataInv := by
  have hdata' : (s.uvTcpConnect iret).tcphandle.data = some .tcpClientCtx :=
    (UvTcp.connect_data _ _).trans hdata
  refine ⟨fun _ => hdata', fun cb hcb => ?_, fun _ => hdata', fun hr => ?_,
    (h.log_append (c := .tcpConnect s.unanswered) trivial).logged⟩
  · exact absurd ((UvTcp.connect_state _ _).symm.trans hcb) (h.not_closing hdata cb)
  · cases hreading.symm.trans ((UvTcp.connect_reading _ _).symm.trans hr)

/-- An attempt that failed closes the handle without a callback. -/
theorem dataInv_uvClose_none (h : s.DataInv) : (s.uvClose none).DataInv where
  opened hs := by cases hs
  closing cb hcb := by cases hcb
  request := h.request
  reading hr := by cases hr
  logged := h.logged

/-! ### Connecting and closing -/

/-- `closeinl` gives the data to the context, and closes the handle with the callback of the client only where
the condition allows it. -/
theorem dataInv_closeinl (h : s.DataInv) (hc : s.Closable) : s.closeinl.DataInv := by
  rw [closeinl]
  split
  case isTrue => exact h
  case isFalse hclosed =>
    have hstate : s.tcphandle.state = .unregistered ∨ s.tcphandle.state = .closing none :=
      hc.resolve_left hclosed
    have hnone : ∀ cb, s.tcphandle.state ≠ .closing (some cb) := by
      intro cb hcb
      rcases hstate with hs | hs <;> rw [hs] at hcb <;> cases hcb
    have hopened : s.stopReconnect.tcphandle.state ≠ .opened := by
      show s.tcphandle.state ≠ .opened
      intro ho
      rcases hstate with hs | hs <;> rw [hs] at ho <;> cases ho
    exact (dataInv_stopReconnect h hnone).congr (UvTcp.walkClose_of_not_opened _ hopened) rfl

/-- What `closeinl` leaves behind where it does not return at once: a handle of the context that is not
being read. -/
theorem closeinl_tcphandle (hclosed : s.closeinl.isclosed = false) :
    s.closeinl.tcphandle.data = some .tcpClientCtx ∧ s.closeinl.tcphandle.state ≠ .opened := by
  rw [closeinl] at hclosed ⊢
  split
  case isTrue h =>
    rw [if_pos h, h] at hclosed
    cases hclosed
  case isFalse => exact ⟨UvTcp.walkClose_data _ _, UvTcp.walkClose_state_ne _⟩

/-- After `init` has succeeded, the context has a handle that is not being read. -/
theorem dataInv_init (h : s.DataInv) (hopen : s.isclosed = false →
      s.tcphandle.data = some .tcpClientCtx ∧ s.tcphandle.state ≠ .opened) (r : InitResult) :
    (s.init r).1.DataInv ∧ ((s.init r).2 = true →
      (s.init r).1.tcphandle.data = some .tcpClientCtx ∧
        (s.init r).1.tcphandle.reading = false) := by
  have hasync : s.uvAsyncInit.DataInv := h.congr rfl rfl
  have hfresh := dataInv_freshHandle hasync
  rcases init_cases s r with ⟨hclosed, heq⟩ | ⟨-, heq | ⟨iret, hiret, heq⟩ | ⟨-, heq⟩ | heq⟩
  · obtain ⟨hdata, hstate⟩ := hopen hclosed
    rw [heq]
    refine ⟨h, fun _ => ⟨hdata, ?_⟩⟩
    cases hr : s.tcphandle.reading with
    | false => rfl
    | true => exact absurd (h.reading hr).1 hstate
  · rw [heq]
    exact ⟨h, fun hok => by cases hok⟩
  · rw [heq]
    exact ⟨dataInv_uvTcpInit_error hasync hiret, fun hok => by cases hok⟩
  · rw [heq]
    exact ⟨hfresh.congr rfl rfl, fun hok => by cases hok⟩
  · rw [heq]
    exact ⟨hfresh.congr rfl rfl, fun _ => ⟨rfl, rfl⟩⟩

/-- The attempt of `Connect` finds the handle that `init` has left. -/
theorem dataInv_startConnect (h : s.DataInv) (hdata : s.tcphandle.data = some .tcpClientCtx)
    (hreading : s.tcphandle.reading = false) (isIPv6 : Bool) (r : ConnectResult) :
    (s.startConnect isIPv6 r).DataInv := by
  have h₁ : ({ s with isIPv6 } : TCPClient).DataInv := h.congr rfl rfl
  have h₂ := dataInv_uvTcpConnect h₁ hdata hreading r.tcpConnect
  rcases startConnect_cases s isIPv6 r with heq | heq | heq
  · rw [heq]
    exact dataInv_connectReturn h₁ false
  · rw [heq]
    exact dataInv_connectReturn h₂ false
  · rw [heq]
    exact h₂.congr rfl rfl

/-- `Connect` and `Connect6` keep the owner of the data when the condition holds at their call of `closeinl`.
-/
theorem dataInv_connectTo (h : s.DataInv) (hc : s.Closable) (isIPv6 : Bool) (r : ConnectResult) :
    (s.connectTo isIPv6 r).DataInv := by
  obtain ⟨hinit, hok⟩ := dataInv_init (dataInv_closeinl h hc) closeinl_tcphandle r.toInitResult
  rcases connectTo_cases s isIPv6 r with heq | ⟨htrue, heq⟩
  · rw [heq]
    exact dataInv_connectReturn hinit false
  · obtain ⟨hdata, hreading⟩ := hok htrue
    rw [heq]
    exact dataInv_startConnect hinit hdata hreading isIPv6 r

/-! ### The callbacks -/

/-- `AfterConnect`, called for the request that `tcphandle` had. -/
theorem dataInv_afterConnect (h : s.DataInv) (hdata : s.tcphandle.data = some .tcpClientCtx)
    (hreq : s.tcphandle.connectReq = false) {status : ℤ}
    (hstate : status = 0 → s.tcphandle.state = .opened) (readStart : ℤ) :
    (s.afterConnect status readStart).DataInv := by
  have hcall : (s.callback .afterConnect).DataInv := h.log_append hdata
  -- after a success the handle is open and belongs to the context
  have hopened : status = 0 →
      ((s.callback .afterConnect).startReading readStart).tcphandle.state = .opened :=
    fun hzero => (UvTcp.readStart_state _ _).trans (hstate hzero)
  have hread : status = 0 → ((s.callback .afterConnect).startReading readStart).DataInv := by
    intro hzero
    have hdata' : ((s.callback .afterConnect).startReading readStart).tcphandle.data =
      some .tcpClientCtx := (UvTcp.readStart_data _ _).trans hdata
    refine ⟨fun _ => hdata', fun cb hcb => ?_, fun _ => hdata', fun _ =>
      ⟨hopened hzero, (UvTcp.readStart_connectReq _ _).trans hreq⟩, hcall.logged⟩
    cases (hopened hzero).symm.trans hcb
  rcases afterConnect_cases hdata status readStart with
    ⟨-, -, heq⟩ | ⟨-, -, heq⟩ | ⟨hzero, -, heq⟩ | ⟨hzero, -, heq⟩
  · rw [heq]
    exact hcall.congr rfl rfl
  · rw [heq]
    exact hcall.congr rfl rfl
  · rw [heq]
    refine dataInv_callReconnectCb (dataInv_stopReconnect (hread hzero) fun cb hcb => ?_) _
    cases (hopened hzero).symm.trans hcb
  · rw [heq]
    exact hread hzero

/-- The request of `tcphandle` is answered, with a success only while the handle is open. -/
theorem dataInv_answerConnect (h : s.DataInv) (hreq : s.tcphandle.connectReq = true) {status : ℤ}
    (hstate : status = 0 → s.tcphandle.state = .opened) (readStart : ℤ) :
    (s.answerConnect status readStart).DataInv := by
  have hinv : s.answered.DataInv :=
    ⟨h.opened, h.closing, nofun, fun hr => ⟨(h.reading hr).1, rfl⟩, h.logged⟩
  exact dataInv_afterConnect hinv (h.request hreq) rfl hstate readStart

/-- A disconnection gives the data to the client and closes the handle with its callback. -/
theorem dataInv_afterRecvError (h : s.DataInv) (hreading : s.tcphandle.reading = true) :
    s.afterRecvError.DataInv where
  opened hs := by cases hs
  closing _ _ := rfl
  request hr := by
    have hreq : s.afterRecvError.tcphandle.connectReq = s.tcphandle.connectReq := by
      obtain ⟨log, heq⟩ := s.callReconnectCb_eq .disconnect
      rw [afterRecvError, heq]
      rfl
    cases ((h.reading hreading).2.symm.trans hreq.symm).trans hr
  reading hr := by cases hr
  logged := (dataInv_callReconnectCb h .disconnect).logged

/-- Both callbacks of a read find the context. -/
theorem dataInv_afterRecv (h : s.DataInv) (hreading : s.tcphandle.reading = true) {host : Host}
    {nread : Option (List UInt8)} {s' : TCPClient} (hrecv : s.afterRecv host nread = some s') :
    s'.DataInv := by
  have hdata := h.opened (h.reading hreading).1
  have halloc : (s.callback .allocBufferForRecv).DataInv := h.log_append hdata
  have hcall : ((s.callback .allocBufferForRecv).callback .afterRecv).DataInv :=
    halloc.log_append hdata
  rcases afterRecv_cases hrecv with ⟨hne, -⟩ | ⟨-, ⟨-, rfl⟩ | ⟨-, rfl⟩ | ⟨_, packet, _, -, -, rfl⟩⟩
  · exact absurd hdata hne
  · exact dataInv_afterRecvError hcall hreading
  · exact hcall
  · exact hcall.congr rfl rfl

/-- `AfterClientClose`, called for a close of the client. -/
theorem dataInv_afterClientClose (h : s.DataInv) (hdata : s.tcphandle.data = some .tcpClient)
    (timerStart : ℤ) : (s.afterClientClose timerStart).DataInv := by
  have hcall : (s.callback .afterClientClose).DataInv := h.log_append hdata
  rw [afterClientClose]
  split
  case isTrue hne => exact absurd hdata hne
  case isFalse =>
    split
    case isTrue => split <;> exact hcall.congr rfl rfl
    case isFalse => exact hcall

/-- A handle whose close has completed is not registered, and so nothing is asked of its data. -/
theorem dataInv_closed (h : s.DataInv) (hreading : s.tcphandle.reading = false) :
    ({ s with tcphandle := s.tcphandle.closed } : TCPClient).DataInv where
  opened hs := by cases hs
  closing cb hcb := by cases hcb
  request := h.request
  reading hr := by cases hreading.symm.trans hr
  logged := h.logged

/-- A request that the close cancels is answered with the data that it was made with. -/
theorem dataInv_streamDestroy (h : s.DataInv) : s.streamDestroy.DataInv := by
  rw [streamDestroy]
  split
  case isTrue hreq => exact dataInv_answerConnect h hreq (fun hzero => absurd hzero (by decide)) 0
  case isFalse => exact h

/-- The close of the client finds the client in the data. -/
theorem dataInv_tcpClosed (h : s.DataInv) {cb : Option ClientCloseCb}
    (hs : s.tcphandle.state = .closing cb) (timerStart : ℤ) : (s.tcpClosed cb timerStart).DataInv := by
  have htcp := streamDestroy_tcphandle s
  have hreading : s.streamDestroy.tcphandle.reading = false := by
    rw [htcp]
    cases hr : s.tcphandle.reading with
    | false => exact hr
    | true => cases hs.symm.trans (h.reading hr).1
  have hclosed := dataInv_closed (dataInv_streamDestroy h) hreading
  cases cb with
  | none => exact hclosed
  | some cb =>
    refine dataInv_afterClientClose hclosed ?_ timerStart
    rw [htcp]
    exact h.closing cb hs

/-- The timer makes a new handle for the context. -/
theorem dataInv_reconnectTimerCb (h : s.DataInv) (r : AttemptResult) :
    (s.reconnectTimerCb r).DataInv := by
  have hfresh := dataInv_freshHandle h
  have hconn := dataInv_uvTcpConnect hfresh rfl rfl
  rcases reconnectTimerCb_cases s r with
    ⟨-, heq⟩ | ⟨-, ⟨iret, hiret, heq⟩ | heq | ⟨iret, -, heq⟩ | heq⟩
  · rw [heq]
    exact h
  · rw [heq]
    exact (dataInv_uvTcpInit_error h hiret).congr rfl rfl
  · rw [heq]
    exact (dataInv_uvClose_none hfresh).congr rfl rfl
  · rw [heq]
    exact (dataInv_uvClose_none (hconn iret)).congr rfl rfl
  · rw [heq]
    exact hconn 0

/-! ### Runs -/

/-- A sleep of the wait loop does not touch the handle, also the last one. -/
theorem dataInv_connectSlept (h : s.DataInv) : s.connectSlept.DataInv := by
  rcases s.connectSlept_cases with ⟨-, heq⟩ | ⟨-, heq⟩
  · rw [heq]
    exact h.congr rfl rfl
  · -- the time is up, whatever the status has become
    have hslept : ({ s with
        asleep := false
        waitCount := s.waitCount + 1
        connectstatus := .connectTimeout } : TCPClient).DataInv := h.congr rfl rfl
    rw [heq]
    exact dataInv_connectReturn hslept false

/-- The close by the user is the one that the condition is about. -/
theorem dataInv_asyncCB (h : s.DataInv) (hc : s.ClosesCleanly .asyncCB) : s.asyncCB.DataInv := by
  have h₁ : ({ s with asyncHandle := s.asyncHandle.received } : TCPClient).DataInv :=
    h.congr rfl rfl
  rw [asyncCB]
  split
  case isTrue huser => exact dataInv_closeinl h₁ (hc huser)
  case isFalse => exact h₁

/-- Every step that meets the condition preserves the owner of `tcphandle.data`. -/
theorem dataInv_step (host : Host) (s : TCPClient) (e : ClientEvent) (s' : TCPClient)
    (h : s.DataInv) (hc : s.ClosesCleanly e) (hstep : s.step host e = some s') : s'.DataInv := by
  cases steps_of_step hstep with
  | setReconnectCB | connectWait | send | asyncClosed | timerClosed | loopExit => exact h.congr rfl rfl
  | connect r => exact dataInv_connectTo h hc false r
  | connect6 r => exact dataInv_connectTo h hc true r
  | connectSlept => exact dataInv_connectSlept h
  | connectWaited => exact dataInv_connectReturn h _
  | close =>
    rw [close]
    split <;> exact h.congr rfl rfl
  | asyncCB => exact dataInv_asyncCB h hc
  | afterConnect status readStart _ hopened hreq =>
    exact dataInv_answerConnect h hreq (fun _ => hopened) readStart
  | afterRecv nread _ _ _ hreading hrecv => exact dataInv_afterRecv h hreading hrecv
  | reconnectTimer r => exact dataInv_reconnectTimerCb h r
  | tcpClosed cb timerStart _ hs => exact dataInv_tcpClosed h hs timerStart

end TCPClient

/-- **Every callback finds what it casts to**, in every run in which `closeinl` meets `tcphandle` not
registered or closing without a callback, whatever the order of the events and the results of the
calls. -/
theorem callbacks_find_their_data (host : Host) (packhead packtail : UInt8) (u : Indeterminate)
    (es : List ClientEvent) (s : TCPClient)
    (hcond : Along (TCPClient.step host) TCPClient.ClosesCleanly (.new packhead packtail u) es)
    (hrun : run (TCPClient.step host) (.new packhead packtail u) es = some s) :
    ∀ cb data, .callback cb data ∈ s.log → data = some cb.casts := by
  have h : s.DataInv := run_invariant_along (TCPClient.dataInv_step host)
    (TCPClient.dataInv_new packhead packtail u) hcond hrun
  exact fun cb data hmem => h.logged _ hmem

/-- A client that is disconnected, fails to connect again and is closed while its handle is closing
without a callback. -/
theorem callbacks_find_their_data_failed_attempt : ∃ s,
    run (TCPClient.step .little) (.new 1 2 default)
      [.connect default, .afterConnect 0 0, .connectWaited, .afterRecv none, .tcpClosed 0,
        .reconnectTimer ⟨0, 0, 0, -101⟩, .close, .asyncCB, .tcpClosed 0, .asyncClosed, .timerClosed,
        .loopExit] = some s ∧
    ∀ cb data, .callback cb data ∈ s.log → data = some cb.casts :=
  ⟨_, rfl, callbacks_find_their_data .little 1 2 default
    [.connect default, .afterConnect 0 0, .connectWaited, .afterRecv none, .tcpClosed 0,
      .reconnectTimer ⟨0, 0, 0, -101⟩, .close, .asyncCB, .tcpClosed 0, .asyncClosed, .timerClosed,
      .loopExit] _ (by decide) rfl⟩

/-- **A plain close confuses the types**: `closeinl` gives `tcphandle.data` to the context, and the
`AfterClientClose` that it asks for casts it to the client. -/
theorem afterClientClose_finds_context : ¬ ∀ (es : List ClientEvent) (s : TCPClient),
    run (TCPClient.step .little) (.new 1 2 default) es = some s →
      ∀ cb data, .callback cb data ∈ s.log → data = some cb.casts := by
  intro h
  have hdata := h [.connect default, .afterConnect 0 0, .connectWaited, .close, .asyncCB, .tcpClosed 0]
    _ rfl .afterClientClose (some .tcpClientCtx) (by decide)
  cases hdata

end MyUvpp
