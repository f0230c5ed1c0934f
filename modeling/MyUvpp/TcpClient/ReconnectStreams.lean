import MyUvpp.Foundation.FrameRun
import MyUvpp.Packet.DecoderReuse
import MyUvpp.TcpClient.Lifecycle

/-! # What a client receives after a reconnection

A client has one decoder. `init` starts it, every read feeds it, and a reconnection does not touch it:
what an earlier connection has left pending is in front of what the next one reads. -/

namespace MyUvpp

namespace TCPClient

/-- The client has a connection, an attempt at one or a reconnection under way. -/
def InUse (s : TCPClient) : Prop :=
  s.isclosed = false ∨ s.tcphandle.reading = true ∨ s.tcphandle.connectReq = true ∨
    s.isreconnecting = true

/-- The decoder of a client: it can be started, and is when the client is in use. A handle that is
being read is open and belongs to the context. -/
structure StreamInv (host : Host) (head tail : UInt8) (s : TCPClient) : Prop where
  head_eq : s.packetHead = head
  tail_eq : s.packetTail = tail
  startable : s.packet.Startable host head tail
  started : s.InUse → s.packet.Started host head tail
  reading : s.tcphandle.reading = true →
    s.tcphandle.state = .opened ∧ s.tcphandle.data = some .tcpClientCtx

/-- A new client reads nothing, and its decoder waits for `Connect`. -/
theorem streamInv_new (host : Host) (head tail : UInt8) (u : Indeterminate) :
    (new head tail u).StreamInv host head tail where
  head_eq := rfl
  tail_eq := rfl
  startable := PacketSync.startable_new host u head tail
  started h := by
    rcases h with h | h | h | h <;> cases h
  reading h := by cases h

section Methods

variable {host : Host} {head tail : UInt8} {s s' : TCPClient}

/-! ### The parts of the methods -/

/-- The handle may have changed, if it is not in use more than before. -/
theorem StreamInv.of_tcphandle (h : s.StreamInv host head tail)
    (hhead : s'.packetHead = s.packetHead) (htail : s'.packetTail = s.packetTail)
    (hpacket : s'.packet = s.packet) (huse : s'.InUse → s.InUse)
    (hreading : s'.tcphandle.reading = true →
      s'.tcphandle.state = .opened ∧ s'.tcphandle.data = some .tcpClientCtx) :
    s'.StreamInv host head tail :=
  ⟨hhead.trans h.head_eq, htail.trans h.tail_eq, hpacket ▸ h.startable,
    fun hs => hpacket ▸ h.started (huse hs), hreading⟩

/-- Only the bytes of the packet, the decoder and the handle matter, and whether the client has been opened or
reconnects. -/
theorem StreamInv.congr (h : s.StreamInv host head tail) (hhead : s'.packetHead = s.packetHead)
    (htail : s'.packetTail = s.packetTail) (hpacket : s'.packet = s.packet)
    (htcp : s'.tcphandle = s.tcphandle) (hclosed : s'.isclosed = false → s.isclosed = false)
    (hrec : s'.isreconnecting = true → s.isreconnecting = true) : s'.StreamInv host head tail := by
  refine h.of_tcphandle hhead htail hpacket (fun hs => ?_) (by rw [htcp]; exact h.reading)
  rw [InUse, htcp] at hs
  exact hs.imp hclosed (Or.imp_right (Or.imp_right hrec))

/-- The callback of the user does not touch the decoder. -/
theorem streamInv_callReconnectCb (h : s.StreamInv host head tail) (event : NetEventType) :
    (s.callReconnectCb event).StreamInv host head tail := by
  rw [callReconnectCb]
  split
  case isTrue => exact h.congr rfl rfl rfl rfl id id
  case isFalse => exact h

/-- The end of a reconnection does not touch the decoder. -/
theorem streamInv_stopReconnect (h : s.StreamInv host head tail) :
    s.stopReconnect.StreamInv host head tail := by
  refine h.of_tcphandle rfl rfl rfl (fun hs => ?_) fun hr => ⟨(h.reading hr).1, rfl⟩
  exact hs.imp_right (Or.imp_right (Or.imp_right nofun))

/-- `closeinl` stops the reading and does not touch the decoder. -/
theorem streamInv_closeinl (h : s.StreamInv host head tail) :
    s.closeinl.StreamInv host head tail := by
  rw [closeinl]
  split
  case isTrue => exact h
  case isFalse hclosed =>
    have hopen : s.isclosed = false := by simpa using hclosed
    have hunread : s.stopReconnect.walkClose.tcphandle.reading = false :=
      UvTcp.walkClose_reading _ fun hr => (h.reading hr).1
    exact h.of_tcphandle rfl rfl rfl (fun _ => .inl hopen)
      fun hr => by cases hunread.symm.trans hr

/-- A handle that has just been initialised. -/
theorem streamInv_freshHandle (h : s.StreamInv host head tail) :
    s.freshHandle.StreamInv host head tail := by
  refine h.of_tcphandle rfl rfl rfl (fun hs => ?_) nofun
  rcases hs with hs | hs | hs | hs
  · exact .inl hs
  · cases hs
  · cases hs
  · exact .inr (.inr (.inr hs))

/-- A `uv_tcp_init` that fails does not touch the decoder. -/
theorem streamInv_uvTcpInit_error (h : s.StreamInv host head tail) {iret : ℤ} (hiret : iret ≠ 0) :
    (s.uvTcpInit iret).StreamInv host head tail :=
  h.congr rfl rfl rfl (if_neg hiret) id id

/-- With its decoder started, the client may be in use. -/
theorem StreamInv.of_started (h : s.StreamInv host head tail)
    (hhead : s'.packetHead = s.packetHead) (htail : s'.packetTail = s.packetTail)
    (hstarted : s'.packet.Started host head tail)
    (hreading : s'.tcphandle.reading = true →
      s'.tcphandle.state = .opened ∧ s'.tcphandle.data = some .tcpClientCtx) :
    s'.StreamInv host head tail :=
  ⟨hhead.trans h.head_eq, htail.trans h.tail_eq, hstarted.startable, fun _ => hstarted, hreading⟩

/-- The decoder of a client can always be started. -/
theorem StreamInv.startPacket (h : s.StreamInv host head tail) :
    s.startPacket.packet.Started host head tail := by
  rw [TCPClient.startPacket, h.head_eq, h.tail_eq]
  exact h.startable.start

/-- A request is made for a decoder that has been started. -/
theorem streamInv_uvTcpConnect (h : s.StreamInv host head tail)
    (hstarted : s.packet.Started host head tail) (iret : ℤ) :
    (s.uvTcpConnect iret).StreamInv host head tail := by
  refine h.of_started rfl rfl hstarted fun hr => ?_
  have hread : s.tcphandle.reading = true := (UvTcp.connect_reading _ _).symm.trans hr
  exact ⟨(UvTcp.connect_state _ _).trans (h.reading hread).1,
    (UvTcp.connect_data _ _).trans (h.reading hread).2⟩

/-- A handle that is closed is not read any more. -/
theorem streamInv_uvClose (h : s.StreamInv host head tail) (cb : Option ClientCloseCb) :
    (s.uvClose cb).StreamInv host head tail := by
  refine h.of_tcphandle rfl rfl rfl (fun hs => ?_) nofun
  exact hs.imp_right (Or.imp_left nofun)

/-! ### Connecting -/

/-- After `init` has succeeded, the decoder is started. -/
theorem streamInv_init (h : s.StreamInv host head tail) (r : InitResult) :
    (s.init r).1.StreamInv host head tail ∧
      ((s.init r).2 = true → (s.init r).1.packet.Started host head tail) := by
  have hasync : s.uvAsyncInit.StreamInv host head tail := h.congr rfl rfl rfl rfl id id
  have hfresh := streamInv_freshHandle hasync
  have hstarted := hfresh.startPacket
  rcases init_cases s r with ⟨hopen, heq⟩ | ⟨-, heq | ⟨iret, hiret, heq⟩ | ⟨-, heq⟩ | heq⟩
  · rw [heq]
    exact ⟨h, fun _ => h.started (.inl hopen)⟩
  · rw [heq]
    exact ⟨h, nofun⟩
  · rw [heq]
    exact ⟨streamInv_uvTcpInit_error hasync hiret, nofun⟩
  · rw [heq]
    exact ⟨hfresh.of_started rfl rfl hstarted nofun, nofun⟩
  · rw [heq]
    exact ⟨hfresh.of_started rfl rfl hstarted nofun, fun _ => hstarted⟩

/-- The attempt of `Connect` finds a decoder that has been started. -/
theorem streamInv_startConnect (h : s.StreamInv host head tail)
    (hstarted : s.packet.Started host head tail) (isIPv6 : Bool) (r : ConnectResult) :
    (s.startConnect isIPv6 r).StreamInv host head tail := by
  have h₁ : ({ s with isIPv6 } : TCPClient).StreamInv host head tail :=
    h.congr rfl rfl rfl rfl id id
  have h₂ := streamInv_uvTcpConnect h₁ hstarted r.tcpConnect
  rcases startConnect_cases s isIPv6 r with heq | heq | heq
  · rw [heq]
    exact h₁.congr rfl rfl rfl rfl id id
  · rw [heq]
    exact h₂.congr rfl rfl rfl rfl id id
  · rw [heq]
    exact h₂.congr rfl rfl rfl rfl id id

/-- `Connect` and `Connect6` start the decoder before they make their attempt. -/
theorem streamInv_connectTo (h : s.StreamInv host head tail) (isIPv6 : Bool) (r : ConnectResult) :
    (s.connectTo isIPv6 r).StreamInv host head tail := by
  obtain ⟨hinit, hstarted⟩ := streamInv_init (streamInv_closeinl h) r.toInitResult
  rcases connectTo_cases s isIPv6 r with heq | ⟨htrue, heq⟩
  · rw [heq]
    exact hinit.congr rfl rfl rfl rfl id id
  · rw [heq]
    exact streamInv_startConnect hinit (hstarted htrue) isIPv6 r

/-! ### The callbacks -/

/-- The request of an open handle is answered. -/
theorem streamInv_answerConnect (h : s.StreamInv host head tail)
    (hopened : s.tcphandle.state = .opened) (hreq : s.tcphandle.connectReq = true)
    (status readStart : ℤ) : (s.answerConnect status readStart).StreamInv host head tail := by
  have hstarted := h.started (.inr (.inr (.inl hreq)))
  have hcall : (s.answered.callback .afterConnect).StreamInv host head tail :=
    h.of_started rfl rfl hstarted h.reading
  by_cases hdata : s.tcphandle.data = some .tcpClientCtx
  · have hread : ((s.answered.callback .afterConnect).startReading readStart).StreamInv host head
        tail :=
      hcall.of_started rfl rfl hstarted fun _ =>
        ⟨(UvTcp.readStart_state _ _).trans hopened, (UvTcp.readStart_data _ _).trans hdata⟩
    rcases afterConnect_cases (s := s.answered) hdata status readStart with
      ⟨-, -, heq⟩ | ⟨-, -, heq⟩ | ⟨-, -, heq⟩ | ⟨-, -, heq⟩
    · rw [answerConnect, heq]
      exact hcall.congr rfl rfl rfl rfl id id
    · rw [answerConnect, heq]
      exact hcall.congr rfl rfl rfl rfl id id
    · rw [answerConnect, heq]
      exact streamInv_callReconnectCb (streamInv_stopReconnect hread) .reconnect
    · rw [answerConnect, heq]
      exact hread
  · rw [answerConnect, afterConnect_of_data_ne (s := s.answered) hdata]
    exact hcall

/-- The client reads an error. -/
theorem streamInv_afterRecvError (h : s.StreamInv host head tail)
    (hreading : s.tcphandle.reading = true) : s.afterRecvError.StreamInv host head tail := by
  have hcb := streamInv_callReconnectCb h .disconnect
  refine hcb.of_started rfl rfl ?_ nofun
  have hpacket : (s.callReconnectCb .disconnect).packet = s.packet := by
    obtain ⟨log, heq⟩ := s.callReconnectCb_eq .disconnect
    rw [heq]
  show (s.callReconnectCb .disconnect).packet.Started host head tail
  rw [hpacket]
  exact h.started (.inr (.inl hreading))

/-- The end of a close takes the request from the handle and touches the timer, the status and the
log. -/
theorem tcpClosed_eq (s : TCPClient) (cb : Option ClientCloseCb) (timerStart : ℤ) :
    ∃ reconnectTimer repeatTime connectstatus unanswered log, s.tcpClosed cb timerStart =
      { s with
        tcphandle := s.tcphandle.answerConnect.closed
        reconnectTimer, repeatTime, connectstatus, unanswered, log } := by
  obtain ⟨reconnectTimer, repeatTime, connectstatus, unanswered, log, heq⟩ := s.streamDestroy_eq
  rw [tcpClosed.eq_def, heq]
  cases cb with
  | none => exact ⟨_, _, _, _, _, rfl⟩
  | some cb =>
    obtain ⟨timer, heq'⟩ := afterClientClose_eq
      { s with
        tcphandle := s.tcphandle.answerConnect.closed
        reconnectTimer, repeatTime, connectstatus, unanswered, log } timerStart
    exact ⟨timer, _, _, _, _, heq'⟩

/-- The end of a close does not touch the decoder. -/
theorem streamInv_tcpClosed (h : s.StreamInv host head tail) {cb : Option ClientCloseCb}
    (hs : s.tcphandle.state = .closing cb) (timerStart : ℤ) :
    (s.tcpClosed cb timerStart).StreamInv host head tail := by
  have hunread : s.tcphandle.reading = false := by
    cases hr : s.tcphandle.reading with
    | false => rfl
    | true => cases hs.symm.trans (h.reading hr).1
  obtain ⟨_, _, _, _, _, heq⟩ := s.tcpClosed_eq cb timerStart
  rw [heq]
  refine h.of_tcphandle rfl rfl rfl (fun huse => ?_) fun hr => by cases hunread.symm.trans hr
  rcases huse with huse | huse | huse | huse
  · exact .inl huse
  · cases hunread.symm.trans huse
  · cases huse
  · exact .inr (.inr (.inr huse))

/-- The timer makes its attempt for the decoder of the connection before. -/
theorem streamInv_reconnectTimerCb (h : s.StreamInv host head tail) (r : AttemptResult) :
    (s.reconnectTimerCb r).StreamInv host head tail := by
  have hfresh := streamInv_freshHandle h
  rcases reconnectTimerCb_cases s r with
    ⟨-, heq⟩ | ⟨hrec, ⟨iret, hiret, heq⟩ | heq | ⟨iret, -, heq⟩ | heq⟩
  · rw [heq]
    exact h
  · rw [heq]
    exact (streamInv_uvTcpInit_error h hiret).congr rfl rfl rfl rfl id id
  · rw [heq]
    exact (streamInv_uvClose hfresh none).congr rfl rfl rfl rfl id id
  · rw [heq]
    have hconn := streamInv_uvTcpConnect hfresh (h.started (.inr (.inr (.inr hrec)))) iret
    exact (streamInv_uvClose hconn none).congr rfl rfl rfl rfl id id
  · rw [heq]
    exact streamInv_uvTcpConnect hfresh (h.started (.inr (.inr (.inr hrec)))) 0

/-! ### Steps -/

/-- A read of an open handle: an error, nothing, or bytes for the decoder. -/
theorem StreamInv.afterRecv_cases (h : s.StreamInv host head tail) {nread : Option (List UInt8)}
    (hreading : s.tcphandle.reading = true) (hrecv : s.afterRecv host nread = some s') :
    ∃ log, (nread = none ∧ s' = { s with log }.afterRecvError) ∨
      (nread = some [] ∧ s' = { s with log }) ∨
      ∃ data packet effects, nread = some data ∧
        recvdata host s.packet data = some (packet, effects) ∧
        s' = { s with log, packet, received := s.received ++ frames effects } := by
  refine ⟨((s.callback .allocBufferForRecv).callback .afterRecv).log, ?_⟩
  rcases TCPClient.afterRecv_cases hrecv with ⟨hne, -⟩ | ⟨-, hcase⟩
  · exact absurd (h.reading hreading).2 hne
  · exact hcase

/-- A read keeps the decoder in order, which has been started before reading has. -/
theorem StreamInv.afterRecv (h : s.StreamInv host head tail) {nread : Option (List UInt8)}
    (hreading : s.tcphandle.reading = true) (hrecv : s.afterRecv host nread = some s') :
    s'.StreamInv host head tail := by
  obtain ⟨log, ⟨-, rfl⟩ | ⟨-, rfl⟩ | ⟨data, packet, effects, -, hdecode, rfl⟩⟩ :=
    h.afterRecv_cases hreading hrecv
  · have h₁ : ({ s with log } : TCPClient).StreamInv host head tail := h.congr rfl rfl rfl rfl id id
    exact streamInv_afterRecvError h₁ hreading
  · exact h.congr rfl rfl rfl rfl id id
  · obtain ⟨packet', effects', hdecode', hpacket, -⟩ :=
      (h.started (.inr (.inl hreading))).recvdata data
    cases hdecode.symm.trans hdecode'
    exact h.of_started rfl rfl hpacket h.reading

/-- `AsyncCB` closes the handles, or only receives its signal. -/
theorem StreamInv.asyncCB (h : s.StreamInv host head tail) : s.asyncCB.StreamInv host head tail := by
  have h₁ : ({ s with asyncHandle := s.asyncHandle.received } : TCPClient).StreamInv host head
      tail := h.congr rfl rfl rfl rfl id id
  rw [TCPClient.asyncCB]
  split
  case isTrue => exact streamInv_closeinl h₁
  case isFalse => exact h₁

/-- **Every step keeps the decoder of a client in order.** -/
theorem StreamInv.step (h : s.StreamInv host head tail) {e : ClientEvent}
    (hstep : s.step host e = some s') : s'.StreamInv host head tail := by
  cases steps_of_step hstep with
  | setReconnectCB | connectWait | connectWaited | send | asyncClosed | timerClosed =>
    exact h.congr rfl rfl rfl rfl id id
  | connect r => exact streamInv_connectTo h false r
  | connect6 r => exact streamInv_connectTo h true r
  | connectSlept =>
    rcases s.connectSlept_cases with ⟨-, heq⟩ | ⟨-, heq⟩ <;> rw [heq] <;>
      exact h.congr rfl rfl rfl rfl id id
  | close =>
    rw [close]
    split <;> exact h.congr rfl rfl rfl rfl id id
  | asyncCB => exact h.asyncCB
  | afterConnect status readStart _ hopened hreq =>
    exact streamInv_answerConnect h hopened hreq status readStart
  | afterRecv nread _ _ _ hreading hrecv => exact h.afterRecv hreading hrecv
  | reconnectTimer r => exact streamInv_reconnectTimerCb h r
  | tcpClosed cb timerStart _ hs => exact streamInv_tcpClosed h hs timerStart
  | loopExit => exact h.congr rfl rfl rfl rfl nofun id

/-- In every run the decoder is in order. -/
theorem run_streamInv {u : Indeterminate} {es : List ClientEvent}
    (hrun : run (TCPClient.step host) (new head tail u) es = some s) :
    s.StreamInv host head tail :=
  run_invariant (fun _ _ _ h hstep => h.step hstep) (streamInv_new host head tail u) hrun

end Methods

/-! ### The stream of a client

Only reads feed the decoder, and starting it again changes nothing. -/

/-- The decoder and what has been received. -/
def stream (s : TCPClient) : PacketSync × List (NetPacket × List UInt8) := (s.packet, s.received)

section Streams

variable {host : Host} {head tail : UInt8} {s s' : TCPClient}

/-- `closeinl` leaves the decoder and what it has delivered. -/
theorem stream_closeinl (s : TCPClient) : s.closeinl.stream = s.stream := by
  rw [closeinl]
  split <;> rfl

/-- So does the callback of the user. -/
theorem stream_callReconnectCb (s : TCPClient) (event : NetEventType) :
    (s.callReconnectCb event).stream = s.stream := by
  obtain ⟨log, heq⟩ := s.callReconnectCb_eq event
  rw [heq]
  rfl

/-- So does `init`, where starting the decoder again changes nothing. -/
theorem stream_init (hrestart : s.startPacket.packet = s.packet) (r : InitResult) :
    (s.init r).1.stream = s.stream := by
  have hstart : (s.startPacket.packet, s.received) = s.stream := by rw [hrestart, stream]
  rcases init_cases s r with ⟨-, heq⟩ | ⟨-, heq | ⟨iret, -, heq⟩ | ⟨-, heq⟩ | heq⟩
  · rw [heq]
  · rw [heq]
  · rw [heq]
    rfl
  · rw [heq]
    exact hstart
  · rw [heq]
    exact hstart

/-- So does the attempt of `Connect`. -/
theorem stream_startConnect (s : TCPClient) (isIPv6 : Bool) (r : ConnectResult) :
    (s.startConnect isIPv6 r).stream = s.stream := by
  rcases startConnect_cases s isIPv6 r with heq | heq | heq
  all_goals exact (congrArg stream heq).trans rfl

/-- So do `Connect` and `Connect6` on a decoder that has been started with the same bytes. -/
theorem stream_connectTo (h : s.StreamInv host head tail) (hstarted : s.packet.Started host head tail)
    (isIPv6 : Bool) (r : ConnectResult) : (s.connectTo isIPv6 r).stream = s.stream := by
  have hclose := stream_closeinl s
  have hpacket : s.closeinl.packet = s.packet := congrArg Prod.fst hclose
  have hrestart : s.closeinl.startPacket.packet = s.closeinl.packet := by
    have hinv := streamInv_closeinl h
    rw [startPacket, hinv.head_eq, hinv.tail_eq]
    exact (hpacket ▸ hstarted : s.closeinl.packet.Started host head tail).restart
  have hinit := stream_init hrestart r.toInitResult
  rw [← hclose, ← hinit]
  rcases connectTo_cases s isIPv6 r with heq | ⟨-, heq⟩
  · rw [heq]
    rfl
  · rw [heq]
    exact stream_startConnect _ isIPv6 r

/-- So does the answer of a request. -/
theorem stream_answerConnect (s : TCPClient) (status readStart : ℤ) :
    (s.answerConnect status readStart).stream = s.stream := by
  by_cases hdata : s.answered.tcphandle.data = some .tcpClientCtx
  · rcases afterConnect_cases hdata status readStart with
      ⟨-, -, heq⟩ | ⟨-, -, heq⟩ | ⟨-, -, heq⟩ | ⟨-, -, heq⟩
    · rw [answerConnect, heq]
      rfl
    · rw [answerConnect, heq]
      rfl
    · rw [answerConnect, heq, stream_callReconnectCb]
      rfl
    · rw [answerConnect, heq]
      rfl
  · rw [answerConnect, afterConnect_of_data_ne hdata]
    rfl

/-- So does a disconnection. -/
theorem stream_afterRecvError (s : TCPClient) : s.afterRecvError.stream = s.stream :=
  stream_callReconnectCb s .disconnect

/-- So does the timer: the pending bytes are carried over to the next connection. -/
theorem stream_reconnectTimerCb (s : TCPClient) (r : AttemptResult) :
    (s.reconnectTimerCb r).stream = s.stream := by
  rcases reconnectTimerCb_cases s r with
    ⟨-, heq⟩ | ⟨-, ⟨iret, -, heq⟩ | heq | ⟨iret, -, heq⟩ | heq⟩
  all_goals exact (congrArg stream heq).trans rfl

/-- **Only reads feed the decoder.** -/
theorem StreamInv.stream_step (h : s.StreamInv host head tail)
    (hstarted : s.packet.Started host head tail) {e : ClientEvent}
    (he : ∀ nread, e ≠ .afterRecv nread) (hstep : s.step host e = some s') :
    s'.stream = s.stream := by
  cases steps_of_step hstep with
  | setReconnectCB | connectWait | connectWaited | send | asyncClosed | timerClosed | loopExit => rfl
  | connect r =>
    -- a decoder that has been started is not changed by starting it with the same bytes
    exact stream_connectTo h hstarted false r
  | connect6 r => exact stream_connectTo h hstarted true r
  | connectSlept =>
    rcases s.connectSlept_cases with ⟨-, heq⟩ | ⟨-, heq⟩ <;> rw [heq] <;> rfl
  | close =>
    rw [close]
    split <;> rfl
  | asyncCB =>
    rw [TCPClient.asyncCB]
    split
    case isTrue => exact stream_closeinl _
    case isFalse => rfl
  | afterConnect status readStart => exact stream_answerConnect s status readStart
  | afterRecv nread => exact absurd rfl (he nread)
  | reconnectTimer r => exact stream_reconnectTimerCb s r
  | tcpClosed cb timerStart =>
    obtain ⟨_, _, _, _, _, heq⟩ := s.tcpClosed_eq cb timerStart
    rw [heq]
    rfl

/-- The bytes that an event reads. -/
def readBy : ClientEvent → Option (List UInt8)
  | .afterRecv nread => nread
  | _ => none

/-- A client with a started decoder. -/
structure Streaming (host : Host) (head tail : UInt8) (s : TCPClient) : Prop
    extends s.StreamInv host head tail where
  decoder : s.packet.Started host head tail

/-- **Every step reduces what is pending and what is read.** -/
theorem Streaming.advances (h : s.Streaming host head tail) {e : ClientEvent}
    (hstep : s.step host e = some s') :
    s'.Streaming host head tail ∧
      ∃ out, (decoderFraming host head tail).Reduces (s.packet.pending ++ (readBy e).getD []) out
          s'.packet.pending ∧ s'.received = s.received ++ out := by
  have hinv := h.toStreamInv.step hstep
  have hsilent : (readBy e).getD [] = [] → s'.stream = s.stream →
      s'.Streaming host head tail ∧
        ∃ out, (decoderFraming host head tail).Reduces (s.packet.pending ++ (readBy e).getD []) out
            s'.packet.pending ∧ s'.received = s.received ++ out := by
    intro hread hstream
    obtain ⟨hpacket, hreceived⟩ := Prod.mk.inj hstream
    refine ⟨⟨hinv, hpacket ▸ h.decoder⟩, [], ?_, by rw [hreceived, List.append_nil]⟩
    rw [hread, List.append_nil, hpacket]
    exact .refl _
  by_cases he : ∀ nread, e ≠ .afterRecv nread
  · refine hsilent ?_ (h.toStreamInv.stream_step h.decoder he hstep)
    cases e with
    | afterRecv nread => exact absurd rfl (he nread)
    | _ => rfl
  · obtain ⟨nread, rfl⟩ : ∃ nread, e = .afterRecv nread := by simpa using he
    cases steps_of_step hstep with
    | afterRecv _ _ _ _ hreading hrecv =>
      obtain ⟨log, ⟨rfl, rfl⟩ | ⟨rfl, rfl⟩ | ⟨data, packet, effects, rfl, hdecode, rfl⟩⟩ :=
        h.toStreamInv.afterRecv_cases hreading hrecv
      · exact hsilent rfl (stream_afterRecvError _)
      · exact hsilent rfl rfl
      · obtain ⟨packet', effects', hdecode', hpacket, hred⟩ := h.decoder.recvdata data
        cases hdecode.symm.trans hdecode'
        exact ⟨⟨hinv, hpacket⟩, frames effects, hred, rfl⟩

/-- Without reads the decoder stays as it is. -/
theorem Streaming.run_quiet (h : s.Streaming host head tail) {es : List ClientEvent}
    (hes : ∀ nread, .afterRecv nread ∉ es) (hrun : run (TCPClient.step host) s es = some s') :
    s'.Streaming host head tail ∧ s'.packet = s.packet := by
  induction es generalizing s with
  | nil =>
    cases hrun
    exact ⟨h, rfl⟩
  | cons e es ih =>
    obtain ⟨s₁, hs₁, hrun'⟩ := run_cons_eq_some.mp hrun
    have he : ∀ nread, e ≠ .afterRecv nread := fun nread heq => hes nread (heq ▸ List.mem_cons_self)
    have hpacket : s₁.packet = s.packet :=
      congrArg Prod.fst (h.toStreamInv.stream_step h.decoder he hs₁)
    obtain ⟨h', heq⟩ := ih (h.advances hs₁).1
      (fun nread hmem => hes nread (List.mem_cons_of_mem e hmem)) hrun'
    exact ⟨h', heq.trans hpacket⟩

/-- A successful connect request and `uv_read_start`. -/
theorem answerConnect_zero (hdata : s.tcphandle.data = some .tcpClientCtx) :
    (s.answerConnect 0 0).loopThreads = s.loopThreads ∧
      (s.answerConnect 0 0).tcphandle.reading = true := by
  rcases afterConnect_cases (s := s.answered) hdata 0 0 with
    ⟨hne, -⟩ | ⟨hne, -⟩ | ⟨-, -, heq⟩ | ⟨-, -, heq⟩
  · exact absurd rfl hne
  · exact absurd rfl hne
  · rw [answerConnect, heq, callReconnectCb]
    split <;> exact ⟨rfl, rfl⟩
  · rw [answerConnect, heq]
    exact ⟨rfl, rfl⟩

/-- A client that is being read can read any bytes and goes on being read. -/
theorem Streaming.exists_read (h : s.Streaming host head tail)
    (hreading : 0 < s.loopThreads ∧ s.tcphandle.reading = true) (data : List UInt8) :
    ∃ s', s.step host (.afterRecv (some data)) = some s' ∧
      0 < s'.loopThreads ∧ s'.tcphandle.reading = true := by
  obtain ⟨hopened, hdata⟩ := h.reading hreading.2
  have hstep : s.step host (.afterRecv (some data)) = s.afterRecv host (some data) :=
    if_pos ⟨hreading.1, hopened, hreading.2⟩
  have hctx : ¬ ((s.callback .allocBufferForRecv).callback .afterRecv).tcphandle.data ≠
      some .tcpClientCtx := not_not.mpr hdata
  rw [hstep, afterRecv.eq_def]
  simp only
  rw [if_neg hctx]
  cases data with
  | nil => exact ⟨_, rfl, hreading⟩
  | cons b bs =>
    obtain ⟨packet, effects, hrecv, -, -⟩ := h.decoder.recvdata (b :: bs)
    exact ⟨_, Option.map_eq_some_iff.mpr ⟨(packet, effects), hrecv, rfl⟩, hreading⟩

end Streams

/-- The close of `tcphandle` does not complete. -/
def KeepsHandle (e : ClientEvent) : Prop := ∀ timerStart, e ≠ .tcpClosed timerStart

/-- A client as a machine that decodes a stream. -/
def clientDecodes (host : Host) (head tail : UInt8) :
    (decoderFraming host head tail).Decodes (TCPClient.step host) KeepsHandle readBy received where
  pending s := s.packet.pending
  Inv := Streaming host head tail
  Reading s := 0 < s.loopThreads ∧ s.tcphandle.reading = true
  inv_step _ _ _ h _ hstep := (h.advances hstep).1
  reduces _ _ _ h _ hstep := (h.advances hstep).2
  scan_pending _ h := h.decoder.scan_pending
  read _ h hreading data := by
    obtain ⟨s', hstep, hreading'⟩ := h.exists_read hreading data
    exact ⟨.afterRecv (some data), s', nofun, rfl, hstep, hreading'⟩

/-- **What a reconnected client receives**: from a timer callback that reconnects to the success of a
connect request nothing is read, and then come the frames of what the earlier connection left pending,
followed by what the new one reads. -/
theorem delivers_of_reconnectTimer {host : Host} {head tail : UInt8} {s s₁ s₂ s₃ : TCPClient}
    {r : AttemptResult} {es : List ClientEvent} (h : s.StreamInv host head tail)
    (hrec : s.isreconnecting = true) (htimer : s.step host (.reconnectTimer r) = some s₁)
    (hes : ∀ nread, .afterRecv nread ∉ es) (hrun : run (TCPClient.step host) s₁ es = some s₂)
    (hdata : s₂.tcphandle.data = some .tcpClientCtx)
    (hconnect : s₂.step host (.afterConnect 0 0) = some s₃)
    (pieces : List (List UInt8)) (out : List (NetPacket × List UInt8)) :
    Delivers (TCPClient.step host) KeepsHandle readBy received s₃ pieces out ↔
      out = (decoderFraming host head tail).scan (s.packet.pending ++ pieces.flatten) := by
  have hstart : s.Streaming host head tail := ⟨h, h.started (.inr (.inr (.inr hrec)))⟩
  have hrun' : run (TCPClient.step host) s (.reconnectTimer r :: es) = some s₂ :=
    run_cons_eq_some.mpr ⟨s₁, htimer, hrun⟩
  obtain ⟨h₂, hpacket₂⟩ := hstart.run_quiet
    (fun nread hmem => (List.mem_cons.mp hmem).elim (fun heq => by cases heq) (hes nread)) hrun'
  have h₃ := (h₂.advances hconnect).1
  have hne : ∀ nread, ClientEvent.afterConnect 0 0 ≠ .afterRecv nread := nofun
  have hpacket₃ : s₃.packet = s₂.packet :=
    congrArg Prod.fst (h₂.toStreamInv.stream_step h₂.decoder hne hconnect)
  have hreading : 0 < s₃.loopThreads ∧ s₃.tcphandle.reading = true := by
    obtain ⟨⟨hloop, -, -⟩, heq⟩ := Option.ite_none_right_eq_some.mp hconnect
    cases heq
    obtain ⟨hthreads, hread⟩ := answerConnect_zero hdata
    exact ⟨hthreads ▸ hloop, hread⟩
  rw [← hpacket₂, ← hpacket₃]
  exact (clientDecodes host head tail).delivers_iff h₃ hreading pieces out

end TCPClient

end MyUvpp
