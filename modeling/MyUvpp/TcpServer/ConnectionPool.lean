import MyUvpp.Foundation.TransitionSystem
import MyUvpp.Packet.PacketSync
import MyUvpp.Uv.Handle
import Mathlib.Logic.Function.Basic

/-! # Accepting and recycling connections (`tcpserver.cpp`)

`TCPServer` between its start and its close: `AcceptConnection` takes a `TcpClientCtx` from
`avai_tcphandle_` or allocates one, `AfterRecv` feeds its decoder or closes it, and the close callbacks
recycle or free it. Contexts live at addresses. What a call into libuv returns is part of the event,
as are the address and the contents of newly allocated memory. All callbacks run on the loop thread;
the mutex of `clients_list_` and what is sent have no part in it. -/

namespace MyUvpp

/-- What `tcphandle.data` of a context may point to. -/
inductive ServerHandleData where
  | tcpClientCtx
  /-- The `AcceptClient` with this id. -/
  | acceptClient (clientId : ℕ)
  deriving DecidableEq

/-- The close callbacks of an accepted handle. -/
inductive ServerCloseCb where
  /-- `TCPServer::RecycleTcpHandle`. -/
  | recycleTcpHandle
  /-- `AcceptClient::AfterClientClose`. -/
  | afterClientClose
  /-- `TCPServer::AfterServerClose`. -/
  | afterServerClose
  deriving DecidableEq

/-- `TcpClientCtx`: the handle of one connection with its decoder. Contexts are recycled through a pool. -/
structure TcpClientCtx where
  tcphandle : UvTcp ServerHandleData ServerCloseCb
  /-- `packet_`. -/
  packet : PacketSync
  clientid : ℕ
  /-- The id of `parent_acceptclient`, `none` for `NULL`. -/
  parentAcceptclient : Option ℕ

/-- `AcceptClient`, the entry of a connection in `clients_list_`. -/
structure AcceptClient where
  clientId : ℕ
  /-- The address of `client_handle_`. -/
  clientHandle : ℕ
  isclosed : Bool

/-- The fields of `TCPServer` that connections use, and the contexts. -/
structure TCPServer where
  packetHead : UInt8
  packetTail : UInt8
  /-- The context at each address. -/
  heap : ℕ → TcpClientCtx
  /-- The addresses of the contexts that have been allocated and not freed. -/
  live : List ℕ
  avaiTcphandle : List ℕ
  /-- `clients_list_`, in the order of the ids. -/
  clientsList : List AcceptClient
  /-- `s_id` of `GetAvailaClientID`. -/
  sId : ℕ
  /-- The frames passed to `GetPacket`, each with its context. -/
  received : List (ℕ × NetPacket × List UInt8)

/-- What the calls of `AcceptConnection` return, in the order in which they are made; 0 is success. -/
structure AcceptResult where
  tcpInit : ℤ
  accept : ℤ
  readStart : ℤ

/-- Every call succeeds. -/
instance : Inhabited AcceptResult := ⟨⟨0, 0, 0⟩⟩

/-- `AllocTcpClientCtx`: a context whose handle was never initialised, with a new decoder. -/
def allocTcpClientCtx (u : Indeterminate) : TcpClientCtx := ⟨.unused, newPacketSync u, 0, none⟩

/-- `MAXLISTSIZE` of `tcpserver.cpp`, which bounds the pool of contexts and that of the write parameters. -/
def maxHandleListSize : ℕ := 20

namespace TCPServer

/-- `TCPServer::TCPServer`; no memory is allocated, and what is in it does not matter. -/
def new (packhead packtail : UInt8) : TCPServer where
  packetHead := packhead
  packetTail := packtail
  heap _ := allocTcpClientCtx default
  live := []
  avaiTcphandle := []
  clientsList := []
  sId := 0
  received := []

variable (s : TCPServer)

/-- Assign to the context at an address. -/
def setCtx (addr : ℕ) (ctx : TcpClientCtx) : TCPServer :=
  { s with heap := Function.update s.heap addr ctx }

/-- The handle of the context at an address, changed by a function of libuv. -/
def setTcphandle (addr : ℕ) (tcphandle : UvTcp ServerHandleData ServerCloseCb) : TCPServer :=
  s.setCtx addr { s.heap addr with tcphandle }

/-- A context for a new connection: the first one of `avai_tcphandle_`, or a new one at `addr`. -/
def takeCtx (addr : ℕ) (u : Indeterminate) : ℕ × TCPServer :=
  match s.avaiTcphandle with
  | [] => (addr, { s.setCtx addr (allocTcpClientCtx u) with live := addr :: s.live })
  | a :: as =>
    (a, { s.setCtx a { s.heap a with parentAcceptclient := none } with avaiTcphandle := as })

/-- `avai_tcphandle_.push_back`: the context goes to the end of the pool. -/
def pushBack (addr : ℕ) : TCPServer := { s with avaiTcphandle := s.avaiTcphandle ++ [addr] }

/-- `FreeTcpClientCtx`: the address may be allocated again. -/
def free (addr : ℕ) : TCPServer := { s with live := s.live.erase addr }

/-- Keep a context for reuse, or free it. -/
def recycle (addr : ℕ) : TCPServer :=
  if s.avaiTcphandle.length > maxHandleListSize then s.free addr else s.pushBack addr

/-- `TCPServer::GetAvailaClientID`; the new id is `sId`, and no id is handed out twice. -/
def getAvailaClientID : TCPServer := { s with sId := s.sId + 1 }

/-- `SetPacketCB` and `Start` on the decoder of a context. -/
def startPacket (addr : ℕ) : TCPServer :=
  s.setCtx addr { s.heap addr with
    packet := (s.heap addr).packet.setPacketCB.start s.packetHead s.packetTail }

/-- `new AcceptClient` for a context and its insertion into `clients_list_`. -/
def newAcceptClient (addr clientId : ℕ) : TCPServer :=
  { s.setCtx addr { s.heap addr with parentAcceptclient := some clientId } with
    clientsList := s.clientsList ++ [{ clientId, clientHandle := addr, isclosed := false }] }

/-- `TCPServer::AcceptConnection`: a context is taken, its handle initialised and connected, the client
entered into the list and reading started; where a step fails, the context goes back or its handle is
closed. -/
def acceptConnection (status : ℤ) (r : AcceptResult) (addr : ℕ) (u : Indeterminate) : TCPServer :=
  if status ≠ 0 then s
  else
    let (a, s) := s.takeCtx addr u
    let s := s.setTcphandle a ((s.heap a).tcphandle.init r.tcpInit)
    if r.tcpInit ≠ 0 then s.pushBack a
    else
      let s := (s.setTcphandle a ((s.heap a).tcphandle.setData .tcpClientCtx)).getAvailaClientID
      let s := s.setCtx a { s.heap a with clientid := s.sId }
      if r.accept ≠ 0 then s.pushBack a
      else
        let s := s.startPacket a
        let s := s.setTcphandle a ((s.heap a).tcphandle.readStart r.readStart)
        if r.readStart ≠ 0 then
          s.setTcphandle a ((s.heap a).tcphandle.close (some .recycleTcpHandle))
        else s.newAcceptClient a s.sId

/-- `AcceptClient::Close`: nothing on a client that is closed, else `uv_close` with `AfterClientClose`. -/
def closeAcceptClient (c : AcceptClient) : TCPServer :=
  if c.isclosed then s
  else
    s.setTcphandle c.clientHandle
      (((s.heap c.clientHandle).tcphandle.setData (.acceptClient c.clientId)).close
        (some .afterClientClose))

/-- `AfterRecv` for the context at an address, with the bytes read or `none` for `nread < 0`, when
`tcphandle.data` points to the context. -/
def afterRecv (host : Host) (addr : ℕ) (nread : Option (List UInt8)) : Option TCPServer :=
  match nread with
  | none =>
    match s.clientsList.find? (some ·.clientId = (s.heap addr).parentAcceptclient) with
    | some c => some (s.closeAcceptClient c)
    | none => none
  | some [] => some s
  | some data => (recvdata host (s.heap addr).packet data).map fun (packet, log) =>
      { s.setCtx addr { s.heap addr with packet } with
        received := s.received ++ (frames log).map (addr, ·) }

/-- `TCPServer::SubClientClosed`: the context of the client goes back to the pool, and its entry out of the
list. -/
def subClientClosed (clientId : ℕ) : TCPServer :=
  match s.clientsList.find? (·.clientId = clientId) with
  | some c =>
    { s.recycle c.clientHandle with
      clientsList := s.clientsList.filter (·.clientId ≠ clientId) }
  | none => s

/-- The close of the handle at an address completes. -/
def tcpClosed (addr : ℕ) (cb : Option ServerCloseCb) : TCPServer :=
  let s := s.setTcphandle addr (s.heap addr).tcphandle.closed
  match cb, (s.heap addr).tcphandle.data with
  | some .recycleTcpHandle, some .tcpClientCtx => s.recycle addr
  | some .afterClientClose, some (.acceptClient clientId) => s.subClientClosed clientId
  | _, _ => s

/-! ### Case analysis -/

/-- The address of the context that `AcceptConnection` takes. -/
def takenAddr (addr : ℕ) : ℕ := s.avaiTcphandle.headD addr

/-- The context that `AcceptConnection` takes: the first of the pool, or a new one where the pool is empty.
-/
def takenCtx (u : Indeterminate) : TcpClientCtx :=
  match s.avaiTcphandle with
  | [] => allocTcpClientCtx u
  | a :: _ => { s.heap a with parentAcceptclient := none }

/-- A context has been taken and is now `ctx`. -/
def withTaken (addr : ℕ) (ctx : TcpClientCtx) : TCPServer :=
  { s with
    heap := Function.update s.heap (s.takenAddr addr) ctx
    live := if s.avaiTcphandle = [] then addr :: s.live else s.live
    avaiTcphandle := s.avaiTcphandle.tail }

/-- The context just stored is the one read. -/
@[simp] theorem heap_setCtx (addr : ℕ) (ctx : TcpClientCtx) :
    (s.setCtx addr ctx).heap addr = ctx := Function.update_self _ _ _

/-- Storing one context leaves the others. -/
theorem heap_setCtx_of_ne {addr a : ℕ} (ha : a ≠ addr) (ctx : TcpClientCtx) :
    (s.setCtx addr ctx).heap a = s.heap a := Function.update_of_ne ha _ _

/-- Storing a handle changes the handle of its context only. -/
@[simp] theorem heap_setTcphandle (addr : ℕ) (tcphandle : UvTcp ServerHandleData ServerCloseCb) :
    (s.setTcphandle addr tcphandle).heap addr = { s.heap addr with tcphandle } :=
  s.heap_setCtx addr _

variable {s}

/-- Storing the handle of one context leaves the other contexts. -/
theorem heap_setTcphandle_of_ne {addr a : ℕ} (ha : a ≠ addr)
    (tcphandle : UvTcp ServerHandleData ServerCloseCb) :
    (s.setTcphandle addr tcphandle).heap a = s.heap a := s.heap_setCtx_of_ne ha _

/-- The taken context when `uv_tcp_init` has succeeded. -/
def initCtx (s : TCPServer) (u : Indeterminate) : TcpClientCtx :=
  { s.takenCtx u with
    tcphandle := ((s.takenCtx u).tcphandle.init 0).setData .tcpClientCtx
    clientid := s.sId + 1 }

/-- The taken context with its decoder started. -/
def startedCtx (s : TCPServer) (u : Indeterminate) : TcpClientCtx :=
  { s.initCtx u with
    packet := (s.takenCtx u).packet.setPacketCB.start s.packetHead s.packetTail }

/-- The taken context when `uv_read_start` has failed. -/
def refusedCtx (s : TCPServer) (u : Indeterminate) : TcpClientCtx :=
  { s.startedCtx u with tcphandle := (s.initCtx u).tcphandle.close (some .recycleTcpHandle) }

/-- The taken context when all calls have succeeded. -/
def connectedCtx (s : TCPServer) (u : Indeterminate) : TcpClientCtx :=
  { s.startedCtx u with
    tcphandle := (s.initCtx u).tcphandle.readStart 0
    parentAcceptclient := some (s.sId + 1) }

/-- The server when all calls have succeeded. -/
def connected (s : TCPServer) (addr : ℕ) (u : Indeterminate) : TCPServer :=
  { (s.withTaken addr (s.connectedCtx u)).getAvailaClientID with
    clientsList := s.clientsList ++
      [{ clientId := s.sId + 1, clientHandle := s.takenAddr addr, isclosed := false }] }

/-- `GetAvailaClient`: the address is taken from the pool when it has one, and the context there is reset. -/
theorem takeCtx_eq (s : TCPServer) (addr : ℕ) (u : Indeterminate) :
    s.takeCtx addr u = (s.takenAddr addr, s.withTaken addr (s.takenCtx u)) := by
  rw [takeCtx, takenAddr, withTaken, takenCtx]
  cases hpool : s.avaiTcphandle <;> simp [setCtx, takenAddr, hpool]

/-- The context taken is the one stored at the address taken. -/
@[simp] theorem heap_withTaken (s : TCPServer) (addr : ℕ) (ctx : TcpClientCtx) :
    (s.withTaken addr ctx).heap (s.takenAddr addr) = ctx := Function.update_self _ _ _

/-- Taking a context leaves the others. -/
theorem heap_withTaken_of_ne {addr a : ℕ} (ha : a ≠ s.takenAddr addr) (ctx : TcpClientCtx) :
    (s.withTaken addr ctx).heap a = s.heap a := Function.update_of_ne ha _ _

/-- Storing at the address just taken is taking the context stored. -/
theorem setCtx_withTaken (s : TCPServer) (addr : ℕ) (ctx ctx' : TcpClientCtx) :
    (s.withTaken addr ctx).setCtx (s.takenAddr addr) ctx' = s.withTaken addr ctx' := by
  rw [setCtx, withTaken, withTaken, Function.update_idem]

/-- Handing out the next client id does not touch the contexts. -/
theorem setCtx_getAvailaClientID (s : TCPServer) (addr : ℕ) (ctx : TcpClientCtx) :
    s.getAvailaClientID.setCtx addr ctx = (s.setCtx addr ctx).getAvailaClientID := rfl

/-- Handing out the next client id leaves the contexts. -/
@[simp] theorem heap_getAvailaClientID (s : TCPServer) : s.getAvailaClientID.heap = s.heap := rfl

/-- `AcceptConnection` is told of an error, fails at one of its three calls, or succeeds. -/
theorem acceptConnection_eq (s : TCPServer) (status : ℤ) (r : AcceptResult) (addr : ℕ)
    (u : Indeterminate) :
    s.acceptConnection status r addr u =
      if status ≠ 0 then s
      else if r.tcpInit ≠ 0 then (s.withTaken addr (s.takenCtx u)).pushBack (s.takenAddr addr)
      else if r.accept ≠ 0 then
        (s.withTaken addr (s.initCtx u)).getAvailaClientID.pushBack (s.takenAddr addr)
      else if r.readStart ≠ 0 then (s.withTaken addr (s.refusedCtx u)).getAvailaClientID
      else s.connected addr u := by
  rw [acceptConnection]
  refine ite_congr rfl (fun _ => rfl) fun _ => ?_
  rw [takeCtx_eq]
  simp only [setTcphandle, setCtx_withTaken, heap_withTaken, setCtx_getAvailaClientID,
    heap_getAvailaClientID, startPacket, newAcceptClient]
  by_cases htcp : r.tcpInit = 0
  · rw [if_neg (not_not.mpr htcp), if_neg (not_not.mpr htcp), htcp]
    refine ite_congr rfl (fun _ => rfl) fun _ => ?_
    by_cases hread : r.readStart = 0
    · rw [if_neg (not_not.mpr hread), if_neg (not_not.mpr hread), hread]
      rfl
    · rw [if_pos hread, if_pos hread, UvTcp.readStart, if_neg hread]
      rfl
  · rw [if_pos htcp, if_pos htcp, UvTcp.init, if_neg htcp]

/-- The five outcomes of `AcceptConnection`. -/
theorem acceptConnection_cases (s : TCPServer) (status : ℤ) (r : AcceptResult) (addr : ℕ)
    (u : Indeterminate) :
    s.acceptConnection status r addr u = s ∨
      s.acceptConnection status r addr u =
        (s.withTaken addr (s.takenCtx u)).pushBack (s.takenAddr addr) ∨
      s.acceptConnection status r addr u =
        (s.withTaken addr (s.initCtx u)).getAvailaClientID.pushBack (s.takenAddr addr) ∨
      s.acceptConnection status r addr u =
        (s.withTaken addr (s.refusedCtx u)).getAvailaClientID ∨
      s.acceptConnection status r addr u = s.connected addr u := by
  rw [acceptConnection_eq]
  split
  case isTrue => exact .inl rfl
  case isFalse =>
    refine .inr ?_
    split
    case isTrue => exact .inl rfl
    case isFalse =>
      refine .inr ?_
      split
      case isTrue => exact .inl rfl
      case isFalse =>
        refine .inr ?_
        split
        case isTrue => exact .inl rfl
        case isFalse => exact .inr rfl

/-- `AcceptConnection` with all calls succeeding. -/
theorem acceptConnection_default (s : TCPServer) (addr : ℕ) (u : Indeterminate) :
    s.acceptConnection 0 default addr u = s.connected addr u := acceptConnection_eq s 0 default addr u

/-- The end of a close touches the handle, the pool and the clients. -/
theorem tcpClosed_eq (s : TCPServer) (addr : ℕ) (cb : Option ServerCloseCb) :
    ∃ live avaiTcphandle clientsList, s.tcpClosed addr cb =
      { s.setTcphandle addr (s.heap addr).tcphandle.closed with
        live, avaiTcphandle, clientsList } := by
  have hrecycle : ∀ (s : TCPServer) (a : ℕ), ∃ live avaiTcphandle,
      s.recycle a = { s with live, avaiTcphandle } := by
    intro s a
    rw [recycle]
    split
    case isTrue => exact ⟨_, _, rfl⟩
    case isFalse => exact ⟨_, _, rfl⟩
  rw [tcpClosed.eq_def]
  simp only
  split
  case h_1 =>
    obtain ⟨live, avaiTcphandle, heq⟩ := hrecycle
      (s.setTcphandle addr (s.heap addr).tcphandle.closed) addr
    exact ⟨live, avaiTcphandle, _, heq⟩
  case h_2 =>
    rw [subClientClosed]
    split
    case h_1 c _ =>
      obtain ⟨live, avaiTcphandle, heq⟩ := hrecycle
        (s.setTcphandle addr (s.heap addr).tcphandle.closed) c.clientHandle
      rw [heq]
      exact ⟨live, avaiTcphandle, _, rfl⟩
    case h_2 => exact ⟨_, _, _, rfl⟩
  case h_3 => exact ⟨_, _, _, rfl⟩

end TCPServer

/-- What may happen next to a server. -/
inductive ServerEvent where
  /-- A connection arrives; `addr` and `u` are what `malloc` would return. -/
  | acceptConnection (status : ℤ) (r : AcceptResult) (addr : ℕ) (u : Indeterminate)
  | afterRecv (addr : ℕ) (nread : Option (List UInt8))
  | tcpClosed (addr : ℕ)

namespace TCPServer

/-- One step of a server; there is none where the event cannot occur. -/
def step (host : Host) (s : TCPServer) : ServerEvent → Option TCPServer
  | .acceptConnection status r addr u =>
    if addr ∈ s.live then none else some (s.acceptConnection status r addr u)
  | .afterRecv addr nread =>
    if addr ∈ s.live ∧ (s.heap addr).tcphandle.state = .opened ∧ (s.heap addr).tcphandle.reading ∧
        (s.heap addr).tcphandle.data = some .tcpClientCtx then
      s.afterRecv host addr nread
    else none
  | .tcpClosed addr =>
    match (s.heap addr).tcphandle.state with
    | .closing cb => if addr ∈ s.live then some (s.tcpClosed addr cb) else none
    | _ => none

variable {host : Host} {s s' : TCPServer}

/-- What an accept does: the address it may allocate is not in use. -/
theorem step_acceptConnection {status : ℤ} {r : AcceptResult} {addr : ℕ} {u : Indeterminate}
    (hstep : s.step host (.acceptConnection status r addr u) = some s') :
    addr ∉ s.live ∧ s' = s.acceptConnection status r addr u := by
  obtain ⟨haddr, heq⟩ := Option.ite_none_left_eq_some.mp hstep
  exact ⟨haddr, (Option.some.inj heq).symm⟩

/-- What a close callback does: the handle was closing and its memory is live. -/
theorem step_tcpClosed {addr : ℕ} (hstep : s.step host (.tcpClosed addr) = some s') :
    ∃ cb, (s.heap addr).tcphandle.state = .closing cb ∧ addr ∈ s.live ∧
      s' = s.tcpClosed addr cb := by
  rw [step] at hstep
  split at hstep
  case h_1 cb hstate =>
    obtain ⟨hlive, heq⟩ := Option.ite_none_right_eq_some.mp hstep
    exact ⟨cb, hstate, hlive, (Option.some.inj heq).symm⟩
  case h_2 => cases hstep

end TCPServer

end MyUvpp
