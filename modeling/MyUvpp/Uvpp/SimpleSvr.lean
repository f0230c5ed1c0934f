import MyUvpp.Uvpp.HandleLife
import Mathlib.Data.List.Nodup

/-! # The client registry of the sample server (`Server.hpp`, `Server.cpp`, `TcpConn.cpp`)

`CSimpleSvr` keeps a `ClientCtx` for each accepted connection in `m_all_Client`. The entry is removed
by a lambda that is made when the connection is accepted, stored in the connection, copied into the
callback table of its handle by `close`, and called from the close callback of that handle: there it
destroys the object that owns the handle, before the handle itself is freed. -/

namespace MyUvpp

/-- The callbacks in the tables of the handles of a server; a `ClientCtx` is named by the address of
its `m_handle`. -/
inductive SvrCallback where
  /-- `std::bind(&CSimpleSvr::on_new_connected, this, ..)`. -/
  | onNewConnected
  /-- `std::bind(&TcpConn::OnRecv, this, ..)`. -/
  | onRecv (ctx : ℕ)
  /-- `std::bind(&TcpConn::OnWriteFinished, this, ..)`. -/
  | onWriteFinished (ctx : ℕ)
  /-- The lambda `[this, client_id]` of `on_new_connected`. -/
  | eraseClient (clientId : ℤ)
  deriving DecidableEq

/-- `ClientCtx`: the id of a connection, its handle, and what to call when it is closed. -/
structure ClientCtx where
  /-- `m_id`. -/
  mId : ℤ
  /-- The address of `m_handle`. -/
  handle : ℕ
  /-- `mf_close_cb`. -/
  mfCloseCb : SvrCallback

/-- A connection that has been accepted, with its `uv_tcp_t`. -/
structure SvrConnection where
  id : ℤ
  ctx : ℕ
  addr : ℕ

/-- `CSimpleSvr` and its loop. The last two fields record what happened. -/
structure CSimpleSvr where
  world : HandleWorld SvrCallback
  /-- `m_all_Client`, in the order of the keys. -/
  allClient : List (ℤ × ClientCtx)
  /-- `i` of `alloc_client_id`. -/
  i : Int32
  /-- The accepted connections, in order. -/
  accepted : List SvrConnection
  /-- The handles whose close callback has run, in order. -/
  closeDone : List ℕ

/-- What may happen next to a server. -/
inductive SvrEvent where
  /-- A connection event with its `state`; `accept` is what `uv_accept` returns and `ctx` where the
  `ClientCtx` is allocated. -/
  | newConnected (state accept : ℤ) (ctx : ℕ)
  /-- Something was read from a handle, or nothing (0), or there was an error or the end of the
  stream (negative). -/
  | recv (addr : ℕ) (len : ℤ)
  /-- The close of a handle completes. -/
  | closeCb (addr : ℕ)

namespace CSimpleSvr

/-- `CSimpleSvr::CSimpleSvr` and `start` up to the loop, with `m_handle` at an address. -/
def new (handle : ℕ) : CSimpleSvr :=
  let world : HandleWorld SvrCallback := .new
  { world := (world.construct handle .tcp).storeCallback world.next .listen .onNewConnected
    allClient := []
    i := 0
    accepted := []
    closeDone := [] }

variable (s : CSimpleSvr)

/-- The destructor of the `ClientCtx` with `m_handle` at an address. -/
def destroyCtx (ctx : ℕ) : CSimpleSvr :=
  match s.world.wrappers ctx with
  | some h => { s with world := s.world.destroy ctx h }
  | none => s

/-- `CSimpleSvr::alloc_client_id`; the id is the old value of `i`. -/
def allocClientId : CSimpleSvr := { s with i := s.i + 1 }

/-- `callbacks::store` for the handle at an address. -/
def store (addr : ℕ) (cid : UvCallbackId) (callback : SvrCallback) : CSimpleSvr :=
  { s with world := s.world.storeCallback addr cid callback }

/-- `m_all_Client.insert`; an object that is not inserted is destroyed. -/
def insert (key : ℤ) (client : ClientCtx) : CSimpleSvr :=
  if s.allClient.any (·.1 = key) then s.destroyCtx client.handle
  else { s with allClient := s.allClient ++ [(key, client)] }

/-- `m_all_Client.erase`: the entry goes out of the map, and its object is destroyed. -/
def erase (key : ℤ) : CSimpleSvr :=
  match s.allClient.find? (·.1 = key) with
  | some (_, client) =>
    { s with allClient := s.allClient.filter (·.1 ≠ key) }.destroyCtx client.handle
  | none => s

/-- The part of `CSimpleSvr::on_new_connected` for a connection that has been accepted: `SetReadCb`,
`SetCloseCb`, `SendTo` and the insertion. -/
def addClient (ctx addr : ℕ) : CSimpleSvr :=
  let id := s.i.toInt
  let s := ((s.allocClientId.store addr .readStart (.onRecv ctx)).store addr .write
    (.onWriteFinished ctx)).insert id ⟨id, ctx, .eraseClient id⟩
  { s with accepted := s.accepted ++ [⟨id, ctx, addr⟩] }

/-- `CSimpleSvr::on_new_connected`; an error in `state` is only reported. -/
def onNewConnected (_state accept : ℤ) (ctx : ℕ) : CSimpleSvr :=
  let addr := s.world.next
  let s := { s with world := s.world.construct ctx .tcp }
  if accept ≠ 0 then s.destroyCtx ctx else s.addClient ctx addr

/-- `ClientCtx::OnRecv`: a message is passed on, anything else closes the connection. -/
def onRecv (client : ClientCtx) (len : ℤ) : CSimpleSvr :=
  if len > 0 then s
  else
    match s.world.wrappers client.handle with
    | some h => { s with world := s.world.close client.handle h client.mfCloseCb }
    | none => s

/-- The close callback of a handle, with the callback of the user that it calls. -/
def closeCb (addr : ℕ) : CSimpleSvr :=
  let s := { s with world := s.world.closeCb addr, closeDone := s.closeDone ++ [addr] }
  let s :=
    match s.world.userCallback addr with
    | some (.eraseClient key) => s.erase key
    | _ => s
  { s with world := s.world.closeCbEnd addr }

/-- One step of a server; there is none where the event cannot occur. -/
def step (s : CSimpleSvr) : SvrEvent → Option CSimpleSvr
  | .newConnected state accept ctx =>
    if s.world.wrappers ctx = none then some (s.onNewConnected state accept ctx) else none
  | .recv addr len =>
    match (s.world.heap addr).data.invoke .readStart with
    | some (.onRecv ctx) =>
      if (s.world.heap addr).state = .unregistered then none
      else (s.allClient.find? (·.2.handle = ctx)).map fun p => s.onRecv p.2 len
    | _ => none
  | .closeCb addr =>
    if (s.world.heap addr).state = .closing (some ()) then some (s.closeCb addr) else none

end CSimpleSvr

end MyUvpp
