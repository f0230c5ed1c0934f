import MyUvpp.TcpServer.Lifecycle
import MyUvpp.TcpServer.PoolInvariant

/-! # What a step of a server does to its connections

`closeinl` closes the clients and then every handle that is still open; the other steps do with the
connections what the connections do on their own, or nothing. `ServerState.ConnStep` says so once for
all events, and the uses of the contexts stay apart over the whole life of a server. -/

namespace MyUvpp

/-- The invariant of the connections, over the whole life of a server. -/
structure TCPServer.ConnInv (s : TCPServer) : Prop extends s.PoolInv where
  /-- A client that has been closed is deleted at once. -/
  unclosed : ∀ c ∈ s.clientsList, c.isclosed = false

namespace ServerState

/-- Whether an event makes `closeinl` go on behind its guard. -/
def closesAll (s : ServerState) : ServerLifeEvent → Bool
  | .start _ _ => !s.isclosed
  | .asyncCloseCB => s.isuseraskforclosed && !s.isclosed
  | _ => false

/-- What a step does to the connections of a server and to the counts of their closes. -/
inductive ConnStep (s : ServerState) : ServerLifeEvent → TCPServer → (ℕ → ℕ) → Prop
  | quiet {e : ServerLifeEvent} : s.closesAll e = false → s.ConnStep e s.toTCPServer s.closeCalls
  | closeAll {e : ServerLifeEvent} : s.closesAll e = true →
      s.ConnStep e s.closeClients.walkClose.toTCPServer s.closeClients.walkClose.closeCalls
  /-- `uv_tcp_init` fails. -/
  | notInit {status : ℤ} {r : AcceptResult} {addr : ℕ} {u : Indeterminate} : addr ∉ s.live →
      r.tcpInit ≠ 0 → s.ConnStep (.acceptConnection status r addr u)
        ((s.withTaken addr (s.takenCtx u)).pushBack (s.takenAddr addr)) s.closeCalls
  /-- `uv_accept` fails. -/
  | notAccepted {status : ℤ} {r : AcceptResult} {addr : ℕ} {u : Indeterminate} : addr ∉ s.live →
      status = 0 ∧ r.tcpInit = 0 ∧ r.accept ≠ 0 → s.ConnStep (.acceptConnection status r addr u)
        ((s.withTaken addr (s.initCtx u)).getAvailaClientID.pushBack (s.takenAddr addr))
        (Function.update s.closeCalls (s.takenAddr addr) 0)
  /-- `uv_read_start` fails. -/
  | refused {status : ℤ} {r : AcceptResult} {addr : ℕ} {u : Indeterminate} : addr ∉ s.live →
      r.accept = 0 → s.ConnStep (.acceptConnection status r addr u)
        (s.withTaken addr (s.refusedCtx u)).getAvailaClientID
        (Function.update s.closeCalls (s.takenAddr addr) 1)
  | connected {status : ℤ} {r : AcceptResult} {addr : ℕ} {u : Indeterminate} : addr ∉ s.live →
      r.accept = 0 → s.ConnStep (.acceptConnection status r addr u) (s.connected addr u)
        (Function.update s.closeCalls (s.takenAddr addr) 0)
  /-- A client is closed after an error or the end of its stream. -/
  | closeClient {c : AcceptClient} : c ∈ s.clientsList →
      (s.heap c.clientHandle).tcphandle.state = .opened →
      s.ConnStep (.afterRecv c.clientHandle none) (s.closeClient c).toTCPServer
        (s.closeClient c).closeCalls
  | fed {addr : ℕ} {data : List UInt8} (packet : PacketSync) (out : List (NetPacket × List UInt8)) :
      s.ConnStep (.afterRecv addr (some data)) (s.toTCPServer.fed addr packet out) s.closeCalls
  | tcpClosed {addr : ℕ} {cb : Option ServerCloseCb} {closedcb : List ServerCall} : addr ∈ s.live →
      (s.heap addr).tcphandle.state = .closing cb →
      s.ConnStep (.tcpClosed addr closedcb) (s.toTCPServer.tcpClosed addr cb) s.closeCalls

variable {host : Host} {s s' : ServerState}

/-! ### Frames -/

/-- The fields that the initialisation may change; it touches none of the connections. -/
theorem startInit_eq (s : ServerState) (r : StartResult) :
    ∃ tcpHandle listening asyncHandleClose isclosed starting newThreads startReturns, s.startInit r =
      { s with tcpHandle, listening, asyncHandleClose, isclosed, starting, newThreads,
               startReturns } := by
  have hinit : ∃ tcpHandle listening asyncHandleClose isclosed, (s.init r.toServerInitResult).1 =
      { s with tcpHandle, listening, asyncHandleClose, isclosed } := by
    rw [init]
    split
    case isTrue => exact ⟨_, _, _, _, rfl⟩
    case isFalse =>
      split
      case isTrue => exact ⟨_, _, _, _, rfl⟩
      case isFalse =>
        simp only
        split
        case isTrue => exact ⟨_, _, _, _, rfl⟩
        case isFalse => split <;> exact ⟨_, _, _, _, rfl⟩
  have hlisten : ∀ s : ServerState, ∃ listening starting newThreads startReturns,
      s.startListening r = { s with listening, starting, newThreads, startReturns } := by
    intro s
    rw [startListening]
    split
    case isTrue => exact ⟨_, _, _, _, rfl⟩
    case isFalse =>
      split
      case isTrue => exact ⟨_, _, _, _, rfl⟩
      case isFalse =>
        split
        case isTrue => exact ⟨_, _, _, _, rfl⟩
        case isFalse =>
          simp only
          split <;> exact ⟨_, _, _, _, rfl⟩
  obtain ⟨tcpHandle, listening, asyncHandleClose, isclosed, heq⟩ := hinit
  rw [startInit]
  split
  case h_1 hpair =>
    rw [hpair] at heq
    cases heq
    exact ⟨_, _, _, _, _, _, _, rfl⟩
  case h_2 hpair =>
    rw [hpair] at heq
    cases heq
    obtain ⟨_, _, _, _, heq⟩ := hlisten { s with tcpHandle, listening, asyncHandleClose, isclosed }
    exact ⟨_, _, _, _, _, _, _, heq⟩

/-- Taking the mutex of the clients changes the mutex only. -/
theorem lockClients_eq {t : ServerThread} (hlock : s.lockClients t = some s') :
    ∃ mutexClients, s.mutexClients.lock t = some mutexClients ∧ s' = { s with mutexClients } := by
  obtain ⟨mutexClients, hm, rfl⟩ := Option.map_eq_some_iff.mp hlock
  exact ⟨mutexClients, hm, rfl⟩

/-- A critical section that does nothing but lock and unlock. -/
theorem section_eq {t : ServerThread} (hlock : (s.lockClients t).map unlockClients = some s') :
    ∃ m, s.mutexClients.lock t = some m ∧ s' = { s with mutexClients := m.unlock } := by
  obtain ⟨s₁, hs₁, rfl⟩ := Option.map_eq_some_iff.mp hlock
  obtain ⟨m, hm, rfl⟩ := lockClients_eq hs₁
  exact ⟨m, hm, rfl⟩

/-- `Close` records the request and wakes the loop; it changes nothing else. -/
theorem close_eq (s : ServerState) : ∃ isuseraskforclosed asyncHandleClose,
    s.close = { s with isuseraskforclosed, asyncHandleClose } := by
  rw [close]
  split <;> exact ⟨_, _, rfl⟩

/-- The calls from `closedcb_` touch the mutex and what `Close` sets. -/
theorem calls_eq {cs : List ServerCall} (hcalls : calls cs s = some s') :
    ∃ mutexClients isuseraskforclosed asyncHandleClose,
      s' = { s with mutexClients, isuseraskforclosed, asyncHandleClose } := by
  -- on the calls that are left
  induction cs generalizing s with
  | nil =>
    cases hcalls
    exact ⟨_, _, _, rfl⟩
  | cons c cs ih =>
    obtain ⟨s₁, hs₁, hrest⟩ := Option.bind_eq_some_iff.mp hcalls
    obtain ⟨_, _, _, rfl⟩ := ih hrest
    cases c with
    | setRecvCB =>
      obtain ⟨m, -, rfl⟩ := section_eq hs₁
      exact ⟨_, _, _, rfl⟩
    | close =>
      cases hs₁
      obtain ⟨_, _, heq⟩ := s.close_eq
      rw [heq]
      exact ⟨_, _, _, rfl⟩

/-! ### Closing the clients -/

/-- Closing one client changes the contexts and their counts of `uv_close` only. -/
theorem closeClient_eq (s : ServerState) (c : AcceptClient) :
    ∃ heap closeCalls, s.closeClient c = { s with heap, closeCalls } := by
  rw [closeClient, TCPServer.closeAcceptClient]
  split <;> exact ⟨_, _, rfl⟩

/-- So does closing a list of clients. -/
theorem foldl_closeClient_eq (s : ServerState) (l : List AcceptClient) :
    ∃ heap closeCalls, l.foldl closeClient s = { s with heap, closeCalls } := by
  induction l generalizing s with
  | nil => exact ⟨_, _, rfl⟩
  | cons c l ih =>
    obtain ⟨_, _, heq⟩ := s.closeClient_eq c
    obtain ⟨_, _, heq'⟩ := ih (s.closeClient c)
    rw [List.foldl_cons, heq', heq]
    exact ⟨_, _, rfl⟩

/-- Closing touches the contexts and the counts only. -/
theorem closeClients_eq (s : ServerState) :
    ∃ heap closeCalls, s.closeClients = { s with heap, closeCalls } := s.foldl_closeClient_eq _

/-- What is closed depends on the connections only. -/
theorem foldl_closeClient_conn {s₁ : ServerState} (hpool : s₁.toTCPServer = s.toTCPServer)
    (hcalls : s₁.closeCalls = s.closeCalls) (l : List AcceptClient) :
    (l.foldl closeClient s₁).toTCPServer = (l.foldl closeClient s).toTCPServer ∧
      (l.foldl closeClient s₁).closeCalls = (l.foldl closeClient s).closeCalls := by
  -- on the clients that are left to be closed
  induction l generalizing s s₁ with
  | nil => exact ⟨hpool, hcalls⟩
  | cons c l ih =>
    rw [List.foldl_cons, List.foldl_cons]
    refine ih ?_ ?_
    · rw [closeClient, closeClient, hpool]
    · rw [closeClient, closeClient, hcalls]

/-- What the closing of all handles does to the connections depends on the connections alone. -/
theorem closeAll_conn {s₁ : ServerState} (hpool : s₁.toTCPServer = s.toTCPServer)
    (hcalls : s₁.closeCalls = s.closeCalls) :
    s₁.closeClients.walkClose.toTCPServer = s.closeClients.walkClose.toTCPServer ∧
      s₁.closeClients.walkClose.closeCalls = s.closeClients.walkClose.closeCalls := by
  have hsame := foldl_closeClient_conn hpool hcalls s.clientsList
  have hclients : s₁.closeClients = s.clientsList.foldl closeClient s₁ := by
    rw [closeClients, hpool]
  rw [hclients, closeClients, walkClose, walkClose, hsame.1, hsame.2]
  exact ⟨rfl, rfl⟩

/-- `closeinl` behind its guard: the mutex is locked, the clients are closed, then all handles. -/
theorem closeAll_eq {t : ServerThread} (h : s.closeAll t = some s') :
    (∃ m, s.mutexClients.lock t = some m ∧ s'.mutexClients = m) ∧
      s'.toTCPServer = s.closeClients.walkClose.toTCPServer ∧
      s'.closeCalls = s.closeClients.walkClose.closeCalls := by
  obtain ⟨s₁, hs₁, rfl⟩ := Option.map_eq_some_iff.mp h
  obtain ⟨m, hm, rfl⟩ := lockClients_eq hs₁
  refine ⟨⟨m, hm, ?_⟩, closeAll_conn rfl rfl⟩
  obtain ⟨heap, closeCalls, heq⟩ := closeClients_eq { s with mutexClients := m }
  rw [heq]
  rfl

/-- `closeinl` does nothing, or goes on behind its guard. -/
theorem closeinl_cases {t : ServerThread} (h : s.closeinl t = some s') :
    (s.isclosed = true ∧ s' = s) ∨ (s.isclosed = false ∧ s.closeAll t = some s') := by
  rw [closeinl] at h
  split at h
  case isTrue hclosed => exact .inl ⟨hclosed, (Option.some.inj h).symm⟩
  case isFalse hopen => exact .inr ⟨Bool.eq_false_iff.mpr hopen, h⟩

/-! ### The steps -/

/-- `Start` and `Start6`: what they do after `closeinl` is nothing to the connections. -/
theorem start_conn {t : ServerThread} {r : StartResult} (hstart : s.start t r = some s') :
    s.ConnStep (.start t r) s'.toTCPServer s'.closeCalls := by
  obtain ⟨s₁, hs₁, rfl⟩ := Option.map_eq_some_iff.mp hstart
  obtain ⟨_, _, _, _, _, _, _, heq⟩ := s₁.startInit_eq r
  rw [heq]
  -- the server is closed, or `closeinl` closes it first
  rcases closeinl_cases hs₁ with ⟨hclosed, rfl⟩ | ⟨hopen, hall⟩
  · exact .quiet (by rw [closesAll, hclosed, Bool.not_true])
  · obtain ⟨-, hpool, hcalls⟩ := closeAll_eq hall
    show s.ConnStep (.start t r) s₁.toTCPServer s₁.closeCalls
    rw [hpool, hcalls]
    exact .closeAll (by rw [closesAll, hopen, Bool.not_false])

/-- `AsyncCloseCB`: `closeinl` is called if the user has asked for it. -/
theorem asyncCloseCB_conn (hcb : s.asyncCloseCB = some s') :
    s.ConnStep .asyncCloseCB s'.toTCPServer s'.closeCalls := by
  rw [asyncCloseCB] at hcb
  simp only at hcb
  split at hcb
  case isTrue hasked =>
    rcases closeinl_cases hcb with ⟨hclosed, rfl⟩ | ⟨hopen, hall⟩
    · exact .quiet (by rw [closesAll, show s.isclosed = true from hclosed, Bool.not_true,
        Bool.and_false])
    · obtain ⟨-, hpool, hcalls⟩ := closeAll_eq hall
      -- the signal has been received, but that is nothing to the connections
      have hsame := closeAll_conn (s := s)
        (show ({ s with asyncHandleClose := s.asyncHandleClose.received } :
          ServerState).toTCPServer = s.toTCPServer from rfl) rfl
      rw [hpool, hcalls, hsame.1, hsame.2]
      exact .closeAll (by rw [closesAll, hasked, show s.isclosed = false from hopen]; rfl)
  case isFalse hasked =>
    cases hcb
    exact .quiet (by rw [closesAll, Bool.eq_false_iff.mpr hasked, Bool.false_and])

/-- `AfterRecv`: an end of the stream closes the client, an empty read is ignored, data is fed to the
decoder. -/
theorem afterRecv_conn (h : s.PoolInv) {addr : ℕ} (hopened : (s.heap addr).tcphandle.state = .opened)
    (hreading : (s.heap addr).tcphandle.reading = true) {nread : Option (List UInt8)}
    (hcb : s.afterRecv host addr nread = some s') :
    s.ConnStep (.afterRecv addr nread) s'.toTCPServer s'.closeCalls := by
  cases nread with
  | none =>
    obtain ⟨c, hc, rfl, -, hfind⟩ := h.client_of_reading hreading
    rw [afterRecv, hfind, Option.map_some, Option.some.injEq] at hcb
    subst hcb
    exact .closeClient hc hopened
  | some data =>
    obtain ⟨p, hp, rfl⟩ := Option.map_eq_some_iff.mp hcb
    cases data with
    | nil =>
      cases hp
      exact .quiet rfl
    | cons b bs =>
      obtain ⟨⟨packet, log⟩, -, rfl⟩ := Option.map_eq_some_iff.mp hp
      exact .fed packet (frames log)

/-- `AcceptConnection`, by its outcomes. -/
theorem acceptConnection_conn {status : ℤ} {r : AcceptResult} {addr : ℕ} {u : Indeterminate}
    (haddr : addr ∉ s.live) (h : s.acceptConnection status r addr u = some s') :
    s.ConnStep (.acceptConnection status r addr u) s'.toTCPServer s'.closeCalls := by
  rw [acceptConnection, TCPServer.acceptConnection_eq] at h
  -- each call of libuv may fail, and the ones after it are not made then
  by_cases hstatus : status = 0
  · by_cases htcp : r.tcpInit = 0
    · by_cases haccept : r.accept = 0
      · by_cases hread : r.readStart = 0
        · simp only [hstatus, htcp, haccept, hread, ne_eq, not_true_eq_false, or_self,
            if_false] at h
          obtain ⟨m, -, rfl⟩ := section_eq h
          exact .connected haddr haccept
        · simp only [hstatus, htcp, haccept, hread, ne_eq, not_true_eq_false, not_false_eq_true,
            or_self, if_false, if_true, Option.some.injEq] at h
          subst h
          simp only [Function.update_self, Function.update_idem]
          exact .refused haddr haccept
      · simp only [hstatus, htcp, haccept, ne_eq, not_true_eq_false, not_false_eq_true, or_self,
          if_false, if_true, Option.some.injEq] at h
        subst h
        exact .notAccepted haddr ⟨hstatus, htcp, haccept⟩
    · simp only [hstatus, htcp, ne_eq, not_true_eq_false, not_false_eq_true, false_or, if_false,
        if_true, Option.some.injEq] at h
      subst h
      exact .notInit haddr htcp
  · simp only [hstatus, ne_eq, not_false_eq_true, true_or, if_true, Option.some.injEq] at h
    subst h
    exact .quiet rfl

/-- The end of a close touches, beside the connections, the mutex and what `Close` sets. -/
theorem tcpClosed_eq {addr : ℕ} {cb : Option ServerCloseCb} {closedcb : List ServerCall}
    (h : s.tcpClosed addr cb closedcb = some s') :
    s'.toTCPServer = s.toTCPServer.tcpClosed addr cb ∧ s'.closeCalls = s.closeCalls := by
  rw [tcpClosed.eq_def] at h
  simp only at h
  split at h
  case h_1 =>
    obtain ⟨s₂, hs₂, rfl⟩ := Option.map_eq_some_iff.mp h
    obtain ⟨s₁, hs₁, hcalls⟩ := Option.bind_eq_some_iff.mp hs₂
    obtain ⟨m, -, rfl⟩ := lockClients_eq hs₁
    obtain ⟨_, _, _, rfl⟩ := calls_eq hcalls
    exact ⟨rfl, rfl⟩
  case h_2 =>
    cases h
    exact ⟨rfl, rfl⟩

/-- `Broadcast` leaves the connections alone. -/
theorem broadcast_conn {t : ServerThread} {empty : Bool} (h : s.broadcast t empty = some s') :
    s.ConnStep (.broadcast t empty) s'.toTCPServer s'.closeCalls := by
  rw [broadcast] at h
  split at h
  case isTrue =>
    cases h
    exact .quiet rfl
  case isFalse =>
    obtain ⟨m, -, rfl⟩ := section_eq h
    exact .quiet rfl

/-- **What a step does to the connections.** -/
theorem step_conn (h : s.PoolInv) {e : ServerLifeEvent} (hstep : s.step host e = some s') :
    s.ConnStep e s'.toTCPServer s'.closeCalls := by
  cases steps_of_step hstep with
  | start t r _ hstart => exact start_conn hstart
  | startThread | serverClosed | asyncClosed | loopExit => exact .quiet rfl
  | startWaited timedOut =>
    rw [startWaited]
    split <;> exact .quiet rfl
  | setRecvCB t _ hset =>
    obtain ⟨m, -, rfl⟩ := section_eq hset
    exact .quiet rfl
  | broadcast t empty _ hsend => exact broadcast_conn hsend
  | close =>
    obtain ⟨_, _, heq⟩ := s.close_eq
    rw [heq]
    exact .quiet rfl
  | asyncCloseCB _ _ _ _ hcb => exact asyncCloseCB_conn hcb
  | acceptConnection status r addr u _ _ _ _ haddr hcb => exact acceptConnection_conn haddr hcb
  | afterRecv addr nread _ _ _ hopened hreading _ hcb => exact afterRecv_conn h hopened hreading hcb
  | tcpClosed addr cb closedcb _ _ hlive hclosing hcb =>
    obtain ⟨hpool, hcalls⟩ := tcpClosed_eq hcb
    rw [hpool, hcalls]
    exact .tcpClosed hlive hclosing

/-! ### The contexts -/

/-- Closing a client leaves it in the list, to be removed by its close callback. -/
theorem clientsList_closeClient (s : ServerState) (c : AcceptClient) :
    (s.closeClient c).clientsList = s.clientsList := by
  obtain ⟨_, _, heq⟩ := s.closeClient_eq c
  rw [heq]

/-- So does closing a list of clients. -/
theorem clientsList_foldl_closeClient (s : ServerState) (l : List AcceptClient) :
    (l.foldl closeClient s).clientsList = s.clientsList := by
  obtain ⟨_, _, heq⟩ := s.foldl_closeClient_eq l
  rw [heq]

/-- `AcceptClient::Close` of a client in the list. -/
theorem connInv_closeClient (h : s.ConnInv) {c : AcceptClient} (hc : c ∈ s.clientsList) :
    (s.closeClient c).ConnInv where
  toPoolInv := h.toPoolInv.closeAcceptClient hc
  unclosed c' hc' := h.unclosed c' (s.clientsList_closeClient c ▸ hc')

/-- Closing clients that are in the list keeps the invariant of the connections. -/
theorem connInv_foldl_closeClient (h : s.ConnInv) {l : List AcceptClient}
    (hl : ∀ c ∈ l, c ∈ s.clientsList) : (l.foldl closeClient s).ConnInv := by
  induction l generalizing s with
  | nil => exact h
  | cons c l ih =>
    refine ih (connInv_closeClient h (hl c List.mem_cons_self)) fun c' hc' => ?_
    rw [clientsList_closeClient]
    exact hl c' (List.mem_cons_of_mem _ hc')

/-- The handle of a client that is closed. -/
theorem state_closeClient {c : AcceptClient} (hc : c.isclosed = false) (a : ℕ) :
    ((s.closeClient c).heap a).tcphandle.state =
      if a = c.clientHandle then .closing (some .afterClientClose)
      else (s.heap a).tcphandle.state := by
  show ((s.closeAcceptClient c).heap a).tcphandle.state = _
  rw [TCPServer.closeAcceptClient, if_neg (Bool.eq_false_iff.mp hc)]
  split
  case isTrue heq =>
    rw [heq, TCPServer.heap_setTcphandle]
    rfl
  case isFalse hne => rw [TCPServer.heap_setTcphandle_of_ne hne]

/-- The count of a client that is closed. -/
theorem closeCalls_closeClient {c : AcceptClient} (hc : c.isclosed = false) (a : ℕ) :
    (s.closeClient c).closeCalls a =
      if a = c.clientHandle then s.closeCalls a + 1 else s.closeCalls a := by
  have hcalls : (s.closeClient c).closeCalls =
      Function.update s.closeCalls c.clientHandle (s.closeCalls c.clientHandle + 1) :=
    if_neg (Bool.eq_false_iff.mp hc)
  rw [hcalls]
  split
  case isTrue heq => rw [heq, Function.update_self]
  case isFalse hne => rw [Function.update_of_ne hne]

/-- The handles of the clients when all of them are closed. -/
theorem state_foldl_closeClient {l : List AcceptClient} (hl : ∀ c ∈ l, c.isclosed = false) (a : ℕ) :
    ((l.foldl closeClient s).heap a).tcphandle.state =
      if a ∈ l.map (·.clientHandle) then .closing (some .afterClientClose)
      else (s.heap a).tcphandle.state := by
  induction l generalizing s with
  | nil => rfl
  | cons c l ih =>
    rw [List.foldl_cons, ih fun c' hc' => hl c' (List.mem_cons_of_mem _ hc'),
      state_closeClient (hl c List.mem_cons_self), List.map_cons]
    by_cases hmem : a ∈ l.map (·.clientHandle)
    · rw [if_pos hmem, if_pos (List.mem_cons_of_mem _ hmem)]
    · rw [if_neg hmem]
      refine if_congr ?_ rfl rfl
      rw [List.mem_cons, or_iff_left hmem]

/-- Each client is closed once. -/
theorem closeCalls_foldl_closeClient {l : List AcceptClient} (hl : ∀ c ∈ l, c.isclosed = false)
    (hnodup : (l.map (·.clientHandle)).Nodup) (a : ℕ) :
    (l.foldl closeClient s).closeCalls a =
      if a ∈ l.map (·.clientHandle) then s.closeCalls a + 1 else s.closeCalls a := by
  induction l generalizing s with
  | nil => rfl
  | cons c l ih =>
    obtain ⟨hnot, hnodup'⟩ := List.nodup_cons.mp (List.map_cons ▸ hnodup)
    rw [List.foldl_cons, ih (fun c' hc' => hl c' (List.mem_cons_of_mem _ hc')) hnodup',
      closeCalls_closeClient (hl c List.mem_cons_self), List.map_cons]
    by_cases hmem : a ∈ l.map (·.clientHandle)
    -- `c` has another handle, and its close does not count for this one
    · rw [if_pos hmem, if_pos (List.mem_cons_of_mem _ hmem), if_neg (ne_of_mem_of_not_mem hmem hnot)]
    · rw [if_neg hmem]
      refine if_congr ?_ rfl rfl
      rw [List.mem_cons, or_iff_left hmem]

/-- `closeinl` closes the handle of every client, whatever its state. -/
theorem state_closeClients (h : s.ConnInv) (a : ℕ) :
    (s.closeClients.heap a).tcphandle.state =
      if a ∈ s.handles then .closing (some .afterClientClose) else (s.heap a).tcphandle.state :=
  state_foldl_closeClient h.unclosed a

/-- `closeinl` calls `uv_close` once on the handle of each client, and on no other. -/
theorem closeCalls_closeClients (h : s.ConnInv) (a : ℕ) :
    s.closeClients.closeCalls a =
      if a ∈ s.handles then s.closeCalls a + 1 else s.closeCalls a :=
  closeCalls_foldl_closeClient h.unclosed (List.nodup_append.mp h.nodup).2.1 a

/-- The handle of no client is left to `uv_walk`, which does not touch the clients. -/
theorem connInv_closeAll (h : s.ConnInv) : s.closeClients.walkClose.ConnInv := by
  have hfold : s.closeClients.ConnInv := connInv_foldl_closeClient h fun _ hc => hc
  -- the clients have just been closed, so that `uv_walk` passes over them
  have hstate (c : AcceptClient) (hc : c ∈ s.closeClients.clientsList) :
      (s.closeClients.heap c.clientHandle).tcphandle.state ≠ .opened := by
    rw [closeClients, clientsList_foldl_closeClient] at hc
    rw [state_closeClients h, if_pos (TCPServer.mem_handles hc)]
    exact fun heq => by cases heq
  have hwalk (a : ℕ) (hne : (s.closeClients.heap a).tcphandle.state ≠ .opened) :
      s.closeClients.walkClose.heap a = s.closeClients.heap a := by
    rw [walkClose]
    simp only [UvTcp.walkClose_of_not_opened _ hne]
  constructor
  case unclosed => exact hfold.unclosed
  constructor
  case nodup => exact hfold.nodup
  case live => exact hfold.live
  case pooled =>
    intro a ha cb hcb
    by_cases hopened : (s.closeClients.heap a).tcphandle.state = .opened
    -- a handle in the pool that is open is closed with the server
    · have hclosed : (s.closeClients.walkClose.heap a).tcphandle.state =
          .closing (some .afterServerClose) := by
        rw [walkClose]
        simp only [UvTcp.walkClose_of_opened _ hopened, UvTcp.close_state]
      cases hclosed.symm.trans hcb
      rfl
    · rw [hwalk a hopened] at hcb
      exact hfold.pooled a ha cb hcb
  case ids => exact hfold.ids
  case ids_le => exact hfold.ids_le
  case serves =>
    intro c hc
    rw [hwalk _ (hstate c hc)]
    exact hfold.serves c hc
  case closing =>
    intro a ha
    by_cases hopened : (s.closeClients.heap a).tcphandle.state = .opened
    · rw [walkClose] at ha
      simp only [UvTcp.walkClose_of_opened _ hopened, UvTcp.close_state] at ha
      cases ha
    · rw [hwalk a hopened] at ha
      exact hfold.closing a ha
  case reading =>
    intro a ha
    have hread := UvTcp.walkClose_reading .afterServerClose fun hr => (hfold.reading a hr).2
    cases ha.symm.trans hread

/-- The connections keep their invariant, whatever a step does to them. -/
theorem ConnStep.connInv {e : ServerLifeEvent} {p : TCPServer} {calls : ℕ → ℕ}
    (hconn : s.ConnStep e p calls) (h : s.ConnInv) : p.ConnInv := by
  cases hconn with
  | quiet => exact h
  | closeAll => exact connInv_closeAll h
  | @notInit status r addr u haddr htcp =>
    have hpool := h.toPoolInv.acceptConnection haddr 0 r u
    rw [TCPServer.acceptConnection_eq, if_neg (not_not.mpr rfl), if_pos htcp] at hpool
    exact ⟨hpool, h.unclosed⟩
  | @notAccepted status r addr u haddr hfail =>
    have hpool := h.toPoolInv.acceptConnection haddr 0 r u
    rw [TCPServer.acceptConnection_eq, if_neg (not_not.mpr rfl), if_neg (not_not.mpr hfail.2.1),
      if_pos hfail.2.2] at hpool
    exact ⟨hpool, h.unclosed⟩
  | @refused status r addr u haddr =>
    have hpool := h.toPoolInv.acceptConnection haddr 0 ⟨0, 0, 1⟩ u
    rw [TCPServer.acceptConnection_eq] at hpool
    exact ⟨hpool, h.unclosed⟩
  | @connected status r addr u haddr =>
    refine ⟨h.toPoolInv.connected haddr u, fun c hc => ?_⟩
    rcases List.mem_append.mp hc with hc | hc
    · exact h.unclosed c hc
    · rw [List.mem_singleton.mp hc]
  | closeClient hc => exact connInv_closeClient h hc
  | @fed addr data packet out => exact ⟨h.toPoolInv.fed addr packet out, h.unclosed⟩
  | @tcpClosed addr cb closedcb hlive hstate =>
    refine ⟨h.toPoolInv.tcpClosed hlive hstate, fun c hc => h.unclosed c ?_⟩
    -- the list loses the client of the handle, if there is one
    by_cases hmem : addr ∈ s.handles
    · obtain ⟨c', hc', rfl⟩ := List.mem_map.mp hmem
      rw [h.toPoolInv.tcpClosed_client hc' hstate, TCPServer.recycle] at hc
      split at hc <;> exact List.mem_of_mem_filter hc
    · rcases h.toPoolInv.tcpClosed_other hmem hstate with heq | ⟨-, heq⟩
      · rw [heq] at hc
        exact hc
      · rw [heq, TCPServer.recycle] at hc
        split at hc <;> exact hc

/-- One event of the server keeps the invariant of its connections. -/
theorem step_connInv (h : s.ConnInv) {e : ServerLifeEvent} (hstep : s.step host e = some s') :
    s'.ConnInv := (step_conn h.toPoolInv hstep).connInv h

/-- A server just constructed has no connections. -/
theorem connInv_new (packhead packtail : UInt8) : (new packhead packtail).ConnInv where
  toPoolInv := TCPServer.poolInv_new packhead packtail
  unclosed _ hc := absurd hc List.not_mem_nil

end ServerState

end MyUvpp
