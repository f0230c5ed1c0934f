import MyUvpp.TcpServer.ServerRun

/-! # How often a connection is closed

`AcceptClient::Close` is guarded by a flag that is set when the close has completed, and `closeinl`
closes all clients, those included that an error has closed already. Each handle is closed at most once
as long as `closeinl` finds no such client, and exactly then. -/

namespace MyUvpp

/-- How often a handle in this state has been closed since its `uv_tcp_init`. -/
def HandleState.Closes {κ : Type*} : HandleState κ → ℕ → Prop
  | .unregistered, n => n ≤ 1
  | .opened, n => n = 0
  | .closing _, n => n = 1

/-- A handle whose state agrees with its count has been closed at most once. -/
theorem HandleState.Closes.le_one {κ : Type*} {st : HandleState κ} {n : ℕ} (h : st.Closes n) :
    n ≤ 1 := by
  cases st with
  | unregistered => exact h
  | opened => exact (show n = 0 from h).trans_le zero_le_one
  | closing => exact (show n = 1 from h).le

/-- Each handle has been closed as often as its state says. -/
def ClosedOnce (heap : ℕ → TcpClientCtx) (calls : ℕ → ℕ) : Prop :=
  ∀ a, (heap a).tcphandle.state.Closes (calls a)

/-- Changing one context together with its count keeps the agreement of all the others. -/
theorem ClosedOnce.update {heap : ℕ → TcpClientCtx} {calls : ℕ → ℕ} (h : ClosedOnce heap calls)
    (a : ℕ) {ctx : TcpClientCtx} {n : ℕ} (hctx : ctx.tcphandle.state.Closes n) :
    ClosedOnce (Function.update heap a ctx) (Function.update calls a n) := by
  intro b
  by_cases heq : b = a
  · rwa [heq, Function.update_self, Function.update_self]
  · rw [Function.update_of_ne heq, Function.update_of_ne heq]
    exact h b

namespace ServerState

/-- If the event makes `closeinl` go on behind its guard, then no client is being closed. -/
def ClosesOpen (s : ServerState) (e : ServerLifeEvent) : Prop :=
  s.closesAll e = true → ∀ c ∈ s.clientsList, (s.heap c.clientHandle).tcphandle.state = .opened

/-- Whether an event closes a handle that is still open can be looked up in the state. -/
instance (s : ServerState) (e : ServerLifeEvent) : Decidable (s.ClosesOpen e) :=
  inferInstanceAs (Decidable (_ → _))

variable {host : Host} {s s' : ServerState}

/-- The walk of `closeWalkCB` keeps the count of `uv_close` in step with the state of each handle. -/
theorem walkClose_closes (s : ServerState) {a : ℕ}
    (h : (s.heap a).tcphandle.state.Closes (s.closeCalls a)) :
    (s.walkClose.heap a).tcphandle.state.Closes (s.walkClose.closeCalls a) := by
  have hcalls : s.walkClose.closeCalls a =
      if (s.heap a).tcphandle.state = .opened then s.closeCalls a + 1 else s.closeCalls a := rfl
  have hheap : (s.walkClose.heap a).tcphandle =
      (s.heap a).tcphandle.walkClose .afterServerClose := rfl
  rw [hcalls, hheap]
  -- an open handle is closed for the first time, and any other is passed over
  by_cases hopened : (s.heap a).tcphandle.state = .opened
  · rw [hopened] at h
    rw [if_pos hopened, UvTcp.walkClose_of_opened _ hopened, show s.closeCalls a = 0 from h]
    rfl
  · rw [if_neg hopened, UvTcp.walkClose_of_not_opened _ hopened]
    exact h

/-- `closeinl` closes every open handle for the first time, if no client is being closed. -/
theorem closeAll_closes (h : s.ConnInv) (hclosed : ClosedOnce s.heap s.closeCalls)
    (hopen : ∀ c ∈ s.clientsList, (s.heap c.clientHandle).tcphandle.state = .opened) :
    ClosedOnce s.closeClients.walkClose.heap s.closeClients.walkClose.closeCalls := by
  intro a
  -- first the clients are closed, then `uv_walk` closes what is still open
  refine walkClose_closes _ ?_
  rw [state_closeClients h, closeCalls_closeClients h]
  by_cases hmem : a ∈ s.handles
  · obtain ⟨c, hc, rfl⟩ := List.mem_map.mp hmem
    have hzero := hclosed c.clientHandle
    rw [hopen c hc] at hzero
    rw [if_pos hmem, if_pos hmem, show s.closeCalls c.clientHandle = 0 from hzero]
    rfl
  · rw [if_neg hmem, if_neg hmem]
    exact hclosed a

/-- `closeinl` closes a client for the second time whose close has not completed. -/
theorem closeAll_twice (h : s.ConnInv) (hclosed : ClosedOnce s.heap s.closeCalls) {c : AcceptClient}
    (hc : c ∈ s.clientsList) (hne : (s.heap c.clientHandle).tcphandle.state ≠ .opened) :
    s.closeClients.walkClose.closeCalls c.clientHandle = 2 := by
  have hstate : (s.heap c.clientHandle).tcphandle.state = .closing (some .afterClientClose) := by
    rcases (h.serves c hc).handle with ⟨hopened, -⟩ | ⟨hclosing, -⟩
    · exact absurd hopened hne
    · exact hclosing
  have hone := hclosed c.clientHandle
  rw [hstate] at hone
  have hmem := TCPServer.mem_handles hc
  -- the error has closed it once, `closeinl` closes it again
  have hcalls : s.closeClients.closeCalls c.clientHandle = 2 := by
    rw [closeCalls_closeClients h, if_pos hmem, show s.closeCalls c.clientHandle = 1 from hone]
  -- `uv_walk` finds it closing
  have hclients : (s.closeClients.heap c.clientHandle).tcphandle.state ≠ .opened := by
    rw [state_closeClients h, if_pos hmem]
    exact fun heq => by cases heq
  rw [← hcalls]
  exact if_neg hclients

/-- The context that is taken for a new connection. -/
theorem takenCtx_closes (hclosed : ClosedOnce s.heap s.closeCalls) (addr : ℕ) (u : Indeterminate) :
    (s.takenCtx u).tcphandle.state.Closes (s.closeCalls (s.takenAddr addr)) := by
  rw [TCPServer.takenCtx, TCPServer.takenAddr]
  cases s.avaiTcphandle with
  | nil => exact (hclosed addr).le_one
  | cons a as => exact hclosed a

/-- **A step closes no handle twice** if it does not close the clients that are being closed. -/
theorem ConnStep.closedOnce {e : ServerLifeEvent} {p : TCPServer} {calls : ℕ → ℕ}
    (hconn : s.ConnStep e p calls) (h : s.ConnInv) (hclosed : ClosedOnce s.heap s.closeCalls)
    (hopen : s.ClosesOpen e) : ClosedOnce p.heap calls := by
  cases hconn with
  | quiet => exact hclosed
  | closeAll hall => exact closeAll_closes h hclosed (hopen hall)
  | @notInit status r addr u =>
    -- the handle is as it was
    have htaken := hclosed.update (s.takenAddr addr) (takenCtx_closes hclosed addr u)
    rw [Function.update_eq_self] at htaken
    exact htaken
  | @notAccepted status r addr u =>
    -- `uv_tcp_init` starts the count anew
    exact hclosed.update _ (show (s.initCtx u).tcphandle.state.Closes 0 from rfl)
  | @refused status r addr u =>
    -- `RecycleTcpHandle` closes it at once
    exact hclosed.update _ (show (s.refusedCtx u).tcphandle.state.Closes 1 from rfl)
  | @connected status r addr u =>
    exact hclosed.update _ (show (s.connectedCtx u).tcphandle.state.Closes 0 from rfl)
  | @closeClient c hc hopened =>
    intro a
    rw [state_closeClient (h.unclosed c hc), closeCalls_closeClient (h.unclosed c hc)]
    split
    case isTrue heq =>
      -- the handle was open
      have hzero := hclosed a
      rw [heq, hopened] at hzero
      rw [heq, show s.closeCalls c.clientHandle = 0 from hzero]
      rfl
    case isFalse => exact hclosed a
  | @fed addr data packet out =>
    have hctx : ({ s.heap addr with packet } : TcpClientCtx).tcphandle.state.Closes
        (s.closeCalls addr) := hclosed addr
    have hfed := hclosed.update addr hctx
    rw [Function.update_eq_self] at hfed
    exact hfed
  | @tcpClosed addr cb =>
    have hctx : ({ s.heap addr with tcphandle := (s.heap addr).tcphandle.closed } :
        TcpClientCtx).tcphandle.state.Closes (s.closeCalls addr) := (hclosed addr).le_one
    have hend := hclosed.update addr hctx
    rw [Function.update_eq_self] at hend
    obtain ⟨_, _, _, heq⟩ := TCPServer.tcpClosed_eq s.toTCPServer addr cb
    rw [heq]
    exact hend

/-- What holds between two steps, as long as each of them closes open clients only. -/
structure CloseInv (s : ServerState) : Prop extends s.toTCPServer.ConnInv where
  closed : ClosedOnce s.heap s.closeCalls

/-- A server just constructed has closed nothing. -/
theorem closeInv_new (packhead packtail : UInt8) : (new packhead packtail).CloseInv where
  toConnInv := connInv_new packhead packtail
  closed _ := Nat.zero_le 1

/-- One event of the server keeps the count of `uv_close`, as long as it closes open handles only. -/
theorem step_closeInv (h : s.CloseInv) {e : ServerLifeEvent} (hopen : s.ClosesOpen e)
    (hstep : s.step host e = some s') : s'.CloseInv := by
  have hconn := step_conn h.toPoolInv hstep
  exact ⟨hconn.connInv h.toConnInv, hconn.closedOnce h.toConnInv h.closed hopen⟩

/-- A step that closes a client that is being closed. -/
theorem step_closes_twice (h : s.CloseInv) {e : ServerLifeEvent} (hopen : ¬ s.ClosesOpen e)
    (hstep : s.step host e = some s') : ∃ a, s'.closeCalls a = 2 := by
  rw [ClosesOpen] at hopen
  push Not at hopen
  obtain ⟨hall, c, hc, hne⟩ := hopen
  refine ⟨c.clientHandle, ?_⟩
  have hconn := step_conn h.toPoolInv hstep
  -- only the outcome in which everything is closed fits the event
  generalize s'.toTCPServer = p, s'.closeCalls = calls at hconn
  cases hconn with
  | closeAll => exact closeAll_twice h.toConnInv h.closed hc hne
  | quiet hquiet => cases hall.symm.trans hquiet
  | _ => cases hall

end ServerState

/-- **Every connection is closed once.** In every state that a run of a server passes through, whatever
its clients, its users and libuv do, `uv_close` has been called at most once for each handle since its
`uv_tcp_init`, if and only if `closeinl` never goes on behind its guard while a client is being
closed. -/
theorem clients_closed_once_iff (host : Host) (packhead packtail : UInt8)
    (es : List ServerLifeEvent) (s : ServerState)
    (hrun : run (ServerState.step host) (.new packhead packtail) es = some s) :
    Throughout (ServerState.step host) (fun s => ∀ a, s.closeCalls a ≤ 1)
        (.new packhead packtail) es ↔
      Along (ServerState.step host) ServerState.ClosesOpen (.new packhead packtail) es := by
  refine throughout_iff_along (I := ServerState.CloseInv)
    (fun s e s' h hopen hstep => ServerState.step_closeInv h hopen hstep)
    (fun s e s' h hopen hstep hle => ?_) (fun s h a => (h.closed a).le_one)
    (ServerState.closeInv_new packhead packtail) hrun
  obtain ⟨a, htwo⟩ := ServerState.step_closes_twice h hopen hstep
  have hone := hle a
  omega

/-- Two clients: the first one is closed by the end of its stream and its close completes, then the
server is closed, and started again when its loop has ended. -/
theorem clients_closed_once_two_clients :
    ∃ s, run (ServerState.step .little) (.new 1 2)
        [.start (.user 0) default, .startThread, .startWaited false, .acceptConnection 0 default 0 default,
          .acceptConnection 0 default 1 default, .afterRecv 0 none, .tcpClosed 0 [], .close,
          .asyncCloseCB, .tcpClosed 1 [], .serverClosed, .asyncClosed, .loopExit,
          .start (.user 0) default] = some s ∧
      Throughout (ServerState.step .little) (fun s => ∀ a, s.closeCalls a ≤ 1) (.new 1 2)
        [.start (.user 0) default, .startThread, .startWaited false, .acceptConnection 0 default 0 default,
          .acceptConnection 0 default 1 default, .afterRecv 0 none, .tcpClosed 0 [], .close,
          .asyncCloseCB, .tcpClosed 1 [], .serverClosed, .asyncClosed, .loopExit,
          .start (.user 0) default] := by
  refine exists_last (by decide +kernel) fun s hs => ?_
  exact (clients_closed_once_iff .little 1 2 _ s hs).mpr (by decide +kernel)

/-- A client whose stream has ended is closed again by a server that is closed before the first close
has completed. -/
theorem client_closed_twice :
    ¬ ∀ es s, run (ServerState.step .little) (.new 1 2) es = some s → ∀ a, s.closeCalls a ≤ 1 := by
  intro h
  obtain ⟨s, hs⟩ := Option.isSome_iff_exists.mp (show (run (ServerState.step .little) (.new 1 2)
    [.start (.user 0) default, .startThread, .acceptConnection 0 default 0 default,
      .afterRecv 0 none, .close, .asyncCloseCB]).isSome = true by decide +kernel)
  have htwo : (run (ServerState.step .little) (.new 1 2)
      [.start (.user 0) default, .startThread, .acceptConnection 0 default 0 default,
        .afterRecv 0 none, .close, .asyncCloseCB]).map (·.closeCalls 0) = some 2 := by
    decide +kernel
  rw [hs, Option.map_some, Option.some.injEq] at htwo
  have hone := h _ s hs 0
  omega

end MyUvpp
