import MyUvpp.TcpServer.ServerRun

/-! # The pool of contexts

A context is used by a client, is being closed, waits in the pool or has been freed, and only one of
these. `AcceptConnection` breaks this in one place: when `uv_accept` fails it puts a context into the
pool whose handle it has just registered. Without such a failure every context in the pool has an
unregistered handle, and this is what `uv_tcp_init` finds. -/

namespace MyUvpp

/-- What a context may be in use for. -/
inductive CtxUse where
  /-- It is the open context of an entry of `clients_list_`. -/
  | client
  /-- Its handle is being closed. -/
  | closing
  /-- It is in `avai_tcphandle_`. -/
  | pooled
  /-- It is not allocated. -/
  | freed

namespace TCPServer

/-- The uses of the context at an address. -/
def Uses (s : TCPServer) (a : ℕ) : CtxUse → Prop
  | .client => a ∈ s.handles ∧ (s.heap a).tcphandle.state = .opened
  | .closing => (s.heap a).tcphandle.state.isClosing = true
  | .pooled => a ∈ s.avaiTcphandle
  | .freed => a ∉ s.live

/-- The pool of contexts is in order. -/
structure PoolInOrder (s : TCPServer) : Prop where
  one_use : ∀ a k k', s.Uses a k → s.Uses a k' → k = k'
  /-- No two entries of `clients_list_` share a context. -/
  one_client : s.handles.Nodup
  nodup : s.avaiTcphandle.Nodup
  size : s.avaiTcphandle.length ≤ 21
  unregistered : ∀ a ∈ s.avaiTcphandle, (s.heap a).tcphandle.state = .unregistered
  /-- The next `uv_tcp_init` of `AcceptConnection` is on an unregistered handle. -/
  init_unregistered : ∀ u, (s.takenCtx u).tcphandle.state = .unregistered

/-- What holds between two steps, as long as `uv_accept` does not fail. -/
structure ContextInv (s : TCPServer) : Prop extends s.ConnInv where
  size : s.avaiTcphandle.length ≤ 21
  unregistered : ∀ a ∈ s.avaiTcphandle, (s.heap a).tcphandle.state = .unregistered
  registered_live : ∀ a, (s.heap a).tcphandle.state ≠ .unregistered → a ∈ s.live

variable {s : TCPServer}

/-- A context taken for a connection has a handle that is not registered. -/
theorem ContextInv.takenCtx (h : s.ContextInv) (u : Indeterminate) :
    (s.takenCtx u).tcphandle.state = .unregistered := by
  have hpooled := h.unregistered
  rw [TCPServer.takenCtx]
  cases hpool : s.avaiTcphandle with
  | nil => rfl
  | cons a as =>
    rw [hpool] at hpooled
    exact hpooled a List.mem_cons_self

/-- What the invariant says of the pool: its contexts are live, distinct and unregistered. -/
theorem ContextInv.poolInOrder (h : s.ContextInv) : s.PoolInOrder := by
  have hclosing {a : ℕ} (hc : s.Uses a .closing) : (s.heap a).tcphandle.state ≠ .unregistered := by
    intro heq
    rw [Uses, heq] at hc
    cases hc
  have hopened {a : ℕ} (hc : s.Uses a .client) : (s.heap a).tcphandle.state ≠ .unregistered := by
    rw [hc.2]
    exact fun heq => by cases heq
  have hclient {a : ℕ} (hc : s.Uses a .client) : ¬ s.Uses a .closing := by
    rw [Uses, hc.2]
    exact Bool.false_ne_true
  have hlive {a : ℕ} (ha : a ∈ s.avaiTcphandle ++ s.handles) : ¬ s.Uses a .freed :=
    not_not.mpr (h.live a ha)
  refine ⟨fun a k k' hk hk' => ?_, (List.nodup_append.mp h.nodup).2.1, (List.nodup_append.mp h.nodup).1,
    h.size, h.unregistered, h.takenCtx⟩
  -- any two different uses exclude each other
  cases k with
  | client =>
    cases k' with
    | client => rfl
    | closing => exact absurd hk' (hclient hk)
    | pooled => exact absurd (h.unregistered a hk') (hopened hk)
    | freed => exact absurd hk' (hlive (List.mem_append_right _ hk.1))
  | closing =>
    cases k' with
    | client => exact absurd hk (hclient hk')
    | closing => rfl
    | pooled => exact absurd (h.unregistered a hk') (hclosing hk)
    | freed => exact absurd (h.registered_live a (hclosing hk)) hk'
  | pooled =>
    cases k' with
    | client => exact absurd (h.unregistered a hk) (hopened hk')
    | closing => exact absurd (h.unregistered a hk) (hclosing hk')
    | pooled => rfl
    | freed => exact absurd hk' (hlive (List.mem_append_left _ hk))
  | freed =>
    cases k' with
    | client => exact absurd hk (hlive (List.mem_append_right _ hk'.1))
    | closing => exact absurd (h.registered_live a (hclosing hk')) hk
    | pooled => exact absurd hk (hlive (List.mem_append_left _ hk'))
    | freed => rfl

/-- A server just constructed has an empty pool and no memory. -/
theorem contextInv_new (packhead packtail : UInt8) : (new packhead packtail).ContextInv where
  toPoolInv := poolInv_new packhead packtail
  unclosed _ hc := absurd hc List.not_mem_nil
  size := Nat.zero_le 21
  unregistered _ ha := absurd ha List.not_mem_nil
  registered_live _ ha := absurd rfl ha

/-! ### The parts of a step -/

section Steps

variable {addr : ℕ} {u : Indeterminate} {ctx : TcpClientCtx}

/-- Taking a context frees no memory. -/
theorem mem_live_withTaken {a : ℕ} (ha : a ∈ s.live) : a ∈ (s.withTaken addr ctx).live := by
  rw [withTaken]
  simp only
  split
  case isTrue => exact List.mem_cons_of_mem _ ha
  case isFalse => exact ha

/-- A context has been taken: the registered handles are allocated. -/
theorem ContextInv.registered_live_withTaken (h : s.ContextInv) (a : ℕ)
    (ha : ((s.withTaken addr ctx).heap a).tcphandle.state ≠ .unregistered) :
    a ∈ (s.withTaken addr ctx).live := by
  by_cases heq : a = s.takenAddr addr
  · exact heq ▸ h.live_withTaken addr ctx _ List.mem_cons_self
  · rw [heap_withTaken_of_ne heq] at ha
    exact mem_live_withTaken (h.registered_live a ha)

/-- A context has been taken: the handles in the pool are unregistered. -/
theorem ContextInv.unregistered_withTaken (h : s.ContextInv) (haddr : addr ∉ s.live) (a : ℕ)
    (ha : a ∈ s.avaiTcphandle.tail) :
    ((s.withTaken addr ctx).heap a).tcphandle.state = .unregistered := by
  rw [h.heap_withTaken_other haddr ctx (List.mem_append_left _ ha)]
  exact h.unregistered a (List.mem_of_mem_tail ha)

/-- `uv_tcp_init` fails, and the context goes back to the pool. -/
theorem ContextInv.notInit (h : s.ContextInv) (haddr : addr ∉ s.live)
    (hconn : ((s.withTaken addr (s.takenCtx u)).pushBack (s.takenAddr addr)).ConnInv) :
    ((s.withTaken addr (s.takenCtx u)).pushBack (s.takenAddr addr)).ContextInv where
  toConnInv := hconn
  size := by
    show (s.avaiTcphandle.tail ++ [_]).length ≤ 21
    have hsize := h.size
    rw [List.length_append, List.length_tail, List.length_singleton]
    omega
  unregistered a ha := by
    rcases List.mem_append.mp ha with ha | ha
    · exact h.unregistered_withTaken haddr a ha
    -- the failed `uv_tcp_init` has not registered the handle
    · rw [List.mem_singleton.mp ha]
      exact (congrArg (·.tcphandle.state) (heap_withTaken s addr _)).trans (h.takenCtx u)
  registered_live a ha := h.registered_live_withTaken a ha

/-- A context is taken and stays in use. -/
theorem ContextInv.taken (h : s.ContextInv) (haddr : addr ∉ s.live) {s' : TCPServer}
    (hconn : s'.ConnInv) (hheap : s'.heap = (s.withTaken addr ctx).heap)
    (hlive : s'.live = (s.withTaken addr ctx).live)
    (hpool : s'.avaiTcphandle = s.avaiTcphandle.tail) : s'.ContextInv where
  toConnInv := hconn
  size := by
    have hsize := h.size
    rw [hpool, List.length_tail]
    omega
  unregistered a ha := by
    rw [hpool] at ha
    rw [hheap]
    exact h.unregistered_withTaken haddr a ha
  registered_live a ha := by
    rw [hheap] at ha
    rw [hlive]
    exact h.registered_live_withTaken a ha

/-- Handles change in a way that registers none and unregisters none. -/
theorem ContextInv.congr (h : s.ContextInv) {s' : TCPServer} (hconn : s'.ConnInv)
    (hlive : s'.live = s.live) (hpool : s'.avaiTcphandle = s.avaiTcphandle)
    (hstate : ∀ a, (s'.heap a).tcphandle.state = .unregistered ↔
      (s.heap a).tcphandle.state = .unregistered) : s'.ContextInv where
  toConnInv := hconn
  size := hpool ▸ h.size
  unregistered a ha := (hstate a).mpr (h.unregistered a (hpool ▸ ha))
  registered_live a ha := by
    rw [hlive]
    exact h.registered_live a ((hstate a).not.mp ha)

/-- After a close callback the handle is not registered, and the others stand as they were. -/
theorem state_closed (s : TCPServer) (addr a : ℕ) :
    ((s.setTcphandle addr (s.heap addr).tcphandle.closed).heap a).tcphandle.state =
      if a = addr then .unregistered else (s.heap a).tcphandle.state := by
  split
  case isTrue heq =>
    rw [heq, heap_setTcphandle]
    rfl
  case isFalse hne => rw [heap_setTcphandle_of_ne hne]

/-- The close of a handle has completed, and its context is kept for reuse or freed. -/
theorem ContextInv.recycle (h : s.ContextInv) {s₁ : TCPServer} (hconn : (s₁.recycle addr).ConnInv)
    (hheap : s₁.heap = (s.setTcphandle addr (s.heap addr).tcphandle.closed).heap)
    (hlive : s₁.live = s.live) (hpool : s₁.avaiTcphandle = s.avaiTcphandle) :
    (s₁.recycle addr).ContextInv := by
  have hclosed (a : ℕ) : (s₁.heap a).tcphandle.state =
      if a = addr then .unregistered else (s.heap a).tcphandle.state := by
    rw [hheap, state_closed]
  have hpooled (a : ℕ) (ha : a ∈ s.avaiTcphandle) : (s₁.heap a).tcphandle.state = .unregistered := by
    rw [hclosed, h.unregistered a ha, ite_self]
  rw [TCPServer.recycle] at hconn ⊢
  split at hconn
  case isTrue hfull =>
    rw [if_pos hfull]
    refine ⟨hconn, hpool ▸ h.size, fun a ha => hpooled a (hpool ▸ ha), fun a ha => ?_⟩
    -- the freed context is not registered any more
    have ha' : (s₁.heap a).tcphandle.state ≠ .unregistered := ha
    rw [hclosed] at ha'
    obtain ⟨hne, hstate⟩ : a ≠ addr ∧ (s.heap a).tcphandle.state ≠ .unregistered := by
      by_cases heq : a = addr
      · rw [if_pos heq] at ha'
        exact absurd rfl ha'
      · rw [if_neg heq] at ha'
        exact ⟨heq, ha'⟩
    show a ∈ s₁.live.erase addr
    rw [hlive]
    exact (List.mem_erase_of_ne hne).mpr (h.registered_live a hstate)
  case isFalse hroom =>
    rw [if_neg hroom]
    refine ⟨hconn, ?_, fun a ha => ?_, fun a ha => ?_⟩
    · show (s₁.avaiTcphandle ++ [addr]).length ≤ 21
      rw [List.length_append, List.length_singleton]
      rw [maxHandleListSize] at hroom
      omega
    · show (s₁.heap a).tcphandle.state = .unregistered
      rcases List.mem_append.mp ha with ha | ha
      · exact hpooled a (hpool ▸ ha)
      · rw [hclosed, if_pos (List.mem_singleton.mp ha)]
    · have ha' : (s₁.heap a).tcphandle.state ≠ .unregistered := ha
      rw [hclosed] at ha'
      show a ∈ s₁.live
      rw [hlive]
      -- a handle that is still registered was registered before
      refine h.registered_live a fun hstate => ha' ?_
      rw [hstate, ite_self]

/-- **The close of a handle completes.** -/
theorem ContextInv.tcpClosed (h : s.ContextInv) {cb : Option ServerCloseCb}
    (hconn : (s.tcpClosed addr cb).ConnInv)
    (hstate : (s.heap addr).tcphandle.state = .closing cb) : (s.tcpClosed addr cb).ContextInv := by
  -- the handle of a client, or one whose connection was refused or which the server closes
  by_cases hmem : addr ∈ s.handles
  · obtain ⟨c, hc, rfl⟩ := List.mem_map.mp hmem
    rw [h.tcpClosed_client hc hstate] at hconn ⊢
    exact h.recycle hconn rfl rfl rfl
  · rcases h.tcpClosed_other hmem hstate with heq | ⟨-, heq⟩
    · rw [heq] at hconn ⊢
      refine ⟨hconn, h.size, fun a ha => ?_, fun a ha => ?_⟩
      · rw [state_closed, h.unregistered a ha, ite_self]
      · refine h.registered_live a fun hun => ha ?_
        rw [state_closed, hun, ite_self]
    · rw [heq] at hconn ⊢
      exact h.recycle hconn rfl rfl rfl

end Steps

end TCPServer

namespace ServerState

/-- The event is not a connection that `uv_accept` refuses after `uv_tcp_init`. -/
def Accepts : ServerLifeEvent → Prop
  | .acceptConnection status r _ _ => status = 0 → r.tcpInit = 0 → r.accept = 0
  | _ => True

/-- Whether an event is one that the loop delivers can be looked up in the event. -/
instance : ∀ e, Decidable (Accepts e)
  | .acceptConnection _ _ _ _ => inferInstanceAs (Decidable (_ → _ → _))
  | .start _ _ | .startThread | .startWaited _ | .setRecvCB _ | .broadcast _ _ | .close
  | .asyncCloseCB | .afterRecv _ _ | .tcpClosed _ _ | .serverClosed | .asyncClosed | .loopExit =>
    inferInstanceAs (Decidable True)

variable {host : Host} {s s' : ServerState}

/-- The walk of `closeWalkCB` registers no handle and forgets none. -/
theorem state_walkClose (s : ServerState) (a : ℕ) :
    (s.walkClose.heap a).tcphandle.state = .unregistered ↔
      (s.heap a).tcphandle.state = .unregistered := by
  have hheap : (s.walkClose.heap a).tcphandle =
      (s.heap a).tcphandle.walkClose .afterServerClose := rfl
  rw [hheap]
  by_cases hopened : (s.heap a).tcphandle.state = .opened
  · rw [UvTcp.walkClose_of_opened _ hopened, hopened]
    exact iff_of_false (fun heq => by cases heq) fun heq => by cases heq
  · rw [UvTcp.walkClose_of_not_opened _ hopened]

/-- **A step keeps the pool in order** unless `uv_accept` fails. -/
theorem ConnStep.contextInv {e : ServerLifeEvent} {p : TCPServer} {calls : ℕ → ℕ}
    (hconn : s.ConnStep e p calls) (h : s.ContextInv) (haccepts : Accepts e) : p.ContextInv := by
  have hinv := hconn.connInv h.toConnInv
  cases hconn with
  | quiet => exact h
  | closeAll =>
    obtain ⟨_, _, heq⟩ := s.closeClients_eq
    have hlive : s.closeClients.walkClose.live = s.live := by
      rw [heq]
      rfl
    have hpool : s.closeClients.walkClose.avaiTcphandle = s.avaiTcphandle := by
      rw [heq]
      rfl
    refine h.congr hinv hlive hpool fun a => ?_
    rw [state_walkClose, state_closeClients h.toConnInv]
    split
    case isTrue hmem =>
      -- the handle of a client is registered, before and after
      obtain ⟨c, hc, rfl⟩ := List.mem_map.mp hmem
      refine iff_of_false (fun heq => by cases heq) fun heq => ?_
      rcases (h.serves c hc).handle with ⟨hopened, -⟩ | ⟨hclosing, -⟩
      · cases hopened.symm.trans heq
      · cases hclosing.symm.trans heq
    case isFalse => rfl
  | notInit haddr => exact h.notInit haddr hinv
  | notAccepted haddr hfail => exact absurd (haccepts hfail.1 hfail.2.1) hfail.2.2
  | refused haddr => exact h.taken haddr hinv rfl rfl rfl
  | connected haddr => exact h.taken haddr hinv rfl rfl rfl
  | @closeClient c hc hopened =>
    refine h.congr hinv ?_ ?_ fun a => ?_
    · obtain ⟨_, _, heq⟩ := s.closeClient_eq c
      rw [heq]
    · obtain ⟨_, _, heq⟩ := s.closeClient_eq c
      rw [heq]
    · rw [state_closeClient (h.unclosed c hc)]
      split
      case isTrue heq =>
        -- closing does not unregister a handle
        rw [heq, hopened]
        exact iff_of_false (fun heq => by cases heq) fun heq => by cases heq
      case isFalse => rfl
  | @fed addr data packet out =>
    refine h.congr hinv rfl rfl fun a => ?_
    by_cases heq : a = addr
    · rw [heq, TCPServer.fed, TCPServer.heap_setCtx]
    · rw [TCPServer.fed, TCPServer.heap_setCtx_of_ne _ heq]
  | tcpClosed hlive hstate => exact h.tcpClosed hinv hstate

/-- The connections after `AcceptConnection`. -/
theorem acceptConnection_pool {status : ℤ} {r : AcceptResult} {addr : ℕ} {u : Indeterminate}
    (h : s.acceptConnection status r addr u = some s') :
    s'.toTCPServer = s.toTCPServer.acceptConnection status r addr u := by
  rw [acceptConnection] at h
  simp only at h
  split at h
  case isTrue =>
    cases h
    rfl
  case isFalse =>
    split at h
    case isTrue =>
      cases h
      rfl
    case isFalse =>
      split at h
      case isTrue =>
        cases h
        rfl
      case isFalse =>
        obtain ⟨m, -, rfl⟩ := section_eq h
        rfl

/-- A connection that `uv_accept` refuses leaves a registered handle in the pool. -/
theorem not_poolInOrder_of_not_accepts {e : ServerLifeEvent} (hnot : ¬ Accepts e)
    (hstep : s.step host e = some s') : ¬ s'.PoolInOrder := by
  cases e with
  | acceptConnection status r addr u =>
    obtain ⟨-, hcb⟩ := Option.ite_none_right_eq_some.mp hstep
    rw [Accepts] at hnot
    push Not at hnot
    obtain ⟨hstatus, htcp, haccept⟩ := hnot
    rw [acceptConnection_pool hcb, TCPServer.acceptConnection_eq, if_neg (not_not.mpr hstatus),
      if_neg (not_not.mpr htcp), if_pos haccept]
    intro hinOrder
    -- the context is the last one in the pool
    have hstate := hinOrder.unregistered (s.takenAddr addr)
      (List.mem_append_right _ (List.mem_singleton_self _))
    have hheap : ((s.withTaken addr (s.initCtx u)).heap (s.takenAddr addr)).tcphandle.state =
        .unregistered := hstate
    rw [TCPServer.heap_withTaken] at hheap
    cases hheap
  | _ => exact absurd trivial hnot

end ServerState

/-- **The pool of contexts.** In every state that a run of a server passes through every context has at
most one use, the pool has no duplicates, at most 21 entries and only contexts with unregistered
handles, and so `AcceptConnection` initialises only such handles, if and only if `uv_accept` never fails
after `uv_tcp_init` has succeeded. -/
theorem contexts_in_order_iff (host : Host) (packhead packtail : UInt8) (es : List ServerLifeEvent)
    (s : ServerState) (hrun : run (ServerState.step host) (.new packhead packtail) es = some s) :
    Throughout (ServerState.step host) (fun s => s.PoolInOrder) (.new packhead packtail) es ↔
      Along (ServerState.step host) (fun _ e => ServerState.Accepts e) (.new packhead packtail) es :=
  throughout_iff_along (I := fun s => s.ContextInv)
    (fun _ _ _ h haccepts hstep => (ServerState.step_conn h.toPoolInv hstep).contextInv h haccepts)
    (fun _ _ _ _ hnot hstep => ServerState.not_poolInOrder_of_not_accepts hnot hstep)
    (fun _ h => h.poolInOrder) (TCPServer.contextInv_new packhead packtail) hrun

/-- One connection is read, closed and followed by another one that takes its context, one is refused by
`uv_read_start`, and the server is closed. -/
theorem contexts_in_order_reused :
    ∃ s, run (ServerState.step .little) (.new 1 2)
        [.start (.user 0) default, .startThread, .acceptConnection 0 default 0 default,
          .afterRecv 0 none, .tcpClosed 0 [], .acceptConnection 0 default 1 default,
          .acceptConnection 0 ⟨0, 0, -22⟩ 1 default, .tcpClosed 1 [], .close, .asyncCloseCB] =
          some s ∧
      Throughout (ServerState.step .little) (fun s => s.PoolInOrder) (.new 1 2)
        [.start (.user 0) default, .startThread, .acceptConnection 0 default 0 default,
          .afterRecv 0 none, .tcpClosed 0 [], .acceptConnection 0 default 1 default,
          .acceptConnection 0 ⟨0, 0, -22⟩ 1 default, .tcpClosed 1 [], .close, .asyncCloseCB] := by
  refine exists_last (by decide +kernel) fun s hs => ?_
  exact (contexts_in_order_iff .little 1 2 _ s hs).mpr (by decide +kernel)

/-- A connection that `uv_accept` refuses: the next one takes a context whose handle is registered, and
`uv_tcp_init` registers it again. -/
theorem context_registered_in_pool :
    ∃ s, run (ServerState.step .little) (.new 1 2)
        [.start (.user 0) default, .startThread, .acceptConnection 0 ⟨0, -24, 0⟩ 0 default] =
          some s ∧
      s.avaiTcphandle = [0] ∧ (s.heap 0).tcphandle.state = .opened ∧
      (s.takenCtx default).tcphandle.state = .opened ∧ ¬ s.PoolInOrder := by
  refine ⟨_, rfl, rfl, rfl, rfl, fun hinOrder => ?_⟩
  cases hinOrder.init_unregistered default

end MyUvpp
