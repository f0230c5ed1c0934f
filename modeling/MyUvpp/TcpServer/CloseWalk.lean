import MyUvpp.TcpServer.Lifecycle
import MyUvpp.Uv.Walk
import Mathlib.Data.List.Induction

/-! # Closing the handles of a loop (`TCPServer::CloseWalkCB`)

`ServerState.walkClose` closes the handles of the loop of a server all at once. `uv_walk` comes to them one by
one, in the order in which they are linked in memory, and calls `CloseWalkCB` for each. -/

namespace MyUvpp

/-- The nodes in the handle queue of the loop of a server. -/
inductive ServerNode where
  /-- `handle_queue` of `loop_`. -/
  | head
  /-- The local variable of `uv_walk`. -/
  | walkQueue
  /-- A handle of the loop itself. -/
  | internal (n : ℕ)
  | tcpHandle
  | asyncHandleClose
  /-- The handle of the context at an address. -/
  | tcphandle (addr : ℕ)
  deriving DecidableEq, Repr

namespace ServerState

variable (s : ServerState)

/-- A handle of the server that is open. -/
def Opened : ServerNode → Prop
  | .tcpHandle => s.tcpHandle.state = .opened
  | .asyncHandleClose => s.asyncHandleClose.state = .opened
  | .tcphandle addr => (s.heap addr).tcphandle.state = .opened
  | _ => False

/-- `TCPServer::CloseWalkCB`. -/
def closeWalkCB : ServerNode → ServerState
  | .tcpHandle => { s with tcpHandle := s.tcpHandle.walkClose .afterServerClose }
  | .asyncHandleClose => { s with asyncHandleClose := s.asyncHandleClose.walkClose .afterServerClose }
  | .tcphandle addr =>
    { s with
      heap := Function.update s.heap addr { s.heap addr with
        tcphandle := (s.heap addr).tcphandle.walkClose .afterServerClose }
      closeCalls := Function.update s.closeCalls addr
        (if (s.heap addr).tcphandle.state = .opened then s.closeCalls addr + 1 else s.closeCalls addr) }
  | _ => s

/-- What is closed when `CloseWalkCB` has been called for some handles. -/
def walkCloseOf (l : List ServerNode) : ServerState :=
  { s with
    heap := fun addr => if .tcphandle addr ∈ l then
        { s.heap addr with tcphandle := (s.heap addr).tcphandle.walkClose .afterServerClose }
      else s.heap addr
    closeCalls := fun addr => if .tcphandle addr ∈ l ∧ (s.heap addr).tcphandle.state = .opened then
        s.closeCalls addr + 1
      else s.closeCalls addr
    tcpHandle := if .tcpHandle ∈ l then s.tcpHandle.walkClose .afterServerClose else s.tcpHandle
    asyncHandleClose := if .asyncHandleClose ∈ l then s.asyncHandleClose.walkClose .afterServerClose
      else s.asyncHandleClose }

variable {s} {l : List ServerNode} {node : ServerNode}

/-- Visiting one more node that was not visited before. -/
theorem closeWalkCB_walkCloseOf (hnew : node ∉ l) :
    (s.walkCloseOf l).closeWalkCB node = s.walkCloseOf (l ++ [node]) := by
  cases node with
  | head => simp [closeWalkCB, walkCloseOf]
  | walkQueue => simp [closeWalkCB, walkCloseOf]
  | internal n => simp [closeWalkCB, walkCloseOf]
  | tcpHandle => simp [closeWalkCB, walkCloseOf, hnew]
  | asyncHandleClose => simp [closeWalkCB, walkCloseOf, hnew]
  | tcphandle addr =>
    have hheap : Function.update (s.walkCloseOf l).heap addr { (s.walkCloseOf l).heap addr with
        tcphandle := ((s.walkCloseOf l).heap addr).tcphandle.walkClose .afterServerClose } =
          (s.walkCloseOf (l ++ [.tcphandle addr])).heap := by
      funext a
      by_cases heq : a = addr
      · subst heq
        simp [walkCloseOf, hnew]
      · simp [walkCloseOf, heq]
    have hcalls : Function.update (s.walkCloseOf l).closeCalls addr
        (if ((s.walkCloseOf l).heap addr).tcphandle.state = .opened then (s.walkCloseOf l).closeCalls addr + 1
          else (s.walkCloseOf l).closeCalls addr) = (s.walkCloseOf (l ++ [.tcphandle addr])).closeCalls := by
      funext a
      by_cases heq : a = addr
      · subst heq
        simp [walkCloseOf, hnew]
      · simp [walkCloseOf, heq]
    rw [closeWalkCB, hheap, hcalls]
    simp [walkCloseOf]

/-- Visiting the nodes of a list one after the other closes exactly those that were open. -/
theorem foldl_closeWalkCB (hnodup : l.Nodup) : l.foldl closeWalkCB s = s.walkCloseOf l := by
  induction l using List.reverseRecOn with
  | nil => simp [walkCloseOf]
  | append_singleton l node ih =>
    obtain ⟨hl, -, hdisjoint⟩ := List.nodup_append.mp hnodup
    have hnew : node ∉ l := fun hmem => hdisjoint node hmem node List.mem_cons_self rfl
    rw [List.foldl_append, ih hl]
    exact closeWalkCB_walkCloseOf hnew

/-- A list that holds every open node is walked as the whole registry is. -/
theorem walkCloseOf_eq (hopened : ∀ node, s.Opened node → node ∈ l) : s.walkCloseOf l = s.walkClose := by
  have hheap : (s.walkCloseOf l).heap = s.walkClose.heap := by
    funext addr
    by_cases hmem : .tcphandle addr ∈ l
    · simp only [walkCloseOf, walkClose, if_pos hmem]
    · have hne : (s.heap addr).tcphandle.state ≠ .opened := fun hs => hmem (hopened (.tcphandle addr) hs)
      simp only [walkCloseOf, walkClose, if_neg hmem, UvTcp.walkClose_of_not_opened _ hne]
  have hcalls : (s.walkCloseOf l).closeCalls = s.walkClose.closeCalls := by
    funext addr
    have hiff : (.tcphandle addr ∈ l ∧ (s.heap addr).tcphandle.state = .opened) ↔
        (s.heap addr).tcphandle.state = .opened :=
      and_iff_right_of_imp fun hs => hopened (.tcphandle addr) hs
    simp only [walkCloseOf, walkClose, hiff]
  have htcp : (s.walkCloseOf l).tcpHandle = s.walkClose.tcpHandle := by
    by_cases hmem : .tcpHandle ∈ l
    · simp only [walkCloseOf, walkClose, if_pos hmem]
    · have hne : s.tcpHandle.state ≠ .opened := fun hs => hmem (hopened .tcpHandle hs)
      simp only [walkCloseOf, walkClose, if_neg hmem, UvTcp.walkClose_of_not_opened _ hne]
  have hasync : (s.walkCloseOf l).asyncHandleClose = s.walkClose.asyncHandleClose := by
    by_cases hmem : .asyncHandleClose ∈ l
    · simp only [walkCloseOf, walkClose, if_pos hmem]
    · have hne : s.asyncHandleClose.state ≠ .opened := fun hs => hmem (hopened .asyncHandleClose hs)
      simp only [walkCloseOf, walkClose, if_neg hmem, UvAsync.walkClose_of_not_opened _ hne]
  calc s.walkCloseOf l
      = { s with
          heap := (s.walkCloseOf l).heap
          closeCalls := (s.walkCloseOf l).closeCalls
          tcpHandle := (s.walkCloseOf l).tcpHandle
          asyncHandleClose := (s.walkCloseOf l).asyncHandleClose } := rfl
    _ = { s with
          heap := s.walkClose.heap
          closeCalls := s.walkClose.closeCalls
          tcpHandle := s.walkClose.tcpHandle
          asyncHandleClose := s.walkClose.asyncHandleClose } := by rw [hheap, hcalls, htcp, hasync]
    _ = s.walkClose := rfl

/-- **The walk of the model is the walk of libuv.** The handles that are open are in the queue of the loop,
wherever they are in memory and in whatever order, and none of them is taken out before the walk has
returned. -/
theorem walkClose_refined {m : Links ServerNode} {es es' : List (WalkEvent ServerNode)}
    {q q' : HandleQueue ServerNode} (hrun : run HandleQueue.step (.initial m .head) es = some q)
    (hwalk : run HandleQueue.step q (.walk .walkQueue :: es') = some q') (hone : ∀ node, .walk node ∉ es')
    (hkept : ∀ node, .finishClose node ∉ es') (hidle : q'.phase = .idle)
    (hopened : ∀ node, s.Opened node → node ∈ q.handles ∧ q.internal node = false) :
    q'.called.foldl closeWalkCB s = s.walkClose := by
  obtain ⟨-, hnodup, hall⟩ := HandleQueue.walk_calls_each_handle hrun hwalk hone
  rw [foldl_closeWalkCB hnodup]
  refine walkCloseOf_eq fun node hnode => ?_
  obtain ⟨hmem, hexternal⟩ := hopened node hnode
  exact hall hidle node hmem hexternal (hkept node)

/-- A server that listens, with one client. -/
def openServer : ServerState :=
  { new 0 0 with
    tcpHandle := UvTcp.unused.init 0
    asyncHandleClose := UvAsync.unused.init 0
    heap := fun addr => if addr = 7 then { allocTcpClientCtx default with tcphandle := UvTcp.unused.init 0 }
      else allocTcpClientCtx default }

/-- Its handles, and one of the loop. -/
def openInits : List (WalkEvent ServerNode) :=
  [.init (.internal 0) true, .init .asyncHandleClose false, .init .tcpHandle false, .init (.tcphandle 7) false]

/-- Its loop, in memory that was used for something else. -/
def openLoop : HandleQueue ServerNode := .initial ⟨fun _ => .head, fun _ => .walkQueue⟩ .head

/-- The loop of a listening server with one connection: the loop's own wake-up handle, the close handle, the
listening handle and the handle of one client. -/
def openHandles : HandleQueue ServerNode :=
  (((openLoop.uvHandleInit (.internal 0) true).uvHandleInit .asyncHandleClose false).uvHandleInit
    .tcpHandle false).uvHandleInit (.tcphandle 7) false

/-- The four initialisations run on an open loop. -/
theorem run_openInits : run HandleQueue.step openLoop openInits = some openHandles := rfl

/-- A walk over four handles, with three callbacks. -/
def openWalk : List (WalkEvent ServerNode) :=
  [.round, .round, .return, .round, .return, .round, .return, .round]

/-- Every handle the listening server has open is in the queue of its loop. -/
theorem opened_openServer : ∀ node, openServer.Opened node →
    node ∈ openHandles.handles ∧ openHandles.internal node = false := by
  intro node hnode
  cases node with
  | head | walkQueue | internal => exact hnode.elim
  | tcpHandle | asyncHandleClose => decide
  | tcphandle addr =>
    by_cases heq : addr = 7
    · subst heq
      decide
    · simp [Opened, openServer, heq, allocTcpClientCtx, UvTcp.unused] at hnode

/-- The refinement at work: the walk over the queue of that loop leaves the server as `walkClose` does. -/
theorem walkClose_refined_openServer :
    ∃ q, run HandleQueue.step openHandles (.walk .walkQueue :: openWalk) = some q ∧
      q.called.foldl closeWalkCB openServer = openServer.walkClose := by
  have hmap : (run HandleQueue.step openHandles (.walk .walkQueue :: openWalk)).map HandleQueue.phase =
      some .idle := by decide +kernel
  refine exists_last_of_map HandleQueue.phase hmap fun q hrun hidle => ?_
  exact walkClose_refined run_openInits hrun (by simp [openWalk]) (by simp [openWalk]) hidle opened_openServer

end ServerState

end MyUvpp
