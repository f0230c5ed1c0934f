import MyUvpp.Foundation.KeyedList
import MyUvpp.TcpServer.ConnectionPool
import Mathlib.Data.List.Nodup

/-! # The pool and the connections of a server

A context is in `avai_tcphandle_`, belongs to one `AcceptClient`, or waits for the end of a close that
recycles it. `TCPServer.PoolInv` says that these uses never overlap: a context that is taken from the
pool is the context of no other connection, and only the contexts of connections are read. -/

namespace MyUvpp

/-- The context of an accepted client: open, or being closed by it. -/
structure TcpClientCtx.Serves (ctx : TcpClientCtx) (c : AcceptClient) : Prop where
  parent : ctx.parentAcceptclient = some c.clientId
  handle : (ctx.tcphandle.state = .opened ∧ ctx.tcphandle.data = some .tcpClientCtx) ∨
    (ctx.tcphandle.state = .closing (some .afterClientClose) ∧
      ctx.tcphandle.data = some (.acceptClient c.clientId))

/-- The handle of a context is not being closed, unless by the server with all its handles. -/
def TcpClientCtx.Idle (ctx : TcpClientCtx) : Prop :=
  ∀ cb, ctx.tcphandle.state = .closing cb → cb = some .afterServerClose

/-- A handle that is not closing has its close callback still to come or never asked for. -/
theorem TcpClientCtx.idle_of_not_closing {ctx : TcpClientCtx}
    (h : ctx.tcphandle.state.isClosing = false) : ctx.Idle := by
  intro cb hstate
  rw [hstate] at h
  cases h

namespace TCPServer

/-- The addresses of the contexts in `clients_list_`. -/
def handles (s : TCPServer) : List ℕ := s.clientsList.map (·.clientHandle)

/-- What the contexts of a server are used for. -/
structure PoolInv (s : TCPServer) : Prop where
  nodup : (s.avaiTcphandle ++ s.handles).Nodup
  live : ∀ a ∈ s.avaiTcphandle ++ s.handles, a ∈ s.live
  pooled : ∀ a ∈ s.avaiTcphandle, (s.heap a).Idle
  ids : (s.clientsList.map (·.clientId)).Nodup
  ids_le : ∀ c ∈ s.clientsList, c.clientId ≤ s.sId
  serves : ∀ c ∈ s.clientsList, (s.heap c.clientHandle).Serves c
  closing : ∀ a, (s.heap a).tcphandle.state = .closing (some .afterClientClose) → a ∈ s.handles
  reading : ∀ a, (s.heap a).tcphandle.reading = true →
    a ∈ s.handles ∧ (s.heap a).tcphandle.state = .opened

/-- A server just constructed has no client and an empty pool. -/
theorem poolInv_new (packhead packtail : UInt8) : (new packhead packtail).PoolInv where
  nodup := List.nodup_nil
  live _ ha := absurd ha List.not_mem_nil
  pooled _ ha := absurd ha List.not_mem_nil
  ids := List.nodup_nil
  ids_le _ hc := absurd hc List.not_mem_nil
  serves _ hc := absurd hc List.not_mem_nil
  closing _ ha := by cases ha
  reading _ ha := by cases ha

variable {s : TCPServer}

/-- The handle of a client in the list is one of the handles. -/
theorem mem_handles {c : AcceptClient} (hc : c ∈ s.clientsList) : c.clientHandle ∈ s.handles :=
  List.mem_map_of_mem hc

/-- The invariant is about the handles, not about the decoders and what has been received. -/
theorem PoolInv.congr {s' : TCPServer} (h : s.PoolInv)
    (htcp : ∀ a, (s'.heap a).tcphandle = (s.heap a).tcphandle)
    (hparent : ∀ a, (s'.heap a).parentAcceptclient = (s.heap a).parentAcceptclient)
    (hlive : s'.live = s.live) (hpool : s'.avaiTcphandle = s.avaiTcphandle)
    (hclients : s'.clientsList = s.clientsList) (hid : s'.sId = s.sId) : s'.PoolInv := by
  have hhandles : s'.handles = s.handles := by rw [handles, hclients, handles]
  constructor
  case nodup =>
    rw [hpool, hhandles]
    exact h.nodup
  case live =>
    rw [hpool, hhandles, hlive]
    exact h.live
  case pooled =>
    intro a ha
    rw [hpool] at ha
    rw [TcpClientCtx.Idle, htcp]
    exact h.pooled a ha
  case ids =>
    rw [hclients]
    exact h.ids
  case ids_le =>
    rw [hclients, hid]
    exact h.ids_le
  case serves =>
    intro c hc
    rw [hclients] at hc
    obtain ⟨hp, hh⟩ := h.serves c hc
    exact ⟨(hparent _).trans hp, by rwa [htcp]⟩
  case closing =>
    intro a ha
    rw [htcp] at ha
    rw [hhandles]
    exact h.closing a ha
  case reading =>
    intro a ha
    rw [htcp] at ha
    rw [hhandles, htcp]
    exact h.reading a ha

/-! ### Taking a context -/

section Taken

variable {addr : ℕ} {u : Indeterminate}

/-- The context that is taken has no other use. -/
theorem PoolInv.nodup_taken (h : s.PoolInv) (haddr : addr ∉ s.live) :
    (s.takenAddr addr :: (s.avaiTcphandle.tail ++ s.handles)).Nodup := by
  have hnodup := h.nodup
  have hlive := h.live
  rw [takenAddr]
  cases hpool : s.avaiTcphandle with
  | nil =>
    rw [hpool] at hnodup hlive
    -- a new context, at an address that was not in use
    exact List.nodup_cons.mpr ⟨fun hmem => haddr (hlive addr hmem), hnodup⟩
  | cons a as =>
    rw [hpool] at hnodup
    exact hnodup

/-- The taken context is allocated, as are the others. -/
theorem PoolInv.live_withTaken (h : s.PoolInv) (addr : ℕ) (ctx : TcpClientCtx) :
    ∀ a ∈ s.takenAddr addr :: (s.avaiTcphandle.tail ++ s.handles),
      a ∈ (s.withTaken addr ctx).live := by
  intro a ha
  have hlive := h.live
  rw [takenAddr] at ha
  rw [withTaken]
  cases hpool : s.avaiTcphandle with
  | nil =>
    rw [hpool] at ha hlive
    rcases List.mem_cons.mp ha with rfl | ha
    · exact List.mem_cons_self
    · exact List.mem_cons_of_mem _ (hlive a ha)
  | cons b as =>
    rw [hpool] at ha hlive
    exact hlive a ha

/-- The handle of the taken context is idle. -/
theorem PoolInv.takenCtx_idle (h : s.PoolInv) (u : Indeterminate) :
    (s.takenCtx u).Idle ∧ (s.takenCtx u).tcphandle.reading = false := by
  have hnodup := h.nodup
  have hpooled := h.pooled
  rw [takenCtx]
  cases hpool : s.avaiTcphandle with
  | nil => exact ⟨TcpClientCtx.idle_of_not_closing rfl, rfl⟩
  | cons a as =>
    rw [hpool] at hnodup hpooled
    -- only the contexts of clients are read, and this one was in the pool
    refine ⟨hpooled a List.mem_cons_self, Bool.eq_false_iff.mpr fun hreading => ?_⟩
    exact (List.nodup_cons.mp hnodup).1 (List.mem_append_right as (h.reading a hreading).1)

/-- The other contexts are not touched. -/
theorem PoolInv.heap_withTaken_other (h : s.PoolInv) (haddr : addr ∉ s.live) (ctx : TcpClientCtx)
    {a : ℕ} (ha : a ∈ s.avaiTcphandle.tail ++ s.handles) :
    (s.withTaken addr ctx).heap a = s.heap a :=
  heap_withTaken_of_ne (ne_of_mem_of_not_mem ha (List.nodup_cons.mp (h.nodup_taken haddr)).1) ctx

/-- A context has been taken, and its handle is neither read nor being closed by a client. -/
theorem PoolInv.withTaken (h : s.PoolInv) (haddr : addr ∉ s.live) {ctx : TcpClientCtx}
    (hstate : ctx.tcphandle.state ≠ .closing (some .afterClientClose))
    (hreading : ctx.tcphandle.reading = false) : (s.withTaken addr ctx).PoolInv := by
  constructor
  case nodup => exact (h.nodup_taken haddr).of_cons
  case live =>
    intro a ha
    exact h.live_withTaken addr ctx a (List.mem_cons_of_mem _ ha)
  case pooled =>
    intro a ha
    rw [h.heap_withTaken_other haddr ctx (List.mem_append_left _ ha)]
    exact h.pooled a (List.mem_of_mem_tail ha)
  case ids => exact h.ids
  case ids_le => exact h.ids_le
  case serves =>
    intro c hc
    rw [h.heap_withTaken_other haddr ctx (List.mem_append_right _ (mem_handles hc))]
    exact h.serves c hc
  case closing =>
    intro a ha
    by_cases heq : a = s.takenAddr addr
    · rw [heq, heap_withTaken] at ha
      exact absurd ha hstate
    · rw [heap_withTaken_of_ne heq] at ha
      exact h.closing a ha
  case reading =>
    intro a ha
    by_cases heq : a = s.takenAddr addr
    · rw [heq, heap_withTaken, hreading] at ha
      cases ha
    · rw [heap_withTaken_of_ne heq] at ha ⊢
      exact h.reading a ha

end Taken

/-- The next id. -/
theorem PoolInv.getAvailaClientID (h : s.PoolInv) : s.getAvailaClientID.PoolInv where
  nodup := h.nodup
  live := h.live
  pooled := h.pooled
  ids := h.ids
  ids_le c hc := (h.ids_le c hc).trans (Nat.le_succ _)
  serves := h.serves
  closing := h.closing
  reading := h.reading

/-- A context without another use goes to the end of the pool. -/
theorem PoolInv.pushBack (h : s.PoolInv) {a : ℕ} (hnot : a ∉ s.avaiTcphandle ++ s.handles)
    (hlive : a ∈ s.live) (hidle : (s.heap a).Idle) :
    (s.pushBack a).PoolInv := by
  have hperm : ((s.avaiTcphandle ++ [a]) ++ s.handles).Perm
      (a :: (s.avaiTcphandle ++ s.handles)) := by
    rw [List.append_assoc]
    exact List.perm_middle
  refine ⟨hperm.nodup_iff.mpr (List.nodup_cons.mpr ⟨hnot, h.nodup⟩), fun b hb => ?_,
    fun b hb => ?_, h.ids, h.ids_le, h.serves, h.closing, h.reading⟩
  · rcases List.mem_cons.mp (hperm.mem_iff.mp hb) with rfl | hb
    · exact hlive
    · exact h.live b hb
  · rcases List.mem_append.mp hb with hb | hb
    · exact h.pooled b hb
    · rw [List.mem_singleton] at hb
      exact hb ▸ hidle

/-- A context without a use is freed. -/
theorem PoolInv.free (h : s.PoolInv) {a : ℕ} (hnot : a ∉ s.avaiTcphandle ++ s.handles) :
    (s.free a).PoolInv :=
  ⟨h.nodup, fun b hb => (List.mem_erase_of_ne (ne_of_mem_of_not_mem hb hnot)).mpr (h.live b hb),
    h.pooled, h.ids, h.ids_le, h.serves, h.closing, h.reading⟩

/-- A context without another use is kept or freed. -/
theorem PoolInv.recycle (h : s.PoolInv) {a : ℕ} (hnot : a ∉ s.avaiTcphandle ++ s.handles)
    (hlive : a ∈ s.live) (hidle : (s.heap a).Idle) :
    (s.recycle a).PoolInv := by
  rw [TCPServer.recycle]
  split
  case isTrue => exact h.free hnot
  case isFalse => exact h.pushBack hnot hlive hidle

/-- An accepted connection appends its handle. -/
theorem handles_connected (s : TCPServer) (addr : ℕ) (u : Indeterminate) :
    (s.connected addr u).handles = s.handles ++ [s.takenAddr addr] := List.map_append

/-- The new id is larger than all that have been given away. -/
theorem PoolInv.ids_connected (h : s.PoolInv) (addr : ℕ) (u : Indeterminate) :
    ((s.connected addr u).clientsList.map (·.clientId)).Nodup := by
  have hids : (s.connected addr u).clientsList.map (·.clientId) =
      s.clientsList.map (·.clientId) ++ [s.sId + 1] := List.map_append
  rw [hids, (List.perm_append_singleton _ _).nodup_iff]
  refine List.nodup_cons.mpr ⟨fun hid => ?_, h.ids⟩
  obtain ⟨c, hc, heq⟩ := List.mem_map.mp hid
  have hle := h.ids_le c hc
  omega

/-- Every handle serves its client, the new one included. -/
theorem PoolInv.serves_connected (h : s.PoolInv) {addr : ℕ} (haddr : addr ∉ s.live) (u : Indeterminate)
    {c : AcceptClient} (hc : c ∈ (s.connected addr u).clientsList) :
    ((s.connected addr u).heap c.clientHandle).Serves c := by
  rcases List.mem_append.mp hc with hc | hc
  · have hother : (s.connected addr u).heap c.clientHandle = s.heap c.clientHandle :=
      h.heap_withTaken_other haddr _ (List.mem_append_right _ (mem_handles hc))
    rw [hother]
    exact h.serves c hc
  · have htaken : (s.connected addr u).heap (s.takenAddr addr) = s.connectedCtx u :=
      heap_withTaken _ _ _
    rw [List.mem_singleton] at hc
    rw [hc, htaken]
    exact ⟨rfl, .inl ⟨rfl, rfl⟩⟩

/-- A connection is accepted: its context is open and being read, and is the context of no other. -/
theorem PoolInv.connected (h : s.PoolInv) {addr : ℕ} (haddr : addr ∉ s.live) (u : Indeterminate) :
    (s.connected addr u).PoolInv := by
  have hperm : (s.avaiTcphandle.tail ++ (s.connected addr u).handles).Perm
      (s.takenAddr addr :: (s.avaiTcphandle.tail ++ s.handles)) := by
    rw [handles_connected, ← List.append_assoc]
    exact List.perm_append_singleton _ _
  have hmem : s.takenAddr addr ∈ (s.connected addr u).handles := by
    rw [handles_connected]
    exact List.mem_append_right _ (List.mem_singleton_self _)
  constructor
  case nodup => exact hperm.nodup_iff.mpr (h.nodup_taken haddr)
  case live =>
    intro a ha
    exact h.live_withTaken addr (s.connectedCtx u) a (hperm.mem_iff.mp ha)
  case pooled =>
    intro a ha
    have hother : (s.connected addr u).heap a = s.heap a :=
      h.heap_withTaken_other haddr _ (List.mem_append_left _ ha)
    rw [hother]
    exact h.pooled a (List.mem_of_mem_tail ha)
  case ids => exact h.ids_connected addr u
  case ids_le =>
    intro c hc
    rcases List.mem_append.mp hc with hc | hc
    · exact (h.ids_le c hc).trans (Nat.le_succ _)
    · rw [List.mem_singleton] at hc
      exact hc ▸ le_refl _
  case serves => exact fun c hc => h.serves_connected haddr u hc
  case closing =>
    intro a ha
    by_cases heq : a = s.takenAddr addr
    · exact heq ▸ hmem
    · have heap_eq : (s.connected addr u).heap a = s.heap a := heap_withTaken_of_ne heq _
      rw [heap_eq] at ha
      rw [handles_connected]
      exact List.mem_append_left _ (h.closing a ha)
  case reading =>
    intro a ha
    by_cases heq : a = s.takenAddr addr
    · have htaken : (s.connected addr u).heap (s.takenAddr addr) = s.connectedCtx u :=
        heap_withTaken _ _ _
      rw [heq, htaken]
      exact ⟨hmem, rfl⟩
    · have heap_eq : (s.connected addr u).heap a = s.heap a := heap_withTaken_of_ne heq _
      rw [heap_eq] at ha ⊢
      rw [handles_connected]
      exact ⟨List.mem_append_left _ (h.reading a ha).1, (h.reading a ha).2⟩

/-- **Accepting a connection** keeps the uses of the contexts apart. -/
theorem PoolInv.acceptConnection (h : s.PoolInv) {addr : ℕ} (haddr : addr ∉ s.live) (status : ℤ)
    (r : AcceptResult) (u : Indeterminate) : (s.acceptConnection status r addr u).PoolInv := by
  have hnot := (List.nodup_cons.mp (h.nodup_taken haddr)).1
  have hlive (ctx) := h.live_withTaken addr ctx _ List.mem_cons_self
  obtain ⟨hidle, hunread⟩ := h.takenCtx_idle u
  -- an error in `status`, in one of three calls of libuv, or none
  rcases acceptConnection_cases s status r addr u with heq | heq | heq | heq | heq
  · rwa [heq]
  · rw [heq]
    have hbase : (s.withTaken addr (s.takenCtx u)).PoolInv :=
      h.withTaken haddr (fun hstate => by cases hidle _ hstate) hunread
    exact hbase.pushBack hnot (hlive _) (by rwa [heap_withTaken])
  · rw [heq]
    have hbase : (s.withTaken addr (s.initCtx u)).PoolInv := h.withTaken haddr nofun rfl
    refine hbase.getAvailaClientID.pushBack hnot (hlive (s.initCtx u)) ?_
    rw [heap_getAvailaClientID, heap_withTaken]
    exact TcpClientCtx.idle_of_not_closing rfl
  · rw [heq]
    have hbase : (s.withTaken addr (s.refusedCtx u)).PoolInv := h.withTaken haddr nofun rfl
    exact hbase.getAvailaClientID
  · rw [heq]
    exact h.connected haddr u

/-! ### Closing a context -/

/-- The client of a context is unique. -/
theorem PoolInv.client_unique (h : s.PoolInv) {c c' : AcceptClient} (hc : c ∈ s.clientsList)
    (hc' : c' ∈ s.clientsList) (heq : c.clientHandle = c'.clientHandle) : c = c' :=
  eq_of_key (List.nodup_append.mp h.nodup).2.1 hc hc' heq

/-- The context of a client is not in the pool. -/
theorem PoolInv.not_pooled (h : s.PoolInv) {a : ℕ} (ha : a ∈ s.handles) : a ∉ s.avaiTcphandle :=
  fun hpool => (List.nodup_append.mp h.nodup).2.2 a hpool a ha rfl

/-- **A client closes.** -/
theorem PoolInv.closeAcceptClient (h : s.PoolInv) {c : AcceptClient} (hc : c ∈ s.clientsList) :
    (s.closeAcceptClient c).PoolInv := by
  rw [TCPServer.closeAcceptClient]
  split
  case isTrue => exact h
  case isFalse =>
    constructor
    case nodup => exact h.nodup
    case live => exact h.live
    case pooled =>
      intro a ha
      -- a context in the pool is not that of a client
      have hne : a ≠ c.clientHandle := fun heq => h.not_pooled (mem_handles hc) (heq ▸ ha)
      rw [heap_setTcphandle_of_ne hne]
      exact h.pooled a ha
    case ids => exact h.ids
    case ids_le => exact h.ids_le
    case serves =>
      intro c' hc'
      by_cases heq : c'.clientHandle = c.clientHandle
      · obtain rfl := h.client_unique hc' hc heq
        -- the context now waits for `AfterClientClose`, with the client as its data
        rw [heap_setTcphandle]
        exact ⟨(h.serves c' hc').parent, .inr ⟨rfl, rfl⟩⟩
      · rw [heap_setTcphandle_of_ne heq]
        exact h.serves c' hc'
    case closing =>
      intro a ha
      by_cases heq : a = c.clientHandle
      · exact heq ▸ mem_handles hc
      · rw [heap_setTcphandle_of_ne heq] at ha
        exact h.closing a ha
    case reading =>
      intro a ha
      by_cases heq : a = c.clientHandle
      · rw [heq, heap_setTcphandle] at ha
        cases ha
      · rw [heap_setTcphandle_of_ne heq] at ha ⊢
        exact h.reading a ha

/-- The handle of a context that serves no client is closed. -/
theorem PoolInv.closed (h : s.PoolInv) {addr : ℕ} (hnot : addr ∉ s.handles)
    {cb : Option ServerCloseCb} (hstate : (s.heap addr).tcphandle.state = .closing cb) :
    (s.setTcphandle addr (s.heap addr).tcphandle.closed).PoolInv := by
  constructor
  case nodup => exact h.nodup
  case live => exact h.live
  case pooled =>
    intro a ha
    by_cases heq : a = addr
    · rw [heq, heap_setTcphandle]
      exact TcpClientCtx.idle_of_not_closing rfl
    · rw [heap_setTcphandle_of_ne heq]
      exact h.pooled a ha
  case ids => exact h.ids
  case ids_le => exact h.ids_le
  case serves =>
    intro c hc
    rw [heap_setTcphandle_of_ne (ne_of_mem_of_not_mem (mem_handles hc) hnot)]
    exact h.serves c hc
  case closing =>
    intro a ha
    by_cases heq : a = addr
    · rw [heq, heap_setTcphandle] at ha
      cases ha
    · rw [heap_setTcphandle_of_ne heq] at ha
      exact h.closing a ha
  case reading =>
    intro a ha
    by_cases heq : a = addr
    · rw [heq, heap_setTcphandle] at ha
      cases hstate.symm.trans (h.reading addr ha).2
    · rw [heap_setTcphandle_of_ne heq] at ha ⊢
      exact h.reading a ha

/-- The close of a client's handle has completed, and the client is gone. -/
def removed (s : TCPServer) (c : AcceptClient) : TCPServer :=
  { s.setTcphandle c.clientHandle (s.heap c.clientHandle).tcphandle.closed with
    clientsList := s.clientsList.filter (·.clientId ≠ c.clientId) }

/-- Recycling a context and replacing the list of clients can be done in either order. -/
theorem recycle_clientsList (s : TCPServer) (addr : ℕ) (clientsList : List AcceptClient) :
    ({ s.recycle addr with clientsList } : TCPServer) =
      ({ s with clientsList } : TCPServer).recycle addr := by
  by_cases h : s.avaiTcphandle.length > maxHandleListSize
  · rw [recycle, if_pos h, recycle, if_pos h]
    rfl
  · rw [recycle, if_neg h, recycle, if_neg h]
    rfl

/-- Recycling a context leaves the list of handles. -/
theorem handles_recycle (s : TCPServer) (addr : ℕ) : (s.recycle addr).handles = s.handles := by
  rw [recycle]
  split <;> rfl

/-- The contexts of the other clients. -/
theorem PoolInv.mem_handles_removed (h : s.PoolInv) {c : AcceptClient} (hc : c ∈ s.clientsList)
    {a : ℕ} : a ∈ (s.removed c).handles ↔ a ∈ s.handles ∧ a ≠ c.clientHandle := by
  constructor
  · intro ha
    obtain ⟨c', hc', rfl⟩ := List.mem_map.mp ha
    obtain ⟨hmem, hid⟩ := List.mem_filter.mp hc'
    refine ⟨mem_handles hmem, fun heq => ?_⟩
    rw [h.client_unique hmem hc heq] at hid
    simp at hid
  · rintro ⟨ha, hne⟩
    obtain ⟨c', hc', rfl⟩ := List.mem_map.mp ha
    refine List.mem_map_of_mem (List.mem_filter.mpr ⟨hc', decide_eq_true fun hid => hne ?_⟩)
    rw [List.inj_on_of_nodup_map h.ids hc' hc hid]

/-- Removing a client whose handle closes keeps the pool. -/
theorem PoolInv.removed (h : s.PoolInv) {c : AcceptClient} (hc : c ∈ s.clientsList)
    {cb : Option ServerCloseCb} (hstate : (s.heap c.clientHandle).tcphandle.state = .closing cb) :
    (s.removed c).PoolInv := by
  have hsub : (s.removed c).handles.Sublist s.handles := List.filter_sublist.map _
  have hother : ∀ a, a ≠ c.clientHandle → (s.removed c).heap a = s.heap a :=
    fun a ha => heap_setTcphandle_of_ne ha _
  have hself : (s.removed c).heap c.clientHandle =
      { s.heap c.clientHandle with tcphandle := (s.heap c.clientHandle).tcphandle.closed } :=
    heap_setTcphandle _ _ _
  constructor
  case nodup => exact h.nodup.sublist (hsub.append_left _)
  case live =>
    intro a ha
    exact h.live a ((hsub.append_left _).subset ha)
  case pooled =>
    intro a ha
    have hne : a ≠ c.clientHandle := fun heq => h.not_pooled (mem_handles hc) (heq ▸ ha)
    rw [hother a hne]
    exact h.pooled a ha
  case ids => exact h.ids.sublist (List.filter_sublist.map _)
  case ids_le =>
    intro c' hc'
    exact h.ids_le c' (List.mem_of_mem_filter hc')
  case serves =>
    intro c' hc'
    -- another client has another context
    have hne := ((h.mem_handles_removed hc).mp (mem_handles hc')).2
    rw [hother _ hne]
    exact h.serves c' (List.mem_of_mem_filter hc')
  case closing =>
    intro a ha
    by_cases heq : a = c.clientHandle
    · rw [heq, hself] at ha
      cases ha
    · rw [hother a heq] at ha
      exact (h.mem_handles_removed hc).mpr ⟨h.closing a ha, heq⟩
  case reading =>
    intro a ha
    by_cases heq : a = c.clientHandle
    · rw [heq, hself] at ha
      cases hstate.symm.trans (h.reading _ ha).2
    · rw [hother a heq] at ha ⊢
      exact ⟨(h.mem_handles_removed hc).mpr ⟨(h.reading a ha).1, heq⟩, (h.reading a ha).2⟩

/-- `clients_list_.find` finds the client. -/
theorem PoolInv.find_client (h : s.PoolInv) {c : AcceptClient} (hc : c ∈ s.clientsList) :
    s.clientsList.find? (·.clientId = c.clientId) = some c :=
      find?_key AcceptClient.clientId h.ids hc

/-- The close of a client's handle completes: the client is removed and its context recycled. -/
theorem PoolInv.tcpClosed_client (h : s.PoolInv) {c : AcceptClient} (hc : c ∈ s.clientsList)
    {cb : Option ServerCloseCb} (hstate : (s.heap c.clientHandle).tcphandle.state = .closing cb) :
    s.tcpClosed c.clientHandle cb = (s.removed c).recycle c.clientHandle := by
  rcases (h.serves c hc).handle with ⟨hopened, -⟩ | ⟨hclosing, hdata⟩
  · cases hstate.symm.trans hopened
  · obtain rfl : cb = some .afterClientClose := by
      -- a client is closed with `AfterClientClose` only
      cases hstate.symm.trans hclosing
      rfl
    have hfind : (s.setTcphandle c.clientHandle
        (s.heap c.clientHandle).tcphandle.closed).clientsList.find? (·.clientId = c.clientId) =
        some c := h.find_client hc
    rw [TCPServer.tcpClosed.eq_def]
    simp only [heap_setTcphandle, UvTcp.closed_data, hdata]
    rw [subClientClosed, hfind]
    exact recycle_clientsList _ _ _

/-- The close of a handle without a client completes: its context is recycled if the callback says
so. -/
theorem PoolInv.tcpClosed_other (h : s.PoolInv) {addr : ℕ} (hnot : addr ∉ s.handles)
    {cb : Option ServerCloseCb} (hstate : (s.heap addr).tcphandle.state = .closing cb) :
    s.tcpClosed addr cb = s.setTcphandle addr (s.heap addr).tcphandle.closed ∨
      cb = some .recycleTcpHandle ∧ s.tcpClosed addr cb =
        (s.setTcphandle addr (s.heap addr).tcphandle.closed).recycle addr := by
  rw [TCPServer.tcpClosed.eq_def]
  simp only
  split
  case h_1 => exact .inr ⟨rfl, rfl⟩
  -- `AfterClientClose` runs for handles of clients only
  case h_2 => exact absurd (h.closing addr hstate) hnot
  case h_3 => exact .inl rfl

/-- **The close of a handle completes.** -/
theorem PoolInv.tcpClosed (h : s.PoolInv) {addr : ℕ} (hlive : addr ∈ s.live)
    {cb : Option ServerCloseCb} (hstate : (s.heap addr).tcphandle.state = .closing cb) :
    (s.tcpClosed addr cb).PoolInv := by
  have hidle (a : ℕ) :
      ((s.setTcphandle a (s.heap a).tcphandle.closed).heap a).Idle := by
    rw [heap_setTcphandle]
    exact TcpClientCtx.idle_of_not_closing rfl
  by_cases hmem : addr ∈ s.handles
  · obtain ⟨c, hc, rfl⟩ := List.mem_map.mp hmem
    rw [h.tcpClosed_client hc hstate]
    refine (h.removed hc hstate).recycle (fun hmem' => ?_) hlive (hidle c.clientHandle)
    rcases List.mem_append.mp hmem' with hmem' | hmem'
    · exact h.not_pooled hmem hmem'
    · exact ((h.mem_handles_removed hc).mp hmem').2 rfl
  · have hbase := h.closed hmem hstate
    rcases h.tcpClosed_other hmem hstate with heq | ⟨rfl, heq⟩
    · exact heq ▸ hbase
    · rw [heq]
      refine hbase.recycle (fun hmem' => ?_) hlive (hidle addr)
      rcases List.mem_append.mp hmem' with hpool | hhandle
      -- a handle in the pool is being closed by the server at most
      · cases h.pooled addr hpool _ hstate
      · exact hmem hhandle

/-! ### Reading -/

/-- A client whose context is read is open, and its context knows it. -/
theorem PoolInv.client_of_reading (h : s.PoolInv) {addr : ℕ}
    (hreading : (s.heap addr).tcphandle.reading = true) :
    ∃ c ∈ s.clientsList, c.clientHandle = addr ∧
      (s.heap addr).tcphandle.data = some .tcpClientCtx ∧
      s.clientsList.find? (some ·.clientId = (s.heap addr).parentAcceptclient) = some c := by
  obtain ⟨hmem, hopened⟩ := h.reading addr hreading
  obtain ⟨c, hc, rfl⟩ := List.mem_map.mp hmem
  obtain ⟨hparent, hhandle⟩ := h.serves c hc
  refine ⟨c, hc, rfl, ?_, ?_⟩
  · rcases hhandle with ⟨-, hdata⟩ | ⟨hclosing, -⟩
    · exact hdata
    · cases hopened.symm.trans hclosing
  · rw [hparent]
    simpa only [Option.some.injEq] using h.find_client hc

/-- The decoder of a context has taken input and has delivered frames. -/
def fed (s : TCPServer) (addr : ℕ) (packet : PacketSync) (out : List (NetPacket × List UInt8)) :
    TCPServer :=
  { s.setCtx addr { s.heap addr with packet } with received := s.received ++ out.map (addr, ·) }

/-- A call of the decoder keeps the pool. -/
theorem PoolInv.fed (h : s.PoolInv) (addr : ℕ) (packet : PacketSync)
    (out : List (NetPacket × List UInt8)) : (s.fed addr packet out).PoolInv := by
  have hctx : ∀ a, ((s.fed addr packet out).heap a).tcphandle = (s.heap a).tcphandle ∧
      ((s.fed addr packet out).heap a).parentAcceptclient = (s.heap a).parentAcceptclient := by
    intro a
    rw [TCPServer.fed]
    by_cases heq : a = addr
    · rw [heq, heap_setCtx]
      exact ⟨rfl, rfl⟩
    · rw [heap_setCtx_of_ne s heq]
      exact ⟨rfl, rfl⟩
  exact h.congr (fun a => (hctx a).1) (fun a => (hctx a).2) rfl rfl rfl rfl

variable {host : Host} {s' : TCPServer}

/-- A read closes the client, does nothing, or feeds the decoder. -/
theorem PoolInv.step_afterRecv (h : s.PoolInv) {addr : ℕ} {nread : Option (List UInt8)}
    (hstep : step host s (.afterRecv addr nread) = some s') :
    (s.heap addr).tcphandle.reading = true ∧
      ((nread = none ∧ ∃ c ∈ s.clientsList, c.clientHandle = addr ∧ s' = s.closeAcceptClient c) ∨
        (nread = some [] ∧ s' = s) ∨
        ∃ data packet log, nread = some data ∧
          recvdata host (s.heap addr).packet data = some (packet, log) ∧
          s' = s.fed addr packet (frames log)) := by
  rw [step] at hstep
  split at hstep
  case isFalse => cases hstep
  case isTrue hread =>
    refine ⟨hread.2.2.1, ?_⟩
    cases nread with
    | none =>
      obtain ⟨c, hc, hhandle, -, hfind⟩ := h.client_of_reading hread.2.2.1
      rw [afterRecv, hfind] at hstep
      cases hstep
      exact .inl ⟨rfl, c, hc, hhandle, rfl⟩
    | some data =>
      cases data with
      | nil =>
        cases hstep
        exact .inr (.inl ⟨rfl, rfl⟩)
      | cons b bs =>
        obtain ⟨⟨packet, log⟩, hrecv, rfl⟩ := Option.map_eq_some_iff.mp hstep
        exact .inr (.inr ⟨b :: bs, packet, log, rfl, hrecv, rfl⟩)

/-- **Every step keeps the uses of the contexts apart.** -/
theorem PoolInv.step (h : s.PoolInv) {e : ServerEvent} (hstep : step host s e = some s') :
    s'.PoolInv := by
  cases e with
  | acceptConnection status r addr u =>
    obtain ⟨haddr, rfl⟩ := step_acceptConnection hstep
    exact h.acceptConnection haddr status r u
  | afterRecv addr nread =>
    obtain ⟨-, ⟨-, c, hc, -, rfl⟩ | ⟨-, rfl⟩ | ⟨data, packet, log, -, -, rfl⟩⟩ :=
      h.step_afterRecv hstep
    · exact h.closeAcceptClient hc
    · exact h
    · exact h.fed addr packet _
  | tcpClosed addr =>
    obtain ⟨cb, hstate, hlive, rfl⟩ := step_tcpClosed hstep
    exact h.tcpClosed hlive hstate

end TCPServer

end MyUvpp
