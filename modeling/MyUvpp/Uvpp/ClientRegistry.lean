import MyUvpp.Foundation.KeyedList
import MyUvpp.Uvpp.SimpleSvr

/-! # The registry follows the connections

In every run `m_all_Client` consists of the entries of the accepted connections whose close callback
has not run, each with the lambda that removes it. A close callback finds the entry of its own
connection, and the object that it destroys does not own the handle any more. -/

namespace MyUvpp

/-- The entry of a connection in `m_all_Client`. -/
def SvrConnection.entry (c : SvrConnection) : ℤ × ClientCtx :=
  (c.id, ⟨c.id, c.ctx, .eraseClient c.id⟩)

namespace CSimpleSvr

/-- The connections whose close callback has not run. -/
def openConnections (s : CSimpleSvr) : List SvrConnection :=
  s.accepted.filter (·.addr ∉ s.closeDone)

/-- What holds between two events of a server. -/
structure RegistryInv (s : CSimpleSvr) : Prop where
  world : s.world.Inv
  idle : s.world.running = none
  counter : s.i = Int32.ofNat s.accepted.length
  /-- The ids are 0, 1, 2 and so on. -/
  ids : s.accepted.map (·.id) = (List.range s.accepted.length).map fun n : ℕ => (n : ℤ)
  addrs : (s.accepted.map (·.addr)).Nodup
  addr_lt : ∀ c ∈ s.accepted, c.addr < s.world.next
  done_lt : ∀ a ∈ s.closeDone, a < s.world.next
  entries : s.allClient = s.openConnections.map SvrConnection.entry
  /-- The close callbacks that have run are those of the handles that are not registered any more. -/
  done : ∀ c ∈ s.accepted, c.addr ∈ s.closeDone ↔ (s.world.heap c.addr).state = .unregistered
  owned : ∀ c ∈ s.openConnections, ∃ willClose, s.world.Owns c.ctx c.addr willClose
  /-- Only accepted connections are closed, and each of them with its own lambda. -/
  closing : ∀ a, (s.world.heap a).state = .closing (some ()) →
    ∃ c ∈ s.accepted, c.addr = a ∧ (s.world.heap a).data.invoke .close = some (.eraseClient c.id)
  /-- Only accepted connections are read, and each of them by its own object. -/
  readers : ∀ a ctx, (s.world.heap a).data.invoke .readStart = some (.onRecv ctx) →
    ∃ c ∈ s.accepted, c.addr = a ∧ c.ctx = ctx

/-- A server just constructed has accepted nobody. -/
theorem registryInv_new (handle : ℕ) : (new handle).RegistryInv := by
  -- the listening handle is the first allocation, and no connection
  have hself : (new handle).world.heap 0 = ⟨.tcp, .opened, Callbacks.new.store .listen .onNewConnected⟩ :=
    HandleWorld.heap_setHandle _ _
  have hother : ∀ a, a ≠ 0 → (new handle).world.heap a = ⟨.tcp, .unregistered, .new⟩ := by
    intro a ha
    exact (HandleWorld.heap_setHandle_of_ne ha _).trans (HandleWorld.heap_construct_of_ne ha _ _)
  constructor
  case world => exact (HandleWorld.inv_new.construct handle .tcp).storeCallback _ _ _
  case idle => rfl
  case counter => rfl
  case ids => rfl
  case addrs => exact List.nodup_nil
  case addr_lt => exact fun c hc => absurd hc List.not_mem_nil
  case done_lt => exact fun a ha => absurd ha List.not_mem_nil
  case entries => rfl
  case done => exact fun c hc => absurd hc List.not_mem_nil
  case owned => exact fun c hc => absurd hc List.not_mem_nil
  case closing =>
    intro a ha
    by_cases hzero : a = 0
    · rw [hzero, hself] at ha
      cases ha
    · rw [hother a hzero] at ha
      cases ha
  case readers =>
    intro a ctx hread
    by_cases hzero : a = 0
    · rw [hzero, hself, Callbacks.invoke_store_of_ne _ (fun heq => by cases heq)] at hread
      cases hread
    · rw [hother a hzero] at hread
      cases hread

variable {s s' : CSimpleSvr}

/-! ### Entries and connections -/

/-- No two accepted connections have the same id. -/
theorem RegistryInv.ids_nodup (h : s.RegistryInv) : (s.accepted.map (·.id)).Nodup := by
  rw [h.ids]
  exact List.nodup_range.map fun _ _ heq => Int.natCast_inj.mp heq

/-- A connection is determined by its id. -/
theorem RegistryInv.eq_of_id (h : s.RegistryInv) {c d : SvrConnection} (hc : c ∈ s.accepted)
    (hd : d ∈ s.accepted) (heq : c.id = d.id) : c = d :=
  eq_of_key h.ids_nodup hc hd heq

/-- A connection is determined by its handle. -/
theorem RegistryInv.eq_of_addr (h : s.RegistryInv) {c d : SvrConnection} (hc : c ∈ s.accepted)
    (hd : d ∈ s.accepted) (heq : c.addr = d.addr) : c = d :=
  eq_of_key h.addrs hc hd heq

/-- The connections that are open: accepted, and their close not yet done. -/
theorem mem_openConnections {c : SvrConnection} :
    c ∈ s.openConnections ↔ c ∈ s.accepted ∧ c.addr ∉ s.closeDone := by
  rw [openConnections, List.mem_filter, decide_eq_true_iff]

/-- The entries of the registry are exactly those of the open connections. -/
theorem RegistryInv.mem_entries (h : s.RegistryInv) {p : ℤ × ClientCtx} :
    p ∈ s.allClient ↔ ∃ c ∈ s.openConnections, c.entry = p := by
  rw [h.entries, List.mem_map]

/-- The next id. -/
theorem RegistryInv.next_id (h : s.RegistryInv) (hfew : s.accepted.length < 2 ^ 31) :
    s.i.toInt = s.accepted.length := by
  rw [h.counter, Int32.toInt_ofNat_of_lt hfew]

/-- No open connection has its object in memory that is free. -/
theorem RegistryInv.ctx_ne (h : s.RegistryInv) {c : SvrConnection} (hc : c ∈ s.openConnections) {ctx : ℕ}
    (hctx : s.world.wrappers ctx = none) : c.ctx ≠ ctx := by
  obtain ⟨b, hown⟩ := h.owned c hc
  rintro rfl
  rw [HandleWorld.Owns, hctx] at hown
  cases hown

/-! ### A connection event -/

/-- The handles when a connection has not been accepted: its object is destroyed, and `~Handle` frees the
handle, which was not closed. -/
def refusedWorld (s : CSimpleSvr) (ctx : ℕ) : HandleWorld SvrCallback :=
  (s.world.construct ctx .tcp).destroy ctx ⟨some s.world.next, false⟩

/-- Destroying the context just constructed leaves its handle closed. -/
theorem destroyCtx_construct (s : CSimpleSvr) (ctx : ℕ) :
    { s with world := s.world.construct ctx .tcp }.destroyCtx ctx =
      { s with world := s.refusedWorld ctx } := by
  have hw : (s.world.construct ctx .tcp).wrappers ctx = some ⟨some s.world.next, false⟩ :=
    HandleWorld.wrappers_setWrapper _ _
  simp only [destroyCtx, hw]
  rfl

/-- The handle that a connection event makes is not one that is being closed, and the others are as
before. -/
theorem RegistryInv.closing_construct (h : s.RegistryInv) {w : HandleWorld SvrCallback}
    (hold : ∀ a, a ≠ s.world.next → w.heap a = s.world.heap a)
    (hnew : (w.heap s.world.next).state = .opened) {a : ℕ} (ha : (w.heap a).state = .closing (some ())) :
    ∃ c ∈ s.accepted, c.addr = a ∧ (w.heap a).data.invoke .close = some (.eraseClient c.id) := by
  have hne : a ≠ s.world.next := by
    rintro rfl
    rw [hnew] at ha
    cases ha
  rw [hold a hne] at ha ⊢
  exact h.closing a ha

/-- Which of the connections so far have an unregistered handle does not change when only the next
allocation is written. -/
theorem RegistryInv.done_construct (h : s.RegistryInv) {w : HandleWorld SvrCallback}
    (hold : ∀ a, a ≠ s.world.next → w.heap a = s.world.heap a) {c : SvrConnection}
    (hc : c ∈ s.accepted) : c.addr ∈ s.closeDone ↔ (w.heap c.addr).state = .unregistered := by
  rw [hold _ (h.addr_lt c hc).ne]
  exact h.done c hc

/-- A connection that is not accepted. -/
theorem RegistryInv.refuse (h : s.RegistryInv) {ctx : ℕ} (hctx : s.world.wrappers ctx = none) :
    { s with world := s.refusedWorld ctx }.RegistryInv := by
  -- the destructor leaves the handles as `construct` has made them
  have hold : ∀ a, a ≠ s.world.next → (s.refusedWorld ctx).heap a = s.world.heap a := by
    intro a ha
    exact HandleWorld.heap_construct_of_ne ha ctx .tcp
  have hnew : (s.refusedWorld ctx).heap s.world.next = ⟨.tcp, .opened, .new⟩ :=
    HandleWorld.heap_construct (s := s.world) ctx .tcp
  constructor
  case world => exact (h.world.construct ctx .tcp).destroy (HandleWorld.wrappers_setWrapper _ _)
  case idle => exact h.idle
  case counter => exact h.counter
  case ids => exact h.ids
  case addrs => exact h.addrs
  case addr_lt => exact fun c hc => (h.addr_lt c hc).trans (Nat.lt_succ_self _)
  case done_lt => exact fun a ha => (h.done_lt a ha).trans (Nat.lt_succ_self _)
  case entries => exact h.entries
  case done => exact fun c hc => h.done_construct hold hc
  case owned =>
    intro c hc
    obtain ⟨b, hown⟩ := h.owned c hc
    have hne := h.ctx_ne hc hctx
    exact ⟨b, (hown.setWrapper hne _).setWrapper hne _⟩
  case closing =>
    intro a ha
    exact h.closing_construct hold (by rw [hnew]) ha
  case readers =>
    intro a ctx' hread
    have hread' : ((s.refusedWorld ctx).heap a).data.invoke .readStart = some (.onRecv ctx') := hread
    have hne : a ≠ s.world.next := by
      rintro rfl
      rw [hnew] at hread'
      cases hread'
    rw [hold a hne] at hread'
    exact h.readers a ctx' hread'

/-- The new connection. -/
def newConnection (s : CSimpleSvr) (ctx : ℕ) : SvrConnection := ⟨s.i.toInt, ctx, s.world.next⟩

/-- The handles when a connection has been accepted. -/
def acceptedWorld (s : CSimpleSvr) (ctx : ℕ) : HandleWorld SvrCallback :=
  ((s.world.construct ctx .tcp).storeCallback s.world.next .readStart (.onRecv ctx)).storeCallback
    s.world.next .write (.onWriteFinished ctx)

/-- The handle of a connection just accepted, with its read and write callbacks. -/
theorem heap_acceptedWorld (s : CSimpleSvr) (ctx : ℕ) :
    (s.acceptedWorld ctx).heap s.world.next =
      ⟨.tcp, .opened, (Callbacks.new.store .readStart (.onRecv ctx)).store .write
        (.onWriteFinished ctx)⟩ := by
  rw [acceptedWorld, HandleWorld.storeCallback, HandleWorld.heap_setHandle,
    HandleWorld.storeCallback, HandleWorld.heap_setHandle, HandleWorld.heap_construct]

/-- The other handles stand as they were. -/
theorem heap_acceptedWorld_of_ne {a : ℕ} (ha : a ≠ s.world.next) (ctx : ℕ) :
    (s.acceptedWorld ctx).heap a = s.world.heap a := by
  rw [acceptedWorld, HandleWorld.storeCallback, HandleWorld.heap_setHandle_of_ne ha,
    HandleWorld.storeCallback, HandleWorld.heap_setHandle_of_ne ha,
    HandleWorld.heap_construct_of_ne ha]

/-- The new id is not a key of the registry. -/
theorem RegistryInv.not_mem_keys (h : s.RegistryInv) (hfew : s.accepted.length < 2 ^ 31) :
    s.allClient.any (·.1 = s.i.toInt) = false := by
  rw [List.any_eq_false]
  intro p hp
  obtain ⟨c, hc, rfl⟩ := h.mem_entries.mp hp
  have hid : c.id ∈ s.accepted.map (·.id) := List.mem_map_of_mem (mem_openConnections.mp hc).1
  rw [h.ids] at hid
  obtain ⟨n, hn, heq⟩ := List.mem_map.mp hid
  -- the ids that have been given away are below the next one
  have hlt := List.mem_range.mp hn
  rw [decide_eq_true_iff, h.next_id hfew]
  show ¬ c.id = _
  omega

/-- Inserting a key that is not in the map appends the entry. -/
theorem insert_of_new {key : ℤ} (hnew : s.allClient.any (·.1 = key) = false) (client : ClientCtx) :
    s.insert key client = { s with allClient := s.allClient ++ [(key, client)] } :=
  if_neg (Bool.eq_false_iff.mp hnew)

/-- The state when a connection has been accepted. -/
def entered (s : CSimpleSvr) (ctx : ℕ) : CSimpleSvr :=
  { s with
    world := s.acceptedWorld ctx
    allClient := s.allClient ++ [(s.newConnection ctx).entry]
    i := s.i + 1
    accepted := s.accepted ++ [s.newConnection ctx] }

/-- A connection that is accepted is entered under a new id. -/
theorem addClient_eq (h : s.RegistryInv) (hfew : s.accepted.length < 2 ^ 31) (ctx : ℕ) :
    { s with world := s.world.construct ctx .tcp }.addClient ctx s.world.next = s.entered ctx := by
  have hinsert := insert_of_new (s := { s with world := s.acceptedWorld ctx, i := s.i + 1 })
    (h.not_mem_keys hfew) (s.newConnection ctx).entry.2
  exact congrArg (fun t : CSimpleSvr =>
    { t with accepted := t.accepted ++ [s.newConnection ctx] }) hinsert

/-- The handle of the new connection has not been closed, since it is the next allocation. -/
theorem RegistryInv.newConnection_not_done (h : s.RegistryInv) (ctx : ℕ) :
    (s.newConnection ctx).addr ∉ s.closeDone := fun hdone => lt_irrefl _ (h.done_lt _ hdone)

/-- The new connection comes last among the open ones. -/
theorem RegistryInv.openConnections_entered (h : s.RegistryInv) (ctx : ℕ) :
    (s.entered ctx).openConnections = s.openConnections ++ [s.newConnection ctx] := by
  have hnot := h.newConnection_not_done ctx
  show (s.accepted ++ [s.newConnection ctx]).filter (·.addr ∉ s.closeDone) = _
  rw [List.filter_append, List.filter_cons_of_pos (by simpa using hnot), List.filter_nil,
    openConnections]

/-- The ids are counted up, and the new one is the number of connections so far. -/
theorem RegistryInv.ids_entered (h : s.RegistryInv) (hfew : s.accepted.length < 2 ^ 31) (ctx : ℕ) :
    (s.accepted ++ [s.newConnection ctx]).map (·.id) =
      (List.range (s.accepted ++ [s.newConnection ctx]).length).map fun n : ℕ => (n : ℤ) := by
  rw [List.length_append, List.length_singleton, List.range_succ, List.map_append, List.map_append,
    h.ids]
  exact congrArg (_ ++ [·]) (h.next_id hfew)

/-- The new handle is none of those of the connections so far. -/
theorem RegistryInv.addrs_entered (h : s.RegistryInv) (ctx : ℕ) :
    ((s.accepted ++ [s.newConnection ctx]).map (·.addr)).Nodup := by
  rw [List.map_append]
  refine (List.perm_append_singleton _ _).nodup_iff.mpr (List.nodup_cons.mpr ⟨fun hmem => ?_,
    h.addrs⟩)
  obtain ⟨c, hc, heq⟩ := List.mem_map.mp hmem
  exact (h.addr_lt c hc).ne heq

/-- Every open connection has its object, the new one included. -/
theorem RegistryInv.owned_entered (h : s.RegistryInv) {ctx : ℕ} (hctx : s.world.wrappers ctx = none)
    {c : SvrConnection} (hc : c ∈ s.openConnections ++ [s.newConnection ctx]) :
    ∃ willClose, (s.acceptedWorld ctx).Owns c.ctx c.addr willClose := by
  rcases List.mem_append.mp hc with hc | hc
  · obtain ⟨b, hown⟩ := h.owned c hc
    exact ⟨b, hown.setWrapper (h.ctx_ne hc hctx) _⟩
  · rw [List.mem_singleton.mp hc]
    exact ⟨false, HandleWorld.wrappers_setWrapper _ _⟩

/-- The slot for reads of the new handle holds the callback of the new object. -/
theorem RegistryInv.readers_entered (h : s.RegistryInv) {ctx a ctx' : ℕ}
    (hread : ((s.acceptedWorld ctx).heap a).data.invoke .readStart = some (.onRecv ctx')) :
    ∃ c ∈ s.accepted ++ [s.newConnection ctx], c.addr = a ∧ c.ctx = ctx' := by
  by_cases ha : a = s.world.next
  · subst ha
    rw [s.heap_acceptedWorld ctx, Callbacks.invoke_store_of_ne _ (fun heq => by cases heq),
      Callbacks.invoke_store] at hread
    cases hread
    exact ⟨s.newConnection ctx, List.mem_append_right _ (List.mem_singleton_self _), rfl, rfl⟩
  · rw [heap_acceptedWorld_of_ne ha] at hread
    obtain ⟨c, hc, hca, hcc⟩ := h.readers a ctx' hread
    exact ⟨c, List.mem_append_left _ hc, hca, hcc⟩

/-- A connection that is accepted. -/
theorem RegistryInv.addClient (h : s.RegistryInv) {ctx : ℕ} (hctx : s.world.wrappers ctx = none)
    (hfew : s.accepted.length < 2 ^ 31) : (s.entered ctx).RegistryInv := by
  have hold : ∀ a, a ≠ s.world.next → (s.acceptedWorld ctx).heap a = s.world.heap a := by
    intro a ha
    exact heap_acceptedWorld_of_ne ha ctx
  have hnew := s.heap_acceptedWorld ctx
  constructor
  case world => exact ((h.world.construct ctx .tcp).storeCallback _ _ _).storeCallback _ _ _
  case idle => exact h.idle
  case counter =>
    show s.i + 1 = Int32.ofNat (s.accepted ++ [s.newConnection ctx]).length
    rw [h.counter, List.length_append, List.length_singleton, Int32.ofNat_add]
    rfl
  case ids => exact h.ids_entered hfew ctx
  case addrs => exact h.addrs_entered ctx
  case addr_lt =>
    intro c hc
    show c.addr < s.world.next + 1
    rcases List.mem_append.mp hc with hc | hc
    · exact (h.addr_lt c hc).trans (Nat.lt_succ_self _)
    · rw [List.mem_singleton.mp hc]
      exact Nat.lt_succ_self _
  case done_lt => exact fun a ha => (h.done_lt a ha).trans (Nat.lt_succ_self _)
  case entries =>
    show s.allClient ++ [(s.newConnection ctx).entry] = _
    rw [h.openConnections_entered ctx, List.map_append, ← h.entries]
    rfl
  case done =>
    intro c hc
    show c.addr ∈ s.closeDone ↔ ((s.acceptedWorld ctx).heap c.addr).state = .unregistered
    rcases List.mem_append.mp hc with hc | hc
    · exact h.done_construct hold hc
    · rw [List.mem_singleton.mp hc]
      refine iff_of_false (h.newConnection_not_done ctx) ?_
      rw [newConnection, hnew]
      exact fun heq => by cases heq
  case owned =>
    intro c hc
    rw [h.openConnections_entered ctx] at hc
    exact h.owned_entered hctx hc
  case closing =>
    intro a ha
    obtain ⟨c, hc, hca, hslot⟩ := h.closing_construct hold (by rw [hnew]) ha
    exact ⟨c, List.mem_append_left _ hc, hca, hslot⟩
  case readers => exact fun a ctx' hread => h.readers_entered hread

/-! ### Reads and errors -/

/-- Two open connections do not share an object. -/
theorem RegistryInv.eq_of_ctx (h : s.RegistryInv) {c d : SvrConnection} (hc : c ∈ s.openConnections)
    (hd : d ∈ s.openConnections) (heq : c.ctx = d.ctx) : c = d := by
  obtain ⟨b, hown⟩ := h.owned c hc
  obtain ⟨b', hown'⟩ := h.owned d hd
  rw [heq, HandleWorld.Owns, hown'] at hown
  have haddr : d.addr = c.addr := by
    injection hown with hown
    injection hown with haddr
    exact Option.some.inj haddr
  exact h.eq_of_addr (mem_openConnections.mp hc).1 (mem_openConnections.mp hd).1 haddr.symm

/-- The loop is asked to close the handle of a connection. -/
theorem RegistryInv.askedToClose (h : s.RegistryInv) {c : SvrConnection} (hc : c ∈ s.openConnections)
    (hopen : (s.world.heap c.addr).state = .opened) :
    { s with world := s.world.askedToClose c.ctx c.addr (.eraseClient c.id) }.RegistryInv := by
  obtain ⟨b, hown⟩ := h.owned c hc
  obtain ⟨haccepted, hnot⟩ := mem_openConnections.mp hc
  constructor
  case world => exact h.world.askedToClose hown hopen _
  case idle => exact h.idle
  case counter => exact h.counter
  case ids => exact h.ids
  case addrs => exact h.addrs
  case addr_lt => exact h.addr_lt
  case done_lt => exact h.done_lt
  case entries => exact h.entries
  case done =>
    intro d hd
    show d.addr ∈ s.closeDone ↔ ((s.world.askedToClose _ _ _).heap d.addr).state = _
    by_cases hda : d.addr = c.addr
    · rw [hda, HandleWorld.heap_askedToClose]
      exact iff_of_false hnot fun heq => by cases heq
    · rw [HandleWorld.heap_askedToClose_of_ne hda]
      exact h.done d hd
  case owned =>
    intro d hd
    show ∃ b, (s.world.askedToClose _ _ _).Owns d.ctx d.addr b
    by_cases hdc : d.ctx = c.ctx
    · obtain rfl := h.eq_of_ctx hd hc hdc
      exact ⟨true, HandleWorld.wrappers_setWrapper _ _⟩
    · obtain ⟨b', hown'⟩ := h.owned d hd
      exact ⟨b', (HandleWorld.wrappers_setWrapper_of_ne hdc _).trans hown'⟩
  case closing =>
    intro a ha
    show ∃ d ∈ s.accepted, d.addr = a ∧
      ((s.world.askedToClose _ _ _).heap a).data.invoke .close = some (.eraseClient d.id)
    by_cases hac : a = c.addr
    · refine ⟨c, haccepted, hac.symm, ?_⟩
      rw [hac, HandleWorld.heap_askedToClose]
      exact Callbacks.invoke_store _ _ _
    · have hstate : ((s.world.askedToClose _ _ _).heap a).state = .closing (some ()) := ha
      rw [HandleWorld.heap_askedToClose_of_ne hac] at hstate ⊢
      exact h.closing a hstate
  case readers =>
    intro a ctx hread
    have hread' : ((s.world.askedToClose _ _ _).heap a).data.invoke .readStart = _ := hread
    by_cases hac : a = c.addr
    · -- the slot for reads is another one than the slot for the close
      rw [hac, HandleWorld.heap_askedToClose,
        Callbacks.invoke_store_of_ne _ (fun heq => by cases heq)] at hread'
      rw [hac]
      exact h.readers c.addr ctx hread'
    · rw [HandleWorld.heap_askedToClose_of_ne hac] at hread'
      exact h.readers a ctx hread'

/-- What `OnRecv` does with the handle of its connection. -/
theorem RegistryInv.onRecv_eq (h : s.RegistryInv) {c : SvrConnection} (hc : c ∈ s.openConnections)
    (len : ℤ) :
    s.onRecv c.entry.2 len = if len > 0 then s
      else { s with world := s.world.closeHandle c.ctx c.addr (.eraseClient c.id) } := by
  obtain ⟨b, hown⟩ := h.owned c hc
  unfold CSimpleSvr.onRecv
  split
  case isTrue => rfl
  case isFalse =>
    rw [show s.world.wrappers c.entry.2.handle = _ from hown]
    rfl

/-- **The close of a connection**, whether or not it is being closed already. -/
theorem RegistryInv.closeHandle (h : s.RegistryInv) {c : SvrConnection} (hc : c ∈ s.openConnections) :
    { s with world := s.world.closeHandle c.ctx c.addr (.eraseClient c.id) }.RegistryInv := by
  rcases s.world.closeHandle_cases c.ctx c.addr (.eraseClient c.id) with ⟨-, heq⟩ | ⟨hopen, heq⟩
  · rw [heq]
    exact ⟨h.world.effects _, h.idle, h.counter, h.ids, h.addrs, h.addr_lt, h.done_lt, h.entries,
      h.done, h.owned, h.closing, h.readers⟩
  · rw [heq]
    exact h.askedToClose hc hopen

/-! ### The completion of a close -/

/-- The state when the close of a connection has completed. -/
def removed (s : CSimpleSvr) (c : SvrConnection) : CSimpleSvr :=
  { s with
    world := ((s.world.closeCb c.addr).setWrapper c.ctx none).closeCbEnd c.addr
    allClient := s.allClient.filter (·.1 ≠ c.id)
    closeDone := s.closeDone ++ [c.addr] }

/-- A connection that is being closed is in the registry, and its object leaves the handle to the
loop. -/
theorem RegistryInv.of_closing (h : s.RegistryInv) {addr : ℕ}
    (hstate : (s.world.heap addr).state = .closing (some ())) :
    ∃ c ∈ s.openConnections, c.addr = addr ∧ s.world.Owns c.ctx addr true ∧
      s.closeCb addr = s.removed c := by
  obtain ⟨c, hc, rfl, hslot⟩ := h.closing addr hstate
  have hnot : c.addr ∉ s.closeDone := by
    rw [h.done c hc, hstate]
    exact fun heq => by cases heq
  have hopen := mem_openConnections.mpr ⟨hc, hnot⟩
  obtain ⟨b, hown⟩ := h.owned c hopen
  -- an object that may still free its handle has an open one
  obtain rfl : b = true := by
    cases b with
    | true => rfl
    | false =>
      rw [(h.world.opened c.ctx c.addr hown).1] at hstate
      cases hstate
  refine ⟨c, hopen, rfl, hown, ?_⟩
  have hkeys : (s.allClient.map Prod.fst).Nodup := by
    rw [h.entries, List.map_map]
    exact h.ids_nodup.sublist (List.filter_sublist.map _)
  -- the lambda finds the entry of its own connection
  have hfind : s.allClient.find? (·.1 = c.id) = some c.entry :=
    find?_key Prod.fst hkeys (h.mem_entries.mpr ⟨c, hopen, rfl⟩)
  have huser : (s.world.closeCb c.addr).userCallback c.addr = some (.eraseClient c.id) := by
    rw [HandleWorld.userCallback, HandleWorld.closeCb]
    simp only [HandleWorld.heap_setHandle]
    exact hslot
  -- the destructor of that entry leaves the handle alone
  have herase : { s with world := s.world.closeCb c.addr, closeDone := s.closeDone ++ [c.addr] }.erase
      c.id = { s with
        world := (s.world.closeCb c.addr).setWrapper c.ctx none
        allClient := s.allClient.filter (·.1 ≠ c.id)
        closeDone := s.closeDone ++ [c.addr] } := by
    have hw : (s.world.closeCb c.addr).wrappers c.ctx = some ⟨some c.addr, true⟩ := hown
    rw [erase]
    simp only [hfind]
    rw [destroyCtx]
    simp only [SvrConnection.entry, hw]
    rfl
  rw [CSimpleSvr.closeCb]
  simp only [huser]
  rw [herase]
  rfl

/-- Removing a connection leaves the handles of the others. -/
theorem heap_removed_of_ne {c : SvrConnection} {a : ℕ} (ha : a ≠ c.addr) :
    (s.removed c).world.heap a = s.world.heap a := HandleWorld.heap_setHandle_of_ne ha _

/-- Removing a connection asks for the close of its handle. -/
theorem heap_removed (s : CSimpleSvr) (c : SvrConnection) :
    (s.removed c).world.heap c.addr = { s.world.heap c.addr with state := .unregistered } :=
  HandleWorld.heap_setHandle _ _

/-- The open connections when one of them has been removed. -/
theorem RegistryInv.mem_open_removed (h : s.RegistryInv) {c d : SvrConnection}
    (hc : c ∈ s.openConnections) :
    d ∈ (s.removed c).openConnections ↔ d ∈ s.openConnections ∧ d.id ≠ c.id := by
  have hdone : (s.removed c).closeDone = s.closeDone ++ [c.addr] := rfl
  rw [mem_openConnections, mem_openConnections, hdone, List.mem_append, List.mem_singleton, not_or,
    ← and_assoc]
  refine and_congr_right fun hd => not_congr ⟨fun haddr => ?_, fun hid => ?_⟩
  · rw [h.eq_of_addr hd.1 (mem_openConnections.mp hc).1 haddr]
  · rw [h.eq_of_id hd.1 (mem_openConnections.mp hc).1 hid]

/-- Removing by id and removing by handle come to the same. -/
theorem RegistryInv.entries_removed (h : s.RegistryInv) {c : SvrConnection} (hc : c ∈ s.openConnections) :
    s.allClient.filter (·.1 ≠ c.id) = (s.removed c).openConnections.map SvrConnection.entry := by
  rw [h.entries, List.filter_map]
  refine congrArg (List.map SvrConnection.entry) ?_
  rw [openConnections, openConnections, List.filter_filter]
  refine List.filter_congr fun d hd => ?_
  have hiff := h.mem_open_removed (d := d) hc
  rw [mem_openConnections, mem_openConnections] at hiff
  simp only [Function.comp_apply, SvrConnection.entry]
  have hd' : d ∈ (s.removed c).accepted := hd
  simp only [hd, hd', true_and] at hiff
  rw [decide_eq_decide.mpr hiff, Bool.decide_and]
  exact Bool.and_comm _ _

/-- The handle of the connection is the only one that is not registered any more. -/
theorem RegistryInv.done_removed (h : s.RegistryInv) {c d : SvrConnection} (hd : d ∈ s.accepted) :
    d.addr ∈ s.closeDone ++ [c.addr] ↔ ((s.removed c).world.heap d.addr).state = .unregistered := by
  rw [List.mem_append, List.mem_singleton]
  by_cases hda : d.addr = c.addr
  · rw [hda, heap_removed]
    exact iff_of_true (.inr rfl) rfl
  · rw [heap_removed_of_ne hda, or_iff_left hda]
    exact h.done d hd

/-- **The close of a connection completes.** -/
theorem RegistryInv.removed (h : s.RegistryInv) {c : SvrConnection} (hc : c ∈ s.openConnections)
    (hstate : (s.world.heap c.addr).state = .closing (some ())) : (s.removed c).RegistryInv := by
  constructor
  case world =>
    exact ((h.world.closeCb hstate h.idle).setWrapper_none c.ctx).closeCbEnd rfl
  case idle => rfl
  case counter => exact h.counter
  case ids => exact h.ids
  case addrs => exact h.addrs
  case addr_lt => exact h.addr_lt
  case done_lt =>
    intro a ha
    rcases List.mem_append.mp ha with ha | ha
    · exact h.done_lt a ha
    · rw [List.mem_singleton.mp ha]
      exact h.addr_lt c (mem_openConnections.mp hc).1
  case entries => exact h.entries_removed hc
  case done => exact fun d hd => h.done_removed hd
  case owned =>
    intro d hd
    obtain ⟨hopen, hid⟩ := (h.mem_open_removed hc).mp hd
    obtain ⟨b, hown⟩ := h.owned d hopen
    -- two open connections do not share an object
    have hne : d.ctx ≠ c.ctx := fun heq => hid (by rw [h.eq_of_ctx hopen hc heq])
    exact ⟨b, (HandleWorld.wrappers_setWrapper_of_ne hne _).trans hown⟩
  case closing =>
    intro a ha
    have hne : a ≠ c.addr := by
      rintro rfl
      rw [heap_removed] at ha
      cases ha
    rw [heap_removed_of_ne hne] at ha ⊢
    exact h.closing a ha
  case readers =>
    intro a ctx hread
    by_cases ha : a = c.addr
    · subst ha
      -- the callbacks of the handle are not touched
      rw [heap_removed] at hread
      exact h.readers c.addr ctx hread
    · rw [heap_removed_of_ne ha] at hread
      exact h.readers a ctx hread

/-! ### Steps and runs -/

/-- A read event is one of an open connection. -/
theorem RegistryInv.step_recv (h : s.RegistryInv) {addr : ℕ} {len : ℤ}
    (hstep : s.step (.recv addr len) = some s') :
    ∃ c ∈ s.openConnections, c.addr = addr ∧ s' = s.onRecv c.entry.2 len := by
  simp only [step] at hstep
  split at hstep
  case h_1 ctx hslot =>
    obtain ⟨hstate, hmap⟩ := Option.ite_none_left_eq_some.mp hstep
    obtain ⟨p, hfind, rfl⟩ := Option.map_eq_some_iff.mp hmap
    obtain ⟨c, hc, rfl, hctx⟩ := h.readers addr ctx hslot
    have hopen := mem_openConnections.mpr ⟨hc, fun hdone => hstate ((h.done c hc).mp hdone)⟩
    obtain ⟨d, hd, rfl⟩ := h.mem_entries.mp (List.mem_of_find?_eq_some hfind)
    have hfound := List.find?_some hfind
    -- the object that is found is the one of the connection
    have heq : d = c := h.eq_of_ctx hd hopen ((of_decide_eq_true hfound).trans hctx.symm)
    exact ⟨c, hopen, rfl, by rw [heq]⟩
  case h_2 => cases hstep

/-- **What a step does.** A connection is refused; or it is accepted under a new id; or something is read
from an open connection, which goes on or is closed; or the close of an open connection completes. -/
theorem RegistryInv.step_cases (h : s.RegistryInv) (hfew : s.accepted.length < 2 ^ 31) {e : SvrEvent}
    (hstep : s.step e = some s') :
    (∃ state accept ctx, e = .newConnected state accept ctx ∧ s.world.wrappers ctx = none ∧
        accept ≠ 0 ∧ s' = { s with world := s.refusedWorld ctx }) ∨
      (∃ state ctx, e = .newConnected state 0 ctx ∧ s.world.wrappers ctx = none ∧
        s' = s.entered ctx) ∨
      (∃ c ∈ s.openConnections, ∃ len, e = .recv c.addr len ∧ s' = if len > 0 then s
        else { s with world := s.world.closeHandle c.ctx c.addr (.eraseClient c.id) }) ∨
      ∃ c ∈ s.openConnections, e = .closeCb c.addr ∧
        (s.world.heap c.addr).state = .closing (some ()) ∧ s' = s.removed c := by
  cases e with
  | newConnected state accept ctx =>
    obtain ⟨hctx, heq⟩ := Option.ite_none_right_eq_some.mp hstep
    cases heq
    unfold onNewConnected
    by_cases haccept : accept = 0
    · subst haccept
      rw [if_neg (not_not_intro rfl), addClient_eq h hfew ctx]
      exact .inr (.inl ⟨state, ctx, rfl, hctx, rfl⟩)
    · rw [if_pos haccept, destroyCtx_construct]
      exact .inl ⟨state, accept, ctx, rfl, hctx, haccept, rfl⟩
  | recv addr len =>
    obtain ⟨c, hc, rfl, rfl⟩ := h.step_recv hstep
    exact .inr (.inr (.inl ⟨c, hc, len, rfl, h.onRecv_eq hc len⟩))
  | closeCb addr =>
    obtain ⟨hstate, heq⟩ := Option.ite_none_right_eq_some.mp hstep
    cases heq
    obtain ⟨c, hc, rfl, -, heq⟩ := h.of_closing hstate
    exact .inr (.inr (.inr ⟨c, hc, rfl, hstate, heq⟩))

/-- Every step keeps the invariant, as long as the ids do not overflow. -/
theorem step_registryInv (h : s.RegistryInv) (hfew : s.accepted.length < 2 ^ 31) {e : SvrEvent}
    (hstep : s.step e = some s') : s'.RegistryInv := by
  obtain ⟨state, accept, ctx, rfl, hctx, -, rfl⟩ | ⟨state, ctx, rfl, hctx, rfl⟩ |
    ⟨c, hc, len, rfl, rfl⟩ | ⟨c, hc, rfl, hstate, rfl⟩ := h.step_cases hfew hstep
  · exact h.refuse hctx
  · exact h.addClient hctx hfew
  · split
    case isTrue => exact h
    case isFalse => exact h.closeHandle hc
  · exact h.removed hc hstate

/-- Destroying a context forgets no connection that was accepted. -/
@[simp] theorem accepted_destroyCtx (s : CSimpleSvr) (ctx : ℕ) :
    (s.destroyCtx ctx).accepted = s.accepted := by
  rw [destroyCtx]
  split <;> rfl

/-- Connections are added to the accepted ones and never removed from them. -/
theorem step_accepted_le {e : SvrEvent} (hstep : s.step e = some s') :
    s.accepted.length ≤ s'.accepted.length := by
  cases e with
  | newConnected state accept ctx =>
    obtain ⟨-, heq⟩ := Option.ite_none_right_eq_some.mp hstep
    cases heq
    rw [onNewConnected]
    split
    case isTrue => rw [accepted_destroyCtx]
    case isFalse =>
      -- an insertion that fails destroys an object, but no record of a connection
      have hinsert : ∀ (t : CSimpleSvr) key client, (t.insert key client).accepted = t.accepted := by
        intro t key client
        rw [insert]
        split
        case isTrue => exact accepted_destroyCtx t _
        case isFalse => rfl
      show _ ≤ (CSimpleSvr.accepted (insert _ _ _) ++ [_]).length
      rw [hinsert, List.length_append]
      exact Nat.le_add_right _ _
  | recv addr len =>
    rw [step] at hstep
    split at hstep
    case h_1 ctx hslot =>
      obtain ⟨-, hmap⟩ := Option.ite_none_left_eq_some.mp hstep
      obtain ⟨p, -, rfl⟩ := Option.map_eq_some_iff.mp hmap
      rw [onRecv]
      split
      case isTrue => exact le_rfl
      case isFalse => split <;> exact le_rfl
    case h_2 => cases hstep
  | closeCb addr =>
    obtain ⟨-, heq⟩ := Option.ite_none_right_eq_some.mp hstep
    cases heq
    have herase : ∀ (t : CSimpleSvr) key, (t.erase key).accepted = t.accepted := by
      intro t key
      rw [erase]
      split
      case h_1 => exact accepted_destroyCtx _ _
      case h_2 => rfl
    rw [closeCb]
    simp only
    split
    case h_1 => rw [herase]
    case h_2 => exact le_rfl

/-- Every run keeps the invariant, as long as the ids do not overflow. -/
theorem run_registryInv {handle : ℕ} {es : List SvrEvent} (hrun : run step (new handle) es = some s)
    (hfew : s.accepted.length < 2 ^ 31) : s.RegistryInv :=
  run_invariant (I := fun s => s.accepted.length < 2 ^ 31 → s.RegistryInv)
    (fun _ _ _ h hstep hfew' => by
      -- there were no more connections before than after
      have hfew := (step_accepted_le hstep).trans_lt hfew'
      exact step_registryInv (h hfew) hfew hstep)
    (fun _ => registryInv_new handle) hrun hfew

/-- The handle of a connection is freed by its close callback, and only there. -/
theorem RegistryInv.frees (h : s.RegistryInv) {c : SvrConnection} (hc : c ∈ s.accepted) :
    s.world.frees c.addr = if c.addr ∈ s.closeDone then 1 else 0 := by
  have hrunning : s.world.running ≠ some c.addr := by
    rw [h.idle]
    exact fun heq => by cases heq
  split
  case isTrue hdone =>
    exact h.world.frees_delivered (h.addr_lt c hc) ⟨(h.done c hc).mp hdone, hrunning⟩
  case isFalse hnot =>
    obtain ⟨b, hown⟩ := h.owned c (mem_openConnections.mpr ⟨hc, hnot⟩)
    exact h.world.frees_owned hown fun hdelivered => hnot ((h.done c hc).mpr hdelivered.1)

end CSimpleSvr

/-- **The registry.** After every event of a run with fewer than 2^31 accepted connections, in any
order: the keys of `m_all_Client` are the ids of the accepted connections whose close callback has not
run, each once; every entry has its key for its id; no two connections have had the same id; the handle
of a connection has been freed once if its close callback has run, and not at all otherwise. And the
completion of a close removes the entry of its own connection and no other, destroys the object of that
entry, which has left the handle to the loop, and frees the handle for the first time. -/
theorem simpleSvr_registry (handle : ℕ) (es : List SvrEvent) (s : CSimpleSvr)
    (hrun : run CSimpleSvr.step (.new handle) es = some s) (hfew : s.accepted.length < 2 ^ 31) :
    (∀ id, id ∈ s.allClient.map Prod.fst ↔ ∃ c ∈ s.accepted, c.id = id ∧ c.addr ∉ s.closeDone) ∧
      (s.allClient.map Prod.fst).Nodup ∧
      (∀ p ∈ s.allClient, p.2.mId = p.1) ∧
      (s.accepted.map (·.id)).Nodup ∧
      (∀ c ∈ s.accepted, s.world.frees c.addr = if c.addr ∈ s.closeDone then 1 else 0) ∧
      ∀ addr s', s.step (.closeCb addr) = some s' →
        ∃ c ∈ s.accepted, c.addr = addr ∧ c.entry ∈ s.allClient ∧
          s'.allClient = s.allClient.filter (·.1 ≠ c.id) ∧
          s.world.Owns c.ctx addr true ∧ s'.world.wrappers c.ctx = none ∧
          s'.closeDone = s.closeDone ++ [addr] ∧
          s'.world.frees = Function.update s.world.frees addr 1 := by
  have h := CSimpleSvr.run_registryInv hrun hfew
  have hkeys : s.allClient.map Prod.fst = s.openConnections.map (·.id) := by
    rw [h.entries, List.map_map]
    rfl
  refine ⟨fun id => ?_, ?_, fun p hp => ?_, h.ids_nodup, fun c hc => h.frees hc, fun addr s' hstep => ?_⟩
  · rw [hkeys, List.mem_map]
    constructor
    · rintro ⟨c, hc, rfl⟩
      obtain ⟨haccepted, hnot⟩ := CSimpleSvr.mem_openConnections.mp hc
      exact ⟨c, haccepted, rfl, hnot⟩
    · rintro ⟨c, haccepted, rfl, hnot⟩
      exact ⟨c, CSimpleSvr.mem_openConnections.mpr ⟨haccepted, hnot⟩, rfl⟩
  · rw [hkeys]
    exact h.ids_nodup.sublist (List.filter_sublist.map _)
  · obtain ⟨c, -, rfl⟩ := h.mem_entries.mp hp
    rfl
  · obtain ⟨hstate, heq⟩ := Option.ite_none_right_eq_some.mp hstep
    cases heq
    obtain ⟨c, hc, rfl, hown, heq⟩ := h.of_closing hstate
    rw [heq]
    refine ⟨c, (CSimpleSvr.mem_openConnections.mp hc).1, rfl, h.mem_entries.mpr ⟨c, hc, rfl⟩, rfl, hown,
      HandleWorld.wrappers_setWrapper _ _, rfl, ?_⟩
    show Function.update s.world.frees c.addr (s.world.frees c.addr + 1) = _
    rw [h.world.frees_closing hstate]

/-- Two connections, one between them that is not accepted, and the first one closed by the end of its
stream, which is reported twice, while the second one goes on. -/
theorem simpleSvr_registry_two_clients :
    ∃ s, run CSimpleSvr.step (.new 0)
        [.newConnected 0 0 1, .newConnected 0 (-11) 2, .newConnected (-103) 0 2, .recv 1 5,
          .recv 1 (-4095), .recv 1 (-4095), .recv 3 7, .closeCb 1] = some s ∧
      s.accepted.map (·.id) = [0, 1] ∧ s.closeDone = [1] ∧
      (∀ id, id ∈ s.allClient.map Prod.fst ↔ ∃ c ∈ s.accepted, c.id = id ∧ c.addr ∉ s.closeDone) := by
  obtain ⟨s, hs⟩ := Option.isSome_iff_exists.mp (show (run CSimpleSvr.step (.new 0)
    [.newConnected 0 0 1, .newConnected 0 (-11) 2, .newConnected (-103) 0 2, .recv 1 5,
      .recv 1 (-4095), .recv 1 (-4095), .recv 3 7, .closeCb 1]).isSome = true by decide +kernel)
  have hfacts : (run CSimpleSvr.step (.new 0)
      [.newConnected 0 0 1, .newConnected 0 (-11) 2, .newConnected (-103) 0 2, .recv 1 5,
        .recv 1 (-4095), .recv 1 (-4095), .recv 3 7, .closeCb 1]).map
        (fun s => (s.accepted.map (·.id), s.closeDone)) = some ([0, 1], [1]) := by decide +kernel
  rw [hs, Option.map_some, Option.some.injEq, Prod.mk.injEq] at hfacts
  refine ⟨s, hs, hfacts.1, hfacts.2, (simpleSvr_registry _ _ s hs ?_).1⟩
  have hlength := congrArg List.length hfacts.1
  rw [List.length_map] at hlength
  rw [hlength]
  decide

/-- A connection that is not accepted is constructed and destroyed, and its handle is freed while it is
registered with the loop. -/
theorem onNewConnected_refused {s : CSimpleSvr} {ctx : ℕ} (hctx : s.world.wrappers ctx = none)
    (state : ℤ) {accept : ℤ} (haccept : accept ≠ 0) :
    run HandleWorld.step s.world [.construct ctx .tcp, .destroy ctx] =
      some (s.onNewConnected state accept ctx).world := by
  have hw : (s.world.construct ctx .tcp).wrappers ctx = some ⟨some s.world.next, false⟩ :=
    HandleWorld.wrappers_setWrapper _ _
  have hconstruct : s.world.step (.construct ctx .tcp) = some (s.world.construct ctx .tcp) :=
    if_pos hctx
  have hdestroy : (s.world.construct ctx .tcp).step (.destroy ctx) = some (s.refusedWorld ctx) := by
    rw [HandleWorld.step, hw, Option.map_some]
    rfl
  rw [CSimpleSvr.onNewConnected, if_pos haccept, CSimpleSvr.destroyCtx_construct]
  rw [run, hconstruct, Option.bind_some, run, hdestroy, Option.bind_some, run]

end MyUvpp
