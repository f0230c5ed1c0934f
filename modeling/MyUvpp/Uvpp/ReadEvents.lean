import MyUvpp.Uvpp.ClientRegistry

/-! # What a read event does to its connection (`stream.hpp`, `Server.hpp`, `EchoSvrConn.cpp`)

`Stream::read_start` passes the number of bytes that libuv has read to `OnRecv`, also when it is zero,
which is neither an error nor the end of the stream. `OnRecv` takes every number that is not positive for
the end of the connection. -/

namespace MyUvpp

/-- The read callback of `Stream::read_start`: the bytes behind `buff` (`none` for a null pointer) and the
`len` that it passes on. -/
def readCallback (nread : ℤ) (base : List UInt8) : Option (List UInt8) × ℤ :=
  if nread < 0 then (none, nread) else (some base, nread)

/-- The branch of `ClientCtx::OnRecv` for a message, and its `str`; `EchoSvrConn::OnRecv` is the same. -/
def onRecvMessage (buff : Option (List UInt8)) (len : ℤ) : Option (List UInt8) :=
  if len > 0 then some ((buff.getD []).take len.toNat) else none

/-- What may happen next to a server, with the bytes of the read events. -/
inductive SvrInput where
  | newConnected (state accept : ℤ) (ctx : ℕ)
  | read (addr : ℕ) (nread : ℤ) (base : List UInt8)
  | closeCb (addr : ℕ)

/-- The event without its bytes. -/
def SvrInput.event : SvrInput → SvrEvent
  | .newConnected state accept ctx => .newConnected state accept ctx
  | .read addr nread _ => .recv addr nread
  | .closeCb addr => .closeCb addr

/-- A server and the bytes of its connections, by their handles. -/
structure SvrReads where
  svr : CSimpleSvr
  /-- The bytes that libuv has read, in the order of the events. -/
  received : List (ℕ × List UInt8)
  /-- The bytes that have reached the branch for a message. -/
  said : List (ℕ × List UInt8)

/-- The bytes of one handle. -/
def bytesOf (addr : ℕ) (log : List (ℕ × List UInt8)) : List UInt8 :=
  (log.filter (·.1 = addr)).flatMap Prod.snd

/-! ### Which handles a step leaves open -/

namespace CSimpleSvr

variable {s s' : CSimpleSvr}

/-- **What closes a handle.** Of the handles that there are, a step leaves open those that were, but for
the one from which nothing was read. -/
theorem RegistryInv.step_opened (h : s.RegistryInv) (hfew : s.accepted.length < 2 ^ 31) {e : SvrEvent}
    (hstep : s.step e = some s') {a : ℕ} (ha : a < s.world.next) :
    (s'.world.heap a).state = .opened ↔
      (s.world.heap a).state = .opened ∧ ∀ len, e = .recv a len → 0 < len := by
  obtain ⟨state, accept, ctx, rfl, -, -, rfl⟩ | ⟨state, ctx, rfl, -, rfl⟩ |
    ⟨c, hc, len, rfl, rfl⟩ | ⟨c, hc, rfl, hstate, rfl⟩ := h.step_cases hfew hstep
  · have hheap : (s.refusedWorld ctx).heap a = s.world.heap a :=
      HandleWorld.heap_construct_of_ne ha.ne ctx .tcp
    simp [hheap]
  · have hheap : (s.entered ctx).world.heap a = s.world.heap a := heap_acceptedWorld_of_ne ha.ne ctx
    simp [hheap]
  · split
    case isTrue hpos =>
      refine ⟨fun hopened => ⟨hopened, fun len' heq => ?_⟩, fun hopened => hopened.1⟩
      cases heq
      exact hpos
    case isFalse hneg =>
      rw [HandleWorld.opened_closeHandle]
      refine and_congr_right fun _ => ⟨fun hne len' heq => ?_, fun hpos heq => ?_⟩
      · cases heq
        exact absurd rfl hne
      · exact hneg (hpos len (by rw [heq]))
  · by_cases hac : a = c.addr
    · subst hac
      rw [heap_removed, hstate]
      simp
    · rw [heap_removed_of_ne hac]
      simp

/-- A step adds no connection, or one with a new handle that is open. -/
theorem RegistryInv.step_accepted (h : s.RegistryInv) (hfew : s.accepted.length < 2 ^ 31) {e : SvrEvent}
    (hstep : s.step e = some s') :
    s.world.next ≤ s'.world.next ∧ (s'.accepted = s.accepted ∨ ∃ state ctx,
      e = .newConnected state 0 ctx ∧ s'.accepted = s.accepted ++ [s.newConnection ctx] ∧
        (s'.world.heap s.world.next).state = .opened) := by
  obtain ⟨state, accept, ctx, rfl, -, -, rfl⟩ | ⟨state, ctx, rfl, -, rfl⟩ |
    ⟨c, hc, len, rfl, rfl⟩ | ⟨c, hc, rfl, hstate, rfl⟩ := h.step_cases hfew hstep
  · exact ⟨Nat.le_succ _, .inl rfl⟩
  · refine ⟨Nat.le_succ _, .inr ⟨state, ctx, rfl, rfl, ?_⟩⟩
    show ((s.acceptedWorld ctx).heap s.world.next).state = .opened
    rw [heap_acceptedWorld]
  · split
    case isTrue => exact ⟨le_rfl, .inl rfl⟩
    case isFalse => exact ⟨(HandleWorld.next_closeHandle _ _ _ _).ge, .inl rfl⟩
  · exact ⟨le_rfl, .inl rfl⟩

end CSimpleSvr

namespace SvrReads

/-- A server as `start` leaves it to its loop. -/
def new (handle : ℕ) : SvrReads := ⟨.new handle, [], []⟩

/-- The step of the server, and the bytes of a read event. -/
def advance (l : SvrReads) (svr : CSimpleSvr) : SvrInput → SvrReads
  | .read addr nread base =>
    let (buff, len) := readCallback nread base
    { svr
      received := l.received ++ [(addr, base.take nread.toNat)]
      said := l.said ++ ((onRecvMessage buff len).map fun str => (addr, str)).toList }
  | _ => { l with svr }

/-- Whether an event has a defined outcome: `i++` of `alloc_client_id` does not overflow, and libuv has
read no more bytes than there are in the buffer. -/
def Defined (l : SvrReads) : SvrInput → Prop
  | .newConnected _ accept _ => accept = 0 → l.svr.i.toInt < 2 ^ 31 - 1
  | .read _ nread base => nread ≤ base.length
  | .closeCb _ => True

/-- Whether an event is defined can be looked up in its arguments. -/
instance (l : SvrReads) : ∀ e, Decidable (l.Defined e)
  | .newConnected _ accept _ => inferInstanceAs (Decidable (accept = 0 → _ < _))
  | .read _ nread base => inferInstanceAs (Decidable (nread ≤ base.length))
  | .closeCb _ => inferInstanceAs (Decidable True)

/-- One step; there is none where the event cannot occur. -/
def step (l : SvrReads) (e : SvrInput) : Option SvrReads :=
  if l.Defined e then (l.svr.step e.event).map fun svr => l.advance svr e else none

/-- A connection is served: its handle is open, its entry is in the registry, and what was read from it
has reached the branch for a message. -/
structure Serves (l : SvrReads) (c : SvrConnection) : Prop where
  opened : (l.svr.world.heap c.addr).state = .opened
  entry : c.entry ∈ l.svr.allClient
  passed : bytesOf c.addr l.said = bytesOf c.addr l.received

/-! ### Steps and runs -/

/-- The invariant, with the events so far. -/
structure Inv (hist : List SvrInput) (l : SvrReads) : Prop where
  registry : l.svr.RegistryInv
  few : l.svr.accepted.length < 2 ^ 31
  opened : ∀ c ∈ l.svr.accepted, (l.svr.world.heap c.addr).state = .opened ↔
    ∀ nread base, .read c.addr nread base ∈ hist → 0 < nread
  reads_lt : ∀ addr nread base, .read addr nread base ∈ hist → addr < l.svr.world.next
  passed : ∀ addr, bytesOf addr l.said = bytesOf addr l.received

/-- A server just constructed has no connection. -/
theorem inv_new (handle : ℕ) : (new handle).Inv [] where
  registry := CSimpleSvr.registryInv_new handle
  few := by
    show 0 < 2 ^ 31
    decide
  opened c hc := absurd hc List.not_mem_nil
  reads_lt _ _ _ h := absurd h List.not_mem_nil
  passed _ := rfl

variable {l l' : SvrReads} {hist : List SvrInput}

/-- Recording an event leaves the server. -/
@[simp] theorem svr_advance (svr : CSimpleSvr) (e : SvrInput) : (l.advance svr e).svr = svr := by
  cases e <;> rfl

/-- What was read reaches the branch for a message, whatever the handle is in. -/
theorem passed_advance (h : ∀ addr, bytesOf addr l.said = bytesOf addr l.received) (svr : CSimpleSvr)
    (e : SvrInput) (addr : ℕ) :
    bytesOf addr (l.advance svr e).said = bytesOf addr (l.advance svr e).received := by
  cases e with
  | newConnected | closeCb => exact h addr
  | read a nread base =>
    have haddr := h addr
    unfold bytesOf at haddr ⊢
    simp only [advance, readCallback, List.filter_append, List.flatMap_append, haddr]
    refine congrArg _ ?_
    by_cases hpos : 0 < nread
    · simp [onRecvMessage, hpos, not_lt.mpr hpos.le]
    · have hzero : nread.toNat = 0 := by omega
      split_ifs <;> simp [onRecvMessage, hpos, hzero, List.filter_cons]

/-- The ids do not overflow. -/
theorem Inv.few_step (h : l.Inv hist) {e : SvrInput} (hdefined : l.Defined e) {svr : CSimpleSvr}
    (hstep : l.svr.step e.event = some svr) : svr.accepted.length < 2 ^ 31 := by
  obtain ⟨-, heq | ⟨state, ctx, he, heq, -⟩⟩ := h.registry.step_accepted h.few hstep
  · rw [heq]
    exact h.few
  · have hid := h.registry.next_id h.few
    cases e with
    | read | closeCb => cases he
    | newConnected =>
      cases he
      have hlt := hdefined rfl
      rw [heq, List.length_append, List.length_singleton]
      omega

/-- The handles that are open after the step. -/
theorem Inv.opened_step (h : l.Inv hist) {e : SvrInput} {svr : CSimpleSvr}
    (hstep : l.svr.step e.event = some svr) {c : SvrConnection} (hc : c ∈ svr.accepted) :
    (svr.world.heap c.addr).state = .opened ↔
      ∀ nread base, .read c.addr nread base ∈ hist ++ [e] → 0 < nread := by
  -- a connection that was there
  have hold : c ∈ l.svr.accepted → ((svr.world.heap c.addr).state = .opened ↔
      ∀ nread base, .read c.addr nread base ∈ hist ++ [e] → 0 < nread) := by
    intro hc
    rw [h.registry.step_opened h.few hstep (h.registry.addr_lt c hc), h.opened c hc]
    constructor
    · rintro ⟨hbefore, hnow⟩ nread base hmem
      rcases List.mem_append.mp hmem with hmem | hmem
      · exact hbefore nread base hmem
      · exact hnow nread (by rw [← List.mem_singleton.mp hmem]; rfl)
    · intro hall
      refine ⟨fun nread base hmem => hall nread base (List.mem_append_left _ hmem), fun len he => ?_⟩
      cases e with
      | newConnected | closeCb => cases he
      | read addr nread base =>
        cases he
        exact hall len base (by simp)
  obtain ⟨-, heq | ⟨state, ctx, he, heq, hnew⟩⟩ := h.registry.step_accepted h.few hstep
  · exact hold (heq ▸ hc)
  · rw [heq] at hc
    rcases List.mem_append.mp hc with hc | hc
    · exact hold hc
    · -- nothing has been read from a new handle
      obtain rfl := List.mem_singleton.mp hc
      refine iff_of_true hnew fun nread base hmem => ?_
      rcases List.mem_append.mp hmem with hmem | hmem
      · exact absurd (h.reads_lt _ nread base hmem) (lt_irrefl _)
      · rw [← List.mem_singleton.mp hmem] at he
        cases he

/-- Every step keeps the invariant. -/
theorem step_inv (h : l.Inv hist) {e : SvrInput} (hstep : l.step e = some l') :
    l'.Inv (hist ++ [e]) := by
  obtain ⟨hdefined, hmap⟩ := Option.ite_none_right_eq_some.mp hstep
  obtain ⟨svr, hsvr, rfl⟩ := Option.map_eq_some_iff.mp hmap
  constructor
  case registry =>
    rw [svr_advance]
    exact CSimpleSvr.step_registryInv h.registry h.few hsvr
  case few =>
    rw [svr_advance]
    exact h.few_step hdefined hsvr
  case opened =>
    rw [svr_advance]
    exact fun c hc => h.opened_step hsvr hc
  case reads_lt =>
    obtain ⟨hnext, -⟩ := h.registry.step_accepted h.few hsvr
    rw [svr_advance]
    intro addr nread base hmem
    rcases List.mem_append.mp hmem with hmem | hmem
    · exact (h.reads_lt addr nread base hmem).trans_le hnext
    · obtain rfl := List.mem_singleton.mp hmem
      obtain ⟨c, hc, rfl, -⟩ := h.registry.step_recv hsvr
      exact (h.registry.addr_lt c (CSimpleSvr.mem_openConnections.mp hc).1).trans_le hnext
  case passed => exact passed_advance h.passed svr e

/-- A connection is served as long as something was read by each of its events. -/
theorem Inv.serves_iff (h : l.Inv hist) {c : SvrConnection} (hc : c ∈ l.svr.accepted) :
    l.Serves c ↔ ∀ nread base, .read c.addr nread base ∈ hist → 0 < nread := by
  rw [← h.opened c hc]
  refine ⟨fun hserves => hserves.opened, fun hopened => ⟨hopened, ?_, h.passed c.addr⟩⟩
  -- the close callback of an open handle has not run
  have hnot : c.addr ∉ l.svr.closeDone := by
    rw [h.registry.done c hc, hopened]
    simp
  exact h.registry.mem_entries.mpr ⟨c, CSimpleSvr.mem_openConnections.mpr ⟨hc, hnot⟩, rfl⟩

end SvrReads

/-- **When a connection is not closed without a reason.** In every state of a run of the server, a
connection on which no error and no end of the stream has been reported is open and in the registry, and
all its bytes have reached the branch for a message, if and only if no read event has brought it zero
bytes. -/
theorem connection_served_iff (handle : ℕ) (es : List SvrInput) (l : SvrReads)
    (hrun : run SvrReads.step (.new handle) es = some l) (c : SvrConnection) (hc : c ∈ l.svr.accepted)
    (hreason : ∀ nread base, .read c.addr nread base ∈ es → 0 ≤ nread) :
    l.Serves c ↔ ∀ nread base, .read c.addr nread base ∈ es → nread ≠ 0 := by
  have hinv : l.Inv ([] ++ es) := run_invariant_history (fun _ _ _ _ h hstep => SvrReads.step_inv h hstep)
    (SvrReads.inv_new handle) hrun
  rw [List.nil_append] at hinv
  rw [hinv.serves_iff hc]
  refine forall_congr' fun nread => forall_congr' fun base => ⟨fun hpos hmem => ?_, fun hne hmem => ?_⟩
  · exact (hpos hmem).ne'
  · exact lt_of_le_of_ne (hreason nread base hmem) (hne hmem).symm

/-- Two connections; from the second one three bytes are read, and the first one ends. -/
theorem connection_served_iff_two_clients :
    ∃ l, run SvrReads.step (.new 0) [.newConnected 0 0 1, .newConnected 0 0 2, .read 2 3 [7, 8, 9],
        .read 1 (-4095) [], .closeCb 1] = some l ∧
      (l.Serves ⟨1, 2, 2⟩ ↔ ∀ nread base, .read 2 nread base ∈ ([.newConnected 0 0 1,
        .newConnected 0 0 2, .read 2 3 [7, 8, 9], .read 1 (-4095) [], .closeCb 1] : List SvrInput) →
          nread ≠ 0) := by
  refine exists_last_of_map (fun l => l.svr.accepted.map fun c => (c.id, c.ctx, c.addr))
    (b := [(0, 1, 1), (1, 2, 2)]) (by decide +kernel) fun l hl hb => ?_
  have hmem : ((1 : ℤ), 2, 2) ∈ l.svr.accepted.map fun c => (c.id, c.ctx, c.addr) := by
    rw [hb]
    simp
  obtain ⟨c, hc, heq⟩ := List.mem_map.mp hmem
  obtain ⟨id, ctx, addr⟩ := c
  cases heq
  refine connection_served_iff 0 _ l hl ⟨1, 2, 2⟩ hc fun nread base hread => ?_
  simp at hread
  omega

/-- A connection from which nothing was read: it is closed. -/
theorem not_connection_served :
    ¬ ∀ (handle : ℕ) (es : List SvrInput) (l : SvrReads),
        run SvrReads.step (.new handle) es = some l → ∀ c ∈ l.svr.accepted,
          (∀ nread base, .read c.addr nread base ∈ es → 0 ≤ nread) → l.Serves c := by
  intro hall
  have heval : (run SvrReads.step (.new 0) [.newConnected 0 0 1, .read 1 0 []]).map (fun l =>
      (l.svr.accepted.map fun c => (c.addr, (l.svr.world.heap c.addr).state))) =
        some [(1, .closing (some ()))] := by
    decide +kernel
  obtain ⟨l, hl, hb⟩ := Option.map_eq_some_iff.mp heval
  have hmem : (1, HandleState.closing (some ())) ∈
      l.svr.accepted.map fun c => (c.addr, (l.svr.world.heap c.addr).state) := by
    rw [hb]
    simp
  obtain ⟨c, hc, heq⟩ := List.mem_map.mp hmem
  have hserves := hall 0 _ l hl c hc fun nread base hread => by
    simp at hread
    omega
  have hstate : (l.svr.world.heap c.addr).state = .closing (some ()) := congrArg Prod.snd heq
  rw [hserves.opened] at hstate
  cases hstate

end MyUvpp
