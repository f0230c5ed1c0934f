import MyUvpp.Foundation.Reaching
import MyUvpp.Uv.WriteStreamSteps

/-! # Every request of a stream can be finished

The loop comes to a stream only where its watcher tells it to. Still, from every state it can go on, with
nobody calling anything, until the callbacks of all requests have been called: nothing waits for a watcher
that has been forgotten. -/

namespace MyUvpp

namespace UvStream

variable {s s' : UvStream} {iovmax : ℕ}

/-! ### The buffers that are left -/

/-- A partial write leaves no more buffers than there were. -/
theorem length_writeLoop_le {bufs left : List WriteBuf} {n size size' : ℕ}
    (h : writeLoop bufs n size = some (left, size')) : left.length ≤ bufs.length := by
  induction bufs generalizing n size with
  | nil => cases h
  | cons buf bufs ih =>
    rw [writeLoop] at h
    split_ifs at h
    · cases h
      exact le_rfl
    · cases h
      exact Nat.zero_le _
    · exact (ih h).trans (Nat.le_succ _)

/-- If the kernel takes all it is given, a buffer is finished. -/
theorem length_writeLoop_lt {bufs left : List WriteBuf} {k size size' : ℕ} (hk : 1 ≤ k)
    (h : writeLoop bufs (totalLen (bufs.take k)) size = some (left, size')) :
    left.length < bufs.length := by
  obtain ⟨k, rfl⟩ := Nat.exists_eq_add_of_le' hk
  cases bufs with
  | nil => cases h
  | cons buf bufs =>
    rw [List.take_succ_cons, totalLen_cons, writeLoop] at h
    split_ifs at h with hpart
    · exact absurd hpart (by omega)
    · cases h
      exact Nat.succ_pos _
    · exact Nat.lt_succ_of_le (length_writeLoop_le h)

/-! ### The work of the loop -/

/-- What the loop does of its own accord: it calls `uv__stream_io` for a pending watcher or for a socket that
is watched, and it goes on where it is. -/
def LoopEvent (s : UvStream) : UvStreamEvent → Prop
  | .io pending _ _ => pending = true ∨ s.pollout = true
  | .connected | .callback | .callbacksEnd | .destroy => True
  | _ => False

/-- The number of the buffers of a request that are not finished. -/
def pieces (req : UvWrite) : ℕ := req.bufs.elim 0 List.length

/-- The loop events that the phase itself still asks for. -/
def phaseWork : StreamPhase → ℕ
  | .idle => 0
  | .io | .connect | .destroy => 1
  | .connectCb _ => 2

/-- What is left to do for the requests. -/
def work (s : UvStream) : ℕ :=
  (s.writeQueue.map fun req => 4 * (pieces req + 1)).sum + 2 * s.writeCompletedQueue.length +
    phaseWork s.phase + (if s.connectReq then 3 else 0) + if s.closed then 0 else 2

/-- All callbacks have been called. -/
def Finished (s : UvStream) : Prop := s.writeQueue = [] ∧ s.writeCompletedQueue = []

/-- What holds of every state of a run, and the requests that have been accepted. -/
structure Runs (accepted : List (ℕ × List UInt8)) (s : UvStream) : Prop where
  inv : s.Inv
  wakes : s.Wakes
  accepted : s.accepted = accepted

variable {accepted : List (ℕ × List UInt8)}

/-- A flushed queue is completed. -/
theorem length_le_sum_pieces (queue : List UvWrite) :
    2 * queue.length + 2 * queue.length ≤ (queue.map fun req => 4 * (pieces req + 1)).sum := by
  induction queue with
  | nil => exact le_rfl
  | cons req queue ih =>
    rw [List.length_cons, List.map_cons, List.sum_cons]
    omega

/-- `uv__write` is progress if the kernel takes what it is given. -/
theorem Writes.work_lt {req : UvWrite} {queue : List UvWrite} {n : ℕ} {bufs : List WriteBuf}
    (h : Writes s req queue (.wrote n) s') (hqueue : s.writeQueue = req :: queue)
    (hbufs : req.bufs = some bufs) (hn : n = totalLen (bufs.take iovmax)) (hpos : 1 ≤ iovmax)
    (hidle : s.phase = .idle) :
    ({ s' with phase := .io } : UvStream).work < s.work ∧ s'.accepted = s.accepted := by
  cases h with
  | part _ bufs' left hbufs' hloop hlt =>
    obtain rfl := Option.some_injective _ (hbufs.symm.trans hbufs')
    rw [hn] at hloop
    have hlength := length_writeLoop_lt hpos hloop
    refine ⟨?_, rfl⟩
    rw [work, work, hqueue, hidle]
    simp only [List.map_cons, List.sum_cons, pieces, hbufs, Option.elim_some, phaseWork]
    omega
  | all _ heq =>
    refine ⟨?_, rfl⟩
    rw [work, work, hqueue, hidle]
    simp only [List.map_cons, List.sum_cons, pieces, List.length_append, List.length_singleton, phaseWork]
    omega

/-- One step of the loop. -/
theorem Runs.step (h : s.Runs accepted) {e : UvStreamEvent} (hallowed : s.Allowed iovmax e)
    (hnext : s.next iovmax e = some s') (haccepted : s'.accepted = s.accepted) :
    s.step iovmax e = some s' ∧ s'.Runs accepted := by
  obtain ⟨s₁, hs₁, hinv, hwakes⟩ := exists_next h.inv h.wakes hallowed
  obtain rfl := Option.some_injective _ (hnext.symm.trans hs₁)
  rw [UvStream.step, if_pos hallowed]
  exact ⟨hnext, hinv, hwakes, haccepted.trans h.accepted⟩

/-- One loop event that lessens the work is a run to a smaller one. -/
theorem Runs.single (h : s.Runs accepted) {e : UvStreamEvent} (he : s.LoopEvent e)
    (hallowed : s.Allowed iovmax e) (hnext : s.next iovmax e = some s') (haccepted : s'.accepted = s.accepted)
    (hlt : s'.work < s.work) :
    ∃ es s', Along (UvStream.step iovmax) LoopEvent s es ∧ run (UvStream.step iovmax) s es = some s' ∧
      s'.Runs accepted ∧ s'.work < s.work := by
  obtain ⟨hstep, hruns⟩ := h.step hallowed hnext haccepted
  refine ⟨[e], s', ⟨he, ?_⟩, run_cons_eq_some.mpr ⟨s', hstep, rfl⟩, hruns, hlt⟩
  rw [hstep]
  trivial

/-- The loop is in some function. -/
theorem Runs.exists_progress_busy (h : s.Runs accepted) (hbusy : s.phase ≠ .idle) :
    ∃ es s', Along (UvStream.step iovmax) LoopEvent s es ∧ run (UvStream.step iovmax) s es = some s' ∧
      s'.Runs accepted ∧ s'.work < s.work := by
  by_cases hphase : s.phase.inCallbacks = true
  · by_cases hqueue : s.writeCompletedQueue = []
    · -- the callbacks are over
      obtain ⟨s', hs', -, -, pollout, rfl⟩ := h.inv.callbacksEnd h.wakes hphase hqueue
      have hwork : phaseWork .idle < phaseWork s.phase := by
        cases hp : s.phase with
        | idle => exact absurd hp hbusy
        | connectCb => exact Nat.zero_lt_two
        | io | connect | destroy => exact Nat.zero_lt_one
      refine h.single (e := .callbacksEnd) trivial ⟨hphase, hqueue⟩ hs' rfl ?_
      simp only [work]
      omega
    · obtain ⟨req, queue, hreq⟩ := List.exists_cons_of_ne_nil hqueue
      obtain ⟨s', hs', -, -, rfl⟩ := h.inv.uvWriteCallback h.wakes hreq hphase
      refine h.single (e := .callback) trivial ⟨hphase, hqueue⟩ hs' rfl ?_
      simp only [work, hreq, List.length_cons]
      omega
  · obtain ⟨error, herror⟩ : ∃ error, s.phase = .connectCb error := by
      cases hp : s.phase with
      | idle => exact absurd hp hbusy
      | connectCb error => exact ⟨error, rfl⟩
      | io | connect | destroy =>
        rw [hp] at hphase
        exact absurd rfl hphase
    have hallowed : s.Allowed iovmax .connected := by
      show s.phase.inConnectCb = true
      rw [herror]
      rfl
    have hnext : s.next iovmax .connected = some (s.uvStreamConnected error) := by
      rw [next, herror]
    refine h.single (e := .connected) trivial hallowed hnext ?_ ?_
    · rw [uvStreamConnected]
      split_ifs <;> rfl
    · have hflush := length_le_sum_pieces s.writeQueue
      rw [uvStreamConnected]
      split_ifs
      · simp only [work, herror, phaseWork]
        omega
      · simp only [work, herror, phaseWork, uvStreamFlushWriteQueue, List.map_nil, List.sum_nil,
          List.length_append, List.length_map]
        omega
      · simp only [work, herror, phaseWork]
        omega

/-- The connection is made. -/
theorem Runs.exists_progress_connect (h : s.Runs accepted) (hidle : s.phase = .idle)
    (hopen : s.fdOpen = true) (hconnect : s.connectReq = true) :
    ∃ es s', Along (UvStream.step iovmax) LoopEvent s es ∧ run (UvStream.step iovmax) s es = some s' ∧
      s'.Runs accepted ∧ s'.work < s.work := by
  have hclosing : ¬ s.closing = true := by
    rw [(h.wakes.of_open hopen).1]
    exact Bool.false_ne_true
  obtain ⟨-, -, hpollout⟩ := h.wakes.connecting hconnect
  have hallowed : s.Allowed iovmax (.io false .again 0) :=
    ⟨hopen, hidle, fun hfalse => absurd hfalse Bool.false_ne_true, trivial⟩
  have hnext : s.next iovmax (.io false .again 0) =
      some (UvStream.uvStreamConnect { s with fed := s.fed && !false } 0) := by
    rw [next, uvStreamIo, if_neg hclosing, if_pos hconnect]
  refine h.single (e := .io false .again 0) (.inr (hpollout hopen)) hallowed hnext ?_ ?_
  · rw [uvStreamConnect]
    split_ifs <;> rfl
  · rw [uvStreamConnect, if_neg (show (0 : ℤ) ≠ -einprogress by decide)]
    simp only [work, hidle, phaseWork, hconnect, if_true]
    simp only [Bool.false_eq_true, if_false]
    omega

/-- Callbacks wait to be called: the watcher is pending, and the first of them is called. -/
theorem Runs.exists_progress_callback (h : s.Runs accepted) (hidle : s.phase = .idle)
    (hopen : s.fdOpen = true) (hconnect : s.connectReq = false) (hqueue : s.writeQueue = [])
    (hcompleted : s.writeCompletedQueue ≠ []) :
    ∃ es s', Along (UvStream.step iovmax) LoopEvent s es ∧ run (UvStream.step iovmax) s es = some s' ∧
      s'.Runs accepted ∧ s'.work < s.work := by
  have hfed := h.wakes.completed hopen (by rw [hidle]; rfl) hcompleted
  have hallowed : s.Allowed iovmax (.io true .again 0) := ⟨hopen, hidle, fun _ => hfed, trivial⟩
  have hnext : s.next iovmax (.io true .again 0) = some { s with fed := s.fed && !true, phase := .io } := by
    rw [next, uvStreamIo, if_neg (by rw [(h.wakes.of_open hopen).1]; exact Bool.false_ne_true),
      if_neg (by rw [hconnect]; exact Bool.false_ne_true), uvWrite, if_pos hopen]
    simp only [hqueue, Option.map_some]
  obtain ⟨hstep, hruns⟩ := h.step hallowed hnext rfl
  obtain ⟨req, queue, hreq⟩ := List.exists_cons_of_ne_nil hcompleted
  obtain ⟨s₂, hs₂, -, -, heq⟩ := hruns.inv.uvWriteCallback hruns.wakes hreq rfl
  have hallowed₂ : UvStream.Allowed iovmax { s with fed := s.fed && !true, phase := .io } .callback :=
    ⟨rfl, hcompleted⟩
  obtain ⟨hstep₂, hruns₂⟩ := hruns.step hallowed₂ hs₂ (by rw [heq])
  refine ⟨[.io true .again 0, .callback], s₂, ⟨.inl rfl, ?_⟩, ?_, hruns₂, ?_⟩
  · rw [hstep]
    refine ⟨trivial, ?_⟩
    rw [hstep₂]
    trivial
  · exact run_cons_eq_some.mpr ⟨_, hstep, run_cons_eq_some.mpr ⟨s₂, hstep₂, rfl⟩⟩
  · rw [heq]
    simp only [work, hreq, hidle, phaseWork, List.length_cons]
    omega

/-- A request waits for the kernel, which takes all it is given. -/
theorem Runs.exists_progress_write (h : s.Runs accepted) (hpos : 1 ≤ iovmax) (hidle : s.phase = .idle)
    (hopen : s.fdOpen = true) (hconnect : s.connectReq = false) (hqueue : s.writeQueue ≠ []) :
    ∃ es s', Along (UvStream.step iovmax) LoopEvent s es ∧ run (UvStream.step iovmax) s es = some s' ∧
      s'.Runs accepted ∧ s'.work < s.work := by
  obtain ⟨req, queue, hreq⟩ := List.exists_cons_of_ne_nil hqueue
  obtain ⟨bufs, hbufs, -, -⟩ := (h.inv.waiting req (hreq ▸ List.mem_cons_self)).bufs
  have hr : Possible iovmax s.writeQueue.head? (.wrote (totalLen (bufs.take iovmax))) := by
    rw [hreq]
    intro bufs' hbufs'
    obtain rfl := Option.some_injective _ (hbufs.symm.trans hbufs')
    exact le_rfl
  have hwake := h.wakes.waiting hopen hconnect (fun e he => by rw [hidle] at he; cases he) hqueue
  obtain ⟨s', hs', -, -, hpolls⟩ := h.inv.uvStreamIo h.wakes hopen hr (s.fed && !s.fed) 0
  have hprogress : s'.accepted = s.accepted ∧ s'.work < s.work := by
    cases hpolls with
    | connect htrue => exact absurd (hconnect.symm.trans htrue) nofun
    | nothing hnil => exact absurd hnil hqueue
    | write req' queue' s₁ hreq' hwrites =>
      obtain ⟨rfl, rfl⟩ := List.cons_eq_cons.mp (hreq.symm.trans hreq')
      obtain ⟨hlt, haccepted⟩ := hwrites.work_lt hreq hbufs rfl hpos hidle
      exact ⟨haccepted, hlt⟩
  exact h.single (e := .io s.fed (.wrote (totalLen (bufs.take iovmax))) 0) hwake.symm
    ⟨hopen, hidle, id, hr⟩ hs' hprogress.1 hprogress.2

/-- The loop polls, and the stream is open. -/
theorem Runs.exists_progress_open (h : s.Runs accepted) (hpos : 1 ≤ iovmax) (hidle : s.phase = .idle)
    (hopen : s.fdOpen = true) (hnot : ¬ s.Finished) :
    ∃ es s', Along (UvStream.step iovmax) LoopEvent s es ∧ run (UvStream.step iovmax) s es = some s' ∧
      s'.Runs accepted ∧ s'.work < s.work := by
  cases hconnect : s.connectReq with
  | true => exact h.exists_progress_connect hidle hopen hconnect
  | false =>
    by_cases hqueue : s.writeQueue = []
    · have hcompleted : s.writeCompletedQueue ≠ [] := fun hnil => hnot ⟨hqueue, hnil⟩
      exact h.exists_progress_callback hidle hopen hconnect hqueue hcompleted
    · exact h.exists_progress_write hpos hidle hopen hconnect hqueue

/-- **Progress**: while callbacks are to be called, the loop has something to do. -/
theorem Runs.exists_progress (h : s.Runs accepted) (hpos : 1 ≤ iovmax) (hnot : ¬ s.Finished) :
    ∃ es s', Along (UvStream.step iovmax) LoopEvent s es ∧ run (UvStream.step iovmax) s es = some s' ∧
      s'.Runs accepted ∧ s'.work < s.work := by
  by_cases hidle : s.phase = .idle
  · by_cases hopen : s.fdOpen = true
    · exact h.exists_progress_open hpos hidle hopen hnot
    · have hclose := Bool.eq_false_of_not_eq_true hopen
      have hclosing : s.closing = true := by
        refine Bool.eq_true_of_not_eq_false fun hfalse => hnot ?_
        exact (h.wakes.unopened hclose hfalse).2
      have hclosed : s.closed = false := by
        refine Bool.eq_false_of_not_eq_true fun htrue => hnot ?_
        obtain ⟨-, hqueue, hcompleted⟩ := h.wakes.closed htrue
        exact ⟨hqueue, hcompleted.resolve_left fun hd => absurd (hidle.symm.trans hd) (by decide)⟩
      have hpollout := (h.wakes.quiet hclose).1
      have hnext : s.next iovmax .destroy = some
          { UvStream.uvStreamFlushWriteQueue { s with closed := true, connectReq := false } (-ecanceled) with
            phase := .destroy } := by
        rw [next, uvStreamDestroy, if_neg (by rw [hpollout]; exact Bool.false_ne_true)]
      have hflush := length_le_sum_pieces s.writeQueue
      refine h.single (e := .destroy) trivial ⟨hclosing, hclosed, hidle⟩ hnext rfl ?_
      simp only [work, hidle, hclosed, phaseWork, uvStreamFlushWriteQueue, List.map_nil, List.sum_nil,
        List.length_append, List.length_map, if_true]
      simp only [Bool.false_eq_true, if_false]
      omega
  · exact h.exists_progress_busy hidle

/-- **Every request can be finished.** From every state that a run leads to, the loop alone, coming to the
stream only where it is told to, can go on to a state in which the callbacks of all the requests that have
been accepted have been called, in the order of the calls of `uv_write`. -/
theorem stream_finishes {memory : ℕ → UInt8} {es : List UvStreamEvent} (hpos : 1 ≤ iovmax)
    (hrun : run (UvStream.step iovmax) (initial memory) es = some s) :
    ∃ es' s', Along (UvStream.step iovmax) LoopEvent s es' ∧ run (UvStream.step iovmax) s es' = some s' ∧
      s'.accepted = s.accepted ∧ s'.called.map UvWrite.about = s.accepted := by
  obtain ⟨hinv, hwakes⟩ := inv_of_run hrun
  have hreach : CanReach (UvStream.step iovmax) LoopEvent (Runs s.accepted)
      fun s' => s'.Runs s.accepted ∧ s'.Finished :=
    .of_decreasing work fun s' h hnot => h.exists_progress hpos hnot
  obtain ⟨es', s', halong, hrun', hruns, hqueue, hcompleted⟩ := hreach s ⟨hinv, hwakes, rfl⟩
  refine ⟨es', s', halong, hrun', hruns.accepted, ?_⟩
  have haccepted := hruns.inv.accepted
  rwa [requests, hqueue, hcompleted, List.append_nil, List.append_nil, hruns.accepted] at haccepted

/-- Two writes before the connection are both called back by loop events. -/
theorem stream_finishes_two_writes :
    ∃ s, run (UvStream.step 1024) (initial fun a => .ofNat a)
        [.connect false, .write 1 [⟨0, 2⟩, ⟨2, 3⟩] true .again, .write 2 [⟨5, 1⟩] true .again] = some s ∧
      ∃ es' s', Along (UvStream.step 1024) LoopEvent s es' ∧ run (UvStream.step 1024) s es' = some s' ∧
        s'.accepted = s.accepted ∧ s'.called.map UvWrite.about = s.accepted :=
  exists_last (by decide +kernel) fun _ hs => stream_finishes (by decide) hs

end UvStream

end MyUvpp
