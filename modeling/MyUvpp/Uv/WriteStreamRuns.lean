import MyUvpp.Foundation.Reaching
import MyUvpp.Foundation.WriteQueue
import MyUvpp.Uv.WriteStreamSteps

/-! # What a stream writes

Over every run, whatever the kernel takes and whatever is called from the callbacks: no assertion fails, the
callbacks of the requests are called in the order of the calls of `uv_write`, once each, a request with
status 0 has been written, and the bytes of the requests follow each other. The loop can always go on until
every callback has been called. Where nothing fails the stream is a `WriteQueue`. -/

namespace MyUvpp

namespace UvStream

variable {s s' : UvStream} {iovmax : ℕ} {memory : ℕ → UInt8} {es : List UvStreamEvent}

/-- A stream is connected, and two buffers are written to it, of which the kernel takes four bytes first. -/
def helloEvents : List UvStreamEvent :=
  [.connect false, .io false .again 0, .connected, .write 1 [⟨0, 2⟩, ⟨2, 3⟩] true (.wrote 4)]

/-- **No assertion fails.** Behind every run, every step that is allowed succeeds, and `write_queue_size` is
the number of the bytes that are left of the requests whose callbacks have not been called. -/
theorem stream_asserts_hold (hrun : run (step iovmax) (initial memory) es = some s) :
    (∀ e, s.Allowed iovmax e → (s.step iovmax e).isSome = true) ∧
      s.writeQueueSize = ((s.writeCompletedQueue ++ s.writeQueue).map UvWrite.left).sum := by
  obtain ⟨hinv, hwakes⟩ := inv_of_run hrun
  refine ⟨fun e hallowed => ?_, hinv.size⟩
  obtain ⟨s', hs', -⟩ := exists_next hinv hwakes hallowed
  rw [step, if_pos hallowed, hs']
  rfl

/-- Two writes on a connected stream: no assertion fails and the size is what is left to write. -/
theorem stream_asserts_hold_hello : ∃ s, run (step 1024) (initial fun a => .ofNat a) helloEvents = some s ∧
    (∀ e, s.Allowed 1024 e → (s.step 1024 e).isSome = true) ∧
      s.writeQueueSize = ((s.writeCompletedQueue ++ s.writeQueue).map UvWrite.left).sum :=
  exists_last (by decide +kernel) fun _ hs => stream_asserts_hold hs

/-- **Writes are in order.** Behind every run, the requests whose callbacks have been called, those that are
completed, and those that wait, are those that `uv_write` has accepted, in this order. What the kernel has
taken are bytes of these requests, in their order: all bytes of a request with status 0, and none of a
request behind the first that waits. Once the stream is destroyed all callbacks have been called. -/
theorem writes_in_order (hrun : run (step iovmax) (initial memory) es = some s) :
    s.requests.map UvWrite.about = s.accepted ∧ s.sent = s.requests.flatMap UvWrite.taken ∧
      (∀ req ∈ s.called, req.error = 0 → req.taken = req.data) ∧
      (∀ req ∈ s.writeQueue.tail, req.taken = []) ∧
      (s.closed = true → s.phase = .idle → s.called.map UvWrite.about = s.accepted) := by
  obtain ⟨hinv, hwakes⟩ := inv_of_run hrun
  refine ⟨hinv.accepted, hinv.sent, fun req hreq herror => ?_, fun req hreq => ?_, fun hclosed hidle => ?_⟩
  · rw [UvWrite.taken, (hinv.completed req (List.mem_append_left _ hreq)).written herror]
    exact List.take_length
  · rw [UvWrite.taken, hinv.unbegun req hreq]
    exact List.take_zero
  · obtain ⟨-, hqueue, hcompleted⟩ := hwakes.closed hclosed
    have hcompleted' := hcompleted.resolve_left fun hfalse => absurd (hidle.symm.trans hfalse) (by decide)
    have haccepted := hinv.accepted
    rwa [requests, hqueue, hcompleted', List.append_nil, List.append_nil] at haccepted

/-- In the same run the bytes sent are those of the writes, in order. -/
theorem writes_in_order_hello : ∃ s, run (step 1024) (initial fun a => .ofNat a) helloEvents = some s ∧
    s.sent = [0, 1, 2, 3] ∧
    s.requests.map UvWrite.about = s.accepted ∧ s.sent = s.requests.flatMap UvWrite.taken ∧
      (∀ req ∈ s.called, req.error = 0 → req.taken = req.data) ∧
      (∀ req ∈ s.writeQueue.tail, req.taken = []) ∧
      (s.closed = true → s.phase = .idle → s.called.map UvWrite.about = s.accepted) :=
  exists_last_of_map (fun s => s.sent) (by decide +kernel) fun _ hs hsent => ⟨hsent, writes_in_order hs⟩

/-- **The loop comes back.** Behind every run, if a request waits on a stream that is open and connected, the
socket is watched or the watcher is pending, also in the callback of a connection that has been made; in that of
one that has failed the requests are about to be canceled. And outside of the callbacks the watcher is pending if
the callback of a request has not been called. -/
theorem stream_wakes (hrun : run (step iovmax) (initial memory) es = some s) (hopen : s.fdOpen = true) :
    (s.connectReq = true → s.pollout = true) ∧
      (s.connectReq = false → (∀ error, s.phase = .connectCb error → 0 ≤ error) → s.writeQueue ≠ [] →
        s.pollout = true ∨ s.fed = true) ∧
      (s.phase.inCallbacks = false → s.writeCompletedQueue ≠ [] → s.fed = true) := by
  obtain ⟨-, hwakes⟩ := inv_of_run hrun
  exact ⟨fun hconnect => (hwakes.connecting hconnect).2.2 hopen, hwakes.waiting hopen, hwakes.completed hopen⟩

/-- The stream on which "hello" is written. -/
theorem stream_wakes_hello : ∃ s, run (step 1024) (initial fun a => .ofNat a) helloEvents = some s ∧
    (s.connectReq = true → s.pollout = true) ∧
      (s.connectReq = false → (∀ error, s.phase = .connectCb error → 0 ≤ error) → s.writeQueue ≠ [] →
        s.pollout = true ∨ s.fed = true) ∧
      (s.phase.inCallbacks = false → s.writeCompletedQueue ≠ [] → s.fed = true) :=
  exists_last_of_map (fun s => s.fdOpen) (b := true) (by decide +kernel) fun _ hs hopen =>
    stream_wakes hs hopen

/-! ### The queue -/

/-- The requests that wait, with what has been written of them. -/
def toWriteQueue (s : UvStream) : WriteQueue (ℕ × List UInt8) :=
  ⟨s.writeQueue.map fun req => (req.about, req.written)⟩

/-- Nothing is refused, and the stream is not closed. -/
def Smooth : UvStreamEvent → Prop
  | .write _ _ _ r => ∀ errno, r ≠ .failed errno
  | .io _ r error => (∀ errno, r ≠ .failed errno) ∧ 0 ≤ error
  | .close => False
  | _ => True

/-- A stream of which nothing has failed is a queue of its requests. -/
structure Queued (s : UvStream) : Prop where
  runs : WriteQueue.Runs Prod.snd WriteQueue.empty s.accepted s.sent s.toWriteQueue
  status : ∀ req ∈ s.called ++ s.writeCompletedQueue, req.error = 0
  closing : s.closing = false
  connectCb : ∀ error, s.phase = .connectCb error → 0 ≤ error

/-- A stream just initialised is an empty queue. -/
theorem queued_initial (memory : ℕ → UInt8) : (initial memory).Queued where
  runs := .refl
  status _ h := absurd h List.not_mem_nil
  closing := rfl
  connectCb _ h := by cases h

/-- Out of the connect callback nothing is known of its error. -/
theorem connectCb_of_not (hphase : s.phase.inConnectCb = false) :
    ∀ error, s.phase = .connectCb error → 0 ≤ error := by
  intro error herror
  rw [herror] at hphase
  cases hphase

/-- A new request keeps the queue. -/
theorem Queued.push (h : s.Queued) (addr : ℕ) (bufs : List WriteBuf) : (s.push addr bufs).Queued where
  runs := by
    have hqueue : (s.push addr bufs).toWriteQueue =
        s.toWriteQueue.push [(addr, (s.newWrite addr bufs).data)] :=
      congrArg WriteQueue.mk List.map_append
    rw [hqueue]
    exact .push _ h.runs
  status := h.status
  closing := h.closing
  connectCb := h.connectCb

/-- `uv__write` is a write of the queue. -/
theorem Queued.writes (h : s.Queued) {req : UvWrite} {queue : List UvWrite} {r : WriteResult}
    (hqueue : s.writeQueue = req :: queue) (hwaiting : req.Waiting s.memory)
    (hwrites : Writes s req queue r s') (hr : ∀ errno, r ≠ .failed errno) : s'.Queued := by
  have htop : s.toWriteQueue = ⟨(req.about, req.written) :: queue.map fun req => (req.about, req.written)⟩ := by
    rw [toWriteQueue, hqueue, List.map_cons]
  cases hwrites with
  | failed errno => exact absurd rfl (hr errno)
  | again => exact ⟨h.runs, h.status, h.closing, h.connectCb⟩
  | part n bufs left _ _ hlt =>
    have hwrite := WriteQueue.Runs.write n h.runs
    have hlt' : req.written + n < req.about.2.length := hlt
    rw [htop, WriteQueue.write] at hwrite
    dsimp only at hwrite
    rw [if_pos hlt'] at hwrite
    exact ⟨hwrite, h.status, h.closing, h.connectCb⟩
  | all n heq =>
    have hwrite := WriteQueue.Runs.write n h.runs
    have hge : ¬ req.written + n < req.about.2.length := not_lt.mpr heq.ge
    rw [htop, WriteQueue.write] at hwrite
    dsimp only at hwrite
    rw [if_neg hge] at hwrite
    refine ⟨hwrite, fun done hdone => ?_, h.closing, h.connectCb⟩
    dsimp only at hdone
    rw [← List.append_assoc] at hdone
    rcases List.mem_append.mp hdone with hdone | hdone
    · exact h.status done hdone
    · rw [List.mem_singleton.mp hdone]
      exact hwaiting.error

/-- A call of `uv_write` puts its request into the queue, or has no effect. -/
theorem Queued.accepts (h : s.Queued) (hinv : s.Inv) {addr : ℕ} {bufs : List WriteBuf} {r : WriteResult}
    {code : ℤ} (hne : bufs ≠ []) (hlt : s.writeQueueSize + totalLen bufs < 2 ^ 64)
    (hr : ∀ errno, r ≠ .failed errno) (haccepts : Accepts s addr bufs r code s') : s'.Queued := by
  have hpush := h.push addr bufs
  cases haccepts with
  | error code hcode => exact h
  | queued pollout => exact ⟨hpush.runs, hpush.status, hpush.closing, hpush.connectCb⟩
  | tried req queue _ hqueue hwrites =>
    have hwaiting := (hinv.push addr hne hlt).waiting req (hqueue ▸ List.mem_cons_self)
    exact hpush.writes hqueue hwaiting hwrites hr

/-- An event of the socket writes from the queue, or makes the connection. -/
theorem Queued.polls (h : s.Queued) (hinv : s.Inv) {fed : Bool} {r : WriteResult} {error : ℤ}
    (hr : ∀ errno, r ≠ .failed errno) (herror : 0 ≤ error) (hpolls : Polls { s with fed } r error s') :
    s'.Queued := by
  have hfed : ({ s with fed } : UvStream).Queued := ⟨h.runs, h.status, h.closing, h.connectCb⟩
  cases hpolls with
  | connect hconnect =>
    rw [uvStreamConnect]
    split_ifs
    · exact hfed
    · exact ⟨h.runs, h.status, h.closing, fun e he => by cases he; exact herror⟩
  | nothing hqueue => exact ⟨h.runs, h.status, h.closing, connectCb_of_not rfl⟩
  | write req queue s₂ hqueue hwrites =>
    have hwaiting := hinv.waiting req (hqueue ▸ List.mem_cons_self)
    have hqueued := hfed.writes hqueue hwaiting hwrites hr
    exact ⟨hqueued.runs, hqueued.status, hqueued.closing, connectCb_of_not rfl⟩

/-- Behind the callback of a connection that has been made the requests wait as before. -/
theorem Queued.connected (h : s.Queued) {error : ℤ} (hphase : s.phase = .connectCb error) :
    (s.uvStreamConnected error).Queued := by
  rw [uvStreamConnected, if_neg (not_lt.mpr (h.connectCb error hphase)), ite_self]
  exact ⟨h.runs, h.status, h.closing, connectCb_of_not rfl⟩

/-- The request whose callback is called is one that has been written. -/
theorem Queued.callback (h : s.Queued) {req : UvWrite} {queue : List UvWrite}
    (hqueue : s.writeCompletedQueue = req :: queue) :
    ({ s with
      writeCompletedQueue := queue
      writeQueueSize := s.writeQueueSize - req.left
      called := s.called ++ [{ req with bufs := none }] } : UvStream).Queued := by
  refine ⟨h.runs, fun done hdone => ?_, h.closing, h.connectCb⟩
  dsimp only at hdone
  rw [List.append_assoc, List.singleton_append] at hdone
  have hold : ∀ done ∈ s.called ++ req :: queue, done.error = 0 := by
    rw [← hqueue]
    exact h.status
  rcases List.mem_append.mp hdone with hdone | hdone
  · exact hold done (List.mem_append_left _ hdone)
  · rcases List.mem_cons.mp hdone with rfl | hdone
    · exact hold req (List.mem_append_right _ List.mem_cons_self)
    · exact hold done (List.mem_append_right _ (List.mem_cons_of_mem req hdone))

/-- **A step keeps the stream a queue** when nothing fails in it. -/
theorem Queued.step (h : s.Queued) (hinv : s.Inv) (hw : s.Wakes) {e : UvStreamEvent} (hsmooth : Smooth e)
    (hstep : s.step iovmax e = some s') : s'.Queued := by
  have hallowed := allowed_of_step hstep
  rw [UvStream.step, if_pos hallowed] at hstep
  cases e with
  | memory | socket | connect =>
    cases hstep
    exact ⟨h.runs, h.status, h.closing, h.connectCb⟩
  | write addr bufs allocated r =>
    obtain ⟨hne, hlt, -, hr⟩ := hallowed
    obtain ⟨code, s₁, hs₁, -, -, haccepts⟩ := hinv.uvWrite2 hw hne hlt hr allocated
    rw [next, hs₁] at hstep
    cases hstep
    exact h.accepts hinv hne hlt hsmooth haccepts
  | close => exact absurd hsmooth id
  | io pending r error =>
    obtain ⟨hopen, -, -, hr⟩ := hallowed
    obtain ⟨s₁, hs₁, -, -, hpolls⟩ := hinv.uvStreamIo hw hopen hr (s.fed && !pending) error
    rw [next, hs₁] at hstep
    cases hstep
    exact h.polls hinv hsmooth.1 hsmooth.2 hpolls
  | connected =>
    have hphase : s.phase.inConnectCb = true := hallowed
    rw [next] at hstep
    cases hp : s.phase with
    | connectCb error =>
      rw [hp] at hstep
      cases hstep
      exact h.connected hp
    | idle | io | connect | destroy =>
      rw [hp] at hphase
      cases hphase
  | callback =>
    obtain ⟨hphase, hne⟩ := hallowed
    obtain ⟨req, queue, hqueue⟩ := List.exists_cons_of_ne_nil hne
    obtain ⟨s₁, hs₁, -, -, rfl⟩ := hinv.uvWriteCallback hw hqueue hphase
    rw [next, hs₁] at hstep
    cases hstep
    exact h.callback hqueue
  | callbacksEnd =>
    obtain ⟨hphase, hqueue⟩ := hallowed
    obtain ⟨s₁, hs₁, -, -, pollout, rfl⟩ := hinv.callbacksEnd hw hphase hqueue
    rw [next, hs₁] at hstep
    cases hstep
    exact ⟨h.runs, h.status, h.closing, connectCb_of_not rfl⟩
  | destroy => exact absurd (hallowed.1.symm.trans h.closing) Bool.true_eq_false.mp

/-- **A stream is a write queue.** Behind every run in which the kernel refuses nothing, the connection is
made and the stream is not closed, the stream is a queue into which the accepted requests were put, and from
which was written what the kernel has taken: what it has taken and what is left are the data of the accepted
requests, in their order. Every status is 0. -/
theorem stream_is_queue (hsmooth : ∀ e ∈ es, Smooth e)
    (hrun : run (step iovmax) (initial memory) es = some s) :
    WriteQueue.Runs Prod.snd WriteQueue.empty s.accepted s.sent s.toWriteQueue ∧
      s.sent ++ s.toWriteQueue.rest Prod.snd = s.accepted.flatMap Prod.snd ∧
      ∀ req ∈ s.called, req.error = 0 := by
  have hqueued : s.Inv ∧ s.Wakes ∧ s.Queued := by
    refine run_invariant_along (P := fun _ e => Smooth e) (I := fun s => s.Inv ∧ s.Wakes ∧ s.Queued)
      (fun s e s' h he hstep => ?_) ⟨inv_initial memory, wakes_initial memory, queued_initial memory⟩
      (Along.of_forall hsmooth) hrun
    obtain ⟨hinv, hw, hq⟩ := h
    have hallowed := allowed_of_step hstep
    have hq' := hq.step hinv hw he hstep
    obtain ⟨s₁, hs₁, hinv', hw'⟩ := exists_next hinv hw hallowed
    rw [UvStream.step, if_pos hallowed] at hstep
    obtain rfl := Option.some_injective _ (hstep.symm.trans hs₁)
    exact ⟨hinv', hw', hq'⟩
  obtain ⟨-, -, hq⟩ := hqueued
  refine ⟨hq.runs, ?_, fun req hreq => hq.status req (List.mem_append_left _ hreq)⟩
  rw [hq.runs.append_rest, WriteQueue.rest_empty, List.nil_append]

/-- The same run as a run of the abstract queue. -/
theorem stream_is_queue_hello : ∃ s, run (step 1024) (initial fun a => .ofNat a) helloEvents = some s ∧
    WriteQueue.Runs Prod.snd WriteQueue.empty s.accepted s.sent s.toWriteQueue ∧
      s.sent ++ s.toWriteQueue.rest Prod.snd = s.accepted.flatMap Prod.snd ∧
      ∀ req ∈ s.called, req.error = 0 := by
  have hsmooth : ∀ e ∈ helloEvents, Smooth e := by
    intro e he
    simp only [helloEvents, List.mem_cons, List.not_mem_nil, or_false] at he
    rcases he with rfl | rfl | rfl | rfl
    · trivial
    · exact ⟨nofun, le_rfl⟩
    · trivial
    · exact nofun
  exact exists_last (by decide +kernel) fun _ hs => stream_is_queue hsmooth hs

end UvStream

end MyUvpp
