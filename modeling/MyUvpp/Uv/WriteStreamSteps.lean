import MyUvpp.Foundation.TransitionSystem
import MyUvpp.Uv.WriteStreamRequests

/-! # The steps of a stream

No assertion of the writing side of a stream fails, whatever is called, and from whichever callback. As
long as requests wait for the kernel or for their callbacks, the loop is told to come back to the stream:
its socket is watched, or its watcher is pending. -/

namespace MyUvpp

namespace UvStream

variable {s s' : UvStream} {iovmax : ℕ}

/-! ### `uv__write` -/

/-- What `uv__write` does to a stream whose first request is `req`. -/
inductive Writes (s : UvStream) (req : UvWrite) (queue : List UvWrite) : WriteResult → UvStream → Prop where
  | failed (errno : ℤ) : Writes s req queue (.failed errno) { s with
      writeQueue := queue
      writeCompletedQueue := s.writeCompletedQueue ++ [{ req with error := -errno }]
      fed := true
      pollout := false }
  | again : Writes s req queue .again { s with pollout := true }
  | part (n : ℕ) (bufs left : List WriteBuf) (hbufs : req.bufs = some bufs)
      (hloop : writeLoop bufs n s.writeQueueSize = some (left, s.writeQueueSize - n))
      (hlt : req.written + n < req.data.length) :
    Writes s req queue (.wrote n) { s with
      writeQueueSize := s.writeQueueSize - n
      sent := s.sent ++ (req.data.drop req.written).take n
      writeQueue := { req with bufs := some left, written := req.written + n } :: queue
      pollout := true }
  | all (n : ℕ) (heq : req.written + n = req.data.length) : Writes s req queue (.wrote n) { s with
      writeQueueSize := s.writeQueueSize - n
      sent := s.sent ++ (req.data.drop req.written).take n
      writeQueue := queue
      writeCompletedQueue := s.writeCompletedQueue ++
        [{ req with bufs := none, written := req.written + n }]
      fed := true }

/-- A waiting request that the kernel refuses. -/
theorem uvWrite_failed (hopen : s.fdOpen = true) {req : UvWrite} {queue : List UvWrite} {bufs : List WriteBuf}
    (hqueue : s.writeQueue = req :: queue) (hbufs : req.bufs = some bufs) {errno : ℤ} (herrno : -errno ≠ 0) :
    s.uvWrite iovmax (.failed errno) = some { s with
      writeQueue := queue
      writeCompletedQueue := s.writeCompletedQueue ++ [{ req with error := -errno }]
      fed := true
      pollout := false } := by
  simp only [uvWrite, hopen, if_true, hqueue, hbufs, Option.bind_some, uvWriteReqFinish, List.tail_cons,
    if_neg herrno]

/-- A waiting request of which the kernel takes `n` bytes, so that `left` is left of its buffers. -/
theorem uvWrite_wrote (iovmax : ℕ) (hopen : s.fdOpen = true) {req : UvWrite} {queue : List UvWrite}
    {bufs left : List WriteBuf} {n size : ℕ} (hqueue : s.writeQueue = req :: queue)
    (hbufs : req.bufs = some bufs) (herror : req.error = 0)
    (hloop : writeLoop bufs n s.writeQueueSize = some (left, size)) :
    s.uvWrite iovmax (.wrote n) = some (if left = [] then { s with
        writeQueueSize := size
        sent := s.sent ++ (bufsBytes s.memory (bufs.take iovmax)).take n
        writeQueue := queue
        writeCompletedQueue := s.writeCompletedQueue ++
          [{ req with bufs := none, written := req.written + n }]
        fed := true }
      else { s with
        writeQueueSize := size
        sent := s.sent ++ (bufsBytes s.memory (bufs.take iovmax)).take n
        writeQueue := { req with bufs := some left, written := req.written + n } :: queue
        pollout := true }) := by
  simp only [uvWrite, hopen, if_true, hqueue, hbufs, Option.bind_some, uvWriteReqFinish, List.tail_cons,
    hloop, Option.map_some, herror, List.isEmpty_iff]

/-- **`uv__write`** takes the first request on, and no assertion of it fails. -/
theorem Inv.uvWrite (h : s.Inv) (hopen : s.fdOpen = true) {req : UvWrite} {queue : List UvWrite}
    (hqueue : s.writeQueue = req :: queue) {r : WriteResult} (hr : Possible iovmax (some req) r) :
    ∃ s', s.uvWrite iovmax r = some s' ∧ s'.Inv ∧ Writes s req queue r s' := by
  have hwaiting := h.waiting req (hqueue ▸ List.mem_cons_self)
  have hleft := hwaiting.left_eq
  have hle := hwaiting.written_le
  obtain ⟨⟨bufs, hbufs, hne, hbytes⟩, herror, -⟩ := hwaiting
  have hsize : req.left ≤ s.writeQueueSize := by
    rw [h.size, hqueue, List.map_append, List.sum_append, List.map_cons, List.sum_cons]
    omega
  cases r with
  | failed errno =>
    have herrno : -errno ≠ 0 := by
      have hpos : 0 < errno := hr
      omega
    have hcompleted : ({ req with error := -errno } : UvWrite).Completed :=
      ⟨hle, fun hzero => absurd hzero herrno⟩
    have hinv := h.finish (n := 0) hqueue hcompleted rfl rfl rfl le_rfl
    refine ⟨_, uvWrite_failed hopen hqueue hbufs herrno, ?_, .failed errno⟩
    exact hinv.congr rfl rfl rfl rfl rfl (List.append_nil s.sent).symm rfl
  | again =>
    refine ⟨{ s with pollout := true }, ?_, h.congr rfl rfl rfl rfl rfl rfl rfl, .again⟩
    simp only [UvStream.uvWrite, hopen, if_true, hqueue, hbufs, Option.bind_some]
  | wrote n =>
    have hn : n ≤ totalLen (bufs.take iovmax) := hr bufs hbufs
    have htotal : req.left = totalLen bufs := by rw [UvWrite.left, hbufs, Option.elim_some]
    have hnle := hn.trans (totalLen_take_le bufs iovmax)
    obtain ⟨left, hloop, hsum, hrest, hiff⟩ :=
      writeLoop_spec s.memory hne hnle (htotal ▸ hsize) h.size_lt
    have hwrote := uvWrite_wrote iovmax hopen hqueue hbufs herror hloop
    rw [take_bufsBytes_take s.memory bufs hn, hbytes] at hwrote
    rw [hbytes, List.drop_drop] at hrest
    by_cases hall : n = totalLen bufs
    · -- the kernel has taken the rest of the request
      have hend : req.written + n = req.data.length := by omega
      have hcompleted : ({ req with bufs := none, written := req.written + n } : UvWrite).Completed :=
        ⟨hend.le, fun _ => hend⟩
      have hsize' : s.writeQueueSize - n + req.left = s.writeQueueSize + 0 := by omega
      have hinv := h.finish hqueue hcompleted rfl rfl hsize' (Nat.zero_le _)
      rw [if_pos (hiff.mpr hall)] at hwrote
      exact ⟨_, hwrote, hinv.congr rfl rfl rfl rfl rfl rfl rfl, .all n hend⟩
    · have hleft' : left ≠ [] := fun heq => hall (hiff.mp heq)
      have hpart : req.written + n < req.data.length := by omega
      have hwaiting' : ({ req with bufs := some left, written := req.written + n } : UvWrite).Waiting
          s.memory := ⟨⟨left, rfl, hleft', hrest⟩, herror, hpart.le⟩
      have hinv := h.advance hqueue hwaiting' rfl rfl (htotal ▸ hnle)
      rw [if_neg hleft'] at hwrote
      exact ⟨_, hwrote, hinv.congr rfl rfl rfl rfl rfl rfl rfl, .part n bufs left hbufs hloop hpart⟩

/-! ### The watcher -/

/-- The loop comes back to a stream for the requests that wait for it. -/
structure Wakes (s : UvStream) : Prop where
  closing : s.closing = true → s.fdOpen = false
  quiet : s.fdOpen = false → s.pollout = false ∧ s.fed = false
  unopened : s.fdOpen = false → s.closing = false →
    s.connectReq = false ∧ s.writeQueue = [] ∧ s.writeCompletedQueue = []
  closed : s.closed = true → s.closing = true ∧ s.writeQueue = [] ∧
    (s.phase = .destroy ∨ s.writeCompletedQueue = [])
  destroy : s.phase = .destroy → s.closed = true
  connecting : s.connectReq = true →
    s.phase = .idle ∧ s.writeCompletedQueue = [] ∧ (s.fdOpen = true → s.pollout = true)
  /-- For the requests that are not written. -/
  waiting : s.fdOpen = true → s.connectReq = false → (∀ error, s.phase = .connectCb error → 0 ≤ error) →
    s.writeQueue ≠ [] → s.pollout = true ∨ s.fed = true
  /-- For the requests whose callbacks have not been called. -/
  completed : s.fdOpen = true → s.phase.inCallbacks = false → s.writeCompletedQueue ≠ [] → s.fed = true

/-- A stream just initialised waits for nothing. -/
theorem wakes_initial (memory : ℕ → UInt8) : (initial memory).Wakes where
  closing h := by cases h
  quiet _ := ⟨rfl, rfl⟩
  unopened _ _ := ⟨rfl, rfl, rfl⟩
  closed h := by cases h
  destroy h := by cases h
  connecting h := by cases h
  waiting h := by cases h
  completed h := by cases h

/-- Behind `uv__write` the loop comes back. -/
theorem wakes_of_writes {req : UvWrite} {queue : List UvWrite} {r : WriteResult} (h : Writes s req queue r s')
    (phase : StreamPhase) (hopen : s.fdOpen = true) (hclosing : s.closing = false) (hclosed : s.closed = false)
    (hdestroy : phase = .destroy → s.closed = true) (hconnect : s.connectReq = false)
    (hcompleted : phase.inCallbacks = false → s.writeCompletedQueue ≠ [] → s.fed = true) :
    ({ s' with phase } : UvStream).Wakes := by
  have hno : ∀ {b : Bool} {P : Prop}, b = true → b = false → P := fun h₁ h₂ => absurd (h₁.symm.trans h₂) nofun
  cases h with
  | failed errno =>
    exact ⟨fun h => hno h hclosing, fun h => hno hopen h, fun h => hno hopen h, fun h => hno h hclosed,
      hdestroy, fun h => hno h hconnect, fun _ _ _ _ => .inr rfl, fun _ _ _ => rfl⟩
  | again =>
    exact ⟨fun h => hno h hclosing, fun h => hno hopen h, fun h => hno hopen h, fun h => hno h hclosed,
      hdestroy, fun h => hno h hconnect, fun _ _ _ _ => .inl rfl, fun _ => hcompleted⟩
  | part n bufs left hbufs hloop hlt =>
    exact ⟨fun h => hno h hclosing, fun h => hno hopen h, fun h => hno hopen h, fun h => hno h hclosed,
      hdestroy, fun h => hno h hconnect, fun _ _ _ _ => .inl rfl, fun _ => hcompleted⟩
  | all n heq =>
    exact ⟨fun h => hno h hclosing, fun h => hno hopen h, fun h => hno hopen h, fun h => hno h hclosed,
      hdestroy, fun h => hno h hconnect, fun _ _ _ _ => .inr rfl, fun _ _ _ => rfl⟩

/-- Writing does not leave the phase. -/
theorem Writes.phase_eq {req : UvWrite} {queue : List UvWrite} {r : WriteResult} (h : Writes s req queue r s') :
    s'.phase = s.phase := by
  cases h <;> rfl

/-- A stream with a file descriptor is not closed. -/
theorem Wakes.of_open (h : s.Wakes) (hopen : s.fdOpen = true) : s.closing = false ∧ s.closed = false := by
  have hclosing : s.closing = false := by
    refine Bool.eq_false_iff.mpr fun hc => ?_
    rw [h.closing hc] at hopen
    cases hopen
  refine ⟨hclosing, Bool.eq_false_iff.mpr fun hc => ?_⟩
  rw [(h.closed hc).1] at hclosing
  cases hclosing

/-- What `uv_write2` does: nothing where it returns an error, and otherwise there is a new request, which
may be written at once. -/
inductive Accepts (s : UvStream) (addr : ℕ) (bufs : List WriteBuf) (r : WriteResult) : ℤ → UvStream → Prop where
  | error (code : ℤ) (hcode : code < 0) : Accepts s addr bufs r code s
  | queued (pollout : Bool) : Accepts s addr bufs r 0 { s.push addr bufs with pollout }
  | tried (req : UvWrite) (queue : List UvWrite) (s' : UvStream)
      (hqueue : (s.push addr bufs).writeQueue = req :: queue)
      (h : Writes (s.push addr bufs) req queue r s') : Accepts s addr bufs r 0 s'

/-- A request that is put behind others, or that waits for the connection. -/
theorem Wakes.queued (h : s.Wakes) (hopen : s.fdOpen = true) (addr : ℕ) (bufs : List WriteBuf) {pollout : Bool}
    (hpollout : pollout = true ∨ s.connectReq = true ∧ pollout = s.pollout) :
    ({ s.push addr bufs with pollout } : UvStream).Wakes := by
  obtain ⟨hclosing, hclosed⟩ := h.of_open hopen
  constructor
  case closing => exact h.closing
  case quiet => exact fun hclose => absurd (hopen.symm.trans hclose) nofun
  case unopened => exact fun hclose => absurd (hopen.symm.trans hclose) nofun
  case closed => exact fun hc => absurd (hclosed.symm.trans hc) nofun
  case destroy => exact h.destroy
  case connecting =>
    intro hconnect
    obtain ⟨hidle, hcompleted, hwatched⟩ := h.connecting hconnect
    refine ⟨hidle, hcompleted, fun _ => ?_⟩
    rcases hpollout with hpollout | ⟨-, hpollout⟩
    · exact hpollout
    · exact hpollout.trans (hwatched hopen)
  case waiting =>
    intro _ hconnect _ _
    rcases hpollout with hpollout | ⟨hconnect', -⟩
    · exact .inl hpollout
    · exact absurd (hconnect'.symm.trans hconnect) nofun
  case completed => exact h.completed

/-- **`uv_write2`**: no assertion of it fails. -/
theorem Inv.uvWrite2 (h : s.Inv) (hw : s.Wakes) {addr : ℕ} {bufs : List WriteBuf} {r : WriteResult}
    (hne : bufs ≠ []) (hlt : s.writeQueueSize + totalLen bufs < 2 ^ 64)
    (hr : Possible iovmax (s.writeQueue ++ [s.newWrite addr bufs]).head? r) (allocated : Bool) :
    ∃ code s', s.uvWrite2 iovmax addr bufs allocated r = some (code, s') ∧ s'.Inv ∧ s'.Wakes ∧
      Accepts s addr bufs r code s' := by
  have hempty : bufs.isEmpty = false := by
    rw [List.isEmpty_eq_false_iff]
    exact hne
  have hpush := h.push addr hne hlt
  rw [UvStream.uvWrite2, hempty, if_neg Bool.false_ne_true]
  by_cases hopen : s.fdOpen = false
  · rw [if_pos hopen]
    exact ⟨_, s, rfl, h, hw, .error _ (by decide)⟩
  rw [if_neg hopen]
  have hopen' : s.fdOpen = true := Bool.eq_true_of_not_eq_false hopen
  obtain ⟨hclosing, hclosed⟩ := hw.of_open hopen'
  by_cases halloc : 4 < bufs.length ∧ allocated = false
  · rw [if_pos halloc]
    exact ⟨_, s, rfl, h, hw, .error _ (by decide)⟩
  rw [if_neg halloc]
  dsimp only
  by_cases hconnect : s.connectReq = true
  · -- the connection is not made yet
    rw [if_pos hconnect]
    exact ⟨0, _, rfl, hpush, hw.queued hopen' addr bufs (.inr ⟨hconnect, rfl⟩), .queued s.pollout⟩
  rw [if_neg hconnect]
  by_cases htry : s.writeQueueSize = 0
  · -- the kernel may take it at once
    rw [if_pos (decide_eq_true htry)]
    obtain ⟨req, queue, hqueue⟩ : ∃ req queue, (s.push addr bufs).writeQueue = req :: queue :=
      List.exists_cons_of_ne_nil (List.append_ne_nil_of_right_ne_nil _ (List.cons_ne_nil _ _))
    have hhead : (s.writeQueue ++ [s.newWrite addr bufs]).head? = some req := congrArg List.head? hqueue
    rw [hhead] at hr
    obtain ⟨s', hs', hinv', hwrites⟩ := hpush.uvWrite hopen' hqueue hr
    refine ⟨0, s', congrArg (Option.map _) hs', hinv', ?_, .tried req queue s' hqueue hwrites⟩
    have hwakes := wakes_of_writes hwrites s.phase hopen' hclosing hclosed hw.destroy
      (Bool.eq_false_of_not_eq_true hconnect) (hw.completed hopen')
    rwa [show s.phase = s'.phase from hwrites.phase_eq.symm] at hwakes
  · rw [if_neg (by rw [decide_eq_true_iff]; exact htry)]
    exact ⟨0, _, rfl, hpush.congr rfl rfl rfl rfl rfl rfl rfl, hw.queued hopen' addr bufs (.inl rfl),
      .queued true⟩

/-! ### The other functions -/

/-- What `uv__stream_io` does, with what is left in the pending queue. -/
inductive Polls (s : UvStream) (r : WriteResult) (error : ℤ) : UvStream → Prop where
  | connect (hconnect : s.connectReq = true) : Polls s r error (s.uvStreamConnect error)
  | nothing (hqueue : s.writeQueue = []) : Polls s r error { s with phase := .io }
  | write (req : UvWrite) (queue : List UvWrite) (s' : UvStream) (hqueue : s.writeQueue = req :: queue)
      (h : Writes s req queue r s') : Polls s r error { s' with phase := .io }

/-- A connection is made or fails: the socket is watched for the requests that wait. -/
theorem Wakes.streamConnect (h : s.Wakes) (hopen : s.fdOpen = true) (hconnect : s.connectReq = true)
    (fed : Bool) (error : ℤ) : (UvStream.uvStreamConnect { s with fed } error).Wakes := by
  obtain ⟨hclosing, hclosed⟩ := h.of_open hopen
  obtain ⟨hidle, hcompleted, hpollout⟩ := h.connecting hconnect
  rw [uvStreamConnect]
  split_ifs with herror
  · constructor
    case closing => exact h.closing
    case quiet => exact fun hclose => absurd (hopen.symm.trans hclose) nofun
    case unopened => exact fun hclose => absurd (hopen.symm.trans hclose) nofun
    case closed => exact h.closed
    case destroy => exact h.destroy
    case connecting => exact h.connecting
    case waiting => exact fun _ hconnect' => absurd (hconnect.symm.trans hconnect') nofun
    case completed => exact fun _ _ hne => absurd hcompleted hne
  · constructor
    case closing => exact h.closing
    case quiet => exact fun hclose => absurd (hopen.symm.trans hclose) nofun
    case unopened => exact fun hclose => absurd (hopen.symm.trans hclose) nofun
    case closed => exact fun hc => absurd (hclosed.symm.trans hc) nofun
    case destroy => exact fun hphase => absurd hphase nofun
    case connecting => exact fun hfalse => absurd hfalse Bool.false_ne_true
    case waiting =>
      intro _ _ hsign hne
      have hle : ¬ error < 0 := not_lt.mpr (hsign error rfl)
      have hempty : s.writeQueue.isEmpty = false := by
        rw [List.isEmpty_eq_false_iff]
        exact hne
      refine .inl ?_
      dsimp only
      rw [hpollout hopen, decide_eq_false hle, hempty]
      rfl
    case completed => exact fun _ _ hne => absurd hcompleted hne

/-- **`uv__stream_io`**: no assertion of it fails. -/
theorem Inv.uvStreamIo (h : s.Inv) (hw : s.Wakes) {r : WriteResult} (hopen : s.fdOpen = true)
    (hr : Possible iovmax s.writeQueue.head? r) (fed : Bool) (error : ℤ) :
    ∃ s', UvStream.uvStreamIo { s with fed } iovmax r error = some s' ∧ s'.Inv ∧ s'.Wakes ∧
      Polls { s with fed } r error s' := by
  obtain ⟨hclosing, hclosed⟩ := hw.of_open hopen
  have hfed : ({ s with fed } : UvStream).Inv := h.congr rfl rfl rfl rfl rfl rfl rfl
  rw [UvStream.uvStreamIo, if_neg (by rw [hclosing]; exact Bool.false_ne_true)]
  by_cases hconnect : s.connectReq = true
  · rw [if_pos hconnect]
    refine ⟨_, rfl, ?_, hw.streamConnect hopen hconnect fed error, .connect hconnect⟩
    rw [uvStreamConnect]
    split_ifs
    · exact hfed
    · exact hfed.congr rfl rfl rfl rfl rfl rfl rfl
  · rw [if_neg hconnect]
    have hconnect' := Bool.eq_false_of_not_eq_true hconnect
    by_cases hqueue : s.writeQueue = []
    · have hwrite : UvStream.uvWrite { s with fed } iovmax r = some { s with fed } := by
        simp only [UvStream.uvWrite, hopen, if_true, hqueue]
      rw [hwrite]
      refine ⟨_, rfl, hfed.congr rfl rfl rfl rfl rfl rfl rfl, ?_, .nothing hqueue⟩
      constructor
      case closing => exact hw.closing
      case quiet => exact fun hclose => absurd (hopen.symm.trans hclose) nofun
      case unopened => exact fun hclose => absurd (hopen.symm.trans hclose) nofun
      case closed => exact fun hc => absurd (hclosed.symm.trans hc) nofun
      case destroy => exact fun hphase => absurd hphase nofun
      case connecting => exact fun htrue => absurd htrue hconnect
      case waiting => exact fun _ _ _ hne => absurd hqueue hne
      case completed => exact fun _ hfalse => absurd hfalse.symm Bool.false_ne_true
    · obtain ⟨req, queue, hqueue⟩ := List.exists_cons_of_ne_nil hqueue
      rw [hqueue] at hr
      obtain ⟨s', hs', hinv', hwrites⟩ := hfed.uvWrite hopen hqueue hr
      rw [hs']
      refine ⟨_, rfl, hinv'.congr rfl rfl rfl rfl rfl rfl rfl, ?_, .write req queue s' hqueue hwrites⟩
      exact wakes_of_writes hwrites .io hopen hclosing hclosed nofun hconnect'
        fun hfalse => absurd hfalse.symm Bool.false_ne_true

/-- The callback of the connection returns. -/
theorem Inv.uvStreamConnected (h : s.Inv) (hw : s.Wakes) {error : ℤ} (hphase : s.phase = .connectCb error) :
    (s.uvStreamConnected error).Inv ∧ (s.uvStreamConnected error).Wakes := by
  have hconnect : s.connectReq = false := by
    refine Bool.eq_false_iff.mpr fun hc => ?_
    rw [(hw.connecting hc).1] at hphase
    cases hphase
  have hclosed : s.closed = true → s.closing = true ∧ s.writeQueue = [] ∧
      (StreamPhase.idle = .destroy ∨ s.writeCompletedQueue = []) := by
    intro hc
    obtain ⟨hclosing, hqueue, hcompleted⟩ := hw.closed hc
    refine ⟨hclosing, hqueue, .inr (hcompleted.resolve_left fun hfalse => ?_)⟩
    rw [hphase] at hfalse
    cases hfalse
  rw [UvStream.uvStreamConnected]
  split_ifs with hclose herror
  · refine ⟨h.congr rfl rfl rfl rfl rfl rfl rfl, ?_⟩
    constructor
    case closing => exact hw.closing
    case quiet => exact hw.quiet
    case unopened => exact hw.unopened
    case closed => exact hclosed
    case destroy => exact fun hfalse => absurd hfalse nofun
    case connecting => exact fun htrue => absurd (htrue.symm.trans hconnect) nofun
    case waiting => exact fun hopen => absurd (hopen.symm.trans hclose) nofun
    case completed => exact fun hopen => absurd (hopen.symm.trans hclose) nofun
  · have hopen : s.fdOpen = true := Bool.eq_true_of_not_eq_false hclose
    refine ⟨(h.flush (show -ecanceled ≠ 0 by decide)).congr rfl rfl rfl rfl rfl rfl rfl, ?_⟩
    constructor
    case closing => exact hw.closing
    case quiet => exact hw.quiet
    case unopened => exact fun hc => absurd (hopen.symm.trans hc) nofun
    case closed => exact fun hc => absurd ((hw.of_open hopen).2.symm.trans hc) nofun
    case destroy => exact fun hfalse => absurd hfalse nofun
    case connecting => exact fun htrue => absurd (htrue.symm.trans hconnect) nofun
    case waiting => exact fun _ _ _ hne => absurd rfl hne
    case completed => exact fun _ hfalse => absurd hfalse.symm Bool.false_ne_true
  · refine ⟨h.congr rfl rfl rfl rfl rfl rfl rfl, ?_⟩
    constructor
    case closing => exact hw.closing
    case quiet => exact hw.quiet
    case unopened => exact hw.unopened
    case closed => exact hclosed
    case destroy => exact fun hfalse => absurd hfalse nofun
    case connecting => exact fun htrue => absurd (htrue.symm.trans hconnect) nofun
    case waiting =>
      refine fun hopen hc _ => hw.waiting hopen hc fun e he => ?_
      rw [hphase] at he
      cases he
      exact not_lt.mp herror
    case completed => exact fun hopen _ => hw.completed hopen (by rw [hphase]; rfl)

/-- A callback of a request is called. -/
theorem Inv.uvWriteCallback (h : s.Inv) (hw : s.Wakes) {req : UvWrite} {queue : List UvWrite}
    (hqueue : s.writeCompletedQueue = req :: queue) (hphase : s.phase.inCallbacks = true) :
    ∃ s', s.uvWriteCallback = some s' ∧ s'.Inv ∧ s'.Wakes ∧ s' = { s with
      writeCompletedQueue := queue
      writeQueueSize := s.writeQueueSize - req.left
      called := s.called ++ [{ req with bufs := none }] } := by
  obtain ⟨hcount, hle, hinv⟩ := h.callback hqueue
  have hne : s.writeCompletedQueue ≠ [] := by
    rw [hqueue]
    exact List.cons_ne_nil _ _
  refine ⟨_, ?_, hinv, ?_, rfl⟩
  · rw [UvStream.uvWriteCallback, hqueue]
    dsimp only
    rw [hcount, if_neg (not_lt.mpr hle)]
  · constructor
    case closing => exact hw.closing
    case quiet => exact hw.quiet
    case unopened => exact fun hclose hclosing => absurd (hw.unopened hclose hclosing).2.2 hne
    case closed =>
      intro hc
      obtain ⟨hclosing, hqueue, hcompleted⟩ := hw.closed hc
      exact ⟨hclosing, hqueue, .inl (hcompleted.resolve_right hne)⟩
    case destroy => exact hw.destroy
    case connecting => exact fun hconnect => absurd (hw.connecting hconnect).2.1 hne
    case waiting => exact hw.waiting
    case completed => exact fun _ hfalse => absurd (hphase.symm.trans hfalse) nofun

/-- **`uv__write_callbacks` ends**: no assertion behind it fails, and a stream that is destroyed has no bytes
in its queues. -/
theorem Inv.callbacksEnd (h : s.Inv) (hw : s.Wakes) (hphase : s.phase.inCallbacks = true)
    (hqueue : s.writeCompletedQueue = []) :
    ∃ s', s.callbacksEnd = some s' ∧ s'.Inv ∧ s'.Wakes ∧
      ∃ pollout, s' = { s with pollout, phase := .idle } := by
  have hconnect : s.connectReq = false := by
    refine Bool.eq_false_iff.mpr fun hc => ?_
    rw [(hw.connecting hc).1] at hphase
    cases hphase
  have hsign : ∀ error, s.phase = .connectCb error → 0 ≤ error := by
    intro error herror
    rw [herror] at hphase
    cases hphase
  -- what holds whatever becomes of the watcher
  have hgoal : ∀ pollout : Bool, (s.fdOpen = false → pollout = false) →
      (s.writeQueue ≠ [] → pollout = s.pollout) →
      ({ s with pollout, phase := .idle } : UvStream).Inv ∧
        ({ s with pollout, phase := .idle } : UvStream).Wakes := by
    intro pollout hclose hwait
    refine ⟨h.congr rfl rfl rfl rfl rfl rfl rfl, ?_⟩
    constructor
    case closing => exact hw.closing
    case quiet => exact fun hc => ⟨hclose hc, (hw.quiet hc).2⟩
    case unopened => exact hw.unopened
    case closed => exact fun hc => ⟨(hw.closed hc).1, (hw.closed hc).2.1, .inr hqueue⟩
    case destroy => exact fun hfalse => absurd hfalse nofun
    case connecting => exact fun htrue => absurd (htrue.symm.trans hconnect) nofun
    case waiting =>
      intro hopen _ _ hne
      have hwaiting := hw.waiting hopen hconnect hsign hne
      rwa [← hwait hne] at hwaiting
    case completed => exact fun _ _ hne => absurd hqueue hne
  obtain ⟨hinv, hwakes⟩ := hgoal s.pollout (fun hc => (hw.quiet hc).1) fun _ => rfl
  rw [UvStream.callbacksEnd]
  cases hp : s.phase with
  | idle | connectCb =>
    rw [hp] at hphase
    cases hphase
  | io =>
    dsimp only
    by_cases hempty : s.writeQueue = []
    · obtain ⟨hinv', hwakes'⟩ := hgoal false (fun _ => rfl) fun hne => absurd hempty hne
      refine ⟨_, ?_, hinv', hwakes', false, rfl⟩
      simp only [uvDrain, hempty, List.isEmpty_nil, if_true, Option.map_some]
    · refine ⟨_, ?_, hinv, hwakes, s.pollout, rfl⟩
      simp only [List.isEmpty_iff, if_neg hempty, Option.map_some]
  | connect => exact ⟨_, rfl, hinv, hwakes, s.pollout, rfl⟩
  | destroy =>
    have hzero : s.writeQueueSize = 0 := by
      rw [h.size, hqueue, (hw.closed (hw.destroy hp)).2.1]
      rfl
    dsimp only
    rw [if_pos hzero]
    exact ⟨_, rfl, hinv, hwakes, s.pollout, rfl⟩

/-- **`uv__stream_destroy`** up to the callbacks: no assertion of it fails. -/
theorem Inv.uvStreamDestroy (h : s.Inv) (hw : s.Wakes) (hclosing : s.closing = true) :
    ∃ s', s.uvStreamDestroy = some s' ∧ s'.Inv ∧ s'.Wakes := by
  have hclose := hw.closing hclosing
  obtain ⟨hpollout, hfed⟩ := hw.quiet hclose
  rw [UvStream.uvStreamDestroy, if_neg (by rw [hpollout]; exact Bool.false_ne_true)]
  refine ⟨_, rfl, (h.flush (show -ecanceled ≠ 0 by decide)).congr rfl rfl rfl rfl rfl rfl rfl, ?_⟩
  constructor
  case closing => exact hw.closing
  case quiet => exact hw.quiet
  case unopened => exact fun _ hfalse => absurd (hclosing.symm.trans hfalse) nofun
  case closed => exact fun _ => ⟨hclosing, rfl, .inl rfl⟩
  case destroy => exact fun _ => rfl
  case connecting => exact fun htrue => absurd htrue Bool.false_ne_true
  case waiting => exact fun _ _ _ hne => absurd rfl hne
  case completed => exact fun _ hfalse => absurd hfalse.symm Bool.false_ne_true

/-! ### Steps -/

/-- An event that happened was allowed. -/
theorem allowed_of_step {e : UvStreamEvent} (h : s.step iovmax e = some s') : s.Allowed iovmax e := by
  by_contra hnot
  rw [step, if_neg hnot] at h
  cases h

/-- A stream gets its socket. -/
theorem Wakes.socket (h : s.Wakes) (hclose : s.fdOpen = false) (hclosing : s.closing = false) :
    ({ s with fdOpen := true } : UvStream).Wakes := by
  obtain ⟨hconnect, hqueue, hcompleted⟩ := h.unopened hclose hclosing
  constructor
  case closing => exact fun htrue => absurd (htrue.symm.trans hclosing) nofun
  case quiet => exact fun hfalse => absurd hfalse.symm Bool.false_ne_true
  case unopened => exact fun hfalse => absurd hfalse.symm Bool.false_ne_true
  case closed => exact h.closed
  case destroy => exact h.destroy
  case connecting => exact fun htrue => absurd (htrue.symm.trans hconnect) nofun
  case waiting => exact fun _ _ _ hne => absurd hqueue hne
  case completed => exact fun _ _ hne => absurd hcompleted hne

/-- While the stream connects, its socket is watched. -/
theorem Wakes.connect (h : s.Wakes) (hclosing : s.closing = false) (hidle : s.phase = .idle)
    (hqueue : s.writeQueue = []) (hcompleted : s.writeCompletedQueue = []) (delayed : Bool) :
    (s.uvTcpConnect delayed).Wakes := by
  constructor
  case closing => exact fun htrue => absurd (htrue.symm.trans hclosing) nofun
  case quiet => exact fun hfalse => absurd hfalse.symm Bool.false_ne_true
  case unopened => exact fun hfalse => absurd hfalse.symm Bool.false_ne_true
  case closed => exact h.closed
  case destroy => exact h.destroy
  case connecting => exact fun _ => ⟨hidle, hcompleted, fun _ => rfl⟩
  case waiting => exact fun _ _ _ hne => absurd hqueue hne
  case completed => exact fun _ _ hne => absurd hcompleted hne

/-- A stream that is closed is not watched any more, and what waits is left to `uv__stream_destroy`. -/
theorem Wakes.close (h : s.Wakes) : s.uvClose.Wakes := by
  constructor
  case closing => exact fun _ => rfl
  case quiet => exact fun _ => ⟨rfl, rfl⟩
  case unopened => exact fun _ hfalse => absurd hfalse.symm Bool.false_ne_true
  case closed => exact fun hc => ⟨rfl, (h.closed hc).2⟩
  case destroy => exact h.destroy
  case connecting =>
    intro hconnect
    obtain ⟨hidle, hcompleted, -⟩ := h.connecting hconnect
    exact ⟨hidle, hcompleted, fun hfalse => absurd hfalse Bool.false_ne_true⟩
  case waiting => exact fun hfalse => absurd hfalse Bool.false_ne_true
  case completed => exact fun hfalse => absurd hfalse Bool.false_ne_true

/-- **A step** that is allowed succeeds: no assertion fails. -/
theorem exists_next (h : s.Inv) (hw : s.Wakes) {e : UvStreamEvent} (hallowed : s.Allowed iovmax e) :
    ∃ s', s.next iovmax e = some s' ∧ s'.Inv ∧ s'.Wakes := by
  cases e with
  | memory memory =>
    refine ⟨_, rfl, h.setMemory hallowed, ?_⟩
    exact ⟨hw.closing, hw.quiet, hw.unopened, hw.closed, hw.destroy, hw.connecting, hw.waiting, hw.completed⟩
  | socket =>
    obtain ⟨hclose, hclosing⟩ := hallowed
    exact ⟨_, rfl, h.congr rfl rfl rfl rfl rfl rfl rfl, hw.socket hclose hclosing⟩
  | connect delayed =>
    obtain ⟨hclosing, -, hidle, hqueue, hcompleted⟩ := hallowed
    exact ⟨_, rfl, h.congr rfl rfl rfl rfl rfl rfl rfl,
      hw.connect hclosing hidle hqueue hcompleted delayed⟩
  | write addr bufs allocated r =>
    obtain ⟨hne, hlt, -, hr⟩ := hallowed
    obtain ⟨code, s', hs', hinv', hwakes', -⟩ := h.uvWrite2 hw hne hlt hr allocated
    exact ⟨s', congrArg (Option.map Prod.snd) hs', hinv', hwakes'⟩
  | close => exact ⟨_, rfl, h.congr rfl rfl rfl rfl rfl rfl rfl, hw.close⟩
  | io pending r error =>
    obtain ⟨hopen, -, -, hr⟩ := hallowed
    obtain ⟨s', hs', hinv', hwakes', -⟩ := h.uvStreamIo hw hopen hr (s.fed && !pending) error
    exact ⟨s', hs', hinv', hwakes'⟩
  | connected =>
    have hphase : s.phase.inConnectCb = true := hallowed
    rw [next]
    cases hp : s.phase with
    | connectCb error => exact ⟨_, rfl, h.uvStreamConnected hw hp⟩
    | idle | io | connect | destroy =>
      rw [hp] at hphase
      cases hphase
  | callback =>
    obtain ⟨hphase, hne⟩ := hallowed
    obtain ⟨req, queue, hqueue⟩ := List.exists_cons_of_ne_nil hne
    obtain ⟨s', hs', hinv', hwakes', -⟩ := h.uvWriteCallback hw hqueue hphase
    exact ⟨s', hs', hinv', hwakes'⟩
  | callbacksEnd =>
    obtain ⟨hphase, hqueue⟩ := hallowed
    obtain ⟨s', hs', hinv', hwakes', -⟩ := h.callbacksEnd hw hphase hqueue
    exact ⟨s', hs', hinv', hwakes'⟩
  | destroy => exact h.uvStreamDestroy hw hallowed.1

/-- **What every run keeps.** -/
theorem inv_of_run {memory : ℕ → UInt8} {es : List UvStreamEvent}
    (hrun : run (step iovmax) (initial memory) es = some s) : s.Inv ∧ s.Wakes := by
  refine run_invariant (I := fun s => s.Inv ∧ s.Wakes) (fun s e s' h hstep => ?_)
    ⟨inv_initial memory, wakes_initial memory⟩ hrun
  have hallowed := allowed_of_step hstep
  obtain ⟨s₁, hs₁, h'⟩ := exists_next h.1 h.2 hallowed
  rw [step, if_pos hallowed] at hstep
  rw [Option.some_injective _ (hstep.symm.trans hs₁)]
  exact h'

end UvStream

end MyUvpp
