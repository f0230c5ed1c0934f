import MyUvpp.Uv.WriteStream

/-! # The write requests of a stream

The requests of a stream are those whose callbacks have been called, those that are completed, and those
that are waiting: they stay in the order in which `uv_write` accepted them. Of the requests that are waiting
only the first has been begun, and `write_queue_size` is what is left of all. -/

namespace MyUvpp

/-! ### Buffers -/

/-- A buffer has as many bytes as its length says. -/
@[simp] theorem WriteBuf.length_bytes (memory : ℕ → UInt8) (buf : WriteBuf) :
    (buf.bytes memory).length = buf.len := by
  rw [bytes, List.length_map, List.length_range]

/-- The rest of a buffer. -/
theorem WriteBuf.drop_bytes (memory : ℕ → UInt8) (buf : WriteBuf) (n : ℕ) :
    (buf.bytes memory).drop n = WriteBuf.bytes memory ⟨buf.base + n, buf.len - n⟩ := by
  refine List.ext_getElem (by simp) fun i hi hi' => ?_
  simp only [bytes, List.getElem_drop, List.getElem_map, List.getElem_range]
  rw [Nat.add_assoc]

/-- The bytes of a list of buffers, one buffer at a time. -/
@[simp] theorem bufsBytes_cons (memory : ℕ → UInt8) (buf : WriteBuf) (bufs : List WriteBuf) :
    bufsBytes memory (buf :: bufs) = buf.bytes memory ++ bufsBytes memory bufs := rfl

/-- The length of a list of buffers, one buffer at a time. -/
@[simp] theorem totalLen_cons (buf : WriteBuf) (bufs : List WriteBuf) :
    totalLen (buf :: bufs) = buf.len + totalLen bufs := rfl

/-- The bytes of a list of buffers are as many as the lengths add up to. -/
@[simp] theorem length_bufsBytes (memory : ℕ → UInt8) (bufs : List WriteBuf) :
    (bufsBytes memory bufs).length = totalLen bufs := by
  induction bufs with
  | nil => rfl
  | cons buf bufs ih => rw [bufsBytes_cons, List.length_append, ih, WriteBuf.length_bytes, totalLen_cons]

/-- The kernel takes the first bytes, also when it is given the first buffers only. -/
theorem take_bufsBytes_take (memory : ℕ → UInt8) (bufs : List WriteBuf) {k n : ℕ}
    (hn : n ≤ totalLen (bufs.take k)) :
    (bufsBytes memory (bufs.take k)).take n = (bufsBytes memory bufs).take n := by
  have hsplit : bufsBytes memory bufs = bufsBytes memory (bufs.take k) ++ bufsBytes memory (bufs.drop k) := by
    rw [bufsBytes, bufsBytes, bufsBytes, ← List.flatMap_append, List.take_append_drop]
  rw [hsplit, List.take_append_of_le_length]
  rwa [length_bufsBytes]

/-- The first buffers are no longer than all of them: what one call of `writev` is offered never exceeds what
the request still has to write. -/
theorem totalLen_take_le (bufs : List WriteBuf) (k : ℕ) : totalLen (bufs.take k) ≤ totalLen bufs := by
  induction bufs generalizing k with
  | nil => rw [List.take_nil]
  | cons buf bufs ih =>
    cases k with
    | zero => exact Nat.zero_le _
    | succ k =>
      rw [List.take_succ_cons, totalLen_cons, totalLen_cons]
      exact Nat.add_le_add_left (ih k) _

namespace UvStream

/-- **The loop of `uv__write`** skips what the kernel has taken, and none of its assertions fails. -/
theorem writeLoop_spec (memory : ℕ → UInt8) {bufs : List WriteBuf} {n size : ℕ} (hne : bufs ≠ [])
    (hn : n ≤ totalLen bufs) (hsize : totalLen bufs ≤ size) (hlt : size < 2 ^ 64) :
    ∃ left, writeLoop bufs n size = some (left, size - n) ∧ totalLen left + n = totalLen bufs ∧
      bufsBytes memory left = (bufsBytes memory bufs).drop n ∧ (left = [] ↔ n = totalLen bufs) := by
  induction bufs generalizing n size with
  | nil => exact absurd rfl hne
  | cons buf bufs ih =>
    rw [totalLen_cons] at hn hsize ⊢
    rw [writeLoop]
    split_ifs with hpart hassert hlast hall
    · -- the kernel has stopped in this buffer
      have hmod : (size + 2 ^ 64 - n) % 2 ^ 64 = size - n := by
        rw [show size + 2 ^ 64 - n = size - n + 2 ^ 64 by omega, Nat.add_mod_right]
        exact Nat.mod_eq_of_lt (by omega)
      refine ⟨_, by rw [hmod], ?_, ?_, iff_of_false (List.cons_ne_nil _ _) (by omega)⟩
      · rw [totalLen_cons]
        dsimp only
        omega
      · rw [bufsBytes_cons, bufsBytes_cons, ← WriteBuf.drop_bytes, List.drop_append_of_le_length]
        rw [WriteBuf.length_bytes]
        omega
    · omega
    · -- the last one
      obtain rfl := List.isEmpty_iff.mp hlast
      refine ⟨[], by rw [hall], by rw [hall]; exact Nat.zero_add _, ?_, iff_of_true rfl hall⟩
      rw [List.drop_of_length_le]
      · rfl
      · rw [length_bufsBytes, totalLen_cons, hall]
        exact le_rfl
    · obtain rfl := List.isEmpty_iff.mp hlast
      have hzero : totalLen [] = 0 := rfl
      omega
    · -- on to the next one
      have hbufs : bufs ≠ [] := fun heq => hlast (List.isEmpty_iff.mpr heq)
      have hn' : n - buf.len ≤ totalLen bufs := by omega
      have hsize' : totalLen bufs ≤ size - buf.len := by omega
      obtain ⟨left, hloop, htotal, hbytes, hiff⟩ := ih hbufs hn' hsize' (by omega)
      refine ⟨left, ?_, by omega, ?_, ?_⟩
      · rw [hloop, Nat.sub_sub, Nat.add_sub_cancel' (not_lt.mp hpart)]
      · have hskip : (buf.bytes memory).drop n = [] := by
          refine List.drop_of_length_le ?_
          rw [WriteBuf.length_bytes]
          exact not_lt.mp hpart
        rw [hbytes, bufsBytes_cons, List.drop_append, WriteBuf.length_bytes, hskip, List.nil_append]
      · rw [hiff]
        omega

end UvStream

/-! ### Requests -/

namespace UvWrite

/-- What is left of a request, as `write_queue_size` counts it. -/
def left (req : UvWrite) : ℕ := req.bufs.elim 0 totalLen

/-- The bytes of a request that the kernel has taken. -/
def taken (req : UvWrite) : List UInt8 := req.data.take req.written

/-- A request and what it is about. -/
def about (req : UvWrite) : ℕ × List UInt8 := (req.addr, req.data)

/-- A request that waits: its buffers hold what the kernel has not taken. -/
structure Waiting (memory : ℕ → UInt8) (req : UvWrite) : Prop where
  bufs : ∃ bufs, req.bufs = some bufs ∧ bufs ≠ [] ∧ bufsBytes memory bufs = req.data.drop req.written
  error : req.error = 0
  written_le : req.written ≤ req.data.length

/-- A request that is completed: its status is 0 only if the kernel has taken all of it. -/
structure Completed (req : UvWrite) : Prop where
  written_le : req.written ≤ req.data.length
  written : req.error = 0 → req.written = req.data.length

/-- What is left, in bytes. -/
theorem Waiting.left_eq {memory : ℕ → UInt8} {req : UvWrite} (h : req.Waiting memory) :
    req.left = req.data.length - req.written := by
  obtain ⟨bufs, hbufs, -, hbytes⟩ := h.bufs
  rw [left, hbufs, Option.elim_some, ← length_bufsBytes memory, hbytes, List.length_drop]

end UvWrite

namespace UvStream

/-- The requests, in their order. -/
def requests (s : UvStream) : List UvWrite := s.called ++ s.writeCompletedQueue ++ s.writeQueue

/-- The requests of a stream are accounted for. -/
structure Inv (s : UvStream) : Prop where
  size : s.writeQueueSize = ((s.writeCompletedQueue ++ s.writeQueue).map UvWrite.left).sum
  size_lt : s.writeQueueSize < 2 ^ 64
  waiting : ∀ req ∈ s.writeQueue, req.Waiting s.memory
  completed : ∀ req ∈ s.called ++ s.writeCompletedQueue, req.Completed
  accepted : s.requests.map UvWrite.about = s.accepted
  sent : s.sent = s.requests.flatMap UvWrite.taken
  unbegun : ∀ req ∈ s.writeQueue.tail, req.written = 0

variable {s s' : UvStream} {iovmax : ℕ}

/-- A stream just initialised has no requests. -/
theorem inv_initial (memory : ℕ → UInt8) : (initial memory).Inv where
  size := rfl
  size_lt := Nat.two_pow_pos 64
  waiting _ h := absurd h List.not_mem_nil
  completed _ h := absurd h List.not_mem_nil
  accepted := rfl
  sent := rfl
  unbegun _ h := absurd h List.not_mem_nil

/-- What has been sent, where only the first of the waiting requests has been begun. -/
theorem flatMap_taken_of_unbegun {reqs : List UvWrite} (h : ∀ req ∈ reqs, req.written = 0) :
    reqs.flatMap UvWrite.taken = [] := by
  refine List.flatMap_eq_nil_iff.mpr fun req hreq => ?_
  rw [UvWrite.taken, h req hreq, List.take_zero]

/-- Nothing of this depends on the other fields. -/
theorem Inv.congr (h : s.Inv) (hqueue : s'.writeQueue = s.writeQueue)
    (hcompleted : s'.writeCompletedQueue = s.writeCompletedQueue) (hcalled : s'.called = s.called)
    (hsize : s'.writeQueueSize = s.writeQueueSize) (hmemory : s'.memory = s.memory)
    (hsent : s'.sent = s.sent) (haccepted : s'.accepted = s.accepted) : s'.Inv where
  size := by
    rw [hsize, hqueue, hcompleted]
    exact h.size
  size_lt := hsize ▸ h.size_lt
  waiting := by
    rw [hqueue, hmemory]
    exact h.waiting
  completed := by
    rw [hcalled, hcompleted]
    exact h.completed
  accepted := by
    rw [requests, hqueue, hcompleted, hcalled, haccepted]
    exact h.accepted
  sent := by
    rw [requests, hqueue, hcompleted, hcalled, hsent]
    exact h.sent
  unbegun := by
    rw [hqueue]
    exact h.unbegun

/-- A stream with a new request. -/
def push (s : UvStream) (addr : ℕ) (bufs : List WriteBuf) : UvStream :=
  { s with
    writeQueueSize := (s.writeQueueSize + countBufs bufs) % 2 ^ 64
    writeQueue := s.writeQueue ++ [s.newWrite addr bufs]
    accepted := s.accepted ++ [(addr, (s.newWrite addr bufs).data)] }

/-- A new request goes to the end of the queue and adds its length to the size. -/
theorem Inv.push (h : s.Inv) (addr : ℕ) {bufs : List WriteBuf} (hne : bufs ≠ [])
    (hlt : s.writeQueueSize + totalLen bufs < 2 ^ 64) : (s.push addr bufs).Inv := by
  have hcount : (s.writeQueueSize + countBufs bufs) % 2 ^ 64 = s.writeQueueSize + totalLen bufs := by
    rw [countBufs, Nat.mod_eq_of_lt (by omega : totalLen bufs < 2 ^ 64)]
    exact Nat.mod_eq_of_lt hlt
  have hwaiting : (s.newWrite addr bufs).Waiting s.memory := ⟨⟨bufs, rfl, hne, rfl⟩, rfl, Nat.zero_le _⟩
  constructor
  case size =>
    dsimp only [UvStream.push]
    rw [hcount, ← List.append_assoc, List.map_append, List.sum_append, ← h.size]
    rfl
  case size_lt => exact hcount.trans_lt hlt
  case waiting =>
    intro req hreq
    rcases List.mem_append.mp hreq with hreq | hreq
    · exact h.waiting req hreq
    · rw [List.mem_singleton.mp hreq]
      exact hwaiting
  case completed => exact h.completed
  case accepted =>
    dsimp only [requests, UvStream.push]
    rw [← List.append_assoc, List.map_append, ← h.accepted]
    rfl
  case sent =>
    dsimp only [requests, UvStream.push]
    rw [← List.append_assoc, List.flatMap_append, h.sent]
    exact (List.append_nil _).symm
  case unbegun =>
    intro req hreq
    dsimp only [UvStream.push] at hreq
    cases hqueue : s.writeQueue with
    | nil =>
      rw [hqueue] at hreq
      cases hreq
    | cons first queue =>
      rw [hqueue] at hreq
      rcases List.mem_append.mp hreq with hreq | hreq
      · exact h.unbegun req (hqueue ▸ hreq)
      · rw [List.mem_singleton.mp hreq]
        rfl

/-- What has been sent are the bytes of the completed requests and of the first one that waits. -/
theorem Inv.sent_eq (h : s.Inv) {req : UvWrite} {queue : List UvWrite} (hqueue : s.writeQueue = req :: queue) :
    s.sent = (s.called ++ s.writeCompletedQueue).flatMap UvWrite.taken ++ req.taken ∧
      queue.flatMap UvWrite.taken = [] := by
  have hrest : queue.flatMap UvWrite.taken = [] :=
    flatMap_taken_of_unbegun fun r hr => h.unbegun r (hqueue ▸ hr)
  refine ⟨?_, hrest⟩
  rw [h.sent, requests, hqueue, List.flatMap_append, List.flatMap_cons, hrest, List.append_nil]

/-- The bytes of a request of which the kernel has taken `n` more. -/
theorem taken_add (req : UvWrite) (n : ℕ) {req' : UvWrite} (habout : req'.about = req.about)
    (hwritten : req'.written = req.written + n) :
    req'.taken = req.taken ++ (req.data.drop req.written).take n := by
  rw [UvWrite.taken, UvWrite.taken, hwritten, show req'.data = req.data from congrArg Prod.snd habout,
    List.take_add]

/-- **Progress**: the kernel takes some bytes of the first request. -/
theorem Inv.advance (h : s.Inv) {req req' : UvWrite} {queue : List UvWrite} {n : ℕ}
    (hqueue : s.writeQueue = req :: queue) (hwaiting : req'.Waiting s.memory)
    (habout : req'.about = req.about) (hwritten : req'.written = req.written + n) (hn : n ≤ req.left) :
    ({ s with
        writeQueueSize := s.writeQueueSize - n
        sent := s.sent ++ (req.data.drop req.written).take n
        writeQueue := req' :: queue } : UvStream).Inv := by
  have hmem : req ∈ s.writeQueue := hqueue ▸ List.mem_cons_self
  have hleft : req'.left = req.left - n := by
    rw [hwaiting.left_eq, (h.waiting req hmem).left_eq, hwritten,
      show req'.data = req.data from congrArg Prod.snd habout, Nat.sub_sub]
  constructor
  case size =>
    have hsize := h.size
    rw [hqueue, List.map_append, List.sum_append, List.map_cons, List.sum_cons] at hsize
    dsimp only
    rw [List.map_append, List.sum_append, List.map_cons, List.sum_cons, hleft]
    omega
  case size_lt => exact (Nat.sub_le _ _).trans_lt h.size_lt
  case waiting =>
    intro r hr
    rcases List.mem_cons.mp hr with rfl | hr
    · exact hwaiting
    · exact h.waiting r (hqueue ▸ List.mem_cons_of_mem req hr)
  case completed => exact h.completed
  case accepted =>
    rw [← h.accepted, requests, requests, hqueue]
    simp only [List.map_append, List.map_cons, habout]
  case sent =>
    obtain ⟨hsent, hrest⟩ := h.sent_eq hqueue
    dsimp only [requests]
    rw [hsent, List.append_assoc, ← taken_add req n habout hwritten]
    simp only [List.flatMap_append, List.flatMap_cons, hrest, List.append_nil]
  case unbegun =>
    intro r hr
    exact h.unbegun r (by rw [hqueue]; exact hr)

/-- **The end of a request**: it is completed, by an error or because the kernel has taken the last bytes. -/
theorem Inv.finish (h : s.Inv) {req req' : UvWrite} {queue : List UvWrite} {n size : ℕ}
    (hqueue : s.writeQueue = req :: queue) (hcompleted : req'.Completed) (habout : req'.about = req.about)
    (hwritten : req'.written = req.written + n)
    (hsize : size + req.left = s.writeQueueSize + req'.left) (hleft : req'.left ≤ req.left) :
    ({ s with
        writeQueueSize := size
        sent := s.sent ++ (req.data.drop req.written).take n
        writeQueue := queue
        writeCompletedQueue := s.writeCompletedQueue ++ [req'] } : UvStream).Inv := by
  constructor
  case size =>
    have hsum := h.size
    rw [hqueue, List.map_append, List.sum_append, List.map_cons, List.sum_cons] at hsum
    dsimp only
    rw [List.map_append, List.map_append, List.sum_append, List.sum_append, List.map_singleton,
      List.sum_singleton]
    omega
  case size_lt =>
    have hlt := h.size_lt
    dsimp only
    omega
  case waiting => exact fun r hr => h.waiting r (hqueue ▸ List.mem_cons_of_mem req hr)
  case completed =>
    intro r hr
    dsimp only at hr
    rw [← List.append_assoc] at hr
    rcases List.mem_append.mp hr with hr | hr
    · exact h.completed r hr
    · rw [List.mem_singleton.mp hr]
      exact hcompleted
  case accepted =>
    rw [← h.accepted, requests, requests, hqueue]
    simp only [List.map_append, List.map_cons, habout, List.append_assoc, List.cons_append,
      List.nil_append]
  case sent =>
    obtain ⟨hsent, hrest⟩ := h.sent_eq hqueue
    dsimp only [requests]
    rw [hsent, List.append_assoc, ← taken_add req n habout hwritten]
    simp only [List.flatMap_append, List.flatMap_cons, List.flatMap_nil, hrest, List.append_nil,
      List.append_assoc]
  case unbegun =>
    intro r hr
    refine h.unbegun r ?_
    rw [hqueue]
    exact List.mem_of_mem_tail hr

/-- A callback is called. -/
theorem Inv.callback (h : s.Inv) {req : UvWrite} {queue : List UvWrite}
    (hqueue : s.writeCompletedQueue = req :: queue) :
    req.bufs.elim 0 countBufs = req.left ∧ req.left ≤ s.writeQueueSize ∧
    ({ s with
        writeCompletedQueue := queue
        writeQueueSize := s.writeQueueSize - req.left
        called := s.called ++ [{ req with bufs := none }] } : UvStream).Inv := by
  have hsum := h.size
  rw [hqueue, List.cons_append, List.map_cons, List.sum_cons] at hsum
  have hlt := h.size_lt
  have hcount : req.bufs.elim 0 countBufs = req.left := by
    rw [UvWrite.left] at hsum ⊢
    cases hbufs : req.bufs with
    | none => rfl
    | some bufs =>
      rw [hbufs, Option.elim_some] at hsum
      exact Nat.mod_eq_of_lt (by omega)
  refine ⟨hcount, by omega, ?_⟩
  constructor
  case size =>
    dsimp only
    omega
  case size_lt => exact (Nat.sub_le _ _).trans_lt hlt
  case waiting => exact h.waiting
  case completed =>
    intro r hr
    dsimp only at hr
    rw [List.append_assoc, List.singleton_append] at hr
    have hold : ∀ r ∈ s.called ++ req :: queue, r.Completed := by
      rw [← hqueue]
      exact h.completed
    rcases List.mem_append.mp hr with hr | hr
    · exact hold r (List.mem_append_left _ hr)
    · rcases List.mem_cons.mp hr with rfl | hr
      · obtain ⟨hle, hwritten⟩ := hold req (List.mem_append_right _ List.mem_cons_self)
        exact ⟨hle, hwritten⟩
      · exact hold r (List.mem_append_right _ (List.mem_cons_of_mem req hr))
  case accepted =>
    rw [← h.accepted, requests, requests, hqueue]
    simp only [List.map_append, List.map_cons, List.append_assoc, List.cons_append, List.nil_append,
      UvWrite.about]
  case sent =>
    dsimp only [requests]
    rw [h.sent, requests, hqueue]
    simp only [List.flatMap_append, List.flatMap_cons, List.flatMap_nil, List.append_assoc,
      List.nil_append, UvWrite.taken]
  case unbegun => exact h.unbegun

/-- All waiting requests are completed with an error. -/
theorem Inv.flush (h : s.Inv) {error : ℤ} (herror : error ≠ 0) : (s.uvStreamFlushWriteQueue error).Inv := by
  have hrequests : (s.uvStreamFlushWriteQueue error).requests =
      s.called ++ (s.writeCompletedQueue ++ s.writeQueue.map fun req => { req with error }) := by
    simp only [requests, uvStreamFlushWriteQueue, List.append_nil]
  constructor
  case size =>
    have hleft : (s.writeQueue.map fun req => { req with error }).map UvWrite.left =
        s.writeQueue.map UvWrite.left := List.map_map
    simp only [uvStreamFlushWriteQueue, List.append_nil]
    rw [h.size, List.map_append, List.map_append, hleft]
  case size_lt => exact h.size_lt
  case waiting => exact fun r hr => absurd hr List.not_mem_nil
  case completed =>
    intro r hr
    simp only [uvStreamFlushWriteQueue, ← List.append_assoc] at hr
    rcases List.mem_append.mp hr with hr | hr
    · exact h.completed r hr
    · obtain ⟨req, hreq, rfl⟩ := List.mem_map.mp hr
      exact ⟨(h.waiting req hreq).written_le, fun hzero => absurd hzero herror⟩
  case accepted =>
    have habout : (s.writeQueue.map fun req => { req with error }).map UvWrite.about =
        s.writeQueue.map UvWrite.about := List.map_map
    rw [hrequests, List.map_append, List.map_append, habout]
    refine Eq.trans ?_ h.accepted
    rw [requests, List.append_assoc, List.map_append, List.map_append]
  case sent =>
    have htaken : (s.writeQueue.map fun req => { req with error }).flatMap UvWrite.taken =
        s.writeQueue.flatMap UvWrite.taken := List.flatMap_map ..
    rw [hrequests, List.flatMap_append, List.flatMap_append, htaken]
    refine Eq.trans h.sent ?_
    rw [requests, List.append_assoc, List.flatMap_append, List.flatMap_append]
  case unbegun => exact fun r hr => absurd hr List.not_mem_nil

/-- Writing to the memory, but not to the buffers of the waiting requests. -/
theorem Inv.setMemory (h : s.Inv) {memory : ℕ → UInt8}
    (hsame : ∀ req ∈ s.writeQueue, ∀ bufs ∈ req.bufs, bufsBytes memory bufs = bufsBytes s.memory bufs) :
    ({ s with memory } : UvStream).Inv where
  size := h.size
  size_lt := h.size_lt
  waiting := by
    intro req hreq
    obtain ⟨⟨bufs, hbufs, hne, hbytes⟩, herror, hle⟩ := h.waiting req hreq
    exact ⟨⟨bufs, hbufs, hne, (hsame req hreq bufs hbufs).trans hbytes⟩, herror, hle⟩
  completed := h.completed
  accepted := h.accepted
  sent := h.sent
  unbegun := h.unbegun

end UvStream

end MyUvpp
