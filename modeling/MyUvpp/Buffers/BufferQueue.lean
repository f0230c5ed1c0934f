import MyUvpp.Buffers.PodCircularBuffer

/-! # The circular buffer is a bounded queue

`PodCircularBuffer.content` reads the valid elements out of the array, from the read position round to
the write position. `write` and `read` act on it as the operations of `BoundedQueue` do, whatever
branch they take, and every run of operations answers as the abstract queue does. -/

namespace MyUvpp

namespace PodCircularBuffer

variable {T : Type*}

/-- A copy is safe when it stays inside the array and inside the buffer of the caller. -/
@[simp] theorem safe_memcpy (bufSize count pos off n : ℤ) :
    (BufferEffect.memcpy pos off n).Safe bufSize count ↔
      0 ≤ n ∧ 0 ≤ pos ∧ pos + n ≤ bufSize ∧ 0 ≤ off ∧ off + n ≤ count := Iff.rfl

/-- An assertion is safe when it holds. -/
@[simp] theorem safe_assert (bufSize count : ℤ) (p : Prop) [Decidable p] :
    (BufferEffect.assert p).Safe bufSize count ↔ p := decide_eq_true_iff

/-- The assertions about the positions hold when both are at most the size of the array. -/
@[simp] theorem safe_assertPositions (bufSize count nReadPos nWritePos : ℤ) :
    (∀ e ∈ assertPositions nReadPos nWritePos bufSize, e.Safe bufSize count) ↔
      nReadPos ≤ bufSize ∧ nWritePos ≤ bufSize := by
  simp [assertPositions]

/-- What the flags and positions satisfy between two operations. -/
structure Inv (b : PodCircularBuffer T) : Prop where
  readPos_nonneg : 0 ≤ b.nReadPos
  readPos_lt : b.nReadPos < b.nBufSize
  writePos_nonneg : 0 ≤ b.nWritePos
  writePos_lt : b.nWritePos < b.nBufSize
  of_empty : b.bEmpty = true → b.bFull = false ∧ b.nReadPos = b.nWritePos
  of_full : b.bFull = true → b.nReadPos = b.nWritePos
  of_eq : b.nReadPos = b.nWritePos → b.bEmpty = true ∨ b.bFull = true

/-- The valid elements, the oldest first, around the end of the array. -/
def content (b : PodCircularBuffer T) : List T := b.pBuf.readRing b.nBufSize b.nReadPos b.size

section Positions

variable {b : PodCircularBuffer T}

/-- After an element has been written: equal positions mean a full buffer. -/
theorem inv_of_written (hr : 0 ≤ b.nReadPos ∧ b.nReadPos < b.nBufSize)
    (hw : 0 ≤ b.nWritePos ∧ b.nWritePos < b.nBufSize) (he : b.bEmpty = false)
    (hf : b.bFull = decide (b.nReadPos = b.nWritePos)) :
    b.Inv ∧ b.size =
      if b.nReadPos < b.nWritePos then b.nWritePos - b.nReadPos
      else b.nBufSize - b.nReadPos + b.nWritePos := by
  refine ⟨⟨hr.1, hr.2, hw.1, hw.2, ?_, ?_, ?_⟩, ?_⟩
  · simp [he]
  · simp [hf]
  · intro heq
    exact .inr (by simp [hf, heq])
  · by_cases heq : b.nReadPos = b.nWritePos
    · simp [size, he, hf, heq]
    · simp [size, he, hf, heq]

/-- After an element has been read: equal positions mean an empty buffer. -/
theorem inv_of_consumed (hr : 0 ≤ b.nReadPos ∧ b.nReadPos < b.nBufSize)
    (hw : 0 ≤ b.nWritePos ∧ b.nWritePos < b.nBufSize) (hf : b.bFull = false)
    (he : b.bEmpty = decide (b.nReadPos = b.nWritePos)) :
    b.Inv ∧ b.size =
      if b.nReadPos ≤ b.nWritePos then b.nWritePos - b.nReadPos
      else b.nBufSize - b.nReadPos + b.nWritePos := by
  refine ⟨⟨hr.1, hr.2, hw.1, hw.2, ?_, ?_, ?_⟩, ?_⟩
  · simp [he, hf]
  · simp [hf]
  · intro heq
    exact .inl (by simp [he, heq])
  · by_cases heq : b.nReadPos = b.nWritePos
    · simp [size, he, heq]
    · have hiff : b.nReadPos < b.nWritePos ↔ b.nReadPos ≤ b.nWritePos := by omega
      simp [size, he, hf, heq, hiff]

/-- The four shapes of a buffer: empty, full, contiguous and wrapped. -/
theorem Inv.shape (h : b.Inv) :
    (b.bEmpty = true ∧ b.bFull = false ∧ b.nReadPos = b.nWritePos ∧ b.size = 0) ∨
      (b.bEmpty = false ∧ b.bFull = true ∧ b.nReadPos = b.nWritePos ∧ b.size = b.nBufSize) ∨
      (b.bEmpty = false ∧ b.bFull = false ∧ b.nReadPos < b.nWritePos ∧
        b.size = b.nWritePos - b.nReadPos) ∨
      (b.bEmpty = false ∧ b.bFull = false ∧ b.nWritePos < b.nReadPos ∧
        b.size = b.nBufSize - b.nReadPos + b.nWritePos) := by
  have hne : b.nReadPos ≠ b.nWritePos → b.bEmpty = false ∧ b.bFull = false := by
    intro hne
    constructor <;> rw [← Bool.not_eq_true]
    · exact fun he => hne (h.of_empty he).2
    · exact fun hf => hne (h.of_full hf)
  -- equal positions do not tell an empty buffer from a full one: the flags do
  rcases lt_trichotomy b.nReadPos b.nWritePos with hlt | heq | hgt
  · obtain ⟨he, hf⟩ := hne hlt.ne
    exact .inr (.inr (.inl ⟨he, hf, hlt, by simp [size, he, hf, hlt]⟩))
  · rcases h.of_eq heq with he | hf
    · exact .inl ⟨he, (h.of_empty he).1, heq, by simp [size, he]⟩
    · have he : b.bEmpty = false := by
        rw [← Bool.not_eq_true]
        intro he
        exact absurd ((h.of_empty he).1.symm.trans hf) (by decide)
      exact .inr (.inl ⟨he, hf, heq, by simp [size, he, hf]⟩)
  · obtain ⟨he, hf⟩ := hne hgt.ne'
    exact .inr (.inr (.inr ⟨he, hf, hgt, by simp [size, he, hf, hgt.le]⟩))

/-- The number of valid elements is not negative. -/
theorem size_nonneg (h : b.Inv) : 0 ≤ b.size := by
  have hr := h.readPos_lt
  have hw := h.writePos_nonneg
  have hr0 := h.readPos_nonneg
  rcases h.shape with ⟨-, -, -, hs⟩ | ⟨-, -, -, hs⟩ | ⟨-, -, hlt, hs⟩ | ⟨-, -, hlt, hs⟩ <;> omega

/-- There are at most as many valid elements as cells. -/
theorem size_le (h : b.Inv) : b.size ≤ b.nBufSize := by
  have hr := h.readPos_lt
  have hw := h.writePos_lt
  have hr0 := h.readPos_nonneg
  rcases h.shape with ⟨-, -, -, hs⟩ | ⟨-, -, -, hs⟩ | ⟨-, -, hlt, hs⟩ | ⟨-, -, hlt, hs⟩ <;> omega

/-- The write position is where the valid elements end, round the array. -/
theorem readPos_add_size (h : b.Inv) : (b.nReadPos + b.size) % b.nBufSize = b.nWritePos := by
  have hw := Int.emod_eq_of_lt h.writePos_nonneg h.writePos_lt
  rcases h.shape with ⟨-, -, heq, hs⟩ | ⟨-, -, heq, hs⟩ | ⟨-, -, -, hs⟩ | ⟨-, -, -, hs⟩
  · rw [hs, heq, add_zero, hw]
  · rw [hs, heq, Int.add_emod_right, hw]
  · rw [hs, add_sub_cancel, hw]
  · rw [hs, show b.nReadPos + (b.nBufSize - b.nReadPos + b.nWritePos) =
      b.nWritePos + b.nBufSize by ring, Int.add_emod_right, hw]

/-- The queue has as many elements as the buffer counts. -/
@[simp] theorem length_content (b : PodCircularBuffer T) : b.content.length = b.size.toNat :=
  Mem.length_readRing _ _ _ _

end Positions

/-! ### Writing -/

section Write

variable {b b' : PodCircularBuffer T} {buf : List T} {count : ℤ}

/-- A slice inside the buffer of the caller has the length that is asked for. -/
theorem length_slice (buf : List T) {off n : ℤ} (hoff : 0 ≤ off) (hn : 0 ≤ n)
    (h : off + n ≤ buf.length) : ((slice buf off n).length : ℤ) = n := by
  rw [slice, List.length_take, List.length_drop]
  omega

/-- A slice from the start is a prefix. -/
@[simp] theorem slice_zero (buf : List T) (n : ℤ) : slice buf 0 n = buf.take n.toNat := by
  rw [slice, Int.toNat_zero, List.drop_zero]

/-- Two consecutive parts of the caller's elements. -/
theorem slice_append (buf : List T) {m n : ℤ} (hm : 0 ≤ m) (hn : 0 ≤ n) :
    slice buf 0 m ++ slice buf m n = buf.take (m + n).toNat := by
  rw [slice_zero, slice, Int.toNat_add hm hn, ← List.take_add]

/-- One `memcpy` behind the valid elements appends to them. -/
theorem content_memcpy (h : b.Inv) {n : ℤ} (hn : 0 ≤ n) (hbuf : n ≤ buf.length)
    (hfit : b.nWritePos + n ≤ b.nBufSize) (hle : b.size + n ≤ b.nBufSize) :
    (b.pBuf.write b.nWritePos (slice buf 0 n)).readRing b.nBufSize b.nReadPos (b.size + n) =
      b.content ++ buf.take n.toNat := by
  have hlen := length_slice buf le_rfl hn (by omega)
  have happ := Mem.readRing_write_append b.pBuf (l := slice buf 0 n) (size_nonneg h)
    (readPos_add_size h) h.writePos_nonneg (by omega) (by omega)
  rw [hlen] at happ
  rw [happ, content, slice_zero]

/-- Two `memcpy` calls, to the end of the array and on from its start, append to the valid
elements. -/
theorem content_memcpy_wrap (h : b.Inv) {m n : ℤ} (hm : m = b.nBufSize - b.nWritePos) (hn : 0 ≤ n)
    (hbuf : m + n ≤ buf.length) (hle : b.size + (m + n) ≤ b.nBufSize) :
    ((b.pBuf.write b.nWritePos (slice buf 0 m)).write 0 (slice buf m n)).readRing b.nBufSize
        b.nReadPos (b.size + (m + n)) =
      b.content ++ buf.take (m + n).toNat := by
  have hw := h.writePos_lt
  have hs := size_nonneg h
  have hlen := length_slice buf (show 0 ≤ m by omega) hn hbuf
  have hfirst := content_memcpy h (show 0 ≤ m by omega) (show m ≤ buf.length by omega) (by omega)
    (by omega)
  -- the first copy ends at the end of the array, so that the ring goes on at its start
  have hpos : (b.nReadPos + (b.size + m)) % b.nBufSize = 0 := by
    rw [← add_assoc, ← Int.emod_add_emod, readPos_add_size h, hm, add_sub_cancel, Int.emod_self]
  have happ := Mem.readRing_write_append (b.pBuf.write b.nWritePos (slice buf 0 m))
    (l := slice buf m n) (n := b.size + m) (by omega) hpos le_rfl (by omega) (by omega)
  rw [hlen, hfirst, add_assoc] at happ
  rw [happ, List.append_assoc, ← slice_append buf (by omega) hn, slice_zero]

/-- What `write` does to the queue of valid elements. -/
structure Wrote (b : PodCircularBuffer T) (buf : List T) (count : ℤ)
    (r : PodCircularBuffer T × ℤ × List BufferEffect) : Prop where
  inv : r.1.Inv
  bufSize_eq : r.1.nBufSize = b.nBufSize
  count_eq : r.2.1 = min (max count 0) (b.nBufSize - b.size)
  content_eq : r.1.content = b.content ++ buf.take r.2.1.toNat
  safe : ∀ e ∈ r.2.2, e.Safe b.nBufSize count

/-- A branch of `write` that copies once. -/
theorem wrote_once (h : b.Inv) (hbuf : count ≤ buf.length) {n : ℤ} {log : List BufferEffect}
    (hn : 0 < n) (hcount : n = min count (b.nBufSize - b.size)) (hcap : b'.nBufSize = b.nBufSize)
    (hread : b'.nReadPos = b.nReadPos) (hwrite : b'.nWritePos = b.nWritePos + n)
    (hlt : b.nWritePos + n < b.nBufSize)
    (hpBuf : b'.pBuf = b.pBuf.write b.nWritePos (slice buf 0 n)) (he : b'.bEmpty = false)
    (hf : b'.bFull = decide (b'.nReadPos = b'.nWritePos))
    (hlog : ∀ e ∈ log, e.Safe b.nBufSize count) : Wrote b buf count (b', n, log) := by
  have hr0 := h.readPos_nonneg
  have hr := h.readPos_lt
  have hw0 := h.writePos_nonneg
  obtain ⟨hinv, hsize⟩ := inv_of_written (by omega) (by omega) he hf
  have hsize' : b'.size = b.size + n := by
    rw [hsize, hcap, hread, hwrite]
    rcases h.shape with ⟨-, -, heq, hs⟩ | ⟨-, -, heq, hs⟩ | ⟨-, -, hpos, hs⟩ | ⟨-, -, hpos, hs⟩ <;>
      omega
  refine ⟨hinv, hcap, by simp only; omega, ?_, hlog⟩
  rw [content, hcap, hread, hpBuf, hsize']
  exact content_memcpy h hn.le (by omega) hlt.le (by omega)

/-- A branch of `write` that copies to the end of the array and on from its start. -/
theorem wrote_twice (h : b.Inv) (hbuf : count ≤ buf.length) {m n : ℤ} {log : List BufferEffect}
    (hm : m = b.nBufSize - b.nWritePos) (hn : 0 ≤ n)
    (hcount : m + n = min count (b.nBufSize - b.size)) (hcap : b'.nBufSize = b.nBufSize)
    (hread : b'.nReadPos = b.nReadPos) (hwrite : b'.nWritePos = n)
    (hpBuf : b'.pBuf = (b.pBuf.write b.nWritePos (slice buf 0 m)).write 0 (slice buf m n))
    (he : b'.bEmpty = false) (hf : b'.bFull = decide (b'.nReadPos = b'.nWritePos))
    (hlog : ∀ e ∈ log, e.Safe b.nBufSize count) : Wrote b buf count (b', m + n, log) := by
  have hr0 := h.readPos_nonneg
  have hr := h.readPos_lt
  have hw := h.writePos_lt
  -- the second copy ends at the read position at the latest
  have hle : n ≤ b.nReadPos := by
    rcases h.shape with ⟨-, -, heq, hs⟩ | ⟨-, -, heq, hs⟩ | ⟨-, -, hpos, hs⟩ | ⟨-, -, hpos, hs⟩ <;>
      omega
  obtain ⟨hinv, hsize⟩ := inv_of_written (by omega) (by omega) he hf
  have hsize' : b'.size = b.size + (m + n) := by
    rw [hsize, hcap, hread, hwrite]
    rcases h.shape with ⟨-, -, heq, hs⟩ | ⟨-, -, heq, hs⟩ | ⟨-, -, hpos, hs⟩ | ⟨-, -, hpos, hs⟩ <;>
      omega
  refine ⟨hinv, hcap, by simp only; omega, ?_, hlog⟩
  rw [content, hcap, hread, hpBuf, hsize']
  exact content_memcpy_wrap h hm hn (by omega) (by omega)

/-- A branch of `write` that takes nothing. -/
theorem wrote_nothing (h : b.Inv) (hcount : 0 = min (max count 0) (b.nBufSize - b.size)) :
    Wrote b buf count (b, 0, []) where
  inv := h
  bufSize_eq := rfl
  count_eq := hcount
  content_eq := by simp
  safe := fun _ he => absurd he List.not_mem_nil

/-- An empty buffer: the positions are equal, and may be anywhere. -/
theorem wrote_empty (h : b.Inv) (hbuf : count ≤ buf.length) (hpos : ¬ count ≤ 0)
    (hf : b.bFull = false) (heq : b.nReadPos = b.nWritePos) (hsize : b.size = 0) :
    Wrote b buf count (b.write buf count) := by
  have hr0 := h.readPos_nonneg
  have hr := h.readPos_lt
  have hw0 := h.writePos_nonneg
  have hw := h.writePos_lt
  simp only [write]
  rw [if_neg hpos, if_neg (by rw [hf]; exact Bool.false_ne_true), if_pos heq]
  split
  case isTrue hroom =>
    -- one copy, up to the end of the array at most
    refine wrote_once h hbuf (by omega) (by omega) rfl rfl rfl (by omega) rfl rfl ?_ ?_
    · rw [hf]
      exact (decide_eq_false (by show b.nReadPos ≠ b.nWritePos + count; omega)).symm
    · simp only [List.mem_singleton, forall_eq, BufferEffect.Safe]
      omega
  case isFalse hwrap =>
    -- two copies: to the end of the array, and from its beginning
    refine wrote_twice h hbuf rfl ?_ ?_ rfl rfl rfl rfl rfl ?_ ?_
    · split <;> omega
    · split <;> omega
    · -- this branch compares the positions the other way round
      exact decide_eq_decide.mpr eq_comm
    · simp only [List.forall_mem_cons, BufferEffect.Safe, List.not_mem_nil, false_imp_iff,
        implies_true, and_true]
      split <;> omega

/-- The valid elements are contiguous: the free cells are at both ends. -/
theorem wrote_contiguous (h : b.Inv) (hbuf : count ≤ buf.length) (hpos : ¬ count ≤ 0)
    (hf : b.bFull = false) (hlt : b.nReadPos < b.nWritePos)
    (hsize : b.size = b.nWritePos - b.nReadPos) : Wrote b buf count (b.write buf count) := by
  have hr0 := h.readPos_nonneg
  have hw := h.writePos_lt
  simp only [write]
  rw [if_neg hpos, if_neg (by rw [hf]; exact Bool.false_ne_true), if_neg hlt.ne, if_pos hlt]
  split
  case isTrue hroom =>
    refine wrote_once h hbuf (by omega) (by omega) rfl rfl rfl (by omega) rfl rfl rfl ?_
    simp only [List.forall_mem_cons, safe_memcpy, safe_assertPositions]
    omega
  case isFalse hwrap =>
    refine wrote_twice h hbuf rfl ?_ ?_ rfl rfl rfl rfl rfl rfl ?_
    · split <;> omega
    · split <;> omega
    · simp only [List.forall_mem_cons, safe_memcpy, safe_assertPositions]
      split <;> omega

/-- They are wrapped: the free cells are in the middle, and one copy reaches all of them. -/
theorem wrote_wrapped (h : b.Inv) (hbuf : count ≤ buf.length) (hpos : ¬ count ≤ 0)
    (hf : b.bFull = false) (hgt : b.nWritePos < b.nReadPos)
    (hsize : b.size = b.nBufSize - b.nReadPos + b.nWritePos) :
    Wrote b buf count (b.write buf count) := by
  have hr := h.readPos_lt
  have hw0 := h.writePos_nonneg
  simp only [write]
  rw [if_neg hpos, if_neg (by rw [hf]; exact Bool.false_ne_true), if_neg hgt.ne', if_neg hgt.not_gt]
  split
  case isTrue hroom =>
    refine wrote_once h hbuf (by omega) (by omega) rfl rfl rfl (by omega) rfl rfl rfl ?_
    simp only [List.forall_mem_cons, safe_memcpy, safe_assertPositions]
    omega
  case isFalse hfill =>
    refine wrote_once h hbuf (by omega) (by omega) rfl rfl rfl (by omega) rfl rfl rfl ?_
    simp only [List.forall_mem_cons, safe_memcpy, safe_assert, safe_assertPositions]
    omega

/-- `write` appends to the valid elements as many of the caller's as there is room for. -/
theorem write_spec (h : b.Inv) (hbuf : count ≤ buf.length) :
    Wrote b buf count (b.write buf count) := by
  have hs := size_le h
  have hs0 := size_nonneg h
  by_cases hneg : count ≤ 0
  · have hnothing : b.write buf count = (b, 0, []) := if_pos hneg
    rw [hnothing]
    exact wrote_nothing h (by omega)
  -- the flags say which of the four shapes the buffer has
  rcases h.shape with ⟨-, hf, heq, hsize⟩ | ⟨-, hfull, -, hsize⟩ | ⟨-, hf, hlt, hsize⟩ |
    ⟨-, hf, hgt, hsize⟩
  · exact wrote_empty h hbuf hneg hf heq hsize
  · have hnothing : b.write buf count = (b, 0, []) := (if_neg hneg).trans (if_pos hfull)
    rw [hnothing]
    exact wrote_nothing h (by omega)
  · exact wrote_contiguous h hbuf hneg hf hlt hsize
  · exact wrote_wrapped h hbuf hneg hf hgt hsize

end Write

/-! ### Reading -/

section Read

variable {b b' : PodCircularBuffer T} {buf : Mem T} {count : ℤ}

/-- What `read` does to the queue of valid elements and to the caller's memory. -/
structure Took (b : PodCircularBuffer T) (buf : Mem T) (count : ℤ)
    (r : PodCircularBuffer T × Mem T × ℤ × List BufferEffect) : Prop where
  inv : r.1.Inv
  bufSize_eq : r.1.nBufSize = b.nBufSize
  count_eq : r.2.2.1 = min (max count 0) b.size
  data_eq : r.2.1.read 0 r.2.2.1 = b.content.take r.2.2.1.toNat
  frame : ∀ i, i < 0 ∨ r.2.2.1 ≤ i → r.2.1 i = buf i
  content_eq : r.1.content = b.content.drop r.2.2.1.toNat
  safe : ∀ e ∈ r.2.2.2, e.Safe b.nBufSize count

/-- The first `n` valid elements and the others. -/
theorem content_split {n : ℤ} (hn : 0 ≤ n) (hle : n ≤ b.size) :
    b.content.take n.toNat = b.pBuf.readRing b.nBufSize b.nReadPos n ∧
      b.content.drop n.toNat =
        b.pBuf.readRing b.nBufSize ((b.nReadPos + n) % b.nBufSize) (b.size - n) := by
  have hsplit := Mem.readRing_add b.pBuf b.nBufSize b.nReadPos hn (b := b.size - n) (by omega)
  rw [add_sub_cancel] at hsplit
  have hlen := Mem.length_readRing b.pBuf b.nBufSize b.nReadPos n
  rw [content, hsplit]
  exact ⟨List.take_left' hlen, List.drop_left' hlen⟩

/-- A branch of `read` that copies once. -/
theorem took_once (h : b.Inv) {n : ℤ} {log : List BufferEffect} (hn : 0 < n)
    (hcount : n = min count b.size) (hcap : b'.nBufSize = b.nBufSize)
    (hwrite : b'.nWritePos = b.nWritePos) (hread : b'.nReadPos = b.nReadPos + n)
    (hlt : b.nReadPos + n < b.nBufSize) (hpBuf : b'.pBuf = b.pBuf) (hf : b'.bFull = false)
    (he : b'.bEmpty = decide (b'.nReadPos = b'.nWritePos))
    (hlog : ∀ e ∈ log, e.Safe b.nBufSize count) :
    Took b buf count (b', buf.write 0 (b.pBuf.read b.nReadPos n), n, log) := by
  have hr0 := h.readPos_nonneg
  have hw0 := h.writePos_nonneg
  have hw := h.writePos_lt
  obtain ⟨hinv, hsize⟩ := inv_of_consumed (by omega) (by omega) hf he
  have hsize' : b'.size = b.size - n := by
    rw [hsize, hcap, hread, hwrite]
    rcases h.shape with ⟨-, -, heq, hs⟩ | ⟨-, -, heq, hs⟩ | ⟨-, -, hpos, hs⟩ | ⟨-, -, hpos, hs⟩ <;>
      omega
  obtain ⟨htake, hdrop⟩ := content_split hn.le (b := b) (by omega)
  have hlen : n = (b.pBuf.read b.nReadPos n).length := by
    rw [Mem.length_read]
    omega
  refine ⟨hinv, hcap, by simp only; omega, ?_, ?_, ?_, hlog⟩
  · rw [htake, Mem.readRing_of_le _ hr0 hlt.le]
    exact Mem.read_write _ _ _ hlen
  · rintro i (hi | hi)
    · exact Mem.write_of_lt _ _ hi
    · exact Mem.write_of_ge _ _ (by rw [zero_add, ← hlen]; exact hi)
  · rw [hdrop, Int.emod_eq_of_lt (by omega) hlt, content, hcap, hread, hpBuf, hsize']

/-- A branch of `read` that copies to the end of the array and on from its start. -/
theorem took_twice (h : b.Inv) {m n : ℤ} {log : List BufferEffect}
    (hm : m = b.nBufSize - b.nReadPos) (hn : 0 ≤ n) (hcount : m + n = min count b.size)
    (hcap : b'.nBufSize = b.nBufSize) (hwrite : b'.nWritePos = b.nWritePos)
    (hread : b'.nReadPos = n) (hpBuf : b'.pBuf = b.pBuf) (hf : b'.bFull = false)
    (he : b'.bEmpty = decide (b'.nReadPos = b'.nWritePos))
    (hlog : ∀ e ∈ log, e.Safe b.nBufSize count) :
    Took b buf count (b', (buf.write 0 (b.pBuf.read b.nReadPos m)).write m (b.pBuf.read 0 n), m + n,
      log) := by
  have hr0 := h.readPos_nonneg
  have hr := h.readPos_lt
  have hw0 := h.writePos_nonneg
  have hw := h.writePos_lt
  have hs := size_le h
  -- the second copy ends at the write position at the latest
  have hle : n ≤ b.nWritePos := by
    rcases h.shape with ⟨-, -, heq, hs⟩ | ⟨-, -, heq, hs⟩ | ⟨-, -, hpos, hs⟩ | ⟨-, -, hpos, hs⟩ <;>
      omega
  obtain ⟨hinv, hsize⟩ := inv_of_consumed (by omega) (by omega) hf he
  have hsize' : b'.size = b.size - (m + n) := by
    rw [hsize, hcap, hread, hwrite]
    rcases h.shape with ⟨-, -, heq, hs⟩ | ⟨-, -, heq, hs⟩ | ⟨-, -, hpos, hs⟩ | ⟨-, -, hpos, hs⟩ <;>
      omega
  obtain ⟨htake, hdrop⟩ := content_split (n := m + n) (by omega) (b := b) (by omega)
  have hlenm : m = (b.pBuf.read b.nReadPos m).length := by
    rw [Mem.length_read]
    omega
  have hlenn : n = (b.pBuf.read 0 n).length := by
    rw [Mem.length_read]
    omega
  refine ⟨hinv, hcap, by simp only; omega, ?_, ?_, ?_, hlog⟩
  · have happ := Mem.read_write_append (buf.write 0 (b.pBuf.read b.nReadPos m)) 0 (k := m)
      (n := m + n) (b.pBuf.read 0 n) (by omega) (by omega)
    have hring := Mem.readRing_of_ge b.pBuf (n := m + n) hr0 hr.le (by omega) (by omega)
    rw [← hm, add_sub_cancel_left] at hring
    rw [zero_add] at happ
    simp only
    rw [happ, Mem.read_write _ _ _ hlenm, htake, hring]
  · rintro i (hi | hi)
    · exact (Mem.write_of_lt _ _ (by omega)).trans (Mem.write_of_lt _ _ hi)
    · simp only at hi
      exact (Mem.write_of_ge _ _ (by omega)).trans (Mem.write_of_ge _ _ (by omega))
  · have hpos : (b.nReadPos + (m + n)) % b.nBufSize = n := by
      rw [hm, show b.nReadPos + (b.nBufSize - b.nReadPos + n) = n + b.nBufSize by ring,
        Int.add_emod_right, Int.emod_eq_of_lt hn (by omega)]
    simp only
    rw [hdrop, hpos, content, hcap, hread, hpBuf, hsize']

/-- A branch of `read` that takes nothing. -/
theorem took_nothing (h : b.Inv) (hcount : 0 = min (max count 0) b.size) :
    Took b buf count (b, buf, 0, []) where
  inv := h
  bufSize_eq := rfl
  count_eq := hcount
  data_eq := by simp
  frame := fun _ _ => rfl
  content_eq := by simp
  safe := fun _ he => absurd he List.not_mem_nil

/-- `read` hands over the oldest valid elements, as many as are asked for and there are. -/
theorem read_spec (h : b.Inv) (buf : Mem T) (count : ℤ) :
    Took b buf count (b.read buf count) := by
  have hr0 := h.readPos_nonneg
  have hr := h.readPos_lt
  have hw0 := h.writePos_nonneg
  have hw := h.writePos_lt
  have hs0 := size_nonneg h
  simp only [read]
  split
  case isTrue hneg => exact took_nothing h (by omega)
  case isFalse hpos =>
  rcases h.shape with ⟨he, -, -, hsize⟩ | ⟨he, -, heq, hsize⟩ | ⟨he, -, hlt, hsize⟩ |
    ⟨he, -, hgt, hsize⟩
  · -- empty
    rw [if_pos he]
    exact took_nothing h (by omega)
  · -- full: the positions are equal, and everything up to the end comes first
    rw [if_neg (by simp [he]), if_pos heq]
    split
    case isTrue hroom =>
      refine took_once h (by omega) (by omega) rfl rfl rfl (by omega) rfl rfl rfl ?_
      simp only [List.mem_singleton, forall_eq, BufferEffect.Safe]
      omega
    case isFalse hwrap =>
      -- two copies: to the end of the array, and from its beginning
      refine took_twice h rfl ?_ ?_ rfl rfl rfl rfl rfl rfl ?_
      · split <;> omega
      · split <;> omega
      · simp only [List.forall_mem_cons, BufferEffect.Safe, List.not_mem_nil, false_imp_iff,
          implies_true, and_true]
        split <;> omega
  · -- contiguous: one copy, of what is asked for or all there is
    rw [if_neg (by simp [he]), if_neg hlt.ne, if_pos hlt]
    refine took_once h ?_ ?_ rfl rfl rfl ?_ rfl rfl rfl ?_
    · split <;> omega
    · split <;> omega
    · split <;> omega
    · simp only [List.forall_mem_cons, safe_memcpy, safe_assertPositions]
      split <;> omega
  · -- wrapped: the oldest elements are those up to the end of the array
    rw [if_neg (by simp [he]), if_neg hgt.ne', if_neg hgt.not_gt]
    split
    case isTrue hroom =>
      refine took_once h (by omega) (by omega) rfl rfl rfl (by omega) rfl rfl rfl ?_
      simp only [List.forall_mem_cons, safe_memcpy, safe_assertPositions]
      omega
    case isFalse hwrap =>
      refine took_twice h rfl ?_ ?_ rfl rfl rfl rfl rfl rfl ?_
      · split <;> omega
      · split <;> omega
      · simp only [List.forall_mem_cons, safe_memcpy, safe_assertPositions]
        split <;> omega

end Read

/-! ### Clearing and starting -/

/-- Where `bEmpty` is set there are no valid elements. -/
theorem content_of_empty {b : PodCircularBuffer T} (he : b.bEmpty = true) : b.content = [] := by
  rw [content, size, if_pos he]
  rfl

/-- Whatever the fields, `clear` leaves an empty buffer. -/
theorem clear_spec {b : PodCircularBuffer T} (h : b.Inv) : b.clear.Inv ∧ b.clear.content = [] := by
  have hcap : 0 < b.nBufSize := lt_of_le_of_lt h.readPos_nonneg h.readPos_lt
  exact ⟨⟨le_rfl, hcap, le_rfl, hcap, fun _ => ⟨rfl, rfl⟩, fun _ => rfl, fun _ => .inl rfl⟩,
    content_of_empty rfl⟩

/-- A new buffer is empty. -/
theorem new_spec {capacity : ℤ} (hcap : 1 ≤ capacity) (pBuf : Mem T) :
    (new capacity pBuf).Inv ∧ (new capacity pBuf).content = [] := by
  have hpos : 0 < capacity := by omega
  exact ⟨⟨le_rfl, hpos, le_rfl, hpos, fun _ => ⟨rfl, rfl⟩, fun _ => rfl, fun _ => .inl rfl⟩,
    content_of_empty rfl⟩

/-- `empty` says that there are no valid elements. -/
theorem empty_iff {b : PodCircularBuffer T} (h : b.Inv) : b.empty = true ↔ b.size = 0 := by
  have hr := h.readPos_lt
  have hw0 := h.writePos_nonneg
  have hr0 := h.readPos_nonneg
  rcases h.shape with ⟨he, -, -, hs⟩ | ⟨he, -, -, hs⟩ | ⟨he, -, hlt, hs⟩ | ⟨he, -, hgt, hs⟩ <;>
    simp only [empty, he, Bool.false_eq_true, true_iff, false_iff] <;> omega

/-- `full` says that every cell has a valid element. -/
theorem full_iff {b : PodCircularBuffer T} (h : b.Inv) : b.full = true ↔ b.size = b.nBufSize := by
  have hr := h.readPos_lt
  have hr0 := h.readPos_nonneg
  have hw := h.writePos_lt
  rcases h.shape with ⟨-, hf, -, hs⟩ | ⟨-, hf, -, hs⟩ | ⟨-, hf, hlt, hs⟩ | ⟨-, hf, hgt, hs⟩ <;>
    simp only [full, hf, Bool.false_eq_true, true_iff, false_iff] <;> omega

/-! ### Runs of operations -/

/-- A call on the buffer. The caller of `write` owns at least `count` elements. -/
inductive Call (T : Type*) where
  | write (buf : List T) (count : ℤ) (h : count ≤ buf.length)
  | read (buf : Mem T) (count : ℤ)
  | clear

/-- What a call returns: the number of elements, the elements a `read` hands over, and the effects
with the `count` they are to stay inside. -/
structure Answer (T : Type*) where
  moved : ℤ
  data : List T
  count : ℤ
  log : List BufferEffect

/-- One call on the buffer, with its answer and the record of what it has copied. -/
def call (b : PodCircularBuffer T) : Call T → PodCircularBuffer T × Answer T
  | .write buf count _ =>
    let (b, n, log) := b.write buf count
    (b, ⟨n, [], count, log⟩)
  | .read buf count =>
    let (b, buf, n, log) := b.read buf count
    (b, ⟨n, buf.read 0 n, count, log⟩)
  | .clear => (b.clear, ⟨0, [], 0, []⟩)

/-- A sequence of calls and their answers. -/
def calls (b : PodCircularBuffer T) : List (Call T) → PodCircularBuffer T × List (Answer T)
  | [] => (b, [])
  | c :: cs =>
    let (b, a) := b.call c
    let (b, as) := b.calls cs
    (b, a :: as)

end PodCircularBuffer

namespace BoundedQueue

variable {T : Type*} {capacity : ℕ}

/-- What a call does to the abstract queue, the number of elements it moves, and those it hands
over. -/
def call (q : BoundedQueue T capacity) :
    PodCircularBuffer.Call T → BoundedQueue T capacity × ℤ × List T
  | .write buf count _ =>
    (q.write (buf.take count.toNat), (q.accepts (buf.take count.toNat)).length, [])
  | .read _ count => (q.read count.toNat, (q.front count.toNat).length, q.front count.toNat)
  | .clear => (empty, 0, [])

/-- A sequence of calls on the abstract queue. -/
def calls (q : BoundedQueue T capacity) :
    List (PodCircularBuffer.Call T) → BoundedQueue T capacity × List (ℤ × List T)
  | [] => (q, [])
  | c :: cs =>
    let (q, a) := q.call c
    let (q, as) := q.calls cs
    (q, a :: as)

end BoundedQueue

namespace PodCircularBuffer

variable {T : Type*} {capacity : ℕ}

/-- The buffer represents the abstract queue: it is in order, and its valid elements are the queue. -/
structure Represents (b : PodCircularBuffer T) (q : BoundedQueue T capacity) : Prop where
  inv : b.Inv
  bufSize_eq : b.nBufSize = capacity
  content_eq : b.content = q.content

/-- The answer of the buffer is that of the abstract queue, with all effects in bounds. -/
structure Agrees (capacity : ℕ) (a : Answer T) (r : ℤ × List T) : Prop where
  moved_eq : a.moved = r.1
  data_eq : a.data = r.2
  safe : ∀ e ∈ a.log, e.Safe capacity a.count

/-- One call on the buffer is one call on the queue. -/
theorem call_refines {b : PodCircularBuffer T} {q : BoundedQueue T capacity} (h : b.Represents q)
    (c : Call T) :
    (b.call c).1.Represents (q.call c).1 ∧ Agrees capacity (b.call c).2 (q.call c).2 := by
  have hsize := congrArg List.length h.content_eq
  rw [length_content] at hsize
  have hs0 := size_nonneg h.inv
  have hcap := h.bufSize_eq
  have hle := q.length_le
  cases c with
  | write buf count hbuf =>
    have hw := write_spec h.inv hbuf
    have hcount := hw.count_eq
    -- both take what is asked for or what there is room for, whichever is less
    have htake : buf.take (b.write buf count).2.1.toNat = q.accepts (buf.take count.toNat) := by
      rw [BoundedQueue.accepts, List.take_take, hcount]
      congr 1
      omega
    refine ⟨⟨hw.inv, hw.bufSize_eq.trans hcap, ?_⟩, ⟨?_, rfl, ?_⟩⟩
    · show (b.write buf count).1.content = q.content ++ q.accepts (buf.take count.toNat)
      rw [hw.content_eq, h.content_eq, htake]
    · show (b.write buf count).2.1 = ((q.accepts (buf.take count.toNat)).length : ℤ)
      rw [← htake, List.length_take, hcount]
      omega
    · exact hcap ▸ hw.safe
  | read buf count =>
    have hr := read_spec h.inv buf count
    have hcount := hr.count_eq
    have hn : (b.read buf count).2.2.1.toNat = min count.toNat q.content.length := by omega
    have hfront : b.content.take (b.read buf count).2.2.1.toNat = q.front count.toNat := by
      rw [BoundedQueue.front, h.content_eq, hn, List.take_eq_take_min]
      simp
    refine ⟨⟨hr.inv, hr.bufSize_eq.trans hcap, ?_⟩, ⟨?_, ?_, ?_⟩⟩
    · show (b.read buf count).1.content = q.content.drop count.toNat
      rw [hr.content_eq, h.content_eq, hn]
      -- a read that asks for more than there is leaves nothing on either side
      rcases le_total count.toNat q.content.length with hlt | hge
      · rw [min_eq_left hlt]
      · rw [min_eq_right hge, List.drop_length, List.drop_eq_nil_of_le hge]
    · show (b.read buf count).2.2.1 = ((q.front count.toNat).length : ℤ)
      rw [BoundedQueue.length_front]
      omega
    · show (b.read buf count).2.1.read 0 (b.read buf count).2.2.1 = q.front count.toNat
      rw [hr.data_eq, hfront]
    · exact hcap ▸ hr.safe
  | clear =>
    obtain ⟨hinv, hcontent⟩ := clear_spec h.inv
    exact ⟨⟨hinv, hcap, hcontent⟩, ⟨rfl, rfl, fun _ he => absurd he List.not_mem_nil⟩⟩

/-- A run of calls on the buffer is one on the queue. -/
theorem calls_refines {b : PodCircularBuffer T} {q : BoundedQueue T capacity} (h : b.Represents q)
    (cs : List (Call T)) :
    (b.calls cs).1.Represents (q.calls cs).1 ∧
      List.Forall₂ (Agrees capacity) (b.calls cs).2 (q.calls cs).2 := by
  induction cs generalizing b q with
  | nil => exact ⟨h, .nil⟩
  | cons c cs ih =>
    obtain ⟨hrep, hagree⟩ := call_refines h c
    obtain ⟨hrep', hagree'⟩ := ih hrep
    exact ⟨hrep', .cons hagree hagree'⟩

end PodCircularBuffer

open PodCircularBuffer in
/-- **The circular buffer refines a bounded queue.** After any sequence of calls on a new buffer, with
any counts, the answers were those of the abstract queue, every `memcpy` stayed in bounds and every
assertion held, and the buffer reports the state of the queue. -/
theorem podCircularBuffer_refines {T : Type*} (capacity : ℕ) (hcap : 1 ≤ capacity) (pBuf : Mem T)
    (cs : List (Call T)) :
    let b := ((new capacity pBuf).calls cs).1
    let q := ((BoundedQueue.empty : BoundedQueue T capacity).calls cs).1
    List.Forall₂ (Agrees capacity) ((new capacity pBuf).calls cs).2
        ((BoundedQueue.empty : BoundedQueue T capacity).calls cs).2 ∧
      b.content = q.content ∧ b.size = q.content.length ∧ q.content.length ≤ capacity ∧
      (b.empty = true ↔ q.content.length = 0) ∧ (b.full = true ↔ q.content.length = capacity) ∧
      (0 ≤ b.nReadPos ∧ b.nReadPos ≤ capacity - 1) ∧
      (0 ≤ b.nWritePos ∧ b.nWritePos ≤ capacity - 1) := by
  obtain ⟨hinv, hcontent⟩ := new_spec (show (1 : ℤ) ≤ capacity by omega) pBuf
  have hnew : (new capacity pBuf).Represents (.empty : BoundedQueue T capacity) :=
    ⟨hinv, rfl, hcontent⟩
  obtain ⟨hrep, hagree⟩ := calls_refines hnew cs
  have hsize := congrArg List.length hrep.content_eq
  rw [length_content] at hsize
  have hs0 := size_nonneg hrep.inv
  have hbuf := hrep.bufSize_eq
  have hr := hrep.inv.readPos_lt
  have hw := hrep.inv.writePos_lt
  refine ⟨hagree, hrep.content_eq, by omega, BoundedQueue.length_le _, ?_, ?_,
    ⟨hrep.inv.readPos_nonneg, by omega⟩, ⟨hrep.inv.writePos_nonneg, by omega⟩⟩
  · rw [empty_iff hrep.inv]
    omega
  · rw [full_iff hrep.inv]
    omega

open PodCircularBuffer in
/-- Three cells: a write that wraps round the array and is cut short, and a read of all there is. -/
theorem podCircularBuffer_refines_three_cells :
    List.Forall₂ (Agrees 3)
      ((new 3 fun _ => 0).calls [.write [1, 2] 2 (by decide), .read (fun _ => 0) 1,
        .write [3, 4, 5] 3 (by decide), .write [6] (-1) (by decide), .read (fun _ => 0) 5]).2
      [(2, []), (1, [1]), (2, []), (0, []), (3, [2, 3, 4])] :=
  (podCircularBuffer_refines 3 (by decide) _ _).1

end MyUvpp
