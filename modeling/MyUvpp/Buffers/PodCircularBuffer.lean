import MyUvpp.Foundation.BoundedQueue
import MyUvpp.Foundation.Memory

/-! # The circular buffer (`pod_circularbuffer.h`)

`PodCircularBuffer` with its two positions, its two flags and every branch of `write` and `read`. The
ranges of the `memcpy` calls and the asserted conditions are recorded next to the result. -/

namespace MyUvpp

/-- The fields of `PodCircularBuffer<T>`: an array, the two positions and the two flags. -/
structure PodCircularBuffer (T : Type*) where
  bEmpty : Bool
  bFull : Bool
  /-- `m_pBuf`, an array of `nBufSize` elements. -/
  pBuf : Mem T
  nBufSize : ℤ
  nReadPos : ℤ
  nWritePos : ℤ

/-- What `write` and `read` do besides changing the fields. -/
inductive BufferEffect where
  /-- `memcpy` of `n` elements between `m_pBuf[pos]` and `buf[off]`. -/
  | memcpy (pos off n : ℤ)
  /-- `assert` of a condition. -/
  | assert (holds : Bool)
  deriving DecidableEq

/-- The copied range lies inside the array of `bufSize` elements and the caller's `count` elements, or
the asserted condition holds. -/
def BufferEffect.Safe (bufSize count : ℤ) : BufferEffect → Prop
  | .memcpy pos off n =>
    0 ≤ n ∧ 0 ≤ pos ∧ pos + n ≤ bufSize ∧ 0 ≤ off ∧ off + n ≤ count
  | .assert holds => holds = true

/-- The `n` elements from `buf[off]` on, the source or the destination of a `memcpy`. -/
def slice {T : Type*} (buf : List T) (off n : ℤ) : List T := (buf.drop off.toNat).take n.toNat

namespace PodCircularBuffer

variable {T : Type*}

/-- The constructor; the array is not initialised. -/
def new (capacity : ℤ) (pBuf : Mem T) : PodCircularBuffer T where
  bEmpty := true
  bFull := false
  pBuf
  nBufSize := capacity
  nReadPos := 0
  nWritePos := 0

/-- `full`, which reads the flag. -/
def full (b : PodCircularBuffer T) : Bool := b.bFull

/-- `empty`, which reads the flag. -/
def empty (b : PodCircularBuffer T) : Bool := b.bEmpty

/-- `clear`: the positions go to the start, and the elements stay in the array. -/
def clear (b : PodCircularBuffer T) : PodCircularBuffer T :=
  { b with nReadPos := 0, nWritePos := 0, bEmpty := true, bFull := false }

/-- `size`: the number of valid elements, from the flags and the two positions. -/
def size (b : PodCircularBuffer T) : ℤ :=
  if b.bEmpty then 0
  else if b.bFull then b.nBufSize
  else if b.nReadPos < b.nWritePos then b.nWritePos - b.nReadPos
  else b.nBufSize - b.nReadPos + b.nWritePos

/-- The two assertions at the end of most branches. -/
def assertPositions (nReadPos nWritePos nBufSize : ℤ) : List BufferEffect :=
  [.assert (nReadPos ≤ nBufSize), .assert (nWritePos ≤ nBufSize)]

/-- `write(buf, count)`: the buffer, the number of elements written, and the effects. -/
def write (b : PodCircularBuffer T) (buf : List T) (count : ℤ) :
    PodCircularBuffer T × ℤ × List BufferEffect :=
  if count ≤ 0 then (b, 0, [])
  else if b.bFull then (b, 0, [])
  else
    let b := { b with bEmpty := false }
    if b.nReadPos = b.nWritePos then
      -- the buffer is empty
      let leftcount := b.nBufSize - b.nWritePos
      if leftcount > count then
        ({ b with
            pBuf := b.pBuf.write b.nWritePos (slice buf 0 count)
            nWritePos := b.nWritePos + count },
          count, [.memcpy b.nWritePos 0 count])
      else
        let nWritePos := if b.nReadPos > count - leftcount then count - leftcount else b.nWritePos
        ({ b with
            pBuf := (b.pBuf.write b.nWritePos (slice buf 0 leftcount)).write 0
              (slice buf leftcount nWritePos)
            nWritePos
            bFull := nWritePos = b.nReadPos },
          leftcount + nWritePos, [.memcpy b.nWritePos 0 leftcount, .memcpy 0 leftcount nWritePos])
    else if b.nReadPos < b.nWritePos then
      -- the free cells are at both ends
      let leftcount := b.nBufSize - b.nWritePos
      if leftcount > count then
        let nWritePos := b.nWritePos + count
        ({ b with
            pBuf := b.pBuf.write b.nWritePos (slice buf 0 count)
            nWritePos
            bFull := b.nReadPos = nWritePos },
          count, .memcpy b.nWritePos 0 count :: assertPositions b.nReadPos nWritePos b.nBufSize)
      else
        let nWritePos := if b.nReadPos ≥ count - leftcount then count - leftcount else b.nReadPos
        ({ b with
            pBuf := (b.pBuf.write b.nWritePos (slice buf 0 leftcount)).write 0
              (slice buf leftcount nWritePos)
            nWritePos
            bFull := b.nReadPos = nWritePos },
          leftcount + nWritePos,
          .memcpy b.nWritePos 0 leftcount :: .memcpy 0 leftcount nWritePos ::
            assertPositions b.nReadPos nWritePos b.nBufSize)
    else
      -- the free cells are in the middle
      let leftcount := b.nReadPos - b.nWritePos
      if leftcount > count then
        let nWritePos := b.nWritePos + count
        ({ b with
            pBuf := b.pBuf.write b.nWritePos (slice buf 0 count)
            nWritePos
            bFull := b.nReadPos = nWritePos },
          count, .memcpy b.nWritePos 0 count :: assertPositions b.nReadPos nWritePos b.nBufSize)
      else
        let nWritePos := b.nWritePos + leftcount
        ({ b with
            pBuf := b.pBuf.write b.nWritePos (slice buf 0 leftcount)
            nWritePos
            bFull := b.nReadPos = nWritePos },
          leftcount,
          .memcpy b.nWritePos 0 leftcount :: .assert (b.nReadPos = nWritePos) ::
            assertPositions b.nReadPos nWritePos b.nBufSize)

/-- `read(buf, count)`: the buffer, the caller's memory, the number of elements read, and the
effects. -/
def read (b : PodCircularBuffer T) (buf : Mem T) (count : ℤ) :
    PodCircularBuffer T × Mem T × ℤ × List BufferEffect :=
  if count ≤ 0 then (b, buf, 0, [])
  else if b.bEmpty then (b, buf, 0, [])
  else
    let b := { b with bFull := false }
    if b.nReadPos = b.nWritePos then
      -- the buffer is full
      let leftcount := b.nBufSize - b.nReadPos
      if leftcount > count then
        let nReadPos := b.nReadPos + count
        ({ b with nReadPos, bEmpty := nReadPos = b.nWritePos },
          buf.write 0 (b.pBuf.read b.nReadPos count), count, [.memcpy b.nReadPos 0 count])
      else
        let nReadPos := if b.nWritePos > count - leftcount then count - leftcount else b.nWritePos
        ({ b with nReadPos, bEmpty := nReadPos = b.nWritePos },
          (buf.write 0 (b.pBuf.read b.nReadPos leftcount)).write leftcount (b.pBuf.read 0 nReadPos),
          leftcount + nReadPos, [.memcpy b.nReadPos 0 leftcount, .memcpy 0 leftcount nReadPos])
    else if b.nReadPos < b.nWritePos then
      -- the unread elements are contiguous
      let leftcount := b.nWritePos - b.nReadPos
      let c := if leftcount > count then count else leftcount
      let nReadPos := b.nReadPos + c
      ({ b with nReadPos, bEmpty := nReadPos = b.nWritePos },
        buf.write 0 (b.pBuf.read b.nReadPos c), c,
        .memcpy b.nReadPos 0 c :: assertPositions nReadPos b.nWritePos b.nBufSize)
    else
      -- the unread elements are at both ends
      let leftcount := b.nBufSize - b.nReadPos
      if leftcount > count then
        let nReadPos := b.nReadPos + count
        ({ b with nReadPos, bEmpty := nReadPos = b.nWritePos },
          buf.write 0 (b.pBuf.read b.nReadPos count), count,
          .memcpy b.nReadPos 0 count :: assertPositions nReadPos b.nWritePos b.nBufSize)
      else
        let nReadPos := if b.nWritePos ≥ count - leftcount then count - leftcount else b.nWritePos
        ({ b with nReadPos, bEmpty := nReadPos = b.nWritePos },
          (buf.write 0 (b.pBuf.read b.nReadPos leftcount)).write leftcount (b.pBuf.read 0 nReadPos),
          leftcount + nReadPos,
          .memcpy b.nReadPos 0 leftcount :: .memcpy 0 leftcount nReadPos ::
            assertPositions nReadPos b.nWritePos b.nBufSize)

end PodCircularBuffer

end MyUvpp
