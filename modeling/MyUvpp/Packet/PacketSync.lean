import MyUvpp.Foundation.Memory
import MyUvpp.Packet.NetBase

/-! # The stream decoder (`packet_sync.h`)

`PacketSync::recvdata` with both of its buffers, all of its counters and every branch of its loop,
and the encoder `PacketData`. Integers are unbounded; what the loop evaluates and touches is recorded
as a list of effects (`Effect`), so that the range of every `int` expression and every memory access
can be stated about the same definition that decodes the stream. Plain `char` is signed. -/

namespace MyUvpp

/-- `BUFFER_SIZE`: the initial size of both buffers of the decoder. -/
def bufferSize : ℤ := 1024 * 10

/-- `uv_buf_t`: a block of memory and its allocated length. -/
structure UvBuf where
  /-- The memory, from the base pointer on. -/
  base : Mem UInt8
  /-- The allocated length. -/
  len : ℤ

namespace UvBuf

/-- `memcpy` (or `memmove`) of `bytes` to offset `off`. -/
def memcpy (b : UvBuf) (off : ℤ) (bytes : List UInt8) : UvBuf :=
  { b with base := b.base.write off bytes }

/-- `realloc` to a larger length: the contents stay, the new cells are indeterminate. -/
def realloc (b : UvBuf) (len : ℤ) : UvBuf := { b with len }

/-- A copy does not change the size of a buffer. -/
@[simp] theorem memcpy_len (b : UvBuf) (off : ℤ) (bytes : List UInt8) :
    (b.memcpy off bytes).len = b.len := rfl

/-- A copy writes its bytes. -/
@[simp] theorem memcpy_base (b : UvBuf) (off : ℤ) (bytes : List UInt8) :
    (b.memcpy off bytes).base = b.base.write off bytes := rfl

/-- A buffer has the size that `realloc` was asked for. -/
@[simp] theorem realloc_len (b : UvBuf) (len : ℤ) : (b.realloc len).len = len := rfl

/-- `realloc` keeps the bytes. -/
@[simp] theorem realloc_base (b : UvBuf) (len : ℤ) : (b.realloc len).base = b.base := rfl

end UvBuf

/-- The parse state: a header has been accepted and its data is being received, or not. -/
inductive ParseType where
  | parseHead
  | parseNothing
  deriving DecidableEq, Repr

/-- The fields of `PacketSync`. The pointer `headpt` is assigned before every use in one pass of the
loop and is a local of the definitions below. -/
structure PacketSync where
  /-- Whether `packet_cb_` is set. -/
  packetCb : Bool
  parsetype : ParseType
  /-- The number of payload and tail bytes received so far. -/
  getdatalen : ℤ
  /-- `thread_readdata`: unparsed bytes. -/
  threadReaddata : UvBuf
  /-- `thread_packetdata`: the payload and tail of the current frame. -/
  threadPacketdata : UvBuf
  /-- The number of valid bytes in `threadReaddata`. -/
  truepacketlen : ℤ
  /-- The position of the head byte in `threadReaddata`. -/
  headpos : ℤ
  /-- `HEAD`. -/
  head : UInt8
  /-- `TAIL`. -/
  tail : UInt8
  theNexPacket : NetPacket

/-- The contents of memory that the constructor leaves uninitialised. -/
structure Indeterminate where
  readdata : Mem UInt8
  packetdata : Mem UInt8
  head : UInt8
  tail : UInt8
  theNexPacket : NetPacket

/-- Memory that happens to be zero. -/
instance : Inhabited Indeterminate := ⟨⟨fun _ => 0, fun _ => 0, 0, 0, default⟩⟩

/-- `PacketSync::PacketSync`: two buffers with indeterminate contents, no callback and no frame begun. -/
def newPacketSync (u : Indeterminate) : PacketSync where
  packetCb := false
  parsetype := .parseNothing
  getdatalen := 0
  threadReaddata := ⟨u.readdata, bufferSize⟩
  threadPacketdata := ⟨u.packetdata, bufferSize⟩
  truepacketlen := 0
  headpos := -1
  head := u.head
  tail := u.tail
  theNexPacket := u.theNexPacket

/-- `int` reduction modulo `2 ^ 32`, into the range with sign. -/
def int32 (v : ℤ) : ℤ := v.bmod (2 ^ 32)

/-- Conversion to the 64-bit `size_t`, which makes a negative number a huge one. -/
def sizeT (v : ℤ) : ℤ := v % 2 ^ 64

/-- The value of a plain (signed) `char` in a comparison. -/
def charToInt (c : UInt8) : ℤ := if c.toNat < 128 then c.toNat else c.toNat - 256

/-- What one pass of the loop evaluates, touches and reports. -/
inductive Effect where
  /-- The mathematical value of an expression of type `int`. -/
  | int (v : ℤ)
  /-- The mathematical value of a difference taken in `size_t`. -/
  | size (v : ℤ)
  /-- `memchr` over the first `n` bytes of a buffer of length `bufLen`. -/
  | memchr (bufLen n : ℤ)
  /-- `memcpy` or `memmove` of `n` bytes between two blocks. -/
  | copy (dstLen dstOff srcLen srcOff n : ℤ)
  /-- `realloc` to `size` bytes where `need` are to be stored. -/
  | realloc (size need : ℤ)
  /-- The read of `thread_packetdata.base[idx]`, of which `got` bytes have been copied in. -/
  | readTail (bufLen idx got : ℤ)
  /-- The packet callback, with the `datalen` bytes behind its data pointer. -/
  | packetCb (packet : NetPacket) (data : List UInt8)
  deriving DecidableEq

/-- The frames passed to the packet callback. -/
def frames (log : List Effect) : List (NetPacket × List UInt8) :=
  log.filterMap fun
    | .packetCb packet data => some (packet, data)
    | _ => none

/-- Without effects nothing has been delivered. -/
@[simp] theorem frames_nil : frames [] = [] := rfl

/-- The frames of two logs follow each other. -/
@[simp] theorem frames_append (log log' : List Effect) :
    frames (log ++ log') = frames log ++ frames log' := by
  simp [frames]

/-- The value of an `int` delivers nothing. -/
@[simp] theorem frames_int (v : ℤ) (log : List Effect) : frames (.int v :: log) = frames log := rfl

/-- The value of a `size_t` delivers nothing. -/
@[simp] theorem frames_size (v : ℤ) (log : List Effect) : frames (.size v :: log) = frames log := rfl

/-- A call of `memchr` delivers nothing. -/
@[simp] theorem frames_memchr (l n : ℤ) (log : List Effect) :
    frames (.memchr l n :: log) = frames log := rfl

/-- A copy delivers nothing. -/
@[simp] theorem frames_copy (l o l' o' n : ℤ) (log : List Effect) :
    frames (.copy l o l' o' n :: log) = frames log := rfl

/-- A `realloc` delivers nothing. -/
@[simp] theorem frames_realloc (a b : ℤ) (log : List Effect) :
    frames (.realloc a b :: log) = frames log := rfl

/-- A look at the tail byte delivers nothing. -/
@[simp] theorem frames_readTail (l i g : ℤ) (log : List Effect) :
    frames (.readTail l i g :: log) = frames log := rfl

/-- A call of the callback delivers its frame. -/
@[simp] theorem frames_packetCb (packet : NetPacket) (data : List UInt8) (log : List Effect) :
    frames (.packetCb packet data :: log) = (packet, data) :: frames log := rfl

namespace PacketSync

/-- `PacketSync::SetPacketCB` with a callback, so that accepted frames are delivered. -/
def setPacketCB (p : PacketSync) : PacketSync := { p with packetCb := true }

/-- `PacketSync::Start`, which sets the two marker bytes and leaves everything else as it was. -/
def start (p : PacketSync) (packhead packtail : UInt8) : PacketSync :=
  { p with head := packhead, tail := packtail }

/-- The payload length announced by the current header. -/
def datalen (p : PacketSync) : ℤ := p.theNexPacket.datalen.toInt

/-- The bytes of `thread_readdata` behind the header at `headpos`, as the source computes their
number (in `size_t`). -/
def bodyInReaddata (p : PacketSync) : ℤ := p.truepacketlen - p.headpos - 1 - netPackageHeadlen

/-- `memchr(thread_readdata.base, HEAD, truepacketlen)`, as an offset, `none` where no byte is `HEAD`. -/
def findHead (p : PacketSync) : Option ℤ :=
  ((p.threadReaddata.base.read 0 p.truepacketlen).idxOf? p.head).map fun i : ℕ => (i : ℤ)

/-- The head byte was found but the header is not complete: move it to the front. -/
def cacheHead (p : PacketSync) : PacketSync × List Effect :=
  if p.headpos ≠ 0 then
    ({ p with
        threadReaddata := p.threadReaddata.memcpy 0
          (p.threadReaddata.base.read p.headpos (p.truepacketlen - p.headpos))
        truepacketlen := p.truepacketlen - p.headpos },
      [.copy p.threadReaddata.len 0 p.threadReaddata.len p.headpos (p.truepacketlen - p.headpos),
        .int (p.truepacketlen - p.headpos)])
  else (p, [])

/-- Drop everything up to and including the head byte (the `memmove` marked 2.4). -/
def dropHead (p : PacketSync) : PacketSync × List Effect :=
  ({ p with
      threadReaddata := p.threadReaddata.memcpy 0
        (p.threadReaddata.base.read (p.headpos + 1) (p.truepacketlen - p.headpos - 1))
      truepacketlen := p.truepacketlen - (p.headpos + 1) },
    [.copy p.threadReaddata.len 0 p.threadReaddata.len (p.headpos + 1)
        (p.truepacketlen - p.headpos - 1),
      .int (p.headpos + 1), .int (p.truepacketlen - (p.headpos + 1))])

/-- Whether the decoded header is refused (a payload length of zero is allowed). -/
def badHeader (p : PacketSync) : Bool :=
  p.theNexPacket.header ≠ p.head || p.theNexPacket.tail ≠ p.tail || p.datalen < 0

/-- A header has been accepted: size `thread_packetdata` for the payload and the tail byte. -/
def growPacketdata (p : PacketSync) : PacketSync × List Effect :=
  if p.threadPacketdata.len < p.datalen + 1 then
    ({ p with threadPacketdata := p.threadPacketdata.realloc (p.datalen + 1) },
      [.int (p.datalen + 1), .realloc (sizeT (int32 (p.datalen + 1))) (p.datalen + 1)])
  else (p, [])

/-- Take the first payload bytes from `thread_readdata`. -/
def takeFromReaddata (p : PacketSync) : PacketSync × List Effect :=
  let getdatalen := min p.bodyInReaddata (p.datalen + 1)
  let log := [.size p.bodyInReaddata, .int p.bodyInReaddata, .int (p.datalen + 1), .int getdatalen]
  if getdatalen > 0 then
    ({ p with
        getdatalen
        threadPacketdata := p.threadPacketdata.memcpy 0
          (p.threadReaddata.base.read (p.headpos + 1 + netPackageHeadlen) getdatalen) },
      log ++ [.copy p.threadPacketdata.len 0 p.threadReaddata.len
        (p.headpos + 1 + netPackageHeadlen) getdatalen])
  else ({ p with getdatalen }, log)

/-- The tail byte is wrong: drop the head byte and parse what followed it again, from
`thread_readdata` where it holds the whole frame, else rebuilt from the header and the packet
data. -/
def rejectTail (p : PacketSync) : PacketSync × List Effect :=
  let log := [.size p.bodyInReaddata, .int (p.datalen + 1)]
  if p.bodyInReaddata ≥ p.datalen + 1 then
    let (p, log') := p.dropHead
    ({ p with parsetype := .parseNothing }, log ++ log')
  else
    let need := netPackageHeadlen + p.datalen + 1
    let (readdata, grow) : UvBuf × List Effect :=
      if p.threadReaddata.len < need then
        (p.threadReaddata.realloc need, [.realloc (sizeT need) need])
      else (p.threadReaddata, [])
    let moved := readdata.memcpy 0 (readdata.base.read (p.headpos + 1) netPackageHeadlen)
    ({ p with
        threadReaddata :=
          moved.memcpy netPackageHeadlen (p.threadPacketdata.base.read 0 (p.datalen + 1))
        truepacketlen := netPackageHeadlen + (p.datalen + 1)
        parsetype := .parseNothing },
      log ++ grow ++
        [.copy readdata.len 0 readdata.len (p.headpos + 1) netPackageHeadlen,
          .copy readdata.len netPackageHeadlen p.threadPacketdata.len 0 (p.datalen + 1),
          .int (netPackageHeadlen + (p.datalen + 1))])

/-- The frame is complete: remove it from `thread_readdata` and call back. -/
def deliver (p : PacketSync) : PacketSync × List Effect :=
  let log := [.size p.bodyInReaddata, .int (p.datalen + 1)]
  let frameEnd := p.headpos + netPackageHeadlen + p.datalen + 2
  let (p, log') : PacketSync × List Effect :=
    if p.bodyInReaddata ≥ p.datalen + 1 then
      ({ p with
          threadReaddata := p.threadReaddata.memcpy 0
            (p.threadReaddata.base.read frameEnd (p.truepacketlen - frameEnd))
          truepacketlen := p.truepacketlen - frameEnd },
        [.copy p.threadReaddata.len 0 p.threadReaddata.len frameEnd (p.truepacketlen - frameEnd),
          .int (p.truepacketlen - frameEnd)])
    else ({ p with truepacketlen := 0 }, [])
  let callback : List Effect :=
    if p.packetCb then [.packetCb p.theNexPacket (p.threadPacketdata.base.read 0 p.datalen)] else []
  ({ p with parsetype := .parseNothing }, log ++ log' ++ callback)

end PacketSync

/-! ### One pass of the loop -/

/-- The decoder, the number of input bytes consumed, and the effects so far. -/
structure Pass where
  sync : PacketSync
  iret : ℤ
  log : List Effect

/-- How a part of the loop body ends. -/
inductive Step where
  /-- `continue`. -/
  | next (x : Pass)
  /-- On to the statement after it. -/
  | fall (x : Pass)
  /-- `return`. -/
  | ret (x : Pass)

/-- Copy input into `thread_readdata`, all of it or as much as fits. -/
def fillReaddata (data : List UInt8) (x : Pass) : Pass :=
  let p := x.sync
  let len : ℤ := data.length
  let room := p.threadReaddata.len - p.truepacketlen
  if room ≥ len - x.iret then
    { sync := { p with
        threadReaddata :=
          p.threadReaddata.memcpy p.truepacketlen ((data.drop x.iret.toNat).take (len - x.iret).toNat)
        truepacketlen := p.truepacketlen + (len - x.iret) }
      iret := len
      log := x.log ++ [.size room, .int (len - x.iret),
        .copy p.threadReaddata.len p.truepacketlen len x.iret (len - x.iret),
        .int (p.truepacketlen + (len - x.iret))] }
  else
    { sync := { p with
        threadReaddata :=
          p.threadReaddata.memcpy p.truepacketlen ((data.drop x.iret.toNat).take room.toNat)
        truepacketlen := p.threadReaddata.len }
      iret := x.iret + room
      log := x.log ++ [.size room, .int (len - x.iret),
        .copy p.threadReaddata.len p.truepacketlen len x.iret room,
        .int (x.iret + room), .int p.threadReaddata.len] }

/-- A head byte has been found at `headpos`: wait for a complete header, refuse it, or accept it. -/
def decodeHeader (host : Host) (x : Pass) : Step :=
  let p := x.sync
  let log := x.log ++ [.int p.headpos, .int (p.truepacketlen - p.headpos - 1)]
  if p.truepacketlen - p.headpos - 1 < netPackageHeadlen then
    let (p, log') := p.cacheHead
    .next ⟨p, x.iret, log ++ log'⟩
  else
    let p := { p with
      theNexPacket := charToNetPacket host
        (p.threadReaddata.base.read (p.headpos + 1) netPackageHeadlen) }
    if p.badHeader then
      let (p, log') := p.dropHead
      .next ⟨p, x.iret, log ++ log'⟩
    else
      let (p, grow) := { p with parsetype := .parseHead }.growPacketdata
      let (p, log') := p.takeFromReaddata
      .fall ⟨p, x.iret, log ++ grow ++ log'⟩

/-- The block of the loop body for `PARSE_NOTHING`: find a head byte and decode the header. -/
def parseHeader (host : Host) (data : List UInt8) (x : Pass) : Step :=
  let x := fillReaddata data x
  let p := x.sync
  let log := x.log ++ [.memchr p.threadReaddata.len p.truepacketlen]
  match p.findHead with
  | none => .next ⟨{ p with truepacketlen := 0 }, x.iret, log⟩
  | some headpos => decodeHeader host ⟨{ p with headpos }, x.iret, log⟩

/-- Receive payload and tail bytes for the accepted header. -/
def receiveData (data : List UInt8) (x : Pass) : Step :=
  let p := x.sync
  let len : ℤ := data.length
  if p.getdatalen < p.datalen + 1 then
    let log := x.log ++
      [.int (p.datalen + 1), .int (len - x.iret), .int (p.getdatalen + (len - x.iret))]
    if p.getdatalen + (len - x.iret) < p.datalen + 1 then
      .ret {
        sync := { p with
          threadPacketdata :=
            p.threadPacketdata.memcpy p.getdatalen
              ((data.drop x.iret.toNat).take (len - x.iret).toNat)
          getdatalen := p.getdatalen + (len - x.iret) }
        iret := len
        log := log ++ [.copy p.threadPacketdata.len p.getdatalen len x.iret (len - x.iret)] }
    else
      let missing := p.datalen + 1 - p.getdatalen
      .fall {
        sync := { p with
          threadPacketdata :=
            p.threadPacketdata.memcpy p.getdatalen ((data.drop x.iret.toNat).take missing.toNat)
          getdatalen := p.datalen + 1 }
        iret := x.iret + missing
        log := log ++ [.copy p.threadPacketdata.len p.getdatalen len x.iret missing,
          .int missing, .int (x.iret + missing)] }
  else .fall { x with log := x.log ++ [.int (p.datalen + 1)] }

/-- Check the tail byte and deliver the frame or parse again. -/
def finishFrame (x : Pass) : Pass :=
  let p := x.sync
  let log := x.log ++ [.readTail p.threadPacketdata.len p.datalen p.getdatalen]
  let (p, log') :=
    if charToInt (p.threadPacketdata.base p.datalen) ≠ p.tail.toNat then p.rejectTail
    else p.deliver
  ⟨p, x.iret, log ++ log'⟩

/-- The data part of the loop body. -/
def receiveFrame (data : List UInt8) (x : Pass) : Step :=
  match receiveData data x with
  | .fall x => .next (finishFrame x)
  | step => step

/-- One pass of the loop body: a header is looked for or not, and then the frame is filled. -/
def recvdataBody (host : Host) (data : List UInt8) (x : Pass) : Step :=
  match x.sync.parsetype with
  | .parseNothing =>
    match parseHeader host data x with
    | .fall x => receiveFrame data x
    | step => step
  | .parseHead => receiveFrame data x

/-- The loop of `recvdata`, for at most the given number of passes. -/
def recvdataLoop (host : Host) (data : List UInt8) : ℕ → Pass → Option Pass
  | 0, _ => none
  | fuel + 1, x =>
    if x.iret < data.length ∨ x.sync.truepacketlen ≥ netPackageHeadlen + 2 then
      match recvdataBody host data x with
      | .next x => recvdataLoop host data fuel x
      | .fall x => some x
      | .ret x => some x
    else some x

/-- A bound on the number of passes: every pass but the last consumes at least one buffered or unread
byte. -/
def recvdataFuel (p : PacketSync) (data : List UInt8) : ℕ :=
  p.truepacketlen.toNat + p.getdatalen.toNat + netPackageHeadlen + data.length + 3

/-- `PacketSync::recvdata(data, len)` with `len` the length of `data`. -/
def recvdata (host : Host) (p : PacketSync) (data : List UInt8) :
    Option (PacketSync × List Effect) :=
  (recvdataLoop host data (recvdataFuel p data) ⟨p, 0, []⟩).map fun x => (x.sync, x.log)

/-- A sequence of calls of `recvdata`, one for each chunk. -/
def recvChunks (host : Host) (p : PacketSync) :
    List (List UInt8) → Option (PacketSync × List Effect)
  | [] => some (p, [])
  | data :: chunks => do
    let (p, log) ← recvdata host p data
    let (p, log') ← recvChunks host p chunks
    return (p, log ++ log')

/-! ### The encoder -/

/-- `PacketData(packet, data)`: the packet with its `check` field and the encoded frame. `data` is
the memory behind the pointer, `none` for a null pointer. There is no result where the source has no
defined behaviour: a negative length, or more payload than the memory holds. -/
def packetData (host : Host) (packet : NetPacket) (data : Option (List UInt8)) :
    Option (NetPacket × List UInt8) :=
  let packet :=
    if packet.datalen = 0 ∨ data = none then { packet with check := Vector.replicate 16 0 }
    else packet
  let bytes := data.getD []
  if 0 ≤ packet.datalen.toInt ∧ packet.datalen.toInt ≤ bytes.length then
    some (packet, packet.header :: netPacketToChar host packet ++
      bytes.take packet.datalen.toInt.toNat ++ [packet.tail])
  else none

end MyUvpp
