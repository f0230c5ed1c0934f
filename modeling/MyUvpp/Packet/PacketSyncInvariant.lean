import MyUvpp.Foundation.FrameScan
import MyUvpp.Packet.PacketSync
import Mathlib.Tactic.Ring

/-! # The invariant of the stream decoder

Between two passes of its loop the decoder holds an undecided piece of the stream, spread over its
two buffers: `PacketSync.pending`. `PacketSync.Inv` says how the counters describe it, and each part
of the loop body keeps the invariant and reduces `pending` followed by the unread input as
`Framing.Reduces` does, emitting the frames it calls back with. -/

namespace MyUvpp

/-- The frame format of the decoder, with the tail byte compared as the source compares it. -/
def decoderFraming (host : Host) (head tail : UInt8) : Framing UInt8 NetPacket where
  isHead b := b == head
  headerLen := netPackageHeadlen
  header bytes :=
    let packet := charToNetPacket host bytes
    if packet.header ≠ head || packet.tail ≠ tail || packet.datalen.toInt < 0 then none
    else some (packet, packet.datalen.toInt.toNat)
  isTail b := charToInt b == (tail.toNat : ℤ)

/-- The length of a header, as an integer. -/
@[simp] theorem cast_netPackageHeadlen : (netPackageHeadlen : ℤ) = 34 := rfl

namespace PacketSync

/-- The format of the frames the decoder looks for. -/
def framing (host : Host) (p : PacketSync) : Framing UInt8 NetPacket :=
  decoderFraming host p.head p.tail

/-- The undecided bytes of the stream. While a frame is being received these are its head byte and
header, the payload and tail bytes received so far, and whatever follows the frame in
`thread_readdata`. -/
def pending (p : PacketSync) : List UInt8 :=
  match p.parsetype with
  | .parseNothing => p.threadReaddata.base.read 0 p.truepacketlen
  | .parseHead =>
    p.threadReaddata.base.read p.headpos (1 + netPackageHeadlen) ++
      p.threadPacketdata.base.read 0 p.getdatalen ++
      p.threadReaddata.base.read (p.headpos + 1 + netPackageHeadlen + (p.datalen + 1))
        (p.bodyInReaddata - (p.datalen + 1))

/-- The counters of `thread_readdata`. -/
structure ReadInv (p : PacketSync) : Prop where
  size_le : bufferSize ≤ p.threadReaddata.len
  nonneg : 0 ≤ p.truepacketlen
  le_len : p.truepacketlen ≤ p.threadReaddata.len
  packet_size : bufferSize ≤ p.threadPacketdata.len

/-- A frame is being received: its header was accepted from `thread_readdata`, and its first bytes
have been copied to `thread_packetdata`. -/
structure FrameInv (host : Host) (p : PacketSync) : Prop where
  headpos_nonneg : 0 ≤ p.headpos
  header_le : p.headpos + 1 + netPackageHeadlen ≤ p.truepacketlen
  head_eq : p.threadReaddata.base p.headpos = p.head
  packet_eq : p.theNexPacket =
    charToNetPacket host (p.threadReaddata.base.read (p.headpos + 1) netPackageHeadlen)
  good : p.badHeader = false
  got_nonneg : 0 ≤ p.getdatalen
  got_le : p.getdatalen ≤ p.datalen + 1
  le_got : min p.bodyInReaddata (p.datalen + 1) ≤ p.getdatalen
  fits : p.datalen + 1 ≤ p.threadPacketdata.len
  copied : p.threadPacketdata.base.read 0 (min p.bodyInReaddata (p.datalen + 1)) =
    p.threadReaddata.base.read (p.headpos + 1 + netPackageHeadlen)
      (min p.bodyInReaddata (p.datalen + 1))

/-- The invariant of the decoder between two passes of its loop. -/
structure Inv (host : Host) (p : PacketSync) : Prop extends p.ReadInv where
  frame : p.parsetype = .parseHead → p.FrameInv host

/-! ### Simple consequences -/

variable {host : Host} {p : PacketSync}

/-- A good header announces a length that is not negative. -/
theorem datalen_nonneg (h : p.badHeader = false) : 0 ≤ p.datalen := by
  simp only [badHeader, Bool.or_eq_false_iff, decide_eq_false_iff_not, not_lt] at h
  exact h.2

/-- The header of a frame is wholly in `thread_readdata`. -/
theorem FrameInv.bodyInReaddata_nonneg (h : p.FrameInv host) : 0 ≤ p.bodyInReaddata := by
  have h1 := h.header_le
  rw [bodyInReaddata]
  omega

/-- While no frame is being received, the invariant is about `thread_readdata` only. -/
theorem ReadInv.inv (h : p.ReadInv) (hp : p.parsetype = .parseNothing) : p.Inv host where
  toReadInv := h
  frame hframe := by cases hp.symm.trans hframe

/-- The header decoded at `headpos` is the one the framing accepts, or it is refused. -/
theorem framing_header {bytes : List UInt8} (hp : p.theNexPacket = charToNetPacket host bytes) :
    (p.framing host).header bytes =
      if p.badHeader then none else some (p.theNexPacket, p.datalen.toNat) := by
  simp only [framing, decoderFraming, badHeader, datalen, hp]

/-- The head byte and the first `min body (datalen + 1)` payload bytes, followed by what is left, are
the bytes from `headpos` on. -/
theorem read_from_headpos (m : Mem UInt8) (h : ℤ) {body n : ℤ} (hbody : 0 ≤ body) (hn : 0 ≤ n) :
    m.read h (1 + netPackageHeadlen) ++ m.read (h + 1 + netPackageHeadlen) (min body n) ++
        m.read (h + 1 + netPackageHeadlen + n) (body - n) =
      m.read h (1 + netPackageHeadlen + body) := by
  rw [add_assoc h 1, Mem.read_add m h (a := 1 + netPackageHeadlen) (by simp) hbody,
    List.append_assoc]
  congr 1
  rcases le_total body n with hle | hle
  · rw [min_eq_left hle, Mem.read_of_nonpos _ _ (n := body - n) (by omega), List.append_nil]
  · rw [min_eq_right hle, ← Mem.read_add _ _ hn (by omega), add_sub_cancel]

/-- The bytes from the head byte on, while a frame is being received. -/
theorem read_headpos_eq_cons (h : p.FrameInv host) :
    p.threadReaddata.base.read p.headpos (1 + netPackageHeadlen) =
      p.head :: p.threadReaddata.base.read (p.headpos + 1) netPackageHeadlen := by
  rw [Mem.read_eq_cons _ _ (by simp), h.head_eq, add_sub_cancel_left]

/-! ### Finding the head byte -/

/-- Where `memchr` finds nothing, no byte is a head byte. -/
theorem findHead_eq_none (h : p.findHead = none) :
    ∀ b ∈ p.threadReaddata.base.read 0 p.truepacketlen, (p.framing host).isHead b = false := by
  intro b hb
  simp only [findHead, Option.map_eq_none_iff, List.idxOf?_eq_none_iff] at h
  show (b == p.head) = false
  rw [beq_eq_false_iff_ne]
  rintro rfl
  exact h hb

/-- The first head byte of `thread_readdata`. -/
theorem findHead_eq_some (host : Host) {i : ℤ} (h : p.findHead = some i) :
    0 ≤ i ∧ i < p.truepacketlen ∧ p.threadReaddata.base i = p.head ∧
      ∀ b ∈ p.threadReaddata.base.read 0 i, (p.framing host).isHead b = false := by
  obtain ⟨k, hk, rfl⟩ := Option.map_eq_some_iff.mp h
  obtain ⟨hlt, hget, hbefore⟩ := List.idxOf?_eq_some_iff.mp hk
  rw [Mem.length_read] at hlt
  refine ⟨by omega, by omega, ?_, ?_⟩
  · have := Mem.getElem?_read p.threadReaddata.base 0 p.truepacketlen hlt
    rw [zero_add] at this
    rw [List.getElem?_eq_getElem (by simpa using hlt), hget] at this
    exact (Option.some.inj this).symm
  · intro b hb
    show (b == p.head) = false
    rw [beq_eq_false_iff_ne]
    rintro rfl
    obtain ⟨j, hj, hjb⟩ := List.mem_iff_getElem.mp hb
    rw [Mem.length_read] at hj
    refine hbefore j (by omega) ?_
    rw [← hjb]
    apply Option.some.inj
    rw [← List.getElem?_eq_getElem, ← List.getElem?_eq_getElem, Mem.getElem?_read _ _ _ hj,
      Mem.getElem?_read _ _ _ (by omega)]

end PacketSync

/-! ### The passes of the loop

`Pass.Ok` is the invariant of a pass and `Pass.stream` the bytes not yet decided: the pending bytes
followed by the unread input. -/

/-- The undecided bytes: those pending in the decoder, then the unread input. -/
def Pass.stream (data : List UInt8) (x : Pass) : List UInt8 :=
  x.sync.pending ++ data.drop x.iret.toNat

/-- The invariant of the loop of `recvdata`. -/
structure Pass.Ok (host : Host) (data : List UInt8) (x : Pass) : Prop where
  inv : x.sync.Inv host
  iret_nonneg : 0 ≤ x.iret
  iret_le : x.iret ≤ data.length

/-- `x'` follows `x` in the loop: the decoder's constants are kept, frames are called back, and the
undecided bytes are reduced accordingly. -/
structure Pass.Advance (host : Host) (data : List UInt8) (x x' : Pass) : Prop where
  packetCb_eq : x'.sync.packetCb = x.sync.packetCb
  head_eq : x'.sync.head = x.sync.head
  tail_eq : x'.sync.tail = x.sync.tail
  reduces : ∃ out, (x.sync.framing host).Reduces (x.stream data) out (x'.stream data) ∧
    (x.sync.packetCb = true → frames x'.log = frames x.log ++ out)

namespace Pass.Advance

variable {host : Host} {data : List UInt8} {x x' x'' : Pass}

/-- The framing does not change within a call. -/
theorem framing_eq (h : Advance host data x x') :
    x'.sync.framing host = x.sync.framing host := by
  rw [PacketSync.framing, PacketSync.framing, h.head_eq, h.tail_eq]

/-- Passes compose. -/
theorem trans (h : Advance host data x x') (h' : Advance host data x' x'') :
    Advance host data x x'' where
  packetCb_eq := h'.packetCb_eq.trans h.packetCb_eq
  head_eq := h'.head_eq.trans h.head_eq
  tail_eq := h'.tail_eq.trans h.tail_eq
  reduces := by
    obtain ⟨out, hr, hf⟩ := h.reduces
    obtain ⟨out', hr', hf'⟩ := h'.reduces
    rw [h.framing_eq] at hr'
    refine ⟨out ++ out', hr.trans hr', fun hcb => ?_⟩
    rw [hf' (h.packetCb_eq ▸ hcb), hf hcb, List.append_assoc]

/-- A pass that only reduces the stream, without a callback. -/
theorem of_silent (hcb : x'.sync.packetCb = x.sync.packetCb) (hhead : x'.sync.head = x.sync.head)
    (htail : x'.sync.tail = x.sync.tail)
    (hr : (x.sync.framing host).Reduces (x.stream data) [] (x'.stream data))
    (hf : frames x'.log = frames x.log) : Advance host data x x' where
  packetCb_eq := hcb
  head_eq := hhead
  tail_eq := htail
  reduces := ⟨[], hr, fun _ => by rw [hf, List.append_nil]⟩

end Pass.Advance

/-! ### Filling `thread_readdata` -/

section Fill

variable {host : Host} {data : List UInt8} {x : Pass}

/-- The number of input bytes that `fillReaddata` copies. -/
def fillCount (data : List UInt8) (x : Pass) : ℤ :=
  min (x.sync.threadReaddata.len - x.sync.truepacketlen) (data.length - x.iret)

/-- `fillReaddata` appends `fillCount` input bytes to `thread_readdata`. -/
theorem fillReaddata_sync (data : List UInt8) (x : Pass) :
    (fillReaddata data x).sync = { x.sync with
      threadReaddata := x.sync.threadReaddata.memcpy x.sync.truepacketlen
        ((data.drop x.iret.toNat).take (fillCount data x).toNat)
      truepacketlen := x.sync.truepacketlen + fillCount data x } := by
  simp only [fillReaddata, fillCount]
  split
  case isTrue h => rw [min_eq_right (by omega)]
  case isFalse h =>
    rw [min_eq_left (by omega)]
    simp only [PacketSync.mk.injEq, true_and, and_true]
    omega

/-- The input is read as far as it is copied. -/
theorem fillReaddata_iret (data : List UInt8) (x : Pass) :
    (fillReaddata data x).iret = x.iret + fillCount data x := by
  simp only [fillReaddata, fillCount]
  split
  case isTrue h => rw [min_eq_right (by omega)]; simp only; omega
  case isFalse h => rw [min_eq_left (by omega)]

/-- Filling `thread_readdata` delivers nothing. -/
@[simp] theorem frames_fillReaddata (data : List UInt8) (x : Pass) :
    frames (fillReaddata data x).log = frames x.log := by
  simp only [fillReaddata]
  split <;> simp

/-- A number of bytes that is not negative is copied. -/
theorem fillCount_nonneg (hx : x.Ok host data) : 0 ≤ fillCount data x := by
  have h1 := hx.inv.le_len
  have h2 := hx.iret_le
  rw [fillCount]
  omega

/-- Filling keeps the invariant, takes the whole input or fills the buffer, and moves bytes from the
input to the end of the buffered ones. -/
theorem fillReaddata_spec (hx : x.Ok host data) (hp : x.sync.parsetype = .parseNothing) :
    (fillReaddata data x).Ok host data ∧
      ((fillReaddata data x).iret = data.length ∨
        (fillReaddata data x).sync.truepacketlen = x.sync.threadReaddata.len) ∧
      (fillReaddata data x).stream data = x.stream data := by
  have hn := fillCount_nonneg hx
  have hnle : fillCount data x ≤ data.length - x.iret := min_le_right _ _
  have hnroom : fillCount data x ≤ x.sync.threadReaddata.len - x.sync.truepacketlen :=
    min_le_left _ _
  obtain ⟨⟨⟨hsize, htpl, hle, hpack⟩, hframe⟩, hi0, hile⟩ := hx
  refine ⟨⟨⟨⟨?_, ?_, ?_, ?_⟩, ?_⟩, ?_, ?_⟩, ?_, ?_⟩
  · rw [fillReaddata_sync]; exact hsize
  · rw [fillReaddata_sync]; simp only; omega
  · rw [fillReaddata_sync]; simp only [UvBuf.memcpy_len]; omega
  · rw [fillReaddata_sync]; exact hpack
  · rw [fillReaddata_sync]
    intro h
    exact absurd (hp.symm.trans h) (by decide)
  · rw [fillReaddata_iret]; omega
  · rw [fillReaddata_iret]; omega
  · rw [fillReaddata_iret, fillReaddata_sync]
    simp only [fillCount]
    omega
  · have hlen : ((data.drop x.iret.toNat).take (fillCount data x).toNat).length =
        (fillCount data x).toNat := by
      rw [List.length_take, List.length_drop]
      omega
    have happ := Mem.read_write_append x.sync.threadReaddata.base 0
      (k := x.sync.truepacketlen) (n := x.sync.truepacketlen + fillCount data x)
      ((data.drop x.iret.toNat).take (fillCount data x).toNat) htpl (by rw [hlen]; omega)
    rw [zero_add] at happ
    have hdrop : data.drop (x.iret + fillCount data x).toNat =
        (data.drop x.iret.toNat).drop (fillCount data x).toNat := by
      rw [List.drop_drop, Int.toNat_add hi0 hn]
    simp only [Pass.stream, PacketSync.pending, fillReaddata_iret, fillReaddata_sync, hp,
      UvBuf.memcpy_base, happ, hdrop, List.append_assoc, List.take_append_drop]

end Fill

/-! ### Shifting `thread_readdata` to the left -/

namespace PacketSync

/-- The decoder without the first `k` bytes of `thread_readdata`. -/
def shiftRead (p : PacketSync) (k : ℤ) : PacketSync :=
  { p with
    threadReaddata := p.threadReaddata.memcpy 0 (p.threadReaddata.base.read k (p.truepacketlen - k))
    truepacketlen := p.truepacketlen - k }

/-- What is left after a shift. -/
theorem read_shiftRead (p : PacketSync) {k : ℤ} (hk : k ≤ p.truepacketlen) :
    (p.shiftRead k).threadReaddata.base.read 0 (p.shiftRead k).truepacketlen =
      p.threadReaddata.base.read k (p.truepacketlen - k) := by
  simp only [shiftRead, UvBuf.memcpy_base]
  exact Mem.read_write _ _ _ (by rw [Mem.length_read]; omega)

/-- Bytes may be dropped from the front of `thread_readdata`. -/
theorem ReadInv.shiftRead {p : PacketSync} (h : p.ReadInv) {k : ℤ} (h0 : 0 ≤ k)
    (hk : k ≤ p.truepacketlen) : (p.shiftRead k).ReadInv where
  size_le := h.size_le
  nonneg := by simp only [PacketSync.shiftRead]; omega
  le_len := by
    have := h.le_len
    simp only [PacketSync.shiftRead, UvBuf.memcpy_len]
    omega
  packet_size := h.packet_size

/-- Dropping the head byte is a shift to the byte behind it. -/
theorem dropHead_fst (p : PacketSync) : p.dropHead.1 = p.shiftRead (p.headpos + 1) := by
  simp only [dropHead, shiftRead, sub_sub]

/-- Caching the head byte shifts it to the front, unless it is there already. -/
theorem cacheHead_fst (p : PacketSync) :
    p.headpos = 0 ∧ p.cacheHead.1 = p ∨
      p.headpos ≠ 0 ∧ p.cacheHead.1 = p.shiftRead p.headpos := by
  simp only [cacheHead]
  split
  case isTrue h => exact .inr ⟨h, rfl⟩
  case isFalse h => exact .inl ⟨not_not.mp h, rfl⟩

/-- Dropping the head byte delivers nothing. -/
@[simp] theorem frames_dropHead (p : PacketSync) : frames p.dropHead.2 = [] := rfl

/-- Moving the head byte to the front delivers nothing. -/
@[simp] theorem frames_cacheHead (p : PacketSync) : frames p.cacheHead.2 = [] := by
  simp only [cacheHead]
  split <;> rfl

/-- Growing `thread_packetdata` delivers nothing. -/
@[simp] theorem frames_growPacketdata (p : PacketSync) : frames p.growPacketdata.2 = [] := by
  simp only [growPacketdata]
  split <;> rfl

/-- Taking what is buffered of a frame delivers nothing. -/
@[simp] theorem frames_takeFromReaddata (p : PacketSync) :
    frames p.takeFromReaddata.2 = [] := by
  simp only [takeFromReaddata]
  split <;> rfl

/-! ### Accepting a header -/

/-- `thread_packetdata` takes the payload and the tail byte afterwards. -/
theorem growPacketdata_fst (p : PacketSync) :
    p.growPacketdata.1 = { p with
      threadPacketdata :=
        p.threadPacketdata.realloc (max p.threadPacketdata.len (p.datalen + 1)) } := by
  simp only [growPacketdata]
  split
  case isTrue h => rw [max_eq_right h.le]
  case isFalse h => rw [max_eq_left (not_lt.mp h), UvBuf.realloc]

/-- What is buffered of the frame is copied to `thread_packetdata`, up to its end. -/
theorem takeFromReaddata_fst (p : PacketSync) :
    p.takeFromReaddata.1 = { p with
      getdatalen := min p.bodyInReaddata (p.datalen + 1)
      threadPacketdata := p.threadPacketdata.memcpy 0
        (p.threadReaddata.base.read (p.headpos + 1 + netPackageHeadlen)
          (min p.bodyInReaddata (p.datalen + 1))) } := by
  simp only [takeFromReaddata]
  split
  case isTrue => rfl
  case isFalse h =>
    rw [Mem.read_of_nonpos _ _ (not_lt.mp h), UvBuf.memcpy, Mem.write_nil]

/-- The decoder once the header at `headpos` has been accepted. -/
def accepted (p : PacketSync) : PacketSync :=
  ({ p with parsetype := .parseHead }.growPacketdata.1).takeFromReaddata.1

/-- What accepting a header sets, all in one. -/
theorem accepted_eq (p : PacketSync) :
    p.accepted = { p with
      parsetype := .parseHead
      getdatalen := min p.bodyInReaddata (p.datalen + 1)
      threadPacketdata :=
        (p.threadPacketdata.realloc (max p.threadPacketdata.len (p.datalen + 1))).memcpy 0
          (p.threadReaddata.base.read (p.headpos + 1 + netPackageHeadlen)
            (min p.bodyInReaddata (p.datalen + 1))) } := by
  rw [accepted, growPacketdata_fst, takeFromReaddata_fst]
  rfl

/-- The bytes that `thread_packetdata` holds once a header has been accepted. -/
theorem copied_accepted {p : PacketSync} (hgood : p.badHeader = false)
    (hlen : p.headpos + 1 + netPackageHeadlen ≤ p.truepacketlen) :
    (p.threadPacketdata.base.write 0
        (p.threadReaddata.base.read (p.headpos + 1 + netPackageHeadlen)
          (min p.bodyInReaddata (p.datalen + 1)))).read 0 (min p.bodyInReaddata (p.datalen + 1)) =
      p.threadReaddata.base.read (p.headpos + 1 + netPackageHeadlen)
        (min p.bodyInReaddata (p.datalen + 1)) := by
  have hn := datalen_nonneg hgood
  have hbody : 0 ≤ p.bodyInReaddata := by rw [bodyInReaddata]; omega
  refine Mem.read_write _ _ _ ?_
  rw [Mem.length_read]
  omega

/-- Accepting a complete, good header establishes the frame invariant. -/
theorem inv_accepted {host : Host} {p : PacketSync} (hr : p.ReadInv) (h0 : 0 ≤ p.headpos)
    (hlen : p.headpos + 1 + netPackageHeadlen ≤ p.truepacketlen)
    (hhead : p.threadReaddata.base p.headpos = p.head)
    (hpacket : p.theNexPacket =
      charToNetPacket host (p.threadReaddata.base.read (p.headpos + 1) netPackageHeadlen))
    (hgood : p.badHeader = false) : p.accepted.Inv host := by
  have hn := datalen_nonneg hgood
  have hbody : 0 ≤ p.bodyInReaddata := by rw [bodyInReaddata]; omega
  rw [accepted_eq]
  exact {
    size_le := hr.size_le
    nonneg := hr.nonneg
    le_len := hr.le_len
    packet_size := le_trans hr.packet_size (le_max_left _ _)
    frame := fun _ => {
      headpos_nonneg := h0
      header_le := hlen
      head_eq := hhead
      packet_eq := hpacket
      good := hgood
      got_nonneg := le_min hbody (by omega)
      got_le := min_le_right _ _
      le_got := le_refl _
      fits := le_max_right _ _
      copied := copied_accepted hgood hlen } }

/-- The pending bytes are those from the head byte on. -/
theorem pending_accepted {p : PacketSync} (hgood : p.badHeader = false)
    (hlen : p.headpos + 1 + netPackageHeadlen ≤ p.truepacketlen) :
    p.accepted.pending = p.threadReaddata.base.read p.headpos (p.truepacketlen - p.headpos) := by
  have hn := datalen_nonneg hgood
  have hbody : 0 ≤ p.bodyInReaddata := by rw [bodyInReaddata]; omega
  have hsplit := read_from_headpos p.threadReaddata.base p.headpos hbody (n := p.datalen + 1)
    (by omega)
  have htotal : (1 : ℤ) + netPackageHeadlen + p.bodyInReaddata = p.truepacketlen - p.headpos := by
    rw [bodyInReaddata]
    ring
  rw [accepted_eq, ← htotal, ← hsplit]
  simp only [pending, UvBuf.memcpy_base, UvBuf.realloc_base]
  rw [copied_accepted hgood hlen]
  rfl

end PacketSync

/-! ### The header part of the loop body -/

/-- `x'` has fewer undecided bytes than `x`, or too few to go on with. -/
def Pass.Progress (data : List UInt8) (x x' : Pass) : Prop :=
  (x'.stream data).length < (x.stream data).length ∨
    x'.iret = data.length ∧ x'.sync.truepacketlen < netPackageHeadlen + 2

/-- What a part of the loop body may do: go on with an invariant state and fewer undecided bytes,
fall through in a state satisfying `Q`, or return with all input consumed. -/
def Step.Good (host : Host) (data : List UInt8) (x : Pass) (Q : Pass → Prop) : Step → Prop
  | .next x' => x'.Ok host data ∧ x.Advance host data x' ∧ x.Progress data x' ∧
      x'.sync.parsetype = .parseNothing
  | .fall x' => x'.Ok host data ∧ x.Advance host data x' ∧ Q x'
  | .ret x' => x'.Ok host data ∧ x.Advance host data x' ∧ x'.iret = data.length ∧
      x'.sync.parsetype = .parseHead ∧ x'.sync.getdatalen ≤ x'.sync.datalen

section ParseHeader

variable {host : Host} {data : List UInt8} {x : Pass}

/-- The pass after a `continue` of the header part, from its decoder, given that the rest of the
stream was reduced. -/
theorem good_next_of_shift {y : Pass} {p : PacketSync} {k : ℤ} {log : List Effect}
    {Q : Pass → Prop} (hy : y.Ok host data) (hnothing : p.parsetype = .parseNothing)
    (hread : p.ReadInv) (h0 : 0 ≤ k) (hk : k ≤ p.truepacketlen)
    (hcb : p.packetCb = x.sync.packetCb) (hhead : p.head = x.sync.head)
    (htail : p.tail = x.sync.tail)
    (hred : (x.sync.framing host).Reduces (x.stream data) []
      (p.threadReaddata.base.read k (p.truepacketlen - k) ++ data.drop y.iret.toNat))
    (hlog : frames log = frames x.log)
    (hprog : x.Progress data ⟨p.shiftRead k, y.iret, log⟩) :
    Step.Good host data x Q (.next ⟨p.shiftRead k, y.iret, log⟩) := by
  have hpend : (p.shiftRead k).pending =
      p.threadReaddata.base.read k (p.truepacketlen - k) := by
    rw [← PacketSync.read_shiftRead p hk]
    simp only [PacketSync.pending, PacketSync.shiftRead, hnothing]
  refine ⟨⟨(hread.shiftRead h0 hk).inv hnothing, hy.iret_nonneg, hy.iret_le⟩, ?_, hprog, hnothing⟩
  exact .of_silent hcb hhead htail (by simp only [Pass.stream, hpend]; exact hred) hlog

/-- The number of undecided bytes while no frame is being received. -/
theorem length_stream (hx : x.Ok host data) (hp : x.sync.parsetype = .parseNothing) :
    ((x.stream data).length : ℤ) = x.sync.truepacketlen + (data.length - x.iret) := by
  have h0 := hx.inv.nonneg
  have h1 := hx.iret_nonneg
  have h2 := hx.iret_le
  simp only [Pass.stream, PacketSync.pending, hp, List.length_append, Mem.length_read,
    List.length_drop]
  omega

/-- `y` follows `x` in the loop and has found a head byte at `headpos`; the bytes before it are
skipped. -/
structure Pass.AtHead (host : Host) (data : List UInt8) (x y : Pass) : Prop
    extends y.Ok host data where
  nothing : y.sync.parsetype = .parseNothing
  filled : y.iret = data.length ∨ y.sync.truepacketlen = y.sync.threadReaddata.len
  headpos_nonneg : 0 ≤ y.sync.headpos
  headpos_lt : y.sync.headpos < y.sync.truepacketlen
  base_headpos : y.sync.threadReaddata.base y.sync.headpos = y.sync.head
  packetCb_eq : y.sync.packetCb = x.sync.packetCb
  head_eq : y.sync.head = x.sync.head
  tail_eq : y.sync.tail = x.sync.tail
  frames_eq : frames y.log = frames x.log
  length_eq : ((x.stream data).length : ℤ) = y.sync.truepacketlen + (data.length - y.iret)
  skipped : (x.sync.framing host).Reduces (x.stream data) []
    (y.sync.threadReaddata.base.read y.sync.headpos (y.sync.truepacketlen - y.sync.headpos) ++
      data.drop y.iret.toNat)

/-- The decoder with the header at `headpos` decoded. -/
def PacketSync.decoded (p : PacketSync) (host : Host) : PacketSync :=
  { p with
    theNexPacket :=
      charToNetPacket host (p.threadReaddata.base.read (p.headpos + 1) netPackageHeadlen) }

namespace Pass.AtHead

variable {y : Pass} {log : List Effect} {Q : Pass → Prop}

/-- A shift by `k` bytes leaves fewer undecided ones. -/
theorem progress_shift (h : x.AtHead host data y) {p : PacketSync}
    (hp : p.parsetype = .parseNothing) (htpl : p.truepacketlen = y.sync.truepacketlen) {k : ℤ}
    (hk : 0 < k) (hle : k ≤ p.truepacketlen) : x.Progress data ⟨p.shiftRead k, y.iret, log⟩ := by
  have hlen := h.length_eq
  have hiret := h.iret_le
  have hiret0 := h.iret_nonneg
  left
  simp only [Pass.stream, PacketSync.pending, PacketSync.shiftRead, hp, List.length_append,
    Mem.length_read, List.length_drop] at hlen ⊢
  omega

/-- An incomplete header is cached, if there is anything to do for that. -/
theorem cacheHead_good (h : x.AtHead host data y)
    (hshort : y.sync.truepacketlen - y.sync.headpos - 1 < netPackageHeadlen)
    (hlog : frames log = frames x.log) :
    Step.Good host data x Q (.next ⟨y.sync.cacheHead.1, y.iret, log⟩) := by
  have hread := h.inv.toReadInv
  have hsize := hread.size_le
  have hbig : netPackageHeadlen + 2 < bufferSize := by decide
  simp only [cast_netPackageHeadlen] at hshort hbig
  rcases y.sync.cacheHead_fst with ⟨hpos, hfst⟩ | ⟨hpos, hfst⟩
  · -- the head byte is at the front already: the buffer has room, so all input has been read
    have hall : y.iret = data.length := by
      refine h.filled.resolve_right fun hfull => ?_
      omega
    have hpend : y.stream data =
        y.sync.threadReaddata.base.read y.sync.headpos (y.sync.truepacketlen - y.sync.headpos) ++
          data.drop y.iret.toNat := by
      simp only [Pass.stream, PacketSync.pending, h.nothing, hpos, sub_zero]
    rw [hfst]
    refine ⟨⟨h.inv, h.iret_nonneg, h.iret_le⟩, ?_, .inr ⟨hall, ?_⟩, h.nothing⟩
    · exact .of_silent h.packetCb_eq h.head_eq h.tail_eq (hpend ▸ h.skipped) hlog
    · simp only [cast_netPackageHeadlen]
      omega
  · have hlt := h.headpos_lt
    have h0 := h.headpos_nonneg
    rw [hfst]
    exact good_next_of_shift h.toOk h.nothing hread h0 hlt.le h.packetCb_eq h.head_eq h.tail_eq
      h.skipped hlog (h.progress_shift h.nothing rfl (by omega) hlt.le)

/-- The framing looks at the same header as the decoder. -/
theorem framing_header (h : x.AtHead host data y) :
    (x.sync.framing host).header
        (y.sync.threadReaddata.base.read (y.sync.headpos + 1) netPackageHeadlen) =
      if (y.sync.decoded host).badHeader then none
      else some ((y.sync.decoded host).theNexPacket, (y.sync.decoded host).datalen.toNat) := by
  have hframing : x.sync.framing host = (y.sync.decoded host).framing host := by
    rw [PacketSync.framing, PacketSync.framing, PacketSync.decoded, h.head_eq, h.tail_eq]
  rw [hframing]
  exact PacketSync.framing_header rfl

/-- A refused header drops the head byte. -/
theorem dropHead_good (h : x.AtHead host data y)
    (hlong : (netPackageHeadlen : ℤ) ≤ y.sync.truepacketlen - y.sync.headpos - 1)
    (hbad : (y.sync.decoded host).badHeader = true) (hlog : frames log = frames x.log) :
    Step.Good host data x Q (.next ⟨(y.sync.decoded host).dropHead.1, y.iret, log⟩) := by
  have hread := h.inv.toReadInv
  have h0 := h.headpos_nonneg
  have hlt := h.headpos_lt
  have hcons : y.sync.threadReaddata.base.read y.sync.headpos
        (y.sync.truepacketlen - y.sync.headpos) =
      x.sync.head :: y.sync.threadReaddata.base.read (y.sync.headpos + 1)
        (y.sync.truepacketlen - (y.sync.headpos + 1)) := by
    rw [Mem.read_eq_cons _ _ (by omega), h.base_headpos, h.head_eq, sub_sub]
  have htake : (y.sync.threadReaddata.base.read (y.sync.headpos + 1)
        (y.sync.truepacketlen - (y.sync.headpos + 1)) ++ data.drop y.iret.toNat).take
          netPackageHeadlen =
      y.sync.threadReaddata.base.read (y.sync.headpos + 1) netPackageHeadlen := by
    rw [List.take_append_of_le_length, Mem.take_read]
    · omega
    · rw [Mem.length_read]
      omega
  have hdrop : (x.sync.framing host).Reduces (x.stream data) []
      (y.sync.threadReaddata.base.read (y.sync.headpos + 1)
          (y.sync.truepacketlen - (y.sync.headpos + 1)) ++ data.drop y.iret.toNat) := by
    refine h.skipped.trans ?_
    rw [hcons, List.cons_append]
    refine .skip (Framing.verdict_of_header_none ?_ ?_) (.refl _)
    · show netPackageHeadlen ≤ _
      rw [List.length_append, Mem.length_read]
      omega
    · show (x.sync.framing host).header (List.take netPackageHeadlen _) = none
      rw [htake, h.framing_header, if_pos hbad]
  rw [PacketSync.dropHead_fst]
  have hread' : (y.sync.decoded host).ReadInv :=
    ⟨hread.size_le, hread.nonneg, hread.le_len, hread.packet_size⟩
  have hnothing : (y.sync.decoded host).parsetype = .parseNothing := h.nothing
  have hpos : 0 < (y.sync.decoded host).headpos + 1 := Int.lt_add_one_of_le h0
  have hle : (y.sync.decoded host).headpos + 1 ≤ (y.sync.decoded host).truepacketlen := hlt
  exact good_next_of_shift h.toOk hnothing hread' hpos.le hle h.packetCb_eq h.head_eq h.tail_eq
    hdrop hlog (h.progress_shift hnothing rfl hpos hle)

/-- An accepted header decides nothing yet. -/
theorem accepted_good (h : x.AtHead host data y)
    (hlong : (netPackageHeadlen : ℤ) ≤ y.sync.truepacketlen - y.sync.headpos - 1)
    (hgood : (y.sync.decoded host).badHeader = false) (hlog : frames log = frames x.log) :
    Step.Good host data x (fun x' => x'.sync.parsetype = .parseHead)
      (.fall ⟨(y.sync.decoded host).accepted, y.iret, log⟩) := by
  have hread := h.inv.toReadInv
  have hlen : (y.sync.decoded host).headpos + 1 + netPackageHeadlen ≤
      (y.sync.decoded host).truepacketlen := by
    simp only [PacketSync.decoded]
    omega
  have hinv : (y.sync.decoded host).accepted.Inv host :=
    PacketSync.inv_accepted ⟨hread.size_le, hread.nonneg, hread.le_len, hread.packet_size⟩
      h.headpos_nonneg hlen h.base_headpos rfl hgood
  have hpend := PacketSync.pending_accepted hgood hlen
  refine ⟨⟨hinv, h.iret_nonneg, h.iret_le⟩, .of_silent ?_ ?_ ?_ ?_ hlog, ?_⟩
  · show (y.sync.decoded host).accepted.packetCb = _
    rw [PacketSync.accepted_eq, ← h.packetCb_eq]
    rfl
  · show (y.sync.decoded host).accepted.head = _
    rw [PacketSync.accepted_eq, ← h.head_eq]
    rfl
  · show (y.sync.decoded host).accepted.tail = _
    rw [PacketSync.accepted_eq, ← h.tail_eq]
    rfl
  · show (x.sync.framing host).Reduces _ [] ((y.sync.decoded host).accepted.pending ++ _)
    rw [hpend]
    exact h.skipped
  · show (y.sync.decoded host).accepted.parsetype = _
    rw [PacketSync.accepted_eq]

/-- Decoding the header goes on with fewer undecided bytes, or accepts it. -/
theorem decodeHeader_good (h : x.AtHead host data y) :
    (decodeHeader host y).Good host data x fun x' => x'.sync.parsetype = .parseHead := by
  simp only [decodeHeader]
  split
  case isTrue hshort => exact h.cacheHead_good hshort (by simp [h.frames_eq])
  case isFalse hlong =>
    split
    case isTrue hbad => exact h.dropHead_good (not_lt.mp hlong) hbad (by simp [h.frames_eq])
    case isFalse hgood =>
      exact h.accepted_good (not_lt.mp hlong) (Bool.eq_false_iff.mpr hgood) (by simp [h.frames_eq])

end Pass.AtHead

/-- `y` is the pass `x` when `thread_readdata` has been filled: the same bytes are undecided. -/
structure Pass.Filled (host : Host) (data : List UInt8) (x y : Pass) : Prop
    extends y.Ok host data where
  nothing : y.sync.parsetype = .parseNothing
  filled : y.iret = data.length ∨ y.sync.truepacketlen = y.sync.threadReaddata.len
  packetCb_eq : y.sync.packetCb = x.sync.packetCb
  head_eq : y.sync.head = x.sync.head
  tail_eq : y.sync.tail = x.sync.tail
  frames_eq : frames y.log = frames x.log
  stream_eq : y.stream data = x.stream data

/-- Filling `thread_readdata` decides about no byte. -/
theorem filled_fillReaddata (hx : x.Ok host data) (hp : x.sync.parsetype = .parseNothing) :
    x.Filled host data (fillReaddata data x) := by
  obtain ⟨hy, hfill, hstream⟩ := fillReaddata_spec hx hp
  have hsync := fillReaddata_sync data x
  have hroom : (fillReaddata data x).sync.threadReaddata.len = x.sync.threadReaddata.len := by
    rw [hsync]
    rfl
  exact {
    toOk := hy
    nothing := by rw [hsync]; exact hp
    filled := hfill.imp_right fun h => h.trans hroom.symm
    packetCb_eq := by rw [hsync]
    head_eq := by rw [hsync]
    tail_eq := by rw [hsync]
    frames_eq := frames_fillReaddata data x
    stream_eq := hstream }

namespace Pass.Filled

variable {y : Pass} {log : List Effect} {Q : Pass → Prop}

/-- The framing is the one of the pass before. -/
theorem framing_eq (h : x.Filled host data y) : y.sync.framing host = x.sync.framing host := by
  rw [PacketSync.framing, PacketSync.framing, h.head_eq, h.tail_eq]

/-- The undecided bytes are those of `thread_readdata` and the rest of the input. -/
theorem stream_eq_read (h : x.Filled host data y) : x.stream data =
    y.sync.threadReaddata.base.read 0 y.sync.truepacketlen ++ data.drop y.iret.toNat := by
  rw [← h.stream_eq]
  simp only [Pass.stream, PacketSync.pending, h.nothing]

/-- They are cut where a head byte is. -/
theorem stream_eq_split (h : x.Filled host data y) {headpos : ℤ} (h0 : 0 ≤ headpos)
    (hlt : headpos < y.sync.truepacketlen) : x.stream data =
      y.sync.threadReaddata.base.read 0 headpos ++
        (y.sync.threadReaddata.base.read headpos (y.sync.truepacketlen - headpos) ++
          data.drop y.iret.toNat) := by
  have hsplit := Mem.read_add y.sync.threadReaddata.base 0 (a := headpos)
    (b := y.sync.truepacketlen - headpos) h0 (by omega)
  rw [add_sub_cancel, zero_add] at hsplit
  rw [h.stream_eq_read, hsplit, List.append_assoc]

/-- Entering the loop body, there is at least one byte to look at. -/
theorem pos (h : x.Filled host data y) (hx : x.Ok host data) (hp : x.sync.parsetype = .parseNothing)
    (hrun : x.iret < data.length ∨ x.sync.truepacketlen ≥ netPackageHeadlen + 2) :
    0 < y.sync.truepacketlen := by
  have hlen := length_stream h.toOk h.nothing
  rw [h.stream_eq, length_stream hx hp] at hlen
  have hsize := h.inv.size_le
  have h0 := hx.inv.nonneg
  have hle := hx.iret_le
  have hfill := h.filled
  have hbig : 0 < bufferSize := by decide
  simp only [cast_netPackageHeadlen] at hrun
  omega

/-- Without a head byte, everything read so far is skipped. -/
theorem noHead_good (h : x.Filled host data y) (hpos : 0 < y.sync.truepacketlen)
    (hfind : y.sync.findHead = none) (hlog : frames log = frames x.log) :
    Step.Good host data x Q (.next ⟨{ y.sync with truepacketlen := 0 }, y.iret, log⟩) := by
  have hread := h.inv.toReadInv
  have hempty : ({ y.sync with truepacketlen := 0 } : PacketSync).ReadInv :=
    ⟨hread.size_le, le_refl _, le_trans hread.nonneg hread.le_len, hread.packet_size⟩
  have hred : (x.sync.framing host).Reduces (x.stream data) [] (data.drop y.iret.toNat) := by
    rw [h.stream_eq_read]
    exact .skip_append (h.framing_eq ▸ PacketSync.findHead_eq_none hfind)
  have hleft : Pass.stream data ⟨{ y.sync with truepacketlen := 0 }, y.iret, log⟩ =
      data.drop y.iret.toNat := by
    simp only [Pass.stream, PacketSync.pending, h.nothing, Mem.read_zero, List.nil_append]
  refine ⟨⟨hempty.inv h.nothing, h.iret_nonneg, h.iret_le⟩,
    .of_silent h.packetCb_eq h.head_eq h.tail_eq (hleft ▸ hred) hlog, .inl ?_, h.nothing⟩
  rw [hleft, h.stream_eq_read, List.length_append, Mem.length_read]
  omega

/-- At the first head byte, everything before it is skipped. -/
theorem atHead (h : x.Filled host data y) {headpos : ℤ} (hfind : y.sync.findHead = some headpos)
    (hlog : frames log = frames x.log) :
    x.AtHead host data ⟨{ y.sync with headpos }, y.iret, log⟩ := by
  obtain ⟨h0, hlt, hbase, hbefore⟩ := PacketSync.findHead_eq_some host hfind
  have hread := h.inv.toReadInv
  have hread' : ({ y.sync with headpos } : PacketSync).ReadInv :=
    ⟨hread.size_le, hread.nonneg, hread.le_len, hread.packet_size⟩
  have hskip : (x.sync.framing host).Reduces (x.stream data) []
      (y.sync.threadReaddata.base.read headpos (y.sync.truepacketlen - headpos) ++
        data.drop y.iret.toNat) := by
    rw [h.stream_eq_split h0 hlt]
    exact .skip_append (h.framing_eq ▸ hbefore)
  exact {
    inv := hread'.inv h.nothing
    iret_nonneg := h.iret_nonneg
    iret_le := h.iret_le
    nothing := h.nothing
    filled := h.filled
    headpos_nonneg := h0
    headpos_lt := hlt
    base_headpos := hbase
    packetCb_eq := h.packetCb_eq
    head_eq := h.head_eq
    tail_eq := h.tail_eq
    frames_eq := hlog
    length_eq := h.stream_eq ▸ length_stream h.toOk h.nothing
    skipped := hskip }

end Pass.Filled

/-- The header part of the loop body goes on with fewer undecided bytes, or has accepted a
header. -/
theorem parseHeader_good (hx : x.Ok host data) (hp : x.sync.parsetype = .parseNothing)
    (hrun : x.iret < data.length ∨ x.sync.truepacketlen ≥ netPackageHeadlen + 2) :
    (parseHeader host data x).Good host data x fun x' => x'.sync.parsetype = .parseHead := by
  have hfilled := filled_fillReaddata hx hp
  have hpos := hfilled.pos hx hp hrun
  simp only [parseHeader]
  generalize fillReaddata data x = y at *
  cases hfind : y.sync.findHead with
  | none => exact hfilled.noHead_good hpos hfind (by simp [hfilled.frames_eq])
  | some headpos => exact (hfilled.atHead hfind (by simp [hfilled.frames_eq])).decodeHeader_good

end ParseHeader

/-! ### Receiving the payload -/

namespace PacketSync

variable {host : Host} {p : PacketSync}

/-- More bytes of the frame have been copied to `thread_packetdata`. -/
def receive (p : PacketSync) (bytes : List UInt8) : PacketSync :=
  { p with
    threadPacketdata := p.threadPacketdata.memcpy p.getdatalen bytes
    getdatalen := p.getdatalen + bytes.length }

/-- While the frame is incomplete, nothing of what `thread_readdata` holds follows it. -/
theorem pending_of_incomplete (hp : p.parsetype = .parseHead) (h : p.FrameInv host)
    (hlt : p.getdatalen < p.datalen + 1) :
    p.pending = p.threadReaddata.base.read p.headpos (1 + netPackageHeadlen) ++
      p.threadPacketdata.base.read 0 p.getdatalen := by
  have hle := h.le_got
  simp only [pending, hp]
  rw [Mem.read_of_nonpos _ _ (n := p.bodyInReaddata - (p.datalen + 1)) (by omega), List.append_nil]

/-- Receiving bytes of the frame keeps the invariant and appends them to the pending ones. -/
theorem receive_spec {bytes : List UInt8} (hp : p.parsetype = .parseHead) (hinv : p.Inv host)
    (hlt : p.getdatalen < p.datalen + 1) (hle : p.getdatalen + bytes.length ≤ p.datalen + 1) :
    (p.receive bytes).Inv host ∧ (p.receive bytes).pending = p.pending ++ bytes := by
  have h := hinv.frame hp
  have hgot := h.got_nonneg
  have hbody := h.le_got
  have happ := Mem.read_write_append p.threadPacketdata.base 0 (k := p.getdatalen)
    (n := p.getdatalen + bytes.length) bytes hgot rfl
  rw [zero_add] at happ
  have hcopied : (p.threadPacketdata.base.write p.getdatalen bytes).read 0
        (min p.bodyInReaddata (p.datalen + 1)) =
      p.threadPacketdata.base.read 0 (min p.bodyInReaddata (p.datalen + 1)) :=
    Mem.read_write_of_le _ _ (by omega)
  constructor
  · exact {
      size_le := hinv.size_le
      nonneg := hinv.nonneg
      le_len := hinv.le_len
      packet_size := hinv.packet_size
      frame := fun _ => {
        headpos_nonneg := h.headpos_nonneg
        header_le := h.header_le
        head_eq := h.head_eq
        packet_eq := h.packet_eq
        good := h.good
        got_nonneg := by simp only [receive]; omega
        got_le := hle
        le_got := le_trans h.le_got (by simp only [receive]; omega)
        fits := h.fits
        copied := hcopied.trans h.copied } }
  · rw [pending_of_incomplete hp h hlt, List.append_assoc]
    simp only [pending, receive, hp, UvBuf.memcpy_base]
    rw [happ]
    have hnil : p.threadReaddata.base.read (p.headpos + 1 + netPackageHeadlen + (p.datalen + 1))
        (p.bodyInReaddata - (p.datalen + 1)) = [] := Mem.read_of_nonpos _ _ (by omega)
    show _ ++ _ ++ p.threadReaddata.base.read
      (p.headpos + 1 + netPackageHeadlen + (p.datalen + 1)) (p.bodyInReaddata - (p.datalen + 1)) = _
    rw [hnil, List.append_nil]

end PacketSync

/-! ### Finishing a frame -/

namespace PacketSync

variable {host : Host} {p : PacketSync}

/-- The bytes of `thread_readdata` behind the frame being received. -/
def leftover (p : PacketSync) : List UInt8 :=
  p.threadReaddata.base.read (p.headpos + 1 + netPackageHeadlen + (p.datalen + 1))
    (p.bodyInReaddata - (p.datalen + 1))

/-- What follows the head byte of a complete frame: header, payload, tail byte and leftover. -/
def frameBytes (p : PacketSync) : List UInt8 :=
  p.threadReaddata.base.read (p.headpos + 1) netPackageHeadlen ++
    (p.threadPacketdata.base.read 0 p.datalen ++
      p.threadPacketdata.base p.datalen :: p.leftover)

/-- The payload and the tail byte. -/
theorem read_body (hn : 0 ≤ p.datalen) :
    p.threadPacketdata.base.read 0 (p.datalen + 1) =
      p.threadPacketdata.base.read 0 p.datalen ++ [p.threadPacketdata.base p.datalen] := by
  rw [Mem.read_add _ _ hn zero_le_one, zero_add, Mem.read_eq_cons _ _ zero_lt_one, sub_self,
    Mem.read_zero]

/-- The payload and the tail byte are read together. -/
theorem frameBytes_eq (hn : 0 ≤ p.datalen) :
    p.frameBytes = p.threadReaddata.base.read (p.headpos + 1) netPackageHeadlen ++
      (p.threadPacketdata.base.read 0 (p.datalen + 1) ++ p.leftover) := by
  rw [frameBytes, read_body hn, List.append_assoc, List.singleton_append]

/-- The pending bytes of a complete frame. -/
theorem pending_of_complete (hp : p.parsetype = .parseHead) (h : p.FrameInv host)
    (hgot : p.getdatalen = p.datalen + 1) : p.pending = p.head :: p.frameBytes := by
  have hn := datalen_nonneg h.good
  simp only [pending, hp]
  rw [hgot, read_headpos_eq_cons h, frameBytes_eq hn, List.cons_append, List.cons_append,
    List.append_assoc, leftover]

/-- Nothing is left over unless `thread_readdata` holds the whole frame. -/
theorem leftover_eq_nil (h : p.bodyInReaddata < p.datalen + 1) : p.leftover = [] :=
  Mem.read_of_nonpos _ _ (by omega)

/-- When `thread_readdata` holds the whole frame, what follows its head byte is the frame and the bytes
behind it. -/
theorem read_frameBytes (h : p.FrameInv host) (henough : p.datalen + 1 ≤ p.bodyInReaddata) :
    p.threadReaddata.base.read (p.headpos + 1) (p.truepacketlen - (p.headpos + 1)) =
      p.frameBytes := by
  have hn := datalen_nonneg h.good
  have hcopied := h.copied
  rw [min_eq_right henough] at hcopied
  rw [frameBytes_eq hn, hcopied, leftover, ← Mem.read_add _ _ (by omega) (by omega), add_sub_cancel,
    ← Mem.read_add _ _ (by simp) (by omega), bodyInReaddata]
  congr 1
  ring

/-- `thread_readdata` is rebuilt from the header and the packet data: the second copy goes behind the first
one, with or without a `realloc`. -/
theorem read_rebuilt (hn : 0 ≤ p.datalen) {readdata : UvBuf} (hbase : readdata.base = p.threadReaddata.base) :
    ((readdata.memcpy 0 (readdata.base.read (p.headpos + 1) netPackageHeadlen)).memcpy
        netPackageHeadlen (p.threadPacketdata.base.read 0 (p.datalen + 1))).base.read 0
      (netPackageHeadlen + (p.datalen + 1)) =
    p.threadReaddata.base.read (p.headpos + 1) netPackageHeadlen ++
      p.threadPacketdata.base.read 0 (p.datalen + 1) := by
  have happ := Mem.read_write_append (readdata.base.write 0
      (readdata.base.read (p.headpos + 1) netPackageHeadlen)) 0
    (k := netPackageHeadlen) (n := netPackageHeadlen + (p.datalen + 1))
    (p.threadPacketdata.base.read 0 (p.datalen + 1)) (by simp)
    (by rw [Mem.length_read]; omega)
  rw [zero_add] at happ
  simp only [UvBuf.memcpy_base]
  rw [happ, Mem.read_write _ _ _ (by rw [Mem.length_read]; rfl), hbase]

/-- After a wrong tail byte, what followed the head byte is parsed again. -/
theorem rejectTail_spec (hinv : p.ReadInv) (h : p.FrameInv host) :
    p.rejectTail.1.ReadInv ∧ p.rejectTail.1.parsetype = .parseNothing ∧
      p.rejectTail.1.pending = p.frameBytes ∧ p.rejectTail.1.packetCb = p.packetCb ∧
      p.rejectTail.1.head = p.head ∧ p.rejectTail.1.tail = p.tail ∧
      frames p.rejectTail.2 = [] := by
  have hn := datalen_nonneg h.good
  have h0 := h.headpos_nonneg
  have hle := h.header_le
  simp only [cast_netPackageHeadlen] at hle
  simp only [rejectTail]
  split
  case isTrue henough =>
    -- the head byte is dropped in `thread_readdata`
    have hdrop := p.dropHead_fst
    have hshift := hinv.shiftRead (k := p.headpos + 1) (by omega) (by omega)
    have hread := read_shiftRead p (k := p.headpos + 1) (by omega)
    rw [← hdrop] at hshift hread
    refine ⟨⟨hshift.size_le, hshift.nonneg, hshift.le_len, hshift.packet_size⟩, rfl, ?_, ?_, ?_, ?_,
      ?_⟩
    · rw [← read_frameBytes h henough, ← hread]
      rfl
    · show p.dropHead.1.packetCb = _
      rw [hdrop]; rfl
    · show p.dropHead.1.head = _
      rw [hdrop]; rfl
    · show p.dropHead.1.tail = _
      rw [hdrop]; rfl
    · simp
  case isFalse hshort =>
    rw [frameBytes_eq hn, leftover_eq_nil (not_le.mp hshort), List.append_nil]
    have hsize := hinv.size_le
    split
    case isTrue hgrow =>
      refine ⟨⟨?_, ?_, ?_, hinv.packet_size⟩, rfl, read_rebuilt hn rfl, rfl, rfl, rfl, by simp⟩
      · simp only [UvBuf.memcpy_len, UvBuf.realloc_len]
        omega
      · simp only [cast_netPackageHeadlen]
        omega
      · simp only [UvBuf.memcpy_len, UvBuf.realloc_len]
        omega
    case isFalse hfits =>
      refine ⟨⟨hsize, ?_, ?_, hinv.packet_size⟩, rfl, read_rebuilt hn rfl, rfl, rfl, rfl, by simp⟩
      · simp only [cast_netPackageHeadlen]
        omega
      · simp only [UvBuf.memcpy_len]
        omega

/-- After a delivery, only the leftover is pending. -/
theorem deliver_spec (hinv : p.ReadInv) (h : p.FrameInv host) :
    p.deliver.1.ReadInv ∧ p.deliver.1.parsetype = .parseNothing ∧
      p.deliver.1.pending = p.leftover ∧ p.deliver.1.packetCb = p.packetCb ∧
      p.deliver.1.head = p.head ∧ p.deliver.1.tail = p.tail ∧
      (p.packetCb = true →
        frames p.deliver.2 = [(p.theNexPacket, p.threadPacketdata.base.read 0 p.datalen)]) := by
  have hn := datalen_nonneg h.good
  have h0 := h.headpos_nonneg
  have htpl := hinv.nonneg
  simp only [deliver]
  split
  case isTrue henough =>
    have hend : p.headpos + netPackageHeadlen + p.datalen + 2 ≤ p.truepacketlen := by
      simp only [bodyInReaddata, cast_netPackageHeadlen] at henough ⊢
      omega
    have hshift := hinv.shiftRead (k := p.headpos + netPackageHeadlen + p.datalen + 2)
      (by simp only [cast_netPackageHeadlen]; omega) hend
    have hread := read_shiftRead p hend
    refine ⟨⟨hshift.size_le, hshift.nonneg, hshift.le_len, hshift.packet_size⟩, trivial, ?_, rfl,
      rfl, rfl, ?_⟩
    · have hleft : p.leftover = p.threadReaddata.base.read
          (p.headpos + netPackageHeadlen + p.datalen + 2)
          (p.truepacketlen - (p.headpos + netPackageHeadlen + p.datalen + 2)) := by
        rw [leftover, bodyInReaddata]
        congr 1 <;> ring
      exact hread.trans hleft.symm
    · intro hcb
      simp only [hcb, if_true, frames_append, frames_size, frames_int, frames_copy, frames_packetCb,
        frames_nil, List.nil_append]
      rfl
  case isFalse hshort =>
    rw [leftover_eq_nil (not_le.mp hshort)]
    refine ⟨⟨hinv.size_le, le_refl _, le_trans htpl hinv.le_len, hinv.packet_size⟩, trivial, ?_,
      rfl, rfl, rfl, ?_⟩
    · exact Mem.read_zero _ _
    · intro hcb
      simp only [hcb, if_true, frames_append, frames_size, frames_int, frames_packetCb,
        frames_nil, List.nil_append]
      rfl

end PacketSync

section ReceiveFrame

variable {host : Host} {data : List UInt8} {x : Pass}

/-- Moving `k` input bytes to the frame keeps the invariant and the undecided bytes. -/
theorem receive_pass (hx : x.Ok host data) (hp : x.sync.parsetype = .parseHead)
    (hlt : x.sync.getdatalen < x.sync.datalen + 1) {k : ℤ} (hk0 : 0 ≤ k)
    (hk : k ≤ data.length - x.iret) (hle : x.sync.getdatalen + k ≤ x.sync.datalen + 1)
    (log : List Effect) :
    let bytes := (data.drop x.iret.toNat).take k.toNat
    let x' : Pass := ⟨x.sync.receive bytes, x.iret + k, log⟩
    (bytes.length : ℤ) = k ∧ x'.Ok host data ∧ x'.stream data = x.stream data := by
  have hi0 := hx.iret_nonneg
  have hlen : (((data.drop x.iret.toNat).take k.toNat).length : ℤ) = k := by
    rw [List.length_take, List.length_drop]
    omega
  obtain ⟨hinv, hpend⟩ := PacketSync.receive_spec hp hx.inv hlt (hlen ▸ hle)
  have hdrop : data.drop (x.iret + k).toNat = (data.drop x.iret.toNat).drop k.toNat := by
    rw [List.drop_drop, Int.toNat_add hi0 hk0]
  refine ⟨hlen, ⟨hinv, by simp only; omega, by simp only; omega⟩, ?_⟩
  simp only [Pass.stream, hpend, hdrop, List.append_assoc, List.take_append_drop]

/-- Receiving data keeps the invariant and moves input bytes to the frame; it falls through when the
frame is complete and returns when the input is used up before. -/
theorem receiveData_good (hx : x.Ok host data) (hp : x.sync.parsetype = .parseHead) :
    (receiveData data x).Good host data x fun x' => x'.sync.parsetype = .parseHead ∧
      x'.sync.getdatalen = x'.sync.datalen + 1 ∧ x'.stream data = x.stream data := by
  have h := hx.inv.frame hp
  have hi0 := hx.iret_nonneg
  have hile := hx.iret_le
  have hgle := h.got_le
  -- the undecided bytes stay, so that nothing is reduced
  have hsilent : ∀ x' : Pass, x'.sync.packetCb = x.sync.packetCb → x'.sync.head = x.sync.head →
      x'.sync.tail = x.sync.tail → x'.stream data = x.stream data →
      frames x'.log = frames x.log → x.Advance host data x' := by
    intro x' hcb hhead htail hstream hlog
    refine .of_silent hcb hhead htail ?_ hlog
    rw [hstream]
    exact .refl _
  simp only [receiveData]
  split
  case isFalse hfull =>
    exact ⟨⟨hx.inv, hi0, hile⟩, .of_silent rfl rfl rfl (.refl _) (by simp), hp, by simp only; omega,
      rfl⟩
  case isTrue hlt =>
    split
    case isTrue hshort =>
      obtain ⟨hlen, hok, hstream⟩ := receive_pass hx hp hlt (k := data.length - x.iret) (by omega)
        le_rfl (by omega) (x.log ++
          [.int (x.sync.datalen + 1), .int (data.length - x.iret),
            .int (x.sync.getdatalen + (data.length - x.iret))] ++
          [.copy x.sync.threadPacketdata.len x.sync.getdatalen data.length x.iret
            (data.length - x.iret)])
      simp only [PacketSync.receive, hlen, add_sub_cancel] at hok hstream
      refine ⟨hok, hsilent _ rfl rfl rfl hstream (by simp), rfl, hp, ?_⟩
      show x.sync.getdatalen + (data.length - x.iret) ≤ x.sync.datalen
      omega
    case isFalse hlong =>
      obtain ⟨hlen, hok, hstream⟩ := receive_pass hx hp hlt
        (k := x.sync.datalen + 1 - x.sync.getdatalen) (by omega) (by omega) (by omega) (x.log ++
          [.int (x.sync.datalen + 1), .int (data.length - x.iret),
            .int (x.sync.getdatalen + (data.length - x.iret))] ++
          [.copy x.sync.threadPacketdata.len x.sync.getdatalen data.length x.iret
            (x.sync.datalen + 1 - x.sync.getdatalen),
            .int (x.sync.datalen + 1 - x.sync.getdatalen),
            .int (x.iret + (x.sync.datalen + 1 - x.sync.getdatalen))])
      simp only [PacketSync.receive, hlen, add_sub_cancel] at hok hstream
      exact ⟨hok, hsilent _ rfl rfl rfl hstream (by simp), hp, rfl, hstream⟩

/-- The undecided bytes begin with a complete frame. -/
theorem stream_of_complete (hx : x.Ok host data) (hp : x.sync.parsetype = .parseHead)
    (hgot : x.sync.getdatalen = x.sync.datalen + 1) :
    x.stream data = x.sync.head :: (x.sync.frameBytes ++ data.drop x.iret.toNat) := by
  rw [Pass.stream, PacketSync.pending_of_complete hp (hx.inv.frame hp) hgot, List.cons_append]

/-- The parts of the frame, as the framing sees them. -/
theorem frameBytes_append (p : PacketSync) (rest : List UInt8) :
    p.frameBytes ++ rest = p.threadReaddata.base.read (p.headpos + 1) netPackageHeadlen ++
      (p.threadPacketdata.base.read 0 p.datalen ++
        p.threadPacketdata.base p.datalen :: (p.leftover ++ rest)) := by
  simp only [PacketSync.frameBytes, List.append_assoc, List.cons_append]

/-- The framing takes the header of a frame that is being received. -/
theorem framing_header_of_frame (h : x.sync.FrameInv host) :
    (x.sync.framing host).header
        (x.sync.threadReaddata.base.read (x.sync.headpos + 1) netPackageHeadlen) =
      some (x.sync.theNexPacket, x.sync.datalen.toNat) := by
  have hheader := PacketSync.framing_header h.packet_eq
  rwa [h.good, if_neg Bool.false_ne_true] at hheader

/-- A frame whose byte behind the payload is not the tail byte is rejected: its head byte is dropped. -/
theorem rejectTail_good (hx : x.Ok host data) (hp : x.sync.parsetype = .parseHead)
    (hgot : x.sync.getdatalen = x.sync.datalen + 1)
    (htail : charToInt (x.sync.threadPacketdata.base x.sync.datalen) ≠ x.sync.tail.toNat) {log : List Effect}
    (hlog : frames log = frames x.log) :
    Pass.Ok host data ⟨x.sync.rejectTail.1, x.iret, log⟩ ∧
      x.Advance host data ⟨x.sync.rejectTail.1, x.iret, log⟩ ∧
      x.Progress data ⟨x.sync.rejectTail.1, x.iret, log⟩ ∧
      x.sync.rejectTail.1.parsetype = .parseNothing := by
  have h := hx.inv.frame hp
  have hstream := stream_of_complete hx hp hgot
  obtain ⟨hinv, htype, hpend, hcb, hheadeq, htaileq, -⟩ :=
    PacketSync.rejectTail_spec hx.inv.toReadInv h
  have hstream' : Pass.stream data ⟨x.sync.rejectTail.1, x.iret, log⟩ =
      x.sync.frameBytes ++ data.drop x.iret.toNat := by
    simp only [Pass.stream, hpend]
  refine ⟨⟨hinv.inv htype, hx.iret_nonneg, hx.iret_le⟩,
    .of_silent hcb hheadeq htaileq ?_ hlog, .inl ?_, htype⟩
  · rw [hstream', hstream, frameBytes_append]
    refine Framing.reduces_bad_tail (beq_self_eq_true _) ?_ (framing_header_of_frame h)
      (Mem.length_read _ _ _) ?_
    · rw [Mem.length_read]
      rfl
    · rw [PacketSync.framing, decoderFraming]
      simpa using htail
  · rw [hstream', hstream]
    exact Nat.lt_succ_self _

/-- A whole frame is delivered. -/
theorem deliver_good (hx : x.Ok host data) (hp : x.sync.parsetype = .parseHead)
    (hgot : x.sync.getdatalen = x.sync.datalen + 1)
    (htail : charToInt (x.sync.threadPacketdata.base x.sync.datalen) = x.sync.tail.toNat) {log : List Effect}
    (hlog : frames log = frames x.log ++ frames x.sync.deliver.2) :
    Pass.Ok host data ⟨x.sync.deliver.1, x.iret, log⟩ ∧
      x.Advance host data ⟨x.sync.deliver.1, x.iret, log⟩ ∧
      x.Progress data ⟨x.sync.deliver.1, x.iret, log⟩ ∧
      x.sync.deliver.1.parsetype = .parseNothing := by
  have h := hx.inv.frame hp
  have hstream := stream_of_complete hx hp hgot
  obtain ⟨hinv, htype, hpend, hcb, hheadeq, htaileq, hframes⟩ :=
    PacketSync.deliver_spec hx.inv.toReadInv h
  have hstream' : Pass.stream data ⟨x.sync.deliver.1, x.iret, log⟩ =
      x.sync.leftover ++ data.drop x.iret.toNat := by
    simp only [Pass.stream, hpend]
  refine ⟨⟨hinv.inv htype, hx.iret_nonneg, hx.iret_le⟩,
    ⟨hcb, hheadeq, htaileq,
      [(x.sync.theNexPacket, x.sync.threadPacketdata.base.read 0 x.sync.datalen)], ?_,
      fun hset => by rw [hlog, hframes hset]⟩, .inl ?_, htype⟩
  · rw [hstream', hstream, frameBytes_append]
    refine Framing.reduces_frame (beq_self_eq_true _) ?_ (framing_header_of_frame h)
      (Mem.length_read _ _ _) ?_
    · rw [Mem.length_read]
      rfl
    · rw [PacketSync.framing, decoderFraming]
      simpa using htail
  · rw [hstream', hstream, frameBytes_append]
    simp only [List.length_cons, List.length_append]
    omega

/-- A complete frame is delivered when its tail byte is right; else its head byte is dropped. -/
theorem finishFrame_good (hx : x.Ok host data) (hp : x.sync.parsetype = .parseHead)
    (hgot : x.sync.getdatalen = x.sync.datalen + 1) :
    (finishFrame x).Ok host data ∧ x.Advance host data (finishFrame x) ∧
      x.Progress data (finishFrame x) ∧ (finishFrame x).sync.parsetype = .parseNothing := by
  have h := hx.inv.frame hp
  simp only [finishFrame]
  split
  case isTrue htail =>
    obtain ⟨-, -, -, -, -, -, hlog⟩ := PacketSync.rejectTail_spec hx.inv.toReadInv h
    exact rejectTail_good hx hp hgot htail (by simp [hlog])
  case isFalse htail => exact deliver_good hx hp hgot (not_not.mp htail) (by simp)

/-- Undecided bytes never grow in number. -/
theorem Pass.Advance.length_le {x' : Pass} (h : x.Advance host data x') :
    (x'.stream data).length ≤ (x.stream data).length := by
  obtain ⟨out, hr, -⟩ := h.reduces
  exact hr.suffix.length_le

/-- Progress after a part of the loop body that decides about some bytes is progress. -/
theorem Pass.Progress.of_advance {x' x'' : Pass} (h : x.Advance host data x')
    (h' : x'.Progress data x'') : x.Progress data x'' :=
  h'.imp_left fun hlt => lt_of_lt_of_le hlt h.length_le

/-- What a part of the loop body does from `x'` on, it does after an advance from `x` as well. -/
theorem Step.Good.of_advance {x' : Pass} {Q : Pass → Prop} {st : Step}
    (hst : st.Good host data x' Q) (h : x.Advance host data x') : st.Good host data x Q := by
  cases st with
  | next y => exact ⟨hst.1, h.trans hst.2.1, hst.2.2.1.of_advance h, hst.2.2.2⟩
  | fall y => exact ⟨hst.1, h.trans hst.2.1, hst.2.2⟩
  | ret y => exact ⟨hst.1, h.trans hst.2.1, hst.2.2⟩

/-- The data part of the loop body. -/
theorem receiveFrame_good (hx : x.Ok host data) (hp : x.sync.parsetype = .parseHead) :
    (receiveFrame data x).Good host data x fun _ => False := by
  have hgood := receiveData_good hx hp
  rw [receiveFrame]
  cases heq : receiveData data x with
  | next x' =>
    rw [heq] at hgood
    exact hgood
  | fall x' =>
    rw [heq] at hgood
    obtain ⟨hok, hadv, htype, hgot, -⟩ := hgood
    have hfinish : Step.Good host data x' (fun _ => False) (.next (finishFrame x')) :=
      finishFrame_good hok htype hgot
    exact hfinish.of_advance hadv
  | ret x' =>
    rw [heq] at hgood
    exact hgood

/-- One pass of the loop body goes on with an invariant state and fewer undecided bytes, or
returns. -/
theorem recvdataBody_good (hx : x.Ok host data)
    (hrun : x.iret < data.length ∨ x.sync.truepacketlen ≥ netPackageHeadlen + 2) :
    (recvdataBody host data x).Good host data x fun _ => False := by
  rw [recvdataBody]
  cases hp : x.sync.parsetype with
  | parseHead => exact receiveFrame_good hx hp
  | parseNothing =>
    have hgood := parseHeader_good hx hp hrun
    cases heq : parseHeader host data x with
    | next x' =>
      rw [heq] at hgood
      exact hgood
    | ret x' =>
      rw [heq] at hgood
      exact hgood
    | fall x' =>
      rw [heq] at hgood
      obtain ⟨hok, hadv, htype⟩ := hgood
      exact (receiveFrame_good hok htype).of_advance hadv

end ReceiveFrame

end MyUvpp
