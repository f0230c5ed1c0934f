import MyUvpp.Packet.PacketSyncInvariant

/-! # The counters of the decoder

What the counters of `PacketSync` satisfy at every point of `recvdata`, whatever the bytes are and
whenever `SetPacketCB` and `Start` have been called. It suffices for the range of every access, and for
the end of the loop: `Pass.remaining`, the number of bytes that are buffered or unread, gets smaller
with every pass but the last one. -/

namespace MyUvpp

namespace PacketSync

/-- The counters while a frame is being received. -/
structure FrameCounters (p : PacketSync) : Prop where
  headpos_nonneg : 0 ≤ p.headpos
  header_le : p.headpos + 1 + netPackageHeadlen ≤ p.truepacketlen
  datalen_nonneg : 0 ≤ p.datalen
  got_nonneg : 0 ≤ p.getdatalen
  got_le : p.getdatalen ≤ p.datalen + 1
  le_got : min p.bodyInReaddata (p.datalen + 1) ≤ p.getdatalen
  fits : p.datalen + 1 ≤ p.threadPacketdata.len

/-- The counters. -/
structure Counters (p : PacketSync) : Prop extends p.ReadInv where
  frame : p.parsetype = .parseHead → p.FrameCounters

variable {p : PacketSync}

/-- A new decoder has its counters in range. -/
theorem counters_new (u : Indeterminate) : (newPacketSync u).Counters where
  size_le := le_refl _
  nonneg := le_refl _
  le_len := by
    show (0 : ℤ) ≤ bufferSize
    decide
  packet_size := le_refl _
  frame := by
    intro hhead
    cases hhead

/-- While no frame is being received, the counters are about `thread_readdata` only. -/
theorem ReadInv.counters (h : p.ReadInv) (hp : p.parsetype = .parseNothing) : p.Counters where
  toReadInv := h
  frame := by
    intro hhead
    cases hp.symm.trans hhead

/-- The counters have nothing to do with the callback and the bytes `HEAD` and `TAIL`. -/
theorem Counters.restart (h : p.Counters) (set : Bool) (packhead packtail : UInt8) :
    ({ p with packetCb := set, head := packhead, tail := packtail } : PacketSync).Counters where
  size_le := h.size_le
  nonneg := h.nonneg
  le_len := h.le_len
  packet_size := h.packet_size
  frame := by
    intro hhead
    have hf := h.frame hhead
    exact ⟨hf.headpos_nonneg, hf.header_le, hf.datalen_nonneg, hf.got_nonneg, hf.got_le, hf.le_got,
      hf.fits⟩

end PacketSync

/-- An access inside its buffers, and a difference in `size_t` that is not negative. -/
def Effect.InRange : Effect → Prop
  | .int _ => True
  | .size v => 0 ≤ v
  | .memchr bufLen n => 0 ≤ n ∧ n ≤ bufLen
  | .copy dstLen dstOff srcLen srcOff n =>
    0 ≤ n ∧ 0 ≤ dstOff ∧ dstOff + n ≤ dstLen ∧ 0 ≤ srcOff ∧ srcOff + n ≤ srcLen
  | .realloc _ _ => True
  | .readTail bufLen idx got => 0 ≤ idx ∧ idx < bufLen ∧ got = idx + 1
  | .packetCb packet data => (data.length : ℤ) = packet.datalen.toInt

/-- All effects of a log are in range. -/
def InRangeLog (log : List Effect) : Prop := ∀ e ∈ log, e.InRange

/-- No effects are in range. -/
@[simp] theorem inRangeLog_nil : InRangeLog [] := by
  simp [InRangeLog]

/-- A log is in range when its first effect and the others are. -/
@[simp] theorem inRangeLog_cons (e : Effect) (log : List Effect) :
    InRangeLog (e :: log) ↔ e.InRange ∧ InRangeLog log := List.forall_mem_cons

/-- Two logs are in range together when each of them is. -/
@[simp] theorem inRangeLog_append (log log' : List Effect) :
    InRangeLog (log ++ log') ↔ InRangeLog log ∧ InRangeLog log' := List.forall_mem_append

/-- The counters of a pass, and everything in range so far. -/
structure Pass.Counted (data : List UInt8) (x : Pass) : Prop where
  counters : x.sync.Counters
  iret_nonneg : 0 ≤ x.iret
  iret_le : x.iret ≤ data.length
  inRange : InRangeLog x.log

/-- The number of bytes that are buffered or unread. -/
def Pass.remaining (data : List UInt8) (x : Pass) : ℤ :=
  data.length - x.iret +
    match x.sync.parsetype with
    | .parseNothing => x.sync.truepacketlen
    | .parseHead =>
      1 + netPackageHeadlen + x.sync.getdatalen +
        max 0 (x.sync.bodyInReaddata - (x.sync.datalen + 1))

/-- How a pass ends: with fewer bytes than `x` had, or too few to go on with; or with all input read and
a frame that is not complete. -/
def Step.Counted (data : List UInt8) (x : Pass) (Q : Pass → Prop) : Step → Prop
  | .next x' => x'.Counted data ∧ x'.sync.parsetype = .parseNothing ∧
      (x'.remaining data < x.remaining data ∨
        x'.iret = data.length ∧ x'.sync.truepacketlen < netPackageHeadlen + 2)
  | .fall x' => x'.Counted data ∧ x'.remaining data ≤ x.remaining data ∧ Q x'
  | .ret x' => x'.Counted data ∧ x'.iret = data.length ∧ x'.sync.parsetype = .parseHead

/-- A pass that started with more bytes. -/
theorem Step.Counted.of_le {data : List UInt8} {x y : Pass} {Q : Pass → Prop} {st : Step}
    (h : st.Counted data y Q) (hle : y.remaining data ≤ x.remaining data) : st.Counted data x Q := by
  cases st with
  | next x' => exact ⟨h.1, h.2.1, h.2.2.imp_left fun hlt => lt_of_lt_of_le hlt hle⟩
  | fall x' => exact ⟨h.1, le_trans h.2.1 hle, h.2.2⟩
  | ret x' => exact h

/-- The measure of the loop is not negative. -/
theorem Pass.Counted.remaining_nonneg {data : List UInt8} {x : Pass} (h : x.Counted data) :
    0 ≤ x.remaining data := by
  have hnonneg := h.counters.nonneg
  have hile := h.iret_le
  rw [Pass.remaining]
  cases hp : x.sync.parsetype with
  | parseNothing =>
    simp only
    omega
  | parseHead =>
    have hgot := (h.counters.frame hp).got_nonneg
    simp only
    omega

/-! ### The header part -/

section ParseHeader

variable {host : Host} {data : List UInt8} {x : Pass}

/-- Without a frame the buffered and the unread bytes remain. -/
theorem remaining_of_parseNothing (data : List UInt8) {x : Pass} (hp : x.sync.parsetype = .parseNothing) :
    x.remaining data = data.length - x.iret + x.sync.truepacketlen := by
  simp [Pass.remaining, hp]

/-- Within a frame the bytes of the frame that have been received remain, those buffered behind it, and the
unread ones. -/
theorem remaining_of_parseHead (data : List UInt8) {x : Pass} (hp : x.sync.parsetype = .parseHead) :
    x.remaining data = data.length - x.iret + (1 + netPackageHeadlen + x.sync.getdatalen +
      max 0 (x.sync.bodyInReaddata - (x.sync.datalen + 1))) := by
  simp [Pass.remaining, hp]

/-- Filling `thread_readdata` stays inside the buffer and the input. -/
theorem fillReaddata_inRange (h : x.Counted data) : InRangeLog (fillReaddata data x).log := by
  have hnonneg := h.counters.nonneg
  have hle := h.counters.le_len
  have hi0 := h.iret_nonneg
  have hile := h.iret_le
  simp only [fillReaddata]
  split <;>
  · simp only [inRangeLog_append, inRangeLog_cons, inRangeLog_nil, and_true, Effect.InRange, true_and]
    refine ⟨h.inRange, ?_⟩
    omega

/-- Filling `thread_readdata` reads all input or fills the buffer, and there is at least one byte. -/
theorem fillReaddata_counted (h : x.Counted data) (hp : x.sync.parsetype = .parseNothing)
    (hrun : x.iret < data.length ∨ x.sync.truepacketlen ≥ netPackageHeadlen + 2) :
    (fillReaddata data x).Counted data ∧ (fillReaddata data x).sync.parsetype = .parseNothing ∧
      (fillReaddata data x).remaining data = x.remaining data ∧
      0 < (fillReaddata data x).sync.truepacketlen ∧
      ((fillReaddata data x).iret = data.length ∨ (fillReaddata data x).sync.truepacketlen =
        (fillReaddata data x).sync.threadReaddata.len) := by
  have hsize := h.counters.size_le
  have hnonneg := h.counters.nonneg
  have hle := h.counters.le_len
  have hi0 := h.iret_nonneg
  have hile := h.iret_le
  have hbig : (0 : ℤ) < bufferSize := by decide
  have hcount : fillCount data x =
      min (x.sync.threadReaddata.len - x.sync.truepacketlen) (data.length - x.iret) := rfl
  have hiret := fillReaddata_iret data x
  have hsync := fillReaddata_sync data x
  have htpl : (fillReaddata data x).sync.truepacketlen = x.sync.truepacketlen + fillCount data x := by
    rw [hsync]
  have hlen : (fillReaddata data x).sync.threadReaddata.len = x.sync.threadReaddata.len := by
    rw [hsync, UvBuf.memcpy_len]
  have hpacket : (fillReaddata data x).sync.threadPacketdata = x.sync.threadPacketdata := by
    rw [hsync]
  have hnothing : (fillReaddata data x).sync.parsetype = .parseNothing := by
    rw [hsync]
    exact hp
  simp only [cast_netPackageHeadlen] at hrun
  have hread : (fillReaddata data x).sync.ReadInv :=
    ⟨by omega, by omega, by omega, hpacket ▸ h.counters.packet_size⟩
  refine ⟨⟨hread.counters hnothing, by omega, by omega, fillReaddata_inRange h⟩, hnothing, ?_, by omega,
    by omega⟩
  rw [remaining_of_parseNothing data hnothing, remaining_of_parseNothing data hp]
  omega

/-- A head byte has been found. -/
structure Pass.HeadFound (data : List UInt8) (x : Pass) : Prop extends x.Counted data where
  nothing : x.sync.parsetype = .parseNothing
  headpos_nonneg : 0 ≤ x.sync.headpos
  headpos_lt : x.sync.headpos < x.sync.truepacketlen
  filled : x.iret = data.length ∨ x.sync.truepacketlen = x.sync.threadReaddata.len

/-- A shift of `thread_readdata`. -/
theorem shiftRead_counted (h : x.Counted data) {p : PacketSync} (hread : p.ReadInv)
    (hp : p.parsetype = .parseNothing) {k : ℤ} (h0 : 0 < k) (hk : k ≤ p.truepacketlen)
    {log : List Effect} (hlog : InRangeLog log) :
    Pass.Counted data ⟨p.shiftRead k, x.iret, log⟩ ∧
      Pass.remaining data ⟨p.shiftRead k, x.iret, log⟩ = data.length - x.iret + (p.truepacketlen - k) :=
  ⟨⟨(hread.shiftRead h0.le hk).counters hp, h.iret_nonneg, h.iret_le, hlog⟩,
    remaining_of_parseNothing data hp⟩

/-- Moving the head byte to the front stays inside the buffer. -/
theorem cacheHead_inRange {p : PacketSync} (hread : p.ReadInv) (h0 : 0 ≤ p.headpos)
    (hlt : p.headpos < p.truepacketlen) : InRangeLog p.cacheHead.2 := by
  have hle := hread.le_len
  simp only [PacketSync.cacheHead]
  split
  · simp only [inRangeLog_cons, inRangeLog_nil, and_true, Effect.InRange]
    omega
  · simp

/-- Dropping the head byte stays inside the buffer. -/
theorem dropHead_inRange {p : PacketSync} (hread : p.ReadInv) (h0 : 0 ≤ p.headpos)
    (hlt : p.headpos < p.truepacketlen) : InRangeLog p.dropHead.2 := by
  have hle := hread.le_len
  simp only [PacketSync.dropHead, inRangeLog_cons, inRangeLog_nil, and_true, Effect.InRange]
  omega

/-- Accepting a complete, good header. -/
theorem accepted_counters {p : PacketSync} (hread : p.ReadInv) (h0 : 0 ≤ p.headpos)
    (hcomplete : p.headpos + 1 + netPackageHeadlen ≤ p.truepacketlen) (hgood : p.badHeader = false) :
    p.accepted.Counters := by
  have hn := PacketSync.datalen_nonneg hgood
  have hbody : 0 ≤ p.bodyInReaddata := by
    rw [PacketSync.bodyInReaddata]
    omega
  rw [PacketSync.accepted_eq]
  refine ⟨⟨hread.size_le, hread.nonneg, hread.le_len, le_max_of_le_left hread.packet_size⟩, fun _ => ?_⟩
  exact ⟨h0, hcomplete, hn, le_min hbody (by omega), min_le_right _ _, le_refl _, le_max_right _ _⟩

/-- Accepting a header stays inside both buffers, `thread_packetdata` being grown before the copy. -/
theorem accepted_inRange {p : PacketSync} (hread : p.ReadInv) (h0 : 0 ≤ p.headpos)
    (hcomplete : p.headpos + 1 + netPackageHeadlen ≤ p.truepacketlen) (hgood : p.badHeader = false) :
    InRangeLog ({ p with parsetype := .parseHead } : PacketSync).growPacketdata.2 ∧ InRangeLog
      ({ p with parsetype := .parseHead } : PacketSync).growPacketdata.1.takeFromReaddata.2 := by
  have hn := PacketSync.datalen_nonneg hgood
  have hle := hread.le_len
  have hbody : p.bodyInReaddata = p.truepacketlen - p.headpos - 1 - 34 := rfl
  constructor
  · simp only [PacketSync.growPacketdata]
    split <;> simp [Effect.InRange]
  · rw [PacketSync.growPacketdata_fst]
    simp only [PacketSync.takeFromReaddata]
    have hbody' : ∀ parsetype buf, PacketSync.bodyInReaddata
        { p with parsetype := parsetype, threadPacketdata := buf } = p.bodyInReaddata := fun _ _ => rfl
    have hdatalen' : ∀ parsetype buf, PacketSync.datalen
        { p with parsetype := parsetype, threadPacketdata := buf } = p.datalen := fun _ _ => rfl
    simp only [hbody', hdatalen']
    simp only [cast_netPackageHeadlen] at hcomplete
    split
    · simp only [inRangeLog_append, inRangeLog_cons, inRangeLog_nil, and_true, Effect.InRange,
        cast_netPackageHeadlen, UvBuf.realloc_len]
      omega
    · simp only [inRangeLog_cons, inRangeLog_nil, and_true, Effect.InRange]
      omega

/-- A header that is not complete: the head byte goes to the front. If it is there already, the buffer has
room, so all input has been read. -/
theorem cacheHead_counted (h : x.HeadFound data)
    (hshort : x.sync.truepacketlen - x.sync.headpos - 1 < netPackageHeadlen) {log : List Effect}
    (hlog : InRangeLog log) (Q : Pass → Prop) :
    (Step.next ⟨x.sync.cacheHead.1, x.iret, log ++ x.sync.cacheHead.2⟩).Counted data x Q := by
  have hread := h.counters.toReadInv
  have h0 := h.headpos_nonneg
  have hsize := hread.size_le
  have hbig : (34 : ℤ) + 2 < bufferSize := by decide
  have hrem := remaining_of_parseNothing data h.nothing
  have hlog' : InRangeLog (log ++ x.sync.cacheHead.2) :=
    (inRangeLog_append _ _).mpr ⟨hlog, cacheHead_inRange hread h0 h.headpos_lt⟩
  simp only [cast_netPackageHeadlen] at hshort
  rcases x.sync.cacheHead_fst with ⟨hpos, hfst⟩ | ⟨hpos, hfst⟩
  · rw [hfst]
    refine ⟨⟨h.counters, h.iret_nonneg, h.iret_le, hlog'⟩, h.nothing, .inr ⟨?_, ?_⟩⟩
    · refine h.filled.resolve_right fun hfull => ?_
      omega
    · simp only [cast_netPackageHeadlen]
      omega
  · rw [hfst]
    obtain ⟨hcounted, hrem'⟩ := shiftRead_counted h.toCounted hread h.nothing (by omega)
      h.headpos_lt.le hlog'
    refine ⟨hcounted, h.nothing, .inl ?_⟩
    omega

/-- A header that is no good: the bytes up to the head byte are dropped. -/
theorem dropHead_counted (host : Host) (h : x.HeadFound data) {log : List Effect} (hlog : InRangeLog log)
    (Q : Pass → Prop) :
    (Step.next ⟨(x.sync.decoded host).dropHead.1, x.iret,
      log ++ (x.sync.decoded host).dropHead.2⟩).Counted data x Q := by
  have hread := h.counters.toReadInv
  have hdecoded : (x.sync.decoded host).ReadInv :=
    ⟨hread.size_le, hread.nonneg, hread.le_len, hread.packet_size⟩
  have hlog' : InRangeLog (log ++ (x.sync.decoded host).dropHead.2) :=
    (inRangeLog_append _ _).mpr ⟨hlog, dropHead_inRange hdecoded h.headpos_nonneg h.headpos_lt⟩
  have hpos : 0 < (x.sync.decoded host).headpos + 1 := Int.lt_add_one_of_le h.headpos_nonneg
  obtain ⟨hcounted, hrem'⟩ := shiftRead_counted h.toCounted hdecoded h.nothing hpos h.headpos_lt hlog'
  rw [← PacketSync.dropHead_fst] at hcounted hrem'
  refine ⟨hcounted, ?_, .inl ?_⟩
  · rw [PacketSync.dropHead_fst]
    exact h.nothing
  · refine lt_of_eq_of_lt hrem' ?_
    rw [remaining_of_parseNothing data h.nothing]
    have h0 := h.headpos_nonneg
    simp only [PacketSync.decoded]
    omega

/-- A header that is accepted: of the bytes behind it, those of the frame are counted as received. -/
theorem accepted_counted (h : x.HeadFound data)
    (hcomplete : x.sync.headpos + 1 + netPackageHeadlen ≤ x.sync.truepacketlen)
    (hgood : (x.sync.decoded host).badHeader = false) {log : List Effect} (hlog : InRangeLog log) :
    (Step.fall ⟨(x.sync.decoded host).accepted, x.iret, log⟩).Counted data x
      fun x' => x'.sync.parsetype = .parseHead := by
  have hread := h.counters.toReadInv
  have hdecoded : (x.sync.decoded host).ReadInv :=
    ⟨hread.size_le, hread.nonneg, hread.le_len, hread.packet_size⟩
  have htype : (x.sync.decoded host).accepted.parsetype = .parseHead := by
    rw [PacketSync.accepted_eq]
  refine ⟨⟨accepted_counters hdecoded h.headpos_nonneg hcomplete hgood, h.iret_nonneg, h.iret_le, hlog⟩,
    ?_, htype⟩
  rw [remaining_of_parseHead data htype, remaining_of_parseNothing data h.nothing]
  have hbody : (x.sync.decoded host).accepted.bodyInReaddata =
      x.sync.truepacketlen - x.sync.headpos - 1 - 34 := by
    rw [PacketSync.accepted_eq]
    rfl
  have hgot : (x.sync.decoded host).accepted.getdatalen =
      min (x.sync.truepacketlen - x.sync.headpos - 1 - 34)
        ((x.sync.decoded host).accepted.datalen + 1) := by
    rw [PacketSync.accepted_eq]
    rfl
  have h0 := h.headpos_nonneg
  simp only [cast_netPackageHeadlen] at hcomplete
  change (data.length : ℤ) - x.iret + (1 + netPackageHeadlen +
    (x.sync.decoded host).accepted.getdatalen + max 0 ((x.sync.decoded host).accepted.bodyInReaddata
      - ((x.sync.decoded host).accepted.datalen + 1))) ≤ _
  rw [hgot, hbody, cast_netPackageHeadlen]
  omega

/-- Decoding the header. -/
theorem decodeHeader_counted (h : x.HeadFound data) :
    (decodeHeader host x).Counted data x fun x' => x'.sync.parsetype = .parseHead := by
  have hread := h.counters.toReadInv
  have hlog : InRangeLog (x.log ++ [.int x.sync.headpos,
      .int (x.sync.truepacketlen - x.sync.headpos - 1)]) := by
    simp [h.inRange, Effect.InRange]
  simp only [decodeHeader]
  split
  case isTrue hshort => exact cacheHead_counted h hshort hlog _
  case isFalse hlong =>
    split
    case isTrue => exact dropHead_counted host h hlog _
    case isFalse hgood =>
      have hgood' : (x.sync.decoded host).badHeader = false := Bool.eq_false_iff.mpr hgood
      have hcomplete : x.sync.headpos + 1 + netPackageHeadlen ≤ x.sync.truepacketlen := by omega
      obtain ⟨hgrow, htake⟩ := accepted_inRange (p := x.sync.decoded host)
        ⟨hread.size_le, hread.nonneg, hread.le_len, hread.packet_size⟩ h.headpos_nonneg hcomplete hgood'
      refine accepted_counted h hcomplete hgood' ?_
      rw [inRangeLog_append, inRangeLog_append]
      exact ⟨⟨hlog, hgrow⟩, htake⟩

/-- The header part does not return from `recvdata`. -/
theorem parseHeader_ne_ret (host : Host) (data : List UInt8) (x x' : Pass) :
    parseHeader host data x ≠ .ret x' := by
  unfold parseHeader
  simp only
  split
  · simp
  · unfold decodeHeader
    simp only
    split
    · simp
    · split <;> simp

/-- A pass in which the head byte has been looked for. -/
theorem headFound (h : x.Counted data) (hp : x.sync.parsetype = .parseNothing)
    (hrun : x.iret < data.length ∨ x.sync.truepacketlen ≥ netPackageHeadlen + 2) {headpos : ℤ}
    (hfind : (fillReaddata data x).sync.findHead = some headpos) (log : List Effect)
    (hlog : InRangeLog log) : Pass.HeadFound data
      ⟨{ (fillReaddata data x).sync with headpos }, (fillReaddata data x).iret, log⟩ := by
  obtain ⟨hy, hnothing, -, -, hfilled⟩ := fillReaddata_counted h hp hrun
  obtain ⟨h0, hlt, -, -⟩ := PacketSync.findHead_eq_some .little hfind
  have hread := hy.counters.toReadInv
  have hread' : ({ (fillReaddata data x).sync with headpos } : PacketSync).ReadInv :=
    ⟨hread.size_le, hread.nonneg, hread.le_len, hread.packet_size⟩
  exact ⟨⟨hread'.counters hnothing, hy.iret_nonneg, hy.iret_le, hlog⟩, hnothing, h0, hlt, hfilled⟩

/-- The header part. -/
theorem parseHeader_counted (host : Host) (h : x.Counted data) (hp : x.sync.parsetype = .parseNothing)
    (hrun : x.iret < data.length ∨ x.sync.truepacketlen ≥ netPackageHeadlen + 2) :
    (parseHeader host data x).Counted data x fun x' => x'.sync.parsetype = .parseHead := by
  obtain ⟨hy, hnothing, hrem, hpos, -⟩ := fillReaddata_counted h hp hrun
  have hread := hy.counters.toReadInv
  have hlog : InRangeLog ((fillReaddata data x).log ++ [.memchr
      (fillReaddata data x).sync.threadReaddata.len (fillReaddata data x).sync.truepacketlen]) := by
    simp [hy.inRange, Effect.InRange, hread.nonneg, hread.le_len]
  simp only [parseHeader]
  cases hfind : (fillReaddata data x).sync.findHead with
  | none =>
    have hempty : ({ (fillReaddata data x).sync with truepacketlen := 0 } : PacketSync).ReadInv :=
      ⟨hread.size_le, le_refl _, le_trans hread.nonneg hread.le_len, hread.packet_size⟩
    refine ⟨⟨hempty.counters hnothing, hy.iret_nonneg, hy.iret_le, hlog⟩, hnothing, .inl ?_⟩
    rw [← hrem, remaining_of_parseNothing data hnothing]
    simp only [Pass.remaining, hnothing]
    omega
  | some headpos =>
    have hfound := headFound h hp hrun hfind _ hlog
    have hsame : Pass.remaining data ⟨{ (fillReaddata data x).sync with headpos },
        (fillReaddata data x).iret, (fillReaddata data x).log ++ [.memchr
          (fillReaddata data x).sync.threadReaddata.len (fillReaddata data x).sync.truepacketlen]⟩ =
        x.remaining data := by
      rw [← hrem]
      simp only [Pass.remaining, hnothing]
    exact (decodeHeader_counted hfound).of_le hsame.le

end ParseHeader

/-! ### The data part -/

section ReceiveFrame

variable {data : List UInt8} {x : Pass}

/-- Receiving payload and tail bytes. -/
theorem receiveData_counted (h : x.Counted data) (hp : x.sync.parsetype = .parseHead) :
    (receiveData data x).Counted data x fun x' =>
      x'.sync.parsetype = .parseHead ∧ x'.sync.getdatalen = x'.sync.datalen + 1 := by
  have hf := h.counters.frame hp
  have hn := hf.datalen_nonneg
  have hgot := hf.got_nonneg
  have hgle := hf.got_le
  have hbody := hf.le_got
  have hfits := hf.fits
  have hi0 := h.iret_nonneg
  have hile := h.iret_le
  -- more bytes of the frame have been received
  have hreceived : ∀ (buf : Mem UInt8) (n : ℤ), x.sync.getdatalen ≤ n → n ≤ x.sync.datalen + 1 →
      ({ x.sync with
        threadPacketdata := ⟨buf, x.sync.threadPacketdata.len⟩, getdatalen := n } :
        PacketSync).Counters := by
    intro buf n hle hn'
    refine ⟨⟨h.counters.size_le, h.counters.nonneg, h.counters.le_len, h.counters.packet_size⟩,
      fun _ => ⟨hf.headpos_nonneg, hf.header_le, hn, by simp only; omega, hn', ?_, hfits⟩⟩
    exact le_trans hbody hle
  simp only [receiveData]
  split
  case isFalse hfull =>
    refine ⟨⟨h.counters, hi0, hile, ?_⟩, le_refl _, hp, by simp only; omega⟩
    simp [h.inRange, Effect.InRange]
  case isTrue hlt =>
    split
    case isTrue hshort =>
      refine ⟨⟨hreceived _ _ (by omega) (by omega), by simp, by simp, ?_⟩, rfl, hp⟩
      simp only [inRangeLog_append, inRangeLog_cons, inRangeLog_nil, and_true, Effect.InRange]
      refine ⟨h.inRange, ?_⟩
      omega
    case isFalse hlong =>
      refine ⟨⟨hreceived _ _ (by omega) (by omega), ?_, ?_, ?_⟩, ?_, hp, rfl⟩
      · simp only
        omega
      · simp only
        omega
      · simp only [inRangeLog_append, inRangeLog_cons, inRangeLog_nil, and_true, Effect.InRange]
        refine ⟨h.inRange, ?_⟩
        omega
      · rw [remaining_of_parseHead data hp]
        simp only [Pass.remaining, hp, PacketSync.bodyInReaddata, PacketSync.datalen]
        omega

/-- The data part does not go back to the loop before the frame is complete. -/
theorem receiveData_ne_next (data : List UInt8) (x x' : Pass) : receiveData data x ≠ .next x' := by
  unfold receiveData
  simp only
  split
  · split <;> simp
  · simp

/-- Rejecting a complete frame drops one byte. -/
theorem rejectTail_counted (h : x.Counted data) (hp : x.sync.parsetype = .parseHead)
    (hgot : x.sync.getdatalen = x.sync.datalen + 1) :
    x.sync.rejectTail.1.Counters ∧ x.sync.rejectTail.1.parsetype = .parseNothing ∧
      InRangeLog x.sync.rejectTail.2 ∧
      data.length - x.iret + x.sync.rejectTail.1.truepacketlen < x.remaining data := by
  have hf := h.counters.frame hp
  have hn := hf.datalen_nonneg
  have h0 := hf.headpos_nonneg
  have hle := hf.header_le
  have hfits := hf.fits
  have hsize := h.counters.size_le
  have hnonneg := h.counters.nonneg
  have hlen := h.counters.le_len
  have hbody : x.sync.bodyInReaddata = x.sync.truepacketlen - x.sync.headpos - 1 - 34 := rfl
  simp only [cast_netPackageHeadlen] at hle
  rw [remaining_of_parseHead data hp, cast_netPackageHeadlen]
  simp only [PacketSync.rejectTail]
  split
  case isTrue henough =>
    have hdrop := dropHead_inRange h.counters.toReadInv h0 (by omega)
    have hshift := h.counters.toReadInv.shiftRead (k := x.sync.headpos + 1) (by omega) (by omega)
    rw [← PacketSync.dropHead_fst] at hshift
    refine ⟨PacketSync.ReadInv.counters ⟨hshift.size_le, hshift.nonneg, hshift.le_len,
      hshift.packet_size⟩ rfl, rfl, ?_, ?_⟩
    · simp [hdrop, Effect.InRange]
      omega
    · simp only [PacketSync.dropHead]
      omega
  case isFalse hshort =>
    -- `thread_readdata` is rebuilt from the header and the packet data
    split
    case isTrue hgrow =>
      simp only [cast_netPackageHeadlen] at hgrow
      refine ⟨PacketSync.ReadInv.counters ⟨?_, ?_, ?_, h.counters.packet_size⟩ rfl, rfl, ?_, ?_⟩
      · simp only [UvBuf.memcpy_len, UvBuf.realloc_len, cast_netPackageHeadlen]
        omega
      · simp only [cast_netPackageHeadlen]
        omega
      · simp only [UvBuf.memcpy_len, UvBuf.realloc_len, cast_netPackageHeadlen]
        omega
      · simp only [inRangeLog_append, inRangeLog_cons, inRangeLog_nil, and_true, Effect.InRange,
          UvBuf.realloc_len, cast_netPackageHeadlen]
        omega
      · simp only [cast_netPackageHeadlen]
        omega
    case isFalse hfit =>
      simp only [cast_netPackageHeadlen] at hfit
      refine ⟨PacketSync.ReadInv.counters ⟨hsize, ?_, ?_, h.counters.packet_size⟩ rfl, rfl, ?_, ?_⟩
      · simp only [cast_netPackageHeadlen]
        omega
      · simp only [UvBuf.memcpy_len, cast_netPackageHeadlen]
        omega
      · simp only [inRangeLog_append, inRangeLog_cons, inRangeLog_nil, and_true, Effect.InRange,
          cast_netPackageHeadlen]
        omega
      · simp only [cast_netPackageHeadlen]
        omega

/-- Delivering a complete frame. -/
theorem deliver_counted (h : x.Counted data) (hp : x.sync.parsetype = .parseHead)
    (hgot : x.sync.getdatalen = x.sync.datalen + 1) :
    x.sync.deliver.1.Counters ∧ x.sync.deliver.1.parsetype = .parseNothing ∧
      InRangeLog x.sync.deliver.2 ∧
      data.length - x.iret + x.sync.deliver.1.truepacketlen < x.remaining data := by
  have hf := h.counters.frame hp
  have hn := hf.datalen_nonneg
  have h0 := hf.headpos_nonneg
  have hle := hf.header_le
  have hsize := h.counters.size_le
  have hnonneg := h.counters.nonneg
  have hlen := h.counters.le_len
  have hbody : x.sync.bodyInReaddata = x.sync.truepacketlen - x.sync.headpos - 1 - 34 := rfl
  have hcallback : ∀ p : PacketSync, p.theNexPacket = x.sync.theNexPacket → InRangeLog
      (if p.packetCb then
        [.packetCb p.theNexPacket (p.threadPacketdata.base.read 0 x.sync.datalen)] else []) := by
    intro p hpacket
    split
    · simp only [inRangeLog_cons, inRangeLog_nil, and_true, Effect.InRange, Mem.length_read, hpacket]
      exact Int.toNat_of_nonneg hn
    · simp
  simp only [cast_netPackageHeadlen] at hle
  rw [remaining_of_parseHead data hp, cast_netPackageHeadlen]
  simp only [PacketSync.deliver]
  split
  case isTrue henough =>
    have hend : x.sync.headpos + netPackageHeadlen + x.sync.datalen + 2 ≤ x.sync.truepacketlen := by
      simp only [cast_netPackageHeadlen]
      omega
    have hshift := h.counters.toReadInv.shiftRead
      (k := x.sync.headpos + netPackageHeadlen + x.sync.datalen + 2)
      (by simp only [cast_netPackageHeadlen]; omega) hend
    refine ⟨PacketSync.ReadInv.counters ⟨hshift.size_le, hshift.nonneg, hshift.le_len,
      hshift.packet_size⟩ rfl, trivial, ?_, ?_⟩
    · simp only [cast_netPackageHeadlen] at hend
      rw [inRangeLog_append, inRangeLog_append]
      refine ⟨⟨?_, ?_⟩, hcallback _ rfl⟩
      · simp only [inRangeLog_cons, inRangeLog_nil, and_true, Effect.InRange]
        omega
      · simp only [inRangeLog_cons, inRangeLog_nil, and_true, Effect.InRange, cast_netPackageHeadlen]
        omega
    · simp only [cast_netPackageHeadlen]
      omega
  case isFalse hshort =>
    refine ⟨PacketSync.ReadInv.counters ⟨hsize, le_refl _, by simp only; omega,
      h.counters.packet_size⟩ rfl, trivial, ?_, ?_⟩
    · rw [inRangeLog_append, inRangeLog_append]
      refine ⟨⟨?_, inRangeLog_nil⟩, hcallback _ rfl⟩
      simp only [inRangeLog_cons, inRangeLog_nil, and_true, Effect.InRange]
      omega
    · simp only
      omega

/-- The end of a frame. -/
theorem finishFrame_counted (h : x.Counted data) (hp : x.sync.parsetype = .parseHead)
    (hgot : x.sync.getdatalen = x.sync.datalen + 1) :
    (finishFrame x).Counted data ∧ (finishFrame x).sync.parsetype = .parseNothing ∧
      (finishFrame x).remaining data < x.remaining data := by
  have hf := h.counters.frame hp
  have hn := hf.datalen_nonneg
  have hfits := hf.fits
  have hlog : InRangeLog
      (x.log ++ [.readTail x.sync.threadPacketdata.len x.sync.datalen x.sync.getdatalen]) := by
    simp only [inRangeLog_append, inRangeLog_cons, inRangeLog_nil, and_true, Effect.InRange]
    refine ⟨h.inRange, ?_⟩
    omega
  simp only [finishFrame]
  split
  case isTrue =>
    obtain ⟨hcounters, htype, hrange, hlt⟩ := rejectTail_counted h hp hgot
    refine ⟨⟨hcounters, h.iret_nonneg, h.iret_le, (inRangeLog_append _ _).mpr ⟨hlog, hrange⟩⟩, htype, ?_⟩
    rwa [remaining_of_parseNothing data htype]
  case isFalse =>
    obtain ⟨hcounters, htype, hrange, hlt⟩ := deliver_counted h hp hgot
    refine ⟨⟨hcounters, h.iret_nonneg, h.iret_le, (inRangeLog_append _ _).mpr ⟨hlog, hrange⟩⟩, htype, ?_⟩
    rwa [remaining_of_parseNothing data htype]

end ReceiveFrame

end MyUvpp
