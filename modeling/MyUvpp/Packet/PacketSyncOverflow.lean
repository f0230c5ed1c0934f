import MyUvpp.Packet.PacketSyncRefinement
import Mathlib.Data.List.TakeWhile

/-! # The integers of the decoder

The decoder takes the payload length from the wire and checks only its sign. `Effect.Safe` says what
is to hold of every expression, copy, reallocation and read of `recvdata`; `Pass.Limit` is the
condition on a pass, in terms of its bytes and of the decoder before it, under which all of them are
safe. -/

namespace MyUvpp

/-- `INT_MAX`. -/
def intMax : ℤ := 2 ^ 31 - 1

/-- An effect without overflow and out of bounds access: an `int` stays in its range, a difference in
`size_t` does not wrap, `memchr` and copies stay inside their blocks, a reallocation is large enough,
and the tail byte is read when exactly the payload and tail bytes have been copied in. -/
def Effect.Safe : Effect → Prop
  | .int v => -2 ^ 31 ≤ v ∧ v ≤ intMax
  | .size v => 0 ≤ v ∧ v < 2 ^ 64
  | .memchr bufLen n => 0 ≤ n ∧ n ≤ bufLen
  | .copy dstLen dstOff srcLen srcOff n =>
    0 ≤ n ∧ 0 ≤ dstOff ∧ dstOff + n ≤ dstLen ∧ 0 ≤ srcOff ∧ srcOff + n ≤ srcLen
  | .realloc newLen need => need ≤ newLen
  | .readTail bufLen idx got => 0 ≤ idx ∧ idx < bufLen ∧ got = idx + 1
  | .packetCb packet data => (data.length : ℤ) = packet.datalen.toInt

/-- All effects of a log are safe. -/
def SafeLog (log : List Effect) : Prop := ∀ e ∈ log, e.Safe

/-- No effects are safe. -/
@[simp] theorem safeLog_nil : SafeLog [] := fun _ h => absurd h List.not_mem_nil

/-- A log is safe when its first effect and the others are. -/
@[simp] theorem safeLog_cons (e : Effect) (log : List Effect) :
    SafeLog (e :: log) ↔ e.Safe ∧ SafeLog log := List.forall_mem_cons

/-- Two logs are safe together when each of them is. -/
@[simp] theorem safeLog_append (log log' : List Effect) :
    SafeLog (log ++ log') ↔ SafeLog log ∧ SafeLog log' := List.forall_mem_append

/-! ### The condition on a pass -/

/-- What a frame with `n` payload bytes that is not wholly in `thread_readdata` asks of the bytes `s`
from its payload to the end of the input: `n + 1` and the length of `s` are sums the loop computes,
and so is the length of the rebuilt buffer when the tail byte is there and wrong. -/
def FrameLimit (tail : UInt8) (n : ℕ) (s : List UInt8) : Prop :=
  n + 1 ≤ intMax ∧ s.length ≤ intMax ∧
    ∀ t ∈ s[n]?, charToInt t ≠ tail.toNat → netPackageHeadlen + (n + 1) ≤ intMax

/-- The undecided bytes from the first head byte on. -/
def Pass.candidate (data : List UInt8) (x : Pass) : List UInt8 :=
  (x.stream data).dropWhile (· != x.sync.head)

/-- The condition on a pass. A pass that waits for data has the limit on its frame; one that looks
for a header has it on the frame at the first head byte, where `thread_readdata` takes the whole
header and not the whole frame. -/
def Pass.Limit (host : Host) (data : List UInt8) (x : Pass) : Prop :=
  match x.sync.parsetype with
  | .parseHead =>
    FrameLimit x.sync.tail x.sync.datalen.toNat ((x.stream data).drop (1 + netPackageHeadlen))
  | .parseNothing =>
    let s := x.candidate data
    let window : ℤ := min x.sync.threadReaddata.len (x.stream data).length
    let body : ℤ := (x.stream data).length - s.length + 1 + netPackageHeadlen
    ∀ h ∈ (x.sync.framing host).header ((s.drop 1).take netPackageHeadlen),
      body ≤ window → window < body + (h.2 + 1) →
        FrameLimit x.sync.tail h.2 (s.drop (1 + netPackageHeadlen))

/-- Whether a frame is within the limit can be decided. -/
instance (tail : UInt8) (n : ℕ) (s : List UInt8) : Decidable (FrameLimit tail n s) :=
  inferInstanceAs (Decidable (_ ∧ _ ∧ _))

/-- Whether a pass is within the limit can be decided. -/
instance (host : Host) (data : List UInt8) (x : Pass) : Decidable (x.Limit host data) :=
  match h : x.sync.parsetype with
  | .parseHead =>
    decidable_of_iff (FrameLimit x.sync.tail x.sync.datalen.toNat
      ((x.stream data).drop (1 + netPackageHeadlen))) (by rw [Pass.Limit, h])
  | .parseNothing =>
    decidable_of_iff (∀ h ∈ (x.sync.framing host).header
        (((x.candidate data).drop 1).take netPackageHeadlen),
      ((x.stream data).length - (x.candidate data).length + 1 + netPackageHeadlen : ℤ) ≤
          min x.sync.threadReaddata.len (x.stream data).length →
        min x.sync.threadReaddata.len (x.stream data).length <
            (x.stream data).length - (x.candidate data).length + 1 + netPackageHeadlen + (h.2 + 1) →
          FrameLimit x.sync.tail h.2 ((x.candidate data).drop (1 + netPackageHeadlen)))
      (by rw [Pass.Limit, h])

/-- Both buffers are shorter than `INT_MAX` and everything so far was safe. -/
structure Pass.Small (x : Pass) : Prop where
  readdata_le : x.sync.threadReaddata.len ≤ intMax
  packetdata_le : x.sync.threadPacketdata.len ≤ intMax
  safe : SafeLog x.log

/-- However a part of the loop body ends, everything was safe. -/
def Step.Small : Step → Prop
  | .next x => x.Small
  | .fall x => x.Small
  | .ret x => x.Small

/-! ### The header part -/

section ParseHeader

variable {host : Host} {data : List UInt8} {x : Pass}

/-- Filling `thread_readdata` is safe, and no buffer grows. -/
theorem fillReaddata_small (hx : x.Ok host data) (hs : x.Small) (hdata : data.length ≤ intMax) :
    (fillReaddata data x).Small := by
  have h0 := hx.inv.nonneg
  have hle := hx.inv.le_len
  have hi0 := hx.iret_nonneg
  have hile := hx.iret_le
  have hread := hs.readdata_le
  have hsafe := hs.safe
  simp only [intMax] at hread hdata
  simp only [fillReaddata]
  split
  case isTrue hall =>
    refine ⟨hs.readdata_le, hs.packetdata_le, ?_⟩
    simp only [safeLog_append, safeLog_cons, safeLog_nil, and_true, Effect.Safe, intMax]
    refine ⟨hsafe, ?_⟩
    omega
  case isFalse hfull =>
    refine ⟨hs.readdata_le, hs.packetdata_le, ?_⟩
    simp only [safeLog_append, safeLog_cons, safeLog_nil, and_true, Effect.Safe, intMax]
    refine ⟨hsafe, ?_⟩
    omega

/-- Dropping the head byte, or everything before it. -/
theorem dropHead_safe {p : PacketSync} (hr : p.ReadInv) (hlen : p.threadReaddata.len ≤ intMax)
    (h0 : 0 ≤ p.headpos) (hlt : p.headpos < p.truepacketlen) : SafeLog p.dropHead.2 := by
  have hle := hr.le_len
  simp only [intMax] at hlen
  simp only [PacketSync.dropHead, safeLog_cons, safeLog_nil, and_true, Effect.Safe, intMax]
  omega

/-- Moving the head byte to the front is safe. -/
theorem cacheHead_safe {p : PacketSync} (hr : p.ReadInv) (hlen : p.threadReaddata.len ≤ intMax)
    (h0 : 0 ≤ p.headpos) (hlt : p.headpos < p.truepacketlen) : SafeLog p.cacheHead.2 := by
  have hle := hr.le_len
  simp only [intMax] at hlen
  simp only [PacketSync.cacheHead]
  split
  · simp only [safeLog_cons, safeLog_nil, and_true, Effect.Safe, intMax]
    omega
  · exact safeLog_nil

/-- The reallocation for an accepted header. -/
theorem growPacketdata_safe {p : PacketSync} (h0 : 0 ≤ p.datalen) (hn : p.datalen + 1 ≤ intMax) :
    SafeLog p.growPacketdata.2 := by
  simp only [intMax] at hn
  have hsize : sizeT (int32 (p.datalen + 1)) = p.datalen + 1 := by
    rw [int32, Int.bmod_eq_of_le (by omega) (by omega), sizeT,
      Int.emod_eq_of_lt (by omega) (by omega)]
  simp only [PacketSync.growPacketdata]
  split
  · simp only [safeLog_cons, safeLog_nil, and_true, Effect.Safe, intMax, hsize]
    omega
  · exact safeLog_nil

/-- Taking what is buffered of a frame is safe when `thread_packetdata` has room for it. -/
theorem takeFromReaddata_safe {p : PacketSync} (hr : p.ReadInv)
    (hlen : p.threadReaddata.len ≤ intMax) (hpos : 0 ≤ p.headpos)
    (hbody : 0 ≤ p.bodyInReaddata) (h0 : 0 ≤ p.datalen) (hn : p.datalen + 1 ≤ intMax)
    (hfits : p.datalen + 1 ≤ p.threadPacketdata.len) : SafeLog p.takeFromReaddata.2 := by
  have hle := hr.le_len
  have hb : p.bodyInReaddata = p.truepacketlen - p.headpos - 1 - 34 := rfl
  simp only [intMax] at hlen hn
  simp only [PacketSync.takeFromReaddata]
  split
  · simp only [safeLog_append, safeLog_cons, safeLog_nil, and_true, Effect.Safe, intMax,
      cast_netPackageHeadlen]
    omega
  · simp only [safeLog_cons, safeLog_nil, and_true, Effect.Safe, intMax]
    omega

/-- Accepting a complete, good header. -/
theorem accepted_safe {p : PacketSync} (hr : p.ReadInv) (hlen : p.threadReaddata.len ≤ intMax)
    (hpos : 0 ≤ p.headpos) (hcomplete : p.headpos + 1 + netPackageHeadlen ≤ p.truepacketlen)
    (hgood : p.badHeader = false) (hn : p.datalen + 1 ≤ intMax) :
    SafeLog ({ p with parsetype := .parseHead } : PacketSync).growPacketdata.2 ∧
      SafeLog
        ({ p with parsetype := .parseHead } : PacketSync).growPacketdata.1.takeFromReaddata.2 := by
  have h0 := PacketSync.datalen_nonneg hgood
  have hbody : 0 ≤ p.bodyInReaddata := by
    rw [PacketSync.bodyInReaddata]
    omega
  refine ⟨growPacketdata_safe h0 hn, ?_⟩
  rw [PacketSync.growPacketdata_fst]
  exact takeFromReaddata_safe ⟨hr.size_le, hr.nonneg, hr.le_len,
    le_trans hr.packet_size (le_max_left _ _)⟩ hlen hpos hbody h0 hn (le_max_right _ _)

/-- A header is accepted only when it is complete and good. -/
theorem decodeHeader_fall {x' : Pass} (h : decodeHeader host x = .fall x') :
    x.sync.headpos + 1 + netPackageHeadlen ≤ x.sync.truepacketlen ∧
      (x.sync.decoded host).badHeader = false ∧ x'.sync = (x.sync.decoded host).accepted ∧
      x'.iret = x.iret := by
  simp only [decodeHeader] at h
  split at h
  case isTrue => cases h
  case isFalse hlong =>
    split at h
    case isTrue => cases h
    case isFalse hgood =>
      cases h
      refine ⟨?_, Bool.eq_false_iff.mpr hgood, rfl, rfl⟩
      simp only [cast_netPackageHeadlen] at hlong ⊢
      omega

/-- Decoding a header is safe when an accepted payload length is not `INT_MAX`. -/
theorem decodeHeader_small (hr : x.sync.ReadInv) (hs : x.Small) (h0 : 0 ≤ x.sync.headpos)
    (hlt : x.sync.headpos < x.sync.truepacketlen)
    (hn : ∀ x', decodeHeader host x = .fall x' → x'.sync.datalen + 1 ≤ intMax) :
    (decodeHeader host x).Small := by
  have hle := hr.le_len
  have hread := hs.readdata_le
  have hlog : SafeLog (x.log ++
      [.int x.sync.headpos, .int (x.sync.truepacketlen - x.sync.headpos - 1)]) := by
    simp only [intMax] at hread
    simp only [safeLog_append, safeLog_cons, safeLog_nil, and_true, Effect.Safe, intMax]
    refine ⟨hs.safe, ?_⟩
    omega
  have hqr : (x.sync.decoded host).ReadInv := ⟨hr.size_le, hr.nonneg, hr.le_len, hr.packet_size⟩
  simp only [decodeHeader] at hn ⊢
  split
  case isTrue hshort =>
    refine ⟨?_, ?_, (safeLog_append _ _).mpr ⟨hlog, cacheHead_safe hr hread h0 hlt⟩⟩
    · rcases x.sync.cacheHead_fst with ⟨-, h⟩ | ⟨-, h⟩ <;> simp only [h] <;> exact hread
    · rcases x.sync.cacheHead_fst with ⟨-, h⟩ | ⟨-, h⟩ <;> simp only [h] <;> exact hs.packetdata_le
  case isFalse hlong =>
    rw [if_neg hlong] at hn
    split
    case isTrue hbad =>
      have hdrop := (x.sync.decoded host).dropHead_fst
      refine ⟨?_, ?_, (safeLog_append _ _).mpr ⟨hlog, dropHead_safe hqr hread h0 hlt⟩⟩
      · show (x.sync.decoded host).dropHead.1.threadReaddata.len ≤ _
        rw [hdrop]
        exact hread
      · show (x.sync.decoded host).dropHead.1.threadPacketdata.len ≤ _
        rw [hdrop]
        exact hs.packetdata_le
    case isFalse hgood =>
      have hgood' : (x.sync.decoded host).badHeader = false := Bool.eq_false_iff.mpr hgood
      have hn1 : (x.sync.decoded host).datalen + 1 ≤ intMax := by
        rw [if_neg hgood] at hn
        have h := hn _ rfl
        change (x.sync.decoded host).accepted.datalen + 1 ≤ intMax at h
        rwa [PacketSync.accepted_eq] at h
      have hcomplete : x.sync.headpos + 1 + netPackageHeadlen ≤ x.sync.truepacketlen := by omega
      obtain ⟨hgrow, htake⟩ := accepted_safe hqr hread h0 hcomplete hgood' hn1
      refine ⟨?_, ?_, (safeLog_append _ _).mpr ⟨(safeLog_append _ _).mpr ⟨hlog, hgrow⟩, htake⟩⟩
      · show (x.sync.decoded host).accepted.threadReaddata.len ≤ _
        rw [PacketSync.accepted_eq]
        exact hread
      · show (x.sync.decoded host).accepted.threadPacketdata.len ≤ _
        rw [PacketSync.accepted_eq]
        exact max_le hs.packetdata_le hn1

/-- After filling, `thread_readdata` holds the undecided bytes, as many as it takes. -/
theorem fillReaddata_truepacketlen (hx : x.Ok host data) (hp : x.sync.parsetype = .parseNothing) :
    (fillReaddata data x).sync.truepacketlen =
      min x.sync.threadReaddata.len (x.stream data).length := by
  rw [length_stream hx hp, fillReaddata_sync, fillCount]
  simp only
  omega

/-- At the first head byte begins the candidate: a head byte and what follows it. -/
theorem Pass.Filled.candidate_eq {y : Pass} (h : x.Filled host data y) {headpos : ℤ}
    (hfind : y.sync.findHead = some headpos) :
    x.candidate data = y.sync.threadReaddata.base.read headpos (y.sync.truepacketlen - headpos) ++
        data.drop y.iret.toNat ∧
      x.candidate data = x.sync.head ::
        (y.sync.threadReaddata.base.read (headpos + 1) (y.sync.truepacketlen - headpos - 1) ++
          data.drop y.iret.toNat) := by
  obtain ⟨h0, hlt, hbase, hbefore⟩ := PacketSync.findHead_eq_some host hfind
  have hcons : y.sync.threadReaddata.base.read headpos (y.sync.truepacketlen - headpos) ++
      data.drop y.iret.toNat = x.sync.head ::
        (y.sync.threadReaddata.base.read (headpos + 1) (y.sync.truepacketlen - headpos - 1) ++
          data.drop y.iret.toNat) := by
    rw [Mem.read_eq_cons _ _ (by omega), hbase, h.head_eq, List.cons_append]
  have hcand : x.candidate data =
      y.sync.threadReaddata.base.read headpos (y.sync.truepacketlen - headpos) ++
        data.drop y.iret.toNat := by
    -- no byte before it is a head byte
    rw [Pass.candidate, h.stream_eq_split h0 hlt, List.dropWhile_append_of_pos, hcons,
      List.dropWhile_cons_of_neg (by simp)]
    intro b hb
    have hne := hbefore b hb
    change (b == y.sync.head) = false at hne
    rw [← h.head_eq]
    simpa using hne
  exact ⟨hcand, hcand.trans hcons⟩

/-- The header part accepts the header behind the first head byte that it finds. -/
theorem parseHeader_accepted {x' : Pass} (h : parseHeader host data x = .fall x') :
    ∃ headpos, (fillReaddata data x).sync.findHead = some headpos ∧
      headpos + 1 + netPackageHeadlen ≤ (fillReaddata data x).sync.truepacketlen ∧
      PacketSync.badHeader (PacketSync.decoded { (fillReaddata data x).sync with headpos } host) =
        false ∧
      x'.sync = PacketSync.accepted
        (PacketSync.decoded { (fillReaddata data x).sync with headpos } host) ∧
      x'.iret = (fillReaddata data x).iret := by
  simp only [parseHeader] at h
  cases hfind : (fillReaddata data x).sync.findHead with
  | none =>
    simp only [hfind] at h
    cases h
  | some headpos =>
    simp only [hfind] at h
    obtain ⟨hlen, hgood, hsync, hiret⟩ := decodeHeader_fall h
    exact ⟨headpos, rfl, hlen, hgood, hsync, hiret⟩

/-- What the pass that has accepted a header knows about it, in terms of the undecided bytes of the
pass it started as: it is the header at the first head byte, and `thread_readdata` holds it and
`bodyInReaddata` bytes behind it. -/
theorem parseHeader_fall {x' : Pass} (hx : x.Ok host data) (hp : x.sync.parsetype = .parseNothing)
    (h : parseHeader host data x = .fall x') :
    x'.stream data = x.candidate data ∧
      (x.sync.framing host).header (((x.candidate data).drop 1).take netPackageHeadlen) =
        some (x'.sync.theNexPacket, x'.sync.datalen.toNat) ∧
      ((x.stream data).length : ℤ) - (x.candidate data).length + 1 + netPackageHeadlen +
          x'.sync.bodyInReaddata =
        min x.sync.threadReaddata.len (x.stream data).length ∧
      x'.sync.parsetype = .parseHead ∧ x'.sync.tail = x.sync.tail := by
  have hfilled := filled_fillReaddata hx hp
  have htpl := fillReaddata_truepacketlen hx hp
  obtain ⟨headpos, hfind, hlen, hgood, hsync', hiret⟩ := parseHeader_accepted h
  generalize fillReaddata data x = y at *
  obtain ⟨h0, hlt, -, -⟩ := PacketSync.findHead_eq_some host hfind
  obtain ⟨hcand, hcons⟩ := hfilled.candidate_eq hfind
  have hheader := PacketSync.framing_header (p := PacketSync.decoded { y.sync with headpos } host)
    (rfl : _ = charToNetPacket host _)
  rw [hgood, if_neg Bool.false_ne_true] at hheader
  simp only [cast_netPackageHeadlen] at hlen
  refine ⟨?_, ?_, ?_, ?_, ?_⟩
  · rw [hcand, Pass.stream, hsync', hiret, PacketSync.pending_accepted hgood hlen]
    rfl
  · rw [hcons, List.drop_one, List.tail_cons, List.take_append_of_le_length, Mem.take_read,
      hsync', PacketSync.accepted_eq]
    · rw [← hfilled.framing_eq]
      exact hheader
    · simp only [cast_netPackageHeadlen]
      omega
    · rw [Mem.length_read, netPackageHeadlen]
      omega
  · have hbody : x'.sync.bodyInReaddata =
        y.sync.truepacketlen - headpos - 1 - netPackageHeadlen := by
      rw [hsync', PacketSync.accepted_eq]
      rfl
    have hlength := congrArg List.length (hfilled.stream_eq_split h0 hlt)
    rw [← hcand, List.length_append, Mem.length_read] at hlength
    rw [hbody, ← htpl]
    omega
  · rw [hsync', PacketSync.accepted_eq]
  · rw [hsync', PacketSync.accepted_eq]
    exact hfilled.tail_eq

/-- The limit on a pass that looks for a header, as a limit on the frame whose header it accepts. -/
theorem Pass.Limit.of_fall {x' : Pass} (hlimit : x.Limit host data) (hx : x.Ok host data)
    (hp : x.sync.parsetype = .parseNothing) (h : parseHeader host data x = .fall x')
    (hx' : x'.Ok host data) (hbody : x'.sync.bodyInReaddata < x'.sync.datalen + 1) :
    FrameLimit x'.sync.tail x'.sync.datalen.toNat
      ((x'.stream data).drop (1 + netPackageHeadlen)) := by
  obtain ⟨hstream, hheader, hwindow, hp', htail⟩ := parseHeader_fall hx hp h
  have hframe := hx'.inv.frame hp'
  have hn := PacketSync.datalen_nonneg hframe.good
  have hb := hframe.bodyInReaddata_nonneg
  simp only [Pass.Limit, hp] at hlimit
  rw [hstream, htail]
  refine hlimit (x'.sync.theNexPacket, x'.sync.datalen.toNat) (Option.mem_def.mpr hheader) ?_ ?_
  · omega
  · simp only
    omega

/-- The header part is safe under the limit. -/
theorem parseHeader_small (hx : x.Ok host data) (hs : x.Small) (hdata : data.length ≤ intMax)
    (hp : x.sync.parsetype = .parseNothing) (hlimit : x.Limit host data)
    (hrun : x.iret < data.length ∨ x.sync.truepacketlen ≥ netPackageHeadlen + 2) :
    (parseHeader host data x).Small := by
  have hgood := parseHeader_good hx hp hrun
  have hy := (fillReaddata_spec hx hp).1.inv.toReadInv
  have hys := fillReaddata_small hx hs hdata
  have hn : ∀ x', parseHeader host data x = .fall x' → x'.sync.datalen + 1 ≤ intMax := by
    intro x' h
    rw [h] at hgood
    obtain ⟨hok, -, hp'⟩ := hgood
    have hframe := hok.inv.frame hp'
    have hn := PacketSync.datalen_nonneg hframe.good
    by_cases hbody : x'.sync.bodyInReaddata < x'.sync.datalen + 1
    · have hfirst := (hlimit.of_fall hx hp h hok hbody).1
      omega
    · -- the whole frame is in `thread_readdata`, which is shorter than `INT_MAX`
      obtain ⟨-, -, hwindow, -, -⟩ := parseHeader_fall hx hp h
      have hle : (x.candidate data).length ≤ (x.stream data).length :=
        (List.dropWhile_sublist _).length_le
      have hread := hs.readdata_le
      simp only [cast_netPackageHeadlen] at hwindow
      omega
  simp only [parseHeader] at hn ⊢
  generalize fillReaddata data x = y at *
  have hmemchr : SafeLog (y.log ++ [.memchr y.sync.threadReaddata.len y.sync.truepacketlen]) := by
    simp only [safeLog_append, safeLog_cons, safeLog_nil, and_true, Effect.Safe]
    exact ⟨hys.safe, hy.nonneg, hy.le_len⟩
  cases hfind : y.sync.findHead with
  | none => exact ⟨hys.readdata_le, hys.packetdata_le, hmemchr⟩
  | some headpos =>
    obtain ⟨h0, hlt, -, -⟩ := PacketSync.findHead_eq_some host hfind
    simp only [hfind] at hn
    exact decodeHeader_small ⟨hy.size_le, hy.nonneg, hy.le_len, hy.packet_size⟩
      ⟨hys.readdata_le, hys.packetdata_le, hmemchr⟩ h0 hlt hn

end ParseHeader

/-! ### The data part -/

section ReceiveFrame

variable {host : Host} {data : List UInt8} {x : Pass}

/-- Receiving data is safe when the bytes from the payload to the end of the input can be counted. -/
theorem receiveData_small (hx : x.Ok host data) (hs : x.Small) (hdata : data.length ≤ intMax)
    (hp : x.sync.parsetype = .parseHead) (hn : x.sync.datalen + 1 ≤ intMax)
    (hsum : x.sync.getdatalen < x.sync.datalen + 1 →
      x.sync.getdatalen + (data.length - x.iret) ≤ intMax) : (receiveData data x).Small := by
  have hframe := hx.inv.frame hp
  have h0 := PacketSync.datalen_nonneg hframe.good
  have hgot := hframe.got_nonneg
  have hgle := hframe.got_le
  have hfits := hframe.fits
  have hi0 := hx.iret_nonneg
  have hile := hx.iret_le
  have hsafe := hs.safe
  simp only [intMax] at hn hsum hdata
  simp only [receiveData]
  split
  case isTrue hlt =>
    have hle := hsum hlt
    split
    case isTrue hshort =>
      refine ⟨hs.readdata_le, hs.packetdata_le, ?_⟩
      simp only [safeLog_append, safeLog_cons, safeLog_nil, and_true, Effect.Safe, intMax]
      refine ⟨⟨hsafe, ?_⟩, ?_⟩ <;> omega
    case isFalse hlong =>
      refine ⟨hs.readdata_le, hs.packetdata_le, ?_⟩
      simp only [safeLog_append, safeLog_cons, safeLog_nil, and_true, Effect.Safe, intMax]
      refine ⟨⟨hsafe, ?_⟩, ?_⟩ <;> omega
  case isFalse hfull =>
    refine ⟨hs.readdata_le, hs.packetdata_le, ?_⟩
    simp only [safeLog_append, safeLog_cons, safeLog_nil, and_true, Effect.Safe, intMax]
    exact ⟨hsafe, by omega⟩

/-- A wrong tail byte is safe when the rebuilt buffer can be counted. -/
theorem rejectTail_small {p : PacketSync} (hr : p.ReadInv) (h : p.FrameInv host)
    (hread : p.threadReaddata.len ≤ intMax) (hn : p.datalen + 1 ≤ intMax)
    (hneed : p.bodyInReaddata < p.datalen + 1 → netPackageHeadlen + (p.datalen + 1) ≤ intMax) :
    p.rejectTail.1.threadReaddata.len ≤ intMax ∧
      p.rejectTail.1.threadPacketdata.len = p.threadPacketdata.len ∧ SafeLog p.rejectTail.2 := by
  have h0 := PacketSync.datalen_nonneg h.good
  have hpos := h.headpos_nonneg
  have hhdr := h.header_le
  have hbody := h.bodyInReaddata_nonneg
  have hfits := h.fits
  have hle := hr.le_len
  have hsize := hr.size_le
  have hbig : (34 : ℤ) ≤ bufferSize := by decide
  have hb : p.bodyInReaddata = p.truepacketlen - p.headpos - 1 - 34 := rfl
  have hints : SafeLog [.size p.bodyInReaddata, .int (p.datalen + 1)] := by
    simp only [intMax] at hread hn
    simp only [safeLog_cons, safeLog_nil, and_true, Effect.Safe, intMax]
    omega
  simp only [cast_netPackageHeadlen] at hhdr hneed
  simp only [PacketSync.rejectTail]
  split
  case isTrue henough =>
    -- only the head byte is dropped, and no memory is needed
    refine ⟨?_, ?_, (safeLog_append _ _).mpr ⟨hints, dropHead_safe hr hread hpos (by omega)⟩⟩
    · show p.dropHead.1.threadReaddata.len ≤ _
      rw [PacketSync.dropHead_fst]; exact hread
    · show p.dropHead.1.threadPacketdata.len = _
      rw [PacketSync.dropHead_fst]; rfl
  case isFalse hshort =>
    have hneed' := hneed (not_le.mp hshort)
    -- the size in the comparison does not wrap around
    have hwrap : sizeT (34 + p.datalen + 1) = 34 + p.datalen + 1 := by
      simp only [intMax] at hneed'
      exact Int.emod_eq_of_lt (by omega) (by omega)
    simp only [intMax] at hneed' hread hn
    split
    case isTrue hgrow =>
      simp only [cast_netPackageHeadlen] at hgrow
      refine ⟨?_, rfl, ?_⟩
      · simp only [UvBuf.memcpy_len, UvBuf.realloc_len, cast_netPackageHeadlen, intMax]
        omega
      simp only [safeLog_append, safeLog_cons, safeLog_nil, and_true, Effect.Safe, intMax,
        UvBuf.realloc_len, cast_netPackageHeadlen, hwrap]
      omega
    case isFalse hfit =>
      refine ⟨hread, rfl, ?_⟩
      simp only [cast_netPackageHeadlen] at hfit
      simp only [safeLog_append, safeLog_cons, safeLog_nil, and_true, Effect.Safe, intMax,
        cast_netPackageHeadlen]
      omega

/-- A delivery is safe, and no buffer grows. -/
theorem deliver_small {p : PacketSync} (hr : p.ReadInv) (h : p.FrameInv host)
    (hread : p.threadReaddata.len ≤ intMax) (hn : p.datalen + 1 ≤ intMax) :
    p.deliver.1.threadReaddata.len = p.threadReaddata.len ∧
      p.deliver.1.threadPacketdata.len = p.threadPacketdata.len ∧ SafeLog p.deliver.2 := by
  have h0 := PacketSync.datalen_nonneg h.good
  have hpos := h.headpos_nonneg
  have hbody := h.bodyInReaddata_nonneg
  have hle := hr.le_len
  have hb : p.bodyInReaddata = p.truepacketlen - p.headpos - 1 - 34 := rfl
  have hcallback : SafeLog (if p.packetCb = true then
      [.packetCb p.theNexPacket (p.threadPacketdata.base.read 0 p.datalen)] else []) := by
    split
    · simp only [safeLog_cons, safeLog_nil, and_true, Effect.Safe, Mem.length_read]
      exact Int.toNat_of_nonneg h0
    · exact safeLog_nil
  simp only [intMax] at hread hn
  simp only [PacketSync.deliver]
  split
  case isTrue henough =>
    refine ⟨rfl, rfl, ?_⟩
    simp only [safeLog_append]
    refine ⟨⟨?_, ?_⟩, hcallback⟩ <;>
      simp only [safeLog_cons, safeLog_nil, and_true, Effect.Safe, intMax,
        cast_netPackageHeadlen] <;> omega
  case isFalse hshort =>
    refine ⟨rfl, rfl, ?_⟩
    simp only [safeLog_append]
    refine ⟨⟨?_, safeLog_nil⟩, hcallback⟩
    simp only [safeLog_cons, safeLog_nil, and_true, Effect.Safe, intMax]
    omega

/-- Finishing a frame is safe when the buffer rebuilt after a wrong tail byte can be counted. -/
theorem finishFrame_small (hx : x.Ok host data) (hs : x.Small) (hp : x.sync.parsetype = .parseHead)
    (hgot : x.sync.getdatalen = x.sync.datalen + 1) (hn : x.sync.datalen + 1 ≤ intMax)
    (hneed : x.sync.bodyInReaddata < x.sync.datalen + 1 →
      charToInt (x.sync.threadPacketdata.base x.sync.datalen) ≠ x.sync.tail.toNat →
        netPackageHeadlen + (x.sync.datalen + 1) ≤ intMax) : (finishFrame x).Small := by
  have hframe := hx.inv.frame hp
  have h0 := PacketSync.datalen_nonneg hframe.good
  have hfits := hframe.fits
  have htail : SafeLog
      [.readTail x.sync.threadPacketdata.len x.sync.datalen x.sync.getdatalen] := by
    simp only [safeLog_cons, safeLog_nil, and_true, Effect.Safe]
    omega
  simp only [finishFrame]
  split
  case isTrue hwrong =>
    obtain ⟨hr, hk, hsafe⟩ := rejectTail_small hx.inv.toReadInv hframe hs.readdata_le hn
      fun hbody => hneed hbody hwrong
    exact ⟨hr, hk ▸ hs.packetdata_le,
      (safeLog_append _ _).mpr ⟨(safeLog_append _ _).mpr ⟨hs.safe, htail⟩, hsafe⟩⟩
  case isFalse hright =>
    obtain ⟨hr, hk, hsafe⟩ := deliver_small hx.inv.toReadInv hframe hs.readdata_le hn
    exact ⟨hr ▸ hs.readdata_le, hk ▸ hs.packetdata_le,
      (safeLog_append _ _).mpr ⟨(safeLog_append _ _).mpr ⟨hs.safe, htail⟩, hsafe⟩⟩

/-- Receiving data changes neither the header nor the counters of `thread_readdata`. -/
theorem receiveData_fall {x' : Pass} (h : receiveData data x = .fall x') :
    x'.sync.datalen = x.sync.datalen ∧ x'.sync.bodyInReaddata = x.sync.bodyInReaddata ∧
      x'.sync.tail = x.sync.tail := by
  simp only [receiveData] at h
  split at h
  case isTrue =>
    split at h
    case isTrue => cases h
    case isFalse => cases h; exact ⟨rfl, rfl, rfl⟩
  case isFalse => cases h; exact ⟨rfl, rfl, rfl⟩

/-- The undecided bytes of a pass that waits for data, from the payload on. -/
theorem drop_stream (hx : x.Ok host data) (hp : x.sync.parsetype = .parseHead)
    (hlt : x.sync.getdatalen < x.sync.datalen + 1) :
    (x.stream data).drop (1 + netPackageHeadlen) =
      x.sync.threadPacketdata.base.read 0 x.sync.getdatalen ++ data.drop x.iret.toNat := by
  have hlen : (x.sync.threadReaddata.base.read x.sync.headpos (1 + netPackageHeadlen)).length =
      1 + netPackageHeadlen := by
    rw [Mem.length_read]
    rfl
  rw [Pass.stream, PacketSync.pending_of_incomplete hp (hx.inv.frame hp) hlt, List.append_assoc,
    List.drop_left' hlen]

/-- The tail byte of a complete frame among the undecided bytes. -/
theorem tail_stream (hx : x.Ok host data) (hp : x.sync.parsetype = .parseHead)
    (hgot : x.sync.getdatalen = x.sync.datalen + 1) :
    ((x.stream data).drop (1 + netPackageHeadlen))[x.sync.datalen.toNat]? =
      some (x.sync.threadPacketdata.base x.sync.datalen) := by
  have hframe := hx.inv.frame hp
  have hhdr : (x.sync.threadReaddata.base.read (x.sync.headpos + 1) netPackageHeadlen).length =
      netPackageHeadlen := Mem.length_read _ _ _
  have hbody : (x.sync.threadPacketdata.base.read 0 x.sync.datalen).length =
      x.sync.datalen.toNat := Mem.length_read _ _ _
  rw [Pass.stream, PacketSync.pending_of_complete hp hframe hgot, add_comm, List.cons_append,
    List.drop_succ_cons, PacketSync.frameBytes, List.append_assoc, List.drop_left' hhdr,
    List.append_assoc, List.getElem?_append_right hbody.le, hbody, Nat.sub_self]
  rfl

/-- The data part is safe under the limit on a frame that is not wholly in `thread_readdata`. -/
theorem receiveFrame_small (hx : x.Ok host data) (hs : x.Small) (hdata : data.length ≤ intMax)
    (hp : x.sync.parsetype = .parseHead)
    (hlimit : x.sync.bodyInReaddata < x.sync.datalen + 1 →
      FrameLimit x.sync.tail x.sync.datalen.toNat
        ((x.stream data).drop (1 + netPackageHeadlen))) : (receiveFrame data x).Small := by
  have hgood := receiveData_good hx hp
  have hframe := hx.inv.frame hp
  have h0 := PacketSync.datalen_nonneg hframe.good
  have hgot := hframe.got_nonneg
  have hlegot := hframe.le_got
  have hn : x.sync.datalen + 1 ≤ intMax := by
    by_cases hbody : x.sync.bodyInReaddata < x.sync.datalen + 1
    · have hfirst := (hlimit hbody).1
      omega
    · have hpos := hframe.headpos_nonneg
      have hle := hx.inv.le_len
      have hread := hs.readdata_le
      simp only [PacketSync.bodyInReaddata, cast_netPackageHeadlen] at hbody
      omega
  have hsum : x.sync.getdatalen < x.sync.datalen + 1 →
      x.sync.getdatalen + (data.length - x.iret) ≤ intMax := by
    intro hlt
    have hbytes := (hlimit (by omega)).2.1
    have hi0 := hx.iret_nonneg
    have hile := hx.iret_le
    rw [drop_stream hx hp hlt, List.length_append, Mem.length_read, List.length_drop] at hbytes
    omega
  have hsmall := receiveData_small hx hs hdata hp hn hsum
  rw [receiveFrame]
  cases heq : receiveData data x with
  | next x' => rw [heq] at hsmall; exact hsmall
  | ret x' => rw [heq] at hsmall; exact hsmall
  | fall x' =>
    rw [heq] at hsmall hgood
    obtain ⟨hok, -, hp', hgot', hstream⟩ := hgood
    obtain ⟨hlen, hbody, htail⟩ := receiveData_fall heq
    refine finishFrame_small hok hsmall hp' hgot' (hlen ▸ hn) fun hshort hwrong => ?_
    rw [hbody, hlen] at hshort
    have hneed := (hlimit hshort).2.2 (x'.sync.threadPacketdata.base x'.sync.datalen) ?_ ?_
    · rw [hlen]
      omega
    · rw [Option.mem_def, ← hstream, ← hlen]
      exact tail_stream hok hp' hgot'
    · rw [← htail]
      exact hwrong

/-- One pass is safe under its limit. -/
theorem recvdataBody_small (hx : x.Ok host data) (hs : x.Small) (hdata : data.length ≤ intMax)
    (hlimit : x.Limit host data)
    (hrun : x.iret < data.length ∨ x.sync.truepacketlen ≥ netPackageHeadlen + 2) :
    (recvdataBody host data x).Small := by
  rw [recvdataBody]
  cases hp : x.sync.parsetype with
  | parseHead =>
    refine receiveFrame_small hx hs hdata hp fun _ => ?_
    simpa only [Pass.Limit, hp] using hlimit
  | parseNothing =>
    have hgood := parseHeader_good hx hp hrun
    have hsmall := parseHeader_small hx hs hdata hp hlimit hrun
    cases heq : parseHeader host data x with
    | next x' => rw [heq] at hsmall; exact hsmall
    | ret x' => rw [heq] at hsmall; exact hsmall
    | fall x' =>
      rw [heq] at hsmall hgood
      exact receiveFrame_small hgood.1 hsmall hdata hgood.2.2 fun hbody =>
        hlimit.of_fall hx hp heq hgood.1 hbody

end ReceiveFrame

/-! ### Runs -/

/-- Every pass of the loop meets its limit. -/
def recvdataLoopLimited (host : Host) (data : List UInt8) : ℕ → Pass → Prop
  | 0, _ => True
  | fuel + 1, x =>
    if x.iret < data.length ∨ x.sync.truepacketlen ≥ netPackageHeadlen + 2 then
      x.Limit host data ∧
        match recvdataBody host data x with
        | .next x => recvdataLoopLimited host data fuel x
        | _ => True
    else True

/-- Whether the passes of a call are within their limits can be decided. -/
instance decRecvdataLoopLimited (host : Host) (data : List UInt8) :
    ∀ fuel x, Decidable (recvdataLoopLimited host data fuel x)
  | 0, _ => inferInstanceAs (Decidable True)
  | fuel + 1, x =>
    let rest : Decidable (match recvdataBody host data x with
        | .next x => recvdataLoopLimited host data fuel x
        | _ => True) :=
      match recvdataBody host data x with
      | .next x => decRecvdataLoopLimited host data fuel x
      | .fall _ | .ret _ => inferInstanceAs (Decidable True)
    if h : x.iret < data.length ∨ x.sync.truepacketlen ≥ netPackageHeadlen + 2 then
      decidable_of_iff (x.Limit host data ∧ _) (by rw [recvdataLoopLimited, if_pos h])
    else isTrue (by rw [recvdataLoopLimited, if_neg h]; trivial)

/-- Every pass of a call of `recvdata` meets its limit. -/
def recvdataLimited (host : Host) (p : PacketSync) (data : List UInt8) : Prop :=
  recvdataLoopLimited host data (recvdataFuel p data) ⟨p, 0, []⟩

/-- Every pass of a sequence of calls meets its limit. -/
def recvChunksLimited (host : Host) (p : PacketSync) : List (List UInt8) → Prop
  | [] => True
  | data :: chunks =>
    recvdataLimited host p data ∧
      match recvdata host p data with
      | some (p, _) => recvChunksLimited host p chunks
      | none => True

/-- Whether the calls of a run are within their limits can be decided. -/
instance decRecvChunksLimited (host : Host) :
    ∀ p chunks, Decidable (recvChunksLimited host p chunks)
  | _, [] => inferInstanceAs (Decidable True)
  | p, data :: chunks =>
    let rest : Decidable (match recvdata host p data with
        | some (p, _) => recvChunksLimited host p chunks
        | none => True) :=
      match recvdata host p data with
      | some (p, _) => decRecvChunksLimited host p chunks
      | none => inferInstanceAs (Decidable True)
    @instDecidableAnd _ _ (decRecvdataLoopLimited host data _ _) rest

section Runs

variable {host : Host} {p : PacketSync} {data : List UInt8}

/-- A condition that holds of every pass that may follow `x` holds all along the loop. -/
theorem recvdataLoopLimited_of_advance (fuel : ℕ) (x : Pass) (hx : x.Ok host data)
    (hinc : x.sync.parsetype = .parseHead → x.sync.getdatalen ≤ x.sync.datalen)
    (h : ∀ x' : Pass, x'.Ok host data → x.Advance host data x' →
      (x'.sync.parsetype = .parseHead → x'.sync.getdatalen ≤ x'.sync.datalen) →
        x'.Limit host data) :
    recvdataLoopLimited host data fuel x := by
  induction fuel generalizing x with
  | zero => trivial
  | succ fuel ih =>
    rw [recvdataLoopLimited]
    split
    case isFalse => trivial
    case isTrue hrun =>
      refine ⟨h x hx (.of_silent rfl rfl rfl (.refl _) rfl) hinc, ?_⟩
      have hgood := recvdataBody_good hx hrun
      cases heq : recvdataBody host data x with
      | fall x' => trivial
      | ret x' => trivial
      | next x' =>
        rw [heq] at hgood
        exact ih x' hgood.1 (fun hp => absurd (hgood.2.2.2.symm.trans hp) (by decide))
          fun x'' hok hadv => h x'' hok (hgood.2.1.trans hadv)

/-- The loop is safe when all of its passes meet their limits. -/
theorem recvdataLoop_small (fuel : ℕ) (x : Pass) (hx : x.Ok host data) (hs : x.Small)
    (hdata : data.length ≤ intMax) (hlimit : recvdataLoopLimited host data fuel x) {x' : Pass}
    (h : recvdataLoop host data fuel x = some x') : x'.Small := by
  induction fuel generalizing x with
  | zero => cases h
  | succ fuel ih =>
    rw [recvdataLoop] at h
    rw [recvdataLoopLimited] at hlimit
    split at h
    case isFalse hdone =>
      cases h
      exact hs
    case isTrue hrun =>
      rw [if_pos hrun] at hlimit
      have hgood := recvdataBody_good hx hrun
      have hsmall := recvdataBody_small hx hs hdata hlimit.1 hrun
      cases heq : recvdataBody host data x with
      | fall x'' =>
        rw [heq] at hsmall h
        cases h
        exact hsmall
      | ret x'' =>
        rw [heq] at hsmall h
        cases h
        exact hsmall
      | next x'' =>
        rw [heq] at hgood hsmall h hlimit
        exact ih x'' hgood.1 hsmall hlimit.2 h

/-- Both buffers of the decoder are shorter than `INT_MAX`. -/
def PacketSync.Sized (p : PacketSync) : Prop :=
  p.threadReaddata.len ≤ intMax ∧ p.threadPacketdata.len ≤ intMax

/-- A call of `recvdata` is safe when all of its passes meet their limits. -/
theorem recvdata_safe (hp : p.Suspended host) (hsize : p.Sized) (hdata : data.length ≤ intMax)
    (hlimit : recvdataLimited host p data) {p' : PacketSync} {log : List Effect}
    (h : recvdata host p data = some (p', log)) : p'.Sized ∧ SafeLog log := by
  obtain ⟨x, hloop, heq⟩ := Option.map_eq_some_iff.mp h
  cases heq
  have hx : Pass.Ok host data ⟨p, 0, []⟩ := ⟨hp.toInv, le_refl _, by simp⟩
  have hsmall := recvdataLoop_small _ _ hx ⟨hsize.1, hsize.2, safeLog_nil⟩ hdata hlimit hloop
  exact ⟨⟨hsmall.readdata_le, hsmall.packetdata_le⟩, hsmall.safe⟩

/-- A sequence of calls is safe when all of their passes meet their limits. -/
theorem recvChunks_safe (hp : p.Suspended host) (hcb : p.packetCb = true) (hsize : p.Sized)
    (chunks : List (List UInt8)) (hchunks : ∀ data ∈ chunks, (data.length : ℤ) ≤ intMax)
    (hlimit : recvChunksLimited host p chunks) {p' : PacketSync} {log : List Effect}
    (h : recvChunks host p chunks = some (p', log)) : SafeLog log := by
  induction chunks generalizing p p' log with
  | nil =>
    cases h
    exact safeLog_nil
  | cons data chunks ih =>
    obtain ⟨p₁, log₁, hrun₁, hp₁, hcb₁, -⟩ := recvdata_spec hp hcb data
    rw [recvChunksLimited, hrun₁] at hlimit
    obtain ⟨hsize₁, hsafe₁⟩ :=
      recvdata_safe hp hsize (hchunks data List.mem_cons_self) hlimit.1 hrun₁
    obtain ⟨p₂, log₂, hrun₂, -⟩ := recvChunks_spec hp₁ hcb₁ chunks
    have hlog : log = log₁ ++ log₂ := by
      simp only [recvChunks, hrun₁, hrun₂, Option.bind_eq_bind, Option.bind_some, Option.pure_def,
        Option.some.injEq, Prod.mk.injEq] at h
      exact h.2.symm
    rw [hlog, safeLog_append]
    exact ⟨hsafe₁, ih hp₁ hcb₁ hsize₁ (fun d hd => hchunks d (List.mem_cons_of_mem _ hd)) hlimit.2
      hrun₂⟩

/-- A payload length so far below `INT_MAX` that no sum of the loop reaches it. -/
def payloadBound : ℤ := intMax - bufferSize - (netPackageHeadlen + 1)

/-- A short payload followed by at most one receive buffer is within the limit. -/
theorem frameLimit_of_short {tail : UInt8} {n : ℕ} {s : List UInt8} (hn : (n : ℤ) ≤ payloadBound)
    (hs : (s.length : ℤ) ≤ n + bufferSize) : FrameLimit tail n s := by
  have hbuffer : (0 : ℤ) ≤ bufferSize := by decide
  simp only [payloadBound, cast_netPackageHeadlen] at hn
  exact ⟨by omega, by omega, fun _ _ _ => by rw [cast_netPackageHeadlen]; omega⟩

/-- The header of a frame in progress is an accepted one of the stream. -/
theorem Pass.mem_accepted_of_frame {x : Pass} (hx : x.Ok host data)
    (hp : x.sync.parsetype = .parseHead) (hgot : x.sync.getdatalen ≤ x.sync.datalen) :
    (x.sync.theNexPacket, x.sync.datalen.toNat) ∈
      (x.sync.framing host).accepted (x.stream data) := by
  have hframe := hx.inv.frame hp
  have hhdr : (x.sync.threadReaddata.base.read (x.sync.headpos + 1) netPackageHeadlen).length =
      (x.sync.framing host).headerLen := Mem.length_read _ _ _
  have hstream : x.stream data = [] ++ x.sync.head ::
      (x.sync.threadReaddata.base.read (x.sync.headpos + 1) netPackageHeadlen ++
        (x.sync.threadPacketdata.base.read 0 x.sync.getdatalen ++ data.drop x.iret.toNat)) := by
    rw [Pass.stream, PacketSync.pending_of_incomplete hp hframe (by omega),
      PacketSync.read_headpos_eq_cons hframe, List.nil_append, List.cons_append, List.cons_append,
      List.append_assoc]
  have hmem := Framing.mem_accepted_of_candidate (F := x.sync.framing host) (w := [])
    (b := x.sync.head)
    (s := x.sync.threadReaddata.base.read (x.sync.headpos + 1) netPackageHeadlen ++
      (x.sync.threadPacketdata.base.read 0 x.sync.getdatalen ++ data.drop x.iret.toNat))
    (fun _ hc => absurd hc List.not_mem_nil) (beq_self_eq_true _)
    (by rw [List.length_append, hhdr]; omega)
    (by rw [List.take_left' hhdr, framing_header_of_frame hframe])
  rwa [← hstream] at hmem

/-- So is the header of the candidate, if it is whole: the bytes before it hold no head byte. -/
theorem Pass.mem_accepted_of_candidate {x : Pass} {c : NetPacket × ℕ}
    (hsize : netPackageHeadlen + 1 ≤ (x.candidate data).length)
    (hc : (x.sync.framing host).header (((x.candidate data).drop 1).take netPackageHeadlen) =
      some c) : c ∈ (x.sync.framing host).accepted (x.stream data) := by
  have hsplit : x.stream data =
      (x.stream data).takeWhile (· != x.sync.head) ++ x.candidate data :=
    (List.takeWhile_append_dropWhile).symm
  obtain ⟨b, s, hs⟩ : ∃ b s, x.candidate data = b :: s :=
    List.exists_cons_of_length_pos (by omega)
  have hb : b = x.sync.head := by
    have := List.head?_dropWhile_not (· != x.sync.head) (x.stream data)
    rw [← Pass.candidate, hs] at this
    simpa using this
  have hmem := Framing.mem_accepted_of_candidate (F := x.sync.framing host)
    (w := (x.stream data).takeWhile (· != x.sync.head)) (b := b) (s := s) (h := c.1) (n := c.2)
    (fun d hd => by
      have hd' := List.mem_takeWhile_imp hd
      show (d == x.sync.head) = false
      simpa using hd')
    (by rw [hb]; exact beq_self_eq_true _)
    (by rw [hs, List.length_cons] at hsize; show netPackageHeadlen ≤ _; omega)
    (by
      rw [hs, List.drop_one, List.tail_cons] at hc
      exact hc)
  rwa [← hs, ← hsplit] at hmem

/-- A pass meets its limit when the headers accepted in its bytes announce short payloads. -/
theorem Pass.limit_of_accepted {x : Pass} (hx : x.Ok host data)
    (hinc : x.sync.parsetype = .parseHead → x.sync.getdatalen ≤ x.sync.datalen)
    (hdata : (data.length : ℤ) ≤ bufferSize)
    (h : ∀ c ∈ (x.sync.framing host).accepted (x.stream data), (c.2 : ℤ) ≤ payloadBound) :
    x.Limit host data := by
  have hi0 := hx.iret_nonneg
  have hile := hx.iret_le
  cases hp : x.sync.parsetype with
  | parseHead =>
    have hframe := hx.inv.frame hp
    have hgot := hinc hp
    have hgot0 := hframe.got_nonneg
    simp only [Pass.Limit, hp]
    refine frameLimit_of_short (h _ (mem_accepted_of_frame hx hp hgot)) ?_
    rw [drop_stream hx hp (by omega), List.length_append, Mem.length_read, List.length_drop]
    omega
  | parseNothing =>
    have hlen := length_stream hx hp
    have hle := hx.inv.le_len
    simp only [Pass.Limit, hp]
    intro c hc hwhole hpart
    have hsize : netPackageHeadlen + 1 ≤ (x.candidate data).length := by
      have := le_trans hwhole (min_le_right _ _)
      omega
    refine frameLimit_of_short (h _ (mem_accepted_of_candidate hsize (Option.mem_def.mp hc))) ?_
    rw [List.length_drop]
    omega

/-- A run meets all limits when the headers that the scan of its stream accepts announce short
payloads. -/
theorem recvChunksLimited_of_accepted (hp : p.Suspended host) (hcb : p.packetCb = true)
    (chunks : List (List UInt8)) (hchunks : ∀ data ∈ chunks, (data.length : ℤ) ≤ bufferSize)
    (h : ∀ c ∈ (p.framing host).accepted (p.pending ++ chunks.flatten), (c.2 : ℤ) ≤ payloadBound) :
    recvChunksLimited host p chunks := by
  induction chunks generalizing p with
  | nil => trivial
  | cons data chunks ih =>
    have hx : Pass.Ok host data ⟨p, 0, []⟩ := ⟨hp.toInv, le_refl _, by simp⟩
    obtain ⟨p₁, log₁, hrun₁, hp₁, hcb₁, hhead₁, htail₁, hred₁⟩ := recvdata_spec hp hcb data
    have hF : p₁.framing host = p.framing host := by
      rw [PacketSync.framing, PacketSync.framing, hhead₁, htail₁]
    rw [List.flatten_cons, ← List.append_assoc] at h
    rw [recvChunksLimited, hrun₁]
    constructor
    · refine recvdataLoopLimited_of_advance _ _ hx hp.incomplete fun x' hok hadv hinc => ?_
      refine Pass.limit_of_accepted hok hinc (hchunks data List.mem_cons_self) fun c hc => ?_
      -- what this pass accepts, the whole stream does
      obtain ⟨out, hred, -⟩ := hadv.reduces
      rw [hadv.framing_eq] at hc
      have hmem := (hred.append chunks.flatten).accepted_subset
        (Framing.accepted_append_subset _ _ _ hc)
      exact h c hmem
    · refine ih hp₁ hcb₁ (fun d hd => hchunks d (List.mem_cons_of_mem _ hd)) fun c hc => ?_
      rw [hF] at hc
      exact h c ((hred₁.append chunks.flatten).accepted_subset hc)

end Runs

/-- A decoder that is started has the sizes of its constructor. -/
theorem PacketSync.sized_start (u : Indeterminate) (head tail : UInt8) :
    ((newPacketSync u).setPacketCB.start head tail).Sized := by
  constructor <;> show bufferSize ≤ intMax <;> decide

/-- **No overflow within the limits.** In every run of a started decoder, over every stream and every
chunking as the receive buffer allows, in which each pass meets its limit, the calls end and every
effect is safe. -/
theorem recvdata_in_range (host : Host) (u : Indeterminate) (head tail : UInt8)
    (chunks : List (List UInt8))
    (hchunks : ∀ data ∈ chunks, 0 < data.length ∧ (data.length : ℤ) ≤ bufferSize)
    (hlimit : recvChunksLimited host ((newPacketSync u).setPacketCB.start head tail) chunks) :
    ∃ p log, recvChunks host ((newPacketSync u).setPacketCB.start head tail) chunks = some (p, log) ∧
      SafeLog log := by
  obtain ⟨p, log, hrun, -⟩ :=
    recvChunks_spec (PacketSync.suspended_start host u head tail) rfl chunks
  have hbuffer : bufferSize ≤ intMax := by decide
  exact ⟨p, log, hrun, recvChunks_safe (PacketSync.suspended_start host u head tail) rfl
    (PacketSync.sized_start u head tail) chunks
    (fun data hdata => le_trans (hchunks data hdata).2 hbuffer) hlimit hrun⟩

/-- A head byte in the noise, then a frame whose tail byte comes in a second chunk. -/
theorem recvdata_in_range_two_chunks :
    ∃ p log, recvChunks .little ((newPacketSync default).setPacketCB.start 1 2)
        [[9, 1, 0, 0, 0, 0, 1, 2] ++ List.replicate 28 0, [2]] = some (p, log) ∧ SafeLog log :=
  recvdata_in_range .little default 1 2 _ (by decide) (by decide +kernel)

/-- A header with payload length `INT_MAX` makes `theNexPacket.datalen + 1` overflow. -/
theorem recvdata_datalen_overflow :
    ¬ ∀ chunks : List (List UInt8),
      (∀ data ∈ chunks, 0 < data.length ∧ (data.length : ℤ) ≤ bufferSize) →
        ∀ p log, recvChunks .little ((newPacketSync default).setPacketCB.start 1 2) chunks =
          some (p, log) → ∀ v, .int v ∈ log → -2 ^ 31 ≤ v ∧ v ≤ intMax := by
  intro h
  have hlog : ((recvChunks .little ((newPacketSync default).setPacketCB.start 1 2)
      [[1, 0, 0, 0, 0, 1, 2] ++ List.replicate 20 0 ++ [255, 255, 255, 127, 0, 0, 0, 0]]).map
        fun r => decide (Effect.int (2 ^ 31) ∈ r.2)) = some true := by decide +kernel
  obtain ⟨⟨p, log⟩, hrun, hmem⟩ := Option.map_eq_some_iff.mp hlog
  have hrange := h _ (by decide) p log hrun (2 ^ 31) (of_decide_eq_true hmem)
  exact absurd hrange.2 (by decide)

end MyUvpp
