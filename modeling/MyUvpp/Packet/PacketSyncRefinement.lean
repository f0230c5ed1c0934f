import MyUvpp.Packet.PacketSyncInvariant

/-! # The decoder refines the scan of the whole stream

Between two calls of `recvdata` the decoder is `PacketSync.Suspended`: inside a frame that is not
complete, or with fewer buffered bytes than the shortest frame has. A call ends in such a state and
has reduced the pending bytes followed by its input, so that a sequence of calls emits the frames of
`Framing.scan` on the concatenated input, however it is cut into chunks. -/

namespace MyUvpp

/-- The frame format on the wire: the head byte, the 34 header bytes with the same head and tail
bytes and a non-negative payload length, the payload, and the tail byte. -/
def wireFraming (host : Host) (head tail : UInt8) : Framing UInt8 NetPacket where
  isHead b := b == head
  headerLen := netPackageHeadlen
  header bytes :=
    let packet := charToNetPacket host bytes
    if packet.header ≠ head || packet.tail ≠ tail || packet.datalen.toInt < 0 then none
    else some (packet, packet.datalen.toInt.toNat)
  isTail b := b == tail

/-- For a tail byte below 128 the signed comparison of the source is equality of bytes. -/
theorem charToInt_beq (b : UInt8) {tail : UInt8} (htail : tail.toNat < 128) :
    (charToInt b == (tail.toNat : ℤ)) = (b == tail) := by
  have hb := b.toNat_lt
  rw [Bool.eq_iff_iff, beq_iff_eq, beq_iff_eq, charToInt, ← UInt8.toNat_inj]
  split <;> omega

/-- For a tail byte below 128 the decoder frames its input as the wire format says. -/
theorem decoderFraming_eq_wireFraming (host : Host) (head : UInt8) {tail : UInt8}
    (htail : tail.toNat < 128) : decoderFraming host head tail = wireFraming host head tail := by
  simp only [decoderFraming, wireFraming, charToInt_beq _ htail]

namespace PacketSync

variable {host : Host} {p : PacketSync}

/-- The decoder between two calls of `recvdata`. -/
structure Suspended (host : Host) (p : PacketSync) : Prop extends p.Inv host where
  incomplete : p.parsetype = .parseHead → p.getdatalen ≤ p.datalen
  short : p.parsetype = .parseNothing → p.truepacketlen < netPackageHeadlen + 2

/-- A suspended decoder has no complete frame among its pending bytes. -/
theorem scan_pending (h : p.Suspended host) : (p.framing host).scan p.pending = [] := by
  cases hp : p.parsetype with
  | parseNothing =>
    have h0 := h.nonneg
    have hlt := h.short hp
    apply Framing.scan_of_short
    simp only [pending, hp, Mem.length_read]
    show _ < netPackageHeadlen + 2
    omega
  | parseHead =>
    have hf := h.frame hp
    have hlt := h.incomplete hp
    have hgot := hf.got_nonneg
    have hhdr : (p.threadReaddata.base.read (p.headpos + 1) netPackageHeadlen).length =
        (p.framing host).headerLen := by
      rw [Mem.length_read]; rfl
    have hheader := framing_header hf.packet_eq
    rw [hf.good, if_neg Bool.false_ne_true] at hheader
    rw [pending_of_incomplete hp hf (by omega), read_headpos_eq_cons hf, List.cons_append,
      Framing.scan, Framing.verdict_of_pending (h := p.theNexPacket) (n := p.datalen.toNat)]
    · exact beq_self_eq_true _
    · rw [List.length_append, hhdr]
      omega
    · rw [List.take_left' hhdr, hheader]
    · rw [List.length_append, hhdr, Mem.length_read]
      omega

/-- A started decoder is suspended with nothing pending. -/
theorem suspended_start (host : Host) (u : Indeterminate) (head tail : UInt8) :
    ((newPacketSync u).setPacketCB.start head tail).Suspended host where
  size_le := le_refl _
  nonneg := le_refl _
  le_len := by
    show (0 : ℤ) ≤ bufferSize
    decide
  packet_size := le_refl _
  frame := fun h => absurd h (by simp [newPacketSync, setPacketCB, start])
  incomplete := fun h => absurd h (by simp [newPacketSync, setPacketCB, start])
  short := fun _ => by
    show (0 : ℤ) < netPackageHeadlen + 2
    decide

/-- A decoder that is started has nothing pending. -/
theorem pending_start (u : Indeterminate) (head tail : UInt8) :
    ((newPacketSync u).setPacketCB.start head tail).pending = [] := Mem.read_zero _ _

end PacketSync

/-! ### The loop -/

section Loop

variable {host : Host} {data : List UInt8}

/-- With more passes allowed than there are undecided bytes, the loop ends: all input has been
consumed and the decoder is suspended. -/
theorem recvdataLoop_spec (fuel : ℕ) (x : Pass) (hx : x.Ok host data)
    (hinc : x.sync.parsetype = .parseHead → x.sync.getdatalen ≤ x.sync.datalen)
    (hfuel : (x.stream data).length + 2 ≤ fuel) :
    ∃ x', recvdataLoop host data fuel x = some x' ∧ x'.Ok host data ∧ x.Advance host data x' ∧
      x'.iret = data.length ∧ x'.sync.Suspended host := by
  induction fuel generalizing x with
  | zero => omega
  | succ fuel ih =>
    rw [recvdataLoop]
    split
    case isFalse hdone =>
      rw [not_or, not_lt, ge_iff_le, not_le] at hdone
      exact ⟨x, rfl, hx, .of_silent rfl rfl rfl (.refl _) rfl, le_antisymm hx.iret_le hdone.1,
        ⟨hx.inv, hinc, fun _ => hdone.2⟩⟩
    case isTrue hrun =>
      have hgood := recvdataBody_good hx hrun
      cases heq : recvdataBody host data x with
      | fall x' =>
        rw [heq] at hgood
        exact hgood.2.2.elim
      | ret x' =>
        rw [heq] at hgood
        obtain ⟨hok, hadv, hiret, htype, hgot⟩ := hgood
        exact ⟨x', rfl, hok, hadv, hiret,
          ⟨hok.inv, fun _ => hgot, fun h => absurd (htype.symm.trans h) (by decide)⟩⟩
      | next x' =>
        rw [heq] at hgood
        obtain ⟨hok, hadv, hprog, htype⟩ := hgood
        have hnot : x'.sync.parsetype = .parseHead → x'.sync.getdatalen ≤ x'.sync.datalen :=
          fun h => absurd (htype.symm.trans h) (by decide)
        rcases hprog with hlt | ⟨hiret, hshort⟩
        · obtain ⟨x'', hrun', hok', hadv', hrest⟩ := ih x' hok hnot (by omega)
          exact ⟨x'', hrun', hok', hadv.trans hadv', hrest⟩
        · -- the next test of the loop condition fails
          obtain ⟨fuel, rfl⟩ : ∃ k, fuel = k + 1 := ⟨fuel - 1, by omega⟩
          refine ⟨x', ?_, hok, hadv, hiret, ⟨hok.inv, hnot, fun _ => hshort⟩⟩
          simp only
          rw [recvdataLoop, if_neg (by omega)]

end Loop

/-! ### Calls of `recvdata` -/

section Calls

variable {host : Host} {p : PacketSync}

/-- One call of `recvdata` ends, leaves the decoder suspended and emits the frames by which it has
reduced the pending bytes followed by its input. -/
theorem recvdata_spec (hp : p.Suspended host) (hcb : p.packetCb = true) (data : List UInt8) :
    ∃ p' log, recvdata host p data = some (p', log) ∧ p'.Suspended host ∧ p'.packetCb = true ∧
      p'.head = p.head ∧ p'.tail = p.tail ∧
      (p.framing host).Reduces (p.pending ++ data) (frames log) p'.pending := by
  have hx : Pass.Ok host data ⟨p, 0, []⟩ := ⟨hp.toInv, le_refl _, by simp⟩
  have hlen : p.pending.length ≤
      p.truepacketlen.toNat + p.getdatalen.toNat + netPackageHeadlen + 1 := by
    cases htype : p.parsetype with
    | parseNothing =>
      simp only [PacketSync.pending, htype, Mem.length_read]
      omega
    | parseHead =>
      have hf := hp.frame htype
      have h0 := hf.headpos_nonneg
      have hn := PacketSync.datalen_nonneg hf.good
      simp only [PacketSync.pending, htype, Mem.length_read, List.length_append,
        PacketSync.bodyInReaddata, netPackageHeadlen]
      omega
  obtain ⟨x', hrun, hok, hadv, hiret, hsus⟩ := recvdataLoop_spec (recvdataFuel p data) ⟨p, 0, []⟩ hx
    hp.incomplete (by
      simp only [recvdataFuel, Pass.stream, Int.toNat_zero, List.drop_zero, List.length_append]
      omega)
  obtain ⟨out, hred, hframes⟩ := hadv.reduces
  have hout : frames x'.log = out := by
    rw [hframes hcb]
    rfl
  refine ⟨x'.sync, x'.log, by rw [recvdata, hrun]; rfl, hsus, hadv.packetCb_eq.trans hcb,
    hadv.head_eq, hadv.tail_eq, ?_⟩
  simpa only [Pass.stream, hiret, Int.toNat_zero, List.drop_zero, Int.toNat_natCast, List.drop_length,
    List.append_nil, hout] using hred

/-- A sequence of calls reduces the pending bytes followed by all chunks. -/
theorem recvChunks_spec (hp : p.Suspended host) (hcb : p.packetCb = true)
    (chunks : List (List UInt8)) :
    ∃ p' log, recvChunks host p chunks = some (p', log) ∧ p'.Suspended host ∧ p'.packetCb = true ∧
      p'.head = p.head ∧ p'.tail = p.tail ∧
      (p.framing host).Reduces (p.pending ++ chunks.flatten) (frames log) p'.pending := by
  induction chunks generalizing p with
  | nil =>
    refine ⟨p, [], rfl, hp, hcb, rfl, rfl, ?_⟩
    rw [List.flatten_nil, List.append_nil]
    exact .refl _
  | cons data chunks ih =>
    obtain ⟨p₁, log₁, hrun₁, hp₁, hcb₁, hhead₁, htail₁, hred₁⟩ := recvdata_spec hp hcb data
    obtain ⟨p₂, log₂, hrun₂, hp₂, hcb₂, hhead₂, htail₂, hred₂⟩ := ih hp₁ hcb₁
    have hF : p₁.framing host = p.framing host := by
      rw [PacketSync.framing, PacketSync.framing, hhead₁, htail₁]
    rw [hF] at hred₂
    refine ⟨p₂, log₁ ++ log₂, ?_, hp₂, hcb₂, hhead₂.trans hhead₁, htail₂.trans htail₁, ?_⟩
    · simp [recvChunks, hrun₁, hrun₂]
    · rw [List.flatten_cons, ← List.append_assoc, frames_append]
      exact (hred₁.append chunks.flatten).trans hred₂

/-- What a suspended decoder emits on more chunks is the scan of its pending bytes followed by
them. -/
theorem recvChunks_scan (hp : p.Suspended host) (hcb : p.packetCb = true)
    (chunks : List (List UInt8)) :
    ∃ p' log, recvChunks host p chunks = some (p', log) ∧ p'.Suspended host ∧ p'.packetCb = true ∧
      p'.framing host = p.framing host ∧
      frames log = (p.framing host).scan (p.pending ++ chunks.flatten) := by
  obtain ⟨p', log, hrun, hp', hcb', hhead, htail, hred⟩ := recvChunks_spec hp hcb chunks
  have hF : p'.framing host = p.framing host := by
    rw [PacketSync.framing, PacketSync.framing, hhead, htail]
  refine ⟨p', log, hrun, hp', hcb', hF, ?_⟩
  rw [hred.scan_eq, ← hF, PacketSync.scan_pending hp', List.append_nil]

end Calls

/-- **The decoder refines the scan.** However a byte stream is cut into calls of `recvdata`, a freshly
constructed and started decoder ends every call, and the frames it passes to its callback are those
of the scan of the whole stream. -/
theorem recvdata_refines_scan (host : Host) (u : Indeterminate) (head tail : UInt8)
    (htail : tail.toNat < 128) (chunks : List (List UInt8)) :
    ∃ p log, recvChunks host ((newPacketSync u).setPacketCB.start head tail) chunks = some (p, log) ∧
      frames log = (wireFraming host head tail).scan chunks.flatten := by
  obtain ⟨p, log, hrun, -, -, -, hframes⟩ :=
    recvChunks_scan (PacketSync.suspended_start host u head tail) rfl chunks
  refine ⟨p, log, hrun, ?_⟩
  rw [hframes, PacketSync.pending_start, List.nil_append,
    ← decoderFraming_eq_wireFraming host head htail]
  rfl

/-- A frame without payload, cut inside its header and before its tail byte. -/
theorem recvdata_refines_scan_three_chunks :
    ∃ p log, recvChunks .little ((newPacketSync default).setPacketCB.start 1 2)
        [[9, 1, 0, 0, 0, 0, 1], 2 :: List.replicate 28 0, [2]] = some (p, log) ∧
      frames log = (wireFraming .little 1 2).scan
        ([9, 1, 0, 0, 0, 0, 1] ++ (2 :: List.replicate 28 0) ++ [2]) :=
  recvdata_refines_scan .little default 1 2 (by decide) _

end MyUvpp
