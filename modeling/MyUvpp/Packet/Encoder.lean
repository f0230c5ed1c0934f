import MyUvpp.Packet.DecoderReuse

/-! # What `PacketData` writes, for a decoder

`PacketData` clears the `check` field of a packet without payload and writes the head byte, the header,
the payload and the tail byte. A decoder with the same bytes `HEAD` and `TAIL` accepts the header and
takes the payload; whether it delivers the frame is left to the comparison of the tail byte, where a
byte of the buffer is a signed `char` and `TAIL` is not. -/

namespace MyUvpp

/-- The packet as `PacketData` leaves and writes it. -/
def NetPacket.encoded (packet : NetPacket) : NetPacket :=
  if packet.datalen = 0 then { packet with check := Vector.replicate 16 0 } else packet

namespace NetPacket

variable (packet : NetPacket)

/-- Encoding does not change the header. -/
@[simp] theorem encoded_header : packet.encoded.header = packet.header := by
  unfold encoded
  split <;> rfl

/-- It does not change the tail. -/
@[simp] theorem encoded_tail : packet.encoded.tail = packet.tail := by
  unfold encoded
  split <;> rfl

/-- It does not change the length. -/
@[simp] theorem encoded_datalen : packet.encoded.datalen = packet.datalen := by
  unfold encoded
  split <;> rfl

end NetPacket

section Encoder

variable {packet : NetPacket} {data : Option (List UInt8)}

/-- Without payload, and only then, the payload length is zero. -/
theorem datalen_eq_zero_of_none (hlen : packet.datalen.toInt = (data.getD []).length)
    (hdata : data = none) : packet.datalen = 0 := by
  rw [hdata, Option.getD_none, List.length_nil] at hlen
  exact Int32.toInt_inj.mp hlen

/-- **What `PacketData` returns** for a packet that announces the length of its payload. -/
theorem packetData_of_length (host : Host) (hlen : packet.datalen.toInt = (data.getD []).length) :
    packetData host packet data =
      some (packet.encoded, packet.header :: netPacketToChar host packet.encoded ++ data.getD [] ++
        [packet.tail]) := by
  have hpacket : (if packet.datalen = 0 ∨ data = none then
      { packet with check := Vector.replicate 16 0 } else packet) = packet.encoded := by
    unfold NetPacket.encoded
    by_cases hd : packet.datalen = 0
    · rw [if_pos (.inl hd), if_pos hd]
    · rw [if_neg hd, if_neg fun h => h.elim hd fun hn => hd (datalen_eq_zero_of_none hlen hn)]
  have htake : (data.getD []).take packet.encoded.datalen.toInt.toNat = data.getD [] := by
    rw [NetPacket.encoded_datalen, hlen, Int.toNat_natCast, List.take_length]
  simp only [packetData]
  rw [hpacket, htake, if_pos (by rw [NetPacket.encoded_datalen, hlen]; omega),
    NetPacket.encoded_header, NetPacket.encoded_tail]

/-- The decoder accepts the header of a packet that announces the length of its payload. -/
theorem header_encoded (host : Host) (hlen : packet.datalen.toInt = (data.getD []).length) :
    (decoderFraming host packet.header packet.tail).header (netPacketToChar host packet.encoded) =
      some (packet.encoded, (data.getD []).length) := by
  simp only [decoderFraming, charToNetPacket_netPacketToChar, NetPacket.encoded_header,
    NetPacket.encoded_tail, NetPacket.encoded_datalen, hlen]
  simp

/-- The tail byte is recognised exactly below 128. -/
theorem isTail_iff (host : Host) (head tail : UInt8) :
    (decoderFraming host head tail).isTail tail = true ↔ tail.toNat < 128 := by
  constructor
  · intro h
    by_contra hge
    rw [isTail_eq_false host head (not_lt.mp hge)] at h
    cases h
  · exact isTail_self host head

end Encoder

/-- **Which tail bytes are accepted.** A decoder started with the bytes of a packet delivers what
`PacketData` writes for it, in one call and as the only frame, if and only if the tail byte is below
128. Above, the tail byte in the buffer is a negative `char` and differs from every `unsigned char`. -/
theorem packetData_delivered_iff (host : Host) (u : Indeterminate) (head tail : UInt8)
    (packet : NetPacket) (data : Option (List UInt8)) (hhead : packet.header = head)
    (htail : packet.tail = tail) (hlen : packet.datalen.toInt = (data.getD []).length) :
    (∃ packet' bytes p log, packetData host packet data = some (packet', bytes) ∧
      recvdata host ((newPacketSync u).setPacketCB.start head tail) bytes = some (p, log) ∧
      frames log = [(packet', data.getD [])]) ↔ tail.toNat < 128 := by
  subst hhead htail
  have hstarted := (PacketSync.startable_new host u packet.header packet.tail).start
  obtain ⟨p, log, hrun, hp, hred⟩ := hstarted.recvdata
    (packet.header :: netPacketToChar host packet.encoded ++ data.getD [] ++ [packet.tail])
  have hscan := hred.scan_eq
  rw [PacketSync.pending_start, List.nil_append, hp.scan_pending, List.append_nil] at hscan
  have hdelivered : (∃ packet' bytes p log, packetData host packet data = some (packet', bytes) ∧
      recvdata host ((newPacketSync u).setPacketCB.start packet.header packet.tail) bytes =
        some (p, log) ∧ frames log = [(packet', data.getD [])]) ↔
      frames log = [(packet.encoded, data.getD [])] := by
    rw [packetData_of_length host hlen]
    constructor
    · rintro ⟨packet', bytes, p', log', heq, hrun', hframes⟩
      cases heq
      cases hrun.symm.trans hrun'
      exact hframes
    · exact fun hframes => ⟨_, _, p, log, rfl, hrun, hframes⟩
  rw [hdelivered, ← hscan, ← isTail_iff host packet.header packet.tail]
  constructor
  · intro hframes
    by_contra hno
    rw [isTail_iff, not_lt] at hno
    rw [Framing.scan_eq_nil_of_no_tail (isTail_eq_false host packet.header hno)] at hframes
    cases hframes
  · intro htail
    have hframe := Framing.reduces_frame (F := decoderFraming host packet.header packet.tail)
      (r := []) (beq_self_eq_true packet.header) (length_netPacketToChar host packet.encoded)
      (header_encoded host hlen) rfl htail
    have hbytes : packet.header :: netPacketToChar host packet.encoded ++ data.getD [] ++
        [packet.tail] = packet.header :: (netPacketToChar host packet.encoded ++
          (data.getD [] ++ packet.tail :: [])) := by
      simp
    rw [hbytes, hframe.scan_eq, Framing.scan, List.append_nil]

/-- The greatest tail byte that is accepted, around two bytes. -/
theorem packetData_delivered_iff_127 :
    (∃ packet' bytes p log,
      packetData .little ⟨3, 1, 127, Vector.replicate 16 5, 4, 2, 6⟩ (some [1, 127]) =
        some (packet', bytes) ∧
      recvdata .little ((newPacketSync default).setPacketCB.start 1 127) bytes = some (p, log) ∧
      frames log = [(packet', [1, 127])]) ↔ (127 : UInt8).toNat < 128 :=
  packetData_delivered_iff .little default 1 127 _ (some [1, 127]) rfl rfl (by decide)

/-- With the tail byte 128, a frame without payload is not delivered. -/
theorem packetData_not_delivered :
    ¬ ∀ (host : Host) (u : Indeterminate) (head tail : UInt8) (packet : NetPacket)
        (data : Option (List UInt8)), packet.header = head → packet.tail = tail →
        packet.datalen.toInt = (data.getD []).length →
        ∃ packet' bytes p log, packetData host packet data = some (packet', bytes) ∧
          recvdata host ((newPacketSync u).setPacketCB.start head tail) bytes = some (p, log) ∧
          frames log = [(packet', data.getD [])] := by
  intro hall
  let packet : NetPacket := { (default : NetPacket) with header := 1, tail := 128 }
  obtain ⟨packet', bytes, p, log, hbytes, hrun, hframes⟩ :=
    hall .little default 1 128 packet none rfl rfl (by decide)
  have heval : ((packetData .little packet none).bind fun r =>
      (recvdata .little ((newPacketSync default).setPacketCB.start 1 128) r.2).map fun q =>
        frames q.2) = some [] := by
    decide +kernel
  rw [hbytes, Option.bind_some, hrun, Option.map_some, hframes] at heval
  cases heval

end MyUvpp
