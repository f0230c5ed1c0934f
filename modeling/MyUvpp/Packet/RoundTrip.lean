import MyUvpp.Packet.Encoder
import MyUvpp.Packet.PacketSyncOverflow

/-! # Encoding and decoding

What `PacketData` writes, `recvdata` delivers: in order, with every field and the whole payload, with
noise between the frames and however the stream is cut. The headers of the frames are the only ones
the decoder accepts on the way, so that a payload may contain head and tail bytes anywhere. -/

namespace MyUvpp

/-- A packet that a peer sends with its payload, and the noise that follows it on the wire. `data`
is `none` for a null pointer, which only a packet without payload can have. -/
structure Message (head tail : UInt8) where
  packet : NetPacket
  data : Option (List UInt8)
  noise : List UInt8
  header_eq : packet.header = head
  tail_eq : packet.tail = tail
  datalen_eq : packet.datalen.toInt = (data.getD []).length
  datalen_lt : (data.getD []).length < 2 ^ 30
  noise_free : head ∉ noise

namespace Message

variable {head tail : UInt8} (host : Host) (m : Message head tail)

/-- What `PacketData` returns for the message, and the noise behind it. -/
def bytes : List UInt8 :=
  ((packetData host m.packet m.data).map Prod.snd).getD [] ++ m.noise

variable {host m}

/-- `PacketData` encodes the message. -/
theorem packetData_eq :
    packetData host m.packet m.data =
      some (m.packet.encoded, m.packet.header :: netPacketToChar host m.packet.encoded ++ m.data.getD [] ++
        [m.packet.tail]) :=
  packetData_of_length host m.datalen_eq

/-- The bytes of a message, part by part. -/
theorem bytes_append (s : List UInt8) :
    m.bytes host ++ s =
      head :: (netPacketToChar host m.packet.encoded ++ (m.data.getD [] ++ tail :: (m.noise ++ s))) := by
  rw [bytes, packetData_eq, Option.map_some, Option.getD_some, m.header_eq, m.tail_eq]
  simp only [List.cons_append, List.append_assoc, List.nil_append]

/-! ### A message on the wire -/

/-- The decoder accepts the header of a message. -/
theorem header_netPacketToChar :
    (decoderFraming host head tail).header (netPacketToChar host m.packet.encoded) =
      some (m.packet.encoded, (m.data.getD []).length) := by
  have hheader := header_encoded host m.datalen_eq
  rwa [m.header_eq, m.tail_eq] at hheader

/-- Noise starts no frame. -/
theorem isHead_noise {noise : List UInt8} (hnoise : head ∉ noise) :
    ∀ b ∈ noise, (decoderFraming host head tail).isHead b = false := by
  intro b hb
  show (b == head) = false
  rw [beq_eq_false_iff_ne]
  rintro rfl
  exact hnoise hb

/-- A message is scanned as its one frame. -/
theorem reduces_bytes (hlt : tail.toNat < 128) (s : List UInt8) :
    (decoderFraming host head tail).Reduces (m.bytes host ++ s) [(m.packet.encoded, m.data.getD [])] s := by
  have hframe := Framing.reduces_frame (F := decoderFraming host head tail) (b := head) (t := tail)
    (r := m.noise ++ s) (beq_self_eq_true head) (length_netPacketToChar host m.packet.encoded)
    (header_netPacketToChar) rfl (isTail_self host head hlt)
  rw [bytes_append]
  exact hframe.trans (.skip_append (isHead_noise m.noise_free))

/-- The only header accepted in a message is its own. -/
theorem accepted_bytes (hlt : tail.toNat < 128) (s : List UInt8) :
    (decoderFraming host head tail).accepted (m.bytes host ++ s) =
      (m.packet.encoded, (m.data.getD []).length) :: (decoderFraming host head tail).accepted s := by
  rw [bytes_append, Framing.accepted_frame (F := decoderFraming host head tail)
    (beq_self_eq_true head) (length_netPacketToChar host m.packet.encoded) (header_netPacketToChar) rfl
    (isTail_self host head hlt), Framing.accepted_skip_append (isHead_noise m.noise_free)]

end Message

/-! ### A stream of messages -/

section Stream

variable {host : Host} {head tail : UInt8}

/-- The stream of a list of messages. -/
def messageBytes (host : Host) (messages : List (Message head tail)) : List UInt8 :=
  messages.flatMap (Message.bytes host)

/-- The frames that are to be delivered for a list of messages. -/
def messageFrames (messages : List (Message head tail)) : List (NetPacket × List UInt8) :=
  messages.map fun m => (m.packet.encoded, m.data.getD [])

/-- A stream of messages is scanned as their frames. -/
theorem reduces_messageBytes (hlt : tail.toNat < 128) (messages : List (Message head tail)) :
    (decoderFraming host head tail).Reduces (messageBytes host messages) (messageFrames messages)
      [] := by
  induction messages with
  | nil => exact .refl _
  | cons m messages ih =>
    rw [messageBytes, List.flatMap_cons]
    exact (Message.reduces_bytes hlt _).trans ih

/-- The headers accepted in a stream of messages are theirs. -/
theorem accepted_messageBytes (hlt : tail.toNat < 128) (messages : List (Message head tail)) :
    (decoderFraming host head tail).accepted (messageBytes host messages) =
      messages.map fun m => (m.packet.encoded, (m.data.getD []).length) := by
  induction messages with
  | nil =>
    rw [messageBytes, List.flatMap_nil, Framing.accepted]
    rfl
  | cons m messages ih =>
    rw [messageBytes, List.flatMap_cons, Message.accepted_bytes hlt]
    exact congrArg _ ih

end Stream

/-- **Framing round trip.** Noise and encoded messages, cut anywhere into chunks as the receive buffer
allows: a started decoder ends every call without overflow and delivers exactly the messages, in
order, with their fields and payloads. -/
theorem recvdata_packetData (host : Host) (u : Indeterminate) (head tail : UInt8)
    (htail : tail.toNat < 128) (noise : List UInt8) (hnoise : head ∉ noise)
    (messages : List (Message head tail)) (chunks : List (List UInt8))
    (hchunks : ∀ data ∈ chunks, 0 < data.length ∧ (data.length : ℤ) ≤ bufferSize)
    (hcut : chunks.flatten = noise ++ messageBytes host messages) :
    ∃ p log, recvChunks host ((newPacketSync u).setPacketCB.start head tail) chunks = some (p, log) ∧
      frames log = messageFrames messages ∧ SafeLog log := by
  have hsus := PacketSync.suspended_start host u head tail
  have hF : ((newPacketSync u).setPacketCB.start head tail).framing host =
      decoderFraming host head tail := rfl
  have hskip : (decoderFraming host head tail).Reduces (noise ++ messageBytes host messages) []
      (messageBytes host messages) :=
    .skip_append (Message.isHead_noise hnoise)
  have hbuffer : bufferSize ≤ intMax := by decide
  obtain ⟨p, log, hrun, -, -, -, hframes⟩ := recvChunks_scan hsus rfl chunks
  rw [PacketSync.pending_start, List.nil_append, hcut, hF] at hframes
  have hlimit := recvChunksLimited_of_accepted hsus rfl chunks (fun d hd => (hchunks d hd).2) (by
    intro c hc
    rw [PacketSync.pending_start, List.nil_append, hcut, hF,
      Framing.accepted_skip_append (Message.isHead_noise hnoise), accepted_messageBytes htail] at hc
    obtain ⟨m, -, rfl⟩ := List.mem_map.mp hc
    have hlt := m.datalen_lt
    have hbound : (2 : ℤ) ^ 30 ≤ payloadBound := by decide
    simp only
    omega)
  refine ⟨p, log, hrun, ?_, recvChunks_safe hsus rfl (PacketSync.sized_start u head tail) chunks
    (fun d hd => le_trans (hchunks d hd).2 hbuffer) hlimit hrun⟩
  rw [hframes, (hskip.trans (reduces_messageBytes htail messages)).scan_eq, Framing.scan]
  simp

/-- A payload of head and tail bytes, between noise. -/
def headTailMessage : Message 1 2 where
  packet := ⟨3, 1, 2, Vector.replicate 16 5, 4, 3, 6⟩
  data := some [1, 2, 1]
  noise := [2, 9]
  header_eq := rfl
  tail_eq := rfl
  datalen_eq := by decide
  datalen_lt := by decide
  noise_free := by decide

/-- The message, cut inside its header and inside its payload. -/
theorem recvdata_packetData_headTail :
    ∃ p log, recvChunks .little ((newPacketSync default).setPacketCB.start 1 2)
        [[8, 1, 3, 0, 0], [0, 1, 2] ++ List.replicate 16 5 ++ [4, 0, 0, 0, 3, 0, 0, 0, 6, 0, 0, 0, 1],
          [2, 1, 2, 2, 9]] = some (p, log) ∧
      frames log = [(headTailMessage.packet.encoded, [1, 2, 1])] ∧ SafeLog log :=
  recvdata_packetData .little default 1 2 (by decide) [8] (by decide) [headTailMessage] _ (by decide)
    (by decide +kernel)

end MyUvpp
