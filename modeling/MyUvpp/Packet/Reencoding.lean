import MyUvpp.Foundation.FrameSpans
import MyUvpp.Packet.Encoder

/-! # Encoding a delivered frame again

The decoder keeps every byte of a header in the fields of its `NetPacket` and looks at none of the bytes
of `check`. `PacketData` writes them back, but for a packet without payload, where it writes zeros. -/

namespace MyUvpp

/-- The bytes of a frame with the 16 bytes of `check` set to zero. -/
def clearCheck (bytes : List UInt8) : List UInt8 :=
  bytes.take 7 ++ List.replicate 16 0 ++ bytes.drop 23

/-- The header bytes of a packet whose `check` is cleared. -/
theorem netPacketToChar_clear (host : Host) (packet : NetPacket) :
    netPacketToChar host { packet with check := Vector.replicate 16 0 } =
      (netPacketToChar host packet).take 6 ++ List.replicate 16 0 ++
        (netPacketToChar host packet).drop 22 := by
  let front := int32ToChar host packet.version.toUInt32 ++ [packet.header, packet.tail]
  let back := int32ToChar host packet.type.toUInt32 ++
    (int32ToChar host packet.datalen.toUInt32 ++ int32ToChar host packet.reserve.toUInt32)
  have hfront : front.length = 6 := rfl
  have hcheck : (front ++ packet.check.toList).length = 22 := by
    rw [List.length_append, hfront, Vector.length_toList]
  have hbytes : netPacketToChar host packet = front ++ packet.check.toList ++ back := by
    simp [netPacketToChar, front, back]
  have htake : (netPacketToChar host packet).take 6 = front := by
    rw [hbytes, List.append_assoc, List.take_left' hfront]
  have hdrop : (netPacketToChar host packet).drop 22 = back := by
    rw [hbytes, List.drop_left' hcheck]
  rw [htake, hdrop]
  simp [netPacketToChar, front, back]

/-- Clearing the check bytes of a frame clears those of its header. -/
theorem clearCheck_frame (b : UInt8) {hdr : List UInt8} (hhdr : hdr.length = netPackageHeadlen)
    (s : List UInt8) :
    clearCheck (b :: (hdr ++ s)) =
      b :: (hdr.take 6 ++ List.replicate 16 0 ++ hdr.drop 22 ++ s) := by
  have hlen : hdr.length = 34 := hhdr
  unfold clearCheck
  rw [List.take_succ_cons, List.drop_succ_cons, List.take_append_of_le_length (by omega),
    List.drop_append_of_le_length (by omega)]
  simp

section Reencode

variable {host : Host} {head tail : UInt8}

/-- A byte that compares equal to `TAIL` is `TAIL`. -/
theorem eq_tail_of_isTail {t : UInt8} (ht : (decoderFraming host head tail).isTail t = true) :
    t = tail := by
  have hlt := t.toNat_lt
  simp only [decoderFraming, beq_iff_eq, charToInt] at ht
  apply UInt8.toNat_inj.mp
  split at ht <;> omega

/-- An accepted header is the packet that its bytes encode. -/
theorem accepted_header {hdr : List UInt8} {h : NetPacket} {n : ℕ}
    (hhdr : hdr.length = netPackageHeadlen)
    (hheader : (decoderFraming host head tail).header hdr = some (h, n)) :
    netPacketToChar host h = hdr ∧ h.header = head ∧ h.tail = tail ∧ h.datalen.toInt = n := by
  simp only [decoderFraming] at hheader
  split at hheader
  case isTrue => cases hheader
  case isFalse hgood =>
    simp only [Bool.or_eq_true, decide_eq_true_eq, not_or, not_not, not_lt] at hgood
    cases hheader
    refine ⟨netPacketToChar_charToNetPacket host hhdr, hgood.1.1, hgood.1.2, ?_⟩
    rw [Int.toNat_of_nonneg hgood.2]

/-- **Encoding an accepted frame.** -/
theorem packetData_of_framed {sp : Span UInt8 NetPacket} {b : UInt8} {hdr : List UInt8} {t : UInt8}
    (h : (decoderFraming host head tail).Framed sp b hdr t) :
    packetData host sp.frame.1 (some sp.frame.2) =
      some (sp.frame.1.encoded,
        if sp.frame.1.datalen = 0 then clearCheck sp.elements else sp.elements) := by
  have hlen : hdr.length = netPackageHeadlen := h.length_hdr
  have hb : b = head := beq_iff_eq.mp h.isHead
  have ht := eq_tail_of_isTail h.isTail
  obtain ⟨hbytes, hhead, htail, hdatalen⟩ := accepted_header hlen h.header
  have hlength : sp.frame.1.datalen.toInt = ((some sp.frame.2).getD []).length := hdatalen
  rw [packetData_of_length host hlength, h.elements_eq, hb, ht, hhead, htail, Option.getD_some]
  unfold NetPacket.encoded
  split
  · rw [netPacketToChar_clear, hbytes, clearCheck_frame head hlen]
    simp
  · rw [hbytes]
    simp

end Reencode

/-- **Forwarding a frame.** However a byte stream is cut into calls, the input of a started decoder is
made of the spans of the frames it has delivered, of bytes it has dropped, and of those that are still
pending; each span ends with the bytes from `HEAD` to `TAIL` of its frame, and `PacketData` writes for the
frame exactly these bytes, or, without payload, these bytes with a check of zeros. -/
theorem recvdata_reencoded (host : Host) (u : Indeterminate) (head tail : UInt8)
    (chunks : List (List UInt8)) :
    ∃ p log dropped,
      recvChunks host ((newPacketSync u).setPacketCB.start head tail) chunks = some (p, log) ∧
      frames log = ((decoderFraming host head tail).spans [] chunks.flatten).map Span.frame ∧
      chunks.flatten = ((decoderFraming host head tail).spans [] chunks.flatten).flatMap Span.covered ++
        dropped ++ p.pending ∧
      ∀ sp ∈ (decoderFraming host head tail).spans [] chunks.flatten,
        (∃ hdr, sp.elements = head :: (hdr ++ (sp.frame.2 ++ [tail])) ∧
          hdr.length = netPackageHeadlen ∧ sp.frame.1 = charToNetPacket host hdr) ∧
        (packetData host sp.frame.1 (some sp.frame.2)).map Prod.snd =
          some (if sp.frame.1.datalen = 0 then clearCheck sp.elements else sp.elements) := by
  have hstarted := (PacketSync.startable_new host u head tail).start
  obtain ⟨p, log, hrun, hsus, -, hhead, htail, hred⟩ :=
    recvChunks_spec hstarted.toSuspended hstarted.callback chunks
  have hp : p.framing host = decoderFraming host head tail := by
    rw [PacketSync.framing, hhead, htail]
    rfl
  rw [hstarted.framing_eq, PacketSync.pending_start, List.nil_append] at hred
  have hscan : (decoderFraming host head tail).scan p.pending = [] :=
    hp ▸ PacketSync.scan_pending hsus
  obtain ⟨dropped, hcover⟩ := hred.spans_append hscan []
  refine ⟨p, log, dropped, hrun, ?_, hcover, fun sp hsp => ?_⟩
  · rw [Framing.map_frame_spans, hred.scan_eq, hscan, List.append_nil]
  · obtain ⟨b, hdr, t, hframed⟩ := Framing.framed_of_mem_spans hsp
    have hlen : hdr.length = netPackageHeadlen := hframed.length_hdr
    obtain ⟨hbytes, -⟩ := accepted_header hlen hframed.header
    refine ⟨⟨hdr, ?_, hlen, ?_⟩, by rw [packetData_of_framed hframed]; rfl⟩
    · rw [hframed.elements_eq, eq_tail_of_isTail hframed.isTail, beq_iff_eq.mp hframed.isHead]
    · rw [← hbytes, charToNetPacket_netPacketToChar]

/-- A frame without payload whose check bytes are 7: `PacketData` writes for it bytes that do not occur
in the stream. -/
theorem not_recvdata_reencoded :
    ¬ ∀ (host : Host) (u : Indeterminate) (head tail : UInt8) (chunks : List (List UInt8))
        (p : PacketSync) (log : List Effect),
        recvChunks host ((newPacketSync u).setPacketCB.start head tail) chunks = some (p, log) →
        ∀ frame ∈ frames log, ∃ packet bytes,
          packetData host frame.1 (some frame.2) = some (packet, bytes) ∧ bytes <:+: chunks.flatten := by
  intro hall
  let stream : List UInt8 :=
    [1, 0, 0, 0, 0, 1, 2] ++ List.replicate 16 7 ++ List.replicate 12 0 ++ [2]
  obtain ⟨p, log, hrun, hframes⟩ : ∃ p log,
      recvChunks .little ((newPacketSync default).setPacketCB.start 1 2) [stream] = some (p, log) ∧
      frames log = [(charToNetPacket .little (stream.drop 1), [])] := by
    have heval : (recvChunks .little ((newPacketSync default).setPacketCB.start 1 2) [stream]).map
        (fun q => frames q.2) = some [(charToNetPacket .little (stream.drop 1), [])] := by
      decide +kernel
    obtain ⟨⟨p, log⟩, hrun, hframes⟩ := Option.map_eq_some_iff.mp heval
    exact ⟨p, log, hrun, hframes⟩
  obtain ⟨packet, bytes, hbytes, hoccurs⟩ := hall _ _ _ _ _ p log hrun _
    (hframes ▸ List.mem_singleton_self _)
  have heval : (packetData .little (charToNetPacket .little (stream.drop 1)) (some [])).map Prod.snd =
      some (clearCheck stream) := by
    decide +kernel
  rw [hbytes, Option.map_some, Option.some.injEq] at heval
  rw [List.flatten_singleton, show bytes = clearCheck stream from heval] at hoccurs
  exact absurd (hoccurs.eq_of_length (by decide)) (by decide)

end MyUvpp
