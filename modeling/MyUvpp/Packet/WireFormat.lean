import MyUvpp.Packet.NetBase

/-! # The header between hosts of different byte order (`net_base.h`)

`Int32ToChar` converts an integer to network byte order and then writes the bytes of the result from
the most significant one on. On a big-endian host the conversion does nothing and the wire carries the
most significant byte first; on a little-endian host it swaps the bytes, and the wire carries the least
significant byte first. `CharToInt32` undoes this on a host of the same kind. Between hosts of
different kinds one swap of each integer is left over. -/

namespace MyUvpp

/-- What a reader on `host'` makes of an integer written on `host`. -/
def transcode32 (host host' : Host) (v : UInt32) : UInt32 := ntohl host' (htonl host v)

/-- Between hosts of the same byte order a value is transmitted as it is. -/
@[simp] theorem transcode32_self (host : Host) (v : UInt32) : transcode32 host host v = v :=
  ntohl_htonl host v

/-- Between hosts of different byte order one swap is left over. -/
theorem transcode32_of_ne {host host' : Host} (hne : host ≠ host') (v : UInt32) :
    transcode32 host host' v = byteSwap32 v := by
  cases host with
  | little =>
    cases host' with
    | little => exact absurd rfl hne
    | big => rfl
  | big =>
    cases host' with
    | little => rfl
    | big => exact absurd rfl hne

/-- Two hosts read the same four bytes. -/
theorem charToInt32_host (host host' : Host) (charnum : List UInt8) :
    charToInt32 host' charnum = transcode32 host host' (charToInt32 host charnum) := by
  rw [transcode32, charToInt32, charToInt32, htonl_ntohl]

/-- Two hosts write the same integer. -/
theorem int32ToChar_host (host host' : Host) (v : UInt32) :
    int32ToChar host v = int32ToChar host' (transcode32 host host' v) := by
  rw [int32ToChar, int32ToChar, transcode32, htonl_ntohl]

namespace NetPacket

/-- Apply a function to the four integers of a header. -/
def mapInts (f : UInt32 → UInt32) (p : NetPacket) : NetPacket :=
  { p with
    version := (f p.version.toUInt32).toInt32
    type := (f p.type.toUInt32).toInt32
    datalen := (f p.datalen.toUInt32).toInt32
    reserve := (f p.reserve.toUInt32).toInt32 }

/-- Every integer of the header reads the same from both ends. -/
def ByteSymmetric (p : NetPacket) : Prop :=
  byteSwap32 p.version.toUInt32 = p.version.toUInt32 ∧ byteSwap32 p.type.toUInt32 = p.type.toUInt32 ∧
    byteSwap32 p.datalen.toUInt32 = p.datalen.toUInt32 ∧
    byteSwap32 p.reserve.toUInt32 = p.reserve.toUInt32

/-- Whether the values of a packet read the same backwards can be decided. -/
instance (p : NetPacket) : Decidable p.ByteSymmetric := inferInstanceAs (Decidable (_ ∧ _))

/-- An integer of the header is unchanged when its word is. -/
theorem toInt32_eq_iff (v : UInt32) (n : Int32) : v.toInt32 = n ↔ v = n.toUInt32 := by
  constructor
  · rintro rfl
    exact (UInt32.toUInt32_toInt32 v).symm
  · rintro rfl
    exact Int32.toInt32_toUInt32 n

/-- To leave each value as it is leaves the packet as it is. -/
theorem mapInts_id (p : NetPacket) : p.mapInts (fun v => v) = p := by
  simp only [mapInts, Int32.toInt32_toUInt32]

/-- Swapping its integers leaves exactly the symmetric headers unchanged. -/
theorem mapInts_byteSwap32_eq_iff (p : NetPacket) : p.mapInts byteSwap32 = p ↔ p.ByteSymmetric := by
  obtain ⟨version, header, tail, check, type, datalen, reserve⟩ := p
  simp only [mapInts, ByteSymmetric, mk.injEq, toInt32_eq_iff, true_and]

/-- Which headers two hosts understand in the same way. -/
theorem mapInts_transcode32_eq_iff (p : NetPacket) (host host' : Host) :
    p.mapInts (transcode32 host host') = p ↔ host = host' ∨ p.ByteSymmetric := by
  by_cases heq : host = host'
  · subst heq
    have hid : p.mapInts (transcode32 host host) = p := by
      rw [show transcode32 host host = fun v => v from funext (transcode32_self host), mapInts_id]
    exact iff_of_true hid (.inl rfl)
  · rw [show transcode32 host host' = byteSwap32 from funext (transcode32_of_ne heq),
      mapInts_byteSwap32_eq_iff, or_iff_right heq]

end NetPacket

/-- Two hosts read the same header. -/
theorem charToNetPacket_host (host host' : Host) (chardata : List UInt8) :
    charToNetPacket host' chardata =
      (charToNetPacket host chardata).mapInts (transcode32 host host') := by
  simp only [charToNetPacket, NetPacket.mapInts, UInt32.toUInt32_toInt32,
    ← charToInt32_host host host']

/-- Two hosts write the same header. -/
theorem netPacketToChar_host (host host' : Host) (p : NetPacket) :
    netPacketToChar host p = netPacketToChar host' (p.mapInts (transcode32 host host')) := by
  simp only [netPacketToChar, NetPacket.mapInts, UInt32.toUInt32_toInt32,
    ← int32ToChar_host host host']

/-- What is written on one host and read on another. -/
theorem charToNetPacket_netPacketToChar_host (host host' : Host) (p : NetPacket) :
    charToNetPacket host' (netPacketToChar host p) = p.mapInts (transcode32 host host') := by
  rw [charToNetPacket_host host host', charToNetPacket_netPacketToChar]

/-- Different headers have different bytes. -/
theorem netPacketToChar_injective (host : Host) : Function.Injective (netPacketToChar host) := by
  intro p p' heq
  rw [← charToNetPacket_netPacketToChar host p, heq, charToNetPacket_netPacketToChar]

/-- Two hosts write the same bytes exactly for the headers they understand in the same way. -/
theorem netPacketToChar_eq_iff (host host' : Host) (p : NetPacket) :
    netPacketToChar host p = netPacketToChar host' p ↔ host = host' ∨ p.ByteSymmetric := by
  rw [netPacketToChar_host host host', (netPacketToChar_injective host').eq_iff,
    NetPacket.mapInts_transcode32_eq_iff]

/-- **Where the wire format does not depend on the hosts.** A header written on one host and read on
another is the same, and the two hosts write the same bytes for it, if and only if the hosts have the
same byte order or every integer of the header reads the same from both ends. -/
theorem wireFormat_host_independent_iff (host host' : Host) (p : NetPacket) :
    (charToNetPacket host' (netPacketToChar host p) = p ∧
        netPacketToChar host p = netPacketToChar host' p) ↔
      host = host' ∨ p.ByteSymmetric := by
  rw [charToNetPacket_netPacketToChar_host, NetPacket.mapInts_transcode32_eq_iff,
    netPacketToChar_eq_iff, and_self_iff]

/-- The current version of the header, written on a little-endian host, is version 16777216 on a
big-endian one, and its first bytes are 1, 0, 0, 0 and 0, 0, 0, 1. -/
theorem wireFormat_version_differs :
    let p : NetPacket := { (default : NetPacket) with version := 1 }
    (charToNetPacket .big (netPacketToChar .little p)).version = 16777216 ∧
      (netPacketToChar .little p).take 4 = [1, 0, 0, 0] ∧
      (netPacketToChar .big p).take 4 = [0, 0, 0, 1] ∧
      ¬ (charToNetPacket .big (netPacketToChar .little p) = p ∧
        netPacketToChar .little p = netPacketToChar .big p) := by
  decide +kernel

end MyUvpp
