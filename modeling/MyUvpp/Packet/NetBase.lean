import Mathlib.Algebra.Order.Ring.Int
import Mathlib.Data.List.Basic
import Mathlib.Data.List.GetD
import Mathlib.Tactic.IntervalCases

/-! # The packet header and its codec (`net_base.h`)

The 34-byte header `NetPacket`, the 32-bit integer codec `Int32ToChar` / `CharToInt32`, and the
header codec `NetPacketToChar` / `CharToNetPacket`. The byte order of the host is a parameter:
`htonl` and `ntohl` swap bytes on a little-endian host and do nothing on a big-endian one. -/

namespace MyUvpp

/-- The byte order of the machine the code runs on (`IsLittleendian`). -/
inductive Host where
  | little
  | big
  deriving DecidableEq, Repr

/-- Reverse the four bytes of a 32-bit word. -/
def byteSwap32 (v : UInt32) : UInt32 :=
  (v <<< 24) ||| ((v &&& (0x0000ff00 : UInt32)) <<< 8) ||| ((v >>> 8) &&& (0x0000ff00 : UInt32)) |||
    (v >>> 24)

/-- `htonl`: host to network byte order. -/
def htonl (host : Host) (v : UInt32) : UInt32 :=
  match host with
  | .little => byteSwap32 v
  | .big => v

/-- `ntohl`: network to host byte order. -/
def ntohl (host : Host) (v : UInt32) : UInt32 :=
  match host with
  | .little => byteSwap32 v
  | .big => v

/-- `Int32ToChar`: the four bytes written for a 32-bit integer. -/
def int32ToChar (host : Host) (intnum : UInt32) : List UInt8 :=
  let networkByteorder := htonl host intnum
  [((networkByteorder &&& 0xff000000) >>> 24).toUInt8,
    ((networkByteorder &&& 0x00ff0000) >>> 16).toUInt8,
    ((networkByteorder &&& 0x0000ff00) >>> 8).toUInt8,
    (networkByteorder &&& 0x000000ff).toUInt8]

/-- `CharToInt32`: the 32-bit integer read from the first four bytes. The sum of the shifted bytes
is an `int` in the source; its conversion to `uint32_t` is the sum modulo `2 ^ 32` taken here. -/
def charToInt32 (host : Host) (charnum : List UInt8) : UInt32 :=
  ntohl host (((charnum.getD 0 0).toUInt32 <<< 24) + ((charnum.getD 1 0).toUInt32 <<< 16) +
    ((charnum.getD 2 0).toUInt32 <<< 8) + (charnum.getD 3 0).toUInt32)

/-- The packet header `NetPacket`, with the places of its fields in the 34 bytes. -/
structure NetPacket where
  /-- Bytes 0 to 3. -/
  version : Int32
  /-- Byte 4, the head byte of the frame. -/
  header : UInt8
  /-- Byte 5, the tail byte of the frame. -/
  tail : UInt8
  /-- Bytes 6 to 21, a checksum of the payload. -/
  check : Vector UInt8 16
  /-- Bytes 22 to 25. -/
  type : Int32
  /-- Bytes 26 to 29, the length of the payload. -/
  datalen : Int32
  /-- Bytes 30 to 33. -/
  reserve : Int32
  deriving DecidableEq, Inhabited

/-- `NET_PACKAGE_HEADLEN`: the size of the packed header. -/
def netPackageHeadlen : ℕ := 34

/-- `NetPacketToChar`: the 34 bytes of a header. -/
def netPacketToChar (host : Host) (package : NetPacket) : List UInt8 :=
  int32ToChar host package.version.toUInt32 ++ [package.header, package.tail] ++
    package.check.toList ++ int32ToChar host package.type.toUInt32 ++
    int32ToChar host package.datalen.toUInt32 ++ int32ToChar host package.reserve.toUInt32

/-- `CharToNetPacket`: the header read from 34 bytes. -/
def charToNetPacket (host : Host) (chardata : List UInt8) : NetPacket where
  version := (charToInt32 host chardata).toInt32
  header := chardata.getD 4 0
  tail := chardata.getD 5 0
  check := Vector.ofFn fun i => chardata.getD (6 + i) 0
  type := (charToInt32 host (chardata.drop 22)).toInt32
  datalen := (charToInt32 host (chardata.drop 26)).toInt32
  reserve := (charToInt32 host (chardata.drop 30)).toInt32

/-! ### The 32-bit codec -/

/-- Where the bits of a word go. -/
theorem getLsbD_byteSwap32 (v : UInt32) {i : ℕ} (hi : i < 32) :
    (byteSwap32 v).toBitVec.getLsbD i = v.toBitVec.getLsbD (8 * (3 - i / 8) + i % 8) := by
  simp only [byteSwap32, UInt32.toBitVec_or, UInt32.toBitVec_shiftLeft, UInt32.toBitVec_shiftRight,
    UInt32.toBitVec_and, UInt32.toBitVec_ofNat, BitVec.ofNat_eq_ofNat, BitVec.reduceMod,
    BitVec.shiftLeft_eq', BitVec.ushiftRight_eq', BitVec.toNat_ofNat, Nat.reducePow, Nat.reduceMod,
    BitVec.getLsbD_or, BitVec.getLsbD_and, BitVec.getLsbD_shiftLeft, BitVec.getLsbD_ushiftRight]
  interval_cases i <;> simp

/-- To swap the bytes twice changes nothing. -/
theorem byteSwap32_byteSwap32 (v : UInt32) : byteSwap32 (byteSwap32 v) = v := by
  apply UInt32.eq_of_toBitVec_eq
  apply BitVec.eq_of_getLsbD_eq
  intro i hi
  have hplace : 8 * (3 - (8 * (3 - i / 8) + i % 8) / 8) + (8 * (3 - i / 8) + i % 8) % 8 = i := by omega
  rw [getLsbD_byteSwap32 _ hi, getLsbD_byteSwap32 _ (by omega), hplace]

/-- A value comes back from the network order. -/
@[simp] theorem ntohl_htonl (host : Host) (v : UInt32) : ntohl host (htonl host v) = v := by
  cases host
  · exact byteSwap32_byteSwap32 v
  · rfl

/-- A value comes back from the host order. -/
@[simp] theorem htonl_ntohl (host : Host) (v : UInt32) : htonl host (ntohl host v) = v := by
  cases host
  · exact byteSwap32_byteSwap32 v
  · rfl

/-- The mask of the highest byte is what the conversion does anyway. -/
theorem and_shift_byte3 (n : UInt32) : ((n &&& 0xff000000) >>> 24).toUInt8 = (n >>> 24).toUInt8 := by
  apply UInt8.eq_of_toBitVec_eq
  apply BitVec.eq_of_getLsbD_eq
  intro i hi
  interval_cases i <;> simp

/-- The mask of the third byte is what the conversion does anyway. -/
theorem and_shift_byte2 (n : UInt32) : ((n &&& 0x00ff0000) >>> 16).toUInt8 = (n >>> 16).toUInt8 := by
  apply UInt8.eq_of_toBitVec_eq
  apply BitVec.eq_of_getLsbD_eq
  intro i hi
  interval_cases i <;> simp

/-- The mask of the second byte is what the conversion does anyway. -/
theorem and_shift_byte1 (n : UInt32) : ((n &&& 0x0000ff00) >>> 8).toUInt8 = (n >>> 8).toUInt8 := by
  apply UInt8.eq_of_toBitVec_eq
  apply BitVec.eq_of_getLsbD_eq
  intro i hi
  interval_cases i <;> simp

/-- The mask of the lowest byte is what the conversion does anyway. -/
theorem and_byte0 (n : UInt32) : (n &&& 0x000000ff).toUInt8 = n.toUInt8 := by
  apply UInt8.eq_of_toBitVec_eq
  apply BitVec.eq_of_getLsbD_eq
  intro i hi
  interval_cases i <;> simp

/-- The bytes written are those of the word in network byte order, from the most significant. -/
theorem int32ToChar_eq (host : Host) (v : UInt32) :
    int32ToChar host v =
      [(htonl host v >>> 24).toUInt8, (htonl host v >>> 16).toUInt8, (htonl host v >>> 8).toUInt8,
        (htonl host v).toUInt8] := by
  simp only [int32ToChar, and_shift_byte3, and_shift_byte2, and_shift_byte1, and_byte0]

/-- `Int32ToChar` writes four bytes. -/
@[simp] theorem length_int32ToChar (host : Host) (v : UInt32) : (int32ToChar host v).length = 4 :=
  rfl

/-- Adding up the shifted bytes of a word gives the word. -/
theorem sum_shifted_bytes (n : UInt32) :
    ((n >>> 24).toUInt8.toUInt32 <<< 24) + ((n >>> 16).toUInt8.toUInt32 <<< 16) +
      ((n >>> 8).toUInt8.toUInt32 <<< 8) + n.toUInt8.toUInt32 = n := by
  apply UInt32.toNat_inj.mp
  have h := n.toNat_lt
  simp [Nat.shiftRight_eq_div_pow, Nat.shiftLeft_eq]
  omega

/-- Reading back four written bytes gives the integer, whatever follows them. -/
theorem charToInt32_int32ToChar (host : Host) (v : UInt32) (s : List UInt8) :
    charToInt32 host (int32ToChar host v ++ s) = v := by
  rw [int32ToChar_eq, charToInt32]
  simp only [List.cons_append, List.getD_cons_zero, List.getD_cons_succ, sum_shifted_bytes,
    ntohl_htonl]

/-- The integer promotion of an `unsigned char`. -/
def promote (b : UInt8) : Int32 := b.toUInt32.toInt32

/-- The sum of the promoted bytes is an `int`, and its conversion to `uint32_t` is the sum that
`charToInt32` takes. -/
theorem charToInt32_eq_promoted (host : Host) (charnum : List UInt8) :
    charToInt32 host charnum =
      ntohl host ((promote (charnum.getD 0 0) <<< 24) + (promote (charnum.getD 1 0) <<< 16) +
        (promote (charnum.getD 2 0) <<< 8) + promote (charnum.getD 3 0)).toUInt32 := rfl

/-- The shifted bytes of a word are found again in their sum. -/
theorem bytes_of_sum {n : UInt32} {a b c d : UInt8}
    (hn : n = (a.toUInt32 <<< 24) + (b.toUInt32 <<< 16) + (c.toUInt32 <<< 8) + d.toUInt32) :
    (n >>> 24).toUInt8 = a ∧ (n >>> 16).toUInt8 = b ∧ (n >>> 8).toUInt8 = c ∧ n.toUInt8 = d := by
  have ha := a.toNat_lt
  have hb := b.toNat_lt
  have hc := c.toNat_lt
  have hd := d.toNat_lt
  have hval : n.toNat = a.toNat * 2 ^ 24 + b.toNat * 2 ^ 16 + c.toNat * 2 ^ 8 + d.toNat := by
    simp [hn, Nat.shiftLeft_eq]
    omega
  refine ⟨?_, ?_, ?_, ?_⟩ <;> apply UInt8.toNat_inj.mp <;>
    simp [hval, Nat.shiftRight_eq_div_pow] <;> omega

/-- Consecutive elements of a list, read with a default. -/
theorem ofFn_getD (l : List UInt8) {k n : ℕ} (hl : k + n ≤ l.length) :
    (List.ofFn fun i : Fin n => l.getD (k + i) 0) = (l.drop k).take n := by
  apply List.ext_getElem
  · simp
    omega
  · intro i h1 h2
    simp at h1
    rw [List.getElem_ofFn, List.getElem_take, List.getElem_drop, List.getD_eq_getElem?_getD,
      List.getElem?_eq_getElem (by omega), Option.getD_some]

/-- Writing an integer read from four bytes gives these bytes. -/
theorem int32ToChar_charToInt32 (host : Host) {l : List UInt8} (hl : 4 ≤ l.length) :
    int32ToChar host (charToInt32 host l) = l.take 4 := by
  have hbytes : [l.getD 0 0, l.getD 1 0, l.getD 2 0, l.getD 3 0] = l.take 4 := by
    rw [← List.drop_zero (l := l), ← ofFn_getD l (by omega)]
    rfl
  obtain ⟨h24, h16, h8, h0⟩ := bytes_of_sum (n := htonl host (charToInt32 host l))
    (htonl_ntohl host _)
  rw [int32ToChar_eq, h24, h16, h8, h0, hbytes]

/-! ### The sign of a decoded integer -/

/-- Where among its four bytes an integer has its sign. -/
def signByte : Host → ℕ
  | .little => 3
  | .big => 0

/-- The sign of a reversed word is the top bit of its lowest byte. -/
theorem byteSwap32_lt_iff (v : UInt32) : (byteSwap32 v).toNat < 2 ^ 31 ↔ v.toNat % 256 < 128 := by
  have hmsb : (byteSwap32 v).toBitVec.msb = v.toBitVec.getLsbD 7 := by
    simp [byteSwap32, BitVec.msb_eq_getLsbD_last]
  have hbit : v.toBitVec.getLsbD 7 = false ↔ v.toNat % 256 < 128 := by
    rw [BitVec.getLsbD, Nat.testBit_eq_decide_div_mod_eq]
    simp
    omega
  have h2 : (byteSwap32 v).toBitVec.msb = false ↔ 2 * (byteSwap32 v).toNat < 2 ^ 32 :=
    BitVec.msb_eq_false_iff_two_mul_lt
  rw [hmsb, hbit] at h2
  omega

/-- A word below `2 ^ 31` is a non-negative `int`. -/
theorem toInt32_nonneg_iff (v : UInt32) : 0 ≤ v.toInt32.toInt ↔ v.toNat < 2 ^ 31 := by
  have h : v.toInt32.toInt < 0 ↔ 2 ^ 32 ≤ 2 * v.toNat := BitVec.toInt_neg_iff
  omega

/-- The sign of a decoded integer is in one of its bytes. -/
theorem charToInt32_nonneg_iff (host : Host) (l : List UInt8) :
    0 ≤ (charToInt32 host l).toInt32.toInt ↔ (l.getD (signByte host) 0).toNat < 128 := by
  rw [toInt32_nonneg_iff, charToInt32]
  have h0 := (l.getD 0 0).toNat_lt
  have h1 := (l.getD 1 0).toNat_lt
  have h2 := (l.getD 2 0).toNat_lt
  have h3 := (l.getD 3 0).toNat_lt
  have hsum : (((l.getD 0 0).toUInt32 <<< 24) + ((l.getD 1 0).toUInt32 <<< 16) +
      ((l.getD 2 0).toUInt32 <<< 8) + (l.getD 3 0).toUInt32).toNat =
      (l.getD 0 0).toNat * 2 ^ 24 + (l.getD 1 0).toNat * 2 ^ 16 + (l.getD 2 0).toNat * 2 ^ 8 +
        (l.getD 3 0).toNat := by
    simp [Nat.shiftLeft_eq, -List.getD_eq_getElem?_getD]
    omega
  cases host with
  | little =>
    rw [ntohl, byteSwap32_lt_iff, hsum, signByte]
    omega
  | big =>
    rw [ntohl, hsum, signByte]
    omega

/-! ### The header codec -/

/-- `NetPacketToChar` writes 34 bytes. -/
@[simp] theorem length_netPacketToChar (host : Host) (p : NetPacket) :
    (netPacketToChar host p).length = netPackageHeadlen := by
  simp [netPacketToChar, netPackageHeadlen]

/-- The header bytes, grouped from the right so that each field is followed by the later ones. -/
theorem netPacketToChar_eq (host : Host) (p : NetPacket) :
    netPacketToChar host p =
      int32ToChar host p.version.toUInt32 ++ (p.header :: p.tail :: (p.check.toList ++
        (int32ToChar host p.type.toUInt32 ++ (int32ToChar host p.datalen.toUInt32 ++
          int32ToChar host p.reserve.toUInt32)))) := by
  simp [netPacketToChar]

/-- Dropping a written 32-bit integer and `k` more bytes drops `k` bytes of what follows it. -/
theorem drop_int32ToChar (host : Host) (v : UInt32) (s : List UInt8) (k : ℕ) :
    (int32ToChar host v ++ s).drop (4 + k) = s.drop k := by
  rw [← List.drop_drop, List.drop_left' (length_int32ToChar host v)]

/-- The byte `4 + k` behind a written 32-bit integer is byte `k` of what follows it. -/
theorem getD_int32ToChar (host : Host) (v : UInt32) (s : List UInt8) (k : ℕ) :
    (int32ToChar host v ++ s).getD (4 + k) 0 = s.getD k 0 := by
  rw [List.getD_append_right _ _ _ _ (by rw [length_int32ToChar]; omega), length_int32ToChar,
    Nat.add_sub_cancel_left]

/-- Reading back a written header on the same host gives the header. -/
theorem charToNetPacket_netPacketToChar (host : Host) (p : NetPacket) :
    charToNetPacket host (netPacketToChar host p) = p := by
  have hcheck : p.check.toList.length = 16 := by simp
  have h22 : (netPacketToChar host p).drop 22 =
      int32ToChar host p.type.toUInt32 ++ (int32ToChar host p.datalen.toUInt32 ++
        int32ToChar host p.reserve.toUInt32) := by
    rw [netPacketToChar_eq, drop_int32ToChar host _ _ 18]
    simp only [List.drop_succ_cons]
    exact List.drop_left' hcheck
  have h26 : (netPacketToChar host p).drop 26 =
      int32ToChar host p.datalen.toUInt32 ++ int32ToChar host p.reserve.toUInt32 := by
    rw [← List.drop_drop (i := 4) (j := 22), h22, drop_int32ToChar host _ _ 0, List.drop_zero]
  have h30 : (netPacketToChar host p).drop 30 = int32ToChar host p.reserve.toUInt32 ++ [] := by
    rw [← List.drop_drop (i := 4) (j := 26), h26, drop_int32ToChar host _ _ 0, List.drop_zero,
      List.append_nil]
  have hversion : charToInt32 host (netPacketToChar host p) = p.version.toUInt32 := by
    rw [netPacketToChar_eq, charToInt32_int32ToChar]
  have hheader : (netPacketToChar host p).getD 4 0 = p.header := by
    rw [netPacketToChar_eq, getD_int32ToChar host _ _ 0, List.getD_cons_zero]
  have htail : (netPacketToChar host p).getD 5 0 = p.tail := by
    rw [netPacketToChar_eq, getD_int32ToChar host _ _ 1, List.getD_cons_succ, List.getD_cons_zero]
  have hbytes : ∀ i : Fin 16, (netPacketToChar host p).getD (6 + i) 0 = p.check[i] := by
    intro i
    rw [netPacketToChar_eq, show 6 + (i : ℕ) = 4 + (i + 2) by omega, getD_int32ToChar,
      List.getD_cons_succ, List.getD_cons_succ,
      List.getD_append _ _ _ _ (by rw [hcheck]; exact i.isLt)]
    simp [List.getD_eq_getElem?_getD]
  have hvec : (Vector.ofFn fun i : Fin 16 => (netPacketToChar host p).getD (6 + i) 0) = p.check := by
    apply Vector.ext
    intro i hi
    rw [Vector.getElem_ofFn]
    exact hbytes ⟨i, hi⟩
  simp only [charToNetPacket, hversion, hheader, htail, hvec, h22, h26, h30,
    charToInt32_int32ToChar, Int32.toInt32_toUInt32]

/-- Writing a header read from its bytes gives these bytes. -/
theorem netPacketToChar_charToNetPacket (host : Host) {b : List UInt8}
    (hb : b.length = netPackageHeadlen) : netPacketToChar host (charToNetPacket host b) = b := by
  have hlen : b.length = 34 := hb
  have hbytes : [b.getD 4 0, b.getD 5 0] = (b.drop 4).take 2 := by
    rw [← ofFn_getD b (by omega)]
    rfl
  have hcheck : (Vector.ofFn fun i : Fin 16 => b.getD (6 + i) 0).toList = (b.drop 6).take 16 := by
    rw [← ofFn_getD b (by omega), Vector.toList_ofFn]
  simp only [netPacketToChar, charToNetPacket, UInt32.toUInt32_toInt32, hbytes, hcheck]
  rw [int32ToChar_charToInt32 host (by omega), int32ToChar_charToInt32 host (by simp; omega),
    int32ToChar_charToInt32 host (by simp; omega), int32ToChar_charToInt32 host (by simp; omega)]
  rw [← List.take_add, ← List.take_add, ← List.take_add, ← List.take_add, ← List.take_add,
    List.take_of_length_le (by omega)]

/-- **The header codec is a bijection.** On a host of either byte order every header is read back from
its bytes, and every 34 bytes are written back from their header, so that different headers have
different bytes. -/
theorem netPacket_codec_bijective (host : Host) :
    (∀ p : NetPacket, charToNetPacket host (netPacketToChar host p) = p) ∧
      (∀ b : Vector UInt8 netPackageHeadlen,
        netPacketToChar host (charToNetPacket host b.toList) = b.toList) ∧
      ∀ p p' : NetPacket, netPacketToChar host p = netPacketToChar host p' → p = p' := by
  refine ⟨charToNetPacket_netPacketToChar host, fun b => ?_, fun p p' heq => ?_⟩
  · exact netPacketToChar_charToNetPacket host b.length_toList
  · rw [← charToNetPacket_netPacketToChar host p, heq, charToNetPacket_netPacketToChar]

end MyUvpp
