import MyUvpp.Packet.NetBase

/-! # The 64-bit codec (`net_base.h`)

`Int64ToChar` writes the eight bytes of a `uint64_t` in network byte order, and `CharToInt64` adds up
the shifted bytes that it reads. It casts the first four of them to `uint64_t` and leaves the others to
the integer promotions: `unsigned char` becomes a 32-bit `int`, whose sign is extended when the sum is
formed. -/

namespace MyUvpp

/-- The compile-time branches of `Phata::htonll` and `Phata::ntohll`. -/
inductive ByteSwapBranch where
  /-- `_byteswap_uint64`. -/
  | win32
  /-- `__builtin_bswap64`. -/
  | linux
  /-- The two halves with `htonl`. -/
  | other
  deriving DecidableEq, Repr

/-- Reverse the eight bytes of a 64-bit word, as `_byteswap_uint64` and `__builtin_bswap64` do. -/
def byteSwap64 (v : UInt64) : UInt64 :=
  (v <<< 56) ||| ((v &&& (0xff00 : UInt64)) <<< 40) ||| ((v &&& (0xff0000 : UInt64)) <<< 24) |||
    ((v &&& (0xff000000 : UInt64)) <<< 8) ||| ((v >>> 8) &&& (0xff000000 : UInt64)) |||
    ((v >>> 24) &&& (0xff0000 : UInt64)) ||| ((v >>> 40) &&& (0xff00 : UInt64)) ||| (v >>> 56)

/-- `Phata::htonll`, in the branch that the compiler has taken. -/
def htonll (branch : ByteSwapBranch) (host : Host) (num : UInt64) : UInt64 :=
  match host with
  | .little =>
    match branch with
    | .win32 | .linux => byteSwap64 num
    | .other =>
      ((htonl .little (num &&& 0x00000000ffffffff).toUInt32).toUInt64 <<< 32) |||
        (htonl .little ((num &&& 0xffffffff00000000) >>> 32).toUInt32).toUInt64
  | .big => num

/-- `Phata::ntohll`, in the branch that the compiler has taken. -/
def ntohll (branch : ByteSwapBranch) (host : Host) (num : UInt64) : UInt64 :=
  match host with
  | .little =>
    match branch with
    | .win32 | .linux => byteSwap64 num
    | .other =>
      ((ntohl .little (num &&& 0x00000000ffffffff).toUInt32).toUInt64 <<< 32) |||
        (ntohl .little ((num &&& 0xffffffff00000000) >>> 32).toUInt32).toUInt64
  | .big => num

/-- `Int64ToChar`: the eight bytes written for a 64-bit integer. -/
def int64ToChar (branch : ByteSwapBranch) (host : Host) (intnum : UInt64) : List UInt8 :=
  let networkByteorder := htonll branch host intnum
  [((networkByteorder &&& 0xff00000000000000) >>> 56).toUInt8,
    ((networkByteorder &&& 0x00ff000000000000) >>> 48).toUInt8,
    ((networkByteorder &&& 0x0000ff0000000000) >>> 40).toUInt8,
    ((networkByteorder &&& 0x000000ff00000000) >>> 32).toUInt8,
    ((networkByteorder &&& 0x00000000ff000000) >>> 24).toUInt8,
    ((networkByteorder &&& 0x0000000000ff0000) >>> 16).toUInt8,
    ((networkByteorder &&& 0x000000000000ff00) >>> 8).toUInt8,
    (networkByteorder &&& 0x00000000000000ff).toUInt8]

/-- The conversion of an `int` to `uint64_t`. -/
def intToUInt64 (i : Int32) : UInt64 := i.toInt64.toUInt64

/-- The sum in `CharToInt64`, with the promotions to `int` of the lower bytes. -/
def charSum64 (charnum : List UInt8) : UInt64 :=
  ((charnum.getD 0 0).toUInt64 <<< 56) + ((charnum.getD 1 0).toUInt64 <<< 48) +
    ((charnum.getD 2 0).toUInt64 <<< 40) + ((charnum.getD 3 0).toUInt64 <<< 32) +
    intToUInt64 (promote (charnum.getD 4 0) <<< 24) + intToUInt64 (promote (charnum.getD 5 0) <<< 16) +
    intToUInt64 (promote (charnum.getD 6 0) <<< 8) + intToUInt64 (promote (charnum.getD 7 0))

/-- `CharToInt64`: the 64-bit integer read from the first eight bytes. -/
def charToInt64 (branch : ByteSwapBranch) (host : Host) (charnum : List UInt8) : UInt64 :=
  ntohll branch host (charSum64 charnum)

/-! ### Byte order -/

/-- Where the bits of a word go. -/
theorem getLsbD_byteSwap64 (v : UInt64) {i : ℕ} (hi : i < 64) :
    (byteSwap64 v).toBitVec.getLsbD i = v.toBitVec.getLsbD (8 * (7 - i / 8) + i % 8) := by
  simp only [byteSwap64, UInt64.toBitVec_or, UInt64.toBitVec_shiftLeft, UInt64.toBitVec_shiftRight,
    UInt64.toBitVec_and, UInt64.toBitVec_ofNat, BitVec.ofNat_eq_ofNat, BitVec.reduceMod,
    BitVec.shiftLeft_eq', BitVec.ushiftRight_eq', BitVec.toNat_ofNat, Nat.reducePow, Nat.reduceMod,
    BitVec.getLsbD_or, BitVec.getLsbD_and, BitVec.getLsbD_shiftLeft, BitVec.getLsbD_ushiftRight]
  interval_cases i <;> simp

/-- To swap the bytes twice changes nothing. -/
theorem byteSwap64_byteSwap64 (v : UInt64) : byteSwap64 (byteSwap64 v) = v := by
  apply UInt64.eq_of_toBitVec_eq
  apply BitVec.eq_of_getLsbD_eq
  intro i hi
  have hplace : 8 * (7 - (8 * (7 - i / 8) + i % 8) / 8) + (8 * (7 - i / 8) + i % 8) % 8 = i := by omega
  rw [getLsbD_byteSwap64 _ hi, getLsbD_byteSwap64 _ (by omega), hplace]

/-! The halves of a word. -/

/-- The mask of the low half is what the conversion to 32 bits does anyway. -/
theorem low_half (v : UInt64) : (v &&& 0x00000000ffffffff).toUInt32 = v.toUInt32 := by
  rw [UInt64.toUInt32_and]
  exact UInt32.and_neg_one

/-- So is that of the high half, behind the shift. -/
theorem high_half (v : UInt64) : ((v &&& 0xffffffff00000000) >>> 32).toUInt32 = (v >>> 32).toUInt32 := by
  have hmask : (0xffffffff00000000 : UInt64) >>> 32 = 0xffffffff := rfl
  rw [UInt64.shiftRight_and, hmask, low_half]

/-- The bits of the low half are the first 32. -/
theorem getLsbD_low_half (v : UInt64) {i : ℕ} (hi : i < 32) :
    v.toUInt32.toBitVec.getLsbD i = v.toBitVec.getLsbD i := by
  simp [hi]

/-- The bits of the high half are the last 32. -/
theorem getLsbD_high_half (v : UInt64) {i : ℕ} (hi : i < 32) :
    (v >>> 32).toUInt32.toBitVec.getLsbD i = v.toBitVec.getLsbD (32 + i) := by
  simp [hi]

/-- A word is put together from two halves. -/
theorem getLsbD_halves (high low : UInt32) {i : ℕ} (hi : i < 64) :
    ((high.toUInt64 <<< 32) ||| low.toUInt64).toBitVec.getLsbD i =
      if i < 32 then low.toBitVec.getLsbD i else high.toBitVec.getLsbD (i - 32) := by
  split_ifs with hlow
  · simp [hi, hlow]
  · have hnone : low.toBitVec.getLsbD i = false := BitVec.getLsbD_of_ge _ _ (not_lt.mp hlow)
    simp [hi, hlow, hnone]

/-- The two halves, swapped and exchanged, are the reversed word. -/
theorem halves_eq_byteSwap64 (v : UInt64) :
    ((byteSwap32 (v &&& 0x00000000ffffffff).toUInt32).toUInt64 <<< 32) |||
      (byteSwap32 ((v &&& 0xffffffff00000000) >>> 32).toUInt32).toUInt64 = byteSwap64 v := by
  rw [low_half, high_half]
  apply UInt64.eq_of_toBitVec_eq
  apply BitVec.eq_of_getLsbD_eq
  intro i hi
  rw [getLsbD_byteSwap64 _ hi, getLsbD_halves _ _ hi]
  split_ifs with hlow
  · have hplace : 32 + (8 * (3 - i / 8) + i % 8) = 8 * (7 - i / 8) + i % 8 := by omega
    rw [getLsbD_byteSwap32 _ hlow, getLsbD_high_half _ (by omega), hplace]
  · have hplace : 8 * (3 - (i - 32) / 8) + (i - 32) % 8 = 8 * (7 - i / 8) + i % 8 := by omega
    rw [getLsbD_byteSwap32 _ (by omega), getLsbD_low_half _ (by omega), hplace]

/-- Every branch does the same. -/
theorem htonll_eq (branch : ByteSwapBranch) (host : Host) (v : UInt64) :
    htonll branch host v = match host with
      | .little => byteSwap64 v
      | .big => v := by
  cases host with
  | little =>
    cases branch with
    | win32 | linux => rfl
    | other => exact halves_eq_byteSwap64 v
  | big => rfl

/-- Both directions are the same function, by whichever branch they are compiled. -/
theorem ntohll_eq_htonll (branch branch' : ByteSwapBranch) (host : Host) (v : UInt64) :
    ntohll branch host v = htonll branch' host v := by
  have hsame : ntohll branch host v = htonll branch host v := by
    cases host <;> cases branch <;> rfl
  rw [hsame, htonll_eq, htonll_eq]

/-- A value comes back from the network order, by whichever branches. -/
@[simp] theorem ntohll_htonll (branch branch' : ByteSwapBranch) (host : Host) (v : UInt64) :
    ntohll branch host (htonll branch' host v) = v := by
  rw [ntohll_eq_htonll branch branch', htonll_eq, htonll_eq]
  cases host with
  | little => exact byteSwap64_byteSwap64 v
  | big => rfl

/-- A value comes back from the host order, by whichever branches. -/
@[simp] theorem htonll_ntohll (branch branch' : ByteSwapBranch) (host : Host) (v : UInt64) :
    htonll branch host (ntohll branch' host v) = v := by
  rw [ntohll_eq_htonll branch' branch, ← ntohll_eq_htonll branch branch, ntohll_htonll]

/-! ### Promotion -/

/-- A negative `int` wraps around. -/
theorem toNat_intToUInt64 (i : Int32) :
    (intToUInt64 i).toNat =
      i.toUInt32.toNat + if 2 ^ 31 ≤ i.toUInt32.toNat then 2 ^ 64 - 2 ^ 32 else 0 := by
  have hlt := i.toUInt32.toNat_lt
  have hmsb : i.toBitVec.msb = decide (2 ^ 31 ≤ i.toUInt32.toNat) := by
    rw [BitVec.msb_eq_decide]
    rfl
  have hext : (intToUInt64 i).toNat = (i.toBitVec.signExtend 64).toNat := rfl
  have hwidth : (i.toBitVec.setWidth 64).toNat = i.toUInt32.toNat := by
    rw [BitVec.toNat_setWidth]
    exact Nat.mod_eq_of_lt (by omega)
  rw [hext, BitVec.toNat_signExtend, hmsb, hwidth]
  simp only [decide_eq_true_eq]

/-- A byte that is shifted by less than 24 is a non-negative `int`. -/
theorem toNat_intToUInt64_of_lt {i : Int32} (h : i.toUInt32.toNat < 2 ^ 31) :
    (intToUInt64 i).toNat = i.toUInt32.toNat := by
  rw [toNat_intToUInt64, if_neg (by omega), add_zero]

/-- The value of eight bytes, from the most significant one. -/
def bytesValue (l : List UInt8) : ℕ :=
  (l.getD 0 0).toNat * 2 ^ 56 + (l.getD 1 0).toNat * 2 ^ 48 + (l.getD 2 0).toNat * 2 ^ 40 +
    (l.getD 3 0).toNat * 2 ^ 32 + (l.getD 4 0).toNat * 2 ^ 24 + (l.getD 5 0).toNat * 2 ^ 16 +
    (l.getD 6 0).toNat * 2 ^ 8 + (l.getD 7 0).toNat

/-- The sum falls short by 2^32 if the fifth byte, promoted and shifted, is negative. -/
theorem toNat_charSum64 (l : List UInt8) :
    (charSum64 l).toNat =
      (bytesValue l + if 128 ≤ (l.getD 4 0).toNat then 2 ^ 64 - 2 ^ 32 else 0) % 2 ^ 64 := by
  have h4 := (l.getD 4 0).toNat_lt
  have h5 := (l.getD 5 0).toNat_lt
  have h6 := (l.getD 6 0).toNat_lt
  have h7 := (l.getD 7 0).toNat_lt
  have hbits : ∀ b : UInt8, (promote b).toUInt32.toNat = b.toNat ∧
      (promote b <<< 8).toUInt32.toNat = b.toNat * 2 ^ 8 ∧
      (promote b <<< 16).toUInt32.toNat = b.toNat * 2 ^ 16 ∧
      (promote b <<< 24).toUInt32.toNat = b.toNat * 2 ^ 24 := by
    intro b
    have hb := b.toNat_lt
    have h8 : (promote b <<< 8).toUInt32 = b.toUInt32 <<< 8 := rfl
    have h16 : (promote b <<< 16).toUInt32 = b.toUInt32 <<< 16 := rfl
    have h24 : (promote b <<< 24).toUInt32 = b.toUInt32 <<< 24 := rfl
    refine ⟨rfl, ?_, ?_, ?_⟩
    · simp [h8, Nat.shiftLeft_eq]
      omega
    · simp [h16, Nat.shiftLeft_eq]
      omega
    · simp [h24, Nat.shiftLeft_eq]
      omega
  have hfourth : (intToUInt64 (promote (l.getD 4 0) <<< 24)).toNat = (l.getD 4 0).toNat * 2 ^ 24 +
      if 128 ≤ (l.getD 4 0).toNat then 2 ^ 64 - 2 ^ 32 else 0 := by
    have hsign : 2 ^ 31 ≤ (l.getD 4 0).toNat * 2 ^ 24 ↔ 128 ≤ (l.getD 4 0).toNat := by omega
    simp only [toNat_intToUInt64, (hbits _).2.2.2, hsign]
  have hfifth : (intToUInt64 (promote (l.getD 5 0) <<< 16)).toNat = (l.getD 5 0).toNat * 2 ^ 16 := by
    rw [toNat_intToUInt64_of_lt, (hbits _).2.2.1]
    rw [(hbits _).2.2.1]
    omega
  have hsixth : (intToUInt64 (promote (l.getD 6 0) <<< 8)).toNat = (l.getD 6 0).toNat * 2 ^ 8 := by
    rw [toNat_intToUInt64_of_lt, (hbits _).2.1]
    rw [(hbits _).2.1]
    omega
  have hseventh : (intToUInt64 (promote (l.getD 7 0))).toNat = (l.getD 7 0).toNat := by
    rw [toNat_intToUInt64_of_lt, (hbits _).1]
    rw [(hbits _).1]
    omega
  simp only [charSum64, UInt64.toNat_add, hfourth, hfifth, hsixth, hseventh, bytesValue]
  simp [Nat.shiftLeft_eq, -List.getD_eq_getElem?_getD]
  omega

/-- The value of eight bytes fits into 64 bits. -/
theorem bytesValue_lt (l : List UInt8) : bytesValue l < 2 ^ 64 := by
  have h0 := (l.getD 0 0).toNat_lt
  have h1 := (l.getD 1 0).toNat_lt
  have h2 := (l.getD 2 0).toNat_lt
  have h3 := (l.getD 3 0).toNat_lt
  have h4 := (l.getD 4 0).toNat_lt
  have h5 := (l.getD 5 0).toNat_lt
  have h6 := (l.getD 6 0).toNat_lt
  have h7 := (l.getD 7 0).toNat_lt
  rw [bytesValue]
  omega

/-- The sum is the value of the bytes exactly where nothing is negative. -/
theorem toNat_charSum64_eq_iff (l : List UInt8) :
    (charSum64 l).toNat = bytesValue l ↔ (l.getD 4 0).toNat < 128 := by
  have hlt := bytesValue_lt l
  rw [toNat_charSum64]
  split <;> omega

/-! ### The bytes of a word -/

/-- Masking a byte before it is shifted down changes nothing. -/
theorem and_shift_byte {n m k : UInt64} (h : m >>> k = 0xff) :
    ((n &&& m) >>> k).toUInt8 = (n >>> k).toUInt8 := by
  rw [UInt64.shiftRight_and, h, UInt64.toUInt8_and]
  exact UInt8.and_neg_one

/-- The bytes written are those of the word in network byte order. -/
theorem int64ToChar_eq (branch : ByteSwapBranch) (host : Host) (v : UInt64) :
    int64ToChar branch host v =
      [(htonll branch host v >>> 56).toUInt8, (htonll branch host v >>> 48).toUInt8,
        (htonll branch host v >>> 40).toUInt8, (htonll branch host v >>> 32).toUInt8,
        (htonll branch host v >>> 24).toUInt8, (htonll branch host v >>> 16).toUInt8,
        (htonll branch host v >>> 8).toUInt8, (htonll branch host v).toUInt8] := by
  have hlast : (htonll branch host v &&& 0x00000000000000ff).toUInt8 =
      (htonll branch host v).toUInt8 := by
    rw [UInt64.toUInt8_and]
    exact UInt8.and_neg_one
  rw [int64ToChar, hlast, and_shift_byte (k := 56) rfl, and_shift_byte (k := 48) rfl,
    and_shift_byte (k := 40) rfl, and_shift_byte (k := 32) rfl, and_shift_byte (k := 24) rfl,
    and_shift_byte (k := 16) rfl, and_shift_byte (k := 8) rfl]

/-- The bytes written have the value of the word. -/
theorem bytesValue_int64ToChar (branch : ByteSwapBranch) (host : Host) (v : UInt64) :
    bytesValue (int64ToChar branch host v) = (htonll branch host v).toNat := by
  have h := (htonll branch host v).toNat_lt
  rw [int64ToChar_eq, bytesValue]
  simp only [List.getD_cons_zero, List.getD_cons_succ]
  simp [Nat.shiftRight_eq_div_pow]
  omega

/-- The bytes of a word that has the value of eight bytes are these bytes. -/
theorem bytes_of_value {n : UInt64} {l : List UInt8} (hl : l.length = 8)
    (hn : n.toNat = bytesValue l) :
    [(n >>> 56).toUInt8, (n >>> 48).toUInt8, (n >>> 40).toUInt8, (n >>> 32).toUInt8,
      (n >>> 24).toUInt8, (n >>> 16).toUInt8, (n >>> 8).toUInt8, n.toUInt8] = l := by
  have hbytes : [l.getD 0 0, l.getD 1 0, l.getD 2 0, l.getD 3 0, l.getD 4 0, l.getD 5 0, l.getD 6 0,
      l.getD 7 0] = l := by
    have hall := ofFn_getD l (k := 0) (n := 8) (by omega)
    rw [List.drop_zero, List.take_of_length_le hl.le] at hall
    exact hall
  have h0 := (l.getD 0 0).toNat_lt
  have h1 := (l.getD 1 0).toNat_lt
  have h2 := (l.getD 2 0).toNat_lt
  have h3 := (l.getD 3 0).toNat_lt
  have h4 := (l.getD 4 0).toNat_lt
  have h5 := (l.getD 5 0).toNat_lt
  have h6 := (l.getD 6 0).toNat_lt
  have h7 := (l.getD 7 0).toNat_lt
  have hbyte : ∀ (k : UInt64) (m : ℕ) (b : UInt8), 2 ^ (k.toNat % 64) = m →
      n.toNat / m % 256 = b.toNat → (n >>> k).toUInt8 = b := by
    rintro k m b rfl h
    apply UInt8.toNat_inj.mp
    rw [UInt64.toNat_toUInt8, UInt64.toNat_shiftRight, Nat.shiftRight_eq_div_pow]
    exact h
  have hlast : n.toUInt8 = l.getD 7 0 := by
    apply UInt8.toNat_inj.mp
    rw [UInt64.toNat_toUInt8, hn, bytesValue]
    omega
  rw [bytesValue] at hn
  rw [hlast, hbyte 56 (2 ^ 56) (l.getD 0 0) rfl (by omega), hbyte 48 (2 ^ 48) (l.getD 1 0) rfl (by omega),
    hbyte 40 (2 ^ 40) (l.getD 2 0) rfl (by omega), hbyte 32 (2 ^ 32) (l.getD 3 0) rfl (by omega),
    hbyte 24 (2 ^ 24) (l.getD 4 0) rfl (by omega), hbyte 16 (2 ^ 16) (l.getD 5 0) rfl (by omega),
    hbyte 8 (2 ^ 8) (l.getD 6 0) rfl (by omega), hbytes]

/-! ### Round trips -/

/-- Where a host finds, in an integer, the bit that the promotion of the fifth byte takes for a sign. -/
def promotedSign : Host → ℕ
  | .little => 39
  | .big => 31

/-- The byte that is promoted to `int` and shifted is below 128 exactly when one bit of the value, which
depends on the host, is not set. -/
theorem fifth_byte_lt_iff (branch : ByteSwapBranch) (host : Host) (v : UInt64) :
    (htonll branch host v >>> 24).toUInt8.toNat < 128 ↔ v.toNat.testBit (promotedSign host) = false := by
  have hbit : ∀ n : UInt64, (n >>> 24).toUInt8.toNat < 128 ↔ n.toNat.testBit 31 = false := by
    intro n
    rw [Nat.testBit_eq_decide_div_mod_eq, decide_eq_false_iff_not]
    simp [Nat.shiftRight_eq_div_pow]
    omega
  rw [hbit, htonll_eq]
  cases host with
  | little =>
    have hswap : (byteSwap64 v).toBitVec.getLsbD 31 = v.toBitVec.getLsbD 39 :=
      getLsbD_byteSwap64 v (by decide)
    exact Eq.congr_left hswap
  | big => rfl

/-- `CharToInt64` gives a value exactly when the sum that it computes is the value in network order. -/
theorem charToInt64_eq_iff (branch branch' : ByteSwapBranch) (host : Host) (l : List UInt8)
    (v : UInt64) :
    charToInt64 branch host l = v ↔ charSum64 l = htonll branch' host v := by
  constructor
  · rintro rfl
    exact (htonll_ntohll branch' branch host _).symm
  · intro h
    rw [charToInt64, h, ntohll_htonll]

/-- **When the 64-bit codec is a bijection.** For the branches and byte orders that there are, an
integer is read back from its bytes if and only if one bit of it is zero, and eight bytes are written
back from their integer if and only if the fifth one is below 128. -/
theorem int64_codec_iff (branch branch' : ByteSwapBranch) (host : Host) :
    (∀ v : UInt64, charToInt64 branch' host (int64ToChar branch host v) = v ↔
        v.toNat.testBit (promotedSign host) = false) ∧
      ∀ b : Vector UInt8 8, int64ToChar branch host (charToInt64 branch' host b.toList) = b.toList ↔
        b[4].toNat < 128 := by
  refine ⟨fun v => ?_, fun b => ?_⟩
  · have hfifth : (int64ToChar branch host v).getD 4 0 = (htonll branch host v >>> 24).toUInt8 := by
      rw [int64ToChar_eq]
      rfl
    rw [charToInt64_eq_iff branch' branch, ← fifth_byte_lt_iff branch, ← hfifth,
      ← toNat_charSum64_eq_iff, bytesValue_int64ToChar, UInt64.toNat_inj]
  · have hlen : b.toList.length = 8 := by simp
    have hfifth : b.toList.getD 4 0 = b[4] := by
      rw [List.getD_eq_getElem?_getD, List.getElem?_eq_getElem (by omega), Option.getD_some,
        Vector.getElem_toList]
    have hword : htonll branch host (charToInt64 branch' host b.toList) = charSum64 b.toList :=
      htonll_ntohll branch branch' host _
    rw [← hfifth, ← toNat_charSum64_eq_iff]
    constructor
    · intro h
      rw [← hword, ← bytesValue_int64ToChar, h]
    · intro h
      rw [int64ToChar_eq, hword, bytes_of_value hlen h]

/-- On a little-endian host the integer 2^39 is not read back from its bytes. -/
theorem int64_codec_not_bijective :
    ¬ ∀ (branch : ByteSwapBranch) (host : Host),
      (∀ v : UInt64, charToInt64 branch host (int64ToChar branch host v) = v) ∧
        ∀ b : Vector UInt8 8, int64ToChar branch host (charToInt64 branch host b.toList) = b.toList := by
  intro h
  exact absurd ((h .win32 .little).1 0x8000000000) (by decide)

end MyUvpp
