import Mathlib.Data.List.Basic

/-! # Text forms of addresses (`inet.c`, `uv-common.c`)

The conversions of libuv between IPv4 and IPv6 addresses and their text forms. An address is the sequence
of its bytes, the most significant one first. A C string is the list of the characters in front of its
`'\0'`, and a function that writes one to a buffer returns it, with the size of the buffer for an argument.
A pointer into a string is the list of the characters from there on, and a pointer into an array of bytes
that is filled from its first element on is the list of the bytes in front of it. -/

namespace MyUvpp

/-- The error codes that the conversions return. -/
inductive UvErr where
  | einval
  | enospc
  deriving DecidableEq, Repr

/-- `uv_strerror`, for the two errors that the conversions return. -/
def uvStrerror : UvErr → String
  | .einval => "invalid argument"
  | .enospc => "no space left on device"

/-- `struct in_addr`, its four bytes in the order of memory, which is network order. -/
structure InAddr where
  bytes : List UInt8
  length_eq : bytes.length = 4
  deriving DecidableEq, Repr

/-- `struct in6_addr`, its sixteen bytes in the order of memory, which is network order. -/
structure In6Addr where
  bytes : List UInt8
  length_eq : bytes.length = 16
  deriving DecidableEq, Repr

/-- `UV__INET_ADDRSTRLEN`: the longest IPv4 text with its terminating zero. -/
def inetAddrstrlen : ℕ := 16

/-- `UV__INET6_ADDRSTRLEN`: the longest IPv6 text with its terminating zero. -/
def inet6Addrstrlen : ℕ := 46

/-! ### From addresses to texts -/

/-- What `snprintf` prints with the format `"%u.%u.%u.%u"`. -/
def dotted (a b c d : UInt8) : List Char :=
  Nat.toDigits 10 a.toNat ++ '.' :: (Nat.toDigits 10 b.toNat ++ '.' :: (Nat.toDigits 10 c.toNat ++
    '.' :: Nat.toDigits 10 d.toNat))

/-- `inet_ntop4`: the four numbers and their dots, if they fit the array of the caller. -/
def inetNtop4 (src : List UInt8) (size : ℕ) : Except UvErr (List Char) :=
  let printed := dotted (src.getD 0 0) (src.getD 1 0) (src.getD 2 0) (src.getD 3 0)
  let tmp := printed.take (inetAddrstrlen - 1)
  let l := printed.length
  if l = 0 ∨ size ≤ l then .error .enospc
  else .ok (tmp.take (size - 1))

/-- A run of words, `base` being `none` for -1. -/
structure Run where
  base : Option ℕ
  len : ℕ
  deriving DecidableEq, Repr

namespace Run

/-- `if (best.base == -1 || cur.len > best.len) best = cur;` -/
def longer (best cur : Run) : Run := if best.base = none ∨ cur.len > best.len then cur else best

/-- `r.base != -1 && i >= r.base && i < r.base + r.len`. -/
def Covers (r : Run) (i : ℕ) : Prop := ∃ base ∈ r.base, base ≤ i ∧ i < base + r.len

/-- Whether a run covers a word is two comparisons. -/
instance (r : Run) (i : ℕ) : Decidable (r.Covers i) :=
  match h : r.base with
  | none => .isFalse (by simp [Covers, h])
  | some base => decidable_of_iff (base ≤ i ∧ i < base + r.len) (by simp [Covers, h])

/-- `r.base != -1 && r.base + r.len == n`. -/
def EndsAt (r : Run) (n : ℕ) : Prop := ∃ base ∈ r.base, base + r.len = n

/-- Whether a run ends at the last word is one comparison. -/
instance (r : Run) (n : ℕ) : Decidable (r.EndsAt n) :=
  match h : r.base with
  | none => .isFalse (by simp [EndsAt, h])
  | some base => decidable_of_iff (base + r.len = n) (by simp [EndsAt, h])

end Run

/-- The words of the address, each of two bytes with the higher one first. -/
def inetWords : List UInt8 → List ℕ
  | hi :: lo :: src => (hi.toNat <<< 8 ||| lo.toNat) :: inetWords src
  | _ => []

/-- The loop that looks for the longest run of zeros: `best` and `cur` from the word `i` on. -/
def bestLoop : List ℕ → ℕ → Run → Run → Run × Run
  | [], _, best, cur => (best, cur)
  | w :: words, i, best, cur =>
    if w = 0 then
      if cur.base = none then bestLoop words (i + 1) best ⟨some i, 1⟩
      else bestLoop words (i + 1) best { cur with len := cur.len + 1 }
    else if cur.base ≠ none then bestLoop words (i + 1) (best.longer cur) { cur with base := none }
    else bestLoop words (i + 1) best cur

/-- The run that `::` stands for: the first of the longest runs of zero words, if it has two words at least.
-/
def bestRun (words : List ℕ) : Run :=
  let runs := bestLoop words 0 ⟨none, 0⟩ ⟨none, 0⟩
  let best := if runs.2.base ≠ none then runs.1.longer runs.2 else runs.1
  if best.base ≠ none ∧ best.len < 2 then { best with base := none } else best

/-- The condition for an encapsulated IPv4 address at the word `i`. -/
def Encapsulated (words : List ℕ) (best : Run) (i : ℕ) : Prop :=
  i = 6 ∧ best.base = some 0 ∧
    (best.len = 6 ∨ best.len = 7 ∧ words.getD 7 0 ≠ 1 ∨ best.len = 5 ∧ words.getD 5 0 = 0xffff)

/-- Whether the last words are written as an IPv4 address can be looked up in the run and the words. -/
instance (words : List ℕ) (best : Run) (i : ℕ) : Decidable (Encapsulated words best i) :=
  inferInstanceAs (Decidable (_ ∧ _))

/-- The loop that formats the result, from the word `i` on. -/
def formatLoop (src : List UInt8) (words : List ℕ) (best : Run) :
    List ℕ → ℕ → List Char → Except UvErr (List Char)
  | [], _, tmp => .ok tmp
  | w :: ws, i, tmp =>
    if best.Covers i then
      formatLoop src words best ws (i + 1) (if best.base = some i then tmp ++ [':'] else tmp)
    else
      let tmp := if i ≠ 0 then tmp ++ [':'] else tmp
      if Encapsulated words best i then
        match inetNtop4 (src.drop 12) (inet6Addrstrlen - tmp.length) with
        | .error err => .error err
        | .ok text => .ok (tmp ++ text)
      else formatLoop src words best ws (i + 1) (tmp ++ Nat.toDigits 16 w)

/-- `inet_ntop6`: the words of the address in hexadecimal, the best run of zeros left out, if they fit the
array of the caller. -/
def inetNtop6 (src : List UInt8) (size : ℕ) : Except UvErr (List Char) :=
  let words := inetWords src
  let best := bestRun words
  match formatLoop src words best words 0 [] with
  | .error err => .error err
  | .ok tmp =>
    let tmp := if best.EndsAt 8 then tmp ++ [':'] else tmp
    if tmp.length + 1 > size then .error .enospc else .ok tmp

/-! ### From texts to addresses -/

/-- `digits`, in which `inet_pton4` looks its characters up. -/
def digits : List Char := ['0', '1', '2', '3', '4', '5', '6', '7', '8', '9']

/-- `xdigits_l`, in which `inet_pton6` looks its characters up first. -/
def xdigitsL : List Char := digits ++ ['a', 'b', 'c', 'd', 'e', 'f']

/-- `xdigits_u`, in which `inet_pton6` looks up what is not in `xdigits_l`. -/
def xdigitsU : List Char := digits ++ ['A', 'B', 'C', 'D', 'E', 'F']

/-- The variables of `inet_pton4`: the bytes in front of `tp` and `*tp`. -/
structure Pton4 where
  tmp : List UInt8
  cur : UInt8
  octets : ℕ
  sawDigit : Bool
  deriving DecidableEq, Repr

/-- The loop of `inet_pton4`, one character at a time: a digit goes to the current octet, a dot ends it. -/
def pton4Loop : List Char → Pton4 → Except UvErr Pton4
  | [], s => .ok s
  | ch :: src, s =>
    match digits.idxOf? ch with
    | some d =>
      let nw := s.cur.toNat * 10 + d
      if s.sawDigit ∧ s.cur = 0 then .error .einval
      else if nw > 255 then .error .einval
      else if s.sawDigit then pton4Loop src { s with cur := UInt8.ofNat nw }
      else if s.octets + 1 > 4 then .error .einval
      else pton4Loop src { s with cur := UInt8.ofNat nw, octets := s.octets + 1, sawDigit := true }
    | none =>
      if ch = '.' ∧ s.sawDigit then
        if s.octets = 4 then .error .einval
        else pton4Loop src { s with tmp := s.tmp ++ [s.cur], cur := 0, sawDigit := false }
      else .error .einval

/-- `inet_pton4`: the text is read if it has four octets and nothing else. -/
def inetPton4 (src : List Char) : Except UvErr (List UInt8) :=
  match pton4Loop src ⟨[], 0, 0, false⟩ with
  | .error err => .error err
  | .ok s => if s.octets < 4 then .error .einval else .ok (s.tmp ++ [s.cur])

/-- The variables of `inet_pton6`: the bytes in front of `tp`, and `colonp` as the number of bytes in front
of it. -/
structure Pton6 where
  tmp : List UInt8
  colonp : Option ℕ
  curtok : List Char
  seenXdigits : ℕ
  val : ℕ
  deriving DecidableEq, Repr

/-- `*tp++ = (unsigned char) (val >> 8) & 0xff; *tp++ = (unsigned char) val & 0xff;` -/
def valBytes (val : ℕ) : List UInt8 := [UInt8.ofNat (val >>> 8) &&& 0xff, UInt8.ofNat val &&& 0xff]

/-- The value of a hexadecimal digit, in small or in capital letters. -/
def xdigit (ch : Char) : Option ℕ :=
  match xdigitsL.idxOf? ch with
  | some d => some d
  | none => xdigitsU.idxOf? ch

/-- The loop of `inet_pton6`, one character at a time: a digit goes to the current word, a colon ends it or
marks the gap, a dot sends the current text to `inet_pton4`. -/
def pton6Loop : List Char → Pton6 → Except UvErr Pton6
  | [], s => .ok s
  | ch :: src, s =>
    match xdigit ch with
    | some d =>
      if s.seenXdigits + 1 > 4 then .error .einval
      else pton6Loop src { s with val := s.val <<< 4 ||| d, seenXdigits := s.seenXdigits + 1 }
    | none =>
      if ch = ':' then
        let s := { s with curtok := src }
        if s.seenXdigits = 0 then
          if s.colonp ≠ none then .error .einval
          else pton6Loop src { s with colonp := some s.tmp.length }
        else if src = [] then .error .einval
        else if s.tmp.length + 2 > 16 then .error .einval
        else pton6Loop src { s with tmp := s.tmp ++ valBytes s.val, seenXdigits := 0, val := 0 }
      else if ch = '.' ∧ s.tmp.length + 4 ≤ 16 then
        match inetPton4 s.curtok with
        | .ok octets => .ok { s with tmp := s.tmp ++ octets, seenXdigits := 0 }
        | .error _ => .error .einval
      else .error .einval

/-- The loop that shifts the `n` bytes from `colonp` on to the end of the array, from its step `i` on. -/
def shiftLoop (colonp n : ℕ) : ℕ → ℕ → List UInt8 → List UInt8
  | 0, _, tmp => tmp
  | steps + 1, i, tmp =>
    let tmp := tmp.set (16 - i) (tmp.getD (colonp + (n - i)) 0)
    let tmp := tmp.set (colonp + (n - i)) 0
    shiftLoop colonp n steps (i + 1) tmp

/-- What `inet_pton6` does behind its loop; the bytes from `tp` on are zero. -/
def pton6Finish (s : Pton6) : Except UvErr (List UInt8) :=
  if s.seenXdigits ≠ 0 ∧ s.tmp.length + 2 > 16 then .error .einval
  else
    let tmp := if s.seenXdigits ≠ 0 then s.tmp ++ valBytes s.val else s.tmp
    match s.colonp with
    | some colonp =>
      let n := tmp.length - colonp
      if tmp.length = 16 then .error .einval
      else .ok (shiftLoop colonp n n 1 (tmp ++ List.replicate (16 - tmp.length) 0))
    | none => if tmp.length ≠ 16 then .error .einval else .ok tmp

/-- The loop of `inet_pton6` and what follows it. -/
def pton6From (src : List Char) : Except UvErr (List UInt8) :=
  match pton6Loop src ⟨[], none, src, 0, 0⟩ with
  | .error err => .error err
  | .ok s => pton6Finish s

/-- `inet_pton6`: a leading colon has to be one of two. -/
def inetPton6 (src : List Char) : Except UvErr (List UInt8) :=
  if src.head? = some ':' then
    let src := src.tail
    if src.head? ≠ some ':' then .error .einval else pton6From src
  else pton6From src

/-- `uv_inet_pton` for `AF_INET6`: the part in front of a `%`, or the whole text. -/
def uvInetPton6 (src : List Char) : Except UvErr (List UInt8) :=
  match src.idxOf? '%' with
  | none => inetPton6 src
  | some len => if len > inet6Addrstrlen - 1 then .error .einval else inetPton6 (src.take len)

end MyUvpp
