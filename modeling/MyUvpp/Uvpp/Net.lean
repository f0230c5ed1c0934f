import Mathlib.Data.List.TakeWhile
import MyUvpp.Packet.NetBase
import MyUvpp.Uv.InetRoundTrip

/-! # Addresses of sockets (`uv-common.c`, `net.hpp`, `tcp.hpp`)

`to_ip4_addr` and `to_ip6_addr` read a text, `from_ip4_addr` and `from_ip6_addr` print one, and
`Tcp::getsockname` and `Tcp::getpeername` print what the socket says. Both printers have a buffer of 16
characters. That is the length of the longest IPv4 text with its `'\0'`; an IPv6 text can have up to 45
characters. -/

namespace MyUvpp

/-! ### The socket addresses of libuv -/

/-- Swap the two bytes of a 16-bit word. -/
def byteSwap16 (v : UInt16) : UInt16 := (v <<< 8) ||| (v >>> 8)

/-- `htons`: host to network byte order, for 16 bits. -/
def htons (host : Host) (v : UInt16) : UInt16 :=
  match host with
  | .little => byteSwap16 v
  | .big => v

/-- `ntohs`: network to host byte order, for 16 bits. -/
def ntohs (host : Host) (v : UInt16) : UInt16 :=
  match host with
  | .little => byteSwap16 v
  | .big => v

/-- `memcpy` of a `struct in_addr` from an array of bytes. -/
def InAddr.memcpy (tmp : List UInt8) : InAddr := ⟨(List.range 4).map fun i => tmp.getD i 0, by simp⟩

/-- `memcpy` of a `struct in6_addr` from an array of bytes. -/
def In6Addr.memcpy (tmp : List UInt8) : In6Addr := ⟨(List.range 16).map fun i => tmp.getD i 0, by simp⟩

/-- `struct sockaddr_in`, the family of which is `AF_INET`. -/
structure SockaddrIn where
  sinPort : UInt16
  sinAddr : InAddr
  deriving DecidableEq, Repr

/-- `struct sockaddr_in6`, the family of which is `AF_INET6`. -/
structure SockaddrIn6 where
  sin6Port : UInt16
  sin6Addr : In6Addr
  sin6ScopeId : ℕ
  deriving DecidableEq, Repr

/-- `struct sockaddr_storage` with the address of a TCP socket; `ss_family` tells which one it is. -/
inductive SockaddrStorage where
  | inet (addr : SockaddrIn)
  | inet6 (addr : SockaddrIn6)
  deriving DecidableEq, Repr

/-- `uv_ip4_addr`: the text has to be an IPv4 address, and the port is stored as its lower 16 bits. -/
def uvIp4Addr (host : Host) (ip : List Char) (port : ℤ) : Except UvErr SockaddrIn :=
  match inetPton4 ip with
  | .error err => .error err
  | .ok tmp => .ok ⟨htons host (UInt16.ofInt port), .memcpy tmp⟩

/-- `uv_ip6_addr`. What stands behind a `%` is the zone, whose index the platform looks up. -/
def uvIp6Addr (host : Host) (ifNametoindex : List Char → ℕ) (ip : List Char) (port : ℤ) :
    Except UvErr SockaddrIn6 :=
  let addressPart := match ip.idxOf? '%' with
    | none => ip
    | some size => ip.take (if size ≥ 40 then 40 - 1 else size)
  let scopeId := match ip.idxOf? '%' with
    | none => 0
    | some size => ifNametoindex (ip.drop (size + 1))
  match uvInetPton6 addressPart with
  | .error err => .error err
  | .ok tmp => .ok ⟨htons host (UInt16.ofInt port), .memcpy tmp, scopeId⟩

/-- `uv_ip4_name`: the text of the address, for an array of the given size. -/
def uvIp4Name (src : SockaddrIn) (size : ℕ) : Except UvErr (List Char) := inetNtop4 src.sinAddr.bytes size

/-- `uv_ip6_name`: the text of the address, for an array of the given size; the zone is left out. -/
def uvIp6Name (src : SockaddrIn6) (size : ℕ) : Except UvErr (List Char) :=
  inetNtop6 src.sin6Addr.bytes size

/-! ### The conversions of `net.hpp` -/

/-- `c_str()`, as far as a C function reads it. -/
def cStr (s : List Char) : List Char := s.takeWhile fun ch => ch ≠ Char.ofNat 0

/-- `to_ip4_addr`, with the text of the exception. -/
def toIp4Addr (host : Host) (ip : List Char) (port : ℤ) : Except String SockaddrIn :=
  match uvIp4Addr host (cStr ip) port with
  | .error res => .error ("uv_ip4_addr error: " ++ uvStrerror res)
  | .ok result => .ok result

/-- `from_ip4_addr`, with what it leaves in `ip` and `port`. -/
def fromIp4Addr (host : Host) (src : SockaddrIn) (ip : List Char) (port : ℤ) : Bool × List Char × ℤ :=
  match uvIp4Name src 16 with
  | .ok dest => (true, dest, (ntohs host src.sinPort).toNat)
  | .error _ => (false, ip, port)

/-- `to_ip6_addr`, with the text of the exception. -/
def toIp6Addr (host : Host) (ifNametoindex : List Char → ℕ) (ip : List Char) (port : ℤ) :
    Except String SockaddrIn6 :=
  match uvIp6Addr host ifNametoindex (cStr ip) port with
  | .error res => .error ("uv_ip6_addr error: " ++ uvStrerror res)
  | .ok result => .ok result

/-- `from_ip6_addr`, with what it leaves in `ip` and `port`. -/
def fromIp6Addr (host : Host) (src : SockaddrIn6) (ip : List Char) (port : ℤ) : Bool × List Char × ℤ :=
  match uvIp6Name src 16 with
  | .ok dest => (true, dest, (ntohs host src.sin6Port).toNat)
  | .error _ => (false, ip, port)

/-! ### The names of a socket in `tcp.hpp` -/

/-- The arguments `isIp4`, `ip` and `port` that a caller passes by reference. -/
structure SockName where
  isIp4 : Bool
  ip : List Char
  port : ℤ
  deriving DecidableEq, Repr

/-- What `getsockname` and `getpeername` do with the result of libuv: an error code or an address. -/
def sockName (host : Host) (result : Except ℤ SockaddrStorage) (name : SockName) : Bool × SockName :=
  match result with
  | .ok (.inet addr) =>
    let printed := fromIp4Addr host addr name.ip name.port
    (printed.1, ⟨true, printed.2.1, printed.2.2⟩)
  | .ok (.inet6 addr) =>
    let printed := fromIp6Addr host addr name.ip name.port
    (printed.1, ⟨false, printed.2.1, printed.2.2⟩)
  | .error _ => (false, name)

/-- `Tcp::getsockname`, with the result of `uv_tcp_getsockname` as a parameter. -/
def getsockname (host : Host) (uvTcpGetsockname : Except ℤ SockaddrStorage) (name : SockName) :
    Bool × SockName := sockName host uvTcpGetsockname name

/-- `Tcp::getpeername`, with the result of `uv_tcp_getpeername` as a parameter. -/
def getpeername (host : Host) (uvTcpGetpeername : Except ℤ SockaddrStorage) (name : SockName) :
    Bool × SockName := sockName host uvTcpGetpeername name

/-! ### Round trips -/

section Bytes

/-- The two conversions undo each other. -/
theorem ntohs_htons (host : Host) (v : UInt16) : ntohs host (htons host v) = v := by
  cases host
  · apply UInt16.eq_of_toBitVec_eq
    apply BitVec.eq_of_getLsbD_eq
    intro i hi
    simp only [htons, ntohs, byteSwap16]
    interval_cases i <;> simp
  · rfl

/-- A port comes back from network byte order. -/
theorem ntohs_port (host : Host) {port : ℤ} (hlow : 0 ≤ port) (hhigh : port ≤ 65535) :
    ((ntohs host (htons host (UInt16.ofInt port))).toNat : ℤ) = port := by
  have hmod : (port % 2 ^ 16).toNat < 2 ^ 16 := by omega
  rw [ntohs_htons, UInt16.ofInt, UInt16.toNat_ofNat', Nat.mod_eq_of_lt hmod]
  omega

/-- Reading a list byte by byte gives the list. -/
theorem map_range_getD {n : ℕ} {bytes : List UInt8} (h : bytes.length = n) :
    ((List.range n).map fun i => bytes.getD i 0) = bytes := by
  subst h
  apply List.ext_getElem (by simp)
  intro i h₁ h₂
  simp [h₂]

/-- Copying the bytes of an IPv4 address gives the address. -/
theorem InAddr.memcpy_bytes (a : InAddr) : InAddr.memcpy a.bytes = a := by
  obtain ⟨bytes, h⟩ := a
  simp only [memcpy, map_range_getD h]

/-- Copying the bytes of an IPv6 address gives the address. -/
theorem In6Addr.memcpy_bytes (a : In6Addr) : In6Addr.memcpy a.bytes = a := by
  obtain ⟨bytes, h⟩ := a
  simp only [memcpy, map_range_getD h]

/-- A text without a zero character is a C string as it stands. -/
theorem cStr_eq {s : List Char} (h : ∀ ch ∈ s, ch ≠ Char.ofNat 0) : cStr s = s := by
  rw [cStr, List.takeWhile_eq_self_iff]
  intro ch hch
  exact decide_eq_true (h ch hch)

end Bytes

/-- An IPv4 or an IPv6 address, in the form that the sockets have. -/
inductive IpAddress where
  | v4 (addr : InAddr)
  | v6 (addr : In6Addr)
  deriving DecidableEq, Repr

namespace IpAddress

/-- The text form of the address, printed to a buffer that is long enough for all of them. -/
def ownText : IpAddress → Except UvErr (List Char)
  | v4 addr => inetNtop4 addr.bytes inetAddrstrlen
  | v6 addr => inetNtop6 addr.bytes inet6Addrstrlen

/-- The address and the port go through the conversions of `net.hpp` and come back, as a text that stands for
the address. -/
def RoundTrip (host : Host) (ifNametoindex : List Char → ℕ) (text : List Char) (port : ℤ) :
    IpAddress → Prop
  | v4 addr => ∃ src, toIp4Addr host text port = .ok src ∧ src.sinAddr = addr ∧
    ∀ ip₀ port₀, ∃ ip, fromIp4Addr host src ip₀ port₀ = (true, ip, port) ∧
      ∃ src', toIp4Addr host ip port = .ok src' ∧ src'.sinAddr = addr
  | v6 addr => ∃ src, toIp6Addr host ifNametoindex text port = .ok src ∧ src.sin6Addr = addr ∧
    ∀ ip₀ port₀, ∃ ip, fromIp6Addr host src ip₀ port₀ = (true, ip, port) ∧
      ∃ src', toIp6Addr host ifNametoindex ip port = .ok src' ∧ src'.sin6Addr = addr

/-- The address that a socket is bound or connected to. -/
def ofSocket (s : SockaddrStorage) : IpAddress :=
  match s with
  | .inet addr => v4 addr.sinAddr
  | .inet6 addr => v6 addr.sin6Addr

/-- Both names of a socket with this address can be had. -/
def NamesSucceed (host : Host) (a : IpAddress) : Prop :=
  ∀ s, ofSocket s = a → ∀ name,
    (getsockname host (.ok s) name).1 = true ∧ (getpeername host (.ok s) name).1 = true

/-- The text has room in 16 characters, which an IPv4 text always has. -/
def Fits (text : List Char) : IpAddress → Prop
  | v4 _ => True
  | v6 _ => text.length < 16

/-- Whether the text of an address fits the array of the caller is a comparison. -/
instance (text : List Char) (a : IpAddress) : Decidable (a.Fits text) :=
  match a with
  | v4 _ => .isTrue trivial
  | v6 _ => inferInstanceAs (Decidable (_ < _))

end IpAddress

section Inet

/-- An IPv4 address, its text, and the text read back. -/
theorem InAddr.exists_text (addr : InAddr) : ∃ text, (∀ size, 16 ≤ size →
    inetNtop4 addr.bytes size = .ok text) ∧ inetPton4 text = .ok addr.bytes ∧ cStr text = text := by
  obtain ⟨a, b, c, d, hbytes⟩ := List.length_eq_four.mp addr.length_eq
  refine ⟨dotted a b c d, fun size hsize => ?_, ?_, ?_⟩
  · rw [hbytes, inetNtop4_eq hsize]
  · rw [hbytes, inetPton4_dotted]
  · exact cStr_eq (forall_mem_dotted (fun v hv => by interval_cases v <;> decide) (by decide) a b c d)

/-- `ToIp4Addr` of a text that `inet_pton` reads. -/
theorem toIp4Addr_eq {text : List Char} {addr : InAddr} (hread : inetPton4 text = .ok addr.bytes)
    (hchars : cStr text = text) (host : Host) (port : ℤ) :
    toIp4Addr host text port = .ok ⟨htons host (UInt16.ofInt port), addr⟩ := by
  rw [toIp4Addr, hchars, uvIp4Addr, hread]
  simp only [InAddr.memcpy_bytes]

/-- `from_ip4_addr` prints every address. -/
theorem fromIp4Addr_eq (src : SockaddrIn) {text : List Char}
    (hprint : inetNtop4 src.sinAddr.bytes 16 = .ok text) (host : Host) (ip : List Char) (port : ℤ) :
    fromIp4Addr host src ip port = (true, text, ((ntohs host src.sinPort).toNat : ℤ)) := by
  rw [fromIp4Addr, uvIp4Name, hprint]

/-- Every IPv4 socket has a name. -/
theorem namesSucceed_v4 (host : Host) (addr : InAddr) : (IpAddress.v4 addr).NamesSucceed host := by
  obtain ⟨text, hprint, -, -⟩ := addr.exists_text
  rintro (src | src) hs name
  · obtain rfl := IpAddress.v4.inj hs
    have hname := fromIp4Addr_eq src (hprint 16 (le_refl 16)) host name.ip name.port
    have hok : (sockName host (.ok (.inet src)) name).1 = true := by
      simp only [sockName, hname]
    exact ⟨hok, hok⟩
  · cases hs

end Inet

section Inet6

/-- An IPv6 address, its text, and the text read back. -/
theorem In6Addr.exists_text (addr : In6Addr) : ∃ text, text.length < inet6Addrstrlen ∧
    (∀ size, inetNtop6 addr.bytes size = if text.length + 1 > size then .error .enospc else .ok text) ∧
      uvInetPton6 text = .ok addr.bytes ∧ cStr text = text ∧ text.idxOf? '%' = none := by
  obtain ⟨text, hform, hprint⟩ := inetNtop6_textForm addr.length_eq
  obtain ⟨hlen, hbytes, hlt⟩ := inetWords_spec 8 addr.bytes addr.length_eq
  have hzone : text.idxOf? '%' = none := by
    rw [List.idxOf?_eq_none_iff]
    intro hmem
    have hne := hform.forall_mem (Q := fun ch => ch ≠ '%') (fun v hv => by interval_cases v <;> decide)
      (by decide) (by decide) '%' hmem
    exact hne rfl
  refine ⟨text, hform.length_lt hlen hlt, hprint, ?_, ?_, hzone⟩
  · rw [uvInetPton6, hzone]
    simp only
    rw [hform.inetPton6_eq hlen hlt, hbytes]
  · exact cStr_eq (hform.forall_mem (fun v hv => by interval_cases v <;> decide) (by decide) (by decide))

/-- `ToIp6Addr` of a text that `inet_pton` reads and that has no zone. -/
theorem toIp6Addr_eq {text : List Char} {addr : In6Addr} (hread : uvInetPton6 text = .ok addr.bytes)
    (hchars : cStr text = text) (hzone : text.idxOf? '%' = none) (host : Host)
    (ifNametoindex : List Char → ℕ) (port : ℤ) :
    toIp6Addr host ifNametoindex text port = .ok ⟨htons host (UInt16.ofInt port), addr, 0⟩ := by
  rw [toIp6Addr, hchars, uvIp6Addr, hzone]
  simp only [hread, In6Addr.memcpy_bytes]

/-- `from_ip6_addr` prints the texts that have room in its buffer and no others. -/
theorem fromIp6Addr_eq (src : SockaddrIn6) {text : List Char}
    (hprint : ∀ size, inetNtop6 src.sin6Addr.bytes size =
      if text.length + 1 > size then .error .enospc else .ok text) (host : Host) (ip : List Char)
    (port : ℤ) : fromIp6Addr host src ip port =
      if text.length < 16 then (true, text, ((ntohs host src.sin6Port).toNat : ℤ))
      else (false, ip, port) := by
  rw [fromIp6Addr, uvIp6Name, hprint]
  by_cases hfits : text.length < 16
  · have hroom : ¬ (text.length + 1 > 16) := by omega
    simp only [hfits, hroom, if_true, if_false]
  · have hover : text.length + 1 > 16 := by omega
    simp only [hfits, hover, if_true, if_false]

/-- A socket has a name if and only if the buffer of `from_ip6_addr` has room for it. -/
theorem namesSucceed_v6_iff {addr : In6Addr} {text : List Char} (hprint : ∀ size,
    inetNtop6 addr.bytes size = if text.length + 1 > size then .error .enospc else .ok text)
    (host : Host) : (IpAddress.v6 addr).NamesSucceed host ↔ text.length < 16 := by
  have hname (src : SockaddrIn6) (hsrc : src.sin6Addr = addr) (name : SockName) :
      (sockName host (.ok (.inet6 src)) name).1 = decide (text.length < 16) := by
    have hfrom := fromIp6Addr_eq src (by rwa [hsrc]) host name.ip name.port
    simp only [sockName, hfrom]
    split_ifs with hfits <;> simp [hfits]
  constructor
  · intro h
    have hsome := (h (.inet6 ⟨0, addr, 0⟩) rfl ⟨false, [], 0⟩).1
    rwa [getsockname, hname _ rfl, decide_eq_true_eq] at hsome
  · rintro hfits (src | src) hs name
    · cases hs
    · have hok := (hname src (IpAddress.v6.inj hs) name).trans (decide_eq_true hfits)
      exact ⟨hok, hok⟩

end Inet6

/-- **When an address survives its conversions.** For every address and every port, the conversions of
`net.hpp` give back the port and a text that stands for the address, if and only if the address is an IPv4
address or its text form has at most 15 characters; and under the same condition the names of a socket with
this address can be had. -/
theorem address_roundTrip_iff (host : Host) (ifNametoindex : List Char → ℕ) (a : IpAddress) {port : ℤ}
    (hlow : 0 ≤ port) (hhigh : port ≤ 65535) : ∃ text, a.ownText = .ok text ∧
      (a.RoundTrip host ifNametoindex text port ↔ a.Fits text) ∧
        (a.NamesSucceed host ↔ a.Fits text) := by
  have hport := ntohs_port host hlow hhigh
  cases a with
  | v4 addr =>
    obtain ⟨text, hprint, hread, hchars⟩ := addr.exists_text
    have hto := toIp4Addr_eq hread hchars host port
    have hfrom := fromIp4Addr_eq ⟨htons host (UInt16.ofInt port), addr⟩ (hprint 16 (le_refl 16)) host
    rw [hport] at hfrom
    refine ⟨text, hprint inetAddrstrlen (le_refl _), iff_of_true ?_ trivial,
      iff_of_true (namesSucceed_v4 host addr) trivial⟩
    exact ⟨_, hto, rfl, fun ip₀ port₀ => ⟨text, hfrom ip₀ port₀, _, hto, rfl⟩⟩
  | v6 addr =>
    obtain ⟨text, hlen, hprint, hread, hchars, hzone⟩ := addr.exists_text
    have hto := toIp6Addr_eq hread hchars hzone host ifNametoindex port
    have hown : inetNtop6 addr.bytes inet6Addrstrlen = .ok text := by
      rw [hprint, if_neg (by omega)]
    have hfrom := fromIp6Addr_eq ⟨htons host (UInt16.ofInt port), addr, 0⟩ hprint host
    rw [hport] at hfrom
    refine ⟨text, hown, ⟨?_, fun hfits => ?_⟩, namesSucceed_v6_iff hprint host⟩
    · rintro ⟨src, hsrc, -, hback⟩
      obtain rfl := Except.ok.inj (hto.symm.trans hsrc)
      obtain ⟨ip, hip, -⟩ := hback [] 0
      by_contra hnot
      rw [hfrom, if_neg (show ¬ text.length < 16 from hnot)] at hip
      cases hip
    · refine ⟨_, hto, rfl, fun ip₀ port₀ => ⟨text, ?_, _, hto, rfl⟩⟩
      rw [hfrom, if_pos (show text.length < 16 from hfits)]

/-- `::1` and a port. -/
theorem address_roundTrip_iff_loopback :
    let a : IpAddress := .v6 ⟨[0, 0, 0, 0, 0, 0, 0, 0, 0, 0, 0, 0, 0, 0, 0, 1], rfl⟩
    ∃ text, a.ownText = .ok text ∧
      (a.RoundTrip .little (fun _ => 0) text 8080 ↔ a.Fits text) ∧
        (a.NamesSucceed .little ↔ a.Fits text) :=
  address_roundTrip_iff .little (fun _ => 0) _ (by decide) (by decide)

/-- `2001:db8:1:2:3:4:5:6` has more than 15 characters. -/
theorem address_not_roundTrip :
    ¬ ∀ (host : Host) (ifNametoindex : List Char → ℕ) (a : IpAddress) (port : ℤ) (text : List Char),
      0 ≤ port → port ≤ 65535 → a.ownText = .ok text →
        a.RoundTrip host ifNametoindex text port ∧ a.NamesSucceed host := by
  intro hall
  have h := hall .little (fun _ => 0)
    (.v6 ⟨[0x20, 0x01, 0x0d, 0xb8, 0, 1, 0, 2, 0, 3, 0, 4, 0, 5, 0, 6], rfl⟩) 8080
    ['2', '0', '0', '1', ':', 'd', 'b', '8', ':', '1', ':', '2', ':', '3', ':', '4', ':', '5', ':', '6']
    (by decide) (by decide) (by decide)
  have hname := (h.2 (.inet6 ⟨0, _, 0⟩) rfl ⟨false, [], 0⟩).1
  exact absurd hname (by decide)

end MyUvpp
