import Mathlib.Data.List.Induction
import MyUvpp.Uv.InetText

/-! # Every text form is read back (`inet.c`) -/

namespace MyUvpp

/-! ### The shift to the end of the array -/

/-- Writing at the length of a prefix writes the first byte behind it. -/
theorem set_length_append (l t : List UInt8) (x y : UInt8) :
    (l ++ x :: t).set l.length y = l ++ y :: t := by
  simp

/-- The loop moves the bytes behind the zeros, the last one first, although the two places overlap. -/
theorem shiftLoop_eq {z : ℕ} (hz : 0 < z) (pre mid : List UInt8) (moved : List UInt8)
    (hlen : pre.length + mid.length + z + moved.length = 16) :
    shiftLoop pre.length (mid.length + moved.length) mid.length (moved.length + 1)
        (pre ++ mid ++ List.replicate z 0 ++ moved) =
      pre ++ List.replicate z 0 ++ mid ++ moved := by
  induction mid using List.reverseRecOn generalizing moved with
  | nil => simp [shiftLoop]
  | append_singleton mid x ih =>
    obtain ⟨z, rfl⟩ := Nat.exists_eq_succ_of_ne_zero hz.ne'
    rw [List.length_append, List.length_singleton] at hlen ⊢
    have hfrom : pre.length + (mid.length + 1 + moved.length - (moved.length + 1)) =
        pre.length + mid.length := by omega
    have hto : 16 - (moved.length + 1) = pre.length + mid.length + 1 + z := by omega
    have hparts : pre ++ (mid ++ [x]) ++ List.replicate (z + 1) 0 ++ moved =
        (pre ++ mid) ++ x :: (List.replicate z 0 ++ 0 :: moved) := by
      simp [List.replicate_succ']
    have hget : ((pre ++ mid) ++ x :: (List.replicate z 0 ++ 0 :: moved)).getD
        (pre.length + mid.length) 0 = x := by
      simp
    have hset : (((pre ++ mid) ++ x :: (List.replicate z 0 ++ 0 :: moved)).set
        (pre.length + mid.length + 1 + z) x).set (pre.length + mid.length) 0 =
          (pre ++ mid) ++ 0 :: (List.replicate z 0 ++ x :: moved) := by
      have hlast := set_length_append ((pre ++ mid) ++ x :: List.replicate z 0) moved 0 x
      have hplace : ((pre ++ mid) ++ x :: List.replicate z 0).length =
          pre.length + mid.length + 1 + z := by
        simp only [List.length_append, List.length_cons, List.length_replicate]
        omega
      have hassoc (t : List UInt8) : ((pre ++ mid) ++ x :: List.replicate z 0) ++ t =
          (pre ++ mid) ++ x :: (List.replicate z 0 ++ t) := by simp
      rw [hplace, hassoc, hassoc] at hlast
      rw [hlast, ← List.length_append, set_length_append]
    have hrest := ih (x :: moved) (by rw [List.length_cons]; omega)
    have hcount : mid.length + 1 + moved.length = mid.length + (x :: moved).length := by
      rw [List.length_cons]
      omega
    rw [shiftLoop, hfrom, hto, hparts, hget, hset, hcount]
    simpa [List.replicate_succ] using hrest

/-! ### What follows the loop -/

namespace Pton6

/-- All bytes read so far, those of the word at the end of the text included. -/
def bytes (s : Pton6) : List UInt8 := if s.seenXdigits ≠ 0 then s.tmp ++ valBytes s.val else s.tmp

/-- While at most 16 bytes are read there is room for the next two. -/
theorem room_of_bytes {s : Pton6} (h : s.bytes.length ≤ 16) :
    ¬(s.seenXdigits ≠ 0 ∧ s.tmp.length + 2 > 16) := by
  rintro ⟨hseen, hover⟩
  rw [bytes, if_pos hseen, List.length_append] at h
  simp only [valBytes, List.length_cons, List.length_nil] at h
  omega

/-- Without `::` sixteen bytes have been read. -/
theorem finish_full {s : Pton6} (hcolonp : s.colonp = none) (hlen : s.bytes.length = 16) :
    pton6Finish s = .ok s.bytes := by
  have hfinish : s.bytes.length ≠ 16 ↔ False := by simp [hlen]
  rw [pton6Finish, if_neg (room_of_bytes hlen.le), hcolonp]
  rw [bytes] at hfinish ⊢
  simp only [hfinish, if_false]

/-- `::` is filled with zeros. -/
theorem finish_gap {s : Pton6} {pre post : List UInt8} {z : ℕ} (hcolonp : s.colonp = some pre.length)
    (hbytes : s.bytes = pre ++ post) (hz : 0 < z) (hlen : pre.length + post.length + z = 16) :
    pton6Finish s = .ok (pre ++ List.replicate z 0 ++ post) := by
  have hcount : s.bytes.length = pre.length + post.length := by rw [hbytes, List.length_append]
  have hroom := room_of_bytes (s := s) (by omega)
  have hshort : pre.length + post.length ≠ 16 := by omega
  have hzeros : 16 - (pre.length + post.length) = z := by omega
  have hmoved : pre.length + post.length - pre.length = post.length := Nat.add_sub_cancel_left _ _
  have hshift := shiftLoop_eq hz pre post [] (by simpa using hlen)
  simp only [List.length_nil, add_zero, zero_add, List.append_nil] at hshift
  rw [bytes] at hbytes
  rw [pton6Finish, if_neg hroom, hcolonp, hbytes]
  simp only [List.length_append, hshort, hzeros, hmoved, hshift, if_false]

end Pton6

/-! ### The loop -/

section Parse

/-- Each hexadecimal digit that `inet_ntop` prints is read back. -/
theorem xdigit_digitChar {d : ℕ} (hd : d < 16) : xdigit (Nat.digitChar d) = some d := by
  interval_cases d <;> rfl

/-- A word may begin: all bytes read so far are in the array. -/
structure Pton6.Fresh (s : Pton6) (bytes : List UInt8) (colonp : Option ℕ) (curtok : List Char) :
    Prop where
  seen : s.seenXdigits = 0
  val : s.val = 0
  tmp_eq : s.tmp = bytes
  colonp_eq : s.colonp = colonp
  curtok_eq : s.curtok = curtok

/-- A word is on the way: its digits have been read and its bytes are not in the array yet. -/
structure Pton6.Pending (s : Pton6) (bytes : List UInt8) (colonp : Option ℕ) : Prop where
  seen : s.seenXdigits ≠ 0
  bytes_eq : s.bytes = bytes
  colonp_eq : s.colonp = colonp

variable {s : Pton6} {bytes : List UInt8} {colonp : Option ℕ} {curtok : List Char}

/-- A word is two bytes. -/
theorem length_append_valBytes (bytes : List UInt8) (w : ℕ) :
    (bytes ++ valBytes w).length = bytes.length + 2 := by
  rw [List.length_append]
  rfl

/-- A word is read digit by digit. -/
theorem Pton6.Fresh.loop_toDigits (h : s.Fresh bytes colonp curtok) {w : ℕ} (hw : w < 65536)
    (rest : List Char) : pton6Loop (Nat.toDigits 16 w ++ rest) s =
      pton6Loop rest { s with val := w, seenXdigits := (Nat.toDigits 16 w).length } := by
  have hlen := length_toDigits_word hw
  clear hw
  revert hlen rest
  refine toDigits_induction (by decide) (P := fun n ds => ∀ rest, ds.length ≤ 4 →
    pton6Loop (ds ++ rest) s = pton6Loop rest { s with val := n, seenXdigits := ds.length }) ?_ ?_ w
  · intro d hd rest _
    simp [pton6Loop, xdigit_digitChar hd, h.seen, h.val]
  · intro n d _ hd ih rest hlen
    rw [List.length_append, List.length_singleton] at hlen
    have hover : ¬ ((Nat.toDigits 16 n).length + 1 > 4) := by omega
    rw [List.append_assoc, ih _ (by omega), List.singleton_append, pton6Loop, xdigit_digitChar hd]
    simp only [hover, if_false, List.length_append, List.length_singleton,
      shiftLeft_or_eq_mul_add n (show d < 2 ^ 4 from hd)]
    rfl

/-- Reading one printed word brings the reader to the state that has its value pending. -/
theorem Pton6.Fresh.loop_word (h : s.Fresh bytes colonp curtok) {w : ℕ} (hw : w < 65536)
    (rest : List Char) : ∃ s' : Pton6, s'.Pending (bytes ++ valBytes w) colonp ∧
      pton6Loop (Nat.toDigits 16 w ++ rest) s = pton6Loop rest s' := by
  have hpos : (Nat.toDigits 16 w).length ≠ 0 := by simp
  refine ⟨{ s with val := w, seenXdigits := (Nat.toDigits 16 w).length }, ⟨hpos, ?_, h.colonp_eq⟩,
    h.loop_toDigits hw rest⟩
  rw [Pton6.bytes, if_pos hpos, h.tmp_eq]

/-- The first colon of `::`. -/
theorem Pton6.Fresh.loop_gap (h : s.Fresh bytes none curtok) (rest : List Char) :
    ∃ s' : Pton6, s'.Fresh bytes (some bytes.length) rest ∧
      pton6Loop (':' :: rest) s = pton6Loop rest s' := by
  have hcolon : xdigit ':' = none := by decide
  refine ⟨{ s with curtok := rest, colonp := some s.tmp.length },
    ⟨h.seen, h.val, h.tmp_eq, by rw [h.tmp_eq], rfl⟩, ?_⟩
  rw [pton6Loop, hcolon]
  simp [h.seen, h.colonp_eq]

/-- A colon behind a word that is not the last one. -/
theorem Pton6.Pending.loop_colon (h : s.Pending bytes colonp) {rest : List Char} (hrest : rest ≠ [])
    (hroom : bytes.length ≤ 16) : ∃ s' : Pton6, s'.Fresh bytes colonp rest ∧
      pton6Loop (':' :: rest) s = pton6Loop rest s' := by
  have hcolon : xdigit ':' = none := by decide
  have hfits := Pton6.room_of_bytes (s := s) (by rwa [h.bytes_eq])
  have hover : ¬(s.tmp.length + 2 > 16) := fun hover => hfits ⟨h.seen, hover⟩
  have hbytes := h.bytes_eq
  rw [Pton6.bytes, if_pos h.seen] at hbytes
  refine ⟨{ s with curtok := rest, tmp := bytes, seenXdigits := 0, val := 0 },
    ⟨rfl, rfl, rfl, h.colonp_eq, rfl⟩, ?_⟩
  rw [pton6Loop, hcolon]
  simp [h.seen, hrest, hover, hbytes]

/-- Words behind colons are read one after the other. -/
theorem Pton6.Pending.loop_colonWords (ws : List ℕ) (hws : ∀ w ∈ ws, w < 65536)
    (h : s.Pending bytes colonp) (hroom : bytes.length + 2 * ws.length ≤ 16) (rest : List Char) :
    ∃ s' : Pton6, s'.Pending (bytes ++ wordsBytes ws) colonp ∧
      pton6Loop (colonWords ws ++ rest) s = pton6Loop rest s' := by
  induction ws generalizing s bytes with
  | nil => exact ⟨s, by simpa [wordsBytes] using h, rfl⟩
  | cons w ws ih =>
    rw [List.length_cons] at hroom
    have hne : Nat.toDigits 16 w ++ (colonWords ws ++ rest) ≠ [] := by simp
    obtain ⟨s₁, h₁, hcolon⟩ := h.loop_colon hne (by omega)
    obtain ⟨s₂, h₂, hword⟩ := h₁.loop_word (hws w List.mem_cons_self) (colonWords ws ++ rest)
    obtain ⟨s₃, h₃, hwords⟩ := ih (fun v hv => hws v (List.mem_cons_of_mem w hv)) h₂
      (by rw [length_append_valBytes]; omega)
    refine ⟨s₃, by simpa [wordsBytes] using h₃, ?_⟩
    rw [← hwords, ← hword, ← hcolon]
    simp [colonWords]

/-- Words with colons between them are read one after the other. -/
theorem Pton6.Fresh.loop_joinedWords (h : s.Fresh bytes colonp curtok) {w : ℕ} {ws : List ℕ}
    (hws : ∀ v ∈ w :: ws, v < 65536) (hroom : bytes.length + 2 * (w :: ws).length ≤ 16)
    (rest : List Char) : ∃ s' : Pton6, s'.Pending (bytes ++ wordsBytes (w :: ws)) colonp ∧
      pton6Loop (joinedWords (w :: ws) ++ rest) s = pton6Loop rest s' := by
  rw [List.length_cons] at hroom
  obtain ⟨s₁, h₁, hword⟩ := h.loop_word (hws w List.mem_cons_self) (colonWords ws ++ rest)
  obtain ⟨s₂, h₂, hwords⟩ := h₁.loop_colonWords ws (fun v hv => hws v (List.mem_cons_of_mem w hv))
    (by rw [length_append_valBytes]; omega) rest
  refine ⟨s₂, by simpa [wordsBytes] using h₂, ?_⟩
  rw [joinedWords, List.append_assoc, hword, hwords]

/-- The words behind a colon, one at a time. -/
theorem colonWords_cons (w : ℕ) (ws : List ℕ) : colonWords (w :: ws) = ':' :: joinedWords (w :: ws) := rfl

/-- `::` and the words behind it. -/
theorem Pton6.Fresh.loop_behindGap (h : s.Fresh bytes none curtok) {post : List ℕ}
    (hpost : ∀ w ∈ post, w < 65536) (hroom : bytes.length + 2 * post.length ≤ 16) :
    ∃ s' : Pton6, pton6Loop (behindGap post) s = .ok s' ∧ s'.bytes = bytes ++ wordsBytes post ∧
      s'.colonp = some bytes.length := by
  cases post with
  | nil =>
    obtain ⟨s₁, h₁, hgap⟩ := h.loop_gap []
    refine ⟨s₁, hgap, ?_, h₁.colonp_eq⟩
    rw [Pton6.bytes, if_neg (not_not.mpr h₁.seen), h₁.tmp_eq]
    exact (List.append_nil _).symm
  | cons w ws =>
    obtain ⟨s₁, h₁, hgap⟩ := h.loop_gap (joinedWords (w :: ws))
    obtain ⟨s₂, h₂, hwords⟩ := h₁.loop_joinedWords hpost hroom []
    rw [List.append_nil] at hwords
    refine ⟨s₂, ?_, h₂.bytes_eq, h₂.colonp_eq⟩
    rw [behindGap, colonWords_cons, hgap, hwords]
    rfl

/-- Up to four digits are read, whatever they mean. -/
theorem pton6Loop_digits (ds : List Char) (hds : ∀ c ∈ ds, ∃ d, xdigit c = some d) (s : Pton6)
    (hlen : s.seenXdigits + ds.length ≤ 4) (rest : List Char) : ∃ val, pton6Loop (ds ++ rest) s =
      pton6Loop rest { s with val, seenXdigits := s.seenXdigits + ds.length } := by
  induction ds generalizing s with
  | nil => exact ⟨s.val, rfl⟩
  | cons c ds ih =>
    obtain ⟨d, hd⟩ := hds c List.mem_cons_self
    rw [List.length_cons] at hlen
    have hover : ¬ (s.seenXdigits + 1 > 4) := by omega
    obtain ⟨val, hval⟩ := ih (fun c' hc' => hds c' (List.mem_cons_of_mem c hc'))
      { s with val := s.val <<< 4 ||| d, seenXdigits := s.seenXdigits + 1 } (by simp only; omega)
    refine ⟨val, ?_⟩
    rw [List.cons_append, pton6Loop, hd]
    simp only [hover, if_false, hval, List.length_cons, add_assoc, add_comm 1 ds.length]

/-- An encapsulated address is read from its first octet on, after the digits of this octet have been taken
for those of a word. -/
theorem Pton6.Fresh.loop_dotted {a b c d : UInt8} (h : s.Fresh bytes colonp (dotted a b c d))
    (hroom : bytes.length + 4 ≤ 16) : ∃ s' : Pton6, pton6Loop (dotted a b c d) s = .ok s' ∧
      s'.bytes = bytes ++ [a, b, c, d] ∧ s'.colonp = colonp := by
  have hdigits : ∀ ch ∈ Nat.toDigits 10 a.toNat, ∃ v, xdigit ch = some v :=
    forall_mem_toDigits (by decide) (fun v hv => ⟨v, xdigit_digitChar (by omega)⟩) _
  have hlen := length_toDigits_byte a
  obtain ⟨val, hval⟩ := pton6Loop_digits _ hdigits s (by rw [h.seen]; omega)
    ('.' :: (Nat.toDigits 10 b.toNat ++ '.' :: (Nat.toDigits 10 c.toNat ++ '.' ::
      Nat.toDigits 10 d.toNat)))
  have hdot : xdigit '.' = none := by decide
  have hcolon : ¬ ('.' = ':') := by decide
  have hfits : s.tmp.length + 4 ≤ 16 := by rwa [h.tmp_eq]
  refine ⟨{ s with val, tmp := s.tmp ++ [a, b, c, d], seenXdigits := 0 }, ?_, ?_, h.colonp_eq⟩
  · rw [dotted, hval, pton6Loop, hdot]
    simp only [hcolon, hfits, h.curtok_eq, inetPton4_dotted, and_self, if_true, if_false]
  · rw [Pton6.bytes, if_neg (by simp), h.tmp_eq]

/-- `::`, the words behind it and an encapsulated address. -/
theorem Pton6.Fresh.loop_encapsulated (h : s.Fresh [] none curtok) {mid : List ℕ}
    (hmid : ∀ w ∈ mid, w < 65536) (hroom : 2 * mid.length + 4 ≤ 16) (a b c d : UInt8) :
    ∃ s' : Pton6, pton6Loop (colonWords mid ++ ':' :: dotted a b c d) s = .ok s' ∧
      s'.bytes = wordsBytes mid ++ [a, b, c, d] ∧ s'.colonp = some 0 := by
  have hdotted : dotted a b c d ≠ [] := by simp [dotted]
  cases mid with
  | nil =>
    obtain ⟨s₁, h₁, hgap⟩ := h.loop_gap (dotted a b c d)
    obtain ⟨s₂, hread, hbytes, hcolonp⟩ := h₁.loop_dotted (by simp)
    exact ⟨s₂, hgap.trans hread, hbytes, hcolonp⟩
  | cons w ws =>
    have hlen := length_wordsBytes (w :: ws)
    obtain ⟨s₁, h₁, hgap⟩ := h.loop_gap (joinedWords (w :: ws) ++ ':' :: dotted a b c d)
    obtain ⟨s₂, h₂, hwords⟩ := h₁.loop_joinedWords hmid (by rw [List.length_nil]; omega)
      (':' :: dotted a b c d)
    rw [List.nil_append] at h₂
    obtain ⟨s₃, h₃, hcolon⟩ := h₂.loop_colon hdotted (by omega)
    obtain ⟨s₄, hread, hbytes, hcolonp⟩ := h₃.loop_dotted (by omega)
    refine ⟨s₄, ?_, hbytes, hcolonp⟩
    rw [colonWords_cons, List.cons_append, hgap, hwords, hcolon, hread]

/-! ### All forms -/

/-- A printed word does not start with a colon. -/
theorem head_digits_ne_colon (w : ℕ) (rest : List Char) :
    (Nat.toDigits 16 w ++ rest).head? ≠ some ':' := by
  have hdigits : ∀ c ∈ Nat.toDigits 16 w, c ≠ ':' :=
    forall_mem_toDigits (by decide) (fun d hd => by interval_cases d <;> decide) w
  cases hword : Nat.toDigits 16 w with
  | nil => exact absurd hword Nat.toDigits_ne_nil
  | cons c ds =>
    intro hhead
    exact hdigits c (by rw [hword]; exact List.mem_cons_self) (Option.some.inj hhead)

/-- What is printed behind the gap starts with a colon. -/
theorem head_behindGap (post : List ℕ) : (behindGap post).head? = some ':' := by
  cases post <;> rfl

/-- The reader starts fresh. -/
theorem fresh_start (src : List Char) : Pton6.Fresh ⟨[], none, src, 0, 0⟩ [] none src :=
  ⟨rfl, rfl, rfl, rfl, rfl⟩

/-- All eight words. -/
theorem inetPton6_joinedWords {words : List ℕ} (hlen : words.length = 8)
    (hlt : ∀ w ∈ words, w < 65536) : inetPton6 (joinedWords words) = .ok (wordsBytes words) := by
  cases words with
  | nil => cases hlen
  | cons w ws =>
    obtain ⟨s₁, h₁, hwords⟩ := (fresh_start (joinedWords (w :: ws))).loop_joinedWords hlt
      (by rw [hlen, List.length_nil]) []
    rw [List.append_nil] at hwords
    have hall : s₁.bytes = wordsBytes (w :: ws) := h₁.bytes_eq
    rw [inetPton6, joinedWords, if_neg (head_digits_ne_colon w _), ← joinedWords, pton6From, hwords,
      pton6Loop]
    simp only
    rw [Pton6.finish_full h₁.colonp_eq (by rw [hall, length_wordsBytes, hlen]), hall]

/-- A text that begins with `::` is read from the second colon on. -/
theorem inetPton6_colon {src : List Char} (hsrc : src.head? = some ':') :
    inetPton6 (':' :: src) = pton6From src := by
  rw [inetPton6, List.head?_cons, if_pos rfl, List.tail_cons]
  exact if_neg (not_not.mpr hsrc)

/-- The words around `::`. -/
theorem inetPton6_gap {pre post : List ℕ} {n : ℕ} (hn : 0 < n)
    (hlen : pre.length + n + post.length = 8) (hpre : ∀ w ∈ pre, w < 65536)
    (hpost : ∀ w ∈ post, w < 65536) : inetPton6 (joinedWords pre ++ ':' :: behindGap post) =
      .ok (wordsBytes pre ++ List.replicate (2 * n) 0 ++ wordsBytes post) := by
  have hroom : (wordsBytes pre).length + 2 * post.length ≤ 16 := by
    rw [length_wordsBytes]
    omega
  have hsum : (wordsBytes pre).length + (wordsBytes post).length + 2 * n = 16 := by
    rw [length_wordsBytes, length_wordsBytes]
    omega
  cases pre with
  | nil =>
    obtain ⟨s₁, hread, hbytes, hcolonp⟩ := (fresh_start (behindGap post)).loop_behindGap hpost hroom
    have hfinish : pton6Finish s₁ = .ok ([] ++ List.replicate (2 * n) 0 ++ wordsBytes post) :=
      Pton6.finish_gap hcolonp hbytes (by omega) hsum
    rw [joinedWords, List.nil_append, inetPton6_colon (head_behindGap post), pton6From, hread]
    exact hfinish
  | cons w ws =>
    have hgap : behindGap post ≠ [] := by
      intro hnil
      have hhead := head_behindGap post
      rw [hnil] at hhead
      cases hhead
    have hfit : ([] : List UInt8).length + 2 * (w :: ws).length ≤ 16 := by
      rw [List.length_nil]
      omega
    obtain ⟨s₁, h₁, hwords⟩ := (fresh_start (joinedWords (w :: ws) ++ ':' :: behindGap post)).loop_joinedWords
      hpre hfit (':' :: behindGap post)
    obtain ⟨s₂, h₂, hcolon⟩ := h₁.loop_colon hgap (by rw [List.nil_append]; omega)
    obtain ⟨s₃, hread, hbytes, hcolonp⟩ := h₂.loop_behindGap hpost hroom
    have hfinish := Pton6.finish_gap hcolonp hbytes (by omega) hsum
    have hhead : (joinedWords (w :: ws) ++ ':' :: behindGap post).head? ≠ some ':' := by
      rw [joinedWords, List.append_assoc]
      exact head_digits_ne_colon w _
    rw [inetPton6, if_neg hhead, pton6From, hwords, hcolon, hread]
    exact hfinish

/-- `::`, words and an IPv4 address. -/
theorem inetPton6_encapsulated {mid : List ℕ} {n : ℕ} (hn : 0 < n) (hlen : n + mid.length = 6)
    (hmid : ∀ w ∈ mid, w < 65536) (a b c d : UInt8) :
    inetPton6 (':' :: (colonWords mid ++ ':' :: dotted a b c d)) =
      .ok (List.replicate (2 * n) 0 ++ (wordsBytes mid ++ [a, b, c, d])) := by
  have hhead : (colonWords mid ++ ':' :: dotted a b c d).head? = some ':' := by
    cases mid <;> rfl
  obtain ⟨s₁, hread, hbytes, hcolonp⟩ :=
    (fresh_start (colonWords mid ++ ':' :: dotted a b c d)).loop_encapsulated hmid (by omega) a b c d
  have hsum : ([] : List UInt8).length + (wordsBytes mid ++ [a, b, c, d]).length + 2 * n = 16 := by
    rw [List.length_append, length_wordsBytes]
    simp only [List.length_cons, List.length_nil]
    omega
  have hfinish : pton6Finish s₁ =
      .ok ([] ++ List.replicate (2 * n) 0 ++ (wordsBytes mid ++ [a, b, c, d])) :=
    Pton6.finish_gap hcolonp hbytes (by omega) hsum
  rw [inetPton6_colon hhead, pton6From, hread]
  exact hfinish

/-- **Every text form of an address is read as the address.** -/
theorem TextForm.inetPton6_eq {words : List ℕ} {text : List Char} (h : TextForm words text)
    (hlen : words.length = 8) (hlt : ∀ w ∈ words, w < 65536) :
    inetPton6 text = .ok (wordsBytes words) := by
  cases h with
  | full => exact inetPton6_joinedWords hlen hlt
  | gap pre n post hn =>
    have hpre (w : ℕ) (hw : w ∈ pre) : w < 65536 := hlt w (by simp [hw])
    have hpost (w : ℕ) (hw : w ∈ post) : w < 65536 := hlt w (by simp [hw])
    simp only [List.length_append, List.length_replicate] at hlen
    have hzeros := wordsBytes_replicate n
    rw [inetPton6_gap hn hlen hpre hpost]
    simp only [wordsBytes, List.flatMap_append] at hzeros ⊢
    rw [hzeros]
  | encapsulated n mid a b c d hn =>
    have hmid (w : ℕ) (hw : w ∈ mid) : w < 65536 := hlt w (by simp [hw])
    have hlast := (inetWords_spec 2 [a, b, c, d] rfl)
    simp only [List.length_append, List.length_replicate, hlast.1] at hlen
    have hzeros := wordsBytes_replicate n
    have hfour := hlast.2.1
    rw [inetPton6_encapsulated hn (by omega) hmid]
    simp only [wordsBytes, List.flatMap_append] at hzeros hfour ⊢
    rw [hzeros, hfour, List.append_assoc]

end Parse

/-! ### The characters of a text -/

section Characters

variable {Q : Char → Prop}

/-- What holds of the digits and the dot holds of every character of an IPv4 address. -/
theorem forall_mem_dotted (hdigit : ∀ d < 16, Q (Nat.digitChar d)) (hdot : Q '.') (a b c d : UInt8) :
    ∀ ch ∈ dotted a b c d, Q ch := by
  have hdecimal (n : ℕ) : ∀ ch ∈ Nat.toDigits 10 n, Q ch :=
    forall_mem_toDigits (by decide) (fun v hv => hdigit v (by omega)) n
  intro ch hch
  simp only [dotted, List.mem_append, List.mem_cons] at hch
  rcases hch with h | rfl | h | rfl | h | rfl | h
  · exact hdecimal _ ch h
  · exact hdot
  · exact hdecimal _ ch h
  · exact hdot
  · exact hdecimal _ ch h
  · exact hdot
  · exact hdecimal _ ch h

/-- What holds of the digits and the colon holds of the words behind colons. -/
theorem forall_mem_colonWords (hdigit : ∀ d < 16, Q (Nat.digitChar d)) (hcolon : Q ':') (ws : List ℕ) :
    ∀ ch ∈ colonWords ws, Q ch := by
  intro ch hch
  obtain ⟨w, -, hw⟩ := List.mem_flatMap.mp hch
  rcases List.mem_cons.mp hw with rfl | hw
  · exact hcolon
  · exact forall_mem_toDigits (by decide) hdigit w ch hw

/-- And of the words joined by colons. -/
theorem forall_mem_joinedWords (hdigit : ∀ d < 16, Q (Nat.digitChar d)) (hcolon : Q ':')
    (ws : List ℕ) : ∀ ch ∈ joinedWords ws, Q ch := by
  intro ch hch
  cases ws with
  | nil => cases hch
  | cons w ws =>
    rcases List.mem_append.mp hch with hw | hws
    · exact forall_mem_toDigits (by decide) hdigit w ch hw
    · exact forall_mem_colonWords hdigit hcolon ws ch hws

/-- A text form consists of hexadecimal digits, colons and dots. -/
theorem TextForm.forall_mem {words : List ℕ} {text : List Char} (h : TextForm words text)
    (hdigit : ∀ d < 16, Q (Nat.digitChar d)) (hcolon : Q ':') (hdot : Q '.') : ∀ ch ∈ text, Q ch := by
  intro ch hch
  cases h with
  | full => exact forall_mem_joinedWords hdigit hcolon words ch hch
  | gap pre n post =>
    rcases List.mem_append.mp hch with hpre | hgap
    · exact forall_mem_joinedWords hdigit hcolon pre ch hpre
    · rcases List.mem_cons.mp hgap with rfl | hpost
      · exact hcolon
      · cases post with
        | nil =>
          rw [List.mem_singleton.mp hpost]
          exact hcolon
        | cons w ws => exact forall_mem_colonWords hdigit hcolon (w :: ws) ch hpost
  | encapsulated n mid a b c d =>
    rcases List.mem_cons.mp hch with rfl | hrest
    · exact hcolon
    · rcases List.mem_append.mp hrest with hmid | haddr
      · exact forall_mem_colonWords hdigit hcolon mid ch hmid
      · rcases List.mem_cons.mp haddr with rfl | haddr
        · exact hcolon
        · exact forall_mem_dotted hdigit hdot a b c d ch haddr

/-- A word and its colon take at most five characters. -/
theorem length_joinedWords {ws : List ℕ} (hws : ∀ w ∈ ws, w < 65536) :
    (joinedWords ws).length ≤ 5 * ws.length := by
  cases ws with
  | nil => rfl
  | cons w ws =>
    have hw := length_toDigits_word (hws w List.mem_cons_self)
    have hrest := length_colonWords fun v hv => hws v (List.mem_cons_of_mem w hv)
    rw [joinedWords, List.length_append, List.length_cons]
    omega

/-- `UV__INET6_ADDRSTRLEN` characters are enough for every text form. -/
theorem TextForm.length_lt {words : List ℕ} {text : List Char} (h : TextForm words text)
    (hlen : words.length = 8) (hlt : ∀ w ∈ words, w < 65536) : text.length < inet6Addrstrlen := by
  rw [inet6Addrstrlen]
  cases h with
  | full =>
    have := length_joinedWords hlt
    omega
  | gap pre n post hn =>
    have hpre := length_joinedWords fun w (hw : w ∈ pre) => hlt w (by simp [hw])
    have hpost : (behindGap post).length ≤ 5 * post.length + 1 := by
      cases post with
      | nil => rfl
      | cons w ws =>
        have hws := length_colonWords fun v (hv : v ∈ w :: ws) => hlt v (List.mem_append_right _ hv)
        exact hws.trans (Nat.le_succ _)
    simp only [List.length_append, List.length_replicate, List.length_cons] at hlen ⊢
    omega
  | encapsulated n mid a b c d hn =>
    have hmid := length_colonWords fun w (hw : w ∈ mid) => hlt w (by simp [hw])
    have haddr := length_dotted a b c d
    have hlast := (inetWords_spec 2 [a, b, c, d] rfl).1
    simp only [List.length_append, List.length_replicate, List.length_cons, hlast] at hlen ⊢
    omega

end Characters

end MyUvpp
