import MyUvpp.Foundation.Numerals
import MyUvpp.Uv.Inet

/-! # The text forms of an address are read back (`inet.c`) -/

namespace MyUvpp

/-! ### IPv4 -/

section Dotted

/-- A decimal digit is found at its own place. -/
theorem idxOf_digits {d : ℕ} (hd : d < 10) : digits.idxOf? (Nat.digitChar d) = some d := by
  interval_cases d <;> rfl

/-- A byte has at most three decimal digits. -/
theorem length_toDigits_byte (b : UInt8) : (Nat.toDigits 10 b.toNat).length ≤ 3 := by
  have hb := b.toNat_lt
  rw [Nat.length_toDigits_le_iff (by decide) (by decide)]
  omega

/-- An IPv4 address has at most 15 characters. -/
theorem length_dotted (a b c d : UInt8) : (dotted a b c d).length ≤ 15 := by
  have ha := length_toDigits_byte a
  have hb := length_toDigits_byte b
  have hc := length_toDigits_byte c
  have hd := length_toDigits_byte d
  simp only [dotted, List.length_append, List.length_cons]
  omega

/-- Sixteen characters are enough for every IPv4 address. -/
theorem inetNtop4_eq {a b c d : UInt8} {src : List UInt8} {size : ℕ} (hsize : 16 ≤ size) :
    inetNtop4 (a :: b :: c :: d :: src) size = .ok (dotted a b c d) := by
  have hlen := length_dotted a b c d
  have hpos : (dotted a b c d).length ≠ 0 := by
    simp [dotted]
  have hfits : ¬((dotted a b c d).length = 0 ∨ size ≤ (dotted a b c d).length) := by omega
  have htmp : (dotted a b c d).take (inetAddrstrlen - 1) = dotted a b c d := List.take_of_length_le hlen
  simp only [inetNtop4, List.getD_cons_zero, List.getD_cons_succ, hfits, if_false, htmp]
  rw [List.take_of_length_le (by omega)]

/-- An octet is read digit by digit. -/
theorem pton4Loop_toDigits {n octets : ℕ} (hn : n ≤ 255) (hoctets : octets < 4) (tmp : List UInt8)
    (rest : List Char) : pton4Loop (Nat.toDigits 10 n ++ rest) ⟨tmp, 0, octets, false⟩ =
      pton4Loop rest ⟨tmp, UInt8.ofNat n, octets + 1, true⟩ := by
  revert hn rest
  refine toDigits_induction (by decide) (P := fun n ds => n ≤ 255 → ∀ rest,
    pton4Loop (ds ++ rest) ⟨tmp, 0, octets, false⟩ =
      pton4Loop rest ⟨tmp, UInt8.ofNat n, octets + 1, true⟩) ?_ ?_ n
  · intro d hd hn rest
    have hover : ¬ (octets + 1 > 4) := by omega
    have hbyte : ¬ (d > 255) := by omega
    simp [pton4Loop, idxOf_digits hd, hover, hbyte]
  · intro n d hpos hd ih hn rest
    have hbyte : ¬ (10 * n + d > 255) := by omega
    have hcur : (UInt8.ofNat n).toNat = n := UInt8.toNat_ofNat_of_lt (show n < 256 by omega)
    have hne : UInt8.ofNat n ≠ 0 := by
      intro h
      have hzero := congrArg UInt8.toNat h
      rw [hcur] at hzero
      exact hpos.ne' hzero
    rw [List.append_assoc, ih (by omega), List.singleton_append, pton4Loop, idxOf_digits hd]
    simp only [hcur, hne, mul_comm n 10, hbyte, and_false, if_false, if_true]

/-- A dot ends an octet. -/
theorem pton4Loop_dot {octets : ℕ} (hoctets : octets < 4) (tmp : List UInt8) (cur : UInt8)
    (rest : List Char) : pton4Loop ('.' :: rest) ⟨tmp, cur, octets, true⟩ =
      pton4Loop rest ⟨tmp ++ [cur], 0, octets, false⟩ := by
  have hdot : digits.idxOf? '.' = none := by decide
  rw [pton4Loop, hdot]
  simp [hoctets.ne]

/-- **The text form of an IPv4 address is read back.** -/
theorem inetPton4_dotted (a b c d : UInt8) : inetPton4 (dotted a b c d) = .ok [a, b, c, d] := by
  have ha := a.toNat_lt
  have hb := b.toNat_lt
  have hc := c.toNat_lt
  have hd := d.toNat_lt
  have hloop : pton4Loop (dotted a b c d) ⟨[], 0, 0, false⟩ = .ok ⟨[a, b, c], d, 4, true⟩ := by
    rw [dotted, pton4Loop_toDigits (by omega) (by decide), pton4Loop_dot (by decide),
      pton4Loop_toDigits (by omega) (by decide), pton4Loop_dot (by decide),
      pton4Loop_toDigits (by omega) (by decide), pton4Loop_dot (by decide),
      ← List.append_nil (Nat.toDigits 10 d.toNat), pton4Loop_toDigits (by omega) (by decide)]
    simp [pton4Loop]
  rw [inetPton4, hloop]
  rfl

end Dotted

/-! ### The words of an IPv6 address -/

section Words

/-- The bytes of a word. -/
theorem valBytes_word (hi lo : UInt8) : valBytes (hi.toNat <<< 8 ||| lo.toNat) = [hi, lo] := by
  have hhi := hi.toNat_lt
  have hlo := lo.toNat_lt
  have hword : hi.toNat <<< 8 ||| lo.toNat = 2 ^ 8 * hi.toNat + lo.toNat :=
    shiftLeft_or_eq_mul_add _ hlo
  have hmask (b : UInt8) : b &&& 0xff = b := by
    apply UInt8.toNat_inj.mp
    have hb := b.toNat_lt
    have hand := Nat.and_two_pow_sub_one_eq_mod b.toNat 8
    rw [UInt8.toNat_and]
    exact hand.trans (Nat.mod_eq_of_lt hb)
  rw [valBytes, hword, hmask, hmask, Nat.shiftRight_eq_div_pow]
  have hhigh : (2 ^ 8 * hi.toNat + lo.toNat) / 2 ^ 8 = hi.toNat := by omega
  have hlow : UInt8.ofNat (2 ^ 8 * hi.toNat + lo.toNat) = lo := by
    apply UInt8.toNat_inj.mp
    rw [UInt8.toNat_ofNat']
    omega
  rw [hhigh, hlow, UInt8.ofNat_toNat]

/-- The bytes of a list of words. -/
def wordsBytes (words : List ℕ) : List UInt8 := words.flatMap valBytes

/-- What holds of the words that are made from two bytes, and of words in front of which there is another
one. -/
theorem inetWords_spec : ∀ (n : ℕ) (src : List UInt8), src.length = 2 * n →
    (inetWords src).length = n ∧ wordsBytes (inetWords src) = src ∧ ∀ w ∈ inetWords src, w < 65536
  | 0, [], _ => ⟨rfl, rfl, by simp [inetWords]⟩
  | n + 1, hi :: lo :: src, h => by
    obtain ⟨hlen, hbytes, hlt⟩ := inetWords_spec n src (by simp only [List.length_cons] at h; omega)
    have hhi := hi.toNat_lt
    have hlo := lo.toNat_lt
    have hword : hi.toNat <<< 8 ||| lo.toNat = 2 ^ 8 * hi.toNat + lo.toNat :=
      shiftLeft_or_eq_mul_add _ hlo
    refine ⟨by rw [inetWords, List.length_cons, hlen], ?_, ?_⟩
    · rw [wordsBytes] at hbytes ⊢
      rw [inetWords, List.flatMap_cons, valBytes_word, hbytes]
      rfl
    · intro w hw
      rcases List.mem_cons.mp hw with rfl | hw
      · rw [hword]
        omega
      · exact hlt w hw

/-- Two bytes at a time, the words of a text are those of its halves. -/
theorem inetWords_append : ∀ (n : ℕ) (src more : List UInt8), src.length = 2 * n →
    inetWords (src ++ more) = inetWords src ++ inetWords more
  | 0, [], _, _ => rfl
  | n + 1, hi :: lo :: src, more, h => by
    have ih := inetWords_append n src more (by simp only [List.length_cons] at h; omega)
    simp only [List.cons_append, inetWords, ih]

/-- A word is two bytes. -/
theorem length_wordsBytes (words : List ℕ) : (wordsBytes words).length = 2 * words.length := by
  induction words with
  | nil => rfl
  | cons w words ih =>
    rw [wordsBytes] at ih ⊢
    rw [List.flatMap_cons, List.length_append, ih, List.length_cons]
    simp only [valBytes, List.length_cons, List.length_nil]
    omega

/-- The bytes of zero words are zero. -/
theorem wordsBytes_replicate (n : ℕ) : wordsBytes (List.replicate n 0) = List.replicate (2 * n) 0 := by
  induction n with
  | zero => rfl
  | succ n ih =>
    rw [wordsBytes] at ih ⊢
    rw [List.replicate_succ, List.flatMap_cons, ih]
    rfl

end Words

/-! ### The longest run of zeros -/

section BestRun

/-- The words of a run are zero. -/
def Run.Zeros (r : Run) (words : List ℕ) : Prop :=
  ∀ base ∈ r.base, ∃ pre post, words = pre ++ List.replicate r.len 0 ++ post ∧ pre.length = base

/-- A run of zeros is one in a longer list of words too. -/
theorem Run.Zeros.append {r : Run} {words : List ℕ} (h : r.Zeros words) (more : List ℕ) :
    r.Zeros (words ++ more) := by
  intro base hbase
  obtain ⟨pre, post, hwords, hlen⟩ := h base hbase
  exact ⟨pre, post ++ more, by rw [hwords, List.append_assoc], hlen⟩

/-- The longer of two runs of zeros is one. -/
theorem Run.Zeros.longer {best cur : Run} {words : List ℕ} (h : best.Zeros words)
    (hcur : cur.Zeros words) : (best.longer cur).Zeros words := by
  rw [Run.longer]
  split_ifs
  · exact hcur
  · exact h

/-- A run of zeros that reaches to the end of the words seen so far. -/
def Run.Open (r : Run) (seen : List ℕ) : Prop :=
  ∀ base ∈ r.base, ∃ pre, seen = pre ++ List.replicate r.len 0 ∧ pre.length = base

/-- A run that is still open is a run of zeros. -/
theorem Run.Open.zeros {r : Run} {seen : List ℕ} (h : r.Open seen) : r.Zeros seen := by
  intro base hbase
  obtain ⟨pre, hseen, hlen⟩ := h base hbase
  exact ⟨pre, [], by rw [hseen, List.append_nil], hlen⟩

/-- No run is open at a word that is not zero. -/
theorem Run.Open.of_none {r : Run} (h : r.base = none) (seen : List ℕ) : r.Open seen := by
  intro base hbase
  rw [h] at hbase
  cases hbase

/-- Both runs of the loop are runs of zeros. -/
theorem bestLoop_zeros (words : List ℕ) {seen : List ℕ} {best cur : Run} (hbest : best.Zeros seen)
    (hcur : cur.Open seen) : (bestLoop words seen.length best cur).1.Zeros (seen ++ words) ∧
      (bestLoop words seen.length best cur).2.Zeros (seen ++ words) := by
  induction words generalizing seen best cur with
  | nil =>
    rw [List.append_nil]
    exact ⟨hbest, hcur.zeros⟩
  | cons w words ih =>
    have hnext : seen.length + 1 = (seen ++ [w]).length := by simp
    have hsplit : seen ++ w :: words = (seen ++ [w]) ++ words := by simp
    rw [bestLoop, hnext, hsplit]
    split_ifs with hw hbase hbase
    · -- the first zero of a run
      refine ih (hbest.append [w]) fun base hbase => ⟨seen, ?_, Option.some.inj hbase⟩
      rw [hw]
      rfl
    · -- another zero
      refine ih (hbest.append [w]) fun base hbase => ?_
      obtain ⟨pre, hseen, hlen⟩ := hcur base hbase
      refine ⟨pre, ?_, hlen⟩
      rw [hseen, hw, List.replicate_succ', List.append_assoc]
    · -- the word behind a run
      exact ih ((hbest.longer hcur.zeros).append [w]) (.of_none rfl _)
    · exact ih (hbest.append [w]) (.of_none (not_not.mp hbase) _)

/-- **`::` stands for at least two words, and all of them are zero.** -/
theorem bestRun_spec (words : List ℕ) : (bestRun words).Zeros words ∧
    ∀ base ∈ (bestRun words).base, 2 ≤ (bestRun words).len := by
  have hloop : (bestLoop words 0 ⟨none, 0⟩ ⟨none, 0⟩).1.Zeros words ∧
      (bestLoop words 0 ⟨none, 0⟩ ⟨none, 0⟩).2.Zeros words :=
    bestLoop_zeros words (Run.Open.of_none rfl []).zeros (Run.Open.of_none rfl [])
  rw [bestRun]
  generalize bestLoop words 0 ⟨none, 0⟩ ⟨none, 0⟩ = runs at hloop ⊢
  have hbest : (if runs.2.base ≠ none then runs.1.longer runs.2 else runs.1).Zeros words := by
    split_ifs
    · exact hloop.1.longer hloop.2
    · exact hloop.1
  generalize (if runs.2.base ≠ none then runs.1.longer runs.2 else runs.1) = best at hbest ⊢
  split_ifs with hshort
  · exact ⟨(Run.Open.of_none rfl words).zeros, fun base hbase => by cases hbase⟩
  · refine ⟨hbest, fun base hbase => ?_⟩
    by_contra hlt
    exact hshort ⟨by rw [hbase]; exact Option.some_ne_none base, not_le.mp hlt⟩

end BestRun

/-! ### The forms of a text -/

/-- Words with a colon in front of each. -/
def colonWords (words : List ℕ) : List Char := words.flatMap fun w => ':' :: Nat.toDigits 16 w

/-- Words with a colon between them. -/
def joinedWords : List ℕ → List Char
  | [] => []
  | w :: words => Nat.toDigits 16 w ++ colonWords words

/-- What comes behind the first colon of `::`. -/
def behindGap : List ℕ → List Char
  | [] => [':']
  | w :: words => colonWords (w :: words)

/-- The texts that stand for the words of an address: all of them, or `::` for some zeros, or an IPv4 address
behind the zeros at the beginning. -/
inductive TextForm : List ℕ → List Char → Prop
  | full (words : List ℕ) : TextForm words (joinedWords words)
  | gap (pre : List ℕ) (n : ℕ) (post : List ℕ) (h : 0 < n) :
    TextForm (pre ++ List.replicate n 0 ++ post) (joinedWords pre ++ ':' :: behindGap post)
  | encapsulated (n : ℕ) (mid : List ℕ) (a b c d : UInt8) (h : 0 < n) :
    TextForm (List.replicate n 0 ++ mid ++ inetWords [a, b, c, d])
      (':' :: (colonWords mid ++ ':' :: dotted a b c d))

section Format

variable {src : List UInt8} {words : List ℕ} {best : Run}

/-- Outside of the run and in front of an encapsulated address every word is printed behind a colon. -/
theorem formatLoop_outside (ws rest : List ℕ) {i : ℕ} (hi : i ≠ 0) (tmp : List Char)
    (hout : ∀ j, i ≤ j → j < i + ws.length → ¬ best.Covers j ∧ ¬ Encapsulated words best j) :
    formatLoop src words best (ws ++ rest) i tmp =
      formatLoop src words best rest (i + ws.length) (tmp ++ colonWords ws) := by
  induction ws generalizing i tmp with
  | nil => simp [colonWords]
  | cons w ws ih =>
    obtain ⟨hcovers, henc⟩ := hout i (le_refl i) (by simp)
    have hrest (j : ℕ) (hle : i + 1 ≤ j) (hlt : j < i + 1 + ws.length) :=
      hout j (by omega) (by rw [List.length_cons]; omega)
    rw [List.cons_append, formatLoop]
    simp only [hcovers, henc, hi, if_false, ne_eq, not_false_eq_true, if_true]
    rw [ih (show i + 1 ≠ 0 by omega) _ hrest, List.length_cons, add_assoc, add_comm 1 ws.length]
    simp [colonWords]

/-- The first word has no colon in front of it. -/
theorem formatLoop_joined (src : List UInt8) (ws rest : List ℕ)
    (hout : ∀ j < ws.length, ¬ best.Covers j ∧ ¬ Encapsulated words best j) :
    formatLoop src words best (ws ++ rest) 0 [] =
      formatLoop src words best rest ws.length (joinedWords ws) := by
  cases ws with
  | nil => rfl
  | cons w ws =>
    obtain ⟨hcovers, henc⟩ := hout 0 (by simp)
    have hrest (j : ℕ) (_ : 1 ≤ j) (hlt : j < 1 + ws.length) :=
      hout j (by rw [List.length_cons]; omega)
    rw [List.cons_append, formatLoop]
    simp only [hcovers, henc, if_false, ne_eq, not_true_eq_false]
    rw [zero_add, formatLoop_outside ws rest one_ne_zero _ hrest, List.length_cons, add_comm 1 ws.length]
    rfl

/-- Behind its first word the run prints nothing. -/
theorem formatLoop_covered {base : ℕ} (hbase : best.base = some base) (ws rest : List ℕ) {i : ℕ}
    (hlow : base < i) (hhigh : i + ws.length ≤ base + best.len) (tmp : List Char) :
    formatLoop src words best (ws ++ rest) i tmp =
      formatLoop src words best rest (i + ws.length) tmp := by
  induction ws generalizing i with
  | nil => rfl
  | cons w ws ih =>
    rw [List.length_cons] at hhigh
    have hcovers : best.Covers i := ⟨base, hbase, hlow.le, by omega⟩
    have hne : best.base ≠ some i := by
      rw [hbase]
      intro heq
      exact hlow.ne (Option.some.inj heq)
    rw [List.cons_append, formatLoop]
    simp only [hcovers, hne, if_true, if_false]
    rw [ih (by omega) (by omega), List.length_cons, add_assoc, add_comm 1 ws.length]

/-- The run prints a colon. -/
theorem formatLoop_gap {base : ℕ} (hbase : best.base = some base) (hlen : 0 < best.len)
    (rest : List ℕ) (tmp : List Char) :
    formatLoop src words best (List.replicate best.len 0 ++ rest) base tmp =
      formatLoop src words best rest (base + best.len) (tmp ++ [':']) := by
  obtain ⟨n, hn⟩ := Nat.exists_eq_succ_of_ne_zero hlen.ne'
  have hcovers : best.Covers base := ⟨base, hbase, le_refl base, by omega⟩
  have hreach : base + 1 + (List.replicate n 0).length = base + best.len := by
    rw [List.length_replicate]
    omega
  rw [hn, List.replicate_succ, List.cons_append, formatLoop]
  simp only [hcovers, hbase, if_true]
  rw [formatLoop_covered hbase _ rest (Nat.lt_succ_self base) hreach.le, hreach, hn]

/-- The numeral of a word has at most four digits. -/
theorem length_toDigits_word {w : ℕ} (hw : w < 65536) : (Nat.toDigits 16 w).length ≤ 4 := by
  rw [Nat.length_toDigits_le_iff (by decide) (by decide)]
  exact hw

/-- A word behind its colon takes at most five characters. -/
theorem length_colonWords {ws : List ℕ} (hws : ∀ w ∈ ws, w < 65536) :
    (colonWords ws).length ≤ 5 * ws.length := by
  induction ws with
  | nil => rfl
  | cons w ws ih =>
    have hw := length_toDigits_word (hws w List.mem_cons_self)
    have hrest := ih fun v hv => hws v (List.mem_cons_of_mem w hv)
    rw [colonWords] at hrest ⊢
    rw [List.flatMap_cons, List.length_append, List.length_cons, List.length_cons]
    omega

/-- With a run of zeros that is not followed by an encapsulated address, `inet_ntop6` prints the words in front
of it and behind it. -/
theorem formatLoop_pre_post (src : List UInt8) {pre : List ℕ} (post : List ℕ)
    (hbase : best.base = some pre.length) (hlen : 0 < best.len)
    (henc : ¬(Encapsulated words best 6 ∧ pre.length + best.len ≤ 6)) :
    formatLoop src words best (pre ++ List.replicate best.len 0 ++ post) 0 [] =
      .ok (joinedWords pre ++ [':'] ++ colonWords post) := by
  have hcovers (j : ℕ) : best.Covers j ↔ pre.length ≤ j ∧ j < pre.length + best.len := by
    simp [Run.Covers, hbase]
  have hpre (j : ℕ) (hj : j < pre.length) : ¬ best.Covers j ∧ ¬ Encapsulated words best j := by
    refine ⟨by rw [hcovers]; omega, fun h => ?_⟩
    have hzero := Option.some.inj (hbase.symm.trans h.2.1)
    omega
  have hpost (j : ℕ) (hlow : pre.length + best.len ≤ j) (_ : j < pre.length + best.len + post.length) :
      ¬ best.Covers j ∧ ¬ Encapsulated words best j := by
    refine ⟨by rw [hcovers]; omega, fun h => henc ⟨?_, by have := h.1; omega⟩⟩
    rwa [← h.1]
  rw [List.append_assoc, formatLoop_joined src pre _ hpre, formatLoop_gap hbase hlen,
    ← List.append_nil post, formatLoop_outside post [] (by omega) _ hpost, List.append_nil, formatLoop]

/-- In front of an encapsulated address it prints the words between the zeros and the address. -/
theorem formatLoop_encapsulated {mid : List ℕ} {a b c d : UInt8} (hbase : best.base = some 0)
    (hlen : 0 < best.len) (hmid : best.len + mid.length = 6) (henc : Encapsulated words best 6)
    (hlt : ∀ w ∈ mid, w < 65536) (hdrop : src.drop 12 = [a, b, c, d]) :
    formatLoop src words best (List.replicate best.len 0 ++ (mid ++ inetWords [a, b, c, d])) 0 [] =
      .ok (':' :: (colonWords mid ++ ':' :: dotted a b c d)) := by
  have hshort := length_colonWords hlt
  have hcovers (j : ℕ) : best.Covers j ↔ j < best.len := by
    simp [Run.Covers, hbase]
  have hout (j : ℕ) (hlow : 0 + best.len ≤ j) (hj : j < 0 + best.len + mid.length) :
      ¬ best.Covers j ∧ ¬ Encapsulated words best j := by
    refine ⟨by rw [hcovers]; omega, fun h => ?_⟩
    have hsix := h.1
    omega
  have hreach : 0 + best.len + mid.length = 6 := by omega
  have hsix : ¬ best.Covers 6 := by
    rw [hcovers]
    omega
  rw [formatLoop_gap hbase hlen, formatLoop_outside mid _ (by omega) _ hout, hreach, inetWords, formatLoop]
  simp only [hsix, henc, if_true, if_false, hdrop, ne_eq, OfNat.ofNat_ne_zero, not_false_eq_true]
  rw [inetNtop4_eq]
  · simp
  · have hfive : mid.length ≤ 5 := by omega
    simp only [List.length_append, List.length_nil, List.length_singleton, inet6Addrstrlen]
    omega

/-- Without a run of zeros all words are printed. -/
theorem formatLoop_full (src : List UInt8) (hbase : best.base = none) :
    formatLoop src words best words 0 [] = .ok (joinedWords words) := by
  have hout (j : ℕ) (_ : j < words.length) : ¬ best.Covers j ∧ ¬ Encapsulated words best j := by
    simp [Run.Covers, Encapsulated, hbase]
  have hloop := formatLoop_joined src words [] hout
  rwa [List.append_nil] at hloop

/-- The zeros are the first words and the address is the last two. -/
theorem formatLoop_address {post : List ℕ} (hsplit : words = List.replicate best.len 0 ++ post)
    (hlt : ∀ w ∈ words, w < 65536) (hbase : best.base = some 0) (hlen : 0 < best.len)
    (hcount : best.len + post.length = 8) (henc : Encapsulated words best 6) (hsix : best.len ≤ 6)
    {a b c d : UInt8} (hdrop : src.drop 12 = [a, b, c, d])
    (hlast : words.drop 6 = inetWords [a, b, c, d]) :
    ∃ tmp, formatLoop src words best words 0 [] = .ok tmp ∧ TextForm words tmp := by
  have hhead : (List.replicate best.len 0).drop 6 = [] :=
    List.drop_eq_nil_of_le (by rw [List.length_replicate]; exact hsix)
  have hpost : post.drop (6 - best.len) = inetWords [a, b, c, d] := by
    rw [← hlast, hsplit, List.drop_append, hhead, List.length_replicate, List.nil_append]
  have hmid : (post.take (6 - best.len)).length = 6 - best.len := by
    rw [List.length_take]
    omega
  have hjoin : post = post.take (6 - best.len) ++ inetWords [a, b, c, d] := by
    rw [← hpost, List.take_append_drop]
  have hsmall (w : ℕ) (hw : w ∈ post.take (6 - best.len)) : w < 65536 := by
    refine hlt w ?_
    rw [hsplit]
    exact List.mem_append_right _ (List.mem_of_mem_take hw)
  have hloop := formatLoop_encapsulated hbase hlen (by omega) henc hsmall hdrop
  rw [← hjoin, ← hsplit] at hloop
  have hform := TextForm.encapsulated best.len (post.take (6 - best.len)) a b c d hlen
  rw [List.append_assoc, ← hjoin, ← hsplit] at hform
  exact ⟨_, hloop, hform⟩

/-- The zeros are left out, and a colon is put behind them where nothing follows. -/
theorem formatLoop_zeros (src : List UInt8) {pre post : List ℕ}
    (hsplit : words = pre ++ List.replicate best.len 0 ++ post) (hbase : best.base = some pre.length)
    (hlen : 0 < best.len) (henc : ¬(Encapsulated words best 6 ∧ pre.length + best.len ≤ 6)) :
    ∃ tmp, formatLoop src words best words 0 [] = .ok tmp ∧
      TextForm words (if post = [] then tmp ++ [':'] else tmp) := by
  have hloop := formatLoop_pre_post src post hbase hlen henc
  rw [← hsplit] at hloop
  refine ⟨_, hloop, ?_⟩
  have hform := TextForm.gap pre best.len post hlen
  rw [← hsplit] at hform
  cases post with
  | nil =>
    rw [if_pos rfl]
    simpa [behindGap, colonWords] using hform
  | cons w post =>
    rw [if_neg (List.cons_ne_nil w post)]
    simpa [behindGap] using hform

/-- What is printed for a run of zeros is a text form, in each of the cases of `inet_ntop6`. -/
theorem formatLoop_textForm (hwords : words.length = 8) (hlt : ∀ w ∈ words, w < 65536)
    (hzeros : best.Zeros words) (hlong : ∀ base ∈ best.base, 2 ≤ best.len) {a b c d : UInt8}
    (hdrop : src.drop 12 = [a, b, c, d]) (hlast : words.drop 6 = inetWords [a, b, c, d]) :
    ∃ tmp, formatLoop src words best words 0 [] = .ok tmp ∧
      TextForm words (if best.EndsAt 8 then tmp ++ [':'] else tmp) := by
  cases hbase : best.base with
  | none =>
    have hends : ¬ best.EndsAt 8 := by simp [Run.EndsAt, hbase]
    refine ⟨joinedWords words, formatLoop_full src hbase, ?_⟩
    rw [if_neg hends]
    exact .full words
  | some base =>
    obtain ⟨pre, post, hsplit, rfl⟩ := hzeros base hbase
    have hlen : 0 < best.len := by
      have := hlong _ hbase
      omega
    have hcount : pre.length + best.len + post.length = 8 := by
      rw [← hwords, hsplit]
      simp [add_assoc]
    have hends : best.EndsAt 8 ↔ post = [] := by
      have hnil : post = [] ↔ post.length = 0 := List.length_eq_zero_iff.symm
      simp only [Run.EndsAt, hbase, Option.mem_def, Option.some.injEq, exists_eq_left', hnil]
      omega
    simp only [hends]
    by_cases henc : Encapsulated words best 6 ∧ pre.length + best.len ≤ 6
    · obtain ⟨henc, hsix⟩ := henc
      have hpre : pre = [] := List.length_eq_zero_iff.mp (Option.some.inj (hbase.symm.trans henc.2.1))
      subst hpre
      simp only [List.length_nil, zero_add, List.nil_append] at hsix hcount hbase hsplit
      obtain ⟨tmp, hloop, hform⟩ :=
        formatLoop_address hsplit hlt hbase hlen hcount henc hsix hdrop hlast
      refine ⟨tmp, hloop, ?_⟩
      rwa [if_neg (by rintro rfl; rw [List.length_nil] at hcount; omega)]
    · exact formatLoop_zeros src hsplit hbase hlen henc

/-- **`inet_ntop6` prints a text form of the address**, whatever the buffer, or finds that it has no room. -/
theorem inetNtop6_textForm {src : List UInt8} (hsrc : src.length = 16) :
    ∃ text, TextForm (inetWords src) text ∧
      ∀ size, inetNtop6 src size = if text.length + 1 > size then .error .enospc else .ok text := by
  obtain ⟨hwords, -, hlt⟩ := inetWords_spec 8 src hsrc
  obtain ⟨hzeros, hlong⟩ := bestRun_spec (inetWords src)
  have hfour : (src.drop 12).length = 4 := by rw [List.length_drop, hsrc]
  obtain ⟨a, b, c, d, hdrop⟩ := List.length_eq_four.mp hfour
  have hlast : (inetWords src).drop 6 = inetWords [a, b, c, d] := by
    have hfront : (src.take 12).length = 2 * 6 := by rw [List.length_take, hsrc]; rfl
    have hsplit := inetWords_append 6 (src.take 12) (src.drop 12) hfront
    rw [List.take_append_drop] at hsplit
    rw [hsplit, hdrop, List.drop_left' (inetWords_spec 6 _ hfront).1]
  obtain ⟨tmp, hloop, hform⟩ := formatLoop_textForm hwords hlt hzeros hlong hdrop hlast
  refine ⟨_, hform, fun size => ?_⟩
  rw [inetNtop6]
  simp only [hloop]

end Format

end MyUvpp
