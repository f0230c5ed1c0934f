import MyUvpp.Foundation.FrameLeftover
import MyUvpp.Packet.PacketSyncRefinement

/-! # A decoder that is used again

`SetPacketCB` and `Start` set the callback and the bytes `HEAD` and `TAIL` of a decoder, and nothing
else: what an earlier stream has left pending stays in front of the next one. It is harmless exactly
when no head byte among it can still become the start of a frame. -/

namespace MyUvpp

namespace PacketSync

/-- A decoder between two calls, with its callback and the bytes `HEAD` and `TAIL` set. -/
structure Started (host : Host) (head tail : UInt8) (p : PacketSync) : Prop
    extends p.Suspended host where
  callback : p.packetCb = true
  head_eq : p.head = head
  tail_eq : p.tail = tail

/-- A decoder that may be started: a new one, or one that was used with the same bytes before. -/
structure Startable (host : Host) (head tail : UInt8) (p : PacketSync) : Prop
    extends p.Suspended host where
  bytes_eq : p.parsetype = .parseHead → p.head = head ∧ p.tail = tail

variable {host : Host} {head tail : UInt8} {p : PacketSync}

/-- A decoder that has been started can be started again with the same bytes. -/
theorem Started.startable (h : p.Started host head tail) : p.Startable host head tail :=
  ⟨h.toSuspended, fun _ => ⟨h.head_eq, h.tail_eq⟩⟩

/-- Its framing is the one of the bytes it was started with. -/
theorem Started.framing_eq (h : p.Started host head tail) :
    p.framing host = decoderFraming host head tail := by
  rw [framing, h.head_eq, h.tail_eq]

/-- Without a frame under way the bytes `HEAD` and `TAIL` do not matter. -/
theorem startable_of_parseNothing (h : p.Suspended host) (hp : p.parsetype = .parseNothing) :
    p.Startable host head tail :=
  ⟨h, fun hhead => by cases hp.symm.trans hhead⟩

/-- A new decoder can be started. -/
theorem startable_new (host : Host) (u : Indeterminate) (head tail : UInt8) :
    (newPacketSync u).Startable host head tail := by
  refine startable_of_parseNothing ?_ rfl
  have h := suspended_start host u head tail
  exact ⟨⟨⟨h.size_le, h.nonneg, h.le_len, h.packet_size⟩, nofun⟩, nofun, h.short⟩

/-- **Starting a decoder.** -/
theorem Startable.start (h : p.Startable host head tail) :
    (p.setPacketCB.start head tail).Started host head tail := by
  refine ⟨⟨⟨⟨h.size_le, h.nonneg, h.le_len, h.packet_size⟩, fun hp => ?_⟩, h.incomplete, h.short⟩,
    rfl, rfl, rfl⟩
  obtain ⟨rfl, rfl⟩ := h.bytes_eq hp
  have hf := h.frame hp
  exact ⟨hf.headpos_nonneg, hf.header_le, hf.head_eq, hf.packet_eq, hf.good, hf.got_nonneg,
    hf.got_le, hf.le_got, hf.fits, hf.copied⟩

/-- `SetPacketCB` and `Start` leave the pending bytes. -/
theorem pending_setPacketCB_start (p : PacketSync) (head tail : UInt8) :
    (p.setPacketCB.start head tail).pending = p.pending := rfl

/-- Starting a decoder again changes nothing. -/
theorem Started.restart (h : p.Started host head tail) : p.setPacketCB.start head tail = p := by
  obtain ⟨rfl, rfl, hcb⟩ := And.intro h.head_eq (And.intro h.tail_eq h.callback)
  rw [setPacketCB, ← hcb]
  rfl

/-- A call of `recvdata` leaves the decoder started and reduces its pending bytes and the input. -/
theorem Started.recvdata (h : p.Started host head tail) (data : List UInt8) :
    ∃ p' log, MyUvpp.recvdata host p data = some (p', log) ∧ p'.Started host head tail ∧
      (decoderFraming host head tail).Reduces (p.pending ++ data) (frames log) p'.pending := by
  obtain ⟨p', log, hrun, hsus, hcb, hhead, htail, hred⟩ :=
    recvdata_spec h.toSuspended h.callback data
  exact ⟨p', log, hrun, ⟨hsus, hcb, hhead.trans h.head_eq, htail.trans h.tail_eq⟩,
    h.framing_eq ▸ hred⟩

/-- The pending bytes of a started decoder hold no complete frame. -/
theorem Started.scan_pending (h : p.Started host head tail) :
    (decoderFraming host head tail).scan p.pending = [] :=
  h.framing_eq ▸ PacketSync.scan_pending h.toSuspended

end PacketSync

/-- The frames that a freshly constructed and started decoder delivers. -/
def freshFrames (host : Host) (head tail : UInt8) (chunks : List (List UInt8)) :
    Option (List (NetPacket × List UInt8)) :=
  (recvChunks host ((newPacketSync default).setPacketCB.start head tail) chunks).map fun (_, log) =>
    frames log

section Leftover

variable {host : Host} {head tail : UInt8}

/-- A fresh decoder delivers the frames of the scan. -/
theorem freshFrames_eq (host : Host) (head tail : UInt8) (chunks : List (List UInt8)) :
    freshFrames host head tail chunks =
      some ((decoderFraming host head tail).scan chunks.flatten) := by
  have hstart := (PacketSync.startable_new host default head tail).start
  obtain ⟨p, log, hrun, -, -, -, hframes⟩ :=
    recvChunks_scan hstart.toSuspended hstart.callback chunks
  rw [hstart.framing_eq, PacketSync.pending_start, List.nil_append] at hframes
  rw [freshFrames, hrun, ← hframes]
  rfl

/-- Above 127 no byte compares equal to `TAIL`. -/
theorem isTail_eq_false (host : Host) (head : UInt8) (htail : 128 ≤ tail.toNat) (b : UInt8) :
    (decoderFraming host head tail).isTail b = false := by
  have hb := b.toNat_lt
  rw [decoderFraming, beq_eq_false_iff_ne, charToInt]
  split <;> omega

/-- Below 128 the tail byte is recognised, since as a `char` it is not negative. -/
theorem isTail_self (host : Host) (head : UInt8) (htail : tail.toNat < 128) :
    (decoderFraming host head tail).isTail tail = true := by
  rw [decoderFraming_eq_wireFraming host head htail]
  exact beq_self_eq_true tail

/-! ### The bytes that can still become a frame -/

/-- Whether the bytes behind a head byte can still become the header and the payload of a frame: those
that are there of bytes 4 and 5 are `HEAD` and `TAIL`, the payload length is not negative as far as it
is there, and no more bytes follow than it announces. -/
def mayBecomeFrame (host : Host) (head tail : UInt8) (s : List UInt8) : Bool :=
  s[4]?.all (· == head) && s[5]?.all (· == tail) &&
    s[26 + signByte host]?.all (decide <| ·.toNat < 128) &&
    (s.length < netPackageHeadlen ||
      s.length ≤ netPackageHeadlen +
        (charToNetPacket host (s.take netPackageHeadlen)).datalen.toInt.toNat)

/-- Whether some head byte of a leftover can still become the start of a frame. -/
def mayStartFrame (host : Host) (head tail : UInt8) : List UInt8 → Bool
  | [] => false
  | b :: s => (b == head && mayBecomeFrame host head tail s) || mayStartFrame host head tail s

/-- An acceptable header, byte by byte. -/
theorem header_eq_some_iff (bytes : List UInt8) (h : NetPacket) (n : ℕ) :
    (decoderFraming host head tail).header bytes = some (h, n) ↔
      (bytes.getD 4 0 = head ∧ bytes.getD 5 0 = tail ∧
        (bytes.getD (26 + signByte host) 0).toNat < 128) ∧
      h = charToNetPacket host bytes ∧ n = (charToNetPacket host bytes).datalen.toInt.toNat := by
  have hsign : 0 ≤ (charToNetPacket host bytes).datalen.toInt ↔
      (bytes.getD (26 + signByte host) 0).toNat < 128 := by
    have hdrop : (bytes.drop 26).getD (signByte host) 0 = bytes.getD (26 + signByte host) 0 := by
      rw [List.getD_eq_getElem?_getD, List.getElem?_drop, ← List.getD_eq_getElem?_getD]
    rw [← hdrop]
    exact charToInt32_nonneg_iff host (bytes.drop 26)
  rw [← hsign]
  simp only [decoderFraming]
  split
  case isTrue hbad =>
    simp only [Bool.or_eq_true, decide_eq_true_eq] at hbad
    refine iff_of_false (fun heq => by cases heq) fun hgood => ?_
    rcases hbad with (hne | hne) | hneg
    · exact hne hgood.1.1
    · exact hne hgood.1.2.1
    · omega
  case isFalse hgood =>
    simp only [Bool.or_eq_true, decide_eq_true_eq, not_or, not_not, not_lt] at hgood
    rw [Option.some.injEq, Prod.mk.injEq]
    exact ⟨fun heq => ⟨⟨hgood.1.1, hgood.1.2, hgood.2⟩, heq.1.symm, heq.2.symm⟩,
      fun heq => ⟨heq.2.1.symm, heq.2.2.symm⟩⟩

/-- The bytes of a leftover are those of its completed header. -/
theorem all_getElem?_of_append {s u : List UInt8} {k : ℕ} (hk : k < netPackageHeadlen)
    {P : UInt8 → Bool} (hP : P (((s ++ u).take netPackageHeadlen).getD k 0) = true) :
    s[k]?.all P = true := by
  cases hs : s[k]? with
  | none => rfl
  | some b =>
    have happ : (s ++ u)[k]? = some b := by
      rw [List.getElem?_append_left (List.getElem?_eq_some_iff.mp hs).1, hs]
    rw [List.getD_eq_getElem?_getD, List.getElem?_take_of_lt hk, happ, Option.getD_some] at hP
    exact hP

/-- A byte of a leftover in front of other bytes, or one of these. -/
theorem getD_append_drop {s d : List UInt8} {k : ℕ} {P : UInt8 → Bool} (hs : s[k]?.all P = true)
    (hd : P (d.getD k 0) = true) : P ((s ++ d.drop s.length).getD k 0) = true := by
  rcases lt_or_ge k s.length with hlt | hge
  · rw [List.getElem?_eq_getElem hlt] at hs
    rw [List.getD_eq_getElem?_getD, List.getElem?_append_left hlt, List.getElem?_eq_getElem hlt]
    exact hs
  · rw [List.getD_append_right _ _ _ _ hge, List.getD_eq_getElem?_getD, List.getElem?_drop,
      Nat.add_sub_cancel' hge, ← List.getD_eq_getElem?_getD]
    exact hd

/-- **The bytes behind a head byte can become a frame** exactly when those that are there allow it. -/
theorem completable_iff (s : List UInt8) :
    (decoderFraming host head tail).Completable s ↔ mayBecomeFrame host head tail s = true := by
  have hsign : 26 + signByte host < netPackageHeadlen := by cases host <;> decide
  simp only [mayBecomeFrame, Bool.and_eq_true, Bool.or_eq_true, decide_eq_true_eq]
  constructor
  · rintro ⟨u, h, n, -, hheader, hle⟩
    obtain ⟨⟨hhead, htail, hnonneg⟩, -, rfl⟩ := (header_eq_some_iff _ h n).mp hheader
    refine ⟨⟨⟨all_getElem?_of_append (u := u) (by decide) (beq_iff_eq.mpr hhead),
      all_getElem?_of_append (u := u) (by decide) (beq_iff_eq.mpr htail)⟩,
      all_getElem?_of_append (u := u) hsign (decide_eq_true hnonneg)⟩, ?_⟩
    rcases lt_or_ge s.length netPackageHeadlen with hlt | hge
    · exact .inl hlt
    · rw [show (decoderFraming host head tail).headerLen = netPackageHeadlen from rfl,
        List.take_append_of_le_length hge] at hle
      exact .inr hle
  · rintro ⟨⟨⟨hhead, htail⟩, hnonneg⟩, hlen⟩
    -- what is missing of the header comes from one without payload
    let d : List UInt8 := List.replicate 4 0 ++ [head, tail] ++ List.replicate 28 0
    have hlong : netPackageHeadlen ≤ (s ++ d.drop s.length).length := by
      rw [List.length_append, List.length_drop]
      show netPackageHeadlen ≤ s.length + (netPackageHeadlen - s.length)
      omega
    have hbyte : ∀ k < netPackageHeadlen,
        ((s ++ d.drop s.length).take netPackageHeadlen).getD k 0 = (s ++ d.drop s.length).getD k 0 :=
      fun k hk => by
        rw [List.getD_eq_getElem?_getD, List.getElem?_take_of_lt hk, List.getD_eq_getElem?_getD]
    have hhead' := getD_append_drop (d := d) hhead (beq_self_eq_true head)
    have htail' := getD_append_drop (d := d) htail (beq_self_eq_true tail)
    have hnonneg' := getD_append_drop (d := d) hnonneg (by cases host <;> rfl)
    refine ⟨d.drop s.length, _, _, hlong, (header_eq_some_iff _ _ _).mpr ⟨⟨?_, ?_, ?_⟩, rfl, rfl⟩, ?_⟩
    · exact (hbyte 4 (by decide)).trans (beq_iff_eq.mp hhead')
    · exact (hbyte 5 (by decide)).trans (beq_iff_eq.mp htail')
    · exact (hbyte _ hsign) ▸ of_decide_eq_true hnonneg'
    · rcases lt_or_ge s.length netPackageHeadlen with hlt | hge
      · exact hlt.le.trans (Nat.le_add_right _ _)
      · have htake : (s ++ d.drop s.length).take netPackageHeadlen = s.take netPackageHeadlen :=
          List.take_append_of_le_length hge
        show s.length ≤ netPackageHeadlen + (charToNetPacket host
          ((s ++ d.drop s.length).take netPackageHeadlen)).datalen.toInt.toNat
        rw [htake]
        exact hlen.resolve_left (not_lt.mpr hge)

/-- A leftover is one that a frame may start in exactly when the predicate on its bytes says so. -/
theorem live_iff (r : List UInt8) :
    (decoderFraming host head tail).Live r ↔ mayStartFrame host head tail r = true := by
  induction r with
  | nil => simp [Framing.Live, mayStartFrame]
  | cons b s ih =>
    rw [Framing.Live, mayStartFrame, ih, completable_iff, Bool.or_eq_true, Bool.and_eq_true]
    rfl

/-- **The leftovers of an earlier stream.** They drop out of every stream behind them if and only if no
frame is ever accepted or none of their head bytes can still become the start of a frame. -/
theorem leftover_drops_iff {r : List UInt8}
    (hr : (decoderFraming host head tail).scan r = []) :
    (∀ t, (decoderFraming host head tail).scan (r ++ t) = (decoderFraming host head tail).scan t) ↔
      128 ≤ tail.toNat ∨ mayStartFrame host head tail r = false := by
  rcases lt_or_ge tail.toNat 128 with hlt | hge
  · rw [Framing.scan_append_eq_iff (isTail_self host head hlt) hr, live_iff, Bool.not_eq_true]
    exact ⟨.inr, fun h => h.resolve_left (by omega)⟩
  · refine iff_of_true (fun t => ?_) (.inl hge)
    have hno := isTail_eq_false host head hge
    rw [Framing.scan_eq_nil_of_no_tail hno, Framing.scan_eq_nil_of_no_tail hno]

end Leftover

end MyUvpp
