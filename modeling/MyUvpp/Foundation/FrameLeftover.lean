import MyUvpp.Foundation.FrameScan

/-! # Leftovers in front of a stream

A decoder that has stopped holds a leftover: elements without a complete frame among them. Put in front
of another stream, a leftover either drops out of its scan or does not, whatever that stream is: it
drops out for every stream if and only if none of its head elements may still become the start of a
frame (`Framing.Live`). -/

namespace MyUvpp

namespace Framing

variable {α β : Type*}

/-- The elements `s` behind a head element may still become part of a frame: with some continuation
they hold an acceptable header and end before the tail element. -/
def Completable (F : Framing α β) (s : List α) : Prop :=
  ∃ u h n, F.headerLen ≤ (s ++ u).length ∧ F.header ((s ++ u).take F.headerLen) = some (h, n) ∧
    s.length ≤ F.headerLen + n

/-- A head element of the leftover may still become the start of a frame. -/
def Live (F : Framing α β) : List α → Prop
  | [] => False
  | b :: s => (F.isHead b = true ∧ F.Completable s) ∨ F.Live s

variable {F : Framing α β}

/-- A complete header with an incomplete payload. -/
theorem completable_of_header {s : List α} {h : β} {n : ℕ} (hs : F.headerLen ≤ s.length)
    (hh : F.header (s.take F.headerLen) = some (h, n)) (hn : s.length ≤ F.headerLen + n) :
    F.Completable s :=
  ⟨[], h, n, by rwa [List.append_nil], by rwa [List.append_nil], hn⟩

/-- A head element that cannot start a frame, in front of a leftover: it is dropped as soon as a frame
may follow it. -/
theorem verdict_of_not_completable {b : α} {s : List α} (hr : F.scan (b :: s) = [])
    (hb : ¬ (F.isHead b = true ∧ F.Completable s)) :
    F.scan s = [] ∧ ∀ t, F.verdict b (s ++ t) = .skip ∨ (s ++ t).length < F.headerLen := by
  by_cases hhead : F.isHead b = true
  swap
  · -- no head element at all
    have hnot : F.isHead b = false := by simpa using hhead
    rw [scan, verdict_of_not_head s hnot] at hr
    exact ⟨hr, fun t => .inl (verdict_of_not_head _ hnot)⟩
  have hdead : ¬ F.Completable s := fun hc => hb ⟨hhead, hc⟩
  rcases lt_or_ge s.length F.headerLen with hshort | hlong
  · -- the header is not complete yet, and never becomes acceptable
    refine ⟨scan_of_short (by omega), fun t => ?_⟩
    rcases lt_or_ge (s ++ t).length F.headerLen with hlt | hge
    · exact .inr hlt
    · refine .inl (verdict_of_header_none hge ?_)
      cases hh : F.header ((s ++ t).take F.headerLen) with
      | none => rfl
      | some hn => exact absurd ⟨t, hn.1, hn.2, hge, hh, by omega⟩ hdead
  · cases hv : F.verdict b s with
    | skip =>
      rw [scan, hv] at hr
      refine ⟨hr, fun t => .inl ?_⟩
      rw [verdict_append t (by simp [hv]), hv]
    | emit h n =>
      rw [scan, hv] at hr
      cases hr
    | stop =>
      -- the payload is not complete
      exfalso
      cases hh : F.header (s.take F.headerLen) with
      | none =>
        rw [verdict_of_header_none hlong hh] at hv
        cases hv
      | some hn =>
        obtain ⟨h, n⟩ := hn
        refine hdead (completable_of_header hlong hh ?_)
        by_contra hlt
        rw [verdict_of_header_some hhead hlong hh,
          List.getElem?_eq_getElem (by rw [List.length_drop]; omega)] at hv
        simp only at hv
        split at hv <;> cases hv

/-- A leftover that is not live drops out of every scan. -/
theorem scan_append_of_not_live {r : List α} (hr : F.scan r = []) (hlive : ¬ F.Live r) (t : List α) :
    F.scan (r ++ t) = F.scan t := by
  induction r with
  | nil => rfl
  | cons b s ih =>
    obtain ⟨hb, hs⟩ := not_or.mp hlive
    obtain ⟨hscan, hverdict⟩ := verdict_of_not_completable hr hb
    rcases hverdict t with hskip | hshort
    · rw [List.cons_append, scan, hskip]
      exact ih hscan hs
    · -- too short a stream has no frame, with or without the leftover
      rw [List.length_append] at hshort
      rw [scan_of_short (by rw [List.length_append, List.length_cons]; omega),
        scan_of_short (by omega)]

/-- An emitted frame is not longer than the stream. -/
theorem length_of_mem_scan {u : List α} {f : β × List α} (hf : f ∈ F.scan u) :
    F.headerLen + 2 + f.2.length ≤ u.length := by
  induction u using scan.induct F with
  | case1 =>
    rw [scan] at hf
    cases hf
  | case2 b s hv ih =>
    rw [scan, hv] at hf
    have := ih hf
    rw [List.length_cons]
    omega
  | case3 b s hv =>
    rw [scan, hv] at hf
    cases hf
  | case4 b s h n hv ih =>
    have hlen := (verdict_eq_emit hv).2.2.1
    rw [scan, hv] at hf
    rw [List.length_cons]
    rcases List.mem_cons.mp hf with rfl | hf
    · simp only [payload, List.length_take]
      omega
    · have := ih hf
      rw [rest, List.length_drop] at this
      omega

/-- A completable header can be completed to the end of its payload. -/
theorem exists_payload_of_completable (x : α) {s : List α} (hs : F.Completable s) :
    ∃ v hdr body h n, s ++ v = hdr ++ body ∧ hdr.length = F.headerLen ∧
      F.header hdr = some (h, n) ∧ body.length = n ∧ v.length = F.headerLen + n - s.length := by
  obtain ⟨u, h, n, hlen, hh, hle⟩ := hs
  -- the continuation, filled up and cut to the right length
  let long := u ++ List.replicate (F.headerLen + n) x
  let v := long.take (F.headerLen + n - s.length)
  have hlong : F.headerLen + n ≤ long.length := by
    rw [List.length_append, List.length_replicate]
    omega
  have hv : v.length = F.headerLen + n - s.length := by
    rw [List.length_take]
    omega
  have hfull : s ++ v = (s ++ long).take (F.headerLen + n) := by
    rw [List.take_append, List.take_of_length_le hle]
  have hhdr : (s ++ v).take F.headerLen = (s ++ u).take F.headerLen := by
    rw [hfull, List.take_take, Nat.min_eq_left (Nat.le_add_right _ _), ← List.append_assoc,
      List.take_append_of_le_length hlen]
  have hsv : (s ++ v).length = F.headerLen + n := by
    rw [List.length_append, hv]
    omega
  refine ⟨v, (s ++ v).take F.headerLen, (s ++ v).drop F.headerLen, h, n,
    (List.take_append_drop _ _).symm, ?_, hhdr ▸ hh, ?_, hv⟩
  · rw [List.length_take]
    omega
  · rw [List.length_drop]
    omega

/-- A live leftover makes a frame with a stream that is too short for that frame. -/
theorem exists_frame_of_live {x : α} (hx : F.isTail x = true) {r : List α} (hr : F.scan r = [])
    (hlive : F.Live r) :
    ∃ t f, F.scan (r ++ t) = [f] ∧ t.length < F.headerLen + 2 + f.2.length := by
  induction r with
  | nil => exact hlive.elim
  | cons b s ih =>
    by_cases hb : F.isHead b = true ∧ F.Completable s
    · -- complete the frame of the first head element that is live
      obtain ⟨v, hdr, body, h, n, hsv, hhdr, hh, hbody, hv⟩ := exists_payload_of_completable x hb.2
      refine ⟨v ++ [x], (h, body), ?_, ?_⟩
      · rw [List.cons_append, ← List.append_assoc, hsv, List.append_assoc]
        have hred := reduces_frame hb.1 hhdr hh hbody hx (r := [])
        rw [hred.scan_eq, scan, List.append_nil]
      · rw [List.length_append, List.length_singleton, hv, hbody]
        omega
    · obtain ⟨hscan, hverdict⟩ := verdict_of_not_completable hr hb
      obtain ⟨t, f, hframe, hlen⟩ := ih hscan (hlive.resolve_left hb)
      refine ⟨t, f, ?_, hlen⟩
      rcases hverdict t with hskip | hshort
      · rw [List.cons_append, scan, hskip]
        exact hframe
      · rw [scan_of_short (by omega)] at hframe
        cases hframe

/-- **A leftover drops out of the scan of every stream behind it if and only if it is not live.** -/
theorem scan_append_eq_iff {x : α} (hx : F.isTail x = true) {r : List α} (hr : F.scan r = []) :
    (∀ t, F.scan (r ++ t) = F.scan t) ↔ ¬ F.Live r := by
  refine ⟨fun h hlive => ?_, scan_append_of_not_live hr⟩
  -- the stream is shorter than the frame, so that without the leftover it cannot have it
  obtain ⟨t, f, hframe, hlen⟩ := exists_frame_of_live hx hr hlive
  have hf : f ∈ F.scan t := by
    rw [← h t, hframe]
    exact List.mem_singleton_self f
  exact absurd (length_of_mem_scan hf) (by omega)

/-- Without a tail element there are no frames. -/
theorem scan_eq_nil_of_no_tail (hno : ∀ x, F.isTail x = false) (u : List α) : F.scan u = [] := by
  induction u using scan.induct F with
  | case1 => rw [scan]
  | case2 b s hv ih =>
    rw [scan, hv]
    exact ih
  | case3 b s hv => rw [scan, hv]
  | case4 b s h n hv ih =>
    obtain ⟨-, -, -, t, -, ht⟩ := verdict_eq_emit hv
    cases (hno t).symm.trans ht

end Framing

end MyUvpp
