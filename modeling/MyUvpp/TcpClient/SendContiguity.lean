import MyUvpp.TcpClient.SendExactlyOnce
import Mathlib.Data.List.Perm.Basic

/-! # When the buffers of concurrent senders stay whole

`Send` gives up the mutex while a part of its buffer is still to be accepted. As long as no other call
gets bytes accepted in between, the accepted bytes are whole buffers, in the order in which the calls
were completed, and then the accepted part of at most one more. -/

namespace MyUvpp

/-- A part of the buffer has been accepted, and not all of it. -/
def SendCall.Midway (c : SendCall) : Prop := 0 < c.iret ∧ c.iret < c.data.length

/-- Whether a call of `Send` has written some of its bytes and not all can be decided. -/
instance (c : SendCall) : Decidable c.Midway := inferInstanceAs (Decidable (_ ∧ _))

namespace SendState

/-- The buffer of call number `i`. -/
def buffer (s : SendState) (i : ℕ) : List UInt8 := ((s.sends[i]?).map SendCall.data).getD []

/-- The condition on a step: a critical section of `Send` gets nothing accepted (the buffer is full, or
the converted count is not positive) while another call is midway. -/
def Uninterrupted (s : SendState) : SendEvent → Prop
  | .sendWrite i => ∀ c ∈ s.sends[i]?, 0 < c.count → s.writeCircularbuf.full = false →
      ∀ j < s.sends.length, j ≠ i → ∀ d ∈ s.sends[j]?, ¬ d.Midway
  | _ => True

/-- Whether an event interrupts no call of `Send` can be decided. -/
instance (s : SendState) (e : SendEvent) : Decidable (s.Uninterrupted e) :=
  match e with
  | .sendWrite i => inferInstanceAs (Decidable (∀ c ∈ s.sends[i]?, 0 < c.count →
      s.writeCircularbuf.full = false →
        ∀ j < s.sends.length, j ≠ i → ∀ d ∈ s.sends[j]?, ¬ d.Midway))
  | .send _ | .sendCheck _ | .close | .asyncCB | .afterRecv | .afterSend _ _ | .drainRead _ _
  | .uvWrite _ => inferInstanceAs (Decidable True)

/-- The accepted bytes are the buffers of the completed calls and the accepted part of at most one
other. -/
structure Contiguous (s : SendState) : Prop where
  nodup : s.completed.Nodup
  mem_iff : ∀ i, i ∈ s.completed ↔
    ∃ c : SendCall, s.sends[i]? = some c ∧ c.data ≠ [] ∧ c.iret = c.data.length
  unique : ∀ (i j : ℕ) (c d : SendCall), s.sends[i]? = some c → s.sends[j]? = some d →
    c.Midway → d.Midway → i = j
  whole : ∃ rest, s.accepted = s.completed.flatMap s.buffer ++ rest ∧
    (∀ (i : ℕ) (c : SendCall), s.sends[i]? = some c → c.Midway → rest = c.data.take c.iret) ∧
    ((∀ (i : ℕ) (c : SendCall), s.sends[i]? = some c → ¬ c.Midway) → rest = [])
  /-- A call that has not returned has something left. -/
  unfinished : ∀ (i : ℕ) (c : SendCall), s.sends[i]? = some c →
    c.pc ≠ .returned → c.iret < c.data.length

/-- At first no call of `Send` has begun. -/
theorem contiguous_initial (pBuf : Mem UInt8) (heap : ℕ → WriteParam) :
    (initial pBuf heap).Contiguous where
  nodup := List.nodup_nil
  mem_iff i := by simp [initial]
  unique i j c d hc := by simp [initial] at hc
  whole := ⟨[], rfl, fun i c hc => by simp [initial] at hc, fun _ => rfl⟩
  unfinished i c hc := by simp [initial] at hc

variable {s s' : SendState}

/-- Only the calls and the record of what was accepted matter. -/
theorem Contiguous.congr (h : s.Contiguous) (hsends : s'.sends = s.sends)
    (haccepted : s'.accepted = s.accepted) (hcompleted : s'.completed = s.completed) :
    s'.Contiguous := by
  have hbuffer : s'.buffer = s.buffer := by
    funext i
    rw [buffer, buffer, hsends]
  constructor
  · rw [hcompleted]; exact h.nodup
  · rw [hcompleted, hsends]; exact h.mem_iff
  · rw [hsends]; exact h.unique
  · rw [haccepted, hcompleted, hsends, hbuffer]; exact h.whole
  · rw [hsends]; exact h.unfinished

/-- The calls after one of them has been replaced. -/
theorem getElem?_set_call {i : ℕ} {c c' : SendCall} (hc : s.sends[i]? = some c) (j : ℕ) :
    (s.sends.set i c')[j]? = if j = i then some c' else s.sends[j]? := by
  have hlt : i < s.sends.length := (List.getElem?_eq_some_iff.mp hc).1
  rw [List.getElem?_set]
  by_cases hji : j = i
  · rw [if_pos hji.symm, if_pos hji, if_pos hlt]
  · rw [if_neg (Ne.symm hji), if_neg hji]

/-- The buffer of a call does not change. -/
theorem buffer_set {i : ℕ} {c c' : SendCall} (hc : s.sends[i]? = some c) (hdata : c'.data = c.data)
    (j : ℕ) : buffer { s with sends := s.sends.set i c' } j = s.buffer j := by
  simp only [buffer, getElem?_set_call hc]
  split
  case isTrue heq => rw [heq, hc, Option.map_some, Option.map_some, hdata]
  case isFalse => rfl

/-- A new call has accepted nothing. -/
theorem Contiguous.send (h : s.Contiguous) (data : List UInt8) : (s.send data).Contiguous := by
  -- what is said about calls that are midway or complete is said about the old calls only
  have hold : ∀ (i : ℕ) (c : SendCall), (s.send data).sends[i]? = some c → s.sends[i]? = some c ∨
      c.iret = 0 ∧ c.data = data ∧ (c.pc ≠ .returned → data ≠ []) := by
    intro i c hc
    simp only [SendState.send] at hc
    rcases lt_or_ge i s.sends.length with hlt | hge
    · rw [List.getElem?_append_left hlt] at hc
      exact .inl hc
    · rw [List.getElem?_append_right hge] at hc
      obtain ⟨hlt, heq⟩ := List.getElem?_eq_some_iff.mp hc
      rw [List.getElem_singleton] at heq
      subst heq
      refine .inr ⟨rfl, rfl, fun hpc hnil => hpc ?_⟩
      simp [hnil]
  -- the new call has accepted nothing yet, and so it is not midway
  have hmid : ∀ (i : ℕ) (c : SendCall), (s.send data).sends[i]? = some c → c.Midway →
      s.sends[i]? = some c := by
    intro i c hc hm
    rcases hold i c hc with h' | ⟨h0, -⟩
    · exact h'
    · exact absurd hm.1 (by omega)
  have hkeep : ∀ (i : ℕ) (c : SendCall), s.sends[i]? = some c →
      (s.send data).sends[i]? = some c := by
    intro i c hc
    have hlt : i < s.sends.length := (List.getElem?_eq_some_iff.mp hc).1
    simp only [SendState.send]
    rw [List.getElem?_append_left hlt, hc]
  -- completed calls are old ones
  have hbuffer : ∀ i ∈ s.completed, (s.send data).buffer i = s.buffer i := by
    intro i hi
    obtain ⟨c, hc, -⟩ := (h.mem_iff i).mp hi
    rw [buffer, buffer, hc, hkeep i c hc]
  obtain ⟨rest, hacc, hrest, hnil⟩ := h.whole
  refine ⟨h.nodup, fun i => ?_, fun i j c d hc hd hmc hmd => ?_, ⟨rest, ?_, ?_, ?_⟩, ?_⟩
  · refine (h.mem_iff i).trans ⟨fun ⟨c, hc, hrest⟩ => ⟨c, hkeep i c hc, hrest⟩, ?_⟩
    rintro ⟨c, hc, hne, heq⟩
    rcases hold i c hc with h' | ⟨h0, -, -⟩
    · exact ⟨c, h', hne, heq⟩
    · exact absurd (List.eq_nil_of_length_eq_zero (heq.symm.trans h0)) hne
  · exact h.unique i j c d (hmid i c hc hmc) (hmid j d hd hmd) hmc hmd
  · show s.accepted = s.completed.flatMap (s.send data).buffer ++ rest
    rw [hacc, List.flatMap_congr hbuffer]
  · exact fun i c hc hm => hrest i c (hmid i c hc hm) hm
  · exact fun hnone => hnil fun i c hc => hnone i c (hkeep i c hc)
  · intro i c hc hpc
    rcases hold i c hc with h' | ⟨h0, hdata, hne⟩
    · exact h.unfinished i c h' hpc
    · have hpos := List.length_pos_of_ne_nil (hne hpc)
      rw [h0, hdata]
      exact hpos

/-- A call moves on without getting anything accepted. -/
theorem Contiguous.stay (h : s.Contiguous) {i : ℕ} {c : SendCall} (hc : s.sends[i]? = some c)
    (c' : SendCall) (hdata : c'.data = c.data) (hiret : c'.iret = c.iret)
    (hopen : c'.pc ≠ .returned → c.iret < c.data.length) :
    Contiguous { s with sends := s.sends.set i c' } := by
  have hmid : c'.Midway ↔ c.Midway := by rw [SendCall.Midway, SendCall.Midway, hdata, hiret]
  -- every new call is an old one with the same buffer and the same bytes accepted
  have hold : ∀ (j : ℕ) (d : SendCall), (s.sends.set i c')[j]? = some d →
      ∃ d' : SendCall, s.sends[j]? = some d' ∧ d'.data = d.data ∧ d'.iret = d.iret := by
    intro j d hd
    rw [getElem?_set_call hc] at hd
    split at hd
    case isTrue heq =>
      cases hd
      exact ⟨c, heq ▸ hc, hdata.symm, hiret.symm⟩
    case isFalse => exact ⟨d, hd, rfl, rfl⟩
  have hnew : ∀ (j : ℕ) (d : SendCall), s.sends[j]? = some d →
      ∃ d' : SendCall, (s.sends.set i c')[j]? = some d' ∧ d'.data = d.data ∧ d'.iret = d.iret := by
    intro j d hd
    by_cases hji : j = i
    · rw [hji, hc] at hd
      cases hd
      exact ⟨c', by rw [getElem?_set_call hc, if_pos hji], hdata, hiret⟩
    · exact ⟨d, by rw [getElem?_set_call hc, if_neg hji, hd], rfl, rfl⟩
  have hsame : ∀ d d' : SendCall, d'.data = d.data → d'.iret = d.iret → d.Midway → d'.Midway := by
    intro d d' h1 h2 hm
    rwa [SendCall.Midway, h1, h2]
  obtain ⟨rest, hacc, hrest, hnil⟩ := h.whole
  -- each field of the invariant is taken through this correspondence
  refine ⟨h.nodup, fun j => (h.mem_iff j).trans ⟨?_, ?_⟩, ?_, ⟨rest, ?_, ?_, ?_⟩, ?_⟩
  · rintro ⟨d, hd, hne, heq⟩
    obtain ⟨d', hd', h1, h2⟩ := hnew j d hd
    exact ⟨d', hd', h1 ▸ hne, by rw [h1, h2, heq]⟩
  · rintro ⟨d, hd, hne, heq⟩
    obtain ⟨d', hd', h1, h2⟩ := hold j d hd
    exact ⟨d', hd', h1 ▸ hne, by rw [h1, h2, heq]⟩
  · intro j k d e hd he hmd hme
    obtain ⟨d', hd', h1, h2⟩ := hold j d hd
    obtain ⟨e', he', h3, h4⟩ := hold k e he
    exact h.unique j k d' e' hd' he' (hsame d d' h1 h2 hmd) (hsame e e' h3 h4 hme)
  · show s.accepted = s.completed.flatMap (buffer { s with sends := s.sends.set i c' }) ++ rest
    rw [funext (buffer_set hc hdata), hacc]
  · intro j d hd hm
    obtain ⟨d', hd', h1, h2⟩ := hold j d hd
    rw [← h1, ← h2]
    exact hrest j d' hd' (hsame d d' h1 h2 hm)
  · intro hnone
    refine hnil fun j d hd hm => ?_
    obtain ⟨d', hd', h1, h2⟩ := hnew j d hd
    exact hnone j d' hd' (hsame d d' h1 h2 hm)
  · intro j d hd hp
    simp only [getElem?_set_call hc] at hd
    split at hd
    case isTrue =>
      cases hd
      rw [hdata, hiret]
      exact hopen hp
    case isFalse => exact h.unfinished j d hd hp

/-- When no other call is midway, what is left over of the accepted bytes belongs to this one. -/
theorem Contiguous.accepted_eq (h : s.Contiguous) {i : ℕ} {c : SendCall}
    (hc : s.sends[i]? = some c) (hlt : c.iret < c.data.length)
    (hother : ∀ (j : ℕ) (d : SendCall), j ≠ i → s.sends[j]? = some d → ¬ d.Midway) :
    s.accepted = s.completed.flatMap s.buffer ++ c.data.take c.iret := by
  obtain ⟨rest, hacc, hrest, hnil⟩ := h.whole
  rw [hacc]
  congr 1
  by_cases hmid : c.Midway
  · exact hrest i c hc hmid
  · have hzero : c.iret = 0 := by
      by_contra hne
      exact hmid ⟨Nat.pos_of_ne_zero hne, hlt⟩
    rw [hzero, List.take_zero]
    refine hnil fun j d hd => ?_
    by_cases hji : j = i
    · rw [hji, hc] at hd
      cases hd
      exact hmid
    · exact hother j d hji hd

/-- A call that is not complete is not among the completed ones. -/
theorem Contiguous.notMem_completed (h : s.Contiguous) {i : ℕ} {c : SendCall}
    (hc : s.sends[i]? = some c) (hlt : c.iret < c.data.length) : i ∉ s.completed := by
  intro hi
  obtain ⟨d, hd, -, heq⟩ := (h.mem_iff i).mp hi
  rw [hc] at hd
  cases hd
  omega

/-- A call gets more of its buffer accepted, not all of what is left, while no other call is
midway. -/
theorem Contiguous.accept_part (h : s.Contiguous) {i n : ℕ} {c : SendCall}
    (hc : s.sends[i]? = some c) (hn : 0 < n) (c' : SendCall) (hdata : c'.data = c.data)
    (hiret : c'.iret = c.iret + n) (hlt : c.iret + n < c.data.length)
    (hother : ∀ (j : ℕ) (d : SendCall), j ≠ i → s.sends[j]? = some d → ¬ d.Midway) :
    Contiguous { s with
      sends := s.sends.set i c'
      accepted := s.accepted ++ (c.data.drop c.iret).take n } := by
  have hacc := h.accepted_eq hc (by omega) hother
  have hmid : ∀ (j : ℕ) (d : SendCall), (s.sends.set i c')[j]? = some d → d.Midway →
      j = i ∧ d = c' := by
    intro j d hd hm
    rw [getElem?_set_call hc] at hd
    split at hd
    case isTrue heq =>
      cases hd
      exact ⟨heq, rfl⟩
    case isFalse hji => exact absurd hm (hother j d hji hd)
  refine ⟨h.nodup, fun j => ?_, ?_, ⟨c.data.take (c.iret + n), ?_, ?_, ?_⟩, ?_⟩
  · simp only [getElem?_set_call hc]
    by_cases hji : j = i
    · rw [if_pos hji]
      constructor
      · intro hj
        exact absurd (hji ▸ hj) (h.notMem_completed hc (by omega))
      · rintro ⟨d, hd, -, heq⟩
        cases hd
        rw [hdata] at heq
        omega
    · rw [if_neg hji]
      exact h.mem_iff j
  · intro j k d e hd he hmd hme
    exact (hmid j d hd hmd).1.trans (hmid k e he hme).1.symm
  · show s.accepted ++ _ = s.completed.flatMap (buffer { s with sends := s.sends.set i c' }) ++ _
    rw [funext (buffer_set hc hdata), hacc, List.append_assoc, ← List.take_add]
  · intro j d hd hm
    rw [(hmid j d hd hm).2, hdata, hiret]
  · intro hnone
    exact absurd ⟨by omega, by rw [hdata]; omega⟩
      (hnone i c' (by simp only [getElem?_set_call hc, if_pos]))
  · intro j d hd hp
    simp only [getElem?_set_call hc] at hd
    split at hd
    case isTrue =>
      cases hd
      rw [hdata]
      omega
    case isFalse => exact h.unfinished j d hd hp

/-- A call gets the rest of its buffer accepted, while no other call is midway. -/
theorem Contiguous.accept_rest (h : s.Contiguous) {i n : ℕ} {c : SendCall}
    (hc : s.sends[i]? = some c) (hn : 0 < n) (c' : SendCall) (hdata : c'.data = c.data)
    (hiret : c'.iret = c.iret + n) (hpc : c'.pc = .returned) (hall : c.iret + n = c.data.length)
    (hother : ∀ (j : ℕ) (d : SendCall), j ≠ i → s.sends[j]? = some d → ¬ d.Midway) :
    Contiguous { s with
      sends := s.sends.set i c'
      accepted := s.accepted ++ (c.data.drop c.iret).take n
      completed := s.completed ++ [i] } := by
  have hacc := h.accepted_eq hc (by omega) hother
  have hnew := h.notMem_completed hc (by omega)
  have hmid : ∀ (j : ℕ) (d : SendCall), (s.sends.set i c')[j]? = some d → ¬ d.Midway := by
    intro j d hd
    rw [getElem?_set_call hc] at hd
    split at hd
    case isTrue =>
      cases hd
      rintro ⟨-, hlt⟩
      rw [hdata] at hlt
      omega
    case isFalse hji => exact hother j d hji hd
  have hbuffer : s.buffer i = c.data := by rw [buffer, hc]; rfl
  refine ⟨?_, fun j => ?_, ?_, ⟨[], ?_, ?_, fun _ => rfl⟩, ?_⟩
  · refine List.nodup_append.mpr ⟨h.nodup, List.nodup_singleton i, fun a ha b hb => ?_⟩
    rintro rfl
    exact hnew (List.mem_singleton.mp hb ▸ ha)
  · simp only [getElem?_set_call hc, List.mem_append, List.mem_singleton]
    by_cases hji : j = i
    · rw [if_pos hji]
      refine ⟨fun _ => ⟨c', rfl, ?_, by rw [hdata]; omega⟩, fun _ => .inr hji⟩
      rw [hdata]
      exact List.ne_nil_of_length_pos (by omega)
    · rw [if_neg hji]
      exact (or_iff_left hji).trans (h.mem_iff j)
  · exact fun j k d e hd _ hmd => absurd hmd (hmid j d hd)
  · show s.accepted ++ _ = (s.completed ++ [i]).flatMap
      (buffer { s with sends := s.sends.set i c' }) ++ []
    rw [funext (buffer_set hc hdata), hacc, List.append_assoc, ← List.take_add, hall,
      List.take_length, List.flatMap_append, List.flatMap_singleton, hbuffer, List.append_nil]
  · exact fun j d hd hm => absurd hm (hmid j d hd)
  · intro j d hd hp
    simp only [getElem?_set_call hc] at hd
    split at hd
    case isTrue =>
      cases hd
      exact absurd hpc hp
    case isFalse => exact h.unfinished j d hd hp

/-! ### Steps and runs -/

/-- A critical section of `Send` that does not interrupt another call. -/
theorem Contiguous.sendWrite (h : s.Contiguous) (hinv : s.Inv) {i : ℕ} {c : SendCall}
    (hc : s.sends[i]? = some c) (hpc : c.pc = .write)
    (hmeet : s.Uninterrupted (.sendWrite i)) : (s.sendWrite i c).Contiguous := by
  obtain ⟨n, hle, -, -, -, hacc, hcount, hsends, hcompleted⟩ :=
    sendWrite_spec (i := i) hinv (List.mem_of_getElem? hc)
  have hlt := h.unfinished i c hc (by rw [hpc]; decide)
  rcases Nat.eq_zero_or_pos n with hn | hn
  · -- nothing was accepted
    subst hn
    rw [if_pos (by omega)] at hcompleted
    have hstay := h.stay hc ⟨c.data, c.iret + 0,
      if c.iret + 0 < c.data.length then .check else .returned⟩ rfl rfl fun _ => hlt
    refine hstay.congr hsends ?_ hcompleted
    rw [hacc, List.take_zero, List.append_nil]
  · have hfull : s.writeCircularbuf.full = false := by
      rw [← Bool.not_eq_true, PodCircularBuffer.full_iff hinv.buf]
      omega
    have hother : ∀ (j : ℕ) (d : SendCall), j ≠ i → s.sends[j]? = some d → ¬ d.Midway :=
      fun j d hji hd => hmeet c hc (by omega) hfull j (List.getElem?_eq_some_iff.mp hd).1 hji d hd
    by_cases hpart : c.iret + n < c.data.length
    · rw [if_pos hpart] at hcompleted
      exact (h.accept_part hc hn ⟨c.data, c.iret + n, _⟩ rfl rfl hpart hother).congr hsends
        hacc hcompleted
    · rw [if_neg hpart] at hcompleted hsends
      exact (h.accept_rest hc hn ⟨c.data, c.iret + n, .returned⟩ rfl rfl rfl (by omega)
        hother).congr hsends hacc hcompleted

/-- Every step that meets the condition keeps the accepted bytes contiguous. -/
theorem step_contiguous {e : SendEvent} (h : s.Contiguous) (hinv : s.Inv)
    (hmeet : s.Uninterrupted e) (hstep : s.step e = some s') : s'.Contiguous := by
  cases e with
  | send data =>
    cases hstep
    exact h.send data
  | sendCheck i =>
    obtain ⟨c, hc, hpc, rfl⟩ := step_sendCheck hstep
    exact h.stay hc _ rfl rfl fun _ => h.unfinished i c hc (by rw [hpc]; decide)
  | sendWrite i =>
    obtain ⟨c, hc, hpc, rfl⟩ := step_sendWrite hstep
    exact h.sendWrite hinv hc hpc hmeet
  | close =>
    cases hstep
    exact h.congr rfl rfl rfl
  | _ =>
    obtain ⟨hsends, haccepted, hcompleted, -⟩ := step_onLoop hstep trivial
    exact h.congr hsends haccepted hcompleted

end SendState

/-- **Whole buffers.** In every run in which no call of `Send` gets bytes accepted while another is
midway, the bytes on their way (passed to `uv_write`, in the hand of `send_inl`, and buffered) are the
whole buffers of the completed calls, each once, in the order of their completion, then the accepted
part of at most one other. When all calls are complete and everything is drained, the bytes passed to
`uv_write` are the buffers of all calls, in some order. -/
theorem send_contiguous (pBuf : Mem UInt8) (heap : ℕ → WriteParam) (es : List SendEvent)
    (s : SendState) (hrun : run SendState.step (.initial pBuf heap) es = some s)
    (hmeet : Along SendState.step SendState.Uninterrupted (.initial pBuf heap) es) :
    (s.completed.Nodup ∧ ∃ rest,
        s.passed ++ s.inHand ++ s.writeCircularbuf.content =
          s.completed.flatMap s.buffer ++ rest ∧
        (rest = [] ∨ ∃ c ∈ s.sends, c.Midway ∧ rest = c.data.take c.iret)) ∧
      ((∀ c ∈ s.sends, c.data ≠ [] ∧ c.iret = c.data.length) → s.loop = .idle →
        s.writeCircularbuf.empty = true →
          ∃ order : List ℕ, order.Perm (List.range s.sends.length) ∧
            s.passed = order.flatMap s.buffer) := by
  have hboth : s.Inv ∧ s.Contiguous :=
    run_invariant_along (I := fun s => s.Inv ∧ s.Contiguous)
      (fun _ _ _ h hm hs => ⟨SendState.step_inv h.1 hs, SendState.step_contiguous h.2 h.1 hm hs⟩)
      ⟨SendState.inv_initial pBuf heap, SendState.contiguous_initial pBuf heap⟩ hmeet hrun
  obtain ⟨hinv, h⟩ := hboth
  obtain ⟨rest, hacc, hrest, hnil⟩ := h.whole
  refine ⟨⟨h.nodup, rest, hinv.ledger.trans hacc, ?_⟩, fun hall hidle hempty => ?_⟩
  · by_cases hmid : ∃ (i : ℕ) (c : SendCall), s.sends[i]? = some c ∧ c.Midway
    · obtain ⟨i, c, hc, hm⟩ := hmid
      exact .inr ⟨c, List.mem_of_getElem? hc, hm, hrest i c hc hm⟩
    · exact .inl (hnil fun i c hc hm => hmid ⟨i, c, hc, hm⟩)
  · refine ⟨s.completed, ?_, ?_⟩
    · -- the completed calls are all of them
      rw [List.perm_ext_iff_of_nodup h.nodup List.nodup_range]
      intro i
      rw [h.mem_iff, List.mem_range]
      constructor
      · rintro ⟨c, hc, -⟩
        exact (List.getElem?_eq_some_iff.mp hc).1
      · intro hi
        exact ⟨s.sends[i], List.getElem?_eq_getElem hi, hall _ (List.getElem_mem hi)⟩
    · have hrest' : rest = [] := by
        refine hnil fun i c hc hm => ?_
        have hlt := hm.2
        rw [(hall c (List.mem_of_getElem? hc)).2] at hlt
        exact absurd hlt (lt_irrefl _)
      have hcontent : s.writeCircularbuf.content = [] := PodCircularBuffer.content_of_empty hempty
      have hledger := hinv.ledger
      rw [SendState.inHand, hidle, hcontent, List.append_nil, List.append_nil, hacc, hrest',
        List.append_nil] at hledger
      exact hledger

/-- Two calls, the second after the first. -/
theorem send_contiguous_two_calls :
    ∃ s, run SendState.step (.initial (fun _ => 0) fun _ => allocWriteParam fun _ => 0)
        [.send [7, 8], .sendCheck 0, .sendWrite 0, .send [9], .sendCheck 1, .sendWrite 1, .asyncCB,
          .drainRead 5 fun _ => 0, .uvWrite 0, .drainRead 6 fun _ => 0] = some s ∧
      ∃ order : List ℕ, order.Perm (List.range s.sends.length) ∧
        s.passed = order.flatMap s.buffer := by
  have hrun : ((run SendState.step (.initial (fun _ => 0) fun _ => allocWriteParam fun _ => 0)
      [.send [7, 8], .sendCheck 0, .sendWrite 0, .send [9], .sendCheck 1, .sendWrite 1, .asyncCB,
        .drainRead 5 fun _ => 0, .uvWrite 0, .drainRead 6 fun _ => 0]).map fun s =>
      decide ((∀ c ∈ s.sends, c.data ≠ [] ∧ c.iret = c.data.length) ∧ s.loop = .idle ∧
        s.writeCircularbuf.empty = true)) = some true := by decide +kernel
  obtain ⟨s, hs, hend⟩ := Option.map_eq_some_iff.mp hrun
  obtain ⟨hall, hidle, hempty⟩ := of_decide_eq_true hend
  exact ⟨s, hs, (send_contiguous _ _ _ s hs (by decide +kernel)).2 hall hidle hempty⟩

/-- Nobody calls `Close`, and every `uv_write` succeeds. -/
def SendEvent.Regular : SendEvent → Prop
  | .close => False
  | .uvWrite iret => iret = 0
  | _ => True

/-- Whether an event is regular can be decided. -/
instance (e : SendEvent) : Decidable e.Regular :=
  match e with
  | .close => inferInstanceAs (Decidable False)
  | .uvWrite iret => inferInstanceAs (Decidable (iret = 0))
  | .send _ | .sendCheck _ | .sendWrite _ | .asyncCB | .afterRecv | .afterSend _ _
  | .drainRead _ _ => inferInstanceAs (Decidable True)

/-- A buffer of one byte more than the circular buffer takes, a drain, a second call with one byte, and
then the last byte of the first: the second buffer ends up inside the first. -/
theorem send_torn :
    ¬ ∀ (es : List SendEvent) (s : SendState), (∀ e ∈ es, e.Regular) →
      run SendState.step (.initial (fun _ => 0) fun _ => allocWriteParam fun _ => 0) es = some s →
      (∀ c ∈ s.sends, c.data ≠ [] ∧ c.iret = c.data.length) → s.loop = .idle →
      s.writeCircularbuf.empty = true →
        ∃ order : List ℕ, order.Perm (List.range s.sends.length) ∧
          s.passed = order.flatMap s.buffer := by
  intro h
  let es : List SendEvent := [.send (List.replicate 10241 1), .send [2], .sendCheck 0, .sendWrite 0,
    .asyncCB, .drainRead 0 fun _ => 0, .uvWrite 0, .drainRead 1 fun _ => 0, .sendCheck 1, .sendWrite 1,
    .sendCheck 0, .sendWrite 0, .asyncCB, .drainRead 1 fun _ => 0, .uvWrite 0,
    .drainRead 2 fun _ => 0]
  have hrun : ((run SendState.step (.initial (fun _ => 0) fun _ => allocWriteParam fun _ => 0) es).map
      fun s => (decide ((∀ c ∈ s.sends, c.data ≠ [] ∧ c.iret = c.data.length) ∧ s.loop = .idle ∧
        s.writeCircularbuf.empty = true ∧ s.sends.length = 2), s.accepted.drop 10239,
        ([0, 1].flatMap s.buffer).drop 10239, ([1, 0].flatMap s.buffer).drop 10239)) =
      some (true, [1, 2, 1], [1, 1, 2], [1, 1, 1]) := by decide +kernel
  obtain ⟨s, hs, hend⟩ := Option.map_eq_some_iff.mp hrun
  simp only [Prod.mk.injEq, decide_eq_true_eq] at hend
  obtain ⟨⟨hall, hidle, hempty, hlen⟩, haccepted, h01, h10⟩ := hend
  obtain ⟨order, hperm, hpassed⟩ := h es s (by decide) hs hall hidle hempty
  -- everything accepted has been passed on
  have hinv := run_invariant (fun _ _ _ h hs => SendState.step_inv h hs)
    (SendState.inv_initial (fun _ => 0) fun _ => allocWriteParam fun _ => 0) hs
  have hcontent : s.writeCircularbuf.content = [] := PodCircularBuffer.content_of_empty hempty
  have hledger := hinv.ledger
  rw [SendState.inHand, hidle, hcontent, List.append_nil, List.append_nil, hpassed] at hledger
  -- there are two orders, and neither gives what was accepted
  rw [hlen] at hperm
  obtain ⟨a, b, rfl⟩ := List.length_eq_two.mp (hperm.length_eq.trans List.length_range)
  have ha : a < 2 := List.mem_range.mp (hperm.mem_iff.mp List.mem_cons_self)
  have hb : b < 2 := List.mem_range.mp (hperm.mem_iff.mp (List.mem_cons_of_mem a List.mem_cons_self))
  have hne : a ≠ b := by
    have hnodup := hperm.nodup_iff.mpr List.nodup_range
    simpa using hnodup
  have horder : a = 0 ∧ b = 1 ∨ a = 1 ∧ b = 0 := by omega
  rcases horder with ⟨rfl, rfl⟩ | ⟨rfl, rfl⟩
  · rw [hledger, haccepted] at h01
    exact absurd h01 (by decide)
  · rw [hledger, haccepted] at h10
    exact absurd h10 (by decide)

end MyUvpp
