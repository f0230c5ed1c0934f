import Mathlib.Algebra.Order.Ring.Int
import Mathlib.Data.List.Basic

/-! # Scanning a stream for frames

A frame is a head element, a header of fixed length, a payload whose length the header announces,
and a tail element. `Framing.scan` reads a complete stream from the left: it skips to the first head
element, drops a head whose header or tail is not acceptable, and stops where the stream ends before
a candidate frame is decided. `Framing.Reduces` is the same scan one decision at a time, on a stream
that may still grow, and is what an incremental decoder refines. -/

namespace MyUvpp

/-- A frame format over elements `α` with headers `β`. -/
structure Framing (α β : Type*) where
  /-- The elements at which a frame may start. -/
  isHead : α → Bool
  /-- The number of elements between the head element and the payload. -/
  headerLen : ℕ
  /-- Decode a header: its value and the payload length, or `none` when it is not acceptable. -/
  header : List α → Option (β × ℕ)
  /-- The elements that may end a frame. -/
  isTail : α → Bool

namespace Framing

variable {α β : Type*}

/-- What a scanner does about the element it looks at. -/
inductive Verdict (β : Type*) where
  /-- The element starts no frame: drop it. -/
  | skip
  /-- More of the stream is needed to decide. -/
  | stop
  /-- A frame with this header and payload length starts here. -/
  | emit (h : β) (n : ℕ)
  deriving DecidableEq

/-- The verdict on the element `b` followed by the stream `s`. -/
def verdict (F : Framing α β) (b : α) (s : List α) : Verdict β :=
  if F.isHead b then
    if s.length < F.headerLen then .stop
    else
      match F.header (s.take F.headerLen) with
      | none => .skip
      | some (h, n) =>
        match (s.drop F.headerLen)[n]? with
        | none => .stop
        | some t => if F.isTail t then .emit h n else .skip
  else .skip

/-- The payload of a frame of length `n` whose head element is followed by `s`. -/
def payload (F : Framing α β) (n : ℕ) (s : List α) : List α := (s.drop F.headerLen).take n

/-- What follows a frame of payload length `n` whose head element is followed by `s`. -/
def rest (F : Framing α β) (n : ℕ) (s : List α) : List α := s.drop (F.headerLen + (n + 1))

/-- The frames of a complete stream, from the left. -/
def scan (F : Framing α β) : List α → List (β × List α)
  | [] => []
  | b :: s =>
    match F.verdict b s with
    | .skip => F.scan s
    | .stop => []
    | .emit h n => (h, F.payload n s) :: F.scan (F.rest n s)
termination_by s => s.length
decreasing_by all_goals (simp only [rest, List.length_cons, List.length_drop]; omega)

/-- The headers that a scan accepts, with their payload lengths: those of the emitted frames, of the
candidates whose tail element was wrong, and of the candidate at which the scan stops. -/
def accepted (F : Framing α β) : List α → List (β × ℕ)
  | [] => []
  | b :: s =>
    (if F.isHead b ∧ F.headerLen ≤ s.length then (F.header (s.take F.headerLen)).toList else []) ++
      match F.verdict b s with
      | .skip => F.accepted s
      | .stop => []
      | .emit _ n => F.accepted (F.rest n s)
termination_by s => s.length
decreasing_by all_goals (simp only [rest, List.length_cons, List.length_drop]; omega)

variable {F : Framing α β}

/-! ### The verdicts, branch by branch -/

/-- A byte that is no head byte is skipped. -/
theorem verdict_of_not_head {b : α} (s : List α) (hb : F.isHead b = false) :
    F.verdict b s = .skip := by
  simp [verdict, hb]

/-- A head byte without a whole header behind it waits for more. -/
theorem verdict_of_short {b : α} {s : List α} (hb : F.isHead b = true)
    (hs : s.length < F.headerLen) : F.verdict b s = .stop := by
  simp [verdict, hb, hs]

/-- A complete header that is not acceptable. -/
theorem verdict_of_header_none {b : α} {s : List α} (hs : F.headerLen ≤ s.length)
    (hh : F.header (s.take F.headerLen) = none) : F.verdict b s = .skip := by
  by_cases hb : F.isHead b = true
  · simp [verdict, hb, not_lt.mpr hs, hh]
  · exact verdict_of_not_head s (by simpa using hb)

/-- An acceptable header: the verdict rests on the element after the payload. -/
theorem verdict_of_header_some {b : α} {s : List α} {h : β} {n : ℕ} (hb : F.isHead b = true)
    (hs : F.headerLen ≤ s.length) (hh : F.header (s.take F.headerLen) = some (h, n)) :
    F.verdict b s =
      match (s.drop F.headerLen)[n]? with
      | none => .stop
      | some t => if F.isTail t then .emit h n else .skip := by
  simp [verdict, hb, not_lt.mpr hs, hh]

/-- The shape of a stream whose verdict is `emit`. -/
theorem verdict_eq_emit {b : α} {s : List α} {h : β} {n : ℕ} (hv : F.verdict b s = .emit h n) :
    F.isHead b = true ∧ F.header (s.take F.headerLen) = some (h, n) ∧
      F.headerLen + n < s.length ∧ ∃ t, (s.drop F.headerLen)[n]? = some t ∧ F.isTail t = true := by
  unfold verdict at hv
  split at hv
  case isFalse => cases hv
  case isTrue hb =>
    split at hv
    case isTrue => cases hv
    case isFalse hs =>
      split at hv
      case h_1 => cases hv
      case h_2 h' n' hh =>
        split at hv
        case h_1 => cases hv
        case h_2 t ht =>
          split at hv
          case isFalse => cases hv
          case isTrue htail =>
            cases hv
            obtain ⟨hlt, -⟩ := List.getElem?_eq_some_iff.mp ht
            rw [List.length_drop] at hlt
            exact ⟨hb, hh, by omega, t, ht, htail⟩

/-- A verdict other than `stop` does not depend on what follows. -/
theorem verdict_append {b : α} {s : List α} (t : List α) (hv : F.verdict b s ≠ .stop) :
    F.verdict b (s ++ t) = F.verdict b s := by
  by_cases hb : F.isHead b = true
  swap
  · rw [verdict_of_not_head _ (by simpa using hb), verdict_of_not_head _ (by simpa using hb)]
  have hs : F.headerLen ≤ s.length := by
    by_contra hlt
    exact hv (verdict_of_short hb (not_le.mp hlt))
  have hs' : F.headerLen ≤ (s ++ t).length := by rw [List.length_append]; omega
  have htake : (s ++ t).take F.headerLen = s.take F.headerLen := List.take_append_of_le_length hs
  cases hh : F.header (s.take F.headerLen) with
  | none => rw [verdict_of_header_none hs' (htake ▸ hh), verdict_of_header_none hs hh]
  | some hn =>
    obtain ⟨h, n⟩ := hn
    rw [verdict_of_header_some hb hs hh] at hv ⊢
    rw [verdict_of_header_some hb hs' (htake ▸ hh), List.drop_append_of_le_length hs]
    cases ht : (s.drop F.headerLen)[n]? with
    | none => simp [ht] at hv
    | some x =>
      have hlt : n < (s.drop F.headerLen).length := (List.getElem?_eq_some_iff.mp ht).1
      rw [List.getElem?_append_left hlt, ht]

/-! ### One decision at a time -/

/-- `F.Reduces u out v`: scanning the stream `u` emits the frames `out` and leaves the stream `v`. -/
inductive Reduces (F : Framing α β) : List α → List (β × List α) → List α → Prop where
  /-- Nothing is decided. -/
  | refl (u : List α) : Reduces F u [] u
  /-- The first element is dropped. -/
  | skip {b : α} {s : List α} {out : List (β × List α)} {v : List α}
      (hv : F.verdict b s = .skip) (hr : Reduces F s out v) : Reduces F (b :: s) out v
  /-- A frame is emitted. -/
  | emit {b : α} {s : List α} {h : β} {n : ℕ} {out : List (β × List α)} {v : List α}
      (hv : F.verdict b s = .emit h n) (hr : Reduces F (F.rest n s) out v) :
      Reduces F (b :: s) ((h, F.payload n s) :: out) v

namespace Reduces

/-- Reductions compose, and the emitted frames are concatenated. -/
theorem trans {u v w : List α} {out out' : List (β × List α)} (h : F.Reduces u out v)
    (h' : F.Reduces v out' w) : F.Reduces u (out ++ out') w := by
  induction h with
  | refl => exact h'
  | skip hv _ ih => exact .skip hv (ih h')
  | emit hv _ ih => exact .emit hv (ih h')

/-- A reduction stays one when the stream grows at its end. -/
theorem append {u v : List α} {out : List (β × List α)} (h : F.Reduces u out v) (t : List α) :
    F.Reduces (u ++ t) out (v ++ t) := by
  induction h with
  | refl u => exact .refl _
  | @skip b s out v hv _ ih =>
    have hv' : F.verdict b (s ++ t) = .skip := by rw [verdict_append t (by simp [hv]), hv]
    exact .skip hv' ih
  | @emit b s h n out v hv _ ih =>
    -- the frame was complete before `t`, so its payload and what follows it are the same
    have hlen : F.headerLen + n < s.length := (verdict_eq_emit hv).2.2.1
    have hpay : F.payload n (s ++ t) = F.payload n s := by
      rw [payload, payload, List.drop_append_of_le_length (by omega),
        List.take_append_of_le_length (by rw [List.length_drop]; omega)]
    have hrest : F.rest n (s ++ t) = F.rest n s ++ t :=
      List.drop_append_of_le_length (by omega)
    have hv' : F.verdict b (s ++ t) = .emit h n := by rw [verdict_append t (by simp [hv]), hv]
    rw [← hpay]
    exact .emit hv' (hrest ▸ ih)

/-- A reduction splits the scan of the stream. -/
theorem scan_eq {u v : List α} {out : List (β × List α)} (h : F.Reduces u out v) :
    F.scan u = out ++ F.scan v := by
  induction h with
  | refl => rfl
  | skip hv _ ih => simp only [scan, hv, ih]
  | emit hv _ ih => simp only [scan, hv, ih, List.cons_append]

/-- What is left is a suffix of the stream. -/
theorem suffix {u v : List α} {out : List (β × List α)} (h : F.Reduces u out v) : v <:+ u := by
  induction h with
  | refl u => exact List.suffix_refl u
  | skip _ _ ih => exact ih.trans (List.suffix_cons _ _)
  | emit _ _ ih => exact (ih.trans (List.drop_suffix _ _)).trans (List.suffix_cons _ _)

/-- Elements that start no frame can be dropped. -/
theorem skip_append {w s : List α} (hw : ∀ b ∈ w, F.isHead b = false) :
    F.Reduces (w ++ s) [] s := by
  induction w with
  | nil => exact .refl s
  | cons b w ih =>
    exact .skip (verdict_of_not_head _ (hw b List.mem_cons_self))
      (ih fun c hc => hw c (List.mem_cons_of_mem b hc))

end Reduces

/-! ### Prefixes and concatenations of streams -/

/-- **A scan only adds frames when the stream grows.** -/
theorem scan_prefix {u v : List α} (h : u <+: v) : F.scan u <+: F.scan v := by
  obtain ⟨t, rfl⟩ := h
  induction u using scan.induct F with
  | case1 =>
    rw [scan]
    exact List.nil_prefix
  | case2 b s hv ih =>
    have hv' : F.verdict b (s ++ t) = .skip := by rw [verdict_append t (by simp [hv]), hv]
    rw [List.cons_append, scan, scan, hv, hv']
    exact ih
  | case3 b s hv =>
    rw [scan, hv]
    exact List.nil_prefix
  | case4 b s h n hv ih =>
    have hr : F.Reduces (b :: s) [(h, F.payload n s)] (F.rest n s) := .emit hv (.refl _)
    rw [hr.scan_eq, (hr.append t).scan_eq]
    exact (List.prefix_append_right_inj _).mpr ih

/-- A stream of whole frames: nothing is left when it has been scanned. -/
def Whole (F : Framing α β) (u : List α) : Prop := F.Reduces u (F.scan u) []

/-- What reduces to nothing is whole. -/
theorem whole_of_reduces {u : List α} {out : List (β × List α)} (h : F.Reduces u out []) :
    F.Whole u := by
  have hscan := h.scan_eq
  rw [scan, List.append_nil] at hscan
  rw [Whole, hscan]
  exact h

/-- No bytes at all are whole. -/
theorem Whole.nil : F.Whole [] := whole_of_reduces (.refl [])

/-- Whole frames may be followed by any stream. -/
theorem Whole.scan_append {u : List α} (h : F.Whole u) (t : List α) :
    F.scan (u ++ t) = F.scan u ++ F.scan t := by
  have hr := Reduces.append h t
  rw [List.nil_append] at hr
  exact hr.scan_eq

/-- The frames of several streams of whole frames. -/
theorem scan_flatMap {ι : Type*} {is : List ι} {u : ι → List α} (h : ∀ i ∈ is, F.Whole (u i)) :
    F.scan (is.flatMap u) = is.flatMap fun i => F.scan (u i) := by
  induction is with
  | nil => rw [List.flatMap_nil, List.flatMap_nil, scan]
  | cons i is ih =>
    rw [List.flatMap_cons, List.flatMap_cons, (h i List.mem_cons_self).scan_append,
      ih fun j hj => h j (List.mem_cons_of_mem i hj)]

/-! ### Scans that stop -/

/-- A stream too short for a frame without payload has no frame. -/
theorem scan_of_short {u : List α} (hu : u.length < F.headerLen + 2) : F.scan u = [] := by
  induction u using scan.induct F with
  | case1 => rw [scan]
  | case2 b s hv ih =>
    rw [scan, hv]
    exact ih (by rw [List.length_cons] at hu; omega)
  | case3 b s hv => rw [scan, hv]
  | case4 b s h n hv ih =>
    -- an emitted frame has a head, a header and a tail
    have hlen := (verdict_eq_emit hv).2.2.1
    rw [List.length_cons] at hu
    omega

/-- A candidate frame with an acceptable header stops the scan until its tail element arrives. -/
theorem verdict_of_pending {b : α} {s : List α} {h : β} {n : ℕ} (hb : F.isHead b = true)
    (hs : F.headerLen ≤ s.length) (hh : F.header (s.take F.headerLen) = some (h, n))
    (hn : s.length ≤ F.headerLen + n) : F.verdict b s = .stop := by
  rw [verdict_of_header_some hb hs hh,
    List.getElem?_eq_none (by rw [List.length_drop]; omega)]

/-! ### A complete frame at the front of a stream -/

section Frame

variable {b t : α} {hdr body r : List α} {h : β} {n : ℕ}

/-- The payload of a frame whose parts are given. -/
theorem payload_frame (hhdr : hdr.length = F.headerLen) (hbody : body.length = n) :
    F.payload n (hdr ++ (body ++ t :: r)) = body := by
  rw [payload, List.drop_left' hhdr, List.take_left' hbody]

/-- What follows a frame whose parts are given. -/
theorem rest_frame (hhdr : hdr.length = F.headerLen) (hbody : body.length = n) :
    F.rest n (hdr ++ (body ++ t :: r)) = r := by
  rw [rest, ← List.drop_drop, List.drop_left' hhdr, ← List.drop_drop, List.drop_left' hbody]
  rfl

/-- With an acceptable header and a complete payload, the tail element decides. -/
theorem verdict_frame (hb : F.isHead b = true) (hhdr : hdr.length = F.headerLen)
    (hh : F.header hdr = some (h, n)) (hbody : body.length = n) :
    F.verdict b (hdr ++ (body ++ t :: r)) = if F.isTail t then .emit h n else .skip := by
  have htake : (hdr ++ (body ++ t :: r)).take F.headerLen = hdr := List.take_left' hhdr
  have hlen : F.headerLen ≤ (hdr ++ (body ++ t :: r)).length := by
    rw [List.length_append]; omega
  rw [verdict_of_header_some hb hlen (htake ▸ hh), List.drop_left' hhdr,
    List.getElem?_append_right (by omega), hbody, Nat.sub_self]
  rfl

/-- A frame with the right tail element is emitted. -/
theorem reduces_frame (hb : F.isHead b = true) (hhdr : hdr.length = F.headerLen)
    (hh : F.header hdr = some (h, n)) (hbody : body.length = n) (ht : F.isTail t = true) :
    F.Reduces (b :: (hdr ++ (body ++ t :: r))) [(h, body)] r := by
  have hv : F.verdict b (hdr ++ (body ++ t :: r)) = .emit h n := by
    rw [verdict_frame hb hhdr hh hbody, if_pos ht]
  have hr : F.Reduces (F.rest n (hdr ++ (body ++ t :: r))) [] r := by
    rw [rest_frame hhdr hbody]
    exact .refl r
  have h1 := Reduces.emit hv hr
  rwa [payload_frame hhdr hbody] at h1

/-- With the wrong tail element, the head element is dropped. -/
theorem reduces_bad_tail (hb : F.isHead b = true) (hhdr : hdr.length = F.headerLen)
    (hh : F.header hdr = some (h, n)) (hbody : body.length = n) (ht : F.isTail t = false) :
    F.Reduces (b :: (hdr ++ (body ++ t :: r))) [] (hdr ++ (body ++ t :: r)) := by
  refine .skip ?_ (.refl _)
  rw [verdict_frame hb hhdr hh hbody, ht]
  rfl

end Frame

/-! ### The headers accepted by a scan -/

section Accepted

/-- The headers that are accepted from a byte on: the one behind it, if it is a head byte, and those that the
scan comes to. -/
theorem accepted_cons (b : α) (s : List α) :
    F.accepted (b :: s) =
      (if F.isHead b ∧ F.headerLen ≤ s.length then (F.header (s.take F.headerLen)).toList else []) ++
        match F.verdict b s with
        | .skip => F.accepted s
        | .stop => []
        | .emit _ n => F.accepted (F.rest n s) := by
  rw [accepted]

/-- A reduction accepts no headers that the scan of the whole stream does not. -/
theorem Reduces.accepted_subset {u v : List α} {out : List (β × List α)} (h : F.Reduces u out v) :
    F.accepted v ⊆ F.accepted u := by
  induction h with
  | refl u => exact List.Subset.refl _
  | @skip b s out v hv _ ih =>
    rw [accepted_cons, hv]
    exact List.Subset.trans ih (List.subset_append_right _ _)
  | @emit b s h n out v hv _ ih =>
    rw [accepted_cons, hv]
    exact List.Subset.trans ih (List.subset_append_right _ _)

/-- The header of the first candidate of a stream is accepted. -/
theorem mem_accepted_of_candidate {w s : List α} {b : α} {h : β} {n : ℕ}
    (hw : ∀ c ∈ w, F.isHead c = false) (hb : F.isHead b = true) (hs : F.headerLen ≤ s.length)
    (hh : F.header (s.take F.headerLen) = some (h, n)) : (h, n) ∈ F.accepted (w ++ b :: s) := by
  refine (Reduces.skip_append hw).accepted_subset ?_
  rw [accepted_cons, if_pos ⟨hb, hs⟩, hh]
  exact List.mem_append_left _ List.mem_cons_self

/-- A stream that grows accepts what it accepted before. -/
theorem accepted_append_subset (F : Framing α β) (u t : List α) :
    F.accepted u ⊆ F.accepted (u ++ t) := by
  induction u using scan.induct F with
  | case1 => rw [accepted]; exact List.nil_subset _
  | case2 b s hv ih =>
    have hv' : F.verdict b (s ++ t) = .skip := by rw [verdict_append t (by simp [hv]), hv]
    rw [List.cons_append, accepted_cons, accepted_cons, hv, hv']
    exact List.append_subset.mpr ⟨List.subset_append_of_subset_left _ (own_subset b s t),
      List.subset_append_of_subset_right _ ih⟩
  | case3 b s hv =>
    -- whatever the scan does now where it stopped, the header is there already
    rw [List.cons_append, accepted_cons, accepted_cons, hv, List.append_nil]
    exact List.subset_append_of_subset_left _ (own_subset b s t)
  | case4 b s h n hv ih =>
    have hlen := (verdict_eq_emit hv).2.2.1
    have hv' : F.verdict b (s ++ t) = .emit h n := by rw [verdict_append t (by simp [hv]), hv]
    have hrest : F.rest n (s ++ t) = F.rest n s ++ t := List.drop_append_of_le_length (by omega)
    rw [List.cons_append, accepted_cons, accepted_cons, hv, hv']
    simp only
    rw [hrest]
    exact List.append_subset.mpr ⟨List.subset_append_of_subset_left _ (own_subset b s t),
      List.subset_append_of_subset_right _ ih⟩
where
  /-- The header of the first element is still there. -/
  own_subset (b : α) (s t : List α) :
      (if F.isHead b ∧ F.headerLen ≤ s.length then (F.header (s.take F.headerLen)).toList else []) ⊆
        if F.isHead b ∧ F.headerLen ≤ (s ++ t).length then
          (F.header ((s ++ t).take F.headerLen)).toList else [] := by
    split
    case isFalse => exact List.nil_subset _
    case isTrue h =>
      rw [if_pos ⟨h.1, by rw [List.length_append]; omega⟩, List.take_append_of_le_length h.2]
      exact List.Subset.refl _

/-- Elements that start no frame accept no header. -/
theorem accepted_skip_append {w s : List α} (hw : ∀ c ∈ w, F.isHead c = false) :
    F.accepted (w ++ s) = F.accepted s := by
  induction w with
  | nil => rfl
  | cons b w ih =>
    have hb := hw b List.mem_cons_self
    rw [List.cons_append, accepted_cons, verdict_of_not_head _ hb, if_neg (by simp [hb]),
      List.nil_append]
    exact ih fun c hc => hw c (List.mem_cons_of_mem b hc)

/-- A frame accepts its own header only, whatever its header and payload contain. -/
theorem accepted_frame {b t : α} {hdr body r : List α} {h : β} {n : ℕ} (hb : F.isHead b = true)
    (hhdr : hdr.length = F.headerLen) (hh : F.header hdr = some (h, n)) (hbody : body.length = n)
    (ht : F.isTail t = true) :
    F.accepted (b :: (hdr ++ (body ++ t :: r))) = (h, n) :: F.accepted r := by
  have htake : (hdr ++ (body ++ t :: r)).take F.headerLen = hdr := List.take_left' hhdr
  have hlen : F.headerLen ≤ (hdr ++ (body ++ t :: r)).length := by
    rw [List.length_append]; omega
  rw [accepted_cons, verdict_frame hb hhdr hh hbody, if_pos ht, if_pos ⟨hb, hlen⟩, htake, hh]
  simp only [rest_frame hhdr hbody, Option.toList_some, List.singleton_append]

end Accepted

end Framing

end MyUvpp
