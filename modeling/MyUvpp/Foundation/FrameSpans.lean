import MyUvpp.Foundation.FrameScan

/-! # Where the frames of a stream come from

`Framing.spans` is the scan of a stream that keeps, with each frame, the elements it was read from and
those that were dropped in front of it. The elements kept are the stream, up to what is left behind its
last frame. -/

namespace MyUvpp

/-- A frame of a stream: the elements dropped in front of it, its own elements, and what was read from
them. -/
structure Span (α β : Type*) where
  skipped : List α
  elements : List α
  frame : β × List α

/-- The part of the stream that the span covers. -/
def Span.covered {α β : Type*} (sp : Span α β) : List α := sp.skipped ++ sp.elements

namespace Framing

variable {α β : Type*}

/-- The frames of a stream with the elements they come from, where `skipped` has been dropped already. -/
def spans (F : Framing α β) (skipped : List α) : List α → List (Span α β)
  | [] => []
  | b :: s =>
    match F.verdict b s with
    | .skip => F.spans (skipped ++ [b]) s
    | .stop => []
    | .emit h n =>
      ⟨skipped, b :: s.take (F.headerLen + (n + 1)), (h, F.payload n s)⟩ :: F.spans [] (F.rest n s)
termination_by s => s.length
decreasing_by all_goals (simp only [rest, List.length_cons, List.length_drop]; omega)

/-- The parts of an accepted frame: head element, header, payload and tail element. -/
structure Framed (F : Framing α β) (sp : Span α β) (b : α) (hdr : List α) (t : α) : Prop where
  elements_eq : sp.elements = b :: (hdr ++ (sp.frame.2 ++ [t]))
  isHead : F.isHead b = true
  length_hdr : hdr.length = F.headerLen
  header : F.header hdr = some (sp.frame.1, sp.frame.2.length)
  isTail : F.isTail t = true

variable {F : Framing α β}

/-- The frames are those of the scan. -/
theorem map_frame_spans (skipped u : List α) : (F.spans skipped u).map Span.frame = F.scan u := by
  induction u using scan.induct F generalizing skipped with
  | case1 => simp [spans, scan]
  | case2 b s hv ih =>
    simp only [spans, scan, hv]
    exact ih (skipped ++ [b])
  | case3 b s hv => simp [spans, scan, hv]
  | case4 b s h n hv ih =>
    simp only [spans, scan, hv, List.map_cons]
    rw [ih []]

/-- The elements of an emitted frame, part by part. -/
theorem framed_of_emit {b : α} {s skipped : List α} {h : β} {n : ℕ} (hv : F.verdict b s = .emit h n) :
    ∃ t, F.Framed ⟨skipped, b :: s.take (F.headerLen + (n + 1)), (h, F.payload n s)⟩ b
      (s.take F.headerLen) t := by
  obtain ⟨hb, hh, hlen, t, ht, htail⟩ := verdict_eq_emit hv
  have hn : (F.payload n s).length = n := by
    rw [payload, List.length_take, List.length_drop]
    omega
  refine ⟨t, ?_, hb, by rw [List.length_take]; omega, by rw [hn]; exact hh, htail⟩
  have hbody : (s.drop F.headerLen).take (n + 1) = F.payload n s ++ [t] := by
    rw [payload, List.take_add_one, ht]
    rfl
  simp only
  rw [List.take_add, hbody]

/-- Every span is an accepted frame. -/
theorem framed_of_mem_spans {skipped u : List α} {sp : Span α β} (hsp : sp ∈ F.spans skipped u) :
    ∃ b hdr t, F.Framed sp b hdr t := by
  induction u using scan.induct F generalizing skipped with
  | case1 => simp [spans] at hsp
  | case2 b s hv ih =>
    simp only [spans, hv] at hsp
    exact ih hsp
  | case3 b s hv => simp [spans, hv] at hsp
  | case4 b s h n hv ih =>
    simp only [spans, hv, List.mem_cons] at hsp
    rcases hsp with rfl | hsp
    · exact ⟨b, _, framed_of_emit hv⟩
    · exact ih hsp

/-- An emitted frame and what follows it are the stream from its head element on. -/
theorem take_append_rest (n : ℕ) (s : List α) :
    s.take (F.headerLen + (n + 1)) ++ F.rest n s = s :=
  List.take_append_drop _ _

/-- **A reduction that leaves no frame covers the stream by its spans**, up to elements that were
dropped behind the last frame and what is left. -/
theorem Reduces.spans_append {u v : List α} {out : List (β × List α)} (h : F.Reduces u out v)
    (hv : F.scan v = []) (skipped : List α) :
    ∃ dropped, skipped ++ u = (F.spans skipped u).flatMap Span.covered ++ dropped ++ v := by
  induction h generalizing skipped with
  | refl u =>
    have hnil : F.spans skipped u = [] := by
      rw [← List.map_eq_nil_iff (f := Span.frame), map_frame_spans, hv]
    exact ⟨skipped, by rw [hnil]; rfl⟩
  | @skip b s out v hskip _ ih =>
    obtain ⟨dropped, heq⟩ := ih hv (skipped ++ [b])
    refine ⟨dropped, ?_⟩
    simp only [Framing.spans, hskip]
    rw [← heq, List.append_assoc]
    rfl
  | @emit b s h n out v hemit _ ih =>
    obtain ⟨dropped, heq⟩ := ih hv []
    refine ⟨dropped, ?_⟩
    simp only [Framing.spans, hemit, List.flatMap_cons, Span.covered]
    rw [List.nil_append] at heq
    rw [List.append_assoc, List.append_assoc, ← List.append_assoc _ dropped v, ← heq,
      List.append_assoc, List.cons_append, take_append_rest]

end Framing

end MyUvpp
