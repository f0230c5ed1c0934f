import Mathlib.Data.List.Nodup
import Mathlib.Logic.Function.Basic

/-! # Rings of linked nodes

Nodes that are linked in both directions. A `Path` leads from a node through some others to a last one, and a
`Ring` is a path from a head back to itself. Two rules say how a path is bent to another end or to another
start; whatever is done to a ring is put together from them. -/

namespace MyUvpp

/-- Where every node points to. -/
structure Links (α : Type*) where
  next : α → α
  prev : α → α

namespace Links

variable {α : Type*}

/-- A node points to another next one. -/
def setNext [DecidableEq α] (m : Links α) (a b : α) : Links α := { m with next := Function.update m.next a b }

/-- A node points to another one before it. -/
def setPrev [DecidableEq α] (m : Links α) (a b : α) : Links α := { m with prev := Function.update m.prev a b }

/-- A path through some nodes, that can be followed in both directions. -/
def Path (m : Links α) : α → List α → α → Prop
  | a, [], b => m.next a = b ∧ m.prev b = a
  | a, c :: l, b => m.next a = c ∧ m.prev c = a ∧ m.Path c l b

/-- A path from a head back to it, on which no node comes twice. -/
structure Ring (m : Links α) (h : α) (l : List α) : Prop where
  path : m.Path h l h
  nodup : (h :: l).Nodup

variable {m m' : Links α} {a b c h : α} {l l₁ l₂ : List α}

/-- A path is cut at each of the cells on it. -/
theorem path_append : m.Path a (l₁ ++ c :: l₂) b ↔ m.Path a l₁ c ∧ m.Path c l₂ b := by
  induction l₁ generalizing a with
  | nil => simp only [List.nil_append, Path, and_assoc]
  | cons d l₁ ih => simp only [List.cons_append, Path, ih, and_assoc]

/-- A path depends on what its nodes point to. -/
theorem Path.congr (hpath : m.Path a l b) (hnext : ∀ x ∈ a :: l, m'.next x = m.next x)
    (hprev : ∀ x ∈ l ++ [b], m'.prev x = m.prev x) : m'.Path a l b := by
  induction l generalizing a with
  | nil =>
    obtain ⟨rfl, hb⟩ := hpath
    exact ⟨hnext a List.mem_cons_self, (hprev _ (List.mem_singleton_self _)).trans hb⟩
  | cons c l ih =>
    obtain ⟨hc, ha, hrest⟩ := hpath
    refine ⟨(hnext a List.mem_cons_self).trans hc, (hprev c List.mem_cons_self).trans ha, ih hrest ?_ ?_⟩
    · exact fun x hx => hnext x (List.mem_cons_of_mem a hx)
    · exact fun x hx => hprev x (List.mem_cons_of_mem c hx)

/-- The last node of a path is on it. -/
theorem Path.prev_mem (hpath : m.Path a l b) : m.prev b ∈ a :: l := by
  induction l generalizing a with
  | nil =>
    rw [hpath.2]
    exact List.mem_cons_self
  | cons c l ih => exact List.mem_cons_of_mem a (ih hpath.2.2)

/-- The links the other way round. -/
def flip (m : Links α) : Links α := ⟨m.prev, m.next⟩

/-- A path is walked backwards by the other pointers. -/
theorem Path.flip (hpath : m.Path a l b) : m.flip.Path b l.reverse a := by
  induction l generalizing a with
  | nil => exact hpath.symm
  | cons c l ih =>
    obtain ⟨hc, ha, hrest⟩ := hpath
    rw [List.reverse_cons]
    exact path_append.mpr ⟨ih hrest, ha, hc⟩

/-- **A path is bent to another end.** -/
theorem Path.bend_end (hpath : m.Path a l b) (hnodup : (a :: l).Nodup) (hlast : m'.next (m.prev b) = c)
    (hend : m'.prev c = m.prev b) (hnext : ∀ x ∈ a :: l, x ≠ m.prev b → m'.next x = m.next x)
    (hprev : ∀ x ∈ l, m'.prev x = m.prev x) : m'.Path a l c := by
  induction l generalizing a with
  | nil =>
    rw [hpath.2] at hlast hend
    exact ⟨hlast, hend⟩
  | cons d l ih =>
    obtain ⟨hd, ha, hrest⟩ := hpath
    obtain ⟨hnot, hnodup'⟩ := List.nodup_cons.mp hnodup
    have hne : a ≠ m.prev b := fun heq => hnot (heq ▸ hrest.prev_mem)
    refine ⟨(hnext a List.mem_cons_self hne).trans hd, (hprev d List.mem_cons_self).trans ha, ?_⟩
    refine ih hrest hnodup' (fun x hx => hnext x (List.mem_cons_of_mem a hx)) fun x hx => ?_
    exact hprev x (List.mem_cons_of_mem d hx)

/-- **A path is bent to another start.** -/
theorem Path.bend_start (hpath : m.Path a l b) (hnodup : (l ++ [b]).Nodup) (hfirst : m'.next c = m.next a)
    (hstart : m'.prev (m.next a) = c) (hnext : ∀ x ∈ l, m'.next x = m.next x)
    (hprev : ∀ x ∈ l ++ [b], x ≠ m.next a → m'.prev x = m.prev x) : m'.Path c l b := by
  cases l with
  | nil =>
    rw [hpath.1] at hfirst hstart
    exact ⟨hfirst, hstart⟩
  | cons d l =>
    obtain ⟨hd, -, hrest⟩ := hpath
    rw [hd] at hfirst hstart
    obtain ⟨hnot, -⟩ := List.nodup_cons.mp hnodup
    refine ⟨hfirst, hstart, hrest.congr hnext fun x hx => hprev x (List.mem_cons_of_mem d hx) ?_⟩
    rw [hd]
    exact fun heq => hnot (heq ▸ hx)

namespace Ring

/-- Only the cells of a ring matter for it. -/
theorem congr (hring : m.Ring h l) (hnext : ∀ x ∈ h :: l, m'.next x = m.next x)
    (hprev : ∀ x ∈ h :: l, m'.prev x = m.prev x) : m'.Ring h l := by
  refine ⟨hring.path.congr hnext fun x hx => hprev x ?_, hring.nodup⟩
  rcases List.mem_append.mp hx with hx | hx
  · exact List.mem_cons_of_mem h hx
  · exact List.mem_singleton.mp hx ▸ List.mem_cons_self

/-- The cells of a ring are different, the head included. -/
theorem nodup_concat (hring : m.Ring h l) : (l ++ [h]).Nodup := by
  rw [← List.concat_eq_append, List.nodup_concat]
  exact List.nodup_cons.mp hring.nodup

/-- The head comes back to itself at once if there is no node. -/
theorem next_eq_iff (hring : m.Ring h l) : m.next h = h ↔ l = [] := by
  cases l with
  | nil => exact iff_of_true hring.path.1 rfl
  | cons c l =>
    refine iff_of_false (fun heq => ?_) (List.cons_ne_nil c l)
    exact (List.nodup_cons.mp hring.nodup).1 (heq.symm.trans hring.path.1 ▸ List.mem_cons_self)

/-- A ring is walked backwards by the other pointers. -/
theorem flip (hring : m.Ring h l) : m.flip.Ring h l.reverse where
  path := hring.path.flip
  nodup := List.nodup_cons.mpr ⟨fun hmem => (List.nodup_cons.mp hring.nodup).1 (List.mem_reverse.mp hmem),
    List.nodup_reverse.mpr (List.nodup_cons.mp hring.nodup).2⟩

/-- Behind the head comes the first cell. -/
theorem next_cons (hring : m.Ring h (c :: l)) : m.next h = c := hring.path.1

/-- Behind the head comes a cell of the ring, or the head itself. -/
theorem next_mem (hring : m.Ring h l) : m.next h ∈ h :: l := by
  cases l with
  | nil =>
    rw [hring.path.1]
    exact List.mem_cons_self
  | cons c l =>
    rw [hring.next_cons]
    exact List.mem_cons_of_mem h List.mem_cons_self

/-- The nodes beside a node are on the ring. -/
theorem mem_of_mem (hring : m.Ring h (l₁ ++ c :: l₂)) :
    m.prev c ∈ h :: (l₁ ++ l₂) ∧ m.next c ∈ h :: (l₁ ++ l₂) := by
  obtain ⟨hpath₁, hpath₂⟩ := path_append.mp hring.path
  refine ⟨List.mem_append_left l₂ hpath₁.prev_mem, ?_⟩
  cases l₂ with
  | nil =>
    rw [hpath₂.1]
    exact List.mem_cons_self
  | cons d l₂ =>
    rw [hpath₂.1]
    exact List.mem_cons_of_mem h (List.mem_append_right l₁ List.mem_cons_self)

/-- The last node. -/
theorem prev_mem (hring : m.Ring h l) : m.prev h ∈ h :: l := hring.path.prev_mem

end Ring

end Links

end MyUvpp
