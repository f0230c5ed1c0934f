import Mathlib.Data.List.Nodup

/-! # Lists with unique keys

A map from keys to values as the list of its entries, in the order of the keys. -/

namespace MyUvpp

variable {α κ : Type*} {key : α → κ} {l : List α} {a b : α}

/-- An entry is determined by its key. -/
theorem eq_of_key (h : (l.map key).Nodup) (ha : a ∈ l) (hb : b ∈ l) (heq : key a = key b) : a = b :=
  List.inj_on_of_nodup_map h ha hb heq

/-- Looking up the key of an entry finds this entry. -/
theorem find?_key [DecidableEq κ] (key : α → κ) (h : (l.map key).Nodup) (ha : a ∈ l) :
    l.find? (key · = key a) = some a := by
  cases hfind : l.find? (key · = key a) with
  | none => exact absurd (List.find?_eq_none.mp hfind a ha) (by simp)
  | some b =>
    have hkey : key b = key a := by simpa using List.find?_some hfind
    rw [eq_of_key h (List.mem_of_find?_eq_some hfind) ha hkey]

/-- The entries that are left when every entry whose key is listed is passed over, and one occurrence of
its key is crossed out. -/
def crossOut [DecidableEq κ] (key : α → κ) : List α → List κ → List α
  | [], _ => []
  | a :: as, ks =>
    if key a ∈ ks then crossOut key as (ks.erase (key a)) else a :: crossOut key as ks

/-- With unique keys, an occurrence that has been crossed out is one that is not looked for again. -/
theorem crossOut_eq_filter [DecidableEq κ] (h : (l.map key).Nodup) (ks : List κ) :
    crossOut key l ks = l.filter (key · ∉ ks) := by
  induction l generalizing ks with
  | nil => rfl
  | cons a as ih =>
    obtain ⟨hnew, has⟩ := List.nodup_cons.mp h
    rw [crossOut, List.filter_cons]
    by_cases ha : key a ∈ ks
    · rw [if_pos ha, if_neg (by simpa using ha), ih has]
      refine List.filter_congr fun b hb => ?_
      -- the keys that are still to come are other ones
      have hne : key b ≠ key a := fun heq => hnew (heq ▸ List.mem_map_of_mem hb)
      exact decide_eq_decide.mpr (not_congr (List.mem_erase_of_ne hne))
    · rw [if_neg ha, if_pos (by simpa using ha), ih has]

/-- How often a key is left. -/
theorem count_filter_key [DecidableEq κ] (h : (l.map key).Nodup) (P : κ → Prop) [DecidablePred P]
    (ha : a ∈ l) : ((l.filter fun b => P (key b)).map key).count (key a) = if P (key a) then 1 else 0 := by
  have hnodup : ((l.filter fun b => P (key b)).map key).Nodup := h.sublist (List.filter_sublist.map key)
  by_cases hP : P (key a)
  · rw [if_pos hP]
    refine List.count_eq_one_of_mem hnodup (List.mem_map_of_mem (List.mem_filter.mpr ⟨ha, ?_⟩))
    exact decide_eq_true hP
  · rw [if_neg hP]
    refine List.count_eq_zero_of_not_mem fun hmem => ?_
    obtain ⟨b, hb, heq⟩ := List.mem_map.mp hmem
    exact hP (heq ▸ of_decide_eq_true (List.mem_filter.mp hb).2)

end MyUvpp
