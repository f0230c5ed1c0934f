import MyUvpp.Foundation.TransitionSystem
import Mathlib.Data.List.Nodup
import Mathlib.Logic.Function.Basic

/-! # A pool of requests

A request is allocated or taken from a list of finished ones, filled, and submitted; when it has been
rejected or completed it is returned, and goes to the list or is freed. `RequestCall` has these moves,
each from one place to another, so that a log of calls that can be followed from the beginning uses every
request properly: it is nowhere twice, it is freed when it has been returned and at no other time, and
every submission returns it once. `RequestPool` is a pool with a list of limited length, whose operations
have such a log. -/

namespace MyUvpp

/-- Where a request is: its owner at this moment. -/
inductive RequestPlace where
  /-- It is not allocated. -/
  | freed
  /-- It is in the list, for later use. -/
  | listed
  /-- It is being filled. -/
  | taken
  | inFlight
  /-- It has been rejected or completed, and is not yet back in the list. -/
  | returned
  deriving DecidableEq

/-- What is done with a request, each of which hands it from one place to another. -/
inductive RequestOp where
  | alloc
  | take
  | submit
  | reject
  | complete
  | recycle
  | free
  deriving DecidableEq

/-- Where a request must be for an operation. -/
def RequestOp.source : RequestOp → RequestPlace
  | .alloc => .freed
  | .take => .listed
  | .submit | .reject => .taken
  | .complete => .inFlight
  | .recycle | .free => .returned

/-- Where a request goes by an operation. -/
def RequestOp.target : RequestOp → RequestPlace
  | .alloc | .take => .taken
  | .submit => .inFlight
  | .reject | .complete => .returned
  | .recycle => .listed
  | .free => .freed

/-- An operation on the request at an address. -/
structure RequestCall (α : Type*) where
  op : RequestOp
  addr : α
  deriving DecidableEq

section Calls

variable {α : Type*} [DecidableEq α] {place place' : α → RequestPlace} {log log' : List (RequestCall α)}

/-- A call moves one request, if that is where it must be. -/
def RequestCall.step (place : α → RequestPlace) (c : RequestCall α) : Option (α → RequestPlace) :=
  if place c.addr = c.op.source then some (Function.update place c.addr c.op.target) else none

/-- Two calls that move a request twice. -/
theorem run_pair {a : α} {o o' : RequestOp} (hsource : place a = o.source)
    (hnext : o.target = o'.source) :
    run RequestCall.step place [⟨o, a⟩, ⟨o', a⟩] = some (Function.update place a o'.target) := by
  have hfirst : RequestCall.step place ⟨o, a⟩ = some (Function.update place a o.target) :=
    if_pos hsource
  -- the first call has brought the request where the second one needs it
  have hsecond : RequestCall.step (Function.update place a o.target) ⟨o', a⟩ =
      some (Function.update (Function.update place a o.target) a o'.target) := by
    refine if_pos ?_
    rw [Function.update_self]
    exact hnext
  rw [run, hfirst, Option.bind_some, run, hsecond, Option.bind_some, run, Function.update_idem]

end Calls

/-! ### The pool -/

/-- A pool of requests, of which at most one is being filled. -/
structure RequestPool (α : Type*) where
  taken : Option α
  listed : List α
  inFlight : List α

namespace RequestPool

variable {α : Type*} (p : RequestPool α)

/-- The requests that are allocated, wherever they are. -/
def owned : List α := p.taken.toList ++ p.listed ++ p.inFlight

/-- Allocate a request for the one that is being filled. -/
def alloc (a : α) : RequestPool α := { p with taken := some a }

/-- Take the first request of the list, which is followed by others. -/
def take (a : α) (as : List α) : RequestPool α := { p with taken := some a, listed := as }

/-- The request that has been filled is accepted. -/
def submit (a : α) : RequestPool α := { p with taken := none, inFlight := p.inFlight ++ [a] }

/-- The request that has been filled is not accepted, and goes to the list. -/
def reject (a : α) : RequestPool α := { p with taken := none, listed := p.listed ++ [a] }

/-- No request is twice in the pool, and the list does not exceed its limit by more than one. -/
structure Inv (limit : ℕ) : Prop where
  nodup : p.owned.Nodup
  size : p.listed.length + p.taken.toList.length ≤ limit + 1

variable {p} {limit : ℕ} {a : α}

/-- What the pool owns: the request that is taken, those in the list and those in flight. -/
theorem mem_owned {b : α} : b ∈ p.owned ↔ p.taken = some b ∨ b ∈ p.listed ∨ b ∈ p.inFlight := by
  rw [owned, List.mem_append, List.mem_append, Option.mem_toList, or_assoc]

/-! Only an allocation adds a request to the pool. -/

/-- A fresh request is the only one that comes to be owned. -/
theorem mem_owned_alloc {b : α} (hne : b ≠ a) (hb : b ∈ (p.alloc a).owned) : b ∈ p.owned :=
  mem_owned.mpr (.inr ((mem_owned.mp hb).resolve_left fun heq => hne (Option.some.inj heq).symm))

/-- Taking a request from the list makes none owned. -/
theorem mem_owned_take (htaken : p.taken = none) {as : List α} (hlist : p.listed = a :: as) {b : α}
    (hb : b ∈ (p.take a as).owned) : b ∈ p.owned := by
  rw [owned, htaken, hlist]
  exact hb

/-- Submitting a request makes none owned. -/
theorem mem_owned_submit (htaken : p.taken = some a) {b : α} (hb : b ∈ (p.submit a).owned) :
    b ∈ p.owned := by
  rw [mem_owned, RequestPool.submit, List.mem_append, List.mem_singleton] at hb
  rw [mem_owned]
  rcases hb with hb | hb | hb | rfl
  · cases hb
  · exact .inr (.inl hb)
  · exact .inr (.inr hb)
  · exact .inl htaken

/-- Recycling a request that was not accepted makes none owned. -/
theorem mem_owned_reject (htaken : p.taken = some a) {b : α} (hb : b ∈ (p.reject a).owned) :
    b ∈ p.owned := by
  rw [mem_owned, RequestPool.reject, List.mem_append, List.mem_singleton] at hb
  rw [mem_owned]
  rcases hb with hb | (hb | rfl) | hb
  · cases hb
  · exact .inr (.inl hb)
  · exact .inl htaken
  · exact .inr (.inr hb)

/-! No operation puts a request in two places. -/

/-- A fresh request is in one place. -/
theorem nodup_alloc (h : p.owned.Nodup) (htaken : p.taken = none) (ha : a ∉ p.owned) :
    (p.alloc a).owned.Nodup := by
  rw [owned, htaken] at h ha
  exact List.nodup_cons.mpr ⟨ha, h⟩

/-- A request that is taken from the list is in one place. -/
theorem nodup_take (h : p.owned.Nodup) (htaken : p.taken = none) {as : List α}
    (hlist : p.listed = a :: as) : (p.take a as).owned.Nodup := by
  rw [owned, htaken, hlist] at h
  exact h

/-- A request that is submitted is in one place. -/
theorem nodup_submit (h : p.owned.Nodup) (htaken : p.taken = some a) :
    (p.submit a).owned.Nodup := by
  rw [owned, htaken] at h
  -- the request goes from the front to the end
  refine (List.Perm.nodup_iff ?_).mp h
  show ([a] ++ p.listed ++ p.inFlight).Perm ([] ++ p.listed ++ (p.inFlight ++ [a]))
  rw [List.nil_append, List.append_assoc, ← List.append_assoc p.listed]
  exact List.perm_append_comm

/-- A request that was not accepted is in one place. -/
theorem nodup_reject (h : p.owned.Nodup) (htaken : p.taken = some a) :
    (p.reject a).owned.Nodup := by
  rw [owned, htaken] at h
  show (p.listed ++ [a] ++ p.inFlight).Nodup
  -- here it goes to the end of the list
  exact (List.perm_append_comm.append_right _).nodup_iff.mp h

/-- A fresh request is taken when the list is empty. -/
theorem Inv.alloc (h : p.Inv limit) (htaken : p.taken = none) (ha : a ∉ p.owned)
    (hempty : p.listed = []) : (p.alloc a).Inv limit where
  nodup := nodup_alloc h.nodup htaken ha
  size := by
    rw [RequestPool.alloc, hempty]
    exact Nat.succ_le_succ (Nat.zero_le limit)

/-- The first request of the list is taken. -/
theorem Inv.take (h : p.Inv limit) (htaken : p.taken = none) {as : List α}
    (hlist : p.listed = a :: as) : (p.take a as).Inv limit where
  nodup := nodup_take h.nodup htaken hlist
  size := by
    have hsize := h.size
    rw [htaken, hlist] at hsize
    exact hsize

/-- The request that is taken goes into flight. -/
theorem Inv.submit (h : p.Inv limit) (htaken : p.taken = some a) : (p.submit a).Inv limit where
  nodup := nodup_submit h.nodup htaken
  size := Nat.le_trans (Nat.le_add_right _ _) h.size

/-- The request that is taken goes back to the list. -/
theorem Inv.reject (h : p.Inv limit) (htaken : p.taken = some a) : (p.reject a).Inv limit where
  nodup := nodup_reject h.nodup htaken
  size := by
    have hsize := h.size
    rw [htaken] at hsize
    show (p.listed ++ [a]).length + 0 ≤ limit + 1
    rwa [List.length_append]

/-! ### Where the requests are -/

variable [DecidableEq α]

/-- Where each request is; the four places exclude each other when the requests are distinct. -/
def place (p : RequestPool α) (a : α) : RequestPlace :=
  if p.taken = some a then .taken
  else if a ∈ p.listed then .listed
  else if a ∈ p.inFlight then .inFlight
  else .freed

/-- A request is completed, and goes to the list if that is not longer than the limit. -/
def complete (p : RequestPool α) (limit : ℕ) (a : α) : RequestPool α :=
  let inFlight := p.inFlight.filter (· ≠ a)
  if p.listed.length > limit then { p with inFlight }
  else { p with inFlight, listed := p.listed ++ [a] }

/-- What is not owned has been freed, or was never allocated. -/
theorem place_of_not_mem (ha : a ∉ p.owned) : p.place a = .freed := by
  obtain ⟨htaken, hlisted, hflight⟩ := not_or.mp (mem_owned.not.mp ha) |>.imp_right not_or.mp
  rw [place, if_neg htaken, if_neg hlisted, if_neg hflight]

/-- The requests of the list are there and nowhere else. -/
theorem place_of_listed (htaken : p.taken = none) (ha : a ∈ p.listed) : p.place a = .listed := by
  rw [place, htaken, if_neg (fun heq => by cases heq), if_pos ha]

/-- A request in flight is neither taken nor listed. -/
theorem place_of_inFlight (h : p.owned.Nodup) (ha : a ∈ p.inFlight) : p.place a = .inFlight := by
  obtain ⟨-, -, hdisj⟩ := List.nodup_append.mp h
  have hnot : a ∉ p.taken.toList ++ p.listed := fun hmem => hdisj a hmem a ha rfl
  obtain ⟨htaken, hlisted⟩ := not_or.mp (List.mem_append.not.mp hnot)
  rw [place, if_neg (fun heq => htaken (Option.mem_toList.mpr heq)), if_neg hlisted, if_pos ha]

/-- One request has moved, and the others are where they were. -/
theorem place_eq_update {p' : RequestPool α} {q : RequestPlace} (hself : p'.place a = q)
    (htaken : ∀ b ≠ a, p'.taken = some b ↔ p.taken = some b)
    (hlisted : ∀ b ≠ a, b ∈ p'.listed ↔ b ∈ p.listed)
    (hflight : ∀ b ≠ a, b ∈ p'.inFlight ↔ b ∈ p.inFlight) :
    Function.update p.place a q = p'.place := by
  funext b
  -- the four tests of `place` have the same results for any other request
  by_cases hb : b = a
  · rw [hb, Function.update_self, hself]
  · rw [Function.update_of_ne hb, place, place]
    simp only [htaken b hb, hlisted b hb, hflight b hb]

/-! ### The operations

Each has a log that can be followed from where the requests were to where they are. -/

/-- As one of the calls that a request may see, a fresh request is allocated. -/
theorem run_alloc (htaken : p.taken = none) (ha : a ∉ p.owned) :
    run RequestCall.step p.place [⟨.alloc, a⟩] = some (p.alloc a).place := by
  have hstep : RequestCall.step p.place ⟨.alloc, a⟩ = some (Function.update p.place a .taken) :=
    if_pos (place_of_not_mem ha)
  rw [run, hstep, Option.bind_some, run]
  refine congrArg some (place_eq_update (if_pos rfl) (fun b hb => ?_) (fun _ _ => Iff.rfl)
    fun _ _ => Iff.rfl)
  rw [RequestPool.alloc, htaken]
  exact iff_of_false (fun heq => hb (Option.some.inj heq).symm) fun heq => by cases heq

/-- A request of the list is taken. -/
theorem run_take (htaken : p.taken = none) {as : List α}
    (hlist : p.listed = a :: as) :
    run RequestCall.step p.place [⟨.take, a⟩] = some (p.take a as).place := by
  have hstep : RequestCall.step p.place ⟨.take, a⟩ = some (Function.update p.place a .taken) :=
    if_pos (place_of_listed htaken (hlist ▸ List.mem_cons_self))
  rw [run, hstep, Option.bind_some, run]
  refine congrArg some (place_eq_update (if_pos rfl) (fun b hb => ?_) (fun b hb => ?_)
    fun _ _ => Iff.rfl)
  · rw [RequestPool.take, htaken]
    exact iff_of_false (fun heq => hb (Option.some.inj heq).symm) fun heq => by cases heq
  · rw [RequestPool.take, hlist, List.mem_cons, or_iff_right hb]

/-- The request that is taken is submitted. -/
theorem run_submit (h : p.owned.Nodup) (htaken : p.taken = some a) :
    run RequestCall.step p.place [⟨.submit, a⟩] = some (p.submit a).place := by
  have hstep : RequestCall.step p.place ⟨.submit, a⟩ =
      some (Function.update p.place a .inFlight) := if_pos (if_pos htaken)
  rw [run, hstep, Option.bind_some, run]
  refine congrArg some (place_eq_update ?_ (fun b hb => ?_) (fun _ _ => Iff.rfl) fun b hb => ?_)
  -- it is in flight, and nowhere else
  · exact place_of_inFlight (nodup_submit h htaken)
      (List.mem_append_right _ (List.mem_singleton_self a))
  · rw [RequestPool.submit, htaken]
    exact iff_of_false (fun heq => by cases heq) fun heq => hb (Option.some.inj heq).symm
  · rw [RequestPool.submit, List.mem_append, List.mem_singleton, or_iff_left hb]

/-- The request that is taken is rejected and recycled. -/
theorem run_reject (htaken : p.taken = some a) :
    run RequestCall.step p.place [⟨.reject, a⟩, ⟨.recycle, a⟩] = some (p.reject a).place := by
  have hsource : p.place a = RequestOp.reject.source := if_pos htaken
  rw [run_pair hsource rfl]
  refine congrArg some (place_eq_update ?_ (fun b hb => ?_) (fun b hb => ?_) fun _ _ => Iff.rfl)
  · exact place_of_listed rfl (List.mem_append_right _ (List.mem_singleton_self a))
  · rw [RequestPool.reject, htaken]
    exact iff_of_false (fun heq => by cases heq) fun heq => hb (Option.some.inj heq).symm
  · rw [RequestPool.reject, List.mem_append, List.mem_singleton, or_iff_left hb]

/-- The requests in flight without the completed one. -/
theorem mem_filter_ne {b : α} {l : List α} : b ∈ l.filter (· ≠ a) ↔ b ∈ l ∧ b ≠ a := by
  rw [List.mem_filter, decide_eq_true_iff]

/-- The same for requests that have something with them. -/
theorem map_fst_filter_ne {β : Type*} (l : List (α × β)) (a : α) :
    (l.filter (·.1 ≠ a)).map Prod.fst = (l.map Prod.fst).filter (· ≠ a) := by
  rw [List.filter_map]
  rfl

/-- The end of a write makes no request owned. -/
theorem mem_owned_complete (ha : a ∈ p.inFlight) {b : α} (hb : b ∈ (p.complete limit a).owned) :
    b ∈ p.owned := by
  rw [mem_owned, RequestPool.complete] at hb
  rw [mem_owned]
  split at hb
  case isTrue => exact hb.imp_right (Or.imp_right fun hb => (mem_filter_ne.mp hb).1)
  case isFalse =>
    rcases hb with hb | hb | hb
    · exact .inl hb
    · rcases List.mem_append.mp hb with hb | hb
      · exact .inr (.inl hb)
      · exact .inr (.inr (List.mem_singleton.mp hb ▸ ha))
    · exact .inr (.inr (mem_filter_ne.mp hb).1)

/-- A request whose write ends is in one place, or in none. -/
theorem nodup_complete (h : p.owned.Nodup) (htaken : p.taken = none) (ha : a ∈ p.inFlight) :
    (p.complete limit a).owned.Nodup := by
  rw [owned, htaken] at h
  have hnodup : (p.listed ++ p.inFlight).Nodup := h
  obtain ⟨hlisted, hflight, hdisj⟩ := List.nodup_append.mp hnodup
  have hkept := hflight.filter fun b => decide (b ≠ a)
  rw [RequestPool.complete]
  split
  case isTrue =>
    rw [owned, htaken]
    exact List.nodup_append.mpr ⟨hlisted, hkept, fun b hb c hc => hdisj b hb c (mem_filter_ne.mp hc).1⟩
  case isFalse =>
    rw [owned, htaken]
    show (p.listed ++ [a] ++ p.inFlight.filter (· ≠ a)).Nodup
    -- the request is at the end of the list, and no longer in flight
    refine List.nodup_append.mpr ⟨?_, hkept, fun b hb c hc => ?_⟩
    · refine List.nodup_append.mpr ⟨hlisted, List.nodup_singleton a, fun b hb c hc => ?_⟩
      rw [List.mem_singleton.mp hc]
      exact hdisj b hb a ha
    · rcases List.mem_append.mp hb with hb | hb
      · exact hdisj b hb c (mem_filter_ne.mp hc).1
      · rw [List.mem_singleton.mp hb]
        exact (mem_filter_ne.mp hc).2.symm

/-- A request whose write ends goes back to the list, or is freed when the list is full. -/
theorem Inv.complete (h : p.Inv limit) (htaken : p.taken = none) (ha : a ∈ p.inFlight) :
    (p.complete limit a).Inv limit := by
  refine ⟨nodup_complete h.nodup htaken ha, ?_⟩
  have hsize := h.size
  rw [RequestPool.complete]
  split
  case isTrue => exact hsize
  case isFalse hroom =>
    show (p.listed ++ [a]).length + p.taken.toList.length ≤ limit + 1
    rw [htaken, List.length_append]
    show p.listed.length + 1 + 0 ≤ limit + 1
    omega

/-- A request in flight completes, and is then freed or recycled. -/
theorem run_complete (h : p.owned.Nodup) (htaken : p.taken = none) (ha : a ∈ p.inFlight) :
    run RequestCall.step p.place
        [⟨.complete, a⟩, ⟨if p.listed.length > limit then .free else .recycle, a⟩] =
      some (p.complete limit a).place := by
  have hnot : a ∉ p.listed := by
    intro hmem
    exact (List.nodup_append.mp h).2.2 a (List.mem_append_right _ hmem) a ha rfl
  have hsource : p.place a = RequestOp.complete.source := place_of_inFlight h ha
  rw [RequestPool.complete]
  split
  case isTrue =>
    -- the list is too long, and the request is freed
    rw [run_pair hsource rfl]
    refine congrArg some (place_eq_update ?_ (fun _ _ => Iff.rfl) (fun _ _ => Iff.rfl) fun b hb => ?_)
    · refine place_of_not_mem (mem_owned.not.mpr ?_)
      rintro (htaken' | hlisted | hflight)
      · cases htaken.symm.trans htaken'
      · exact hnot hlisted
      · exact (mem_filter_ne.mp hflight).2 rfl
    · exact mem_filter_ne.trans (and_iff_left hb)
  case isFalse =>
    -- the request is now the last one of the list
    rw [run_pair hsource rfl]
    refine congrArg some (place_eq_update ?_ (fun _ _ => Iff.rfl) (fun b hb => ?_) fun b hb => ?_)
    · exact place_of_listed htaken (List.mem_append_right _ (List.mem_singleton_self a))
    · exact List.mem_append.trans (or_iff_left fun hmem => hb (List.mem_singleton.mp hmem))
    · exact mem_filter_ne.trans (and_iff_left hb)

end RequestPool

end MyUvpp
