import Mathlib.Data.List.Basic

/-! # The mutex of libuv

A mutex is held by one thread at a time, and a thread that finds it held by another one waits. A thread
that locks it again while it holds it goes on, as with the critical sections of Windows, and has to
unlock it twice; that this has happened is recorded, since on other systems the thread waits for itself
or aborts. -/

namespace MyUvpp

/-- `uv_mutex_t` for the threads `τ`, which is recursive on the platform of the project. -/
structure UvMutex (τ : Type*) where
  /-- The thread that holds the mutex, once for each lock it has not undone. -/
  holders : List τ
  /-- Whether a thread has locked the mutex while it held it. -/
  relocked : Bool

namespace UvMutex

variable {τ : Type*}

/-- `uv_mutex_init`: nobody holds the mutex. -/
def new : UvMutex τ := ⟨[], false⟩

/-- `uv_mutex_lock`; there is no result while another thread holds the mutex. -/
def lock [DecidableEq τ] (m : UvMutex τ) (t : τ) : Option (UvMutex τ) :=
  match m.holders with
  | [] => some { m with holders := [t] }
  | u :: us => if u = t then some ⟨t :: u :: us, true⟩ else none

/-- `uv_mutex_unlock`, once for one lock. -/
def unlock (m : UvMutex τ) : UvMutex τ := { m with holders := m.holders.tail }

/-- Nobody holds the mutex, and nobody has ever locked it twice. -/
def Free (m : UvMutex τ) : Prop := m.holders = [] ∧ m.relocked = false

/-- A mutex just initialised is free. -/
theorem free_new : (new : UvMutex τ).Free := ⟨rfl, rfl⟩

variable [DecidableEq τ] {m m' : UvMutex τ} {t : τ}

/-- Every thread can lock a free mutex. -/
theorem Free.lock (h : m.Free) (t : τ) : m.lock t = some ⟨[t], false⟩ := by
  rw [UvMutex.lock, h.1]
  simp only [h.2]

/-- A critical section leaves a free mutex free. -/
theorem Free.unlock_of_lock (h : m.Free) (hlock : m.lock t = some m') : m'.unlock.Free := by
  rw [h.lock] at hlock
  cases hlock
  exact ⟨rfl, rfl⟩

/-- A thread that has locked the mutex holds it once more. -/
theorem holders_of_lock (hlock : m.lock t = some m') : m'.holders = t :: m.holders := by
  rw [UvMutex.lock] at hlock
  split at hlock
  case h_1 hfree =>
    cases hlock
    rw [hfree]
  case h_2 hheld =>
    obtain ⟨-, heq⟩ := Option.ite_none_right_eq_some.mp hlock
    cases heq
    rw [hheld]

/-- A second lock is recorded for good. -/
theorem relocked_of_lock (hlock : m.lock t = some m') (h : m.holders ≠ [] ∨ m.relocked = true) :
    m'.relocked = true := by
  rw [UvMutex.lock] at hlock
  split at hlock
  case h_1 hfree =>
    cases hlock
    exact h.resolve_left (not_not.mpr hfree)
  case h_2 =>
    obtain ⟨-, heq⟩ := Option.ite_none_right_eq_some.mp hlock
    cases heq
    rfl

end UvMutex

end MyUvpp
