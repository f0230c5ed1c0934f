import Mathlib.Logic.Function.Basic

/-! # The callback table of a handle (`callback.hpp`)

Every `uv::Handle` keeps the callbacks of its user in a table with one slot for each kind of callback.
`store` puts a callback into a slot and destroys what was there, `invoke` calls what is in the slot at
that moment. -/

namespace MyUvpp

/-- `internal::EUVCallbackId`: the slots, one for each kind of operation. -/
inductive UvCallbackId where
  | close
  | listen
  | readStart
  | write
  | shutdown
  | connect
  | connect6
  | accept
  | tcp
  | timer
  deriving DecidableEq

/-- `uv::callbacks` with callbacks `κ`: `m_lut`, where `none` is a null pointer. -/
structure Callbacks (κ : Type*) where
  lut : UvCallbackId → Option κ

namespace Callbacks

variable {κ : Type*}

/-- `callbacks::callbacks`: all slots are empty. -/
def new : Callbacks κ := ⟨fun _ => none⟩

/-- `callbacks::store`, which replaces the callback that was in the slot. -/
def store (c : Callbacks κ) (cid : UvCallbackId) (callback : κ) : Callbacks κ :=
  ⟨Function.update c.lut cid (some callback)⟩

/-- The callback that `callbacks::invoke` calls; it asserts that there is one. -/
def invoke (c : Callbacks κ) (cid : UvCallbackId) : Option κ := c.lut cid

/-- A handle just constructed has no callback. -/
@[simp] theorem invoke_new (cid : UvCallbackId) : (new : Callbacks κ).invoke cid = none := rfl

/-- The callback just stored is the one invoked. -/
@[simp] theorem invoke_store (c : Callbacks κ) (cid : UvCallbackId) (callback : κ) :
    (c.store cid callback).invoke cid = some callback := Function.update_self _ _ _

/-- Storing one callback leaves the others. -/
theorem invoke_store_of_ne (c : Callbacks κ) {cid cid' : UvCallbackId} (hne : cid ≠ cid')
    (callback : κ) : (c.store cid' callback).invoke cid = c.invoke cid :=
  Function.update_of_ne hne _ _

end Callbacks

end MyUvpp
