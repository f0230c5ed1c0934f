import MyUvpp.Foundation.TransitionSystem
import MyUvpp.Uv.Handle
import MyUvpp.Uvpp.Callback

/-! # The owner of a handle (`handle.hpp`, `free_handle.hpp`)

A `uv::Handle` allocates a handle of libuv, which is registered with a loop at once, and passes it to
the loop with `close`: the close callback calls the callback of the user and frees the handle. The
destructor frees a handle that was not closed. Every allocation has its own number, so that a pointer
to freed memory is not mistaken for one to memory that was allocated later; what is read and freed is
recorded. -/

namespace MyUvpp

/-- `uv_handle_type`, of the handles that are constructed. -/
inductive UvHandleType where
  | tcp
  | timer
  deriving DecidableEq

/-- A `uv_tcp_t` or `uv_timer_t` with its callback table. Its only close callback is the one of
`Handle::close`. -/
structure UvHandle (κ : Type*) where
  type : UvHandleType
  state : HandleState Unit
  data : Callbacks κ

/-- `uv_is_closing`: the close has been asked for, or has been completed. -/
def UvHandle.isClosing {κ : Type*} (h : UvHandle κ) : Bool := h.state ≠ .opened

/-- `uv_is_closing` is false exactly for an open handle. -/
theorem UvHandle.isClosing_eq_false {κ : Type*} {h : UvHandle κ} :
    h.isClosing = false ↔ h.state = .opened := by
  rw [isClosing, decide_eq_false_iff_not, not_not]

/-- `uv::Handle`, which owns a handle of libuv until it is told to close. -/
structure Handle where
  /-- `m_uv_handle`. -/
  uvHandle : Option ℕ
  /-- `m_will_close`. -/
  willClose : Bool

/-- What is done to a handle of libuv. -/
inductive HandleEffect where
  /-- A read of an allocation that has been freed so many times. -/
  | read (addr frees : ℕ)
  /-- `free_handle` of an allocation that has been freed so many times and may be registered. -/
  | free (addr frees : ℕ) (registered : Bool)
  deriving DecidableEq

/-- The handle exists, and it is not freed under the loop. -/
def HandleEffect.Safe : HandleEffect → Prop
  | .read _ frees => frees = 0
  | .free _ frees registered => frees = 0 ∧ registered = false

/-- The handles of a loop and the objects that own them. -/
structure HandleWorld (κ : Type*) where
  /-- The number of the next allocation. -/
  next : ℕ
  heap : ℕ → UvHandle κ
  /-- How often each allocation has been freed. -/
  frees : ℕ → ℕ
  /-- The `uv::Handle` objects, by their addresses. -/
  wrappers : ℕ → Option Handle
  /-- The handle whose close callback is running. -/
  running : Option ℕ
  effects : List HandleEffect

/-- What may happen next: an operation on a wrapper, or the loop calls the close callback. -/
inductive HandleEvent (κ : Type*) where
  /-- `Tcp(Loop&)` or `Timer(Loop&)` at the address `w`. -/
  | construct (w : ℕ) (type : UvHandleType)
  | close (w : ℕ) (cb : κ)
  | isActive (w : ℕ)
  /-- `w = std::move(other)`. -/
  | moveAssign (w other : ℕ)
  | destroy (w : ℕ)
  /-- The loop calls the close callback of a handle, and with it the callback of the user. -/
  | closeCb (addr : ℕ)
  /-- The callback of the user has returned. -/
  | closeCbEnd

namespace HandleWorld

variable {κ : Type*}

/-- Nothing is allocated; what is in the memory does not matter. -/
def new : HandleWorld κ where
  next := 0
  heap _ := ⟨.tcp, .unregistered, .new⟩
  frees _ := 0
  wrappers _ := none
  running := none
  effects := []

variable (s : HandleWorld κ)

/-- Assign to a handle of libuv. It need not be live. -/
def setHandle (addr : ℕ) (h : UvHandle κ) : HandleWorld κ :=
  { s with heap := Function.update s.heap addr h }

/-- Assign to a `uv::Handle`; `none` where it has been destroyed. -/
def setWrapper (w : ℕ) (h : Option Handle) : HandleWorld κ :=
  { s with wrappers := Function.update s.wrappers w h }

/-- Read a handle of libuv. How often it has been freed before is recorded. -/
def read (addr : ℕ) : HandleWorld κ :=
  { s with effects := s.effects ++ [.read addr (s.frees addr)] }

/-- `free_handle`, which looks at the type of the handle and deletes it. -/
def freeHandle (addr : ℕ) : HandleWorld κ :=
  { s with
    frees := Function.update s.frees addr (s.frees addr + 1)
    effects := s.effects ++ [.read addr (s.frees addr),
      .free addr (s.frees addr) ((s.heap addr).state ≠ .unregistered)] }

/-- `Handle::Handle` and `uv_tcp_init` or `uv_timer_init`: the handle is allocated and registered. -/
def construct (w : ℕ) (type : UvHandleType) : HandleWorld κ :=
  { (s.setHandle s.next ⟨type, .opened, .new⟩).setWrapper w (some ⟨some s.next, false⟩) with
    next := s.next + 1 }

/-- `callbacks::store(get()->data, cid, callback)`, which destroys the callback stored before. -/
def storeCallback (addr : ℕ) (cid : UvCallbackId) (callback : κ) : HandleWorld κ :=
  s.setHandle addr { s.heap addr with data := (s.heap addr).data.store cid callback }

/-- `uv_close`: the close callback is still to come. -/
def uvClose (addr : ℕ) : HandleWorld κ :=
  s.setHandle addr { s.heap addr with state := .closing (some ()) }

/-- `Handle::close` of a handle at an address: nothing if it is closing. -/
def closeHandle (w addr : ℕ) (cb : κ) : HandleWorld κ :=
  let s := s.read addr
  if (s.heap addr).isClosing then s
  else ((s.storeCallback addr .close cb).setWrapper w (some ⟨some addr, true⟩)).uvClose addr

/-- `Handle::close`. Through the null pointer of a moved-from object nothing is done here. -/
def close (w : ℕ) (h : Handle) (cb : κ) : HandleWorld κ :=
  match h.uvHandle with
  | some addr => s.closeHandle w addr cb
  | none => s

/-- `Handle::is_active`, which reads the handle if the wrapper has one. -/
def isActive (h : Handle) : HandleWorld κ :=
  match h.uvHandle with
  | some addr => s.read addr
  | none => s

/-- `Handle::operator=`: the handle that was owned before is left alone. -/
def moveAssign (w other : ℕ) (h : Handle) : HandleWorld κ :=
  if w = other then s else (s.setWrapper w (some h)).setWrapper other (some ⟨none, false⟩)

/-- `Handle::~Handle`: the handle is freed, unless its close callback is going to do so. -/
def destroy (w : ℕ) (h : Handle) : HandleWorld κ :=
  let s := s.setWrapper w none
  if h.willClose then s
  else
    match h.uvHandle with
    | some addr => s.freeHandle addr
    | none => s

/-- libuv has completed the close of a handle and calls back; the callback of the user that is called
is the one in the slot. -/
def closeCb (addr : ℕ) : HandleWorld κ :=
  { s.setHandle addr { s.heap addr with state := .unregistered } with running := some addr }

/-- The callback of the user that the close callback invokes, if it is still there. -/
def userCallback (addr : ℕ) : Option κ := (s.heap addr).data.invoke .close

/-- The rest of the close callback, behind that of the user: the handle is freed. -/
def closeCbEnd (addr : ℕ) : HandleWorld κ := { s.freeHandle addr with running := none }

/-- One step; there is none where the event cannot occur. -/
def step (s : HandleWorld κ) : HandleEvent κ → Option (HandleWorld κ)
  | .construct w type => if s.wrappers w = none then some (s.construct w type) else none
  | .close w cb => (s.wrappers w).map fun h => s.close w h cb
  | .isActive w => (s.wrappers w).map s.isActive
  | .moveAssign w other =>
    if s.wrappers w = none then none else (s.wrappers other).map (s.moveAssign w other)
  | .destroy w => (s.wrappers w).map (s.destroy w)
  | .closeCb addr =>
    if (s.heap addr).state = .closing (some ()) ∧ s.running = none then some (s.closeCb addr)
    else none
  | .closeCbEnd => s.running.map s.closeCbEnd

/-! ### Assignments -/

variable {s}

/-- The handle just stored is the one read. -/
@[simp] theorem heap_setHandle (addr : ℕ) (h : UvHandle κ) : (s.setHandle addr h).heap addr = h :=
  Function.update_self _ _ _

/-- Storing one handle leaves the others. -/
theorem heap_setHandle_of_ne {addr a : ℕ} (ha : a ≠ addr) (h : UvHandle κ) :
    (s.setHandle addr h).heap a = s.heap a := Function.update_of_ne ha _ _

/-- The wrapper just stored is the one read. -/
theorem wrappers_setWrapper (w : ℕ) (h : Option Handle) : (s.setWrapper w h).wrappers w = h :=
  Function.update_self _ _ _

/-- Storing one wrapper leaves the others. -/
theorem wrappers_setWrapper_of_ne {w v : ℕ} (hv : v ≠ w) (h : Option Handle) :
    (s.setWrapper w h).wrappers v = s.wrappers v := Function.update_of_ne hv _ _

/-- A constructor allocates an open handle without callbacks. -/
@[simp] theorem heap_construct (w : ℕ) (type : UvHandleType) :
    (s.construct w type).heap s.next = ⟨type, .opened, .new⟩ := heap_setHandle _ _

/-- It leaves the handles allocated before. -/
theorem heap_construct_of_ne {a : ℕ} (ha : a ≠ s.next) (w : ℕ) (type : UvHandleType) :
    (s.construct w type).heap a = s.heap a := heap_setHandle_of_ne ha _

end HandleWorld

end MyUvpp
