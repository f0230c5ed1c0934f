import MyUvpp.Uvpp.Handle

/-! # The life of a handle

What holds however the objects that own handles are used: a handle has at most one owner, it is freed
at most once, and not while the loop is closing it. Whether a handle is freed under the loop or read
after it was freed depends on the calls: `HandleWorld.Allowed` is the exact condition. -/

namespace MyUvpp

namespace HandleWorld

variable {κ : Type*}

section Owners

variable (s : HandleWorld κ)

/-- The object at `w` has the handle at `addr`. -/
def Owns (w addr : ℕ) (willClose : Bool) : Prop := s.wrappers w = some ⟨some addr, willClose⟩

/-- The close callback of a handle has been delivered and has returned. -/
def CloseDelivered (addr : ℕ) : Prop :=
  (s.heap addr).state = .unregistered ∧ s.running ≠ some addr

/-- What holds in every run, however the objects are used. -/
structure Inv : Prop where
  /-- How often an allocation has been freed: not while it is being closed, and once when its close
  callback has returned. -/
  stage : ∀ a,
    match (s.heap a).state with
    | .opened => s.frees a ≤ 1
    | .closing _ => s.frees a = 0
    | .unregistered => s.frees a = if a < s.next ∧ s.running ≠ some a then 1 else 0
  running : ∀ a, s.running = some a → a < s.next ∧ (s.heap a).state = .unregistered
  fresh : ∀ a, s.next ≤ a → (s.heap a).state = .unregistered
  owned_lt : ∀ w a c, s.Owns w a c → a < s.next
  unique : ∀ w w' a c c', s.Owns w a c → s.Owns w' a c' → w = w'
  opened : ∀ w a, s.Owns w a false → (s.heap a).state = .opened ∧ s.frees a = 0
  willClose : ∀ w a, s.Owns w a true → (s.heap a).state ≠ .opened

end Owners

variable {s : HandleWorld κ}

/-- What an object owns after an assignment to one object. -/
theorem owns_setWrapper {w v a : ℕ} {h : Option Handle} {c : Bool}
    (howns : (s.setWrapper w h).Owns v a c) :
    (v = w ∧ h = some ⟨some a, c⟩) ∨ (v ≠ w ∧ s.Owns v a c) := by
  rw [Owns] at howns
  by_cases hv : v = w
  · rw [hv, wrappers_setWrapper] at howns
    exact .inl ⟨hv, howns⟩
  · rw [wrappers_setWrapper_of_ne hv] at howns
    exact .inr ⟨hv, howns⟩

/-- An assignment to one object leaves the others what they own. -/
theorem Owns.setWrapper {w v a : ℕ} {c : Bool} (hv : s.Owns v a c) (hne : v ≠ w) (h : Option Handle) :
    (s.setWrapper w h).Owns v a c := (wrappers_setWrapper_of_ne hne h).trans hv

/-- A change of a callback is a change of its slot. -/
theorem Inv.storeCallback (h : s.Inv) (addr : ℕ) (cid : UvCallbackId) (callback : κ) :
    (s.storeCallback addr cid callback).Inv := by
  -- no field of the invariant is about callbacks
  have hstate : ∀ a, ((s.storeCallback addr cid callback).heap a).state = (s.heap a).state := by
    intro a
    by_cases ha : a = addr
    · rw [ha, HandleWorld.storeCallback, heap_setHandle]
    · rw [HandleWorld.storeCallback, heap_setHandle_of_ne ha]
  constructor
  case stage =>
    intro a
    rw [hstate]
    exact h.stage a
  case running =>
    intro a ha
    rw [hstate]
    exact h.running a ha
  case fresh =>
    intro a ha
    rw [hstate]
    exact h.fresh a ha
  case owned_lt => exact h.owned_lt
  case unique => exact h.unique
  case opened =>
    intro w a hw
    rw [hstate]
    exact h.opened w a hw
  case willClose =>
    intro w a hw
    rw [hstate]
    exact h.willClose w a hw

/-- A program that has constructed no handle. -/
theorem inv_new : (new : HandleWorld κ).Inv where
  stage _ := rfl
  running _ ha := by cases ha
  fresh _ _ := rfl
  owned_lt _ _ _ h := by cases h
  unique _ _ _ _ _ h := by cases h
  opened _ _ h := by cases h
  willClose _ _ h := by cases h

/-- A handle is freed at most once. -/
theorem Inv.frees_le (h : s.Inv) (a : ℕ) : s.frees a ≤ 1 := by
  have hstage := h.stage a
  cases hstate : (s.heap a).state with
  | opened =>
    rw [hstate] at hstage
    exact hstage
  | closing cb =>
    rw [hstate] at hstage
    exact hstage.trans_le zero_le_one
  | unregistered =>
    rw [hstate] at hstage
    rw [hstage]
    split <;> omega

/-- A handle that is being closed has not been freed. -/
theorem Inv.frees_closing (h : s.Inv) {a : ℕ} {cb : Option Unit}
    (hstate : (s.heap a).state = .closing cb) : s.frees a = 0 := by
  have hstage := h.stage a
  rwa [hstate] at hstage

/-- A handle whose close callback is running has not been freed. -/
theorem Inv.frees_running (h : s.Inv) {a : ℕ} (hrunning : s.running = some a) : s.frees a = 0 := by
  have hstage := h.stage a
  rw [(h.running a hrunning).2] at hstage
  exact hstage.trans (if_neg fun hand => hand.2 hrunning)

/-- A handle is freed when its close callback has returned. -/
theorem Inv.frees_delivered (h : s.Inv) {a : ℕ} (ha : a < s.next) (hclosed : s.CloseDelivered a) :
    s.frees a = 1 := by
  have hstage := h.stage a
  rw [hclosed.1] at hstage
  exact hstage.trans (if_pos ⟨ha, hclosed.2⟩)

/-- A handle that some object has is freed only when its close callback has returned. -/
theorem Inv.frees_owned (h : s.Inv) {w a : ℕ} {c : Bool} (howns : s.Owns w a c)
    (hnot : ¬ s.CloseDelivered a) : s.frees a = 0 := by
  cases c with
  | false => exact (h.opened w a howns).2
  | true =>
    cases hstate : (s.heap a).state with
    | opened => exact absurd hstate (h.willClose w a howns)
    | closing cb => exact h.frees_closing hstate
    | unregistered =>
      exact h.frees_running (by_contra fun hrunning => hnot ⟨hstate, hrunning⟩)

/-! ### The operations -/

/-- A record of a read changes nothing. -/
theorem Inv.effects (h : s.Inv) (effects : List HandleEffect) : Inv { s with effects } :=
  ⟨h.stage, h.running, h.fresh, h.owned_lt, h.unique, h.opened, h.willClose⟩

/-- No address from `next` on has been freed. -/
theorem Inv.frees_next (h : s.Inv) : s.frees s.next = 0 := by
  have hstage := h.stage s.next
  rw [h.fresh s.next le_rfl] at hstage
  exact hstage.trans (if_neg fun hand => lt_irrefl _ hand.1)

/-- One object may come to own one handle that nobody else owns then. -/
theorem Inv.unique_of_gain (h : s.Inv) {s' : HandleWorld κ} {w addr : ℕ} {b : Bool}
    (howns : ∀ v a c, s'.Owns v a c → (v = w ∧ a = addr ∧ c = b) ∨ (s.Owns v a c ∧ a ≠ addr))
    (v v' a : ℕ) (c c' : Bool) (hv : s'.Owns v a c) (hv' : s'.Owns v' a c') : v = v' := by
  rcases howns v a c hv with ⟨hvw, ha, -⟩ | ⟨hv, ha⟩
  · rcases howns v' a c' hv' with ⟨hvw', -, -⟩ | ⟨-, ha'⟩
    · exact hvw.trans hvw'.symm
    · exact absurd ha ha'
  · rcases howns v' a c' hv' with ⟨-, ha', -⟩ | ⟨hv', -⟩
    · exact absurd ha' ha
    · exact h.unique v v' a c c' hv hv'

/-- Nobody had the new handle before. -/
theorem Inv.owns_construct (h : s.Inv) {w : ℕ} {type : UvHandleType} (v a : ℕ) (c : Bool)
    (hv : (s.construct w type).Owns v a c) :
    (v = w ∧ a = s.next ∧ c = false) ∨ (s.Owns v a c ∧ a ≠ s.next) := by
  rcases owns_setWrapper hv with ⟨hvw, heq⟩ | ⟨-, hv⟩
  · cases heq
    exact .inl ⟨hvw, rfl, rfl⟩
  · exact .inr ⟨hv, (h.owned_lt v a c hv).ne⟩

/-- The new handle has not been freed, and an address other than the new one was below `next` if it is
now. -/
theorem Inv.stage_construct (h : s.Inv) (w : ℕ) (type : UvHandleType) (a : ℕ) :
    match ((s.construct w type).heap a).state with
    | .opened => s.frees a ≤ 1
    | .closing _ => s.frees a = 0
    | .unregistered => s.frees a = if a < s.next + 1 ∧ s.running ≠ some a then 1 else 0 := by
  by_cases ha : a = s.next
  · rw [ha, heap_construct]
    exact h.frees_next.trans_le zero_le_one
  · rw [heap_construct_of_ne ha]
    have hstage := h.stage a
    cases hstate : (s.heap a).state with
    | opened => rwa [hstate] at hstage
    | closing cb => rwa [hstate] at hstage
    | unregistered =>
      rw [hstate] at hstage
      refine hstage.trans (if_congr (and_congr_left' ?_) rfl rfl)
      omega

/-- A new handle is opened. -/
theorem Inv.construct (h : s.Inv) (w : ℕ) (type : UvHandleType) : (s.construct w type).Inv := by
  have hnew : ((s.construct w type).heap s.next).state = .opened := by rw [heap_construct]
  have hold : ∀ a, a ≠ s.next → (s.construct w type).heap a = s.heap a := by
    intro a ha
    exact heap_construct_of_ne ha w type
  constructor
  case stage => exact h.stage_construct w type
  case running =>
    intro a ha
    obtain ⟨hlt, hstate⟩ := h.running a ha
    refine ⟨hlt.trans (Nat.lt_succ_self _), ?_⟩
    rw [hold a hlt.ne]
    exact hstate
  case fresh =>
    intro a ha
    have hle : s.next + 1 ≤ a := ha
    rw [hold a (by omega)]
    exact h.fresh a (by omega)
  case owned_lt =>
    intro v a c hv
    rcases h.owns_construct v a c hv with ⟨-, rfl, -⟩ | ⟨hv, -⟩
    · exact Nat.lt_succ_self _
    · exact (h.owned_lt v a c hv).trans (Nat.lt_succ_self _)
  case unique => exact h.unique_of_gain h.owns_construct
  case opened =>
    intro v a hv
    rcases h.owns_construct v a false hv with ⟨-, rfl, -⟩ | ⟨hv, ha⟩
    · exact ⟨hnew, h.frees_next⟩
    · rw [hold a ha]
      exact h.opened v a hv
  case willClose =>
    intro v a hv
    rcases h.owns_construct v a true hv with ⟨-, -, hc⟩ | ⟨hv, ha⟩
    · cases hc
    · rw [hold a ha]
      exact h.willClose v a hv

/-- Objects may come to have fewer handles, each of them as some object had it before. -/
theorem Inv.wrappers (h : s.Inv) {wrappers : ℕ → Option Handle} (from_ : ℕ → ℕ)
    (howns : ∀ w a c, Owns { s with wrappers } w a c → s.Owns (from_ w) a c)
    (hinj : ∀ w w' a c c', Owns { s with wrappers } w a c → Owns { s with wrappers } w' a c' →
      from_ w = from_ w' → w = w') : Inv { s with wrappers } where
  stage := h.stage
  running := h.running
  fresh := h.fresh
  owned_lt w a c hw := h.owned_lt _ a c (howns w a c hw)
  unique w w' a c c' hw hw' :=
    hinj w w' a c c' hw hw' (h.unique _ _ a c c' (howns w a c hw) (howns w' a c' hw'))
  opened w a hw := h.opened _ a (howns w a false hw)
  willClose w a hw := h.willClose _ a (howns w a true hw)

/-- An object is gone; what it had is left alone. -/
theorem Inv.setWrapper_none (h : s.Inv) (w : ℕ) : (s.setWrapper w none).Inv := by
  refine h.wrappers id (fun v a c hv => ?_) fun v v' _ _ _ _ _ heq => heq
  rcases owns_setWrapper hv with ⟨-, heq⟩ | ⟨-, hv⟩
  · cases heq
  · exact hv

/-- A handle moves from one object to another. -/
theorem Inv.moveAssign (h : s.Inv) {w other : ℕ} {o : Handle} (hother : s.wrappers other = some o) :
    (s.moveAssign w other o).Inv := by
  rw [HandleWorld.moveAssign]
  split
  -- an assignment of an object to itself
  case isTrue => exact h
  case isFalse hne =>
    -- `w` has what `other` had, `other` has nothing; what `w` had is lost
    have howns : ∀ v a c, ((s.setWrapper w (some o)).setWrapper other (some ⟨none, false⟩)).Owns v a c →
        (v = w ∧ s.Owns other a c) ∨ (v ≠ w ∧ v ≠ other ∧ s.Owns v a c) := by
      intro v a c hv
      rcases owns_setWrapper hv with ⟨-, heq⟩ | ⟨hvo, hv⟩
      · cases heq
      · rcases owns_setWrapper hv with ⟨hvw, heq⟩ | ⟨hvw, hv⟩
        · cases heq
          exact .inl ⟨hvw, hother⟩
        · exact .inr ⟨hvw, hvo, hv⟩
    refine h.wrappers (fun v => if v = w then other else v) (fun v a c hv => ?_)
      fun v v' a c c' hv hv' heq => ?_
    · rcases howns v a c hv with ⟨rfl, ho⟩ | ⟨hvw, -, ho⟩
      · rwa [if_pos rfl]
      · rwa [if_neg hvw]
    · rcases howns v a c hv with ⟨rfl, -⟩ | ⟨hvw, hvo, -⟩
      · rcases howns v' a c' hv' with ⟨rfl, -⟩ | ⟨hvw', hvo', -⟩
        · rfl
        · simp only [if_pos, if_neg hvw'] at heq
          exact absurd heq.symm hvo'
      · rcases howns v' a c' hv' with ⟨rfl, -⟩ | ⟨hvw', -, -⟩
        · simp only [if_pos, if_neg hvw] at heq
          exact absurd heq hvo
        · simpa only [if_neg hvw, if_neg hvw'] using heq

/-- A handle that the loop does not close and nobody has any more is freed. -/
theorem Inv.destroy (h : s.Inv) {w : ℕ} {o : Handle} (hw : s.wrappers w = some o) :
    (s.destroy w o).Inv := by
  obtain ⟨uvHandle, willClose⟩ := o
  have hgone := h.setWrapper_none w
  cases willClose with
  -- `m_will_close`: the handle is left to its close callback
  | true => exact hgone
  | false =>
    cases uvHandle with
    -- the object has been moved from
    | none => exact hgone
    | some addr =>
      obtain ⟨hopen, hzero⟩ := h.opened w addr hw
      -- the object was the only one with this handle
      have hne : ∀ v a c, (s.setWrapper w none).Owns v a c → a ≠ addr := by
        rintro v a c hv rfl
        rcases owns_setWrapper hv with ⟨-, heq⟩ | ⟨hvw, hv⟩
        · cases heq
        · exact hvw (h.unique v w a c false hv hw)
      show ((s.setWrapper w none).freeHandle addr).Inv
      refine ⟨fun a => ?_, hgone.running, hgone.fresh, hgone.owned_lt, hgone.unique,
        fun v a hv => ?_, hgone.willClose⟩
      · by_cases ha : a = addr
        · subst ha
          show match (s.heap a).state with
            | .opened => Function.update s.frees a (s.frees a + 1) a ≤ 1
            | .closing _ => Function.update s.frees a (s.frees a + 1) a = 0
            | .unregistered => Function.update s.frees a (s.frees a + 1) a =
                if a < s.next ∧ s.running ≠ some a then 1 else 0
          rw [hopen, Function.update_self, hzero]
        · have hsame : ((s.setWrapper w none).freeHandle addr).frees a = s.frees a :=
            Function.update_of_ne ha _ _
          rw [hsame]
          exact h.stage a
      · obtain ⟨hstate, hfrees⟩ := hgone.opened v a hv
        refine ⟨hstate, ?_⟩
        have hsame : ((s.setWrapper w none).freeHandle addr).frees a = s.frees a :=
          Function.update_of_ne (hne v a false hv) _ _
        rw [hsame]
        exact hfrees

/-- The state when the loop has been asked to close a handle. -/
def askedToClose (s : HandleWorld κ) (w addr : ℕ) (cb : κ) : HandleWorld κ :=
  (((s.read addr).storeCallback addr .close cb).setWrapper w (some ⟨some addr, true⟩)).uvClose addr

/-- `Handle::close` does nothing to a handle that is closing, and asks the loop to close another. -/
theorem closeHandle_cases (s : HandleWorld κ) (w addr : ℕ) (cb : κ) :
    ((s.heap addr).state ≠ .opened ∧ s.closeHandle w addr cb = s.read addr) ∨
      ((s.heap addr).state = .opened ∧ s.closeHandle w addr cb = s.askedToClose w addr cb) := by
  rw [closeHandle]
  split
  case isTrue hclosing =>
    refine .inl ⟨fun hopen => ?_, rfl⟩
    have hfalse : ((s.read addr).heap addr).isClosing = false :=
      UvHandle.isClosing_eq_false.mpr hopen
    rw [hfalse] at hclosing
    cases hclosing
  case isFalse hnot =>
    exact .inr ⟨UvHandle.isClosing_eq_false.mp (Bool.eq_false_iff.mpr hnot), rfl⟩

/-- The handle asked to close waits for its close callback. -/
@[simp] theorem heap_askedToClose (s : HandleWorld κ) (w addr : ℕ) (cb : κ) :
    (s.askedToClose w addr cb).heap addr =
      { s.heap addr with
        state := .closing (some ())
        data := (s.heap addr).data.store .close cb } := by
  have hstored : (((s.read addr).storeCallback addr .close cb).setWrapper w
      (some ⟨some addr, true⟩)).heap addr =
      { s.heap addr with data := (s.heap addr).data.store .close cb } := heap_setHandle _ _
  rw [askedToClose, uvClose, heap_setHandle, hstored]

/-- The others stand as they were. -/
theorem heap_askedToClose_of_ne {a addr : ℕ} (ha : a ≠ addr) (w : ℕ) (cb : κ) :
    (s.askedToClose w addr cb).heap a = s.heap a := by
  rw [askedToClose, uvClose, heap_setHandle_of_ne ha]
  exact heap_setHandle_of_ne ha _

/-- Closing allocates nothing. -/
@[simp] theorem next_closeHandle (s : HandleWorld κ) (w addr : ℕ) (cb : κ) :
    (s.closeHandle w addr cb).next = s.next := by
  rcases s.closeHandle_cases w addr cb with ⟨-, heq⟩ | ⟨-, heq⟩ <;> rw [heq] <;> rfl

/-- A close leaves its own handle not open, and the others as they were. -/
theorem opened_closeHandle (s : HandleWorld κ) (w addr : ℕ) (cb : κ) (a : ℕ) :
    ((s.closeHandle w addr cb).heap a).state = .opened ↔ (s.heap a).state = .opened ∧ a ≠ addr := by
  rcases s.closeHandle_cases w addr cb with ⟨hnot, heq⟩ | ⟨hopen, heq⟩ <;> rw [heq]
  · show (s.heap a).state = .opened ↔ _
    refine ⟨fun hopened => ⟨hopened, ?_⟩, fun hopened => hopened.1⟩
    rintro rfl
    exact hnot hopened
  · by_cases ha : a = addr
    · subst ha
      simp
    · rw [heap_askedToClose_of_ne ha]
      simp [ha]

/-- An object that has closed its handle does not find it open. -/
theorem Inv.not_willClose (h : s.Inv) {w addr : ℕ} {c : Bool} (hw : s.Owns w addr c)
    (hopen : (s.heap addr).state = .opened) : c = false := by
  cases c with
  | false => rfl
  | true => exact absurd hopen (h.willClose w addr hw)

/-- The object that closes its handle stays its only owner. -/
theorem Inv.owns_askedToClose (h : s.Inv) {w addr : ℕ} {b : Bool} (hw : s.Owns w addr b) (cb : κ)
    (v a : ℕ) (c : Bool) (hv : (s.askedToClose w addr cb).Owns v a c) :
    (v = w ∧ a = addr ∧ c = true) ∨ (s.Owns v a c ∧ a ≠ addr) := by
  rcases owns_setWrapper (s := (s.read addr).storeCallback addr .close cb) hv with
    ⟨hvw, heq⟩ | ⟨hvw, hv⟩
  · cases heq
    exact .inl ⟨hvw, rfl, rfl⟩
  · refine .inr ⟨hv, ?_⟩
    rintro rfl
    exact hvw (h.unique v w a c b hv hw)

/-- The loop is asked to close a handle. -/
theorem Inv.askedToClose (h : s.Inv) {w addr : ℕ} {c : Bool} (hw : s.Owns w addr c)
    (hopen : (s.heap addr).state = .opened) (cb : κ) : (s.askedToClose w addr cb).Inv := by
  obtain rfl := h.not_willClose hw hopen
  have hself : ((s.askedToClose w addr cb).heap addr).state = .closing (some ()) := by
    rw [heap_askedToClose]
  have hother : ∀ a, a ≠ addr → (s.askedToClose w addr cb).heap a = s.heap a := by
    intro a ha
    exact heap_askedToClose_of_ne ha w cb
  have howns := h.owns_askedToClose hw cb
  constructor
  case stage =>
    intro a
    by_cases ha : a = addr
    · subst ha
      rw [hself]
      exact (h.opened w a hw).2
    · rw [hother a ha]
      exact h.stage a
  case running =>
    intro a ha
    obtain ⟨hlt, hstate⟩ := h.running a ha
    -- the handle whose callback runs is not open
    have hne : a ≠ addr := by
      rintro rfl
      rw [hopen] at hstate
      cases hstate
    rw [hother a hne]
    exact ⟨hlt, hstate⟩
  case fresh =>
    intro a ha
    rw [hother a ((h.owned_lt w addr false hw).trans_le ha).ne']
    exact h.fresh a ha
  case owned_lt =>
    intro v a c hv
    rcases howns v a c hv with ⟨-, rfl, -⟩ | ⟨hv, -⟩
    · exact h.owned_lt w a false hw
    · exact h.owned_lt v a c hv
  case unique => exact h.unique_of_gain howns
  case opened =>
    intro v a hv
    rcases howns v a false hv with ⟨-, -, hc⟩ | ⟨hv, ha⟩
    · cases hc
    · rw [hother a ha]
      exact h.opened v a hv
  case willClose =>
    intro v a hv
    rcases howns v a true hv with ⟨-, rfl, -⟩ | ⟨hv, ha⟩
    · rw [hself]
      exact fun heq => by cases heq
    · rw [hother a ha]
      exact h.willClose v a hv

/-- **Closing a handle.** -/
theorem Inv.closeHandle (h : s.Inv) {w addr : ℕ} {c : Bool} (hw : s.Owns w addr c) (cb : κ) :
    (s.closeHandle w addr cb).Inv := by
  rcases s.closeHandle_cases w addr cb with ⟨-, heq⟩ | ⟨hopen, heq⟩
  · rw [heq]
    exact h.effects _
  · rw [heq]
    exact h.askedToClose hw hopen cb

/-- The close callback of a handle starts to run. -/
theorem Inv.closeCb (h : s.Inv) {addr : ℕ} (hstate : (s.heap addr).state = .closing (some ()))
    (hidle : s.running = none) : (s.closeCb addr).Inv := by
  have hself : ((s.closeCb addr).heap addr).state = .unregistered := by
    show ((s.setHandle addr _).heap addr).state = _
    rw [heap_setHandle]
  have hother : ∀ a, a ≠ addr → (s.closeCb addr).heap a = s.heap a := by
    intro a ha
    exact heap_setHandle_of_ne ha _
  have hlt : addr < s.next := by
    by_contra hge
    rw [h.fresh addr (by omega)] at hstate
    cases hstate
  constructor
  case stage =>
    intro a
    by_cases ha : a = addr
    · subst ha
      rw [hself]
      -- it is freed when the callback returns
      exact (h.frees_closing hstate).trans (if_neg fun hand => hand.2 rfl).symm
    · rw [hother a ha]
      have hstage := h.stage a
      cases hstate' : (s.heap a).state with
      | opened => rwa [hstate'] at hstage
      | closing cb => rwa [hstate'] at hstage
      | unregistered =>
        rw [hstate', hidle] at hstage
        -- any other handle that is unregistered has been freed, as before
        refine hstage.trans (if_congr (and_congr_right' ?_) rfl rfl)
        exact iff_of_true (fun heq => by cases heq) fun heq => ha (Option.some.inj heq).symm
  case running =>
    intro a ha
    obtain rfl := Option.some.inj ha
    exact ⟨hlt, hself⟩
  case fresh =>
    intro a ha
    rw [hother a (hlt.trans_le ha).ne']
    exact h.fresh a ha
  case owned_lt => exact h.owned_lt
  case unique => exact h.unique
  case opened =>
    intro v a hv
    have hopen := h.opened v a hv
    rw [hother a (fun heq => by rw [heq, hstate] at hopen; cases hopen.1)]
    exact hopen
  case willClose =>
    intro v a hv
    by_cases ha : a = addr
    · rw [ha, hself]
      exact fun heq => by cases heq
    · rw [hother a ha]
      exact h.willClose v a hv

/-- The close callback ends and frees its handle. -/
theorem Inv.closeCbEnd (h : s.Inv) {addr : ℕ} (hrunning : s.running = some addr) :
    (s.closeCbEnd addr).Inv := by
  obtain ⟨hlt, hstate⟩ := h.running addr hrunning
  have hself : (s.closeCbEnd addr).frees addr = 1 := by
    show Function.update s.frees addr (s.frees addr + 1) addr = 1
    rw [Function.update_self, h.frees_running hrunning]
  have hother : ∀ a, a ≠ addr → (s.closeCbEnd addr).frees a = s.frees a := by
    intro a ha
    exact Function.update_of_ne ha _ _
  refine ⟨fun a => ?_, fun a ha => (by cases ha), h.fresh, h.owned_lt, h.unique, fun v a hv => ?_,
    h.willClose⟩
  · show match (s.heap a).state with
      | .opened => (s.closeCbEnd addr).frees a ≤ 1
      | .closing _ => (s.closeCbEnd addr).frees a = 0
      | .unregistered => (s.closeCbEnd addr).frees a = if a < s.next ∧ none ≠ some a then 1 else 0
    by_cases ha : a = addr
    · subst ha
      rw [hstate, hself]
      exact (if_pos ⟨hlt, fun heq => by cases heq⟩).symm
    · rw [hother a ha]
      have hstage := h.stage a
      cases hstate' : (s.heap a).state with
      | opened => rwa [hstate'] at hstage
      | closing cb => rwa [hstate'] at hstage
      | unregistered =>
        rw [hstate', hrunning] at hstage
        -- the callback that ends is not that of another handle
        refine hstage.trans (if_congr (and_congr_right' ?_) rfl rfl)
        exact iff_of_true (fun heq => ha (Option.some.inj heq).symm) fun heq => by cases heq
  · have hopen := h.opened v a hv
    rw [hother a (fun heq => by rw [heq, hstate] at hopen; cases hopen.1)]
    exact hopen

/-- Every step keeps the invariant. -/
theorem step_inv (h : s.Inv) {e : HandleEvent κ} {s' : HandleWorld κ} (hstep : s.step e = some s') :
    s'.Inv := by
  cases e with
  | construct w type =>
    obtain ⟨-, heq⟩ := Option.ite_none_right_eq_some.mp hstep
    cases heq
    exact h.construct w type
  | close w cb =>
    obtain ⟨o, hw, rfl⟩ := Option.map_eq_some_iff.mp hstep
    obtain ⟨uvHandle, c⟩ := o
    cases uvHandle with
    | none => exact h
    | some addr => exact h.closeHandle hw cb
  | isActive w =>
    obtain ⟨o, hw, rfl⟩ := Option.map_eq_some_iff.mp hstep
    obtain ⟨uvHandle, c⟩ := o
    cases uvHandle with
    | none => exact h
    | some addr => exact h.effects _
  | moveAssign w other =>
    obtain ⟨-, heq⟩ := Option.ite_none_left_eq_some.mp hstep
    obtain ⟨o, hother, rfl⟩ := Option.map_eq_some_iff.mp heq
    exact h.moveAssign hother
  | destroy w =>
    obtain ⟨o, hw, rfl⟩ := Option.map_eq_some_iff.mp hstep
    exact h.destroy hw
  | closeCb addr =>
    obtain ⟨⟨hstate, hidle⟩, heq⟩ := Option.ite_none_right_eq_some.mp hstep
    cases heq
    exact h.closeCb hstate hidle
  | closeCbEnd =>
    obtain ⟨addr, hrunning, rfl⟩ := Option.map_eq_some_iff.mp hstep
    exact h.closeCbEnd hrunning

/-! ### What is read and freed -/

/-- A handle is closed and asked about only before its close callback has returned, and an object that
has a handle is destroyed only when that handle has been closed. -/
def Allowed (s : HandleWorld κ) : HandleEvent κ → Prop
  | .close w _ => ∀ a c, s.Owns w a c → ¬ s.CloseDelivered a
  | .isActive w => ∀ a c, s.Owns w a c → ¬ s.CloseDelivered a
  | .destroy w => ∀ a c, s.Owns w a c → c = true
  | _ => True

/-- No handle has been read after it was freed, freed while it was registered with the loop, or freed
twice. -/
structure HandlesSafe (s : HandleWorld κ) : Prop where
  effects : ∀ e ∈ s.effects, e.Safe
  frees_le : ∀ a, s.frees a ≤ 1

/-- What a wrapper owns is the handle it holds. -/
theorem owns_iff {w addr a : ℕ} {c c' : Bool} (hw : s.wrappers w = some ⟨some addr, c⟩) :
    s.Owns w a c' ↔ addr = a ∧ c = c' := by
  rw [Owns, hw, Option.some.injEq, Handle.mk.injEq, Option.some.injEq]

/-- A wrapper that holds no handle owns none. -/
theorem not_owns_of_none {w a : ℕ} {c c' : Bool} (hw : s.wrappers w = some ⟨none, c⟩) :
    ¬ s.Owns w a c' := by
  rw [Owns, hw, Option.some.injEq, Handle.mk.injEq]
  exact fun heq => (by cases heq.1)

/-- What an object reads is there exactly as long as the close callback has not returned. -/
theorem Inv.read_safe_iff (h : s.Inv) {w addr : ℕ} {c : Bool}
    (hw : s.wrappers w = some ⟨some addr, c⟩) :
    (∀ e ∈ [HandleEffect.read addr (s.frees addr)], e.Safe) ↔
      ∀ a c, s.Owns w a c → ¬ s.CloseDelivered a := by
  simp only [List.mem_singleton, forall_eq, owns_iff hw]
  constructor
  · rintro hzero a c ⟨rfl, -⟩ hclosed
    have hone := h.frees_delivered (h.owned_lt w addr _ hw) hclosed
    rw [HandleEffect.Safe] at hzero
    omega
  · intro hnot
    exact h.frees_owned hw (hnot addr c ⟨rfl, rfl⟩)

/-- An operation that reads and frees nothing. -/
theorem forall_nil_safe_iff {P : Prop} (hp : P) :
    (∀ e ∈ ([] : List HandleEffect), e.Safe) ↔ P :=
  iff_of_true (fun _ he => absurd he List.not_mem_nil) hp

/-- `Handle::close` asks whether the handle is closing. -/
theorem Inv.close_effects (h : s.Inv) {w : ℕ} {o : Handle} (hw : s.wrappers w = some o) (cb : κ) :
    ∃ new, (s.close w o cb).effects = s.effects ++ new ∧
      ((∀ e ∈ new, e.Safe) ↔ ∀ a c, s.Owns w a c → ¬ s.CloseDelivered a) := by
  obtain ⟨uvHandle, c⟩ := o
  cases uvHandle with
  | none =>
    -- a moved-from object has no handle to be read
    exact ⟨[], (List.append_nil _).symm,
      forall_nil_safe_iff fun a c hown => absurd hown (not_owns_of_none hw)⟩
  | some addr =>
    refine ⟨[.read addr (s.frees addr)], ?_, h.read_safe_iff hw⟩
    show (s.closeHandle w addr cb).effects = _
    rcases s.closeHandle_cases w addr cb with ⟨-, heq⟩ | ⟨-, heq⟩ <;> rw [heq] <;> rfl

/-- `~Handle` frees a handle that was not closed, and that is still registered. -/
theorem Inv.destroy_effects (h : s.Inv) {w : ℕ} {o : Handle} (hw : s.wrappers w = some o) :
    ∃ new, (s.destroy w o).effects = s.effects ++ new ∧
      ((∀ e ∈ new, e.Safe) ↔ ∀ a c, s.Owns w a c → c = true) := by
  obtain ⟨uvHandle, c⟩ := o
  cases c with
  | true =>
    -- the destructor does nothing to a handle that has been closed
    refine ⟨[], (List.append_nil _).symm, forall_nil_safe_iff fun a c hown => ?_⟩
    rw [Owns, hw] at hown
    cases hown
    rfl
  | false =>
    cases uvHandle with
    | none =>
      exact ⟨[], (List.append_nil _).symm,
        forall_nil_safe_iff fun a c hown => absurd hown (not_owns_of_none hw)⟩
    | some addr =>
      refine ⟨_, rfl, iff_of_false (fun hsafe => ?_) fun hclosed => ?_⟩
      · have hfree : HandleEffect.Safe (.free addr (s.frees addr)
            ((s.heap addr).state ≠ .unregistered)) := hsafe _ (.tail _ (.head _))
        rw [(h.opened w addr hw).1] at hfree
        cases hfree.2
      · cases hclosed addr false hw

/-- `free_handle` reads the type of the handle and then frees it. -/
theorem Inv.closeCbEnd_effects (h : s.Inv) {addr : ℕ} (hrunning : s.running = some addr) :
    ∃ new, (s.closeCbEnd addr).effects = s.effects ++ new ∧ ∀ e ∈ new, e.Safe := by
  refine ⟨_, rfl, fun e he => ?_⟩
  have hzero := h.frees_running hrunning
  have hstate := (h.running addr hrunning).2
  rcases List.mem_cons.mp he with rfl | he
  · exact hzero
  · rw [List.mem_singleton.mp he, hstate]
    exact ⟨hzero, rfl⟩

/-- **One step** reads and frees only what exists and is no longer registered if and only if it is
allowed. -/
theorem step_effects (h : s.Inv) {e : HandleEvent κ} {s' : HandleWorld κ}
    (hstep : s.step e = some s') :
    ∃ new, s'.effects = s.effects ++ new ∧ ((∀ e ∈ new, e.Safe) ↔ s.Allowed e) := by
  cases e with
  | construct w type =>
    obtain ⟨-, heq⟩ := Option.ite_none_right_eq_some.mp hstep
    cases heq
    exact ⟨[], (List.append_nil _).symm, forall_nil_safe_iff trivial⟩
  | close w cb =>
    obtain ⟨o, hw, rfl⟩ := Option.map_eq_some_iff.mp hstep
    exact h.close_effects hw cb
  | isActive w =>
    obtain ⟨o, hw, rfl⟩ := Option.map_eq_some_iff.mp hstep
    obtain ⟨uvHandle, c⟩ := o
    cases uvHandle with
    | none =>
      exact ⟨[], (List.append_nil _).symm,
        forall_nil_safe_iff fun a c hown => absurd hown (not_owns_of_none hw)⟩
    | some addr => exact ⟨[.read addr (s.frees addr)], rfl, h.read_safe_iff hw⟩
  | moveAssign w other =>
    obtain ⟨-, heq⟩ := Option.ite_none_left_eq_some.mp hstep
    obtain ⟨o, -, rfl⟩ := Option.map_eq_some_iff.mp heq
    refine ⟨[], ?_, forall_nil_safe_iff trivial⟩
    rw [moveAssign, List.append_nil]
    split <;> rfl
  | destroy w =>
    obtain ⟨o, hw, rfl⟩ := Option.map_eq_some_iff.mp hstep
    exact h.destroy_effects hw
  | closeCb addr =>
    obtain ⟨-, heq⟩ := Option.ite_none_right_eq_some.mp hstep
    cases heq
    exact ⟨[], (List.append_nil _).symm, forall_nil_safe_iff trivial⟩
  | closeCbEnd =>
    obtain ⟨addr, hrunning, rfl⟩ := Option.map_eq_some_iff.mp hstep
    obtain ⟨new, heq, hsafe⟩ := h.closeCbEnd_effects hrunning
    exact ⟨new, heq, iff_of_true hsafe trivial⟩

/-- A step that is allowed. -/
theorem step_handlesSafe (h : s.Inv) (hsafe : s.HandlesSafe) {e : HandleEvent κ}
    (hallowed : s.Allowed e) {s' : HandleWorld κ} (hstep : s.step e = some s') : s'.HandlesSafe := by
  obtain ⟨new, heq, hiff⟩ := step_effects h hstep
  refine ⟨fun e he => ?_, (step_inv h hstep).frees_le⟩
  rw [heq] at he
  exact (List.mem_append.mp he).elim (hsafe.effects e) (hiff.mpr hallowed e)

/-- A step that is not. -/
theorem step_not_handlesSafe (h : s.Inv) {e : HandleEvent κ} (hnot : ¬ s.Allowed e)
    {s' : HandleWorld κ} (hstep : s.step e = some s') : ¬ s'.HandlesSafe := by
  obtain ⟨new, heq, hiff⟩ := step_effects h hstep
  intro hsafe
  refine hnot (hiff.mp fun e he => hsafe.effects e ?_)
  rw [heq]
  exact List.mem_append_right _ he

end HandleWorld

/-- **When the handles are safe.** Throughout a run no handle is freed twice, freed while it is
registered, or read after it was freed, if and only if no step of the run closes or asks about a handle
whose close callback has returned, or destroys an object with a handle that was not closed. -/
theorem handles_safe_iff {κ : Type*} (es : List (HandleEvent κ)) (s : HandleWorld κ)
    (hrun : run HandleWorld.step .new es = some s) :
    Throughout HandleWorld.step HandleWorld.HandlesSafe .new es ↔
      Along HandleWorld.step HandleWorld.Allowed .new es :=
  throughout_iff_along (I := fun s => s.Inv ∧ s.HandlesSafe)
    (fun _ _ _ h hallowed hstep => ⟨HandleWorld.step_inv h.1 hstep,
      HandleWorld.step_handlesSafe h.1 h.2 hallowed hstep⟩)
    (fun _ _ _ h hnot hstep => HandleWorld.step_not_handlesSafe h.1 hnot hstep) (fun _ h => h.2)
    ⟨HandleWorld.inv_new, fun _ he => absurd he List.not_mem_nil, fun _ => Nat.zero_le 1⟩ hrun

/-- A handle that is moved, closed twice and asked about, and whose object is destroyed by the callback
of the user; and a timer that is closed and destroyed at once. -/
theorem handles_safe_moved_and_closed :
    Throughout HandleWorld.step HandleWorld.HandlesSafe (.new : HandleWorld ℕ)
      [.construct 0 .tcp, .construct 1 .timer, .construct 2 .tcp, .close 2 5, .moveAssign 2 0,
        .close 1 6, .destroy 1, .close 2 7, .closeCb 0, .isActive 2, .close 2 8, .destroy 2,
        .closeCbEnd, .closeCb 1, .closeCbEnd] := by
  obtain ⟨s, hs⟩ := Option.isSome_iff_exists.mp (show (run HandleWorld.step (.new : HandleWorld ℕ)
    [.construct 0 .tcp, .construct 1 .timer, .construct 2 .tcp, .close 2 5, .moveAssign 2 0,
      .close 1 6, .destroy 1, .close 2 7, .closeCb 0, .isActive 2, .close 2 8, .destroy 2,
      .closeCbEnd, .closeCb 1, .closeCbEnd]).isSome = true from rfl)
  refine (handles_safe_iff _ s hs).mpr ?_
  refine ⟨trivial, trivial, trivial, ?_, trivial, ?_, ?_, ?_, trivial, ?_, ?_, ?_, trivial, trivial,
    trivial, trivial⟩
  all_goals
    intro a c hown
    cases hown
  all_goals first | rfl | exact fun hclosed => hclosed.2 rfl | exact fun hclosed => by cases hclosed.1

/-- The destructor frees a handle that is registered with the loop, and after the close callback
`close` and `is_active` read freed memory. -/
theorem handle_freed_under_loop :
    (∃ s, run HandleWorld.step (.new : HandleWorld ℕ) [.construct 0 .tcp, .destroy 0] = some s ∧
      s.effects = [.read 0 0, .free 0 0 true] ∧ ¬ s.HandlesSafe) ∧
    (∃ s, run HandleWorld.step (.new : HandleWorld ℕ)
        [.construct 0 .tcp, .close 0 5, .closeCb 0, .closeCbEnd, .close 0 5, .isActive 0] = some s ∧
      s.effects = [.read 0 0, .read 0 0, .free 0 0 false, .read 0 1, .read 0 1] ∧
      ¬ s.HandlesSafe) := by
  refine ⟨⟨_, rfl, rfl, fun hsafe => ?_⟩, ⟨_, rfl, rfl, fun hsafe => ?_⟩⟩
  · cases (hsafe.effects (.free 0 0 true) (.tail _ (.head _))).2
  · cases hsafe.effects (.read 0 1) (.tail _ (.tail _ (.tail _ (.head _))))

end MyUvpp
