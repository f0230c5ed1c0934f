import MyUvpp.Foundation.Reaching
import MyUvpp.TcpClient.RejectedWrites
import Mathlib.Algebra.BigOperators.Group.List.Basic
import Mathlib.Data.Fintype.EquivFin

/-! # What a client has still to send

As long as the user has not asked for the close, the threads and the loop of a client can go on: `send_inl` reads
until the circular buffer is empty, and a call of `Send` fills it again until its whole buffer has been accepted.
Every such step leaves less to do. -/

namespace MyUvpp

/-- What a call has still to do: the bytes that are left, and the steps to its next critical section. -/
def SendCall.work (c : SendCall) : ℕ :=
  8 * (c.data.length - c.iret) +
    match c.pc with
    | .check => 2
    | .write => 1
    | .returned => 0

/-- A step of `send_inl`. -/
def SendEvent.InSendInl : SendEvent → Prop
  | .drainRead _ _ | .uvWrite _ => True
  | _ => False

/-- An event of `send_inl` is one of the loop thread. -/
theorem SendEvent.InSendInl.onLoop {e : SendEvent} (he : e.InSendInl) : e.OnLoop := by
  cases e with
  | drainRead | uvWrite => trivial
  | _ => exact he.elim

/-- A step by which call number `i` goes on: one of its own, or one of the loop thread for it. -/
def SendEvent.GoesOnFor (i : ℕ) : SendEvent → Prop
  | .sendCheck j | .sendWrite j => j = i
  | .asyncCB | .drainRead _ _ => True
  | .uvWrite iret => iret = 0
  | _ => False

namespace SendState

/-- The steps of the loop thread to the end of `send_inl`, or to its next read. -/
def loopWork (s : SendState) : ℕ :=
  match s.loop with
  | .idle => if s.writeCircularbuf.empty then 0 else 2
  | .drain => 1
  | .handOver _ => 2

/-- What the client has still to do. A byte weighs more before it is accepted than after. -/
def work (s : SendState) : ℕ :=
  (s.sends.map SendCall.work).sum + 4 * s.writeCircularbuf.content.length + s.loopWork

/-- A client whose send path is in order: a call that has not returned has something left to send. -/
structure Ready (s : SendState) : Prop extends s.Inv where
  filled : s.Filled
  unfinished : ∀ c ∈ s.sends, c.pc ≠ .returned → c.iret < c.data.length

variable {s s' : SendState}

/-- Below `2 ^ 31` the conversion does nothing. -/
theorem int32_of_lt {n : ℤ} (h0 : 0 ≤ n) (hlt : n < 2 ^ 31) : int32 n = n := by
  unfold int32
  apply Int.bmod_eq_of_le <;> omega

/-- There is always room for another request. -/
theorem exists_notMem_owned (s : SendState) : ∃ addr, addr ∉ s.owned := by
  obtain ⟨addr, haddr⟩ := Infinite.exists_notMem_finset s.owned.toFinset
  exact ⟨addr, fun h => haddr (List.mem_toFinset.mpr h)⟩

/-! ### The state between two steps -/

/-- A new client has no call of `Send`. -/
theorem ready_initial (pBuf : Mem UInt8) (heap : ℕ → WriteParam) : (initial pBuf heap).Ready where
  toInv := inv_initial pBuf heap
  filled := filled_initial pBuf heap
  unfinished _ hc := absurd hc List.not_mem_nil

/-- Every step leaves the send path in order. -/
theorem Ready.step (h : s.Ready) {e : SendEvent} (hstep : s.step e = some s') : s'.Ready := by
  refine ⟨step_inv h.toInv hstep, h.filled.step h.toInv hstep, fun d hd hpc => ?_⟩
  -- a call that has been replaced, and the others
  have hset : ∀ (i : ℕ) (c : SendCall), (c.pc ≠ .returned → c.iret < c.data.length) →
      d ∈ s.sends.set i c → d.iret < d.data.length := by
    intro i c hc hmem
    rcases List.mem_or_eq_of_mem_set hmem with hmem | rfl
    · exact h.unfinished d hmem hpc
    · exact hc hpc
  cases e with
  | send data =>
    cases hstep
    rcases List.mem_append.mp hd with hd | hd
    · exact h.unfinished d hd hpc
    · rw [List.mem_singleton.mp hd] at hpc ⊢
      by_cases hempty : data.length = 0
      · exact absurd (if_pos hempty) hpc
      · exact Nat.pos_of_ne_zero hempty
  | sendCheck i =>
    obtain ⟨c, hc, hcheck, rfl⟩ := step_sendCheck hstep
    have hleft : c.iret < c.data.length := by
      refine h.unfinished c (List.mem_of_getElem? hc) ?_
      rw [hcheck]
      exact fun heq => by cases heq
    have hmem : d ∈ s.sends.set i { c with
        pc := if s.isuseraskforclosed then .returned else .write } := hd
    refine hset i _ ?_ hmem
    exact fun _ => hleft
  | sendWrite i =>
    obtain ⟨c, hc, -, rfl⟩ := step_sendWrite hstep
    obtain ⟨n, -, -, -, -, -, -, hsends, -⟩ := sendWrite_spec (i := i) h.toInv (List.mem_of_getElem? hc)
    rw [hsends] at hd
    -- the call goes on only if something is left
    exact hset i _ (fun hne => by_contra fun hlt => hne (if_neg hlt)) hd
  | close =>
    cases hstep
    exact h.unfinished d hd hpc
  | asyncCB | afterRecv | afterSend | drainRead | uvWrite =>
    obtain ⟨hsends, -⟩ := step_onLoop hstep trivial
    exact h.unfinished d (hsends ▸ hd) hpc

/-- The flag has no part in it. -/
theorem Ready.setFlag (h : s.Ready) (isuseraskforclosed : Bool) : Ready { s with isuseraskforclosed } where
  toInv := h.toInv.setFlag isuseraskforclosed
  filled := ⟨h.filled.truelen, h.filled.hand⟩
  unfinished := h.unfinished

/-! ### The measure -/

/-- Of its own the loop thread has at most two steps to do before it is at the head of its loop again. -/
theorem loopWork_le (s : SendState) : s.loopWork ≤ 2 := by
  rw [loopWork]
  cases s.loop with
  | idle => simp only; split <;> omega
  | drain => exact Nat.le_succ 1
  | handOver addr => exact le_refl 2

/-- The sum of a list in which one element is replaced. -/
theorem sum_work_set {i : ℕ} {c : SendCall} (hc : s.sends[i]? = some c) (c' : SendCall) :
    ((s.sends.set i c').map SendCall.work).sum + c.work =
      (s.sends.map SendCall.work).sum + c'.work := by
  obtain ⟨hi, rfl⟩ := List.getElem?_eq_some_iff.mp hc
  have hi' : i < (s.sends.map SendCall.work).length := by rwa [List.length_map]
  have hself := List.sum_set (s.sends.map SendCall.work) i (s.sends.map SendCall.work)[i]
  rw [List.set_getElem_self, if_pos hi', List.getElem_map] at hself
  rw [List.map_set, List.sum_set, if_pos hi', hself]
  omega

/-- A read of `send_inl` takes something out of a buffer that is not empty. -/
theorem drainRead_content (hinv : s.Inv) (hfilled : s.Filled) (addr : ℕ) (base : Mem UInt8)
    (hempty : s.writeCircularbuf.empty = false) :
    (s.drainRead addr base).writeCircularbuf.content.length < s.writeCircularbuf.content.length ∧
      ∃ a, (s.drainRead addr base).loop = .handOver a := by
  have hread : ∀ w : WriteParam, w.truelen = bufferSize →
      (s.writeCircularbuf.read w.base w.truelen).1.content.length <
        s.writeCircularbuf.content.length := by
    intro w hw
    have hspec := PodCircularBuffer.read_spec hinv.buf w.base w.truelen
    have hne := bytes_read_ne_nil hinv hempty hw
    have hpos := List.length_pos_of_ne_nil hne
    rw [WriteParam.bytes, hspec.data_eq, List.length_take] at hpos
    rw [hspec.content_eq, List.length_drop]
    omega
  rw [drainRead]
  cases hlist : s.writeparamList with
  | nil => exact ⟨hread (allocWriteParam base) rfl, addr, rfl⟩
  | cons a as =>
    have howned : a ∈ s.owned := by simp [owned, hlist]
    exact ⟨hread (s.heap a) (hfilled.truelen a howned), a, rfl⟩

/-! ### The next step -/

/-- In `send_inl`, the loop thread goes on. -/
theorem exists_step_drain (hinv : s.Inv) (hfilled : s.Filled) (hloop : s.loop ≠ .idle) :
    ∃ e s', (e = .uvWrite 0 ∨ ∃ addr base, e = .drainRead addr base) ∧ s.step e = some s' ∧
      s'.work < s.work := by
  cases hl : s.loop with
  | idle => exact absurd hl hloop
  | handOver addr =>
    have hstep : s.step (.uvWrite 0) = some (s.uvWrite addr 0) := by rw [SendState.step, hl]
    refine ⟨.uvWrite 0, _, .inl rfl, hstep, ?_⟩
    show _ + 4 * s.writeCircularbuf.content.length + 1 < s.work
    rw [work, loopWork, hl]
    exact Nat.lt_succ_self _
  | drain =>
    obtain ⟨addr, haddr⟩ := exists_notMem_owned s
    have hstep : s.step (.drainRead addr fun _ => 0) = some (if s.writeCircularbuf.empty then
        { s with loop := .idle } else s.drainRead addr fun _ => 0) := if_pos ⟨hl, haddr⟩
    refine ⟨.drainRead addr fun _ => 0, _, .inr ⟨_, _, rfl⟩, hstep, ?_⟩
    obtain ⟨hsends, -⟩ := step_onLoop hstep trivial
    rw [work, hsends, work, loopWork, loopWork, hl]
    cases hempty : s.writeCircularbuf.empty with
    | true => simp [hempty]
    | false =>
      obtain ⟨hlt, a, ha⟩ := drainRead_content hinv hfilled addr (fun _ => 0) hempty
      simp only [Bool.false_eq_true, if_false, ha]
      omega

/-- With something to drain, `AsyncCB` starts `send_inl`. -/
theorem exists_step_async (hopen : s.isuseraskforclosed = false) (hloop : s.loop = .idle)
    (hempty : s.writeCircularbuf.empty = false) : ∃ s', s.step .asyncCB = some s' ∧ s'.work < s.work := by
  have hstep : s.step .asyncCB = some { s with loop := .drain } := by
    simp [SendState.step, hloop, hopen]
  refine ⟨_, hstep, ?_⟩
  simp [work, loopWork, hloop, hempty]

/-- With nothing to drain, a call of `Send` goes on. -/
theorem Ready.exists_step_call (h : s.Ready) (hopen : s.isuseraskforclosed = false)
    (hempty : s.writeCircularbuf.empty = true) {i : ℕ} {c : SendCall} (hc : s.sends[i]? = some c)
    (hpc : c.pc ≠ .returned) (hshort : c.data.length < 2 ^ 31) :
    ∃ e s', (e = .sendCheck i ∨ e = .sendWrite i) ∧ s.step e = some s' ∧ s'.work < s.work := by
  have hmem := List.mem_of_getElem? hc
  cases hp : c.pc with
  | returned => exact absurd hp hpc
  | check =>
    have hstep : s.step (.sendCheck i) = some { s with
        sends := s.sends.set i { c with pc := .write } } := by
      simp [SendState.step, hc, hp, hopen]
    refine ⟨.sendCheck i, _, .inl rfl, hstep, ?_⟩
    have hsum := sum_work_set hc { c with pc := .write }
    simp only [SendCall.work, hp] at hsum
    simp only [work, loopWork]
    omega
  | write =>
    have hstep : s.step (.sendWrite i) = some (s.sendWrite i c) := by
      simp [SendState.step, hc, hp]
    refine ⟨.sendWrite i, _, .inr rfl, hstep, ?_⟩
    obtain ⟨n, hle, hbuf, -, hcontent, -, hn, hsends, -⟩ := sendWrite_spec (i := i) h.toInv hmem
    -- something is accepted, as the circular buffer is empty
    have hsize := (PodCircularBuffer.empty_iff h.buf).mp hempty
    have hcontent₀ : s.writeCircularbuf.content.length = 0 := by
      rw [PodCircularBuffer.length_content, hsize]
      rfl
    have hleft := h.unfinished c hmem hpc
    have hcount : c.count = (c.data.length : ℤ) - c.iret := int32_of_lt (by omega) (by omega)
    have hbuffer : bufferSize = 10240 := rfl
    rw [hcount, h.cap, hsize] at hn
    have hsum := sum_work_set hc ⟨c.data, c.iret + n,
      if c.iret + n < c.data.length then .check else .returned⟩
    have hloop' := loopWork_le (s.sendWrite i c)
    have hlen : (s.sendWrite i c).writeCircularbuf.content.length ≤ n := by
      rw [hcontent, List.length_append, hcontent₀, Nat.zero_add]
      exact List.length_take_le n _
    rw [work, work]
    by_cases hlt : c.iret + n < c.data.length
    · rw [if_pos hlt] at hsends hsum
      simp only [SendCall.work, hp] at hsum
      rw [hsends]
      omega
    · rw [if_neg hlt] at hsends hsum
      simp only [SendCall.work, hp] at hsum
      rw [hsends]
      omega

/-! ### `send_inl` -/

/-- What has been accepted stays so. -/
theorem accepted_grows {e : SendEvent} (hstep : s.step e = some s') : s.accepted <+: s'.accepted := by
  cases e with
  | sendWrite i =>
    obtain ⟨c, -, -, rfl⟩ := step_sendWrite hstep
    exact List.prefix_append _ _
  | sendCheck i =>
    obtain ⟨c, -, -, rfl⟩ := step_sendCheck hstep
    exact List.prefix_rfl
  | send | close =>
    cases hstep
    exact List.prefix_rfl
  | asyncCB | afterRecv | afterSend | drainRead | uvWrite =>
    rw [(step_onLoop hstep trivial).2.1]

/-- The loop thread goes back to the event loop when it finds the circular buffer empty; otherwise it has been
there before. -/
theorem idle_of_step {e : SendEvent} (hstep : s.step e = some s') (hidle : s'.loop = .idle) :
    s.loop = .idle ∨
      (s.loop = .drain ∧ s.writeCircularbuf.empty = true ∧ s'.passed = s.passed) := by
  cases e with
  | send | close =>
    cases hstep
    exact .inl hidle
  | sendCheck i =>
    obtain ⟨c, -, -, rfl⟩ := step_sendCheck hstep
    exact .inl hidle
  | sendWrite i =>
    obtain ⟨c, -, -, rfl⟩ := step_sendWrite hstep
    exact .inl hidle
  | asyncCB | afterRecv =>
    obtain ⟨hloop, -⟩ := Option.ite_none_right_eq_some.mp hstep
    exact .inl hloop
  | afterSend addr status =>
    obtain ⟨⟨hloop, -⟩, -⟩ := Option.ite_none_right_eq_some.mp hstep
    exact .inl hloop
  | drainRead addr base =>
    obtain ⟨⟨hloop, -⟩, heq⟩ := Option.ite_none_right_eq_some.mp hstep
    cases heq
    split at hidle
    case isTrue hempty =>
      rw [if_pos hempty]
      exact .inr ⟨hloop, hempty, rfl⟩
    case isFalse => cases hidle
  | uvWrite iret =>
    obtain ⟨addr, -, rfl⟩ := step_uvWrite hstep
    rw [uvWrite] at hidle
    split at hidle <;> cases hidle

/-- A state after one in which `bytes` had been accepted: whenever the loop thread is back in the event loop,
they have been passed to `uv_write`. -/
structure PassesOn (bytes : List UInt8) (s : SendState) : Prop where
  inv : s.Inv
  accepted : bytes <+: s.accepted
  passed : s.loop = .idle → bytes <+: s.passed

/-- Whatever the threads do. -/
theorem PassesOn.step {bytes : List UInt8} (h : s.PassesOn bytes) {e : SendEvent}
    (hstep : s.step e = some s') : s'.PassesOn bytes := by
  refine ⟨step_inv h.inv hstep, h.accepted.trans (accepted_grows hstep), fun hidle => ?_⟩
  rcases idle_of_step hstep hidle with hloop | ⟨hloop, hempty, hpassed⟩
  · rw [step_passed hstep]
    exact (h.passed hloop).trans (List.prefix_append _ _)
  · -- the loop is left when there is nothing more to read, so that all that has been accepted has been passed on
    have hsize := (PodCircularBuffer.empty_iff h.inv.buf).mp hempty
    have hcontent : s.writeCircularbuf.content = [] := by
      refine List.length_eq_zero_iff.mp ?_
      rw [PodCircularBuffer.length_content, hsize]
      rfl
    have hledger := h.inv.ledger
    simp only [inHand, hloop, hcontent, List.append_nil] at hledger
    rw [hpassed, hledger]
    exact h.accepted

/-- The flag of the user does not matter for what is passed on. -/
theorem PassesOn.setFlag {bytes : List UInt8} (h : s.PassesOn bytes) (isuseraskforclosed : Bool) :
    PassesOn bytes { s with isuseraskforclosed } :=
  ⟨h.inv.setFlag isuseraskforclosed, h.accepted, h.passed⟩

/-- In `send_inl`, nothing has to have been passed on yet. -/
theorem passesOn_accepted (hinv : s.Inv) (hloop : s.loop = .drain) : s.PassesOn s.accepted :=
  ⟨hinv, List.prefix_rfl, fun hidle => by cases hloop.symm.trans hidle⟩

/-- **`send_inl` passes everything on.** When it comes back, the circular buffer is empty, and what was in it has
been passed to `uv_write`. -/
theorem run_sendInl (hinv : s.Inv) (hloop : s.loop = .drain) {es : List SendEvent}
    (hes : ∀ e ∈ es, e.InSendInl) (hrun : run step s es = some s') (hidle : s'.loop = .idle) :
    s'.writeCircularbuf.content = [] ∧ s'.passed = s.passed ++ s.writeCircularbuf.content := by
  obtain ⟨hend, haccepted⟩ : s'.PassesOn s.accepted ∧ s'.accepted = s.accepted := by
    refine run_invariant_along (I := fun s' => s'.PassesOn s.accepted ∧ s'.accepted = s.accepted)
      (fun s₁ e s₂ h he hs => ?_) ⟨passesOn_accepted hinv hloop, rfl⟩ (Along.of_forall hes) hrun
    exact ⟨h.1.step hs, (step_onLoop hs he.onLoop).2.1.trans h.2⟩
  have hledger := hend.inv.ledger
  have hledger₀ := hinv.ledger
  -- nothing is in the hand of `send_inl`, before and after
  simp only [inHand, hidle, List.append_nil, haccepted] at hledger
  simp only [inHand, hloop, List.append_nil] at hledger₀
  -- and all that was accepted has been passed on
  have hpassed : s'.passed = s.accepted :=
    ((hend.passed hidle).eq_of_length_le (by rw [← hledger, List.length_append]; omega)).symm
  rw [hpassed] at hledger
  exact ⟨List.append_right_eq_self.mp hledger, hpassed.trans hledger₀.symm⟩

/-- It does come back, if nothing stops it. -/
theorem exists_run_sendInl (hinv : s.Inv) (hfilled : s.Filled) :
    ∃ es s', (∀ e ∈ es, e.InSendInl) ∧ run step s es = some s' ∧ s'.loop = .idle := by
  have hreach : CanReach step (fun _ e => e.InSendInl) (fun s => s.Inv ∧ s.Filled)
      fun s => (s.Inv ∧ s.Filled) ∧ s.loop = .idle := by
    refine CanReach.of_decreasing_step work fun s ⟨hinv, hfilled⟩ hloop => ?_
    obtain ⟨e, s', he, hstep, hlt⟩ := exists_step_drain hinv hfilled hloop
    refine ⟨e, s', ?_, hstep, ⟨step_inv hinv hstep, hfilled.step hinv hstep⟩, hlt⟩
    rcases he with rfl | ⟨addr, base, rfl⟩ <;> trivial
  obtain ⟨es, s', halong, hrun, -, hidle⟩ := hreach s ⟨hinv, hfilled⟩
  exact ⟨es, s', halong.forall_of_run hrun, hrun, hidle⟩

/-! ### A call of `Send` -/

/-- Call number `i`, which sends `data`, when `k` of its bytes had been accepted as the last of the bytes
`bytes`, and nothing but this call has been accepted since. -/
structure Sending (i k : ℕ) (data bytes : List UInt8) (s : SendState) : Prop extends s.Ready where
  isuseraskforclosed : s.isuseraskforclosed = false
  call : ∃ c, s.sends[i]? = some c ∧ c.data = data ∧ k ≤ c.iret ∧
    s.accepted = bytes ++ (data.drop k).take (c.iret - k) ∧ (c.pc = .returned → c.iret = data.length)

/-- While one call of `Send` writes, it goes on from where it was, and the others leave it alone. -/
theorem Sending.step {i k : ℕ} {data bytes : List UInt8} (h : s.Sending i k data bytes) {e : SendEvent}
    (he : e.GoesOnFor i) (hstep : s.step e = some s') : s'.Sending i k data bytes := by
  have hready := h.toReady.step hstep
  obtain ⟨c, hc, hdata, hk, haccepted, hreturned⟩ := h.call
  obtain ⟨hi, -⟩ := List.getElem?_eq_some_iff.mp hc
  cases e with
  | sendCheck j =>
    cases he
    obtain ⟨d, hd, hcheck, rfl⟩ := step_sendCheck hstep
    cases hc.symm.trans hd
    refine ⟨hready, h.isuseraskforclosed, _, List.getElem?_set_self hi, hdata, hk, haccepted, fun hpc => ?_⟩
    -- the flag is not set, so that the call goes on to write
    rw [h.isuseraskforclosed] at hpc
    cases hpc
  | sendWrite j =>
    cases he
    obtain ⟨d, hd, hwrite, rfl⟩ := step_sendWrite hstep
    cases hc.symm.trans hd
    obtain ⟨n, hle, -, -, -, hacc, -, hsends, -⟩ := sendWrite_spec (i := i) h.toInv (List.mem_of_getElem? hc)
    refine ⟨hready, h.isuseraskforclosed, ⟨c.data, c.iret + n, _⟩,
      by rw [hsends]; exact List.getElem?_set_self hi, hdata, Nat.le_add_right_of_le hk, ?_, fun hpc => ?_⟩
    · -- what this section has accepted follows what the earlier ones have
      have hsplit : c.iret + n - k = (c.iret - k) + n := by omega
      have hdrop : (data.drop k).drop (c.iret - k) = data.drop c.iret := by
        rw [List.drop_drop, Nat.add_sub_cancel' hk]
      rw [hacc, haccepted, hdata, hsplit, List.take_add, hdrop, List.append_assoc]
    · by_cases hlt : c.iret + n < c.data.length
      · simp only [if_pos hlt] at hpc
        cases hpc
      · simp only
        rw [← hdata]
        exact Nat.le_antisymm hle (not_lt.mp hlt)
  | asyncCB | drainRead | uvWrite =>
    obtain ⟨hsends, hacc, -, hflag⟩ := step_onLoop hstep trivial
    exact ⟨hready, hflag.trans h.isuseraskforclosed, c, hsends ▸ hc, hdata, hk, hacc ▸ haccepted, hreturned⟩
  | send | close | afterRecv | afterSend => exact he.elim

/-- It goes on as long as it has not returned. -/
theorem Sending.exists_step {i k : ℕ} {data bytes : List UInt8} (h : s.Sending i k data bytes)
    (hshort : data.length < 2 ^ 31) (hopen : ¬ ∃ c, s.sends[i]? = some c ∧ c.pc = .returned) :
    ∃ e s', e.GoesOnFor i ∧ s.step e = some s' ∧ s'.work < s.work := by
  by_cases hloop : s.loop = .idle
  · cases hempty : s.writeCircularbuf.empty with
    | true =>
      obtain ⟨c, hc, rfl, -⟩ := h.call
      obtain ⟨e, s', he, hstep, hlt⟩ := h.toReady.exists_step_call h.isuseraskforclosed hempty hc
        (fun hpc => hopen ⟨c, hc, hpc⟩) hshort
      refine ⟨e, s', ?_, hstep, hlt⟩
      rcases he with rfl | rfl <;> rfl
    | false =>
      obtain ⟨s', hstep, hlt⟩ := exists_step_async h.isuseraskforclosed hloop hempty
      exact ⟨.asyncCB, s', trivial, hstep, hlt⟩
  · obtain ⟨e, s', he, hstep, hlt⟩ := exists_step_drain h.toInv h.filled hloop
    refine ⟨e, s', ?_, hstep, hlt⟩
    rcases he with rfl | ⟨addr, base, rfl⟩
    · rfl
    · trivial

/-- When it has returned, its whole buffer has been accepted. -/
theorem Sending.returned {i k : ℕ} {data bytes : List UInt8} (h : s.Sending i k data bytes)
    (hreturned : ∃ c, s.sends[i]? = some c ∧ c.pc = .returned) :
    s.sends[i]? = some ⟨data, data.length, .returned⟩ ∧ s.accepted = bytes ++ data.drop k := by
  obtain ⟨c, hc, hpc⟩ := hreturned
  obtain ⟨d, hd, hdata, -, haccepted, hwhole⟩ := h.call
  cases hc.symm.trans hd
  have hiret := hwhole hpc
  refine ⟨?_, ?_⟩
  · rw [hc, ← hpc, ← hiret, ← hdata]
  · rw [haccepted, hiret, ← List.length_drop, List.take_length]

end SendState

end MyUvpp
