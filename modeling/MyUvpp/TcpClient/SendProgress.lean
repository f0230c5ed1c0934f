import MyUvpp.TcpClient.ClientLife

/-! # The length of a buffer as an `int`

`Send` counts in `size_t`, but hands what is left of its buffer to `write` as an `int` and returns an
`int`. From `2 ^ 31` bytes on the length that `write` gets is not the length that is left: sooner or later
it is not positive, or smaller than the free space, and the call gets no further. -/

namespace MyUvpp

/-- What `Send` returns: `iret` converted to `int`. -/
def SendCall.result (c : SendCall) : ℤ := int32 c.iret

namespace SendState

/-- The number of free cells of the circular buffer. -/
def free (s : SendState) : ℤ := s.writeCircularbuf.nBufSize - s.writeCircularbuf.size

/-- The progress of the calls that send `data`. -/
structure Progresses (data : List UInt8) (s : SendState) : Prop where
  iret_le : ∀ (i : ℕ) (c : SendCall), s.sends[i]? = some c → c.data = data → c.iret ≤ data.length
  /-- A critical section with something left to send and room for it accepts as much as it can. -/
  accepts : ∀ (i : ℕ) (c : SendCall) (s' : SendState), s.sends[i]? = some c → c.data = data →
    s.step (.sendWrite i) = some s' → c.iret < data.length → 0 < s.free →
      ∃ c', s'.sends[i]? = some c' ∧ c.iret < c'.iret ∧
        (c'.iret : ℤ) = c.iret + min s.free (data.length - c.iret)
  /-- The loop ends when everything has been accepted, and the returned number says so. -/
  reports : ∀ (i : ℕ) (c : SendCall), s.sends[i]? = some c → c.data = data → c.pc = .returned →
    c.iret = data.length ∧ c.result = data.length

variable {s s' : SendState} {data : List UInt8}

/-! ### Lengths that fit an `int` -/

/-- What has been accepted after the critical section. -/
theorem sends_sendWrite (h : s.Inv) {i : ℕ} {c : SendCall} (hc : s.sends[i]? = some c) :
    ∃ n : ℕ, (n : ℤ) = min (max c.count 0) s.free ∧
      (s.sendWrite i c).sends = s.sends.set i ⟨c.data, c.iret + n,
        if c.iret + n < c.data.length then .check else .returned⟩ ∧
      (s.sendWrite i c).sends[i]? = some ⟨c.data, c.iret + n,
        if c.iret + n < c.data.length then .check else .returned⟩ := by
  obtain ⟨n, -, -, -, -, -, hn, hsends, -⟩ := sendWrite_spec (i := i) h (List.mem_of_getElem? hc)
  refine ⟨n, hn, hsends, ?_⟩
  obtain ⟨hi, -⟩ := List.getElem?_eq_some_iff.mp hc
  rw [hsends, List.getElem?_set_self hi]

/-- The flag is never taken back. -/
theorem isuseraskforclosed_of_step {e : SendEvent} (hstep : s.step e = some s')
    (hopen : s'.isuseraskforclosed = false) : s.isuseraskforclosed = false := by
  cases e with
  | send =>
    cases hstep
    exact hopen
  | sendCheck i =>
    obtain ⟨c, -, -, rfl⟩ := step_sendCheck hstep
    exact hopen
  | sendWrite i =>
    obtain ⟨c, -, -, rfl⟩ := step_sendWrite hstep
    exact hopen
  | close =>
    cases hstep
    cases hopen
  | asyncCB | afterRecv | afterSend | drainRead | uvWrite =>
    obtain ⟨-, -, -, hflag⟩ := step_onLoop hstep trivial
    exact hflag ▸ hopen

/-- In every state that is reached before the user asks for the close, the calls that have returned have
written everything. -/
theorem wholeFrom_of_run {pBuf : Mem UInt8} {heap : ℕ → WriteParam} {es : List SendEvent}
    (hrun : run step (initial pBuf heap) es = some s) :
    s.Inv ∧ s.Filled ∧ (s.isuseraskforclosed = false → s.WholeFrom 0) := by
  refine run_invariant (I := fun s => s.Inv ∧ s.Filled ∧ (s.isuseraskforclosed = false → s.WholeFrom 0))
    ?_ ⟨inv_initial pBuf heap, filled_initial pBuf heap, fun _ i c _ hc => ?_⟩ hrun
  · rintro s e s' ⟨hinv, hfilled, hwhole⟩ hstep
    refine ⟨step_inv hinv hstep, hfilled.step hinv hstep, fun hopen => ?_⟩
    have hopen' := isuseraskforclosed_of_step hstep hopen
    exact (hwhole hopen').step hinv hopen' hstep
  · simp [initial] at hc

/-- A buffer shorter than `2 ^ 31` is sent as it should. -/
theorem progresses_of_lt (hlen : data.length < 2 ^ 31) (hinv : s.Inv) (hwhole : s.WholeFrom 0) :
    s.Progresses data where
  iret_le := by
    rintro i c hc rfl
    exact hinv.iret_le c (List.mem_of_getElem? hc)
  accepts := by
    rintro i c s' hc rfl hstep hlt hfree
    obtain ⟨d, hd, -, rfl⟩ := step_sendWrite hstep
    cases hc.symm.trans hd
    obtain ⟨n, hn, -, hafter⟩ := sends_sendWrite hinv hc
    have hcount : c.count = (c.data.length : ℤ) - c.iret := int32_of_lt (by omega) (by omega)
    rw [hcount] at hn
    exact ⟨_, hafter, by simp only; omega, by simp only; omega⟩
  reports := by
    rintro i c hc rfl hpc
    have hiret := hwhole i c (Nat.zero_le i) hc hpc
    refine ⟨hiret, ?_⟩
    rw [SendCall.result, hiret]
    exact int32_of_lt (by omega) (by omega)

/-! ### Longer buffers -/

/-- Between two rounds of the only call of `Send`, with nothing in the circular buffer. -/
structure Drained (data : List UInt8) (k : ℕ) (s : SendState) : Prop where
  inv : s.Inv
  filled : s.Filled
  isuseraskforclosed : s.isuseraskforclosed = false
  loop : s.loop = .idle
  size : s.writeCircularbuf.size = 0
  sends : s.sends = [⟨data, k, .check⟩]

/-- A buffer that has been drained has room for as many bytes as it has cells. -/
theorem Drained.free_eq {k : ℕ} (h : s.Drained data k) : s.free = bufferSize := by
  rw [free, h.inv.cap, h.size, sub_zero]

/-- The call enters its critical section. -/
theorem Drained.sendCheck {k : ℕ} (h : s.Drained data k) :
    s.step (.sendCheck 0) = some { s with sends := [⟨data, k, .write⟩] } := by
  simp [step, h.sends, h.isuseraskforclosed]

/-- The call of `Send` goes on to its write. -/
theorem Drained.run_sendCheck {k : ℕ} (h : s.Drained data k) :
    run step s [.sendCheck 0] = some { s with sends := [⟨data, k, .write⟩] } := by
  rw [run, h.sendCheck]
  rfl

/-- The client stays in order there. -/
theorem Drained.inv_sendCheck {k : ℕ} (h : s.Drained data k) :
    Inv { s with sends := [⟨data, k, .write⟩] } :=
  step_inv h.inv h.sendCheck

/-- A converted length that is below what is left and below the size of the circular buffer. -/
theorem Drained.not_progresses {k : ℕ} (h : s.Drained data k)
    (hcount : int32 ((data.length : ℤ) - k) < min bufferSize (data.length - k)) (hk : k < data.length) :
    ¬ Progresses data { s with sends := [⟨data, k, .write⟩] } := by
  intro hprogress
  have hfree : free { s with sends := [⟨data, k, .write⟩] } = bufferSize := h.free_eq
  have hbuffer : 0 < bufferSize := by decide
  obtain ⟨n, hn, -, hafter⟩ := sends_sendWrite h.inv_sendCheck (i := 0) (c := ⟨data, k, .write⟩) rfl
  obtain ⟨c', hc', hlt, hiret⟩ := hprogress.accepts 0 ⟨data, k, .write⟩ _ rfl rfl rfl hk
    (hfree ▸ hbuffer)
  cases hafter.symm.trans hc'
  rw [hfree] at hn hiret
  have hn' : (n : ℤ) = min (max (int32 ((data.length : ℤ) - k)) 0) bufferSize := hn
  simp only at hlt hiret
  omega

/-- `send_inl` empties the circular buffer, and leaves the calls and the flag alone. -/
theorem exists_drain (hinv : s.Inv) (hfilled : s.Filled) (hopen : s.isuseraskforclosed = false)
    (hidle : s.loop = .idle) :
    ∃ es s', run step s es = some s' ∧ s'.loop = .idle ∧ s'.writeCircularbuf.size = 0 ∧
      s'.sends = s.sends ∧ s'.isuseraskforclosed = false := by
  -- the asynchronous callback starts to drain
  have hstep : s.step .asyncCB = some { s with loop := .drain } := by simp [step, hidle, hopen]
  have hinv₁ : Inv { s with loop := .drain } := step_inv hinv hstep
  have hfilled₁ : Filled { s with loop := .drain } := hfilled.step hinv hstep
  obtain ⟨es, s', hes, hrun, hidle'⟩ := exists_run_sendInl hinv₁ hfilled₁
  obtain ⟨hcontent, -⟩ := run_sendInl hinv₁ rfl hes hrun hidle'
  obtain ⟨hinv', hsends, hflag⟩ : s'.Inv ∧ s'.sends = s.sends ∧ s'.isuseraskforclosed = false := by
    refine run_invariant_along
      (I := fun s' => s'.Inv ∧ s'.sends = s.sends ∧ s'.isuseraskforclosed = false)
      (fun s₁ e s₂ h he hs => ?_) ⟨hinv₁, rfl, hopen⟩ (Along.of_forall hes) hrun
    obtain ⟨hinv, hsends, hflag⟩ := h
    obtain ⟨hsends', -, -, hflag'⟩ := step_onLoop hs he.onLoop
    exact ⟨step_inv hinv hs, hsends'.trans hsends, hflag'.trans hflag⟩
  refine ⟨.asyncCB :: es, s', run_cons_eq_some.mpr ⟨_, hstep, hrun⟩, hidle', ?_, hsends, hflag⟩
  have hlen := PodCircularBuffer.length_content s'.writeCircularbuf
  have hnonneg := PodCircularBuffer.size_nonneg hinv'.buf
  rw [hcontent, List.length_nil] at hlen
  omega

/-- A full round of the call: it fills the circular buffer, which is then drained. -/
theorem Drained.round {k : ℕ} (h : s.Drained data k) (hk : k + bufferSize.toNat < data.length)
    (hcount : bufferSize ≤ int32 ((data.length : ℤ) - k)) :
    ∃ es s', run step s es = some s' ∧ s'.Drained data (k + bufferSize.toNat) := by
  have h₁ := h.sendCheck
  generalize hs₁ : { s with sends := [⟨data, k, .write⟩] } = s₁ at h₁
  have hinv₁ := step_inv h.inv h₁
  have hfilled₁ := h.filled.step h.inv h₁
  have hsends₁ : s₁.sends = [⟨data, k, .write⟩] := by rw [← hs₁]
  have hfree₁ : s₁.writeCircularbuf.nBufSize - s₁.writeCircularbuf.size = bufferSize := by
    rw [← hs₁]
    exact h.free_eq
  have hbuffer : bufferSize.toNat = 10240 := rfl
  -- the critical section accepts a whole buffer
  obtain ⟨n, -, -, -, -, -, hn, hsends₂, -⟩ :=
    sendWrite_spec (i := 0) (c := ⟨data, k, .write⟩) hinv₁ (by simp [hsends₁])
  have hn' : n = bufferSize.toNat := by
    have hn' : (n : ℤ) = min (max (int32 ((data.length : ℤ) - k)) 0) bufferSize := hfree₁ ▸ hn
    omega
  subst hn'
  have h₂ : s₁.step (.sendWrite 0) = some (s₁.sendWrite 0 ⟨data, k, .write⟩) := by
    simp [step, hsends₁]
  have hopen₂ : (s₁.sendWrite 0 ⟨data, k, .write⟩).isuseraskforclosed = false := by
    simp [sendWrite, ← hs₁, h.isuseraskforclosed]
  have hloop₂ : (s₁.sendWrite 0 ⟨data, k, .write⟩).loop = .idle := by
    simp [sendWrite, ← hs₁, h.loop]
  rw [hsends₁, if_pos hk] at hsends₂
  generalize s₁.sendWrite 0 ⟨data, k, .write⟩ = s₂ at h₂ hopen₂ hloop₂ hsends₂
  have hinv₂ := step_inv hinv₁ h₂
  have hfilled₂ := hfilled₁.step hinv₁ h₂
  obtain ⟨es, s', hrun, hloop, hsize, hsends, hopen⟩ :=
    exists_drain hinv₂ hfilled₂ hopen₂ hloop₂
  obtain ⟨hinv, hfilled⟩ := run_invariant (I := fun s => s.Inv ∧ s.Filled)
    (fun s e s' hI hstep => ⟨step_inv hI.1 hstep, hI.2.step hI.1 hstep⟩) ⟨hinv₂, hfilled₂⟩ hrun
  exact ⟨.sendCheck 0 :: .sendWrite 0 :: es, s', by simp [run, h₁, h₂, hrun],
    hinv, hfilled, hopen, hloop, hsize, hsends.trans hsends₂⟩

/-- From `2 ^ 31` on, a conversion that leaves room for a buffer has lost at least `2 ^ 32`. -/
theorem le_of_int32_le {n : ℤ} (hlong : 2 ^ 31 ≤ n) (hcount : bufferSize ≤ int32 n) :
    2 ^ 32 + bufferSize ≤ n := by
  have hbuffer : bufferSize = 10240 := rfl
  rw [int32, Int.bmod_def] at hcount
  split at hcount <;> omega

/-- **A call that gets stuck.** With at least `2 ^ 31` bytes left, the rounds of a call come to one in
which it does not accept what it could. -/
theorem Drained.exists_not_progresses {k : ℕ} (h : s.Drained data k)
    (hlong : 2 ^ 31 ≤ (data.length : ℤ) - k) :
    ∃ es s', run step s es = some s' ∧ s'.isuseraskforclosed = false ∧ ¬ s'.Progresses data := by
  have hbuffer : bufferSize = 10240 := rfl
  induction hm : data.length - k using Nat.strong_induction_on generalizing s k with
  | _ m ih =>
    by_cases hcount : bufferSize ≤ int32 ((data.length : ℤ) - k)
    · have hlost := le_of_int32_le hlong hcount
      obtain ⟨es, s₁, hrun, h₁⟩ := h.round (by omega) hcount
      obtain ⟨es', s', hrun', hopen, hnot⟩ := ih _ (by omega) h₁ (by omega) rfl
      exact ⟨es ++ es', s', by rw [run_append, hrun]; exact hrun', hopen, hnot⟩
    · exact ⟨_, _, h.run_sendCheck, h.isuseraskforclosed, h.not_progresses (by omega) (by omega)⟩

/-- The call of `Send` on a new client. -/
theorem drained_send (pBuf : Mem UInt8) (heap : ℕ → WriteParam) (hne : data ≠ []) :
    ((initial pBuf heap).send data).Drained data 0 where
  inv := step_inv (e := .send data) (inv_initial pBuf heap) rfl
  filled := (filled_initial pBuf heap).step (e := .send data) (inv_initial pBuf heap) rfl
  isuseraskforclosed := rfl
  loop := rfl
  size := rfl
  sends := by simp [send, initial, hne]

end SendState

/-- **When `Send` makes progress and reports it.** In every state that the threads and the event loop can
reach before the user asks for the close, a critical section of a call that sends `data` accepts as much
as there is room for, and the call returns the length of `data` when all of it has been accepted, if and
only if `data` is shorter than `2 ^ 31`. -/
theorem send_progress_iff (data : List UInt8) (hne : data ≠ []) :
    (∀ (pBuf : Mem UInt8) (heap : ℕ → WriteParam) (es : List SendEvent) (s : SendState),
      run SendState.step (.initial pBuf heap) es = some s → s.isuseraskforclosed = false →
        s.Progresses data) ↔ data.length < 2 ^ 31 := by
  constructor
  · intro hall
    by_contra hlong
    have hstart := SendState.drained_send (fun _ => 0) (fun _ => allocWriteParam fun _ => 0) hne
    obtain ⟨es, s, hrun, hopen, hnot⟩ := hstart.exists_not_progresses (by omega)
    exact hnot (hall _ _ (.send data :: es) s hrun hopen)
  · intro hlt pBuf heap es s hrun hopen
    obtain ⟨hinv, -, hwhole⟩ := SendState.wholeFrom_of_run hrun
    exact SendState.progresses_of_lt hlt hinv (hwhole hopen)

/-- A buffer of three bytes. -/
theorem send_progress_iff_three :
    (∀ (pBuf : Mem UInt8) (heap : ℕ → WriteParam) (es : List SendEvent) (s : SendState),
      run SendState.step (.initial pBuf heap) es = some s → s.isuseraskforclosed = false →
        s.Progresses [1, 2, 3]) ↔ ([1, 2, 3] : List UInt8).length < 2 ^ 31 :=
  send_progress_iff [1, 2, 3] (by decide)

/-- A buffer of `2 ^ 31` bytes on a new client: the converted length is negative, and nothing is
accepted. -/
theorem not_send_progress :
    ¬ ∀ (data : List UInt8), data ≠ [] →
      ∀ (pBuf : Mem UInt8) (heap : ℕ → WriteParam) (es : List SendEvent) (s : SendState),
        run SendState.step (.initial pBuf heap) es = some s → s.isuseraskforclosed = false →
          s.Progresses data := by
  intro hall
  obtain ⟨data, hlen⟩ : ∃ data : List UInt8, data.length = 2 ^ 31 :=
    ⟨List.replicate (2 ^ 31) 0, List.length_replicate⟩
  have hne : data ≠ [] := by
    rw [← List.length_pos_iff, hlen]
    omega
  have hstart := SendState.drained_send (fun _ => 0) (fun _ => allocWriteParam fun _ => 0) hne
  have hbuffer : bufferSize = 10240 := rfl
  have hcount : int32 ((data.length : ℤ) - (0 : ℕ)) = -(2 ^ 31) := by
    rw [int32, Int.bmod_def]
    split <;> omega
  exact hstart.not_progresses (by omega) (by omega)
    (hall data hne _ _ [.send data, .sendCheck 0] _ hstart.run_sendCheck rfl)

end MyUvpp
