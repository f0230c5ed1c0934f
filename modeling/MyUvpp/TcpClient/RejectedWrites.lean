import MyUvpp.TcpClient.SendExactlyOnce

/-! # Writes that are refused

`send_inl` takes bytes out of the circular buffer before it knows whether `uv_write` accepts them. A
request that is refused goes back to the list of free ones, from which the next read overwrites it, and
nothing puts its bytes back: they are lost, at every refusal. -/

namespace MyUvpp

namespace SendState

/-- Every request has room, and a request that is handed over is not empty. -/
structure Filled (s : SendState) : Prop where
  truelen : ∀ a ∈ s.owned, (s.heap a).truelen = bufferSize
  hand : ∀ a, s.loop = .handOver a → (s.heap a).bytes ≠ []

variable {s s' : SendState}

/-- At first there are no requests. -/
theorem filled_initial (pBuf : Mem UInt8) (heap : ℕ → WriteParam) : (initial pBuf heap).Filled where
  truelen := by simp [initial, owned]
  hand := by simp [initial]

/-- Requests change hands, and none is handed over. -/
theorem Filled.moved (h : s.Filled) (hheap : s'.heap = s.heap) (howned : ∀ a ∈ s'.owned, a ∈ s.owned)
    (hloop : ∀ a, s'.loop ≠ .handOver a) : s'.Filled where
  truelen := by
    intro a ha
    rw [hheap]
    exact h.truelen a (howned a ha)
  hand := fun a ha => absurd ha (hloop a)

/-- A request with room takes something out of a buffer that is not empty. -/
theorem bytes_read_ne_nil (hinv : s.Inv) (hfull : s.writeCircularbuf.empty = false) {w : WriteParam}
    (hw : w.truelen = bufferSize) :
    (⟨(s.writeCircularbuf.read w.base w.truelen).2.1,
      (s.writeCircularbuf.read w.base w.truelen).2.2.1, w.truelen⟩ : WriteParam).bytes ≠ [] := by
  have hread := PodCircularBuffer.read_spec hinv.buf w.base w.truelen
  have hsize : 0 < s.writeCircularbuf.size := by
    have hnonneg := PodCircularBuffer.size_nonneg hinv.buf
    have hempty := PodCircularBuffer.empty_iff hinv.buf
    rw [hfull] at hempty
    have hne : s.writeCircularbuf.size ≠ 0 := by simpa using hempty
    omega
  have hroom : 0 < w.truelen := by rw [hw]; decide
  have hcount := hread.count_eq
  have hlen := PodCircularBuffer.length_content s.writeCircularbuf
  apply List.ne_nil_of_length_pos
  rw [WriteParam.bytes, hread.data_eq, List.length_take]
  omega

/-- A request that is taken from a buffer with bytes gets some of them, and has room for as many as a receive
buffer. -/
theorem Filled.drainRead (hinv : s.Inv) (h : s.Filled) {addr : ℕ} (base : Mem UInt8)
    (hdrain : s.loop = .drain) (hfull : s.writeCircularbuf.empty = false) :
    (s.drainRead addr base).Filled := by
  -- the request that is taken has the default size, and the others are as they were
  have hfilled : ∀ (a : ℕ) (w : WriteParam) (as : List ℕ), w.truelen = bufferSize →
      (∀ b ∈ a :: as ++ s.inFlight.map Prod.fst, b ≠ a → b ∈ s.owned) → Filled { s with
        writeCircularbuf := (s.writeCircularbuf.read w.base w.truelen).1
        writeparamList := as
        heap := Function.update s.heap a { w with
          base := (s.writeCircularbuf.read w.base w.truelen).2.1
          len := (s.writeCircularbuf.read w.base w.truelen).2.2.1 }
        loop := .handOver a } := by
    intro a w as hw hothers
    refine ⟨fun b hb => ?_, fun b hb => ?_⟩
    · rcases eq_or_ne b a with rfl | hne
      · simpa using hw
      · simpa [Function.update_of_ne hne] using h.truelen b (hothers b hb hne)
    · cases hb
      simpa using bytes_read_ne_nil hinv hfull hw
  simp only [SendState.drainRead]
  cases hlist : s.writeparamList with
  | nil =>
    refine hfilled addr (allocWriteParam base) [] rfl fun b hb hne => ?_
    rw [owned, hdrain, hlist]
    simpa [hne] using hb
  | cons a as =>
    refine hfilled a (s.heap a) as (h.truelen a ?_) fun b hb _ => ?_
    · rw [owned, hlist]
      simp
    · rw [owned, hdrain, hlist]
      simpa using hb

/-- The end of a write hands no request over. -/
theorem Filled.afterSend (h : s.Filled) {addr : ℕ} (status : ℤ) (hidle : s.loop = .idle)
    (haddr : addr ∈ s.inFlight.map Prod.fst) : (s.afterSend addr status).Filled := by
  have howned : ∀ a ∈ (s.afterSend addr status).owned, a ∈ s.owned := by
    intro a ha
    rw [← pool_owned, afterSend_pool hidle] at ha
    rw [← pool_owned]
    exact RequestPool.mem_owned_complete haddr ha
  obtain ⟨loop, hloop, heq⟩ := afterSend_eq hidle addr status
  rw [heq] at howned ⊢
  refine h.moved rfl howned ?_
  rcases hloop with rfl | rfl <;> simp

/-- The result of `uv_write` ends the hand-over. -/
theorem Filled.uvWrite (h : s.Filled) {addr : ℕ} (iret : ℤ) (hhand : s.loop = .handOver addr) :
    (s.uvWrite addr iret).Filled := by
  have htaken : s.pool.taken = some addr := filling_eq_some hhand
  have howned : ∀ a ∈ (s.uvWrite addr iret).owned, a ∈ s.owned := by
    intro a ha
    rw [← pool_owned, uvWrite_pool] at ha
    rw [← pool_owned]
    split_ifs at ha
    · exact RequestPool.mem_owned_reject htaken ha
    · exact RequestPool.mem_owned_submit htaken ha
  refine h.moved ?_ howned ?_
  · rw [SendState.uvWrite]
    split_ifs <;> rfl
  · rw [SendState.uvWrite]
    split_ifs <;> simp

/-- Every step keeps the requests filled. -/
theorem Filled.step {e : SendEvent} (hinv : s.Inv) (h : s.Filled) (hstep : s.step e = some s') :
    s'.Filled := by
  cases e with
  | send | close =>
    cases hstep
    exact ⟨h.truelen, h.hand⟩
  | sendCheck i =>
    obtain ⟨c, -, -, rfl⟩ := step_sendCheck hstep
    exact ⟨h.truelen, h.hand⟩
  | sendWrite i =>
    obtain ⟨c, -, -, rfl⟩ := step_sendWrite hstep
    exact ⟨h.truelen, h.hand⟩
  | asyncCB =>
    obtain ⟨hidle, heq⟩ := Option.ite_none_right_eq_some.mp hstep
    cases heq
    split
    case isTrue => exact h
    case isFalse => exact h.moved rfl (by simp [owned, hidle]) (by simp)
  | afterRecv =>
    obtain ⟨hidle, heq⟩ := Option.ite_none_right_eq_some.mp hstep
    cases heq
    exact h.moved rfl (by simp [owned, hidle]) (by simp)
  | afterSend addr status =>
    obtain ⟨⟨hidle, hflight⟩, heq⟩ := Option.ite_none_right_eq_some.mp hstep
    cases heq
    exact h.afterSend status hidle hflight
  | drainRead addr base =>
    obtain ⟨⟨hdrain, -⟩, heq⟩ := Option.ite_none_right_eq_some.mp hstep
    cases heq
    split
    case isTrue => exact h.moved rfl (by simp [owned, hdrain]) (by simp)
    case isFalse hfull => exact h.drainRead hinv base hdrain (by simpa using hfull)
  | uvWrite iret =>
    obtain ⟨addr, hhand, rfl⟩ := step_uvWrite hstep
    exact h.uvWrite iret hhand

/-- Only `uv_write` passes bytes on. -/
theorem step_passed {e : SendEvent} (hstep : s.step e = some s') :
    s'.passed = s.passed ++ (match e with
      | .uvWrite _ => s.inHand
      | _ => []) := by
  cases e with
  | send | close =>
    cases hstep
    simp [send]
  | sendCheck i =>
    obtain ⟨c, -, -, rfl⟩ := step_sendCheck hstep
    simp
  | sendWrite i =>
    obtain ⟨c, -, -, rfl⟩ := step_sendWrite hstep
    simp [sendWrite]
  | asyncCB =>
    obtain ⟨-, heq⟩ := Option.ite_none_right_eq_some.mp hstep
    cases heq
    split <;> simp
  | afterRecv =>
    obtain ⟨-, heq⟩ := Option.ite_none_right_eq_some.mp hstep
    cases heq
    simp
  | afterSend addr status =>
    obtain ⟨⟨hidle, -⟩, heq⟩ := Option.ite_none_right_eq_some.mp hstep
    cases heq
    obtain ⟨loop, -, heq⟩ := afterSend_eq hidle addr status
    simp [heq]
  | drainRead addr base =>
    obtain ⟨-, heq⟩ := Option.ite_none_right_eq_some.mp hstep
    cases heq
    split <;> simp [drainRead]
  | uvWrite iret =>
    obtain ⟨addr, hhand, rfl⟩ := step_uvWrite hstep
    unfold SendState.uvWrite
    split_ifs <;> simp [inHand, hhand]

end SendState

/-- The send path and what became of the bytes passed to `uv_write`. -/
structure WriteLedger where
  state : SendState
  /-- The bytes of the writes that libuv has accepted, in the order of the calls. -/
  submitted : List UInt8
  /-- Those of the writes that it has refused. -/
  refused : List UInt8

namespace WriteLedger

/-- A new client. -/
def initial (pBuf : Mem UInt8) (heap : ℕ → WriteParam) : WriteLedger := ⟨.initial pBuf heap, [], []⟩

/-- A step of the send path. -/
def step (l : WriteLedger) (e : SendEvent) : Option WriteLedger :=
  (l.state.step e).map fun s =>
    match e with
    | .uvWrite iret =>
      if iret ≠ 0 then ⟨s, l.submitted, l.refused ++ l.state.inHand⟩
      else ⟨s, l.submitted ++ l.state.inHand, l.refused⟩
    | _ => ⟨s, l.submitted, l.refused⟩

/-- The call of `uv_write`, if the event is one, succeeds. -/
def Accepts : SendEvent → Prop
  | .uvWrite iret => iret = 0
  | _ => True

/-- The invariant: what was passed is what was submitted, and what was refused is missing. -/
structure Inv (l : WriteLedger) : Prop where
  path : l.state.Inv
  filled : l.state.Filled
  passed_eq : l.refused = [] → l.submitted = l.state.passed
  length_eq : l.submitted.length + l.refused.length = l.state.passed.length

variable {l l' : WriteLedger}

/-- The ledger of a new client is in order. -/
theorem inv_initial (pBuf : Mem UInt8) (heap : ℕ → WriteParam) : (initial pBuf heap).Inv :=
  ⟨SendState.inv_initial pBuf heap, SendState.filled_initial pBuf heap, fun _ => rfl, rfl⟩

/-- A step refuses nothing if and only if it accepts what is written. -/
theorem step_inv {e : SendEvent} (h : l.Inv) (hstep : l.step e = some l') :
    l'.Inv ∧ (l'.refused = [] ↔ l.refused = [] ∧ Accepts e) := by
  obtain ⟨s, hs, rfl⟩ := Option.map_eq_some_iff.mp hstep
  have hpath := SendState.step_inv h.path hs
  have hfilled := h.filled.step h.path hs
  have hpassed := SendState.step_passed hs
  have hlen := h.length_eq
  cases e with
  | uvWrite iret =>
    obtain ⟨addr, hhand, -⟩ := SendState.step_uvWrite hs
    have hbytes : l.state.inHand ≠ [] := by
      rw [SendState.inHand, hhand]
      exact h.filled.hand addr hhand
    by_cases hiret : iret = 0
    · simp only [hiret, ne_eq, not_true_eq_false, if_false, Accepts, and_true]
      refine ⟨hpath, hfilled, fun hnil => ?_, ?_⟩
      · rw [hpassed, h.passed_eq hnil]
      · simp only [hpassed, List.length_append]
        omega
    · simp only [hiret, ne_eq, not_false_eq_true, if_true, Accepts, and_false, iff_false]
      refine ⟨⟨hpath, hfilled, fun hnil => ?_, ?_⟩, fun hnil => ?_⟩
      · exact absurd (List.append_eq_nil_iff.mp hnil).2 hbytes
      · simp only [hpassed, List.length_append]
        omega
      · exact hbytes (List.append_eq_nil_iff.mp hnil).2
  | send | sendCheck | sendWrite | close | asyncCB | afterRecv | afterSend | drainRead =>
    rw [List.append_nil] at hpassed
    refine ⟨⟨hpath, hfilled, fun hnil => ?_, ?_⟩, by simp [Accepts]⟩
    · rw [hpassed]
      exact h.passed_eq hnil
    · rw [hpassed]
      exact hlen

/-- A run refuses nothing if and only if it accepts all that is written. -/
theorem run_inv {es : List SendEvent} (h : l.Inv) (hrun : run step l es = some l') :
    l'.Inv ∧ (l'.refused = [] ↔ l.refused = [] ∧ ∀ e ∈ es, Accepts e) := by
  induction es generalizing l with
  | nil =>
    cases hrun
    exact ⟨h, by simp⟩
  | cons e es ih =>
    obtain ⟨l₁, hl₁, hrest⟩ := run_cons_eq_some.mp hrun
    obtain ⟨h₁, hiff₁⟩ := step_inv h hl₁
    obtain ⟨h', hiff⟩ := ih h₁ hrest
    exact ⟨h', by rw [hiff, hiff₁, List.forall_mem_cons, and_assoc]⟩

/-- When `send_inl` holds no request, nothing is missing if and only if nothing has been refused. -/
theorem Inv.accepted_eq_iff (h : l.Inv) (hreturned : ∀ addr, l.state.loop ≠ .handOver addr) :
    l.state.accepted = l.submitted ++ l.state.writeCircularbuf.content ↔ l.refused = [] := by
  have hhand : l.state.inHand = [] := by
    rw [SendState.inHand]
    split
    case h_1 addr hloop => exact absurd hloop (hreturned addr)
    case h_2 => rfl
  have hledger := h.path.ledger
  rw [hhand, List.append_nil] at hledger
  rw [← hledger]
  constructor
  · intro heq
    have hlen := congrArg List.length heq
    rw [List.length_append, List.length_append, ← h.length_eq] at hlen
    exact List.length_eq_zero_iff.mp (by omega)
  · intro hnil
    rw [h.passed_eq hnil]

end WriteLedger

/-- **When no accepted byte is lost.** In every run of the client's send path, at every moment at which
`send_inl` is not between its `read` and its `uv_write`: the bytes accepted by `Send` are those of the
writes that libuv has accepted and then those still queued, if and only if no `uv_write` of the run was
refused. -/
theorem accepted_queued_or_submitted_iff (pBuf : Mem UInt8) (heap : ℕ → WriteParam)
    (es : List SendEvent) (l : WriteLedger) (hrun : run WriteLedger.step (.initial pBuf heap) es = some l)
    (hreturned : ∀ addr, l.state.loop ≠ .handOver addr) :
    l.state.accepted = l.submitted ++ l.state.writeCircularbuf.content ↔
      ∀ iret, .uvWrite iret ∈ es → iret = 0 := by
  obtain ⟨hinv, hrefused⟩ := WriteLedger.run_inv (WriteLedger.inv_initial pBuf heap) hrun
  rw [hinv.accepted_eq_iff hreturned, hrefused]
  constructor
  · rintro ⟨-, haccepts⟩ iret hiret
    exact haccepts _ hiret
  · intro hzero
    refine ⟨rfl, fun e he => ?_⟩
    cases e with
    | uvWrite iret => exact hzero iret he
    | send | sendCheck | sendWrite | close | asyncCB | afterRecv | afterSend | drainRead => trivial

/-- One byte is sent, and `uv_write` takes it. -/
theorem accepted_queued_or_submitted_iff_one :
    ∃ l, run WriteLedger.step (.initial (fun _ => 0) fun _ => allocWriteParam fun _ => 0)
        [.send [7], .sendCheck 0, .sendWrite 0, .asyncCB, .drainRead 5 fun _ => 0, .uvWrite 0] = some l ∧
      (l.state.accepted = l.submitted ++ l.state.writeCircularbuf.content ↔
        ∀ iret, .uvWrite iret ∈ ([.send [7], .sendCheck 0, .sendWrite 0, .asyncCB,
          .drainRead 5 fun _ => 0, .uvWrite 0] : List SendEvent) → iret = 0) := by
  refine exists_last_of_map (fun l => l.state.loop) (b := .drain) (by decide +kernel) fun l hl hloop => ?_
  exact accepted_queued_or_submitted_iff _ _ _ l hl (by simp [hloop])

/-- One byte is sent while the handle is closed: `uv_write` fails, `send_inl` finds nothing more to send
and returns. -/
theorem not_accepted_queued_or_submitted :
    ∃ l, run WriteLedger.step (.initial (fun _ => 0) fun _ => allocWriteParam fun _ => 0)
        [.send [7], .sendCheck 0, .sendWrite 0, .asyncCB, .drainRead 5 fun _ => 0, .uvWrite (-4081),
          .drainRead 6 fun _ => 0] = some l ∧
      l.state.loop = .idle ∧ l.state.accepted ≠ l.submitted ++ l.state.writeCircularbuf.content := by
  refine exists_last_of_map (fun l => l.state.loop) (b := .idle) (by decide +kernel) fun l hl hloop => ?_
  obtain ⟨hinv, hrefused⟩ := WriteLedger.run_inv (WriteLedger.inv_initial _ _) hl
  refine ⟨hloop, fun heq => ?_⟩
  have hnil := (hinv.accepted_eq_iff (by simp [hloop])).mp heq
  have haccepts := (hrefused.mp hnil).2 (.uvWrite (-4081)) (by simp)
  exact absurd haccepts (by simp [WriteLedger.Accepts])

end MyUvpp
