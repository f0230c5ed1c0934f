import MyUvpp.TcpClient.SendPath

/-! # Every accepted byte is passed on once

What has been passed to `uv_write`, what `send_inl` has just read out, and what the circular buffer
holds make up the accepted bytes, in their order. A request is either free for reuse, being filled or
in flight, so that nothing writes to a buffer that libuv is still sending. -/

namespace MyUvpp

namespace SendState

/-- The bytes that `send_inl` has read out and not yet passed to `uv_write`. -/
def inHand (s : SendState) : List UInt8 :=
  match s.loop with
  | .handOver addr => (s.heap addr).bytes
  | _ => []

/-- The invariant of the send path. -/
structure Inv (s : SendState) : Prop where
  buf : s.writeCircularbuf.Inv
  cap : s.writeCircularbuf.nBufSize = bufferSize
  /-- Passed, read out and buffered bytes are the accepted ones. -/
  ledger : s.passed ++ s.inHand ++ s.writeCircularbuf.content = s.accepted
  /-- No request has two owners. -/
  owned : s.owned.Nodup
  /-- A request in flight is as it was passed to `uv_write`. -/
  intact : ∀ p ∈ s.inFlight, s.heap p.1 = p.2
  /-- A call has not accepted more than its buffer. -/
  iret_le : ∀ c ∈ s.sends, c.iret ≤ c.data.length

/-- At first nothing has been accepted and nothing passed on. -/
theorem inv_initial (pBuf : Mem UInt8) (heap : ℕ → WriteParam) : (initial pBuf heap).Inv := by
  obtain ⟨hbuf, hcontent⟩ :=
    PodCircularBuffer.new_spec (show 1 ≤ bufferSize by decide) pBuf
  refine ⟨hbuf, rfl, ?_, List.nodup_nil, fun p hp => absurd hp List.not_mem_nil,
    fun c hc => absurd hc List.not_mem_nil⟩
  show [] ++ [] ++ (PodCircularBuffer.new bufferSize pBuf).content = []
  rw [hcontent]
  rfl

variable {s : SendState}

/-! ### The critical section of `Send` -/

/-- A call of `write` is not asked for more than is left of the buffer. -/
theorem count_le {c : SendCall} (hc : c.iret ≤ c.data.length) :
    c.count ≤ (c.data.drop c.iret).length := by
  rw [List.length_drop, SendCall.count, int32]
  have h := Int.bmod_le (x := (c.data.length : ℤ) - c.iret) (m := 2 ^ 32) (by decide)
  rcases lt_or_ge ((c.data.length : ℤ) - c.iret) (2 ^ 31) with hlt | hge
  · rw [Int.bmod_eq_of_le (by omega) (by omega)]
    omega
  · omega

/-- The critical section of `Send` appends to the accepted bytes the next ones of its buffer, and
counts them. -/
theorem sendWrite_spec (h : s.Inv) {i : ℕ} {c : SendCall} (hc : c ∈ s.sends) :
    ∃ n : ℕ, c.iret + n ≤ c.data.length ∧
      (s.sendWrite i c).writeCircularbuf.Inv ∧
      (s.sendWrite i c).writeCircularbuf.nBufSize = s.writeCircularbuf.nBufSize ∧
      (s.sendWrite i c).writeCircularbuf.content =
        s.writeCircularbuf.content ++ (c.data.drop c.iret).take n ∧
      (s.sendWrite i c).accepted = s.accepted ++ (c.data.drop c.iret).take n ∧
      (n : ℤ) = min (max c.count 0) (s.writeCircularbuf.nBufSize - s.writeCircularbuf.size) ∧
      (s.sendWrite i c).sends = s.sends.set i ⟨c.data, c.iret + n,
        if c.iret + n < c.data.length then .check else .returned⟩ ∧
      (s.sendWrite i c).completed =
        if c.iret + n < c.data.length then s.completed else s.completed ++ [i] := by
  have hle := h.iret_le c hc
  have hcount := count_le hle
  have hspec := PodCircularBuffer.write_spec h.buf hcount
  have heq := hspec.count_eq
  have hs := PodCircularBuffer.size_le h.buf
  have hlen := List.length_drop (i := c.iret) (l := c.data)
  refine ⟨(s.writeCircularbuf.write (c.data.drop c.iret) c.count).2.1.toNat, by omega, hspec.inv,
    hspec.bufSize_eq, hspec.content_eq, rfl, by omega, rfl, rfl⟩

/-- A call of `Send` that writes appends to what has been accepted. -/
theorem inv_sendWrite (h : s.Inv) {i : ℕ} {c : SendCall} (hc : c ∈ s.sends) :
    (s.sendWrite i c).Inv := by
  obtain ⟨n, hle, hbuf, hcap, hcontent, haccepted, -, hsends, -⟩ := sendWrite_spec (i := i) h hc
  refine ⟨hbuf, hcap.trans h.cap, ?_, h.owned, h.intact, fun d hd => ?_⟩
  · rw [hcontent, haccepted, ← h.ledger]
    show s.passed ++ s.inHand ++ _ = _
    simp only [List.append_assoc]
  · rw [hsends] at hd
    rcases List.mem_or_eq_of_mem_set hd with hd | rfl
    · exact h.iret_le d hd
    · exact hle

/-! ### Requests change hands -/

/-- A finished request leaves the ones in flight and may join the free ones. -/
theorem inv_afterSend (h : s.Inv) {addr : ℕ} (status : ℤ) (hidle : s.loop = .idle)
    (haddr : addr ∈ s.inFlight.map Prod.fst) : (s.afterSend addr status).Inv := by
  have howned : (s.afterSend addr status).owned.Nodup := by
    rw [← pool_owned, afterSend_pool hidle]
    exact RequestPool.nodup_complete (pool_owned ▸ h.owned) (filling_eq_none (.inl hidle)) haddr
  -- the loop thread is not filling a request, before and after
  have hledger := h.ledger
  simp only [inHand, hidle] at hledger
  obtain ⟨loop, hloop, heq⟩ := afterSend_eq hidle addr status
  rw [heq] at howned ⊢
  refine ⟨h.buf, h.cap, ?_, howned, fun p hp => h.intact p (List.mem_filter.mp hp).1, h.iret_le⟩
  rcases hloop with rfl | rfl <;> exact hledger

/-- `send_inl` reads into a request that nobody else has. -/
theorem inv_drainRead (h : s.Inv) {addr : ℕ} (base : Mem UInt8) (hdrain : s.loop = .drain)
    (haddr : addr ∉ s.owned) : (s.drainRead addr base).Inv := by
  have howned : s.pool.owned.Nodup := pool_owned ▸ h.owned
  have htaken : s.pool.taken = none := filling_eq_none (.inr hdrain)
  have hledger := h.ledger
  simp only [inHand, hdrain, List.append_nil] at hledger
  -- the request taken, whichever it is, is not in flight
  have hinv : ∀ (a : ℕ) (w : WriteParam) (as : List ℕ),
      (a :: as ++ s.inFlight.map Prod.fst).Nodup → Inv { s with
        writeCircularbuf := (s.writeCircularbuf.read w.base w.truelen).1
        writeparamList := as
        heap := Function.update s.heap a { w with
          base := (s.writeCircularbuf.read w.base w.truelen).2.1
          len := (s.writeCircularbuf.read w.base w.truelen).2.2.1 }
        loop := .handOver a } := by
    intro a w as hnodup
    have hread := PodCircularBuffer.read_spec h.buf w.base w.truelen
    refine ⟨hread.inv, hread.bufSize_eq.trans h.cap, ?_, hnodup, fun p hp => ?_, h.iret_le⟩
    · simp only [inHand, Function.update_self, WriteParam.bytes]
      rw [hread.data_eq, hread.content_eq, List.append_assoc, List.take_append_drop]
      exact hledger
    · have hne : p.1 ≠ a := by
        rintro rfl
        rw [List.cons_append, List.nodup_cons] at hnodup
        exact hnodup.1 (List.mem_append_right _ (List.mem_map_of_mem hp))
      simp only [Function.update_of_ne hne]
      exact h.intact p hp
  simp only [drainRead]
  cases hlist : s.writeparamList with
  | nil =>
    have hnodup : (addr :: s.writeparamList ++ s.inFlight.map Prod.fst).Nodup :=
      RequestPool.nodup_alloc howned htaken (pool_owned ▸ haddr)
    exact hinv addr (allocWriteParam base) [] (hlist ▸ hnodup)
  | cons a as => exact hinv a (s.heap a) as (RequestPool.nodup_take howned htaken hlist)

/-- The filled request goes to libuv, or back to the free ones. -/
theorem inv_uvWrite (h : s.Inv) {addr : ℕ} (iret : ℤ) (hhand : s.loop = .handOver addr) :
    (s.uvWrite addr iret).Inv := by
  have howned : s.pool.owned.Nodup := pool_owned ▸ h.owned
  have htaken : s.pool.taken = some addr := filling_eq_some hhand
  have hledger := h.ledger
  simp only [inHand, hhand] at hledger
  simp only [uvWrite]
  split
  case isTrue hfail =>
    refine ⟨h.buf, h.cap, ?_, RequestPool.nodup_reject howned htaken, h.intact, h.iret_le⟩
    show s.passed ++ (s.heap addr).bytes ++ [] ++ _ = _
    rw [List.append_nil]
    exact hledger
  case isFalse hok =>
    refine ⟨h.buf, h.cap, ?_, ?_, fun p hp => ?_, h.iret_le⟩
    · show s.passed ++ (s.heap addr).bytes ++ [] ++ _ = _
      rw [List.append_nil]
      exact hledger
    · show (s.writeparamList ++ (s.inFlight ++ [(addr, s.heap addr)]).map Prod.fst).Nodup
      rw [List.map_append]
      exact RequestPool.nodup_submit howned htaken
    · rcases List.mem_append.mp hp with hp | hp
      · exact h.intact p hp
      · rw [List.mem_singleton] at hp
        rw [hp]

/-! ### Steps and runs -/

/-- A change of the calls of `Send` alone keeps the invariant. -/
theorem Inv.update_sends (h : s.Inv) {sends : List SendCall}
    (hle : ∀ c ∈ sends, c ∈ s.sends ∨ c.iret ≤ c.data.length) : Inv { s with sends } :=
  ⟨h.buf, h.cap, h.ledger, h.owned, h.intact, fun c hc => (hle c hc).elim (h.iret_le c) id⟩

/-- The flag has no part in the invariant. -/
theorem Inv.setFlag (h : s.Inv) (isuseraskforclosed : Bool) : Inv { s with isuseraskforclosed } :=
  ⟨h.buf, h.cap, h.ledger, h.owned, h.intact, h.iret_le⟩

/-- A change of the place of the loop thread keeps the invariant, as long as no request is being
filled. -/
theorem Inv.move (h : s.Inv) {loop : LoopPc} (hfrom : s.loop = .idle ∨ s.loop = .drain)
    (hto : loop = .idle ∨ loop = .drain) : Inv { s with loop } := by
  have hledger := h.ledger
  refine ⟨h.buf, h.cap, ?_, ?_, h.intact, h.iret_le⟩
  · rcases hfrom with hf | hf <;> rcases hto with rfl | rfl <;>
      simpa only [inHand, hf] using hledger
  · rw [← pool_owned, move_pool hfrom hto, pool_owned]
    exact h.owned

/-- Every step keeps the invariant. -/
theorem step_inv {e : SendEvent} {s' : SendState} (h : s.Inv) (hstep : s.step e = some s') :
    s'.Inv := by
  cases e with
  | send data =>
    cases hstep
    refine h.update_sends fun c hc => (List.mem_append.mp hc).imp_right fun hc => ?_
    rw [List.mem_singleton.mp hc]
    exact Nat.zero_le _
  | sendCheck i =>
    obtain ⟨c, hc, -, rfl⟩ := step_sendCheck hstep
    refine h.update_sends fun d hd => (List.mem_or_eq_of_mem_set hd).imp_right fun hd => ?_
    rw [hd]
    exact h.iret_le c (List.mem_of_getElem? hc)
  | sendWrite i =>
    obtain ⟨c, hc, -, rfl⟩ := step_sendWrite hstep
    exact inv_sendWrite h (List.mem_of_getElem? hc)
  | close =>
    cases hstep
    exact ⟨h.buf, h.cap, h.ledger, h.owned, h.intact, h.iret_le⟩
  | asyncCB =>
    obtain ⟨hidle, heq⟩ := Option.ite_none_right_eq_some.mp hstep
    cases heq
    split
    case isTrue => exact h
    case isFalse => exact h.move (.inl hidle) (.inr rfl)
  | afterRecv =>
    obtain ⟨hidle, heq⟩ := Option.ite_none_right_eq_some.mp hstep
    cases heq
    exact h.move (.inl hidle) (.inr rfl)
  | afterSend addr status =>
    obtain ⟨⟨hidle, hflight⟩, heq⟩ := Option.ite_none_right_eq_some.mp hstep
    cases heq
    exact inv_afterSend h status hidle hflight
  | drainRead addr base =>
    obtain ⟨⟨hdrain, hfresh⟩, heq⟩ := Option.ite_none_right_eq_some.mp hstep
    cases heq
    split
    case isTrue => exact h.move (.inr hdrain) (.inl rfl)
    case isFalse => exact inv_drainRead h base hdrain hfresh
  | uvWrite iret =>
    obtain ⟨addr, hhand, rfl⟩ := step_uvWrite hstep
    exact inv_uvWrite h iret hhand

end SendState

/-- **Exactly once and in order.** In every state that the threads and the event loop can reach,
whatever `uv_write` returns: the bytes passed to `uv_write`, then those of the request that
`send_inl` has filled and is about to pass, then the content of the circular buffer are the accepted
bytes; outside that moment of `send_inl` there is no such request; and every request in flight is as
it was passed. -/
theorem send_exactly_once (pBuf : Mem UInt8) (heap : ℕ → WriteParam) (es : List SendEvent)
    (s : SendState) (hrun : run SendState.step (.initial pBuf heap) es = some s) :
    ((∀ addr, s.loop ≠ .handOver addr) →
        s.passed ++ s.writeCircularbuf.content = s.accepted) ∧
      (∀ addr, s.loop = .handOver addr →
        s.passed ++ (s.heap addr).bytes ++ s.writeCircularbuf.content = s.accepted) ∧
      ∀ p ∈ s.inFlight, s.heap p.1 = p.2 := by
  have hinv := run_invariant (fun _ _ _ h hs => SendState.step_inv h hs)
    (SendState.inv_initial pBuf heap) hrun
  have hledger := hinv.ledger
  refine ⟨fun hnot => ?_, fun addr hhand => ?_, hinv.intact⟩
  · cases hloop : s.loop with
    | handOver addr => exact absurd hloop (hnot addr)
    | idle => simpa only [SendState.inHand, hloop, List.append_nil] using hledger
    | drain => simpa only [SendState.inHand, hloop, List.append_nil] using hledger
  · simpa only [SendState.inHand, hhand] using hledger

/-- Two calls of `Send`; the second writes while the bytes of the first are on their way to
`uv_write`. -/
theorem send_exactly_once_two_calls :
    ∃ s, run SendState.step (.initial (fun _ => 0) fun _ => allocWriteParam fun _ => 0)
        [.send [7, 8], .sendCheck 0, .sendWrite 0, .send [9], .asyncCB,
          .drainRead 5 fun _ => 0, .sendCheck 1, .sendWrite 1, .uvWrite 0] = some s ∧
      ((∀ addr, s.loop ≠ .handOver addr) → s.passed ++ s.writeCircularbuf.content = s.accepted) ∧
      (∀ addr, s.loop = .handOver addr →
        s.passed ++ (s.heap addr).bytes ++ s.writeCircularbuf.content = s.accepted) ∧
      ∀ p ∈ s.inFlight, s.heap p.1 = p.2 := by
  exact exists_last (by decide +kernel) fun s hs => send_exactly_once _ _ _ s hs

end MyUvpp
