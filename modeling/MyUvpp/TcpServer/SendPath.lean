import MyUvpp.TcpServer.ConnectionPool
import MyUvpp.Uv.WriteParam

/-! # Sending to clients (`tcpserver.cpp`)

`sendinl` copies a message into a write request and passes it to `uv_write`; `broadcast` does so for
every client that is not excluded, and `AfterSend` recycles the request. All of them run on the loop
thread. What `uv_write` returns, and what `malloc` returns where a request is allocated, is part of the
event. -/

namespace MyUvpp

/-- The fields of `TCPServer` that sending uses, and the write requests. -/
structure ServerSendState where
  writeparamList : List ℕ
  /-- The `write_param` at each address. -/
  heap : ℕ → WriteParam
  /-- `writep` of `sendinl`, `none` outside. -/
  writep : Option ℕ
  /-- The requests whose `AfterSend` is still to come, each with the address of its client's context. -/
  inFlight : List (ℕ × ℕ)
  log : RequestLog

/-- What a call of `sendinl` receives: the address and the contents of memory that it allocates, and
the result of `uv_write`. -/
structure SendResult where
  addr : ℕ
  base : Mem UInt8
  iret : ℤ

/-- What may happen next on the send path of a server, in one step each. -/
inductive ServerSendEvent where
  /-- `GetPacket` sends the answer to a packet of the client with the context at `client`. -/
  | sendinl (senddata : List UInt8) (client : ℕ) (r : SendResult)
  /-- `broadcast`, with `clients_list_` as it is then, and what the call of `sendinl` for each client
  receives. -/
  | broadcast (clientsList : List AcceptClient) (senddata : List UInt8) (excludeid : List ℤ)
    (r : ℕ → SendResult)
  /-- `AfterSend`; the status is only printed. -/
  | afterSend (addr : ℕ) (status : ℤ)

/-- The message that is sent by an event, empty where it sends none. -/
def ServerSendEvent.message : ServerSendEvent → List UInt8
  | .sendinl senddata .. => senddata
  | .broadcast _ senddata .. => senddata
  | .afterSend .. => []

namespace ServerSendState

/-- A new server, which has no write parameters yet. -/
def initial (heap : ℕ → WriteParam) : ServerSendState := ⟨[], heap, none, [], .new⟩

variable (s : ServerSendState)

/-- Who has which request: the one in the hand of `sendinl`, the free ones, and those in flight. -/
def pool : RequestPool ℕ := ⟨s.writep, s.writeparamList, s.inFlight.map Prod.fst⟩

/-- Add calls to the log, by which the ownership of the requests is told. -/
def call (calls : List (RequestCall ℕ)) : ServerSendState :=
  { s with log := { s.log with calls := s.log.calls ++ calls } }

/-- Take a request from the list or, if that is empty, allocate one; `malloc` does not return the
address of one that exists. -/
def takeParam (r : SendResult) : Option (ℕ × ServerSendState) :=
  match s.writeparamList with
  | [] =>
    if r.addr ∈ s.pool.owned then none
    else some (r.addr, { s with
      writep := some r.addr
      heap := Function.update s.heap r.addr (allocWriteParam r.base)
      log := { s.log with
        calls := s.log.calls ++ [⟨.alloc, r.addr⟩]
        sizes := Function.update s.log.sizes r.addr bufferSize } })
  | a :: as => some (a, { s with writep := some a, writeparamList := as }.call [⟨.take, a⟩])

/-- Let the buffer of a request grow if the message is longer, and copy the message into it. -/
def fillParam (addr : ℕ) (senddata : List UInt8) : ServerSendState :=
  let w := s.heap addr
  let length : ℤ := senddata.length
  let (truelen, sizes) :=
    if sizeT w.truelen < length then (int32 length, Function.update s.log.sizes addr length)
    else (w.truelen, s.log.sizes)
  { s with
    heap := Function.update s.heap addr ⟨w.base.write 0 senddata, length, truelen⟩
    log := { s.log with sizes, copies := s.log.copies ++ [⟨sizes addr, 0, length⟩] } }

/-- `uv_write` for a client, and whether it has succeeded; a request that is refused is recycled. -/
def uvWrite (addr client : ℕ) (iret : ℤ) : Bool × ServerSendState :=
  let s := { s with writep := none }
  if iret ≠ 0 then
    (false, { s with writeparamList := s.writeparamList ++ [addr] }.call
      [⟨.reject, addr⟩, ⟨.recycle, addr⟩])
  else (true, { s with inFlight := s.inFlight ++ [(addr, client)] }.call [⟨.submit, addr⟩])

/-- `TCPServer::sendinl`: a parameter is taken from the pool or allocated, filled and passed to `uv_write`.
-/
def sendinl (senddata : List UInt8) (client : ℕ) (r : SendResult) : Option (Bool × ServerSendState) :=
  if senddata.length = 0 then some (true, s)
  else (s.takeParam r).map fun (addr, s) => (s.fillParam addr senddata).uvWrite addr client r.iret

/-- The loop of `broadcast` without exclusions: `sendinl` for each client, whatever the one before returned.
-/
def broadcastAll (senddata : List UInt8) (r : ℕ → SendResult) :
    List AcceptClient → ServerSendState → Option ServerSendState
  | [], s => some s
  | c :: cs, s =>
    (s.sendinl senddata c.clientHandle (r c.clientId)).bind fun (_, s) =>
      broadcastAll senddata r cs s

/-- The loop of `broadcast` with exclusions; an id that has been found is removed from them. -/
def broadcastExcept (senddata : List UInt8) (r : ℕ → SendResult) :
    List AcceptClient → List ℤ → ServerSendState → Option ServerSendState
  | [], _, s => some s
  | c :: cs, excludeid, s =>
    if (c.clientId : ℤ) ∈ excludeid then
      broadcastExcept senddata r cs (excludeid.erase c.clientId) s
    else
      (s.sendinl senddata c.clientHandle (r c.clientId)).bind fun (_, s) =>
        broadcastExcept senddata r cs excludeid s

/-- `TCPServer::broadcast`, which always returns true: nothing for an empty message, else one of two loops.
-/
def broadcast (clientsList : List AcceptClient) (senddata : List UInt8) (excludeid : List ℤ)
    (r : ℕ → SendResult) : Option ServerSendState :=
  if senddata.length = 0 then some s
  else if excludeid.length = 0 then broadcastAll senddata r clientsList s
  else broadcastExcept senddata r clientsList excludeid s

/-- `AfterSend`: the parameter goes back to the pool, or is freed where the pool is full. -/
def afterSend (addr : ℕ) : ServerSendState :=
  let inFlight := s.inFlight.filter (·.1 ≠ addr)
  if s.writeparamList.length > maxHandleListSize then
    { s with inFlight }.call [⟨.complete, addr⟩, ⟨.free, addr⟩]
  else
    { s with inFlight, writeparamList := s.writeparamList ++ [addr] }.call
      [⟨.complete, addr⟩, ⟨.recycle, addr⟩]

/-- One callback of the event loop, or a part of one; there is none where the event cannot occur. -/
def step (s : ServerSendState) : ServerSendEvent → Option ServerSendState
  | .sendinl senddata client r => (s.sendinl senddata client r).map Prod.snd
  | .broadcast clientsList senddata excludeid r => s.broadcast clientsList senddata excludeid r
  | .afterSend addr _ => if addr ∈ s.inFlight.map Prod.fst then some (s.afterSend addr) else none

/-- The requests are in order, and none says that its memory has a negative size. -/
structure Inv (s : ServerSendState) : Prop where
  requests : RequestsInOrder maxHandleListSize s.pool s.heap s.log
  truelen_nonneg : ∀ a ∈ s.pool.owned, 0 ≤ (s.heap a).truelen

/-- A server that has sent nothing has an empty pool and nothing in flight. -/
theorem inv_initial (heap : ℕ → WriteParam) : (initial heap).Inv :=
  ⟨.new maxHandleListSize heap, fun _ ha => absurd ha List.not_mem_nil⟩

variable {s} {s' : ServerSendState} {addr : ℕ}

/-! ### The parts of `sendinl` -/

/-- Storing a parameter with a nonnegative length keeps the length of any parameter nonnegative. -/
theorem truelen_update_nonneg {heap : ℕ → WriteParam} {a b : ℕ} {w : WriteParam}
    (hw : 0 ≤ w.truelen) (h : b ≠ a → 0 ≤ (heap b).truelen) :
    0 ≤ (Function.update heap a w b).truelen := by
  by_cases hne : b = a
  · rwa [hne, Function.update_self]
  · rw [Function.update_of_ne hne]
    exact h hne

/-- After the first part of `sendinl`, the request is there to be filled. -/
theorem takeParam_spec (h : s.Inv) (hwritep : s.writep = none) {r : SendResult}
    (htake : s.takeParam r = some (addr, s')) : s'.Inv ∧ s'.writep = some addr := by
  rw [takeParam] at htake
  split at htake
  case h_1 hlist =>
    -- a new request, of the default size
    obtain ⟨hnew, heq⟩ := Option.ite_none_left_eq_some.mp htake
    cases heq
    refine ⟨⟨h.requests.alloc hwritep hnew hlist (allocWriteParam r.base), fun b hb => ?_⟩, rfl⟩
    exact truelen_update_nonneg (w := allocWriteParam r.base) (by decide : 0 ≤ bufferSize) fun hne =>
      h.truelen_nonneg b (RequestPool.mem_owned_alloc hne hb)
  case h_2 a as hlist =>
    -- a finished request, with the memory it has
    cases htake
    have hmem : ∀ b ∈ (s.pool.take addr as).owned, b ∈ s.pool.owned := fun b hb =>
      RequestPool.mem_owned_take hwritep hlist hb
    refine ⟨⟨h.requests.moved (h.requests.pool.take hwritep hlist)
      (RequestPool.run_take hwritep hlist) hmem, fun b hb => h.truelen_nonneg b (hmem b hb)⟩, rfl⟩

/-- The message fits into the memory of the request. -/
theorem fillParam_inv (h : s.Inv) (hwritep : s.writep = some addr) {senddata : List UInt8}
    (hshort : senddata.length < 2 ^ 31) : (s.fillParam addr senddata).Inv := by
  have ha : addr ∈ s.pool.owned := RequestPool.mem_owned.mpr (.inl hwritep)
  have hnonneg := h.truelen_nonneg addr ha
  have hint : int32 (senddata.length : ℤ) = senddata.length := by
    rw [int32, Int.bmod_eq_of_le (by omega) (by omega)]
  rw [fillParam]
  by_cases hgrow : sizeT (s.heap addr).truelen < senddata.length
  · -- the new size is that of the message
    simp only [if_pos hgrow]
    have hfill := h.requests.refill addr
      ⟨(s.heap addr).base.write 0 senddata, senddata.length, int32 senddata.length⟩
    refine ⟨?_, fun b hb => ?_⟩
    · rw [hint] at hfill ⊢
      refine RequestsInOrder.copy hfill ?_
      intro c hc
      rw [List.mem_singleton.mp hc, Function.update_self]
      exact ⟨Int.natCast_nonneg _, le_refl 0, by rw [zero_add]⟩
    · rw [hint]
      exact truelen_update_nonneg (Int.natCast_nonneg _) fun _ => h.truelen_nonneg b hb
  · -- a size is never negative, so that the comparison of unsigned numbers is that of the sizes
    simp only [if_neg hgrow]
    have hle : (senddata.length : ℤ) ≤ (s.heap addr).truelen := by
      rw [sizeT] at hgrow
      omega
    refine ⟨?_, fun b hb => ?_⟩
    · refine RequestsInOrder.copy (RequestsInOrder.refill_same h.requests ha ?_) ?_
      · rfl
      · intro c hc
        rw [List.mem_singleton.mp hc, h.requests.sizes addr ha]
        exact ⟨Int.natCast_nonneg _, le_refl 0, by rw [zero_add]; exact hle⟩
    · exact truelen_update_nonneg hnonneg fun _ => h.truelen_nonneg b hb

/-- Filling a parameter takes none from the pool. -/
theorem fillParam_writep (addr : ℕ) (senddata : List UInt8) :
    (s.fillParam addr senddata).writep = s.writep := rfl

/-- The request is in flight, or back in the list. -/
theorem uvWrite_inv (h : s.Inv) (hwritep : s.writep = some addr) (client : ℕ) (iret : ℤ) :
    (s.uvWrite addr client iret).2.Inv ∧ (s.uvWrite addr client iret).2.writep = none := by
  rw [uvWrite]
  by_cases hiret : iret ≠ 0
  · rw [if_pos hiret]
    have hmem : ∀ b ∈ (s.pool.reject addr).owned, b ∈ s.pool.owned := fun b hb =>
      RequestPool.mem_owned_reject hwritep hb
    exact ⟨⟨h.requests.moved (h.requests.pool.reject hwritep) (RequestPool.run_reject hwritep) hmem,
      fun b hb => h.truelen_nonneg b (hmem b hb)⟩, rfl⟩
  · rw [if_neg hiret]
    -- the pool does not know for which client the request is
    have hpool : pool { s with writep := none, inFlight := s.inFlight ++ [(addr, client)] } =
        s.pool.submit addr := by
      rw [RequestPool.submit, pool, pool]
      exact congrArg (RequestPool.mk none s.writeparamList) List.map_append
    have hmem : ∀ b ∈ (s.pool.submit addr).owned, b ∈ s.pool.owned := fun b hb =>
      RequestPool.mem_owned_submit hwritep hb
    have hsubmit := h.requests.moved (h.requests.pool.submit hwritep)
      (RequestPool.run_submit h.requests.nodup hwritep) hmem
    rw [← hpool] at hsubmit hmem
    exact ⟨⟨hsubmit, fun b hb => h.truelen_nonneg b (hmem b hb)⟩, rfl⟩

/-! ### Calls -/

/-- A call of `sendinl` keeps the invariant, whatever it returns. -/
theorem sendinl_inv (h : s.Inv) (hwritep : s.writep = none) {senddata : List UInt8}
    (hshort : senddata.length < 2 ^ 31) {client : ℕ} {r : SendResult} {b : Bool}
    (hsend : s.sendinl senddata client r = some (b, s')) : s'.Inv ∧ s'.writep = none := by
  rw [sendinl] at hsend
  split at hsend
  case isTrue =>
    cases hsend
    exact ⟨h, hwritep⟩
  case isFalse =>
    obtain ⟨⟨addr, s₁⟩, htake, heq⟩ := Option.map_eq_some_iff.mp hsend
    obtain ⟨h₁, hwritep₁⟩ := takeParam_spec h hwritep htake
    have hwrite := uvWrite_inv (fillParam_inv h₁ hwritep₁ hshort)
      ((fillParam_writep addr senddata).trans hwritep₁) client r.iret
    dsimp only at heq
    rwa [heq] at hwrite

/-- What a call of `sendinl` keeps, the loop of `broadcast` keeps. -/
theorem broadcastAll_invariant {I : ServerSendState → Prop} {senddata : List UInt8}
    {r : ℕ → SendResult}
    (hsend : ∀ s s' client b r, I s → s.sendinl senddata client r = some (b, s') → I s')
    {clientsList : List AcceptClient} (h : I s)
    (hloop : broadcastAll senddata r clientsList s = some s') : I s' := by
  -- on the clients that are left
  induction clientsList generalizing s with
  | nil =>
    cases hloop
    exact h
  | cons c cs ih =>
    obtain ⟨⟨b, s₁⟩, hs₁, hrest⟩ := Option.bind_eq_some_iff.mp hloop
    exact ih (hsend s s₁ _ b _ h hs₁) hrest

/-- What one `sendinl` keeps, a whole broadcast keeps. -/
theorem broadcastExcept_invariant {I : ServerSendState → Prop} {senddata : List UInt8}
    {r : ℕ → SendResult}
    (hsend : ∀ s s' client b r, I s → s.sendinl senddata client r = some (b, s') → I s')
    {clientsList : List AcceptClient} {excludeid : List ℤ} (h : I s)
    (hloop : broadcastExcept senddata r clientsList excludeid s = some s') : I s' := by
  induction clientsList generalizing s excludeid with
  | nil =>
    cases hloop
    exact h
  | cons c cs ih =>
    rw [broadcastExcept] at hloop
    split at hloop
    -- an excluded client is passed over
    case isTrue => exact ih h hloop
    case isFalse =>
      obtain ⟨⟨b, s₁⟩, hs₁, hrest⟩ := Option.bind_eq_some_iff.mp hloop
      exact ih (hsend s s₁ _ b _ h hs₁) hrest

/-! ### Completions -/

/-- A write callback gives its parameter back to the pool, or frees it when the pool is full. -/
theorem afterSend_pool (addr : ℕ) :
    (s.afterSend addr).pool = s.pool.complete maxHandleListSize addr := by
  have hkept := RequestPool.map_fst_filter_ne s.inFlight addr
  rw [afterSend, RequestPool.complete]
  split
  case isTrue hroom =>
    rw [if_pos (show s.pool.listed.length > maxHandleListSize from hroom)]
    exact congrArg (RequestPool.mk s.writep s.writeparamList) hkept
  case isFalse hroom =>
    rw [if_neg (show ¬ s.pool.listed.length > maxHandleListSize from hroom)]
    exact congrArg (RequestPool.mk s.writep (s.writeparamList ++ [addr])) hkept

/-- Apart from the pool, `AfterSend` changes the log. -/
theorem afterSend_rest (addr : ℕ) :
    (s.afterSend addr).heap = s.heap ∧ (s.afterSend addr).writep = s.writep ∧
      (s.afterSend addr).log = { s.log with calls := s.log.calls ++ [⟨.complete, addr⟩,
        ⟨if s.pool.listed.length > maxHandleListSize then .free else .recycle, addr⟩] } := by
  rw [afterSend]
  split
  case isTrue hroom =>
    rw [if_pos (show s.pool.listed.length > maxHandleListSize from hroom)]
    exact ⟨rfl, rfl, rfl⟩
  case isFalse hroom =>
    rw [if_neg (show ¬ s.pool.listed.length > maxHandleListSize from hroom)]
    exact ⟨rfl, rfl, rfl⟩

/-- `AfterSend` recycles or frees the request. -/
theorem afterSend_inv (h : s.Inv) (hwritep : s.writep = none)
    (haddr : addr ∈ s.inFlight.map Prod.fst) :
    (s.afterSend addr).Inv ∧ (s.afterSend addr).writep = none := by
  obtain ⟨hheap, hkept, hlog⟩ := afterSend_rest (s := s) addr
  have hmem : ∀ b ∈ (s.pool.complete maxHandleListSize addr).owned, b ∈ s.pool.owned := fun b hb =>
    RequestPool.mem_owned_complete haddr hb
  refine ⟨⟨?_, fun b hb => ?_⟩, hkept.trans hwritep⟩
  · rw [afterSend_pool, hheap, hlog]
    exact h.requests.moved (h.requests.pool.complete hwritep haddr)
      (RequestPool.run_complete h.requests.nodup hwritep haddr) hmem
  · rw [afterSend_pool] at hb
    rw [hheap]
    exact h.truelen_nonneg b (hmem b hb)

/-- Every event keeps the invariant, if its message is shorter than 2^31 bytes. -/
theorem step_inv {e : ServerSendEvent} (h : s.Inv ∧ s.writep = none)
    (hshort : e.message.length < 2 ^ 31) (hstep : s.step e = some s') :
    s'.Inv ∧ s'.writep = none := by
  cases e with
  | sendinl senddata client r =>
    obtain ⟨⟨b, s₁⟩, hsend, rfl⟩ := Option.map_eq_some_iff.mp hstep
    exact sendinl_inv h.1 h.2 hshort hsend
  | broadcast clientsList senddata excludeid r =>
    have hsend : ∀ (s s' : ServerSendState) client b r, s.Inv ∧ s.writep = none →
        s.sendinl senddata client r = some (b, s') → s'.Inv ∧ s'.writep = none :=
      fun s s' client b r h hsend => sendinl_inv h.1 h.2 hshort hsend
    rw [step, broadcast] at hstep
    split at hstep
    case isTrue =>
      cases hstep
      exact h
    case isFalse =>
      split at hstep
      case isTrue => exact broadcastAll_invariant hsend h hstep
      case isFalse => exact broadcastExcept_invariant hsend h hstep
  | afterSend addr status =>
    obtain ⟨hflight, heq⟩ := Option.ite_none_right_eq_some.mp hstep
    cases heq
    exact afterSend_inv h.1 h.2 hflight

/-- Every run with such messages keeps the invariant. -/
theorem run_inv {es : List ServerSendEvent} (h : s.Inv) (hwritep : s.writep = none)
    (hshort : ∀ e ∈ es, e.message.length < 2 ^ 31) (hrun : run step s es = some s') :
    s'.Inv ∧ s'.writep = none := by
  have halong : Along step (fun _ e => e.message.length < 2 ^ 31) s es := Along.of_forall hshort
  have hstep : ∀ (t : ServerSendState) e t', t.Inv ∧ t.writep = none →
      e.message.length < 2 ^ 31 → t.step e = some t' → t'.Inv ∧ t'.writep = none :=
    fun t e t' ht he hs => step_inv ht he hs
  exact run_invariant_along (I := fun t => t.Inv ∧ t.writep = none) hstep ⟨h, hwritep⟩ halong hrun

end ServerSendState

end MyUvpp
