import MyUvpp.Foundation.KeyedList
import MyUvpp.Foundation.TransitionSystem
import MyUvpp.TcpServer.PoolInvariant
import MyUvpp.TcpServer.SendPath

/-! # Whom a broadcast reaches (`tcpserver.cpp`)

`broadcast` goes through `clients_list_` in the order of the ids. It looks every id up in the ones that
are excluded and erases one occurrence where it finds the id. The ids of the clients are the keys of a
map, so that an id that has been erased does not come again. -/

namespace MyUvpp

/-- The clients in the order of their ids, as a `std::map` has them. -/
def InKeyOrder (clientsList : List AcceptClient) : Prop :=
  (clientsList.map (·.clientId)).Pairwise (· < ·)

/-- Whether the clients stand in the order of their keys can be looked up pair by pair. -/
instance (clientsList : List AcceptClient) : Decidable (InKeyOrder clientsList) :=
  inferInstanceAs (Decidable (List.Pairwise _ _))

/-- The key under which the exclusions are looked up. -/
def AcceptClient.key (c : AcceptClient) : ℤ := c.clientId

/-- The clients whose id is not excluded. -/
def targets (clientsList : List AcceptClient) (excludeid : List ℤ) : List AcceptClient :=
  clientsList.filter (·.key ∉ excludeid)

/-- A call of `sendinl`, with what it receives. -/
structure SendinlCall where
  senddata : List UInt8
  client : ℕ
  result : SendResult

/-- The call that is made for a client. -/
def sendinlCall (senddata : List UInt8) (r : ℕ → SendResult) (c : AcceptClient) : SendinlCall :=
  ⟨senddata, c.clientHandle, r c.clientId⟩

/-- A list in key order has no key twice. -/
theorem InKeyOrder.nodup {clientsList : List AcceptClient} (h : InKeyOrder clientsList) :
    (clientsList.map AcceptClient.key).Nodup := by
  have hids : (clientsList.map (·.clientId)).Nodup := h.imp fun hlt => hlt.ne
  have hkeys := hids.map (f := fun n : ℕ => (n : ℤ)) fun _ _ heq => Int.natCast_inj.mp heq
  rw [List.map_map] at hkeys
  exact hkeys

namespace TCPServer

variable {host : Host} {s s' : TCPServer}

/-- Clients are added behind the others, under a new id, and removed. -/
theorem step_inKeyOrder (h : s.PoolInv) (horder : InKeyOrder s.clientsList) {e : ServerEvent}
    (hstep : s.step host e = some s') : InKeyOrder s'.clientsList := by
  cases e with
  | acceptConnection status r addr u =>
    obtain ⟨-, rfl⟩ := step_acceptConnection hstep
    rcases acceptConnection_cases s status r addr u with heq | heq | heq | heq | heq <;> rw [heq]
    · exact horder
    · exact horder
    · exact horder
    · exact horder
    · show (List.map _ (s.clientsList ++ _)).Pairwise _
      rw [List.map_append]
      refine List.pairwise_append.mpr ⟨horder, List.pairwise_singleton _ _, fun id hid id' hid' => ?_⟩
      obtain ⟨c, hc, rfl⟩ := List.mem_map.mp hid
      obtain rfl := List.mem_singleton.mp hid'
      exact Nat.lt_succ_of_le (h.ids_le c hc)
  | afterRecv addr nread =>
    obtain ⟨-, ⟨-, c, -, -, rfl⟩ | ⟨-, rfl⟩ | ⟨data, packet, log, -, -, rfl⟩⟩ :=
      h.step_afterRecv hstep
    · rw [closeAcceptClient]
      split <;> exact horder
    · exact horder
    · exact horder
  | tcpClosed addr =>
    obtain ⟨cb, hstate, hlive, rfl⟩ := step_tcpClosed hstep
    have hrecycle : ∀ (t : TCPServer) a, (t.recycle a).clientsList = t.clientsList := by
      intro t a
      rw [recycle]
      split <;> rfl
    by_cases hmem : addr ∈ s.handles
    · obtain ⟨c, hc, rfl⟩ := List.mem_map.mp hmem
      rw [h.tcpClosed_client hc hstate, hrecycle]
      exact horder.sublist (List.filter_sublist.map _)
    · rcases h.tcpClosed_other hmem hstate with heq | ⟨-, heq⟩ <;> rw [heq]
      · exact horder
      · rw [hrecycle]
        exact horder

/-- **The clients of a server are in the order of their ids**, in every run. -/
theorem run_inKeyOrder {packhead packtail : UInt8} {es : List ServerEvent}
    (hrun : run (TCPServer.step host) (new packhead packtail) es = some s) :
    InKeyOrder s.clientsList := by
  have hinv := run_invariant (I := fun t : TCPServer => t.PoolInv ∧ InKeyOrder t.clientsList)
    (fun t e t' h hstep => ⟨h.1.step hstep, step_inKeyOrder h.1 h.2 hstep⟩)
    ⟨poolInv_new packhead packtail, List.Pairwise.nil⟩ hrun
  exact hinv.2

end TCPServer

namespace ServerSendState

variable {s s' : ServerSendState} {senddata : List UInt8} {r : ℕ → SendResult}

/-- One call of `sendinl`, whatever it returns. -/
def callSendinl (s : ServerSendState) (c : SendinlCall) : Option ServerSendState :=
  (s.sendinl c.senddata c.client c.result).map Prod.snd

/-- The loop without exclusions calls `sendinl` for every client. -/
theorem broadcastAll_eq_run (clientsList : List AcceptClient) (s : ServerSendState) :
    broadcastAll senddata r clientsList s =
      run callSendinl s (clientsList.map (sendinlCall senddata r)) := by
  induction clientsList generalizing s with
  | nil => rfl
  | cons c cs ih =>
    rw [broadcastAll, List.map_cons, run, callSendinl, Option.bind_map]
    exact congrArg _ (funext fun p => ih p.2)

/-- The loop with exclusions is the one without them, on the clients that are left. -/
theorem broadcastExcept_eq_broadcastAll (clientsList : List AcceptClient) (excludeid : List ℤ)
    (s : ServerSendState) :
    broadcastExcept senddata r clientsList excludeid s =
      broadcastAll senddata r (crossOut AcceptClient.key clientsList excludeid) s := by
  induction clientsList generalizing excludeid s with
  | nil => rfl
  | cons c cs ih =>
    rw [broadcastExcept, crossOut]
    by_cases hc : c.key ∈ excludeid
    · rw [if_pos (show (c.clientId : ℤ) ∈ excludeid from hc), if_pos hc]
      exact ih _ s
    · rw [if_neg (show (c.clientId : ℤ) ∉ excludeid from hc), if_neg hc, broadcastAll]
      exact congrArg _ (funext fun p => ih _ p.2)

/-- Whether or not there are exclusions, the calls are those for the other clients. -/
theorem broadcast_eq_run {clientsList : List AcceptClient} (hmap : InKeyOrder clientsList)
    (hdata : senddata ≠ []) (excludeid : List ℤ) (s : ServerSendState) :
    s.broadcast clientsList senddata excludeid r =
      run callSendinl s ((targets clientsList excludeid).map (sendinlCall senddata r)) := by
  have hlength : senddata.length ≠ 0 := fun hzero => hdata (List.length_eq_zero_iff.mp hzero)
  rw [broadcast, if_neg hlength]
  split
  case isTrue hnone =>
    -- nothing is excluded
    obtain rfl := List.length_eq_zero_iff.mp hnone
    have hall : targets clientsList [] = clientsList := by
      simp [targets]
    rw [hall, broadcastAll_eq_run]
  case isFalse =>
    rw [broadcastExcept_eq_broadcastAll, crossOut_eq_filter hmap.nodup, broadcastAll_eq_run]
    rfl

/-- A call whose `uv_write` succeeds puts a request for its client in flight, and another one does
not. -/
theorem inFlight_callSendinl {c : SendinlCall} (hdata : c.senddata ≠ [])
    (hcall : s.callSendinl c = some s') :
    s'.inFlight.map Prod.snd =
      s.inFlight.map Prod.snd ++ if c.result.iret = 0 then [c.client] else [] := by
  have hlength : c.senddata.length ≠ 0 := fun hzero => hdata (List.length_eq_zero_iff.mp hzero)
  obtain ⟨⟨b, s₁⟩, hsend, rfl⟩ := Option.map_eq_some_iff.mp hcall
  rw [sendinl, if_neg hlength] at hsend
  obtain ⟨⟨addr, s₂⟩, htake, heq⟩ := Option.map_eq_some_iff.mp hsend
  -- taking and filling a request leaves the ones in flight alone
  have hkept : (s₂.fillParam addr c.senddata).inFlight = s.inFlight := by
    show s₂.inFlight = s.inFlight
    rw [takeParam] at htake
    split at htake
    case h_1 =>
      obtain ⟨-, heq⟩ := Option.ite_none_left_eq_some.mp htake
      cases heq
      rfl
    case h_2 =>
      cases htake
      rfl
  have hwrite : s₁ = ((s₂.fillParam addr c.senddata).uvWrite addr c.client c.result.iret).2 := by
    dsimp only at heq
    rw [heq]
  rw [hwrite, uvWrite, ← hkept]
  by_cases hiret : c.result.iret = 0
  · rw [if_neg (not_not.mpr hiret), if_pos hiret]
    exact List.map_append
  · rw [if_pos hiret, if_neg hiret, List.append_nil]
    rfl

/-- The requests in flight after a sequence of calls. -/
theorem inFlight_run {calls : List SendinlCall} (hdata : ∀ c ∈ calls, c.senddata ≠ [])
    (hrun : run callSendinl s calls = some s') :
    s'.inFlight.map Prod.snd =
      s.inFlight.map Prod.snd ++ (calls.filter (·.result.iret = 0)).map (·.client) := by
  induction calls generalizing s with
  | nil =>
    cases hrun
    exact (List.append_nil _).symm
  | cons c cs ih =>
    obtain ⟨s₁, hcall, hrest⟩ := run_cons_eq_some.mp hrun
    rw [ih (fun c' hc' => hdata c' (List.mem_cons_of_mem c hc')) hrest,
      inFlight_callSendinl (hdata c List.mem_cons_self) hcall, List.append_assoc]
    refine congrArg _ ?_
    by_cases hiret : c.result.iret = 0 <;> simp [hiret]

/-- A server broadcasts in every state of a run to its clients whose id is not excluded. -/
theorem broadcast_eq_run_of_run {host : Host} {packhead packtail : UInt8} {es : List ServerEvent}
    {server : TCPServer} (hrun : run (TCPServer.step host) (.new packhead packtail) es = some server)
    (hdata : senddata ≠ []) (excludeid : List ℤ) (s : ServerSendState) :
    s.broadcast server.clientsList senddata excludeid r =
      run callSendinl s ((targets server.clientsList excludeid).map (sendinlCall senddata r)) :=
  broadcast_eq_run (TCPServer.run_inKeyOrder hrun) hdata excludeid s

end ServerSendState

/-- **Whom a broadcast reaches.** A broadcast of a message that is not empty calls `sendinl` with this
message for the clients whose id is not excluded, once for each of them and in the order of the ids, and
for no other; this does not depend on what the calls return, and those whose `uv_write` succeeds leave
their requests in flight. Without exclusions the two branches agree. -/
theorem broadcast_reaches_targets (s : ServerSendState) {clientsList : List AcceptClient}
    (hmap : InKeyOrder clientsList) {senddata : List UInt8} (hdata : senddata ≠ [])
    (excludeid : List ℤ) (r : ℕ → SendResult) :
    s.broadcast clientsList senddata excludeid r = run ServerSendState.callSendinl s
        ((targets clientsList excludeid).map (sendinlCall senddata r)) ∧
      (∀ c ∈ clientsList, ((targets clientsList excludeid).map AcceptClient.key).count c.key =
        if c.key ∈ excludeid then 0 else 1) ∧
      InKeyOrder (targets clientsList excludeid) ∧
      (∀ s', s.broadcast clientsList senddata excludeid r = some s' →
        s'.inFlight.map Prod.snd = s.inFlight.map Prod.snd ++
          ((targets clientsList excludeid).filter fun c => (r c.clientId).iret = 0).map (·.clientHandle)) ∧
      ServerSendState.broadcastExcept senddata r clientsList [] s =
        ServerSendState.broadcastAll senddata r clientsList s := by
  have hcalls := ServerSendState.broadcast_eq_run (r := r) hmap hdata excludeid s
  refine ⟨hcalls, fun c hc => ?_, ?_, fun s' hsome => ?_, ?_⟩
  · rw [targets, count_filter_key hmap.nodup (· ∉ excludeid) hc]
    by_cases hmem : c.key ∈ excludeid
    · rw [if_neg (not_not.mpr hmem), if_pos hmem]
    · rw [if_pos hmem, if_neg hmem]
  · exact hmap.sublist (List.filter_sublist.map _)
  · rw [hcalls] at hsome
    have hflight := ServerSendState.inFlight_run (fun call hcall => ?_) hsome
    · rw [hflight, List.filter_map, List.map_map]
      rfl
    · obtain ⟨c, -, rfl⟩ := List.mem_map.mp hcall
      exact hdata
  · rw [ServerSendState.broadcastExcept_eq_broadcastAll, crossOut_eq_filter hmap.nodup]
    simp

/-- Three clients, of which the second one is excluded, twice, and a client that does not exist; the
`uv_write` for the first one fails. -/
theorem broadcast_reaches_targets_three_clients :
    let clientsList : List AcceptClient := [⟨1, 10, false⟩, ⟨2, 20, false⟩, ⟨3, 30, false⟩]
    let r : ℕ → SendResult := fun id => ⟨id, fun _ => 0, if id = 1 then -4081 else 0⟩
    (targets clientsList [2, 7, 2]).map (·.clientId) = [1, 3] ∧
      ∃ s', (ServerSendState.initial fun _ => allocWriteParam fun _ => 0).broadcast clientsList [5, 6]
          [2, 7, 2] r = some s' ∧
        s'.inFlight.map Prod.snd = [30] := by
  intro clientsList r
  have hmap : InKeyOrder clientsList := by decide
  have hdata : ([5, 6] : List UInt8) ≠ [] := by decide
  obtain ⟨s', hs'⟩ := Option.isSome_iff_exists.mp
    (show ((ServerSendState.initial fun _ => allocWriteParam fun _ => 0).broadcast clientsList [5, 6]
      [2, 7, 2] r).isSome = true by decide +kernel)
  exact ⟨by decide, s', hs',
    (broadcast_reaches_targets _ hmap hdata [2, 7, 2] r).2.2.2.1 s' hs'⟩

end MyUvpp
