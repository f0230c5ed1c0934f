import MyUvpp.TcpServer.Answers

/-! # Every connection gets its own answers

Whatever the other connections do, and whenever libuv writes and reports: the frames answered on a
connection are those of its own bytes, and what its socket has received and is still to receive are their
answers, one after the other. -/

namespace MyUvpp

namespace AnsweringServer

variable {σ : Type*} {host : Host} {head tail : UInt8} {parse : ParsePacket σ}
  {s s' : AnsweringServer σ} {a : ℕ}

/-- The context at an address serves a connection, whose answers are accounted for. -/
structure Serving (host : Host) (parse : ParsePacket σ) (head tail : UInt8) (a : ℕ)
    (s : AnsweringServer σ) : Prop extends s.Inv host parse head tail where
  client : a ∈ s.conns.handles
  started : (s.conns.heap a).packet.Started host head tail
  accounted : s.Accounted a

/-- What the connections know of a handle that is served: its context is live, registered and reads. -/
theorem Serving.connection (h : s.Serving host parse head tail a) :
    s.conns.Connection host head tail a := ⟨h.pool, h.client, h.started⟩

/-- The bytes that an event reads on the connection of a context. -/
def readOn (a : ℕ) : AnsweringEvent → Option (List UInt8)
  | .conn e _ => TCPServer.readOn a e
  | _ => none

/-- The condition on a step for the connection of a context: `uv_write` accepts its answers, no write
fails, and its handle is not closed. -/
def Undisturbed (a : ℕ) (s : AnsweringServer σ) : AnsweringEvent → Prop
  | .conn (.afterRecv addr _) results => addr = a → ∀ r ∈ results, r.iret = 0
  | .conn (.tcpClosed addr) _ => addr ≠ a
  | .conn (.acceptConnection ..) _ => True
  | .write .. => True
  | .afterSend addr status => (addr, a) ∈ s.send.inFlight → 0 ≤ status

/-- Whether an event leaves the connection of a handle alone can be looked up in the event. -/
instance (a : ℕ) (s : AnsweringServer σ) (e : AnsweringEvent) : Decidable (Undisturbed a s e) :=
  match e with
  | .conn (.afterRecv addr _) results =>
    inferInstanceAs (Decidable (addr = a → ∀ r ∈ results, r.iret = 0))
  | .conn (.tcpClosed addr) _ => inferInstanceAs (Decidable (addr ≠ a))
  | .conn (.acceptConnection ..) _ | .write .. => inferInstanceAs (Decidable True)
  | .afterSend addr status => inferInstanceAs (Decidable ((addr, a) ∈ s.send.inFlight → 0 ≤ status))

/-- Another stream may be initialised. -/
theorem streams_initStream (h : s.Inv host parse head tail) (ha : a ∈ s.conns.handles) {e : ServerEvent}
    {conns : TCPServer} (hconns : s.conns.step host e = some conns) :
    (s.initStream e).streams a = s.streams a := by
  cases e with
  | acceptConnection status r addr u =>
    obtain ⟨haddr, -⟩ := TCPServer.step_acceptConnection hconns
    rw [initStream]
    split
    case isTrue => rfl
    case isFalse => exact streams_setStream_of_ne _ (takenAddr_ne h.pool haddr ha).symm _
  | afterRecv addr nread => rfl
  | tcpClosed addr => rfl

/-- Setting up the stream of an accepted connection touches neither the write parameters nor the queues. -/
theorem memory_initStream (s : AnsweringServer σ) (e : ServerEvent) :
    (s.initStream e).memory = s.memory := by
  cases e with
  | acceptConnection status r addr u =>
    rw [initStream]
    split <;> rfl
  | afterRecv addr nread => rfl
  | tcpClosed addr => rfl

/-- What a step does to a connection: its decoder reduces what it had pending and what is read, and the
frames are answered. -/
def Advances (host : Host) (parse : ParsePacket σ) (head tail : UInt8) (a : ℕ)
    (s : AnsweringServer σ) (e : AnsweringEvent) (s' : AnsweringServer σ) : Prop :=
  s'.Serving host parse head tail a ∧
    ∃ out, (decoderFraming host head tail).Reduces
        ((s.conns.heap a).packet.pending ++ (readOn a e).getD []) out
        (s'.conns.heap a).packet.pending ∧
      (s'.streams a).answered.map Prod.fst = (s.streams a).answered.map Prod.fst ++ out

/-- An event of the connections. -/
theorem Serving.advances_conn (h : s.Serving host parse head tail a)
    (hshort : ∀ p packet data, (parse p packet data).1.length < 2 ^ 31) {e : ServerEvent}
    {results : List SendResult} (hgood : s.Undisturbed a (.conn e results))
    (hstep : s.step host parse (.conn e results) = some s') :
    s.Advances host parse head tail a (.conn e results) s' := by
  obtain ⟨-, conns, hconns, hget⟩ := step_conn hstep
  have hclosed : e ≠ .tcpClosed a := by
    rintro rfl
    exact hgood rfl
  obtain ⟨hconn, out, hred, hreceived⟩ := h.connection.advances hclosed hconns
  obtain ⟨hinv, heq, hall⟩ := getPackets_spec (h.toInv.withConns hconns) hshort hget
  obtain ⟨-, hanswered, hkept⟩ := hall a
  have hstream := streams_initStream h.toInv h.client hconns
  -- the frames that are answered for the connection are those that its decoder has delivered
  have hnew : framesOn a (conns.received.drop s.conns.received.length) = out := by
    obtain ⟨new, hprefix⟩ := received_prefix h.pool hconns
    have hon : framesOn a conns.received = framesOn a s.conns.received ++ out := hreceived
    rw [← hprefix, List.drop_left]
    rw [← hprefix, framesOn, List.filterMap_append] at hon
    exact List.append_cancel_left hon
  have haccounted : Accounted { s.initStream e with conns } a := by
    show ((s.initStream e).streams a).written ++
        ((s.initStream e).streams a).queue.rest (s.initStream e).memory =
      ((s.initStream e).streams a).answered.flatMap Prod.snd
    rw [hstream, memory_initStream]
    exact h.accounted
  refine ⟨⟨hinv, heq ▸ hconn.client, heq ▸ hconn.started, hkept (fun f hf hfa => ?_) haccounted⟩, out,
    heq ▸ hred, ?_⟩
  · obtain ⟨nread, rfl⟩ := fst_of_mem_new h.pool hconns hf
    exact hgood hfa
  · rw [hanswered, hnew]
    show ((s.initStream e).streams a).answered.map Prod.fst ++ out = _
    rw [hstream]

/-- A step that leaves the connections alone, and the frames that have been answered. -/
theorem Serving.advances_silent (h : s.Serving host parse head tail a) {e : AnsweringEvent}
    (hread : readOn a e = none) (hinv : s'.Inv host parse head tail) (hconns : s'.conns = s.conns)
    (hanswered : (s'.streams a).answered = (s.streams a).answered) (haccounted : s'.Accounted a) :
    s.Advances host parse head tail a e s' := by
  refine ⟨⟨hinv, hconns ▸ h.client, hconns ▸ h.started, haccounted⟩, [], ?_, ?_⟩
  · rw [hread, Option.getD_none, List.append_nil, hconns]
    exact .refl _
  · rw [hanswered, List.append_nil]

/-- **Every step advances a connection**, as long as it is not disturbed. -/
theorem Serving.advances (h : s.Serving host parse head tail a)
    (hshort : ∀ p packet data, (parse p packet data).1.length < 2 ^ 31) {e : AnsweringEvent}
    (hgood : s.Undisturbed a e) (hstep : s.step host parse e = some s') :
    s.Advances host parse head tail a e s' := by
  have hinv := h.toInv.step hshort hstep
  cases e with
  | conn e results => exact h.advances_conn hshort hgood hstep
  | write client n =>
    obtain ⟨-, heq⟩ := Option.ite_none_right_eq_some.mp hstep
    cases heq
    by_cases hc : a = client
    · subst hc
      refine h.advances_silent rfl hinv rfl (by rw [streams_setStream]) ?_
      have hwrite := WriteQueue.write_append_rest s.memory n (s.streams a).queue
      rw [Accounted, streams_setStream]
      show (s.streams a).written ++ ((s.streams a).queue.write s.memory n).1 ++
        ((s.streams a).queue.write s.memory n).2.rest s.memory = _
      rw [List.append_assoc, hwrite]
      exact h.accounted
    · refine h.advances_silent rfl hinv rfl (by rw [streams_setStream_of_ne _ hc]) ?_
      rw [Accounted, streams_setStream_of_ne _ hc]
      exact h.accounted
  | afterSend addr status =>
    obtain ⟨client, hmem, hwait, rfl⟩ := step_afterSend hstep
    have hmemory : memory { s with send := s.send.afterSend addr } = s.memory := by
      funext b
      rw [memory, memory, (ServerSendState.afterSend_rest addr).1]
    by_cases hc : a = client
    · subst hc
      -- the request has been written
      have hremove : (s.streams a).queue.remove addr = (s.streams a).queue :=
        WriteQueue.remove_of_notMem fun hw => absurd (hgood hmem) (not_le.mpr (hwait hw))
      refine h.advances_silent rfl hinv rfl (by rw [streams_setStream]) ?_
      rw [Accounted, streams_setStream, hremove]
      show _ ++ WriteQueue.rest (memory { s with send := s.send.afterSend addr }) _ = _
      rw [hmemory]
      exact h.accounted
    · refine h.advances_silent rfl hinv rfl (by rw [streams_setStream_of_ne _ hc]) ?_
      rw [Accounted, streams_setStream_of_ne _ hc]
      show _ ++ WriteQueue.rest (memory { s with send := s.send.afterSend addr }) _ = _
      rw [hmemory]
      exact h.accounted

/-- Events of the connections write nothing to the socket of a client. -/
theorem written_conn (h : s.Serving host parse head tail a)
    (hshort : ∀ p packet data, (parse p packet data).1.length < 2 ^ 31) {e : ServerEvent}
    {results : List SendResult} (hstep : s.step host parse (.conn e results) = some s') :
    (s'.streams a).written = (s.streams a).written := by
  obtain ⟨-, conns, hconns, hget⟩ := step_conn hstep
  obtain ⟨-, -, hall⟩ := getPackets_spec (h.toInv.withConns hconns) hshort hget
  rw [(hall a).1]
  exact congrArg ClientStream.written (streams_initStream h.toInv h.client hconns)

/-- What has been written to the socket of a client stays written. -/
theorem written_prefix (h : s.Serving host parse head tail a)
    (hshort : ∀ p packet data, (parse p packet data).1.length < 2 ^ 31) {e : AnsweringEvent}
    (hstep : s.step host parse e = some s') :
    (s.streams a).written <+: (s'.streams a).written := by
  cases e with
  | conn e results => exact written_conn h hshort hstep ▸ List.prefix_refl _
  | write client n =>
    obtain ⟨-, heq⟩ := Option.ite_none_right_eq_some.mp hstep
    cases heq
    by_cases hc : a = client
    · subst hc
      exact (streams_setStream s a _).symm ▸ List.prefix_append _ _
    · exact (streams_setStream_of_ne s hc _).symm ▸ List.prefix_refl _
  | afterSend addr status =>
    obtain ⟨client, -, -, rfl⟩ := step_afterSend hstep
    by_cases hc : a = client
    · subst hc
      exact (streams_setStream _ a _).symm ▸ List.prefix_refl _
    · exact (streams_setStream_of_ne _ hc _).symm ▸ List.prefix_refl _

/-- A connection that has just been accepted is served, and its stream is new. -/
theorem Inv.serving_connected (h : s.Inv host parse head tail) {addr : ℕ} {u : Indeterminate}
    (hstep : s.step host parse (.conn (.acceptConnection 0 default addr u) []) = some s') :
    s'.Serving host parse head tail (s.conns.takenAddr addr) ∧
      (s'.conns.heap (s.conns.takenAddr addr)).packet.pending = (s.conns.takenCtx u).packet.pending ∧
      s'.streams (s.conns.takenAddr addr) = .new := by
  obtain ⟨-, conns, hconns, hget⟩ := step_conn hstep
  have hinv := h.withConns hconns
  obtain ⟨-, rfl⟩ := TCPServer.step_acceptConnection hconns
  rw [TCPServer.acceptConnection_default] at hget hinv
  -- no frames, so that nothing is answered
  rw [show (s.conns.connected addr u).received.drop s.conns.received.length = [] from
    List.drop_length] at hget
  cases hget
  have hctx : (s.conns.connected addr u).heap (s.conns.takenAddr addr) = s.conns.connectedCtx u :=
    TCPServer.heap_withTaken _ _ _
  have hstream : (s.initStream (.acceptConnection 0 default addr u)).streams
      (s.conns.takenAddr addr) = .new := by
    rw [AnsweringServer.initStream, if_neg (not_not.mpr rfl), streams_setStream]
  refine ⟨⟨hinv, ?_, ?_, ?_⟩, ?_, ?_⟩
  · show s.conns.takenAddr addr ∈ (s.conns.connected addr u).handles
    rw [TCPServer.handles_connected]
    exact List.mem_append_right _ (List.mem_singleton_self _)
  · show ((s.conns.connected addr u).heap (s.conns.takenAddr addr)).packet.Started host head tail
    rw [hctx]
    exact h.decoders.startedCtx u
  · rw [Accounted]
    simp only
    rw [hstream]
    rfl
  · simp only
    rw [hctx]
    rfl
  · exact hstream

/-- **A run advances a connection**, as long as no step disturbs it. -/
theorem Serving.run_advances (h : s.Serving host parse head tail a)
    (hshort : ∀ p packet data, (parse p packet data).1.length < 2 ^ 31) {es : List AnsweringEvent}
    (hgood : Along (AnsweringServer.step host parse) (Undisturbed a) s es)
    (hrun : run (AnsweringServer.step host parse) s es = some s') :
    s'.Serving host parse head tail a ∧
      ∃ out, (decoderFraming host head tail).Reduces
          ((s.conns.heap a).packet.pending ++ (es.filterMap (readOn a)).flatten) out
          (s'.conns.heap a).packet.pending ∧
        (s'.streams a).answered.map Prod.fst = (s.streams a).answered.map Prod.fst ++ out :=
  Framing.reduces_along (fun _ _ _ h hgood hstep => h.advances hshort hgood hstep) h hgood hrun

end AnsweringServer

/-- **Answers in order.** A server has run in any way and accepts a connection. As long as `uv_write`
accepts the answers to it and its handle stays open, whatever the other connections do and whenever libuv
writes and reports: the frames answered on it are those of the scan of what the decoder of its context had
pending and what the connection has read, each with what `ParsePacket` returned for it; and the bytes on
its socket and those still to be written are these answers, in order. -/
theorem server_answers_in_order {σ : Type*} (host : Host) (parse : ParsePacket σ)
    (hshort : ∀ p packet data, (parse p packet data).1.length < 2 ^ 31) (head tail : UInt8)
    (heap : ℕ → WriteParam) (protocol : σ) (es es' : List AnsweringEvent)
    (s₁ s₂ s : AnsweringServer σ) (addr a : ℕ) (u : Indeterminate)
    (hrun₁ : run (AnsweringServer.step host parse) (.initial head tail heap protocol) es = some s₁)
    (haccept : s₁.step host parse (.conn (.acceptConnection 0 default addr u) []) = some s₂)
    (ha : s₁.conns.takenAddr addr = a)
    (hgood : Along (AnsweringServer.step host parse) (AnsweringServer.Undisturbed a) s₂ es')
    (hrun₂ : run (AnsweringServer.step host parse) s₂ es' = some s) :
    (s.streams a).answered.map Prod.fst =
        (decoderFraming host head tail).scan ((s₁.conns.takenCtx u).packet.pending ++
          (es'.filterMap (AnsweringServer.readOn a)).flatten) ∧
      (∀ p ∈ (s.streams a).answered, ∃ st, p.2 = (parse st p.1.1 p.1.2).1) ∧
      (s.streams a).written ++ (s.streams a).queue.rest s.memory =
        (s.streams a).answered.flatMap Prod.snd := by
  have hinv₁ : s₁.Inv host parse head tail :=
    run_invariant (fun _ _ _ h hstep => AnsweringServer.Inv.step h hshort hstep)
      (AnsweringServer.inv_initial host parse head tail heap protocol) hrun₁
  obtain ⟨hserving₂, hpending, hnew⟩ := hinv₁.serving_connected haccept
  rw [ha] at hserving₂ hpending hnew
  obtain ⟨hserving, out, hred, hanswered⟩ := hserving₂.run_advances hshort hgood hrun₂
  -- no complete frame is pending in the end
  have hscan := hred.scan_eq
  rw [hserving.started.scan_pending, List.append_nil, hpending] at hscan
  refine ⟨?_, hserving.parsed a, hserving.accounted⟩
  rw [hanswered, hnew, hscan]
  rfl

/-- A protocol that counts its packets, and answers with the count and the data. -/
def countingEcho : ParsePacket UInt8 := fun n _ data => (n :: data.take 9, n + 1)

/-- Two connections; the second one is answered while a part of the first answer is on its way. -/
theorem server_answers_in_order_two_clients :
    ∃ s : AnsweringServer UInt8,
      (s.streams 7).answered.map Prod.fst =
          (decoderFraming .little 1 2).scan ((newPacketSync default).pending ++
            [[1, 3, 0, 0, 0, 1, 2] ++ List.replicate 16 0 ++
              [4, 0, 0, 0, 2, 0, 0, 0, 6, 0, 0, 0, 8, 9, 2]].flatten) ∧
        (∀ p ∈ (s.streams 7).answered, ∃ st, p.2 = (countingEcho st p.1.1 p.1.2).1) ∧
        (s.streams 7).written ++ (s.streams 7).queue.rest s.memory =
          (s.streams 7).answered.flatMap Prod.snd := by
  let accept (addr : ℕ) : AnsweringEvent := .conn (.acceptConnection 0 default addr default) []
  let frame : List UInt8 := [1, 3, 0, 0, 0, 1, 2] ++ List.replicate 16 0 ++
    [4, 0, 0, 0, 2, 0, 0, 0, 6, 0, 0, 0, 8, 9, 2]
  let read (addr request : ℕ) : AnsweringEvent :=
    .conn (.afterRecv addr (some frame)) [⟨request, fun _ => 0, 0⟩]
  let s₀ : AnsweringServer UInt8 := .initial 1 2 (fun _ => allocWriteParam fun _ => 0) 5
  let es : List AnsweringEvent := [read 7 10, .write 7 1, accept 8, read 8 11, .write 7 1, .write 8 3]
  have hsome : ((s₀.step .little countingEcho (accept 7)).bind fun s₂ =>
      run (AnsweringServer.step .little countingEcho) s₂ es).isSome = true := by decide +kernel
  obtain ⟨s, hs⟩ := Option.isSome_iff_exists.mp hsome
  obtain ⟨s₂, hs₂, hrun⟩ := Option.bind_eq_some_iff.mp hs
  have hgood : Along (AnsweringServer.step .little countingEcho) (AnsweringServer.Undisturbed 7) s₂
      es := by
    have hall : ((s₀.step .little countingEcho (accept 7)).map fun s₂ =>
        decide (Along (AnsweringServer.step .little countingEcho) (AnsweringServer.Undisturbed 7) s₂
          es)) = some true := by decide +kernel
    rw [hs₂, Option.map_some, Option.some.injEq] at hall
    exact of_decide_eq_true hall
  exact ⟨s, server_answers_in_order .little countingEcho
    (fun n _ data => by
      show (n :: data.take 9).length < 2 ^ 31
      have hlen := List.length_take_le 9 data
      rw [List.length_cons]
      omega) 1 2 _ 5 [] es s₀ s₂ s 7 7 default rfl hs₂ rfl hgood hrun⟩

end MyUvpp
