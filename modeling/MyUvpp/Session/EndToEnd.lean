import MyUvpp.Packet.RoundTrip
import MyUvpp.Session.Exchange

/-! # From `Send` to the answer

What the threads of a client send reaches the protocol of the server in the order in which the calls of
`Send` were completed, and the answers reach the client in the order of the packets: no packet and no
answer is lost, duplicated, torn or overtaken, whatever is interleaved and however the bytes are cut. -/

namespace MyUvpp

namespace SendState

variable {s s' : SendState}

/-- **What a step passes to libuv**: the requests that it adds to those in flight, with their bytes, as
long as `uv_write` accepts them. Only `AfterSend` takes a request out. -/
theorem step_requests {e : SendEvent} (hok : ∀ iret, e = .uvWrite iret → iret = 0)
    (hstep : s.step e = some s') :
    s'.passed = s.passed ++ (s'.inFlight.drop s.inFlight.length).flatMap (fun p => p.2.bytes) ∧
      ∀ p ∈ s.inFlight, p ∈ s'.inFlight ∨ ∃ status, e = .afterSend p.1 status := by
  have hsame : s'.passed = s.passed → s'.inFlight = s.inFlight →
      s'.passed = s.passed ++ (s'.inFlight.drop s.inFlight.length).flatMap (fun p => p.2.bytes) ∧
        ∀ p ∈ s.inFlight, p ∈ s'.inFlight ∨ ∃ status, e = .afterSend p.1 status := by
    intro hpassed hflight
    rw [hflight, List.drop_length, List.flatMap_nil, List.append_nil]
    exact ⟨hpassed, fun p hp => .inl hp⟩
  cases e with
  | send data =>
    cases hstep
    exact hsame rfl rfl
  | sendCheck i =>
    obtain ⟨c, -, -, rfl⟩ := step_sendCheck hstep
    exact hsame rfl rfl
  | sendWrite i =>
    obtain ⟨c, -, -, rfl⟩ := step_sendWrite hstep
    exact hsame rfl rfl
  | close =>
    cases hstep
    exact hsame rfl rfl
  | asyncCB =>
    obtain ⟨-, heq⟩ := Option.ite_none_right_eq_some.mp hstep
    cases heq
    refine hsame ?_ ?_ <;> split <;> rfl
  | afterRecv =>
    obtain ⟨-, heq⟩ := Option.ite_none_right_eq_some.mp hstep
    cases heq
    exact hsame rfl rfl
  | afterSend addr status =>
    obtain ⟨⟨hidle, -⟩, heq⟩ := Option.ite_none_right_eq_some.mp hstep
    cases heq
    obtain ⟨loop, -, heq⟩ := afterSend_eq hidle addr status
    have hdrop : (s.inFlight.filter (·.1 ≠ addr)).drop s.inFlight.length = [] :=
      List.drop_eq_nil_of_le (List.length_filter_le _ _)
    rw [heq]
    simp only
    rw [hdrop, List.flatMap_nil, List.append_nil]
    refine ⟨rfl, fun p hp => ?_⟩
    by_cases hpa : p.1 = addr
    · exact .inr ⟨status, hpa ▸ rfl⟩
    · exact .inl (List.mem_filter.mpr ⟨hp, decide_eq_true hpa⟩)
  | drainRead addr base =>
    obtain ⟨-, heq⟩ := Option.ite_none_right_eq_some.mp hstep
    cases heq
    refine hsame ?_ ?_ <;> split <;> rfl
  | uvWrite iret =>
    obtain ⟨addr, -, rfl⟩ := step_uvWrite hstep
    rw [uvWrite, if_neg (not_not.mpr (hok iret rfl))]
    simp only
    rw [List.drop_left, List.flatMap_singleton]
    exact ⟨rfl, fun p hp => .inl (List.mem_append_left _ hp)⟩

/-- The buffers of the calls are those that were passed to `Send`. -/
theorem data_of_step {e : SendEvent} (hstep : s.step e = some s') {c : SendCall} (hc : c ∈ s'.sends) :
    (∃ d ∈ s.sends, c.data = d.data) ∨ e = .send c.data := by
  by_cases hloop : e.OnLoop
  · rw [(step_onLoop hstep hloop).1] at hc
    exact .inl ⟨c, hc, rfl⟩
  cases e with
  | send data =>
    cases hstep
    rcases List.mem_append.mp hc with hc | hc
    · exact .inl ⟨c, hc, rfl⟩
    · rw [List.mem_singleton.mp hc]
      exact .inr rfl
  | sendCheck i =>
    obtain ⟨d, hd, -, rfl⟩ := step_sendCheck hstep
    rcases List.mem_or_eq_of_mem_set hc with hc | rfl
    · exact .inl ⟨c, hc, rfl⟩
    · exact .inl ⟨d, List.mem_of_getElem? hd, rfl⟩
  | sendWrite i =>
    obtain ⟨d, hd, -, rfl⟩ := step_sendWrite hstep
    rcases List.mem_or_eq_of_mem_set hc with hc | rfl
    · exact .inl ⟨c, hc, rfl⟩
    · exact .inl ⟨d, List.mem_of_getElem? hd, rfl⟩
  | close =>
    cases hstep
    exact .inl ⟨c, hc, rfl⟩
  | asyncCB => exact absurd trivial hloop
  | afterRecv => exact absurd trivial hloop
  | afterSend addr status => exact absurd trivial hloop
  | drainRead addr base => exact absurd trivial hloop
  | uvWrite iret => exact absurd trivial hloop

/-- The accepted bytes begin the buffers of the completed calls and of at most one other. -/
theorem Contiguous.accepted_prefix (h : s.Contiguous) :
    ∃ order : List ℕ, order.Nodup ∧ s.completed <+: order ∧
      (∀ i ∈ order, ∃ c : SendCall, s.sends[i]? = some c) ∧
      s.accepted <+: order.flatMap s.buffer ∧
      ((∀ c ∈ s.sends, ¬ c.Midway) → order = s.completed ∧
        s.accepted = s.completed.flatMap s.buffer) := by
  obtain ⟨rest, hacc, hrest, hnil⟩ := h.whole
  have hcompleted : ∀ i ∈ s.completed, ∃ c : SendCall, s.sends[i]? = some c := by
    intro i hi
    obtain ⟨c, hc, -⟩ := (h.mem_iff i).mp hi
    exact ⟨c, hc⟩
  by_cases hmid : ∃ (i : ℕ) (c : SendCall), s.sends[i]? = some c ∧ c.Midway
  · -- the part of the call that is midway
    obtain ⟨i, c, hc, hm⟩ := hmid
    have hnot : i ∉ s.completed := by
      intro hi
      obtain ⟨d, hd, -, hlen⟩ := (h.mem_iff i).mp hi
      rw [hc, Option.some.injEq] at hd
      subst hd
      exact absurd hm.2 (by omega)
    have hbuffer : s.buffer i = c.data := by rw [buffer, hc, Option.map_some, Option.getD_some]
    refine ⟨s.completed ++ [i], List.nodup_append.mpr ⟨h.nodup, List.nodup_singleton i, ?_⟩,
      List.prefix_append _ _, ?_, ?_, fun hnone => ?_⟩
    · rintro j hj k hk rfl
      exact hnot (List.mem_singleton.mp hk ▸ hj)
    · intro j hj
      rcases List.mem_append.mp hj with hj | hj
      · exact hcompleted j hj
      · exact ⟨c, List.mem_singleton.mp hj ▸ hc⟩
    · rw [hacc, List.flatMap_append, List.flatMap_singleton, hbuffer, hrest i c hc hm]
      exact (List.prefix_append_right_inj _).mpr (List.take_prefix _ _)
    · exact absurd hm (hnone c (List.mem_of_getElem? hc))
  · have hempty : rest = [] := hnil fun i c hc hm => hmid ⟨i, c, hc, hm⟩
    rw [hempty, List.append_nil] at hacc
    exact ⟨s.completed, h.nodup, List.prefix_refl _, hcompleted, hacc ▸ List.prefix_refl _,
      fun _ => ⟨rfl, hacc⟩⟩

end SendState

namespace Exchange

variable {σ : Type*} {host : Host} {head tail : UInt8} {parse : ParsePacket σ} {a : ℕ}

/-- Both sides are in order, and both ways are: what has been read, what is on its way and what is still
to be written is what the sender has passed on, and what has been read is decoded. -/
structure Inv (host : Host) (parse : ParsePacket σ) (head tail : UInt8) (a : ℕ) (s : Exchange σ) :
    Prop where
  sends : s.client.Inv
  contiguous : s.client.Contiguous
  serving : s.server.Serving host parse head tail a
  started : s.packet.Started host head tail
  queued : ∀ addr ∈ s.queue.waiting, addr ∈ s.client.inFlight.map Prod.fst
  upward : ∃ read, read ++ s.up ++ s.queue.rest s.memory = s.client.passed ∧
    (decoderFraming host head tail).Reduces read ((s.server.streams a).answered.map Prod.fst)
      (s.server.conns.heap a).packet.pending
  downward : ∃ read, read ++ s.down = (s.server.streams a).written ∧
    (decoderFraming host head tail).Reduces read s.received s.packet.pending

variable {s s' : Exchange σ}

/-- A step of the client moves what it passes to libuv into the queue. -/
theorem Inv.client (h : s.Inv host parse head tail a) {e : SendEvent} {client : SendState}
    (hpossible : s.Possible e) (hgood : s.Undisturbed a (.client e))
    (hstep : s.client.step e = some client) :
    Inv host parse head tail a { s with client, queue := s.queueAfter client e } := by
  have hok : ∀ iret, e = .uvWrite iret → iret = 0 := by
    rintro iret rfl
    exact hgood
  have huninterrupted : s.client.Uninterrupted e := by
    cases e with
    | uvWrite iret => trivial
    | afterSend addr status => trivial
    | send data => exact hgood
    | sendCheck i => exact hgood
    | sendWrite i => exact hgood
    | close => exact hgood
    | asyncCB => exact hgood
    | afterRecv => exact hgood
    | drainRead addr base => exact hgood
  have hsends := SendState.step_inv h.sends hstep
  have hcontiguous := SendState.step_contiguous h.contiguous h.sends huninterrupted hstep
  obtain ⟨hpassed, hkept⟩ := SendState.step_requests hok hstep
  -- the requests that wait are still in flight, as they were passed
  have hwaiting : ∀ addr ∈ s.queue.waiting, addr ∈ client.inFlight.map Prod.fst ∧
      client.heap addr = s.client.heap addr := by
    intro addr haddr
    obtain ⟨p, hp, rfl⟩ := List.mem_map.mp (h.queued addr haddr)
    rcases hkept p hp with hp' | ⟨status, rfl⟩
    · exact ⟨List.mem_map_of_mem hp', (hsends.intact p hp').trans (h.sends.intact p hp).symm⟩
    · exact absurd (hpossible haddr) (not_lt.mpr hgood)
  have hqueue : s.queueAfter client e =
      s.queue.push ((client.inFlight.drop s.client.inFlight.length).map Prod.fst) := by
    rw [queueAfter.eq_def]
    split
    case h_1 addr status =>
      have hnot : addr ∉ s.queue.waiting := fun haddr =>
        absurd (hpossible haddr) (not_lt.mpr hgood)
      obtain ⟨⟨hidle, -⟩, heq⟩ := Option.ite_none_right_eq_some.mp hstep
      cases heq
      obtain ⟨loop, -, heq⟩ := SendState.afterSend_eq hidle addr status
      rw [WriteQueue.remove_of_notMem hnot, heq]
      simp only
      rw [List.drop_eq_nil_of_le (List.length_filter_le _ _), List.map_nil, WriteQueue.push_nil]
    case h_2 => rfl
  obtain ⟨read, hread, hred⟩ := h.upward
  refine ⟨hsends, hcontiguous, h.serving, h.started, fun addr haddr => ?_, ⟨read, ?_, hred⟩,
    h.downward⟩
  · simp only at haddr
    rw [hqueue, WriteQueue.waiting_push] at haddr
    rcases List.mem_append.mp haddr with haddr | haddr
    · exact (hwaiting addr haddr).1
    · exact List.map_subset Prod.fst (List.drop_subset _ _) haddr
  · show read ++ s.up ++ (s.queueAfter client e).rest (fun addr => (client.heap addr).bytes) =
      client.passed
    have hnew : ((client.inFlight.drop s.client.inFlight.length).map Prod.fst).flatMap
          (fun addr => (client.heap addr).bytes) =
        (client.inFlight.drop s.client.inFlight.length).flatMap fun p => p.2.bytes := by
      rw [List.flatMap_map]
      refine List.flatMap_congr fun p hp => ?_
      rw [hsends.intact p (List.mem_of_mem_drop hp)]
    have hrest : s.queue.rest (fun addr => (client.heap addr).bytes) = s.queue.rest s.memory :=
      WriteQueue.rest_congr fun addr haddr => congrArg WriteParam.bytes (hwaiting addr haddr).2
    rw [hqueue, WriteQueue.rest_push, hrest, hnew, hpassed, ← hread]
    simp only [List.append_assoc]

/-- Writing moves bytes from the queue to the way up. -/
theorem Inv.clientWrite (h : s.Inv host parse head tail a) (n : ℕ) :
    Inv host parse head tail a
      { s with queue := (s.queue.write s.memory n).2, up := s.up ++ (s.queue.write s.memory n).1 } := by
  obtain ⟨read, hread, hred⟩ := h.upward
  refine ⟨h.sends, h.contiguous, h.serving, h.started, fun addr haddr => ?_, ⟨read, ?_, hred⟩,
    h.downward⟩
  · exact h.queued addr (WriteQueue.waiting_write_subset _ _ _ haddr)
  · have hwrite := WriteQueue.write_append_rest s.memory n s.queue
    show read ++ (s.up ++ (s.queue.write s.memory n).1) ++
      (s.queue.write s.memory n).2.rest s.memory = s.client.passed
    rw [← hread, ← hwrite]
    simp only [List.append_assoc]

/-- A read of the client is decoded. -/
theorem Inv.clientRead (h : s.Inv host parse head tail a) {n : ℕ} {client : SendState}
    (hstep : s.client.step .afterRecv = some client) {packet : PacketSync} {log : List Effect}
    (hrecv : recvdata host s.packet (s.down.take n) = some (packet, log)) :
    Inv host parse head tail a
      { s with client, packet, down := s.down.drop n, received := s.received ++ frames log } := by
  have hinv := h.client (e := .afterRecv) trivial trivial hstep
  -- `AfterRecv` passes nothing to libuv by itself
  have hqueue : s.queueAfter client .afterRecv = s.queue := by
    obtain ⟨-, heq⟩ := Option.ite_none_right_eq_some.mp hstep
    cases heq
    show s.queue.push ((s.client.inFlight.drop s.client.inFlight.length).map Prod.fst) = s.queue
    rw [List.drop_length, List.map_nil, WriteQueue.push_nil]
  rw [hqueue] at hinv
  obtain ⟨packet', log', hrecv', hstarted, hred'⟩ := h.started.recvdata (s.down.take n)
  cases hrecv.symm.trans hrecv'
  obtain ⟨read, hread, hred⟩ := h.downward
  refine ⟨hinv.sends, hinv.contiguous, hinv.serving, hstarted, hinv.queued, hinv.upward,
    ⟨read ++ s.down.take n, ?_, (hred.append _).trans hred'⟩⟩
  rw [List.append_assoc, List.take_append_drop]
  exact hread

/-- A step of the server may write to the connection. -/
theorem Inv.server (h : s.Inv host parse head tail a)
    (hshort : ∀ p packet data, (parse p packet data).1.length < 2 ^ 31) {e : AnsweringEvent}
    (hnone : AnsweringServer.readOn a e = none) (hgood : s.server.Undisturbed a e)
    {server : AnsweringServer σ} (hstep : s.server.step host parse e = some server) :
    Inv host parse head tail a { s with
      server
      down := s.down ++ (server.streams a).written.drop (s.server.streams a).written.length } := by
  obtain ⟨hserving, out, hred', hanswered⟩ := h.serving.advances hshort hgood hstep
  rw [hnone, Option.getD_none, List.append_nil] at hred'
  obtain ⟨new, hnew⟩ := AnsweringServer.written_prefix h.serving hshort hstep
  obtain ⟨read, hread, hred⟩ := h.upward
  obtain ⟨read', hread', hred''⟩ := h.downward
  refine ⟨h.sends, h.contiguous, hserving, h.started, h.queued, ⟨read, hread, ?_⟩,
    ⟨read', ?_, hred''⟩⟩
  · rw [hanswered]
    exact hred.trans hred'
  · rw [← hnew, List.drop_left, ← List.append_assoc, hread']

/-- A read of the server is decoded and answered. -/
theorem Inv.serverRead (h : s.Inv host parse head tail a)
    (hshort : ∀ p packet data, (parse p packet data).1.length < 2 ^ 31) {n : ℕ}
    {results : List SendResult} (hgood : ∀ r ∈ results, r.iret = 0) {server : AnsweringServer σ}
    (hstep : s.server.step host parse (.conn (.afterRecv a (some (s.up.take n))) results) =
      some server) :
    Inv host parse head tail a { s with server, up := s.up.drop n } := by
  have hundisturbed : s.server.Undisturbed a
      (.conn (.afterRecv a (some (s.up.take n))) results) := fun _ => hgood
  obtain ⟨hserving, out, hred', hanswered⟩ := h.serving.advances hshort hundisturbed hstep
  have hread : AnsweringServer.readOn a (.conn (.afterRecv a (some (s.up.take n))) results) =
      some (s.up.take n) := if_pos rfl
  rw [hread, Option.getD_some] at hred'
  obtain ⟨read, hread, hred⟩ := h.upward
  obtain ⟨read', hread', hred''⟩ := h.downward
  refine ⟨h.sends, h.contiguous, hserving, h.started, h.queued, ⟨read ++ s.up.take n, ?_, ?_⟩,
    ⟨read', ?_, hred''⟩⟩
  · show read ++ s.up.take n ++ s.up.drop n ++ s.queue.rest s.memory = s.client.passed
    rw [List.append_assoc read, List.take_append_drop]
    exact hread
  · rw [hanswered]
    exact (hred.append _).trans hred'
  · rw [AnsweringServer.written_conn h.serving hshort hstep]
    exact hread'

/-- **Every step that leaves the connection undisturbed keeps both ways in order.** -/
theorem Inv.step (h : s.Inv host parse head tail a)
    (hshort : ∀ p packet data, (parse p packet data).1.length < 2 ^ 31) {e : ExchangeEvent}
    (hgood : s.Undisturbed a e) (hstep : s.step host parse a e = some s') :
    s'.Inv host parse head tail a := by
  cases e with
  | client e =>
    obtain ⟨hpossible, heq⟩ := Option.ite_none_right_eq_some.mp hstep
    obtain ⟨client, hclient, rfl⟩ := Option.map_eq_some_iff.mp heq
    exact h.client hpossible hgood hclient
  | clientWrite n =>
    cases hstep
    exact h.clientWrite n
  | clientRead n =>
    obtain ⟨-, heq⟩ := Option.ite_none_right_eq_some.mp hstep
    obtain ⟨client, hclient, heq⟩ := Option.bind_eq_some_iff.mp heq
    obtain ⟨⟨packet, log⟩, hrecv, rfl⟩ := Option.map_eq_some_iff.mp heq
    exact h.clientRead hclient hrecv
  | server e =>
    obtain ⟨hnone, heq⟩ := Option.ite_none_right_eq_some.mp hstep
    obtain ⟨server, hserver, rfl⟩ := Option.map_eq_some_iff.mp heq
    exact h.server hshort hnone hgood hserver
  | serverRead n results =>
    obtain ⟨-, heq⟩ := Option.ite_none_right_eq_some.mp hstep
    obtain ⟨server, hserver, rfl⟩ := Option.map_eq_some_iff.mp heq
    exact h.serverRead hshort hgood hserver

/-- A new conversation: nothing has been sent, and the decoder of the server has nothing pending. -/
theorem inv_initial (pBuf : Mem UInt8) (heap : ℕ → WriteParam) (u : Indeterminate)
    {server : AnsweringServer σ} (hserving : server.Serving host parse head tail a)
    (hpending : (server.conns.heap a).packet.pending = []) (hnew : server.streams a = .new) :
    (initial pBuf heap u head tail server).Inv host parse head tail a where
  sends := SendState.inv_initial pBuf heap
  contiguous := SendState.contiguous_initial pBuf heap
  serving := hserving
  started := (PacketSync.startable_new host u head tail).start
  queued _ haddr := absurd haddr List.not_mem_nil
  upward := ⟨[], rfl, by
    show Framing.Reduces _ [] ((server.streams a).answered.map Prod.fst)
      (server.conns.heap a).packet.pending
    rw [hnew, hpending]
    exact .refl []⟩
  downward := ⟨[], by
    show [] ++ [] = (server.streams a).written
    rw [hnew]
    rfl, .refl []⟩

/-- The client takes its own steps; only a call of `Send` brings a new buffer. -/
theorem client_of_step {e : ExchangeEvent} (hstep : s.step host parse a e = some s') :
    s'.client = s.client ∨ ∃ e', s.client.step e' = some s'.client ∧
      ∀ data, e' = .send data → e = .client (.send data) := by
  cases e with
  | client e =>
    obtain ⟨-, heq⟩ := Option.ite_none_right_eq_some.mp hstep
    obtain ⟨client, hs, rfl⟩ := Option.map_eq_some_iff.mp heq
    exact .inr ⟨e, hs, fun data heq => heq ▸ rfl⟩
  | clientWrite n =>
    cases hstep
    exact .inl rfl
  | clientRead n =>
    obtain ⟨-, heq⟩ := Option.ite_none_right_eq_some.mp hstep
    obtain ⟨client, hs, heq⟩ := Option.bind_eq_some_iff.mp heq
    obtain ⟨⟨packet, log⟩, -, rfl⟩ := Option.map_eq_some_iff.mp heq
    exact .inr ⟨.afterRecv, hs, nofun⟩
  | server e =>
    obtain ⟨-, heq⟩ := Option.ite_none_right_eq_some.mp hstep
    obtain ⟨server, -, rfl⟩ := Option.map_eq_some_iff.mp heq
    exact .inl rfl
  | serverRead n results =>
    obtain ⟨-, heq⟩ := Option.ite_none_right_eq_some.mp hstep
    obtain ⟨server, -, rfl⟩ := Option.map_eq_some_iff.mp heq
    exact .inl rfl

/-- What holds of the buffers that are passed to `Send` in a run holds of all of them in the end. -/
theorem data_of_run {Q : List UInt8 → Prop} {es : List ExchangeEvent}
    (hsends : ∀ data, .client (.send data) ∈ es → Q data) (h : ∀ c ∈ s.client.sends, Q c.data)
    (hrun : run (step host parse a) s es = some s') : ∀ c ∈ s'.client.sends, Q c.data := by
  have hstep : ∀ (s : Exchange σ) (e : ExchangeEvent) (s' : Exchange σ),
      (∀ c ∈ s.client.sends, Q c.data) → (∀ data, e = .client (.send data) → Q data) →
      s.step host parse a e = some s' → ∀ c ∈ s'.client.sends, Q c.data := by
    intro s e s' h hsend hstep c hc
    rcases client_of_step hstep with heq | ⟨e', hs, he⟩
    · exact h c (heq ▸ hc)
    · rcases SendState.data_of_step hs hc with ⟨d, hd, heq⟩ | heq
      · exact heq ▸ h d hd
      · exact hsend c.data (he c.data heq)
  have hevents : ∀ e ∈ es, ∀ data, e = ExchangeEvent.client (.send data) → Q data := by
    rintro e he data rfl
    exact hsends data he
  exact run_invariant_along (I := fun s : Exchange σ => ∀ c ∈ s.client.sends, Q c.data) hstep h
    (Along.of_forall hevents) hrun

/-- What the invariant says about the frames: the server has answered a beginning of what was sent, and
the client has received a beginning of the answers. -/
theorem Inv.frames (h : s.Inv host parse head tail a)
    (hsends : ∀ c ∈ s.client.sends, (decoderFraming host head tail).Whole c.data)
    (hanswers : ∀ p packet data, (decoderFraming host head tail).Whole (parse p packet data).1) :
    (∃ order : List ℕ, order.Nodup ∧ s.client.completed <+: order ∧
      (s.server.streams a).answered.map Prod.fst <+:
        order.flatMap fun i => (decoderFraming host head tail).scan (s.client.buffer i)) ∧
    s.received <+: (s.server.streams a).answered.flatMap
      (fun p => (decoderFraming host head tail).scan p.2) ∧
    (s.Settled a →
      (s.server.streams a).answered.map Prod.fst = (s.client.completed.flatMap fun i =>
          (decoderFraming host head tail).scan (s.client.buffer i)) ∧
      s.received = (s.server.streams a).answered.flatMap
        fun p => (decoderFraming host head tail).scan p.2) := by
  obtain ⟨read, hread, hred⟩ := h.upward
  obtain ⟨read', hread', hred'⟩ := h.downward
  obtain ⟨order, hnodup, hcompleted, horder, haccepted, hall⟩ := h.contiguous.accepted_prefix
  -- nothing complete is pending in the decoders
  have hup := hred.scan_eq
  rw [h.serving.started.scan_pending, List.append_nil] at hup
  have hdown := hred'.scan_eq
  rw [h.started.scan_pending, List.append_nil] at hdown
  have hbuffers : ∀ i ∈ order, (decoderFraming host head tail).Whole (s.client.buffer i) := by
    intro i hi
    obtain ⟨c, hc⟩ := horder i hi
    rw [SendState.buffer, hc, Option.map_some, Option.getD_some]
    exact hsends c (List.mem_of_getElem? hc)
  have hparsed : ∀ p ∈ (s.server.streams a).answered, (decoderFraming host head tail).Whole p.2 := by
    intro p hp
    obtain ⟨st, heq⟩ := h.serving.parsed a p hp
    exact heq ▸ hanswers st p.1.1 p.1.2
  have hledger := h.sends.ledger
  have haccounted : (s.server.streams a).written ++ (s.server.streams a).queue.rest s.server.memory =
    (s.server.streams a).answered.flatMap Prod.snd := h.serving.accounted
  refine ⟨⟨order, hnodup, hcompleted, ?_⟩, ?_, fun hsettled => ⟨?_, ?_⟩⟩
  · rw [← hup, ← Framing.scan_flatMap hbuffers]
    refine Framing.scan_prefix (List.IsPrefix.trans ?_ haccepted)
    rw [← hledger, ← hread, List.append_assoc, List.append_assoc, List.append_assoc]
    exact List.prefix_append _ _
  · rw [← hdown, ← Framing.scan_flatMap hparsed]
    refine Framing.scan_prefix ?_
    rw [← haccounted, ← hread', List.append_assoc]
    exact List.prefix_append _ _
  · obtain ⟨rfl, hacc⟩ := hall hsettled.complete
    have hcontent := PodCircularBuffer.content_of_empty hsettled.empty
    have hrest : s.queue.rest s.memory = [] := by rw [WriteQueue.rest, hsettled.queue, List.flatMap_nil]
    rw [SendState.inHand, hsettled.loop, hcontent, List.append_nil, List.append_nil, hacc] at hledger
    rw [hrest, hsettled.up, List.append_nil, List.append_nil, hledger] at hread
    rw [← hup, ← Framing.scan_flatMap hbuffers, hread]
  · have hrest : (s.server.streams a).queue.rest s.server.memory = [] := by
      rw [WriteQueue.rest, hsettled.answers, List.flatMap_nil]
    rw [hsettled.down, List.append_nil] at hread'
    rw [hrest, List.append_nil, ← hread'] at haccounted
    rw [← hdown, ← Framing.scan_flatMap hparsed, haccounted]

end Exchange

/-- What `PacketData` returns for a list of messages is whole frames. -/
theorem whole_messageBytes (host : Host) {head tail : UInt8} (hlt : tail.toNat < 128)
    (messages : List (Message head tail)) :
    (decoderFraming host head tail).Whole (messageBytes host messages) :=
  Framing.whole_of_reduces (reduces_messageBytes hlt messages)

namespace Exchange

variable {σ : Type*} {host : Host} {parse : ParsePacket σ} {head tail : UInt8}

/-- **The invariant of a conversation**: a server has run in any way and accepts the connection, and the
connection stands. -/
theorem inv_of_run (hshort : ∀ p packet data, (parse p packet data).1.length < 2 ^ 31)
    {pBuf : Mem UInt8} {heap heap' : ℕ → WriteParam} {u u' : Indeterminate} {protocol : σ}
    {es₁ : List AnsweringEvent} {s₁ server : AnsweringServer σ} {addr a : ℕ}
    (hrun₁ : run (AnsweringServer.step host parse) (.initial head tail heap' protocol) es₁ = some s₁)
    (haccept : s₁.step host parse (.conn (.acceptConnection 0 default addr u') []) = some server)
    (ha : s₁.conns.takenAddr addr = a) (hfresh : (s₁.conns.takenCtx u').packet.pending = [])
    {es : List ExchangeEvent} {s : Exchange σ}
    (hgood : Along (step host parse a) (Undisturbed a) (initial pBuf heap u head tail server) es)
    (hrun : run (step host parse a) (initial pBuf heap u head tail server) es = some s) :
    s.Inv host parse head tail a := by
  have hinv₁ : s₁.Inv host parse head tail :=
    run_invariant (fun _ _ _ h hstep => AnsweringServer.Inv.step h hshort hstep)
      (AnsweringServer.inv_initial host parse head tail heap' protocol) hrun₁
  obtain ⟨hserving, hpending, hnew⟩ := hinv₁.serving_connected haccept
  rw [ha] at hserving hpending hnew
  exact run_invariant_along (fun _ _ _ h hgood hstep => Inv.step h hshort hgood hstep)
    (inv_initial pBuf heap u hserving (hpending.trans hfresh) hnew) hgood hrun

end Exchange

/-- **A conversation keeps its order.** A server has run in any way and accepts a connection on a context
whose decoder has nothing pending. The threads of the client send buffers of whole frames, and the
protocol answers with whole frames. In every run of both sides in which the connection stands and no
buffer is torn by another thread: the packets answered by the server are a beginning of those of the
buffers, in the order in which the calls of `Send` were completed, and the packets received by the client
are a beginning of the answers; when nothing is under way any more, they are all of them. -/
theorem conversation_in_order {σ : Type*} (host : Host) (parse : ParsePacket σ) (head tail : UInt8)
    (hshort : ∀ p packet data, (parse p packet data).1.length < 2 ^ 31)
    (hanswers : ∀ p packet data, (decoderFraming host head tail).Whole (parse p packet data).1)
    (pBuf : Mem UInt8) (heap heap' : ℕ → WriteParam) (u u' : Indeterminate) (protocol : σ)
    (es₁ : List AnsweringEvent) (s₁ server : AnsweringServer σ) (addr a : ℕ)
    (hrun₁ : run (AnsweringServer.step host parse) (.initial head tail heap' protocol) es₁ = some s₁)
    (haccept : s₁.step host parse (.conn (.acceptConnection 0 default addr u') []) = some server)
    (ha : s₁.conns.takenAddr addr = a) (hfresh : (s₁.conns.takenCtx u').packet.pending = [])
    (es : List ExchangeEvent) (s : Exchange σ)
    (hsends : ∀ data, .client (.send data) ∈ es → (decoderFraming host head tail).Whole data)
    (hgood : Along (Exchange.step host parse a) (Exchange.Undisturbed a)
      (.initial pBuf heap u head tail server) es)
    (hrun : run (Exchange.step host parse a) (.initial pBuf heap u head tail server) es = some s) :
    (∃ order : List ℕ, order.Nodup ∧ s.client.completed <+: order ∧
      (s.server.streams a).answered.map Prod.fst <+:
        order.flatMap fun i => (decoderFraming host head tail).scan (s.client.buffer i)) ∧
    s.received <+: (s.server.streams a).answered.flatMap
      (fun p => (decoderFraming host head tail).scan p.2) ∧
    (s.Settled a →
      (s.server.streams a).answered.map Prod.fst = (s.client.completed.flatMap fun i =>
          (decoderFraming host head tail).scan (s.client.buffer i)) ∧
      s.received = (s.server.streams a).answered.flatMap
        fun p => (decoderFraming host head tail).scan p.2) := by
  have hinv := Exchange.inv_of_run hshort hrun₁ haccept ha hfresh hgood hrun
  have hwhole := Exchange.data_of_run hsends (fun c hc => absurd hc List.not_mem_nil) hrun
  exact hinv.frames hwhole hanswers

/-- A protocol that answers every packet with the same message. -/
def constantAnswer : ParsePacket Unit := fun _ _ _ => (messageBytes .little [headTailMessage], ())

/-- One message there and one back, in pieces. -/
theorem conversation_in_order_one_message :
    ∃ s : Exchange Unit, s.Settled 7 ∧
      (s.server.streams 7).answered.map Prod.fst = (s.client.completed.flatMap fun i =>
        (decoderFraming .little 1 2).scan (s.client.buffer i)) ∧
      s.received = (s.server.streams 7).answered.flatMap
        fun p => (decoderFraming .little 1 2).scan p.2 := by
  let accept : AnsweringEvent := .conn (.acceptConnection 0 default 7 default) []
  let s₁ : AnsweringServer Unit := .initial 1 2 (fun _ => allocWriteParam fun _ => 0) ()
  let start (server : AnsweringServer Unit) : Exchange Unit :=
    .initial (fun _ => 0) (fun _ => allocWriteParam fun _ => 0) default 1 2 server
  let es : List ExchangeEvent := [.client (.send (messageBytes .little [headTailMessage])),
    .client (.sendCheck 0), .client (.sendWrite 0), .client .asyncCB,
    .client (.drainRead 5 fun _ => 0), .client (.uvWrite 0), .clientWrite 20, .serverRead 15 [],
    .clientWrite 100, .serverRead 26 [⟨9, fun _ => 0, 0⟩], .client (.drainRead 6 fun _ => 0),
    .server (.write 7 60), .clientRead 41, .client (.drainRead 6 fun _ => 0)]
  have hall : ((s₁.step .little constantAnswer accept).bind fun server =>
      (run (Exchange.step .little constantAnswer 7) (start server) es).map fun s =>
        decide (Along (Exchange.step .little constantAnswer 7) (Exchange.Undisturbed 7) (start server)
          es ∧ (∀ c ∈ s.client.sends, ¬ c.Midway) ∧ s.client.loop = .idle ∧
          s.client.writeCircularbuf.empty = true ∧ s.queue.requests = [] ∧ s.up = [] ∧
          (s.server.streams 7).queue.requests = [] ∧ s.down = [])) = some true := by
    decide +kernel
  obtain ⟨server, hserver, hs⟩ := Option.bind_eq_some_iff.mp hall
  obtain ⟨s, hrun, hend⟩ := Option.map_eq_some_iff.mp hs
  obtain ⟨hgood, h₁, h₂, h₃, h₄, h₅, h₆, h₇⟩ := of_decide_eq_true hend
  have hsettled : s.Settled 7 := ⟨h₁, h₂, h₃, h₄, h₅, h₆, h₇⟩
  have hlt : (2 : UInt8).toNat < 128 := by decide
  have hlength : (messageBytes .little [headTailMessage]).length = 41 := by decide +kernel
  have hconv := conversation_in_order .little constantAnswer 1 2
    (fun _ _ _ => by
      show (messageBytes .little [headTailMessage]).length < 2 ^ 31
      omega)
    (fun _ _ _ => whole_messageBytes .little hlt [headTailMessage]) _ _ _ default default () [] s₁ server
    7 7 rfl hserver rfl rfl es s
    (fun data hdata => by
      simp only [es, List.mem_cons, ExchangeEvent.client.injEq, SendEvent.send.injEq, reduceCtorEq,
        or_false, List.not_mem_nil] at hdata
      exact hdata ▸ whole_messageBytes .little hlt [headTailMessage]) hgood hrun
  exact ⟨s, hsettled, hconv.2.2 hsettled⟩

end MyUvpp
