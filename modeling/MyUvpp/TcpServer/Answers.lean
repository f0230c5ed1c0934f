import MyUvpp.Foundation.WriteQueue
import MyUvpp.TcpServer.ConnectionStreams
import MyUvpp.TcpServer.SendPath

/-! # The answers of a server (`tcpserver.cpp`)

`GetPacket`, which the decoder of a connection calls for every frame, passes the frame to `ParsePacket` of
the protocol and the answer to `sendinl`. The answers to all connections go through the same write
requests, whose buffers are written to the sockets later. For every connection the bytes on the socket and
those still to be written are the answers to its own frames, in their order. -/

namespace MyUvpp

/-- `TCPServerProtocolProcess::ParsePacket`: the answer to a packet and its data. A protocol may have a
state; there is one protocol for all connections. -/
abbrev ParsePacket (σ : Type*) := σ → NetPacket → List UInt8 → List UInt8 × σ

/-- The stream of a context, from `uv_tcp_init` on. -/
structure ClientStream where
  /-- The write requests that libuv has not written entirely. -/
  queue : WriteQueue ℕ
  /-- The bytes written to the socket. -/
  written : List UInt8
  /-- The frames passed to `GetPacket`, each with its answer. -/
  answered : List ((NetPacket × List UInt8) × List UInt8)

/-- A new stream, with nothing queued, answered or sent. -/
def ClientStream.new : ClientStream := ⟨.empty, [], []⟩

/-- A server that answers: its connections, its write requests, its protocol, and the streams. -/
structure AnsweringServer (σ : Type*) where
  conns : TCPServer
  send : ServerSendState
  /-- The state of `protocol_`. -/
  protocol : σ
  /-- The stream of the context at each address. -/
  streams : ℕ → ClientStream

/-- What may happen next: an event of the connections, or libuv writes and reports. -/
inductive AnsweringEvent where
  /-- An event of the connections, and what the calls of `sendinl` receive that answer its frames. -/
  | conn (e : ServerEvent) (results : List SendResult)
  /-- libuv writes at most `n` bytes to the socket of the context at an address. -/
  | write (client n : ℕ)
  | afterSend (addr : ℕ) (status : ℤ)

namespace AnsweringServer

variable {σ : Type*}

/-- A new server, which has no connections and has answered nothing. -/
def initial (packhead packtail : UInt8) (heap : ℕ → WriteParam) (protocol : σ) : AnsweringServer σ where
  conns := .new packhead packtail
  send := .initial heap
  protocol
  streams _ := .new

/-- The bytes that each write request is to send. -/
def memory (s : AnsweringServer σ) (addr : ℕ) : List UInt8 := (s.send.heap addr).bytes

/-- Assign to the stream of the context at an address. -/
def setStream (s : AnsweringServer σ) (client : ℕ) (stream : ClientStream) : AnsweringServer σ :=
  { s with streams := Function.update s.streams client stream }

/-- `GetPacket`: the answer of the protocol goes to `sendinl`, and a request that `uv_write` has accepted
to the stream of the client. -/
def getPacket (parse : ParsePacket σ) (s : AnsweringServer σ) (client : ℕ)
    (frame : NetPacket × List UInt8) (r : SendResult) : Option (AnsweringServer σ) :=
  let (senddata, protocol) := parse s.protocol frame.1 frame.2
  (s.send.sendinl senddata client r).map fun (_, send) =>
    let accepted := (send.inFlight.drop s.send.inFlight.length).map Prod.fst
    let stream := s.streams client
    { s with send, protocol }.setStream client
      { stream with
        queue := stream.queue.push accepted
        answered := stream.answered ++ [(frame, senddata)] }

/-- `GetPacket` for the frames of one call of `recvdata`, each with what its `sendinl` receives. It does
nothing to the decoder, so that it may be called when the decoder is done. -/
def getPackets (parse : ParsePacket σ) : AnsweringServer σ → List (ℕ × NetPacket × List UInt8) →
    List SendResult → Option (AnsweringServer σ)
  | s, [], [] => some s
  | s, (client, frame) :: frames, r :: results =>
    (s.getPacket parse client frame r).bind fun s => getPackets parse s frames results
  | _, _, _ => none

/-- The write queues as an event of the connections leaves them: `AcceptConnection` initialises the
handle of the context that it takes. -/
def initStream (s : AnsweringServer σ) : ServerEvent → AnsweringServer σ
  | .acceptConnection status _ addr _ =>
    if status ≠ 0 then s else s.setStream (s.conns.takenAddr addr) .new
  | _ => s

/-- libuv reports the write requests of a handle before its close callback. -/
def Reported (s : AnsweringServer σ) : ServerEvent → Prop
  | .tcpClosed addr => ∀ p ∈ s.send.inFlight, p.2 ≠ addr
  | _ => True

/-- Whether a closed handle had its writes reported can be looked up in the writes in flight. -/
instance (s : AnsweringServer σ) (e : ServerEvent) : Decidable (s.Reported e) :=
  match e with
  | .tcpClosed addr => inferInstanceAs (Decidable (∀ p ∈ s.send.inFlight, p.2 ≠ addr))
  | .acceptConnection .. | .afterRecv .. => inferInstanceAs (Decidable True)

/-- One step of the event loop; there is none where the event cannot occur. -/
def step (host : Host) (parse : ParsePacket σ) (s : AnsweringServer σ) :
    AnsweringEvent → Option (AnsweringServer σ)
  | .conn e results =>
    if s.Reported e then
      (s.conns.step host e).bind fun conns =>
        { s.initStream e with conns }.getPackets parse (conns.received.drop s.conns.received.length)
          results
    else none
  | .write client n =>
    if (s.conns.heap client).tcphandle.state = .opened then
      let stream := s.streams client
      let (bytes, queue) := stream.queue.write s.memory n
      some (s.setStream client { stream with queue, written := stream.written ++ bytes })
    else none
  | .afterSend addr status =>
    (s.send.inFlight.find? (·.1 = addr)).bind fun (_, client) =>
      let stream := s.streams client
      -- only a request that has been written can have succeeded
      if addr ∈ stream.queue.waiting ∧ 0 ≤ status then none
      else some ({ s with send := s.send.afterSend addr }.setStream client
        { stream with queue := stream.queue.remove addr })

end AnsweringServer

/-! ### What `sendinl` leaves in the buffers -/

namespace ServerSendState

variable {s s' : ServerSendState} {addr : ℕ}

/-- Filling a request changes its buffer, which then holds the message. -/
theorem fillParam_heap (s : ServerSendState) (addr : ℕ) (senddata : List UInt8) :
    ((s.fillParam addr senddata).heap addr).bytes = senddata ∧
      ∀ a, a ≠ addr → (s.fillParam addr senddata).heap a = s.heap a := by
  rw [fillParam]
  constructor
  · split
    simp only [Function.update_self, WriteParam.bytes]
    exact Mem.read_write _ _ _ rfl
  · intro a ha
    split
    exact Function.update_of_ne ha _ _

/-- The request that is taken is not in flight, and the requests in flight stay as they are. -/
theorem takeParam_heap (h : s.Inv) {r : SendResult} (htake : s.takeParam r = some (addr, s')) :
    addr ∉ s.inFlight.map Prod.fst ∧ s'.inFlight = s.inFlight ∧
      ∀ a, a ≠ addr → s'.heap a = s.heap a := by
  rw [takeParam] at htake
  split at htake
  case h_1 hlist =>
    obtain ⟨hnew, heq⟩ := Option.ite_none_left_eq_some.mp htake
    cases heq
    refine ⟨fun hmem => hnew ?_, rfl, fun a ha => Function.update_of_ne ha _ _⟩
    exact RequestPool.mem_owned.mpr (.inr (.inr hmem))
  case h_2 a as hlist =>
    cases htake
    refine ⟨fun hmem => ?_, rfl, fun _ _ => rfl⟩
    -- it would be in the list and in flight
    have hnodup := h.requests.nodup
    rw [RequestPool.owned, List.append_assoc] at hnodup
    have hdisjoint := List.disjoint_of_nodup_append hnodup.of_append_right
    exact hdisjoint (show addr ∈ s.writeparamList from hlist ▸ List.mem_cons_self) hmem

/-- **What a call of `sendinl` adds**: at most one request, for the client and with the message as its
bytes. The requests that were in flight keep theirs. -/
theorem sendinl_requests (h : s.Inv) {senddata : List UInt8} {client : ℕ} {r : SendResult} {b : Bool}
    (hsend : s.sendinl senddata client r = some (b, s')) :
    ∃ new : List ℕ, s'.inFlight = s.inFlight ++ new.map (·, client) ∧
      new.flatMap (fun a => (s'.heap a).bytes) = (if r.iret = 0 then senddata else []) ∧
      ∀ a ∈ s.inFlight.map Prod.fst, s'.heap a = s.heap a := by
  rw [sendinl] at hsend
  split at hsend
  case isTrue hempty =>
    cases hsend
    rw [List.length_eq_zero_iff.mp hempty, ite_self]
    exact ⟨[], (List.append_nil _).symm, rfl, fun _ _ => rfl⟩
  case isFalse =>
    obtain ⟨⟨addr, s₁⟩, htake, heq⟩ := Option.map_eq_some_iff.mp hsend
    obtain ⟨hnot, hflight, hheap₁⟩ := takeParam_heap h htake
    obtain ⟨hbytes, hheap₂⟩ := fillParam_heap s₁ addr senddata
    have hkept : ∀ a ∈ s.inFlight.map Prod.fst, (s₁.fillParam addr senddata).heap a = s.heap a := by
      intro a ha
      have hne : a ≠ addr := ne_of_mem_of_not_mem ha hnot
      rw [hheap₂ a hne, hheap₁ a hne]
    dsimp only at heq
    rw [uvWrite] at heq
    split at heq
    case isTrue hiret =>
      cases heq
      rw [if_neg hiret]
      exact ⟨[], by rw [← hflight]; exact (List.append_nil _).symm, rfl, hkept⟩
    case isFalse hiret =>
      cases heq
      rw [if_pos (not_not.mp hiret)]
      refine ⟨[addr], by rw [← hflight]; rfl, ?_, hkept⟩
      rw [List.flatMap_singleton]
      exact hbytes

end ServerSendState

namespace AnsweringServer

variable {σ : Type*} {host : Host} {head tail : UInt8} {parse : ParsePacket σ}

/-- The connections, their decoders and the write requests are in order, and a request waits for the
client only for which it is in flight. -/
structure Inv (host : Host) (parse : ParsePacket σ) (head tail : UInt8) (s : AnsweringServer σ) :
    Prop where
  pool : s.conns.PoolInv
  decoders : s.conns.DecoderInv host head tail
  requests : s.send.Inv
  writep : s.send.writep = none
  queued : ∀ client, ∀ a ∈ (s.streams client).queue.waiting, (a, client) ∈ s.send.inFlight
  /-- Answers come from the protocol. -/
  parsed : ∀ client, ∀ p ∈ (s.streams client).answered, ∃ st, p.2 = (parse st p.1.1 p.1.2).1

/-- A server without connections has no answers and no frames. -/
theorem inv_initial (host : Host) (parse : ParsePacket σ) (head tail : UInt8)
    (heap : ℕ → WriteParam) (protocol : σ) :
    (initial head tail heap protocol).Inv host parse head tail where
  pool := TCPServer.poolInv_new head tail
  decoders := TCPServer.decoderInv_new host head tail
  requests := ServerSendState.inv_initial heap
  writep := rfl
  queued _ _ ha := absurd ha List.not_mem_nil
  parsed _ _ hp := absurd hp List.not_mem_nil

/-- The frames among those of all clients that come from one of them. -/
def framesOn (client : ℕ) (frames : List (ℕ × NetPacket × List UInt8)) : List (NetPacket × List UInt8) :=
  frames.filterMap fun (c, frame) => if c = client then some frame else none

/-- One more frame in front counts for its own client only. -/
theorem framesOn_cons (client c : ℕ) (frame : NetPacket × List UInt8)
    (frames : List (ℕ × NetPacket × List UInt8)) :
    framesOn client ((c, frame) :: frames) =
      (if c = client then [frame] else []) ++ framesOn client frames := by
  by_cases hc : c = client <;> simp [framesOn, hc]

/-- The bytes on the socket of a client and those still to be written are its answers. -/
def Accounted (s : AnsweringServer σ) (client : ℕ) : Prop :=
  (s.streams client).written ++ (s.streams client).queue.rest s.memory =
    (s.streams client).answered.flatMap Prod.snd

section Steps

variable {s s' : AnsweringServer σ} {client : ℕ}

/-- A request in flight belongs to one client. -/
theorem Inv.owner_unique (h : s.Inv host parse head tail) {a c c' : ℕ} (hc : (a, c) ∈ s.send.inFlight)
    (hc' : (a, c') ∈ s.send.inFlight) : c = c' := by
  have hnodup : (s.send.inFlight.map Prod.fst).Nodup := by
    have howned := h.requests.requests.nodup
    rw [RequestPool.owned] at howned
    exact howned.of_append_right
  exact (Prod.mk.inj (List.inj_on_of_nodup_map hnodup hc hc' rfl)).2

/-- The stream just set is the one found. -/
theorem streams_setStream (s : AnsweringServer σ) (client : ℕ) (stream : ClientStream) :
    (s.setStream client stream).streams client = stream := Function.update_self _ _ _

/-- Setting the stream of one client leaves those of the others. -/
theorem streams_setStream_of_ne (s : AnsweringServer σ) {client c : ℕ} (hc : c ≠ client)
    (stream : ClientStream) : (s.setStream client stream).streams c = s.streams c :=
  Function.update_of_ne hc _ _

/-! ### Answering -/

/-- **What `GetPacket` does**: the answer is recorded, a request with its bytes may be put behind the
others of the client, and nothing else changes that is still to be written. -/
theorem getPacket_spec (h : s.Inv host parse head tail)
    (hshort : ∀ p packet data, (parse p packet data).1.length < 2 ^ 31)
    {frame : NetPacket × List UInt8} {r : SendResult}
    (hget : s.getPacket parse client frame r = some s') :
    s'.Inv host parse head tail ∧ s'.conns = s.conns ∧
      (∀ a ∈ s.send.inFlight.map Prod.fst, s'.memory a = s.memory a) ∧
      ∃ new : List ℕ, s'.streams = Function.update s.streams client
          ⟨(s.streams client).queue.push new, (s.streams client).written,
            (s.streams client).answered ++ [(frame, (parse s.protocol frame.1 frame.2).1)]⟩ ∧
        new.flatMap s'.memory =
          if r.iret = 0 then (parse s.protocol frame.1 frame.2).1 else [] := by
  obtain ⟨⟨b, send⟩, hsend, rfl⟩ := Option.map_eq_some_iff.mp hget
  obtain ⟨hinv, hwritep⟩ :=
    ServerSendState.sendinl_inv h.requests h.writep (hshort s.protocol frame.1 frame.2) hsend
  obtain ⟨new, hflight, hbytes, hkept⟩ := ServerSendState.sendinl_requests h.requests hsend
  have hnew : (send.inFlight.drop s.send.inFlight.length).map Prod.fst = new := by
    rw [hflight, List.drop_left, List.map_map]
    exact List.map_id new
  refine ⟨⟨h.pool, h.decoders, hinv, hwritep, fun c a ha => ?_, fun c p hp => ?_⟩, rfl, fun a ha => ?_,
    new, ?_, hbytes⟩
  · show (a, c) ∈ send.inFlight
    rw [hflight]
    by_cases hc : c = client
    · subst hc
      rw [streams_setStream, WriteQueue.waiting_push, hnew] at ha
      rcases List.mem_append.mp ha with ha | ha
      · exact List.mem_append_left _ (h.queued c a ha)
      · exact List.mem_append_right _ (List.mem_map_of_mem ha)
    · rw [streams_setStream_of_ne _ hc] at ha
      exact List.mem_append_left _ (h.queued c a ha)
  · by_cases hc : c = client
    · subst hc
      rw [streams_setStream] at hp
      rcases List.mem_append.mp hp with hp | hp
      · exact h.parsed c p hp
      · rw [List.mem_singleton.mp hp]
        exact ⟨s.protocol, rfl⟩
    · rw [streams_setStream_of_ne _ hc] at hp
      exact h.parsed c p hp
  · exact congrArg WriteParam.bytes (hkept a ha)
  · rw [← hnew]
    rfl

/-- What is still to be written for a client does not change with the buffers of other requests. -/
theorem Inv.rest_congr (h : s.Inv host parse head tail)
    (hmem : ∀ a ∈ s.send.inFlight.map Prod.fst, s'.memory a = s.memory a) (c : ℕ) :
    (s.streams c).queue.rest s'.memory = (s.streams c).queue.rest s.memory :=
  WriteQueue.rest_congr fun a ha => hmem a (List.mem_map_of_mem (h.queued c a ha))

/-- An answer to another client, or one that `uv_write` accepts, is accounted for. -/
theorem Accounted.getPacket {a : ℕ} (hacc : s.Accounted a) (h : s.Inv host parse head tail)
    (hshort : ∀ p packet data, (parse p packet data).1.length < 2 ^ 31)
    {frame : NetPacket × List UInt8} {r : SendResult} (hok : client = a → r.iret = 0)
    (hget : s.getPacket parse client frame r = some s') : s'.Accounted a := by
  obtain ⟨-, -, hmem, new, hstreams, hbytes⟩ := getPacket_spec h hshort hget
  have hrest := h.rest_congr hmem a
  rw [Accounted, hstreams]
  by_cases ha : a = client
  · subst ha
    rw [if_pos (hok rfl)] at hbytes
    rw [Function.update_self]
    simp only
    rw [WriteQueue.rest_push, hrest, hbytes, ← List.append_assoc, hacc, List.flatMap_append,
      List.flatMap_singleton]
  · rw [Function.update_of_ne ha, hrest]
    exact hacc

/-- The frames of one call of `recvdata` are answered one after the other. -/
theorem getPackets_spec (h : s.Inv host parse head tail)
    (hshort : ∀ p packet data, (parse p packet data).1.length < 2 ^ 31)
    {frames : List (ℕ × NetPacket × List UInt8)} {results : List SendResult}
    (hget : s.getPackets parse frames results = some s') :
    s'.Inv host parse head tail ∧ s'.conns = s.conns ∧
      ∀ a, (s'.streams a).written = (s.streams a).written ∧
        (s'.streams a).answered.map Prod.fst = (s.streams a).answered.map Prod.fst ++
          framesOn a frames ∧
        ((∀ f ∈ frames, f.1 = a → ∀ r ∈ results, r.iret = 0) → s.Accounted a → s'.Accounted a) := by
  -- on the frames that are left
  induction frames generalizing s results with
  | nil =>
    cases results with
    | nil =>
      cases hget
      exact ⟨h, rfl, fun a => ⟨rfl, (List.append_nil _).symm, fun _ hacc => hacc⟩⟩
    | cons r results => cases hget
  | cons f frames ih =>
    obtain ⟨c, frame⟩ := f
    cases results with
    | nil => cases hget
    | cons r results =>
      obtain ⟨s₁, hs₁, hrest⟩ := Option.bind_eq_some_iff.mp hget
      obtain ⟨hinv₁, hconns₁, -, new, hstreams, -⟩ := getPacket_spec h hshort hs₁
      obtain ⟨hinv, hconns, hall⟩ := ih hinv₁ hrest
      refine ⟨hinv, hconns.trans hconns₁, fun a => ⟨?_, ?_, fun hok hacc => ?_⟩⟩
      · rw [(hall a).1, hstreams]
        by_cases ha : a = c
        · rw [ha, Function.update_self]
        · rw [Function.update_of_ne ha]
      · rw [(hall a).2.1, hstreams, framesOn_cons]
        by_cases ha : c = a
        · subst ha
          rw [Function.update_self, if_pos rfl, List.map_append, List.append_assoc]
          rfl
        · rw [Function.update_of_ne (Ne.symm ha), if_neg ha, List.nil_append]
      · refine (hall a).2.2 (fun f hf hfa r hr => ?_) (hacc.getPacket h hshort (fun hca => ?_) hs₁)
        · exact hok f (List.mem_cons_of_mem _ hf) hfa r (List.mem_cons_of_mem _ hr)
        · exact hok (c, frame) List.mem_cons_self hca r List.mem_cons_self

/-! ### Steps -/

/-- A context that is taken for a new connection serves no client. -/
theorem takenAddr_ne {t : TCPServer} (h : t.PoolInv) {addr a : ℕ} (haddr : addr ∉ t.live)
    (ha : a ∈ t.handles) : t.takenAddr addr ≠ a := by
  have hnodup := List.nodup_cons.mp (h.nodup_taken haddr)
  rintro rfl
  exact hnodup.1 (List.mem_append_right _ ha)

/-- The connections only add to the frames that they have received. -/
theorem received_prefix {t t' : TCPServer} (h : t.PoolInv) {e : ServerEvent}
    (hstep : t.step host e = some t') : t.received <+: t'.received := by
  cases e with
  | acceptConnection status r addr u =>
    obtain ⟨-, rfl⟩ := TCPServer.step_acceptConnection hstep
    rcases TCPServer.acceptConnection_cases t status r addr u with heq | heq | heq | heq | heq <;>
      rw [heq] <;> exact List.prefix_refl _
  | afterRecv addr nread =>
    obtain ⟨-, ⟨-, c, -, -, rfl⟩ | ⟨-, rfl⟩ | ⟨data, packet, log, -, -, rfl⟩⟩ :=
      h.step_afterRecv hstep
    · rw [TCPServer.closeAcceptClient]
      split <;> exact List.prefix_refl _
    · exact List.prefix_refl _
    · exact List.prefix_append _ _
  | tcpClosed addr =>
    obtain ⟨cb, -, -, rfl⟩ := TCPServer.step_tcpClosed hstep
    obtain ⟨live, avaiTcphandle, clientsList, heq⟩ := TCPServer.tcpClosed_eq t addr cb
    rw [heq]
    exact List.prefix_refl _

/-- The frames that a read adds come from the connection that is read, and no other event adds any. -/
theorem fst_of_mem_new {t t' : TCPServer} (h : t.PoolInv) {e : ServerEvent}
    (hstep : t.step host e = some t') {f : ℕ × NetPacket × List UInt8}
    (hf : f ∈ t'.received.drop t.received.length) : ∃ nread, e = .afterRecv f.1 nread := by
  have hnone : t'.received = t.received → f ∉ t'.received.drop t.received.length := fun heq => by
    rw [heq, List.drop_length]
    exact List.not_mem_nil
  cases e with
  | acceptConnection status r addr u =>
    obtain ⟨-, rfl⟩ := TCPServer.step_acceptConnection hstep
    refine absurd hf (hnone ?_)
    rcases TCPServer.acceptConnection_cases t status r addr u with heq | heq | heq | heq | heq <;>
      rw [heq] <;> rfl
  | afterRecv addr nread =>
    obtain ⟨-, ⟨-, c, -, -, rfl⟩ | ⟨-, rfl⟩ | ⟨data, packet, log, -, -, rfl⟩⟩ :=
      h.step_afterRecv hstep
    · refine absurd hf (hnone ?_)
      rw [TCPServer.closeAcceptClient]
      split <;> rfl
    · exact absurd hf (hnone rfl)
    · have hdrop : (t.fed addr packet (frames log)).received.drop t.received.length =
          (frames log).map (addr, ·) := List.drop_left
      rw [hdrop] at hf
      obtain ⟨frame, -, rfl⟩ := List.mem_map.mp hf
      exact ⟨nread, rfl⟩
  | tcpClosed addr =>
    obtain ⟨cb, -, -, rfl⟩ := TCPServer.step_tcpClosed hstep
    obtain ⟨live, avaiTcphandle, clientsList, heq⟩ := TCPServer.tcpClosed_eq t addr cb
    refine absurd hf (hnone ?_)
    rw [heq]
    rfl

/-- A stream that is initialised has nothing to write. -/
theorem Inv.initStream (h : s.Inv host parse head tail) (e : ServerEvent) :
    (s.initStream e).Inv host parse head tail := by
  cases e with
  | acceptConnection status r addr u =>
    rw [AnsweringServer.initStream]
    split
    case isTrue => exact h
    case isFalse =>
      refine ⟨h.pool, h.decoders, h.requests, h.writep, fun c => ?_, fun c => ?_⟩ <;>
        by_cases hc : c = s.conns.takenAddr addr
      · rw [hc, streams_setStream]
        exact fun a ha => absurd ha List.not_mem_nil
      · rw [streams_setStream_of_ne _ hc]
        exact h.queued c
      · rw [hc, streams_setStream]
        exact fun p hp => absurd hp List.not_mem_nil
      · rw [streams_setStream_of_ne _ hc]
        exact h.parsed c
  | afterRecv addr nread => exact h
  | tcpClosed addr => exact h

/-- What a step of the connections leads to. -/
theorem step_conn {e : ServerEvent} {results : List SendResult}
    (hstep : s.step host parse (.conn e results) = some s') :
    s.Reported e ∧ ∃ conns, s.conns.step host e = some conns ∧
      AnsweringServer.getPackets parse { s.initStream e with conns }
        (conns.received.drop s.conns.received.length) results = some s' := by
  obtain ⟨hreported, hbind⟩ := Option.ite_none_right_eq_some.mp hstep
  obtain ⟨conns, hconns, hget⟩ := Option.bind_eq_some_iff.mp hbind
  exact ⟨hreported, conns, hconns, hget⟩

/-- What a write callback does: its write was in flight, a waiting write is reported with an error only, and
the parameter goes back to the pool. -/
theorem step_afterSend {addr : ℕ} {status : ℤ}
    (hstep : s.step host parse (.afterSend addr status) = some s') :
    ∃ client, (addr, client) ∈ s.send.inFlight ∧
      (addr ∈ (s.streams client).queue.waiting → status < 0) ∧
      s' = { s with send := s.send.afterSend addr }.setStream client
        { s.streams client with queue := (s.streams client).queue.remove addr } := by
  obtain ⟨⟨a, client⟩, hfind, heq⟩ := Option.bind_eq_some_iff.mp hstep
  have hfound := List.find?_some hfind
  have ha : a = addr := of_decide_eq_true hfound
  obtain ⟨hnot, heq⟩ := Option.ite_none_left_eq_some.mp heq
  refine ⟨client, ha ▸ List.mem_of_find?_eq_some hfind, fun hwait => ?_, (Option.some.inj heq).symm⟩
  by_contra hstatus
  exact hnot ⟨hwait, not_lt.mp hstatus⟩

/-- The invariant of the connections under one of their events. -/
theorem Inv.withConns (h : s.Inv host parse head tail) {e : ServerEvent} {conns : TCPServer}
    (hconns : s.conns.step host e = some conns) :
    Inv host parse head tail { s.initStream e with conns } := by
  have hinit := h.initStream e
  exact ⟨h.pool.step hconns, h.decoders.step h.pool hconns, hinit.requests, hinit.writep, hinit.queued,
    hinit.parsed⟩

/-- **Every step keeps the invariant.** -/
theorem Inv.step (h : s.Inv host parse head tail)
    (hshort : ∀ p packet data, (parse p packet data).1.length < 2 ^ 31) {e : AnsweringEvent}
    (hstep : s.step host parse e = some s') : s'.Inv host parse head tail := by
  cases e with
  | conn e results =>
    obtain ⟨-, conns, hconns, hget⟩ := step_conn hstep
    exact (getPackets_spec (h.withConns hconns) hshort hget).1
  | write client n =>
    obtain ⟨-, heq⟩ := Option.ite_none_right_eq_some.mp hstep
    cases heq
    refine ⟨h.pool, h.decoders, h.requests, h.writep, fun c => ?_, fun c => ?_⟩ <;>
      by_cases hc : c = client
    · rw [hc, streams_setStream]
      exact fun a ha => h.queued client a (WriteQueue.waiting_write_subset _ _ _ ha)
    · rw [streams_setStream_of_ne _ hc]
      exact h.queued c
    · rw [hc, streams_setStream]
      exact h.parsed client
    · rw [streams_setStream_of_ne _ hc]
      exact h.parsed c
  | afterSend addr status =>
    obtain ⟨client, hmem, -, rfl⟩ := step_afterSend hstep
    obtain ⟨hrequests, hwritep⟩ := ServerSendState.afterSend_inv h.requests h.writep
      (List.mem_map_of_mem hmem)
    refine ⟨h.pool, h.decoders, hrequests, hwritep, fun c a ha => ?_, fun c => ?_⟩
    swap
    · by_cases hc : c = client
      · rw [hc, streams_setStream]
        exact h.parsed client
      · rw [streams_setStream_of_ne _ hc]
        exact h.parsed c
    have hflight : (s.send.afterSend addr).inFlight = s.send.inFlight.filter (·.1 ≠ addr) := by
      rw [ServerSendState.afterSend]
      split <;> rfl
    show (a, c) ∈ (s.send.afterSend addr).inFlight
    rw [hflight, List.mem_filter]
    by_cases hc : c = client
    · subst hc
      rw [streams_setStream] at ha
      obtain ⟨ha, hne⟩ := WriteQueue.mem_waiting_remove ha
      exact ⟨h.queued c a ha, decide_eq_true hne⟩
    · rw [streams_setStream_of_ne _ hc] at ha
      refine ⟨h.queued c a ha, decide_eq_true ?_⟩
      -- else it would be in flight for two clients
      rintro rfl
      exact hc (h.owner_unique (h.queued c a ha) hmem)

end Steps

end AnsweringServer

end MyUvpp
