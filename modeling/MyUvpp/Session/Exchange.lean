import MyUvpp.TcpClient.SendContiguity
import MyUvpp.TcpServer.AnswerStreams

/-! # A client and a server in conversation

A `TCPClient` whose threads send packets, a `TCPServer` that answers them, and the two directions of the
connection between them. Each side may take its steps at any time: threads of the client run between any
two steps, libuv writes what the socket takes, a read gets any number of the bytes that have arrived, and
the server serves its other connections. The context of the connection at the server has the address
`a`. -/

namespace MyUvpp

/-- Both sides and what is on its way between them. -/
structure Exchange (σ : Type*) where
  client : SendState
  /-- The write requests of the client that libuv has not written entirely. -/
  queue : WriteQueue ℕ
  /-- The bytes on their way to the server. -/
  up : List UInt8
  server : AnsweringServer σ
  /-- The bytes on their way to the client. -/
  down : List UInt8
  /-- `packet_` of the client. -/
  packet : PacketSync
  /-- The frames passed to `recvcb_` of the client. -/
  received : List (NetPacket × List UInt8)

/-- What may happen next. -/
inductive ExchangeEvent where
  /-- A step of the client other than a read. -/
  | client (e : SendEvent)
  /-- libuv writes at most `n` bytes to the socket of the client. -/
  | clientWrite (n : ℕ)
  /-- `TCPClient::AfterRecv` with `n` bytes. -/
  | clientRead (n : ℕ)
  /-- A step of the server other than a read on the connection. -/
  | server (e : AnsweringEvent)
  /-- `AfterRecv` of the server with `n` bytes of the connection, and what the calls of `sendinl` receive
  that answer its frames. -/
  | serverRead (n : ℕ) (results : List SendResult)

namespace Exchange

variable {σ : Type*}

/-- The client has just been connected to a server. -/
def initial (pBuf : Mem UInt8) (heap : ℕ → WriteParam) (u : Indeterminate) (head tail : UInt8)
    (server : AnsweringServer σ) : Exchange σ where
  client := .initial pBuf heap
  queue := .empty
  up := []
  server
  down := []
  packet := (newPacketSync u).setPacketCB.start head tail
  received := []

/-- The bytes that each write request of the client is to send. -/
def memory (s : Exchange σ) (addr : ℕ) : List UInt8 := (s.client.heap addr).bytes

/-- The write requests of the client after one of its steps. -/
def queueAfter (s : Exchange σ) (client : SendState) : SendEvent → WriteQueue ℕ
  | .afterSend addr _ => s.queue.remove addr
  | _ => s.queue.push ((client.inFlight.drop s.client.inFlight.length).map Prod.fst)

/-- Only a request that has been written can have succeeded. -/
def Possible (s : Exchange σ) : SendEvent → Prop
  | .afterSend addr status => addr ∈ s.queue.waiting → status < 0
  | _ => True

/-- Whether a callback of the client may come next can be decided. -/
instance (s : Exchange σ) (e : SendEvent) : Decidable (s.Possible e) :=
  match e with
  | .afterSend addr status => inferInstanceAs (Decidable (addr ∈ s.queue.waiting → status < 0))
  | .send _ | .sendCheck _ | .sendWrite _ | .close | .asyncCB | .afterRecv | .drainRead _ _
  | .uvWrite _ => inferInstanceAs (Decidable True)

/-- One step of one side; there is none where the event cannot occur. -/
def step (host : Host) (parse : ParsePacket σ) (a : ℕ) (s : Exchange σ) :
    ExchangeEvent → Option (Exchange σ)
  | .client e =>
    if s.Possible e then
      (s.client.step e).map fun client => { s with client, queue := s.queueAfter client e }
    else none
  | .clientWrite n =>
    let (bytes, queue) := s.queue.write s.memory n
    some { s with queue, up := s.up ++ bytes }
  | .clientRead n =>
    if n ≤ s.down.length ∧ (n : ℤ) ≤ bufferSize then
      -- `send_inl` before `recvdata`, which does nothing to what is sent
      (s.client.step .afterRecv).bind fun client =>
        (recvdata host s.packet (s.down.take n)).map fun (packet, log) =>
          { s with
            client, packet
            down := s.down.drop n
            received := s.received ++ frames log }
    else none
  | .server e =>
    if AnsweringServer.readOn a e = none then
      (s.server.step host parse e).map fun server =>
        { s with
          server
          down := s.down ++ (server.streams a).written.drop (s.server.streams a).written.length }
    else none
  | .serverRead n results =>
    if n ≤ s.up.length ∧ (n : ℤ) ≤ bufferSize then
      (s.server.step host parse (.conn (.afterRecv a (some (s.up.take n))) results)).map fun server =>
        { s with server, up := s.up.drop n }
    else none

/-- The condition on a step under which the connection stands: no message is torn by another thread,
`uv_write` accepts everything, no write fails and nobody closes the handle of the server. -/
def Undisturbed (a : ℕ) (s : Exchange σ) : ExchangeEvent → Prop
  | .client (.uvWrite iret) => iret = 0
  | .client (.afterSend _ status) => 0 ≤ status
  | .client e => s.client.Uninterrupted e
  | .server e => s.server.Undisturbed a e
  | .serverRead _ results => ∀ r ∈ results, r.iret = 0
  | .clientWrite _ | .clientRead _ => True

/-- Whether an event leaves the conversation undisturbed can be decided. -/
instance (a : ℕ) (s : Exchange σ) (e : ExchangeEvent) : Decidable (s.Undisturbed a e) :=
  match e with
  | .client (.uvWrite iret) => inferInstanceAs (Decidable (iret = 0))
  | .client (.afterSend _ status) => inferInstanceAs (Decidable (0 ≤ status))
  | .client (.send data) => inferInstanceAs (Decidable (s.client.Uninterrupted (.send data)))
  | .client (.sendCheck i) => inferInstanceAs (Decidable (s.client.Uninterrupted (.sendCheck i)))
  | .client (.sendWrite i) => inferInstanceAs (Decidable (s.client.Uninterrupted (.sendWrite i)))
  | .client .close => inferInstanceAs (Decidable (s.client.Uninterrupted .close))
  | .client .asyncCB => inferInstanceAs (Decidable (s.client.Uninterrupted .asyncCB))
  | .client .afterRecv => inferInstanceAs (Decidable (s.client.Uninterrupted .afterRecv))
  | .client (.drainRead addr base) =>
    inferInstanceAs (Decidable (s.client.Uninterrupted (.drainRead addr base)))
  | .server e => inferInstanceAs (Decidable (s.server.Undisturbed a e))
  | .serverRead _ results => inferInstanceAs (Decidable (∀ r ∈ results, r.iret = 0))
  | .clientWrite _ | .clientRead _ => inferInstanceAs (Decidable True)

/-- Nothing is under way: every call of `Send` has got its whole buffer accepted, and everything that was
accepted has been read at the other side, on both ways. -/
structure Settled (a : ℕ) (s : Exchange σ) : Prop where
  complete : ∀ c ∈ s.client.sends, ¬ c.Midway
  loop : s.client.loop = .idle
  empty : s.client.writeCircularbuf.empty = true
  queue : s.queue.requests = []
  up : s.up = []
  answers : (s.server.streams a).queue.requests = []
  down : s.down = []

end Exchange

end MyUvpp
