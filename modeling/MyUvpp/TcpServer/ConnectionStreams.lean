import MyUvpp.Foundation.FrameRun
import MyUvpp.Packet.DecoderReuse
import MyUvpp.TcpServer.PoolInvariant

/-! # What a connection of a server delivers

The decoder of a context is started when a connection takes the context, and no other connection feeds
it: between its acceptance and the close of its handle a connection delivers the frames of what its
decoder had left pending and of what it reads, whatever the other connections do. -/

namespace MyUvpp

namespace TCPServer

/-- The decoders of a server: those of handles being read are started, and all can be. -/
structure DecoderInv (host : Host) (head tail : UInt8) (s : TCPServer) : Prop where
  head_eq : s.packetHead = head
  tail_eq : s.packetTail = tail
  startable : ∀ a, (s.heap a).packet.Startable host head tail
  started : ∀ a, (s.heap a).tcphandle.reading = true → (s.heap a).packet.Started host head tail

/-- A server without contexts has no decoder out of place. -/
theorem decoderInv_new (host : Host) (head tail : UInt8) :
    (new head tail).DecoderInv host head tail where
  head_eq := rfl
  tail_eq := rfl
  startable _ := PacketSync.startable_new host default head tail
  started _ h := by cases h

section Decoders

variable {host : Host} {head tail : UInt8} {s s' : TCPServer}

/-- The invariant of the decoders depends on the contexts and the two marker bytes only. -/
theorem DecoderInv.congr (h : s.DecoderInv host head tail) (hheap : s'.heap = s.heap)
    (hhead : s'.packetHead = s.packetHead) (htail : s'.packetTail = s.packetTail) :
    s'.DecoderInv host head tail :=
  ⟨hhead.trans h.head_eq, htail.trans h.tail_eq, hheap ▸ h.startable, hheap ▸ h.started⟩

/-- One context has changed, and its decoder is in order. -/
theorem DecoderInv.setCtx (h : s.DecoderInv host head tail) {addr : ℕ} {ctx : TcpClientCtx}
    (hstart : ctx.packet.Startable host head tail)
    (hread : ctx.tcphandle.reading = true → ctx.packet.Started host head tail) :
    (s.setCtx addr ctx).DecoderInv host head tail := by
  refine ⟨h.head_eq, h.tail_eq, fun a => ?_, fun a => ?_⟩
  · by_cases heq : a = addr
    · rwa [heq, heap_setCtx]
    · rw [heap_setCtx_of_ne s heq]
      exact h.startable a
  · by_cases heq : a = addr
    · rwa [heq, heap_setCtx]
    · rw [heap_setCtx_of_ne s heq]
      exact h.started a

/-- A handle has changed, and is not read if it was not before. -/
theorem DecoderInv.setTcphandle (h : s.DecoderInv host head tail) {addr : ℕ}
    {tcphandle : UvTcp ServerHandleData ServerCloseCb}
    (hread : tcphandle.reading = true → (s.heap addr).tcphandle.reading = true) :
    (s.setTcphandle addr tcphandle).DecoderInv host head tail :=
  h.setCtx (h.startable addr) fun hr => h.started addr (hread hr)

/-- The context that is taken can be started. -/
theorem DecoderInv.takenCtx (h : s.DecoderInv host head tail) (u : Indeterminate) :
    (s.takenCtx u).packet.Startable host head tail ∧
      ((s.takenCtx u).tcphandle.reading = true →
        (s.takenCtx u).packet.Started host head tail) := by
  rw [TCPServer.takenCtx]
  cases s.avaiTcphandle with
  | nil => exact ⟨PacketSync.startable_new host u head tail, fun hread => by cases hread⟩
  | cons a as => exact ⟨h.startable a, h.started a⟩

/-- The context taken for a connection has its decoder started with the markers of the server. -/
theorem DecoderInv.startedCtx (h : s.DecoderInv host head tail) (u : Indeterminate) :
    (s.startedCtx u).packet.Started host head tail := by
  rw [TCPServer.startedCtx, h.head_eq, h.tail_eq]
  exact (h.takenCtx u).1.start

/-- Taking a context keeps the decoders when its own can be started, and is when the handle reads. -/
theorem DecoderInv.withTaken (h : s.DecoderInv host head tail) {addr : ℕ} {ctx : TcpClientCtx}
    (hstart : ctx.packet.Startable host head tail)
    (hread : ctx.tcphandle.reading = true → ctx.packet.Started host head tail) :
    (s.withTaken addr ctx).DecoderInv host head tail := by
  have hset : (s.setCtx (s.takenAddr addr) ctx).DecoderInv host head tail := h.setCtx hstart hread
  exact hset.congr rfl rfl rfl

/-- An accepted connection keeps the decoders. -/
theorem DecoderInv.connected (h : s.DecoderInv host head tail) (addr : ℕ) (u : Indeterminate) :
    (s.connected addr u).DecoderInv host head tail := by
  have hstarted : (s.connectedCtx u).packet.Started host head tail := h.startedCtx u
  have hset : (s.withTaken addr (s.connectedCtx u)).DecoderInv host head tail :=
    h.withTaken hstarted.startable fun _ => hstarted
  exact hset.congr rfl rfl rfl

/-- Accepting a connection starts the decoder of its context. -/
theorem DecoderInv.acceptConnection (h : s.DecoderInv host head tail) (status : ℤ)
    (r : AcceptResult) (addr : ℕ) (u : Indeterminate) :
    (s.acceptConnection status r addr u).DecoderInv host head tail := by
  obtain ⟨hstart, hread⟩ := h.takenCtx u
  have hstarted := h.startedCtx u
  rcases acceptConnection_cases s status r addr u with heq | heq | heq | heq | heq
  · rwa [heq]
  · rw [heq]
    have hset : (s.withTaken addr (s.takenCtx u)).DecoderInv host head tail :=
      h.withTaken hstart hread
    exact hset.congr rfl rfl rfl
  · rw [heq]
    have hset : (s.withTaken addr (s.initCtx u)).DecoderInv host head tail :=
      h.withTaken hstart nofun
    exact hset.congr rfl rfl rfl
  · rw [heq]
    have hset : (s.withTaken addr (s.refusedCtx u)).DecoderInv host head tail :=
      h.withTaken hstarted.startable nofun
    exact hset.congr rfl rfl rfl
  · rw [heq]
    exact h.connected addr u

/-- Closing a client keeps the decoders: the handle alone changes, and it reads no more. -/
theorem DecoderInv.closeAcceptClient (h : s.DecoderInv host head tail) (c : AcceptClient) :
    (s.closeAcceptClient c).DecoderInv host head tail := by
  rw [TCPServer.closeAcceptClient]
  split
  case isTrue => exact h
  case isFalse => exact h.setTcphandle fun hread => by cases hread

/-- A close callback keeps the decoders: the context it recycles stands as it was. -/
theorem DecoderInv.tcpClosed (h : s.DecoderInv host head tail) (addr : ℕ)
    (cb : Option ServerCloseCb) : (s.tcpClosed addr cb).DecoderInv host head tail := by
  obtain ⟨live, avaiTcphandle, clientsList, heq⟩ := tcpClosed_eq s addr cb
  have hset : (s.setTcphandle addr (s.heap addr).tcphandle.closed).DecoderInv host head tail :=
    h.setTcphandle id
  rw [heq]
  exact hset.congr rfl rfl rfl

/-- A call of the decoder keeps it started. -/
theorem DecoderInv.fed (h : s.DecoderInv host head tail) (addr : ℕ) {packet : PacketSync}
    (hpacket : packet.Started host head tail) (out : List (NetPacket × List UInt8)) :
    (s.fed addr packet out).DecoderInv host head tail := by
  have hset : (s.setCtx addr { s.heap addr with packet }).DecoderInv host head tail :=
    h.setCtx hpacket.startable fun _ => hpacket
  exact hset.congr rfl rfl rfl

/-- **Every step keeps the decoders in order.** -/
theorem DecoderInv.step (h : s.DecoderInv host head tail) (hpool : s.PoolInv) {e : ServerEvent}
    (hstep : step host s e = some s') : s'.DecoderInv host head tail := by
  cases e with
  | acceptConnection status r addr u =>
    obtain ⟨-, rfl⟩ := step_acceptConnection hstep
    exact h.acceptConnection status r addr u
  | afterRecv addr nread =>
    obtain ⟨hreading, ⟨-, c, -, -, rfl⟩ | ⟨-, rfl⟩ | ⟨data, packet, log, -, hrecv, rfl⟩⟩ :=
      hpool.step_afterRecv hstep
    · exact h.closeAcceptClient c
    · exact h
    · obtain ⟨packet', log', hrecv', hpacket, -⟩ := (h.started addr hreading).recvdata data
      cases hrecv.symm.trans hrecv'
      exact h.fed addr hpacket _
  | tcpClosed addr =>
    obtain ⟨cb, -, -, rfl⟩ := step_tcpClosed hstep
    exact h.tcpClosed addr cb

/-- In every run all decoders are in order. -/
theorem run_decoderInv {es : List ServerEvent}
    (hrun : run (TCPServer.step host) (new head tail) es = some s) :
    s.PoolInv ∧ s.DecoderInv host head tail :=
  run_invariant (I := fun s => s.PoolInv ∧ s.DecoderInv host head tail)
    (fun _ _ _ h hstep => ⟨h.1.step hstep, h.2.step h.1 hstep⟩)
    ⟨poolInv_new head tail, decoderInv_new host head tail⟩ hrun

end Decoders

/-! ### One connection -/

/-- The bytes that an event reads on the handle at an address. -/
def readOn (addr : ℕ) : ServerEvent → Option (List UInt8)
  | .afterRecv a (some data) => if a = addr then some data else none
  | _ => none

/-- The frames delivered on the handle at an address. -/
def receivedOn (addr : ℕ) (s : TCPServer) : List (NetPacket × List UInt8) :=
  s.received.filterMap fun (a, frame) => if a = addr then some frame else none

/-- The context at an address belongs to a client, and its decoder is started. -/
structure Connection (host : Host) (head tail : UInt8) (addr : ℕ) (s : TCPServer) : Prop
    extends s.PoolInv where
  client : addr ∈ s.handles
  started : (s.heap addr).packet.Started host head tail

section Streams

variable {host : Host} {head tail : UInt8} {addr : ℕ} {s s' : TCPServer}

/-- Storing a handle leaves the decoders. -/
theorem packet_setTcphandle (s : TCPServer) (addr a : ℕ)
    (tcphandle : UvTcp ServerHandleData ServerCloseCb) :
    ((s.setTcphandle addr tcphandle).heap a).packet = (s.heap a).packet := by
  by_cases heq : a = addr
  · rw [heq, heap_setTcphandle]
  · rw [heap_setTcphandle_of_ne heq]

/-- Frames are filed under the context that delivers them. -/
theorem receivedOn_fed (s : TCPServer) (addr a : ℕ) (packet : PacketSync)
    (out : List (NetPacket × List UInt8)) :
    (s.fed a packet out).receivedOn addr =
      s.receivedOn addr ++ if a = addr then out else [] := by
  have hout : (out.map (a, ·)).filterMap (fun (b, frame) => if b = addr then some frame else none) =
      if a = addr then out else [] := by
    rw [List.filterMap_map]
    split
    case isTrue heq =>
      rw [heq]
      simp
    case isFalse hne => simp [hne]
  rw [receivedOn, fed, List.filterMap_append, hout]
  rfl

/-- What a step does to a connection: its decoder reduces what it had pending and what is read. -/
def Advances (host : Host) (head tail : UInt8) (addr : ℕ) (s : TCPServer) (e : ServerEvent)
    (s' : TCPServer) : Prop :=
  s'.Connection host head tail addr ∧
    ∃ out, (decoderFraming host head tail).Reduces
        ((s.heap addr).packet.pending ++ (readOn addr e).getD []) out (s'.heap addr).packet.pending ∧
      s'.receivedOn addr = s.receivedOn addr ++ out

/-- A step that leaves the decoder of a connection alone. -/
theorem Connection.advances_silent (h : s.Connection host head tail addr) {e : ServerEvent}
    (hread : (readOn addr e).getD [] = []) (hpool : s'.PoolInv) (hclient : addr ∈ s'.handles)
    (hpacket : (s'.heap addr).packet = (s.heap addr).packet)
    (hreceived : s'.receivedOn addr = s.receivedOn addr) : s.Advances host head tail addr e s' := by
  refine ⟨⟨hpool, hclient, hpacket ▸ h.started⟩, [], ?_, ?_⟩
  · rw [hread, List.append_nil, hpacket]
    exact .refl _
  · rw [hreceived, List.append_nil]

/-- Accepting another connection. -/
theorem Connection.advances_acceptConnection (h : s.Connection host head tail addr) {addr' : ℕ}
    (haddr : addr' ∉ s.live) (status : ℤ) (r : AcceptResult) (u : Indeterminate) :
    s.Advances host head tail addr (.acceptConnection status r addr' u)
      (s.acceptConnection status r addr' u) := by
  have hpool := h.toPoolInv.acceptConnection haddr status r u
  have hother (ctx) := h.heap_withTaken_other haddr ctx (List.mem_append_right _ h.client)
  rcases acceptConnection_cases s status r addr' u with heq | heq | heq | heq | heq
  · rw [heq] at hpool ⊢
    exact h.advances_silent rfl hpool h.client rfl rfl
  · rw [heq] at hpool ⊢
    exact h.advances_silent rfl hpool h.client (congrArg _ (hother (s.takenCtx u))) rfl
  · rw [heq] at hpool ⊢
    exact h.advances_silent rfl hpool h.client (congrArg _ (hother (s.initCtx u))) rfl
  · rw [heq] at hpool ⊢
    exact h.advances_silent rfl hpool h.client (congrArg _ (hother (s.refusedCtx u))) rfl
  · rw [heq] at hpool ⊢
    refine h.advances_silent rfl hpool ?_ (congrArg _ (hother (s.connectedCtx u))) rfl
    rw [handles_connected]
    exact List.mem_append_left _ h.client

/-- Reading on some connection. -/
theorem Connection.advances_afterRecv (h : s.Connection host head tail addr) {a : ℕ}
    {nread : Option (List UInt8)} (hstep : step host s (.afterRecv a nread) = some s') :
    s.Advances host head tail addr (.afterRecv a nread) s' := by
  have hpool := h.toPoolInv.step hstep
  obtain ⟨-, ⟨rfl, c, hc, -, rfl⟩ | ⟨rfl, rfl⟩ | ⟨data, packet, log, rfl, hrecv, rfl⟩⟩ :=
    h.toPoolInv.step_afterRecv hstep
  · rw [TCPServer.closeAcceptClient] at hpool ⊢
    split at hpool
    case isTrue hclosed =>
      rw [if_pos hclosed]
      exact h.advances_silent rfl hpool h.client rfl rfl
    case isFalse hclosed =>
      rw [if_neg hclosed]
      exact h.advances_silent rfl hpool h.client (packet_setTcphandle _ _ _ _) rfl
  · refine h.advances_silent ?_ hpool h.client rfl rfl
    rw [readOn]
    split <;> rfl
  · by_cases heq : a = addr
    · obtain rfl := heq
      obtain ⟨packet', log', hrecv', hpacket, hred⟩ := h.started.recvdata data
      cases hrecv.symm.trans hrecv'
      have hself : ((s.fed a packet (frames log)).heap a).packet = packet := by
        rw [fed, heap_setCtx]
      refine ⟨⟨hpool, h.client, by rwa [hself]⟩, frames log, ?_, ?_⟩
      · rwa [hself, readOn, if_pos rfl, Option.getD_some]
      · rw [receivedOn_fed, if_pos rfl]
    · refine h.advances_silent ?_ hpool h.client ?_ ?_
      · rw [readOn, if_neg heq, Option.getD_none]
      · rw [fed, heap_setCtx_of_ne s (Ne.symm heq)]
      · rw [receivedOn_fed, if_neg heq, List.append_nil]

/-- The end of a close of another handle. -/
theorem Connection.advances_tcpClosed (h : s.Connection host head tail addr) {a : ℕ}
    (ha : a ≠ addr) (hstep : step host s (.tcpClosed a) = some s') :
    s.Advances host head tail addr (.tcpClosed a) s' := by
  have hpool := h.toPoolInv.step hstep
  obtain ⟨cb, hstate, -, rfl⟩ := step_tcpClosed hstep
  have hclient : addr ∈ (s.tcpClosed a cb).handles := by
    by_cases hmem : a ∈ s.handles
    · obtain ⟨c, hc, rfl⟩ := List.mem_map.mp hmem
      rw [h.tcpClosed_client hc hstate, handles_recycle]
      exact (h.mem_handles_removed hc).mpr ⟨h.client, ha.symm⟩
    · rcases h.tcpClosed_other hmem hstate with heq | ⟨-, heq⟩
      · exact heq ▸ h.client
      · rw [heq, handles_recycle]
        exact h.client
  obtain ⟨live, avaiTcphandle, clientsList, heq⟩ := tcpClosed_eq s a cb
  rw [heq] at hpool hclient ⊢
  exact h.advances_silent rfl hpool hclient (packet_setTcphandle _ _ _ _) rfl

/-- **Every step advances a connection**, unless it is the end of the close of its handle. -/
theorem Connection.advances (h : s.Connection host head tail addr) {e : ServerEvent}
    (he : e ≠ .tcpClosed addr) (hstep : step host s e = some s') :
    s.Advances host head tail addr e s' := by
  cases e with
  | acceptConnection status r addr' u =>
    obtain ⟨haddr, rfl⟩ := step_acceptConnection hstep
    exact h.advances_acceptConnection haddr status r u
  | afterRecv a nread => exact h.advances_afterRecv hstep
  | tcpClosed a => exact h.advances_tcpClosed (fun heq => he (heq ▸ rfl)) hstep

/-- A connection whose handle is being read can read any bytes and goes on being read. -/
theorem Connection.exists_read (h : s.Connection host head tail addr)
    (hreading : (s.heap addr).tcphandle.reading = true) (data : List UInt8) :
    ∃ s', step host s (.afterRecv addr (some data)) = some s' ∧
      (s'.heap addr).tcphandle.reading = true := by
  obtain ⟨c, -, -, hdata, -⟩ := h.client_of_reading hreading
  have hlive := h.live addr (List.mem_append_right _ h.client)
  have hstep : step host s (.afterRecv addr (some data)) = s.afterRecv host addr (some data) :=
    if_pos ⟨hlive, (h.reading addr hreading).2, hreading, hdata⟩
  rw [hstep]
  cases data with
  | nil => exact ⟨s, rfl, hreading⟩
  | cons b bs =>
    obtain ⟨packet, log, hrecv, -, -⟩ := h.started.recvdata (b :: bs)
    refine ⟨s.fed addr packet (frames log), ?_, ?_⟩
    · rw [afterRecv, hrecv]
      · rfl
      · intro hnil
        cases hnil
    · rw [fed, heap_setCtx]
      exact hreading

end Streams

/-- A connection of a server as a machine that decodes a stream. -/
def connectionDecodes (host : Host) (head tail : UInt8) (addr : ℕ) :
    (decoderFraming host head tail).Decodes (step host) (· ≠ .tcpClosed addr) (readOn addr)
      (receivedOn addr) where
  pending s := (s.heap addr).packet.pending
  Inv := Connection host head tail addr
  Reading s := (s.heap addr).tcphandle.reading = true
  inv_step _ _ _ h he hstep := (h.advances he hstep).1
  reduces _ _ _ h he hstep := (h.advances he hstep).2
  scan_pending _ h := h.started.scan_pending
  read _ h hreading data := by
    obtain ⟨s', hstep, hreading'⟩ := h.exists_read hreading data
    exact ⟨.afterRecv addr (some data), s', nofun, if_pos rfl, hstep, hreading'⟩

/-- **What a new connection delivers**: the frames of what an earlier connection left pending in the
decoder of its context, followed by what the new one reads. -/
theorem delivers_of_acceptConnection {host : Host} {head tail : UInt8} {s s' : TCPServer} {addr a : ℕ}
    {as : List ℕ} {u : Indeterminate} (hpool : s.PoolInv) (hdec : s.DecoderInv host head tail)
    (havai : s.avaiTcphandle = a :: as)
    (hstep : step host s (.acceptConnection 0 default addr u) = some s')
    (pieces : List (List UInt8)) (out : List (NetPacket × List UInt8)) :
    Delivers (step host) (· ≠ .tcpClosed a) (readOn a) (receivedOn a) s' pieces out ↔
      out = (decoderFraming host head tail).scan
        ((s.heap a).packet.pending ++ pieces.flatten) := by
  have hpool' := hpool.step hstep
  obtain ⟨-, rfl⟩ := step_acceptConnection hstep
  rw [acceptConnection_default] at hpool' ⊢
  -- the new connection has the first context of the pool, with all that its decoder kept
  have htaken : s.takenAddr addr = a := by rw [takenAddr, havai, List.headD_cons]
  have hctx : (s.connected addr u).heap a = s.connectedCtx u := htaken ▸ heap_withTaken _ _ _
  have hstarted : (s.connectedCtx u).packet.Started host head tail := hdec.startedCtx u
  have hpending : (s.connectedCtx u).packet.pending = (s.heap a).packet.pending := by
    show (s.takenCtx u).packet.pending = _
    rw [takenCtx, havai]
  have hconn : (s.connected addr u).Connection host head tail a := by
    refine ⟨hpool', ?_, hctx ▸ hstarted⟩
    rw [handles_connected, htaken]
    exact List.mem_append_right _ (List.mem_singleton_self a)
  have hreading : ((s.connected addr u).heap a).tcphandle.reading = true := by
    rw [hctx]
    rfl
  rw [← hpending, ← hctx]
  exact (connectionDecodes host head tail a).delivers_iff hconn hreading pieces out

end TCPServer

end MyUvpp
