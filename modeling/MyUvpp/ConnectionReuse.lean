import MyUvpp.TcpClient.ReconnectStreams
import MyUvpp.TcpServer.ConnectionStreams

/-! # What an earlier connection leaves behind

A server takes the context of a new connection, decoder included, from its pool, and a client that
reconnects keeps its decoder. Neither resets it, so that the frames of a new connection depend on what
an earlier one has left pending. They are those of a freshly constructed decoder, whatever the new
connection reads, exactly when no head byte among the leftover can still become the start of a
frame. -/

namespace MyUvpp

/-- A connection set-up that uses a decoder again: the decoder as it was before, and which frames the
new connection delivers for the pieces it reads, from the set-up to the close of its handle. -/
inductive ConnectionSetUp (host : Host) (head tail : UInt8) :
    PacketSync → (List (List UInt8) → List (NetPacket × List UInt8) → Prop) → Prop where
  /-- `AcceptConnection` takes a context from `avai_tcphandle_`, and all its calls succeed. -/
  | acceptConnection (es : List ServerEvent) {s s' : TCPServer} {a : ℕ} {as : List ℕ} (addr : ℕ)
      (u : Indeterminate) (hrun : run (TCPServer.step host) (.new head tail) es = some s)
      (havai : s.avaiTcphandle = a :: as)
      (haccept : s.step host (.acceptConnection 0 default addr u) = some s') :
      ConnectionSetUp host head tail (s.heap a).packet
        (Delivers (TCPServer.step host) (· ≠ .tcpClosed a) (TCPServer.readOn a)
          (TCPServer.receivedOn a) s')
  /-- `ReconnectTimer` of a client that is reconnecting; then, without a read in between, a connect
  request and `uv_read_start` succeed. -/
  | reconnectTimer (es : List ClientEvent) (u : Indeterminate) (r : AttemptResult)
      (es' : List ClientEvent) {s s₁ s₂ s₃ : TCPClient}
      (hrun : run (TCPClient.step host) (.new head tail u) es = some s)
      (hrec : s.isreconnecting = true)
      (htimer : s.step host (.reconnectTimer r) = some s₁)
      (hunread : ∀ nread, .afterRecv nread ∉ es') (hrun' : run (TCPClient.step host) s₁ es' = some s₂)
      (hdata : s₂.tcphandle.data = some .tcpClientCtx)
      (hconnect : s₂.step host (.afterConnect 0 0) = some s₃) :
      ConnectionSetUp host head tail s.packet
        (Delivers (TCPClient.step host) TCPClient.KeepsHandle TCPClient.readBy TCPClient.received s₃)

namespace ConnectionSetUp

variable {host : Host} {head tail : UInt8} {p : PacketSync}
  {delivers : List (List UInt8) → List (NetPacket × List UInt8) → Prop}

/-- The decoder of a set-up can be started. -/
theorem startable (h : ConnectionSetUp host head tail p delivers) : p.Startable host head tail := by
  cases h with
  | acceptConnection es addr u hrun havai haccept =>
    exact (TCPServer.run_decoderInv hrun).2.startable _
  | reconnectTimer es u r es' hrun hrec htimer hunread hrun' hdata hconnect =>
    exact (TCPClient.run_streamInv hrun).startable

/-- What a new connection delivers: the frames of the leftover followed by what it reads. -/
theorem delivers_iff (h : ConnectionSetUp host head tail p delivers) (pieces : List (List UInt8))
    (out : List (NetPacket × List UInt8)) :
    delivers pieces out ↔
      out = (decoderFraming host head tail).scan (p.pending ++ pieces.flatten) := by
  cases h with
  | acceptConnection es addr u hrun havai haccept =>
    obtain ⟨hpool, hdec⟩ := TCPServer.run_decoderInv hrun
    exact TCPServer.delivers_of_acceptConnection hpool hdec havai haccept pieces out
  | reconnectTimer es u r es' hrun hrec htimer hunread hrun' hdata hconnect =>
    exact TCPClient.delivers_of_reconnectTimer (TCPClient.run_streamInv hrun) hrec htimer hunread
      hrun' hdata hconnect pieces out

/-- The leftover holds no complete frame. -/
theorem scan_pending (h : ConnectionSetUp host head tail p delivers) :
    (decoderFraming host head tail).scan p.pending = [] := by
  rw [← PacketSync.pending_setPacketCB_start p head tail]
  exact h.startable.start.scan_pending

end ConnectionSetUp

/-- **A new connection delivers the frames that a fresh decoder delivers**, whatever it reads, if and
only if no frame is ever accepted (`TAIL` is above 127) or no head byte of what its decoder had left
pending can still become the start of a frame. -/
theorem new_connection_delivers_fresh_frames (host : Host) (head tail : UInt8) (p : PacketSync)
    (delivers : List (List UInt8) → List (NetPacket × List UInt8) → Prop)
    (h : ConnectionSetUp host head tail p delivers) :
    (∀ pieces out, delivers pieces out → freshFrames host head tail pieces = some out) ↔
      128 ≤ tail.toNat ∨ mayStartFrame host head tail p.pending = false := by
  rw [← leftover_drops_iff h.scan_pending]
  constructor
  · intro hfresh t
    have ht := hfresh [t] _ ((h.delivers_iff [t] _).mpr rfl)
    rw [freshFrames_eq, Option.some.injEq, List.flatten_singleton] at ht
    exact ht.symm
  · intro hscan pieces out hout
    rw [(h.delivers_iff pieces out).mp hout, hscan, freshFrames_eq]

/-- A connection that sends the head byte and ends, and the next one on its context. -/
theorem new_connection_delivers_fresh_frames_after_head_byte : ∃ p delivers,
    ConnectionSetUp .little 1 2 p delivers ∧
      ((∀ pieces out, delivers pieces out → freshFrames .little 1 2 pieces = some out) ↔
        128 ≤ (2 : UInt8).toNat ∨ mayStartFrame .little 1 2 p.pending = false) := by
  have hsetup : ConnectionSetUp .little 1 2 _ _ := .acceptConnection
    [.acceptConnection 0 default 0 default, .afterRecv 0 (some [1]), .afterRecv 0 none, .tcpClosed 0]
    1 default rfl rfl rfl
  exact ⟨_, _, hsetup, new_connection_delivers_fresh_frames .little 1 2 _ _ hsetup⟩

/-- **The head byte of an earlier connection completes a frame.** The next connection on its context
sends a header and a tail byte without a head byte in front, and a frame is delivered that it did not
send. -/
theorem earlier_head_byte_starts_frame : ¬ ∀ p delivers, ConnectionSetUp .little 1 2 p delivers →
    ∀ pieces out, delivers pieces out → freshFrames .little 1 2 pieces = some out := by
  intro h
  have hsetup : ConnectionSetUp .little 1 2 _ _ := .acceptConnection
    [.acceptConnection 0 default 0 default, .afterRecv 0 (some [1]), .afterRecv 0 none, .tcpClosed 0]
    1 default rfl rfl rfl
  have hfresh := h _ _ hsetup [[0, 0, 0, 0, 1, 2] ++ List.replicate 28 0 ++ [2]]
    [({ (default : NetPacket) with header := 1, tail := 2 }, [])]
    ⟨[.afterRecv 0 (some ([0, 0, 0, 0, 1, 2] ++ List.replicate 28 0 ++ [2]))], _, by simp, rfl, rfl,
      by decide⟩
  exact absurd hfresh (by decide)

end MyUvpp
