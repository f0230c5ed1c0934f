import MyUvpp.Foundation.Reaching
import MyUvpp.Session.EndToEnd
import MyUvpp.TcpClient.SendProgress

/-! # A conversation can always be finished

Whatever has happened in a conversation, as long as the connection stands and the user has not asked for
the close, nothing waits for ever for anything else: both sides can go on until every call of `Send` has
got its whole buffer accepted and everything has been read on both ways. -/

namespace MyUvpp

namespace SendState

/-- All calls have returned, and `send_inl` has nothing to do. -/
structure Finished (s : SendState) : Prop where
  returned : ∀ c ∈ s.sends, c.pc = .returned
  loop : s.loop = .idle
  empty : s.writeCircularbuf.empty = true

/-- The client can go on: its state is in order, its buffers are short, and the user has not asked for the
close. -/
structure Live (s : SendState) : Prop where
  inv : s.Inv
  contiguous : s.Contiguous
  filled : s.Filled
  whole : s.WholeFrom 0
  isuseraskforclosed : s.isuseraskforclosed = false
  short : ∀ c ∈ s.sends, c.data.length < 2 ^ 31

variable {s s' : SendState}

/-- The steps that the client takes when it goes on. -/
def GoesOn : SendEvent → Prop
  | .sendCheck _ | .sendWrite _ | .asyncCB | .afterRecv | .drainRead _ _ => True
  | .uvWrite iret => iret = 0
  | .send _ | .close | .afterSend _ _ => False

/-- They keep the buffers and the flag. -/
theorem step_goesOn {e : SendEvent} (he : GoesOn e) (hstep : s.step e = some s') :
    s'.sends.map SendCall.data = s.sends.map SendCall.data ∧
      s'.isuseraskforclosed = s.isuseraskforclosed := by
  have hset : ∀ (i : ℕ) (c c' : SendCall), s.sends[i]? = some c → c'.data = c.data →
      (s.sends.set i c').map SendCall.data = s.sends.map SendCall.data := by
    intro i c c' hc hdata
    obtain ⟨hi, rfl⟩ := List.getElem?_eq_some_iff.mp hc
    have hi' : i < (s.sends.map SendCall.data).length := by rwa [List.length_map]
    have hself := List.set_getElem_self hi'
    rw [List.getElem_map] at hself
    rw [List.map_set, hdata, hself]
  cases e with
  | sendCheck i =>
    obtain ⟨c, hc, -, rfl⟩ := step_sendCheck hstep
    exact ⟨hset i c _ hc rfl, rfl⟩
  | sendWrite i =>
    obtain ⟨c, hc, -, rfl⟩ := step_sendWrite hstep
    exact ⟨hset i c _ hc rfl, rfl⟩
  | asyncCB | afterRecv | drainRead | uvWrite =>
    obtain ⟨hsends, -, -, hflag⟩ := step_onLoop hstep trivial
    exact ⟨by rw [hsends], hflag⟩
  | send | close | afterSend => exact he.elim

/-- A loop that goes on, with nobody writing in between, stays live. -/
theorem Live.step (h : s.Live) {e : SendEvent} (he : GoesOn e) (hgood : s.Uninterrupted e)
    (hstep : s.step e = some s') : s'.Live := by
  obtain ⟨hdata, hflag⟩ := step_goesOn he hstep
  refine ⟨step_inv h.inv hstep, step_contiguous h.contiguous h.inv hgood hstep,
    h.filled.step h.inv hstep, h.whole.step h.inv h.isuseraskforclosed hstep,
    hflag.trans h.isuseraskforclosed, fun c hc => ?_⟩
  have hmem : c.data ∈ s.sends.map SendCall.data := hdata ▸ List.mem_map_of_mem hc
  obtain ⟨d, hd, heq⟩ := List.mem_map.mp hmem
  exact heq ▸ h.short d hd

/-- A call that is midway has not returned. -/
theorem Live.not_midway (h : s.Live) {c : SendCall} (hc : c ∈ s.sends) (hpc : c.pc = .returned) :
    ¬ c.Midway := by
  rintro ⟨-, hlt⟩
  obtain ⟨i, hi⟩ := List.getElem?_of_mem hc
  exact absurd (h.whole i c (Nat.zero_le i) hi hpc) (Nat.ne_of_lt hlt)

/-- Its send path is in order, with calls that have something left to send until they return. -/
theorem Live.ready (h : s.Live) : s.Ready where
  toInv := h.inv
  filled := h.filled
  unfinished c hc hpc := by
    obtain ⟨i, hi⟩ := List.getElem?_of_mem hc
    exact h.contiguous.unfinished i c hi hpc

/-! ### The next step of the client -/

/-- A call that has not returned, and that no other call keeps from its critical section. -/
theorem Live.exists_call (h : s.Live) (hopen : ¬ ∀ c ∈ s.sends, c.pc = .returned) :
    ∃ (i : ℕ) (c : SendCall), s.sends[i]? = some c ∧ c.pc ≠ .returned ∧
      ∀ (j : ℕ) (d : SendCall), j ≠ i → s.sends[j]? = some d → ¬ d.Midway := by
  by_cases hmid : ∃ (i : ℕ) (c : SendCall), s.sends[i]? = some c ∧ c.Midway
  · obtain ⟨i, c, hc, hm⟩ := hmid
    refine ⟨i, c, hc, fun hpc => h.not_midway (List.mem_of_getElem? hc) hpc hm, ?_⟩
    intro j d hj hd hmd
    exact hj (h.contiguous.unique j i d c hd hc hmd hm)
  · push Not at hmid hopen
    obtain ⟨c, hc, hpc⟩ := hopen
    obtain ⟨i, hi⟩ := List.getElem?_of_mem hc
    exact ⟨i, c, hi, hpc, fun j d _ => hmid j d⟩

/-- With nothing to drain, a call of `Send` goes on. -/
theorem Live.exists_step_send (h : s.Live) (hempty : s.writeCircularbuf.empty = true)
    (hopen : ¬ ∀ c ∈ s.sends, c.pc = .returned) :
    ∃ e s', GoesOn e ∧ s.Uninterrupted e ∧ s.step e = some s' ∧ s'.work < s.work := by
  obtain ⟨i, c, hc, hpc, hothers⟩ := h.exists_call hopen
  obtain ⟨e, s', he, hstep, hlt⟩ := h.ready.exists_step_call h.isuseraskforclosed hempty hc hpc
    (h.short c (List.mem_of_getElem? hc))
  rcases he with rfl | rfl
  · exact ⟨.sendCheck i, s', trivial, trivial, hstep, hlt⟩
  · exact ⟨.sendWrite i, s', trivial, fun _ _ _ _ j _ hj d hd => hothers j d hj hd, hstep, hlt⟩

/-- **The client goes on** until all calls have returned and `send_inl` has nothing to do. -/
theorem Live.exists_step (h : s.Live) (hnot : ¬ s.Finished) :
    ∃ e s', GoesOn e ∧ s.Uninterrupted e ∧ s.step e = some s' ∧ s'.work < s.work := by
  by_cases hloop : s.loop = .idle
  · cases hempty : s.writeCircularbuf.empty with
    | true => exact h.exists_step_send hempty fun hall => hnot ⟨hall, hloop, hempty⟩
    | false =>
      obtain ⟨s', hstep, hlt⟩ := exists_step_async h.isuseraskforclosed hloop hempty
      exact ⟨.asyncCB, s', trivial, trivial, hstep, hlt⟩
  · obtain ⟨e, s', he, hstep, hlt⟩ := exists_step_drain h.inv h.filled hloop
    rcases he with rfl | ⟨addr, base, rfl⟩
    · exact ⟨.uvWrite 0, s', rfl, trivial, hstep, hlt⟩
    · exact ⟨.drainRead addr base, s', trivial, trivial, hstep, hlt⟩

/-! ### The calls that are completed -/

end SendState

/-! ### The server -/

namespace ServerSendState

/-- There is always room for another request. -/
theorem exists_sendinl (s : ServerSendState) (senddata : List UInt8) (client : ℕ) :
    ∃ r : SendResult, r.iret = 0 ∧ ∃ p, s.sendinl senddata client r = some p := by
  obtain ⟨addr, haddr⟩ := Infinite.exists_notMem_finset s.pool.owned.toFinset
  rw [List.mem_toFinset] at haddr
  refine ⟨⟨addr, fun _ => 0, 0⟩, rfl, ?_⟩
  have htake : ∃ p, s.takeParam ⟨addr, fun _ => 0, 0⟩ = some p := by
    rw [takeParam]
    cases s.writeparamList with
    | nil => exact ⟨_, if_neg haddr⟩
    | cons a as => exact ⟨_, rfl⟩
  obtain ⟨p, hp⟩ := htake
  rw [sendinl, hp]
  split
  case isTrue => exact ⟨_, rfl⟩
  case isFalse => exact ⟨_, rfl⟩

end ServerSendState

namespace AnsweringServer

variable {σ : Type*} {host : Host} {head tail : UInt8} {parse : ParsePacket σ} {a : ℕ}

/-- Every frame can be answered. -/
theorem exists_getPackets (parse : ParsePacket σ) (s : AnsweringServer σ)
    (frames : List (ℕ × NetPacket × List UInt8)) :
    ∃ results : List SendResult, (∀ r ∈ results, r.iret = 0) ∧
      ∃ s', s.getPackets parse frames results = some s' := by
  induction frames generalizing s with
  | nil => exact ⟨[], fun r hr => absurd hr List.not_mem_nil, s, rfl⟩
  | cons f frames ih =>
    obtain ⟨client, frame⟩ := f
    obtain ⟨r, hr, p, hp⟩ := s.send.exists_sendinl (parse s.protocol frame.1 frame.2).1 client
    obtain ⟨s₁, hs₁⟩ : ∃ s₁, s.getPacket parse client frame r = some s₁ :=
      ⟨_, Option.map_eq_some_iff.mpr ⟨p, hp, rfl⟩⟩
    obtain ⟨results, hresults, s', hs'⟩ := ih s₁
    refine ⟨r :: results, fun r' hr' => ?_, s', ?_⟩
    · rcases List.mem_cons.mp hr' with rfl | hr'
      · exact hr
      · exact hresults r' hr'
    · rw [getPackets, hs₁]
      exact hs'

/-- A connection that is read can read any bytes, and go on. -/
theorem Serving.exists_read {s : AnsweringServer σ} (h : s.Serving host parse head tail a)
    (hshort : ∀ p packet data, (parse p packet data).1.length < 2 ^ 31)
    (hreading : (s.conns.heap a).tcphandle.reading = true) (data : List UInt8) :
    ∃ results : List SendResult, (∀ r ∈ results, r.iret = 0) ∧
      ∃ s', s.step host parse (.conn (.afterRecv a (some data)) results) = some s' ∧
        (s'.conns.heap a).tcphandle.reading = true := by
  obtain ⟨conns, hconns, hread⟩ := h.connection.exists_read hreading data
  obtain ⟨results, hresults, s', hs'⟩ := exists_getPackets parse { s with conns }
    (conns.received.drop s.conns.received.length)
  have hkept := (getPackets_spec (h.toInv.withConns hconns) hshort hs').2.1
  refine ⟨results, hresults, s', ?_, by rwa [hkept]⟩
  have hreported : s.Reported (.afterRecv a (some data)) := trivial
  rw [step, if_pos hreported, hconns]
  exact hs'

end AnsweringServer

/-! ### Both sides -/

namespace Exchange

section Stages

variable {σ : Type*} (host : Host) (parse : ParsePacket σ) (head tail : UInt8) (a : ℕ)
  (buffers : List (List UInt8))

/-- Both sides can go on: the client is sending these buffers, and the server reads the connection. -/
structure Live (s : Exchange σ) : Prop extends s.Inv host parse head tail a where
  client : s.client.Live
  reading : (s.server.conns.heap a).tcphandle.reading = true
  buffers : s.client.sends.map SendCall.data = buffers

/-! The stages in which a conversation is finished: what has been sent is written, read and answered, and
the answers are written and read. -/

/-- All calls of `Send` have returned, and all their bytes are in `uv_write`. -/
structure Sent (s : Exchange σ) : Prop extends Live host parse head tail a buffers s where
  finished : s.client.Finished

/-- The client's queue is empty as well: the kernel has taken all bytes. -/
structure Written (s : Exchange σ) : Prop extends Sent host parse head tail a buffers s where
  queue : s.queue.requests = []

/-- The server has read them all as well. -/
structure Read (s : Exchange σ) : Prop extends Written host parse head tail a buffers s where
  up : s.up = []

/-- The server has written all its answers as well. -/
structure Replied (s : Exchange σ) : Prop extends Read host parse head tail a buffers s where
  answers : (s.server.streams a).queue.requests = []

end Stages

variable {σ : Type*} {host : Host} {parse : ParsePacket σ} {head tail : UInt8} {a : ℕ}
  {buffers : List (List UInt8)} {s : Exchange σ}

/-- The client takes a step. -/
theorem Live.step_client (h : s.Live host parse head tail a buffers) {e : SendEvent} {client : SendState}
    (he : SendState.GoesOn e) (hgood : s.client.Uninterrupted e) (hstep : s.client.step e = some client)
    (hshort : ∀ p packet data, (parse p packet data).1.length < 2 ^ 31) :
    s.Undisturbed a (.client e) ∧
      s.step host parse a (.client e) = some { s with client, queue := s.queueAfter client e } ∧
      Live host parse head tail a buffers { s with client, queue := s.queueAfter client e } := by
  have hundisturbed : s.Undisturbed a (.client e) := by
    cases e with
    | uvWrite iret => exact he
    | sendCheck | sendWrite | asyncCB | afterRecv | drainRead => exact hgood
    | send | close | afterSend => exact he.elim
  have hpossible : s.Possible e := by
    cases e with
    | afterSend => exact he.elim
    | _ => trivial
  have hnext : s.step host parse a (.client e) =
      some { s with client, queue := s.queueAfter client e } := by
    rw [step, if_pos hpossible, hstep]
    rfl
  obtain ⟨hdata, -⟩ := SendState.step_goesOn he hstep
  exact ⟨hundisturbed, hnext, h.toInv.step hshort hundisturbed hnext, h.client.step he hgood hstep,
    h.reading, hdata.trans h.buffers⟩

variable (hshort : ∀ p packet data, (parse p packet data).1.length < 2 ^ 31)
include hshort

/-- The client reads an answer and goes back to the event loop. -/
theorem Replied.exists_read (h : s.Replied host parse head tail a buffers) (hdown : s.down ≠ []) :
    ∃ es s', Along (step host parse a) (Undisturbed a) s es ∧ run (step host parse a) s es = some s' ∧
      s'.Replied host parse head tail a buffers ∧ s'.down.length < s.down.length := by
  have hpos := List.length_pos_of_ne_nil hdown
  -- `AfterRecv` with one byte
  have hrecv : s.client.step .afterRecv = some { s.client with loop := .drain } := if_pos h.finished.loop
  obtain ⟨packet, log, hdecoded, -⟩ := h.started.recvdata (s.down.take 1)
  have h₁ : s.step host parse a (.clientRead 1) = some { s with
      client := { s.client with loop := .drain }
      packet
      down := s.down.drop 1
      received := s.received ++ frames log } := by
    rw [step, if_pos ⟨hpos, by decide⟩, hrecv, hdecoded]
    rfl
  have hgood₁ : s.Undisturbed a (.clientRead 1) := trivial
  have hinv₁ := h.toInv.step hshort hgood₁ h₁
  have hclient₁ := h.client.step (e := .afterRecv) trivial trivial hrecv
  -- `send_inl` finds nothing to send
  obtain ⟨addr, haddr⟩ := SendState.exists_notMem_owned { s.client with loop := .drain }
  have hidle : { s.client with loop := .idle } = s.client := by rw [← h.finished.loop]
  have hdrain : SendState.step { s.client with loop := .drain } (.drainRead addr fun _ => 0) =
      some s.client := by
    refine (if_pos ⟨rfl, haddr⟩).trans ?_
    rw [if_pos h.finished.empty]
    exact congrArg some hidle
  generalize hs₁ : { s with
      client := { s.client with loop := LoopPc.drain }
      packet
      down := s.down.drop 1
      received := s.received ++ frames log } = s₁ at h₁ hinv₁
  have hclient : s₁.client = { s.client with loop := .drain } := by rw [← hs₁]
  have hlive₁ : s₁.Live host parse head tail a buffers := by
    refine ⟨hinv₁, hclient ▸ hclient₁, ?_, ?_⟩
    · rw [← hs₁]
      exact h.reading
    · rw [hclient]
      exact h.buffers
  obtain ⟨hgood₂, h₂, hlive₂⟩ := hlive₁.step_client (e := .drainRead addr fun _ => 0) trivial trivial
    (hclient ▸ hdrain) hshort
  have hqueue : s₁.queueAfter s.client (.drainRead addr fun _ => 0) = s.queue := by
    rw [← hs₁]
    show s.queue.push ((s.client.inFlight.drop s.client.inFlight.length).map Prod.fst) = s.queue
    rw [List.drop_length, List.map_nil, WriteQueue.push_nil]
  rw [hqueue] at h₂ hlive₂
  refine ⟨[.clientRead 1, .client (.drainRead addr fun _ => 0)], _, ⟨hgood₁, ?_⟩, ?_,
    ⟨⟨⟨⟨hlive₂, h.finished⟩, h.queue⟩, ?_⟩, ?_⟩, ?_⟩
  · rw [h₁]
    exact ⟨hgood₂, by rw [h₂]; trivial⟩
  · rw [run, h₁, Option.bind_some, run, h₂]
    rfl
  · rw [← hs₁]
    exact h.up
  · rw [← hs₁]
    exact h.answers
  · rw [← hs₁]
    show (s.down.drop 1).length < s.down.length
    rw [List.length_drop]
    exact Nat.sub_lt hpos Nat.one_pos

end Exchange

end MyUvpp
