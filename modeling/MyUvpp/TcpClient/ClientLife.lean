import MyUvpp.TcpClient.ConnectWait
import MyUvpp.TcpClient.ReconnectProgress
import MyUvpp.TcpClient.SendWork

/-! # The whole client

`TCPClient` and its send path run side by side. They share `isuseraskforclosed_`, and two callbacks belong
to both: `AsyncCB` closes the client or goes on sending, and `AfterRecv` goes on sending after bytes have
been received. -/

namespace MyUvpp

/-! ### What keeps `isuseraskforclosed_` -/

namespace TCPClient

variable {host : Host} {s s' : TCPClient}

/-- Only `Close` changes `isuseraskforclosed_`. -/
theorem step_isuseraskforclosed {e : ClientEvent} (hclose : e ≠ .close)
    (hstep : s.step host e = some s') : s'.isuseraskforclosed = s.isuseraskforclosed := by
  cases steps_of_step hstep with
  | connect r => exact (Quiet.connectTo s false r).userclosed
  | connect6 r => exact (Quiet.connectTo s true r).userclosed
  | connectSlept => exact (Quiet.connectSlept s).userclosed
  | connectWait | connectWaited | send | asyncClosed | loopExit => rfl
  | close => exact absurd rfl hclose
  | asyncCB =>
    rw [asyncCB]
    split
    -- `closeinl` does not reset the flag that has led to it
    case isTrue => exact (Quiet.closeinl _).userclosed
    case isFalse => rfl
  | setReconnectCB | afterConnect | afterRecv | reconnectTimer | tcpClosed | timerClosed =>
    exact (step_apart (by trivial) hstep).isuseraskforclosed

end TCPClient

/-- Whether an event of the send path is part of one of the client. -/
def SendEvent.ofClient : SendEvent → Bool
  | .close | .asyncCB | .afterRecv => true
  | _ => false

namespace SendState

variable {s s' : SendState}

/-- The calls of `Send` from number `n` on that have returned have written their whole buffer. -/
def WholeFrom (n : ℕ) (s : SendState) : Prop :=
  ∀ i c, n ≤ i → s.sends[i]? = some c → c.pc = .returned → c.iret = c.data.length

/-- A call is replaced by one that has not returned, or has written its whole buffer. -/
theorem WholeFrom.set {n : ℕ} (h : s.WholeFrom n) {i : ℕ} {c : SendCall}
    (hc : c.pc = .returned → c.iret = c.data.length) (hsends : s'.sends = s.sends.set i c) :
    s'.WholeFrom n := by
  intro j d hj hd hpc
  rw [hsends, List.getElem?_set] at hd
  split at hd
  case isTrue =>
    obtain ⟨-, heq⟩ := Option.ite_none_right_eq_some.mp hd
    cases heq
    exact hc hpc
  case isFalse => exact h j d hj hd hpc

/-- Only the calls of `Send` matter. -/
theorem WholeFrom.congr {n : ℕ} (h : s.WholeFrom n) (hsends : s'.sends = s.sends) :
    s'.WholeFrom n := by
  intro j d hj hd hpc
  rw [hsends] at hd
  exact h j d hj hd hpc

/-- As long as the user has not asked for the close, a call of `Send` returns when it has written its
whole buffer. -/
theorem WholeFrom.step {n : ℕ} (h : s.WholeFrom n) (hinv : s.Inv)
    (huser : s.isuseraskforclosed = false) {e : SendEvent} (hstep : s.step e = some s') :
    s'.WholeFrom n := by
  cases e with
  | send data =>
    cases hstep
    intro j d hj hd hpc
    rcases lt_or_ge j s.sends.length with hlt | hge
    · exact h j d hj ((List.getElem?_append_left hlt).symm.trans hd) hpc
    · -- the new call has returned only if there is nothing to write
      have hmem := List.mem_of_getElem? ((List.getElem?_append_right hge).symm.trans hd)
      rw [List.mem_singleton.mp hmem] at hpc ⊢
      by_cases hempty : data.length = 0
      · exact hempty.symm
      · rw [if_neg hempty] at hpc
        cases hpc
  | sendCheck i =>
    obtain ⟨c, hc, -, rfl⟩ := step_sendCheck hstep
    -- the flag is not set, so that the call goes on to write
    refine h.set (fun hpc => ?_) rfl
    rw [huser] at hpc
    cases hpc
  | sendWrite i =>
    obtain ⟨c, hc, -, rfl⟩ := step_sendWrite hstep
    obtain ⟨n, hle, -, -, -, -, -, hsends, -⟩ :=
      sendWrite_spec (i := i) hinv (List.mem_of_getElem? hc)
    refine h.set (fun hpc => ?_) hsends
    -- it returns when nothing is left of its buffer
    by_cases hlt : c.iret + n < c.data.length
    · rw [if_pos hlt] at hpc
      cases hpc
    · exact Nat.le_antisymm hle (not_lt.mp hlt)
  | close =>
    cases hstep
    exact h.congr rfl
  | _ =>
    obtain ⟨hsends, -⟩ := step_onLoop hstep trivial
    exact h.congr hsends

/-- Only `Close` changes the flag. -/
theorem step_isuseraskforclosed {e : SendEvent} (hclose : e.ofClient = false)
    (hstep : s.step e = some s') : s'.isuseraskforclosed = s.isuseraskforclosed := by
  cases e with
  | send data =>
    cases hstep
    rfl
  | sendCheck i =>
    obtain ⟨c, -, -, rfl⟩ := step_sendCheck hstep
    rfl
  | sendWrite i =>
    obtain ⟨c, -, -, rfl⟩ := step_sendWrite hstep
    rfl
  | close => cases hclose
  | _ => exact (step_onLoop hstep trivial).2.2.2

/-- The part of the send path in a callback of the client. -/
def callback (s : SendState) : ClientEvent → Option SendState
  | .asyncCB => s.step .asyncCB
  | .afterRecv (some _) => s.step .afterRecv
  | _ => some s

/-- What a callback of the client means for its sending: nothing, or one of its events. -/
theorem callback_cases {e : ClientEvent} (hcall : s.callback e = some s') :
    s' = s ∨ ∃ f, s.step f = some s' := by
  rw [callback.eq_def] at hcall
  split at hcall
  case h_1 => exact .inr ⟨_, hcall⟩
  case h_2 => exact .inr ⟨_, hcall⟩
  case h_3 => exact .inl (Option.some.inj hcall).symm

end SendState

/-- `TCPClient` with its send path. -/
structure ClientLife where
  client : TCPClient
  sending : SendState

/-- What may happen next. The two calls of `uv_async_send` in `Send` are events of the client. -/
inductive LifeEvent where
  | client (e : ClientEvent)
  | sending (e : SendEvent)

namespace ClientLife

/-- `TCPClient::TCPClient`. -/
def new (packhead packtail : UInt8) (u : Indeterminate) (pBuf : Mem UInt8) (heap : ℕ → WriteParam) :
    ClientLife :=
  ⟨.new packhead packtail u, .initial pBuf heap⟩

/-- One step of the client or of its send path; the flag is that of the client. -/
def step (host : Host) (l : ClientLife) : LifeEvent → Option ClientLife
  | .client e =>
    (l.client.step host e).bind fun client => (l.sending.callback e).map fun sending =>
      ⟨client, { sending with isuseraskforclosed := client.isuseraskforclosed }⟩
  | .sending e =>
    if e.ofClient then none else (l.sending.step e).map fun sending => { l with sending }

/-- The two sides agree about the flag, and the send path is in order. -/
structure Inv (l : ClientLife) : Prop where
  sending : l.sending.Ready
  flag : l.sending.isuseraskforclosed = l.client.isuseraskforclosed

variable {host : Host} {l l' : ClientLife}

/-- A new client is in order. -/
theorem inv_new (packhead packtail : UInt8) (u : Indeterminate) (pBuf : Mem UInt8)
    (heap : ℕ → WriteParam) : (new packhead packtail u pBuf heap).Inv :=
  ⟨SendState.ready_initial pBuf heap, rfl⟩

/-- A step of the client is a step of both parts. -/
theorem step_client {e : ClientEvent} (hstep : l.step host (.client e) = some l') :
    ∃ sending, l.client.step host e = some l'.client ∧ l.sending.callback e = some sending ∧
      l'.sending = { sending with isuseraskforclosed := l'.client.isuseraskforclosed } := by
  obtain ⟨client, hclient, hrest⟩ := Option.bind_eq_some_iff.mp hstep
  obtain ⟨sending, hsending, rfl⟩ := Option.map_eq_some_iff.mp hrest
  exact ⟨sending, hclient, hsending, rfl⟩

/-- An event of the sending leaves the rest of the client alone. -/
theorem step_sending {e : SendEvent} (hstep : l.step host (.sending e) = some l') :
    e.ofClient = false ∧ l.sending.step e = some l'.sending ∧ l'.client = l.client := by
  obtain ⟨hown, hrest⟩ := Option.ite_none_left_eq_some.mp hstep
  obtain ⟨sending, hsending, rfl⟩ := Option.map_eq_some_iff.mp hrest
  exact ⟨Bool.eq_false_iff.mpr hown, hsending, rfl⟩

/-- Every step keeps the invariant. -/
theorem Inv.step {e : LifeEvent} (h : l.Inv) (hstep : l.step host e = some l') : l'.Inv := by
  cases e with
  | client e =>
    obtain ⟨sending, -, hsending, heq⟩ := step_client hstep
    refine ⟨?_, by rw [heq]⟩
    rw [heq]
    -- most events of the client do not reach the send path
    rcases SendState.callback_cases hsending with rfl | ⟨f, hf⟩
    · exact h.sending.setFlag _
    · exact (h.sending.step hf).setFlag _
  | sending e =>
    obtain ⟨hown, hsending, hclient⟩ := step_sending hstep
    refine ⟨h.sending.step hsending, ?_⟩
    rw [SendState.step_isuseraskforclosed hown hsending, h.flag, hclient]

end ClientLife

end MyUvpp
