import MyUvpp.TcpClient.ClientLife
import MyUvpp.TcpClient.ConnectWait

/-! # Connecting a closed client again

`Connect` sets up the handles of a closed client anew, but neither `connectstatus_` nor
`isuseraskforclosed_`: what an earlier connection has left there decides about the next one. A client
connects like a new one exactly when both are as the constructor has set them. -/

namespace MyUvpp

/-- What may happen while `Connect` or `Connect6` waits. -/
def LifeEvent.DuringWait : LifeEvent → Prop
  | .client e => e.DuringWait
  | .sending _ => True

/-- Whether an event may come during the wait of `Connect` can be decided. -/
instance : DecidablePred LifeEvent.DuringWait
  | .client e => inferInstanceAs (Decidable e.DuringWait)
  | .sending _ => isTrue trivial

/-- The user does not ask for the close. -/
def LifeEvent.NotClose : LifeEvent → Prop
  | .client .close => False
  | _ => True

/-- The user does not connect again. -/
def LifeEvent.NotConnect : LifeEvent → Prop
  | .client e => ¬ e.IsConnect
  | .sending _ => True

/-- The answer that an event gives to a request that is pending. -/
def LifeEvent.answer : LifeEvent → Option (ℤ × ℤ)
  | .client e => e.answer
  | .sending _ => none

/-- Whether a sleep of the wait loop begins, counted. -/
def LifeEvent.sleep : LifeEvent → ℕ
  | .client e => e.sleep
  | .sending _ => 0

/-- A step by which call number `i` of `Send` goes on: one of its own, one of the loop thread for it, or a signal
that wakes the loop thread. -/
def LifeEvent.GoesOnFor (i : ℕ) : LifeEvent → Prop
  | .sending e => e.GoesOnFor i
  | .client .send | .client .asyncCB => True
  | .client _ => False

/-- A step of `send_inl`. -/
def LifeEvent.InSendInl : LifeEvent → Prop
  | .sending e => e.InSendInl
  | .client _ => False

/-- How the request of a call has been answered by the events since then. -/
def ownAnswer (ls : List LifeEvent) : Option (ℤ × ℤ) := ls.findSome? LifeEvent.answer

/-- How many sleeps of the wait loop have begun. -/
def sleeps (ls : List LifeEvent) : ℕ := (ls.map LifeEvent.sleep).sum

namespace ClientLife

/-- A call of `Connect` or `Connect6` in the state `l` has come to its wait loop, and is still there in
the state `l'`, after the events `ls`. -/
def Waits (host : Host) (l : ClientLife) (ls : List LifeEvent) (l' : ClientLife) : Prop :=
  ∃ e l₁, e.IsConnect ∧ l.step host (.client e) = some l₁ ∧ l₁.client.connecting = true ∧
    (∀ e ∈ ls, e.DuringWait) ∧ run (step host) l₁ ls = some l' ∧ l'.client.connecting = true

/-- It has returned from its wait loop after the events `ls`, and the state is `l'`. -/
def WaitEnds (host : Host) (l : ClientLife) (ls : List LifeEvent) (l' : ClientLife) : Prop :=
  ∃ l₁ e, l.Waits host ls l₁ ∧ e.EndsWait ∧ l₁.step host (.client e) = some l' ∧
    l'.client.connecting = false

/-- It has returned true, and the user has not asked for the close since the call; the state is `l₁` when it
returns, and `l₂` after the further events `ls`. -/
structure Connects (host : Host) (l l₁ : ClientLife) (ls : List LifeEvent) (l₂ : ClientLife) : Prop where
  returned : ∃ ls₀, l.WaitEnds host ls₀ l₁ ∧ l₁.client.Returned true ∧ ∀ e ∈ ls₀, e.NotClose
  run : run (step host) l₁ ls = some l₂
  notClose : ∀ e ∈ ls, e.NotClose

variable {host : Host} {l l' : ClientLife} {q : ConnectStatus}

/-! ### The wait loop -/

/-- One more event sleeps once more, or not. -/
theorem sleeps_concat (ls : List LifeEvent) (e : LifeEvent) : sleeps (ls ++ [e]) = sleeps ls + e.sleep := by
  rw [sleeps, List.map_append, List.sum_append]
  rfl

/-- The first answer stays the answer of the request. -/
theorem ownAnswer_concat (ls : List LifeEvent) (e : LifeEvent) :
    ownAnswer (ls ++ [e]) = (ownAnswer ls).or e.answer := by
  rw [ownAnswer, List.findSome?_append]
  cases hanswer : e.answer <;> simp [ownAnswer, hanswer]

/-- The first answer stays the first one. -/
theorem ownAnswer_mono {ls₁ ls : List LifeEvent} (hle : ls₁ <+: ls) {a : ℤ × ℤ}
    (hanswer : ownAnswer ls₁ = some a) : ownAnswer ls = some a := by
  obtain ⟨ls₂, rfl⟩ := hle
  rw [ownAnswer] at hanswer ⊢
  rw [List.findSome?_append, hanswer]
  rfl

/-- During the wait, the call has not returned before. -/
theorem connecting_of_step {e : LifeEvent} (hwait : e.DuringWait) (hstep : l.step host e = some l')
    (hconn : l'.client.connecting = true) : l.client.connecting = true := by
  cases e with
  | client e =>
    obtain ⟨_, hclient, -⟩ := step_client hstep
    exact TCPClient.connecting_of_step hwait hclient hconn
  | sending e =>
    obtain ⟨-, -, hclient⟩ := step_sending hstep
    exact hclient ▸ hconn

/-- A call in its wait loop after the events of `hist`. -/
structure Waiting (q : ConnectStatus) (hist : List LifeEvent) (l : ClientLife) : Prop where
  loop : l.client.WaitLoop (sleeps hist)
  /-- The first answer decides about the status. -/
  request : (ownAnswer hist = none ∧ l.client.Pending q) ∨
    ∃ a, ownAnswer hist = some a ∧ l.client.Answered (answerStatus a)
  /-- And no sleep has begun since. -/
  answered : ∀ ls, ls <+: hist → ownAnswer ls ≠ none → sleeps hist = sleeps ls

/-- An event of the wait that does not end it leaves the call waiting, with that event in its history. -/
theorem Waiting.step {hist : List LifeEvent} (h : Waiting q hist l) {e : LifeEvent} (hwait : e.DuringWait)
    (hstep : l.step host e = some l') (hconn : l'.client.connecting = true) :
    Waiting q (hist ++ [e]) l' := by
  obtain ⟨hloop, hrequest, hsleep⟩ : l'.client.WaitLoop (sleeps hist + e.sleep) ∧
      (((ownAnswer hist).or e.answer = none ∧ l'.client.Pending q) ∨
        ∃ a, (ownAnswer hist).or e.answer = some a ∧ l'.client.Answered (answerStatus a)) ∧
      (ownAnswer hist ≠ none → e.sleep = 0) := by
    cases e with
    | sending e =>
      -- `Send` and the loop of the send path have nothing to do with the call
      obtain ⟨-, -, hclient⟩ := step_sending hstep
      rw [hclient]
      refine ⟨h.loop, ?_, fun _ => rfl⟩
      show ((ownAnswer hist).or none = none ∧ _) ∨ ∃ a, (ownAnswer hist).or none = some a ∧ _
      rw [Option.or_none]
      exact h.request
    | client e =>
      obtain ⟨_, hclient, -⟩ := step_client hstep
      refine ⟨h.loop.step hwait hclient hconn, ?_⟩
      rcases h.request with ⟨hnone, hpending⟩ | ⟨a, ha, hanswered⟩
      · rw [hnone, Option.none_or]
        refine ⟨?_, fun hne => absurd rfl hne⟩
        cases hanswer : e.answer with
        | none => exact .inl ⟨hanswer, hpending.step hwait hanswer hclient hconn⟩
        | some a => exact .inr ⟨a, hanswer, hpending.step_answer hanswer hclient⟩
      · rw [ha, Option.some_or]
        exact ⟨.inr ⟨a, rfl, hanswered.step hwait hclient hconn⟩,
          fun _ => hanswered.not_sleep (answerStatus_ne_dis a) hclient⟩
  rw [← sleeps_concat] at hloop
  rw [← ownAnswer_concat] at hrequest
  refine ⟨hloop, hrequest, fun ls hle hanswer => ?_⟩
  rcases List.prefix_concat_iff.mp hle with rfl | hle
  · rfl
  · have hbefore : ownAnswer hist ≠ none := by
      obtain ⟨a, ha⟩ := Option.ne_none_iff_exists'.mp hanswer
      rw [ownAnswer_mono hle ha]
      exact Option.some_ne_none a
    rw [sleeps_concat, hsleep hbefore, h.answered ls hle hanswer]
    rfl

/-- A call of `Connect` or `Connect6` is one of `connectTo`. -/
theorem step_connect {e : ClientEvent} (he : e.IsConnect) (hstep : l.step host (.client e) = some l') :
    ∃ isIPv6 r, l'.client = l.client.connectTo isIPv6 r := by
  obtain ⟨_, hclient, -⟩ := step_client hstep
  cases e with
  | connect r => exact ⟨false, r, (Option.some.inj hclient).symm⟩
  | connect6 r => exact ⟨true, r, (Option.some.inj hclient).symm⟩
  | _ => exact he.elim

/-- A call on a closed client that comes to its wait loop. -/
theorem client_eq_waiting {e : ClientEvent} (hclosed : l.client.isclosed = true) (he : e.IsConnect)
    (hstep : l.step host (.client e) = some l') (hconn : l'.client.connecting = true) :
    ∃ isIPv6, l'.client = l.client.waiting isIPv6 := by
  obtain ⟨isIPv6, r, heq⟩ := step_connect he hstep
  rcases TCPClient.connectTo_of_closed hclosed isIPv6 r with ⟨-, hnot⟩ | hwaiting
  -- the call has returned already
  · rw [heq, hnot] at hconn
    cases hconn
  · exact ⟨isIPv6, heq.trans hwaiting⟩

/-- During the wait, the status is the one before the call until there is an answer. -/
theorem Waits.waiting {ls : List LifeEvent} (h : l.Waits host ls l') (hclosed : l.client.isclosed = true) :
    Waiting l.client.connectstatus ls l' := by
  obtain ⟨e, l₁, he, hstep, hconn, hwait, hrun, hconn'⟩ := h
  obtain ⟨isIPv6, heq⟩ := client_eq_waiting hclosed he hstep hconn
  have hstart : Waiting l.client.connectstatus [] l₁ := by
    refine ⟨?_, .inl ⟨rfl, ?_⟩, fun ls hle hanswer => ?_⟩
    · rw [heq]
      exact TCPClient.waitLoop_waiting l.client isIPv6
    · rw [heq]
      exact TCPClient.pending_waiting l.client isIPv6
    · rw [List.prefix_nil.mp hle]
  have hend : (∀ e ∈ [] ++ ls, e.DuringWait) → l'.client.connecting = true →
      Waiting l.client.connectstatus ([] ++ ls) l' := by
    refine run_invariant_history (I := fun hist l' => (∀ e ∈ hist, e.DuringWait) →
      l'.client.connecting = true → Waiting l.client.connectstatus hist l')
      (fun hist l₂ e l₃ h hstep hwait hconn => ?_) (fun _ _ => hstart) hrun
    have he := hwait e (List.mem_append_right _ (List.mem_singleton_self e))
    have hhist := fun e' he' => hwait e' (List.mem_append_left _ he')
    exact (h hhist (connecting_of_step he hstep hconn)).step he hstep hconn
  exact hend hwait hconn'

/-- What a call returns that has come to its wait loop with `CONNECT_DIS`. -/
theorem WaitEnds.returned {ls : List LifeEvent} (h : l.WaitEnds host ls l')
    (hclosed : l.client.isclosed = true) (hstatus : l.client.connectstatus = .connectDis) :
    l'.client.Returned true ↔ ∃ ls₁, ls₁ <+: ls ∧ sleeps ls₁ ≤ 100 ∧ ownAnswer ls₁ = some (0, 0) := by
  obtain ⟨l₁, e, hwaits, he, hstep, hconn⟩ := h
  have hwaiting := hwaits.waiting hclosed
  obtain ⟨_, hclient, -⟩ := step_client hstep
  cases e with
  | connectSlept =>
    obtain ⟨hup, hreturned⟩ := hwaiting.loop.connectSlept hclient hconn
    refine iff_of_false (fun htrue => ?_) ?_
    · cases hreturned.symm.trans htrue
    · -- an answer in time would have kept the loop from its last sleep
      rintro ⟨ls₁, hle, htime, hanswer⟩
      have hsame := hwaiting.answered ls₁ hle (by rw [hanswer]; exact Option.some_ne_none _)
      omega
  | connectWaited =>
    obtain ⟨htime, hreturned⟩ := hwaiting.loop.connectWaited hclient
    rw [hreturned]
    rcases hwaiting.request with ⟨hnone, hpending⟩ | ⟨a, ha, hanswered⟩
    · rw [hpending.connectstatus, hstatus]
      refine iff_of_false (fun h => by cases h) ?_
      rintro ⟨ls₁, hle, -, hanswer⟩
      cases hnone.symm.trans (ownAnswer_mono hle hanswer)
    · rw [hanswered.connectstatus, answerStatus_eq_finish]
      constructor
      · rintro rfl
        exact ⟨ls, List.prefix_rfl, htime, ha⟩
      · rintro ⟨ls₁, hle, -, hanswer⟩
        exact Option.some.inj (ha.symm.trans (ownAnswer_mono hle hanswer))
  | _ => exact he.elim

/-! ### After the wait -/

/-- The user has not asked for the close. -/
structure Usable (l : ClientLife) : Prop extends l.Inv where
  user : l.client.isuseraskforclosed = false

/-- A client that is not closed by the user stays usable. -/
theorem Usable.step (h : l.Usable) {e : LifeEvent} (hclose : e.NotClose)
    (hstep : l.step host e = some l') : l'.Usable := by
  refine ⟨h.toInv.step hstep, ?_⟩
  cases e with
  | client e =>
    obtain ⟨_, hclient, -⟩ := step_client hstep
    have hne : e ≠ .close := by
      rintro rfl
      exact hclose
    exact (TCPClient.step_isuseraskforclosed hne hclient).trans h.user
  | sending e =>
    obtain ⟨-, -, hclient⟩ := step_sending hstep
    rw [hclient]
    exact h.user

/-- So it does along a run. -/
theorem Usable.run (h : l.Usable) {ls : List LifeEvent} (hclose : ∀ e ∈ ls, e.NotClose)
    (hrun : MyUvpp.run (ClientLife.step host) l ls = some l') : l'.Usable := by
  have halong : Along (ClientLife.step host) (fun _ e => e.NotClose) l ls := Along.of_forall hclose
  exact run_invariant_along (I := Usable) (fun _ _ _ h hc hs => h.step hc hs) h halong hrun

/-- The loop thread runs as well. -/
structure Running (l : ClientLife) : Prop extends l.Usable where
  awake : l.client.Awake

/-- As long as the user neither closes the client nor connects again, its loop thread runs and can be woken.
-/
theorem Running.step (h : l.Running) {e : LifeEvent} (hclose : e.NotClose) (hconnect : e.NotConnect)
    (hstep : l.step host e = some l') : l'.Running := by
  refine ⟨h.toUsable.step hclose hstep, ?_⟩
  cases e with
  | client e =>
    obtain ⟨_, hclient, -⟩ := step_client hstep
    have hne : e ≠ .close := by
      rintro rfl
      exact hclose
    exact h.awake.step h.user hne hconnect hclient
  | sending e =>
    obtain ⟨-, -, hclient⟩ := step_sending hstep
    exact hclient ▸ h.awake

/-- So it does along a run. -/
theorem Running.run (h : l.Running) {ls : List LifeEvent} (hclose : ∀ e ∈ ls, e.NotClose)
    (hconnect : ∀ e ∈ ls, e.NotConnect) (hrun : MyUvpp.run (ClientLife.step host) l ls = some l') :
    l'.Running := by
  have halong : Along (ClientLife.step host) (fun _ e => e.NotClose ∧ e.NotConnect) l ls :=
    Along.of_forall fun e he => ⟨hclose e he, hconnect e he⟩
  exact run_invariant_along (I := Running) (fun _ _ _ h hc hs => h.step hc.1 hc.2 hs) h halong hrun

/-- So it does when a call returns that has been in its wait loop. -/
theorem Usable.returned (h : l.Usable) (hclosed : l.client.isclosed = true) {ls : List LifeEvent}
    (hends : l.WaitEnds host ls l') (hclose : ∀ e ∈ ls, e.NotClose) : l'.Running := by
  obtain ⟨l₁, e, ⟨e₀, l₀, he₀, hconnect, hconn, hwait, hrun, -⟩, he, hstep, -⟩ := hends
  -- neither the call nor the end of its wait is a call of `Close`
  have hne₀ : LifeEvent.NotClose (.client e₀) := by
    cases e₀ with
    | close => exact he₀.elim
    | _ => trivial
  obtain ⟨hne, hnot⟩ : LifeEvent.NotClose (.client e) ∧ ¬ e.IsConnect := by
    cases e with
    | connectSlept | connectWaited => exact ⟨trivial, id⟩
    | _ => exact he.elim
  have hnone : ∀ e ∈ ls, e.NotConnect := by
    rintro (e | e) hmem
    · intro hc
      have hduring := hwait _ hmem
      cases e with
      | connect | connect6 => exact hduring
      | _ => exact hc
    · trivial
  obtain ⟨isIPv6, heq⟩ := client_eq_waiting hclosed he₀ hconnect hconn
  have hstart : l₀.Running := ⟨h.step hne₀ hconnect, heq ▸ TCPClient.awake_waiting l.client isIPv6⟩
  exact (hstart.run hclose hnone hrun).step hne hnot hstep

/-- When the wait of a call of `Connect` is over, the loop thread runs. -/
theorem Connects.running {l₁ l₂ : ClientLife} {ls : List LifeEvent} (h : l.Connects host l₁ ls l₂)
    (husable : l.Usable) (hclosed : l.client.isclosed = true) : l₁.Running := by
  obtain ⟨ls₀, hends, -, hclose⟩ := h.returned
  exact husable.returned hclosed hends hclose

/-- `AsyncCB` of a client that is not to be closed. -/
theorem Usable.asyncCB (h : l.Usable) (hstep : l.step host (.client .asyncCB) = some l') :
    (l.sending.loop = .idle ∧ l'.sending = { l.sending with loop := .drain }) ∧
      l'.client = { l.client with asyncHandle := l.client.asyncHandle.received } := by
  obtain ⟨sending, hclient, hsending, heq⟩ := step_client hstep
  obtain ⟨-, hcb⟩ := Option.ite_none_right_eq_some.mp hclient
  obtain ⟨hidle, hdrain⟩ := Option.ite_none_right_eq_some.mp hsending
  have hclientEq : l'.client = { l.client with asyncHandle := l.client.asyncHandle.received } := by
    rw [← Option.some.inj hcb, TCPClient.asyncCB]
    exact if_neg (Bool.eq_false_iff.mp h.user)
  refine ⟨⟨hidle, ?_⟩, hclientEq⟩
  -- both parts of the callback look at the same flag
  rw [h.flag, h.user, if_neg Bool.false_ne_true] at hdrain
  cases hdrain
  rw [heq, hclientEq]
  exact congrArg (fun b => { l.sending with loop := .drain, isuseraskforclosed := b }) h.flag.symm

/-! ### Until all is sent -/

/-- The client at the beginning of the wait loop of a call in which everything succeeds. -/
def waiting (l : ClientLife) : ClientLife :=
  ⟨l.client.waiting false, { l.sending with isuseraskforclosed := l.client.isuseraskforclosed }⟩

end ClientLife

end MyUvpp
