import MyUvpp.TcpServer.ServerRun

/-! # The mutex of the clients

Every function that locks `mutex_clients_` unlocks it again but `closeinl`, which keeps it when it has
closed the clients; and `SubClientClosed` calls the user while it holds it. The mutex is free between
any two steps as long as the server is not closed and `closedcb_` does not need the mutex, and exactly
then. -/

namespace MyUvpp

namespace ServerState

/-- The event does not make `closeinl` go on behind its guard, and `closedcb_` does not call
`SetRecvCB` when it is told of a closed client. -/
def KeepsMutex (s : ServerState) (e : ServerLifeEvent) : Prop :=
  s.closesAll e = false ∧
    match e with
    | .tcpClosed addr closedcb =>
      (s.heap addr).tcphandle.state = .closing (some .afterClientClose) → .setRecvCB ∉ closedcb
    | _ => True

/-- Whether an event gives the mutex back can be looked up in the state before it. -/
instance (s : ServerState) : ∀ e, Decidable (s.KeepsMutex e)
  | .tcpClosed _ _ => inferInstanceAs (Decidable (_ ∧ (_ → _)))
  | .start _ _ | .startThread | .startWaited _ | .setRecvCB _ | .broadcast _ _ | .close
  | .asyncCloseCB | .acceptConnection _ _ _ _ | .afterRecv _ _ | .serverClosed | .asyncClosed
  | .loopExit => inferInstanceAs (Decidable (_ ∧ True))

variable {host : Host} {s s' : ServerState}

/-! ### The calls from `closedcb_` -/

/-- `Close` does not touch the mutex of the clients. -/
theorem mutexClients_close (s : ServerState) : s.close.mutexClients = s.mutexClients := by
  obtain ⟨_, _, heq⟩ := s.close_eq
  rw [heq]

/-- Calls that do not need the mutex leave it alone. -/
theorem mutexClients_calls {cs : List ServerCall} (hnot : .setRecvCB ∉ cs)
    (hcalls : calls cs s = some s') : s'.mutexClients = s.mutexClients := by
  induction cs generalizing s with
  | nil =>
    cases hcalls
    rfl
  | cons c cs ih =>
    obtain ⟨hc, hcs⟩ := not_or.mp (List.mem_cons.not.mp hnot)
    obtain ⟨s₁, hs₁, hrest⟩ := Option.bind_eq_some_iff.mp hcalls
    cases c with
    | setRecvCB => exact absurd rfl hc
    | close =>
      cases hs₁
      rw [ih hcs hrest, mutexClients_close]

/-- Calls from a thread that holds the mutex: that it has been locked twice stays recorded, and
`SetRecvCB` locks it twice. -/
theorem relocked_calls {cs : List ServerCall} (hheld : s.mutexClients.holders ≠ [])
    (h : .setRecvCB ∈ cs ∨ s.mutexClients.relocked = true) (hcalls : calls cs s = some s') :
    s'.mutexClients.relocked = true := by
  -- on the calls that are left; the caller holds the mutex throughout
  induction cs generalizing s with
  | nil =>
    cases hcalls
    exact h.resolve_left List.not_mem_nil
  | cons c cs ih =>
    obtain ⟨s₁, hs₁, hrest⟩ := Option.bind_eq_some_iff.mp hcalls
    cases c with
    | setRecvCB =>
      obtain ⟨m, hm, rfl⟩ := section_eq hs₁
      have hrelocked : m.relocked = true := UvMutex.relocked_of_lock hm (.inl hheld)
      refine ih ?_ (.inr hrelocked) hrest
      show m.holders.tail ≠ []
      rwa [UvMutex.holders_of_lock hm]
    | close =>
      cases hs₁
      refine ih ?_ ?_ hrest
      · rwa [mutexClients_close]
      · rw [mutexClients_close]
        exact h.imp_left fun hmem => (List.mem_cons.mp hmem).resolve_left fun heq => by cases heq

/-! ### The steps -/

/-- A critical section of one thread. -/
theorem free_section {t : ServerThread} (h : s.mutexClients.Free)
    (hlock : (s.lockClients t).map unlockClients = some s') : s'.mutexClients.Free := by
  obtain ⟨m, hm, rfl⟩ := section_eq hlock
  exact h.unlock_of_lock hm

/-- `closeinl` behind its guard keeps the mutex. -/
theorem held_closeAll {t : ServerThread} (h : s.closeAll t = some s') :
    s'.mutexClients.holders ≠ [] := by
  obtain ⟨⟨m, hm, heq⟩, -⟩ := closeAll_eq h
  rw [heq, UvMutex.holders_of_lock hm]
  exact List.cons_ne_nil _ _

/-- `closeinl` gives a free mutex back if it does nothing. -/
theorem free_closeinl_iff (h : s.mutexClients.Free) {t : ServerThread}
    (hclose : s.closeinl t = some s') : s'.mutexClients.Free ↔ s.isclosed = true := by
  rcases closeinl_cases hclose with ⟨hclosed, rfl⟩ | ⟨hopen, hall⟩
  · exact iff_of_true h hclosed
  · exact iff_of_false (fun hfree => held_closeAll hall hfree.1) (Bool.eq_false_iff.mp hopen)

/-- Neither does the initialisation on the calling thread. -/
theorem mutexClients_startInit (s : ServerState) (r : StartResult) :
    (s.startInit r).mutexClients = s.mutexClients := by
  obtain ⟨_, _, _, _, _, _, _, heq⟩ := s.startInit_eq r
  rw [heq]

/-- The signal of `Close` finds the mutex free: it is free afterwards if `closeinl` is not called or
does nothing. -/
theorem free_asyncCloseCB_iff (h : s.mutexClients.Free) (hcb : s.asyncCloseCB = some s') :
    s'.mutexClients.Free ↔ s.closesAll .asyncCloseCB = false := by
  rw [asyncCloseCB] at hcb
  simp only at hcb
  split at hcb
  case isTrue hasked =>
    -- the user has asked for it
    have hall : s.closesAll .asyncCloseCB = !s.isclosed := by
      rw [closesAll, show s.isuseraskforclosed = true from hasked, Bool.true_and]
    rw [hall, Bool.not_eq_false']
    exact free_closeinl_iff (s := { s with asyncHandleClose := s.asyncHandleClose.received }) h hcb
  case isFalse hasked =>
    cases hcb
    exact iff_of_true h (by rw [closesAll, Bool.eq_false_iff.mpr hasked, Bool.false_and])

/-- A client is inserted under the mutex; a failure does not touch it. -/
theorem free_acceptConnection (h : s.mutexClients.Free) {status : ℤ} {r : AcceptResult} {addr : ℕ}
    {u : Indeterminate} (hcb : s.acceptConnection status r addr u = some s') :
    s'.mutexClients.Free := by
  rw [acceptConnection] at hcb
  simp only at hcb
  split at hcb
  case isTrue =>
    cases hcb
    exact h
  case isFalse =>
    split at hcb
    case isTrue =>
      cases hcb
      exact h
    case isFalse =>
      split at hcb
      case isTrue =>
        cases hcb
        exact h
      case isFalse =>
        -- the client is put into the list
        refine free_section ?_ hcb
        exact h

/-- A read callback takes and releases no mutex: a close that it asks for is delivered later. -/
theorem mutexClients_afterRecv {addr : ℕ} {nread : Option (List UInt8)}
    (hcb : s.afterRecv host addr nread = some s') : s'.mutexClients = s.mutexClients := by
  cases nread with
  | none =>
    obtain ⟨c, -, rfl⟩ := Option.map_eq_some_iff.mp hcb
    rfl
  | some data =>
    obtain ⟨p, -, rfl⟩ := Option.map_eq_some_iff.mp hcb
    rfl

/-- The mutex when the close of the handle of a client completes: it is free if and only if `closedcb_`
does not call `SetRecvCB`. -/
theorem free_tcpClosed_client (hs : s.ConnInv) (h : s.mutexClients.Free) {addr : ℕ}
    (hstate : (s.heap addr).tcphandle.state = .closing (some .afterClientClose))
    {closedcb : List ServerCall}
    (hcb : s.tcpClosed addr (some .afterClientClose) closedcb = some s') :
    s'.mutexClients.Free ↔ .setRecvCB ∉ closedcb := by
  obtain ⟨c, hc, rfl⟩ := List.mem_map.mp (hs.closing addr hstate)
  have hdata : (s.heap c.clientHandle).tcphandle.data = some (.acceptClient c.clientId) := by
    rcases (hs.serves c hc).handle with ⟨hopened, -⟩ | ⟨-, hdata⟩
    · cases hopened.symm.trans hstate
    · exact hdata
  have hfound : s.clientsList.any (·.clientId = c.clientId) = true :=
    List.any_eq_true.mpr ⟨c, hc, decide_eq_true rfl⟩
  rw [tcpClosed.eq_def] at hcb
  simp only [hdata, hfound, if_true] at hcb
  obtain ⟨s₂, hs₂, rfl⟩ := Option.map_eq_some_iff.mp hcb
  obtain ⟨s₁, hs₁, hcalls⟩ := Option.bind_eq_some_iff.mp hs₂
  obtain ⟨m, hm, rfl⟩ := lockClients_eq hs₁
  constructor
  · intro hfree hmem
    -- the user is called while the loop thread holds the mutex
    have hrelocked := relocked_calls (by
      rw [show _ = m from rfl, UvMutex.holders_of_lock hm]
      exact List.cons_ne_nil _ _) (.inl hmem) hcalls
    cases hrelocked.symm.trans hfree.2
  · intro hnot
    show s₂.mutexClients.unlock.Free
    rw [mutexClients_calls hnot hcalls]
    exact h.unlock_of_lock hm

/-- The mutex when the close of a handle completes: only for a client is `closedcb_` called. -/
theorem free_tcpClosed_iff (hs : s.ConnInv) (h : s.mutexClients.Free) {addr : ℕ}
    {cb : Option ServerCloseCb} (hstate : (s.heap addr).tcphandle.state = .closing cb)
    {closedcb : List ServerCall} (hcb : s.tcpClosed addr cb closedcb = some s') :
    s'.mutexClients.Free ↔ (cb = some .afterClientClose → .setRecvCB ∉ closedcb) := by
  by_cases hclient : cb = some .afterClientClose
  · subst hclient
    exact (free_tcpClosed_client hs h hstate hcb).trans (imp_iff_right rfl).symm
  · refine iff_of_true ?_ (absurd · hclient)
    rw [tcpClosed.eq_def] at hcb
    simp only at hcb
    split at hcb
    case h_1 => exact absurd rfl hclient
    case h_2 =>
      cases hcb
      exact h

/-- `Broadcast` gives the mutex back, or does not lock it. -/
theorem free_broadcast (h : s.mutexClients.Free) {t : ServerThread} {empty : Bool}
    (hsend : s.broadcast t empty = some s') : s'.mutexClients.Free := by
  rw [broadcast] at hsend
  split at hsend
  case isTrue =>
    cases hsend
    exact h
  case isFalse => exact free_section h hsend

/-- **What a step does to a free mutex.** -/
theorem step_free_iff (hs : s.ConnInv) (h : s.mutexClients.Free) {e : ServerLifeEvent}
    (hstep : s.step host e = some s') : s'.mutexClients.Free ↔ s.KeepsMutex e := by
  cases steps_of_step hstep with
  | start t r _ hstart =>
    obtain ⟨s₁, hs₁, rfl⟩ := Option.map_eq_some_iff.mp hstart
    rw [mutexClients_startInit, free_closeinl_iff h hs₁, ← Bool.not_eq_false']
    exact ⟨fun hkeeps => ⟨hkeeps, trivial⟩, fun hkeeps => hkeeps.1⟩
  | startThread | serverClosed | asyncClosed | loopExit => exact iff_of_true h ⟨rfl, trivial⟩
  | startWaited timedOut =>
    refine iff_of_true ?_ ⟨rfl, trivial⟩
    rw [startWaited]
    split <;> exact h
  | setRecvCB t _ hset => exact iff_of_true (free_section h hset) ⟨rfl, trivial⟩
  | broadcast t empty _ hsend => exact iff_of_true (free_broadcast h hsend) ⟨rfl, trivial⟩
  | close =>
    rw [mutexClients_close]
    exact iff_of_true h ⟨rfl, trivial⟩
  | asyncCloseCB _ _ _ _ hcb =>
    exact (free_asyncCloseCB_iff h hcb).trans (and_iff_left trivial).symm
  | acceptConnection status r addr u _ _ _ _ _ hcb =>
    exact iff_of_true (free_acceptConnection h hcb) ⟨rfl, trivial⟩
  | afterRecv addr nread _ _ _ _ _ _ hcb =>
    refine iff_of_true ?_ ⟨rfl, trivial⟩
    rwa [mutexClients_afterRecv hcb]
  | tcpClosed addr cb closedcb _ _ _ hclosing hcb =>
    refine (free_tcpClosed_iff hs h hclosing hcb).trans ⟨fun hnot => ⟨rfl, fun hclient => ?_⟩,
      fun hkeeps hclient => hkeeps.2 (hclosing.trans (congrArg _ hclient))⟩
    cases hclosing.symm.trans hclient
    exact hnot rfl

/-- What holds between two steps, as long as each of them gives the mutex back. -/
structure MutexInv (s : ServerState) : Prop extends s.toTCPServer.ConnInv where
  free : s.mutexClients.Free

end ServerState

/-- **The mutex is balanced.** In every state that a run of a server passes through nobody holds
`mutex_clients_`, so that every thread can lock it, and no thread has ever locked it while it held it,
if and only if `closeinl` never goes on behind its guard and `closedcb_` does not call `SetRecvCB` when
it is told of a closed client. -/
theorem mutex_balanced_iff (host : Host) (packhead packtail : UInt8) (es : List ServerLifeEvent)
    (s : ServerState) (hrun : run (ServerState.step host) (.new packhead packtail) es = some s) :
    Throughout (ServerState.step host) (fun s => s.mutexClients.Free) (.new packhead packtail) es ↔
      Along (ServerState.step host) ServerState.KeepsMutex (.new packhead packtail) es := by
  refine throughout_iff_along (I := ServerState.MutexInv)
    (fun s e s' h hkeeps hstep => ⟨ServerState.step_connInv h.toConnInv hstep, ?_⟩)
    (fun s e s' h hkeeps hstep hfree => hkeeps ?_) (fun s h => h.free)
    ⟨ServerState.connInv_new packhead packtail, UvMutex.free_new⟩ hrun
  · exact (ServerState.step_free_iff h.toConnInv h.free hstep).mpr hkeeps
  · exact (ServerState.step_free_iff h.toConnInv h.free hstep).mp hfree

/-- A client is accepted, gets a callback from the user and from the loop thread, is told something and
leaves; a server that is not closed goes on. -/
theorem mutex_balanced_one_client :
    ∃ s, run (ServerState.step .little) (.new 1 2)
        [.start (.user 0) default, .startThread, .startWaited false, .acceptConnection 0 default 0 default,
          .setRecvCB .loop, .setRecvCB (.user 0), .broadcast (.user 1) false, .afterRecv 0 none,
          .tcpClosed 0 [.close], .acceptConnection 0 default 1 default] = some s ∧
      Throughout (ServerState.step .little) (fun s => s.mutexClients.Free) (.new 1 2)
        [.start (.user 0) default, .startThread, .startWaited false, .acceptConnection 0 default 0 default,
          .setRecvCB .loop, .setRecvCB (.user 0), .broadcast (.user 1) false, .afterRecv 0 none,
          .tcpClosed 0 [.close], .acceptConnection 0 default 1 default] := by
  refine exists_last (by decide +kernel) fun s hs => ?_
  exact (mutex_balanced_iff .little 1 2 _ s hs).mpr (by decide +kernel)

/-- A server that has been closed holds the mutex: its users wait for it, and the close callback of its
client locks it twice. -/
theorem mutex_held_after_close :
    ∃ s, run (ServerState.step .little) (.new 1 2)
        [.start (.user 0) default, .startThread, .acceptConnection 0 default 0 default, .close,
          .asyncCloseCB] = some s ∧
      s.mutexClients.holders = [.loop] ∧ s.setRecvCB (.user 0) = none ∧
      ∃ s', s.step .little (.tcpClosed 0 []) = some s' ∧ s'.mutexClients.relocked = true := by
  exact ⟨_, rfl, rfl, rfl, _, rfl, rfl⟩

end MyUvpp
