import MyUvpp.Foundation.TransitionSystem
import MyUvpp.Packet.DecoderCounters

/-! # Whole calls of `recvdata`

From every state that the calls of its methods can bring a decoder to, `recvdata` returns with all its
input read, and every access at every point of it is in range. -/

namespace MyUvpp

/-- A call of a method of `PacketSync`. -/
inductive SyncCall where
  /-- `SetPacketCB`, with a callback or the null pointer. -/
  | setPacketCB (set : Bool)
  | start (packhead packtail : UInt8)
  | recvdata (data : List UInt8)

/-- A call that returns; `none` where the decoder does not come to an end. -/
def PacketSync.call (host : Host) (p : PacketSync) : SyncCall → Option PacketSync
  | .setPacketCB set => some { p with packetCb := set }
  | .start packhead packtail => some (p.start packhead packtail)
  | .recvdata data => (MyUvpp.recvdata host p data).map Prod.fst

/-! ### The loop -/

section Loop

variable {host : Host} {data : List UInt8} {x : Pass}

/-- The condition of the loop: input is left, or the buffer may hold a whole frame. -/
def Pass.GoesOn (data : List UInt8) (x : Pass) : Prop :=
  x.iret < data.length ∨ x.sync.truepacketlen ≥ netPackageHeadlen + 2

/-- The data part keeps the counters in range, and goes on or returns. -/
theorem receiveFrame_counted (h : x.Counted data) (hp : x.sync.parsetype = .parseHead) :
    (receiveFrame data x).Counted data x fun _ => False := by
  have hdata := receiveData_counted h hp
  rw [receiveFrame]
  cases heq : receiveData data x with
  | next x' =>
    rw [heq] at hdata
    exact hdata
  | ret x' =>
    rw [heq] at hdata
    exact hdata
  | fall x' =>
    rw [heq] at hdata
    obtain ⟨hcounted, hle, htype, hgot⟩ := hdata
    obtain ⟨hcounted', htype', hlt⟩ := finishFrame_counted hcounted htype hgot
    exact ⟨hcounted', htype', .inl (lt_of_lt_of_le hlt hle)⟩

/-- One pass. -/
theorem recvdataBody_counted (host : Host) (h : x.Counted data) (hrun : x.GoesOn data) :
    (recvdataBody host data x).Counted data x fun _ => False := by
  rw [recvdataBody]
  cases hp : x.sync.parsetype with
  | parseHead => exact receiveFrame_counted h hp
  | parseNothing =>
    have hheader := parseHeader_counted host h hp hrun
    cases heq : parseHeader host data x with
    | next x' =>
      rw [heq] at hheader
      exact hheader
    | ret x' =>
      rw [heq] at hheader
      exact hheader
    | fall x' =>
      rw [heq] at hheader
      obtain ⟨hcounted, hle, htype⟩ := hheader
      exact (receiveFrame_counted hcounted htype).of_le hle

/-- The loop ends when it may make more passes than there are bytes, and then all input has been
read. -/
theorem recvdataLoop_counted (host : Host) (fuel : ℕ) (h : x.Counted data) (hfuel : x.remaining data + 2 ≤ fuel) :
    ∃ x', recvdataLoop host data fuel x = some x' ∧ x'.Counted data ∧ x'.iret = data.length ∧
      (x'.sync.parsetype = .parseHead ∨ x'.sync.truepacketlen < netPackageHeadlen + 2) := by
  induction fuel generalizing x with
  | zero =>
    have hnonneg := h.remaining_nonneg
    omega
  | succ fuel ih =>
    rw [recvdataLoop]
    split
    case isFalse hdone =>
      rw [not_or, not_lt, ge_iff_le, not_le] at hdone
      exact ⟨x, rfl, h, le_antisymm h.iret_le hdone.1, .inr hdone.2⟩
    case isTrue hrun =>
      have hbody := recvdataBody_counted host h hrun
      cases heq : recvdataBody host data x with
      | fall x' =>
        rw [heq] at hbody
        exact hbody.2.2.elim
      | ret x' =>
        rw [heq] at hbody
        obtain ⟨hcounted, hiret, htype⟩ := hbody
        exact ⟨x', rfl, hcounted, hiret, .inl htype⟩
      | next x' =>
        rw [heq] at hbody
        obtain ⟨hcounted, htype, hlt | ⟨hiret, hshort⟩⟩ := hbody
        · exact ih hcounted (by omega)
        · -- the next test of the loop condition fails
          have hnonneg := h.remaining_nonneg
          obtain ⟨fuel, rfl⟩ : ∃ k, fuel = k + 1 := ⟨fuel - 1, by omega⟩
          refine ⟨x', ?_, hcounted, hiret, .inr hshort⟩
          simp only
          rw [recvdataLoop, if_neg (by omega)]

/-- A call starts with as many bytes as its number of passes allows for. -/
theorem remaining_start {p : PacketSync} (h : p.Counters) (data : List UInt8) :
    Pass.remaining data ⟨p, 0, []⟩ + 2 ≤ recvdataFuel p data := by
  have hnonneg := h.nonneg
  cases hp : p.parsetype with
  | parseNothing =>
    rw [remaining_of_parseNothing data hp, recvdataFuel]
    simp only
    omega
  | parseHead =>
    have hf := h.frame hp
    have hn := hf.datalen_nonneg
    have h0 := hf.headpos_nonneg
    have hgot := hf.got_nonneg
    have hbody : p.bodyInReaddata = p.truepacketlen - p.headpos - 1 - 34 := rfl
    rw [remaining_of_parseHead data hp, recvdataFuel, netPackageHeadlen]
    simp only
    omega

/-- The counters at the start of a call. -/
theorem counted_start {p : PacketSync} (h : p.Counters) (data : List UInt8) :
    Pass.Counted data ⟨p, 0, []⟩ :=
  ⟨h, le_refl _, by simp, inRangeLog_nil⟩

end Loop

/-- Every call returns and keeps the counters. -/
theorem PacketSync.Counters.call {host : Host} {p p' : PacketSync} (h : p.Counters) (c : SyncCall)
    (hcall : p.call host c = some p') : p'.Counters := by
  cases c with
  | setPacketCB set =>
    cases hcall
    exact h.restart set p.head p.tail
  | start packhead packtail =>
    cases hcall
    exact h.restart p.packetCb packhead packtail
  | recvdata data =>
    obtain ⟨x, hx, hcounted, -⟩ := recvdataLoop_counted host (recvdataFuel p data)
      (counted_start h data) (remaining_start h data)
    rw [PacketSync.call, MyUvpp.recvdata, hx] at hcall
    cases hcall
    exact hcounted.counters

/-- Between two calls the counters are in range. -/
theorem counters_of_run {host : Host} {u : Indeterminate} {calls : List SyncCall} {p : PacketSync}
    (hrun : run (PacketSync.call host) (newPacketSync u) calls = some p) : p.Counters :=
  run_invariant (fun _ c _ h hcall => h.call c hcall) (PacketSync.counters_new u) hrun

/-- **`recvdata` returns, and reads all of its input.** In every state that a decoder can be in, the loop
ends, all bytes have been copied or discarded, and the decoder waits inside a frame or has fewer bytes
buffered than the shortest frame has. -/
theorem recvdata_consumes (host : Host) (u : Indeterminate) (calls : List SyncCall) (p : PacketSync)
    (hrun : run (PacketSync.call host) (newPacketSync u) calls = some p) (data : List UInt8) :
    ∃ x, recvdataLoop host data (recvdataFuel p data) ⟨p, 0, []⟩ = some x ∧ x.iret = data.length ∧
      (x.sync.parsetype = .parseHead ∨ x.sync.truepacketlen < netPackageHeadlen + 2) := by
  have hcounters := counters_of_run hrun
  obtain ⟨x, hx, -, hiret, hexit⟩ :=
    recvdataLoop_counted host _ (counted_start hcounters data) (remaining_start hcounters data)
  exact ⟨x, hx, hiret, hexit⟩

/-- A decoder that is started again, with other bytes, inside a header. -/
theorem recvdata_consumes_restarted :
    ∃ p, run (PacketSync.call .little) (newPacketSync default)
        [.setPacketCB true, .start 1 2, .recvdata [9, 1, 0, 0], .start 3 4] = some p ∧
      ∃ x, recvdataLoop .little [3, 0, 0] (recvdataFuel p [3, 0, 0]) ⟨p, 0, []⟩ = some x ∧
        x.iret = 3 ∧
        (x.sync.parsetype = .parseHead ∨ x.sync.truepacketlen < netPackageHeadlen + 2) :=
  exists_last (by decide +kernel) fun p hp => recvdata_consumes .little default _ p hp [3, 0, 0]

/-! ### The points of a call -/

/-- The points of `recvdata` at which its counters are looked at. -/
inductive RecvPoint where
  /-- At the condition of the loop. -/
  | loop
  /-- A head byte has been found, and its header has not been decoded. -/
  | header
  /-- A header has been accepted. -/
  | data
  /-- The frame is complete, and its tail byte has not been looked at. -/
  | tail
  /-- At the end. -/
  | done
  deriving DecidableEq

/-- The passes that a call of `recvdata` on the decoder `p` goes through. -/
inductive RecvAt (host : Host) (input : List UInt8) (p : PacketSync) : RecvPoint → Pass → Prop where
  | start : RecvAt host input p .loop ⟨p, 0, []⟩
  | found {x : Pass} {headpos : ℤ} (h : RecvAt host input p .loop x) (hrun : x.GoesOn input)
      (hp : x.sync.parsetype = .parseNothing)
      (hfind : (fillReaddata input x).sync.findHead = some headpos) :
      RecvAt host input p .header ⟨{ (fillReaddata input x).sync with headpos },
        (fillReaddata input x).iret, (fillReaddata input x).log ++ [.memchr
          (fillReaddata input x).sync.threadReaddata.len (fillReaddata input x).sync.truepacketlen]⟩
  | skipped {x x' : Pass} (h : RecvAt host input p .loop x) (hrun : x.GoesOn input)
      (hp : x.sync.parsetype = .parseNothing) (hstep : parseHeader host input x = .next x') :
      RecvAt host input p .loop x'
  | accepted {x x' : Pass} (h : RecvAt host input p .loop x) (hrun : x.GoesOn input)
      (hp : x.sync.parsetype = .parseNothing) (hstep : parseHeader host input x = .fall x') :
      RecvAt host input p .data x'
  | inFrame {x : Pass} (h : RecvAt host input p .loop x) (hrun : x.GoesOn input)
      (hp : x.sync.parsetype = .parseHead) : RecvAt host input p .data x
  | returned {x x' : Pass} (h : RecvAt host input p .data x) (hstep : receiveData input x = .ret x') :
      RecvAt host input p .done x'
  | received {x x' : Pass} (h : RecvAt host input p .data x) (hstep : receiveData input x = .fall x') :
      RecvAt host input p .tail x'
  | finished {x : Pass} (h : RecvAt host input p .tail x) : RecvAt host input p .loop (finishFrame x)
  | ended {x : Pass} (h : RecvAt host input p .loop x) (hend : ¬ x.GoesOn input) :
      RecvAt host input p .done x

section Points

variable {host : Host} {input : List UInt8} {p : PacketSync}

/-- What holds at each point, of the counters and of the input. -/
def RecvPoint.Holds (input : List UInt8) (x : Pass) : RecvPoint → Prop
  | .loop | .done => x.Counted input
  | .header => x.HeadFound input
  | .data => x.Counted input ∧ x.sync.parsetype = .parseHead
  | .tail => x.Counted input ∧ x.sync.parsetype = .parseHead ∧ x.sync.getdatalen = x.sync.datalen + 1

/-- Every pass satisfies what holds at its point. -/
theorem RecvAt.holds {pt : RecvPoint} {x : Pass} (hcounters : p.Counters)
    (h : RecvAt host input p pt x) : pt.Holds input x := by
  induction h with
  | start => exact counted_start hcounters input
  | found h hrun hp hfind ih =>
    have hy := (fillReaddata_counted ih hp hrun).1
    have hread := hy.counters.toReadInv
    refine headFound ih hp hrun hfind _ ?_
    simp [hy.inRange, Effect.InRange, hread.nonneg, hread.le_len]
  | skipped h hrun hp hstep ih =>
    have hheader := parseHeader_counted host ih hp hrun
    rw [hstep] at hheader
    exact hheader.1
  | accepted h hrun hp hstep ih =>
    have hheader := parseHeader_counted host ih hp hrun
    rw [hstep] at hheader
    exact ⟨hheader.1, hheader.2.2⟩
  | inFrame h hrun hp ih => exact ⟨ih, hp⟩
  | returned h hstep ih =>
    have hdata := receiveData_counted ih.1 ih.2
    rw [hstep] at hdata
    exact hdata.1
  | received h hstep ih =>
    have hdata := receiveData_counted ih.1 ih.2
    rw [hstep] at hdata
    exact ⟨hdata.1, hdata.2.2⟩
  | finished h ih => exact (finishFrame_counted ih.1 ih.2.1 ih.2.2).1
  | ended h hend ih => exact ih

/-- So they are at each program point within a call. -/
theorem RecvAt.counted {pt : RecvPoint} {x : Pass} (hcounters : p.Counters)
    (h : RecvAt host input p pt x) : x.Counted input := by
  have hholds := h.holds hcounters
  cases pt with
  | loop | done => exact hholds
  | header => exact hholds.toCounted
  | data | tail => exact hholds.1

/-- The data part finishes its frame and goes on, or waits for more input and returns. -/
theorem RecvAt.receiveFrame {y : Pass} (h : RecvAt host input p .data y) :
    (∃ z, MyUvpp.receiveFrame input y = .next z ∧ RecvAt host input p .loop z) ∨
      ∃ z, MyUvpp.receiveFrame input y = .ret z ∧ RecvAt host input p .done z := by
  unfold MyUvpp.receiveFrame
  cases heq : receiveData input y with
  | next z => exact absurd heq (receiveData_ne_next input y z)
  | fall z => exact .inl ⟨_, rfl, (h.received heq).finished⟩
  | ret z => exact .inr ⟨z, rfl, h.returned heq⟩

/-- One pass goes on from the condition of the loop or returns. -/
theorem RecvAt.recvdataBody {x : Pass} (h : RecvAt host input p .loop x) (hrun : x.GoesOn input) :
    (∃ z, MyUvpp.recvdataBody host input x = .next z ∧ RecvAt host input p .loop z) ∨
      ∃ z, MyUvpp.recvdataBody host input x = .ret z ∧ RecvAt host input p .done z := by
  unfold MyUvpp.recvdataBody
  cases hp : x.sync.parsetype with
  | parseHead => exact (h.inFrame hrun hp).receiveFrame
  | parseNothing =>
    simp only
    cases heq : parseHeader host input x with
    | next y => exact .inl ⟨y, rfl, h.skipped hrun hp heq⟩
    | fall y => exact (h.accepted hrun hp heq).receiveFrame
    | ret y => exact absurd heq (parseHeader_ne_ret host input x y)

/-- The loop goes from point to point. -/
theorem RecvAt.recvdataLoop {x x' : Pass} (fuel : ℕ) (h : RecvAt host input p .loop x)
    (hloop : MyUvpp.recvdataLoop host input fuel x = some x') : RecvAt host input p .done x' := by
  induction fuel generalizing x with
  | zero => cases hloop
  | succ fuel ih =>
    rw [MyUvpp.recvdataLoop] at hloop
    split at hloop
    case isFalse hend =>
      cases hloop
      exact h.ended hend
    case isTrue hrun =>
      rcases h.recvdataBody hrun with ⟨z, hbody, hz⟩ | ⟨z, hbody, hz⟩
      · rw [hbody] at hloop
        exact ih hz hloop
      · rw [hbody] at hloop
        cases hloop
        exact hz

end Points

/-- **Every access of `recvdata` is in range.** In every state that a decoder can be in and at every
point of every call: the counters are in their ranges, every copy, move and search up to here was inside
its buffers and the input, no difference in `size_t` was negative, and a header that is decoded is inside
`thread_readdata`. -/
theorem recvdata_accesses_in_range (host : Host) (u : Indeterminate) (calls : List SyncCall) (p : PacketSync)
    (hrun : run (PacketSync.call host) (newPacketSync u) calls = some p) (data : List UInt8)
    (pt : RecvPoint) (x : Pass) (hat : RecvAt host data p pt x) :
    (0 ≤ x.sync.truepacketlen ∧ x.sync.truepacketlen ≤ x.sync.threadReaddata.len) ∧
      (x.sync.parsetype = .parseHead →
        x.sync.headpos + 1 + netPackageHeadlen ≤ x.sync.truepacketlen ∧ 0 ≤ x.sync.getdatalen ∧
          x.sync.getdatalen ≤ x.sync.datalen + 1 ∧
          x.sync.datalen + 1 ≤ x.sync.threadPacketdata.len ∧ 0 ≤ x.sync.bodyInReaddata) ∧
      InRangeLog x.log ∧
      (pt = .header → 0 ≤ x.sync.headpos ∧
        (netPackageHeadlen ≤ x.sync.truepacketlen - x.sync.headpos - 1 →
          x.sync.headpos + 1 + netPackageHeadlen ≤ x.sync.threadReaddata.len)) := by
  have hcounters := counters_of_run hrun
  have h := hat.counted hcounters
  have hlen := h.counters.le_len
  refine ⟨⟨h.counters.nonneg, hlen⟩, fun hp => ?_, h.inRange, fun hpt => ?_⟩
  · have hf := h.counters.frame hp
    have hheader := hf.header_le
    refine ⟨hheader, hf.got_nonneg, hf.got_le, hf.fits, ?_⟩
    rw [PacketSync.bodyInReaddata]
    omega
  · subst hpt
    have hfound : x.HeadFound data := hat.holds hcounters
    refine ⟨hfound.headpos_nonneg, fun hcomplete => ?_⟩
    omega

/-- The end of a call that goes on with a header under other bytes `HEAD` and `TAIL`. -/
theorem recvdata_accesses_in_range_restarted :
    ∃ p, run (PacketSync.call .little) (newPacketSync default)
        [.setPacketCB true, .start 1 2, .recvdata [9, 1, 0, 0], .start 3 4] = some p ∧
      ∃ x, recvdataLoop .little [3, 0, 0] (recvdataFuel p [3, 0, 0]) ⟨p, 0, []⟩ = some x ∧
        (0 ≤ x.sync.truepacketlen ∧ x.sync.truepacketlen ≤ x.sync.threadReaddata.len) ∧
        (x.sync.parsetype = .parseHead →
          x.sync.headpos + 1 + netPackageHeadlen ≤ x.sync.truepacketlen ∧ 0 ≤ x.sync.getdatalen ∧
            x.sync.getdatalen ≤ x.sync.datalen + 1 ∧
            x.sync.datalen + 1 ≤ x.sync.threadPacketdata.len ∧ 0 ≤ x.sync.bodyInReaddata) ∧
        InRangeLog x.log ∧
        (RecvPoint.done = .header → 0 ≤ x.sync.headpos ∧
          (netPackageHeadlen ≤ x.sync.truepacketlen - x.sync.headpos - 1 →
            x.sync.headpos + 1 + netPackageHeadlen ≤ x.sync.threadReaddata.len)) := by
  refine exists_last (by decide +kernel) fun p hp => ?_
  have hcounters := counters_of_run hp
  obtain ⟨x, hx, -⟩ := recvdataLoop_counted .little _ (counted_start hcounters [3, 0, 0])
    (remaining_start hcounters [3, 0, 0])
  exact ⟨x, hx, recvdata_accesses_in_range .little default _ p hp [3, 0, 0] .done x
    (RecvAt.start.recvdataLoop _ hx)⟩

end MyUvpp
