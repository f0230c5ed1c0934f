import MyUvpp.Foundation.RequestPool
import MyUvpp.Packet.PacketSync

/-! # Write requests (`tcpserver.h`)

Client and server keep finished `write_param`s in `writeparam_list_` and take the next request from
there. `RequestLog` records what is done with the requests, how much memory each of them has, and what is
copied into it; `RequestsInOrder` says that all of this is proper. -/

namespace MyUvpp

/-- `write_param`: the buffer of a write request. -/
structure WriteParam where
  /-- `buf_.base`. -/
  base : Mem UInt8
  /-- `buf_.len`. -/
  len : ℤ
  /-- `buf_truelen_`. -/
  truelen : ℤ

/-- The bytes that `uv_write` is to send. -/
def WriteParam.bytes (w : WriteParam) : List UInt8 := w.base.read 0 w.len

/-- `AllocWriteParam`, with indeterminate contents. -/
def allocWriteParam (base : Mem UInt8) : WriteParam := ⟨base, bufferSize, bufferSize⟩

/-- A copy of `n` bytes to the offset `off` of a block of memory. -/
structure BlockCopy where
  size : ℤ
  off : ℤ
  n : ℤ
  deriving DecidableEq

/-- The copied range lies inside the block. -/
def BlockCopy.Safe (c : BlockCopy) : Prop := 0 ≤ c.n ∧ 0 ≤ c.off ∧ c.off + c.n ≤ c.size

/-- What has happened to the write requests of a client or a server. -/
structure RequestLog where
  calls : List (RequestCall ℕ)
  /-- The size of the memory at `buf_.base`, for the request at each address. -/
  sizes : ℕ → ℤ
  /-- The copies into `buf_.base`. -/
  copies : List BlockCopy

/-- Nothing has happened; no memory is allocated, and its size does not matter. -/
def RequestLog.new : RequestLog := ⟨[], fun _ => 0, []⟩

/-- The requests of a pool are where the log of all calls has brought them, their memory has the size
that they say, and every copy was within it. -/
structure RequestsInOrder (limit : ℕ) (p : RequestPool ℕ) (heap : ℕ → WriteParam) (log : RequestLog) :
    Prop where
  pool : p.Inv limit
  followed : run RequestCall.step (fun _ => .freed) log.calls = some p.place
  sizes : ∀ a ∈ p.owned, log.sizes a = (heap a).truelen
  copies : ∀ c ∈ log.copies, c.Safe

namespace RequestsInOrder

variable {limit : ℕ} {p p' : RequestPool ℕ} {heap heap' : ℕ → WriteParam} {log : RequestLog}

/-- No request is in flight and no parameter is used twice in a server just constructed. -/
theorem new (limit : ℕ) (heap : ℕ → WriteParam) :
    RequestsInOrder limit ⟨none, [], []⟩ heap .new where
  pool := ⟨List.nodup_nil, Nat.zero_le _⟩
  followed := rfl
  sizes _ ha := absurd ha List.not_mem_nil
  copies _ hc := absurd hc List.not_mem_nil

/-- The size of the memory of a request changes together with the request. -/
theorem truelen_update {sizes : ℕ → ℤ} {a b : ℕ} {w : WriteParam}
    (h : b ≠ a → sizes b = (heap b).truelen) :
    Function.update sizes a w.truelen b = (Function.update heap a w b).truelen := by
  by_cases hba : b = a
  · rw [hba, Function.update_self, Function.update_self]
  · rw [Function.update_of_ne hba, Function.update_of_ne hba]
    exact h hba

/-- A request is allocated, and given memory. -/
theorem alloc (h : RequestsInOrder limit p heap log) {a : ℕ} (htaken : p.taken = none)
    (ha : a ∉ p.owned) (hempty : p.listed = []) (w : WriteParam) :
    RequestsInOrder limit (p.alloc a) (Function.update heap a w)
      { log with
        calls := log.calls ++ [⟨.alloc, a⟩]
        sizes := Function.update log.sizes a w.truelen } where
  pool := h.pool.alloc htaken ha hempty
  followed := by
    rw [run_append, h.followed, Option.bind_some]
    exact RequestPool.run_alloc htaken ha
  sizes b hb := truelen_update fun hba => h.sizes b (RequestPool.mem_owned_alloc hba hb)
  copies := h.copies

/-- The memory of a request is filled anew, and may have another size. -/
theorem refill (h : RequestsInOrder limit p heap log) (a : ℕ) (w : WriteParam) :
    RequestsInOrder limit p (Function.update heap a w)
      { log with sizes := Function.update log.sizes a w.truelen } where
  pool := h.pool
  followed := h.followed
  sizes b hb := truelen_update fun _ => h.sizes b hb
  copies := h.copies

/-- The same, where the size stays. -/
theorem refill_same (h : RequestsInOrder limit p heap log) {a : ℕ} (ha : a ∈ p.owned)
    {w : WriteParam} (hsize : w.truelen = (heap a).truelen) :
    RequestsInOrder limit p (Function.update heap a w) log := by
  have hrefill := h.refill a w
  rwa [hsize, ← h.sizes a ha, Function.update_eq_self] at hrefill

/-- Copies within the memory of the requests. -/
theorem copy (h : RequestsInOrder limit p heap log) {copies : List BlockCopy}
    (hcopies : ∀ c ∈ copies, c.Safe) :
    RequestsInOrder limit p heap { log with copies := log.copies ++ copies } where
  pool := h.pool
  followed := h.followed
  sizes := h.sizes
  copies c hc := (List.mem_append.mp hc).elim (h.copies c) (hcopies c)

/-- Requests change hands, and there is no new one. -/
theorem moved (h : RequestsInOrder limit p heap log) (hpool : p'.Inv limit)
    {calls : List (RequestCall ℕ)} (hrun : run RequestCall.step p.place calls = some p'.place)
    (howned : ∀ a ∈ p'.owned, a ∈ p.owned) :
    RequestsInOrder limit p' heap { log with calls := log.calls ++ calls } where
  pool := hpool
  followed := by rw [run_append, h.followed, Option.bind_some, hrun]
  sizes a ha := h.sizes a (howned a ha)
  copies := h.copies

/-- A request is nowhere twice. -/
theorem nodup (h : RequestsInOrder limit p heap log) : p.owned.Nodup := h.pool.nodup

/-- The list is bounded. -/
theorem size (h : RequestsInOrder limit p heap log) : p.listed.length ≤ limit + 1 :=
  Nat.le_trans (Nat.le_add_right _ _) h.pool.size

end RequestsInOrder

end MyUvpp
