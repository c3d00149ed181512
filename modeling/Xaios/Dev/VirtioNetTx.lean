import Xaios.Foundation.Buffer
import Xaios.Foundation.IndexRing
import Xaios.Status

/-!
# Sending frames through virtio-net

`virtio_net_tx` of `kernel/dev/virtio/virtio_net.c` with `virtio_transport_wait_used`, and the
device at the other end of the queue. The driver has four buffers with a descriptor each and
takes them in turn; the device completes what was submitted in order, at any time, also while
the driver waits.

The driver is to wait for the buffer it takes next. It counts the frames it has waited for
in `tx_last_used`, and waits only if the device's count is not beyond that; so once a frame
was completed without the driver waiting for it, the driver never waits again, and writes
over frames that are in flight (`Virtio.frame_overwritten`). Which calls do so is seen
from the indices before the call (`Virtio.TxEvent.Reserves`), and all frames arrive as
they were submitted exactly if there is none (`Virtio.tx_protected_iff`).
-/

namespace Xaios.Virtio

open Foundation Function List

theorem neZero_txBufs : NeZero 4 := ⟨Nat.succ_ne_zero 3⟩

theorem neZero_ring : NeZero 8 := ⟨Nat.succ_ne_zero 7⟩

attribute [local instance] neZero_txBufs neZero_ring

/-! ### The queue -/

/-- `virtq_desc_t`, for a number of buffers. -/
structure Desc (n : ℕ) where
  /-- The buffer `addr` is the address of, none for 0. -/
  addr : Option (Fin n)
  len : UInt32
  flags : UInt16

/-- The part of `virtio_net_driver_t` for sending, with the memory that is shared with the
device. -/
structure TxDriver where
  txBufs : Fin 4 → Buffer
  txDesc : Fin 8 → Desc 4
  /-- `tx_avail->ring`. -/
  availRing : Fin 8 → UInt16
  /-- `tx_avail->idx`. -/
  availIdx : UInt16
  /-- `tx_used->idx`. -/
  usedIdx : UInt16
  txAvailIdx : UInt16
  txLastUsed : UInt16

/-- A frame that was submitted, and its descriptor. -/
structure Submission where
  desc : UInt16
  frame : List UInt8

/-- The driver with the device: all that was submitted, and how much of it the device has
completed. -/
structure TxSystem where
  driver : TxDriver
  log : List Submission
  completed : ℕ

/-- After `virtio_net_init_persistent`. -/
def TxSystem.boot : TxSystem where
  driver :=
    { txBufs := fun _ _ => 0
      txDesc := fun _ => ⟨none, 0, 0⟩
      availRing := fun _ => 0
      availIdx := 0
      usedIdx := 0
      txAvailIdx := 0
      txLastUsed := 0 }
  log := []
  completed := 0

namespace TxSystem

/-- How many frames are in flight. -/
def inFlight (s : TxSystem) : ℕ := s.log.length - s.completed

/-- The device completes frames in the order they were submitted, as many as there are. -/
def complete (s : TxSystem) (n : ℕ) : TxSystem :=
  { s with
    driver := { s.driver with usedIdx := s.driver.usedIdx + UInt16.ofNat (min n s.inFlight) }
    completed := s.completed + min n s.inFlight }

/-- `VIRTIO_SPIN_LIMIT`. -/
def spinLimit : ℕ := 10000000

/-- The loop of `virtio_transport_wait_used`. Before each of its reads the device completes
some frames. -/
def waitLoop : ℕ → List ℕ → TxSystem → UInt16 → Bool × TxSystem
  | 0, _, s, _ => (false, s)
  | fuel + 1, spins, s, expected =>
    let s := s.complete (spins.headD 0)
    if s.driver.usedIdx ≥ expected then (true, s) else waitLoop fuel spins.tail s expected

/-- `virtio_transport_wait_used`. -/
def waitUsed (spins : List ℕ) (s : TxSystem) (expected : UInt16) : Bool × TxSystem :=
  waitLoop spinLimit spins s expected

/-- The check of `virtio_net_tx` before it takes the next descriptor: whether it goes on. -/
def awaitDesc (spins : List ℕ) (s : TxSystem) : Bool × TxSystem :=
  if s.driver.txAvailIdx ≥ 4 ∧ s.driver.usedIdx ≤ s.driver.txLastUsed then
    match waitUsed spins s (s.driver.txLastUsed + 1) with
    | (false, s) => (false, s)
    | (true, s) =>
      (true, { s with driver := { s.driver with txLastUsed := s.driver.txLastUsed + 1 } })
  else (true, s)

/-- The writes of `virtio_net_tx`: buffer, descriptor, ring and index. -/
def submit (s : TxSystem) (frame : List UInt8) : TxSystem :=
  let d := s.driver
  let descIdx := d.txAvailIdx % 4
  let buf := Fin.ofNat 4 descIdx.toNat
  let bytes := (d.txBufs buf).store 0 (replicate 10 0)
  { s with
    driver :=
      { d with
        txBufs := update d.txBufs buf (bytes.store 10 frame)
        txDesc := update d.txDesc (Fin.ofNat 8 descIdx.toNat)
          ⟨some buf, UInt32.ofNat (10 + frame.length), 0⟩
        availRing := update d.availRing (slot 8 d.txAvailIdx) descIdx
        txAvailIdx := d.txAvailIdx + 1
        availIdx := d.txAvailIdx + 1 }
    log := s.log ++ [⟨descIdx, frame⟩] }

end TxSystem

/-- A call of `virtio_net_tx`, or the device completes frames. -/
inductive TxEvent
  /-- A call with a frame. While it waits the device completes frames before each read, and
  then some more until the first write. -/
  | tx (frame : List UInt8) (spins : List ℕ) (late : ℕ)
  | complete (n : ℕ)

/-- `VIRTIO_NET_MAX_FRAME`. -/
def maxFrame : ℕ := 1524

/-- The state in which a call writes, if it gets there. -/
def TxEvent.writing : TxEvent → TxSystem → Option TxSystem
  | .tx frame spins late, s =>
    if frame.length = 0 ∨ frame.length > maxFrame then none
    else
      let r := s.awaitDesc spins
      if r.1 then some (r.2.complete late) else none
  | .complete _, _ => none

/-- `virtio_net_tx`. -/
def virtioNetTx (frame : List UInt8) (spins : List ℕ) (late : ℕ) (s : TxSystem) :
    Status × TxSystem :=
  if frame.length = 0 ∨ frame.length > maxFrame then (.invalid, s)
  else
    let r := s.awaitDesc spins
    if !r.1 then (.io, r.2) else (.ok, (r.2.complete late).submit frame)

/-- An event. -/
def TxEvent.apply : TxEvent → TxSystem → TxSystem
  | .tx frame spins late, s => (virtioNetTx frame spins late s).2
  | .complete n, s => s.complete n

/-! ### What the device reads -/

/-- What the device reads for a frame: it takes the descriptor from the ring, and the bytes
from the buffer. -/
def TxSystem.fetch (s : TxSystem) (k : ℕ) : Option (List UInt8) :=
  let desc := s.driver.txDesc (Fin.ofNat 8 (s.driver.availRing (cell 8 k)).toNat)
  desc.addr.map fun buf => (s.driver.txBufs buf).load 0 desc.len.toNat

/-- Every frame in flight is still as it was submitted. -/
def TxSystem.Intact (s : TxSystem) : Prop :=
  ∀ k x, s.completed ≤ k → s.log[k]? = some x →
    s.fetch k = some (replicate 10 0 ++ x.frame)

/-- The call does not write a buffer or a descriptor of a frame in flight. -/
def TxEvent.Safe (e : TxEvent) (s : TxSystem) : Prop :=
  ∀ w, e.writing s = some w → ∀ k x, w.completed ≤ k → w.log[k]? = some x →
    x.desc ≠ w.driver.txAvailIdx % 4

/-- In a run no call writes what the device has not returned, and in every state all
frames in flight are as they were submitted. -/
def Protected : List TxEvent → TxSystem → Prop
  | [], s => s.Intact
  | e :: es, s => s.Intact ∧ e.Safe s ∧ Protected es (e.apply s)

/-- What the indices say before a call that takes its frame: the device has not got four
frames to complete, or it completes one of them between the check and the write, or the
driver waits. The wait is for a completion, unless the count it waits for wraps round to
zero: then it is over with the first read. -/
def TxEvent.Reserves : TxEvent → TxSystem → Prop
  | .tx frame spins late, s =>
    frame.length = 0 ∨ frame.length > maxFrame ∨
      s.driver.txAvailIdx - s.driver.usedIdx < 4 ∨ late ≠ 0 ∨
      (s.driver.txAvailIdx ≥ 4 ∧ s.driver.usedIdx ≤ s.driver.txLastUsed) ∧
        (s.driver.txLastUsed ≠ 65535 ∨ spins.headD 0 ≠ 0)
  | .complete _, _ => True

/-- The condition along a run. -/
def Reserved : List TxEvent → TxSystem → Prop
  | [], _ => True
  | e :: es, s => e.Reserves s ∧ Reserved es (e.apply s)

/-! ### The invariant -/

namespace TxSystem

/-- The queue has a frame in the place of a count. -/
structure Carries (s : TxSystem) (k : ℕ) (frame : List UInt8) : Prop where
  ring : s.driver.availRing (cell 8 k) = UInt16.ofNat (k % 4)
  desc : s.driver.txDesc (cell 8 (k % 4)) = ⟨some (cell 4 k), UInt32.ofNat (10 + frame.length), 0⟩
  bytes : (s.driver.txBufs (cell 4 k)).load 0 (10 + frame.length) = replicate 10 0 ++ frame
  length_le : frame.length ≤ maxFrame

variable {s : TxSystem}

theorem Carries.fetch {k : ℕ} {frame : List UInt8} (h : s.Carries k frame) :
    s.fetch k = some (replicate 10 0 ++ frame) := by
  have hring : Fin.ofNat 8 (s.driver.availRing (cell 8 k)).toNat = cell 8 (k % 4) := by
    rw [h.ring, UInt16.toNat_ofNat', Nat.mod_eq_of_lt (by omega)]
    rfl
  have hlen : (UInt32.ofNat (10 + frame.length)).toNat = 10 + frame.length := by
    have hle := h.length_le
    unfold maxFrame at hle
    rw [UInt32.toNat_ofNat']
    omega
  unfold TxSystem.fetch
  rw [hring, h.desc, Option.map_some, hlen, h.bytes]

/-- The indices count what was submitted and what was completed, frames take the descriptors
in turn, and no more than four are in flight, as they were submitted. -/
structure Inv (s : TxSystem) : Prop where
  index : s.driver.txAvailIdx = UInt16.ofNat s.log.length
  used : s.driver.usedIdx = UInt16.ofNat s.completed
  completed_le : s.completed ≤ s.log.length
  desc : ∀ k x, s.log[k]? = some x → x.desc = UInt16.ofNat (k % 4)
  room : s.log.length ≤ s.completed + 4
  carries : ∀ k x, s.completed ≤ k → s.log[k]? = some x → s.Carries k x.frame

theorem Inv.intact (h : s.Inv) : s.Intact :=
  fun k x hk hx => (h.carries k x hk hx).fetch

theorem Inv.boot : TxSystem.boot.Inv where
  index := rfl
  used := rfl
  completed_le := Nat.le_refl 0
  desc k x h := by cases h
  room := Nat.zero_le 4
  carries k x _ h := by cases h

theorem Inv.complete (h : s.Inv) (n : ℕ) : (s.complete n).Inv where
  index := h.index
  used := by
    change s.driver.usedIdx + _ = UInt16.ofNat (s.completed + _)
    rw [h.used, UInt16.ofNat_add]
  completed_le := by
    have hle := h.completed_le
    change s.completed + min n (s.log.length - s.completed) ≤ s.log.length
    omega
  desc := h.desc
  room := by
    have hroom := h.room
    change s.log.length ≤ s.completed + _ + 4
    omega
  carries k x hk hx :=
    have hcarries := h.carries k x (Nat.le_trans (Nat.le_add_right _ _) hk) hx
    ⟨hcarries.ring, hcarries.desc, hcarries.bytes, hcarries.length_le⟩

/-- What completions keep, waiting keeps. -/
theorem waitLoop_keeps {P : TxSystem → Prop} (hcomplete : ∀ s n, P s → P (s.complete n))
    (fuel : ℕ) (spins : List ℕ) (expected : UInt16) (h : P s) :
    P (waitLoop fuel spins s expected).2 := by
  induction fuel generalizing spins s with
  | zero => exact h
  | succ fuel ih =>
    rw [waitLoop]
    split
    · exact hcomplete s _ h
    · exact ih _ (hcomplete s _ h)

theorem Inv.awaitDesc (h : s.Inv) (spins : List ℕ) : (s.awaitDesc spins).2.Inv := by
  unfold TxSystem.awaitDesc
  split
  · have hwait : (waitUsed spins s (s.driver.txLastUsed + 1)).2.Inv :=
      waitLoop_keeps (fun s n hs => hs.complete n) _ _ _ h
    rcases hs : waitUsed spins s (s.driver.txLastUsed + 1) with ⟨_ | _, s'⟩ <;> rw [hs] at hwait
    · exact hwait
    · exact ⟨hwait.index, hwait.used, hwait.completed_le, hwait.desc, hwait.room, fun k x hk hx =>
        have hcarries := hwait.carries k x hk hx
        ⟨hcarries.ring, hcarries.desc, hcarries.bytes, hcarries.length_le⟩⟩
  · exact h

/-! #### What the indices say -/

theorem inFlight_complete (n : ℕ) : (s.complete n).inFlight = s.inFlight - n := by
  simp only [complete, inFlight]
  omega

/-- Four frames fit into the count of the indices. -/
theorem Inv.few_iff (h : s.Inv) :
    s.driver.txAvailIdx - s.driver.usedIdx < 4 ↔ s.inFlight < 4 := by
  have hle := h.completed_le
  have hroom := h.room
  rw [h.index, h.used, UInt16.lt_iff_toNat_lt, UInt16.toNat_sub, UInt16.toNat_ofNat',
    UInt16.toNat_ofNat', inFlight]
  change (65536 - s.completed % 65536 + s.log.length % 65536) % 65536 < 4 ↔ _
  omega

/-- The wait is over when the device's count is there. -/
theorem expected_le_waitLoop {fuel : ℕ} {spins : List ℕ} {expected : UInt16}
    (hback : (waitLoop fuel spins s expected).1 = true) :
    expected ≤ (waitLoop fuel spins s expected).2.driver.usedIdx := by
  induction fuel generalizing spins s with
  | zero => cases hback
  | succ fuel ih =>
    rw [waitLoop] at hback ⊢
    split at hback
    · next hle =>
      rw [if_pos hle]
      exact hle
    · next hle =>
      rw [if_neg hle]
      exact ih hback

/-- A wait for more than the device's count sees a completion. -/
theorem Inv.waitLoop_lt (h : s.Inv) (fuel : ℕ) (spins : List ℕ) {expected : UInt16}
    (hlt : s.driver.usedIdx < expected) (hback : (waitLoop fuel spins s expected).1 = true) :
    (waitLoop fuel spins s expected).2.inFlight < s.inFlight := by
  have hle := expected_le_waitLoop hback
  obtain ⟨hinv, hlog, hmono⟩ := waitLoop_keeps
    (P := fun t => t.Inv ∧ t.log = s.log ∧ s.completed ≤ t.completed)
    (fun t n ht => ⟨ht.1.complete n, ht.2.1, Nat.le_add_right_of_le ht.2.2⟩) fuel spins expected
    ⟨h, rfl, Nat.le_refl _⟩
  generalize (waitLoop fuel spins s expected).2 = t at hle hinv hlog hmono
  have hne : t.completed ≠ s.completed := by
    intro heq
    rw [hinv.used, heq, ← h.used] at hle
    exact absurd hlt (UInt16.not_lt.mpr hle)
  have hcompleted := hinv.completed_le
  rw [inFlight, inFlight, hlog]
  rw [hlog] at hcompleted
  omega

/-- With how many frames in flight a call that has waited goes on. -/
theorem Inv.awaitDesc_lt (h : s.Inv) {spins : List ℕ}
    (hwaits : s.driver.txAvailIdx ≥ 4 ∧ s.driver.usedIdx ≤ s.driver.txLastUsed)
    (hlast : s.driver.txLastUsed ≠ 65535) (hback : (s.awaitDesc spins).1 = true) :
    (s.awaitDesc spins).2.inFlight < s.inFlight := by
  have hlt : s.driver.usedIdx < s.driver.txLastUsed + 1 := by
    have hle := UInt16.le_iff_toNat_le.mp hwaits.2
    have hne : s.driver.txLastUsed.toNat ≠ 65535 := fun heq => hlast (UInt16.toNat_inj.mp heq)
    have hbound := s.driver.txLastUsed.toNat_lt
    rw [UInt16.lt_iff_toNat_lt, UInt16.toNat_add]
    change _ < (s.driver.txLastUsed.toNat + 1) % 65536
    omega
  have hdone := h.waitLoop_lt spinLimit spins hlt
  unfold TxSystem.awaitDesc at hback ⊢
  rw [if_pos hwaits] at hback ⊢
  unfold waitUsed at hback ⊢
  rcases hs : waitLoop spinLimit spins s (s.driver.txLastUsed + 1) with ⟨_ | _, t⟩
  · rw [hs] at hback
    cases hback
  · rw [hs] at hdone
    exact hdone rfl

/-- The wait for the count zero is over with the first read. -/
theorem awaitDesc_wrapped (spins : List ℕ)
    (hwaits : s.driver.txAvailIdx ≥ 4 ∧ s.driver.usedIdx ≤ s.driver.txLastUsed)
    (hlast : s.driver.txLastUsed = 65535) : (s.awaitDesc spins).1 = true ∧
      (s.awaitDesc spins).2.inFlight = s.inFlight - spins.headD 0 := by
  have hwait : waitUsed spins s (s.driver.txLastUsed + 1) = (true, s.complete (spins.headD 0)) := by
    rw [hlast]
    change waitLoop (9999999 + 1) spins s 0 = _
    rw [waitLoop]
    exact if_pos (UInt16.le_iff_toNat_le.mpr (Nat.zero_le _))
  unfold TxSystem.awaitDesc
  rw [if_pos hwaits, hwait]
  refine ⟨rfl, ?_⟩
  change (s.complete (spins.headD 0)).inFlight = _
  exact inFlight_complete _

/-! #### A frame is submitted -/

section Submit

variable {s : TxSystem} (h : s.Inv) (frame : List UInt8)

include h

theorem Inv.descIdx_toNat : (s.driver.txAvailIdx % 4).toNat = s.log.length % 4 := by
  rw [h.index, UInt16.toNat_mod, UInt16.toNat_ofNat']
  change s.log.length % 65536 % 4 = _
  omega

theorem Inv.descIdx : s.driver.txAvailIdx % 4 = UInt16.ofNat (s.log.length % 4) := by
  apply UInt16.toNat_inj.mp
  rw [h.descIdx_toNat, UInt16.toNat_ofNat']
  omega

theorem Inv.descIdx_cell :
    Fin.ofNat 4 (s.driver.txAvailIdx % 4).toNat = cell 4 s.log.length := by
  rw [h.descIdx_toNat]
  exact cell_eq_iff.mpr (Nat.mod_mod _ _)

/-! What the call writes, in terms of the count of frames. -/

theorem Inv.submit_txBufs : (s.submit frame).driver.txBufs =
    update s.driver.txBufs (cell 4 s.log.length)
      (((s.driver.txBufs (cell 4 s.log.length)).store 0 (replicate 10 0)).store 10 frame) := by
  rw [← h.descIdx_cell]
  rfl

theorem Inv.submit_txDesc : (s.submit frame).driver.txDesc =
    update s.driver.txDesc (cell 8 (s.log.length % 4))
      ⟨some (cell 4 s.log.length), UInt32.ofNat (10 + frame.length), 0⟩ := by
  rw [← h.descIdx_cell, ← h.descIdx_toNat]
  rfl

theorem Inv.submit_availRing : (s.submit frame).driver.availRing =
    update s.driver.availRing (cell 8 s.log.length) (UInt16.ofNat (s.log.length % 4)) := by
  have hslot : slot 8 s.driver.txAvailIdx = cell 8 s.log.length := by
    rw [h.index, slot_ofNat (by decide)]
  rw [← hslot, ← h.descIdx]
  rfl

theorem Inv.submit_txAvailIdx :
    (s.submit frame).driver.txAvailIdx = UInt16.ofNat (s.submit frame).log.length := by
  change s.driver.txAvailIdx + 1 = UInt16.ofNat (s.log ++ [_]).length
  rw [h.index, length_append, UInt16.ofNat_add]
  rfl

theorem Inv.carries_submit (hlen : frame.length ≤ maxFrame) :
    (s.submit frame).Carries s.log.length frame where
  ring := by rw [h.submit_availRing, update_self]
  desc := by rw [h.submit_txDesc, update_self]
  bytes := by
    have hstore := Buffer.store_store (s.driver.txBufs (cell 4 s.log.length)) 0
      (replicate 10 0) frame
    have hload := Buffer.load_store_self (s.driver.txBufs (cell 4 s.log.length)) 0
      (replicate 10 0 ++ frame)
    rw [length_append, length_replicate] at hload
    rw [length_replicate, Nat.zero_add] at hstore
    rw [h.submit_txBufs, update_self, hstore, hload]
  length_le := hlen

/-- The frames before it that use other descriptors stay. -/
theorem Inv.carries_submit_of_lt {k : ℕ} {x : List UInt8} (hlt : k < s.log.length)
    (hnear : s.log.length < k + 4) (hk : s.Carries k x) : (s.submit frame).Carries k x where
  ring := by
    rw [h.submit_availRing, update_of_ne (cell_ne hlt (by omega))]
    exact hk.ring
  desc := by
    have hne : cell 8 (k % 4) ≠ cell 8 (s.log.length % 4) := by
      rw [Ne, cell_eq_iff]
      omega
    rw [h.submit_txDesc, update_of_ne hne]
    exact hk.desc
  bytes := by
    rw [h.submit_txBufs, update_of_ne (cell_ne hlt hnear)]
    exact hk.bytes
  length_le := hk.length_le

theorem Inv.getElem?_submit {k : ℕ} {x : Submission} (hx : (s.submit frame).log[k]? = some x) :
    s.log[k]? = some x ∨ k = s.log.length ∧ x = ⟨UInt16.ofNat (k % 4), frame⟩ := by
  change (s.log ++ [⟨s.driver.txAvailIdx % 4, frame⟩])[k]? = some x at hx
  rcases Nat.lt_trichotomy k s.log.length with hlt | rfl | hgt
  · rw [getElem?_append_left hlt] at hx
    exact .inl hx
  · rw [getElem?_concat_length, h.descIdx, Option.some.injEq] at hx
    exact .inr ⟨rfl, hx.symm⟩
  · have hlen := (List.getElem?_eq_some_iff.mp hx).1
    rw [length_append, length_singleton] at hlen
    omega

theorem Inv.submit (hlen : frame.length ≤ maxFrame) (hroom : s.inFlight < 4) :
    (s.submit frame).Inv where
  index := h.submit_txAvailIdx frame
  used := h.used
  completed_le := by
    have hle := h.completed_le
    change s.completed ≤ (s.log ++ [_]).length
    rw [length_append]
    omega
  desc k x hx := by
    rcases h.getElem?_submit frame hx with hx | ⟨-, rfl⟩
    · exact h.desc k x hx
    · rfl
  room := by
    unfold inFlight at hroom
    change (s.log ++ [_]).length ≤ s.completed + 4
    rw [length_append, length_singleton]
    omega
  carries k x hk hx := by
    rcases h.getElem?_submit frame hx with hx | ⟨rfl, rfl⟩
    · have hlt := (List.getElem?_eq_some_iff.mp hx).1
      have hnear : s.log.length < k + 4 := by
        change s.completed ≤ k at hk
        unfold inFlight at hroom
        omega
      exact h.carries_submit_of_lt frame hlt hnear (h.carries k x hk hx)
    · exact h.carries_submit frame hlen

end Submit

end TxSystem

/-! ### Runs -/

variable {s : TxSystem}

/-- The state in which a call writes, and what it leaves. -/
theorem TxEvent.apply_cases (e : TxEvent) (h : s.Inv) :
    (∃ w frame, e.writing s = some w ∧ w.Inv ∧ frame.length ≤ maxFrame ∧
      e.apply s = w.submit frame) ∨ e.writing s = none ∧ (e.apply s).Inv := by
  cases e with
  | complete n => exact .inr ⟨rfl, h.complete n⟩
  | tx frame spins late =>
    simp only [TxEvent.writing, TxEvent.apply, virtioNetTx]
    by_cases hlen : frame.length = 0 ∨ frame.length > maxFrame
    · rw [if_pos hlen, if_pos hlen]
      exact .inr ⟨rfl, h⟩
    · rw [if_neg hlen, if_neg hlen]
      have hwait := h.awaitDesc spins
      rcases hs : s.awaitDesc spins with ⟨_ | _, s'⟩ <;> rw [hs] at hwait
      · exact .inr ⟨rfl, hwait⟩
      · exact .inl ⟨s'.complete late, frame, rfl, TxSystem.Inv.complete hwait late, by omega, rfl⟩

/-- The next descriptor is not in flight exactly if fewer than four frames are. -/
theorem TxSystem.Inv.next_free_iff {w : TxSystem} (h : w.Inv) :
    (∀ k x, w.completed ≤ k → w.log[k]? = some x → x.desc ≠ w.driver.txAvailIdx % 4) ↔
      w.inFlight < 4 := by
  have hroom := h.room
  unfold TxSystem.inFlight
  constructor
  · intro hfree
    by_contra hfull
    -- the oldest frame in flight was submitted four calls ago
    have hlt : w.completed < w.log.length := by omega
    refine hfree w.completed _ (Nat.le_refl _) (getElem?_eq_getElem hlt) ?_
    rw [h.desc _ _ (getElem?_eq_getElem hlt), h.descIdx]
    congr 1
    omega
  · intro hfew k x hk hx heq
    have hlt := (List.getElem?_eq_some_iff.mp hx).1
    rw [h.desc k x hx, ← UInt16.toNat_inj, h.descIdx_toNat, UInt16.toNat_ofNat'] at heq
    omega

theorem TxEvent.safe_iff {e : TxEvent} (h : s.Inv) :
    e.Safe s ↔ ∀ w, e.writing s = some w → w.inFlight < 4 := by
  rcases e.apply_cases h with ⟨w, frame, hw, hinv, -, -⟩ | ⟨hnone, -⟩
  · simp only [TxEvent.Safe, hw, Option.some.injEq, forall_eq']
    exact hinv.next_free_iff
  · simp only [TxEvent.Safe, hnone, reduceCtorEq, false_imp_iff, implies_true]

/-- A call gets to its write with fewer than four frames in flight exactly under the
condition on the indices before it. -/
theorem TxEvent.reserves_iff {e : TxEvent} (h : s.Inv) :
    (∀ w, e.writing s = some w → w.inFlight < 4) ↔ e.Reserves s := by
  cases e with
  | complete n => exact iff_of_true (fun w hw => by cases hw) trivial
  | tx frame spins late =>
    have hroom : s.inFlight ≤ 4 := Nat.sub_le_iff_le_add'.mpr h.room
    simp only [TxEvent.writing, TxEvent.Reserves, h.few_iff]
    by_cases hlen : frame.length = 0 ∨ frame.length > maxFrame
    · rw [if_pos hlen, ← or_assoc]
      exact iff_of_true (fun w hw => by cases hw) (.inl hlen)
    rw [if_neg hlen, ← or_assoc, or_iff_right hlen]
    have hwrites : (s.awaitDesc spins).1 = true →
        ((∀ w, (if (s.awaitDesc spins).1 = true then some ((s.awaitDesc spins).2.complete late)
          else none) = some w → w.inFlight < 4) ↔
          (s.awaitDesc spins).2.inFlight - late < 4) := fun hback => by
      simp only [if_pos hback, Option.some.injEq, forall_eq', TxSystem.inFlight_complete]
    by_cases hwaits : s.driver.txAvailIdx ≥ 4 ∧ s.driver.usedIdx ≤ s.driver.txLastUsed
    · by_cases hlast : s.driver.txLastUsed = 65535
      · obtain ⟨hback, hfew⟩ := TxSystem.awaitDesc_wrapped spins hwaits hlast
        rw [hwrites hback, hfew, and_iff_right hwaits, or_iff_right (not_not.mpr hlast)]
        omega
      · refine iff_of_true ?_ (.inr (.inr ⟨hwaits, .inl hlast⟩))
        by_cases hback : (s.awaitDesc spins).1 = true
        · have hfew := h.awaitDesc_lt hwaits hlast hback
          rw [hwrites hback]
          omega
        · rw [if_neg hback]
          exact fun w hw => by cases hw
    · have hgo : s.awaitDesc spins = (true, s) := if_neg hwaits
      rw [hwrites (by rw [hgo]), hgo, or_iff_left (b := _ ∧ _) fun hcon => hwaits hcon.1]
      change s.inFlight - late < 4 ↔ _
      omega

theorem TxSystem.Inv.apply (h : s.Inv) {e : TxEvent}
    (hfew : ∀ w, e.writing s = some w → w.inFlight < 4) : (e.apply s).Inv := by
  rcases e.apply_cases h with ⟨w, frame, hw, hinv, hlen, happly⟩ | ⟨-, hinv⟩
  · rw [happly]
    exact hinv.submit frame hlen (hfew w hw)
  · exact hinv

/-- **Frames in flight are protected**: in a run of calls and completions no call writes a
buffer or a descriptor that the device has not returned, and in every state the device reads
all frames in flight as they were submitted, exactly if the indices before each call say that
it has a buffer or waits for one. -/
theorem tx_protected_iff (es : List TxEvent) :
    Protected es TxSystem.boot ↔ Reserved es TxSystem.boot := by
  suffices hrun : ∀ s : TxSystem, s.Inv → (Protected es s ↔ Reserved es s) from
    hrun _ TxSystem.Inv.boot
  induction es with
  | nil => exact fun s h => ⟨fun _ => trivial, fun _ => h.intact⟩
  | cons e es ih =>
    intro s h
    rw [Protected, Reserved, TxEvent.safe_iff h, ← TxEvent.reserves_iff h]
    constructor
    · rintro ⟨-, hfew, hrest⟩
      exact ⟨hfew, (ih _ (h.apply hfew)).mp hrest⟩
    · rintro ⟨hfew, hrest⟩
      exact ⟨h.intact, hfew, (ih _ (h.apply hfew)).mpr hrest⟩

/-- Four frames are sent, the device completes the first, and two more are sent. -/
def sixFrames : List TxEvent :=
  [.tx [0] [] 0, .tx [1] [] 0, .tx [2] [] 0, .tx [3] [] 0, .complete 1, .tx [4] [] 0, .tx [5] [] 0]

/-- The sixth call does not wait, and the device reads the sixth frame in the place of the
second. -/
theorem frame_overwritten :
    (sixFrames.foldl (fun s e => e.apply s) TxSystem.boot).completed = 1 ∧
    (sixFrames.foldl (fun s e => e.apply s) TxSystem.boot).log.map Submission.frame =
      [[0], [1], [2], [3], [4], [5]] ∧
    (sixFrames.foldl (fun s e => e.apply s) TxSystem.boot).fetch 1 =
      some (replicate 10 0 ++ [5]) := by
  decide +kernel

end Xaios.Virtio
