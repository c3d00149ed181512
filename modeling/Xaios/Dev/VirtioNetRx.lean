import Mathlib.Data.List.Perm.Basic
import Xaios.Dev.VirtioNetTx

/-!
# Receiving frames through virtio-net

`virtio_net_init_persistent` and `virtio_net_rx_poll` of `kernel/dev/virtio/virtio_net.c`, and
the device at the other end of the queue. The driver posts eight buffers. The device fetches
them from the ring, fills them in any order, with anything and of any length, and puts them
into the ring of used buffers; a poll takes the next one from there.

A poll posts the buffer again only if it has handed out the frame. A frame without a byte, or
one that is longer than the caller's buffer, costs a buffer for ever
(`Virtio.rx_buffer_lost`). The buffers are conserved, and every frame is handed out once,
exactly if every poll that finds a completion can hand it out
(`Virtio.rx_conserved_iff`).
-/

namespace Xaios.Virtio

open Foundation Function List List.Perm

attribute [local instance] neZero_ring

/-! ### The queue -/

/-- `virtq_used_elem_t`. -/
structure UsedElem where
  id : UInt32
  len : UInt32

/-- The part of `virtio_net_driver_t` for receiving, with the memory that is shared with the
device. -/
structure RxDriver where
  rxBufs : Fin 8 → Buffer
  rxDesc : Fin 8 → Desc 8
  /-- `rx_avail->ring`. -/
  availRing : Fin 8 → UInt16
  /-- `rx_avail->idx`. -/
  availIdx : UInt16
  /-- `rx_used->ring`. -/
  usedRing : Fin 8 → UsedElem
  /-- `rx_used->idx`. -/
  usedIdx : UInt16
  rxAvailIdx : UInt16
  rxLastUsed : UInt16

/-- A descriptor of a buffer that is posted. -/
def postedDesc (i : Fin 8) : Desc 8 := ⟨some i, 1534, 2⟩

/-- `virtio_net_init_persistent`. -/
def RxDriver.init : RxDriver where
  rxBufs := fun _ _ => 0
  rxDesc := postedDesc
  availRing i := UInt16.ofNat i
  availIdx := 8
  usedRing := fun _ => ⟨0, 0⟩
  usedIdx := 0
  rxAvailIdx := 8
  rxLastUsed := 0

/-- The completion a poll takes next. -/
def RxDriver.next (d : RxDriver) : UsedElem := d.usedRing (slot 8 d.rxLastUsed)

/-- Whether a frame can be handed out. -/
def fits (bufferSize : UInt64) (len : UInt32) : Bool :=
  len > 10 && decide ((len - 10).toUInt64 ≤ bufferSize)

/-- `virtio_net_rx_poll`, for a buffer of some size: the frame, empty if there is none. -/
def virtioNetRxPoll (bufferSize : UInt64) (d : RxDriver) : List UInt8 × RxDriver :=
  if bufferSize = 0 then ([], d)
  else if d.usedIdx = d.rxLastUsed then ([], d)
  else
    let desc := d.next.id.toUInt16
    let i := Fin.ofNat 8 desc.toNat
    if fits bufferSize d.next.len then
      ((d.rxBufs i).load 10 (d.next.len - 10).toNat,
        { d with
          rxLastUsed := d.rxLastUsed + 1
          rxDesc := update d.rxDesc i (postedDesc i)
          availRing := update d.availRing (slot 8 d.rxAvailIdx) desc
          rxAvailIdx := d.rxAvailIdx + 1
          availIdx := d.rxAvailIdx + 1 })
    else ([], { d with rxLastUsed := d.rxLastUsed + 1 })

/-! ### The device -/

/-- A buffer that the device has completed, and what it has in it. -/
structure Completion where
  id : UInt16
  len : UInt32
  memory : Buffer

/-- The frame behind the header. -/
def Completion.frame (c : Completion) : List UInt8 := c.memory.load 10 (c.len - 10).toNat

/-- There is a frame, and it is in the buffer. -/
def Completion.WellSized (c : Completion) : Prop := 10 < c.len ∧ c.len ≤ 1534

/-- The driver with the device. -/
structure RxSystem where
  driver : RxDriver
  /-- How far the device has read the ring of available buffers. -/
  lastAvail : UInt16
  /-- The buffers it has taken from there and not completed. -/
  fetched : List UInt16
  /-- All completions. -/
  log : List Completion
  /-- How many of them were polled. -/
  polled : ℕ
  /-- The frames that were handed out, with the number of the completion. -/
  delivered : List (ℕ × List UInt8)

namespace RxSystem

/-- After `virtio_net_init_persistent`. -/
def boot : RxSystem := ⟨RxDriver.init, 0, [], [], 0, []⟩

/-- The buffers that are available to the device. -/
def available (s : RxSystem) : List UInt16 :=
  window s.driver.availRing s.lastAvail.toNat (s.driver.availIdx - s.lastAvail).toNat ++ s.fetched

/-- The buffers that are completed and not yet polled. -/
def pending (s : RxSystem) : List UInt16 :=
  (window s.driver.usedRing s.driver.rxLastUsed.toNat
    (s.driver.usedIdx - s.driver.rxLastUsed).toNat).map fun e => e.id.toUInt16

/-- Every buffer is available to the device exactly once, or completed and not yet polled. -/
def Conserved (s : RxSystem) : Prop := (s.available ++ s.pending).Perm [0, 1, 2, 3, 4, 5, 6, 7]

/-- Every frame that was polled is delivered exactly once, as the device has left it. -/
def DeliveredOnce (s : RxSystem) : Prop :=
  ∀ k c, k < s.polled → s.log[k]? = some c → c.WellSized →
    s.delivered.filter (fun e => e.1 = k) = [(k, c.frame)]

end RxSystem

/-- What happens at the queue. -/
inductive RxEvent
  /-- The device takes the next buffer from the ring. -/
  | fetch
  /-- The device fills a buffer it has taken and completes it with any length. -/
  | complete (i : ℕ) (len : UInt32) (bytes : List UInt8)
  /-- A call of `virtio_net_rx_poll`. -/
  | poll (bufferSize : UInt64)

/-- An event. -/
def RxEvent.apply : RxEvent → RxSystem → RxSystem
  | .fetch, s =>
    if s.lastAvail = s.driver.availIdx then s
    else
      { s with
        lastAvail := s.lastAvail + 1
        fetched := s.fetched ++ [s.driver.availRing (slot 8 s.lastAvail)] }
  | .complete i len bytes, s =>
    match s.fetched[i]? with
    | none => s
    | some id =>
      let desc := s.driver.rxDesc (Fin.ofNat 8 id.toNat)
      match desc.addr with
      | none => s
      | some buf =>
        let memory := (s.driver.rxBufs buf).store 0 (bytes.take desc.len.toNat)
        { s with
          driver :=
            { s.driver with
              rxBufs := update s.driver.rxBufs buf memory
              usedRing := update s.driver.usedRing (slot 8 s.driver.usedIdx)
                ⟨id.toUInt32, len⟩
              usedIdx := s.driver.usedIdx + 1 }
          fetched := s.fetched.eraseIdx i
          log := s.log ++ [⟨id, len, memory⟩] }
  | .poll bufferSize, s =>
    let r := virtioNetRxPoll bufferSize s.driver
    let took := r.2.rxLastUsed ≠ s.driver.rxLastUsed
    { s with
      driver := r.2
      polled := if took then s.polled + 1 else s.polled
      delivered := if r.1 = [] then s.delivered else s.delivered ++ [(s.polled, r.1)] }

/-- The poll finds nothing, or a frame it can hand out. -/
def RxEvent.Fits : RxEvent → RxSystem → Prop
  | .poll bufferSize, s =>
    bufferSize = 0 ∨ s.driver.usedIdx = s.driver.rxLastUsed ∨
      fits bufferSize s.driver.next.len = true
  | .fetch, _ | .complete _ _ _, _ => True

/-- The event is a poll. -/
def RxEvent.IsPoll : RxEvent → Prop
  | .poll _ => True
  | .fetch | .complete _ _ _ => False

/-- After every poll of a run the buffers are conserved and every frame that was polled is
delivered once. -/
def Sound : List RxEvent → RxSystem → Prop
  | [], _ => True
  | e :: es, s =>
    (e.IsPoll → (e.apply s).Conserved ∧ (e.apply s).DeliveredOnce) ∧ Sound es (e.apply s)

/-- Every poll of a run can hand out what it finds. -/
def AllFit : List RxEvent → RxSystem → Prop
  | [], _ => True
  | e :: es, s => e.Fits s ∧ AllFit es (e.apply s)

/-! ### The invariant -/

namespace RxSystem

/-- The indices count what was posted, taken, completed and polled; each buffer is in one
place; and the completions that were not polled are as the device has left them. -/
structure Inv (s : RxSystem) (posted taken : ℕ) : Prop where
  rxAvailIdx : s.driver.rxAvailIdx = UInt16.ofNat posted
  availIdx : s.driver.availIdx = UInt16.ofNat posted
  lastAvail : s.lastAvail = UInt16.ofNat taken
  usedIdx : s.driver.usedIdx = UInt16.ofNat s.log.length
  rxLastUsed : s.driver.rxLastUsed = UInt16.ofNat s.polled
  taken_le : taken ≤ posted
  polled_le : s.polled ≤ s.log.length
  rxDesc : s.driver.rxDesc = postedDesc
  perm : (window s.driver.availRing taken (posted - taken) ++ s.fetched ++
    (s.log.drop s.polled).map Completion.id).Perm [0, 1, 2, 3, 4, 5, 6, 7]
  used : ∀ k c, s.polled ≤ k → s.log[k]? = some c →
    s.driver.usedRing (cell 8 k) = ⟨c.id.toUInt32, c.len⟩ ∧
      s.driver.rxBufs (Fin.ofNat 8 c.id.toNat) = c.memory
  delivered : s.DeliveredOnce
  early : ∀ e ∈ s.delivered, e.1 < s.polled

theorem Inv.boot : RxSystem.boot.Inv 8 0 where
  rxAvailIdx := rfl
  availIdx := rfl
  lastAvail := rfl
  usedIdx := rfl
  rxLastUsed := rfl
  taken_le := Nat.zero_le 8
  polled_le := Nat.le_refl 0
  rxDesc := rfl
  perm := List.Perm.of_eq (by decide)
  used k c _ h := by cases h
  delivered k c h := absurd h (Nat.not_lt_zero k)
  early e h := absurd h not_mem_nil

section Facts

variable {s : RxSystem} {posted taken : ℕ} (h : s.Inv posted taken)

include h

theorem Inv.count : posted - taken + s.fetched.length + (s.log.length - s.polled) = 8 := by
  have hlen := h.perm.length_eq
  simpa only [length_append, length_window, length_map, length_drop,
    length_cons, length_nil] using hlen

theorem Inv.nodup : (window s.driver.availRing taken (posted - taken) ++ s.fetched ++
    (s.log.drop s.polled).map Completion.id).Nodup :=
  h.perm.nodup_iff.mpr (by decide)

theorem Inv.available_eq :
    s.available = window s.driver.availRing taken (posted - taken) ++ s.fetched := by
  have hcount := h.count
  rw [available, h.availIdx, h.lastAvail, window_toNat (by decide),
    toNat_ofNat_sub h.taken_le (by omega)]

theorem Inv.pending_eq : s.pending = (s.log.drop s.polled).map Completion.id := by
  have hcount := h.count
  rw [pending, h.usedIdx, h.rxLastUsed, window_toNat (by decide),
    toNat_ofNat_sub h.polled_le (by omega)]
  apply ext_getElem?
  intro j
  rw [window, map_map, getElem?_map, getElem?_map, getElem?_drop]
  rcases hlog : s.log[s.polled + j]? with _ | c
  · rw [getElem?_eq_none_iff] at hlog
    rw [getElem?_eq_none (by rw [length_range]; omega)]
    rfl
  · have hlt := (List.getElem?_eq_some_iff.mp hlog).1
    rw [getElem?_range (by omega), Option.map_some, Option.map_some, comp_apply,
      (h.used _ c (Nat.le_add_right _ _) hlog).1, UInt16.toUInt16_toUInt32]

theorem Inv.conserved : s.Conserved := by
  rw [Conserved, h.available_eq, h.pending_eq]
  exact h.perm

/-- The oldest completion that was not polled. -/
theorem Inv.next {c : Completion} (hc : s.log[s.polled]? = some c) :
    s.driver.next = ⟨c.id.toUInt32, c.len⟩ ∧
      s.driver.rxBufs (Fin.ofNat 8 c.id.toNat) = c.memory := by
  rw [RxDriver.next, h.rxLastUsed, slot_ofNat (by decide)]
  exact h.used _ c (Nat.le_refl _) hc

theorem Inv.idle_iff : s.driver.usedIdx = s.driver.rxLastUsed ↔ s.log.length = s.polled := by
  have hcount := h.count
  rw [h.usedIdx, h.rxLastUsed, eq_comm, ofNat_eq_iff h.polled_le (by omega), eq_comm]

end Facts

/-! #### The device -/

variable {s : RxSystem} {posted taken : ℕ}

open RxEvent

theorem Inv.fetch (h : s.Inv posted taken) :
    ∃ taken', (RxEvent.fetch.apply s).Inv posted taken' := by
  unfold apply
  dsimp only
  split
  · exact ⟨taken, h⟩
  · rename_i hne
    have hlt : taken < posted := by
      refine Nat.lt_of_le_of_ne h.taken_le fun heq => hne ?_
      rw [h.lastAvail, h.availIdx, heq]
    refine ⟨taken + 1, ?_⟩
    have hpop := window_pop s.driver.availRing taken (posted - (taken + 1))
    rw [show posted - (taken + 1) + 1 = posted - taken by omega] at hpop
    have hslot : slot 8 s.lastAvail = cell 8 taken := by rw [h.lastAvail, slot_ofNat (by decide)]
    refine { h with lastAvail := ?_, taken_le := hlt, perm := ?_ }
    · rw [h.lastAvail, UInt16.ofNat_add]
      rfl
    · have hperm := h.perm
      rw [hpop] at hperm
      refine List.Perm.trans (append_right _ ?_) hperm
      rw [hslot, ← append_assoc]
      exact perm_append_comm

/-- A buffer the device has taken is not one that waits to be polled. -/
theorem Inv.buf_ne (h : s.Inv posted taken) {id : UInt16} (hid : id ∈ s.fetched) {k : ℕ}
    {c : Completion} (hk : s.polled ≤ k) (hc : s.log[k]? = some c) :
    Fin.ofNat 8 c.id.toNat ≠ Fin.ofNat 8 id.toNat := by
  have hpend : c.id ∈ (s.log.drop s.polled).map Completion.id := by
    refine mem_map_of_mem (mem_of_getElem? (i := k - s.polled) ?_)
    rw [getElem?_drop, Nat.add_sub_cancel' hk]
    exact hc
  have hne : id ≠ c.id := (nodup_append.mp h.nodup).2.2 _
    (mem_append_right _ hid) _ hpend
  have hall : ([0, 1, 2, 3, 4, 5, 6, 7] : List UInt16).all (fun x => decide (x.toNat < 8)) := by
    decide
  have hsmall : ∀ x : UInt16, x ∈ [(0 : UInt16), 1, 2, 3, 4, 5, 6, 7] → x.toNat < 8 :=
    fun x hx => of_decide_eq_true (all_eq_true.mp hall x hx)
  have hlt := hsmall id (h.perm.mem_iff.mp (mem_append_left _ (mem_append_right _ hid)))
  have hlt' := hsmall c.id (h.perm.mem_iff.mp (mem_append_right _ hpend))
  intro heq
  rw [Fin.ext_iff, Fin.val_ofNat, Fin.val_ofNat, Nat.mod_eq_of_lt hlt, Nat.mod_eq_of_lt hlt',
    UInt16.toNat_inj] at heq
  exact hne heq.symm

theorem Inv.complete (h : s.Inv posted taken) (i : ℕ) (len : UInt32) (bytes : List UInt8) :
    ((RxEvent.complete i len bytes).apply s).Inv posted taken := by
  unfold apply
  dsimp only
  rcases hid : s.fetched[i]? with _ | id
  · exact h
  · rw [h.rxDesc]
    dsimp only [postedDesc]
    generalize (s.driver.rxBufs (Fin.ofNat 8 id.toNat)).store 0 _ = memory
    have hcount := h.count
    have hmem : id ∈ s.fetched := mem_of_getElem? hid
    have hpos : 0 < s.fetched.length := length_pos_of_mem hmem
    have hslot : slot 8 s.driver.usedIdx = cell 8 s.log.length := by
      rw [h.usedIdx, slot_ofNat (by decide)]
    refine
      { rxAvailIdx := h.rxAvailIdx
        availIdx := h.availIdx
        lastAvail := h.lastAvail
        rxLastUsed := h.rxLastUsed
        taken_le := h.taken_le
        rxDesc := rfl
        early := h.early
        usedIdx := ?_
        polled_le := ?_
        perm := ?_
        used := ?_
        delivered := ?_ }
    · rw [h.usedIdx, length_append, UInt16.ofNat_add]
      rfl
    · rw [length_append]
      exact Nat.le_add_right_of_le h.polled_le
    · rw [drop_append_of_le_length h.polled_le, map_append, map_singleton]
      refine List.Perm.trans ?_ h.perm
      -- the buffer goes from those the device has taken to those that wait
      obtain ⟨hlt, rfl⟩ := List.getElem?_eq_some_iff.mp hid
      have hfetched := (getElem_cons_eraseIdx_perm hlt).symm
      rw [append_assoc, append_assoc]
      refine append_left _ (List.Perm.trans ?_ (append_right _ hfetched.symm))
      rw [← append_assoc]
      exact perm_append_singleton _ _
    · intro k c hk hc
      dsimp only at hk hc ⊢
      rw [hslot]
      rcases Nat.lt_trichotomy k s.log.length with hlt | rfl | hgt
      · rw [getElem?_append_left hlt] at hc
        rw [update_of_ne (cell_ne hlt (by omega)),
          update_of_ne (h.buf_ne hmem hk hc)]
        exact h.used k c hk hc
      · rw [getElem?_concat_length, Option.some.injEq] at hc
        subst hc
        exact ⟨update_self .., update_self ..⟩
      · have hlen := (List.getElem?_eq_some_iff.mp hc).1
        rw [length_append, length_singleton] at hlen
        omega
    · intro k c hk hc
      have hlt : k < s.log.length := Nat.lt_of_lt_of_le hk h.polled_le
      rw [getElem?_append_left hlt] at hc
      exact h.delivered k c hk hc

/-! #### A poll -/

theorem succ_ne_self (i : UInt16) : i + 1 ≠ i := by
  intro h
  have hval := congrArg UInt16.toNat h
  rw [UInt16.toNat_add] at hval
  change (i.toNat + 1) % 65536 = i.toNat at hval
  omega

/-- A frame that can be handed out is not empty. -/
theorem frame_ne_nil {bufferSize : UInt64} {c : Completion} (h : fits bufferSize c.len = true) :
    c.frame ≠ [] := by
  have hlt : 10 < c.len.toNat := by
    simp only [fits, Bool.and_eq_true, decide_eq_true_eq] at h
    exact h.1
  have hsub : (c.len - 10).toNat = c.len.toNat - 10 := UInt32.toNat_sub_of_le _ _ (Nat.le_of_lt hlt)
  apply ne_nil_of_length_pos
  rw [Completion.frame, Buffer.length_load, hsub]
  omega

section Poll

variable {s : RxSystem} {posted taken : ℕ} (h : s.Inv posted taken) {bufferSize : UInt64}
  {c : Completion} (hsize : bufferSize ≠ 0) (hc : s.log[s.polled]? = some c)

include h hsize hc

/-- What a poll does with the oldest completion. -/
theorem Inv.poll_eq :
    virtioNetRxPoll bufferSize s.driver =
      if fits bufferSize c.len then
        (c.frame,
          { s.driver with
            rxLastUsed := s.driver.rxLastUsed + 1
            availRing := update s.driver.availRing (cell 8 posted) c.id
            rxAvailIdx := s.driver.rxAvailIdx + 1
            availIdx := s.driver.rxAvailIdx + 1 })
      else ([], { s.driver with rxLastUsed := s.driver.rxLastUsed + 1 }) := by
  obtain ⟨hnext, hmemory⟩ := h.next hc
  have hbusy : s.driver.usedIdx ≠ s.driver.rxLastUsed := by
    have hlt := (List.getElem?_eq_some_iff.mp hc).1
    rw [Ne, h.idle_iff]
    omega
  have hslot : slot 8 s.driver.rxAvailIdx = cell 8 posted := by
    rw [h.rxAvailIdx, slot_ofNat (by decide)]
  have hdesc : update s.driver.rxDesc (Fin.ofNat 8 c.id.toNat)
      (postedDesc (Fin.ofNat 8 c.id.toNat)) = s.driver.rxDesc := by
    rw [h.rxDesc, update_eq_self]
  rw [virtioNetRxPoll, if_neg hsize, if_neg hbusy]
  simp only [hnext, UInt16.toUInt16_toUInt32, hmemory, hslot, hdesc]
  rfl

/-- A poll that hands out what it finds. -/
theorem Inv.poll_of_fits (hfits : fits bufferSize c.len = true) :
    ((RxEvent.poll bufferSize).apply s).Inv (posted + 1) taken := by
  have hcount := h.count
  have hlt := (List.getElem?_eq_some_iff.mp hc).1
  unfold apply
  dsimp only
  rw [h.poll_eq hsize hc, if_pos hfits]
  rw [if_pos (succ_ne_self _), if_neg (frame_ne_nil hfits)]
  refine
    { rxAvailIdx := ?_
      availIdx := ?_
      lastAvail := h.lastAvail
      usedIdx := h.usedIdx
      rxLastUsed := ?_
      taken_le := Nat.le_succ_of_le h.taken_le
      polled_le := hlt
      rxDesc := h.rxDesc
      perm := ?_
      used := fun k x hk hx => h.used k x (Nat.le_of_succ_le hk) hx
      delivered := ?_
      early := ?_ }
  · rw [h.rxAvailIdx, UInt16.ofNat_add]
    rfl
  · rw [h.rxAvailIdx, UInt16.ofNat_add]
    rfl
  · rw [h.rxLastUsed, UInt16.ofNat_add]
    rfl
  · have hpush := window_push s.driver.availRing taken (posted - taken) (by omega) c.id
    have hdrop : s.log.drop s.polled = c :: s.log.drop (s.polled + 1) := by
      obtain ⟨hlt, rfl⟩ := List.getElem?_eq_some_iff.mp hc
      exact drop_eq_getElem_cons hlt
    have hperm := h.perm
    rw [hdrop, map_cons] at hperm
    rw [Nat.add_sub_cancel' h.taken_le] at hpush
    rw [Nat.succ_sub h.taken_le, hpush]
    -- the buffer goes from those that wait to the ring
    refine List.Perm.trans ?_ hperm
    rw [append_assoc, append_assoc, append_assoc]
    refine append_left _ ?_
    rw [singleton_append]
    exact perm_middle.symm
  · intro k x hk hx hwell
    rw [filter_append]
    rcases Nat.lt_succ_iff_lt_or_eq.mp hk with hlt | rfl
    · rw [h.delivered k x hlt hx hwell]
      simp [Nat.ne_of_gt hlt]
    · rw [hc, Option.some.injEq] at hx
      subst hx
      have hold : s.delivered.filter (fun e => e.1 = s.polled) = [] := by
        rw [filter_eq_nil_iff]
        intro e he
        simpa using Nat.ne_of_lt (h.early e he)
      rw [hold]
      simp
  · intro e he
    rcases mem_append.mp he with he | he
    · exact Nat.lt_succ_of_lt (h.early e he)
    · rw [mem_singleton.mp he]
      exact Nat.lt_succ_self _

/-- A poll that cannot hand out what it finds loses the buffer. -/
theorem Inv.poll_of_not_fits (hfits : ¬ fits bufferSize c.len = true) :
    ¬ ((RxEvent.poll bufferSize).apply s).Conserved := by
  have hcount := h.count
  have hlt := (List.getElem?_eq_some_iff.mp hc).1
  intro hperm
  have hlen := hperm.length_eq
  unfold apply at hlen
  dsimp only at hlen
  rw [h.poll_eq hsize hc, if_neg hfits] at hlen
  have hnext : s.driver.rxLastUsed + 1 = UInt16.ofNat (s.polled + 1) := by
    rw [h.rxLastUsed, UInt16.ofNat_add]
    rfl
  simp only [available, pending, length_append, length_map, length_window, hnext,
    h.usedIdx, h.availIdx, h.lastAvail, length_cons, length_nil] at hlen
  rw [toNat_ofNat_sub hlt (by omega), toNat_ofNat_sub h.taken_le (by omega)] at hlen
  omega

end Poll

/-- A poll that finds nothing changes nothing. -/
theorem Inv.poll_idle {bufferSize : UInt64}
    (hidle : bufferSize = 0 ∨ s.driver.usedIdx = s.driver.rxLastUsed) :
    (RxEvent.poll bufferSize).apply s = s := by
  have hpoll : virtioNetRxPoll bufferSize s.driver = ([], s.driver) := by
    by_cases hsize : bufferSize = 0
    · rw [virtioNetRxPoll, if_pos hsize]
    · rw [virtioNetRxPoll, if_neg hsize, if_pos (hidle.resolve_left hsize)]
  unfold apply
  dsimp only
  rw [hpoll, if_neg (not_not_intro rfl), if_pos rfl]

end RxSystem

/-! ### Runs -/

/-- **One event**: the invariant holds on, unless a poll finds something it cannot hand out,
and then a buffer is lost. -/
theorem RxSystem.Inv.apply_cases {s : RxSystem} {posted taken : ℕ} (h : s.Inv posted taken)
    (e : RxEvent) :
    (e.Fits s ∧ ∃ posted' taken', (e.apply s).Inv posted' taken') ∨
      (¬ e.Fits s ∧ e.IsPoll ∧ ¬ (e.apply s).Conserved) := by
  cases e with
  | fetch => exact .inl ⟨trivial, posted, h.fetch⟩
  | complete i len bytes => exact .inl ⟨trivial, posted, taken, h.complete i len bytes⟩
  | poll bufferSize =>
    by_cases hidle : bufferSize = 0 ∨ s.driver.usedIdx = s.driver.rxLastUsed
    · refine .inl ⟨hidle.imp_right .inl, posted, taken, ?_⟩
      rw [RxSystem.Inv.poll_idle hidle]
      exact h
    · rw [not_or, h.idle_iff] at hidle
      obtain ⟨hsize, hbusy⟩ := hidle
      have hlt : s.polled < s.log.length := Nat.lt_of_le_of_ne h.polled_le (Ne.symm hbusy)
      obtain ⟨c, hc⟩ : ∃ c, s.log[s.polled]? = some c := ⟨_, getElem?_eq_getElem hlt⟩
      have hfits : (RxEvent.poll bufferSize).Fits s ↔ fits bufferSize c.len = true := by
        rw [RxEvent.Fits, h.idle_iff, (h.next hc).1]
        simp only [hsize, hbusy, false_or]
      by_cases hf : fits bufferSize c.len = true
      · exact .inl ⟨hfits.mpr hf, posted + 1, taken, h.poll_of_fits hsize hc hf⟩
      · exact .inr ⟨fun hn => hf (hfits.mp hn), trivial, h.poll_of_not_fits hsize hc hf⟩

/-- **Receive buffers are conserved**: in a run of fetches, completions and polls, after
every poll each buffer is available to the device exactly once or completed and not yet
polled, and each frame that was polled is delivered exactly once, exactly if every poll that
finds a completion can hand it out. -/
theorem rx_conserved_iff (es : List RxEvent) :
    Sound es RxSystem.boot ↔ AllFit es RxSystem.boot := by
  suffices hrun : ∀ (s : RxSystem) (posted taken : ℕ), s.Inv posted taken →
      (Sound es s ↔ AllFit es s) from hrun _ _ _ RxSystem.Inv.boot
  induction es with
  | nil => exact fun _ _ _ _ => .rfl
  | cons e es ih =>
    intro s posted taken h
    rw [Sound, AllFit]
    rcases h.apply_cases e with ⟨hfits, posted', taken', hinv⟩ | ⟨hfits, hpoll, hlost⟩
    · rw [ih _ posted' taken' hinv]
      exact ⟨fun hs => ⟨hfits, hs.2⟩, fun hs => ⟨fun _ => ⟨hinv.conserved, hinv.delivered⟩, hs.2⟩⟩
    · exact ⟨fun hs => absurd (hs.1 hpoll).1 hlost, fun hs => absurd hs.1 hfits⟩

/-- The device takes a buffer and completes it with a header only; the poll does not post it
again. -/
def runt : List RxEvent := [.fetch, .complete 0 10 [], .poll 1524]

/-- Seven buffers are left. -/
theorem rx_buffer_lost :
    (runt.foldl (fun s e => e.apply s) RxSystem.boot).available = [1, 2, 3, 4, 5, 6, 7] ∧
      (runt.foldl (fun s e => e.apply s) RxSystem.boot).pending = [] := by
  decide +kernel

end Xaios.Virtio
