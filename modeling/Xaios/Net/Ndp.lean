import Xaios.Foundation.Table
import Xaios.Net.Bounds

/-!
# Neighbour discovery

The cache, the three messages and the timers of `ndp.c`. The messages are read from a frame
whose bytes are fetched one by one, each a step that may fail (`Foundation.Guarded`).

The options of a message are walked as far as the payload length in the IPv6 header says, and
nothing compares it with the length of the frame. So a message is processed in bounds exactly
if the options that the walk comes to are in the frame (`Net.Ndp.options_in_bounds_iff`),
which they are if the payload is (`Net.Ndp.held_of_payload`).
-/

namespace Xaios.Net.Ndp

open Foundation Function List Bounds

/-- A link-layer address. -/
abbrev Mac := Fin 6 → UInt8

/-- `xaios_ndp_nud_state_t`. -/
inductive NudState where
  | incomplete
  | reachable
  | stale
  | delay
  | probe
  deriving DecidableEq

/-- `xaios_ndp_entry_t`. -/
structure NdpEntry where
  ip : IpAddr
  mac : Mac
  active : Bool
  nudState : NudState
  nudTimestampNs : UInt64
  lastUsedNs : UInt64
  insertNs : UInt64
  probeCount : UInt32

/-- `xaios_dad_state_t`. -/
structure DadState where
  tentativeAddr : IpAddr
  startNs : UInt64
  active : Bool
  duplicateFound : Bool

/-- The globals of `ndp.c`. -/
structure Neighbors where
  cache : Fin 32 → NdpEntry
  lastTickNs : UInt64
  defaultGateway : IpAddr
  hasDefaultGateway : Bool
  dadState : DadState
  dadActive : Bool

/-! ### The cache -/

/-- `expire_entry`. -/
def expireEntry (e : NdpEntry) : NdpEntry :=
  { e with active := false, nudState := .incomplete, ip := .zero, mac := fun _ => 0 }

/-- `ndp_init`. -/
def ndpInit (s : Neighbors) : Neighbors :=
  { s with
    cache := fun _ => ⟨.zero, fun _ => 0, false, .incomplete, 0, 0, 0, 0⟩
    defaultGateway := .zero
    hasDefaultGateway := false
    dadActive := false }

namespace Neighbors

variable (s : Neighbors)

/-- An entry is replaced. -/
def setEntry (i : Fin 32) (e : NdpEntry) : Neighbors := { s with cache := update s.cache i e }

/-- The entry of an address. -/
def find (ip : IpAddr) : Option (Fin 32) :=
  (finRange 32).find? fun i => (s.cache i).active && (s.cache i).ip.equal ip

/-- The first entry that is not in use. -/
def freeSlot : Option (Fin 32) := (finRange 32).find? fun i => !(s.cache i).active

/-- One round of the search for the entry that was used least recently. -/
def older (best : Option (Fin 32) × UInt64) (i : Fin 32) : Option (Fin 32) × UInt64 :=
  if (s.cache i).lastUsedNs < best.2 then (some i, (s.cache i).lastUsedNs) else best

/-- The entry that was used least recently, if one was used before the last nanosecond. -/
def lruSlot : Option (Fin 32) :=
  ((finRange 32).foldl s.older (none, 0xFFFFFFFFFFFFFFFF)).1

/-- Where a new entry goes. -/
def insertSlot : Option (Fin 32) := s.freeSlot <|> s.lruSlot

end Neighbors

/-- `ndp_cache_lookup`: the link-layer address, unless it answers NOT_FOUND. -/
def ndpCacheLookup (s : Neighbors) (ip : IpAddr) : Option Mac × Neighbors :=
  match s.find ip with
  | none => (none, s)
  | some i =>
    let e := { s.cache i with lastUsedNs := s.lastTickNs }
    let e :=
      if e.nudState = .stale then { e with nudState := .delay, nudTimestampNs := s.lastTickNs }
      else if e.nudState = .reachable then { e with nudTimestampNs := s.lastTickNs }
      else e
    (some e.mac, s.setEntry i e)

/-- `ndp_cache_insert`. The link-layer address is only read where there is an entry for it. -/
def ndpCacheInsert (s : Neighbors) (ip : IpAddr) (mac : Guarded Mac) :
    Guarded (Status × Neighbors) :=
  match s.find ip with
  | some i => do
    let mac ← mac
    return (.ok, s.setEntry i
      { s.cache i with
        mac := mac
        nudState := .reachable
        nudTimestampNs := s.lastTickNs
        probeCount := 0
        lastUsedNs := s.lastTickNs })
  | none =>
    match s.insertSlot with
    | none => return (.noMemory, s)
    | some i => do
      let mac ← mac
      return (.ok, s.setEntry i
        ⟨ip, mac, true, .reachable, s.lastTickNs, s.lastTickNs, s.lastTickNs, 0⟩)

theorem IpAddr.equal_refl (a : IpAddr) : a.equal a = true := by
  simp [IpAddr.equal]

/-- There is no entry for the address, and no place for one: all entries are in use, and none
was used before the last nanosecond that the clock can show. -/
def Neighbors.Refuses (s : Neighbors) (ip : IpAddr) : Prop := s.find ip = none ∧ s.insertSlot = none

section Insert

variable {s : Neighbors} {ip : IpAddr}

theorem lookup_eq : (ndpCacheLookup s ip).1 = (s.find ip).map fun i => (s.cache i).mac := by
  unfold ndpCacheLookup
  cases s.find ip with
  | none => rfl
  | some i =>
    dsimp only
    split
    · rfl
    · split
      · rfl
      · rfl

theorem ndpCacheInsert_of_refuses (h : s.Refuses ip) (mac : Guarded Mac) :
    ndpCacheInsert s ip mac = .ok (.noMemory, s) := by
  rw [ndpCacheInsert, h.1]
  rw [h.2]
  rfl

theorem ndpCacheInsert_error (h : ¬s.Refuses ip) (e : Fault) :
    ndpCacheInsert s ip (.error e) = .error e := by
  unfold ndpCacheInsert
  cases hfind : s.find ip with
  | some i => rfl
  | none =>
    cases hslot : s.insertSlot with
    | none => exact absurd ⟨hfind, hslot⟩ h
    | some i => rfl

/-- **What is inserted is found**, unless the cache refuses it. -/
theorem ndpCacheInsert_ok (h : ¬s.Refuses ip) (mac : Mac) :
    ∃ i e, ndpCacheInsert s ip (.ok mac) = .ok (.ok, s.setEntry i e) ∧
      (ndpCacheLookup (s.setEntry i e) ip).1 = some mac := by
  -- the entry that is written is the first one with the address
  have hlookup : ∀ i e, e.active = true → e.ip.equal ip = true → e.mac = mac →
      (∀ k, k < i → ((s.cache k).active && (s.cache k).ip.equal ip) = false) →
      (ndpCacheLookup (s.setEntry i e) ip).1 = some mac := by
    intro i e hactive hip hmac hbefore
    have hfind : (s.setEntry i e).find ip = some i := by
      refine find?_finRange_eq_some_iff.mpr ⟨?_, fun k hk => ?_⟩
      · dsimp only [Neighbors.setEntry]
        rw [update_self, hactive, hip]
        rfl
      · dsimp only [Neighbors.setEntry]
        rw [update_of_ne hk.ne]
        exact hbefore k hk
    rw [lookup_eq, hfind, Option.map_some]
    dsimp only [Neighbors.setEntry]
    rw [update_self, hmac]
  unfold ndpCacheInsert
  cases hfind : s.find ip with
  | some i =>
    obtain ⟨hi, hbefore⟩ := find?_finRange_eq_some_iff.mp hfind
    rw [Bool.and_eq_true] at hi
    exact ⟨i, _, rfl, hlookup i _ hi.1 hi.2 rfl hbefore⟩
  | none =>
    cases hslot : s.insertSlot with
    | none => exact absurd ⟨hfind, hslot⟩ h
    | some i =>
      refine ⟨i, _, rfl, hlookup i _ rfl (IpAddr.equal_refl ip) rfl fun k _ => ?_⟩
      exact find?_finRange_eq_none_iff.mp hfind k

theorem insert_total (ip : IpAddr) (mac : Mac) :
    ∃ r, ndpCacheInsert s ip (.ok mac) = .ok r := by
  by_cases h : s.Refuses ip
  · exact ⟨_, ndpCacheInsert_of_refuses h _⟩
  · obtain ⟨i, e, heq, -⟩ := ndpCacheInsert_ok h mac
    exact ⟨_, heq⟩

end Insert

/-! ### Messages -/

/-- Six bytes of the frame. -/
def fetchMac (frame : List UInt8) (offset : ℕ) : Guarded Mac := do
  let bytes ← fetchRange frame offset 6
  return fun i => bytes.getD i 0

/-- `ipv6_parse_header` of the frame: the payload length and the next header, unless it
answers -1. -/
def ipv6ParseHeader (frame : List UInt8) : Guarded (Option (UInt16 × UInt8)) := do
  if frame.length - 14 < 40 then return none
  if (← fetch frame 14) >>> 4 ≠ 6 then return none
  let payloadLength ← Bounds.readU16be frame 18
  let nextHeader ← fetch frame 20
  return some (payloadLength, nextHeader)

/-- The checks that the three functions begin with, for a type of message and its least
length: the payload length, unless they answer INVALID. -/
def acceptMessage (frame : List UInt8) (type : UInt8) (minLen : ℕ) : Guarded (Option ℕ) := do
  if frame.length < 62 then return none
  if (← fetch frame 21) ≠ 255 then return none
  if (← Bounds.readU16be frame 12) ≠ 0x86DD then return none
  match ← ipv6ParseHeader frame with
  | none => return none
  | some (payloadLength, nextHeader) =>
    if nextHeader ≠ 58 then return none
    if (← fetch frame 54) ≠ type then return none
    if payloadLength.toNat < minLen then return none
    return some payloadLength.toNat

/-- The loop over the options, from an offset into the message on. What is done with a
link-layer address option of a kind says whether the loop is left. -/
def walkOptions {σ : Type} (frame : List UInt8) (icmpv6Len : ℕ) (kind : UInt8)
    (take : σ → ℕ → Guarded (σ × Bool)) : ℕ → ℕ → σ → Guarded σ
  | 0, offset, s => if offset + 8 ≤ icmpv6Len then .error .unfinished else .ok s
  | fuel + 1, offset, s =>
    if offset + 8 ≤ icmpv6Len then do
      let optType ← fetch frame (54 + offset)
      let optLen ← fetch frame (54 + offset + 1)
      if optLen = 0 then return s
      if optType = kind ∧ optLen = 1 then
        let (s, stop) ← take s offset
        if stop then return s
        walkOptions frame icmpv6Len kind take fuel (offset + optLen.toNat * 8) s
      else walkOptions frame icmpv6Len kind take fuel (offset + optLen.toNat * 8) s
    else .ok s

/-- `ndp_process_neighbor_solicitation`. -/
def ndpProcessNeighborSolicitation (s : Neighbors) (frame : List UInt8) :
    Guarded (Status × Neighbors) := do
  match ← acceptMessage frame 135 24 with
  | none => return (.invalid, s)
  | some icmpv6Len =>
    let srcIp ← Bounds.fromRawIpv6 frame 22
    let _target ← Bounds.fromRawIpv6 frame 62
    let srcMac ← walkOptions frame icmpv6Len 1
      (fun _ offset => do return (← fetchMac frame (54 + offset + 2), true)) icmpv6Len 24 fun _ => 0
    if srcIp.family = 6 ∧ srcMac ⟨0, Nat.zero_lt_succ 5⟩ ≠ 0 then
      let (_, s) ← ndpCacheInsert s srcIp (.ok srcMac)
      return (.ok, s)
    else return (.ok, s)

/-- `ndp_process_neighbor_advertisement`. -/
def ndpProcessNeighborAdvertisement (s : Neighbors) (frame : List UInt8) :
    Guarded (Status × Neighbors) := do
  match ← acceptMessage frame 136 24 with
  | none => return (.invalid, s)
  | some icmpv6Len =>
    let target ← Bounds.fromRawIpv6 frame 62
    if s.dadActive && target.equal s.dadState.tentativeAddr then
      return (.ok, { s with dadState := { s.dadState with duplicateFound := true } })
    else
      let inserted ← walkOptions frame icmpv6Len 2
        (fun _ offset => do
          return (some (← ndpCacheInsert s target (fetchMac frame (54 + offset + 2))), true))
        icmpv6Len 24 none
      match inserted with
      | some r => return r
      | none => ndpCacheInsert s target (.ok fun _ => 0)

/-- `ndp_process_router_advertisement`. -/
def ndpProcessRouterAdvertisement (s : Neighbors) (frame : List UInt8) :
    Guarded (Status × Neighbors) := do
  match ← acceptMessage frame 134 16 with
  | none => return (.invalid, s)
  | some icmpv6Len =>
    let srcIp ← Bounds.fromRawIpv6 frame 22
    let s ← walkOptions frame icmpv6Len 1
      (fun s offset => do
        let (_, s) ← ndpCacheInsert s srcIp (fetchMac frame (54 + offset + 2))
        return (s, false))
      icmpv6Len 16 s
    return (.ok, { s with defaultGateway := srcIp, hasDefaultGateway := true })

/-! ### The walk over the options -/

/-- An option of a kind that the walk takes. -/
def IsTaken (frame : List UInt8) (kind : UInt8) (offset : ℕ) : Prop :=
  byteAt frame (54 + offset) = kind ∧ byteAt frame (54 + offset + 1) = 1

instance (frame : List UInt8) (kind : UInt8) (offset : ℕ) : Decidable (IsTaken frame kind offset) :=
  inferInstanceAs (Decidable (_ ∧ _))

/-- The offsets that the walk comes to. It may be left at the first option it takes. -/
def optionsFrom (frame : List UInt8) (icmpv6Len : ℕ) (kind : UInt8) (stop : Bool) : ℕ → ℕ → List ℕ
  | 0, _ => []
  | fuel + 1, offset =>
    if offset + 8 ≤ icmpv6Len then
      offset ::
        if byteAt frame (54 + offset + 1) = 0 ∨ IsTaken frame kind offset ∧ stop = true then []
        else
          optionsFrom frame icmpv6Len kind stop fuel
            (offset + (byteAt frame (54 + offset + 1)).toNat * 8)
    else []

section Walk

variable {frame : List UInt8} {icmpv6Len : ℕ} {kind : UInt8}

/-- **The walk stays in bounds** exactly if the options that it comes to have their first two
bytes in the frame, and those that it takes can be read. -/
theorem walkOptions_ok_iff {σ : Type} {take : σ → ℕ → Guarded (σ × Bool)} {stop : Bool}
    {P : σ → Prop} {Q : ℕ → Prop}
    (htake : ∀ s o, P s → (Q o ∧ ∃ s', take s o = .ok (s', stop) ∧ P s') ∨
      (¬Q o ∧ ∃ e, take s o = .error e))
    {fuel offset : ℕ} (hfuel : icmpv6Len < offset + 8 * (fuel + 1)) {s : σ} (hs : P s) :
    (∃ r, walkOptions frame icmpv6Len kind take fuel offset s = .ok r) ↔
      ∀ o ∈ optionsFrom frame icmpv6Len kind stop fuel offset,
        54 + o + 2 ≤ frame.length ∧ (IsTaken frame kind o → Q o) := by
  induction fuel generalizing offset s with
  | zero =>
    rw [walkOptions, if_neg (by omega)]
    exact iff_of_true ⟨s, rfl⟩ fun o ho => absurd ho not_mem_nil
  | succ fuel ih =>
    rw [walkOptions, optionsFrom]
    split
    swap
    · exact iff_of_true ⟨s, rfl⟩ fun o ho => absurd ho not_mem_nil
    rw [forall_mem_cons]
    rcases Nat.lt_or_ge frame.length (54 + offset + 2) with hout | hin
    · -- the first two bytes of the option are not in the frame
      refine iff_of_false ?_ fun h => absurd h.1.1 (by omega)
      rintro ⟨r, hr⟩
      obtain ⟨e, he⟩ := fetch_pair_error hout _
      cases he.symm.trans hr
    rw [fetch_byteAt (by omega), ok_bind, fetch_byteAt (by omega), ok_bind]
    have hnext : ∀ n : ℕ, n ≠ 0 → icmpv6Len < offset + n * 8 + 8 * (fuel + 1) := by
      intro n hn
      omega
    rcases eq_or_ne (byteAt frame (54 + offset + 1)) 0 with hzero | hpos
    · -- an option without a length ends the walk
      rw [if_pos hzero, if_pos (.inl hzero)]
      refine iff_of_true ⟨s, rfl⟩ ⟨⟨hin, fun htaken => ?_⟩, fun o ho => absurd ho not_mem_nil⟩
      rw [IsTaken, hzero] at htaken
      exact absurd htaken.2 (by decide)
    have hlen : (byteAt frame (54 + offset + 1)).toNat ≠ 0 := fun h0 =>
      hpos (UInt8.toNat_inj.mp h0)
    rw [if_neg hpos]
    by_cases htaken : byteAt frame (54 + offset) = kind ∧ byteAt frame (54 + offset + 1) = 1
    · rw [if_pos htaken]
      rcases htake s offset hs with ⟨hQ, s', heq, hs'⟩ | ⟨hQ, e, he⟩
      · rw [heq, ok_bind]
        dsimp only
        cases stop with
        | true =>
          rw [if_pos rfl, if_pos (.inr ⟨htaken, rfl⟩)]
          exact iff_of_true ⟨s', rfl⟩ ⟨⟨hin, fun _ => hQ⟩, fun o ho => absurd ho not_mem_nil⟩
        | false =>
          rw [if_neg Bool.false_ne_true, if_neg (by simp [hpos]), ih (hnext _ hlen) hs']
          exact (and_iff_right ⟨hin, fun _ => hQ⟩).symm
      · refine iff_of_false ?_ fun h => hQ (h.1.2 htaken)
        rintro ⟨r, hr⟩
        rw [he] at hr
        cases hr
    · have hnot : ¬(byteAt frame (54 + offset + 1) = 0 ∨
          IsTaken frame kind offset ∧ stop = true) := by
        rintro (h0 | ⟨h1, -⟩)
        · exact hpos h0
        · exact htaken h1
      rw [if_neg htaken, if_neg hnot, ih (hnext _ hlen) hs]
      exact (and_iff_right ⟨hin, fun h => absurd h htaken⟩).symm

end Walk

/-! ### The parts of the messages -/

/-- The checks that a message passes. -/
structure Accepts (frame : List UInt8) (type : UInt8) (minLen : ℕ) : Prop where
  hopLimit : byteAt frame 21 = 255
  etherType : readU16be frame 12 = 0x86DD
  version : byteAt frame 14 >>> 4 = 6
  nextHeader : byteAt frame 20 = 58
  type : byteAt frame 54 = type
  minLen : minLen ≤ ip6PayloadLength frame

section Parts

variable {frame : List UInt8} (hlen : 62 ≤ frame.length)

include hlen

theorem ipv6ParseHeader_eq : ipv6ParseHeader frame =
    .ok (if byteAt frame 14 >>> 4 ≠ 6 then none
      else some (readU16be frame 18, byteAt frame 20)) := by
  rw [ipv6ParseHeader, if_neg (by omega), fetch_byteAt (by omega), ok_bind]
  refine ite_eq_ok fun _ => ?_
  rw [readU16be_eq (by omega), ok_bind, fetch_byteAt (by omega), ok_bind]
  rfl

variable {type : UInt8} {minLen : ℕ}

theorem acceptMessage_of_accepts (h : Accepts frame type minLen) :
    acceptMessage frame type minLen = .ok (some (ip6PayloadLength frame)) := by
  have hmin : ¬(readU16be frame 18).toNat < minLen := Nat.not_lt.mpr h.minLen
  rw [acceptMessage, if_neg (by omega), fetch_byteAt (by omega), ok_bind,
    if_neg (not_not.mpr h.hopLimit), readU16be_eq (by omega), ok_bind,
    if_neg (not_not.mpr h.etherType), ipv6ParseHeader_eq hlen, ok_bind,
    if_neg (not_not.mpr h.version)]
  dsimp only
  rw [if_neg (not_not.mpr h.nextHeader), fetch_byteAt (by omega), ok_bind,
    if_neg (not_not.mpr h.type), if_neg hmin]
  rfl

theorem acceptMessage_of_not (h : ¬Accepts frame type minLen) :
    acceptMessage frame type minLen = .ok none := by
  rw [acceptMessage, if_neg (by omega), fetch_byteAt (by omega), ok_bind]
  split
  · rfl
  rename_i hhop
  rw [readU16be_eq (by omega), ok_bind]
  split
  · rfl
  rename_i hether
  rw [ipv6ParseHeader_eq hlen, ok_bind]
  split_ifs with hversion
  · rfl
  dsimp only
  split
  · rfl
  rename_i hnext
  rw [fetch_byteAt (by omega), ok_bind]
  split
  · rfl
  rename_i htype
  split
  · rfl
  rename_i hmin
  exact absurd ⟨not_not.mp hhop, not_not.mp hether, not_not.mp hversion, not_not.mp hnext,
    not_not.mp htype, Nat.le_of_not_lt hmin⟩ h

/-- What follows the checks matters for a message that passes them. -/
theorem acceptMessage_bind_iff {α : Type} {f : Option ℕ → Guarded α} {Q : Prop}
    (hnone : ∃ r, f none = .ok r)
    (hsome : Accepts frame type minLen → ((∃ r, f (some (ip6PayloadLength frame)) = .ok r) ↔ Q)) :
    (∃ r, (acceptMessage frame type minLen >>= f) = .ok r) ↔ (Accepts frame type minLen → Q) := by
  by_cases hacc : Accepts frame type minLen
  · rw [acceptMessage_of_accepts hlen hacc, ok_bind, hsome hacc, forall_prop_of_true hacc]
  · rw [acceptMessage_of_not hlen hacc, ok_bind]
    exact iff_of_true hnone fun h => absurd h hacc

end Parts

section Parts

variable {frame : List UInt8} {offset : ℕ}

theorem fetchMac_eq (h : offset + 6 ≤ frame.length) :
    fetchMac frame offset = .ok fun i => byteAt frame (offset + i) := by
  rw [fetchMac, fetchRange_eq h 0, ok_bind]
  refine congrArg Except.ok (funext fun i => ?_)
  have hi : (i : ℕ) < ((range 6).map fun k => frame.getD (offset + k) 0).length := by simp
  rw [getD, getElem?_eq_getElem hi, getElem_map, getElem_range]
  rfl

theorem fetchMac_error (h : frame.length < offset + 6) : ∃ e, fetchMac frame offset = .error e :=
  bind_error (fetchRange_error (by decide) h) _

theorem fromRawIpv6_error (h : frame.length < offset + 16) :
    ∃ e, Bounds.fromRawIpv6 frame offset = .error e :=
  bind_error (fetchRange_error (by decide) h) _

end Parts

/-! ### Bounds -/

/-- The options that the walk comes to are in the frame, and so are those that it takes, unless
the cache refuses them. -/
def OptionsHeld (frame : List UInt8) (kind : UInt8) (stop : Bool) (first : ℕ) (refused : Prop) :
    Prop :=
  ∀ o ∈ optionsFrom frame (ip6PayloadLength frame) kind stop (ip6PayloadLength frame) first,
    54 + o + 2 ≤ frame.length ∧ (IsTaken frame kind o → refused ∨ 54 + o + 8 ≤ frame.length)

/-- The three functions end, and read bytes of the frame only. -/
structure InBounds (s : Neighbors) (frame : List UInt8) : Prop where
  solicitation : ∃ r, ndpProcessNeighborSolicitation s frame = .ok r
  advertisement : ∃ r, ndpProcessNeighborAdvertisement s frame = .ok r
  router : ∃ r, ndpProcessRouterAdvertisement s frame = .ok r

/-- The address that is asked for, or that is answered for. -/
def target (frame : List UInt8) : IpAddr := IpAddr.fromRawIpv6 frame 62

/-- The source address. -/
def source (frame : List UInt8) : IpAddr := IpAddr.fromRawIpv6 frame 22

/-- The duplicate address detection answers an advertisement. -/
def DadAnswers (s : Neighbors) (frame : List UInt8) : Prop :=
  s.dadActive = true ∧ (target frame).equal s.dadState.tentativeAddr = true

/-- What the functions read is in the frame: the target of the messages with one, and the
options that the walk comes to. -/
structure Held (s : Neighbors) (frame : List UInt8) : Prop where
  solicitation : Accepts frame 135 24 →
    78 ≤ frame.length ∧ OptionsHeld frame 1 true 24 False
  advertisement : Accepts frame 136 24 → 78 ≤ frame.length ∧
    (¬DadAnswers s frame → OptionsHeld frame 2 true 24 (s.Refuses (target frame)))
  router : Accepts frame 134 16 → OptionsHeld frame 1 false 16 (s.Refuses (source frame))

section Bounds

variable {s : Neighbors} {frame : List UInt8}

/-- Taking an option into the cache. -/
theorem insert_cases (s : Neighbors) (frame : List UInt8) (ip : IpAddr) (o : ℕ) :
    (s.Refuses ip ∨ 54 + o + 8 ≤ frame.length) ∧
        (∃ r, ndpCacheInsert s ip (fetchMac frame (54 + o + 2)) = .ok r ∧
          (r.2.Refuses ip ↔ s.Refuses ip)) ∨
      ¬(s.Refuses ip ∨ 54 + o + 8 ≤ frame.length) ∧
        ∃ e, ndpCacheInsert s ip (fetchMac frame (54 + o + 2)) = .error e := by
  by_cases hrefuses : s.Refuses ip
  · exact .inl ⟨.inl hrefuses, _, ndpCacheInsert_of_refuses hrefuses _, .rfl⟩
  rcases Nat.lt_or_ge frame.length (54 + o + 8) with hout | hin
  · obtain ⟨e, he⟩ := @fetchMac_error frame (54 + o + 2) (by omega)
    refine .inr ⟨?_, e, by rw [he]; exact ndpCacheInsert_error hrefuses e⟩
    rintro (h | h)
    · exact hrefuses h
    · omega
  · obtain ⟨i, e, heq, hfound⟩ := ndpCacheInsert_ok hrefuses fun i => byteAt frame (54 + o + 2 + i)
    refine .inl ⟨.inr hin, _, by rw [fetchMac_eq (by omega), heq], ?_⟩
    refine iff_of_false (fun h => ?_) hrefuses
    rw [lookup_eq, h.1] at hfound
    cases hfound

theorem solicitation_ok_iff (hlen : 62 ≤ frame.length) :
    (∃ r, ndpProcessNeighborSolicitation s frame = .ok r) ↔
      (Accepts frame 135 24 → 78 ≤ frame.length ∧ OptionsHeld frame 1 true 24 False) := by
  refine acceptMessage_bind_iff hlen ⟨_, rfl⟩ fun hacc => ?_
  dsimp only
  rw [fromRawIpv6_eq (by omega), ok_bind]
  rcases Nat.lt_or_ge frame.length 78 with hshort | h78
  · refine iff_of_false ?_ fun h => absurd h.1 (by omega)
    rintro ⟨r, hr⟩
    obtain ⟨e, he⟩ := @fromRawIpv6_error frame 62 (by omega)
    rw [he] at hr
    cases hr
  rw [fromRawIpv6_eq (by omega), ok_bind, and_iff_right h78, bind_ok_iff]
  · refine walkOptions_ok_iff (P := fun _ => True) (fun _ o _ => ?_) (by omega) trivial
    rcases Nat.lt_or_ge frame.length (54 + o + 8) with hout | hin
    · obtain ⟨e, he⟩ := @fetchMac_error frame (54 + o + 2) (by omega)
      refine .inr ⟨?_, e, by rw [he]; rfl⟩
      rintro (h | h)
      · exact h
      · omega
    · exact .inl ⟨.inr hin, _, by rw [fetchMac_eq (by omega)]; rfl, trivial⟩
  · intro mac
    split
    · obtain ⟨r, hr⟩ := insert_total (source frame) mac
      exact ⟨(.ok, r.2), by rw [source] at hr; rw [hr]; rfl⟩
    · exact ⟨_, rfl⟩

theorem advertisement_ok_iff (hlen : 62 ≤ frame.length) :
    (∃ r, ndpProcessNeighborAdvertisement s frame = .ok r) ↔
      (Accepts frame 136 24 → 78 ≤ frame.length ∧
        (¬DadAnswers s frame → OptionsHeld frame 2 true 24 (s.Refuses (target frame)))) := by
  refine acceptMessage_bind_iff hlen ⟨_, rfl⟩ fun hacc => ?_
  dsimp only
  rcases Nat.lt_or_ge frame.length 78 with hshort | h78
  · refine iff_of_false ?_ fun h => absurd h.1 (by omega)
    rintro ⟨r, hr⟩
    obtain ⟨e, he⟩ := @fromRawIpv6_error frame 62 (by omega)
    rw [he] at hr
    cases hr
  rw [fromRawIpv6_eq (by omega), ok_bind, and_iff_right h78]
  by_cases hdad : DadAnswers s frame
  · rw [if_pos (by rw [Bool.and_eq_true]; exact hdad)]
    exact iff_of_true ⟨_, rfl⟩ fun h => absurd hdad h
  rw [if_neg (by rw [Bool.and_eq_true]; exact hdad), forall_prop_of_true hdad, bind_ok_iff]
  · refine walkOptions_ok_iff (P := fun _ => True) (fun _ o _ => ?_) (by omega) trivial
    rcases insert_cases s frame (target frame) o with
      ⟨hQ, r, hr, -⟩ | ⟨hQ, e, he⟩
    · exact .inl ⟨hQ, some r, by rw [target] at hr; rw [hr]; rfl, trivial⟩
    · exact .inr ⟨hQ, e, by rw [target] at he; rw [he]; rfl⟩
  · intro inserted
    cases inserted with
    | some r => exact ⟨r, rfl⟩
    | none => exact insert_total _ _

theorem router_ok_iff (hlen : 62 ≤ frame.length) :
    (∃ r, ndpProcessRouterAdvertisement s frame = .ok r) ↔
      (Accepts frame 134 16 → OptionsHeld frame 1 false 16 (s.Refuses (source frame))) := by
  refine acceptMessage_bind_iff hlen ⟨_, rfl⟩ fun hacc => ?_
  dsimp only
  rw [fromRawIpv6_eq (by omega), ok_bind, bind_ok_iff]
  -- an entry for the source stays an entry for it
  · refine walkOptions_ok_iff (P := fun s' => s'.Refuses (source frame) ↔ s.Refuses (source frame))
      (fun s' o hs' => ?_) (by omega) .rfl
    rw [← hs']
    rcases insert_cases s' frame (source frame) o with
      ⟨hQ, r, hr, hkeeps⟩ | ⟨hQ, e, he⟩
    · exact .inl ⟨hQ, r.2, by rw [source] at hr; rw [hr]; rfl, hkeeps⟩
    · exact .inr ⟨hQ, e, by rw [source] at he; rw [he]; rfl⟩
  · exact fun s' => ⟨_, rfl⟩

/-- **The messages are processed in bounds** exactly if the target is in the frame, and the
options that the walk comes to. -/
theorem options_in_bounds_iff (s : Neighbors) {frame : List UInt8} (hlen : 62 ≤ frame.length) :
    InBounds s frame ↔ Held s frame := by
  constructor
  · rintro ⟨hs, ha, hr⟩
    exact ⟨(solicitation_ok_iff hlen).mp hs, (advertisement_ok_iff hlen).mp ha,
      (router_ok_iff hlen).mp hr⟩
  · rintro ⟨hs, ha, hr⟩
    exact ⟨(solicitation_ok_iff hlen).mpr hs, (advertisement_ok_iff hlen).mpr ha,
      (router_ok_iff hlen).mpr hr⟩

theorem le_of_mem_optionsFrom {icmpv6Len : ℕ} {kind : UInt8} {stop : Bool} {fuel offset o : ℕ}
    (h : o ∈ optionsFrom frame icmpv6Len kind stop fuel offset) : o + 8 ≤ icmpv6Len := by
  induction fuel generalizing offset with
  | zero => cases h
  | succ fuel ih =>
    rw [optionsFrom] at h
    split at h
    · rename_i hfits
      rcases mem_cons.mp h with rfl | hrest
      · exact hfits
      · split at hrest
        · cases hrest
        · exact ih hrest
    · cases h

/-- **A payload that is in the frame** is processed in bounds. -/
theorem held_of_payload (h : 54 + ip6PayloadLength frame ≤ frame.length) : Held s frame := by
  have hoptions : ∀ kind stop first refused, OptionsHeld frame kind stop first refused := by
    intro kind stop first refused o ho
    have hle := le_of_mem_optionsFrom ho
    exact ⟨by omega, fun _ => .inr (by omega)⟩
  refine ⟨fun hacc => ⟨?_, hoptions _ _ _ _⟩, fun hacc => ⟨?_, fun _ => hoptions _ _ _ _⟩,
    fun _ => hoptions _ _ _ _⟩
  · have hmin := hacc.minLen
    omega
  · have hmin := hacc.minLen
    omega

/-- The cache before anything is known, and no detection going on. -/
def quiet : Neighbors where
  cache := fun _ => ⟨.zero, fun _ => 0, false, .incomplete, 0, 0, 0, 0⟩
  lastTickNs := 0
  defaultGateway := .zero
  hasDefaultGateway := false
  dadState := ⟨.zero, 0, false, false⟩
  dadActive := false

/-- A solicitation that says how long its payload is, with what follows the target in it. -/
def solicitation (payloadLength : UInt8) (options : List UInt8) : List UInt8 :=
  replicate 12 0 ++ [0x86, 0xDD, 0x60, 0, 0, 0, 0, payloadLength, 58, 255] ++
    replicate 32 1 ++ [135, 0, 0, 0, 0, 0, 0, 0] ++ replicate 16 2 ++ options

/-- A solicitation with all of its payload is processed in bounds. -/
theorem solicitation_in_bounds :
    62 ≤ (solicitation 32 [1, 1, 2, 0, 0, 0, 0, 1]).length ∧
      InBounds quiet (solicitation 32 [1, 1, 2, 0, 0, 0, 0, 1]) :=
  ⟨by decide, (options_in_bounds_iff quiet (by decide)).mpr (held_of_payload (by decide))⟩

/-- **A solicitation that ends before its options** is read beyond its end. -/
theorem cut_solicitation_out_of_bounds :
    (solicitation 32 []).length = 78 ∧
      ndpProcessNeighborSolicitation quiet (solicitation 32 []) =
        .error (.outOfBounds 78 78) :=
  ⟨by decide, rfl⟩

end Bounds

end Xaios.Net.Ndp
