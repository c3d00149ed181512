import Mathlib.Algebra.Ring.Nat
import Mathlib.Data.List.MinMax
import Xaios.Foundation.Table
import Xaios.Status

/-!
# The routing table

`net/routing.c`: 32 slots, a lookup that compares prefix lengths over all of them, and a
removal that takes the first slot whose network contains the address it is given.

The lookup finds a route with the longest prefix (`Net.Routing.isBest_bestRoute`). Its
answer 0 stands for "no route", and is also the answer for the address 0 itself when its
route is direct. The removal of a network takes away the route to it exactly when no slot
before it has a route that merely contains the network
(`Net.Routing.routing_right_iff`).
-/

namespace Xaios.Net.Routing

open Foundation Function List Bool

/-- `routing_entry_t`. -/
structure Route where
  destNetwork : UInt32
  netmask : UInt32
  gateway : UInt32
  active : Bool

/-- `g_routing_table`. -/
abbrev Table : Type := Fin 32 → Route

/-- `routing_clear`. -/
def routingClear : Table := fun _ => ⟨0, 0, 0, false⟩

/-- `routing_add`. -/
def routingAdd (t : Table) (destNetwork netmask gateway : UInt32) : Status × Table :=
  match (finRange 32).find? fun i => !(t i).active with
  | some i => (.ok, update t i ⟨destNetwork &&& netmask, netmask, gateway, true⟩)
  | none => (.noMemory, t)

/-- The route is in use and its network contains the address. -/
def Route.contains (r : Route) (ip : UInt32) : Bool := r.active && ip &&& r.netmask == r.destNetwork

/-- `routing_remove`. -/
def routingRemove (t : Table) (network : UInt32) : Status × Table :=
  match (finRange 32).find? fun i => (t i).contains network with
  | some i => (.ok, update t i { t i with active := false })
  | none => (.notFound, t)

/-- The loop that counts the bits of a mask. After 32 rounds the mask is 0. -/
def countBits : ℕ → UInt32 → ℕ → ℕ
  | 0, _, len => len
  | fuel + 1, mask, len =>
    if mask = 0 then len else countBits fuel (mask >>> 1) (len + (mask &&& 1).toNat)

/-- The `prefix_len` of a route. -/
def Route.prefixLen (r : Route) : ℕ := countBits 32 r.netmask 0

/-- One slot in the loop of `routing_lookup`. The best match is there once it is `found`. -/
def better (t : Table) (ip : UInt32) (best : Option (Fin 32)) (i : Fin 32) : Option (Fin 32) :=
  if (t i).contains ip then
    match best with
    | none => some i
    | some j => if (t j).prefixLen < (t i).prefixLen then some i else some j
  else best

/-- The slot that `routing_lookup` takes. -/
def bestRoute (t : Table) (ip : UInt32) : Option (Fin 32) :=
  (finRange 32).foldl (better t ip) none

/-- Where a packet for an address goes on a route. -/
def Route.nextHop (r : Route) (ip : UInt32) : UInt32 := if r.gateway = 0 then ip else r.gateway

/-- `routing_lookup`. -/
def routingLookup (t : Table) (ip : UInt32) : UInt32 :=
  match bestRoute t ip with
  | none => 0
  | some i => (t i).nextHop ip

/-! ### Tables that are built by calls -/

/-- The contiguous netmask of a prefix length. -/
def maskOf (k : Fin 33) : UInt32 := UInt32.ofNat (2 ^ 32 - 2 ^ (32 - k.val))

/-- A call that changes the table. -/
inductive Call where
  | add (destNetwork : UInt32) (k : Fin 33) (gateway : UInt32)
  | remove (network : UInt32)

/-- What a call does to the table. -/
def Call.exec (t : Table) : Call → Table
  | add destNetwork k gateway => (routingAdd t destNetwork (maskOf k) gateway).2
  | remove network => (routingRemove t network).2

/-- The table after some calls. -/
def built (cs : List Call) : Table := cs.foldl Call.exec routingClear

/-- A route in use has a contiguous netmask and a network without bits outside of it. -/
def Route.Canonical (r : Route) : Prop :=
  r.active = true → (∃ k, r.netmask = maskOf k) ∧ r.destNetwork &&& r.netmask = r.destNetwork

variable {t : Table}

theorem canonical_exec (h : ∀ i, (t i).Canonical) (c : Call) (i : Fin 32) :
    (c.exec t i).Canonical := by
  have hupdate : ∀ (j : Fin 32) (r : Route), r.Canonical → (update t j r i).Canonical := by
    intro j r hr
    rcases eq_or_ne i j with rfl | hne
    · rwa [update_self]
    · rw [update_of_ne hne]
      exact h i
  cases c with
  | add destNetwork k gateway =>
    rw [Call.exec, routingAdd]
    split
    · refine hupdate _ _ fun _ => ⟨⟨k, rfl⟩, ?_⟩
      rw [UInt32.and_assoc, UInt32.and_self]
    · exact h i
  | remove network =>
    rw [Call.exec, routingRemove]
    split
    · exact hupdate _ _ fun hactive => nomatch hactive
    · exact h i

/-- **Every table that is built by calls is canonical.** -/
theorem canonical_built (cs : List Call) (i : Fin 32) : (built cs i).Canonical := by
  have hrun : ∀ t : Table, (∀ i, (t i).Canonical) → ∀ i, (cs.foldl Call.exec t i).Canonical := by
    induction cs with
    | nil => exact fun t h => h
    | cons c cs ih => exact fun t h => ih _ (canonical_exec h c)
  exact hrun routingClear (fun _ h => nomatch h) i

/-! ### The lookup -/

/-- A slot with a route that contains the address and has the longest prefix, `k`, of all
that do. -/
def IsBest (t : Table) (ip : UInt32) (i : Fin 32) (k : Fin 33) : Prop :=
  (t i).contains ip = true ∧ (t i).netmask = maskOf k ∧
    ∀ j l, (t j).contains ip = true → (t j).netmask = maskOf l → l ≤ k

/-- The bits of a contiguous netmask are its prefix. -/
theorem countBits_maskOf : ∀ k : Fin 33, countBits 32 (maskOf k) 0 = k := by
  decide +kernel

/-- The loop is the maximum of the prefix lengths of the routes that contain the address. -/
theorem bestRoute_eq_argmax (t : Table) (ip : UInt32) :
    bestRoute t ip =
      ((finRange 32).filter fun i => (t i).contains ip).argmax fun i => (t i).prefixLen := by
  rw [argmax, foldl_filter, bestRoute]
  congr 1
  funext best i
  cases best with
  | none | some => rfl

theorem bestRoute_eq_none_iff {ip : UInt32} :
    bestRoute t ip = none ↔ ∀ i, (t i).contains ip = false := by
  rw [bestRoute_eq_argmax, argmax_eq_none, filter_eq_nil_iff]
  simp

section

variable (h : ∀ i, (t i).Canonical)

include h

/-- **The lookup takes a route with the longest prefix.** -/
theorem isBest_bestRoute {ip : UInt32} {i : Fin 32} (hi : bestRoute t ip = some i) :
    ∃ k, IsBest t ip i k := by
  rw [bestRoute_eq_argmax] at hi
  have hcontains : (t i).contains ip = true := (mem_filter.mp (argmax_mem hi)).2
  obtain ⟨⟨k, hk⟩, -⟩ := h i (and_eq_true_iff.mp hcontains).1
  refine ⟨k, hcontains, hk, fun j l hj hl => ?_⟩
  have hle : (t j).prefixLen ≤ (t i).prefixLen :=
    le_of_mem_argmax (f := fun i => (t i).prefixLen)
      (mem_filter.mpr ⟨mem_finRange j, hj⟩) hi
  rwa [Route.prefixLen, Route.prefixLen, hl, hk, countBits_maskOf, countBits_maskOf] at hle

/-- The answer is the next hop of a route with the longest prefix, and 0 exactly if there is
none. -/
def LookupRight (t : Table) (ip : UInt32) : Prop :=
  ((∃ i, (t i).contains ip = true) →
    ∃ i k, IsBest t ip i k ∧ routingLookup t ip = (t i).nextHop ip) ∧
    (routingLookup t ip = 0 ↔ ∀ i, (t i).contains ip = false)

theorem lookupRight_iff (ip : UInt32) :
    LookupRight t ip ↔ (ip = 0 → ∀ i, bestRoute t ip = some i → (t i).gateway ≠ 0) := by
  rw [LookupRight, routingLookup, ← bestRoute_eq_none_iff]
  cases hbest : bestRoute t ip with
  | none =>
    refine iff_of_true ⟨fun ⟨i, hi⟩ => ?_, iff_of_true rfl rfl⟩ (fun _ i hi => nomatch hi)
    rw [bestRoute_eq_none_iff.mp hbest i] at hi
    cases hi
  | some i =>
    obtain ⟨k, hk⟩ := isBest_bestRoute h hbest
    have hfirst : (∃ i, (t i).contains ip = true) →
        ∃ j l, IsBest t ip j l ∧ (t i).nextHop ip = (t j).nextHop ip := fun _ => ⟨i, k, hk, rfl⟩
    dsimp only
    rw [and_iff_right hfirst, iff_false_right (Option.some_ne_none i), Route.nextHop]
    by_cases hgateway : (t i).gateway = 0
    · rw [if_pos hgateway]
      exact ⟨fun hip h0 => absurd h0 hip, fun hip h0 => hip h0 i rfl hgateway⟩
    · rw [if_neg hgateway]
      refine iff_of_true hgateway fun _ j hj => ?_
      rwa [← Option.some.inj hj]

/-! ### The removal -/

/-- A slot with a route to the network. -/
def Exact (t : Table) (network : UInt32) (i : Fin 32) : Prop :=
  (t i).active = true ∧ (t i).destNetwork = network

instance (t : Table) (network : UInt32) (i : Fin 32) : Decidable (Exact t network i) :=
  inferInstanceAs (Decidable (_ ∧ _))

/-- The removal succeeds if there is a route to the network, and what it removes is one. -/
def RemoveRight (t : Table) (network : UInt32) : Prop :=
  ((∃ i, Exact t network i) → (routingRemove t network).1 = .ok) ∧
    ∀ i, (t i).active = true → ((routingRemove t network).2 i).active = false → Exact t network i

theorem contains_of_exact {network : UInt32} {i : Fin 32} (hi : Exact t network i) :
    (t i).contains network = true := by
  rw [Route.contains, hi.1, Bool.true_and, beq_iff_eq, ← hi.2]
  exact (h i hi.1).2

theorem removeRight_iff (network : UInt32) :
    RemoveRight t network ↔
      ∀ j, (t j).contains network = true → ¬Exact t network j → ∃ i < j, Exact t network i := by
  rw [RemoveRight, routingRemove]
  cases hfind : (finRange 32).find? fun i => (t i).contains network with
  | none =>
    have hnone := find?_finRange_eq_none_iff.mp hfind
    refine iff_of_true ⟨fun ⟨i, hi⟩ => ?_, fun i hactive hremoved => ?_⟩ fun j hj => ?_
    · exact absurd (contains_of_exact h hi) (eq_false_iff.mp (hnone i))
    · exact absurd hactive (eq_false_iff.mp hremoved)
    · exact absurd hj (eq_false_iff.mp (hnone j))
  | some i =>
    obtain ⟨hi, hfirst⟩ := find?_finRange_eq_some_iff.mp hfind
    dsimp only
    rw [and_iff_right fun _ => rfl]
    constructor
    · intro hexact j hj hmerely
      have hiexact : Exact t network i :=
        hexact i (and_eq_true_iff.mp hi).1 (by rw [update_self])
      refine ⟨i, lt_of_le_of_ne (le_of_not_gt fun hlt => ?_) fun hij => ?_, hiexact⟩
      · exact absurd hj (eq_false_iff.mp (hfirst j hlt))
      · exact hmerely (hij ▸ hiexact)
    · intro hbefore k hactive hremoved
      -- only the slot that was found is changed
      have hk : k = i := by
        by_contra hne
        rw [update_of_ne hne] at hremoved
        exact absurd hactive (eq_false_iff.mp hremoved)
      subst hk
      by_contra hmerely
      obtain ⟨j, hlt, hj⟩ := hbefore k hi hmerely
      exact absurd (contains_of_exact h hj) (eq_false_iff.mp (hfirst j hlt))

end

/-- **Lookup and removal on every table that calls have built.** -/
theorem routing_right_iff (cs : List Call) (ip network : UInt32) :
    (LookupRight (built cs) ip ↔
        (ip = 0 → ∀ i, bestRoute (built cs) ip = some i → (built cs i).gateway ≠ 0)) ∧
      (RemoveRight (built cs) network ↔
        ∀ j, (built cs j).contains network = true → ¬Exact (built cs) network j →
          ∃ i < j, Exact (built cs) network i) :=
  ⟨lookupRight_iff (canonical_built cs) ip, removeRight_iff (canonical_built cs) network⟩

/-- **The default route is removed** in place of the local network 10.0.2.0/24, when it was
added before it. And with a direct default route the address 0 has no answer. -/
theorem default_route_removed :
    let t := built [.add 0 0 0x0a000202, .add 0x0a000200 24 0]
    Exact t 0x0a000200 1 ∧ (routingRemove t 0x0a000200).1 = .ok ∧
      ((routingRemove t 0x0a000200).2 0).active = false ∧
      ((routingRemove t 0x0a000200).2 1).active = true ∧
      routingLookup (built [.add 0 0 0]) 0 = 0 ∧ (built [.add 0 0 0] 0).contains 0 = true := by
  decide +kernel

end Xaios.Net.Routing
