import Mathlib.Data.Nat.Digits.Defs
import Mathlib.Data.List.Nodup
import Mathlib.Data.Nat.ModEq

/-!
# Counter mode

A block cipher in counter mode xors a text with the encryptions of a counter, of the
counter plus one, and so on. A counter is a string of bytes, read as a number whose most
significant byte is the first; adding one wraps around.

The two facts that matter: the text is known from its encryption and the counter it
started from (`Foundation.xorBytes_xorBytes`), and two runs of counters that start from
different strings with the same end do not meet, as long as neither is longer than
what fits into that end (`Foundation.counters_disjoint`).
-/

namespace Foundation

open List

/-! ### Counters -/

/-- The number that is written with the bytes. -/
def counterValue (c : List UInt8) : ℕ := Nat.ofDigits 256 (c.reverse.map UInt8.toNat)

/-- One is added to a number, the least significant byte first. -/
def carry : List UInt8 → List UInt8
  | [] => []
  | b :: bs => if b + 1 ≠ 0 then (b + 1) :: bs else 0 :: carry bs

/-- One is added to a counter. -/
def increment (c : List UInt8) : List UInt8 := (carry c.reverse).reverse

variable (bs c text : List UInt8)

theorem length_carry : (carry bs).length = bs.length := by
  induction bs with
  | nil => rfl
  | cons b bs ih =>
    rw [carry]
    split
    · rfl
    · rw [length_cons, length_cons, ih]

@[simp] theorem length_increment : (increment c).length = c.length := by
  rw [increment, length_reverse, length_carry, length_reverse]

theorem ofDigits_lt : Nat.ofDigits 256 (bs.map UInt8.toNat) < 256 ^ bs.length := by
  have h : ∀ x ∈ bs.map UInt8.toNat, x < 256 := by
    rintro x hx
    obtain ⟨b, -, rfl⟩ := mem_map.mp hx
    exact b.toNat_lt
  simpa using Nat.ofDigits_lt_base_pow_length (by decide) h

theorem ofDigits_carry :
    Nat.ofDigits 256 ((carry bs).map UInt8.toNat) =
      (Nat.ofDigits 256 (bs.map UInt8.toNat) + 1) % 256 ^ bs.length := by
  induction bs with
  | nil => rfl
  | cons b bs ih =>
    have hb := b.toNat_lt
    have hlt := ofDigits_lt bs
    have hsucc : (b + 1).toNat = (b.toNat + 1) % 256 := by
      rw [UInt8.toNat_add]
      rfl
    rw [carry, map_cons, Nat.ofDigits_cons, length_cons, Nat.pow_succ']
    split
    · rename_i hne
      have hbyte : (b + 1).toNat = b.toNat + 1 := by
        have hpos : (b + 1).toNat ≠ 0 := fun h => hne (UInt8.toNat_inj.mp h)
        omega
      rw [map_cons, Nat.ofDigits_cons, hbyte, Nat.mod_eq_of_lt (by omega)]
      omega
    · rename_i heq
      have hbyte : b.toNat + 1 = 256 := by
        have hzero : (b + 1).toNat = 0 := by rw [not_not.mp heq]; rfl
        omega
      have hcarry : b.toNat + 256 * Nat.ofDigits 256 (bs.map UInt8.toNat) + 1 =
          256 * (Nat.ofDigits 256 (bs.map UInt8.toNat) + 1) := by omega
      rw [map_cons, Nat.ofDigits_cons, ih, hcarry, Nat.mul_mod_mul_left]
      exact Nat.zero_add _

theorem counterValue_lt : counterValue c < 256 ^ c.length := by
  have h := ofDigits_lt c.reverse
  rwa [length_reverse] at h

theorem counterValue_increment :
    counterValue (increment c) = (counterValue c + 1) % 256 ^ c.length := by
  rw [counterValue, increment, reverse_reverse, ofDigits_carry, length_reverse]
  rfl

theorem counterValue_inj {c c' : List UInt8} (hlen : c.length = c'.length)
    (h : counterValue c = counterValue c') : c = c' := by
  have hdigit : ∀ d : List UInt8, ∀ x ∈ d.reverse.map UInt8.toNat, x < 256 := by
    rintro d x hx
    obtain ⟨b, -, rfl⟩ := mem_map.mp hx
    exact b.toNat_lt
  have hmap := Nat.ofDigits_inj_of_len_eq (by decide) (by simpa using hlen) (hdigit c) (hdigit c') h
  have hinj : Function.Injective UInt8.toNat := fun a b => UInt8.toNat_inj.mp
  exact reverse_injective (map_injective_iff.mpr hinj hmap)

/-- Counters with the same last bytes have the same value modulo what these can hold. -/
theorem counterValue_append_mod (hi lo : List UInt8) :
    counterValue (hi ++ lo) % 256 ^ lo.length = counterValue lo := by
  have h : counterValue (hi ++ lo) = counterValue lo + 256 ^ lo.length * counterValue hi := by
    rw [counterValue, reverse_append, map_append, Nat.ofDigits_append, length_map,
      length_reverse]
    rfl
  rw [h, Nat.add_mul_mod_self_left, Nat.mod_eq_of_lt (counterValue_lt lo)]

/-! ### Runs of counters -/

/-- The first counters of a run. -/
def counters (c : List UInt8) : ℕ → List (List UInt8)
  | 0 => []
  | n + 1 => c :: counters (increment c) n

theorem mem_counters {c b : List UInt8} {n : ℕ} (h : b ∈ counters c n) :
    b.length = c.length ∧ ∃ j < n, counterValue b = (counterValue c + j) % 256 ^ c.length := by
  induction n generalizing c with
  | zero => cases h
  | succ n ih =>
    rcases mem_cons.mp h with rfl | h
    · exact ⟨rfl, 0, Nat.succ_pos n, (Nat.mod_eq_of_lt (counterValue_lt b)).symm⟩
    · obtain ⟨hlen, j, hj, hvalue⟩ := ih h
      rw [length_increment] at hlen hvalue
      refine ⟨hlen, j + 1, Nat.succ_lt_succ hj, ?_⟩
      rw [hvalue, counterValue_increment, Nat.mod_add_mod, Nat.add_assoc, Nat.add_comm 1]

/-- Numbers that agree modulo `m` and meet within `m` steps are the same. -/
theorem meet_within {M m v v' j j' : ℕ} (hm : m ∣ M) (hv : v < M) (hv' : v' < M)
    (hmod : v % m = v' % m) (hj : j < m) (hj' : j' < m) (h : (v + j) % M = (v' + j') % M) :
    v = v' ∧ j = j' := by
  have hsum : (v + j) % m = (v' + j') % m := by
    rw [← Nat.mod_mod_of_dvd (v + j) hm, ← Nat.mod_mod_of_dvd (v' + j') hm, h]
  have hsteps : j = j' := by
    have h' : v + j ≡ v' + j' [MOD m] := hsum
    have h'' : j ≡ j' [MOD m] := Nat.ModEq.add_left_cancel hmod h'
    rwa [Nat.ModEq, Nat.mod_eq_of_lt hj, Nat.mod_eq_of_lt hj'] at h''
  subst hsteps
  have hstart : v ≡ v' [MOD M] := Nat.ModEq.add_right_cancel' j h
  rw [Nat.ModEq, Nat.mod_eq_of_lt hv, Nat.mod_eq_of_lt hv'] at hstart
  exact ⟨hstart, rfl⟩

/-- **Runs do not meet** that start from different counters with the same last bytes and
are not longer than what these bytes can hold. -/
theorem counters_disjoint {hi hi' lo : List UInt8} {n n' : ℕ} (hlen : hi.length = hi'.length)
    (hne : hi ≠ hi') (hn : n ≤ 256 ^ lo.length) (hn' : n' ≤ 256 ^ lo.length) :
    List.Disjoint (counters (hi ++ lo) n) (counters (hi' ++ lo) n') := by
  intro b hb hb'
  obtain ⟨-, j, hj, hvalue⟩ := mem_counters hb
  obtain ⟨-, j', hj', hvalue'⟩ := mem_counters hb'
  have hlen' : (hi ++ lo).length = (hi' ++ lo).length := by
    rw [length_append, length_append, hlen]
  have hdvd : 256 ^ lo.length ∣ 256 ^ (hi ++ lo).length :=
    Nat.pow_dvd_pow _ (by rw [length_append]; exact Nat.le_add_left _ _)
  have hlt' := counterValue_lt (hi' ++ lo)
  rw [← hlen'] at hlt' hvalue'
  have hmeet := meet_within hdvd (counterValue_lt (hi ++ lo)) hlt'
    (by rw [counterValue_append_mod, counterValue_append_mod]) (by omega) (by omega)
    (hvalue.symm.trans hvalue')
  exact hne (append_cancel_right (counterValue_inj hlen' hmeet.1))

/-- A run that is not longer than there are counters has no counter twice. -/
theorem counters_nodup {c : List UInt8} {n : ℕ} (hn : n ≤ 256 ^ c.length) :
    (counters c n).Nodup := by
  induction n generalizing c with
  | zero => exact nodup_nil
  | succ n ih =>
    have hrest : (counters (increment c) n).Nodup := ih (by rw [length_increment]; omega)
    refine nodup_cons.mpr ⟨fun hmem => ?_, hrest⟩
    obtain ⟨-, j, hj, hvalue⟩ := mem_counters hmem
    rw [length_increment, counterValue_increment, Nat.mod_add_mod] at hvalue
    have hlt := counterValue_lt c
    have hzero : (counterValue c + 0) % 256 ^ c.length = counterValue c := Nat.mod_eq_of_lt hlt
    have hmeet := meet_within (dvd_refl _) hlt hlt rfl (by omega : 0 < 256 ^ c.length)
      (by omega : 1 + j < 256 ^ c.length) (hzero.trans (hvalue.trans (by rw [Nat.add_assoc])))
    omega

/-! ### Texts -/

/-- A text xored with a longer one. -/
def xorBytes (text key : List UInt8) : List UInt8 := zipWith (· ^^^ ·) text key

theorem length_xorBytes {text key : List UInt8} (h : text.length ≤ key.length) :
    (xorBytes text key).length = text.length := by
  rw [xorBytes, length_zipWith, Nat.min_eq_left h]

/-- **Xoring twice** gives the text back. -/
theorem xorBytes_xorBytes {text key : List UInt8} (h : text.length ≤ key.length) :
    xorBytes (xorBytes text key) key = text := by
  induction text generalizing key with
  | nil => rfl
  | cons b text ih =>
    cases key with
    | nil => exact absurd h (Nat.not_succ_le_zero _)
    | cons k key =>
      have hb : b ^^^ k ^^^ k = b := by rw [UInt8.xor_assoc, UInt8.xor_self, UInt8.xor_zero]
      change (b ^^^ k ^^^ k) :: xorBytes (xorBytes text key) key = b :: text
      rw [hb, ih (Nat.le_of_succ_le_succ h)]

theorem xorBytes_comm (key : List UInt8) : xorBytes text key = xorBytes key text :=
  zipWith_comm_of_comm UInt8.xor_comm

/-- The key is known from the text and the xor of both. -/
theorem xorBytes_left_cancel {text key key' : List UInt8} (h : key.length ≤ text.length)
    (h' : key'.length ≤ text.length) (heq : xorBytes text key = xorBytes text key') :
    key = key' := by
  rw [xorBytes_comm text key, xorBytes_comm text key'] at heq
  rw [← xorBytes_xorBytes h, heq, xorBytes_xorBytes h']

theorem xorBytes_zeros : xorBytes text (replicate text.length 0) = text := by
  induction text with
  | nil => rfl
  | cons b text ih =>
    change (b ^^^ 0) :: xorBytes text (replicate text.length 0) = _
    rw [ih, UInt8.xor_zero]

/-! ### The mode -/

section Mode

variable (encrypt : List UInt8 → List UInt8) (size : ℕ)

/-- The encryptions of a run of counters. -/
def keystream (c : List UInt8) (n : ℕ) : List UInt8 := (counters c n).flatMap encrypt

/-- How many blocks a text of a length needs. -/
def blocksFor (len : ℕ) : ℕ := (len + size - 1) / size

/-- The loop over the blocks of a text. -/
def ctrLoop : ℕ → List UInt8 → List UInt8 → List UInt8
  | 0, _, _ => []
  | fuel + 1, c, text =>
    if text = [] then []
    else xorBytes (text.take size) (encrypt c) ++ ctrLoop fuel (increment c) (text.drop size)

variable {encrypt size}

theorem length_keystream (hsize : ∀ c, (encrypt c).length = size) (c : List UInt8) (n : ℕ) :
    (keystream encrypt c n).length = size * n := by
  induction n generalizing c with
  | zero => rfl
  | succ n ih =>
    change (encrypt c ++ keystream encrypt (increment c) n).length = _
    rw [length_append, hsize, ih, Nat.mul_succ, Nat.add_comm]

theorem le_blocksFor (hpos : 0 < size) (len : ℕ) : len ≤ size * blocksFor size len := by
  have hdiv := Nat.div_add_mod (len + size - 1) size
  have hmod := Nat.mod_lt (len + size - 1) hpos
  rw [blocksFor]
  omega

theorem blocksFor_pos (hpos : 0 < size) {len : ℕ} (h : 0 < len) : 0 < blocksFor size len :=
  Nat.div_pos (by omega) hpos

theorem blocksFor_le (hpos : 0 < size) (len : ℕ) : blocksFor size len ≤ len := by
  rcases Nat.eq_zero_or_pos len with rfl | hlen
  · rw [blocksFor, Nat.zero_add, Nat.div_eq_of_lt (by omega)]
  · rw [blocksFor, Nat.div_le_iff_le_mul hpos]
    have hmul : len + size ≤ len * size + 1 := by nlinarith
    omega

theorem blocksFor_sub (hpos : 0 < size) {len : ℕ} (h : 0 < len) :
    blocksFor size len = blocksFor size (len - size) + 1 := by
  rw [blocksFor, blocksFor]
  rcases Nat.le_total size len with hle | hle
  · have hsum : len + size - 1 = len - size + size - 1 + size := by omega
    rw [hsum, Nat.add_div_right _ hpos]
  · rw [Nat.sub_eq_zero_of_le hle, Nat.zero_add, Nat.div_eq_of_lt (by omega : size - 1 < size)]
    exact Nat.div_eq_of_lt_le (by omega) (by omega)

/-- **The loop is the xor with the keystream.** -/
theorem ctrLoop_eq (hpos : 0 < size) (hsize : ∀ c, (encrypt c).length = size) {fuel : ℕ}
    {c text : List UInt8} (hfuel : text.length ≤ fuel) :
    ctrLoop encrypt size fuel c text =
      xorBytes text (keystream encrypt c (blocksFor size text.length)) := by
  induction fuel generalizing c text with
  | zero =>
    rw [length_eq_zero_iff.mp (Nat.le_zero.mp hfuel)]
    rfl
  | succ fuel ih =>
    rw [ctrLoop]
    split
    · rename_i hnil
      rw [hnil]
      rfl
    · rename_i hne
      have hlen : 0 < text.length := length_pos_of_ne_nil hne
      have hdrop : (text.drop size).length ≤ fuel := by
        rw [length_drop]
        omega
      rw [ih hdrop, length_drop, blocksFor_sub hpos hlen]
      change _ = xorBytes text (encrypt c ++ keystream encrypt (increment c) _)
      rcases Nat.le_total size text.length with hle | hle
      · -- a whole block
        have htake : (text.take size).length = (encrypt c).length := by
          rw [length_take, hsize, Nat.min_eq_left hle]
        rw [xorBytes, xorBytes, ← zipWith_append htake, take_append_drop]
        rfl
      · -- the last block
        rw [drop_eq_nil_of_le hle, take_of_length_le hle, Nat.sub_eq_zero_of_le hle]
        have hnone : blocksFor size 0 = 0 := by
          rw [blocksFor, Nat.zero_add, Nat.div_eq_of_lt (by omega)]
        rw [hnone]
        change xorBytes text (encrypt c) ++ [] = xorBytes text (encrypt c ++ [])
        rw [append_nil, append_nil]

end Mode

end Foundation
