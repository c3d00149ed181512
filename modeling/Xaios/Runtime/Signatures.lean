import Mathlib.Algebra.Ring.Nat
import Xaios.Runtime.Security

/-!
# The signatures of updates

What `security_validate_update_signature` accepts. Its parser goes through a text with a cursor;
the texts it accepts are those of `Security.Signs`, whose generation is written in
decimal digits, with zeros in front or without, and has 64 bits. It has to exceed the one that
was accepted last, so the generations that are accepted in a run increase
(`Security.signatures_exact`).
-/

namespace Xaios.Security

open Foundation List

/-- A number with one more decimal digit. -/
def addDigit (n : ℕ) (c : UInt8) : ℕ := n * 10 + (c.toNat - 48)

/-- Decimal digits that lead from a number to a generation. -/
def Decimal (n : ℕ) (digits : List UInt8) (g : UInt64) : Prop :=
  (∀ c ∈ digits, isDigit c = true) ∧ digits.foldl addDigit n = g.toNat ∧ 0 < g

/-- 64 hexadecimal digits. -/
def IsHash (field : List UInt8) : Prop := field.length = 64 ∧ ∀ c ∈ field, isHexChar c = true

/-- **The text of a signature for a generation.** -/
def Signs (g : UInt64) (text : List UInt8) : Prop :=
  ∃ digits sha256 sig,
    text = ascii "xaios-update:v1:gen=" ++ digits ++ ascii ":sha256=" ++ sha256 ++
      ascii ":key=XAIOS-QEMU-DEV-PUBKEY:sig=" ++ sig ∧
    digits ≠ [] ∧ Decimal 0 digits g ∧ IsHash sha256 ∧ IsHash sig

/-- `security_validate_update_signature`: its answer, and `g_last_update_generation` after it. -/
def validateSignature (last : UInt64) (signature : CString) : Status × UInt64 :=
  match validateUpdateSignature last signature with
  | none => (.invalid, last)
  | some s => (.ok, s.generation)

/-- The generations that are accepted in a run. -/
def acceptedGenerations : UInt64 → List CString → List UInt64
  | _, [] => []
  | last, s :: signatures =>
    let r := validateSignature last s
    if r.1 = .ok then r.2 :: acceptedGenerations r.2 signatures
    else acceptedGenerations r.2 signatures

/-! ### Credentials -/

theorem contains_iff {text needle : List UInt8} (h : needle ≠ []) :
    contains text needle = true ↔ needle <:+: text := by
  simp only [contains, startsWith, isEmpty_eq_false_iff.mpr h, Bool.not_false, Bool.true_and,
    any_eq_true, mem_tails, isPrefixOf_iff_prefix, infix_iff_prefix_suffix]
  exact exists_congr fun _ => and_comm

theorem rejectCredentialMaterial_iff {text : List UInt8} :
    rejectCredentialMaterial text = .ok ↔ ∀ p ∈ credentialPatterns, ¬p <:+: text := by
  have hne : ∀ p ∈ credentialPatterns, p ≠ [] := by decide
  rw [rejectCredentialMaterial, ite_eq_right_iff, any_eq_true]
  constructor
  · intro h p hp hin
    cases h ⟨p, hp, (contains_iff (hne p hp)).mpr hin⟩
  · rintro h ⟨p, hp, hin⟩
    exact absurd ((contains_iff (hne p hp)).mp hin) (h p hp)

/-! ### The cursor -/

section Cursor

variable {cursor rest : List UInt8}

theorem skip_iff {text : List UInt8} : skip text cursor = some rest ↔ cursor = text ++ rest := by
  rw [skip, startsWith, Option.ite_none_right_eq_some, isPrefixOf_iff_prefix]
  constructor
  · rintro ⟨⟨t, rfl⟩, h⟩
    rw [drop_left] at h
    rw [Option.some.inj h]
  · rintro rfl
    exact ⟨prefix_append text rest, by rw [drop_left]⟩

theorem hexField_iff {field : List UInt8} :
    hexField cursor = some (field, rest) ↔ IsHash field ∧ cursor = field ++ rest := by
  rw [hexField, Option.ite_none_right_eq_some, all_eq_true]
  constructor
  · rintro ⟨hash, h⟩
    obtain ⟨rfl, rfl⟩ := Prod.mk.inj (Option.some.inj h)
    exact ⟨hash, (take_append_drop 64 cursor).symm⟩
  · rintro ⟨hash, rfl⟩
    rw [take_left' hash.1, drop_left' hash.1]
    exact ⟨hash, rfl⟩

theorem le_foldl_addDigit (digits : List UInt8) (n : ℕ) : n ≤ digits.foldl addDigit n := by
  induction digits generalizing n with
  | nil => exact le_rfl
  | cons c digits ih => exact le_trans (by rw [addDigit]; omega) (ih _)

variable {c : UInt8}

theorem toNat_digit (hc : isDigit c = true) :
    (c - 48).toUInt64.toNat = c.toNat - 48 ∧ c.toNat - 48 < 10 := by
  simp only [isDigit, Bool.and_eq_true, decide_eq_true_eq, UInt8.le_iff_toNat_le] at hc
  rw [UInt8.toNat_toUInt64, UInt8.toNat_sub_of_le _ _ (UInt8.le_iff_toNat_le.mpr hc.1)]
  exact ⟨rfl, by have h := hc.2; change _ ≤ 57 at h; omega⟩

/-- The guard of the loop is the one against the overflow of the sum. -/
theorem addDigit_overflows_iff (hc : isDigit c = true) (parsed : UInt64) :
    (0xffffffffffffffff - (c - 48).toUInt64) / 10 < parsed ↔ 2 ^ 64 ≤ addDigit parsed.toNat c := by
  obtain ⟨hdigit, hten⟩ := toNat_digit hc
  have hle : (c - 48).toUInt64 ≤ 0xffffffffffffffff := by
    rw [UInt64.le_iff_toNat_le, hdigit]
    exact le_trans hten.le (by decide)
  rw [UInt64.lt_iff_toNat_lt, UInt64.toNat_div, UInt64.toNat_sub_of_le _ _ hle, hdigit, addDigit]
  change (18446744073709551615 - (c.toNat - 48)) / 10 < _ ↔ _
  omega

theorem toNat_addDigit (hc : isDigit c = true) {parsed : UInt64}
    (h : addDigit parsed.toNat c < 2 ^ 64) :
    (parsed * 10 + (c - 48).toUInt64).toNat = addDigit parsed.toNat c := by
  rw [UInt64.toNat_add, UInt64.toNat_mul, Nat.mod_add_mod, (toNat_digit hc).1]
  exact Nat.mod_eq_of_lt h

variable {g : UInt64}

theorem exists_decimal_cons {n : ℕ} :
    (∃ digits, c :: cursor = digits ++ 58 :: rest ∧ Decimal n digits g) ↔
      c = 58 ∧ cursor = rest ∧ n = g.toNat ∧ 0 < g ∨
      isDigit c = true ∧ ∃ digits, cursor = digits ++ 58 :: rest ∧
        Decimal (addDigit n c) digits g := by
  constructor
  · rintro ⟨_ | ⟨d, digits⟩, h, hdigits, hvalue⟩
    · obtain ⟨rfl, rfl⟩ := cons.inj h
      exact .inl ⟨rfl, rfl, hvalue⟩
    · obtain ⟨rfl, rfl⟩ := cons.inj h
      rw [forall_mem_cons] at hdigits
      exact .inr ⟨hdigits.1, digits, rfl, hdigits.2, hvalue⟩
  · rintro (⟨rfl, rfl, hvalue⟩ | ⟨hc, digits, rfl, hdigits, hvalue⟩)
    · exact ⟨[], rfl, forall_mem_nil _, hvalue⟩
    · exact ⟨c :: digits, rfl, forall_mem_cons.mpr ⟨hc, hdigits⟩, hvalue⟩

/-- **The loop reads a number** of 64 bits that is not zero, up to the colon. -/
theorem generationLoop_iff {parsed : UInt64} :
    generationLoop cursor parsed = some (g, rest) ↔
      ∃ digits, cursor = digits ++ 58 :: rest ∧ Decimal parsed.toNat digits g := by
  induction cursor generalizing parsed with
  | nil =>
    refine iff_of_false (by rintro ⟨⟩) ?_
    rintro ⟨digits, h, -⟩
    cases digits <;> cases h
  | cons c cursor ih =>
    rw [exists_decimal_cons, generationLoop]
    split_ifs with hcolon hzero hguard
    · refine iff_of_false (by rintro ⟨⟩) ?_
      rintro (⟨-, -, hvalue, hpos⟩ | ⟨hc, -⟩)
      · rw [hzero, UInt64.toNat_inj] at hvalue
        subst hvalue
        exact absurd hpos (UInt64.lt_irrefl 0)
      · rw [hcolon] at hc
        cases hc
    · rw [Option.some.injEq, Prod.mk.injEq, UInt64.toNat_inj]
      constructor
      · rintro ⟨rfl, rfl⟩
        exact .inl ⟨hcolon, rfl, rfl, UInt64.pos_iff_ne_zero.mpr hzero⟩
      · rintro (⟨-, rfl, rfl, -⟩ | ⟨hc, -⟩)
        · exact ⟨rfl, rfl⟩
        · rw [hcolon] at hc
          cases hc
    · refine iff_of_false (by rintro ⟨⟩) ?_
      rintro (⟨hc, -⟩ | ⟨hc, digits, -, -, hvalue, -⟩)
      · exact hcolon hc
      · rw [hc, Bool.not_true, Bool.false_or, decide_eq_true_eq,
          addDigit_overflows_iff hc] at hguard
        have hle := le_foldl_addDigit digits (addDigit parsed.toNat c)
        have hlt := g.toNat_lt
        omega
    · rw [Bool.or_eq_true, not_or, Bool.not_eq_true', Bool.not_eq_false,
        decide_eq_true_eq] at hguard
      obtain ⟨hc, hroom⟩ := hguard
      rw [addDigit_overflows_iff hc, not_le] at hroom
      rw [ih, toNat_addDigit hc hroom, or_iff_right fun h => hcolon h.1, and_iff_right hc]

theorem parseGeneration_iff :
    parseGeneration cursor = some (g, rest) ↔
      ∃ digits, cursor = ascii "gen=" ++ digits ++ 58 :: rest ∧ digits ≠ [] ∧
        Decimal 0 digits g := by
  simp only [parseGeneration, Option.bind_eq_bind, Option.bind_eq_some_iff, skip_iff,
    Option.ite_none_right_eq_some, generationLoop_iff]
  constructor
  · rintro ⟨_, rfl, hhead, digits, rfl, hdecimal⟩
    refine ⟨digits, by rw [append_assoc], ?_, hdecimal⟩
    rintro rfl
    cases hhead
  · rintro ⟨_ | ⟨d, digits⟩, rfl, hne, hdecimal⟩
    · exact absurd rfl hne
    · exact ⟨d :: digits ++ 58 :: rest, by rw [append_assoc], (forall_mem_cons.mp hdecimal.1).1, _,
        rfl, hdecimal⟩

theorem parseFields_iff {s : UpdateSignature} :
    parseFields g cursor = some s ↔ s.generation = g ∧ IsHash s.sha256 ∧ IsHash s.sig ∧
      cursor = ascii "sha256=" ++ s.sha256 ++ ascii ":key=XAIOS-QEMU-DEV-PUBKEY:sig=" ++ s.sig := by
  simp only [parseFields, Option.bind_eq_bind, Option.bind_eq_some_iff, skip_iff, hexField_iff,
    Prod.exists, Option.ite_none_right_eq_some]
  constructor
  · rintro ⟨_, rfl, sha256, _, ⟨hsha, rfl⟩, _, rfl, _, rfl, _, rfl, _, rfl, sig, _, ⟨hsig, rfl⟩,
      rfl, h⟩
    obtain rfl := Option.some.inj h
    exact ⟨rfl, hsha, hsig, by simp only [append_assoc, append_nil]; rfl⟩
  · rintro ⟨rfl, hsha, hsig, rfl⟩
    exact ⟨_, append_assoc _ _ _, _, _, ⟨hsha, rfl⟩, _, rfl, _, rfl, _, rfl, _, rfl, _, _,
      ⟨hsig, (append_nil _).symm⟩, rfl, rfl⟩

end Cursor

/-! ### Signatures -/

/-- **What is accepted** is a signature without credentials, for a generation that exceeds the
one accepted last. -/
theorem validateSignature_iff {last g : UInt64} {s : CString} :
    validateSignature last s = (.ok, g) ↔
      (∀ p ∈ credentialPatterns, ¬p <:+: s.bytes) ∧ Signs g s.bytes ∧ last < g := by
  have hvalid : validateSignature last s = (.ok, g) ↔
      ∃ u, validateUpdateSignature last s = some u ∧ u.generation = g := by
    rw [validateSignature]
    cases validateUpdateSignature last s with
    | none => simp
    | some u => simp
  rw [hvalid, ← rejectCredentialMaterial_iff, validateUpdateSignature]
  constructor
  · rintro ⟨u, h, rfl⟩
    split at h
    · cases h
    · next hclean =>
      simp only [Option.bind_eq_bind, Option.bind_eq_some_iff, skip_iff, Prod.exists] at h
      obtain ⟨_, hbytes, g, _, hgeneration, h⟩ := h
      split at h
      · cases h
      · next hlast =>
        obtain ⟨digits, rfl, hne, hdecimal⟩ := parseGeneration_iff.mp hgeneration
        obtain ⟨rfl, hsha, hsig, rfl⟩ := parseFields_iff.mp h
        refine ⟨not_not.mp hclean, ⟨digits, u.sha256, u.sig, ?_, hne, hdecimal, hsha, hsig⟩,
          UInt64.not_le.mp hlast⟩
        rw [hbytes]
        simp only [append_assoc]
        rfl
  · rintro ⟨hclean, ⟨digits, sha256, sig, hbytes, hne, hdecimal, hsha, hsig⟩, hlast⟩
    refine ⟨⟨g, sha256, sig⟩, ?_, rfl⟩
    rw [if_neg (not_not.mpr hclean), hbytes]
    simp only [Option.bind_eq_bind, Option.bind_eq_some_iff, skip_iff, Prod.exists]
    refine ⟨_, ?_, g, _, parseGeneration_iff.mpr ⟨digits, rfl, hne, hdecimal⟩,
      (if_neg (UInt64.not_le.mpr hlast)).trans (parseFields_iff.mpr ⟨rfl, hsha, hsig, rfl⟩)⟩
    simp only [append_assoc]
    rfl

/-- **The signatures of updates**: a call answers OK exactly for the text of a signature without
credentials whose generation exceeds the one accepted last, which it replaces; a call that is
rejected leaves that one unchanged; and the generations that are accepted in a run increase. -/
theorem signatures_exact (last : UInt64) :
    (∀ s g, validateSignature last s = (.ok, g) ↔
      (∀ p ∈ credentialPatterns, ¬p <:+: s.bytes) ∧ Signs g s.bytes ∧ last < g) ∧
      (∀ s, (validateSignature last s).1 ≠ .ok → (validateSignature last s).2 = last) ∧
      ∀ signatures, (last :: acceptedGenerations last signatures).IsChain (· < ·) := by
  have hkept : ∀ last s,
      (validateSignature last s).1 ≠ .ok → (validateSignature last s).2 = last := by
    intro last s h
    rw [validateSignature] at h ⊢
    split at h
    · rfl
    · exact absurd rfl h
  refine ⟨fun s g => validateSignature_iff, hkept last, fun signatures => ?_⟩
  induction signatures generalizing last with
  | nil => exact .singleton _
  | cons s signatures ih =>
    dsimp only [acceptedGenerations]
    split
    · next hok =>
      have hlast := (validateSignature_iff.mp (Prod.ext hok rfl)).2.2
      exact isChain_cons_cons.mpr ⟨hlast, ih _⟩
    · next hno =>
      rw [hkept last s hno]
      exact ih last

end Xaios.Security
