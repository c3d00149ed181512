import Xaios.MutableFs.Volume

/-!
# Paths of the mutable file system

`validate_path`, `parent_path_of` and the questions the operations ask about the
name space: whether the parent of a path is an active directory
(`parent_exists_for`) and whether some active node lies below a path
(`has_active_children`).

What the rest of the development needs of them is short: a valid path fits the
96-byte field of a node (`MutableFs.length_of_validatePath`), and a path
whose parent is not `/` is that parent, a slash and a name
(`MutableFs.bytes_of_parentPathOf`), so that the node at the path is one of
the active children of the node at the parent.
-/

namespace Xaios.MutableFs

open Foundation List

/-! ### Validation -/

/-- The character `/`. -/
def slash : UInt8 := 47

/-- The path `/`. -/
def rootPath : CString := ⟨[slash], by decide⟩

/-- The path of an entry of `/` with a name of one letter. -/
def letterPath (c : UInt8) (hc : c ≠ 0) : CString := ⟨[slash, c], by
  simpa [eq_comm] using ⟨by decide, hc⟩⟩

/-- The path `/a`. -/
abbrev pathA : CString := letterPath 97 (by decide)

/-- The path `/b`. -/
abbrev pathB : CString := letterPath 98 (by decide)

/-- The path `/c`. -/
abbrev pathC : CString := letterPath 99 (by decide)

/-- The path `/d`. -/
abbrev pathD : CString := letterPath 100 (by decide)

/-- The path `/e`. -/
abbrev pathE : CString := letterPath 101 (by decide)

/-- The path `/f`. -/
abbrev pathF : CString := letterPath 102 (by decide)

/-- The bytes `validate_path` refuses: outside `!` … `~`, or one of
`: * ? " < > |`. -/
def badPathByte (c : UInt8) : Bool :=
  c < 33 || c > 126 || c == 58 || c == 42 || c == 63 || c == 34 || c == 60 || c == 62 || c == 124

/-- The loop of `validate_path` from index `i` on, where `lastSlash` says whether
the byte before was a slash. The end of the list is the terminator. -/
def validatePathFrom : List UInt8 → ℕ → Bool → Status
  | [], i, lastSlash =>
    if 96 ≤ i then .invalid
    else if i = 0 ∨ (1 < i ∧ lastSlash = true) then .invalid else .ok
  | c :: cs, i, lastSlash =>
    if 96 ≤ i then .invalid
    else if badPathByte c then .invalid
    else if c = slash ∧ lastSlash = true ∧ i ≠ 0 then .invalid
    else validatePathFrom cs (i + 1) (c = slash)

/-- `validate_path`. -/
def validatePath (path : CString) : Status :=
  if path.byteAt 0 ≠ slash then .invalid else validatePathFrom path.bytes 0 true

theorem length_of_validatePathFrom {cs : List UInt8} {i : ℕ} {b : Bool}
    (h : validatePathFrom cs i b = .ok) : i + cs.length < 96 := by
  induction cs generalizing i b with
  | nil =>
    rw [validatePathFrom] at h
    by_cases hi : 96 ≤ i
    · simp [hi] at h
    · simpa using hi
  | cons c cs ih =>
    rw [validatePathFrom] at h
    split at h
    · simp at h
    · split at h
      · simp at h
      · split at h
        · simp at h
        · have := ih h
          simp only [length_cons]
          omega

variable {path : CString}

/-- **A valid path fits the path field of a node**, terminator included. -/
theorem length_of_validatePath (h : validatePath path = .ok) : path.length < 96 := by
  rw [validatePath] at h
  split at h
  · simp at h
  · simpa [CString.length] using length_of_validatePathFrom h

/-! ### The parent of a path -/

/-- The loop of `parent_path_of`: the index of the last slash, `last` if there is
none from index `i` on. -/
def lastSlashFrom : List UInt8 → ℕ → ℕ → ℕ
  | [], _, last => last
  | c :: cs, i, last => lastSlashFrom cs (i + 1) (if c = slash then i else last)

/-- `parent_path_of`. -/
def parentPathOf (path : CString) : CString :=
  let k := lastSlashFrom (path.bytes.take 96) 0 0
  if k = 0 then rootPath else path.take k

/-- The index the loop returns is the one it came in with, or that of a slash. -/
theorem lastSlashFrom_cases (cs : List UInt8) (i last : ℕ) :
    lastSlashFrom cs i last = last ∨
      ∃ j, lastSlashFrom cs i last = i + j ∧ cs[j]? = some slash := by
  induction cs generalizing i last with
  | nil => exact .inl rfl
  | cons c cs ih =>
    rw [lastSlashFrom]
    rcases ih (i + 1) (if c = slash then i else last) with h | ⟨j, hj, hs⟩
    · by_cases hc : c = slash
      · rw [if_pos hc] at h
        exact .inr ⟨0, by rw [if_pos hc, h, Nat.add_zero], by simp [hc]⟩
      · rw [if_neg hc] at h ⊢
        exact .inl h
    · exact .inr ⟨j + 1, by rw [hj]; omega, by simpa using hs⟩

section

variable (hne : parentPathOf path ≠ rootPath)

include hne

/-- **A path is its parent, a slash and a name**, unless the parent is `/`. -/
theorem bytes_of_parentPathOf (hlen : path.length < 96) :
    ∃ rest, path.bytes = (parentPathOf path).bytes ++ slash :: rest := by
  have htake : path.bytes.take 96 = path.bytes := take_of_length_le (Nat.le_of_lt hlen)
  unfold parentPathOf at hne ⊢
  rw [htake] at hne ⊢
  rcases lastSlashFrom_cases path.bytes 0 0 with h | ⟨j, hj, hs⟩
  · rw [h] at hne
    exact absurd rfl hne
  · rw [Nat.zero_add] at hj
    rw [hj] at hne ⊢
    have hj0 : j ≠ 0 := fun h0 => hne (by rw [if_pos h0])
    obtain ⟨hlt, hget⟩ := List.getElem?_eq_some_iff.mp hs
    refine ⟨path.bytes.drop (j + 1), ?_⟩
    rw [if_neg hj0, CString.bytes_take]
    conv_lhs => rw [← take_append_drop j path.bytes, drop_eq_getElem_cons hlt, hget]

/-- A path is not its own parent, unless the parent is `/`. -/
theorem parentPathOf_ne_self (hlen : path.length < 96) : parentPathOf path ≠ path := by
  obtain ⟨rest, hrest⟩ := bytes_of_parentPathOf hne hlen
  intro h
  have hl : path.bytes.length = path.bytes.length + (slash :: rest).length := by
    conv_lhs => rw [hrest, h, length_append]
  simp at hl

/-! ### Below a path -/

/-- The test of `has_active_children` on one node: the name starts with the path
and goes on with a slash. The byte behind a matching prefix is at most the
terminator, so the test never looks at what is left over behind it. -/
def isBelow (name path : CString) : Bool :=
  name != path && name.bytes.take path.length == path.bytes && name.byteAt path.length == slash

/-- **A path is below its parent**, unless the parent is `/`. -/
theorem isBelow_parentPathOf (hlen : path.length < 96) :
    isBelow path (parentPathOf path) = true := by
  obtain ⟨rest, hrest⟩ := bytes_of_parentPathOf hne hlen
  have h1 : path ≠ parentPathOf path := fun h => parentPathOf_ne_self hne hlen h.symm
  have h2 : path.bytes.take (parentPathOf path).length = (parentPathOf path).bytes := by
    conv_lhs => rw [hrest]
    exact take_left' rfl
  have h3 : path.byteAt (parentPathOf path).length = slash := by
    rw [CString.byteAt, hrest, CString.length]
    simp
  simp [isBelow, h1, h2, h3]

end

namespace Volume

/-- `parent_exists_for`. -/
def parentExistsFor (v : Volume) (g : Geometry) (path : CString) : Bool :=
  if parentPathOf path = rootPath then true
  else match v.findNode g (parentPathOf path) false with
    | none => false
    | some i => (v.nodes i).active != 0 && (v.nodes i).type == nodeDir

/-- `has_active_children`. -/
def hasActiveChildren (v : Volume) (g : Geometry) (path : CString) : Bool :=
  (slots g).any fun i => (v.nodes i).active != 0 && isBelow (v.nodes i).name path

end Volume

end Xaios.MutableFs
