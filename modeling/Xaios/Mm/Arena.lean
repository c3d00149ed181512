import Xaios.Foundation.Loop
import Xaios.Mm.Pmm

/-!
# Arenas

`mm/arena.c`: arenas of memory that are mapped as a whole when they are made. The place of an
arena follows from its number, 2 MiB apart, and its size from the request.

Memory is the bytes of the pages and, for every virtual page, the page that is found there
(`Mm.Memory`). A page that `pmm_alloc_page` answers is set to zero at its own address,
where it is found as long as nothing else is mapped there.

The check of a request asks only that the arena ends below the limit of all arenas, so an
arena of more than 2 MiB reaches into the next one (`Mm.arenas_overlap`), and mapping it
replaces what is mapped there. In runs where no request is for more than 2 MiB, and no free
page is at the addresses of the heap and of the arenas, the arenas are apart, and no call
touches what is found in another one (`Mm.arenas_apart`).
-/

namespace Xaios.Mm

open Foundation Function List

/-! ### Memory -/

/-- The allocator, the page that is found at each virtual page, and the bytes of all pages. -/
structure Memory where
  pmm : Pmm
  page : ℕ → Option ℕ
  byte : ℕ → UInt8

namespace Memory

variable (m : Memory)

/-- Where the byte of an address is. -/
def phys (a : ℕ) : Option ℕ := (m.page (alignDown a)).map (· + a % 4096)

/-- What is found at an address: where it is, and the byte. -/
def view (a : ℕ) : Option (ℕ × UInt8) := (m.phys a).map fun x => (x, m.byte x)

/-- Bytes after one is written. Where no page is found the kernel stops, and it does so too if
the page may only be read, which is not looked at here. -/
def writeByte (f : ℕ → UInt8) (a : ℕ) (b : UInt8) : ℕ → UInt8 :=
  match m.phys a with
  | some x => update f x b
  | none => f

/-- A byte is stored. -/
def store (a : ℕ) (b : UInt8) : Memory := { m with byte := m.writeByte m.byte a b }

/-- `arena_zero`. -/
def arenaZero (buffer size : ℕ) : Memory :=
  { m with byte := (range size).foldl (fun f i => m.writeByte f (buffer + i) 0) m.byte }

/-- A page is taken. -/
def alloc : Memory := { m with pmm := m.pmm.allocPage.2 }

/-- `vmm_map_page` or `vmm_unmap_page`, where the answer is OK. -/
def setPage (va : ℕ) (p : Option ℕ) : Memory := { m with page := update m.page va p }

/-- `pmm_free_page`. -/
def freePage (p : ℕ) : Memory := { m with pmm := m.pmm.freePage p }

end Memory

/-! ### Arenas -/

/-- `xaios_arena_state_t`. -/
inductive ArenaState where
  | empty
  | ready
  | destroyed
  deriving DecidableEq

/-- `xaios_arena_t`, as far as it has to do with memory. Entries of `pages` that were not
written yet are zero. -/
structure Arena where
  state : ArenaState
  base : ℕ
  size : ℕ
  pageCount : ℕ
  refCount : UInt32
  pages : List ℕ

namespace Arena

/-- `ARENA_VA_STRIDE`. -/
def stride : ℕ := 0x200000

/-- Where the arena of a number starts. -/
def baseOf (id : ℕ) : ℕ := 0x4c000000 + id * stride

theorem le_baseOf (id : ℕ) : 0x4a000000 ≤ baseOf id := by
  rw [baseOf]
  omega

/-- `align_up` to pages, at numbers of 64 bits. -/
def alignUp (size : ℕ) : ℕ := (size + 4095) % 2 ^ 64 / 4096 * 4096

/-- An address of the arena. -/
def Holds (e : Arena) (a : ℕ) : Prop := e.base ≤ a ∧ a < e.base + e.size

/-- One round of `arena_unmap_pages`. -/
def unmapPage (base : ℕ) (pages : List ℕ) (m : Memory) (i : ℕ) : Memory :=
  let m := m.setPage (base + i * 4096) none
  if pages.getD i 0 = 0 then m else m.freePage (pages.getD i 0)

/-- `arena_unmap_pages`. -/
def unmapPages (e : Arena) (m : Memory) : Memory :=
  (range e.pageCount).foldl (unmapPage e.base e.pages) m

/-- The rounds of the loop of `arena_create` that are left, after some pages: whether in each
there was a page, and it could be mapped. -/
def fillPages (base : ℕ) (maps : ℕ → Bool) :
    ℕ → List ℕ → Memory → Bool × List ℕ × Memory
  | 0, pages, m => (true, pages, m)
  | n + 1, pages, m =>
    let page := m.pmm.allocPage.1
    let m := m.alloc
    if page = 0 then (false, pages, m)
    else
      let m := m.arenaZero page 4096
      if maps pages.length then
        fillPages base maps n (pages ++ [page])
          (m.setPage (base + pages.length * 4096) (some page))
      else (false, pages ++ [page], m)

end Arena

open Arena

/-- `g_arenas`, and memory. -/
structure Arenas where
  arena : ℕ → Arena
  memory : Memory

/-- A call, or a byte written to an arena. Whether the heap has room, and in which rounds
`vmm_map_page` answers OK, is part of a call; the pages that the heap and the tables use are
taken by calls of their own. -/
inductive ArenaCall where
  | create (id kind : ℕ) (name : List UInt8) (size : ℕ) (heap : Bool) (maps : ℕ → Bool)
  | acquire (id : ℕ)
  | release (id : ℕ)
  | destroy (id : ℕ)
  | fill (id a : ℕ) (byte : UInt8)
  | take

namespace Arenas

/-- `arena_manager_init`. -/
def init (m : Memory) : Arenas := ⟨fun _ => ⟨.empty, 0, 0, 0, 0, []⟩, m⟩

variable (s : Arenas)

/-- `arena_validate_create`. -/
def validateCreate (id kind : ℕ) (name : List UInt8) (size : ℕ) : Bool :=
  decide (id < 32) && kind != 0 && !name.isEmpty && size != 0 && (s.arena id).state != .ready &&
    decide ((baseOf id + alignUp size) % 2 ^ 64 ≤ 0x50000000)

/-- `arena_create`. When a round fails all pages of the arena are unmapped. -/
def create (id kind : ℕ) (name : List UInt8) (size : ℕ) (heap : Bool) (maps : ℕ → Bool) :
    Arenas :=
  let pageCount := alignUp size / 4096
  if !s.validateCreate id kind name size || !heap || pageCount == 0 then s
  else
    let (done, pages, m) := fillPages (baseOf id) maps pageCount [] s.memory
    let entry : Arena := ⟨.ready, baseOf id, size, pageCount, 0, pages⟩
    if done then ⟨update s.arena id entry, m⟩
    else ⟨update s.arena id { entry with state := .empty }, entry.unmapPages m⟩

/-- One call. -/
def step : ArenaCall → Arenas
  | .create id kind name size heap maps => s.create id kind name size heap maps
  | .acquire id =>
    let e := s.arena id
    if 32 ≤ id ∨ e.state ≠ .ready then s
    else { s with arena := update s.arena id { e with refCount := e.refCount + 1 } }
  | .release id =>
    let e := s.arena id
    if 32 ≤ id ∨ e.state ≠ .ready ∨ e.refCount = 0 then s
    else { s with arena := update s.arena id { e with refCount := e.refCount - 1 } }
  | .destroy id =>
    let e := s.arena id
    if 32 ≤ id ∨ e.state ≠ .ready ∨ e.refCount ≠ 0 then s
    else ⟨update s.arena id ⟨.destroyed, 0, 0, 0, e.refCount, []⟩, e.unmapPages s.memory⟩
  | .fill id a byte =>
    let e := s.arena id
    if e.state = .ready ∧ e.base ≤ a ∧ a < e.base + e.size then
      { s with memory := s.memory.store a byte }
    else s
  | .take => { s with memory := s.memory.alloc }

end Arenas

namespace ArenaCall

/-- The arena of a call; there is none of number 32. -/
def id : ArenaCall → ℕ
  | create id .. | acquire id | release id | destroy id | fill id .. => id
  | take => 32

/-- **The condition on calls**: no request is for more than the distance of two arenas. -/
def Fits : ArenaCall → Prop
  | create _ _ _ size .. => size ≤ stride
  | _ => True

end ArenaCall

/-! ### Pages of one owner -/

/-- The addresses of the heap and of the arenas, at which other pages are mapped. -/
def Remapped (p : ℕ) : Prop := 0x4a000000 ≤ p ∧ p < 0x50000000

namespace Pmm

/-- No free page is at an address of the heap or of an arena. -/
structure Apart (s : Pmm) : Prop where
  counted : s.Counted
  free : ∀ p ∈ s.pages, p % 4096 = 0 ∧ ¬Remapped p

/-- A page that was handed out. -/
structure Uses (s : Pmm) (p : ℕ) : Prop where
  taken : p ∉ s.pages
  owns : s.Owns p
  nonzero : p ≠ 0
  aligned : p % 4096 = 0
  apart : ¬Remapped p

variable {s : Pmm} {p : ℕ}

theorem Apart.alloc (h : s.Apart) : s.allocPage.2.Apart ∧ s.allocPage.2.pages ⊆ s.pages ∧
    ∀ p, s.Uses p → s.allocPage.2.Uses p := by
  rcases allocPage_cases h.counted with ⟨-, -, hnone⟩ | ht
  · rw [hnone]
    exact ⟨h, Finset.Subset.refl _, fun _ hp => hp⟩
  · have hsub : s.allocPage.2.pages ⊆ s.pages := ht.pages ▸ Finset.erase_subset _ _
    exact ⟨⟨ht.counted, fun p hp => h.free p (hsub hp)⟩, hsub, fun p hp =>
      ⟨fun hmem => hp.taken (hsub hmem), (ht.owns p).mpr hp.owns, hp.nonzero, hp.aligned, hp.apart⟩⟩

/-- The page that is handed out was free. -/
theorem Apart.page (h : s.Apart) (hne : s.allocPage.1 ≠ 0) :
    s.Takes s.allocPage.2 s.allocPage.1 ∧ s.allocPage.2.Uses s.allocPage.1 := by
  rcases allocPage_cases h.counted with ⟨-, -, hnone⟩ | ht
  · rw [hnone] at hne
    exact absurd rfl hne
  · obtain ⟨haligned, hapart⟩ := h.free _ ht.mem
    refine ⟨ht, ?_, (ht.owns _).mpr (owns_of_mem ht.mem h.counted), hne, haligned, hapart⟩
    rw [ht.pages]
    exact Finset.notMem_erase _ _

theorem Apart.freePage (h : s.Apart) (hp : s.Uses p) :
    (s.freePage p).Apart ∧ ∀ q, q ≠ p → s.Uses q → (s.freePage p).Uses q := by
  rcases freePage_cases h.counted hp.owns hp.nonzero hp.taken with ⟨-, hnodes⟩ | ⟨-, hg⟩
  · have hpages : (s.freePage p).pages = s.pages := by rw [pages, hnodes, pages]
    have howns : ∀ q, (s.freePage p).Owns q ↔ s.Owns q := fun q => by rw [Owns, hnodes, Owns]
    obtain ⟨n, hn, hcount⟩ := h.counted
    exact ⟨⟨⟨n, hnodes.trans hn, hcount⟩, hpages ▸ h.free⟩, fun q _ hq =>
      ⟨hpages ▸ hq.taken, (howns q).mpr hq.owns, hq.nonzero, hq.aligned, hq.apart⟩⟩
  · refine ⟨⟨hg.counted, fun q hq => ?_⟩, fun q hne hq => ⟨fun hmem => ?_, (hg.owns q).mpr hq.owns,
      hq.nonzero, hq.aligned, hq.apart⟩⟩
    · rw [hg.pages, Finset.mem_insert] at hq
      rcases hq with rfl | hq
      · exact ⟨hp.aligned, hp.apart⟩
      · exact h.free q hq
    · rw [hg.pages, Finset.mem_insert] at hmem
      exact hmem.elim hne hq.taken

end Pmm

namespace Memory

/-- **The condition on memory**: no free page is at an address of the heap or of an arena, and
at all other addresses the page of that address is found. -/
structure Sound (m : Memory) : Prop where
  pmm : m.pmm.Apart
  direct : ∀ p, ¬Remapped p → m.page p = some p

/-- Different pages in use. -/
structure Held (m : Memory) (pages : List ℕ) : Prop where
  uses : ∀ p ∈ pages, m.pmm.Uses p
  nodup : pages.Nodup

/-- Different pages in use that are found from an address on. -/
structure Backs (m : Memory) (base : ℕ) (pages : List ℕ) : Prop extends m.Held pages where
  found : ∀ k p, pages[k]? = some p → m.page (base + k * 4096) = some p

/-- **What an owner leaves to the others**: pages are mapped between two addresses only, and
only the pages of its own are given back or written. -/
structure Spares (m m' : Memory) (start stop : ℕ) (own : List ℕ) : Prop where
  page : ∀ va, ¬(start ≤ va ∧ va < stop) → m'.page va = m.page va
  uses : ∀ p, p ∉ own → m.pmm.Uses p → m'.pmm.Uses p
  byte : ∀ p, p ∉ own → m.pmm.Uses p → ∀ o < 4096, m'.byte (p + o) = m.byte (p + o)

variable {m m' m'' : Memory} {base start stop va n p : ℕ} {pages own : List ℕ}

theorem Spares.refl (m : Memory) : m.Spares m start stop own :=
  ⟨fun _ _ => rfl, fun _ _ hp => hp, fun _ _ _ _ _ => rfl⟩

theorem Spares.trans (h : m.Spares m' start stop own) (h' : m'.Spares m'' start stop own) :
    m.Spares m'' start stop own where
  page va hva := (h'.page va hva).trans (h.page va hva)
  uses p hp hu := h'.uses p hp (h.uses p hp hu)
  byte p hp hu o ho := (h'.byte p hp (h.uses p hp hu) o ho).trans (h.byte p hp hu o ho)

theorem Spares.mono (h : m.Spares m' start stop own) {start' stop' : ℕ} {own' : List ℕ}
    (hstart : start' ≤ start) (hstop : stop ≤ stop') (hown : own ⊆ own') :
    m.Spares m' start' stop' own' where
  page va hva := h.page va (by omega)
  uses p hp := h.uses p fun hmem => hp (hown hmem)
  byte p hp := h.byte p fun hmem => hp (hown hmem)

theorem backs_nil (m : Memory) (base : ℕ) : m.Backs base [] :=
  ⟨⟨fun _ hp => absurd hp not_mem_nil, nodup_nil⟩, fun _ _ hk => by cases hk⟩

theorem Held.of_spares (hb : m.Held pages) (h : m.Spares m' start stop own)
    (hown : ∀ p ∈ pages, p ∉ own) : m'.Held pages :=
  ⟨fun p hp => h.uses p (hown p hp) (hb.uses p hp), hb.nodup⟩

theorem Backs.of_spares (hb : m.Backs base pages) (h : m.Spares m' start stop own)
    (hown : ∀ p ∈ pages, p ∉ own)
    (hout : ∀ k < pages.length, ¬(start ≤ base + k * 4096 ∧ base + k * 4096 < stop)) :
    m'.Backs base pages where
  toHeld := hb.toHeld.of_spares h hown
  found k p hk :=
    (h.page _ (hout k (List.getElem?_eq_some_iff.mp hk).1)).trans (hb.found k p hk)

theorem Held.concat (h : m.Held pages) (hp : m.pmm.Uses p) (hnew : p ∉ pages) :
    m.Held (pages ++ [p]) where
  uses q hq := by
    rcases mem_append.mp hq with hq | hq
    · exact h.uses q hq
    · rw [mem_singleton.mp hq]
      exact hp
  nodup := h.nodup.append (nodup_singleton p) (disjoint_singleton.mpr hnew)

theorem Backs.concat (h : m.Backs base pages) (hp : m.pmm.Uses p) (hnew : p ∉ pages)
    (hpage : m.page (base + pages.length * 4096) = some p) : m.Backs base (pages ++ [p]) where
  toHeld := h.toHeld.concat hp hnew
  found k q hk := by
    rcases Nat.lt_or_ge k pages.length with hlt | hge
    · rw [getElem?_append_left hlt] at hk
      exact h.found k q hk
    · rw [getElem?_append_right hge, getElem?_singleton, ite_eq_iff] at hk
      obtain ⟨hk, heq⟩ | ⟨-, hk⟩ := hk
      · rw [show k = pages.length by omega, hpage, heq]
      · cases hk

theorem Sound.alloc (h : m.Sound) (start stop : ℕ) (own : List ℕ) :
    m.alloc.Sound ∧ m.Spares m.alloc start stop own := by
  obtain ⟨happart, -, huses⟩ := h.pmm.alloc
  exact ⟨⟨happart, h.direct⟩, fun _ _ => rfl, fun p _ => huses p, fun _ _ _ _ _ => rfl⟩

/-- A page is mapped or unmapped at an address of the arenas. -/
theorem Sound.setPage (h : m.Sound) (hva : Remapped va) (r : Option ℕ) (own : List ℕ) :
    (m.setPage va r).Sound ∧ m.Spares (m.setPage va r) va (va + 1) own := by
  have hne : ∀ {p}, p ≠ va → (m.setPage va r).page p = m.page p := fun hp => update_of_ne hp _ _
  refine ⟨⟨h.pmm, fun p hp => ?_⟩, fun p hp => hne (by omega), fun _ _ hp => hp,
    fun _ _ _ _ _ => rfl⟩
  have hpva : p ≠ va := by
    rintro rfl
    exact hp hva
  rw [hne hpva, h.direct p hp]

theorem Sound.freePage (h : m.Sound) (hp : m.pmm.Uses p) (hown : p ∈ own) (start stop : ℕ) :
    (m.freePage p).Sound ∧ m.Spares (m.freePage p) start stop own := by
  obtain ⟨happart, huses⟩ := h.pmm.freePage hp
  refine ⟨⟨happart, h.direct⟩, fun _ _ => rfl, fun q hq => huses q ?_, fun _ _ _ _ _ => rfl⟩
  rintro rfl
  exact hq hown

theorem byte_arenaZero {x a : ℕ} (hx : ∀ i < n, m.phys (a + i) ≠ some x) :
    (m.arenaZero a n).byte x = m.byte x := by
  refine foldlRecOn (range n) _ (motive := fun g : ℕ → UInt8 => g x = m.byte x) rfl
    fun g hg i hi => ?_
  rw [← hg, writeByte]
  cases hphys : m.phys (a + i) with
  | none => rfl
  | some y =>
    refine update_of_ne (fun heq => hx i (mem_range.mp hi) ?_) _ _
    rw [hphys, heq]

/-- **A round of `arena_create` up to the mapping**: the page was free and is set to zero at its
own address, so no page in use is written. -/
theorem Sound.zero (h : m.Sound) (hpage : m.pmm.allocPage.1 ≠ 0) (start stop : ℕ) :
    (m.alloc.arenaZero m.pmm.allocPage.1 4096).Sound ∧
      m.Spares (m.alloc.arenaZero m.pmm.allocPage.1 4096) start stop [] := by
  obtain ⟨ht, huses⟩ := h.pmm.page hpage
  obtain ⟨hsound, hspares⟩ := h.alloc start stop []
  refine ⟨⟨hsound.pmm, hsound.direct⟩, hspares.page, hspares.uses, fun q _ hq o ho =>
    byte_arenaZero fun i hi hx => hq.taken ?_⟩
  -- Pages are aligned, so a byte of both is a byte of one page.
  have hp := huses.aligned
  have hq' := hq.aligned
  have hdown : alignDown (m.pmm.allocPage.1 + i) = m.pmm.allocPage.1 := by
    rw [alignDown]
    omega
  rw [phys, hdown, hsound.direct _ huses.apart, Option.map_some, Option.some_inj] at hx
  have hqp : q = m.pmm.allocPage.1 := by omega
  exact hqp ▸ ht.mem

end Memory

namespace Arena

variable {m : Memory} {base n : ℕ} {pages : List ℕ}

/-- What the loop of `arena_create` makes of memory. -/
structure Filled (base n : ℕ) (pages : List ℕ) (m : Memory) (r : Bool × List ℕ × Memory) :
    Prop where
  sound : r.2.2.Sound
  held : r.2.2.Held r.2.1
  backs : r.1 = true → r.2.2.Backs base r.2.1 ∧ r.2.1.length = pages.length + n
  fresh : ∀ p ∈ r.2.1, p ∈ pages ∨ p ∈ m.pmm.pages
  spares : m.Spares r.2.2 base (base + (pages.length + n) * 4096) []

theorem filled_fillPages (maps : ℕ → Bool) (hm : m.Sound) (hb : m.Backs base pages)
    (hbase : 0x4a000000 ≤ base) (hn : base + (pages.length + n) * 4096 ≤ 0x50000000) :
    Filled base n pages m (fillPages base maps n pages m) := by
  induction n generalizing pages m with
  | zero => exact ⟨hm, hb.toHeld, fun _ => ⟨hb, rfl⟩, fun p hp => Or.inl hp, .refl m⟩
  | succ n ih =>
    have hlen : (pages ++ [m.pmm.allocPage.1]).length + n = pages.length + (n + 1) := by
      rw [length_append, length_singleton]
      omega
    have hlast : base + pages.length * 4096 + 1 ≤ base + (pages.length + (n + 1)) * 4096 := by
      grind
    have hva : Remapped (base + pages.length * 4096) := ⟨by omega, by omega⟩
    rw [fillPages]
    by_cases hpage : m.pmm.allocPage.1 = 0
    · obtain ⟨hsound, hspares⟩ := hm.alloc base (base + (pages.length + (n + 1)) * 4096) []
      have hheld := hb.toHeld.of_spares hspares fun _ _ => not_mem_nil
      rw [if_pos hpage]
      exact ⟨hsound, hheld, (absurd · Bool.false_ne_true), fun p hp => Or.inl hp, hspares⟩
    · obtain ⟨ht, huses⟩ := hm.pmm.page hpage
      obtain ⟨hsound₁, hspares₁⟩ :=
        hm.zero hpage (base + pages.length * 4096) (base + pages.length * 4096 + 1)
      have hnew : m.pmm.allocPage.1 ∉ pages := fun hmem => (hb.uses _ hmem).taken ht.mem
      have hfresh : ∀ p ∈ pages ++ [m.pmm.allocPage.1], p ∈ pages ∨ p ∈ m.pmm.pages := by
        intro p hp
        rcases mem_append.mp hp with hp | hp
        · exact Or.inl hp
        · exact Or.inr (mem_singleton.mp hp ▸ ht.mem)
      rw [if_neg hpage]
      dsimp only
      split
      · -- The page is mapped after those that are mapped already.
        obtain ⟨hsound₂, hspares₂⟩ := hsound₁.setPage hva (some m.pmm.allocPage.1) []
        have hspares := hspares₁.trans hspares₂
        have hold := hb.of_spares hspares (fun _ _ => not_mem_nil) fun k hk => by omega
        have hf := ih hsound₂ (hold.concat huses hnew (update_self _ _ _)) (hlen ▸ hn)
        refine ⟨hf.sound, hf.held, hlen ▸ hf.backs, fun p hp => ?_, ?_⟩
        · rcases hf.fresh p hp with hp | hp
          · exact hfresh p hp
          · exact Or.inr (hm.pmm.alloc.2.1 hp)
        · exact (hspares.mono (Nat.le_add_right _ _) hlast (Subset.refl _)).trans
            (hlen ▸ hf.spares)
      · have hheld := hb.toHeld.of_spares hspares₁ fun _ _ => not_mem_nil
        exact ⟨hsound₁, hheld.concat huses hnew, (absurd · Bool.false_ne_true), hfresh,
          hspares₁.mono (Nat.le_add_right _ _) hlast (Subset.refl _)⟩

/-- **`arena_unmap_pages`** gives back the pages that are held, and touches no other. -/
theorem unmapped_foldl (hm : m.Sound) (hh : m.Held pages) (hbase : 0x4a000000 ≤ base)
    (hn : base + n * 4096 ≤ 0x50000000) :
    ((range n).foldl (unmapPage base pages) m).Sound ∧
      m.Spares ((range n).foldl (unmapPage base pages) m) base (base + n * 4096) pages ∧
      ((range n).foldl (unmapPage base pages) m).Held (pages.drop n) := by
  induction n with
  | zero => exact ⟨hm, .refl m, hh⟩
  | succ n ih =>
    have hlast : base + n * 4096 + 1 ≤ base + (n + 1) * 4096 := by grind
    have hva : Remapped (base + n * 4096) := ⟨by omega, by omega⟩
    obtain ⟨hsound, hspares, hheld⟩ := ih (Nat.le_of_lt hva.2)
    rw [range_succ, foldl_append]
    generalize (range n).foldl (unmapPage base pages) m = m₁ at *
    change (unmapPage base pages m₁ n).Sound ∧ m.Spares (unmapPage base pages m₁ n) _ _ _ ∧
      (unmapPage base pages m₁ n).Held _
    obtain ⟨hsound₂, hspares₂⟩ := hsound.setPage hva none pages
    have hspares' := (hspares.mono le_rfl (Nat.le_of_succ_le hlast) (Subset.refl _)).trans
      (hspares₂.mono (Nat.le_add_right _ _) hlast (Subset.refl _))
    have hheld₂ : (m₁.setPage (base + n * 4096) none).Held (pages.drop n) :=
      ⟨hheld.uses, hheld.nodup⟩
    rw [unmapPage]
    by_cases hlt : n < pages.length
    · rw [drop_eq_getElem_cons hlt] at hheld₂
      obtain ⟨hne, hnodup⟩ := nodup_cons.mp hheld₂.nodup
      have huses := hheld₂.uses _ mem_cons_self
      obtain ⟨hsound₃, hspares₃⟩ := hsound₂.freePage huses (getElem_mem hlt) base
        (base + (n + 1) * 4096)
      rw [getD_eq_getElem?_getD, getElem?_eq_getElem hlt, Option.getD_some, if_neg huses.nonzero]
      refine ⟨hsound₃, hspares'.trans hspares₃, fun p hp => ?_, hnodup⟩
      refine (hsound₂.pmm.freePage huses).2 p ?_ (hheld₂.uses p (mem_cons_of_mem _ hp))
      rintro rfl
      exact hne hp
    · rw [getD_eq_getElem?_getD, getElem?_eq_none (not_lt.mp hlt)]
      rw [drop_of_length_le (by omega)] at hheld₂ ⊢
      exact ⟨hsound₂, hspares', hheld₂⟩

end Arena

/-! ### Arenas that are apart -/

namespace Arenas

variable {s : Arenas} {m : Memory} {i j id a : ℕ} {e : Arena} {own : List ℕ}

/-- The arena of a number can be used. -/
def Ready (s : Arenas) (i : ℕ) : Prop := (s.arena i).state = .ready

/-- An arena is at its place, and no larger than its pages and the distance of two arenas. -/
structure Placed (e : Arena) (i : ℕ) : Prop where
  bound : i < 32
  base : e.base = baseOf i
  count : e.pageCount = e.pages.length
  length : e.pages.length ≤ 512
  size : e.size ≤ e.pages.length * 4096

/-- **The invariant**: each arena is at its place and has pages of its own. -/
structure Inv (s : Arenas) : Prop where
  sound : s.memory.Sound
  owner : ∀ i, s.Ready i →
    Placed (s.arena i) i ∧ s.memory.Backs (s.arena i).base (s.arena i).pages
  apart : ∀ i j, s.Ready i → s.Ready j → i ≠ j → Disjoint (s.arena i).pages (s.arena j).pages

/-- The arenas of other numbers, and what is found in them, are left as they are. -/
def Leaves (s s' : Arenas) (id : ℕ) : Prop :=
  ∀ i, s.Ready i → i ≠ id → s'.arena i = s.arena i ∧
    ∀ a, (s.arena i).Holds a → s'.memory.view a = s.memory.view a

theorem Leaves.refl (s : Arenas) (id : ℕ) : s.Leaves s id := fun _ _ _ => ⟨rfl, fun _ _ => rfl⟩

/-- Two arenas at their places have no address in common. -/
theorem Placed.unique {e' : Arena} (h : Placed e i) (h' : Placed e' j) (ha : e.Holds a)
    (ha' : e'.Holds a) : i = j := by
  obtain ⟨-, hbase, -, hlength, hsize⟩ := h
  obtain ⟨-, hbase', -, hlength', hsize'⟩ := h'
  rw [Arena.Holds, hbase, baseOf, stride] at ha
  rw [Arena.Holds, hbase', baseOf, stride] at ha'
  omega

/-- The pages of an arena are outside of the place of another one. -/
theorem Placed.outside (h : Placed e i) (hne : i ≠ id) :
    ∀ k < e.pages.length, ¬(baseOf id ≤ e.base + k * 4096 ∧
      e.base + k * 4096 < baseOf id + stride) := by
  intro k hk
  have hlength := h.length
  rw [h.base, baseOf, baseOf, stride]
  omega

/-- Where the byte of an address is. -/
theorem Placed.phys (h : Placed e i) (ha : e.Holds a) : ∃ p ∈ e.pages, ∀ m : Memory,
    m.Backs e.base e.pages → m.phys a = some (p + a % 4096) := by
  obtain ⟨-, hbase, -, -, hsize⟩ := h
  rw [baseOf, stride] at hbase
  obtain ⟨hstart, hstop⟩ := ha
  have hk : (a - e.base) / 4096 < e.pages.length := by omega
  have hpage : alignDown a = e.base + (a - e.base) / 4096 * 4096 := by
    rw [alignDown]
    omega
  refine ⟨_, getElem_mem hk, fun m hm => ?_⟩
  rw [Memory.phys, hpage, hm.found _ _ (getElem?_eq_getElem hk)]
  rfl

/-- **An owner keeps to its own**: it replaces its arena, and spares the pages of the others. -/
theorem Inv.replace (h : s.Inv) (id : ℕ) (e : Arena) (hm : m.Sound)
    (hs : s.memory.Spares m (baseOf id) (baseOf id + stride) own)
    (hown : ∀ i, s.Ready i → i ≠ id → Disjoint (s.arena i).pages own)
    (he : e.state = .ready → Placed e id ∧ m.Backs e.base e.pages ∧
      ∀ i, s.Ready i → i ≠ id → Disjoint (s.arena i).pages e.pages) :
    Inv ⟨update s.arena id e, m⟩ ∧ s.Leaves ⟨update s.arena id e, m⟩ id := by
  have hbacks : ∀ i, s.Ready i → i ≠ id → m.Backs (s.arena i).base (s.arena i).pages := by
    intro i hi hne
    obtain ⟨hplaced, hb⟩ := h.owner i hi
    exact hb.of_spares hs (fun p hp hmem => hown i hi hne hp hmem) (hplaced.outside hne)
  refine ⟨⟨hm, fun i hi => ?_, fun i j hi hj hij => ?_⟩, fun i hi hne =>
    ⟨update_of_ne hne _ _, fun a ha => ?_⟩⟩
  · by_cases hid : i = id
    · subst hid
      simp only [Ready, update_self] at hi ⊢
      exact ⟨(he hi).1, (he hi).2.1⟩
    · simp only [Ready, update_of_ne hid] at hi ⊢
      exact ⟨(h.owner i hi).1, hbacks i hi hid⟩
  · by_cases hid : i = id
    · subst hid
      simp only [Ready, update_self, update_of_ne hij.symm] at hi hj ⊢
      exact ((he hi).2.2 j hj hij.symm).symm
    · simp only [Ready, update_of_ne hid] at hi ⊢
      by_cases hjd : j = id
      · subst hjd
        simp only [Ready, update_self] at hj ⊢
        exact (he hj).2.2 i hi hid
      · simp only [Ready, update_of_ne hjd] at hj ⊢
        exact h.apart i j hi hj hij
  · obtain ⟨hplaced, hb⟩ := h.owner i hi
    obtain ⟨p, hp, hphys⟩ := hplaced.phys ha
    have hbyte := hs.byte p (hown i hi hne hp) (hb.uses p hp) (a % 4096)
      (Nat.mod_lt a (Nat.zero_lt_succ _))
    simp only [Memory.view, hphys _ hb, hphys _ (hbacks i hi hne), Option.map_some, hbyte]

/-- The pages in use of an arena are not free ones. -/
theorem Inv.disjoint (h : s.Inv) (hi : s.Ready i) (hown : ∀ p ∈ own, p ∈ s.memory.pmm.pages) :
    Disjoint (s.arena i).pages own := fun p hp hmem =>
  ((h.owner i hi).2.uses p hp).taken (hown p hmem)

/-- `arena_create` within the place of the arena: it fails, or the arena gets pages that were
free. -/
theorem Inv.create (h : s.Inv) {size : ℕ} (hsize : size ≤ stride) (kind : ℕ)
    (name : List UInt8) (heap : Bool) (maps : ℕ → Bool) :
    (s.create id kind name size heap maps).Inv ∧
      s.Leaves (s.create id kind name size heap maps) id := by
  rw [Arenas.create]
  dsimp only
  split
  · exact ⟨h, .refl s id⟩
  · next hgo =>
    have hid : id < 32 := by
      simp only [validateCreate, Bool.or_eq_true, Bool.not_eq_true', not_or, Bool.not_eq_false,
        Bool.and_eq_true, decide_eq_true_eq] at hgo
      exact hgo.1.1.1.1.1.1.1
    have hcount : alignUp size / 4096 ≤ 512 ∧ size ≤ alignUp size / 4096 * 4096 := by
      rw [stride] at hsize
      rw [alignUp]
      omega
    generalize alignUp size / 4096 = n at hcount
    have hlimit : baseOf id + n * 4096 ≤ 0x50000000 := by
      rw [baseOf, stride]
      omega
    have hend : baseOf id + n * 4096 ≤ baseOf id + stride := by
      rw [stride]
      omega
    have hf := filled_fillPages maps h.sound (Memory.backs_nil _ _) (le_baseOf id)
      ((Nat.zero_add n).symm ▸ hlimit)
    revert hf
    rcases fillPages (baseOf id) maps n [] s.memory with ⟨done, pages, m⟩
    rintro ⟨hsound, hheld, hbacks, hfresh, hspares⟩
    have hown : ∀ p ∈ pages, p ∈ s.memory.pmm.pages := fun p hp =>
      (hfresh p hp).resolve_left not_mem_nil
    rw [length_nil, Nat.zero_add] at hspares
    cases done with
    | false =>
      obtain ⟨hsound, hunmap, -⟩ := unmapped_foldl hsound hheld (le_baseOf id) hlimit
      exact h.replace id _ hsound ((hspares.mono le_rfl hend (nil_subset pages)).trans
        (hunmap.mono le_rfl hend (Subset.refl pages))) (fun i hi _ => h.disjoint hi hown)
        fun hready => by cases hready
    | true =>
      obtain ⟨hbacks, hlength⟩ := hbacks rfl
      rw [length_nil, Nat.zero_add] at hlength
      rw [← hlength] at hcount
      exact h.replace id _ hsound (hspares.mono le_rfl hend (Subset.refl []))
        (fun _ _ _ => disjoint_nil_right _) fun _ => ⟨⟨hid, rfl, hlength.symm, hcount.1, hcount.2⟩,
          hbacks, fun i hi _ => h.disjoint hi hown⟩

/-- The arena stays where it is. -/
theorem Inv.retain (h : s.Inv) (id : ℕ) (r : UInt32) (hm : m.Sound)
    (hs : s.memory.Spares m (baseOf id) (baseOf id + stride) own)
    (hown : ∀ i, s.Ready i → i ≠ id → Disjoint (s.arena i).pages own)
    (hb : s.Ready id → m.Backs (s.arena id).base (s.arena id).pages) :
    let t : Arenas := ⟨update s.arena id { s.arena id with refCount := r }, m⟩
    t.Inv ∧ s.Leaves t id := by
  refine h.replace id _ hm hs hown fun hready => ?_
  obtain ⟨hplaced, -⟩ := h.owner id hready
  exact ⟨⟨hplaced.bound, hplaced.base, hplaced.count, hplaced.length, hplaced.size⟩, hb hready,
    fun i hi hne => h.apart i id hi hready hne⟩

/-- **One call** keeps the invariant, and leaves the arenas of other numbers as they are. -/
theorem Inv.step (h : s.Inv) {c : ArenaCall} (hc : c.Fits) :
    (s.step c).Inv ∧ s.Leaves (s.step c) c.id := by
  cases c with
  | create id kind name size heap maps => exact h.create hc kind name heap maps
  | acquire id | release id =>
    rw [Arenas.step]
    split
    · exact ⟨h, .refl s id⟩
    · exact h.retain id _ h.sound (.refl _) (fun _ _ _ => disjoint_nil_right _)
        fun hid => (h.owner id hid).2
  | destroy id =>
    rw [Arenas.step]
    split
    · exact ⟨h, .refl s id⟩
    · next hready =>
      have hid : s.Ready id := not_not.mp fun hne => hready (.inr (.inl hne))
      obtain ⟨hplaced, hb⟩ := h.owner id hid
      have hend : (s.arena id).base + (s.arena id).pageCount * 4096 ≤
          baseOf id + stride ∧ baseOf id + stride ≤ 0x50000000 := by
        have hbound := hplaced.bound
        have hlength := hplaced.length
        rw [hplaced.base, hplaced.count, baseOf, stride]
        omega
      obtain ⟨hsound, hspares, -⟩ := unmapped_foldl h.sound hb.toHeld
        (hplaced.base ▸ le_baseOf id) (hend.1.trans hend.2)
      exact h.replace id _ hsound (hspares.mono hplaced.base.ge hend.1 (Subset.refl _))
        (fun i hi hne => h.apart i id hi hid hne) fun hready => by cases hready
  | fill id a b =>
    rw [Arenas.step]
    split
    · next hin =>
      obtain ⟨hplaced, hb⟩ := h.owner id hin.1
      obtain ⟨p, hp, hphys⟩ := hplaced.phys hin.2
      have hfill := h.retain id (s.arena id).refCount (m := s.memory.store a b)
        ⟨h.sound.pmm, h.sound.direct⟩ ⟨fun _ _ => rfl, fun _ _ hq => hq, fun q hq huses o ho => ?_⟩
        (fun i hi hne => h.apart i id hi hin.1 hne) fun _ => ⟨⟨hb.uses, hb.nodup⟩, hb.found⟩
      · dsimp only at hfill
        rwa [update_eq_self] at hfill
      · -- The page of the byte is another one, and both are aligned.
        rw [Memory.store, Memory.writeByte, hphys _ hb]
        refine update_of_ne (fun heq => hq ?_) _ _
        have hqp : q = p := by
          have hp := (hb.uses p hp).aligned
          have hq := huses.aligned
          omega
        exact hqp ▸ hp
    · exact ⟨h, .refl s id⟩
  | take =>
    obtain ⟨hsound, hspares⟩ := h.sound.alloc (baseOf 32) (baseOf 32 + stride) []
    have htake := h.retain 32 (s.arena 32).refCount hsound hspares
      (fun _ _ _ => disjoint_nil_right _) fun hid => absurd (h.owner 32 hid).1.bound (lt_irrefl _)
    dsimp only at htake
    rwa [update_eq_self] at htake

end Arenas

end Xaios.Mm
