import Os161.Vm.Coremap

/-!
# Physical memory at boot and the set-up of the coremap

`ram.c` keeps the first free physical address and the end of memory. Before the
coremap exists, memory is stolen from the front, a whole number of pages at a time.
`vm_bootstrap` steals the pages for the coremap, takes over the rest, and fills in one
entry for every page of RAM.

Addresses are 32-bit words and all of the arithmetic is the source's. What the four
formulas for the number of entries, the pages to steal, the place of the array and the
first frame amount to is stated in natural numbers.
-/
namespace Os161.Vm

/-- The variables of `ram.c`. `ram_bootstrap` never reports more than 512 megabytes. -/
structure Ram where
  firstpaddr : BitVec 32
  lastpaddr : BitVec 32
  capped : lastpaddr.toNat ≤ 512 * 1024 * 1024

/-- `ram_bootstrap`, given what the bus reports and the address `start.S` has saved. -/
def ramBootstrap (ramsize firstfree : BitVec 32) : Ram where
  firstpaddr := firstfree - mipsKseg0
  lastpaddr := if ramsize > 0x20000000#32 then 0x20000000#32 else ramsize
  capped := by
    by_cases large : ramsize > 0x20000000#32
    · rw [if_pos large]
      decide
    · rw [if_neg large]
      exact BitVec.le_def.mp (BitVec.not_lt.mp large)

def ramStealmem (npages : BitVec 32) (ram : Ram) : BitVec 32 × Ram :=
  let size := npages * 4096#32
  if ram.firstpaddr + size > ram.lastpaddr then (0#32, ram)
  else (ram.firstpaddr, { ram with firstpaddr := ram.firstpaddr + size })

/-- `ram_getfirstfree`: what it returns, and nothing can be stolen any more. -/
def ramGetfirstfree (ram : Ram) : BitVec 32 × Ram :=
  (ram.firstpaddr, { firstpaddr := 0#32, lastpaddr := 0#32, capped := by decide })

/-- What `vm_bootstrap` computes: how many pages it steals, the addresses of the coremap
and of its array, the number of entries and the first frame. -/
structure Boot where
  steal : BitVec 32
  coremap : BitVec 32
  firstfree : BitVec 32
  entries : BitVec 32
  pageNum : BitVec 32
  firstaddr : BitVec 32

/-- `vm_bootstrap`. A `struct coremap` has 8 bytes and an entry 16. The array starts
`sizeof(coremap)` structures behind the coremap, and `coremap` is a pointer, so these
are four of them. -/
def vmBootstrap (ram : Ram) : Boot × Ram :=
  let lastaddr := ram.lastpaddr
  let steal := 8#32 + (lastaddr / 4096#32) * 16#32
  let steal := (steal + (4096#32 - 1#32)) / 4096#32
  let pageNum := lastaddr / 4096#32
  let (stolen, ram) := ramStealmem steal ram
  let coremap := paddrToKvaddr stolen
  let (firstfree, ram) := ramGetfirstfree ram
  let entries := coremap + 4#32 * 8#32
  let firstaddr := firstfree + (4096#32 - firstfree % 4096#32)
  ({ steal, coremap, firstfree, entries, pageNum, firstaddr }, ram)

/-- An entry of the new map. -/
def Boot.entry (boot : Boot) (i : Nat) : CoremapEntry := freshEntry boot.firstaddr i

/-- The pages that `vm_bootstrap` asks for, as a number. -/
def mapPages (ram : Ram) : Nat := (8 + ram.lastpaddr.toNat / pageSize * 16 + 4095) / pageSize

/-- Memory is large enough for the map. -/
def MapFits (ram : Ram) : Prop :=
  ram.firstpaddr.toNat + pageSize * mapPages ram ≤ ram.lastpaddr.toNat

/-- The results of `vm_bootstrap` in numbers. -/
structure BootNumbers (ram : Ram) (boot : Boot) : Prop where
  steal : boot.steal.toNat = mapPages ram
  coremap : boot.coremap.toNat = ram.firstpaddr.toNat + mipsKseg0.toNat
  entries : boot.entries.toNat = ram.firstpaddr.toNat + mipsKseg0.toNat + 32
  pageNum : boot.pageNum.toNat = ram.lastpaddr.toNat / pageSize
  firstfree : boot.firstfree.toNat = ram.firstpaddr.toNat + pageSize * mapPages ram
  firstaddr : boot.firstaddr.toNat = pageSize * (ram.firstpaddr.toNat / pageSize + mapPages ram + 1)

theorem ram_stealmem_fits {npages : BitVec 32} {ram : Ram}
    (fits : ram.firstpaddr.toNat + pageSize * npages.toNat ≤ ram.lastpaddr.toNat) :
    (ram.firstpaddr + npages * 4096#32).toNat = ram.firstpaddr.toNat + pageSize * npages.toNat ∧
      ramStealmem npages ram =
        (ram.firstpaddr, { ram with firstpaddr := ram.firstpaddr + npages * 4096#32 }) := by
  have sum : (ram.firstpaddr + npages * 4096#32).toNat =
      ram.firstpaddr.toNat + pageSize * npages.toNat := by
    simp only [pageSize, BitVec.toNat_add, BitVec.toNat_mul, BitVec.toNat_ofNat] at fits ⊢
    omega
  refine ⟨sum, ?_⟩
  have inside : ¬ ram.firstpaddr + npages * 4096#32 > ram.lastpaddr := by
    rw [GT.gt, BitVec.lt_def]
    omega
  simp [ramStealmem, inside]

theorem steal_pages (ram : Ram) :
    ((8#32 + (ram.lastpaddr / 4096#32) * 16#32 + (4096#32 - 1#32)) / 4096#32).toNat =
      mapPages ram := by
  have pages : (ram.lastpaddr / 4096#32).toNat = ram.lastpaddr.toNat / 4096 := by
    rfl
  have total : (8#32 + (ram.lastpaddr / 4096#32) * 16#32 + (4096#32 - 1#32)).toNat =
      8 + ram.lastpaddr.toNat / 4096 * 16 + 4095 := by
    simp only [BitVec.toNat_add, BitVec.toNat_mul, BitVec.toNat_sub, BitVec.toNat_ofNat, pages]
    omega
  rw [BitVec.toNat_udiv, total]
  rfl

/-- Memory that fits below the cap has its kernel address. -/
theorem kvaddr_nat (paddr : BitVec 32) (capped : paddr.toNat ≤ 512 * 1024 * 1024) :
    (paddrToKvaddr paddr).toNat = paddr.toNat + mipsKseg0.toNat := by
  have bound := kseg0_nat
  unfold paddrToKvaddr
  rw [BitVec.toNat_add_of_lt]
  omega

/-- When the map fits, `vm_bootstrap` computes without overflow. -/
theorem boot_numbers {ram : Ram} (fits : MapFits ram) : BootNumbers ram (vmBootstrap ram).1 := by
  have capped := ram.capped
  have steal := steal_pages ram
  unfold MapFits at fits
  rw [← steal] at fits
  obtain ⟨sum, stolen⟩ := ram_stealmem_fits fits
  rw [steal] at sum fits
  have kernel := kvaddr_nat ram.firstpaddr (by omega)
  have bound := kseg0_nat
  refine ⟨steal, ?_, ?_, ?_, ?_, ?_⟩
  · simp only [vmBootstrap, stolen, kernel]
  · have offset : (4#32 * 8#32).toNat = 32 := rfl
    simp only [vmBootstrap, stolen]
    rw [BitVec.toNat_add_of_lt, kernel, offset]
    omega
  · rfl
  · simp only [vmBootstrap, stolen, ramGetfirstfree, sum]
  · simp only [vmBootstrap, stolen, ramGetfirstfree, BitVec.toNat_add _ (_ - _), BitVec.toNat_sub,
      BitVec.toNat_umod, sum]
    simp only [pageSize, BitVec.toNat_ofNat, Nat.reducePow, Nat.reduceMod] at fits ⊢
    omega

/-- What an entry of the new map should be: a page of its own, above everything that is
in use and below the end of memory. -/
structure EntrySound (ram : Ram) (boot : Boot) (i : Nat) : Prop where
  aligned : (boot.entry i).pa.toNat % pageSize = 0
  distinct : ∀ j, j < boot.pageNum.toNat → j ≠ i → (boot.entry j).pa ≠ (boot.entry i).pa
  above : boot.firstfree ≤ (boot.entry i).pa
  below : (boot.entry i).pa.toNat + pageSize ≤ ram.lastpaddr.toNat

/-- The array lies in the pages stolen for it. -/
def ArrayInside (boot : Boot) : Prop :=
  boot.coremap ≤ boot.entries ∧ boot.entries.toNat + 16 * boot.pageNum.toNat ≤
      boot.coremap.toNat + pageSize * boot.steal.toNat

theorem boot_frames_low {ram : Ram} (fits : MapFits ram) :
    (vmBootstrap ram).1.firstaddr.toNat + pageSize * (vmBootstrap ram).1.pageNum.toNat ≤
      mipsKseg0.toNat := by
  have numbers := boot_numbers fits
  have capped := ram.capped
  have bound := kseg0_nat
  unfold MapFits at fits
  rw [numbers.firstaddr, numbers.pageNum]
  unfold pageSize at fits ⊢
  omega

theorem boot_entry_pa {ram : Ram} (fits : MapFits ram) {i : Nat}
    (inside : i < (vmBootstrap ram).1.pageNum.toNat) :
    ((vmBootstrap ram).1.entry i).pa.toNat =
      pageSize * (ram.firstpaddr.toNat / pageSize + mapPages ram + 1 + i) := by
  have numbers := boot_numbers fits
  unfold Boot.entry
  rw [fresh_entry_pa (boot_frames_low fits) inside, numbers.firstaddr, ← Nat.mul_add]
  congr 1
  omega

/-- The map that `vm_bootstrap` fills in, with whatever the memory behind it holds. -/
theorem boot_coremap (ram : Ram) (fits : MapFits ram) (readable : Nat)
    (behind : Nat → CoremapEntry) (inside : (vmBootstrap ram).1.pageNum.toNat ≤ readable) :
    ∃ coremap : Coremap, coremap.size = (vmBootstrap ram).1.pageNum.toNat ∧
      coremap.readable = readable ∧ Fresh coremap ∧
      (∀ i, i < coremap.size → coremap.entries i = (vmBootstrap ram).1.entry i) ∧
      ∀ i, coremap.size ≤ i → coremap.entries i = behind i := by
  have numbers := boot_numbers fits
  have aligned : (vmBootstrap ram).1.firstaddr.toNat % pageSize = 0 := by
    rw [numbers.firstaddr]
    exact Nat.mul_mod_right _ _
  refine ⟨freshCoremap (vmBootstrap ram).1.firstaddr _ readable behind inside aligned
    (boot_frames_low fits), rfl, rfl, fresh_coremap_fresh _ _ _, ?_, ?_⟩
  · intro i within
    exact if_pos within
  · intro i outside
    exact if_neg (Nat.not_lt.mpr outside)

/-- The array lies in its pages unless the number of pages of RAM is one short of a
multiple of 256. -/
theorem array_inside_iff {ram : Ram} (fits : MapFits ram) :
    ArrayInside (vmBootstrap ram).1 ↔ ram.lastpaddr.toNat / pageSize % 256 ≠ 255 := by
  have numbers := boot_numbers fits
  unfold ArrayInside
  rw [BitVec.le_def, numbers.coremap, numbers.entries, numbers.pageNum, numbers.steal]
  unfold mapPages pageSize
  omega

/-- An entry of the new map and the place of the array are right exactly when that many
frames fit between the first free page and the end of memory, one page being lost, and
the number of pages of RAM is not one short of a multiple of 256. -/
theorem boot_entry_sound_iff (ram : Ram) (whole : ram.lastpaddr.toNat % pageSize = 0)
    (fits : MapFits ram) (i : Nat) (inside : i < (vmBootstrap ram).1.pageNum.toNat) :
    (EntrySound ram (vmBootstrap ram).1 i ∧ ArrayInside (vmBootstrap ram).1) ↔
      ram.firstpaddr.toNat / pageSize + mapPages ram + i + 2 ≤ ram.lastpaddr.toNat / pageSize ∧
        ram.lastpaddr.toNat / pageSize % 256 ≠ 255 := by
  have numbers := boot_numbers fits
  have address := boot_entry_pa fits inside
  rw [array_inside_iff fits]
  refine and_congr_left' ⟨fun sound => ?_, fun room => ⟨?_, ?_, ?_, ?_⟩⟩
  · have below := sound.below
    unfold pageSize at *
    omega
  · rw [address]
    exact Nat.mul_mod_right _ _
  · intro j other apart same
    have equal := congrArg BitVec.toNat same
    rw [address, boot_entry_pa fits other] at equal
    unfold pageSize at equal
    omega
  · rw [BitVec.le_def, numbers.firstfree, address]
    unfold pageSize
    omega
  · unfold pageSize at *
    omega

/-- Every page of RAM has an entry, those of the kernel and of the map included, so the last entry
is a frame behind the end of memory: no size of memory is right for all entries. -/
theorem boot_last_entry_unsound (ram : Ram) (fits : MapFits ram) :
    ∃ i, i < (vmBootstrap ram).1.pageNum.toNat ∧ ¬ EntrySound ram (vmBootstrap ram).1 i := by
  have numbers := boot_numbers fits
  have positive : 0 < (vmBootstrap ram).1.pageNum.toNat := by
    rw [numbers.pageNum]
    simp only [MapFits, mapPages, pageSize] at fits ⊢
    omega
  have last : (vmBootstrap ram).1.pageNum.toNat - 1 < (vmBootstrap ram).1.pageNum.toNat := by
    omega
  refine ⟨_, last, fun sound => ?_⟩
  have below := sound.below
  rw [boot_entry_pa fits last, numbers.pageNum] at below
  unfold pageSize at below
  omega

/-- A megabyte of memory, of which the first 32 pages are in use. -/
def megabyte : Ram := ramBootstrap 0x100000#32 0x80020000#32

/-- The first frame is right. -/
theorem megabyte_first_entry : megabyte.lastpaddr.toNat % pageSize = 0 ∧ MapFits megabyte ∧
      EntrySound megabyte (vmBootstrap megabyte).1 0 ∧ ArrayInside (vmBootstrap megabyte).1 := by
  have fits : MapFits megabyte := by
    unfold MapFits
    decide
  exact ⟨by decide, fits, (boot_entry_sound_iff megabyte (by decide) fits 0 (by decide)).mpr (by decide)⟩

/-- Its map has 256 free entries, for the frames from 0x23000 on, and behind them the two pages of
the map have room for 254 more, which stay clear. -/
theorem megabyte_coremap : MapFits megabyte ∧
    ∃ coremap : Coremap, coremap.size = 256 ∧ coremap.readable = 510 ∧ Fresh coremap ∧
      (∀ i, i < 256 → coremap.entries i = ⟨none, 0xffffffff#32, BitVec.ofNat 32
        (pageSize * i) + 0x23000#32, .free⟩) ∧
      ∀ i, 256 ≤ i → coremap.entries i = ⟨none, 0#32, 0#32, .free⟩ := by
  have fits : MapFits megabyte := by
    unfold MapFits
    decide
  have pages : (vmBootstrap megabyte).1.pageNum.toNat = 256 := by
    decide
  have first : (vmBootstrap megabyte).1.firstaddr = 0x23000#32 := by
    decide
  obtain ⟨coremap, size, readable, fresh, entries, behind⟩ :=
    boot_coremap megabyte fits 510 (fun _ => ⟨none, 0#32, 0#32, .free⟩) (by decide)
  rw [pages] at size
  rw [size] at entries behind
  refine ⟨fits, coremap, size, readable, fresh, fun i inside => ?_, behind⟩
  rw [entries i inside, ← first]
  rfl

/-- The last frame lies behind the end of memory; and with one page less the array does
not fit into the page stolen for it either. -/
theorem megabyte_last_entry : megabyte.lastpaddr.toNat % pageSize = 0 ∧ MapFits megabyte ∧
      255 < (vmBootstrap megabyte).1.pageNum.toNat ∧
      ((vmBootstrap megabyte).1.entry 255).pa = 0x122000#32 ∧ megabyte.lastpaddr = 0x100000#32 ∧
      ¬ EntrySound megabyte (vmBootstrap megabyte).1 255 ∧
      ¬ ArrayInside (vmBootstrap (ramBootstrap 0xff000#32 0x80020000#32)).1 := by
  refine ⟨by decide, by unfold MapFits; decide, by decide, by decide, by decide, ?_, ?_⟩
  · intro sound
    exact absurd sound.below (by decide)
  · unfold ArrayInside
    decide

end Os161.Vm
