import Os161.Vm.AsCopy
import Mathlib.Algebra.Group.Nat.Defs

/-!
# Regions of a program

`load_elf` passes the start and the size of each loadable segment on to
`as_define_region`, and `vm_fault` compares a page with what that has stored. All sums
are of 32 bits, and the base zero means that there is no region yet.
-/
namespace Os161.Vm

open Os161.Library Os161.Library.Program

/-- `p_vaddr` and `p_memsz` of a program header. -/
structure Segment where
  vaddr : BitVec 32
  sz : BitVec 32
deriving DecidableEq

/-- The base and the number of pages `as_define_region` stores. -/
def Segment.slot (segment : Segment) : BitVec 32 × BitVec 32 :=
  (segment.vaddr &&& pageFrame, regionPages segment.vaddr segment.sz)

/-- Where the pages of a segment end. -/
def Segment.top (segment : Segment) : Nat :=
  segment.slot.1.toNat + segment.slot.2.toNat * 4096

/-- No address is in the pages of both segments. -/
def Segment.Apart (first second : Segment) : Prop :=
  ∀ address, ¬ ((first.slot.1.toNat ≤ address ∧ address < first.top) ∧
    second.slot.1.toNat ≤ address ∧ address < second.top)

/-- The two regions of an address space. -/
def AddrSpace.slots (space : AddrSpace) : List (BitVec 32 × BitVec 32) :=
  [(space.asVbase1, space.asNpages1), (space.asVbase2, space.asNpages2)]

/-- The range check of `vm_fault` looks at the two regions and then at the stack. -/
theorem in_range_iff (space : AddrSpace) (page : BitVec 32) :
    (space.regionPaddr page).isSome ↔
      (∃ slot ∈ space.slots, page ≥ slot.1 ∧ page < slot.1 + slot.2 * 4096#32) ∨
        page ≥ userStack - stackPages * 4096#32 ∧ page < userStack := by
  simp only [AddrSpace.slots, AddrSpace.regionPaddr, List.mem_cons, List.not_mem_nil, or_false,
    exists_eq_or_imp, exists_eq_left]
  split_ifs <;> simp_all

/-- The calls of `as_define_region` for the segments of a file. -/
def defineRegions (space : AddrSpace) (segments : List Segment) : Option AddrSpace :=
  segments.foldlM (fun space segment => asDefineRegion space segment.vaddr segment.sz) space

/-- Every byte of the segments is on a page that passes the range check, and the regions are
below the top of the stack and apart. -/
structure Covered (segments : List Segment) (space : AddrSpace) : Prop where
  inside : ∀ segment ∈ segments, ∀ address : BitVec 32, segment.vaddr.toNat ≤ address.toNat →
    address.toNat < segment.vaddr.toNat + segment.sz.toNat →
      (space.regionPaddr (address &&& pageFrame)).isSome
  below : ∀ segment ∈ segments, segment.top ≤ userStack.toNat
  apart : segments.Pairwise Segment.Apart

/-- The segments are in user space and apart, and one with a byte in page zero is the last:
its base is zero, which means to the next call that the region is free. -/
structure Placed (segments : List Segment) : Prop where
  below : ∀ segment ∈ segments, segment.vaddr.toNat + segment.sz.toNat ≤ userStack.toNat
  last : ∀ segment ∈ segments, segment.sz.toNat ≠ 0 →
    4096 ≤ segment.vaddr.toNat ∨ segments.getLast? = some segment
  apart : segments.Pairwise Segment.Apart

theorem pages_toNat (segment : Segment) : segment.slot.2.toNat =
      (segment.sz.toNat + segment.vaddr.toNat % 4096 + 4095) % 2 ^ 32 / 4096 := by
  have rounded : segment.sz + (segment.vaddr &&& ~~~pageFrame) + 4096#32 - 1#32 =
      segment.sz + (segment.vaddr &&& ~~~pageFrame) + 4095#32 := by
    bv_omega
  simp only [Segment.slot, regionPages, rounded, BitVec.toNat_udiv, masked_toNat, BitVec.toNat_add,
    offset_toNat, BitVec.toNat_ofNat, Nat.reducePow, Nat.reduceMod]
  omega

theorem top_eq (segment : Segment) : segment.top = segment.vaddr.toNat / 4096 * 4096 +
    (segment.sz.toNat + segment.vaddr.toNat % 4096 + 4095) % 2 ^ 32 / 4096 * 4096 := by
  rw [Segment.top, pages_toNat]
  simp only [Segment.slot, masked_toNat]

/-- What is in the two regions after the calls for some segments. -/
structure Stored (segments : List Segment) (space : AddrSpace) : Prop where
  based : ∀ segment ∈ segments, segment.slot.1 ≠ 0#32 → segment.slot ∈ space.slots
  newest : ∀ segment ∈ segments.getLast?, segment.slot ∈ space.slots
  only : ∀ slot ∈ space.slots, slot.2 ≠ 0#32 → ∃ segment ∈ segments, slot = segment.slot ∧
    (slot.1 = 0#32 → segments.getLast? = some segment)
  inOrder : ∀ first second, space.slots = [first, second] → first.1 = 0#32 → second = (0#32, 0#32)

/-- A region that has a base stays, and the new one goes where there is none. -/
theorem Stored.define {space after : AddrSpace} {segments : List Segment} {segment : Segment}
    (stored : Stored segments space)
    (accepted : asDefineRegion space segment.vaddr segment.sz = some after) :
    Stored (segments ++ [segment]) after := by
  obtain ⟨based, -, only, inOrder⟩ := stored
  have shown : ∃ first second, space.slots = [first, second] ∧
      (first.1 = 0#32 ∧ after.slots = [segment.slot, second] ∨
        first.1 ≠ 0#32 ∧ second.1 = 0#32 ∧ after.slots = [first, segment.slot]) := by
    refine ⟨_, _, rfl, ?_⟩
    unfold asDefineRegion at accepted
    split_ifs at accepted with first second <;> cases accepted
    · exact Or.inl ⟨first, rfl⟩
    · exact Or.inr ⟨first, second, rfl⟩
  obtain ⟨first, second, was, now⟩ := shown
  constructor
  · grind
  · grind
  · grind
  · grind

theorem stored_of_accepted {space after : AddrSpace} {segments : List Segment}
    (accepted : defineRegions space.cleared segments = some after) : Stored segments after := by
  induction segments using List.reverseRecOn generalizing after with
  | nil =>
    cases accepted
    refine ⟨by simp, by simp, by simp [AddrSpace.slots, AddrSpace.cleared], ?_⟩
    rintro _ _ ⟨⟩ -
    rfl
  | append_singleton segments segment ih =>
    rw [defineRegions, List.foldlM_append] at accepted
    obtain ⟨middle, earlier, last⟩ := Option.bind_eq_some_iff.mp accepted
    have taken : asDefineRegion middle segment.vaddr segment.sz = some after := by
      simpa using last
    exact (ih earlier).define taken

section

variable {space after : AddrSpace} {segments : List Segment}
  (accepted : defineRegions space.cleared segments = some after)

include accepted

/-- Where every region ends below the top of the stack, so does what passes the check, and
page zero passes it only for the last segment. -/
theorem in_range_below (below : ∀ segment ∈ segments, segment.top ≤ userStack.toNat)
    {page : BitVec 32} (inRange : (after.regionPaddr page).isSome) :
    page.toNat < userStack.toNat ∧ (page.toNat = 0 → ∃ segment,
      segments.getLast? = some segment ∧ segment.slot.1 = 0#32 ∧ segment.slot.2 ≠ 0#32) := by
  rcases (in_range_iff _ _).mp inRange with ⟨slot, member, low, high⟩ | ⟨low, high⟩
  · have some_ : slot.2 ≠ 0#32 := by
      intro none_
      rw [none_, BitVec.zero_mul, BitVec.add_zero] at high
      exact BitVec.not_lt.mpr low high
    obtain ⟨segment, listed, rfl, last⟩ := (stored_of_accepted accepted).only slot member some_
    have ends := below segment listed
    rw [ge_iff_le, BitVec.le_def] at low
    rw [BitVec.lt_def, BitVec.toNat_add, BitVec.toNat_mul] at high
    refine ⟨?_, fun zero => ?_⟩
    · simp only [Segment.top, BitVec.toNat_ofNat] at ends high ⊢
      omega
    · have based : segment.slot.1 = 0#32 := BitVec.eq_of_toNat_eq (by simp; omega)
      exact ⟨segment, last based, based, some_⟩
  · have first := BitVec.le_def.mp low
    refine ⟨BitVec.lt_def.mp high, fun zero => absurd first ?_⟩
    rw [zero]
    decide

/-- The regions of a program cover its segments, below the top of the stack and apart,
exactly if the segments themselves are in user space and apart and none but the last has a
byte in page zero. Neither `load_elf` nor `as_define_region` looks at that.

Proof: a byte at or above the top of the stack is on no page that passes, so no sum wraps;
and only the last segment can leave a region with the base zero. Conversely the region of a
segment is stored and kept, as long as its base is not zero or nothing is stored after it. -/
theorem regions_covered_iff : Covered segments after ↔ Placed segments := by
  have stored := stored_of_accepted accepted
  constructor
  · rintro ⟨inside, below, apart⟩
    have bounded (segment : Segment) (listed : segment ∈ segments) (address : BitVec 32) :=
      fun low high => in_range_below accepted below (inside segment listed address low high)
    simp only [masked_toNat] at bounded
    have ended (segment : Segment) (listed : segment ∈ segments) :
        segment.vaddr.toNat + segment.sz.toNat ≤ userStack.toNat := by
      have ends := below segment listed
      rw [top_eq] at ends
      have start := segment.vaddr.isLt
      simp only [BitVec.toNat_ofNat] at *
      by_contra beyond
      by_cases empty : segment.sz.toNat = 0
      · omega
      · by_cases high : 2 ^ 31 ≤ segment.vaddr.toNat
        · have := (bounded segment listed segment.vaddr (Nat.le_refl _) (by omega)).1
          omega
        · have := (bounded segment listed (BitVec.ofNat 32 (2 ^ 31)) (by simp; omega)
            (by simp; omega)).1
          simp at this
    refine ⟨ended, fun segment listed some_ => ?_, apart⟩
    by_contra zero
    rw [not_or] at zero
    obtain ⟨other, last, based, pages⟩ :=
      (bounded segment listed segment.vaddr (Nat.le_refl _) (by omega)).2 (by omega)
    obtain ⟨earlier, rfl⟩ := List.getLast?_eq_some_iff.mp last
    have before : segment ∈ earlier := by
      rcases List.mem_append.mp listed with before | final
      · exact before
      · rw [List.mem_singleton.mp final] at zero
        exact absurd last zero.2
    -- both regions start at zero and have a page
    refine (List.pairwise_append.mp apart).2.2 segment before other (by simp) 0 ⟨?_, ?_⟩
    · have bound := ended segment listed
      rw [top_eq, Segment.slot, masked_toNat]
      simp only [BitVec.toNat_ofNat] at bound ⊢
      omega
    · have page : other.slot.2.toNat ≠ 0 := fun none_ => pages (BitVec.eq_of_toNat_eq none_)
      rw [Segment.top, based]
      simp only [BitVec.toNat_ofNat]
      omega
  · rintro ⟨below, last, apart⟩
    have ends (segment : Segment) (listed : segment ∈ segments) :
        segment.vaddr.toNat + segment.sz.toNat ≤ segment.top ∧ segment.top ≤ userStack.toNat := by
      have bound := below segment listed
      rw [top_eq]
      simp only [BitVec.toNat_ofNat] at bound ⊢
      omega
    refine ⟨fun segment listed address low high => (in_range_iff _ _).mpr
        (Or.inl ⟨segment.slot, ?_, ?_, ?_⟩), fun segment listed => (ends segment listed).2, apart⟩
    · rcases last segment listed (by omega) with start | newest
      · refine stored.based segment listed fun zero => ?_
        have base := masked_toNat segment.vaddr
        rw [show segment.vaddr &&& pageFrame = 0#32 from zero] at base
        simp at base
        omega
      · exact stored.newest segment newest
    · rw [ge_iff_le, BitVec.le_def, masked_toNat, Segment.slot, masked_toNat]
      omega
    · obtain ⟨covers, stops⟩ := ends segment listed
      simp only [Segment.top] at covers stops
      rw [BitVec.lt_def, BitVec.toNat_add, BitVec.toNat_mul, masked_toNat]
      simp only [BitVec.toNat_ofNat] at stops ⊢
      omega

end

/-- A text and a data segment of the usual layout. -/
theorem usual_layout_covered : ∃ after,
    defineRegions emptySpace.cleared [⟨0x400000#32, 0x1234#32⟩, ⟨0x10000010#32, 0x80#32⟩] = some after ∧
      Covered [⟨0x400000#32, 0x1234#32⟩, ⟨0x10000010#32, 0x80#32⟩] after := by
  refine ⟨_, rfl, (regions_covered_iff rfl).mpr ⟨by decide, by decide, ?_⟩⟩
  refine List.pairwise_pair.mpr fun address => ?_
  simp only [top_eq, Segment.slot, masked_toNat, BitVec.toNat_ofNat]
  omega

/-- A segment of nearly 2^32 bytes gets a region without a page. -/
theorem largest_segment_uncovered : ∃ after,
    defineRegions emptySpace.cleared [⟨0x400000#32, 0xffffffff#32⟩] = some after ∧
      ¬ Covered [⟨0x400000#32, 0xffffffff#32⟩] after := by
  refine ⟨{ emptySpace.cleared with asVbase1 := 0x400000#32, asNpages1 := 0#32 }, rfl, fun covered => ?_⟩
  exact absurd (covered.inside _ (List.mem_singleton_self _) 0x400000#32 (by decide) (by decide))
    (by decide)

end Os161.Vm
