import Os161.Malloc.Allocate

/-!
# Freeing

What `free` does to the blocks: the block is marked free and wiped, merged with the one
above it, and what comes of that is merged with the one below. Afterwards no two
neighbours are free again.
-/
namespace Os161.Malloc

open Os161.Library Os161.Library.Layout Os161.Library.Program

variable {Kernel : Type}

/-- Two edits after which no more blocks are in use than in between. -/
theorem Edited.trans {first second third : Heap Kernel} {blocks others : List Block}
    (edited : Edited first second blocks) (more : Edited second third others)
    (fewer : ∀ a len, Used first.heapbase others a len → Used first.heapbase blocks a len) :
    Edited first third others where
  heapbase := more.heapbase.trans edited.heapbase
  heaptop := more.heaptop.trans edited.heaptop
  kernel := more.kernel.trans edited.kernel
  tiles := by
    rw [← edited.heapbase, ← edited.heaptop]
    exact more.tiles
  kept := by
    intro a block x placed used low high
    obtain ⟨other, other_placed, other_used, same⟩ := fewer a block.len ⟨block, placed, used, rfl⟩
    rw [more.kept a block x (edited.heapbase ▸ placed) used low high]
    exact edited.kept a other x other_placed other_used low (same ▸ high)

variable {before after : List Block} {heap : Heap Kernel} {block : Block}

theorem wipe_edited (shaped : Shaped heap (before ++ block :: after)) (free : block.used = false) :
    Edited heap (heap.wipe (heap.behind before + mblocksize) (block.len - mblocksize))
      (before ++ block :: after) := by
  obtain ⟨below, header, whole, aligned, above⟩ := (tiles_append).mp shaped.tiles
  refine ⟨rfl, rfl, rfl, (tiles_append).mpr ⟨below.agree (fun a _ high => ?_), ?_, whole,
    aligned, above.agree (fun a low _ => ?_)⟩, kept_of_changes (fun x changed => Or.inr ?_)⟩
  · have high : a < heap.behind before := high
    exact wipe_outside _ (by omega)
  · rw [← header]
    refine wipe_outside _ (Or.inl ?_)
    show heap.behind before < heap.behind before + mblocksize
    unfold mblocksize
    omega
  · have low : heap.behind before + block.len ≤ a := low
    exact wipe_outside _ (by omega)
  · refine ⟨heap.behind before, block, (placed_iff _ _ _ _ _).mpr ⟨before, after, rfl, rfl⟩, free, ?_⟩
    by_contra outside
    refine changed (wipe_outside _ ?_)
    omega

/-- A free block between blocks in use or the ends of the heap, but for the one below. -/
structure Loosened (heap result : Heap Kernel) (before : List Block) (block : Block)
    (rest blocks : List Block) : Prop where
  edited : Edited heap result (before ++ block :: rest)
  free : block.used = false
  above : Apart rest
  next : ∀ upper ∈ rest.head?, upper.used = true
  topped : 2 * mblocksize ≤ lastLen 0 (before ++ block :: rest)
  used : ∀ a len, Used heap.heapbase (before ++ block :: rest) a len ↔
    Used heap.heapbase blocks a len

/-- Joining two free blocks keeps what is in use. -/
theorem used_joined (base : Nat) (before rest : List Block) {lower upper : Block}
    (lower_free : lower.used = false) (upper_free : upper.used = false) (a len : Nat) :
    Used base (before ++ { len := lower.len + upper.len, used := false } :: rest) a len ↔
      Used base (before ++ lower :: upper :: rest) a len := by
  simp [used_append, used_cons, lower_free, upper_free, Nat.add_assoc]

theorem last_len_mono (blocks : List Block) {prev other : Nat} (shorter : prev ≤ other) :
    lastLen prev blocks ≤ lastLen other blocks := by
  cases blocks with
  | nil => exact shorter
  | cons block rest => exact Nat.le_refl _

/-- Merging a free block with the one above it, if there is one. -/
theorem merge_above_ensures {middle : Heap Kernel} {old : List Block} (blocks : List Block)
    (shaped : Shaped heap old) (edited : Edited heap middle (before ++ block :: after))
    (free : block.used = false) (above : Apart after)
    (topped : 2 * mblocksize ≤ lastLen 0 (before ++ block :: after))
    (used : ∀ a len, Used heap.heapbase (before ++ block :: after) a len ↔
      Used heap.heapbase blocks a len) :
    Succeeds (onlyIf (middle.mNext (middle.behind before) ≠ middle.heaptop)
        (mallocTrymerge (middle.behind before) (middle.mNext (middle.behind before)))) middle
      (fun _ result => ∃ united rest, Loosened heap result before united rest blocks) := by
  have middle_shaped := edited.shaped shaped
  rw [middle_shaped.next]
  have top_is := middle_shaped.tiles.top_eq
  rw [extent_append] at top_is
  cases after with
  | nil =>
    refine ensures_only_if (fun below => absurd ?_ below) (fun _ => ?_)
    · rw [top_is]
      unfold Heap.behind
      simp only [extent]
      omega
    · exact ⟨block, [], edited, free, above, fun _ member => (by cases member), topped, used⟩
  | cons upper rest =>
    refine ensures_only_if (fun _ => ?_) (fun at_top => absurd ?_ at_top)
    · refine (trymerge_ensures middle middle_shaped).on_return ?_
      intro _ result merged
      unfold Block.merge at merged
      by_cases upper_used : upper.used = true
      · rw [if_pos (Or.inr upper_used)] at merged
        refine ⟨block, upper :: rest, edited.trans merged (fun _ _ in_use => in_use), free, above, ?_,
          topped, used⟩
        intro other member
        cases member
        exact upper_used
      · have upper_free : upper.used = false := by simpa using upper_used
        rw [if_neg (by simp [free, upper_free])] at merged
        obtain ⟨next, above⟩ := List.isChain_cons.mp above
        have same := used_joined heap.heapbase before rest free upper_free
        refine ⟨{ len := block.len + upper.len, used := false }, rest,
          edited.trans merged (fun a len => (same a len).mp), rfl, above, ?_, ?_,
          fun a len => (same a len).trans (used a len)⟩
        · intro other member
          rcases next other member with in_use | in_use
          · rw [upper_free] at in_use
            cases in_use
          · exact in_use
        · rw [last_len_append] at topped ⊢
          exact Nat.le_trans topped (last_len_mono rest (Nat.le_add_left _ _))
    · rw [top_is]
      simp only [extent]
      obtain ⟨_, _, _, _, upper_whole, _⟩ := ((tiles_append).mp middle_shaped.tiles).2
      unfold Heap.behind
      unfold mblocksize at upper_whole
      omega

/-- Merging with the block below, if there is one, makes the heap tidy again. -/
theorem merge_below_ensures {middle : Heap Kernel} {rest blocks old : List Block}
    (shaped : Shaped heap old) (loosened : Loosened heap middle before block rest blocks)
    (below : Apart before) :
    Succeeds (onlyIf (middle.behind before ≠ middle.heapbase)
        (mallocTrymerge (middle.mPrev (middle.behind before)) (middle.behind before))) middle
      (fun _ result => ∃ others, Edited heap result others ∧ Apart others ∧
        2 * mblocksize ≤ lastLen 0 others ∧
        ∀ a len, Used heap.heapbase others a len ↔ Used heap.heapbase blocks a len) := by
  obtain ⟨edited, free, above, next, topped, used⟩ := loosened
  have middle_shaped := edited.shaped shaped
  have upper_apart : Apart (block :: rest) :=
    List.isChain_cons.mpr ⟨fun upper member => Or.inr (next upper member), above⟩
  rcases List.eq_nil_or_concat' before with rfl | ⟨lower, last, rfl⟩
  · refine ensures_only_if (fun inside => absurd ?_ inside) (fun _ => ?_)
    · rfl
    · exact ⟨block :: rest, edited, upper_apart, topped, used⟩
  have whole_list : lower ++ [last] ++ block :: rest = lower ++ last :: block :: rest := by
    rw [List.append_assoc]
    rfl
  have header := middle_shaped.block.1
  rw [whole_list] at edited topped used middle_shaped
  obtain ⟨_, whole, aligned, within, small⟩ := middle_shaped.block
  have behind : middle.behind (lower ++ [last]) = middle.behind lower + last.len :=
    middle.behind_append lower [last]
  have prev_is : middle.mPrev (middle.behind (lower ++ [last])) = middle.behind lower := by
    unfold Heap.mPrev
    rw [header, last_len_append]
    show (_ + sizeRange - mPrevoff (block.header last.len)) % sizeRange = _
    rw [prevoff_header block aligned small, behind]
    have top_small := middle_shaped.small
    unfold sizeRange at *
    omega
  rw [prev_is, behind]
  refine ensures_only_if (fun _ => ?_) (fun at_base => absurd ?_ at_base)
  · refine (trymerge_ensures middle middle_shaped).on_return ?_
    intro _ result merged
    unfold Block.merge at merged
    obtain ⟨lower_apart, joint, _⟩ := (apart_append_cons).mp below
    by_cases last_used : last.used = true
    · rw [if_pos (Or.inl last_used)] at merged
      refine ⟨lower ++ last :: block :: rest, edited.trans merged (fun _ _ in_use => in_use), ?_, topped,
        used⟩
      exact (apart_append_cons).mpr ⟨lower_apart, fun _ _ => Or.inr last_used, upper_apart,
        fun _ _ => Or.inl last_used⟩
    · have last_free : last.used = false := by simpa using last_used
      rw [if_neg (by simp [free, last_free])] at merged
      have same := used_joined heap.heapbase lower rest last_free free
      refine ⟨lower ++ { len := last.len + block.len, used := false } :: rest,
        edited.trans merged (fun a len => (same a len).mp), ?_, ?_,
        fun a len => (same a len).trans (used a len)⟩
      · refine (apart_append_cons).mpr ⟨lower_apart, ?_, above,
          fun upper member => Or.inr (next upper member)⟩
        intro other member
        rcases joint other member with in_use | in_use
        · exact Or.inl in_use
        · rw [last_free] at in_use
          cases in_use
      · rw [last_len_append] at topped ⊢
        exact Nat.le_trans topped (last_len_mono rest (Nat.le_add_left _ _))
  · unfold Heap.behind
    unfold mblocksize at whole
    omega

/-- A block is not in use any more, and the others are as before. -/
theorem used_without (shaped : Shaped heap (before ++ block :: after)) (a len : Nat) :
    Used heap.heapbase (before ++ { block with used := false } :: after) a len ↔
      Used heap.heapbase (before ++ block :: after) a len ∧ a ≠ heap.behind before := by
  obtain ⟨_, whole, _⟩ := shaped.block
  obtain ⟨lower, _⟩ := (tiles_append).mp shaped.tiles
  unfold mblocksize at whole
  simp only [used_append, used_cons, Bool.false_eq_true, false_and, false_or]
  constructor
  · rintro (in_lower | in_upper)
    · refine ⟨Or.inl in_lower, ?_⟩
      obtain ⟨other, placed, _⟩ := in_lower
      obtain ⟨_, other_whole, _⟩ := lower.placed placed
      have bounds := placed.bounds
      unfold Heap.behind mblocksize at *
      omega
    · refine ⟨Or.inr (Or.inr in_upper), ?_⟩
      obtain ⟨other, placed, _⟩ := in_upper
      have bounds := placed.bounds
      unfold Heap.behind
      omega
  · rintro ⟨in_lower | ⟨_, here, _⟩ | in_upper, elsewhere⟩
    · exact Or.inl in_lower
    · exact absurd here elsewhere
    · exact Or.inr in_upper

/-- What `free` has done. -/
structure Freed (before after : Heap Kernel) (blocks others : List Block) (place : Nat) : Prop where
  heapbase : after.heapbase = before.heapbase
  heaptop : after.heaptop = before.heaptop
  kernel : after.kernel = before.kernel
  tidy : Tidy after others
  used : ∀ a len, Used before.heapbase others a len ↔ Used before.heapbase blocks a len ∧ a ≠ place
  unwritten : Unwritten before after others

/-- `free` marks the block, fills it and merges it with free neighbours on either side. -/
theorem free_ensures (tidy : Tidy heap (before ++ block :: after)) (in_use : block.used = true) :
    Succeeds (free (heap.behind before + mblocksize)) heap
      (fun _ result => ∃ others,
        Freed heap result (before ++ block :: after) others (heap.behind before)) := by
  obtain ⟨header, whole, aligned, within, small⟩ := tidy.toShaped.block
  obtain ⟨below, _, above, _⟩ := (apart_append_cons).mp tidy.apart
  have positive := tidy.positive
  have top_small := tidy.small
  have topped := tidy.topped (by simp)
  have base_le : heap.heapbase ≤ heap.behind before := Nat.le_add_right _ _
  have not_top : heap.behind before + mblocksize < heap.heaptop := by
    cases after with
    | nil =>
      rw [last_len_append] at topped
      simp only [lastLen] at topped
      unfold mblocksize at *
      omega
    | cons upper rest =>
      obtain ⟨_, _, _, _, upper_whole, _, later⟩ := ((tiles_append).mp tidy.tiles).2
      have top_is := later.top_eq
      unfold Heap.behind mblocksize at *
      omega
  have place : (heap.behind before + mblocksize + sizeRange - mblocksize) % sizeRange =
      heap.behind before := by
    unfold mblocksize sizeRange at *
    omega
  show Ensures False (if heap.behind before + mblocksize = 0 then _ else _) heap _ _
  refine Ensures.bind_done (look_done heap) ?_
  refine Ensures.bind_done (check_passes ⟨by omega, by omega, by omega⟩) ?_
  refine Ensures.bind_done (check_passes ⟨by omega, not_top⟩) ?_
  rw [place]
  have ok : mOk (heap.memory (heap.behind before)) := by
    rw [header]
    exact ok_header block
  have inuse : (heap.memory (heap.behind before)).mhInuse = true := by
    rw [header]
    exact in_use
  have size_is : mSize (heap.memory (heap.behind before)) = block.len - mblocksize := by
    rw [header, size_header whole aligned small]
  have data_is : mData (heap.behind before) = heap.behind before + mblocksize := by
    exact Nat.mod_eq_of_lt (by omega)
  refine Ensures.bind_done (check_passes ok) ?_
  refine Ensures.bind_done (check_passes inuse) ?_
  refine Ensures.bind_done rfl ?_
  rw [size_is, data_is]
  refine Ensures.bind_done rfl ?_
  have marked := mark_edited false tidy.toShaped
  have wiped := wipe_edited (marked.shaped tidy.toShaped) rfl
  have edited := marked.trans wiped (fun _ _ used => used)
  have middle_topped : 2 * mblocksize ≤ lastLen 0 (before ++ { block with used := false } :: after) := by
    rw [last_len_append] at topped ⊢
    exact topped
  refine Ensures.bind_done rfl ?_
  refine Ensures.bind (merge_above_ensures
    (before ++ { block with used := false } :: after) tidy.toShaped edited
    rfl above middle_topped (fun _ _ => Iff.rfl)) ?_
  rintro _ middle ⟨united, rest, loosened⟩
  refine Ensures.bind_done rfl ?_
  have behind : heap.behind before = middle.behind before := by
    unfold Heap.behind
    rw [loosened.edited.heapbase]
  rw [behind]
  refine (merge_below_ensures tidy.toShaped loosened below).on_return ?_
  rintro _ result ⟨others, final, apart, last_large, used⟩
  rw [← behind]
  refine ⟨others, final.heapbase, final.heaptop, final.kernel,
    ⟨final.shaped tidy.toShaped, apart, fun _ => last_large⟩, fun a len => ?_,
    final.unwritten (fun _ _ used => used)⟩
  rw [used]
  exact used_without tidy.toShaped a len

end Os161.Malloc
