import Os161.Vfs.Paths

/-!
# The prefix of a path

`getdevice` works on the memory of the string: it looks for the first colon or slash, ends the
string at a colon that follows a name, and moves an index past the slashes behind the prefix.
What it finds is a matter of the string alone, and its assertions on the path never fail.
-/
namespace Os161.Vfs.Paths

open Os161.Kern Os161.Library.Program Os161.Vfs.Devices

/-- The rest of a path, and the vnode its lookup begins with. -/
def lookupFrom (start : VfsProgram Vnode) (subpath : Name) : VfsProgram (Name × Vnode) := do
  let startvn ← start
  pure (subpath, startvn)

/-- A character that ends no prefix. -/
def plain (byte : Byte) : Bool := byte ≠ colonByte ∧ byte ≠ slashByte

/-- What a path means, by its first colon or slash. -/
def meaning (path : Name) : VfsProgram (Name × Vnode) :=
  let name := path.takeWhile plain
  match path.dropWhile plain with
  | [] => lookupFrom vfsGetcurdir path
  | mark :: rest =>
    let subpath := rest.dropWhile (· = slashByte)
    if mark = colonByte then
      lookupFrom (if name = [] then getdeviceCurrent else vfsGetroot name) subpath
    else if name = [] then lookupFrom getdeviceBoot subpath
    else lookupFrom vfsGetcurdir path

theorem locate_append {name : Name} (all : ∀ byte ∈ name, plain byte) (rest : Name) (i : Nat) :
    locate (name ++ rest) i = locate rest (i + name.length) := by
  induction name generalizing i with
  | nil => rfl
  | cons byte name ih =>
    obtain ⟨first, others⟩ := List.forall_mem_cons.mp all
    obtain ⟨noColon, noSlash⟩ := of_decide_eq_true first
    rw [List.cons_append, locate, if_neg noColon, if_neg noSlash, ih others, List.length_cons,
      Nat.add_assoc, Nat.add_comm 1]

theorem drop_skip_slashes (path : Name) (index : Nat) :
    path.drop (skipSlashes path index + 1) = (path.drop (index + 1)).dropWhile (· = slashByte) := by
  fun_induction skipSlashes path index with
  | case1 index more ih =>
    obtain ⟨inside, slash⟩ := List.getElem?_eq_some_iff.mp more
    rw [ih, List.drop_eq_getElem_cons inside, List.dropWhile_cons_of_pos (by simp [slash])]
  | case2 index last =>
    cases rest : path.drop (index + 1) with
    | nil => rfl
    | cons byte rest' =>
      have head : path[index + 1]? = some byte := by
        rw [← List.head?_drop, rest, List.head?_cons]
      rw [List.dropWhile_cons_of_neg]
      simpa [head] using last

theorem located {name : Name} (all : ∀ byte ∈ name, plain byte) (mark : Byte) (rest : Name) :
    locate (name ++ mark :: rest) 0 = if mark = colonByte then (some name.length, none)
      else if mark = slashByte then (none, some name.length) else locate rest (name.length + 1) := by
  rw [locate_append all, Nat.zero_add]
  rfl

theorem colon_in_place {name : Name} (string : 0 ∉ name) (all : ∀ byte ∈ name, plain byte)
    (rest : Name) : getdevice (name ++ colonByte :: rest) =
      lookupFrom (if name = [] then getdeviceCurrent else vfsGetroot name)
        (rest.dropWhile (· = slashByte)) := by
  have found := located all colonByte rest
  rw [if_pos rfl] at found
  cases name with
  | nil =>
    simp only [getdevice, found]
    funext layer
    refine (run_bind_done (check_passes (Or.inl rfl))).trans ?_
    refine (run_bind_done (check_passes rfl)).trans ?_
    rw [drop_skip_slashes]
    rfl
  | cons byte name =>
    have cut : (byte :: name ++ colonByte :: rest).set (name.length + 1) 0 =
        byte :: name ++ 0 :: rest := by
      simp
    have nonzero (other : Byte) (member : other ∈ byte :: name) : decide (other ≠ 0) = true :=
      decide_eq_true fun zero => string (zero ▸ member)
    have ended : (byte :: name ++ 0 :: rest).takeWhile (· ≠ 0) = byte :: name := by
      rw [List.takeWhile_append_of_pos nonzero]
      simp
    have behind : (byte :: name ++ 0 :: rest).drop (name.length + 2) = rest := by
      simp
    simp only [getdevice, found, List.length_cons, cut, drop_skip_slashes, ended, behind]
    rfl

theorem slash_in_place (rest : Name) : getdevice (slashByte :: rest) =
    lookupFrom getdeviceBoot (rest.dropWhile (· = slashByte)) := by
  funext layer
  refine (run_bind_done (check_passes (Or.inr rfl))).trans ?_
  rw [drop_skip_slashes]
  rfl

/-- The four prefixes, once the first colon or slash has been found. -/
theorem in_place_eq_meaning (path : Name) (string : 0 ∉ path) :
    getdevice path = meaning path := by
  have whole := List.takeWhile_append_dropWhile (p := plain) (l := path)
  have all : ∀ byte ∈ path.takeWhile plain, plain byte := List.all_eq_true.mp List.all_takeWhile
  have stops := List.head?_dropWhile_not plain path
  unfold meaning
  generalize path.takeWhile plain = name at *
  cases tail : path.dropWhile plain with
  | nil =>
    have found : locate path 0 = (none, none) := by
      rw [← whole, tail, locate_append all]
      rfl
    simp only [getdevice, found]
    rfl
  | cons mark rest =>
    rw [tail] at whole stops
    subst whole
    dsimp only
    obtain rfl | colon := eq_or_ne mark colonByte
    · rw [if_pos rfl]
      exact colon_in_place (fun zero => string (List.mem_append_left _ zero)) all rest
    have slash : mark = slashByte := by
      by_contra other
      exact of_decide_eq_false stops ⟨colon, other⟩
    subst slash
    rw [if_neg colon]
    cases name with
    | nil => exact slash_in_place rest
    | cons byte name =>
      simp only [getdevice, located all, if_neg colon]
      rfl

/-- `getdevice` takes every string as its first colon or slash says, and slashes that are added
behind a prefix change nothing. -/
theorem getdevice_by_first_mark : (∀ path : Name, 0 ∉ path → getdevice path = meaning path) ∧
      ∀ (name : Name) (mark : Byte) (rest : Name) (slashes : Nat), 0 ∉ name →
        (∀ byte ∈ name, plain byte) → mark = colonByte ∨ name = [] ∧ mark = slashByte →
        getdevice (name ++ mark :: (List.replicate slashes slashByte ++ rest)) =
          getdevice (name ++ mark :: rest) := by
  refine ⟨in_place_eq_meaning, fun name mark rest slashes string all marked => ?_⟩
  have skipped : (List.replicate slashes slashByte ++ rest).dropWhile (· = slashByte) =
      rest.dropWhile (· = slashByte) :=
    List.dropWhile_append_of_pos (fun byte member => by simp [List.eq_of_mem_replicate member])
  rcases marked with rfl | ⟨rfl, rfl⟩
  · rw [colon_in_place string all, colon_in_place string all, skipped]
  · rw [List.nil_append, List.nil_append, slash_in_place, slash_in_place, skipped]

end Os161.Vfs.Paths
