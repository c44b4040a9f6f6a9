import Mathlib.Data.List.ReduceOption

/-!
# Listing the semfs directory

The entries are an array with holes. The offset of a listing is an index into it, and `uiomove`
advances it by the length of a name. The buffer of the caller has room for every name. All the
names are in memory, so no offset reaches 2 ^ 32.
-/
namespace Os161.Semfs.Listing

/-- The bytes of a name, without the null byte. -/
abbrev Name : Type := List (BitVec 8)

/-- `semfs_dents`. The entry of a semaphore that has been removed is NULL. -/
abbrev Dents : Type := List (Option Name)

/-- The names `.` and `..`. -/
def dots : List Name := [[0x2e], [0x2e, 0x2e]]

section

variable (dents : Dents)

/-- `semfs_creat`, unless it fails before it has an entry. It may then get no vnode. -/
def creat (name : Name) (vnode : Bool) : Dents :=
  if name ∈ dots ∨ some name ∈ dents then dents
  else
    let dent := if vnode then some name else none
    match dents.findIdx? Option.isNone with
    | some empty => dents.set empty dent
    | none => dents ++ [dent]

def remove (name : Name) : Dents :=
  if name ∈ dots then dents else dents.set (dents.idxOf (some name)) none

/-- What `semfs_getdirentry` moves, unless it goes through NULL. -/
def getdirentry (pos : Nat) : Option Name :=
  match dents[pos]? with
  | none => some []
  | some dent => dent

/-- Calls until one moves nothing, each at the offset the last one has left. -/
def listing : Nat → Nat → Option (List Name)
  | 0, _ => none
  | calls + 1, pos =>
    match getdirentry dents pos with
    | none => none
    | some [] => some []
    | some name => (listing calls (pos + name.length)).map (name :: ·)

end

/-- What is listed behind the entries that an offset passes over. -/
def namesFrom : Nat → Dents → Option (List Name)
  | _, [] => some []
  | pos + 1, _ :: rest => namesFrom pos rest
  | 0, none :: _ => none
  | 0, some [] :: _ => some []
  | 0, some (first :: name) :: rest => (namesFrom name.length rest).map ((first :: name) :: ·)

/-- The entries that are passed over are holes, and the one behind them is not. Its name is as
long as the way to the next one. -/
def Listable : Nat → Dents → Prop
  | _, [] => True
  | pos + 1, dent :: rest => dent = none ∧ Listable pos rest
  | 0, none :: _ | 0, some [] :: _ => False
  | 0, some (_ :: name) :: rest => Listable name.length rest

variable (dents : Dents)

theorem names_from_eq (pos : Nat) : namesFrom pos dents =
    match getdirentry dents pos with
    | none => none
    | some [] => some []
    | some name => (namesFrom (pos + name.length) dents).map (name :: ·) := by
  induction dents generalizing pos with
  | nil => rfl
  | cons dent rest ih =>
    cases pos with
    | zero => rcases dent with _ | _ | _ <;> simp [namesFrom, getdirentry]
    | succ pos => simpa [namesFrom, getdirentry, Nat.succ_add] using ih pos

theorem listing_eq (calls pos : Nat) (enough : dents.length ≤ pos + calls) :
    listing dents (calls + 1) pos = namesFrom pos dents := by
  induction calls generalizing pos with
  | zero =>
    have ended : getdirentry dents pos = some [] := by
      rw [getdirentry, List.getElem?_eq_none (show dents.length ≤ pos from enough)]
    rw [names_from_eq, listing, ended]
  | succ calls ih =>
    rw [names_from_eq, listing]
    rcases getdirentry dents pos with _ | _ | ⟨first, name⟩
    · rfl
    · rfl
    · have next := ih (pos + (first :: name).length) (by rw [List.length_cons]; omega)
      simp only [next]

variable {dents}

theorem names_from_sublist (pos : Nat) (names : List Name)
    (listed : namesFrom pos dents = some names) : names.Sublist dents.reduceOption := by
  fun_induction namesFrom generalizing names with
  | case1 => simp_all
  | case2 pos dent rest ih =>
    cases dent with
    | none => exact ih names listed
    | some => exact (ih names listed).cons _
  | case3 => cases listed
  | case4 =>
    cases listed
    exact List.nil_sublist _
  | case5 rest first name ih =>
    obtain ⟨others, later, rfl⟩ := Option.map_eq_some_iff.mp listed
    exact (ih others later).cons_cons _

theorem names_complete_iff (pos : Nat) :
    (∃ names, namesFrom pos dents = some names ∧ names.Perm dents.reduceOption) ↔
      Listable pos dents := by
  fun_induction Listable with
  | case1 => simp [namesFrom]
  | case2 pos dent rest ih =>
    cases dent with
    | none => simpa [namesFrom] using ih
    | some name =>
      refine iff_of_false ?_ (by simp)
      rintro ⟨names, listed, complete⟩
      have fewer := (names_from_sublist pos names listed).length_le
      have all := complete.length_eq
      rw [List.reduceOption_cons_of_some, List.length_cons] at all
      omega
  | case3 | case4 => simp [namesFrom]
  | case5 => simpa [namesFrom]

/-- A listing has every name once and ends, if and only if the holes fit the names. -/
theorem listing_complete_iff (dents : Dents) :
    (∃ names, listing dents (dents.length + 1) 0 = some names ∧ names.Perm dents.reduceOption) ↔
      Listable 0 dents := by
  rw [listing_eq dents dents.length 0 (Nat.le_add_left _ _)]
  exact names_complete_iff 0

/-- Of two semaphores, `ab` and `c`, one is listed, and none if the first is removed. -/
theorem second_name_skipped :
    let dents := creat (creat [] [0x61, 0x62] true) [0x63] true
    dents.reduceOption = [[0x61, 0x62], [0x63]] ∧ listing dents 3 0 = some [[0x61, 0x62]] ∧
      getdirentry (remove dents [0x61, 0x62]) 0 = none := by
  decide

end Os161.Semfs.Listing
