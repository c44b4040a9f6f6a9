import Os161.Kern.Uio
import Os161.Library.Runs

/-!
# The table of named devices

The `dev` of `dev:path` is looked up in a table of devices. A device has a name, and if
a file system can be mounted on it also a raw name; a file system that is attached to it
may have a volume name. `vfs_getroot` goes through the table and answers for the first
entry that has the name it was given.

New devices and file systems are added only if none of their names is in the table yet.
A file system that is mounted on a device already there is not looked at: its volume name
enters the table unchecked. As long as volume names are new when they are mounted, no two
entries share a name, and then the order of the table does not matter.
-/
namespace Os161.Vfs.Devices

open Os161.Kern Os161.Library.Runs

/-- The bytes of a C string, without the terminator. -/
abbrev Name := List Byte

/-- The errors of the device table. Those a file system returns are passed on. -/
inductive DeviceError
  | ENOMEM
  | EEXIST
  | ENODEV
  | ENXIO
  | EBUSY
  | EINVAL
  | filesystem (error : Errno)
  deriving DecidableEq

/-- A `struct fs`, as which one it is and what `FSOP_GETVOLNAME` returns for it. -/
structure Fs where
  id : Nat
  volname : Option Name
  deriving DecidableEq

/-- `struct knowndev`. Devices and vnodes are numbered. -/
structure Knowndev where
  name : Name
  rawname : Option Name
  device : Option Nat
  vnode : Nat
  fs : Option Fs
  deriving DecidableEq

/-- `knowndevs`, the `d_devnumber` of each device, and how many vnodes have been
created for devices. -/
structure Table where
  knowndevs : List Knowndev
  devnumber : Nat → Nat
  vnodes : Nat

/-- What `vfs_getroot` comes to: `FSOP_GETROOT` of a file system, the vnode of a device,
an error, or a failed assertion. -/
inductive Answer
  | root (fs : Fs)
  | vnode (vnode : Nat)
  | error (error : DeviceError)
  | assertion
  deriving DecidableEq

/-- The part of a round of `vfs_getroot` after the tests for a file system. -/
def Knowndev.answerDevice (kd : Knowndev) (devname : Name) : Option Answer :=
  if kd.name = devname then
    some (if kd.fs = none ∧ kd.rawname = none ∧ kd.device ≠ none then .vnode kd.vnode
      else .assertion)
  else if kd.rawname = some devname then
    some (if kd.device ≠ none then .vnode kd.vnode else .assertion)
  else none

/-- A round of the loop of `vfs_getroot`: the answer for this entry, or nothing if the
search goes on. -/
def Knowndev.answer (kd : Knowndev) (devname : Name) : Option Answer :=
  match kd.fs with
  | some fs =>
    if kd.name = devname ∨ fs.volname = some devname then some (.root fs)
    else kd.answerDevice devname
  | none =>
    if kd.rawname ≠ none ∧ kd.name = devname then some (.error DeviceError.ENXIO)
    else kd.answerDevice devname

def vfsGetroot (knowndevs : List Knowndev) (devname : Name) : Answer :=
  (knowndevs.findSome? (fun kd => kd.answer devname)).getD (.error .ENODEV)

/-- `mkrawname`: the name followed by `raw`. -/
def mkrawname (name : Name) : Name := name ++ [0x72, 0x61, 0x77]

def samestring : Option Name → Option Name → Bool
  | some a, some b => a = b
  | _, _ => false

def samestring3 (a b c d : Option Name) : Bool :=
  samestring a b || samestring a c || samestring a d

/-- The volume name of the file system of an entry, if there is one. -/
def Knowndev.volname (kd : Knowndev) : Option Name := kd.fs.bind Fs.volname

def badnames (knowndevs : List Knowndev) (n1 n2 n3 : Option Name) : Bool :=
  knowndevs.any (fun kd => samestring3 kd.volname n1 n2 n3 ||
    (samestring3 kd.rawname n1 n2 n3 || samestring3 (some kd.name) n1 n2 n3))

/-- The answers to the allocations of `vfs_doadd`: for the name, the raw name, the vnode,
the entry, and the larger table. -/
structure Memory where
  name : Bool
  rawname : Bool
  vnode : Bool
  knowndev : Bool
  array : Bool

variable {result : Option DeviceError} {devname : Name} {knowndevs : List Knowndev} {kd : Knowndev}
  {after : Table} {index : Nat}

section

variable (table : Table)

/-- `vfs_doadd`. A failure gives everything back. -/
def vfsDoadd (dname : Name) (mountable : Bool) (dev : Option Nat) (fs : Option Fs) (memory : Memory) :
    Option DeviceError × Table :=
  let rawname := if mountable then some (mkrawname dname) else none
  let kd : Knowndev := ⟨dname, rawname, dev, table.vnodes, fs⟩
  if memory.name = false then (some .ENOMEM, table)
  else if mountable = true ∧ memory.rawname = false then (some .ENOMEM, table)
  else if memory.vnode = false then (some .ENOMEM, table)
  else if memory.knowndev = false then (some .ENOMEM, table)
  else if badnames table.knowndevs (some dname) rawname kd.volname = true then
    (some .EEXIST, table)
  else if memory.array = false then (some .ENOMEM, table)
  else (none, {
    knowndevs := table.knowndevs ++ [kd]
    devnumber := fun device =>
      if dev = some device then table.knowndevs.length + 1 else table.devnumber device
    vnodes := table.vnodes + 1 })

def vfsAdddev (devname : Name) (dev : Nat) (mountable : Bool) (memory : Memory) :
    Option DeviceError × Table :=
  vfsDoadd table devname mountable (some dev) none memory

def vfsAddfs (devname : Name) (fs : Fs) (memory : Memory) : Option DeviceError × Table :=
  vfsDoadd table devname false none (some fs) memory

/-- `findmount`: the first mountable device of the name, by its index. -/
def findmount (knowndevs : List Knowndev) (devname : Name) : Option Nat :=
  knowndevs.findIdx? (fun kd => kd.rawname ≠ none ∧ devname = kd.name)

/-- The table with another file system on one of its devices. -/
def Table.attach (index : Nat) (fs : Option Fs) : Table :=
  { table with knowndevs := table.knowndevs.modify index (fun kd => { kd with fs := fs }) }

/-- `vfs_mount`, with what `MOUNTFUNC` returns. -/
def vfsMount (devname : Name) (mounted : Except Errno Fs) :
    Except Panic (Option DeviceError × Table) :=
  match findmount table.knowndevs devname with
  | none => .ok (some .ENODEV, table)
  | some index =>
    match table.knowndevs[index]? with
    | none => .error .badPointer
    | some kd =>
      if kd.fs ≠ none then .ok (some .EBUSY, table)
      else if kd.rawname = none ∨ kd.device = none then .error .assertion
      else match mounted with
        | .error error => .ok (some (.filesystem error), table)
        | .ok fs => .ok (none, table.attach index (some fs))

/-- `vfs_unmount`, with what `FSOP_SYNC` and `FSOP_UNMOUNT` return. -/
def vfsUnmount (devname : Name) (synced unmounted : Option Errno) :
    Except Panic (Option DeviceError × Table) :=
  match findmount table.knowndevs devname with
  | none => .ok (some .ENODEV, table)
  | some index =>
    match table.knowndevs[index]? with
    | none => .error .badPointer
    | some kd =>
      if kd.fs = none then .ok (some .EINVAL, table)
      else if kd.rawname = none ∨ kd.device = none then .error .assertion
      else match synced with
        | some error => .ok (some (.filesystem error), table)
        | none =>
          match unmounted with
          | some error => .ok (some (.filesystem error), table)
          | none => .ok (none, table.attach index none)

/-- The calls that change the table, with the answers they get. -/
inductive Call
  | adddev (devname : Name) (dev : Nat) (mountable : Bool) (memory : Memory)
  | addfs (devname : Name) (fs : Fs) (memory : Memory)
  | mount (devname : Name) (mounted : Except Errno Fs)
  | unmount (devname : Name) (synced unmounted : Option Errno)

/-- Make a call. -/
def perform : Call → Except Panic (Option DeviceError × Table)
  | .adddev devname dev mountable memory => .ok (vfsAdddev table devname dev mountable memory)
  | .addfs devname fs memory => .ok (vfsAddfs table devname fs memory)
  | .mount devname mounted => vfsMount table devname mounted
  | .unmount devname synced unmounted => vfsUnmount table devname synced unmounted

/-- The table after a call. A panic ends the run. -/
def next (call : Call) : Option Table :=
  match perform table call with
  | .error _ => none
  | .ok (_, after) => some after

/-- The table as `vfs_bootstrap` creates it. -/
def Booted : Prop := table.knowndevs = []

/-- The names an entry answers to. -/
def Knowndev.names (kd : Knowndev) : List Name :=
  kd.name :: (kd.rawname.toList ++ kd.volname.toList)

attribute [local simp] Knowndev.names samestring

/-- All names in the table are different, except that a volume may have the name of its
own device. -/
structure Unambiguous (knowndevs : List Knowndev) : Prop where
  apart : knowndevs.Pairwise (fun first second => ∀ name, name ∈ first.names → name ∉ second.names)
  raw : ∀ kd, kd ∈ knowndevs → kd.rawname ≠ some kd.name
  volume : ∀ kd, kd ∈ knowndevs → ∀ volname, kd.volname = some volname → kd.rawname ≠ some volname

/-- `vfs_getroot` gives the same answers in whatever order the table is. -/
def OrderFree (knowndevs : List Knowndev) : Prop :=
  ∀ other devname, other.Perm knowndevs → vfsGetroot other devname = vfsGetroot knowndevs devname

/-- The name of a volume that is mounted is not in the table yet, unless as the name of
the device it is mounted on. -/
def NewVolume : Call → Prop
  | .mount devname (.ok fs) => ∀ volname, fs.volname = some volname →
      ∀ kd, kd ∈ table.knowndevs → volname ∈ kd.names → volname = devname ∧ volname = kd.name
  | _ => True

theorem Knowndev.named_of_answer {answer : Answer} (answered : kd.answer devname = some answer) :
    devname ∈ kd.names := by
  obtain ⟨name, rawname, device, vnode, fs⟩ := kd
  unfold Knowndev.answer Knowndev.answerDevice at answered
  unfold Knowndev.names Knowndev.volname
  cases fs with
  | none | some fs =>
    grind

/-- Where at most one element has a value, the search finds it. -/
theorem find_some_of_single {Element Value : Type} {value : Element → Option Value}
    {elements : List Element} {element : Element} {found : Value}
    (single : elements.Pairwise (fun first second => value first = none ∨ value second = none))
    (member : element ∈ elements) (valued : value element = some found) :
    elements.findSome? value = some found := by
  induction elements with
  | nil => cases member
  | cons first rest ih =>
    obtain ⟨alone, others⟩ := List.pairwise_cons.mp single
    rcases List.mem_cons.mp member with rfl | later
    · rw [List.findSome?_cons_of_isSome]
      · exact valued
      · rw [valued]
        rfl
    · have absent : value first = none := by
        rcases alone element later with absent | absent
        · exact absent
        · rw [valued] at absent
          cases absent
      rw [List.findSome?_cons, absent]
      exact ih others later

/-- Without a shared name at most one entry answers, wherever it stands. -/
theorem Unambiguous.order_free (unambiguous : Unambiguous knowndevs) : OrderFree knowndevs := by
  intro other devname permuted
  have single : knowndevs.Pairwise (fun first second =>
      first.answer devname = none ∨ second.answer devname = none) := by
    refine unambiguous.apart.imp fun {first second} apart => ?_
    cases left : first.answer devname with
    | none => exact Or.inl rfl
    | some answer =>
      cases right : second.answer devname with
      | none => exact Or.inr rfl
      | some also =>
        exact absurd (Knowndev.named_of_answer right)
          (apart devname (Knowndev.named_of_answer left))
  have moved : other.Pairwise (fun first second =>
      first.answer devname = none ∨ second.answer devname = none) :=
    (permuted.pairwise_iff (fun either => either.symm)).mpr single
  unfold vfsGetroot
  congr 1
  cases found : knowndevs.findSome? (fun kd => kd.answer devname) with
  | none =>
    rw [List.findSome?_eq_none_iff] at found ⊢
    exact fun kd member => found kd (permuted.mem_iff.mp member)
  | some answer =>
    obtain ⟨kd, member, answered⟩ := List.exists_of_findSome?_eq_some found
    exact find_some_of_single moved (permuted.mem_iff.mpr member) answered

theorem samestring_iff (a b : Option Name) :
    samestring a b = true ↔ ∃ name, a = some name ∧ b = some name := by
  cases a with
  | none => simp
  | some name =>
    cases b with
    | none => simp
    | some other => simp [eq_comm]

/-- Names that `badnames` passes are not in the table. -/
theorem names_of_badnames {n1 n2 n3 : Option Name} (passed : badnames knowndevs n1 n2 n3 = false)
    (member : kd ∈ knowndevs) {name : Name} (named : name ∈ kd.names) :
    n1 ≠ some name ∧ n2 ≠ some name ∧ n3 ≠ some name := by
  have each := List.any_eq_false.mp passed kd member
  simp only [samestring3, Bool.or_eq_true, samestring_iff, not_or, not_exists, not_and] at each
  simp only [Knowndev.names, List.mem_cons, List.mem_append, Option.mem_toList] at named
  grind

theorem mkrawname_ne (name : Name) : mkrawname name ≠ name := by
  intro same
  have length := congrArg List.length same
  simp [mkrawname] at length

/-- `vfs_doadd` adds a device only when no entry has one of its names. -/
theorem vfs_doadd_unambiguous {table : Table} (unambiguous : Unambiguous table.knowndevs)
    (dname : Name) (mountable : Bool) (dev : Option Nat) (fs : Option Fs) (memory : Memory)
    (either : mountable = false ∨ fs = none) :
    Unambiguous (vfsDoadd table dname mountable dev fs memory).2.knowndevs := by
  have cases : (vfsDoadd table dname mountable dev fs memory).2 = table ∨
      badnames table.knowndevs (some dname) (if mountable then some (mkrawname dname) else none)
          (fs.bind Fs.volname) = false ∧
        (vfsDoadd table dname mountable dev fs memory).2.knowndevs = table.knowndevs ++
          [⟨dname, if mountable then some (mkrawname dname) else none, dev, table.vnodes, fs⟩] := by
    unfold vfsDoadd Knowndev.volname
    grind
  rcases cases with same | ⟨passed, added⟩
  · rw [same]
    exact unambiguous
  rw [added]
  refine ⟨?_, fun kd member => ?_, fun kd member volname named => ?_⟩
  · refine List.pairwise_append.mpr ⟨unambiguous.apart, List.pairwise_singleton _ _, ?_⟩
    intro first member second added name named also
    rw [List.mem_singleton] at added
    subst added
    have fresh := names_of_badnames passed member named
    simp only [Knowndev.names, Knowndev.volname, List.mem_cons, List.mem_append,
      Option.mem_toList] at also
    rcases also with rfl | also | also
    · exact fresh.1 rfl
    · exact fresh.2.1 also
    · exact fresh.2.2 also
  · rcases List.mem_append.mp member with old | new
    · exact unambiguous.raw kd old
    · rw [List.mem_singleton] at new
      subst new
      cases mountable with
      | false => exact nofun
      | true => exact fun same => mkrawname_ne dname (Option.some.inj same)
  · rcases List.mem_append.mp member with old | new
    · exact unambiguous.volume kd old volname named
    rw [List.mem_singleton] at new
    subst new
    rcases either with unmountable | bare
    · subst unmountable
      exact nofun
    · subst bare
      cases named

theorem apart_iff_positions {knowndevs : List Knowndev} :
    knowndevs.Pairwise (fun first second => ∀ name, name ∈ first.names → name ∉ second.names) ↔
      ∀ (position other : Nat) (first second : Knowndev), knowndevs[position]? = some first →
        knowndevs[other]? = some second → position ≠ other →
          ∀ name, name ∈ first.names → name ∉ second.names := by
  rw [List.pairwise_iff_getElem]
  constructor
  · intro apart position other first second one two different name named also
    obtain ⟨below, rfl⟩ := List.getElem?_eq_some_iff.mp one
    obtain ⟨under, rfl⟩ := List.getElem?_eq_some_iff.mp two
    rcases Nat.lt_or_gt_of_ne different with earlier | later
    · exact apart position other below under earlier name named also
    · exact apart other position under below later name also named
  · intro apart position other below under earlier
    exact apart position other _ _ (List.getElem?_eq_getElem below)
      (List.getElem?_eq_getElem under) (Nat.ne_of_lt earlier)

/-- The entries after a file system was put on a device. -/
theorem attach_entry {table : Table} (found : table.knowndevs[index]? = some kd) {fs : Option Fs}
    {position : Nat} {other : Knowndev}
    (held : (table.attach index fs).knowndevs[position]? = some other) :
    (position = index ∧ other = { kd with fs := fs }) ∨
      (position ≠ index ∧ table.knowndevs[position]? = some other) := by
  unfold Table.attach at held
  obtain rfl | here := eq_or_ne position index
  · rw [List.getElem?_modify_eq, found] at held
    exact Or.inl ⟨rfl, (Option.some.inj held).symm⟩
  · rw [List.getElem?_modify_ne _ _ (Ne.symm here)] at held
    exact Or.inr ⟨here, held⟩

/-- Another file system on a device keeps the names apart when its volume name is not in
the rest of the table and is not the raw name of the device. -/
theorem attach_unambiguous {table : Table} (unambiguous : Unambiguous table.knowndevs)
    (found : table.knowndevs[index]? = some kd) (fs : Option Fs)
    (elsewhere : ∀ volname, fs.bind Fs.volname = some volname → ∀ position other,
      table.knowndevs[position]? = some other → position ≠ index → volname ∉ other.names)
    (own : ∀ volname, fs.bind Fs.volname = some volname → kd.rawname ≠ some volname) :
    Unambiguous (table.attach index fs).knowndevs := by
  have apart := (apart_iff_positions).mp unambiguous.apart
  -- The names of the device itself were apart already; the volume name is the new one.
  have fresh : ∀ position other, table.knowndevs[position]? = some other → position ≠ index →
      ∀ name, name ∈ Knowndev.names { kd with fs := fs } → name ∉ other.names := by
    intro position other held different name named
    simp only [Knowndev.names, List.mem_cons, List.mem_append, Option.mem_toList] at named
    rcases named with rfl | raw | volume
    · exact apart index position kd other found held (Ne.symm different) kd.name (by simp)
    · exact apart index position kd other found held (Ne.symm different) name (by simp [raw])
    · exact elsewhere name volume position other held different
  have member : kd ∈ table.knowndevs := List.mem_of_getElem? found
  refine ⟨(apart_iff_positions).mpr ?_, fun other held => ?_, fun other held volname named => ?_⟩
  · intro position other first second one two different name named also
    rcases attach_entry found one with ⟨rfl, rfl⟩ | ⟨away, one⟩
    · rcases attach_entry found two with ⟨rfl, _⟩ | ⟨_, two⟩
      · exact different rfl
      · exact fresh other second two (Ne.symm different) name named also
    · rcases attach_entry found two with ⟨here, rfl⟩ | ⟨_, two⟩
      · exact fresh position first one away name also named
      · exact apart position other first second one two different name named also
  · obtain ⟨position, held⟩ := List.getElem?_of_mem held
    rcases attach_entry found held with ⟨_, rfl⟩ | ⟨_, held⟩
    · exact unambiguous.raw kd member
    · exact unambiguous.raw other (List.mem_of_getElem? held)
  · obtain ⟨position, held⟩ := List.getElem?_of_mem held
    rcases attach_entry found held with ⟨_, rfl⟩ | ⟨_, held⟩
    · exact own volname named
    · exact unambiguous.volume other (List.mem_of_getElem? held) volname named

/-- The device `findmount` finds has the name it was given. -/
theorem findmount_named (searched : findmount knowndevs devname = some index)
    (held : knowndevs[index]? = some kd) : kd.name = devname := by
  obtain ⟨below, passes, _⟩ := List.findIdx?_eq_some_iff_getElem.mp searched
  rw [List.getElem?_eq_getElem below] at held
  cases held
  simp only [ne_eq, decide_eq_true_eq] at passes
  exact passes.2.symm

/-- A mount leaves the table alone, or puts the file system on the device of the name. -/
theorem vfs_mount_cases {table : Table} {mounted : Except Errno Fs}
    (returned : vfsMount table devname mounted = .ok (result, after)) :
    after = table ∨ ∃ index kd fs, table.knowndevs[index]? = some kd ∧ kd.name = devname ∧
      mounted = .ok fs ∧ after = table.attach index (some fs) := by
  unfold vfsMount at returned
  split at returned
  · cases returned
    exact Or.inl rfl
  next index searched =>
  split at returned
  · cases returned
  next kd found =>
  split at returned
  · cases returned
    exact Or.inl rfl
  split at returned
  · cases returned
  cases mounted with
  | error error =>
    cases returned
    exact Or.inl rfl
  | ok fs =>
    cases returned
    exact Or.inr ⟨index, kd, fs, found, findmount_named searched found, rfl, rfl⟩

/-- An unmount leaves the table alone, or takes a file system off a device. -/
theorem vfs_unmount_cases {table : Table} {synced unmounted : Option Errno}
    (returned : vfsUnmount table devname synced unmounted = .ok (result, after)) :
    after = table ∨ ∃ index kd, table.knowndevs[index]? = some kd ∧
      after = table.attach index none := by
  unfold vfsUnmount at returned
  split at returned
  · cases returned
    exact Or.inl rfl
  next index searched =>
  split at returned
  · cases returned
  next kd found =>
  split at returned
  · cases returned
    exact Or.inl rfl
  split at returned
  · cases returned
  cases synced with
  | some error =>
    cases returned
    exact Or.inl rfl
  | none =>
    cases unmounted with
    | some error =>
      cases returned
      exact Or.inl rfl
    | none =>
      cases returned
      exact Or.inr ⟨index, kd, found, rfl⟩

/-- A mount of a volume with a new name keeps names apart. -/
theorem vfs_mount_unambiguous {table : Table} (unambiguous : Unambiguous table.knowndevs)
    {mounted : Except Errno Fs} (new : NewVolume table (.mount devname mounted))
    (returned : vfsMount table devname mounted = .ok (result, after)) :
    Unambiguous after.knowndevs := by
  rcases vfs_mount_cases returned with rfl | ⟨index, kd, fs, found, named, rfl, rfl⟩
  · exact unambiguous
  have apart := (apart_iff_positions).mp unambiguous.apart
  have member : kd ∈ table.knowndevs := List.mem_of_getElem? found
  refine attach_unambiguous unambiguous found (some fs) ?_ ?_
  · intro volname volume position other held different also
    have own := new volname volume other (List.mem_of_getElem? held) also
    refine apart index position kd other found held (Ne.symm different) volname ?_ also
    rw [own.1, ← named]
    simp
  · intro volname volume raw
    have own := new volname volume kd member (by simp [raw])
    refine unambiguous.raw kd member ?_
    rw [raw, own.2]

/-- A call keeps the names apart, if a volume it mounts has a new name. -/
theorem next_unambiguous {table : Table} {call : Call} (unambiguous : Unambiguous table.knowndevs)
    (new : NewVolume table call) (taken : next table call = some after) :
    Unambiguous after.knowndevs := by
  unfold next at taken
  cases performed : perform table call with
  | error panic =>
    rw [performed] at taken
    cases taken
  | ok returned =>
    rw [performed] at taken
    obtain ⟨result, middle⟩ := returned
    cases taken
    cases call with
    | adddev devname dev mountable memory =>
      have added := vfs_doadd_unambiguous unambiguous devname mountable (some dev) none memory
        (Or.inr rfl)
      have after_eq : (vfsAdddev table devname dev mountable memory).2 = after :=
        congrArg Prod.snd (Except.ok.inj performed)
      rw [← after_eq]
      exact added
    | addfs devname fs memory =>
      have added := vfs_doadd_unambiguous unambiguous devname false none (some fs) memory
        (Or.inl rfl)
      have after_eq : (vfsAddfs table devname fs memory).2 = after :=
        congrArg Prod.snd (Except.ok.inj performed)
      rw [← after_eq]
      exact added
    | mount devname mounted => exact vfs_mount_unambiguous unambiguous new performed
    | unmount devname synced unmounted =>
      rcases vfs_unmount_cases performed with rfl | ⟨index, kd, found, rfl⟩
      · exact unambiguous
      · exact attach_unambiguous unambiguous found none nofun
          nofun

theorem booted_unambiguous (booted : Booted table) : Unambiguous table.knowndevs := by
  have empty : table.knowndevs = [] := booted
  rw [empty]
  exact ⟨List.Pairwise.nil, nofun,
    nofun⟩

end

/-- As long as every volume that is mounted has a new name, the names in the table are
different and `vfs_getroot` does not depend on the order of the table. -/
theorem unambiguous_with_new_volumes (table : Table)
    (reached : Reaches next NewVolume Booted table) :
    Unambiguous table.knowndevs ∧ OrderFree table.knowndevs := by
  have unambiguous : Unambiguous table.knowndevs := reached.invariant booted_unambiguous
    (fun table call after unambiguous new taken => next_unambiguous unambiguous new taken)
  exact ⟨unambiguous, unambiguous.order_free⟩

/-- The empty table. -/
def boot : Table := ⟨[], fun _ => 0, 0⟩

/-- Memory that is never short. -/
def plenty : Memory := ⟨true, true, true, true, true⟩

/-- The names `lhd0`, `lhd1` and `v`. -/
def lhd0 : Name := [0x6c, 0x68, 0x64, 0x30]

def lhd1 : Name := [0x6c, 0x68, 0x64, 0x31]

def v : Name := [0x76]

instance (table : Table) (call : Call) : Decidable (NewVolume table call) := by
  cases call with
  | mount devname mounted =>
    cases mounted with
    | ok fs => exact inferInstanceAs (Decidable (∀ volname ∈ fs.volname, ∀ kd ∈ table.knowndevs,
        volname ∈ kd.names → volname = devname ∧ volname = kd.name))
    | error error => exact .isTrue trivial
  | _ => exact .isTrue trivial

/-- Two disks are attached and a volume called `v` is mounted on the first: its name is
new, and the names stay apart. -/
theorem unambiguous_with_one_volume :
    ∃ table, Reaches next NewVolume Booted table ∧ table.knowndevs.length = 2 ∧
      vfsGetroot table.knowndevs v = .root ⟨0, some v⟩ ∧
      Unambiguous table.knowndevs ∧ OrderFree table.knowndevs := by
  have evaluated : ∃ table, exec next boot [.adddev lhd0 0 true plenty, .adddev lhd1 1 true plenty,
      .mount lhd0 (.ok ⟨0, some v⟩)] = some table ∧ table.knowndevs.length = 2 ∧
      vfsGetroot table.knowndevs v = .root ⟨0, some v⟩ := ⟨_, rfl, rfl, by decide⟩
  obtain ⟨table, run, length, root⟩ := evaluated
  have reached : Reaches next NewVolume Booted table :=
    reaches_of_permitted (fun _ _ => id) (.start boot rfl) (by decide) run
  exact ⟨table, reached, length, root, unambiguous_with_new_volumes table reached⟩

/-- A volume called `v` is mounted on each of two disks. Which of them `v:` is depends on
the order of the table. -/
theorem ambiguous_after_second_mount :
    ∃ table other, Reaches next Anything Booted table ∧ other.Perm table.knowndevs ∧
      vfsGetroot table.knowndevs v = .root ⟨0, some v⟩ ∧ vfsGetroot other v = .root ⟨1, some v⟩ ∧
      ¬ Unambiguous table.knowndevs := by
  have evaluated : ∃ table, exec next boot [.adddev lhd0 0 true plenty, .adddev lhd1 1 true plenty,
      .mount lhd0 (.ok ⟨0, some v⟩), .mount lhd1 (.ok ⟨1, some v⟩)] = some table ∧
      vfsGetroot table.knowndevs v = .root ⟨0, some v⟩ ∧
      vfsGetroot table.knowndevs.reverse v = .root ⟨1, some v⟩ := ⟨_, rfl, by decide, by decide⟩
  obtain ⟨table, run, first, second⟩ := evaluated
  have reached := reaches_of_exec Booted _ (show Booted boot from rfl) run
  refine ⟨table, table.knowndevs.reverse, reached, List.reverse_perm _, first, second, ?_⟩
  intro unambiguous
  have same := unambiguous.order_free _ v (List.reverse_perm _)
  rw [first, second] at same
  cases same

end Os161.Vfs.Devices
