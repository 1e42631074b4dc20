/-
  Acs/Backend/Site.lean
  =====================
  **The Member table as its writers see it** (`members/models.py`).

  The programs that write members get rows, set columns and save them, one
  statement at a time, and no statement is part of a transaction.  A `Site` is a
  database between two statements: its usernames are distinct and its values fit
  their columns, since the database refuses everything else.

  Two things about usernames are not in the repository and are parameters here:
  how Django normalises the name of a new user, and what the database takes for
  the same name.  For the second each username has a `key`; a key has at most one
  `account`, the row with the machines of the member.  Each operation has one
  lemma that says what it does to the accounts.
-/
import Acs.Backend.Models
import Acs.Lib.Effects

namespace Acs.Backend

/-- What the columns of `Member` can hold, and how usernames are treated.  A blank
    name always fits.  `normalize` is `UserManager.normalize_username`; two
    usernames are the same for the database, in a query and for the unique index,
    if they have the same `key` (the text itself in SQLite, what the collation
    makes of it in MySQL). -/
structure Columns where
  username : String → Bool
  name : String → Bool
  integer : Int → Bool
  card : String → Bool
  blank : name "" = true
  normalize : String → String
  key : String → String

def Columns.fits (cols : Columns) (row : Member) : Bool :=
  cols.username row.username && cols.name row.firstName && cols.name row.lastName &&
    row.flId.all cols.integer && row.flIntId.all cols.integer && row.cardId.all cols.card

/-- The exceptions of the writers, of Django and of the database. -/
inductive Error where
  | keyError (key : String)
  | typeError
  | valueError
  | indexError
  | validationError
  | doesNotExist
  | multipleObjectsReturned
  | dataError
  | integrityError
deriving DecidableEq, Repr

/-- `nextId` is the id of the next row. -/
structure Site (cols : Columns) where
  db : Database
  nextId : Nat
  usernames : (db.members.map fun row => cols.key row.username).Nodup
  ids : ∀ row ∈ db.members, row.id < nextId
  fits : ∀ row ∈ db.members, cols.fits row = true

/-- A member with the ids of the machines. -/
structure Account where
  row : Member
  machines : List Nat
deriving DecidableEq

/-- The row that `create_user` adds. -/
def Member.new (id : Nat) (username : String) : Member where
  id := id
  username := username
  firstName := ""
  lastName := ""
  isActive := true
  flId := none
  flIntId := none
  cardId := none

namespace Site

variable {cols : Columns}

def machinesOf (db : Database) (memberId : Nat) : List Nat :=
  (db.memberMachines.filter fun link => link.memberId == memberId).map (·.machineId)

/-- The Member table with the many-to-many field. -/
def accounts (s : Site cols) : List Account :=
  s.db.members.map fun row => ⟨row, machinesOf s.db row.id⟩

/-- The account whose username has this key. -/
def account (s : Site cols) (key : String) : Option Account :=
  Table.lookup (fun a => cols.key a.row.username) s.accounts key

theorem mem_accounts {s : Site cols} {a : Account} :
    a ∈ s.accounts ↔ a.row ∈ s.db.members ∧ a.machines = machinesOf s.db a.row.id := by
  rw [accounts, List.mem_map]
  constructor
  · rintro ⟨row, hrow, rfl⟩
    exact ⟨hrow, rfl⟩
  · rintro ⟨hrow, hmachines⟩
    exact ⟨a.row, hrow, by rw [← hmachines]⟩

theorem accounts_nodup (s : Site cols) :
    (s.accounts.map fun a => cols.key a.row.username).Nodup := by
  rw [accounts, List.map_map]
  exact s.usernames

theorem account_eq_some_iff {s : Site cols} {key : String} {a : Account} :
    s.account key = some a ↔ a ∈ s.accounts ∧ cols.key a.row.username = key :=
  Table.lookup_eq_some_iff s.accounts_nodup

theorem mem_accounts_iff {s : Site cols} {a : Account} :
    a ∈ s.accounts ↔ s.account (cols.key a.row.username) = some a := by
  rw [account_eq_some_iff]
  simp

theorem account_eq_none_iff {s : Site cols} {key : String} :
    s.account key = none ↔ ∀ row ∈ s.db.members, cols.key row.username ≠ key := by
  rw [account, Table.lookup_eq_none_iff, accounts]
  simp

/-- `Member.objects.get(username=…)` finds the row of the account. -/
theorem get_username (s : Site cols) (username : String) :
    Table.get (fun row => cols.key row.username == cols.key username) s.db.members =
      match s.account (cols.key username) with
      | none => .error .doesNotExist
      | some a => .ok a.row := by
  have hlookup : Table.lookup (fun row => cols.key row.username) s.db.members
      (cols.key username) = (s.account (cols.key username)).map (·.row) := by
    cases ha : s.account (cols.key username) with
    | none => exact Table.lookup_eq_none_iff.mpr (account_eq_none_iff.mp ha)
    | some a =>
      obtain ⟨hmem, husername⟩ := account_eq_some_iff.mp ha
      exact (Table.lookup_eq_some_iff s.usernames).mpr ⟨(mem_accounts.mp hmem).1, husername⟩
  rw [Table.get_key s.usernames, hlookup]
  cases s.account (cols.key username) <;> rfl

/-! ### Replacing a row -/

/-- No other row has the username. -/
def Free (s : Site cols) (row : Member) : Prop :=
  ∀ other ∈ s.db.members, other.id ≠ row.id → cols.key other.username ≠ cols.key row.username

instance (s : Site cols) (row : Member) : Decidable (s.Free row) :=
  inferInstanceAs (Decidable (∀ other ∈ s.db.members, _))

def put (row other : Member) : Member := if other.id = row.id then row else other

theorem put_id (row other : Member) : (put row other).id = other.id := by
  rw [put]
  split
  next h => exact h.symm
  next => rfl

theorem map_put_id (row : Member) (rows : List Member) :
    (rows.map (put row)).map (·.id) = rows.map (·.id) := by
  rw [List.map_map]
  apply List.map_congr_left
  intro other _
  exact put_id row other

theorem put_username_inj {s : Site cols} {row : Member} (hfree : s.Free row) {x y : Member}
    (hx : x ∈ s.db.members) (hy : y ∈ s.db.members)
    (h : cols.key (put row x).username = cols.key (put row y).username) : x = y := by
  rw [put, put] at h
  split at h
  next hxid =>
    split at h
    next hyid => exact Database.member_eq_of_id hx hy (hxid.trans hyid.symm)
    next hyid => exact absurd h.symm (hfree y hy hyid)
  next hxid =>
    split at h
    next hyid => exact absurd h (hfree x hx hxid)
    next hyid => exact List.inj_on_of_nodup_map s.usernames hx hy h

def replace (s : Site cols) (row : Member) (hfits : cols.fits row = true) (hfree : s.Free row) :
    Site cols where
  db := {
    machines := s.db.machines
    members := s.db.members.map (put row)
    memberMachines := s.db.memberMachines
    machineIds := s.db.machineIds
    memberIds := by
      rw [map_put_id]
      exact s.db.memberIds
    links := by
      rw [map_put_id]
      exact s.db.links }
  nextId := s.nextId
  usernames := by
    rw [List.map_map]
    apply List.Nodup.map_on _ s.db.members_nodup
    intro x hx y hy h
    exact put_username_inj hfree hx hy h
  ids := by
    intro row' hrow'
    obtain ⟨other, hother, rfl⟩ := List.mem_map.mp hrow'
    rw [put_id]
    exact s.ids other hother
  fits := by
    intro row' hrow'
    obtain ⟨other, hother, rfl⟩ := List.mem_map.mp hrow'
    rw [put]
    split
    next => exact hfits
    next => exact s.fits other hother

/-- A row that keeps its id and its username is replaced, and nothing else. -/
theorem account_replace {s : Site cols} {row : Member} (hfits : cols.fits row = true)
    (hfree : s.Free row) {a : Account} (ha : s.account (cols.key row.username) = some a)
    (hid : a.row.id = row.id) (key : String) :
    (s.replace row hfits hfree).account key =
      if key = cols.key row.username then some ⟨row, a.machines⟩ else s.account key := by
  obtain ⟨hmem, husername⟩ := account_eq_some_iff.mp ha
  obtain ⟨hrow, hmachines⟩ := mem_accounts.mp hmem
  have hput : put row a.row = row := if_pos hid
  split
  next h =>
    rw [account_eq_some_iff, mem_accounts]
    refine ⟨⟨List.mem_map.mpr ⟨a.row, hrow, hput⟩, ?_⟩, h.symm⟩
    rw [hmachines, hid]
    rfl
  next h =>
    have hother : ∀ other ∈ s.db.members, cols.key other.username = key →
        put row other = other := by
      intro other hother hu
      apply if_neg
      intro hsame
      have hsame := Database.member_eq_of_id hother hrow (hsame.trans hid.symm)
      exact h (hu.symm.trans (hsame ▸ husername))
    cases hacc : s.account key with
    | none =>
      rw [account_eq_none_iff] at hacc ⊢
      intro row' hrow' hu
      obtain ⟨other, hmem', rfl⟩ := List.mem_map.mp hrow'
      rw [put] at hu
      split at hu
      next => exact h hu.symm
      next => exact hacc other hmem' hu
    | some b =>
      obtain ⟨hb, hbu⟩ := account_eq_some_iff.mp hacc
      obtain ⟨hbrow, hbmachines⟩ := mem_accounts.mp hb
      rw [account_eq_some_iff, mem_accounts]
      exact ⟨⟨List.mem_map.mpr ⟨b.row, hbrow, hother b.row hbrow hbu⟩, hbmachines⟩, hbu⟩

/-- A row that is saved as it was read changes nothing. -/
theorem replace_self {s : Site cols} {u : Member} (hu : u ∈ s.db.members)
    (hfits : cols.fits u = true) (hfree : s.Free u) : s.replace u hfits hfree = s := by
  have hrows : s.db.members.map (put u) = s.db.members := by
    have hput : ∀ other ∈ s.db.members, put u other = id other := by
      intro other hother
      rw [put]
      split
      next hid => exact (Database.member_eq_of_id hother hu hid).symm
      next => rfl
    rw [List.map_congr_left hput, List.map_id]
  simp only [replace, hrows]

/-! ### Removing and adding a row, and its machines -/

/-- The row goes, and its links with it. -/
def remove (s : Site cols) (id : Nat) : Site cols where
  db := {
    machines := s.db.machines
    members := s.db.members.filter fun row => row.id ≠ id
    memberMachines := s.db.memberMachines.filter fun link => link.memberId ≠ id
    machineIds := s.db.machineIds
    memberIds := s.db.memberIds.sublist (List.filter_sublist.map _)
    links := by
      intro link hlink
      obtain ⟨hlink, hne⟩ := List.mem_filter.mp hlink
      obtain ⟨hmember, hmachine⟩ := s.db.links link hlink
      obtain ⟨row, hrow, hid⟩ := List.mem_map.mp hmember
      refine ⟨List.mem_map.mpr ⟨row, List.mem_filter.mpr ⟨hrow, ?_⟩, hid⟩, hmachine⟩
      rw [hid]
      exact hne }
  nextId := s.nextId
  usernames := s.usernames.sublist (List.filter_sublist.map _)
  ids := by
    intro row hrow
    exact s.ids row (List.mem_of_mem_filter hrow)
  fits := by
    intro row hrow
    exact s.fits row (List.mem_of_mem_filter hrow)

theorem machinesOf_remove (s : Site cols) {id memberId : Nat} (h : memberId ≠ id) :
    machinesOf (s.remove id).db memberId = machinesOf s.db memberId := by
  unfold machinesOf remove
  rw [List.filter_filter]
  congr 1
  apply List.filter_congr
  intro link _
  by_cases hlink : link.memberId = memberId
  · simp [hlink, h]
  · simp [hlink]

theorem account_remove {s : Site cols} {a : Account} (ha : a ∈ s.accounts) (key : String) :
    (s.remove a.row.id).account key =
      if key = cols.key a.row.username then none else s.account key := by
  have hrow := (mem_accounts.mp ha).1
  split
  next h =>
    rw [account_eq_none_iff]
    intro row hmem hu
    obtain ⟨hmem, hne⟩ := List.mem_filter.mp hmem
    have hsame : row = a.row := List.inj_on_of_nodup_map s.usernames hmem hrow (hu.trans h)
    simp [hsame] at hne
  next h =>
    cases hacc : s.account key with
    | none =>
      rw [account_eq_none_iff] at hacc ⊢
      intro row hmem
      exact hacc row (List.mem_of_mem_filter hmem)
    | some b =>
      obtain ⟨hb, hbu⟩ := account_eq_some_iff.mp hacc
      obtain ⟨hbrow, hbmachines⟩ := mem_accounts.mp hb
      have hne : b.row.id ≠ a.row.id := by
        intro hid
        have hsame := Database.member_eq_of_id hbrow hrow hid
        exact h (hbu.symm.trans (by rw [hsame]))
      rw [account_eq_some_iff, mem_accounts, machinesOf_remove s hne]
      exact ⟨⟨List.mem_filter.mpr ⟨hbrow, by simp [hne]⟩, hbmachines⟩, hbu⟩

/-- A new row gets the next id. -/
def add (s : Site cols) (username : String)
    (hfits : cols.fits (.new s.nextId username) = true)
    (hfree : ∀ row ∈ s.db.members, cols.key row.username ≠ cols.key username) : Site cols where
  db := {
    machines := s.db.machines
    members := s.db.members ++ [.new s.nextId username]
    memberMachines := s.db.memberMachines
    machineIds := s.db.machineIds
    memberIds := by
      rw [List.map_append, List.map_singleton, ← List.concat_eq_append, List.nodup_concat]
      refine ⟨?_, s.db.memberIds⟩
      rw [List.mem_map]
      rintro ⟨row, hrow, hid⟩
      have hlt := s.ids row hrow
      simp only [Member.new] at hid
      omega
    links := by
      intro link hlink
      rw [List.map_append, List.mem_append]
      exact ⟨.inl (s.db.links link hlink).1, (s.db.links link hlink).2⟩ }
  nextId := s.nextId + 1
  usernames := by
    rw [List.map_append, List.map_singleton, ← List.concat_eq_append, List.nodup_concat]
    refine ⟨?_, s.usernames⟩
    rw [List.mem_map]
    rintro ⟨row, hrow, hu⟩
    exact hfree row hrow hu
  ids := by
    intro row hrow
    rcases List.mem_append.mp hrow with hrow | hrow
    · exact Nat.lt_succ_of_lt (s.ids row hrow)
    · rw [List.mem_singleton.mp hrow]
      exact Nat.lt_succ_self s.nextId
  fits := by
    intro row hrow
    rcases List.mem_append.mp hrow with hrow | hrow
    · exact s.fits row hrow
    · rw [List.mem_singleton.mp hrow]
      exact hfits

/-- No link is to a row that is still to come. -/
theorem machinesOf_nextId (s : Site cols) : machinesOf s.db s.nextId = [] := by
  rw [machinesOf, List.map_eq_nil_iff, List.filter_eq_nil_iff]
  intro link hlink
  obtain ⟨row, hrow, hid⟩ := List.mem_map.mp (s.db.links link hlink).1
  have hlt := s.ids row hrow
  have hne : link.memberId ≠ s.nextId := by
    intro h
    omega
  simp [hne]

theorem account_add {s : Site cols} {username : String}
    (hfits : cols.fits (.new s.nextId username) = true)
    (hfree : ∀ row ∈ s.db.members, cols.key row.username ≠ cols.key username) (key : String) :
    (s.add username hfits hfree).account key =
      if key = cols.key username then some ⟨.new s.nextId username, []⟩
      else s.account key := by
  split
  next h =>
    rw [account_eq_some_iff, mem_accounts]
    exact ⟨⟨List.mem_append_right _ (List.mem_singleton.mpr rfl), s.machinesOf_nextId.symm⟩,
      h.symm⟩
  next h =>
    cases hacc : s.account key with
    | none =>
      rw [account_eq_none_iff] at hacc ⊢
      intro row hrow
      rcases List.mem_append.mp hrow with hrow | hrow
      · exact hacc row hrow
      · rw [List.mem_singleton.mp hrow]
        exact Ne.symm h
    | some b =>
      obtain ⟨hb, hbu⟩ := account_eq_some_iff.mp hacc
      obtain ⟨hbrow, hbmachines⟩ := mem_accounts.mp hb
      rw [account_eq_some_iff, mem_accounts]
      exact ⟨⟨List.mem_append_left _ hbrow, hbmachines⟩, hbu⟩

/-- The machines of a row become those of the list that there are. -/
def setMachines (s : Site cols) (row : Member) (hrow : row.id ∈ s.db.members.map (·.id))
    (machines : List Nat) : Site cols where
  db := {
    machines := s.db.machines
    members := s.db.members
    memberMachines := (s.db.memberMachines.filter fun link => link.memberId ≠ row.id) ++
      (machines.filter (· ∈ s.db.machines.map (·.id))).map fun machineId => ⟨row.id, machineId⟩
    machineIds := s.db.machineIds
    memberIds := s.db.memberIds
    links := by
      intro link hlink
      rcases List.mem_append.mp hlink with hlink | hlink
      · exact s.db.links link (List.mem_of_mem_filter hlink)
      · obtain ⟨machineId, hmachine, rfl⟩ := List.mem_map.mp hlink
        exact ⟨hrow, by simpa using (List.mem_filter.mp hmachine).2⟩ }
  nextId := s.nextId
  usernames := s.usernames
  ids := s.ids
  fits := s.fits

theorem mem_machinesOf {db : Database} {memberId machineId : Nat} :
    machineId ∈ machinesOf db memberId ↔ ⟨memberId, machineId⟩ ∈ db.memberMachines := by
  rw [machinesOf, List.mem_map]
  constructor
  · rintro ⟨link, hlink, rfl⟩
    rcases List.mem_filter.mp hlink with ⟨hmem, hid⟩
    rw [← beq_iff_eq.mp hid]
    exact hmem
  · intro hlink
    exact ⟨_, List.mem_filter.mpr ⟨hlink, beq_self_eq_true memberId⟩, rfl⟩

/-- `u.machine.add(mach)`: a link that is there is not added again. -/
def addMachine (s : Site cols) (u : Member) (mach : Machine)
    (hu : u.id ∈ s.db.members.map (·.id)) (hmach : mach.id ∈ s.db.machines.map (·.id)) :
    Site cols where
  db := {
    machines := s.db.machines
    members := s.db.members
    memberMachines := s.db.memberMachines.insert ⟨u.id, mach.id⟩
    machineIds := s.db.machineIds
    memberIds := s.db.memberIds
    links := by
      intro link hlink
      rcases List.mem_insert_iff.mp hlink with rfl | hlink
      · exact ⟨hu, hmach⟩
      · exact s.db.links link hlink }
  nextId := s.nextId
  usernames := s.usernames
  ids := s.ids
  fits := s.fits

theorem mem_machinesOf_addMachine {s : Site cols} {u : Member} {mach : Machine}
    (hu : u.id ∈ s.db.members.map (·.id)) (hmach : mach.id ∈ s.db.machines.map (·.id))
    {memberId machineId : Nat} :
    machineId ∈ machinesOf (s.addMachine u mach hu hmach).db memberId ↔
      machineId ∈ machinesOf s.db memberId ∨ memberId = u.id ∧ machineId = mach.id := by
  rw [mem_machinesOf, mem_machinesOf, addMachine]
  simp only [List.mem_insert_iff, MemberMachine.mk.injEq]
  exact or_comm

theorem addMachine_of_mem {s : Site cols} {u : Member} {mach : Machine}
    (hu : u.id ∈ s.db.members.map (·.id)) (hmach : mach.id ∈ s.db.machines.map (·.id))
    (h : mach.id ∈ machinesOf s.db u.id) : s.addMachine u mach hu hmach = s := by
  have hlinks := List.insert_of_mem (mem_machinesOf.mp h)
  simp only [addMachine, hlinks]

/-- Accounts have ids that have been given out. -/
theorem id_lt_nextId {s : Site cols} {key : String} {a : Account}
    (ha : s.account key = some a) : a.row.id < s.nextId :=
  s.ids a.row (mem_accounts.mp (account_eq_some_iff.mp ha).1).1

theorem fits_of_account {s : Site cols} {key : String} {a : Account}
    (ha : s.account key = some a) : cols.fits a.row = true :=
  s.fits a.row (mem_accounts.mp (account_eq_some_iff.mp ha).1).1

theorem key_of_account {s : Site cols} {key : String} {a : Account}
    (ha : s.account key = some a) : cols.key a.row.username = key :=
  (account_eq_some_iff.mp ha).2

end Site

/-! ### The statements of the writers -/

/-- A writer: its exceptions leave the rows as they are at that moment. -/
abbrev Writer (cols : Columns) (α : Type) := EStateM Error (Site cols) α

namespace Writer

open Effects

variable {cols : Columns}

/-- `Member.objects.get` where `Member.DoesNotExist` is caught. -/
def find (p : Member → Bool) : Writer cols (Option Member) := fun s =>
  match Table.get p s.db.members with
  | .ok row => .ok (some row) s
  | .error .doesNotExist => .ok none s
  | .error .multipleObjectsReturned => .error .multipleObjectsReturned s

/-- `row.save()` of a row of the table. -/
def save (row : Member) : Writer cols PUnit := fun s =>
  if hfits : cols.fits row = true then
    if hfree : s.Free row then .ok ⟨⟩ (s.replace row hfits hfree)
    else .error .integrityError s
  else .error .dataError s

/-- `row.delete()`. -/
def delete (row : Member) : Writer cols PUnit := fun s => .ok ⟨⟩ (s.remove row.id)

/-- `Member.objects.create_user(login)`; the name is normalised when it is there. -/
def createUser (login : String) : Writer cols Member := fun s =>
  if login = "" then .error .valueError s
  else
    let username := cols.normalize login
    if hfits : cols.fits (.new s.nextId username) = true then
      if hfree : ∀ row ∈ s.db.members, cols.key row.username ≠ cols.key username then
        .ok (.new s.nextId username) (s.add username hfits hfree)
      else .error .integrityError s
    else .error .dataError s

/-- `Member.objects.get(username=…)` where `Member.DoesNotExist` is caught. -/
def findUsername (username : String) : Writer cols (Option Member) :=
  find fun row => cols.key row.username == cols.key username

/-- `Machine.objects.get` where `Machine.DoesNotExist` is caught. -/
def findMachine (name : String) : Writer cols (Option Machine) := fun s =>
  match Table.get (fun mach => mach.name == name) s.db.machines with
  | .ok mach => .ok (some mach) s
  | .error .doesNotExist => .ok none s
  | .error .multipleObjectsReturned => .error .multipleObjectsReturned s

def addMachine (u : Member) (mach : Machine) : Writer cols PUnit := fun s =>
  if hu : u.id ∈ s.db.members.map (·.id) then
    if hmach : mach.id ∈ s.db.machines.map (·.id) then .ok ⟨⟩ (s.addMachine u mach hu hmach)
    else .error .integrityError s
  else .error .integrityError s

theorem findUsername_eq (s : Site cols) (username : String) :
    findUsername username s = .ok ((s.account (cols.key username)).map (·.row)) s := by
  rw [findUsername, find, s.get_username]
  cases s.account (cols.key username) <;> rfl

/-- The table is only read. -/
theorem find_cases (p : Member → Bool) (s : Site cols) :
    (∃ u, Table.get p s.db.members = .ok u ∧ find p s = .ok (some u) s) ∨
      ((∀ u, Table.get p s.db.members ≠ .ok u) ∧
        (find p s = .ok none s ∨ find p s = .error .multipleObjectsReturned s)) := by
  unfold find
  cases hget : Table.get p s.db.members with
  | ok u => exact .inl ⟨u, rfl, rfl⟩
  | error err => cases err <;> simp

/-- A save of a row that fits its columns, under the id and the username of an
    account: the machines stay as they are. -/
theorem save_ok {s : Site cols} {row : Member} {a : Account}
    (ha : s.account (cols.key row.username) = some a) (hid : a.row.id = row.id)
    (hfits : cols.fits row = true) :
    ∃ t, save row s = .ok ⟨⟩ t ∧ t.nextId = s.nextId ∧
      ∀ key, t.account key =
        if key = cols.key row.username then some ⟨row, a.machines⟩ else s.account key := by
  have hfree : s.Free row := by
    intro other hother hne hu
    obtain ⟨hmem, husername⟩ := Site.account_eq_some_iff.mp ha
    have hsame := List.inj_on_of_nodup_map s.usernames hother (Site.mem_accounts.mp hmem).1
      (hu.trans husername.symm)
    exact hne (by rw [hsame, hid])
  refine ⟨s.replace row hfits hfree, ?_, rfl, Site.account_replace hfits hfree ha hid⟩
  rw [save, dif_pos hfits, dif_pos hfree]

theorem addMachine_ok {s : Site cols} {u : Member} {mach : Machine}
    (hu : u.id ∈ s.db.members.map (·.id)) (hmach : mach.id ∈ s.db.machines.map (·.id)) :
    addMachine u mach s = .ok ⟨⟩ (s.addMachine u mach hu hmach) := by
  rw [addMachine, dif_pos hu, dif_pos hmach]

theorem save_self {s : Site cols} {u : Member} (hu : u ∈ s.db.members) :
    save u s = .ok ⟨⟩ s := by
  have hfits := s.fits u hu
  have hfree : s.Free u := by
    intro other hother hne husername
    exact hne (congrArg _ (List.inj_on_of_nodup_map s.usernames hother hu husername))
  rw [save, dif_pos hfits, dif_pos hfree, Site.replace_self hu]

theorem save_error {s : Site cols} {row : Member} (hfits : cols.fits row = false) :
    save row s = .error .dataError s := by
  simp [save, hfits]

theorem fits_new (id : Nat) (username : String) :
    cols.fits (.new id username) = cols.username username := by
  simp [Columns.fits, Member.new, cols.blank]

/-- The database takes the name of a new user: it fits its column, and no account
    has its key. -/
theorem createUser_ok {s : Site cols} {login : String} (hne : login ≠ "")
    (hnone : s.account (cols.key (cols.normalize login)) = none)
    (hfits : cols.username (cols.normalize login) = true) :
    ∃ t, createUser login s = .ok (.new s.nextId (cols.normalize login)) t ∧
      t.nextId = s.nextId + 1 ∧
      ∀ key, t.account key =
        if key = cols.key (cols.normalize login) then
          some ⟨.new s.nextId (cols.normalize login), []⟩
        else s.account key := by
  have hfits' : cols.fits (.new s.nextId (cols.normalize login)) = true := by rw [fits_new, hfits]
  have hfree := Site.account_eq_none_iff.mp hnone
  refine ⟨s.add (cols.normalize login) hfits' hfree, ?_, rfl, Site.account_add hfits' hfree⟩
  rw [createUser, if_neg hne, dif_pos hfits', dif_pos hfree]

theorem createUser_error {s : Site cols} {login : String} (hne : login ≠ "")
    (hnot : ¬ (s.account (cols.key (cols.normalize login)) = none ∧
      cols.username (cols.normalize login) = true)) :
    ∃ err, createUser login s = .error err s := by
  rw [createUser, if_neg hne]
  dsimp only
  by_cases hfits : cols.fits (.new s.nextId (cols.normalize login)) = true
  · rw [dif_pos hfits, dif_neg]
    · exact ⟨_, rfl⟩
    · intro hfree
      rw [fits_new] at hfits
      exact hnot ⟨Site.account_eq_none_iff.mpr hfree, hfits⟩
  · rw [dif_neg hfits]
    exact ⟨_, rfl⟩

end Writer

end Acs.Backend
