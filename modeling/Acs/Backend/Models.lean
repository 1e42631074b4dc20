/-
  Acs/Backend/Models.lean
  =======================
  **The tables of the backend** (`members/models.py`, `machines/models.py`).

  Rows are given in the order in which the database returns them.  The ids of
  a table are distinct, as its primary key, and a link of the many-to-many
  field refers to rows that exist; both are part of the type of a database.
-/
import Acs.Lib.Table

namespace Acs.Backend

structure Machine where
  id : Nat
  name : String
  apitoken : String
deriving DecidableEq

/-- `Member`; `none` is NULL. -/
structure Member where
  id : Nat
  username : String
  firstName : String
  lastName : String
  isActive : Bool
  flId : Option Int
  flIntId : Option Int
  cardId : Option String
deriving DecidableEq

/-- The link table of `Member.machine`. -/
structure MemberMachine where
  memberId : Nat
  machineId : Nat
deriving DecidableEq

structure Database where
  machines : List Machine
  members : List Member
  memberMachines : List MemberMachine
  machineIds : (machines.map (·.id)).Nodup
  memberIds : (members.map (·.id)).Nodup
  links : ∀ link ∈ memberMachines,
    link.memberId ∈ members.map (·.id) ∧ link.machineId ∈ machines.map (·.id)

namespace Member

def machineAll (db : Database) (user : Member) : List Machine :=
  db.machines.filter fun machine => ⟨user.id, machine.id⟩ ∈ db.memberMachines

/-- The truth of `user.card_id` in Python: neither `None` nor the empty string. -/
def hasCard (user : Member) : Bool :=
  match user.cardId with
  | none => false
  | some card => card != ""

def name (user : Member) : String := user.firstName ++ " " ++ user.lastName

end Member

namespace Database

theorem members_nodup (db : Database) : db.members.Nodup := List.Nodup.of_map _ db.memberIds

theorem member_eq_of_id {db : Database} {u v : Member} (hu : u ∈ db.members)
    (hv : v ∈ db.members) (h : u.id = v.id) : u = v :=
  List.inj_on_of_nodup_map db.memberIds hu hv h

end Database

end Acs.Backend
