/-
  Acs/Backend/ApiViews.lean
  =========================
  **The permission endpoints** (`machines/api_views.py`).

  Two views answer for one card and three list the members.  The machine that
  asks is `Machine.current_id`, which the authentication has set; it is `none`
  for a request without a token.  An exception that a view does not catch
  becomes an error response of the framework.
-/
import Acs.Backend.Models
import Mathlib.Tactic.TFAE

namespace Acs.Backend

/-! ### The machines of a member -/

/-- `user.machine.all().filter(id=m_id).exists()`. -/
def machineExists (db : Database) (user : Member) (mId : Option Nat) : Bool :=
  !((user.machineAll db).filter fun machine => some machine.id == mId).isEmpty

/-- The loop over `user.machine.all()` in the list views. -/
def machineFound (db : Database) (user : Member) (mId : Option Nat) : Bool :=
  (user.machineAll db).foldl (fun found m => if some m.id == mId then true else found) false

theorem machineFound_eq_machineExists (db : Database) (user : Member) (mId : Option Nat) :
    machineFound db user mId = machineExists db user mId := by
  have hloop : ∀ (machines : List Machine) (found : Bool),
      machines.foldl (fun found m => if some m.id == mId then true else found) found =
        (found || !(machines.filter fun machine => some machine.id == mId).isEmpty) := by
    intro machines
    induction machines with
    | nil => simp
    | cons m machines ih =>
      intro found
      rw [List.foldl_cons, ih]
      by_cases hm : some m.id == mId <;> simp [hm]
  exact (hloop _ false).trans (Bool.false_or _)

/-! ### Asking for one card -/

/-- The body of a response: `denied` has status 404, `answer` has 200. -/
inductive Permission where
  | denied (error : String)
  | answer (allowed : Bool) (id : Nat) (intId : Option Int) (name : String)
deriving DecidableEq

/-- What `machine_list` and `machine_v2_getperm` share: all but their log. -/
def getPermission (db : Database) (mId : Option Nat) (cardId : Option String) :
    Except Table.GetError Permission :=
  match Table.get (fun user => user.cardId == cardId) db.members with
  | .error .doesNotExist => .ok (.denied "Unknown card")
  | .error .multipleObjectsReturned => .error .multipleObjectsReturned
  | .ok user =>
    if !user.isActive then .ok (.denied "Inactive user")
    else .ok (.answer (machineExists db user mId) user.id user.flIntId user.name)

/-- `machine_list`: the card is `request.data.get('card_id')`, `none` when it is
    missing or null, and then looked up with `IS NULL`. -/
def machineList (db : Database) (mId : Option Nat) (cardId : Option String) :
    Except Table.GetError Permission :=
  getPermission db mId cardId

/-- `machine_v2_getperm`: the card is the last part of the path. -/
def machineV2Getperm (db : Database) (mId : Option Nat) (cardId : String) :
    Except Table.GetError Permission :=
  getPermission db mId (some cardId)

/-! ### Listing the members -/

structure V2Entry where
  id : Nat
  intId : Option Int
  cardId : Option String
  name : String
deriving DecidableEq

structure V3Entry where
  id : Nat
  intId : Option Int
  cardId : Option String
  name : String
  allowed : Bool
deriving DecidableEq

structure V4Entry where
  id : Nat
  ii : Option Int
  ci : Option String
  nm : String
  al : Bool
deriving DecidableEq

/-- `machine_v2_list`: the active members who have the machine. -/
def machineV2List (db : Database) (mId : Option Nat) : List V2Entry :=
  db.members.filterMap fun user =>
    if !user.isActive then none
    else if !machineFound db user mId then none
    else some { id := user.id, intId := user.flIntId, cardId := user.cardId, name := user.name }

/-- `machine_v3_list`: the active members with a card. -/
def machineV3List (db : Database) (mId : Option Nat) : List V3Entry :=
  db.members.filterMap fun user =>
    if !user.isActive then none
    else if !user.hasCard then none
    else some { id := user.id, intId := user.flIntId, cardId := user.cardId, name := user.name,
                allowed := machineFound db user mId }

/-- `machine_v4_list`: the same under shorter keys. -/
def machineV4List (db : Database) (mId : Option Nat) : List V4Entry :=
  db.members.filterMap fun user =>
    if !user.isActive then none
    else if !user.hasCard then none
    else some { id := user.id, ii := user.flIntId, ci := user.cardId, nm := user.name,
                al := machineFound db user mId }

/-! ### What each view says about a member -/

theorem getPermission_answer_iff {db : Database} {mId : Option Nat} {cardId : Option String}
    {id : Nat} {intId : Option Int} {name : String} :
    getPermission db mId cardId = .ok (.answer true id intId name) ↔
      ∃ user, Table.get (fun user => user.cardId == cardId) db.members = .ok user ∧
        user.isActive = true ∧ machineExists db user mId = true ∧
        user.id = id ∧ user.flIntId = intId ∧ user.name = name := by
  rw [getPermission]
  cases hget : Table.get (fun user => user.cardId == cardId) db.members with
  | error e => cases e <;> simp
  | ok user =>
    cases hactive : user.isActive with
    | false => simp [hactive]
    | true => simp [hactive]

/-- The loop of a list view, which skips the inactive members and those who do not
    meet a further condition. -/
theorem mem_filterMap_members {db : Database} {β : Type} {keep : Member → Bool}
    {entry : Member → β} {e : β} :
    (e ∈ db.members.filterMap fun user =>
      if !user.isActive then none else if !keep user then none else some (entry user)) ↔
      ∃ user ∈ db.members, user.isActive = true ∧ keep user = true ∧ e = entry user := by
  rw [List.mem_filterMap]
  apply exists_congr
  intro user
  apply and_congr_right
  intro _
  cases user.isActive <;> cases keep user <;> simp [eq_comm]

theorem mem_machineV2List {db : Database} {mId : Option Nat} {e : V2Entry} :
    e ∈ machineV2List db mId ↔
      ∃ user ∈ db.members, user.isActive = true ∧ machineExists db user mId = true ∧
        e = ⟨user.id, user.flIntId, user.cardId, user.name⟩ := by
  simp only [← machineFound_eq_machineExists]
  exact mem_filterMap_members

theorem mem_machineV3List {db : Database} {mId : Option Nat} {e : V3Entry} :
    e ∈ machineV3List db mId ↔
      ∃ user ∈ db.members, user.isActive = true ∧ user.hasCard = true ∧
        e = ⟨user.id, user.flIntId, user.cardId, user.name, machineExists db user mId⟩ := by
  simp only [← machineFound_eq_machineExists]
  exact mem_filterMap_members

theorem mem_machineV4List {db : Database} {mId : Option Nat} {e : V4Entry} :
    e ∈ machineV4List db mId ↔
      ∃ user ∈ db.members, user.isActive = true ∧ user.hasCard = true ∧
        e = ⟨user.id, user.flIntId, user.cardId, user.name, machineExists db user mId⟩ := by
  simp only [← machineFound_eq_machineExists]
  exact mem_filterMap_members

/-! ### The endpoints agree -/

/-- A member has the card, is active, has the machine, and is reported so. -/
def Holds (db : Database) (mId : Option Nat) (card : String) (id : Nat) (intId : Option Int)
    (name : String) : Prop :=
  ∃ user ∈ db.members, user.cardId = some card ∧ user.isActive = true ∧
    machineExists db user mId = true ∧ user.id = id ∧ user.flIntId = intId ∧ user.name = name

section Agreement

variable {db : Database} {mId : Option Nat} {card : String} {id : Nat} {intId : Option Int}
  {name : String}

theorem getPermission_iff_holds
    (hunique : ∀ u ∈ db.members, ∀ v ∈ db.members,
      u.cardId = some card → v.cardId = some card → u = v) :
    getPermission db mId (some card) = .ok (.answer true id intId name) ↔
      Holds db mId card id intId name := by
  have hget : ∀ user, Table.get (fun user => user.cardId == some card) db.members = .ok user ↔
      user ∈ db.members ∧ user.cardId = some card := by
    intro user
    rw [Table.get_eq_ok_iff_of_unique db.members_nodup, beq_iff_eq]
    intro u hu v hv hcu hcv
    exact hunique u hu v hv (beq_iff_eq.mp hcu) (beq_iff_eq.mp hcv)
  simp only [getPermission_answer_iff, hget, Holds, and_assoc]

theorem mem_machineV2List_iff_holds :
    ⟨id, intId, some card, name⟩ ∈ machineV2List db mId ↔ Holds db mId card id intId name := by
  rw [mem_machineV2List, Holds]
  apply exists_congr
  intro user
  apply and_congr_right
  intro _
  simp only [V2Entry.mk.injEq]
  constructor
  · rintro ⟨hactive, hexists, hid, hint, hcard, hname⟩
    exact ⟨hcard.symm, hactive, hexists, hid.symm, hint.symm, hname.symm⟩
  · rintro ⟨hcard, hactive, hexists, hid, hint, hname⟩
    exact ⟨hactive, hexists, hid.symm, hint.symm, hcard.symm, hname.symm⟩

theorem hasCard_of_cardId {user : Member} (hcard : card ≠ "") (h : user.cardId = some card) :
    user.hasCard = true := by
  simp [Member.hasCard, h, hcard]

theorem mem_machineV3List_iff_holds (hcard : card ≠ "") :
    ⟨id, intId, some card, name, true⟩ ∈ machineV3List db mId ↔
      Holds db mId card id intId name := by
  rw [mem_machineV3List, Holds]
  apply exists_congr
  intro user
  apply and_congr_right
  intro _
  simp only [V3Entry.mk.injEq]
  constructor
  · rintro ⟨hactive, _, hid, hint, hsome, hname, hexists⟩
    exact ⟨hsome.symm, hactive, hexists.symm, hid.symm, hint.symm, hname.symm⟩
  · rintro ⟨hsome, hactive, hexists, hid, hint, hname⟩
    exact ⟨hactive, hasCard_of_cardId hcard hsome, hid.symm, hint.symm, hsome.symm, hname.symm,
      hexists.symm⟩

/-- The two lists differ in their keys only. -/
theorem mem_machineV4List_iff_machineV3List {cardId : Option String} {allowed : Bool} :
    ⟨id, intId, cardId, name, allowed⟩ ∈ machineV4List db mId ↔
      ⟨id, intId, cardId, name, allowed⟩ ∈ machineV3List db mId := by
  simp only [mem_machineV4List, mem_machineV3List, V4Entry.mk.injEq, V3Entry.mk.injEq]

theorem mem_machineV4List_iff_holds (hcard : card ≠ "") :
    ⟨id, intId, some card, name, true⟩ ∈ machineV4List db mId ↔
      Holds db mId card id intId name := by
  rw [mem_machineV4List_iff_machineV3List]
  exact mem_machineV3List_iff_holds hcard

end Agreement

/-- **All permission endpoints agree.**  For a card that at most one member has,
    and whatever id, internal id and name are reported: one view reports them
    with the card allowed exactly when each of the others does. -/
theorem permissions_tfae (db : Database) (m : Machine) (card : String) (hcard : card ≠ "")
    (hunique : ∀ u ∈ db.members, ∀ v ∈ db.members,
      u.cardId = some card → v.cardId = some card → u = v)
    (id : Nat) (intId : Option Int) (name : String) :
    [machineList db (some m.id) (some card) = .ok (.answer true id intId name),
      machineV2Getperm db (some m.id) card = .ok (.answer true id intId name),
      ⟨id, intId, some card, name⟩ ∈ machineV2List db (some m.id),
      ⟨id, intId, some card, name, true⟩ ∈ machineV3List db (some m.id),
      ⟨id, intId, some card, name, true⟩ ∈ machineV4List db (some m.id)].TFAE := by
  have hpoint : getPermission db (some m.id) (some card) = .ok (.answer true id intId name) ↔
      Holds db (some m.id) card id intId name := getPermission_iff_holds hunique
  tfae_have 1 ↔ 2 := Iff.rfl
  tfae_have 2 ↔ 3 := hpoint.trans mem_machineV2List_iff_holds.symm
  tfae_have 3 ↔ 4 := mem_machineV2List_iff_holds.trans (mem_machineV3List_iff_holds hcard).symm
  tfae_have 4 ↔ 5 := (mem_machineV3List_iff_holds hcard).trans
    (mem_machineV4List_iff_holds hcard).symm
  tfae_finish

def sampleDatabase : Database where
  machines := [⟨1, "main", "token"⟩]
  members := [⟨7, "ann", "Ann", "Lee", true, some 70, some 3, some "000000002A"⟩,
    ⟨8, "bob", "Bob", "Ray", true, none, none, none⟩]
  memberMachines := [⟨7, 1⟩, ⟨8, 1⟩]
  machineIds := by decide
  memberIds := by decide
  links := by decide

theorem permissions_tfae_sample :
    machineList sampleDatabase (some 1) (some "000000002A") =
        .ok (.answer true 7 (some 3) "Ann Lee") ∧
      ⟨7, some 3, some "000000002A", "Ann Lee", true⟩ ∈ machineV4List sampleDatabase (some 1) :=
  have hanswer : machineList sampleDatabase (some 1) (some "000000002A") =
      .ok (.answer true 7 (some 3) "Ann Lee") := by decide
  ⟨hanswer, ((permissions_tfae sampleDatabase ⟨1, "main", "token"⟩ "000000002A" (by decide)
    (by decide) 7 (some 3) "Ann Lee").out 0 4).mp hanswer⟩

/-! ### Members without a card -/

/-- A request to one of the permission endpoints; a path has a part for the card
    only if there is something in it. -/
inductive Request where
  | v1Post (cardId : Option String)
  | v2Get (cardId : { s : String // s ≠ "" })
  | v2List
  | v3List
  | v4List

inductive Response where
  | failed (error : Table.GetError)
  | permission (p : Permission)
  | v2Entries (entries : List V2Entry)
  | v3Entries (entries : List V3Entry)
  | v4Entries (entries : List V4Entry)

def Response.ofExcept : Except Table.GetError Permission → Response
  | .error e => .failed e
  | .ok p => .permission p

/-- The response of the view that the request is routed to. -/
def respond (db : Database) (mId : Option Nat) : Request → Response
  | .v1Post cardId => .ofExcept (machineList db mId cardId)
  | .v2Get cardId => .ofExcept (machineV2Getperm db mId cardId.1)
  | .v2List => .v2Entries (machineV2List db mId)
  | .v3List => .v3Entries (machineV3List db mId)
  | .v4List => .v4Entries (machineV4List db mId)

def Response.reported : Response → List Nat
  | .permission (.answer true id _ _) => [id]
  | .permission _ => []
  | .failed _ => []
  | .v2Entries entries => entries.map (·.id)
  | .v3Entries entries => entries.map (·.id)
  | .v4Entries entries => entries.map (·.id)

/-- The request reaches a member without a card who is active and has the
    machine: it asks for no card and there is one such row, or it lists. -/
def Exposed (db : Database) (mId : Option Nat) : Request → Prop
  | .v1Post cardId => (cardId = none ∨ cardId = some "") ∧
      ∃ user, db.members.filter (fun user => user.cardId == cardId) = [user] ∧
        user.isActive = true ∧ machineExists db user mId = true
  | .v2List => ∃ user ∈ db.members, user.hasCard = false ∧ user.isActive = true ∧
      machineExists db user mId = true
  | _ => False

theorem hasCard_eq_false_iff {user : Member} :
    user.hasCard = false ↔ user.cardId = none ∨ user.cardId = some "" := by
  rw [Member.hasCard]
  cases user.cardId <;> simp

theorem mem_reported_ofExcept {result : Except Table.GetError Permission} {id : Nat} :
    id ∈ (Response.ofExcept result).reported ↔
      ∃ intId name, result = .ok (.answer true id intId name) := by
  match result with
  | .error e => simp [Response.ofExcept, Response.reported]
  | .ok (.denied e) => simp [Response.ofExcept, Response.reported]
  | .ok (.answer true id' _ _) => simp [Response.ofExcept, Response.reported, eq_comm]
  | .ok (.answer false _ _ _) => simp [Response.ofExcept, Response.reported]

theorem mem_reported_getPermission {db : Database} {mId : Option Nat} {cardId : Option String}
    {id : Nat} :
    id ∈ (Response.ofExcept (getPermission db mId cardId)).reported ↔
      ∃ user, db.members.filter (fun user => user.cardId == cardId) = [user] ∧
        user.isActive = true ∧ machineExists db user mId = true ∧ user.id = id := by
  simp only [mem_reported_ofExcept, getPermission_answer_iff, Table.get_eq_ok_iff]
  constructor
  · rintro ⟨_, _, user, hget, hactive, hexists, hid, _⟩
    exact ⟨user, hget, hactive, hexists, hid⟩
  · rintro ⟨user, hget, hactive, hexists, hid⟩
    exact ⟨_, _, user, hget, hactive, hexists, hid, rfl, rfl⟩

/-- **When a member without a card is allowed or listed**: exactly when the
    request is exposed. -/
theorem cardless_not_reported_iff (db : Database) (m : Machine) (request : Request) :
    (∀ user ∈ db.members, user.hasCard = false →
      user.id ∉ (respond db (some m.id) request).reported) ↔
      ¬ Exposed db (some m.id) request := by
  cases request with
  | v1Post cardId =>
    simp only [respond, machineList, mem_reported_getPermission, Exposed]
    constructor
    · rintro h ⟨hnone, user, hget, hactive, hexists⟩
      obtain ⟨hmem, hcard⟩ := Table.mem_of_get (Table.get_eq_ok_iff.mpr hget)
      rw [← beq_iff_eq.mp hcard] at hnone
      exact h user hmem (hasCard_eq_false_iff.mpr hnone) ⟨user, hget, hactive, hexists, rfl⟩
    · rintro h user hmem hcardless ⟨found, hget, hactive, hexists, hid⟩
      obtain ⟨hfound, hcard⟩ := Table.mem_of_get (Table.get_eq_ok_iff.mpr hget)
      -- a response names a member by the id, which no other member has
      obtain rfl := Database.member_eq_of_id hfound hmem hid
      have hnone := hasCard_eq_false_iff.mp hcardless
      rw [beq_iff_eq.mp hcard] at hnone
      exact h ⟨hnone, found, hget, hactive, hexists⟩
  | v2Get cardId =>
    simp only [respond, machineV2Getperm, mem_reported_getPermission, Exposed, not_false_eq_true,
      iff_true]
    rintro user hmem hcardless ⟨found, hget, _, _, hid⟩
    obtain ⟨hfound, hcard⟩ := Table.mem_of_get (Table.get_eq_ok_iff.mpr hget)
    obtain rfl := Database.member_eq_of_id hfound hmem hid
    have hsome := hasCard_of_cardId cardId.2 (beq_iff_eq.mp hcard)
    exact absurd (hsome.symm.trans hcardless) (by decide)
  | v2List =>
    simp only [respond, Response.reported, List.mem_map, mem_machineV2List, Exposed]
    constructor
    · rintro h ⟨user, hmem, hcardless, hactive, hexists⟩
      exact h user hmem hcardless ⟨_, ⟨user, hmem, hactive, hexists, rfl⟩, rfl⟩
    · rintro h user hmem hcardless ⟨_, ⟨found, hfound, hactive, hexists, rfl⟩, hid⟩
      obtain rfl := Database.member_eq_of_id hfound hmem hid
      exact h ⟨found, hmem, hcardless, hactive, hexists⟩
  | v3List =>
    simp only [respond, Response.reported, List.mem_map, mem_machineV3List, Exposed,
      not_false_eq_true, iff_true]
    rintro user hmem hcardless ⟨_, ⟨found, hfound, _, hcard, rfl⟩, hid⟩
    obtain rfl := Database.member_eq_of_id hfound hmem hid
    exact absurd (hcard.symm.trans hcardless) (by decide)
  | v4List =>
    simp only [respond, Response.reported, List.mem_map, mem_machineV4List, Exposed,
      not_false_eq_true, iff_true]
    rintro user hmem hcardless ⟨_, ⟨found, hfound, _, hcard, rfl⟩, hid⟩
    obtain rfl := Database.member_eq_of_id hfound hmem hid
    exact absurd (hcard.symm.trans hcardless) (by decide)

/-- A request without a card is allowed as the one member who has none, and the
    list has that member too. -/
theorem not_cardless_unreported :
    ¬ ∀ (db : Database) (m : Machine) (request : Request), m ∈ db.machines →
      ∀ user ∈ db.members, user.hasCard = false →
        user.id ∉ (respond db (some m.id) request).reported := by
  intro h
  have hunreported := h sampleDatabase ⟨1, "main", "token"⟩ (.v1Post none) (by decide)
    ⟨8, "bob", "Bob", "Ray", true, none, none, none⟩ (by decide) (by decide)
  exact hunreported (by decide)

end Acs.Backend
