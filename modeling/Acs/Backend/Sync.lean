/-
  Acs/Backend/Sync.lean
  =====================
  **The ForeningLet sync** (`synch/flapi.py`).

  `update_fl` gets the members from ForeningLet, gives each of them an account
  and deactivates the accounts of those who are no longer there.  An account is
  found by its username, the login that the member has chosen, or `FL<number>`
  without one; when the account of a new login is made, the one under
  `FL<number>` is deleted.  An exception ends the loop and is only logged.

  The account is looked for under the login and made under the login as Django
  normalises it, which need not be the same; whether it can be made depends on the
  usernames in use at that moment.  What one entry does to the accounts is said
  once (`processMember_cases`), and what the deactivation does once
  (`deactivateRemaining_ok`).
-/
import Acs.Backend.Site
import Acs.Backend.Text
import Mathlib

namespace Acs.Backend

open Effects

/-! ### What is received -/

/-- A value of the decoded JSON.  A float is given by what `int` makes of it,
    and a list or an object by its text. -/
inductive Value where
  | null
  | bool (b : Bool)
  | int (n : Int)
  | float (truncated : Option Int)
  | text (s : String)
  | container (isEmpty : Bool) (printed : { s : String // s ≠ "" })

/-- An element of the received list. -/
inductive Item where
  | object (fields : List (String × Value))
  | other

def flLogin (number : Int) : String := "FL" ++ toString number

/-- What the loop reads of an element: `login` is `MemberField6`, or `FL<number>`
    when that is empty. -/
structure Entry where
  id : Int
  number : Int
  firstName : String
  lastName : String
  login : String
  named : login ≠ ""
deriving DecidableEq

def Value.toInt : Value → Except Error Int
  | .bool b => .ok (if b then 1 else 0)
  | .int n => .ok n
  | .float (some n) => .ok n
  | .float none => .error .valueError
  | .text s =>
      match Text.int s with
      | some n => .ok n
      | none => .error .valueError
  | _ => .error .typeError

/-- A value that is put together with a text. -/
def Value.toText : Value → Except Error String
  | .text s => .ok s
  | _ => .error .typeError

theorem flLogin_ne (number : Int) : flLogin number ≠ "" := by
  simp [flLogin]

/-- The login to look for, with `len` applied to `MemberField6`. -/
def Value.toLogin (number : Int) : Value → Except Error { login : String // login ≠ "" }
  | .text s => .ok (if h : s = "" then ⟨flLogin number, flLogin_ne number⟩ else ⟨s, h⟩)
  | .container isEmpty printed =>
      .ok (if isEmpty then ⟨flLogin number, flLogin_ne number⟩ else printed)
  | _ => .error .typeError

namespace Item

/-- `m[key]`. -/
def get (m : Item) (key : String) : Except Error Value :=
  match m with
  | .object fields =>
      match fields.lookup key with
      | some value => .ok value
      | none => .error (.keyError key)
  | .other => .error .typeError

def read (m : Item) : Except Error Entry := do
  let id ← (← m.get "MemberId").toInt
  let number ← (← m.get "MemberNumber").toInt
  let firstName ← m.get "FirstName"
  let lastName ← m.get "LastName"
  let login ← (← m.get "MemberField6").toLogin number
  let firstName ← firstName.toText
  let lastName ← lastName.toText
  return { id, number, firstName, lastName, login := login.1, named := login.2 }

end Item

/-! ### One entry -/

/-- The columns that the sync sets. -/
def Entry.setFields (e : Entry) (u : Member) : Member :=
  { u with
    isActive := true
    flId := some e.number
    flIntId := some e.id
    firstName := e.firstName
    lastName := e.lastName }

def Entry.write (e : Entry) (a : Account) : Account := { a with row := e.setFields a.row }

section Loop

variable {cols : Columns}

/-- The account under `FL<number>` makes way for one with a login. -/
def removePlaceholder (e : Entry) : Writer cols PUnit :=
  if e.login ≠ flLogin e.number then do
    match ← Writer.findUsername (flLogin e.number) with
    | some fu => Writer.delete fu
    | none => pure ⟨⟩
  else pure ⟨⟩

def userFor (e : Entry) : Writer cols Member := do
  match ← Writer.findUsername e.login with
  | some u => pure u
  | none => do
    removePlaceholder e
    Writer.createUser e.login

def processMember (e : Entry) : Writer cols PUnit := do
  let u ← userFor e
  Writer.save (e.setFields u)

/-- The body of the loop; `active` is `active_members`. -/
def processItem (active : List Int) (m : Item) : Writer cols (List Int) :=
  match m.read with
  | .ok e => do
    processMember e
    return active ++ [e.number]
  | .error err => throw err

/-! ### The whole run -/

/-- The account is of a member of ForeningLet who has not been received. -/
def isGone (active : List Int) (u : Member) : Bool :=
  match u.flId with
  | none => false
  | some flId => flId != 0 && !active.contains flId

def deactivate (active : List Int) (u : Member) : Writer cols PUnit :=
  if isGone active u then
    tryCatch (Writer.save { u with isActive := false }) fun _ => pure ⟨⟩
  else pure ⟨⟩

def deactivateRemaining (active : List Int) : Writer cols PUnit := do
  (← get).db.members.forM (deactivate active)

/-- The `try` block. -/
def syncMembers (members : List Item) : Writer cols PUnit := do
  let active ← members.foldlM processItem []
  deactivateRemaining active

/-- `update_fl`, with what `_get_fl_json` has got. -/
def updateFl (s : Site cols) : Option (List Item) → Site cols
  | none => s
  | some members => final (syncMembers members s)

/-- The `try` block comes to its end. -/
def Succeeds (s : Site cols) (members : List Item) : Prop :=
  ∃ t, syncMembers members s = .ok ⟨⟩ t

/-- Usernames are compared as texts, and one with a ligature is normalised. -/
def sampleColumns : Columns where
  username name := name.length ≤ 150
  name name := name.length ≤ 150
  integer n := -2 ^ 31 ≤ n ∧ n < 2 ^ 31
  card card := card.length ≤ 10
  blank := by decide
  normalize login := if login = "\uFB01nn" then "finn" else login
  key := id

def emptySite : Site sampleColumns where
  db := ⟨[], [], [], by decide, by decide, by decide⟩
  nextId := 1
  usernames := by decide
  ids := by decide
  fits := by decide

def sampleItem (id number : Int) (login : String) : Item :=
  .object [("MemberId", .int id), ("MemberNumber", .int number), ("FirstName", .text "Ann"),
    ("LastName", .text "Lee"), ("MemberField6", .text login)]

example : (updateFl (updateFl emptySite (some [sampleItem 3 5 ""]))
    (some [sampleItem 3 5 "ann"])).db.members =
      [⟨2, "ann", "Ann", "Lee", true, some 5, some 3, none⟩] := by decide

/-! ### What an entry does -/

end Loop

namespace Entry

variable (cols : Columns) (names : String → Option String) (e : Entry)

/-- What the account is looked for under. -/
def key : String := cols.key e.login

/-- Where `create_user` puts it. -/
def made : String := cols.key (cols.normalize e.login)

/-- No account has the login, and that under `FL<number>` is to go; `names` are
    the usernames in use, each under its key. -/
def frees (key : String) : Bool :=
  (names (e.key cols)).isNone && key == cols.key (flLogin e.number)

/-- An account is made: there is none under the login, and the database takes the
    normalised one, which fits its column and is not in use then. -/
def makes : Bool :=
  (names (e.key cols)).isNone && cols.username (cols.normalize e.login) &&
    ((names (e.made cols)).isNone || e.frees cols names (e.made cols))

/-- The values of the entry fit their columns. -/
def fieldsFit : Bool :=
  cols.name e.firstName && cols.name e.lastName && cols.integer e.number && cols.integer e.id

/-- The entry gets to its end. -/
def accepted : Bool :=
  e.fieldsFit cols && ((names (e.key cols)).isSome || e.makes cols names)

/-- Where the account of the entry is in the end. -/
def slot : String := if (names (e.key cols)).isSome then e.key cols else e.made cols

end Entry

/-- The usernames in use after an entry, accepted or not. -/
def namesAfter (cols : Columns) (names : String → Option String) (e : Entry) (key : String) :
    Option String :=
  if e.makes cols names && key == e.made cols then some (cols.normalize e.login)
  else if e.frees cols names key then none
  else names key

section Loop

variable {cols : Columns}

/-- The usernames in use. -/
def Site.names (s : Site cols) (key : String) : Option String :=
  (s.account key).map (·.row.username)

theorem Site.names_eq_none {s : Site cols} {key : String} :
    s.names key = none ↔ s.account key = none := Option.map_eq_none_iff

theorem Site.isSome_names {s : Site cols} {key : String} :
    (s.names key).isSome = (s.account key).isSome := Option.isSome_map

theorem Site.isNone_names {s : Site cols} {key : String} :
    (s.names key).isNone = (s.account key).isNone := Option.isNone_map

theorem Site.exists_of_names {s : Site cols} {key username : String}
    (h : s.names key = some username) : ∃ a, s.account key = some a ∧ a.row.username = username :=
  Option.map_eq_some_iff.mp h

theorem Site.exists_of_isSome {s : Site cols} {key : String} (h : (s.names key).isSome = true) :
    ∃ a, s.account key = some a := by
  rw [Site.isSome_names, Option.isSome_iff_exists] at h
  exact h

theorem Site.isSome_of_account {s : Site cols} {key : String} {a : Account}
    (h : s.account key = some a) : (s.names key).isSome = true := by
  rw [Site.isSome_names, h]
  rfl

/-- The account that the entry goes to, a new one if there is none. -/
def Site.accountFor (s : Site cols) (e : Entry) : Account :=
  (s.account (e.key cols)).getD ⟨.new s.nextId (cols.normalize e.login), []⟩

/-- What an entry makes of the table when it is accepted. -/
structure Written (s : Site cols) (e : Entry) (t : Site cols) : Prop where
  nextId : t.nextId = if (s.names (e.key cols)).isSome then s.nextId else s.nextId + 1
  account : ∀ key, t.account key =
    if key = e.slot cols s.names then some (e.write (s.accountFor e))
    else if e.frees cols s.names key then none
    else s.account key

/-- What an entry leaves behind when it is not: nothing if its account is there;
    else the account under `FL<number>` is gone, and the new account, if it could be
    made, is left without the data of the entry. -/
structure LeftBehind (s : Site cols) (e : Entry) (t : Site cols) : Prop where
  nextId : t.nextId = if e.makes cols s.names then s.nextId + 1 else s.nextId
  account : ∀ key, t.account key =
    if e.makes cols s.names && key == e.made cols then
      some ⟨.new s.nextId (cols.normalize e.login), []⟩
    else if e.frees cols s.names key then none
    else s.account key

theorem removePlaceholder_ok {s : Site cols} {e : Entry}
    (hnone : s.account (e.key cols) = none) :
    ∃ t, removePlaceholder e s = .ok ⟨⟩ t ∧ t.nextId = s.nextId ∧
      ∀ key, t.account key = if e.frees cols s.names key then none else s.account key := by
  have hfrees : ∀ key, e.frees cols s.names key = (key == cols.key (flLogin e.number)) := by
    intro key
    rw [Entry.frees, Site.isNone_names, hnone]
    rfl
  unfold removePlaceholder
  by_cases hlogin : e.login = flLogin e.number
  · rw [if_neg (not_not.mpr hlogin)]
    refine ⟨s, rfl, rfl, ?_⟩
    intro key
    rw [hfrees]
    split
    next h =>
      -- the login is `FL<number>`, and is not in use
      rw [beq_iff_eq.mp h, ← hlogin]
      exact hnone
    next => rfl
  rw [if_pos hlogin]
  have hfind := Writer.findUsername_eq s (flLogin e.number)
  cases hfl : s.account (cols.key (flLogin e.number)) with
  | none =>
    rw [hfl] at hfind
    refine ⟨s, bind_ok hfind, rfl, ?_⟩
    intro key
    rw [hfrees]
    split
    next h => rw [beq_iff_eq.mp h, hfl]
    next => rfl
  | some fu =>
    rw [hfl] at hfind
    refine ⟨s.remove fu.row.id, bind_ok hfind, rfl, ?_⟩
    intro key
    rw [Site.account_remove (Site.account_eq_some_iff.mp hfl).1, Site.key_of_account hfl, hfrees]
    by_cases h : key = cols.key (flLogin e.number)
    · rw [if_pos h, if_pos (beq_iff_eq.mpr h)]
    · rw [if_neg h, if_neg fun hbeq => h (beq_iff_eq.mp hbeq)]

theorem userFor_found {s : Site cols} {e : Entry} {a : Account}
    (ha : s.account (e.key cols) = some a) : userFor e s = .ok a.row s := by
  have hfind := Writer.findUsername_eq s e.login
  rw [show s.account (cols.key e.login) = some a from ha] at hfind
  exact bind_ok hfind

theorem userFor_new {s t : Site cols} {e : Entry} (hnone : s.account (e.key cols) = none)
    (ht : removePlaceholder e s = .ok ⟨⟩ t) : userFor e s = Writer.createUser e.login t := by
  have hfind := Writer.findUsername_eq s e.login
  rw [show s.account (cols.key e.login) = none from hnone] at hfind
  exact (bind_ok hfind).trans (bind_ok ht)

/-- Setting the fields of a row that fits keeps it so exactly when they fit. -/
theorem fits_setFields (e : Entry) {u : Member} (hu : cols.fits u = true) :
    cols.fits (e.setFields u) = e.fieldsFit cols := by
  simp only [Columns.fits, Entry.setFields, Entry.fieldsFit, Option.all_some,
    Bool.and_eq_true] at hu ⊢
  simp [hu]

theorem processMember_of_userFor {s t : Site cols} {e : Entry} {key : String} {a : Account}
    (huser : userFor e s = .ok a.row t) (ha : t.account key = some a) :
    (e.fieldsFit cols = true ∧ ∃ t', processMember e s = .ok ⟨⟩ t' ∧
      t'.nextId = t.nextId ∧ ∀ x, t'.account x =
        if x = key then some (e.write a) else t.account x) ∨
    (e.fieldsFit cols = false ∧ processMember e s = .error .dataError t) := by
  have hfits := fits_setFields e (Site.fits_of_account ha)
  have hprocess : processMember e s = Writer.save (e.setFields a.row) t := bind_ok huser
  cases hfields : e.fieldsFit cols with
  | true =>
    rw [hfields] at hfits
    have hset : cols.key (e.setFields a.row).username = key := Site.key_of_account ha
    have ha' : t.account (cols.key (e.setFields a.row).username) = some a := hset.symm ▸ ha
    obtain ⟨t', hsave, hnextId, haccount⟩ := Writer.save_ok ha' rfl hfits
    refine .inl ⟨rfl, t', hprocess.trans hsave, hnextId, ?_⟩
    intro x
    rw [haccount, hset]
    rfl
  | false =>
    rw [hfields] at hfits
    exact .inr ⟨rfl, hprocess.trans (Writer.save_error hfits)⟩

/-- An entry whose account is there. -/
theorem processMember_found {s : Site cols} {e : Entry} {a : Account}
    (ha : s.account (e.key cols) = some a) :
    (e.accepted cols s.names = true ∧ ∃ t, processMember e s = .ok ⟨⟩ t ∧ Written s e t) ∨
    (e.accepted cols s.names = false ∧
      ∃ err t, processMember e s = .error err t ∧ LeftBehind s e t) := by
  have hsome : (s.names (e.key cols)).isSome = true := Site.isSome_of_account ha
  have hnone : (s.names (e.key cols)).isNone = false := by
    rw [Site.isNone_names, ha]
    rfl
  have hfrees : ∀ key, e.frees cols s.names key = false := by
    intro key
    rw [Entry.frees, hnone, Bool.false_and]
  have hmakes : e.makes cols s.names = false := by
    rw [Entry.makes, hnone, Bool.false_and, Bool.false_and]
  have haccepted : e.accepted cols s.names = e.fieldsFit cols := by
    rw [Entry.accepted, hsome, Bool.true_or, Bool.and_true]
  have hslot : e.slot cols s.names = e.key cols := if_pos hsome
  rcases processMember_of_userFor (userFor_found ha) ha with
    ⟨hfits, t, hok, hnextId, haccount⟩ | ⟨hfits, herror⟩
  · refine .inl ⟨haccepted.trans hfits, t, hok, ?_, ?_⟩
    · rw [hnextId, if_pos hsome]
    · intro key
      rw [haccount, hslot, Site.accountFor, ha, Option.getD_some, hfrees]
      rfl
  · refine .inr ⟨haccepted.trans hfits, _, s, herror, ?_, ?_⟩
    · rw [hmakes]
      rfl
    · intro key
      rw [hmakes, hfrees]
      rfl

/-- An entry whose account is to be made. -/
theorem processMember_new {s : Site cols} {e : Entry} (hlogin : s.account (e.key cols) = none) :
    (e.accepted cols s.names = true ∧ ∃ t, processMember e s = .ok ⟨⟩ t ∧ Written s e t) ∨
    (e.accepted cols s.names = false ∧
      ∃ err t, processMember e s = .error err t ∧ LeftBehind s e t) := by
  have hnone : (s.names (e.key cols)).isNone = true := by
    rw [Site.isNone_names, hlogin]
    rfl
  have hsome : ¬ (s.names (e.key cols)).isSome = true := by
    rw [Site.isSome_names, hlogin]
    exact Bool.false_ne_true
  have hslot : e.slot cols s.names = e.made cols := if_neg hsome
  have haccepted : e.accepted cols s.names = (e.fieldsFit cols && e.makes cols s.names) := by
    rw [Entry.accepted, Bool.eq_false_iff.mpr hsome, Bool.false_or]
  obtain ⟨t, hremove, hnextId, haccount⟩ := removePlaceholder_ok hlogin
  have huser := userFor_new hlogin hremove
  -- whether the account can be made, after the other one has gone
  have hmakes : e.makes cols s.names = true ↔ t.account (e.made cols) = none ∧
      cols.username (cols.normalize e.login) = true := by
    rw [Entry.makes, hnone, Bool.true_and, haccount, Bool.and_eq_true, Bool.or_eq_true,
      Site.isNone_names, Option.isNone_iff_eq_none, and_comm]
    cases e.frees cols s.names (e.made cols) <;> simp
  cases hm : e.makes cols s.names with
  | false =>
    have hnot := mt hmakes.mpr (by rw [hm]; exact Bool.false_ne_true)
    obtain ⟨err, hcreate⟩ := Writer.createUser_error e.named hnot
    rw [hcreate] at huser
    refine .inr ⟨by rw [haccepted, hm, Bool.and_false], err, t, bind_error huser, ?_, ?_⟩
    · rw [hm]
      exact hnextId
    · intro key
      rw [hm]
      exact haccount key
  | true =>
    obtain ⟨hfree, hfits⟩ := hmakes.mp hm
    obtain ⟨t', hcreate, hnextId', haccount'⟩ := Writer.createUser_ok e.named hfree hfits
    rw [hcreate] at huser
    have hnew : t'.account (e.made cols) =
        some ⟨.new t.nextId (cols.normalize e.login), []⟩ := by
      rw [haccount']
      exact if_pos rfl
    rcases processMember_of_userFor huser hnew with
      ⟨hfields, t'', hok, hnextId'', haccount''⟩ | ⟨hfields, herror⟩
    · refine .inl ⟨by rw [haccepted, hfields, hm]; rfl, t'', hok, ?_, ?_⟩
      · rw [hnextId'', hnextId', hnextId, if_neg hsome]
      · intro key
        rw [haccount'', haccount', haccount, hslot, Site.accountFor, hlogin, Option.getD_none,
          hnextId]
        by_cases h : key = e.made cols
        · rw [if_pos h, if_pos h]
        · rw [if_neg h, if_neg h, if_neg (by exact h)]
    · refine .inr ⟨by rw [haccepted, hfields, Bool.false_and], _, t', herror, ?_, ?_⟩
      · rw [hnextId', hnextId, hm]
        rfl
      · intro key
        rw [haccount', hnextId, haccount, hm, Bool.true_and]
        by_cases h : key = e.made cols
        · rw [if_pos (by exact h), if_pos (beq_iff_eq.mpr h)]
        · rw [if_neg (by exact h), if_neg fun hbeq => h (beq_iff_eq.mp hbeq)]

/-- **One entry**: it is written, or it leaves something behind. -/
theorem processMember_cases (e : Entry) (s : Site cols) :
    (e.accepted cols s.names = true ∧ ∃ t, processMember e s = .ok ⟨⟩ t ∧ Written s e t) ∨
    (e.accepted cols s.names = false ∧
      ∃ err t, processMember e s = .error err t ∧ LeftBehind s e t) := by
  cases hlogin : s.account (e.key cols) with
  | some a => exact processMember_found hlogin
  | none => exact processMember_new hlogin

/-! ### What the deactivation does -/

def Account.deactivated (active : List Int) (a : Account) : Account :=
  if isGone active a.row then { a with row := { a.row with isActive := false } } else a

section Deactivated

variable (active : List Int) (a : Account)

@[simp] theorem deactivated_flId : (a.deactivated active).row.flId = a.row.flId := by
  rw [Account.deactivated]
  split <;> rfl

@[simp] theorem deactivated_username :
    (a.deactivated active).row.username = a.row.username := by
  rw [Account.deactivated]
  split <;> rfl

@[simp] theorem deactivated_id : (a.deactivated active).row.id = a.row.id := by
  rw [Account.deactivated]
  split <;> rfl

@[simp] theorem deactivated_cardId : (a.deactivated active).row.cardId = a.row.cardId := by
  rw [Account.deactivated]
  split <;> rfl

@[simp] theorem deactivated_machines : (a.deactivated active).machines = a.machines := by
  rw [Account.deactivated]
  split <;> rfl

variable {active a}

theorem deactivated_eq_self (h : isGone active a.row = false) : a.deactivated active = a := by
  rw [Account.deactivated, h]
  rfl

theorem isGone_of_flId {u : Member} {n : Int} (h : u.flId = some n) :
    isGone active u = (n != 0 && !active.contains n) := by
  rw [isGone, h]

/-- Those who have been received stay. -/
theorem deactivated_of_mem {n : Int} (h : a.row.flId = some n) (hmem : n ∈ active) :
    a.deactivated active = a := by
  apply deactivated_eq_self
  rw [isGone_of_flId h]
  simp [hmem]

/-- An active member of ForeningLet after the deactivation has been received. -/
theorem mem_of_isActive {n : Int} (h : a.row.flId = some n) (hne : n ≠ 0)
    (hactive : (a.deactivated active).row.isActive = true) : n ∈ active := by
  by_contra hnot
  have hgone : isGone active a.row = true := by
    rw [isGone_of_flId h]
    simp [hne, hnot]
  rw [Account.deactivated, if_pos hgone] at hactive
  cases hactive

end Deactivated

theorem deactivate_ok (active : List Int) {s : Site cols} {key : String} {a : Account}
    (ha : s.account key = some a) :
    ∃ t, deactivate active a.row s = .ok ⟨⟩ t ∧ t.nextId = s.nextId ∧
      ∀ x, t.account x = if x = key then some (a.deactivated active) else s.account x := by
  have hkey := Site.key_of_account ha
  unfold deactivate Account.deactivated
  split
  next =>
    have hfits : cols.fits { a.row with isActive := false } = true := Site.fits_of_account ha
    have ha' : s.account (cols.key ({ a.row with isActive := false } : Member).username) = some a :=
      hkey.symm ▸ ha
    obtain ⟨t, hsave, hnextId, haccount⟩ := Writer.save_ok ha' rfl hfits
    refine ⟨t, tryCatch_ok hsave _, hnextId, ?_⟩
    intro x
    rw [haccount]
    dsimp only
    rw [hkey]
  next =>
    refine ⟨s, rfl, rfl, ?_⟩
    intro x
    split
    next h => rw [h, ha]
    next => rfl

/-- The loop over rows that the table has. -/
theorem deactivateLoop_ok (active : List Int) (rows : List Member) :
    ∀ s : Site cols, (rows.map fun u => cols.key u.username).Nodup →
      (∀ u ∈ rows, ∃ a, s.account (cols.key u.username) = some a ∧ a.row = u) →
      ∃ t, rows.forM (deactivate active) s = .ok ⟨⟩ t ∧ t.nextId = s.nextId ∧
        ∀ x, t.account x = if x ∈ rows.map fun u => cols.key u.username then
          (s.account x).map (·.deactivated active) else s.account x := by
  induction rows with
  | nil =>
    intro s _ _
    exact ⟨s, rfl, rfl, by simp⟩
  | cons u rows ih =>
    intro s hnodup hrows
    rw [List.map_cons, List.nodup_cons] at hnodup
    obtain ⟨a, ha, rfl⟩ := hrows u (List.mem_cons_self ..)
    obtain ⟨t, hturn, hnextId, haccount⟩ := deactivate_ok active ha
    have hrest : ∀ v ∈ rows, ∃ b, t.account (cols.key v.username) = some b ∧ b.row = v := by
      intro v hv
      have hne : cols.key v.username ≠ cols.key a.row.username := by
        intro h
        exact hnodup.1 (List.mem_map.mpr ⟨v, hv, h⟩)
      rw [haccount, if_neg hne]
      exact hrows v (List.mem_cons_of_mem _ hv)
    obtain ⟨t', hloop, hnextId', haccount'⟩ := ih t hnodup.2 hrest
    refine ⟨t', (bind_ok hturn).trans hloop, hnextId'.trans hnextId, ?_⟩
    intro x
    rw [haccount', haccount, List.map_cons]
    by_cases h : x = cols.key a.row.username
    · have hnot : x ∉ rows.map fun u => cols.key u.username := h ▸ hnodup.1
      rw [if_neg hnot, if_pos h, if_pos (h ▸ List.mem_cons_self), h, ha, Option.map_some]
    · rw [if_neg h]
      simp only [List.mem_cons, h, false_or]

/-- **The deactivation** does not fail, and touches only members who are gone. -/
theorem deactivateRemaining_ok (active : List Int) (s : Site cols) :
    ∃ t, deactivateRemaining active s = .ok ⟨⟩ t ∧ t.nextId = s.nextId ∧
      ∀ key, t.account key = (s.account key).map (·.deactivated active) := by
  have hrows : ∀ u ∈ s.db.members, ∃ a, s.account (cols.key u.username) = some a ∧ a.row = u := by
    intro u hu
    have hmem : ⟨u, Site.machinesOf s.db u.id⟩ ∈ s.accounts := Site.mem_accounts.mpr ⟨hu, rfl⟩
    exact ⟨_, Site.mem_accounts_iff.mp hmem, rfl⟩
  obtain ⟨t, hloop, hnextId, haccount⟩ := deactivateLoop_ok active s.db.members s s.usernames hrows
  refine ⟨t, hloop, hnextId, ?_⟩
  intro key
  rw [haccount]
  split
  next => rfl
  next h =>
    have hnone : s.account key = none := by
      rw [Site.account_eq_none_iff]
      intro row hrow hu
      exact h (List.mem_map.mpr ⟨row, hrow, hu⟩)
    rw [hnone, Option.map_none]

/-! ### What a run does -/

/-- The table that an entry leaves, accepted or not. -/
def Site.process (s : Site cols) (e : Entry) : Site cols := final (processMember e s)

theorem Site.process_written {s : Site cols} {e : Entry} (h : e.accepted cols s.names = true) :
    Written s e (s.process e) := by
  rcases processMember_cases e s with ⟨_, t, hok, hwritten⟩ | ⟨hnot, _⟩
  · rw [Site.process, hok]
    exact hwritten
  · exact absurd (h.symm.trans hnot) (by decide)

theorem Site.process_leftBehind {s : Site cols} {e : Entry}
    (h : e.accepted cols s.names = false) : LeftBehind s e (s.process e) := by
  rcases processMember_cases e s with ⟨hnot, _⟩ | ⟨_, err, t, herror, hleft⟩
  · exact absurd (hnot.symm.trans h) (by decide)
  · rw [Site.process, herror]
    exact hleft

/-- The element can be read and its entry is accepted, where `names` are the
    usernames in use. -/
def Item.Good (cols : Columns) (names : String → Option String) (m : Item) : Prop :=
  ∃ e, m.read = .ok e ∧ e.accepted cols names = true

/-- The entries that can be read. -/
def entries (members : List Item) : List Entry := members.filterMap fun m => m.read.toOption

/-- The loop gets through the elements without an exception. -/
structure Processed (cols : Columns) (names : String → Option String) (members : List Item) :
    Prop where
  read : ∀ m ∈ members, ∃ e, m.read = .ok e
  accepted : Runs.Along (namesAfter cols) (fun names e => e.accepted cols names = true) names
    (entries members)

def Site.processItem (s : Site cols) (m : Item) : Site cols :=
  match m.read with
  | .ok e => s.process e
  | .error _ => s

theorem processItem_screened :
    Screened (@processItem cols) (fun s m => m.Good cols s.names)
      (fun active m => active ++ (entries [m]).map (·.number)) Site.processItem
      Site.processItem where
  ok := by
    rintro active m s ⟨e, hread, haccepted⟩
    have hentries : entries [m] = [e] := by simp [entries, hread, Except.toOption]
    rcases processMember_cases e s with ⟨_, t, hok, _⟩ | ⟨hnot, _⟩
    · rw [hentries]
      unfold processItem Site.processItem
      rw [hread]
      dsimp only
      rw [Site.process, hok]
      exact bind_ok hok
    · exact absurd (haccepted.symm.trans hnot) (by decide)
  error := by
    intro active m s hbad
    unfold processItem Site.processItem
    cases hread : m.read with
    | error err => exact ⟨err, rfl⟩
    | ok e =>
      dsimp only
      rcases processMember_cases e s with ⟨haccepted, _⟩ | ⟨_, err, t, herror, _⟩
      · exact absurd ⟨e, hread, haccepted⟩ hbad
      · rw [Site.process, herror]
        exact ⟨_, bind_error herror⟩

theorem entries_cons (m : Item) (members : List Item) :
    entries (m :: members) = entries [m] ++ entries members := by
  cases h : m.read.toOption <;> simp [entries, h]

theorem entries_of_read {m : Item} {e : Entry} (h : m.read = .ok e) : entries [m] = [e] := by
  simp [entries, h, Except.toOption]

theorem exec_processItem (s : Site cols) (members : List Item) :
    Runs.exec Site.processItem s members = Runs.exec Site.process s (entries members) := by
  induction members generalizing s with
  | nil => rfl
  | cons m members ih =>
    rw [Runs.exec_cons, ih, entries_cons, Runs.exec_append]
    unfold Site.processItem
    cases h : m.read <;> simp [entries, h, Except.toOption]

theorem foldl_numbers (members : List Item) (active : List Int) :
    members.foldl (fun active m => active ++ (entries [m]).map (·.number)) active =
      active ++ (entries members).map (·.number) := by
  induction members generalizing active with
  | nil => simp [entries]
  | cons m members ih =>
    rw [List.foldl_cons, ih, entries_cons m members, List.map_append, List.append_assoc]

/-- **The usernames in use** after an entry follow from those before. -/
theorem names_process (s : Site cols) (e : Entry) :
    (s.process e).names = namesAfter cols s.names e := by
  funext key
  rw [Site.names, namesAfter]
  cases haccepted : e.accepted cols s.names with
  | false =>
    rw [(Site.process_leftBehind haccepted).account]
    split
    · rfl
    · split
      · rfl
      · rfl
  | true =>
    rw [(Site.process_written haccepted).account, Entry.slot]
    cases hfound : s.account (e.key cols) with
    | some a =>
      have hsome : (s.names (e.key cols)).isSome = true := Site.isSome_of_account hfound
      have hnone : (s.names (e.key cols)).isNone = false := by
        rw [Site.isNone_names, hfound]
        rfl
      rw [if_pos hsome, Entry.makes, Entry.frees, hnone, Bool.false_and, Bool.false_and,
        Bool.false_and, Bool.false_and]
      by_cases hkey : key = e.key cols
      · rw [if_pos hkey, Site.accountFor, hfound, hkey, Site.names, hfound]
        rfl
      · rw [if_neg hkey]
        rfl
    | none =>
      have hsome : (s.names (e.key cols)).isSome = false := by
        rw [Site.isSome_names, hfound]
        rfl
      have hmakes : e.makes cols s.names = true := by
        rw [Entry.accepted, hsome, Bool.false_or, Bool.and_eq_true] at haccepted
        exact haccepted.2
      rw [hsome, hmakes, Bool.true_and, if_neg Bool.false_ne_true]
      by_cases hkey : key = e.made cols
      · rw [if_pos hkey, if_pos (beq_iff_eq.mpr hkey), Site.accountFor, hfound]
        rfl
      · rw [if_neg hkey, if_neg fun hbeq => hkey (beq_iff_eq.mp hbeq)]
        split <;> rfl

/-- **The loop follows the machine of the usernames.** -/
theorem names_run (s : Site cols) (es : List Entry) :
    (Runs.exec Site.process s es).names = Runs.exec (namesAfter cols) s.names es := by
  induction es generalizing s with
  | nil => rfl
  | cons e es ih => rw [Runs.exec_cons, Runs.exec_cons, ih, names_process]

theorem processed_cons {names : String → Option String} {m : Item} {members : List Item} :
    Processed cols names (m :: members) ↔ m.Good cols names ∧
      Processed cols (Runs.exec (namesAfter cols) names (entries [m])) members := by
  constructor
  · rintro ⟨hread, haccepted⟩
    obtain ⟨e, he⟩ := hread m List.mem_cons_self
    rw [entries_cons, entries_of_read he] at haccepted
    refine ⟨⟨e, he, haccepted.1⟩, fun m' hm' => hread m' (List.mem_cons_of_mem _ hm'), ?_⟩
    rw [entries_of_read he]
    exact haccepted.2
  · rintro ⟨⟨e, he, haccepted⟩, hread, hrest⟩
    refine ⟨List.forall_mem_cons.mpr ⟨⟨e, he⟩, hread⟩, ?_⟩
    rw [entries_of_read he] at hrest
    rw [entries_cons, entries_of_read he]
    exact ⟨haccepted, hrest⟩

theorem along_processItem_iff {s : Site cols} {members : List Item} :
    Runs.Along Site.processItem (fun s m => m.Good cols s.names) s members ↔
      Processed cols s.names members := by
  induction members generalizing s with
  | nil => exact iff_of_true trivial ⟨fun _ hm => absurd hm List.not_mem_nil, trivial⟩
  | cons m members ih =>
    have hnames : (s.processItem m).names =
        Runs.exec (namesAfter cols) s.names (entries [m]) := by
      rw [← names_run, ← exec_processItem]
      rfl
    rw [Runs.Along, ih, hnames, processed_cons]

/-- A run gets through its elements, or comes to a first one that is not good. -/
theorem processed_or_first_bad (s : Site cols) (members : List Item) :
    Processed cols s.names members ∨ ∃ pre m post, members = pre ++ m :: post ∧
      Processed cols s.names pre ∧
      ¬ m.Good cols (Runs.exec (namesAfter cols) s.names (entries pre)) := by
  rcases Runs.along_or_first Site.processItem (fun s m => m.Good cols s.names) s members with
    hgood | ⟨pre, m, post, hsplit, hpre, hbad⟩
  · exact .inl (along_processItem_iff.mp hgood)
  · rw [exec_processItem, names_run] at hbad
    exact .inr ⟨pre, m, post, hsplit, along_processItem_iff.mp hpre, hbad⟩

/-- **A run that succeeds**: it gets through its elements, and the table is that of
    the loop with the other members of ForeningLet deactivated. -/
theorem syncMembers_ok {s : Site cols} {members : List Item}
    (hgood : Processed cols s.names members) :
    ∃ t, syncMembers members s = .ok ⟨⟩ t ∧
      t.nextId = (Runs.exec Site.process s (entries members)).nextId ∧
      ∀ key, t.account key =
        ((Runs.exec Site.process s (entries members)).account key).map
          (·.deactivated ((entries members).map (·.number))) := by
  have hloop := processItem_screened.foldlM_ok [] (along_processItem_iff.mpr hgood)
  rw [exec_processItem, foldl_numbers, List.nil_append] at hloop
  obtain ⟨t, hrest, hnextId, haccount⟩ := deactivateRemaining_ok
    ((entries members).map (·.number)) (Runs.exec Site.process s (entries members))
  exact ⟨t, (bind_ok hloop).trans hrest, hnextId, haccount⟩

/-- **A run that fails** does so at the first element that is not good, and does
    not deactivate anyone. -/
theorem syncMembers_error {s : Site cols} {pre : List Item} {m : Item}
    (hgood : Processed cols s.names pre)
    (hbad : ¬ m.Good cols (Runs.exec (namesAfter cols) s.names (entries pre))) (post : List Item) :
    ∃ err, syncMembers (pre ++ m :: post) s =
      .error err ((Runs.exec Site.process s (entries pre)).processItem m) := by
  rw [← names_run, ← exec_processItem] at hbad
  obtain ⟨err, hloop⟩ :=
    processItem_screened.foldlM_error [] (along_processItem_iff.mpr hgood) hbad post
  rw [exec_processItem] at hloop
  exact ⟨err, bind_error hloop⟩

theorem not_succeeds_of_bad {s : Site cols} {pre : List Item} {m : Item}
    (hgood : Processed cols s.names pre)
    (hbad : ¬ m.Good cols (Runs.exec (namesAfter cols) s.names (entries pre))) (post : List Item) :
    ¬ Succeeds s (pre ++ m :: post) := by
  rintro ⟨t, hok⟩
  obtain ⟨err, herror⟩ := syncMembers_error hgood hbad post
  rw [herror] at hok
  cases hok

theorem succeeds_iff {s : Site cols} {members : List Item} :
    Succeeds s members ↔ Processed cols s.names members := by
  constructor
  · intro hok
    rcases processed_or_first_bad s members with hgood | ⟨pre, m, post, rfl, hpre, hbad⟩
    · exact hgood
    · exact absurd hok (not_succeeds_of_bad hpre hbad post)
  · intro hgood
    obtain ⟨t, hok, _⟩ := syncMembers_ok hgood
    exact ⟨t, hok⟩

theorem Succeeds.accepted {s : Site cols} {members : List Item} (h : Succeeds s members) :
    Runs.Along (namesAfter cols) (fun names e => e.accepted cols names = true) s.names
      (entries members) :=
  (succeeds_iff.mp h).accepted

/-- The values of entries that are accepted fit their columns. -/
theorem forall_fieldsFit {names : String → Option String} {es : List Entry}
    (h : Runs.Along (namesAfter cols) (fun names e => e.accepted cols names = true) names es) :
    ∀ e ∈ es, e.fieldsFit cols = true := by
  intro e he
  obtain ⟨pre, post, rfl⟩ := List.append_of_mem he
  have haccepted : e.accepted cols (Runs.exec (namesAfter cols) names pre) = true :=
    (Runs.along_append.mp h).2.1
  rw [Entry.accepted, Bool.and_eq_true] at haccepted
  exact haccepted.1

theorem Succeeds.updateFl {s : Site cols} {members : List Item} (h : Succeeds s members) :
    (updateFl s (some members)).nextId =
        (Runs.exec Site.process s (entries members)).nextId ∧
      ∀ key, (updateFl s (some members)).account key =
        ((Runs.exec Site.process s (entries members)).account key).map
          (·.deactivated ((entries members).map (·.number))) := by
  obtain ⟨t, hok, hnextId, haccount⟩ := syncMembers_ok (succeeds_iff.mp h)
  rw [Acs.Backend.updateFl, hok]
  exact ⟨hnextId, haccount⟩

/-- A run that fails ends at the first bad element. -/
theorem updateFl_of_first_bad {s : Site cols} {pre : List Item} {m : Item}
    (hpre : Processed cols s.names pre)
    (hbad : ¬ m.Good cols (Runs.exec (namesAfter cols) s.names (entries pre))) (post : List Item) :
    updateFl s (some (pre ++ m :: post)) =
      (Runs.exec Site.process s (entries pre)).processItem m := by
  obtain ⟨err, herror⟩ := syncMembers_error hpre hbad post
  rw [updateFl, herror, final_error]

/-- The entries that the loop gets to: up to the first that is not accepted, or
    that cannot be read. -/
def reached (cols : Columns) : (String → Option String) → List Item → List Entry
  | _, [] => []
  | names, m :: members =>
      match m.read with
      | .ok e =>
          e :: if e.accepted cols names then reached cols (namesAfter cols names e) members else []
      | .error _ => []

theorem mem_entries_of_reached {names : String → Option String} {members : List Item} {e : Entry}
    (h : e ∈ reached cols names members) : e ∈ entries members := by
  induction members generalizing names with
  | nil => exact h
  | cons m members ih =>
    rw [reached] at h
    rw [entries_cons, List.mem_append]
    cases hread : m.read with
    | error err =>
      rw [hread] at h
      cases h
    | ok d =>
      rw [hread] at h
      rw [entries_of_read hread]
      rcases List.mem_cons.mp h with rfl | hrest
      · exact .inl (List.mem_singleton_self e)
      · split at hrest
        next => exact .inr (ih hrest)
        next => cases hrest

theorem reached_append {names : String → Option String} {pre : List Item}
    (hpre : Processed cols names pre) (rest : List Item) :
    reached cols names (pre ++ rest) =
      entries pre ++ reached cols (Runs.exec (namesAfter cols) names (entries pre)) rest := by
  induction pre generalizing names with
  | nil => rfl
  | cons m pre ih =>
    obtain ⟨⟨e, hread, haccepted⟩, hpre⟩ := processed_cons.mp hpre
    rw [entries_of_read hread] at hpre
    rw [List.cons_append, reached, hread, entries_cons, entries_of_read hread]
    dsimp only
    rw [if_pos haccepted, List.singleton_append, Runs.exec_cons, List.cons_append]
    exact congrArg _ (ih hpre)

theorem reached_of_processed {names : String → Option String} {members : List Item}
    (h : Processed cols names members) : reached cols names members = entries members := by
  have happend := reached_append h []
  rw [List.append_nil, reached, List.append_nil] at happend
  exact happend

theorem reached_of_bad {names : String → Option String} {m : Item} (hbad : ¬ m.Good cols names)
    (post : List Item) : reached cols names (m :: post) = entries [m] := by
  rw [reached]
  cases hread : m.read with
  | error err => simp [entries, hread, Except.toOption]
  | ok e =>
    rw [entries_of_read hread]
    dsimp only
    rw [if_neg fun haccepted => hbad ⟨e, hread, haccepted⟩]

/-- **A run** is the loop over the entries that it gets to, and if these are all of
    them the deactivation after it. -/
theorem updateFl_cases (s : Site cols) (members : List Item) :
    (Succeeds s members ∧ reached cols s.names members = entries members) ∨
      (¬ Succeeds s members ∧
        updateFl s (some members) = Runs.exec Site.process s (reached cols s.names members)) := by
  rcases processed_or_first_bad s members with hgood | ⟨pre, m, post, rfl, hpre, hbad⟩
  · exact .inl ⟨succeeds_iff.mpr hgood, reached_of_processed hgood⟩
  · refine .inr ⟨not_succeeds_of_bad hpre hbad post, ?_⟩
    rw [updateFl_of_first_bad hpre hbad, reached_append hpre, reached_of_bad hbad,
      Runs.exec_append, ← exec_processItem _ [m]]
    rfl

end Loop

end Acs.Backend
