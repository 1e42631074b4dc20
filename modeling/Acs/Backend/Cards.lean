/-
  Acs/Backend/Cards.lean
  ======================
  **Who has which card** (`members/models.py`, `synch/cards.py`).

  Three programs write members: the admin pages, which check with `clean` that
  nobody else has the card, the import of cards from a file, which does not, and
  the ForeningLet sync, which sets no cards.  Nothing in the table keeps two
  members from having the same card.
-/
import Acs.Backend.SyncRuns

namespace Acs.Backend

open Effects

/-! ### The admin pages -/

/-- A form as it comes back; the username is read-only. -/
structure Edit where
  id : Nat
  firstName : String
  lastName : String
  isActive : Bool
  flId : Option Int
  cardId : Option String
  machines : List Nat

def Edit.apply (change : Edit) (u : Member) : Member :=
  { u with
    firstName := change.firstName
    lastName := change.lastName
    isActive := change.isActive
    flId := change.flId
    cardId := change.cardId }

section Writers

variable {cols : Columns}

/-- `row.machine.set(machines)`. -/
def setMachines (row : Member) (machines : List Nat) : Writer cols PUnit := fun s =>
  if hrow : row.id ∈ s.db.members.map (·.id) then .ok ⟨⟩ (s.setMachines row hrow machines)
  else .error .integrityError s

def clean (row : Member) : Writer cols PUnit := fun s =>
  if row.hasCard &&
      (s.db.members.filter fun user => user.cardId == row.cardId).any fun user =>
        user.id != row.id then
    .error .validationError s
  else .ok ⟨⟩ s

/-- The form is saved when `clean` has nothing against it. -/
def saveEdit (change : Edit) : Writer cols PUnit := do
  match ← Writer.find fun row => row.id == change.id with
  | none => pure ⟨⟩
  | some u => do
    clean (change.apply u)
    Writer.save (change.apply u)
    setMachines (change.apply u) change.machines

/-! ### The import of cards -/

/-- What a row of the file asks for: the member with this number gets this card. -/
def assignment (row : List String) : Except Error (Option (Int × String)) :=
  match row with
  | [] => .ok none
  | first :: rest =>
      let flId := Text.strip first
      if Text.isdecimal flId then
        match Text.int flId with
        | none => .error .valueError
        | some flId =>
            if flId = 0 then .ok none
            else
              match rest with
              | [] => .error .indexError
              | second :: _ =>
                  let cardId := Text.strip second
                  if cardId = "" then .ok none else .ok (some (flId, cardId))
      else .ok none

def importRow (count : Nat) (row : List String) : Writer cols Nat :=
  match assignment row with
  | .error err => throw err
  | .ok none => pure count
  | .ok (some (flId, cardId)) => do
    match ← Writer.find fun u => u.flId == some flId with
    | none => pure count
    | some u => do
      Writer.save { u with cardId := some cardId }
      return count + 1

def importCards (rows : List (List String)) : Writer cols Nat := rows.foldlM importRow 0

end Writers

/-! ### Cards that only one member has -/

def CardsUnique {cols : Columns} (s : Site cols) : Prop :=
  ∀ a ∈ s.accounts, ∀ b ∈ s.accounts,
    a.row.hasCard = true → a.row.cardId = b.row.cardId → a = b

/-- The row gives a member a card that another member has. -/
def Clashes {cols : Columns} (s : Site cols) (row : List String) : Prop :=
  ∃ flId cardId u, assignment row = .ok (some (flId, cardId)) ∧ cols.card cardId = true ∧
    Table.get (fun u => u.flId == some flId) s.db.members = .ok u ∧
    ∃ v ∈ s.db.members, v.id ≠ u.id ∧ v.cardId = some cardId

section Unique

variable {cols : Columns} {s t : Site cols}

theorem cardsUnique_iff : CardsUnique s ↔ ∀ x y a b, s.account x = some a →
    s.account y = some b → a.row.hasCard = true → a.row.cardId = b.row.cardId → x = y := by
  constructor
  · intro h x y a b hx hy hcard hsame
    have hab := h a (Site.account_eq_some_iff.mp hx).1 b (Site.account_eq_some_iff.mp hy).1
      hcard hsame
    rw [← Site.key_of_account hx, ← Site.key_of_account hy, hab]
  · intro h a ha b hb hcard hsame
    have ha' := Site.mem_accounts_iff.mp ha
    have hb' := Site.mem_accounts_iff.mp hb
    rw [← h _ _ a b ha' hb' hcard hsame] at hb'
    exact Option.some.inj (ha'.symm.trans hb')

/-- Nobody gets a card. -/
theorem CardsUnique.mono (hs : CardsUnique s)
    (hcards : ∀ x b, t.account x = some b → b.row.hasCard = true →
      ∃ a, s.account x = some a ∧ a.row.cardId = b.row.cardId) : CardsUnique t := by
  rw [cardsUnique_iff] at hs ⊢
  intro x y a b hx hy hcard hsame
  have hcardb : b.row.hasCard = true := by
    rw [Member.hasCard, ← hsame]
    exact hcard
  obtain ⟨a', hx', ha'⟩ := hcards x a hx hcard
  obtain ⟨b', hy', hb'⟩ := hcards y b hy hcardb
  apply hs x y a' b' hx' hy'
  · rw [Member.hasCard, ha']
    exact hcard
  · rw [ha', hb', hsame]

/-- One account is saved with a card: nobody else may have that card. -/
theorem cardsUnique_saved_iff (hs : CardsUnique s) {key : String} {c : Account}
    (ht : ∀ x, t.account x = if x = key then some c else s.account x) :
    CardsUnique t ↔ (c.row.hasCard = true → ∀ x a, x ≠ key → s.account x = some a →
      a.row.cardId ≠ c.row.cardId) := by
  rw [cardsUnique_iff] at hs ⊢
  constructor
  · intro h hcard x a hne hx hsame
    have hc : t.account key = some c := by rw [ht, if_pos rfl]
    have hx' : t.account x = some a := by rw [ht, if_neg hne, hx]
    exact hne (h key x c a hc hx' hcard hsame.symm).symm
  · intro h x y a b hx hy hcard hsame
    rw [ht] at hx hy
    have hcardb : b.row.hasCard = true := by
      rw [Member.hasCard, ← hsame]
      exact hcard
    split at hx
    next hxu =>
      obtain rfl := Option.some.inj hx
      split at hy
      next hyu => exact hxu.trans hyu.symm
      next hyu => exact absurd hsame.symm (h hcard y b hyu hy)
    next hxu =>
      split at hy
      next hyu =>
        obtain rfl := Option.some.inj hy
        exact absurd hsame (h hcardb x a hxu hx)
      next hyu => exact hs x y a b hx hy hcard hsame

/-- The account of a row of the table. -/
theorem account_of_mem {u : Member} (hu : u ∈ s.db.members) :
    s.account (cols.key u.username) = some ⟨u, Site.machinesOf s.db u.id⟩ :=
  Site.account_eq_some_iff.mpr ⟨Site.mem_accounts.mpr ⟨hu, rfl⟩, rfl⟩

theorem others_iff {u : Member} (hu : u ∈ s.db.members) (card : Option String) :
    (∀ x a, x ≠ cols.key u.username → s.account x = some a → a.row.cardId ≠ card) ↔
      ∀ v ∈ s.db.members, v.id ≠ u.id → v.cardId ≠ card := by
  constructor
  · intro h v hv hid
    have hne : cols.key v.username ≠ cols.key u.username := by
      intro hkey
      exact hid (congrArg _ (List.inj_on_of_nodup_map s.usernames hv hu hkey))
    exact h (cols.key v.username) _ hne (account_of_mem hv)
  · intro h x a hne hx
    have ha := (Site.mem_accounts.mp (Site.account_eq_some_iff.mp hx).1).1
    apply h a.row ha
    intro hid
    have hsame := Database.member_eq_of_id ha hu hid
    exact hne (by rw [← Site.key_of_account hx, hsame])

/-! ### What each writer does to the cards -/

theorem cardsUnique_process (hs : CardsUnique s) (e : Entry) : CardsUnique (s.process e) := by
  apply hs.mono
  intro x b hb hcard
  rcases process_rights hb with ⟨_, a, ha, hsame⟩ | ⟨_, hblank⟩
  · exact ⟨a, ha, hsame.1⟩
  · rw [Member.hasCard, hblank.1] at hcard
    cases hcard

theorem cardsUnique_run (hs : CardsUnique s) (es : List Entry) :
    CardsUnique (Runs.exec Site.process s es) := by
  apply Runs.exec_invariant_of_forall Site.process (fun _ => True) CardsUnique _ hs
  · intro _ _
    trivial
  · intro t e ht _
    exact cardsUnique_process ht e

/-- The sync keeps the cards unique, also when it fails. -/
theorem cardsUnique_updateFl (hs : CardsUnique s) (received : Option (List Item)) :
    CardsUnique (updateFl s received) := by
  cases received with
  | none => exact hs
  | some members =>
    rcases updateFl_cases s members with ⟨hok, _⟩ | ⟨_, hloop⟩
    · apply (cardsUnique_run hs (entries members)).mono
      intro x b hb hcard
      obtain ⟨a, ha, rfl⟩ := account_updateFl hok hb
      exact ⟨a, ha, (deactivated_cardId _ a).symm⟩
    · rw [hloop]
      exact cardsUnique_run hs _

theorem clean_cases (row : Member) (s : Site cols) :
    (clean row s = .ok ⟨⟩ s ∧ (row.hasCard = true → ∀ user ∈ s.db.members,
      user.id ≠ row.id → user.cardId ≠ row.cardId)) ∨
    clean row s = .error .validationError s := by
  unfold clean
  split
  next => exact .inr rfl
  next h =>
    refine .inl ⟨rfl, ?_⟩
    intro hcard user hmem hid hsame
    apply h
    simp only [Bool.and_eq_true, List.any_eq_true, List.mem_filter, beq_iff_eq, bne_iff_ne]
    exact ⟨hcard, user, ⟨hmem, hsame⟩, hid⟩

theorem cardsUnique_of_members (hmembers : t.db.members = s.db.members) (hs : CardsUnique s) :
    CardsUnique t := by
  apply hs.mono
  intro x b hb _
  have hrow := (Site.mem_accounts.mp (Site.account_eq_some_iff.mp hb).1).1
  rw [hmembers] at hrow
  have haccount := account_of_mem hrow
  rw [Site.key_of_account hb] at haccount
  exact ⟨_, haccount, rfl⟩

/-- A row of the table that is saved with other columns. -/
theorem save_cases {u : Member} (row : Member) (hu : u ∈ s.db.members) (hid : row.id = u.id)
    (husername : row.username = u.username) :
    (cols.fits row = true ∧ ∃ t, Writer.save row s = .ok ⟨⟩ t ∧ ∀ x, t.account x =
      if x = cols.key u.username then some ⟨row, Site.machinesOf s.db u.id⟩ else s.account x) ∨
    (cols.fits row = false ∧ Writer.save row s = .error .dataError s) := by
  cases hfits : cols.fits row with
  | false => exact .inr ⟨rfl, Writer.save_error hfits⟩
  | true =>
    have hacc := account_of_mem hu
    rw [← husername] at hacc
    obtain ⟨t, hok, _, haccount⟩ := Writer.save_ok hacc hid.symm hfits
    rw [husername] at haccount
    exact .inl ⟨rfl, t, hok, haccount⟩

/-- An edit that `clean` lets pass keeps the cards unique. -/
theorem cardsUnique_saveEdit (hs : CardsUnique s) (change : Edit) :
    CardsUnique (final (saveEdit change s)) := by
  unfold saveEdit
  rcases Writer.find_cases (fun row => row.id == change.id) s with
    ⟨u, hget, hfind⟩ | ⟨_, hfind | hfind⟩
  · rw [bind_ok hfind]
    dsimp only
    have hu := (Table.mem_of_get hget).1
    rcases clean_cases (change.apply u) s with ⟨hclean, hfree⟩ | hclean
    · rw [bind_ok hclean]
      rcases save_cases (change.apply u) hu rfl rfl with
        ⟨_, t, hsave, haccount⟩ | ⟨_, hsave⟩
      · rw [bind_ok hsave]
        have ht : CardsUnique t := by
          rw [cardsUnique_saved_iff hs haccount]
          intro hcard
          rw [others_iff hu]
          exact hfree hcard
        unfold setMachines
        split
        next hrow =>
          exact cardsUnique_of_members (s := t)
            (t := t.setMachines (change.apply u) hrow change.machines) rfl ht
        next => exact ht
      · rw [bind_error hsave]
        exact hs
    · rw [bind_error hclean]
      exact hs
  · rw [bind_ok hfind]
    exact hs
  · rw [bind_error hfind]
    exact hs

theorem assignment_ne_empty {row : List String} {flId : Int} {cardId : String}
    (h : assignment row = .ok (some (flId, cardId))) : cardId ≠ "" := by
  unfold assignment at h
  grind

/-- The row gives this card to this member. -/
def Gives (s : Site cols) (row : List String) (cardId : String) (u : Member) : Prop :=
  ∃ flId, assignment row = .ok (some (flId, cardId)) ∧
    Table.get (fun u => u.flId == some flId) s.db.members = .ok u ∧ cols.card cardId = true

theorem Gives.unique {row : List String} {cardId cardId' : String} {u u' : Member}
    (h : Gives s row cardId u) (h' : Gives s row cardId' u') : cardId = cardId' ∧ u = u' := by
  obtain ⟨flId, hrow, hget, _⟩ := h
  obtain ⟨flId', hrow', hget', _⟩ := h'
  obtain ⟨rfl, rfl⟩ : flId = flId' ∧ cardId = cardId' := by simpa [hrow] using hrow'
  exact ⟨rfl, Except.ok.inj (hget.symm.trans hget')⟩

theorem clashes_iff {row : List String} :
    Clashes s row ↔ ∃ cardId u, Gives s row cardId u ∧
      ∃ v ∈ s.db.members, v.id ≠ u.id ∧ v.cardId = some cardId := by
  constructor
  · rintro ⟨flId, cardId, u, hrow, hcard, hget, hother⟩
    exact ⟨cardId, u, ⟨flId, hrow, hget, hcard⟩, hother⟩
  · rintro ⟨cardId, u, ⟨flId, hrow, hget, hcard⟩, hother⟩
    exact ⟨flId, cardId, u, hrow, hcard, hget, hother⟩

/-- A row of the import gives a card to a member, or it changes nothing. -/
theorem importRow_cases (s : Site cols) (count : Nat) (row : List String) :
    (∃ cardId u, Gives s row cardId u ∧ ∀ x, (final (importRow count row s)).account x =
      if x = cols.key u.username then
        some ⟨{ u with cardId := some cardId }, Site.machinesOf s.db u.id⟩
      else s.account x) ∨
    (∀ cardId u, ¬ Gives s row cardId u) ∧ final (importRow count row s) = s := by
  rw [importRow]
  cases hrow : assignment row with
  | error err => exact .inr ⟨by rintro cardId u ⟨flId, hrow', _⟩; simp [hrow] at hrow', rfl⟩
  | ok asked =>
    cases asked with
    | none => exact .inr ⟨by rintro cardId u ⟨flId, hrow', _⟩; simp [hrow] at hrow', rfl⟩
    | some asked =>
      obtain ⟨flId, cardId⟩ := asked
      dsimp only
      rcases Writer.find_cases (fun u => u.flId == some flId) s with
        ⟨u, hget, hfind⟩ | ⟨hget, hfind⟩
      · rw [bind_ok hfind]
        dsimp only
        have hu := (Table.mem_of_get hget).1
        have hfits : cols.fits { u with cardId := some cardId } = cols.card cardId := by
          have hold := s.fits u hu
          simp only [Columns.fits, Bool.and_eq_true] at hold
          simp [Columns.fits, hold]
        rcases save_cases { u with cardId := some cardId } hu rfl rfl with
          ⟨hcard, t, hsave, haccount⟩ | ⟨hcard, hsave⟩
        · rw [bind_ok hsave]
          exact .inl ⟨cardId, u, ⟨flId, hrow, hget, hfits ▸ hcard⟩, haccount⟩
        · rw [bind_error hsave]
          refine .inr ⟨?_, rfl⟩
          rintro cardId' u' ⟨flId', hrow', _, hcard'⟩
          obtain ⟨rfl, rfl⟩ : flId = flId' ∧ cardId = cardId' := by simpa [hrow] using hrow'
          exact absurd ((hfits ▸ hcard).symm.trans hcard') (by decide)
      · refine .inr ⟨?_, ?_⟩
        · rintro cardId' u' ⟨flId', hrow', hget', _⟩
          obtain ⟨rfl, rfl⟩ : flId = flId' ∧ cardId = cardId' := by simpa [hrow] using hrow'
          exact hget u' hget'
        · rcases hfind with hfind | hfind
          · rw [bind_ok hfind]
            rfl
          · rw [bind_error hfind]
            rfl

/-- **One row of the import** keeps the cards unique exactly when it gives nobody
    a card that another member has. -/
theorem cardsUnique_importRow_iff (hs : CardsUnique s) (count : Nat) (row : List String) :
    CardsUnique (final (importRow count row s)) ↔ ¬ Clashes s row := by
  rw [clashes_iff]
  rcases importRow_cases s count row with ⟨cardId, u, hgives, haccount⟩ | ⟨hnone, hsame⟩
  · obtain ⟨flId, hrow, hget, -⟩ := id hgives
    have hhas : ({ u with cardId := some cardId } : Member).hasCard = true := by
      simp [Member.hasCard, assignment_ne_empty hrow]
    rw [cardsUnique_saved_iff hs haccount, others_iff (Table.mem_of_get hget).1]
    constructor
    · rintro hfree ⟨cardId', u', hgives', v, hv, hid, hvcard⟩
      obtain ⟨rfl, rfl⟩ := hgives.unique hgives'
      exact hfree hhas v hv hid hvcard
    · intro hnot _ v hv hid hvcard
      exact hnot ⟨cardId, u, hgives, v, hv, hid, hvcard⟩
  · rw [hsame]
    refine iff_of_true hs ?_
    rintro ⟨cardId, u, hgives, _⟩
    exact hnone cardId u hgives

end Unique

/-! ### Any history of the table -/

/-- A program that writes members. -/
inductive Change where
  | edit (change : Edit)
  | importCards (rows : List (List String))
  | updateFl (received : Option (List Item))

section History

variable {cols : Columns}

def Site.change (s : Site cols) : Change → Site cols
  | .edit change => final (saveEdit change s)
  | .importCards rows => final (importCards rows s)
  | .updateFl received => updateFl s received

/-- No row that an import gets to gives a member a card that another has. -/
def NoClash (s : Site cols) : Change → Prop
  | .importCards rows => Along importRow (fun t row => ¬ Clashes t row) 0 s rows
  | _ => True

/-- The cards are unique after the change, and after each row that an import
    gets to. -/
def StaysUnique (s : Site cols) : Change → Prop
  | .importCards rows =>
      Along importRow (fun t row => ∀ count, CardsUnique (final (importRow count row t))) 0 s rows
  | change => CardsUnique (s.change change)

theorem along_importRow_iff {rows : List (List String)} :
    ∀ {count : Nat} {s : Site cols}, CardsUnique s →
      (Along importRow (fun t row => ∀ count, CardsUnique (final (importRow count row t)))
          count s rows ↔
        Along importRow (fun t row => ¬ Clashes t row) count s rows) := by
  induction rows with
  | nil =>
    intro count s _
    exact Iff.rfl
  | cons row rows ih =>
    intro count s hs
    have hfirst : (∀ count, CardsUnique (final (importRow count row s))) ↔ ¬ Clashes s row := by
      simp only [cardsUnique_importRow_iff hs, forall_const]
    refine (and_congr_left' hfirst).trans (and_congr_right ?_)
    intro hnot
    apply forall₂_congr
    intro count' t
    apply forall_congr'
    intro hturn
    have ht := (cardsUnique_importRow_iff hs count row).mpr hnot
    rw [hturn] at ht
    exact ih ht

theorem cardsUnique_change {s : Site cols} (hs : CardsUnique s) {change : Change}
    (hnoclash : NoClash s change) : CardsUnique (s.change change) := by
  cases change with
  | edit change => exact cardsUnique_saveEdit hs change
  | importCards rows =>
    apply foldlM_invariant importRow (fun t row => ¬ Clashes t row) CardsUnique _ hs hnoclash
    intro count row t ht hnot
    exact (cardsUnique_importRow_iff ht count row).mpr hnot
  | updateFl received => exact cardsUnique_updateFl hs received

theorem staysUnique_iff {s : Site cols} (hs : CardsUnique s) (change : Change) :
    StaysUnique s change ↔ NoClash s change := by
  cases change with
  | edit change => exact iff_of_true (cardsUnique_saveEdit hs change) trivial
  | importCards rows => exact along_importRow_iff hs
  | updateFl received => exact iff_of_true (cardsUnique_updateFl hs received) trivial

/-- **When card ids identify members**: in a history from an empty table they do
    at every moment exactly when no import gives a member a card that another
    one has. -/
theorem staysUnique_run_iff (s₀ : Site cols) (hempty : s₀.db.members = [])
    (changes : List Change) :
    Runs.Along Site.change StaysUnique s₀ changes ↔
      Runs.Along Site.change NoClash s₀ changes := by
  have h₀ : CardsUnique s₀ := by
    intro a ha
    rw [Site.accounts, hempty] at ha
    cases ha
  clear hempty
  induction changes generalizing s₀ with
  | nil => exact Iff.rfl
  | cons change changes ih =>
    refine (and_congr_left' (staysUnique_iff h₀ change)).trans (and_congr_right ?_)
    intro hnoclash
    exact ih (s₀.change change) (cardsUnique_change h₀ hnoclash)

end History

/-- Two members get each a card of their own. -/
theorem staysUnique_run_iff_sample :
    Runs.Along Site.change StaysUnique emptySite
      [.updateFl (some [sampleItem 3 5 "ann", sampleItem 4 6 "bob"]),
        .importCards [["5", "000000002A"], ["6", "000000002B"]]] := by
  refine (staysUnique_run_iff emptySite rfl _).mpr ⟨trivial, ⟨?_, ?_⟩, trivial⟩
  · rintro ⟨flId, cardId, u, _, _, _, v, hv, _, hcard⟩
    rcases List.mem_pair.mp hv with rfl | rfl
    · cases hcard
    · cases hcard
  intro count t hturn
  obtain rfl : final (importRow 0 ["5", "000000002A"] _) = t := congrArg final hturn
  refine ⟨?_, fun _ _ _ => trivial⟩
  rintro ⟨flId, cardId, u, hrow, _, _, v, hv, _, hcard⟩
  have hsecond : assignment ["6", "000000002B"] = .ok (some (6, "000000002B")) := rfl
  rw [hsecond, Except.ok.injEq, Option.some.injEq, Prod.mk.injEq] at hrow
  rw [← hrow.2] at hcard
  rcases List.mem_pair.mp hv with rfl | rfl
  · exact absurd hcard (by decide)
  · cases hcard

/-- Two rows of one file give two members the same card. -/
theorem not_cardsUnique :
    ¬ ∀ (cols : Columns) (s₀ : Site cols) (changes : List Change), s₀.db.members = [] →
      CardsUnique (Runs.exec Site.change s₀ changes) := by
  intro h
  have hunique := h sampleColumns emptySite
    [.updateFl (some [sampleItem 3 5 "ann", sampleItem 4 6 "bob"]),
      .importCards [["5", "000000002A"], ["6", "000000002A"]]] rfl
    ⟨⟨1, "ann", "Ann", "Lee", true, some 5, some 3, some "000000002A"⟩, []⟩ (by decide)
    ⟨⟨2, "bob", "Ann", "Lee", true, some 6, some 4, some "000000002A"⟩, []⟩ (by decide)
    (by decide) rfl
  exact absurd hunique (by decide)

end Acs.Backend
