/-
  Acs/Backend/SyncRuns.lean
  =========================
  **Repeated and failed syncs, and local accounts.**

  The sync runs every few minutes on a list that is mostly the same, it may fail
  at any entry, and its table also has accounts that are not from ForeningLet.
  A second run over the same list finds every account, unless the first has lost
  one or has put it under another name than its login.  A run that fails leaves
  what the entries before have made of the table.  A local account is kept exactly
  when no entry touches it.
-/
import Acs.Backend.SyncAccounts

namespace Acs.Backend

open Effects

/-! ### The same list again -/

/-- The same but for the row id. -/
def Account.SameColumns (a b : Account) : Prop :=
  { a.row with id := b.row.id } = b.row ∧ a.SameRights b

/-- The same accounts, whatever ids their rows have. -/
structure SameTable {cols : Columns} (s t : Site cols) : Prop where
  names : s.names = t.names
  columns : ∀ key a b, s.account key = some a → t.account key = some b → a.SameColumns b

/-- The account of the key has the data of `e` after the loop: the last entry to
    touch it has written the same data, or none touches it and it has them. -/
def LeftWith {cols : Columns} (s : Site cols) (es : List Entry) (key : String)
    (e : Entry) : Prop :=
  (∃ pre d post, es = pre ++ d :: post ∧
      d.slot cols (Runs.exec (namesAfter cols) s.names pre) = key ∧
      Spared cols (Runs.exec (namesAfter cols) s.names (pre ++ [d])) post key ∧
      d.setFields = e.setFields) ∨
    (Spared cols s.names es key ∧ ∃ a, s.account key = some a ∧ e.write a = a)

/-- The usernames in use after the list. -/
def namesThen (cols : Columns) (names : String → Option String) (members : List Item) :
    String → Option String :=
  Runs.exec (namesAfter cols) names (entries members)

/-- The entries that a second pass over the list gets to. -/
def again (cols : Columns) (names : String → Option String) (members : List Item) : List Entry :=
  reached cols (namesThen cols names members) members

/-- A second pass leaves the same usernames in use, frees none of an account with
    rights that the first has kept, and writes into no account other data than the
    first has left there. -/
structure Repeatable {cols : Columns} (s : Site cols) (members : List Item) : Prop where
  names : Runs.exec (namesAfter cols) (namesThen cols s.names members)
    (again cols s.names members) = namesThen cols s.names members
  rights : ∀ a ∈ s.accounts, ¬ a.Blank →
    ¬ Freed cols s.names (entries members) (cols.key a.row.username) →
    ¬ Freed cols (namesThen cols s.names members) (again cols s.names members)
      (cols.key a.row.username)
  data : ∀ pre e post, again cols s.names members = pre ++ e :: post →
    e.accepted cols (Runs.exec (namesAfter cols) (namesThen cols s.names members) pre) = true →
    Spared cols (Runs.exec (namesAfter cols) (namesThen cols s.names members) (pre ++ [e])) post
      (e.slot cols (Runs.exec (namesAfter cols) (namesThen cols s.names members) pre)) →
    LeftWith s (entries members)
      (e.slot cols (Runs.exec (namesAfter cols) (namesThen cols s.names members) pre)) e

section Fields

/-- What an entry sets does not depend on the row. -/
theorem setFields_eq_of_fixed {d e : Entry} {u : Member}
    (h : e.setFields (d.setFields u) = d.setFields u) : d.setFields = e.setFields := by
  simp only [Entry.setFields, Member.mk.injEq, Option.some.injEq, true_and, and_true] at h
  obtain ⟨hfirst, hlast, hnumber, hid⟩ := h
  funext v
  rw [Entry.setFields, Entry.setFields, hfirst, hlast, hnumber, hid]

theorem write_write (e : Entry) (a : Account) : e.write (e.write a) = e.write a := rfl

theorem write_congr {d e : Entry} (h : d.setFields = e.setFields) (a : Account) :
    d.write a = e.write a := by
  rw [Entry.write, Entry.write, h]

theorem flId_of_write {e : Entry} {a : Account} (h : e.write a = a) :
    a.row.flId = some e.number := by
  rw [← h]
  rfl

/-- Two accounts that the same entry has written. -/
theorem sameColumns_write {e : Entry} {a b : Account} (husername : a.row.username = b.row.username)
    (hrights : (e.write a).SameRights (e.write b)) : (e.write a).SameColumns (e.write b) := by
  have hcard : a.row.cardId = b.row.cardId := hrights.1
  refine ⟨?_, hrights⟩
  simp [Entry.write, Entry.setFields, husername, hcard]

/-- An account that is as `e` has written it has the data of `e`. -/
theorem fixed_of_sameColumns {e : Entry} {b c : Account} (h : b.SameColumns (e.write c)) :
    e.write b = b := by
  have hfixed : e.setFields { b.row with id := (e.write c).row.id } =
      { b.row with id := (e.write c).row.id } := by
    rw [h.1]
    rfl
  have hrow : e.setFields b.row = b.row :=
    congrArg (fun u : Member => { u with id := b.row.id }) hfixed
  rw [Entry.write, hrow]

theorem deactivated_deactivated (active : List Int) (a : Account) :
    (a.deactivated active).deactivated active = a.deactivated active := by
  unfold Account.deactivated
  split
  next h => rw [if_pos (by exact h)]
  next => rfl

end Fields

section Twice

variable {cols : Columns} {s : Site cols} {members : List Item} {key : String} {b : Account}
  {e : Entry}

theorem names_updateFl (hok : Succeeds s members) :
    (updateFl s (some members)).names = namesThen cols s.names members := by
  rw [namesThen, ← names_run]
  funext key
  rw [Site.names, Site.names, hok.updateFl.2, Option.map_map]
  apply congrFun (congrArg _ _)
  funext a
  exact deactivated_username _ a

/-- **What the first run has left in an account.** -/
theorem leftWith_iff (hok : Succeeds s members) (he : e ∈ entries members)
    (hb : (updateFl s (some members)).account key = some b) :
    LeftWith s (entries members) key e ↔ e.write b = b := by
  obtain ⟨a, ha, rfl⟩ := account_updateFl hok hb
  have hnumber : e.number ∈ (entries members).map (·.number) := List.mem_map_of_mem he
  have hsame : e.write a = a →
      e.write (a.deactivated ((entries members).map (·.number))) =
        a.deactivated ((entries members).map (·.number)) := by
    intro hwrite
    rw [deactivated_of_mem (flId_of_write hwrite) hnumber, hwrite]
  constructor
  · rintro (⟨pre, d, post, hsplit, rfl, hpost, hfields⟩ | ⟨hspared, c, hc, hwrite⟩)
    · have haccepted := hok.accepted
      rw [hsplit] at haccepted ha
      rw [account_run_of_last (Runs.along_append.mp haccepted).2.1 hpost] at ha
      apply hsame
      rw [← Option.some.inj ha, write_congr hfields, write_write]
    · rw [account_run_of_spared hspared, hc] at ha
      apply hsame
      rw [← Option.some.inj ha, hwrite]
  · intro hwrite
    have hflId := flId_of_write hwrite
    rw [deactivated_flId] at hflId
    rw [deactivated_of_mem hflId hnumber] at hwrite
    rcases written_of_account_run (forall_fieldsFit hok.accepted) ha with
      ⟨hspared, hbefore⟩ | ⟨pre, d, post, hsplit, _, hslot, hpost, rfl⟩
    · exact .inr ⟨hspared, a, hbefore, hwrite⟩
    · have hfields := setFields_eq_of_fixed (congrArg Account.row hwrite)
      exact .inl ⟨pre, d, post, hsplit, hslot.symm, hpost, hfields⟩

theorem forall_fieldsFit_again (hok : Succeeds s members) :
    ∀ e ∈ again cols s.names members, e.fieldsFit cols = true := by
  intro e he
  exact forall_fieldsFit hok.accepted e (mem_entries_of_reached he)

/-- **The second run** is the loop over the entries that it gets to: its
    deactivation finds nothing to do. -/
theorem account_again (hok : Succeeds s members) (key : String) :
    (updateFl (updateFl s (some members)) (some members)).account key =
      (Runs.exec Site.process (updateFl s (some members))
        (again cols s.names members)).account key := by
  rw [again, ← names_updateFl hok]
  rcases updateFl_cases (updateFl s (some members)) members with ⟨hagain, hreached⟩ | ⟨_, hloop⟩
  · rw [hagain.updateFl.2, hreached]
    cases hc : (Runs.exec Site.process (updateFl s (some members))
        (entries members)).account key with
    | none => rfl
    | some c =>
      rw [Option.map_some]
      rcases written_of_account_run (forall_fieldsFit hok.accepted) hc with
        ⟨_, hbefore⟩ | ⟨pre, d, post, hsplit, _, _, _, rfl⟩
      · obtain ⟨a, _, rfl⟩ := account_updateFl hok hbefore
        rw [deactivated_deactivated]
      · have hd : d ∈ entries members := by
          rw [hsplit]
          exact List.mem_append_right _ List.mem_cons_self
        rw [deactivated_of_mem (n := d.number) rfl (List.mem_map_of_mem hd)]
  · rw [hloop]

theorem names_again (hok : Succeeds s members) :
    (updateFl (updateFl s (some members)) (some members)).names =
      Runs.exec (namesAfter cols) (namesThen cols s.names members)
        (again cols s.names members) := by
  rw [← names_updateFl hok, ← names_run]
  funext key
  rw [Site.names, Site.names, account_again hok]

theorem rights_again (hok : Succeeds s members)
    (hc : (updateFl (updateFl s (some members)) (some members)).account key = some b) :
    (¬ Freed cols (namesThen cols s.names members) (again cols s.names members) key ∧
        ∃ a, (updateFl s (some members)).account key = some a ∧ a.SameRights b) ∨
      ((Freed cols (namesThen cols s.names members) (again cols s.names members) key ∨
        namesThen cols s.names members key = none) ∧ b.Blank) := by
  rw [account_again hok] at hc
  rw [← names_updateFl hok]
  exact rights_run hc

/-- The same usernames are in use. -/
theorem exists_of_names_eq {t t' : Site cols} (h : t.names = t'.names)
    (hb : t.account key = some b) :
    ∃ c, t'.account key = some c ∧ c.row.username = b.row.username := by
  have hkey := congrFun h key
  rw [Site.names, hb, Option.map_some] at hkey
  exact Site.exists_of_names hkey.symm

theorem repeatable_of_sameTable (hok : Succeeds s members)
    (hsame : SameTable (updateFl s (some members))
      (updateFl (updateFl s (some members)) (some members))) :
    Repeatable s members := by
  have hnames := hsame.names
  constructor
  · rw [← names_again hok, ← hnames, names_updateFl hok]
  · intro a ha hrights hkept hfreed
    -- the account is there after the first run with its rights, and after the second without
    have ha' := Site.mem_accounts_iff.mp ha
    have hin := names_of_not_freed (Site.isSome_of_account ha') hkept
    change (namesThen cols s.names members _).isSome = true at hin
    rw [← names_updateFl hok] at hin
    obtain ⟨b, hb⟩ := Site.exists_of_isSome hin
    obtain ⟨c, hc, _⟩ := exists_of_names_eq hnames hb
    have hab : a.SameRights b :=
      (sameRights_updateFl_iff hok hb).mpr (.inl ⟨hkept, a, ha', .refl a⟩)
    have hac := hab.trans (hsame.columns _ b c hb hc).2
    rcases rights_again hok hc with ⟨hnot, _⟩ | ⟨_, hblank⟩
    · exact hnot hfreed
    · exact hrights (hac.blank_iff.mpr hblank)
  · intro pre e post hsplit haccepted hpost
    have he : e ∈ again cols s.names members := by
      rw [hsplit]
      exact List.mem_append_right _ List.mem_cons_self
    rw [← names_updateFl hok] at haccepted hpost ⊢
    have hc := account_run_of_last haccepted hpost
    rw [← hsplit, ← account_again hok] at hc
    obtain ⟨b, hb, _⟩ := exists_of_names_eq hnames.symm hc
    rw [leftWith_iff hok (mem_entries_of_reached he) hb]
    exact fixed_of_sameColumns (hsame.columns _ b _ hb hc)

theorem sameTable_of_repeatable (hok : Succeeds s members) (h : Repeatable s members) :
    SameTable (updateFl s (some members))
      (updateFl (updateFl s (some members)) (some members)) := by
  have hnames : (updateFl s (some members)).names =
      (updateFl (updateFl s (some members)) (some members)).names := by
    rw [names_again hok, names_updateFl hok, h.names]
  refine ⟨hnames, ?_⟩
  intro key b c hb hc
  have hrights : b.SameRights c := by
    rcases rights_again hok hc with ⟨_, b', hb', hrights⟩ | ⟨hnew, hblank⟩
    · rw [hb, Option.some.injEq] at hb'
      rw [hb']
      exact hrights
    · rw [hblank.sameRights_iff]
      -- an account that was made anew had no rights to lose
      have hfreed : Freed cols (namesThen cols s.names members) (again cols s.names members)
          key := by
        rcases hnew with hfreed | hnone
        · exact hfreed
        · rw [← names_updateFl hok, Site.names_eq_none, hb] at hnone
          cases hnone
      rcases rights_updateFl hok hb with ⟨hkept, a, ha, hab⟩ | ⟨_, hblank⟩
      · by_contra hnot
        have hkey := Site.key_of_account ha
        rw [← hkey] at hkept hfreed
        have hmem := (Site.account_eq_some_iff.mp ha).1
        exact h.rights a hmem (mt hab.blank_iff.mp hnot) hkept hfreed
      · exact hblank
  have husername : b.row.username = c.row.username := by
    obtain ⟨c', hc', husername⟩ := exists_of_names_eq hnames hb
    rw [hc, Option.some.injEq] at hc'
    rw [hc', husername]
  rw [account_again hok] at hc
  rcases written_of_account_run (forall_fieldsFit_again hok) hc with
    ⟨_, hbefore⟩ | ⟨pre, e, post, hsplit, haccepted, rfl, hpost, rfl⟩
  · rw [hb, Option.some.injEq] at hbefore
    rw [hbefore]
    exact ⟨rfl, .refl c⟩
  · have he : e ∈ again cols s.names members := by
      rw [hsplit]
      exact List.mem_append_right _ List.mem_cons_self
    rw [names_updateFl hok] at haccepted hpost hb
    have hleft := h.data pre e post hsplit haccepted hpost
    rw [leftWith_iff hok (mem_entries_of_reached he) hb] at hleft
    rw [← hleft] at hrights ⊢
    exact sameColumns_write husername hrights

/-- **When a second sync over the same list changes nothing.** -/
theorem repeated_iff (hok : Succeeds s members) :
    SameTable (updateFl s (some members))
        (updateFl (updateFl s (some members)) (some members)) ↔
      Repeatable s members :=
  ⟨repeatable_of_sameTable hok, sameTable_of_repeatable hok⟩

/-! A list whose logins are normalised as they are, and that loses none of them. -/

/-- Entries that find their accounts leave the usernames alone. -/
theorem namesAfter_of_found {names : String → Option String}
    (hfound : (names (e.key cols)).isSome = true) : namesAfter cols names e = names := by
  have hmakes : e.makes cols names = false := by
    rw [Entry.makes, Option.isNone_eq_false_iff.mpr hfound, Bool.false_and, Bool.false_and]
  funext key
  rw [namesAfter, hmakes, not_frees_of_inUse hfound]
  rfl

theorem names_of_found {names : String → Option String} {es : List Entry}
    (hfound : ∀ e ∈ es, (names (e.key cols)).isSome = true) :
    Runs.exec (namesAfter cols) names es = names :=
  Runs.exec_of_fixed fun e he => namesAfter_of_found (hfound e he)

theorem not_freed_of_found {names : String → Option String} {es : List Entry}
    (hfound : ∀ e ∈ es, (names (e.key cols)).isSome = true) (key : String) :
    ¬ Freed cols names es key := by
  rintro ⟨pre, e, post, rfl, hfrees⟩
  rw [List.forall_mem_append, List.forall_mem_cons] at hfound
  rw [names_of_found hfound.1, not_frees_of_inUse hfound.2.1] at hfrees
  exact Bool.false_ne_true hfrees

/-- A key that nobody makes does not come into use. -/
theorem names_none_of_not_made {names : String → Option String} {es : List Entry}
    (hnone : names key = none) (hmade : ∀ e ∈ es, e.made cols ≠ key) :
    Runs.exec (namesAfter cols) names es key = none := by
  induction es generalizing names with
  | nil => exact hnone
  | cons e es ih =>
    rw [List.forall_mem_cons] at hmade
    apply ih _ hmade.2
    rw [namesAfter, beq_eq_false_iff_ne.mpr hmade.1.symm, Bool.and_false, hnone, ite_self]
    rfl

/-- Entries that go to other accounts, with a key that is in use in the end, do not
    touch its account. -/
theorem spared_of_inUse {names : String → Option String} {es : List Entry}
    (hkeys : ∀ e ∈ es, e.key cols ≠ key ∧ e.made cols ≠ key)
    (hin : (Runs.exec (namesAfter cols) names es key).isSome = true) :
    Spared cols names es key := by
  induction es generalizing names with
  | nil => trivial
  | cons e es ih =>
    rw [List.forall_mem_cons] at hkeys
    refine ⟨not_touches_iff.mpr ⟨?_, ?_⟩, ih hkeys.2 hin⟩
    · have hslot : key ≠ e.slot cols names := by
        rw [Entry.slot]
        split
        next => exact hkeys.1.1.symm
        next => exact hkeys.1.2.symm
      rw [Entry.writes, beq_eq_false_iff_ne.mpr hslot, Bool.and_false]
    · by_contra hfrees
      rw [Bool.not_eq_false] at hfrees
      have hnone : namesAfter cols names e key = none := by
        rw [namesAfter, beq_eq_false_iff_ne.mpr hkeys.1.2.symm, Bool.and_false, hfrees]
        rfl
      rw [Runs.exec_cons, names_none_of_not_made hnone fun d hd => (hkeys.2 d hd).2] at hin
      cases hin

/-- **A run can be repeated** when its logins have the keys of their normal forms and
    are all in use in the end. -/
theorem repeatable_of_inUse (hok : Succeeds s members)
    (hstable : ∀ e ∈ entries members, e.made cols = e.key cols)
    (hin : ∀ e ∈ entries members, (namesThen cols s.names members (e.key cols)).isSome = true) :
    Repeatable s members := by
  have haccepted : Runs.Along (namesAfter cols) (fun names e => e.accepted cols names = true)
      (namesThen cols s.names members) (entries members) := by
    rw [Runs.along_iff]
    intro pre e post hsplit
    have hfits := forall_fieldsFit hok.accepted e
    rw [hsplit] at hin hfits
    rw [List.forall_mem_append, List.forall_mem_cons] at hin
    rw [names_of_found hin.1, Entry.accepted, hin.2.1,
      hfits (List.mem_append_right _ List.mem_cons_self)]
    rfl
  have hagain : again cols s.names members = entries members :=
    reached_of_processed ⟨(succeeds_iff.mp hok).read, haccepted⟩
  have hslot : ∀ names, ∀ e ∈ entries members, e.slot cols names = e.key cols := by
    intro names e he
    rw [Entry.slot, hstable e he, ite_self]
  constructor
  · rw [hagain, names_of_found hin]
  · intro a _ _ _
    rw [hagain]
    exact not_freed_of_found hin _
  · intro pre e post hsplit _ hpost
    rw [hagain, List.append_cons] at hsplit
    have hmem : ∀ d, d ∈ [e] ∨ d ∈ post → d ∈ entries members := by
      intro d hd
      rw [hsplit, List.append_assoc]
      exact List.mem_append_right _ (List.mem_append.mpr hd)
    have he := hmem e (.inl (List.mem_singleton_self e))
    rw [hslot _ e he] at hpost ⊢
    refine .inl ⟨pre, e, post, hsplit.trans (List.append_cons ..).symm, hslot _ e he, ?_, rfl⟩
    -- the later entries go to other accounts in the second pass, and so in the first
    apply spared_of_inUse
    · intro d hd
      have hd' := hmem d (.inr hd)
      rw [hstable d hd', and_self]
      intro hkey
      have hbefore : ∀ f ∈ pre ++ [e],
          (namesThen cols s.names members (f.key cols)).isSome = true := by
        intro f hf
        apply hin
        rw [hsplit]
        exact List.mem_append_left _ hf
      rw [hsplit] at haccepted
      have hrest := (Runs.along_append.mp haccepted).2
      rw [names_of_found hbefore] at hrest hpost
      rw [← hkey] at hpost
      exact not_spared_of_inUse hrest hd (hin d hd') hpost
    · have hend := hin e he
      rw [namesThen, hsplit, Runs.exec_append] at hend
      exact hend

end Twice

/-- Two members, one of them with a login. -/
theorem repeated_iff_sample :
    SameTable (updateFl emptySite (some [sampleItem 3 5 "ann", sampleItem 4 6 ""]))
      (updateFl (updateFl emptySite (some [sampleItem 3 5 "ann", sampleItem 4 6 ""]))
        (some [sampleItem 3 5 "ann", sampleItem 4 6 ""])) := by
  have hok : Succeeds emptySite [sampleItem 3 5 "ann", sampleItem 4 6 ""] := ⟨_, rfl⟩
  apply (repeated_iff hok).mpr
  exact repeatable_of_inUse hok (by decide +kernel) (by decide +kernel)

/-- The account under the login of one member is the placeholder of another. -/
theorem not_repeated :
    ¬ ∀ (cols : Columns) (s : Site cols) (members : List Item), Succeeds s members →
      SameTable (updateFl s (some members))
        (updateFl (updateFl s (some members)) (some members)) := by
  intro h
  have hsame := (h sampleColumns emptySite [sampleItem 4 6 "FL5", sampleItem 3 5 "alice"]
    ⟨_, rfl⟩).names
  exact absurd (congrFun hsame "FL5") (by decide)

/-! ### Runs that fail -/

section Failed

variable {cols : Columns} {s : Site cols} {members : List Item}

/-- **What a failed sync leaves behind**: the table as the elements before the
    first bad one have made it, and of that one nothing when its fields cannot
    be read, else what such an entry leaves.  Nobody is deactivated. -/
theorem updateFl_of_not_succeeds (hfails : ¬ Succeeds s members) :
    ∃ pre m post, members = pre ++ m :: post ∧ Processed cols s.names pre ∧
      ¬ m.Good cols (Runs.exec (namesAfter cols) s.names (entries pre)) ∧
      (((∃ err, m.read = .error err) ∧
          updateFl s (some members) = Runs.exec Site.process s (entries pre)) ∨
        ∃ e, m.read = .ok e ∧
          LeftBehind (Runs.exec Site.process s (entries pre)) e (updateFl s (some members))) := by
  rcases processed_or_first_bad s members with hgood | ⟨pre, m, post, rfl, hpre, hbad⟩
  · exact absurd (succeeds_iff.mpr hgood) hfails
  refine ⟨pre, m, post, rfl, hpre, hbad, ?_⟩
  rw [updateFl_of_first_bad hpre hbad, Site.processItem]
  cases hread : m.read with
  | error err => exact .inl ⟨⟨err, rfl⟩, rfl⟩
  | ok e =>
    refine .inr ⟨e, rfl, Site.process_leftBehind ?_⟩
    rw [Bool.eq_false_iff, names_run]
    intro haccepted
    exact hbad ⟨e, hread, haccepted⟩

end Failed

/-- The normal form of the second login is the username of the first. -/
theorem not_succeeds_second :
    ¬ Succeeds emptySite [sampleItem 3 5 "finn", sampleItem 4 6 "\uFB01nn"] := by
  rintro ⟨t, ht⟩
  cases ht

theorem updateFl_of_not_succeeds_sample :
    ∃ pre m post, [sampleItem 3 5 "finn", sampleItem 4 6 "\uFB01nn"] = pre ++ m :: post ∧
      Processed sampleColumns emptySite.names pre ∧
      ¬ m.Good sampleColumns (Runs.exec (namesAfter sampleColumns) emptySite.names (entries pre)) ∧
      (((∃ err, m.read = .error err) ∧
          updateFl emptySite (some [sampleItem 3 5 "finn", sampleItem 4 6 "\uFB01nn"]) =
            Runs.exec Site.process emptySite (entries pre)) ∨
        ∃ e, m.read = .ok e ∧
          LeftBehind (Runs.exec Site.process emptySite (entries pre)) e
            (updateFl emptySite (some [sampleItem 3 5 "finn", sampleItem 4 6 "\uFB01nn"]))) :=
  updateFl_of_not_succeeds not_succeeds_second

/-- The account of the first entry stays when the second cannot be read. -/
theorem not_unchanged_of_not_succeeds :
    ¬ ∀ (cols : Columns) (s : Site cols) (members : List Item), ¬ Succeeds s members →
      (updateFl s (some members)).account = s.account := by
  intro h
  have hfails : ¬ Succeeds emptySite [sampleItem 3 5 "ann", .object []] := by
    rintro ⟨t, ht⟩
    cases ht
  have hsame := congrFun (h sampleColumns emptySite [sampleItem 3 5 "ann", .object []] hfails) "ann"
  exact absurd hsame (by decide)

/-! ### Local accounts -/

section Local

variable {cols : Columns} {s : Site cols} {members : List Item} {es : List Entry} {e : Entry}
  {a : Account}

theorem deactivated_of_local (hlocal : a.row.flId = none) (active : List Int) :
    a.deactivated active = a := by
  apply deactivated_eq_self
  rw [isGone, hlocal]

theorem nextId_le_process : s.nextId ≤ (s.process e).nextId := by
  cases haccepted : e.accepted cols s.names with
  | true =>
    rw [(Site.process_written haccepted).nextId]
    split <;> omega
  | false =>
    rw [(Site.process_leftBehind haccepted).nextId]
    split <;> omega

theorem nextId_le_run : s.nextId ≤ (Runs.exec Site.process s es).nextId := by
  apply Runs.exec_invariant_of_forall Site.process (fun _ => True) (s.nextId ≤ ·.nextId) _ le_rfl
  · intro _ _
    trivial
  · intro t d ht _
    exact ht.trans nextId_le_process

/-- What an entry writes is no local account, and what it makes is a new one. -/
theorem process_ne_of_touches {key : String} (hlocal : a.row.flId = none)
    (hid : a.row.id < s.nextId) (h : e.touches cols s.names key = true) :
    (s.process e).account key ≠ some a := by
  rw [process_account]
  rw [Entry.touches, Bool.or_eq_true] at h
  split
  next =>
    intro hsome
    rw [Option.some.injEq] at hsome
    split at hsome
    next =>
      rw [← hsome] at hlocal
      cases hlocal
    next =>
      rw [← hsome] at hid
      exact Nat.lt_irrefl _ hid
  next hwrites =>
    rw [if_pos (h.resolve_left hwrites)]
    exact Option.some_ne_none a |>.symm

/-- **A local account in the loop**: it is kept exactly if no entry touches it. -/
theorem account_run_local_iff {key : String} (ha : s.account key = some a)
    (hlocal : a.row.flId = none) :
    (Runs.exec Site.process s es).account key = some a ↔ Spared cols s.names es key := by
  constructor
  · intro hkept
    rcases account_run_cases s es key with ⟨hspared, _⟩ | ⟨pre, e, post, _, htouches, _, hlast⟩
    · exact hspared
    · rw [← names_run] at htouches
      have hle : s.nextId ≤ (Runs.exec Site.process s pre).nextId := nextId_le_run
      have hid := Nat.lt_of_lt_of_le (Site.id_lt_nextId ha) hle
      exact absurd (hlast.symm.trans hkept) (process_ne_of_touches hlocal hid htouches)
  · intro hspared
    rw [account_run_of_spared hspared, ha]

/-- The deactivation leaves the local accounts alone. -/
theorem account_updateFl_local_iff {key : String} (hlocal : a.row.flId = none) :
    (updateFl s (some members)).account key = some a ↔
      (Runs.exec Site.process s (reached cols s.names members)).account key = some a := by
  rcases updateFl_cases s members with ⟨hok, hreached⟩ | ⟨_, hloop⟩
  · rw [hreached]
    constructor
    · intro h
      obtain ⟨b, hb, hab⟩ := account_updateFl hok h
      have hblocal : b.row.flId = none := by
        rw [← hlocal, hab, deactivated_flId]
      rw [deactivated_of_local hblocal] at hab
      rw [hab, hb]
    · intro h
      rw [hok.updateFl.2, h, Option.map_some, deactivated_of_local hlocal]
  · rw [hloop]

/-- **When the sync leaves the local accounts alone**: exactly when no entry that it
    gets to touches one. -/
theorem local_kept_iff :
    (∀ a ∈ s.accounts, a.row.flId = none → a ∈ (updateFl s (some members)).accounts) ↔
      ∀ a ∈ s.accounts, a.row.flId = none →
        Spared cols s.names (reached cols s.names members) (cols.key a.row.username) := by
  apply forall₂_congr
  intro a ha
  apply forall_congr'
  intro hlocal
  rw [Site.mem_accounts_iff, account_updateFl_local_iff hlocal,
    account_run_local_iff (Site.mem_accounts_iff.mp ha) hlocal]

end Local

def localSite : Site sampleColumns where
  db := {
    machines := []
    members := [⟨3, "administrator", "", "", true, none, none, none⟩]
    memberMachines := []
    machineIds := List.nodup_nil
    memberIds := by decide
    links := by decide }
  nextId := 4
  usernames := by decide
  ids := by decide
  fits := by decide

/-- A member of ForeningLet whose login is `administrator` takes the account over. -/
theorem not_local_kept :
    ¬ ∀ (cols : Columns) (s : Site cols) (members : List Item),
      ∀ a ∈ s.accounts, a.row.flId = none → a ∈ (updateFl s (some members)).accounts := by
  intro h
  have hkept := h sampleColumns localSite [sampleItem 3 5 "administrator"]
    ⟨⟨3, "administrator", "", "", true, none, none, none⟩, []⟩ (by decide) rfl
  exact absurd hkept (by decide)

end Acs.Backend
