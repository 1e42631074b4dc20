/-
  Acs/Backend/SyncAccounts.lean
  =============================
  **What becomes of the accounts in a sync.**

  An entry touches the account that it writes or makes, and the one under
  `FL<number>` that it deletes; which these are follows from the usernames in use
  at its turn (`Entry.touches`).  An account that no entry touches is as it was,
  and any other one is what the last entry that touches it makes of it
  (`account_run_cases`).  So two things can go wrong for a member: the account
  of the entry is under another username or is touched again later, and the old
  account may stay beside the new one.
-/
import Acs.Backend.Sync

namespace Acs.Backend

open Effects

/-! ### The accounts that an entry touches -/

namespace Entry

variable (cols : Columns) (names : String → Option String) (e : Entry)

/-- The entry writes the account of the key, or makes it. -/
def writes (key : String) : Bool :=
  (e.accepted cols names || e.makes cols names) && key == e.slot cols names

def touches (key : String) : Bool := e.writes cols names key || e.frees cols names key

/-- The account that the entry goes to has the very login for its username: it
    is in use like this, or it is not in use and normalised as it is. -/
def UnderLogin : Prop :=
  names (e.key cols) = some e.login ∨
    (names (e.key cols) = none ∧ cols.normalize e.login = e.login)

end Entry

/-- No entry touches the account of the key. -/
def Spared (cols : Columns) (names : String → Option String) (es : List Entry)
    (key : String) : Prop :=
  Runs.Along (namesAfter cols) (fun names e => e.touches cols names key = false) names es

/-- An entry frees the key at its turn. -/
def Freed (cols : Columns) (names : String → Option String) (es : List Entry)
    (key : String) : Prop :=
  ∃ pre e post, es = pre ++ e :: post ∧
    e.frees cols (Runs.exec (namesAfter cols) names pre) key = true

instance (cols : Columns) (names : String → Option String) (es : List Entry) (key : String) :
    Decidable (Spared cols names es key) :=
  inferInstanceAs (Decidable (Runs.Along _ _ names es))

section Names

variable {cols : Columns} {names : String → Option String} {e : Entry} {es : List Entry}
  {key : String}

theorem slot_of_makes (h : e.makes cols names = true) : e.slot cols names = e.made cols := by
  simp only [Entry.makes, Bool.and_eq_true, Option.isNone_iff_eq_none] at h
  apply if_neg
  rw [h.1.1]
  exact Bool.false_ne_true

theorem slot_of_underLogin (h : e.UnderLogin cols names) : e.slot cols names = e.key cols := by
  unfold Entry.slot
  rcases h with hnames | ⟨hnames, hsame⟩
  · rw [hnames, if_pos Option.isSome_some]
  · rw [hnames, if_neg (by simp), Entry.made, hsame]
    rfl

theorem not_touches_iff : e.touches cols names key = false ↔
    e.writes cols names key = false ∧ e.frees cols names key = false := by
  rw [Entry.touches, Bool.or_eq_false_iff]

/-- An accepted entry touches its own account. -/
theorem touches_slot (h : e.accepted cols names = true) :
    e.touches cols names (e.slot cols names) = true := by
  rw [Entry.touches, Entry.writes, h, Bool.true_or, Bool.true_and, beq_self_eq_true, Bool.true_or]

/-- An account that is in use is not deleted under its own login. -/
theorem not_frees_of_inUse (h : (names (e.key cols)).isSome = true) (key : String) :
    e.frees cols names key = false := by
  rw [Option.isSome_iff_ne_none] at h
  rw [Entry.frees, Option.isNone_eq_false_iff.mpr (Option.isSome_iff_ne_none.mpr h),
    Bool.false_and]

theorem namesAfter_of_not_touches (h : e.touches cols names key = false) :
    namesAfter cols names e key = names key := by
  obtain ⟨hwrites, hfrees⟩ := not_touches_iff.mp h
  rw [namesAfter, hfrees]
  split
  next hmade =>
    rw [Bool.and_eq_true] at hmade
    rw [Entry.writes, hmade.1, Bool.or_true, Bool.true_and, slot_of_makes hmade.1,
      hmade.2] at hwrites
    cases hwrites
  next => rfl

theorem names_of_spared (h : Spared cols names es key) :
    Runs.exec (namesAfter cols) names es key = names key := by
  induction es generalizing names with
  | nil => rfl
  | cons e es ih => rw [Runs.exec_cons, ih h.2, namesAfter_of_not_touches h.1]

theorem spared_append {es' : List Entry} : Spared cols names (es ++ es') key ↔
    Spared cols names es key ∧ Spared cols (Runs.exec (namesAfter cols) names es) es' key :=
  Runs.along_append

/-- An entry whose key is in use touches the account of the key, if none before it
    does. -/
theorem not_spared_of_inUse
    (haccepted : Runs.Along (namesAfter cols) (fun names e => e.accepted cols names = true)
      names es) (he : e ∈ es) (hin : (names (e.key cols)).isSome = true) :
    ¬ Spared cols names es (e.key cols) := by
  intro hspared
  obtain ⟨pre, post, rfl⟩ := List.append_of_mem he
  obtain ⟨hpre, hturn, _⟩ := spared_append.mp hspared
  rw [← names_of_spared hpre] at hin
  have hslot : e.slot cols (Runs.exec (namesAfter cols) names pre) = e.key cols := if_pos hin
  have htouches := touches_slot (Runs.along_append.mp haccepted).2.1
  rw [hslot] at htouches
  exact Bool.false_ne_true (hturn.symm.trans htouches)

theorem freed_snoc : Freed cols names (es ++ [e]) key ↔
    e.frees cols (Runs.exec (namesAfter cols) names es) key = true ∨ Freed cols names es key :=
  Runs.exists_turn_snoc

theorem not_freed_nil : ¬ Freed cols names [] key := by
  rintro ⟨pre, e, post, hsplit, _⟩
  exact absurd hsplit.symm (List.append_ne_nil_of_right_ne_nil pre (List.cons_ne_nil e post))

/-- A username that is in use and is not freed stays in use. -/
theorem names_of_not_freed (hin : (names key).isSome = true) (hnot : ¬ Freed cols names es key) :
    (Runs.exec (namesAfter cols) names es key).isSome = true := by
  induction es using List.reverseRecOn with
  | nil => exact hin
  | append_singleton es e ih =>
    rw [freed_snoc, not_or, Bool.not_eq_true] at hnot
    rw [Runs.exec_snoc, namesAfter, hnot.1]
    split
    next => rfl
    next => exact ih hnot.2

end Names

section Run

variable {cols : Columns} {s : Site cols} {es : List Entry} {key : String}

/-- **What an entry does to an account.** -/
theorem process_account (s : Site cols) (e : Entry) (key : String) :
    (s.process e).account key =
      if e.writes cols s.names key then
        some (if e.accepted cols s.names then e.write (s.accountFor e)
          else ⟨.new s.nextId (cols.normalize e.login), []⟩)
      else if e.frees cols s.names key then none
      else s.account key := by
  unfold Entry.writes
  cases haccepted : e.accepted cols s.names with
  | true =>
    rw [(Site.process_written haccepted).account, Bool.true_or, Bool.true_and]
    simp only [beq_iff_eq, if_true]
  | false =>
    rw [(Site.process_leftBehind haccepted).account, Bool.false_or]
    cases hmakes : e.makes cols s.names with
    | true =>
      rw [slot_of_makes hmakes]
      rfl
    | false => rfl

theorem process_account_of_written {e : Entry} (h : e.accepted cols s.names = true) :
    (s.process e).account (e.slot cols s.names) = some (e.write (s.accountFor e)) := by
  rw [(Site.process_written h).account, if_pos rfl]

/-- **The frame**: an account that no entry touches is as it was. -/
theorem account_run_of_spared (h : Spared cols s.names es key) :
    (Runs.exec Site.process s es).account key = s.account key := by
  induction es generalizing s with
  | nil => rfl
  | cons e es ih =>
    obtain ⟨hwrites, hfrees⟩ := not_touches_iff.mp h.1
    have hrest := h.2
    rw [← names_process] at hrest
    rw [Runs.exec_cons, ih hrest, process_account, hwrites, hfrees]
    rfl

/-- **An account after the loop** is as it was, or as the last entry that touches
    it has left it. -/
theorem account_run_cases (s : Site cols) (es : List Entry) (key : String) :
    (Spared cols s.names es key ∧
        (Runs.exec Site.process s es).account key = s.account key) ∨
      ∃ pre e post, es = pre ++ e :: post ∧
        e.touches cols (Runs.exec (namesAfter cols) s.names pre) key = true ∧
        Spared cols (Runs.exec (namesAfter cols) s.names (pre ++ [e])) post key ∧
        (Runs.exec Site.process s es).account key =
          ((Runs.exec Site.process s pre).process e).account key := by
  rcases Runs.along_or_last (namesAfter cols) (fun names e => e.touches cols names key = false)
    s.names es with hspared | ⟨pre, e, post, rfl, htouches, hpost⟩
  · exact .inl ⟨hspared, account_run_of_spared hspared⟩
  · refine .inr ⟨pre, e, post, rfl, Bool.eq_true_of_not_eq_false htouches, hpost, ?_⟩
    have hrest : Spared cols ((Runs.exec Site.process s pre).process e).names post key := by
      rw [← Runs.exec_snoc Site.process s pre e, names_run]
      exact hpost
    rw [Runs.exec_append, Runs.exec_cons, account_run_of_spared hrest]

/-- What an accepted entry writes stays if no later entry touches it. -/
theorem account_run_of_last {pre post : List Entry} {e : Entry}
    (he : e.accepted cols (Runs.exec (namesAfter cols) s.names pre) = true)
    (hpost : Spared cols (Runs.exec (namesAfter cols) s.names (pre ++ [e])) post
      (e.slot cols (Runs.exec (namesAfter cols) s.names pre))) :
    (Runs.exec Site.process s (pre ++ e :: post)).account
        (e.slot cols (Runs.exec (namesAfter cols) s.names pre)) =
      some (e.write ((Runs.exec Site.process s pre).accountFor e)) := by
  rw [← names_run] at he hpost
  rw [Runs.exec_snoc] at hpost
  rw [Runs.exec_append, Runs.exec_cons, account_run_of_spared hpost, ← names_run,
    process_account_of_written he]

/-- What there is after a loop whose values fit has not been touched, or has been
    written last by one of the entries. -/
theorem written_of_account_run (hfits : ∀ e ∈ es, e.fieldsFit cols = true) {a : Account}
    (ha : (Runs.exec Site.process s es).account key = some a) :
    (Spared cols s.names es key ∧ s.account key = some a) ∨
      ∃ pre e post, es = pre ++ e :: post ∧
        e.accepted cols (Runs.exec (namesAfter cols) s.names pre) = true ∧
        key = e.slot cols (Runs.exec (namesAfter cols) s.names pre) ∧
        Spared cols (Runs.exec (namesAfter cols) s.names (pre ++ [e])) post key ∧
        a = e.write ((Runs.exec Site.process s pre).accountFor e) := by
  rcases account_run_cases s es key with
    ⟨hspared, hsame⟩ | ⟨pre, e, post, rfl, htouches, hpost, hlast⟩
  · exact .inl ⟨hspared, hsame.symm.trans ha⟩
  have hfit := hfits e (List.mem_append_right _ List.mem_cons_self)
  rw [hlast, process_account, names_run] at ha
  rw [Entry.touches] at htouches
  split at ha
  next hwrites =>
    -- an account is made only by an entry that is accepted
    rw [Entry.writes, Entry.accepted, hfit, Bool.true_and, Bool.or_assoc, Bool.or_self] at hwrites
    rw [Bool.and_eq_true, beq_iff_eq] at hwrites
    have haccepted : e.accepted cols (Runs.exec (namesAfter cols) s.names pre) = true := by
      rw [Entry.accepted, hfit, hwrites.1]
      rfl
    rw [if_pos haccepted] at ha
    exact .inr ⟨pre, e, post, rfl, haccepted, hwrites.2, hpost, (Option.some.inj ha).symm⟩
  next hwrites =>
    rw [Bool.eq_false_iff.mpr hwrites, Bool.false_or] at htouches
    rw [if_pos htouches] at ha
    cases ha

/-- What is there after a run that succeeds was there after its loop. -/
theorem account_updateFl {members : List Item} (hok : Succeeds s members) {b : Account}
    (hb : (updateFl s (some members)).account key = some b) :
    ∃ a, (Runs.exec Site.process s (entries members)).account key = some a ∧
      b = a.deactivated ((entries members).map (·.number)) := by
  rw [hok.updateFl.2, Option.map_eq_some_iff] at hb
  obtain ⟨a, ha, hab⟩ := hb
  exact ⟨a, ha, hab.symm⟩

theorem eq_of_number {d e : Entry} (hnumbers : (es.map (·.number)).Nodup) (hd : d ∈ es)
    (he : e ∈ es) (h : d.number = e.number) : d = e :=
  List.inj_on_of_nodup_map hnumbers hd he h

theorem accountFor_username {e : Entry} :
    (s.accountFor e).row.username = e.login ↔ e.UnderLogin cols s.names := by
  rw [Entry.UnderLogin, Site.names, Site.accountFor]
  cases s.account (e.key cols) with
  | some a => simp
  | none => simp [Member.new]

end Run

/-! ### One account for each member -/

/-- The numbers of the list are distinct, and so are the logins. -/
structure Distinct (members : List Item) : Prop where
  numbers : ((entries members).map (·.number)).Nodup
  logins : ((entries members).map (·.login)).Nodup

/-- Each listed number is that of one account, an active one under the login of
    the entry, and no other account of a member of ForeningLet is active. -/
structure OnePerMember {cols : Columns} (t : Site cols) (es : List Entry) : Prop where
  listed : ∀ e ∈ es, ∃ a ∈ t.accounts, a.row.flId = some e.number ∧ a.row.isActive = true ∧
    a.row.username = e.login ∧ ∀ b ∈ t.accounts, b.row.flId = some e.number → b = a
  others : ∀ b ∈ t.accounts, ∀ flId, b.row.flId = some flId → flId ≠ 0 →
    b.row.isActive = true → ∃ e ∈ es, flId = e.number ∧ b.row.username = e.login

/-- The account that the entry goes to at its turn is under the login, and no later
    entry touches it. -/
def Kept (cols : Columns) (names : String → Option String) (es : List Entry) (e : Entry) : Prop :=
  ∃ pre post, es = pre ++ e :: post ∧
    e.UnderLogin cols (Runs.exec (namesAfter cols) names pre) ∧
    Spared cols (Runs.exec (namesAfter cols) names (pre ++ [e])) post (e.key cols)

/-- The account of each entry is kept, and each account that has a listed number is
    touched. -/
structure KeepsOne {cols : Columns} (s : Site cols) (es : List Entry) : Prop where
  kept : ∀ e ∈ es, Kept cols s.names es e
  moved : ∀ a ∈ s.accounts, ∀ e ∈ es, a.row.flId = some e.number →
    ¬ Spared cols s.names es (cols.key a.row.username)

section OnePerMember

variable {cols : Columns} {s : Site cols} {members : List Item} {es : List Entry} {e : Entry}

/-- The account of an entry after the loop, when it is kept. -/
theorem account_of_kept
    (haccepted : Runs.Along (namesAfter cols) (fun names e => e.accepted cols names = true)
      s.names es) (hkept : Kept cols s.names es e) :
    ∃ a, (Runs.exec Site.process s es).account (e.key cols) = some a ∧
      a.row.username = e.login ∧ a.row.flId = some e.number ∧ a.row.isActive = true := by
  obtain ⟨pre, post, rfl, hunder, hpost⟩ := hkept
  have he := (Runs.along_append.mp haccepted).2.1
  rw [← slot_of_underLogin hunder] at hpost ⊢
  rw [← names_run] at hunder
  exact ⟨_, account_run_of_last he hpost, accountFor_username.mpr hunder, rfl, rfl⟩

/-- **When the account of an entry is kept**: it is there after the loop, under the
    login and with the number. -/
theorem kept_iff
    (haccepted : Runs.Along (namesAfter cols) (fun names e => e.accepted cols names = true)
      s.names es) (hnumbers : (es.map (·.number)).Nodup) (he : e ∈ es) :
    Kept cols s.names es e ↔ ∃ a, (Runs.exec Site.process s es).account (e.key cols) = some a ∧
      a.row.username = e.login ∧ a.row.flId = some e.number := by
  constructor
  · intro hkept
    obtain ⟨a, ha, husername, hflId, _⟩ := account_of_kept haccepted hkept
    exact ⟨a, ha, husername, hflId⟩
  rintro ⟨a, ha, husername, hflId⟩
  rcases written_of_account_run (forall_fieldsFit haccepted) ha with
    ⟨hspared, hbefore⟩ | ⟨pre, d, post, rfl, _, hslot, hpost, hwritten⟩
  · exact absurd hspared (not_spared_of_inUse haccepted he (Site.isSome_of_account hbefore))
  · rw [hwritten] at hflId husername
    have hd : d ∈ pre ++ d :: post := List.mem_append_right _ List.mem_cons_self
    obtain rfl := eq_of_number hnumbers hd he (Option.some.inj hflId)
    have hunder := accountFor_username.mp husername
    rw [names_run] at hunder
    exact ⟨pre, post, rfl, hunder, hpost⟩

/-- The accounts that have a listed number after the loop. -/
theorem flId_after_loop (hdistinct : Distinct members) (hok : Succeeds s members)
    (hkeeps : KeepsOne s (entries members)) (he : e ∈ entries members)
    {key : String} {b : Account}
    (hb : (Runs.exec Site.process s (entries members)).account key = some b)
    (hflId : b.row.flId = some e.number) : key = e.key cols := by
  rcases written_of_account_run (forall_fieldsFit hok.accepted) hb with
    ⟨hspared, hbefore⟩ | ⟨pre, d, post, hsplit, _, hslot, _, hwritten⟩
  · have hmem := (Site.account_eq_some_iff.mp hbefore).1
    have hkey := Site.key_of_account hbefore
    exact absurd (hkey ▸ hspared) (hkeeps.moved b hmem e he hflId)
  · rw [hwritten] at hflId
    have hd : d ∈ entries members := by
      rw [hsplit]
      exact List.mem_append_right _ List.mem_cons_self
    obtain rfl := eq_of_number hdistinct.numbers hd he (Option.some.inj hflId)
    obtain ⟨pre', post', hsplit', hunder, _⟩ := hkeeps.kept d he
    -- an entry with a number of its own has one turn
    have hnodup : (entries members).Nodup := List.Nodup.of_map _ hdistinct.numbers
    rw [hsplit'] at hnodup
    have hnot := (List.nodup_middle.mp hnodup).notMem
    rw [List.mem_append, not_or] at hnot
    obtain ⟨rfl, _, _⟩ := (List.append_cons_inj_of_notMem hnot.1 hnot.2).mp
      (hsplit'.symm.trans hsplit)
    rw [hslot, slot_of_underLogin hunder]

theorem onePerMember_of_keepsOne (hdistinct : Distinct members) (hok : Succeeds s members)
    (hkeeps : KeepsOne s (entries members)) :
    OnePerMember (updateFl s (some members)) (entries members) := by
  have huniq : ∀ e ∈ entries members, ∀ b ∈ (updateFl s (some members)).accounts,
      b.row.flId = some e.number → cols.key b.row.username = e.key cols := by
    intro e he b hb hflId
    obtain ⟨b', hb', hbb'⟩ := account_updateFl hok (Site.mem_accounts_iff.mp hb)
    rw [hbb', deactivated_flId] at hflId
    exact flId_after_loop hdistinct hok hkeeps he hb' hflId
  have hfinal : ∀ e ∈ entries members, ∃ a,
      (updateFl s (some members)).account (e.key cols) = some a ∧
        a.row.username = e.login ∧ a.row.flId = some e.number ∧ a.row.isActive = true := by
    intro e he
    obtain ⟨a, ha, husername, hflId, hactive⟩ := account_of_kept hok.accepted (hkeeps.kept e he)
    refine ⟨a, ?_, husername, hflId, hactive⟩
    rw [hok.updateFl.2, ha, Option.map_some, deactivated_of_mem hflId (List.mem_map_of_mem he)]
  have honly : ∀ e ∈ entries members, ∀ a b,
      (updateFl s (some members)).account (e.key cols) = some a →
      b ∈ (updateFl s (some members)).accounts → b.row.flId = some e.number → b = a := by
    intro e he a b ha hb hflId
    have hb' := Site.mem_accounts_iff.mp hb
    rw [huniq e he b hb hflId, ha] at hb'
    exact (Option.some.inj hb').symm
  constructor
  · intro e he
    obtain ⟨a, ha, husername, hflId, hactive⟩ := hfinal e he
    exact ⟨a, (Site.account_eq_some_iff.mp ha).1, hflId, hactive, husername,
      fun b hb => honly e he a b ha hb⟩
  · intro b hb flId hflId hne hactive
    obtain ⟨b', hb', hbb'⟩ := account_updateFl hok (Site.mem_accounts_iff.mp hb)
    have hflId' := hflId
    rw [hbb'] at hactive
    rw [hbb', deactivated_flId] at hflId'
    obtain ⟨e, he, rfl⟩ := List.mem_map.mp (mem_of_isActive hflId' hne hactive)
    obtain ⟨a, ha, husername, _⟩ := hfinal e he
    exact ⟨e, he, rfl, by rw [honly e he a b ha hb hflId, husername]⟩

theorem keepsOne_of_onePerMember (hdistinct : Distinct members) (hok : Succeeds s members)
    (hone : OnePerMember (updateFl s (some members)) (entries members)) :
    KeepsOne s (entries members) := by
  have hkept : ∀ e ∈ entries members, Kept cols s.names (entries members) e := by
    intro e he
    rw [kept_iff hok.accepted hdistinct.numbers he]
    obtain ⟨a, ha, hflId, _, husername, _⟩ := hone.listed e he
    obtain ⟨a', ha', rfl⟩ := account_updateFl hok (Site.mem_accounts_iff.mp ha)
    rw [deactivated_flId] at hflId
    rw [husername] at ha'
    rw [deactivated_username] at husername
    exact ⟨a', ha', husername, hflId⟩
  refine ⟨hkept, ?_⟩
  intro a ha e he hflId hspared
  -- the account stays beside the one under the login of the entry
  have ha' := Site.mem_accounts_iff.mp ha
  have hstays : (updateFl s (some members)).account (cols.key a.row.username) =
      some (a.deactivated ((entries members).map (·.number))) := by
    rw [hok.updateFl.2, account_run_of_spared hspared, ha', Option.map_some]
  obtain ⟨c, _, _, _, husername, honly⟩ := hone.listed e he
  have hc := honly _ (Site.account_eq_some_iff.mp hstays).1 (by rw [deactivated_flId, hflId])
  have hlogin : cols.key a.row.username = e.key cols := by
    rw [Entry.key, ← husername, ← hc, deactivated_username]
  rw [hlogin] at hspared ha'
  exact not_spared_of_inUse hok.accepted he (Site.isSome_of_account ha') hspared

/-- **When the sync keeps one account for each member**: whatever has happened to
    the table before, a run that succeeds does so exactly when the account of each
    entry is kept and no old account stays beside it. -/
theorem onePerMember_iff (s₀ : Site cols) (history : List (Option (List Item)))
    (members : List Item) (hdistinct : Distinct members)
    (hok : Succeeds (Runs.exec updateFl s₀ history) members) :
    OnePerMember (Runs.exec updateFl s₀ (history ++ [some members])) (entries members) ↔
      KeepsOne (Runs.exec updateFl s₀ history) (entries members) := by
  rw [Runs.exec_snoc]
  constructor
  · exact keepsOne_of_onePerMember hdistinct hok
  · exact onePerMember_of_keepsOne hdistinct hok

end OnePerMember

/-- A member gets a login, and the account under `FL5` makes way for one under it. -/
theorem onePerMember_iff_sample :
    OnePerMember (Runs.exec updateFl emptySite
        ([some [sampleItem 3 5 "", sampleItem 4 6 "bob"]] ++
          [some [sampleItem 3 5 "ann", sampleItem 4 6 "bob"]]))
      (entries [sampleItem 3 5 "ann", sampleItem 4 6 "bob"]) := by
  have hok : Succeeds (Runs.exec updateFl emptySite [some [sampleItem 3 5 "", sampleItem 4 6 "bob"]])
      [sampleItem 3 5 "ann", sampleItem 4 6 "bob"] := ⟨_, rfl⟩
  refine (onePerMember_iff emptySite _ _ ⟨by decide, by decide⟩ hok).mpr ⟨?_, by decide +kernel⟩
  intro e he
  rcases List.mem_pair.mp he with rfl | rfl
  · exact ⟨[], [_], rfl, .inr ⟨by decide +kernel, rfl⟩, by decide +kernel⟩
  · exact ⟨[_], [], rfl, .inl (by decide +kernel), trivial⟩

/-- A member who changes the login keeps the account under the old one too. -/
theorem not_onePerMember :
    ¬ ∀ (cols : Columns) (s₀ : Site cols) (history : List (Option (List Item)))
        (members : List Item), (∀ a ∈ s₀.accounts, a.row.flId = none) →
      Runs.Along updateFl (fun s received =>
        ∃ list, received = some list ∧ Distinct list ∧ Succeeds s list) s₀
          (history ++ [some members]) →
      OnePerMember (Runs.exec updateFl s₀ (history ++ [some members])) (entries members) := by
  intro h
  have hone := h sampleColumns emptySite [some [sampleItem 3 5 "ann"]] [sampleItem 3 5 "annika"]
    (by decide) ⟨⟨_, rfl, ⟨by decide, by decide⟩, ⟨_, rfl⟩⟩,
      ⟨_, rfl, ⟨by decide, by decide⟩, ⟨_, rfl⟩⟩, trivial⟩
  obtain ⟨a, _, _, _, _, honly⟩ := hone.listed ⟨3, 5, "Ann", "Lee", "annika", by decide⟩ (by decide)
  have hold := honly ⟨⟨1, "ann", "Ann", "Lee", true, some 5, some 3, none⟩, []⟩ (by decide) rfl
  have hnew := honly ⟨⟨2, "annika", "Ann", "Lee", true, some 5, some 3, none⟩, []⟩ (by decide) rfl
  exact absurd (hold.trans hnew.symm) (by decide)

/-! ### Cards and machines -/

/-- The same card and the same set of machines. -/
def Account.SameRights (a b : Account) : Prop :=
  a.row.cardId = b.row.cardId ∧ ∀ machineId, machineId ∈ a.machines ↔ machineId ∈ b.machines

/-- A card and machines are what the sync does not set. -/
def Account.Blank (a : Account) : Prop := a.row.cardId = none ∧ a.machines = []

/-- The active account of the entry, under its login and with its number, has
    the rights of `a`. -/
def RightsKept {cols : Columns} (t : Site cols) (a : Account) (e : Entry) : Prop :=
  ∃ b ∈ t.accounts, b.row.username = e.login ∧ b.row.flId = some e.number ∧
    b.row.isActive = true ∧ a.SameRights b

/-- The account of the entry is kept, and the one that the table has under the login
    has the rights of `a`; if there is none, or an entry deletes it, `a` has no rights. -/
structure KeepsRights {cols : Columns} (s : Site cols) (es : List Entry) (a : Account)
    (e : Entry) : Prop where
  kept : Kept cols s.names es e
  rights : (¬ Freed cols s.names es (e.key cols) ∧
      ∃ b, s.account (e.key cols) = some b ∧ a.SameRights b) ∨
    ((Freed cols s.names es (e.key cols) ∨ s.names (e.key cols) = none) ∧ a.Blank)

namespace Account

variable {a b c : Account}

theorem SameRights.refl (a : Account) : a.SameRights a := ⟨rfl, fun _ => Iff.rfl⟩

theorem SameRights.symm (h : a.SameRights b) : b.SameRights a :=
  ⟨h.1.symm, fun machineId => (h.2 machineId).symm⟩

theorem SameRights.trans (h : a.SameRights b) (h' : b.SameRights c) : a.SameRights c :=
  ⟨h.1.trans h'.1, fun machineId => (h.2 machineId).trans (h'.2 machineId)⟩

theorem SameRights.blank_iff (h : a.SameRights b) : a.Blank ↔ b.Blank := by
  simp only [Account.Blank, h.1, List.eq_nil_iff_forall_not_mem, h.2]

theorem Blank.sameRights (ha : a.Blank) (hb : b.Blank) : a.SameRights b := by
  refine ⟨ha.1.trans hb.1.symm, ?_⟩
  rw [ha.2, hb.2]
  exact fun _ => Iff.rfl

theorem Blank.sameRights_iff (hb : b.Blank) : a.SameRights b ↔ a.Blank :=
  ⟨fun h => h.blank_iff.mpr hb, fun ha => ha.sameRights hb⟩

end Account

section Rights

variable {cols : Columns} {s : Site cols} {members : List Item} {es : List Entry} {e : Entry}
  {key : String} {a b : Account}

theorem sameRights_deactivated (active : List Int) (a : Account) :
    a.SameRights (a.deactivated active) := by
  simp [Account.SameRights]

/-- What an entry does to the rights of an account: it keeps them, or it has made the
    account and given it none. -/
theorem process_rights (hb : (s.process e).account key = some b) :
    (e.frees cols s.names key = false ∧ ∃ a, s.account key = some a ∧ a.SameRights b) ∨
      ((e.frees cols s.names key = true ∨ s.names key = none) ∧ b.Blank) := by
  rw [process_account] at hb
  split at hb
  next hwrites =>
    rw [Entry.writes, Bool.and_eq_true, beq_iff_eq] at hwrites
    obtain ⟨hwrites, hslot⟩ := hwrites
    cases hfound : s.account (e.key cols) with
    | some a =>
      -- the account is found, and no account is made
      have hin := Site.isSome_of_account hfound
      have hmakes : e.makes cols s.names = false := by
        rw [Entry.makes, Option.isNone_eq_false_iff.mpr hin, Bool.false_and, Bool.false_and]
      rw [hmakes, Bool.or_false] at hwrites
      have hkey : key = e.key cols := hslot.trans (if_pos hin)
      rw [if_pos hwrites, Site.accountFor, hfound, Option.getD_some] at hb
      rw [hkey, hfound]
      exact .inl ⟨not_frees_of_inUse hin _, a, rfl, Option.some.inj hb ▸ .refl a⟩
    | none =>
      have hmakes : e.makes cols s.names = true := by
        rw [Bool.or_eq_true, Entry.accepted, Site.isSome_names, hfound, Option.isSome_none,
          Bool.false_or, Bool.and_eq_true] at hwrites
        exact hwrites.elim And.right id
      have hmade : e.frees cols s.names key = true ∨ s.names key = none := by
        rw [hslot, slot_of_makes hmakes, ← Option.isNone_iff_eq_none, or_comm]
        rw [Entry.makes, Bool.and_eq_true, Bool.or_eq_true] at hmakes
        exact hmakes.2
      refine .inr ⟨hmade, ?_⟩
      rw [Site.accountFor, hfound, Option.getD_none] at hb
      split at hb
      next => exact Option.some.inj hb ▸ ⟨rfl, rfl⟩
      next => exact Option.some.inj hb ▸ ⟨rfl, rfl⟩
  next =>
    split at hb
    next => cases hb
    next hfrees => exact .inl ⟨Bool.eq_false_iff.mpr hfrees, b, hb, .refl b⟩

/-- **What a loop does to the rights** of an account. -/
theorem rights_run (hb : (Runs.exec Site.process s es).account key = some b) :
    (¬ Freed cols s.names es key ∧ ∃ a, s.account key = some a ∧ a.SameRights b) ∨
      ((Freed cols s.names es key ∨ s.names key = none) ∧ b.Blank) := by
  induction es using List.reverseRecOn generalizing b with
  | nil => exact .inl ⟨not_freed_nil, b, hb, .refl b⟩
  | append_singleton es e ih =>
    rw [Runs.exec_snoc] at hb
    rw [freed_snoc, ← names_run]
    rcases process_rights hb with ⟨hfrees, c, hc, hsame⟩ | ⟨hnew, hblank⟩
    · rw [hfrees]
      simp only [Bool.false_eq_true, false_or]
      rcases ih hc with ⟨hnot, a, ha, hrights⟩ | ⟨hold, hblank⟩
      · exact .inl ⟨hnot, a, ha, hrights.trans hsame⟩
      · exact .inr ⟨hold, hsame.blank_iff.mp hblank⟩
    · refine .inr ⟨?_, hblank⟩
      rcases hnew with hfrees | hnone
      · exact .inl (.inl hfrees)
      · by_contra hnot
        rw [not_or, not_or] at hnot
        have hin := names_of_not_freed (Option.isSome_iff_ne_none.mpr hnot.2) hnot.1.2
        rw [← names_run, hnone] at hin
        cases hin

/-- The rights that an account has after a run that succeeds. -/
theorem rights_updateFl (hok : Succeeds s members)
    (hb : (updateFl s (some members)).account key = some b) :
    (¬ Freed cols s.names (entries members) key ∧
        ∃ a, s.account key = some a ∧ a.SameRights b) ∨
      ((Freed cols s.names (entries members) key ∨ s.names key = none) ∧ b.Blank) := by
  obtain ⟨b', hrun, rfl⟩ := account_updateFl hok hb
  have hsame := sameRights_deactivated ((entries members).map (·.number)) b'
  rcases rights_run hrun with ⟨hnot, a, ha, hrights⟩ | ⟨hnew, hblank⟩
  · exact .inl ⟨hnot, a, ha, hrights.trans hsame⟩
  · exact .inr ⟨hnew, hsame.blank_iff.mp hblank⟩

/-- The rights of `a` against those of an account after the run. -/
theorem sameRights_updateFl_iff (hok : Succeeds s members)
    (hb : (updateFl s (some members)).account key = some b) :
    a.SameRights b ↔ (¬ Freed cols s.names (entries members) key ∧
        ∃ c, s.account key = some c ∧ a.SameRights c) ∨
      ((Freed cols s.names (entries members) key ∨ s.names key = none) ∧ a.Blank) := by
  rcases rights_updateFl hok hb with ⟨hnot, c, hc, hcb⟩ | ⟨hnew, hblank⟩
  · have hin : s.names key ≠ none := Option.isSome_iff_ne_none.mp (Site.isSome_of_account hc)
    constructor
    · intro hab
      exact .inl ⟨hnot, c, hc, hab.trans hcb.symm⟩
    · rintro (⟨_, d, hd, had⟩ | ⟨hfreed | hnone, _⟩)
      · obtain rfl := Option.some.inj (hc.symm.trans hd)
        exact had.trans hcb
      · exact absurd hfreed hnot
      · exact absurd hnone hin
  · rw [hblank.sameRights_iff]
    constructor
    · intro ha
      exact .inr ⟨hnew, ha⟩
    · rintro (⟨hnot, d, hd, _⟩ | ⟨_, ha⟩)
      · rcases hnew with hfreed | hnone
        · exact absurd hfreed hnot
        · rw [Site.names_eq_none, hd] at hnone
          cases hnone
      · exact ha

theorem rightsKept_iff_keepsRights (hdistinct : Distinct members) (hok : Succeeds s members)
    (he : e ∈ entries members) :
    RightsKept (updateFl s (some members)) a e ↔ KeepsRights s (entries members) a e := by
  constructor
  · rintro ⟨b, hb, husername, hflId, _, hrights⟩
    have hb' := Site.mem_accounts_iff.mp hb
    rw [husername] at hb'
    obtain ⟨b', hrun, rfl⟩ := account_updateFl hok hb'
    rw [deactivated_username] at husername
    rw [deactivated_flId] at hflId
    exact ⟨(kept_iff hok.accepted hdistinct.numbers he).mpr ⟨b', hrun, husername, hflId⟩,
      (sameRights_updateFl_iff hok hb').mp hrights⟩
  · rintro ⟨hkept, hrights⟩
    obtain ⟨b, hb, husername, hflId, hactive⟩ := account_of_kept hok.accepted hkept
    have hfinal : (updateFl s (some members)).account (e.key cols) = some b := by
      rw [hok.updateFl.2, hb, Option.map_some,
        deactivated_of_mem hflId (List.mem_map_of_mem he)]
    exact ⟨b, (Site.account_eq_some_iff.mp hfinal).1, husername, hflId, hactive,
      (sameRights_updateFl_iff hok hfinal).mpr hrights⟩

/-- **When the sync keeps the rights of a member**: the accounts with a listed
    number hand them on exactly under these conditions. -/
theorem rightsKept_iff (hdistinct : Distinct members) (hok : Succeeds s members) :
    (∀ a ∈ s.accounts, ∀ e ∈ entries members, a.row.flId = some e.number →
      RightsKept (updateFl s (some members)) a e) ↔
    ∀ a ∈ s.accounts, ∀ e ∈ entries members, a.row.flId = some e.number →
      KeepsRights s (entries members) a e := by
  apply forall₂_congr
  intro a _
  apply forall₂_congr
  intro e he
  rw [rightsKept_iff_keepsRights hdistinct hok he]

end Rights

def rightsSite : Site sampleColumns where
  db := {
    machines := [⟨1, "woodshop", "gamma"⟩]
    members := [⟨1, "FL5", "Ann", "Lee", true, some 5, some 3, some "000000002A"⟩]
    memberMachines := [⟨1, 1⟩]
    machineIds := by decide
    memberIds := by decide
    links := by decide }
  nextId := 2
  usernames := by decide
  ids := by decide
  fits := by decide

def rightsAccount : Account :=
  ⟨⟨1, "FL5", "Ann", "Lee", true, some 5, some 3, some "000000002A"⟩, [1]⟩

/-- The second entry makes an account, and deletes none of the first. -/
theorem rightsKept_iff_sample :
    RightsKept (updateFl rightsSite (some [sampleItem 3 5 "", sampleItem 4 6 "bob"]))
      rightsAccount ⟨3, 5, "Ann", "Lee", "FL5", by decide⟩ := by
  have hok : Succeeds rightsSite [sampleItem 3 5 "", sampleItem 4 6 "bob"] := ⟨_, rfl⟩
  have hkeeps := (rightsKept_iff ⟨by decide, by decide⟩ hok).mpr
  refine hkeeps ?_ rightsAccount (by decide) ⟨3, 5, "Ann", "Lee", "FL5", by decide⟩ (by decide) rfl
  intro a ha e he hflId
  obtain rfl : a = rightsAccount := List.mem_singleton.mp ha
  rcases List.mem_pair.mp he with rfl | rfl
  · refine ⟨⟨[], [_], rfl, .inl (by decide), by decide⟩,
      .inl ⟨?_, rightsAccount, by decide, .refl _⟩⟩
    have hnot : ¬ Freed sampleColumns rightsSite.names
        ([] ++ [⟨3, 5, "Ann", "Lee", "FL5", by decide⟩] ++
          [⟨4, 6, "Ann", "Lee", "bob", by decide⟩]) "FL5" := by
      rw [freed_snoc, freed_snoc]
      rintro (hbob | hann | hnil)
      · exact absurd hbob (by decide)
      · exact absurd hann (by decide)
      · exact not_freed_nil hnil
    exact hnot
  · cases hflId

/-- A member who gets a login loses the card and the machines. -/
theorem not_rightsKept :
    ¬ ∀ (cols : Columns) (s : Site cols) (members : List Item),
      (∀ a ∈ s.accounts, ∀ b ∈ s.accounts, ∀ flId ≠ 0,
        a.row.flId = some flId → b.row.flId = some flId → a = b) →
      Distinct members → Succeeds s members →
      ∀ a ∈ s.accounts, ∀ e ∈ entries members, a.row.flId = some e.number →
        RightsKept (updateFl s (some members)) a e := by
  intro h
  obtain ⟨b, hb, _, _, _, hcard, _⟩ := h sampleColumns rightsSite [sampleItem 3 5 "alice"]
    (by
      intro a ha b hb _ _ _ _
      exact (List.mem_singleton.mp ha).trans (List.mem_singleton.mp hb).symm)
    ⟨by decide, by decide⟩ ⟨_, rfl⟩ rightsAccount (by decide)
    ⟨3, 5, "Ann", "Lee", "alice", by decide⟩ (by decide) rfl
  obtain rfl : b = ⟨⟨2, "alice", "Ann", "Lee", true, some 5, some 3, none⟩, []⟩ :=
    List.mem_singleton.mp hb
  exact absurd hcard (by decide)

end Acs.Backend
