/-
  Acs/Esp32/LockedScreen.lean
  ===========================
  **The warnings on the screen while the door is locked** (`handle_locked`).

  The main frontend lists the doors that are open and the cards that have been
  forgotten in one text.  The line about the cards is assigned, not appended, so
  that it takes the place of the line about the doors: both are shown only when
  there is nothing to say about the cards, or the doors happen to be named in
  their line (`allShown_iff`).
-/
import Acs.Esp32.FleetStatus
import Acs.Esp32.ControllerSafety

namespace Acs.Esp32

open Acs Listing Controller

/-! ### The names on the screen -/

/-- `get_open_doors` lists the device. -/
def ListsDoor (m : Mqtt) (name : Bytes) : Prop :=
  ∃ status, m.doorStatus[name]? = some status ∧ (status.1 = true ∨ status.2 = true)

/-- `get_present_cards` lists the device. -/
def ListsCard (m : Mqtt) (name : Bytes) : Prop := m.cardPresentStatus[name]? = some true

/-- The text has the name of every device that is listed. -/
structure ShowsAll (m : Mqtt) (aux : Bytes) : Prop where
  doors : ∀ name, ListsDoor m name → name <:+: aux
  cards : ∀ name, ListsCard m name → name <:+: aux

/-- What an iteration sees, with what `Mqtt` tells of the other devices. -/
def sees (m : Mqtt) (i : Input) : Input :=
  { i with openDoors := m.getOpenDoors, presentCards := m.getPresentCards }

/-- The text that `handle_locked` gives to `Display::set_status` shows everything. -/
def AllShown (c : Controller) (m : Mqtt) (i : Input) : Prop :=
  ∃ aux rest, (c.handleLocked (sees m i)).calls = c.calls ++ .setPattern .ready ::
      .setStatus (str "Locked") .orange (some (aux, .red)) :: rest ∧ ShowsAll m aux

/-- Both lines fit in the buffer of `format`. -/
structure LinesFit (m : Mqtt) : Prop where
  doors : (str "Open: " ++ cstr m.getOpenDoors).length ≤ 1023
  cards : (str "Cards forgot in: " ++ cstr m.getPresentCards).length ≤ 1023

/-! ### The lists -/

theorem infix_getOpenDoors {m : Mqtt} {name : Bytes} (h : ListsDoor m name) :
    name <:+: m.getOpenDoors := by
  obtain ⟨⟨doorOpen, unlocked⟩, hget, hlisted⟩ := h
  rw [getOpenDoors_eq, listed_eq_joined]
  cases doorOpen with
  | true =>
    have hlabel : str "*" ++ name ∈ labels doorLabel m.doorStatus :=
      mem_labels.mpr ⟨name, _, hget, rfl⟩
    exact (List.suffix_append _ _).isInfix.trans (infix_joined hlabel)
  | false =>
    obtain rfl : unlocked = true := hlisted.resolve_left Bool.false_ne_true
    have hlabel : name ∈ labels doorLabel m.doorStatus := mem_labels.mpr ⟨name, _, hget, rfl⟩
    exact infix_joined hlabel

theorem infix_getPresentCards {m : Mqtt} {name : Bytes} (h : ListsCard m name) :
    name <:+: m.getPresentCards := by
  rw [getPresentCards_eq, listed_eq_joined]
  exact infix_joined (mem_labels.mpr ⟨name, true, h, rfl⟩)

/-- Nothing in the list of doors is a NUL if none of the names has one. -/
theorem zero_not_mem_getOpenDoors {m : Mqtt} (h : ∀ name, ListsDoor m name → 0 ∉ name) :
    0 ∉ m.getOpenDoors := by
  rw [getOpenDoors_eq, listed_eq_joined]
  intro hmem
  rcases mem_joined hmem with hmem | ⟨label, hlabel, hmem⟩
  · exact absurd hmem (by decide)
  · obtain ⟨name, ⟨doorOpen, unlocked⟩, hget, heq⟩ := mem_labels.mp hlabel
    cases doorOpen with
    | true =>
      have hno := h name ⟨_, hget, .inl rfl⟩
      rw [← Option.some.inj heq, List.mem_append] at hmem
      rcases hmem with hmem | hmem
      · exact absurd hmem (by decide)
      · exact hno hmem
    | false =>
      cases unlocked with
      | true =>
        rw [← Option.some.inj heq] at hmem
        exact h name ⟨_, hget, .inr rfl⟩ hmem
      | false => exact absurd heq (by simp [doorLabel])

theorem zero_not_mem_getPresentCards {m : Mqtt} (h : ∀ name, ListsCard m name → 0 ∉ name) :
    0 ∉ m.getPresentCards := by
  rw [getPresentCards_eq, listed_eq_joined]
  intro hmem
  rcases mem_joined hmem with hmem | ⟨label, hlabel, hmem⟩
  · exact absurd hmem (by decide)
  · obtain ⟨name, present, hget, heq⟩ := mem_labels.mp hlabel
    cases present with
    | true =>
      rw [← Option.some.inj heq] at hmem
      exact h name hget hmem
    | false => exact absurd heq (by simp [cardLabel])

/-! ### The text -/

variable {c : Controller} {m : Mqtt} {i : Input}

/-- What has been called stays called. -/
theorem prefix_emit {calls : List Call} (call : Call) (h : calls <+: c.calls) :
    calls <+: (c.emit call).calls :=
  h.trans (List.prefix_append _ _)

theorem prefix_checkThursday {calls : List Call} (i : Input) (h : calls <+: c.calls) :
    calls <+: (c.checkThursday i).calls := by
  rw [checkThursday]
  split
  · exact prefix_emit _ h
  · dsimp only
    split
    · exact prefix_emit _ (prefix_emit _ h)
    · exact h

theorem prefix_checkCard {calls : List Call} (i : Input) (changeState : Bool)
    (h : calls <+: c.calls) : calls <+: (c.checkCard i changeState).calls := by
  rw [checkCard]
  split
  · split
    · exact prefix_emit _ (prefix_emit _ (prefix_emit _ h))
    · exact h
  · exact prefix_emit _ (prefix_emit _ (prefix_emit _ h))
  · exact prefix_emit _ (prefix_emit _ (prefix_emit _ h))
  · exact prefix_emit _ h

/-- The text is given to the display before anything else is decided. -/
theorem calls_handleLocked (c : Controller) (i : Input) :
    ∃ rest, (c.handleLocked i).calls = c.calls ++ .setPattern .ready ::
      .setStatus (str "Locked") .orange (some (c.auxStatus i, .red)) :: rest := by
  have hpre : c.calls ++ [.setPattern .ready,
      .setStatus (str "Locked") .orange (some (c.auxStatus i, .red))] <+:
        (c.handleLocked i).calls := by
    rw [handleLocked]
    dsimp only
    generalize hlocked : ({ c with isLocked := true } : Controller) = locked
    have hcalls : locked.calls = c.calls := by rw [← hlocked]
    have haux : (locked.emit (.setPattern .ready)).auxStatus i = c.auxStatus i := by
      rw [← hlocked]
      rfl
    have hstart : c.calls ++ [.setPattern .ready,
        .setStatus (str "Locked") .orange (some (c.auxStatus i, .red))] <+:
          ((locked.emit (.setPattern .ready)).emit
            (.setStatus (str "Locked") .orange (some (c.auxStatus i, .red)))).calls := by
      rw [emit_calls, emit_calls, hcalls, List.append_assoc]
      exact List.prefix_refl _
    rw [haux]
    split
    · exact prefix_checkThursday i (prefix_emit _ hstart)
    · split
      · exact prefix_emit _ (prefix_emit _ hstart)
      · split
        · exact prefix_checkCard i true (prefix_emit _ hstart)
        · split
          · exact prefix_emit _ (prefix_emit _ (prefix_emit _ hstart))
          · exact prefix_emit _ hstart
  obtain ⟨rest, hrest⟩ := hpre
  exact ⟨rest, by rw [← hrest, List.append_assoc]; rfl⟩

theorem allShown_iff_showsAll (c : Controller) (m : Mqtt) (i : Input) :
    AllShown c m i ↔ ShowsAll m (c.auxStatus (sees m i)) := by
  obtain ⟨rest, hrest⟩ := calls_handleLocked c (sees m i)
  constructor
  · rintro ⟨aux, rest', hrest', hshows⟩
    rw [hrest, List.append_cancel_left_eq, List.cons.injEq, List.cons.injEq] at hrest'
    have haux := hrest'.2.1
    simp only [Call.setStatus.injEq, true_and, Option.some.injEq, Prod.mk.injEq, and_true] at haux
    rw [haux]
    exact hshows
  · intro hshows
    exact ⟨_, rest, hrest, hshows⟩

theorem format_of_fits {label text : Bytes} (h : (label ++ text).length ≤ 1023) :
    format [label, text] = label ++ text := by
  have hflatten : [label, text].flatten = label ++ text := by simp
  rw [format, hflatten]
  exact List.take_of_length_le h

/-- The text of the main frontend, when the lines fit. -/
theorem auxStatus_eq (hmain : c.isMain = true) (hfit : LinesFit m) :
    c.auxStatus (sees m i) =
      if m.getPresentCards ≠ [] then str "Cards forgot in: " ++ cstr m.getPresentCards
      else if m.getOpenDoors ≠ [] then str "Open: " ++ cstr m.getOpenDoors
      else [] := by
  rw [auxStatus, if_pos hmain, sees]
  dsimp only
  rw [format_of_fits hfit.doors, format_of_fits hfit.cards]

/-- There is no NUL in the text. -/
theorem zero_not_mem_auxStatus (hmain : c.isMain = true) (hfit : LinesFit m) :
    0 ∉ c.auxStatus (sees m i) := by
  have hcstr : ∀ text, 0 ∉ cstr text := by
    intro text h
    exact absurd (List.mem_takeWhile_imp h) (by simp)
  rw [auxStatus_eq hmain hfit]
  intro h
  split at h
  · rcases List.mem_append.mp h with h | h
    · exact absurd h (by decide)
    · exact hcstr _ h
  · split at h
    · rcases List.mem_append.mp h with h | h
      · exact absurd h (by decide)
      · exact hcstr _ h
    · exact absurd h List.not_mem_nil

/-- The same, with both lists in full. -/
theorem auxStatus_of_no_zero (hmain : c.isMain = true) (hfit : LinesFit m)
    (hnul : ∀ name, ListsDoor m name ∨ ListsCard m name → 0 ∉ name) :
    c.auxStatus (sees m i) =
      if m.getPresentCards ≠ [] then str "Cards forgot in: " ++ m.getPresentCards
      else if m.getOpenDoors ≠ [] then str "Open: " ++ m.getOpenDoors
      else [] := by
  rw [auxStatus_eq hmain hfit,
    cstr_eq_self (zero_not_mem_getPresentCards fun name hname => hnul name (.inr hname)),
    cstr_eq_self (zero_not_mem_getOpenDoors fun name hname => hnul name (.inl hname))]

theorem ShowsAll.zero_not_mem {aux : Bytes} (h : ShowsAll m aux) (hzero : 0 ∉ aux) (name : Bytes)
    (hlisted : ListsDoor m name ∨ ListsCard m name) : 0 ∉ name := by
  intro hmem
  rcases hlisted with hlisted | hlisted
  · exact hzero ((h.doors name hlisted).subset hmem)
  · exact hzero ((h.cards name hlisted).subset hmem)

/-- The line about the cards shows all cards. -/
theorem showsAll_cardLine_iff :
    ShowsAll m (str "Cards forgot in: " ++ m.getPresentCards) ↔
      ∀ name, ListsDoor m name → name <:+: str "Cards forgot in: " ++ m.getPresentCards := by
  constructor
  · exact fun h => h.doors
  · intro hdoors
    refine ⟨hdoors, ?_⟩
    intro name hname
    exact (infix_getPresentCards hname).trans (List.suffix_append _ _).isInfix

/-- The line about the doors shows everything when there is nothing to say about
    the cards. -/
theorem showsAll_doorLine (hcards : m.getPresentCards = []) :
    ShowsAll m (if m.getOpenDoors ≠ [] then str "Open: " ++ m.getOpenDoors else []) := by
  constructor
  · intro name hname
    have hin := infix_getOpenDoors hname
    split
    next => exact hin.trans (List.suffix_append _ _).isInfix
    next hnil =>
      rw [not_not.mp hnil] at hin
      exact hin
  · intro name hname
    have hin := infix_getPresentCards hname
    rw [hcards] at hin
    rw [List.infix_nil.mp hin]
    exact List.nil_infix

/-- **When the screen shows all names**: none of them has a NUL, and either there is
    nothing to say about cards, or the doors are named in what is said. -/
theorem allShown_iff (hmain : c.isMain = true) (hfit : LinesFit m) :
    AllShown c m i ↔
      (∀ name, ListsDoor m name ∨ ListsCard m name → 0 ∉ name) ∧
      (m.getPresentCards = [] ∨
        ∀ name, ListsDoor m name → name <:+: str "Cards forgot in: " ++ m.getPresentCards) := by
  rw [allShown_iff_showsAll]
  constructor
  · intro h
    have hnul := h.zero_not_mem (zero_not_mem_auxStatus hmain hfit)
    refine ⟨hnul, ?_⟩
    rw [or_iff_not_imp_left]
    intro hcards
    rw [auxStatus_of_no_zero hmain hfit hnul, if_pos hcards] at h
    exact showsAll_cardLine_iff.mp h
  · rintro ⟨hnul, hdoors⟩
    rw [auxStatus_of_no_zero hmain hfit hnul]
    by_cases hcards : m.getPresentCards = []
    · rw [if_neg (not_not.mpr hcards)]
      exact showsAll_doorLine hcards
    · rw [if_pos hcards]
      exact showsAll_cardLine_iff.mpr (hdoors.resolve_left hcards)

/-- The door of one device is open, and a card has been forgotten in another. -/
def warnings (door card : Bytes) : Mqtt :=
  { doorStatus := (∅ : Std.TreeMap Bytes (Bool × Bool)).insert door (true, false)
    cardPresentStatus := (∅ : Std.TreeMap Bytes Bool).insert card true }

theorem getElem?_insert_empty {β : Type} {key name : Bytes} {value v : β} :
    ((∅ : Std.TreeMap Bytes β).insert key value)[name]? = some v ↔ name = key ∧ value = v := by
  rw [Std.TreeMap.getElem?_insert]
  split
  next heq =>
    rw [Std.LawfulEqCmp.eq_of_compare heq, Option.some.injEq, eq_self, true_and]
  next hne =>
    refine iff_of_false (by simp) ?_
    rintro ⟨rfl, -⟩
    exact hne Std.ReflCmp.compare_self

theorem listsDoor_warnings {door card name : Bytes} :
    ListsDoor (warnings door card) name ↔ name = door := by
  constructor
  · rintro ⟨status, hget, _⟩
    exact (getElem?_insert_empty.mp hget).1
  · rintro rfl
    exact ⟨(true, false), getElem?_insert_empty.mpr ⟨rfl, rfl⟩, .inl rfl⟩

theorem listsCard_warnings {door card name : Bytes} :
    ListsCard (warnings door card) name ↔ name = card :=
  getElem?_insert_empty.trans (and_iff_left rfl)

theorem getOpenDoors_warnings (door card : Bytes) :
    (warnings door card).getOpenDoors = str "*" ++ door := rfl

theorem getPresentCards_warnings (door card : Bytes) :
    (warnings door card).getPresentCards = card := rfl

theorem linesFit_warnings {door card : Bytes} (hdoor : door.length ≤ 1000)
    (hcard : card.length ≤ 1000) : LinesFit (warnings door card) where
  doors := by
    have hcstr : (cstr (str "*" ++ door)).length ≤ (str "*" ++ door).length :=
      (List.takeWhile_prefix _).length_le
    have hlabel : (str "Open: ").length = 6 := rfl
    have hstar : (str "*").length = 1 := rfl
    rw [getOpenDoors_warnings, List.length_append]
    rw [List.length_append] at hcstr
    omega
  cards := by
    have hcstr : (cstr card).length ≤ card.length := (List.takeWhile_prefix _).length_le
    have hlabel : (str "Cards forgot in: ").length = 17 := rfl
    rw [getPresentCards_warnings, List.length_append]
    omega

def mainFrontend : Controller := { isMain := true, lastGatewayUpdate := 0 }

/-- The door that is open is the one of the workshop where the card is. -/
theorem allShown_iff_sample :
    AllShown mainFrontend (warnings (str "wood") (str "woodshop")) { currentTime := 0 } := by
  refine (allShown_iff rfl (linesFit_warnings (by decide) (by decide))).mpr ⟨?_, .inr ?_⟩
  · rintro name (h | h)
    · rw [listsDoor_warnings.mp h]
      decide
    · rw [listsCard_warnings.mp h]
      decide
  · intro name h
    rw [listsDoor_warnings.mp h]
    exact ⟨str "Cards forgot in: ", str "shop", rfl⟩

/-- The open door is not on the screen when there is a card in another room. -/
theorem not_allShown : ¬ ∀ c m i, c.isMain = true → LinesFit m → AllShown c m i := by
  intro h
  have hall := h mainFrontend (warnings (str "back") (str "main")) { currentTime := 0 } rfl
    (linesFit_warnings (by decide) (by decide))
  have hshown := ((allShown_iff_showsAll _ _ _).mp hall).doors (str "back")
    (listsDoor_warnings.mpr rfl)
  exact absurd hshown (by decide)

end Acs.Esp32
