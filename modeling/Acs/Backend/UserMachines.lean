/-
  Acs/Backend/UserMachines.lean
  =============================
  **The import of machine rights from a file** (`synch/user_machines.py`).

  A row with the number of a member and the name of a machine gives the machine
  to the member.  In front of that, a row that asks for a machine is to be
  written to the log, in a line that names a variable which the module does not
  have: the run ends there with a `NameError` (`importRowLogging_error`), so that no
  file gives anything to anybody.

  The rest of the loop does what it is for: with any log line that returns, it
  gives each member exactly the machines that the file names, and a second run
  changes nothing (`imports_of_log`).
-/
import Acs.Backend.Cards

namespace Acs.Backend

open Effects

namespace UserMachines

/-! ### `import_machines` -/

/-- The exceptions of the import. -/
inductive ImportError where
  | nameError (name : String)
  | writer (err : Error)
deriving DecidableEq, Repr

abbrev Importer (cols : Columns) (α : Type) := EStateM ImportError (Site cols) α

/-- The tests in front of the log line, which are those of `cards.py`: the number of
    the member and the name of the machine. -/
def request (row : List String) : Except Error (Option (Int × String)) := assignment row

section Import

variable {cols : Columns} {α : Type}

/-- A statement of the ORM. -/
def orm (x : Writer cols α) : Importer cols α := fun s =>
  match x s with
  | .ok a t => .ok a t
  | .error err t => .error (.writer err) t

theorem orm_ok {x : Writer cols α} {s t : Site cols} {a : α} (h : x s = .ok a t) :
    orm x s = .ok a t := by
  rw [orm, h]

/-- `card_id` in a function that does not assign it, of a module that does not
    define it. -/
def cardId : Importer cols String := throw (.nameError "card_id")

/-- `logger.info("%d %s" % (fl_id, card_id))`. -/
def logRow (_flId : Int) : Importer cols PUnit := do
  let _ ← cardId
  pure ⟨⟩

variable (log : Int → Importer cols PUnit)

/-- The body of the loop, for a log line. -/
def importRowLogging (count : Nat) (row : List String) : Importer cols Nat :=
  match request row with
  | .error err => throw (.writer err)
  | .ok none => pure count
  | .ok (some (flId, machineName)) => do
    log flId
    match ← orm (Writer.find fun u => u.flId == some flId) with
    | none => pure count
    | some u => do
      match ← orm (Writer.findMachine machineName) with
      | none => pure count
      | some mach => do
        orm (Writer.addMachine u mach)
        orm (Writer.save u)
        return count + 1

def importMachinesLogging (rows : List (List String)) : Importer cols Nat :=
  rows.foldlM (importRowLogging log) 0

def importMachines (rows : List (List String)) : Importer cols Nat :=
  importMachinesLogging logRow rows

end Import

/-! ### What a file asks for -/

/-- The row has a number other than 0 and the name of a machine. -/
def Asks (row : List String) : Prop :=
  ∃ flId machineName, request row = .ok (some (flId, machineName))

/-- The row has a number with more digits than `int` takes. -/
def TooLong (row : List String) : Prop :=
  ∃ first rest, row = first :: rest ∧ Text.isdecimal (Text.strip first) = true ∧
    Text.maxDigits < (Text.strip first).toList.length

section Named

variable {cols : Columns}

/-- The row gives the machine to the member. -/
def Names (s : Site cols) (row : List String) (u : Member) (mach : Machine) : Prop :=
  ∃ flId machineName, request row = .ok (some (flId, machineName)) ∧
    u ∈ s.db.members ∧ u.flId = some flId ∧ mach ∈ s.db.machines ∧ mach.name = machineName

/-- Each member has the machines it had and those that the rows give it, and nothing
    else has changed. -/
structure Granted (s : Site cols) (rows : List (List String)) (t : Site cols) : Prop where
  members : t.db.members = s.db.members
  machines : t.db.machines = s.db.machines
  nextId : t.nextId = s.nextId
  sets : ∀ u ∈ s.db.members, ∀ machineId, machineId ∈ Site.machinesOf t.db u.id ↔
    machineId ∈ Site.machinesOf s.db u.id ∨
      ∃ row ∈ rows, ∃ mach, Names s row u mach ∧ mach.id = machineId

/-- The import completes and gives what the rows ask for, and a second one changes
    nothing. -/
def Imports (run : Importer cols Nat) (s : Site cols) (rows : List (List String)) : Prop :=
  ∃ count t, run s = .ok count t ∧ Granted s rows t ∧ ∃ again, run t = .ok again t

/-- `None` may be the number of several members. -/
def FlIdsUnique (s : Site cols) : Prop :=
  ∀ u ∈ s.db.members, ∀ v ∈ s.db.members, u.flId ≠ none → u.flId = v.flId → u = v

/-- Rows of a file: without columns, or with two at least. -/
def Readable (row : List String) : Prop := row = [] ∨ 2 ≤ row.length

theorem request_of_tooLong {row : List String} (h : TooLong row) :
    request row = .error .valueError := by
  obtain ⟨first, rest, rfl, hdecimal, hlong⟩ := h
  rw [request, assignment]
  dsimp only
  rw [if_pos hdecimal, (Text.int_eq_none_iff hdecimal).mpr hlong]

theorem request_ok {row : List String} (h : Readable row) (hshort : ¬ TooLong row) :
    request row = .ok none ∨ Asks row := by
  rcases h with rfl | hlen
  · exact .inl rfl
  · match row, hlen with
    | first :: second :: rest, _ =>
      rw [Asks, request, assignment]
      dsimp only
      split
      next hdecimal =>
        split
        next hnone =>
          exact absurd ⟨first, second :: rest, rfl, hdecimal,
            (Text.int_eq_none_iff hdecimal).mp hnone⟩ hshort
        next =>
          split
          next => exact .inl rfl
          next =>
            split
            next => exact .inl rfl
            next => exact .inr ⟨_, _, rfl⟩
      next => exact .inl rfl

theorem granted_refl {s : Site cols} {rows : List (List String)}
    (h : ∀ row ∈ rows, ∀ u ∈ s.db.members, ∀ mach, Names s row u mach →
      mach.id ∈ Site.machinesOf s.db u.id) : Granted s rows s where
  members := rfl
  machines := rfl
  nextId := rfl
  sets := by
    intro u hu machineId
    constructor
    · exact .inl
    · rintro (hmem | ⟨row, hrow, mach, hnames, rfl⟩)
      · exact hmem
      · exact h row hrow u hu mach hnames

/-! ### The log line -/

theorem importRowLogging_skip {row : List String} (h : request row = .ok none)
    (log : Int → Importer cols PUnit) (count : Nat) (s : Site cols) :
    importRowLogging log count row s = .ok count s := by
  rw [importRowLogging, h]
  rfl

/-- **A row that asks** ends the run, and leaves the database alone. -/
theorem importRowLogging_error {row : List String} (h : Asks row) (count : Nat) (s : Site cols) :
    importRowLogging logRow count row s = .error (.nameError "card_id") s := by
  obtain ⟨flId, machineName, hrow⟩ := h
  have hlog : logRow flId s = .error (.nameError "card_id") s := rfl
  rw [importRowLogging, hrow]
  exact bind_error hlog

/-- Rows that ask for nothing are passed over, up to the first other one. -/
theorem importRowLogging_screened :
    Screened (importRowLogging (logRow : Int → Importer cols PUnit))
      (fun _ row => request row = .ok none) (fun count _ => count) (fun s _ => s) (fun s _ => s) where
  ok := fun count row s h => importRowLogging_skip h logRow count s
  error := by
    intro count row s h
    cases hrow : request row with
    | error err => exact ⟨.writer err, by rw [importRowLogging, hrow]; rfl⟩
    | ok asked =>
      cases asked with
      | none => exact absurd hrow h
      | some asked => exact ⟨_, importRowLogging_error ⟨asked.1, asked.2, hrow⟩ count s⟩

theorem importMachines_cases (rows : List (List String)) (s : Site cols) :
    ((∀ row ∈ rows, request row = .ok none) ∧ importMachines rows s = .ok 0 s) ∨
      ((∃ row ∈ rows, request row ≠ .ok none) ∧
        ∃ err, importMachines rows s = .error err s) := by
  rcases Runs.along_or_first (fun t _ => t) (fun _ row => request row = .ok none) s rows with
    hgood | ⟨pre, row, post, rfl, hpre, hbad⟩
  · left
    have hok := importRowLogging_screened.foldlM_ok 0 hgood
    rw [Runs.exec_const, List.foldl_fixed] at hok
    refine ⟨?_, hok⟩
    intro row hrow
    obtain ⟨pre, post, hsplit⟩ := List.append_of_mem hrow
    exact Runs.along_iff.mp hgood pre row post hsplit
  · right
    obtain ⟨err, herr⟩ := importRowLogging_screened.foldlM_error 0 hpre hbad post
    rw [Runs.exec_const] at herr
    exact ⟨⟨row, by simp, hbad⟩, err, herr⟩

/-- No file gives anything to anybody. -/
theorem final_importMachines (rows : List (List String)) (s : Site cols) :
    final (importMachines rows s) = s := by
  rcases importMachines_cases rows s with ⟨_, hok⟩ | ⟨_, err, herr⟩
  · rw [hok, final_ok]
  · rw [herr, final_error]

/-- The import does what it is for exactly when there is nothing for it to do. -/
theorem imports_iff {rows : List (List String)} (hrows : ∀ row ∈ rows, Readable row)
    (s : Site cols) :
    Imports (importMachines rows) s rows ↔ ∀ row ∈ rows, ¬ Asks row ∧ ¬ TooLong row := by
  constructor
  · rintro ⟨count, t, hrun, _⟩ row hrow
    have hskip : request row = .ok none := by
      rcases importMachines_cases rows s with ⟨hskip, _⟩ | ⟨_, err, herr⟩
      · exact hskip row hrow
      · cases hrun.symm.trans herr
    constructor
    · rintro ⟨flId, machineName, hasks⟩
      cases hasks.symm.trans hskip
    · intro hlong
      cases (request_of_tooLong hlong).symm.trans hskip
  · intro hnot
    have hskip : ∀ row ∈ rows, request row = .ok none := fun row hrow =>
      (request_ok (hrows row hrow) (hnot row hrow).2).resolve_right (hnot row hrow).1
    rcases importMachines_cases rows s with ⟨_, hok⟩ | ⟨⟨row, hrow, hne⟩, _⟩
    · refine ⟨0, s, hok, granted_refl ?_, 0, hok⟩
      rintro row hrow u _ mach ⟨flId, machineName, hasks, _⟩
      exact absurd ⟨flId, machineName, hasks⟩ (hnot row hrow).1
    · exact absurd (hskip row hrow) hne

/-- Ann, who has the number 5, and a laser. -/
def sampleSite : Site sampleColumns where
  db := {
    machines := [⟨1, "laser", ""⟩]
    members := [⟨1, "ann", "Ann", "Lee", true, some 5, some 3, none⟩]
    memberMachines := []
    machineIds := List.nodup_singleton _
    memberIds := List.nodup_singleton _
    links := fun _ hlink => absurd hlink List.not_mem_nil }
  nextId := 2
  usernames := List.nodup_singleton _
  ids := fun _ hrow => by
    rw [List.mem_singleton.mp hrow]
    exact Nat.one_lt_two
  fits := fun _ hrow => by
    rw [List.mem_singleton.mp hrow]
    rfl

theorem imports_iff_sample :
    Imports (importMachines [["fl_id", "machine"], []]) sampleSite [["fl_id", "machine"], []] := by
  refine (imports_iff ?_ sampleSite).mpr ?_
  · simp [Readable]
  · intro row hrow
    rcases List.mem_pair.mp hrow with rfl | rfl
    · constructor
      · rintro ⟨flId, machineName, hasks⟩
        cases hasks
      · rintro ⟨first, rest, hrow, hdecimal, _⟩
        obtain ⟨rfl, _⟩ := List.cons.inj hrow
        exact absurd hdecimal (by decide)
    · constructor
      · rintro ⟨flId, machineName, hasks⟩
        cases hasks
      · rintro ⟨first, rest, hrow, _⟩
        cases hrow

/-- A row that gives the laser to Ann. -/
theorem not_imports :
    ¬ ∀ (cols : Columns) (s : Site cols) (rows : List (List String)),
      FlIdsUnique s → (∀ row ∈ rows, Readable row) → Imports (importMachines rows) s rows := by
  intro himports
  have hunique : FlIdsUnique sampleSite := by
    intro u hu v hv _ _
    rw [List.mem_singleton.mp hu, List.mem_singleton.mp hv]
  have hreadable : ∀ row ∈ [["5", "laser"]], Readable row := by simp [Readable]
  obtain ⟨count, t, hrun, _⟩ := himports sampleColumns sampleSite [["5", "laser"]] hunique hreadable
  have hrow : Asks ["5", "laser"] := ⟨5, "laser", rfl⟩
  have herror := foldlM_cons_error (importRowLogging_error hrow 0 sampleSite) []
  cases hrun.symm.trans herror

/-! ### The loop, with a log line that returns -/

theorem names_iff {s : Site cols} {row : List String} {flId : Int} {machineName : String}
    (hasks : request row = .ok (some (flId, machineName))) {u : Member} {mach : Machine} :
    Names s row u mach ↔ u ∈ s.db.members ∧ u.flId = some flId ∧
      mach ∈ s.db.machines ∧ mach.name = machineName := by
  constructor
  · rintro ⟨flId', machineName', hasks', hnamed⟩
    obtain ⟨rfl, rfl⟩ : flId' = flId ∧ machineName' = machineName := by
      simpa using hasks'.symm.trans hasks
    exact hnamed
  · intro hnamed
    exact ⟨flId, machineName, hasks, hnamed⟩

theorem not_names_of_skip {s : Site cols} {row : List String} (hskip : request row = .ok none)
    (u : Member) (mach : Machine) : ¬ Names s row u mach := by
  rintro ⟨flId, machineName, hasks, _⟩
  cases hasks.symm.trans hskip

/-- `unique=True`. -/
def MachineNamesUnique (s : Site cols) : Prop :=
  ∀ a ∈ s.db.machines, ∀ b ∈ s.db.machines, a.name = b.name → a = b

theorem names_congr {s t : Site cols} (hmembers : t.db.members = s.db.members)
    (hmachines : t.db.machines = s.db.machines) {row : List String} {u : Member}
    {mach : Machine} : Names t row u mach ↔ Names s row u mach := by
  rw [Names, Names, hmembers, hmachines]

theorem Granted.flIdsUnique {s t : Site cols} {rows : List (List String)}
    (h : Granted s rows t) (hs : FlIdsUnique s) : FlIdsUnique t := by
  rw [FlIdsUnique, h.members]
  exact hs

theorem Granted.machineNamesUnique {s t : Site cols} {rows : List (List String)}
    (h : Granted s rows t) (hs : MachineNamesUnique s) : MachineNamesUnique t := by
  rw [MachineNamesUnique, h.machines]
  exact hs

theorem Granted.trans {s t t' : Site cols} {rows rows' : List (List String)}
    (h : Granted s rows t) (h' : Granted t rows' t') : Granted s (rows ++ rows') t' where
  members := h'.members.trans h.members
  machines := h'.machines.trans h.machines
  nextId := h'.nextId.trans h.nextId
  sets := by
    intro u hu machineId
    have hu' : u ∈ t.db.members := h.members ▸ hu
    rw [h'.sets u hu', h.sets u hu, or_assoc]
    simp only [names_congr h.members h.machines, List.mem_append, or_and_right, exists_or]

theorem find_flId {s : Site cols} (hs : FlIdsUnique s) (flId : Int) :
    (∃ u ∈ s.db.members, u.flId = some flId ∧
      Writer.find (fun u => u.flId == some flId) s = .ok (some u) s) ∨
    ((∀ u ∈ s.db.members, u.flId ≠ some flId) ∧
      Writer.find (fun u => u.flId == some flId) s = .ok none s) := by
  have hunique : ∀ u ∈ s.db.members, ∀ v ∈ s.db.members,
      (u.flId == some flId) = true → (v.flId == some flId) = true → u = v := by
    intro u hu v hv hflId hflId'
    rw [beq_iff_eq] at hflId hflId'
    exact hs u hu v hv (by rw [hflId]; exact Option.some_ne_none flId)
      (hflId.trans hflId'.symm)
  rcases Table.get_cases_of_unique s.db.members_nodup hunique with
    ⟨u, hu, hflId, hget⟩ | ⟨hnone, hget⟩
  · exact .inl ⟨u, hu, beq_iff_eq.mp hflId, by rw [Writer.find, hget]⟩
  · exact .inr ⟨fun u hu hflId => hnone u hu (beq_iff_eq.mpr hflId), by rw [Writer.find, hget]⟩

theorem findMachine_name {s : Site cols} (hs : MachineNamesUnique s) (name : String) :
    (∃ mach ∈ s.db.machines, mach.name = name ∧
      Writer.findMachine name s = .ok (some mach) s) ∨
    ((∀ mach ∈ s.db.machines, mach.name ≠ name) ∧
      Writer.findMachine name s = .ok none s) := by
  have hunique : ∀ a ∈ s.db.machines, ∀ b ∈ s.db.machines,
      (a.name == name) = true → (b.name == name) = true → a = b := by
    intro a ha b hb hname hname'
    exact hs a ha b hb ((beq_iff_eq.mp hname).trans (beq_iff_eq.mp hname').symm)
  rcases Table.get_cases_of_unique (List.Nodup.of_map _ s.db.machineIds) hunique with
    ⟨mach, hmach, hname, hget⟩ | ⟨hnone, hget⟩
  · exact .inl ⟨mach, hmach, beq_iff_eq.mp hname, by rw [Writer.findMachine, hget]⟩
  · exact .inr ⟨fun mach hmach hname => hnone mach hmach (beq_iff_eq.mpr hname),
      by rw [Writer.findMachine, hget]⟩

variable {log : Int → Importer cols PUnit} (hlog : ∀ flId s, log flId s = .ok ⟨⟩ s)

include hlog

/-- A row gives one machine to one member, or it changes nothing. -/
theorem importRowLogging_cases {s : Site cols} (hflIds : FlIdsUnique s)
    (hnames : MachineNamesUnique s) {row : List String} (hrow : Readable row)
    (hshort : ¬ TooLong row) (count : Nat) :
    (∃ u mach hu hmach, u ∈ s.db.members ∧
      (∀ v mach', Names s row v mach' ↔ v = u ∧ mach' = mach) ∧
      importRowLogging log count row s = .ok (count + 1) (s.addMachine u mach hu hmach)) ∨
    ((∀ u mach, ¬ Names s row u mach) ∧ importRowLogging log count row s = .ok count s) := by
  rcases request_ok hrow hshort with hskip | ⟨flId, machineName, hasks⟩
  · exact .inr ⟨not_names_of_skip hskip, importRowLogging_skip hskip log count s⟩
  simp only [names_iff hasks]
  rw [importRowLogging, hasks]
  dsimp only
  rw [bind_ok (hlog flId s)]
  rcases find_flId hflIds flId with ⟨u, hu, hflId, hfind⟩ | ⟨hnone, hfind⟩
  · rw [bind_ok (orm_ok hfind)]
    dsimp only
    rcases findMachine_name hnames machineName with ⟨mach, hmach, hname, hget⟩ | ⟨hnone, hget⟩
    · rw [bind_ok (orm_ok hget)]
      dsimp only
      have huid := List.mem_map_of_mem (f := (·.id)) hu
      have hmachid := List.mem_map_of_mem (f := (·.id)) hmach
      have hsave : Writer.save u (s.addMachine u mach huid hmachid) = .ok ⟨⟩ _ :=
        Writer.save_self hu
      rw [bind_ok (orm_ok (Writer.addMachine_ok huid hmachid)), bind_ok (orm_ok hsave)]
      refine .inl ⟨u, mach, huid, hmachid, hu, ?_, rfl⟩
      intro v mach'
      constructor
      · rintro ⟨hv, hvflId, hmach', hname'⟩
        have hnumber : v.flId ≠ none := by
          rw [hvflId]
          exact Option.some_ne_none flId
        exact ⟨hflIds v hv u hu hnumber (hvflId.trans hflId.symm),
          hnames mach' hmach' mach hmach (hname'.trans hname.symm)⟩
      · rintro ⟨rfl, rfl⟩
        exact ⟨hu, hflId, hmach, hname⟩
    · rw [bind_ok (orm_ok hget)]
      refine .inr ⟨?_, rfl⟩
      rintro v mach ⟨_, _, hmach, hname⟩
      exact hnone mach hmach hname
  · rw [bind_ok (orm_ok hfind)]
    refine .inr ⟨?_, rfl⟩
    rintro v mach ⟨hv, hvflId, _⟩
    exact hnone v hv hvflId

/-- **One row.** -/
theorem granted_importRow {s : Site cols} (hflIds : FlIdsUnique s) (hnames : MachineNamesUnique s)
    {row : List String} (hrow : Readable row) (hshort : ¬ TooLong row) (count : Nat) :
    ∃ count' t, importRowLogging log count row s = .ok count' t ∧ Granted s [row] t := by
  rcases importRowLogging_cases hlog hflIds hnames hrow hshort count with
    ⟨u, mach, huid, hmachid, hu, hrownames, hok⟩ | ⟨hnone, hok⟩
  · refine ⟨_, _, hok, rfl, rfl, rfl, ?_⟩
    intro v hv machineId
    rw [Site.mem_machinesOf_addMachine huid hmachid]
    simp only [List.mem_singleton, exists_eq_left, hrownames]
    apply or_congr_right
    constructor
    · rintro ⟨hid, rfl⟩
      exact ⟨mach, ⟨Database.member_eq_of_id hv hu hid, rfl⟩, rfl⟩
    · rintro ⟨_, ⟨rfl, rfl⟩, rfl⟩
      exact ⟨rfl, rfl⟩
  · refine ⟨_, _, hok, granted_refl ?_⟩
    intro row' hrow' u _ mach hnames'
    rw [List.mem_singleton.mp hrow'] at hnames'
    exact absurd hnames' (hnone u mach)

/-- **A file.** -/
theorem granted_importMachines {rows : List (List String)} (hrows : ∀ row ∈ rows, Readable row)
    (hshort : ∀ row ∈ rows, ¬ TooLong row) :
    ∀ {s : Site cols}, FlIdsUnique s → MachineNamesUnique s → ∀ count,
      ∃ count' t, rows.foldlM (importRowLogging log) count s = .ok count' t ∧ Granted s rows t := by
  induction rows with
  | nil =>
    intro s _ _ count
    exact ⟨count, s, foldlM_nil .., granted_refl fun _ h => absurd h List.not_mem_nil⟩
  | cons row rows ih =>
    intro s hflIds hnames count
    rw [List.forall_mem_cons] at hrows hshort
    rcases granted_importRow hlog hflIds hnames hrows.1 hshort.1 count with ⟨count₁, s₁, hok, hgranted⟩
    have hflIds₁ := hgranted.flIdsUnique hflIds
    have hnames₁ := hgranted.machineNamesUnique hnames
    rcases ih hrows.2 hshort.2 hflIds₁ hnames₁ count₁ with ⟨count', t, hrest, hgranted'⟩
    exact ⟨count', t, (foldlM_cons_ok hok rows).trans hrest, hgranted.trans hgranted'⟩

/-- A file whose machines have all been given. -/
theorem importMachines_again {rows : List (List String)} (hrows : ∀ row ∈ rows, Readable row)
    (hshort : ∀ row ∈ rows, ¬ TooLong row) {t : Site cols} (hflIds : FlIdsUnique t) (hnames : MachineNamesUnique t)
    (hgiven : ∀ row ∈ rows, ∀ u mach, Names t row u mach →
      mach.id ∈ Site.machinesOf t.db u.id) :
    ∀ count, ∃ again, rows.foldlM (importRowLogging log) count t = .ok again t := by
  induction rows with
  | nil =>
    intro count
    exact ⟨count, foldlM_nil ..⟩
  | cons row rows ih =>
    intro count
    rw [List.forall_mem_cons] at hrows hshort hgiven
    have hturn : ∃ count', importRowLogging log count row t = .ok count' t := by
      rcases importRowLogging_cases hlog hflIds hnames hrows.1 hshort.1 count with
        ⟨u, mach, huid, hmachid, _, hrownames, hok⟩ | ⟨_, hok⟩
      · have hmem := hgiven.1 u mach ((hrownames u mach).mpr ⟨rfl, rfl⟩)
        rw [Site.addMachine_of_mem huid hmachid hmem] at hok
        exact ⟨_, hok⟩
      · exact ⟨_, hok⟩
    rcases hturn with ⟨count', hok⟩
    rcases ih hrows.2 hshort.2 hgiven.2 count' with ⟨again, hrest⟩
    exact ⟨again, (foldlM_cons_ok hok rows).trans hrest⟩

/-- **Without the log line** the import does what it is for with every file whose
    numbers `int` takes. -/
theorem imports_of_log {s : Site cols} (hflIds : FlIdsUnique s) (hnames : MachineNamesUnique s)
    {rows : List (List String)} (hrows : ∀ row ∈ rows, Readable row)
    (hshort : ∀ row ∈ rows, ¬ TooLong row) :
    Imports (importMachinesLogging log rows) s rows := by
  rcases granted_importMachines hlog hrows hshort hflIds hnames 0 with ⟨count, t, hrun, hgranted⟩
  have hflIds' := hgranted.flIdsUnique hflIds
  have hnames' := hgranted.machineNamesUnique hnames
  refine ⟨count, t, hrun, hgranted, importMachines_again hlog hrows hshort hflIds' hnames' ?_ 0⟩
  intro row hrow u mach hnamed
  have hnamed' := (names_congr hgranted.members hgranted.machines).mp hnamed
  have hu : u ∈ s.db.members := by
    rcases hnamed' with ⟨_, _, _, hu, _⟩
    exact hu
  exact (hgranted.sets u hu mach.id).mpr (.inr ⟨row, hrow, mach, hnamed', rfl⟩)

end Named

end UserMachines

end Acs.Backend
