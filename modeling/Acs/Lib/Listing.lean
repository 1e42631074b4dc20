/-
  Acs/Lib/Listing.lean
  ====================
  **A table of the last reports, and its entries listed in one text.**

  Reports about keys come in one after another, and a map keeps the last one
  about each key (`store`, against `latest`).  The entries that have a label are
  then listed in the order of their keys, with a separator between the labels.

  The loop that builds the text (`joined`) puts the separator in front of a
  label when the text so far is not empty.  That is a separated list
  (`Lists`) unless the first label is empty and another one follows:
  `lists_listed_iff`.
-/
import Acs.Lib.Run
import Mathlib.Data.List.Induction
import Mathlib.Data.List.Nodup
import Mathlib.Data.List.Perm.Basic
import Std.Data.TreeMap.Lemmas

namespace Listing

universe u v w x

/-! ### The last report about a key -/

section Latest

variable {ι : Type u} {κ : Type v} {β : Type w} [DecidableEq κ]

/-- What the last of the inputs that reports about `k` says. -/
def latest (report : ι → Option (κ × β)) (is : List ι) (k : κ) : Option β :=
  ((is.filterMap report).filter fun r => r.1 = k).getLast?.map (·.2)

variable {report : ι → Option (κ × β)}

@[simp] theorem latest_nil (k : κ) : latest report [] k = none := rfl

theorem latest_snoc (is : List ι) (i : ι) (k : κ) :
    latest report (is ++ [i]) k =
      match report i with
      | none => latest report is k
      | some (key, value) => if key = k then some value else latest report is k := by
  rw [latest, List.filterMap_append, List.filter_append]
  cases hi : report i with
  | none => simp [latest, hi]
  | some r =>
    obtain ⟨key, value⟩ := r
    by_cases hk : key = k
    · simp [hi, hk]
    · simp [latest, hi, hk]

theorem exists_of_latest {is : List ι} {k : κ} {value : β} (h : latest report is k = some value) :
    ∃ i ∈ is, report i = some (k, value) := by
  obtain ⟨r, hr, rfl⟩ := Option.map_eq_some_iff.mp h
  obtain ⟨hmem, hkey⟩ := List.mem_filter.mp (List.mem_of_getLast? hr)
  obtain ⟨i, hi, hreport⟩ := List.mem_filterMap.mp hmem
  have hk : r.1 = k := of_decide_eq_true hkey
  exact ⟨i, hi, by rw [hreport, ← hk]⟩

theorem latest_isSome {is : List ι} {i : ι} (hi : i ∈ is) {k : κ} {value : β}
    (h : report i = some (k, value)) : (latest report is k).isSome := by
  have hmem : (k, value) ∈ (is.filterMap report).filter fun r => r.1 = k := by
    rw [List.mem_filter, List.mem_filterMap]
    exact ⟨⟨i, hi, h⟩, decide_eq_true rfl⟩
  rw [latest, Option.isSome_map, List.getLast?_isSome]
  exact List.ne_nil_of_mem hmem

variable [Ord κ]

/-- A report, if there is one, replaces the entry of its key. -/
def store (m : Std.TreeMap κ β) : Option (κ × β) → Std.TreeMap κ β
  | none => m
  | some (key, value) => m.insert key value

/-- **A map that each step fills with a report** holds the last report about
    every key at the end of a run, and what it held before where there is none. -/
theorem getElem?_exec_store [Std.TransOrd κ] [Std.LawfulEqOrd κ] {σ : Type x}
    (step : σ → ι → σ) (field : σ → Std.TreeMap κ β)
    (hstep : ∀ s i, field (step s i) = store (field s) (report i)) (s : σ) (is : List ι) (k : κ) :
    (field (Runs.exec step s is))[k]? = (latest report is k).or (field s)[k]? := by
  induction is using List.reverseRec with
  | nil => rfl
  | append_singleton is i ih =>
    rw [Runs.exec_snoc, hstep, latest_snoc]
    cases report i with
    | none => exact ih
    | some r =>
      obtain ⟨key, value⟩ := r
      simp only [store, Std.TreeMap.getElem?_insert, Std.compare_eq_iff_eq]
      by_cases hk : key = k
      · rw [if_pos hk, if_pos hk, Option.some_or]
      · rw [if_neg hk, if_neg hk]
        exact ih

theorem getElem?_foldl_store [Std.TransOrd κ] [Std.LawfulEqOrd κ] (m : Std.TreeMap κ β)
    (is : List ι) (k : κ) :
    (is.foldl (fun m i => store m (report i)) m)[k]? = (latest report is k).or m[k]? := by
  rw [← Runs.exec_eq_foldl]
  exact getElem?_exec_store (fun m i => store m (report i)) id (fun _ _ => rfl) m is k

end Latest

/-! ### Joining labels -/

section Joined

variable {α : Type u} {sep : List α} {labels : List (List α)}

/-- A label put at the end of a text, after a separator unless the text is empty. -/
def append (sep s label : List α) : List α := (if s.isEmpty then s else s ++ sep) ++ label

def joined (sep : List α) (labels : List (List α)) : List α := labels.foldl (append sep) []

theorem foldl_append_of_ne_nil {s : List α} (hs : s ≠ []) :
    labels.foldl (append sep) s = sep.intercalate (s :: labels) := by
  induction labels generalizing s with
  | nil => simp
  | cons label labels ih =>
    have happend : append sep s label = s ++ sep ++ label := by
      rw [append, if_neg (by simpa using hs)]
    have hne : s ++ sep ++ label ≠ [] := by
      simp [hs]
    rw [List.foldl_cons, happend, ih hne, List.intercalate_cons_cons]
    cases labels with
    | nil => simp
    | cons next labels => simp [List.intercalate_cons_cons]

theorem joined_cons (label : List α) (labels : List (List α)) :
    joined sep (label :: labels) = labels.foldl (append sep) label := by
  rw [joined, List.foldl_cons]
  congr 1

/-- The loop loses a separator exactly after an empty label, here the first. -/
theorem joined_cons_eq_intercalate_iff (first : List α) (hsep : sep ≠ [])
    (hrest : ∀ label ∈ labels, label ≠ []) :
    joined sep (first :: labels) = sep.intercalate (first :: labels) ↔
      ¬ (first = [] ∧ labels ≠ []) := by
  by_cases hfirst : first = []
  · subst hfirst
    match labels with
    | [] => simp [joined, append]
    | next :: labels =>
      have hnext : next ≠ [] := hrest next List.mem_cons_self
      have hlost : joined sep ([] :: next :: labels) = sep.intercalate (next :: labels) := by
        rw [joined_cons, List.foldl_cons]
        exact foldl_append_of_ne_nil hnext
      rw [hlost, List.intercalate_cons_cons]
      simp [hsep]
  · rw [joined_cons, foldl_append_of_ne_nil hfirst]
    simp [hfirst]

/-- What has been written stays, and every label that follows is written. -/
theorem infix_foldl_append (labels : List (List α)) (s : List α) :
    s <+: labels.foldl (append sep) s ∧
      ∀ label ∈ labels, label <:+: labels.foldl (append sep) s := by
  induction labels generalizing s with
  | nil => exact ⟨List.prefix_refl s, fun label h => absurd h List.not_mem_nil⟩
  | cons first labels ih =>
    obtain ⟨hpre, hrest⟩ := ih (append sep s first)
    have hs : s <+: append sep s first := by
      rw [append]
      split
      · exact List.prefix_append _ _
      · rw [List.append_assoc]
        exact List.prefix_append _ _
    have hfirst : first <:+ append sep s first := List.suffix_append _ _
    rw [List.foldl_cons]
    refine ⟨hs.trans hpre, ?_⟩
    intro label hlabel
    rcases List.mem_cons.mp hlabel with rfl | hlabel
    · exact hfirst.isInfix.trans hpre.isInfix
    · exact hrest label hlabel

theorem infix_joined {label : List α} (h : label ∈ labels) : label <:+: joined sep labels :=
  (infix_foldl_append labels []).2 label h

/-- There is nothing in the text but labels and separators. -/
theorem mem_joined {a : α} (h : a ∈ joined sep labels) : a ∈ sep ∨ ∃ label ∈ labels, a ∈ label := by
  have hfold : ∀ (labels : List (List α)) (s : List α), a ∈ labels.foldl (append sep) s →
      a ∈ s ∨ a ∈ sep ∨ ∃ label ∈ labels, a ∈ label := by
    intro labels
    induction labels with
    | nil => exact fun s hs => .inl hs
    | cons first labels ih =>
      intro s hs
      rcases ih _ hs with hs | hs | ⟨label, hlabel, hs⟩
      · rw [append, List.mem_append] at hs
        rcases hs with hs | hs
        · split at hs
          · exact .inl hs
          · rcases List.mem_append.mp hs with hs | hs
            · exact .inl hs
            · exact .inr (.inl hs)
        · exact .inr (.inr ⟨first, List.mem_cons_self, hs⟩)
      · exact .inr (.inl hs)
      · exact .inr (.inr ⟨label, List.mem_cons_of_mem _ hlabel, hs⟩)
  rcases hfold labels [] h with h | h
  · exact absurd h List.not_mem_nil
  · exact h

end Joined

/-! ### Listing a map -/

section Listed

variable {κ : Type u} {β : Type v} {α : Type w} [Ord κ]

/-- `text` lists the keys that have a label, in ascending order. -/
def Lists (sep : List α) (label : κ → Option (List α)) (text : List α) : Prop :=
  ∃ keys : List κ, keys.Pairwise (compare · · = .lt) ∧ (∀ k, k ∈ keys ↔ (label k).isSome) ∧
    text = sep.intercalate (keys.filterMap label)

theorem eq_of_pairwise_lt [Std.TransOrd κ] {keys keys' : List κ}
    (h : keys.Pairwise (compare · · = .lt)) (h' : keys'.Pairwise (compare · · = .lt))
    (hmem : ∀ k, k ∈ keys ↔ k ∈ keys') : keys = keys' := by
  have hne : ∀ {a b : κ}, compare a b = .lt → a ≠ b := by
    rintro a _ hlt rfl
    simp at hlt
  have hperm : keys.Perm keys' := (List.perm_ext_iff_of_nodup (h.imp hne) (h'.imp hne)).mpr hmem
  apply List.Perm.eq_of_pairwise _ h h' hperm
  intro a b _ _ hab hba
  exact absurd rfl (hne (Std.TransCmp.lt_trans hab hba))

variable (entryLabel : κ → β → Option (List α))

/-- The labels of the entries, in the order of the keys. -/
def labels (m : Std.TreeMap κ β) : List (List α) :=
  m.toList.filterMap fun entry => entryLabel entry.1 entry.2

/-- The loop over the entries of a map. -/
def listed (sep : List α) (m : Std.TreeMap κ β) : List α :=
  m.foldl (fun s k v => match entryLabel k v with
    | none => s
    | some label => append sep s label) []

theorem listed_eq_joined (sep : List α) (m : Std.TreeMap κ β) :
    listed entryLabel sep m = joined sep (labels entryLabel m) := by
  rw [listed, Std.TreeMap.foldl_eq_foldl_toList, joined, labels, List.foldl_filterMap]
  congr 1
  funext s entry
  cases entryLabel entry.1 entry.2 <;> rfl

variable [Std.TransOrd κ] [Std.LawfulEqOrd κ]

/-- The keys of a map whose entries have a label: they are sorted, and their
    labels are those of the map. -/
theorem exists_keys (m : Std.TreeMap κ β) :
    ∃ keys : List κ, keys.Pairwise (compare · · = .lt) ∧
      (∀ k, k ∈ keys ↔ (m[k]?.bind (entryLabel k)).isSome) ∧
      keys.filterMap (fun k => m[k]?.bind (entryLabel k)) = labels entryLabel m := by
  let shown := m.toList.filter fun entry => (entryLabel entry.1 entry.2).isSome
  have hget : ∀ entry ∈ shown, m[entry.1]? = some entry.2 := by
    intro entry hentry
    exact Std.TreeMap.mem_toList_iff_getElem?_eq_some.mp (List.mem_of_mem_filter hentry)
  refine ⟨shown.map (·.1), ?_, ?_, ?_⟩
  · rw [List.pairwise_map]
    exact Std.TreeMap.ordered_keys_toList.sublist List.filter_sublist
  · intro k
    constructor
    · intro hk
      obtain ⟨entry, hentry, rfl⟩ := List.mem_map.mp hk
      rw [hget entry hentry, Option.bind_some]
      exact (List.mem_filter.mp hentry).2
    · intro hk
      obtain ⟨label, hlabel⟩ := Option.isSome_iff_exists.mp hk
      obtain ⟨value, hvalue, hshown⟩ := Option.bind_eq_some_iff.mp hlabel
      refine List.mem_map.mpr ⟨(k, value), List.mem_filter.mpr ⟨?_, ?_⟩, rfl⟩
      · exact Std.TreeMap.mem_toList_iff_getElem?_eq_some.mpr hvalue
      · simp [hshown]
  · rw [List.filterMap_map, List.filterMap_filter, labels]
    apply List.filterMap_congr
    intro entry hentry
    have hvalue := Std.TreeMap.mem_toList_iff_getElem?_eq_some.mp hentry
    rw [Function.comp_apply, hvalue, Option.bind_some]
    cases entryLabel entry.1 entry.2 <;> rfl

variable {entryLabel}

/-- The label of an entry is among those of the map. -/
theorem mem_labels {m : Std.TreeMap κ β} {label : List α} :
    label ∈ labels entryLabel m ↔ ∃ k v, m[k]? = some v ∧ entryLabel k v = some label := by
  rw [labels, List.mem_filterMap]
  constructor
  · rintro ⟨⟨k, v⟩, hmem, hlabel⟩
    exact ⟨k, v, Std.TreeMap.mem_toList_iff_getElem?_eq_some.mp hmem, hlabel⟩
  · rintro ⟨k, v, hmem, hlabel⟩
    exact ⟨(k, v), Std.TreeMap.mem_toList_iff_getElem?_eq_some.mpr hmem, hlabel⟩

/-- What a listing shows is the labels of the keys, whatever the text is. -/
theorem lists_iff (m : Std.TreeMap κ β) (sep text : List α) :
    Lists sep (fun k => m[k]?.bind (entryLabel k)) text ↔
      text = sep.intercalate (labels entryLabel m) := by
  obtain ⟨keys, hsorted, hmem, hlabels⟩ := exists_keys entryLabel m
  constructor
  · rintro ⟨keys', hsorted', hmem', rfl⟩
    have hkeys : keys' = keys := by
      apply eq_of_pairwise_lt hsorted' hsorted
      intro k
      rw [hmem', hmem]
    rw [hkeys, hlabels]
  · rintro rfl
    exact ⟨keys, hsorted, hmem, by rw [hlabels]⟩

theorem least_notMem_tail {k k₀ : κ} {keys : List κ}
    (hsorted : (k :: keys).Pairwise (compare · · = .lt))
    (hleast : ∀ k, k ≠ k₀ → compare k₀ k = .lt) : k₀ ∉ keys := by
  intro hmem
  have hlt : compare k k₀ = .lt := (List.pairwise_cons.mp hsorted).1 k₀ hmem
  by_cases hk : k = k₀
  · rw [hk] at hlt
    simp at hlt
  · have hcycle := Std.TransCmp.lt_trans hlt (hleast k hk)
    simp at hcycle

/-- **The loop lists the entries**, unless the least key `k₀`, the only one that
    can have an empty label, has it next to another key with a label. -/
theorem lists_listed_iff (m : Std.TreeMap κ β) {sep : List α} (hsep : sep ≠ []) {k₀ : κ}
    (hleast : ∀ k, k ≠ k₀ → compare k₀ k = .lt)
    (hempty : ∀ k value, entryLabel k value = some [] → k = k₀) :
    Lists sep (fun k => m[k]?.bind (entryLabel k)) (listed entryLabel sep m) ↔
      ¬ (m[k₀]?.bind (entryLabel k₀) = some [] ∧
        ∃ k, k ≠ k₀ ∧ (m[k]?.bind (entryLabel k)).isSome) := by
  obtain ⟨keys, hsorted, hmem, hlabels⟩ := exists_keys entryLabel m
  rw [lists_iff, listed_eq_joined, ← hlabels]
  have hnameless : ∀ k, m[k]?.bind (entryLabel k) = some [] → k = k₀ := by
    intro k hk
    obtain ⟨value, _, hvalue⟩ := Option.bind_eq_some_iff.mp hk
    exact hempty k value hvalue
  generalize hlabel : (fun k => m[k]?.bind (entryLabel k)) = label at *
  have hat : ∀ k, m[k]?.bind (entryLabel k) = label k := fun k => congrFun hlabel k
  simp only [hat] at hmem hnameless ⊢
  match keys, hsorted, hmem with
  | [], _, hmem =>
    have hnone : ∀ k, ¬ (label k).isSome := fun k hk => List.not_mem_nil ((hmem k).mpr hk)
    constructor
    · rintro _ ⟨_, k, _, hk⟩
      exact hnone k hk
    · intro _
      rfl
  | k :: keys, hsorted, hmem =>
    have hrest : k₀ ∉ keys := least_notMem_tail hsorted hleast
    obtain ⟨first, hfirst⟩ := Option.isSome_iff_exists.mp ((hmem k).mp List.mem_cons_self)
    have htail : ∀ text ∈ keys.filterMap label, text ≠ [] := by
      rintro _ htext rfl
      obtain ⟨k', hk', heq⟩ := List.mem_filterMap.mp htext
      exact hrest (hnameless k' heq ▸ hk')
    rw [List.filterMap_cons_some hfirst, joined_cons_eq_intercalate_iff first hsep htail, not_iff_not]
    constructor
    · rintro ⟨rfl, hmore⟩
      obtain rfl := hnameless k hfirst
      obtain ⟨text, htext⟩ := List.exists_mem_of_ne_nil _ hmore
      obtain ⟨k', hk', heq⟩ := List.mem_filterMap.mp htext
      refine ⟨hfirst, k', ?_, by rw [heq, Option.isSome_some]⟩
      rintro rfl
      exact hrest hk'
    · rintro ⟨hnone, k', hne, hk'⟩
      have hin : k₀ ∈ k :: keys := (hmem k₀).mpr (by rw [hnone, Option.isSome_some])
      obtain rfl : k₀ = k := (List.mem_cons.mp hin).resolve_right hrest
      obtain ⟨text, htext⟩ := Option.isSome_iff_exists.mp hk'
      have hk'in : k' ∈ keys := (List.mem_cons.mp ((hmem k').mpr hk')).resolve_left hne
      refine ⟨Option.some.inj (hfirst.symm.trans hnone), ?_⟩
      exact List.ne_nil_of_mem (List.mem_filterMap.mpr ⟨k', hk'in, htext⟩)

end Listed

end Listing
