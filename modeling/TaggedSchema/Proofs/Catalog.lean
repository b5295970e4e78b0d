import Mathlib.Data.List.Basic
import TaggedSchema.Catalog

/-!
# Looking up entries

In a sorted list each name has one entry, which looking up the name finds. Filing a list that is
sorted already leaves it as it is. Entries may be changed where they stand if they keep their names.
-/

namespace TaggedSchema.Catalog

variable {α : Type} {name : α → String}

theorem findEntry_of_mem {entries : List α} (hsorted : Sorted name entries) {entry : α}
    (hentry : entry ∈ entries) : findEntry name (name entry) entries = some entry := by
  induction entries with
  | nil => cases hentry
  | cons head rest ih =>
    obtain ⟨hhead, hrest⟩ := List.pairwise_cons.mp hsorted
    rw [findEntry, List.find?_cons]
    rcases List.mem_cons.mp hentry with rfl | hentry
    · rw [beq_self_eq_true]
    · have hne : name head ≠ name entry := fun h => String.lt_irrefl _ (h ▸ hhead entry hentry)
      rw [beq_eq_false_iff_ne.mpr hne]
      exact ih hrest hentry

theorem name_of_findEntry {entries : List α} {wanted : String} {entry : α}
    (h : findEntry name wanted entries = some entry) : name entry = wanted := by
  have hfound := List.find?_some h
  exact eq_of_beq hfound

theorem mem_of_get? {catalog : Catalog α name} {wanted : String} {entry : α}
    (h : catalog.get? wanted = some entry) : entry ∈ catalog.entries :=
  List.mem_of_find?_eq_some h

theorem mem_ofEntries {entry : α} {entries : List α} (h : entry ∈ ofEntries name entries) :
    entry ∈ entries := by
  -- The entries filed so far grow, so the fold is taken from any of them.
  suffices hfold : ∀ done,
      entry ∈ entries.foldl (fun done entry => insertEntry name entry done) done →
        entry ∈ done ∨ entry ∈ entries from
    (hfold [] h).resolve_left List.not_mem_nil
  clear h
  induction entries with
  | nil => exact fun done h => .inl h
  | cons head rest ih =>
    intro done h
    rcases ih _ h with h | h
    · rcases mem_insertEntry name h with rfl | h
      · exact .inr List.mem_cons_self
      · exact .inl h
    · exact .inr (List.mem_cons_of_mem _ h)

/-- An entry whose name comes after all others is put at the end. -/
theorem insertEntry_of_last {entries : List α} {entry : α}
    (h : ∀ other ∈ entries, name other < name entry) :
    insertEntry name entry entries = entries ++ [entry] := by
  induction entries with
  | nil => rfl
  | cons head rest ih =>
    obtain ⟨hhead, hrest⟩ := List.forall_mem_cons.mp h
    rw [insertEntry, if_neg (String.lt_asymm hhead), if_pos hhead, ih hrest]
    rfl

/-- An entry takes the place of the one that has its name. -/
theorem insertEntry_of_mem {entries : List α} (hsorted : Sorted name entries) {entry old : α}
    (hold : old ∈ entries) (hname : name old = name entry) :
    insertEntry name entry entries =
      entries.map fun other => if name other = name entry then entry else other := by
  induction entries with
  | nil => cases hold
  | cons head rest ih =>
    obtain ⟨hhead, hrest⟩ := List.pairwise_cons.mp hsorted
    rw [insertEntry, List.map_cons]
    rcases List.mem_cons.mp hold with rfl | hold
    · have hother (other : α) (hother : other ∈ rest) :
          (if name other = name entry then entry else other) = other :=
        if_neg fun hsame => String.lt_irrefl _ (hname ▸ hsame ▸ hhead other hother)
      rw [hname, if_neg (String.lt_irrefl _), if_neg (String.lt_irrefl _), if_pos rfl,
        List.map_congr_left hother, List.map_id']
    · have hlt : name head < name entry := hname ▸ hhead old hold
      have hne : name head ≠ name entry := fun hsame => String.lt_irrefl _ (hsame ▸ hlt)
      rw [if_neg (String.lt_asymm hlt), if_pos hlt, if_neg hne, ih hrest hold]

theorem findEntry_map {entries : List α} {change : α → α}
    (hname : ∀ entry, name (change entry) = name entry)
    (wanted : String) :
    findEntry name wanted (entries.map change) = (findEntry name wanted entries).map change := by
  rw [findEntry, findEntry, List.find?_map]
  simp only [Function.comp_def, hname]

/-- Change the entries, but not their names. -/
def mapEntries (catalog : Catalog α name) (change : α → α)
    (hname : ∀ entry, name (change entry) = name entry) : Catalog α name where
  entries := catalog.entries.map change
  sorted := by
    rw [Sorted, List.pairwise_map]
    simp only [hname]
    exact catalog.sorted

theorem get?_mapEntries (catalog : Catalog α name) {change : α → α}
    (hname : ∀ entry, name (change entry) = name entry) (wanted : String) :
    (catalog.mapEntries change hname).get? wanted = (catalog.get? wanted).map change :=
  findEntry_map hname wanted

/-- An entry of a new name is added to the others. -/
theorem insertEntry_perm {entries : List α} {entry : α}
    (h : ∀ other ∈ entries, name other ≠ name entry) :
    (insertEntry name entry entries).Perm (entry :: entries) := by
  induction entries with
  | nil => exact .refl _
  | cons head rest ih =>
    obtain ⟨hhead, hrest⟩ := List.forall_mem_cons.mp h
    rw [insertEntry]
    split
    next => exact .refl _
    next hnot =>
      split
      next => exact ((ih hrest).cons head).trans (.swap entry head rest)
      next hnot' =>
        exact absurd (String.le_antisymm (String.not_lt.mp hnot) (String.not_lt.mp hnot')) hhead

/-- Filing entries of different names only changes their order. -/
theorem ofEntries_perm {entries : List α} (h : (entries.map name).Nodup) :
    (ofEntries name entries).Perm entries := by
  suffices hfold : ∀ done, ((done ++ entries).map name).Nodup →
      (entries.foldl (fun done entry => insertEntry name entry done) done).Perm
        (done ++ entries) from
    hfold [] h
  clear h
  induction entries with
  | nil => exact fun done _ => .of_eq (List.append_nil done).symm
  | cons entry rest ih =>
    intro done hdone
    have hperm : (insertEntry name entry done).Perm (done ++ [entry]) := by
      refine (insertEntry_perm fun other hother => ?_).trans
        (List.perm_append_singleton entry done).symm
      rw [List.map_append, List.nodup_append] at hdone
      exact hdone.2.2 _ (List.mem_map_of_mem hother) _ (List.mem_map_of_mem List.mem_cons_self)
    have hall := hperm.append_right rest
    rw [← List.append_cons] at hall
    exact (ih _ ((hall.map name).nodup_iff.mpr hdone)).trans hall

theorem ofEntries_of_sorted {entries : List α} (h : Sorted name entries) :
    ofEntries name entries = entries := by
  suffices hfold : ∀ done, Sorted name (done ++ entries) →
      entries.foldl (fun done entry => insertEntry name entry done) done = done ++ entries from
    hfold [] h
  induction entries with
  | nil => exact fun done _ => (List.append_nil done).symm
  | cons entry rest ih =>
    intro done hdone
    have hlast (other : α) (hother : other ∈ done) : name other < name entry :=
      (List.pairwise_append.mp hdone).2.2 other hother entry List.mem_cons_self
    rw [List.append_cons] at hdone
    rw [List.foldl_cons, insertEntry_of_last hlast, List.append_cons done entry rest]
    exact ih (List.pairwise_cons.mp h).2 _ hdone

end TaggedSchema.Catalog
