/-!
# Catalogs: one entry per name, in name order

A catalog holds definitions under their names. Adding an entry replaces the one of the same name,
and listing it yields the names in increasing order, so two catalogs with the same entries are
equal. The operations on lists are also used for the members of a JSON object.
-/

namespace TaggedSchema

namespace Catalog

variable {α : Type} (name : α → String)

/-- The entries stand in strictly increasing name order, so no name occurs twice. -/
def Sorted (entries : List α) : Prop :=
  entries.Pairwise fun a b => name a < name b

/-- Put `entry` at its place, instead of an entry of the same name if there is one. -/
def insertEntry (entry : α) : List α → List α
  | [] => [entry]
  | head :: rest =>
    if name entry < name head then entry :: head :: rest
    else if name head < name entry then head :: insertEntry entry rest
    else entry :: rest

/-- The first entry called `wanted`. -/
def findEntry (wanted : String) (entries : List α) : Option α :=
  entries.find? fun entry => name entry == wanted

/-- Insert one entry after the other, so that a later one replaces an earlier one. -/
def ofEntries (entries : List α) : List α :=
  entries.foldl (fun done entry => insertEntry name entry done) []

theorem mem_insertEntry {entry other : α} {entries : List α}
    (h : other ∈ insertEntry name entry entries) : other = entry ∨ other ∈ entries := by
  induction entries with
  | nil => simpa [insertEntry] using h
  | cons head rest ih =>
    rw [insertEntry] at h
    split at h
    · simpa using h
    · split at h
      · rcases List.mem_cons.mp h with rfl | h
        · simp
        · rcases ih h with h | h <;> simp [h]
      · rcases List.mem_cons.mp h with rfl | h <;> simp [*]

theorem sorted_insertEntry (entry : α) {entries : List α} (h : Sorted name entries) :
    Sorted name (insertEntry name entry entries) := by
  induction entries with
  | nil => simp [insertEntry, Sorted]
  | cons head rest ih =>
    obtain ⟨hhead, hrest⟩ := List.pairwise_cons.mp h
    rw [insertEntry]
    split
    next hlt =>
      refine List.pairwise_cons.mpr ⟨?_, h⟩
      intro other hother
      rcases List.mem_cons.mp hother with rfl | hother
      · exact hlt
      · exact String.lt_trans hlt (hhead other hother)
    next hnot =>
      split
      next hlt =>
        refine List.pairwise_cons.mpr ⟨?_, ih hrest⟩
        intro other hother
        rcases mem_insertEntry name hother with rfl | hother
        · exact hlt
        · exact hhead other hother
      next hnot' =>
        have hsame : name entry = name head :=
          String.le_antisymm (String.not_lt.mp hnot') (String.not_lt.mp hnot)
        refine List.pairwise_cons.mpr ⟨?_, hrest⟩
        intro other hother
        rw [hsame]
        exact hhead other hother

theorem sorted_ofEntries (entries : List α) : Sorted name (ofEntries name entries) := by
  suffices h : ∀ done, Sorted name done →
      Sorted name (entries.foldl (fun done entry => insertEntry name entry done) done) from
    h [] List.Pairwise.nil
  induction entries with
  | nil => exact fun _ h => h
  | cons entry rest ih => exact fun done h => ih _ (sorted_insertEntry name entry h)

end Catalog

/-- Entries filed under the names that `name` gives them. -/
structure Catalog (α : Type) (name : α → String) where
  entries : List α
  sorted : Catalog.Sorted name entries

namespace Catalog

variable {α : Type} {name : α → String}

def empty : Catalog α name := ⟨[], List.Pairwise.nil⟩

instance : Inhabited (Catalog α name) := ⟨empty⟩

/-- Later entries replace earlier ones of the same name. -/
def ofList (entries : List α) : Catalog α name :=
  ⟨ofEntries name entries, sorted_ofEntries name entries⟩

def insert (catalog : Catalog α name) (entry : α) : Catalog α name :=
  ⟨insertEntry name entry catalog.entries, sorted_insertEntry name entry catalog.sorted⟩

def get? (catalog : Catalog α name) (wanted : String) : Option α :=
  findEntry name wanted catalog.entries

def contains (catalog : Catalog α name) (wanted : String) : Bool :=
  (catalog.get? wanted).isSome

def names (catalog : Catalog α name) : List String :=
  catalog.entries.map name

def size (catalog : Catalog α name) : Nat :=
  catalog.entries.length

end Catalog

end TaggedSchema
