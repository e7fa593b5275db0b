import RoLauncher.Tables.Table

/-!
# Views of tables

A table seen through a function of each entry: what is left in view is changed by
the changes of the table as the table is.
-/

namespace RoLauncher.Tables.Table

variable {κ α β γ : Type}

/-- Each entry's value becomes what the function makes of the entry. -/
def view (f : κ → α → β) (table : Table κ α) : Table κ β :=
  ⟨table.entries.map fun entry => ⟨entry.1, f entry.1 entry.2⟩, by
    have keys : (table.entries.map fun entry => (⟨entry.1, f entry.1 entry.2⟩ : (_ : κ) × β)).keys =
        table.entries.keys := by
      simp [List.keys]
    rw [List.NodupKeys, keys]
    exact table.nodupKeys⟩

variable {f : κ → α → β}

@[simp] theorem view_empty : view f (∅ : Table κ α) = ∅ := rfl

@[simp] theorem entries_view (table : Table κ α) :
    (view f table).entries = table.entries.map fun entry => ⟨entry.1, f entry.1 entry.2⟩ := rfl

/-- A view of a view. -/
@[simp] theorem view_view (g : κ → β → γ) (table : Table κ α) :
    view g (view f table) = view (fun k v => g k (f k v)) table := by
  apply AList.ext
  simp

variable [DecidableEq κ]

@[simp] theorem lookup_view (table : Table κ α) (k : κ) :
    (view f table).lookup k = (table.lookup k).map (f k) := by
  obtain ⟨entries, distinct⟩ := table
  change (entries.map fun entry => (⟨entry.1, f entry.1 entry.2⟩ : (_ : κ) × β)).dlookup k =
    (entries.dlookup k).map (f k)
  clear distinct
  induction entries with
  | nil => rfl
  | cons entry entries ih =>
    obtain ⟨k', v⟩ := entry
    rw [List.map_cons]
    by_cases same : k = k'
    · subst same
      rw [List.dlookup_cons_eq, List.dlookup_cons_eq, Option.map_some]
    · rw [List.dlookup_cons_ne _ _ same, List.dlookup_cons_ne _ _ same, ih]

private theorem map_kerase (f : κ → α → β) (k : κ) (entries : List ((_ : κ) × α)) :
    ((entries.kerase k).map fun entry => (⟨entry.1, f entry.1 entry.2⟩ : (_ : κ) × β)) =
      (entries.map fun entry => (⟨entry.1, f entry.1 entry.2⟩ : (_ : κ) × β)).kerase k := by
  induction entries with
  | nil => rfl
  | cons entry entries ih =>
    rw [List.map_cons]
    by_cases same : k = entry.1
    · rw [List.kerase_cons_eq same, List.kerase_cons_eq (by exact same)]
    · rw [List.kerase_cons_ne same, List.kerase_cons_ne (by exact same), List.map_cons, ih]

@[simp] theorem view_insert (table : Table κ α) (k : κ) (v : α) :
    view f (table.insert k v) = (view f table).insert k (f k v) := by
  apply AList.ext
  change ((⟨k, v⟩ :: table.entries.kerase k).map fun entry => (⟨entry.1, f entry.1 entry.2⟩ : (_ : κ) × β)) =
    ⟨k, f k v⟩ :: (table.entries.map fun entry => (⟨entry.1, f entry.1 entry.2⟩ : (_ : κ) × β)).kerase k
  rw [List.map_cons, map_kerase]

@[simp] theorem view_erase (table : Table κ α) (k : κ) :
    view f (table.erase k) = (view f table).erase k :=
  AList.ext (map_kerase f k table.entries)

theorem view_congr {f g : κ → α → β} {table : Table κ α}
    (same : ∀ k v, table.lookup k = some v → f k v = g k v) : view f table = view g table := by
  apply AList.ext
  rw [entries_view, entries_view]
  refine List.map_congr_left fun entry mem => ?_
  rw [same entry.1 entry.2 (AList.mem_lookup_iff.mpr mem)]

end RoLauncher.Tables.Table
