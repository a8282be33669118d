/-!
# Name tables

A table binds names to values. Its entries are sorted by name and no name occurs twice, so two
tables with the same bindings are equal.

Main facts: `Table.find?_insert` and `Table.find?_insert_ne` say what an insertion does to the
bindings, `Table.mem_names_insert` what it does to the names, and `Table.pairwise_names_insert` that
it keeps them sorted. `Table.ofEntries_eq_self_iff` says which entries are a table already.
-/

namespace SearchScript

/-- Names with their values, sorted by name. -/
abbrev Table (α : Type) := List (String × α)

namespace Table

variable {α : Type}

/-- Binds a name, in place of its former value if it had one. -/
@[grind =] def insert (name : String) (value : α) : Table α → Table α
  | [] => [(name, value)]
  | (other, old) :: rest =>
    if name = other then (name, value) :: rest
    else if name < other then (name, value) :: (other, old) :: rest
    else (other, old) :: insert name value rest

/-- The value of a name. -/
@[grind =] def find? (name : String) : Table α → Option α
  | [] => none
  | (other, value) :: rest => if name = other then some value else find? name rest

/-- Unbinds a name. -/
def erase (name : String) (table : Table α) : Table α := table.filter fun entry => entry.1 ≠ name

/-- The names in order. -/
def names (table : Table α) : List String := table.map (·.1)

/-- The table of some entries, where the last of several with one name counts. -/
def ofEntries (entries : List (String × α)) : Table α :=
  entries.foldl (fun table (name, value) => insert name value table) []

@[simp] theorem find?_insert (name : String) (value : α) (table : Table α) :
    (insert name value table).find? name = some value := by
  induction table with
  | nil => simp [insert, find?]
  | cons entry rest ih =>
    obtain ⟨other, old⟩ := entry
    unfold insert
    split
    · simp [find?]
    · split
      · simp [find?]
      · simp [find?, *]

theorem find?_insert_ne {name other : String} (h : other ≠ name) (value : α) (table : Table α) :
    (insert name value table).find? other = table.find? other := by
  induction table with
  | nil => simp [insert, find?, h]
  | cons entry rest ih =>
    obtain ⟨key, old⟩ := entry
    unfold insert
    split
    · subst_vars
      simp [find?, h]
    · split
      · simp [find?, h]
      · simp only [find?, ih]

/-- An insertion adds nothing but its own entry. -/
theorem mem_of_mem_insert {name : String} {value : α} {table : Table α} {entry : String × α}
    (h : entry ∈ insert name value table) : entry = (name, value) ∨ entry ∈ table := by
  induction table with
  | nil => simpa [insert] using h
  | cons first rest ih =>
    obtain ⟨other, old⟩ := first
    unfold insert at h
    split at h
    · grind
    · split at h <;> grind

theorem mem_of_find? {name : String} {value : α} {table : Table α}
    (h : table.find? name = some value) : (name, value) ∈ table := by
  induction table with
  | nil => cases h
  | cons first rest ih =>
    obtain ⟨other, old⟩ := first
    unfold find? at h
    split at h <;> grind

/-- A name is bound if and only if it is among the names. -/
theorem isSome_find? (name : String) (table : Table α) :
    (table.find? name).isSome = true ↔ name ∈ table.names := by
  induction table with
  | nil => simp [find?, names]
  | cons entry rest ih =>
    obtain ⟨other, value⟩ := entry
    by_cases h : name = other <;> simp_all [find?, names]

theorem mem_names_insert {name other : String} {value : α} {table : Table α} :
    other ∈ (insert name value table).names ↔ other = name ∨ other ∈ table.names := by
  induction table with
  | nil => simp [insert, names]
  | cons entry rest ih =>
    obtain ⟨key, old⟩ := entry
    unfold insert
    split
    · subst_vars
      simp [names]
    · split
      · simp [names]
      · simp only [names, List.map_cons, List.mem_cons] at ih ⊢
        rw [ih]
        grind

/-- An insertion keeps the names in order, each once. -/
theorem pairwise_names_insert (name : String) (value : α) {table : Table α}
    (h : table.names.Pairwise (· < ·)) : (insert name value table).names.Pairwise (· < ·) := by
  induction table with
  | nil => simp [insert, names]
  | cons entry rest ih =>
    obtain ⟨key, old⟩ := entry
    simp only [names, List.map_cons, List.pairwise_cons] at h
    unfold insert
    split
    · subst_vars
      simpa [names] using h
    · split
      · next hlt =>
        simp only [names, List.map_cons, List.pairwise_cons, List.mem_cons]
        refine ⟨?_, h⟩
        rintro other (rfl | hmem)
        · exact hlt
        · exact String.lt_trans hlt (h.1 other hmem)
      · next hne hnlt =>
        refine List.pairwise_cons.2 ⟨fun other hmem => ?_, ih h.2⟩
        rcases mem_names_insert.1 hmem with rfl | hmem
        · exact Std.lt_of_le_of_ne (String.not_lt.1 hnlt) (Ne.symm hne)
        · exact h.1 other hmem

/-! ## Tables of entries -/

variable {β : Type} {name : String} {value : α} {table entries : Table α}

theorem mem_foldl_insert {entry : String × α}
    (h : entry ∈ entries.foldl (fun table (name, value) => insert name value table) table) :
    entry ∈ table ∨ entry ∈ entries := by
  induction entries generalizing table with
  | nil => exact .inl h
  | cons first rest ih =>
    rcases ih h with h | h
    · rcases mem_of_mem_insert h with rfl | h
      · exact .inr List.mem_cons_self
      · exact .inl h
    · exact .inr (List.mem_cons_of_mem first h)

/-- A table of entries has no others. -/
theorem mem_of_mem_ofEntries {entry : String × α} (h : entry ∈ ofEntries entries) :
    entry ∈ entries :=
  (mem_foldl_insert h).resolve_left List.not_mem_nil

/-- A table of entries binds its names in order, each once. -/
theorem pairwise_names_ofEntries (entries : List (String × α)) :
    (ofEntries entries).names.Pairwise (· < ·) := by
  suffices h : ∀ table : Table α, table.names.Pairwise (· < ·) →
      (names (entries.foldl (fun table (name, value) => insert name value table) table)).Pairwise
        (· < ·) from h [] List.Pairwise.nil
  induction entries with
  | nil => exact fun _ h => h
  | cons entry rest ih => exact fun table h => ih _ (pairwise_names_insert entry.1 entry.2 h)

/-- A name behind all others is bound at the end. -/
theorem insert_eq_append (h : ∀ other ∈ table.names, other < name) :
    insert name value table = table ++ [(name, value)] := by
  induction table with
  | nil => rfl
  | cons entry rest ih =>
    obtain ⟨hlt, hrest⟩ := List.forall_mem_cons.1 h
    unfold insert
    rw [if_neg (String.ne_of_lt hlt).symm, if_neg (String.lt_asymm hlt), ih hrest]
    rfl

theorem foldl_insert_eq_append (h : (names (table ++ entries)).Pairwise (· < ·)) :
    entries.foldl (fun table (name, value) => insert name value table) table =
      table ++ entries := by
  induction entries generalizing table with
  | nil => exact (List.append_nil table).symm
  | cons entry rest ih =>
    obtain ⟨name, value⟩ := entry
    have hlt : ∀ other ∈ table.names, other < name := by
      simp only [names, List.map_append, List.pairwise_append] at h
      exact fun other hmem => h.2.2 other hmem name List.mem_cons_self
    have happend : table ++ [(name, value)] ++ rest = table ++ (name, value) :: rest := by simp
    rw [List.foldl_cons]
    dsimp only
    rw [insert_eq_append hlt, ih (by rw [happend]; exact h), happend]

/-- Entries are their own table if and only if their names are in order, each once. -/
theorem ofEntries_eq_self_iff : ofEntries entries = entries ↔ entries.names.Pairwise (· < ·) := by
  constructor
  · intro h
    rw [← h]
    exact pairwise_names_ofEntries entries
  · exact fun h => foldl_insert_eq_append h

theorem insert_map (f : α → β) :
    insert name (f value) (table.map fun entry => (entry.1, f entry.2)) =
      (insert name value table).map fun entry => (entry.1, f entry.2) := by
  induction table with
  | nil => rfl
  | cons entry rest ih =>
    rw [List.map_cons]
    unfold insert
    split
    · rfl
    · split
      · rfl
      · rw [ih]
        rfl

/-- The table of entries with their values changed. -/
theorem ofEntries_map (f : α → β) (entries : List (String × α)) :
    ofEntries (entries.map fun entry => (entry.1, f entry.2)) =
      (ofEntries entries).map fun entry => (entry.1, f entry.2) := by
  suffices h : ∀ table : Table α,
      (entries.map fun entry => (entry.1, f entry.2)).foldl
        (fun table (name, value) => insert name value table)
        (table.map fun entry => (entry.1, f entry.2)) =
      (entries.foldl (fun table (name, value) => insert name value table) table).map
        fun entry => (entry.1, f entry.2) from h []
  induction entries with
  | nil => exact fun _ => rfl
  | cons entry rest ih =>
    intro table
    rw [List.map_cons, List.foldl_cons]
    dsimp only
    rw [insert_map, ih]
    rfl

end Table

end SearchScript
