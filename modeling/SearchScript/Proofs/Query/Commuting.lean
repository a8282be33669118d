import SearchScript.Proofs.Query.Sorting

/-!
# Filtering and sorting commute

What an expression comes to for a file does not depend on the files around it, so a filter keeps
just those files for which its expression is true, whatever their order
(`filterWith_eq_some_ok_iff`), and the files that a sort is left with have the keys that they had
before (`keys_of_hasKey`). And placing entries one by one commutes with leaving some of them out
(`filter_foldr_place`), because the entries in front of which a new one moves are the last ones.

## Key results

- `filter_arrange`: leaving entries out before or after they are sorted
- `arrange_arrange`: entries that are sorted stay as they are
- `filter_sort_comm`: the filter and the sort of files
-/

namespace SearchScript.Query

open SortKey

/-! ## Leaving entries out -/

section Place

variable {entry : SortKey × FileRecord} {placed entries keyed : List (SortKey × FileRecord)}
  {ks : List SortKey} {p : SortKey × FileRecord → Bool}

theorem place_cons (entry last : SortKey × FileRecord) (rest : List (SortKey × FileRecord)) :
    place entry (last :: rest) =
      if entry.1.before last.1 then last :: place entry rest else entry :: last :: rest := rfl

/-- An entry that must stand in front of no other one is the last. -/
theorem place_eq_cons (h : ∀ other ∈ placed, entry.1.before other.1 = false) :
    place entry placed = entry :: placed := by
  cases placed with
  | nil => rfl
  | cons last rest => rw [place_cons, if_neg (Bool.eq_false_iff.1 (h last List.mem_cons_self))]

theorem filter_place_of_neg (h : p entry = false) :
    (place entry placed).filter p = placed.filter p := by
  induction placed with
  | nil => simp [place, h]
  | cons last rest ih =>
    rw [place_cons]
    split
    · rw [List.filter_cons, ih, List.filter_cons]
    · rw [List.filter_cons_of_neg (Bool.eq_false_iff.1 h)]

/-- Placing an entry among ascending ones and leaving others out commute. -/
theorem filter_place_of_pos (hs : Sortable ks) (hks : ∀ q ∈ entry :: placed, q.1 ∈ ks)
    (hplaced : placed.Pairwise fun later earlier => later.1.before earlier.1 = false)
    (h : p entry = true) : (place entry placed).filter p = place entry (placed.filter p) := by
  induction placed with
  | nil => simp [place, h]
  | cons last rest ih =>
    obtain ⟨hlast, hrest⟩ := List.pairwise_cons.1 hplaced
    obtain ⟨hentry, hlastKey, hkeys⟩ : entry.1 ∈ ks ∧ last.1 ∈ ks ∧ ∀ q ∈ rest, q.1 ∈ ks := by
      simpa only [List.forall_mem_cons] using hks
    have ih := ih (List.forall_mem_cons.2 ⟨hentry, hkeys⟩) hrest
    rw [place_cons]
    split
    case isTrue hbefore =>
      -- the entry moves in front of the last one, whether or not that one is kept
      cases hp : p last with
      | true =>
        rw [List.filter_cons_of_pos hp, List.filter_cons_of_pos hp, ih, place_cons, if_pos hbefore]
      | false =>
        have hp := Bool.eq_false_iff.1 hp
        rw [List.filter_cons_of_neg hp, List.filter_cons_of_neg hp, ih]
    case isFalse hbefore =>
      -- the entry stands behind the last one, so behind all of them
      have hbehind : ∀ other ∈ (last :: rest).filter p, entry.1.before other.1 = false := by
        intro other hother
        rcases List.mem_cons.1 (List.mem_filter.1 hother).1 with rfl | hother
        · exact Bool.eq_false_iff.2 hbefore
        · exact not_before_trans hs (hkeys other hother) hlastKey hentry (hlast other hother)
            (Bool.eq_false_iff.2 hbefore)
      rw [List.filter_cons_of_pos h, place_eq_cons hbehind]

theorem pairwise_foldr_place (hs : Sortable ks) (hks : ∀ q ∈ entries, q.1 ∈ ks) :
    (entries.foldr place []).Pairwise fun later earlier => later.1.before earlier.1 = false := by
  induction entries with
  | nil => exact List.Pairwise.nil
  | cons entry rest ih =>
    obtain ⟨hentry, hrest⟩ := List.forall_mem_cons.1 hks
    refine pairwise_place hs (List.forall_mem_cons.2 ⟨hentry, fun q hq => ?_⟩) (ih hrest)
    exact hrest q ((perm_foldr_place rest).mem_iff.1 hq)

theorem filter_foldr_place (hs : Sortable ks) (hks : ∀ q ∈ entries, q.1 ∈ ks) :
    (entries.foldr place []).filter p = (entries.filter p).foldr place [] := by
  induction entries with
  | nil => rfl
  | cons entry rest ih =>
    obtain ⟨hentry, hrest⟩ := List.forall_mem_cons.1 hks
    have ih := ih hrest
    -- the first entry is the last that is placed, when the others are already in order
    rw [List.foldr_cons, List.filter_cons]
    split
    case isTrue h =>
      have hkeys : ∀ q ∈ entry :: rest.foldr place [], q.1 ∈ ks :=
        List.forall_mem_cons.2 ⟨hentry, fun q hq => hrest q ((perm_foldr_place rest).mem_iff.1 hq)⟩
      rw [filter_place_of_pos hs hkeys (pairwise_foldr_place hs hrest) h, ih, List.foldr_cons]
    case isFalse h => rw [filter_place_of_neg (Bool.eq_false_iff.2 h), ih]

/-- Entries that are ascending stay as they are. -/
theorem foldr_place_of_ascending
    (h : entries.Pairwise fun later earlier => later.1.before earlier.1 = false) :
    entries.foldr place [] = entries := by
  induction entries with
  | nil => rfl
  | cons entry rest ih =>
    obtain ⟨hentry, hrest⟩ := List.pairwise_cons.1 h
    rw [List.foldr_cons, ih hrest, place_eq_cons hentry]

end Place

/-! ## Sorting entries -/

section Sorting

variable {keyed : List (SortKey × FileRecord)}

/-- The entries in the order of their keys. -/
def arrange (keyed : List (SortKey × FileRecord)) : List (SortKey × FileRecord) :=
  -- entries are placed from the first to the last, with the greatest in front
  (keyed.reverse.foldr place []).reverse

theorem sortKeyed_eq_map_arrange (keyed : List (SortKey × FileRecord)) :
    sortKeyed keyed = (arrange keyed).map (·.2) := sortKeyed_eq keyed

theorem perm_arrange (keyed : List (SortKey × FileRecord)) : (arrange keyed).Perm keyed :=
  (List.reverse_perm _).trans ((perm_foldr_place _).trans (List.reverse_perm _))

/-- Leaving entries out before or after they are arranged makes no difference. -/
theorem filter_arrange (hs : Sortable (keyed.map (·.1))) (p : SortKey × FileRecord → Bool) :
    (arrange keyed).filter p = arrange (keyed.filter p) := by
  have hks : ∀ q ∈ keyed.reverse, q.1 ∈ keyed.map (·.1) := fun q hq =>
    List.mem_map_of_mem (List.mem_reverse.1 hq)
  rw [arrange, arrange, List.filter_reverse, filter_foldr_place hs hks, List.filter_reverse]

/-- Arranging entries that are arranged changes nothing. -/
theorem arrange_arrange (hs : Sortable (keyed.map (·.1))) :
    arrange (arrange keyed) = arrange keyed := by
  have hks : ∀ q ∈ keyed.reverse, q.1 ∈ keyed.map (·.1) := fun q hq =>
    List.mem_map_of_mem (List.mem_reverse.1 hq)
  rw [arrange, arrange, List.reverse_reverse,
    foldr_place_of_ascending (pairwise_foldr_place hs hks)]

end Sorting

/-! ## Filtering and sorting files -/

variable {fuel : Nat} {e : Expr} {files : Option FileStore} {records kept : List FileRecord}

/-- Whether an expression is true for a file. -/
def accepts (fuel : Nat) (e : Expr) (files : Option FileStore) (file : FileRecord) : Bool :=
  match evaluateFor fuel e files file with
  | some result =>
    match result.bind filterAnswer with
    | .ok keep => keep
    | .error _ => false
  | none => false

/-- Whether an expression comes to a Boolean for a file. -/
def Decides (fuel : Nat) (e : Expr) (files : Option FileStore) (file : FileRecord) : Prop :=
  ∃ result keep, evaluateFor fuel e files file = some result ∧ result.bind filterAnswer = .ok keep

/-- A filter succeeds if and only if its expression comes to a Boolean for each file, and it keeps
the files for which this is true. -/
theorem filterWith_eq_some_ok_iff : filterWith fuel e files records = some (.ok kept) ↔
    (∀ file ∈ records, Decides fuel e files file) ∧
      kept = records.filter (accepts fuel e files) := by
  induction records generalizing kept with
  | nil => simp [filterWith, eq_comm]
  | cons file rest ih =>
    rw [List.forall_mem_cons, List.filter_cons]
    cases hresult : evaluateFor fuel e files file with
    | none => simp [filterWith, Decides, hresult]
    | some result =>
      -- an error of one file is that of the whole filter, whatever the other files come to
      cases hkeep : result.bind filterAnswer with
      | error error => simp [filterWith, Decides, hresult, hkeep]
      | ok keep =>
        have haccepts : accepts fuel e files file = keep := by simp [accepts, hresult, hkeep]
        have hdecides : Decides fuel e files file := ⟨result, keep, hresult, hkeep⟩
        constructor
        · intro h
          simp only [filterWith, hresult, hkeep] at h
          split at h
          case h_1 kept' hrest =>
            obtain ⟨hall, rfl⟩ := ih.1 hrest
            cases h
            exact ⟨⟨hdecides, hall⟩, by rw [haccepts]⟩
          case h_2 hother => exact absurd h (hother kept)
        · rintro ⟨⟨-, hall⟩, rfl⟩
          simp only [filterWith, hresult, hkeep, ih.2 ⟨hall, rfl⟩, haccepts]

/-- Files with known keys are given just these by a sort. -/
theorem keys_of_hasKey {keyed : List (SortKey × FileRecord)}
    (h : ∀ entry ∈ keyed, HasKey fuel e files entry) :
    keys fuel e files (keyed.map (·.2)) = some (.ok keyed) := by
  induction keyed with
  | nil => rfl
  | cons entry rest ih =>
    obtain ⟨⟨v, hvalue, hkey⟩, hrest⟩ := List.forall_mem_cons.1 h
    have hbind : (Except.ok v : Except RunError Value).bind SortKey.ofValue = .ok entry.1 := hkey
    simp only [List.map_cons, keys, hvalue, hbind, ih hrest]

theorem sortable_subset {ks ks' : List SortKey} (h : Sortable ks) (hsub : ks' ⊆ ks) :
    Sortable ks' :=
  fun hnan a b ha hb => h (hsub hnan) a b (hsub ha) (hsub hb)

theorem sortable_of_ne_nan {ks : List SortKey} (h : .number .nan ∉ ks) : Sortable ks :=
  fun hnan => absurd hnan h

theorem ne_nan_of_ofValue {v : Value} (h : SortKey.ofValue v = .ok (.number .nan)) :
    v = .number .nan := by
  cases v <;> cases h
  rfl

variable {source p k : String} {fuel' : Nat} {sorted : List FileRecord}

theorem filter_eq_some_ok_iff : filter fuel source records files = some (.ok kept) ↔
    ∃ e, Expr.parse .strict source = .ok e ∧ (∀ file ∈ records, Decides fuel e files file) ∧
      kept = records.filter (accepts fuel e files) := by
  unfold filter
  cases hparse : Expr.parse .strict source with
  | error error => simp
  | ok e => simp [filterWith_eq_some_ok_iff]

/-- Files with known keys are sorted by these. -/
theorem sort_of_hasKey {keyed : List (SortKey × FileRecord)}
    (hparse : Expr.parse .strict source = .ok e) (h : ∀ entry ∈ keyed, HasKey fuel e files entry) :
    sort fuel source (keyed.map (·.2)) files = some (.ok ((arrange keyed).map (·.2))) := by
  simp only [sort, hparse, keys_of_hasKey h, sortKeyed_eq_map_arrange]

theorem exists_of_sort (h : sort fuel source records files = some (.ok sorted)) :
    ∃ e keyed, Expr.parse .strict source = .ok e ∧ (∀ entry ∈ keyed, HasKey fuel e files entry) ∧
      records = keyed.map (·.2) ∧ sorted = (arrange keyed).map (·.2) := by
  unfold sort at h
  cases hparse : Expr.parse .strict source with
  | error error => simp [hparse] at h
  | ok e =>
    simp only [hparse] at h
    split at h
    case h_2 | h_3 => cases h
    case h_1 keyed hkeyed =>
      cases h
      obtain ⟨hrecords, hkeys⟩ := keys_eq_some_ok hkeyed
      exact ⟨e, keyed, rfl, hkeys, hrecords.symm, sortKeyed_eq_map_arrange keyed⟩

/-- Filtering and sorting commute: if both succeed and no key is NaN, then they succeed one behind
the other in either order and come to the same files. A sort of sorted files changes nothing. -/
theorem filter_sort_comm (hfilter : filter fuel p records files = some (.ok kept))
    (hsort : sort fuel' k records files = some (.ok sorted))
    (hnan : ∀ e, Expr.parse .strict k = .ok e → ∀ file ∈ records, ∀ v,
      evaluateFor fuel' e files file = some (.ok v) → v ≠ .number .nan) :
    ∃ result, filter fuel p sorted files = some (.ok result) ∧
      sort fuel' k kept files = some (.ok result) ∧
      sort fuel' k sorted files = some (.ok sorted) ∧
      sort fuel' k result files = some (.ok result) := by
  obtain ⟨e, hp, hdecides, rfl⟩ := filter_eq_some_ok_iff.1 hfilter
  obtain ⟨e', keyed, hk, hkeys, rfl, rfl⟩ := exists_of_sort hsort
  have hs : Sortable (keyed.map (·.1)) := by
    refine sortable_of_ne_nan fun hmem => ?_
    obtain ⟨entry, hentry, hnumber⟩ := List.mem_map.1 hmem
    obtain ⟨v, hvalue, hkey⟩ := hkeys entry hentry
    exact hnan e' hk entry.2 (List.mem_map_of_mem hentry) v hvalue
      (ne_nan_of_ofValue (hnumber ▸ hkey))
  -- the files that are kept, with their keys
  let keptKeyed := keyed.filter (accepts fuel e files ·.2)
  have hkept : (keyed.map (·.2)).filter (accepts fuel e files) = keptKeyed.map (·.2) :=
    List.filter_map
  have hresult : ((arrange keyed).map (·.2)).filter (accepts fuel e files) =
      (arrange keptKeyed).map (·.2) := by
    rw [List.filter_map, ← filter_arrange hs]
    rfl
  have hkeptKeys : ∀ entry ∈ keptKeyed, HasKey fuel' e' files entry := fun entry hentry =>
    hkeys entry (List.mem_filter.1 hentry).1
  have hkeptSortable : Sortable (keptKeyed.map (·.1)) :=
    sortable_subset hs (List.map_subset _ List.filter_sublist.subset)
  have hsortArranged : ∀ {entries : List (SortKey × FileRecord)}, Sortable (entries.map (·.1)) →
      (∀ entry ∈ entries, HasKey fuel' e' files entry) →
      sort fuel' k ((arrange entries).map (·.2)) files =
        some (.ok ((arrange entries).map (·.2))) := by
    intro entries hs hkeys
    rw [sort_of_hasKey hk fun entry hentry => hkeys entry ((perm_arrange entries).mem_iff.1 hentry),
      arrange_arrange hs]
  refine ⟨(arrange keptKeyed).map (·.2), ?_, ?_, hsortArranged hs hkeys,
    hsortArranged hkeptSortable hkeptKeys⟩
  · refine filter_eq_some_ok_iff.2 ⟨e, hp, fun file hfile => ?_, hresult.symm⟩
    exact hdecides file (((perm_arrange keyed).map _).mem_iff.1 hfile)
  · rw [hkept]
    exact sort_of_hasKey hk hkeptKeys

/-- Three files, of which two have one hash, sorted by their hashes; one of the two is left out. -/
theorem filter_sort_comm_of_hashes :
    let records : List FileRecord :=
      [{ id := 1, hash := "b" }, { id := 2, hash := "a" }, { id := 3, hash := "b" }]
    ∃ kept sorted, filter 20 "file.id != 3" records none = some (.ok kept) ∧
      sort 20 "file.hash" records none = some (.ok sorted) ∧
      (∀ e, Expr.parse .strict "file.hash" = .ok e → ∀ file ∈ records, ∀ v,
        evaluateFor 20 e none file = some (.ok v) → v ≠ .number .nan) ∧
      ∃ result, filter 20 "file.id != 3" sorted none = some (.ok result) ∧
        sort 20 "file.hash" kept none = some (.ok result) ∧
        sort 20 "file.hash" sorted none = some (.ok sorted) ∧
        sort 20 "file.hash" result none = some (.ok result) := by
  intro records
  obtain ⟨kept, hfilter⟩ := Except.exists_of_any_isSome
    (show (filter 20 "file.id != 3" records none).any (·.toOption.isSome) = true by decide +kernel)
  obtain ⟨sorted, hsort⟩ := Except.exists_of_any_isSome
    (show (sort 20 "file.hash" records none).any (·.toOption.isSome) = true by decide +kernel)
  have hstrings : (records.all fun file => (Expr.parse .strict "file.hash").toOption.all fun e =>
      (evaluateFor 20 e none file).all fun r => r.toOption.all (·.type == .string)) = true := by
    decide +kernel
  have hnan : ∀ e, Expr.parse .strict "file.hash" = .ok e → ∀ file ∈ records, ∀ v,
      evaluateFor 20 e none file = some (.ok v) → v ≠ .number .nan := by
    rintro e hparse file hfile v hvalue rfl
    have hstring := List.all_eq_true.1 hstrings file hfile
    simp [hparse, hvalue, Except.toOption, Value.type] at hstring
  exact ⟨kept, sorted, hfilter, hsort, hnan, filter_sort_comm hfilter hsort hnan⟩

end SearchScript.Query
