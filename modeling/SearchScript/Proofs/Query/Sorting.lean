import SearchScript.Proofs.Except
import SearchScript.Proofs.Number.Order
import SearchScript.Query

/-!
# Sorting by keys

Entries are placed one by one behind those already placed (`Query.place`). The list of placed
entries has its last entry first, so what holds of each two of them is stated backwards until
`sortKeyed` turns the list round.

NaN is in no order with any number. Among keys that hold a NaN and two numbers in order, to stand
in no order is therefore not transitive, and the entries may have no arrangement that is ascending
and keeps the order of ties (`not_isStableSort_of_nan_between`). All other keys are `Sortable`.

## Key results

- `SortKey.not_before_trans`: on sortable keys, what two steps do not bring in order is in no order
- `perm_sortKeyed`, `isStableSort_sortKeyed`: the sort of entries
- `sort_stable`: the sort of files
-/

namespace SearchScript

namespace Query

/-! ## The order of keys -/

namespace SortKey

/-- Whether two keys are in no order. -/
def ties (a b : SortKey) : Bool := !a.before b && !b.before a

/-- Keys on which to be in no order is transitive: if there is a NaN among them, no two numbers of
them are in order. -/
def Sortable (ks : List SortKey) : Prop :=
  .number .nan ∈ ks → ∀ a b, .number a ∈ ks → .number b ∈ ks → a.less b = false

variable {a b c : SortKey} {ks : List SortKey}

theorem before_asymm (h : a.before b = true) : b.before a = false := by
  cases a <;> cases b <;> simp only [before, decide_eq_true_eq, decide_eq_false_iff_not,
    reduceCtorEq] at h ⊢
  · exact Number.less_asymm h
  · exact String.lt_asymm h

/-- The contrapositive of transitivity for keys without NaN. A NaN in the middle needs that the
outer numbers are in no order anyway. -/
theorem not_before_trans (hs : Sortable ks) (ha : a ∈ ks) (hb : b ∈ ks) (hc : c ∈ ks)
    (hba : b.before a = false) (hcb : c.before b = false) : c.before a = false := by
  refine Bool.eq_false_iff.2 fun hca => ?_
  match a, b, c with
  | .number x, .number y, .number z =>
    have hy : y ≠ .nan := by
      rintro rfl
      exact absurd hca (Bool.eq_false_iff.1 (hs hb z x hc ha))
    rcases Number.less_or_less_of_less hca hy with h | h
    · exact absurd h (Bool.eq_false_iff.1 hba)
    · exact absurd h (Bool.eq_false_iff.1 hcb)
  | .string x, .string y, .string z =>
    simp only [before, decide_eq_true_eq, decide_eq_false_iff_not] at hba hcb hca
    exact String.not_lt.2 (String.le_trans (String.not_lt.1 hba) (String.not_lt.1 hcb)) hca
  | .number _, .string _, .number _ => simp [before] at hcb
  | .string _, .number _, .string _ => simp [before] at hba
  | .number _, .number _, .string _ => simp [before] at hca
  | .number _, .string _, .string _ => simp [before] at hca
  | .string _, .number _, .number _ => simp [before] at hba
  | .string _, .string _, .number _ => simp [before] at hcb

theorem ties_iff : a.ties b = true ↔ a.before b = false ∧ b.before a = false := by
  simp [ties]

/-- Two keys that tie with a third one are in no order. -/
theorem not_before_of_ties (hs : Sortable ks) (ha : a ∈ ks) (hb : b ∈ ks) (hc : c ∈ ks)
    (hab : b.ties a = true) (hbc : b.ties c = true) : a.before c = false :=
  not_before_trans hs hc hb ha (ties_iff.1 hbc).1 (ties_iff.1 hab).2

end SortKey

open SortKey

/-! ## Placing an entry -/

section Place

variable {entry : SortKey × FileRecord} {placed keyed : List (SortKey × FileRecord)}
  {ks : List SortKey}

theorem perm_place (entry : SortKey × FileRecord) (placed : List (SortKey × FileRecord)) :
    (place entry placed).Perm (entry :: placed) := by
  induction placed with
  | nil => exact .refl _
  | cons last rest ih =>
    unfold place
    split
    · exact (ih.cons last).trans (.swap entry last rest)
    · exact .refl _

/-- The entries that are placed stay ascending. -/
theorem pairwise_place (hs : Sortable ks) (hks : ∀ p ∈ entry :: placed, p.1 ∈ ks)
    (h : placed.Pairwise fun later earlier => later.1.before earlier.1 = false) :
    (place entry placed).Pairwise fun later earlier => later.1.before earlier.1 = false := by
  induction placed with
  | nil => exact List.pairwise_singleton ..
  | cons last rest ih =>
    obtain ⟨hlast, hrest⟩ := List.pairwise_cons.1 h
    obtain ⟨hentry, hlastKey, hkeys⟩ : entry.1 ∈ ks ∧ last.1 ∈ ks ∧ ∀ p ∈ rest, p.1 ∈ ks := by
      simpa only [List.forall_mem_cons] using hks
    unfold place
    split
    case isTrue hbefore =>
      refine List.pairwise_cons.2 ⟨fun other hother => ?_,
        ih (List.forall_mem_cons.2 ⟨hentry, hkeys⟩) hrest⟩
      rcases List.mem_cons.1 ((perm_place entry rest).mem_iff.1 hother) with rfl | hother
      · exact before_asymm hbefore
      · exact hlast other hother
    case isFalse hbefore =>
      have hbefore := Bool.eq_false_iff.2 hbefore
      refine List.pairwise_cons.2 ⟨fun other hother => ?_, h⟩
      rcases List.mem_cons.1 hother with rfl | hother
      · exact hbefore
      · exact not_before_trans hs (hkeys other hother) hlastKey hentry (hlast other hother) hbefore

/-- An entry moves in front of no entry that it ties with. -/
theorem filter_place {k : SortKey} (hs : Sortable ks) (hk : k ∈ ks)
    (hks : ∀ p ∈ entry :: placed, p.1 ∈ ks) :
    (place entry placed).filter (k.ties ·.1) = (entry :: placed).filter (k.ties ·.1) := by
  induction placed with
  | nil => rfl
  | cons last rest ih =>
    obtain ⟨hentry, hlastKey, hkeys⟩ : entry.1 ∈ ks ∧ last.1 ∈ ks ∧ ∀ p ∈ rest, p.1 ∈ ks := by
      simpa only [List.forall_mem_cons] using hks
    have ih := ih (List.forall_mem_cons.2 ⟨hentry, hkeys⟩)
    unfold place
    split
    case isTrue hbefore =>
      rw [List.filter_cons, ih]
      by_cases hlast : k.ties last.1 = true
      · have hentry : k.ties entry.1 = false := Bool.eq_false_iff.2 fun hties =>
          absurd hbefore (Bool.eq_false_iff.1 (not_before_of_ties hs hentry hk hlastKey hties hlast))
        simp [hlast, hentry]
      · simp [List.filter_cons, hlast]
    case isFalse => rfl

end Place

/-! ## Sorting entries -/

/-- What a stable sort makes of a list of entries: the same entries, none in front of one whose key
must stand before its own, and those that tie with a key in the order in which they were. -/
structure IsStableSort (keyed sorted : List (SortKey × FileRecord)) : Prop where
  perm : sorted.Perm keyed
  ascending : sorted.Pairwise fun earlier later => later.1.before earlier.1 = false
  stable : ∀ entry ∈ keyed, sorted.filter (entry.1.ties ·.1) = keyed.filter (entry.1.ties ·.1)

section Sorting

variable {keyed : List (SortKey × FileRecord)}

/-- The entries that `sortKeyed` sorts, in the order in which they are placed. -/
theorem sortKeyed_eq (keyed : List (SortKey × FileRecord)) :
    sortKeyed keyed = ((keyed.reverse.foldr place []).reverse).map (·.2) := by
  rw [sortKeyed, List.foldr_reverse]

theorem perm_foldr_place (entries : List (SortKey × FileRecord)) :
    (entries.foldr place []).Perm entries := by
  induction entries with
  | nil => exact .refl _
  | cons entry rest ih => exact (perm_place entry _).trans (ih.cons entry)

theorem isStableSort_foldr_place (hs : Sortable (keyed.map (·.1))) :
    IsStableSort keyed (keyed.reverse.foldr place []).reverse := by
  have hperm := perm_foldr_place keyed.reverse
  suffices h : ∀ entries : List (SortKey × FileRecord), (∀ p ∈ entries, p ∈ keyed) →
      (entries.foldr place []).Pairwise (fun later earlier => later.1.before earlier.1 = false) ∧
      ∀ entry ∈ keyed, (entries.foldr place []).filter (entry.1.ties ·.1) =
        entries.filter (entry.1.ties ·.1) by
    obtain ⟨hascending, hstable⟩ := h keyed.reverse fun p hp => List.mem_reverse.1 hp
    refine ⟨(List.reverse_perm _).trans (hperm.trans (List.reverse_perm _)),
      List.pairwise_reverse.2 hascending, fun entry hentry => ?_⟩
    rw [List.filter_reverse, hstable entry hentry, ← List.filter_reverse, List.reverse_reverse]
  intro entries
  induction entries with
  | nil => exact fun _ => ⟨List.Pairwise.nil, fun _ _ => rfl⟩
  | cons entry rest ih =>
    intro hkeyed
    obtain ⟨hentry, hrest⟩ := List.forall_mem_cons.1 hkeyed
    obtain ⟨hascending, hstable⟩ := ih hrest
    have hks : ∀ p ∈ entry :: rest.foldr place [], p.1 ∈ keyed.map (·.1) := by
      refine List.forall_mem_cons.2 ⟨List.mem_map_of_mem hentry, fun p hp => ?_⟩
      exact List.mem_map_of_mem (hrest p ((perm_foldr_place rest).mem_iff.1 hp))
    refine ⟨pairwise_place hs hks hascending, fun other hother => ?_⟩
    rw [List.foldr_cons, filter_place hs (List.mem_map_of_mem hother) hks, List.filter_cons,
      List.filter_cons, hstable other hother]

/-- No arrangement is a stable sort of entries of which a NaN follows a number and is followed by a
smaller one: both numbers tie with NaN. -/
theorem not_isStableSort_of_nan_between {a b : Number} {f g h : FileRecord}
    {sorted : List (SortKey × FileRecord)}
    (hsub : [(.number a, f), (.number .nan, g), (.number b, h)].Sublist keyed)
    (hless : b.less a = true) : ¬ IsStableSort keyed sorted := by
  intro hsort
  have hstable := hsort.stable (.number .nan, g) (hsub.subset (by simp))
  have hfilter := hsub.filter (fun p => (SortKey.number .nan).ties p.1)
  rw [← hstable] at hfilter
  have hpair := (hsort.ascending.sublist (hfilter.trans List.filter_sublist))
  simp [ties, before, hless] at hpair

/-- A NaN keeps `1` from moving in front of `2`. -/
example :
    (sortKeyed [(.number 2, { id := 1 }), (.number .nan, { id := 2 }),
      (.number 1, { id := 3 })]).map (·.id) = [1, 2, 3] := by
  decide +kernel

end Sorting

/-! ## Sorting files -/

/-- The key of a file: what an expression comes to with `file` bound to it. -/
def HasKey (fuel : Nat) (e : Expr) (files : Option FileStore) (entry : SortKey × FileRecord) :
    Prop :=
  ∃ v, evaluateFor fuel e files entry.2 = some (.ok v) ∧ SortKey.ofValue v = .ok entry.1

variable {fuel : Nat} {e : Expr} {files : Option FileStore} {records sorted : List FileRecord}
  {source : String}

theorem keys_eq_some_ok {keyed : List (SortKey × FileRecord)}
    (h : keys fuel e files records = some (.ok keyed)) :
    keyed.map (·.2) = records ∧ ∀ entry ∈ keyed, HasKey fuel e files entry := by
  induction records generalizing keyed with
  | nil =>
    cases h
    exact ⟨rfl, by simp⟩
  | cons file rest ih =>
    unfold keys at h
    cases hvalue : evaluateFor fuel e files file with
    | none => simp [hvalue] at h
    | some result =>
      cases hkey : result.bind SortKey.ofValue with
      | error error => simp [hvalue, hkey] at h
      | ok key =>
        simp only [hvalue, hkey] at h
        split at h
        case h_2 hother =>
          exact absurd h (hother _)
        case h_1 keyedRest hrest =>
          cases h
          obtain ⟨hrecords, hkeys⟩ := ih hrest
          obtain ⟨v, rfl, hv⟩ := Except.bind_eq_ok_iff.1 hkey
          exact ⟨by simp [hrecords], List.forall_mem_cons.2 ⟨⟨v, hvalue, hv⟩, hkeys⟩⟩

/-- A sort that succeeds sorts the files with the keys that the expression comes to. The result is
always a rearrangement of the files, and unless a NaN is among the keys together with two numbers
in order, it is ascending and keeps the order of files with equal keys. -/
theorem sort_stable (h : sort fuel source records files = some (.ok sorted)) :
    ∃ e keyed arranged, Expr.parse .strict source = .ok e ∧
      keyed.map (·.2) = records ∧ (∀ entry ∈ keyed, HasKey fuel e files entry) ∧
      arranged.map (·.2) = sorted ∧ arranged.Perm keyed ∧
      (Sortable (keyed.map (·.1)) → IsStableSort keyed arranged) := by
  unfold sort at h
  cases hparse : Expr.parse .strict source with
  | error error => simp [hparse] at h
  | ok e =>
    simp only [hparse] at h
    split at h
    case h_1 keyed hkeyed =>
      obtain ⟨hrecords, hkeys⟩ := keys_eq_some_ok hkeyed
      cases h
      refine ⟨e, keyed, (keyed.reverse.foldr place []).reverse, rfl, hrecords, hkeys,
        (sortKeyed_eq keyed).symm, ?_, isStableSort_foldr_place⟩
      exact (List.reverse_perm _).trans ((perm_foldr_place _).trans (List.reverse_perm _))
    all_goals cases h

/-- Two files sorted by their hashes. -/
theorem sort_stable_of_hashes :
    let records : List FileRecord := [{ id := 1, hash := "b" }, { id := 2, hash := "a" }]
    ∃ sorted, sort 20 "file.hash" records none = some (.ok sorted) ∧
      ∃ e keyed arranged, Expr.parse .strict "file.hash" = .ok e ∧
        keyed.map (·.2) = records ∧ (∀ entry ∈ keyed, HasKey 20 e none entry) ∧
        arranged.map (·.2) = sorted ∧ arranged.Perm keyed ∧
        (Sortable (keyed.map (·.1)) → IsStableSort keyed arranged) := by
  intro records
  obtain ⟨sorted, h⟩ := Except.exists_of_any_isSome
    (show (sort 20 "file.hash" records none).any (·.toOption.isSome) = true by decide +kernel)
  exact ⟨sorted, h, sort_stable h⟩

end Query

end SearchScript
