import Mathlib
import SearchScript.CommandLine.Report
import SearchScript.Proofs.File.Reload
import SearchScript.Proofs.Query.Sorting

/-!
# Printed records loaded again

What a search prints can be loaded again by the next one. The records come back as they were kept,
except that their tags and ratings are sorted by service, and of several entries for one service
only the last is left. So they come back unchanged if and only if they were sorted like that before.

## Key definitions

- `Command.Keeps`: the records that a search keeps

## Key results

- `Query.mem_of_filter`, `Query.mem_of_sort`: a search keeps records that it was given
- `Report.load_output`: what a search prints is loaded as the records that it kept, with their tags
  and ratings sorted by service
-/

namespace SearchScript

namespace Query

variable {fuel : Nat} {e : Expr} {source : String} {files : Option FileStore}
  {records kept : List FileRecord}

theorem mem_of_filterWith (h : filterWith fuel e files records = some (.ok kept)) :
    ∀ file ∈ kept, file ∈ records := by
  induction records generalizing kept with
  | nil =>
    cases h
    exact List.forall_mem_nil _
  | cons first rest ih =>
    unfold filterWith at h
    split at h
    · cases h
    split at h
    · cases h
    split at h
    · next kept' hrest =>
      cases h
      intro file hmem
      split at hmem
      · rcases List.mem_cons.1 hmem with rfl | hmem
        · exact List.mem_cons_self
        · exact List.mem_cons_of_mem first (ih hrest file hmem)
      · exact List.mem_cons_of_mem first (ih hrest file hmem)
    · next hother =>
      exact (hother kept h).elim

/-- A filter keeps files that it was given. -/
theorem mem_of_filter (h : filter fuel source records files = some (.ok kept)) :
    ∀ file ∈ kept, file ∈ records := by
  unfold filter at h
  split at h
  · cases h
  · exact mem_of_filterWith h

/-- A sort keeps the files that it was given. -/
theorem mem_of_sort (h : sort fuel source records files = some (.ok kept)) :
    ∀ file ∈ kept, file ∈ records := by
  unfold sort at h
  split at h
  · cases h
  · split at h
    · next keyed hkeyed =>
      cases h
      obtain ⟨rfl, -⟩ := keys_eq_some_ok hkeyed
      have hperm := ((List.reverse_perm _).trans (perm_foldr_place keyed.reverse)).trans
        (List.reverse_perm keyed)
      intro file hmem
      rw [sortKeyed_eq] at hmem
      exact (hperm.map _).mem_iff.1 hmem
    all_goals cases h

end Query

namespace CommandLine

/-- What a search keeps of the records in the file that it is given. -/
inductive Command.Keeps (fuel : Nat) (readable : Readable) : Command → List FileRecord → Prop
  | filter {expression path files kept} : readable.records path = .ok files →
      Query.filter fuel expression files (some files) = some (.ok kept) →
      Keeps fuel readable (.filter expression path) kept
  | sort {expression path files kept} : readable.records path = .ok files →
      Query.sort fuel expression files (some files) = some (.ok kept) →
      Keeps fuel readable (.sort expression path) kept

/-- The commands that search for files. -/
def Command.isSearch : Command → Bool
  | .filter _ _ | .sort _ _ => true
  | _ => false

variable {fuel : Nat} {readable : Readable} {command : Command} {kept : List FileRecord}
  {path : String} {report : Report}

/-- The files that are read are proper. -/
theorem Readable.proper_of_records {files : FileStore} (h : readable.records path = .ok files) :
    ∀ file ∈ files, file.Proper := by
  unfold Readable.records at h
  obtain ⟨text, -, h⟩ := Except.bind_eq_ok_iff.1 h
  cases hload : FileStore.load text with
  | error fault =>
    rw [hload] at h
    cases h
  | ok loaded =>
    rw [hload] at h
    cases h
    exact FileStore.proper_of_load hload

theorem Command.Keeps.proper (h : command.Keeps fuel readable kept) :
    ∀ file ∈ kept, file.Proper := by
  cases h with
  | filter hrecords hquery =>
    intro file hmem
    exact Readable.proper_of_records hrecords file (Query.mem_of_filter hquery file hmem)
  | sort hrecords hquery =>
    intro file hmem
    exact Readable.proper_of_records hrecords file (Query.mem_of_sort hquery file hmem)

/-- A search that succeeds prints the records that it keeps. -/
theorem Report.output_of_search (hsearch : command.isSearch = true)
    (hreport : Report.ofRequest fuel readable (.run command) = some report)
    (hstatus : report.status = 0) :
    ∃ kept, command.Keeps fuel readable kept ∧
      report.output = (recordsJson kept).pretty ++ "\n" := by
  have hsucceeds : ∀ {path query},
      (Command.search readable path query).map Report.ofResult = some report →
      ∃ files kept, readable.records path = .ok files ∧ query files = some (.ok kept) ∧
        report.output = (recordsJson kept).pretty ++ "\n" := by
    intro path query h
    obtain ⟨result, hresult, rfl⟩ := Option.map_eq_some_iff.1 h
    unfold Command.search at hresult
    split at hresult
    · cases hresult
      cases hstatus
    · next files hrecords =>
      obtain ⟨answer, hanswer, rfl⟩ := Option.map_eq_some_iff.1 hresult
      cases answer with
      | error error => cases hstatus
      | ok kept => exact ⟨files, kept, hrecords, hanswer, rfl⟩
  cases command with
  | filter expression path =>
    obtain ⟨files, kept, hrecords, hquery, houtput⟩ := hsucceeds hreport
    exact ⟨kept, .filter hrecords hquery, houtput⟩
  | sort expression path =>
    obtain ⟨files, kept, hrecords, hquery, houtput⟩ := hsucceeds hreport
    exact ⟨kept, .sort hrecords hquery, houtput⟩
  | _ => cases hsearch

/-- What a search prints is loaded as the records that it kept, with their tags and ratings sorted
by service and only the last of several entries for one service. So it is loaded as just those
records if and only if they had their services in order, each once; and this is what a command finds
that is given the output as its file. -/
theorem Report.load_output (hsearch : command.isSearch = true)
    (hreport : Report.ofRequest fuel readable (.run command) = some report)
    (hstatus : report.status = 0)
    (hdoubles : ∀ kept, command.Keeps fuel readable kept → ∀ file ∈ kept, file.DoublesReadBack) :
    ∃ kept, command.Keeps fuel readable kept ∧
      FileStore.load report.output = .ok (kept.map FileRecord.ordered) ∧
      (FileStore.load report.output = .ok kept ↔ ∀ file ∈ kept, file.InOrder) ∧
      ∀ (next : Readable) path, next.file path = .ok report.output →
        next.records path = .ok (kept.map FileRecord.ordered) := by
  obtain ⟨kept, hkeeps, houtput⟩ := Report.output_of_search hsearch hreport hstatus
  have hload : FileStore.load report.output = .ok (kept.map FileRecord.ordered) := by
    rw [houtput]
    exact FileStore.load_pretty_canonical hkeeps.proper (hdoubles kept hkeeps)
  refine ⟨kept, hkeeps, hload, ?_, ?_⟩
  · have hsame := List.map_inj_left (l := kept) (f := FileRecord.ordered) (g := id)
    rw [List.map_id] at hsame
    rw [hload, Except.ok.injEq, hsame]
    exact forall₂_congr fun _ _ => FileRecord.ordered_eq_self_iff
  · intro next path hfile
    rw [Readable.records, hfile]
    change (FileStore.load report.output).mapError (Failure.records path) = _
    rw [hload]
    rfl

/-- The ratings of a file that a filter keeps are printed with the services sorted. -/
theorem Report.load_output_of_ratings :
    let text := "[\x7b\"file_id\":1,\"hash\":\"h\",\"ratings\":\x7b\"zz\":5,\"aa\":1\x7d\x7d]"
    let readable : Readable := { input := .ok "", file := fun _ => .ok text }
    let command : Command := .filter "true" "files.json"
    ∃ report, Report.ofRequest 20 readable (.run command) = some report ∧ report.status = 0 ∧
      ∃ kept, command.Keeps 20 readable kept ∧
        FileStore.load report.output = .ok (kept.map FileRecord.ordered) ∧
        (FileStore.load report.output = .ok kept ↔ ∀ file ∈ kept, file.InOrder) ∧
        ∀ (next : Readable) path, next.file path = .ok report.output →
          next.records path = .ok (kept.map FileRecord.ordered) := by
  intro text readable command
  let file : FileRecord := { id := 1, hash := "h", ratings :=
    [("zz", .number (.natural 5)), ("aa", .number (.natural 1))] }
  have hload : FileStore.load text = .ok [file] := by cbv
  have hread : readable.records "files.json" = .ok [file] := by
    change (FileStore.load text).mapError (Failure.records "files.json") = _
    rw [hload]
    rfl
  have hdoubles : ∀ kept, command.Keeps 20 readable kept →
      ∀ file ∈ kept, file.DoublesReadBack := by
    intro kept hkeeps found hmem
    have hkeeps : Command.Keeps 20 readable (.filter "true" "files.json") kept := hkeeps
    cases hkeeps with
    | filter hrecords hquery =>
      cases hread.symm.trans hrecords
      obtain rfl := List.mem_singleton.1 (Query.mem_of_filter hquery found hmem)
      constructor
      · intro x hx
        exact absurd hx (Option.not_mem_none x)
      intro entry hentry
      simp only [file, List.mem_cons, List.not_mem_nil, or_false] at hentry
      rcases hentry with rfl | rfl <;> exact ⟨0, .number trivial⟩
  have hstatus : (Report.ofRequest 20 readable (.run command)).map (·.status) = some 0 := by
    decide +kernel
  obtain ⟨report, hreport, hstatus⟩ := Option.map_eq_some_iff.1 hstatus
  exact ⟨report, hreport, hstatus, Report.load_output rfl hreport hstatus hdoubles⟩

end CommandLine

end SearchScript
