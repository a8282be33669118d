import SearchScript.Proofs.File.Reload

/-!
# File records written and loaded

Records are written as a document with all their properties, in which the tags and ratings keep
their order and may repeat a service, and they are read back from it as they were. The text of the
document is loaded unless it is nested deeper than the reader allows: of the 127 arrays and objects
that may stand inside each other, three are around each rating, and a fourth if the records are
wrapped as the member `metadata` of an object.

## Key definitions

- `FileStore.wrapped`: the document with the records as a member

## Key results

- `FileRecord.read?_toJson`: a record is read from its document
- `FileStore.load_toJson_iff`, `FileStore.load_wrapped_iff`: when records are loaded, as they stand
  and wrapped
- `FileStore.load_written`: both, on one line or over several
-/

namespace SearchScript

namespace FileRecord

variable {α : Type} {read? : Json → Option α} {write : α → Json} {file : FileRecord} {n : Nat}

/-! ## Reading the document of a record -/

/-- Entries that are written as an object are read back as they were. -/
theorem readMembers?_map {entries : List (String × α)}
    (hread : ∀ entry ∈ entries, read? (write entry.2) = some entry.2) :
    readMembers? read? (.object (entries.map fun entry => (entry.1, write entry.2))) =
      some entries := by
  rw [readMembers?]
  induction entries with
  | nil => rfl
  | cons entry rest ih =>
    obtain ⟨hentry, hrest⟩ := List.forall_mem_cons.1 hread
    rw [List.map_cons, List.mapM_cons, ih hrest]
    dsimp only
    rw [hentry]
    rfl

theorem readStatusTags?_writeStatusTags {tags : Table (List String)}
    (h : tags.names.Pairwise (· < ·)) : readStatusTags? (writeStatusTags tags) = some tags := by
  have hread : readMembers? readTexts? (writeStatusTags tags) = some tags :=
    readMembers?_map fun entry _ => readTexts?_writeTexts entry.2
  rw [readStatusTags?, hread, Option.map_some, Table.ofEntries_eq_self_iff.2 h]

theorem readService?_writeService {service : ServiceTags}
    (hstorage : service.storage.names.Pairwise (· < ·))
    (hdisplay : service.display.names.Pairwise (· < ·)) :
    readService? (writeService service) = some service := by
  have hproperties : properties? ["storage_tags", "display_tags"] (writeService service) =
      some [some (writeStatusTags service.storage), some (writeStatusTags service.display)] := by
    simp [writeService, properties?, property?]
  rw [readService?, hproperties]
  simp [readProperty?, readStatusTags?_writeStatusTags hstorage,
    readStatusTags?_writeStatusTags hdisplay]

theorem properties?_toJson (file : FileRecord) :
    properties? propertyNames file.toJson =
      some [some (writeNatural file.id), some (.string file.hash),
        some (writeOptional writeNatural file.size), some (writeOptional .string file.mime),
        some (writeOptional writeNatural file.width), some (writeOptional writeNatural file.height),
        some (writeOptional (fun x => .number (.double x)) file.duration),
        some (writeTexts file.urls), some file.tagsDocument, some (.object file.ratings)] := by
  simp [properties?, propertyNames, property?, toJson, tagsDocument]

/-- A record is read back from the document that is written for it. -/
theorem read?_toJson (h : file.Lawful) : FileRecord.read? file.toJson = some file := by
  have hnatural : ∀ n, readNatural? (writeNatural n) = some n := fun _ => rfl
  have hsize := readOptional?_writeOptional hnatural fun _ => nofun
  have hmime : ∀ x?, readOptional? Json.text? (writeOptional .string x?) = some x? :=
    readOptional?_writeOptional (fun _ => rfl) fun _ => nofun
  have hduration : ∀ x?, readOptional? readNumber?
      (writeOptional (fun x => .number (.double x)) x?) = some x? :=
    readOptional?_writeOptional (fun _ => rfl) fun _ => nofun
  -- tags come back since their statuses are in order, ratings since they are canonical
  have htags : readMembers? readService? file.tagsDocument = some file.tags :=
    readMembers?_map fun entry hmem =>
      readService?_writeService (h.tags entry hmem).1 (h.tags entry hmem).2
  have hratings : readMembers? (fun json => some json.canonical) (.object file.ratings) =
      some file.ratings := by
    have hsame : file.ratings.map (fun entry => (entry.1, entry.2)) = file.ratings := List.map_id _
    have hread : ∀ entry ∈ file.ratings, some entry.2.canonical = some entry.2 :=
      fun entry hmem => congrArg some (h.ratings entry hmem).1
    have hratings :=
      @readMembers?_map _ (fun json => some json.canonical) (fun json => json) _ hread
    rwa [hsame] at hratings
  rw [FileRecord.read?, properties?_toJson]
  simp [readProperty?, hsize, hmime, hduration, htags, hratings, readTexts?_writeTexts, hnatural,
    Json.text?]

end FileRecord

namespace Json

variable {fuel depth : Nat} {cs left : List Char} {value : Json}

/-- What starts with a brace is an object. -/
theorem exists_object_of_readValue (h : readValue fuel depth ('\x7b' :: cs) = .ok (value, left)) :
    ∃ members, value = .object members := by
  cases fuel with
  | zero => cases h
  | succ fuel =>
    simp only [readValue, skipSpace, isSpace, List.dropWhile_cons, Char.reduceBEq, Bool.or_self,
      Bool.false_eq_true, reduceIte] at h
    split at h
    · cases h
    · obtain ⟨⟨members, rest⟩, -, h⟩ := Except.bind_eq_ok_iff.1 h
      cases h
      exact ⟨members, rfl⟩

/-- Arrays inside each other. -/
def nested : Nat → Json
  | 0 => .null
  | n + 1 => .array [nested n]

theorem canonical_nested (n : Nat) : (nested n).canonical = nested n := by
  induction n with
  | zero => rfl
  | succ n ih => rw [nested, canonical, canonicalItems, canonicalItems, ih]

theorem within_nested_iff {P : JsonNumber → Prop} {n m : Nat} : (nested n).Within P m ↔ n ≤ m := by
  constructor
  · intro h
    induction n generalizing m with
    | zero => exact Nat.zero_le m
    | succ n ih =>
      cases h with
      | array hitems => exact Nat.succ_le_succ (ih (hitems _ (List.mem_singleton.2 rfl)))
  · intro h
    induction n generalizing m with
    | zero => exact .null
    | succ n ih =>
      cases m with
      | zero => exact absurd h (Nat.not_succ_le_zero n)
      | succ m => exact .array (List.forall_mem_singleton.2 (ih (Nat.le_of_succ_le_succ h)))

end Json

namespace FileStore

/-- The document with the records as a member. -/
def wrapped (files : FileStore) : Json := .object [("metadata", files.toJson)]

variable {files : FileStore} {n : Nat} {json : Json} {text : String} {style : Json.Style}

theorem mapM_read?_toJson (h : ∀ file ∈ files, file.Lawful) :
    (files.map FileRecord.toJson).mapM FileRecord.read? = some files := by
  induction files with
  | nil => rfl
  | cons file rest ih =>
    obtain ⟨hfile, hrest⟩ := List.forall_mem_cons.1 h
    rw [List.map_cons, List.mapM_cons, ih hrest, FileRecord.read?_toJson hfile]
    rfl

theorem read?_toJson (h : ∀ file ∈ files, file.Lawful) :
    FileStore.read? files.toJson = some files :=
  mapM_read?_toJson h

theorem read?_wrapped (h : ∀ file ∈ files, file.Lawful) :
    FileStore.read? files.wrapped = some files := by
  simp [wrapped, FileStore.read?, FileRecord.property?, toJson, mapM_read?_toJson h]

/-- The document of records is read back from its text if their doubles are. It is nested three
levels deeper than their ratings, and six levels deep for their tags. -/
theorem within_toJson (h : ∀ file ∈ files, file.Lawful)
    (hdoubles : ∀ file ∈ files, file.DoublesReadBack)
    (hratings : ∀ file ∈ files, file.RatingsWithin (n + 3)) :
    files.toJson.Within JsonNumber.ReadsBack (n + 6) := by
  apply Json.Within.array
  intro json hmem
  obtain ⟨file, hfile, rfl⟩ := List.mem_map.1 hmem
  exact (h file hfile).within_toJson (hdoubles file hfile) (hratings file hfile)

/-- A text that is written for a document of records is loaded as these records. -/
theorem load_write (hjson : json.Within JsonNumber.ReadsBack 127)
    (hread : FileStore.read? json = some files) (htext : text.toList = Json.write style 0 json) :
    FileStore.load text = .ok files := by
  have hfront : Json.readFront text = .ok (json, []) :=
    Json.readFront_write style 0 hjson (by decide) Json.notInNumber_nil (by simp [htext])
  unfold FileStore.load
  dsimp only
  rw [hfront]
  dsimp only
  rw [hread]
  rfl

/-- What is loaded was read from the front of the text. -/
theorem exists_of_load (h : FileStore.load text = .ok files) :
    ∃ json rest, Json.readFront text = .ok (json, rest) ∧ FileStore.read? json = some files := by
  unfold FileStore.load at h
  dsimp only at h
  split at h
  · cases h
  · next json rest hfront =>
    split at h
    · cases h
    · next hread =>
      split at h
      · cases h
        exact ⟨json, rest, hfront, hread⟩
      · cases h

/-- Records are loaded from their text if and only if their ratings leave room for the three arrays
and objects around each. -/
theorem load_toJson_iff (h : ∀ file ∈ files, file.Lawful)
    (hdoubles : ∀ file ∈ files, file.DoublesReadBack)
    (htext : text.toList = Json.write style 0 files.toJson) :
    FileStore.load text = .ok files ↔ ∀ file ∈ files, file.RatingsWithin 124 := by
  constructor
  · -- of the 127 levels that are read, the list, a record and its ratings take three
    exact fun hload file hmem => (proper_of_load hload file hmem).ratingsWithin
  · exact fun hratings => load_write (within_toJson h hdoubles hratings) (read?_toJson h) htext

/-- What is read from an object is nested four levels less deep than it. -/
theorem ratingsWithin_of_read?_object {members : List (String × Json)}
    (h : FileStore.read? (.object members) = some files)
    (hjson : (Json.object members).Within JsonNumber.InRange (n + 4)) :
    ∀ file ∈ files, file.RatingsWithin n := by
  rw [FileStore.read?] at h
  obtain ⟨value, hvalue, h⟩ := Option.bind_eq_some_iff.1 h
  split at h
  · next items =>
    cases hjson with
    | object hmembers =>
      have harray := hmembers _ (FileRecord.property?_mem hvalue)
      cases harray with
      | array hitems =>
        intro file hmem
        obtain ⟨item, hitem, hread⟩ := FileRecord.mem_of_mapM_eq_some h file hmem
        exact (FileRecord.lawful_of_read? hread (hitems item hitem)).2
  · cases h

/-- Wrapped records are loaded from their text if and only if their ratings leave room for the four
arrays and objects around each. -/
theorem load_wrapped_iff (h : ∀ file ∈ files, file.Lawful)
    (hdoubles : ∀ file ∈ files, file.DoublesReadBack)
    (htext : text.toList = Json.write style 0 files.wrapped) :
    FileStore.load text = .ok files ↔ ∀ file ∈ files, file.RatingsWithin 123 := by
  constructor
  · intro hload
    obtain ⟨json, rest, hfront, hread⟩ := exists_of_load hload
    have hwithin := Json.within_of_readFront hfront
    -- the text begins with a brace, so whatever was read is an object
    unfold Json.readFront at hfront
    dsimp only at hfront
    rw [htext, wrapped, Json.write] at hfront
    obtain ⟨members, rfl⟩ := Json.exists_object_of_readValue hfront
    exact ratingsWithin_of_read?_object hread hwithin
  · intro hratings
    refine load_write ?_ (read?_wrapped h) htext
    apply Json.Within.object
    rintro member (_ | ⟨_, _ | _⟩)
    exact within_toJson h hdoubles hratings

/-- Records whose doubles are read back are loaded from what is written for them, on one line or
over several: as they stand if and only if their ratings are nested at most 124 levels deep, and
wrapped if and only if they are nested at most 123 levels deep. -/
theorem load_written (h : ∀ file ∈ files, file.Lawful)
    (hdoubles : ∀ file ∈ files, file.DoublesReadBack) :
    (∀ text ∈ [files.toJson.compact, files.toJson.pretty],
      FileStore.load text = .ok files ↔ ∀ file ∈ files, file.RatingsWithin 124) ∧
    (∀ text ∈ [files.wrapped.compact, files.wrapped.pretty],
      FileStore.load text = .ok files ↔ ∀ file ∈ files, file.RatingsWithin 123) := by
  have hwritten : ∀ json : Json, ∀ text ∈ [json.compact, json.pretty],
      ∃ style, text.toList = Json.write style 0 json := by
    simp only [List.forall_mem_cons]
    exact fun json => ⟨⟨_, (Json.write_oneLine 0 json).symm⟩, ⟨_, (Json.write_lines 0 json).symm⟩,
      List.forall_mem_nil _⟩
  constructor
  · intro text hmem
    obtain ⟨style, htext⟩ := hwritten _ text hmem
    exact load_toJson_iff h hdoubles htext
  · intro text hmem
    obtain ⟨style, htext⟩ := hwritten _ text hmem
    exact load_wrapped_iff h hdoubles htext

/-- A record with a duration, and with services in any order, some of them twice, is loaded from
each of the texts. -/
theorem load_written_of_repeated_services :
    let file : FileRecord := {
      id := 7, hash := "h", size := some 12, duration := some (Number.ofNat 90000)
      urls := ["u", "u"]
      tags := [("b", ⟨[("0", ["x"]), ("1", [])], []⟩), ("a", ⟨[], [("0", ["y"])]⟩), ("b", ⟨[], []⟩)]
      ratings := [("z", .number (.natural 5)), ("a", .array [.null, .bool true]), ("z", .null)] }
    let files : FileStore := [file, {}, file]
    ∀ text ∈ [files.toJson.compact, files.toJson.pretty, files.wrapped.compact,
      files.wrapped.pretty], FileStore.load text = .ok files := by
  intro file files
  have hratings : ∀ {P : JsonNumber → Prop}, P (.natural 5) →
      ∀ entry ∈ file.ratings, entry.2.Within P 1 := by
    intro P hP
    simp only [file, List.forall_mem_cons]
    refine ⟨.number hP, .array ?_, .null, List.forall_mem_nil _⟩
    simp only [List.forall_mem_cons]
    exact ⟨.null, .bool, List.forall_mem_nil _⟩
  have hcanonical : ∀ entry ∈ file.ratings, entry.2.canonical = entry.2 := by
    simp only [file, List.forall_mem_cons]
    exact ⟨rfl, rfl, rfl, List.forall_mem_nil _⟩
  -- the only number of the record that is written with a fraction
  have hduration : (JsonNumber.double (Number.ofNat 90000)).ReadsBack := by
    have htext : (JsonNumber.double (Number.ofNat 90000)).text = "90000.0" := by decide +kernel
    have hread : Json.readNumber false "90000.0".toList =
        .ok (.double (Number.ofNat 90000), []) := by decide +kernel
    unfold JsonNumber.ReadsBack Json.readFront
    rw [htext]
    exact (Json.readValue_digit rfl).trans (congrArg _ hread)
  have hfile : file.Lawful := by
    constructor
    case ratings =>
      have hrange : (JsonNumber.natural 5).InRange := (by decide : 5 ≤ Json.maxWhole)
      exact fun entry hmem => ⟨hcanonical entry hmem, 1, hratings hrange entry hmem⟩
    all_goals decide
  have hempty : FileRecord.Lawful {} := by constructor <;> simp
  have hdoubles : file.DoublesReadBack := by
    constructor
    · intro x hx
      have hx : some (Number.ofNat 90000) = some x := hx
      exact Option.some.inj hx ▸ hduration
    · exact fun entry hmem => ⟨1, hratings trivial entry hmem⟩
  have hnone : FileRecord.DoublesReadBack {} := by constructor <;> simp
  have hwithin : ∀ n, ∀ found ∈ files, found.RatingsWithin (n + 1) := by
    intro n
    have hwithin : file.RatingsWithin (n + 1) :=
      fun entry hmem => (hratings trivial entry hmem).mono (Nat.le_add_left 1 n)
    simp only [files, List.forall_mem_cons]
    exact ⟨hwithin, by simp [FileRecord.RatingsWithin], hwithin, List.forall_mem_nil _⟩
  have hlawful : ∀ found ∈ files, found.Lawful := by
    simp only [files, List.forall_mem_cons]
    exact ⟨hfile, hempty, hfile, List.forall_mem_nil _⟩
  have hread : ∀ found ∈ files, found.DoublesReadBack := by
    simp only [files, List.forall_mem_cons]
    exact ⟨hdoubles, hnone, hdoubles, List.forall_mem_nil _⟩
  obtain ⟨hbare, hwrapped⟩ := load_written hlawful hread
  intro text hmem
  have hmem : text ∈ [files.toJson.compact, files.toJson.pretty] ++
      [files.wrapped.compact, files.wrapped.pretty] := hmem
  rcases List.mem_append.1 hmem with hmem | hmem
  · exact (hbare text hmem).2 (hwithin 123)
  · exact (hwrapped text hmem).2 (hwithin 122)

/-- Whether a record is loaded can depend on whether it is wrapped: ratings nested 124 levels deep
are loaded as they stand only. -/
theorem not_load_wrapped_of_nested :
    let files : FileStore := [{ ratings := [("r", .nested 124)] }]
    (∀ file ∈ files, file.Lawful) ∧ (∀ file ∈ files, file.DoublesReadBack) ∧
      FileStore.load files.toJson.compact = .ok files ∧
      FileStore.load files.wrapped.compact ≠ .ok files := by
  intro files
  have hlawful : ∀ file ∈ files, file.Lawful := by
    refine List.forall_mem_singleton.2 ?_
    constructor
    case ratings =>
      refine List.forall_mem_singleton.2 ?_
      exact ⟨Json.canonical_nested 124, 124, Json.within_nested_iff.2 (Nat.le_refl 124)⟩
    all_goals simp
  have hdoubles : ∀ file ∈ files, file.DoublesReadBack := by
    refine List.forall_mem_singleton.2 ?_
    constructor
    case ratings =>
      exact List.forall_mem_singleton.2 ⟨124, Json.within_nested_iff.2 (Nat.le_refl 124)⟩
    all_goals simp
  have hwithin : ∀ n, (∀ file ∈ files, file.RatingsWithin n) ↔ 124 ≤ n := by
    intro n
    rw [List.forall_mem_singleton]
    exact List.forall_mem_singleton.trans Json.within_nested_iff
  refine ⟨hlawful, hdoubles, ?_, ?_⟩
  · rw [load_toJson_iff hlawful hdoubles (Json.write_oneLine 0 _).symm, hwithin]
  · rw [Ne, load_wrapped_iff hlawful hdoubles (Json.write_oneLine 0 _).symm, hwithin]
    decide

end FileStore

end SearchScript
