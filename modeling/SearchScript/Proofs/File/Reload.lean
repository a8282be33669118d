import SearchScript.File.Document
import SearchScript.Proofs.Json.Canonical

/-!
# File records loaded again

Records that were loaded are described by documents that can be loaded again. If the members of the
document are sorted on the way, the records come back with the entries of their tags and ratings
sorted by service, and of several entries for one service the last.

## Key definitions

- `FileRecord.Lawful`: what holds of every record
- `FileRecord.Proper`: what holds of every record that was loaded
- `FileRecord.ordered`: the record with its tags and ratings sorted by service

## Key results

- `FileStore.proper_of_load`: records that are loaded are proper
- `FileRecord.read?_canonical`: a proper record is read from its sorted document
-/

namespace SearchScript

namespace FileRecord

/-- What holds of every record that was loaded: its whole numbers fit into 64 bits, the tags of each
service are sorted by status, and its ratings are canonical and leave room for the arrays and
objects around them. -/
structure Proper (file : FileRecord) : Prop where
  id : file.id ≤ Json.maxWhole
  size : ∀ n ∈ file.size, n ≤ Json.maxWhole
  width : ∀ n ∈ file.width, n ≤ Json.maxWhole
  height : ∀ n ∈ file.height, n ≤ Json.maxWhole
  tags : ∀ entry ∈ file.tags,
    entry.2.storage.names.Pairwise (· < ·) ∧ entry.2.display.names.Pairwise (· < ·)
  ratings : ∀ entry ∈ file.ratings,
    entry.2.canonical = entry.2 ∧ entry.2.Within JsonNumber.InRange 124

/-- What holds of every record: its whole numbers fit into 64 bits, the tags of each service are
sorted by status, and its ratings are canonical documents with numbers of 64 bits. -/
structure Lawful (file : FileRecord) : Prop where
  id : file.id ≤ Json.maxWhole
  size : ∀ n ∈ file.size, n ≤ Json.maxWhole
  width : ∀ n ∈ file.width, n ≤ Json.maxWhole
  height : ∀ n ∈ file.height, n ≤ Json.maxWhole
  tags : ∀ entry ∈ file.tags,
    entry.2.storage.names.Pairwise (· < ·) ∧ entry.2.display.names.Pairwise (· < ·)
  ratings : ∀ entry ∈ file.ratings,
    entry.2.canonical = entry.2 ∧ ∃ n, entry.2.Within JsonNumber.InRange n

/-- Whether at most so many arrays and objects stand inside each other in the ratings. -/
def RatingsWithin (file : FileRecord) (n : Nat) : Prop :=
  ∀ entry ∈ file.ratings, entry.2.Within (fun _ => True) n

/-- The record with its tags and ratings sorted by service; the last of several entries for one
service counts. -/
def ordered (file : FileRecord) : FileRecord :=
  { file with tags := Table.ofEntries file.tags, ratings := Table.ofEntries file.ratings }

theorem Proper.lawful {file : FileRecord} (h : file.Proper) : file.Lawful :=
  { h with ratings := fun entry hmem => ⟨(h.ratings entry hmem).1, _, (h.ratings entry hmem).2⟩ }

theorem Proper.ratingsWithin {file : FileRecord} (h : file.Proper) : file.RatingsWithin 124 :=
  fun entry hmem => (h.ratings entry hmem).2.and (h.ratings entry hmem).2 fun _ _ _ => trivial

/-! ## Loading -/

variable {α : Type} {read? : Json → Option α} {default x : α} {json : Json} {n : Nat}
  {P : JsonNumber → Prop}

theorem mem_of_mapM_eq_some {α β : Type} {f : α → Option β} {l : List α} {l' : List β}
    (h : l.mapM f = some l') : ∀ b ∈ l', ∃ a ∈ l, f a = some b := by
  induction l generalizing l' with
  | nil =>
    cases h
    exact List.forall_mem_nil _
  | cons a rest ih =>
    rw [List.mapM_cons] at h
    obtain ⟨b, hb, h⟩ := Option.bind_eq_some_iff.1 h
    obtain ⟨bs, hbs, h⟩ := Option.bind_eq_some_iff.1 h
    cases h
    refine List.forall_mem_cons.2 ⟨⟨a, List.mem_cons_self, hb⟩, fun b hmem => ?_⟩
    obtain ⟨a', ha', hb'⟩ := ih hbs b hmem
    exact ⟨a', List.mem_cons_of_mem a ha', hb'⟩

theorem property?_mem {members : List (String × Json)} {name : String} {value : Json}
    (h : property? members name = some (some value)) : (name, value) ∈ members := by
  unfold property? at h
  split at h
  · cases h
  · next found value' hfilter =>
    cases h
    have hmem : (found, value) ∈ members.filter (·.1 == name) := by
      rw [hfilter]
      exact List.mem_singleton.2 rfl
    obtain ⟨hmem, hname⟩ := List.mem_filter.1 hmem
    rw [← beq_iff_eq.1 hname]
    exact hmem
  · cases h

/-- The properties of a document are nested less deep than it. -/
theorem within_of_properties? {names : List String} {values : List (Option Json)}
    (h : properties? names json = some values) (hjson : json.Within P (n + 1)) :
    ∀ value ∈ values, ∀ v ∈ value, v.Within P n := by
  intro value hmem v hv
  cases hv
  unfold properties? at h
  split at h
  · obtain ⟨name, -, hproperty⟩ := mem_of_mapM_eq_some h _ hmem
    cases hjson with
    | object hmembers => exact hmembers _ (property?_mem hproperty)
  · split at h
    · cases h
    · cases h
      cases hjson with
      | array hitems =>
        rcases List.mem_append.1 hmem with hmem | hmem
        · obtain ⟨item, hitem, heq⟩ := List.mem_map.1 hmem
          cases heq
          exact hitems _ hitem
        · cases List.eq_of_mem_replicate hmem
  · cases h

theorem readProperty?_eq_some {value : Option Json}
    (h : readProperty? read? default value = some x) :
    x = default ∨ ∃ v ∈ value, read? v = some x := by
  unfold readProperty? at h
  split at h
  · cases h
    exact .inl rfl
  · exact .inr ⟨_, rfl, h⟩

theorem readNatural?_le {m : Nat} (h : readNatural? json = some m)
    (hjson : json.Within JsonNumber.InRange n) : m ≤ Json.maxWhole := by
  unfold readNatural? at h
  split at h
  · cases h
    cases hjson with
    | number hrange => exact hrange
  · cases h

theorem readOptional?_natural_le {m? : Option Nat} (h : readOptional? readNatural? json = some m?)
    (hjson : json.Within JsonNumber.InRange n) : ∀ m ∈ m?, m ≤ Json.maxWhole := by
  unfold readOptional? at h
  split at h
  · cases h
    intro m hm
    cases hm
  · obtain ⟨m', hm', rfl⟩ := Option.map_eq_some_iff.1 h
    intro m hm
    cases hm
    exact readNatural?_le hm' hjson

theorem readMembers?_eq_some {entries : List (String × α)}
    (h : readMembers? read? json = some entries) :
    ∃ members, json = .object members ∧
      ∀ entry ∈ entries, ∃ value, (entry.1, value) ∈ members ∧ read? value = some entry.2 := by
  unfold readMembers? at h
  split at h
  · next members =>
    refine ⟨members, rfl, fun entry hmem => ?_⟩
    obtain ⟨⟨name, value⟩, hmember, heq⟩ := mem_of_mapM_eq_some h entry hmem
    obtain ⟨x, hx, rfl⟩ := Option.map_eq_some_iff.1 heq
    exact ⟨value, hmember, hx⟩
  · cases h

theorem pairwise_of_readStatusTags? {tags : Table (List String)}
    (h : readStatusTags? json = some tags) : tags.names.Pairwise (· < ·) := by
  obtain ⟨entries, -, rfl⟩ := Option.map_eq_some_iff.1 h
  exact Table.pairwise_names_ofEntries entries

theorem pairwise_of_readService? {service : ServiceTags} (h : readService? json = some service) :
    service.storage.names.Pairwise (· < ·) ∧ service.display.names.Pairwise (· < ·) := by
  have hproperty : ∀ {value : Option Json} {tags : Table (List String)},
      readProperty? readStatusTags? [] value = some tags → tags.names.Pairwise (· < ·) := by
    intro value tags h
    rcases readProperty?_eq_some h with rfl | ⟨v, -, hv⟩
    · exact List.Pairwise.nil
    · exact pairwise_of_readStatusTags? hv
  unfold readService? at h
  obtain ⟨values, -, h⟩ := Option.bind_eq_some_iff.1 h
  split at h
  · obtain ⟨storage, hstorage, h⟩ := Option.bind_eq_some_iff.1 h
    obtain ⟨display, hdisplay, h⟩ := Option.bind_eq_some_iff.1 h
    cases h
    exact ⟨hproperty hstorage, hproperty hdisplay⟩
  · cases h

/-- A property that is a natural number or absent fits into 64 bits. -/
theorem readProperty?_natural_le {value : Option Json} {m? : Option Nat}
    (h : readProperty? (readOptional? readNatural?) none value = some m?)
    (hvalue : ∀ v ∈ value, v.Within JsonNumber.InRange n) : ∀ m ∈ m?, m ≤ Json.maxWhole := by
  rcases readProperty?_eq_some h with rfl | ⟨v, hv, hread⟩
  · intro m hm
    cases hm
  · exact readOptional?_natural_le hread (hvalue v hv)

/-- A record that is read from a document is lawful, and its ratings are nested two levels less deep
than the document. -/
theorem lawful_of_read? {file : FileRecord} (h : FileRecord.read? json = some file)
    (hjson : json.Within JsonNumber.InRange (n + 2)) : file.Lawful ∧ file.RatingsWithin n := by
  unfold FileRecord.read? at h
  obtain ⟨values, hvalues, h⟩ := Option.bind_eq_some_iff.1 h
  have hwithin := within_of_properties? hvalues hjson
  split at h
  case h_2 => cases h
  next id hash size mime width height duration urls tags ratings =>
  -- the numbers come from properties one level down, the ratings from another one below
  simp only [List.forall_mem_cons] at hwithin
  obtain ⟨hid, -, hsize, -, hwidth, hheight, -, -, -, hratings, -⟩ := hwithin
  obtain ⟨id', hid', h⟩ := Option.bind_eq_some_iff.1 h
  obtain ⟨hash', -, h⟩ := Option.bind_eq_some_iff.1 h
  obtain ⟨size', hsize', h⟩ := Option.bind_eq_some_iff.1 h
  obtain ⟨mime', -, h⟩ := Option.bind_eq_some_iff.1 h
  obtain ⟨width', hwidth', h⟩ := Option.bind_eq_some_iff.1 h
  obtain ⟨height', hheight', h⟩ := Option.bind_eq_some_iff.1 h
  obtain ⟨duration', -, h⟩ := Option.bind_eq_some_iff.1 h
  obtain ⟨urls', -, h⟩ := Option.bind_eq_some_iff.1 h
  obtain ⟨tags', htags', h⟩ := Option.bind_eq_some_iff.1 h
  obtain ⟨ratings', hratings', h⟩ := Option.bind_eq_some_iff.1 h
  cases h
  -- ratings are kept as they are read, up to the order of their members
  have hread : ∀ entry ∈ ratings',
      entry.2.canonical = entry.2 ∧ entry.2.Within JsonNumber.InRange n := by
    rcases readProperty?_eq_some hratings' with rfl | ⟨v, hv, hread⟩
    · exact List.forall_mem_nil _
    · obtain ⟨members, rfl, hmembers⟩ := readMembers?_eq_some hread
      intro entry hmem
      obtain ⟨value, hmember, hvalue⟩ := hmembers entry hmem
      have hinner : value.Within JsonNumber.InRange n := by
        cases hratings _ hv with
        | object hall => exact hall _ hmember
      rw [← Option.some.inj hvalue]
      exact ⟨Json.canonical_canonical value, hinner.canonical⟩
  refine ⟨?_, fun entry hmem => (hread entry hmem).2.and (hread entry hmem).2 fun _ _ _ => trivial⟩
  constructor
  case id =>
    rcases readProperty?_eq_some hid' with rfl | ⟨v, hv, hread⟩
    · exact Nat.zero_le _
    · exact readNatural?_le hread (hid v hv)
  case size => exact readProperty?_natural_le hsize' hsize
  case width => exact readProperty?_natural_le hwidth' hwidth
  case height => exact readProperty?_natural_le hheight' hheight
  case tags =>
    rcases readProperty?_eq_some htags' with rfl | ⟨v, -, hread⟩
    · exact List.forall_mem_nil _
    · obtain ⟨members, -, hmembers⟩ := readMembers?_eq_some hread
      intro entry hmem
      obtain ⟨value, -, hservice⟩ := hmembers entry hmem
      exact pairwise_of_readService? hservice
  case ratings => exact fun entry hmem => ⟨(hread entry hmem).1, n, (hread entry hmem).2⟩

/-- A record that is read from a document within the bounds of the reader is proper. -/
theorem proper_of_read? {file : FileRecord} (h : FileRecord.read? json = some file)
    (hjson : json.Within JsonNumber.InRange 126) : file.Proper := by
  obtain ⟨hlawful, hwithin⟩ := lawful_of_read? h hjson
  refine { hlawful with ratings := fun entry hmem => ?_ }
  obtain ⟨hcanonical, m, hm⟩ := hlawful.ratings entry hmem
  exact ⟨hcanonical, (hwithin entry hmem).and hm fun _ _ hx => hx⟩

/-! ## Reading the sorted document -/

variable {file : FileRecord}

theorem canonical_writeOptional {write : α → Json}
    (hwrite : ∀ x, (write x).canonical = write x) (x? : Option α) :
    (writeOptional write x?).canonical = writeOptional write x? := by
  cases x? with
  | none => rfl
  | some x => exact hwrite x

theorem canonical_writeTexts (texts : List String) :
    (writeTexts texts).canonical = writeTexts texts := by
  rw [writeTexts, Json.canonical, Json.canonicalItems_eq_map, List.map_map]
  rfl

/-- What is written for the tags of a record. -/
def tagsDocument (file : FileRecord) : Json :=
  .object (file.tags.map fun (key, service) => (key, writeService service))

theorem canonical_toJson (file : FileRecord) : file.toJson.canonical = .object
    [("duration", writeOptional (fun x => .number (.double x)) file.duration),
      ("file_id", writeNatural file.id),
      ("hash", .string file.hash),
      ("height", writeOptional writeNatural file.height),
      ("known_urls", writeTexts file.urls),
      ("mime", writeOptional .string file.mime),
      ("ratings", (Json.object file.ratings).canonical),
      ("size", writeOptional writeNatural file.size),
      ("tags", file.tagsDocument.canonical),
      ("width", writeOptional writeNatural file.width)] := by
  have hnatural : ∀ n, (writeNatural n).canonical = writeNatural n := fun _ => rfl
  have hstring : ∀ s, (Json.string s).canonical = .string s := fun _ => rfl
  have hdouble : ∀ x, (Json.number (.double x)).canonical = .number (.double x) := fun _ => rfl
  rw [toJson, Json.canonical_object]
  simp only [Table.ofEntries, List.foldl_cons, List.foldl_nil, Table.insert, reduceIte,
    String.reduceEq, String.reduceLT, List.map_cons, List.map_nil, hnatural, hstring,
    canonical_writeOptional hnatural, canonical_writeOptional hstring,
    canonical_writeOptional hdouble, canonical_writeTexts, tagsDocument]

theorem readOptional?_writeOptional {write : α → Json} (hread : ∀ x, read? (write x) = some x)
    (hnull : ∀ x, write x ≠ .null) (x? : Option α) :
    readOptional? read? (writeOptional write x?) = some x? := by
  cases x? with
  | none => rfl
  | some x =>
    rw [writeOptional, readOptional?, hread]
    · rfl
    · exact hnull x

theorem readTexts?_writeTexts (texts : List String) :
    readTexts? (writeTexts texts) = some texts := by
  rw [writeTexts, readTexts?]
  induction texts with
  | nil => rfl
  | cons text texts ih =>
    rw [List.map_cons, List.mapM_cons, ih]
    rfl

theorem properties?_canonical (file : FileRecord) :
    properties? propertyNames file.toJson.canonical =
      some [some (writeNatural file.id), some (.string file.hash),
        some (writeOptional writeNatural file.size), some (writeOptional .string file.mime),
        some (writeOptional writeNatural file.width), some (writeOptional writeNatural file.height),
        some (writeOptional (fun x => .number (.double x)) file.duration),
        some (writeTexts file.urls),
        some file.tagsDocument.canonical,
        some (Json.object file.ratings).canonical] := by
  rw [canonical_toJson]
  simp [properties?, propertyNames, property?]

/-- Entries that are written as a sorted object are read back sorted, the last one for each name. -/
theorem readMembers?_canonical (read? : Json → Option α) (write : α → Json)
    {entries : List (String × α)}
    (hread : ∀ entry ∈ entries, read? (write entry.2).canonical = some entry.2) :
    readMembers? read? (Json.object (entries.map fun entry => (entry.1, write entry.2))).canonical =
      some (Table.ofEntries entries) := by
  have htable : ∀ entry ∈ Table.ofEntries entries, read? (write entry.2).canonical = some entry.2 :=
    fun entry hmem => hread entry (Table.mem_of_mem_ofEntries hmem)
  rw [Json.canonical_object, Table.ofEntries_map, readMembers?, List.map_map]
  generalize Table.ofEntries entries = table at htable
  induction table with
  | nil => rfl
  | cons entry rest ih =>
    obtain ⟨hentry, hrest⟩ := List.forall_mem_cons.1 htable
    rw [List.map_cons, List.mapM_cons, ih hrest]
    dsimp only [Function.comp_apply]
    rw [hentry]
    rfl

theorem readStatusTags?_canonical {tags : Table (List String)}
    (h : tags.names.Pairwise (· < ·)) :
    readStatusTags? (writeStatusTags tags).canonical = some tags := by
  have hread : ∀ entry ∈ tags, readTexts? (writeTexts entry.2).canonical = some entry.2 := by
    intro entry _
    rw [canonical_writeTexts, readTexts?_writeTexts]
  rw [readStatusTags?, writeStatusTags, readMembers?_canonical readTexts? writeTexts hread,
    Option.map_some, Table.ofEntries_eq_self_iff.2 h, Table.ofEntries_eq_self_iff.2 h]

theorem readService?_canonical {service : ServiceTags}
    (hstorage : service.storage.names.Pairwise (· < ·))
    (hdisplay : service.display.names.Pairwise (· < ·)) :
    readService? (writeService service).canonical = some service := by
  have hproperties : properties? ["storage_tags", "display_tags"] (writeService service).canonical =
      some [some (writeStatusTags service.storage).canonical,
        some (writeStatusTags service.display).canonical] := by
    have hsorted (storage display : Json) :
        Table.ofEntries [("storage_tags", storage), ("display_tags", display)] =
          [("display_tags", display), ("storage_tags", storage)] := rfl
    rw [writeService, Json.canonical_object, hsorted]
    simp [properties?, property?]
  rw [readService?, hproperties]
  simp [readProperty?, readStatusTags?_canonical hstorage, readStatusTags?_canonical hdisplay]

/-- A record is read back from its sorted document, with its tags and ratings sorted by service. -/
theorem read?_canonical (h : file.Proper) :
    FileRecord.read? file.toJson.canonical = some file.ordered := by
  have hnatural : ∀ n, readNatural? (writeNatural n) = some n := fun _ => rfl
  have hsize := readOptional?_writeOptional hnatural fun _ => nofun
  have hmime : ∀ x?, readOptional? Json.text? (writeOptional .string x?) = some x? :=
    readOptional?_writeOptional (fun _ => rfl) fun _ => nofun
  have hduration : ∀ x?, readOptional? readNumber?
      (writeOptional (fun x => .number (.double x)) x?) = some x? :=
    readOptional?_writeOptional (fun _ => rfl) fun _ => nofun
  have htags : readMembers? readService? file.tagsDocument.canonical =
      some (Table.ofEntries file.tags) :=
    readMembers?_canonical readService? writeService fun entry hmem =>
      readService?_canonical (h.tags entry hmem).1 (h.tags entry hmem).2
  have hratings : readMembers? (fun json => some json.canonical)
      (Json.object file.ratings).canonical = some (Table.ofEntries file.ratings) := by
    have hsame : file.ratings.map (fun entry => (entry.1, entry.2)) = file.ratings := List.map_id _
    have hread : ∀ entry ∈ file.ratings, some entry.2.canonical.canonical = some entry.2 := by
      intro entry hmem
      rw [Json.canonical_canonical, (h.ratings entry hmem).1]
    have hratings :=
      readMembers?_canonical (fun json => some json.canonical) (fun json => json) hread
    rwa [hsame] at hratings
  rw [FileRecord.read?, properties?_canonical]
  simp [readProperty?, hsize, hmime, hduration, htags, hratings, readTexts?_writeTexts, hnatural,
    Json.text?, ordered]

/-! ## Documents that are read back -/

/-- Whether the doubles of a record are read back: its duration, and those in its ratings. -/
structure DoublesReadBack (file : FileRecord) : Prop where
  duration : ∀ x ∈ file.duration, (JsonNumber.double x).ReadsBack
  ratings : ∀ entry ∈ file.ratings, ∃ n, entry.2.Within JsonNumber.ReadsBackIfDouble n

theorem within_writeOptional {write : α → Json} {x? : Option α}
    (h : ∀ x ∈ x?, (write x).Within P n) : (writeOptional write x?).Within P n := by
  cases x? with
  | none => exact .null
  | some x => exact h x rfl

theorem within_writeNatural {m : Nat} (h : m ≤ Json.maxWhole) :
    (writeNatural m).Within JsonNumber.ReadsBack n :=
  .number (JsonNumber.readsBack_natural h)

theorem within_writeTexts (texts : List String) : (writeTexts texts).Within P (n + 1) := by
  apply Json.Within.array
  intro item hmem
  obtain ⟨text, -, rfl⟩ := List.mem_map.1 hmem
  exact .string

theorem within_writeStatusTags (tags : Table (List String)) :
    (writeStatusTags tags).Within P (n + 2) := by
  apply Json.Within.object
  intro member hmem
  obtain ⟨entry, -, rfl⟩ := List.mem_map.1 hmem
  exact within_writeTexts entry.2

theorem within_writeService (service : ServiceTags) : (writeService service).Within P (n + 3) := by
  apply Json.Within.object
  simp only [List.forall_mem_cons]
  exact ⟨within_writeStatusTags _, within_writeStatusTags _, List.forall_mem_nil _⟩

/-- The document of a record is read back from its text if its doubles are. It is nested two levels
deeper than its ratings, and five levels deep for its tags. -/
theorem Lawful.within_toJson {n : Nat} (h : file.Lawful) (hdoubles : file.DoublesReadBack)
    (hratings : file.RatingsWithin (n + 3)) : file.toJson.Within JsonNumber.ReadsBack (n + 5) := by
  have htags : file.tagsDocument.Within JsonNumber.ReadsBack (n + 4) := by
    apply Json.Within.object
    intro member hmem
    obtain ⟨entry, -, rfl⟩ := List.mem_map.1 hmem
    exact within_writeService entry.2
  have hratings : (Json.object file.ratings).Within JsonNumber.ReadsBack (n + 4) := by
    apply Json.Within.object
    intro entry hmem
    obtain ⟨m, hm⟩ := (h.ratings entry hmem).2
    obtain ⟨k, hk⟩ := hdoubles.ratings entry hmem
    exact ((hratings entry hmem).and hm fun _ _ hx => hx).and hk fun _ =>
      JsonNumber.readsBack_of_inRange
  apply Json.Within.object
  simp only [List.forall_mem_cons]
  exact ⟨within_writeNatural h.id, .string,
    within_writeOptional fun n hn => within_writeNatural (h.size n hn),
    within_writeOptional fun _ _ => .string,
    within_writeOptional fun n hn => within_writeNatural (h.width n hn),
    within_writeOptional fun n hn => within_writeNatural (h.height n hn),
    within_writeOptional fun x hx => .number (hdoubles.duration x hx),
    within_writeTexts _, htags, hratings, List.forall_mem_nil _⟩

/-- The document of a proper record is read back if its doubles are. -/
theorem within_toJson (h : file.Proper) (hdoubles : file.DoublesReadBack) :
    file.toJson.Within JsonNumber.ReadsBack 126 :=
  h.lawful.within_toJson hdoubles h.ratingsWithin

/-- Whether the tags and ratings of a record are sorted by service, each service once. -/
structure InOrder (file : FileRecord) : Prop where
  tags : (Table.names file.tags).Pairwise (· < ·)
  ratings : (Table.names file.ratings).Pairwise (· < ·)

theorem ordered_eq_self_iff : file.ordered = file ↔ file.InOrder := by
  constructor
  · intro h
    exact ⟨Table.ofEntries_eq_self_iff.1 (congrArg tags h),
      Table.ofEntries_eq_self_iff.1 (congrArg ratings h)⟩
  · intro h
    rw [ordered, Table.ofEntries_eq_self_iff.2 h.tags, Table.ofEntries_eq_self_iff.2 h.ratings]

end FileRecord

namespace FileStore

variable {files : FileStore} {json : Json} {text : String}

/-- Records that are read from a document within the bounds of the reader are proper. -/
theorem proper_of_read? (h : FileStore.read? json = some files)
    (hjson : json.Within JsonNumber.InRange 127) : ∀ file ∈ files, file.Proper := by
  unfold FileStore.read? at h
  split at h
  · next items =>
    cases hjson with
    | array hitems =>
      intro file hmem
      obtain ⟨item, hitem, hread⟩ := FileRecord.mem_of_mapM_eq_some h file hmem
      exact FileRecord.proper_of_read? hread (hitems item hitem)
  · next members =>
    obtain ⟨value, hvalue, h⟩ := Option.bind_eq_some_iff.1 h
    split at h
    · next items =>
      cases hjson with
      | object hmembers =>
        have harray := hmembers _ (FileRecord.property?_mem hvalue)
        cases harray with
        | array hitems =>
          intro file hmem
          obtain ⟨item, hitem, hread⟩ := FileRecord.mem_of_mapM_eq_some h file hmem
          exact FileRecord.proper_of_read? hread ((hitems item hitem).mono (by decide))
    · cases h
  · cases h

/-- Records that are loaded are proper. -/
theorem proper_of_load (h : FileStore.load text = .ok files) : ∀ file ∈ files, file.Proper := by
  unfold FileStore.load at h
  dsimp only at h
  split at h
  · cases h
  · next json rest hfront =>
    split at h
    · cases h
    · next hread =>
      split at h
      · cases h
        exact proper_of_read? hread (Json.within_of_readFront hfront)
      · cases h

/-- Proper records whose sorted documents are printed are loaded sorted by service. -/
theorem load_pretty_canonical (hproper : ∀ file ∈ files, file.Proper)
    (hdoubles : ∀ file ∈ files, file.DoublesReadBack) :
    FileStore.load ((Json.array (files.map fun file => file.toJson.canonical)).pretty ++ "\n") =
      .ok (files.map FileRecord.ordered) := by
  have hwithin : (Json.array (files.map fun file => file.toJson.canonical)).Within
      JsonNumber.ReadsBack 127 := by
    apply Json.Within.array
    intro json hmem
    obtain ⟨file, hfile, rfl⟩ := List.mem_map.1 hmem
    exact (FileRecord.within_toJson (hproper file hfile) (hdoubles file hfile)).canonical
  -- the line feed at the end belongs to no number
  have hend : Json.NotInNumber ['\n'] := by
    intro c cs h
    cases h
    decide
  have hread : FileStore.read? (.array (files.map fun file => file.toJson.canonical)) =
      some (files.map FileRecord.ordered) := by
    rw [FileStore.read?]
    clear hwithin hdoubles
    induction files with
    | nil => rfl
    | cons file rest ih =>
      obtain ⟨hfile, hrest⟩ := List.forall_mem_cons.1 hproper
      rw [List.map_cons, List.mapM_cons, FileRecord.read?_canonical hfile, ih hrest]
      rfl
  have hfront := Json.readFront_pretty hwithin (by decide) hend
  have hline : String.ofList ['\n'] = "\n" := rfl
  rw [hline] at hfront
  unfold FileStore.load
  dsimp only
  rw [hfront]
  dsimp only
  rw [hread]
  rfl

end FileStore

end SearchScript
