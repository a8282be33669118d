import SearchScript.Proofs.Json.Layout

/-!
# Documents that were read

The reader makes only documents that it could read again: their whole numbers fit into 64 bits and
they are not nested deeper than the reader allows. Sorting the members of objects changes neither,
and doing it again changes nothing.

## Key results

- `Json.within_of_readFront`: what is read is not nested too deep and its numbers are in range
- `Json.canonical_canonical`: a canonical document is its own canonical form
-/

namespace SearchScript.Json

variable {P Q : JsonNumber → Prop} {n m : Nat} {value : Json}

/-! ## Predicates on the numbers of a document -/

theorem Within.mono (h : value.Within P n) (hle : n ≤ m) : value.Within P m := by
  induction h generalizing m with
  | null => exact .null
  | bool => exact .bool
  | number hx => exact .number hx
  | string => exact .string
  | array _ ih =>
    obtain ⟨m, rfl⟩ := Nat.exists_eq_add_of_le' (Nat.le_trans (Nat.le_add_left 1 _) hle)
    exact .array fun item hitem => ih item hitem (Nat.le_of_succ_le_succ hle)
  | object _ ih =>
    obtain ⟨m, rfl⟩ := Nat.exists_eq_add_of_le' (Nat.le_trans (Nat.le_add_left 1 _) hle)
    exact .object fun member hmember => ih member hmember (Nat.le_of_succ_le_succ hle)

/-- A document whose numbers satisfy two predicates. -/
theorem Within.and {R : JsonNumber → Prop} (hP : value.Within P n) (hQ : value.Within Q m)
    (hR : ∀ x, P x → Q x → R x) : value.Within R n := by
  induction hP generalizing m with
  | null => exact .null
  | bool => exact .bool
  | number hx =>
    cases hQ with
    | number hx' => exact .number (hR _ hx hx')
  | string => exact .string
  | array _ ih =>
    cases hQ with
    | array hitems => exact .array fun item hitem => ih item hitem (hitems item hitem)
  | object _ ih =>
    cases hQ with
    | object hmembers =>
      exact .object fun member hmember => ih member hmember (hmembers member hmember)

/-! ## Canonical documents -/

theorem canonicalItems_eq_map (items : List Json) : canonicalItems items = items.map canonical := by
  induction items with
  | nil => rfl
  | cons item rest ih => rw [canonicalItems, ih, List.map_cons]

theorem canonicalMembers_eq_map (members : List (String × Json)) :
    canonicalMembers members = members.map fun member => (member.1, member.2.canonical) := by
  induction members with
  | nil => rfl
  | cons member rest ih => rw [canonicalMembers, ih, List.map_cons]

theorem canonical_object (members : List (String × Json)) :
    (Json.object members).canonical =
      .object ((Table.ofEntries members).map fun member => (member.1, member.2.canonical)) := by
  rw [canonical, canonicalMembers_eq_map, Table.ofEntries_map]

/-- Sorting members changes neither the nesting nor the numbers, apart from those it drops. -/
theorem Within.canonical (h : value.Within P n) : value.canonical.Within P n := by
  induction h with
  | null => exact .null
  | bool => exact .bool
  | number hx => exact .number hx
  | string => exact .string
  | array _ ih =>
    rw [Json.canonical, canonicalItems_eq_map]
    apply Within.array
    intro item hmem
    obtain ⟨item, hitem, rfl⟩ := List.mem_map.1 hmem
    exact ih item hitem
  | object _ ih =>
    rw [canonical_object]
    apply Within.object
    intro member hmem
    obtain ⟨member, hmember, rfl⟩ := List.mem_map.1 hmem
    exact ih member (Table.mem_of_mem_ofEntries hmember)

mutual

/-- A canonical document is its own canonical form. -/
theorem canonical_canonical : (value : Json) → value.canonical.canonical = value.canonical
  | .null | .bool _ | .number _ | .string _ => rfl
  | .array items => by
    rw [canonical, canonical, canonicalItems_eq_map, canonicalItems_eq_map, List.map_map]
    exact congrArg array (List.map_congr_left (canonical_canonical_of_mem items))
  | .object members => by
    have hsorted : (Table.names ((Table.ofEntries members).map
        fun member => (member.1, member.2.canonical))).Pairwise (· < ·) := by
      rw [Table.names, List.map_map]
      exact Table.pairwise_names_ofEntries members
    rw [canonical_object, canonical_object, Table.ofEntries_eq_self_iff.2 hsorted, List.map_map]
    refine congrArg object (List.map_congr_left fun member hmember => ?_)
    exact congrArg (member.1, ·)
      (canonical_canonical_of_mem_members members member (Table.mem_of_mem_ofEntries hmember))

theorem canonical_canonical_of_mem : (items : List Json) →
    ∀ item ∈ items, item.canonical.canonical = item.canonical
  | [] => List.forall_mem_nil _
  | item :: rest => List.forall_mem_cons.2
    ⟨canonical_canonical item, canonical_canonical_of_mem rest⟩

theorem canonical_canonical_of_mem_members : (members : List (String × Json)) →
    ∀ member ∈ members, member.2.canonical.canonical = member.2.canonical
  | [] => List.forall_mem_nil _
  | (_, value) :: rest => List.forall_mem_cons.2
    ⟨canonical_canonical value, canonical_canonical_of_mem_members rest⟩

end

/-! ## Documents that were read -/

variable {left : List Char}

/-- What is read with some fuel is not nested too deep, and its numbers are in range. -/
structure ReadsWithin (fuel : Nat) : Prop where
  value : ∀ {depth cs value left}, readValue fuel depth cs = .ok (value, left) →
    value.Within JsonNumber.InRange (depth - 1)
  items : ∀ {depth first cs items left}, readItems fuel depth first cs = .ok (items, left) →
    ∀ item ∈ items, item.Within JsonNumber.InRange (depth - 1)
  members : ∀ {depth first cs members left},
    readMembers fuel depth first cs = .ok (members, left) →
    ∀ member ∈ members, member.2.Within JsonNumber.InRange (depth - 1)

/-- What is read of an object where a member starts. -/
private def membersFrom (fuel depth : Nat) :
    List Char → Except JsonFault (List (String × Json) × List Char)
  | '"' :: rest => do
    let (name, rest) ← readString rest
    let rest ← readColon rest
    let (value, rest) ← readValue fuel depth rest
    let (members, rest) ← readMembers fuel depth false rest
    .ok ((name, value) :: members, rest)
  | _ => .error .malformed

theorem readsWithin (fuel : Nat) : ReadsWithin fuel := by
  induction fuel with
  | zero =>
    constructor
    all_goals
      intros
      contradiction
  | succ fuel ih =>
    constructor
    case value =>
      intro depth cs value left h
      rw [readValue] at h
      split at h
      case h_1 => cases h
      case h_6 | h_7 =>
        split at h
        · cases h
        · next hdepth =>
          obtain ⟨⟨parts, after⟩, hparts, heq⟩ := Except.bind_eq_ok_iff.1 h
          cases heq
          -- the parts are read one level down, and the limit keeps a level for them
          obtain ⟨n, rfl⟩ : ∃ n, depth = n + 2 := ⟨depth - 2, by omega⟩
          first
            | exact .array (ih.items hparts)
            | exact .object (ih.members hparts)
      case h_8 =>
        obtain ⟨⟨x, after⟩, hx, heq⟩ := Except.bind_eq_ok_iff.1 h
        cases heq
        exact .number (inRange_of_readNumber hx)
      case h_9 =>
        split at h
        · obtain ⟨⟨x, after⟩, hx, heq⟩ := Except.bind_eq_ok_iff.1 h
          cases heq
          exact .number (inRange_of_readNumber hx)
        · cases h
      all_goals
        obtain ⟨parts, -, heq⟩ := Except.bind_eq_ok_iff.1 h
        cases heq
        constructor
    case items =>
      intro depth first cs items left h
      rw [readItems] at h
      split at h
      · cases h
      · cases h
        exact List.forall_mem_nil _
      -- what follows the bracket or a comma: an item, then the rest of them
      · have hnext : ∀ {start}, (readValue fuel depth start >>= fun item =>
            readItems fuel depth false item.2 >>= fun rest => .ok (item.1 :: rest.1, rest.2)) =
              .ok (items, left) → ∀ item ∈ items, item.Within JsonNumber.InRange (depth - 1) := by
          intro start h
          obtain ⟨⟨item, after⟩, hitem, h⟩ := Except.bind_eq_ok_iff.1 h
          obtain ⟨⟨rest, after⟩, hrest, heq⟩ := Except.bind_eq_ok_iff.1 h
          cases heq
          exact List.forall_mem_cons.2 ⟨ih.value hitem, ih.items hrest⟩
        dsimp only at h
        split at h
        · exact hnext h
        · split at h
          · cases h
          · split at h
            · cases h
            · cases h
            · exact hnext h
    case members =>
      intro depth first cs members left h
      rw [readMembers] at h
      split at h
      · cases h
      · cases h
        exact List.forall_mem_nil _
      -- likewise a member, then the rest of them
      · have hnext : ∀ {start}, membersFrom fuel depth start = .ok (members, left) →
            ∀ member ∈ members, member.2.Within JsonNumber.InRange (depth - 1) := by
          intro start h
          unfold membersFrom at h
          split at h
          · obtain ⟨⟨name, after⟩, -, h⟩ := Except.bind_eq_ok_iff.1 h
            obtain ⟨after, -, h⟩ := Except.bind_eq_ok_iff.1 h
            obtain ⟨⟨value, after⟩, hvalue, h⟩ := Except.bind_eq_ok_iff.1 h
            obtain ⟨⟨rest, after⟩, hrest, heq⟩ := Except.bind_eq_ok_iff.1 h
            cases heq
            exact List.forall_mem_cons.2 ⟨ih.value hvalue, ih.members hrest⟩
          · cases h
        dsimp only at h
        split at h
        · exact hnext h
        · split at h
          · cases h
          · split at h
            · cases h
            · exact hnext h

/-- What is read is not nested too deep, and its whole numbers fit into 64 bits. -/
theorem within_of_readFront {text : String} (h : readFront text = .ok (value, left)) :
    value.Within JsonNumber.InRange (depthLimit - 1) :=
  (readsWithin _).value h

end SearchScript.Json
