import SearchScript.Proofs.Json.Numbers
import SearchScript.Proofs.Text.Quoted

/-!
# Documents read back

A document is read back from what is written for it, on one line or over several, if it is not
nested deeper than the reader allows and its numbers are read back. Both ways of writing differ only
in the spaces that they put between the parts, so the proof is about any such spaces.

## Key definitions

- `Json.Within`: the documents that are nested so deep at most and whose numbers satisfy a predicate
- `Json.Style`: the spaces between the parts of a document
- `Json.write`: what is written for a document in a style

## Key results

- `Json.readValue_write`: what is written in any style is read back
- `Json.readFront_pretty`, `Json.readFront_compact`: the two styles
-/

namespace SearchScript.Json

/-- The documents with at most so many arrays and objects inside each other, and with numbers that
satisfy a predicate. -/
inductive Within (P : JsonNumber → Prop) : Nat → Json → Prop
  | null {n} : Within P n .null
  | bool {n b} : Within P n (.bool b)
  | number {n x} : P x → Within P n (.number x)
  | string {n s} : Within P n (.string s)
  | array {n items} : (∀ item ∈ items, Within P n item) → Within P (n + 1) (.array items)
  | object {n members} : (∀ member ∈ members, Within P n member.2) →
      Within P (n + 1) (.object members)

/-- The spaces between the parts of a document: in front of items, members and closing brackets by
level, and behind colons. -/
structure Style where
  gap : Nat → List Char
  afterColon : List Char
  isSpace_gap : ∀ level, ∀ c ∈ gap level, isSpace c = true
  isSpace_afterColon : ∀ c ∈ afterColon, isSpace c = true

mutual

/-- What is written for a document at a level. -/
def write (style : Style) (level : Nat) : Json → List Char
  | .null => "null".toList
  | .bool b => if b then "true".toList else "false".toList
  | .number n => n.text.toList
  | .string s => (Quoted.encode s).toList
  | .array [] => "[]".toList
  | .array (item :: rest) =>
    '[' :: (style.gap (level + 1) ++ (write style (level + 1) item ++
      (writeItems style (level + 1) rest ++ (style.gap level ++ [']']))))
  | .object [] => "\x7b\x7d".toList
  | .object ((name, value) :: rest) =>
    '\x7b' :: (style.gap (level + 1) ++ ((Quoted.encode name).toList ++
      (':' :: (style.afterColon ++ (write style (level + 1) value ++
        (writeMembers style (level + 1) rest ++ (style.gap level ++ ['\x7d'])))))))

/-- What is written for further items, each behind a comma. -/
def writeItems (style : Style) (level : Nat) : List Json → List Char
  | [] => []
  | item :: rest =>
    ',' :: (style.gap level ++ (write style level item ++ writeItems style level rest))

/-- What is written for further members, each behind a comma. -/
def writeMembers (style : Style) (level : Nat) : List (String × Json) → List Char
  | [] => []
  | (name, value) :: rest =>
    ',' :: (style.gap level ++ ((Quoted.encode name).toList ++ (':' :: (style.afterColon ++
      (write style level value ++ writeMembers style level rest)))))

end

/-! ## The two styles -/

/-- No spaces at all. -/
def Style.oneLine : Style where
  gap _ := []
  afterColon := []
  isSpace_gap _ _ h := by cases h
  isSpace_afterColon _ h := by cases h

/-- Each item and each member on a line of its own, indented by its level. -/
def Style.lines : Style where
  gap level := '\n' :: List.replicate (2 * level) ' '
  afterColon := [' ']
  isSpace_gap level c h := by
    rcases List.mem_cons.1 h with rfl | h
    · rfl
    · rw [List.eq_of_mem_replicate h]
      rfl
  isSpace_afterColon c h := by
    rw [List.mem_singleton.1 h]
    rfl

mutual

theorem write_oneLine (level : Nat) : (json : Json) →
    write .oneLine level json = json.compact.toList
  | .null => rfl
  | .bool b => by cases b <;> rfl
  | .number n => rfl
  | .string s => rfl
  | .array [] => rfl
  | .array (item :: rest) => by
    rw [compact, String.toList_append, String.toList_append,
      compactItems_oneLine (level + 1) item rest, write, write_oneLine (level + 1) item]
    simp [Style.oneLine]
  | .object [] => rfl
  | .object ((name, value) :: rest) => by
    rw [compact, String.toList_append, String.toList_append,
      compactMembers_oneLine (level + 1) name value rest, write, write_oneLine (level + 1) value]
    simp [Style.oneLine]

theorem compactItems_oneLine (level : Nat) (item : Json) : (rest : List Json) →
    (compactItems (item :: rest)).toList =
      item.compact.toList ++ writeItems .oneLine level rest
  | [] => by rw [compactItems, writeItems, List.append_nil]
  | next :: rest => by
    rw [compactItems, String.toList_append, String.toList_append,
      compactItems_oneLine level next rest, writeItems, write_oneLine level next]
    · simp [Style.oneLine]
    · simp

theorem compactMembers_oneLine (level : Nat) (name : String) (value : Json) :
    (rest : List (String × Json)) →
    (compactMembers ((name, value) :: rest)).toList =
      (Quoted.encode name).toList ++ (':' :: (value.compact.toList ++
        writeMembers .oneLine level rest))
  | [] => by simp [compactMembers, writeMembers]
  | (next, nextValue) :: rest => by
    rw [compactMembers, String.toList_append, String.toList_append, String.toList_append,
      String.toList_append, compactMembers_oneLine level next nextValue rest, writeMembers,
      write_oneLine level nextValue]
    · simp [Style.oneLine]
    · simp

end

theorem toList_newLine (level : Nat) : (newLine level).toList = Style.lines.gap level :=
  String.toList_ofList

mutual

theorem write_lines (level : Nat) : (json : Json) →
    write .lines level json = (json.prettyAt level).toList
  | .null => rfl
  | .bool b => by cases b <;> rfl
  | .number n => rfl
  | .string s => rfl
  | .array [] => rfl
  | .array (item :: rest) => by
    rw [prettyAt, String.toList_append, String.toList_append, String.toList_append,
      prettyItems_lines (level + 1) item rest, toList_newLine, write,
      write_lines (level + 1) item]
    simp
  | .object [] => rfl
  | .object ((name, value) :: rest) => by
    rw [prettyAt, String.toList_append, String.toList_append, String.toList_append,
      prettyMembers_lines (level + 1) name value rest, toList_newLine, write,
      write_lines (level + 1) value]
    simp

theorem prettyItems_lines (level : Nat) (item : Json) : (rest : List Json) →
    (prettyItems level (item :: rest)).toList =
      Style.lines.gap level ++ ((item.prettyAt level).toList ++ writeItems .lines level rest)
  | [] => by simp [prettyItems, writeItems, toList_newLine]
  | next :: rest => by
    rw [prettyItems, String.toList_append, String.toList_append, String.toList_append,
      prettyItems_lines level next rest, toList_newLine, writeItems, write_lines level next]
    · simp
    · simp

theorem prettyMembers_lines (level : Nat) (name : String) (value : Json) :
    (rest : List (String × Json)) →
    (prettyMembers level ((name, value) :: rest)).toList =
      Style.lines.gap level ++ ((Quoted.encode name).toList ++ (':' :: (Style.lines.afterColon ++
        ((value.prettyAt level).toList ++ writeMembers .lines level rest))))
  | [] => by simp [prettyMembers, writeMembers, toList_newLine, Style.lines]
  | (next, nextValue) :: rest => by
    rw [prettyMembers, String.toList_append, String.toList_append, String.toList_append,
      String.toList_append, String.toList_append, prettyMembers_lines level next nextValue rest,
      toList_newLine, writeMembers, write_lines level nextValue]
    · simp [Style.lines]
    · simp

end

/-! ## Reading the parts -/

variable {fuel depth : Nat} {cs left rest gap : List Char} {value : Json} {items : List Json}
  {members : List (String × Json)} {name : String} {first : Bool}

theorem skipSpace_append (hgap : ∀ c ∈ gap, isSpace c = true) (cs : List Char) :
    skipSpace (gap ++ cs) = skipSpace cs :=
  List.dropWhile_append_of_pos hgap

/-- No document starts with a closing bracket. -/
theorem skipSpace_of_readValue (h : readValue fuel depth cs = .ok (value, left)) :
    ∃ c after, skipSpace cs = c :: after ∧ c ≠ ']' := by
  cases fuel with
  | zero => cases h
  | succ fuel =>
    rw [readValue] at h
    cases hskip : skipSpace cs with
    | nil =>
      rw [hskip] at h
      cases h
    | cons c after =>
      refine ⟨c, after, rfl, ?_⟩
      rintro rfl
      rw [hskip] at h
      cases h

theorem readString_encodeBody (text : String) (rest : List Char) :
    readString (Quoted.encodeBody text.toList ++ '"' :: rest) = .ok (text, rest) := by
  have hlen := Quoted.length_le_length_encodeBody text.toList
  have hbody : Quoted.decodeBody (Quoted.encodeBody text.toList ++ '"' :: rest) =
      .ok (text.toList, rest) := by
    apply Quoted.decodeFrom_encodeBody
    rw [List.length_append, List.length_cons]
    omega
  rw [readString, hbody]
  exact congrArg (fun text => Except.ok (text, rest)) String.ofList_toList

theorem toList_encode_append (text : String) (rest : List Char) :
    (Quoted.encode text).toList ++ rest =
      '"' :: (Quoted.encodeBody text.toList ++ '"' :: rest) := by
  rw [Quoted.encode, String.toList_ofList, List.cons_append, List.append_assoc]
  rfl

theorem readValue_string (text : String) (rest : List Char) :
    readValue (fuel + 1) depth ((Quoted.encode text).toList ++ rest) =
      .ok (.string text, rest) := by
  rw [toList_encode_append]
  simp [readValue, skipSpace, isSpace, readString_encodeBody, Except.ok_bind]

theorem readValue_null (rest : List Char) :
    readValue (fuel + 1) depth ("null".toList ++ rest) = .ok (.null, rest) := by
  simp [readValue, skipSpace, isSpace, readWord, Except.ok_bind]

theorem readValue_bool (b : Bool) (rest : List Char) :
    readValue (fuel + 1) depth ((if b then "true".toList else "false".toList) ++ rest) =
      .ok (.bool b, rest) := by
  cases b <;> simp [readValue, skipSpace, isSpace, readWord, Except.ok_bind]

theorem readValue_array (hdepth : 1 < depth)
    (h : readItems fuel (depth - 1) true cs = .ok (items, rest)) :
    readValue (fuel + 1) depth ('[' :: cs) = .ok (.array items, rest) := by
  simp [readValue, skipSpace, isSpace, Nat.not_le.2 hdepth, h, Except.ok_bind]

theorem readValue_object (hdepth : 1 < depth)
    (h : readMembers fuel (depth - 1) true cs = .ok (members, rest)) :
    readValue (fuel + 1) depth ('\x7b' :: cs) = .ok (.object members, rest) := by
  simp [readValue, skipSpace, isSpace, Nat.not_le.2 hdepth, h, Except.ok_bind]

/-- Spaces in front of a document do not change how it is read. -/
theorem readValue_gap (hgap : ∀ c ∈ gap, isSpace c = true)
    (h : readValue fuel depth cs = .ok (value, left)) :
    readValue fuel depth (gap ++ cs) = .ok (value, left) := by
  cases fuel with
  | zero => cases h
  | succ fuel => rw [← readValue_skipSpace, skipSpace_append hgap, readValue_skipSpace, h]

/-! ### Arrays -/

theorem readItems_close (hgap : ∀ c ∈ gap, isSpace c = true) :
    readItems (fuel + 1) depth first (gap ++ ']' :: rest) = .ok ([], rest) := by
  rw [readItems, skipSpace_append hgap]
  simp [skipSpace, isSpace]

/-- The first item of an array is read, and then the others. -/
theorem readItems_first (hvalue : readValue fuel depth cs = .ok (value, left))
    (hitems : readItems fuel depth false left = .ok (items, rest)) :
    readItems (fuel + 1) depth true cs = .ok (value :: items, rest) := by
  obtain ⟨c, after, hskip, hc⟩ := skipSpace_of_readValue hvalue
  have hstart : readValue fuel depth (c :: after) = .ok (value, left) := by
    cases fuel with
    | zero => cases hvalue
    | succ fuel => rw [← hskip, readValue_skipSpace, hvalue]
  simp [readItems, hskip, hstart, hitems, Except.ok_bind, pure, Except.pure]

/-- Behind a comma one more item is read. -/
theorem readItems_next (hvalue : readValue fuel depth cs = .ok (value, left))
    (hitems : readItems fuel depth false left = .ok (items, rest)) :
    readItems (fuel + 1) depth false (',' :: cs) = .ok (value :: items, rest) := by
  obtain ⟨c, after, hskip, hc⟩ := skipSpace_of_readValue hvalue
  have hstart : readValue fuel depth (c :: after) = .ok (value, left) := by
    cases fuel with
    | zero => cases hvalue
    | succ fuel => rw [← hskip, readValue_skipSpace, hvalue]
  have hcomma : skipSpace (',' :: cs) = ',' :: cs := rfl
  simp [readItems, hcomma, hskip, hc, hstart, hitems, Except.ok_bind, pure, Except.pure]

/-! ### Objects -/

theorem readMembers_close (hgap : ∀ c ∈ gap, isSpace c = true) :
    readMembers (fuel + 1) depth first (gap ++ '\x7d' :: rest) = .ok ([], rest) := by
  rw [readMembers, skipSpace_append hgap]
  simp [skipSpace, isSpace]

/-- The first member of an object is read, and then the others. -/
theorem readMembers_first (hgap : ∀ c ∈ gap, isSpace c = true)
    (hvalue : readValue fuel depth cs = .ok (value, left))
    (hmembers : readMembers fuel depth false left = .ok (members, rest)) :
    readMembers (fuel + 1) depth true (gap ++ ((Quoted.encode name).toList ++ (':' :: cs))) =
      .ok ((name, value) :: members, rest) := by
  rw [readMembers, skipSpace_append hgap, toList_encode_append]
  have hcolon : readColon (':' :: cs) = .ok cs := by simp [readColon, skipSpace, isSpace]
  simp [skipSpace, isSpace, readString_encodeBody, hcolon, hvalue, hmembers, Except.ok_bind,
    pure, Except.pure]

/-- Behind a comma one more member is read. -/
theorem readMembers_next (hgap : ∀ c ∈ gap, isSpace c = true)
    (hvalue : readValue fuel depth cs = .ok (value, left))
    (hmembers : readMembers fuel depth false left = .ok (members, rest)) :
    readMembers (fuel + 1) depth false
        (',' :: (gap ++ ((Quoted.encode name).toList ++ (':' :: cs)))) =
      .ok ((name, value) :: members, rest) := by
  have hcolon : readColon (':' :: cs) = .ok cs := by simp [readColon, skipSpace, isSpace]
  have hskip : skipSpace (gap ++ ((Quoted.encode name).toList ++ (':' :: cs))) =
      '"' :: (Quoted.encodeBody name.toList ++ '"' :: ':' :: cs) := by
    rw [skipSpace_append hgap, toList_encode_append]
    rfl
  have hcomma : ∀ after, skipSpace (',' :: after) = ',' :: after := fun _ => rfl
  simp [readMembers, hcomma, hskip, readString_encodeBody, hcolon, hvalue, hmembers,
    Except.ok_bind, pure, Except.pure]

/-! ## Reading what is written -/

theorem notInNumber_gap (hgap : ∀ c ∈ gap, isSpace c = true) (hrest : NotInNumber rest) :
    NotInNumber (gap ++ rest) := by
  intro c cs h
  cases gap with
  | nil => exact hrest c cs h
  | cons d gap =>
    cases h
    have hspace := hgap c List.mem_cons_self
    simp only [isSpace, Bool.or_eq_true, beq_iff_eq] at hspace
    rcases hspace with ((rfl | rfl) | rfl) | rfl <;> decide

theorem notInNumber_cons {c : Char} (hc : c = ',' ∨ c = ']' ∨ c = '\x7d') :
    NotInNumber (c :: rest) := by
  intro d cs h
  cases h
  rcases hc with rfl | rfl | rfl <;> decide

/-- Whether a document is read from what is written for it in a style, given the depth that its
nesting needs. -/
def IsReadIn (style : Style) (nesting : Nat) (value : Json) : Prop :=
  ∀ depth fuel level rest, nesting < depth → (write style level value).length < fuel →
    NotInNumber rest → readValue fuel depth (write style level value ++ rest) = .ok (value, rest)

variable {style : Style} {nesting level : Nat}

/-- Something is written for a document that is read. -/
theorem IsReadIn.length_pos (h : IsReadIn style nesting value) (level : Nat) :
    0 < (write style level value).length := by
  have hread := h (nesting + 1) ((write style level value).length + 1) level [] (by omega)
    (by omega) notInNumber_nil
  rw [List.length_pos_iff]
  intro hnil
  rw [hnil] at hread
  cases hread

theorem notInNumber_writeItems (outer : Nat) :
    NotInNumber (writeItems style level items ++ (style.gap outer ++ ']' :: rest)) := by
  cases items with
  | nil =>
    rw [writeItems, List.nil_append]
    exact notInNumber_gap (style.isSpace_gap outer) (notInNumber_cons (by simp))
  | cons item items =>
    rw [writeItems, List.cons_append]
    exact notInNumber_cons (by simp)

theorem readItems_writeItems (outer : Nat) (hitems : ∀ item ∈ items, IsReadIn style nesting item)
    (hdepth : nesting < depth)
    (hlength : (writeItems style level items).length + (style.gap outer).length + 1 < fuel) :
    readItems fuel depth false (writeItems style level items ++ (style.gap outer ++ ']' :: rest)) =
      .ok (items, rest) := by
  induction items generalizing fuel with
  | nil =>
    cases fuel with
    | zero => omega
    | succ fuel => exact readItems_close (style.isSpace_gap outer)
  | cons item items ih =>
    cases fuel with
    | zero => omega
    | succ fuel =>
      obtain ⟨hitem, hitems⟩ := List.forall_mem_cons.1 hitems
      simp only [writeItems, List.length_cons, List.length_append] at hlength
      have hrest := ih hitems (show _ < fuel by omega)
      -- behind an item stands a comma, a gap or the bracket, none of which would lengthen a number
      have hvalue := hitem depth fuel level
        (writeItems style level items ++ (style.gap outer ++ ']' :: rest)) hdepth (by omega)
        (notInNumber_writeItems outer)
      rw [writeItems, List.cons_append, List.append_assoc, List.append_assoc]
      exact readItems_next (readValue_gap (style.isSpace_gap level) hvalue) hrest

theorem notInNumber_writeMembers (outer : Nat) :
    NotInNumber (writeMembers style level members ++ (style.gap outer ++ '\x7d' :: rest)) := by
  cases members with
  | nil =>
    rw [writeMembers, List.nil_append]
    exact notInNumber_gap (style.isSpace_gap outer) (notInNumber_cons (by simp))
  | cons member members =>
    rw [writeMembers, List.cons_append]
    exact notInNumber_cons (by simp)

theorem readMembers_writeMembers (outer : Nat)
    (hmembers : ∀ member ∈ members, IsReadIn style nesting member.2) (hdepth : nesting < depth)
    (hlength : (writeMembers style level members).length + (style.gap outer).length + 1 < fuel) :
    readMembers fuel depth false
        (writeMembers style level members ++ (style.gap outer ++ '\x7d' :: rest)) =
      .ok (members, rest) := by
  induction members generalizing fuel with
  | nil =>
    cases fuel with
    | zero => omega
    | succ fuel => exact readMembers_close (style.isSpace_gap outer)
  | cons member members ih =>
    obtain ⟨name, value⟩ := member
    cases fuel with
    | zero => omega
    | succ fuel =>
      obtain ⟨hmember, hmembers⟩ := List.forall_mem_cons.1 hmembers
      dsimp only at hmember
      simp only [writeMembers, List.length_cons, List.length_append] at hlength
      have hrest := ih hmembers (show _ < fuel by omega)
      -- behind a value stands a comma, a gap or the brace, none of which would lengthen a number
      have hvalue := hmember depth fuel level
        (writeMembers style level members ++ (style.gap outer ++ '\x7d' :: rest)) hdepth
        (show _ < fuel by omega) (notInNumber_writeMembers outer)
      rw [writeMembers, List.cons_append, List.append_assoc, List.append_assoc, List.cons_append,
        List.append_assoc, List.append_assoc]
      exact readMembers_next (style.isSpace_gap level)
        (readValue_gap style.isSpace_afterColon hvalue) hrest

/-- What is written for a document in any style is read back. -/
theorem isReadIn_of_within (h : value.Within JsonNumber.ReadsBack nesting) :
    IsReadIn style nesting value := by
  induction h with
  | null =>
    intro depth fuel level rest _ hlength _
    cases fuel with
    | zero => omega
    | succ fuel => exact readValue_null rest
  | bool =>
    intro depth fuel level rest _ hlength _
    cases fuel with
    | zero => omega
    | succ fuel => exact readValue_bool _ rest
  | number hnumber =>
    intro depth fuel level rest _ hlength hrest
    cases fuel with
    | zero => omega
    | succ fuel => exact hnumber.readValue hrest
  | string =>
    intro depth fuel level rest _ hlength _
    cases fuel with
    | zero => omega
    | succ fuel => exact readValue_string _ rest
  | @array n items _ ih =>
    intro depth fuel level rest hdepth hlength _
    -- reading an array takes two steps of fuel, one for the value and one for its items
    match fuel, items with
    | 0, _ => omega
    | 1, items =>
      have hpos : 1 < (write style level (.array items)).length := by
        cases items with
        | nil => simp [write]
        | cons item items =>
          simp only [write, List.length_cons, List.length_append, List.length_nil]
          omega
      omega
    | fuel + 2, [] =>
      exact readValue_array (by omega) (readItems_close (List.forall_mem_nil _))
    | fuel + 2, item :: items =>
      obtain ⟨hitem, hitems⟩ := List.forall_mem_cons.1 ih
      have hpos := hitem.length_pos (level + 1)
      simp only [write, List.length_cons, List.length_append, List.length_nil] at hlength
      have hrest : readItems fuel (depth - 1) false
          (writeItems style (level + 1) items ++ (style.gap level ++ ']' :: rest)) =
          .ok (items, rest) := readItems_writeItems level hitems (by omega) (by omega)
      have hvalue := hitem (depth - 1) fuel (level + 1)
        (writeItems style (level + 1) items ++ (style.gap level ++ ']' :: rest)) (by omega)
        (by omega) (notInNumber_writeItems level)
      have happend : write style level (.array (item :: items)) ++ rest =
          '[' :: (style.gap (level + 1) ++ (write style (level + 1) item ++
            (writeItems style (level + 1) items ++ (style.gap level ++ ']' :: rest)))) := by
        simp [write]
      rw [happend]
      exact readValue_array (by omega)
        (readItems_first (readValue_gap (style.isSpace_gap (level + 1)) hvalue) hrest)
  | @object n members _ ih =>
    intro depth fuel level rest hdepth hlength _
    -- an object likewise
    match fuel, members with
    | 0, _ => omega
    | 1, members =>
      have hpos : 1 < (write style level (.object members)).length := by
        cases members with
        | nil => simp [write]
        | cons member members =>
          simp only [write, List.length_cons, List.length_append, List.length_nil]
          omega
      omega
    | fuel + 2, [] =>
      exact readValue_object (by omega) (readMembers_close (List.forall_mem_nil _))
    | fuel + 2, (name, value) :: members =>
      obtain ⟨hmember, hmembers⟩ := List.forall_mem_cons.1 ih
      dsimp only at hmember
      simp only [write, List.length_cons, List.length_append, List.length_nil] at hlength
      have hrest : readMembers fuel (depth - 1) false
          (writeMembers style (level + 1) members ++ (style.gap level ++ '\x7d' :: rest)) =
          .ok (members, rest) := readMembers_writeMembers level hmembers (by omega) (by omega)
      have hvalue := hmember (depth - 1) fuel (level + 1)
        (writeMembers style (level + 1) members ++ (style.gap level ++ '\x7d' :: rest)) (by omega)
        (by omega) (notInNumber_writeMembers level)
      have happend : write style level (.object ((name, value) :: members)) ++ rest =
          '\x7b' :: (style.gap (level + 1) ++ ((Quoted.encode name).toList ++
            (':' :: (style.afterColon ++ (write style (level + 1) value ++
              (writeMembers style (level + 1) members ++
                (style.gap level ++ '\x7d' :: rest))))))) := by
        simp [write]
      rw [happend]
      exact readValue_object (by omega) (readMembers_first (style.isSpace_gap (level + 1))
        (readValue_gap style.isSpace_afterColon hvalue) hrest)

variable {text : String}

/-- A text that starts with what is written for a document is read as that document. -/
theorem readFront_write (style : Style) (level : Nat)
    (h : value.Within JsonNumber.ReadsBack nesting) (hnesting : nesting < depthLimit)
    (hrest : NotInNumber rest) (htext : text.toList = write style level value ++ rest) :
    readFront text = .ok (value, rest) := by
  unfold readFront
  dsimp only
  rw [htext]
  apply isReadIn_of_within h depthLimit _ level rest hnesting _ hrest
  rw [List.length_append]
  omega

/-- What is written over several lines is read back. -/
theorem readFront_pretty (h : value.Within JsonNumber.ReadsBack nesting)
    (hnesting : nesting < depthLimit) (hrest : NotInNumber rest) :
    readFront (value.pretty ++ String.ofList rest) = .ok (value, rest) := by
  apply readFront_write .lines 0 h hnesting hrest
  rw [String.toList_append, String.toList_ofList, write_lines, pretty]

/-- What is written on one line is read back. -/
theorem readFront_compact (h : value.Within JsonNumber.ReadsBack nesting)
    (hnesting : nesting < depthLimit) (hrest : NotInNumber rest) :
    readFront (value.compact ++ String.ofList rest) = .ok (value, rest) := by
  apply readFront_write .oneLine 0 h hnesting hrest
  rw [String.toList_append, String.toList_ofList, write_oneLine]

end SearchScript.Json
