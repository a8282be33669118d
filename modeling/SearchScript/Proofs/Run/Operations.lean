import SearchScript.Proofs.Except
import SearchScript.Value.Members
import SearchScript.Value.Operators
import SearchScript.Value.Text

/-!
# What operations see of values

Operators, conversions and the functions of texts do not look into functions: they see that a
function is one, and no more. And what they make of data is data.

## Key results

- `Value.binary_faceless`, `Value.textFunction_faceless`: functions are all alike
- `Value.member?_cases`: what members are
- `Value.isData_of_member?`, `Value.isData_of_binary_of_isData`: data comes of data
-/

namespace SearchScript

mutual

/-- Whether a value is data: neither a function nor a cell, and no list with one inside. The types
count as data. -/
def Value.isData : Value → Bool
  | .cell _ | .function _ _ | .fileConstructor _ => false
  | .list items => Value.allData items
  | _ => true

/-- Whether the values of a list are data. -/
def Value.allData : List Value → Bool
  | [] => true
  | v :: rest => v.isData && Value.allData rest

end

/-- Whether a function does the same wherever it was made. -/
def Callable.isData : Callable → Bool
  | text _ _ | holds _ => true
  | quantifier _ items => Value.allData items
  | closure _ | recorder => false

namespace Value

/-- A value without what tells functions apart. -/
def faceless : Value → Value
  | function _ _ => function 0 .recorder
  | v => v

variable {v w : Value}

@[simp] theorem requireBoolean_faceless : v.faceless.requireBoolean = v.requireBoolean := by
  cases v <;> rfl

@[simp] theorem requireNumber_faceless : v.faceless.requireNumber = v.requireNumber := by
  cases v <;> rfl

@[simp] theorem requireString_faceless : v.faceless.requireString = v.requireString := by
  cases v <;> rfl

@[simp] theorem requireFile_faceless : v.faceless.requireFile = v.requireFile := by
  cases v <;> rfl

@[simp] theorem toBoolean_faceless : v.faceless.toBoolean = v.toBoolean := by cases v <;> rfl

@[simp] theorem toNumber_faceless : v.faceless.toNumber = v.toNumber := by cases v <;> rfl

@[simp] theorem toText_faceless : v.faceless.toText = v.toText := by cases v <;> rfl

@[simp] theorem negate_faceless : v.faceless.negate = v.negate := by cases v <;> rfl

@[simp] theorem not_faceless : v.faceless.not = v.not := by cases v <;> rfl

@[simp] theorem bitNot_faceless : v.faceless.bitNot = v.bitNot := by cases v <;> rfl

@[simp] theorem type_faceless : v.faceless.type = v.type := by cases v <;> rfl

@[simp] theorem memberOf_faceless {name : String} : v.faceless.memberOf name = v.memberOf name := by
  cases v <;> rfl

/-- Operators do not look into functions. -/
@[simp] theorem binary_faceless {op : BinaryOp} :
    Value.binary op v.faceless w.faceless = Value.binary op v w := by
  cases v <;> cases w <;> rfl

theorem stringArgument_faceless {args : List Value} {i : Nat} :
    stringArgument (args.map faceless) i = stringArgument args i := by
  simp only [stringArgument, argument, List.getElem?_map]
  cases args[i]? with
  | none => rfl
  | some v => simp [bind, Except.bind]

theorem numberArgument_faceless {args : List Value} {i : Nat} :
    numberArgument (args.map faceless) i = numberArgument args i := by
  simp only [numberArgument, argument, List.getElem?_map]
  cases args[i]? with
  | none => rfl
  | some v => simp [bind, Except.bind]

/-- The function members of texts do not look into functions. -/
theorem textFunction_faceless {f : TextFunction} {s : String} {args : List Value} :
    f.apply s (args.map faceless) = f.apply s args := by
  cases f <;>
    simp only [TextFunction.apply, stringArgument_faceless, numberArgument_faceless,
      List.length_map]

theorem allData_iff {vs : List Value} : allData vs = true ↔ ∀ v ∈ vs, v.isData = true := by
  induction vs with
  | nil => simp [allData]
  | cons v rest ih => simp [allData, ih]

theorem allData_map_string {items : List String} : allData (items.map string) = true :=
  allData_iff.2 fun v hv => by
    obtain ⟨s, -, rfl⟩ := List.mem_map.1 hv
    rfl

/-- A member is data, or a function of a text or of a list. -/
theorem member?_cases {name : String} {m : Member} (h : v.member? name = some m) :
    (∃ u, m = .data u ∧ u.isData = true) ∨
    (∃ s f, v = string s ∧ m = .function (.text s f)) ∨
    (∃ kind items, v = stringList kind items ∧ m = .function (.holds items)) ∨
    ∃ quantifier items, m = .function (.quantifier quantifier items) ∧ name = quantifier.name ∧
      (v = list items ∨ ∃ kind texts, v = stringList kind texts ∧ items = texts.map string) := by
  unfold member? at h
  split at h
  -- the members by the type of the value, in the order of `member?`
  · unfold numberMember? at h
    split at h <;> cases h
    exact .inl ⟨_, rfl, rfl⟩
  · unfold stringMember? at h
    split at h <;> cases h <;>
      first | exact .inl ⟨_, rfl, rfl⟩ | exact .inr (.inl ⟨_, _, rfl, rfl⟩)
  · unfold listMember? at h
    split at h <;> cases h <;>
      first
      | exact .inl ⟨_, rfl, rfl⟩
      | exact .inr (.inr (.inr ⟨_, _, rfl, rfl, .inl rfl⟩))
  · unfold stringListMember? at h
    split at h
    · cases h
      exact .inr (.inr (.inl ⟨_, _, rfl, rfl⟩))
    · unfold listMember? at h
      split at h <;> cases h <;>
        first
        | exact .inl ⟨_, rfl, rfl⟩
        | exact .inr (.inr (.inr ⟨_, _, rfl, rfl, .inr ⟨_, _, rfl, rfl⟩⟩))
  · next f =>
    unfold fileMember? at h
    split at h <;> cases h <;> refine .inl ⟨_, rfl, ?_⟩ <;> try rfl
    cases f.numericRating? <;> rfl
  · cases h

/-- The members of data are data, or functions that do the same everywhere. -/
theorem isData_of_member? {name : String} {m : Member} (hv : v.isData = true)
    (h : v.member? name = some m) :
    (∃ u, m = .data u ∧ u.isData = true) ∨ ∃ c, m = .function c ∧ c.isData = true := by
  rcases member?_cases h with
    hdata | ⟨s, f, -, rfl⟩ | ⟨_, items, -, rfl⟩ | ⟨_, items, rfl, -, hitems⟩
  · exact .inl hdata
  · exact .inr ⟨_, rfl, rfl⟩
  · exact .inr ⟨_, rfl, rfl⟩
  · refine .inr ⟨_, rfl, ?_⟩
    rcases hitems with rfl | ⟨_, texts, -, rfl⟩
    · exact hv
    · exact allData_map_string

/-- A member that asks a predicate about items has the name of its quantifier. -/
theorem eq_name_of_member?_eq_quantifier {name : String} {quantifier : Quantifier}
    {items : List Value} (h : v.member? name = some (.function (.quantifier quantifier items))) :
    name = quantifier.name := by
  rcases member?_cases h with ⟨_, hm, -⟩ | ⟨_, _, -, hm⟩ | ⟨_, _, -, hm⟩ | ⟨_, _, hm, hname, -⟩ <;>
    cases hm
  exact hname

theorem mem_of_itemAt {items : List Value} {index : Number} (h : itemAt items index = .ok v) :
    v ∈ items := by
  simp only [itemAt] at h
  split at h
  · next item hsome =>
    cases h
    split at hsome
    · exact List.mem_of_getElem? hsome
    · cases hsome
  · cases h

/-- The items of data are data. -/
theorem isData_of_itemAt {items : List Value} {index : Number} (hitems : allData items = true)
    (h : itemAt items index = .ok v) : v.isData = true :=
  allData_iff.1 hitems v (mem_of_itemAt h)

/-- Only a number selects an item. -/
theorem exists_number_of_subscript {index : Value} (h : v.subscript index = .ok w) :
    ∃ n, index = number n := by
  have hread : ∃ n, index.requireNumber = .ok n := by
    cases hn : index.requireNumber with
    | ok n => exact ⟨n, rfl⟩
    | error e => cases v <;> simp [subscript, hn, liftValue, bind, Except.bind] at h
  obtain ⟨n, hn⟩ := hread
  cases index <;> cases hn
  exact ⟨n, rfl⟩

/-- A whole number selects the item at its place. -/
theorem subscript_list {items : List Value} {n : Number} {i : Nat} (hsign : n.less 0 = false)
    (hn : n.toInt? = some (.ofNat i)) (hv : items[i]? = some v) :
    (list items).subscript (number n) = .ok v := by
  simp only [subscript, requireNumber, liftValue, bind, Except.bind, itemAt, hsign,
    Bool.false_eq_true, if_false, hn, hv]

theorem isData_of_numberBinary? {op : BinaryOp} {a b : Number} {v : Value}
    (h : a.binary? op b = some v) : v.isData = true := by
  cases op <;> cases h <;> rfl

/-- An operator other than a subscript makes data. -/
theorem isData_of_binary {op : BinaryOp} {left right v : Value} (hop : op ≠ .subscript)
    (h : Value.binary op left right = .ok v) : v.isData = true := by
  cases left with
  | number a =>
    cases hr : right.requireNumber <;>
      simp only [Value.binary, hop, hr, liftValue, bind, Except.bind, if_false] at h
    · split at h <;> cases h
    · split at h
      · split at h <;> cases h
        next hsome => exact isData_of_numberBinary? hsome
      · cases h
  | string a =>
    cases hr : right.requireString <;>
      simp only [Value.binary, hop, hr, liftValue, bind, Except.bind, if_false] at h
    · split at h <;> cases h
    · split at h <;> cases h
      next f hf => cases op <;> cases hf <;> rfl
  | boolean a =>
    cases hr : right.requireBoolean <;>
      simp only [Value.binary, hop, hr, liftValue, bind, Except.bind, if_false] at h <;>
      split at h <;> cases h
    rfl
  | file a =>
    cases hr : right.requireFile <;>
      simp only [Value.binary, hop, hr, liftValue, bind, Except.bind, if_false] at h <;>
      split at h <;> cases h
    rfl
  | _ => simp [Value.binary, hop] at h

/-- An operator makes data of data. -/
theorem isData_of_binary_of_isData {op : BinaryOp} {u : Value} (hv : v.isData = true)
    (h : Value.binary op v w = .ok u) : u.isData = true := by
  by_cases hop : op = .subscript
  · subst hop
    simp only [Value.binary, if_true] at h
    cases hn : w.requireNumber with
    | error e => cases v <;> simp [subscript, hn, liftValue, bind, Except.bind] at h
    | ok n =>
      cases v with
      | list items =>
        simp only [subscript, hn, liftValue, bind, Except.bind] at h
        exact isData_of_itemAt hv h
      | stringList name items =>
        simp only [subscript, hn, liftValue, bind, Except.bind] at h
        exact isData_of_itemAt allData_map_string h
      | _ => simp [subscript] at h
  · exact isData_of_binary hop h

/-- A function member of a text answers with data. -/
theorem isData_of_textFunction {f : TextFunction} {s : String} {args : List Value} {v : Value}
    (h : f.apply s args = .ok v) : v.isData = true := by
  cases f with
  | padStart =>
    obtain ⟨_, -, h⟩ := Except.bind_eq_ok_iff.1 h
    dsimp only at h
    split at h <;>
    · obtain ⟨_, -, h⟩ := Except.bind_eq_ok_iff.1 h
      obtain ⟨_, -, h⟩ := Except.bind_eq_ok_iff.1 h
      cases h
      rfl
  | startsWith | endsWith | contains =>
    obtain ⟨_, -, h⟩ := Except.bind_eq_ok_iff.1 h
    cases h
    rfl
  | substring =>
    obtain ⟨_, -, h⟩ := Except.bind_eq_ok_iff.1 h
    dsimp only at h
    split at h <;> obtain ⟨_, -, h⟩ := Except.bind_eq_ok_iff.1 h
    · cases h
      rfl
    · obtain ⟨_, -, h⟩ := Except.bind_eq_ok_iff.1 h
      cases h
      rfl
  | matchPattern =>
    obtain ⟨_, -, h⟩ := Except.bind_eq_ok_iff.1 h
    split at h <;> cases h
    rfl

end Value

end SearchScript
