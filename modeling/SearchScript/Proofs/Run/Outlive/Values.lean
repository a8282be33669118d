import SearchScript.Proofs.Run.Operations
import SearchScript.Run.Outcome

/-!
# Values without some of their frames

A function carries the environment in which it was made. If frames of it hold no names, they may be
left out: `Value.without` leaves the frames of some tables out of every function in a value, and
`Value.closures` lists these functions. Operations on values do not look into functions, so they
commute with leaving frames out, and no function is in a result that was not in an operand.

## Key definitions

- `Env.without`, `Value.without`: an environment and a value without the frames of some tables
- `Value.closures`: the functions made by programs in a value
- `HasClosures`: the types that both extend to

## Key results

- `Value.binary_without`, `Value.memberOf_without`: operations do not depend on the frames
- `Value.closures_of_binary`, `Value.closures_of_memberOf`: they make no functions of their own
-/

namespace SearchScript

variable (gone : List Nat)

/-- An environment without the frames of some tables. -/
def Env.without (env : Env) : Env :=
  { env with frames := env.frames.filter fun frame => frame.table ∉ gone }

/-- A context without the frames of some tables. -/
def Context.without (ctx : Context) : Context := { ctx with env := ctx.env.without gone }

/-- A function without the frames of some tables. -/
def Closure.without (c : Closure) : Closure := { c with context := c.context.without gone }

mutual

/-- A value with the frames of some tables left out of its functions. -/
def Value.without : Value → Value
  | .list items => .list (Value.allWithout items)
  | .function id callable => .function id callable.without
  | .boolean b => .boolean b
  | .number n => .number n
  | .string s => .string s
  | .null => .null
  | .stringList name items => .stringList name items
  | .file record => .file record
  | .constructor type => .constructor type
  | .fileConstructor files => .fileConstructor files
  | .cell slot => .cell slot

/-- What a function does, with the frames of some tables left out. -/
def Callable.without : Callable → Callable
  | .quantifier quantifier items => .quantifier quantifier (Value.allWithout items)
  | .closure c => .closure (c.without gone)
  | .text receiver function => .text receiver function
  | .holds items => .holds items
  | .recorder => .recorder

/-- Values with the frames of some tables left out of their functions. -/
def Value.allWithout : List Value → List Value
  | [] => []
  | v :: rest => v.without :: Value.allWithout rest

end

mutual

/-- The functions made by programs that are in a value. -/
def Value.closures : Value → List Closure
  | .list items => Value.allClosures items
  | .function _ callable => callable.closures
  | .boolean _ | .number _ | .string _ | .null | .stringList _ _ | .file _ | .constructor _
  | .fileConstructor _ | .cell _ => []

/-- The functions made by programs that a function leads to. -/
def Callable.closures : Callable → List Closure
  | .quantifier _ items => Value.allClosures items
  | .closure c => [c]
  | .text _ _ | .holds _ | .recorder => []

/-- The functions made by programs that are in some values. -/
def Value.allClosures : List Value → List Closure
  | [] => []
  | v :: rest => v.closures ++ Value.allClosures rest

end

/-- A type whose elements may have functions in them. -/
class HasClosures (α : Type) where
  /-- The functions made by programs. -/
  closures : α → List Closure
  /-- The element with the frames of some tables left out. -/
  without : List Nat → α → α

instance : HasClosures Value := ⟨Value.closures, Value.without⟩

instance : HasClosures Callable := ⟨Callable.closures, Callable.without⟩

instance : HasClosures (List Value) := ⟨Value.allClosures, Value.allWithout⟩

instance : HasClosures Bool := ⟨fun _ => [], fun _ b => b⟩

instance : HasClosures Unit := ⟨fun _ => [], fun _ u => u⟩

/-- The functions made by programs in what a step is left with. -/
def Signal.closures : Signal → List Closure
  | .leave v => v.closures
  | _ => []

/-- A signal with the frames of some tables left out. -/
def Signal.without : Signal → Signal
  | .leave v => .leave (v.without gone)
  | .breakLoop => .breakLoop
  | .continueLoop => .continueLoop
  | .suggest found => .suggest found
  | .fail e => .fail e

instance {α : Type} [HasClosures α] : HasClosures (Except Signal α) where
  closures
    | .ok a => HasClosures.closures a
    | .error s => s.closures
  without gone
    | .ok a => .ok (HasClosures.without gone a)
    | .error s => .error (s.without gone)

instance : HasClosures Member where
  closures
    | .data v => v.closures
    | .function callable => callable.closures
  without gone
    | .data v => .data (v.without gone)
    | .function callable => .function (callable.without gone)

section

variable {gone} {env : Env}

theorem Env.without_eq_self (h : ∀ frame ∈ env.frames, frame.table ∉ gone) :
    env.without gone = env := by
  have hframes : env.frames.filter (fun frame => frame.table ∉ gone) = env.frames :=
    List.filter_eq_self.2 fun frame hmem => decide_eq_true (h frame hmem)
  rw [Env.without, hframes]

/-- Frames that are left out do not matter. -/
theorem Env.without_append {inner : List Frame} (hinner : ∀ frame ∈ inner, frame.table ∈ gone)
    (h : ∀ frame ∈ env.frames, frame.table ∉ gone) :
    Env.without gone ⟨inner ++ env.frames, env.host⟩ = env := by
  have hframes : inner.filter (fun frame => frame.table ∉ gone) = [] :=
    List.filter_eq_nil_iff.2 fun frame hmem => by simpa using hinner frame hmem
  have henv := Env.without_eq_self h
  rw [Env.without] at henv ⊢
  rw [List.filter_append, hframes, List.nil_append]
  exact henv

end

namespace Value

variable {gone} {v w u : Value} {items : List Value}

theorem allWithout_eq_map : allWithout gone items = items.map (without gone) := by
  induction items with
  | nil => rfl
  | cons v rest ih => rw [allWithout, ih, List.map_cons]

theorem mem_allClosures {c : Closure} : c ∈ allClosures items ↔ ∃ v ∈ items, c ∈ v.closures := by
  induction items with
  | nil => simp [allClosures]
  | cons v rest ih => simp [allClosures, ih]

mutual

theorem closures_of_isData : (v : Value) → v.isData = true → v.closures = []
  | .list items, h => allClosures_of_allData items h
  | .boolean _, _ | .number _, _ | .string _, _ | .null, _ | .stringList _ _, _ | .file _, _
  | .constructor _, _ => rfl

theorem allClosures_of_allData : (items : List Value) → allData items = true →
    allClosures items = []
  | [], _ => rfl
  | v :: rest, h => by
    rw [allData, Bool.and_eq_true] at h
    rw [allClosures, closures_of_isData v h.1, allClosures_of_allData rest h.2, List.append_nil]

end

mutual

theorem without_of_isData : (v : Value) → v.isData = true → v.without gone = v
  | .list items, h => congrArg Value.list (allWithout_of_allData items h)
  | .boolean _, _ | .number _, _ | .string _, _ | .null, _ | .stringList _ _, _ | .file _, _
  | .constructor _, _ => rfl

theorem allWithout_of_allData : (items : List Value) → allData items = true →
    allWithout gone items = items
  | [], _ => rfl
  | v :: rest, h => by
    rw [allData, Bool.and_eq_true] at h
    rw [allWithout, without_of_isData v h.1, allWithout_of_allData rest h.2]

end

/-! ## Operations -/

@[simp] theorem type_without : (v.without gone).type = v.type := by cases v <;> rfl

@[simp] theorem requireBoolean_without : (v.without gone).requireBoolean = v.requireBoolean := by
  cases v <;> rfl

@[simp] theorem requireNumber_without : (v.without gone).requireNumber = v.requireNumber := by
  cases v <;> rfl

@[simp] theorem requireString_without : (v.without gone).requireString = v.requireString := by
  cases v <;> rfl

@[simp] theorem requireFile_without : (v.without gone).requireFile = v.requireFile := by
  cases v <;> rfl

@[simp] theorem toBoolean_without : (v.without gone).toBoolean = v.toBoolean := by cases v <;> rfl

@[simp] theorem toNumber_without : (v.without gone).toNumber = v.toNumber := by cases v <;> rfl

@[simp] theorem toText_without : (v.without gone).toText = v.toText := by cases v <;> rfl

@[simp] theorem negate_without : (v.without gone).negate = v.negate := by cases v <;> rfl

@[simp] theorem not_without : (v.without gone).not = v.not := by cases v <;> rfl

@[simp] theorem bitNot_without : (v.without gone).bitNot = v.bitNot := by cases v <;> rfl

@[simp] theorem memberNames_without : (v.without gone).memberNames = v.memberNames := by
  cases v <;> rfl

theorem requireFunction_without :
    (v.without gone).requireFunction = v.requireFunction.map (Callable.without gone) := by
  cases v <;> rfl

theorem closures_of_requireFunction {callable : Callable}
    (h : v.requireFunction = .ok callable) : callable.closures = v.closures := by
  cases v <;> cases h
  rfl

theorem stringArgument_without {args : List Value} {i : Nat} :
    stringArgument (args.map (without gone)) i = stringArgument args i := by
  simp only [stringArgument, argument, List.getElem?_map]
  cases args[i]? with
  | none => rfl
  | some v => simp [bind, Except.bind]

theorem numberArgument_without {args : List Value} {i : Nat} :
    numberArgument (args.map (without gone)) i = numberArgument args i := by
  simp only [numberArgument, argument, List.getElem?_map]
  cases args[i]? with
  | none => rfl
  | some v => simp [bind, Except.bind]

theorem textFunction_without {f : TextFunction} {s : String} {args : List Value} :
    f.apply s (args.map (without gone)) = f.apply s args := by
  cases f <;>
    simp only [TextFunction.apply, stringArgument_without, numberArgument_without, List.length_map]

theorem itemAt_without {index : Number} :
    itemAt (items.map (without gone)) index = (itemAt items index).map (without gone) := by
  simp only [itemAt, List.length_map]
  generalize (if index.less 0 then index + Number.ofNat items.length else index) = i
  cases i.toInt? with
  | none => rfl
  | some n =>
    cases n with
    | negSucc => rfl
    | ofNat n =>
      simp only [List.getElem?_map]
      cases items[n]? <;> rfl

theorem subscript_without : (v.without gone).subscript (w.without gone) =
    (v.subscript w).map (without gone) := by
  cases hindex : w.requireNumber with
  | error e =>
    cases v <;> simp [subscript, without, type, hindex, liftValue, bind, Except.bind, Except.map]
  | ok index =>
    cases v with
    | list items =>
      simp only [subscript, without, requireNumber_without, hindex, liftValue, bind, Except.bind,
        allWithout_eq_map, itemAt_without]
    | stringList name items =>
      have hsame : (items.map string).map (without gone) = items.map string := by
        simp [without]
      simp only [subscript, without, requireNumber_without, hindex, liftValue, bind, Except.bind]
      rw [← itemAt_without, hsame]
    | _ => simp [subscript, without, type, Except.map]

/-- Operators do not look into functions. -/
theorem binary_without {op : BinaryOp} : Value.binary op (v.without gone) (w.without gone) =
    (Value.binary op v w).map (without gone) := by
  by_cases hop : op = .subscript
  · simp only [binary, hop, if_true, subscript_without]
  · -- all other operators come to data, and find none in a function
    have hsame : Value.binary op (v.without gone) (w.without gone) = Value.binary op v w := by
      cases v <;> simp [binary, hop, without, type]
    rw [hsame]
    cases h : Value.binary op v w with
    | error e => rfl
    | ok u => exact congrArg Except.ok (without_of_isData u (isData_of_binary hop h)).symm

theorem closures_of_binary {op : BinaryOp} (h : Value.binary op v w = .ok u) :
    u.closures ⊆ v.closures := by
  by_cases hop : op = .subscript
  · rw [binary, if_pos hop] at h
    cases hindex : w.requireNumber with
    | error e => cases v <;> simp [subscript, hindex, liftValue, bind, Except.bind] at h
    | ok index =>
      cases v with
      | list items =>
        simp only [subscript, hindex, liftValue, bind, Except.bind] at h
        exact fun c hc => mem_allClosures.2 ⟨u, mem_of_itemAt h, hc⟩
      | stringList name items =>
        simp only [subscript, hindex, liftValue, bind, Except.bind] at h
        rw [closures_of_isData u (isData_of_itemAt allData_map_string h)]
        exact List.nil_subset _
      | _ => simp [subscript] at h
  · rw [closures_of_isData u (isData_of_binary hop h)]
    exact List.nil_subset _

theorem listMember?_without {name : String} : listMember? (items.map (without gone)) name =
    (listMember? items name).map (HasClosures.without gone) := by
  unfold listMember?
  split <;> simp [HasClosures.without, Callable.without, allWithout_eq_map, without, ofNat]

/-- The members of data have no functions made by programs. -/
theorem member?_of_isData {name : String} {m : Member} (hv : v.isData = true)
    (h : v.member? name = some m) :
    HasClosures.without gone m = m ∧ HasClosures.closures m = [] := by
  rcases isData_of_member? hv h with ⟨u, rfl, hu⟩ | ⟨c, rfl, hc⟩
  · exact ⟨congrArg Member.data (without_of_isData u hu), closures_of_isData u hu⟩
  · cases c with
    | quantifier quantifier items =>
      have hitems : allWithout gone items = items := allWithout_of_allData items hc
      exact ⟨congrArg (Member.function <| .quantifier quantifier ·) hitems,
        allClosures_of_allData items hc⟩
    | text | holds => exact ⟨rfl, rfl⟩
    | closure | recorder => cases hc

theorem member?_without {name : String} :
    (v.without gone).member? name = (v.member? name).map (HasClosures.without gone) := by
  -- of the values that may have functions in them only lists have members
  by_cases hv : v.isData = true
  · rw [without_of_isData v hv]
    cases h : v.member? name with
    | none => rfl
    | some m => exact congrArg some (member?_of_isData hv h).1.symm
  · cases v with
    | list items => rw [without, member?, allWithout_eq_map, listMember?_without, member?]
    | function | fileConstructor | cell => rfl
    | _ => exact absurd rfl hv

theorem memberOf_without {name : String} :
    (v.without gone).memberOf name = (v.memberOf name).map (HasClosures.without gone) := by
  rw [memberOf, memberOf, member?_without, type_without]
  cases v.member? name <;> rfl

theorem closures_of_memberOf {name : String} {m : Member} (h : v.memberOf name = .ok m) :
    HasClosures.closures m ⊆ v.closures := by
  unfold memberOf at h
  split at h <;> cases h
  next hmember =>
  by_cases hv : v.isData = true
  · have hdata : HasClosures.without [] _ = _ ∧ HasClosures.closures _ = [] :=
      member?_of_isData hv hmember
    rw [hdata.2]
    exact List.nil_subset _
  · cases v with
    | list items =>
      have hmember : listMember? items name = some m := hmember
      unfold listMember? at hmember
      split at hmember <;> cases hmember
      · exact List.nil_subset _
      · exact List.Subset.refl _
      · exact List.Subset.refl _
    | function | fileConstructor | cell => cases hmember
    | _ => exact absurd rfl hv

end Value

end SearchScript
