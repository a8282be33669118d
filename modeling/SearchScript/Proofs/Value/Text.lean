import SearchScript.Proofs.Number.Range
import SearchScript.Proofs.Run.Transparency

/-!
# Substrings and padding

Two numbers cut a text at the positions that they are brought into its range as, in either order. A
text is padded up to the whole part of a number that is more than its length, which is no less than
the length, so that there is never less than nothing to add.

## Key definitions

- `TextFunction.Answers`: what the call of a member of a text answers

## Key results

- `TextFunction.substring_and_padStart`: what is cut out of a text, and what is put in front of one
-/

namespace SearchScript.TextFunction

-- powers are those of the core library, whatever else is imported
attribute [local instance (high)] instPowNat

variable {text fill : List Char} {s f : String} {start stop n : Nat} {a b target : Number}

/-! ## Slices -/

theorem slice_comm (text : List Char) (start stop : Nat) :
    slice text start stop = slice text stop start := by
  rw [slice, slice, Nat.max_comm, Nat.min_comm]

/-- A slice is what is left of a text without what is in front of it and behind it. -/
theorem take_append_slice_append_drop (text : List Char) (start stop : Nat) :
    text.take (min start stop) ++ slice text start stop ++ text.drop (max start stop) = text := by
  have hle : min start stop ≤ max start stop := min_le_max
  have htake : text.take (min start stop) = (text.take (max start stop)).take (min start stop) := by
    rw [List.take_take, Nat.min_eq_left hle]
  rw [slice, htake, List.take_append_drop, List.take_append_drop]

theorem length_slice (hstart : start ≤ text.length) (hstop : stop ≤ text.length) :
    (slice text start stop).length = max start stop - min start stop := by
  rw [slice, List.length_drop, List.length_take, Nat.min_eq_left (Nat.max_le.2 ⟨hstart, hstop⟩)]

theorem slice_zero (text : List Char) (stop : Nat) : slice text 0 stop = text.take stop := by
  rw [slice, Nat.zero_max, Nat.zero_min, List.drop_zero]

theorem slice_length (h : start ≤ text.length) :
    slice text start text.length = text.drop start := by
  rw [slice, Nat.max_eq_right h, Nat.min_eq_left h, List.take_length]

/-! ## Fillings -/

theorem length_cycle (h : fill ≠ []) (n : Nat) : (cycle fill n).length = n := by
  have hpos : 0 < fill.length := List.length_pos_iff.2 h
  -- the repetitions that are made are enough
  have hlt : n < (n / fill.length + 1) * fill.length := by
    rw [Nat.mul_comm]
    exact Nat.lt_mul_div_succ n hpos
  rw [cycle, List.length_take, List.length_flatten, List.map_replicate, List.sum_replicate_nat]
  omega

theorem exists_cycle_initial (fill : List Char) (n : Nat) :
    ∃ k, cycle fill n <+: (List.replicate k fill).flatten := ⟨_, List.take_prefix _ _⟩

theorem pad_of_le (h : target.isNaN = true ∨ target.lessEqual (.ofNat text.length) = true) :
    pad text fill target = .ok text := by
  unfold pad
  rw [if_pos (by rcases h with h | h <;> simp [h])]

/-- A text that is not left alone for its length is padded unless the target is past the limit. -/
theorem pad_of_not_le (hfill : fill ≠ []) (hnan : target.isNaN = false)
    (hle : target.lessEqual (.ofNat text.length) = false) :
    pad text fill target =
      if (Number.ofNat maxLength).less target then .error .invalidStringLength
      else .ok (cycle fill (target.clampToNat maxLength - text.length) ++ text) := by
  have hempty : fill.isEmpty = false := by simpa using hfill
  unfold pad
  rw [if_neg (by simp [hnan, hle, hempty])]

/-! ## Calls -/

/-- Whether a member of a text answers a call so, in both modes and in every state of a run. The
call leaves nothing behind but that a function was made for it. -/
def Answers (s member : String) (args : List Value) (answer : Except RunError Value) : Prop :=
  ∀ (fuel : Nat) (mode : Mode) (st : Store),
    (Walk.memberOf (.string s) member >>= fun f => Walk.call (fuel + 2) mode f args) st =
      Run.ofAnswer answer { st with functions := st.functions + 1 }

/-- A function member answers what its function does. -/
theorem answers_apply {member : String} {args : List Value} (function : TextFunction)
    (hmember : Value.stringMember? s member = some (.function (.text s function)))
    (hargs : ∀ v ∈ args, v.isData = true) : Answers s member args (function.apply s args) := by
  intro fuel mode st
  have hfound : (Value.string s).memberOf member = .ok (.function (.text s function)) := by
    rw [Value.memberOf, Value.member?, hmember]
  have hsnapshot : ∀ st : Store, args.map st.snapshot = args := fun st =>
    (List.map_congr_left fun v hv => Store.snapshot_of_isData (hargs v hv)).trans (List.map_id _)
  -- the member is made anew, and is no cell
  have hmade : Walk.memberOf (.string s) member st =
      some (.ok (.function st.functions (.text s function)),
        { st with functions := st.functions + 1 }) := by
    rw [Walk.memberOf, Run.snapshot_bind, Store.snapshot_of_isData rfl, hfound]
    rfl
  rw [Run.bind_of_ok hmade, Walk.call, Run.snapshot_bind]
  change Walk.apply (fuel + 1) mode (.text s function) args _ = _
  rw [Walk.apply, Run.read_bind]
  exact congrArg (fun vs => Run.ofAnswer (function.apply s vs) _) (hsnapshot _)

theorem answers_substring (s : String) (a b : Number) :
    Answers s "substring" [.number a, .number b] (.ok (.string (String.ofList
      (slice s.toList (a.clampToNat s.length) (b.clampToNat s.length))))) :=
  answers_apply .substring rfl (by simp [Value.isData])

theorem answers_substring_from (s : String) (a : Number) :
    Answers s "substring" [.number a] (.ok (.string (String.ofList
      (slice s.toList (a.clampToNat s.length) s.length)))) :=
  answers_apply .substring rfl (by simp [Value.isData])

theorem answers_padStart (s f : String) (target : Number) :
    Answers s "padStart" [.number target, .string f]
      ((pad s.toList f.toList target).map fun text => .string (String.ofList text)) :=
  answers_apply .padStart rfl (by simp [Value.isData])

/-! ## What is answered -/

/-- What lies between two positions of a text is answered in either order of the positions. -/
theorem exists_substring (s : String) (a b : Number) : ∃ before between after : String,
    before ++ between ++ after = s ∧
    Answers s "substring" [.number a, .number b] (.ok (.string between)) ∧
    Answers s "substring" [.number b, .number a] (.ok (.string between)) ∧
    (before.length : Int) = min (a.clamped s.length) (b.clamped s.length) ∧
    between.length = (a.clamped s.length - b.clamped s.length).natAbs := by
  have ha : a.clampToNat s.length ≤ s.toList.length := a.clampToNat_le _
  have hb : b.clampToNat s.length ≤ s.toList.length := b.clampToNat_le _
  rw [← Number.clampToNat_eq_clamped, ← Number.clampToNat_eq_clamped]
  -- the text is cut at the smaller and at the larger position
  generalize hi : a.clampToNat s.length = i at ha ⊢
  generalize hj : b.clampToNat s.length = j at hb ⊢
  refine ⟨.ofList (s.toList.take (min i j)), .ofList (slice s.toList i j),
    .ofList (s.toList.drop (max i j)), ?_, ?_, ?_, ?_, ?_⟩
  · rw [← String.ofList_append, ← String.ofList_append, take_append_slice_append_drop,
      String.ofList_toList]
  · rw [← hi, ← hj]
    exact answers_substring s a b
  · rw [slice_comm, ← hi, ← hj]
    exact answers_substring s b a
  · rw [String.length_ofList, List.length_take]
    omega
  · rw [String.length_ofList, length_slice ha hb]
    omega

/-- A text falls into what is in front of a position and what is behind it. -/
theorem exists_substring_append (s : String) (a : Number) : ∃ front back : String,
    front ++ back = s ∧
    Answers s "substring" [.number 0, .number a] (.ok (.string front)) ∧
    Answers s "substring" [.number a] (.ok (.string back)) := by
  have hzero : (0 : Number).clampToNat s.length = 0 := by
    show (Number.ofNat 0).clampToNat s.length = 0
    rw [Number.ofNat_of_le (Nat.zero_le _)]
    simp [Number.clampToNat]
  have hfront := answers_substring s 0 a
  have hback := answers_substring_from s a
  rw [hzero, slice_zero] at hfront
  rw [← String.length_toList, slice_length (a.clampToNat_le _)] at hback
  refine ⟨_, _, ?_, hfront, hback⟩
  rw [← String.ofList_append, String.length_toList, List.take_append_drop, String.ofList_toList]

theorem padStart_of_le (f : String)
    (h : target.isNaN = true ∨ target.lessEqual (.ofNat s.length) = true) :
    Answers s "padStart" [.number target, .string f] (.ok (.string s)) := by
  have hanswer := answers_padStart s f target
  rw [← String.length_toList] at h
  rw [pad_of_le h, Except.map, String.ofList_toList] at hanswer
  exact hanswer

theorem padStart_of_limit_less (hf : f ≠ "") (hnan : target.isNaN = false)
    (hle : target.lessEqual (.ofNat s.length) = false)
    (hlimit : (Number.ofNat maxLength).less target = true) :
    Answers s "padStart" [.number target, .string f] (.error .invalidStringLength) := by
  have hfill : f.toList ≠ [] := by simpa using hf
  have hanswer := answers_padStart s f target
  rw [← String.length_toList] at hle
  rw [pad_of_not_le hfill hnan hle, if_pos hlimit, Except.map] at hanswer
  exact hanswer

/-- A target that is more than the length of a text, but not past the limit, is reached. -/
theorem exists_padStart (hf : f ≠ "") (hnan : target.isNaN = false)
    (hle : target.lessEqual (.ofNat s.length) = false)
    (hlimit : (Number.ofNat maxLength).less target = false) : ∃ filling : String,
    Answers s "padStart" [.number target, .string f] (.ok (.string (filling ++ s))) ∧
    s.length ≤ target.clampToNat maxLength ∧
    target.truncate? = some ((filling ++ s).length : Int) ∧
    ∃ k, filling.toList <+: (List.replicate k f.toList).flatten := by
  have hfill : f.toList ≠ [] := by simpa using hf
  have hmax : maxLength ≤ 2 ^ (53 : Nat) := by decide
  obtain ⟨hle', htrunc⟩ := Number.exists_truncate?_of_between hmax hnan hle hlimit
  have hanswer := answers_padStart s f target
  rw [← String.length_toList] at hle
  rw [pad_of_not_le hfill hnan hle, hlimit, String.length_toList, if_neg Bool.false_ne_true,
    Except.map, String.ofList_append, String.ofList_toList] at hanswer
  refine ⟨_, hanswer, hle', ?_, ?_⟩
  · rw [htrunc, String.length_append, String.length_ofList, length_cycle hfill,
      Nat.sub_add_cancel hle']
  · rw [String.toList_ofList]
    exact exists_cycle_initial _ _

/-- Positions cut a text in either order, as far apart as they are once they are brought into its
range, and what is in front of a position and what is behind it are the whole text. A text is padded
from the front with what is repeated, to exactly the whole part of the length that is asked for,
unless it is as long already or would become too long. Lengths are compared exactly, as long as
there are numbers for all of them. -/
theorem substring_and_padStart (s : String) :
    (∀ a b : Number, ∃ before between after : String,
      before ++ between ++ after = s ∧
      Answers s "substring" [.number a, .number b] (.ok (.string between)) ∧
      Answers s "substring" [.number b, .number a] (.ok (.string between)) ∧
      (before.length : Int) = min (a.clamped s.length) (b.clamped s.length) ∧
      between.length = (a.clamped s.length - b.clamped s.length).natAbs) ∧
    (∀ a : Number, ∃ front back : String,
      front ++ back = s ∧
      Answers s "substring" [.number 0, .number a] (.ok (.string front)) ∧
      Answers s "substring" [.number a] (.ok (.string back))) ∧
    (∀ (target : Number) (f : String), f ≠ "" →
      (target.isNaN = true ∨ target.lessEqual (.ofNat s.length) = true →
        Answers s "padStart" [.number target, .string f] (.ok (.string s))) ∧
      (target.isNaN = false → target.lessEqual (.ofNat s.length) = false →
        ((Number.ofNat (2 ^ 29)).less target = true →
          Answers s "padStart" [.number target, .string f] (.error .invalidStringLength)) ∧
        ((Number.ofNat (2 ^ 29)).less target = false → ∃ filling : String,
          Answers s "padStart" [.number target, .string f] (.ok (.string (filling ++ s))) ∧
          s.length ≤ target.clampToNat maxLength ∧
          target.truncate? = some ((filling ++ s).length : Int) ∧
          ∃ k, filling.toList <+: (List.replicate k f.toList).flatten))) ∧
    (∀ (target : Number) (p : Int), target.position? = some p →
      (p ≤ ((s.length * Number.unitsPerOne : Nat) : Int) →
        target.lessEqual (.ofNat s.length) = true) ∧
      (s.length ≤ 2 ^ 53 → target.lessEqual (.ofNat s.length) = true →
        p ≤ ((s.length * Number.unitsPerOne : Nat) : Int))) := by
  refine ⟨exists_substring s, exists_substring_append s, fun target f hf => ⟨padStart_of_le f, ?_⟩,
    fun target p hp => ⟨Number.lessEqual_ofNat_of_le hp, fun hlength =>
      Number.le_of_lessEqual_ofNat hlength hp⟩⟩
  intro hnan hle
  exact ⟨padStart_of_limit_less hf hnan hle, exists_padStart hf hnan hle⟩

set_option maxRecDepth 10000 in
/-- A text of three characters and six bytes is padded to six of them where 6.75 are asked for, left
as it is where a little more than three are, and not padded to infinity. -/
theorem substring_and_padStart_of_fraction :
    let s := "ä→b"
    let long : Number := .ofNat 27 / .ofNat 4
    let short : Number := .ofNat (3 * 2 ^ 50 + 1) / .ofNat (2 ^ 50)
    "xy" ≠ "" ∧
    (∃ filling : String, filling.length = 3 ∧
      Answers s "padStart" [.number long, .string "xy"] (.ok (.string (filling ++ s))) ∧
      ∃ k, filling.toList <+: (List.replicate k ['x', 'y']).flatten) ∧
    Answers s "padStart" [.number short, .string "xy"] (.ok (.string s)) ∧
    Answers s "padStart" [.number (.infinite false), .string "xy"] (.error .invalidStringLength) ∧
    ∃ p, (Number.ofNat 3).position? = some p ∧
      p ≤ ((s.length * Number.unitsPerOne : Nat) : Int) := by
  intro s long short
  have hfill : "xy" ≠ "" := by decide
  have hthree : s.length = 3 := by decide
  obtain ⟨-, -, hpads, hexact⟩ := substring_and_padStart s
  refine ⟨hfill, ?_, ?_, ?_, ?_⟩
  · obtain ⟨filling, hanswer, -, htrunc, hrepeated⟩ :=
      ((hpads long "xy" hfill).2 (by decide +kernel) (by decide +kernel)).2 (by decide +kernel)
    have hwhole : long.truncate? = some 6 := by decide +kernel
    rw [hwhole, String.length_append, Option.some.injEq] at htrunc
    exact ⟨filling, by omega, hanswer, hrepeated⟩
  · -- nothing is missing once the fraction is dropped
    obtain ⟨filling, hanswer, -, htrunc, -⟩ :=
      ((hpads short "xy" hfill).2 (by decide +kernel) (by decide +kernel)).2 (by decide +kernel)
    have hwhole : short.truncate? = some 3 := by decide +kernel
    rw [hwhole, String.length_append, Option.some.injEq] at htrunc
    have hempty : filling = "" := String.length_eq_zero_iff.1 (by omega)
    rw [hempty, String.empty_append] at hanswer
    exact hanswer
  · exact ((hpads _ "xy" hfill).2 rfl (by decide +kernel)).1 (by decide +kernel)
  · have hp := Number.position?_ofNat (show 3 ≤ 2 ^ (53 : Nat) by decide)
    exact ⟨_, hp, (hexact _ _ hp).2 (by decide) (by decide +kernel)⟩

end SearchScript.TextFunction
