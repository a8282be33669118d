import SearchScript.Proofs.Except
import SearchScript.Run.Walk

/-!
# Which errors operations answer with

Four errors are about how parts of a program are left and called: a jump that no loop takes, and a
function that is called in the wrong mode. No operation on values answers with one of them.

## Key results

- `Value.ordinary_binary`, `TextFunction.ordinary_apply`, `Walk.ordinary_lookUp`: the operations
  that answer with errors of runs
-/

namespace SearchScript

/-- Whether an error is neither about a jump that no loop takes nor about a function that is called
in the wrong mode. -/
def RunError.isOrdinary : RunError → Bool
  | .breakOutsideLoop | .continueOutsideLoop | .speculativeCall | .realCall => false
  | _ => true

/-- Whether an answer is none of the errors about jumps and modes. -/
def Ordinary {α : Type} (x : Except RunError α) : Prop := ∀ e, x = .error e → e.isOrdinary = true

section

variable {α β : Type}

theorem ordinary_ok {a : α} : Ordinary (.ok a) := by
  rintro e ⟨⟩

theorem ordinary_error {e : RunError} (h : e.isOrdinary = true) :
    Ordinary (.error e : Except RunError α) := by
  rintro _ ⟨⟩
  exact h

theorem ordinary_liftValue {x : Except ValueError α} : Ordinary (liftValue x) := by
  cases x with
  | ok a => exact ordinary_ok
  | error e => exact ordinary_error rfl

theorem Ordinary.bind {x : Except RunError α} {f : α → Except RunError β} (hx : Ordinary x)
    (hf : ∀ a, Ordinary (f a)) : Ordinary (x >>= f) := by
  intro e h
  rcases Except.bind_eq_error_iff.1 h with h | ⟨a, -, h⟩
  · exact hx e h
  · exact hf a e h

end

theorem ordinary_argument {args : List Value} {i : Nat} : Ordinary (argument args i) := by
  unfold argument
  split
  · exact ordinary_ok
  · exact ordinary_error rfl

theorem ordinary_stringArgument {args : List Value} {i : Nat} :
    Ordinary (stringArgument args i) :=
  ordinary_argument.bind fun _ => ordinary_liftValue

theorem ordinary_numberArgument {args : List Value} {i : Nat} :
    Ordinary (numberArgument args i) :=
  ordinary_argument.bind fun _ => ordinary_liftValue

namespace TextFunction

theorem ordinary_pad {text fill : List Char} {target : Number} :
    Ordinary (pad text fill target) := by
  unfold pad
  dsimp only
  split
  · exact ordinary_ok
  · split
    · exact ordinary_error rfl
    · exact ordinary_ok

/-- The function members of texts do not answer with errors about jumps and modes. -/
theorem ordinary_apply {f : TextFunction} {s : String} {args : List Value} :
    Ordinary (f.apply s args) := by
  cases f with
  | padStart =>
    refine ordinary_numberArgument.bind fun target => ?_
    dsimp only
    split
    · exact ordinary_ok.bind fun _ => ordinary_pad.bind fun _ => ordinary_ok
    · exact ordinary_stringArgument.bind fun _ => ordinary_pad.bind fun _ => ordinary_ok
  | startsWith | endsWith | contains =>
    exact ordinary_stringArgument.bind fun _ => ordinary_ok
  | substring =>
    refine ordinary_numberArgument.bind fun start => ?_
    dsimp only
    split
    · exact ordinary_ok.bind fun _ => ordinary_ok
    · exact ordinary_numberArgument.bind fun _ => ordinary_ok
  | matchPattern =>
    refine ordinary_stringArgument.bind fun pattern => ?_
    split
    · exact ordinary_ok
    · exact ordinary_error rfl

end TextFunction

namespace Value

theorem ordinary_itemAt {items : List Value} {index : Number} : Ordinary (itemAt items index) := by
  simp only [itemAt]
  split
  · exact ordinary_ok
  · exact ordinary_error rfl

theorem ordinary_subscript {v w : Value} : Ordinary (v.subscript w) := by
  cases v with
  | list => exact ordinary_liftValue.bind fun _ => ordinary_itemAt
  | stringList => exact ordinary_liftValue.bind fun _ => ordinary_itemAt
  | _ => exact ordinary_error rfl

/-- Operators do not answer with errors about jumps and modes. -/
theorem ordinary_binary {op : BinaryOp} {v w : Value} : Ordinary (Value.binary op v w) := by
  unfold Value.binary
  split
  · exact ordinary_subscript
  · dsimp only
    split
    · split
      · exact ordinary_liftValue.bind fun _ => ordinary_ok
      · exact ordinary_error rfl
    · split
      · refine ordinary_liftValue.bind fun _ => ?_
        split
        · exact ordinary_ok
        · exact ordinary_error rfl
      · exact ordinary_error rfl
    · split
      · exact ordinary_liftValue.bind fun _ => ordinary_ok
      · exact ordinary_error rfl
    · split
      · exact ordinary_liftValue.bind fun _ => ordinary_ok
      · exact ordinary_error rfl
    · exact ordinary_error rfl

end Value

theorem Walk.ordinary_lookUp {files : FileStore} {v : Value} : Ordinary (lookUp files v) := by
  unfold lookUp
  split
  · split
    · exact ordinary_ok
    · exact ordinary_error rfl
  · split
    · exact ordinary_ok
    · exact ordinary_error rfl
  · exact ordinary_error rfl

end SearchScript
