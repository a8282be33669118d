import SearchScript.Number.Basic

/-!
# The order of numbers

Numbers are compared by where they stand on the line. NaN stands nowhere, so it is in no order with
anything, itself included; all other numbers are in a linear order, but for the two zeros.

## Key results

- `Number.less_eq_true_iff`, `Number.lessEqual_eq_true_iff`: comparison by positions
- `Number.less_or_less_of_less`: a smaller number is in order with each number, NaN apart
-/

namespace SearchScript.Number

variable {a b c n : Number}

theorem less_eq_true_iff :
    a.less b = true ↔ ∃ x y, a.position? = some x ∧ b.position? = some y ∧ x < y := by
  unfold less
  cases a.position? <;> cases b.position? <;> simp

theorem lessEqual_eq_true_iff :
    a.lessEqual b = true ↔ ∃ x y, a.position? = some x ∧ b.position? = some y ∧ x ≤ y := by
  unfold lessEqual
  cases a.position? <;> cases b.position? <;> simp

theorem position?_eq_none_iff : n.position? = none ↔ n = .nan := by
  cases n <;> simp [position?]

@[simp] theorem less_nan (a : Number) : a.less .nan = false := by
  simp [less, show nan.position? = none from rfl]

@[simp] theorem nan_less (b : Number) : nan.less b = false := by
  simp [less, show nan.position? = none from rfl]

theorem less_asymm (h : a.less b = true) : b.less a = false := by
  obtain ⟨x, y, hx, hy, hlt⟩ := less_eq_true_iff.1 h
  simp only [less, hx, hy, decide_eq_false_iff_not]
  omega

/-- A number that is smaller than another one is in order with each number, NaN apart. -/
theorem less_or_less_of_less (h : c.less a = true) (hb : b ≠ .nan) :
    b.less a = true ∨ c.less b = true := by
  obtain ⟨z, x, hz, hx, hlt⟩ := less_eq_true_iff.1 h
  obtain ⟨y, hy⟩ := Option.ne_none_iff_exists'.1 (mt position?_eq_none_iff.1 hb)
  simp only [less, hx, hy, hz, decide_eq_true_eq]
  omega

end SearchScript.Number
