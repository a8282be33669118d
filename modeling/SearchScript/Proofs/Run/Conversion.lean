import Mathlib
import SearchScript.Proofs.Number.Format
import SearchScript.Proofs.Run.Fuel
import SearchScript.Run.Program

/-!
# Numbers through their texts

The member `string` of a number is its text, and the type `Number` reads a text. A program that goes
from a number to its text and back ends where it began, but for the sign of zero.

## Key results

- `Walk.comesTo_textMember`: the text of what an expression comes to
- `Walk.comesTo_conversion`: the number that the text of an argument stands for
- `Number.text_invertible`: numbers are read back from their texts, also by programs
-/

namespace SearchScript

namespace Walk

open Run

variable {ctx : Context} {e : Expr} {st st' : Store} {v : Value}

/-- A member of what an expression comes to, if it is data, is what the access comes to. -/
theorem comesTo_dataMember {w : Value} {name : String} {span nameSpan : Span}
    (hreal : ctx.mode = .real) (he : ComesTo (fun fuel => expr fuel ctx e) st (.ok v, st'))
    (hv : (st'.snapshot v).memberOf name = .ok (.data w)) :
    ComesTo (fun fuel => expr fuel ctx (.binary span .member e (.name nameSpan name))) st
      (.ok w, st') := by
  obtain ⟨fuel, he⟩ := he
  refine ⟨fuel + 1, (bind_of_ok he).trans ?_⟩
  simp only [member, hreal, namedMember, memberOf]
  refine (bind_of_ok (a := st'.snapshot v) rfl).trans ?_
  rw [hv]
  rfl

/-- The member `string` of what an expression comes to, if that is a number, is its text. -/
theorem comesTo_textMember {n : Number} {span nameSpan : Span} (hreal : ctx.mode = .real)
    (he : ComesTo (fun fuel => expr fuel ctx e) st (.ok v, st')) (hv : st'.snapshot v = .number n) :
    ComesTo (fun fuel => expr fuel ctx (.binary span .member e (.name nameSpan "string"))) st
      (.ok (.string n.format), st') :=
  comesTo_dataMember hreal he (by rw [hv]; rfl)

/-- A call with one argument comes to what the value called answers to the argument. -/
theorem comesTo_callOne {callee : Expr} {c : Value} {st₁ st₂ : Store} {span : Span}
    {outcome : Except Signal Value × Store} (hargs : e.arguments = [e])
    (hc : ComesTo (fun fuel => expr fuel ctx callee) st (.ok c, st₁))
    (he : ComesTo (fun fuel => expr fuel ctx e) st₁ (.ok v, st₂))
    (hcall : ComesTo (fun fuel => call fuel ctx.mode c [v]) st₂ outcome) :
    ComesTo (fun fuel => expr fuel ctx (.binary span .call callee e)) st outcome := by
  obtain ⟨i, hc⟩ := hc
  obtain ⟨j, he⟩ := he
  obtain ⟨k, hcall⟩ := hcall
  -- enough steps for each of the three, and two more for the list of arguments
  have hlong := prolonged (show i ≤ i + j + k + 2 by omega)
  have hlist : exprs (i + j + k + 2) ctx [e] st₁ = some (.ok [v], st₂) := by
    have hfirst := (prolonged (show j ≤ i + j + k + 1 by omega)).expr ctx e he
    exact (bind_of_ok hfirst).trans rfl
  refine ⟨i + j + k + 3, (bind_of_ok (hlong.expr ctx callee hc)).trans ?_⟩
  simp only [hargs]
  refine (bind_of_ok hlist).trans ?_
  exact (prolonged (show k ≤ i + j + k + 2 by omega)).call ctx.mode c [v] hcall

/-- The type `Number` reads the text that its one argument comes to. -/
theorem comesTo_conversion {s : String} {span typeSpan : Span} (hargs : e.arguments = [e])
    (he : ComesTo (fun fuel => expr fuel ctx e) st (.ok v, st')) (hv : st'.snapshot v = .string s) :
    ComesTo (fun fuel => expr fuel ctx (.binary span .call (.typeName typeSpan .number) e)) st
      (.ok (.number (Number.read s)), st') := by
  have htype : ComesTo (fun fuel => expr fuel ctx (.typeName typeSpan .number)) st
      (.ok (.constructor .number), st) := ⟨1, rfl⟩
  refine comesTo_callOne hargs htype he ⟨1, ?_⟩
  refine (bind_of_ok (a := .constructor .number) rfl).trans ?_
  refine (bind_of_ok (a := st'.snapshot v) rfl).trans ?_
  rw [hv]
  rfl

end Walk

namespace Number

open Run

/-- What is read from the text of a number equals the number, unless it is NaN. -/
theorem equal_read_format (n : Number) : (read n.format).equal n = !n.isNaN := by
  rw [read_format]
  split
  · next h =>
    subst h
    decide
  · match n with
    | .nan => rfl
    | .infinite _ => simp [equal, position?, isNaN]
    | .finite .. => simp [equal, position?, isNaN]

/-- The text of a number is read as that number, but for the sign of zero, and so equals it, unless
it is NaN. Two numbers have the same text only if both are zero. A program that converts the text of
a number back gets the number. -/
theorem text_invertible :
    (∀ n, (read n.format = if n = signedZero true then signedZero false else n) ∧
      (read n.format).equal n = !n.isNaN) ∧
    (∀ a b : Number, a.format = b.format ↔ a = b ∨ a.isZero = true ∧ b.isZero = true) ∧
    ∀ {ctx e st st' v n span typeSpan memberSpan nameSpan}, ctx.mode = .real →
      ComesTo (fun fuel => Walk.expr fuel ctx e) st (.ok v, st') → st'.snapshot v = .number n →
      ComesTo (fun fuel => Walk.expr fuel ctx (.binary span .call (.typeName typeSpan .number)
        (.binary memberSpan .member e (.name nameSpan "string")))) st
        (.ok (.number (if n = signedZero true then signedZero false else n)), st') := by
  refine ⟨fun n => ⟨read_format n, equal_read_format n⟩, fun a b => format_eq_iff, ?_⟩
  intro ctx e st st' v n span typeSpan memberSpan nameSpan hreal he hv
  rw [← read_format]
  exact Walk.comesTo_conversion rfl (Walk.comesTo_textMember hreal he hv) rfl

/-- A program that converts the text of a small negative number back. -/
theorem text_invertible_of_small :
    let n := ofDecimal true ⟨25, -9⟩
    let st : Store := { hosts := #[{ globals := [("x", .number n)] }] }
    n.format = "-2.5e-8" ∧ ∃ e, Code.parse .strict false "Number(x.string)" = .ok (.expression e) ∧
      ComesTo (fun fuel => Walk.expr fuel ⟨.real, 0, ⟨[], 0⟩⟩ e) st (.ok (.number n), st) := by
  intro n st
  refine ⟨by decide +kernel, _, by cbv, ?_⟩
  have hback : (if n = signedZero true then signedZero false else n) = n :=
    if_neg (by decide +kernel)
  have hx : ComesTo (fun fuel => Walk.expr fuel ⟨.real, 0, ⟨[], 0⟩⟩ (.name ⟨7, 8⟩ "x")) st
      (.ok (.number n), st) := ⟨1, rfl⟩
  rw [← hback]
  exact text_invertible.2.2 rfl hx rfl

end Number

end SearchScript
