import SearchScript.Proofs.Parse.Complete
import SearchScript.Run.Program

/-!
# The tolerant mode on complete programs

The modes differ only where something is missing, and where something is missing the strict mode
stops. So whatever the strict mode reads, the tolerant mode reads by the same rules: the trees agree
with all their spans and names, and so do the places behind them.

## Key results

- `Reads.tolerant`: what the strict rules read, the tolerant rules read alike
- `Code.parse_tolerant_of_strict`: the tolerant mode gives a complete program the same tree
-/

namespace SearchScript

namespace Cursor

variable {c d : Cursor} {kind : TokenKind}

/-- A token that the strict mode requires is there, so the tolerant mode takes it as well. -/
theorem require_tolerant (h : c.require .strict kind = .ok d) :
    c.require .tolerant kind = .ok d := by
  rcases require_eq_ok_iff.1 h with hn | ⟨-, ⟨⟩, -⟩
  exact require_eq_ok_iff.2 (.inl hn)

theorem expect_tolerant {t? : Option Token} (h : c.expect .strict kind = .ok (t?, d)) :
    c.expect .tolerant kind = .ok (t?, d) := by
  rcases expect_eq_ok_iff.1 h with hn | ⟨-, -, ⟨⟩, -⟩
  exact expect_eq_ok_iff.2 (.inl hn)

end Cursor

namespace Parse

open Cursor

variable {p : Phrase} {c d : Cursor} {source : String}

/-- What the strict rules read, the tolerant rules read alike. -/
theorem Reads.tolerant {r : p.Result} (h : Reads .strict p c r d) : Reads .tolerant p c r d := by
  induction h with
  -- these two rules ask for the mode, and nothing comes of them in the strict one
  | operatorsMissing _ _ hm => cases hm
  | assignmentMissing _ _ _ _ hm => cases hm
  | _ => grind [Reads, → require_tolerant, → expect_tolerant]

/-- Only an empty text is refused at its start, and only by the strict mode. -/
theorem start_tolerant_of_strict (h : start .strict source = .ok c) :
    start .tolerant source = .ok c := by
  unfold start at h ⊢
  split at h
  · cases h
  · cases h
  · exact h

end Parse

variable {source : String}

theorem Expr.parse_tolerant {e : Expr} (h : Expr.parse .strict source = .ok e) :
    Expr.parse .tolerant source = .ok e := by
  obtain ⟨c, d, hstart, hreads, hd⟩ := parse_eq_ok_iff.1 h
  exact parse_eq_ok_iff.2 ⟨c, d, Parse.start_tolerant_of_strict hstart, hreads.tolerant, hd⟩

theorem Statement.parseScript_tolerant {s : Statement}
    (h : Statement.parseScript .strict source = .ok s) :
    Statement.parseScript .tolerant source = .ok s := by
  obtain ⟨c, body, d, hstart, hreads, hd, hs⟩ := parseScript_eq_ok_iff.1 h
  exact parseScript_eq_ok_iff.2
    ⟨c, body, d, Parse.start_tolerant_of_strict hstart, hreads.tolerant, hd, hs⟩

/-- A program that can be read strictly is read by the tolerant mode as the same tree, with the same
spans and names. -/
theorem Code.parse_tolerant_of_strict {isScript : Bool} {source : String} {code : Code}
    (h : Code.parse .strict isScript source = .ok code) :
    Code.parse .tolerant isScript source = .ok code := by
  cases isScript with
  | false =>
    obtain ⟨e, he, hcode⟩ := Except.map_eq_ok_iff.1 h
    exact Except.map_eq_ok_iff.2 ⟨e, Expr.parse_tolerant he, hcode⟩
  | true =>
    obtain ⟨s, hs, hcode⟩ := Except.map_eq_ok_iff.1 h
    exact Except.map_eq_ok_iff.2 ⟨s, Statement.parseScript_tolerant hs, hcode⟩

/-- A script with a function, a loop without some of its parts and a number that is cut in two. -/
theorem Code.parse_tolerant_of_loop :
    ∃ code, Code.parse .strict true "let f = function(a) { return a -1; }; for (;;) f(2).x = ^3;" =
        .ok code ∧
      Code.parse .tolerant true "let f = function(a) { return a -1; }; for (;;) f(2).x = ^3;" =
        .ok code := by
  have hparse : (Code.parse .strict true
      "let f = function(a) { return a -1; }; for (;;) f(2).x = ^3;").isOk = true := by
    decide +kernel
  cases hcode : Code.parse .strict true
      "let f = function(a) { return a -1; }; for (;;) f(2).x = ^3;" with
  | error e => simp [hcode, Except.isOk, Except.toBool] at hparse
  | ok code => exact ⟨code, rfl, Code.parse_tolerant_of_strict hcode⟩

end SearchScript
