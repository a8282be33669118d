import SearchScript.Proofs.Token.Placement

/-!
# Scanning loses nothing

The pieces of a text are the whole text, cut where the rules say: every piece is the longest match
in front of what follows it, or a stretch at which no rule matches. What the scanner reports are the
pieces other than blanks and comments, each at its place.

## Key results

- `Piece.texts_pieces`: the pieces of a text are the whole text
- `Piece.stands_of_pieces`: every piece of a text is what the rules call for
- `Token.scanSteps_lossless`: what the scanner reports of any text
-/

namespace SearchScript

namespace Piece

variable {cs before : List Char} {front back : List Piece} {piece : Piece} {t : Token}

/-- Cutting a text into pieces loses nothing of it. -/
theorem texts_pieces (cs : List Char) : texts (pieces cs) = cs := by
  induction cs using pieces_induction with
  | nil => rfl
  | cons c cs ih => rw [pieces_cons, texts_cons, ih, List.cons_append, List.take_append_drop]

/-- Every piece of a text is what the rules call for in front of the pieces behind it. -/
theorem stands_of_pieces (h : pieces cs = front ++ piece :: back) :
    piece.text ≠ [] ∧ Stands (texts back) piece := by
  induction cs using pieces_induction generalizing front with
  | nil => simp at h
  | cons c cs ih =>
    rw [pieces_cons] at h
    cases front with
    | nil =>
      -- the piece is the first one, and the text behind it is what was not taken
      obtain ⟨rfl, rfl⟩ := List.cons_eq_cons.1 h
      rw [texts_pieces]
      exact ⟨List.cons_ne_nil _ _, stands_classify c cs⟩
    | cons first front => exact ih (List.cons_eq_cons.1 h).2

/-- What is reported for pieces in a row: each of them at the place that the text in front of it
leads to. -/
theorem mem_reports_iff {ps : List Piece} {offset : Nat} {r : Except ScanError Token} :
    r ∈ reports offset ps ↔ ∃ front piece back, ps = front ++ piece :: back ∧
      report? (offset + utf8Length (texts front)) piece = some r := by
  induction ps generalizing offset with
  | nil => simp [reports]
  | cons first ps ih =>
    -- a report is that of the first piece or one of the rest
    have hhead : r ∈ reports offset (first :: ps) ↔
        report? offset first = some r ∨ r ∈ reports (offset + utf8Length first.text) ps := by
      rw [reports]
      split
      · next r' hr =>
        rw [List.mem_cons, hr, Option.some.injEq, eq_comm]
      · next hr => simp [hr]
    rw [hhead, ih]
    constructor
    · rintro (hr | ⟨front, piece, back, rfl, hr⟩)
      · exact ⟨[], first, ps, rfl, hr⟩
      · refine ⟨first :: front, piece, back, rfl, ?_⟩
        rw [texts_cons, utf8Length_append, ← Nat.add_assoc]
        exact hr
    · rintro ⟨front, piece, back, hps, hr⟩
      cases front with
      | nil =>
        obtain ⟨rfl, rfl⟩ := List.cons_eq_cons.1 hps
        exact .inl hr
      | cons _ front =>
        obtain ⟨rfl, rfl⟩ := List.cons_eq_cons.1 hps
        rw [texts_cons, utf8Length_append, ← Nat.add_assoc] at hr
        exact .inr ⟨front, piece, back, rfl, hr⟩

theorem isSome_report? {offset : Nat} (h : piece.isSolid = true) :
    (report? offset piece).isSome = true := by
  obtain ⟨kind, text⟩ := piece
  cases kind with
  | blank | comment => cases h
  | token | invalid | unterminatedString | unterminatedComment => rfl

/-- Each report takes at least one character. -/
theorem length_reports_le (offset : Nat) (cs : List Char) :
    (reports offset (pieces cs)).length ≤ cs.length := by
  induction cs using pieces_induction generalizing offset with
  | nil => exact Nat.le_refl 0
  | cons c cs ih =>
    rw [pieces_cons, reports]
    dsimp only
    have hrest := ih (offset + utf8Length (c :: cs.take (classify c cs).2))
    rw [List.length_drop] at hrest
    split
    · rw [List.length_cons, List.length_cons]
      omega
    · rw [List.length_cons]
      omega

/-- A token is reported where it stands, and it is the longest match there. -/
theorem longest_of_mem_reports (h : .ok t ∈ reports 0 (pieces cs)) :
    ∃ before after, cs = before ++ t.text.toList ++ after ∧
      t.span = ⟨utf8Length before, utf8Length (before ++ t.text.toList)⟩ ∧
      Longest (.token t.kind) t.text.toList after := by
  obtain ⟨front, piece, back, hpieces, hr⟩ := mem_reports_iff.1 h
  obtain ⟨-, hstands⟩ := stands_of_pieces hpieces
  have htexts : cs = texts front ++ piece.text ++ texts back := by
    rw [← texts_pieces cs, hpieces, texts_append, texts_cons, List.append_assoc]
  rw [Nat.zero_add] at hr
  cases hstands with
  | @longest kind text hlongest =>
    unfold report? at hr
    split at hr <;> cases hr
    next hkind =>
    cases hkind
    refine ⟨texts front, texts back, ?_, ?_, ?_⟩
    · rw [String.toList_ofList]
      exact htexts
    · rw [String.toList_ofList, utf8Length_append]
    · rw [String.toList_ofList]
      exact hlongest
  | invalid | openString | openComment => cases hr

/-- A match of the rule for strings ends at its first quote without an odd run of backslashes in
front. -/
theorem Matches.string_body (h : Matches (.token .string) cs) :
    ∃ body, cs = '"' :: (body ++ ['"']) ∧ QuotesEscaped body ∧ escapesNext body = false := by
  cases h with
  | @string body hq he => exact ⟨body, rfl, hq, he⟩
  -- no keyword and no operator is of this kind
  | keyword hw => simp [TokenKind.keywords] at hw
  | operator hk => exact absurd hk (by decide)

end Piece

namespace Token

open Piece

/-- Scanning loses nothing. The text is cut into pieces, none of them empty: tokens, blanks and
comments, each the longest match of any rule in front of what follows, characters that no rule
matches anything at, and the tail behind a quote or a comment that is not closed. Each of them but
blanks and comments is reported at its place; the reports stand in the text one behind the other,
and there are no more of them than characters. A token is the longest match at its span, and a
string ends at its first quote without an odd run of backslashes in front. -/
theorem scanSteps_lossless (source : String) :
    texts (pieces source.toList) = source.toList ∧
    (∀ front piece back, pieces source.toList = front ++ piece :: back →
      piece.text ≠ [] ∧ Stands (texts back) piece ∧
        (piece.isSolid = true →
          ∃ r ∈ scanSteps source, report? (utf8Length (texts front)) piece = some r)) ∧
    Reported source 0 (scanSteps source) ∧
    (scanSteps source).length ≤ source.length ∧
    (∀ t, .ok t ∈ scanSteps source → ∃ before after,
      source.toList = before ++ t.text.toList ++ after ∧
      t.span = ⟨utf8Length before, utf8Length (before ++ t.text.toList)⟩ ∧
      Longest (.token t.kind) t.text.toList after) ∧
    ∀ t, .ok t ∈ scanSteps source → t.kind = .string → ∃ body,
      t.text.toList = '"' :: (body ++ ['"']) ∧ QuotesEscaped body ∧ escapesNext body = false := by
  refine ⟨texts_pieces _, fun front piece back hpieces => ?_, reported_scanSteps source, ?_,
    fun t ht => longest_of_mem_reports ht, fun t ht hkind => ?_⟩
  · obtain ⟨hne, hstands⟩ := stands_of_pieces hpieces
    refine ⟨hne, hstands, fun hsolid => ?_⟩
    obtain ⟨r, hr⟩ := Option.isSome_iff_exists.1 (isSome_report? hsolid)
    exact ⟨r, mem_reports_iff.2 ⟨front, piece, back, hpieces, by rwa [Nat.zero_add]⟩, hr⟩
  · rw [← String.length_toList]
    exact length_reports_le 0 _
  · obtain ⟨before, after, -, -, hlongest⟩ := longest_of_mem_reports ht
    rw [hkind] at hlongest
    exact hlongest.matched.string_body

/-- A string whose last backslash is taken by the one in front, the longest of the operators that
fit, a character that starts no token, and a comment that is not closed. -/
theorem scanSteps_lossless_of_openComment :
    scanSteps "\"\\\\\"<<=é/*" =
        [.ok ⟨.string, ⟨0, 4⟩, "\"\\\\\""⟩, .ok ⟨.shiftLeftAssign, ⟨4, 7⟩, "<<="⟩,
          .error ⟨7, .invalidCharacter 'é'⟩, .error ⟨9, .unterminatedComment⟩] ∧
      (∃ before after, "\"\\\\\"<<=é/*".toList = before ++ "<<=".toList ++ after ∧
        Span.mk 4 7 = ⟨utf8Length before, utf8Length (before ++ "<<=".toList)⟩ ∧
        Longest (.token .shiftLeftAssign) "<<=".toList after) ∧
      ∃ body, "\"\\\\\"".toList = '"' :: (body ++ ['"']) ∧ QuotesEscaped body ∧
        escapesNext body = false := by
  have hsteps : scanSteps "\"\\\\\"<<=é/*" =
      [.ok ⟨.string, ⟨0, 4⟩, "\"\\\\\""⟩, .ok ⟨.shiftLeftAssign, ⟨4, 7⟩, "<<="⟩,
        .error ⟨7, .invalidCharacter 'é'⟩, .error ⟨9, .unterminatedComment⟩] := by
    decide
  obtain ⟨-, -, -, -, hlongest, hstring⟩ := scanSteps_lossless "\"\\\\\"<<=é/*"
  refine ⟨hsteps, hlongest ⟨.shiftLeftAssign, ⟨4, 7⟩, "<<="⟩ ?_,
    hstring ⟨.string, ⟨0, 4⟩, "\"\\\\\""⟩ ?_ rfl⟩
  · rw [hsteps]
    simp
  · rw [hsteps]
    simp

end Token

end SearchScript
