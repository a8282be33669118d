import SearchScript.Proofs.Syntax.Nesting
import SearchScript.Proofs.Token.Rules

/-!
# Where the tokens of a text lie

The tokens and errors that the scanner reports stand in the text one behind the other, each token at
the span that it carries.

## Key definitions

- `Token.Placed`: what it means that tokens stand in a text between two offsets
- `Token.Reported`: what it means that tokens and errors stand in a text behind an offset

## Key results

- `Token.reported_scanSteps`: what the scanner reports stands in the text
- `Token.placed_of_scan`: the tokens that the scanner reads stand in the text
-/

namespace SearchScript

namespace Token

/-- Whether tokens stand in a text one behind the other between two offsets. -/
def Placed (source : String) (stop : Nat) : (start : Nat) → List Token → Prop
  | start, [] => start ≤ stop
  | start, t :: rest =>
    start ≤ t.span.start ∧ t.span.Spells source t.text ∧ Placed source stop t.span.stop rest

variable {source : String} {start stop : Nat} {t : Token} {tokens : List Token}

theorem Placed.le (h : Placed source stop start tokens) : start ≤ stop := by
  induction tokens generalizing start with
  | nil => exact h
  | cons t rest ih =>
    obtain ⟨hstart, hspells, hrest⟩ := h
    exact Nat.le_trans hstart (Nat.le_trans hspells.inText.ordered (ih hrest))

/-- Tokens behind an offset stand behind an earlier one as well. -/
theorem Placed.mono {start' : Nat} (h : Placed source stop start tokens) (hle : start' ≤ start) :
    Placed source stop start' tokens := by
  cases tokens with
  | nil => exact Nat.le_trans hle h
  | cons t rest => exact ⟨Nat.le_trans hle h.1, h.2⟩

/-- Tokens stand in front of the end of the last one. -/
theorem Placed.tight (h : Placed source stop start tokens) :
    Placed source ((tokens.getLast?.map (·.span.stop)).getD start) start tokens := by
  induction tokens generalizing start with
  | nil => exact Nat.le_refl start
  | cons t rest ih =>
    obtain ⟨hstart, hspells, hrest⟩ := h
    have hlast := ih hrest
    rw [Option.getD_map] at hlast
    rw [List.getLast?_cons]
    exact ⟨hstart, hspells, hlast⟩

/-- The last token ends between characters. -/
theorem Placed.isBoundary (h : Placed source stop start tokens) (hstart : IsBoundary source start) :
    IsBoundary source ((tokens.getLast?.map (·.span.stop)).getD start) := by
  cases hlast : tokens.getLast? with
  | none => exact hstart
  | some t =>
    have hspells : ∀ {start}, Placed source stop start tokens →
        ∀ t ∈ tokens, t.span.Spells source t.text := by
      clear h hlast
      induction tokens with
      | nil => exact fun _ => List.forall_mem_nil _
      | cons t rest ih => exact fun h => List.forall_mem_cons.2 ⟨h.2.1, ih h.2.2⟩
    exact (hspells h t (List.mem_of_getLast? hlast)).inText.stop

/-- Whether reports stand in a text one behind the other, behind an offset. A token stands at its
span and an error at the character that it is about; nothing stands behind an error about a string
or a comment that is not closed. -/
def Reported (source : String) : (start : Nat) → List (Except ScanError Token) → Prop
  | start, [] => start ≤ source.utf8ByteSize
  | start, .ok t :: rest =>
    start ≤ t.span.start ∧ t.span.start < t.span.stop ∧ t.span.Spells source t.text ∧
      Reported source t.span.stop rest
  | start, .error ⟨offset, .invalidCharacter c⟩ :: rest =>
    start ≤ offset ∧ Span.Spells source ⟨offset, offset + c.utf8Size⟩ (String.singleton c) ∧
      Reported source (offset + c.utf8Size) rest
  | start, .error e :: rest => start ≤ e.offset ∧ e.offset < source.utf8ByteSize ∧ rest = []

/-- Reports behind an offset stand behind an earlier one as well. -/
theorem Reported.mono {reports : List (Except ScanError Token)} {start' : Nat}
    (h : Reported source start reports) (hle : start' ≤ start) : Reported source start' reports := by
  match reports with
  | [] => exact Nat.le_trans hle h
  | .ok t :: rest => exact ⟨Nat.le_trans hle h.1, h.2⟩
  | .error ⟨offset, .invalidCharacter c⟩ :: rest => exact ⟨Nat.le_trans hle h.1, h.2⟩
  | .error ⟨offset, .unterminatedString⟩ :: rest => exact ⟨Nat.le_trans hle h.1, h.2⟩
  | .error ⟨offset, .unterminatedComment⟩ :: rest => exact ⟨Nat.le_trans hle h.1, h.2⟩
  | .error ⟨offset, .unexpectedEnd⟩ :: rest => exact ⟨Nat.le_trans hle h.1, h.2⟩

/-- Reports without an error are tokens that stand in the text. -/
theorem Reported.placed (h : Reported source start (tokens.map .ok)) :
    Placed source source.utf8ByteSize start tokens := by
  induction tokens generalizing start with
  | nil => exact h
  | cons t tokens ih =>
    obtain ⟨hle, -, hspells, hrest⟩ := h
    exact ⟨hle, hspells, ih hrest⟩

end Token

namespace Piece

variable {cs : List Char} {head : String}

/-- What is reported for the end of a text stands in it. -/
theorem reported_reports :
    Token.Reported (head ++ String.ofList cs) head.utf8ByteSize
      (reports head.utf8ByteSize (pieces cs)) := by
  induction cs using pieces_induction generalizing head with
  | nil => simp [reports, Token.Reported]
  | cons c cs ih =>
    rw [pieces_cons, reports]
    -- the text is the head, the next piece and what remains
    obtain ⟨piece, hpiece⟩ : ∃ piece, piece = c :: cs.take (classify c cs).2 := ⟨_, rfl⟩
    have hsize : head.utf8ByteSize + utf8Length piece =
        (head ++ String.ofList piece).utf8ByteSize := by
      rw [String.utf8ByteSize_append, ← utf8Length_toList (String.ofList piece),
        String.toList_ofList]
    have hpos : 0 < utf8Length piece := by
      rw [hpiece, utf8Length_cons]
      exact Nat.add_pos_left (Char.utf8Size_pos c) _
    have htext : head ++ String.ofList (c :: cs) =
        head ++ String.ofList piece ++ String.ofList (cs.drop (classify c cs).2) := by
      rw [String.append_assoc, ← String.ofList_append, hpiece, List.cons_append,
        List.take_append_drop]
    rw [← hpiece, htext]
    have hspells : Span.Spells
        (head ++ String.ofList piece ++ String.ofList (cs.drop (classify c cs).2))
        ⟨head.utf8ByteSize, head.utf8ByteSize + utf8Length piece⟩ (String.ofList piece) :=
      ⟨head, _, rfl, rfl, by rw [hsize, String.utf8ByteSize_append]⟩
    have hrest := @ih (head ++ String.ofList piece)
    rw [← hsize] at hrest
    have hstands := stands_classify c cs
    rw [← hpiece] at hstands
    have hskip := hrest.mono (Nat.le_add_right head.utf8ByteSize (utf8Length piece))
    -- nothing is reported behind a piece that is the end of the text
    have hend : cs.drop (classify c cs).2 = [] →
        reports (head.utf8ByteSize + utf8Length piece) (pieces (cs.drop (classify c cs).2)) = [] :=
      fun h => by rw [h]; rfl
    have hbound : head.utf8ByteSize <
        (head ++ String.ofList piece ++
          String.ofList (cs.drop (classify c cs).2)).utf8ByteSize := by
      rw [String.utf8ByteSize_append, ← hsize]
      omega
    cases hkind : (classify c cs).1 with
    | blank => exact hskip
    | comment => exact hskip
    | token kind =>
      refine ⟨Nat.le_refl _, ?_, hspells, hrest⟩
      exact Nat.lt_add_of_pos_right hpos
    | invalid =>
      rw [hkind] at hstands
      cases hstands with
      | longest h => cases h.matched
      | @invalid d _ =>
        simp only [utf8Length_cons, utf8Length_nil, Nat.add_zero] at hspells hrest
        exact ⟨Nat.le_refl _, hspells, hrest⟩
    | unterminatedString =>
      rw [hkind] at hstands
      cases hstands with
      | longest h => cases h.matched
      | openString h _ => exact ⟨Nat.le_refl _, hbound, hend h⟩
    | unterminatedComment =>
      rw [hkind] at hstands
      cases hstands with
      | longest h => cases h.matched
      | openComment h _ => exact ⟨Nat.le_refl _, hbound, hend h⟩

end Piece

namespace Token

/-- What the scanner reports of a text stands in it. -/
theorem reported_scanSteps (source : String) : Reported source 0 (scanSteps source) := by
  have h := @Piece.reported_reports source.toList ""
  rwa [String.ofList_toList, String.empty_append] at h

/-- The tokens of a text stand in it. -/
theorem placed_of_scan (h : scan source = .ok tokens) :
    Placed source source.utf8ByteSize 0 tokens := by
  have hreported := reported_scanSteps source
  rw [scanSteps, scan_eq_ok_iff.1 h] at hreported
  exact hreported.placed

end Token

end SearchScript
