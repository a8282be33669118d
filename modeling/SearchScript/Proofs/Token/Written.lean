import SearchScript.Proofs.Number.Literal
import SearchScript.Proofs.Text.Quoted
import SearchScript.Proofs.Token.Pieces
import Mathlib.Data.List.Chain
import Mathlib.Data.List.Find

/-!
# Pieces that are written and scanned again

A list of pieces is written when each of them stands in front of a character that does not continue
it. Such a list is scanned as itself: the text of the pieces is cut into the same tokens.

## Key results

- `Piece.solid_pieces_texts`: a written list is scanned as itself
- `Token.exists_scan`: the tokens of a text that is written
-/

namespace SearchScript

namespace TokenKind

/-- Whether no longer operator starts with the token. -/
def isClosed : TokenKind → Bool
  | leftParen | rightParen | leftBracket | rightBracket | leftBrace | rightBrace | comma | colon
  | semicolon | question => true
  | _ => false

theorem mem_operators_of_isClosed {kind : TokenKind} (h : kind.isClosed = true) :
    kind ∈ operators := by
  revert h
  cases kind <;> decide

end TokenKind

/-- The piece of text that a token is. -/
def Token.piece (t : Token) : Piece := ⟨.token t.kind, t.text.toList⟩

theorem Token.piece_eq_iff {t : Token} {kind : TokenKind} {text : String} :
    t.piece = ⟨.token kind, text.toList⟩ ↔ t.kind = kind ∧ t.text = text := by
  simp [Token.piece, String.toList_inj]

namespace Piece

/-! ## Written lists -/

/-- The text of pieces. -/
def texts (ps : List Piece) : List Char := ps.flatMap (·.text)

/-- Whether a piece is more than blanks or a comment. -/
def isSolid (p : Piece) : Bool :=
  match p.kind with
  | .blank | .comment => false
  | _ => true

/-- The pieces that are no blanks and no comments. -/
def solid (ps : List Piece) : List Piece := ps.filter isSolid

/-- The characters that an operand starts with, and blanks. -/
def opensOperand (c : Char) : Bool :=
  isBlank c || startsWord c || c.isDigit || c == '"' || c == '('

/-- The spelling of an operator. -/
def symbol (kind : TokenKind) : Piece := ⟨.token kind, kind.describe.toList⟩

/-- How a piece is written in front of a character. -/
inductive Fits (next : Option Char) : Piece → Prop
  | blank {text : List Char} : text ≠ [] → (∀ c ∈ text, isBlank c = true) →
      Fits next ⟨.blank, text⟩
  | word {c : Char} {cs : List Char} : startsWord c = true → (∀ c ∈ cs, continuesWord c = true) →
      next.all (!continuesWord ·) = true →
      Fits next ⟨.token (TokenKind.ofWord (String.ofList (c :: cs))), c :: cs⟩
  | number {body text : List Char} : Number.IsDigits body → text = body ∨ text = '-' :: body →
      next.all (!continuesNumber ·) = true → Fits next ⟨.token .number, text⟩
  | string (value : String) : Fits next ⟨.token .string, (Quoted.encode value).toList⟩
  | closed {kind : TokenKind} : kind.isClosed = true → Fits next (symbol kind)
  | operator {kind : TokenKind} : kind ∈ TokenKind.operators → next.all opensOperand = true →
      (kind = .minus ∨ kind = .period → next.all (!Char.isDigit ·) = true) → Fits next (symbol kind)

/-- Whether every piece of a list fits what is written behind it. -/
def Written : List Piece → Option Char → Prop
  | [], _ => True
  | p :: ps, next => p.Fits ((texts ps).head?.or next) ∧ Written ps next

variable {c : Char} {cs rest : List Char} {p : Piece} {ps qs : List Piece} {kind : TokenKind}
  {next : Option Char}

@[simp] theorem texts_nil : texts [] = [] := rfl

@[simp] theorem texts_cons : texts (p :: ps) = p.text ++ texts ps := rfl

@[simp] theorem texts_append : texts (ps ++ qs) = texts ps ++ texts qs := List.flatMap_append

@[simp] theorem solid_append : solid (ps ++ qs) = solid ps ++ solid qs := List.filter_append ..

theorem written_append :
    Written (ps ++ qs) next ↔ Written ps ((texts qs).head?.or next) ∧ Written qs next := by
  induction ps with
  | nil => simp [Written]
  | cons p ps ih =>
    simp only [List.cons_append, Written, texts_append, List.head?_append, ih, Option.or_assoc,
      and_assoc]

theorem Written.exists_fits (h : Written ps next) (hp : p ∈ ps) : ∃ next, p.Fits next := by
  induction ps with
  | nil => cases hp
  | cons q qs ih =>
    rcases List.mem_cons.1 hp with rfl | hp
    · exact ⟨_, h.1⟩
    · exact ih h.2 hp

/-! ## Operators -/

/-- The spellings of operators end where no operand starts: whatever makes a longer operator of one
is not among the characters that open an operand. -/
theorem opensOperand_of_longer {other : TokenKind} (hk : kind ∈ TokenKind.operators)
    (ho : other ∈ TokenKind.operators)
    (h : kind.describe.toList.isPrefixOf other.describe.toList = true) :
    other.describe.toList = kind.describe.toList ∨ kind.isClosed = false ∧
      (other.describe.toList.drop kind.describe.toList.length).head?.any (!opensOperand ·) =
        true := by
  have hall : ∀ kind ∈ TokenKind.operators, ∀ other ∈ TokenKind.operators,
      kind.describe.toList.isPrefixOf other.describe.toList = true →
      other.describe.toList = kind.describe.toList ∨ kind.isClosed = false ∧
        (other.describe.toList.drop kind.describe.toList.length).head?.any (!opensOperand ·) =
          true := by
    decide
  exact hall kind hk other ho h

/-- An operator is the longest one in front of a text unless the next character continues it. -/
theorem operator?_symbol (hk : kind ∈ TokenKind.operators)
    (hn : kind.isClosed = true ∨ rest.head?.all opensOperand = true) :
    operator? (kind.describe.toList ++ rest) = some kind := by
  have hself : ∀ kind ∈ TokenKind.operators, operator? kind.describe.toList = some kind := by
    decide
  rw [← hself kind hk]
  refine List.find?_congr fun other ho => ?_
  rw [Bool.eq_iff_iff, List.isPrefixOf_iff_prefix, List.isPrefixOf_iff_prefix]
  refine ⟨fun h => ?_, fun h => h.trans (List.prefix_append _ _)⟩
  -- another operator that fits here is spelled with a part of `kind`, or reaches into what follows
  rcases List.prefix_or_prefix_of_prefix h (List.prefix_append _ _) with h' | h'
  · exact h'
  · obtain ⟨more, hmore⟩ := h'
    rw [← hmore, List.prefix_append_right_inj] at h
    rcases opensOperand_of_longer hk ho
      (List.isPrefixOf_iff_prefix.2 ⟨more, hmore⟩) with heq | ⟨hclosed, hany⟩
    · exact heq ▸ List.prefix_refl _
    · rw [← hmore, List.drop_left] at hany
      rw [hclosed] at hn
      cases more with
      | nil => cases hany
      | cons c more =>
        obtain ⟨rest', rfl⟩ := h
        simp_all

/-! ## Classes of written pieces -/

theorem takeWhile_append_of_head? {p : Char → Bool} (hcs : ∀ c ∈ cs, p c = true)
    (hn : rest.head?.all (!p ·) = true) : (cs ++ rest).takeWhile p = cs := by
  rw [List.takeWhile_append_of_pos hcs]
  cases rest with
  | nil => simp
  | cons c rest => simp_all

theorem isBlank_eq_false {p : Char → Bool} (hc : p c = true)
    (hp : [' ', '\t', '\r', '\n', '\x0c'].any p = false := by rfl) : isBlank c = false := by
  rw [Bool.eq_false_iff]
  intro hb
  simp only [isBlank, Bool.or_eq_true, beq_iff_eq] at hb
  rcases hb with (((rfl | rfl) | rfl) | rfl) | rfl <;> simp_all

theorem startsWord_of_isDigit (h : c.isDigit = true) : startsWord c = false := by
  simp only [Char.isDigit, Bool.and_eq_true, decide_eq_true_eq] at h
  have h₁ : 48 ≤ c.toNat := h.1
  have h₂ : c.toNat ≤ 57 := h.2
  rw [Bool.eq_false_iff]
  intro hw
  unfold startsWord Char.isAlpha Char.isUpper Char.isLower at hw
  simp only [Bool.or_eq_true, decide_eq_true_eq, beq_iff_eq, Bool.and_eq_true] at hw
  rcases hw with (hu | hl) | rfl
  · have : 65 ≤ c.toNat := hu.1
    omega
  · have : 97 ≤ c.toNat := hl.1
    omega
  · exact absurd h₂ (by decide)

theorem not_comment (hc : c ≠ '/') {d : Char} : ['/', d].isPrefixOf (c :: cs) = false := by
  simp [List.isPrefixOf, Ne.symm hc]

theorem classify_word (hc : startsWord c = true) (hcs : ∀ c ∈ cs, continuesWord c = true)
    (hn : rest.head?.all (!continuesWord ·) = true) :
    classify c (cs ++ rest) =
      (.token (TokenKind.ofWord (String.ofList (c :: cs))), cs.length) := by
  have hslash : c ≠ '/' := by
    rintro rfl
    cases hc
  unfold classify
  rw [isBlank_eq_false hc, not_comment hslash, not_comment hslash, hc,
    takeWhile_append_of_head? hcs hn]
  rfl

/-- A number takes whatever continues it. -/
theorem classify_number (rest : List Char) {body : List Char} (hb : Number.IsDigits body)
    (h : c :: cs = body ∨ c :: cs = '-' :: body) :
    classify c (cs ++ rest) =
      (.token .number, cs.length + (rest.takeWhile continuesNumber).length) := by
  obtain ⟨d, ds, rfl, hd, hds⟩ := hb
  have hstart : isBlank c = false ∧ c ≠ '/' ∧ startsWord c = false ∧
      startsNumber (c :: (cs ++ rest)) = true ∧ ∀ x ∈ cs, continuesNumber x = true := by
    have hds := List.all_eq_true.1 hds
    rcases h with h | h
    · cases h
      refine ⟨isBlank_eq_false hd, ?_, startsWord_of_isDigit hd, by simp [startsNumber, hd], hds⟩
      rintro rfl
      cases hd
    · cases h
      refine ⟨rfl, by decide, rfl, by simp [startsNumber, hd], ?_⟩
      exact List.forall_mem_cons.2 ⟨Number.continuesNumber_of_isDigit hd, hds⟩
  obtain ⟨hblank, hslash, hword, hnumber, hcs⟩ := hstart
  unfold classify
  rw [hblank, not_comment hslash, not_comment hslash, hword, hnumber,
    List.takeWhile_append_of_pos hcs]
  simp

theorem classify_string (value rest : List Char) :
    classify '"' (Quoted.encodeBody value ++ '"' :: rest) =
      (.token .string, (Quoted.encodeBody value).length + 1) := by
  simp [classify, isBlank, startsWord, startsNumber, Quoted.stringLength?_encodeBody]

/-- What operators look like: they start like nothing else, and where a comment or a number could
start, they end there or go on in another way. -/
theorem symbol_eq_cons (hk : kind ∈ TokenKind.operators) :
    ∃ c cs, kind.describe.toList = c :: cs ∧ isBlank c = false ∧ startsWord c = false ∧
      c.isDigit = false ∧ c ≠ '"' ∧ cs.head?.all (fun d => !d.isDigit && d != '/' && d != '*') ∧
      (c = '/' ∨ c = '-' ∨ c = '.' → kind.isClosed = false) ∧
      (c = '-' → cs = [] → kind = .minus) ∧ (c = '.' → kind = .period) := by
  have hall : ∀ kind ∈ TokenKind.operators, (kind.describe.toList.head?.any fun c =>
      decide (isBlank c = false ∧ startsWord c = false ∧ c.isDigit = false ∧ c ≠ '"' ∧
        kind.describe.toList.tail.head?.all (fun d => !d.isDigit && d != '/' && d != '*') ∧
        (c = '/' ∨ c = '-' ∨ c = '.' → kind.isClosed = false) ∧
        (c = '-' → kind.describe.toList.tail = [] → kind = .minus) ∧
        (c = '.' → kind = .period))) = true := by
    decide
  obtain ⟨c, hc, h⟩ := (Option.any_eq_true _ _).1 (hall kind hk)
  exact ⟨c, _, (List.cons_head?_tail hc).symm, of_decide_eq_true h⟩

theorem classify_symbol (hk : kind ∈ TokenKind.operators) (h : kind.describe.toList = c :: cs)
    (hn : kind.isClosed = true ∨ rest.head?.all opensOperand = true)
    (hd : kind = .minus ∨ kind = .period → rest.head?.all (!Char.isDigit ·) = true) :
    classify c (cs ++ rest) = (.token kind, cs.length) := by
  obtain ⟨c', cs', h', hblank, hword, hdigit, hquote, hcs, hclosed, hminus, hperiod⟩ :=
    symbol_eq_cons hk
  rw [h, List.cons.injEq] at h'
  obtain ⟨rfl, rfl⟩ := h'
  -- the second character makes neither a comment nor a number of the first
  have hsecond : ∀ x, (cs ++ rest).head? = some x →
      (c = '/' → x ≠ '/' ∧ x ≠ '*') ∧ (c = '-' ∨ c = '.' → x.isDigit = false) := by
    intro x hx
    cases cs with
    | cons y cs =>
      cases hx
      simp_all
    | nil =>
      rw [List.nil_append] at hx
      rw [hx] at hn hd
      constructor
      · intro hc
        rw [hclosed (.inl hc)] at hn
        constructor <;> rintro rfl <;> revert hn <;> decide
      · intro hc
        have hk : kind = .minus ∨ kind = .period := hc.imp (hminus · rfl) hperiod
        simpa using hd hk
  have hcomment : ∀ d, d = '/' ∨ d = '*' → ['/', d].isPrefixOf (c :: (cs ++ rest)) = false := by
    intro d hd
    by_cases hslash : c = '/'
    · cases hcr : cs ++ rest with
      | nil => simp [List.isPrefixOf]
      | cons x more =>
        have := (hsecond x (by rw [hcr]; rfl)).1 hslash
        rcases hd with rfl | rfl <;> simp [List.isPrefixOf, this.1.symm, this.2.symm]
    · exact not_comment hslash
  have hnumber : startsNumber (c :: (cs ++ rest)) = false := by
    cases hcr : cs ++ rest with
    | nil => simp [startsNumber, hdigit]
    | cons x more =>
      have := (hsecond x (by rw [hcr]; rfl)).2
      by_cases hc : c = '-' ∨ c = '.'
      · simp [startsNumber, hdigit, this hc]
      · rw [not_or] at hc
        simp [startsNumber, hdigit, hc.1, hc.2]
  have hoperator := operator?_symbol hk hn
  rw [h, List.cons_append] at hoperator
  have hlength : kind.describe.length = cs.length + 1 := by
    rw [← String.length_toList, h, List.length_cons]
  unfold classify
  rw [hblank, hcomment '/' (.inl rfl), hcomment '*' (.inr rfl), hword, hnumber, hoperator]
  simp [hquote, hlength]

/-! ## Scanning what is written -/

theorem pieces_append {kind : PieceKind} (h : classify c (cs ++ rest) = (kind, cs.length)) :
    pieces (c :: (cs ++ rest)) = ⟨kind, c :: cs⟩ :: pieces rest := by
  rw [pieces_cons, h, List.take_left, List.drop_left]

theorem drop_length_takeWhile (p : Char → Bool) (cs : List Char) :
    cs.drop (cs.takeWhile p).length = cs.dropWhile p := by
  have hleft : (cs.takeWhile p ++ cs.dropWhile p).drop (cs.takeWhile p).length =
      cs.dropWhile p := List.drop_left
  rwa [List.takeWhile_append_dropWhile] at hleft

/-- Blanks do not matter to the pieces that are none. -/
theorem solid_pieces_dropWhile (cs : List Char) :
    solid (pieces (cs.dropWhile isBlank)) = solid (pieces cs) := by
  cases cs with
  | nil => rfl
  | cons c cs =>
    by_cases hb : isBlank c = true
    · have hclass : classify c cs = (.blank, (cs.takeWhile isBlank).length) := by
        simp [classify, hb]
      rw [pieces_cons, hclass, List.dropWhile_cons_of_pos hb, drop_length_takeWhile]
      rfl
    · rw [List.dropWhile_cons_of_neg hb]

theorem solid_pieces_of_blank (h : ∀ c ∈ cs, isBlank c = true) :
    solid (pieces (cs ++ rest)) = solid (pieces rest) := by
  rw [← solid_pieces_dropWhile (cs ++ rest), List.dropWhile_append_of_pos h,
    solid_pieces_dropWhile]

/-- A written token is scanned as itself. -/
theorem pieces_of_fits (h : p.Fits rest.head?) (hb : p.kind ≠ .blank) :
    pieces (p.text ++ rest) = p :: pieces rest := by
  have hsymbol : ∀ kind ∈ TokenKind.operators,
      kind.isClosed = true ∨ rest.head?.all opensOperand = true →
      (kind = .minus ∨ kind = .period → rest.head?.all (!Char.isDigit ·) = true) →
      pieces ((symbol kind).text ++ rest) = symbol kind :: pieces rest := by
    intro kind hk hn hd
    obtain ⟨c, cs, h', -⟩ := symbol_eq_cons hk
    have := pieces_append (classify_symbol hk h' hn hd)
    rw [symbol, h', List.cons_append, this]
  cases h with
  | blank => exact absurd rfl hb
  | word hw hcs hnext => exact pieces_append (classify_word hw hcs hnext)
  | @number body text hbody htext hnext =>
    obtain ⟨c, cs, hcs⟩ : ∃ c cs, text = c :: cs := by
      obtain ⟨d, ds, rfl, -, -⟩ := hbody
      rcases htext with rfl | rfl <;> exact ⟨_, _, rfl⟩
    subst hcs
    refine pieces_append ?_
    -- the characters behind the number do not continue it
    have htake := takeWhile_append_of_head? (List.forall_mem_nil _) hnext
    rw [List.nil_append] at htake
    rw [classify_number rest hbody htext, htake]
    rfl
  | string value =>
    have hclass := classify_string value.toList rest
    have hpieces : pieces ('"' :: (Quoted.encodeBody value.toList ++ ['"'] ++ rest)) =
        _ :: pieces rest :=
      pieces_append (by simpa using hclass)
    simpa [Quoted.encode] using hpieces
  | closed hc =>
    refine hsymbol _ (TokenKind.mem_operators_of_isClosed hc) (.inl hc) ?_
    rintro (rfl | rfl) <;> cases hc
  | operator hk hnext hdigit => exact hsymbol _ hk (.inr hnext) hdigit

/-- A written list is scanned as itself. -/
theorem solid_pieces_texts (h : Written ps none) : solid (pieces (texts ps)) = solid ps := by
  induction ps with
  | nil => rfl
  | cons p ps ih =>
    obtain ⟨hfits, hps⟩ := h
    rw [Option.or_none] at hfits
    rw [texts_cons]
    by_cases hb : p.kind = .blank
    · cases hfits <;> try cases hb
      next hall =>
      rw [solid_pieces_of_blank hall, ih hps]
      rfl
    · rw [pieces_of_fits hfits hb, solid, List.filter_cons]
      have := ih hps
      simp only [solid] at this ⊢
      rw [List.filter_cons, this]

/-- A written piece that is not blank is a token. -/
theorem Fits.exists_token (h : p.Fits next) (hp : p.isSolid = true) :
    ∃ kind, p.kind = .token kind := by
  cases h with
  | blank => cases hp
  | _ => exact ⟨_, rfl⟩

/-- Pieces that are tokens are reported as tokens. -/
theorem exists_reports (offset : Nat) (h : ∀ p ∈ solid ps, ∃ kind, p.kind = .token kind) :
    ∃ tokens : List Token, reports offset ps = tokens.map .ok ∧
      tokens.map Token.piece = solid ps := by
  induction ps generalizing offset with
  | nil => exact ⟨[], rfl, rfl⟩
  | cons p ps ih =>
    -- what is not solid is a blank or a comment, which reports nothing
    by_cases hp : p.isSolid = true
    · rw [solid, List.filter_cons_of_pos hp, List.forall_mem_cons] at h
      obtain ⟨⟨kind, hk⟩, h⟩ := h
      obtain ⟨tokens, hreports, hpieces⟩ := ih (offset + utf8Length p.text) h
      refine ⟨⟨kind, ⟨offset, offset + utf8Length p.text⟩, String.ofList p.text⟩ :: tokens, ?_, ?_⟩
      · simp [reports, report?, hk, hreports]
      · rw [List.map_cons, hpieces, solid, solid, List.filter_cons_of_pos hp]
        simp [Token.piece, ← hk]
    · rw [solid, List.filter_cons_of_neg hp] at h ⊢
      obtain ⟨tokens, hreports, hpieces⟩ := ih (offset + utf8Length p.text) h
      refine ⟨tokens, ?_, hpieces⟩
      unfold isSolid at hp
      split at hp
      case h_1 hk => simp [reports, report?, hk, hreports]
      case h_2 hk => simp [reports, report?, hk, hreports]
      case h_3 => exact absurd rfl hp

end Piece

/-- A text that is written as pieces is scanned as their tokens. -/
theorem Token.exists_scan {ps : List Piece} (h : Piece.Written ps none) :
    ∃ tokens, Token.scan (String.ofList (Piece.texts ps)) = .ok tokens ∧
      tokens.map Token.piece = Piece.solid ps := by
  have hsolid := Piece.solid_pieces_texts h
  have htoken : ∀ p ∈ Piece.solid ps, ∃ kind, p.kind = .token kind := by
    intro p hp
    obtain ⟨hmem, hp⟩ := List.mem_filter.1 hp
    obtain ⟨next, hfits⟩ := h.exists_fits hmem
    exact hfits.exists_token hp
  obtain ⟨tokens, hreports, hpieces⟩ := Piece.exists_reports 0 (hsolid.symm ▸ htoken)
  refine ⟨tokens, Token.scan_eq_ok_iff.2 ?_, hpieces.trans hsolid⟩
  rw [String.toList_ofList, hreports]

end SearchScript
