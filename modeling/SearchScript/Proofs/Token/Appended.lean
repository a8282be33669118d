import SearchScript.Proofs.Token.Rules

/-!
# Texts one behind the other

A text may be scanned in two parts where the first part ends between two pieces, and the second one
starts with a character that continues no piece but a comment, a string or blanks: a minus or a
blank. What was open at the end of the first part would go on in the second.

## Key definitions

- `Piece.isOpen`: pieces that go on until they are closed
- `Piece.minusPieces`: a minus and digits as the scanner sees them, with or without a gap

## Key results

- `solid_pieces_append`: the pieces of two texts, one behind the other
- `solid_pieces_minus`: the pieces of a text with a minus and digits in it
- `Token.map_piece_of_scan`, `Token.exists_scan_of_pieces`: the tokens of a text are its pieces
-/

namespace SearchScript

namespace Piece

/-- Whether a piece goes on until it is closed: a comment up to the end of its line, and whatever
lacks its end. -/
def isOpen (p : Piece) : Bool :=
  match p.kind with
  | .unterminatedString | .unterminatedComment => true
  | .comment => ['/', '/'].isPrefixOf p.text
  | _ => false

/-- Whether no piece is open at the end of a text. -/
def Closed (cs : List Char) : Prop := ∀ p, (pieces cs).getLast? = some p → p.isOpen = false

/-- The characters that go on with nothing but blanks, strings and comments. -/
def parts (c : Char) : Bool := isBlank c || c == '-'

variable {c : Char} {cs rest gap digits before after : List Char} {kind : PieceKind} {n : Nat}

theorem parts_eq_false {p : Char → Bool} (hp : [' ', '\t', '\r', '\n', '\x0c', '-'].any p = false)
    (h : parts c = true) : p c = false := by
  simp only [parts, isBlank, Bool.or_eq_true, beq_iff_eq] at h
  simp only [List.any_cons, List.any_nil, Bool.or_false, Bool.or_eq_false_iff] at hp
  rcases h with ((((rfl | rfl) | rfl) | rfl) | rfl) | rfl
  all_goals tauto

/-- What such a character does not continue ends where it did. -/
theorem takeWhile_append_of_parts {p : Char → Bool} (h : rest.head?.all parts = true)
    (hp : [' ', '\t', '\r', '\n', '\x0c', '-'].any p = false := by rfl) :
    (cs ++ rest).takeWhile p = cs.takeWhile p := by
  rw [List.takeWhile_append]
  split
  · next hall =>
    rw [(List.takeWhile_prefix p).eq_of_length hall]
    cases rest with
    | nil => simp
    | cons d rest => simp [parts_eq_false hp h]
  · rfl

theorem isPrefixOf_append_of_parts {a b : Char} (h : rest.head?.all parts = true)
    (hb : parts b = false) :
    [a, b].isPrefixOf (c :: (cs ++ rest)) = [a, b].isPrefixOf (c :: cs) := by
  cases cs with
  | cons d cs => rfl
  | nil =>
    cases rest with
    | nil => rfl
    | cons d rest =>
      have hne : b ≠ d := by
        rintro rfl
        simp [hb] at h
      simp [List.isPrefixOf, hne]

theorem startsNumber_append_of_parts (h : rest.head?.all parts = true) :
    startsNumber (c :: (cs ++ rest)) = startsNumber (c :: cs) := by
  cases cs with
  | cons d cs => rfl
  | nil =>
    cases rest with
    | nil => rfl
    | cons d rest => simp [startsNumber, parts_eq_false (p := Char.isDigit) rfl h]

/-- Operators go on with other characters. -/
theorem operator?_append_of_parts (h : rest.head?.all parts = true) :
    operator? (c :: (cs ++ rest)) = operator? (c :: cs) := by
  have htake : c :: cs = (c :: (cs ++ rest)).take (cs.length + 1) := by simp
  rw [htake, operator?_take]
  intro kind hk
  obtain ⟨hmem, hprefix⟩ := operator?_eq_some hk
  have htail : ∀ kind ∈ TokenKind.operators, kind.describe.toList.tail.all (!parts ·) = true := by
    decide
  by_contra hlong
  rw [← String.length_toList, Nat.not_le] at hlong
  cases rest with
  | nil =>
    have hle := hprefix.length_le
    rw [List.append_nil, List.length_cons] at hle
    exact absurd hle (Nat.not_le.2 hlong)
  | cons d rest =>
    -- the operator would go on with that character
    have hshort : c :: (cs ++ [d]) <+: c :: (cs ++ d :: rest) := ⟨rest, by simp⟩
    have hlength : (c :: (cs ++ [d])).length ≤ kind.describe.toList.length := by
      simpa using Nat.succ_le_of_lt hlong
    obtain ⟨more, hmore⟩ := List.prefix_of_prefix_length_le hshort hprefix hlength
    have hd : d ∈ kind.describe.toList.tail := by simp [← hmore]
    have hfalse := List.all_eq_true.1 (htail kind hmem) d hd
    rw [List.head?_cons, Option.all_some] at h
    simp [h] at hfalse

theorem commentLength?_append (h : commentLength? cs = some n) :
    commentLength? (cs ++ rest) = some n := by
  obtain ⟨body, tail, rfl, rfl, hbody⟩ := body_of_commentLength? h
  rw [List.append_assoc]
  exact commentLength?_of_body hbody

theorem stringLength?_append (h : stringLength? cs = some n) :
    stringLength? (cs ++ rest) = some n := by
  obtain ⟨body, tail, rfl, rfl, hquotes, hescape⟩ := body_of_stringLength? h
  rw [List.append_assoc]
  exact stringLength?_of_body hquotes hescape

/-- What a text starts with is the same in front of a character that does not go on with it. -/
theorem classify_append (h : rest.head?.all parts = true) (hblank : isBlank c = false)
    (hopen : Piece.isOpen ⟨(classify c cs).1, c :: cs.take (classify c cs).2⟩ = false ∨
      (classify c cs).2 < cs.length) :
    classify c (cs ++ rest) = classify c cs := by
  cases hc : classify c cs with
  | mk kind n =>
  rw [hc] at hopen
  unfold classify at hc ⊢
  rw [isPrefixOf_append_of_parts h rfl, isPrefixOf_append_of_parts h rfl,
    startsNumber_append_of_parts h, operator?_append_of_parts h]
  rw [hblank, if_neg Bool.false_ne_true] at hc ⊢
  split at hc
  · -- a line comment goes on unless a line end was found in the first text
    next hline =>
    cases hc
    obtain ⟨more, hmore⟩ := List.isPrefixOf_iff_prefix.1 hline
    obtain ⟨rfl, rfl⟩ : '/' = c ∧ '/' :: more = cs := by simpa using hmore
    have hlt := hopen.resolve_left (by simp [isOpen, List.isPrefixOf])
    rw [if_pos hline, List.takeWhile_append, if_neg (Nat.ne_of_lt hlt)]
  next hline =>
  rw [if_neg hline]
  split at hc
  · -- a comment that was closed is closed in front of anything
    next hblock =>
    rw [if_pos hblock]
    obtain ⟨more, hmore⟩ := List.isPrefixOf_iff_prefix.1 hblock
    obtain ⟨rfl, rfl⟩ : '/' = c ∧ '*' :: more = cs := by simpa using hmore
    split at hc <;> cases hc
    · next m hm =>
      have happend : commentLength? (('*' :: more ++ rest).drop 1) = some m :=
        commentLength?_append hm
      rw [happend]
    · simp [isOpen] at hopen
  next hblock =>
  rw [if_neg hblock]
  split at hc
  · next hword =>
    rw [if_pos hword, takeWhile_append_of_parts h]
    exact hc
  next hword =>
  rw [if_neg hword]
  split at hc
  · next hnumber =>
    rw [if_pos hnumber, takeWhile_append_of_parts h]
    exact hc
  next hnumber =>
  rw [if_neg hnumber]
  split at hc
  · -- so is a string
    next hquote =>
    rw [if_pos hquote]
    split at hc <;> cases hc
    · next hm => rw [stringLength?_append hm]
    · simp [isOpen] at hopen
  next hquote =>
  rw [if_neg hquote]
  exact hc

/-- A piece takes no more than there is. -/
theorem classify_le (c : Char) (cs : List Char) : (classify c cs).2 ≤ cs.length := by
  cases h : classify c cs with
  | mk kind n =>
  cases kind with
  | blank | comment | token => exact (matches_classify h (by simp)).1
  | invalid => exact eq_of_classify_invalid h ▸ Nat.zero_le _
  | unterminatedString => exact Nat.le_of_eq (eq_of_classify_openString h).2.1
  | unterminatedComment =>
    obtain ⟨-, -, -, hn, -⟩ := eq_of_classify_openComment h
    exact Nat.le_of_eq hn

/-- What follows the first piece of a closed text is closed. -/
theorem Closed.drop (h : Closed (c :: cs)) : Closed (cs.drop (classify c cs).2) := by
  intro p hp
  refine h p ?_
  rw [pieces_cons, List.getLast?_cons, hp]
  rfl

/-- The first piece of a closed text is closed, or others follow it. -/
theorem Closed.head (h : Closed (c :: cs)) :
    Piece.isOpen ⟨(classify c cs).1, c :: cs.take (classify c cs).2⟩ = false ∨
      (classify c cs).2 < cs.length := by
  by_cases hlt : (classify c cs).2 < cs.length
  · exact .inr hlt
  · refine .inl (h _ ?_)
    rw [pieces_cons, List.drop_of_length_le (Nat.not_lt.1 hlt)]
    rfl

/-- A closed text and what follows it are scanned one after the other. -/
theorem solid_pieces_append (hcs : Closed cs) (h : rest.head?.all parts = true) :
    solid (pieces (cs ++ rest)) = solid (pieces cs) ++ solid (pieces rest) := by
  induction cs using pieces_induction with
  | nil => rfl
  | cons c cs ih =>
    have ih := ih hcs.drop
    cases hblank : isBlank c with
    | true =>
      -- blanks at the end of the first text may go on in the second, but are no tokens
      have hrun : ∀ d ∈ c :: cs.takeWhile isBlank, isBlank d = true :=
        List.forall_mem_cons.2 ⟨hblank, takeWhile_forall _⟩
      have hsplit : c :: cs = c :: cs.takeWhile isBlank ++ cs.dropWhile isBlank := by
        rw [List.cons_append, List.takeWhile_append_dropWhile]
      rw [classify_blank hblank, drop_length_takeWhile] at ih
      rw [hsplit, List.append_assoc, solid_pieces_of_blank hrun, solid_pieces_of_blank hrun, ih]
    | false =>
      have hle := classify_le c cs
      rw [List.cons_append, pieces_cons, pieces_cons, classify_append h hblank hcs.head,
        List.take_append_of_le_length hle, List.drop_append_of_le_length hle]
      simp only [solid, List.filter_cons] at ih ⊢
      rw [ih]
      split <;> rfl

/-! ## A minus and digits in a text -/

/-- What the scanner sees of a minus and digits: two tokens if there is a gap, else one. -/
def minusPieces (gap digits : List Char) : List Piece :=
  if gap = [] then [⟨.token .number, '-' :: digits⟩]
  else [symbol .minus, ⟨.token .number, digits⟩]

theorem exists_kind_of_mem_minusPieces {p : Piece} (h : p ∈ minusPieces gap digits) :
    ∃ kind, p.kind = .token kind := by
  unfold minusPieces at h
  split at h
  · exact ⟨_, by rw [List.mem_singleton.1 h]⟩
  · rcases List.mem_pair.1 h with rfl | rfl <;> exact ⟨_, rfl⟩

/-- The pieces of a minus and digits in front of a text that does not continue the digits. -/
theorem solid_pieces_minus (hgap : ∀ c ∈ gap, isBlank c = true) (hd : Number.IsDigits digits)
    (ha : after.head?.all (!continuesNumber ·) = true) :
    solid (pieces ('-' :: (gap ++ (digits ++ after)))) =
      minusPieces gap digits ++ solid (pieces after) := by
  unfold minusPieces
  cases gap with
  | nil =>
    have hfits : Fits after.head? ⟨.token .number, '-' :: digits⟩ := .number hd (.inr rfl) ha
    rw [List.nil_append, if_pos rfl]
    exact congrArg solid (pieces_of_fits hfits nofun)
  | cons c gap =>
    have hc := hgap c List.mem_cons_self
    have hdigit : c.isDigit = false := parts_eq_false rfl (by simp [parts, hc])
    -- in front of a blank the minus is a token of its own
    have hminus : Fits (c :: gap ++ (digits ++ after)).head? (symbol .minus) :=
      .operator (by decide) (by simp [opensOperand, hc]) fun _ => by simp [hdigit]
    have hfits : Fits after.head? ⟨.token .number, digits⟩ := .number hd (.inl rfl) ha
    have hfirst : pieces ('-' :: (c :: gap ++ (digits ++ after))) =
        symbol .minus :: pieces (c :: gap ++ (digits ++ after)) := pieces_of_fits hminus nofun
    have hsecond : pieces (digits ++ after) = ⟨.token .number, digits⟩ :: pieces after :=
      pieces_of_fits hfits nofun
    have hblank : solid (pieces (c :: gap ++ (digits ++ after))) =
        solid (pieces (digits ++ after)) := solid_pieces_of_blank hgap
    rw [hfirst, if_neg (List.cons_ne_nil _ _)]
    simp only [solid, List.filter_cons] at hblank ⊢
    rw [hblank, hsecond]
    rfl

/-! ## Tokens -/

/-- The tokens that are reported are the pieces that are no blanks and no comments. -/
theorem map_piece_of_reports {tokens : List Token} {offset : Nat} {ps : List Piece}
    (h : reports offset ps = tokens.map .ok) : tokens.map Token.piece = solid ps := by
  induction ps generalizing offset tokens with
  | nil =>
    rw [reports, eq_comm, List.map_eq_nil_iff] at h
    rw [h]
    rfl
  | cons p ps ih =>
    obtain ⟨kind, text⟩ := p
    rw [reports] at h
    cases kind with
    | blank | comment => exact ih h
    | token kind =>
      obtain ⟨t, tokens, rfl, ht, htokens⟩ := List.map_eq_cons_iff.1 h.symm
      cases ht
      rw [List.map_cons, ih htokens.symm, Token.piece, String.toList_ofList]
      rfl
    | invalid | unterminatedString | unterminatedComment =>
      obtain ⟨t, tokens, -, ht, -⟩ := List.map_eq_cons_iff.1 h.symm
      cases ht

end Piece

namespace Token

variable {source : String} {tokens : List Token}

theorem map_piece_of_scan (h : scan source = .ok tokens) :
    tokens.map Token.piece = Piece.solid (Piece.pieces source.toList) :=
  Piece.map_piece_of_reports (scan_eq_ok_iff.1 h)

theorem exists_kind_of_mem_map {p : Piece} (h : p ∈ tokens.map Token.piece) :
    ∃ kind, p.kind = .token kind := by
  obtain ⟨t, -, rfl⟩ := List.mem_map.1 h
  exact ⟨t.kind, rfl⟩

/-- A text whose pieces are tokens is scanned as them. -/
theorem exists_scan_of_pieces
    (h : ∀ p ∈ Piece.solid (Piece.pieces source.toList), ∃ kind, p.kind = .token kind) :
    ∃ tokens, scan source = .ok tokens := by
  obtain ⟨tokens, hreports, -⟩ := Piece.exists_reports 0 h
  exact ⟨tokens, scan_eq_ok_iff.2 hreports⟩

end Token

end SearchScript
