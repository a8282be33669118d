import SearchScript.Proofs.Token.Appended
import SearchScript.Proofs.Token.Lossless

/-!
# The stretches between tokens

Blanks and comments keep tokens apart and are else of no account. Other ones may be written in the
place of any stretch of them: the tokens stay the same if what is written begins with a blank, so
that it continues no token, and ends no later than the next token begins, so that its comments are
closed.

A token that stands directly in front of another one is not told apart from it by what follows: to
know where a piece ends, the scanner looks at one character behind it.

## Key definitions

- `Piece.IsTrivia`: blanks and closed comments in any order
- `Piece.Respaced`: a text with the tokens of another and other stretches between them

## Key results

- `Piece.classify_of_head?`: a piece ends where it did in front of the same character
- `Token.scan_of_respaced`: a respaced text has the same tokens
-/

namespace SearchScript

namespace Piece

/-- Blanks and comments that are closed, in any order: a line comment by the end of its line, or by
the end of the text where the stretch is the last one. -/
inductive IsTrivia (last : Bool) : List Char → Prop
  | nil : IsTrivia last []
  | blank {c cs} : isBlank c = true → IsTrivia last cs → IsTrivia last (c :: cs)
  | lineComment {body cs} : '\n' ∉ body → IsTrivia last cs →
      IsTrivia last ('/' :: '/' :: (body ++ '\n' :: cs))
  | blockComment {body cs} : ¬['*', '/'] <:+: body ++ ['*'] → IsTrivia last cs →
      IsTrivia last ('/' :: '*' :: (body ++ '*' :: '/' :: cs))
  | lastComment {body} : last = true → '\n' ∉ body → IsTrivia last ('/' :: '/' :: body)

/-- Whether a text may stand in the place of a stretch of blanks and comments: it is the text of the
stretch, or trivia that begins with a blank. -/
inductive Replaces (last : Bool) (stretch : List Piece) : List Char → Prop
  | same : Replaces last stretch (texts stretch)
  | trivia {c cs} : isBlank c = true → IsTrivia last cs → Replaces last stretch (c :: cs)

/-- Whether a text is that of some pieces with each stretch of blanks and comments between the other
pieces, in front of them and behind them left as it is or replaced. -/
inductive Respaced : List Piece → List Char → Prop
  | last {stretch text} : (∀ p ∈ stretch, p.isSolid = false) → Replaces true stretch text →
      Respaced stretch text
  | piece {stretch text p ps cs} : (∀ q ∈ stretch, q.isSolid = false) → p.isSolid = true →
      Replaces false stretch text → Respaced ps cs →
      Respaced (stretch ++ p :: ps) (text ++ (p.text ++ cs))

variable {c : Char} {cs rest rest' more body : List Char} {p : Piece}
  {ps front back stretch : List Piece} {kind : PieceKind} {n : Nat} {last : Bool}

/-! ## What follows a piece -/

theorem takeWhile_append_of_lt {q : Char → Bool} (h : (cs.takeWhile q).length < cs.length) :
    (cs ++ more).takeWhile q = cs.takeWhile q := by
  rw [List.takeWhile_append, if_neg (Nat.ne_of_lt h)]

/-- No operator is two characters longer than the longest one in front of it. -/
theorem operator?_append_of_lt (hne : cs ≠ [])
    (h : ∀ found, operator? (c :: cs) = some found → found.describe.length ≤ cs.length) :
    operator? (c :: (cs ++ more)) = operator? (c :: cs) := by
  have htake : c :: cs = (c :: (cs ++ more)).take (cs.length + 1) := by simp
  rw [htake, operator?_take]
  intro kind hk
  obtain ⟨hmem, hfront⟩ := operator?_eq_some hk
  have hall : ∀ kind ∈ TokenKind.operators, kind.describe.toList.length ≤ 3 ∧
      ∃ mid ∈ TokenKind.operators, mid.describe.toList = kind.describe.toList.take 2 := by
    decide
  obtain ⟨hthree, mid, hmid, htext⟩ := hall kind hmem
  by_contra hlong
  rw [← String.length_toList, Nat.not_le] at hlong
  have hone : 0 < cs.length := List.length_pos_iff.2 hne
  -- the operator in front of its last character is an operator, and as long as the text
  have hcut : mid.describe.toList <+: c :: cs := by
    have htwo : kind.describe.toList.take 2 <+: kind.describe.toList := List.take_prefix _ _
    rw [htext, htake]
    refine List.prefix_take_iff.2 ⟨htwo.trans hfront, ?_⟩
    rw [List.length_take]
    omega
  obtain ⟨found, hfound, hle, -⟩ := operator?_longest hmid hcut
  have hlength : mid.describe.length = 2 := by
    rw [← String.length_toList, htext, List.length_take]
    omega
  have := h found hfound
  omega

/-- What a piece is does not change when the text goes on behind it. -/
theorem classify_append_of_lt (h : (classify c cs).2 < cs.length) :
    classify c (cs ++ more) = classify c cs := by
  obtain ⟨d, cs, rfl⟩ := List.exists_cons_of_length_pos (Nat.zero_lt_of_lt h)
  -- two characters decide on comments and numbers, and they are there already
  have hcomment : ∀ b, ['/', b].isPrefixOf (c :: (d :: cs ++ more)) =
      ['/', b].isPrefixOf (c :: d :: cs) := fun _ => rfl
  have hnumber : startsNumber (c :: (d :: cs ++ more)) = startsNumber (c :: d :: cs) := rfl
  -- then the rules in their order, each of which the longer text takes exactly if the shorter one
  -- does
  unfold classify at h ⊢
  rw [hcomment, hcomment, hnumber]
  split at h
  · next hblank => rw [if_pos hblank, if_pos hblank, takeWhile_append_of_lt h]
  next hblank =>
  rw [if_neg hblank, if_neg hblank]
  split at h
  · next hline => rw [if_pos hline, if_pos hline, takeWhile_append_of_lt h]
  next hline =>
  rw [if_neg hline, if_neg hline]
  split at h
  · next hblock =>
    rw [if_pos hblock, if_pos hblock]
    split at h
    · next m hm =>
      have happend : commentLength? ((d :: cs ++ more).drop 1) = some m := commentLength?_append hm
      rw [happend]
    · exact absurd h (Nat.lt_irrefl _)
  next hblock =>
  rw [if_neg hblock, if_neg hblock]
  split at h
  · next hword => rw [if_pos hword, if_pos hword, takeWhile_append_of_lt h]
  next hword =>
  rw [if_neg hword, if_neg hword]
  split at h
  · next hstart => rw [if_pos hstart, if_pos hstart, takeWhile_append_of_lt h]
  next hstart =>
  rw [if_neg hstart, if_neg hstart]
  split at h
  · next hquote =>
    rw [if_pos hquote, if_pos hquote]
    split at h
    · next m hm => rw [stringLength?_append hm]
    · exact absurd h (Nat.lt_irrefl _)
  next hquote =>
  rw [if_neg hquote, if_neg hquote, operator?_append_of_lt (List.cons_ne_nil _ _)]
  intro found hfound
  rw [hfound] at h
  simp only at h
  omega

/-- What a piece is depends on its text and the next character. -/
theorem classify_of_head? (h : classify c (cs ++ rest) = (kind, cs.length))
    (hhead : rest'.head? = rest.head?) : classify c (cs ++ rest') = (kind, cs.length) := by
  cases rest with
  | nil =>
    rw [List.head?_nil, List.head?_eq_none_iff] at hhead
    rw [hhead]
    exact h
  | cons d rest =>
    obtain ⟨more, rfl⟩ := List.head?_eq_some_iff.1 hhead
    have htake : (cs ++ d :: rest).take (cs.length + 1) = cs ++ [d] := by
      rw [List.take_length_add_append]
      rfl
    have hcut : classify c (cs ++ [d]) = (kind, cs.length) := by
      rw [← htake, classify_take (by rw [h]; exact Nat.le_succ _), h]
    have hsplit : cs ++ d :: more = cs ++ [d] ++ more := by simp
    rw [hsplit, classify_append_of_lt (by simp [hcut]), hcut]

/-- A token ends in front of a blank. -/
theorem classify_of_blank {kind : TokenKind}
    (h : classify c (cs ++ rest) = (.token kind, cs.length))
    (hhead : rest'.head?.any isBlank = true) :
    classify c (cs ++ rest') = (.token kind, cs.length) := by
  have hcut : classify c cs = (.token kind, cs.length) := by
    have htake : classify c ((cs ++ rest).take cs.length) = classify c (cs ++ rest) :=
      classify_take (by rw [h])
    rwa [List.take_left, h] at htake
  have hblank : isBlank c = false := by
    rw [Bool.eq_false_iff]
    intro hb
    rw [classify_blank hb] at hcut
    cases hcut
  have hparts : rest'.head?.all parts = true := by
    cases hrest : rest'.head? with
    | none => rfl
    | some d =>
      rw [hrest, Option.any_some] at hhead
      simp [parts, hhead]
  rw [classify_append hparts hblank (.inl (by rw [hcut]; rfl)), hcut]

/-! ## The pieces of a text, one after the other -/

/-- A piece in front of others is what the front of the text is classified as. -/
theorem exists_classify_of_pieces (h : pieces cs = p :: ps) :
    ∃ c body, p.text = c :: body ∧ cs = c :: (body ++ texts ps) ∧ ps = pieces (texts ps) ∧
      classify c (body ++ texts ps) = (p.kind, body.length) := by
  cases cs with
  | nil => cases h
  | cons c cs =>
    rw [pieces_cons] at h
    obtain ⟨rfl, rfl⟩ := List.cons_eq_cons.1 h
    have hsplit : cs.take (classify c cs).2 ++ cs.drop (classify c cs).2 = cs :=
      List.take_append_drop _ _
    refine ⟨c, _, rfl, by rw [texts_pieces, hsplit], by rw [texts_pieces], ?_⟩
    rw [texts_pieces, hsplit, List.length_take, Nat.min_eq_left (classify_le c cs)]

/-- The last pieces of a text are the pieces of its end. -/
theorem pieces_texts_of_append (h : pieces cs = front ++ back) : pieces (texts back) = back := by
  induction front generalizing cs with
  | nil => rw [← show pieces cs = back from h, texts_pieces]
  | cons p front ih =>
    obtain ⟨-, -, -, -, hps, -⟩ := exists_classify_of_pieces h
    exact ih hps.symm

/-- Pieces stay what they are in front of the same character. -/
theorem pieces_of_head? (h : pieces cs = front ++ back)
    (hhead : rest.head? = (texts back).head?) :
    pieces (texts front ++ rest) = front ++ pieces rest := by
  induction front generalizing cs with
  | nil => rfl
  | cons p front ih =>
    obtain ⟨c, body, htext, -, hps, hclass⟩ := exists_classify_of_pieces h
    have hsame : (texts front ++ rest).head? = (texts (front ++ back)).head? := by
      rw [texts_append, List.head?_append, List.head?_append, hhead]
    have hpiece := pieces_append (classify_of_head? hclass hsame)
    rw [texts_cons, htext, List.cons_append, List.cons_append, List.append_assoc, hpiece,
      ih hps.symm, ← htext, List.cons_append]

/-- A token stays what it is in front of the same character or a blank. -/
theorem pieces_token_append {kind : TokenKind} (h : pieces cs = p :: back)
    (hk : p.kind = .token kind)
    (hhead : rest.head? = (texts back).head? ∨ rest.head?.any isBlank = true) :
    pieces (p.text ++ rest) = p :: pieces rest := by
  obtain ⟨c, body, htext, -, -, hclass⟩ := exists_classify_of_pieces h
  rw [hk] at hclass
  have hpiece : pieces (c :: (body ++ rest)) = ⟨.token kind, c :: body⟩ :: pieces rest := by
    rcases hhead with hhead | hhead
    · exact pieces_append (classify_of_head? hclass hhead)
    · exact pieces_append (classify_of_blank hclass hhead)
  rw [htext, List.cons_append, hpiece, ← htext, ← hk]

/-! ## Trivia -/

theorem pieces_lineComment (hbody : '\n' ∉ body) (hrest : rest.head?.all (· == '\n') = true) :
    pieces ('/' :: '/' :: (body ++ rest)) = ⟨.comment, '/' :: '/' :: body⟩ :: pieces rest := by
  have htake : (body ++ rest).takeWhile (· != '\n') = body := by
    refine takeWhile_append_of_head? (fun c hc => ?_) (by simpa [bne] using hrest)
    rw [bne_iff_ne]
    rintro rfl
    exact hbody hc
  have hline : classify '/' ('/' :: body ++ rest) = (.comment, ('/' :: body).length) := by
    rw [List.cons_append, classify_line, htake]
    rfl
  exact pieces_append hline

theorem pieces_blockComment (hbody : ¬['*', '/'] <:+: body ++ ['*']) :
    pieces ('/' :: '*' :: (body ++ '*' :: '/' :: rest)) =
      ⟨.comment, '/' :: '*' :: (body ++ ['*', '/'])⟩ :: pieces rest := by
  have hsplit : body ++ '*' :: '/' :: rest = body ++ ['*', '/'] ++ rest := by simp
  have hblock : classify '/' ('*' :: (body ++ ['*', '/']) ++ rest) =
      (.comment, ('*' :: (body ++ ['*', '/'])).length) := by
    rw [List.cons_append, ← hsplit, classify_block (commentLength?_of_body hbody)]
    simp
  rw [hsplit]
  exact pieces_append hblock

/-- Trivia are no tokens. -/
theorem IsTrivia.solid_pieces (h : IsTrivia last cs) (hlast : last = true → rest = []) :
    solid (pieces (cs ++ rest)) = solid (pieces rest) := by
  induction h with
  | nil => rfl
  | @blank c cs hc _ ih =>
    have hblank : solid (pieces ([c] ++ (cs ++ rest))) = solid (pieces (cs ++ rest)) :=
      solid_pieces_of_blank (by simpa using hc)
    exact hblank.trans ih
  | @lineComment body cs hbody _ ih =>
    have hblank : solid (pieces (['\n'] ++ (cs ++ rest))) = solid (pieces (cs ++ rest)) :=
      solid_pieces_of_blank (by simp [isBlank])
    rw [List.cons_append, List.cons_append, List.append_assoc, List.cons_append,
      pieces_lineComment hbody rfl]
    exact hblank.trans ih
  | @blockComment body cs hbody _ ih =>
    simp only [List.cons_append, List.append_assoc]
    rw [pieces_blockComment hbody]
    exact ih
  | @lastComment body htrue hbody =>
    rw [hlast htrue, List.cons_append, List.cons_append, pieces_lineComment hbody rfl]
    rfl

/-- A stretch that is replaced is no token either. -/
theorem solid_eq_nil (h : ∀ p ∈ stretch, p.isSolid = false) : solid stretch = [] :=
  List.filter_eq_nil_iff.2 fun p hp => by simp [h p hp]

/-! ## Respaced texts -/

/-- A respaced text has the same pieces but for blanks and comments, and where it does not begin
with a blank, it begins like the text. -/
theorem Respaced.solid_pieces (h : Respaced ps rest) (hps : pieces cs = ps)
    (htokens : ∀ p ∈ solid ps, ∃ kind, p.kind = .token kind) :
    solid (pieces rest) = solid ps ∧
      (rest.head? = cs.head? ∨ rest.head?.any isBlank = true) := by
  induction h generalizing cs with
  | @last stretch text hstretch hreplaces =>
    cases hreplaces with
    | same =>
      rw [← hps, texts_pieces]
      exact ⟨rfl, .inl rfl⟩
    | @trivia c text hc htrivia =>
      refine ⟨?_, .inr (by simpa using hc)⟩
      have hnil : solid (pieces (c :: text ++ [])) = [] :=
        (IsTrivia.blank hc htrivia).solid_pieces fun _ => rfl
      rw [List.append_nil] at hnil
      rw [hnil, solid_eq_nil hstretch]
  | @piece stretch text p ps new hstretch hp hreplaces _ ih =>
    have hback := pieces_texts_of_append hps
    obtain ⟨c, body, htext, -, hrest, -⟩ := exists_classify_of_pieces hback
    rw [solid_append, solid_eq_nil hstretch, List.nil_append, solid, List.filter_cons_of_pos hp,
      List.forall_mem_cons] at htokens
    obtain ⟨⟨kind, hkind⟩, htokens⟩ := htokens
    obtain ⟨hsolid, hhead⟩ := ih hrest.symm htokens
    -- the token is scanned again, and what follows it
    have hpiece := pieces_token_append hback hkind hhead
    have hnew : solid (pieces (p.text ++ new)) = solid (p :: ps) := by
      rw [hpiece, solid, List.filter_cons_of_pos hp, solid, List.filter_cons_of_pos hp]
      exact congrArg (p :: ·) hsolid
    have hfirst : (p.text ++ new).head? = (texts (p :: ps)).head? := by
      rw [texts_cons, htext]
      rfl
    rw [solid_append, solid_eq_nil hstretch, List.nil_append]
    cases hreplaces with
    | same =>
      rw [pieces_of_head? hps hfirst, solid_append, solid_eq_nil hstretch, List.nil_append]
      refine ⟨hnew, .inl ?_⟩
      rw [← texts_pieces cs, hps, texts_append, List.head?_append, hfirst, ← List.head?_append]
    | trivia hc htrivia =>
      refine ⟨?_, .inr (by simpa using hc)⟩
      rw [(IsTrivia.blank hc htrivia).solid_pieces (absurd · Bool.false_ne_true), hnew]

end Piece

namespace Token

variable {source source' : String} {tokens : List Token}

/-- A respaced text has the same tokens but for their places. -/
theorem scan_of_respaced (h : scan source = .ok tokens)
    (hr : Piece.Respaced (Piece.pieces source.toList) source'.toList) :
    ∃ tokens', scan source' = .ok tokens' ∧ tokens'.map piece = tokens.map piece := by
  have hmap := map_piece_of_scan h
  have htokens : ∀ p ∈ Piece.solid (Piece.pieces source.toList), ∃ kind, p.kind = .token kind :=
    fun p hp => exists_kind_of_mem_map (hmap ▸ hp)
  obtain ⟨hsolid, -⟩ := hr.solid_pieces rfl htokens
  obtain ⟨tokens', h'⟩ : ∃ tokens', scan source' = .ok tokens' :=
    exists_scan_of_pieces fun p hp => htokens p (hsolid ▸ hp)
  exact ⟨tokens', h', by rw [map_piece_of_scan h', hsolid, hmap]⟩

end Token

end SearchScript
