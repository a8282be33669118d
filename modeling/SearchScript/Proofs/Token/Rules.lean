import SearchScript.Proofs.Token.Prefix
import SearchScript.Proofs.Token.Written

/-!
# The rules for tokens

What each rule of the scanner matches, said as a language of texts, and what it means that a piece
is the longest match in front of a text. `Piece.classify` finds the longest match: it looks at the
first characters to tell which rule can match at all, and takes what that rule takes.

## Key definitions

- `Piece.Matches`: the texts that a rule matches
- `Piece.Longest`: a longest match, keywords before identifiers
- `Piece.Stands`: what a piece is in front of the rest of a text

## Key results

- `Matches.length_le`: no rule matches more than `classify` takes
- `stands_classify`: what `classify` takes is the longest match, or no rule matches there
-/

namespace SearchScript

namespace Piece

/-! ## What the rules match -/

/-- Whether a text ends with an odd run of backslashes, the last of which takes the character behind
it. -/
def escapesNext (cs : List Char) : Bool := (cs.reverse.takeWhile (· == '\\')).length % 2 == 1

/-- Whether every quote in a text stands behind an odd run of backslashes. -/
def QuotesEscaped (cs : List Char) : Prop :=
  ∀ before after, cs = before ++ '"' :: after → escapesNext before = true

/-- What the rules match: a run of blanks, a comment, a word, a number, a string up to its first
quote without an odd run of backslashes in front, and the spellings of the keywords and
operators. -/
inductive Matches : PieceKind → List Char → Prop
  | blank {cs} : cs ≠ [] → (∀ c ∈ cs, isBlank c = true) → Matches .blank cs
  | lineComment {cs} : '\n' ∉ cs → Matches .comment ('/' :: '/' :: cs)
  | blockComment {body} : ¬['*', '/'] <:+: body ++ ['*'] →
      Matches .comment ('/' :: '*' :: (body ++ ['*', '/']))
  | identifier {c cs} : startsWord c = true → (∀ d ∈ cs, continuesWord d = true) →
      Matches (.token .identifier) (c :: cs)
  | keyword {word kind} : (word, kind) ∈ TokenKind.keywords → Matches (.token kind) word.toList
  | number {sign d cs} : sign = [] ∨ sign = ['-'] ∨ sign = ['.'] → d.isDigit = true →
      (∀ c ∈ cs, continuesNumber c = true) → Matches (.token .number) (sign ++ d :: cs)
  | string {body} : QuotesEscaped body → escapesNext body = false →
      Matches (.token .string) ('"' :: (body ++ ['"']))
  | operator {kind} : kind ∈ TokenKind.operators → Matches (.token kind) kind.describe.toList

/-- A longest match in front of a text: no rule matches more, and of those that match as much it is
not the one for identifiers unless that is the only one. -/
structure Longest (kind : PieceKind) (text rest : List Char) : Prop where
  matched : Matches kind text
  longest : ∀ kind' other, Matches kind' other → other <+: text ++ rest →
    other.length ≤ text.length
  priority : ∀ kind', Matches kind' text → kind' = kind ∨ kind' = .token .identifier

/-- What a piece is in front of the rest of a text: a longest match, a character that no rule
matches anything at, or the tail of the text behind a quote or a comment that is not closed. -/
inductive Stands (rest : List Char) : Piece → Prop
  | longest {kind text} : Longest kind text rest → Stands rest ⟨kind, text⟩
  | invalid {c} : (∀ kind text, Matches kind text → ¬text <+: c :: rest) →
      Stands rest ⟨.invalid, [c]⟩
  | openString {body} : rest = [] → QuotesEscaped body →
      Stands rest ⟨.unterminatedString, '"' :: body⟩
  | openComment {body} : rest = [] → ¬['*', '/'] <:+: body →
      Stands rest ⟨.unterminatedComment, '/' :: '*' :: body⟩

variable {c d : Char} {cs body rest text : List Char} {kind : PieceKind} {n : Nat}

/-! ## Strings -/

theorem escapesNext_cons (hc : c ≠ '\\') : escapesNext (c :: cs) = escapesNext cs := by
  have htake : ([c] : List Char).takeWhile (· == '\\') = [] := by simp [hc]
  simp only [escapesNext, List.reverse_cons, List.takeWhile_append, htake, List.append_nil]
  split
  · next h => rw [(List.takeWhile_prefix _).eq_of_length h]
  · rfl

/-- A backslash and the character that it takes do not change what the rest ends with. -/
theorem escapesNext_pair : escapesNext ('\\' :: d :: cs) = escapesNext cs := by
  by_cases hd : d = '\\'
  · subst hd
    simp only [escapesNext, List.reverse_cons, List.append_assoc, List.takeWhile_append]
    split
    · next h =>
      rw [(List.takeWhile_prefix _).eq_of_length h]
      simp [List.takeWhile]
    · rfl
  · have hpair : ('\\' :: d :: cs).reverse = (d :: cs).reverse ++ ['\\'] := List.reverse_cons
    rw [← @escapesNext_cons d cs hd]
    simp only [escapesNext, hpair, List.takeWhile_append]
    split
    · next h =>
      have hall : ∀ x ∈ (d :: cs).reverse, (x == '\\') = true := by
        intro x hx
        rw [← (List.takeWhile_prefix _).eq_of_length h] at hx
        exact List.all_eq_true.1 List.all_takeWhile x hx
      exact absurd (hall d (by simp)) (by simpa using hd)
    · rfl

theorem quotesEscaped_nil : QuotesEscaped [] := by
  intro before after h
  simp at h

theorem not_quotesEscaped_quote : ¬QuotesEscaped ('"' :: cs) := fun h => by
  cases h [] cs rfl

theorem quotesEscaped_cons (hc : c ≠ '\\') (hq : c ≠ '"') :
    QuotesEscaped (c :: cs) ↔ QuotesEscaped cs := by
  constructor
  · intro h before after hcs
    rw [← escapesNext_cons hc]
    exact h (c :: before) after (by rw [hcs]; rfl)
  · intro h before after hcs
    cases before with
    | nil => exact absurd (List.cons.inj hcs).1 hq
    | cons x before =>
      obtain ⟨rfl, htail⟩ := List.cons.inj hcs
      rw [escapesNext_cons hc]
      exact h before after htail

theorem quotesEscaped_pair : QuotesEscaped ('\\' :: d :: cs) ↔ QuotesEscaped cs := by
  constructor
  · intro h before after hcs
    rw [← escapesNext_pair (d := d)]
    exact h ('\\' :: d :: before) after (by rw [hcs]; rfl)
  · intro h before after hcs
    match before with
    | [] => cases hcs
    | [x] =>
      cases hcs
      rfl
    | x :: y :: before =>
      obtain ⟨rfl, htail⟩ := List.cons.inj hcs
      rw [escapesNext_pair]
      exact h before after (List.cons.inj htail).2

/-- A string ends at its first quote that no backslash takes. -/
theorem stringLength?_of_body (hq : QuotesEscaped body) (he : escapesNext body = false) :
    stringLength? (body ++ '"' :: rest) = some (body.length + 1) := by
  fun_induction stringLength? body with
  | case1 => simp [stringLength?]
  | case2 cs => exact absurd hq not_quotesEscaped_quote
  | case3 d cs ih =>
    rw [escapesNext_pair] at he
    simp [stringLength?, ih (quotesEscaped_pair.1 hq) he]
  | case4 c cs hquote hpair ih =>
    have hc : c ≠ '\\' := by
      rintro rfl
      cases cs with
      | nil => cases he
      | cons d cs => exact hpair d cs rfl rfl
    rw [escapesNext_cons hc] at he
    rw [List.cons_append, stringLength?, ih ((quotesEscaped_cons hc hquote).1 hq) he]
    · rfl
    · exact hquote
    · exact fun _ _ h => absurd h hc

theorem body_of_stringLength? (h : stringLength? cs = some n) :
    ∃ body rest, cs = body ++ '"' :: rest ∧ n = body.length + 1 ∧ QuotesEscaped body ∧
      escapesNext body = false := by
  fun_induction stringLength? cs generalizing n with
  | case1 => cases h
  | case2 cs =>
    cases h
    exact ⟨[], cs, rfl, rfl, quotesEscaped_nil, rfl⟩
  | case3 d cs ih =>
    obtain ⟨n, hn, rfl⟩ := Option.map_eq_some_iff.1 h
    obtain ⟨body, rest, rfl, rfl, hq, he⟩ := ih hn
    exact ⟨'\\' :: d :: body, rest, rfl, rfl, quotesEscaped_pair.2 hq, by rwa [escapesNext_pair]⟩
  | case4 c cs hquote hpair ih =>
    obtain ⟨n, hn, rfl⟩ := Option.map_eq_some_iff.1 h
    have hc : c ≠ '\\' := by
      rintro rfl
      cases cs with
      | nil => cases hn
      | cons d cs => exact hpair d cs rfl rfl
    obtain ⟨body, rest, rfl, rfl, hq, he⟩ := ih hn
    exact ⟨c :: body, rest, rfl, rfl, (quotesEscaped_cons hc hquote).2 hq,
      by rwa [escapesNext_cons hc]⟩

theorem quotesEscaped_of_stringLength? (h : stringLength? cs = none) : QuotesEscaped cs := by
  fun_induction stringLength? cs with
  | case1 => exact quotesEscaped_nil
  | case2 cs => cases h
  | case3 d cs ih => exact quotesEscaped_pair.2 (ih (Option.map_eq_none_iff.1 h))
  | case4 c cs hquote hpair ih =>
    by_cases hc : c = '\\'
    · subst hc
      cases cs with
      | nil =>
        intro before after h
        rcases before with _ | ⟨x, _ | _⟩ <;> cases h
      | cons d cs => exact absurd rfl (hpair d cs rfl)
    · exact (quotesEscaped_cons hc hquote).2 (ih (Option.map_eq_none_iff.1 h))

/-! ## Block comments -/

theorem commentLength?_of_body (h : ¬['*', '/'] <:+: body ++ ['*']) :
    commentLength? (body ++ '*' :: '/' :: rest) = some (body.length + 2) := by
  induction body with
  | nil => rfl
  | cons c body ih =>
    rw [List.cons_append, List.infix_cons_iff, not_or] at h
    rw [List.cons_append, commentLength?, ih h.2]
    · rfl
    · -- the comment is not closed in front of the end of the body
      rintro cs rfl hcs
      refine h.1 ⟨(body ++ ['*']).drop 1, ?_⟩
      cases body with
      | nil => simp at hcs
      | cons d body =>
        obtain ⟨rfl, -⟩ := List.cons.inj hcs
        rfl

theorem body_of_commentLength? (h : commentLength? cs = some n) :
    ∃ body rest, cs = body ++ '*' :: '/' :: rest ∧ n = body.length + 2 ∧
      ¬['*', '/'] <:+: body ++ ['*'] := by
  fun_induction commentLength? cs generalizing n with
  | case1 => cases h
  | case2 cs =>
    cases h
    exact ⟨[], cs, rfl, rfl, by decide⟩
  | case3 c cs hclosed ih =>
    obtain ⟨n, hn, rfl⟩ := Option.map_eq_some_iff.1 h
    obtain ⟨body, rest, rfl, rfl, hbody⟩ := ih hn
    refine ⟨c :: body, rest, rfl, rfl, ?_⟩
    rw [List.cons_append, List.infix_cons_iff, not_or]
    refine ⟨?_, hbody⟩
    rintro ⟨more, hmore⟩
    obtain ⟨rfl, htail⟩ : '*' = c ∧ '/' :: more = body ++ ['*'] := by simpa using hmore
    -- the second character of the comment would be the slash that closes it
    cases body with
    | nil => cases htail
    | cons d body =>
      obtain ⟨rfl, -⟩ := List.cons.inj htail
      exact hclosed _ rfl rfl

theorem not_infix_of_commentLength? (h : commentLength? cs = none) : ¬['*', '/'] <:+: cs := by
  fun_induction commentLength? cs with
  | case1 => simp
  | case2 cs => cases h
  | case3 c cs hclosed ih =>
    rw [List.infix_cons_iff, not_or]
    refine ⟨?_, ih (Option.map_eq_none_iff.1 h)⟩
    rintro ⟨more, hmore⟩
    obtain ⟨rfl, rfl⟩ : '*' = c ∧ '/' :: more = cs := by simpa using hmore
    exact hclosed more rfl rfl

/-! ## Words, numbers and operators -/

theorem length_le_takeWhile {p : Char → Bool} (hp : text <+: cs) (ht : ∀ c ∈ text, p c = true) :
    text.length ≤ (cs.takeWhile p).length := by
  obtain ⟨rest, rfl⟩ := hp
  rw [List.takeWhile_append_of_pos ht, List.length_append]
  omega

theorem take_length_takeWhile (p : Char → Bool) :
    cs.take (cs.takeWhile p).length = cs.takeWhile p :=
  (List.prefix_iff_eq_take.1 (List.takeWhile_prefix p)).symm

/-- Keywords are words, and known as such. -/
theorem keyword_eq_cons {word : String} {kind : TokenKind}
    (h : (word, kind) ∈ TokenKind.keywords) :
    ∃ c cs, word.toList = c :: cs ∧ startsWord c = true ∧ (∀ d ∈ cs, continuesWord d = true) ∧
      TokenKind.ofWord word = kind := by
  have hall : ∀ entry ∈ TokenKind.keywords, (entry.1.toList.head?.any startsWord &&
      entry.1.toList.tail.all continuesWord && (TokenKind.ofWord entry.1 == entry.2)) = true := by
    decide
  have := hall _ h
  simp only [Bool.and_eq_true, Option.any_eq_true, List.all_eq_true, beq_iff_eq] at this
  obtain ⟨⟨⟨c, hc, hstarts⟩, hcontinues⟩, hkind⟩ := this
  exact ⟨c, _, (List.cons_head?_tail hc).symm, hstarts, hcontinues, hkind⟩

theorem matches_ofWord {word : String} {c : Char} {cs : List Char} (hw : word.toList = c :: cs)
    (hc : startsWord c = true) (hcs : ∀ d ∈ cs, continuesWord d = true) :
    Matches (.token (TokenKind.ofWord word)) word.toList := by
  unfold TokenKind.ofWord
  cases hl : TokenKind.keywords.lookup word with
  | none =>
    rw [hw]
    exact .identifier hc hcs
  | some kind =>
    obtain ⟨before, after, hkeywords, -⟩ := List.lookup_eq_some_iff.1 hl
    exact .keyword (by rw [hkeywords]; simp)

/-- The operator that is found is the longest one in front of a text. -/
theorem operator?_longest {kind : TokenKind} (hk : kind ∈ TokenKind.operators)
    (hp : kind.describe.toList <+: cs) :
    ∃ found, operator? cs = some found ∧ kind.describe.length ≤ found.describe.length ∧
      (kind.describe.length = found.describe.length → kind = found) := by
  have hsorted : TokenKind.operators.Pairwise fun a b =>
      b.describe.length ≤ a.describe.length := by
    decide
  have hinj : ∀ a ∈ TokenKind.operators, ∀ b ∈ TokenKind.operators,
      a.describe = b.describe → a = b := by
    decide
  have hfits : kind.describe.toList.isPrefixOf cs = true := List.isPrefixOf_iff_prefix.2 hp
  cases hf : operator? cs with
  | none =>
    exact absurd hfits (List.find?_eq_none.1 hf kind hk)
  | some found =>
    obtain ⟨hfound, hprefix⟩ := operator?_eq_some hf
    obtain ⟨-, before, after, hops, hbefore⟩ := List.find?_eq_some_iff_append.1 hf
    refine ⟨found, rfl, ?_, fun hlength => ?_⟩
    -- the operators are tried from the longest to the shortest, so those in front of `found` do not
    -- fit
    · rw [hops] at hk hsorted
      rcases List.mem_append.1 hk with hk | hk
      · simpa [hfits] using hbefore kind hk
      · rcases List.mem_cons.1 hk with rfl | hk
        · exact Nat.le_refl _
        · exact List.rel_of_pairwise_cons (List.pairwise_append.1 hsorted).2.1 hk
    · rw [← String.length_toList, ← String.length_toList] at hlength
      have htexts : kind.describe.toList = found.describe.toList :=
        (List.prefix_of_prefix_length_le hp hprefix hlength.le).eq_of_length hlength
      exact hinj kind hk found hfound (String.toList_inj.1 htexts)

/-! ## The longest match -/

theorem classify_blank (h : isBlank c = true) :
    classify c cs = (.blank, (cs.takeWhile isBlank).length) := by
  simp [classify, h]

theorem classify_line :
    classify '/' ('/' :: cs) = (.comment, (cs.takeWhile (· != '\n')).length + 1) := by
  simp [classify, isBlank]

theorem classify_block (h : commentLength? cs = some n) :
    classify '/' ('*' :: cs) = (.comment, n + 1) := by
  simp [classify, isBlank, h]

theorem classify_startsWord (h : startsWord c = true) :
    classify c cs = (.token (TokenKind.ofWord (String.ofList (c :: cs.takeWhile continuesWord))),
      (cs.takeWhile continuesWord).length) := by
  have hslash : c ≠ '/' := by
    rintro rfl
    cases h
  simp [classify, isBlank_eq_false h, not_comment hslash, h]

theorem classify_startsNumber (h : startsNumber (c :: cs) = true) :
    classify c cs = (.token .number, (cs.takeWhile continuesNumber).length) := by
  have hstart : isBlank c = false ∧ c ≠ '/' ∧ startsWord c = false := by
    simp only [startsNumber, Bool.or_eq_true, Bool.and_eq_true, beq_iff_eq] at h
    rcases h with hd | ⟨rfl | rfl, -⟩
    · refine ⟨isBlank_eq_false hd, ?_, startsWord_of_isDigit hd⟩
      rintro rfl
      cases hd
    · decide
    · decide
  obtain ⟨hblank, hslash, hword⟩ := hstart
  simp [classify, hblank, not_comment hslash, hword, h]

theorem classify_quote (h : stringLength? cs = some n) :
    classify '"' cs = (.token .string, n) := by
  simp [classify, isBlank, startsWord, startsNumber, h]

theorem classify_openBlock (h : commentLength? cs = none) :
    classify '/' ('*' :: cs) = (.unterminatedComment, cs.length + 1) := by
  simp [classify, isBlank, h]

/-- Where an operator stands, it is taken unless more than it starts a comment or a number. -/
theorem classify_of_operator {kind found : TokenKind} (hk : kind ∈ TokenKind.operators)
    (hp : kind.describe.toList <+: c :: cs) (hf : operator? (c :: cs) = some found) :
    classify c cs = (.token found, found.describe.length - 1) ∨
      kind.describe.toList = [c] ∧ 0 < (classify c cs).2 := by
  obtain ⟨c', more, hkind, hblank, hword, hdigit, hquote, hmore, -, -, -⟩ := symbol_eq_cons hk
  rw [hkind] at hp ⊢
  obtain ⟨rfl, hprefix⟩ := List.cons_prefix_cons.1 hp
  -- what turns an operator into a comment or a number is not part of any operator
  have hone : ∀ d rest, cs = d :: rest → d.isDigit = true ∨ d = '/' ∨ d = '*' → more = [] := by
    rintro d rest rfl hd
    cases more with
    | nil => rfl
    | cons d' more =>
      obtain ⟨rfl, -⟩ := List.cons_prefix_cons.1 hprefix
      rcases hd with hd | rfl | rfl <;> simp_all
  by_cases hcomment : c' = '/' ∧ ∃ rest, cs = '/' :: rest ∨ cs = '*' :: rest
  · obtain ⟨rfl, rest, rfl | rfl⟩ := hcomment
    · rw [hone _ _ rfl (.inr (.inl rfl)), classify_line]
      exact .inr ⟨rfl, Nat.succ_pos _⟩
    · rw [hone _ _ rfl (.inr (.inr rfl))]
      cases hl : commentLength? rest with
      | none => exact .inr ⟨rfl, by rw [classify_openBlock hl]; exact Nat.succ_pos _⟩
      | some n => exact .inr ⟨rfl, by rw [classify_block hl]; exact Nat.succ_pos _⟩
  by_cases hnumber : startsNumber (c' :: cs) = true
  · cases cs with
    | nil => simp [startsNumber, hdigit] at hnumber
    | cons d rest =>
      have hd : d.isDigit = true := by
        simp only [startsNumber, hdigit, Bool.false_or, Bool.and_eq_true] at hnumber
        exact hnumber.2
      rw [hone _ _ rfl (.inl hd), classify_startsNumber hnumber, List.takeWhile_cons_of_pos
        (Number.continuesNumber_of_isDigit hd)]
      exact .inr ⟨rfl, Nat.succ_pos _⟩
  · have hopens : ∀ d, d = '/' ∨ d = '*' → ['/', d].isPrefixOf (c' :: cs) = false := by
      intro d hd
      rw [Bool.eq_false_iff, ne_eq, List.isPrefixOf_iff_prefix]
      rintro ⟨rest, hrest⟩
      obtain ⟨rfl, rfl⟩ : '/' = c' ∧ d :: rest = cs := by simpa using hrest
      rcases hd with rfl | rfl
      · exact hcomment ⟨rfl, rest, .inl rfl⟩
      · exact hcomment ⟨rfl, rest, .inr rfl⟩
    left
    simp [classify, hblank, hopens, hword, hnumber, hquote, hf]

/-- No rule matches more than `classify` takes, and what matches as much is what `classify` says or
an identifier. -/
theorem Matches.length_le {kind : PieceKind} (h : Matches kind text) (hp : text <+: c :: cs) :
    text.length ≤ (classify c cs).2 + 1 ∧ (text.length = (classify c cs).2 + 1 →
      (classify c cs).1 = kind ∨
        kind = .token .identifier ∧ ∃ k, (classify c cs).1 = .token k) := by
  cases h with
  | blank hne hall =>
    cases text with
    | nil => exact absurd rfl hne
    | cons c' text =>
      obtain ⟨rfl, hprefix⟩ := List.cons_prefix_cons.1 hp
      rw [classify_blank (hall _ List.mem_cons_self)]
      exact ⟨Nat.succ_le_succ (length_le_takeWhile hprefix (List.forall_mem_cons.1 hall).2),
        fun _ => .inl rfl⟩
  | @lineComment body hall =>
    obtain ⟨rfl, hprefix⟩ := List.cons_prefix_cons.1 hp
    obtain ⟨rest, rfl⟩ := hprefix
    rw [List.cons_append, classify_line]
    refine ⟨Nat.succ_le_succ (Nat.succ_le_succ (length_le_takeWhile (List.prefix_append _ _) ?_)),
      fun _ => .inl rfl⟩
    intro x hx
    simp only [bne_iff_ne, ne_eq]
    rintro rfl
    exact hall hx
  | @blockComment body hbody =>
    obtain ⟨rfl, rest, rfl⟩ := List.cons_prefix_cons.1 hp
    have hlength : commentLength? (body ++ (['*', '/'] ++ rest)) = some (body.length + 2) :=
      commentLength?_of_body hbody
    rw [List.cons_append, List.append_assoc, classify_block hlength]
    exact ⟨by simp, fun _ => .inl rfl⟩
  | identifier hc hall =>
    obtain ⟨rfl, hprefix⟩ := List.cons_prefix_cons.1 hp
    rw [classify_startsWord hc]
    exact ⟨Nat.succ_le_succ (length_le_takeWhile hprefix hall), fun _ => .inr ⟨rfl, _, rfl⟩⟩
  | @keyword word kind hword =>
    obtain ⟨c', more, hcons, hc, hall, hkind⟩ := keyword_eq_cons hword
    rw [hcons] at hp ⊢
    obtain ⟨rfl, hprefix⟩ := List.cons_prefix_cons.1 hp
    rw [classify_startsWord hc]
    have hle := length_le_takeWhile hprefix hall
    refine ⟨Nat.succ_le_succ hle, fun htie => .inl ?_⟩
    -- a keyword that is as long as the word is the word
    have heq : more = cs.takeWhile continuesWord :=
      (List.prefix_of_prefix_length_le hprefix (List.takeWhile_prefix _) hle).eq_of_length
        (Nat.succ.inj htie)
    rw [← heq, ← hcons, String.ofList_toList, hkind]
  | @number sign d more hsign hd hall =>
    have hdigit := Number.continuesNumber_of_isDigit hd
    rcases hsign with rfl | rfl | rfl
    · obtain ⟨rfl, hprefix⟩ := List.cons_prefix_cons.1 hp
      rw [classify_startsNumber (by simp [startsNumber, hd])]
      exact ⟨Nat.succ_le_succ (length_le_takeWhile hprefix hall), fun _ => .inl rfl⟩
    all_goals
      obtain ⟨rfl, rest, rfl⟩ := List.cons_prefix_cons.1 hp
      rw [classify_startsNumber (by simp [startsNumber, hd])]
      exact ⟨Nat.succ_le_succ (length_le_takeWhile (List.prefix_append _ _)
        (List.forall_mem_cons.2 ⟨hdigit, hall⟩)), fun _ => .inl rfl⟩
  | @string body hq he =>
    obtain ⟨rfl, rest, rfl⟩ := List.cons_prefix_cons.1 hp
    have hlength : stringLength? (body ++ (['"'] ++ rest)) = some (body.length + 1) :=
      stringLength?_of_body hq he
    rw [List.append_assoc, classify_quote hlength]
    exact ⟨by simp, fun _ => .inl rfl⟩
  | @operator kind hk =>
    obtain ⟨found, hfound, hle, htie⟩ := operator?_longest hk hp
    rw [String.length_toList]
    rcases classify_of_operator hk hp hfound with hclass | ⟨hone, hmore⟩
    · rw [hclass]
      refine ⟨by simp only; omega, fun h => .inl ?_⟩
      have hpos : kind.describe.length ≠ 0 := by
        obtain ⟨c', more, hcons, -⟩ := symbol_eq_cons hk
        rw [← String.length_toList, hcons]
        exact Nat.succ_ne_zero _
      rw [htie (by simp only at h; omega)]
    · have hlength : kind.describe.length = 1 := by
        rw [← String.length_toList, hone]
        rfl
      exact ⟨by omega, by omega⟩

/-! ## What is taken is a match -/

theorem takeWhile_forall (p : Char → Bool) : ∀ c ∈ cs.takeWhile p, p c = true :=
  List.all_eq_true.1 List.all_takeWhile

theorem matches_word (hc : startsWord c = true) :
    Matches (.token (TokenKind.ofWord (String.ofList (c :: cs.takeWhile continuesWord))))
      (c :: cs.takeWhile continuesWord) := by
  have h := matches_ofWord (@String.toList_ofList (c :: cs.takeWhile continuesWord)) hc
    (takeWhile_forall _)
  rwa [String.toList_ofList] at h

theorem matches_number (h : startsNumber (c :: cs) = true) :
    Matches (.token .number) (c :: cs.takeWhile continuesNumber) := by
  simp only [startsNumber, Bool.or_eq_true, Bool.and_eq_true, beq_iff_eq] at h
  rcases h with hd | ⟨hsign, hd⟩
  · exact .number (.inl rfl) hd (takeWhile_forall _)
  · cases cs with
    | nil => cases hd
    | cons d cs =>
      rw [List.takeWhile_cons_of_pos (Number.continuesNumber_of_isDigit hd)]
      rcases hsign with rfl | rfl
      · exact .number (.inr (.inl rfl)) hd (takeWhile_forall _)
      · exact .number (.inr (.inr rfl)) hd (takeWhile_forall _)

theorem matches_string (h : stringLength? cs = some n) :
    n ≤ cs.length ∧ Matches (.token .string) ('"' :: cs.take n) := by
  obtain ⟨body, tail, rfl, rfl, hq, he⟩ := body_of_stringLength? h
  have htake : (body ++ '"' :: tail).take (body.length + 1) = body ++ ['"'] := by
    rw [show body ++ '"' :: tail = body ++ ['"'] ++ tail by simp]
    exact List.take_left' (by simp)
  rw [htake]
  exact ⟨by simp, .string hq he⟩

theorem matches_blockComment (h : commentLength? cs = some n) :
    n ≤ cs.length ∧ Matches .comment ('/' :: '*' :: cs.take n) := by
  obtain ⟨body, tail, rfl, rfl, hinfix⟩ := body_of_commentLength? h
  have htake : (body ++ '*' :: '/' :: tail).take (body.length + 2) = body ++ ['*', '/'] := by
    rw [show body ++ '*' :: '/' :: tail = body ++ ['*', '/'] ++ tail by simp]
    exact List.take_left' (by simp)
  rw [htake]
  exact ⟨by simp, .blockComment hinfix⟩

theorem matches_operator {kind : TokenKind} (h : operator? (c :: cs) = some kind) :
    kind.describe.length - 1 ≤ cs.length ∧
      Matches (.token kind) (c :: cs.take (kind.describe.length - 1)) := by
  obtain ⟨hmem, hprefix⟩ := operator?_eq_some h
  obtain ⟨c', rest, hcons, -⟩ := symbol_eq_cons hmem
  have hlength : kind.describe.length - 1 = rest.length := by
    rw [← String.length_toList, hcons]
    rfl
  rw [hcons] at hprefix
  obtain ⟨rfl, htail⟩ := List.cons_prefix_cons.1 hprefix
  rw [hlength, ← List.prefix_iff_eq_take.1 htail, ← hcons]
  exact ⟨htail.length_le, .operator hmem⟩

/-- What `classify` takes for a token, blanks or a comment is a match, and it is all there. -/
theorem matches_classify (h : classify c cs = (kind, n))
    (hk : kind = .blank ∨ kind = .comment ∨ ∃ k, kind = .token k) :
    n ≤ cs.length ∧ Matches kind (c :: cs.take n) := by
  have hle : ∀ p : Char → Bool, (cs.takeWhile p).length ≤ cs.length := fun p =>
    (List.takeWhile_prefix p).length_le
  -- one case for each rule, in the order in which they are tried; the failures are excluded by `hk`
  unfold classify at h
  split at h
  · next hblank =>
    cases h
    rw [take_length_takeWhile]
    exact ⟨hle _, .blank (List.cons_ne_nil _ _)
      (List.forall_mem_cons.2 ⟨hblank, takeWhile_forall _⟩)⟩
  split at h
  · next hline =>
    cases h
    obtain ⟨rest, hrest⟩ := List.isPrefixOf_iff_prefix.1 hline
    obtain ⟨rfl, rfl⟩ : '/' = c ∧ '/' :: rest = cs := by simpa using hrest
    refine ⟨hle _, ?_⟩
    rw [take_length_takeWhile, List.takeWhile_cons_of_pos (by decide)]
    exact .lineComment fun hmem => by simpa using takeWhile_forall _ _ hmem
  split at h
  · next hblock =>
    obtain ⟨rest, hrest⟩ := List.isPrefixOf_iff_prefix.1 hblock
    obtain ⟨rfl, rfl⟩ : '/' = c ∧ '*' :: rest = cs := by simpa using hrest
    split at h <;> cases h
    · next m hm =>
      obtain ⟨hm, hmatch⟩ := matches_blockComment hm
      exact ⟨Nat.succ_le_succ hm, hmatch⟩
    · simp at hk
  split at h
  · next hword =>
    cases h
    rw [take_length_takeWhile]
    exact ⟨hle _, matches_word hword⟩
  split at h
  · next hnumber =>
    cases h
    rw [take_length_takeWhile]
    exact ⟨hle _, matches_number hnumber⟩
  split at h
  · next hquote =>
    obtain rfl : c = '"' := by simpa using hquote
    split at h <;> cases h
    · next hm => exact matches_string hm
    · simp at hk
  · split at h <;> cases h
    · next hop => exact matches_operator hop
    · simp at hk

theorem eq_of_classify_invalid (h : classify c cs = (.invalid, n)) : n = 0 := by
  unfold classify at h
  grind

theorem eq_of_classify_openString (h : classify c cs = (.unterminatedString, n)) :
    c = '"' ∧ n = cs.length ∧ stringLength? cs = none := by
  unfold classify at h
  grind

theorem eq_of_classify_openComment (h : classify c cs = (.unterminatedComment, n)) :
    ∃ rest, c = '/' ∧ cs = '*' :: rest ∧ n = cs.length ∧ commentLength? rest = none := by
  have hblock : ['/', '*'].isPrefixOf (c :: cs) = true ∧ n = cs.length ∧
      commentLength? (cs.drop 1) = none := by
    unfold classify at h
    grind
  obtain ⟨⟨rest, hrest⟩, hn, hnone⟩ := hblock.imp_left List.isPrefixOf_iff_prefix.1
  obtain ⟨rfl, rfl⟩ : '/' = c ∧ '*' :: rest = cs := by simpa using hrest
  exact ⟨rest, rfl, rfl, hn, hnone⟩

theorem Matches.ne_nil (h : Matches kind text) : text ≠ [] := by
  cases h with
  | blank hne => exact hne
  | keyword hw =>
    obtain ⟨c, cs, hcons, -⟩ := keyword_eq_cons hw
    simp [hcons]
  | operator hk =>
    obtain ⟨c, cs, hcons, -⟩ := symbol_eq_cons hk
    simp [hcons]
  | number => simp
  | _ => exact List.cons_ne_nil _ _

/-- A match that `classify` takes is a longest one. -/
theorem longest_classify (h : classify c cs = (kind, n)) (hn : n ≤ cs.length)
    (hm : Matches kind (c :: cs.take n)) : Longest kind (c :: cs.take n) (cs.drop n) := by
  have htext : c :: cs.take n ++ cs.drop n = c :: cs := by
    rw [List.cons_append, List.take_append_drop]
  have hlength : (c :: cs.take n).length = n + 1 := by
    rw [List.length_cons, List.length_take, Nat.min_eq_left hn]
  refine ⟨hm, fun kind' other hmatch hprefix => ?_, fun kind' hmatch => ?_⟩
  · rw [htext] at hprefix
    rw [hlength]
    simpa [h] using (hmatch.length_le hprefix).1
  · have hprefix : c :: cs.take n <+: c :: cs := ⟨_, htext⟩
    rcases (hmatch.length_le hprefix).2 (by rw [hlength, h]) with hkind | ⟨hkind, -⟩
    · exact .inl (by rw [← hkind, h])
    · exact .inr hkind

/-- What `classify` takes is the longest match in front of what remains, or else no rule matches
there or the text is not closed. -/
theorem stands_classify (c : Char) (cs : List Char) :
    Stands (cs.drop (classify c cs).2) ⟨(classify c cs).1, c :: cs.take (classify c cs).2⟩ := by
  cases h : classify c cs with
  | mk kind n =>
  have hlongest : (kind = .blank ∨ kind = .comment ∨ ∃ k, kind = .token k) →
      Stands (cs.drop n) ⟨kind, c :: cs.take n⟩ := fun hk =>
    have hm := matches_classify h hk
    .longest (longest_classify h hm.1 hm.2)
  cases kind with
  | blank => exact hlongest (.inl rfl)
  | comment => exact hlongest (.inr (.inl rfl))
  | token k => exact hlongest (.inr (.inr ⟨k, rfl⟩))
  | invalid =>
    obtain rfl := eq_of_classify_invalid h
    -- a match would be at least as long, and `classify` would have taken it
    refine .invalid fun kind text hmatch hprefix => ?_
    rw [List.drop_zero] at hprefix
    have hpos := List.length_pos_iff.2 hmatch.ne_nil
    obtain ⟨hle, htie⟩ := hmatch.length_le hprefix
    rw [h] at hle htie
    rcases htie (by simp only at hle ⊢; omega) with rfl | ⟨-, k, hk⟩
    · cases hmatch
    · cases hk
  | unterminatedString =>
    obtain ⟨rfl, rfl, hnone⟩ := eq_of_classify_openString h
    rw [List.take_length]
    exact .openString List.drop_length (quotesEscaped_of_stringLength? hnone)
  | unterminatedComment =>
    obtain ⟨rest, rfl, rfl, rfl, hnone⟩ := eq_of_classify_openComment h
    rw [List.take_length]
    exact .openComment List.drop_length (not_infix_of_commentLength? hnone)

end Piece

end SearchScript
