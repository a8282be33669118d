import Mathlib
import SearchScript.Proofs.Parse.Parallel
import SearchScript.Proofs.Run.Fuel
import SearchScript.Proofs.Token.Appended
import SearchScript.Run.Program

/-!
# The spacing of minus signs

The scanner joins a minus with the number behind it if there is no gap between them, and the parser
cuts the two again where an operator may stand. So behind an operand the gaps around a minus make no
difference at all. In front of an operand they decide between a literal with a sign and the negation
of one without. Those are the same number, unless the number is written in another base than ten or
a suffix binds tighter than the negation.

## Key definitions

- `MinusPlace`: a place in a text for a minus and a number
- `MinusPlace.text`: the text with them, and with gaps around the minus

## Key results

- `Token.Alike.minus`: the tokens of a minus and a number are alike whatever the gap is
- `Code.parse_alike`: programs of alike tokens have the same tree
- `MinusPlace.spacing_immaterial`: the spacing of a minus and a number does not matter
-/

namespace SearchScript

open Piece

/-- Blanks between tokens. -/
structure Gap where
  text : String
  blank : ∀ c ∈ text.toList, isBlank c = true

/-- No blanks. -/
def Gap.none : Gap := ⟨"", by simp⟩

/-- One blank. -/
def Gap.single : Gap := ⟨" ", by simp [isBlank]⟩

/-- A place in a program text for a minus and a number behind it: the texts in front of it and
behind it, and the digits of the number, as the scanner sees them. -/
structure MinusPlace where
  before : String
  digits : String
  after : String
  /-- The tokens in front of the place. -/
  tokens : List Token
  scanned : Token.scan before = .ok tokens
  closed : Closed before.toList
  isDigits : Number.IsDigits digits.toList
  /-- The number ends where its digits do. -/
  ends : after.toList.head?.all (!continuesNumber ·) = true

/-- Whether an operand ends with the last of some tokens, or in front of them if there are none. -/
def Token.behind (operand : Bool) (ts : List Token) : Bool :=
  (ts.getLast?.map (·.kind.endsOperand)).getD operand

namespace MinusPlace

/-- The text with a minus at the place, and with gaps in front of it and behind it. -/
def text (p : MinusPlace) (gap gap' : Gap) : String :=
  p.before ++ gap.text ++ "-" ++ gap'.text ++ p.digits ++ p.after

/-- Whether an operand ends in front of the place. -/
def isBehind (p : MinusPlace) : Bool := Token.behind false p.tokens

/-- Whether no member access, call or subscript follows the number. -/
def Unsuffixed (p : MinusPlace) : Prop :=
  ∀ t ts, Token.scan p.after = .ok (t :: ts) → Parse.startsSuffix t.kind = false

/-- Whether the number has no value that is written in another base than ten. -/
def IsDecimal (p : MinusPlace) : Prop :=
  Number.startsWithMark p.digits.toList = true → Number.read p.digits = .nan

/-- Whether a cursor stands at the place in the text with the minus. -/
def IsAt (p : MinusPlace) (gap gap' : Gap) (c : Cursor) : Prop :=
  ∃ tokens, Token.scan (p.text gap gap') = .ok tokens ∧ c.rest = tokens.drop p.tokens.length

end MinusPlace

namespace Token

variable {t t' : Token} {fold operand : Bool} {as as' bs bs' ms ms' : List Token}
  {gap gap' digits : List Char}

theorem behind_cons : behind operand (t :: as) = behind t.kind.endsOperand as := by
  unfold behind
  rw [List.getLast?_cons]
  cases as.getLast? <;> rfl

/-- Tokens with the same pieces in front do not matter. -/
theorem Alike.append (h : as'.map piece = as.map piece)
    (hw : ∀ t ∈ as, t.span.isEmpty = false) (hw' : ∀ t ∈ as', t.span.isEmpty = false)
    (hb : Alike fold (behind operand as) bs bs') : Alike fold operand (as ++ bs) (as' ++ bs') := by
  induction as generalizing as' operand with
  | nil =>
    rw [List.map_nil, List.map_eq_nil_iff] at h
    subst h
    exact hb
  | cons t as ih =>
    obtain ⟨t', as', rfl, ht, has⟩ := List.map_eq_cons_iff.1 h
    obtain ⟨hk, htext⟩ := piece_eq_iff.1 ht
    obtain ⟨hwt, hw⟩ := List.forall_mem_cons.1 hw
    obtain ⟨hwt', hw'⟩ := List.forall_mem_cons.1 hw'
    rw [behind_cons] at hb
    exact .same ⟨hk, htext, fun _ => hwt'.trans hwt.symm⟩ (ih has hw hw' hb)

/-- The tokens of a minus and digits: one if there is no gap between them, else two. -/
theorem minusPieces_cases (h : ms.map piece = minusPieces gap digits) :
    (gap = [] ∧ ∃ t, ms = [t] ∧ t.kind = .number ∧ t.text.toList = '-' :: digits) ∨
      gap ≠ [] ∧ ∃ m n, ms = [m, n] ∧ (m.kind = .minus ∧ m.text = "-") ∧ n.kind = .number ∧
        n.text.toList = digits := by
  unfold minusPieces at h
  split at h
  · next hgap =>
    obtain ⟨t, rest, rfl, ht, hrest⟩ := List.map_eq_cons_iff.1 h
    rw [List.map_eq_nil_iff.1 hrest]
    exact .inl ⟨hgap, t, rfl, by simpa [piece] using ht⟩
  · next hgap =>
    obtain ⟨m, rest, rfl, hm, hrest⟩ := List.map_eq_cons_iff.1 h
    obtain ⟨n, rest, rfl, hn, hrest⟩ := List.map_eq_cons_iff.1 hrest
    rw [List.map_eq_nil_iff.1 hrest]
    obtain ⟨hk, htext⟩ := Piece.mk.inj hm
    exact .inr ⟨hgap, m, n, rfl, ⟨PieceKind.token.inj hk, String.toList_inj.1 htext⟩,
      by simpa [piece] using hn⟩

/-- A minus and a number are alike whatever the gap between them is, behind an operand, or where the
one token stands for the opposite number and no suffix follows. -/
theorem Alike.minus (hm : ms.map piece = minusPieces gap digits)
    (hm' : ms'.map piece = minusPieces gap' digits)
    (h : operand = true ∨ gap' = [] ∧ fold = true ∧
      Number.read (String.ofList ('-' :: digits)) = (Number.read (String.ofList digits)).neg ∧
      ∀ u, bs.head? = some u → Parse.startsSuffix u.kind = false)
    (hb : Alike fold true bs bs') : Alike fold operand (ms ++ bs) (ms' ++ bs') := by
  rcases minusPieces_cases hm with ⟨-, t, rfl, hk, htext⟩ | ⟨-, m, n, rfl, hminus, hn, hdigits⟩
  · rcases minusPieces_cases hm' with
      ⟨-, t', rfl, hk', htext'⟩ | ⟨hgap', m', n', rfl, hminus', hn', hdigits'⟩
    · exact .same (.of_sign (by rw [hk]; rfl) (hk'.trans hk.symm) (htext'.trans htext.symm))
        (hk ▸ hb)
    · -- a gap may only come in behind an operand
      obtain rfl : operand = true := h.resolve_right fun h => hgap' h.1
      exact .parted ⟨hk, hminus', hn', by rw [htext, hdigits']⟩ hb
  · rcases minusPieces_cases hm' with
      ⟨-, t', rfl, hk', htext'⟩ | ⟨-, m', n', rfl, hminus', hn', hdigits'⟩
    · have hfuses : Fuses t' m n := ⟨hk', hminus, hn, by rw [htext', hdigits]⟩
      cases operand with
      | true => exact .joined hfuses hb
      | false =>
        obtain ⟨-, hfold, hread, hsuffix⟩ := h.resolve_left nofun
        refine .signed hfold hfuses ?_ hsuffix hb
        rw [← String.ofList_toList (s := t'.text), ← String.ofList_toList (s := n.text), htext',
          hdigits, hread]
    -- both have a gap, so both have the same two tokens
    · have hsame : SameAs m m' := .of_sign (by rw [hminus.1]; rfl)
        (hminus'.1.trans hminus.1.symm) (by rw [hminus'.2, hminus.2])
      exact .same hsame (.same (.of_sign (by rw [hn]; rfl) (hn'.trans hn.symm)
        (hdigits'.trans hdigits.symm)) (hn ▸ hb))

/-- What the tokens are alike to is not empty if they are not. -/
theorem Alike.ne_nil {ts ts' : List Token} (h : Alike fold operand ts ts') (hne : ts ≠ []) :
    ts' ≠ [] := by
  rintro rfl
  cases h
  exact hne rfl

theorem behind_congr (h : as'.map piece = as.map piece) :
    behind operand as' = behind operand as := by
  induction as generalizing as' operand with
  | nil => rw [List.map_eq_nil_iff.1 h]
  | cons t as ih =>
    obtain ⟨t', as', rfl, ht, has⟩ := List.map_eq_cons_iff.1 h
    rw [behind_cons, behind_cons, ih has, (piece_eq_iff.1 ht).1]

end Token

/-! ## Programs of alike tokens -/

section Programs

open Parse

variable {source source' : String} {isScript fold : Bool} {code : Code}

/-- A text with tokens like those of a program is a program with the same tree. -/
theorem Code.parse_alike
    (h : ∀ ts, Token.scan source = .ok ts → ∃ ts', Token.scan source' = .ok ts' ∧
      Token.Alike fold false ts ts')
    (hcode : Code.parse .strict isScript source = .ok code) :
    ∃ code', Code.parse .strict isScript source' = .ok code' ∧
      code'.reduced fold = code.reduced fold := by
  have hstart : ∀ {c}, Parse.start .strict source = .ok c →
      ∃ c', Parse.start .strict source' = .ok c' ∧ Cursor.Parallel fold false c c' := by
    intro c hc
    obtain ⟨ts, hscan⟩ := exists_scan_of_start hc
    obtain ⟨ts', hscan', ha⟩ := h ts hscan
    have hrest := rest_of_start hscan hc
    have hne := ha.ne_nil (hrest ▸ rest_ne_nil_of_start hc)
    refine ⟨.ofTokens ts', ?_, by rw [Cursor.Parallel, hrest]; exact ha⟩
    unfold start
    rw [hscan']
    cases ts' with
    | nil => exact absurd rfl hne
    | cons t ts' => rfl
  -- nothing is alike to the end of the tokens but the end
  have hend : ∀ {operand} {d d' : Cursor}, d.rest = [] → Cursor.Parallel fold operand d d' →
      d'.rest = [] := by
    intro operand d d' hd hp
    rw [Cursor.Parallel, hd] at hp
    generalize d'.rest = rest at hp ⊢
    cases hp
    rfl
  unfold Code.parse at hcode ⊢
  cases isScript with
  | false =>
    obtain ⟨e, he, rfl⟩ := Except.map_eq_ok_iff.1 hcode
    obtain ⟨c, d, hc, hread, hd⟩ := Expr.parse_eq_ok_iff.1 he
    obtain ⟨c', hc', hp⟩ := hstart hc
    obtain ⟨e', d', hread', hsame, hp'⟩ := hread.keeps _ hp
    exact ⟨_, Except.map_eq_ok_iff.2 ⟨e', Expr.parse_eq_ok_iff.2
      ⟨_, d', hc', hread', hend hd hp'⟩, rfl⟩, congrArg Code.expression hsame⟩
  | true =>
    obtain ⟨s, hs, rfl⟩ := Except.map_eq_ok_iff.1 hcode
    obtain ⟨c, body, d, hc, hread, hd, rfl⟩ := Statement.parseScript_eq_ok_iff.1 hs
    obtain ⟨c', hc', hp⟩ := hstart hc
    obtain ⟨operand', body', d', hread', hsame, hp'⟩ := hread.keeps _ _ hp
    refine ⟨_, Except.map_eq_ok_iff.2 ⟨_, Statement.parseScript_eq_ok_iff.2
      ⟨_, body', d', hc', hread', hend hd hp', rfl⟩, rfl⟩, ?_⟩
    simp only [Code.reduced, Statement.reduced, hsame]

end Programs

/-! ## What is read at the place -/

namespace Parse

/-- Whether an expression is read as an operand: as an atom, in parentheses, or as a prefix operator
with its own operand. -/
def ReadsOperand (c : Cursor) (e : Expr) (d : Cursor) : Prop :=
  Reads .strict .operand c (some e) d ∨
    ∃ depth start, Reads .strict (.prefixOperator depth start) c (.more e) d

variable {c c₁ d : Cursor} {e : Expr} {t m n : Token} {rest : List Token}

/-- A number is read as its literal. -/
theorem ReadsOperand.of_number (h : ReadsOperand c e d) (hn : c.next? = some (t, c₁))
    (hk : t.kind = .number) : e = .number t.span (Number.read t.text) := by
  rcases h with h | ⟨depth, start, h⟩
  · cases h with
    | operandParens ht hparen =>
      rw [hn] at ht
      cases ht
      rw [hk] at hparen
      cases hparen
    | operandAtom ht ha =>
      rw [hn] at ht
      cases ht
      simp only [atomOf?, hk, Option.some.injEq] at ha
      exact ha.symm
  · cases h with
    | prefixUnary ht _ ho _ =>
      rw [hn] at ht
      cases ht
      rw [hk] at ho
      cases ho

/-- A minus and a number that no suffix follows are read as the negation of its literal. -/
theorem ReadsOperand.of_minus (h : ReadsOperand c e d) (hr : c.rest = m :: n :: rest)
    (hm : m.kind = .minus) (hk : n.kind = .number)
    (hs : ∀ u, rest.head? = some u → startsSuffix u.kind = false) :
    ∃ span span', e = .unary span .negate (.number span' (Number.read n.text)) := by
  rcases h with h | ⟨depth, start, h⟩
  · exact absurd (by rw [Cursor.kind?_of_rest hr, hm]) (kind?_of_operandSome h)
  · obtain ⟨span, span', he, -⟩ := of_negatedLiteral h hr hm hk hs
    exact ⟨span, span', he⟩

end Parse

namespace MinusPlace

open Token Parse

variable {p : MinusPlace} {gap gap' other other' : Gap} {ts ts' bs : List Token} {c : Cursor}
  {fold : Bool}

theorem solid_pieces (p : MinusPlace) (gap gap' : Gap) :
    solid (pieces (p.text gap gap').toList) = p.tokens.map piece ++
      (minusPieces gap'.text.toList p.digits.toList ++ solid (pieces p.after.toList)) := by
  have hsplit : (p.text gap gap').toList = p.before.toList ++ (gap.text.toList ++
      ('-' :: (gap'.text.toList ++ (p.digits.toList ++ p.after.toList)))) := by
    simp [text]
  -- the part behind the tokens in front of the place begins with a blank or with the minus
  have hparts : (gap.text.toList ++ ('-' :: (gap'.text.toList ++
      (p.digits.toList ++ p.after.toList)))).head?.all parts = true := by
    cases hgap : gap.text.toList with
    | nil => rfl
    | cons c cs =>
      have hc := gap.blank c (by rw [hgap]; exact List.mem_cons_self)
      simp [parts, hc]
  rw [hsplit, solid_pieces_append p.closed hparts, solid_pieces_of_blank gap.blank,
    solid_pieces_minus gap'.blank p.isDigits p.ends, map_piece_of_scan p.scanned]

/-- The tokens of the text are those in front of the place, those of the minus and the number, and
those behind them. -/
theorem exists_split (h : Token.scan (p.text gap gap') = .ok ts) :
    ∃ as ms bs, ts = as ++ (ms ++ bs) ∧ as.map piece = p.tokens.map piece ∧
      ms.map piece = minusPieces gap'.text.toList p.digits.toList ∧
      bs.map piece = solid (pieces p.after.toList) := by
  have hmap := map_piece_of_scan h
  rw [solid_pieces] at hmap
  obtain ⟨as, rest, rfl, has, hrest⟩ := List.map_eq_append_iff.1 hmap
  obtain ⟨ms, bs, rfl, hms, hbs⟩ := List.map_eq_append_iff.1 hrest
  exact ⟨as, ms, bs, rfl, has, hms, hbs⟩

theorem startsSuffix_of_unsuffixed (hu : p.Unsuffixed)
    (hbs : bs.map piece = solid (pieces p.after.toList)) :
    ∀ u, bs.head? = some u → startsSuffix u.kind = false := by
  intro u hhead
  obtain ⟨rest, rfl⟩ := List.head?_eq_some_iff.1 hhead
  obtain ⟨tokens, hscan⟩ : ∃ tokens, Token.scan p.after = .ok tokens :=
    exists_scan_of_pieces fun q hq => exists_kind_of_mem_map (hbs ▸ hq)
  obtain ⟨t, tokens, rfl, ht, -⟩ :=
    List.map_eq_cons_iff.1 ((map_piece_of_scan hscan).trans hbs.symm)
  rw [← (piece_eq_iff.1 ht).1]
  exact hu t tokens hscan

/-- The literal with the minus in it stands for the opposite number. -/
theorem read_eq (hv : p.IsDecimal) :
    Number.read (String.ofList ('-' :: p.digits.toList)) =
      (Number.read (String.ofList p.digits.toList)).neg := by
  rw [Number.read_minus p.isDigits, String.ofList_toList]
  split
  · next hmark => rw [hv hmark]; rfl
  · rfl

/-- The text is scanned whatever the gaps are, and the tokens are alike as long as the minus stands
behind an operand or joins a number for whose opposite it stands then. -/
theorem exists_alike (h : Token.scan (p.text gap gap') = .ok ts)
    (hplace : p.isBehind = true ∨
      other'.text.toList = [] ∧ fold = true ∧ p.Unsuffixed ∧ p.IsDecimal) :
    ∃ ts', Token.scan (p.text other other') = .ok ts' ∧ Alike fold false ts ts' := by
  have hwidth := fun t ht => isEmpty_of_mem_scan (t := t) h ht
  obtain ⟨as, ms, bs, rfl, has, hms, hbs⟩ := exists_split h
  obtain ⟨ts', h'⟩ : ∃ ts', Token.scan (p.text other other') = .ok ts' := by
    refine exists_scan_of_pieces fun q hq => ?_
    rw [solid_pieces, ← hbs, List.mem_append, List.mem_append] at hq
    rcases hq with hq | hq | hq
    · exact exists_kind_of_mem_map hq
    · exact exists_kind_of_mem_minusPieces hq
    · exact exists_kind_of_mem_map hq
  have hwidth' := fun t ht => isEmpty_of_mem_scan (t := t) h' ht
  obtain ⟨as', ms', bs', rfl, has', hms', hbs'⟩ := exists_split h'
  simp only [List.mem_append] at hwidth hwidth'
  -- behind a number an operand ends, in both texts
  have hrest : Alike fold true bs bs' := by
    simpa using Alike.append (hbs'.trans hbs.symm) (fun t ht => hwidth t (.inr (.inr ht)))
      (fun t ht => hwidth' t (.inr (.inr ht))) (.nil : Alike fold (behind true bs) [] [])
  refine ⟨_, h', .append (has'.trans has.symm) (fun t ht => hwidth t (.inl ht))
    (fun t ht => hwidth' t (.inl ht)) (.minus hms hms' ?_ hrest)⟩
  rw [behind_congr has]
  refine hplace.imp id ?_
  rintro ⟨hgap, hfold, hu, hv⟩
  exact ⟨hgap, hfold, read_eq hv, startsSuffix_of_unsuffixed hu hbs⟩

/-- The tokens at the place are those of the minus and the number. -/
theorem exists_rest (hc : p.IsAt gap gap' c) : ∃ ms bs, c.rest = ms ++ bs ∧
    ms.map piece = minusPieces gap'.text.toList p.digits.toList ∧
    bs.map piece = solid (pieces p.after.toList) := by
  obtain ⟨tokens, hscan, hrest⟩ := hc
  obtain ⟨as, ms, bs, rfl, has, hms, hbs⟩ := exists_split hscan
  have hlength : as.length = p.tokens.length := by simpa using congrArg List.length has
  exact ⟨ms, bs, by rw [hrest, ← hlength, List.drop_left], hms, hbs⟩

/-- Where an operator may stand, the minus is one, whether there is a gap behind it or not. -/
theorem exists_minus (hc : p.IsAt gap gap' c) : ∃ m n bs,
    c.splitNegative.rest = m :: n :: bs ∧ m.kind = .minus ∧ n.kind = .number ∧
      n.text = p.digits := by
  obtain ⟨ms, bs, hrest, hms, -⟩ := exists_rest hc
  rcases minusPieces_cases hms with ⟨-, t, rfl, hk, htext⟩ | ⟨-, m, n, rfl, hm, hn, hdigits⟩
  · have hf : Fuses t ⟨.minus, default, "-"⟩ ⟨.number, default, p.digits⟩ :=
      ⟨hk, ⟨rfl, rfl⟩, rfl, htext⟩
    obtain ⟨m, n, hs, hm, hn⟩ := hf.splitToken?
    exact ⟨m, n, bs, Cursor.rest_splitNegative_of_some hrest hs, hm.kind, hn.kind, hn.text⟩
  · exact ⟨m, n, bs, by rw [Cursor.splitNegative_of_minus hrest hm.1, hrest]; rfl, hm.1, hn,
      String.toList_inj.1 hdigits⟩

/-- An operator that is read at the place is a subtraction. -/
theorem operator_iff (hc : p.IsAt gap gap' c) : ∃ m n c₁ c₂,
    c.splitNegative.next? = some (m, c₁) ∧ c₁.next? = some (n, c₂) ∧ m.kind = .minus ∧
      n.kind = .number ∧ n.text = p.digits ∧ ∀ depth left e d,
        Reads .strict (.operator depth left) c.splitNegative (.more e) d ↔
          depth < BinaryOp.sub.depth ∧
            ∃ right, Reads .strict (.expr BinaryOp.sub.depth) c₁ right d ∧
              e = .join .sub left right := by
  obtain ⟨m, n, bs, hrest, hm, hn, hdigits⟩ := exists_minus hc
  have hnext := Cursor.next?_of_rest hrest
  refine ⟨m, n, _, _, hnext, Cursor.next?_of_rest rfl, hm, hn, hdigits,
    fun depth left e d => ⟨fun h => ?_, ?_⟩⟩
  · -- the next token is the minus, so it is the sign of the operator that was read
    have hother : ∀ {t c₁} {kind : TokenKind}, c.splitNegative.next? = some (t, c₁) →
        t.kind = kind → kind = .minus := by
      intro t c₁ kind ht hk
      rw [hnext] at ht
      cases ht
      rw [← hk, hm]
    cases h with
    | infixMember ht hk | infixCall ht hk | infixSubscript ht hk | infixTernary ht hk =>
      cases hother ht hk
    | infixBinary ht ho hd he =>
      rw [hother ht rfl] at ho
      cases ho
      rw [hnext] at ht
      cases ht
      exact ⟨hd, _, he, rfl⟩
  · rintro ⟨hd, right, he, rfl⟩
    exact .infixBinary hnext (by rw [hm]; rfl) hd he

/-- An operand is read at the place, where no suffix follows, and it is the literal of the opposite
number or the negation of the literal of the number. -/
theorem readsOperand_of_isAt (hu : p.Unsuffixed) (hv : p.IsDecimal) (hc : p.IsAt gap gap' c) :
    (∃ e d, ReadsOperand c e d) ∧ ∀ e d, ReadsOperand c e d →
      (∃ span, e = .number span (Number.read p.digits).neg) ∨
        ∃ span span', e = .unary span .negate (.number span' (Number.read p.digits)) := by
  obtain ⟨ms, bs, hrest, hms, hbs⟩ := exists_rest hc
  rcases minusPieces_cases hms with ⟨-, t, rfl, hk, htext⟩ | ⟨-, m, n, rfl, hm, hk, hdigits⟩
  · have hnext : c.next? = some (t, c.pass t bs) := Cursor.next?_of_rest hrest
    have hread : Number.read t.text = (Number.read p.digits).neg := by
      have hneg := read_eq hv
      rwa [← htext, String.ofList_toList, String.ofList_toList] at hneg
    have hatom : atomOf? t = some (.number t.span (Number.read t.text)) := by
      simp only [atomOf?, hk]
    exact ⟨⟨_, _, .inl (.operandAtom hnext hatom)⟩,
      fun e d h => .inl ⟨t.span, hread ▸ h.of_number hnext hk⟩⟩
  · have htext : n.text = p.digits := String.toList_inj.1 hdigits
    have hs := startsSuffix_of_unsuffixed hu hbs
    -- the prefix operator reads the number alone, since no suffix goes on with it
    have hliteral := reads_literal (Cursor.next?_of_rest (c := c.pass m (n :: bs)) rfl) hk
      (forall_kind?_of_rest rfl hs)
    have hminus : UnaryOp.ofToken? m.kind = some .negate := by rw [hm.1]; rfl
    have hprefix : Reads .strict (.prefixOperator 0 0) c _ _ :=
      .prefixUnary (Cursor.next?_of_rest hrest) (by decide) hminus hliteral
    exact ⟨⟨_, _, .inr ⟨0, 0, hprefix⟩⟩,
      fun e d h => .inr (htext ▸ h.of_minus hrest hm.1 hk hs)⟩

/-- What an operand at the place evaluates to, in any context and whatever the gap is. -/
theorem comesTo_of_readsOperand {e : Expr} {d : Cursor} (hu : p.Unsuffixed) (hv : p.IsDecimal)
    (hc : p.IsAt gap gap' c) (he : ReadsOperand c e d) (ctx : Context) (st : Store) :
    Run.ComesTo (fun fuel => Walk.expr fuel ctx e) st
      (.ok (.number (Number.read p.digits).neg), st) := by
  rcases (readsOperand_of_isAt hu hv hc).2 e d he with ⟨span, rfl⟩ | ⟨span, span', rfl⟩
  · exact ⟨1, rfl⟩
  · exact ⟨2, rfl⟩

/-- The spacing of a minus and a number does not matter. Behind an operand the program has the same
tree whatever the gaps are, and what is read there is the subtraction of an operand that begins with
the number. Elsewhere the minus may be moved to the number: the tree stays the same but for the
negation of the number, which becomes the literal of the opposite number, and both evaluate to that.
There the number must not have a value written in another base than ten, since its text has no sign
then, and no suffix may follow, since it applies to a literal but inside of a negation. -/
theorem spacing_immaterial (p : MinusPlace) :
    (p.isBehind = true → ∀ gap gap',
      (∀ isScript code, Code.parse .strict isScript (p.text gap gap') = .ok code →
        ∀ other other', ∃ code', Code.parse .strict isScript (p.text other other') = .ok code' ∧
          code'.withoutSpans = code.withoutSpans) ∧
      ∀ c, p.IsAt gap gap' c → ∃ m n c₁ c₂,
        c.splitNegative.next? = some (m, c₁) ∧ c₁.next? = some (n, c₂) ∧ m.kind = .minus ∧
          n.kind = .number ∧ n.text = p.digits ∧ ∀ depth left e d,
            Reads .strict (.operator depth left) c.splitNegative (.more e) d ↔
              depth < BinaryOp.sub.depth ∧
                ∃ right, Reads .strict (.expr BinaryOp.sub.depth) c₁ right d ∧
                  e = .join .sub left right) ∧
    (p.Unsuffixed → p.IsDecimal → ∀ gap gap',
      (∀ isScript code, Code.parse .strict isScript (p.text gap gap') = .ok code →
        ∀ other, ∃ code', Code.parse .strict isScript (p.text other .none) = .ok code' ∧
          code'.reduced true = code.reduced true) ∧
      ∀ c, p.IsAt gap gap' c → (∃ e d, ReadsOperand c e d) ∧
        ∀ e d, ReadsOperand c e d → ∀ ctx st,
          Run.ComesTo (fun fuel => Walk.expr fuel ctx e) st
            (.ok (.number (Number.read p.digits).neg), st)) := by
  refine ⟨fun hbehind gap gap' => ⟨fun isScript code hcode other other' => ?_,
    fun c hc => operator_iff hc⟩, fun hu hv gap gap' => ⟨fun isScript code hcode other => ?_,
    fun c hc => ⟨(readsOperand_of_isAt hu hv hc).1,
      fun e d he ctx st => comesTo_of_readsOperand hu hv hc he ctx st⟩⟩⟩
  -- behind an operand the tokens differ in how a minus and a number are joined, and the parser
  -- splits them
  · obtain ⟨code', hcode', hsame⟩ : ∃ code',
        Code.parse .strict isScript (p.text other other') = .ok code' ∧
          code'.reduced false = code.reduced false :=
      Code.parse_alike (fun ts hscan => exists_alike hscan (.inl hbehind)) hcode
    rw [Code.reduced_false, Code.reduced_false] at hsame
    exact ⟨code', hcode', hsame⟩
  · exact Code.parse_alike
      (fun ts hscan => exists_alike hscan (.inr ⟨rfl, rfl, hu, hv⟩)) hcode

/-- Behind a name. -/
def behindName : MinusPlace where
  before := "x"
  digits := "1"
  after := ""
  tokens := [⟨.identifier, ⟨0, 1⟩, "x"⟩]
  scanned := by cbv
  closed := by
    have hpieces : (pieces "x".toList).getLast? = some ⟨.token .identifier, ['x']⟩ := by cbv
    intro p hp
    cases hpieces.symm.trans hp
    rfl
  isDigits := ⟨'1', [], rfl, rfl, rfl⟩
  ends := rfl

/-- Behind an operator, in front of a sum. -/
def inSum : MinusPlace where
  before := "2 *"
  digits := "1"
  after := " + y"
  tokens := [⟨.number, ⟨0, 1⟩, "2"⟩, ⟨.times, ⟨2, 3⟩, "*"⟩]
  scanned := by cbv
  closed := by
    have hpieces : (pieces "2 *".toList).getLast? = some (symbol .times) := by cbv
    intro p hp
    cases hpieces.symm.trans hp
    rfl
  isDigits := ⟨'1', [], rfl, rfl, rfl⟩
  ends := rfl

/-- A subtraction in three spacings, and a negative factor in two. -/
theorem spacing_immaterial_of_places :
    (∃ code, Code.parse .strict false "x - 1" = .ok code ∧ ∀ source ∈ ["x -1", "x-1"],
      ∃ code', Code.parse .strict false source = .ok code' ∧
        code'.withoutSpans = code.withoutSpans) ∧
    (∃ code code', Code.parse .strict false "2 *- 1 + y" = .ok code ∧
      Code.parse .strict false "2 * -1 + y" = .ok code' ∧ code'.reduced true = code.reduced true) ∧
    ∃ tokens, Token.scan "2 * -1 + y" = .ok tokens ∧ ∃ e d,
      ReadsOperand ⟨tokens.drop 2, 10, default⟩ e d ∧ ∀ ctx st,
        Run.ComesTo (fun fuel => Walk.expr fuel ctx e) st
          (.ok (.number (Number.read "1").neg), st) := by
  have hunsuffixed : inSum.Unsuffixed := by
    have hscan : Token.scan " + y" =
        .ok [⟨.plus, ⟨1, 2⟩, "+"⟩, ⟨.identifier, ⟨3, 4⟩, "y"⟩] := by cbv
    intro t ts h
    cases hscan.symm.trans h
    rfl
  have hparse : ∀ {source}, (Code.parse .strict false source).isOk = true →
      ∃ code, Code.parse .strict false source = .ok code := by
    intro source h
    cases hcode : Code.parse .strict false source with
    | ok code => exact ⟨code, rfl⟩
    | error e =>
      rw [hcode] at h
      cases h
  obtain ⟨code, hcode⟩ : ∃ code, Code.parse .strict false "x - 1" = .ok code :=
    hparse (by decide +kernel)
  obtain ⟨code', hcode'⟩ : ∃ code, Code.parse .strict false "2 *- 1 + y" = .ok code :=
    hparse (by decide +kernel)
  obtain ⟨tokens, hscan⟩ : ∃ tokens, Token.scan "2 * -1 + y" = .ok tokens := ⟨_, by cbv⟩
  obtain ⟨hsame, -⟩ := (spacing_immaterial behindName).1 rfl .single .single
  obtain ⟨hfolded, -⟩ := (spacing_immaterial inSum).2 hunsuffixed nofun .none .single
  obtain ⟨-, hread⟩ := (spacing_immaterial inSum).2 hunsuffixed nofun .single .none
  refine ⟨⟨code, hcode, ?_⟩, ?_, tokens, hscan, ?_⟩
  · intro source hsource
    rcases List.mem_pair.1 hsource with rfl | rfl
    · exact hsame false code hcode .single .none
    · exact hsame false code hcode .none .none
  · obtain ⟨code₁, hcode₁, heq⟩ := hfolded false code' hcode' .single
    exact ⟨code', code₁, hcode', hcode₁, heq⟩
  · obtain ⟨⟨e, d, he⟩, hvalue⟩ := hread ⟨tokens.drop 2, 10, default⟩ ⟨tokens, hscan, rfl⟩
    exact ⟨e, d, he, fun ctx st => hvalue e d he ctx st⟩

end MinusPlace

/-- Whether a program text evaluates to a number. -/
def Code.givesNumber (n : Number) (source : String) : Bool :=
  match (Code.parse .strict false source).toOption.bind (·.evaluate 9 ⟨[], 0⟩ {}) with
  | some (.ok (.number m), _) => m = n
  | _ => false

/-- A number in another base than ten has no sign in its text, a member is one of the literal or of
the number that is negated, and behind a period a literal may stand but no negation. -/
theorem MinusPlace.not_spacing_immaterial :
    (Code.givesNumber .nan "-0x10" = true ∧ Code.givesNumber (.ofInt (-16)) "- 0x10" = true) ∧
      (Code.givesNumber (.ofInt (-1)) "-1 .string" = false ∧
        Code.givesNumber (.ofInt (-1)) "- 1 .string" = true) ∧
      (Code.parse .strict false "x.-1").isOk = true ∧
        (Code.parse .strict false "x.- 1").isOk = false := by
  refine ⟨⟨?_, ?_⟩, ⟨?_, ?_⟩, ?_, ?_⟩ <;> decide +kernel

end SearchScript
