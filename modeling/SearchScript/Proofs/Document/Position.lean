import SearchScript.Document.Position
import SearchScript.Proofs.Syntax.Nesting
import Mathlib.Algebra.GroupWithZero.Nat
import Mathlib.Data.List.Induction
import Mathlib.Data.Prod.Lex

/-!
# Places and offsets

The place of an offset is found by walking over the characters in front of it, and the offset of a
place by walking until the place is reached. The two walks pass through the same places, so each
undoes the other on the offsets between characters. Places that no offset has, inside a surrogate
pair or behind the end of a line, are taken to the next place on their line, or to its end.

## Key definitions

- `Position.after`: the place behind characters
- `Position.OnLine`: the offsets between characters on a line
- `Position.Names`: the offset that a place stands for

## Key results

- `Position.ofOffset_append`: the place of an offset counts the characters in front of it
- `Position.toOffset?_eq_some_iff`, `Position.toOffset?_eq_none_iff`: the offset of a place
- `Position.offsets_correspond`: places and offsets are inverse to each other
-/

namespace SearchScript

namespace Position

/-! ## The order of places -/

/-- Places are ordered by their lines, and on a line by their characters. -/
instance : LinearOrder Position :=
  LinearOrder.lift' (fun p => toLex (p.line, p.character)) fun p q h => by
    cases p
    cases q
    cases h
    rfl

variable {p q here place : Position} {c : Char} {cs front back : List Char} {text : String}
  {o o' passed : Nat}

theorem lt_iff : p < q ↔ p.line < q.line ∨ p.line = q.line ∧ p.character < q.character :=
  Prod.Lex.toLex_lt_toLex

theorem le_iff : p ≤ q ↔ p.line < q.line ∨ p.line = q.line ∧ p.character ≤ q.character :=
  Prod.Lex.toLex_le_toLex

theorem one_le_utf16Length (c : Char) : 1 ≤ utf16Length c := by
  unfold utf16Length
  split <;> decide

/-- A character has no more UTF-16 units than bytes. -/
theorem utf16Length_le (c : Char) : utf16Length c ≤ c.utf8Size := by
  have hpos := c.utf8Size_pos
  unfold utf16Length
  split
  · omega
  · next h =>
    have hlarge : ∀ n : UInt32, n.toNat < 0x10000 → ¬c.val ≤ n := by
      intro n hn hle
      have hval := UInt32.le_iff_toNat_le.1 hle
      have htoNat : c.toNat = c.val.toNat := rfl
      omega
    unfold Char.utf8Size
    rw [if_neg (hlarge _ (by decide)), if_neg (hlarge _ (by decide)),
      if_neg (hlarge _ (by decide))]
    decide

/-! ## The place behind characters -/

/-- The place behind characters that start at a place. -/
def after (here : Position) (cs : List Char) : Position := cs.foldl advance here

@[simp] theorem after_nil (here : Position) : here.after [] = here := rfl

@[simp] theorem after_cons (here : Position) (c : Char) (cs : List Char) :
    here.after (c :: cs) = (here.advance c).after cs := rfl

theorem after_append (here : Position) (as bs : List Char) :
    here.after (as ++ bs) = (here.after as).after bs :=
  List.foldl_append

theorem lt_advance (here : Position) (c : Char) : here < here.advance c := by
  rw [lt_iff, advance]
  have := one_le_utf16Length c
  split
  · exact .inl (Nat.lt_succ_self _)
  · refine .inr ⟨rfl, ?_⟩
    dsimp only
    omega

theorem le_after (here : Position) (cs : List Char) : here ≤ here.after cs := by
  induction cs generalizing here with
  | nil => exact le_refl here
  | cons c cs ih => exact le_trans (le_of_lt (here.lt_advance c)) (ih (here.advance c))

theorem lt_after (here : Position) (h : cs ≠ []) : here < here.after cs := by
  cases cs with
  | nil => exact absurd rfl h
  | cons c cs => exact lt_of_lt_of_le (here.lt_advance c) (le_after (here.advance c) cs)

/-- Each line feed starts a line. -/
theorem line_after (here : Position) (cs : List Char) :
    (here.after cs).line = here.line + cs.count '\n' := by
  induction cs generalizing here with
  | nil => rfl
  | cons c cs ih =>
    rw [after_cons, ih, List.count_cons, advance]
    by_cases hc : c = '\n'
    · simp only [hc, if_true, beq_self_eq_true]
      omega
    · simp only [hc, if_false, beq_iff_eq]
      omega

/-- A line starts behind its line feed. -/
theorem character_after_of_feed (h : ∀ c ∈ cs.getLast?, c = '\n') :
    (start.after cs).character = 0 := by
  cases cs using List.reverseRecOn with
  | nil => rfl
  | append_singleton cs c =>
    obtain rfl := h c (by simp)
    rw [after_append, after_cons, after_nil, advance, if_pos rfl]

/-- On a line, the UTF-16 units are counted. -/
theorem character_after (here : Position) (h : '\n' ∉ cs) :
    (here.after cs).character = here.character + (cs.map utf16Length).sum := by
  induction cs generalizing here with
  | nil => rfl
  | cons c cs ih =>
    rw [List.mem_cons, not_or] at h
    obtain ⟨hc, hcs⟩ := h
    rw [after_cons, ih _ hcs, advance, if_neg (Ne.symm hc), List.map_cons, List.sum_cons]
    dsimp only
    omega

/-- Neither count grows by more than the bytes of the characters. -/
theorem line_add_character_after_le (here : Position) (cs : List Char) :
    (here.after cs).line + (here.after cs).character ≤
      here.line + here.character + utf8Length cs := by
  induction cs generalizing here with
  | nil => exact Nat.le_refl _
  | cons c cs ih =>
    have hrest := ih (here.advance c)
    have hc := utf16Length_le c
    have hpos := c.utf8Size_pos
    have hadvance : (here.advance c).line + (here.advance c).character ≤
        here.line + here.character + c.utf8Size := by
      unfold advance
      split <;> dsimp only <;> omega
    rw [after_cons, utf8Length_cons]
    omega

/-! ## The place of an offset -/

theorem ofOffsetFrom_append (here : Position) (passed : Nat) (front back : List Char) :
    ofOffsetFrom (passed + utf8Length front) here passed (front ++ back) = here.after front := by
  induction front generalizing here passed with
  | nil =>
    cases back with
    | nil => rfl
    | cons c back => exact if_pos (Nat.le_refl _)
  | cons c front ih =>
    have hpos := c.utf8Size_pos
    rw [List.cons_append, ofOffsetFrom, utf8Length_cons, if_neg (by omega), ← Nat.add_assoc,
      ih, after_cons]

/-- The place of an offset is the one behind the characters in front of it. -/
theorem ofOffset_append (h : text.toList = front ++ back) :
    ofOffset text (utf8Length front) = start.after front := by
  have hfrom := ofOffsetFrom_append start 0 front back
  rwa [Nat.zero_add, ← h] at hfrom

/-- An offset lies between characters if some of them are in front of it. -/
theorem isBoundary_iff :
    IsBoundary text o ↔ ∃ front back, text.toList = front ++ back ∧ o = utf8Length front := by
  unfold IsBoundary
  rw [String.Pos.Raw.isValid_iff_exists_append]
  constructor
  · rintro ⟨front, back, rfl, ho⟩
    refine ⟨front.toList, back.toList, String.toList_append, ?_⟩
    rw [utf8Length_toList]
    exact congrArg String.Pos.Raw.byteIdx ho
  · rintro ⟨front, back, h, rfl⟩
    refine ⟨String.ofList front, String.ofList back, ?_, ?_⟩
    · rw [← String.ofList_append, ← h, String.ofList_toList]
    · rw [String.Pos.Raw.ext_iff]
      show utf8Length front = (String.ofList front).utf8ByteSize
      rw [← utf8Length_toList, String.toList_ofList]

/-- No characters take no bytes. -/
theorem eq_nil_of_utf8Length_le (h : utf8Length cs ≤ 0) : cs = [] := by
  cases cs with
  | nil => rfl
  | cons c cs =>
    have hpos := c.utf8Size_pos
    rw [utf8Length_cons] at h
    omega

/-- An offset that is not behind some characters is behind the first ones of them. -/
theorem exists_append_of_le (h : text.toList = front ++ back) (ho : IsBoundary text o)
    (hle : o ≤ utf8Length front) : ∃ earlier mid, front = earlier ++ mid ∧
      o = utf8Length earlier := by
  obtain ⟨front', back', h', rfl⟩ := isBoundary_iff.1 ho
  rcases List.append_eq_append_iff.1 (h'.symm.trans h) with ⟨mid, rfl, -⟩ | ⟨mid, rfl, -⟩
  · exact ⟨front', mid, rfl, rfl⟩
  · rw [utf8Length_append] at hle
    obtain rfl := @eq_nil_of_utf8Length_le mid (by omega)
    exact ⟨front, [], by simp, by simp⟩

/-- An offset that is not in front of the end of some characters is behind some more. -/
theorem exists_append_of_ge (h : text.toList = front ++ back) (ho : IsBoundary text o)
    (hle : utf8Length front ≤ o) : ∃ mid rest, back = mid ++ rest ∧
      o = utf8Length (front ++ mid) := by
  obtain ⟨front', back', h', rfl⟩ := isBoundary_iff.1 ho
  rcases List.append_eq_append_iff.1 (h.symm.trans h') with ⟨mid, rfl, rfl⟩ | ⟨mid, rfl, rfl⟩
  · exact ⟨mid, back', rfl, rfl⟩
  · rw [utf8Length_append] at hle
    obtain rfl := @eq_nil_of_utf8Length_le mid (by omega)
    exact ⟨[], back, rfl, by simp⟩

/-- A later offset has a later place. -/
theorem ofOffset_lt (ho : IsBoundary text o) (ho' : IsBoundary text o') (hlt : o < o') :
    ofOffset text o < ofOffset text o' := by
  obtain ⟨front, back, h, rfl⟩ := isBoundary_iff.1 ho
  obtain ⟨mid, rest, rfl, rfl⟩ := exists_append_of_ge h ho' (Nat.le_of_lt hlt)
  have hmid : mid ≠ [] := by
    rintro rfl
    simp at hlt
  rw [ofOffset_append h, ofOffset_append (h.trans (List.append_assoc front mid rest).symm),
    after_append]
  exact lt_after _ hmid

/-- The place of an offset counts the line feeds in front of it, and the UTF-16 units behind the
last one of them. -/
theorem ofOffset_eq {line : List Char} (h : text.toList = front ++ line ++ back)
    (hfront : ∀ c ∈ front.getLast?, c = '\n') (hline : '\n' ∉ line) :
    ofOffset text (utf8Length (front ++ line)) =
      ⟨front.count '\n', (line.map utf16Length).sum⟩ := by
  have hplace := ofOffset_append h
  rw [after_append] at hplace
  have hcount := line_after (start.after front) line
  have hcharacter := character_after (start.after front) hline
  rw [line_after start front, List.count_eq_zero_of_not_mem hline] at hcount
  rw [character_after_of_feed hfront] at hcharacter
  rw [hplace]
  cases hafter : (start.after front).after line with
  | mk l c =>
    rw [hafter] at hcount hcharacter
    simpa [start] using And.intro hcount hcharacter

theorem ofOffset_le (ho : IsBoundary text o) (ho' : IsBoundary text o') (hle : o ≤ o') :
    ofOffset text o ≤ ofOffset text o' := by
  rcases Nat.eq_or_lt_of_le hle with rfl | hlt
  · exact le_refl _
  · exact le_of_lt (ofOffset_lt ho ho' hlt)

theorem line_add_character_ofOffset_le (ho : IsBoundary text o) :
    (ofOffset text o).line + (ofOffset text o).character ≤ o := by
  obtain ⟨front, back, h, rfl⟩ := isBoundary_iff.1 ho
  rw [ofOffset_append h]
  exact Nat.le_trans (line_add_character_after_le start front) (Nat.le_of_eq (Nat.zero_add _))

/-! ## The offset of a place -/

/-- Whether an offset lies between characters on a line of a text. -/
def OnLine (text : String) (line offset : Nat) : Prop :=
  IsBoundary text offset ∧ (ofOffset text offset).line = line

/-- Whether a place stands for an offset on its line: for the first one at the place or behind it,
or for the end of the line, if the place lies behind that. -/
structure Names (p : Position) (text : String) (offset : Nat) : Prop where
  onLine : OnLine text p.line offset
  first : ∀ other, OnLine text p.line other → p ≤ ofOffset text other → offset ≤ other
  last : ofOffset text offset < p → ∀ other, OnLine text p.line other → other ≤ offset

theorem OnLine.le_iff (h : OnLine text p.line o) :
    p ≤ ofOffset text o ↔ p.character ≤ (ofOffset text o).character := by
  rw [Position.le_iff, h.2]
  simp

theorem OnLine.lt_iff (h : OnLine text p.line o) :
    ofOffset text o < p ↔ (ofOffset text o).character < p.character := by
  rw [← not_le, h.le_iff, Nat.not_le]

/-- A place stands for at most one offset. -/
theorem Names.unique (h : p.Names text o) (h' : p.Names text o') : o = o' := by
  have hle : ∀ {a b : Nat}, p.Names text a → p.Names text b → a ≤ b := by
    intro a b ha hb
    rcases le_or_gt p (ofOffset text b) with hp | hp
    · exact ha.first b hb.onLine hp
    · exact hb.last hp a ha.onLine
  exact Nat.le_antisymm (hle h h') (hle h' h)

/-- The place of an offset stands for it. -/
theorem names_ofOffset (ho : IsBoundary text o) : (ofOffset text o).Names text o where
  onLine := ⟨ho, rfl⟩
  first _ hother hle :=
    Nat.le_of_not_lt fun hlt => absurd (ofOffset_lt hother.1 ho hlt) (not_lt_of_ge hle)
  last hlt := absurd hlt (lt_irrefl _)

/-- The walk to a place does not end if the text has no such line. -/
theorem toOffsetFrom?_eq_none_iff (place here : Position) (passed : Nat) (cs : List Char) :
    toOffsetFrom? place here passed cs = none ↔
      place.line < here.line ∨ here.line + cs.count '\n' < place.line := by
  induction cs generalizing here passed with
  | nil =>
    rw [toOffsetFrom?, List.count_nil]
    split <;> simp <;> omega
  | cons c cs ih =>
    rw [toOffsetFrom?]
    split
    · next h => simp [h.1]
    · next h =>
      rw [ih, List.count_cons, advance]
      by_cases hc : c = '\n'
      · simp only [hc, or_true, and_true] at h
        simp only [hc, if_true, beq_self_eq_true]
        omega
      · simp only [hc, if_false, beq_iff_eq]
        omega

/-- A place has no offset if and only if the text has no such line. -/
theorem toOffset?_eq_none_iff : p.toOffset? text = none ↔ text.toList.count '\n' < p.line := by
  rw [toOffset?, toOffsetFrom?_eq_none_iff]
  simp [start]

/-- The walk to a place passes over the characters in front of an offset: it ends on the line of the
place, at or behind it or at the end of the line, and passes on that line through earlier places
only. -/
theorem exists_of_toOffsetFrom? (h : toOffsetFrom? place here passed cs = some o) :
    ∃ front back, cs = front ++ back ∧ o = passed + utf8Length front ∧
      (here.after front).line = place.line ∧
      (place.character ≤ (here.after front).character ∨ ∀ c ∈ back.head?, c = '\n') ∧
      ∀ earlier c rest, front = earlier ++ c :: rest → (here.after earlier).line = place.line →
        (here.after earlier).character < place.character := by
  induction cs generalizing here passed with
  | nil =>
    rw [toOffsetFrom?] at h
    split at h <;> cases h
    next hline => exact ⟨[], [], rfl, rfl, hline, .inr nofun, by simp⟩
  | cons c cs ih =>
    rw [toOffsetFrom?] at h
    split at h
    -- the walk ends here, or it goes on past `c`
    · next hends =>
      cases h
      refine ⟨[], c :: cs, rfl, rfl, hends.1, hends.2.imp id ?_, by simp⟩
      rintro hc d ⟨⟩
      exact hc
    · next hgoes =>
      obtain ⟨front, back, rfl, rfl, hline, hends, hearlier⟩ := ih h
      refine ⟨c :: front, back, rfl, ?_, hline, hends, ?_⟩
      · rw [utf8Length_cons, Nat.add_assoc]
      · intro earlier d rest heq hsame
        cases earlier with
        | nil => exact Nat.lt_of_not_le fun hle => hgoes ⟨hsame, .inl hle⟩
        | cons e earlier =>
          rw [List.cons_append, List.cons.injEq] at heq
          obtain ⟨rfl, heq⟩ := heq
          exact hearlier earlier d rest heq hsame

/-- What the walk to a place comes to is what the place stands for. -/
theorem names_of_toOffset? (h : p.toOffset? text = some o) : p.Names text o := by
  obtain ⟨front, back, htext, ho, hline, hends, hearlier⟩ := exists_of_toOffsetFrom? h
  rw [Nat.zero_add] at ho
  have hboundary : IsBoundary text o := isBoundary_iff.2 ⟨front, back, htext, ho⟩
  have hplace : ofOffset text o = start.after front := ho ▸ ofOffset_append htext
  have honLine : OnLine text p.line o := ⟨hboundary, hplace ▸ hline⟩
  refine ⟨honLine, fun other hother hle => ?_, fun hlt other hother => ?_⟩
  · -- an earlier offset on the line lies in front of the place
    refine Nat.le_of_not_lt fun hlt => ?_
    obtain ⟨earlier, mid, rfl, rfl⟩ := exists_append_of_le htext hother.1 (ho ▸ Nat.le_of_lt hlt)
    have hthere : ofOffset text (utf8Length earlier) = start.after earlier :=
      ofOffset_append (htext.trans (List.append_assoc earlier mid back))
    cases mid with
    | nil =>
      rw [List.append_nil] at ho
      omega
    | cons c mid =>
      have hchar := hearlier earlier c mid rfl (hthere ▸ hother.2)
      rw [hother.le_iff, hthere] at hle
      omega
  · -- a later offset lies behind the line feed, so on another line
    refine Nat.le_of_not_lt fun hlater => ?_
    obtain ⟨mid, rest, rfl, rfl⟩ := exists_append_of_ge htext hother.1 (ho ▸ Nat.le_of_lt hlater)
    rw [honLine.lt_iff, hplace] at hlt
    have hfeed := hends.resolve_left (Nat.not_le.2 hlt)
    have hthere := hother.2
    rw [ofOffset_append (htext.trans (List.append_assoc front mid rest).symm), after_append,
      line_after, hline] at hthere
    cases mid with
    | nil =>
      rw [List.append_nil] at hlater
      omega
    | cons c mid =>
      obtain rfl : c = '\n' := hfeed c rfl
      simp at hthere

/-- The offset of a place is the one that it stands for. -/
theorem toOffset?_eq_some_iff : p.toOffset? text = some o ↔ p.Names text o := by
  refine ⟨names_of_toOffset?, fun h => ?_⟩
  cases hfound : p.toOffset? text with
  | some o' => rw [(names_of_toOffset? hfound).unique h]
  | none =>
    -- the text has the line that the offset is on
    obtain ⟨front, back, htext, rfl⟩ := isBoundary_iff.1 h.onLine.1
    have hline := h.onLine.2
    rw [ofOffset_append htext, line_after] at hline
    rw [toOffset?_eq_none_iff, htext, List.count_append] at hfound
    simp only [start] at hline
    omega

/-- Places and offsets are inverse to each other. The place of an offset between characters counts
the line feeds in front of it and the UTF-16 units behind the last one of them, together no more
than the offset; it has that offset, and a later offset has a later place. A place has no offset if
and only if the text has no such line. Otherwise its offset is the first one on its line that lies
at the place or behind it, or the end of the line if the place lies behind that. -/
theorem offsets_correspond (text : String) :
    (∀ o, IsBoundary text o → (ofOffset text o).toOffset? text = some o ∧
        (ofOffset text o).line + (ofOffset text o).character ≤ o) ∧
      (∀ a b, IsBoundary text a → IsBoundary text b → a < b →
        ofOffset text a < ofOffset text b) ∧
      (∀ front line back, text.toList = front ++ line ++ back →
        (∀ c ∈ front.getLast?, c = '\n') → '\n' ∉ line →
        ofOffset text (utf8Length (front ++ line)) =
          ⟨front.count '\n', (line.map utf16Length).sum⟩) ∧
      (∀ p : Position, p.toOffset? text = none ↔ text.toList.count '\n' < p.line) ∧
      ∀ (p : Position) o, p.toOffset? text = some o ↔ p.Names text o := by
  refine ⟨fun o ho => ⟨?_, line_add_character_ofOffset_le ho⟩, fun a b => ofOffset_lt,
    fun front line back => ofOffset_eq, fun p => toOffset?_eq_none_iff,
    fun p o => toOffset?_eq_some_iff⟩
  exact toOffset?_eq_some_iff.2 (names_ofOffset ho)

/-- A text with a surrogate pair, two lines and a letter of two bytes. The place inside the pair
stands for the offset behind it, and one behind the end of the first line for that end. -/
theorem offsets_correspond_of_pair :
    let text := "a🙂\né"
    (IsBoundary text 5 ∧ (ofOffset text 5).toOffset? text = some 5) ∧
      (IsBoundary text 6 ∧ ofOffset text 5 < ofOffset text 6) ∧
      ofOffset text 8 = ⟨1, 1⟩ ∧ (⟨2, 0⟩ : Position).toOffset? text = none ∧
      (⟨0, 2⟩ : Position).Names text 5 ∧ (⟨0, 9⟩ : Position).Names text 5 := by
  intro text
  obtain ⟨hinverse, hmono, hplace, hnone, hsome⟩ := offsets_correspond text
  have htext : text.toList = ['a', '🙂', '\n', 'é'] := by decide
  have hbefore : IsBoundary text 5 := isBoundary_iff.2 ⟨['a', '🙂'], ['\n', 'é'], htext, rfl⟩
  have hbehind : IsBoundary text 6 := isBoundary_iff.2 ⟨['a', '🙂', '\n'], ['é'], htext, rfl⟩
  refine ⟨⟨hbefore, (hinverse 5 hbefore).1⟩, ⟨hbehind, hmono 5 6 hbefore hbehind (by decide)⟩,
    ?_, (hnone _).2 (by decide), (hsome _ _).1 (by decide), (hsome _ _).1 (by decide)⟩
  refine hplace ['a', '🙂', '\n'] ['é'] [] htext ?_ (by decide)
  rintro c ⟨⟩
  rfl

end Position

end SearchScript
