import Mathlib.Data.List.DropRight
import SearchScript.Json.Reader
import SearchScript.Json.Writer
import SearchScript.Proofs.Except
import SearchScript.Proofs.Number.ReadBack

/-!
# Numbers of documents read back

What stands behind a number does not change how it is read, as long as it cannot belong to it. So it
is enough to know that the text of a number alone is read as that number. Whole numbers of 64 bits
always are.

## Key definitions

- `Json.NotInNumber`: a text that cannot go on with a number in front of it
- `JsonNumber.ReadsBack`: a number whose text is read as it
- `JsonNumber.InRange`: the whole numbers of 64 bits, and all doubles

## Key results

- `Json.readNumber_append`: a number is read without regard to what follows
- `JsonNumber.readsBack_natural`, `JsonNumber.readsBack_negative`: whole numbers are read back
- `Json.inRange_of_readNumber`: the whole numbers that are read fit into 64 bits
-/

namespace SearchScript

-- powers are those of the core library, whatever else is imported
attribute [local instance (high)] instPowNat

namespace Json

/-- Whether a text cannot go on with a number that stands in front of it. -/
def NotInNumber (rest : List Char) : Prop :=
  ∀ c cs, rest = c :: cs → c.isDigit = false ∧ c ≠ '.' ∧ c ≠ 'e' ∧ c ≠ 'E'

variable {cs rest left : List Char} {n m value : Nat} {negative : Bool} {digits : Nat}
  {exponent : Int} {number : JsonNumber}

theorem notInNumber_nil : NotInNumber [] := by
  intro c cs h
  cases h

/-! ## What follows a number -/

theorem digitValue?_eq_none {c : Char} (h : c.isDigit = false) : digitValue? c = none := by
  unfold digitValue?
  rw [if_neg]
  intro hdigit
  rw [Char.isDigit, Bool.and_eq_false_iff] at h
  simp only [decide_eq_false_iff_not] at h
  exact h.elim (fun h => h hdigit.1) fun h => h hdigit.2

theorem dropDigits_append (hrest : NotInNumber rest) (h : dropDigits cs = (n, left)) :
    dropDigits (cs ++ rest) = (n, left ++ rest) := by
  induction cs generalizing n with
  | nil =>
    cases h
    cases rest with
    | nil => rfl
    | cons c cs => simp [dropDigits, (hrest c cs rfl).1]
  | cons c cs ih =>
    rw [List.cons_append]
    by_cases hc : c.isDigit = true
    · rw [dropDigits, if_pos hc] at h ⊢
      cases hcs : dropDigits cs with
      | mk k after =>
        rw [hcs] at h
        cases h
        rw [ih hcs]
    · rw [dropDigits, if_neg hc] at h ⊢
      cases h
      rfl

theorem takeWhole_append (hrest : NotInNumber rest) (h : takeWhole value cs = (m, n, left)) :
    takeWhole value (cs ++ rest) = (m, n, left ++ rest) := by
  induction cs generalizing value n with
  | nil =>
    cases h
    cases rest with
    | nil => rfl
    | cons c cs => simp [takeWhole, digitValue?_eq_none (hrest c cs rfl).1]
  | cons c cs ih =>
    rw [List.cons_append]
    unfold takeWhole at h ⊢
    cases hd : digitValue? c with
    | none =>
      rw [hd] at h
      cases h
      rfl
    | some d =>
      rw [hd] at h
      dsimp only at h ⊢
      by_cases hlarge : maxWhole < value * 10 + d
      · rw [if_pos hlarge] at h ⊢
        cases h
        rfl
      · rw [if_neg hlarge] at h ⊢
        cases hcs : takeWhole (value * 10 + d) cs with
        | mk m' after =>
          obtain ⟨k, after⟩ := after
          rw [hcs] at h
          cases h
          rw [ih hcs]

theorem spanDigits_append_of_notInNumber (hrest : NotInNumber rest)
    (h : spanDigits value cs = (n, left)) : spanDigits value (cs ++ rest) = (n, left ++ rest) := by
  induction cs generalizing value with
  | nil =>
    cases h
    cases rest with
    | nil => rfl
    | cons c cs => simp [spanDigits, digitValue?_eq_none (hrest c cs rfl).1]
  | cons c cs ih =>
    rw [List.cons_append]
    unfold spanDigits at h ⊢
    cases hd : digitValue? c with
    | none =>
      rw [hd] at h
      cases h
      rfl
    | some d =>
      rw [hd] at h
      exact ih h

theorem readSign_append {sign : Bool} {after : List Char}
    (h : Number.readSign cs = (sign, after)) (hafter : after ≠ []) :
    Number.readSign (cs ++ rest) = (sign, after ++ rest) := by
  unfold Number.readSign at h
  split at h
  · cases h
    rfl
  · cases h
    rfl
  · next hminus hplus =>
    cases h
    obtain ⟨c, cs, rfl⟩ := List.exists_cons_of_ne_nil hafter
    rw [List.cons_append, Number.readSign]
    · intro after hc
      cases hc
      exact hminus cs rfl
    · intro after hc
      cases hc
      exact hplus cs rfl

theorem readExponent_append (hrest : NotInNumber rest)
    (h : readExponent negative digits exponent cs = .ok (number, left)) :
    readExponent negative digits exponent (cs ++ rest) = .ok (number, left ++ rest) := by
  unfold readExponent at h ⊢
  cases hsign : Number.readSign cs with
  | mk down after =>
    rw [hsign] at h
    cases after with
    | nil => cases h
    | cons c after =>
      rw [readSign_append hsign (List.cons_ne_nil c after)]
      dsimp only [List.cons_append] at h ⊢
      cases hspan : spanDigits 0 (c :: after) with
      | mk value left' =>
        rw [← List.cons_append, spanDigits_append_of_notInNumber hrest hspan]
        rw [hspan] at h
        dsimp only at h ⊢
        by_cases hdigit : (!c.isDigit) = true
        · rw [if_pos hdigit] at h
          cases h
        rw [if_neg hdigit] at h ⊢
        by_cases hlarge : maxExponent < value
        · rw [if_pos hlarge] at h ⊢
          by_cases hmany : digits ≠ 0 ∧ (!down) = true
          · rw [if_pos hmany] at h
            cases h
          · rw [if_neg hmany] at h ⊢
            cases h
            rfl
        · rw [if_neg hlarge] at h ⊢
          split at h
          · cases h
            rfl
          · cases h

/-- A mark of a number that does not stand in front does not come to the front either. -/
theorem ne_mark_append (hrest : NotInNumber rest) {mark : Char}
    (hmark : mark = '.' ∨ mark = 'e' ∨ mark = 'E') (hcs : ∀ after, cs = mark :: after → False)
    (after : List Char) (h : cs ++ rest = mark :: after) : False := by
  cases cs with
  | nil =>
    obtain ⟨-, hpoint, hlower, hupper⟩ := hrest mark after h
    rcases hmark with rfl | rfl | rfl
    · exact hpoint rfl
    · exact hlower rfl
    · exact hupper rfl
  | cons c cs =>
    cases h
    exact hcs cs rfl

theorem readScaled_append (hrest : NotInNumber rest)
    (h : readScaled negative digits exponent cs = .ok (number, left)) :
    readScaled negative digits exponent (cs ++ rest) = .ok (number, left ++ rest) := by
  unfold readScaled at h
  split at h
  · exact readExponent_append hrest h
  · exact readExponent_append hrest h
  · next hlower hupper =>
    split at h
    · next hassemble =>
      cases h
      rw [readScaled, hassemble]
      · exact ne_mark_append hrest (by simp) hlower
      · exact ne_mark_append hrest (by simp) hupper
    · cases h

theorem startsWithDigit_append (hrest : NotInNumber rest) :
    startsWithDigit (cs ++ rest) = startsWithDigit cs := by
  cases cs with
  | nil =>
    cases rest with
    | nil => rfl
    | cons c rest => exact (hrest c rest rfl).1
  | cons c cs => rfl

theorem readFraction_append (hrest : NotInNumber rest)
    (h : readFraction negative digits exponent cs = .ok (number, left)) :
    readFraction negative digits exponent (cs ++ rest) = .ok (number, left ++ rest) := by
  unfold readFraction at h ⊢
  cases cs with
  | nil => cases h
  | cons c cs =>
    rw [startsWithDigit_append hrest]
    rw [List.cons_append, List.isEmpty_cons, if_neg Bool.false_ne_true] at *
    by_cases hdigit : (!startsWithDigit (c :: cs)) = true
    · rw [if_pos hdigit] at h
      cases h
    rw [if_neg hdigit] at h ⊢
    cases htake : takeWhole digits (c :: cs) with
    | mk whole after =>
      obtain ⟨k, after⟩ := after
      rw [← List.cons_append, takeWhole_append hrest htake]
      rw [htake] at h
      cases hdrop : dropDigits after with
      | mk dropped after' =>
        dsimp only at h ⊢
        rw [dropDigits_append hrest hdrop]
        rw [hdrop] at h
        exact readScaled_append hrest h

/-- A number is read without regard to what follows. -/
theorem readNumber_append (hrest : NotInNumber rest)
    (h : readNumber negative cs = .ok (number, left)) :
    readNumber negative (cs ++ rest) = .ok (number, left ++ rest) := by
  cases cs with
  | nil => cases h
  | cons c cs =>
    unfold readNumber at h ⊢
    dsimp only [List.cons_append] at h ⊢
    -- the text is followed through the reader: its first digit, no zero in front, the whole part
    by_cases hdigit : (!c.isDigit) = true
    · rw [if_pos hdigit] at h
      cases h
    rw [if_neg hdigit] at h ⊢
    rw [startsWithDigit_append hrest]
    by_cases hzero : c = '0' ∧ startsWithDigit cs = true
    · rw [if_pos hzero] at h
      cases h
    rw [if_neg hzero] at h ⊢
    cases htake : takeWhole 0 (c :: cs) with
    | mk whole after =>
      obtain ⟨k, after⟩ := after
      rw [← List.cons_append, takeWhole_append hrest htake]
      rw [htake] at h
      cases hdrop : dropDigits after with
      | mk dropped after' =>
        dsimp only at h ⊢
        rw [dropDigits_append hrest hdrop]
        rw [hdrop] at h
        dsimp only at h ⊢
        -- a point, either mark of an exponent, or the end of the number
        split at h
        · exact readFraction_append hrest h
        · exact readExponent_append hrest h
        · exact readExponent_append hrest h
        -- at the end, what follows starts with none of the three, so it is the end there as well
        · next hpoint hlower hupper =>
          split
          · next heq => exact (ne_mark_append hrest (by simp) hpoint _ heq).elim
          · next heq => exact (ne_mark_append hrest (by simp) hlower _ heq).elim
          · next heq => exact (ne_mark_append hrest (by simp) hupper _ heq).elim
          · by_cases hdropped : dropped ≠ 0
            · rw [if_pos hdropped] at h ⊢
              exact readScaled_append hrest h
            rw [if_neg hdropped] at h ⊢
            cases negative with
            | false =>
              cases h
              rfl
            | true =>
              rw [if_neg (by decide)] at h ⊢
              by_cases hrange : whole = 0 ∨ 2 ^ (63 : Nat) < whole
              · rw [if_pos hrange] at h ⊢
                cases h
                rfl
              · rw [if_neg hrange] at h ⊢
                cases h
                rfl

/-! ## Numbers as documents -/

variable {fuel depth : Nat} {c : Char}

theorem not_isSpace_of_isDigit (h : c.isDigit = true) : isSpace c = false := by
  rw [Bool.eq_false_iff]
  intro hspace
  simp only [isSpace, Bool.or_eq_true, beq_iff_eq] at hspace
  rcases hspace with ((rfl | rfl) | rfl) | rfl <;> cases h

theorem skipSpace_skipSpace (cs : List Char) : skipSpace (skipSpace cs) = skipSpace cs :=
  List.dropWhile_idempotent isSpace cs

/-- Spaces in front of a document are passed over. -/
theorem readValue_skipSpace (cs : List Char) :
    readValue (fuel + 1) depth (skipSpace cs) = readValue (fuel + 1) depth cs := by
  rw [readValue, readValue, skipSpace_skipSpace]

theorem readValue_minus : readValue (fuel + 1) depth ('-' :: cs) =
    (readNumber true cs).map fun (number, rest) => (.number number, rest) := by
  have hskip : skipSpace ('-' :: cs) = '-' :: cs := rfl
  rw [readValue, hskip]
  split
  case h_8 =>
    next heq =>
    cases heq
    cases readNumber true cs <;> rfl
  case h_9 =>
    next hminus heq =>
    cases heq
    exact (hminus rfl).elim
  all_goals
    next heq =>
    cases heq

theorem readValue_digit (hc : c.isDigit = true) : readValue (fuel + 1) depth (c :: cs) =
    (readNumber false (c :: cs)).map fun (number, rest) => (.number number, rest) := by
  have hskip : skipSpace (c :: cs) = c :: cs := by
    rw [skipSpace, List.dropWhile_cons, not_isSpace_of_isDigit hc]
    rfl
  rw [readValue, hskip]
  split
  case h_9 =>
    next heq =>
    cases heq
    rw [if_pos hc]
    cases hnumber : readNumber false (c :: cs) <;> rfl
  all_goals
    next heq =>
    cases heq
    try cases hc

/-- A document that is a number is read by the reader of numbers. -/
theorem readNumber_of_readValue (h : readValue (fuel + 1) depth cs = .ok (.number number, left)) :
    ∃ c after, skipSpace cs = c :: after ∧
      ((c = '-' ∧ readNumber true after = .ok (number, left)) ∨
        c.isDigit = true ∧ readNumber false (c :: after) = .ok (number, left)) := by
  rw [readValue] at h
  split at h
  case h_8 =>
    next after hskip =>
    obtain ⟨⟨n, rest⟩, hread, heq⟩ := Except.bind_eq_ok_iff.1 h
    cases heq
    exact ⟨_, after, hskip, .inl ⟨rfl, hread⟩⟩
  case h_9 =>
    next c after _ _ _ _ _ _ _ hskip =>
    split at h
    · next hc =>
      obtain ⟨⟨n, rest⟩, hread, heq⟩ := Except.bind_eq_ok_iff.1 h
      cases heq
      exact ⟨c, after, hskip, .inr ⟨hc, hread⟩⟩
    · cases h
  case h_1 => cases h
  all_goals
    try split at h
    all_goals
      first
        | cases h
        | obtain ⟨_, -, heq⟩ := Except.bind_eq_ok_iff.1 h
          cases heq

/-- A number is read as a document without regard to what follows, and at any depth. -/
theorem readValue_append {fuel' depth' : Nat} (hrest : NotInNumber rest)
    (h : readValue (fuel + 1) depth cs = .ok (.number number, left)) :
    readValue (fuel' + 1) depth' (cs ++ rest) = .ok (.number number, left ++ rest) := by
  obtain ⟨c, after, hskip, hread⟩ := readNumber_of_readValue h
  have hskip' : skipSpace (cs ++ rest) = c :: (after ++ rest) := by
    rw [skipSpace, List.dropWhile_append, ← skipSpace, hskip]
    rfl
  rw [← readValue_skipSpace, hskip']
  rcases hread with ⟨rfl, hread⟩ | ⟨hc, hread⟩
  · rw [readValue_minus, readNumber_append hrest hread]
    rfl
  · rw [readValue_digit hc, ← List.cons_append, readNumber_append hrest hread]
    rfl

/-! ## Whole numbers -/

theorem takeWhole_digits {ds : List Char} (hds : ∀ c ∈ ds, c.isDigit = true)
    (h : Nat.ofDigitChars 10 ds value ≤ maxWhole) :
    takeWhole value ds = (Nat.ofDigitChars 10 ds value, ds.length, []) := by
  induction ds generalizing value with
  | nil => rfl
  | cons d ds ih =>
    obtain ⟨hd, hds⟩ := List.forall_mem_cons.1 hds
    rw [Nat.ofDigitChars_cons, Nat.mul_comm] at h ⊢
    -- the digits that follow make the value no smaller
    have hle : value * 10 + (d.toNat - '0'.toNat) ≤ maxWhole := by
      rw [Nat.ofDigitChars_eq_ofDigitChars_zero] at h
      have hpos : 1 ≤ 10 ^ ds.length := Nat.pow_pos (by decide)
      have hmul := Nat.mul_le_mul_right (value * 10 + (d.toNat - '0'.toNat)) hpos
      omega
    rw [takeWhole, digitValue?_of_isDigit hd]
    dsimp only
    rw [if_neg (Nat.not_lt.2 hle), ih hds h]
    rfl

/-- Only the digits of zero start with a zero. -/
theorem eq_nil_of_toDigits_eq_zero_cons {ds : List Char} (h : Nat.toDigits 10 n = '0' :: ds) :
    ds = [] := by
  induction n using Nat.strongRecOn generalizing ds with
  | ind n ih =>
    by_cases hn : n < 10
    · rw [Nat.toDigits_of_lt_base hn] at h
      exact (List.cons.inj h).2.symm
    · rw [Nat.toDigits_of_base_le (by decide) (Nat.not_lt.1 hn)] at h
      have hne : Nat.toDigits 10 (n / 10) ≠ [] := Nat.toDigits_ne_nil
      obtain ⟨c, cs, hcs⟩ := List.exists_cons_of_ne_nil hne
      rw [hcs] at h
      cases h
      obtain rfl := ih (n / 10) (by omega) hcs
      have hvalue := Nat.ofDigitChars_ten_toDigits (n := n / 10)
      rw [hcs] at hvalue
      change 0 = n / 10 at hvalue
      omega

theorem readNumber_toDigits (h : n ≤ maxWhole) :
    readNumber negative (Nat.toDigits 10 n) =
      .ok (if negative then
          if n = 0 ∨ 2 ^ (63 : Nat) < n then .double (-Number.ofNat n) else .negative n
        else .natural n, []) := by
  have htake : takeWhole 0 (Nat.toDigits 10 n) = (n, (Nat.toDigits 10 n).length, []) := by
    have hvalue := Nat.ofDigitChars_ten_toDigits (n := n)
    rw [takeWhole_digits (fun c => isDigit_of_mem_toDigits), hvalue]
    rw [hvalue]
    exact h
  obtain ⟨c, cs, hcs⟩ := List.exists_cons_of_ne_nil (Nat.toDigits_ne_nil (n := n) (b := 10))
  have hc : c.isDigit = true := isDigit_of_mem_toDigits (n := n) (hcs ▸ List.mem_cons_self)
  have hzero : ¬(c = '0' ∧ startsWithDigit cs = true) := by
    intro ⟨hc, hstart⟩
    rw [hc] at hcs
    rw [eq_nil_of_toDigits_eq_zero_cons hcs] at hstart
    cases hstart
  rw [hcs] at htake ⊢
  rw [readNumber]
  dsimp only
  rw [if_neg (by rw [hc]; decide), if_neg hzero, htake]
  have hdrop : dropDigits [] = (0, []) := rfl
  dsimp only
  rw [hdrop]
  dsimp only
  rw [if_neg (not_not_intro rfl)]
  cases negative with
  | false => rfl
  | true =>
    rw [if_neg (by decide), if_pos rfl]
    split <;> rfl

end Json

namespace JsonNumber

/-- Whether the text of a number is read as that number. -/
def ReadsBack (number : JsonNumber) : Prop :=
  Json.readFront number.text = .ok (.number number, [])

/-- Whether a whole number fits into 64 bits, as those of documents do. -/
def InRange : JsonNumber → Prop
  | natural n => n ≤ Json.maxWhole
  | negative n => 0 < n ∧ n ≤ 2 ^ (63 : Nat)
  | double _ => True

/-- Whole numbers are read back. -/
theorem readsBack_natural {n : Nat} (h : n ≤ Json.maxWhole) : (natural n).ReadsBack := by
  have htext : (natural n).text.toList = Nat.toDigits 10 n := Nat.toList_repr
  obtain ⟨c, cs, hcs⟩ := List.exists_cons_of_ne_nil (Nat.toDigits_ne_nil (n := n) (b := 10))
  have hc : c.isDigit = true := isDigit_of_mem_toDigits (n := n) (hcs ▸ List.mem_cons_self)
  unfold ReadsBack Json.readFront
  rw [htext, hcs]
  dsimp only
  rw [Json.readValue_digit hc, ← hcs, Json.readNumber_toDigits h]
  rfl

theorem readsBack_negative {n : Nat} (h : 0 < n ∧ n ≤ 2 ^ (63 : Nat)) : (negative n).ReadsBack := by
  have htext : (negative n).text.toList = '-' :: Nat.toDigits 10 n := by
    rw [text, String.toList_append, Nat.toList_repr]
    rfl
  have hmax : n ≤ Json.maxWhole := Nat.le_trans h.2 (by decide)
  unfold ReadsBack Json.readFront
  rw [htext]
  dsimp only
  rw [Json.readValue_minus, Json.readNumber_toDigits hmax, if_pos rfl, if_neg (by omega)]
  rfl

/-- Whether a number is read back if it is a double. -/
def ReadsBackIfDouble : JsonNumber → Prop
  | double x => (double x).ReadsBack
  | _ => True

variable {number : JsonNumber} {rest : List Char} {fuel depth : Nat}

theorem readsBack_of_inRange (h : number.InRange) (hdouble : number.ReadsBackIfDouble) :
    number.ReadsBack := by
  cases number with
  | natural => exact readsBack_natural h
  | negative => exact readsBack_negative h
  | double => exact hdouble

/-- A number that is read back is read wherever it stands. -/
theorem ReadsBack.readValue (h : number.ReadsBack) (hrest : Json.NotInNumber rest) :
    Json.readValue (fuel + 1) depth (number.text.toList ++ rest) = .ok (.number number, rest) :=
  Json.readValue_append hrest h

end JsonNumber

/-! ## Numbers that were read -/

namespace Json

variable {cs left : List Char} {digits value : Nat} {exponent : Int} {negative : Bool}
  {number : JsonNumber}

theorem inRange_of_assemble (h : assemble negative digits exponent = .ok number) :
    number.InRange := by
  unfold assemble at h
  split at h
  · cases h
    trivial
  · cases h

theorem inRange_of_readExponent
    (h : readExponent negative digits exponent cs = .ok (number, left)) : number.InRange := by
  unfold readExponent at h
  dsimp only at h
  split at h
  · cases h
  · split at h
    · cases h
    · split at h
      · split at h <;> cases h
        trivial
      · split at h
        · next hassemble =>
          cases h
          exact inRange_of_assemble hassemble
        · cases h

theorem inRange_of_readScaled (h : readScaled negative digits exponent cs = .ok (number, left)) :
    number.InRange := by
  unfold readScaled at h
  split at h
  · exact inRange_of_readExponent h
  · exact inRange_of_readExponent h
  · split at h
    · next hassemble =>
      cases h
      exact inRange_of_assemble hassemble
    · cases h

theorem inRange_of_readFraction
    (h : readFraction negative digits exponent cs = .ok (number, left)) : number.InRange := by
  unfold readFraction at h
  split at h
  · cases h
  · split at h
    · cases h
    · exact inRange_of_readScaled h

theorem takeWhole_le (h : value ≤ maxWhole) : (takeWhole value cs).1 ≤ maxWhole := by
  induction cs generalizing value with
  | nil => exact h
  | cons c cs ih =>
    unfold takeWhole
    cases digitValue? c with
    | none => exact h
    | some d =>
      by_cases hlarge : maxWhole < value * 10 + d
      · simp only [if_pos hlarge]
        exact h
      · simp only [if_neg hlarge]
        exact ih (Nat.not_lt.1 hlarge)

/-- The whole numbers that are read fit into 64 bits. -/
theorem inRange_of_readNumber (h : readNumber negative cs = .ok (number, left)) :
    number.InRange := by
  cases cs with
  | nil => cases h
  | cons c cs =>
    have hwhole : (takeWhole 0 (c :: cs)).1 ≤ maxWhole := takeWhole_le (Nat.zero_le maxWhole)
    unfold readNumber at h
    dsimp only at h
    split at h
    · cases h
    split at h
    · cases h
    split at h
    · exact inRange_of_readFraction h
    · exact inRange_of_readExponent h
    · exact inRange_of_readExponent h
    · split at h
      · exact inRange_of_readScaled h
      split at h
      · cases h
        exact hwhole
      split at h
      · cases h
        trivial
      · next hrange =>
        cases h
        exact ⟨by omega, by omega⟩

end Json

end SearchScript
