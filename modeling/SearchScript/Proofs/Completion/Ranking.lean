import Mathlib.Data.List.Infix
import SearchScript.Completion.Ranking
import SearchScript.Proofs.Syntax.Shape
import SearchScript.Value.Members

/-!
# What is offered

The choices that are kept are those that contain what was typed, the blanks around it apart, and
they keep their order but for those that start with it. The names that are listed as members of a
value are the names that it has a member of.

## Key results

- `typedText_of_isIdentifier`: what was typed of an identifier is all of it
- `mem_rankChoices`, `nodup_rankChoices`, `rankChoices_split`: the choices that are kept
- `Value.mem_memberNames`: the members of a value
-/

namespace SearchScript

namespace Text

variable {needle cs : List Char}

/-- Occurring in a text is being a connected part of it. -/
theorem occursIn_iff : occursIn needle cs = true ↔ needle <:+: cs := by
  induction cs with
  | nil => rw [occursIn, List.isEmpty_iff, List.infix_nil]
  | cons c cs ih =>
    rw [occursIn, Bool.or_eq_true, List.isPrefixOf_iff_prefix, ih, List.infix_cons_iff]

/-- The characters of a word are not blank. -/
theorem isBlank_of_continuesWord {c : Char} (h : Piece.continuesWord c = true) :
    isBlank c = false := by
  have hrange : 0x30 ≤ c.toNat ∧ c.toNat ≤ 0x7A := by
    unfold Piece.continuesWord Char.isAlphanum Char.isAlpha Char.isUpper Char.isLower at h
    simp only [Char.isDigit, Bool.or_eq_true, Bool.and_eq_true, decide_eq_true_eq, beq_iff_eq,
      ge_iff_le, UInt32.le_iff_toNat_le] at h
    change 0x30 ≤ c.val.toNat ∧ c.val.toNat ≤ 0x7A
    rcases h with ((⟨hlow, hhigh⟩ | ⟨hlow, hhigh⟩) | ⟨hlow, hhigh⟩) | rfl
    · exact ⟨Nat.le_trans (by decide) hlow, Nat.le_trans hhigh (by decide)⟩
    · exact ⟨Nat.le_trans (by decide) hlow, Nat.le_trans hhigh (by decide)⟩
    · exact ⟨Nat.le_trans (by decide) hlow, Nat.le_trans hhigh (by decide)⟩
    · decide
  exact isBlank_of_visible (by omega)

end Text

/-- What was typed, without the blanks around it. -/
def typedText (typed : String) : List Char := Text.trimBlanks typed.toList

variable {typed choice : String} {choices : List String}

/-- Nothing is taken away from an identifier that was typed. -/
theorem typedText_of_isIdentifier (h : isIdentifier typed = true) :
    typedText typed = typed.toList := by
  have hword : ∀ c ∈ typed.toList, Text.isBlank c = false := by
    unfold isIdentifier at h
    split at h
    · next c cs htext =>
      rw [htext]
      simp only [Bool.and_eq_true, List.all_eq_true] at h
      obtain ⟨⟨hc, hcs⟩, -⟩ := h
      have hc' : Piece.continuesWord c = true := by
        simp only [Piece.startsWord, Piece.continuesWord, Char.isAlphanum, Bool.or_eq_true] at hc ⊢
        exact hc.imp_left .inl
      exact List.forall_mem_cons.2 ⟨Text.isBlank_of_continuesWord hc',
        fun d hd => Text.isBlank_of_continuesWord (hcs d hd)⟩
    · cases h
  exact Text.trimBlanks_eq hword

/-- The choices that are kept are those that contain what was typed. -/
theorem mem_rankChoices :
    choice ∈ rankChoices typed choices ↔ choice ∈ choices ∧ typedText typed <:+: choice.toList := by
  unfold rankChoices
  rw [← typedText]
  dsimp only
  split
  · next hempty =>
    rw [List.isEmpty_iff.1 hempty]
    exact ⟨fun h => ⟨h, List.nil_infix⟩, fun h => h.1⟩
  · -- a choice is in one of the two parts, whether it starts with what was typed or not
    simp only [List.mem_append, List.mem_filter, Text.occursIn_iff]
    cases (typedText typed).isPrefixOf choice.toList with
    | true => simp
    | false => simp

/-- Choices that are all different stay so. -/
theorem nodup_rankChoices (h : choices.Nodup) : (rankChoices typed choices).Nodup := by
  unfold rankChoices
  dsimp only
  split
  · exact h
  · rw [List.nodup_append]
    refine ⟨(h.filter _).filter _, (h.filter _).filter _, fun a ha b hb => ?_⟩
    have hfront := (List.mem_filter.1 ha).2
    have hback := (List.mem_filter.1 hb).2
    rintro rfl
    rw [hfront] at hback
    cases hback

/-- The choices that start with what was typed stand in front of the others. -/
theorem rankChoices_split (typed : String) (choices : List String) :
    ∃ front back, rankChoices typed choices = front ++ back ∧
      (∀ choice ∈ front, typedText typed <+: choice.toList) ∧
      ∀ choice ∈ back, ¬typedText typed <+: choice.toList := by
  unfold rankChoices
  rw [← typedText]
  dsimp only
  split
  · next hempty =>
    refine ⟨choices, [], (List.append_nil choices).symm, fun choice _ => ?_, List.forall_mem_nil _⟩
    rw [List.isEmpty_iff.1 hempty]
    exact List.nil_prefix
  · refine ⟨_, _, rfl, fun choice h => ?_, fun choice h => ?_⟩
    · exact List.isPrefixOf_iff_prefix.1 (List.mem_filter.1 h).2
    · rw [← List.isPrefixOf_iff_prefix, Bool.not_eq_true]
      simpa using (List.mem_filter.1 h).2

namespace Value

/-- A value has the members that are listed, and no other. -/
theorem mem_memberNames {v : Value} {name : String} :
    name ∈ v.memberNames ↔ (v.member? name).isSome = true := by
  cases v with
  | number n =>
    simp only [memberNames, member?, numberMember?]
    split <;> simp_all
  | string s =>
    simp only [memberNames, member?, stringMember?]
    split <;> simp_all
  | list items =>
    simp only [memberNames, member?, listMember?]
    split <;> simp_all
  | stringList _ items =>
    simp only [memberNames, member?, stringListMember?, listMember?]
    split
    · simp
    · split <;> simp_all
  | file f =>
    simp only [memberNames, member?, fileMember?]
    split <;> simp_all
  | _ => simp [memberNames, member?]

theorem nodup_memberNames (v : Value) : v.memberNames.Nodup := by
  cases v <;> simp [memberNames]

/-- Member access succeeds for the members that are listed, and for no other. -/
theorem mem_memberNames_iff_memberOf {v : Value} {name : String} :
    name ∈ v.memberNames ↔ ∃ member, v.memberOf name = .ok member := by
  rw [mem_memberNames]
  unfold memberOf
  cases v.member? name <;> simp

end Value

end SearchScript
