import Mathlib.Data.List.Induction
import SearchScript.Document.Workspace

/-!
# The documents follow the editor

After any sequence of notices, the documents that are kept are those that were opened and not closed
since, and what was published last for an address are the diagnostics of the text that is kept under
it, or none if the document is closed. The text is the one that was given last, where of several
texts in one notice the first counts. An editor that applies them in order ends up with the last
one; so both have the same text as long as no change of the document begins and ends with different
texts.

## Key definitions

- `Notice.IsOpen`: whether a document was opened and not closed since
- `Notice.textAfter`: the text of a document after a sequence of notices
- `Workspace.run`: the documents and the publications after a sequence of notices

## Key results

- `Workspace.find?_run`: the text that is kept
- `Workspace.lastPublished?_run`: what was published last
- `Workspace.run_follows`: both, beside the text that the editor has
-/

namespace SearchScript

namespace Table

variable {α : Type} {name other : String}

theorem find?_cons (name : String) (entry : String × α) (rest : Table α) :
    find? name (entry :: rest) = if name = entry.1 then some entry.2 else find? name rest := rfl

@[simp] theorem find?_erase (name : String) (table : Table α) :
    (erase name table).find? name = none := by
  induction table with
  | nil => rfl
  | cons entry rest ih =>
    simp only [erase, List.filter_cons] at ih ⊢
    split
    · next h => rw [find?_cons, if_neg (Ne.symm (of_decide_eq_true h)), ih]
    · exact ih

theorem find?_erase_ne (h : other ≠ name) (table : Table α) :
    (erase name table).find? other = table.find? other := by
  induction table with
  | nil => rfl
  | cons entry rest ih =>
    simp only [erase, List.filter_cons] at ih ⊢
    split
    · rw [find?_cons, find?_cons, ih]
    · next hentry =>
      have hname : entry.1 = name := by simpa using hentry
      rw [ih, find?_cons, hname, if_neg h]

end Table

namespace Notice

/-- The address of the document that a notice is about. -/
def uri : Notice → String
  | opened uri _ | changed uri _ | closed uri => uri

/-- Whether a document was opened and not closed since. -/
def IsOpen (u : String) (notices : List Notice) : Prop :=
  ∃ before text after, notices = before ++ opened u text :: after ∧ closed u ∉ after

/-- Whether each document is open whenever it is changed. -/
def OpenedFirst (notices : List Notice) : Prop :=
  ∀ before u texts after, notices = before ++ changed u texts :: after → IsOpen u before

/-- The text of a document behind a notice, if it is open then. Of the texts of a change, `choose`
takes the one that counts. -/
def textBehind (choose : List String → Option String) (u : String) (text? : Option String) :
    Notice → Option String
  | opened other text => if other = u then some text else text?
  | changed other texts =>
    if other = u then text?.map fun text => (choose texts).getD text else text?
  | closed other => if other = u then none else text?

/-- The text of a document after a sequence of notices, if it is open then. -/
def textAfter (choose : List String → Option String) (u : String) (notices : List Notice) :
    Option String :=
  notices.foldl (textBehind choose u) none

variable {choose choose' : List String → Option String} {u : String} {notices : List Notice}
  {notice : Notice}

theorem textAfter_concat : textAfter choose u (notices ++ [notice]) =
    textBehind choose u (textAfter choose u notices) notice := by
  rw [textAfter, List.foldl_append]
  rfl

/-- A notice leaves the texts of all other documents. -/
theorem textBehind_of_ne (h : notice.uri ≠ u) (text? : Option String) :
    textBehind choose u text? notice = text? := by
  cases notice <;> exact if_neg h

theorem openedFirst_nil : OpenedFirst [] := by
  intro before u texts after h
  simp at h

theorem openedFirst_concat_iff : OpenedFirst (notices ++ [notice]) ↔
    OpenedFirst notices ∧ ∀ u texts, notice = changed u texts → IsOpen u notices := by
  constructor
  · refine fun h => ⟨?_, ?_⟩
    · rintro before u texts after rfl
      exact h before u texts (after ++ [notice]) (by simp)
    · rintro u texts rfl
      exact h notices u texts [] rfl
  · rintro ⟨hnotices, hnotice⟩ before u texts after h
    -- the change is the last notice, or the last notice comes after it
    cases after using List.reverseRecOn with
    | nil =>
      obtain ⟨rfl, hlast⟩ := List.append_inj' h rfl
      exact hnotice u texts (List.cons.inj hlast).1
    | append_singleton after last =>
      rw [← List.cons_append, ← List.append_assoc] at h
      exact hnotices before u texts after (List.append_inj' h rfl).1

/-! ## Open documents -/

theorem isOpen_concat_iff : IsOpen u (notices ++ [notice]) ↔
    (∃ text, notice = opened u text) ∨ notice ≠ closed u ∧ IsOpen u notices := by
  constructor
  · rintro ⟨before, text, after, h, hclosed⟩
    -- the document was opened by the last notice or before it
    cases after using List.reverseRecOn with
    | nil => exact .inl ⟨text, (List.append_inj' h rfl).2 |> List.cons.inj |>.1⟩
    | append_singleton after last =>
      rw [← List.cons_append, ← List.append_assoc] at h
      obtain ⟨rfl, hlast⟩ := List.append_inj' h rfl
      cases hlast
      rw [List.mem_append, List.mem_singleton, not_or] at hclosed
      exact .inr ⟨Ne.symm hclosed.2, before, text, after, rfl, hclosed.1⟩
  · rintro (⟨text, rfl⟩ | ⟨hne, before, text, after, rfl, hclosed⟩)
    · exact ⟨notices, text, [], rfl, List.not_mem_nil⟩
    · refine ⟨before, text, after ++ [notice], by simp, ?_⟩
      rw [List.mem_append, List.mem_singleton, not_or]
      exact ⟨hclosed, Ne.symm hne⟩

/-- A document has a text if and only if it is open. -/
theorem isSome_textAfter_iff : (textAfter choose u notices).isSome = true ↔ IsOpen u notices := by
  induction notices using List.reverseRecOn with
  | nil => simp [textAfter, IsOpen]
  | append_singleton notices notice ih =>
    rw [textAfter_concat, isOpen_concat_iff, ← ih]
    cases notice with
    | opened other text =>
      by_cases h : other = u <;> simp [textBehind, h]
    | changed other texts =>
      by_cases h : other = u <;> simp [textBehind, h]
    | closed other =>
      by_cases h : other = u <;> simp [textBehind, h]

/-- Two ways to choose among the texts of a change come to the same text of a document, if they
agree on its changes. -/
theorem textAfter_congr (h : ∀ texts, changed u texts ∈ notices → choose texts = choose' texts) :
    textAfter choose u notices = textAfter choose' u notices := by
  induction notices using List.reverseRecOn with
  | nil => rfl
  | append_singleton notices notice ih =>
    rw [textAfter_concat, textAfter_concat, ih fun texts hmem => h texts (by simp [hmem])]
    -- only a change of this document is told by what is chosen
    by_cases hu : notice.uri = u
    · cases notice with
      | changed other texts =>
        cases hu
        simp only [textBehind, h texts (by simp [uri])]
      | _ => rfl
    · rw [textBehind_of_ne hu, textBehind_of_ne hu]

end Notice

namespace Workspace

open Notice

/-- The documents that are kept after a sequence of notices, and all that was published. -/
def run (notices : List Notice) : Workspace × List Publication :=
  notices.foldl (fun (workspace, published) notice =>
    ((workspace.notify notice).1, published ++ (workspace.notify notice).2.toList)) ([], [])

/-- The diagnostics that were published last for an address. -/
def lastPublished? (u : String) (published : List Publication) : Option (List Diagnostic) :=
  (published.findRev? (·.uri = u)).map (·.diagnostics)

variable {u : String} {notices : List Notice} {notice : Notice} {workspace : Workspace}

theorem run_concat : run (notices ++ [notice]) =
    (((run notices).1.notify notice).1,
      (run notices).2 ++ ((run notices).1.notify notice).2.toList) := by
  rw [run, List.foldl_append]
  rfl

/-! ## The texts that are kept -/

/-- A notice does to the text that is kept what it does to the text of the document, where of
several texts the first counts. -/
theorem find?_notify (workspace : Workspace) (notice : Notice) (u : String) :
    (workspace.notify notice).1.find? u = textBehind List.head? u (workspace.find? u) notice := by
  by_cases hu : notice.uri = u
  · cases notice with
    | opened other text =>
      cases hu
      simp [notify, textBehind, uri]
    | closed other =>
      cases hu
      simp [notify, textBehind, uri]
    | changed other texts =>
      cases hu
      cases texts with
      | nil => simp [notify, textBehind, uri]
      | cons text rest =>
        -- a document that is not open stays so
        cases hfind : workspace.find? other <;> simp [notify, textBehind, uri, hfind]
  · rw [textBehind_of_ne hu]
    have hne : u ≠ notice.uri := Ne.symm hu
    cases notice with
    | opened other text => exact Table.find?_insert_ne hne text workspace
    | closed other => exact Table.find?_erase_ne hne workspace
    | changed other texts =>
      cases texts with
      | nil => rfl
      | cons text rest =>
        simp only [notify]
        split
        · exact Table.find?_insert_ne hne text workspace
        · rfl

theorem find?_run (notices : List Notice) (u : String) :
    (run notices).1.find? u = textAfter List.head? u notices := by
  induction notices using List.reverseRecOn with
  | nil => rfl
  | append_singleton notices notice ih => rw [run_concat, find?_notify, ih, textAfter_concat]

theorem mem_names_run_iff : u ∈ (run notices).1.names ↔ IsOpen u notices := by
  rw [← Table.isSome_find?, find?_run, isSome_textAfter_iff]

/-- If two texts of one notice differ, the editor and the documents that are kept may differ. -/
example :
    let notices := [opened "a" "1", changed "a" ["1 +", "2"]]
    (run notices).1.find? "a" = some "1 +" ∧ textAfter List.getLast? "a" notices = some "2" :=
  ⟨rfl, rfl⟩

/-! ## What was published last -/

theorem lastPublished?_append_ne {published : List Publication} {p? : Option Publication}
    (h : ∀ p ∈ p?, p.uri ≠ u) :
    lastPublished? u (published ++ p?.toList) = lastPublished? u published := by
  cases p? with
  | none => simp
  | some p => simp [lastPublished?, h p rfl]

theorem lastPublished?_append_eq {published : List Publication} {p : Publication}
    (h : p.uri = u) : lastPublished? u (published ++ [p]) = some p.diagnostics := by
  simp [lastPublished?, h]

/-- What a notice publishes concerns its own document. -/
theorem uri_of_mem_notify {p : Publication} (h : p ∈ (workspace.notify notice).2) :
    p.uri = notice.uri := by
  cases notice with
  | opened | closed =>
    cases h
    rfl
  | changed other texts =>
    cases texts with
    | nil => cases h
    | cons =>
      cases h
      rfl

/-- What a notice publishes for its document are the diagnostics of the text that is kept then, if a
changed document is open. -/
theorem diagnostics_of_mem_notify {p : Publication} (h : p ∈ (workspace.notify notice).2)
    (hopen : ∀ texts, notice = changed notice.uri texts →
      (workspace.find? notice.uri).isSome = true) :
    p.diagnostics =
      ((workspace.notify notice).1.find? notice.uri).elim [] Document.diagnostics := by
  rw [find?_notify]
  cases notice with
  | opened | closed =>
    cases h
    simp [textBehind, uri, publish]
  | changed other texts =>
    cases texts with
    | nil => cases h
    | cons text rest =>
      cases h
      obtain ⟨old, hold⟩ := Option.isSome_iff_exists.1 (hopen (text :: rest) rfl)
      rw [hold]
      simp [textBehind, uri, publish]

/-- What was published last for an address are the diagnostics of the text that is kept under it, or
none if the document is closed. Nothing was published for an address that no notice was about. -/
theorem lastPublished?_run (h : OpenedFirst notices) (u : String) :
    lastPublished? u (run notices).2 = if u ∈ notices.map uri then
      some (((run notices).1.find? u).elim [] Document.diagnostics) else none := by
  induction notices using List.reverseRecOn with
  | nil => rfl
  | append_singleton notices notice ih =>
    obtain ⟨hnotices, hnotice⟩ := openedFirst_concat_iff.1 h
    have ih := ih hnotices
    rw [run_concat, List.map_append, List.map_singleton]
    dsimp only
    by_cases hu : notice.uri = u
    · -- what this notice publishes is the last for its document
      subst hu
      rw [if_pos (by simp)]
      have hopen : ∀ texts, notice = changed notice.uri texts →
          ((run notices).1.find? notice.uri).isSome = true := by
        intro texts hchanged
        rw [find?_run, isSome_textAfter_iff]
        exact hnotice _ texts hchanged
      cases hp : ((run notices).1.notify notice).2 with
      | some p =>
        rw [Option.toList_some, lastPublished?_append_eq (uri_of_mem_notify hp),
          diagnostics_of_mem_notify hp hopen]
      | none =>
        -- only a change without texts publishes nothing, and its document was opened before
        cases notice with
        | opened | closed => cases hp
        | changed other texts =>
          cases texts with
          | cons => cases hp
          | nil =>
            have hmem : other ∈ notices.map uri := by
              obtain ⟨before, text, after, rfl, -⟩ := hnotice other [] rfl
              simp [uri]
            simpa [uri, notify, hmem] using ih
    · -- it neither changes the text of another document nor publishes anything for it
      rw [lastPublished?_append_ne fun p hp => (uri_of_mem_notify hp).trans_ne hu, ih,
        find?_notify, textBehind_of_ne hu]
      simp [Ne.symm hu]

/-- The documents that are kept are those that are open. Each has the text that was given last, with
the first of several texts in one notice; this is the text that the editor has, unless a change of
the document begins and ends with different texts. The diagnostics that were published last for an
address are those of the text that is kept under it, and none if the document is closed. -/
theorem run_follows (h : OpenedFirst notices) (u : String) :
    (u ∈ (run notices).1.names ↔ IsOpen u notices) ∧
      (run notices).1.find? u = textAfter List.head? u notices ∧
      ((∀ texts, changed u texts ∈ notices → texts.head? = texts.getLast?) →
        (run notices).1.find? u = textAfter List.getLast? u notices) ∧
      lastPublished? u (run notices).2 = if u ∈ notices.map uri then
        some (((run notices).1.find? u).elim [] Document.diagnostics) else none := by
  refine ⟨mem_names_run_iff, find?_run notices u, fun hchanges => ?_, lastPublished?_run h u⟩
  rw [find?_run, textAfter_congr hchanges]

/-- Two documents, of which one is changed twice and the other one closed. -/
theorem run_follows_of_changes :
    let notices := [opened "a" "1", opened "b" "2", changed "a" ["1 +"], closed "b",
      changed "a" ["1 + 2"]]
    OpenedFirst notices ∧ (∀ texts, changed "a" texts ∈ notices → texts.head? = texts.getLast?) ∧
      ("a" ∈ (run notices).1.names ↔ IsOpen "a" notices) ∧
      (run notices).1.find? "a" = textAfter List.getLast? "a" notices ∧
      lastPublished? "a" (run notices).2 =
        some (((run notices).1.find? "a").elim [] Document.diagnostics) := by
  intro notices
  -- notice by notice: every text that is changed is open by then
  have hopened : OpenedFirst notices := by
    have hopenA : IsOpen "a" [opened "a" "1", opened "b" "2"] :=
      isSome_textAfter_iff.1 (rfl : (textAfter List.head? "a" _).isSome = true)
    have hbefore : OpenedFirst [opened "a" "1", opened "b" "2"] :=
      openedFirst_concat_iff.2 ⟨openedFirst_concat_iff.2 ⟨openedFirst_nil, by simp⟩, by simp⟩
    have hclosed : OpenedFirst
        [opened "a" "1", opened "b" "2", changed "a" ["1 +"], closed "b"] :=
      openedFirst_concat_iff.2 ⟨openedFirst_concat_iff.2 ⟨hbefore, by simpa using hopenA⟩, by simp⟩
    refine openedFirst_concat_iff.2 ⟨hclosed, ?_⟩
    rintro u texts ⟨⟩
    exact isSome_textAfter_iff.1 (rfl : (textAfter List.head? "a" _).isSome = true)
  have hsingle : ∀ texts, changed "a" texts ∈ notices → texts.head? = texts.getLast? := by
    intro texts hmem
    simp only [notices, List.mem_cons, reduceCtorEq, changed.injEq, List.not_mem_nil, or_false,
      false_or, true_and] at hmem
    rcases hmem with rfl | rfl <;> rfl
  obtain ⟨hnames, -, htext, hpublished⟩ := run_follows hopened "a"
  have hmentioned := hpublished.trans (if_pos (by simp [notices, uri]))
  exact ⟨hopened, hsingle, hnames, htext hsingle, hmentioned⟩

end Workspace

end SearchScript
