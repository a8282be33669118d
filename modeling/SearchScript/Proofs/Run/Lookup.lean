import Mathlib.Data.List.Nodup
import SearchScript.Proofs.Number.Exact
import SearchScript.Proofs.Run.Conversion
import SearchScript.Query

/-!
# Files looked up by their identifiers

The function `File` takes a number for an identifier if it is an integer from zero on. The number
behind the last identifier is not among those that are looked at here. Every other number finds the
record whose identifier it is, and nothing else. The member `id` of a record is the number nearest
to the identifier, so a record is found by it if its identifier is a number.

## Key results

- `FileStore.findById?_eq_some_iff`: what is found by an identifier
- `Walk.lookUp_number`: what a number finds
- `Walk.comesTo_file`: what a call of `File` with a number comes to
-/

namespace SearchScript

-- powers are those of the core library, whatever else is imported
attribute [local instance (high)] instPowNat

/-! ## Records of a store -/

namespace FileStore

variable {files : FileStore} {f : FileRecord} {id : Nat}

/-- Whether each record of a store has an identifier of its own, which is in range. -/
structure IsIdentified (files : FileStore) : Prop where
  distinct : (files.map (·.id)).Nodup
  inRange : ∀ f ∈ files, f.id ≤ Walk.maxFileId

theorem id_of_findById? (h : files.findById? id = some f) : f ∈ files ∧ f.id = id := by
  unfold findById? at h
  exact ⟨List.mem_of_find?_eq_some h, by simpa using List.find?_some h⟩

theorem IsIdentified.findById?_eq_some_iff (h : files.IsIdentified) :
    files.findById? id = some f ↔ f ∈ files ∧ f.id = id := by
  refine ⟨id_of_findById?, ?_⟩
  rintro ⟨hmem, rfl⟩
  cases hfound : files.findById? f.id with
  | none =>
    have := List.find?_eq_none.1 hfound f hmem
    simp at this
  | some g =>
    obtain ⟨hg, hid⟩ := id_of_findById? hfound
    rw [List.inj_on_of_nodup_map h.distinct hg hmem hid]

end FileStore

namespace Walk

open Run

variable {files : FileStore} {f : FileRecord} {id : Nat} {n : Number}

/-! ## Numbers as identifiers -/

/-- Up to the last identifier a number is the identifier that it is as an integer. -/
theorem fileId?_eq_some_iff (hn : n.toInt? ≠ some ((maxFileId + 1 : Nat) : Int))
    (hid : id ≤ maxFileId) : fileId? n = some id ↔ n.toInt? = some (id : Int) := by
  unfold fileId?
  cases hint : n.toInt? with
  | none => simp
  | some i =>
    cases i with
    | negSucc k =>
      refine ⟨nofun, fun h => ?_⟩
      cases h
    | ofNat k =>
      have hk : k ≠ maxFileId + 1 := by
        rintro rfl
        exact hn hint
      by_cases hle : k ≤ maxFileId + 1
      · have hmin : min k maxFileId = k := Nat.min_eq_left (by omega)
        simp [if_pos hle, hmin]
      · have hne : k ≠ id := by omega
        simp [if_neg hle, hne]

/-- A number finds the record whose identifier it is as an integer. If there is none, that is the
error. -/
theorem lookUp_number (h : files.IsIdentified)
    (hn : n.toInt? ≠ some ((maxFileId + 1 : Nat) : Int)) :
    (∃ f ∈ files, n.toInt? = some (f.id : Int) ∧ lookUp files (.number n) = .ok (.file f)) ∨
      (∀ f ∈ files, n.toInt? ≠ some (f.id : Int)) ∧
        lookUp files (.number n) = .error (.fileIdNotFound n) := by
  have hfound : ∀ f, (fileId? n).bind files.findById? = some f ↔
      f ∈ files ∧ n.toInt? = some (f.id : Int) := by
    intro f
    rw [Option.bind_eq_some_iff]
    constructor
    · rintro ⟨id, hid, hf⟩
      obtain ⟨hmem, rfl⟩ := h.findById?_eq_some_iff.1 hf
      exact ⟨hmem, (fileId?_eq_some_iff hn (h.inRange f hmem)).1 hid⟩
    · rintro ⟨hmem, hint⟩
      exact ⟨f.id, (fileId?_eq_some_iff hn (h.inRange f hmem)).2 hint,
        h.findById?_eq_some_iff.2 ⟨hmem, rfl⟩⟩
  cases hresult : (fileId? n).bind files.findById? with
  | some f =>
    obtain ⟨hmem, hint⟩ := (hfound f).1 hresult
    exact .inl ⟨f, hmem, hint, by rw [lookUp, hresult]⟩
  | none =>
    refine .inr ⟨fun f hmem hint => ?_, by rw [lookUp, hresult]⟩
    rw [(hfound f).2 ⟨hmem, hint⟩] at hresult
    cases hresult

/-! ## Calls -/

variable {ctx : Context} {callee e : Expr} {c v : Value} {st st₁ st₂ : Store} {span : Span}

/-- A call of `File` comes to what its one argument finds in the store. -/
theorem comesTo_file (hreal : ctx.mode = .real) (hargs : e.arguments = [e])
    (hcallee : ComesTo (fun fuel => expr fuel ctx callee) st (.ok c, st₁))
    (he : ComesTo (fun fuel => expr fuel ctx e) st₁ (.ok v, st₂))
    (hc : st₂.snapshot c = .fileConstructor (some files)) {answer : Except RunError Value}
    (hanswer : lookUp files (st₂.snapshot v) = answer) :
    ComesTo (fun fuel => expr fuel ctx (.binary span .call callee e)) st
      (answer.mapError Signal.fail, st₂) := by
  refine comesTo_callOne hargs hcallee he ⟨1, ?_⟩
  refine (bind_of_ok (a := st₂.snapshot c) rfl).trans ?_
  rw [hc, hreal]
  refine (bind_of_ok (a := st₂.snapshot v) rfl).trans ?_
  show Run.ofAnswer (lookUp files (st₂.snapshot v)) st₂ = _
  rw [hanswer]
  cases answer <;> rfl

/-- The member `id` of what an expression comes to, if that is a record, is the number nearest to
the identifier. -/
theorem comesTo_idMember {memberSpan nameSpan : Span} (hreal : ctx.mode = .real)
    (he : ComesTo (fun fuel => expr fuel ctx e) st (.ok v, st₁)) (hv : st₁.snapshot v = .file f) :
    ComesTo (fun fuel => expr fuel ctx (.binary memberSpan .member e (.name nameSpan "id"))) st
      (.ok (.number (Number.ofNat f.id)), st₁) :=
  comesTo_dataMember hreal he (by rw [hv]; rfl)

/-- What a call of `File` with a number comes to, and that it comes to nothing else. -/
theorem comesTo_file_iff {outcome : Except Signal Value × Store} (h : files.IsIdentified)
    (hreal : ctx.mode = .real) (hargs : e.arguments = [e])
    (hcallee : ComesTo (fun fuel => expr fuel ctx callee) st (.ok c, st₁))
    (he : ComesTo (fun fuel => expr fuel ctx e) st₁ (.ok v, st₂))
    (hc : st₂.snapshot c = .fileConstructor (some files)) (hv : st₂.snapshot v = .number n)
    (hn : n.toInt? ≠ some ((maxFileId + 1 : Nat) : Int)) :
    ComesTo (fun fuel => expr fuel ctx (.binary span .call callee e)) st outcome ↔
      (∃ f ∈ files, n.toInt? = some (f.id : Int) ∧ outcome = (.ok (.file f), st₂)) ∨
        (∀ f ∈ files, n.toInt? ≠ some (f.id : Int)) ∧
          outcome = (.error (.fail (.fileIdNotFound n)), st₂) := by
  have hcomes : ∀ {answer}, lookUp files (.number n) = answer →
      ComesTo (fun fuel => expr fuel ctx (.binary span .call callee e)) st
        (answer.mapError Signal.fail, st₂) := by
    intro answer hanswer
    exact comesTo_file hreal hargs hcallee he hc (by rw [hv, hanswer])
  rcases lookUp_number h hn with ⟨f, hmem, hint, hanswer⟩ | ⟨hnone, hanswer⟩
  · constructor
    · intro hcall
      exact .inl ⟨f, hmem, hint, lasting_expr.unique hcall (hcomes hanswer)⟩
    · rintro (⟨g, hg, hid, rfl⟩ | ⟨hnone, -⟩)
      · have hsame : g.id = f.id := by
          rw [hint, Option.some.injEq] at hid
          omega
        rw [List.inj_on_of_nodup_map h.distinct hg hmem hsame]
        exact hcomes hanswer
      · exact absurd hint (hnone f hmem)
  · constructor
    · intro hcall
      exact .inr ⟨hnone, lasting_expr.unique hcall (hcomes hanswer)⟩
    · rintro (⟨g, hg, hid, -⟩ | ⟨-, rfl⟩)
      · exact absurd hid (hnone g hg)
      · exact hcomes hanswer

end Walk

open Run

/-- An identifier that is a number is the integer that its number is. -/
theorem FileRecord.id_of_le {f : FileRecord} (h : f.id ≤ 2 ^ (53 : Nat)) :
    (Number.ofNat f.id).toInt? = some (f.id : Int) := by
  rw [Number.ofNat_of_le h]
  exact Number.toInt?_eq_some_iff.2 ⟨f.id, rfl, rfl⟩

/-- A number finds exactly the record whose identifier it is, and a record is found by its member
`id` if its identifier is a number, as all up to `2 ^ 53` are. -/
theorem FileStore.found_exactly {files : FileStore} (h : files.IsIdentified) {ctx : Context}
    {callee : Expr} {c : Value} {st st₁ : Store} {span : Span} (hreal : ctx.mode = .real)
    (hcallee : ComesTo (fun fuel => Walk.expr fuel ctx callee) st (.ok c, st₁)) :
    (∀ {e v st₂ n outcome}, e.arguments = [e] →
      ComesTo (fun fuel => Walk.expr fuel ctx e) st₁ (.ok v, st₂) →
      st₂.snapshot c = .fileConstructor (some files) → st₂.snapshot v = .number n →
      n.toInt? ≠ some ((Walk.maxFileId + 1 : Nat) : Int) →
      (ComesTo (fun fuel => Walk.expr fuel ctx (.binary span .call callee e)) st outcome ↔
        (∃ f ∈ files, n.toInt? = some (f.id : Int) ∧ outcome = (.ok (.file f), st₂)) ∨
          (∀ f ∈ files, n.toInt? ≠ some (f.id : Int)) ∧
            outcome = (.error (.fail (.fileIdNotFound n)), st₂))) ∧
    (∀ {e v st₂ f memberSpan nameSpan},
      ComesTo (fun fuel => Walk.expr fuel ctx e) st₁ (.ok v, st₂) →
      st₂.snapshot c = .fileConstructor (some files) → st₂.snapshot v = .file f → f ∈ files →
      (Number.ofNat f.id).toInt? = some (f.id : Int) →
      ComesTo (fun fuel => Walk.expr fuel ctx (.binary span .call callee
        (.binary memberSpan .member e (.name nameSpan "id")))) st (.ok (.file f), st₂)) ∧
    ∀ f : FileRecord, f.id ≤ 2 ^ (53 : Nat) →
      (Number.ofNat f.id).toInt? = some (f.id : Int) := by
  refine ⟨?_, ?_, fun f => FileRecord.id_of_le⟩
  · intro e v st₂ n outcome hargs he hc hv hn
    exact Walk.comesTo_file_iff h hreal hargs hcallee he hc hv hn
  · intro e v st₂ f memberSpan nameSpan he hc hv hmem hid
    have hrange := h.inRange f hmem
    have hn : (Number.ofNat f.id).toInt? ≠ some ((Walk.maxFileId + 1 : Nat) : Int) := by
      rw [hid, Ne, Option.some.injEq]
      omega
    exact (Walk.comesTo_file_iff h hreal rfl hcallee (Walk.comesTo_idMember hreal he hv) hc rfl
      hn).2 (.inl ⟨f, hmem, hid, rfl⟩)

/-- In a search, the names `File` and `file` stand for the function and for the record. -/
theorem FileStore.comesTo_names (f : FileRecord) (files : FileStore) (span : Span) :
    let st : Store := { hosts := #[Query.fileHost f (some files)] }
    ComesTo (fun fuel => Walk.expr fuel ⟨.real, 0, ⟨[], 0⟩⟩ (.name span "File")) st
        (.ok (.fileConstructor (some files)), st) ∧
      ComesTo (fun fuel => Walk.expr fuel ⟨.real, 0, ⟨[], 0⟩⟩ (.name span "file")) st
        (.ok (.file f), st) := ⟨⟨1, rfl⟩, ⟨1, rfl⟩⟩

/-- A record finds itself in a store of two. -/
theorem FileStore.found_exactly_of_two :
    let f : FileRecord := { id := 2 ^ (53 : Nat), hash := "b" }
    let files : FileStore := [{ id := 3, hash := "a" }, f]
    let st : Store := { hosts := #[Query.fileHost f (some files)] }
    files.IsIdentified ∧
      ∃ e, Code.parse .strict false "File(file.id)" = .ok (.expression e) ∧
        ComesTo (fun fuel => Walk.expr fuel ⟨.real, 0, ⟨[], 0⟩⟩ e) st (.ok (.file f), st) := by
  intro f files st
  have hidentified : files.IsIdentified := ⟨by decide, by decide⟩
  refine ⟨hidentified, _, by cbv, ?_⟩
  have hmem : f ∈ files := by simp [files]
  exact (found_exactly hidentified rfl (comesTo_names f files _).1).2.1
    (comesTo_names f files _).2 rfl rfl hmem (FileRecord.id_of_le (Nat.le_refl _))

/-- An identifier that is no number is rounded by the member `id`, and the record is not found. Nor
is a number always the identifier of what it finds: the number behind the last identifier finds the
record that has the last one. -/
theorem FileStore.not_found_exactly :
    let f : FileRecord := { id := 2 ^ (53 : Nat) + 1 }
    let g : FileRecord := { id := Walk.maxFileId }
    let st : Store := { hosts := #[Query.fileHost f (some [f])] }
    (FileStore.IsIdentified [f] ∧
      ∃ e, Code.parse .strict false "File(file.id)" = .ok (.expression e) ∧
        ComesTo (fun fuel => Walk.expr fuel ⟨.real, 0, ⟨[], 0⟩⟩ e) st
          (.error (.fail (.fileIdNotFound (Number.ofNat f.id))), st)) ∧
    FileStore.IsIdentified [g] ∧
      (Number.ofNat (2 ^ (64 : Nat))).toInt? ≠ some (g.id : Int) ∧
      Walk.lookUp [g] (.number (Number.ofNat (2 ^ (64 : Nat)))) = .ok (.file g) := by
  intro f g st
  have hrounded : Walk.fileId? (Number.ofNat f.id) = some (2 ^ (53 : Nat)) := by decide +kernel
  have hlast : Walk.fileId? (Number.ofNat (2 ^ (64 : Nat))) = some Walk.maxFileId := by
    decide +kernel
  refine ⟨⟨⟨by decide, by decide⟩, _, by cbv, ?_⟩, ⟨by decide, by decide⟩, by decide +kernel, ?_⟩
  · have hanswer : Walk.lookUp [f] (.number (Number.ofNat f.id))
        = .error (.fileIdNotFound (Number.ofNat f.id)) := by
      rw [Walk.lookUp, hrounded]
      rfl
    exact Walk.comesTo_file rfl rfl (comesTo_names f [f] _).1
      (Walk.comesTo_idMember rfl (comesTo_names f [f] _).2 rfl) rfl hanswer
  · rw [Walk.lookUp, hlast]
    rfl

end SearchScript
