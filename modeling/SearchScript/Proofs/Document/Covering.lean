import SearchScript.Document.Analysis
import SearchScript.Proofs.Document.Position
import SearchScript.Proofs.Parse.Nesting
import SearchScript.Proofs.Run.Parts

/-!
# What completions replace

The completions at a place of a document replace one range. It is that of a name that the cursor
touches, or that of the right operand of a member access, if the cursor stands behind the left one
and not behind the right one. So the cursor stands in the range or at one of its ends, but for the
cursor behind a left operand that has not reached the right one: it stands in front of the range.

## Key definitions

- `Range.Covers`: a place lies in a range or at one of its ends

## Key results

- `Document.exists_node_of_completions`: the node that the completions replace
- `Document.completions_cover`: where the cursor stands in relation to the range
-/

namespace SearchScript

/-- Whether a place lies in a range or at one of its ends. -/
def Range.Covers (range : Range) (place : Position) : Prop :=
  range.start ≤ place ∧ place ≤ range.stop

instance (range : Range) (place : Position) : Decidable (range.Covers place) :=
  inferInstanceAs (Decidable (_ ∧ _))

/-- A span that an offset touches covers the place of the offset. -/
theorem Range.covers_ofSpan {text : String} {span : Span} {offset : Nat}
    (hspan : span.InText text) (hoffset : IsBoundary text offset) (hstart : span.start ≤ offset)
    (hstop : offset ≤ span.stop) : (Range.ofSpan text span).Covers (.ofOffset text offset) :=
  ⟨Position.ofOffset_le hspan.start hoffset hstart, Position.ofOffset_le hoffset hspan.stop hstop⟩

/-- The host that completion works against binds data. -/
theorem Query.holdsData_placeholderHost :
    (({} : Store).newHost placeholderHost).2.HoldsData 0 := by
  intro name v h
  have hfind : placeholderHost.find? name = some v := h
  left
  unfold placeholderHost fileHost Host.find? at hfind
  simp only [Table.find?] at hfind
  split at hfind <;> cases hfind
  rfl

namespace Document

variable {fuel : Nat} {mode : ParseMode} {text : String} {place : Position}
  {items : List CompletionItem} {code : Code}

/-- A document is read as an expression or as a script. -/
theorem exists_parse_of_parse (h : parse mode text = .ok code) :
    ∃ isScript, Code.parse mode isScript text = .ok code := by
  unfold parse at h
  split at h
  · next e he =>
    cases h
    exact ⟨false, by rw [Code.parse, he]; rfl⟩
  · split at h <;> cases h
    next s hs => exact ⟨true, by rw [Code.parse, hs]; rfl⟩

/-- The nodes of a document that was read are nested. -/
theorem isNested_of_mem_nodes (h : parse mode text = .ok code) {node : Code}
    (hnode : node ∈ code.nodes) : node.IsNested text := by
  obtain ⟨isScript, h⟩ := exists_parse_of_parse h
  obtain ⟨start, stop, hrow⟩ := Code.row_of_parse h
  exact hrow.nested code (List.mem_singleton_self _) node hnode

/-- Completions replace one span, that of a name that the cursor touches or that of the right
operand of a member access with the cursor between its left operand and the end of the right one. -/
theorem exists_node_of_completions (h : completions fuel text place = some items)
    (hne : items ≠ []) : ∃ offset code span, place.Names text offset ∧
      parse .tolerant text = .ok code ∧ (∀ item ∈ items, item.range = .ofSpan text span) ∧
      ((∃ typed, .expression (.name span typed) ∈ code.nodes ∧ span.touches offset = true) ∨
        ∃ whole left right, .expression (.binary whole .member left right) ∈ code.nodes ∧
          span = right.span ∧ left.span.stop ≤ offset ∧ offset ≤ right.span.stop) := by
  unfold completions at h
  split at h
  · cases h
    exact absurd rfl hne
  -- a place that names no offset, a text that is not parsed and a run that fails give no items
  next offset hoffset =>
  obtain ⟨found?, hfound, rfl⟩ := Option.map_eq_some_iff.1 h
  unfold suggestions at hfound
  split at hfound
  · cases hfound
    exact absurd rfl hne
  next code hcode =>
  dsimp only at hfound
  split at hfound
  · cases hfound
  · next found?' st' hcomplete =>
    cases hfound
    cases found? with
    | none => exact absurd rfl hne
    | some found =>
      refine ⟨offset, code, found.span, Position.names_of_toOffset? hoffset, hcode, ?_,
        Code.exists_node_of_complete Query.holdsData_placeholderHost hcomplete⟩
      intro item hitem
      obtain ⟨⟨name, rank⟩, -, rfl⟩ := List.mem_map.1 hitem
      rfl
  · cases hfound
    exact absurd rfl hne

/-- Completions replace one range. It covers the place that they were asked for, unless the cursor
stands behind the left operand of a member access and in front of the right one. The range is then
that of the right operand, so it begins behind the cursor. -/
theorem completions_cover (h : completions fuel text place = some items) (hne : items ≠ []) :
    ∃ offset code range, place.Names text offset ∧ parse .tolerant text = .ok code ∧
      (∀ item ∈ items, item.range = range) ∧
      (range.Covers (.ofOffset text offset) ∨
        .ofOffset text offset < range.start ∧ range.start ≤ range.stop ∧
          ∃ whole left right, .expression (.binary whole .member left right) ∈ code.nodes ∧
            range = .ofSpan text right.span ∧ left.span.stop ≤ offset ∧
            offset < right.span.start) := by
  obtain ⟨offset, code, span, hnames, hcode, hrange, hnode⟩ := exists_node_of_completions h hne
  refine ⟨offset, code, .ofSpan text span, hnames, hcode, hrange, ?_⟩
  have hoffset := hnames.onLine.1
  rcases hnode with ⟨typed, hname, htouches⟩ | ⟨whole, left, right, hmember, rfl, hleft, hright⟩
  · have hspan := (isNested_of_mem_nodes hcode hname).inText
    simp only [Span.touches, Bool.and_eq_true, decide_eq_true_eq] at htouches
    exact .inl (Range.covers_ofSpan hspan hoffset htouches.1 htouches.2)
  · have hpart : .expression right ∈ code.nodes := by
      refine Code.closed_nodes code _ hmember (Code.mem_nodes_of_mem_children ?_)
      simp [Code.children]
    have hspan : right.span.InText text := (isNested_of_mem_nodes hcode hpart).inText
    rcases Nat.lt_or_ge offset right.span.start with hbefore | hbehind
    · exact .inr ⟨Position.ofOffset_lt hoffset hspan.start hbefore,
        Position.ofOffset_le hspan.start hspan.stop hspan.ordered, whole, left, right, hmember, rfl,
        hleft, hbefore⟩
    · exact .inl (Range.covers_ofSpan hspan hoffset hbehind hright)

/-- The completions of a name at a cursor that stands behind it on the last line. -/
theorem completions_cover_of_name :
    ∃ items, completions 20 "1 +\n fi" ⟨1, 9⟩ = some items ∧ items ≠ [] ∧
      ∃ offset code range, (⟨1, 9⟩ : Position).Names "1 +\n fi" offset ∧
        parse .tolerant "1 +\n fi" = .ok code ∧ (∀ item ∈ items, item.range = range) ∧
        (range.Covers (.ofOffset "1 +\n fi" offset) ∨
          .ofOffset "1 +\n fi" offset < range.start ∧ range.start ≤ range.stop ∧
            ∃ whole left right, .expression (.binary whole .member left right) ∈ code.nodes ∧
              range = .ofSpan "1 +\n fi" right.span ∧ left.span.stop ≤ offset ∧
              offset < right.span.start) := by
  have hitems : completions 20 "1 +\n fi" ⟨1, 9⟩ = some [⟨"file", 0, ⟨⟨1, 1⟩, ⟨1, 3⟩⟩⟩] := by
    decide +kernel
  exact ⟨_, hitems, List.cons_ne_nil _ _, completions_cover hitems (List.cons_ne_nil _ _)⟩

/-- The completions behind a point replace the name that stands further behind. -/
theorem not_completions_cover_behind_point :
    ¬∀ fuel text place items, completions fuel text place = some items →
      ∀ item ∈ items, item.range.Covers place := by
  intro hcover
  have hitems : completions 20 "\"x\".  le" ⟨0, 4⟩ = some [⟨"length", 0, ⟨⟨0, 6⟩, ⟨0, 8⟩⟩⟩] := by
    decide +kernel
  exact absurd (hcover _ _ _ _ hitems _ List.mem_cons_self) (by decide)

end Document

end SearchScript
