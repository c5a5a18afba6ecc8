import ScriptDelta.Proofs.Path.Names

/-! # Paths that differ in their endings

An ending without slashes becomes a part of the last piece of a text, whatever slashes the text has
itself (`exists_pieces_append`). If the other pieces are plain names, so are then all of them
(`Direct.plain`). The pieces of a text tell it from every other (`pieces_injective`).
-/

namespace ScriptDelta.Path

/-- An ending without slashes becomes a part of the last piece. -/
theorem exists_pieces_append (text : String) :
    ∃ lead last, pieces ⟨text⟩ = lead ++ [last] ∧ ∀ ending, SlashFree ending →
      pieces ⟨text ++ ending⟩ = lead ++ [last ++ ending] := by
  obtain ⟨lead, last, -, -, ofText, -, -⟩ := Text.fields_append_text '/' text ""
  refine ⟨lead, last, ofText, ?_⟩
  intro ending slashFree
  obtain ⟨front, tip, first, rest, ofFront, ofEnding, ofBoth⟩ :=
    Text.fields_append_text '/' text ending
  obtain ⟨rfl, same⟩ := List.append_inj' (ofFront.symm.trans ofText) rfl
  obtain rfl := List.singleton_inj.mp same
  rw [Text.fields_of_not_mem slashFree, List.cons_eq_cons] at ofEnding
  obtain ⟨rfl, rfl⟩ := ofEnding
  exact ofBoth

/-- A path is its pieces with slashes between them. -/
theorem pieces_injective : Function.Injective pieces := by
  intro path other same
  have sameText := congrArg ("/".intercalate ·) same
  have whole (path : Path) : "/".intercalate path.pieces = path.text :=
    Text.intercalate_fields rfl path.text
  simp only [whole] at sameText
  obtain ⟨text⟩ := path
  exact congrArg Path.mk sameText

theorem isAbsolute_append_ending (text : String) {ending : String} (slashFree : SlashFree ending) :
    isAbsolute ⟨text ++ ending⟩ = isAbsolute ⟨text⟩ := by
  by_cases empty : text = ""
  · rw [empty, String.empty_append]
    exact isAbsolute_of_slashFree slashFree
  · exact isAbsolute_append empty ending

/-- An ending stays at the end when its path is joined to a folder. -/
theorem join_append (folder : Path) (text : String) {ending : String}
    (slashFree : SlashFree ending) :
    folder.join ⟨text ++ ending⟩ = ⟨(folder.join ⟨text⟩).text ++ ending⟩ := by
  simp only [join, isAbsolute_append_ending text slashFree]
  split
  · rfl
  · split <;> simp only [String.append_assoc]

/-- The pieces of a text before its last slash are plain names. -/
def Direct (text : String) : Prop :=
  ∀ piece ∈ (pieces ⟨text⟩).dropLast, Plain piece

instance (text : String) : Decidable (Direct text) :=
  inferInstanceAs (Decidable (∀ piece ∈ (pieces ⟨text⟩).dropLast, Plain piece))

example : Direct "t" ∧ Direct "v/t" ∧ ¬ Direct "./t" ∧ ¬ Direct "/t" := by decide +kernel

/-- With an ending that makes a plain name of the last piece, all pieces are plain names. -/
theorem Direct.plain {text ending : String} (direct : Direct text) (slashFree : SlashFree ending)
    (makes : ∀ last, Plain (last ++ ending)) : ∀ piece ∈ pieces ⟨text ++ ending⟩, Plain piece := by
  obtain ⟨lead, last, whole, pieces⟩ := exists_pieces_append text
  rw [Direct, whole, List.dropLast_concat] at direct
  rw [pieces ending slashFree, List.forall_mem_append, List.forall_mem_singleton]
  exact ⟨direct, makes last⟩

end ScriptDelta.Path
