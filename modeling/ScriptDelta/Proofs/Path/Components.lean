import ScriptDelta.Proofs.Path.Names

/-! # Equal paths

Two paths are equal if they have the same components. That is so if they begin in the same way, at
the root or with a period or neither, and the pieces between their slashes are the same but for
empty ones and periods (`components_eq_iff`). So a path can be written in many ways.
-/

namespace ScriptDelta.Path

/-- The pieces between the slashes of a path that lead on. -/
def onward (path : Path) : List String :=
  (Text.fields '/' path.text).filter fun piece => piece ≠ "" ∧ piece ≠ "."

/-- Two paths are equal, although their texts may differ. -/
structure Same (path other : Path) : Prop where
  /-- Both begin at the root, or neither. -/
  root : path.text.toList.head? = some '/' ↔ other.text.toList.head? = some '/'
  /-- Both begin with a period, or neither. -/
  here : (Text.fields '/' path.text).head? = some "." ↔
    (Text.fields '/' other.text).head? = some "."
  onward : path.onward = other.onward

theorem steps_eq_onward (path : Path) : path.steps = path.onward := by
  rw [steps, names, List.filter_filter]
  apply List.filter_congr
  intro piece _
  by_cases here : piece = "." <;> by_cases empty : piece = "" <;> simp [here, empty]

/-- The component that a piece leads on to. -/
def Component.ofPiece (piece : String) : Component :=
  if piece = ".." then .up else .name piece

/-- The components after the first are known from the pieces that lead on. -/
theorem inner_eq_map (path : Path) : path.inner = path.onward.map Component.ofPiece := by
  have back : ∀ component ∈ path.inner, Component.ofPiece component.text = component := by
    intro component member
    obtain ⟨piece, -, named⟩ := List.mem_filterMap.mp member
    simp only [component?] at named
    split at named
    · contradiction
    · split at named
      · obtain rfl := Option.some.inj named
        rfl
      next notUp =>
        obtain rfl := Option.some.inj named
        exact if_neg notUp
  calc
    path.inner = path.inner.map id := (List.map_id _).symm
    _ = path.inner.map (Component.ofPiece ∘ Component.text) :=
      List.map_congr_left fun component member => (back component member).symm
    _ = path.onward.map Component.ofPiece := by
      rw [← steps_eq_onward, ← text_inner, List.map_map]

theorem here_not_mem_inner (path : Path) : .here ∉ path.inner := by
  rw [inner_eq_map]
  intro member
  obtain ⟨piece, -, isHere⟩ := List.mem_map.mp member
  rw [Component.ofPiece] at isHere
  split at isHere <;> contradiction

section components

variable (path : Path)

theorem components_eq : path.components =
    (if path.isAbsolute then [.root] else if path.pieces.head? = some "." then [.here] else []) ++
      path.inner :=
  rfl

theorem inner_eq_filter :
    path.inner = path.components.filter fun component => component ≠ .root ∧ component ≠ .here := by
  have kept : (path.inner.filter fun component => component ≠ .root ∧ component ≠ .here) =
      path.inner := by
    apply List.filter_eq_self.mpr
    intro component member
    rw [decide_eq_true_eq]
    exact ⟨fun isRoot => path.root_not_mem_inner (isRoot ▸ member),
      fun isHere => path.here_not_mem_inner (isHere ▸ member)⟩
  rw [components_eq, List.filter_append, kept]
  split_ifs <;> rfl

theorem root_mem_components_iff :
    .root ∈ path.components ↔ path.text.toList.head? = some '/' := by
  have absolute : path.text.toList.head? = some '/' ↔ path.isAbsolute = true := beq_iff_eq.symm
  rw [components_eq, List.mem_append, or_iff_left path.root_not_mem_inner, absolute]
  split_ifs <;> simp_all

/-- A path that begins at the root has nothing before its first slash, so it has no period
there. -/
theorem here_mem_components_iff :
    .here ∈ path.components ↔ (Text.fields '/' path.text).head? = some "." := by
  rw [components_eq, List.mem_append, or_iff_left path.here_not_mem_inner]
  change _ ↔ path.pieces.head? = some "."
  split
  next absolute =>
    obtain ⟨rest, split⟩ := List.head?_eq_some_iff.mp (beq_iff_eq.mp absolute)
    simp [pieces, split, List.splitOnP_cons_eq_if_modifyHead]
  next => split <;> simp_all

end components

/-- The components of two paths are the same exactly if the paths are equal. -/
theorem components_eq_iff {path other : Path} :
    path.components = other.components ↔ path.Same other := by
  constructor
  · intro same
    refine ⟨?_, ?_, ?_⟩
    · rw [← root_mem_components_iff, ← root_mem_components_iff, same]
    · rw [← here_mem_components_iff, ← here_mem_components_iff, same]
    · rw [← steps_eq_onward, ← steps_eq_onward, ← text_inner, ← text_inner, inner_eq_filter,
        inner_eq_filter, same]
  · rintro ⟨root, here, onward⟩
    have absolute : path.isAbsolute = true ↔ other.isAbsolute = true := by
      simp only [isAbsolute, beq_iff_eq, root]
    have period : path.pieces.head? = some "." ↔ other.pieces.head? = some "." := here
    simp only [components_eq, absolute, period, inner_eq_map, onward]

-- A period counts only at the front.
example : components ⟨"mv/.//js/"⟩ = components ⟨"mv/js"⟩ ∧
    components ⟨"./mv/js"⟩ ≠ components ⟨"mv/js"⟩ := by decide +kernel

end ScriptDelta.Path
