import ScriptDelta.Path
import ScriptDelta.Proofs.Text.Fields

/-! # The names along a path

What a path leads to is decided by the names between its slashes and by whether it begins at the
root. Joining a name puts it behind the names of a path. The paths of the folders that a path lies
in have the first of its names, where single periods may be left out because they lead nowhere.
-/

namespace ScriptDelta.Path

/-- The names between the slashes of a path. -/
def names (path : Path) : List String :=
  path.pieces.filter fun piece => !piece.isEmpty

/-- The names that lead to another place. -/
def steps (path : Path) : List String :=
  path.names.filter fun name => name != "."

/-- There is no slash in the text. -/
def SlashFree (text : String) : Prop :=
  '/' ∉ text.toList

instance (text : String) : Decidable (SlashFree text) :=
  inferInstanceAs (Decidable ('/' ∉ text.toList))

/-- A piece of a path that is the name of a file or a folder. -/
def Plain (piece : String) : Prop :=
  piece ≠ "" ∧ piece ≠ "." ∧ piece ≠ ".."

instance (piece : String) : Decidable (Plain piece) :=
  inferInstanceAs (Decidable (_ ∧ _ ∧ _))

theorem pieces_append_slash (front back : String) :
    pieces ⟨front ++ "/" ++ back⟩ = pieces ⟨front⟩ ++ pieces ⟨back⟩ :=
  Text.fields_append rfl front back

/-- The names of two paths with a slash between them. -/
theorem names_append_slash (front back : String) :
    names ⟨front ++ "/" ++ back⟩ = names ⟨front⟩ ++ names ⟨back⟩ := by
  simp only [names, pieces_append_slash, List.filter_append]

theorem steps_append_slash (front back : String) :
    steps ⟨front ++ "/" ++ back⟩ = steps ⟨front⟩ ++ steps ⟨back⟩ := by
  simp only [steps, names_append_slash, List.filter_append]

/-- A text without slashes is one piece. -/
theorem pieces_of_slashFree {text : String} (slashFree : SlashFree text) :
    pieces ⟨text⟩ = [text] :=
  Text.fields_of_not_mem slashFree

/-- A text without slashes is one name, unless it is empty. -/
theorem names_of_slashFree {text : String} (slashFree : SlashFree text) :
    names ⟨text⟩ = [text].filter fun piece => !piece.isEmpty := by
  rw [names, pieces_of_slashFree slashFree]

theorem names_empty : names ⟨""⟩ = [] :=
  rfl

/-- Texts without slashes are the names of the path that is written with slashes between them. -/
theorem names_intercalate {texts : List String} (slashFree : ∀ text ∈ texts, SlashFree text) :
    names ⟨"/".intercalate texts⟩ = texts.filter fun piece => !piece.isEmpty := by
  induction texts with
  | nil => rfl
  | cons first rest ih =>
    obtain ⟨firstFree, restFree⟩ := List.forall_mem_cons.mp slashFree
    cases rest with
    | nil => rw [String.intercalate_singleton, names_of_slashFree firstFree]
    | cons second rest =>
      rw [String.intercalate_cons_cons, names_append_slash, names_of_slashFree firstFree,
        ih restFree, ← List.filter_append, List.singleton_append]

theorem slashFree_of_mem_steps {path : Path} {name : String} (member : name ∈ path.steps) :
    SlashFree name :=
  Text.not_mem_of_mem_fields (List.mem_filter.mp (List.mem_filter.mp member).1).1

theorem isAbsolute_of_slashFree {text : String} (slashFree : SlashFree text) :
    isAbsolute ⟨text⟩ = false := by
  apply beq_eq_false_iff_ne.mpr
  intro starts
  exact slashFree (List.mem_of_head? starts)

theorem isAbsolute_append {front : String} (solid : front ≠ "") (back : String) :
    isAbsolute ⟨front ++ back⟩ = isAbsolute ⟨front⟩ := by
  have solid : front.toList ≠ [] := by simpa using solid
  simp [isAbsolute, String.toList_append, List.head?_append_of_ne_nil _ solid]

section plain

variable {path : Path} (plain : ∀ piece ∈ path.pieces, Plain piece)

include plain

/-- Nothing is left out of a path without empty pieces. -/
theorem names_of_plain : path.names = path.pieces := by
  apply List.filter_eq_self.mpr
  intro piece member
  simpa using (plain piece member).1

/-- A path that begins at the root has an empty piece in front. -/
theorem isAbsolute_of_plain : path.isAbsolute = false := by
  obtain ⟨text⟩ := path
  apply beq_eq_false_iff_ne.mpr
  intro starts
  obtain ⟨rest, split⟩ := List.head?_eq_some_iff.mp starts
  have member : "" ∈ pieces ⟨text⟩ := by simp [pieces, split, List.splitOnP_cons_eq_if_modifyHead]
  exact (plain "" member).1 rfl

end plain

section join

variable (outer : Path)

/-- A text that ends with a slash is a text with a slash behind. -/
theorem exists_eq_append_slash {text : String} (ends : text.toList.getLast? = some '/') :
    ∃ front, text = front ++ "/" := by
  obtain ⟨front, split⟩ := List.getLast?_eq_some_iff.mp ends
  refine ⟨String.ofList front, String.toList_inj.mp ?_⟩
  simpa [String.toList_append] using split

/-- A path that is joined to a folder is beyond all names of the folder. -/
theorem names_join_of_relative {inner : Path} (relative : inner.isAbsolute = false) :
    (outer.join inner).names = outer.names ++ inner.names := by
  obtain ⟨text⟩ := outer
  simp only [join, relative, Bool.false_eq_true, if_false]
  split
  next bare =>
    simp only [Bool.or_eq_true, String.isEmpty_iff, beq_iff_eq] at bare
    obtain rfl | ends := bare
    · rw [String.empty_append, names_empty, List.nil_append]
    · obtain ⟨front, rfl⟩ := exists_eq_append_slash ends
      have slash : front ++ "/" = front ++ "/" ++ "" := by simp
      rw [names_append_slash, slash, names_append_slash, names_empty, List.append_nil]
  next => rw [names_append_slash]

/-- A path that is joined to a folder begins where the folder does. -/
theorem isAbsolute_join_of_relative {inner : Path} (relative : inner.isAbsolute = false) :
    (outer.join inner).isAbsolute = outer.isAbsolute := by
  obtain ⟨text⟩ := outer
  simp only [join, relative, Bool.false_eq_true, if_false]
  by_cases empty : text = ""
  · subst empty
    exact relative
  · split
    · exact isAbsolute_append empty inner.text
    · rw [String.append_assoc, isAbsolute_append empty]

end join

section ancestors

theorem text_component? (pieces : List String) :
    (pieces.filterMap component?).map Component.text =
      (pieces.filter fun piece => !piece.isEmpty).filter fun name => name != "." := by
  induction pieces with
  | nil => rfl
  | cons piece rest ih =>
    by_cases empty : piece = ""
    · simp [component?, empty, ih]
    · by_cases here : piece = "."
      · simp [component?, here, ih]
      · by_cases up : piece = ".."
        · simp [component?, up, Component.text, ih]
        · simp [component?, empty, here, up, Component.text, ih]

/-- The components of a path after the root or the current folder. -/
def inner (path : Path) : List Component :=
  path.pieces.filterMap component?

theorem text_inner (path : Path) : path.inner.map Component.text = path.steps :=
  text_component? path.pieces

theorem root_not_mem_inner (path : Path) : .root ∉ path.inner := by
  intro member
  obtain ⟨piece, -, named⟩ := List.mem_filterMap.mp member
  simp only [component?] at named
  split at named
  · contradiction
  · split at named <;> simp at named

/-- A path without the root is its components with slashes between them. -/
theorem ofComponents_of_not_mem {components : List Component} (relative : .root ∉ components) :
    ofComponents components = ⟨"/".intercalate (components.map Component.text)⟩ := by
  cases components with
  | nil => rfl
  | cons first rest =>
    cases first with
    | root => exact absurd (List.mem_cons_self ..) relative
    | here | up | name => rfl

/-- Names with slashes between them are a path that does not begin at the root. -/
theorem isAbsolute_intercalate {texts : List String}
    (proper : ∀ text ∈ texts, SlashFree text ∧ text ≠ "") :
    isAbsolute ⟨"/".intercalate texts⟩ = false := by
  cases texts with
  | nil => rfl
  | cons first rest =>
    obtain ⟨slashFree, solid⟩ := proper first (List.mem_cons_self ..)
    have relative := isAbsolute_of_slashFree slashFree
    cases rest with
    | nil => rwa [String.intercalate_singleton]
    | cons second rest =>
      rwa [String.intercalate_cons_cons, String.append_assoc, isAbsolute_append solid]

theorem steps_intercalate {texts : List String}
    (proper : ∀ text ∈ texts, SlashFree text ∧ text ≠ "") :
    steps ⟨"/".intercalate texts⟩ = texts.filter fun name => name != "." := by
  have solid : (texts.filter fun piece => !piece.isEmpty) = texts := by
    apply List.filter_eq_self.mpr
    intro text member
    simpa using (proper text member).2
  rw [steps, names_intercalate fun text member => (proper text member).1, solid]

theorem proper_of_mem_steps {path : Path} {name : String} (member : name ∈ path.steps) :
    SlashFree name ∧ name ≠ "" := by
  refine ⟨slashFree_of_mem_steps member, ?_⟩
  simpa using (List.mem_filter.mp (List.mem_filter.mp member).1).2

section leading

variable {path : Path} {leading : List Component} (isLeading : leading <+: path.inner)

include isLeading

theorem texts_leading : leading.map Component.text <+: path.steps :=
  path.text_inner ▸ isLeading.map Component.text

theorem proper_leading : ∀ text ∈ leading.map Component.text, SlashFree text ∧ text ≠ "" :=
  fun _ member => proper_of_mem_steps ((texts_leading isLeading).subset member)

theorem filter_texts_leading :
    ((leading.map Component.text).filter fun name => name != ".") = leading.map Component.text := by
  apply List.filter_eq_self.mpr
  intro text member
  exact (List.mem_filter.mp ((texts_leading isLeading).subset member)).2

/-- The first components of a path behind the root. -/
theorem ofComponents_root : (ofComponents (.root :: leading)).isAbsolute = true ∧
    (ofComponents (.root :: leading)).steps <+: path.steps := by
  have written : ofComponents (.root :: leading) =
      ⟨"" ++ "/" ++ "/".intercalate (leading.map Component.text)⟩ := by
    simp [ofComponents]
  rw [written, steps_append_slash, steps_intercalate (proper_leading isLeading),
    filter_texts_leading isLeading]
  exact ⟨isAbsolute_append (by simp) _, texts_leading isLeading⟩

theorem ofComponents_bare : (ofComponents leading).isAbsolute = false ∧
    (ofComponents leading).steps <+: path.steps := by
  have relative : .root ∉ leading := fun member => path.root_not_mem_inner (isLeading.subset member)
  rw [ofComponents_of_not_mem relative, isAbsolute_intercalate (proper_leading isLeading),
    steps_intercalate (proper_leading isLeading), filter_texts_leading isLeading]
  exact ⟨rfl, texts_leading isLeading⟩

/-- The first components of a path behind a period, which leads nowhere. -/
theorem ofComponents_here : (ofComponents (.here :: leading)).isAbsolute = false ∧
    (ofComponents (.here :: leading)).steps <+: path.steps := by
  have relative : .root ∉ Component.here :: leading := by
    simpa using fun member => path.root_not_mem_inner (isLeading.subset member)
  have proper : ∀ name ∈ "." :: leading.map Component.text, SlashFree name ∧ name ≠ "" :=
    List.forall_mem_cons.mpr ⟨⟨by decide, by decide⟩, proper_leading isLeading⟩
  rw [ofComponents_of_not_mem relative, List.map_cons, Component.text,
    isAbsolute_intercalate proper, steps_intercalate proper,
    List.filter_cons_of_neg (by simp), filter_texts_leading isLeading]
  exact ⟨rfl, texts_leading isLeading⟩

end leading

/-- A folder that a path lies in begins where the path begins, and its path has the first of the
names. -/
theorem steps_of_mem_ancestors {path ancestor : Path} (member : ancestor ∈ path.ancestors) :
    ancestor.isAbsolute = path.isAbsolute ∧ ancestor.steps <+: path.steps := by
  obtain ⟨member, solid⟩ := List.mem_filter.mp member
  obtain ⟨count, -, rfl⟩ := List.mem_map.mp member
  -- The components begin with the root, with the current folder, or with a name.
  have isLeading (count : Nat) : path.inner.take count <+: path.inner := List.take_prefix ..
  by_cases absolute : path.isAbsolute = true
  · have components : path.components = .root :: path.inner := by
      simp [components, absolute, inner]
    cases count with
    | zero => simp [ofComponents] at solid
    | succ count =>
      rw [components, List.take_succ_cons, absolute]
      exact ofComponents_root (isLeading count)
  · rw [Bool.eq_false_iff.mpr absolute]
    by_cases here : path.pieces.head? = some "."
    · have components : path.components = .here :: path.inner := by
        simp [components, absolute, here, inner]
      cases count with
      | zero => simp [ofComponents] at solid
      | succ count =>
        rw [components, List.take_succ_cons]
        exact ofComponents_here (isLeading count)
    · have components : path.components = path.inner := by
        simp [components, absolute, here, inner]
      rw [components]
      exact ofComponents_bare (isLeading count)

end ancestors

end ScriptDelta.Path
