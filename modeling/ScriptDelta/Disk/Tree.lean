import ScriptDelta.Table

/-! # Folder trees

A tree is a file, or a folder with a tree under each of its names. A location is the list of names
that lead from the top of a tree to something in it. A tree put at a location changes what is found
there and nothing else, as long as it goes into a folder and takes the place of nothing that has
entries (`node?_put`).
-/

namespace ScriptDelta

/-- The names that lead from the top of a tree to something in it. -/
abbrev Location :=
  List String

/-- What is at a location. -/
inductive Node where
  | folder
  | file (bytes : List UInt8)
deriving DecidableEq

/-- A file, or a folder with a tree for each name in it. -/
inductive Tree where
  | file (bytes : List UInt8)
  | folder (entries : List (String × Tree))

namespace Tree

/-- What is at the top of a tree. -/
def node : Tree → Node
  | file bytes => .file bytes
  | folder _ => .folder

/-- The names at the top of a tree, in order, with what lies under each. -/
def entries : Tree → List (String × Tree)
  | file _ => []
  | folder entries => entries

/-- What lies under a name at the top of a tree. -/
def child? (tree : Tree) (name : String) : Option Tree :=
  (tree.entries.find? fun entry => entry.1 = name).map (·.2)

/-- What lies at a location. -/
def find? : Tree → Location → Option Tree
  | tree, [] => some tree
  | tree, name :: rest => (tree.child? name).bind fun inner => inner.find? rest

/-- What is at a location. -/
def node? (tree : Tree) (location : Location) : Option Node :=
  (tree.find? location).map node

/-- The tree with another tree put at a location. -/
def put : Tree → Location → Tree → Tree
  | _, [], inner => inner
  | tree, name :: rest, inner =>
    let child := (tree.child? name).getD (folder [])
    folder (Table.insertRow Prod.fst (name, child.put rest inner) tree.entries)

mutual

/-- Everything in a tree with its location, a folder before what is in it and names in order. -/
def listing (location : Location) : Tree → List (Location × Node)
  | file bytes => [(location, .file bytes)]
  | folder entries => (location, .folder) :: listingOf location entries

/-- Everything under some names of a folder with its location. -/
def listingOf (location : Location) : List (String × Tree) → List (Location × Node)
  | [] => []
  | (name, tree) :: rest => listing (location ++ [name]) tree ++ listingOf location rest

end

@[simp] theorem find?_nil (tree : Tree) : tree.find? [] = some tree := by
  simp [find?]

@[simp] theorem find?_cons (tree : Tree) (name : String) (rest : Location) :
    tree.find? (name :: rest) = (tree.child? name).bind fun inner => inner.find? rest := by
  simp [find?]

theorem child?_folder_insertRow (name other : String) (inner : Tree)
    (entries : List (String × Tree)) :
    (folder (Table.insertRow Prod.fst (name, inner) entries)).child? other =
      if name = other then some inner else (folder entries).child? other := by
  have found := Table.find?_insertRow Prod.fst (name, inner) entries other
  simp only [child?, Tree.entries, found]
  split <;> rfl

theorem find?_append (tree : Tree) (location inner : Location) :
    tree.find? (location ++ inner) = (tree.find? location).bind (·.find? inner) := by
  induction location generalizing tree with
  | nil => simp
  | cons name rest ih => cases entry : tree.child? name <;> simp [entry, ih]

theorem node?_cons (tree : Tree) (name : String) (rest : Location) :
    tree.node? (name :: rest) = (tree.child? name).bind (·.node? rest) := by
  cases entry : tree.child? name <;> simp [node?, entry]

/-- Nothing lies in a tree without entries. -/
theorem node?_of_entries_eq_nil {tree : Tree} (leaf : tree.entries = []) {location : Location}
    (inside : location ≠ []) : tree.node? location = none := by
  cases location with
  | nil => exact absurd rfl inside
  | cons name rest => simp [node?_cons, child?, leaf]

/-- A tree put in a folder, where nothing with entries was, changes what is at its location and at
no other. -/
theorem node?_put {tree inner : Tree} {location : Location} (proper : location ≠ [])
    (parent : tree.node? location.dropLast = some .folder) (leaf : inner.entries = [])
    (replaced : ∀ old, tree.find? location = some old → old.entries = []) (other : Location) :
    (tree.put location inner).node? other =
      if other = location then some inner.node else tree.node? other := by
  induction location generalizing tree other with
  | nil => exact absurd rfl proper
  | cons name rest ih =>
    cases other with
    | nil =>
      cases tree with
      | folder entries => rfl
      | file bytes => cases rest <;> simp [node?, child?, entries, node] at parent
    | cons next others =>
      rw [node?_cons, node?_cons, put, child?_folder_insertRow]
      by_cases here : name = next
      · subst here
        simp only [if_true, Option.bind_some]
        cases rest with
        | nil =>
          by_cases ending : others = []
          · simp [ending, put, node?]
          · have unseen : (tree.child? name).bind (·.node? others) = none := by
              cases entry : tree.child? name with
              | none => rfl
              | some old =>
                exact node?_of_entries_eq_nil (replaced old (by simp [entry])) ending
            simp [ending, put, unseen, node?_of_entries_eq_nil leaf ending]
        | cons middle rest =>
          cases entry : tree.child? name with
          | none => simp [node?_cons, entry] at parent
          | some child =>
            have inside : child.node? (middle :: rest).dropLast = some .folder := by
              simpa [node?_cons, entry] using parent
            have below := ih (by simp) inside
              (fun old found => replaced old (by simpa [entry] using found)) others
            simpa using below
      · have elsewhere : next ≠ name := fun equal => here equal.symm
        have same : (folder tree.entries).child? next = tree.child? next := rfl
        simp [here, elsewhere, same]

end Tree

end ScriptDelta
