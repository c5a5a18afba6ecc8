import ScriptDelta.Proofs.Text.Fields

/-! # Reading a change list

The lines of a change list are read one after the other. A line with three back quotes and the word
`diff` opens a fence, and the next line with three back quotes alone closes it; what stands between
is taken as it is (`pieces?`). Of the other lines those with a hyphen and a key between back quotes
are entries. Lines outside and inside fences are read apart, as long as no line opens a fence by
chance and none within closes it (`pieces?_lines`, `pieces?_fence`).
-/

namespace ScriptDelta.Report

/-- A part of a list of changes. -/
inductive Piece where
  /-- A line outside the fences. -/
  | line (text : String)
  /-- A fence with the lines in it. -/
  | fence (lines : List String)
deriving DecidableEq

/-- The line that opens a fence. -/
def opening : String :=
  "```diff"

/-- The line that closes a fence. -/
def closing : String :=
  "```"

/-- The pieces that some lines are read as, where a fence that is open has the given lines so far,
the last one in front. No fence may be left open. -/
def pieces? : Option (List String) → List String → Option (List Piece)
  | none, [] => some []
  | some _, [] => none
  | none, line :: rest =>
    if line = opening then pieces? (some []) rest else (pieces? none rest).map (.line line :: ·)
  | some inner, line :: rest =>
    if line = closing then (pieces? none rest).map (.fence inner.reverse :: ·)
    else pieces? (some (line :: inner)) rest

/-- What a reader of a change list is told. -/
inductive Item where
  /-- A definition was changed. -/
  | entry (key : String)
  /-- A text in a fence. -/
  | fence (text : String)
deriving DecidableEq

/-- The key in a line of the form of an entry. -/
def entryKey? (line : String) : Option String :=
  match line.toList with
  | '-' :: ' ' :: '\x60' :: rest =>
    if rest.getLast? = some '\x60' then some (String.ofList rest.dropLast) else none
  | _ => none

/-- What a piece tells, if anything. -/
def Piece.item? : Piece → Option Item
  | line text => (entryKey? text).map .entry
  | fence lines => some (.fence ("\n".intercalate lines))

/-- What some lines tell a reader. -/
def items? (lines : List String) : Option (List Item) :=
  (pieces? none lines).map (·.filterMap Piece.item?)

theorem entryKey?_entry (key : String) : entryKey? ("- `" ++ key ++ "`") = some key := by
  simp [entryKey?, String.toList_append]

section pieces

variable {lines rest : List String}

/-- Lines that open no fence are pieces of their own. -/
theorem pieces?_lines (plain : opening ∉ lines) :
    pieces? none (lines ++ rest) = (pieces? none rest).map (lines.map .line ++ ·) := by
  induction lines with
  | nil => simp
  | cons line lines ih =>
    rw [List.mem_cons, not_or] at plain
    rw [List.cons_append, pieces?, if_neg (Ne.symm plain.1), ih plain.2, Option.map_map]
    rfl

theorem pieces?_inner (inside : closing ∉ lines) (inner : List String) :
    pieces? (some inner) (lines ++ closing :: rest) =
      (pieces? none rest).map (.fence (inner.reverse ++ lines) :: ·) := by
  induction lines generalizing inner with
  | nil => simp [pieces?]
  | cons line lines ih =>
    rw [List.mem_cons, not_or] at inside
    rw [List.cons_append, pieces?, if_neg (Ne.symm inside.1), ih inside.2, List.reverse_cons,
      List.append_assoc, List.singleton_append]

/-- A fence ends at the first line that closes it. -/
theorem pieces?_fence (inside : closing ∉ lines) :
    pieces? none (opening :: lines ++ closing :: rest) =
      (pieces? none rest).map (.fence lines :: ·) := by
  rw [List.cons_append, pieces?, if_pos rfl, pieces?_inner inside, List.reverse_nil,
    List.nil_append]

end pieces

section items

variable {rest : List String}

/-- Lines that are no entries and open no fence tell nothing. -/
theorem items?_of_forall {lines : List String}
    (plain : ∀ line ∈ lines, line ≠ opening ∧ entryKey? line = none) :
    items? (lines ++ rest) = items? rest := by
  have noFence : opening ∉ lines := fun member => (plain _ member).1 rfl
  have nothing : (lines.map Piece.line).filterMap Piece.item? = [] := by
    rw [List.filterMap_map, List.filterMap_eq_nil_iff]
    intro line member
    simp [Piece.item?, (plain line member).2]
  rw [items?, pieces?_lines noFence, Option.map_map, items?]
  congr 1
  funext pieces
  simp only [Function.comp_apply, List.filterMap_append, nothing, List.nil_append]

/-- An entry with a fence after an empty line tells the key and the text in the fence. -/
theorem items?_entry (key : String) {inner : List String} (inside : closing ∉ inner) :
    items? (["- `" ++ key ++ "`", "", opening] ++ inner ++ [closing] ++ rest) =
      (items? rest).map ([.entry key, .fence ("\n".intercalate inner)] ++ ·) := by
  have noFence : opening ∉ ["- `" ++ key ++ "`", ""] := by
    simp [opening, ← String.toList_inj, String.toList_append]
  have split : ["- `" ++ key ++ "`", "", opening] ++ inner ++ [closing] ++ rest =
      ["- `" ++ key ++ "`", ""] ++ (opening :: inner ++ closing :: rest) := by
    simp
  have blank : entryKey? "" = none := rfl
  rw [items?, split, pieces?_lines noFence, pieces?_fence inside, Option.map_map, Option.map_map,
    items?, Option.map_map]
  congr 1
  funext pieces
  simp [Piece.item?, entryKey?_entry, blank]

example : items? ["- `f`", "", opening, "-- `g`", "", "+```", closing, "- `h`"] =
    some [.entry "f", .fence "-- `g`\n\n+```", .entry "h"] := by decide +kernel

end items

end ScriptDelta.Report
