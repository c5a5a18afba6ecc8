import ScriptDelta.Text.Blank
import ScriptDelta.Text.WordChar

/-! # Characters of names and blanks

No character of a name is a blank, and a character that may begin a name may also continue it. So a
name ends where a blank or a bracket begins, however long the reader tries to make it.
-/

namespace ScriptDelta.Text

/-- The text consists of blanks only. -/
def AllBlank (text : List Char) : Prop :=
  ∀ c ∈ text, isBlank c = true

/-- No character of the text is a blank. -/
def NoBlank (text : List Char) : Prop :=
  ∀ c ∈ text, isBlank c = false

instance (text : List Char) : Decidable (NoBlank text) :=
  decidable_of_iff (text.all fun c => !isBlank c) (by simp [NoBlank])

theorem allBlank_append {first second : List Char} (left : AllBlank first)
    (right : AllBlank second) : AllBlank (first ++ second) := by
  intro c member
  exact (List.mem_append.mp member).elim (left c) (right c)

theorem AllBlank.not_mem {gap : List Char} (blank : AllBlank gap) {c : Char}
    (solid : isBlank c = false) : c ∉ gap := by
  intro member
  rw [blank c member] at solid
  contradiction

/-- A list without an item goes on as long as the item does not come. -/
theorem bne_of_not_mem {α : Type} [DecidableEq α] {items : List α} {item : α}
    (absent : item ∉ items) : ∀ other ∈ items, (other != item) = true := by
  intro other member
  exact bne_iff_ne.mpr fun same => absent (same ▸ member)

/-- A run of items ends where the first other item stands. -/
theorem takeWhile_append_of_stops {α : Type} {keep : α → Bool} {run rest : List α}
    (kept : ∀ item ∈ run, keep item = true) (stops : rest.head?.any keep = false) :
    (run ++ rest).takeWhile keep = run := by
  rw [List.takeWhile_append_of_pos kept]
  cases rest with
  | nil => simp
  | cons item rest => simp_all

/-- So a text has one way to begin with a whole run. -/
theorem append_inj_of_stops {keep : Char → Bool} {run other rest otherRest : List Char}
    (kept : ∀ c ∈ run, keep c = true) (otherKept : ∀ c ∈ other, keep c = true)
    (stops : rest.head?.any keep = false) (otherStops : otherRest.head?.any keep = false)
    (same : run ++ rest = other ++ otherRest) : run = other ∧ rest = otherRest := by
  have runs : run = other := by
    rw [← takeWhile_append_of_stops kept stops, same, takeWhile_append_of_stops otherKept otherStops]
  exact ⟨runs, List.append_cancel_left (runs ▸ same)⟩

/-- A name is a letter, an underscore or a dollar sign and then any word characters and dollar
signs. -/
def IsName (name : List Char) : Prop :=
  ∃ first rest, name = first :: rest ∧ isNameStart first = true ∧ ∀ c ∈ rest, isNamePart c = true

/-- The code points of the blanks. -/
def blankCodes : List Nat :=
  [0x09, 0x0A, 0x0B, 0x0C, 0x0D, 0x20, 0x85, 0xA0, 0x1680, 0x2000, 0x2001, 0x2002, 0x2003, 0x2004,
   0x2005, 0x2006, 0x2007, 0x2008, 0x2009, 0x200A, 0x2028, 0x2029, 0x202F, 0x205F, 0x3000]

theorem toNat_mem_blankCodes {c : Char} (blank : isBlank c = true) : c.toNat ∈ blankCodes := by
  simp only [isBlank, Bool.or_eq_true, Bool.and_eq_true, decide_eq_true_eq, beq_iff_eq] at blank
  simp only [blankCodes, List.mem_cons, List.not_mem_nil, or_false]
  omega

theorem isNamePart_of_isBlank {c : Char} (blank : isBlank c = true) : isNamePart c = false := by
  have each : ∀ n ∈ blankCodes, isNamePart (Char.ofNat n) = false := by decide +kernel
  have known := each c.toNat (toNat_mem_blankCodes blank)
  rwa [Char.ofNat_toNat] at known

theorem isNamePart_of_isNameStart {c : Char} (start : isNameStart c = true) :
    isNamePart c = true := by
  simp only [isNameStart, Bool.or_eq_true, beq_iff_eq] at start
  rcases start with (isLetter | rfl) | rfl
  · have ascii : c.toNat < 0x80 := by
      have letter := isLetter
      change (decide (65 ≤ c.val ∧ c.val ≤ 90) ||
        (decide (97 ≤ c.val) && decide (c.val ≤ 122))) = true at letter
      simp only [Bool.or_eq_true, Bool.and_eq_true, decide_eq_true_eq,
        UInt32.le_iff_toNat_le] at letter
      change (65 ≤ c.toNat ∧ c.toNat ≤ 90) ∨ (97 ≤ c.toNat ∧ c.toNat ≤ 122) at letter
      omega
    simp [isNamePart, isWord, ascii, Char.isAlphanum, isLetter]
  · decide
  · decide

theorem not_isBlank_of_isNamePart {c : Char} (part : isNamePart c = true) : isBlank c = false :=
  Bool.eq_false_iff.mpr fun blank => by simp [isNamePart_of_isBlank blank] at part

/-- Every character of a name may continue one. -/
theorem IsName.parts {name : List Char} (isName : IsName name) {c : Char}
    (member : c ∈ name) : isNamePart c = true := by
  obtain ⟨first, rest, rfl, start, parts⟩ := isName
  rcases List.mem_cons.mp member with rfl | member
  · exact isNamePart_of_isNameStart start
  · exact parts c member

theorem IsName.not_mem {name : List Char} (isName : IsName name) {c : Char}
    (other : isNamePart c = false) : c ∉ name := by
  intro member
  rw [isName.parts member] at other
  contradiction

/-- No run of blanks goes on into a name. -/
theorem IsName.stops {name : List Char} (isName : IsName name) (rest : List Char) :
    (name ++ rest).head?.any isBlank = false := by
  obtain ⟨first, more, rfl, start, -⟩ := isName
  simpa using not_isBlank_of_isNamePart (isNamePart_of_isNameStart start)

/-- No name goes on into a gap or into what comes after it. -/
theorem AllBlank.stops {gap : List Char} (blank : AllBlank gap) {c : Char}
    (other : isNamePart c = false) (rest : List Char) :
    (gap ++ c :: rest).head?.any isNamePart = false := by
  cases gap with
  | nil => simpa using other
  | cons d gap => simpa using isNamePart_of_isBlank (blank d (List.mem_cons_self ..))

theorem AllBlank.stops_of_ne_nil {gap : List Char} (blank : AllBlank gap) (occupied : gap ≠ [])
    (rest : List Char) : (gap ++ rest).head?.any isNamePart = false := by
  cases gap with
  | nil => contradiction
  | cons d gap => simpa using isNamePart_of_isBlank (blank d (List.mem_cons_self ..))

theorem isName_iff {name : List Char} :
    IsName name ↔ name.head?.any isNameStart = true ∧ ∀ c ∈ name, isNamePart c = true := by
  constructor
  · intro isName
    refine ⟨?_, fun c => isName.parts⟩
    obtain ⟨first, rest, rfl, start, -⟩ := isName
    exact start
  · rintro ⟨start, parts⟩
    cases name with
    | nil => contradiction
    | cons first rest =>
      exact ⟨first, rest, rfl, start, fun c member => parts c (List.mem_cons_of_mem _ member)⟩

instance (name : List Char) : Decidable (IsName name) :=
  decidable_of_iff (name.head?.any isNameStart && name.all isNamePart) (by simp [isName_iff])

end ScriptDelta.Text
