import ScriptDelta.Proofs.Report.Brief
import ScriptDelta.Proofs.Text.NameChar

/-! # Reading a brief

Outside its fences a brief tells its reader something line by line: the counts at the top, the
headings of the sections, the definitions that a section lists, and how many more it would have to
list (`telling?`). Fences tell nothing. What some lines tell does not depend on the lines after them
(`Tells`), so a brief is read part by part. A section is what is told under its heading up to the
next one, and lists the entries of its sort wherever it stands (`lists_of_section`).
-/

namespace ScriptDelta.Report

/-- What a line of a brief tells. -/
inductive Telling where
  /-- There are so many keys of the sort that the title names. -/
  | count (title : String) (number : Nat)
  /-- The section with the title begins. -/
  | heading (title : String)
  /-- The line lists a definition. -/
  | entry (line : String)
  /-- So many definitions more are not listed. -/
  | more (number : Nat)
deriving DecidableEq

namespace Telling

/-- A line begins a section. -/
def isHeading : Telling → Bool
  | heading _ => true
  | _ => false

/-- How many definitions are listed and left out together. -/
def amount : List Telling → Nat
  | [] => 0
  | entry _ :: told => amount told + 1
  | more number :: told => amount told + number
  | _ :: told => amount told

theorem amount_entries (lines : List String) (told : List Telling) :
    amount (lines.map entry ++ told) = lines.length + amount told := by
  induction lines with
  | nil => simp
  | cons line lines ih =>
    rw [List.map_cons, List.cons_append, amount, ih, List.length_cons]
    omega

end Telling

/-- The number that stands between two texts. -/
def numberBetween? (front back text : List Char) : Option Nat := do
  let rest ← front.isPrefixOf? text
  let digits := rest.takeWhile Char.isDigit
  if digits ≠ [] ∧ rest = digits ++ back then some (Nat.ofDigitChars 10 digits 0) else none

/-- The characters of a line, up to a line feed. -/
def visible (line : String) : List Char :=
  line.toList.takeWhile (· != '\n')

/-- What a line tells, if anything. -/
def telling? (line : String) : Option Telling :=
  match visible line with
  | '#' :: '#' :: ' ' :: title => some (.heading (String.ofList title))
  | '-' :: ' ' :: '\x60' :: _ => some (.entry line)
  | '-' :: ' ' :: '…' :: rest => (numberBetween? " (+".toList " more)".toList rest).map .more
  | '-' :: ' ' :: rest =>
    let title := rest.takeWhile (· != ':')
    (numberBetween? (title ++ ": **".toList) "**".toList rest).map (.count (String.ofList title))
  | _ => none

theorem numberBetween?_toDigits (front : List Char) {back : List Char}
    (stops : back.head?.any Char.isDigit = false) (number : Nat) :
    numberBetween? front back (front ++ (Nat.toDigits 10 number ++ back)) = some number := by
  have digits : ∀ c ∈ Nat.toDigits 10 number, c.isDigit = true := fun c member =>
    Nat.isDigit_of_mem_toDigits (by decide) (by decide) member
  have found : front.isPrefixOf? (front ++ (Nat.toDigits 10 number ++ back)) =
      some (Nat.toDigits 10 number ++ back) := List.isPrefixOf?_eq_some_iff_append_eq.mpr rfl
  rw [numberBetween?, found]
  simp only [bind, Option.bind_some, Text.takeWhile_append_of_stops digits stops]
  simp

/-- The line that counts the keys of a sort. -/
def countLine (title : String) (number : Nat) : String :=
  "- " ++ title ++ ": **" ++ toString number ++ "**"

theorem feed_not_mem_countLine {title : String} (noFeed : '\n' ∉ title.toList) (number : Nat) :
    '\n' ∉ (countLine title number).toList := by
  simp [countLine, String.toList_append, feed_not_mem_toDigits, noFeed]

section telling

variable {line : String} {tail : String}

/-- A line is visible up to the line feed at its end. -/
theorem visible_append (noFeed : '\n' ∉ line.toList)
    (ends : tail.toList.head?.any (· != '\n') = false) : visible (line ++ tail) = line.toList := by
  rw [visible, String.toList_append]
  exact Text.takeWhile_append_of_stops (Text.bne_of_not_mem noFeed) ends

theorem telling?_heading {title : String} (noFeed : '\n' ∉ title.toList)
    (ends : tail.toList.head?.any (· != '\n') = false) :
    telling? ("## " ++ title ++ tail) = some (.heading title) := by
  have whole : visible ("## " ++ title ++ tail) = '#' :: '#' :: ' ' :: title.toList := by
    rw [visible_append (by simp [String.toList_append, noFeed]) ends, String.toList_append]
    rfl
  simp [telling?, whole]

theorem telling?_entry (start : line.toList.take 3 = ['-', ' ', '\x60']) :
    telling? line = some (.entry line) := by
  have chars : line.toList = '-' :: ' ' :: '\x60' :: line.toList.drop 3 := by
    rw [← List.take_append_drop 3 line.toList, start]
    rfl
  have shown : visible line =
      '-' :: ' ' :: '\x60' :: (line.toList.drop 3).takeWhile (· != '\n') := by
    rw [visible, chars]
    rfl
  simp [telling?, shown]

theorem telling?_more (number : Nat) :
    telling? ("- … (+" ++ toString number ++ " more)") = some (.more number) := by
  have noFeed : '\n' ∉ ("- … (+" ++ toString number ++ " more)").toList := by
    simp [String.toList_append, feed_not_mem_toDigits]
  have whole : visible ("- … (+" ++ toString number ++ " more)" ++ "") =
      '-' :: ' ' :: '…' :: (" (+".toList ++ (Nat.toDigits 10 number ++ " more)".toList)) := by
    rw [visible_append noFeed rfl]
    simp [String.toList_append]
  rw [String.append_empty] at whole
  have read : numberBetween? " (+".toList " more)".toList
      (" (+".toList ++ (Nat.toDigits 10 number ++ " more)".toList)) = some number :=
    numberBetween?_toDigits _ (by decide) number
  rw [telling?, whole]
  simp only [read, Option.map_some]

/-- A point that is neither an entry nor about the entries left out is a count. -/
theorem telling?_of_visible {rest : List Char} (whole : visible line = '-' :: ' ' :: rest)
    (apart : rest.head? ≠ some '\x60' ∧ rest.head? ≠ some '…') :
    telling? line = (numberBetween? (rest.takeWhile (· != ':') ++ ": **".toList) "**".toList
      rest).map (.count (String.ofList (rest.takeWhile (· != ':')))) := by
  rw [telling?, whole]
  cases rest with
  | nil => rfl
  | cons c rest =>
    simp only [List.head?_cons, ne_eq, Option.some.injEq] at apart
    simp [apart]

/-- The title of a count ends before a colon and does not look like an entry. -/
theorem telling?_countLine {title : String} (noFeed : '\n' ∉ title.toList)
    (noColon : ':' ∉ title.toList)
    (apart : title.toList.head? ≠ some '\x60' ∧ title.toList.head? ≠ some '…')
    (ends : tail.toList.head?.any (· != '\n') = false) (number : Nat) :
    telling? (countLine title number ++ tail) = some (.count title number) := by
  have whole : visible (countLine title number ++ tail) =
      '-' :: ' ' :: (title.toList ++ ": **".toList ++ (Nat.toDigits 10 number ++ "**".toList)) := by
    rw [visible_append (feed_not_mem_countLine noFeed number) ends]
    simp [countLine, String.toList_append]
  have isTitle : (title.toList ++ ": **".toList ++
      (Nat.toDigits 10 number ++ "**".toList)).takeWhile (· != ':') = title.toList := by
    rw [List.append_assoc]
    exact Text.takeWhile_append_of_stops (Text.bne_of_not_mem noColon) rfl
  have read : numberBetween? (title.toList ++ ": **".toList) "**".toList
      (title.toList ++ ": **".toList ++ (Nat.toDigits 10 number ++ "**".toList)) = some number :=
    numberBetween?_toDigits _ (by decide) number
  rw [telling?_of_visible whole, isTitle, read, Option.map_some, String.ofList_toList]
  cases chars : title.toList with
  | nil => simp
  | cons c rest => simpa [chars] using apart

end telling

/-- What a piece tells, if anything. -/
def Piece.telling? : Piece → Option Telling
  | line text => Report.telling? text
  | fence _ => none

/-- What some lines tell, one after the other. -/
def outline? (lines : List String) : Option (List Telling) :=
  (pieces? none lines).map (·.filterMap Piece.telling?)

/-- Some lines tell this whatever lines come after them. -/
def Tells (lines : List String) (told : List Telling) : Prop :=
  ∀ rest, outline? (lines ++ rest) = (outline? rest).map (told ++ ·)

namespace Tells

variable {lines more : List String} {told further : List Telling}

theorem nil : Tells [] [] := by
  intro rest
  simp

theorem append (tells : Tells lines told) (tellsMore : Tells more further) :
    Tells (lines ++ more) (told ++ further) := by
  intro rest
  rw [List.append_assoc, tells, tellsMore, Option.map_map]
  simp only [Function.comp_def, List.append_assoc]

theorem flatMap {α : Type} {write : α → List String} {tell : α → List Telling} {items : List α}
    (tells : ∀ item ∈ items, Tells (write item) (tell item)) :
    Tells (items.flatMap write) (items.flatMap tell) := by
  induction items with
  | nil => exact nil
  | cons item items ih =>
    obtain ⟨here, further⟩ := List.forall_mem_cons.mp tells
    exact here.append (ih further)

theorem outline_eq (tells : Tells lines told) : outline? lines = some told := by
  have nothing : outline? [] = some [] := rfl
  rw [← List.append_nil lines, tells, nothing, Option.map_some, List.append_nil]

/-- A line that opens no fence tells what it tells by itself. -/
theorem of_ne_opening {text : String} (plain : text ≠ opening) :
    Tells [text] (telling? text).toList := by
  intro rest
  have noFence : opening ∉ [text] := by simpa using plain.symm
  rw [outline?, pieces?_lines noFence, Option.map_map, outline?, Option.map_map]
  congr 1
  funext pieces
  cases told : telling? text <;> simp [Piece.telling?, told]

theorem line {text : String} {telling : Telling} (told : telling? text = some telling) :
    Tells [text] [telling] := by
  have plain : text ≠ opening := by
    rintro rfl
    have silent : telling? opening = none := by decide
    simp [silent] at told
  simpa [told] using of_ne_opening plain

/-- A fence tells nothing. -/
theorem fence (inside : closing ∉ lines) : Tells (opening :: lines ++ [closing]) [] := by
  intro rest
  rw [List.append_assoc, List.singleton_append, outline?, pieces?_fence inside,
    Option.map_map, outline?, Option.map_map]
  rfl

example : outline? ["# a: x ↔ y\n", "- Changed: **2**\n", "## Changed\n", "- `f`", "", opening,
    "-- `g`", closing, "", "- … (+1 more)", ""] =
    some [.count "Changed" 2, .heading "Changed", .entry "- `f`", .more 1] := by decide +kernel

end Tells

/-- What is told under a heading, up to the next one. -/
def under (title : String) (told : List Telling) : List Telling :=
  ((told.dropWhile (· != .heading title)).drop 1).takeWhile (!·.isHeading)

/-- What the lines of a section tell after its heading. -/
def listing (entries : List String) (limit : Nat) : List Telling :=
  (entries.take limit).map .entry ++
    if limit < entries.length then [.more (entries.length - limit)] else []

/-- What the lines of a section tell. -/
def sectionTold (title : String) (entries : List String) (limit : Nat) : List Telling :=
  if entries = [] then [] else .heading title :: listing entries limit

/-- The lines of a brief count the entries of a sort and list as many as the limit allows. -/
structure Lists (told : List Telling) (title : String) (entries : List String)
    (count limit : Nat) : Prop where
  /-- The entries are counted, and there is no other count. -/
  counted : ∀ number, .count title number ∈ told ↔ number = count
  /-- There is one section if there is an entry, and else none. -/
  headed : told.count (.heading title) = if 0 < count then 1 else 0
  /-- The section lists the first entries and says how many more there are. -/
  shown : under title told = (entries.take (min count limit)).map .entry ++
    if limit < count then [.more (count - limit)] else []
  /-- The entries in the section and those left out are as many as are counted. -/
  total : Telling.amount (under title told) = count

section sections

variable {title : String} {entries : List String} {limit : Nat}

theorem of_mem_listing {telling : Telling} (member : telling ∈ listing entries limit) :
    (∃ line, telling = .entry line) ∨ ∃ number, telling = .more number := by
  obtain isEntry | isMore := List.mem_append.mp member
  · obtain ⟨line, -, rfl⟩ := List.mem_map.mp isEntry
    exact .inl ⟨line, rfl⟩
  · split at isMore
    · exact .inr ⟨_, List.mem_singleton.mp isMore⟩
    · contradiction

theorem heading_not_mem_listing (other : String) : .heading other ∉ listing entries limit := by
  intro member
  obtain ⟨_, _⟩ | ⟨_, _⟩ := of_mem_listing member <;> contradiction

theorem of_mem_sectionTold {telling : Telling}
    (member : telling ∈ sectionTold title entries limit) :
    telling = .heading title ∨ telling ∈ listing entries limit := by
  rw [sectionTold] at member
  split at member
  · contradiction
  · exact List.mem_cons.mp member

theorem count_not_mem_sectionTold (other : String) (number : Nat) :
    .count other number ∉ sectionTold title entries limit := by
  intro member
  obtain _ | inside := of_mem_sectionTold member
  · contradiction
  · obtain ⟨_, _⟩ | ⟨_, _⟩ := of_mem_listing inside <;> contradiction

theorem heading_not_mem_sectionTold {other : String} (apart : other ≠ title) :
    .heading other ∉ sectionTold title entries limit := by
  intro member
  obtain same | inside := of_mem_sectionTold member
  · exact apart (Telling.heading.inj same)
  · exact heading_not_mem_listing other inside

/-- After a section nothing comes but another heading. -/
theorem head?_sectionTold_append {rest : List Telling}
    (ends : rest.head?.all Telling.isHeading = true) :
    (sectionTold title entries limit ++ rest).head?.all Telling.isHeading = true := by
  rw [sectionTold]
  split
  · exact ends
  · rfl

theorem head?_sectionTold :
    (sectionTold title entries limit).head?.all Telling.isHeading = true := by
  rw [← List.append_nil (sectionTold title entries limit)]
  exact head?_sectionTold_append rfl

/-- The entries listed and left out are all entries. -/
theorem amount_listing : Telling.amount (listing entries limit) = entries.length := by
  rw [listing, Telling.amount_entries, List.length_take]
  split <;> simp only [Telling.amount] <;> omega

theorem under_of_not_mem {told : List Telling} (absent : .heading title ∉ told) :
    under title told = [] := by
  have nothing : told.dropWhile (· != .heading title) = [] :=
    List.dropWhile_eq_nil_iff.mpr (Text.bne_of_not_mem absent)
  rw [under, nothing]
  rfl

variable {front back : List Telling}

theorem under_append {inner : List Telling} (fresh : .heading title ∉ front)
    (plain : ∀ telling ∈ inner, telling.isHeading = false)
    (ends : back.head?.all Telling.isHeading = true) :
    under title (front ++ .heading title :: (inner ++ back)) = inner := by
  have start : (front ++ .heading title :: (inner ++ back)).dropWhile (· != .heading title) =
      .heading title :: (inner ++ back) := by
    rw [List.dropWhile_append_of_pos (Text.bne_of_not_mem fresh)]
    simp
  rw [under, start, List.drop_one, List.tail_cons]
  apply Text.takeWhile_append_of_stops
  · simpa using plain
  · cases back with
    | nil => rfl
    | cons telling back => simpa using ends

/-- A section lists its entries, wherever it stands. -/
theorem lists_of_section (fresh : .heading title ∉ front ++ back)
    (ends : back.head?.all Telling.isHeading = true)
    (counts : ∀ number, .count title number ∈ front ++ back ↔ number = entries.length) :
    Lists (front ++ sectionTold title entries limit ++ back) title entries entries.length
      limit := by
  have inFront : .heading title ∉ front := fun member => fresh (List.mem_append_left _ member)
  have inBack : .heading title ∉ back := fun member => fresh (List.mem_append_right _ member)
  have isListing : under title (front ++ sectionTold title entries limit ++ back) =
      listing entries limit := by
    rw [sectionTold]
    split
    next empty =>
      rw [List.append_nil, under_of_not_mem fresh, empty, listing, List.take_nil]
      rfl
    · rw [List.append_assoc, List.cons_append]
      apply under_append inFront _ ends
      intro telling member
      obtain ⟨_, rfl⟩ | ⟨_, rfl⟩ := of_mem_listing member <;> rfl
  refine ⟨?_, ?_, ?_, ?_⟩
  · intro number
    rw [← counts, List.mem_append, List.mem_append, List.mem_append,
      or_iff_left (count_not_mem_sectionTold title number)]
  · rw [List.count_append, List.count_append, List.count_eq_zero_of_not_mem inFront,
      List.count_eq_zero_of_not_mem inBack, sectionTold]
    split
    next empty => simp [empty]
    next solid =>
      rw [List.count_cons_self, List.count_eq_zero_of_not_mem (heading_not_mem_listing title),
        if_pos (List.length_pos_iff.mpr solid)]
  · rw [isListing, listing, Nat.min_comm, ← List.take_eq_take_min]
  · rw [isListing, amount_listing]

end sections

end ScriptDelta.Report
