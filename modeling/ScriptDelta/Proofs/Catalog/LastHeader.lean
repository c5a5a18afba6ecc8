import ScriptDelta.Catalog
import ScriptDelta.Proofs.Block.Reading
import ScriptDelta.Proofs.Header.Separation
import ScriptDelta.Proofs.Place.Seeking

/-! # The last header of an identity

A header counts wherever it begins at the start of a line, with or without blanks in front. A search
finds every one of them in the order of the text, so its last finding of an identity is the last
header of the identity, and the block of the finding is the one that follows the parenthesis.
-/

namespace ScriptDelta

open Text Header

/-- The text ends with a header of the identity, which begins at the start of a line. -/
def EndsWithHeader (identity : Identity) (text : List Char) : Prop :=
  ∃ lines gap header, EndsLine lines ∧ AllBlank gap ∧ Form identity header ∧
    text = lines ++ (gap ++ header)

/-- The text up to its last header of the identity. -/
def LastHeader (identity : Identity) (text before : List Char) : Prop :=
  before <+: text ∧ EndsWithHeader identity before ∧
    ∀ other, other <+: text → EndsWithHeader identity other → other <+: before

/-- A header holds nothing but names, blanks and three other characters. -/
theorem Header.Form.not_mem {identity : Identity} {header : List Char}
    (form : Form identity header) {c : Char} (noPart : isNamePart c = false)
    (noBlank : isBlank c = false) (others : c ∉ ['.', '=', '(']) : c ∉ header := by
  have notGap {gap : List Char} (blank : AllBlank gap) : c ∉ gap := blank.not_mem noBlank
  have notName {name : List Char} (isName : IsName name) : c ∉ name := isName.not_mem noPart
  have notWord : c ∉ "function".toList := notName (by decide)
  simp only [List.mem_cons, List.not_mem_nil, or_false, not_or] at others
  have notAssignment {assignment : List Char} (form : Assignment assignment) : c ∉ assignment := by
    obtain ⟨before, middle, after, beforeBlank, middleBlank, afterBlank, rfl⟩ := form
    simp only [List.mem_append, List.mem_cons, List.not_mem_nil, notGap beforeBlank, others,
      notGap middleBlank, notWord, notGap afterBlank, or_self, not_false_eq_true]
  cases form with
  | function _ gap name space =>
    simp only [List.mem_append, List.mem_singleton, notWord, notGap gap, notName name,
      notGap space, others, or_self, not_false_eq_true]
  | prototype owner name assignment =>
    have notAccess : c ∉ '.' :: ("prototype".toList ++ ['.']) := by
      have notOwn : c ∉ "prototype".toList := notName (by decide)
      simp only [List.mem_cons, List.mem_append, List.not_mem_nil, notOwn, others, or_self,
        not_false_eq_true]
    have notAccess : c ∉ ".prototype.".toList := notAccess
    simp only [List.mem_append, notName owner, notAccess, notName name,
      notAssignment assignment, or_self, not_false_eq_true]
  | assigned owner name assignment =>
    have notPeriod : c ∉ ".".toList := fun member => others.1 (List.mem_singleton.mp member)
    simp only [List.mem_append, notName owner, notPeriod, notName name,
      notAssignment assignment, or_self, not_false_eq_true]

theorem Finding.mem_search_iff {read? : Place → Option (Identity × Place)} {text : List Char}
    {finding : Finding} :
    finding ∈ Finding.search read? text ↔
      (finding.place, finding.identity) ∈ occurrences read? (.start text) := by
  simp only [Finding.search, List.mem_map]
  constructor
  · rintro ⟨found, member, rfl⟩
    exact member
  · intro member
    exact ⟨_, member, rfl⟩

section

variable {read? : Place → Option (Identity × Place)} {kind : Kind} {text : List Char}

/-- What a search finds is the start of a header, and there is no brace up to its end. -/
theorem endsWithHeader_of_mem (reads : Reads read? kind) {start : Place} {identity : Identity}
    (member : (start, identity) ∈ occurrences read? (.start text)) :
    ∃ before lead stop, (Place.start text).Passes before stop ∧ EndsWithHeader identity before ∧
      read? start.skipBlanks = some (identity, stop) ∧ '\x7b' ∉ lead ∧
        start.Passes lead stop := by
  obtain ⟨⟨lines, endsLine, toLine⟩, stop, read⟩ := read_of_mem_occurrences member
  obtain ⟨gap, blank, toWord, -⟩ := Place.skipBlanks_eq_iff.mp (Eq.refl start.skipBlanks)
  obtain ⟨-, header, form, toStop⟩ := (reads _ _ _).mp read
  have clear : '\x7b' ∉ gap ++ header := by
    rw [List.mem_append, not_or]
    exact ⟨blank.not_mem (by decide), form.not_mem (by decide) (by decide) (by decide)⟩
  exact ⟨_, _, stop, toLine.trans (toWord.trans toStop),
    ⟨lines, gap, header, endsLine, blank, form, rfl⟩, read, clear, toWord.trans toStop⟩

/-- A search finds every header of its kind. -/
theorem mem_of_endsWithHeader (reads : Reads read? kind) {before : List Char} {stop : Place}
    {identity : Identity} (isKind : identity.kind = kind)
    (passes : (Place.start text).Passes before stop) (ends : EndsWithHeader identity before) :
    ∃ start, (start, identity) ∈ occurrences read? (.start text) ∧
      read? start.skipBlanks = some (identity, stop) := by
  obtain ⟨lines, gap, header, endsLine, blank, form, rfl⟩ := ends
  obtain ⟨line, toLine, passes⟩ := Place.Passes.append_iff.mp passes
  obtain ⟨word, toWord, toStop⟩ := Place.Passes.append_iff.mp passes
  have read : read? word = some (identity, stop) := (reads _ _ _).mpr ⟨isKind, header, form, toStop⟩
  have skipped : line.skipBlanks = word := by
    obtain ⟨first, rest, rfl, start⟩ := form.exists_start
    refine Place.skipBlanks_eq_iff.mpr ⟨gap, blank, toWord, ?_⟩
    simpa [toStop.1] using not_isBlank_of_isNamePart (isNamePart_of_isNameStart start)
  obtain ⟨start, member, same⟩ := mem_occurrences_of_read (endsInLine_of_reads reads)
    (standsAlone_of_reads reads) ⟨lines, endsLine, toLine⟩ (skipped ▸ read)
  exact ⟨start, member, by rw [same, skipped, read]⟩

theorem Finding.pairwise_search (reads : Reads read? kind) (text : List Char) :
    (search read? text).Pairwise fun earlier later =>
      ∃ stop, read? earlier.place.skipBlanks = some (earlier.identity, stop) ∧
        stop.offset ≤ later.place.offset :=
  List.pairwise_map.mpr (pairwise_occurrences (endsInLine_of_reads reads) _)

/-- No header of an identity ends beyond the last finding of the identity. -/
theorem offset_le_of_find? (reads : Reads read? kind) {identity : Identity}
    (isKind : identity.kind = kind) {finding : Finding}
    (found : (Finding.search read? text).reverse.find?
      (fun other => other.identity = identity) = some finding)
    {stop otherStop : Place} (read : read? finding.place.skipBlanks = some (identity, stop))
    {other : List Char} (passes : (Place.start text).Passes other otherStop)
    (ends : EndsWithHeader identity other) : otherStop.offset ≤ stop.offset := by
  obtain ⟨-, later, earlier, split, none⟩ := List.find?_eq_some_iff_append.mp found
  have order : Finding.search read? text = earlier.reverse ++ finding :: later.reverse := by
    simpa using congrArg List.reverse split
  obtain ⟨start, occurs, otherRead⟩ := mem_of_endsWithHeader reads isKind passes ends
  have member : ⟨start, identity⟩ ∈ Finding.search read? text := Finding.mem_search_iff.mpr occurs
  rw [order, List.mem_append, List.mem_cons] at member
  rcases member with before | same | after
  · have ordered := Finding.pairwise_search reads text
    rw [order] at ordered
    obtain ⟨middle, middleRead, bound⟩ :=
      (List.pairwise_append.mp ordered).2.2 _ before _ (List.mem_cons_self ..)
    rw [otherRead] at middleRead
    obtain ⟨-, rfl⟩ := Prod.mk.inj (Option.some.inj middleRead)
    obtain ⟨_, -, toWord, -⟩ := Place.skipBlanks_eq_iff.mp (Eq.refl finding.place.skipBlanks)
    obtain ⟨-, _, -, toStop⟩ := (reads _ _ _).mp read
    exact bound.trans (toWord.offset_le.trans toStop.offset_le)
  · rw [← same, otherRead] at read
    obtain ⟨-, rfl⟩ := Prod.mk.inj (Option.some.inj read)
    exact Nat.le_refl _
  · simpa using none _ (List.mem_reverse.mp after)

/-- The last finding of an identity is the last header of the identity. -/
theorem lastHeader_of_find? (reads : Reads read? kind) {identity : Identity}
    (isKind : identity.kind = kind) {finding : Finding}
    (found : (Finding.search read? text).reverse.find?
      (fun other => other.identity = identity) = some finding) :
    ∃ before, LastHeader identity text before ∧
      finding.definition = .ofBlock identity (.find text (byteSize before)) := by
  obtain rfl : finding.identity = identity := by simpa using List.find?_some found
  have member := List.mem_reverse.mp (List.mem_of_find?_eq_some found)
  rw [Finding.mem_search_iff] at member
  obtain ⟨before, leading, stop, passes, ends, read, clear, lead⟩ :=
    endsWithHeader_of_mem reads member
  refine ⟨before, ⟨⟨stop.rest, passes.1.symm⟩, ends, ?_⟩, ?_⟩
  · rintro other ⟨rest, whole⟩ otherEnds
    have otherPasses : (Place.start text).Passes other ⟨byteSize other, rest⟩ :=
      ⟨whole.symm, by simp [Place.start]⟩
    have bound := offset_le_of_find? reads isKind found read otherPasses otherEnds
    rcases otherPasses.linear passes with ⟨more, ahead, rfl⟩ | ⟨more, behind, rfl⟩
    · exact List.prefix_append ..
    · have grows := behind.2
      have nothing : byteSize more = 0 := by omega
      obtain rfl := byteSize_eq_zero_iff.mp nothing
      exact ⟨[], by simp⟩
  · obtain ⟨blockText, blockClosed⟩ := Block.following_of_passes clear lead
    have stopOffset : stop.offset = byteSize before := by simpa [Place.start] using passes.2
    rw [Block.find, ← stopOffset, Place.seek_of_reaches passes.reaches]
    simp [Finding.definition, Finding.block, Definition.ofBlock, blockText, blockClosed]

end

/-- There is one last header of an identity. -/
theorem LastHeader.unique {identity : Identity} {text before other : List Char}
    (last : LastHeader identity text before) (otherLast : LastHeader identity text other) :
    before = other :=
  (otherLast.2.2 before last.1 last.2.1).eq_of_length_le
    (last.2.2 other otherLast.1 otherLast.2.1).length_le

end ScriptDelta
