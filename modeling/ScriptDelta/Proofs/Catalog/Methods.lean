import ScriptDelta.Proofs.Block.Nesting
import ScriptDelta.Proofs.Catalog.Layout

/-! # The methods of classes

The header of a method ends with the brace that opens the body, and what is filed as the body is the
block at the first brace of the header. These are the same brace unless the parameters of the method
have one, as those with defaults or patterns may (`method_bodies`). Where the brace of the body
counts in the block of the class, the body is a part of the class (`blocks_nest`).
-/

namespace ScriptDelta

open Text Header

namespace Block

/-- What comes after the text between the braces of a block. -/
theorem exists_endsBefore (place : Place) : ∃ later, EndsBefore place later := by
  have isolated := isolated_following place
  generalize found : following place = block at isolated
  cases isolated with
  | empty =>
    refine ⟨place.rest, [], ?_⟩
    rw [found]
    simp [interior, Span.interior, span, Block.inner]
  | @opened skipped body after closed absent split ends =>
    have start : (following place).inner <+: body := by
      rw [found]
      cases closed with
      | true => exact List.dropLast_prefix body
      | false => exact List.prefix_refl body
    obtain ⟨more, own⟩ := start
    refine ⟨more ++ after, endsBefore_of_rest_eq found ?_⟩
    rw [split, ← List.append_assoc, own]

end Block

namespace Header

/-- The text of a method header: nothing opens a block before the parameters, and after them only
the body is opened. -/
def Announces (method : Method) (header : List Char) : Prop :=
  ∃ front gap, header = front ++ (method.parameters ++ ')' :: (gap ++ ['\x7b'])) ∧
    '\x7b' ∉ front ∧ AllBlank gap

section

variable {place stop : Place} {method : Method}

theorem Announces.append {front header : List Char} (clear : '\x7b' ∉ front)
    (announces : Announces method header) : Announces method (front ++ header) := by
  obtain ⟨before, gap, rfl, clearBefore, blank⟩ := announces
  refine ⟨front ++ before, gap, (List.append_assoc ..).symm, ?_, blank⟩
  rw [List.mem_append, not_or]
  exact ⟨clear, clearBefore⟩

theorem announces_of_named? (read : named? place = some (method, stop)) :
    ∃ header, Announces method header ∧ place.Passes header stop := by
  simp only [named?, bind, Option.bind_eq_some_iff] at read
  obtain ⟨⟨name, after⟩, named, opened, isOpened, closed, isClosed, last, brace, made⟩ := read
  obtain ⟨rfl, rfl⟩ := Prod.mk.inj (Option.some.inj made)
  obtain ⟨isName, toName, -⟩ := Place.name?_eq_some_iff.mp named
  obtain ⟨space, spaceBlank, toSpace, -⟩ := Place.skipBlanks_eq_iff.mp (Eq.refl after.skipBlanks)
  have toParameters := toSpace.trans (Place.skip?_eq_some_iff.mp isOpened)
  have parameters :
      opened.Passes (opened.rest.takeWhile (· != ')')) (opened.skipWhile (· != ')')) :=
    ⟨List.takeWhile_append_dropWhile.symm, rfl⟩
  obtain ⟨gap, gapBlank, toGap, -⟩ := Place.skipBlanks_eq_iff.mp (Eq.refl closed.skipBlanks)
  have toBrace := (Place.skip?_eq_some_iff.mp isClosed).trans
    (toGap.trans (Place.skip?_eq_some_iff.mp brace))
  refine ⟨_, ⟨name ++ (space ++ "(".toList), gap, rfl, ?_, gapBlank⟩, ?_⟩
  · have notName : '\x7b' ∉ name := isName.not_mem (by decide)
    have notSpace : '\x7b' ∉ space := spaceBlank.not_mem (by decide)
    simp [notName, notSpace]
  · exact (toName.trans toParameters).trans (parameters.trans toBrace)

theorem announces_of_method? (read : method? place = some (method, stop)) :
    ∃ header, Announces method header ∧ place.Passes header stop := by
  rcases Option.or_eq_some_iff.mp read with marked | ⟨-, plain⟩
  · simp only [bind, Option.bind_eq_some_iff] at marked
    obtain ⟨word, isWord, first, isGap, named⟩ := marked
    obtain ⟨header, announces, passes⟩ := announces_of_named? named
    obtain ⟨gap, -, blank, toName, -⟩ := Place.skipBlanks?_eq_some_iff.mp isGap
    have toWord := Place.skip?_eq_some_iff.mp isWord
    exact ⟨_, (announces.append (blank.not_mem (by decide))).append (by decide),
      toWord.trans (toName.trans passes)⟩
  · exact announces_of_named? plain

end

end Header

/-- The header of a method that is found in a class of a text. -/
structure MethodHeader (text : List Char) where
  /-- Where the header of the class begins. -/
  place : Place
  container : String
  /-- Where the header of the method begins. -/
  start : Place
  method : Method
  /-- Where the header ends, after the brace that opens the body. -/
  stop : Place
  isClass : (place, container) ∈ occurrences class? (.start text)
  isMethod : (start, method) ∈ occurrences method?
    ⟨(Block.following place).interior.start, (Block.following place).inner⟩
  read : method? start.skipBlanks = some (method, stop)
  accepted : method.isDefinition = true

namespace MethodHeader

variable {text : List Char} (header : MethodHeader text)

/-- What is found at the header. -/
def finding : Finding :=
  ⟨header.place.seek header.start.offset,
    ⟨.method, some header.container, String.ofList header.method.name⟩⟩

/-- The offset of the brace that ends the header. -/
def brace : Nat :=
  header.stop.offset - 1

theorem finding_mem : header.finding ∈ Finding.ofClass header.place header.container := by
  refine List.mem_filterMap.mpr ⟨(header.start, header.method), header.isMethod, ?_⟩
  simp only [header.accepted, ↓reduceIte, finding]

/-- The methods of a text are what is found at such headers. -/
theorem mem_methods_iff {finding : Finding} :
    finding ∈ Finding.methods text ↔ ∃ header : MethodHeader text, header.finding = finding := by
  constructor
  · intro member
    obtain ⟨⟨place, container⟩, isClass, member⟩ := List.mem_flatMap.mp member
    obtain ⟨⟨start, method⟩, isMethod, made⟩ := List.mem_filterMap.mp member
    obtain ⟨-, stop, read⟩ := read_of_mem_occurrences isMethod
    simp only [Option.ite_none_right_eq_some, Option.some.injEq] at made
    obtain ⟨accepted, made⟩ := made
    exact ⟨⟨place, container, start, method, stop, isClass, isMethod, read, accepted⟩, made⟩
  · rintro ⟨header, rfl⟩
    exact List.mem_flatMap.mpr ⟨_, header.isClass, header.finding_mem⟩

/-- The header where it stands in the text, with what comes before and after it. -/
structure Stands (lead front gap more : List Char) : Prop where
  text_eq : text =
    lead ++ (front ++ (header.method.parameters ++ ')' :: (gap ++ '\x7b' :: more)))
  clear : '\x7b' ∉ front
  blank : AllBlank gap
  place_eq : header.finding.place =
    ⟨byteSize lead, front ++ (header.method.parameters ++ ')' :: (gap ++ '\x7b' :: more))⟩
  brace_eq : header.brace = byteSize (lead ++ (front ++ (header.method.parameters ++ ')' :: gap)))

theorem exists_stands : ∃ lead front gap more, header.Stands lead front gap more := by
  obtain ⟨⟨before, -, toClass⟩, -⟩ := read_of_mem_occurrences header.isClass
  obtain ⟨⟨inside, -, toStart⟩, -⟩ := read_of_mem_occurrences header.isMethod
  obtain ⟨later, ends⟩ := Block.exists_endsBefore header.place
  have sought := Finding.seek_of_mem ends header.isMethod
  obtain ⟨opened, toInner⟩ := ends
  obtain ⟨first, firstBlank, toWord, -⟩ :=
    Place.skipBlanks_eq_iff.mp (Eq.refl header.start.skipBlanks)
  obtain ⟨own, announces, toStop⟩ := announces_of_method? header.read
  obtain ⟨front, gap, whole, clear, blank⟩ :=
    announces.append (firstBlank.not_mem (by decide : isBlank '\x7b' = false))
  have rest : header.start.rest ++ later = front ++
      (header.method.parameters ++ ')' :: (gap ++ '\x7b' :: (header.stop.rest ++ later))) := by
    have passes := toWord.trans toStop
    rw [whole] at passes
    simp [passes.1]
  have offset : header.start.offset = byteSize (before ++ (opened ++ inside)) := by
    rw [toStart.2, toInner.2, toClass.2]
    simp [Place.start, Nat.add_assoc]
  have stop : header.stop.offset = header.start.offset + byteSize (first ++ own) :=
    (toWord.trans toStop).2
  refine ⟨before ++ (opened ++ inside), front, gap, header.stop.rest ++ later, ?_, clear, blank,
    ?_, ?_⟩
  · have isText : text = before ++ header.place.rest := toClass.1
    have inner : (Block.following header.place).inner = inside ++ header.start.rest := toStart.1
    rw [← rest]
    refine isText.trans ?_
    rw [toInner.1, inner]
    simp only [List.append_assoc]
  · rw [← rest, ← offset]
    exact sought
  · have size : byteSize ['\x7b'] = 1 := rfl
    rw [brace, stop, whole, offset]
    simp only [byteSize_append, byteSize_cons] at size ⊢
    omega

/-- The body begins at the first brace of the header. -/
theorem Stands.start_eq {header : MethodHeader text} {lead front gap more skipped rest : List Char}
    (stands : header.Stands lead front gap more) (clear : '\x7b' ∉ skipped)
    (split : front ++ (header.method.parameters ++ ')' :: (gap ++ '\x7b' :: more)) =
      skipped ++ '\x7b' :: rest) :
    header.finding.block.start = byteSize (lead ++ skipped) := by
  rw [Finding.block, stands.place_eq, split, Block.following_append clear, Block.start_following,
    byteSize_append]

theorem reaches_place : (Place.start text).Reaches header.place := by
  obtain ⟨⟨before, -, toClass⟩, -⟩ := read_of_mem_occurrences header.isClass
  exact toClass.reaches

theorem find_block_start : Block.find text header.finding.block.start = header.finding.block := by
  have reaches : (Place.start text).Reaches header.finding.place :=
    header.reaches_place.trans (header.place.reaches_seek _)
  rw [Finding.block, Block.following_eq_find reaches, Block.find_start]

/-- The brace that ends the header opens a block. -/
theorem start_find_brace : (Block.find text header.brace).start = header.brace := by
  obtain ⟨lead, front, gap, more, stands⟩ := header.exists_stands
  have whole : text =
      (lead ++ (front ++ (header.method.parameters ++ ')' :: gap))) ++ '\x7b' :: more :=
    stands.text_eq.trans (by simp)
  rw [stands.brace_eq]
  generalize lead ++ (front ++ (header.method.parameters ++ ')' :: gap)) = before at whole ⊢
  rw [whole, Block.find_eq_following, Block.start_following]

/-- Without a brace among the parameters the body is the block that the header announces. -/
theorem block_of_clear (clear : '\x7b' ∉ header.method.parameters) :
    header.finding.block = Block.find text header.brace := by
  obtain ⟨lead, front, gap, more, stands⟩ := header.exists_stands
  have notBefore : '\x7b' ∉ front ++ (header.method.parameters ++ ')' :: gap) := by
    have notGap : '\x7b' ∉ gap := stands.blank.not_mem (by decide)
    simp [stands.clear, clear, notGap]
  have split : front ++ (header.method.parameters ++ ')' :: (gap ++ '\x7b' :: more)) =
      (front ++ (header.method.parameters ++ ')' :: gap)) ++ '\x7b' :: more := by simp
  rw [stands.brace_eq, ← stands.start_eq notBefore split, header.find_block_start]

/-- The body begins at the first brace of the parameters, before the brace that ends the header. -/
def OpensEarly : Prop :=
  ∃ skipped others gap, header.method.parameters = skipped ++ '\x7b' :: others ∧
    '\x7b' ∉ skipped ∧ AllBlank gap ∧
      header.finding.block.start + byteSize ('\x7b' :: (others ++ ')' :: gap)) = header.brace

theorem opensEarly (member : '\x7b' ∈ header.method.parameters) : header.OpensEarly := by
  obtain ⟨lead, front, gap, more, stands⟩ := header.exists_stands
  obtain ⟨skipped, others, split, absent⟩ := List.eq_append_cons_of_mem member
  have notBefore : '\x7b' ∉ front ++ skipped := by simp [stands.clear, absent]
  have whole : front ++ (header.method.parameters ++ ')' :: (gap ++ '\x7b' :: more)) =
      (front ++ skipped) ++ '\x7b' :: (others ++ ')' :: (gap ++ '\x7b' :: more)) := by simp [split]
  refine ⟨skipped, others, gap, split, absent, stands.blank, ?_⟩
  rw [stands.start_eq notBefore whole, stands.brace_eq, split]
  simp only [byteSize_append, byteSize_cons]
  omega

theorem OpensEarly.start_lt {header : MethodHeader text} (early : header.OpensEarly) :
    header.finding.block.start < header.brace := by
  obtain ⟨skipped, others, gap, -, -, -, before⟩ := early
  have size := ('\x7b').utf8Size_pos
  rw [byteSize_cons] at before
  omega

/-- The methods of a text are what is found at the headers in its classes, and the body of each is a
block of the text. It is the block at the brace that ends the header exactly if the parameters have
no brace; otherwise it begins at the first brace of theirs. -/
theorem method_bodies (text : List Char) :
    (∀ finding, finding ∈ Finding.methods text ↔
      ∃ header : MethodHeader text, header.finding = finding) ∧
    ∀ header : MethodHeader text,
      Block.find text header.finding.block.start = header.finding.block ∧
      (Block.find text header.brace).start = header.brace ∧
      (header.finding.block = Block.find text header.brace ↔
        '\x7b' ∉ header.method.parameters) ∧
      ('\x7b' ∈ header.method.parameters → header.OpensEarly) := by
  refine ⟨fun _ => mem_methods_iff, fun header => ⟨header.find_block_start,
    header.start_find_brace, ⟨fun same member => ?_, header.block_of_clear⟩, header.opensEarly⟩⟩
  have before := (header.opensEarly member).start_lt
  rw [same, header.start_find_brace] at before
  exact Nat.lt_irrefl _ before

/-- A method with a plain parameter. -/
theorem method_bodies_plain :
    ∃ header : MethodHeader "class C \x7b m(a) \x7b x(); \x7d \x7d".toList,
      header.finding.block = ⟨15, "\x7b x(); \x7d".toList, true⟩ := by
  let header : MethodHeader "class C \x7b m(a) \x7b x(); \x7d \x7d".toList :=
    { place := ⟨0, "class C \x7b m(a) \x7b x(); \x7d \x7d".toList⟩
      container := "C"
      start := ⟨9, " m(a) \x7b x(); \x7d ".toList⟩
      method := ⟨"m".toList, "a".toList⟩
      stop := ⟨16, " x(); \x7d ".toList⟩
      isClass := by decide +kernel
      isMethod := by decide +kernel
      read := by decide +kernel
      accepted := by decide +kernel }
  have clear : '\x7b' ∉ "a".toList := by decide
  refine ⟨header, (((method_bodies _).2 header).2.2.1.mpr clear).trans ?_⟩
  decide +kernel

/-- The parameter is a pattern: what is filed is the pattern, and an edit of the method leaves no
trace. -/
theorem pattern_for_body :
    ¬ (∀ (text : List Char) (header : MethodHeader text),
        header.finding.block = Block.find text header.brace) ∧
      (Catalog.ofText "class C \x7b foo(\x7ba\x7d) \x7b x(); \x7d \x7d").rows =
        (Catalog.ofText "class C \x7b foo(\x7ba\x7d) \x7b y(); \x7d \x7d").rows := by
  let header : MethodHeader "class C \x7b foo(\x7ba\x7d) \x7b x(); \x7d \x7d".toList :=
    { place := ⟨0, "class C \x7b foo(\x7ba\x7d) \x7b x(); \x7d \x7d".toList⟩
      container := "C"
      start := ⟨9, " foo(\x7ba\x7d) \x7b x(); \x7d ".toList⟩
      method := ⟨"foo".toList, "\x7ba\x7d".toList⟩
      stop := ⟨20, " x(); \x7d ".toList⟩
      isClass := by decide +kernel
      isMethod := by decide +kernel
      read := by decide +kernel
      accepted := by decide +kernel }
  have differ : header.finding.block ≠
      Block.find "class C \x7b foo(\x7ba\x7d) \x7b x(); \x7d \x7d".toList header.brace := by
    decide +kernel
  exact ⟨fun always => differ (always _ header), by decide +kernel⟩

/-- In a class that has a block the body of a method begins behind the brace of the class. -/
theorem start_lt (opened : (Block.following header.place).text ≠ []) :
    (Block.following header.place).start < header.finding.block.start := by
  obtain ⟨later, ends⟩ := Block.exists_endsBefore header.place
  obtain ⟨⟨inside, -, toStart⟩, -⟩ := read_of_mem_occurrences header.isMethod
  obtain ⟨c, rest, own⟩ := List.exists_cons_of_ne_nil opened
  have interior := Block.interior_start own
  have behind := toStart.offset_le
  have sought : header.finding.place = _ := Finding.seek_of_mem ends header.isMethod
  obtain ⟨opening, ⟨skipped, toOpening⟩, start, -⟩ :=
    Block.exists_reaches_following header.finding.place
  have further := Place.Passes.offset_le toOpening
  rw [sought] at further
  rw [Finding.block, start]
  dsimp only at behind further
  omega

/-- The blocks at the braces that count in a block of a text are laminar. In particular a method
whose first brace counts in the block of its class ends with the class at the latest, and before it
if the class is closed. -/
theorem blocks_nest (text : List Char) :
    (∀ offset, (Block.find text offset).Laminar text) ∧
    ∀ (header : MethodHeader text) (depth : Nat),
      (Block.following header.place).Counts header.finding.block.start depth →
        header.finding.block.span.stop ≤ (Block.following header.place).span.stop ∧
          ((Block.following header.place).closed = true → header.finding.block.closed = true ∧
            header.finding.block.span.stop < (Block.following header.place).span.stop) := by
  refine ⟨Block.laminar_find text, fun header depth counts => ?_⟩
  have opened : (Block.following header.place).text ≠ [] := by
    obtain ⟨before, after, reader, own, -⟩ := counts
    simp [own]
  have inside := header.start_lt opened
  rw [Block.following_eq_find header.reaches_place] at counts inside ⊢
  have laminar := Block.laminar_find text header.place.offset
  rw [← header.find_block_start]
  exact ⟨(laminar.within counts).2, laminar.closed counts inside⟩

/-- A branch inside a block. -/
theorem blocks_nest_branch :
    (Block.find "\x7b if (a) \x7b b; \x7d \x7d".toList 0).Counts 9 1 ∧
      (Block.find "\x7b if (a) \x7b b; \x7d \x7d".toList 9).span.stop <
        (Block.find "\x7b if (a) \x7b b; \x7d \x7d".toList 0).span.stop := by
  have counts : (Block.find "\x7b if (a) \x7b b; \x7d \x7d".toList 0).Counts 9 1 :=
    ⟨"\x7b if (a) ".toList, " b; \x7d \x7d".toList, ⟨.code, 1⟩, by decide, by decide, by decide,
      .inl rfl, rfl⟩
  have laminar := (blocks_nest "\x7b if (a) \x7b b; \x7d \x7d".toList).1 0
  exact ⟨counts, (laminar.closed counts (by decide) (by decide)).2⟩

end MethodHeader

end ScriptDelta
