import ScriptDelta.Proofs.Block.Extent
import ScriptDelta.Proofs.Catalog.Methods
import ScriptDelta.Proofs.Catalog.Recognition
import ScriptDelta.Proofs.Header.Classes
import ScriptDelta.Proofs.Header.Shift

/-! # Methods inside their classes

The block of a class begins at the brace that ends its header. The headers of methods are looked for
in the text between the braces of that block as if it stood alone, and their bodies in the whole
text. A header that is found in the part stands in the whole at the offset where the part begins and
its own offset there together (`MethodHeader.exists_anchored`), and the brace that opens the body is
in the part because it is in the header.
-/

namespace ScriptDelta

open Text Header

namespace Block

/-- A block at a brace begins with it. -/
theorem head?_following (offset : Nat) (rest : List Char) :
    (following ⟨offset, '\x7b' :: rest⟩).text.head? = some '\x7b' := by
  obtain ⟨body, after, closed, rfl, ends⟩ := Reader.exists_ends_opening rest
  rw [following_of_ends ends]
  rfl

/-- An offset lies between the braces of the block, behind the first character there. -/
def HasInside (block : Block) (offset : Nat) : Prop :=
  block.interior.start < offset ∧ offset < block.interior.stop

/-- Between the braces of a block the headers of methods are found where they are found when that
text stands alone, with the offset of the text added. -/
theorem occurrences_inner (block : Block) :
    occurrences method? ⟨block.interior.start, block.inner⟩ =
      (occurrences method? (.start block.inner)).map fun (start, method) =>
        (start.shift block.interior.start, method) := by
  rw [← occurrences_shift shifts_method?, Place.shift, Place.start, Nat.zero_add]

end Block

/-- The header of a class in a text: `front` is the header without the brace that ends it. -/
structure OpensClass (text : List Char) (place : Place) (name : String)
    (before front rest : List Char) : Prop where
  text_eq : text = before ++ (front ++ '\x7b' :: rest)
  endsLine : EndsLine before
  form : ∃ gap header, front ++ ['\x7b'] = gap ++ header ∧ AllBlank gap ∧ ClassForm name header
  place_eq : place = ⟨byteSize before, front ++ '\x7b' :: rest⟩
  read : class? place.skipBlanks = some (name, ⟨byteSize (before ++ front) + 1, rest⟩)
  /-- The block from the start of the header on begins at the brace that ends it. -/
  find_eq : Block.find text place.offset = Block.following place
  start_eq : (Block.following place).start = byteSize (before ++ front)
  head?_eq : (Block.following place).text.head? = some '\x7b'

/-- Every header of a class that is found is followed by a block at its brace. -/
theorem exists_opensClass {text : List Char} {place : Place} {name : String}
    (member : (place, name) ∈ occurrences class? (.start text)) :
    ∃ before front rest, OpensClass text place name before front rest := by
  obtain ⟨⟨before, endsLine, toPlace⟩, stop, read⟩ := read_of_mem_occurrences member
  obtain ⟨gap, blank, toWord, -⟩ := Place.skipBlanks_eq_iff.mp (Eq.refl place.skipBlanks)
  obtain ⟨header, form, toStop⟩ := classForm_of_class? read
  obtain ⟨front, rfl, clear⟩ := form.exists_front
  have noGap : '\x7b' ∉ gap := blank.not_mem (by decide)
  have clear : '\x7b' ∉ gap ++ front := by simp [noGap, clear]
  have passes := toWord.trans toStop
  rw [← List.append_assoc] at passes
  have offset : place.offset = byteSize before := toPlace.2.trans (Nat.zero_add _)
  have rest : place.rest = (gap ++ front) ++ '\x7b' :: stop.rest := by simpa using passes.1
  have isPlace : place = ⟨byteSize before, (gap ++ front) ++ '\x7b' :: stop.rest⟩ := by
    rw [← rest, ← offset]
  have isStop : stop = ⟨byteSize (before ++ (gap ++ front)) + 1, stop.rest⟩ := by
    have size : byteSize ['\x7b'] = 1 := rfl
    rw [byteSize_append, Nat.add_assoc, ← size, ← byteSize_append (gap ++ front), ← offset,
      ← passes.2]
  have opened : Block.following place =
      Block.following ⟨byteSize (before ++ (gap ++ front)), '\x7b' :: stop.rest⟩ := by
    rw [isPlace, Block.following_append clear, byteSize_append before]
  refine ⟨before, gap ++ front, stop.rest, ?_, endsLine, ⟨gap, front ++ ['\x7b'], ?_, blank, form⟩,
    isPlace, isStop ▸ read, (Block.following_eq_find toPlace.reaches).symm, ?_, ?_⟩
  · rw [← rest]
    exact toPlace.1
  · rw [List.append_assoc]
  · rw [opened, Block.start_following]
  · rw [opened, Block.head?_following]

namespace Header

variable {place stop : Place} {method : Method}

/-- The header of a method begins with a name or a word. -/
theorem isNameStart_of_method? (read : method? place = some (method, stop)) :
    place.rest.head?.any isNameStart = true := by
  rcases Option.or_eq_some_iff.mp read with marked | ⟨-, plain⟩
  · simp only [bind, Option.bind_eq_some_iff] at marked
    obtain ⟨word, isWord, -⟩ := marked
    rw [(Place.skip?_eq_some_iff.mp isWord).1]
    rfl
  · simp only [named?, bind, Option.bind_eq_some_iff] at plain
    obtain ⟨⟨name, after⟩, named, -⟩ := plain
    obtain ⟨⟨first, rest, rfl, start, -⟩, toName, -⟩ := Place.name?_eq_some_iff.mp named
    rw [toName.1]
    exact start

/-- So no brace stands in front of it. -/
theorem head?_ne_of_method? (read : method? place.skipBlanks = some (method, stop)) :
    place.rest.head? ≠ some '\x7b' := by
  obtain ⟨gap, blank, toWord, -⟩ := Place.skipBlanks_eq_iff.mp (Eq.refl place.skipBlanks)
  intro brace
  cases gap with
  | nil =>
    have start := isNameStart_of_method? read
    have same : place.rest = place.skipBlanks.rest := toWord.1
    rw [← same, brace] at start
    revert start
    decide
  | cons c gap =>
    rw [toWord.1] at brace
    obtain rfl : c = '\x7b' := Option.some.inj brace
    have absurd := blank _ (List.mem_cons_self ..)
    revert absurd
    decide

end Header

namespace MethodHeader

variable {text : List Char}

/-- The header of a method in the part of the text that it was found in, the text between the braces
of its class, and the same header in the whole text. -/
structure Anchored (header : MethodHeader text) (inside own later behind : List Char) : Prop where
  slice : slice? text (Block.following header.place).interior = some (inside ++ (own ++ later))
  inner_eq : (Block.following header.place).inner = inside ++ (own ++ later)
  /-- In that part alone the header is found at its offset there. -/
  isMatch : (⟨byteSize inside, own ++ later⟩, header.method) ∈
    occurrences method? (.start (inside ++ (own ++ later)))
  start_eq : header.start =
    ⟨(Block.following header.place).interior.start + byteSize inside, own ++ later⟩
  passes : header.start.Passes own header.stop
  /-- The same offset leads to the same header in the whole text. -/
  place_eq : header.finding.place = ⟨header.start.offset, own ++ (later ++ behind)⟩
  text_eq : ∃ lead, text = lead ++ (own ++ (later ++ behind)) ∧
    header.start.offset = byteSize lead
  find_eq : Block.find text header.start.offset = header.finding.block

variable (header : MethodHeader text)

theorem exists_anchored : ∃ inside own later behind, header.Anchored inside own later behind := by
  obtain ⟨⟨inside, -, toStart⟩, -⟩ := read_of_mem_occurrences header.isMethod
  obtain ⟨behind, ends⟩ := Block.exists_endsBefore header.place
  obtain ⟨gap, -, toWord, -⟩ := Place.skipBlanks_eq_iff.mp (Eq.refl header.start.skipBlanks)
  obtain ⟨word, -, toStop⟩ := announces_of_method? header.read
  have passes := toWord.trans toStop
  have inner : (Block.following header.place).inner =
      inside ++ ((gap ++ word) ++ header.stop.rest) := by
    rw [← passes.1]
    exact toStart.1
  have place : header.finding.place =
      ⟨header.start.offset, (gap ++ word) ++ (header.stop.rest ++ behind)⟩ := by
    rw [← List.append_assoc, ← passes.1]
    exact Finding.seek_of_mem ends header.isMethod
  have reaches : (Place.start text).Reaches header.finding.place :=
    header.reaches_place.trans (header.place.reaches_seek _)
  have start : header.start = ⟨(Block.following header.place).interior.start + byteSize inside,
      (gap ++ word) ++ header.stop.rest⟩ := by
    have offset : header.start.offset =
        (Block.following header.place).interior.start + byteSize inside := toStart.2
    rw [← passes.1, ← offset]
  refine ⟨inside, gap ++ word, header.stop.rest, behind, ?_, inner, ?_, start, passes, place, ?_,
    ?_⟩
  · rw [Block.following_eq_find header.reaches_place, Block.slice?_interior,
      ← Block.following_eq_find header.reaches_place, inner]
  · have member := header.isMethod
    rw [Block.occurrences_inner, inner] at member
    obtain ⟨⟨⟨offset, rest⟩, method⟩, found, same⟩ := List.mem_map.mp member
    obtain ⟨moved, rfl⟩ := Prod.mk.inj same
    obtain ⟨sum, rfl⟩ := Place.mk.inj (moved.trans start)
    obtain rfl : offset = byteSize inside := by
      dsimp only at sum
      omega
    exact found
  · obtain ⟨lead, split, offset⟩ := reaches
    rw [place] at split offset
    exact ⟨lead, split, offset.trans (Nat.zero_add _)⟩
  · rw [Finding.block, Block.following_eq_find reaches, place]

variable {header}

/-- The body begins at a brace in the header, and not with the header itself. -/
theorem Anchored.exists_brace {inside own later behind : List Char}
    (anchored : header.Anchored inside own later behind) :
    ∃ skipped rest, own = skipped ++ '\x7b' :: rest ∧ skipped ≠ [] ∧
      header.finding.block.start = header.start.offset + byteSize skipped ∧
        header.finding.block.text.head? = some '\x7b' := by
  obtain ⟨gap, blank, toWord, -⟩ :=
    Place.skipBlanks_eq_iff.mp (Eq.refl header.start.skipBlanks)
  obtain ⟨word, ⟨front, space, rfl, -⟩, toStop⟩ := announces_of_method? header.read
  have isOwn : own = gap ++ (front ++ (header.method.parameters ++ ')' :: (space ++ ['\x7b']))) := by
    have same := (toWord.trans toStop).1
    rw [anchored.passes.1] at same
    exact List.append_cancel_right same
  have member : '\x7b' ∈ own := by simp [isOwn]
  obtain ⟨skipped, rest, split, clear⟩ := List.eq_append_cons_of_mem member
  have block : header.finding.block =
      Block.following ⟨header.start.offset + byteSize skipped,
        '\x7b' :: (rest ++ (later ++ behind))⟩ := by
    rw [Finding.block, anchored.place_eq, split, List.append_assoc, List.cons_append,
      Block.following_append clear]
  refine ⟨skipped, rest, split, ?_, ?_, ?_⟩
  · rintro rfl
    apply head?_ne_of_method? header.read
    rw [anchored.passes.1, split]
    rfl
  · rw [block, Block.start_following]
  · rw [block, Block.head?_following]

/-- The body of a method begins between the braces of its class. -/
theorem hasInside_start (header : MethodHeader text) :
    (Block.following header.place).HasInside header.finding.block.start := by
  obtain ⟨inside, own, later, behind, anchored⟩ := header.exists_anchored
  obtain ⟨skipped, rest, rfl, occupied, start, -⟩ := anchored.exists_brace
  have inner := anchored.inner_eq
  have notEmpty : (Block.following header.place).text ≠ [] := by
    intro empty
    rw [((Block.isolated_following _).of_text_eq_nil empty).2.2] at inner
    simp at inner
  have interior := (Block.isolated_following header.place).interior_eq notEmpty
  have offset : header.start.offset = _ := congrArg Place.offset anchored.start_eq
  have more : byteSize skipped ≠ 0 := fun none => occupied (byteSize_eq_zero_iff.mp none)
  have brace := ('\x7b').utf8Size_pos
  dsimp only at offset
  rw [Block.HasInside, start, offset, interior, inner]
  simp only [byteSize_append, byteSize_cons]
  omega

/-- The block of a class begins at the brace that ends the header of the class. A header of a method
that is found between the braces of a class stands at the same offset in the whole text, and the body
found there begins with a brace between the braces of the class. So every method in the catalog of a
text comes from such a header, in a class whose header names what the method belongs to. -/
theorem methods_anchored (text : String) :
    (∀ place name, (place, name) ∈ occurrences class? (.start text.toList) →
      ∃ before front rest, OpensClass text.toList place name before front rest) ∧
    (∀ header : MethodHeader text.toList,
      (∃ inside own later behind, header.Anchored inside own later behind) ∧
      header.finding.definition.body.toList.head? = some '\x7b' ∧
      (Block.following header.place).HasInside header.finding.block.start) ∧
    ∀ key definition, (Catalog.ofText text).get? key = some definition →
      definition.kind = .method →
        ∃ header : MethodHeader text.toList, definition = header.finding.definition ∧
          definition.container = some header.container ∧
          (∃ before front rest,
            OpensClass text.toList header.place header.container before front rest) ∧
          definition.body.toList.head? = some '\x7b' ∧
          slice? text.toList header.finding.block.span = some definition.body.toList ∧
          (Block.following header.place).HasInside header.finding.block.start := by
  have opens (header : MethodHeader text.toList) :
      header.finding.definition.body.toList = header.finding.block.text ∧
        header.finding.definition.body.toList.head? = some '\x7b' := by
    have body : header.finding.definition.body.toList = header.finding.block.text :=
      String.toList_ofList
    obtain ⟨inside, own, later, behind, anchored⟩ := header.exists_anchored
    obtain ⟨-, -, -, -, -, head⟩ := anchored.exists_brace
    exact ⟨body, body ▸ head⟩
  refine ⟨fun place name => exists_opensClass, fun header =>
    ⟨header.exists_anchored, (opens header).2, header.hasInside_start⟩, ?_⟩
  intro key definition found isMethod
  obtain ⟨finding, member, -, rfl⟩ := Catalog.exists_finding_of_get? found
  have own := Finding.mem_ofKind member
  have kind : finding.identity.kind = .method := isMethod
  rw [kind] at own
  obtain ⟨header, rfl⟩ := mem_methods_iff.mp own
  refine ⟨header, rfl, rfl, exists_opensClass header.isClass, (opens header).2, ?_,
    header.hasInside_start⟩
  rw [← header.find_block_start, Block.slice?_span, header.find_block_start, (opens header).1]

/-- A method whose parameters go on in the next line, in a class that is not closed. -/
theorem methods_anchored_unclosed :
    ∃ header : MethodHeader "class A extends B.C \x7b\n m(a,\n b) \x7b\n x".toList,
      header.finding.block = ⟨32, "\x7b\n x".toList, false⟩ ∧
        (Block.following header.place).HasInside 32 := by
  let header : MethodHeader "class A extends B.C \x7b\n m(a,\n b) \x7b\n x".toList :=
    { place := ⟨0, "class A extends B.C \x7b\n m(a,\n b) \x7b\n x".toList⟩
      container := "A"
      start := ⟨21, "\n m(a,\n b) \x7b\n x".toList⟩
      method := ⟨"m".toList, "a,\n b".toList⟩
      stop := ⟨33, "\n x".toList⟩
      isClass := by decide +kernel
      isMethod := by decide +kernel
      read := by decide +kernel
      accepted := by decide +kernel }
  have block : header.finding.block = ⟨32, "\x7b\n x".toList, false⟩ := by decide +kernel
  have inside := ((methods_anchored "class A extends B.C \x7b\n m(a,\n b) \x7b\n x").2.1 header).2.2
  rw [block] at inside
  exact ⟨header, block, inside⟩

end MethodHeader

end ScriptDelta
