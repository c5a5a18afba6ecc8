import ScriptDelta.Proofs.Block.Lockstep
import ScriptDelta.Proofs.Catalog.Anchors
import ScriptDelta.Proofs.Catalog.Searches

/-! # Searching by slices

A text can be searched by looking for blocks in its bytes and cutting parts out of it between byte
offsets: the body of a definition between the ends of its block, and the text that the methods of a
class are looked for in between the braces of the class. A slice is not defined for every two
offsets, but for these it always is (`Block.inBounds_find`), so such a search never fails and finds
what is in the catalog of the text (`Catalog.cut?_eq`).
-/

namespace ScriptDelta

open Text Header

theorem Span.interior_within (span : Span) (closed : Bool) :
    span.start ≤ (span.interior closed).start ∧ (span.interior closed).stop ≤ span.stop := by
  rw [interior]
  split_ifs <;> simp

namespace Block

/-- The block and the part between its braces are slices of the text, and a brace is open all the
time while the block is read. If the block is closed, its first and last bytes are two braces. -/
structure InBounds (text : List Char) (block : Block) : Prop where
  span : IsSlice text block.span block.text
  interior : IsSlice text block.interior block.inner
  interior_within :
    block.span.start ≤ block.interior.start ∧ block.interior.stop ≤ block.span.stop
  depth_pos : ∀ part more, block.text = part ++ more → part ≠ [] → more ≠ [] →
    ∃ next, (⟨.code, 0⟩ : Reader).run part = some next ∧ 0 < next.depth
  closed : block.closed = true → block.span.start + 2 ≤ block.span.stop ∧
    (bytes text)[block.span.start]? = some (byteOf '\x7b') ∧
      (bytes text)[block.span.stop - 1]? = some (byteOf '\x7d')

/-- A block that is not empty begins with the byte of a brace. -/
theorem getElem?_start {text : List Char} {offset : Nat} (occupied : (find text offset).text ≠ []) :
    (bytes text)[(find text offset).start]? = some (byteOf '\x7b') := by
  have isolated : Isolated ((Place.start text).seek offset) (find text offset) :=
    isolated_following _
  obtain ⟨before, after, split, start⟩ := exists_slice text offset
  rw [isolated.text_eq_braces occupied] at split
  rw [start, split]
  exact (getElem?_bytes (by decide) before _).1

theorem inBounds_find (text : List Char) (offset : Nat) : (find text offset).InBounds text := by
  have isolated : Isolated ((Place.start text).seek offset) (find text offset) :=
    isolated_following _
  refine ⟨isSlice_of_slice? (slice?_span text offset), isSlice_of_slice? (slice?_interior text offset),
    Span.interior_within .., fun part more => isolated.exists_run, fun closed => ?_⟩
  have occupied : (find text offset).text ≠ [] := by
    intro empty
    rw [(isolated.of_text_eq_nil empty).1] at closed
    contradiction
  obtain ⟨before, after, split, start⟩ := exists_slice text offset
  have closer : (find text offset).closer = ['\x7d'] := if_pos closed
  have own := isolated.text_eq_braces occupied
  rw [closer] at own
  have size : byteSize (find text offset).text = 1 + byteSize (find text offset).inner + 1 := by
    rw [own, byteSize_cons, byteSize_append, ← Nat.add_assoc]
    rfl
  have stop : (find text offset).span.stop =
      byteSize (before ++ '\x7b' :: (find text offset).inner) + 1 := by
    rw [span, start, size, byteSize_append, byteSize_cons]
    rfl
  refine ⟨?_, getElem?_start occupied, ?_⟩
  · rw [span, size]
    dsimp only
    omega
  · have brace : IsAscii '\x7d' := by decide
    have whole : text = (before ++ '\x7b' :: (find text offset).inner) ++ '\x7d' :: after := by
      rw [own] at split
      simpa using split
    have last := (getElem?_bytes brace (before ++ '\x7b' :: (find text offset).inner) after).1
    rw [← whole] at last
    rw [stop, Nat.add_sub_cancel]
    exact last

/-- The search may begin inside a character, and a backslash may hide one of several bytes. -/
example : find "é\x7b\\é\x7d".toList 1 = ⟨2, "\x7b\\é\x7d".toList, true⟩ := by decide

end Block

/-- The definition whose header begins at an offset, with its body cut out of the text. -/
def Definition.cut? (text : List Char) (offset : Nat) (identity : Identity) :
    Option Definition := do
  let (span, closed) := Block.locate (bytes text) offset
  let body ← slice? text span
  return .ofBody identity identity.signature (String.ofList body) (!closed)

namespace Catalog

/-- The definitions whose headers stand for themselves. -/
def cutSearch? (read? : Place → Option (Identity × Place)) (text : List Char) :
    Option (List Definition) :=
  (occurrences read? (.start text)).mapM fun (place, identity) =>
    Definition.cut? text place.offset identity

/-- The methods of the class whose header begins at an offset. The text between the braces of the
class is cut out and searched by itself, and the bodies of the methods are cut out of the whole
text. -/
def cutClass? (text : List Char) (offset : Nat) (name : String) : Option (List Definition) := do
  let (span, closed) := Block.locate (bytes text) offset
  let interior := span.interior closed
  let part ← slice? text interior
  let headers := (occurrences method? (.start part)).filter fun (_, method) => method.isDefinition
  headers.mapM fun (start, method) =>
    Definition.cut? text (interior.start + start.offset)
      ⟨.method, some name, String.ofList method.name⟩

/-- The catalog of a text, made by slices. -/
def cut? (text : List Char) : Option Catalog := do
  let functions ← cutSearch? function? text
  let prototypes ← cutSearch? prototype? text
  let assigned ← cutSearch? assigned? text
  let methods ← (occurrences class? (.start text)).mapM fun (place, name) =>
    cutClass? text place.offset name
  return .ofList (functions ++ prototypes ++ assigned ++ methods.flatten)

end Catalog

/-- A list is read to its end if every item is read. -/
theorem mapM_eq_some {α β : Type} {read? : α → Option β} {value : α → β} {items : List α}
    (reads : ∀ item ∈ items, read? item = some (value item)) :
    items.mapM read? = some (items.map value) := by
  induction items with
  | nil => rfl
  | cons item items ih =>
    rw [List.mapM_cons, reads item (List.mem_cons_self ..),
      ih fun other member => reads other (.tail _ member)]
    rfl

section

variable {text : List Char}

theorem Definition.cut?_eq {place : Place} (reaches : (Place.start text).Reaches place)
    (identity : Identity) :
    Definition.cut? text place.offset identity =
      some (⟨place, identity⟩ : Finding).definition := by
  simp only [Definition.cut?, Block.locate_bytes, Block.slice?_span]
  rw [← Block.following_eq_find reaches]
  rfl

/-- The methods of a class are found where the headers are found in the text between its braces. -/
theorem Finding.ofClass_eq (place : Place) (name : String) :
    ofClass place name =
      ((occurrences method? (.start (Block.following place).inner)).filter
        fun (_, method) => method.isDefinition).map fun (start, method) =>
          ⟨place.seek (start.offset + (Block.following place).interior.start),
            ⟨.method, some name, String.ofList method.name⟩⟩ := by
  rw [ofClass, Block.occurrences_inner, List.filterMap_map, ← List.filterMap_eq_map',
    List.filterMap_filter]
  rfl

namespace Catalog

theorem cutSearch?_eq (read? : Place → Option (Identity × Place)) (text : List Char) :
    cutSearch? read? text = some ((Finding.search read? text).map Finding.definition) := by
  rw [Finding.search, List.map_map]
  refine mapM_eq_some ?_
  rintro ⟨place, identity⟩ member
  obtain ⟨⟨before, -, passes⟩, -⟩ := read_of_mem_occurrences member
  exact Definition.cut?_eq passes.reaches identity

theorem cutClass?_eq {place : Place} {name : String}
    (isClass : (place, name) ∈ occurrences class? (.start text)) :
    cutClass? text place.offset name =
      some ((Finding.ofClass place name).map Finding.definition) := by
  obtain ⟨⟨before, -, passes⟩, -⟩ := read_of_mem_occurrences isClass
  obtain ⟨behind, ends⟩ := Block.exists_endsBefore place
  have interior : (Block.find text place.offset).span.interior (Block.find text place.offset).closed =
      (Block.find text place.offset).interior := rfl
  simp only [cutClass?, Block.locate_bytes, interior, Block.slice?_interior, bind,
    Option.bind_some]
  rw [← Block.following_eq_find passes.reaches, Finding.ofClass_eq, List.map_map]
  refine mapM_eq_some ?_
  rintro ⟨start, method⟩ member
  have found : (start.shift (Block.following place).interior.start, method) ∈
      occurrences method? ⟨(Block.following place).interior.start, (Block.following place).inner⟩ := by
    rw [Block.occurrences_inner]
    exact List.mem_map_of_mem (List.mem_of_mem_filter member)
  have offset : (place.seek (start.offset + (Block.following place).interior.start)).offset =
      (Block.following place).interior.start + start.offset := by
    rw [Nat.add_comm (Block.following place).interior.start]
    exact congrArg Place.offset (Finding.seek_of_mem ends found)
  rw [← offset]
  exact Definition.cut?_eq (passes.reaches.trans (place.reaches_seek _)) _

/-- The catalog of a text has the definitions of everything found, filed in the order of
discovery. -/
theorem ofText_eq_ofList (text : String) :
    ofText text = .ofList ((Finding.all text.toList).map Finding.definition) := by
  rw [Table.ofList, List.foldl_map, ← file_empty_all]
  rfl

/-- A search by slices never fails and makes the catalog of the text. -/
theorem cut?_eq (text : String) : cut? text.toList = some (ofText text) := by
  have methods : (occurrences class? (.start text.toList)).mapM
      (fun (place, name) => cutClass? text.toList place.offset name) =
        some ((occurrences class? (.start text.toList)).map fun (place, name) =>
          (Finding.ofClass place name).map Finding.definition) :=
    mapM_eq_some fun _ member => cutClass?_eq member
  have found : (Finding.methods text.toList).map Finding.definition =
      ((occurrences class? (.start text.toList)).map fun (place, name) =>
        (Finding.ofClass place name).map Finding.definition).flatten := by
    rw [Finding.methods, List.map_flatMap, List.flatMap_def]
  simp only [cut?, cutSearch?_eq, methods, bind, Option.bind_some, pure, ofText_eq_ofList,
    Finding.all, List.map_append, found, Finding.functions, Finding.prototypes, Finding.assigned]

/-- Nothing is read out of range. Wherever a block is looked for, its span and its interior are
slices of the text; the walk over its bytes from its opening brace on stays in bounds and ends where
the block ends. So a search that cuts out every part that it reads comes to the catalog of the
text. -/
theorem reads_in_bounds (text : String) :
    (∀ offset, (Block.find text.toList offset).InBounds text.toList ∧
      Block.locate (bytes text.toList) offset =
        ((Block.find text.toList offset).span, (Block.find text.toList offset).closed) ∧
      ((Block.find text.toList offset).text ≠ [] → ∀ walker,
        Block.Walker.Reached (bytes text.toList) (Block.find text.toList offset).start walker →
          walker.InBounds (bytes text.toList) (Block.find text.toList offset).start)) ∧
    cut? text.toList = some (ofText text) := by
  refine ⟨fun offset => ⟨Block.inBounds_find .., Block.locate_bytes .., ?_⟩, cut?_eq text⟩
  intro occupied walker reached
  exact reached.inBounds (Block.getElem?_start occupied)

end Catalog

end

end ScriptDelta
