import ScriptDelta.Proofs.Json.Token

/-! # Reading JSON

The tokens of a JSON text make a document if each of them may stand where it stands (`Parser`): a
comma only between two items or members, a colon only behind the name of a member, and nothing
behind the document. What is written for a document, in either layout, is read as that document
(`read?_write`); so different documents are written differently.
-/

namespace ScriptDelta.Json

/-- An array or an object around the value that is read. -/
inductive Frame where
  /-- An array with the items before the value, the last one in front. -/
  | array (items : List Json)
  /-- An object with the members before the value, the last one in front, and the name of the
  value. -/
  | object (members : List (String × Json)) (name : String)

/-- What may come next, and what it lies in, the innermost in front. -/
inductive Parser where
  /-- A value. -/
  | atValue (frames : List Frame)
  /-- The first item of an array, or its end. -/
  | inArray (frames : List Frame)
  /-- The name of the first member of an object, or its end. -/
  | inObject (frames : List Frame)
  /-- The name of another member. -/
  | atName (members : List (String × Json)) (frames : List Frame)
  /-- A colon. -/
  | behindName (members : List (String × Json)) (name : String) (frames : List Frame)
  /-- A comma, or the end of the array. -/
  | behindItem (items : List Json) (frames : List Frame)
  /-- A comma, or the end of the object. -/
  | behindMember (members : List (String × Json)) (frames : List Frame)
  /-- Nothing. -/
  | done (json : Json)

namespace Parser

/-- A value has been read. -/
def close : List Frame → Json → Parser
  | [], json => done json
  | .array items :: frames, json => behindItem (json :: items) frames
  | .object members name :: frames, json => behindMember ((name, json) :: members) frames

/-- Reads the first token of a value. -/
def open? (frames : List Frame) : Token → Option Parser
  | .text value => some (close frames (.text value))
  | .number value => some (close frames (.number value))
  | .flag value => some (close frames (.flag value))
  | .openArray => some (inArray frames)
  | .openObject => some (inObject frames)
  | _ => none

/-- Reads a token. -/
def step? : Parser → Token → Option Parser
  | atValue frames, token => open? frames token
  | inArray frames, .closeArray => some (close frames (.array []))
  | inArray frames, token => open? (.array [] :: frames) token
  | inObject frames, .closeObject => some (close frames (.object []))
  | inObject frames, .text name => some (behindName [] name frames)
  | atName members frames, .text name => some (behindName members name frames)
  | behindName members name frames, .colon => some (atValue (.object members name :: frames))
  | behindItem items frames, .comma => some (atValue (.array items :: frames))
  | behindItem items frames, .closeArray => some (close frames (.array items.reverse))
  | behindMember members frames, .comma => some (atName members frames)
  | behindMember members frames, .closeObject => some (close frames (.object members.reverse))
  | _, _ => none

/-- Reads some tokens. -/
def run (parser : Parser) (tokens : List Token) : Option Parser :=
  tokens.foldlM step? parser

/-- The document that has been read. -/
def done? : Parser → Option Json
  | done json => some json
  | _ => none

end Parser

/-- The document that a text is, in JSON. -/
def read? (text : String) : Option Json := do
  let tokens ← Lexer.lex .between text.toList
  let parser ← Parser.run (.atValue []) tokens
  parser.done?

namespace Parser

variable {parser next : Parser} {token : Token} {rest : List Token}

theorem run_cons (step : parser.step? token = some next) :
    parser.run (token :: rest) = next.run rest := by
  simp [run, step]

theorem run_append {first : List Token} (ran : parser.run first = some next) :
    parser.run (first ++ rest) = next.run rest := by
  rw [run, List.foldlM_append, ← run, ran]
  rfl

/-- The first item of an array is read like any other value, since no value begins with the end of
an array. -/
theorem run_inArray (frames : List Frame) (json : Json) :
    (inArray frames).run json.tokens = (atValue (.array [] :: frames)).run json.tokens := by
  unfold tokens
  split <;> rfl

mutual

/-- The tokens of a document are read as the document. -/
theorem run_tokens (frames : List Frame) (json : Json) :
    (atValue frames).run json.tokens = some (close frames json) := by
  match json with
  | .text _ | .number _ | .flag _ | .array [] | .object [] =>
    rw [tokens]
    rfl
  | .array (first :: items) =>
    have firstRead := (run_inArray frames first).trans (run_tokens _ first)
    rw [tokens, List.cons_append, List.cons_append, List.append_assoc, run_cons rfl,
      run_append firstRead, close, run_append (run_itemTokens [first] items frames), run_cons rfl]
    simp [run]
  | .object ((name, value) :: members) =>
    rw [tokens]
    simp only [List.cons_append, List.append_assoc]
    rw [run_cons rfl, run_cons rfl, run_cons rfl, run_append (run_tokens _ value), close,
      run_append (run_memberTokens [(name, value)] members frames), run_cons rfl]
    simp [run]

theorem run_itemTokens (items rest : List Json) (frames : List Frame) :
    (behindItem items frames).run (itemTokens rest) =
      some (behindItem (rest.reverse ++ items) frames) := by
  match rest with
  | [] => rfl
  | item :: rest =>
    rw [itemTokens, List.cons_append, run_cons rfl, run_append (run_tokens _ item), close,
      run_itemTokens (item :: items) rest frames, List.reverse_cons, List.append_assoc,
      List.singleton_append]

theorem run_memberTokens (members rest : List (String × Json)) (frames : List Frame) :
    (behindMember members frames).run (memberTokens rest) =
      some (behindMember (rest.reverse ++ members) frames) := by
  match rest with
  | [] => rfl
  | (name, value) :: rest =>
    rw [memberTokens]
    simp only [List.cons_append]
    rw [run_cons rfl, run_cons rfl, run_cons rfl, run_append (run_tokens _ value), close,
      run_memberTokens ((name, value) :: members) rest frames, List.reverse_cons,
      List.append_assoc, List.singleton_append]

end

end Parser

/-- What is written for a document is read as the document. -/
theorem read?_write (layout : Layout) (json : Json) :
    read? (String.ofList (write layout json)) = some json := by
  have lexed := Lexer.lex_write layout json [] (fun _ none => by simp at none)
  rw [List.append_nil] at lexed
  rw [read?, String.toList_ofList, lexed]
  simp [Lexer.lex, Lexer.finish?, Parser.run_tokens, Parser.close, Parser.done?]

example : read? "[1,]" = none ∧ read? "\x7b\"a\":1 \"b\":2\x7d" = none := by decide +kernel

/-- No object of the document has two members of one name. -/
inductive Distinct : Json → Prop where
  | text (value : String) : Distinct (.text value)
  | number (value : Nat) : Distinct (.number value)
  | flag (value : Bool) : Distinct (.flag value)
  | array {items : List Json} (inner : ∀ item ∈ items, Distinct item) : Distinct (.array items)
  | object {members : List (String × Json)} (names : (members.map Prod.fst).Nodup)
      (inner : ∀ member ∈ members, Distinct member.2) : Distinct (.object members)

end ScriptDelta.Json
