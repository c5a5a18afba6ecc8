import ScriptDelta.Block
import ScriptDelta.Text.Digest

/-! # Definitions

A definition is a function-like piece of a script: a free function, a method added to a prototype,
a function assigned to a member, or a method of a class. Its identity is what its header names, and
its key is the identity written as one text. What two versions of a definition are compared by is
the digest of the body.
-/

namespace ScriptDelta

/-- The four ways to define a function. -/
inductive Kind where
  /-- A function declaration. -/
  | function
  /-- A function assigned to a member of a prototype. -/
  | prototype
  /-- A function assigned to a member of an object. -/
  | assigned
  /-- A method in the body of a class. -/
  | method
deriving DecidableEq

/-- The name of the kind in reports. -/
def Kind.label : Kind → String
  | .function => "function"
  | .prototype => "prototype"
  | .assigned => "assign"
  | .method => "class"

/-- The word that keys of the kind begin with. -/
def Kind.keyWord : Kind → String
  | .function => "function"
  | .prototype => "proto"
  | .assigned => "assign"
  | .method => "class"

/-- What the header of a definition names. -/
structure Identity where
  kind : Kind
  /-- The class or object that the definition belongs to. -/
  container : Option String
  name : String
deriving DecidableEq

namespace Identity

/-- The key of every definition with this identity. -/
def key (identity : Identity) : String :=
  match identity.container with
  | some container => identity.kind.keyWord ++ ":" ++ container ++ "." ++ identity.name
  | none => identity.kind.keyWord ++ ":" ++ identity.name

/-- The header as a reader would write it, parameters and body left out. -/
def signature (identity : Identity) : String :=
  let container := identity.container.getD ""
  match identity.kind with
  | .function => "function " ++ identity.name ++ "(...)"
  | .prototype => container ++ ".prototype." ++ identity.name ++ " = function(...)"
  | .assigned => container ++ "." ++ identity.name ++ " = function(...)"
  | .method => "class " ++ container ++ " \x7b " ++ identity.name ++ "(...) \x7b...\x7d \x7d"

end Identity

/-- A definition with its body. -/
structure Definition extends Identity where
  /-- The header as shown to a reader; it takes no part in comparisons. -/
  signature : String
  /-- The content digest of the body. -/
  digest : String
  /-- The text ended before the body was closed. -/
  truncated : Bool
  body : String
deriving DecidableEq

namespace Definition

/-- The key under which the definition is filed. -/
def key (definition : Definition) : String :=
  definition.toIdentity.key

/-- A definition with the digest that belongs to its body. -/
def ofBody (identity : Identity) (signature : String) (body : String) (truncated : Bool) :
    Definition :=
  { toIdentity := identity, signature, digest := Text.contentDigest body, truncated, body }

/-- The definition whose body is a block. -/
def ofBlock (identity : Identity) (block : Block) : Definition :=
  ofBody identity identity.signature (String.ofList block.text) (!block.closed)

end Definition

end ScriptDelta
