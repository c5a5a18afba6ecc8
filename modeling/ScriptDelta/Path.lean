/-! # Paths

A path is kept as it was written. Its components are what the text names: a single slash at the
front is the root, further slashes and inner periods name nothing, and two paths are the same if
their components are.
-/

namespace ScriptDelta

/-- A path as written. -/
structure Path where
  text : String
deriving DecidableEq

namespace Path

/-- A step on the way that a path describes. -/
inductive Component where
  /-- The root directory. -/
  | root
  /-- The current directory, where the path begins with it. -/
  | here
  /-- The directory above. -/
  | up
  /-- A named file or directory. -/
  | name (text : String)
deriving DecidableEq

/-- The pieces between the slashes of a path. -/
def pieces (path : Path) : List String :=
  (path.text.toList.splitOnP (· == '/')).map String.ofList

/-- What a piece other than the first names. -/
def component? (piece : String) : Option Component :=
  if piece = "" ∨ piece = "." then none
  else if piece = ".." then some .up
  else some (.name piece)

/-- The path begins at the root. -/
def isAbsolute (path : Path) : Bool :=
  path.text.toList.head? == some '/'

/-- The steps of the path. -/
def components (path : Path) : List Component :=
  let lead :=
    if path.isAbsolute then [.root] else if path.pieces.head? = some "." then [.here] else []
  lead ++ path.pieces.filterMap component?

/-- The last component if it is a name, and otherwise the whole text. -/
def fileName (path : Path) : String :=
  match path.components.getLast? with
  | some (.name text) => text
  | _ => path.text

/-- The path `inner` as seen from the directory `outer`; an absolute path is the same from
everywhere. -/
def join (outer inner : Path) : Path :=
  if inner.isAbsolute then inner
  else if outer.text.isEmpty || outer.text.toList.getLast? == some '/' then
    ⟨outer.text ++ inner.text⟩
  else ⟨outer.text ++ "/" ++ inner.text⟩

/-- The text of a component. -/
def Component.text : Component → String
  | .root => "/"
  | .here => "."
  | .up => ".."
  | .name text => text

/-- The path with the given components. -/
def ofComponents (components : List Component) : Path :=
  match components with
  | .root :: rest => ⟨"/" ++ "/".intercalate (rest.map Component.text)⟩
  | components => ⟨"/".intercalate (components.map Component.text)⟩

/-- The paths of the directories that the path lies in, the nearest first. -/
def ancestors (path : Path) : List Path :=
  let components := path.components
  (List.range components.length).reverse.map (fun count => ofComponents (components.take count))
    |>.filter fun ancestor => !ancestor.text.isEmpty

end Path

end ScriptDelta
