import ScriptLint.Text.OsString

/-!
# Paths

Paths as strings of the system: their parts, their parents and names joined to them. Nothing
here looks at what exists.

## Main definitions

* `Path.parts` — what stands between slashes
* `Path.parent?` — the path without its last component
* `Path.ancestors` — a path and its parents
* `Path.join` — a name in a directory
-/

namespace ScriptLint.Path

/-- The byte between two parts: a slash. -/
def separator : UInt8 := 0x2F

/-- What stands between slashes, empty parts included. -/
def parts (path : OsString) : List OsString :=
  go [] path.bytes
where
  /-- The parts of `part.reverse` and the bytes after it. -/
  go (part : List UInt8) : List UInt8 → List OsString
    | [] => [⟨part.reverse⟩]
    | b :: rest => if b = separator then ⟨part.reverse⟩ :: go [] rest else go (b :: part) rest

/-- Whether a path starts at the root. -/
def isAbsolute (path : OsString) : Bool := path.bytes.head? == some separator

/-- A part that names no component: an empty one, or a dot that is not the first. -/
def isIdle (part : OsString) : Bool := part == "" || part == "."

/-- Drops idle parts. -/
def dropIdle : List OsString → List OsString
  | [] => []
  | [first] => [first]
  | part :: rest => if isIdle part then dropIdle rest else part :: rest

/-- The parts of a path without its last component, for parts listed last first. The first
part of a path counts as a component unless it is empty. -/
def dropLast : List OsString → Option (List OsString)
  | [] => none
  | [first] => if first = "" then none else some [""]
  | part :: rest => if isIdle part then dropLast rest else some (dropIdle rest)

/-- **Parent**: the path without its last component. The empty path and the root have none. -/
def parent? (path : OsString) : Option OsString :=
  (dropLast (parts path).reverse).map fun (kept : List OsString) =>
    if kept = [("" : OsString)] then if isAbsolute path then "/" else ""
    else ⟨[separator].intercalate (kept.reverse.map (·.bytes))⟩

/-- A path and its parents, nearest first. `fuel` bounds their number. -/
def ancestorsWithin (fuel : Nat) (path : OsString) : List OsString :=
  match fuel, parent? path with
  | fuel + 1, some parent => path :: ancestorsWithin fuel parent
  | _, _ => [path]

/-- A path and its parents, nearest first. Each parent has a part less. -/
def ancestors (path : OsString) : List OsString := ancestorsWithin (parts path).length path

/-- The path of a name in a directory. -/
def join (directory name : OsString) : OsString :=
  if directory = "" ∨ directory.bytes.getLast? = some separator then directory ++ name
  else directory ++ "/" ++ name

end ScriptLint.Path
