import ScriptLint.Workspace.Disk
import ScriptLint.Workspace.Path

/-!
# Trees

A working directory held in memory: its files, directories and symbolic links, and
how paths are followed in it.

## Main definitions

* `Entry` — a file, a directory or a link
* `Tree` — the entries of a working directory, by their components
* `Tree.find` — what a tree answers about paths, links followed
* `Tree.insert` — an entry at a path, with the directories above it
* `Tree.create`, `Tree.remove`, `Tree.write` — a new file in the working directory

## Design notes

Above the working directory there are only directories, of which nothing else is
known.
-/

namespace ScriptLint

/-- An entry of a directory. -/
inductive Entry
  /-- A regular file with its bytes. -/
  | file (content : ByteArray)
  /-- A directory. -/
  | directory
  /-- A symbolic link to a path. -/
  | link (target : OsString)

/-- The entries of a working directory, by their components. -/
structure Tree where
  /-- The entries, newest first. Every prefix of a list of components is a directory. -/
  entries : List (List OsString × Entry) := []

namespace Tree

/-- The entry with some components. The working directory itself is a directory. -/
def entry? (t : Tree) (components : List OsString) : Option Entry :=
  if components = [] then some .directory else t.entries.lookup components

/-- Removes the entry with some components. -/
def erase (t : Tree) (components : List OsString) : Tree :=
  ⟨t.entries.filter (·.1 != components)⟩

/-- Puts an entry in the place of the one with its components. -/
def put (t : Tree) (components : List OsString) (entry : Entry) : Tree :=
  ⟨(components, entry) :: (t.erase components).entries⟩

/-! ### Following paths -/

/-- A place that a path leads to. -/
inductive Place
  /-- The entry with some components. -/
  | inside (components : List OsString)
  /-- A directory above the working directory. -/
  | outside
deriving DecidableEq, Repr

/-- The entry at a place. -/
def entryAt? (t : Tree) : Place → Option Entry
  | .inside components => t.entry? components
  | .outside => some .directory

/-- Whether a directory stands at a place. -/
def isDirectory (t : Tree) (place : Place) : Bool :=
  match t.entryAt? place with
  | some .directory => true
  | _ => false

/-- The directory above a place. -/
def Place.up : Place → Place
  | inside [] => outside
  | inside components => inside components.dropLast
  | outside => outside

/-- The number of bytes that a component may have. -/
def maxNameBytes : Nat := 255

/-- The number of bytes that a path may have. -/
def maxPathBytes : Nat := 4095

/-- The number of links that a path may lead through. -/
def maxLinks : Nat := 40

/-- The place where a path starts. -/
def origin (path : OsString) (place : Place) : Place :=
  if Path.isAbsolute path then .outside else place

/-- The place to which the parts of a path lead, through at most `links` links. -/
def follow (t : Tree) (links : Nat) (place : Place) (parts : List OsString) :
    Except PathError Place :=
  match parts with
  | [] => .ok place
  | part :: rest =>
    if !t.isDirectory place then .error .notDirectory
    else if Path.isIdle part then t.follow links place rest
    else if part = ".." then t.follow links place.up rest
    else if part.bytes.length > maxNameBytes then .error .nameTooLong
    else
      match place with
      | .outside => .error .notFound
      | .inside components =>
        match t.entry? (components ++ [part]), links with
        | none, _ => .error .notFound
        | some (.link _), 0 => .error .linkLoop
        | some (.link target), links + 1 =>
          t.follow links (origin target place) (Path.parts target ++ rest)
        | some _, links => t.follow links (.inside (components ++ [part])) rest
termination_by (links, parts.length)

/-- The place to which a path leads, links followed. -/
def reach (t : Tree) (path : OsString) : Except PathError Place :=
  if path.bytes.contains 0 then .error .nullInName
  else if path = "" then .error .notFound
  else if path.bytes.length > maxPathBytes then .error .nameTooLong
  else t.follow maxLinks (origin path (.inside [])) (Path.parts path)

/-- What a tree answers about a path, links followed. -/
def find (t : Tree) : Lookup where
  metadata path :=
    match t.reach path with
    | .error cause => .error cause
    | .ok place =>
      match t.entryAt? place with
      | some (.file content) => .ok (.file content.size)
      | some .directory => .ok .directory
      | _ => .error .notFound
  read path :=
    match t.reach path with
    | .error cause => .error cause
    | .ok place =>
      match t.entryAt? place with
      | some (.file content) => .ok content
      | some .directory => .error .isDirectory
      | _ => .error .notFound

/-! ### Changes -/

/-- Goes from a place along parts, links followed, and makes the directories that are missing:
the tree and the place reached, if only directories are met. -/
def makeDirectories (t : Tree) (place : Place) : List OsString → Option (Tree × Place)
  | [] => some (t, place)
  | part :: rest =>
    if Path.isIdle part then t.makeDirectories place rest
    else if part = ".." then t.makeDirectories place.up rest
    else if part.bytes.length > maxNameBytes then none
    else
      match place with
      | .outside => none
      | .inside components =>
        let there := components ++ [part]
        match t.entry? there with
        | none => (t.put there .directory).makeDirectories (.inside there) rest
        | some .directory => t.makeDirectories (.inside there) rest
        | some (.file _) => none
        | some (.link target) =>
          match t.follow maxLinks (origin target place) (Path.parts target) with
          | .error _ => none
          | .ok linked => if t.isDirectory linked then t.makeDirectories linked rest else none

/-- Writes a file with a name into a directory. A link of that name is written through, along
at most `links` links. -/
def writeFile? (t : Tree) (links : Nat) (place : Place) (name : OsString) (content : ByteArray) :
    Option Tree :=
  if Path.isIdle name ∨ name = ".." ∨ name.bytes.length > maxNameBytes ∨ !t.isDirectory place then
    none
  else
    match place with
    | .outside => none
    | .inside components =>
      match t.entry? (components ++ [name]), links with
      | some .directory, _ => none
      | some (.link _), 0 => none
      | some (.link target), links + 1 =>
        let parts := Path.parts target
        match t.follow links (origin target place) parts.dropLast, parts.getLast? with
        | .ok place, some name => t.writeFile? links place name content
        | _, _ => none
      | _, _ => some (t.put (components ++ [name]) (.file content))

/-- Puts an entry into a directory under a name, if it may stand there: a file in the place of a
file, anything else where nothing stands. -/
def putNamed? (t : Tree) (place : Place) (name : OsString) : Entry → Option Tree
  | .file content => t.writeFile? maxLinks place name content
  | .directory => (t.makeDirectories place [name]).map (·.1)
  | .link target =>
    match place with
    | .outside => none
    | .inside components =>
      if (t.entry? (components ++ [name])).isSome then none
      else some (t.put (components ++ [name]) (.link target))

/-- Puts an entry at a path, and directories above it where nothing stands. Where it may not
stand the tree stays as it is. -/
def insert (t : Tree) (path : OsString) (entry : Entry) : Tree :=
  let components := (Path.parts path).filter fun part => !Path.isIdle part
  let inserted : Option Tree := do
    let name ← components.getLast?
    let (t, place) ← t.makeDirectories (.inside []) components.dropLast
    t.putNamed? place name entry
  inserted.getD t

/-! ### New files -/

/-- Why a change of the working directory is refused. -/
inductive Refusal
  /-- Something stands there. -/
  | alreadyExists
  /-- Nothing stands there. -/
  | notFound
  /-- A directory stands there. -/
  | isDirectory
deriving DecidableEq, Repr

/-- Makes a file in the working directory, where nothing stands. A link counts as what it is. -/
def create (t : Tree) (name : OsString) (content : ByteArray) : Except Refusal Tree :=
  match t.entry? [name] with
  | none => .ok (t.put [name] (.file content))
  | some _ => .error .alreadyExists

/-- Removes a file of the working directory, or a link. -/
def remove (t : Tree) (name : OsString) : Except Refusal Tree :=
  match t.entry? [name] with
  | none => .error .notFound
  | some .directory => .error .isDirectory
  | some _ => .ok (t.erase [name])

/-- Nothing stands where something has been removed. -/
theorem entry?_erase_self (t : Tree) (name : OsString) :
    Tree.entry? (t.erase [name]) [name] = none := by
  show (t.entries.filter (·.1 != [name])).lookup [name] = none
  rw [List.lookup_eq_none_iff]
  intro entry hentry
  rw [bne_comm]
  exact (List.mem_filter.mp hentry).2

/-- What cannot be made stands there already. -/
theorem isSome_of_create {t : Tree} {name : OsString} {content : ByteArray} {refusal : Refusal}
    (h : t.create name content = .error refusal) : (t.entry? [name]).isSome = true := by
  unfold create at h
  split at h
  · cases h
  · next hentry => rw [hentry]; rfl

/-- What is not found does not stand there. -/
theorem entry?_of_notFound {t : Tree} {name : OsString} (h : t.remove name = .error .notFound) :
    t.entry? [name] = none := by
  unfold remove at h
  split at h
  · assumption
  · cases h
  · cases h

/-- Where something could be removed it stood, and nothing stands any more. -/
theorem entry?_of_remove {t u : Tree} {name : OsString} (h : t.remove name = .ok u) :
    (t.entry? [name]).isSome = true ∧ u = t.erase [name] := by
  unfold remove at h
  split at h
  · cases h
  · cases h
  · next hentry => exact ⟨by rw [hentry]; rfl, (Except.ok.inj h).symm⟩

/-- Writes a new file into the working directory. What stands in its place is removed if
`replace`, and then it is tried again. -/
def write (t : Tree) (name : OsString) (content : ByteArray) (replace : Bool) :
    Except Refusal Tree :=
  match _hcreate : t.create name content with
  | .ok u => .ok u
  | .error .alreadyExists =>
    if replace then
      match _hremove : t.remove name with
      | .ok u => u.write name content replace
      | .error .notFound => t.write name content replace
      | .error refusal => .error refusal
    else .error .alreadyExists
  | .error refusal => .error refusal
termination_by if (t.entry? [name]).isSome then 1 else 0
decreasing_by
  · obtain ⟨hsome, rfl⟩ := entry?_of_remove _hremove
    rw [hsome, entry?_erase_self]
    exact Nat.one_pos
  · -- What stands in the way is found.
    have hsome := isSome_of_create _hcreate
    rw [entry?_of_notFound _hremove] at hsome
    cases hsome

end Tree

end ScriptLint
