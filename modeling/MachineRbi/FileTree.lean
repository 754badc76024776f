import MachineRbi.Path

/-!
# File trees

A file tree holds directories and files at locations, which are the names on the way from the root.
A tree knows what stands at its top and has a tree under every name; most of those are empty. The
root is always a directory. `entry?` is the view through which all else is said: what stands at a
location, if anything. `entry?_set` says what a change does to it.
-/

namespace MachineRbi

/-- The names on the way from the root. -/
abbrev Location := List String

/-- What can stand at a location. -/
inductive Entry where
  | file (bytes : ByteArray)
  | directory

/-- Whether two entries are the same is decided by the bytes of files. -/
instance : DecidableEq Entry
  | .file a, .file b =>
    match ByteArray.instDecidableEq a b with
    | .isTrue same => .isTrue (congrArg Entry.file same)
    | .isFalse differ => .isFalse fun same => differ (Entry.file.inj same)
  | .file _, .directory | .directory, .file _ => .isFalse Entry.noConfusion
  | .directory, .directory => .isTrue rfl

/-- What stands at the top, if anything, and trees under names. -/
inductive FileTree where
  | node (top? : Option Entry) (children : List (String × FileTree))

namespace FileTree

/-- Nothing but the root. -/
def empty : FileTree :=
  node none []

/-- What stands at the top. -/
def top? : FileTree → Option Entry
  | node top? _ => top?

/-- The trees under names that have one. -/
def children : FileTree → List (String × FileTree)
  | node _ children => children

/-- The tree under a name. -/
def child (tree : FileTree) (name : String) : FileTree :=
  (tree.children.lookup name).getD empty

/-- The tree at the end of names. -/
def subtree (tree : FileTree) (names : List String) : FileTree :=
  names.foldl child tree

/-- What stands at a location. -/
def entry? (tree : FileTree) (location : Location) : Option Entry :=
  if location = [] then some .directory else (tree.subtree location).top?

/-- Trees under names with another one under this name. -/
def putChild (children : List (String × FileTree)) (name : String) (tree : FileTree) :
    List (String × FileTree) :=
  (name, tree) :: children.filter (·.1 ≠ name)

/-- The tree with an entry at a location, in place of the one before. -/
def set (tree : FileTree) (location : Location) (entry : Entry) : FileTree :=
  match location with
  | [] => node (some entry) tree.children
  | name :: rest => node tree.top? (putChild tree.children name ((tree.child name).set rest entry))

/-- The tree with directories at a location and on the way to it from a directory. -/
def openWay (tree : FileTree) (passed : Location) : List String → FileTree
  | [] => tree
  | name :: rest =>
    let way := passed ++ [name]
    openWay (if tree.entry? way = some .directory then tree else tree.set way .directory) way rest

/-- The tree with an entry at a location, and with the directories on the way to it. -/
def place (tree : FileTree) (location : Location) (entry : Entry) : FileTree :=
  (tree.openWay [] location.dropLast).set location entry

mutual

/-- What stands in a tree, each with the text of the way to it; that of the way to the top is
given. -/
def entriesFrom (way : String) : FileTree → List (String × Entry)
  | node top? children =>
    (top?.map fun entry => (way, entry)).toList ++ entriesUnder (way ++ "/") children

/-- What stands in trees under names, each with the text of the way to it; all start in the same
way. -/
def entriesUnder (lead : String) : List (String × FileTree) → List (String × Entry)
  | [] => []
  | (name, tree) :: rest => entriesFrom (lead ++ name) tree ++ entriesUnder lead rest

end

/-- Everything below a location, sorted by the text of the way to it. -/
def listing (tree : FileTree) (base : Location) : List (String × Entry) :=
  (entriesUnder "" (tree.subtree base).children).mergeSort fun a b => a.1 ≤ b.1

/-- A name that has been put has its tree, and every other name the tree from before. -/
theorem lookup_putChild (children : List (String × FileTree)) (name other : String)
    (tree : FileTree) :
    (putChild children name tree).lookup other =
      if other = name then some tree else children.lookup other := by
  by_cases same : other = name
  · simp [putChild, same]
  · have differs : (other == name) = false := by simpa using same
    simp only [putChild, List.lookup_cons, differs, if_neg same]
    induction children with
    | nil => rfl
    | cons first rest ih =>
      obtain ⟨key, value⟩ := first
      by_cases dropped : key = name
      · have passed : (other == key) = false := by simpa [dropped] using same
        simpa [dropped, List.lookup_cons, passed, differs] using ih
      · rw [List.filter_cons_of_pos (by simpa using dropped), List.lookup_cons, List.lookup_cons,
          ih]

/-- Below a name that has been put stands what was put there. -/
theorem child_putChild (top? : Option Entry) (tree inner : FileTree) (name other : String) :
    (node top? (putChild tree.children name inner)).child other =
      if other = name then inner else tree.child other := by
  simp only [child, children, lookup_putChild]
  split <;> rfl

/-- The tree at the end of names is that of the other names in the tree of the first. -/
theorem subtree_cons (tree : FileTree) (name : String) (rest : List String) :
    tree.subtree (name :: rest) = (tree.child name).subtree rest :=
  rfl

/-- Nothing stands in an empty tree. -/
theorem subtree_empty (names : List String) : empty.subtree names = empty := by
  induction names with
  | nil => rfl
  | cons name rest ih => exact ih

/-- Setting an entry changes the top of the tree at its location and no other top. -/
theorem top?_set (tree : FileTree) (location other : Location) (entry : Entry) :
    ((tree.set location entry).subtree other).top? =
      if other = location then some entry else (tree.subtree other).top? := by
  induction location generalizing tree other with
  | nil => cases other <;> rfl
  | cons first rest ih =>
    cases other with
    | nil => rfl
    | cons name others =>
      rw [set, subtree_cons, child_putChild, subtree_cons]
      by_cases same : name = first
      · simp [same, ih]
      · simp [same]

/-- An entry that has been set stands at its location, and nothing else has changed. -/
theorem entry?_set (tree : FileTree) (location other : Location) (entry : Entry)
    (below : location ≠ []) :
    FileTree.entry? (tree.set location entry) other =
      if other = location then some entry else tree.entry? other := by
  by_cases root : other = []
  · simp [root, entry?, Ne.symm below]
  · simp [root, entry?, top?_set]

end FileTree

end MachineRbi
