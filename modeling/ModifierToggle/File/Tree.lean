import ModifierToggle.File.Basic

set_option autoImplicit false

/-! # File trees

A directory with everything below it, as a value: the working directory of a run, seen from outside.
Directories exist as far as files are in them, and so does every directory above the tree. -/

namespace ModifierToggle

/-- The files below a directory, each by its place there. -/
structure FileTree where
  /-- The place of the directory itself. -/
  home : List Text
  files : List (List Text × Text)
  deriving Repr, DecidableEq

namespace FileTree

/-- A tree from the paths of its files and their contents. -/
def ofPaths (home : List Text) (files : List (Text × Text)) : FileTree :=
  { home, files := files.map fun (path, contents) => (Path.parts path, contents) }

/-- The contents of the file at a place. -/
def contents? (tree : FileTree) (place : List Text) : Option Text :=
  if tree.home.isPrefixOf place then tree.files.lookup (place.drop tree.home.length) else none

/-- Whether a place is a directory. -/
def isDirectory (tree : FileTree) (place : List Text) : Bool :=
  place.isPrefixOf tree.home
    || tree.files.any fun (file, _) =>
      place.isPrefixOf (tree.home ++ file) && place.length < (tree.home ++ file).length

/-- Walk from a directory along the parts of a path to the place of a file. Every part but the last
    has to name a directory. -/
def walk (tree : FileTree) (place : List Text) : List Text → Except FileError (List Text)
  | [] => .error .isADirectory
  | part :: rest =>
    if part.isEmpty || part == utf8 "." then walk tree place rest
    else if part == utf8 ".." then walk tree place.dropLast rest
    else
      let next := place ++ [part]
      if tree.isDirectory next then walk tree next rest
      else if (tree.contents? next).isSome then
        if rest.isEmpty then .ok next else .error .notADirectory
      else .error .missing

/-- The place of the file at a path. -/
def place (tree : FileTree) (path : Text) : Except FileError (List Text) :=
  if path.isEmpty then .error .missing
  else walk tree (if Path.isAbsolute path then [] else tree.home) (Path.parts path)

/-- Read a file of the tree. -/
def read (tree : FileTree) : FileReader := fun path =>
  match tree.place path with
  | .error e => .error e
  | .ok place =>
    match tree.contents? place with
    | some contents => .ok contents
    | none => .error .missing

/-- The tree with other contents in one of its files. -/
def write (tree : FileTree) (path contents : Text) : FileTree :=
  match tree.place path with
  | .error _ => tree
  | .ok place =>
    { tree with
      files := tree.files.map fun (file, old) =>
        (file, if tree.home ++ file = place then contents else old) }

/-- The files whose contents differ from those in an earlier tree, by their paths. -/
def changedSince (tree old : FileTree) : List (Text × Text) :=
  (tree.files.filter fun (file, contents) => old.files.lookup file != some contents).map
    fun (file, contents) => (Text.join [Byte.slash] file, contents)

end FileTree

end ModifierToggle
