/-!
# Paths as lists of components

Two spellings of a path are the same path when they have the same components: repeated slashes,
a trailing slash and a `.` that is not the first component of a relative path do not count.
-/

namespace IndexCoordinator.Path

def segments : List Char → List (List Char)
  | [] => [[]]
  | c :: rest =>
    if c = '/' then [] :: segments rest
    else match segments rest with
      | [] => [[c]]
      | s :: more => (c :: s) :: more

/-- the first of the segments of a text, and the others -/
def leading (path : String) : List Char × List (List Char) :=
  match segments path.toList with
  | [] => ([], [])
  | s :: more => (s, more)

def isAbsolute (path : String) : Bool := path.toList.head? == some '/'

/-- the components that name something: neither empty nor a `.` -/
def named (segs : List (List Char)) : List (List Char) :=
  segs.filter fun s => !(s.isEmpty || s == ['.'])

/-- the components of a path; a leading `.` of a relative path is one of them -/
def components (path : String) : Bool × List (List Char) :=
  let (first, more) := leading path
  (isAbsolute path, if first = ['.'] then first :: named more else named (first :: more))

def same (a b : String) : Bool := components a == components b

theorem same_refl (a : String) : same a a = true := by simp [same]

theorem same_comm (a b : String) : same a b = same b a := by
  simp [same, BEq.comm]

end IndexCoordinator.Path
