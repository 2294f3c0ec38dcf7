import PermissionAudit.Program.Basic

/-!
The class hierarchy: which classes name which as superclass or interface, and
which are below a class.
-/

namespace PermissionAudit

/-- Links from a parent to a class that names it, in order. -/
structure Hierarchy where
  links : List (String × String)

namespace Hierarchy

def ofClasses (classes : List ClassInfo) : Hierarchy :=
  ⟨classes.flatMap fun c => c.parents.map fun parent => (parent, c.name)⟩

/-- Classes directly below one. -/
def children (h : Hierarchy) (name : String) : List String :=
  (h.links.filter fun l => l.1 = name).map (·.2)

/-- The names other than one. -/
def without (name : String) (names : List String) : List String := names.filter (· ≠ name)

theorem length_without_lt {name : String} {names : List String} (h : name ∈ names) :
    (without name names).length < names.length :=
  List.length_filter_lt_length_iff_exists.mpr ⟨name, h, by simp⟩

/-- Names found from `todo` on, among those not seen yet. A name is taken up once, and its
children are looked at before the rest. -/
def explore (h : Hierarchy) (unseen todo : List String) : List String :=
  match todo with
  | [] => []
  | name :: rest =>
    if name ∈ unseen then
      name :: explore h (without name unseen) (h.children name ++ rest)
    else
      explore h unseen rest
termination_by (unseen.length, todo.length)
decreasing_by
  · exact Prod.Lex.left _ _ (length_without_lt (by assumption))
  · exact Prod.Lex.right _ (by simp)

/-- All names below a class, sorted. A class is below itself only on a cycle. -/
def descendants (h : Hierarchy) (name : String) : List String :=
  (explore h (h.links.map (·.2)) (h.children name)).mergeSort fun a b => decide (a ≤ b)

end Hierarchy

end PermissionAudit
