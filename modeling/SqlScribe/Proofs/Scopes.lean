import SqlScribe.Proofs.Skeleton

/-!
# Selects inside of a tree

`Tree.writtenNodes` lists the nodes of a tree that a dialect writes, and `Tree.scopes` the selects
among them, at any nesting. A nested select is a scope of its own: what replaces references around
it never looks into it.
-/

namespace SqlScribe.Tree

/-- The select that a tree is. -/
def select? : Tree → Option Select
  | .select s => some s
  | .expr _ => none

/-- The nodes of a tree that a dialect writes: its root and those of what is written below it. -/
def writtenNodes (d : Dialect) (t : Tree) : List Tree :=
  t :: (t.written d).attach.flatMap fun b => b.1.writtenNodes d
termination_by sizeOf t
decreasing_by exact sizeOf_lt_of_mem_written b.2

theorem writtenNodes_eq (d : Dialect) (t : Tree) :
    t.writtenNodes d = t :: (t.written d).flatMap (writtenNodes d) := by
  rw [writtenNodes, List.flatMap_def, List.attach_map_val (f := writtenNodes d),
    ← List.flatMap_def]

/-- The selects that a dialect writes in a tree, the tree itself included. -/
def scopes (d : Dialect) (t : Tree) : List Select := (t.writtenNodes d).filterMap select?

theorem scopes_eq (d : Dialect) (t : Tree) :
    t.scopes d = t.select?.toList ++ (t.written d).flatMap (scopes d) := by
  have below : ((t.written d).flatMap (writtenNodes d)).filterMap select? =
      (t.written d).flatMap (scopes d) := List.filterMap_flatMap
  rw [scopes, writtenNodes_eq, List.filterMap_cons, below]
  cases t.select? <;> rfl

/-- A tree of an expression has the scopes that are written below it. -/
theorem scopes_expr (d : Dialect) (e : Expr) :
    (Tree.expr e).scopes d = ((Tree.expr e).written d).flatMap (scopes d) :=
  scopes_eq d (.expr e)

theorem mem_scopes {d : Dialect} {t : Tree} {q : Select} :
    q ∈ t.scopes d ↔ Tree.select q ∈ t.writtenNodes d := by
  rw [scopes, List.mem_filterMap]
  constructor
  · rintro ⟨n, hn, hq⟩
    cases n with
    | select s => cases hq; exact hn
    | expr e => cases hq
  · exact fun h => ⟨_, h, rfl⟩

end SqlScribe.Tree
