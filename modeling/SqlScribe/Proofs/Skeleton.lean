import SqlScribe.Proofs.Tree

/-!
# Skeletons

The skeleton of a fragment is what is left of it without texts and names: the values in the order in
which they are bound, and the pairs that are crossed.

A tree has a skeleton of its own, which is told from its nodes alone. The nodes that bind values
themselves are literals, parts of JSON documents and tests of JSON types; every other node binds
what is written below it. The walk over a tree is right about values if what it writes has the
skeleton of the tree.
-/

namespace SqlScribe

/-! ## Fragments -/

namespace Fragment

/-- A fragment without texts and names. -/
def skeleton : Fragment → Fragment
  | empty => empty
  | text _ rest | name _ rest => rest.skeleton
  | slot v rest => slot v rest.skeleton
  | crossed first second rest => crossed first.skeleton second.skeleton rest.skeleton

/-- Fragments side by side. -/
def concat : List Fragment → Fragment
  | [] => empty
  | f :: rest => f ++ concat rest

@[simp] theorem skeleton_append (f g : Fragment) :
    (f ++ g).skeleton = f.skeleton ++ g.skeleton := by
  induction f with
  | empty => rfl
  | text s rest ih | name n rest ih | slot v rest ih => simp [skeleton, ih]
  | crossed a b rest _ _ ih => simp [skeleton, ih]

@[simp] theorem values_skeleton (f : Fragment) : f.skeleton.values = f.values := by
  induction f with
  | empty => rfl
  | text s rest ih | name n rest ih | slot v rest ih => simp [skeleton, values, ih]
  | crossed a b rest iha ihb ih => simp [skeleton, values, iha, ihb, ih]

@[simp] theorem size_skeleton (f : Fragment) : f.skeleton.size = f.size := by
  simp [size_eq_length]

@[simp] theorem concat_nil : concat [] = empty := rfl

@[simp] theorem concat_cons (f : Fragment) (rest : List Fragment) :
    concat (f :: rest) = f ++ concat rest := rfl

theorem concat_one (f : Fragment) : concat [f] = f := append_empty f

theorem concat_two (f g : Fragment) : concat [f, g] = f ++ g := by simp

@[simp] theorem concat_append (fs gs : List Fragment) :
    concat (fs ++ gs) = concat fs ++ concat gs := by
  induction fs with
  | nil => rfl
  | cons f fs ih => simp [ih, append_assoc]

theorem concat_empties {α : Type} (as : List α) : concat (as.map fun _ => empty) = empty := by
  induction as with
  | nil => rfl
  | cons a as ih => exact ih

theorem concat_flatten (fss : List (List Fragment)) :
    concat fss.flatten = concat (fss.map concat) := by
  induction fss with
  | nil => rfl
  | cons fs fss ih => simp [ih]

theorem concat_map_flatMap {α β : Type} (g : α → Fragment) (h : β → List α) (bs : List β) :
    concat ((bs.flatMap h).map g) = concat (bs.map fun b => concat ((h b).map g)) := by
  induction bs with
  | nil => rfl
  | cons b bs ih => simp [ih]

theorem values_concat (fs : List Fragment) : (concat fs).values = fs.flatMap values := by
  induction fs with
  | nil => rfl
  | cons f fs ih => simp [ih]

end Fragment

/-- Bound texts. -/
def boundTexts (names : List String) : Fragment := Fragment.concat (names.map boundText)

/-! ## Trees -/

/-- The items of a row or of a full-text search are written below it. -/
theorem mem_branches_of_mem_parts {e p : Expr} (h : p ∈ e.parts) : Tree.expr p ∈ e.branches := by
  cases e with
  | row first rest | textSearch first rest =>
    simpa [Expr.parts, Expr.branches] using h
  | _ => simp [Expr.parts] at h

namespace Tree

/-- The trees below the root of a tree in the order in which a dialect writes them. SQL Server
compares rows item by item, and repeats the row on the left for each row on the right. -/
def written (d : Dialect) : Tree → List Tree
  | .expr (.inList operand items negated) =>
    if d = .mssql && operand.isRow then
      items.flatMap fun row => (operand.parts.zip row.parts).flatMap fun p => [.expr p.1, .expr p.2]
    else (Expr.inList operand items negated).branches
  | t => t.branches

section

variable {d : Dialect} {operand : Expr} {items : List Expr} (negated : Flag)

/-- SQL Server writes each row on the left beside each row on the right. -/
theorem written_rows (hrow : operand.isRow = true) :
    (Tree.expr (.inList operand items negated)).written .mssql =
      items.flatMap fun row => (operand.parts.zip row.parts).flatMap fun p =>
        [Tree.expr p.1, .expr p.2] := by
  simp [written, hrow]

/-- Any other membership is written as it stands. -/
theorem written_inList (hitems : items.isEmpty = false)
    (hrow : ¬(d = .mssql ∧ operand.isRow = true)) :
    (Tree.expr (.inList operand items negated)).written d = .expr operand :: items.map .expr := by
  rw [written, if_neg (by simpa using hrow), Expr.branches_inList hitems]

end

/-- What a path adds to the values of the document. PostgreSQL binds the keys before them. -/
def pathFrame (d : Dialect) (path : JsonPath) (inner : Fragment) : Fragment :=
  match d, path with
  | .postgres, .keys first rest => Fragment.cross inner (boundTexts (first :: rest))
  | _, path => inner ++ boundText path.written

/-- What the root of a tree adds to the values below it. -/
def frame (d : Dialect) : Tree → Fragment → Fragment
  | .expr (.literal value), _ => Fragment.bound value
  | .expr (.jsonExtract _ path _), inner => pathFrame d path inner
  | .expr (.jsonType _ type), inner => inner ++ boundTexts (d.jsonTypeNames type)
  | _, inner => inner

/-- What is written for a tree is one of its branches, or a branch of one. -/
theorem branch_of_mem_written {d : Dialect} {t b : Tree} (h : b ∈ t.written d) :
    b ∈ t.branches ∨ ∃ m ∈ t.branches, b ∈ m.branches := by
  unfold written at h
  split at h
  next operand items negated =>
    split at h
    · simp only [List.mem_flatMap, List.mem_cons, List.not_mem_nil, or_false] at h
      obtain ⟨row, hrow, ⟨l, r⟩, hp, hb⟩ := h
      have hitems : items.isEmpty = false := by
        rw [List.isEmpty_eq_false_iff]
        exact List.ne_nil_of_mem hrow
      have below : ∀ e, e = operand ∨ e ∈ items →
          Tree.expr e ∈ (Tree.expr (.inList operand items negated)).branches := by
        intro e he
        simpa [branches, Expr.branches, hitems] using he
      -- the items of both rows hang below the rows
      right
      rcases hb with rfl | rfl
      · exact ⟨_, below operand (.inl rfl), mem_branches_of_mem_parts (List.of_mem_zip hp).1⟩
      · exact ⟨_, below row (.inr hrow), mem_branches_of_mem_parts (List.of_mem_zip hp).2⟩
    · exact .inl h
  · exact .inl h

theorem sizeOf_lt_of_mem_written {d : Dialect} {t b : Tree} (h : b ∈ t.written d) :
    sizeOf b < sizeOf t := by
  rcases branch_of_mem_written h with hb | ⟨m, hm, hb⟩
  · exact sizeOf_lt_of_mem hb
  · exact Nat.lt_trans (sizeOf_lt_of_mem hb) (sizeOf_lt_of_mem hm)

/-- The skeleton of what a dialect writes for a tree. -/
def skeleton (d : Dialect) (t : Tree) : Fragment :=
  t.frame d (Fragment.concat ((t.written d).attach.map fun b => b.1.skeleton d))
termination_by sizeOf t
decreasing_by exact sizeOf_lt_of_mem_written b.2

theorem skeleton_eq (d : Dialect) (t : Tree) :
    t.skeleton d = t.frame d (Fragment.concat ((t.written d).map (skeleton d))) := by
  rw [skeleton, List.attach_map_val (f := skeleton d)]

end Tree

end SqlScribe
