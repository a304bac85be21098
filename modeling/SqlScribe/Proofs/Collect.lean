import SqlScribe.Proofs.Substitution

/-!
# Collected values

The values of a statement can be listed without a dialect: go through its clauses and list the
literals that are met. Four dialects lay the clauses out in different ways, and rewrite some of the
expressions first. Still, each of them binds the listed values in this order, none lost and none
twice, so a statement binds the same in every dialect that can write it.

Some parts of a statement are left out, because dialects bind other values for them or bind them
elsewhere: parts of JSON documents and tests of JSON types, the row on the left of a comparison with
rows, what a change returns, and the condition of an upsert.
-/

namespace SqlScribe

open Fragment (Fits)

/-! ## The traversal -/

namespace Tree

/-- The value of a literal. -/
def literals : Tree → List Value
  | .expr (.literal value) => [value]
  | _ => []

/-- The values of the literals of a tree, in the order of its fields and clauses. -/
def collect (t : Tree) : List Value := t.nodes.flatMap literals

theorem collect_eq (t : Tree) : t.collect = t.literals ++ t.branches.flatMap collect := by
  rw [collect, nodes_eq, List.flatMap_cons, List.flatMap_assoc]
  rfl

end Tree

/-- The values of the literals of a statement, clause by clause. -/
def Statement.collect (s : Statement) : List Value := s.clauses.flatMap Tree.collect

/-! ## What all dialects bind alike -/

namespace Tree

/-- Whether a tree takes a part of a JSON document or tests its type at the root. Dialects bind
paths and names of types of their own. -/
def asksJson : Tree → Bool
  | .expr (.jsonExtract ..) | .expr (.jsonType ..) => true
  | _ => false

/-- Whether a membership in a list at the root of a tree passes the check that is made when it is
built: rows stand in it only beside rows of the same width. -/
def IsBuilt : Tree → Prop
  | .expr (.inList operand items negated) =>
    Expr.makeInList operand items negated = .ok (.inList operand items negated)
  | _ => True

/-- Whether a row on the left of a membership in a list of rows holds no values. -/
def HasBareRow : Tree → Prop
  | .expr (.inList operand _ _) => operand.isRow → (Tree.expr operand).collect = []
  | _ => True

/-- Whether the root of a tree is bound alike by all dialects. -/
structure Neutral (t : Tree) : Prop where
  built : t.IsBuilt
  plain : t.asksJson = false
  bare : t.HasBareRow

end Tree

/-! ## Rows -/

theorem Expr.parts_of_rowItems {e : Expr} {es : List Expr} (h : e.rowItems? = some es) :
    e.parts = es := by
  cases e with
  | row first rest => exact Option.some.inj h
  | _ => cases h

/-- A row holds the values of its items. -/
theorem Tree.collect_of_rowItems {e : Expr} {es : List Expr} (h : e.rowItems? = some es) :
    (Tree.expr e).collect = es.flatMap fun p => (Tree.expr p).collect := by
  cases e with
  | row first rest =>
    obtain rfl := Option.some.inj h
    rw [Tree.collect_eq]
    exact List.flatMap_map Tree.expr Tree.collect (first :: rest)
  | _ => cases h

/-- The rows of a checked comparison have the width of the row on the left. -/
theorem Expr.rowItems_of_makeInList {operand : Expr} {items : List Expr} {negated : Flag}
    (h : Expr.makeInList operand items negated = .ok (.inList operand items negated))
    (hrow : operand.isRow) {row : Expr} (hmem : row ∈ items) :
    ∃ es, row.rowItems? = some es ∧ es.length = operand.parts.length := by
  obtain ⟨left, hleft⟩ := Option.isSome_iff_exists.mp hrow
  rw [Expr.makeInList, hleft] at h
  dsimp only at h
  split at h
  next hall =>
    have hwidth := List.all_eq_true.mp hall row hmem
    rw [beq_iff_eq, Option.map_eq_some_iff] at hwidth
    rw [Expr.parts_of_rowItems hleft]
    exact hwidth
  · cases h

/-- If the items on the left hold no values, pairing them with the items of a row of the same length
leaves the values of the row. -/
theorem flatMap_pairs {left row : List Expr} (hlen : row.length = left.length)
    (hleft : ∀ p ∈ left, (Tree.expr p).collect = []) :
    ((left.zip row).flatMap fun p => [Tree.expr p.1, .expr p.2]).flatMap Tree.collect =
      row.flatMap fun p => (Tree.expr p).collect := by
  -- on both rows, whose lengths agree
  induction left generalizing row with
  | nil =>
    obtain rfl := List.length_eq_zero_iff.mp hlen
    rfl
  | cons l left ih =>
    cases row with
    | nil => cases hlen
    | cons r row =>
      rw [List.forall_mem_cons] at hleft
      have ih := ih (Nat.succ.inj hlen) hleft.2
      have pair : [Tree.expr l, .expr r].flatMap Tree.collect = (Tree.expr r).collect := by
        rw [List.flatMap_cons, List.flatMap_singleton, hleft.1, List.nil_append]
      rw [List.zip_cons_cons, List.flatMap_cons, List.flatMap_append, pair, ih, List.flatMap_cons]

/-- Comparing rows item by item binds what the rows hold. -/
theorem collect_pairs {operand : Expr} {items : List Expr} {negated : Flag}
    (hbuilt : Expr.makeInList operand items negated = .ok (.inList operand items negated))
    (hbare : (Tree.expr operand).collect = []) (hrow : operand.isRow) :
    (items.flatMap fun row => (operand.parts.zip row.parts).flatMap fun p =>
        [Tree.expr p.1, .expr p.2]).flatMap Tree.collect =
      (Expr.inList operand items negated).branches.flatMap Tree.collect := by
  obtain ⟨left, hleft⟩ := Option.isSome_iff_exists.mp hrow
  have hparts := Expr.parts_of_rowItems hleft
  rw [Tree.collect_of_rowItems hleft, List.flatMap_eq_nil_iff] at hbare
  -- the row on the left is repeated for each row on the right, but holds nothing
  have row : ∀ r ∈ items, ((operand.parts.zip r.parts).flatMap fun p =>
      [Tree.expr p.1, .expr p.2]).flatMap Tree.collect = (Tree.expr r).collect := by
    intro r hr
    obtain ⟨es, hes, hlen⟩ := Expr.rowItems_of_makeInList hbuilt hrow hr
    rw [Expr.parts_of_rowItems hes, Tree.collect_of_rowItems hes]
    exact flatMap_pairs hlen (hparts ▸ hbare)
  -- the branches are the row on the left and all rows on the right
  have whole : (Expr.inList operand items negated).branches.flatMap Tree.collect =
      items.flatMap fun r => (Tree.expr r).collect := by
    rw [Expr.branches]
    cases items with
    | nil => rfl
    | cons i rest =>
      rw [List.isEmpty_cons, if_neg Bool.false_ne_true, List.flatMap_cons,
        Tree.collect_of_rowItems hleft, List.flatMap_eq_nil_iff.mpr hbare, List.flatMap_map]
      rfl
  rw [whole, List.flatMap_assoc]
  exact List.flatMap_congr row

/-! ## Trees -/

/-- What a dialect writes below a node holds the values of the branches. -/
theorem Tree.collect_written (d : Dialect) {t : Tree} (hbuilt : t.IsBuilt) (hbare : t.HasBareRow) :
    (t.written d).flatMap collect = t.branches.flatMap collect := by
  unfold Tree.written
  split
  next operand items negated =>
    split
    next h =>
      have hrow : operand.isRow := (Bool.and_eq_true_iff.mp h).2
      exact collect_pairs hbuilt (hbare hrow) hrow
    · rfl
  · rfl

/-- A node binds its own literal, if it is one, before what is written below it. -/
theorem Tree.values_frame (d : Dialect) {t : Tree} (h : t.asksJson = false) {inner : Fragment}
    (hinner : inner.values = t.branches.flatMap collect) :
    (t.frame d inner).values = t.collect := by
  rw [Tree.collect_eq, ← hinner]
  unfold Tree.frame
  -- a value adds itself, JSON is excluded, and no other frame binds anything
  split
  · rw [hinner]
    rfl
  · cases h
  · cases h
  next hliteral _ _ =>
    -- what is no literal has none of its own
    have hnone : t.literals = [] := by
      unfold Tree.literals
      split
      · exact absurd rfl (hliteral _)
      · rfl
    rw [hnone]
    rfl

theorem Tree.every_of_mem_written {p : Tree → Prop} {d : Dialect} {t b : Tree} (h : t.Every p)
    (hb : b ∈ t.written d) : b.Every p := by
  rcases branch_of_mem_written hb with hb | ⟨m, hm, hb⟩
  · exact h.branch hb
  · exact (h.branch hm).branch hb

/-- Every dialect binds for a tree what is collected from it. -/
theorem Tree.values_skeleton_eq (d : Dialect) (t : Tree) (h : t.Every Neutral) :
    (t.skeleton d).values = t.collect := by
  have hroot : t.Neutral := (every_iff.mp h).1
  have below : (t.written d).flatMap (fun b => (b.skeleton d).values) =
      (t.written d).flatMap collect := by
    refine List.flatMap_congr fun b hb => ?_
    have := sizeOf_lt_of_mem_written hb
    exact values_skeleton_eq d b (every_of_mem_written h hb)
  rw [skeleton_eq]
  -- no node but a literal adds values to those written below it
  refine values_frame d hroot.plain ?_
  rw [Fragment.values_concat, List.flatMap_map, below, collect_written d hroot.built hroot.bare]
termination_by sizeOf t

/-! ## Statements -/

/-- Where what is bound in different places holds no values, the trees of all dialects hold those of
the clauses. -/
theorem Statement.collect_trees (d : Dialect) (s : Statement)
    (h : s.extras.flatMap Tree.collect = []) : (s.trees d).flatMap Tree.collect = s.collect := by
  rw [Statement.collect]
  cases s with
  | select s | union u => rfl
  | insert i =>
    rw [Statement.extras, List.flatMap_append, List.append_eq_nil_iff] at h
    obtain ⟨hcondition, hreturning⟩ := h
    have hcondition : (i.condition.map Tree.expr).flatMap Tree.collect = [] := hcondition
    rw [Statement.trees, Statement.clauses]
    unfold Insert.trees
    -- SQL Server without a conflict, a merge, and an insert with a clause behind its rows
    split
    next hc => simp [hreturning, hc, valueTrees]
    · simp [hreturning, hcondition, Insert.assignments]
    · simp [hreturning, hcondition, Insert.assignments]
  | update u =>
    have hreturning : (itemTrees u.returning).flatMap Tree.collect = [] := h
    rw [Statement.trees, Statement.clauses]
    unfold tailTrees
    split <;> simp [hreturning]
  | delete x =>
    have hreturning : (itemTrees x.returning).flatMap Tree.collect = [] := h
    rw [Statement.trees, Statement.clauses]
    unfold tailTrees
    split <;> simp [hreturning]

/-- **Every dialect binds the same.** A statement whose nodes are bound alike, and which holds no
values in what it returns and in the condition of an upsert, binds in every style that can write it
the values that are collected from it. So the finished queries of any two styles bind the same
values in the same order. -/
theorem Statement.values_eq_collect (s : Statement) (h : s.Every Tree.Neutral)
    (hextras : s.extras.flatMap Tree.collect = []) :
    (∀ style sql values, s.toText style = .ok (sql, values) → values = s.collect) ∧
      ∀ style style' q q', s.toQuery style = .ok q → s.toQuery style' = .ok q' →
        q.bindings = q'.bindings := by
  have bound : ∀ style sql values, s.toText style = .ok (sql, values) → values = s.collect := by
    intro style sql values htext
    obtain ⟨f, hf, -, rfl⟩ := Statement.toText_eq_ok htext
    have hfits : Fits False style _ f := comes_statement s (fun _ _ hs => hs.elim) f hf
    have each : (s.trees style.dialect).flatMap (fun t => (t.skeleton style.dialect).values) =
        (s.trees style.dialect).flatMap Tree.collect :=
      List.flatMap_congr fun t ht => Tree.values_skeleton_eq _ t
        (h t ((s.trees_perm style.dialect).mem_iff.mp ht))
    rw [← Fragment.values_skeleton, hfits.binds, skeletons, Fragment.values_concat,
      List.flatMap_map, each, Statement.collect_trees style.dialect s hextras]
  refine ⟨bound, fun style style' q q' hq hq' => ?_⟩
  rw [bound _ _ _ (Statement.toQuery_eq_ok hq).2, bound _ _ _ (Statement.toQuery_eq_ok hq').2]

/-- A column without a table. -/
abbrev plainColumn (name : String) : Expr := .column .absent (.word name)

/-- An update of the row with a certain pair of columns, which returns one of them. -/
def pairedUpdate : Statement :=
  .update ⟨.table ⟨.word "t", .absent, .absent, []⟩, [⟨.word "n", .literal (.text "v")⟩],
    some (.inList (.row (plainColumn "a") [plainColumn "b"])
      [.row (.literal (.bool true)) [.literal .null]] (.switch false)),
    [⟨plainColumn "a", .absent⟩]⟩

theorem pairedUpdate_toText : pairedUpdate.toText (.plain .mssql) =
    .ok ("UPDATE t SET n = @p1 OUTPUT INSERTED.a WHERE ((a = @p2 AND b = @p3))",
      [.text "v", .bool true, .null]) :=
  eq_ok_of_toOption (by decide +kernel) rfl

theorem collect_plainColumn (name : String) : (Tree.expr (plainColumn name)).collect = [] := by
  rw [Tree.collect_eq]
  rfl

theorem pairedUpdate_neutral : pairedUpdate.Every Tree.Neutral := by
  have column : ∀ name, (Tree.expr (plainColumn name)).Every Tree.Neutral := fun _ =>
    Tree.every_iff.mpr ⟨⟨trivial, rfl, trivial⟩, nofun⟩
  have literal : ∀ v, (Tree.expr (.literal v)).Every Tree.Neutral := fun _ =>
    Tree.every_iff.mpr ⟨⟨trivial, rfl, trivial⟩, nofun⟩
  have left : (Tree.expr (.row (plainColumn "a") [plainColumn "b"])).Every Tree.Neutral :=
    Tree.every_iff.mpr ⟨⟨trivial, rfl, trivial⟩,
      List.forall_mem_cons.mpr ⟨column _, List.forall_mem_singleton.mpr (column _)⟩⟩
  have right : (Tree.expr (.row (.literal (.bool true)) [.literal .null])).Every Tree.Neutral :=
    Tree.every_iff.mpr ⟨⟨trivial, rfl, trivial⟩,
      List.forall_mem_cons.mpr ⟨literal _, List.forall_mem_singleton.mpr (literal _)⟩⟩
  have bare : (Tree.expr (.row (plainColumn "a") [plainColumn "b"])).collect = [] := by
    rw [Tree.collect_of_rowItems rfl, List.flatMap_cons, List.flatMap_singleton,
      collect_plainColumn, collect_plainColumn]
    rfl
  have test : (Tree.expr (.inList (.row (plainColumn "a") [plainColumn "b"])
      [.row (.literal (.bool true)) [.literal .null]] (.switch false))).Every Tree.Neutral :=
    Tree.every_iff.mpr ⟨⟨rfl, rfl, fun _ => bare⟩,
      List.forall_mem_cons.mpr ⟨left, List.forall_mem_singleton.mpr right⟩⟩
  exact List.forall_mem_cons.mpr ⟨literal _, List.forall_mem_cons.mpr ⟨test,
    List.forall_mem_singleton.mpr (column _)⟩⟩

/-- The pairs are compared item by item, and still bind what every dialect binds. -/
theorem values_pairedUpdate : pairedUpdate.collect = [.text "v", .bool true, .null] ∧
    ∀ style sql values, pairedUpdate.toText style = .ok (sql, values) →
      values = [.text "v", .bool true, .null] := by
  have none : pairedUpdate.extras.flatMap Tree.collect = [] := by
    show [Tree.expr (plainColumn "a")].flatMap Tree.collect = []
    rw [List.flatMap_singleton, collect_plainColumn]
  have all := (Statement.values_eq_collect pairedUpdate pairedUpdate_neutral none).1
  have here := all _ _ _ pairedUpdate_toText
  exact ⟨here.symm, fun style sql values h => (all style sql values h).trans here.symm⟩

end SqlScribe
