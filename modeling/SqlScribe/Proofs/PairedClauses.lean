import SqlScribe.Proofs.PairedRewriting

/-!
# Clauses of a change, in two runs

The clauses of inserts, updates and deletes are made of names, which are the same in both runs, and
of expressions, which are twins. In an upsert the references to incoming values are replaced first;
`rewrites_excluded` and the lemmas beside it say that what takes their place are twins.
-/

namespace SqlScribe

/-! ## Statements of the right types -/

/-- Whether an assignment has a name for its column, and an expression as its value. -/
structure Assignment.IsTyped (a : Assignment) : Prop where
  column : a.column.isText = true
  value : a.value.isExpr = true

/-- Whether a source is a table with names. -/
def Source.IsTarget (o : Source) : Prop := ∃ t, o = .table t ∧ t.IsTyped

/-- Whether the columns of a conflict clause are named, and so are those that it assigns to. -/
structure Conflict.IsTyped (k : Conflict) : Prop where
  target : ∀ n ∈ k.target, n.isText = true
  assignments : ∀ a ∈ (ConflictClause.conflict k).assignments, a.IsTyped

/-- Whether what stands in the place of a conflict clause is one. -/
def ConflictClause.IsTyped : ConflictClause → Prop
  | .conflict k => k.IsTyped
  | .other _ => False

/-- Whether the source of an insert is there. -/
def InsertSource.isFinished : InsertSource → Bool
  | .draft _ => false
  | _ => true

/-- Whether items have aliases that are names. -/
def areNamed (items : List SelectItem) : Prop := ∀ i ∈ items, i.aliasName.isName = true

/-- Whether an insert is one that the constructor accepts, with parts of the declared types. -/
structure Insert.IsTyped (i : Insert) : Prop where
  target : i.target.IsTarget
  nonempty : i.columns ≠ []
  columns : ∀ n ∈ i.columns, n.isText = true
  source : i.source.isFinished = true
  conflict : ∀ k ∈ i.conflict, k.IsTyped
  returning : areNamed i.returning

/-- Whether an update is one that the constructor accepts, with parts of the declared types. -/
structure Update.IsTyped (u : Update) : Prop where
  target : u.target.IsTarget
  assignments : ∀ a ∈ u.assignments, a.IsTyped
  returning : areNamed u.returning

/-- Whether a delete is one that the constructor accepts, with parts of the declared types. -/
structure Delete.IsTyped (x : Delete) : Prop where
  target : x.target.IsTarget
  returning : areNamed x.returning

/-- Whether the record of a statement is one that the constructors accept, with parts of the
declared types. -/
def Statement.IsTyped : Statement → Prop
  | .select _ | .union _ => True
  | .insert i => i.IsTyped
  | .update u => u.IsTyped
  | .delete x => x.IsTyped

namespace Pairing

open List (Forall₂)

variable {c : Pairing} {f f' : Expr → Build Expr}

/-! ## Rewriting references -/

/-- The incoming value of a named column can be written in every dialect. -/
theorem incoming_isText (d : Dialect) {n : Name} (h : n.isText = true) :
    ∃ f, (incoming d n).render d = .ok f := by
  obtain ⟨f, hf⟩ := nameOf_isText h
  have quoted : ∃ f, nameIn (.word "excluded") n = .ok f := nameIn_isText rfl h
  cases d with
  | mysql =>
    refine ⟨Fragment.ofText valuesFunction.capitals ++ f.parens, ?_⟩
    show (textsOf [.column .absent n] [qualified .absent n] >>= _) = _
    rw [qualified_null, hf]
    rfl
  | sqlite | postgres | mssql =>
    obtain ⟨g, hg⟩ := quoted
    exact ⟨g, hg⟩

/-- What replaces the incoming value of a column is a column or a call. -/
theorem twin_incoming {d d' : Dialect} {n : Name}
    (h : c.Meets ((incoming d n).render c.left) ((incoming d' n).render c.right)) :
    c.Twin (incoming d n) (incoming d' n) := by
  cases d <;> cases d' <;> exact .plain rfl h

/-- The references to incoming values, replaced for both dialects. -/
theorem rewrites_excluded :
    c.Rewrites (fun e => .ok (replaceExcluded (incoming c.left) e))
      (fun e => .ok (replaceExcluded (incoming c.right) e)) where
  names := by
    cases c with
    | shared => exact .inr rfl
    | alone d | portable d => exact .inl trivial
  keeps e he := by rw [keeps_replaceExcluded _ he, keeps_replaceExcluded _ he]; exact ⟨rfl, rfl⟩
  column table name h := paired_ok (Asks.column h).rewritten
  star table h := paired_ok (Asks.star h).rewritten
  excluded n h := by
    refine paired_ok ((twin_incoming ?_).rewritten ?_)
    · cases c with
      | shared => exact meets_self fun ht => ht.elim
      | alone d | portable d =>
        obtain ⟨f, hf⟩ := incoming_isText (left _) h.1
        obtain ⟨g, hg⟩ := incoming_isText (right _) h.1
        rw [hf, hg]
        exact paired_ok fun hx => hx.elim
    · generalize c.left = d
      cases d <;> rfl

/-- The columns of a merge are written if they are named. -/
theorem meets_merged {table table' n : Name} (h : table.isName = true) (h' : table'.isName = true)
    (hn : n.isText = true) (hx : ¬c.Exact) :
    c.Twin (.column table n) (.column table' n) := by
  obtain ⟨f, hf⟩ := qualified_isName h hn
  obtain ⟨g, hg⟩ := qualified_isName h' hn
  refine twin_column ?_
  rw [hf, hg]
  exact paired_ok (same_of_not_exact hx f g)

theorem isName_of_isText {n : Name} (h : n.isText = true) : n.isName = true := by
  rw [Expr.isName, h, Bool.or_true]

/-- The column of a table, or of the target of a merge where no table is given. -/
theorem mergeScope_column {target table n : Name} (ht : target.isText = true)
    (h : table.isName = true) : ∃ table', table'.isName = true ∧
      mergeScope target (.column table n) = .column table' n := by
  unfold mergeScope
  split
  next heq => cases heq
  next heq =>
    cases heq
    exact ⟨target, isName_of_isText ht, rfl⟩
  · exact ⟨table, h, rfl⟩

/-- The references of a merge, replaced by SQL Server twice. -/
theorem rewrites_merge {target : Name} (ht : target.isText = true) :
    (alone .mssql).Rewrites (fun e => .ok (mergeScope target e))
      (fun e => .ok (mergeScope target e)) where
  names := .inr rfl
  keeps e he := by rw [keeps_mergeScope _ he]; exact ⟨rfl, rfl⟩
  column table n h := by
    obtain ⟨table', h', heq⟩ := mergeScope_column (n := n) ht h.1.1
    rw [heq]
    exact paired_ok (meets_merged h' h' h.1.2 id).rewritten
  star table h := paired_ok (Asks.star h).rewritten
  excluded n h :=
    paired_ok (meets_merged (isName_of_isText rfl) (isName_of_isText rfl) h.1 id).rewritten

/-- The references of an upsert, replaced by PostgreSQL and, for a merge, by SQL Server. -/
theorem rewrites_upsert {target : Name} (ht : target.isText = true) :
    (portable .mssql).Rewrites (fun e => .ok (replaceExcluded (incoming .postgres) e))
      (fun e => .ok (mergeScope target e)) where
  names := .inl trivial
  keeps e he := by rw [keeps_mergeScope _ he, keeps_replaceExcluded _ he]; exact ⟨rfl, rfl⟩
  column table n h := by
    obtain ⟨table', h', heq⟩ := mergeScope_column (n := n) ht h.1.1
    rw [heq]
    exact paired_ok (meets_merged h.1.1 h' h.1.2 id).rewritten
  star table h := paired_ok (Asks.star h).rewritten
  excluded n h :=
    paired_ok (meets_merged (isName_of_isText rfl) (isName_of_isText rfl) h.1 id).rewritten

/-- The columns of what is returned, taken from an image. -/
theorem rewrites_image (side : RowImage) :
    (alone .mssql).Rewrites (imageOf side) (imageOf side) where
  names := .inr rfl
  keeps e he := ⟨keeps_imageOf side he, keeps_imageOf side he⟩
  column table n h := by
    obtain ⟨s, hs⟩ := Option.isSome_iff_exists.mp h.1.2
    have himage : imageOf side (.column table n) = .ok (.image side (some s)) := by
      rw [imageOf, hs]
    rw [himage]
    exact paired_ok (twin_image side (some s)).rewritten
  star table h := paired_ok (twin_image side none).rewritten
  excluded n h := paired_ok (twin_excluded n).rewritten

/-! ## Clauses -/

theorem meets_rebuilt {α β : Type} {R : α → β → Prop} {x : Build α} {y : Build β}
    (h : Paired R c.Faults x y) : Paired R c.Allows (rebuilt x) (rebuilt y) := by
  rcases h.cases with ⟨a, b, rfl, rfl, hab⟩ | ⟨e, e', rfl, rfl, he, he'⟩
  · exact paired_ok hab
  · exact paired_error he he'

theorem targetOf_isTarget {o : Source} (h : o.IsTarget) : ∃ f, targetOf o = .ok f := by
  obtain ⟨t, rfl, ht⟩ := h
  exact tableName_isText ht.schema ht.name

theorem meets_targetOf {o : Source} (h : c.Typed → o.IsTarget) :
    c.Meets (targetOf o) (targetOf o) :=
  meets_self fun ht => targetOf_isTarget (h ht)

theorem meets_namesOf {ns : List Name} (h : c.Typed → ∀ n ∈ ns, n.isText = true) :
    c.Meets (namesOf ns) (namesOf ns) :=
  meets_self fun ht => namesOf_isText (h ht)

theorem meets_itemList {items items' : List SelectItem} (h : Forall₂ c.ItemTwin items items')
    (ha : c.Typed → areNamed items) :
    c.Meets (itemList c.left items) (itemList c.right items') :=
  (meets_allOk (meets_renderItems h ha)).bind fun _ _ hfs =>
    (meets_requireTexts (sides_unnamed h)).bind fun _ _ _ => paired_ok (hfs.2.congr _)

theorem meets_conditionClause {filter filter' : Option Expr}
    (h : Option.Rel c.Twin filter filter') :
    c.Meets (conditionClause c.left filter) (conditionClause c.right filter') :=
  (meets_renderFilter h "WHERE").bind fun _ _ hf =>
    (meets_requireTexts (sides_option h)).bind fun _ _ _ => paired_ok hf

/-- What a dialect other than SQL Server returns. Only MySQL cannot, and that may come up only where
it is compared with itself. -/
theorem meets_returningClause {items : List SelectItem} (h : allItems c.Asks items)
    (ha : c.Typed → areNamed items) (hp : c.IsPortable → items = []) :
    c.Meets (returningClause c.left items) (returningClause c.right items) := by
  have list : c.Meets (itemList c.left items >>= fun f => pure ["RETURNING " ++ f])
      (itemList c.right items >>= fun f => pure ["RETURNING " ++ f]) :=
    (meets_itemList (itemTwins_self (twin_items items h)) ha).bind fun _ _ hf =>
      paired_ok (hf.congr fun f => [Fragment.ofText "RETURNING " ++ f])
  unfold returningClause
  cases hi : items.isEmpty with
  | true => exact paired_ok (same_refl _)
  | false =>
    -- one dialect may lack the clause, all dialects together have it, and portable statements do
    -- not ask for it
    cases c with
    | alone d =>
      cases hd : d.hasReturning with
      | true =>
        simp only [left, right, hd]
        exact list
      | false =>
        simp only [left, right, hd]
        exact meets_lacks _ _
    | shared => exact list
    | portable d =>
      rw [hp ⟨d, rfl⟩] at hi
      cases hi

/-- What SQL Server returns. -/
theorem meets_outputClause (side : RowImage) {items : List SelectItem}
    (h : allItems (alone .mssql).Asks items) (ha : areNamed items)
    (hroot : ∀ i ∈ items, i.expr.isExpr = true ∨ i.expr.isRecord = true) :
    (alone .mssql).Meets (outputClause side items) (outputClause side items) := by
  have images : Paired (fun is is' => Forall₂ (alone .mssql).ItemTwin is is' ∧ areNamed is)
      (alone .mssql).Faults (imageItems side items) (imageItems side items) := by
    induction items with
    | nil => exact paired_ok ⟨.nil, List.forall_mem_nil _⟩
    | cons i rest ih =>
      obtain ⟨hi, hrest⟩ := List.forall_mem_cons.mp hroot
      obtain ⟨hai, harest⟩ := List.forall_mem_cons.mp ha
      rw [allItems_iff, List.forall_mem_cons] at h
      exact (paired_mapNodesM (rewrites_image side) h.1 fun _ => hi).bind fun _ _ he =>
        (ih (allItems_iff.mpr h.2) harest hrest).bind fun _ _ hs =>
        paired_ok ⟨.cons ⟨rfl, he.twin⟩ hs.1, List.forall_mem_cons.mpr ⟨hai, hs.2⟩⟩
  unfold outputClause
  split
  · exact paired_ok (same_refl _)
  · exact (meets_rebuilt images).bind fun _ _ hs =>
      (meets_itemList hs.1 fun _ => hs.2).bind fun _ _ _ => meets_ok _ _

/-! ## Assignments -/

theorem meets_assignment {column : Name} {value value' : Expr} (h : c.Twin value value')
    (hn : c.Typed → column.isText = true) :
    c.Meets (Assignment.render c.left ⟨column, value⟩)
      (Assignment.render c.right ⟨column, value'⟩) :=
  (meets_nameOf hn).bind fun _ _ hn => h.written.bind fun _ _ hf =>
    paired_ok (hn.congr₂ hf fun n f => n ++ " = " ++ f)

/-- Whether the values of assignments fit the comparison. -/
def AsksAll (c : Pairing) (assignments : List Assignment) : Prop :=
  ∀ a ∈ assignments, a.value.All c.Asks ∧ (c.Typed → a.IsTyped)

theorem meets_assignmentList {assignments : List Assignment} (h : c.AsksAll assignments) :
    c.Meets (assignmentList c.left assignments) (assignmentList c.right assignments) := by
  have each : Forall₂ c.Meets (assignments.map fun a => a.render c.left)
      (assignments.map fun a => a.render c.right) := by
    rw [List.forall₂_map_left_iff, List.forall₂_map_right_iff]
    exact List.forall₂_same.mpr fun a ha =>
      meets_assignment (twin_self a.value (h a ha).1) fun ht => ((h a ha).2 ht).column
  exact (meets_allOk each).map fun _ _ hfs => hfs.2.congr _

theorem meets_mappedList {g g' : Expr → Expr}
    (hr : c.Rewrites (fun e => .ok (g e)) (fun e => .ok (g' e))) {assignments : List Assignment}
    (h : c.AsksAll assignments) :
    c.Meets (mappedList c.left g assignments) (mappedList c.right g' assignments) := by
  have each : Forall₂ c.Meets
      (assignments.map fun a => do
        let value ← rebuilt (Expr.mapNodes g a.value)
        Assignment.render c.left ⟨a.column, value⟩)
      (assignments.map fun a => do
        let value ← rebuilt (Expr.mapNodes g' a.value)
        Assignment.render c.right ⟨a.column, value⟩) := by
    rw [List.forall₂_map_left_iff, List.forall₂_map_right_iff]
    refine List.forall₂_same.mpr fun a ha => ?_
    have root : c.IsAlone → a.value.isExpr = true ∨ a.value.isRecord = true := fun hal =>
      .inl ((h a ha).2 (typed_of_isAlone hal)).value
    exact (meets_rebuilt (paired_mapNodesM hr (h a ha).1 root)).bind fun _ _ hv =>
      meets_assignment hv.twin fun ht => ((h a ha).2 ht).column
  exact (meets_allOk each).map fun _ _ hfs => hfs.2.congr _

/-! ## Rows -/

theorem meets_valuesOf {rows : List (List Expr)} (h : ∀ row ∈ rows, allExprs c.Asks row) :
    c.Meets (valuesOf c.left rows) (valuesOf c.right rows) := by
  have each : Forall₂ c.Meets
      (rows.map fun row => (textsOf row (renderEach c.left row)).map Fragment.tuple)
      (rows.map fun row => (textsOf row (renderEach c.right row)).map Fragment.tuple) := by
    rw [List.forall₂_map_left_iff, List.forall₂_map_right_iff]
    exact List.forall₂_same.mpr fun row hrow =>
      (meets_texts (Twin.sides (twins_self row (h row hrow)))).map fun _ _ hfs => hfs.2.congr _
  exact (meets_allOk each).bind fun _ _ hfs =>
    paired_ok (hfs.2.congr fun fs => Fragment.ofText "VALUES " ++ Fragment.join ", " fs)

end Pairing

end SqlScribe
