import SqlScribe.Proofs.Rewriting

/-!
# Whole statements

A statement binds the values of its trees one tree after the other. `Statement.trees` lists them in
the order of a dialect: SQL Server binds what a change returns before the condition or the rows, and
the condition of an upsert before its assignments. Whatever is written for a statement fits the
skeletons of these trees.
-/

namespace SqlScribe

open Fragment (Fits Leads FitsBefore)

/-! ## Trees of statements -/

/-- The assignments of an upsert. -/
def Insert.assignments (i : Insert) : List Assignment :=
  i.conflict.toList.flatMap ConflictClause.assignments

/-- The condition of an upsert. -/
def Insert.condition (i : Insert) : List Expr :=
  i.conflict.toList.flatMap fun c => c.filter?.toList

theorem Insert.assignments_of_conflict (i : Insert) {c : ConflictClause}
    (h : i.conflict = some c) : i.assignments = c.assignments := by
  simp [assignments, h]

theorem Insert.condition_of_conflict (i : Insert) {c : ConflictClause}
    (h : i.conflict = some c) : i.condition = c.filter?.toList := by
  simp [condition, h]

/-- The trees of an insert in the order in which a dialect binds them. -/
def Insert.trees (d : Dialect) (i : Insert) : List Tree :=
  match d, i.conflict with
  | .mssql, none => itemTrees i.returning ++ i.source.trees
  | .mssql, some _ =>
    i.source.trees ++ i.condition.map .expr ++ valueTrees i.assignments ++ itemTrees i.returning
  | _, _ =>
    i.source.trees ++ valueTrees i.assignments ++ i.condition.map .expr ++ itemTrees i.returning

/-- The condition of a change and what it returns, in the order in which a dialect binds them. -/
def tailTrees (d : Dialect) (filter : Option Expr) (returning : List SelectItem) : List Tree :=
  match d with
  | .mssql => itemTrees returning ++ filter.toList.map .expr
  | _ => filter.toList.map .expr ++ itemTrees returning

/-- The trees of a statement in the order in which a dialect binds them. -/
def Statement.trees (d : Dialect) : Statement → List Tree
  | .select s => [.select s]
  | .union u => u.members.map .select
  | .insert i => i.trees d
  | .update u => valueTrees u.assignments ++ tailTrees d u.filter u.returning
  | .delete x => tailTrees d x.filter x.returning

/-- What a dialect binds for trees, one after the other. -/
def skeletons (d : Dialect) (ts : List Tree) : Fragment := .concat (ts.map (Tree.skeleton d))

/-- Trees bind their values one after the other. -/
@[simp] theorem skeletons_append (d : Dialect) (ts us : List Tree) :
    skeletons d (ts ++ us) = skeletons d ts ++ skeletons d us := by
  simp [skeletons]

/-- The dialects bind the same trees in different orders. -/
theorem Statement.trees_perm (d : Dialect) (s : Statement) :
    (s.trees d).Perm (s.clauses ++ s.extras) := by
  cases s with
  | select s | union u => simp [trees, clauses, extras]
  | insert i =>
    simp only [trees, clauses, extras, Insert.trees, Insert.assignments, Insert.condition]
    -- SQL Server has what is returned in front of the condition
    split
    next hc =>
      rw [hc]
      simpa [valueTrees] using List.perm_append_comm
    · simp only [List.append_assoc]
      exact List.Perm.append_left _ (List.perm_append_comm_assoc _ _ _)
    · simp only [List.append_assoc]
      exact .refl _
  | update u =>
    simp only [trees, clauses, extras, tailTrees, List.append_assoc]
    refine List.Perm.append_left _ ?_
    split
    · exact List.perm_append_comm
    · exact .refl _
  | delete x =>
    simp only [trees, clauses, extras, tailTrees]
    split
    · exact List.perm_append_comm
    · exact .refl _

/-- Whether no node of some trees is a raw fragment, as far as a strict proof asks for it. -/
def Clean (strict : Prop) (ts : List Tree) : Prop :=
  ∀ t ∈ ts, strict → t.Every fun n => n.isRaw = false

section

variable {strict : Prop} {style : Style} {ts us : List Tree}

/-- Two parts without raw fragments. -/
theorem Clean.append (h : Clean strict (ts ++ us)) : Clean strict ts ∧ Clean strict us :=
  List.forall_mem_append.mp h

/-- Trees without raw fragments are walked through. -/
theorem Clean.walks (h : Clean strict ts) : ∀ t ∈ ts, Walks strict style t :=
  fun t ht => SqlScribe.walks t (h t ht)

/-! ## Common clauses -/

/-- The target of a change is a name. -/
theorem comes_targetOf (o : Source) : Comes strict style .empty (targetOf o) := by
  unfold targetOf
  split
  · exact comes_tableName _ _
  · exact comes_error

/-- A list of items binds the values of its items. -/
theorem comes_itemList {items : List SelectItem} (h : Clean strict (itemTrees items)) :
    Comes strict style (skeletons style.dialect (itemTrees items))
      (itemList style.dialect items) :=
  bind_allOk (comes_renderItems h.walks) fun _ hfs => yields_after fun _ =>
    comes_ok (fits_join (by decide) hfs)

/-- A condition behind its word. -/
theorem yields_conditionClause {filter : Option Expr}
    (h : Clean strict (filter.toList.map .expr)) :
    Yields (ClausesFit strict style (skeletons style.dialect (filter.toList.map .expr)))
      (conditionClause style.dialect filter) :=
  (yields_renderFilter (by decide) fun _ he => h.walks _ (List.mem_map_of_mem he)).bind fun _ hc =>
    yields_after fun _ => yields_ok hc

/-- The returned columns behind their word, if there are any. -/
theorem yields_returningClause {items : List SelectItem} (h : Clean strict (itemTrees items)) :
    Yields (ClausesFit strict style (skeletons style.dialect (itemTrees items)))
      (returningClause style.dialect items) := by
  unfold returningClause
  split
  next hi =>
    obtain rfl := List.isEmpty_iff.mp hi
    exact yields_ok .nil
  · split
    · exact yields_error
    · exact Yields.bind (comes_itemList h) fun f hf => yields_ok (.one (hf.after (by decide)))

/-- The columns of an output clause are rewritten, and bind the same values as before. -/
theorem yields_outputClause (hd : style.dialect = .mssql) (side : RowImage)
    {items : List SelectItem} (h : Clean strict (itemTrees items)) :
    Yields (ClausesFit strict style (skeletons style.dialect (itemTrees items)))
      (outputClause side items) := by
  unfold outputClause
  split
  next hi =>
    obtain rfl := List.isEmpty_iff.mp hi
    exact yields_ok .nil
  · refine (yields_rebuilt (yields_imageItems side items)).bind fun items' ha => ?_
    -- what takes the place of a column has no raw fragment either
    have clean : Clean strict (itemTrees items') := fun t ht hs =>
      Tree.Alike.clean_all ha (fun t ht => h t ht hs) t ht
    have same : skeletons style.dialect (itemTrees items') =
        skeletons style.dialect (itemTrees items) :=
      congrArg Fragment.concat (Tree.Alike.map_skeleton ha _)
    have list : Comes strict style (skeletons style.dialect (itemTrees items))
        (itemList .mssql items') := by
      rw [← hd, ← same]
      exact comes_itemList clean
    exact Yields.bind list fun f hf => yields_ok (.one (hf.after (by decide)))

/-! ## Assignments -/

/-- An assignment of what a value was rewritten to binds what the value binds. -/
theorem comes_assignment (column : Name) {e e' : Expr} (h : Alike e e')
    (hc : strict → (Tree.expr e).Every fun n => n.isRaw = false) :
    Comes strict style ((Tree.expr e).skeleton style.dialect)
      (Assignment.render style.dialect ⟨column, e'⟩) := by
  have value : Comes strict style ((Tree.expr e).skeleton style.dialect)
      (e'.render style.dialect) :=
    Comes.of_eq (walks (.expr e') fun hs => h.tree.clean (hc hs)) (h.tree.binds _)
  exact (comes_nameOf column).bind fun c hn => value.bind fun f hf => comes_ok
    (((hn.link (by decide)).append hf).of_eq (Fragment.empty_append _))

/-- Assignments are joined with commas, whatever is made of their values first. -/
theorem comes_assignments {assignments : List Assignment}
    {g : Assignment → Rendered Fragment}
    (h : ∀ a ∈ assignments, Comes strict style ((Tree.expr a.value).skeleton style.dialect) (g a)) :
    Comes strict style (skeletons style.dialect (valueTrees assignments))
      ((allOk (assignments.map g)).map (Fragment.join ", ")) := by
  refine Yields.map (yields_allOk ?_) fun fs hfs => fits_join (by decide) hfs
  rw [valueTrees, List.map_map, List.forall₂_map_left_iff, List.forall₂_map_right_iff,
    List.forall₂_same]
  exact h

/-- The value of an assignment in a list without raw fragments. -/
theorem clean_value {assignments : List Assignment} (h : Clean strict (valueTrees assignments))
    {a : Assignment} (ha : a ∈ assignments) :
    strict → (Tree.expr a.value).Every fun n => n.isRaw = false :=
  h _ (List.mem_map.mpr ⟨a, ha, rfl⟩)

/-- Assignments as they are. -/
theorem comes_assignmentList {assignments : List Assignment}
    (h : Clean strict (valueTrees assignments)) :
    Comes strict style (skeletons style.dialect (valueTrees assignments))
      (assignmentList style.dialect assignments) :=
  comes_assignments fun a ha => comes_assignment a.column (.refl a.value) (clean_value h ha)

/-- Assignments whose values are rewritten to what is alike. -/
theorem comes_mappedList {g : Expr → Expr} (hg : ∀ e, Alike e (g e))
    {assignments : List Assignment} (h : Clean strict (valueTrees assignments)) :
    Comes strict style (skeletons style.dialect (valueTrees assignments))
      (mappedList style.dialect g assignments) :=
  comes_assignments fun a ha => (yields_rebuilt (yields_mapNodes hg a.value)).bind fun _ he =>
    comes_assignment a.column he (clean_value h ha)

/-! ## Rows of an insert -/

/-- Rows bind their values row by row. -/
theorem comes_valuesOf {rows : List (List Expr)} (h : Clean strict (rows.flatten.map .expr)) :
    Comes strict style (skeletons style.dialect (rows.flatten.map .expr))
      (valuesOf style.dialect rows) := by
  have each : List.Forall₂ (Comes strict style)
      (rows.map fun row => skeletons style.dialect (row.map .expr))
      (rows.map fun row => (textsOf row (renderEach style.dialect row)).map Fragment.tuple) := by
    rw [List.forall₂_map_left_iff, List.forall₂_map_right_iff, List.forall₂_same]
    intro row hrow
    have hwalk : ∀ e ∈ row, Walks strict style (.expr e) := fun e he =>
      h.walks _ (List.mem_map_of_mem (List.mem_flatten_of_mem hrow he))
    exact Yields.map (yields_textsOf row (comes_renderEach hwalk)) fun _ hfs => fits_tuple hfs
  have same : Fragment.concat (rows.map fun row => skeletons style.dialect (row.map .expr)) =
      skeletons style.dialect (rows.flatten.map .expr) := by
    rw [skeletons, List.map_flatten, List.map_flatten, Fragment.concat_flatten, List.map_map,
      List.map_map]
    rfl
  refine (bind_allOk each fun fs hfs => comes_ok ?_).of_eq same
  exact FitsBefore.after (fits_join (by decide) hfs) (by decide)

/-- The rows of an insert, given as lists or by a query. -/
theorem comes_renderQuery {source : InsertSource} (h : Clean strict source.trees) :
    Comes strict style (skeletons style.dialect source.trees)
      (source.renderQuery style.dialect) := by
  cases source with
  | rows lists => exact comes_valuesOf h
  | query s =>
    have hs : Walks strict style (.select s) := h.walks _ (by simp [InsertSource.trees])
    exact Comes.of_eq hs (Fragment.concat_one _).symm
  | draft s =>
    exact yields_after fun _ => yields_after fun _ => yields_after fun _ => yields_after fun _ =>
      yields_error

/-- On SQLite a query in front of a conflict clause is wrapped, and binds what it binds. -/
theorem comes_rowSource {i : Insert} (h : Clean strict i.source.trees) :
    Comes strict style (skeletons style.dialect i.source.trees)
      (i.rowSource style.dialect) := by
  refine (comes_renderQuery h).bind fun f hf => ?_
  split
  · exact comes_ok (FitsBefore.text (hf.parens.after (by decide)) (by decide))
  · exact comes_ok hf

/-- The head of an insert consists of names. -/
theorem comes_head (i : Insert) : Comes strict style .empty i.head :=
  (comes_targetOf i.target).bind fun t ht => (comes_namesOf i.columns).bind fun c hc =>
    comes_ok ((((ht.after (by decide)).link (by decide)).append hc.parens).of_eq
      (Fragment.empty_append _))

/-! ## Upserts -/

namespace Conflict

/-- The trees of the condition of a conflict clause. -/
def filterTrees : ConflictAction → List Tree
  | .update _ filter => filter.toList.map .expr
  | .nothing => []

/-- The trees of the assignments of a conflict clause. -/
def assignedTrees : ConflictAction → List Tree
  | .update assignments _ => valueTrees assignments
  | .nothing => []

/-- What an action assigns is what its conflict assigns. -/
theorem assignedTrees_eq (c : Conflict) :
    valueTrees (ConflictClause.conflict c).assignments = assignedTrees c.action := by
  rcases c with ⟨target, _ | _⟩ <;> rfl

/-- What an action asks for is what its conflict asks for. -/
theorem filterTrees_eq (c : Conflict) :
    (ConflictClause.conflict c).filter?.toList.map Tree.expr = filterTrees c.action := by
  rcases c with ⟨target, _ | _⟩ <;> rfl

end Conflict

namespace Insert

variable {i : Insert}

/-- Without a conflict, what is returned is bound before the rows. -/
theorem trees_of_none (h : i.conflict = none) :
    i.trees .mssql = itemTrees i.returning ++ i.source.trees := by
  simp [trees, h]

/-- A merge binds the condition before the assignments. -/
theorem trees_of_conflict {c : Conflict} (h : i.conflict = some (.conflict c)) :
    i.trees .mssql = i.source.trees ++ Conflict.filterTrees c.action ++
      Conflict.assignedTrees c.action ++ itemTrees i.returning := by
  rw [← Conflict.assignedTrees_eq, ← Conflict.filterTrees_eq,
    ← i.assignments_of_conflict h, ← i.condition_of_conflict h]
  simp [trees, h]

end Insert

/-- The condition of an upsert, rewritten. -/
theorem yields_filterClause {filter : Option Expr} (h : Clean strict (filter.toList.map .expr)) :
    Yields (ClausesFit strict style (skeletons style.dialect (filter.toList.map .expr)))
      (Conflict.filterClause style.dialect filter) := by
  cases filter with
  | none => exact yields_ok .nil
  | some e =>
    refine (yields_rebuilt (yields_mapNodes (alike_replaceExcluded style.dialect) e)).bind
      fun e' he => ?_
    have clean : Clean strict [.expr e'] := by
      intro t ht hs
      obtain rfl := List.mem_singleton.mp ht
      exact he.tree.clean (h (.expr e) (by simp) hs)
    have written : Yields (ClausesFit strict style (skeletons style.dialect [.expr e']))
        (conditionClause style.dialect (some e')) := yields_conditionClause clean
    exact written.mono fun fs hfs => hfs.of_eq (by simp [skeletons, he.tree.binds])

/-- The clause of SQLite and PostgreSQL: assignments first, then the condition. -/
theorem comes_onConflict (c : Conflict)
    (ha : Clean strict (Conflict.assignedTrees c.action))
    (hf : Clean strict (Conflict.filterTrees c.action)) :
    Comes strict style (skeletons style.dialect
        (Conflict.assignedTrees c.action ++ Conflict.filterTrees c.action))
      (c.onConflict style.dialect) := by
  obtain ⟨target, action⟩ := c
  -- the target binds nothing, so the clause binds what its action binds
  have whole : ∀ (E : Fragment) (ts as : List Fragment), ClausesFit strict style .empty ts →
      ClausesFit strict style E as →
      Fits strict style E (Fragment.join " " (Fragment.ofText "ON CONFLICT" :: ts ++ as)) := by
    intro E ts as hts has
    have head : Fits strict style .empty "ON CONFLICT" := leads_text (by decide)
    exact (((ClausesFit.cons head hts).append has).of_eq (Fragment.empty_append _)).join (by decide)
  have columns : Comes strict style .empty ((namesOf target).map Fragment.parens) :=
    (comes_namesOf target).map fun _ h => h.parens
  cases action with
  | nothing =>
    have idle : ClausesFit strict style .empty [Fragment.ofText "DO NOTHING"] :=
      .one (leads_text (by decide))
    unfold Conflict.onConflict
    dsimp only
    split
    · exact comes_ok (whole _ _ _ .nil idle)
    · exact (comes_namesOf target).bind fun t ht => comes_ok (whole _ _ _ (.one ht.parens) idle)
  | update assignments filter =>
    have rest : ∀ ts, ClausesFit strict style .empty ts → Comes strict style _
        (mappedList style.dialect (replaceExcluded (incoming style.dialect)) assignments >>=
          fun list => Conflict.filterClause style.dialect filter >>= fun filter =>
            .ok (Fragment.join " "
              (Fragment.ofText "ON CONFLICT" :: ts ++ ("DO UPDATE SET " ++ list) :: filter))) :=
      fun ts hts => (comes_mappedList (alike_replaceExcluded _) ha).bind fun list hl =>
        Yields.bind (yields_filterClause hf) fun fs hfs =>
          comes_ok (whole _ _ _ hts (.cons (hl.after (by decide)) hfs))
    unfold Conflict.onConflict
    dsimp only
    rw [skeletons_append]
    split
    · exact rest [] .nil
    · exact (comes_namesOf target).bind fun t ht => rest [t.parens] (.one ht.parens)

/-- The clause of MySQL, which has no condition. -/
theorem comes_onDuplicateKey (hd : style.dialect = .mysql) (columns : List Name) (c : Conflict)
    (ha : Clean strict (Conflict.assignedTrees c.action)) :
    Comes strict style (skeletons style.dialect
        (Conflict.assignedTrees c.action ++ Conflict.filterTrees c.action))
      (c.onDuplicateKey columns) := by
  obtain ⟨target, action⟩ := c
  obtain ⟨d, quoteAll⟩ := style
  obtain rfl : d = .mysql := hd
  cases action with
  | nothing =>
    exact (comes_nameOf _).bind fun n hn => comes_ok
      ((((hn.after (by decide)).link (by decide)).append hn).of_eq (Fragment.empty_append _))
  | update assignments filter =>
    unfold Conflict.onDuplicateKey
    cases filter with
    | some e => exact comes_error
    | none =>
      refine ((comes_mappedList (alike_replaceExcluded .mysql) ha).bind fun f hf =>
        comes_ok (hf.after (by decide))).of_eq ?_
      rw [skeletons_append]
      exact (Fragment.append_empty _).symm

/-! ## Merging -/

/-- A column compared with its counterpart is made of names. -/
theorem comes_sameColumn (left right column : Name) :
    Comes strict style .empty (sameColumn left right column) :=
  (comes_nameIn left column).bind fun _ hl => (comes_nameIn right column).bind fun _ hr =>
    comes_ok ((hl.link (by decide)).append hr)

/-- The clause of SQL Server: the condition first, then the assignments. -/
theorem yields_matchedClause (hd : style.dialect = .mssql) (target : Name)
    {action : ConflictAction} (ha : Clean strict (Conflict.assignedTrees action))
    (hf : Clean strict (Conflict.filterTrees action)) :
    Yields (ClausesFit strict style (skeletons style.dialect
        (Conflict.filterTrees action ++ Conflict.assignedTrees action)))
      (matchedClause target action) := by
  obtain ⟨d, quoteAll⟩ := style
  obtain rfl : d = .mssql := hd
  cases action with
  | nothing => exact yields_ok .nil
  | update assignments filter =>
    have list : Comes strict ⟨.mssql, quoteAll⟩ _
        (mappedList .mssql (mergeScope target) assignments) :=
      comes_mappedList (alike_mergeScope target) ha
    have rest : ∀ (E : Fragment) (cs : List Fragment),
        Fits strict ⟨.mssql, quoteAll⟩ E ("WHEN MATCHED" ++ Fragment.join "" cs) →
        Yields
          (ClausesFit strict ⟨.mssql, quoteAll⟩ (E ++ skeletons .mssql (valueTrees assignments)))
          (mappedList .mssql (mergeScope target) assignments >>= fun list =>
            .ok ["WHEN MATCHED" ++ Fragment.join "" cs, "THEN UPDATE SET " ++ list]) :=
      fun E cs hcs => Yields.bind list fun l hl =>
        yields_ok (.cons hcs (.one (hl.after (by decide))))
    unfold matchedClause
    cases filter with
    | none => exact rest .empty [] (FitsBefore.append (leads_text (by decide)) fits_empty)
    | some e =>
      refine (yields_rebuilt (yields_mapNodes (alike_mergeScope target) e)).bind fun e' he => ?_
      have condition : Comes strict ⟨.mssql, quoteAll⟩ ((Tree.expr e).skeleton .mssql)
          (conditionOf .mssql e' (e'.render .mssql)) := by
        rw [← he.tree.binds]
        exact comes_conditionOf (walks (.expr e') fun hs =>
          he.tree.clean (hf (.expr e) (by simp [Conflict.filterTrees]) hs))
      refine Yields.bind condition fun f hf => yields_after fun _ => ?_
      refine Yields.mono (rest ((Tree.expr e).skeleton .mssql) [" AND " ++ f] ?_) fun fs hfs =>
        hfs.of_eq ?_
      · exact (hf.after (by decide)).after (by decide)
      · simp [skeletons, Conflict.filterTrees, Conflict.assignedTrees]

/-- An upsert of SQL Server binds its rows, its condition, its assignments and what it returns. -/
theorem comes_merge (hd : style.dialect = .mssql) (i : Insert) (c : Conflict)
    (hrows : Clean strict i.source.trees) (ha : Clean strict (Conflict.assignedTrees c.action))
    (hf : Clean strict (Conflict.filterTrees c.action))
    (hreturning : Clean strict (itemTrees i.returning)) :
    Comes strict style (skeletons style.dialect (i.source.trees ++ Conflict.filterTrees c.action ++
      Conflict.assignedTrees c.action ++ itemTrees i.returning)) (i.merge c) := by
  have rowsOf : Comes strict style (skeletons style.dialect i.source.trees)
      (i.source.renderQuery .mssql) := hd ▸ comes_renderQuery hrows
  unfold Insert.merge
  refine yields_after fun _ => yields_after fun target => (comes_nameOf target).bind fun tn htn =>
    (comes_nameOf mergeAlias).bind fun sn hsn => (comes_namesOf i.columns).bind fun cs hcs =>
    rowsOf.bind fun rows hrows => bind_names (fun k _ => comes_sameColumn target mergeAlias k)
    fun pairs hpairs => (comes_targetOf i.target).bind fun table htable =>
    Yields.bind (yields_matchedClause hd target ha hf) fun matched hmatched =>
    bind_names (fun k _ => comes_nameIn mergeAlias k) fun incoming hincoming =>
    Yields.bind (yields_outputClause hd .inserted hreturning) fun output houtput => comes_ok ?_
  -- one fact for each clause, in the order of the text
  have into : Fits strict style .empty ("MERGE INTO " ++ table ++ " AS " ++ tn) :=
    ((htable.after (by decide)).link (by decide)).append htn
  have using' : Fits strict style (skeletons style.dialect i.source.trees)
      ("USING " ++ rows.parens ++ " AS " ++ sn ++ " " ++ cs.parens) :=
    (((((FitsBefore.after hrows.parens (by decide)).text (by decide)).append hsn).link
      (by decide)).append hcs.parens).of_eq (by simp)
  have on : Fits strict style .empty ("ON " ++ Fragment.join " AND " pairs) :=
    (fits_join_empty (by decide) hpairs).after (by decide)
  have inserted : Fits strict style .empty ("WHEN NOT MATCHED THEN INSERT " ++ cs.parens ++
      " VALUES " ++ Fragment.tuple incoming) :=
    ((FitsBefore.after hcs.parens (by decide)).text (by decide)).append
      (FitsBefore.parens (fits_join_empty (by decide) hincoming))
  have clauses := (((ClausesFit.cons into (.cons using' (.one on))).append hmatched).append
    (.one inserted)).append houtput
  exact ((clauses.of_eq (by simp [Fragment.append_assoc])).join (by decide)).link (by decide)

/-! ## Statements -/

/-- A conflict clause, where there is a form for it. -/
theorem comes_conflictClause (hd : style.dialect ≠ .mssql) (columns : List Name)
    (clause : ConflictClause) (ha : Clean strict (valueTrees clause.assignments))
    (hf : Clean strict (clause.filter?.toList.map .expr)) :
    Comes strict style (skeletons style.dialect
        (valueTrees clause.assignments ++ clause.filter?.toList.map .expr))
      (clause.render style.dialect columns) := by
  cases clause with
  | other object => exact comes_error
  | conflict c =>
    rw [Conflict.assignedTrees_eq] at ha ⊢
    rw [Conflict.filterTrees_eq] at hf ⊢
    obtain ⟨d, quoteAll⟩ := style
    cases d with
    | mysql => exact comes_onDuplicateKey rfl columns c ha
    | sqlite | postgres => exact comes_onConflict c ha hf
    | mssql => exact absurd rfl hd

/-- An insert of a dialect that has conflict clauses. -/
theorem comes_insertWith (hd : style.dialect ≠ .mssql) (i : Insert)
    (h : Clean strict (i.source.trees ++ valueTrees i.assignments ++ i.condition.map .expr ++
      itemTrees i.returning)) :
    Comes strict style (skeletons style.dialect (i.source.trees ++ valueTrees i.assignments ++
        i.condition.map .expr ++ itemTrees i.returning)) (i.render style.dialect) := by
  rw [Insert.render_of_ne hd]
  obtain ⟨h, hreturning⟩ := h.append
  obtain ⟨h, hcondition⟩ := h.append
  obtain ⟨hrows, hassigned⟩ := h.append
  have conflicts : Yields (ClausesFit strict style
      (skeletons style.dialect (valueTrees i.assignments ++ i.condition.map .expr)))
      (allOk (i.conflict.toList.map fun c => c.render style.dialect i.columns)) := by
    cases hc : i.conflict with
    | none =>
      rw [Insert.assignments, Insert.condition, hc]
      exact yields_ok .nil
    | some c =>
      rw [i.assignments_of_conflict hc] at hassigned ⊢
      rw [i.condition_of_conflict hc] at hcondition ⊢
      have clause := comes_conflictClause hd i.columns c hassigned hcondition
      exact Yields.bind clause fun f hf => yields_ok (.one hf)
  refine (comes_head i).bind fun head hhead => (comes_rowSource hrows).bind fun rows hrows =>
    Yields.bind conflicts fun conflict hconflict =>
    Yields.bind (yields_returningClause hreturning) fun returning hreturning => comes_ok ?_
  have clauses := (ClausesFit.cons hhead (.cons hrows hconflict)).append hreturning
  exact (clauses.of_eq (by simp [Fragment.append_assoc])).join (by decide)

/-- An insert, in the order of its dialect. -/
theorem comes_insert (i : Insert) (h : Clean strict (i.trees style.dialect)) :
    Comes strict style (skeletons style.dialect (i.trees style.dialect))
      (i.render style.dialect) := by
  obtain ⟨d, quoteAll⟩ := style
  cases d with
  | mssql =>
    change Clean strict (i.trees .mssql) at h
    show Comes strict ⟨.mssql, quoteAll⟩ (skeletons .mssql (i.trees .mssql)) (i.render .mssql)
    -- with a conflict an insert becomes a merge
    cases hc : i.conflict with
    | none =>
      rw [Insert.trees_of_none hc] at h ⊢
      rw [Insert.render_of_none hc]
      obtain ⟨hreturning, hrows⟩ := h.append
      have output : Yields (ClausesFit strict ⟨.mssql, quoteAll⟩ _)
          (outputClause .inserted i.returning) := yields_outputClause rfl .inserted hreturning
      have rows : Comes strict ⟨.mssql, quoteAll⟩ _ (i.rowSource .mssql) := comes_rowSource hrows
      refine (comes_head i).bind fun head hhead => Yields.bind output fun output houtput =>
        rows.bind fun rows hrows => comes_ok ?_
      have clauses := (ClausesFit.cons hhead houtput).append (.one hrows)
      exact (clauses.of_eq (by simp)).join (by decide)
    | some clause =>
      cases clause with
      | other object =>
        rw [Insert.render_of_other hc]
        exact comes_error
      | conflict c =>
        rw [Insert.trees_of_conflict hc] at h ⊢
        rw [Insert.render_of_conflict hc]
        obtain ⟨h, hreturning⟩ := h.append
        obtain ⟨h, hassigned⟩ := h.append
        obtain ⟨hrows, hcondition⟩ := h.append
        exact comes_merge rfl i c hrows hassigned hcondition hreturning
  | sqlite | mysql | postgres => exact comes_insertWith (by simp) i h

/-- The end of a change, in the order of its dialect. -/
theorem yields_tailClauses (side : RowImage) {filter : Option Expr} {returning : List SelectItem}
    (h : Clean strict (tailTrees style.dialect filter returning)) :
    Yields (ClausesFit strict style
        (skeletons style.dialect (tailTrees style.dialect filter returning)))
      (tailClauses style.dialect side filter returning) := by
  obtain ⟨d, quoteAll⟩ := style
  cases d with
  | mssql =>
    obtain ⟨hr, hf⟩ := Clean.append h
    refine bind_clauses (yields_outputClause rfl side hr) fun output ho =>
      bind_clauses (yields_conditionClause hf) fun clause hc => yields_ok ?_
    exact (ho.append hc).of_eq (skeletons_append _ _ _).symm
  | sqlite | mysql | postgres =>
    obtain ⟨hf, hr⟩ := Clean.append h
    refine bind_clauses (yields_conditionClause hf) fun clause hc =>
      bind_clauses (yields_returningClause hr) fun returned hr => yields_ok ?_
    exact (hc.append hr).of_eq (skeletons_append _ _ _).symm

/-- **Whatever is written for a statement fits the skeletons of its trees**, in the order in which
the dialect binds them. -/
theorem comes_statement (s : Statement) (h : Clean strict (s.trees style.dialect)) :
    Comes strict style (skeletons style.dialect (s.trees style.dialect))
      (s.render style.dialect) := by
  cases s with
  | select s =>
    have hs : Walks strict style (.select s) := h.walks _ (List.mem_singleton_self _)
    exact Comes.of_eq hs (Fragment.concat_one _).symm
  | union u =>
    exact comes_query (q := .union u) fun s hs => h.walks _ (List.mem_map_of_mem hs)
  | insert i => exact comes_insert i h
  | update u =>
    obtain ⟨ha, ht⟩ := Clean.append h
    refine (comes_targetOf u.target).bind fun target htarget =>
      (comes_assignmentList ha).bind fun list hlist =>
      Yields.bind (yields_tailClauses .inserted ht) fun tail htail => comes_ok ?_
    have update : Fits strict style .empty ("UPDATE " ++ target) := htarget.after (by decide)
    have set : Fits strict style (skeletons style.dialect (valueTrees u.assignments))
        ("SET " ++ list) := hlist.after (by decide)
    have clauses := ClausesFit.cons update (.cons set htail)
    exact (clauses.of_eq (by simp [Statement.trees])).join (by decide)
  | delete x =>
    refine (comes_targetOf x.target).bind fun target htarget =>
      Yields.bind (yields_tailClauses .deleted h) fun tail htail => comes_ok ?_
    have delete : Fits strict style .empty ("DELETE FROM " ++ target) :=
      htarget.after (by decide)
    have clauses := ClausesFit.cons delete htail
    exact (clauses.of_eq (Fragment.empty_append _)).join (by decide)

end

end SqlScribe
