import SqlScribe.Proofs.PairedClauses

/-!
# Whole statements, in two runs

A statement is written clause by clause, so it goes together in two runs if its clauses do. Only SQL
Server has another order of clauses, and for an upsert another form altogether. Next to a dialect
that has conflict clauses, the steps of that form come down to two that may fail, the rows and the
assignments, and these come in the same order everywhere; all others only write names.

`Statement.meets` is the one result that the three comparisons draw from. `Fitting` says what a
statement has to fulfil for it, in each of them.
-/

namespace SqlScribe

/-- Whether all nodes of a statement have a property, written or not. -/
def Statement.All (p : Tree → Prop) (s : Statement) : Prop :=
  ∀ t ∈ s.clauses ++ s.extras, t.All p

/-- The expressions that a dialect rebuilds before it writes them although nothing was made of them:
the condition of an upsert, and what SQL Server returns. -/
def Statement.reworked (d : Dialect) : Statement → List Expr
  | .select _ | .union _ => []
  | .insert i => (if d = .mysql then [] else i.condition) ++ returned i.returning
  | .update u => returned u.returning
  | .delete x => returned x.returning
where
  /-- The expressions of what is returned, if they are rebuilt. -/
  returned (items : List SelectItem) : List Expr :=
    if d = .mssql then items.map (·.expr) else []

/-- Whether a conflict is about inserted columns alone and has no condition. -/
structure Conflict.IsPortable (columns : List Name) (k : Conflict) : Prop where
  target : k.target ≠ []
  inserted : ∀ n ∈ k.target, columns.any n.same = true
  filter : (ConflictClause.conflict k).filter? = none

/-- Whether every dialect has the clauses of a statement: nothing is returned, and a conflict is
about inserted columns alone. -/
def Statement.IsPortable : Statement → Prop
  | .select _ | .union _ => True
  | .insert i =>
    i.returning = [] ∧ ∀ k, i.conflict = some (.conflict k) → k.IsPortable i.columns
  | .update u => u.returning = []
  | .delete x => x.returning = []

/-- Whether SQLite wraps the rows of an insert: a select before a conflict clause. -/
def Statement.isWrapped : Statement → Bool
  | .insert ⟨_, _, .query _, some _, _⟩ => true
  | _ => false

namespace Pairing

open List (Forall₂)

variable {c : Pairing}

/-- What a comparison asks of a statement. -/
structure Fitting (c : Pairing) (s : Statement) : Prop where
  nodes : s.All c.Asks
  typed : c.Typed → s.IsTyped
  portable : c.IsPortable → s.IsPortable
  reworked : c.IsAlone → ∀ e ∈ s.reworked c.left, e.isExpr = true ∨ e.isRecord = true
  unwrapped : c.Exact → s.isWrapped = false

variable {s : Statement} {i : Insert} {k : Conflict} {columns : List Name}

theorem left_ne_mssql (h : c.right ≠ .mssql) : c.left ≠ .mssql := by
  cases c with
  | alone d => exact h
  | shared | portable d => exact nofun

theorem allOption_of_forall {p : Tree → Prop} {o : Option Expr}
    (h : ∀ t ∈ o.toList.map Tree.expr, t.All p) : allOption p o :=
  allOption_iff.mpr fun e he => h (.expr e) (List.mem_map_of_mem he)

theorem allItems_of_forall {p : Tree → Prop} {items : List SelectItem}
    (h : ∀ t ∈ itemTrees items, t.All p) : allItems p items :=
  allItems_iff.mpr fun i hi => h (.expr i.expr) (List.mem_map_of_mem hi)

theorem asksAll_of_forall {assignments : List Assignment}
    (h : ∀ t ∈ valueTrees assignments, t.All c.Asks)
    (ht : c.Typed → ∀ a ∈ assignments, a.IsTyped) : c.AsksAll assignments :=
  fun a ha => ⟨h (.expr a.value) (List.mem_map_of_mem ha), fun hc => ht hc a ha⟩

/-! ## Rows of an insert -/

/-- A select that was never finished is never written. -/
theorem renderDraft_eq_error (d : Dialect) (s : Select) : ∃ e, s.renderDraft d = .error e := by
  have never : Yields (fun _ => False) (s.renderDraft d) :=
    yields_after fun _ => yields_after fun _ => yields_after fun _ => yields_after fun _ =>
      yields_error
  cases h : s.renderDraft d with
  | ok f => exact (never f h).elim
  | error e => exact ⟨e, rfl⟩

theorem meets_renderQuery {source : InsertSource} (h : ∀ t ∈ source.trees, t.All c.Asks)
    (hs : c.Typed → source.isFinished = true) :
    c.Meets (source.renderQuery c.left) (source.renderQuery c.right) := by
  cases source with
  | rows lists =>
    refine meets_valuesOf fun row hrow => allExprs_iff.mpr fun e he => h (.expr e) ?_
    exact List.mem_map_of_mem (List.mem_flatten_of_mem hrow he)
  | query s => exact meets_select_self s (h (.select s) (List.mem_singleton_self _))
  | draft s =>
    obtain ⟨e, he⟩ := renderDraft_eq_error c.left s
    obtain ⟨e', he'⟩ := renderDraft_eq_error c.right s
    have ht : ¬c.Typed := fun ht => nomatch hs ht
    simp only [InsertSource.renderQuery, he, he']
    exact paired_error (allows_of_not_typed ht e) (allows_of_not_typed ht e')

theorem yields_isFinished (d : Dialect) (source : InsertSource) :
    Yields (fun _ => source.isFinished = true) (source.renderQuery d) := by
  cases source with
  | rows _ | query _ => exact fun _ _ => rfl
  | draft s =>
    obtain ⟨e, he⟩ := renderDraft_eq_error d s
    exact fun f hf => nomatch he.symm.trans hf

/-- Where SQLite wraps nothing, the rows are written as they are. -/
theorem rows_plain (hw : (Statement.insert i).isWrapped = false)
    (hs : i.source.isFinished = true) : (i.conflict.isSome && !i.source.isRows) = false := by
  obtain ⟨target, columns, source, conflict, returning⟩ := i
  cases source with
  | rows _ => exact Bool.and_false _
  | query _ =>
    cases conflict with
    | none => rfl
    | some _ => cases hw
  | draft _ => cases hs

theorem meets_rowSource (h : ∀ t ∈ i.source.trees, t.All c.Asks)
    (hs : c.Typed → i.source.isFinished = true)
    (hw : c.Exact → (Statement.insert i).isWrapped = false) :
    c.Meets (i.rowSource c.left) (i.rowSource c.right) := by
  refine ((meets_renderQuery h hs).yields (yields_isFinished _ _)).bind fun f g ⟨hfg, hfin⟩ => ?_
  by_cases hx : c.Exact
  · have plain : ∀ d : Dialect,
        (decide (d = .sqlite) && i.conflict.isSome && !i.source.isRows) = false := fun d => by
      rw [Bool.and_assoc, rows_plain (hw hx) hfin, Bool.and_false]
    rw [plain, plain]
    exact paired_ok hfg
  · split <;> split <;> exact paired_ok (same_of_not_exact hx _ _)

theorem head_isTyped (h : i.IsTyped) : ∃ f, i.head = .ok f := by
  obtain ⟨target, ht⟩ := targetOf_isTarget h.target
  obtain ⟨names, hn⟩ := namesOf_isText h.columns
  exact ⟨_, by rw [Insert.head, ht, hn]; rfl⟩

/-! ## Conflict clauses -/

/-- What a comparison asks of a conflict. -/
structure Settles (c : Pairing) (columns : List Name) (k : Conflict) : Prop where
  assignments : ∀ t ∈ valueTrees (ConflictClause.conflict k).assignments, t.All c.Asks
  filter : ∀ t ∈ (ConflictClause.conflict k).filter?.toList.map Tree.expr, t.All c.Asks
  typed : c.Typed → k.IsTyped
  named : c.Typed → columns ≠ [] ∧ ∀ n ∈ columns, n.isText = true
  portable : c.IsPortable → k.IsPortable columns
  reworked : c.IsAlone → c.left ≠ .mysql →
    ∀ e ∈ (ConflictClause.conflict k).filter?, e.isExpr = true ∨ e.isRecord = true

theorem Settles.asksAll (h : c.Settles columns k) :
    c.AsksAll (ConflictClause.conflict k).assignments :=
  asksAll_of_forall h.assignments fun ht => (h.typed ht).assignments

theorem meets_filterClause {filter : Option Expr} (h : allOption c.Asks filter)
    (hroot : c.IsAlone → ∀ e ∈ filter, e.isExpr = true ∨ e.isRecord = true) :
    c.Meets (Conflict.filterClause c.left filter) (Conflict.filterClause c.right filter) := by
  cases filter with
  | none => exact paired_ok (same_refl _)
  | some e =>
    exact (meets_rebuilt (paired_mapNodesM rewrites_excluded h fun ha => hroot ha e rfl)).bind
      fun _ _ he => meets_conditionClause (.some he.twin)

theorem meets_onConflict (h : c.Settles columns k) (hd : c.left ≠ .mysql) :
    c.Meets (k.onConflict c.left) (k.onConflict c.right) := by
  obtain ⟨target, action⟩ := k
  have names : c.Meets (namesOf target) (namesOf target) :=
    meets_namesOf fun ht => (h.typed ht).target
  cases action with
  | nothing =>
    unfold Conflict.onConflict
    dsimp only
    split
    · exact paired_ok (same_refl _)
    · exact names.bind fun _ _ hf => paired_ok (hf.congr fun f =>
        Fragment.join " " [Fragment.ofText "ON CONFLICT", f.parens, "DO NOTHING"])
  | update assignments filter =>
    -- what follows the target, for targets that are the same
    have rest : ∀ ts ts' : List Fragment, c.Same ts ts' → c.Meets
        (mappedList c.left (replaceExcluded (incoming c.left)) assignments >>= fun list =>
          Conflict.filterClause c.left filter >>= fun filter => .ok (Fragment.join " "
            (Fragment.ofText "ON CONFLICT" :: ts ++ ("DO UPDATE SET " ++ list) :: filter)))
        (mappedList c.right (replaceExcluded (incoming c.right)) assignments >>= fun list =>
          Conflict.filterClause c.right filter >>= fun filter => .ok (Fragment.join " "
            (Fragment.ofText "ON CONFLICT" :: ts' ++ ("DO UPDATE SET " ++ list) :: filter))) := by
      intro ts ts' hts
      refine (meets_mappedList rewrites_excluded h.asksAll).bind fun l l' hl =>
        (meets_filterClause (allOption_of_forall h.filter) fun ha => h.reworked ha hd).bind
          fun fs fs' hfs => paired_ok fun hx => ?_
      rw [hts hx, hl hx, hfs hx]
    unfold Conflict.onConflict
    dsimp only
    split
    · exact rest [] [] (same_refl _)
    · exact names.bind fun t t' ht => rest [t.parens] [t'.parens] (ht.congr fun t => [t.parens])

/-- The column that MySQL assigns to itself is a named one. -/
theorem Settles.idleColumn (h : c.Settles columns k) (ht : c.Typed) :
    (k.idleColumn columns).isText = true := by
  have all : ∀ n ∈ k.target ++ columns, n.isText = true :=
    List.forall_mem_append.mpr ⟨(h.typed ht).target, (h.named ht).2⟩
  unfold Conflict.idleColumn
  cases hn : k.target ++ columns with
  | nil => exact absurd (List.append_eq_nil_iff.mp hn).2 (h.named ht).1
  | cons n rest => exact all n (by rw [hn]; exact List.mem_cons_self)

/-- The form of MySQL, which has no condition, beside itself. -/
theorem meets_onDuplicateKey (h : (alone .mysql).Settles columns k) :
    (alone .mysql).Meets (k.onDuplicateKey columns) (k.onDuplicateKey columns) := by
  have idle := h.idleColumn trivial
  obtain ⟨target, action⟩ := k
  cases action with
  | nothing => exact (meets_nameOf fun _ => idle).bind fun _ _ _ => meets_ok _ _
  | update assignments filter =>
    cases filter with
    | some e => exact meets_lacks _ _
    | none => exact (meets_mappedList rewrites_excluded h.asksAll).bind fun _ _ _ => meets_ok _ _

/-- Two results where success alone is compared. -/
theorem meets_done {α : Type} {d : Dialect} (a b : α) : (portable d).Meets (.ok a) (.ok b) :=
  paired_ok fun hx => hx.elim

/-- The two forms of a conflict clause, where only the assignments may fail. -/
theorem meets_conflictForms (h : (portable .mysql).Settles columns k) :
    (portable .mysql).Meets (k.onConflict .postgres) (k.onDuplicateKey columns) := by
  have idle := h.idleColumn trivial
  have names := namesOf_isText (h.typed trivial).target
  have hp := h.portable ⟨_, rfl⟩
  obtain ⟨target, action⟩ := k
  have hne : target.isEmpty = false := List.isEmpty_eq_false_iff.mpr hp.target
  unfold Conflict.onConflict
  simp only [hne]
  refine Paired.skip_left names fun t => ?_
  cases action with
  | nothing => exact Paired.skip_right (nameOf_isText idle) fun _ => meets_done _ _
  | update assignments filter =>
    obtain rfl : filter = none := hp.filter
    exact (meets_mappedList rewrites_excluded h.asksAll).bind fun _ _ _ => meets_done _ _

/-- The conflict clauses of dialects that have one. -/
theorem meets_clause (h : c.Settles columns k) (hd : c.right ≠ .mssql) :
    c.Meets (k.clause c.left columns) (k.clause c.right columns) := by
  cases c with
  | alone d =>
    cases d with
    | mysql => exact meets_onDuplicateKey h
    | sqlite | postgres => exact meets_onConflict h nofun
    | mssql => exact absurd rfl hd
  | shared => exact meets_onConflict h nofun
  | portable d =>
    cases d with
    | mysql => exact meets_conflictForms h
    | sqlite | postgres => exact meets_onConflict h nofun
    | mssql => exact absurd rfl hd

/-! ## Merging -/

theorem qualifier_isTarget {o : Source} (h : o.IsTarget) :
    ∃ n : Name, o.qualifier = .ok n ∧ n.isText = true := by
  obtain ⟨t, rfl, ht⟩ := h
  exact ⟨t.qualifier, rfl, ht.qualifier⟩

theorem sameColumn_isText {left right n : Name} (hl : left.isText = true)
    (hr : right.isText = true) (hn : n.isText = true) : ∃ f, sameColumn left right n = .ok f := by
  obtain ⟨f, hf⟩ := nameIn_isText hl hn
  obtain ⟨g, hg⟩ := nameIn_isText hr hn
  exact ⟨_, by rw [sameColumn, hf, hg]; rfl⟩

/-- A merge of named columns is refused for what SQL Server lacks, or not at all. -/
theorem meets_checkMerge (hk : k.IsTyped) :
    (alone .mssql).Meets (i.checkMerge k) (i.checkMerge k) := by
  unfold Insert.checkMerge
  split
  · exact meets_lacks _ _
  dsimp only
  split
  · exact meets_ok _ _
  split
  · exact meets_lacks _ _
  next hnone =>
    obtain ⟨texts, ht⟩ := Expr.mapM_asText?_of_isText fun n hn =>
      hk.target n (List.mem_of_mem_filter (p := fun n => !i.columns.any n.same) hn)
    cases hnone.symm.trans ht

theorem checkMerge_isPortable (hk : k.IsPortable i.columns) : i.checkMerge k = .ok () := by
  have none : (k.target.filter fun n => !i.columns.any n.same) = [] :=
    List.filter_eq_nil_iff.mpr fun n hn => by rw [hk.inserted n hn]; exact Bool.false_ne_true
  rw [Insert.checkMerge, none, List.isEmpty_eq_false_iff.mpr hk.target]
  rfl

/-- What a merge does with a row that is there, beside itself. -/
theorem meets_matchedClause {target : Name} (ht : target.isText = true)
    (h : (alone .mssql).Settles columns k) :
    (alone .mssql).Meets (matchedClause target k.action) (matchedClause target k.action) := by
  obtain ⟨columns', action⟩ := k
  cases action with
  | nothing => exact meets_ok _ _
  | update assignments filter =>
    have rest : ∀ cs cs' : List Fragment, (alone .mssql).Meets
        (mappedList .mssql (mergeScope target) assignments >>= fun list =>
          .ok ["WHEN MATCHED" ++ Fragment.join "" cs, "THEN UPDATE SET " ++ list])
        (mappedList .mssql (mergeScope target) assignments >>= fun list =>
          .ok ["WHEN MATCHED" ++ Fragment.join "" cs', "THEN UPDATE SET " ++ list]) :=
      fun _ _ => (meets_mappedList (rewrites_merge ht) h.asksAll).bind fun _ _ _ => meets_ok _ _
    unfold matchedClause
    -- with a condition, it is rewritten and written before the assignments
    cases filter with
    | none => exact rest [] []
    | some e =>
      have hroot := h.reworked ⟨_, rfl⟩ nofun e rfl
      exact (meets_rebuilt (paired_mapNodesM (rewrites_merge ht)
        (h.filter (.expr e) (List.mem_singleton_self _)) fun _ => hroot)).bind fun _ _ he =>
        he.twin.condition.bind fun f f' _ =>
        (meets_requireTexts (.cons he.twin.toSide .nil)).bind fun _ _ _ =>
        rest [" AND " ++ f] [" AND " ++ f']

/-- An upsert of SQL Server beside itself. -/
theorem meets_merge (hi : i.IsTyped) (h : (alone .mssql).Settles i.columns k)
    (hrows : ∀ t ∈ i.source.trees, t.All (alone .mssql).Asks)
    (hreturning : ∀ t ∈ itemTrees i.returning, t.All (alone .mssql).Asks)
    (hroot : ∀ item ∈ i.returning, item.expr.isExpr = true ∨ item.expr.isRecord = true) :
    (alone .mssql).Meets (i.merge k) (i.merge k) := by
  obtain ⟨target, hq, ht⟩ := qualifier_isTarget hi.target
  unfold Insert.merge
  rw [hq]
  exact (meets_checkMerge (h.typed trivial)).bind fun _ _ _ =>
    (meets_nameOf fun _ => ht).bind fun _ _ _ =>
    (meets_nameOf fun _ => rfl).bind fun _ _ _ =>
    (meets_namesOf fun _ => hi.columns).bind fun _ _ _ =>
    (meets_renderQuery hrows fun _ => hi.source).bind fun _ _ _ =>
    (meets_self fun _ => allOk_isText fun n hn =>
      sameColumn_isText ht rfl ((h.typed trivial).target n hn)).bind fun _ _ _ =>
    (meets_targetOf fun _ => hi.target).bind fun _ _ _ =>
    (meets_matchedClause ht h).bind fun _ _ _ =>
    (meets_self fun _ => allOk_isText fun n hn => nameIn_isText rfl (hi.columns n hn)).bind
      fun _ _ _ =>
    (meets_outputClause .inserted (allItems_of_forall hreturning) hi.returning hroot).bind
      fun _ _ _ => meets_ok _ _

/-- The conflict clause of PostgreSQL beside what a merge does with a row that is there: only the
assignments may fail. -/
theorem meets_conflictOrMatched {target : Name} (ht : target.isText = true)
    (h : (portable .mssql).Settles columns k) :
    Paired (fun _ _ => True) (portable .mssql).Allows (k.onConflict .postgres)
      (matchedClause target k.action) := by
  have names := namesOf_isText (h.typed trivial).target
  have hp := h.portable ⟨_, rfl⟩
  obtain ⟨columns', action⟩ := k
  have hne : columns'.isEmpty = false := List.isEmpty_eq_false_iff.mpr hp.target
  unfold Conflict.onConflict
  simp only [hne]
  refine Paired.skip_left names fun t => ?_
  cases action with
  | nothing => exact paired_ok trivial
  | update assignments filter =>
    obtain rfl : filter = none := hp.filter
    exact (meets_mappedList (rewrites_upsert ht) h.asksAll).bind fun _ _ _ => paired_ok trivial

/-! ## Inserts -/

theorem allOk_one {α : Type} (r : Rendered α) : allOk [r] = r.map fun a => [a] := by
  cases r <;> rfl

theorem rowSource_of_ne {d : Dialect} (hd : d ≠ .sqlite) (i : Insert) :
    i.rowSource d = i.source.renderQuery d := by
  unfold Insert.rowSource
  rw [decide_eq_false hd]
  cases i.source.renderQuery d <;> rfl

/-- An upsert of PostgreSQL beside one of SQL Server. -/
theorem meets_upsert (hi : i.IsTyped) (h : (portable .mssql).Settles i.columns k)
    (hk : i.conflict = some (.conflict k)) (hr : i.returning = [])
    (hrows : ∀ t ∈ i.source.trees, t.All (portable .mssql).Asks) :
    (portable .mssql).Meets (i.render .postgres) (i.render .mssql) := by
  obtain ⟨target, hq, ht⟩ := qualifier_isTarget hi.target
  have rows : (portable .mssql).Meets (i.rowSource .postgres) (i.source.renderQuery .mssql) := by
    rw [rowSource_of_ne (d := .postgres) nofun]
    exact meets_renderQuery hrows fun _ => hi.source
  have conflict : Paired (fun _ _ => True) (portable .mssql).Allows
      (allOk (i.conflict.toList.map fun c => c.render .postgres i.columns))
      (matchedClause target k.action) := by
    rw [hk]
    exact allOk_one _ ▸ (meets_conflictOrMatched ht h).map_left fun _ _ _ => trivial
  have pairs : ∃ fs, allOk (k.target.map (sameColumn target mergeAlias)) = .ok fs :=
    allOk_isText fun n hn => sameColumn_isText ht rfl ((h.typed trivial).target n hn)
  have incoming : ∃ fs, allOk (i.columns.map (nameIn mergeAlias)) = .ok fs :=
    allOk_isText fun n hn => nameIn_isText rfl (hi.columns n hn)
  have returning : ∀ d, returningClause d i.returning = .ok [] := fun d => by rw [hr]; rfl
  have output : outputClause .inserted i.returning = .ok [] := by rw [hr]; rfl
  rw [Insert.render_of_conflict hk, Insert.render_of_ne (d := .postgres) nofun]
  unfold Insert.merge
  -- all that is not skipped are the rows and then what becomes of a row that is there
  refine Paired.skip_left (head_isTyped hi) fun _ => ?_
  refine Paired.skip_right ⟨_, checkMerge_isPortable (h.portable ⟨_, rfl⟩)⟩ fun _ => ?_
  refine Paired.step_right hq ?_
  refine Paired.skip_right (nameOf_isText ht) fun _ => ?_
  refine Paired.skip_right (nameOf_isText rfl) fun _ => ?_
  refine Paired.skip_right (namesOf_isText hi.columns) fun _ => ?_
  refine rows.bind fun _ _ _ => ?_
  refine Paired.skip_right pairs fun _ => ?_
  refine Paired.skip_right (targetOf_isTarget hi.target) fun _ => ?_
  refine conflict.bind fun _ _ _ => ?_
  refine Paired.skip_left ⟨_, returning _⟩ fun _ => ?_
  refine Paired.skip_right incoming fun _ => ?_
  exact Paired.skip_right ⟨_, output⟩ fun _ => meets_done _ _

/-- What a statement asks of its insert. -/
theorem Fitting.settles (h : c.Fitting (.insert i)) (hk : i.conflict = some (.conflict k)) :
    c.Settles i.columns k where
  assignments t ht := h.nodes t (by
    simp only [Statement.clauses, Statement.extras, List.mem_append]
    exact .inl (.inr (by simpa [hk] using ht)))
  filter t ht := h.nodes t (by
    simp only [Statement.clauses, Statement.extras, List.mem_append]
    exact .inr (.inl (by simpa [hk] using ht)))
  typed ht := (h.typed ht).conflict (.conflict k) hk
  named ht := ⟨(h.typed ht).nonempty, (h.typed ht).columns⟩
  portable hp := (h.portable hp).2 k hk
  reworked ha hd e he := h.reworked ha e (by
    simp only [Statement.reworked, if_neg hd, List.mem_append]
    exact .inl (by simpa [Insert.condition_of_conflict i hk] using he))

theorem Fitting.rows (h : c.Fitting (.insert i)) : ∀ t ∈ i.source.trees, t.All c.Asks :=
  fun t ht => h.nodes t (by simp [Statement.clauses, ht])

theorem Fitting.returning (h : c.Fitting (.insert i)) :
    ∀ t ∈ itemTrees i.returning, t.All c.Asks :=
  fun t ht => h.nodes t (by simp [Statement.extras, ht])

theorem meets_conflictClauses (h : c.Fitting (.insert i)) (hd : c.right ≠ .mssql) :
    Paired c.Sames c.Allows
      (allOk (i.conflict.toList.map fun k => k.render c.left i.columns))
      (allOk (i.conflict.toList.map fun k => k.render c.right i.columns)) := by
  cases hk : i.conflict with
  | none => exact paired_ok (sames_refl _)
  | some clause =>
    refine meets_allOk (.cons ?_ .nil)
    cases clause with
    | conflict k => exact meets_clause (h.settles hk) hd
    | other object =>
      exact meets_self fun ht => ((h.typed ht).conflict (.other object) hk).elim

/-- An insert in two dialects that have conflict clauses. -/
theorem meets_insertWith (h : c.Fitting (.insert i)) (hr : c.right ≠ .mssql) :
    c.Meets (i.render c.left) (i.render c.right) := by
  rw [Insert.render_of_ne (left_ne_mssql hr), Insert.render_of_ne hr]
  refine (meets_self fun ht => head_isTyped (h.typed ht)).bind fun head head' hh =>
    (meets_rowSource h.rows (fun ht => (h.typed ht).source) h.unwrapped).bind fun f f' hf =>
    (meets_conflictClauses h hr).bind fun cs cs' hcs =>
    (meets_returningClause (allItems_of_forall h.returning) (fun ht => (h.typed ht).returning)
      fun hp => (h.portable hp).1).bind fun rs rs' hrs => paired_ok fun hx => ?_
  rw [hh hx, hf hx, hcs.2 hx, hrs hx]

/-- An insert of SQL Server beside itself. -/
theorem meets_insertOutput (h : (alone .mssql).Fitting (.insert i)) :
    (alone .mssql).Meets (i.render .mssql) (i.render .mssql) := by
  have hi : i.IsTyped := h.typed trivial
  have root : ∀ item ∈ i.returning, item.expr.isExpr = true ∨ item.expr.isRecord = true :=
    fun item hitem => h.reworked ⟨_, rfl⟩ item.expr (by
      simp only [Statement.reworked, Statement.reworked.returned, List.mem_append]
      exact .inr (List.mem_map_of_mem hitem))
  cases hk : i.conflict with
  | some clause =>
    cases clause with
    | conflict k =>
      rw [Insert.render_of_conflict hk]
      exact meets_merge hi (h.settles hk) h.rows h.returning root
    | other object => exact (hi.conflict (.other object) hk).elim
  | none =>
    rw [Insert.render_of_none hk, rowSource_of_ne (d := .mssql) nofun]
    exact (meets_self fun _ => head_isTyped hi).bind fun _ _ _ =>
      (meets_outputClause .inserted (allItems_of_forall h.returning) hi.returning root).bind
        fun _ _ _ => (meets_renderQuery h.rows fun _ => hi.source).bind fun _ _ _ => meets_ok _ _

/-- What returns nothing takes no part in a comparison. -/
theorem returningClause_nil (d : Dialect) : returningClause d [] = .ok [] := rfl

theorem outputClause_nil (side : RowImage) : outputClause side [] = .ok [] := rfl

/-- An insert of PostgreSQL beside one of SQL Server. -/
theorem meets_insertForms (h : (portable .mssql).Fitting (.insert i)) :
    (portable .mssql).Meets (i.render .postgres) (i.render .mssql) := by
  have hi : i.IsTyped := h.typed trivial
  have hr : i.returning = [] := (h.portable ⟨_, rfl⟩).1
  cases hk : i.conflict with
  | some clause =>
    cases clause with
    | conflict k => exact meets_upsert hi (h.settles hk) hk hr h.rows
    | other object => exact (hi.conflict (.other object) hk).elim
  | none =>
    rw [Insert.render_of_none hk, Insert.render_of_ne (d := .postgres) nofun, hk, hr,
      rowSource_of_ne (d := .mssql) nofun, rowSource_of_ne (d := .postgres) nofun]
    refine (meets_self fun _ => head_isTyped hi).bind fun _ _ _ => ?_
    refine Paired.skip_right ⟨_, outputClause_nil _⟩ fun _ => ?_
    refine (meets_renderQuery h.rows fun _ => hi.source).bind fun _ _ _ => ?_
    refine Paired.skip_left ⟨[], rfl⟩ fun _ => ?_
    exact Paired.skip_left ⟨_, returningClause_nil _⟩ fun _ => meets_done _ _

theorem meets_insert (h : c.Fitting (.insert i)) :
    c.Meets (i.render c.left) (i.render c.right) := by
  -- only SQL Server writes another form, so it is looked at by itself
  by_cases hr : c.right = .mssql
  · cases c with
    | alone d =>
      obtain rfl : d = .mssql := hr
      exact meets_insertOutput h
    | shared => cases hr
    | portable d =>
      obtain rfl : d = .mssql := hr
      exact meets_insertForms h
  · exact meets_insertWith h hr

/-! ## Updates and deletes -/

theorem tailClauses_of_ne {d : Dialect} (hd : d ≠ .mssql) (side : RowImage)
    (filter : Option Expr) (items : List SelectItem) :
    tailClauses d side filter items = (do
      let filter ← conditionClause d filter
      let returning ← returningClause d items
      return filter ++ returning) := by
  cases d with
  | mssql => exact absurd rfl hd
  | sqlite | postgres | mysql => rfl

/-- The clauses behind the beginning of an update or a delete. -/
theorem meets_tailClauses (side : RowImage) {filter : Option Expr} {items : List SelectItem}
    (hf : allOption c.Asks filter) (hi : allItems c.Asks items) (ha : c.Typed → areNamed items)
    (hp : c.IsPortable → items = [])
    (hroot : c.IsAlone → ∀ e ∈ Statement.reworked.returned c.left items,
      e.isExpr = true ∨ e.isRecord = true) :
    c.Meets (tailClauses c.left side filter items) (tailClauses c.right side filter items) := by
  have condition := meets_conditionClause (twin_option filter hf)
  by_cases hr : c.right = .mssql
  · cases c with
    | alone d =>
      obtain rfl : d = .mssql := hr
      exact (meets_outputClause side hi (ha trivial) fun item hitem =>
        hroot ⟨_, rfl⟩ item.expr (List.mem_map_of_mem hitem)).bind fun _ _ _ =>
        condition.bind fun _ _ _ => meets_ok _ _
    | shared => cases hr
    | portable d =>
      obtain rfl : d = .mssql := hr
      obtain rfl := hp ⟨_, rfl⟩
      refine Paired.skip_right ⟨_, outputClause_nil _⟩ fun _ => ?_
      refine condition.bind fun _ _ _ => ?_
      exact Paired.skip_left ⟨_, returningClause_nil _⟩ fun _ => meets_done _ _
  · rw [tailClauses_of_ne (left_ne_mssql hr), tailClauses_of_ne hr]
    exact condition.bind fun _ _ hf => (meets_returningClause hi ha hp).bind fun _ _ hr =>
      paired_ok (hf.congr₂ hr (· ++ ·))

theorem meets_update {u : Update} (h : c.Fitting (.update u)) :
    c.Meets (u.render c.left) (u.render c.right) := by
  have assigned : c.AsksAll u.assignments := asksAll_of_forall
    (fun t ht => h.nodes t (by simp [Statement.clauses, ht])) fun ht => (h.typed ht).assignments
  have filter : allOption c.Asks u.filter := allOption_of_forall fun t ht =>
    h.nodes t (by simp only [Statement.clauses, List.mem_append]; exact .inl (.inr ht))
  have items : allItems c.Asks u.returning :=
    allItems_of_forall fun t ht => h.nodes t (by simp [Statement.extras, ht])
  refine (meets_targetOf fun ht => (h.typed ht).target).bind fun t t' ht =>
    (meets_assignmentList assigned).bind fun l l' hl =>
    (meets_tailClauses .inserted filter items (fun ht => (h.typed ht).returning) h.portable
      h.reworked).bind fun tail tail' htail => paired_ok fun hx => ?_
  rw [ht hx, hl hx, htail hx]

theorem meets_delete {x : Delete} (h : c.Fitting (.delete x)) :
    c.Meets (x.render c.left) (x.render c.right) := by
  have filter : allOption c.Asks x.filter := allOption_of_forall fun t ht =>
    h.nodes t (List.mem_append_left _ ht)
  have items : allItems c.Asks x.returning :=
    allItems_of_forall fun t ht => h.nodes t (List.mem_append_right _ ht)
  refine (meets_targetOf fun ht => (h.typed ht).target).bind fun t t' ht =>
    (meets_tailClauses .deleted filter items (fun ht => (h.typed ht).returning) h.portable
      h.reworked).bind fun tail tail' htail => paired_ok fun hx => ?_
  rw [ht hx, htail hx]

/-- **A statement that fits a comparison goes together in its two runs.** -/
theorem meets_statement (h : c.Fitting s) : c.Meets (s.render c.left) (s.render c.right) := by
  cases s with
  | select s => exact meets_select_self s (h.nodes _ (List.mem_singleton_self _))
  | union u =>
    obtain ⟨members, kind⟩ := u
    refine meets_union ⟨members, kind⟩ (allSelects_iff.mpr fun s hs => ?_)
    exact h.nodes (.select s) (List.mem_append_left _ (List.mem_map_of_mem hs))
  | insert i => exact meets_insert h
  | update u => exact meets_update h
  | delete x => exact meets_delete h

end Pairing

end SqlScribe
