import SqlScribe.Proofs.Paging
import SqlScribe.Proofs.Refusal
import SqlScribe.Proofs.StrayedStatement

/-!
# Incoming values of an upsert

An upsert replaces references to incoming values, node by node and from the leaves up, before it
writes its assignments and its condition. What takes the place of a reference is none, so no node of
the rewritten scope is one, wherever it stood: among arguments, in the order of a window, in the
bindings of a raw fragment, in a row. Nested selects are scopes of their own and are left as they
are.

So an upsert fails for a stray reference only if there is one in its rows, in what it returns, or in
a nested select. In every other statement no reference is replaced, and each of them that is written
makes the statement fail.
-/

namespace SqlScribe

/-- Whether an expression is a reference to an incoming value. -/
def Expr.isExcluded : Expr → Bool
  | .excluded _ => true
  | _ => false

/-! ## Written nodes of a scope -/

namespace Expr

theorem scope_trans {e c n : Expr} (hc : c ∈ e.scope) (hn : n ∈ c.scope) : n ∈ e.scope := by
  induction e using scope_induction with
  | step e ih =>
    rw [scope_eq] at hc
    rcases List.mem_cons.mp hc with rfl | hc
    · exact hn
    · obtain ⟨f, hf, hc⟩ := List.mem_flatMap.mp hc
      rw [scope_eq]
      exact List.mem_cons_of_mem _ (List.mem_flatMap.mpr ⟨f, hf, ih f hf hc⟩)

theorem mem_scope_of_mem_fields {e c : Expr} (h : c ∈ e.fields) : c ∈ e.scope := by
  rw [scope_eq]
  refine List.mem_cons_of_mem _ (List.mem_flatMap.mpr ⟨c, h, ?_⟩)
  rw [scope_eq]
  exact List.mem_cons_self

theorem mem_fields_of_mem_parts {e c : Expr} (h : c ∈ e.parts) : c ∈ e.fields := by
  cases e with
  | row _ _ | textSearch _ _ => exact h
  | _ => cases h

/-- What is written of a node stands in it. -/
theorem mem_fields_of_mem_branches {e c : Expr} (h : Tree.expr c ∈ e.branches) : c ∈ e.fields := by
  cases e with
  | raw sql aliasName template bindings =>
    obtain ⟨_, hc, ⟨⟩⟩ := List.mem_map.mp h
    obtain ⟨b, hb, rfl⟩ := Tree.mem_of_mem_rawParts hc
    have : b.2 ∈ bindingFields bindings := List.mem_flatMap.mpr ⟨b, hb, by simp⟩
    simp [fields, this]
  | _ => grind [branches, fields]

/-- What a dialect writes below a node is in its scope: rows may be compared item by item. -/
theorem mem_scope_of_mem_written {d : Dialect} {e c : Expr}
    (h : Tree.expr c ∈ (Tree.expr e).written d) : c ∈ e.scope := by
  have branch (h : Tree.expr c ∈ e.branches) : c ∈ e.scope :=
    mem_scope_of_mem_fields (mem_fields_of_mem_branches h)
  cases e with
  | inList operand items negated =>
    have written : (Tree.expr (.inList operand items negated)).written d =
        if d = .mssql && operand.isRow then
          items.flatMap fun row => (operand.parts.zip row.parts).flatMap fun p =>
            [Tree.expr p.1, .expr p.2]
        else (Expr.inList operand items negated).branches := rfl
    -- for SQL Server the rows are taken apart, and elsewhere the branches are written
    rw [written] at h
    split at h
    · simp only [List.mem_flatMap, List.mem_cons, List.not_mem_nil, or_false] at h
      obtain ⟨row, hrow, ⟨l, r⟩, hp, h⟩ := h
      obtain ⟨hl, hr⟩ := List.of_mem_zip hp
      -- an item of a row is a field of a field
      have part {m : Expr} (hm : m ∈ (Expr.inList operand items negated).fields)
          (hc : c ∈ m.parts) : c ∈ (Expr.inList operand items negated).scope :=
        scope_trans (mem_scope_of_mem_fields hm)
          (mem_scope_of_mem_fields (mem_fields_of_mem_parts hc))
      rcases h with h | h
      · obtain rfl := Tree.expr.inj h
        exact part List.mem_cons_self hl
      · obtain rfl := Tree.expr.inj h
        exact part (List.mem_cons_of_mem _ (List.mem_append_left _ hrow)) hr
    · exact branch h
  | _ => exact branch h

theorem mem_scope_of_mem_ownNodes {d : Dialect} {e n : Expr}
    (h : n ∈ (Tree.expr e).ownNodes d) : n ∈ e.scope := by
  -- the principle is about trees, and the claim is about those that are expressions
  suffices all : ∀ t : Tree, ∀ e, t = .expr e → n ∈ t.ownNodes d → n ∈ e.scope from
    all _ e rfl h
  intro t
  induction t using Tree.written_induction (d := d) with
  | step t ih =>
    rintro e rfl h
    rw [Tree.ownNodes_expr] at h
    rcases List.mem_cons.mp h with rfl | h
    · rw [scope_eq]
      exact List.mem_cons_self
    · obtain ⟨b, hb, hn⟩ := List.mem_flatMap.mp h
      cases b with
      -- a select begins a scope of its own, so it adds no nodes to this one
      | select s =>
        rw [Tree.ownNodes_select] at hn
        cases hn
      | expr c => exact scope_trans (mem_scope_of_mem_written hb) (ih _ hb c rfl hn)

end Expr

/-! ## Resolved expressions -/

/-- Whether no node of a scope is a reference to an incoming value. -/
def Free (e : Expr) : Prop := ∀ n ∈ e.scope, n.isExcluded = false

/-- Whether a function on nodes resolves references to incoming values: what it gives may stand for
what it is given, and is free of references. -/
structure Resolves (g : Expr → Expr) : Prop where
  alike : ∀ e, Alike e (g e)
  other : ∀ e : Expr, e.isExpr = false → g e = e
  free : ∀ e : Expr, (∀ c ∈ e.fields, Free c) → Free (g e)

section

theorem free_foreign (object : Data) : Free (.foreign object) :=
  Expr.forall_scope.mpr ⟨rfl, nofun⟩

theorem free_column {table name : Expr} (ht : Free table) (hn : Free name) :
    Free (.column table name) :=
  Expr.forall_scope.mpr ⟨rfl, List.forall_mem_cons.mpr ⟨ht, List.forall_mem_singleton.mpr hn⟩⟩

/-- A name with a text is no expression. -/
theorem free_of_asText {n : Name} {s : String} (h : n.asText? = some s) : Free n := by
  cases n with
  | foreign object => exact free_foreign object
  | _ => cases h

theorem free_incoming (d : Dialect) {column : Name} (h : Free column) :
    Free (incoming d column) := by
  cases d with
  | mysql =>
    have args : ∀ c ∈ [Expr.column .absent column, .switch false], Free c :=
      List.forall_mem_cons.mpr ⟨free_column (free_foreign .null) h,
        List.forall_mem_singleton.mpr (free_foreign (.bool false))⟩
    exact Expr.forall_scope.mpr ⟨rfl, args⟩
  | sqlite | postgres | mssql => exact free_column (free_foreign (.text "excluded")) h

theorem resolves_replaceExcluded (d : Dialect) : Resolves (replaceExcluded (incoming d)) where
  alike := alike_replaceExcluded d
  other e h := by
    cases e with
    | excluded _ => cases h
    | _ => rfl
  free e h := by
    cases e with
    | excluded column => exact free_incoming d (h column (List.mem_singleton_self _))
    | _ => exact Expr.forall_scope.mpr ⟨rfl, h⟩

theorem resolves_mergeScope {target : Name} {s : String} (ht : target.asText? = some s) :
    Resolves (mergeScope target) where
  alike := alike_mergeScope target
  other e h := by
    cases e with
    | excluded _ | column _ _ => cases h
    | _ => rfl
  free e h := by
    unfold mergeScope
    split
    -- a column without a table, then an incoming value, then everything else
    next column =>
      exact free_column (free_foreign (.text "dual")) (h column (List.mem_singleton_self _))
    next name =>
      exact free_column (free_of_asText ht)
        (h name (List.mem_cons_of_mem _ (List.mem_singleton_self _)))
    next hexcluded _ =>
      refine Expr.forall_scope.mpr ⟨?_, h⟩
      cases e with
      | excluded column => exact absurd rfl (hexcluded column)
      | _ => rfl

end

/-- **A rewritten expression is free of references**, at any depth of its scope. -/
theorem Resolves.free_of_mapNodes {g : Expr → Expr} (hg : Resolves g) {e e' : Expr}
    (h : Expr.mapNodes g e = .ok e') : Free e' := by
  obtain rfl := yields_mapNodes_mapped hg.other e e' h
  exact Expr.forall_scope_mapped (fun e _ => hg.free e) (fun e he => by
    cases e with
    | excluded _ => cases he
    | _ => rfl) e

/-! ## Upserts -/

/-- Whether a dialect writes a reference to an incoming value in a select that is nested in a
tree. -/
def Tree.NestsExcluded (d : Dialect) (t : Tree) : Prop :=
  ∃ q ∈ t.scopes d, (Tree.select q).HasExcluded d

section

variable {d : Dialect} {α β : Type} {p : Prop} {g : Expr → Expr}

/-- In a rewritten expression references are left in nested selects alone. -/
theorem nestsExcluded_of_mapNodes (hg : Resolves g) {e e' : Expr}
    (h : Expr.mapNodes g e = .ok e') (hx : (Tree.expr e').HasExcluded d) :
    (Tree.expr e).NestsExcluded d := by
  rcases Tree.hasExcluded_iff_scopes.mp hx with ⟨column, hn⟩ | hq
  · exact absurd (hg.free_of_mapNodes h _ (Expr.mem_scope_of_mem_ownNodes hn)) Bool.noConfusion
  · rwa [(yields_mapNodes hg.alike e e' h).tree.scopes d] at hq

/-- Steps after an expression was rewritten. -/
theorem blames_rewritten (hg : Resolves g) {e : Expr} (hp : (Tree.expr e).NestsExcluded d → p)
    {f : Expr → Rendered β} (hf : ∀ e', ((Tree.expr e').HasExcluded d → p) → Blames p (f e')) :
    Blames p (rebuilt (Expr.mapNodes g e) >>= f) := by
  cases h : Expr.mapNodes g e with
  | error r => exact blames_error rfl
  | ok e' => exact hf e' fun hx => hp (nestsExcluded_of_mapNodes hg h hx)

theorem blames_mappedList (hg : Resolves g) (assignments : List Assignment) :
    Blames (∃ a ∈ assignments, (Tree.expr a.value).NestsExcluded d)
      (mappedList d g assignments) := by
  refine (blames_allOk (List.forall_mem_map.mpr fun a ha => ?_)).map _
  refine blames_rewritten hg (fun h => ⟨a, ha, h⟩) fun e' he => ?_
  exact (blames_nameOf a.column).bind fun _ =>
    ((strays d (.expr e')).blames.mono he).bind fun _ => blames_ok

theorem blames_filterClause (filter : Option Expr) :
    Blames (∃ e ∈ filter, (Tree.expr e).NestsExcluded d) (Conflict.filterClause d filter) := by
  cases filter with
  | none => exact blames_ok
  | some e =>
    refine blames_rewritten (resolves_replaceExcluded d) (fun h => ⟨e, rfl, h⟩) fun e' he => ?_
    exact (strayed_conditionClause (some e')).blames.mono (by simpa using he)

/-- Whether a reference is left in what is done with a row that is there: in a select that is nested
in an assignment or in the condition. -/
def ConflictAction.NestsExcluded (d : Dialect) : ConflictAction → Prop
  | .nothing => False
  | .update assignments filter =>
    (∃ a ∈ assignments, (Tree.expr a.value).NestsExcluded d) ∨
      ∃ e ∈ filter, (Tree.expr e).NestsExcluded d

theorem blames_onConflict (c : Conflict) : Blames (c.action.NestsExcluded d) (c.onConflict d) := by
  obtain ⟨target, action⟩ := c
  unfold Conflict.onConflict
  have named : Blames (action.NestsExcluded d) (namesOf target) := blames_namesOf target
  cases action with
  | nothing =>
    dsimp only
    split
    · exact blames_ok
    · exact named.bind fun _ => blames_ok
  | update assignments filter =>
    -- the assignments and the condition are rewritten alike with a target and without one
    have rest (f : Fragment → List Fragment → Fragment) :
        Blames (ConflictAction.NestsExcluded d (.update assignments filter))
          (mappedList d (replaceExcluded (incoming d)) assignments >>= fun list =>
            Conflict.filterClause d filter >>= fun filter => .ok (f list filter)) :=
      ((blames_mappedList (resolves_replaceExcluded d) assignments).mono .inl).bind fun _ =>
        ((blames_filterClause filter).mono .inr).bind fun _ => blames_ok
    dsimp only
    split
    · exact rest _
    · exact named.bind fun _ => rest _

theorem blames_onDuplicateKey (columns : List Name) (c : Conflict) :
    Blames (c.action.NestsExcluded .mysql) (c.onDuplicateKey columns) := by
  obtain ⟨target, action⟩ := c
  cases action with
  | nothing => exact (blames_nameOf _).bind fun _ => blames_ok
  | update assignments filter =>
    unfold Conflict.onDuplicateKey
    dsimp only
    split
    · exact blames_error rfl
    · exact ((blames_mappedList (resolves_replaceExcluded .mysql) assignments).mono .inl).bind
        fun _ => blames_ok

theorem blames_clause (columns : List Name) (c : Conflict) :
    Blames (c.action.NestsExcluded d) (c.clause d columns) := by
  cases d with
  | mysql => exact blames_onDuplicateKey columns c
  | sqlite | postgres | mssql => exact blames_onConflict c

theorem blames_matchedClause {target : Name} (hg : Resolves (mergeScope target))
    (action : ConflictAction) :
    Blames (action.NestsExcluded .mssql) (matchedClause target action) := by
  cases action with
  | nothing => exact blames_ok
  | update assignments filter =>
    have rest (f : Fragment → List Fragment) :
        Blames (ConflictAction.NestsExcluded .mssql (.update assignments filter))
          (mappedList .mssql (mergeScope target) assignments >>= fun list => .ok (f list)) :=
      ((blames_mappedList hg assignments).mono .inl).bind fun _ => blames_ok
    unfold matchedClause
    dsimp only
    -- the condition is rewritten and written before the assignments
    cases filter with
    | none => exact rest _
    | some e =>
      refine blames_rewritten hg (fun h => .inr ⟨e, rfl, h⟩) fun e' he => ?_
      exact ((strayed_conditionOf (strays .mssql (.expr e'))).blames.mono he).bind fun _ =>
        (blames_requireTexts _).bind fun _ => rest _

/-- Whether a reference is left in an upsert. -/
abbrev LeavesExcluded (d : Dialect) (i : Insert) (c : Conflict) : Prop :=
  AnyExcluded d (i.source.drawn ++ itemTrees i.returning) ∨ c.action.NestsExcluded d

theorem blames_merge (i : Insert) (c : Conflict) :
    Blames (LeavesExcluded .mssql i c) (i.merge c) := by
  have rows : Blames (LeavesExcluded .mssql i c) (i.source.renderQuery .mssql) :=
    (strayed_renderQuery i.source).blames.mono fun h => .inl (anyExcluded_append.mpr (.inl h))
  have output : Blames (LeavesExcluded .mssql i c) (outputClause .inserted i.returning) :=
    (strayed_outputClause .inserted i.returning).blames.mono fun h =>
      .inl (anyExcluded_append.mpr (.inr h))
  -- the name of the target is written before anything is rewritten, so it is a text then
  refine (blames_checkMerge i c).bind fun _ => (blames_qualifier i.target).bind fun q =>
    (blames_nameOf q).given fun _ hname => ?_
  obtain ⟨s, hs, -⟩ := nameOf_eq_ok hname
  have matched : Blames (LeavesExcluded .mssql i c) (matchedClause q c.action) :=
    (blames_matchedClause (resolves_mergeScope hs) c.action).mono .inr
  exact (blames_nameOf mergeAlias).bind fun _ => (blames_namesOf i.columns).bind fun _ =>
    rows.bind fun _ => (blames_sameColumns q mergeAlias c.target).bind fun _ =>
    (blames_targetOf i.target).bind fun _ => matched.bind fun _ =>
    (blames_namesIn mergeAlias i.columns).bind fun _ => output.bind fun _ => blames_ok

/-- An upsert fails for a reference only if one is left in it. -/
theorem blames_upsert (i : Insert) {c : Conflict} (hc : i.conflict = some (.conflict c)) :
    Blames (LeavesExcluded d i c) (i.render d) := by
  have rows : Blames (LeavesExcluded d i c) (i.rowSource d) :=
    (strayed_rowSource i).blames.mono fun h => .inl (anyExcluded_append.mpr (.inl h))
  have clause : Blames (LeavesExcluded d i c)
      (allOk ([ConflictClause.conflict c].map fun c => c.render d i.columns)) :=
    blames_allOk (List.forall_mem_singleton.mpr ((blames_clause i.columns c).mono .inr))
  have returning : Blames (LeavesExcluded d i c) (returningClause d i.returning) :=
    (strayed_returningClause i.returning).blames.mono fun h =>
      .inl (anyExcluded_append.mpr (.inr h))
  -- SQL Server writes a merge, the others write an insert with a clause
  by_cases hd : d = .mssql
  · subst hd
    rw [Insert.render_of_conflict hc]
    exact blames_merge i c
  · rw [Insert.render_of_ne hd, hc]
    exact (blames_head i).bind fun _ => rows.bind fun _ => clause.bind fun _ =>
      returning.bind fun _ => blames_ok

end

/-! ## Queries -/

section

variable {style : Style} {p : Prop}

theorem RenderError.isStray_inStyle (r : RenderError) : (r.inStyle style).isStray = r.isStray := by
  unfold inStyle
  split <;> rfl

theorem Blames.inStyle {α : Type} {x : Rendered α} (h : Blames p x) :
    Blames p (x.mapError (RenderError.inStyle style)) := by
  cases x with
  | ok a => exact blames_ok
  | error r =>
    rintro _ ⟨⟩ hr
    exact h r rfl (r.isStray_inStyle.symm.trans hr)

theorem Strayed.inStyle {α : Type} {x y : Rendered α} (h : Strayed p x y) :
    Strayed p (x.mapError (RenderError.inStyle style))
      (y.mapError (RenderError.inStyle style)) := by
  refine ⟨fun hp => by rw [h.same hp], fun hp => ?_, h.calm.inStyle⟩
  obtain ⟨r, rfl, hr⟩ := h.fails hp
  exact ⟨r.inStyle style, rfl, hr.imp r.isStray_inStyle.trans fun hy => by rw [hy]; rfl⟩

theorem blames_toQuery (f : Fragment) : Blames p (f.toQuery style) := by
  -- what is left to fail is a value without a representation
  refine Blames.map (fun r hr hstray => ?_) _
  rw [Dialect.encodeAll_error _ _ r hr] at hstray
  cases hstray

end

/-- **References to incoming values are resolved where they are allowed, and raised elsewhere.** The
assignments and the condition of an upsert are rewritten in one of two ways, and either leaves no
reference in the scope, at any depth. So an upsert raises the error of a stray reference only if one
is written in its rows, in what it returns, or in a select that is nested in an assignment or in the
condition. In every other statement a reference that is written raises the error, unless something
before it fails that fails without any reference too; and the error comes from such a reference. -/
theorem Statement.excluded_resolved_or_raised (style : Style) :
    (∀ e e', Expr.mapNodes (replaceExcluded (incoming style.dialect)) e = .ok e' → Free e') ∧
    (∀ (target : Name) (s : String), target.asText? = some s →
      ∀ e e', Expr.mapNodes (mergeScope target) e = .ok e' → Free e') ∧
    (∀ (i : Insert) (target : List Name) (assignments : List Assignment) (filter : Option Expr),
      i.conflict = some (.conflict ⟨target, .update assignments filter⟩) →
      ∀ column, (Statement.insert i).toQuery style = .error (.strayExcluded column) →
        AnyExcluded style.dialect (i.source.drawn ++ itemTrees i.returning) ∨
        (∃ a ∈ assignments, (Tree.expr a.value).NestsExcluded style.dialect) ∨
        ∃ e ∈ filter, (Tree.expr e).NestsExcluded style.dialect) ∧
    ∀ s : Statement, s.isUpsert = false →
      (AnyExcluded style.dialect s.plainTrees →
        ∃ r, s.toQuery style = .error r ∧
          ((∃ column, r = .strayExcluded column) ∨ s.grounded.toQuery style = .error r)) ∧
      ∀ column, s.toQuery style = .error (.strayExcluded column) →
        AnyExcluded style.dialect s.plainTrees := by
  refine ⟨fun e e' => (resolves_replaceExcluded _).free_of_mapNodes, fun target s ht e e' =>
    (resolves_mergeScope ht).free_of_mapNodes, fun i target assignments filter hc column h => ?_,
    fun s hs => ?_⟩
  · have blamed : Blames (LeavesExcluded style.dialect i ⟨target, .update assignments filter⟩)
        ((Statement.insert i).toQuery style) :=
      ((blames_upsert i hc).bind blames_toQuery).inStyle
    exact blamed _ h rfl
  · have strayed : Strayed (AnyExcluded style.dialect s.plainTrees) (s.toQuery style)
        (s.grounded.toQuery style) :=
      ((s.strayed hs).last blames_toQuery).inStyle
    refine ⟨fun h => ?_, fun column h => strayed.blames _ h rfl⟩
    obtain ⟨r, hr, hstray⟩ := strayed.fails h
    exact ⟨r, hr, hstray.imp_left RenderError.isStray_iff.mp⟩

/-- The incoming value of a column, or the null, added to the stored one. -/
def addedIncoming : Expr :=
  .binary .add (.column .absent (.word "n")) (.coalesce [.excluded (.word "n"), .literal .null])

/-- An upsert with a reference among its rows too, where it is a stray one. -/
def strayInRows : Insert where
  target := .table ⟨.word "t", .absent, .absent, []⟩
  columns := [.word "id", .word "n"]
  source := .rows [[.literal .null, .excluded (.word "n")]]
  conflict := some (.conflict ⟨[.word "id"], .update [⟨.word "n", addedIncoming⟩] none⟩)
  returning := []

/-- A select of a stray reference. -/
def straySelect : Statement :=
  .select ⟨[⟨.excluded (.word "n"), .absent⟩], none, [], none, [], none, [], none, none,
    .switch false⟩

/-- The assigned value is resolved in both ways, and the upsert fails for its rows; so does the
select. -/
theorem strayInRows_blamed :
    (∃ e', Expr.mapNodes (replaceExcluded (incoming .sqlite)) addedIncoming = .ok e' ∧ Free e') ∧
    (∃ e', Expr.mapNodes (mergeScope (.word "t")) addedIncoming = .ok e' ∧ Free e') ∧
    (Statement.insert strayInRows).toQuery (.plain .sqlite) =
      .error (.strayExcluded (.text "n")) ∧
    (AnyExcluded .sqlite (strayInRows.source.drawn ++ itemTrees []) ∨
      (∃ a ∈ [(⟨.word "n", addedIncoming⟩ : Assignment)],
        (Tree.expr a.value).NestsExcluded .sqlite) ∨
      ∃ e ∈ (none : Option Expr), (Tree.expr e).NestsExcluded .sqlite) ∧
    (∃ r, straySelect.toQuery (.plain .sqlite) = .error r ∧
      ((∃ column, r = .strayExcluded column) ∨
        straySelect.grounded.toQuery (.plain .sqlite) = .error r)) ∧
    AnyExcluded .sqlite straySelect.plainTrees := by
  obtain ⟨replaced, merged, upsert, other⟩ :=
    Statement.excluded_resolved_or_raised (.plain .sqlite)
  obtain ⟨raised, only⟩ := other straySelect rfl
  have selected : AnyExcluded .sqlite straySelect.plainTrees := only (.text "n") rfl
  exact ⟨⟨_, rfl, replaced addedIncoming _ rfl⟩,
    ⟨_, rfl, merged (.word "t") "t" rfl addedIncoming _ rfl⟩, rfl,
    upsert strayInRows _ _ _ rfl (.text "n") rfl, raised selected, selected⟩

end SqlScribe
