import SqlScribe.Proofs.Strayed

/-!
# The walk meets every stray reference

Wherever a reference to an incoming value is written in a tree, at any nesting, it makes the whole
fail. The proof is by induction over trees: a node is laid out from what is written below it, and
every layout takes that from left to right. Nodes that go into their branches, like memberships of
rows, windows and templates, are told about the branches of their branches too.
-/

namespace SqlScribe

/-- Whether a dialect writes a reference to an incoming value in one of several trees. -/
def AnyExcluded (d : Dialect) (ts : List Tree) : Prop := ∃ t ∈ ts, t.HasExcluded d

section

variable {d : Dialect} {t : Tree} {ts us : List Tree}

@[simp] theorem anyExcluded_nil : AnyExcluded d [] ↔ False := by simp [AnyExcluded]

@[simp] theorem anyExcluded_cons :
    AnyExcluded d (t :: ts) ↔ t.HasExcluded d ∨ AnyExcluded d ts := by
  simp [AnyExcluded]

@[simp] theorem anyExcluded_append :
    AnyExcluded d (ts ++ us) ↔ AnyExcluded d ts ∨ AnyExcluded d us := by
  simp only [AnyExcluded, List.mem_append, or_and_right, exists_or]

@[simp] theorem anyExcluded_map {ι : Type} {f : ι → Tree} {is : List ι} :
    AnyExcluded d (is.map f) ↔ ∃ i ∈ is, (f i).HasExcluded d := by
  simp [AnyExcluded]

@[simp] theorem anyExcluded_flatMap {ι : Type} {f : ι → List Tree} {is : List ι} :
    AnyExcluded d (is.flatMap f) ↔ ∃ i ∈ is, AnyExcluded d (f i) := by
  simp only [AnyExcluded, List.mem_flatMap]
  exact ⟨fun ⟨t, ⟨i, hi, ht⟩, h⟩ => ⟨i, hi, t, ht, h⟩, fun ⟨i, hi, t, ht, h⟩ => ⟨t, ⟨i, hi, ht⟩, h⟩⟩

/-- A reference stands in a tree if it is the tree, or if it stands below it. -/
theorem Tree.hasExcluded_iff :
    t.HasExcluded d ↔ (∃ column, t = .expr (.excluded column)) ∨ AnyExcluded d (t.written d) := by
  unfold HasExcluded AnyExcluded HasExcluded
  rw [writtenNodes_eq]
  simp only [List.mem_cons, List.mem_flatMap, exists_or]
  refine or_congr (exists_congr fun c => eq_comm) ?_
  exact ⟨fun ⟨c, b, hb, hc⟩ => ⟨b, hb, c, hc⟩, fun ⟨b, hb, c, hc⟩ => ⟨c, b, hb, hc⟩⟩

theorem Tree.hasExcluded_select {s : Select} :
    (Tree.select s).HasExcluded d ↔ AnyExcluded d s.branches := by
  rw [hasExcluded_iff]
  exact or_iff_right nofun

/-- Where nothing is written below a node, no reference is. -/
theorem Tree.not_hasExcluded {e : Expr} (hw : (Tree.expr e).written d = [])
    (hroot : ∀ column, e ≠ .excluded column := by rintro _ ⟨⟩) :
    ¬(Tree.expr e).HasExcluded d := by
  rw [hasExcluded_iff, hw]
  rintro (⟨column, he⟩ | ⟨b, hb, -⟩)
  · exact hroot column (Tree.expr.inj he)
  · cases hb

/-! ## Expressions -/

/-- A node that is no reference itself. -/
theorem strays_node {e : Expr} {p : Prop} (h : Strayed p (e.render d) (e.grounded.render d))
    (hp : AnyExcluded d ((Tree.expr e).written d) ↔ p := by
      simp [Tree.written, Tree.branches, Expr.branches])
    (hroot : ∀ column, e ≠ .excluded column := by rintro _ ⟨⟩) : Strays d (.expr e) :=
  h.congr ((Tree.hasExcluded_iff.trans (or_iff_right fun ⟨column, he⟩ =>
    hroot column (Tree.expr.inj he))).trans hp)

/-- The inside of a window. A reference in its place is none, and fails as anything else does. -/
theorem strayed_renderWindow {e : Expr} (ih : ∀ b ∈ e.branches, Strays d b) :
    Strayed ((Tree.expr e).HasExcluded d) (e.renderWindow d) (e.grounded.renderWindow d) := by
  -- only a window, a tuple and an object from outside have something to say; the rest are no
  -- windows
  cases e with
  | window partition order =>
    have hp : ∀ e ∈ partition, Strays d (.expr e) := fun e he =>
      ih _ (List.mem_map_of_mem (List.mem_append_left _ he))
    have ho : ∀ e ∈ order, Strays d (.expr e) := fun e he =>
      ih _ (List.mem_map_of_mem (List.mem_append_right _ he))
    show Strayed _ _ ((Expr.window (passAll grounding .value partition)
      (passAll grounding .value order)).renderWindow d)
    rw [passAll_grounding, passAll_grounding]
    refine ((strayed_textsOf partition (strayed_renderEach hp)).bind fun _ =>
      (strayed_textsOf order (strayed_renderEach ho)).last fun _ => blames_ok).congr ?_
    rw [Tree.hasExcluded_iff]
    simp [Tree.written, Tree.branches, Expr.branches]
  | tuple items =>
    refine (strayed_none (blames_missingWindow (.tuple items))).congr (iff_false_intro ?_)
    exact Tree.not_hasExcluded rfl
  | foreign object =>
    refine (strayed_none (blames_missingWindow (.foreign object))).congr (iff_false_intro ?_)
    exact Tree.not_hasExcluded rfl
  | _ => exact strayed_error rfl

theorem strayed_query {q : Query} (h : ∀ s ∈ q.selects, Strays d (.select s)) :
    Strayed (AnyExcluded d (q.selects.map .select)) (q.render d) ((q.pass grounding).render d) := by
  cases q with
  | select s => exact (h s (List.mem_singleton_self s)).congr (by simp [Query.selects])
  | union u =>
    obtain ⟨members, kind⟩ := u
    show Strayed _ ((allOk (renderSelects d members)).map _)
      ((allOk (renderSelects d (passSelects grounding members))).map _)
    rw [passSelects_eq_map, renderSelects_eq_map, renderSelects_eq_map, List.map_map]
    exact ((strayed_each h).congr anyExcluded_map).map _
  | draft s | other object => exact strayed_error rfl

/-- How SQL Server compares rows. -/
theorem render_rowAlternatives {operand : Expr} {items : List Expr} {negated : Flag}
    (hitems : items.isEmpty = false) (hrow : operand.isRow = true) :
    (Expr.inList operand items negated).render .mssql =
      rowAlternativesOf (operand.parts.map fun e => (e, e.render .mssql))
        ((items.map Expr.parts).map (List.map fun e => (e, e.render .mssql))) negated.isTrue := by
  rw [Expr.render, hitems, hrow, zip_renderParts, zipWith_renderPartsEach]
  rfl

/-- A membership in a list, whose rows SQL Server compares item by item. -/
theorem strays_inList {operand : Expr} {items : List Expr} {negated : Flag}
    (ih : ∀ b ∈ (Expr.inList operand items negated).branches, Strays d b)
    (hparts : ∀ b, Tree.expr b ∈ (Expr.inList operand items negated).branches →
      ∀ p ∈ b.parts, Strays d (.expr p)) :
    Strays d (.expr (.inList operand items negated)) := by
  cases hitems : items.isEmpty with
  | true =>
    obtain rfl := List.isEmpty_iff.mp hitems
    exact strays_node (strayed_none blames_ok)
  | false =>
    rw [Expr.branches_inList hitems] at ih hparts
    obtain ⟨hoperand, hrest⟩ := List.forall_mem_cons.mp ih
    have hrest : ∀ e ∈ items, Strays d (.expr e) := List.forall_mem_map.mp hrest
    have grounded : (Expr.inList operand items negated).grounded =
        .inList operand.grounded (items.map Expr.grounded) negated := by
      rw [← passAll_grounding .value]
      rfl
    have hempty : (items.map Expr.grounded).isEmpty = false := by rw [List.isEmpty_map, hitems]
    -- for SQL Server what is written below the node is not its branches but their items
    by_cases hrow : d = .mssql ∧ operand.isRow = true
    · obtain ⟨rfl, hrow⟩ := hrow
      have rows := strayed_rowAlternativesOf (d := .mssql) (items.map Expr.parts) negated.isTrue
        (hparts operand List.mem_cons_self) (List.forall_mem_map.mpr fun row hmem =>
          hparts row (List.mem_cons_of_mem _ (List.mem_map_of_mem hmem)))
      have hrow' : operand.grounded.isRow = true := by rw [Expr.isRow_pass, hrow]
      refine strays_node (rows.of_eq (render_rowAlternatives hitems hrow) ?_) ?_
      · rw [grounded, render_rowAlternatives hempty hrow']
        simp only [List.map_map, Function.comp_def, Expr.parts_pass]
      · simp [Tree.written, hrow]
    · have written := Tree.written_inList negated hitems hrow
      have below : AnyExcluded d ((Tree.expr (.inList operand items negated)).written d) ↔
          (Tree.expr operand).HasExcluded d ∨ ∃ e ∈ items, (Tree.expr e).HasExcluded d := by
        simp [written]
      -- the same list of branches, as a row of names or as values
      refine strays_node ?_ below
      rw [grounded, Expr.render, Expr.render, hitems, hempty, Expr.isRow_pass]
      by_cases hr : operand.isRow = true
      · have hd : d ≠ .mssql := fun hd => hrow ⟨hd, hr⟩
        simp only [hr, hd, if_true, if_false, Bool.false_eq_true]
        exact strayed_rowMembershipOf negated.isTrue hoperand (strayed_renderEach hrest)
      · simp only [hr, if_false, Bool.false_eq_true]
        exact strayed_membershipOf operand items negated.isTrue hoperand (strayed_renderEach hrest)

/-- A raw fragment, which writes the expressions that its marks name. -/
theorem strays_raw {sql aliasName template : Expr} {bindings : List (Name × Expr)}
    (ih : ∀ b ∈ (Expr.raw sql aliasName template bindings).branches, Strays d b) :
    Strays d (.expr (.raw sql aliasName template bindings)) :=
  strays_node (strayed_rawText sql.view aliasName template.isTrue bindings
    (List.forall_mem_map.mp ih)) anyExcluded_map

theorem strays_all (es : List Expr) (h : ∀ b ∈ es.map Tree.expr, Strays d b) :
    ∀ e ∈ es, Strays d (.expr e) :=
  List.forall_mem_map.mp h

theorem strays_pair {e e' : Expr} (h : ∀ b ∈ [Tree.expr e, .expr e'], Strays d b) :
    Strays d (.expr e) ∧ Strays d (.expr e') :=
  ⟨h _ List.mem_cons_self, h _ (List.mem_cons_of_mem _ (List.mem_singleton_self _))⟩

theorem strayed_texts {es : List Expr} (h : ∀ e ∈ es, Strays d (.expr e)) :
    Strayed (∃ e ∈ es, (Tree.expr e).HasExcluded d) (textsOf es (renderEach d es))
      (textsOf (es.map Expr.grounded) (renderEach d (es.map Expr.grounded))) :=
  strayed_textsOf es (strayed_renderEach h)

theorem strays_expr {e : Expr} (ih : ∀ b ∈ e.branches, Strays d b)
    (hwindow : ∀ b, Tree.expr b ∈ e.branches →
      Strayed ((Tree.expr b).HasExcluded d) (b.renderWindow d) (b.grounded.renderWindow d))
    (hparts : ∀ b, Tree.expr b ∈ e.branches → ∀ p ∈ b.parts, Strays d (.expr p)) :
    Strays d (.expr e) := by
  cases e with
  | column table name => exact strays_node (strayed_none (blames_qualified table name))
  | star table => exact strays_node (strayed_none (blames_starOf table))
  | literal _ | truth _ => exact strays_node (strayed_none blames_ok)
  | rowToJson table pretty => exact strays_node (strayed_none (blames_rowToJsonSql d table _))
  | image side column =>
    exact strays_node (strayed_none (by cases column <;> exact blames_ok))
  | tuple _ | foreign _ => exact strays_node (strayed_none (blames_error rfl))
  | window _ _ => exact strays_node (strayed_error rfl) .rfl
  | excluded column =>
    have root : (Tree.expr (.excluded column)).HasExcluded d :=
      Tree.hasExcluded_iff.mpr (.inl ⟨column, rfl⟩)
    exact ⟨fun h => absurd root h, fun _ => ⟨_, rfl, .inl rfl⟩, blames_ok⟩
  | not operand =>
    have h := strayed_predicateOf (ih (.expr operand) (List.mem_singleton_self _))
    exact strays_node ((strayed_operandOf operand h).last fun _ => blames_ok)
  | isNull operand negated =>
    have h := ih (.expr operand) (List.mem_singleton_self _)
    exact strays_node ((strayed_operandOf operand h).last fun _ => blames_ok)
  | binary op left right =>
    obtain ⟨hl, hr⟩ := strays_pair ih
    exact strays_node ((strayed_operandOf left hl).bind fun _ =>
      (strayed_operandOf right hr).last fun _ => blames_ok)
  | logical op first rest =>
    have shown := strayed_conditionsOf op (strays_all (first :: rest) ih)
    rw [List.map_cons, ← passAll_grounding] at shown
    exact strays_node shown
  | inList operand items negated => exact strays_inList ih hparts
  | inQuery operand query negated =>
    obtain ⟨ho, hq⟩ := List.forall_mem_cons.mp ih
    exact strays_node ((strayed_operandOf operand ho).bind fun _ =>
      (strayed_query (List.forall_mem_map.mp hq)).last fun _ => blames_ok)
  | between operand low high negated =>
    obtain ⟨ho, hrest⟩ := List.forall_mem_cons.mp ih
    obtain ⟨hl, hh⟩ := strays_pair hrest
    exact strays_node ((strayed_operandOf operand ho).bind fun _ =>
      (strayed_operandOf low hl).bind fun _ => (strayed_operandOf high hh).last fun _ => blames_ok)
  | «exists» query negated =>
    exact strays_node ((strayed_query (List.forall_mem_map.mp ih)).last fun _ => blames_ok)
  | scalar query => exact strays_node ((strayed_query (List.forall_mem_map.mp ih)).map _)
  | row first rest =>
    have shown := strayed_texts (strays_all (first :: rest) ih)
    rw [List.map_cons, ← passAll_grounding] at shown
    exact strays_node (shown.map _)
  | call name args distinct =>
    have shown := strayed_texts (strays_all args ih)
    rw [← passAll_grounding] at shown
    exact strays_node (shown.last fun _ => blames_ok)
  | cast operand target =>
    exact strays_node ((ih _ (List.mem_singleton_self _)).last fun _ => blames_ok)
  | coalesce parts | concat parts =>
    have shown := strayed_texts (strays_all parts ih)
    rw [← passAll_grounding] at shown
    exact strays_node (shown.map _)
  | aggregateText operand =>
    exact strays_node ((ih _ (List.mem_singleton_self _)).map _)
  | sorted operand direction =>
    exact strays_node ((ih _ (List.mem_singleton_self _)).last fun _ => blames_ok)
  | «over» name args spec =>
    have shown := strayed_texts (strays_all args fun b hb =>
      ih b (List.mem_append_left _ hb))
    rw [← passAll_grounding] at shown
    have window := hwindow spec (List.mem_append_right _ (List.mem_singleton_self _))
    exact strays_node (shown.bind fun _ => window.last fun _ => blames_ok)
  | jsonExtract document path asText =>
    exact strays_node (strayed_jsonPartOf document path _ (ih _ (List.mem_singleton_self _)))
  | jsonContains document value negated =>
    obtain ⟨hd, hv⟩ := strays_pair ih
    exact strays_node (strayed_jsonContainsSql document _ hd hv)
  | jsonEdge document value edge negated =>
    obtain ⟨hd, hv⟩ := strays_pair ih
    exact strays_node (strayed_jsonEdgeSql document edge _ hd hv)
  | jsonType document type =>
    exact strays_node (strayed_jsonTypeSql type (ih _ (List.mem_singleton_self _)))
  | textSearch first rest =>
    have shown := strayed_searchedColumns (d := d) (first :: rest)
      (strayed_renderEach (strays_all (first :: rest) ih))
    rw [List.map_cons, ← passAll_grounding] at shown
    exact strays_node shown
  | «matches» search query negated =>
    obtain ⟨hs, hq⟩ := strays_pair ih
    -- PostgreSQL writes the search, and other dialects its columns
    have columns (h : search.isTextSearch = true) :
        Strayed ((Tree.expr search).HasExcluded d) (allOk (search.renderParts d))
          (allOk (search.grounded.renderParts d)) := by
      have below : (Tree.expr search).written d = search.parts.map .expr := by
        cases search with
        | textSearch first rest => rfl
        | _ => cases h
      rw [renderParts_eq_map, renderParts_eq_map, Expr.parts_pass, List.map_map]
      refine (strayed_each (hparts search List.mem_cons_self)).congr ?_
      rw [Tree.hasExcluded_iff, below, anyExcluded_map]
      refine or_iff_right ?_
      rintro ⟨column, ⟨⟩⟩
      cases h
    exact strays_node (strayed_matchSql search _ hs columns hq)
  | raw sql aliasName template bindings => exact strays_raw ih

/-! ## Selects -/

theorem strayed_renderItems {items : List SelectItem} (h : ∀ t ∈ itemTrees items, Strays d t) :
    Strayed (AnyExcluded d (itemTrees items)) (allOk (renderItems d items))
      (allOk (renderItems d (items.map SelectItem.grounded))) := by
  have each : ∀ i ∈ items, Strayed ((Tree.expr i.expr).HasExcluded d) (i.render d)
      (i.grounded.render d) := by
    intro i hi
    have hi : Strays d (.expr i.expr) := h _ (List.mem_map.mpr ⟨i, hi, rfl⟩)
    obtain ⟨e, aliasName⟩ := i
    exact hi.last fun f => blames_aliased f aliasName
  rw [renderItems_eq_map, renderItems_eq_map, List.map_map]
  exact (strayed_each each).congr anyExcluded_map

theorem strayed_source {o : Source} (h : ∀ s ∈ o.selects, Strays d (.select s)) :
    Strayed (AnyExcluded d (o.selects.map .select)) (o.render d) ((o.pass grounding).render d) := by
  cases o with
  | table t =>
    refine (strayed_none ?_).congr anyExcluded_nil
    exact (blames_tableName t.schema t.name).bind fun f => blames_aliased f t.aliasName
  | derived query aliasName =>
    exact (strayed_query h).last fun _ => (blames_nameOf aliasName).bind fun _ => blames_ok
  | other object => exact strayed_error rfl

theorem strayed_renderOrigin {source : Option Source}
    (h : ∀ s ∈ source.toList.flatMap Source.selects, Strays d (.select s)) :
    Strayed (AnyExcluded d ((source.toList.flatMap Source.selects).map .select))
      (renderOrigin d source) (renderOrigin d (passOrigin grounding source)) := by
  cases source with
  | none => exact (strayed_none blames_ok).congr anyExcluded_nil
  | some o =>
    rw [Option.toList_some, List.flatMap_singleton] at h ⊢
    exact (strayed_source h).last fun _ => blames_ok

theorem strayed_renderFilter (word : String) {filter : Option Expr}
    (h : ∀ e ∈ filter.toList, Strays d (.expr e)) :
    Strayed (AnyExcluded d (filter.toList.map .expr)) (renderFilter d word filter)
      (renderFilter d word (filter.map Expr.grounded)) := by
  cases filter with
  | none => exact (strayed_none blames_ok).congr anyExcluded_nil
  | some e =>
    have condition := strayed_predicateOf (h e (Option.mem_toList.mpr rfl))
    exact (condition.last fun _ => blames_ok).congr (by simp)

theorem strayed_join {j : Join} (h : ∀ b ∈ j.branches, Strays d b) :
    Strayed (AnyExcluded d j.branches) (j.render d) ((j.pass grounding).render d) := by
  cases j with
  | join right on kind =>
    have hr : ∀ s ∈ right.selects, Strays d (.select s) := fun s hs =>
      h _ (List.mem_append_left _ (List.mem_map_of_mem hs))
    have ho : ∀ e ∈ on.toList, Strays d (.expr e) := fun e he =>
      h _ (List.mem_append_right _ (List.mem_map_of_mem he))
    rw [Join.pass, passFilter_grounding]
    exact strayed_after (blames_joinKeyword d kind) fun _ => ((strayed_source hr).bind fun _ =>
      (strayed_renderFilter "ON" ho).last fun _ => blames_ok).congr anyExcluded_append
  | other object => exact strayed_error rfl

theorem strayed_renderJoins {joins : List Join}
    (h : ∀ b ∈ joins.flatMap Join.branches, Strays d b) :
    Strayed (AnyExcluded d (joins.flatMap Join.branches)) (allOk (renderJoins d joins))
      (allOk (renderJoins d (passJoins grounding joins))) := by
  rw [passJoins_eq_map, renderJoins_eq_map, renderJoins_eq_map, List.map_map]
  exact (strayed_each fun j hj => strayed_join fun b hb =>
    h b (List.mem_flatMap.mpr ⟨j, hj, hb⟩)).congr anyExcluded_flatMap

theorem strays_select {s : Select} (ih : ∀ b ∈ s.branches, Strays d b) : Strays d (.select s) := by
  refine Strayed.congr ?_ Tree.hasExcluded_select
  obtain ⟨items, source, joins, filter, groupBy, having, orderBy, limit, offset, distinct⟩ := s
  -- the branches are those of the clauses, one clause after the other
  simp only [Select.branches, List.mem_append, or_imp, forall_and] at ih
  obtain ⟨⟨⟨⟨⟨⟨hitems, hsource⟩, hjoins⟩, hfilter⟩, hgroup⟩, hhaving⟩, horder⟩ := ih
  have checked : requireTexts ((filter.map Expr.grounded).toList ++
      (having.map Expr.grounded).toList) = requireTexts (filter.toList ++ having.toList) := by
    rw [Option.toList_map, Option.toList_map, ← List.map_append, requireTexts_grounded]
  show Strayed _ (Select.render d _) (Select.render d (Select.inner grounding _))
  rw [Select.inner, Select.render, Select.render, passItems_eq_map, passAll_grounding,
    passAll_grounding, passFilter_grounding, passFilter_grounding, unnamed_pass,
    requireTexts_grounded, checked]
  simp only [rowClauses_pass]
  refine ((strayed_renderItems hitems).bind fun _ =>
    strayed_after (blames_requireTexts _) fun _ =>
    (strayed_renderOrigin (List.forall_mem_map.mp hsource)).bind fun _ =>
    (strayed_renderJoins hjoins).bind fun _ =>
    (strayed_renderFilter "WHERE" (List.forall_mem_map.mp hfilter)).bind fun _ =>
    (strayed_texts (List.forall_mem_map.mp hgroup)).bind fun _ =>
    (strayed_renderFilter "HAVING" (List.forall_mem_map.mp hhaving)).bind fun _ =>
    (strayed_texts (List.forall_mem_map.mp horder)).last fun _ =>
    (blames_rowClauses _ _ _ _ _ _ _).bind fun _ => (blames_requireTexts _).bind fun _ =>
    blames_ok).congr ?_
  simp only [Select.branches, anyExcluded_append, anyExcluded_map, or_assoc, itemTrees]

/-- **A reference to an incoming value raises its error wherever it is written.** -/
theorem strays (d : Dialect) (t : Tree) : Strays d t := by
  -- a node above a window or a row goes into it, so both are told about the branches too
  suffices h : Strays d t ∧ ∀ e, t = .expr e →
      Strayed (t.HasExcluded d) (e.renderWindow d) (e.grounded.renderWindow d) ∧
        ∀ p ∈ e.parts, Strays d (.expr p) from h.1
  induction t using Tree.induction with
  | step t ih =>
    cases t with
    | select s => exact ⟨strays_select fun b hb => (ih b hb).1, by rintro e ⟨⟩⟩
    | expr e =>
      refine ⟨?_, ?_⟩
      · exact strays_expr (fun b hb => (ih b hb).1) (fun b hb => ((ih _ hb).2 b rfl).1)
          fun b hb => ((ih _ hb).2 b rfl).2
      · rintro _ ⟨⟩
        exact ⟨strayed_renderWindow fun b hb => (ih b hb).1, fun p hp =>
          (ih _ (mem_branches_of_mem_parts hp)).1⟩

end

end SqlScribe
