import SqlScribe.Proofs.PartsLayout
import SqlScribe.Proofs.Scopes
import SqlScribe.Proofs.Walk

/-!
# The walk shows every node

Whatever is written for a tree has a part for each node of the tree, at any nesting, and the part is
what is written for the node by itself. The proof is by induction over trees. A node is laid out
from what is written below it, so the lemmas on layouts apply; the cases that need more are those
where a node goes into its branches: rows that are compared item by item, the columns of a search,
windows, and templates.

A tree that is not written by itself has no part of its own (`Tree.stands`), but what it holds does.
-/

namespace SqlScribe

namespace Tree

/-- Whether a tree is written by itself wherever it stands. A window and the columns of a search are
laid out by the node around them, a constant may become a comparison, and a blank be left out. -/
def stands : Tree → Bool
  | .select _ => true
  | .expr (.truth _) | .expr (.window ..) | .expr (.textSearch ..) | .expr (.tuple _)
  | .expr (.foreign _) => false
  | .expr e => !e.isBlank

/-- What is written for the nodes of a tree that are written by themselves. -/
def outcomes (d : Dialect) (t : Tree) : List (Rendered Fragment) :=
  ((t.writtenNodes d).filter stands).map (render d)

theorem outcomes_eq (d : Dialect) (t : Tree) :
    t.outcomes d =
      (if t.stands then [t.render d] else []) ++ (t.written d).flatMap (outcomes d) := by
  have below : (((t.written d).flatMap (writtenNodes d)).filter stands).map (render d) =
      (t.written d).flatMap (outcomes d) := by
    rw [List.filter_flatMap, List.map_flatMap]
    rfl
  rw [outcomes, writtenNodes_eq, List.filter_cons, ← below]
  split <;> rfl

/-- A select is written by itself wherever it stands. -/
theorem mem_outcomes_of_mem_scopes {d : Dialect} {t : Tree} {q : Select} (h : q ∈ t.scopes d) :
    q.render d ∈ t.outcomes d :=
  List.mem_map_of_mem (f := render d) (List.mem_filter.mpr ⟨mem_scopes.mp h, rfl⟩)

end Tree

section

variable {d : Dialect} {t : Tree} {ws : List (Rendered Fragment)}

/-- Whether each node of a tree that is written by itself is shown by one of some outcomes. -/
def Covers (d : Dialect) (ws : List (Rendered Fragment)) (t : Tree) : Prop :=
  ∀ v ∈ t.outcomes d, ∃ w ∈ ws, Shows sole [] [v] w

theorem covers_of_mem {w : Rendered Fragment} (hw : w ∈ ws) (h : Shows sole [] (t.outcomes d) w) :
    Covers d ws t := fun v hv =>
  ⟨w, hw, h.mono fun _ hv' => by rwa [List.mem_singleton.mp hv']⟩

/-- What covers all that is written below a tree shows the tree. -/
theorem shows_tree {x : Rendered Fragment} (hx : Shows sole [] ws x)
    (hroot : t.stands = true → x = t.render d) (hc : ∀ b ∈ t.written d, Covers d ws b) :
    Shows sole [] (t.outcomes d) x := by
  have below : Shows sole [] ((t.written d).flatMap (Tree.outcomes d)) x :=
    hx.trans fun v hv => by
      obtain ⟨b, hb, hv⟩ := List.mem_flatMap.mp hv
      exact hc b hb v hv
  rw [Tree.outcomes_eq]
  cases hs : t.stands with
  | true =>
    rw [← hroot hs]
    exact shows_self.both below
  | false => exact below

/-- The same, where what is written below the tree is shown as it stands there. -/
theorem shows_tree_branches (hx : Shows sole [] ((t.written d).map (Tree.render d)) (t.render d))
    (ih : ∀ b ∈ t.written d, Shows sole [] (b.outcomes d) (b.render d)) :
    Shows sole [] (t.outcomes d) (t.render d) :=
  shows_tree hx (fun _ => rfl) fun b hb => covers_of_mem (List.mem_map_of_mem hb) (ih b hb)

/-! ## Expressions -/

/-- An expression where a condition is expected. A constant, which is written in another way there,
holds nothing. -/
theorem shows_predicate {e : Expr} (h : Shows sole [] ((Tree.expr e).outcomes d) (e.render d)) :
    Shows sole [] ((Tree.expr e).outcomes d) (predicateOf d e (e.render d)) := by
  unfold predicateOf
  split
  · refine shows_tree (shows_nothing _) (fun hs => nomatch hs) fun b hb => ?_
    cases hb
  · exact h

theorem shows_renderEach (es : List Expr) :
    Shows id [] ((es.map Tree.expr).map (Tree.render d)) (textsOf es (renderEach d es)) := by
  rw [renderEach_eq_map, List.map_map]
  exact shows_textsOf es

/-- The inside of a window. What is none has nothing below it. -/
theorem shows_window {e : Expr} (ih : ∀ b ∈ e.branches, Shows sole [] (b.outcomes d) (b.render d)) :
    Shows sole [] ((Tree.expr e).outcomes d) (e.renderWindow d) := by
  cases e with
  | window partition order =>
    have inside : Shows sole [] ((partition ++ order).map Tree.expr |>.map (Tree.render d))
        ((Expr.window partition order).renderWindow d) := by
      rw [List.map_append, List.map_append]
      exact (shows_renderEach partition).bind fun fs => (shows_renderEach order).last fun gs =>
        shows_ok (by grind)
    exact shows_tree inside (fun hs => nomatch hs) fun b hb =>
      covers_of_mem (List.mem_map_of_mem hb) (ih b hb)
  | tuple _ | foreign _ =>
    exact shows_tree (shows_nothing _) (fun hs => nomatch hs) fun b hb => nomatch hb
  | _ => exact shows_error

theorem shows_query (q : Query) :
    Shows sole [] ((q.selects.map Tree.select).map (Tree.render d)) (q.render d) := by
  cases q with
  | select s => exact shows_self
  | union u =>
    obtain ⟨members, kind⟩ := u
    show Shows sole [] ((members.map Tree.select).map (Tree.render d))
      ((allOk (renderSelects d members)).map _)
    rw [renderSelects_eq_map, List.map_map]
    exact shows_allOk.map (by grind)
  | draft s | other object => exact shows_error

/-- A membership in a list, whose rows SQL Server compares item by item. -/
theorem shows_inList {operand : Expr} {items : List Expr} {negated : Flag}
    (ih : ∀ b ∈ (Expr.inList operand items negated).branches,
      Shows sole [] (b.outcomes d) (b.render d))
    (hparts : ∀ b, Tree.expr b ∈ (Expr.inList operand items negated).branches →
      ∀ p ∈ b.parts, Shows sole [] ((Tree.expr p).outcomes d) (p.render d)) :
    Shows sole [] ((Tree.expr (.inList operand items negated)).outcomes d)
      ((Expr.inList operand items negated).render d) := by
  cases hitems : items.isEmpty with
  | true =>
    obtain rfl := List.isEmpty_iff.mp hitems
    refine shows_tree (shows_nothing _) (fun _ => rfl) fun b hb => ?_
    simp [Tree.written, Expr.branches] at hb
  | false =>
    rw [Expr.branches_inList hitems] at ih hparts
    -- for SQL Server the items of the rows are written, and elsewhere the branches
    by_cases hrow : d = .mssql ∧ operand.isRow = true
    · obtain ⟨rfl, hrow⟩ := hrow
      refine shows_tree_branches ?_ fun b hb => ?_
      · show Shows sole [] _ ((Expr.inList operand items negated).render .mssql)
        rw [Tree.written_rows negated hrow, Expr.render, hitems, hrow, zip_renderParts,
          zipWith_renderPartsEach]
        have shown := shows_rowAlternativesOf (operand.parts.map fun p => (p, p.render .mssql))
          ((items.map Expr.parts).map fun row => row.map fun p => (p, p.render .mssql))
          negated.isTrue
        simpa [List.map_flatMap, List.flatMap_map, List.zip_map, Tree.render] using shown
      · rw [Tree.written_rows negated hrow] at hb
        simp only [List.mem_flatMap, List.mem_cons, List.not_mem_nil, or_false] at hb
        obtain ⟨row, hmem, ⟨l, r⟩, hp, hb⟩ := hb
        obtain ⟨hl, hr⟩ := List.of_mem_zip hp
        rcases hb with rfl | rfl
        · exact hparts operand List.mem_cons_self l hl
        · exact hparts row (List.mem_cons_of_mem _ (List.mem_map_of_mem hmem)) r hr
    · have written := Tree.written_inList negated hitems hrow
      refine shows_tree_branches ?_ (written ▸ ih)
      show Shows sole [] _ ((Expr.inList operand items negated).render d)
      rw [written, Expr.render, hitems, renderEach_eq_map, List.map_cons, List.map_map]
      by_cases hr : operand.isRow = true
      · have hd : d ≠ .mssql := fun hd => hrow ⟨hd, hr⟩
        simp only [hr, hd, if_true, if_false, Bool.false_eq_true]
        exact shows_rowMembershipOf d negated.isTrue
      · simp only [hr, if_false, Bool.false_eq_true]
        exact shows_membershipOf operand items negated.isTrue

/-- A search and a query: where a dialect lists the columns itself, they are shown one by one. -/
theorem shows_matches {search query : Expr} {negated : Flag}
    (hs : Shows sole [] ((Tree.expr search).outcomes d) (search.render d))
    (hp : ∀ p ∈ search.parts, Shows sole [] ((Tree.expr p).outcomes d) (p.render d))
    (hq : Shows sole [] ((Tree.expr query).outcomes d) (query.render d)) :
    Shows sole [] ((Tree.expr (.matches search query negated)).outcomes d)
      ((Expr.matches search query negated).render d) := by
  have shown : Shows sole [] ((if search.isTextSearch && d != .postgres then search.renderParts d
      else [search.render d]) ++ [query.render d]) ((Expr.matches search query negated).render d) :=
    shows_matchSql d search negated.isTrue
  refine shows_tree shown (fun _ => rfl) fun b hb => ?_
  rcases List.mem_cons.mp hb with rfl | hb
  · split
    next hlisted =>
      -- the search itself is not written, but its columns are
      cases search with
      | textSearch first rest =>
        intro v hv
        rw [Tree.outcomes_eq] at hv
        obtain ⟨p, hp', hv⟩ := List.mem_flatMap.mp hv
        obtain ⟨c, hc, rfl⟩ := List.mem_map.mp (show p ∈ (first :: rest).map Tree.expr from hp')
        refine covers_of_mem ?_ (hp c hc) v hv
        rw [renderParts_eq_map]
        exact List.mem_append_left _ (List.mem_map_of_mem hc)
      | _ => simp [Expr.isTextSearch] at hlisted
    · exact covers_of_mem List.mem_cons_self hs
  · obtain rfl := List.mem_singleton.mp hb
    exact covers_of_mem (List.mem_append_right _ (List.mem_singleton_self _)) hq

/-- A blank is not written by itself, and holds nothing. -/
theorem outcomes_of_isBlank {e : Expr} (h : e.isBlank = true) : (Tree.expr e).outcomes d = [] := by
  have hblank := h
  unfold Expr.isBlank Expr.bare? at h
  split at h
  next sql aliasName template bindings =>
    split at h
    · cases h
    next hb =>
      simp only [Bool.or_eq_true, not_or, Bool.not_eq_true] at hb
      have stands : (Tree.expr (.raw sql aliasName template bindings)).stands = false :=
        congrArg Bool.not hblank
      rw [Tree.outcomes_eq, stands]
      simp [Tree.written, Tree.branches, Expr.branches, rawParts, hb.1.2]
  · cases h

/-- A raw fragment with named expressions in place. A blank holds nothing. -/
theorem shows_raw {sql aliasName template : Expr} {bindings : List (Name × Expr)}
    (ih : ∀ b ∈ (Expr.raw sql aliasName template bindings).branches,
      Shows sole [] (b.outcomes d) (b.render d)) :
    Shows sole [] ((Tree.expr (.raw sql aliasName template bindings)).outcomes d)
      ((Expr.raw sql aliasName template bindings).render d) := by
  have shown : Shows sole [] (unblank (Expr.render d)
      (rawParts sql.view aliasName template.isTrue bindings))
      ((Expr.raw sql aliasName template bindings).render d) := by
    rw [Expr.render, renderBindings_eq_map]
    exact shows_rawText _ _ _ _ _
  refine shows_tree shown (fun _ => rfl) fun b hb => ?_
  obtain ⟨e, he, rfl⟩ := List.mem_map.mp (show b ∈
    (rawParts sql.view aliasName template.isTrue bindings).map Tree.expr from hb)
  cases hblank : e.isBlank with
  | true =>
    rw [Covers, outcomes_of_isBlank hblank]
    exact nofun
  | false =>
    refine covers_of_mem (w := e.render d) ?_ (ih _ hb)
    exact List.mem_map_of_mem (List.mem_filter.mpr ⟨he, by rw [hblank]; rfl⟩)

theorem shows_expr {e : Expr}
    (ih : ∀ b ∈ e.branches, Shows sole [] (b.outcomes d) (b.render d))
    (hwindow : ∀ b, Tree.expr b ∈ e.branches →
      Shows sole [] ((Tree.expr b).outcomes d) (b.renderWindow d))
    (hparts : ∀ b, Tree.expr b ∈ e.branches →
      ∀ p ∈ b.parts, Shows sole [] ((Tree.expr p).outcomes d) (p.render d)) :
    Shows sole [] ((Tree.expr e).outcomes d) (e.render d) := by
  -- most nodes are laid out from their branches as these stand
  have plain : (Tree.expr e).written d = e.branches →
      Shows sole [] (e.branches.map (Tree.render d)) (e.render d) →
      Shows sole [] ((Tree.expr e).outcomes d) (e.render d) := fun hw hs =>
    shows_tree_branches (t := .expr e) (hw ▸ hs) (hw ▸ ih)
  cases e with
  | column _ _ | star _ | literal _ | truth _ | rowToJson _ _ | excluded _ | image _ _ =>
    exact plain rfl (shows_nothing _)
  | window _ _ | tuple _ | foreign _ => exact plain rfl shows_error
  -- the operand of a negation is written as a condition, which is the operand or a frame around it
  | not operand =>
    have h := shows_predicate (ih (.expr operand) (List.mem_singleton_self _))
    have shown : Shows sole [] [predicateOf d operand (operand.render d)]
        ((Expr.not operand).render d) :=
      (shows_operandOf operand).last fun f => shows_ok (by grind)
    refine shows_tree shown (fun _ => rfl) fun b hb => ?_
    obtain rfl := List.mem_singleton.mp hb
    exact covers_of_mem (List.mem_singleton_self _) h
  | isNull operand negated =>
    exact plain rfl ((shows_operandOf operand).last fun f => shows_ok (by grind))
  | binary op left right =>
    exact plain rfl ((shows_operandOf left).bind fun l => (shows_operandOf right).last fun r =>
      shows_ok (by grind))
  | logical op first rest =>
    have shown : Shows sole [] ((first :: rest).map fun e => predicateOf d e (e.render d))
        ((Expr.logical op first rest).render d) := by
      have h := shows_conditionsOf d op (first :: rest) (Expr.render d)
      rwa [Expr.render, renderEach_eq_map]
    refine shows_tree shown (fun _ => rfl) fun b hb => ?_
    obtain ⟨e, he, rfl⟩ := List.mem_map.mp (show b ∈ (first :: rest).map Tree.expr from hb)
    exact covers_of_mem (List.mem_map_of_mem he) (shows_predicate (ih _ hb))
  | inList operand items negated => exact shows_inList ih hparts
  | inQuery operand query negated =>
    exact plain rfl ((shows_operandOf operand).bind fun l => (shows_query query).last fun f =>
      shows_ok (by grind))
  | between operand low high negated =>
    refine plain rfl ((shows_operandOf operand).bind fun e => (shows_operandOf low).bind fun l =>
      (shows_operandOf high).last fun h => shows_ok ?_)
    have left : ∀ k : String, e.PartOf (e ++ " " ++ k ++ " " ++ l) := fun _ => by grind
    grind
  | «exists» query negated =>
    exact plain rfl ((shows_query query).last fun f => shows_ok (by grind))
  | scalar query => exact plain rfl ((shows_query query).map (by grind))
  | row first rest => exact plain rfl ((shows_renderEach (first :: rest)).map (by grind))
  | call name args distinct =>
    refine plain rfl ((shows_renderEach args).last fun fs => shows_ok ?_)
    split <;> grind
  | cast operand target => exact plain rfl (shows_self.last fun f => shows_ok (by grind))
  | coalesce parts => exact plain rfl ((shows_renderEach parts).map (by grind))
  | concat parts =>
    exact plain rfl ((shows_renderEach parts).map fun fs g hg =>
      within_sole.mpr (partOf_concatenated d (Fragment.within_of_mem hg)))
  | aggregateText operand =>
    exact plain rfl (shows_self.map fun f g hg => within_sole.mpr
      (partOf_aggregated d (List.mem_singleton.mp hg ▸ .self)))
  | sorted operand direction => exact plain rfl (shows_self.last fun f => shows_ok (by grind))
  -- a window is written as a window, and not as an expression
  | «over» name args spec =>
    have shown : Shows sole [] ((args.map Tree.expr).map (Tree.render d) ++ [spec.renderWindow d])
        ((Expr.over name args spec).render d) :=
      (shows_renderEach args).bind fun fs => shows_self.last fun f => shows_ok (by grind)
    refine shows_tree shown (fun _ => rfl) fun b hb => ?_
    rcases List.mem_append.mp hb with hb' | hb'
    · exact covers_of_mem (List.mem_append_left _ (List.mem_map_of_mem hb')) (ih b hb)
    · obtain rfl := List.mem_singleton.mp hb'
      exact covers_of_mem (List.mem_append_right _ (List.mem_singleton_self _)) (hwindow spec hb)
  | jsonExtract document path asText => exact plain rfl (shows_jsonPartOf d document path _)
  | jsonContains document value negated => exact plain rfl (shows_jsonContainsSql d document _)
  | jsonEdge document value edge negated => exact plain rfl (shows_jsonEdgeSql d document edge _)
  | jsonType document type => exact plain rfl (shows_jsonTypeSql d type)
  | textSearch first rest =>
    have shown : Shows sole [] (((first :: rest).map Tree.expr).map (Tree.render d))
        ((Expr.textSearch first rest).render d) := by
      rw [Expr.render, renderEach_eq_map, List.map_map]
      exact shows_searchedColumns d (first :: rest)
    exact plain rfl shown
  | «matches» search query negated =>
    exact shows_matches (ih (.expr search) List.mem_cons_self)
      (hparts search List.mem_cons_self)
      (ih (.expr query) (List.mem_cons_of_mem _ (List.mem_singleton_self _)))
  -- what fills the marks of a template
  | raw sql aliasName template bindings => exact shows_raw ih

/-! ## Selects -/

/-- Whether what is written for a tree shows all that is written in it. -/
abbrev Walked (d : Dialect) (t : Tree) : Prop := Shows sole [] (t.outcomes d) (t.render d)

theorem shows_texts {es : List Expr} (h : ∀ e ∈ es, Walked d (.expr e)) :
    Shows id [] ((es.map Tree.expr).flatMap (Tree.outcomes d)) (textsOf es (renderEach d es)) :=
  (shows_renderEach es).trans fun v hv => by
    obtain ⟨t, ht, hv⟩ := List.mem_flatMap.mp hv
    obtain ⟨e, he, rfl⟩ := List.mem_map.mp ht
    exact covers_of_mem (List.mem_map_of_mem ht) (h e he) v hv

theorem shows_aliased (f : Fragment) (aliasName : Name) :
    Shows sole [f] [] (aliased f aliasName) := by
  unfold aliased
  split
  · exact shows_after fun n => shows_ok (by grind)
  · exact shows_ok (by grind)

theorem shows_renderItems {items : List SelectItem} (h : ∀ t ∈ itemTrees items, Walked d t) :
    Shows id [] ((itemTrees items).flatMap (Tree.outcomes d)) (allOk (renderItems d items)) := by
  rw [renderItems_eq_map, itemTrees, List.flatMap_map]
  refine shows_each fun i hi => ?_
  have hi : Walked d (.expr i.expr) := h _ (List.mem_map.mpr ⟨i, hi, rfl⟩)
  obtain ⟨e, aliasName⟩ := i
  exact hi.last fun f => shows_aliased f aliasName

theorem shows_selects {q : Query} (h : ∀ s ∈ q.selects, Walked d (.select s)) :
    Shows sole [] ((q.selects.map Tree.select).flatMap (Tree.outcomes d)) (q.render d) :=
  (shows_query q).trans fun v hv => by
    obtain ⟨t, ht, hv⟩ := List.mem_flatMap.mp hv
    obtain ⟨s, hs, rfl⟩ := List.mem_map.mp ht
    exact covers_of_mem (List.mem_map_of_mem ht) (h s hs) v hv

theorem shows_source {o : Source} (h : ∀ s ∈ o.selects, Walked d (.select s)) :
    Shows sole [] ((o.selects.map Tree.select).flatMap (Tree.outcomes d)) (o.render d) := by
  cases o with
  | table t => exact shows_nothing _
  | derived query aliasName =>
    exact (shows_selects h).last fun f => shows_after fun n => shows_ok (by grind)
  | other object => exact shows_error

theorem shows_renderOrigin {source : Option Source}
    (h : ∀ s ∈ source.toList.flatMap Source.selects, Walked d (.select s)) :
    Shows id [] (((source.toList.flatMap Source.selects).map Tree.select).flatMap (Tree.outcomes d))
      (renderOrigin d source) := by
  cases source with
  | none => exact shows_nothing _
  | some o =>
    rw [Option.toList_some, List.flatMap_singleton] at h ⊢
    exact (shows_source h).last fun f => shows_ok (by grind)

theorem shows_renderFilter (word : String) {filter : Option Expr}
    (h : ∀ e ∈ filter.toList, Walked d (.expr e)) :
    Shows id [] ((filter.toList.map Tree.expr).flatMap (Tree.outcomes d))
      (renderFilter d word filter) := by
  cases filter with
  | none => exact shows_nothing _
  | some e =>
    rw [Option.toList_some, List.map_singleton, List.flatMap_singleton]
    exact (shows_predicate (h e (Option.mem_toList.mpr rfl))).last fun f => shows_ok (by grind)

theorem shows_join {j : Join} (h : ∀ b ∈ j.branches, Walked d b) :
    Shows sole [] (j.branches.flatMap (Tree.outcomes d)) (j.render d) := by
  cases j with
  | join right on kind =>
    have hr : ∀ s ∈ right.selects, Walked d (.select s) := fun s hs =>
      h _ (List.mem_append_left _ (List.mem_map_of_mem hs))
    have ho : ∀ e ∈ on.toList, Walked d (.expr e) := fun e he =>
      h _ (List.mem_append_right _ (List.mem_map_of_mem he))
    rw [Join.branches, List.flatMap_append]
    exact shows_after fun word => (shows_source hr).bind fun f =>
      (shows_renderFilter "ON" ho).last fun fs => shows_ok (by grind)
  | other object => exact shows_error

theorem shows_select {s : Select} (ih : ∀ b ∈ s.branches, Walked d b) : Walked d (.select s) := by
  obtain ⟨items, source, joins, filter, groupBy, having, orderBy, limit, offset, distinct⟩ := s
  -- the branches are those of the clauses, one clause after the other
  simp only [Select.branches, List.mem_append, or_imp, forall_and] at ih
  obtain ⟨⟨⟨⟨⟨⟨hitems, hsource⟩, hjoins⟩, hfilter⟩, hgroup⟩, hhaving⟩, horder⟩ := ih
  have hsource : ∀ s ∈ source.toList.flatMap Source.selects, Walked d (.select s) := fun s hs =>
    hsource _ (List.mem_map_of_mem hs)
  have hfilter : ∀ e ∈ filter.toList, Walked d (.expr e) := fun e he =>
    hfilter _ (List.mem_map_of_mem he)
  have hgroup : ∀ e ∈ groupBy, Walked d (.expr e) := fun e he => hgroup _ (List.mem_map_of_mem he)
  have hhaving : ∀ e ∈ having.toList, Walked d (.expr e) := fun e he =>
    hhaving _ (List.mem_map_of_mem he)
  have horder : ∀ e ∈ orderBy, Walked d (.expr e) := fun e he => horder _ (List.mem_map_of_mem he)
  have joined : Shows id [] ((joins.flatMap Join.branches).flatMap (Tree.outcomes d))
      (allOk (renderJoins d joins)) := by
    rw [renderJoins_eq_map, List.flatMap_assoc]
    exact shows_each fun j hj => shows_join fun b hb => hjoins b (List.mem_flatMap.mpr ⟨j, hj, hb⟩)
  have shown : Shows sole []
      ((Tree.select ⟨items, source, joins, filter, groupBy, having, orderBy, limit, offset,
        distinct⟩).branches.flatMap (Tree.outcomes d))
      (Select.render d ⟨items, source, joins, filter, groupBy, having, orderBy, limit, offset,
        distinct⟩) := by
    simp only [Tree.branches, Select.branches, List.flatMap_append, List.append_assoc]
    exact (shows_renderItems hitems).bind fun projection => shows_after fun _ =>
      (shows_renderOrigin hsource).bind fun origin => joined.bind fun joined =>
      (shows_renderFilter "WHERE" hfilter).bind fun filtered =>
      (shows_texts hgroup).bind fun groups =>
      (shows_renderFilter "HAVING" hhaving).bind fun chosen =>
      (shows_texts horder).last fun order =>
      (shows_rowClauses d source items distinct.isTrue order limit offset).carry fun rows =>
      shows_after fun _ => shows_ok (by grind)
  exact shows_tree shown (fun _ => rfl) fun b hb v hv =>
    ⟨v, List.mem_flatMap.mpr ⟨b, hb, hv⟩, shows_self⟩

/-- **What is written for a tree shows all that is written in it.** -/
theorem walked (d : Dialect) (t : Tree) : Walked d t := by
  -- a node above a window or a row goes into it, so both are told about the branches too
  suffices h : Walked d t ∧ ∀ e, t = .expr e →
      Shows sole [] (t.outcomes d) (e.renderWindow d) ∧ ∀ p ∈ e.parts, Walked d (.expr p) from h.1
  induction t using Tree.induction with
  | step t ih =>
    cases t with
    | select s => exact ⟨shows_select fun b hb => (ih b hb).1, by rintro e ⟨⟩⟩
    | expr e =>
      refine ⟨?_, ?_⟩
      · exact shows_expr (fun b hb => (ih b hb).1) (fun b hb => ((ih _ hb).2 b rfl).1)
          fun b hb => ((ih _ hb).2 b rfl).2
      · rintro _ ⟨⟩
        exact ⟨shows_window fun b hb => (ih b hb).1, fun p hp =>
          (ih _ (mem_branches_of_mem_parts hp)).1⟩

end

end SqlScribe
