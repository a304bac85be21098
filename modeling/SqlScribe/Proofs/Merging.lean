import SqlScribe.Proofs.Paging
import SqlScribe.Proofs.Piece
import SqlScribe.Proofs.Redirect

/-!
# Incoming and stored rows of a merge

SQL Server writes an upsert as a `MERGE` of the incoming rows into the target, and both sides of it
have the same columns. The incoming rows go by the fixed alias `dual`, the target by its own alias
or its name. Incoming values become columns of the former and columns without a qualifier columns of
the latter, each of them once, in the condition and in the assigned values, and nested selects are
left alone.

Two things may bring the sides together. A target that is itself called `dual` has the alias of the
incoming rows, and then a column is written for the incoming and for the stored value alike. And a
column whose qualifier is empty, which is written without one, is not taken for a column without a
qualifier, so it is not told apart from the other side.
-/

namespace SqlScribe

open Fragment (PartOf)

/-! ## Qualified columns -/

/-- A column of a table. An empty name of a table is left out. -/
def Fragment.columnOf (table column : String) : Fragment :=
  if table.isEmpty then ofName column else ofName table ++ "." ++ ofName column

theorem isTrue_of_asText {n : Name} {s : String} (h : n.asText? = some s) :
    n.isTrue = !s.isEmpty := by
  unfold Expr.asText? at h
  unfold Expr.isTrue
  cases hview : n.view with
  | text s' | textLabel s' =>
    rw [hview] at h
    obtain rfl := Option.some.inj h
    rfl
  | _ => rw [hview] at h; cases h

theorem nameOf_of_asText {n : Name} {s : String} (h : n.asText? = some s) :
    nameOf n = .ok (Fragment.ofName s) := by
  rw [nameOf, h]

theorem qualified_of_asText {q n : Name} {t s : String} (hq : q.asText? = some t)
    (hn : n.asText? = some s) : qualified q n = .ok (Fragment.columnOf t s) := by
  unfold qualified Fragment.columnOf nameIn
  rw [isTrue_of_asText hq, nameOf_of_asText hq, nameOf_of_asText hn]
  cases t.isEmpty <;> rfl

/-- The column of a reference that is written is a text. -/
theorem asText_of_qualified {q n : Name} {f : Fragment} (h : qualified q n = .ok f) :
    ∃ s, n.asText? = some s := by
  unfold qualified nameIn at h
  split at h
  · obtain ⟨_, _, h⟩ := bind_eq_ok.mp h
    obtain ⟨_, hn, _⟩ := bind_eq_ok.mp h
    obtain ⟨s, hs, -⟩ := nameOf_eq_ok hn
    exact ⟨s, hs⟩
  · obtain ⟨s, hs, -⟩ := nameOf_eq_ok h
    exact ⟨s, hs⟩

/-! ## Identifiers -/

/-- Different names are written differently. -/
theorem identifier_inj {style : Style} {a b : String}
    (h : style.identifier a = style.identifier b) : a = b := by
  have ends : Parts style.dialect [] := nofun
  have read := readName_identifier ends a
  rw [h, readName_identifier ends b] at read
  cases read
  rfl

theorem spell_ofName (style : Style) (n : String) :
    (Fragment.ofName n).spell style = style.identifier n := by
  simp [Fragment.spell, Fragment.ofName, Fragment.write]

theorem spell_column (style : Style) (t s : String) :
    (Fragment.ofName t ++ "." ++ Fragment.ofName s).spell style =
      style.identifier t ++ "." ++ style.identifier s := by
  simp [Fragment.spell, Fragment.ofName, Fragment.ofText, Fragment.write, String.append_assoc]

/-- Columns of two tables have the same text if and only if the tables have the same name. -/
theorem spell_columnOf_eq_iff {style : Style} {t u : String} (ht : t.isEmpty = false) (s : String) :
    (Fragment.columnOf t s).spell style = (Fragment.columnOf u s).spell style ↔ u = t := by
  refine ⟨fun h => ?_, fun h => by rw [h]⟩
  unfold Fragment.columnOf at h
  rw [ht] at h
  simp only [Bool.false_eq_true, if_false] at h
  cases hu : u.isEmpty with
  | true =>
    -- a column alone is shorter than one behind a point
    rw [hu, if_pos rfl, spell_column, spell_ofName] at h
    have lengths := congrArg String.length h
    simp only [String.length_append] at lengths
    have point : (".").length = 1 := rfl
    omega
  | false =>
    rw [hu] at h
    simp only [Bool.false_eq_true, if_false, spell_column] at h
    have tables := congrArg String.toList h
    simp only [String.toList_append, List.append_cancel_right_eq] at tables
    exact (identifier_inj (String.toList_inj.mp tables)).symm

/-! ## References in a merge -/

theorem redirects_mergeScope (target : Name) : Redirects (mergeScope target) where
  keeps e h := by
    cases e with
    | column _ _ | excluded _ => cases h
    | _ => rfl
  refers e h := by
    unfold mergeScope
    split
    · rfl
    · rfl
    · exact h

/-- An expression as a merge writes it. -/
abbrev Expr.inMerge (e : Expr) (target : Name) : Expr := e.mapped (mergeScope target)

theorem yields_inMerge (target : Name) (e : Expr) :
    Yields (· = e.inMerge target) (Expr.mapNodes (mergeScope target) e) :=
  yields_mapNodes_mapped (fun e he => (redirects_mergeScope target).keeps e (by
    cases e with
    | tuple _ | foreign _ => rfl
    | _ => cases he)) e

/-- How the references of an expression stand in what a merge writes for it: node by node, incoming
values as columns of the incoming rows, columns without a qualifier as columns of the target, and
columns with an empty qualifier alone. -/
structure RefersApart (target : Name) (t : String) (e : Expr) (f : Fragment) : Prop where
  nodes : (Tree.expr (e.inMerge target)).ownNodes .mssql =
    ((Tree.expr e).ownNodes .mssql).map fun n => n.inMerge target
  incoming : ∀ name, .excluded name ∈ (Tree.expr e).ownNodes .mssql →
    ∃ s, name.asText? = some s ∧
      ((Expr.excluded name).inMerge target).render .mssql = .ok (.columnOf "dual" s) ∧
      (Fragment.columnOf "dual" s).PartOf f
  stored : ∀ name, .column .absent name ∈ (Tree.expr e).ownNodes .mssql →
    ∃ s, name.asText? = some s ∧
      ((Expr.column .absent name).inMerge target).render .mssql = .ok (.columnOf t s) ∧
      (Fragment.columnOf t s).PartOf f
  alone : ∀ q name, .column (.foreign q) name ∈ (Tree.expr e).ownNodes .mssql → q ≠ .null →
    q.isTrue = false → ∃ s, name.asText? = some s ∧
      ((Expr.column (.foreign q) name).inMerge target).render .mssql = .ok (.ofName s) ∧
      (Fragment.ofName s).PartOf f

section

variable {target : Name} {t : String} {e : Expr} {f : Fragment} {x : Rendered Fragment}

/-- A reference of a scope whose nodes are shown stands in what is written. -/
theorem column_shown (hx : Shows sole [] ((Tree.expr e).outcomes .mssql) x) (hf : x = .ok f)
    {q n : Name} (hn : Expr.column q n ∈ (Tree.expr e).ownNodes .mssql) :
    ∃ g, qualified q n = .ok g ∧ g.PartOf f := by
  have outcome : qualified q n ∈ (Tree.expr e).outcomes .mssql :=
    List.mem_map_of_mem (f := Tree.render .mssql)
      (List.mem_filter.mpr ⟨Tree.mem_writtenNodes_of_mem_ownNodes hn, rfl⟩)
  obtain ⟨g, hg, hin⟩ := hx.outcomes f hf _ outcome
  exact ⟨g, hg, within_sole.mp hin⟩

/-- What shows the nodes of a rewritten expression tells its references apart. -/
theorem refersApart_of_shows (ht : target.asText? = some t)
    (hx : Shows sole [] ((Tree.expr (e.inMerge target)).outcomes .mssql) x) (hf : x = .ok f) :
    RefersApart target t e f := by
  have hg := redirects_mergeScope target
  have nodes := ownNodes_mapped hg .mssql (.expr e)
  -- the columns that take the places of references
  have shown {n q name : Expr} (hn : n ∈ (Tree.expr e).ownNodes .mssql)
      (h : n.inMerge target = .column q (name.inMerge target)) {g : String → Fragment}
      (hw : ∀ s, (name.inMerge target).asText? = some s →
        qualified q (name.inMerge target) = .ok (g s)) :
      ∃ s, name.asText? = some s ∧ (n.inMerge target).render .mssql = .ok (g s) ∧
        (g s).PartOf f := by
    have hmem : Expr.column q (name.inMerge target) ∈
        (Tree.expr (e.inMerge target)).ownNodes .mssql := by
      rw [← h]
      exact nodes.symm ▸ List.mem_map_of_mem hn
    obtain ⟨w, hq, hpart⟩ := column_shown hx hf hmem
    obtain ⟨s, hs⟩ := asText_of_qualified hq
    obtain rfl := Except.ok.inj (hq.symm.trans (hw s hs))
    refine ⟨s, (Expr.names_mapped hg name).asText.symm.trans hs, ?_, hpart⟩
    rw [h]
    exact hq
  refine ⟨nodes, fun name hn => ?_, fun name hn => ?_, fun q name hn hnull hfalse => ?_⟩
  · exact shown hn rfl fun s hs => qualified_of_asText rfl hs
  · exact shown hn rfl fun s hs => qualified_of_asText ht hs
  · have kept : (Expr.column (.foreign q) name).inMerge target =
        .column (.foreign q) (name.inMerge target) := by
      show mergeScope target (.column (.foreign q) (name.inMerge target)) = _
      unfold mergeScope
      split
      next h => cases h
      next h =>
        cases h
        exact absurd rfl hnull
      · rfl
    refine shown hn kept fun s hs => ?_
    have hfalse : (Expr.foreign q).isTrue = false := hfalse
    rw [qualified, hfalse]
    exact nameOf_of_asText hs

end

/-! ## What a merge writes -/

/-- What a merge writes for a condition. -/
def WritesCondition (target : Name) (t : String) (e : Expr) (f : Fragment) : Prop :=
  ∃ w, conditionOf .mssql (e.inMerge target) ((e.inMerge target).render .mssql) = .ok w ∧
    (" AND " ++ w).PartOf f ∧ RefersApart target t e w

/-- What a merge writes for an assignment. -/
def WritesAssignment (target : Name) (t : String) (a : Assignment) (f : Fragment) : Prop :=
  ∃ column w, nameOf a.column = .ok column ∧ (a.value.inMerge target).render .mssql = .ok w ∧
    (column ++ " = " ++ w).PartOf f ∧ RefersApart target t a.value w

section

variable {target : Name} {t : String}

theorem condition_written (ht : target.asText? = some t) {e : Expr} {w : Fragment}
    (h : conditionOf .mssql (e.inMerge target) ((e.inMerge target).render .mssql) = .ok w) :
    RefersApart target t e w := by
  have hx : Shows sole [] ((Tree.expr (e.inMerge target)).outcomes .mssql)
      (conditionOf .mssql (e.inMerge target) ((e.inMerge target).render .mssql)) :=
    (shows_conditionOf .mssql _).trans fun v hv =>
      ⟨_, List.mem_singleton_self _,
        (shows_predicate (walked .mssql _)).mono (List.forall_mem_singleton.mpr hv)⟩
  exact refersApart_of_shows ht hx h

theorem assignment_written (ht : target.asText? = some t) {a : Assignment} {f : Fragment}
    (h : (do
      let value ← rebuilt (Expr.mapNodes (mergeScope target) a.value)
      Assignment.render .mssql ⟨a.column, value⟩) = .ok f) :
    WritesAssignment target t a f := by
  obtain ⟨value, hvalue, h⟩ := bind_eq_ok.mp h
  obtain rfl := yields_rebuilt (yields_inMerge target a.value) value hvalue
  obtain ⟨column, hcolumn, h⟩ := bind_eq_ok.mp h
  obtain ⟨w, hw, h⟩ := bind_eq_ok.mp h
  cases h
  exact ⟨column, w, hcolumn, hw, .self, refersApart_of_shows ht (walked .mssql _) hw⟩

theorem WritesAssignment.trans {a : Assignment} {f g : Fragment}
    (h : WritesAssignment target t a f) (hfg : f.PartOf g) : WritesAssignment target t a g := by
  obtain ⟨column, w, hcolumn, hw, hpart, hrefers⟩ := h
  exact ⟨column, w, hcolumn, hw, hpart.trans hfg, hrefers⟩

theorem exists_mem_of_forall₂ {α β : Type} {R : α → β → Prop} {as : List α} {bs : List β}
    (h : List.Forall₂ R as bs) {a : α} (ha : a ∈ as) : ∃ b ∈ bs, R a b := by
  induction h with
  | nil => cases ha
  | cons hab _ ih =>
    rcases List.mem_cons.mp ha with rfl | ha
    · exact ⟨_, List.mem_cons_self, hab⟩
    · obtain ⟨b, hb, hr⟩ := ih ha
      exact ⟨b, List.mem_cons_of_mem _ hb, hr⟩

theorem list_written (ht : target.asText? = some t) {assignments : List Assignment}
    {list : Fragment} (h : mappedList .mssql (mergeScope target) assignments = .ok list) :
    ∀ a ∈ assignments, WritesAssignment target t a list := by
  unfold mappedList at h
  cases hall : allOk (assignments.map fun a => do
    let value ← rebuilt (Expr.mapNodes (mergeScope target) a.value)
    Assignment.render .mssql ⟨a.column, value⟩) with
  | error r => rw [hall] at h; cases h
  | ok fs =>
    rw [hall] at h
    cases h
    have each : List.Forall₂ (fun a f => WritesAssignment target t a f) assignments fs := by
      refine yields_allOk ?_ fs hall
      rw [List.forall₂_map_right_iff, List.forall₂_same]
      exact fun a _ f hf => assignment_written ht hf
    intro a ha
    obtain ⟨f, hf, hwrites⟩ := exists_mem_of_forall₂ each ha
    exact hwrites.trans (Fragment.partOf_join (Fragment.within_of_mem hf))

/-- The clause for the rows that are there writes the condition and the assignments. -/
theorem matched_written (ht : target.asText? = some t) {assignments : List Assignment}
    {filter : Option Expr} {fs : List Fragment}
    (h : matchedClause target (.update assignments filter) = .ok fs) :
    (∀ e ∈ filter, ∃ f ∈ fs, WritesCondition target t e f) ∧
      ∀ a ∈ assignments, ∃ f ∈ fs, WritesAssignment target t a f := by
  -- the assignments come last, whatever the condition is
  have rest (condition : List Fragment)
      (h : (mappedList .mssql (mergeScope target) assignments >>= fun list =>
        .ok ["WHEN MATCHED" ++ Fragment.join "" condition, "THEN UPDATE SET " ++ list]) =
          .ok fs) :
      "WHEN MATCHED" ++ Fragment.join "" condition ∈ fs ∧
        ∀ a ∈ assignments, ∃ f ∈ fs, WritesAssignment target t a f := by
    obtain ⟨list, hlist, h⟩ := bind_eq_ok.mp h
    cases h
    exact ⟨List.mem_cons_self, fun a ha => ⟨_, List.mem_cons_of_mem _ List.mem_cons_self,
      (list_written ht hlist a ha).trans (.right _ .self)⟩⟩
  unfold matchedClause at h
  cases filter with
  | none => exact ⟨fun e he => absurd he (Option.not_mem_none e), (rest [] h).2⟩
  | some e =>
    obtain ⟨e', he', h⟩ := bind_eq_ok.mp h
    obtain rfl := yields_rebuilt (yields_inMerge target e) e' he'
    obtain ⟨w, hw, h⟩ := bind_eq_ok.mp h
    obtain ⟨_, _, h⟩ := bind_eq_ok.mp h
    obtain ⟨hmem, hassignments⟩ := rest [" AND " ++ w] h
    refine ⟨fun e₀ he₀ => ?_, hassignments⟩
    obtain rfl := Option.mem_some_iff.mp he₀
    exact ⟨_, hmem, w, hw, .right _ .self, condition_written ht hw⟩

theorem WritesCondition.trans {e : Expr} {f g : Fragment} (h : WritesCondition target t e f)
    (hfg : f.PartOf g) : WritesCondition target t e g := by
  obtain ⟨w, hw, hpart, hrefers⟩ := h
  exact ⟨w, hw, hpart.trans hfg, hrefers⟩

end

/-- How a merge begins: with the target and the incoming rows, and their aliases. -/
def BeginsMerge (t : String) (f : Fragment) : Prop :=
  ∃ table rows rest : Fragment, f = "MERGE INTO " ++ table ++ " AS " ++ Fragment.ofName t ++ " " ++
    ("USING " ++ rows.parens ++ " AS " ++ Fragment.ofName "dual" ++ rest)

theorem beginsMerge_join (t : String) (table rows columns clause : Fragment)
    (clauses : List Fragment) :
    BeginsMerge t (Fragment.join " " (("MERGE INTO " ++ table ++ " AS " ++ Fragment.ofName t) ::
      ("USING " ++ rows.parens ++ " AS " ++ Fragment.ofName "dual" ++ " " ++ columns) :: clause ::
        clauses) ++ ";") := by
  refine ⟨table, rows, " " ++ columns ++ " " ++ Fragment.join " " (clause :: clauses) ++ ";", ?_⟩
  rw [Fragment.join, Fragment.join]
  · simp only [Fragment.append_assoc]
  · simp
  · simp

/-- **A merge tells incoming rows and stored rows apart, but for a target with the alias of the
incoming rows.** Every upsert that SQL Server writes begins with the target under its alias and the
rows under theirs. The condition and the assigned values are written node by node, with incoming
values as columns of the rows and columns without a qualifier as columns of the target; a column
whose qualifier is empty has none. The two aliases are the same identifier, and the incoming and the
stored value of a column have the same text, if and only if the target is called like the rows. -/
theorem Insert.merge_tells_apart (i : Insert) {target : List Name} {assignments : List Assignment}
    {filter : Option Expr} (hc : i.conflict = some (.conflict ⟨target, .update assignments filter⟩))
    {f : Fragment} (h : i.render .mssql = .ok f) :
    ∃ (q : Name) (t : String), i.target.qualifier = .ok q ∧ q.asText? = some t ∧
      BeginsMerge t f ∧
      (∀ e ∈ filter, WritesCondition q t e f) ∧
      (∀ a ∈ assignments, WritesAssignment q t a f) ∧
      ∀ quoteAll, let style : Style := ⟨.mssql, quoteAll⟩
        (style.identifier t = style.identifier "dual" ↔ t = "dual") ∧
        ∀ s, (Fragment.columnOf "dual" s).spell style = (Fragment.columnOf t s).spell style ↔
          t = "dual" := by
  have hmerge : i.merge ⟨target, .update assignments filter⟩ = .ok f := by
    rw [← Insert.render_of_conflict hc, h]
  obtain ⟨_, _, hmerge⟩ := bind_eq_ok.mp hmerge
  obtain ⟨q, hq, hmerge⟩ := bind_eq_ok.mp hmerge
  obtain ⟨targetName, htarget, hmerge⟩ := bind_eq_ok.mp hmerge
  obtain ⟨sourceName, hsource, hmerge⟩ := bind_eq_ok.mp hmerge
  obtain ⟨columns, _, hmerge⟩ := bind_eq_ok.mp hmerge
  obtain ⟨rows, _, hmerge⟩ := bind_eq_ok.mp hmerge
  obtain ⟨pairs, _, hmerge⟩ := bind_eq_ok.mp hmerge
  obtain ⟨table, _, hmerge⟩ := bind_eq_ok.mp hmerge
  obtain ⟨matched, hmatched, hmerge⟩ := bind_eq_ok.mp hmerge
  obtain ⟨incoming, _, hmerge⟩ := bind_eq_ok.mp hmerge
  obtain ⟨output, _, hmerge⟩ := bind_eq_ok.mp hmerge
  obtain rfl := Except.ok.inj hmerge
  obtain ⟨t, ht, rfl⟩ := nameOf_eq_ok htarget
  obtain rfl := Except.ok.inj hsource
  obtain ⟨hfilter, hassignments⟩ := matched_written ht hmatched
  refine ⟨q, t, hq, ht, beginsMerge_join t table rows _ _ _, fun e he => ?_, fun a ha => ?_,
    fun quoteAll => ?_⟩
  · obtain ⟨g, hg, hwrites⟩ := hfilter e he
    exact hwrites.trans (.left _ (Fragment.partOf_join (Fragment.within_of_mem (by simp [hg]))))
  · obtain ⟨g, hg, hwrites⟩ := hassignments a ha
    exact hwrites.trans (.left _ (Fragment.partOf_join (Fragment.within_of_mem (by simp [hg]))))
  · exact ⟨⟨identifier_inj, fun h => by rw [h]⟩, fun s => spell_columnOf_eq_iff (by decide) s⟩

/-- An upsert into a table with the alias of the incoming rows, which adds the incoming value of a
column to the stored one. -/
def addIntoDual : Insert where
  target := .table ⟨.word "dual", .absent, .absent, []⟩
  columns := [.word "id", .word "n"]
  source := .rows [[.literal .null, .literal .null]]
  conflict := some (.conflict ⟨[.word "id"], .update [⟨.word "n", .binary .add
    (.column .absent (.word "n")) (.excluded (.word "n"))⟩] none⟩)
  returning := []

/-- What is written for it. -/
def addIntoDualText : String :=
  "MERGE INTO dual AS dual USING (VALUES (@p1, @p2)) AS dual (id, n) ON dual.id = dual.id " ++
    "WHEN MATCHED THEN UPDATE SET n = dual.n + dual.n " ++
    "WHEN NOT MATCHED THEN INSERT (id, n) VALUES (dual.id, dual.n);"

/-- The stored value and the incoming one have the same text, so the column is added to itself. -/
theorem addIntoDual_collides :
    ∃ f, addIntoDual.render .mssql = .ok f ∧ f.spell (.plain .mssql) = addIntoDualText ∧
      ∃ t, BeginsMerge t f ∧ (Fragment.columnOf "dual" "n").spell (.plain .mssql) =
        (Fragment.columnOf t "n").spell (.plain .mssql) := by
  have text : (addIntoDual.render .mssql).toOption.map (Fragment.spell (.plain .mssql)) =
      some addIntoDualText := by decide +kernel
  cases hf : addIntoDual.render .mssql with
  | error r => rw [hf] at text; cases text
  | ok f =>
    rw [hf] at text
    obtain ⟨q, t, hq, ht, hbegins, -, -, hsame⟩ :=
      Insert.merge_tells_apart addIntoDual rfl hf
    obtain rfl := Except.ok.inj hq
    obtain rfl := Option.some.inj ht
    exact ⟨f, rfl, Option.some.inj text, "dual", hbegins, ((hsame false).2 "n").mpr rfl⟩

end SqlScribe
