import SqlScribe.Proofs.PairedWalk
import SqlScribe.Proofs.Starred

/-!
# Orders by a primary key

Where a page has no order, SQL Server orders it by the primary key of the table. Such an order has
to be one that the select can have: distinct rows can only be ordered by columns that they show, and
groups only by columns that they are grouped by (`Select.KeyOrderIsLegal`).

The first of these is looked at, the second is not. `Select.FindsKey` says when an order is made:
the source is a table with a key and, if the rows are distinct, they show the whole key. Then the
page stands behind the select, and otherwise the select is refused (`Select.render_page`). So the
order of a page is legal exactly if the rows are not grouped, or grouped by the whole key; where
they are grouped by other columns, SQL Server is handed an order that it refuses.
-/

namespace SqlScribe

/-! ## Legal orders -/

namespace Table

/-- Whether an item of a projection shows a column of a table: a star shows all of them, and a
column is shown if it keeps its name. -/
inductive ShownBy (t : Table) (column : Name) : SelectItem → Prop where
  | star {table aliasName : Name} (htable : isOpenOr t.qualifier table = true) :
      ShownBy t column ⟨.star table, aliasName⟩
  | column {table name aliasName : Name} (hname : name.same column = true)
      (htable : isOpenOr t.qualifier table = true) (halias : isOpenOr column aliasName = true) :
      ShownBy t column ⟨.column table name, aliasName⟩

/-- Whether an expression that rows are grouped by is a column of a table: not qualified, or by the
name that the table goes by. -/
inductive GroupedBy (t : Table) (column : Name) : Expr → Prop where
  | column {table name : Name} (hname : name.same column = true)
      (htable : isOpenOr t.qualifier table = true) : GroupedBy t column (.column table name)

theorem shownBy_iff {t : Table} {column : Name} {i : SelectItem} :
    t.ShownBy column i ↔ i.shows t.qualifier column = true := by
  constructor
  · rintro (htable | ⟨hname, htable, halias⟩)
    · exact htable
    · exact (Bool.and_eq_true _ _).mpr ⟨(Bool.and_eq_true _ _).mpr ⟨hname, htable⟩, halias⟩
  · obtain ⟨e, aliasName⟩ := i
    intro h
    cases e with
    | star table => exact .star h
    | column table name =>
      obtain ⟨h, halias⟩ := (Bool.and_eq_true _ _).mp h
      obtain ⟨hname, htable⟩ := (Bool.and_eq_true _ _).mp h
      exact .column hname htable halias
    | _ => cases h

end Table

namespace Select

/-- Whether the whole key of a table is among the projected columns. -/
def ShowsKey (q : Select) (t : Table) : Prop := ∀ k ∈ t.primaryKey, ∃ i ∈ q.items, t.ShownBy k i

/-- Whether the rows are grouped by the whole key of a table. -/
def GroupsByKey (q : Select) (t : Table) : Prop :=
  ∀ k ∈ t.primaryKey, ∃ e ∈ q.groupBy, t.GroupedBy k e

/-- Whether a select can have an order by the key of a table. -/
structure KeyOrderIsLegal (q : Select) (t : Table) : Prop where
  /-- Distinct rows are ordered by columns that they show. -/
  distinct : q.distinct.isTrue = true → q.ShowsKey t
  /-- Groups are ordered by columns that they are grouped by. -/
  grouped : q.groupBy ≠ [] → q.GroupsByKey t

/-- Whether an order by key is made for a select. -/
def FindsKey (q : Select) : Prop :=
  ∃ t, q.source = some (.table t) ∧ t.primaryKey ≠ [] ∧
    (q.distinct.isTrue = true → q.ShowsKey t)

/-- A select that takes all of its rows. -/
def unpaged (q : Select) : Select := { q with limit := none, offset := none }

end Select

/-! ## When an order is made -/

theorem hiddenKeys_eq_nil_iff {q : Select} {t : Table} :
    hiddenKeys t q.items = [] ↔ q.ShowsKey t := by
  unfold hiddenKeys Select.ShowsKey
  rw [List.filter_eq_nil_iff]
  refine forall_congr' fun k => imp_congr_right fun _ => ?_
  simp only [Bool.not_eq_true', Bool.not_eq_false, List.any_eq_true, Table.shownBy_iff]

/-- An order that is made is made from a key that the rows show, if they are distinct. -/
theorem Select.findsKey_of_orderByKey {q : Select} {f : Fragment}
    (h : orderByKey q.source q.items q.distinct.isTrue = .ok f) : q.FindsKey := by
  obtain ⟨t, -, hsource, hne, -, -⟩ := orderByKey_eq_ok h
  refine ⟨t, hsource, hne, fun hdistinct => ?_⟩
  rw [hsource, hdistinct, orderByKey, if_neg (by simpa using hne)] at h
  by_contra hhidden
  rw [← hiddenKeys_eq_nil_iff] at hhidden
  rw [if_pos (by simpa using hhidden)] at h
  split at h <;> cases h

/-- From such a key an order is made. -/
theorem Select.orderByKey_of_findsKey {q : Select} (htyped : ∀ o ∈ q.source, o.IsTyped)
    (h : q.FindsKey) : ∃ f, orderByKey q.source q.items q.distinct.isTrue = .ok f := by
  obtain ⟨t, hsource, hne, hshown⟩ := h
  have typed : t.IsTyped := htyped _ hsource
  obtain ⟨keys, hkeys⟩ :=
    Pairing.allOk_isText fun k hk => Pairing.nameIn_isText typed.qualifier (typed.primaryKey k hk)
  have none_hidden : ¬(q.distinct.isTrue && !(hiddenKeys t q.items).isEmpty) = true := by
    intro hhidden
    obtain ⟨hdistinct, hhidden⟩ := (Bool.and_eq_true _ _).mp hhidden
    rw [hiddenKeys_eq_nil_iff.mpr (hshown hdistinct)] at hhidden
    cases hhidden
  rw [hsource, orderByKey, if_neg (by simpa using hne), if_neg none_hidden, hkeys]
  exact ⟨_, rfl⟩

/-- A page that is written without an order of its own has the order by a key. -/
theorem Select.findsKey_of_render {q : Select} (hpaged : q.IsPaged) (hnone : q.orderBy = [])
    {f : Fragment} (h : q.render .mssql = .ok f) : q.FindsKey := by
  rw [render_eq_headClauses] at h
  obtain ⟨⟨clauses, order⟩, hhead, h⟩ := bind_eq_ok.mp h
  obtain rfl := order_of_headClauses hnone hhead
  obtain ⟨rows, hrows, -⟩ := bind_eq_ok.mp h
  have unordered := (rowClauses_unordered q.source q.items hpaged.isSome).symm.trans hrows
  obtain ⟨order, horder, -⟩ := bind_eq_ok.mp unordered
  exact findsKey_of_orderByKey horder

/-! ## The page behind a select -/

/-- What is written for a page without an order: the select that takes all rows, the order by its
key, and the part of the rows. -/
theorem Select.render_page {q : Select} (hpaged : q.IsPaged) (hnone : q.orderBy = [])
    {front : Fragment} (hfront : q.unpaged.render .mssql = .ok front) :
    q.render .mssql = orderByKey q.source q.items q.distinct.isTrue >>= fun order =>
      .ok (front ++ " " ++ Fragment.join " " (order :: pageClauses q.limit q.offset)) := by
  have head : q.unpaged.headClauses .mssql = q.headClauses .mssql := rfl
  rw [render_eq_headClauses, head] at hfront
  obtain ⟨⟨clauses, order⟩, hhead, hfront⟩ := bind_eq_ok.mp hfront
  obtain rfl := order_of_headClauses hnone hhead
  -- all rows are taken, so nothing stands behind the clauses of the select
  have all : rowClauses .mssql q.source q.items q.distinct.isTrue [] none none = .ok [] := rfl
  obtain ⟨rows, hrows, hfront⟩ := bind_eq_ok.mp hfront
  obtain rfl := Except.ok.inj (all.symm.trans hrows)
  obtain ⟨_, hconditions, hfront⟩ := bind_eq_ok.mp hfront
  obtain rfl := Except.ok.inj hfront
  rw [render_eq_headClauses, hhead, ok_bind]
  dsimp only
  rw [rowClauses_unordered _ _ hpaged.isSome]
  -- without the key the error comes first; with it, the conditions are those of the select
  cases orderByKey q.source q.items q.distinct.isTrue with
  | error e => rfl
  | ok f =>
    change requireTexts (q.filter.toList ++ q.having.toList) = .ok () at hconditions
    rw [ok_bind, ok_bind, hconditions, ok_bind, List.append_nil,
      Fragment.join_append (headClauses_eq_ok hhead).1 (List.cons_ne_nil _ _)]
    rfl

/-- **A page without an order is ordered by the key or refused.** Whether the rows are grouped is
not asked for. -/
theorem Select.render_unordered {q : Select} (hpaged : q.IsPaged) (hnone : q.orderBy = [])
    (htyped : ∀ o ∈ q.source, o.IsTyped) {front : Fragment}
    (hfront : q.unpaged.render .mssql = .ok front) :
    (q.FindsKey → ∃ t keys f, q.source = some (.table t) ∧
      List.Forall₂ t.KeyText t.primaryKey keys ∧ q.render .mssql = .ok f ∧
      ∀ style n, f.spellFrom style n = front.spellFrom style n ++ " " ++ "ORDER BY " ++
        (Fragment.join ", " keys).spellFrom style (n + front.size) ++ " " ++
          pageText q.limit q.offset) ∧
    (¬q.FindsKey → ∃ missing, q.render .mssql = .error (.unordered .mssql missing)) := by
  have written := render_page hpaged hnone hfront
  constructor
  · intro hkey
    obtain ⟨order, horder⟩ := orderByKey_of_findsKey htyped hkey
    obtain ⟨t, keys, hsource, -, hkeys, rfl⟩ := orderByKey_eq_ok horder
    rw [horder, ok_bind] at written
    refine ⟨t, keys, _, hsource, hkeys, written, fun style n => ?_⟩
    rw [Fragment.spellFrom_append, Fragment.spellFrom_append, Fragment.spellFrom_ofText,
      spellFrom_pageClauses q.limit q.offset
        (by rw [Fragment.spellFrom_append, Fragment.spellFrom_ofText])]
    simp only [Fragment.size_append, Fragment.size_ofText, Nat.add_zero, String.append_assoc]
  · intro hkey
    cases horder : orderByKey q.source q.items q.distinct.isTrue with
    | ok f => exact absurd (findsKey_of_orderByKey horder) hkey
    | error e =>
      obtain ⟨missing, rfl⟩ := Pairing.orderByKey_typed htyped horder
      exact ⟨missing, by rw [written, horder]; rfl⟩

/-! ## Statements -/

/-- **When the order of a page is legal.** Of a select with a limit or an offset and without an
order, at any nesting:

* in a statement that SQL Server takes, its page is ordered by the primary key of its table, and
  distinct rows show the whole key; so the order is legal if and only if the rows are not grouped or
  are grouped by the whole key, which nothing looks at;
* by itself it is the select that takes all rows, with the order by its key and the page behind it,
  if distinct rows show the key, and otherwise it is refused because there is no order. -/
theorem Statement.keyOrder_legal_iff (quoteAll : Bool) (s : Statement)
    (hbuilt : s.Every Tree.IsBuilt) {q : Select} (hq : q ∈ s.selects) (hpaged : q.IsPaged)
    (hnone : q.orderBy = []) (htyped : ∀ o ∈ q.source, o.IsTyped) :
    (∀ sql values, s.toText ⟨.mssql, quoteAll⟩ = .ok (sql, values) →
      ∃ t, q.source = some (.table t) ∧ t.primaryKey ≠ [] ∧ q.HasPageIn ⟨.mssql, quoteAll⟩ sql ∧
        (q.distinct.isTrue = true → q.ShowsKey t) ∧
        (q.KeyOrderIsLegal t ↔ (q.groupBy ≠ [] → q.GroupsByKey t))) ∧
    ∀ front, q.unpaged.render .mssql = .ok front →
      (q.FindsKey → ∃ t keys f, q.source = some (.table t) ∧
        List.Forall₂ t.KeyText t.primaryKey keys ∧ q.render .mssql = .ok f ∧
        ∀ style n, f.spellFrom style n = front.spellFrom style n ++ " " ++ "ORDER BY " ++
          (Fragment.join ", " keys).spellFrom style (n + front.size) ++ " " ++
            pageText q.limit q.offset) ∧
      (¬q.FindsKey → ∃ missing, q.render .mssql = .error (.unordered .mssql missing)) := by
  refine ⟨fun sql values htext => ?_, fun front => Select.render_unordered hpaged hnone htyped⟩
  have page := hasPageIn_of_mem hbuilt hq hpaged htext
  have hkey : q.FindsKey := by
    obtain ⟨f, _, _, _, hf, _⟩ := page
    exact Select.findsKey_of_render hpaged hnone hf
  obtain ⟨t, hsource, hne, hshown⟩ := hkey
  exact ⟨t, hsource, hne, page, hshown, fun legal => legal.grouped, fun hgrouped =>
    ⟨hshown, hgrouped⟩⟩

/-- The names of a table, grouped, of which five are asked for. -/
def groupedNames : Select :=
  ⟨[⟨plainColumn "name", .absent⟩],
    some (.table ⟨.word "users", .absent, .absent, [.word "id"]⟩), [], none,
    [plainColumn "name"], none, [], some 5, none, .switch false⟩

/-- **An order that the select cannot have.** The groups are by name and are ordered by a column
that they have no value of. -/
theorem groupedNames_illegal :
    (Statement.select groupedNames).toText ⟨.mssql, false⟩ =
      .ok ("SELECT name FROM users GROUP BY name " ++
        "ORDER BY users.id OFFSET 0 ROWS FETCH NEXT 5 ROWS ONLY", []) ∧
    ∃ t, groupedNames.source = some (.table t) ∧ ¬groupedNames.KeyOrderIsLegal t := by
  have text : (Statement.select groupedNames).toText ⟨.mssql, false⟩ =
      .ok ("SELECT name FROM users GROUP BY name " ++
        "ORDER BY users.id OFFSET 0 ROWS FETCH NEXT 5 ROWS ONLY", []) :=
    eq_ok_of_toOption (by decide +kernel) rfl
  have built : (Statement.select groupedNames).Every Tree.IsBuilt := by
    have column : (Tree.expr (plainColumn "name")).Every Tree.IsBuilt :=
      Tree.every_iff.mpr ⟨trivial, nofun⟩
    exact List.forall_mem_singleton.mpr (Tree.every_iff.mpr
      ⟨trivial, List.forall_mem_cons.mpr ⟨column, List.forall_mem_singleton.mpr column⟩⟩)
  have member : groupedNames ∈ (Statement.select groupedNames).selects := by
    have root : Tree.select groupedNames ∈ (Tree.select groupedNames).nodes := by
      rw [Tree.nodes_eq]
      exact List.mem_cons_self
    exact List.mem_flatMap.mpr ⟨_, List.mem_singleton_self _, List.mem_filterMap.mpr
      ⟨_, root, rfl⟩⟩
  have typed : ∀ o ∈ groupedNames.source, o.IsTyped := by
    rintro _ ⟨⟩
    exact ⟨rfl, rfl, rfl, List.forall_mem_singleton.mpr rfl⟩
  obtain ⟨t, hsource, -, -, -, legal⟩ :=
    (Statement.keyOrder_legal_iff false (.select groupedNames) built member (.inl rfl) rfl
      typed).1 _ _ text
  refine ⟨text, t, hsource, fun hlegal => ?_⟩
  cases hsource
  -- the only grouping column is `name`
  obtain ⟨e, he, hgrouped⟩ := legal.mp hlegal (List.cons_ne_nil _ _) (.word "id") List.mem_cons_self
  obtain rfl := List.mem_singleton.mp he
  cases hgrouped with
  | column hname _ =>
    rw [Expr.same_texts rfl rfl] at hname
    exact absurd hname (by decide)

end SqlScribe
