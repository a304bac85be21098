import SqlScribe.Proofs.Collect
import SqlScribe.Proofs.PartsStatement

/-!
# Pages of SQL Server

Rows that are skipped without an order are not the same from one run to the next, and SQL Server has
no `OFFSET` without an `ORDER BY`. So the dialect writes no page without an order: that of the
select, or that of the primary key of its source, or no statement at all.

The argument is in two parts. A select that takes a page is written with an order in front of it
(`Select.render_paged`), wherever it stands. And every select of a statement is written in it
(`Tree.mem_scopes_of_mem_nodes`), as it would be written by itself (`shows_statement`).
-/

namespace SqlScribe

/-! ## Every select is written -/

namespace Tree

/-- What stands in a row stands in one of its items. -/
theorem exists_part_of_mem_nodes {e : Expr} {es : List Expr} (h : e.rowItems? = some es)
    {q : Select} (hq : Tree.select q ∈ (Tree.expr e).nodes) :
    ∃ p ∈ e.parts, Tree.select q ∈ (Tree.expr p).nodes := by
  cases e with
  | row first rest =>
    rw [nodes_eq, List.mem_cons] at hq
    rcases hq with hq | hq
    · cases hq
    · obtain ⟨b, hb, hq⟩ := List.mem_flatMap.mp hq
      obtain ⟨p, hp, rfl⟩ := List.mem_map.mp (show b ∈ (first :: rest).map Tree.expr from hb)
      exact ⟨p, hp, hq⟩
  | _ => cases h

/-- Items of rows of one width have partners in the other row. -/
theorem exists_pair_left {left right : List Expr} (h : right.length = left.length) {l : Expr}
    (hl : l ∈ left) : ∃ r, (l, r) ∈ left.zip right := by
  rw [← List.map_fst_zip (Nat.le_of_eq h.symm)] at hl
  obtain ⟨⟨_, r⟩, hp, rfl⟩ := List.mem_map.mp hl
  exact ⟨r, hp⟩

theorem exists_pair_right {left right : List Expr} (h : right.length = left.length) {r : Expr}
    (hr : r ∈ right) : ∃ l, (l, r) ∈ left.zip right := by
  rw [← List.map_snd_zip (Nat.le_of_eq h)] at hr
  obtain ⟨⟨l, _⟩, hp, rfl⟩ := List.mem_map.mp hr
  exact ⟨l, hp⟩

/-- Where rows are compared item by item, no item is left out, because the rows are of one width. -/
theorem exists_compared_of_branch {operand : Expr} {items : List Expr} {negated : Flag}
    (hbuilt : Expr.makeInList operand items negated = .ok (.inList operand items negated))
    (hrow : operand.isRow) {b : Tree} (hb : b ∈ (Expr.inList operand items negated).branches)
    {q : Select} (hq : Tree.select q ∈ b.nodes) :
    ∃ w ∈ items.flatMap fun row => (operand.parts.zip row.parts).flatMap fun p =>
      [Tree.expr p.1, .expr p.2], Tree.select q ∈ w.nodes := by
  have rowOf : ∀ row ∈ items, ∃ es, row.rowItems? = some es ∧
      row.parts.length = operand.parts.length := by
    intro row hmem
    obtain ⟨es, hes, hwidth⟩ := Expr.rowItems_of_makeInList hbuilt hrow hmem
    exact ⟨es, hes, Expr.parts_of_rowItems hes ▸ hwidth⟩
  have pair : ∀ {row l r : Expr}, row ∈ items → (l, r) ∈ operand.parts.zip row.parts →
      ∀ w ∈ [Tree.expr l, .expr r], w ∈ items.flatMap fun row =>
        (operand.parts.zip row.parts).flatMap fun p => [Tree.expr p.1, .expr p.2] :=
    fun hmem hp w hw => List.mem_flatMap.mpr ⟨_, hmem, List.mem_flatMap.mpr ⟨_, hp, hw⟩⟩
  rw [Expr.branches] at hb
  split at hb
  · cases hb
  next hne =>
    rcases List.mem_cons.mp hb with rfl | hb
    -- below the operand: it is compared with the first row there is
    · obtain ⟨left, hleft⟩ := Option.isSome_iff_exists.mp hrow
      obtain ⟨l, hl, hql⟩ := exists_part_of_mem_nodes hleft hq
      obtain ⟨row, hmem⟩ := List.isEmpty_eq_false_iff_exists_mem.mp (by simpa using hne)
      obtain ⟨_, -, hwidth⟩ := rowOf row hmem
      obtain ⟨r, hp⟩ := exists_pair_left hwidth hl
      exact ⟨_, pair hmem hp _ List.mem_cons_self, hql⟩
    -- below a row: its items are compared with those of the operand
    · obtain ⟨row, hmem, rfl⟩ := List.mem_map.mp hb
      obtain ⟨es, hes, hwidth⟩ := rowOf row hmem
      obtain ⟨r, hr, hqr⟩ := exists_part_of_mem_nodes hes hq
      obtain ⟨l, hp⟩ := exists_pair_right hwidth hr
      exact ⟨_, pair hmem hp _ (List.mem_cons_of_mem _ (List.mem_singleton_self _)), hqr⟩

/-- A select below a branch stands below what is written. -/
theorem exists_written_of_branch (d : Dialect) {t b : Tree} (hbuilt : t.IsBuilt)
    (hb : b ∈ t.branches) {q : Select} (hq : Tree.select q ∈ b.nodes) :
    ∃ w ∈ t.written d, Tree.select q ∈ w.nodes := by
  unfold written
  split
  next operand items negated =>
    split
    next h => exact exists_compared_of_branch hbuilt (Bool.and_eq_true_iff.mp h).2 hb hq
    · exact ⟨b, hb, hq⟩
  · exact ⟨b, hb, hq⟩

/-- Every select of a tree is written in it. -/
theorem mem_scopes_of_mem_nodes (d : Dialect) {t : Tree} (h : t.Every IsBuilt) {q : Select}
    (hq : Tree.select q ∈ t.nodes) : q ∈ t.scopes d := by
  rw [scopes_eq, List.mem_append]
  rw [nodes_eq, List.mem_cons] at hq
  rcases hq with rfl | hq
  · exact .inl (List.mem_singleton_self q)
  · obtain ⟨b, hb, hq⟩ := List.mem_flatMap.mp hq
    obtain ⟨w, hw, hq⟩ := exists_written_of_branch d (every_iff.mp h).1 hb hq
    have := sizeOf_lt_of_mem_written hw
    exact .inr (List.mem_flatMap.mpr
      ⟨w, hw, mem_scopes_of_mem_nodes d (every_of_mem_written h hw) hq⟩)
termination_by sizeOf t

end Tree

/-- The selects of a statement, at any nesting. -/
def Statement.selects (s : Statement) : List Select :=
  (s.clauses ++ s.extras).flatMap fun t => t.nodes.filterMap Tree.select?

theorem Statement.mem_scopesOf (d : Dialect) {s : Statement} (h : s.Every Tree.IsBuilt) {q : Select}
    (hq : q ∈ s.selects) : q.render d ∈ scopesOf d (s.trees d) := by
  obtain ⟨t, ht, hq⟩ := List.mem_flatMap.mp hq
  obtain ⟨n, hn, hq⟩ := List.mem_filterMap.mp hq
  cases n with
  | expr e => cases hq
  | select q' =>
    cases hq
    exact List.mem_map_of_mem (List.mem_flatMap.mpr ⟨t, (s.trees_perm d).mem_iff.mpr ht,
      Tree.mem_scopes_of_mem_nodes d (h t ht) hn⟩)

/-! ## Orders -/

/-- Whether a select takes a part of its rows. -/
def Select.IsPaged (q : Select) : Prop := q.limit.isSome ∨ q.offset.isSome

theorem Select.IsPaged.isSome {q : Select} (h : q.IsPaged) :
    (q.limit.isSome || q.offset.isSome) = true := by
  rcases h with h | h <;> simp [h]

/-- What is written for a column of a primary key: it is qualified by the alias of its table, or by
the name where there is no alias. -/
def Table.KeyText (t : Table) (column : Name) (f : Fragment) : Prop :=
  ∃ table name, t.qualifier.asText? = some table ∧ column.asText? = some name ∧
    f = Fragment.ofName table ++ "." ++ Fragment.ofName name

/-- Whether a page of a select is ordered by some keys. -/
inductive Select.OrderedBy (q : Select) (keys : List Fragment) : Prop
  /-- The order that the select gives. -/
  | given (hne : q.orderBy ≠ [])
      (hkeys : List.Forall₂ (fun e f => e.render .mssql = .ok f) q.orderBy keys)
  /-- The whole primary key of the source, as it is declared. -/
  | byKey (hnone : q.orderBy = []) {t : Table} (hsource : q.source = some (.table t))
      (hne : t.primaryKey ≠ []) (hkeys : List.Forall₂ t.KeyText t.primaryKey keys)

/-- The clauses that take a page of ordered rows: the number of rows to skip, which is zero where
none is given, and the number of rows to take. -/
def pageText (limit offset : Option Nat) : String :=
  let skipped := "OFFSET " ++ Text.natText (offset.getD 0) ++ " ROWS"
  match limit with
  | none => skipped
  | some n => skipped ++ " " ++ ("FETCH NEXT " ++ Text.natText n ++ " ROWS ONLY")

/-- Whether a text ends in a page of a select, with the order of the rows directly in front of the
`OFFSET`. -/
def Select.EndsInPage (q : Select) (style : Style) (text : String) : Prop :=
  ∃ front keys n, q.OrderedBy keys ∧
    text = front ++ "ORDER BY " ++ (Fragment.join ", " keys).spellFrom style n ++ " " ++
      pageText q.limit q.offset

theorem nameOf_eq_ok {n : Name} {f : Fragment} (h : nameOf n = .ok f) :
    ∃ s, n.asText? = some s ∧ f = Fragment.ofName s := by
  unfold nameOf at h
  split at h
  next s hs => exact ⟨s, hs, (Except.ok.inj h).symm⟩
  · cases h

theorem Table.keyText_of_nameIn {t : Table} {column : Name} {f : Fragment}
    (h : nameIn t.qualifier column = .ok f) : t.KeyText column f := by
  obtain ⟨a, ha, h⟩ := bind_eq_ok.mp h
  obtain ⟨b, hb, h⟩ := bind_eq_ok.mp h
  obtain ⟨table, htable, rfl⟩ := nameOf_eq_ok ha
  obtain ⟨name, hname, rfl⟩ := nameOf_eq_ok hb
  exact ⟨table, name, htable, hname, (Except.ok.inj h).symm⟩

/-- An order by the primary key lists the whole key of the source, which is a table. -/
theorem orderByKey_eq_ok {source : Option Source} {items : List SelectItem} {distinct : Bool}
    {f : Fragment} (h : orderByKey source items distinct = .ok f) :
    ∃ t keys, source = some (.table t) ∧ t.primaryKey ≠ [] ∧
      List.Forall₂ t.KeyText t.primaryKey keys ∧ f = "ORDER BY " ++ Fragment.join ", " keys := by
  unfold orderByKey at h
  split at h
  next t =>
    split at h
    · cases h
    next hne =>
      split at h
      · split at h <;> cases h
      · obtain ⟨keys, hkeys, h⟩ := bind_eq_ok.mp h
        have each : List.Forall₂ (fun c w => Yields (t.KeyText c) w) t.primaryKey
            (t.primaryKey.map (nameIn t.qualifier)) :=
          List.forall₂_map_right_iff.mpr
            (List.forall₂_same.mpr fun c _ f hf => Table.keyText_of_nameIn hf)
        exact ⟨t, keys, rfl, fun hnil => hne (hnil ▸ rfl), yields_allOk each keys hkeys,
          (Except.ok.inj h).symm⟩
  · cases h

@[simp] theorem Fragment.spellFrom_ofText (style : Style) (n : Nat) (s : String) :
    (ofText s).spellFrom style n = s := by
  simp [spellFrom, ofText, write]

@[simp] theorem Fragment.size_ofText (s : String) : (ofText s).size = 0 := rfl

/-- Whatever order is given, the clauses of a page stand directly behind it. -/
theorem spellFrom_pageClauses {order : Fragment} {keys : String} (limit offset : Option Nat)
    {style : Style} {n : Nat} (h : order.spellFrom style n = "ORDER BY " ++ keys) :
    (Fragment.join " " (order :: pageClauses limit offset)).spellFrom style n =
      "ORDER BY " ++ keys ++ " " ++ pageText limit offset := by
  cases limit <;>
    simp [pageClauses, Fragment.join, Fragment.spellFrom_append, numberClause, pageText, h,
      String.append_assoc]

/-- Where no order is given, the page begins with the order by the primary key. -/
theorem rowClauses_unordered (source : Option Source) (items : List SelectItem) {distinct : Bool}
    {limit offset : Option Nat} (hpage : (limit.isSome || offset.isSome) = true) :
    rowClauses .mssql source items distinct [] limit offset =
      orderByKey source items distinct >>= fun order =>
        .ok (order :: pageClauses limit offset) := by
  unfold rowClauses
  rw [if_pos (by simp [hpage])]
  cases orderByKey source items distinct <;> rfl

/-- The clauses for the rows of a page begin with an order. -/
theorem Select.rowClauses_paged {q : Select} (hpaged : q.IsPaged) {order rows : List Fragment}
    (horder : List.Forall₂ (fun e f => e.render .mssql = .ok f) q.orderBy order)
    (h : rowClauses .mssql q.source q.items q.distinct.isTrue order q.limit q.offset = .ok rows) :
    ∃ keys, q.OrderedBy keys ∧ rows ≠ [] ∧ ∀ style n, (Fragment.join " " rows).spellFrom style n =
      "ORDER BY " ++ (Fragment.join ", " keys).spellFrom style n ++ " " ++
        pageText q.limit q.offset := by
  cases ho : q.orderBy with
  | nil =>
    -- nothing is written for an order, so one is made from the key
    rw [ho] at horder
    cases horder
    rw [rowClauses_unordered _ _ hpaged.isSome] at h
    obtain ⟨f, hf, h⟩ := bind_eq_ok.mp h
    obtain ⟨t, keys, hsource, hne, hkeys, rfl⟩ := orderByKey_eq_ok hf
    obtain rfl := Except.ok.inj h
    refine ⟨keys, .byKey ho hsource hne hkeys, List.cons_ne_nil _ _, fun style n => ?_⟩
    exact spellFrom_pageClauses _ _ (by simp [Fragment.spellFrom_append])
  | cons e rest =>
    have given : q.OrderedBy order := .given (ho ▸ List.cons_ne_nil e rest) horder
    rw [ho] at horder
    cases horder
    rw [rowClauses, if_pos (by simp [hpaged.isSome])] at h
    obtain rfl := Except.ok.inj h
    refine ⟨_, given, List.cons_ne_nil _ _, fun style n => ?_⟩
    exact spellFrom_pageClauses _ _ (by simp [Fragment.spellFrom_append])

theorem Fragment.join_append {separator : String} {fs gs : List Fragment} (hfs : fs ≠ [])
    (hgs : gs ≠ []) :
    join separator (fs ++ gs) = join separator fs ++ separator ++ join separator gs := by
  induction fs with
  | nil => exact absurd rfl hfs
  | cons f rest ih =>
    cases rest with
    | nil =>
      cases gs with
      | nil => exact absurd rfl hgs
      | cons g gs => rfl
    | cons f' rest =>
      show f ++ separator ++ join separator (f' :: rest ++ gs) = _
      rw [ih (List.cons_ne_nil _ _)]
      simp only [join, append_assoc]

/-- What is joined last is written last. -/
theorem Fragment.spellFrom_join_append (style : Style) (n : Nat) {separator : String}
    {fs gs : List Fragment} (hfs : fs ≠ []) (hgs : gs ≠ []) :
    ∃ front m, (join separator (fs ++ gs)).spellFrom style n =
      front ++ separator ++ (join separator gs).spellFrom style m :=
  ⟨(join separator fs).spellFrom style n, _, by
    rw [join_append hfs hgs, spellFrom_append, spellFrom_append, spellFrom_ofText]⟩

/-! ## Selects -/

/-- The clauses of a select in front of those for its rows, and what is written for its order. -/
def Select.headClauses (d : Dialect) (q : Select) : Rendered (List Fragment × List Fragment) := do
  let projection ← allOk (renderItems d q.items)
  requireTexts (unnamed q.items)
  let origin ← renderOrigin d q.source
  let joined ← allOk (renderJoins d q.joins)
  let filtered ← renderFilter d "WHERE" q.filter
  let groups ← textsOf q.groupBy (renderEach d q.groupBy)
  let chosen ← renderFilter d "HAVING" q.having
  let order ← textsOf q.orderBy (renderEach d q.orderBy)
  return (projectionOf q.distinct.isTrue projection ++ origin ++ joined ++ filtered ++
    listClause "GROUP BY" groups ++ chosen, order)

/-- A select is written up to its order, and then the clauses for its rows are put behind. -/
theorem Select.render_eq_headClauses (d : Dialect) (q : Select) :
    q.render d = q.headClauses d >>= fun head =>
      rowClauses d q.source q.items q.distinct.isTrue head.2 q.limit q.offset >>= fun rows =>
      requireTexts (q.filter.toList ++ q.having.toList) >>= fun _ =>
      .ok (Fragment.join " " (head.1 ++ rows)) := by
  obtain ⟨items, source, joins, filter, groupBy, having, orderBy, limit, offset, distinct⟩ := q
  rw [render, headClauses]
  simp only [bind_assoc, pure_bind]
  rfl

/-- A select begins with its projection, and all that it is ordered by is written. -/
theorem Select.headClauses_eq_ok {d : Dialect} {q : Select} {head : List Fragment × List Fragment}
    (h : q.headClauses d = .ok head) :
    head.1 ≠ [] ∧ List.Forall₂ (fun e f => e.render d = .ok f) q.orderBy head.2 := by
  rw [headClauses] at h
  obtain ⟨projection, -, h⟩ := bind_eq_ok.mp h
  obtain ⟨-, -, h⟩ := bind_eq_ok.mp h
  obtain ⟨origin, -, h⟩ := bind_eq_ok.mp h
  obtain ⟨joined, -, h⟩ := bind_eq_ok.mp h
  obtain ⟨filtered, -, h⟩ := bind_eq_ok.mp h
  obtain ⟨groups, -, h⟩ := bind_eq_ok.mp h
  obtain ⟨chosen, -, h⟩ := bind_eq_ok.mp h
  obtain ⟨order, horder, h⟩ := bind_eq_ok.mp h
  obtain rfl := Except.ok.inj h
  refine ⟨by simp [projectionOf], yields_textsOf q.orderBy ?_ order horder⟩
  rw [renderEach_eq_map]
  exact List.forall₂_map_right_iff.mpr (List.forall₂_same.mpr fun e _ f hf => hf)

/-- Nothing is written for an order that is not given. -/
theorem Select.order_of_headClauses {d : Dialect} {q : Select} (hnone : q.orderBy = [])
    {clauses order : List Fragment} (h : q.headClauses d = .ok (clauses, order)) : order = [] := by
  have horder := (headClauses_eq_ok h).2
  rw [hnone] at horder
  exact List.forall₂_nil_left_iff.mp horder

/-- A select that takes a page ends in it, wherever it is written. -/
theorem Select.render_paged {q : Select} (hpaged : q.IsPaged) {f : Fragment}
    (h : q.render .mssql = .ok f) (style : Style) (n : Nat) :
    q.EndsInPage style (f.spellFrom style n) := by
  rw [render_eq_headClauses] at h
  obtain ⟨⟨clauses, order⟩, hhead, h⟩ := bind_eq_ok.mp h
  obtain ⟨rows, hrows, h⟩ := bind_eq_ok.mp h
  obtain ⟨-, -, h⟩ := bind_eq_ok.mp h
  obtain rfl := Except.ok.inj h
  obtain ⟨hclauses, horder⟩ := headClauses_eq_ok hhead
  obtain ⟨keys, hordered, hne, hspell⟩ := Select.rowClauses_paged hpaged horder hrows
  obtain ⟨front, m, hjoin⟩ := Fragment.spellFrom_join_append style n hclauses hne
  refine ⟨front ++ " ", keys, m, hordered, ?_⟩
  rw [hjoin, hspell]
  simp only [← String.append_assoc]

/-! ## Statements -/

/-- Whether a text holds a select as it is written by itself, with an ordered page at its end. -/
def Select.HasPageIn (q : Select) (style : Style) (sql : String) : Prop :=
  ∃ f n before after, q.render .mssql = .ok f ∧ sql = before ++ f.spellFrom style n ++ after ∧
    q.EndsInPage style (f.spellFrom style n)

theorem Statement.hasPageIn_of_mem {s : Statement} (hbuilt : s.Every Tree.IsBuilt) {q : Select}
    (hq : q ∈ s.selects) (hpaged : q.IsPaged) {quoteAll : Bool} {sql : String} {values : List Value}
    (h : s.toText ⟨.mssql, quoteAll⟩ = .ok (sql, values)) :
    q.HasPageIn ⟨.mssql, quoteAll⟩ sql := by
  obtain ⟨f, hf, rfl, -⟩ := Statement.toText_eq_ok h
  obtain ⟨g, hg, hin⟩ := (shows_statement s).outcomes f hf _ (Statement.mem_scopesOf _ hbuilt hq)
  obtain ⟨n, before, after, hwrite⟩ := (within_sole.mp hin).write_eq ⟨.mssql, quoteAll⟩
    (fun i _ => Dialect.mssql.placeholder (i + 1)) 0
  exact ⟨g, n, before, after, hg, hwrite, Select.render_paged hpaged hg _ n⟩

/-- **No page without an order.** In a statement that SQL Server takes, every select with a limit or
an offset, at any nesting, stands as it is written by itself, with an order directly in front of its
`OFFSET`: its own order, or, where it has none, the primary key of its table. If it has neither, the
statement is refused. -/
theorem Statement.endsInPage_of_isPaged (quoteAll : Bool) (s : Statement)
    (hbuilt : s.Every Tree.IsBuilt) {q : Select} (hq : q ∈ s.selects) (hpaged : q.IsPaged) :
    (∀ sql values, s.toText ⟨.mssql, quoteAll⟩ = .ok (sql, values) →
      q.HasPageIn ⟨.mssql, quoteAll⟩ sql) ∧
      (q.orderBy = [] → (∀ t, q.source = some (.table t) → t.primaryKey = []) →
        ∃ e, s.toText ⟨.mssql, quoteAll⟩ = .error e) := by
  refine ⟨fun _ _ => hasPageIn_of_mem hbuilt hq hpaged, fun hnone hkey => ?_⟩
  cases htext : s.toText ⟨.mssql, quoteAll⟩ with
  | error e => exact ⟨e, rfl⟩
  | ok p =>
    obtain ⟨-, -, -, -, -, -, -, keys, -, hordered, -⟩ := hasPageIn_of_mem hbuilt hq hpaged htext
    cases hordered with
    | given hne _ => exact absurd hnone hne
    | byKey _ hsource hne _ => exact absurd (hkey _ hsource) hne

/-- The first row of a table with a certain primary key. -/
def firstRow (key : List Name) : Select :=
  ⟨[⟨plainColumn "id", .absent⟩], some (.table ⟨.word "t", .absent, .absent, key⟩), [], none, [],
    none, [], some 1, none, .switch false⟩

/-- Deletes the first row of a table, which a nested select finds. -/
def deleteFirst (key : List Name) : Statement :=
  .delete ⟨.table ⟨.word "t", .absent, .absent, []⟩,
    some (.inQuery (plainColumn "id") (.select (firstRow key)) (.switch false)), []⟩

theorem deleteFirst_toText : (deleteFirst [.word "id", .word "n"]).toText ⟨.mssql, true⟩ =
    .ok ("DELETE FROM [t] WHERE [id] IN (SELECT [id] FROM [t] " ++
      "ORDER BY [t].[id], [t].[n] OFFSET 0 ROWS FETCH NEXT 1 ROWS ONLY)", []) :=
  eq_ok_of_toOption (by decide +kernel) rfl

theorem deleteFirst_isBuilt (key : List Name) : (deleteFirst key).Every Tree.IsBuilt := by
  have column : (Tree.expr (plainColumn "id")).Every Tree.IsBuilt :=
    Tree.every_iff.mpr ⟨trivial, nofun⟩
  have row : (Tree.select (firstRow key)).Every Tree.IsBuilt :=
    Tree.every_iff.mpr ⟨trivial, List.forall_mem_singleton.mpr column⟩
  exact List.forall_mem_singleton.mpr (Tree.every_iff.mpr
    ⟨trivial, List.forall_mem_cons.mpr ⟨column, List.forall_mem_singleton.mpr row⟩⟩)

theorem firstRow_mem (key : List Name) : firstRow key ∈ (deleteFirst key).selects := by
  have nested : Tree.select (firstRow key) ∈
      (Tree.expr (.inQuery (plainColumn "id") (.select (firstRow key)) (.switch false))).nodes := by
    rw [Tree.nodes_eq]
    refine List.mem_cons_of_mem _ (List.mem_flatMap.mpr ⟨.select (firstRow key), ?_, ?_⟩)
    · exact List.mem_cons_of_mem _ (List.mem_singleton_self _)
    · rw [Tree.nodes_eq]
      exact List.mem_cons_self
  exact List.mem_flatMap.mpr ⟨_, List.mem_singleton_self _, List.mem_filterMap.mpr ⟨_, nested, rfl⟩⟩

/-- With a primary key the nested select is ordered by it; without one nothing is deleted. -/
theorem deleteFirst_endsInPage :
    (firstRow [.word "id", .word "n"]).HasPageIn ⟨.mssql, true⟩
        ("DELETE FROM [t] WHERE [id] IN (SELECT [id] FROM [t] " ++
          "ORDER BY [t].[id], [t].[n] OFFSET 0 ROWS FETCH NEXT 1 ROWS ONLY)") ∧
      ∃ e, (deleteFirst []).toText ⟨.mssql, true⟩ = .error e := by
  have ordered := Statement.endsInPage_of_isPaged true (deleteFirst [.word "id", .word "n"])
    (deleteFirst_isBuilt _) (firstRow_mem _) (.inl rfl)
  have unordered := Statement.endsInPage_of_isPaged true (deleteFirst []) (deleteFirst_isBuilt _)
    (firstRow_mem _) (.inl rfl)
  exact ⟨ordered.1 _ _ deleteFirst_toText, unordered.2 rfl fun t ht => by cases ht; rfl⟩

end SqlScribe
