import SqlScribe.Proofs.PairedSpecial

/-!
# The walk over two runs

Every expression that fits the comparison is its own twin, and every query goes together with
itself. The walk follows the recursion of the writer: each node is laid out from its parts, and the
layouts are known to preserve twins. What is left are the clauses of a select. Only the part of the
rows that is asked for differs: SQL Server needs an order, and SQLite a limit before the number of
rows to skip.
-/

namespace SqlScribe.Pairing

variable {c : Pairing}

/-! ## Clauses of a select -/

/-- The words of a join. MySQL lacks the full one, which no portable statement asks for. -/
theorem meets_joinKeyword {kind : JoinKind} (h : c.IsPortable → kind ≠ .full) :
    c.Meets (joinKeyword c.left kind) (joinKeyword c.right kind) := by
  have some_ok : ∀ d, d ≠ .mysql ∨ kind ≠ .full →
      joinKeyword d kind = .ok (kind.capitals ++ " JOIN") := by
    intro d hd
    rw [joinKeyword, if_neg]
    · intro h
      obtain ⟨hm, hf⟩ := (Bool.and_eq_true _ _).mp h
      exact hd.elim (fun hd => hd (of_decide_eq_true hm)) fun hk => hk (of_decide_eq_true hf)
  cases c with
  | alone d =>
    refine paired_self same_refl fun e he => ?_
    unfold joinKeyword at he
    split at he
    · cases he
      trivial
    · cases he
  | shared =>
    rw [some_ok (left .shared) (.inl nofun), some_ok (right .shared) (.inl nofun)]
    exact paired_ok (same_refl _)
  | portable d =>
    have hk := h ⟨d, rfl⟩
    rw [some_ok _ (.inr hk), some_ok _ (.inr hk)]
    exact paired_ok (same_refl _)

/-- With names that are texts, only the order itself can be missing. -/
theorem orderByKey_typed {source : Option Source} {items : List SelectItem} {distinct : Bool}
    (h : ∀ o ∈ source, o.IsTyped) {e : RenderError}
    (he : orderByKey source items distinct = .error e) :
    ∃ missing, e = .unordered .mssql missing := by
  unfold orderByKey at he
  split at he
  next t =>
    have ht : t.IsTyped := h _ rfl
    split at he
    · exact ⟨_, (Except.error.inj he).symm⟩
    split at he
    · -- the hidden columns are columns of the key, so they are texts
      obtain ⟨names, hn⟩ := Expr.mapM_asText?_of_isText
        fun k hk => ht.primaryKey k (List.mem_of_mem_filter (show k ∈ hiddenKeys t items from hk))
      rw [hn] at he
      exact ⟨_, (Except.error.inj he).symm⟩
    · obtain ⟨fs, hfs⟩ := allOk_isText fun k hk => nameIn_isText ht.qualifier (ht.primaryKey k hk)
      rw [hfs] at he
      cases he
  · exact ⟨_, (Except.error.inj he).symm⟩

/-- With a limit, PostgreSQL and SQLite skip rows in the same words. -/
theorem limitClauses_eq {limit offset : Option Nat} (h : offset.isSome → limit.isSome) :
    limitClauses .postgres limit offset = limitClauses .sqlite limit offset := by
  -- SQLite needs a limit to skip rows and makes one up; that is not asked for here
  cases limit with
  | some n => rfl
  | none =>
    cases offset with
    | none => rfl
    | some n => exact absurd (h rfl) Bool.false_ne_true

/-- No dialect refuses to count rows that are ordered. -/
theorem rowClauses_of_order {d : Dialect} {source : Option Source} {items : List SelectItem}
    {distinct : Bool} {order : List Fragment} {limit offset : Option Nat}
    (h : limit.isSome ∨ offset.isSome → order ≠ []) :
    ∃ fs, rowClauses d source items distinct order limit offset = .ok fs := by
  unfold rowClauses
  dsimp only
  split
  next hpage =>
    have hne : order ≠ [] := h (by simpa using ((Bool.and_eq_true _ _).mp hpage).2)
    have hlist : (listClause "ORDER BY" order).isEmpty = false := by
      cases order with
      | nil => exact absurd rfl hne
      | cons f rest => rfl
    rw [hlist]
    exact ⟨_, rfl⟩
  · exact ⟨_, rfl⟩

/-- The clauses that count rows, under the three comparisons. -/
theorem meets_rowClauses {source : Option Source} {items : List SelectItem} {distinct : Bool}
    {order order' : List Fragment} {limit offset : Option Nat} (ho : c.Sames order order')
    (htyped : c.Typed → ∀ o ∈ source, o.IsTyped)
    (hshared : c.Exact → offset.isSome → limit.isSome)
    (hordered : c.IsPortable → limit.isSome ∨ offset.isSome → order ≠ []) :
    c.Meets (rowClauses c.left source items distinct order limit offset)
      (rowClauses c.right source items distinct order' limit offset) := by
  cases c with
  | alone d =>
    -- SQL Server looks whether there is an order, and this is the same in both runs
    have hempty : (listClause "ORDER BY" order').isEmpty =
        (listClause "ORDER BY" order).isEmpty := by
      cases order <;> cases order' <;> first | rfl | cases ho.1
    show (alone d).Meets (rowClauses d _ _ _ order _ _) (rowClauses d _ _ _ order' _ _)
    unfold rowClauses
    dsimp only
    rw [hempty]
    split
    · split
      · refine Paired.bind (R := fun _ _ => True) ?_ fun _ _ _ => meets_ok _ _
        refine paired_self (fun _ => trivial) fun e he => ?_
        obtain ⟨missing, rfl⟩ := orderByKey_typed (htyped trivial) he
        trivial
      · exact meets_ok _ _
    · exact meets_ok _ _
  | shared =>
    refine paired_ok fun hx => ?_
    rw [ho.2 hx]
    exact congrArg _ (limitClauses_eq (hshared hx))
  | portable d =>
    have hne := hordered ⟨d, rfl⟩
    -- the second list is as long as the first, so it is no more empty
    have hne' : limit.isSome ∨ offset.isSome → order' ≠ [] := fun hp hn => by
      have hlen := ho.1
      rw [hn] at hlen
      exact hne hp (List.length_eq_zero_iff.mp hlen.symm)
    have first : ∃ fs, rowClauses .postgres source items distinct order limit offset = .ok fs :=
      rowClauses_of_order hne
    have second : ∃ gs, rowClauses d source items distinct order' limit offset = .ok gs :=
      rowClauses_of_order hne'
    obtain ⟨fs, hfs⟩ := first
    obtain ⟨gs, hgs⟩ := second
    show Paired _ _ (rowClauses .postgres _ _ _ _ _ _) (rowClauses d _ _ _ _ _ _)
    rw [hfs, hgs]
    exact paired_ok fun hx => hx.elim

/-! ## Parts of a select -/

/-- Conditions behind the same word. -/
theorem meets_renderFilter {filter filter' : Option Expr} (h : Option.Rel c.Twin filter filter')
    (word : String) :
    c.Meets (renderFilter c.left word filter) (renderFilter c.right word filter') := by
  cases h with
  | none => exact paired_ok (same_refl _)
  | some he => exact he.predicate.bind fun _ _ hf =>
      paired_ok (hf.congr fun f => [word ++ " " ++ f])

/-- An optional condition as a list of at most one. -/
theorem sides_option {filter filter' : Option Expr} (h : Option.Rel c.Twin filter filter') :
    List.Forall₂ c.Side filter.toList filter'.toList := by
  cases h with
  | none => exact .nil
  | some he => exact .cons he.toSide .nil

/-- Items with twins under the same alias. -/
structure ItemTwin (c : Pairing) (i i' : SelectItem) : Prop where
  aliasName : i'.aliasName = i.aliasName
  twin : c.Twin i.expr i'.expr

/-- Items that are twins of themselves keep their aliases. -/
theorem itemTwins_self {items : List SelectItem} (h : ∀ i ∈ items, c.Twin i.expr i.expr) :
    List.Forall₂ c.ItemTwin items items :=
  List.forall₂_same.mpr fun i hi => ⟨rfl, h i hi⟩

/-- The items of a projection. -/
theorem meets_renderItems {items items' : List SelectItem}
    (h : List.Forall₂ c.ItemTwin items items')
    (ha : c.Typed → ∀ i ∈ items, i.aliasName.isName = true) :
    List.Forall₂ c.Meets (renderItems c.left items) (renderItems c.right items') := by
  induction h with
  | nil => exact .nil
  | @cons i i' _ _ hi _ ih =>
    refine .cons ?_ (ih fun ht => (List.forall_mem_cons.mp (ha ht)).2)
    obtain ⟨e, aliasName⟩ := i
    obtain ⟨e', aliasName'⟩ := i'
    obtain rfl : aliasName' = aliasName := hi.aliasName
    exact hi.twin.written.bind fun _ _ hf =>
      meets_aliased hf fun ht => (List.forall_mem_cons.mp (ha ht)).1

/-- The items without an alias are the same ones on both sides. -/
theorem sides_unnamed {items items' : List SelectItem} (h : List.Forall₂ c.ItemTwin items items') :
    List.Forall₂ c.Side (unnamed items) (unnamed items') := by
  induction h with
  | nil => exact .nil
  | @cons i i' is is' hi _ ih =>
    unfold unnamed at ih ⊢
    rw [List.filter_cons, List.filter_cons, hi.aliasName]
    split
    · exact .cons hi.twin.toSide ih
    · exact ih

/-- As many expressions are written as there are. -/
theorem yields_length {d : Dialect} (es : List Expr) :
    Yields (fun fs => fs.length = es.length) (textsOf es (renderEach d es)) := by
  have trivially : List.Forall₂ (fun _ w => Yields (fun _ => True) w) es (renderEach d es) := by
    rw [renderEach_eq_map, List.forall₂_map_right_iff]
    exact List.forall₂_same.mpr fun _ _ _ _ => trivial
  exact (yields_textsOf es trivially).mono fun _ h => h.length_eq.symm

/-- A table as a source is made of names. -/
theorem meets_table {t : Table} (h : c.Typed → t.IsTyped) :
    c.Meets ((Source.table t).render c.left) ((Source.table t).render c.right) := by
  have hname : c.Meets (tableName t.schema t.name) (tableName t.schema t.name) :=
    meets_self fun ht => tableName_isText (h ht).schema (h ht).name
  exact hname.bind fun _ _ hf => meets_aliased hf fun ht => (h ht).aliasName

/-- A query as a source, in parentheses and under its alias. -/
theorem meets_derived {q : Query} {aliasName : Name}
    (hq : c.Meets (q.render c.left) (q.render c.right))
    (ha : c.Typed → aliasName.isText = true) :
    c.Meets ((Source.derived q aliasName).render c.left)
      ((Source.derived q aliasName).render c.right) :=
  hq.bind fun _ _ hf => (meets_nameOf ha).bind fun _ _ hn =>
    paired_ok (hf.congr₂ hn fun f n => f.parens ++ " AS " ++ n)

/-- A join: its word, its source and its condition, in this order. -/
theorem meets_join {right : Source} {on : Option Expr} {kind : JoinKind}
    (hr : c.Meets (right.render c.left) (right.render c.right)) (hon : Option.Rel c.Twin on on)
    (hkind : c.IsPortable → kind ≠ .full) :
    c.Meets ((Join.join right on kind).render c.left) ((Join.join right on kind).render c.right) :=
  (meets_joinKeyword hkind).bind fun _ _ hw => hr.bind fun _ _ hf =>
    (meets_renderFilter hon "ON").bind fun _ _ hon => paired_ok <|
      (hw.congr₂ hf Prod.mk).congr₂ hon fun p on => Fragment.join " " (p.1 :: p.2 :: on)

/-- A select goes together with itself if its parts do. -/
theorem meets_select {s : Select} (hs : c.Asks (.select s))
    (hitems : ∀ i ∈ s.items, c.Twin i.expr i.expr)
    (hsource : ∀ o ∈ s.source, c.Meets (o.render c.left) (o.render c.right))
    (hjoins : ∀ j ∈ s.joins, c.Meets (j.render c.left) (j.render c.right))
    (hfilter : Option.Rel c.Twin s.filter s.filter)
    (hgroup : List.Forall₂ c.Twin s.groupBy s.groupBy)
    (hhaving : Option.Rel c.Twin s.having s.having)
    (horder : List.Forall₂ c.Twin s.orderBy s.orderBy) :
    c.Meets (s.render c.left) (s.render c.right) := by
  obtain ⟨items, source, joins, filter, groupBy, having, orderBy, limit, offset, distinct⟩ := s
  have origin : c.Meets (renderOrigin c.left source) (renderOrigin c.right source) := by
    cases source with
    | none => exact paired_ok (same_refl _)
    | some o => exact (hsource o rfl).bind fun _ _ hf =>
        paired_ok (hf.congr fun f => [Fragment.ofText "FROM " ++ f])
  have joined : List.Forall₂ c.Meets (renderJoins c.left joins) (renderJoins c.right joins) := by
    rw [renderJoins_eq_map, renderJoins_eq_map, List.forall₂_map_left_iff,
      List.forall₂_map_right_iff]
    exact List.forall₂_same.mpr hjoins
  have items := itemTwins_self hitems
  refine (meets_allOk (meets_renderItems items fun ht => (hs.typed ht).1)).bind fun ps ps' hps =>
    (meets_requireTexts (sides_unnamed items)).bind fun _ _ _ =>
    origin.bind fun os os' hos => (meets_allOk joined).bind fun js js' hjs =>
    (meets_renderFilter hfilter "WHERE").bind fun ws ws' hws =>
    (meets_texts (Twin.sides hgroup)).bind fun gs gs' hgs =>
    (meets_renderFilter hhaving "HAVING").bind fun hs₁ hs₁' hhs => ?_
  refine ((meets_texts (Twin.sides horder)).yields (yields_length orderBy)).bind
    fun ord ord' hord => ?_
  -- what is ordered by is written item by item, so it is not lost
  have ordered : c.IsPortable → limit.isSome ∨ offset.isSome → ord ≠ [] := fun hp hpage hn =>
    (hs.portable hp).2 hpage (List.length_eq_zero_iff.mp (hord.2.symm.trans (by rw [hn]; rfl)))
  refine (meets_rowClauses hord.1 (fun ht => (hs.typed ht).2.1) (fun hx => hs.shared hx)
    ordered).bind fun rs rs' hrs => ?_
  refine (meets_requireTexts (List.rel_append (sides_option hfilter)
    (sides_option hhaving))).bind fun _ _ _ => paired_ok fun hx => ?_
  rw [hps.2 hx, hos hx, hjs.2 hx, hws hx, hgs.2 hx, hhs hx, hrs hx]

/-! ## The walk -/

section

variable {e : Expr}

/-- A cast is not asked to be the same, because types have other names in each dialect. -/
theorem Asks.cast {operand : Expr} {target : LogicalType}
    (h : c.Asks (.expr (.cast operand target))) : ¬c.Exact := fun hx => h.shared hx

/-- Neither are texts of a group. -/
theorem Asks.aggregateText {operand : Expr} (h : c.Asks (.expr (.aggregateText operand))) :
    ¬c.Exact := fun hx => h.shared hx

/-- A dialect that is compared with itself requires names to be texts. -/
theorem typed_of_isAlone (h : c.IsAlone) : c.Typed := by
  obtain ⟨d, rfl⟩ := h
  trivial

/-- Raw fragments are asked for only where types are known. -/
theorem typed_of_raw {sql aliasName template : Expr} {bindings : List (Name × Expr)}
    (h : c.Asks (.expr (.raw sql aliasName template bindings))) : c.Typed := by
  cases c with
  | shared => exact h.elim
  | alone d | portable d => trivial

/-- A raw fragment that is asked about is a text. -/
theorem Asks.raw {sql aliasName template : Expr} {bindings : List (Name × Expr)}
    (h : c.Asks (.expr (.raw sql aliasName template bindings))) :
    sql.isText = true ∧ aliasName.isName = true :=
  ⟨(h.typed (typed_of_raw h)).1, (h.typed (typed_of_raw h)).2.1⟩

/-- The items of a membership are as wide as its operand. -/
theorem Asks.inList {operand : Expr} {items : List Expr} {negated : Flag}
    (h : c.Asks (.expr (.inList operand items negated))) (ho : c.Twin operand operand)
    (hs : List.Forall₂ c.Twin items items) :
    c.Twin (.inList operand items negated) (.inList operand items negated) :=
  twin_inList ho hs negated (fun hx => h.shared hx)
    fun ht => Expr.makeInList_eq_ok_iff.mp (h.typed ht).1

end

mutual

/-- An expression that fits the comparison is its own twin. -/
theorem twin_self : ∀ e : Expr, e.All c.Asks → c.Twin e e
  | .column _ _, h => Asks.column h
  | .star _, h => Asks.star h
  | .literal v, _ => twin_literal v
  | .truth value, _ => twin_truth value
  | .not operand, h => (twin_self operand h.2).not
  | .isNull operand negated, h => (twin_self operand h.2).isNull negated
  | .binary op left right, h => (twin_self left h.2.1).binary op (twin_self right h.2.2)
  | .logical op first rest, h => twin_logical op (twin_self first h.2.1) (twins_self rest h.2.2)
  | .inList operand items _, h =>
    Asks.inList h.1 (twin_self operand h.2.1) (twins_self items h.2.2)
  | .inQuery operand query negated, h =>
    (twin_self operand h.2.1).inQuery (meets_query query h.2.2) negated
  | .between operand low high negated, h =>
    (twin_self operand h.2.1).between (twin_self low h.2.2.1) (twin_self high h.2.2.2) negated
  | .exists query negated, h => twin_exists (meets_query query h.2) negated
  | .scalar query, h => twin_scalar (meets_query query h.2)
  | .row first rest, h => twin_row (twin_self first h.2.1) (twins_self rest h.2.2)
  | .call name args distinct, h => twin_call name (twins_self args h.2) distinct
  | .cast operand target, h => (twin_self operand h.2).cast target (Asks.cast h.1)
  | .coalesce parts, h => twin_coalesce (twins_self parts h.2)
  | .concat parts, h => twin_concat (twins_self parts h.2)
  | .aggregateText operand, h => (twin_self operand h.2).aggregateText (Asks.aggregateText h.1)
  | .sorted operand direction, h => (twin_self operand h.2).sorted direction
  | .window partition order, h => twin_window (twins_self partition h.2.1) (twins_self order h.2.2)
  | .over name args spec, h =>
    twin_over name (twins_self args h.2.1) (twin_self spec h.2.2) fun ha => Asks.framed h.1 ha
  | .jsonExtract document path asText, h =>
    (twin_self document h.2).jsonExtract (Asks.isAlone h.1 rfl) path asText
  | .jsonContains document value negated, h =>
    (twin_self document h.2.1).jsonContains (Asks.isAlone h.1 rfl) (twin_self value h.2.2) negated
  | .jsonEdge document value edge negated, h =>
    (twin_self document h.2.1).jsonEdge (Asks.isAlone h.1 rfl) (twin_self value h.2.2) edge negated
  | .jsonType document type, h =>
    (twin_self document h.2).jsonType (Asks.isAlone h.1 rfl) type
  | .textSearch first rest, h =>
    twin_textSearch (Asks.isAlone h.1 rfl) (twin_self first h.2.1) (twins_self rest h.2.2)
  | .matches search query negated, h =>
    (twin_self search h.2.1).matches (Asks.isAlone h.1 rfl) (twin_self query h.2.2) negated
  | .rowToJson _ _, h => Asks.rowToJson h
  | .excluded column, _ => twin_excluded column
  | .raw _ _ _ bindings, h =>
    twin_raw (Asks.raw h.1).1 (Asks.raw h.1).2 (named_self bindings h.2)
  | .image side column, _ => twin_image side column
  | .tuple _, _ => twin_tuple rfl
  | .foreign object, _ => twin_foreign object

/-- Lists, member by member. -/
theorem twins_self : ∀ es : List Expr, allExprs c.Asks es → List.Forall₂ c.Twin es es
  | [], _ => .nil
  | e :: rest, h => .cons (twin_self e h.1) (twins_self rest h.2)

theorem named_self : ∀ bs : List (Name × Expr), allBindings c.Asks bs →
    List.Forall₂ c.NamedTwin bs bs
  | [], _ => .nil
  | b :: rest, h => .cons (namedTwin_self b h.1) (named_self rest h.2)

theorem namedTwin_self : ∀ b : Name × Expr, allBinding c.Asks b → c.NamedTwin b b
  | (_, e), h => ⟨rfl, twin_self e h⟩

theorem twin_option : ∀ o : Option Expr, allOption c.Asks o → Option.Rel c.Twin o o
  | none, _ => .none
  | some e, h => .some (twin_self e h)

/-- A query goes together with itself. What is no query is refused as such. -/
theorem meets_query : ∀ q : Query, q.All c.Asks → c.Meets (q.render c.left) (q.render c.right)
  | .select s, h => meets_select_self s h
  | .union u, h => meets_union u h
  | .draft _, _ | .other _, _ => paired_error (allows_notQuery _) (allows_notQuery _)

theorem meets_union : ∀ u : Union, u.All c.Asks → c.Meets (u.render c.left) (u.render c.right)
  | ⟨members, kind⟩, h => (meets_allOk (meets_selects members h)).map fun _ _ hfs =>
      hfs.2.congr (Fragment.join kind.separator)

/-- The members of a union. -/
theorem meets_selects : ∀ ss : List Select, allSelects c.Asks ss →
    List.Forall₂ c.Meets (renderSelects c.left ss) (renderSelects c.right ss)
  | [], _ => .nil
  | s :: rest, h => .cons (meets_select_self s h.1) (meets_selects rest h.2)

/-- A select goes together with itself. -/
theorem meets_select_self : ∀ s : Select, s.All c.Asks →
    c.Meets (s.render c.left) (s.render c.right)
  | ⟨items, source, joins, filter, groupBy, having, orderBy, _, _, _⟩, h =>
    meets_select h.1 (twin_items items h.2.1)
      (meets_origin source h.2.2.1 fun ht => (Asks.typed h.1 ht).2.1)
      (meets_joins joins h.2.2.2.1 (fun ht => (Asks.typed h.1 ht).2.2.1)
        fun hp => (Asks.portable h.1 hp).1)
      (twin_option filter h.2.2.2.2.1) (twins_self groupBy h.2.2.2.2.2.1)
      (twin_option having h.2.2.2.2.2.2.1) (twins_self orderBy h.2.2.2.2.2.2.2)

theorem meets_origin : ∀ source : Option Source, allOrigin c.Asks source →
    (c.Typed → ∀ o ∈ source, o.IsTyped) →
    ∀ o ∈ source, c.Meets (o.render c.left) (o.render c.right)
  | none, _, _ => nofun
  | some o, h, ht => fun _ ho => Option.some.inj ho ▸ meets_source o h fun hc => ht hc o rfl

/-- A source. What is none raises the same error in both runs. -/
theorem meets_source : ∀ o : Source, o.All c.Asks → (c.Typed → o.IsTyped) →
    c.Meets (o.render c.left) (o.render c.right)
  | .table _, _, ht => meets_table ht
  | .derived query _, h, ht => meets_derived (meets_query query h) fun hc => (ht hc).2
  | .other _, _, _ => paired_error (allows_notSource _) (allows_notSource _)

/-- The items of a projection. -/
theorem twin_items : ∀ items : List SelectItem, allItems c.Asks items →
    ∀ i ∈ items, c.Twin i.expr i.expr
  | [], _ => nofun
  | i :: rest, h => List.forall_mem_cons.mpr ⟨twin_item i h.1, twin_items rest h.2⟩

theorem twin_item : ∀ i : SelectItem, i.All c.Asks → c.Twin i.expr i.expr
  | ⟨e, _⟩, h => twin_self e h

/-- The joins of a select. -/
theorem meets_joins : ∀ joins : List Join, allJoins c.Asks joins →
    (c.Typed → ∀ j ∈ joins, j.IsTyped) → (c.IsPortable → ∀ j ∈ joins, j.isFull = false) →
    ∀ j ∈ joins, c.Meets (j.render c.left) (j.render c.right)
  | [], _, _, _ => nofun
  | j :: rest, h, ht, hp => List.forall_mem_cons.mpr
      ⟨meets_join_self j h.1 (fun hc => ht hc j List.mem_cons_self)
          fun hc => hp hc j List.mem_cons_self,
        meets_joins rest h.2 (fun hc k hk => ht hc k (List.mem_cons_of_mem _ hk))
          fun hc k hk => hp hc k (List.mem_cons_of_mem _ hk)⟩

/-- A join. What is none would have no name that is a text. -/
theorem meets_join_self : ∀ j : Join, j.All c.Asks → (c.Typed → j.IsTyped) →
    (c.IsPortable → j.isFull = false) → c.Meets (j.render c.left) (j.render c.right)
  | .join right on kind, h, ht, hp => by
    refine meets_join (meets_source right h.1 ht) (twin_option on h.2) fun hc hk => ?_
    subst hk
    exact Bool.false_ne_true (hp hc).symm
  | .other _, _, ht, _ => meets_self fun hc => (ht hc).elim

end

end SqlScribe.Pairing
