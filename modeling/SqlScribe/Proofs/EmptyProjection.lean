import SqlScribe.Proofs.ExchangeNodes
import SqlScribe.Proofs.Starred

/-!
# An empty projection means a star

A select without items and the select with a star are exchanged for each other: at the top, as a
member of a union, as the rows of an insert, as a source, and nested in an expression. What the
constructors check stays, and so does what is written.

Two checks ask for the items themselves, and take an empty projection for one without columns. One
is the check that all selects of a union have one width, and `Union.IsEven` says where it makes no
difference. The other is made by SQL Server for an order by the primary key, and `Select.starredIn`
leaves alone the selects where it is made. The check of the rows of an insert does see that an empty
projection is open.
-/

namespace SqlScribe

/-! ## Checks -/

/-- Whether a union has no member without items beside one that shows how many columns it has. -/
def Union.IsEven (u : Union) : Prop :=
  (∃ s ∈ u.members, s.isOpen = true) → ∀ t ∈ u.members, ∀ n, t.width? = some n → n = 0

/-- Whether the unions that stand directly below the root of a tree are even. -/
def Tree.IsEven (t : Tree) : Prop := ∀ u ∈ t.unions, u.IsEven

section

variable (f : Select → Select)

/-- The unions of a query are the same but for the selects in them. -/
theorem Query.unions_exchange (q : Query) :
    (q.pass (exchanging f)).unions = q.unions.map fun u => u.pass (exchanging f) := by
  cases q <;> rfl

theorem Source.unions_exchange (o : Source) :
    (o.pass (exchanging f)).unions = o.unions.map fun u => u.pass (exchanging f) := by
  cases o with
  | derived query aliasName => exact query.unions_exchange f
  | table _ | other _ => rfl

/-- The sources of a join are the same but for the selects in them. -/
theorem Join.sources_exchange (j : Join) :
    (j.pass (exchanging f)).sources = j.sources.map fun o => o.pass (exchanging f) := by
  cases j <;> rfl

theorem Expr.isSorted_exchange (e : Expr) : (e.exchange f).isSorted = e.isSorted := by
  cases e <;> rfl

end

namespace Select

/-- Whether a projection is empty does not depend on the selects that are nested in it. -/
theorem isOpen_inner (f : Select → Select) (s : Select) :
    (s.inner (exchanging f)).isOpen = s.isOpen := by
  unfold isOpen
  rw [items_inner, source_inner, List.isEmpty_map, Option.isSome_map]

/-- Neither do the checks of a select ask for them. -/
theorem check_inner (f : Select → Select) (s : Select) :
    (s.inner (exchanging f)).check = .ok (s.inner (exchanging f)) ↔ s.check = .ok s := by
  rw [check_eq_self_iff, check_eq_self_iff, hasStar_inner]
  simp

variable (s : Select)

@[simp] theorem starred_source : s.starred.source = s.source := by unfold starred; split <;> rfl
@[simp] theorem starred_joins : s.starred.joins = s.joins := by unfold starred; split <;> rfl
@[simp] theorem starred_having : s.starred.having = s.having := by unfold starred; split <;> rfl
@[simp] theorem starred_orderBy : s.starred.orderBy = s.orderBy := by unfold starred; split <;> rfl
@[simp] theorem starred_isOrdered : s.starred.isOrdered = s.isOrdered := by
  unfold starred; split <;> rfl

/-- A star has no known width, and an empty projection has none of its own. -/
theorem width?_starred : s.starred.width? = if s.isOpen then none else s.width? := by
  unfold starred
  split <;> rfl

/-- A star needs a source, and so does an empty projection. -/
theorem check_starred : s.starred.check = .ok s.starred ↔ s.check = .ok s := by
  rw [check_eq_self_iff, check_eq_self_iff, starred_source, starred_joins, starred_having]
  unfold starred isOpen
  cases s.source with
  | none => simp
  | some o => simp

end Select

/-- The selects of a union have one width if every two have that show theirs. -/
theorem sameWidths_iff {ss : List Select} : sameWidths ss = true ↔
    ∀ s ∈ ss, ∀ t ∈ ss, ∀ m n, s.width? = some m → t.width? = some n → m = n := by
  have pairs : (∀ s ∈ ss, ∀ t ∈ ss, ∀ m n, s.width? = some m → t.width? = some n → m = n) ↔
      ∀ m ∈ ss.filterMap Select.width?, ∀ n ∈ ss.filterMap Select.width?, m = n := by
    simp only [List.mem_filterMap]
    exact ⟨fun h m ⟨s, hs, hm⟩ n ⟨t, ht, hn⟩ => h s hs t ht m n hm hn,
      fun h s hs t ht m n hm hn => h m ⟨s, hs, hm⟩ n ⟨t, ht, hn⟩⟩
  rw [pairs]
  unfold sameWidths
  -- only the widths that are known are compared, and each with the first
  cases ss.filterMap Select.width? with
  | nil => exact iff_of_true rfl nofun
  | cons w rest =>
    simp only [List.all_eq_true, beq_iff_eq]
    constructor
    · intro h
      have first : ∀ m ∈ w :: rest, m = w := List.forall_mem_cons.mpr ⟨rfl, h⟩
      exact fun m hm n hn => (first m hm).trans (first n hn).symm
    · exact fun h m hm => h m (List.mem_cons_of_mem w hm) w List.mem_cons_self

/-- The width of a select all of whose nested selects are exchanged as well. -/
theorem Select.width?_exchange_starred (s : Select) :
    (s.exchange starred).width? = if s.isOpen then none else s.width? := by
  show (s.inner (exchanging starred)).starred.width? = _
  rw [width?_starred, isOpen_inner, width?_inner]

/-- A select without items is taken for one without columns. -/
theorem Select.width?_of_isOpen {s : Select} (h : s.isOpen = true) : s.width? = some 0 := by
  simp [width?, hasStar, items_of_isOpen h]

/-- A union is accepted if and only if it is even and accepted with stars. -/
theorem Union.isMade_starred_iff {u : Union} :
    u.IsMade ↔ (u.pass (exchanging Select.starred)).IsMade ∧ u.IsEven := by
  have ordered (s : Select) : (s.exchange Select.starred).isOrdered = s.isOrdered :=
    (Select.starred_isOrdered _).trans (s.isOrdered_inner Select.starred)
  have shown {s : Select} {m : Nat} :
      (s.exchange Select.starred).width? = some m ↔ s.isOpen = false ∧ s.width? = some m := by
    rw [Select.width?_exchange_starred]
    cases s.isOpen <;> simp
  -- the one check that sees the difference
  have widths : sameWidths u.members = true ↔
      sameWidths (u.members.map fun s => s.exchange Select.starred) = true ∧ u.IsEven := by
    rw [sameWidths_iff, sameWidths_iff]
    simp only [List.forall_mem_map, shown]
    constructor
    · -- a member without items counts as one of no columns, so all others have none either
      refine fun h => ⟨fun s hs t ht m n hm hn => h s hs t ht m n hm.2 hn.2, ?_⟩
      rintro ⟨s, hs, hopen⟩ t ht n hn
      exact (h s hs t ht 0 n (Select.width?_of_isOpen hopen) hn).symm
    · rintro ⟨h, heven⟩ s hs t ht m n hm hn
      by_cases hopen : ∃ r ∈ u.members, r.isOpen = true
      · rw [heven hopen s hs m hm, heven hopen t ht n hn]
      · have closed (r : Select) (hr : r ∈ u.members) : r.isOpen = false :=
          Bool.eq_false_iff.mpr fun ho => hopen ⟨r, hr, ho⟩
        exact h s hs t ht m n ⟨closed s hs, hm⟩ ⟨closed t ht, hn⟩
  rw [isMade_iff, isMade_iff, members_pass, List.length_map, widths]
  simp only [List.forall_mem_map, ordered]
  tauto

/-- All columns of a table, as the items say. -/
def columnsOf (table : String) (items : List SelectItem) : Select :=
  ⟨items, some (.table ⟨.word table, .absent, .absent, []⟩), [], none, [], none, [], none, none,
    .switch false⟩

-- beside a select of one column a star is accepted, and an empty projection is refused
example :
    let one := columnsOf "visits" [⟨.column .absent (.word "id"), .absent⟩]
    let made items :=
      Union.make (.ok [.select (columnsOf "users" items), .select one]) (.text "ALL")
    (made [.all]).toOption.isSome = true ∧ (made []).toOption.isSome = false := by
  decide +kernel

/-! ### What does not depend on nested selects -/

/-- What a source checks is its alias and the kind of its query. -/
theorem Source.isMade_exchange (f : Select → Select) (o : Source) :
    (o.pass (exchanging f)).IsMade ↔ o.IsMade := by
  cases o with
  | derived query aliasName =>
    show makeDerived (query.pass (exchanging f)) aliasName =
        .ok (.derived (query.pass (exchanging f)) aliasName) ↔
      makeDerived query aliasName = .ok (.derived query aliasName)
    cases h : aliasName.isTrue <;> simp [makeDerived, h, refuse_ne_ok]
  | table _ | other _ => rfl

/-- What a join checks is whether it has a condition. -/
theorem Join.isMade_exchange (f : Select → Select) (j : Join) :
    (j.pass (exchanging f)).IsMade ↔ j.IsMade := by
  cases j with
  | join right on kind =>
    rw [pass, isMade_iff, isMade_iff, passFilter_eq_map, Option.isSome_map]
  | other _ => rfl

/-! ### What does not depend on empty projections -/

/-- A select is accepted with a star if and only if it is accepted without items. -/
theorem Select.isMade_exchange_starred {s : Select} :
    (s.exchange starred).IsMade ↔ s.IsMade := by
  show (s.inner (exchanging starred)).starred.IsMade ↔ s.IsMade
  rw [isMade_iff, isMade_iff, starred_orderBy, check_starred, check_inner, orderBy_inner,
    List.forall_mem_map]
  simp only [Expr.isSorted_exchange]

/-- The sources of a select are the same but for the selects in them. -/
theorem Select.sources_exchange_starred (s : Select) :
    (s.exchange starred).sources = s.sources.map fun o => o.pass (exchanging starred) := by
  show (s.inner (exchanging starred)).starred.sources = _
  unfold sources
  rw [starred_source, starred_joins, source_inner, joins_inner, List.map_append, Option.toList_map,
    List.map_flatMap, List.flatMap_map]
  simp only [Join.sources_exchange]

/-- The unions below the root of a tree, with stars. -/
theorem Tree.unions_exchange_starred (t : Tree) :
    (t.exchange Select.starred).unions =
      t.unions.map fun u => u.pass (exchanging Select.starred) := by
  cases t with
  | expr e =>
    cases e with
    | inQuery operand query negated => exact query.unions_exchange _
    | «exists» query negated => exact query.unions_exchange _
    | scalar query => exact query.unions_exchange _
    | _ => rfl
  | select s =>
    show (s.exchange Select.starred).sources.flatMap Source.unions = _
    rw [Select.sources_exchange_starred]
    simp only [unions, List.flatMap_map, List.map_flatMap, Source.unions_exchange]

/-- A row has as many items as before. -/
theorem Expr.width?_exchange (f : Select → Select) (e : Expr) :
    (e.exchange f).width? = e.width? := by
  unfold width?
  rw [rowItems?_pass, Option.map_map]
  cases e.rowItems? <;> simp

/-- What a constructor checks of its parts does not depend on empty projections in them. -/
theorem Tree.isMade_exchange_starred {t : Tree} :
    (t.exchange Select.starred).IsMade ↔ t.IsMade := by
  cases t with
  | expr e =>
    -- only these two kinds of expression are checked again when their parts change
    cases e with
    | inList operand items negated =>
      show Expr.makeInList (operand.exchange _) (passAll (exchanging _) .value items) negated =
          .ok (.inList _ _ _) ↔
        Expr.makeInList operand items negated = .ok (.inList operand items negated)
      rw [Expr.makeInList_eq_ok_iff, Expr.makeInList_eq_ok_iff, passAll_eq_map,
        List.forall_mem_map]
      simp only [Expr.width?_exchange]
    | raw sql aliasName template bindings =>
      show Expr.makeRaw sql aliasName template
            (.ok ((passBindings (exchanging _) bindings).map .ok)) =
          .ok (.raw sql aliasName template _) ↔
        Expr.makeRaw sql aliasName template (.ok (bindings.map .ok)) =
          .ok (.raw sql aliasName template bindings)
      rw [Expr.makeRaw_eq_self_iff, Expr.makeRaw_eq_self_iff, passBindings_eq_map,
        List.forall_mem_map]
      simp only [Expr.isExpr_pass]
    | _ => exact Iff.rfl
  | select s =>
    show (s.exchange Select.starred).IsMade ∧
      (∀ o ∈ (s.exchange Select.starred).sources, o.IsMade) ∧
      (∀ j ∈ (s.exchange Select.starred).joins, j.IsMade) ↔
        s.IsMade ∧ (∀ o ∈ s.sources, o.IsMade) ∧ ∀ j ∈ s.joins, j.IsMade
    have joins : (s.exchange Select.starred).joins =
        s.joins.map fun j => j.pass (exchanging Select.starred) :=
      (Select.starred_joins _).trans (s.joins_inner _)
    rw [Select.isMade_exchange_starred, Select.sources_exchange_starred, joins,
      List.forall_mem_map, List.forall_mem_map]
    simp only [Source.isMade_exchange, Join.isMade_exchange]

/-- **A node is accepted if and only if it is accepted with stars** and its unions are even. -/
theorem Tree.isAccepted_starred_iff (t : Tree) :
    t.IsAccepted ↔ (t.exchange Select.starred).IsAccepted ∧ t.IsEven := by
  unfold IsAccepted IsEven
  rw [unions_exchange_starred, isMade_exchange_starred, List.forall_mem_map, and_assoc,
    ← forall₂_and]
  exact and_congr_right fun _ => forall₂_congr fun u _ => Union.isMade_starred_iff

/-! ## Accepted statements -/

/-- Whether no union of a statement has a member without items beside one that shows how many
columns it has. -/
def Statement.IsEven (s : Statement) : Prop :=
  s.All Tree.IsEven ∧
    match s with
    | .union u => u.IsEven
    | _ => True

/-- What is accepted node by node is what is accepted with stars and has even unions. The star that
comes in is a node more, and it is accepted. -/
theorem splits_isAccepted : Splits Select.starred Tree.IsAccepted Tree.IsEven where
  root := Tree.isAccepted_starred_iff
  inside s := by
    have star : Tree.IsAccepted (.expr (.star .absent)) := ⟨trivial, nofun⟩
    unfold Select.starred
    split
    next hopen =>
      have nothing : s.items = [] := List.isEmpty_iff.mp ((Bool.and_eq_true _ _).mp hopen).1
      unfold Select.Inside
      rw [nothing]
      exact and_congr_left fun _ => iff_of_true ⟨star, trivial⟩ trivial
    · exact Iff.rfl

/-- The check of the rows of an insert takes a select without items as open, like one with a
star. -/
theorem InsertSource.make_starred_iff {n : Nat} {source : InsertSource} :
    make n (source.pass (exchanging Select.starred)).lists
          (source.pass (exchanging Select.starred)).query? =
        .ok (source.pass (exchanging Select.starred)) ↔
      make n source.lists source.query? = .ok source := by
  rw [make_eq_self_iff, make_eq_self_iff]
  cases source with
  | rows lists => simp [pass]
  | query s =>
    simp only [pass]
    unfold checkWidth
    rw [Select.width?_exchange_starred]
    -- an empty projection is let pass here, as a star is
    cases hopen : s.isOpen with
    | true => simp [Select.width?_of_isOpen hopen]
    | false => simp
  | draft s =>
    simp only [pass]
    unfold checkWidth
    rw [Select.width?_inner]

theorem Assignment.isMade_exchange (f : Select → Select) {a : Assignment} :
    (a.pass (exchanging f)).IsMade ↔ a.IsMade := by
  rw [isMade_iff, isMade_iff, pass, Expr.isExpr_pass]

theorem columns_exchange (f : Select → Select) (as : List Assignment) :
    (as.map (Assignment.pass (exchanging f))).map (·.column) = as.map (·.column) := by
  rw [List.map_map]
  rfl

/-- What a conflict checks are the names of its columns. -/
theorem Conflict.isMade_exchange (f : Select → Select) {c : Conflict} :
    (c.pass (exchanging f)).IsMade ↔ c.IsMade := by
  have assignments : (ConflictClause.conflict (c.pass (exchanging f))).assignments =
      (ConflictClause.conflict c).assignments.map (Assignment.pass (exchanging f)) :=
    ConflictClause.assignments_pass (exchanging f) (.conflict c)
  rw [isMade_iff, isMade_iff, assignments, columns_exchange, List.forall_mem_map]
  simp only [Assignment.isMade_exchange]
  obtain ⟨target, action⟩ := c
  cases action with
  | nothing => rfl
  | update assignments filter => simp [pass, ConflictAction.pass]

theorem ConflictClause.isMade_exchange (f : Select → Select) {c : ConflictClause} :
    (c.pass (exchanging f)).IsMade ↔ c.IsMade := by
  cases c with
  | conflict c => exact Conflict.isMade_exchange f
  | other object => rfl

/-- An insert is accepted with stars if and only if it is accepted without. -/
theorem Insert.isMade_exchange_starred {i : Insert} :
    (i.pass (exchanging Select.starred)).IsMade ↔ i.IsMade := by
  rw [isMade_iff, isMade_iff, pass]
  dsimp only
  rw [InsertSource.make_starred_iff]
  refine and_congr_left fun _ => ?_
  cases i.source with
  | rows lists => simp [InsertSource.pass, InsertSource.lists]
  | query s | draft s => rfl

theorem Update.isMade_exchange (f : Select → Select) {u : Update} :
    (u.pass (exchanging f)).IsMade ↔ u.IsMade := by
  rw [isMade_iff, isMade_iff, pass]
  dsimp only
  rw [columns_exchange, List.forall_mem_map]
  simp only [Assignment.isMade_exchange, ne_eq, List.map_eq_nil_iff]

theorem conflicts_exchange (f : Select → Select) (conflict : Option ConflictClause) :
    (∀ c ∈ conflict.map (ConflictClause.pass (exchanging f)), c.IsMade) ↔
      ∀ c ∈ conflict, c.IsMade := by
  cases conflict <;> simp [ConflictClause.isMade_exchange]

/-- **A statement is accepted if and only if it is accepted with stars** and its unions are even. -/
theorem Statement.isAccepted_starred_iff (s : Statement) :
    s.IsAccepted ↔ (s.exchange Select.starred).IsAccepted ∧ s.IsEven := by
  have kept {a b : Prop} (h : b ↔ a) : a ↔ b ∧ True := by rw [h, and_true]
  refine both (all_exchange_iff splits_isAccepted s) ?_
  cases s with
  | select s => exact neither
  | union u => exact Union.isMade_starred_iff
  | insert i =>
    exact kept (and_congr (i.target.isMade_exchange _)
      (and_congr Insert.isMade_exchange_starred (conflicts_exchange _ i.conflict)))
  | update u => exact kept (and_congr (u.target.isMade_exchange _) (Update.isMade_exchange _))
  | delete x =>
    exact kept (and_congr (x.target.isMade_exchange _) (iff_of_true (Delete.isMade _) x.isMade))

/-! ## Empty projections and stars -/

namespace Select

/-- Whether the primary key has to order the rows does not depend on nested selects. -/
theorem needsKey_inner (f : Select → Select) (s : Select) :
    (s.inner (exchanging f)).needsKey = s.needsKey := by
  unfold needsKey
  rw [distinct_inner, orderBy_inner, limit_inner, offset_inner, source_inner, List.isEmpty_map]
  cases s.source with
  | none => rfl
  | some o => cases o <;> rfl

/-- **A select with a star becomes what the select without items becomes**, so two statements become
the same if they differ in stars for empty projections alone. -/
theorem exchange_starredIn (d : Dialect) (s : Select) :
    (s.starredIn d).exchange (starredIn d) = s.exchange (starredIn d) := by
  unfold starredIn starred
  -- a select that needs its key keeps its items, and so do both sides
  by_cases hkey : (decide (d = .mssql) && s.needsKey) = true
  · rw [if_pos hkey]
  -- otherwise an empty projection is exchanged for a star, and a star for itself
  by_cases hopen : s.isOpen = true
  · rw [if_neg hkey, if_pos hopen]
    show (Select.inner _ _).starredIn d = (Select.inner _ _).starredIn d
    unfold starredIn starred
    rw [needsKey_inner, needsKey_inner, isOpen_inner, isOpen_inner]
    have shown : ({ s with items := [.all] } : Select).isOpen = false := rfl
    have needs : ({ s with items := [.all] } : Select).needsKey = s.needsKey := rfl
    rw [shown, needs, if_neg hkey, if_neg hkey, if_neg Bool.false_ne_true, if_pos hopen]
    cases s
    rfl
  · rw [if_neg hkey, if_neg hopen]

end Select

/-- **An empty projection means a star**, wherever a select can stand. Two statements that differ in
stars for empty projections alone are both accepted or both refused, unless an empty projection
stands in a union beside a select that shows how many columns it has: such a union is refused. In
every style they become the same query, or fail with the same error, unless SQL Server has to look
for a primary key in an empty projection. -/
theorem Statement.alike_of_starred_eq {a b : Statement} :
    (a.exchange Select.starred = b.exchange Select.starred →
      (a.IsEven ↔ b.IsEven) → (a.IsAccepted ↔ b.IsAccepted)) ∧
    (a.IsAccepted → a.IsEven) ∧
    ∀ style : Style,
      a.exchange (Select.starredIn style.dialect) = b.exchange (Select.starredIn style.dialect) →
      a.toQuery style = b.toQuery style := by
  refine ⟨fun h heven => ?_, fun h => (a.isAccepted_starred_iff.mp h).2, fun style h => ?_⟩
  · rw [a.isAccepted_starred_iff, b.isAccepted_starred_iff, h, heven]
  · have hf := keepsText_starredIn style.dialect
    rw [← a.toQuery_exchange hf, h, b.toQuery_exchange hf]

/-- All users without a session, with the same items in the outer and in the inner select. -/
def strangers (items : List SelectItem) : Statement :=
  .select { columnsOf "users" items with
    filter := some (.exists (.select (columnsOf "sessions" items)) (.switch true)) }

theorem strangers_alike :
    (strangers []).IsAccepted ∧ (strangers [.all]).IsAccepted ∧
      ∀ style, (strangers []).toQuery style = (strangers [.all]).toQuery style := by
  have even {items : List SelectItem} (h : allItems Tree.IsEven items) :
      (strangers items).IsEven := by
    simpa [strangers, columnsOf, Statement.IsEven, Statement.All, Statement.clauses,
      Statement.extras, Tree.All, Select.All, allOrigin, Source.All, allJoins, allOption, Expr.All,
      Query.All, allExprs, Tree.IsEven, Tree.unions, Query.unions, Select.sources,
      Source.unions] using h
  have same : (strangers []).IsAccepted ↔ (strangers [.all]).IsAccepted :=
    Statement.alike_of_starred_eq.1 rfl (iff_of_true (even trivial)
      (even ⟨List.forall_mem_nil _, trivial⟩))
  -- both selects pass the checks, whatever their condition is
  have node (table : String) (hname : (Expr.word table).isTrue = true) (filter : Option Expr) :
      Tree.IsAccepted (.select { columnsOf table [] with filter := filter }) := by
    refine ⟨⟨Select.isMade_iff.mpr ⟨List.forall_mem_nil _, rfl⟩, fun o ho => ?_,
      List.forall_mem_nil _⟩, List.forall_mem_nil _⟩
    obtain rfl := List.mem_singleton.mp ho
    exact if_pos hname
  have accepted : (strangers []).IsAccepted := by
    refine ⟨fun t ht => ?_, trivial⟩
    obtain rfl := List.mem_singleton.mp ht
    exact ⟨node "users" rfl _, trivial, trivial, trivial,
      ⟨⟨trivial, List.forall_mem_nil _⟩, node "sessions" rfl none, trivial, trivial, trivial,
        trivial, trivial, trivial, trivial⟩, trivial, trivial, trivial⟩
  refine ⟨accepted, same.mp accepted, fun style => Statement.alike_of_starred_eq.2.2 style ?_⟩
  cases style.dialect <;> rfl

end SqlScribe
