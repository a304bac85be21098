import SqlScribe.Proofs.Drafting
import SqlScribe.Proofs.PairedStatement

/-!
# Statements that the constructors accept

A statement is put together from the inside out, and each constructor checks the node that it makes.
So a statement can be built if every node is what its constructor makes of its parts.

Most constructors of expressions look at no part. What they check is in the types: there is at least
one condition under a connective, and the name of a function is one. Unions are no nodes of their
own; they are looked at where they stand, in an expression or as a source.
-/

namespace SqlScribe

/-! ## Parts -/

/-- A union in the place of a query. -/
def Query.unions : Query → List Union
  | .union u => [u]
  | _ => []

/-- A union as a source. -/
def Source.unions : Source → List Union
  | .derived query _ => query.unions
  | _ => []

/-- The source that a join adds. -/
def Join.sources : Join → List Source
  | .join right _ _ => [right]
  | .other _ => []

/-- The sources of a select: the first one, and those that are joined to it. -/
def Select.sources (s : Select) : List Source := s.source.toList ++ s.joins.flatMap Join.sources

/-- The unions that stand directly below the root of a tree. -/
def Tree.unions : Tree → List Union
  | .expr (.inQuery _ query _) | .expr (.exists query _) | .expr (.scalar query) => query.unions
  | .expr _ => []
  | .select s => s.sources.flatMap Source.unions

/-! ## Accepted nodes -/

/-- Whether a union is what its constructor makes of its parts. -/
def Union.IsMade (u : Union) : Prop :=
  ∃ kind, Union.make (.ok (u.members.map .select)) kind = .ok u

/-- Whether a source is what its constructor makes of its parts. What is no source has none. -/
def Source.IsMade : Source → Prop
  | .table t => Table.make t.name t.schema t.aliasName (.ok t.primaryKey) = .ok t
  | .derived query aliasName => makeDerived query aliasName = .ok (.derived query aliasName)
  | .other _ => True

/-- Whether a join is what its constructor makes of its parts. What is no join has none. -/
def Join.IsMade : Join → Prop
  | .join right on kind => ∃ given, Join.make right on given = .ok (.join right on kind)
  | .other _ => True

/-- Whether a select is what its constructor makes of its parts. -/
def Select.IsMade (s : Select) : Prop :=
  Select.make (.ok (s.items.map .item)) s.source (.ok s.joins) s.filter (.ok s.groupBy) s.having
    (.ok s.orderBy) (viewNat? s.limit) (viewNat? s.offset) s.distinct = .ok s

/-- Whether the root of a tree, with the sources and joins that belong to it, is what the
constructors make of its parts. -/
def Tree.IsMade : Tree → Prop
  | .expr (.inList operand items negated) =>
    Expr.makeInList operand items negated = .ok (.inList operand items negated)
  | .expr (.raw sql aliasName template bindings) =>
    Expr.makeRaw sql aliasName template (.ok (bindings.map .ok)) =
      .ok (.raw sql aliasName template bindings)
  | .expr _ => True
  | .select s => s.IsMade ∧ (∀ o ∈ s.sources, o.IsMade) ∧ ∀ j ∈ s.joins, j.IsMade

/-- Whether the constructors accept the root of a tree and the unions that stand below it. -/
def Tree.IsAccepted (t : Tree) : Prop := t.IsMade ∧ ∀ u ∈ t.unions, u.IsMade

/-- Rows that are given one by one. -/
def InsertSource.lists : InsertSource → List (List Expr)
  | .rows lists => lists
  | .query _ | .draft _ => []

/-- A select that gives the rows. -/
def InsertSource.query? : InsertSource → Option Query
  | .rows _ => none
  | .query s => some (.select s)
  | .draft s => some (.draft s)

/-- Whether an insert is what its constructor makes of its parts. -/
def Insert.IsMade (i : Insert) : Prop :=
  Insert.make i.target (.ok i.columns) (.ok (i.source.lists.map .ok)) i.source.query? i.conflict
    (.ok (i.returning.map .item)) = .ok i

/-- Whether an assignment is what its constructor makes of its parts. -/
def Assignment.IsMade (a : Assignment) : Prop := Assignment.make a.column a.value = .ok a

/-- Whether a conflict, with its assignments, is what the constructors make of its parts. -/
def Conflict.IsMade (c : Conflict) : Prop :=
  (∀ a ∈ (ConflictClause.conflict c).assignments, a.IsMade) ∧
    ∃ action, Conflict.make (.ok c.target) action
      (.ok ((ConflictClause.conflict c).assignments.map .done))
      (ConflictClause.conflict c).filter? = .ok c

/-- Whether a conflict clause is what the constructors make of its parts. What is none has none. -/
def ConflictClause.IsMade : ConflictClause → Prop
  | .conflict c => c.IsMade
  | .other _ => True

/-- Whether an update, with its assignments, is what the constructors make of its parts. -/
def Update.IsMade (u : Update) : Prop :=
  (∀ a ∈ u.assignments, a.IsMade) ∧
    Update.make u.target (.ok (u.assignments.map .done)) u.filter (.ok (u.returning.map .item)) =
      .ok u

/-- Whether a delete is what its constructor makes of its parts. -/
def Delete.IsMade (x : Delete) : Prop :=
  Delete.make x.target x.filter (.ok (x.returning.map .item)) = .ok x

/-- Whether the constructors accept a statement: each of its nodes, the statement itself, and what
belongs to it alone. -/
def Statement.IsAccepted (s : Statement) : Prop :=
  s.All Tree.IsAccepted ∧
    match s with
    | .select _ => True
    | .union u => u.IsMade
    | .insert i => i.target.IsMade ∧ i.IsMade ∧ ∀ c ∈ i.conflict, c.IsMade
    | .update u => u.target.IsMade ∧ u.IsMade
    | .delete x => x.target.IsMade ∧ x.IsMade

/-! ## What is checked -/

theorem ok_bind {ε α β : Type} {a : α} {f : α → Except ε β} : (.ok a >>= f) = f a := rfl

theorem after_eq_ok {ε α : Type} {x : Except ε Unit} {y : Except ε α} {a : α} :
    (x >>= fun _ => y) = .ok a ↔ x = .ok () ∧ y = .ok a := by
  cases x <;> simp [bind, Except.bind]

/-- A list is made if its head and its rest are. -/
theorem bind_cons_eq_ok {ε α : Type} {x : Except ε α} {xs : Except ε (List α)} {a : α}
    {as : List α} : (x >>= fun a => xs >>= fun as => .ok (a :: as)) = .ok (a :: as) ↔
      x = .ok a ∧ xs = .ok as := by
  cases x <;> cases xs <;> simp [bind, Except.bind]

/-- The members of a union are taken as they are if none is ordered. -/
theorem UnionMember.selects?_eq_ok_iff {ss ss' : List Select} :
    selects? (ss.map .select) = .ok ss' ↔ (∀ s ∈ ss, s.isOrdered = false) ∧ ss' = ss := by
  -- on the members; the first with an order is refused
  induction ss generalizing ss' with
  | nil => exact ⟨fun h => ⟨nofun, (Except.ok.inj h).symm⟩, fun ⟨_, h⟩ => by rw [h]; rfl⟩
  | cons s rest ih =>
    rw [List.map_cons, selects?, List.forall_mem_cons, bind_eq_ok]
    cases hs : s.isOrdered with
    | true =>
      have refused : select? (.select s) = refuse .orderedUnionMember := if_pos hs
      rw [refused]
      exact iff_of_false (fun ⟨_, h, _⟩ => refuse_ne_ok h) fun h => nomatch h.1.1
    | false =>
      have taken : select? (.select s) = .ok s := if_neg (Bool.eq_false_iff.mp hs)
      rw [taken]
      constructor
      · rintro ⟨_, ⟨⟩, h⟩
        obtain ⟨ss', hss, ⟨⟩⟩ := bind_eq_ok.mp h
        obtain ⟨hrest, rfl⟩ := ih.mp hss
        exact ⟨⟨rfl, hrest⟩, rfl⟩
      · rintro ⟨⟨-, hrest⟩, rfl⟩
        exact ⟨s, rfl, by rw [ih.mpr ⟨hrest, rfl⟩]; rfl⟩

/-- A choice is made by its name. -/
theorem choose_text {α : Type} {read : String → Option α} {cause : Data → Malformed}
    {fallback s : String} {a : α} (hs : s ≠ "") (hread : read s = some a) :
    choose read cause fallback (.text s) = .ok a := by
  have given : (Data.text s).orElse (.text fallback) = .text s := if_pos (by simpa [Data.isTrue])
  unfold choose
  rw [given]
  show readLetters read cause (.text s) (some s) = .ok a
  rw [readLetters, Option.bind_some, hread]

/-- A union has at least two members of one width, and none of them is ordered. -/
theorem Union.isMade_iff {u : Union} : u.IsMade ↔
    2 ≤ u.members.length ∧ (∀ s ∈ u.members, s.isOrdered = false) ∧
      sameWidths u.members = true := by
  obtain ⟨members, kind⟩ := u
  unfold IsMade make
  constructor
  · rintro ⟨given, h⟩
    obtain ⟨kind, -, h⟩ := bind_eq_ok.mp h
    obtain ⟨_, ⟨⟩, h⟩ := bind_eq_ok.mp h
    rw [List.length_map] at h
    split at h
    · exact absurd h refuse_ne_ok
    next hlength =>
    obtain ⟨ss, hss, h⟩ := bind_eq_ok.mp h
    obtain ⟨hordered, rfl⟩ := UnionMember.selects?_eq_ok_iff.mp hss
    split at h
    next hwidths => exact ⟨Nat.le_of_not_lt hlength, hordered, hwidths⟩
    · exact absurd h refuse_ne_ok
  · rintro ⟨hlength, hordered, hwidths⟩
    -- the kind is chosen by its own word
    have spelt : choose UnionKind.ofText? .unknownUnion "ALL" (.text kind.text) = .ok kind :=
      choose_text (by cases kind <;> decide) (by cases kind <;> decide +kernel)
    refine ⟨.text kind.text, ?_⟩
    rw [spelt]
    show (if (members.map UnionMember.select).length < 2 then refuse .unionTooShort
      else UnionMember.selects? (members.map .select) >>= _) = _
    rw [List.length_map, if_neg (Nat.not_lt.mpr hlength),
      UnionMember.selects?_eq_ok_iff.mpr ⟨hordered, rfl⟩]
    exact if_pos hwidths

/-- A join has a condition unless it is a cross join. -/
theorem Join.isMade_iff {right : Source} {on : Option Expr} {kind : JoinKind} :
    (Join.join right on kind).IsMade ↔ (on.isSome = true ↔ kind ≠ .cross) := by
  -- whatever the word, a condition is asked for unless the join is a cross join
  have checked {given : Data} {k : JoinKind}
      (hgiven : choose JoinKind.ofText? .unknownJoin "inner" given = .ok k) :
      Join.make right on given = .ok (.join right on kind) ↔
        (on.isSome = true ↔ k ≠ .cross) ∧ k = kind := by
    unfold make
    rw [hgiven]
    show (if k = .cross && on.isSome then refuse .crossJoinPredicate
      else if k ≠ .cross && on.isNone then refuse (.joinWithoutPredicate k)
      else .ok (Join.join right on k)) = _ ↔ _
    cases on <;> by_cases hk : k = .cross <;> simp [hk, refuse_ne_ok]
  constructor
  · rintro ⟨given, h⟩
    obtain ⟨k, hk, -⟩ := bind_eq_ok.mp h
    obtain ⟨hon, rfl⟩ := (checked hk).mp h
    exact hon
  · intro hon
    exact ⟨.text kind.text, (checked (choose_text (by cases kind <;> decide)
      (by cases kind <;> decide +kernel))).mpr ⟨hon, rfl⟩⟩

/-! ## Selects -/

theorem SelectItem.ofOperands_items (items : List SelectItem) :
    ofOperands (items.map .item) = .ok items := by
  induction items with
  | nil => rfl
  | cons i rest ih =>
    rw [List.map_cons, ofOperands, ih]
    rfl

/-- Whether an expression has a direction of order. -/
def Expr.isSorted : Expr → Bool
  | .sorted _ _ => true
  | _ => false

theorem makeOrderItem_eq_self_iff {e : Expr} : makeOrderItem e = .ok e ↔ e.isSorted = true := by
  cases e with
  | sorted e direction => exact iff_of_true rfl rfl
  | tuple _ | foreign _ => exact iff_of_false refuse_ne_ok Bool.false_ne_true
  | _ => exact iff_of_false nofun Bool.false_ne_true

/-- An order is taken as it is if each of its items has a direction. -/
theorem makeOrderItems_eq_self_iff {es : List Expr} :
    makeOrderItems es = .ok es ↔ ∀ e ∈ es, e.isSorted = true := by
  induction es with
  | nil => exact iff_of_true rfl (List.forall_mem_nil _)
  | cons e rest ih =>
    rw [List.forall_mem_cons, ← makeOrderItem_eq_self_iff, ← ih]
    exact bind_cons_eq_ok

theorem makeCount_view (clause : CountClause) (n : Option Nat) :
    makeCount clause (viewNat? n) = .ok n := by
  cases n with
  | none => rfl
  | some n =>
    have nonnegative : ¬ (n : Int) < 0 := Int.not_lt.mpr (Int.natCast_nonneg n)
    simp [makeCount, viewNat?, nonnegative]

/-- A select without a source has items, but no star, no joins and no condition on groups. -/
theorem Select.check_eq_self_iff {s : Select} : s.check = .ok s ↔
    s.source.isSome = true ∨
      s.items ≠ [] ∧ s.joins = [] ∧ s.having = none ∧ s.hasStar = false := by
  unfold check
  cases s.source <;> cases s.items <;> cases s.joins <;> cases s.having <;> cases s.hasStar <;>
    simp [refuse_ne_ok]

/-- A select of finished parts is checked behind its order. -/
theorem Select.make_finished (s : Select) :
    make (.ok (s.items.map .item)) s.source (.ok s.joins) s.filter (.ok s.groupBy) s.having
        (.ok s.orderBy) (viewNat? s.limit) (viewNat? s.offset) s.distinct =
      makeOrderItems s.orderBy >>= fun order => check { s with orderBy := order } := by
  simp only [make, ok_bind, SelectItem.ofOperands_items, makeCount_view]

/-- A select is checked for its order, and for what it uses without a source. -/
theorem Select.isMade_iff {s : Select} : s.IsMade ↔
    (∀ e ∈ s.orderBy, e.isSorted = true) ∧ s.check = .ok s := by
  unfold IsMade
  rw [make_finished, ← makeOrderItems_eq_self_iff, bind_eq_ok]
  obtain ⟨items, source, joins, filter, groupBy, having, orderBy, limit, offset, distinct⟩ := s
  constructor
  · rintro ⟨order, horder, h⟩
    obtain rfl : orderBy = order := congrArg Select.orderBy (eq_of_check h)
    exact ⟨horder, h⟩
  · rintro ⟨horder, h⟩
    exact ⟨_, horder, h⟩

/-! ## Operands -/

/-- What is no expression becomes a value, so only an expression is taken as it is. -/
theorem Expr.operand_eq_self_iff {e : Expr} : e.operand = .ok e ↔ e.isExpr = true := by
  have value {x : Except EncodingError Value} (h : (encoded x).map Expr.literal = .ok e) :
      e.isExpr = true := by
    cases x with
    | ok v => cases h; rfl
    | error _ => cases h
  refine ⟨fun h => ?_, operand_of_isExpr⟩
  cases e with
  | tuple items | foreign object => exact value h
  | _ => rfl

theorem Expr.operands_eq_self_iff {es : List Expr} :
    operands es = .ok es ↔ ∀ e ∈ es, e.isExpr = true := by
  induction es with
  | nil => exact iff_of_true rfl (List.forall_mem_nil _)
  | cons e rest ih =>
    rw [List.forall_mem_cons, ← operand_eq_self_iff, ← ih]
    exact bind_cons_eq_ok

theorem makeRows_eq_self_iff {rows : List (List Expr)} :
    makeRows (rows.map .ok) = .ok rows ↔ ∀ row ∈ rows, ∀ e ∈ row, e.isExpr = true := by
  induction rows with
  | nil => exact iff_of_true rfl nofun
  | cons row rest ih =>
    rw [List.forall_mem_cons, ← Expr.operands_eq_self_iff, ← ih, makeRows_cons]
    exact bind_cons_eq_ok

theorem Expr.namedOperands_eq_self_iff {bs : List (Name × Expr)} :
    namedOperands (bs.map .ok) = .ok bs ↔ ∀ b ∈ bs, b.2.isExpr = true := by
  induction bs with
  | nil => exact iff_of_true rfl nofun
  | cons b rest ih =>
    obtain ⟨name, e⟩ := b
    have first : (e.operand >>= fun e => .ok (name, e)) = .ok (name, e) ↔ e.operand = .ok e := by
      cases e.operand <;> simp [bind, Except.bind]
    have made : namedOperands (((name, e) :: rest).map .ok) =
        ((e.operand >>= fun e => .ok (name, e)) >>= fun b =>
          namedOperands (rest.map .ok) >>= fun bs => .ok (b :: bs)) := by
      change (e.operand >>= fun e => namedOperands (rest.map .ok) >>= fun bs =>
        .ok ((name, e) :: bs)) = _
      cases e.operand <;> rfl
    rw [List.forall_mem_cons, ← operand_eq_self_iff, ← ih, made, bind_cons_eq_ok, first]

theorem Expr.makeRaw_eq_self_iff {sql : Expr} {aliasName : Name} {template : Flag}
    {bs : List (Name × Expr)} :
    makeRaw sql aliasName template (.ok (bs.map .ok)) = .ok (.raw sql aliasName template bs) ↔
      ∀ b ∈ bs, b.2.isExpr = true := by
  rw [← namedOperands_eq_self_iff]
  simp only [makeRaw, ok_bind, bind_eq_ok]
  constructor
  · rintro ⟨_, h, ⟨⟩⟩
    exact h
  · exact fun h => ⟨bs, h, rfl⟩

/-! ## Changes of a table -/

/-- The rows of an insert have the width of its columns; a select may also have no items. -/
theorem InsertSource.make_eq_self_iff {n : Nat} {source : InsertSource} :
    make n source.lists source.query? = .ok source ↔
      match source with
      | .rows lists => lists ≠ [] ∧ ∀ row ∈ lists, row.length = n
      | .query s | .draft s => checkWidth n s = .ok () := by
  cases source with
  | rows lists =>
    cases lists with
    | nil => exact iff_of_false refuse_ne_ok fun h => h.1 rfl
    | cons row rest =>
      have made : make n (row :: rest) none =
          checkRowWidths n 0 (row :: rest) >>= fun _ => .ok (.rows (row :: rest)) := rfl
      rw [lists, query?, made, after_eq_ok, checkRowWidths_eq_ok_iff]
      simp
  | query s =>
    have made : make n [] (some (.select s)) = checkWidth n s >>= fun _ => .ok (.query s) := rfl
    rw [lists, query?, made, after_eq_ok]
    simp
  | draft s =>
    have made : make n [] (some (.draft s)) = checkWidth n s >>= fun _ => .ok (.draft s) := rfl
    rw [lists, query?, made, after_eq_ok]
    simp

/-- The rows of an insert are those that were given. -/
theorem InsertSource.lists_of_make {n : Nat} {rows : List (List Expr)} {query : Option Query}
    {source : InsertSource} (h : make n rows query = .ok source) : source.lists = rows := by
  unfold make at h
  -- rows are given, or a query, but not both
  cases rows with
  | nil =>
    cases query with
    | none => exact absurd h refuse_ne_ok
    | some query =>
      cases query with
      | select s | draft s =>
        obtain ⟨-, ⟨⟩⟩ := after_eq_ok.mp h
        rfl
      | union _ | other _ => cases h
  | cons row rest =>
    cases query with
    | none =>
      obtain ⟨-, ⟨⟩⟩ := after_eq_ok.mp h
      rfl
    | some query => exact absurd h refuse_ne_ok

/-- An insert is checked for its values, its columns and the width of its rows. -/
theorem Insert.isMade_iff {i : Insert} : i.IsMade ↔
    (∀ row ∈ i.source.lists, ∀ e ∈ row, e.isExpr = true) ∧ i.columns ≠ [] ∧
      refuseRepeated .insert i.columns = .ok () ∧
      InsertSource.make i.columns.length i.source.lists i.source.query? = .ok i.source := by
  obtain ⟨target, columns, source, conflict, returning⟩ := i
  -- nothing is lost in taking what is returned from a record
  have made : make target (.ok columns) (.ok (source.lists.map .ok)) source.query? conflict
      (.ok (returning.map .item)) = (makeRows (source.lists.map .ok) >>= fun rows =>
        check target columns rows source.query? conflict returning) := by
    simp only [make, ok_bind, SelectItem.ofOperands_items]
  have checked {rows : List (List Expr)} :
      check target columns rows source.query? conflict returning =
        .ok ⟨target, columns, source, conflict, returning⟩ ↔
      columns ≠ [] ∧ refuseRepeated .insert columns = .ok () ∧
        InsertSource.make columns.length rows source.query? = .ok source := by
    unfold check
    cases columns with
    | nil => exact iff_of_false refuse_ne_ok fun h => h.1 rfl
    | cons name rest =>
      show (refuseRepeated .insert (name :: rest) >>= fun _ =>
        InsertSource.make (name :: rest).length rows source.query? >>= fun source =>
          .ok (Insert.mk target (name :: rest) source conflict returning)) = _ ↔ _
      rw [after_eq_ok]
      simp [bind_eq_ok]
  unfold IsMade
  rw [made, bind_eq_ok, ← makeRows_eq_self_iff]
  constructor
  · rintro ⟨rows, hrows, h⟩
    obtain ⟨hcolumns, hunique, hsource⟩ := checked.mp h
    obtain rfl : source.lists = rows := InsertSource.lists_of_make hsource
    exact ⟨hrows, hcolumns, hunique, hsource⟩
  · rintro ⟨hrows, h⟩
    exact ⟨_, hrows, checked.mpr h⟩

theorem Assignment.isMade_iff {a : Assignment} :
    a.IsMade ↔ a.column.isTrue = true ∧ a.value.isExpr = true := by
  obtain ⟨column, value⟩ := a
  unfold IsMade make
  split
  next hcolumn =>
    rw [← Expr.operand_eq_self_iff]
    cases value.operand <;> simp [Except.map, hcolumn]
  next hcolumn => exact iff_of_false refuse_ne_ok fun h => hcolumn h.1

/-- An update is checked for its assignments and its columns. -/
theorem Update.isMade_iff {u : Update} : u.IsMade ↔
    (∀ a ∈ u.assignments, a.IsMade) ∧ u.assignments ≠ [] ∧
      refuseRepeated .update (u.assignments.map (·.column)) = .ok () := by
  obtain ⟨target, assignments, filter, returning⟩ := u
  have made : make target (.ok (assignments.map .done)) filter (.ok (returning.map .item)) =
      check target assignments filter returning := by
    simp only [make, ok_bind, SelectItem.ofOperands_items, assignments?_done]
  unfold IsMade
  rw [made, check]
  refine and_congr_right fun _ => ?_
  cases assignments with
  | nil => exact iff_of_false refuse_ne_ok fun h => h.1 rfl
  | cons a rest =>
    show (refuseRepeated .update ((a :: rest).map (·.column)) >>= fun _ =>
      .ok (Update.mk target (a :: rest) filter returning)) = _ ↔ _
    rw [after_eq_ok]
    simp

theorem Delete.isMade (x : Delete) : x.IsMade := by
  simp only [IsMade, make, ok_bind, SelectItem.ofOperands_items]
  rfl

/-- A conflict is checked for its assignments and its columns. -/
theorem Conflict.isMade_iff {c : Conflict} : c.IsMade ↔
    (∀ a ∈ (ConflictClause.conflict c).assignments, a.IsMade) ∧
      refuseRepeated .conflictTarget c.target = .ok () ∧
      refuseRepeated .conflictUpdate
        ((ConflictClause.conflict c).assignments.map (·.column)) = .ok () ∧
      ∀ assignments filter, c.action = .update assignments filter →
        c.target ≠ [] ∧ assignments ≠ [] := by
  obtain ⟨target, action⟩ := c
  unfold IsMade
  refine and_congr_right fun _ => ?_
  -- with no action only the target is checked for names that come twice
  cases action with
  | nothing =>
    simp only [ConflictClause.assignments, ConflictClause.filter?]
    simp only [make, ok_bind, assignments?_done]
    constructor
    · rintro ⟨given, h⟩
      obtain ⟨word, -, h⟩ := bind_eq_ok.mp h
      obtain ⟨htarget, h⟩ := after_eq_ok.mp h
      refine ⟨htarget, rfl, ?_⟩
      rintro _ _ ⟨⟩
    · rintro ⟨htarget, -⟩
      refine ⟨.text "nothing", ?_⟩
      rw [choose_text (a := ConflictWord.nothing) (by decide) (by decide +kernel), ok_bind, htarget]
      rfl
  | update assignments filter =>
    simp only [ConflictClause.assignments, ConflictClause.filter?]
    simp only [make, ok_bind, assignments?_done]
    constructor
    · rintro ⟨given, h⟩
      obtain ⟨word, -, h⟩ := bind_eq_ok.mp h
      obtain ⟨htarget, h⟩ := after_eq_ok.mp h
      obtain ⟨hupdate, h⟩ := after_eq_ok.mp h
      refine ⟨htarget, hupdate, fun as' filter' hsame => ?_⟩
      cases hsame
      cases word with
      | update =>
        dsimp only at h
        split at h
        · exact absurd h refuse_ne_ok
        next hne =>
        split at h
        · exact absurd h refuse_ne_ok
        next hne' =>
        exact ⟨fun he => hne (List.isEmpty_iff.mpr he), fun he => hne' (List.isEmpty_iff.mpr he)⟩
      | nothing =>
        -- the other word gives another action
        dsimp only at h
        split at h
        · exact absurd h refuse_ne_ok
        · cases (Conflict.mk.inj (Except.ok.inj h)).2
    · rintro ⟨htarget, hupdate, hnonempty⟩
      obtain ⟨hne, hne'⟩ := hnonempty _ _ rfl
      refine ⟨.text "update", ?_⟩
      rw [choose_text (a := ConflictWord.update) (by decide) (by decide +kernel), ok_bind, htarget,
        ok_bind, hupdate, ok_bind]
      simp only [List.isEmpty_iff, hne, hne', if_false]
      rfl

end SqlScribe
