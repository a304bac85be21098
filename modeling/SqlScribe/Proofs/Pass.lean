import SqlScribe.Proofs.Looks
import SqlScribe.Statement

/-!
# Passes over a tree

A pass goes over a whole tree from the leaves up. It changes the root of every expression once the
expressions below are done, as the role of its place asks for, and every select once its clauses are
done (`Pass`). To forget what a statement binds, to exchange its selects, to fill in references and
to spell out constants are passes, so what does not depend on the change is said here for all of
them: lists are gone over item by item, and an expression keeps the looks that layouts ask for if
roots do (`Pass.KeepsLooks`).

Names and switches are no places for an expression, and are left alone. What stands in the place of
a query, of a source or of a join and is none, and what is listed in a tuple, is gone over only if
the pass says in which role.
-/

namespace SqlScribe

/-- What an expression is in the place where it stands: a condition as the operand of `NOT`, `AND`
and `OR`, as the condition of a select, of its groups, of a join and of a change, and a value
anywhere else. -/
inductive Role where
  | value
  | condition
deriving DecidableEq, Repr

/-- What is done to the nodes of a tree. -/
structure Pass where
  /-- Done to the root of an expression in a place with this role. -/
  root : Role → Expr → Expr
  /-- Done to a select. -/
  select : Select → Select
  /-- The role of what stands in the place of a query, a source or a join and is none. -/
  stranger : Option Role
  /-- The role of the members of a tuple. -/
  member : Option Role

namespace Pass

variable (P : Pass)

/-- Done to the root of a value. -/
abbrev value : Expr → Expr := P.root .value

/-- Done to the root of a condition. -/
abbrev condition : Expr → Expr := P.root .condition

/-- What is put in a place that may have no role, where an expression stood that is done inside. -/
def put : Option Role → Expr → Expr → Expr
  | none, e, _ => e
  | some role, _, done => P.root role done

end Pass

mutual

/-- An expression that is done but for its root. -/
def Expr.inner (P : Pass) : Expr → Expr
  | .not operand => .not (P.condition (operand.inner P))
  | .isNull operand negated => .isNull (P.value (operand.inner P)) negated
  | .binary op left right => .binary op (P.value (left.inner P)) (P.value (right.inner P))
  | .logical op first rest => .logical op (P.condition (first.inner P)) (passAll P .condition rest)
  | .inList operand items negated =>
    .inList (P.value (operand.inner P)) (passAll P .value items) negated
  | .inQuery operand query negated => .inQuery (P.value (operand.inner P)) (query.pass P) negated
  | .between operand low high negated =>
    .between (P.value (operand.inner P)) (P.value (low.inner P)) (P.value (high.inner P)) negated
  | .exists query negated => .exists (query.pass P) negated
  | .scalar query => .scalar (query.pass P)
  | .row first rest => .row (P.value (first.inner P)) (passAll P .value rest)
  | .call name args distinct => .call name (passAll P .value args) distinct
  | .cast operand target => .cast (P.value (operand.inner P)) target
  | .coalesce parts => .coalesce (passAll P .value parts)
  | .concat parts => .concat (passAll P .value parts)
  | .aggregateText operand => .aggregateText (P.value (operand.inner P))
  | .sorted operand direction => .sorted (P.value (operand.inner P)) direction
  | .window partition order => .window (passAll P .value partition) (passAll P .value order)
  | .over name args spec => .over name (passAll P .value args) (P.value (spec.inner P))
  | .jsonExtract document path asText => .jsonExtract (P.value (document.inner P)) path asText
  | .jsonContains document value negated =>
    .jsonContains (P.value (document.inner P)) (P.value (value.inner P)) negated
  | .jsonEdge document value edge negated =>
    .jsonEdge (P.value (document.inner P)) (P.value (value.inner P)) edge negated
  | .jsonType document type => .jsonType (P.value (document.inner P)) type
  | .textSearch first rest => .textSearch (P.value (first.inner P)) (passAll P .value rest)
  | .matches search query negated =>
    .matches (P.value (search.inner P)) (P.value (query.inner P)) negated
  | .raw sql aliasName template bindings => .raw sql aliasName template (passBindings P bindings)
  | .tuple items =>
    .tuple (match P.member with
      | none => items
      | some role => passAll P role items)
  | .column table name => .column table name
  | .star table => .star table
  | .literal value => .literal value
  | .truth value => .truth value
  | .rowToJson table pretty => .rowToJson table pretty
  | .excluded column => .excluded column
  | .image side column => .image side column
  | .foreign object => .foreign object

/-- The expressions of a list, passed over in one role. -/
def passAll (P : Pass) (role : Role) : List Expr → List Expr
  | [] => []
  | e :: rest => P.root role (e.inner P) :: passAll P role rest

/-- Named expressions, passed over under their names. -/
def passBindings (P : Pass) : List (Name × Expr) → List (Name × Expr)
  | [] => []
  | b :: rest => passBinding P b :: passBindings P rest

/-- A named expression, passed over under its name. -/
def passBinding (P : Pass) : Name × Expr → Name × Expr
  | (name, e) => (name, P.value (e.inner P))

/-- An optional condition, passed over. -/
def passFilter (P : Pass) : Option Expr → Option Expr
  | none => none
  | some e => some (P.condition (e.inner P))

/-- A query, passed over. A select that was never finished is none. -/
def Query.pass (P : Pass) : Query → Query
  | .select s => .select (P.select (s.inner P))
  | .union u => .union (u.pass P)
  | .draft s =>
    .draft (match P.stranger with
      | none => s
      | some _ => s.inner P)
  | .other object => .other (P.put P.stranger object (object.inner P))

/-- A union, passed over. -/
def Union.pass (P : Pass) : Union → Union
  | ⟨members, kind⟩ => ⟨passSelects P members, kind⟩

/-- The selects of a list, passed over. -/
def passSelects (P : Pass) : List Select → List Select
  | [] => []
  | s :: rest => P.select (s.inner P) :: passSelects P rest

/-- A select whose clauses are done. -/
def Select.inner (P : Pass) : Select → Select
  | ⟨items, source, joins, filter, groupBy, having, orderBy, limit, offset, distinct⟩ =>
    ⟨passItems P items, passOrigin P source, passJoins P joins, passFilter P filter,
      passAll P .value groupBy, passFilter P having, passAll P .value orderBy, limit, offset,
      distinct⟩

/-- An optional source, passed over. -/
def passOrigin (P : Pass) : Option Source → Option Source
  | none => none
  | some o => some (o.pass P)

/-- A source, passed over. -/
def Source.pass (P : Pass) : Source → Source
  | .table t => .table t
  | .derived query aliasName => .derived (query.pass P) aliasName
  | .other object => .other (P.put P.stranger object (object.inner P))

/-- The items of a projection, passed over. -/
def passItems (P : Pass) : List SelectItem → List SelectItem
  | [] => []
  | i :: rest => i.pass P :: passItems P rest

/-- An item of a projection, passed over under its alias. -/
def SelectItem.pass (P : Pass) : SelectItem → SelectItem
  | ⟨e, aliasName⟩ => ⟨P.value (e.inner P), aliasName⟩

/-- The joins of a list, passed over. -/
def passJoins (P : Pass) : List Join → List Join
  | [] => []
  | j :: rest => j.pass P :: passJoins P rest

/-- A join, passed over. -/
def Join.pass (P : Pass) : Join → Join
  | .join right on kind => .join (right.pass P) (passFilter P on) kind
  | .other object => .other (P.put P.stranger object (object.inner P))

end

/-- An expression in a place with a role, passed over. -/
abbrev Expr.pass (P : Pass) (role : Role) (e : Expr) : Expr := P.root role (e.inner P)

/-- A select, passed over. -/
abbrev Select.pass (P : Pass) (s : Select) : Select := P.select (s.inner P)

/-! ## Lists and options -/

section

variable (P : Pass)

/-- A list is gone over item by item. -/
@[simp] theorem passAll_eq_map (role : Role) (es : List Expr) :
    passAll P role es = es.map fun e => e.pass P role := by
  induction es with
  | nil => rfl
  | cons e rest ih => rw [passAll, ih, List.map_cons]

/-- Bindings keep their names. -/
theorem passBindings_eq_map (bs : List (Name × Expr)) :
    passBindings P bs = bs.map fun b => (b.1, b.2.pass P .value) := by
  induction bs with
  | nil => rfl
  | cons b rest ih => rw [passBindings, ih, List.map_cons, passBinding]

@[simp] theorem passFilter_eq_map (filter : Option Expr) :
    passFilter P filter = filter.map fun e => e.pass P .condition := by
  cases filter <;> rfl

theorem passSelects_eq_map (ss : List Select) :
    passSelects P ss = ss.map fun s => s.pass P := by
  induction ss with
  | nil => rfl
  | cons s rest ih => rw [passSelects, ih, List.map_cons]

@[simp] theorem passItems_eq_map (items : List SelectItem) :
    passItems P items = items.map fun i => i.pass P := by
  induction items with
  | nil => rfl
  | cons i rest ih => rw [passItems, ih, List.map_cons]

@[simp] theorem passJoins_eq_map (joins : List Join) :
    passJoins P joins = joins.map fun j => j.pass P := by
  induction joins with
  | nil => rfl
  | cons j rest ih => rw [passJoins, ih, List.map_cons]

@[simp] theorem passOrigin_eq_map (source : Option Source) :
    passOrigin P source = source.map fun o => o.pass P := by
  cases source <;> rfl

/-- An item keeps its alias. -/
theorem SelectItem.pass_eq (i : SelectItem) :
    i.pass P = ⟨i.expr.pass P .value, i.aliasName⟩ := by
  cases i
  rfl

/-- The members of a union are gone over one by one. -/
theorem Union.members_pass (u : Union) : (u.pass P).members = u.members.map fun s => s.pass P := by
  cases u
  exact passSelects_eq_map P _

/-! The clauses of a select are done one by one. -/

section

variable (s : Select)

@[simp] theorem Select.items_inner : (s.inner P).items = s.items.map fun i => i.pass P := by
  cases s
  exact passItems_eq_map P _

@[simp] theorem Select.source_inner : (s.inner P).source = s.source.map fun o => o.pass P := by
  cases s
  exact passOrigin_eq_map P _

@[simp] theorem Select.joins_inner : (s.inner P).joins = s.joins.map fun j => j.pass P := by
  cases s
  exact passJoins_eq_map P _

@[simp] theorem Select.having_inner :
    (s.inner P).having = s.having.map fun e => e.pass P .condition := by
  cases s
  exact passFilter_eq_map P _

@[simp] theorem Select.orderBy_inner :
    (s.inner P).orderBy = s.orderBy.map fun e => e.pass P .value := by
  cases s
  exact passAll_eq_map P .value _

@[simp] theorem Select.limit_inner : (s.inner P).limit = s.limit := by
  cases s
  rfl

@[simp] theorem Select.offset_inner : (s.inner P).offset = s.offset := by
  cases s
  rfl

@[simp] theorem Select.distinct_inner : (s.inner P).distinct = s.distinct := by
  cases s
  rfl

end

/-- A table is the source of a select before a pass and after it. -/
theorem passOrigin_eq_table_iff (source : Option Source) (t : Table) :
    passOrigin P source = some (.table t) ↔ source = some (.table t) := by
  rcases source with _ | _ | _ | _ <;> simp [Source.pass]

/-- The expressions without an alias stay those without an alias. -/
theorem unnamed_pass (items : List SelectItem) :
    unnamed (items.map fun i => i.pass P) = (unnamed items).map fun e => e.pass P .value :=
  unnamed_map (SelectItem.pass_eq P) items

end

/-! ## Statements -/

section

variable (P : Pass)

/-- An assignment, passed over. -/
def Assignment.pass (a : Assignment) : Assignment := ⟨a.column, a.value.pass P .value⟩

/-- What is done with a row that is already there, passed over. -/
def ConflictAction.pass : ConflictAction → ConflictAction
  | .nothing => .nothing
  | .update assignments filter =>
    .update (assignments.map (Assignment.pass P)) (passFilter P filter)

/-- A conflict, passed over. -/
def Conflict.pass (c : Conflict) : Conflict := ⟨c.target, c.action.pass P⟩

/-- A conflict clause, passed over. -/
def ConflictClause.pass : ConflictClause → ConflictClause
  | .conflict c => .conflict (c.pass P)
  | .other object => .other (P.put P.stranger object (object.inner P))

/-- The rows of an insert, passed over. A select that was never finished is none, and only what is
in it is gone over. -/
def InsertSource.pass : InsertSource → InsertSource
  | .rows lists => .rows (lists.map (passAll P .value))
  | .query s => .query (s.pass P)
  | .draft s => .draft (s.inner P)

/-- An insert, passed over. -/
def Insert.pass (i : Insert) : Insert :=
  ⟨i.target.pass P, i.columns, i.source.pass P, i.conflict.map (ConflictClause.pass P),
    passItems P i.returning⟩

/-- An update, passed over. -/
def Update.pass (u : Update) : Update :=
  ⟨u.target.pass P, u.assignments.map (Assignment.pass P), passFilter P u.filter,
    passItems P u.returning⟩

/-- A delete, passed over. -/
def Delete.pass (x : Delete) : Delete :=
  ⟨x.target.pass P, passFilter P x.filter, passItems P x.returning⟩

/-- A statement, passed over. -/
def Statement.pass : Statement → Statement
  | .select s => .select (s.pass P)
  | .union u => .union (u.pass P)
  | .insert i => .insert (i.pass P)
  | .update u => .update (u.pass P)
  | .delete x => .delete (x.pass P)

end

/-! ## Looks

The layout of a node asks for its kind, for the parts that are listed in it, and for the data of a
raw fragment; a check asks for the items of a row. -/

/-- Whether an expression looks like another one to all that write or check them. What is listed in
it may be changed by `h`. -/
structure Looks (h : Expr → Expr) (a b : Expr) : Prop where
  compound : a.isCompound = b.isCompound := by rfl
  textSearch : a.isTextSearch = b.isTextSearch := by rfl
  logical : a.isLogical = b.isLogical := by rfl
  star : a.isStar = b.isStar := by rfl
  expr : a.isExpr = b.isExpr := by rfl
  record : a.isRecord = b.isRecord := by rfl
  bare : a.bare? = b.bare? := by rfl
  shows : ∀ qualifier column aliasName, SelectItem.shows qualifier column ⟨a, aliasName⟩ =
    SelectItem.shows qualifier column ⟨b, aliasName⟩ := by intros; rfl
  parts : a.parts = b.parts.map h := by rfl
  rowItems : a.rowItems? = b.rowItems?.map (List.map h) := by rfl

namespace Looks

variable {h k : Expr → Expr} {a b c : Expr}

/-- An expression looks like itself. -/
theorem refl (e : Expr) : Looks id e e where
  parts := (List.map_id _).symm
  rowItems := by rw [List.map_id_fun, Option.map_id_fun, id]

/-- The root may be changed after what is listed in it. -/
theorem trans (hab : Looks id a b) (hbc : Looks h b c) : Looks h a c where
  compound := hab.compound.trans hbc.compound
  textSearch := hab.textSearch.trans hbc.textSearch
  logical := hab.logical.trans hbc.logical
  star := hab.star.trans hbc.star
  expr := hab.expr.trans hbc.expr
  record := hab.record.trans hbc.record
  bare := hab.bare.trans hbc.bare
  shows _ _ _ := (hab.shows _ _ _).trans (hbc.shows _ _ _)
  parts := by rw [hab.parts, List.map_id, hbc.parts]
  rowItems := by rw [hab.rowItems, List.map_id_fun, Option.map_id_fun, id, hbc.rowItems]

/-- An expression that looks like a row is one. -/
theorem isRow (hab : Looks h a b) : a.isRow = b.isRow := by
  rw [Expr.isRow, Expr.isRow, hab.rowItems, Option.isSome_map]

end Looks

/-- A pass whose changes of roots cannot be seen from outside. -/
class Pass.KeepsLooks (P : Pass) : Prop where
  root : ∀ role e, Looks id (P.root role e) e

/-- What is done below the root of an expression is seen in what is listed there alone. -/
theorem Expr.inner_looks (P : Pass) (e : Expr) :
    Looks (fun e => e.pass P .value) (e.inner P) e where
  -- the constructor stays, so every question that is answered by it alone is
  compound := by cases e <;> rfl
  textSearch := by cases e <;> rfl
  logical := by cases e <;> rfl
  star := by cases e <;> rfl
  expr := by cases e <;> rfl
  record := by cases e <;> rfl
  bare := by cases e <;> rfl
  shows := by cases e <;> intros <;> rfl
  parts := by cases e <;> simp [inner, parts]
  rowItems := by cases e <;> simp [inner, rowItems?]

namespace Pass

variable (P : Pass) [P.KeepsLooks]

/-- A whole pass is seen in the items that are listed alone, if changes of roots are not seen. -/
theorem looks (role : Role) (e : Expr) : Looks (fun e => e.pass P .value) (e.pass P role) e :=
  (KeepsLooks.root role _).trans (e.inner_looks P)

/-- A value that is passed over is laid out like the value. -/
theorem keepsLooks : SqlScribe.KeepsLooks fun e => e.pass P .value where
  compound e := (P.looks .value e).compound
  textSearch e := (P.looks .value e).textSearch
  bare e := (P.looks .value e).bare
  parts e := (P.looks .value e).parts

end Pass

section

variable (P : Pass) [P.KeepsLooks] (role : Role) (e : Expr)

@[simp] theorem Expr.isCompound_pass : (e.pass P role).isCompound = e.isCompound :=
  (P.looks role e).compound

@[simp] theorem Expr.isTextSearch_pass : (e.pass P role).isTextSearch = e.isTextSearch :=
  (P.looks role e).textSearch

@[simp] theorem Expr.isLogical_pass : (e.pass P role).isLogical = e.isLogical :=
  (P.looks role e).logical

@[simp] theorem Expr.isStar_pass : (e.pass P role).isStar = e.isStar := (P.looks role e).star

@[simp] theorem Expr.isExpr_pass : (e.pass P role).isExpr = e.isExpr := (P.looks role e).expr

@[simp] theorem Expr.isRecord_pass : (e.pass P role).isRecord = e.isRecord :=
  (P.looks role e).record

@[simp] theorem Expr.isBlank_pass : (e.pass P role).isBlank = e.isBlank := by
  rw [isBlank, isBlank, (P.looks role e).bare]

@[simp] theorem Expr.isRow_pass : (e.pass P role).isRow = e.isRow := (P.looks role e).isRow

@[simp] theorem Expr.parts_pass :
    (e.pass P role).parts = e.parts.map fun e => e.pass P .value := (P.looks role e).parts

@[simp] theorem Expr.rowItems?_pass :
    (e.pass P role).rowItems? = e.rowItems?.map (List.map fun e => e.pass P .value) :=
  (P.looks role e).rowItems

end

section

variable (P : Pass) [P.KeepsLooks]

/-- Texts are missing after a pass where they are missing before. -/
theorem requireTexts_pass (role : Role) (es : List Expr) :
    requireTexts (es.map fun e => e.pass P role) = requireTexts es :=
  requireTexts_map (fun e => (P.looks role e).bare) es

/-- Texts are laid out after a pass as before. -/
theorem textsOf_pass (role : Role) (es : List Expr) (ws : List (Rendered Fragment)) :
    textsOf (es.map fun e => e.pass P role) ws = textsOf es ws := by
  unfold textsOf
  rw [requireTexts_pass P]

/-- An item shows the same columns after a pass as before. -/
theorem shows_pass (qualifier column : Name) (i : SelectItem) :
    (i.pass P).shows qualifier column = i.shows qualifier column := by
  obtain ⟨e, aliasName⟩ := i
  exact (P.looks .value e).shows qualifier column aliasName

/-- The order by primary key does not depend on what is changed by a pass. -/
theorem rowClauses_pass {d : Dialect} (source : Option Source) (items : List SelectItem)
    (distinct : Bool) (order : List Fragment) (limit offset : Option Nat) :
    rowClauses d (passOrigin P source) (items.map fun i => i.pass P) distinct order limit offset =
      rowClauses d source items distinct order limit offset :=
  rowClauses_map d (passOrigin_eq_table_iff P source) (shows_pass P) items distinct order limit
    offset

end

end SqlScribe
