import SqlScribe.Proofs.Grounded
import SqlScribe.Proofs.Scopes
import SqlScribe.Proofs.Walk

/-!
# Stray references

A reference to an incoming value that no upsert replaces is a stray one, and raises an error where
it is written. `Strayed p x y` compares what is written where such references may stand, `x`, with
what is written where constants stand in their places, `y`. If there is a stray reference, which `p`
says, then `x` fails: with the error of the reference, unless something before it fails in the same
way in `y`. If there is none, both are the same.

Steps are taken from left to right and stop at the first error, so `Strayed` is kept by every
layout: there are references in the whole if there are any in the parts.
-/

namespace SqlScribe

/-- Whether an error is that of a stray reference. -/
def RenderError.isStray : RenderError → Bool
  | .strayExcluded _ => true
  | _ => false

/-- The errors of stray references carry the column that the reference names. -/
theorem RenderError.isStray_iff {r : RenderError} :
    r.isStray = true ↔ ∃ column, r = .strayExcluded column := by
  cases r <;> simp [isStray]

/-- Whether an outcome is the error of a stray reference only if `p` holds. -/
def Blames {α : Type} (p : Prop) (x : Rendered α) : Prop := ∀ r, x = .error r → r.isStray = true → p

/-- What is written with references, beside what is written with constants in their places. -/
structure Strayed {α : Type} (p : Prop) (x y : Rendered α) : Prop where
  same : ¬p → x = y
  fails : p → ∃ r, x = .error r ∧ (r.isStray = true ∨ y = .error r)
  calm : Blames False y

section

variable {α β : Type} {p q : Prop} {x y : Rendered α} {f g : α → Rendered β}

/-! ## Steps without references -/

/-- What succeeds blames nothing. -/
theorem blames_ok {a : α} : Blames p (.ok a) := nofun

/-- An error of another kind blames nothing. -/
theorem blames_error {r : RenderError} (h : r.isStray = false) : Blames (α := α) p (.error r) := by
  rintro _ ⟨⟩ hr
  exact absurd (h.symm.trans hr) Bool.false_ne_true

namespace Blames

/-- A weaker reason may be given for the same error. -/
theorem mono (h : Blames p x) (hpq : p → q) : Blames q x := fun r hx hr => hpq (h r hx hr)

/-- A step that knows what was before it. -/
theorem given (hx : Blames p x) (hf : ∀ a, x = .ok a → Blames p (f a)) : Blames p (x >>= f) := by
  cases x with
  | error r =>
    rintro _ ⟨⟩
    exact hx r rfl
  | ok a => exact hf a rfl

/-- Two steps in a row: neither raises the error of a reference without the reason. -/
theorem bind (hx : Blames p x) (hf : ∀ a, Blames p (f a)) : Blames p (x >>= f) :=
  hx.given fun a _ => hf a

theorem map (hx : Blames p x) (f : α → β) : Blames p (x.map f) :=
  hx.bind (f := fun a => .ok (f a)) fun _ => blames_ok

end Blames

/-- A list of steps, each with the same reason. -/
theorem blames_allOk {xs : List (Rendered α)} (h : ∀ x ∈ xs, Blames p x) :
    Blames p (allOk xs) := by
  induction xs with
  | nil => exact blames_ok
  | cons x rest ih =>
    obtain ⟨hx, hrest⟩ := List.forall_mem_cons.mp h
    exact hx.bind fun a => (ih hrest).bind fun as => blames_ok

/-- Texts that are missing are no fault of a reference. -/
theorem blames_requireTexts (es : List Expr) : Blames p (requireTexts es) := by
  unfold requireTexts
  split
  · exact blames_error rfl
  · exact blames_ok

/-- No name holds a reference: one that is no text has an error of its own. -/
theorem blames_nameOf (n : Name) : Blames p (nameOf n) := by
  unfold nameOf
  split
  · exact blames_ok
  · exact blames_error rfl

theorem blames_nameIn (qualifier n : Name) : Blames p (nameIn qualifier n) :=
  (blames_nameOf qualifier).bind fun _ => (blames_nameOf n).bind fun _ => blames_ok

theorem blames_namesOf (names : List Name) : Blames p (namesOf names) :=
  (blames_allOk (List.forall_mem_map.mpr fun n _ => blames_nameOf n)).map _

/-- A qualified name fails as its names do, if at all. -/
theorem blames_qualified (qualifier n : Name) : Blames p (qualified qualifier n) := by
  unfold qualified
  split
  · exact blames_nameIn qualifier n
  · exact blames_nameOf n

theorem blames_starOf (table : Name) : Blames p (starOf table) := by
  unfold starOf
  split
  · exact (blames_nameOf table).map _
  · exact blames_ok

theorem blames_tableName (schema n : Name) : Blames p (tableName schema n) := by
  refine (blames_nameOf n).bind fun f => ?_
  split
  · exact (blames_nameOf schema).bind fun _ => blames_ok
  · exact blames_ok

theorem blames_aliased (f : Fragment) (aliasName : Name) : Blames p (aliased f aliasName) := by
  unfold aliased
  split
  · exact (blames_nameOf aliasName).bind fun _ => blames_ok
  · exact blames_ok

theorem blames_rowToJsonSql (d : Dialect) (table : Name) (pretty : Bool) :
    Blames p (rowToJsonSql d table pretty) := by
  cases d with
  | postgres => exact (blames_nameOf table).map _
  | sqlite | mysql | mssql => exact blames_error rfl

/-- A window of another type has its own errors, which tell of its type and not of a column. -/
theorem blames_missingWindow (e : Expr) : Blames p (missingWindow e) := by
  unfold missingWindow
  split
  · exact blames_ok
  · split
    · exact blames_error rfl
    · exact blames_ok
  · exact blames_error rfl

theorem blames_rawChars (sql : Data) (aliasName : Name) : Blames p (rawChars sql aliasName) := by
  unfold rawChars
  split
  · split
    · exact blames_error rfl
    · exact blames_ok
  · split <;> exact blames_error rfl

theorem blames_joinKeyword (d : Dialect) (kind : JoinKind) : Blames p (joinKeyword d kind) := by
  unfold joinKeyword
  split
  · exact blames_error rfl
  · exact blames_ok

/-- An ordering by the key is refused for reasons of paging. Otherwise it consists of names. -/
theorem blames_orderByKey (source : Option Source) (items : List SelectItem) (distinct : Bool) :
    Blames p (orderByKey source items distinct) := by
  unfold orderByKey
  split
  next t =>
    split
    · exact blames_error rfl
    · split
      · split <;> exact blames_error rfl
      · exact (blames_allOk (List.forall_mem_map.mpr fun n _ => blames_nameIn _ n)).bind fun _ =>
          blames_ok
  · exact blames_error rfl

/-- Counting rows may call for an ordering by the key. The numbers alone never fail. -/
theorem blames_rowClauses (d : Dialect) (source : Option Source) (items : List SelectItem)
    (distinct : Bool) (order : List Fragment) (limit offset : Option Nat) :
    Blames p (rowClauses d source items distinct order limit offset) := by
  unfold rowClauses
  split
  · dsimp only
    split
    · exact (blames_orderByKey source items distinct).bind fun _ => blames_ok
    · exact blames_ok
  · exact blames_ok

theorem blames_targetOf (o : Source) : Blames p (targetOf o) := by
  cases o with
  | table t => exact blames_tableName t.schema t.name
  | derived _ _ | other _ => exact blames_error rfl

/-! ## Steps with references -/

/-- A step without references. -/
theorem strayed_none (h : Blames False x) : Strayed False x x := ⟨fun _ => rfl, nofun, h⟩

/-- A step that fails before anything is written. -/
theorem strayed_error {r : RenderError} (h : r.isStray = false) :
    Strayed (α := α) p (.error r) (.error r) :=
  ⟨fun _ => rfl, fun _ => ⟨r, rfl, .inr rfl⟩, blames_error h⟩

namespace Strayed

/-- The reason may be replaced by an equivalent one. -/
theorem congr (h : Strayed p x y) (hpq : q ↔ p) : Strayed q x y :=
  ⟨fun hq => h.same (mt hpq.mpr hq), fun hq => h.fails (hpq.mp hq), h.calm⟩

theorem of_eq {x' y' : Rendered α} (h : Strayed p x y) (hx : x' = x) (hy : y' = y) :
    Strayed p x' y' := by
  rw [hx, hy]
  exact h

/-- The error of a stray reference comes from a reference. -/
theorem blames (h : Strayed p x y) : Blames p x := fun r hx hr => by
  by_contra hp
  exact h.calm r (h.same hp ▸ hx) hr

/-- A reference in either step is a reference in both together. -/
theorem bind (h : Strayed p x y) (hf : ∀ a, Strayed q (f a) (g a)) :
    Strayed (p ∨ q) (x >>= f) (y >>= g) := by
  refine ⟨fun hpq => ?_, fun hpq => ?_, h.calm.bind fun a => (hf a).calm⟩
  · rw [h.same fun hp => hpq (.inl hp)]
    exact bind_congr fun a => (hf a).same fun hq => hpq (.inr hq)
  · by_cases hp : p
    · obtain ⟨r, rfl, hr⟩ := h.fails hp
      exact ⟨r, rfl, hr.imp_right fun hy => by rw [hy]; rfl⟩
    · -- up to here both sides are the same
      rw [h.same hp]
      cases y with
      | error r => exact ⟨r, rfl, .inr rfl⟩
      | ok a => exact (hf a).fails (hpq.resolve_left hp)

/-- The last step in which there may be references. -/
theorem last (h : Strayed p x y) (hf : ∀ a, Blames False (f a)) : Strayed p (x >>= f) (y >>= f) :=
  (h.bind fun a => strayed_none (hf a)).congr (or_false p).symm.to_iff

/-- What is done with the result afterwards does not fail. -/
theorem map (h : Strayed p x y) (f : α → β) : Strayed p (x.map f) (y.map f) :=
  h.last (f := fun a => .ok (f a)) fun _ => blames_ok

end Strayed

/-- A step before the first in which there may be references. -/
theorem strayed_after (hx : Blames False x) (hf : ∀ a, Strayed q (f a) (g a)) :
    Strayed q (x >>= f) (x >>= g) :=
  ((strayed_none hx).bind hf).congr (false_or q).symm.to_iff

/-- A step before the first in which there may be references, taken alike on both sides. -/
theorem strayed_step (hxy : y = x) (hx : Blames False x) (hf : ∀ a, Strayed q (f a) (g a)) :
    Strayed q (x >>= f) (y >>= g) := by
  rw [hxy]
  exact strayed_after hx hf

end

/-! ## Lists -/

section

variable {α ι : Type} {p : ι → Prop} {x y : ι → Rendered α} {is : List ι}

/-- A list with a reference in one of its members. -/
theorem strayed_each (h : ∀ i ∈ is, Strayed (p i) (x i) (y i)) :
    Strayed (∃ i ∈ is, p i) (allOk (is.map x)) (allOk (is.map y)) := by
  -- the references of the whole list are those of the first member and those of the rest
  induction is with
  | nil => exact (strayed_none blames_ok).congr (by simp)
  | cons i rest ih =>
    obtain ⟨hi, hrest⟩ := List.forall_mem_cons.mp h
    exact (hi.bind fun a => (ih hrest).last fun as => blames_ok).congr (by simp)

end

/-! ## Trees -/

/-- A tree with constants in place of references to incoming values. -/
def Tree.grounded : Tree → Tree
  | .expr e => .expr e.grounded
  | .select s => .select s.grounded

/-- Whether a dialect writes a reference to an incoming value in a tree. -/
def Tree.HasExcluded (d : Dialect) (t : Tree) : Prop :=
  ∃ column, Tree.expr (.excluded column) ∈ t.writtenNodes d

/-- Whether a reference in a tree raises its error wherever it is written. -/
abbrev Strays (d : Dialect) (t : Tree) : Prop :=
  Strayed (t.HasExcluded d) (t.render d) (t.grounded.render d)

section

variable {d : Dialect} {p q : Prop} {w v w' v' : Rendered Fragment}
  {ws vs : List (Rendered Fragment)} {es : List Expr}

/-- A list of expressions, written one by one. -/
theorem strayed_renderEach (h : ∀ e ∈ es, Strays d (.expr e)) :
    Strayed (∃ e ∈ es, (Tree.expr e).HasExcluded d) (allOk (renderEach d es))
      (allOk (renderEach d (es.map Expr.grounded))) := by
  rw [renderEach_eq_map, renderEach_eq_map, List.map_map]
  exact strayed_each h

theorem strayed_one (h : Strayed p w v) : Strayed p (allOk [w]) (allOk [v]) :=
  h.last fun _ => blames_ok

/-- Texts are required of both lists alike, since a constant is as much a text as a reference. -/
theorem strayed_textsOf (es : List Expr) (h : Strayed p (allOk ws) (allOk vs)) :
    Strayed p (textsOf es ws) (textsOf (es.map Expr.grounded) vs) := by
  unfold textsOf
  rw [requireTexts_grounded]
  exact h.last fun fs => (blames_requireTexts es).bind fun _ => blames_ok

/-! ## Operands and conditions -/

/-- An operand is held together alike on both sides, as its kind is the same. -/
theorem strayed_operandOf (e : Expr) (h : Strayed p w v) :
    Strayed p (operandOf e w) (operandOf e.grounded v) := by
  unfold operandOf
  rw [Expr.isCompound_pass]
  split
  · exact h.map _
  · exact h

/-- A condition. SQL Server writes the constant in the place of a reference as a comparison, and the
reference is an error all the same. -/
theorem strayed_predicateOf {e : Expr} (h : Strays d (.expr e)) :
    Strayed ((Tree.expr e).HasExcluded d) (predicateOf d e (e.render d))
      (predicateOf d e.grounded (e.grounded.render d)) := by
  -- a reference is no constant, so only these two kinds of expression are treated differently
  cases e with
  | excluded c =>
    have constant : Blames False (predicateOf d (.truth c) ((Expr.truth c).render d)) := by
      cases d <;> exact blames_ok
    have failing : predicateOf d (.excluded c) ((Expr.excluded c).render d) =
        .error (.strayExcluded c.view) := by cases d <;> rfl
    rw [failing]
    exact ⟨fun hp => (nomatch h.same hp), fun _ => ⟨_, rfl, .inl rfl⟩, constant⟩
  | truth value =>
    -- a constant is written differently as a condition, but no reference stands in it
    have none : ¬(Tree.expr (.truth value)).HasExcluded d := fun hp => by
      obtain ⟨r, hr, -⟩ := h.fails hp
      cases hr
    refine (strayed_none ?_).congr (iff_false_intro none)
    cases d <;> exact blames_ok
  | _ => cases d <;> exact h

/-- A condition under a connective. -/
theorem strayed_conditionOf {e : Expr} (h : Strays d (.expr e)) :
    Strayed ((Tree.expr e).HasExcluded d) (conditionOf d e (e.render d))
      (conditionOf d e.grounded (e.grounded.render d)) := by
  unfold conditionOf
  rw [Expr.isLogical_pass]
  dsimp only
  split
  · exact (strayed_predicateOf h).map _
  · exact strayed_predicateOf h

/-- The conditions under one connective. -/
theorem strayed_conditionsOf (op : Connective) (h : ∀ e ∈ es, Strays d (.expr e)) :
    Strayed (∃ e ∈ es, (Tree.expr e).HasExcluded d) (conditionsOf d op es (renderEach d es))
      (conditionsOf d op (es.map Expr.grounded) (renderEach d (es.map Expr.grounded))) := by
  have conditions : Strayed (∃ e ∈ es, (Tree.expr e).HasExcluded d)
      (allOk (es.zipWith (conditionOf d) (renderEach d es)))
      (allOk ((es.map Expr.grounded).zipWith (conditionOf d)
        (renderEach d (es.map Expr.grounded)))) := by
    -- each expression stands beside its own text, so the two lists are one
    rw [renderEach_eq_map, renderEach_eq_map, List.zipWith_map_right, List.zipWith_self,
      List.zipWith_map_right, List.zipWith_self, List.map_map]
    exact strayed_each fun e he => strayed_conditionOf (h e he)
  exact (strayed_textsOf es conditions).map _

/-! ## Memberships -/

/-- A membership: the expression is written before the items. -/
theorem strayed_membershipOf (e : Expr) (es : List Expr) (negated : Bool) (h : Strayed p w v)
    (hs : Strayed q (allOk ws) (allOk vs)) :
    Strayed (p ∨ q) (membershipOf e w es ws negated)
      (membershipOf e.grounded v (es.map Expr.grounded) vs negated) :=
  (strayed_operandOf e h).bind fun _ => (strayed_textsOf es hs).last fun _ => blames_ok

/-- A membership of a row. -/
theorem strayed_rowMembershipOf (negated : Bool) (h : Strayed p w v)
    (hs : Strayed q (allOk ws) (allOk vs)) :
    Strayed (p ∨ q) (rowMembershipOf d w ws negated) (rowMembershipOf d v vs negated) :=
  h.bind fun _ => hs.last fun _ => blames_ok

/-- A comparison of rows: the items of the row on the left are written once for each row. -/
theorem strayed_rowAlternativesOf {left : List Expr} (rows : List (List Expr)) (negated : Bool)
    (hl : ∀ e ∈ left, Strays d (.expr e)) (hr : ∀ row ∈ rows, ∀ e ∈ row, Strays d (.expr e)) :
    Strayed (∃ row ∈ rows, ∃ p ∈ left.zip row,
        (Tree.expr p.1).HasExcluded d ∨ (Tree.expr p.2).HasExcluded d)
      (rowAlternativesOf (left.map fun e => (e, e.render d))
        (rows.map (List.map fun e => (e, e.render d))) negated)
      (rowAlternativesOf ((left.map Expr.grounded).map fun e => (e, e.render d))
        (rows.map fun row => (row.map Expr.grounded).map fun e => (e, e.render d)) negated) := by
  have equality {l r : Expr} (hl : Strays d (.expr l)) (hr : Strays d (.expr r)) :
      Strayed ((Tree.expr l).HasExcluded d ∨ (Tree.expr r).HasExcluded d)
        (equalityOf (l, l.render d) (r, r.render d))
        (equalityOf (l.grounded, l.grounded.render d) (r.grounded, r.grounded.render d)) :=
    (strayed_operandOf l hl).bind fun _ => (strayed_operandOf r hr).last fun _ => blames_ok
  refine Strayed.last ?_ fun _ => blames_ok
  rw [List.map_map, List.map_map]
  refine strayed_each fun row hrow => Strayed.map ?_ _
  dsimp only
  -- two lists read in step are read as a list of pairs
  rw [List.zipWith_map, List.map_map, List.map_map, List.zipWith_map,
    ← List.map_uncurry_zip_eq_zipWith, ← List.map_uncurry_zip_eq_zipWith]
  refine strayed_each fun p hp => ?_
  obtain ⟨hleft, hright⟩ := List.of_mem_zip hp
  exact equality (hl p.1 hleft) (hr row hrow p.2 hright)

/-! ## JSON -/

/-- A part of a document. PostgreSQL takes its path as keys only. -/
theorem strayed_jsonPartOf (e : Expr) (path : JsonPath) (asText : Bool) (h : Strayed p w v) :
    Strayed p (jsonPartOf d e w path asText) (jsonPartOf d e.grounded v path asText) := by
  cases d with
  | sqlite | mysql | mssql => exact h.last fun _ => blames_ok
  | postgres =>
    cases path with
    | text s => exact strayed_error rfl
    | keys first rest => exact (strayed_operandOf e h).last fun _ => blames_ok

/-- The document is written before the value. Two dialects have no such predicate. -/
theorem strayed_jsonContainsSql (e : Expr) (negated : Bool) (h : Strayed p w v)
    (h' : Strayed q w' v') :
    Strayed (p ∨ q) (jsonContainsSql d e w w' negated)
      (jsonContainsSql d e.grounded v v' negated) :=
  match d with
  | .sqlite | .mssql => strayed_error rfl
  | .mysql => h.bind fun _ => h'.last fun _ => blames_ok
  | .postgres => (strayed_operandOf e h).bind fun _ => h'.last fun _ => blames_ok

/-- The document is written before the value, by all dialects that have the predicate. -/
theorem strayed_jsonEdgeSql (e : Expr) (edge : ArrayEdge) (negated : Bool) (h : Strayed p w v)
    (h' : Strayed q w' v') :
    Strayed (p ∨ q) (jsonEdgeSql d e w w' edge negated)
      (jsonEdgeSql d e.grounded v v' edge negated) :=
  match d with
  | .mssql => strayed_error rfl
  | .mysql => h.bind fun _ => h'.last fun _ => blames_ok
  | .sqlite | .postgres => (strayed_operandOf e h).bind fun _ => h'.last fun _ => blames_ok

/-- A test of the type adds no text that could fail. -/
theorem strayed_jsonTypeSql (type : JsonType) (h : Strayed p w v) :
    Strayed p (jsonTypeSql d w type) (jsonTypeSql d v type) := by
  unfold jsonTypeSql
  split
  · exact strayed_error rfl
  · refine h.last fun _ => ?_
    dsimp only
    split <;> exact blames_ok

/-! ## Full-text search -/

/-- The columns of a full-text search. -/
theorem strayed_searchedColumns (es : List Expr) (h : Strayed p (allOk ws) (allOk vs)) :
    Strayed p (searchedColumns d es ws) (searchedColumns d (es.map Expr.grounded) vs) := by
  unfold searchedColumns
  rw [requireTexts_grounded]
  split
  · refine h.last fun fs => ?_
    split
    · exact blames_ok
    · exact (blames_requireTexts es).bind fun _ => blames_ok
  · exact strayed_error rfl

/-- Searched columns and a query. The columns are those of the search if it is one. -/
theorem strayed_matchSql (e : Expr) (negated : Bool) (h : Strayed p w v)
    (hs : e.isTextSearch = true → Strayed p (allOk ws) (allOk vs)) (h' : Strayed q w' v') :
    Strayed (p ∨ q) (matchSql d e w ws w' negated) (matchSql d e.grounded v vs v' negated) := by
  have columns : Strayed p
      (textsOf (if e.isTextSearch then e.parts else [e]) (if e.isTextSearch then ws else [w]))
      (textsOf (if e.isTextSearch then e.grounded.parts else [e.grounded])
        (if e.isTextSearch then vs else [v])) := by
    cases hsearch : e.isTextSearch with
    | true =>
      rw [Expr.parts_pass]
      exact strayed_textsOf e.parts (hs hsearch)
    | false => exact strayed_textsOf [e] (strayed_one h)
  unfold matchSql
  rw [Expr.isTextSearch_pass]
  cases d with
  | sqlite => exact strayed_error rfl
  | mysql | mssql => exact columns.bind fun _ => h'.last fun _ => blames_ok
  | postgres => exact h.bind fun _ => h'.last fun _ => blames_ok

/-! ## Raw fragments -/

/-- The binding with a name is found under the same name among constants. -/
theorem bindingOf_grounded (bindings : List (Name × Expr)) (name : List Char) :
    bindingOf (passBindings grounding bindings) name =
      (bindingOf bindings name).map Expr.grounded := by
  unfold bindingOf
  rw [passBindings_eq_map, List.find?_map, Option.map_map, Option.map_map]
  rfl

/-- What is written for a mark is what its binding writes. -/
theorem boundTo_render (bindings : List (Name × Expr)) (name : List Char) :
    boundTo name (renderBindings d bindings) =
      (bindingOf bindings name).map fun e => (e, e.render d) := by
  rw [renderBindings_eq_map, boundTo_map]

/-- The expressions that fill a template, with constants in place of references. -/
theorem fillings_grounded (bindings : List (Name × Expr)) (parts : List Template.Part) :
    fillings (renderBindings d (passBindings grounding bindings)) parts =
      (fillings (renderBindings d bindings) parts).map Expr.grounded := by
  induction parts with
  | nil => rfl
  | cons part rest ih =>
    cases part with
    | text cs => rw [fillings, fillings, ih]
    | mark name =>
      rw [fillings, fillings, ih, boundTo_render, boundTo_render, bindingOf_grounded]
      cases bindingOf bindings name with
      | none => rfl
      -- an expression that is left out of the list is left out of both
      | some e => cases hblank : e.isBlank <;> simp [hblank]

/-- A template has the references of the expressions that it marks, once for each mark. -/
theorem strayed_fillTemplate (template : String) (bindings : List (Name × Expr))
    {parts : List Template.Part} (h : ∀ e ∈ markedBy bindings parts, Strays d (.expr e)) :
    Strayed (∃ e ∈ markedBy bindings parts, (Tree.expr e).HasExcluded d)
      (fillTemplate template (renderBindings d bindings) parts)
      (fillTemplate template (renderBindings d (passBindings grounding bindings)) parts) := by
  induction parts with
  | nil => exact (strayed_none blames_ok).congr (by simp [markedBy])
  | cons part rest ih =>
    cases part with
    | text cs => exact (ih h).last fun _ => blames_ok
    | mark name =>
      unfold fillTemplate
      rw [boundTo_render, boundTo_render, bindingOf_grounded]
      -- a mark without a binding is an error before anything else of it is written
      cases hb : bindingOf bindings name with
      | none => exact strayed_error rfl
      | some e =>
        rw [markedBy, hb, Option.toList_some, List.singleton_append] at h ⊢
        obtain ⟨he, hrest⟩ := List.forall_mem_cons.mp h
        simp only [Option.map_some, Expr.isBlank_pass]
        exact (he.bind fun f => (ih hrest).last fun _ => blames_ok).congr (by simp)

/-- A raw text has references only where it is a template whose text is one. -/
theorem strayed_rawText (sql : Data) (aliasName : Name) (template : Bool)
    (bindings : List (Name × Expr))
    (h : ∀ e ∈ rawParts sql aliasName template bindings, Strays d (.expr e)) :
    Strayed (∃ e ∈ rawParts sql aliasName template bindings, (Tree.expr e).HasExcluded d)
      (rawText sql aliasName template (renderBindings d bindings))
      (rawText sql aliasName template (renderBindings d (passBindings grounding bindings))) := by
  have chars := blames_rawChars (p := False) sql aliasName
  unfold rawText rawParts at *
  cases template with
  | false =>
    refine (strayed_none ?_).congr (by simp)
    split
    · exact blames_ok
    · exact chars.bind fun _ => blames_ok
  | true =>
    simp only [Bool.not_true, Bool.and_false, Bool.false_eq_true, if_false] at h ⊢
    cases hchars : rawChars sql aliasName with
    | error r =>
      -- the text itself fails, and no mark is looked at
      refine (strayed_none ?_).congr (by simp)
      rintro _ ⟨⟩
      exact chars r hchars
    | ok cs =>
      rw [hchars] at h
      refine ((strayed_fillTemplate sql.plain bindings h).bind (q := False) fun filled => ?_).congr
        (or_false _).symm.to_iff
      rw [fillings_grounded, requireTexts_grounded]
      exact strayed_none ((blames_requireTexts _).bind fun _ => blames_ok)

end

end SqlScribe
