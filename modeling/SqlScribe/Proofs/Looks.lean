import SqlScribe.Render.Query

/-!
# What layouts look at

A layout is given the parts of a node beside what is written for them. It looks at few things of the
parts themselves: whether they need parentheses, whether they are rows or lists of columns to
search, and whether they are raw data. A function on expressions that keeps these keeps every layout
(`KeepsLooks`), whatever else it does to the parts.

The order by a primary key looks at the source of a select and at its items, but only for the table
and for the columns that are shown (`rowClauses_map`).
-/

namespace SqlScribe

/-- Texts are asked for by looking for raw data. -/
theorem requireTexts_map {h : Expr → Expr} (hbare : ∀ e, (h e).bare? = e.bare?) (es : List Expr) :
    requireTexts (es.map h) = requireTexts es := by
  unfold requireTexts
  rw [List.any_map]
  simp only [Function.comp_def, hbare]

/-- Whether a function on expressions keeps what the layouts look at. -/
structure KeepsLooks (h : Expr → Expr) : Prop where
  compound : ∀ e, (h e).isCompound = e.isCompound
  textSearch : ∀ e, (h e).isTextSearch = e.isTextSearch
  bare : ∀ e, (h e).bare? = e.bare?
  parts : ∀ e, (h e).parts = e.parts.map h

namespace KeepsLooks

variable {h : Expr → Expr} {d : Dialect}

/-! ## Operands and lists -/

theorem isBlank (hh : KeepsLooks h) (e : Expr) : (h e).isBlank = e.isBlank := by
  rw [Expr.isBlank, Expr.isBlank, hh.bare]

theorem requireTexts (hh : KeepsLooks h) (es : List Expr) :
    requireTexts (es.map h) = SqlScribe.requireTexts es :=
  requireTexts_map hh.bare es

theorem textsOf (hh : KeepsLooks h) (es : List Expr) (ws : List (Rendered Fragment)) :
    textsOf (es.map h) ws = SqlScribe.textsOf es ws := by
  unfold SqlScribe.textsOf
  rw [hh.requireTexts]

theorem operandOf (hh : KeepsLooks h) (e : Expr) (w : Rendered Fragment) :
    operandOf (h e) w = SqlScribe.operandOf e w := by
  unfold SqlScribe.operandOf
  rw [hh.compound]

theorem membershipOf (hh : KeepsLooks h) (e : Expr) (w : Rendered Fragment) (es : List Expr)
    (ws : List (Rendered Fragment)) (negated : Bool) :
    membershipOf (h e) w (es.map h) ws negated = SqlScribe.membershipOf e w es ws negated := by
  unfold SqlScribe.membershipOf
  rw [hh.operandOf, hh.textsOf]

/-! ## JSON and full-text search -/

section

variable (hh : KeepsLooks h) (e : Expr) (w v : Rendered Fragment)

include hh

theorem searchedColumns (es : List Expr) (ws : List (Rendered Fragment)) :
    searchedColumns d (es.map h) ws = SqlScribe.searchedColumns d es ws := by
  unfold SqlScribe.searchedColumns
  simp only [hh.requireTexts]

theorem jsonPartOf (path : JsonPath) (asText : Bool) :
    jsonPartOf d (h e) w path asText = SqlScribe.jsonPartOf d e w path asText := by
  unfold SqlScribe.jsonPartOf
  rw [hh.operandOf]

theorem jsonContainsSql (negated : Bool) :
    jsonContainsSql d (h e) w v negated = SqlScribe.jsonContainsSql d e w v negated := by
  unfold SqlScribe.jsonContainsSql
  rw [hh.operandOf]

theorem jsonEdgeSql (edge : ArrayEdge) (negated : Bool) :
    jsonEdgeSql d (h e) w v edge negated = SqlScribe.jsonEdgeSql d e w v edge negated := by
  unfold SqlScribe.jsonEdgeSql
  rw [hh.operandOf]

theorem matchSql (parts : List (Rendered Fragment)) (negated : Bool) :
    matchSql d (h e) w parts v negated = SqlScribe.matchSql d e w parts v negated := by
  have columns : (if (h e).isTextSearch then (h e).parts else [h e]) =
      (if e.isTextSearch then e.parts else [e]).map h := by
    rw [hh.textSearch, hh.parts]
    split <;> rfl
  unfold SqlScribe.matchSql
  rw [columns, hh.textSearch]
  simp only [hh.textsOf]

end

/-! ## Rows -/

/-- An expression that is changed, beside what was written for it. -/
def beside (h : Expr → Expr) (p : Expr × Rendered Fragment) : Expr × Rendered Fragment :=
  (h p.1, p.2)

theorem zip_map (h : Expr → Expr) (es : List Expr) (ws : List (Rendered Fragment)) :
    (es.map h).zip ws = (es.zip ws).map (beside h) := by
  rw [List.zip_map_left]
  rfl

/-- The items of rows beside what is written for them. -/
theorem zip_parts (hh : KeepsLooks h) (es : List Expr) (rows : List (List (Rendered Fragment))) :
    List.zipWith List.zip ((es.map h).map Expr.parts) rows =
      (List.zipWith List.zip (es.map Expr.parts) rows).map (List.map (beside h)) := by
  induction es generalizing rows with
  | nil => rfl
  | cons e es ih =>
    cases rows with
    | nil => rfl
    | cons row rows =>
      rw [List.map_cons, List.map_cons, List.zipWith_cons_cons, ih, hh.parts, zip_map]
      rfl

theorem rowAlternativesOf (hh : KeepsLooks h) (left : List (Expr × Rendered Fragment))
    (rows : List (List (Expr × Rendered Fragment))) (negated : Bool) :
    rowAlternativesOf (left.map (beside h)) (rows.map (List.map (beside h))) negated =
      SqlScribe.rowAlternativesOf left rows negated := by
  have equality (l r : Expr × Rendered Fragment) :
      equalityOf (beside h l) (beside h r) = equalityOf l r := by
    unfold equalityOf beside
    rw [hh.operandOf, hh.operandOf]
  unfold SqlScribe.rowAlternativesOf
  rw [List.map_map]
  simp only [Function.comp_def, List.zipWith_map, equality]

/-! ## Raw fragments -/

/-- A named expression that is changed, beside what was written for it. -/
def named (h : Expr → Expr) (b : Name × Expr × Rendered Fragment) :
    Name × Expr × Rendered Fragment := (b.1, beside h b.2)

theorem boundTo_map (h : Expr → Expr) (name : List Char)
    (bindings : List (Name × Expr × Rendered Fragment)) :
    boundTo name (bindings.map (named h)) = (boundTo name bindings).map (beside h) := by
  unfold boundTo
  rw [List.find?_map, Option.map_map, Option.map_map]
  rfl

theorem fillTemplate (hh : KeepsLooks h) (template : String)
    (bindings : List (Name × Expr × Rendered Fragment)) (parts : List Template.Part) :
    fillTemplate template (bindings.map (named h)) parts =
      SqlScribe.fillTemplate template bindings parts := by
  induction parts with
  | nil => rfl
  | cons part rest ih =>
    cases part with
    | text cs => rw [SqlScribe.fillTemplate, SqlScribe.fillTemplate, ih]
    | mark name =>
      rw [SqlScribe.fillTemplate, SqlScribe.fillTemplate, ih, boundTo_map]
      cases boundTo name bindings with
      | none => rfl
      | some p =>
        obtain ⟨e, written⟩ := p
        simp only [Option.map_some, beside, hh.isBlank]

theorem fillings (hh : KeepsLooks h) (bindings : List (Name × Expr × Rendered Fragment))
    (parts : List Template.Part) :
    fillings (bindings.map (named h)) parts = (SqlScribe.fillings bindings parts).map h := by
  induction parts with
  | nil => rfl
  | cons part rest ih =>
    cases part with
    | text cs => rw [SqlScribe.fillings, SqlScribe.fillings, ih]
    | mark name =>
      rw [SqlScribe.fillings, SqlScribe.fillings, ih, boundTo_map]
      cases boundTo name bindings with
      | none => rfl
      | some p =>
        obtain ⟨e, written⟩ := p
        cases hblank : e.isBlank <;> simp [beside, hh.isBlank, hblank]

theorem rawText (hh : KeepsLooks h) (sql : Data) (aliasName : Name) (template : Bool)
    (bindings : List (Name × Expr × Rendered Fragment)) :
    rawText sql aliasName template (bindings.map (named h)) =
      SqlScribe.rawText sql aliasName template bindings := by
  unfold SqlScribe.rawText
  simp only [hh.fillTemplate, hh.fillings, hh.requireTexts]

end KeepsLooks

/-! ## Projections and orders by a primary key -/

/-- The expressions without an alias stay those without an alias. -/
theorem unnamed_map {g : SelectItem → SelectItem} {h : Expr → Expr}
    (hg : ∀ i, g i = ⟨h i.expr, i.aliasName⟩) (items : List SelectItem) :
    unnamed (items.map g) = (unnamed items).map h := by
  simp only [unnamed, List.filter_map, List.map_map, Function.comp_def, hg]

section

variable {source source' : Option Source} {g : SelectItem → SelectItem}

/-- The order by primary key looks for the table of a source and for the columns of a projection. -/
theorem orderByKey_map (htable : ∀ t, source' = some (.table t) ↔ source = some (.table t))
    (hshows : ∀ qualifier column i, (g i).shows qualifier column = i.shows qualifier column)
    (items : List SelectItem) (distinct : Bool) :
    orderByKey source' (items.map g) distinct = orderByKey source items distinct := by
  have hidden (t : Table) : hiddenKeys t (items.map g) = hiddenKeys t items := by
    simp only [hiddenKeys, List.any_map, Function.comp_def, hshows]
  by_cases h : ∃ t, source = some (.table t)
  · obtain ⟨t, ht⟩ := h
    rw [(htable t).mpr ht, ht]
    simp only [orderByKey, hidden]
  · have none {o : Option Source} (ho : ∀ t, o ≠ some (.table t)) (items : List SelectItem) :
        orderByKey o items distinct = .error (.unordered .mssql []) := by
      unfold orderByKey
      split
      next t => exact absurd rfl (ho t)
      · rfl
    rw [none fun t ht => h ⟨t, ht⟩, none fun t ht => h ⟨t, (htable t).mp ht⟩]

theorem rowClauses_map (d : Dialect)
    (htable : ∀ t, source' = some (.table t) ↔ source = some (.table t))
    (hshows : ∀ qualifier column i, (g i).shows qualifier column = i.shows qualifier column)
    (items : List SelectItem) (distinct : Bool) (order : List Fragment)
    (limit offset : Option Nat) :
    rowClauses d source' (items.map g) distinct order limit offset =
      rowClauses d source items distinct order limit offset := by
  unfold rowClauses
  rw [orderByKey_map htable hshows]

end

end SqlScribe
