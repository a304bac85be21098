import SqlScribe.Proofs.Pass
import SqlScribe.Proofs.PassLayout

/-!
# The walk over a tree and the tree after a pass

If a pass leaves alone what is written for a root, up to `g` on values, then what is written for a
tree is the same before the pass and after it, up to `g`, and so is what goes wrong (`Pass.Writes`).
The proof follows the walk. Each node asks for its parts as values or as conditions. The induction
hypothesis is about a part that is done but for its root; from there `Pass.Writes.value_inner` gets
to values and `Pass.Writes.predicate` to conditions.
-/

namespace SqlScribe

open Fragment (mapValues)

/-- Whether a pass leaves alone what a dialect writes for a root, up to a function on values. -/
structure Pass.Writes (P : Pass) (g : Value → Value) (d : Dialect) : Prop where
  value : ∀ e, SameUpTo g ((P.value e).render d) (e.render d)
  /-- A condition is written as one. -/
  condition : ∀ e, SameUpTo g (predicateOf d (P.condition e) ((P.condition e).render d))
    (predicateOf d e (e.render d))
  window : ∀ e, (P.value e).renderWindow d = e.renderWindow d
  select : ∀ s, SameUpTo g ((P.select s).render d) (s.render d)
  /-- What is no query and no source is refused by its type. -/
  typeName : ∀ role, P.stranger = some role → ∀ e, (P.root role e).typeName = e.typeName

/-- The type of an expression is not changed below its root. -/
theorem Expr.typeName_inner (P : Pass) (e : Expr) : (e.inner P).typeName = e.typeName := by
  cases e <;> rfl

namespace Pass.Writes

variable {P : Pass} {g : Value → Value} {d : Dialect}

/-- What is no query and no source keeps its type. -/
theorem typeName_put (h : P.Writes g d) (e : Expr) :
    (P.put P.stranger e (e.inner P)).typeName = e.typeName := by
  cases hplace : P.stranger with
  | none => rfl
  | some role => exact (h.typeName role hplace _).trans (e.typeName_inner P)

/-- Whether an expression that is done but for its root is written like the expression. -/
abbrev SameInner (P : Pass) (g : Value → Value) (d : Dialect) (e : Expr) : Prop :=
  SameUpTo g ((e.inner P).render d) (e.render d)

section

variable [P.KeepsLooks] (h : P.Writes g d)

include h

omit [P.KeepsLooks] in
/-- A part that is done but for its root, as a value. -/
theorem value_inner {e : Expr} (he : SameInner P g d e) :
    SameUpTo g ((e.pass P .value).render d) (e.render d) :=
  (h.value _).trans he

/-- The same part as an operand. -/
theorem operand {e : Expr} (he : SameInner P g d e) :
    SameUpTo g (operandOf (e.pass P .value) ((e.pass P .value).render d))
      (operandOf e (e.render d)) := by
  rw [P.keepsLooks.operandOf]
  exact agree_operandOf e (h.value_inner he)

omit [P.KeepsLooks] in
/-- **A condition is written as one**, whatever becomes of it as a value. -/
theorem predicate {e : Expr} (he : SameInner P g d e) :
    SameUpTo g (predicateOf d (e.pass P .condition) ((e.pass P .condition).render d))
      (predicateOf d e (e.render d)) := by
  refine (h.condition _).trans ?_
  cases d with
  | mssql =>
    cases e with
    | truth given => exact .refl _
    | _ => exact he
  | sqlite | postgres | mysql => exact he

/-- The same part as a condition under a connective. -/
theorem underConnective {e : Expr} (he : SameInner P g d e) :
    SameUpTo g (conditionOf d (e.pass P .condition) ((e.pass P .condition).render d))
      (conditionOf d e (e.render d)) := by
  unfold conditionOf
  rw [Expr.isLogical_pass]
  dsimp only
  split
  · exact agree_parens (h.predicate he)
  · exact h.predicate he

/-! ### Lists -/

variable {es : List Expr}

omit [P.KeepsLooks] in
/-- Parts written one by one. -/
theorem each (hs : ∀ e ∈ es, SameInner P g d e) :
    List.Forall₂ (SameUpTo g) (renderEach d (es.map fun e => e.pass P .value))
      (renderEach d es) := by
  rw [renderEach_eq_map, renderEach_eq_map, List.map_map]
  exact forall₂_map_same fun e he => h.value_inner (hs e he)

/-- Parts of which texts are required. -/
theorem texts (hs : ∀ e ∈ es, SameInner P g d e) :
    EachUpTo g (textsOf (es.map fun e => e.pass P .value)
        (renderEach d (es.map fun e => e.pass P .value)))
      (textsOf es (renderEach d es)) := by
  rw [textsOf_pass]
  exact agree_textsOf es (h.each hs)

/-- Conditions under a connective. -/
theorem conditions (op : Connective) (hs : ∀ e ∈ es, SameInner P g d e) :
    SameUpTo g (conditionsOf d op (es.map fun e => e.pass P .condition)
        (renderEach d (es.map fun e => e.pass P .condition)))
      (conditionsOf d op es (renderEach d es)) := by
  -- each condition is looked at beside its own text
  have each : List.Forall₂ (SameUpTo g)
      ((es.map fun e => e.pass P .condition).zipWith (conditionOf d)
        (renderEach d (es.map fun e => e.pass P .condition)))
      (es.zipWith (conditionOf d) (renderEach d es)) := by
    rw [renderEach_eq_map, renderEach_eq_map, List.map_map, List.zipWith_map,
      List.zipWith_map_right, List.zipWith_self, List.zipWith_self]
    exact forall₂_map_same fun e he => h.underConnective (hs e he)
  unfold conditionsOf
  rw [textsOf_pass]
  exact (agree_textsOf es each).map fun fs fs' hfs => by
    rw [Fragment.mapValues_join, Fragment.mapValues_join, hfs]

omit [P.KeepsLooks] in
/-- The items of a row are values. -/
theorem parts [P.KeepsLooks] {e : Expr} (hs : ∀ p ∈ e.parts, SameInner P g d p) :
    List.Forall₂ (SameUpTo g) ((e.pass P .value).renderParts d) (e.renderParts d) := by
  rw [renderParts_eq_map, renderParts_eq_map, Expr.parts_pass, List.map_map]
  exact forall₂_map_same fun p hp => h.value_inner (hs p hp)

/-- The items of rows, row by row. -/
theorem partsEach (hs : ∀ e ∈ es, ∀ p ∈ e.parts, SameInner P g d p) :
    List.Forall₂ (List.Forall₂ (SameUpTo g)) (renderPartsEach d (es.map fun e => e.pass P .value))
      (renderPartsEach d es) := by
  induction es with
  | nil => exact .nil
  | cons e rest ih =>
    obtain ⟨he, hrest⟩ := List.forall_mem_cons.mp hs
    exact .cons (h.parts he) (ih hrest)

/-! ### Nodes -/

/-- A membership in a list, whose rows may be written item by item. -/
theorem inList {operand : Expr} {negated : Flag} (ho : SameInner P g d operand)
    (hs : ∀ e ∈ es, SameInner P g d e) (hp : ∀ p ∈ operand.parts, SameInner P g d p)
    (hps : ∀ e ∈ es, ∀ p ∈ e.parts, SameInner P g d p) :
    SameInner P g d (.inList operand es negated) := by
  have rows := agree_rowAlternativesOf negated.isTrue (pairs_zip operand.parts (h.parts hp))
    (pairs_rows (es.map Expr.parts) (h.partsEach hps))
  unfold SameInner
  rw [Expr.inner, passAll_eq_map, Expr.render, Expr.render, List.isEmpty_map,
    Expr.isRow_pass, Expr.parts_pass, KeepsLooks.zip_map,
    P.keepsLooks.zip_parts, P.keepsLooks.rowAlternativesOf, P.keepsLooks.membershipOf]
  split
  · exact .refl _
  split
  · split
    · exact rows
    · exact agree_rowMembershipOf negated.isTrue (h.value_inner ho) (h.each hs)
  · exact agree_membershipOf operand es negated.isTrue (h.value_inner ho) (h.each hs)

/-- A raw fragment with its named expressions. -/
theorem raw {sql aliasName template : Expr} {bindings : List (Name × Expr)}
    (hs : ∀ b ∈ bindings, SameInner P g d b.2) :
    SameInner P g d (.raw sql aliasName template bindings) := by
  have named : renderBindings d (passBindings P bindings) =
      (bindings.map fun b => (b.1, b.2, (b.2.pass P .value).render d)).map
        (KeepsLooks.named fun e => e.pass P .value) := by
    rw [passBindings_eq_map, renderBindings_eq_map, List.map_map, List.map_map]
    rfl
  unfold SameInner
  rw [Expr.inner, Expr.render, Expr.render, named, P.keepsLooks.rawText, renderBindings_eq_map]
  exact agree_rawText _ _ _ (forall₂_map_same fun b hb => ⟨rfl, rfl, h.value_inner (hs b hb)⟩)

omit [P.KeepsLooks] in
/-- A condition behind its word. -/
theorem filter (word : String) {condition : Option Expr}
    (hs : ∀ e ∈ condition, SameInner P g d e) :
    EachUpTo g (renderFilter d word (passFilter P condition)) (renderFilter d word condition) := by
  cases condition with
  | none => exact .refl _
  | some e => exact (h.predicate (hs e rfl)).bind fun f f' hf => agree_ok (by simp [hf])

/-- A select, clause by clause. -/
theorem selectInner {items : List SelectItem} {source : Option Source} {joins : List Join}
    {filter : Option Expr} {groupBy : List Expr} {having : Option Expr} {orderBy : List Expr}
    {limit offset : Option Nat} {distinct : Flag}
    (hitems : List.Forall₂ (SameUpTo g) (renderItems d (passItems P items)) (renderItems d items))
    (hsource : EachUpTo g (renderOrigin d (passOrigin P source)) (renderOrigin d source))
    (hjoins : List.Forall₂ (SameUpTo g) (renderJoins d (passJoins P joins)) (renderJoins d joins))
    (hfilter : ∀ e ∈ filter, SameInner P g d e) (hgroup : ∀ e ∈ groupBy, SameInner P g d e)
    (hhaving : ∀ e ∈ having, SameInner P g d e) (horder : ∀ e ∈ orderBy, SameInner P g d e) :
    SameUpTo g
      (((Select.mk items source joins filter groupBy having orderBy limit offset distinct).inner
        P).render d)
      ((Select.mk items source joins filter groupBy having orderBy limit offset distinct).render
        d) := by
  -- the two conditions are looked at once more after everything is written
  -- on both sides the check sees the same two conditions
  have checked : requireTexts ((passFilter P filter).toList ++ (passFilter P having).toList) =
      requireTexts (filter.toList ++ having.toList) := by
    rw [passFilter_eq_map, passFilter_eq_map, Option.toList_map, Option.toList_map,
      ← List.map_append, requireTexts_pass]
  have named : requireTexts (unnamed (passItems P items)) = requireTexts (unnamed items) := by
    rw [passItems_eq_map, unnamed_pass, requireTexts_pass]
  rw [Select.inner, Select.render, Select.render, passAll_eq_map, passAll_eq_map]
  refine (agree_allOk hitems).bind fun projection projection' hprojection =>
    agree_step named fun _ =>
    hsource.bind fun origin origin' horigin =>
    (agree_allOk hjoins).bind fun joined joined' hjoined =>
    (h.filter "WHERE" hfilter).bind fun filtered filtered' hfiltered =>
    (h.texts hgroup).bind fun groups groups' hgroups =>
    (h.filter "HAVING" hhaving).bind fun chosen chosen' hchosen =>
    (h.texts horder).bind fun order order' horder => ?_
  rw [passItems_eq_map, rowClauses_pass]
  refine (agree_rowClauses source items distinct.isTrue horder limit offset).bind
    fun rows rows' hrows => agree_step checked fun _ => agree_ok ?_
  simp only [Fragment.mapValues_join, List.map_append, map_mapValues_projectionOf,
    map_mapValues_listClause, hprojection, horigin, hjoined, hfiltered, hgroups, hchosen, hrows]

end

end Pass.Writes

/-! ## The walk -/

section

variable {P : Pass} {g : Value → Value} {d : Dialect}

open Pass.Writes (SameInner)

mutual

/-- **An expression that is done but for its root is written like the expression.** -/
theorem inner_expr [P.KeepsLooks] (h : P.Writes g d) : ∀ e : Expr, SameInner P g d e
  | .not operand => by
    have condition := h.predicate (inner_expr h operand)
    unfold SameInner
    rw [Expr.inner, Expr.render, Expr.render]
    refine Agree.bind (φ := mapValues g) ?_ fun f f' hf => agree_ok (by simp [hf])
    -- the operand is a condition, and its parentheses are those of the operand
    unfold operandOf
    rw [Expr.isCompound_pass]
    split
    · exact agree_parens condition
    · exact condition
  | .isNull operand negated =>
    (h.operand (inner_expr h operand)).bind fun f f' hf =>
      agree_ok (by cases negated.isTrue <;> simp [hf])
  | .binary op left right =>
    (h.operand (inner_expr h left)).bind fun l l' hl =>
    (h.operand (inner_expr h right)).bind fun r r' hr => agree_ok (by simp [hl, hr])
  | .logical op first rest => by
    have joined := h.conditions op
      (List.forall_mem_cons.mpr ⟨inner_expr h first, inner_all h rest⟩)
    rw [← passAll_eq_map] at joined
    exact joined
  | .inList operand items negated =>
    h.inList (inner_expr h operand) (inner_all h items) (inner_parts h operand)
      (inner_partsEach h items)
  | .inQuery operand query negated =>
    (h.operand (inner_expr h operand)).bind fun l l' hl =>
    (same_query h query).bind fun f f' hf => agree_ok (by simp [hl, hf])
  | .between operand low high negated =>
    (h.operand (inner_expr h operand)).bind fun e e' he =>
    (h.operand (inner_expr h low)).bind fun l l' hl =>
    (h.operand (inner_expr h high)).bind fun k k' hk => agree_ok (by simp [he, hl, hk])
  | .exists query negated => (same_query h query).bind fun f f' hf => agree_ok (by simp [hf])
  | .scalar query => agree_parens (same_query h query)
  | .row first rest => by
    have items := h.texts (List.forall_mem_cons.mpr ⟨inner_expr h first, inner_all h rest⟩)
    rw [← passAll_eq_map] at items
    exact items.map fun fs fs' hfs => by simp [hfs]
  | .call name args distinct => by
    have items := h.texts (inner_all h args)
    rw [← passAll_eq_map] at items
    refine items.bind fun fs fs' hfs => agree_ok ?_
    cases distinct.isTrue <;> simp [hfs]
  | .cast operand target =>
    (h.value_inner (inner_expr h operand)).bind fun f f' hf => agree_ok (by simp [hf])
  | .coalesce parts => by
    have items := h.texts (inner_all h parts)
    rw [← passAll_eq_map] at items
    exact items.map fun fs fs' hfs => by simp [hfs]
  | .concat parts => by
    have items := h.texts (inner_all h parts)
    rw [← passAll_eq_map] at items
    exact items.map fun fs fs' hfs => by
      rw [mapValues_concatenated, mapValues_concatenated, hfs]
  | .aggregateText operand =>
    (h.value_inner (inner_expr h operand)).map fun f f' hf => by
      rw [mapValues_aggregated, mapValues_aggregated, hf]
  | .sorted operand direction =>
    (h.value_inner (inner_expr h operand)).bind fun f f' hf => agree_ok (by simp [hf])
  | .over name args spec => by
    have items := h.texts (inner_all h args)
    rw [← passAll_eq_map] at items
    exact items.bind fun fs fs' hfs => (same_window h spec).bind fun f f' hf =>
      agree_ok (by simp [hfs, hf])
  | .jsonExtract document path asText => by
    unfold SameInner
    rw [Expr.inner, Expr.render, Expr.render, P.keepsLooks.jsonPartOf]
    exact agree_jsonPartOf document path asText.isTrue (h.value_inner (inner_expr h document))
  | .jsonContains document value negated => by
    unfold SameInner
    rw [Expr.inner, Expr.render, Expr.render, P.keepsLooks.jsonContainsSql]
    exact agree_jsonContainsSql document negated.isTrue (h.value_inner (inner_expr h document))
      (h.value_inner (inner_expr h value))
  | .jsonEdge document value edge negated => by
    unfold SameInner
    rw [Expr.inner, Expr.render, Expr.render, P.keepsLooks.jsonEdgeSql]
    exact agree_jsonEdgeSql document edge negated.isTrue (h.value_inner (inner_expr h document))
      (h.value_inner (inner_expr h value))
  | .jsonType document type => agree_jsonTypeSql type (h.value_inner (inner_expr h document))
  | .textSearch first rest => by
    have items := List.forall_mem_cons.mpr ⟨inner_expr h first, inner_all h rest⟩
    have columns : List.map (fun e => e.pass P .value) (first :: rest) =
        first.pass P .value :: passAll P .value rest := by rw [passAll_eq_map, List.map_cons]
    unfold SameInner
    rw [Expr.inner, Expr.render, Expr.render, ← columns, P.keepsLooks.searchedColumns]
    rw [passAll_eq_map]
    exact agree_searchedColumns (first :: rest) (h.each items)
  | .matches search query negated => by
    unfold SameInner
    rw [Expr.inner, Expr.render, Expr.render, P.keepsLooks.matchSql]
    exact agree_matchSql search negated.isTrue (h.value_inner (inner_expr h search))
      (h.parts (inner_parts h search)) (h.value_inner (inner_expr h query))
  | .raw sql aliasName template bindings => h.raw (inner_bindings h bindings)
  | .column _ _ | .star _ | .literal _ | .truth _ | .window _ _ | .rowToJson _ _ | .excluded _
  | .image _ _ | .tuple _ | .foreign _ => .refl _

/-- Lists, member by member. -/
theorem inner_all [P.KeepsLooks] (h : P.Writes g d) :
    ∀ es : List Expr, ∀ e ∈ es, SameInner P g d e
  | [] => List.forall_mem_nil _
  | e :: rest => List.forall_mem_cons.mpr ⟨inner_expr h e, inner_all h rest⟩

/-- The items of a row and the columns of a search. -/
theorem inner_parts [P.KeepsLooks] (h : P.Writes g d) (e : Expr) :
    ∀ p ∈ e.parts, SameInner P g d p := by
  cases e with
  | row first rest | textSearch first rest =>
    exact List.forall_mem_cons.mpr ⟨inner_expr h first, inner_all h rest⟩
  | _ => exact List.forall_mem_nil _

/-- The items of a list of rows. -/
theorem inner_partsEach [P.KeepsLooks] (h : P.Writes g d) :
    ∀ es : List Expr, ∀ e ∈ es, ∀ p ∈ e.parts, SameInner P g d p
  | [] => List.forall_mem_nil _
  | e :: rest => List.forall_mem_cons.mpr ⟨inner_parts h e, inner_partsEach h rest⟩

/-- A window is written like the one before the pass, and nothing else is one. -/
theorem same_window [P.KeepsLooks] (h : P.Writes g d) (e : Expr) :
    SameUpTo g ((e.pass P .value).renderWindow d) (e.renderWindow d) := by
  rw [h.window]
  cases e with
  | window partition order =>
    have groups := h.texts (inner_all h partition)
    have sorted := h.texts (inner_all h order)
    rw [← passAll_eq_map] at groups sorted
    exact groups.bind fun fs fs' hfs => sorted.bind fun k k' hk => agree_ok (by
      rw [mapValues_windowText, mapValues_windowText, hfs, hk])
  | tuple items =>
    -- only whether there are members is asked
    rw [Expr.inner]
    split
    · exact .refl _
    · cases items <;> exact .refl _
  | _ => exact .refl _

/-- Bindings, one by one. -/
theorem inner_bindings [P.KeepsLooks] (h : P.Writes g d) :
    ∀ bs : List (Name × Expr), ∀ b ∈ bs, SameInner P g d b.2
  | [] => List.forall_mem_nil _
  | b :: rest => List.forall_mem_cons.mpr ⟨inner_binding h b, inner_bindings h rest⟩

theorem inner_binding [P.KeepsLooks] (h : P.Writes g d) : ∀ b : Name × Expr, SameInner P g d b.2
  | (_, e) => inner_expr h e

/-- An optional condition. -/
theorem inner_condition [P.KeepsLooks] (h : P.Writes g d) :
    ∀ filter : Option Expr, ∀ e ∈ filter, SameInner P g d e
  | none => nofun
  | some e => fun _ he => Option.some.inj he ▸ inner_expr h e

/-- A query, or what stands in its place. -/
theorem same_query [P.KeepsLooks] (h : P.Writes g d) :
    ∀ q : Query, SameUpTo g ((q.pass P).render d) (q.render d)
  | .select s => (h.select _).trans (inner_select h s)
  | .union u => same_union h u
  | .draft s => by
    obtain ⟨_, _, _, _, _, _, _, _, _, _⟩ := s
    unfold Query.pass Query.render
    cases P.stranger <;> exact .refl _
  | .other object => by
    rw [Query.pass, Query.render, Query.render, h.typeName_put]
    exact .refl _

theorem same_union [P.KeepsLooks] (h : P.Writes g d) :
    ∀ u : Union, SameUpTo g ((u.pass P).render d) (u.render d)
  | ⟨members, kind⟩ => by
    have each := same_selects h members
    exact agree_joined kind.separator each

/-- The members of a union. -/
theorem same_selects [P.KeepsLooks] (h : P.Writes g d) : ∀ ss : List Select,
    List.Forall₂ (SameUpTo g) (renderSelects d (passSelects P ss)) (renderSelects d ss)
  | [] => .nil
  | s :: rest => .cons ((h.select _).trans (inner_select h s)) (same_selects h rest)

/-- The same for a select whose clauses are done. -/
theorem inner_select [P.KeepsLooks] (h : P.Writes g d) :
    ∀ s : Select, SameUpTo g ((s.inner P).render d) (s.render d)
  | ⟨items, source, joins, filter, groupBy, having, orderBy, _, _, _⟩ =>
    h.selectInner (same_items h items) (same_origin h source) (same_joins h joins)
      (inner_condition h filter) (inner_all h groupBy) (inner_condition h having)
      (inner_all h orderBy)

theorem same_origin [P.KeepsLooks] (h : P.Writes g d) : ∀ source : Option Source,
    EachUpTo g (renderOrigin d (passOrigin P source)) (renderOrigin d source)
  | none => .refl _
  | some o => (same_source h o).bind fun f f' hf => agree_ok (by simp [hf])

/-- A source, or what stands in its place. -/
theorem same_source [P.KeepsLooks] (h : P.Writes g d) :
    ∀ o : Source, SameUpTo g ((o.pass P).render d) (o.render d)
  | .table _ => .refl _
  | .derived query _ => (same_query h query).bind fun f f' hf => agree_after fun n =>
      agree_ok (by simp [hf])
  | .other object => by
    rw [Source.pass, Source.render, Source.render, h.typeName_put]
    exact .refl _

/-- The items of a projection. -/
theorem same_items [P.KeepsLooks] (h : P.Writes g d) : ∀ items : List SelectItem,
    List.Forall₂ (SameUpTo g) (renderItems d (passItems P items)) (renderItems d items)
  | [] => .nil
  | i :: rest => .cons (same_item h i) (same_items h rest)

theorem same_item [P.KeepsLooks] (h : P.Writes g d) :
    ∀ i : SelectItem, SameUpTo g ((i.pass P).render d) (i.render d)
  | ⟨e, aliasName⟩ => (h.value_inner (inner_expr h e)).bind fun _ _ hf => agree_aliased hf aliasName

/-- The joins of a select. -/
theorem same_joins [P.KeepsLooks] (h : P.Writes g d) : ∀ joins : List Join,
    List.Forall₂ (SameUpTo g) (renderJoins d (passJoins P joins)) (renderJoins d joins)
  | [] => .nil
  | j :: rest => .cons (same_join h j) (same_joins h rest)

theorem same_join [P.KeepsLooks] (h : P.Writes g d) :
    ∀ j : Join, SameUpTo g ((j.pass P).render d) (j.render d)
  | .join right on _ => agree_after fun _ => (same_source h right).bind fun f f' hf =>
      (h.filter "ON" (inner_condition h on)).bind fun c c' hc => agree_ok (by simp [hf, hc])
  | .other _ => .refl _

end

end

end SqlScribe
