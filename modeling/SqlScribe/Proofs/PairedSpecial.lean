import SqlScribe.Proofs.PairedRows

/-!
# JSON, full-text search and raw fragments

Nodes about JSON documents and full-text search are asked for only where a dialect is compared with
itself. There nothing has to be the same, and a lacking feature may come up, so it is enough that
the parts are written or fail together.

A raw fragment is the same text in every dialect. Its template may name expressions; the same name
finds twins in both runs.
-/

namespace SqlScribe.Pairing

open List (Forall₂)

section

variable {d : Dialect} {e e' : Expr} {es es' : List Expr} {ws ws' : List (Rendered Fragment)}
  {w w' : Rendered Fragment}

/-- Two results of a dialect that is compared with itself. -/
theorem meets_ok {α : Type} (a b : α) : (alone d).Meets (.ok a) (.ok b) :=
  paired_ok fun hx => hx.elim

theorem meets_lacks {α : Type} (d' : Dialect) (feature : Feature) :
    (alone d).Meets (lacks d' feature : Rendered α) (lacks d' feature) :=
  paired_error trivial trivial

/-! ## JSON -/

theorem Side.jsonPart (h : (alone d).Side e e') (path : JsonPath) (asText : Bool) :
    (alone d).Meets (jsonPartOf d e (e.render d) path asText)
      (jsonPartOf d e' (e'.render d) path asText) := by
  cases d with
  | sqlite | mssql => exact h.written.bind fun _ _ _ => meets_ok _ _
  | mysql => exact h.written.bind fun _ _ _ => by cases asText <;> exact meets_ok _ _
  | postgres =>
    cases path with
    | text s => exact meets_lacks _ _
    | keys first rest => exact h.operand.bind fun _ _ _ => meets_ok _ _

theorem Side.jsonContains (h : (alone d).Side e e') (hw : (alone d).Meets w w') (negated : Bool) :
    (alone d).Meets (jsonContainsSql d e (e.render d) w negated)
      (jsonContainsSql d e' (e'.render d) w' negated) := by
  cases d with
  | sqlite | mssql => exact meets_lacks _ _
  | mysql => exact h.written.bind fun _ _ _ => hw.bind fun _ _ _ => meets_ok _ _
  | postgres => exact h.operand.bind fun _ _ _ => hw.bind fun _ _ _ => meets_ok _ _

theorem Side.jsonEdge (h : (alone d).Side e e') (hw : (alone d).Meets w w') (edge : ArrayEdge)
    (negated : Bool) :
    (alone d).Meets (jsonEdgeSql d e (e.render d) w edge negated)
      (jsonEdgeSql d e' (e'.render d) w' edge negated) := by
  cases d with
  | sqlite | postgres => exact h.operand.bind fun _ _ _ => hw.bind fun _ _ _ => meets_ok _ _
  | mysql => exact h.written.bind fun _ _ _ => hw.bind fun _ _ _ => meets_ok _ _
  | mssql => exact meets_lacks _ _

theorem meets_jsonTypeSql (h : (alone d).Meets w w') (type : JsonType) :
    (alone d).Meets (jsonTypeSql d w type) (jsonTypeSql d w' type) := by
  unfold jsonTypeSql
  split
  · exact meets_lacks _ _
  · exact h.bind fun _ _ _ => by split <;> exact meets_ok _ _

/-! ## Full-text search -/

theorem meets_searchedColumns (hs : Forall₂ (alone d).Side es es')
    (h : Forall₂ (alone d).Meets ws ws') :
    (alone d).Meets (searchedColumns d es ws) (searchedColumns d es' ws') := by
  cases d with
  | postgres =>
    refine (meets_allOk h).bind fun fs gs hfs => ?_
    -- the number of columns decides the form, and it is the same in both runs
    match fs, gs, hfs.1 with
    | [f], [g], _ => exact meets_ok _ _
    | [], [], _ => exact (meets_requireTexts hs).bind fun _ _ _ => meets_ok _ _
    | _ :: _ :: _, _ :: _ :: _, _ => exact (meets_requireTexts hs).bind fun _ _ _ => meets_ok _ _
  | sqlite | mysql | mssql => exact meets_lacks _ _

/-- The columns that a match looks at. -/
theorem Twin.columns (h : (alone d).Twin e e') :
    Paired (alone d).Sames (alone d).Allows
      (textsOf (if e.isTextSearch then e.parts else [e])
        (if e.isTextSearch then e.renderParts d else [e.render d]))
      (textsOf (if e'.isTextSearch then e'.parts else [e'])
        (if e'.isTextSearch then e'.renderParts d else [e'.render d])) := by
  rw [h.search]
  split
  · rw [renderParts_eq_map, renderParts_eq_map, ← renderEach_eq_map, ← renderEach_eq_map]
    exact meets_texts h.parts
  · exact meets_textsOf (.cons h.toSide .nil) (.cons h.written .nil)

theorem Twin.matchSql (h : (alone d).Twin e e') (hw : (alone d).Meets w w') (negated : Bool) :
    (alone d).Meets (matchSql d e (e.render d) (e.renderParts d) w negated)
      (matchSql d e' (e'.render d) (e'.renderParts d) w' negated) := by
  -- every dialect has a form of its own, and SQLite has none
  cases d with
  | sqlite => exact meets_lacks _ _
  | mysql => exact h.columns.bind fun _ _ _ => hw.bind fun _ _ _ => meets_ok _ _
  | postgres => exact h.written.bind fun _ _ _ => hw.bind fun _ _ _ => meets_ok _ _
  | mssql => exact h.columns.bind fun _ _ _ => hw.bind fun _ _ _ => meets_ok _ _

theorem meets_rowToJson {table : Name} (h : table.isText = true) (pretty : Bool) :
    (alone d).Meets (rowToJsonSql d table pretty) (rowToJsonSql d table pretty) := by
  cases d with
  | postgres =>
    obtain ⟨f, hf⟩ := nameOf_isText h
    rw [rowToJsonSql, hf]
    exact meets_ok _ _
  | sqlite | mysql | mssql => exact meets_lacks _ _

end

section

variable {c : Pairing} {e e' value value' : Expr}

theorem Twin.jsonExtract (ha : c.IsAlone) (h : c.Twin e e') (path : JsonPath) (asText : Flag) :
    c.Twin (.jsonExtract e path asText) (.jsonExtract e' path asText) := by
  obtain ⟨d, rfl⟩ := ha
  exact .plain rfl (h.jsonPart path asText.isTrue)

theorem Twin.jsonContains (ha : c.IsAlone) (h : c.Twin e e') (hv : c.Twin value value')
    (negated : Flag) :
    c.Twin (.jsonContains e value negated) (.jsonContains e' value' negated) := by
  obtain ⟨d, rfl⟩ := ha
  exact .plain rfl (h.toSide.jsonContains hv.written negated.isTrue)

theorem Twin.jsonEdge (ha : c.IsAlone) (h : c.Twin e e') (hv : c.Twin value value')
    (edge : ArrayEdge) (negated : Flag) :
    c.Twin (.jsonEdge e value edge negated) (.jsonEdge e' value' edge negated) := by
  obtain ⟨d, rfl⟩ := ha
  exact .plain rfl (h.toSide.jsonEdge hv.written edge negated.isTrue)

theorem Twin.jsonType (ha : c.IsAlone) (h : c.Twin e e') (type : JsonType) :
    c.Twin (.jsonType e type) (.jsonType e' type) := by
  obtain ⟨d, rfl⟩ := ha
  exact .plain rfl (meets_jsonTypeSql h.written type)

theorem Twin.matches (ha : c.IsAlone) (h : c.Twin e e') (hv : c.Twin value value')
    (negated : Flag) : c.Twin (.matches e value negated) (.matches e' value' negated) := by
  obtain ⟨d, rfl⟩ := ha
  exact .plain rfl (h.matchSql hv.written negated.isTrue)

theorem Asks.rowToJson {table : Name} {pretty : Flag}
    (h : c.Asks (.expr (.rowToJson table pretty))) :
    c.Twin (.rowToJson table pretty) (.rowToJson table pretty) := by
  obtain ⟨d, rfl⟩ := Asks.isAlone h rfl
  exact .plain rfl (meets_rowToJson h.1.1 pretty.isTrue)

theorem twin_textSearch (ha : c.IsAlone) {first first' : Expr} {rest rest' : List Expr}
    (hf : c.Twin first first') (hs : Forall₂ c.Twin rest rest') :
    c.Twin (.textSearch first rest) (.textSearch first' rest') := by
  obtain ⟨d, rfl⟩ := ha
  have hall : Forall₂ (alone d).Side (first :: rest) (first' :: rest') :=
    .cons hf.toSide (Twin.sides hs)
  have hw := meets_searchedColumns hall (meets_renderEach hall)
  have same : ∀ d first rest, predicateOf d (.textSearch first rest)
      ((Expr.textSearch first rest).render d) = (Expr.textSearch first rest).render d :=
    fun d _ _ => by cases d <;> rfl
  exact {
    written := hw
    compound := rfl
    bare := rfl
    settled := fun _ => rfl
    predicate := by rw [same, same]; exact hw
    logical := rfl
    window := fun hframe => meets_lacksPart fun ha => Bool.false_ne_true (hframe ha)
    search := rfl
    row := rfl
    parts := hall }

end

/-! ## Raw fragments -/

section

variable {c : Pairing} {bindings bindings' : List (Name × Expr)}

/-- Named expressions that are twins under the same name. -/
structure NamedTwin (c : Pairing) (b b' : Name × Expr) : Prop where
  name : b'.1 = b.1
  twin : c.Twin b.2 b'.2

theorem bindingOf_twins (h : Forall₂ c.NamedTwin bindings bindings') (name : List Char) :
    Option.Rel c.Twin (bindingOf bindings name) (bindingOf bindings' name) := by
  unfold bindingOf
  induction h with
  | nil => exact .none
  | cons hb _ ih =>
    rw [List.find?_cons, List.find?_cons, hb.name]
    split
    · exact .some hb.twin
    · exact ih

theorem meets_fillTemplate (h : Forall₂ c.NamedTwin bindings bindings') (template : String)
    (parts : List Template.Part) :
    c.Meets (fillTemplate template (renderBindings c.left bindings) parts)
      (fillTemplate template (renderBindings c.right bindings') parts) := by
  rw [renderBindings_eq_map, renderBindings_eq_map]
  -- on the parts of the template: text is copied, and a mark is looked up in both lists
  induction parts with
  | nil => exact paired_ok (same_refl _)
  | cons part rest ih =>
    cases part with
    | text cs => exact ih.bind fun _ _ hg =>
        paired_ok (hg.congr fun g => Fragment.ofText (String.ofList cs) ++ g)
    | mark name =>
      rw [fillTemplate, fillTemplate, boundTo_map, boundTo_map]
      have hrel := bindingOf_twins h name
      generalize bindingOf bindings name = b at hrel ⊢
      generalize bindingOf bindings' name = b' at hrel ⊢
      cases hrel with
      | none => exact paired_error (allows_unboundMark _ _) (allows_unboundMark _ _)
      | @some e e' he =>
        -- an absent value is left out of both texts
        have hblank : e'.isBlank = e.isBlank := by rw [Expr.isBlank, Expr.isBlank, he.bare]
        refine he.written.bind fun f g hf => ih.bind fun k k' hk => paired_ok ?_
        rw [hblank]
        exact hf.congr₂ hk fun f k => (if e.isBlank then Fragment.empty else f) ++ k

theorem fillings_sides (h : Forall₂ c.NamedTwin bindings bindings') (parts : List Template.Part) :
    Forall₂ c.Side (fillings (renderBindings c.left bindings) parts)
      (fillings (renderBindings c.right bindings') parts) := by
  rw [renderBindings_eq_map, renderBindings_eq_map]
  induction parts with
  | nil => exact .nil
  | cons part rest ih =>
    cases part with
    | text cs => exact ih
    | mark name =>
      rw [fillings, fillings, boundTo_map, boundTo_map]
      refine List.rel_append ?_ ih
      have hrel := bindingOf_twins h name
      generalize bindingOf bindings name = b at hrel ⊢
      generalize bindingOf bindings' name = b' at hrel ⊢
      cases hrel with
      | none => exact .nil
      | @some e e' he =>
        have hblank : e'.isBlank = e.isBlank := by rw [Expr.isBlank, Expr.isBlank, he.bare]
        simp only [Option.map_some, Option.toList_some, List.map_cons, List.map_nil,
          List.filter_cons, List.filter_nil, hblank]
        split
        · exact .cons he.toSide .nil
        · exact .nil

theorem rawChars_isText {sql : Data} {aliasName : Name} {s : String} (hs : sql.asText? = some s)
    (ha : aliasName.isName = true) : ∃ cs, rawChars sql aliasName = .ok cs :=
  ⟨_, rawChars_eq hs fun ht => Option.isSome_iff_exists.mp (Expr.isText_of_isTrue ha ht)⟩

/-- Raw fragments of a text with the same names are twins. -/
theorem twin_raw {sql : Expr} {aliasName : Name} {template : Flag} (hs : sql.isText = true)
    (ha : aliasName.isName = true) (h : Forall₂ c.NamedTwin bindings bindings') :
    c.Twin (.raw sql aliasName template bindings) (.raw sql aliasName template bindings') := by
  obtain ⟨s, hs⟩ := Option.isSome_iff_exists.mp hs
  have bare : ∀ bindings, (Expr.raw sql aliasName template bindings).bare? = none := fun _ => by
    simp [Expr.bare?, hs]
  refine .plain (by rw [Expr.pairsWith, bare, bare]; rfl) ?_
  show c.Meets (rawText _ _ _ _) (rawText _ _ _ _)
  unfold rawText
  -- an empty template asks for nothing, not even for texts
  split
  · exact paired_ok (same_refl _)
  · obtain ⟨cs, hcs⟩ := rawChars_isText (show sql.view.asText? = some s from hs) ha
    rw [hcs]
    refine Paired.bind (R := Eq) (paired_ok rfl) ?_
    rintro cs _ rfl
    split
    · exact (meets_fillTemplate h _ _).bind fun _ _ hf =>
        (meets_requireTexts (fillings_sides h _)).bind fun _ _ _ => paired_ok hf
    · exact paired_ok (same_refl _)

end

end SqlScribe.Pairing
