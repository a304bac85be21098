import SqlScribe.Proofs.Pairing

/-!
# Every node preserves twins

If the parts of two nodes of one kind are twins, so are the nodes. Most layouts are the same in all
dialects, and the parts are written one after the other in the same order. There are two exceptions.
The nodes about JSON documents and full-text search differ between the dialects, so they are asked
for only where a dialect is compared with itself. And SQL Server compares rows item by item, in
another order than the rest; there only success is compared, and each side succeeds if and only if
all items can be written.
-/

namespace SqlScribe.Pairing

variable {c : Pairing} {d : Dialect} {e e' : Expr} {es es' : List Expr}

/-! ## Leaves -/

/-- Columns are twins if their names are written alike. -/
theorem twin_column {table name table' name' : Name}
    (h : c.Meets (qualified table name) (qualified table' name')) :
    c.Twin (.column table name) (.column table' name') := .plain rfl h

/-- A column that is asked about has names that are texts, where that is asked. -/
theorem Asks.column {table name : Name} (h : c.Asks (.expr (.column table name))) :
    c.Twin (.column table name) (.column table name) :=
  twin_column <| meets_self fun ht => by
    cases c with
    | alone d | portable d => exact qualified_isName h.1.1 h.1.2
    | shared => exact ht.elim

/-- So has a star. -/
theorem Asks.star {table : Name} (h : c.Asks (.expr (.star table))) :
    c.Twin (.star table) (.star table) :=
  .plain rfl <| meets_self fun ht => by
    cases c with
    | alone d | portable d => exact starOf_isName h.1
    | shared => exact ht.elim

/-- Values are bound in every dialect. -/
theorem twin_literal (v : Value) : c.Twin (.literal v) (.literal v) :=
  .plain rfl (paired_ok (same_refl _))

/-- The columns of a returned row are raw texts. -/
theorem twin_image (side : RowImage) (column : Option String) :
    c.Twin (.image side column) (.image side column) := by
  refine .plain rfl ?_
  cases column <;> exact paired_ok (same_refl _)

/-- A stray reference is the same error everywhere. -/
theorem twin_excluded (column : Name) : c.Twin (.excluded column) (.excluded column) :=
  .plain rfl (paired_error (allows_strayExcluded _) (allows_strayExcluded _))

/-- Constants are spelled by the dialects, and alike by those that have to write the same. -/
theorem twin_truth (value : Flag) : c.Twin (.truth value) (.truth value) where
  written := paired_ok (same_layout (f := fun d => Fragment.ofText (d.truthWord value.isTrue)) rfl)
  compound := rfl
  bare := rfl
  settled _ := rfl
  predicate := by
    have layout : ∀ d, ∃ f : Fragment, predicateOf d (.truth value) ((Expr.truth value).render d) =
        .ok f := fun d => by cases d <;> exact ⟨_, rfl⟩
    obtain ⟨f, hf⟩ := layout c.left
    obtain ⟨g, hg⟩ := layout c.right
    rw [hf, hg]
    refine paired_ok fun hx => ?_
    -- PostgreSQL and SQLite have the same words for them
    cases c with
    | shared => exact Except.ok.inj (hf.symm.trans hg)
    | alone d | portable d => exact hx.elim
  logical := rfl
  window hframe := meets_lacksPart fun ha => Bool.false_ne_true (hframe ha)
  search := rfl
  row := rfl
  parts := .nil

/-- What stands in the place of a window is absent, or an error that is allowed. -/
theorem meets_missingWindow (h : c.IsAlone → e.isFrame = true)
    (hw : ∀ p o, e ≠ .window p o) : c.Meets (missingWindow e) (missingWindow e) := by
  refine paired_self same_refl fun err herr => ?_
  cases c with
  | alone d =>
    -- in a dialect alone only absent windows are asked about, so nothing goes wrong
    have hf := h ⟨d, rfl⟩
    unfold missingWindow at herr
    split at herr
    · cases herr
    next object =>
      rw [show object.isTrue = false by simpa [Expr.isFrame] using hf] at herr
      cases herr
    next ht hf' =>
      unfold Expr.isFrame at hf
      split at hf
      · exact absurd rfl (hw _ _)
      · exact absurd rfl ht
      · exact absurd rfl (hf' _)
      · cases hf
  | shared => trivial
  | portable d =>
    unfold missingWindow at herr
    split at herr
    · cases herr
    · split at herr <;> cases herr
      trivial
    · cases herr
      trivial

/-- What is no expression is refused as such. -/
theorem twin_foreign (object : Data) : c.Twin (.foreign object) (.foreign object) where
  written := paired_error (allows_notExpression _ _) (allows_notExpression _ _)
  compound := rfl
  bare := rfl
  settled _ := rfl
  predicate := by
    have same : ∀ d, predicateOf d (.foreign object) ((Expr.foreign object).render d) =
        (Expr.foreign object).render d := fun d => by cases d <;> rfl
    rw [same, same]
    exact paired_error (allows_notExpression _ _) (allows_notExpression _ _)
  logical := rfl
  window hframe := meets_missingWindow hframe nofun
  search := rfl
  row := rfl
  parts := .nil

/-- Rows of items are no expressions anywhere. -/
theorem twin_tuple {items items' : List Expr} (h : items'.isEmpty = items.isEmpty) :
    c.Twin (.tuple items) (.tuple items') where
  written := paired_error (allows_notExpression _ _) (allows_notExpression _ _)
  compound := rfl
  bare := rfl
  settled _ := rfl
  predicate := by
    have same : ∀ d items, predicateOf d (.tuple items) ((Expr.tuple items).render d) =
        (Expr.tuple items).render d := fun d _ => by cases d <;> rfl
    rw [same, same]
    exact paired_error (allows_notExpression _ _) (allows_notExpression _ _)
  logical := rfl
  window hframe := by
    -- in the place of a window only their being empty is looked at
    have same : missingWindow (.tuple items') = missingWindow (.tuple items) := by
      cases items <;> cases items' <;> first | rfl | cases h
    show c.Meets (missingWindow (.tuple items)) (missingWindow (.tuple items'))
    rw [same]
    exact meets_missingWindow hframe nofun
  search := rfl
  row := rfl
  parts := .nil

/-! ## Operators -/

/-- A negation of a condition. -/
theorem Twin.not (h : c.Twin e e') : c.Twin (.not e) (.not e') :=
  .plain rfl <| (meets_operandOf h.compound h.predicate).bind fun _ _ hf =>
    paired_ok (hf.congr fun f => "NOT " ++ f)

theorem Twin.isNull (h : c.Twin e e') (negated : Flag) :
    c.Twin (.isNull e negated) (.isNull e' negated) :=
  .plain rfl <| h.operand.bind fun _ _ hf =>
    paired_ok (hf.congr fun f => f ++ (if negated.isTrue then " IS NOT NULL" else " IS NULL"))

/-- A comparison writes its left side first. -/
theorem Twin.binary {l l' r r' : Expr} (op : Operator) (hl : c.Twin l l') (hr : c.Twin r r') :
    c.Twin (.binary op l r) (.binary op l' r') :=
  .plain rfl <| hl.operand.bind fun _ _ hf => hr.operand.bind fun _ _ hg =>
    paired_ok (hf.congr₂ hg fun f g => f ++ " " ++ op.text ++ " " ++ g)

theorem Twin.between {l l' h h' : Expr} (he : c.Twin e e') (hl : c.Twin l l') (hh : c.Twin h h')
    (negated : Flag) : c.Twin (.between e l h negated) (.between e' l' h' negated) :=
  .plain rfl <| he.operand.bind fun _ _ hf => hl.operand.bind fun _ _ hg =>
    hh.operand.bind fun _ _ hk => paired_ok <| (hf.congr₂ hg Prod.mk).congr₂ hk fun p k =>
      p.1 ++ " " ++ keyword negated.isTrue "BETWEEN" ++ " " ++ p.2 ++ " AND " ++ k

/-- A connective over conditions. -/
theorem twin_logical (op : Connective) {first first' : Expr} {rest rest' : List Expr}
    (hf : c.Twin first first') (hs : List.Forall₂ c.Twin rest rest') :
    c.Twin (.logical op first rest) (.logical op first' rest') := by
  have hall : List.Forall₂ c.Twin (first :: rest) (first' :: rest') := .cons hf hs
  have hw : c.Meets ((Expr.logical op first rest).render c.left)
      ((Expr.logical op first' rest').render c.right) :=
    (meets_textsOf (Twin.sides hall) (meets_conditions hall)).map fun _ _ h =>
      h.2.congr (Fragment.join _)
  have same : ∀ d first rest, predicateOf d (.logical op first rest)
      ((Expr.logical op first rest).render d) = (Expr.logical op first rest).render d :=
    fun d _ _ => by cases d <;> rfl
  exact {
    written := hw
    compound := rfl
    bare := rfl
    settled := fun _ => rfl
    predicate := by rwa [same, same]
    logical := rfl
    window := fun hframe => meets_lacksPart fun ha => Bool.false_ne_true (hframe ha)
    search := rfl
    row := rfl
    parts := .nil }

/-! ## Calls and lists -/

/-- A call of a function, whose name is the same everywhere. -/
theorem twin_call (name : FunctionName) (h : List.Forall₂ c.Twin es es') (distinct : Flag) :
    c.Twin (.call name es distinct) (.call name es' distinct) :=
  .plain rfl <| (meets_texts (Twin.sides h)).bind fun _ _ hfs =>
    paired_ok <| hfs.2.congr fun fs => Fragment.ofText name.capitals ++
      (if distinct.isTrue then "DISTINCT " ++ Fragment.join ", " fs
        else Fragment.join ", " fs).parens

theorem twin_coalesce (h : List.Forall₂ c.Twin es es') :
    c.Twin (.coalesce es) (.coalesce es') :=
  .plain rfl <| (meets_texts (Twin.sides h)).map fun _ _ hfs => hfs.2.congr (callText "COALESCE")

/-- Joined texts: PostgreSQL and SQLite have the same operator for them. -/
theorem twin_concat (h : List.Forall₂ c.Twin es es') : c.Twin (.concat es) (.concat es') :=
  .plain rfl <| (meets_texts (Twin.sides h)).map fun fs gs hfs hx => by
    have layout : Dialect.concatenated .postgres = Dialect.concatenated .sqlite := by
      funext parts
      cases parts <;> rfl
    rw [hfs.2 hx, same_layout layout hx]

theorem Twin.sorted (h : c.Twin e e') (direction : Direction) :
    c.Twin (.sorted e direction) (.sorted e' direction) :=
  .plain rfl <| h.written.bind fun _ _ hf =>
    paired_ok (hf.congr fun f => f ++ " " ++ direction.text)

/-- Types and aggregates have other names in SQLite. -/
theorem Twin.cast (h : c.Twin e e') (target : LogicalType) (hx : ¬c.Exact) :
    c.Twin (.cast e target) (.cast e' target) :=
  .plain rfl <| h.written.bind fun _ _ _ => paired_ok fun hc => absurd hc hx

/-- Texts of a group have another function in each dialect, so only success is compared. -/
theorem Twin.aggregateText (h : c.Twin e e') (hx : ¬c.Exact) :
    c.Twin (.aggregateText e) (.aggregateText e') :=
  .plain rfl <| h.written.map fun _ _ _ hc => absurd hc hx

/-- Rows are tuples of their items, and their items are compared one by one elsewhere. -/
theorem twin_row {first first' : Expr} {rest rest' : List Expr} (hf : c.Twin first first')
    (hs : List.Forall₂ c.Twin rest rest') : c.Twin (.row first rest) (.row first' rest') := by
  have hall : List.Forall₂ c.Side (first :: rest) (first' :: rest') :=
    .cons hf.toSide (Twin.sides hs)
  have hw :
      c.Meets ((Expr.row first rest).render c.left) ((Expr.row first' rest').render c.right) :=
    (meets_texts hall).map fun _ _ hfs => hfs.2.congr Fragment.tuple
  have same : ∀ d first rest, predicateOf d (.row first rest) ((Expr.row first rest).render d) =
      (Expr.row first rest).render d := fun d _ _ => by cases d <;> rfl
  exact {
    written := hw
    compound := rfl
    bare := rfl
    settled := fun _ => rfl
    predicate := by rwa [same, same]
    logical := rfl
    window := fun hframe => meets_lacksPart fun ha => Bool.false_ne_true (hframe ha)
    search := rfl
    row := rfl
    parts := hall }

/-! ## Windows -/

/-- A window is no expression by itself. -/
theorem twin_window {partition partition' order order' : List Expr}
    (hp : List.Forall₂ c.Twin partition partition') (ho : List.Forall₂ c.Twin order order') :
    c.Twin (.window partition order) (.window partition' order') where
  written := paired_error (allows_notExpression _ _) (allows_notExpression _ _)
  compound := rfl
  bare := rfl
  settled _ := rfl
  predicate := by
    have same : ∀ d p o, predicateOf d (.window p o) ((Expr.window p o).render d) =
        (Expr.window p o).render d := fun d _ _ => by cases d <;> rfl
    rw [same, same]
    exact paired_error (allows_notExpression _ _) (allows_notExpression _ _)
  logical := rfl
  window _ := (meets_texts (Twin.sides hp)).bind fun _ _ hps =>
    (meets_texts (Twin.sides ho)).bind fun _ _ hos => paired_ok (hps.2.congr₂ hos.2 windowText)
  search := rfl
  row := rfl
  parts := .nil

/-- A call over a window. -/
theorem twin_over (name : FunctionName) (h : List.Forall₂ c.Twin es es') {spec spec' : Expr}
    (hs : c.Twin spec spec') (hframe : c.IsAlone → spec.isFrame = true) :
    c.Twin (.over name es spec) (.over name es' spec') :=
  .plain rfl <| (meets_texts (Twin.sides h)).bind fun _ _ hfs =>
    (hs.window hframe).bind fun _ _ hg =>
      paired_ok (hfs.2.congr₂ hg fun fs g => callText name.capitals fs ++ " OVER " ++ g.parens)

/-! ## Queries -/

section

variable {q : Query}

/-- A test whether a query has rows. -/
theorem twin_exists (h : c.Meets (q.render c.left) (q.render c.right)) (negated : Flag) :
    c.Twin (.exists q negated) (.exists q negated) :=
  .plain rfl <| h.bind fun _ _ hf =>
    paired_ok (hf.congr fun f => keyword negated.isTrue "EXISTS" ++ " " ++ f.parens)

theorem twin_scalar (h : c.Meets (q.render c.left) (q.render c.right)) :
    c.Twin (.scalar q) (.scalar q) := .plain rfl (meets_parens h)

/-- A membership in the rows of a query. -/
theorem Twin.inQuery (he : c.Twin e e') (h : c.Meets (q.render c.left) (q.render c.right))
    (negated : Flag) : c.Twin (.inQuery e q negated) (.inQuery e' q negated) :=
  .plain rfl <| he.operand.bind fun _ _ hf => h.bind fun _ _ hg => paired_ok <|
    hf.congr₂ hg fun f g => f ++ " " ++ keyword negated.isTrue "IN" ++ " " ++ g.parens

end

end SqlScribe.Pairing
