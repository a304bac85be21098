import SqlScribe.Proofs.PassStatement

/-!
# Grounded expressions

A reference to an incoming value has no text of its own: it can only be written where an upsert
replaces it. The pass `grounding` puts a constant, which can always be written, in the place of
every such reference, at any depth and in nested selects too. Where an expression serves as a name
or a switch it is not written, and it is left alone.

A grounded expression has the kind and the parts of the original, which is all that a layout asks
for (`Pass.KeepsLooks`), and it is rebuilt like the original where images of rows are concerned. It
is not written like the original, so nothing is said here about `Pass.Writes`.
-/

namespace SqlScribe

/-- A constant for a reference to an incoming value, and anything else as it is. -/
def groundRoot : Expr → Expr
  | .excluded column => .truth column
  | e => e

/-- The pass that puts constants in place of references to incoming values. -/
def grounding : Pass where
  root _ := groundRoot
  select s := s
  stranger := none
  member := none

/-- An expression with constants in place of references to incoming values. -/
abbrev Expr.grounded (e : Expr) : Expr := e.pass grounding .value

/-- A select with grounded expressions. -/
abbrev Select.grounded (s : Select) : Select := s.pass grounding

/-- An item of a projection with a grounded expression. -/
abbrev SelectItem.grounded (i : SelectItem) : SelectItem := i.pass grounding

instance : grounding.KeepsLooks where
  root _ e := by
    cases e with
    | excluded _ => exact {}
    | _ => exact .refl _

/-! ## Lists of one kind

Values and conditions are grounded alike. -/

theorem passAll_grounding (role : Role) (es : List Expr) :
    passAll grounding role es = es.map Expr.grounded :=
  passAll_eq_map grounding role es

theorem passFilter_grounding (filter : Option Expr) :
    passFilter grounding filter = filter.map Expr.grounded :=
  passFilter_eq_map grounding filter

theorem requireTexts_grounded (es : List Expr) :
    requireTexts (es.map Expr.grounded) = requireTexts es :=
  requireTexts_pass grounding .value es

/-! ## Rebuilding -/

/-- All nodes but references to incoming values stay what they are. -/
theorem tops_grounding : grounding.Tops fun e => ∀ column, e ≠ .excluded column where
  role _ _ _ := rfl
  fields e he := by
    cases e with
    | excluded column => exact absurd rfl (he column)
    | _ => rfl
  mapFields g e he := by
    cases e with
    | excluded column => exact absurd rfl (he column)
    | _ => rfl
  rechecked _ e := by
    cases e with
    | inList operand items negated => exact makeInList_of_eq (k := groundRoot) rfl
    | _ => rfl
  form _ e := by cases e <;> simp [Expr.mapFields]
  inner e he := by
    cases e with
    | excluded column => exact absurd rfl (he column)
    | _ => simp [Expr.inner]

/-- Taking columns from an image of the row does the same with and without references. -/
theorem imageOf_grounded (side : RowImage) (role : Role) (e : Expr) :
    imageOf side (e.pass grounding role) = (imageOf side e).map (Expr.pass grounding role) := by
  cases e with
  | column table name =>
    show imageOf side (.column table name) = _
    unfold imageOf
    dsimp only
    cases name.asText? <;> rfl
  | _ => rfl

/-- So do the items of an output clause. -/
theorem imageItems_grounded (side : RowImage) (items : List SelectItem) :
    imageItems side (items.map SelectItem.grounded) =
      (imageItems side items).map (List.map SelectItem.grounded) := by
  refine imageItems_pass (fun e => ?_) items
  refine Pass.mapNodesM tops_grounding (imageOf_grounded side) (fun role e hother => ?_) .value e
  obtain ⟨column, rfl⟩ := not_forall_not.mp hother
  -- the name of the column is rebuilt on both sides
  exact map_bind_after fun c => imageOf_grounded side role (.excluded c)

end SqlScribe
