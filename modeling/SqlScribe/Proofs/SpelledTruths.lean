import SqlScribe.Proofs.PassStatement

/-!
# Constants spelled out

SQL Server has no truth values. Its `BIT` is a number, so a constant is `1` or `0` where a value is
expected, and a comparison such as `1=1` where a condition is. The pass `spelling` puts a raw
fragment in place of every constant of a tree, spelled for the role of its place (`Role`). What is
no query, no source and no join is left alone.

The role is handed down from node to node. So it says by itself, without the functions that write a
tree, which of them has to be at work in which place. None of the layouts tells a constant from the
fragment in its place, and SQL Server is given the same text for both (`writes_spelling`).

Before a merge is written, and before rows are returned, expressions are rebuilt. That changes
references to columns and nothing else, so it does not matter whether constants are spelled out
before or after (`rewrites_spelling`).
-/

namespace SqlScribe

namespace Role

/-- A constant in SQL Server. -/
def word : Role → Bool → String
  | value, on => if on then "1" else "0"
  | condition, on => if on then "1=1" else "1=0"

theorem ofText_condition (on : Bool) :
    Fragment.ofText (condition.word on) =
      if on then Fragment.ofText "1=1" else Fragment.ofText "1=0" := by
  cases on <;> rfl

theorem ofText_value (on : Bool) :
    Fragment.ofText (value.word on) = Dialect.mssql.truthWord on := by
  cases on <;> rfl

/-- A constant, as a raw fragment. Only data are constants; the truth of an expression is left
alone. -/
def spell (role : Role) : Expr → Expr
  | .foreign object => .raw (.word (role.word object.isTrue)) .absent (.switch false) []
  | given => .truth given

end Role

/-- A constant spelled for a role, and anything else as it is. -/
def spellRoot (role : Role) : Expr → Expr
  | .truth given => role.spell given
  | e => e

/-- The pass that spells out constants. -/
def spelling : Pass where
  root := spellRoot
  select s := s
  stranger := none
  member := some .value

/-- An expression with its constants spelled out, in a place with this role. -/
abbrev Expr.spellOut (role : Role) (e : Expr) : Expr := e.pass spelling role

/-- A statement with its constants spelled out. -/
def Statement.spellOut (s : Statement) : Statement := s.pass spelling

/-- No fragment that is put in place of a constant needs parentheses, as no constant does. -/
instance : spelling.KeepsLooks where
  root role e := by
    cases e with
    | truth given =>
      cases given with
      | foreign _ => exact {}
      | _ => exact .refl _
    | _ => exact .refl _

/-! ## What is written for a constant -/

/-- **A condition is written as one.** Where a constant stands it is spelled as a comparison, as SQL
Server writes it there; any other condition is written like a value. -/
theorem predicateOf_spellRoot (e : Expr) :
    predicateOf .mssql (spellRoot .condition e) ((spellRoot .condition e).render .mssql) =
      predicateOf .mssql e (e.render .mssql) := by
  cases e with
  | truth given =>
    cases given with
    | foreign object => exact congrArg Except.ok (Role.ofText_condition object.isTrue)
    | _ => rfl
  | _ => rfl

theorem render_spellRoot (e : Expr) :
    (spellRoot .value e).render .mssql = e.render .mssql := by
  cases e with
  | truth given =>
    cases given with
    | foreign object => exact congrArg Except.ok (Role.ofText_value object.isTrue)
    | _ => rfl
  | _ => rfl

theorem writes_spelling : spelling.Writes id .mssql where
  value e := congrArg _ (render_spellRoot e)
  condition e := congrArg _ (predicateOf_spellRoot e)
  window e := by
    cases e with
    | truth given => cases given <;> rfl
    | _ => rfl
  select _ := .refl _
  typeName _ := nofun

/-! ## Rebuilding -/

/-- All nodes but constants stay what they are. -/
theorem tops_spelling : spelling.Tops fun e => ∀ given, e ≠ .truth given where
  role _ e he := by
    cases e with
    | truth given => exact absurd rfl (he given)
    | _ => rfl
  fields e he := by
    cases e with
    | truth given => exact absurd rfl (he given)
    | _ => rfl
  mapFields g e he := by
    cases e with
    | truth given => exact absurd rfl (he given)
    | _ => rfl
  rechecked role e := by
    cases e with
    | inList operand items negated => exact makeInList_of_eq (k := spellRoot role) rfl
    | truth given => cases given <;> rfl
    | _ => rfl
  form _ e := by cases e <;> simp [Expr.mapFields]
  inner e he := by
    cases e with
    | truth given => exact absurd rfl (he given)
    | _ => simp [Expr.inner]

theorem leavesReferences_spelling : spelling.LeavesReferences where
  column _ _ _ := rfl
  star _ _ := rfl
  excluded _ _ := rfl
  image _ _ _ := rfl
  call _ _ _ _ := rfl
  other _ e h := by
    cases e with
    | truth given => cases given <;> rfl
    | column _ _ | star _ | excluded _ => cases h
    | _ => rfl

/-- Whether a function on nodes does not tell constants from the fragments in their places, and
gives expressions for expressions. -/
structure KeepsTruths (f : Expr → Build Expr) : Prop where
  spelled : ∀ role e, f (e.spellOut role) = (f e).map (Expr.spellOut role)
  isExpr : ∀ {e e'}, e.isExpr = true → f e = .ok e' → e'.isExpr = true

section

variable {f : Expr → Build Expr} (hf : KeepsTruths f)

include hf

/-- An expression is rebuilt to an expression, whatever becomes of its fields. -/
theorem isExpr_rebuild {e e' : Expr} (he : e.isExpr = true) (h : Expr.rebuild f e = .ok e') :
    e'.isExpr = true := by
  rw [Expr.rebuild_eq f he, bind_eq_ok] at h
  obtain ⟨fs, -, h⟩ := h
  obtain ⟨node, hnode, h⟩ := bind_eq_ok.mp h
  rw [Expr.built_eq_self] at hnode
  exact hf.isExpr (Expr.isExpr_rechecked ((e.isExpr_withFields fs).trans he) hnode) h

/-- What stands for the truth of a constant and is no data is not rebuilt to data. So it is left
alone afterwards as it was before. -/
theorem spell_rebuild (role : Role) {given given' : Expr} (hgiven : ∀ o, given ≠ .foreign o)
    (h : Expr.rebuild f given = .ok given') : role.spell given' = .truth given' := by
  -- what is given is an expression, which stays one, or a list, which stays a list
  cases he : given.isExpr with
  | true =>
    have he' := isExpr_rebuild hf he h
    cases given' with
    | foreign _ => cases he'
    | _ => rfl
  | false =>
    cases given with
    | foreign o => exact absurd rfl (hgiven o)
    | tuple items =>
      obtain ⟨items', -, ⟨⟩⟩ := bind_eq_ok.mp h
      rfl
    | _ => cases he

theorem rebuild_truth (role : Role) {given : Expr} (hgiven : ∀ o, given ≠ .foreign o) :
    Expr.rebuild f (.truth given) =
      (Expr.rebuild f (.truth given)).map (Expr.spellOut role) := by
  rw [Expr.rebuild]
  cases h : Expr.rebuild f given with
  | error _ => rfl
  | ok given' =>
    have spelled := hf.spelled role (.truth given')
    rw [show (Expr.truth given').spellOut role = role.spell given' from rfl,
      spell_rebuild hf role hgiven h] at spelled
    exact spelled

theorem KeepsTruths.mapNodesM (role : Role) (e : Expr) :
    Expr.mapNodesM f (e.spellOut role) = (Expr.mapNodesM f e).map (Expr.spellOut role) := by
  refine Pass.mapNodesM tops_spelling hf.spelled (fun role e hother => ?_) role e
  obtain ⟨given, rfl⟩ := not_forall_not.mp hother
  cases given with
  -- the fields of the fragment are data, which are not rebuilt
  | foreign object => exact hf.spelled role (.truth (.foreign object))
  | _ => exact rebuild_truth hf role fun _ => nofun

end

theorem keepsTruths_replaceExcluded (d : Dialect) :
    KeepsTruths fun e => .ok (replaceExcluded (incoming d) e) where
  spelled role e := congrArg Except.ok (leavesReferences_spelling.replaceExcluded role e d)
  isExpr {e e'} he h := by
    cases h
    unfold replaceExcluded
    split
    · cases d <;> rfl
    · exact he

theorem keepsTruths_mergeScope (target : Name) :
    KeepsTruths fun e => .ok (mergeScope target e) where
  spelled role e := congrArg Except.ok (leavesReferences_spelling.mergeScope role e target)
  isExpr {e e'} he h := by
    cases h
    unfold mergeScope
    split <;> first | rfl | exact he

theorem keepsTruths_imageOf (side : RowImage) : KeepsTruths (imageOf side) where
  spelled role e := leavesReferences_spelling.imageOf role e side
  isExpr {e e'} he h := by
    unfold imageOf at h
    split at h
    · split at h <;> cases h
      rfl
    · cases h
      rfl
    · cases h
      exact he

theorem rewrites_spelling : spelling.Rewrites where
  excluded d := (keepsTruths_replaceExcluded d).mapNodesM
  merge target := (keepsTruths_mergeScope target).mapNodesM
  image side := (keepsTruths_imageOf side).mapNodesM

theorem Statement.render_spellOut (s : Statement) : s.spellOut.render .mssql = s.render .mssql :=
  (s.same_render rewrites_spelling writes_spelling).eq_of_id

end SqlScribe
