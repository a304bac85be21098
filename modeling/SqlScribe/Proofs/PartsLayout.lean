import SqlScribe.Proofs.Layout
import SqlScribe.Proofs.Parts

/-!
# Layouts show what they are laid out from

One lemma for each layout: whatever is written for the operands of a node, for the items of a list
or for the clauses of a select is a part of what is laid out from it. A few layouts leave something
out. A constant under a condition is written as a comparison, a blank leaves nothing in a template,
and the columns of a search are taken out of it where the dialect lists them itself.
-/

namespace SqlScribe

open Fragment (PartOf Within)

section

variable {written written' : Rendered Fragment} {ws ws' : List (Rendered Fragment)}

/-! ## Operands and conditions -/

theorem shows_operandOf (e : Expr) : Shows sole [] [written] (operandOf e written) := by
  unfold operandOf
  split
  · exact shows_self.map (by grind)
  · exact shows_self

theorem shows_conditionOf (d : Dialect) (e : Expr) :
    Shows sole [] [predicateOf d e written] (conditionOf d e written) := by
  unfold conditionOf
  dsimp only
  split
  · exact shows_self.map (by grind)
  · exact shows_self

theorem shows_conditionsOf (d : Dialect) (op : Connective) (es : List Expr)
    (x : Expr → Rendered Fragment) :
    Shows sole [] (es.map fun e => predicateOf d e (x e))
      (conditionsOf d op es (es.map x)) := by
  have each : Shows id [] (es.map fun e => conditionOf d e (x e))
      (textsOf es (es.zipWith (conditionOf d) (es.map x))) := by
    rw [List.zipWith_map_right, List.zipWith_self]
    exact shows_textsOf es
  refine (each.map (by grind)).trans fun v hv => ?_
  obtain ⟨e, he, rfl⟩ := List.mem_map.mp hv
  exact ⟨_, List.mem_map_of_mem he, shows_conditionOf d e⟩

/-! ## Memberships -/

theorem shows_membershipOf (e : Expr) (es : List Expr) (negated : Bool) :
    Shows sole [] ([written] ++ ws) (membershipOf e written es ws negated) :=
  (shows_operandOf e).bind fun l => (shows_textsOf es).last fun fs => shows_ok (by grind)

theorem shows_rowMembershipOf (d : Dialect) (negated : Bool) :
    Shows sole [] ([written] ++ ws) (rowMembershipOf d written ws negated) := by
  unfold rowMembershipOf
  exact shows_self.bind fun l => shows_allOk.last fun fs => shows_ok (by grind)

theorem shows_equalityOf (left right : Expr × Rendered Fragment) :
    Shows sole [] [left.2, right.2] (equalityOf left right) :=
  (shows_operandOf left.1).bind fun l => (shows_operandOf right.1).last fun r => shows_ok (by grind)

/-- A comparison of rows shows each item on the left once for each row. -/
theorem shows_rowAlternativesOf (left : List (Expr × Rendered Fragment))
    (rows : List (List (Expr × Rendered Fragment))) (negated : Bool) :
    Shows sole [] (rows.flatMap fun row => (left.zip row).flatMap fun p => [p.1.2, p.2.2])
      (rowAlternativesOf left rows negated) := by
  have pairs : ∀ row : List (Expr × Rendered Fragment), Shows id []
      ((left.zip row).flatMap fun p => [p.1.2, p.2.2]) (allOk (left.zipWith equalityOf row)) := by
    intro row
    rw [← List.map_uncurry_zip_eq_zipWith]
    exact shows_each fun p _ => shows_equalityOf p.1 p.2
  exact (shows_each fun row _ => (pairs row).map (by grind)).last fun fs => shows_ok (by grind)

/-! ## Calls and texts -/

@[grind ←] theorem partOf_callText {g : Fragment} {fs : List Fragment} {name : String}
    (h : Within g fs) : g.PartOf (callText name fs) := .right _ (Fragment.partOf_tuple h)

@[grind ←] theorem partOf_castTo {f g : Fragment} {type : String} (h : g.PartOf f) :
    g.PartOf (Dialect.castTo f type) := .left _ (.left _ (.left _ (.right _ h)))

@[grind ←] theorem partOf_negatedIf {f g : Fragment} {negated : Bool} (h : g.PartOf f) :
    g.PartOf (negatedIf negated f) := by
  unfold negatedIf
  split
  · exact .right _ (Fragment.partOf_parens h)
  · exact h

theorem partOf_concatenated (d : Dialect) {g : Fragment} {fs : List Fragment} (h : Within g fs) :
    g.PartOf (d.concatenated fs) := by
  unfold Dialect.concatenated
  split
  · exact absurd h Fragment.within_nil
  · split <;> grind

theorem partOf_aggregated (d : Dialect) {f g : Fragment} (h : g.PartOf f) :
    g.PartOf (d.aggregated f) := by
  unfold Dialect.aggregated
  split <;> grind

/-! ## JSON -/

theorem shows_jsonPartOf (d : Dialect) (e : Expr) (path : JsonPath) (asText : Bool) :
    Shows sole [] [written] (jsonPartOf d e written path asText) := by
  cases d with
  | sqlite | mssql => exact shows_self.last fun f => shows_ok (by grind)
  | mysql => exact shows_self.last fun f => shows_ok (by grind)
  | postgres =>
    cases path with
    | text s => exact shows_error
    | keys first rest =>
      refine (shows_operandOf e).last fun f => shows_ok ?_
      have inner : ∀ operator : String, ∀ keys : Fragment,
          f.PartOf (Fragment.parens (Fragment.cross (f ++ operator) keys)) := fun _ _ =>
        Fragment.partOf_parens (.first _ (.left _ .self))
      grind

theorem shows_jsonContainsSql (d : Dialect) (e : Expr) (negated : Bool) :
    Shows sole [] [written, written'] (jsonContainsSql d e written written' negated) := by
  cases d with
  | sqlite | mssql => exact shows_error
  | mysql => exact shows_self.bind fun f => shows_self.last fun g => shows_ok (by grind)
  | postgres => exact (shows_operandOf e).bind fun f => shows_self.last fun g => shows_ok (by grind)

theorem shows_jsonEdgeSql (d : Dialect) (e : Expr) (edge : ArrayEdge) (negated : Bool) :
    Shows sole [] [written, written'] (jsonEdgeSql d e written written' edge negated) := by
  cases d with
  | mssql => exact shows_error
  | mysql => exact shows_self.bind fun f => shows_self.last fun g => shows_ok (by grind)
  | sqlite | postgres =>
    exact (shows_operandOf e).bind fun f => shows_self.last fun g => shows_ok (by grind)

theorem shows_jsonTypeSql (d : Dialect) (type : JsonType) :
    Shows sole [] [written] (jsonTypeSql d written type) := by
  unfold jsonTypeSql
  split
  · exact shows_error
  · refine shows_self.last fun f => ?_
    dsimp only
    split
    · exact shows_ok (by grind)
    · exact shows_ok (by grind)

/-! ## Full-text search -/

theorem shows_searchedColumns (d : Dialect) (es : List Expr) :
    Shows sole [] ws (searchedColumns d es ws) := by
  unfold searchedColumns
  split
  · refine shows_allOk.last fun fs => ?_
    split
    · exact shows_ok (by grind)
    · exact shows_after fun _ => shows_ok (by grind)
  · exact shows_error

/-- The columns of a search are shown one by one, but for PostgreSQL, which shows the search. -/
theorem shows_matchSql (d : Dialect) (e : Expr) (negated : Bool) :
    Shows sole []
      ((if e.isTextSearch && d != .postgres then ws else [written]) ++ [written'])
      (matchSql d e written ws written' negated) := by
  have columns : (d != .postgres) = true → Shows sole []
      ((if e.isTextSearch then ws else [written]) ++ [written'])
      (matchSql d e written ws written' negated) := by
    intro hd
    unfold matchSql
    cases d with
    | postgres => cases hd
    | sqlite => exact shows_error
    | mysql =>
      refine (shows_textsOf _).bind fun fs => shows_self.last fun q => shows_ok ?_
      have listed : ∀ g, Within g fs → g.PartOf ("MATCH " ++ Fragment.tuple fs ++ " AGAINST (") :=
        by grind
      grind
    | mssql =>
      refine (shows_textsOf _).bind fun fs => shows_self.last fun q => shows_ok ?_
      split <;> grind
  cases d with
  | postgres =>
    rw [bne_self_eq_false, Bool.and_false]
    exact shows_self.bind fun f => shows_self.last fun q => shows_ok (by grind)
  | sqlite | mysql | mssql => simpa using columns rfl

/-! ## Windows -/

@[grind ←] theorem within_listClause {g : Fragment} {word : String} {fs : List Fragment}
    (h : Within g fs) : Within g (listClause word fs) := by
  unfold listClause
  split
  next he =>
    obtain rfl := List.isEmpty_iff.mp he
    exact absurd h Fragment.within_nil
  · exact ⟨_, List.mem_singleton_self _, .right _ (Fragment.partOf_join h)⟩

@[grind ←] theorem partOf_windowText {g : Fragment} {partition order : List Fragment}
    (h : Within g partition ∨ Within g order) : g.PartOf (windowText partition order) := by
  unfold windowText
  grind

/-! ## Clauses -/

@[grind ←] theorem within_projectionOf {g : Fragment} {distinct : Bool} {fs : List Fragment}
    (h : Within g fs) : Within g (projectionOf distinct fs) := by
  have hne : fs.isEmpty = false := by
    cases fs with
    | nil => exact absurd h Fragment.within_nil
    | cons _ _ => rfl
  rw [projectionOf, hne]
  exact ⟨_, List.mem_cons_of_mem _ (List.mem_singleton_self _), Fragment.partOf_join h⟩

/-- The order that is given stands in the clauses for the rows. -/
theorem shows_rowClauses (d : Dialect) (source : Option Source) (items : List SelectItem)
    (distinct : Bool) (order : List Fragment) (limit offset : Option Nat) :
    Shows id order [] (rowClauses d source items distinct order limit offset) := by
  unfold rowClauses
  split
  · dsimp only
    split
    next he =>
      have none : order = [] := by
        cases order with
        | nil => rfl
        | cons _ _ => cases he
      rw [none]
      exact shows_nothing _
    · exact shows_ok (by grind)
  · exact shows_ok (by grind)

/-! ## Raw fragments -/

/-- What is written for an expression that does not leave a template blank. -/
def unblank (x : Expr → Rendered Fragment) (es : List Expr) : List (Rendered Fragment) :=
  (es.filter fun e => !e.isBlank).map x

theorem shows_fillTemplate (template : String) (bindings : List (Name × Expr))
    (x : Expr → Rendered Fragment) (parts : List Template.Part) :
    Shows sole [] (unblank x (markedBy bindings parts))
      (fillTemplate template (bindings.map fun b => (b.1, b.2, x b.2)) parts) := by
  induction parts with
  | nil => exact shows_ok nofun
  | cons part rest ih =>
    cases part with
    | text cs => exact ih.last fun f => shows_ok (by grind)
    | mark name =>
      unfold fillTemplate
      rw [boundTo_map]
      cases hb : bindingOf bindings name with
      | none => exact shows_error
      | some e =>
        rw [markedBy, hb]
        cases hblank : e.isBlank with
        | true =>
          simp only [unblank, Option.toList_some, List.singleton_append, List.filter_cons, hblank]
          exact shows_after fun f => ih.last fun f' => shows_ok (by grind)
        | false =>
          simp only [unblank, Option.toList_some, List.singleton_append, List.filter_cons, hblank]
          exact shows_self.bind fun f => ih.last fun f' => shows_ok (by grind)

theorem shows_rawText (sql : Data) (aliasName : Name) (template : Bool)
    (bindings : List (Name × Expr)) (x : Expr → Rendered Fragment) :
    Shows sole [] (unblank x (rawParts sql aliasName template bindings))
      (rawText sql aliasName template (bindings.map fun b => (b.1, b.2, x b.2))) := by
  unfold rawText rawParts
  cases template with
  | false => exact shows_nothing _
  | true =>
    rw [Bool.not_true, Bool.and_false, if_neg Bool.false_ne_true, if_neg Bool.false_ne_true]
    cases rawChars sql aliasName with
    | error e => exact shows_error
    | ok cs =>
      exact (shows_fillTemplate sql.plain bindings x _).last fun f =>
        shows_after fun _ => shows_ok (by grind)

end

end SqlScribe
