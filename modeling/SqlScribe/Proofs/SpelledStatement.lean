import SqlScribe.PreparedQuery
import SqlScribe.Proofs.PairedStatement
import SqlScribe.Proofs.PassNodes
import SqlScribe.Proofs.SpelledTruths

/-!
# Statements with spelled constants

SQL Server is given the same query for a statement and for the statement with its constants spelled
out, and there no constant is left: neither in what is written nor in what is not. A condition is
expected by a change of a table and by an upsert, besides the places inside of queries; what is
assigned, inserted and returned are values.
-/

namespace SqlScribe

/-! ## No constant is left -/

/-- Whether a node is no constant. -/
def Tree.NoConstant : Tree → Prop
  | .expr (.truth (.foreign _)) => False
  | _ => True

mutual

/-- **All constants of an expression are spelled out.** -/
theorem all_spellOut (role : Role) : ∀ e : Expr, (e.spellOut role).All Tree.NoConstant
  | .truth given => by
    cases given with
    | foreign _ => exact ⟨trivial, trivial⟩
    | _ => trivial
  | .column _ _ | .star _ | .literal _ | .rowToJson _ _ | .excluded _ | .image _ _
  | .foreign _ => trivial
  | .not operand => ⟨trivial, all_spellOut .condition operand⟩
  | .isNull operand _ | .cast operand _ | .aggregateText operand | .sorted operand _
  | .jsonExtract operand _ _ | .jsonType operand _ => ⟨trivial, all_spellOut .value operand⟩
  | .binary _ left right | .jsonContains left right _ | .jsonEdge left right _ _
  | .matches left right _ => ⟨trivial, all_spellOut .value left, all_spellOut .value right⟩
  | .logical _ first rest =>
    ⟨trivial, all_spellOut .condition first, allExprs_spellOut .condition rest⟩
  | .row first rest | .textSearch first rest =>
    ⟨trivial, all_spellOut .value first, allExprs_spellOut .value rest⟩
  | .inList operand items _ =>
    ⟨trivial, all_spellOut .value operand, allExprs_spellOut .value items⟩
  | .inQuery operand query _ => ⟨trivial, all_spellOut .value operand, allQuery_spellOut query⟩
  | .between operand low high _ =>
    ⟨trivial, all_spellOut .value operand, all_spellOut .value low, all_spellOut .value high⟩
  | .exists query _ | .scalar query => ⟨trivial, allQuery_spellOut query⟩
  | .call _ args _ | .coalesce args | .concat args | .tuple args =>
    ⟨trivial, allExprs_spellOut .value args⟩
  | .window partition order =>
    ⟨trivial, allExprs_spellOut .value partition, allExprs_spellOut .value order⟩
  | .over _ args spec => ⟨trivial, allExprs_spellOut .value args, all_spellOut .value spec⟩
  | .raw _ _ _ bindings => ⟨trivial, allBindings_spellOut bindings⟩

theorem allExprs_spellOut (role : Role) : ∀ es : List Expr,
    allExprs Tree.NoConstant (passAll spelling role es)
  | [] => trivial
  | e :: rest => ⟨all_spellOut role e, allExprs_spellOut role rest⟩

theorem allBindings_spellOut : ∀ bs : List (Name × Expr),
    allBindings Tree.NoConstant (passBindings spelling bs)
  | [] => trivial
  | b :: rest => ⟨allBinding_spellOut b, allBindings_spellOut rest⟩

theorem allBinding_spellOut : ∀ b : Name × Expr, allBinding Tree.NoConstant (passBinding spelling b)
  | (_, e) => all_spellOut .value e

theorem allOption_spellOut : ∀ filter : Option Expr,
    allOption Tree.NoConstant (passFilter spelling filter)
  | none => trivial
  | some e => all_spellOut .condition e

theorem allQuery_spellOut : ∀ q : Query, (q.pass spelling).All Tree.NoConstant
  | .select s => allSelect_spellOut s
  | .union u => allUnion_spellOut u
  | .draft _ | .other _ => trivial

theorem allUnion_spellOut : ∀ u : Union, (u.pass spelling).All Tree.NoConstant
  | ⟨members, _⟩ => allSelects_spellOut members

theorem allSelects_spellOut : ∀ ss : List Select,
    allSelects Tree.NoConstant (passSelects spelling ss)
  | [] => trivial
  | s :: rest => ⟨allSelect_spellOut s, allSelects_spellOut rest⟩

theorem allSelect_spellOut : ∀ s : Select, (s.pass spelling).All Tree.NoConstant
  | ⟨items, source, joins, filter, groupBy, having, orderBy, _, _, _⟩ =>
    ⟨trivial, allItems_spellOut items, allOrigin_spellOut source, allJoins_spellOut joins,
      allOption_spellOut filter, allExprs_spellOut .value groupBy, allOption_spellOut having,
      allExprs_spellOut .value orderBy⟩

theorem allOrigin_spellOut : ∀ o : Option Source, allOrigin Tree.NoConstant (passOrigin spelling o)
  | none => trivial
  | some o => allSource_spellOut o

theorem allSource_spellOut : ∀ o : Source, (o.pass spelling).All Tree.NoConstant
  | .derived query _ => allQuery_spellOut query
  | .table _ | .other _ => trivial

theorem allItems_spellOut : ∀ items : List SelectItem,
    allItems Tree.NoConstant (passItems spelling items)
  | [] => trivial
  | i :: rest => ⟨allItem_spellOut i, allItems_spellOut rest⟩

theorem allItem_spellOut : ∀ i : SelectItem, (i.pass spelling).All Tree.NoConstant
  | ⟨e, _⟩ => all_spellOut .value e

theorem allJoins_spellOut : ∀ joins : List Join, allJoins Tree.NoConstant (passJoins spelling joins)
  | [] => trivial
  | j :: rest => ⟨allJoin_spellOut j, allJoins_spellOut rest⟩

theorem allJoin_spellOut : ∀ j : Join, (j.pass spelling).All Tree.NoConstant
  | .join right on _ => ⟨allSource_spellOut right, allOption_spellOut on⟩
  | .other _ => trivial

end

theorem Tree.all_passed {t t' : Tree} (h : Passed spelling t t') : t'.All Tree.NoConstant := by
  cases h with
  | expr role e => exact all_spellOut role e
  | select s => exact allSelect_spellOut s

theorem Statement.all_spellOut (s : Statement) : s.spellOut.All Tree.NoConstant := by
  have trees : List.Forall₂ (fun t' t => t'.All Tree.NoConstant ∧ Passed spelling t t')
      (s.spellOut.clauses ++ s.spellOut.extras) (s.clauses ++ s.extras) :=
    (s.passed_trees spelling).flip.imp fun t' t h => ⟨Tree.all_passed h, h⟩
  exact ((List.forall₂_and_left _ _).mp trees).1

/-- **A condition is never a bare bit.** No constant is left in the statement with its constants
spelled out, as comparisons where conditions are expected and as numbers elsewhere, and SQL Server
is given the same query for it, or fails with the same error. -/
theorem Statement.toQuery_spellOut (s : Statement) (quoteAll : Bool) :
    s.spellOut.All Tree.NoConstant ∧
      s.spellOut.toQuery ⟨.mssql, quoteAll⟩ = s.toQuery ⟨.mssql, quoteAll⟩ := by
  refine ⟨s.all_spellOut, ?_⟩
  rw [toQuery, toQuery, s.render_spellOut]

end SqlScribe
