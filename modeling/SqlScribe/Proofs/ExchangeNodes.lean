import SqlScribe.Proofs.Exchange
import SqlScribe.Proofs.PairedStatement
import SqlScribe.Proofs.PassNodes

/-!
# Properties of all nodes over exchanged selects

A tree and the tree with its selects exchanged have the same shape, node by node. So what is known
of a node and its counterpart at every place is known of whole trees and of statements. Here a
property of a node comes to that property of its counterpart and another one of the node itself.
-/

namespace SqlScribe

/-! ## Whole trees -/

/-- A tree with its selects exchanged. -/
def Tree.exchange (f : Select → Select) : Tree → Tree
  | .expr e => .expr (e.exchange f)
  | .select s => .select (s.exchange f)

/-- Whether all nodes below the root of a select have a property. -/
def Select.Inside (p : Tree → Prop) (s : Select) : Prop :=
  allItems p s.items ∧ allOrigin p s.source ∧ allJoins p s.joins ∧ allOption p s.filter ∧
    allExprs p s.groupBy ∧ allOption p s.having ∧ allExprs p s.orderBy

theorem Select.all_iff {p : Tree → Prop} {s : Select} :
    s.All p ↔ p (.select s) ∧ s.Inside p := by
  cases s
  exact Iff.rfl

/-- Whether a node has a property if and only if the node with exchanged selects has it, and the
node itself has another one. What an exchanged select shows inside is what it showed before. -/
structure Splits (f : Select → Select) (p q : Tree → Prop) : Prop where
  root : ∀ t : Tree, p t ↔ p (t.exchange f) ∧ q t
  inside : ∀ s : Select, (f s).Inside p ↔ s.Inside p

section

variable {f : Select → Select} {p q : Tree → Prop}

/-- What splits in two places splits in both together. -/
theorem both {a a' b b' c c' : Prop} (h : a ↔ b ∧ c) (h' : a' ↔ b' ∧ c') :
    a ∧ a' ↔ (b ∧ b') ∧ c ∧ c' := by
  rw [h, h', and_and_and_comm]

/-- Where nothing is asked, nothing is split. -/
theorem neither : True ↔ True ∧ True := and_self_iff.symm

/-- A select splits if it does inside, since an exchanged select shows there what it showed. -/
theorem Splits.select (h : Splits f p q) {s : Select}
    (hs : s.Inside p ↔ (s.inner (exchanging f)).Inside p ∧ s.Inside q) :
    s.All p ↔ (s.exchange f).All p ∧ s.All q := by
  rw [Select.all_iff, Select.all_iff, Select.all_iff]
  exact both (h.root (.select s)) (hs.trans (and_congr_left' (h.inside _).symm))

mutual

/-- What splits at each node splits in a whole expression. -/
theorem all_exchange_iff (h : Splits f p q) :
    ∀ e : Expr, e.All p ↔ (e.exchange f).All p ∧ e.All q
  | .column _ _ | .star _ | .literal _ | .truth _ | .rowToJson _ _ | .excluded _ | .image _ _
  | .foreign _ => h.root (.expr _)
  | .not operand | .isNull operand _ | .cast operand _ | .aggregateText operand
  | .sorted operand _ | .jsonExtract operand _ _ | .jsonType operand _ =>
    both (h.root (.expr _)) (all_exchange_iff h operand)
  | .binary _ left right | .jsonContains left right _ | .jsonEdge left right _ _
  | .matches left right _ =>
    both (h.root (.expr _)) (both (all_exchange_iff h left) (all_exchange_iff h right))
  | .logical _ first rest | .row first rest | .textSearch first rest =>
    both (h.root (.expr _)) (both (all_exchange_iff h first) (allExprs_exchange_iff h rest))
  | .inList operand items _ =>
    both (h.root (.expr _)) (both (all_exchange_iff h operand) (allExprs_exchange_iff h items))
  | .inQuery operand query _ =>
    both (h.root (.expr _)) (both (all_exchange_iff h operand) (allQuery_exchange_iff h query))
  | .between operand low high _ =>
    both (h.root (.expr _)) (both (all_exchange_iff h operand)
      (both (all_exchange_iff h low) (all_exchange_iff h high)))
  | .exists query _ | .scalar query =>
    both (h.root (.expr _)) (allQuery_exchange_iff h query)
  | .call _ args _ | .coalesce args | .concat args | .tuple args =>
    both (h.root (.expr _)) (allExprs_exchange_iff h args)
  | .window partition order =>
    both (h.root (.expr _)) (both (allExprs_exchange_iff h partition)
      (allExprs_exchange_iff h order))
  | .over _ args spec =>
    both (h.root (.expr _)) (both (allExprs_exchange_iff h args) (all_exchange_iff h spec))
  | .raw _ _ _ bindings => both (h.root (.expr _)) (allBindings_exchange_iff h bindings)

theorem allExprs_exchange_iff (h : Splits f p q) {role : Role} : ∀ es : List Expr,
    allExprs p es ↔ allExprs p (passAll (exchanging f) role es) ∧ allExprs q es
  | [] => neither
  | e :: rest => both (all_exchange_iff h e) (allExprs_exchange_iff h rest)

theorem allBindings_exchange_iff (h : Splits f p q) :
    ∀ bs : List (Name × Expr),
      allBindings p bs ↔ allBindings p (passBindings (exchanging f) bs) ∧ allBindings q bs
  | [] => neither
  | b :: rest => both (allBinding_exchange_iff h b) (allBindings_exchange_iff h rest)

theorem allBinding_exchange_iff (h : Splits f p q) :
    ∀ b : Name × Expr, allBinding p b ↔ allBinding p (passBinding (exchanging f) b) ∧ allBinding q b
  | (_, e) => all_exchange_iff h e

theorem allOption_exchange_iff (h : Splits f p q) :
    ∀ e : Option Expr, allOption p e ↔ allOption p (passFilter (exchanging f) e) ∧ allOption q e
  | none => neither
  | some e => all_exchange_iff h e

theorem allQuery_exchange_iff (h : Splits f p q) :
    ∀ query : Query, query.All p ↔ (query.pass (exchanging f)).All p ∧ query.All q
  | .select s => h.select (inside_exchange_iff h s)
  | .union u => allUnion_exchange_iff h u
  | .draft _ | .other _ => neither

theorem allUnion_exchange_iff (h : Splits f p q) :
    ∀ u : Union, u.All p ↔ (u.pass (exchanging f)).All p ∧ u.All q
  | ⟨members, _⟩ => allSelects_exchange_iff h members

theorem allSelects_exchange_iff (h : Splits f p q) :
    ∀ ss : List Select,
      allSelects p ss ↔ allSelects p (passSelects (exchanging f) ss) ∧ allSelects q ss
  | [] => neither
  | s :: rest => both (h.select (inside_exchange_iff h s)) (allSelects_exchange_iff h rest)

/-- The same inside of a select. -/
theorem inside_exchange_iff (h : Splits f p q) :
    ∀ s : Select, s.Inside p ↔ (s.inner (exchanging f)).Inside p ∧ s.Inside q
  | ⟨items, source, joins, filter, groupBy, having, orderBy, _, _, _⟩ =>
    both (allItems_exchange_iff h items) (both (allOrigin_exchange_iff h source)
      (both (allJoins_exchange_iff h joins) (both (allOption_exchange_iff h filter)
      (both (allExprs_exchange_iff h groupBy) (both (allOption_exchange_iff h having)
      (allExprs_exchange_iff h orderBy))))))

theorem allOrigin_exchange_iff (h : Splits f p q) :
    ∀ o : Option Source, allOrigin p o ↔ allOrigin p (passOrigin (exchanging f) o) ∧ allOrigin q o
  | none => neither
  | some o => allSource_exchange_iff h o

theorem allSource_exchange_iff (h : Splits f p q) :
    ∀ o : Source, o.All p ↔ (o.pass (exchanging f)).All p ∧ o.All q
  | .derived query _ => allQuery_exchange_iff h query
  | .table _ | .other _ => neither

theorem allItems_exchange_iff (h : Splits f p q) :
    ∀ items : List SelectItem,
      allItems p items ↔ allItems p (passItems (exchanging f) items) ∧ allItems q items
  | [] => neither
  | i :: rest => both (allItem_exchange_iff h i) (allItems_exchange_iff h rest)

theorem allItem_exchange_iff (h : Splits f p q) :
    ∀ i : SelectItem, i.All p ↔ (i.pass (exchanging f)).All p ∧ i.All q
  | ⟨e, _⟩ => all_exchange_iff h e

theorem allJoins_exchange_iff (h : Splits f p q) :
    ∀ joins : List Join,
      allJoins p joins ↔ allJoins p (passJoins (exchanging f) joins) ∧ allJoins q joins
  | [] => neither
  | j :: rest => both (allJoin_exchange_iff h j) (allJoins_exchange_iff h rest)

theorem allJoin_exchange_iff (h : Splits f p q) :
    ∀ j : Join, j.All p ↔ (j.pass (exchanging f)).All p ∧ j.All q
  | .join right on _ => both (allSource_exchange_iff h right) (allOption_exchange_iff h on)
  | .other _ => neither

end

/-! ## Statements -/

theorem Tree.all_passed_iff (h : Splits f p q) {t t' : Tree} (hp : Passed (exchanging f) t t') :
    t.All p ↔ t'.All p ∧ t.All q := by
  cases hp with
  | expr role e => exact SqlScribe.all_exchange_iff h e
  | select s => exact h.select (inside_exchange_iff h s)

/-- What splits in two place by place splits in lists. -/
theorem forall_split {α β : Type} {R : α → β → Prop} {a b : α → Prop} {c : β → Prop} {as : List α}
    {bs : List β} (hs : List.Forall₂ R as bs) (h : ∀ x y, R x y → (a x ↔ c y ∧ b x)) :
    (∀ x ∈ as, a x) ↔ (∀ y ∈ bs, c y) ∧ ∀ x ∈ as, b x := by
  induction hs with
  | nil => simp
  | cons hxy _ ih =>
    simp only [List.forall_mem_cons]
    exact both (h _ _ hxy) ih

theorem Statement.all_exchange_iff (h : Splits f p q) (s : Statement) :
    s.All p ↔ (s.exchange f).All p ∧ s.All q :=
  forall_split (s.passed_trees (exchanging f)) fun _ _ => Tree.all_passed_iff h

end

end SqlScribe
