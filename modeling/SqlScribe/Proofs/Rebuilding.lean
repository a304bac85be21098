import Mathlib.Data.List.Basic
import SqlScribe.Expr.Rebuild
import SqlScribe.Proofs.Fields

/-!
# One step of rebuilding

`Expr.rebuild` has a branch for every form of a node, and every branch does the same: the fields of
the node are rebuilt from the first to the last, the node is put together from the results, checked
again, and handed to the function. `Expr.rebuild_eq` says this once, for every monad that the
traversal may run in. Fields are put back in place by `Expr.withFields`.

Two nodes have the same form (`Expr.SameForm`) if they differ in their fields at most: they have the
same constructor, the same operator or name, the same nested queries, and as many fields.
-/

namespace SqlScribe

/-- A query with something in the place of what is no query. -/
def Query.withStrangers : Query → List Expr → Query
  | .other _, [object] => .other object
  | q, _ => q

/-- The bindings with these names and expressions, which take turns. -/
def pairUp : List Expr → List (Name × Expr)
  | name :: e :: rest => (name, e) :: pairUp rest
  | _ => []

namespace Expr

/-! ## Fields in place -/

/-- A node with other fields in the places of its own. There have to be as many of them. -/
def withFields : Expr → List Expr → Expr
  | .column _ _, [table, name] => .column table name
  | .star _, [table] => .star table
  | .truth _, [value] => .truth value
  | .not _, [operand] => .not operand
  | .isNull _ _, [operand, negated] => .isNull operand negated
  | .binary op _ _, [left, right] => .binary op left right
  | .logical op _ _, first :: rest => .logical op first rest
  | .inList _ _ _, operand :: rest => .inList operand rest.dropLast (rest.getLastD absent)
  | .inQuery _ query _, operand :: rest =>
    .inQuery operand (query.withStrangers rest.dropLast) (rest.getLastD absent)
  | .between _ _ _ _, [operand, low, high, negated] => .between operand low high negated
  | .exists query _, fs => .exists (query.withStrangers fs.dropLast) (fs.getLastD absent)
  | .scalar query, fs => .scalar (query.withStrangers fs)
  | .row _ _, first :: rest => .row first rest
  | .call name _ _, fs => .call name fs.dropLast (fs.getLastD absent)
  | .cast _ target, [operand] => .cast operand target
  | .coalesce _, fs => .coalesce fs
  | .concat _, fs => .concat fs
  | .aggregateText _, [operand] => .aggregateText operand
  | .sorted _ direction, [operand] => .sorted operand direction
  | .window partition _, fs => .window (fs.take partition.length) (fs.drop partition.length)
  | .over name _ _, fs => .over name fs.dropLast (fs.getLastD absent)
  | .jsonExtract _ path _, [document, asText] => .jsonExtract document path asText
  | .jsonContains _ _ _, [document, value, negated] => .jsonContains document value negated
  | .jsonEdge _ _ edge _, [document, value, negated] => .jsonEdge document value edge negated
  | .jsonType _ type, [document] => .jsonType document type
  | .textSearch _ _, first :: rest => .textSearch first rest
  | .matches _ _ _, [search, query, negated] => .matches search query negated
  | .rowToJson _ _, [table, pretty] => .rowToJson table pretty
  | .excluded _, [name] => .excluded name
  | .raw _ _ _ _, sql :: aliasName :: template :: rest =>
    .raw sql aliasName template (pairUp rest)
  | .tuple _, fs => .tuple fs
  | e, _ => e

/-- Whether two nodes differ in their fields at most. -/
def SameForm (a b : Expr) : Prop :=
  a.mapFields (fun _ => absent) = b.mapFields (fun _ => absent)

end Expr

theorem pairUp_bindingFields (bs : List (Name × Expr)) : pairUp (bindingFields bs) = bs := by
  induction bs with
  | nil => rfl
  | cons b rest ih =>
    show b :: pairUp (bindingFields rest) = b :: rest
    rw [ih]

theorem Query.withStrangers_strangers (q : Query) : q.withStrangers q.strangers = q := by
  cases q <;> rfl

/-- Fields that take the places of the names and the expressions of bindings make as many
bindings. -/
theorem exists_bindings {bs : List (Name × Expr)} {fs : List Expr}
    (h : fs.length = (bindingFields bs).length) :
    ∃ bs' : List (Name × Expr), fs = bindingFields bs' ∧ bs'.length = bs.length := by
  induction bs generalizing fs with
  | nil => exact ⟨[], List.length_eq_zero_iff.mp h, rfl⟩
  | cons b rest ih =>
    obtain ⟨name, fs, rfl⟩ := List.exists_cons_of_length_eq_add_one h
    obtain ⟨e, fs, rfl⟩ := List.exists_cons_of_length_eq_add_one (Nat.succ.inj h)
    obtain ⟨bs', rfl, hlength⟩ := ih (Nat.succ.inj (Nat.succ.inj h))
    exact ⟨(name, e) :: bs', rfl, congrArg Nat.succ hlength⟩

/-- What takes the place of what is no query is such a thing as well. -/
theorem Query.exists_strangers {q : Query} {fs : List Expr}
    (h : fs.length = q.strangers.length) :
    ∃ q' : Query, fs = q'.strangers ∧ q.withStrangers fs = q' ∧
      q'.mapStrangers (fun _ => Expr.absent) = q.mapStrangers (fun _ => Expr.absent) ∧
      ∀ g, (q.mapStrangers g).withStrangers fs = q' := by
  cases q with
  | other object =>
    obtain ⟨object', rfl⟩ := List.length_eq_one_iff.mp h
    exact ⟨.other object', rfl, rfl, rfl, fun _ => rfl⟩
  | select s | union s | draft s =>
    obtain rfl := List.length_eq_zero_iff.mp h
    exact ⟨_, rfl, rfl, rfl, fun _ => rfl⟩

namespace Expr

theorem withFields_fields (e : Expr) : e.withFields e.fields = e := by
  cases e <;>
    simp [withFields, fields, pairUp_bindingFields, Query.withStrangers_strangers]

/-- Lists of one length have the same form. -/
theorem map_absent_eq {α β : Type} {as : List α} {bs : List β} (h : as.length = bs.length) :
    as.map (fun _ => absent) = bs.map fun _ => absent := by
  rw [List.map_const', List.map_const', h]

/-- A list that is not empty has a last member. -/
theorem exists_concat {α : Type} {fs : List α} {n : Nat} (h : fs.length = n + 1) :
    ∃ as a, fs = as ++ [a] ∧ as.length = n := by
  rcases List.eq_nil_or_concat' fs with rfl | ⟨as, a, rfl⟩
  · cases h
  · refine ⟨as, a, rfl, ?_⟩
    rw [List.length_append, List.length_singleton] at h
    exact Nat.succ.inj h

/-- The fields that are put in place are the fields of the node, its form is kept, and the fields
that were there before are gone. -/
theorem withFields_spec {e : Expr} {fs : List Expr} (h : fs.length = e.fields.length) :
    (e.withFields fs).fields = fs ∧ (e.withFields fs).SameForm e ∧
      ∀ g, (e.mapFields g).withFields fs = e.withFields fs := by
  -- one case for each form that a list of fields has
  cases e with
  | literal _ | image _ _ | foreign _ =>
    obtain rfl := List.length_eq_zero_iff.mp h
    exact ⟨rfl, rfl, fun _ => rfl⟩
  | star _ | truth _ | not _ | cast _ _ | aggregateText _ | sorted _ _ | jsonType _ _
  | excluded _ =>
    obtain ⟨a, rfl⟩ := List.length_eq_one_iff.mp h
    exact ⟨rfl, rfl, fun _ => rfl⟩
  | column _ _ | isNull _ _ | jsonExtract _ _ _ | rowToJson _ _ | binary _ _ _ =>
    obtain ⟨a, b, rfl⟩ := List.length_eq_two.mp h
    exact ⟨rfl, rfl, fun _ => rfl⟩
  | jsonContains _ _ _ | jsonEdge _ _ _ _ | «matches» _ _ _ =>
    obtain ⟨a, b, c, rfl⟩ := List.length_eq_three.mp h
    exact ⟨rfl, rfl, fun _ => rfl⟩
  | between _ _ _ _ =>
    obtain ⟨o, fs, rfl⟩ := List.exists_cons_of_length_eq_add_one h
    obtain ⟨a, b, c, rfl⟩ := List.length_eq_three.mp (Nat.succ.inj h)
    exact ⟨rfl, rfl, fun _ => rfl⟩
  | logical op _ rest =>
    obtain ⟨a, as, rfl⟩ := List.exists_cons_of_length_eq_add_one h
    exact ⟨rfl, congrArg (logical op absent) (map_absent_eq (Nat.succ.inj h)), fun _ => rfl⟩
  | row _ rest =>
    obtain ⟨a, as, rfl⟩ := List.exists_cons_of_length_eq_add_one h
    exact ⟨rfl, congrArg (row absent) (map_absent_eq (Nat.succ.inj h)), fun _ => rfl⟩
  | textSearch _ rest =>
    obtain ⟨a, as, rfl⟩ := List.exists_cons_of_length_eq_add_one h
    exact ⟨rfl, congrArg (textSearch absent) (map_absent_eq (Nat.succ.inj h)), fun _ => rfl⟩
  | coalesce _ => exact ⟨rfl, congrArg coalesce (map_absent_eq h), fun _ => rfl⟩
  | concat _ => exact ⟨rfl, congrArg concat (map_absent_eq h), fun _ => rfl⟩
  | tuple _ => exact ⟨rfl, congrArg tuple (map_absent_eq h), fun _ => rfl⟩
  | call name args distinct =>
    obtain ⟨as, a, rfl, hlength⟩ := exists_concat (h.trans List.length_append)
    simp [withFields, fields, SameForm, mapFields, map_absent_eq hlength]
  | «over» name args spec =>
    obtain ⟨as, a, rfl, hlength⟩ := exists_concat (h.trans List.length_append)
    simp [withFields, fields, SameForm, mapFields, map_absent_eq hlength]
  | window partition order =>
    have hall : fs.length = partition.length + order.length := h.trans List.length_append
    have hp : (fs.take partition.length).length = partition.length := by
      rw [List.length_take]
      omega
    have ho : (fs.drop partition.length).length = order.length := by
      rw [List.length_drop]
      omega
    -- the first fields partition, and the others order
    simp [withFields, fields, SameForm, mapFields, map_absent_eq hp, map_absent_eq ho]
  | inList operand items negated =>
    obtain ⟨o, fs, rfl⟩ := List.exists_cons_of_length_eq_add_one h
    obtain ⟨as, a, rfl, hlength⟩ := exists_concat ((Nat.succ.inj h).trans List.length_append)
    simp [withFields, fields, SameForm, mapFields, map_absent_eq hlength]
  | inQuery operand query negated =>
    obtain ⟨o, fs, rfl⟩ := List.exists_cons_of_length_eq_add_one h
    obtain ⟨as, a, rfl, hlength⟩ := exists_concat ((Nat.succ.inj h).trans List.length_append)
    -- the strangers of a query, and the flag behind them
    obtain ⟨q, rfl, hq, hform, hgone⟩ := Query.exists_strangers hlength
    simp [withFields, fields, SameForm, mapFields, hq, hform, hgone]
  | «exists» query negated =>
    obtain ⟨as, a, rfl, hlength⟩ := exists_concat (h.trans List.length_append)
    obtain ⟨q, rfl, hq, hform, hgone⟩ := Query.exists_strangers hlength
    simp [withFields, fields, SameForm, mapFields, hq, hform, hgone]
  | scalar query =>
    obtain ⟨q, rfl, hq, hform, hgone⟩ := Query.exists_strangers h
    simp [withFields, fields, SameForm, mapFields, hq, hform, hgone]
  | raw sql aliasName template bindings =>
    obtain ⟨a, fs, rfl⟩ := List.exists_cons_of_length_eq_add_one h
    obtain ⟨b, fs, rfl⟩ := List.exists_cons_of_length_eq_add_one (Nat.succ.inj h)
    obtain ⟨c, fs, rfl⟩ := List.exists_cons_of_length_eq_add_one (Nat.succ.inj (Nat.succ.inj h))
    obtain ⟨bs, rfl, hlength⟩ := exists_bindings (Nat.succ.inj (Nat.succ.inj (Nat.succ.inj h)))
    simp [withFields, fields, SameForm, mapFields, pairUp_bindingFields, hlength]

section

variable {a b e : Expr} {fs : List Expr}

theorem fields_withFields (h : fs.length = e.fields.length) : (e.withFields fs).fields = fs :=
  (withFields_spec h).1

theorem SameForm.symm (h : a.SameForm b) : b.SameForm a := Eq.symm h

/-- Nodes of the same form have as many fields. -/
theorem SameForm.length (h : a.SameForm b) : a.fields.length = b.fields.length := by
  have fields := congrArg (fun n => n.fields.length) h
  simpa only [fields_mapFields, List.length_map] using fields

/-- A node is made of its form and its fields. -/
theorem SameForm.withFields (h : a.SameForm b) (hfs : fs.length = a.fields.length) :
    a.withFields fs = b.withFields fs := by
  rw [← (withFields_spec hfs).2.2 fun _ => absent, h,
    (withFields_spec (hfs.trans h.length)).2.2]

/-- Changed fields are put in place of the old ones. -/
theorem withFields_map (g : Expr → Expr) (e : Expr) :
    e.withFields (e.fields.map g) = e.mapFields g := by
  rw [← (withFields_spec (List.length_map _)).2.2 g, ← fields_mapFields, withFields_fields]

end

theorem isExpr_withFields (e : Expr) (fs : List Expr) : (e.withFields fs).isExpr = e.isExpr := by
  unfold withFields
  split <;> rfl

/-! ## The step -/

/-- A membership is checked again, as its rows may have another width. Nothing else can have come
to fail. -/
def rechecked : Expr → Build Expr
  | .inList operand items negated => makeInList operand items negated
  | e => .ok e

theorem isExpr_rechecked {e e' : Expr} (he : e.isExpr = true) (h : e.rechecked = .ok e') :
    e'.isExpr = true := by
  cases e with
  | inList operand items negated =>
    simp only [rechecked, makeInList] at h
    split at h <;> split at h <;> cases h <;> rfl
  | _ =>
    cases h
    exact he

/-- Among builds, the outcome of building something is that outcome. -/
theorem built_eq_self {α : Type} (x : Build α) : (built x : Build α) = x := by
  cases x <;> rfl

/-- What follows a list of steps may count on as many results. -/
theorem bind_mapM_congr {m : Type → Type} [Monad m] [LawfulMonad m] {α β γ : Type}
    {h : α → m β} {es : List α} {k k' : List β → m γ}
    (hk : ∀ fs, fs.length = es.length → k fs = k' fs) : es.mapM h >>= k = es.mapM h >>= k' := by
  induction es generalizing k k' with
  | nil => simpa using hk [] rfl
  | cons e rest ih =>
    simp only [List.mapM_cons, bind_assoc, pure_bind]
    congr 1
    funext a
    exact ih fun fs hfs => hk (a :: fs) (congrArg Nat.succ hfs)

section

variable {m : Type → Type} [Monad m] [LawfulMonad m] [MonadExceptOf BuildError m]
  (f : Expr → m Expr)

theorem rebuildAll_eq_mapM (es : List Expr) : rebuildAll f es = es.mapM (rebuild f) := by
  induction es with
  | nil => rfl
  | cons e rest ih => rw [rebuildAll, List.mapM_cons, ih]

theorem rebuildQuery_eq (q : Query) :
    rebuildQuery f q = q.strangers.mapM (rebuild f) >>= fun ss => pure (q.withStrangers ss) := by
  cases q <;> simp [rebuildQuery, Query.strangers, Query.withStrangers]

theorem rebuildBindings_eq (bs : List (Name × Expr)) :
    rebuildBindings f bs = (bindingFields bs).mapM (rebuild f) >>= fun fs => pure (pairUp fs) := by
  induction bs with
  | nil => simp [rebuildBindings, bindingFields, pairUp]
  | cons b rest ih =>
    obtain ⟨name, e⟩ := b
    show rebuildBinding f (name, e) >>= (fun b => rebuildBindings f rest >>= fun bs =>
      pure (b :: bs)) = (name :: e :: bindingFields rest).mapM (rebuild f) >>= fun fs =>
        pure (pairUp fs)
    simp [rebuildBinding, ih, pairUp]

/-- **One step of rebuilding.** The fields are rebuilt from the first to the last; the node is put
together from the results, checked, and handed to the function. -/
theorem rebuild_eq {e : Expr} (he : e.isExpr = true) :
    rebuild f e = e.fields.mapM (rebuild f) >>= fun fs =>
      built (e.withFields fs).rechecked >>= f := by
  cases e with
  | tuple _ | foreign _ => cases he
  | window partition order =>
    simp only [rebuild, rebuildAll_eq_mapM, fields, List.mapM_append, bind_assoc, pure_bind]
    refine bind_mapM_congr fun ps hp => ?_
    simp [withFields, rechecked, built, ← hp]
  | _ =>
    simp only [rebuild, rebuildAll_eq_mapM, rebuildQuery_eq, rebuildBindings_eq, fields,
      List.cons_append, List.mapM_cons, List.mapM_append, List.mapM_nil, bind_assoc, pure_bind]
    dsimp only [withFields, rechecked, built]
    simp only [List.dropLast_concat, List.getLastD_concat, pure_bind]

/-- What is no expression is not handed to the function; its members are rebuilt. -/
theorem rebuild_eq_of_not_isExpr {e : Expr} (he : e.isExpr = false) :
    rebuild f e = e.fields.mapM (rebuild f) >>= fun fs => pure (e.withFields fs) := by
  cases e with
  | tuple items => simp [rebuild, rebuildAll_eq_mapM, fields, withFields]
  | foreign object => simp [rebuild, fields, withFields]
  | _ => cases he

end

end Expr

end SqlScribe
