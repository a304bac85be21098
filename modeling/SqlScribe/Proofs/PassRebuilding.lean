import SqlScribe.Proofs.Pass
import SqlScribe.Proofs.Rebuilding
import SqlScribe.Render.Change

/-!
# Passes and rebuilding

Rebuilding goes through the nodes of one scope from the leaves up, like a pass. So an expression may
be rebuilt before a pass or after it, if the function on nodes does not tell the difference
(`Pass.rebuild`). This is said for one step, with fields in place, and not once more for every form
of a node: the fields of a node that is passed over are its fields, passed over in their places
(`Expr.places`), and the rest of it does not depend on them.

The functions that are used for rebuilding replace references to columns and nothing else, so most
passes do not get in their way (`Pass.LeavesReferences`).
-/

namespace SqlScribe

/-! ## Steps on views -/

section

variable {α β γ δ ε : Type} {φ : α → γ} {ψ : β → δ}

/-- Steps on a view of a result give the view of what they give. -/
theorem map_bind_view {x : Except ε α} {x' : Except ε γ} {f : α → Except ε β} {f' : γ → Except ε δ}
    (h : x' = x.map φ) (hf : ∀ a, f' (φ a) = (f a).map ψ) : x' >>= f' = (x >>= f).map ψ := by
  subst h
  cases x with
  | error e => rfl
  | ok a => exact hf a

/-- The same, behind a step that is taken on both sides. -/
theorem map_bind_after {x : Except ε α} {f : α → Except ε β} {f' : α → Except ε δ}
    (hf : ∀ a, f' a = (f a).map ψ) : x >>= f' = (x >>= f).map ψ := by
  cases x with
  | error e => rfl
  | ok a => exact hf a

end

/-- The check of a membership looks at the number of items in each row. So a function that keeps the
rows, and changes their items, may be applied before the check or after it. -/
theorem makeInList_map {h k : Expr → Expr} {operand : Expr} {items : List Expr} {negated : Flag}
    (hrows : ∀ e : Expr, (h e).rowItems? = e.rowItems?.map (List.map h))
    (hwhole : k (.inList operand items negated) = .inList (h operand) (items.map h) negated) :
    Expr.makeInList (h operand) (items.map h) negated =
      (Expr.makeInList operand items negated).map k := by
  have hrow (e : Expr) : (h e).isRow = e.isRow := by
    rw [Expr.isRow, Expr.isRow, hrows, Option.isSome_map]
  unfold Expr.makeInList
  rw [hrows, ← hwhole]
  cases operand.rowItems? with
  | none =>
    simp only [Option.map_none, List.any_map, Function.comp_def, hrow]
    split <;> rfl
  | some left =>
    simp only [Option.map_some, List.all_map, Function.comp_def, hrows, Option.map_map,
      List.length_map]
    split <;> rfl

/-- The check of a membership gives nothing but the membership. -/
theorem makeInList_of_eq {k : Expr → Expr} {operand : Expr} {items : List Expr} {negated : Flag}
    (hk : k (.inList operand items negated) = .inList operand items negated) :
    Expr.makeInList operand items negated = (Expr.makeInList operand items negated).map k := by
  unfold Expr.makeInList
  split <;> split <;> first | rfl | exact congrArg Except.ok hk.symm

/-! ## Places -/

/-- The roles of the fields of a node, from the first to the last. Names and switches have none. -/
def Expr.places (P : Pass) : Expr → List (Option Role)
  | .column _ _ | .rowToJson _ _ => [none, none]
  | .star _ | .truth _ | .excluded _ => [none]
  | .not _ => [some .condition]
  | .cast _ _ | .aggregateText _ | .sorted _ _ | .jsonType _ _ => [some .value]
  | .isNull _ _ | .jsonExtract _ _ _ => [some .value, none]
  | .binary _ _ _ => [some .value, some .value]
  | .between _ _ _ _ => [some .value, some .value, some .value, none]
  | .jsonContains _ _ _ | .jsonEdge _ _ _ _ | .matches _ _ _ => [some .value, some .value, none]
  | .logical _ _ rest => some .condition :: List.replicate rest.length (some .condition)
  | .row _ rest | .textSearch _ rest => some .value :: List.replicate rest.length (some .value)
  | .inList _ items _ => some .value :: List.replicate items.length (some .value) ++ [none]
  | .inQuery _ query _ =>
    some .value :: List.replicate query.strangers.length P.stranger ++ [none]
  | .exists query _ => List.replicate query.strangers.length P.stranger ++ [none]
  | .scalar query => List.replicate query.strangers.length P.stranger
  | .call _ args _ => List.replicate args.length (some .value) ++ [none]
  | .coalesce parts | .concat parts => List.replicate parts.length (some .value)
  | .tuple items => List.replicate items.length P.member
  | .window partition order =>
    List.replicate partition.length (some .value) ++ List.replicate order.length (some .value)
  | .over _ args _ => List.replicate args.length (some .value) ++ [some .value]
  | .raw _ _ _ bindings =>
    none :: none :: none :: bindings.flatMap fun _ => [none, some .value]
  | .literal _ | .image _ _ | .foreign _ => []

/-- An expression in a place that may have no role, passed over if it has one. -/
def Expr.passAt (P : Pass) (place : Option Role) (e : Expr) : Expr := P.put place e (e.inner P)

/-- Expressions in places, passed over. -/
def passEach (P : Pass) (places : List (Option Role)) (es : List Expr) : List Expr :=
  List.zipWith (Expr.passAt P) places es

/-- A query, passed over. What stands in its place and is none is left alone. -/
def Query.passInside (P : Pass) : Query → Query
  | .other object => .other object
  | q => q.pass P

namespace Expr

variable {P : Pass}

theorem length_places (e : Expr) : (e.places P).length = e.fields.length := by
  cases e <;> simp [places, fields, bindingFields]

theorem places_mapFields (g : Expr → Expr) (e : Expr) :
    (e.mapFields g).places P = e.places P := by
  cases e <;>
    simp [places, mapFields, strangers_mapStrangers, List.flatMap_map]

theorem SameForm.places {a b : Expr} (h : a.SameForm b) : a.places P = b.places P := by
  rw [← places_mapFields fun _ => absent, h, places_mapFields]

/-- Of fields that are put in place twice, the last are there. -/
theorem withFields_withFields {e : Expr} {fs gs : List Expr} (hfs : fs.length = e.fields.length)
    (hgs : gs.length = e.fields.length) : (e.withFields fs).withFields gs = e.withFields gs := by
  obtain ⟨hfields, hform, -⟩ := withFields_spec hfs
  exact hform.withFields (hgs.trans (hfs.symm.trans (congrArg List.length hfields).symm))

end Expr

/-! ## Changed queries -/

/-- A node with its query changed. -/
def Expr.withQuery (k : Query → Query) : Expr → Expr
  | .inQuery operand query negated => .inQuery operand (k query) negated
  | .exists query negated => .exists (k query) negated
  | .scalar query => .scalar (k query)
  | e => e

namespace Expr

variable {k : Query → Query}

theorem fields_withQuery (hk : ∀ q, (k q).strangers = q.strangers) (e : Expr) :
    (e.withQuery k).fields = e.fields := by
  cases e <;> simp [withQuery, fields, hk]

theorem withQuery_mapFields (hk : ∀ g q, k (q.mapStrangers g) = (k q).mapStrangers g)
    (g : Expr → Expr) (e : Expr) : (e.mapFields g).withQuery k = (e.withQuery k).mapFields g := by
  cases e <;> simp [withQuery, mapFields, hk]

end Expr

/-! ## Fields that are passed over -/

section

variable {P : Pass}

@[simp] theorem passAt_none (e : Expr) : e.passAt P none = e := rfl

@[simp] theorem passAt_some (role : Role) (e : Expr) : e.passAt P (some role) = e.pass P role := rfl

@[simp] theorem passEach_nil : passEach P [] [] = [] := rfl

@[simp] theorem passEach_cons (place : Option Role) (places : List (Option Role)) (e : Expr)
    (es : List Expr) :
    passEach P (place :: places) (e :: es) = e.passAt P place :: passEach P places es := rfl

@[simp] theorem passEach_replicate {n : Nat} {es : List Expr} (hn : n = es.length)
    (place : Option Role) :
    passEach P (List.replicate n place) es = es.map (Expr.passAt P place) := by
  subst hn
  -- on the fields, which are all passed in one role
  induction es with
  | nil => rfl
  | cons e rest ih =>
    rw [List.length_cons, List.replicate_succ, passEach_cons, ih, List.map_cons]

@[simp] theorem passEach_replicate_append (place : Option Role) (es : List Expr)
    (places : List (Option Role)) (fs : List Expr) :
    passEach P (List.replicate es.length place ++ places) (es ++ fs) =
      es.map (Expr.passAt P place) ++ passEach P places fs := by
  rw [← passEach_replicate rfl]
  exact List.zipWith_append List.length_replicate

@[simp] theorem pairUp_passEach (bs : List (Name × Expr)) :
    pairUp (passEach P (bs.flatMap fun _ => [none, some .value]) (bindingFields bs)) =
      passBindings P bs := by
  induction bs with
  | nil => rfl
  | cons b rest ih =>
    obtain ⟨name, e⟩ := b
    exact congrArg (List.cons (name, e.pass P .value)) ih

theorem length_passEach {places : List (Option Role)} {es : List Expr}
    (hlength : places.length = es.length) : (passEach P places es).length = es.length := by
  rw [passEach, List.length_zipWith, hlength, Nat.min_self]

theorem Query.withStrangers_passInside (q : Query) :
    (q.passInside P).withStrangers (q.strangers.map (Expr.passAt P P.stranger)) = q.pass P := by
  cases q <;> rfl

theorem Query.strangers_passInside (q : Query) : (q.passInside P).strangers = q.strangers := by
  cases q <;> rfl

namespace Expr

theorem length_passEach_places (e : Expr) :
    (passEach P (e.places P) e.fields).length = e.fields.length :=
  length_passEach e.length_places

theorem fields_passInside (e : Expr) :
    (e.withQuery (Query.passInside P)).fields = e.fields :=
  fields_withQuery Query.strangers_passInside e

/-- A node is passed over field by field; besides its fields only the queries in it change. -/
theorem inner_eq (e : Expr) :
    e.inner P =
      (e.withQuery (Query.passInside P)).withFields (passEach P (e.places P) e.fields) := by
  cases e with
  | tuple items =>
    show _ = tuple (passEach P (List.replicate items.length P.member) items)
    rw [inner, passEach_replicate rfl]
    cases P.member with
    | none => exact congrArg tuple (List.map_id items).symm
    | some role => exact congrArg tuple (passAll_eq_map P role items)
  | _ =>
    simp [inner, withQuery, places, fields, withFields, Query.withStrangers_passInside]

theorem fields_inner (e : Expr) : (e.inner P).fields = passEach P (e.places P) e.fields := by
  rw [inner_eq, fields_withFields]
  rw [fields_passInside, length_passEach_places]

/-- A node with other fields is passed over like the node itself. -/
theorem inner_withFields {e : Expr} {fs : List Expr} (hfs : fs.length = e.fields.length) :
    (e.withFields fs).inner P = (e.inner P).withFields (passEach P (e.places P) fs) := by
  obtain ⟨hfields, hform, -⟩ := withFields_spec hfs
  -- the queries inside do not depend on the fields, so they may be passed first
  have query : ((e.withFields fs).withQuery (Query.passInside P)).SameForm
      (e.withQuery (Query.passInside P)) := by
    have hk (g : Expr → Expr) (q : Query) :
        (q.mapStrangers g).passInside P = (q.passInside P).mapStrangers g := by
      cases q <;> rfl
    rw [SameForm, ← withQuery_mapFields hk, hform, withQuery_mapFields hk]
  have old : (passEach P (e.places P) e.fields).length =
      (e.withQuery (Query.passInside P)).fields.length := by
    rw [fields_passInside, length_passEach_places]
  have new : (passEach P (e.places P) fs).length =
      (e.withQuery (Query.passInside P)).fields.length := by
    rw [fields_passInside, length_passEach (e.length_places.trans hfs.symm), hfs]
  rw [inner_eq, inner_eq, hform.places, hfields, withFields_withFields old new,
    query.withFields (new.trans query.length.symm)]

end Expr

/-- If a step may be taken before a pass or after it, the steps for all fields may. -/
theorem mapM_passEach {step : Expr → Build Expr} {places : List (Option Role)} {es : List Expr}
    (hlength : places.length = es.length)
    (hstep : ∀ e ∈ es, ∀ role, step (e.pass P role) = (step e).map (Expr.pass P role)) :
    (passEach P places es).mapM step = (es.mapM step).map (passEach P places) := by
  -- on the fields, together with their places
  induction es generalizing places with
  | nil =>
    obtain rfl := List.length_eq_zero_iff.mp hlength
    rfl
  | cons e rest ih =>
    obtain ⟨place, places, rfl⟩ := List.exists_cons_of_length_eq_add_one hlength
    obtain ⟨he, hrest⟩ := List.forall_mem_cons.mp hstep
    have first : step (e.passAt P place) = (step e).map (Expr.passAt P place) := by
      -- a field that is left alone is stepped over as it is
      cases place with
      | none =>
        show step e = (step e).map id
        cases step e <;> rfl
      | some role => exact he role
    show (e.passAt P place :: passEach P places rest).mapM step = _
    rw [List.mapM_cons, List.mapM_cons]
    exact map_bind_view first fun _ => map_bind_view (ih (Nat.succ.inj hlength) hrest) fun _ => rfl

/-- What follows a list of steps on views may count on as many results. -/
theorem map_bind_mapM {α β γ δ χ ε : Type} {step : α → Except ε β} {as : List α}
    {φ : List β → γ} {ψ : δ → χ} {f : List β → Except ε δ} {f' : γ → Except ε χ}
    (hf : ∀ bs, bs.length = as.length → f' (φ bs) = (f bs).map ψ) :
    (as.mapM step).map φ >>= f' = (as.mapM step >>= f).map ψ := by
  have views : as.mapM step >>= (fun bs => f' (φ bs)) = as.mapM step >>= fun bs => (f bs).map ψ :=
    Expr.bind_mapM_congr hf
  cases hsteps : as.mapM step with
  | error e => rfl
  | ok bs =>
    rw [hsteps] at views
    exact views

/-! ## Rebuilding -/

namespace Pass

/-- Whether a pass changes regular nodes at their root alone, in one way for all roles and all
fields. -/
structure Tops (P : Pass) (regular : Expr → Prop) : Prop where
  role : ∀ role e, regular e → P.root role e = P.value e
  fields : ∀ e, regular e → (P.value e).fields = e.fields
  mapFields : ∀ g e, regular e → P.value (e.mapFields g) = (P.value e).mapFields g
  /-- A membership is checked alike. -/
  rechecked : ∀ role e, (P.root role e).rechecked = e.rechecked.map (P.root role)
  /-- Whether a node is regular depends on its form. -/
  form : ∀ g e, regular (e.mapFields g) ↔ regular e
  inner : ∀ e, regular e → regular (e.inner P)

namespace Tops

variable {regular : Expr → Prop} (hP : P.Tops regular)

include hP

theorem regular_withFields {e : Expr} (he : regular e) {fs : List Expr}
    (hfs : fs.length = e.fields.length) : regular (e.withFields fs) := by
  obtain ⟨-, hform, -⟩ := Expr.withFields_spec hfs
  rwa [← hP.form fun _ => .absent, hform, hP.form]

/-- A root is changed alike above other fields. -/
theorem value_withFields {e : Expr} (he : regular e) {fs : List Expr}
    (hfs : fs.length = e.fields.length) :
    P.value (e.withFields fs) = (P.value e).withFields fs := by
  obtain ⟨hfields, hform, -⟩ := Expr.withFields_spec hfs
  have hregular := hP.regular_withFields he hfs
  have top : (P.value (e.withFields fs)).SameForm (P.value e) := by
    rw [Expr.SameForm, ← hP.mapFields _ _ hregular, hform, hP.mapFields _ _ he]
  have topFields : (P.value (e.withFields fs)).fields = fs := by
    rw [hP.fields _ hregular, hfields]
  calc P.value (e.withFields fs)
      = (P.value (e.withFields fs)).withFields fs := by
        conv_lhs => rw [← Expr.withFields_fields (P.value (e.withFields fs)), topFields]
    _ = (P.value e).withFields fs := top.withFields (congrArg List.length topFields).symm

/-- The fields of a regular node that is passed over. -/
theorem fields_pass (role : Role) {e : Expr} (he : regular e) :
    (e.pass P role).fields = passEach P (e.places P) e.fields := by
  rw [Expr.pass, hP.role _ _ (hP.inner e he), hP.fields _ (hP.inner e he), Expr.fields_inner]

/-- A regular node with other fields is passed over like the node itself. -/
theorem pass_withFields (role : Role) {e : Expr} (he : regular e) {fs : List Expr}
    (hfs : fs.length = e.fields.length) :
    (e.pass P role).withFields (passEach P (e.places P) fs) = (e.withFields fs).pass P role := by
  have hlength : (passEach P (e.places P) fs).length = (e.inner P).fields.length := by
    rw [Expr.fields_inner, Expr.length_passEach_places,
      length_passEach (e.length_places.trans hfs.symm), hfs]
  rw [Expr.pass, Expr.pass, hP.role _ _ (hP.inner e he),
    hP.role _ _ (hP.inner _ (hP.regular_withFields he hfs)), Expr.inner_withFields hfs,
    hP.value_withFields (hP.inner e he) hlength]

end Tops

end Pass

/-- The check of a membership does not tell whether a pass was made over it. -/
theorem Expr.rechecked_inner [P.KeepsLooks] (e : Expr) :
    (e.inner P).rechecked = e.rechecked.map (Expr.inner P) := by
  cases e with
  | inList operand items negated =>
    show makeInList (operand.pass P .value) (passAll P .value items) negated = _
    rw [passAll_eq_map]
    exact makeInList_map (h := fun e => e.pass P .value) (fun e => (P.looks .value e).rowItems)
      (by rw [inner, passAll_eq_map])
  | _ => rfl

namespace Pass

variable {regular : Expr → Prop}

theorem Tops.rechecked_pass [P.KeepsLooks] (hP : P.Tops regular) (role : Role) (e : Expr) :
    (e.pass P role).rechecked = e.rechecked.map (Expr.pass P role) := by
  rw [Expr.pass, hP.rechecked, Expr.rechecked_inner]
  cases e.rechecked <;> rfl

/-- **An expression may be rebuilt before a pass or after it**, if the function on nodes does not
tell the difference, and neither does a node that is not regular. -/
theorem rebuild [P.KeepsLooks] (hP : P.Tops regular) {f : Expr → Build Expr}
    (hf : ∀ role e, f (e.pass P role) = (f e).map (Expr.pass P role))
    (hother : ∀ role e, ¬regular e →
      (e.pass P role).rebuild f = (e.rebuild f).map (Expr.pass P role)) (role : Role) (e : Expr) :
    (e.pass P role).rebuild f = (e.rebuild f).map (Expr.pass P role) := by
  -- on the nodes of the scope; the fields are rebuilt before the node is checked
  induction e using Expr.scope_induction generalizing role with
  | step e ih =>
    by_cases he : regular e
    · have each : (e.pass P role).fields.mapM (Expr.rebuild f) =
          (e.fields.mapM (Expr.rebuild f)).map (passEach P (e.places P)) := by
        rw [hP.fields_pass role he]
        exact mapM_passEach e.length_places fun c hc j => ih c hc j
      have same : (e.pass P role).isExpr = e.isExpr := e.isExpr_pass P role
      cases hexpr : e.isExpr with
      | true =>
        rw [Expr.rebuild_eq f hexpr, Expr.rebuild_eq f (same.trans hexpr), each]
        refine map_bind_mapM fun fs hfs => ?_
        rw [hP.pass_withFields role he hfs, Expr.built_eq_self, Expr.built_eq_self]
        exact map_bind_view (hP.rechecked_pass role _) (hf role)
      -- tuples and objects from outside are not checked, and not handed to the step
      | false =>
        rw [Expr.rebuild_eq_of_not_isExpr f hexpr,
          Expr.rebuild_eq_of_not_isExpr f (same.trans hexpr), each]
        exact map_bind_mapM fun fs hfs => congrArg Except.ok (hP.pass_withFields role he hfs)
    · exact hother role e he

/-- The same for what ought to be an expression. -/
theorem mapNodesM [P.KeepsLooks] (hP : P.Tops regular) {f : Expr → Build Expr}
    (hf : ∀ role e, f (e.pass P role) = (f e).map (Expr.pass P role))
    (hother : ∀ role e, ¬regular e →
      (e.pass P role).rebuild f = (e.rebuild f).map (Expr.pass P role)) (role : Role) (e : Expr) :
    Expr.mapNodesM f (e.pass P role) = (Expr.mapNodesM f e).map (Expr.pass P role) := by
  unfold Expr.mapNodesM
  rw [Expr.isExpr_pass, Expr.isRecord_pass]
  split
  · exact rebuild hP hf hother role e
  · split
    · exact hf role e
    · rfl

end Pass

/-! ## References -/

/-- Whether a pass leaves references and what takes their places alone, and makes none. -/
structure Pass.LeavesReferences (P : Pass) : Prop where
  column : ∀ role table name, P.root role (.column table name) = .column table name
  star : ∀ role table, P.root role (.star table) = .star table
  excluded : ∀ role column, P.root role (.excluded column) = .excluded column
  image : ∀ role side column, P.root role (.image side column) = .image side column
  call : ∀ role name args distinct,
    P.root role (.call name args distinct) = .call name args distinct
  other : ∀ role e, e.isReference = false → (P.root role e).isReference = false

namespace Pass.LeavesReferences

variable (hP : P.LeavesReferences) (role : Role) (e : Expr)

include hP

theorem incoming (d : Dialect) (column : Name) :
    (SqlScribe.incoming d column).pass P role = SqlScribe.incoming d column := by
  cases d with
  | mysql =>
    have argument := congrArg (fun c => Expr.call valuesFunction [c] (.switch false))
      (hP.column .value .absent column)
    exact (hP.call role _ _ _).trans argument
  | sqlite | postgres | mssql => exact hP.column role _ _

theorem replaceExcluded (d : Dialect) :
    replaceExcluded (SqlScribe.incoming d) (e.pass P role) =
      (SqlScribe.replaceExcluded (SqlScribe.incoming d) e).pass P role := by
  cases e with
  | excluded column =>
    rw [Expr.pass, Expr.inner, hP.excluded]
    exact (hP.incoming role d column).symm
  | column table name => rw [Expr.pass, Expr.inner, hP.column]; exact (hP.column role _ _).symm
  | star table => rw [Expr.pass, Expr.inner, hP.star]; exact (hP.star role _).symm
  | _ => exact keeps_replaceExcluded _ (hP.other role _ rfl)

theorem mergeScope (target : Name) :
    mergeScope target (e.pass P role) = (SqlScribe.mergeScope target e).pass P role := by
  cases e with
  | excluded column =>
    rw [Expr.pass, Expr.inner, hP.excluded]
    exact (hP.column role _ _).symm
  | column table name =>
    rw [Expr.pass, Expr.inner, hP.column]
    unfold SqlScribe.mergeScope
    split <;> exact (hP.column role _ _).symm
  | star table => rw [Expr.pass, Expr.inner, hP.star]; exact (hP.star role _).symm
  | _ => exact keeps_mergeScope _ (hP.other role _ rfl)

theorem imageOf (side : RowImage) :
    imageOf side (e.pass P role) = (SqlScribe.imageOf side e).map (Expr.pass P role) := by
  cases e with
  | excluded column =>
    rw [Expr.pass, Expr.inner, hP.excluded]
    exact congrArg Except.ok (hP.excluded role _).symm
  | column table name =>
    rw [Expr.pass, Expr.inner, hP.column]
    unfold SqlScribe.imageOf
    dsimp only
    -- only a column whose name is a text has an image
    cases name.asText? with
    | none => rfl
    | some s => exact congrArg Except.ok (hP.image role side (some s)).symm
  | star table =>
    rw [Expr.pass, Expr.inner, hP.star]
    exact congrArg Except.ok (hP.image role side none).symm
  | _ => exact keeps_imageOf _ (hP.other role _ rfl)

end Pass.LeavesReferences

/-- Whether the rewritings of changes may be made before a pass or after it. -/
structure Pass.Rewrites (P : Pass) : Prop where
  excluded : ∀ d role e, Expr.mapNodes (replaceExcluded (incoming d)) (e.pass P role) =
    (Expr.mapNodes (replaceExcluded (incoming d)) e).map (Expr.pass P role)
  merge : ∀ target role e, Expr.mapNodes (mergeScope target) (e.pass P role) =
    (Expr.mapNodes (mergeScope target) e).map (Expr.pass P role)
  image : ∀ side role e, Expr.mapNodesM (imageOf side) (e.pass P role) =
    (Expr.mapNodesM (imageOf side) e).map (Expr.pass P role)

/-- Where every node is regular, the rewritings are no matter of a pass that leaves references
alone. -/
theorem Pass.Tops.rewrites [P.KeepsLooks] (hP : P.Tops fun _ => True)
    (hrefs : P.LeavesReferences) : P.Rewrites where
  excluded d role e :=
    mapNodesM hP (f := fun e => .ok (replaceExcluded (incoming d) e))
      (fun role e => congrArg Except.ok (hrefs.replaceExcluded role e d))
      (fun _ _ hother => absurd trivial hother) role e
  merge target role e :=
    mapNodesM hP (f := fun e => .ok (mergeScope target e))
      (fun role e => congrArg Except.ok (hrefs.mergeScope role e target))
      (fun _ _ hother => absurd trivial hother) role e
  image side role e :=
    mapNodesM hP (fun role e => hrefs.imageOf role e side)
      (fun _ _ hother => absurd trivial hother) role e

/-- Items may be taken from an image of a row before a pass or after it. -/
theorem imageItems_pass {side : RowImage}
    (himage : ∀ e, Expr.mapNodesM (imageOf side) (e.pass P .value) =
      (Expr.mapNodesM (imageOf side) e).map (Expr.pass P .value)) (items : List SelectItem) :
    imageItems side (items.map fun i => i.pass P) =
      (imageItems side items).map (List.map fun i => i.pass P) := by
  induction items with
  | nil => rfl
  | cons i rest ih =>
    obtain ⟨e, aliasName⟩ := i
    exact map_bind_view (himage e) fun _ => map_bind_view ih fun _ => rfl

end

end SqlScribe
