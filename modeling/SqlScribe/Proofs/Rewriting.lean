import SqlScribe.Proofs.Scopes
import SqlScribe.Proofs.Walk

/-!
# Rewritten expressions

Before an upsert or the columns of a change are written, references in their expressions are
replaced node by node. What is replaced refers to columns and binds nothing, and so does what takes
its place. Therefore a rewritten expression is alike to the original: it binds the same values, it
holds the same nested selects, it has a raw fragment only where the original has one, and it does as
well as a name or a switch.

`Alike` is preserved by every node, which `yields_rebuild` carries through a whole expression.
-/

namespace SqlScribe

namespace Tree

/-- Whether a tree binds what another binds, holds the same selects, and has raw fragments only if
that has. -/
structure Alike (t t' : Tree) : Prop where
  binds : ∀ d, t'.skeleton d = t.skeleton d
  scopes : ∀ d, t'.scopes d = t.scopes d
  clean : (t.Every fun n => n.isRaw = false) → t'.Every fun n => n.isRaw = false

namespace Alike

variable {t t' t'' : Tree} {ts ts' : List Tree}

/-- Every tree is alike to itself. -/
theorem refl (t : Tree) : Alike t t := ⟨fun _ => rfl, fun _ => rfl, id⟩

/-- Alike trees may be chained. -/
theorem trans (h : Alike t t') (h' : Alike t' t'') : Alike t t'' where
  binds d := (h'.binds d).trans (h.binds d)
  scopes d := (h'.scopes d).trans (h.scopes d)
  clean ht := h'.clean (h.clean ht)

theorem trans_all {ts'' : List Tree} (h : List.Forall₂ Alike ts ts')
    (h' : List.Forall₂ Alike ts' ts'') : List.Forall₂ Alike ts ts'' := by
  induction h generalizing ts'' with
  | nil => exact h'
  | cons ht _ ih =>
    cases h' with
    | cons ht' hs' => exact .cons (ht.trans ht') (ih hs')

/-- Lists of alike trees bind the same values, tree by tree. -/
theorem map_skeleton (h : List.Forall₂ Alike ts ts') (d : Dialect) :
    ts'.map (skeleton d) = ts.map (skeleton d) := by
  induction h with
  | nil => rfl
  | cons ht _ ih => rw [List.map_cons, List.map_cons, ht.binds d, ih]

/-- Lists of alike trees hold the same selects, in the same order. -/
theorem flatMap_scopes (h : List.Forall₂ Alike ts ts') (d : Dialect) :
    ts'.flatMap (Tree.scopes d) = ts.flatMap (Tree.scopes d) := by
  induction h with
  | nil => rfl
  | cons ht _ ih => rw [List.flatMap_cons, List.flatMap_cons, ht.scopes d, ih]

/-- Raw fragments do not come from nowhere. -/
theorem clean_all (h : List.Forall₂ Alike ts ts')
    (hts : ∀ t ∈ ts, t.Every fun n => n.isRaw = false) :
    ∀ t ∈ ts', t.Every fun n => n.isRaw = false := by
  induction h with
  | nil => exact hts
  | cons ht _ ih =>
    rw [List.forall_mem_cons] at hts ⊢
    exact ⟨ht.clean hts.1, ih hts.2⟩

/-- Two expressions are alike as trees if their branches are, a dialect writes alike trees below
them, and they are of the same kind. -/
theorem of_branches {e e' : Expr} (hb : List.Forall₂ Alike e.branches e'.branches)
    (hw : ∀ d, List.Forall₂ Alike ((Tree.expr e).written d) ((Tree.expr e').written d))
    (hframe : ∀ d inner, (Tree.expr e').frame d inner = (Tree.expr e).frame d inner)
    (hraw : (Tree.expr e').isRaw = (Tree.expr e).isRaw) : Alike (.expr e) (.expr e') where
  binds d := by rw [skeleton_eq, skeleton_eq, map_skeleton (hw d), hframe]
  scopes d := by rw [scopes_expr, scopes_expr, flatMap_scopes (hw d)]
  clean h := by
    rw [every_iff] at h ⊢
    exact ⟨hraw ▸ h.1, clean_all hb h.2⟩

/-- The same, where a dialect writes the branches as they are. -/
theorem node {e e' : Expr} (hb : List.Forall₂ Alike e.branches e'.branches)
    (hw : ∀ d, (Tree.expr e).written d = e.branches)
    (hw' : ∀ d, (Tree.expr e').written d = e'.branches)
    (hframe : ∀ d inner, (Tree.expr e').frame d inner = (Tree.expr e).frame d inner)
    (hraw : (Tree.expr e').isRaw = (Tree.expr e).isRaw) : Alike (.expr e) (.expr e') :=
  of_branches hb (fun d => by rw [hw, hw']; exact hb) hframe hraw

end Alike

end Tree

/-! ## Names and switches -/

/-- Whether the view of an expression is a record, as that of every node is. -/
def Expr.IsNode (e : Expr) : Prop := ∃ name fields, e.view = .record name fields

/-- Whether two expressions do alike as names and as switches. -/
structure SameNames (e e' : Expr) : Prop where
  asText : e'.asText? = e.asText?
  isTrue : e'.isTrue = e.isTrue
  word : ∀ s, e'.same (.word s) = e.same (.word s)

namespace SameNames

variable {e e' : Expr}

/-- Every expression does like itself as a name and as a switch. -/
theorem refl (e : Expr) : SameNames e e := ⟨rfl, rfl, fun _ => rfl⟩

/-- Nodes have no text, are true, and are no words, so as names and switches they are the same. -/
theorem of_isNode (hn : e.IsNode) (hn' : e'.IsNode) : SameNames e e' := by
  obtain ⟨name, fields, h⟩ := hn
  obtain ⟨name', fields', h'⟩ := hn'
  have word : ∀ name fields s, (Data.record name fields).same (.text s) = false := by
    intro name fields s
    simp [Data.same, Data.sameScalar?, Data.number?, Data.asInt?, Data.asText?]
  refine ⟨?_, ?_, fun s => ?_⟩
  · rw [Expr.asText?, Expr.asText?, h, h']
    rfl
  · rw [Expr.isTrue, Expr.isTrue, h, h']
    rfl
  · rw [Expr.same, Expr.same, h, h']
    exact (word name' fields' s).trans (word name fields s).symm

/-- Rows of items are no texts, and they are switches by whether they are empty. -/
theorem tuple {es es' : List Expr} (h : es'.isEmpty = es.isEmpty) :
    SameNames (.tuple es) (.tuple es') where
  asText := rfl
  isTrue := by
    have shown (es : List Expr) : (Expr.tuple es).isTrue = !es.isEmpty := by cases es <;> rfl
    rw [shown, shown, h]
  word s := by simp [Expr.same, Expr.view, Data.same, Data.sameScalar?, Data.number?, Data.asInt?,
    Data.asText?]

/-- A text is the same text, and data that are no text are no template at all. -/
theorem rawChars {sql sql' aliasName aliasName' : Expr} (hs : SameNames sql sql')
    (ha : SameNames aliasName aliasName') :
    SqlScribe.rawChars sql'.view aliasName' = SqlScribe.rawChars sql.view aliasName ∨
      (∃ r, SqlScribe.rawChars sql.view aliasName = .error r) ∧
        ∃ r, SqlScribe.rawChars sql'.view aliasName' = .error r := by
  have none : ∀ (d : Data) (a : Name), d.asText? = none →
      ∃ r, SqlScribe.rawChars d a = .error r := by
    intro d a hd
    simp only [SqlScribe.rawChars, hd]
    split <;> exact ⟨_, rfl⟩
  cases htext : sql.view.asText? with
  | none => exact .inr ⟨none _ _ htext, none _ _ (hs.asText.trans htext)⟩
  | some s =>
    have htext' : sql'.view.asText? = some s := hs.asText.trans htext
    left
    unfold SqlScribe.rawChars
    rw [htext, htext', ha.isTrue, ha.asText]

end SameNames

/-! ## Expressions -/

/-- Whether one expression may stand for another: as a tree, as a row, and as a name or a switch. -/
structure Alike (e e' : Expr) : Prop where
  tree : Tree.Alike (.expr e) (.expr e')
  isRow : e'.isRow = e.isRow
  parts : List.Forall₂ Tree.Alike (e.parts.map .expr) (e'.parts.map .expr)
  asText : e'.asText? = e.asText?
  isTrue : e'.isTrue = e.isTrue
  word : ∀ s, e'.same (.word s) = e.same (.word s)

namespace Alike

variable {e e' e'' : Expr} {es es' : List Expr}

theorem refl (e : Expr) : Alike e e :=
  ⟨.refl _, rfl, List.forall₂_same.mpr fun t _ => .refl t, rfl, rfl, fun _ => rfl⟩

theorem trans (h : Alike e e') (h' : Alike e' e'') : Alike e e'' where
  tree := h.tree.trans h'.tree
  isRow := h'.isRow.trans h.isRow
  parts := Tree.Alike.trans_all h.parts h'.parts
  asText := h'.asText.trans h.asText
  isTrue := h'.isTrue.trans h.isTrue
  word s := (h'.word s).trans (h.word s)

/-- The trees of expressions that are alike one by one. -/
theorem trees (h : List.Forall₂ Alike es es') :
    List.Forall₂ Tree.Alike (es.map .expr) (es'.map .expr) := by
  induction h with
  | nil => exact .nil
  | cons he _ ih => exact .cons he.tree ih

theorem names (h : Alike e e') : SameNames e e' := ⟨h.asText, h.isTrue, h.word⟩

/-- As names and switches nodes are the same. -/
theorem of_nodes (hn : e.IsNode) (hn' : e'.IsNode) (ht : Tree.Alike (.expr e) (.expr e'))
    (hr : e'.isRow = e.isRow)
    (hp : List.Forall₂ Tree.Alike (e.parts.map .expr) (e'.parts.map .expr)) : Alike e e' :=
  have names := SameNames.of_isNode hn hn'
  ⟨ht, hr, hp, names.asText, names.isTrue, names.word⟩

end Alike

/-- Whether a node is written as its branches are: it binds nothing itself, repeats no branch, and
has no items that are written elsewhere. -/
def Expr.isPlain : Expr → Bool
  | .literal _ | .jsonExtract .. | .jsonType .. | .inList .. | .row .. | .textSearch .. | .raw ..
  | .tuple _ | .foreign _ => false
  | _ => true

theorem Expr.isNode_of_isPlain {e : Expr} (h : e.isPlain = true) : e.IsNode := by
  cases e <;> first | exact ⟨_, _, rfl⟩ | cases h

/-- A plain node is no row. -/
theorem Expr.isRow_of_isPlain {e : Expr} (h : e.isPlain = true) : e.isRow = false := by
  cases e <;> first | rfl | cases h

theorem Expr.parts_of_isPlain {e : Expr} (h : e.isPlain = true) : e.parts = [] := by
  cases e <;> first | rfl | cases h

theorem Expr.isRaw_of_isPlain {e : Expr} (h : e.isPlain = true) : (Tree.expr e).isRaw = false := by
  cases e <;> first | rfl | cases h

/-- A plain node binds what its branches bind, in their order. -/
theorem Expr.skeleton_of_isPlain {e : Expr} (h : e.isPlain = true) (d : Dialect) :
    (Tree.expr e).skeleton d = .concat (e.branches.map (Tree.skeleton d)) := by
  rw [Tree.skeleton_eq]
  cases e <;> first | rfl | cases h

/-- A plain node holds the selects of its branches. -/
theorem Expr.scopes_of_isPlain {e : Expr} (h : e.isPlain = true) (d : Dialect) :
    (Tree.expr e).scopes d = e.branches.flatMap (Tree.scopes d) := by
  rw [Tree.scopes_expr]
  cases e <;> first | rfl | cases h

namespace Alike

variable {e e' : Expr} {es es' : List Expr}

/-- Plain nodes are alike if their branches are. -/
theorem plain (h : e.isPlain = true) (h' : e'.isPlain = true)
    (hb : List.Forall₂ Tree.Alike e.branches e'.branches) : Alike e e' := by
  refine of_nodes (e.isNode_of_isPlain h) (e'.isNode_of_isPlain h')
    ⟨fun d => ?_, fun d => ?_, fun hc => ?_⟩
    ((e'.isRow_of_isPlain h').trans (e.isRow_of_isPlain h).symm) ?_
  · rw [e'.skeleton_of_isPlain h', e.skeleton_of_isPlain h, Tree.Alike.map_skeleton hb]
  · rw [e'.scopes_of_isPlain h', e.scopes_of_isPlain h, Tree.Alike.flatMap_scopes hb]
  · exact Tree.every_iff.mpr ⟨e'.isRaw_of_isPlain h',
      Tree.Alike.clean_all hb (Tree.every_iff.mp hc).2⟩
  · rw [e'.parts_of_isPlain h', e.parts_of_isPlain h]
    exact .nil

/-- The selects of a query are kept as they are. -/
theorem selects {q q' : Query} (h : q'.selects = q.selects) :
    List.Forall₂ Tree.Alike (q.selects.map .select) (q'.selects.map .select) :=
  h ▸ List.forall₂_same.mpr fun t _ => .refl t

/-- Rows of alike items. -/
theorem row {first first' : Expr} {rest rest' : List Expr}
    (h : List.Forall₂ Alike (first :: rest) (first' :: rest')) :
    Alike (.row first rest) (.row first' rest') :=
  of_nodes ⟨_, _, rfl⟩ ⟨_, _, rfl⟩ (.node (trees h) (fun _ => rfl) (fun _ => rfl)
    (fun _ _ => rfl) rfl) rfl (trees h)

/-- Searches of alike columns. -/
theorem textSearch {first first' : Expr} {rest rest' : List Expr}
    (h : List.Forall₂ Alike (first :: rest) (first' :: rest')) :
    Alike (.textSearch first rest) (.textSearch first' rest') :=
  of_nodes ⟨_, _, rfl⟩ ⟨_, _, rfl⟩ (.node (trees h) (fun _ => rfl) (fun _ => rfl)
    (fun _ _ => rfl) rfl) rfl (trees h)

theorem jsonExtract {document document' : Expr} (h : Alike document document') (path : JsonPath)
    (f f' : Flag) : Alike (.jsonExtract document path f) (.jsonExtract document' path f') :=
  of_nodes ⟨_, _, rfl⟩ ⟨_, _, rfl⟩ (.node (.cons h.tree .nil) (fun _ => rfl) (fun _ => rfl)
    (fun _ _ => rfl) rfl) rfl .nil

theorem jsonType {document document' : Expr} (h : Alike document document') (type : JsonType) :
    Alike (.jsonType document type) (.jsonType document' type) :=
  of_nodes ⟨_, _, rfl⟩ ⟨_, _, rfl⟩ (.node (.cons h.tree .nil) (fun _ => rfl) (fun _ => rfl)
    (fun _ _ => rfl) rfl) rfl .nil

theorem tuple (h : List.Forall₂ Alike es es') : Alike (.tuple es) (.tuple es') :=
  have names : SameNames (.tuple es) (.tuple es') := .tuple (by cases h <;> rfl)
  { tree := .node .nil (fun _ => rfl) (fun _ => rfl) (fun _ _ => rfl) rfl
    isRow := rfl
    parts := .nil
    asText := names.asText
    isTrue := names.isTrue
    word := names.word }

/-- What SQL Server writes of two rows that it compares. -/
theorem pairs {left left' row row' : List Expr}
    (hl : List.Forall₂ Tree.Alike (left.map .expr) (left'.map .expr))
    (hr : List.Forall₂ Tree.Alike (row.map .expr) (row'.map .expr)) :
    List.Forall₂ Tree.Alike ((left.zip row).flatMap fun p => [Tree.expr p.1, .expr p.2])
      ((left'.zip row').flatMap fun p => [Tree.expr p.1, .expr p.2]) := by
  rw [List.forall₂_map_left_iff, List.forall₂_map_right_iff] at hl hr
  induction hl generalizing row row' with
  | nil => exact .nil
  | cons hl _ ih =>
    cases hr with
    | nil => exact .nil
    | cons hr hrest => exact .cons hl (.cons hr (ih hrest))

/-- What SQL Server writes of rows depends on their items. -/
theorem rows {left left' : Expr} (hl : Alike left left') (hs : List.Forall₂ Alike es es') :
    List.Forall₂ Tree.Alike
      (es.flatMap fun row => (left.parts.zip row.parts).flatMap fun p =>
        [Tree.expr p.1, .expr p.2])
      (es'.flatMap fun row => (left'.parts.zip row.parts).flatMap fun p =>
        [Tree.expr p.1, .expr p.2]) := by
  induction hs with
  | nil => exact .nil
  | cons hrow _ ih => exact List.rel_append (pairs hl.parts hrow.parts) ih

/-- A membership of alike operands in alike items. If the operand is a row, rows are compared. -/
theorem inList {operand operand' : Expr} (h : Alike operand operand')
    (hs : List.Forall₂ Alike es es') (f f' : Flag) :
    Alike (.inList operand es f) (.inList operand' es' f') := by
  have hb : List.Forall₂ Tree.Alike (Expr.inList operand es f).branches
      (Expr.inList operand' es' f').branches := by
    cases hs with
    | nil => exact .nil
    | cons he hes => exact .cons h.tree (trees (.cons he hes))
  refine of_nodes ⟨_, _, rfl⟩ ⟨_, _, rfl⟩ (.of_branches hb (fun d => ?_) (fun _ _ => rfl) rfl) rfl
    .nil
  simp only [Tree.written, h.isRow]
  split
  · exact rows h hs
  · exact hb

/-! ## Raw fragments -/

/-- The bindings found under one name are alike. -/
theorem bindingOf {bindings bindings' : List (Name × Expr)} (name : List Char)
    (h : List.Forall₂ (fun b b' => Alike b.1 b'.1 ∧ Alike b.2 b'.2) bindings bindings') :
    List.Forall₂ Alike (SqlScribe.bindingOf bindings name).toList
      (SqlScribe.bindingOf bindings' name).toList := by
  induction h with
  | nil => exact .nil
  | cons hb _ ih =>
    unfold SqlScribe.bindingOf at ih ⊢
    rw [List.find?_cons, List.find?_cons, hb.1.word]
    split
    · exact .cons hb.2 .nil
    · exact ih

/-- The expressions that a template marks are alike, mark by mark. -/
theorem markedBy {bindings bindings' : List (Name × Expr)} (parts : List Template.Part)
    (h : List.Forall₂ (fun b b' => Alike b.1 b'.1 ∧ Alike b.2 b'.2) bindings bindings') :
    List.Forall₂ Alike (SqlScribe.markedBy bindings parts)
      (SqlScribe.markedBy bindings' parts) := by
  induction parts with
  | nil => exact .nil
  | cons part rest ih =>
    cases part with
    | text cs => exact ih
    | mark name => exact List.rel_append (bindingOf name h) ih

/-- Raw fragments whose text, alias, switch and bindings are alike. -/
theorem raw {sql sql' aliasName aliasName' template template' : Expr}
    {bindings bindings' : List (Name × Expr)} (hs : Alike sql sql')
    (ha : Alike aliasName aliasName') (ht : Alike template template')
    (h : List.Forall₂ (fun b b' => Alike b.1 b'.1 ∧ Alike b.2 b'.2) bindings bindings') :
    Alike (.raw sql aliasName template bindings) (.raw sql' aliasName' template' bindings') := by
  have parts : List.Forall₂ Alike (rawParts sql.view aliasName template.isTrue bindings)
      (rawParts sql'.view aliasName' template'.isTrue bindings') := by
    unfold rawParts
    rw [ht.isTrue]
    split
    · exact .nil
    -- one text makes one template; data that are no text fill no mark on either side
    · rcases hs.names.rawChars ha.names with hc | ⟨⟨r, hr⟩, r', hr'⟩
      · rw [hc]
        split
        · exact markedBy _ h
        · exact .nil
      · rw [hr, hr']
        exact .nil
  exact of_nodes ⟨_, _, rfl⟩ ⟨_, _, rfl⟩ (.node (trees parts) (fun _ => rfl) (fun _ => rfl)
    (fun _ _ => rfl) rfl) rfl .nil

end Alike

/-! ## Rebuilding -/

section

variable {f : Expr → Build Expr} {e e' : Expr}

/-- What a function on nodes makes of a rebuilt node. -/
theorem yields_handed (hf : ∀ e, Yields (Alike e) (f e)) (h : Alike e e') :
    Yields (Alike e) (f e') :=
  (hf e').mono fun _ h' => h.trans h'

/-- What a constructor yields is not changed by checking it again. -/
theorem yields_built {α : Type} {P : α → Prop} {x : Build α} (h : Yields P x) :
    Yields P (Expr.built x : Build α) := by
  cases x with
  | ok a => exact yields_ok (h a rfl)
  | error e => exact yields_error

/-- A checked membership in a list is what it was made from. -/
theorem yields_makeInList (operand : Expr) (items : List Expr) (negated : Flag) :
    Yields (fun e => e = .inList operand items negated)
      (Expr.makeInList operand items negated) := by
  unfold Expr.makeInList
  split
  · split
    · exact yields_ok rfl
    · exact yields_error
  · split
    · exact yields_error
    · exact yields_ok rfl

open SqlScribe.Expr in
mutual

/-- A rebuilt expression is alike to the original, if the function on nodes gives what is alike. -/
theorem yields_rebuild (hf : ∀ e, Yields (Alike e) (f e)) : ∀ e, Yields (Alike e) (rebuild f e)
  | .column table name => (yields_rebuild hf table).bind fun _ _ =>
    (yields_rebuild hf name).bind fun _ _ => yields_handed hf (.plain rfl rfl .nil)
  | .star table => (yields_rebuild hf table).bind fun _ _ =>
    yields_handed hf (.plain rfl rfl .nil)
  | .literal _ => hf _
  | .truth value => (yields_rebuild hf value).bind fun _ _ =>
    yields_handed hf (.plain rfl rfl .nil)
  | .not operand => (yields_rebuild hf operand).bind fun _ h =>
    yields_handed hf (.plain rfl rfl (.cons h.tree .nil))
  | .isNull operand negated => (yields_rebuild hf operand).bind fun _ h =>
    (yields_rebuild hf negated).bind fun _ _ =>
    yields_handed hf (.plain rfl rfl (.cons h.tree .nil))
  | .binary _ left right => (yields_rebuild hf left).bind fun _ hl =>
    (yields_rebuild hf right).bind fun _ hr =>
    yields_handed hf (.plain rfl rfl (.cons hl.tree (.cons hr.tree .nil)))
  | .logical _ first rest => (yields_rebuild hf first).bind fun _ h =>
    (yields_rebuildAll hf rest).bind fun _ hs =>
    yields_handed hf (.plain rfl rfl (.cons h.tree (Alike.trees hs)))
  -- the only constructor that may refuse what it is given: its items may have lost their width
  | .inList operand items negated => (yields_rebuild hf operand).bind fun o h =>
    (yields_rebuildAll hf items).bind fun is hs => (yields_rebuild hf negated).bind fun n _ =>
    (yields_built (yields_makeInList o is n)).bind fun _ hm =>
    yields_handed hf (hm ▸ .inList h hs negated n)
  | .inQuery operand query negated => (yields_rebuild hf operand).bind fun _ h =>
    (yields_rebuildQuery hf query).bind fun _ hq => (yields_rebuild hf negated).bind fun _ _ =>
    yields_handed hf (.plain rfl rfl (.cons h.tree (Alike.selects hq)))
  | .between operand low high negated => (yields_rebuild hf operand).bind fun _ h =>
    (yields_rebuild hf low).bind fun _ hl => (yields_rebuild hf high).bind fun _ hh =>
    (yields_rebuild hf negated).bind fun _ _ =>
    yields_handed hf (.plain rfl rfl (.cons h.tree (.cons hl.tree (.cons hh.tree .nil))))
  | .exists query negated => (yields_rebuildQuery hf query).bind fun _ hq =>
    (yields_rebuild hf negated).bind fun _ _ =>
    yields_handed hf (.plain rfl rfl (Alike.selects hq))
  | .scalar query => (yields_rebuildQuery hf query).bind fun _ hq =>
    yields_handed hf (.plain rfl rfl (Alike.selects hq))
  | .row first rest => (yields_rebuild hf first).bind fun _ h =>
    (yields_rebuildAll hf rest).bind fun _ hs => yields_handed hf (.row (.cons h hs))
  | .call _ args distinct => (yields_rebuildAll hf args).bind fun _ hs =>
    (yields_rebuild hf distinct).bind fun _ _ =>
    yields_handed hf (.plain rfl rfl (Alike.trees hs))
  | .cast operand _ => (yields_rebuild hf operand).bind fun _ h =>
    yields_handed hf (.plain rfl rfl (.cons h.tree .nil))
  | .coalesce parts | .concat parts => (yields_rebuildAll hf parts).bind fun _ hs =>
    yields_handed hf (.plain rfl rfl (Alike.trees hs))
  | .aggregateText operand => (yields_rebuild hf operand).bind fun _ h =>
    yields_handed hf (.plain rfl rfl (.cons h.tree .nil))
  | .sorted operand _ => (yields_rebuild hf operand).bind fun _ h =>
    yields_handed hf (.plain rfl rfl (.cons h.tree .nil))
  | .window partition order => (yields_rebuildAll hf partition).bind fun _ hp =>
    (yields_rebuildAll hf order).bind fun _ ho =>
    yields_handed hf (.plain rfl rfl (Alike.trees (List.rel_append hp ho)))
  | .over _ args spec => (yields_rebuildAll hf args).bind fun _ hs =>
    (yields_rebuild hf spec).bind fun _ h =>
    yields_handed hf (.plain rfl rfl (List.rel_append (Alike.trees hs) (.cons h.tree .nil)))
  | .jsonExtract document path asText => (yields_rebuild hf document).bind fun _ h =>
    (yields_rebuild hf asText).bind fun _ _ => yields_handed hf (.jsonExtract h path _ _)
  | .jsonContains document value negated => (yields_rebuild hf document).bind fun _ hd =>
    (yields_rebuild hf value).bind fun _ hv => (yields_rebuild hf negated).bind fun _ _ =>
    yields_handed hf (.plain rfl rfl (.cons hd.tree (.cons hv.tree .nil)))
  | .jsonEdge document value _ negated => (yields_rebuild hf document).bind fun _ hd =>
    (yields_rebuild hf value).bind fun _ hv => (yields_rebuild hf negated).bind fun _ _ =>
    yields_handed hf (.plain rfl rfl (.cons hd.tree (.cons hv.tree .nil)))
  | .jsonType document type => (yields_rebuild hf document).bind fun _ h =>
    yields_handed hf (.jsonType h type)
  | .textSearch first rest => (yields_rebuild hf first).bind fun _ h =>
    (yields_rebuildAll hf rest).bind fun _ hs => yields_handed hf (.textSearch (.cons h hs))
  | .matches search query negated => (yields_rebuild hf search).bind fun _ hs =>
    (yields_rebuild hf query).bind fun _ hq => (yields_rebuild hf negated).bind fun _ _ =>
    yields_handed hf (.plain rfl rfl (.cons hs.tree (.cons hq.tree .nil)))
  | .rowToJson table pretty => (yields_rebuild hf table).bind fun _ _ =>
    (yields_rebuild hf pretty).bind fun _ _ => yields_handed hf (.plain rfl rfl .nil)
  | .excluded name => (yields_rebuild hf name).bind fun _ _ =>
    yields_handed hf (.plain rfl rfl .nil)
  | .raw sql aliasName template bindings => (yields_rebuild hf sql).bind fun _ hs =>
    (yields_rebuild hf aliasName).bind fun _ ha => (yields_rebuild hf template).bind fun _ ht =>
    (yields_rebuildBindings hf bindings).bind fun _ hb => yields_handed hf (.raw hs ha ht hb)
  | .image _ _ => hf _
  | .tuple items => (yields_rebuildAll hf items).bind fun _ hs => yields_ok (.tuple hs)
  | .foreign _ => yields_ok (.refl _)

/-- A query keeps its selects. Only data in its place are rebuilt. -/
theorem yields_rebuildQuery (hf : ∀ e, Yields (Alike e) (f e)) :
    ∀ q, Yields (fun q' => q'.selects = q.selects) (rebuildQuery f q)
  | .select _ | .union _ | .draft _ => yields_ok rfl
  | .other object => (yields_rebuild hf object).bind fun _ _ => yields_ok rfl

/-- Lists are rebuilt member by member. -/
theorem yields_rebuildAll (hf : ∀ e, Yields (Alike e) (f e)) :
    ∀ es, Yields (List.Forall₂ Alike es) (rebuildAll f es)
  | [] => yields_ok .nil
  | e :: rest => (yields_rebuild hf e).bind fun _ h =>
    (yields_rebuildAll hf rest).bind fun _ hs => yields_ok (.cons h hs)

/-- Bindings are rebuilt one by one. -/
theorem yields_rebuildBindings (hf : ∀ e, Yields (Alike e) (f e)) : ∀ bs, Yields
    (List.Forall₂ (fun b b' => Alike b.1 b'.1 ∧ Alike b.2 b'.2) bs) (rebuildBindings f bs)
  | [] => yields_ok .nil
  | b :: rest => (yields_rebuildBinding hf b).bind fun _ h =>
    (yields_rebuildBindings hf rest).bind fun _ hs => yields_ok (.cons h hs)

/-- A binding is rebuilt in its name and in what it binds. -/
theorem yields_rebuildBinding (hf : ∀ e, Yields (Alike e) (f e)) :
    ∀ b, Yields (fun b' => Alike b.1 b'.1 ∧ Alike b.2 b'.2) (rebuildBinding f b)
  | (name, e) => (yields_rebuild hf name).bind fun _ hn =>
    (yields_rebuild hf e).bind fun _ h => yields_ok ⟨hn, h⟩

end

/-- What ought to be an expression, rebuilt. -/
theorem yields_mapNodesM (hf : ∀ e, Yields (Alike e) (f e)) (e : Expr) :
    Yields (Alike e) (Expr.mapNodesM f e) := by
  unfold Expr.mapNodesM
  split
  · exact yields_rebuild hf e
  · split
    · exact hf e
    · exact yields_error

/-- A function that keeps each node alike keeps whole expressions alike. -/
theorem yields_mapNodes {g : Expr → Expr} (hg : ∀ e, Alike e (g e)) (e : Expr) :
    Yields (Alike e) (Expr.mapNodes g e) :=
  yields_mapNodesM (fun e => yields_ok (hg e)) e

/-- A fault of building becomes an error of writing, and results stay. -/
theorem yields_rebuilt {α : Type} {P : α → Prop} {x : Build α} (h : Yields P x) :
    Yields P (rebuilt x) := by
  cases x with
  | ok a => exact yields_ok (h a rfl)
  | error e => exact yields_error

/-! ## References -/

/-- What stands for an incoming value is alike to the reference. -/
theorem alike_incoming (d : Dialect) (column : Name) :
    Alike (.excluded column) (incoming d column) := by
  cases d with
  | mysql =>
    -- here a call takes the place, with the column written below it
    have inner : Tree.Alike (.expr (.excluded column)) (.expr (incoming .mysql column)) := by
      refine ⟨fun d => ?_, fun d => ?_, fun _ => ?_⟩
      · rw [Expr.skeleton_of_isPlain rfl, Expr.skeleton_of_isPlain rfl]
        show Fragment.concat [(Tree.expr (.column .absent column)).skeleton d] = .empty
        rw [Expr.skeleton_of_isPlain rfl]
        rfl
      · rw [Expr.scopes_of_isPlain rfl, Expr.scopes_of_isPlain rfl]
        show [Tree.expr (.column .absent column)].flatMap (Tree.scopes d) = []
        rw [List.flatMap_singleton, Expr.scopes_of_isPlain rfl]
        rfl
      · refine Tree.every_iff.mpr ⟨rfl, fun b hb => ?_⟩
        obtain rfl := List.mem_singleton.mp hb
        exact Tree.every_iff.mpr ⟨rfl, fun b hb => nomatch hb⟩
    exact .of_nodes ⟨_, _, rfl⟩ ⟨_, _, rfl⟩ inner rfl .nil
  | sqlite | postgres | mssql => exact .plain rfl rfl .nil

/-- Replacing references keeps every node alike. -/
theorem alike_replaceExcluded (d : Dialect) (e : Expr) :
    Alike e (replaceExcluded (incoming d) e) := by
  unfold replaceExcluded
  split
  · exact alike_incoming d _
  · exact .refl e

/-- Giving columns the scope of a merge keeps every node alike. -/
theorem alike_mergeScope (target : Name) (e : Expr) : Alike e (mergeScope target e) := by
  unfold mergeScope
  split
  · exact .plain rfl rfl .nil
  · exact .plain rfl rfl .nil
  · exact .refl e

/-- A column of a returned row is alike to its image, and anything that has no image is an error. -/
theorem yields_imageOf (side : RowImage) (e : Expr) : Yields (Alike e) (imageOf side e) := by
  unfold imageOf
  split
  · split
    · exact yields_ok (.plain rfl rfl .nil)
    · exact yields_error
  · exact yields_ok (.plain rfl rfl .nil)
  · exact yields_ok (.refl e)

/-- The items of an output clause are alike to those that were asked for. -/
theorem yields_imageItems (side : RowImage) (items : List SelectItem) :
    Yields (fun items' => List.Forall₂ Tree.Alike (itemTrees items) (itemTrees items'))
      (imageItems side items) := by
  induction items with
  | nil => exact yields_ok .nil
  | cons i rest ih =>
    exact (yields_mapNodesM (yields_imageOf side) i.expr).bind fun e he => ih.bind fun rest' hr =>
      yields_ok (.cons he.tree hr)

end

end SqlScribe
