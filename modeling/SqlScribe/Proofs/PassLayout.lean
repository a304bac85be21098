import SqlScribe.Proofs.Looks
import SqlScribe.Proofs.Outcome

/-!
# Layouts of parts that are written alike

Two outcomes of writing are alike if they are the same error, or fragments that are the same once a
function is applied to all values (`SameUpTo`). If the parts of a node are written alike, then so is
the node. This is shown for each layout. Where a layout looks at the parts themselves, they are the
same on both sides.
-/

namespace SqlScribe

/-! ## Values of fragments -/

namespace Fragment

/-- A fragment with a function applied to its values. -/
def mapValues (g : Value → Value) : Fragment → Fragment
  | empty => empty
  | text s rest => text s (rest.mapValues g)
  | name n rest => name n (rest.mapValues g)
  | slot v rest => slot (g v) (rest.mapValues g)
  | crossed first second rest =>
    crossed (first.mapValues g) (second.mapValues g) (rest.mapValues g)

section

variable {g : Value → Value}

@[simp] theorem mapValues_empty : empty.mapValues g = empty := rfl

@[simp] theorem mapValues_ofText (s : String) : (ofText s).mapValues g = ofText s := rfl

@[simp] theorem mapValues_ofName (n : String) : (ofName n).mapValues g = ofName n := rfl

/-- Values are changed part by part. -/
@[simp] theorem mapValues_append (f f' : Fragment) :
    (f ++ f').mapValues g = f.mapValues g ++ f'.mapValues g := by
  induction f with
  | empty => rfl
  | text s rest ih | name n rest ih | slot v rest ih => simp [mapValues, ih]
  | crossed a b rest _ _ ih => simp [mapValues, ih]

@[simp] theorem mapValues_cross (f f' : Fragment) :
    (cross f f').mapValues g = cross (f.mapValues g) (f'.mapValues g) := rfl

/-- Parentheses hold no values. -/
@[simp] theorem mapValues_parens (f : Fragment) :
    f.parens.mapValues g = (f.mapValues g).parens := by
  simp [parens]

/-- Separators hold no values. -/
@[simp] theorem mapValues_join (separator : String) (fs : List Fragment) :
    (join separator fs).mapValues g = join separator (fs.map (mapValues g)) := by
  induction fs with
  | nil => rfl
  | cons f fs ih =>
    cases fs with
    | nil => rfl
    | cons f' fs => simp [join, ih]

/-- A list in parentheses. -/
@[simp] theorem mapValues_tuple (fs : List Fragment) :
    (tuple fs).mapValues g = tuple (fs.map (mapValues g)) := by
  simp [tuple]

/-- Values that are all kept. -/
theorem mapValues_id (f : Fragment) : f.mapValues id = f := by
  induction f with
  | empty => rfl
  | text s rest ih | name n rest ih | slot v rest ih => simp [mapValues, ih]
  | crossed a b rest iha ihb ih => simp [mapValues, iha, ihb, ih]

/-- There are as many values as before. -/
@[simp] theorem size_mapValues (f : Fragment) : (f.mapValues g).size = f.size := by
  induction f with
  | empty => rfl
  | text s rest ih | name n rest ih | slot v rest ih => simp [mapValues, size, ih]
  | crossed a b rest iha ihb ih => simp [mapValues, size, iha, ihb, ih]

/-- The text of a fragment does not depend on its values. -/
theorem write_mapValues (style : Style) (place : Nat → String) (n : Nat) (f : Fragment) :
    (f.mapValues g).write style (fun i _ => place i) n =
      f.write style (fun i _ => place i) n := by
  induction f generalizing n with
  | empty => rfl
  | text s rest ih | name a rest ih | slot v rest ih => simp [mapValues, write, ih]
  | crossed a b rest iha ihb ih => simp [mapValues, write, iha, ihb, ih]

/-- The text does not depend on the values, only on where they stand. -/
theorem spell_mapValues (style : Style) (f : Fragment) :
    (f.mapValues g).spell style = f.spell style :=
  write_mapValues style _ 0 f

end

end Fragment

open Fragment (mapValues)

/-- Whether two outcomes of writing are the same once `g` is applied to all values. -/
abbrev SameUpTo (g : Value → Value) (w w' : Rendered Fragment) : Prop := Agree (mapValues g) w w'

/-- Whether two outcomes of writing several fragments are the same once `g` is applied to all
values. -/
abbrev EachUpTo (g : Value → Value) (ws ws' : Rendered (List Fragment)) : Prop :=
  Agree (List.map (mapValues g)) ws ws'

/-- Outcomes that are alike with their values are the same. -/
theorem Agree.eq_of_id {w w' : Rendered Fragment} (h : SameUpTo id w w') : w = w' := by
  rcases h.cases with ⟨e, rfl, rfl⟩ | ⟨f, f', rfl, rfl, hf⟩
  · rfl
  · rw [Fragment.mapValues_id, Fragment.mapValues_id] at hf
    rw [hf]

section

variable {g : Value → Value} {d : Dialect} {w w' v v' : Rendered Fragment}
  {ws ws' : List (Rendered Fragment)}

/-! ## Names and raw data -/

/-- Texts are required of the same expressions on both sides. -/
theorem agree_textsOf (es : List Expr) (h : List.Forall₂ (SameUpTo g) ws ws') :
    EachUpTo g (textsOf es ws) (textsOf es ws') :=
  (agree_allOk h).bind fun _ _ hfs => agree_after fun _ => agree_ok hfs

/-- The same alias stands behind both. -/
theorem agree_aliased {f f' : Fragment} (h : f.mapValues g = f'.mapValues g) (aliasName : Name) :
    SameUpTo g (aliased f aliasName) (aliased f' aliasName) := by
  unfold aliased
  split
  · exact agree_after fun n => agree_ok (by simp [h])
  · exact agree_ok h

/-- Fragments with a text between them. -/
theorem agree_joined (separator : String) (h : List.Forall₂ (SameUpTo g) ws ws') :
    SameUpTo g ((allOk ws).map (Fragment.join separator))
      ((allOk ws').map (Fragment.join separator)) :=
  (agree_allOk h).map fun fs fs' hfs => by
    rw [Fragment.mapValues_join, Fragment.mapValues_join, hfs]

/-! ## Parentheses -/

theorem agree_parens (h : SameUpTo g w w') :
    SameUpTo g (w.map Fragment.parens) (w'.map Fragment.parens) :=
  h.map fun f f' hf => by rw [Fragment.mapValues_parens, Fragment.mapValues_parens, hf]

/-- The same expression is held together on both sides or on neither. -/
theorem agree_operandOf (e : Expr) (h : SameUpTo g w w') :
    SameUpTo g (operandOf e w) (operandOf e w') := by
  unfold operandOf
  split
  · exact agree_parens h
  · exact h

@[simp] theorem mapValues_negatedIf (negated : Bool) (f : Fragment) :
    (negatedIf negated f).mapValues g = negatedIf negated (f.mapValues g) := by
  cases negated <;> simp [negatedIf]

/-! ## Memberships -/

/-- A membership, with the values of the operand in front of those of the items. -/
theorem agree_membershipOf (e : Expr) (es : List Expr) (negated : Bool) (h : SameUpTo g w w')
    (hs : List.Forall₂ (SameUpTo g) ws ws') :
    SameUpTo g (membershipOf e w es ws negated) (membershipOf e w' es ws' negated) :=
  (agree_operandOf e h).bind fun l l' hl => (agree_textsOf es hs).bind fun fs fs' hfs =>
    agree_ok (by simp [hl, hfs])

/-- A membership of a row. -/
theorem agree_rowMembershipOf (negated : Bool) (h : SameUpTo g w w')
    (hs : List.Forall₂ (SameUpTo g) ws ws') :
    SameUpTo g (rowMembershipOf d w ws negated) (rowMembershipOf d w' ws' negated) :=
  h.bind fun l l' hl => (agree_allOk hs).bind fun fs fs' hfs =>
    agree_ok (by split <;> simp [hl, hfs])

/-- One expression beside two outcomes of writing that are alike. -/
def PairUpTo (g : Value → Value) (p q : Expr × Rendered Fragment) : Prop :=
  p.1 = q.1 ∧ SameUpTo g p.2 q.2

/-- Expressions beside what is written for them. -/
theorem pairs_zip (es : List Expr) (h : List.Forall₂ (SameUpTo g) ws ws') :
    List.Forall₂ (PairUpTo g) (es.zip ws) (es.zip ws') := by
  induction h generalizing es with
  | nil => simp
  | cons hw _ ih =>
    cases es with
    | nil => exact .nil
    | cons e es => exact .cons ⟨rfl, hw⟩ (ih es)

theorem pairs_rows (es : List (List Expr)) {rows rows' : List (List (Rendered Fragment))}
    (h : List.Forall₂ (List.Forall₂ (SameUpTo g)) rows rows') :
    List.Forall₂ (List.Forall₂ (PairUpTo g)) (List.zipWith List.zip es rows)
      (List.zipWith List.zip es rows') := by
  induction h generalizing es with
  | nil => simp
  | cons hrow _ ih =>
    cases es with
    | nil => exact .nil
    | cons row es => exact .cons (pairs_zip row hrow) (ih es)

/-- An equality of two parts that are alike. -/
theorem agree_equalityOf {l l' r r' : Expr × Rendered Fragment} (hl : PairUpTo g l l')
    (hr : PairUpTo g r r') : SameUpTo g (equalityOf l r) (equalityOf l' r') := by
  unfold equalityOf
  rw [hl.1, hr.1]
  exact (agree_operandOf _ hl.2).bind fun f f' hf => (agree_operandOf _ hr.2).bind fun k k' hk =>
    agree_ok (by simp [hf, hk])

/-- A row compared with several, place by place. -/
theorem agree_rowAlternativesOf {left left' : List (Expr × Rendered Fragment)}
    {rows rows' : List (List (Expr × Rendered Fragment))} (negated : Bool)
    (hl : List.Forall₂ (PairUpTo g) left left')
    (hr : List.Forall₂ (List.Forall₂ (PairUpTo g)) rows rows') :
    SameUpTo g (rowAlternativesOf left rows negated) (rowAlternativesOf left' rows' negated) := by
  have equalities : ∀ row row', List.Forall₂ (PairUpTo g) row row' →
      List.Forall₂ (SameUpTo g) (left.zipWith equalityOf row) (left'.zipWith equalityOf row') := by
    intro row row' h
    -- on the row on the left, which is written again for each of the others
    induction hl generalizing row row' with
    | nil => exact .nil
    | cons hp _ ih =>
      cases h with
      | nil => exact .nil
      | cons hq hrest => exact .cons (agree_equalityOf hp hq) (ih _ _ hrest)
  refine Agree.bind (φ := List.map (mapValues g)) (agree_allOk ?_) fun fs fs' hfs => agree_ok ?_
  · rw [List.forall₂_map_left_iff, List.forall₂_map_right_iff]
    exact hr.imp fun row row' h => (agree_allOk (equalities row row' h)).map fun fs fs' hfs => by
      simp [hfs]
  · cases negated <;> simp [hfs]

/-! ## Calls and texts -/

@[simp] theorem mapValues_callText (name : String) (args : List Fragment) :
    (callText name args).mapValues g = callText name (args.map (mapValues g)) := by
  simp [callText]

@[simp] theorem mapValues_castTo (f : Fragment) (type : String) :
    (Dialect.castTo f type).mapValues g = Dialect.castTo (f.mapValues g) type := by
  simp [Dialect.castTo]

/-- Joined texts, in the form of each dialect. -/
theorem mapValues_concatenated (d : Dialect) (fs : List Fragment) :
    (d.concatenated fs).mapValues g = d.concatenated (fs.map (mapValues g)) := by
  cases fs with
  | nil => rfl
  | cons f fs => cases d <;> simp [Dialect.concatenated]

/-- Texts of a group, in the form of each dialect. -/
theorem mapValues_aggregated (d : Dialect) (f : Fragment) :
    (d.aggregated f).mapValues g = d.aggregated (f.mapValues g) := by
  cases d <;> simp [Dialect.aggregated]

/-! ## JSON -/

/-- A part of a document. What is bound for the path is the same on both sides. -/
theorem agree_jsonPartOf (e : Expr) (path : JsonPath) (asText : Bool) (h : SameUpTo g w w') :
    SameUpTo g (jsonPartOf d e w path asText) (jsonPartOf d e w' path asText) := by
  unfold jsonPartOf
  cases d with
  | sqlite => exact h.bind fun f f' hf => agree_ok (by simp [hf])
  | mysql => exact h.bind fun f f' hf => agree_ok (by cases asText <;> simp [hf])
  | mssql => exact h.bind fun f f' hf => agree_ok (by simp [hf])
  | postgres =>
    cases path with
    | text s => exact .refl _
    | keys first rest =>
      exact (agree_operandOf e h).bind fun f f' hf => agree_ok (by simp [hf])

/-- A predicate on arrays. -/
theorem agree_jsonContainsSql (e : Expr) (negated : Bool) (h : SameUpTo g w w')
    (hv : SameUpTo g v v') :
    SameUpTo g (jsonContainsSql d e w v negated) (jsonContainsSql d e w' v' negated) := by
  unfold jsonContainsSql
  cases d with
  | mysql => exact h.bind fun f f' hf => hv.bind fun a a' ha => agree_ok (by simp [hf, ha])
  | postgres =>
    exact (agree_operandOf e h).bind fun f f' hf => hv.bind fun a a' ha =>
      agree_ok (by simp [hf, ha])
  | sqlite | mssql => exact .refl _

/-- The end of an array. -/
theorem agree_jsonEdgeSql (e : Expr) (edge : ArrayEdge) (negated : Bool) (h : SameUpTo g w w')
    (hv : SameUpTo g v v') :
    SameUpTo g (jsonEdgeSql d e w v edge negated) (jsonEdgeSql d e w' v' edge negated) := by
  unfold jsonEdgeSql
  cases d with
  | sqlite | postgres =>
    exact (agree_operandOf e h).bind fun f f' hf => hv.bind fun a a' ha =>
      agree_ok (by simp [hf, ha])
  | mysql =>
    refine h.bind fun f f' hf => hv.bind fun a a' ha => agree_ok ?_
    cases edge <;> simp [hf, ha]
  | mssql => exact .refl _

/-- A test of the type. What is bound for its names is the same on both sides. -/
theorem agree_jsonTypeSql (type : JsonType) (h : SameUpTo g w w') :
    SameUpTo g (jsonTypeSql d w type) (jsonTypeSql d w' type) := by
  unfold jsonTypeSql
  split
  · exact .refl _
  · refine h.bind fun f f' hf => ?_
    dsimp only
    split <;> exact agree_ok (by simp [hf])

/-! ## Full-text search -/

/-- The columns of a search. -/
theorem agree_searchedColumns (es : List Expr) (h : List.Forall₂ (SameUpTo g) ws ws') :
    SameUpTo g (searchedColumns d es ws) (searchedColumns d es ws') := by
  unfold searchedColumns
  cases d with
  | postgres =>
    refine (agree_allOk h).bind fun fs fs' hfs => ?_
    -- one column is taken as it is, and several are joined
    rcases fs with _ | ⟨f, _ | ⟨f₂, fs⟩⟩ <;> rcases fs' with _ | ⟨f', _ | ⟨f₂', fs'⟩⟩ <;>
      simp only [List.map_cons, List.map_nil, List.cons.injEq, reduceCtorEq, and_false,
        and_true] at hfs
    · exact .refl _
    · exact agree_ok (by simp [hfs])
    · exact agree_after fun _ => agree_ok (by simp [hfs])
  | sqlite | mysql | mssql => exact .refl _

/-- A match, which lays out the columns of a search and anything else as one column. -/
theorem agree_matchSql (e : Expr) (negated : Bool) (h : SameUpTo g w w')
    (hs : List.Forall₂ (SameUpTo g) ws ws') (hv : SameUpTo g v v') :
    SameUpTo g (matchSql d e w ws v negated) (matchSql d e w' ws' v' negated) := by
  have columns : EachUpTo g
      (textsOf (if e.isTextSearch then e.parts else [e])
        (if e.isTextSearch then ws else [w]))
      (textsOf (if e.isTextSearch then e.parts else [e])
        (if e.isTextSearch then ws' else [w'])) := by
    split
    · exact agree_textsOf _ hs
    · exact agree_textsOf [e] (.cons h .nil)
  unfold matchSql
  cases d with
  | sqlite => exact .refl _
  | mysql =>
    exact columns.bind fun fs fs' hfs => hv.bind fun a a' ha => agree_ok (by simp [hfs, ha])
  | postgres => exact h.bind fun f f' hf => hv.bind fun a a' ha => agree_ok (by simp [hf, ha])
  | mssql =>
    refine columns.bind fun fs fs' hfs => hv.bind fun a a' ha => agree_ok ?_
    -- one column stands without parentheses
    rcases fs with _ | ⟨f, _ | ⟨f₂, fs⟩⟩ <;> rcases fs' with _ | ⟨f', _ | ⟨f₂', fs'⟩⟩ <;>
      simp_all

/-! ## Windows and raw fragments -/

@[simp] theorem map_mapValues_listClause (word : String) (fs : List Fragment) :
    (listClause word fs).map (mapValues g) = listClause word (fs.map (mapValues g)) := by
  cases fs <;> simp [listClause]

/-- The two clauses of a window. -/
theorem mapValues_windowText (partition order : List Fragment) :
    (windowText partition order).mapValues g =
      windowText (partition.map (mapValues g)) (order.map (mapValues g)) := by
  simp [windowText]

/-- One named expression beside two outcomes of writing that are alike. -/
def NamedUpTo (g : Value → Value) (b c : Name × Expr × Rendered Fragment) : Prop :=
  b.1 = c.1 ∧ PairUpTo g b.2 c.2

variable {bs bs' : List (Name × Expr × Rendered Fragment)}

/-- A mark stands for the same named expression. -/
theorem boundTo_upTo (h : List.Forall₂ (NamedUpTo g) bs bs') (name : List Char) :
    boundTo name bs = none ∧ boundTo name bs' = none ∨
      ∃ p q, boundTo name bs = some p ∧ boundTo name bs' = some q ∧ PairUpTo g p q := by
  induction h with
  | nil => exact .inl ⟨rfl, rfl⟩
  | @cons b c _ _ hb _ ih =>
    unfold boundTo at ih ⊢
    rw [List.find?_cons, List.find?_cons, hb.1]
    cases c.1.same (.word (String.ofList name)) with
    | true => exact .inr ⟨_, _, rfl, rfl, hb.2⟩
    | false => exact ih

/-- A template is filled alike with bindings that are alike. -/
theorem agree_fillTemplate (template : String) (h : List.Forall₂ (NamedUpTo g) bs bs')
    (parts : List Template.Part) :
    SameUpTo g (fillTemplate template bs parts) (fillTemplate template bs' parts) := by
  induction parts with
  | nil => exact .refl _
  | cons part rest ih =>
    cases part with
    | text cs => exact ih.bind fun f f' hf => agree_ok (by simp [hf])
    | mark name =>
      unfold fillTemplate
      -- a name is bound on both sides or on neither, and to the same expression
      rcases boundTo_upTo h name with ⟨hn, hn'⟩ | ⟨p, q, hp, hq, he, hw⟩
      · rw [hn, hn']
        exact .refl _
      · rw [hp, hq]
        refine hw.bind fun f f' hf => ih.bind fun k k' hk => agree_ok ?_
        rw [he]
        split <;> simp [hf, hk]

/-- What fills a template is the same list of expressions. -/
theorem fillings_upTo (h : List.Forall₂ (NamedUpTo g) bs bs') (parts : List Template.Part) :
    fillings bs parts = fillings bs' parts := by
  induction parts with
  | nil => rfl
  | cons part rest ih =>
    cases part with
    | text cs => exact ih
    | mark name =>
      rw [fillings, fillings, ih]
      rcases boundTo_upTo h name with ⟨hn, hn'⟩ | ⟨p, q, hp, hq, he, -⟩
      · rw [hn, hn']
      · rw [hp, hq, Option.toList_some, Option.toList_some, List.map_singleton,
          List.map_singleton, he]

/-- A raw text. -/
theorem agree_rawText (sql : Data) (aliasName : Name) (template : Bool)
    (h : List.Forall₂ (NamedUpTo g) bs bs') :
    SameUpTo g (rawText sql aliasName template bs) (rawText sql aliasName template bs') := by
  unfold rawText
  split
  · exact .refl _
  · refine agree_after fun cs => ?_
    cases template with
    | false => exact .refl _
    | true =>
      refine (agree_fillTemplate _ h _).bind fun f f' hf => ?_
      rw [fillings_upTo h]
      exact agree_after fun _ => agree_ok hf

/-! ## Order and number of rows -/

/-- The clauses that order and count rows. -/
theorem agree_rowClauses (source : Option Source) (items : List SelectItem) (distinct : Bool)
    {order order' : List Fragment} (h : order.map (mapValues g) = order'.map (mapValues g))
    (limit offset : Option Nat) :
    EachUpTo g (rowClauses d source items distinct order limit offset)
      (rowClauses d source items distinct order' limit offset) := by
  have clause : (listClause "ORDER BY" order).map (mapValues g) =
      (listClause "ORDER BY" order').map (mapValues g) := by
    rw [map_mapValues_listClause, map_mapValues_listClause, h]
  -- an order by primary key is added on both sides or on none
  have hempty : (listClause "ORDER BY" order).isEmpty = (listClause "ORDER BY" order').isEmpty := by
    rw [← List.isEmpty_map (f := mapValues g), clause, List.isEmpty_map]
  unfold rowClauses
  dsimp only
  rw [hempty]
  split
  · split
    · exact .refl _
    · exact agree_ok (by rw [List.map_append, List.map_append, clause])
  · exact agree_ok (by rw [List.map_append, List.map_append, clause])

/-- The word for distinct rows holds no values. -/
theorem map_mapValues_projectionOf (distinct : Bool) (fs : List Fragment) :
    (projectionOf distinct fs).map (mapValues g) =
      projectionOf distinct (fs.map (mapValues g)) := by
  cases distinct <;> cases fs <;> simp [projectionOf]

end

end SqlScribe
