import SqlScribe.Proofs.Fits

/-!
# Layouts fit

Each way of laying out the parts of an expression gives a fragment that fits, if the parts do: its
skeleton is made of theirs in the order of the text, and each part is closed by a fixed text. The
lemmas stand in the order of the layouts that they are about.
-/

namespace SqlScribe

open Fragment (Fits Leads FitsBefore)

/-- Whether whatever is written fits a skeleton. -/
abbrev Comes (strict : Prop) (style : Style) (E : Fragment) (written : Rendered Fragment) : Prop :=
  Yields (Fits strict style E) written

section

variable {strict : Prop} {style : Style} {E E' E'' : Fragment}
  {written written' written'' : Rendered Fragment} {Es : List Fragment}
  {ws : List (Rendered Fragment)}

theorem Comes.bind {next : Fragment → Rendered Fragment} (h : Comes strict style E written)
    (hn : ∀ f, Fits strict style E f → Comes strict style E' (next f)) :
    Comes strict style E' (written >>= next) :=
  Yields.bind h hn

theorem Comes.map {next : Fragment → Fragment} (h : Comes strict style E written)
    (hn : ∀ f, Fits strict style E f → Fits strict style E' (next f)) :
    Comes strict style E' (written.map next) :=
  Yields.map h hn

/-- Skeletons that are equal are fitted by the same texts. -/
theorem Comes.of_eq (h : Comes strict style E written) (he : E = E') :
    Comes strict style E' written := he ▸ h

/-- Where a proof is not strict, only the skeleton counts. -/
theorem comes_of_skeleton (hs : ¬strict) (h : Yields (fun f => f.skeleton = E) written) :
    Comes strict style E written :=
  h.mono fun _ hf => ⟨hf, fun h => absurd h hs⟩

theorem comes_ok {f : Fragment} (h : Fits strict style E f) : Comes strict style E (.ok f) :=
  yields_ok h

theorem comes_error {e : RenderError} : Comes strict style E (.error e) := yields_error

/-- A list of what is written, each part with its skeleton. -/
theorem bind_allOk {next : List Fragment → Rendered Fragment}
    (h : List.Forall₂ (Comes strict style) Es ws)
    (hn : ∀ fs, List.Forall₂ (Fits strict style) Es fs → Comes strict style E (next fs)) :
    Comes strict style E (allOk ws >>= next) :=
  (yields_allOk h).bind hn

/-- The texts of parts, each of which fits its own skeleton. -/
theorem bind_textsOf {next : List Fragment → Rendered Fragment} {es : List Expr}
    (h : List.Forall₂ (Comes strict style) Es ws)
    (hn : ∀ fs, List.Forall₂ (Fits strict style) Es fs → Comes strict style E (next fs)) :
    Comes strict style E (textsOf es ws >>= next) :=
  (yields_textsOf es h).bind hn

/-- Clauses that follow one another. -/
theorem bind_clauses {next : List Fragment → Rendered (List Fragment)}
    {clauses : Rendered (List Fragment)} (h : Yields (ClausesFit strict style E) clauses)
    (hn : ∀ fs, ClausesFit strict style E fs → Yields (ClausesFit strict style E') (next fs)) :
    Yields (ClausesFit strict style E') (clauses >>= next) :=
  Yields.bind h hn

/-! ## Names -/

/-- A name binds nothing. -/
theorem comes_nameOf (n : Name) : Comes strict style .empty (nameOf n) := by
  unfold nameOf
  split
  · exact yields_ok (fits_name _)
  · exact yields_error

/-- Parts that bind nothing bind nothing together. -/
theorem fits_join_empty {α : Type} {separator : String} (hs : isLink separator = true)
    {as : List α} {fs : List Fragment}
    (h : List.Forall₂ (Fits strict style) (as.map fun _ => .empty) fs) :
    Fits strict style .empty (.join separator fs) :=
  (fits_join hs h).of_eq (Fragment.concat_empties as)

/-- Neither does any of a list of names, in whatever way each is written. -/
theorem yields_names {α : Type} (as : List α) (g : α → Rendered Fragment)
    (h : ∀ a ∈ as, Comes strict style .empty (g a)) :
    Yields (List.Forall₂ (Fits strict style) (as.map fun _ => .empty)) (allOk (as.map g)) := by
  refine yields_allOk ?_
  rw [List.forall₂_map_left_iff, List.forall₂_map_right_iff, List.forall₂_same]
  exact h

theorem bind_names {α : Type} {as : List α} {g : α → Rendered Fragment}
    {next : List Fragment → Rendered Fragment} (h : ∀ a ∈ as, Comes strict style .empty (g a))
    (hn : ∀ fs, List.Forall₂ (Fits strict style) (as.map fun _ => .empty) fs →
      Comes strict style E (next fs)) :
    Comes strict style E (allOk (as.map g) >>= next) :=
  (yields_names as g h).bind hn

theorem comes_namesOf (names : List Name) : Comes strict style .empty (namesOf names) :=
  (yields_names names nameOf fun n _ => comes_nameOf n).map fun _ h =>
    fits_join_empty (by decide) h

theorem comes_nameIn (qualifier name : Name) : Comes strict style .empty (nameIn qualifier name) :=
  (comes_nameOf qualifier).bind fun _ hq => (comes_nameOf name).bind fun _ hn =>
    yields_ok ((hq.link (by decide)).append hn)

theorem comes_qualified (qualifier name : Name) :
    Comes strict style .empty (qualified qualifier name) := by
  unfold qualified
  split
  · exact comes_nameIn qualifier name
  · exact comes_nameOf name

theorem comes_tableName (schema name : Name) :
    Comes strict style .empty (tableName schema name) := by
  refine (comes_nameOf name).bind fun n hn => ?_
  split
  · exact (comes_nameOf schema).bind fun s hs => yields_ok ((hs.link (by decide)).append hn)
  · exact yields_ok hn

/-- An alias is a name, and leaves the skeleton as it is. -/
theorem comes_aliased {f : Fragment} (hf : Fits strict style E f) (aliasName : Name) :
    Comes strict style E (aliased f aliasName) := by
  unfold aliased
  split
  · refine (comes_nameOf aliasName).bind fun n hn => yields_ok ?_
    exact ((hf.link (by decide)).append hn).of_eq (Fragment.append_empty E)
  · exact yields_ok hf

/-! ## Parentheses -/

/-- Parentheses close a part, whatever stands in them. -/
theorem comes_parens (h : Comes strict style E written) :
    Comes strict style E (written.map Fragment.parens) :=
  h.map fun _ hf => hf.parens

/-- An operand fits the skeleton of its expression, held together or not. -/
theorem comes_operandOf (e : Expr) (h : Comes strict style E written) :
    Comes strict style E (operandOf e written) := by
  unfold operandOf
  split
  · exact comes_parens h
  · exact h

/-- A constant that stands as a condition is written without looking at it, and binds nothing. -/
theorem comes_predicateOf {e : Expr}
    (h : Comes strict style ((Tree.expr e).skeleton style.dialect) written) :
    Comes strict style ((Tree.expr e).skeleton style.dialect)
      (predicateOf style.dialect e written) := by
  unfold predicateOf
  split
  next value _ =>
    have he : (Tree.expr (.truth value)).skeleton style.dialect = .empty := by
      rw [Tree.skeleton_eq]
      rfl
    rw [he]
    split
    · exact comes_ok (leads_text (by decide))
    · exact comes_ok (leads_text (by decide))
  · exact h

/-- A condition fits the skeleton of its expression. -/
theorem comes_conditionOf {e : Expr}
    (h : Comes strict style ((Tree.expr e).skeleton style.dialect) written) :
    Comes strict style ((Tree.expr e).skeleton style.dialect)
      (conditionOf style.dialect e written) := by
  unfold conditionOf
  split
  · exact comes_parens (comes_predicateOf h)
  · exact comes_predicateOf h

theorem isLink_connective (op : Connective) : isLink (" " ++ op.text ++ " ") = true := by
  cases op <;> decide

/-- Conditions under a connective are written one by one. -/
theorem comes_conditionsOf (op : Connective) {es : List Expr} {g : Expr → Rendered Fragment}
    (h : ∀ e ∈ es, Comes strict style ((Tree.expr e).skeleton style.dialect) (g e)) :
    Comes strict style (.concat ((es.map Tree.expr).map (Tree.skeleton style.dialect)))
      (conditionsOf style.dialect op es (es.map g)) := by
  refine Yields.map (yields_textsOf es ?_) fun _ hfs => fits_join (isLink_connective op) hfs
  rw [List.zipWith_map_right, List.zipWith_self, List.map_map, List.forall₂_map_left_iff,
    List.forall₂_map_right_iff, List.forall₂_same]
  exact fun e he => comes_conditionOf (h e he)

/-! ## Memberships -/

/-- A membership in nothing is a constant. -/
theorem comes_emptyMembership (negated : Bool) :
    Comes strict style .empty (.ok (emptyMembership negated)) := by
  cases negated <;> exact comes_ok (leads_text (by decide))

/-- A membership binds the values of the operand, and then those of the items. -/
theorem comes_membershipOf (e : Expr) (es : List Expr) (negated : Bool)
    (h : Comes strict style E written) (hs : List.Forall₂ (Comes strict style) Es ws) :
    Comes strict style (E ++ .concat Es) (membershipOf e written es ws negated) :=
  (comes_operandOf e h).bind fun _ hl => bind_textsOf hs fun _ hfs => comes_ok <|
    (((hl.link (by decide)).text (isPlainText_keyword negated (by decide))).text (by decide)).append
      (fits_tuple hfs)

/-- A membership of a row does so as well, whatever stands in front of the list. -/
theorem comes_rowMembershipOf (negated : Bool) (h : Comes strict style E written)
    (hs : List.Forall₂ (Comes strict style) Es ws) :
    Comes strict style (E ++ .concat Es) (rowMembershipOf style.dialect written ws negated) := by
  refine h.bind fun _ hl => bind_allOk hs fun fs hfs => comes_ok ?_
  have hlist : Fits strict style (.concat Es) (.join ", " fs) := fits_join (by decide) hfs
  have hrows : Fits strict style (.concat Es)
      (if style.dialect = .sqlite then "VALUES " ++ Fragment.join ", " fs
        else Fragment.join ", " fs) := by
    split
    · exact hlist.after (by decide)
    · exact hlist
  exact (((hl.link (by decide)).text (isPlainText_keyword negated (by decide))).text
    (by decide)).append hrows.parens

/-- An equality binds the values of its left side first. -/
theorem comes_equalityOf {left right : Expr × Rendered Fragment}
    (hl : Comes strict style E left.2) (hr : Comes strict style E' right.2) :
    Comes strict style (E ++ E') (equalityOf left right) :=
  (comes_operandOf left.1 hl).bind fun _ hl => (comes_operandOf right.1 hr).bind fun _ hr =>
    comes_ok ((hl.link (by decide)).append hr)

/-- Two rows place by place: the values of the two sides alternate. -/
theorem comes_equalities (S : Expr → Fragment) (g : Expr → Rendered Fragment)
    {left row : List Expr} (hl : ∀ e ∈ left, Comes strict style (S e) (g e))
    (hr : ∀ e ∈ row, Comes strict style (S e) (g e)) :
    List.Forall₂ (Comes strict style) (left.zipWith (fun l r => S l ++ S r) row)
      ((left.map fun e => (e, g e)).zipWith equalityOf (row.map fun e => (e, g e))) := by
  -- on the row on the left; the other one may be shorter, and then both stop
  induction left generalizing row with
  | nil => exact .nil
  | cons l left ih =>
    cases row with
    | nil => exact .nil
    | cons r row =>
      rw [List.forall_mem_cons] at hl hr
      exact .cons (comes_equalityOf hl.1 hr.1) (ih hl.2 hr.2)

/-- The values of a comparison of rows item by item. -/
theorem concat_pairs (S : Expr → Fragment) (left row : List Expr) :
    Fragment.concat (left.zipWith (fun l r => S l ++ S r) row) =
      Fragment.concat ((left.zip row).flatMap fun p => [S p.1, S p.2]) := by
  induction left generalizing row with
  | nil => rfl
  | cons l left ih =>
    cases row with
    | nil => rfl
    | cons r row => simp [ih, Fragment.append_assoc]

/-- A row compared with several: its own values are bound once more for each of them. -/
theorem comes_rowAlternativesOf (S : Expr → Fragment) (g : Expr → Rendered Fragment)
    {left : List Expr} {rows : List (List Expr)} (negated : Bool)
    (hl : ∀ e ∈ left, Comes strict style (S e) (g e))
    (hr : ∀ row ∈ rows, ∀ e ∈ row, Comes strict style (S e) (g e)) :
    Comes strict style
      (.concat (rows.flatMap fun row => (left.zip row).flatMap fun p => [S p.1, S p.2]))
      (rowAlternativesOf (left.map fun e => (e, g e))
        (rows.map fun row => row.map fun e => (e, g e)) negated) := by
  have each : List.Forall₂ (Comes strict style)
      (rows.map fun row => Fragment.concat (left.zipWith (fun l r => S l ++ S r) row))
      ((rows.map fun row => row.map fun e => (e, g e)).map fun row =>
        (allOk ((left.map fun e => (e, g e)).zipWith equalityOf row)).map fun pairs =>
          Fragment.parens (Fragment.join " AND " pairs)) := by
    rw [List.map_map, List.forall₂_map_left_iff, List.forall₂_map_right_iff, List.forall₂_same]
    intro row hrow
    exact (yields_allOk (comes_equalities S g hl (hr row hrow))).map fun fs hfs =>
      FitsBefore.parens (fits_join (by decide) hfs)
  -- place by place inside of row by row is one list of pairs
  have values : Fragment.concat
        (rows.map fun row => Fragment.concat (left.zipWith (fun l r => S l ++ S r) row)) =
      .concat (rows.flatMap fun row => (left.zip row).flatMap fun p => [S p.1, S p.2]) := by
    rw [List.flatMap_def, Fragment.concat_flatten, List.map_map]
    exact congrArg Fragment.concat (List.map_congr_left fun row _ => concat_pairs S left row)
  refine (bind_allOk each fun fs hfs => ?_).of_eq values
  have hall : Fits strict style _ (Fragment.parens (Fragment.join " OR " fs)) :=
    FitsBefore.parens (fits_join (by decide) hfs)
  cases negated with
  | true => exact comes_ok (hall.after (by decide))
  | false => exact comes_ok (hall.after (by decide))

/-! ## Calls and texts -/

/-- Texts that are joined, by an operator or by a call. -/
theorem fits_concatenated {fs : List Fragment} (h : List.Forall₂ (Fits strict style) Es fs) :
    Fits strict style (.concat Es) (style.dialect.concatenated fs) := by
  cases h with
  | nil => exact fits_literal [] (by decide) (by decide)
  | cons hf hfs =>
    have h := List.Forall₂.cons hf hfs
    cases style.dialect with
    | mysql => exact fits_callText (by decide) h
    | mssql => exact FitsBefore.parens (fits_join (by decide) h)
    | sqlite | postgres => exact FitsBefore.parens (fits_join (by decide) h)

/-- Texts of a group, with the separator as a literal of the text. -/
theorem fits_aggregated {f : Fragment} (hf : Fits strict style E f) :
    Fits strict style E (style.dialect.aggregated f) := by
  have comma : Fits strict style .empty (.ofText "','") :=
    fits_literal [','] (by decide) (by decide)
  have last : Fragment.concat [E, .empty] = E := by simp
  unfold Dialect.aggregated
  split
  · exact fits_call (by decide) hf
  · exact fits_call (by decide) hf
  · exact (fits_callText (by decide)
      (.cons (fits_castTo (by decide) hf) (.cons comma .nil))).of_eq last
  · exact (fits_callText (by decide) (.cons hf (.cons comma .nil))).of_eq last

/-- The names of types hold nothing that the reader of places stops at. -/
theorem isPlainText_castTarget (d : Dialect) (type : LogicalType) :
    isPlainText (d.castTarget type) = true := by
  cases d <;> cases type <;> decide

/-! ## JSON -/

/-- The keys of a path on PostgreSQL, each one bound. -/
theorem fits_keyArray (hd : style.dialect = .postgres) (keys : List String) :
    Fits strict style (boundTexts keys) (keyArray keys) := by
  have opening : Leads strict style .empty "ARRAY[" := leads_calm (by rw [hd]; decide)
  have inner : Fits strict style (boundTexts keys) (.join ", " (keys.map boundText)) :=
    fits_join (by decide) (fits_boundTexts keys)
  exact (opening.append inner).linkIn (by rw [hd]; decide)

/-- A part of a document: the path is one value, except on PostgreSQL, where each key is. -/
theorem comes_jsonPartOf (e : Expr) (path : JsonPath) (asText : Bool)
    (h : Comes strict style E written) :
    Comes strict style (Tree.pathFrame style.dialect path E)
      (jsonPartOf style.dialect e written path asText) := by
  have called : ∀ name f, isPlainText name = true → Fits strict style E f →
      Fits strict style (E ++ boundText path.written)
        (callText name [f, boundText path.written]) := by
    intro name f hn hf
    refine (fits_callText hn (.cons hf (.cons (fits_boundText _) .nil))).of_eq
      (Fragment.concat_two _ _)
  unfold jsonPartOf Tree.pathFrame
  -- three dialects bind the path behind the document
  cases hd : style.dialect with
  | sqlite => exact h.bind fun f hf => comes_ok (called _ f (by decide) hf)
  | mysql =>
    refine h.bind fun f hf => ?_
    have hpart := called "JSON_EXTRACT" f (by decide) hf
    cases asText with
    | true => exact comes_ok (fits_call (by decide) hpart)
    | false => exact comes_ok hpart
  | mssql =>
    refine h.bind fun f hf => comes_ok (called _ f ?_ hf)
    cases asText <;> decide
  | postgres =>
    cases path with
    | text s => exact comes_error
    | keys first rest =>
      -- the keys are bound before the document, so the numbers have to tell the places apart
      refine (comes_operandOf e h).bind fun f hf => comes_ok (FitsBefore.parens ?_)
      have hn : style.dialect.hasNumbers = true := by rw [hd]; rfl
      refine FitsBefore.cross hn ?_ (fits_keyArray hd _)
      cases asText with
      | true => exact hf.link (by decide)
      | false => exact hf.link (by decide)

/-- A predicate on arrays binds the values of the document first. -/
theorem comes_jsonContainsSql (e : Expr) (negated : Bool) (h : Comes strict style E written)
    (h' : Comes strict style E' written') :
    Comes strict style (E ++ E')
      (jsonContainsSql style.dialect e written written' negated) := by
  unfold jsonContainsSql
  cases hd : style.dialect with
  | sqlite | mssql => exact comes_error
  | mysql =>
    refine h.bind fun f hf => h'.bind fun g hg => comes_ok (fits_negatedIf negated ?_)
    refine (fits_callText (by decide) (.cons hf (.cons hg .nil))).of_eq
      (Fragment.concat_two _ _)
  | postgres =>
    refine (comes_operandOf e h).bind fun f hf => h'.bind fun g hg =>
      comes_ok (fits_negatedIf negated ?_)
    exact (hf.linkIn (by rw [hd]; decide)).append hg

/-- The end of an array: the place in it is a literal of the text and binds nothing. -/
theorem comes_jsonEdgeSql (e : Expr) (edge : ArrayEdge) (negated : Bool)
    (h : Comes strict style E written) (h' : Comes strict style E' written') :
    Comes strict style (E ++ E')
      (jsonEdgeSql style.dialect e written written' edge negated) := by
  unfold jsonEdgeSql
  cases style.dialect with
  | mssql => exact comes_error
  | sqlite =>
    refine (comes_operandOf e h).bind fun f hf => h'.bind fun g hg =>
      comes_ok (fits_negatedIf negated ?_)
    have key : ∀ path : String, Fits strict style .empty path →
        Fits strict style (E ++ E') (f ++ " -> " ++ path ++ " = " ++ callText "json" [g]) := by
      intro path hp
      have left : Fits strict style E (f ++ " -> " ++ path) :=
        ((hf.link (by decide)).append hp).of_eq (Fragment.append_empty E)
      exact (left.link (by decide)).append (fits_call (by decide) hg)
    cases edge with
    | first => exact key _ (fits_literal "$[0]".toList (by decide) (by decide))
    | last => exact key _ (fits_literal "$[#-1]".toList (by decide) (by decide))
  | mysql =>
    refine h.bind fun f hf => h'.bind fun g hg => comes_ok (fits_negatedIf negated ?_)
    have key : ∀ path : String, Fits strict style .empty path → Fits strict style (E ++ E')
        (callText "JSON_EXTRACT" [f, path] ++ " = " ++ Dialect.castTo g "JSON") := by
      intro path hp
      have left : Fits strict style E (callText "JSON_EXTRACT" [f, path]) :=
        (fits_callText (by decide) (.cons hf (.cons hp .nil))).of_eq (by simp)
      exact (left.link (by decide)).append (fits_castTo (by decide) hg)
    cases edge with
    | first => exact key _ (fits_literal "$[0]".toList (by decide) (by decide))
    | last => exact key _ (fits_literal "$[last]".toList (by decide) (by decide))
  | postgres =>
    refine (comes_operandOf e h).bind fun f hf => h'.bind fun g hg =>
      comes_ok (fits_negatedIf negated ?_)
    have key : ∀ index : String, isPlainText index = true →
        Fits strict style (E ++ E') (f ++ "->" ++ index ++ " = " ++ g) := fun index hi =>
      (((hf.link (by decide)).text hi).text (by decide)).append hg
    cases edge <;> exact key _ (by decide)

/-- A test of the type binds the names that the dialect has for it, one or several. -/
theorem comes_jsonTypeSql (type : JsonType) (h : Comes strict style E written) :
    Comes strict style (E ++ boundTexts (style.dialect.jsonTypeNames type))
      (jsonTypeSql style.dialect written type) := by
  have function : ∀ name, style.dialect.jsonTypeFunction? = some name →
      isPlainText name = true := by
    intro name hn
    cases hd : style.dialect <;> rw [hd] at hn <;> cases hn <;> decide
  unfold jsonTypeSql
  cases hf : style.dialect.jsonTypeFunction? with
  | none => exact comes_error
  | some name =>
    refine h.bind fun f hd => ?_
    have call : Leads strict style E (callText name [f]) := fits_call (function name hf) hd
    -- one name is compared, and several are listed
    split
    next type' hn =>
      refine comes_ok (((call.text (by decide)).append (fits_boundText type')).of_eq ?_)
      simp [hn, boundTexts]
    next names hn =>
      exact comes_ok ((call.text (by decide)).append (fits_tuple (fits_boundTexts _)))

/-! ## Full-text search -/

/-- The columns of a search bind what they hold, in their order. -/
theorem comes_searchedColumns (es : List Expr) (hs : List.Forall₂ (Comes strict style) Es ws) :
    Comes strict style (.concat Es) (searchedColumns style.dialect es ws) := by
  unfold searchedColumns
  split
  · refine bind_allOk hs fun fs hfs => ?_
    split
    · exact comes_ok (fits_callText (by decide) hfs)
    · have blank : Fits strict style .empty (.ofText "' '") :=
        fits_literal [' '] (by decide) (by decide)
      refine yields_after fun _ => comes_ok ?_
      have inner : Fits strict style (.concat Es) (callText "concat_ws" ("' '" :: fs)) :=
        (fits_callText (by decide) (.cons blank hfs)).of_eq (Fragment.empty_append _)
      exact fits_call (by decide) inner
  · exact comes_error

/-- The columns stand by themselves or inside a search, which has their skeleton. -/
theorem comes_matchSql (e : Expr) (negated : Bool) (h : Comes strict style E written)
    (hs : e.isTextSearch = true →
      ∃ Es, Fragment.concat Es = E ∧ List.Forall₂ (Comes strict style) Es ws)
    (h' : Comes strict style E' written') :
    Comes strict style (E ++ E') (matchSql style.dialect e written ws written' negated) := by
  have columns : ∃ Es, Fragment.concat Es = E ∧
      List.Forall₂ (Comes strict style) Es (if e.isTextSearch then ws else [written]) := by
    split
    next ht => exact hs ht
    · exact ⟨[E], Fragment.concat_one _, .cons h .nil⟩
  -- a search is laid out by its columns, anything else as the only column
  obtain ⟨Es', rfl, hcolumns⟩ := columns
  unfold matchSql
  cases hd : style.dialect with
  | sqlite => exact comes_error
  | mysql =>
    refine bind_textsOf hcolumns fun fs hfs => h'.bind fun q hq =>
      comes_ok (fits_negatedIf negated ?_)
    exact (((FitsBefore.after (fits_tuple hfs) (by decide)).text (by decide)).append hq).link
      (by decide)
  | postgres =>
    refine h.bind fun f hf => h'.bind fun q hq => comes_ok (fits_negatedIf negated ?_)
    exact (hf.linkIn (by rw [hd]; decide)).append (fits_call (by decide) hq)
  | mssql =>
    refine bind_textsOf hcolumns fun fs hfs => h'.bind fun q hq =>
      comes_ok (fits_negatedIf negated ?_)
    have key : ∀ f, Fits strict style (.concat Es') f →
        Fits strict style (.concat Es' ++ E') (callText "CONTAINS" [f, q]) := fun f hf =>
      (fits_callText (by decide) (.cons hf (.cons hq .nil))).of_eq (by simp)
    -- a single column stands without parentheses
    cases hfs with
    | nil => exact key _ (fits_tuple .nil)
    | cons hf hrest =>
      cases hrest with
      | nil => exact key _ (hf.of_eq (Fragment.append_empty _).symm)
      | cons hg hrest => exact key _ (fits_tuple (.cons hf (.cons hg hrest)))

/-- A row as a document is made of a name. -/
theorem comes_rowToJsonSql (table : Name) (pretty : Bool) :
    Comes strict style .empty (rowToJsonSql style.dialect table pretty) := by
  unfold rowToJsonSql
  split
  · refine (comes_nameOf table).map fun n hn => ?_
    cases pretty with
    | true =>
      have both := List.Forall₂.cons hn (.cons (leads_text (s := "true") (by decide)) .nil)
      exact (fits_callText (by decide) both).of_eq rfl
    | false => exact fits_call (by decide) hn
  · exact comes_error

/-! ## Windows -/

/-- The parts of a window bind their values in the order of its two clauses. -/
theorem fits_windowText {Es Es' fs gs : List Fragment}
    (hf : List.Forall₂ (Fits strict style) Es fs) (hg : List.Forall₂ (Fits strict style) Es' gs) :
    Fits strict style (.concat (Es ++ Es')) (windowText fs gs) :=
  (((ClausesFit.listClause (by decide) hf).append (ClausesFit.listClause (by decide) hg)).of_eq
    (Fragment.concat_append Es Es').symm).join (by decide)

/-- An absent window binds nothing, and all else in its place is an error. -/
theorem comes_missingWindow (given : Expr) : Comes strict style .empty (missingWindow given) := by
  unfold missingWindow
  split
  · exact comes_ok fits_empty
  · split
    · exact comes_error
    · exact comes_ok fits_empty
  · exact comes_error

end

/-! ## Raw fragments -/

section

variable {style : Style} {d : Dialect}

/-- The text of a raw fragment, if it is one and its alias is a text or false. -/
theorem rawChars_eq {sql : Data} {aliasName : Name} {s : String} (hsql : sql.asText? = some s)
    (halias : aliasName.isTrue = true → ∃ a, aliasName.asText? = some a) :
    rawChars sql aliasName = .ok (Template.withAlias aliasName.asText? s) := by
  unfold rawChars
  rw [hsql]
  refine if_neg fun h => ?_
  rw [Bool.and_eq_true] at h
  obtain ⟨a, ha⟩ := halias h.1
  simp [ha] at h

/-- What stands for a mark, and what is written for it. -/
theorem boundTo_map (g : Expr → Rendered Fragment) (bindings : List (Name × Expr))
    (name : List Char) :
    boundTo name (bindings.map fun b => (b.1, b.2, g b.2)) =
      (bindingOf bindings name).map fun e => (e, g e) := by
  unfold boundTo bindingOf
  rw [List.find?_map, Option.map_map, Option.map_map]
  rfl

/-- A raw fragment that leaves nothing in a template writes no expressions. -/
theorem skeleton_of_isBlank {e : Expr} (h : e.isBlank = true) :
    (Tree.expr e).skeleton d = .empty := by
  unfold Expr.isBlank Expr.bare? at h
  split at h
  next sql aliasName template bindings =>
    split at h
    · cases h
    next hb =>
      simp only [Bool.or_eq_true, not_or, Bool.not_eq_true] at hb
      rw [Tree.skeleton_eq]
      simp [Tree.written, Tree.branches, Expr.branches, rawParts, hb.1.2, Tree.frame]
  · cases h

/-- A filled template binds the values of what it marks, once for each mark. -/
theorem yields_fillTemplate (template : String) (bindings : List (Name × Expr))
    (g : Expr → Rendered Fragment) (parts : List Template.Part)
    (h : ∀ e ∈ markedBy bindings parts,
      Yields (fun f => f.skeleton = (Tree.expr e).skeleton d) (g e)) :
    Yields (fun f => f.skeleton =
        .concat (((markedBy bindings parts).map Tree.expr).map (Tree.skeleton d)))
      (fillTemplate template (bindings.map fun b => (b.1, b.2, g b.2)) parts) := by
  -- on the parts of the template; the text between two marks binds nothing
  induction parts with
  | nil => exact yields_ok rfl
  | cons part rest ih =>
    cases part with
    | text cs => exact (ih h).bind fun f hf => yields_ok hf
    | mark name =>
      unfold fillTemplate
      rw [boundTo_map]
      cases hb : bindingOf bindings name with
      | none => exact yields_error
      | some e =>
        simp only [markedBy, hb, Option.toList_some, List.singleton_append, List.mem_cons,
          forall_eq_or_imp] at h ⊢
        refine h.1.bind fun f hf => (ih h.2).bind fun f' hf' => yields_ok ?_
        -- an absent expression is left out of the text, and it binds nothing anyway
        have hblank : (if e.isBlank then Fragment.empty else f).skeleton =
            (Tree.expr e).skeleton d := by
          split
          next hb => exact (skeleton_of_isBlank hb).symm
          · exact hf
        rw [Fragment.skeleton_append, hblank, hf', List.map_cons, List.map_cons,
          Fragment.concat_cons]

/-- A raw text binds values only as a template. -/
theorem yields_rawText (sql : Data) (aliasName : Name) (template : Bool)
    (bindings : List (Name × Expr)) (g : Expr → Rendered Fragment)
    (h : ∀ e ∈ rawParts sql aliasName template bindings,
      Yields (fun f => f.skeleton = (Tree.expr e).skeleton d) (g e)) :
    Yields (fun f => f.skeleton = .concat
        (((rawParts sql aliasName template bindings).map Tree.expr).map (Tree.skeleton d)))
      (rawText sql aliasName template (bindings.map fun b => (b.1, b.2, g b.2))) := by
  unfold rawText
  cases template with
  | false =>
    split
    · exact yields_ok rfl
    · exact yields_after fun cs => yields_ok rfl
  | true =>
    rw [Bool.not_true, Bool.and_false, if_neg Bool.false_ne_true]
    unfold rawParts at h ⊢
    rw [Bool.not_true, if_neg Bool.false_ne_true] at h ⊢
    cases hc : rawChars sql aliasName with
    | error e => exact yields_error
    | ok cs =>
      rw [hc] at h
      exact (yields_fillTemplate sql.plain bindings g _ h).bind fun f hf =>
        yields_after fun _ => yields_ok hf

end

end SqlScribe
