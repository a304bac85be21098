import SqlScribe.Proofs.Layout

/-!
# The walk over a tree

Whatever is written for a tree fits the skeleton of the tree, in every dialect. The proof is by
induction over trees: each node is laid out from what is written for its branches, so the lemmas on
layouts apply. A window and the items of a row are not written where they stand but by the node
above them, so the induction carries what is written for them there too.
-/

namespace SqlScribe

open Fragment (Fits Leads FitsBefore)

/-- What is written for a tree. -/
def Tree.render (d : Dialect) : Tree → Rendered Fragment
  | .expr e => e.render d
  | .select s => s.render d

/-- Whether a tree is a raw fragment at its root. -/
def Tree.isRaw : Tree → Bool
  | .expr (.raw ..) => true
  | _ => false

/-- Whether whatever is written for a tree fits its skeleton. -/
abbrev Walks (strict : Prop) (style : Style) (t : Tree) : Prop :=
  Comes strict style (t.skeleton style.dialect) (t.render style.dialect)

section

variable {strict : Prop} {style : Style} {E E' : Fragment}

/-! ## Order and number of rows -/

theorem fits_numberClause {before after : String} (n : Nat) (hb : isPlainText before = true)
    (ha : isPlainText after = true) : Fits strict style .empty (numberClause before n after) :=
  leads_text (isPlainText_append (isPlainText_append hb (isPlainText_natText n)) ha)

theorem comes_orderByKey (source : Option Source) (items : List SelectItem) (distinct : Bool) :
    Comes strict style .empty (orderByKey source items distinct) := by
  unfold orderByKey
  split
  next t =>
    split
    · exact comes_error
    split
    · split <;> exact comes_error
    · refine bind_names (fun k _ => comes_nameIn t.qualifier k) fun keys hk => comes_ok ?_
      exact (fits_join_empty (by decide) hk).after (by decide)
  · exact comes_error

theorem clausesFit_limitClauses (d : Dialect) (limit offset : Option Nat) :
    ClausesFit strict style .empty (limitClauses d limit offset) := by
  have offsets : ClausesFit strict style .empty
      (offset.toList.map fun n => numberClause "OFFSET " n "") := by
    cases offset with
    | none => exact .nil
    | some n => exact .one (fits_numberClause n (by decide) (by decide))
  have endless : ClausesFit strict style .empty
      (d.endlessLimit?.toList.map fun n => Fragment.ofText ("LIMIT " ++ n)) := by
    cases d with
    | sqlite | mysql => exact .one (leads_text (by decide))
    | postgres | mssql => exact .nil
  unfold limitClauses
  split
  · exact (ClausesFit.one (fits_numberClause _ (by decide) (by decide))).append offsets
  · exact endless.append offsets
  · exact ClausesFit.nil.append offsets

/-- The clauses that take a page, behind the order of the rows. -/
def pageClauses (limit offset : Option Nat) : List Fragment :=
  numberClause "OFFSET " (offset.getD 0) " ROWS" ::
    limit.toList.map fun n => numberClause "FETCH NEXT " n " ROWS ONLY"

theorem clausesFit_pageClauses (limit offset : Option Nat) :
    ClausesFit strict style .empty (pageClauses limit offset) := by
  refine .cons (E := .empty) (fits_numberClause _ (by decide) (by decide)) ?_
  cases limit with
  | none => exact .nil
  | some n => exact .one (fits_numberClause n (by decide) (by decide))

theorem yields_rowClauses (source : Option Source) (items : List SelectItem) (distinct : Bool)
    {Es order : List Fragment} (h : List.Forall₂ (Fits strict style) Es order)
    (limit offset : Option Nat) :
    Yields (ClausesFit strict style (.concat Es))
      (rowClauses style.dialect source items distinct order limit offset) := by
  have horder : ClausesFit strict style (.concat Es) (listClause "ORDER BY" order) :=
    .listClause (by decide) h
  unfold rowClauses
  split
  · have finish : ∀ clauses, ClausesFit strict style (.concat Es) clauses →
        ClausesFit strict style (.concat Es) (clauses ++ pageClauses limit offset) := fun _ hc =>
      (hc.append (clausesFit_pageClauses limit offset)).of_eq (Fragment.append_empty _)
    dsimp only
    split
    next hempty =>
      cases h with
      | nil =>
        exact Yields.bind (P := Fits strict style .empty) (comes_orderByKey source items distinct)
          fun f hf => yields_ok (finish [f] (.one hf))
      | cons _ _ => cases hempty
    · exact yields_ok (finish _ horder)
  · exact yields_ok ((horder.append (clausesFit_limitClauses _ limit offset)).of_eq
      (Fragment.append_empty _))

/-! ## Clauses -/

theorem clausesFit_projectionOf (distinct : Bool) {Es fs : List Fragment}
    (h : List.Forall₂ (Fits strict style) Es fs) :
    ClausesFit strict style (.concat Es) (projectionOf distinct fs) := by
  have word : Fits strict style .empty (if distinct then "SELECT DISTINCT" else "SELECT") := by
    cases distinct <;> exact leads_text (by decide)
  refine (ClausesFit.cons word (.one ?_)).of_eq (Fragment.empty_append _)
  cases h with
  | nil => exact leads_text (by decide)
  | cons hf hfs => exact fits_join (by decide) (.cons hf hfs)

theorem comes_joinKeyword (kind : JoinKind) :
    Comes strict style .empty (joinKeyword style.dialect kind) := by
  unfold joinKeyword
  split
  · exact comes_error
  · have word : isPlainText kind.capitals = true := by cases kind <;> decide
    exact comes_ok (FitsBefore.text (leads_text word) (by decide))

theorem comes_starOf (table : Name) : Comes strict style .empty (starOf table) := by
  unfold starOf
  split
  · exact (comes_nameOf table).map fun n hn => hn.link (by decide)
  · exact comes_ok (leads_text (by decide))

/-! ## Expressions -/

/-- What is written for expressions one by one. -/
theorem comes_renderEach {es : List Expr} (h : ∀ e ∈ es, Walks strict style (.expr e)) :
    List.Forall₂ (Comes strict style) ((es.map Tree.expr).map (Tree.skeleton style.dialect))
      (renderEach style.dialect es) := by
  rw [renderEach_eq_map, List.map_map, List.forall₂_map_left_iff, List.forall₂_map_right_iff,
    List.forall₂_same]
  exact h

/-- The inside of a window. What is no window stands for an empty one, if for any. -/
theorem comes_renderWindow {e : Expr} (ih : ∀ b ∈ e.branches, Walks strict style b) :
    Comes strict style ((Tree.expr e).skeleton style.dialect) (e.renderWindow style.dialect) := by
  rw [Tree.skeleton_eq]
  cases e with
  | window partition order =>
    have hp : ∀ e ∈ partition, Walks strict style (.expr e) := fun e he =>
      ih _ (by simp [Expr.branches, he])
    have ho : ∀ e ∈ order, Walks strict style (.expr e) := fun e he =>
      ih _ (by simp [Expr.branches, he])
    refine Comes.of_eq (bind_textsOf (comes_renderEach hp) fun fs hfs =>
      bind_textsOf (comes_renderEach ho) fun gs hgs => comes_ok (fits_windowText hfs hgs)) ?_
    simp [Tree.frame, Tree.written, Tree.branches, Expr.branches]
  | tuple items => exact comes_missingWindow (.tuple items)
  | foreign object => exact comes_missingWindow (.foreign object)
  | _ => exact comes_error

/-- The items of a row beside what is written for them. -/
theorem zip_renderParts (d : Dialect) (e : Expr) :
    e.parts.zip (e.renderParts d) = e.parts.map fun p => (p, p.render d) := by
  rw [renderParts_eq_map]
  induction e.parts with
  | nil => rfl
  | cons p rest ih => simp [ih]

theorem zipWith_renderPartsEach (d : Dialect) (items : List Expr) :
    List.zipWith List.zip (items.map Expr.parts) (renderPartsEach d items) =
      (items.map Expr.parts).map fun row => row.map fun p => (p, p.render d) := by
  induction items with
  | nil => rfl
  | cons i rest ih => simp [renderPartsEach, zip_renderParts, ih]

/-- A membership of a row where SQL Server compares the rows item by item. -/
theorem comes_rowAlternatives {operand : Expr} {items : List Expr} (negated : Bool)
    (hl : ∀ p ∈ operand.parts, Walks strict style (.expr p))
    (hr : ∀ i ∈ items, ∀ p ∈ i.parts, Walks strict style (.expr p)) :
    Comes strict style
      (.concat ((items.flatMap fun row => (operand.parts.zip row.parts).flatMap fun p =>
        [Tree.expr p.1, .expr p.2]).map (Tree.skeleton style.dialect)))
      (rowAlternativesOf (operand.parts.zip (operand.renderParts style.dialect))
        (List.zipWith List.zip (items.map Expr.parts) (renderPartsEach style.dialect items))
        negated) := by
  rw [zip_renderParts, zipWith_renderPartsEach, List.map_flatMap]
  refine (comes_rowAlternativesOf (fun e => (Tree.expr e).skeleton style.dialect) _ negated hl
    ?_).of_eq ?_
  · intro row hrow
    obtain ⟨i, hi, rfl⟩ := List.mem_map.mp hrow
    exact hr i hi
  · rw [List.flatMap_map]
    simp [List.map_flatMap]

theorem comes_renderSelects {ss : List Select} (h : ∀ s ∈ ss, Walks strict style (.select s)) :
    List.Forall₂ (Comes strict style) ((ss.map Tree.select).map (Tree.skeleton style.dialect))
      (renderSelects style.dialect ss) := by
  rw [renderSelects_eq_map, List.map_map, List.forall₂_map_left_iff, List.forall₂_map_right_iff,
    List.forall₂_same]
  exact h

/-- A nested query. -/
theorem comes_query {q : Query} (h : ∀ s ∈ q.selects, Walks strict style (.select s)) :
    Comes strict style (.concat ((q.selects.map Tree.select).map (Tree.skeleton style.dialect)))
      (q.render style.dialect) := by
  cases q with
  | select s => exact (h s (by simp [Query.selects])).of_eq (Fragment.concat_one _).symm
  | union u =>
    obtain ⟨members, kind⟩ := u
    have hs : isLink kind.separator = true := by cases kind <;> decide
    refine Yields.map (yields_allOk ?_) fun fs hfs => fits_join hs hfs
    exact comes_renderSelects h
  | draft s | other object => exact comes_error

/-- A full-text search binds what its columns bind. -/
theorem skeleton_of_isTextSearch {d : Dialect} {e : Expr} (h : e.isTextSearch = true) :
    (Tree.expr e).skeleton d =
      .concat ((e.parts.map Tree.expr).map (Tree.skeleton d)) := by
  cases e with
  | textSearch first rest => exact Tree.skeleton_eq d _
  | _ => cases h

/-- A membership in a list. -/
theorem comes_inList {operand : Expr} {items : List Expr} {negated : Flag}
    (ho : items ≠ [] → Walks strict style (.expr operand))
    (hi : ∀ i ∈ items, Walks strict style (.expr i))
    (hl : items ≠ [] → ∀ p ∈ operand.parts, Walks strict style (.expr p))
    (hr : ∀ i ∈ items, ∀ p ∈ i.parts, Walks strict style (.expr p)) :
    Comes strict style (.concat (((Tree.expr (.inList operand items negated)).written
        style.dialect).map (Tree.skeleton style.dialect)))
      ((Expr.inList operand items negated).render style.dialect) := by
  unfold Tree.written Expr.branches
  rw [Expr.render]
  cases hitems : items.isEmpty with
  | true =>
    obtain rfl := List.isEmpty_iff.mp hitems
    simpa using comes_emptyMembership negated.isTrue
  | false =>
    have hne : items ≠ [] := by simpa using hitems
    have ho := ho hne
    simp only [Bool.false_eq_true, if_false]
    by_cases hrow : operand.isRow
    · by_cases hd : style.dialect = .mssql
      · simp only [hrow, hd, decide_true, Bool.and_self, if_true]
        rw [← hd]
        exact comes_rowAlternatives negated.isTrue (hl hne) hr
      · simp only [hitems, hrow, hd, decide_false, Bool.false_and, Bool.false_eq_true, if_false,
          if_true]
        exact comes_rowMembershipOf negated.isTrue ho (comes_renderEach hi)
    · simp only [hitems, hrow, Bool.and_false, Bool.false_eq_true, if_false]
      exact comes_membershipOf operand items negated.isTrue ho (comes_renderEach hi)

theorem walks_expr {e : Expr} (hraw : strict → (Tree.expr e).isRaw = false)
    (ih : ∀ b ∈ e.branches, Walks strict style b)
    (hwindow : ∀ b, Tree.expr b ∈ e.branches →
      Comes strict style ((Tree.expr b).skeleton style.dialect) (b.renderWindow style.dialect))
    (hparts : ∀ b, Tree.expr b ∈ e.branches → ∀ p ∈ b.parts, Walks strict style (.expr p)) :
    Walks strict style (.expr e) := by
  unfold Walks
  rw [Tree.skeleton_eq]
  cases e with
  | column table name => exact comes_qualified table name
  | star table => exact comes_starOf table
  | literal value => exact comes_ok (fits_slot value)
  | truth value =>
    refine comes_ok (leads_text ?_)
    cases style.dialect <;> cases value.isTrue <;> decide
  | not operand =>
    have h := ih (.expr operand) (by simp [Expr.branches])
    refine Comes.of_eq ?_ (Fragment.concat_one _).symm
    exact (comes_operandOf operand (comes_predicateOf h)).bind fun f hf =>
      comes_ok (hf.after (by decide))
  | isNull operand negated =>
    have h := ih (.expr operand) (by simp [Expr.branches])
    refine Comes.of_eq ?_ (Fragment.concat_one _).symm
    refine (comes_operandOf operand h).bind fun f hf => comes_ok ?_
    cases negated.isTrue with
    | true => exact hf.link (by decide)
    | false => exact hf.link (by decide)
  | binary op left right =>
    have hl := ih (.expr left) (by simp [Expr.branches])
    have hr := ih (.expr right) (by simp [Expr.branches])
    have hop : isPlainText op.text = true := by cases op <;> decide
    refine Comes.of_eq ?_ (Fragment.concat_two _ _).symm
    exact (comes_operandOf left hl).bind fun l hl => (comes_operandOf right hr).bind fun r hr =>
      comes_ok ((((hl.link (by decide)).text hop).text (by decide)).append hr)
  | logical op first rest =>
    have h : ∀ e ∈ first :: rest, Walks strict style (.expr e) := fun e he =>
      ih _ (by simpa [Expr.branches] using he)
    show Comes _ _ _ (conditionsOf style.dialect op (first :: rest)
      (renderEach style.dialect (first :: rest)))
    rw [renderEach_eq_map]
    exact comes_conditionsOf op h
  | inList operand items negated =>
    have hoperand := fun h : items ≠ [] => ih (.expr operand) (by simp [Expr.branches, h])
    have hitems : ∀ i ∈ items, Walks strict style (.expr i) := fun i hi =>
      ih _ (by simp [Expr.branches, List.ne_nil_of_mem hi, hi])
    exact comes_inList hoperand hitems
      (fun h => hparts operand (by simp [Expr.branches, h]))
      (fun i hi => hparts i (by simp [Expr.branches, List.ne_nil_of_mem hi, hi]))
  | inQuery operand query negated =>
    have h := ih (.expr operand) (by simp [Expr.branches])
    have hq := comes_query (q := query) fun s hs => ih (.select s) (by simp [Expr.branches, hs])
    have hk : isPlainText (keyword negated.isTrue "IN") = true :=
      isPlainText_keyword _ (by decide)
    exact (comes_operandOf operand h).bind fun l hl => hq.bind fun f hf => comes_ok
      ((((hl.link (by decide)).text hk).text (by decide)).append hf.parens)
  | between operand low high negated =>
    have he := ih (.expr operand) (by simp [Expr.branches])
    have hl := ih (.expr low) (by simp [Expr.branches])
    have hh := ih (.expr high) (by simp [Expr.branches])
    have hk : isPlainText (keyword negated.isTrue "BETWEEN") = true :=
      isPlainText_keyword _ (by decide)
    refine Comes.of_eq ((comes_operandOf operand he).bind fun e he =>
      (comes_operandOf low hl).bind fun l hl => (comes_operandOf high hh).bind fun h hh =>
        comes_ok ((((((he.link (by decide)).text hk).text (by decide)).append hl).link
          (by decide)).append hh)) ?_
    simp [Tree.frame, Tree.written, Tree.branches, Expr.branches, Fragment.append_assoc]
  | «exists» query negated =>
    have hq := comes_query (q := query) fun s hs =>
      ih (.select s) (by simpa [Expr.branches] using hs)
    have hk : isPlainText (keyword negated.isTrue "EXISTS") = true :=
      isPlainText_keyword _ (by decide)
    exact hq.bind fun f hf => comes_ok
      (((FitsBefore.text (leads_text hk) (by decide)).append hf.parens).of_eq
        (Fragment.empty_append _))
  | scalar query =>
    exact comes_parens (comes_query fun s hs => ih (.select s) (by simpa [Expr.branches] using hs))
  | row first rest =>
    have h : ∀ e ∈ first :: rest, Walks strict style (.expr e) := fun e he =>
      ih _ (by simpa [Expr.branches] using he)
    exact Yields.map (yields_textsOf _ (comes_renderEach h)) fun fs hfs => fits_tuple hfs
  | call name args distinct =>
    have h : ∀ e ∈ args, Walks strict style (.expr e) := fun e he =>
      ih _ (by simpa [Expr.branches] using he)
    refine bind_textsOf (comes_renderEach h) fun fs hfs => comes_ok ?_
    have hargs : Fits strict style _ (.join ", " fs) := fits_join (by decide) hfs
    refine FitsBefore.after ?_ (isPlainText_capitals name)
    cases distinct.isTrue with
    | true => exact FitsBefore.parens (hargs.after (by decide))
    | false => exact hargs.parens
  | cast operand target =>
    have h := ih (.expr operand) (by simp [Expr.branches])
    refine Comes.of_eq ?_ (Fragment.concat_one _).symm
    exact h.bind fun f hf => comes_ok (fits_castTo (isPlainText_castTarget _ target) hf)
  | coalesce parts =>
    have h : ∀ e ∈ parts, Walks strict style (.expr e) := fun e he =>
      ih _ (by simpa [Expr.branches] using he)
    exact Yields.map (yields_textsOf _ (comes_renderEach h)) fun fs hfs =>
      fits_callText (by decide) hfs
  | concat parts =>
    have h : ∀ e ∈ parts, Walks strict style (.expr e) := fun e he =>
      ih _ (by simpa [Expr.branches] using he)
    exact Yields.map (yields_textsOf _ (comes_renderEach h)) fun fs hfs => fits_concatenated hfs
  | aggregateText operand =>
    have h := ih (.expr operand) (by simp [Expr.branches])
    exact (h.of_eq (Fragment.concat_one _).symm).map fun f hf => fits_aggregated hf
  | sorted operand direction =>
    have h := ih (.expr operand) (by simp [Expr.branches])
    have hd : isPlainText direction.text = true := by cases direction <;> decide
    refine Comes.of_eq ?_ (Fragment.concat_one _).symm
    exact h.bind fun f hf => comes_ok ((hf.link (by decide)).text hd)
  | window partition order => exact comes_error
  | «over» name args spec =>
    have h : ∀ e ∈ args, Walks strict style (.expr e) := fun e he =>
      ih _ (by simp [Expr.branches, he])
    have hw := hwindow spec (by simp [Expr.branches])
    refine Comes.of_eq (bind_textsOf (comes_renderEach h) fun fs hfs => hw.bind fun f hf =>
      comes_ok (FitsBefore.append (FitsBefore.text
        (fits_callText (isPlainText_capitals name) hfs) (by decide)) hf.parens)) ?_
    simp [Tree.frame, Tree.written, Tree.branches, Expr.branches]
  | jsonExtract document path asText =>
    have h := ih (.expr document) (by simp [Expr.branches])
    exact comes_jsonPartOf document path asText.isTrue (h.of_eq (Fragment.concat_one _).symm)
  | jsonContains document value negated =>
    have hd := ih (.expr document) (by simp [Expr.branches])
    have hv := ih (.expr value) (by simp [Expr.branches])
    exact (comes_jsonContainsSql document negated.isTrue hd hv).of_eq
      (Fragment.concat_two _ _).symm
  | jsonEdge document value edge negated =>
    have hd := ih (.expr document) (by simp [Expr.branches])
    have hv := ih (.expr value) (by simp [Expr.branches])
    exact (comes_jsonEdgeSql document edge negated.isTrue hd hv).of_eq
      (Fragment.concat_two _ _).symm
  | jsonType document type =>
    have h := ih (.expr document) (by simp [Expr.branches])
    exact comes_jsonTypeSql type (h.of_eq (Fragment.concat_one _).symm)
  | textSearch first rest =>
    have h : ∀ e ∈ first :: rest, Walks strict style (.expr e) := fun e he =>
      ih _ (by simpa [Expr.branches] using he)
    exact comes_searchedColumns _ (comes_renderEach h)
  | «matches» search query negated =>
    have hs := ih (.expr search) (by simp [Expr.branches])
    have hq := ih (.expr query) (by simp [Expr.branches])
    have hp := hparts search (by simp [Expr.branches])
    refine (comes_matchSql search negated.isTrue hs (fun ht => ?_) hq).of_eq
      (Fragment.concat_two _ _).symm
    refine ⟨_, (skeleton_of_isTextSearch ht).symm, ?_⟩
    rw [renderParts_eq_map, ← renderEach_eq_map]
    exact comes_renderEach hp
  | rowToJson table pretty => exact comes_rowToJsonSql table pretty.isTrue
  | excluded column => exact comes_error
  | raw sql aliasName template bindings =>
    -- the text of a caller may mean anything to the reader, so only the values are told
    have hs : ¬strict := fun hs => Bool.noConfusion (hraw hs)
    refine comes_of_skeleton hs ?_
    show Yields _ (rawText _ _ _ (renderBindings style.dialect bindings))
    rw [renderBindings_eq_map]
    have filled : ∀ e ∈ rawParts sql.view aliasName template.isTrue bindings,
        Yields (fun f => f.skeleton = (Tree.expr e).skeleton style.dialect)
          (e.render style.dialect) := fun e he =>
      (ih (.expr e) (by simpa [Expr.branches] using he)).mono fun _ hf => hf.binds
    exact yields_rawText _ _ _ _ _ filled
  | image side column =>
    have hside : isPlainText side.text = true := by cases side <;> decide
    cases column with
    | some name =>
      exact comes_ok ((FitsBefore.text (leads_text hside) (by decide)).append (fits_name name))
    | none => exact comes_ok (FitsBefore.text (leads_text hside) (by decide))
  | tuple items => exact comes_error
  | foreign object => exact comes_error

/-! ## Selects -/

theorem yields_renderFilter {word : String} (hw : isPlainText word = true) {filter : Option Expr}
    (h : ∀ e ∈ filter.toList, Walks strict style (.expr e)) :
    Yields (ClausesFit strict style
        (.concat ((filter.toList.map Tree.expr).map (Tree.skeleton style.dialect))))
      (renderFilter style.dialect word filter) := by
  cases filter with
  | none => exact yields_ok .nil
  | some e =>
    have he : Walks strict style (.expr e) := h e (by simp)
    refine Yields.bind (comes_predicateOf he) fun f hf => yields_ok ?_
    refine ((ClausesFit.one ?_).of_eq (Fragment.concat_one _).symm)
    exact (FitsBefore.append (FitsBefore.text (leads_text hw) (by decide)) hf).of_eq
      (Fragment.empty_append _)

theorem comes_source {o : Source} (h : ∀ s ∈ o.selects, Walks strict style (.select s)) :
    Comes strict style (.concat ((o.selects.map Tree.select).map (Tree.skeleton style.dialect)))
      (o.render style.dialect) := by
  cases o with
  | table t =>
    exact (comes_tableName t.schema t.name).bind fun f hf => comes_aliased hf t.aliasName
  | derived query aliasName =>
    refine (comes_query h).bind fun f hf => (comes_nameOf aliasName).bind fun n hn => comes_ok ?_
    exact ((FitsBefore.text hf.parens (by decide)).append hn).of_eq (Fragment.append_empty _)
  | other object => exact comes_error

theorem yields_renderOrigin {source : Option Source}
    (h : ∀ s ∈ source.toList.flatMap Source.selects, Walks strict style (.select s)) :
    Yields (ClausesFit strict style (.concat (((source.toList.flatMap Source.selects).map
        Tree.select).map (Tree.skeleton style.dialect))))
      (renderOrigin style.dialect source) := by
  cases source with
  | none => exact yields_ok .nil
  | some o =>
    have h : ∀ s ∈ o.selects, Walks strict style (.select s) := fun s hs => h s (by simpa using hs)
    refine Yields.bind (comes_source h) fun f hf => yields_ok ?_
    exact (ClausesFit.one (hf.after (by decide))).of_eq (by simp)

theorem comes_join {j : Join} (h : ∀ b ∈ j.branches, Walks strict style b) :
    Comes strict style (.concat (j.branches.map (Tree.skeleton style.dialect)))
      (j.render style.dialect) := by
  cases j with
  | join right on kind =>
    have hr : ∀ s ∈ right.selects, Walks strict style (.select s) := fun s hs =>
      h _ (by simp [Join.branches, hs])
    have ho : ∀ e ∈ on.toList, Walks strict style (.expr e) := fun e he =>
      h _ (by simp [Join.branches, Option.mem_toList.mp he])
    refine (comes_joinKeyword kind).bind fun w hw => (comes_source hr).bind fun f hf =>
      Yields.bind (yields_renderFilter (by decide) ho) fun c hc => comes_ok ?_
    exact (((ClausesFit.cons hw (.cons hf hc)).of_eq (by simp [Join.branches])).join (by decide))
  | other object => exact comes_error

theorem comes_renderItems {items : List SelectItem}
    (h : ∀ t ∈ itemTrees items, Walks strict style t) :
    List.Forall₂ (Comes strict style) ((itemTrees items).map (Tree.skeleton style.dialect))
      (renderItems style.dialect items) := by
  rw [renderItems_eq_map, itemTrees, List.map_map, List.forall₂_map_left_iff,
    List.forall₂_map_right_iff, List.forall₂_same]
  intro i hi
  have hi : Walks strict style (.expr i.expr) := h _ (List.mem_map.mpr ⟨i, hi, rfl⟩)
  obtain ⟨e, aliasName⟩ := i
  exact hi.bind fun f hf => comes_aliased hf aliasName

theorem walks_select {s : Select} (ih : ∀ b ∈ s.branches, Walks strict style b) :
    Walks strict style (.select s) := by
  obtain ⟨items, source, joins, filter, groupBy, having, orderBy, limit, offset, distinct⟩ := s
  -- the branches are those of the clauses, one clause after the other
  simp only [Select.branches, List.mem_append, or_imp, forall_and] at ih
  obtain ⟨⟨⟨⟨⟨⟨hitems, hsource⟩, hjoins⟩, hfilter⟩, hgroup⟩, hhaving⟩, horder⟩ := ih
  have hsource : ∀ s ∈ source.toList.flatMap Source.selects, Walks strict style (.select s) :=
    fun s hs => hsource _ (List.mem_map_of_mem hs)
  have hjoins : List.Forall₂ (Comes strict style)
      (joins.map fun j => Fragment.concat (j.branches.map (Tree.skeleton style.dialect)))
      (renderJoins style.dialect joins) := by
    rw [renderJoins_eq_map, List.forall₂_map_left_iff, List.forall₂_map_right_iff,
      List.forall₂_same]
    exact fun j hj => comes_join fun b hb => hjoins b (List.mem_flatMap.mpr ⟨j, hj, hb⟩)
  have hfilter : ∀ e ∈ filter.toList, Walks strict style (.expr e) := fun e he =>
    hfilter _ (List.mem_map_of_mem he)
  have hgroup : ∀ e ∈ groupBy, Walks strict style (.expr e) := fun e he =>
    hgroup _ (List.mem_map_of_mem he)
  have hhaving : ∀ e ∈ having.toList, Walks strict style (.expr e) := fun e he =>
    hhaving _ (List.mem_map_of_mem he)
  have horder : ∀ e ∈ orderBy, Walks strict style (.expr e) := fun e he =>
    horder _ (List.mem_map_of_mem he)
  unfold Walks
  rw [Tree.skeleton_eq]
  refine bind_allOk (comes_renderItems hitems) fun projection hprojection => yields_after fun _ =>
    Yields.bind (yields_renderOrigin hsource) fun origin horigin =>
    bind_allOk hjoins fun joined hjoined =>
    Yields.bind (yields_renderFilter (by decide) hfilter) fun filtered hfiltered =>
    bind_textsOf (comes_renderEach hgroup) fun groups hgroups =>
    Yields.bind (yields_renderFilter (by decide) hhaving) fun chosen hchosen =>
    bind_textsOf (comes_renderEach horder) fun order horder =>
    Yields.bind (yields_rowClauses _ _ _ horder _ _) fun rows hrows => yields_after fun _ =>
    comes_ok (ClausesFit.join (by decide) ?_)
  have hgrouped : ClausesFit strict style _ (listClause "GROUP BY" groups) :=
    .listClause (by decide) hgroups
  have clauses := ((((((clausesFit_projectionOf distinct.isTrue hprojection).append horigin).append
    ⟨_, rfl, hjoined⟩).append hfiltered).append hgrouped).append hchosen).append hrows
  refine clauses.of_eq ?_
  show _ = Fragment.concat ((Select.branches _).map (Tree.skeleton style.dialect))
  simp only [Select.branches, List.map_append, Fragment.concat_append, itemTrees]
  rw [Fragment.concat_map_flatMap _ Join.branches]

/-- **The walk over a tree is right.** Whatever is written for a tree fits its skeleton; in a strict
proof no node of the tree may be a raw fragment. -/
theorem walks (t : Tree) (hraw : strict → t.Every fun n => n.isRaw = false) :
    Walks strict style t := by
  -- a node above a window or a row goes into it, so both are told about the branches too
  suffices h : Walks strict style t ∧ ∀ e, t = .expr e →
      Comes strict style (t.skeleton style.dialect) (e.renderWindow style.dialect) ∧
        ∀ p ∈ e.parts, Walks strict style (.expr p) from h.1
  induction t using Tree.induction with
  | step t ih =>
    have hroot : strict → t.isRaw = false := fun hs => (Tree.every_iff.mp (hraw hs)).1
    have ih := fun b hb => ih b hb fun hs => (Tree.every_iff.mp (hraw hs)).2 b hb
    cases t with
    | select s => exact ⟨walks_select fun b hb => (ih b hb).1, by rintro e ⟨⟩⟩
    | expr e =>
      refine ⟨?_, ?_⟩
      · exact walks_expr hroot (fun b hb => (ih b hb).1) (fun b hb => ((ih _ hb).2 b rfl).1)
          fun b hb => ((ih _ hb).2 b rfl).2
      · rintro _ ⟨⟩
        exact ⟨comes_renderWindow fun b hb => (ih b hb).1, fun p hp =>
          (ih _ (mem_branches_of_mem_parts hp)).1⟩

end

end SqlScribe
