import SqlScribe.Draft.Change
import SqlScribe.Proofs.Typed

/-!
# Drafts and records

An insert can be put together in two ways: as a record of all its parts, which is checked once, or
as a draft that grows row by row and is checked a little at each step. The steps refuse in another
order and with other words, but in the end it comes to the same: one way has a result if the other
has, and then it is the same statement. The same holds of updates, which grow column by column, and
of both when they are given as a mapping.

Each step of a draft has a lemma that says when it succeeds and what it adds. An induction over the
steps gives the draft before its last check, and that check is the one of the record.
-/

namespace SqlScribe

/-! ## Outcomes -/

/-- Two outcomes have the same results. -/
theorem toOption_eq_iff {ε α : Type} {x y : Except ε α} :
    x.toOption = y.toOption ↔ ∀ a, x = .ok a ↔ y = .ok a := by
  constructor
  · intro h a
    cases x <;> cases y <;> simp_all [Except.toOption]
  · intro h
    cases x with
    | ok a => rw [(h a).mp rfl]
    | error e =>
      cases y with
      | ok b => exact nomatch (h b).mpr rfl
      | error e' => rfl

theorem refuse_ne_ok {α : Type} {cause : Malformed} {a : α} : refuse cause ≠ .ok a := nofun

/-! ## Inserts -/

namespace Insert

/-- An insert as a record of its table, its columns and its rows. -/
def ofRows (t : Table) (names : List Name) (rows : List (List Expr)) : Build Insert :=
  make (.table t) (.ok names) (.ok (rows.map .ok)) none none (.ok [])

/-- An insert that is drafted: its columns are set, the draft grows, and then it is finished. -/
def drafted (t : Table) (names : List Name) (grow : InsertDraft → Build InsertDraft) :
    Build Insert := do
  let x ← InsertDraft.into (.table t)
  let x ← x.withColumns names
  let x ← grow x
  x.finish

end Insert

theorem Expr.length_of_operands {es es' : List Expr} (h : operands es = .ok es') :
    es'.length = es.length := by
  induction es generalizing es' with
  | nil => cases h; rfl
  | cons e rest ih =>
    obtain ⟨e', -, h⟩ := bind_eq_ok.mp h
    obtain ⟨rest', hrest, h⟩ := bind_eq_ok.mp h
    cases h
    rw [List.length_cons, List.length_cons, ih hrest]

theorem makeRows_cons (row : List Expr) (rest : List (List Expr)) :
    makeRows ((row :: rest).map .ok) =
      (Expr.operands row >>= fun row => makeRows (rest.map .ok) >>= fun rest =>
        .ok (row :: rest)) :=
  rfl

/-- Rows keep their width when their operands are made. -/
theorem widths_of_makeRows {rows rows' : List (List Expr)}
    (h : makeRows (rows.map .ok) = .ok rows') (n : Nat) :
    (∀ row ∈ rows', row.length = n) ↔ ∀ row ∈ rows, row.length = n := by
  induction rows generalizing rows' with
  | nil => cases h; rfl
  | cons row rest ih =>
    rw [makeRows_cons] at h
    obtain ⟨row', hrow, h⟩ := bind_eq_ok.mp h
    obtain ⟨rest', hrest, h⟩ := bind_eq_ok.mp h
    cases h
    rw [List.forall_mem_cons, List.forall_mem_cons, ih hrest, Expr.length_of_operands hrow]

theorem checkRowWidths_eq_ok_iff {columns index : Nat} {rows : List (List Expr)} :
    checkRowWidths columns index rows = .ok () ↔ ∀ row ∈ rows, row.length = columns := by
  induction rows generalizing index with
  | nil => exact iff_of_true rfl nofun
  | cons row rest ih =>
    rw [checkRowWidths, List.forall_mem_cons]
    split
    next h => rw [ih]; exact (and_iff_right h).symm
    next h => exact iff_of_false refuse_ne_ok fun hall => h hall.1

namespace InsertDraft

variable {x y : InsertDraft}

theorem withColumns_eq_ok_iff {names : List Name} (hrows : x.rows = []) :
    x.withColumns names = .ok y ↔ names ≠ [] ∧ y = { x with columns := names } := by
  unfold withColumns
  cases names with
  | nil => exact iff_of_false refuse_ne_ok fun h => h.1 rfl
  | cons name rest =>
    rw [hrows]
    exact ⟨fun h => ⟨List.cons_ne_nil _ _, (Except.ok.inj h).symm⟩, fun h => h.2 ▸ rfl⟩

/-- A row is added if it has a value for every column. -/
theorem addRow_eq_ok_iff {row : List Expr} (hcolumns : x.columns ≠ []) :
    x.addRow row = .ok y ↔ row.length = x.columns.length ∧
      ∃ row', Expr.operands row = .ok row' ∧ y = { x with rows := x.rows ++ [row'] } := by
  have nonempty : x.columns.isEmpty = false := List.isEmpty_eq_false_iff.mpr hcolumns
  unfold addRow
  by_cases hwidth : row.length = x.columns.length
  · simp only [nonempty, hwidth, ne_eq, not_true_eq_false, Bool.false_eq_true, if_false, true_and]
    refine bind_eq_ok.trans (exists_congr fun row' => and_congr_right fun _ => ?_)
    exact ⟨fun h => (Except.ok.inj h).symm, fun h => h ▸ rfl⟩
  · simp only [nonempty, hwidth, ne_eq, not_false_eq_true, Bool.false_eq_true, if_false, if_true,
      false_and, iff_false]
    exact refuse_ne_ok

/-- Rows are added one after the other. -/
theorem foldlM_addRow_eq_ok_iff {rows : List (List Expr)} (hcolumns : x.columns ≠ []) :
    rows.foldlM addRow x = .ok y ↔ (∀ row ∈ rows, row.length = x.columns.length) ∧
      ∃ rows', makeRows (rows.map .ok) = .ok rows' ∧ y = { x with rows := x.rows ++ rows' } := by
  -- on the rows, for every draft they can be added to
  induction rows generalizing x with
  | nil =>
    refine ⟨fun h => ⟨nofun, [], rfl, ?_⟩, ?_⟩
    · rw [List.append_nil]
      exact (Except.ok.inj h).symm
    · rintro ⟨-, rows', hrows, rfl⟩
      cases hrows
      rw [List.append_nil]
      rfl
  | cons row rest ih =>
    rw [List.foldlM_cons, bind_eq_ok, List.forall_mem_cons, makeRows_cons]
    -- the draft to go on with has the row in front of those to come
    have further : ∀ row', (rest.foldlM addRow { x with rows := x.rows ++ [row'] } = .ok y) ↔ _ :=
      fun row' => ih (x := { x with rows := x.rows ++ [row'] }) hcolumns
    constructor
    · rintro ⟨z, hz, h⟩
      obtain ⟨hwidth, row', hrow, rfl⟩ := (addRow_eq_ok_iff hcolumns).mp hz
      obtain ⟨hwidths, rows', hrows, hy⟩ := (further row').mp h
      refine ⟨⟨hwidth, hwidths⟩, row' :: rows', ?_, ?_⟩
      · exact bind_eq_ok.mpr ⟨row', hrow, bind_eq_ok.mpr ⟨rows', hrows, rfl⟩⟩
      · rw [hy, List.append_assoc]
        rfl
    -- no row is refused, so each step of the fold goes on
    · rintro ⟨⟨hwidth, hwidths⟩, rows', hrows, hy⟩
      obtain ⟨row', hrow, hrows⟩ := bind_eq_ok.mp hrows
      obtain ⟨rest', hrest, hrows⟩ := bind_eq_ok.mp hrows
      cases hrows
      refine ⟨_, (addRow_eq_ok_iff hcolumns).mpr ⟨hwidth, row', hrow, rfl⟩, ?_⟩
      refine (further row').mpr ⟨hwidths, rest', hrest, ?_⟩
      rw [hy, List.append_assoc]
      rfl

theorem addRows_eq_foldlM (rows : List (List Expr)) : x.addRows rows = rows.foldlM addRow x := by
  induction rows generalizing x with
  | nil => rfl
  | cons row rest ih =>
    rw [addRows, List.foldlM_cons]
    exact bind_congr fun z => ih

end InsertDraft

namespace Insert

/-- A record is checked for its columns and for the widths of its rows. -/
theorem of_check {target : Source} {names : List Name} {rows : List (List Expr)} {i : Insert}
    (h : check target names rows none none [] = .ok i) :
    names ≠ [] ∧ ∀ row ∈ rows, row.length = names.length := by
  unfold check at h
  split at h
  · exact absurd h refuse_ne_ok
  next hnames =>
    obtain ⟨-, -, h⟩ := bind_eq_ok.mp h
    obtain ⟨source, hsource, -⟩ := bind_eq_ok.mp h
    unfold InsertSource.make at hsource
    split at hsource
    · split at hsource
      · exact absurd hsource refuse_ne_ok
      · obtain ⟨_, hwidths, -⟩ := bind_eq_ok.mp hsource
        exact ⟨fun he => hnames (List.isEmpty_iff.mpr he), checkRowWidths_eq_ok_iff.mp hwidths⟩
    next h => cases h

theorem ofRows_eq_ok_iff {t : Table} {names : List Name} {rows : List (List Expr)} {i : Insert} :
    ofRows t names rows = .ok i ↔
      ∃ rows', makeRows (rows.map .ok) = .ok rows' ∧
        check (.table t) names rows' none none [] = .ok i := by
  have made : ofRows t names rows = (makeRows (rows.map .ok) >>= fun rows' =>
      check (.table t) names rows' none none []) := rfl
  rw [made, bind_eq_ok]

/-- What a draft is before its last check is what the record is made of. -/
theorem drafted_eq_ofRows (t : Table) (names : List Name) (rows : List (List Expr)) :
    (drafted t names fun x => rows.foldlM InsertDraft.addRow x).toOption =
      (ofRows t names rows).toOption := by
  refine toOption_eq_iff.mpr fun i => ?_
  have start : drafted t names (fun x => rows.foldlM InsertDraft.addRow x) =
      ((InsertDraft.mk t [] [] none none []).withColumns names >>= fun x =>
        rows.foldlM InsertDraft.addRow x >>= InsertDraft.finish) := rfl
  rw [start, bind_eq_ok, ofRows_eq_ok_iff]
  constructor
  · rintro ⟨x, hx, h⟩
    obtain ⟨hnames, rfl⟩ := (InsertDraft.withColumns_eq_ok_iff rfl).mp hx
    obtain ⟨y, hy, h⟩ := bind_eq_ok.mp h
    obtain ⟨-, rows', hrows, rfl⟩ := (InsertDraft.foldlM_addRow_eq_ok_iff hnames).mp hy
    exact ⟨rows', hrows, h⟩
  · rintro ⟨rows', hrows, h⟩
    -- the record is not refused, so no step of the draft is
    obtain ⟨hnames, hwidths⟩ := of_check h
    refine ⟨_, (InsertDraft.withColumns_eq_ok_iff rfl).mpr ⟨hnames, rfl⟩, bind_eq_ok.mpr ?_⟩
    refine ⟨⟨t, names, rows', none, none, []⟩, ?_, h⟩
    exact (InsertDraft.foldlM_addRow_eq_ok_iff hnames).mpr
      ⟨(widths_of_makeRows hrows _).mp hwidths, rows', hrows, rfl⟩

/-- An insert that is given as a mapping is drafted with one row. -/
theorem ofMapping_eq_drafted (t : Table) (entries : List (Name × Expr)) :
    ofMapping (.table t) (.ok entries) (.ok []) =
      drafted t (entries.map (·.1)) fun x => [entries.map (·.2)].foldlM InsertDraft.addRow x := by
  cases entries with
  | nil => rfl
  | cons entry rest =>
    -- no columns to return are no step of the draft
    have nothing : ∀ x : InsertDraft, x.addReturning [] = .ok x := by
      intro x
      simp [InsertDraft.addReturning, SelectItem.ofColumns, Except.map]
    have made : ofMapping (.table t) (.ok (entry :: rest)) (.ok []) =
        ((InsertDraft.mk t [] [] none none []).withColumns ((entry :: rest).map (·.1)) >>= fun x =>
          x.addRow ((entry :: rest).map (·.2)) >>= fun x => x.addReturning [] >>=
            InsertDraft.finish) := rfl
    have start : drafted t ((entry :: rest).map (·.1))
          (fun x => [(entry :: rest).map (·.2)].foldlM InsertDraft.addRow x) =
        ((InsertDraft.mk t [] [] none none []).withColumns ((entry :: rest).map (·.1)) >>= fun x =>
          [(entry :: rest).map (·.2)].foldlM InsertDraft.addRow x >>= InsertDraft.finish) := rfl
    rw [made, start]
    refine bind_congr fun x => ?_
    rw [List.foldlM_cons, bind_assoc]
    refine bind_congr fun y => ?_
    rw [nothing]
    rfl

end Insert

/-! ## Updates -/

namespace Update

/-- An update as a record of its table and its assignments. -/
def ofPairs (t : Table) (pairs : List (Name × Expr)) : Build Update := do
  let assignments ← pairs.mapM fun p => Assignment.make p.1 p.2
  make (.table t) (.ok (assignments.map .done)) none (.ok [])

/-- An update that is drafted: the draft grows, and then it is finished. -/
def drafted (t : Table) (grow : UpdateDraft → Build UpdateDraft) : Build Update := do
  let x ← UpdateDraft.of (.table t)
  let x ← grow x
  x.finish

end Update

theorem Assignment.column_of_make {column : Name} {value : Expr} {a : Assignment}
    (h : make column value = .ok a) : a.column = column := by
  unfold make at h
  split at h
  · cases hv : value.operand with
    | ok v => rw [hv] at h; cases h; rfl
    | error e => rw [hv] at h; cases h
  · exact absurd h refuse_ne_ok

theorem columns_of_mapM {pairs : List (Name × Expr)} {as : List Assignment}
    (h : (pairs.mapM fun p => Assignment.make p.1 p.2) = .ok as) :
    as.map (·.column) = pairs.map (·.1) := by
  induction pairs generalizing as with
  | nil => cases h; rfl
  | cons p rest ih =>
    rw [List.mapM_cons] at h
    obtain ⟨a, ha, h⟩ := bind_eq_ok.mp h
    obtain ⟨as', has, h⟩ := bind_eq_ok.mp h
    cases h
    rw [List.map_cons, List.map_cons, ih has, Assignment.column_of_make ha]

/-- Assignments that are made already are taken as they are. -/
theorem assignments?_done (as : List Assignment) :
    AssignmentEntry.assignments? (as.map .done) = .ok as := by
  induction as with
  | nil => rfl
  | cons a rest ih =>
    rw [List.map_cons, AssignmentEntry.assignments?, ih]
    rfl

/-! ### Columns that are set twice -/

theorem Expr.same_texts {m n : Name} {s t : String} (hm : m.asText? = some s)
    (hn : n.asText? = some t) : m.same n = (s == t) := Data.same_texts hm hn

theorem Expr.sameKey_texts {m n : Name} {s t : String} (hm : m.asText? = some s)
    (hn : n.asText? = some t) : m.sameKey n = (s == t) := by
  rw [← Data.same_texts hm hn]
  unfold sameKey Data.sameKey
  split
  next h _ =>
    rw [asText?, h] at hm
    cases hm
  · rfl

/-- A list of columns that are texts is not refused only if none of them comes again. -/
theorem pairwise_of_refuseRepeated {list : ColumnList} {names : List Name}
    (htext : ∀ n ∈ names, n.isText = true) (h : refuseRepeated list names = .ok ()) :
    names.Pairwise fun m n => m.same n = false := by
  -- the names met so far come with the names to come
  have going : ∀ {seen names : List Name}, (∀ n ∈ seen, n.isText = true) →
      (∀ n ∈ names, n.isText = true) → refuseRepeated.go list seen names = .ok () →
      names.Pairwise (fun m n => m.same n = false) ∧
        ∀ m ∈ seen, ∀ n ∈ names, m.same n = false := by
    intro seen names
    induction names generalizing seen with
    | nil => exact fun _ _ _ => ⟨.nil, fun _ _ _ h => nomatch h⟩
    | cons name rest ih =>
      intro hseen hnames h
      obtain ⟨hname, hrest⟩ := List.forall_mem_cons.mp hnames
      rw [refuseRepeated.go] at h
      obtain ⟨-, -, h⟩ := bind_eq_ok.mp h
      split at h
      · exact absurd h refuse_ne_ok
      next hnew =>
        obtain ⟨hpairs, hbehind⟩ := ih (List.forall_mem_cons.mpr ⟨hname, hseen⟩) hrest h
        obtain ⟨hfirst, hbehind⟩ := List.forall_mem_cons.mp hbehind
        refine ⟨.cons hfirst hpairs, fun m hm => List.forall_mem_cons.mpr ⟨?_, hbehind m hm⟩⟩
        obtain ⟨s, hs⟩ := Option.isSome_iff_exists.mp (hseen m hm)
        obtain ⟨t, ht⟩ := Option.isSome_iff_exists.mp hname
        -- a name that was met before would have been refused
        have differ : name.sameKey m = false :=
          Bool.eq_false_iff.mpr fun he => hnew (List.any_eq_true.mpr ⟨m, hm, he⟩)
        rw [Expr.sameKey_texts ht hs] at differ
        rw [Expr.same_texts hs ht]
        exact beq_eq_false_iff_ne.mpr fun he => beq_eq_false_iff_ne.mp differ he.symm
  exact (going (List.forall_mem_nil _) htext h).1

namespace UpdateDraft

variable {x y : UpdateDraft}

/-- A column is set if it is not set yet. -/
theorem assign_eq_ok_iff {column : Name} {value : Expr} :
    x.assign column value = .ok y ↔ (∀ a ∈ x.assignments, a.column.same column = false) ∧
      ∃ a, Assignment.make column value = .ok a ∧
        y = { x with assignments := x.assignments ++ [a] } := by
  unfold assign
  by_cases hset : ∀ a ∈ x.assignments, a.column.same column = false
  · have unset : (x.assignments.any fun a => a.column.same column) = false :=
      List.any_eq_false.mpr fun a ha => Bool.eq_false_iff.mp (hset a ha)
    simp only [unset, Bool.false_eq_true, if_false, and_iff_right hset]
    refine bind_eq_ok.trans (exists_congr fun a => and_congr_right fun _ => ?_)
    exact ⟨fun h => (Except.ok.inj h).symm, fun h => h ▸ rfl⟩
  · have already : (x.assignments.any fun a => a.column.same column) = true := by
      by_contra hany
      exact hset fun a ha => Bool.eq_false_iff.mpr
        (List.any_eq_false.mp (Bool.eq_false_iff.mpr hany) a ha)
    rw [if_pos already]
    exact iff_of_false refuse_ne_ok fun h => hset h.1

/-- Columns are set one after the other. -/
theorem foldlM_assign_eq_ok_iff {pairs : List (Name × Expr)} :
    pairs.foldlM (fun x p => assign x p.1 p.2) x = .ok y ↔
      (∀ a ∈ x.assignments, ∀ p ∈ pairs, a.column.same p.1 = false) ∧
        (pairs.map (·.1)).Pairwise (fun m n => m.same n = false) ∧
        ∃ as, (pairs.mapM fun p => Assignment.make p.1 p.2) = .ok as ∧
          y = { x with assignments := x.assignments ++ as } := by
  -- on the pairs, for every draft: what is assigned already must differ from what is to come
  induction pairs generalizing x with
  | nil =>
    refine ⟨fun h => ⟨fun _ _ _ => nofun, .nil, [], rfl, ?_⟩, ?_⟩
    · rw [List.append_nil]
      exact (Except.ok.inj h).symm
    · rintro ⟨-, -, as, has, hy⟩
      have none : as = [] := (Except.ok.inj has).symm
      rw [hy, none, List.append_nil]
      rfl
  | cons p rest ih =>
    rw [List.foldlM_cons, bind_eq_ok, List.mapM_cons, List.map_cons, List.pairwise_cons]
    constructor
    · rintro ⟨z, hz, h⟩
      obtain ⟨hset, a, ha, rfl⟩ := assign_eq_ok_iff.mp hz
      obtain ⟨hbehind, hpairs, as, has, rfl⟩ := ih.mp h
      rw [List.forall_mem_append, List.forall_mem_singleton] at hbehind
      refine ⟨fun b hb => List.forall_mem_cons.mpr ⟨hset b hb, hbehind.1 b hb⟩,
        ⟨?_, hpairs⟩, a :: as, ?_, by rw [List.append_assoc]; rfl⟩
      · rw [List.forall_mem_map, ← Assignment.column_of_make ha]
        exact hbehind.2
      · exact bind_eq_ok.mpr ⟨a, ha, bind_eq_ok.mpr ⟨as, has, rfl⟩⟩
    · rintro ⟨hset, ⟨hfirst, hpairs⟩, as, has, hy⟩
      obtain ⟨a, ha, has⟩ := bind_eq_ok.mp has
      obtain ⟨as', has', has⟩ := bind_eq_ok.mp has
      cases has
      refine ⟨_, assign_eq_ok_iff.mpr
        ⟨fun b hb => hset b hb p List.mem_cons_self, a, ha, rfl⟩,
        ih.mpr ⟨?_, hpairs, as', has', ?_⟩⟩
      · rw [List.forall_mem_append, List.forall_mem_singleton, Assignment.column_of_make ha]
        exact ⟨fun b hb q hq => hset b hb q (List.mem_cons_of_mem _ hq),
          fun q hq => hfirst q.1 (List.mem_map_of_mem hq)⟩
      · rw [hy, List.append_assoc]
        rfl

theorem assignAll_eq_foldlM (pairs : List (Name × Expr)) :
    x.assignAll pairs = pairs.foldlM (fun x p => assign x p.1 p.2) x := by
  induction pairs generalizing x with
  | nil => rfl
  | cons p rest ih =>
    obtain ⟨column, value⟩ := p
    rw [assignAll, List.foldlM_cons]
    exact bind_congr fun z => ih

end UpdateDraft

namespace Update

theorem ofPairs_eq_ok_iff {t : Table} {pairs : List (Name × Expr)} {u : Update} :
    ofPairs t pairs = .ok u ↔
      ∃ as, (pairs.mapM fun p => Assignment.make p.1 p.2) = .ok as ∧
        check (.table t) as none [] = .ok u := by
  refine bind_eq_ok.trans (exists_congr fun as => and_congr_right fun _ => ?_)
  have made : make (.table t) (.ok (as.map .done)) none (.ok []) =
      (AssignmentEntry.assignments? (as.map .done) >>= fun as => check (.table t) as none []) := rfl
  rw [made, assignments?_done]
  rfl

/-- A record is checked for columns that come twice. -/
theorem refuseRepeated_of_check {target : Source} {as : List Assignment} {u : Update}
    (h : check target as none [] = .ok u) :
    refuseRepeated .update (as.map (·.column)) = .ok () := by
  unfold check at h
  split at h
  · exact absurd h refuse_ne_ok
  · obtain ⟨_, hunique, -⟩ := bind_eq_ok.mp h
    exact hunique

/-- What a draft is before its last check is what the record is made of. -/
theorem drafted_eq_ofPairs (t : Table) {pairs : List (Name × Expr)}
    (htext : ∀ p ∈ pairs, p.1.isText = true) :
    (drafted t fun x => pairs.foldlM (fun x p => x.assign p.1 p.2) x).toOption =
      (ofPairs t pairs).toOption := by
  refine toOption_eq_iff.mpr fun u => ?_
  have start : drafted t (fun x => pairs.foldlM (fun x p => x.assign p.1 p.2) x) =
      (pairs.foldlM (fun x p => x.assign p.1 p.2) (UpdateDraft.mk t [] none []) >>=
        UpdateDraft.finish) := rfl
  rw [start, bind_eq_ok, ofPairs_eq_ok_iff]
  constructor
  · rintro ⟨x, hx, h⟩
    obtain ⟨-, -, as, has, rfl⟩ := UpdateDraft.foldlM_assign_eq_ok_iff.mp hx
    exact ⟨as, has, h⟩
  · rintro ⟨as, has, h⟩
    -- names that differ as keys differ for the draft too, because they are texts
    have differ : (pairs.map (·.1)).Pairwise fun m n => m.same n = false := by
      rw [← columns_of_mapM has]
      refine pairwise_of_refuseRepeated ?_ (refuseRepeated_of_check h)
      rw [columns_of_mapM has, List.forall_mem_map]
      exact htext
    exact ⟨⟨t, as, none, []⟩,
      UpdateDraft.foldlM_assign_eq_ok_iff.mpr ⟨nofun, differ, as, has, rfl⟩, h⟩

/-- An update that is given as a mapping is drafted with its columns. -/
theorem ofMapping_eq_drafted (t : Table) (pairs : List (Name × Expr)) :
    ofMapping (.table t) (.ok pairs) .absent (.ok []) = drafted t fun x => x.assignAll pairs := by
  have nothing : ∀ x : UpdateDraft, x.addReturning [] = .ok x := by
    intro x
    simp [UpdateDraft.addReturning, SelectItem.ofColumns, Except.map]
  show (UpdateDraft.assignAll _ pairs >>= fun x => x.addReturning [] >>= UpdateDraft.finish) =
    (UpdateDraft.assignAll _ pairs >>= UpdateDraft.finish)
  refine bind_congr fun x => ?_
  rw [nothing]
  rfl

end Update

/-- **Drafts and records agree.** An insert that is drafted row by row, with all rows at once or as
a mapping has a result if and only if the record of its columns and rows has, and then it is the
same. So it is with an update of columns with names that are texts, drafted column by column, with
all columns at once or as a mapping. -/
theorem drafts_eq_records (t : Table) :
    (∀ (names : List Name) (rows : List (List Expr)),
      (Insert.drafted t names fun x => rows.foldlM InsertDraft.addRow x).toOption =
          (Insert.ofRows t names rows).toOption ∧
        (Insert.drafted t names fun x => x.addRows rows).toOption =
          (Insert.ofRows t names rows).toOption) ∧
    (∀ entries : List (Name × Expr),
      (Insert.ofMapping (.table t) (.ok entries) (.ok [])).toOption =
        (Insert.ofRows t (entries.map (·.1)) [entries.map (·.2)]).toOption) ∧
    ∀ pairs : List (Name × Expr), (∀ p ∈ pairs, p.1.isText = true) →
      (Update.drafted t fun x => pairs.foldlM (fun x p => x.assign p.1 p.2) x).toOption =
          (Update.ofPairs t pairs).toOption ∧
        (Update.drafted t fun x => x.assignAll pairs).toOption =
          (Update.ofPairs t pairs).toOption ∧
        (Update.ofMapping (.table t) (.ok pairs) .absent (.ok [])).toOption =
          (Update.ofPairs t pairs).toOption := by
  refine ⟨fun names rows => ⟨Insert.drafted_eq_ofRows t names rows, ?_⟩, fun entries => ?_,
    fun pairs htext => ?_⟩
  · simp only [InsertDraft.addRows_eq_foldlM]
    exact Insert.drafted_eq_ofRows t names rows
  · rw [Insert.ofMapping_eq_drafted]
    exact Insert.drafted_eq_ofRows t _ _
  · rw [Update.ofMapping_eq_drafted]
    simp only [UpdateDraft.assignAll_eq_foldlM]
    have update := Update.drafted_eq_ofPairs t htext
    exact ⟨update, update, update⟩

/-- A table with two columns that change places. -/
def exchanged : Table := ⟨.word "t", .absent, .absent, []⟩

/-- The columns of the other ones. -/
def exchange : List (Name × Expr) :=
  [(.word "a", .column .absent (.word "b")), (.word "b", .column .absent (.word "a"))]

theorem drafts_exchange :
    (∀ p ∈ exchange, p.1.isText = true) ∧
      (Update.drafted exchanged fun x => exchange.foldlM (fun x p => x.assign p.1 p.2) x).toOption =
        some ⟨.table exchanged, exchange.map fun p => ⟨p.1, p.2⟩, none, []⟩ := by
  have texts : ∀ p ∈ exchange, p.1.isText = true := by decide
  have unique : (refuseRepeated .update (exchange.map (·.1))).toOption =
      (.ok () : Build Unit).toOption := by decide +kernel
  have record : (Update.ofPairs exchanged exchange).toOption =
      some ⟨.table exchanged, exchange.map fun p => ⟨p.1, p.2⟩, none, []⟩ := by
    refine congrArg Except.toOption (Update.ofPairs_eq_ok_iff.mpr ⟨_, rfl, ?_⟩)
    exact bind_eq_ok.mpr ⟨(), (toOption_eq_iff.mp unique ()).mpr rfl, rfl⟩
  exact ⟨texts, ((drafts_eq_records exchanged).2.2 exchange texts).1.trans record⟩

end SqlScribe
