import SqlScribe.Proofs.Collect
import SqlScribe.Proofs.Reading
import SqlScribe.Proofs.Remaking
import SqlScribe.Proofs.Walk

/-!
# Memberships of rows as conditions

SQL Server cannot compare rows, so a membership of a row is written out for it: some row of the list
is equal to the row on the left, item by item. That is a condition like any other, and there is a
tree for it (`Expr.equalsSomeRow`): equalities joined by `AND`, one for each item, and these joined
by `OR`, one for each row. What is written for the membership is what is written for that tree,
between parentheses and negated if asked for.

The two are laid out by different code, which cuts the text in different places. So fragments are
compared by `Fragment.readings`: by the values that they bind and by the text that they leave, from
wherever the numbers of their values begin.
-/

namespace SqlScribe

/-! ## What is left of a fragment -/

namespace Fragment

/-- The values of a fragment, and its text for every style and every first number. -/
def readings (f : Fragment) :
    List Value × (Style → (Nat → Value → String) → Nat → String) :=
  (f.values, fun style place n => f.write style place n)

variable {f f' g g' : Fragment}

theorem readings_append (hf : f.readings = f'.readings) (hg : g.readings = g'.readings) :
    (f ++ g).readings = (f' ++ g').readings := by
  obtain ⟨hfvalues, hftext⟩ := Prod.mk.inj hf
  obtain ⟨hgvalues, hgtext⟩ := Prod.mk.inj hg
  have hsize : f.size = f'.size := by rw [size_eq_length, hfvalues, size_eq_length]
  refine Prod.ext ?_ (funext fun style => funext fun place => funext fun n => ?_)
  · show (f ++ g).values = (f' ++ g').values
    rw [values_append, values_append, hfvalues, hgvalues]
  · -- the second part begins behind the values of the first, which are as many
    show (f ++ g).write style place n = (f' ++ g').write style place n
    rw [write_append, write_append, hsize]
    exact congrArg₂ _ (congrFun (congrFun (congrFun hftext style) place) n)
      (congrFun (congrFun (congrFun hgtext style) place) _)

theorem readings_parens (h : f.readings = g.readings) : f.parens.readings = g.parens.readings :=
  readings_append (readings_append rfl h) rfl

theorem spellFrom_parens (style : Style) (n : Nat) (f : Fragment) :
    f.parens.spellFrom style n = "(" ++ f.spellFrom style n ++ ")" := by
  simp [parens, ofText, spellFrom, write_append, write, String.append_assoc]

/-- Lists that are read alike are read alike when they are joined. -/
theorem readings_join (separator : String) {fs gs : List Fragment}
    (h : fs.map readings = gs.map readings) :
    (join separator fs).readings = (join separator gs).readings := by
  induction fs generalizing gs with
  | nil =>
    obtain rfl := List.map_eq_nil_iff.mp h.symm
    rfl
  | cons f rest ih =>
    cases gs with
    | nil => cases h
    | cons g gs =>
      obtain ⟨hf, hrest⟩ := List.cons.inj h
      cases rest with
      | nil =>
        obtain rfl := List.map_eq_nil_iff.mp hrest.symm
        exact hf
      | cons f' rest =>
        cases gs with
        | nil => cases hrest
        | cons g' gs => exact readings_append (readings_append hf rfl) (ih hrest)

/-- The values of a joined list are those of its members. -/
theorem values_join (separator : String) (fs : List Fragment) :
    (join separator fs).values = fs.flatMap values := by
  induction fs with
  | nil => rfl
  | cons f rest ih =>
    cases rest with
    | nil => exact (List.append_nil _).symm
    | cons g rest =>
      show (f ++ ofText separator ++ join separator (g :: rest)).values = _
      rw [values_append, values_append, ih]
      simp [ofText, values]

end Fragment

open Fragment (readings)

/-! ## The condition -/

namespace Expr

/-- Whether two rows are equal item by item. -/
def equalsRow (left right : Expr) : Build Expr :=
  makeLogical (.text "AND")
    ((left.parts.zip right.parts).mapM fun p => makeBinary (.text "=") p.1 p.2)

/-- Whether a row is equal to one of several. -/
def equalsSomeRow (left : Expr) (rows : List Expr) : Build Expr :=
  makeLogical (.text "OR") (rows.mapM (equalsRow left))

/-- The equalities of the items of two rows. -/
def equalities (left right : Expr) : List Expr :=
  (left.parts.zip right.parts).map fun p => .binary .eq p.1 p.2

/-- Conditions joined by a connective. There is at least one. -/
def joinedBy (op : Connective) : List Expr → Expr
  | [] => absent
  | first :: rest => .logical op first rest

theorem makeLogical_text (op : Connective) {es : List Expr} (h : es ≠ []) :
    makeLogical (.text op.text) (.ok es) = .ok (joinedBy op es) := by
  rw [makeLogical, chooseFromSet_text op.ofText?_text, ok_bind, ok_bind]
  cases es with
  | nil => exact absurd rfl h
  | cons first rest => rfl

/-- Two rows that have a first item each can be compared. -/
theorem equalsRow_eq {left right : Expr} (h : equalities left right ≠ []) :
    equalsRow left right = .ok (joinedBy .and (equalities left right)) := by
  have made : ((left.parts.zip right.parts).mapM fun p => makeBinary (.text "=") p.1 p.2) =
      .ok (equalities left right) := by
    refine mapM_eq_map fun p _ => ?_
    show makeBinary (.text Operator.eq.text) p.1 p.2 = _
    rw [makeBinary, chooseFromSet_text (Operator.ofText?_text .eq)]
    rfl
  rw [equalsRow, made]
  exact makeLogical_text .and h

theorem equalsSomeRow_eq {left : Expr} {rows : List Expr} (hrows : rows ≠ [])
    (h : ∀ row ∈ rows, equalities left row ≠ []) :
    equalsSomeRow left rows =
      .ok (joinedBy .or (rows.map fun row => joinedBy .and (equalities left row))) := by
  rw [equalsSomeRow, mapM_eq_map fun row hrow => equalsRow_eq (h row hrow)]
  exact makeLogical_text .or (by simpa using hrows)

end Expr

/-! ## What is written for it -/

section

open SqlScribe.Expr

/-- An equality beside what is written for it. -/
theorem agree_equality (l r : Expr) :
    Agree readings ((Expr.binary .eq l r).render .mssql)
      (equalityOf (l, l.render .mssql) (r, r.render .mssql)) := by
  rw [Expr.render]
  refine agree_after fun f => agree_after fun g => agree_ok ?_
  -- one side cuts the text around the sign, the other does not
  refine Prod.ext ?_ (funext fun style => funext fun place => funext fun n => ?_)
  · simp [readings, Fragment.values, Fragment.ofText]
  · simp [readings, Fragment.write_append, Fragment.write, Fragment.size, Fragment.ofText,
      Operator.text, String.append_assoc]

theorem map_twice {ε α β γ : Type} {x : Except ε α} {g : α → β} {h : β → γ} :
    (x.map g).map h = x.map fun a => h (g a) := by
  cases x <;> rfl

/-- Conditions that are no raw data are joined as each of them is written. -/
theorem render_joinedBy (d : Dialect) (op : Connective) {es : List Expr} (hes : es ≠ [])
    (htexts : ∀ e ∈ es, e.bare? = none) :
    (joinedBy op es).render d =
      (allOk (es.map fun e => conditionOf d e (e.render d))).map
        (Fragment.join (" " ++ op.text ++ " ")) := by
  have texts : requireTexts es = .ok () := by
    refine if_neg ?_
    rw [Bool.not_eq_true, List.any_eq_false]
    intro e he
    rw [htexts e he]
    exact Bool.false_ne_true
  have written : es.zipWith (conditionOf d) (es.map fun e => e.render d) =
      es.map fun e => conditionOf d e (e.render d) := by
    rw [List.zipWith_map_right, List.zipWith_self]
  have joined : (joinedBy op es).render d = conditionsOf d op es (es.map fun e => e.render d) := by
    cases es with
    | nil => exact absurd rfl hes
    | cons first rest => rw [joinedBy, Expr.render, renderEach_eq_map, List.map_cons]
  rw [joined, conditionsOf, written, textsOf, texts]
  cases allOk (es.map fun e => conditionOf d e (e.render d)) <;> rfl

/-- The equalities of two rows, joined. -/
theorem agree_conjunction {left right : Expr} (h : equalities left right ≠ []) :
    Agree readings ((joinedBy .and (equalities left right)).render .mssql)
      ((allOk ((left.parts.zip right.parts).map fun p =>
        equalityOf (p.1, p.1.render .mssql) (p.2, p.2.render .mssql))).map
          (Fragment.join " AND ")) := by
  rw [render_joinedBy .mssql .and h (List.forall_mem_map.mpr fun _ _ => rfl)]
  refine Agree.map (φ := List.map readings) (agree_allOk ?_) fun fs gs h =>
    Fragment.readings_join " AND " h
  rw [equalities, List.map_map, List.forall₂_map_left_iff, List.forall₂_map_right_iff,
    List.forall₂_same]
  -- an equality stands under a connective without parentheses
  exact fun p _ => agree_equality p.1 p.2

/-- A comparison with rows, joined. -/
theorem agree_disjunction {left : Expr} {rows : List Expr} (hrows : rows ≠ [])
    (h : ∀ row ∈ rows, equalities left row ≠ []) :
    Agree readings
      ((joinedBy .or (rows.map fun row => joinedBy .and (equalities left row))).render .mssql)
      ((allOk (rows.map fun row => (allOk ((left.parts.zip row.parts).map fun p =>
        equalityOf (p.1, p.1.render .mssql) (p.2, p.2.render .mssql))).map fun pairs =>
          Fragment.parens (Fragment.join " AND " pairs))).map (Fragment.join " OR ")) := by
  have conjunction {row : Expr} (hrow : row ∈ rows) :
      ∃ first rest, joinedBy .and (equalities left row) = .logical .and first rest := by
    cases heq : equalities left row with
    | nil => exact absurd heq (h row hrow)
    | cons first rest => exact ⟨first, rest, rfl⟩
  have texts : ∀ e ∈ rows.map fun row => joinedBy .and (equalities left row),
      e.bare? = none := by
    refine List.forall_mem_map.mpr fun row hrow => ?_
    obtain ⟨first, rest, hlogical⟩ := conjunction hrow
    rw [hlogical]
    rfl
  rw [render_joinedBy .mssql .or (by simpa using hrows) texts]
  refine Agree.map (φ := List.map readings) (agree_allOk ?_) fun fs gs h =>
    Fragment.readings_join " OR " h
  rw [List.map_map, List.forall₂_map_left_iff, List.forall₂_map_right_iff, List.forall₂_same]
  intro row hrow
  have agreed := agree_conjunction (h row hrow)
  obtain ⟨first, rest, hlogical⟩ := conjunction hrow
  -- under `OR` a condition that is joined by `AND` gets its own parentheses
  show Agree readings (conditionOf .mssql (joinedBy .and (equalities left row))
    ((joinedBy .and (equalities left row)).render .mssql)) _
  rw [hlogical] at agreed ⊢
  show Agree readings (((Expr.logical .and first rest).render .mssql).map Fragment.parens) _
  have parens := agreed.map (f := Fragment.parens) (g := Fragment.parens) (ψ := readings)
    fun f g h => Fragment.readings_parens h
  rwa [map_twice] at parens

/-- What is written for a membership of a row, by its parts. -/
theorem render_rowMembership {operand negated : Expr} {items : List Expr}
    (hrow : operand.isRow = true) (hitems : items ≠ []) :
    (Expr.inList operand items negated).render .mssql =
      (allOk (items.map fun row => (allOk ((operand.parts.zip row.parts).map fun p =>
        equalityOf (p.1, p.1.render .mssql) (p.2, p.2.render .mssql))).map fun pairs =>
          Fragment.parens (Fragment.join " AND " pairs))).map fun rows =>
        (if negated.isTrue then "NOT " else "") ++ Fragment.parens (Fragment.join " OR " rows) := by
  have pairs (row : Expr) :
      (operand.parts.map fun p => (p, p.render .mssql)).zipWith equalityOf
          (row.parts.map fun p => (p, p.render .mssql)) =
        (operand.parts.zip row.parts).map fun p =>
          equalityOf (p.1, p.1.render .mssql) (p.2, p.2.render .mssql) := by
    rw [List.zipWith_map, List.zip, List.map_zipWith]
  have hempty : items.isEmpty = false := by simpa using hitems
  rw [Expr.render, hempty, hrow, if_neg Bool.false_ne_true, if_pos rfl, if_pos rfl,
    zip_renderParts, zipWith_renderPartsEach, rowAlternativesOf, List.map_map, List.map_map]
  simp only [Function.comp_def, pairs]
  cases allOk (items.map fun row => (allOk ((operand.parts.zip row.parts).map fun p =>
    equalityOf (p.1, p.1.render .mssql) (p.2, p.2.render .mssql))).map fun pairs =>
      Fragment.parens (Fragment.join " AND " pairs)) <;> rfl

end

/-! ## What is bound for it -/

/-- The values that an outcome of writing binds. An error binds none. -/
def boundBy : Rendered Fragment → List Value
  | .ok f => f.values
  | .error _ => []

theorem values_parens (f : Fragment) : f.parens.values = f.values := by
  simp [Fragment.parens, Fragment.ofText, Fragment.values]

theorem boundBy_operandOf (e : Expr) (w : Rendered Fragment) :
    boundBy (operandOf e w) = boundBy w := by
  unfold operandOf
  split
  · cases w with
    | ok f => exact values_parens f
    | error _ => rfl
  · rfl

/-- An equality binds the values of its left side, then those of its right side. -/
theorem values_equalityOf {l r : Expr × Rendered Fragment} {f : Fragment}
    (h : equalityOf l r = .ok f) : f.values = boundBy l.2 ++ boundBy r.2 := by
  obtain ⟨a, ha, h⟩ := bind_eq_ok.mp h
  obtain ⟨b, hb, ⟨⟩⟩ := bind_eq_ok.mp h
  rw [← boundBy_operandOf l.1 l.2, ← boundBy_operandOf r.1 r.2, ha, hb]
  simp [boundBy, Fragment.ofText, Fragment.values]

/-- Fragments that are written one by one bind in turn what each of them has to bind. -/
theorem values_allOk {α : Type} {as : List α} {write : α → Rendered Fragment}
    {values : α → List Value} (hvalues : ∀ a ∈ as, ∀ f, write a = .ok f → f.values = values a)
    {fs : List Fragment} (h : allOk (as.map write) = .ok fs) :
    fs.flatMap Fragment.values = as.flatMap values := by
  induction as generalizing fs with
  | nil =>
    cases h
    rfl
  | cons a rest ih =>
    obtain ⟨ha, hrest⟩ := List.forall_mem_cons.mp hvalues
    obtain ⟨f, hf, h⟩ := bind_eq_ok.mp h
    obtain ⟨gs, hgs, ⟨⟩⟩ := bind_eq_ok.mp h
    rw [List.flatMap_cons, List.flatMap_cons, ha f hf, ih hrest hgs]

/-- **The items on the left are bound once for each row.** -/
theorem values_rowMembership {operand negated : Expr} {items : List Expr}
    (hrow : operand.isRow = true) (hitems : items ≠ []) {f : Fragment}
    (h : (Expr.inList operand items negated).render .mssql = .ok f) :
    f.values = items.flatMap fun row => (operand.parts.zip row.parts).flatMap fun p =>
      boundBy (p.1.render .mssql) ++ boundBy (p.2.render .mssql) := by
  rw [render_rowMembership hrow hitems] at h
  cases hrows : allOk (items.map fun row => (allOk ((operand.parts.zip row.parts).map fun p =>
      equalityOf (p.1, p.1.render .mssql) (p.2, p.2.render .mssql))).map fun pairs =>
        Fragment.parens (Fragment.join " AND " pairs)) with
  | error _ =>
    rw [hrows] at h
    cases h
  | ok rows =>
    rw [hrows] at h
    cases h
    have alternatives : rows.flatMap Fragment.values = items.flatMap fun row =>
        (operand.parts.zip row.parts).flatMap fun p =>
          boundBy (p.1.render .mssql) ++ boundBy (p.2.render .mssql) := by
      refine values_allOk (fun row _ g hg => ?_) hrows
      cases hpairs : allOk ((operand.parts.zip row.parts).map fun p =>
          equalityOf (p.1, p.1.render .mssql) (p.2, p.2.render .mssql)) with
      | error _ =>
        rw [hpairs] at hg
        cases hg
      | ok pairs =>
        rw [hpairs] at hg
        cases hg
        rw [values_parens, Fragment.values_join]
        exact values_allOk (fun p _ g hg => values_equalityOf hg) hpairs
    rw [Fragment.values_append, values_parens, Fragment.values_join, alternatives]
    cases negated.isTrue <;> rfl

/-! ## The membership as a condition -/

/-- **A membership of a row is the condition that some row is equal item by item.** For a row on the
left, whatever its items are, and at least one row in the list:

* the condition can be built, as every row of the list has as many items as the one on the left;
* SQL Server refuses the membership if and only if it refuses the condition, and for the same
  reason;
* what it writes is the condition between parentheses, negated if asked for, behind any number of
  other values, and it binds the values of the condition: for every row of the list those of each
  item on the left before those of its partner. -/
theorem rowMembership_eq_condition {operand negated : Expr} {items : List Expr}
    (hrow : operand.isRow = true) (hitems : items ≠ [])
    (hmade : Expr.makeInList operand items negated = .ok (.inList operand items negated)) :
    ∃ condition, Expr.equalsSomeRow operand items = .ok condition ∧
      (∀ row ∈ items, row.isRow = true ∧ row.parts.length = operand.parts.length) ∧
      match condition.render .mssql with
      | .error err => (Expr.inList operand items negated).render .mssql = .error err
      | .ok g => ∃ f, (Expr.inList operand items negated).render .mssql = .ok f ∧
          f.values = g.values ∧
          (∀ style n, f.spellFrom style n =
            (if negated.isTrue then "NOT " else "") ++ "(" ++ g.spellFrom style n ++ ")") ∧
          f.values = items.flatMap fun row => (operand.parts.zip row.parts).flatMap fun p =>
            boundBy (p.1.render .mssql) ++ boundBy (p.2.render .mssql) := by
  have widths : ∀ row ∈ items, row.isRow = true ∧ row.parts.length = operand.parts.length := by
    intro row hmem
    obtain ⟨es, hes, hlength⟩ := Expr.rowItems_of_makeInList hmade hrow hmem
    refine ⟨by rw [Expr.isRow, hes]; rfl, ?_⟩
    rw [Expr.parts_of_rowItems hes, hlength]
  have hpairs : ∀ row ∈ items, Expr.equalities operand row ≠ [] := by
    intro row hmem
    have first : 0 < operand.parts.length := by
      cases operand with
      | row => exact Nat.succ_pos _
      | _ => cases hrow
    apply List.ne_nil_of_length_pos
    rw [Expr.equalities, List.length_map, List.length_zip, (widths row hmem).2, Nat.min_self]
    exact first
  refine ⟨_, Expr.equalsSomeRow_eq hitems hpairs, widths, ?_⟩
  have agreed := agree_disjunction hitems hpairs
  have written : (Expr.inList operand items negated).render .mssql = _ :=
    render_rowMembership hrow hitems
  rcases agreed.cases with ⟨err, hcondition, hrows⟩ | ⟨g, rows, hcondition, hrows, hreadings⟩
  · rw [hcondition, written]
    rw [← map_twice (g := Fragment.join " OR ")
      (h := fun f => (if negated.isTrue then "NOT " else "") ++ Fragment.parens f), hrows]
    rfl
  · rw [hcondition]
    rw [← map_twice (g := Fragment.join " OR ")
      (h := fun f => (if negated.isTrue then "NOT " else "") ++ Fragment.parens f), hrows]
      at written
    obtain ⟨hvalues, htext⟩ := Prod.mk.inj hreadings
    refine ⟨_, written, ?_, fun style n => ?_, values_rowMembership hrow hitems written⟩
    · rw [Fragment.values_append, values_parens, hvalues]
      cases negated.isTrue <;> rfl
    · have text (n : Nat) : rows.spellFrom style n = g.spellFrom style n :=
        (congrFun (congrFun (congrFun htext style) _) n).symm
      have word (s : String) : (Fragment.ofText s).spellFrom style n = s := by
        simp [Fragment.spellFrom, Fragment.ofText, Fragment.write]
      -- the word in front binds nothing, so the numbers behind it begin where it began
      rw [Fragment.spellFrom_append, word, Fragment.spellFrom_parens, text, ← String.append_assoc,
        ← String.append_assoc]
      rfl

/-- A row with an operation and a bound value. -/
def pricedRow : Expr :=
  .row (.binary .add (.column .absent (.word "price")) (.literal (.int64 1)))
    [.literal (.text "eur")]

/-- Two rows of its width. -/
def pricedRows : List Expr :=
  [.row (.literal (.int64 7)) [.column .absent (.word "currency")],
    .row (.column .absent (.word "fee")) [.literal (.text "usd")]]

theorem pricedRow_eq_condition :
    pricedRow.isRow = true ∧ pricedRows ≠ [] ∧
      Expr.makeInList pricedRow pricedRows (.switch true) =
        .ok (.inList pricedRow pricedRows (.switch true)) ∧
      ∃ condition f g, Expr.equalsSomeRow pricedRow pricedRows = .ok condition ∧
        (Expr.inList pricedRow pricedRows (.switch true)).render .mssql = .ok f ∧
        condition.render .mssql = .ok g ∧ f.values = g.values ∧
        f.spellFrom (Style.plain .mssql) 4 =
          "NOT " ++ "(" ++ g.spellFrom (Style.plain .mssql) 4 ++ ")" ∧
        f.values = [.int64 1, .int64 7, .text "eur", .int64 1, .text "eur", .text "usd"] := by
  have hrow : pricedRow.isRow = true := rfl
  have hrows : pricedRows ≠ [] := nofun
  have made : Expr.makeInList pricedRow pricedRows (.switch true) =
    .ok (.inList pricedRow pricedRows (.switch true)) := rfl
  refine ⟨hrow, hrows, made, ?_⟩
  obtain ⟨condition, hcondition, -, hwritten⟩ := rowMembership_eq_condition hrow hrows made
  cases hg : condition.render .mssql with
  | error err =>
    rw [hg] at hwritten
    cases hwritten
  | ok g =>
    rw [hg] at hwritten
    obtain ⟨f, hf, hvalues, htext, hbound⟩ := hwritten
    exact ⟨condition, f, g, hcondition, hf, hg, hvalues, htext _ 4, hbound.trans rfl⟩

end SqlScribe
