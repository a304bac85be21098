import SqlScribe.Proofs.PairedLayout

/-!
# Memberships in lists

A membership of a scalar is written alike in all dialects. For a membership of a row there are three
forms: SQLite has a table of values on the right, MySQL and PostgreSQL have a list of rows, and SQL
Server compares the rows item by item. The first two write the same parts in the same order. The
third goes over the items of the left row once for every row on the right, so between it and the
others only success can be compared: each succeeds if and only if every item of every row can be
written. That needs rows of one width, which is what the check of a list of rows is for.
-/

namespace SqlScribe.Pairing

variable {c : Pairing} {e e' : Expr} {es es' : List Expr} {operand operand' : Expr}
  {items items' : List Expr}

theorem same_of_not_exact (h : ¬c.Exact) {α : Type} (a b : α) : c.Same a b := fun hx => absurd hx h

/-! ## Item by item -/

/-- The items of a row beside what a dialect writes for them. -/
abbrev beside (d : Dialect) (e : Expr) : Expr × Rendered Fragment := (e, e.render d)

theorem meets_equalities {left left' row row' : List Expr} (hl : List.Forall₂ c.Side left left')
    (hr : List.Forall₂ c.Side row row') :
    List.Forall₂ c.Meets
      ((left.map (beside c.left)).zipWith equalityOf (row.map (beside c.left)))
      ((left'.map (beside c.right)).zipWith equalityOf (row'.map (beside c.right))) := by
  induction hl generalizing row row' with
  | nil => exact .nil
  | cons hp _ ih =>
    cases hr with
    | nil => exact .nil
    | cons hq hr =>
      refine .cons ?_ (ih hr)
      exact hp.operand.bind fun _ _ hf => hq.operand.bind fun _ _ hg =>
        paired_ok (hf.congr₂ hg fun f g => f ++ " = " ++ g)

/-- Two comparisons of rows item by item. -/
theorem meets_alternatives (hx : ¬c.Exact) (hl : List.Forall₂ c.Side operand.parts operand'.parts)
    (hs : List.Forall₂ c.Twin items items') (negated : Bool) :
    c.Meets
      (rowAlternativesOf (operand.parts.map (beside c.left))
        ((items.map Expr.parts).map (List.map (beside c.left))) negated)
      (rowAlternativesOf (operand'.parts.map (beside c.right))
        ((items'.map Expr.parts).map (List.map (beside c.right))) negated) := by
  have rows : List.Forall₂ c.Meets
      (((items.map Expr.parts).map (List.map (beside c.left))).map fun row =>
        (allOk ((operand.parts.map (beside c.left)).zipWith equalityOf row)).map fun pairs =>
          Fragment.parens (Fragment.join " AND " pairs))
      (((items'.map Expr.parts).map (List.map (beside c.right))).map fun row =>
        (allOk ((operand'.parts.map (beside c.right)).zipWith equalityOf row)).map fun pairs =>
          Fragment.parens (Fragment.join " AND " pairs)) := by
    induction hs with
    | nil => exact .nil
    | cons hi _ ih =>
      exact .cons ((meets_allOk (meets_equalities hl hi.parts)).map fun _ _ _ =>
        same_of_not_exact hx _ _) ih
  exact (meets_allOk rows).bind fun _ _ _ => paired_ok (same_of_not_exact hx _ _)

/-- Two memberships in lists of rows. -/
theorem meets_rowMembership (hx : ¬c.Exact) (h : c.Twin operand operand')
    (hs : List.Forall₂ c.Twin items items') (negated : Bool) :
    c.Meets (rowMembershipOf c.left (operand.render c.left) (renderEach c.left items) negated)
      (rowMembershipOf c.right (operand'.render c.right) (renderEach c.right items') negated) :=
  h.written.bind fun _ _ _ => (meets_allOk (meets_renderEach (Twin.sides hs))).bind fun _ _ _ =>
    paired_ok (same_of_not_exact hx _ _)

/-! ## Success of a comparison of rows -/

/-- Whether the first run can write an expression. -/
def Writes (c : Pairing) (e : Expr) : Prop := (e.render c.left).isOk = true

theorem Side.tells_left (h : c.Side e e') : Tells c.Allows (c.Writes e) (e.render c.left) :=
  h.written.tells_left

theorem Side.tells_right (h : c.Side e e') : Tells c.Allows (c.Writes e) (e'.render c.right) :=
  h.written.tells

theorem tells_operandOf {P : Prop} {w : Rendered Fragment} (h : Tells c.Allows P w) :
    Tells c.Allows P (operandOf e w) := by
  unfold operandOf
  split
  · exact h.map
  · exact h

theorem tells_sides (h : List.Forall₂ c.Side es es') :
    List.Forall₂ (fun e w => Tells c.Allows (c.Writes e) w) es (renderEach c.left es) := by
  induction h with
  | nil => exact .nil
  | cons he _ ih => exact .cons he.tells_left ih

/-- A row can be written if its items can. -/
theorem tells_row (ht : c.Typed) (hrow : operand.isRow = true)
    (h : List.Forall₂ c.Side operand.parts operand'.parts) :
    Tells c.Allows (∀ p ∈ operand.parts, c.Writes p) (operand.render c.left) := by
  cases operand with
  | row first rest =>
    refine Tells.map ?_
    refine ((Tells.allOk (tells_sides h)).bind fun fs => ?_).congr (and_iff_left trivial)
    rw [requireTexts_sides ht (show List.Forall₂ c.Side (first :: rest) _ from h)]
    exact tells_ok fs
  | _ => cases hrow

/-- A membership in a list of rows can be written if all items of all rows can. -/
theorem tells_rowMembership (d : Dialect) (ht : c.Typed) (hrow : operand.isRow = true)
    (hrows : ∀ i ∈ items, i.isRow = true)
    (hl : List.Forall₂ c.Side operand.parts operand'.parts)
    (hs : List.Forall₂ c.Twin items items') (negated : Bool) :
    Tells c.Allows
      ((∀ p ∈ operand.parts, c.Writes p) ∧ ∀ i ∈ items, ∀ p ∈ i.parts, c.Writes p)
      (rowMembershipOf d (operand.render c.left) (renderEach c.left items) negated) := by
  have rows : List.Forall₂ (fun i w => Tells c.Allows (∀ p ∈ i.parts, c.Writes p) w) items
      (renderEach c.left items) := by
    induction hs with
    | nil => exact .nil
    | cons hi _ ih =>
      obtain ⟨hr, hrest⟩ := List.forall_mem_cons.mp hrows
      exact .cons (tells_row ht hr hi.parts) (ih hrest)
  refine (tells_row ht hrow hl).bind fun left => ?_
  exact ((Tells.allOk rows).bind fun fs => tells_ok _).congr (and_iff_left trivial)

/-- The same with a comparison item by item, as the second run makes it. -/
theorem tells_alternatives (hl : List.Forall₂ c.Side operand.parts operand'.parts)
    (hs : List.Forall₂ c.Twin items items') (negated : Bool) :
    Tells c.Allows
      (∀ i ∈ items, ∀ q ∈ operand.parts.zip i.parts, c.Writes q.1 ∧ c.Writes q.2)
      (rowAlternativesOf (operand'.parts.map (beside c.right))
        ((items'.map Expr.parts).map (List.map (beside c.right))) negated) := by
  -- on the items of the operand; a row that is shorter has fewer pairs
  have pairs : ∀ {left left' row row' : List Expr}, List.Forall₂ c.Side left left' →
      List.Forall₂ c.Side row row' →
      List.Forall₂ (fun q w => Tells c.Allows (c.Writes q.1 ∧ c.Writes q.2) w) (left.zip row)
        ((left'.map (beside c.right)).zipWith equalityOf (row'.map (beside c.right))) := by
    intro left left' row row' hleft hr
    induction hleft generalizing row row' with
    | nil => exact .nil
    | cons hp _ ih =>
      cases hr with
      | nil => exact .nil
      | cons hq hr =>
        refine .cons ?_ (ih hr)
        refine (tells_operandOf hp.tells_right).bind fun l => ?_
        exact ((tells_operandOf hq.tells_right).bind fun r => tells_ok _).congr
          (and_iff_left trivial)
  have rows : List.Forall₂ (fun i w => Tells c.Allows
        (∀ q ∈ operand.parts.zip i.parts, c.Writes q.1 ∧ c.Writes q.2) w) items
      (((items'.map Expr.parts).map (List.map (beside c.right))).map fun row =>
        (allOk ((operand'.parts.map (beside c.right)).zipWith equalityOf row)).map fun pairs =>
          Fragment.parens (Fragment.join " AND " pairs)) := by
    induction hs with
    | nil => exact .nil
    | cons hi _ ih => exact .cons (Tells.allOk (pairs hl hi.parts)).map ih
  exact ((Tells.allOk rows).bind fun fs => tells_ok _).congr (and_iff_left trivial)

/-- In rows of one width every item is one of a pair. -/
theorem forall_zip_iff {P : Expr → Prop} {left row : List Expr} (h : row.length = left.length) :
    (∀ q ∈ left.zip row, P q.1 ∧ P q.2) ↔ (∀ p ∈ left, P p) ∧ ∀ p ∈ row, P p := by
  have hl : (left.zip row).map Prod.fst = left := List.map_fst_zip (Nat.le_of_eq h.symm)
  have hr : (left.zip row).map Prod.snd = row := List.map_snd_zip (Nat.le_of_eq h)
  constructor
  · intro hzip
    refine ⟨fun p hp => ?_, fun p hp => ?_⟩
    · obtain ⟨q, hq, rfl⟩ := List.mem_map.mp (hl ▸ hp)
      exact (hzip q hq).1
    · obtain ⟨q, hq, rfl⟩ := List.mem_map.mp (hr ▸ hp)
      exact (hzip q hq).2
  · rintro ⟨hleft, hrow⟩ q hq
    exact ⟨hleft _ (hl ▸ List.mem_map_of_mem hq), hrow _ (hr ▸ List.mem_map_of_mem hq)⟩

/-! ## Memberships -/

theorem isRow_eq (e : Expr) : e.isRow = e.width?.isSome := by
  rw [Expr.isRow, Expr.width?, Option.isSome_map]

theorem length_parts_of_isRow (h : e.isRow = true) : e.width? = some e.parts.length := by
  cases e with
  | row first rest => rfl
  | _ => cases h

/-- A comparison of rows, written as a list by the first run and item by item by the second. -/
theorem meets_rows (ht : c.Typed) (hx : ¬c.Exact) (hrow : operand.isRow = true)
    (hne : items ≠ []) (hw : ∀ i ∈ items, i.width? = operand.width?)
    (h : c.Twin operand operand') (hs : List.Forall₂ c.Twin items items') (d : Dialect)
    (negated : Bool) :
    c.Meets (rowMembershipOf d (operand.render c.left) (renderEach c.left items) negated)
      (rowAlternativesOf (operand'.parts.map (beside c.right))
        ((items'.map Expr.parts).map (List.map (beside c.right))) negated) := by
  have hrows : ∀ i ∈ items, i.isRow = true := fun i hi => by
    rw [isRow_eq, hw i hi, ← isRow_eq, hrow]
  have hlen : ∀ i ∈ items, i.parts.length = operand.parts.length := fun i hi => by
    have := hw i hi
    rw [length_parts_of_isRow (hrows i hi), length_parts_of_isRow hrow] at this
    exact Option.some.inj this
  -- as every row has the width of the operand, pairing the items loses none
  have items_iff : (∀ i ∈ items, ∀ q ∈ operand.parts.zip i.parts, c.Writes q.1 ∧ c.Writes q.2) ↔
      (∀ p ∈ operand.parts, c.Writes p) ∧ ∀ i ∈ items, ∀ p ∈ i.parts, c.Writes p := by
    rw [forall₂_congr fun i hi => forall_zip_iff (hlen i hi)]
    obtain ⟨i, rest, rfl⟩ := List.exists_cons_of_ne_nil hne
    constructor
    · exact fun h => ⟨(h i List.mem_cons_self).1, fun j hj => (h j hj).2⟩
    · exact fun h j hj => ⟨h.1, h.2 j hj⟩
  refine (paired_of_tells (tells_rowMembership d ht hrow hrows h.parts hs negated)
    ((tells_alternatives h.parts hs negated).congr items_iff)).mono fun _ _ _ => ?_
  exact same_of_not_exact hx _ _

/-- Two memberships in lists of twins are twins. -/
theorem twin_inList (h : c.Twin operand operand') (hs : List.Forall₂ c.Twin items items')
    (negated : Flag) (hrow : c.Exact → operand.isRow = false)
    (hw : c.Typed → ∀ i ∈ items, i.width? = operand.width?) :
    c.Twin (.inList operand items negated) (.inList operand' items' negated) := by
  have hempty : items'.isEmpty = items.isEmpty := by cases hs <;> rfl
  refine .plain rfl ?_
  rw [Expr.render, Expr.render, hempty, h.row]
  split
  · exact paired_ok (same_refl _)
  next hne =>
  split
  next hr =>
    have hx : ¬c.Exact := fun hx => Bool.false_ne_true ((hrow hx).symm.trans hr)
    have hne : items ≠ [] := fun hn => hne (by rw [hn]; rfl)
    rw [zip_renderParts, zipWith_renderPartsEach, zip_renderParts, zipWith_renderPartsEach]
    -- in one dialect both sides take the same form, and only SQL Server has one of its own
    cases c with
    | shared => exact absurd trivial hx
    | alone d =>
      by_cases hd : d = .mssql
      · subst hd
        exact meets_alternatives hx h.parts hs _
      · rw [if_neg (show left (.alone d) ≠ .mssql from hd),
          if_neg (show right (.alone d) ≠ .mssql from hd)]
        exact meets_rowMembership hx h hs _
    | portable d =>
      rw [if_neg (show left (.portable d) ≠ .mssql from nofun)]
      by_cases hd : d = .mssql
      · subst hd
        -- a row beside its items: both succeed if all their parts do
        exact meets_rows (show Typed (.portable _) from trivial) hx hr hne (hw trivial) h hs _ _
      · rw [if_neg (show right (.portable d) ≠ .mssql from hd)]
        exact meets_rowMembership hx h hs _
  · exact h.operand.bind fun _ _ hf => (meets_texts (Twin.sides hs)).bind fun _ _ hfs =>
      paired_ok <| hf.congr₂ hfs.2 fun f fs =>
        f ++ " " ++ keyword negated.isTrue "IN" ++ " " ++ Fragment.tuple fs

end SqlScribe.Pairing
