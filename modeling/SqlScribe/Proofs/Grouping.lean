import SqlScribe.Proofs.PartsWalk

/-!
# Operators outside of comparisons

Texts that are joined and, in PostgreSQL, tests on JSON arrays and searches are written with an
operator between the children of a node, as comparisons are. A compound child of a comparison stands
in its own parentheses. Here it depends on the place of the child: the document of a test is an
operand like any other, some children are arguments of a call, and the rest are written bare, as
they are by themselves. A compound child in a bare place is not held together, so the operators in
it and the one around it are taken in the order that SQL gives them, not in that of the tree.

`Expr.infix?` says which places a node has. The result is about whole trees: wherever such a node
stands in a tree, its children stand in what is written for the tree as their places say, and a
compound child is held together if and only if its place is not bare.
-/

namespace SqlScribe

/-! ## Forms with an operator -/

/-- How a child stands beside an operator. -/
inductive Standing where
  /-- As an operand: between parentheses if it is compound. -/
  | operand
  /-- As the first argument of a call. -/
  | argument (function : String) (more : List Fragment)
  /-- Inside of a cast. -/
  | cast (type : String)
  /-- As it is by itself. -/
  | bare

/-- A child with what is written for it, as it stands beside an operator. -/
def Standing.lay (child : Expr) (f : Fragment) : Standing → Fragment
  | .operand => if child.isCompound then f.parens else f
  | .argument function more => callText function (f :: more)
  | .cast type => Dialect.castTo f type
  | .bare => f

namespace Fragment

/-- Fragments with another between them. -/
def interleave (operator : Fragment) : List Fragment → Fragment
  | [] => empty
  | [f] => f
  | f :: rest => f ++ operator ++ interleave operator rest

theorem interleave_ofText (operator : String) (fs : List Fragment) :
    interleave (ofText operator) fs = join operator fs := by
  induction fs with
  | nil => rfl
  | cons f rest ih =>
    cases rest with
    | nil => rfl
    | cons g rest => rw [interleave, join, ih] <;> simp

end Fragment

/-- A form with an operator between the children of a node, and with something around them. -/
structure Infix where
  operator : Fragment
  children : List (Expr × Standing)
  frame : Fragment → Fragment

/-- The form with the pieces of its children put in. -/
def Infix.text (form : Infix) (pieces : List Fragment) : Fragment :=
  form.frame (Fragment.interleave form.operator pieces)

/-- The operator that joins texts, where a dialect has one. -/
def Dialect.joiner? : Dialect → Option Fragment
  | .sqlite | .postgres => some " || "
  | .mssql => some " + "
  | .mysql => none

/-- The form of a test on an end of a JSON array, where a dialect has it. -/
def edgeInfix? (d : Dialect) (document value : Expr) (edge : ArrayEdge) (negated : Bool) :
    Option Infix :=
  match d with
  | .sqlite =>
    let path := match edge with | .first => "'$[0]'" | .last => "'$[#-1]'"
    some ⟨" -> " ++ path ++ " = ", [(document, .operand), (value, .argument "json" [])],
      negatedIf negated⟩
  | .mysql =>
    let path := match edge with | .first => "'$[0]'" | .last => "'$[last]'"
    some ⟨" = ", [(document, .argument "JSON_EXTRACT" [path]), (value, .cast "JSON")],
      negatedIf negated⟩
  | .postgres =>
    let index := match edge with | .first => "0" | .last => "-1"
    some ⟨"->" ++ index ++ " = ", [(document, .operand), (value, .bare)], negatedIf negated⟩
  | .mssql => none

/-- The form of a node outside of comparisons that has an operator between its children. -/
def Expr.infix? (d : Dialect) : Expr → Option Infix
  | .concat (first :: second :: rest) => d.joiner?.map fun operator =>
    ⟨operator, (first :: second :: rest).map fun part => (part, .bare), Fragment.parens⟩
  | .jsonContains document value negated =>
    if d = .postgres then
      some ⟨" @> ", [(document, .operand), (value, .bare)], negatedIf negated.isTrue⟩
    else none
  | .jsonEdge document value edge negated => edgeInfix? d document value edge negated.isTrue
  | .matches search query negated =>
    if d = .postgres then
      some ⟨" @@ ", [(search, .bare), (query, .argument "to_tsquery" [])],
        negatedIf negated.isTrue⟩
    else none
  | _ => none

/-- Whether a piece is a child as it stands beside its operator. -/
def Laid (d : Dialect) (child : Expr × Standing) (piece : Fragment) : Prop :=
  ∃ f, child.1.render d = .ok f ∧ piece = child.2.lay child.1 f

/-- Whether a piece holds a fragment together: it stands between its own parentheses or inside of a
call. -/
inductive Encloses (f : Fragment) : Fragment → Prop
  | parens : Encloses f f.parens
  | argument (function : String) {args : List Fragment} (h : f ∈ args) :
    Encloses f (callText function args)
  | cast (type : String) : Encloses f (Dialect.castTo f type)

/-- Whether a piece holds together what is written for an expression. -/
def Groups (d : Dialect) (e : Expr) (piece : Fragment) : Prop :=
  ∃ f, e.render d = .ok f ∧ Encloses f piece

/-! ## What is written -/

section

variable {d : Dialect} {e : Expr} {f : Fragment}

theorem operandOf_eq (e : Expr) (written : Rendered Fragment) :
    operandOf e written = written.map fun f => Standing.operand.lay e f := by
  unfold operandOf Standing.lay
  cases e.isCompound <;> cases written <;> rfl

theorem laid_bare (h : e.render d = .ok f) : Laid d (e, .bare) f := ⟨f, h, rfl⟩

theorem laid_operand (h : operandOf e (e.render d) = .ok f) : Laid d (e, .operand) f := by
  rw [operandOf_eq] at h
  cases hw : e.render d with
  | error r => rw [hw] at h; cases h
  | ok g =>
    rw [hw] at h
    cases h
    exact ⟨g, hw, rfl⟩

theorem laid_argument (h : e.render d = .ok f) (function : String) (more : List Fragment) :
    Laid d (e, .argument function more) (callText function (f :: more)) :=
  ⟨f, h, rfl⟩

/-- The pieces of a form with two children. -/
theorem laid_pair {l r : Expr × Standing} {p q : Fragment} (hl : Laid d l p) (hr : Laid d r q) :
    List.Forall₂ (Laid d) [l, r] [p, q] :=
  .cons hl (.cons hr .nil)

theorem concatenated_eq {operator : Fragment} (hd : d.joiner? = some operator)
    {fs : List Fragment} (hne : fs ≠ []) :
    d.concatenated fs = (Fragment.interleave operator fs).parens := by
  obtain ⟨f, fs, rfl⟩ := List.exists_cons_of_ne_nil hne
  cases d with
  | mysql => cases hd
  | sqlite | postgres | mssql =>
    cases hd
    rw [Fragment.interleave_ofText]
    rfl

theorem edge_laid {document value : Expr} {edge : ArrayEdge} {negated : Bool} {form : Infix}
    (hform : edgeInfix? d document value edge negated = some form)
    (h : jsonEdgeSql d document (document.render d) (value.render d) edge negated = .ok f) :
    ∃ pieces, List.Forall₂ (Laid d) form.children pieces ∧ f = form.text pieces := by
  -- SQL Server has no such form, and the others each have their own
  cases d with
  | mssql => cases hform
  | mysql =>
    cases hform
    obtain ⟨l, hl, h⟩ := bind_eq_ok.mp h
    obtain ⟨r, hr, h⟩ := bind_eq_ok.mp h
    cases h
    exact ⟨_, laid_pair (laid_argument hl _ _) ⟨r, hr, rfl⟩, rfl⟩
  | sqlite =>
    cases hform
    obtain ⟨l, hl, h⟩ := bind_eq_ok.mp h
    obtain ⟨r, hr, h⟩ := bind_eq_ok.mp h
    cases h
    refine ⟨_, laid_pair (laid_operand hl) (laid_argument hr _ _), ?_⟩
    cases edge <;> simp [Infix.text, Fragment.interleave, Fragment.append_assoc]
  | postgres =>
    cases hform
    obtain ⟨l, hl, h⟩ := bind_eq_ok.mp h
    obtain ⟨r, hr, h⟩ := bind_eq_ok.mp h
    cases h
    refine ⟨_, laid_pair (laid_operand hl) (laid_bare hr), ?_⟩
    cases edge <;> simp [Infix.text, Fragment.interleave, Fragment.append_assoc]

/-- A node with an operator is written as its form says. -/
theorem infix_laid {form : Infix} (hform : e.infix? d = some form) (h : e.render d = .ok f) :
    ∃ pieces, List.Forall₂ (Laid d) form.children pieces ∧ f = form.text pieces := by
  unfold Expr.infix? at hform
  -- a concatenation, containment, the end of an array and full-text search have operators
  split at hform
  next first second rest =>
    obtain ⟨operator, hd, rfl⟩ := Option.map_eq_some_iff.mp hform
    rw [Expr.render, renderEach_eq_map] at h
    cases hw : textsOf (first :: second :: rest) _ with
    | error r => rw [hw] at h; cases h
    | ok fs =>
      rw [hw] at h
      cases h
      have each : List.Forall₂ (fun part f => part.render d = .ok f) (first :: second :: rest) fs :=
        yields_textsOf _ (List.forall₂_map_right_iff.mpr
          (List.forall₂_same.mpr fun part _ f hf => hf)) fs hw
      -- no part is left out, so what stands between the parts is the operator of the form
      have hne : fs ≠ [] := by rintro rfl; cases each
      refine ⟨fs, ?_, concatenated_eq hd hne⟩
      exact List.forall₂_map_left_iff.mpr (each.imp fun _ _ hpart => laid_bare hpart)
  next document value negated =>
    split at hform
    next hd =>
      subst hd
      cases hform
      obtain ⟨l, hl, h⟩ := bind_eq_ok.mp h
      obtain ⟨r, hr, h⟩ := bind_eq_ok.mp h
      cases h
      exact ⟨_, laid_pair (laid_operand hl) (laid_bare hr), rfl⟩
    next => cases hform
  next document value edge negated => exact edge_laid hform h
  next search query negated =>
    split at hform
    next hd =>
      subst hd
      cases hform
      obtain ⟨l, hl, h⟩ := bind_eq_ok.mp h
      obtain ⟨r, hr, h⟩ := bind_eq_ok.mp h
      cases h
      exact ⟨_, laid_pair (laid_bare hl) (laid_argument hr _ _), rfl⟩
    next => cases hform
  next => cases hform

/-! ## What holds a child together -/

/-- The number of texts, names and slots of a fragment. -/
def Fragment.cells : Fragment → Nat
  | .empty => 0
  | .text _ rest | .name _ rest | .slot _ rest => rest.cells + 1
  | .crossed first second rest => first.cells + second.cells + rest.cells

theorem cells_append (f g : Fragment) : (f ++ g).cells = f.cells + g.cells := by
  induction f with
  | empty => simp [Fragment.cells]
  | text s rest ih | name n rest ih | slot v rest ih => simp [Fragment.cells, ih]; omega
  | crossed a b rest _ _ ih => simp [Fragment.cells, ih]; omega

theorem cells_le_of_partOf {f g : Fragment} (h : g.PartOf f) : g.cells ≤ f.cells := by
  induction h with
  | self => exact Nat.le_refl _
  | left f' _ ih => rw [cells_append]; omega
  | right f _ ih => rw [cells_append]; omega
  | first b _ ih => simp only [Fragment.cross, Fragment.cells]; omega
  | second a _ ih => simp only [Fragment.cross, Fragment.cells]; omega

theorem cells_parens (f : Fragment) : f.parens.cells = f.cells + 2 := by
  simp only [Fragment.parens, cells_append, Fragment.ofText, Fragment.cells]
  omega

/-- Nothing encloses itself. -/
theorem not_encloses_self (f : Fragment) : ¬Encloses f f := by
  intro h
  -- whatever encloses a fragment adds a text of its own
  have larger : ∀ g, Encloses f g → f.cells < g.cells := by
    intro g hg
    cases hg with
    | parens => rw [cells_parens]; omega
    | argument function hmem =>
      have part : f.PartOf (Fragment.join ", " _) :=
        Fragment.partOf_join (Fragment.within_of_mem hmem)
      have inside := cells_le_of_partOf part
      rw [callText, cells_append, Fragment.tuple, cells_parens]
      omega
    | cast type =>
      simp only [Dialect.castTo, cells_append, Fragment.ofText, Fragment.cells]
      omega
  exact Nat.lt_irrefl _ (larger f h)

/-- A compound child is held together unless its place is bare. -/
theorem groups_iff {child : Expr × Standing} {piece : Fragment} (h : Laid d child piece)
    (hcompound : child.1.isCompound = true) : Groups d child.1 piece ↔ child.2 ≠ .bare := by
  obtain ⟨e, standing⟩ := child
  obtain ⟨f, hf, rfl⟩ := h
  cases standing with
  | operand =>
    refine ⟨fun _ => nofun, fun _ => ⟨f, hf, ?_⟩⟩
    rw [Standing.lay, if_pos hcompound]
    exact .parens
  | argument function more =>
    exact ⟨fun _ => nofun, fun _ => ⟨f, hf, .argument function List.mem_cons_self⟩⟩
  | cast type => exact ⟨fun _ => nofun, fun _ => ⟨f, hf, .cast type⟩⟩
  | bare =>
    -- the piece is the child as it is by itself
    refine ⟨fun ⟨g, hg, hin⟩ => ?_, fun hne => absurd rfl hne⟩
    obtain rfl := Except.ok.inj (hf.symm.trans hg)
    exact absurd hin (not_encloses_self f)

end

/-- No node with an operator is left out of what is written around it. -/
theorem stands_of_infix {d : Dialect} {e : Expr} {form : Infix} (h : e.infix? d = some form) :
    (Tree.expr e).stands = true := by
  unfold Expr.infix? at h
  split at h
  · rfl
  · rfl
  · rfl
  · rfl
  · cases h

/-- **A compound child beside an operator is held together exactly where it is not bare.** Wherever
a node with an operator outside of comparisons is written, at any nesting, it is written as its form
says: the pieces of its children, in order, with the operator between them. The piece of a compound
child has the child between parentheses of its own or inside of a call if and only if the form does
not take the child bare. -/
theorem Tree.infix_groups_iff (d : Dialect) (t : Tree) {f : Fragment} (h : t.render d = .ok f)
    {e : Expr} (he : Tree.expr e ∈ t.writtenNodes d) {form : Infix}
    (hform : e.infix? d = some form) :
    ∃ pieces, List.Forall₂ (Laid d) form.children pieces ∧ (form.text pieces).PartOf f ∧
      ∀ child piece, (child, piece) ∈ form.children.zip pieces → child.1.isCompound = true →
        (Groups d child.1 piece ↔ child.2 ≠ .bare) := by
  have shown : e.render d ∈ t.outcomes d :=
    List.mem_map_of_mem (f := Tree.render d)
      (List.mem_filter.mpr ⟨he, stands_of_infix hform⟩)
  obtain ⟨g, hg, hin⟩ := (walked d t).outcomes f h _ shown
  obtain ⟨pieces, hlaid, rfl⟩ := infix_laid hform hg
  refine ⟨pieces, hlaid, within_sole.mp hin, fun child piece hmem hcompound => ?_⟩
  exact groups_iff (List.forall₂_zip hlaid hmem) hcompound

/-- A comparison of two columns. -/
def comparedColumns : Expr :=
  .binary .eq (.column .absent (.word "a")) (.column .absent (.word "b"))

/-- A negated test whether a document contains the outcome of a comparison. -/
def containedComparison : Expr :=
  .not (.jsonContains (.column .absent (.word "doc")) comparedColumns (.switch false))

/-- PostgreSQL reads this as a comparison of `doc @> a` with `b`. -/
theorem containedComparison_ungrouped :
    ∃ f l r : Fragment, containedComparison.render .postgres = .ok f ∧
      f.spell (.plain .postgres) = "NOT (doc @> a = b)" ∧
      (l ++ " @> " ++ r).PartOf f ∧ ¬Groups .postgres comparedColumns r := by
  have inside : Tree.expr (.jsonContains (.column .absent (.word "doc")) comparedColumns
      (.switch false)) ∈ (Tree.expr containedComparison).writtenNodes .postgres := by
    rw [Tree.writtenNodes_eq]
    refine List.mem_cons_of_mem _ (List.mem_flatMap.mpr ⟨_, List.mem_singleton_self _, ?_⟩)
    rw [Tree.writtenNodes_eq]
    exact List.mem_cons_self
  obtain ⟨pieces, hlaid, hpart, hgroups⟩ :=
    Tree.infix_groups_iff .postgres (.expr containedComparison) rfl inside rfl
  obtain ⟨l, _, -, htail, rfl⟩ := List.forall₂_cons_left_iff.mp hlaid
  obtain ⟨r, _, -, hnil, rfl⟩ := List.forall₂_cons_left_iff.mp htail
  obtain rfl := List.forall₂_nil_left_iff.mp hnil
  refine ⟨_, l, r, rfl, by decide +kernel, hpart, fun h => ?_⟩
  have second : ((comparedColumns, Standing.bare), r) ∈
      [(Expr.column .absent (.word "doc"), Standing.operand), (comparedColumns, .bare)].zip
        [l, r] :=
    List.mem_cons_of_mem _ List.mem_cons_self
  exact (hgroups _ _ second rfl).mp h rfl

end SqlScribe
