import SqlScribe.Proofs.ReadBack
import SqlScribe.Proofs.Throughout

/-!
# Formulas are written without ambiguity

Whatever is written for a formula, as an operand, as a condition or by itself, is read back as its
normal form (`legible`). A text and its values determine the pieces that are read, so two formulas
with the same text and the same values have the same normal form: they differ at most in the case of
letters in names of functions and in the spelling of a missing table.
-/

namespace SqlScribe

open List (Forall₂)

variable {style : Style} {e a b c : Expr}

/-! ## Normal forms are written alike -/

/-- Lists are brought to normal form member by member. -/
theorem normals_eq_map (es : List Expr) : Expr.normals es = es.map Expr.normal := by
  induction es with
  | nil => rfl
  | cons e rest ih => rw [Expr.normals, ih, List.map_cons]

section

variable (d : Dialect)

/-- A name is written alike when it is stored as a plain text. -/
theorem nameOf_plainName (n : Name) : nameOf n.plainName = nameOf n := by
  unfold Expr.plainName
  split
  next s hs => rw [nameOf, nameOf, hs, Expr.asText?_word]
  · rfl

/-- A text is true if it is not empty. -/
theorem isTrue_plainName (n : Name) : n.plainName.isTrue = n.isTrue := by
  unfold Expr.plainName
  split
  next s hs =>
    have view : n.view = .text s ∨ n.view = .textLabel s := by
      rw [Expr.asText?] at hs
      cases hv : n.view <;> rw [hv] at hs <;> cases hs
      · exact .inl rfl
      · exact .inr rfl
    rcases view with hv | hv <;> rw [Expr.isTrue, Expr.isTrue, hv] <;> rfl
  · rfl

/-- A missing qualifier may be spelled in any way. -/
theorem qualified_plain (table name : Name) :
    qualified table.plainTable name.plainName = qualified table name := by
  unfold Expr.plainTable
  split
  · rw [qualified, qualified, nameIn, nameIn, isTrue_plainName, nameOf_plainName, nameOf_plainName]
  next h =>
    have absent : ¬Expr.absent.isTrue = true := Bool.false_ne_true
    rw [qualified, qualified, if_neg h, if_neg absent, nameOf_plainName]

theorem operandOf_normal (w : Rendered Fragment) : operandOf e.normal w = operandOf e w := by
  have compound : e.normal.isCompound = e.isCompound := by cases e <;> rfl
  rw [operandOf, operandOf, compound]

/-- Normal forms are the same kind of condition. -/
theorem predicateOf_normal (w : Rendered Fragment) :
    predicateOf d e.normal w = predicateOf d e w := by
  cases e <;> cases d <;> rfl

theorem conditionOf_normal (w : Rendered Fragment) :
    conditionOf d e.normal w = conditionOf d e w := by
  have logical : e.normal.isLogical = e.isLogical := by cases e <;> rfl
  rw [conditionOf, conditionOf, predicateOf_normal, logical]

theorem bare_normal : e.normal.bare? = e.bare? := by cases e <;> rfl

/-- Texts are missing in normal forms where they are missing without. -/
theorem textsOf_normals (es : List Expr) (ws : List (Rendered Fragment)) :
    textsOf (Expr.normals es) ws = textsOf es ws := by
  have texts : requireTexts (Expr.normals es) = requireTexts es := by
    simp only [requireTexts, normals_eq_map, List.any_map, Function.comp_def, bare_normal]
  rw [textsOf, textsOf, texts]

/-- Lists of conditions are laid out alike. -/
theorem conditionsOf_normals (op : Connective) (es : List Expr) (ws : List (Rendered Fragment)) :
    conditionsOf d op (Expr.normals es) ws = conditionsOf d op es ws := by
  have conditions : (Expr.normals es).zipWith (conditionOf d) ws =
      es.zipWith (conditionOf d) ws := by
    rw [normals_eq_map, List.zipWith_map_left]
    exact congrArg (fun f => es.zipWith f ws) (funext₂ fun _ w => conditionOf_normal d w)
  rw [conditionsOf, conditionsOf, conditions, textsOf_normals]

/-- Memberships are laid out alike. -/
theorem membershipOf_normal (w : Rendered Fragment) (es : List Expr) (ws : List (Rendered Fragment))
    (negated : Bool) :
    membershipOf e.normal w (Expr.normals es) ws negated = membershipOf e w es ws negated := by
  rw [membershipOf, membershipOf, operandOf_normal, textsOf_normals]

theorem parts_normal : e.normal.parts = e.parts := by cases e <;> rfl

/-- What is written for these items is kept with them. -/
theorem renderParts_normal : e.normal.renderParts d = e.renderParts d := by cases e <;> rfl

/-- The same for a list of rows. -/
theorem map_parts_normals (es : List Expr) :
    (Expr.normals es).map Expr.parts = es.map Expr.parts := by
  rw [normals_eq_map, List.map_map]
  exact List.map_congr_left fun e _ => parts_normal

/-- The same for what is written for a list of rows. -/
theorem renderPartsEach_normals (es : List Expr) :
    renderPartsEach d (Expr.normals es) = renderPartsEach d es := by
  induction es with
  | nil => rfl
  | cons e rest ih =>
    rw [Expr.normals, renderPartsEach, renderPartsEach, ih, renderParts_normal]

mutual

/-- The normal form is written as the expression is. -/
theorem Expr.render_normal : ∀ e : Expr, e.normal.render d = e.render d
  | .column table name => by rw [Expr.normal, Expr.render, Expr.render, qualified_plain]
  | .not a => by
    rw [Expr.normal, Expr.render, Expr.render, operandOf_normal, predicateOf_normal,
      Expr.render_normal a]
  | .isNull a negated => by
    rw [Expr.normal, Expr.render, Expr.render, operandOf_normal, Expr.render_normal a]
  | .binary op a b => by
    rw [Expr.normal, Expr.render, Expr.render, operandOf_normal, operandOf_normal,
      Expr.render_normal a, Expr.render_normal b]
  | .logical op first rest => by
    have conditions := conditionsOf_normals d op (first :: rest)
    rw [Expr.normal, Expr.render, Expr.render, ← Expr.normals, conditions,
      Expr.render_normal first, renderEach_normals rest]
  | .inList a items negated => by
    have empty : (Expr.normals items).isEmpty = items.isEmpty := by cases items <;> rfl
    have row : a.normal.isRow = a.isRow := by cases a <;> rfl
    rw [Expr.normal, Expr.render, Expr.render, empty, row, parts_normal, renderParts_normal,
      map_parts_normals, renderPartsEach_normals, membershipOf_normal, Expr.render_normal a,
      renderEach_normals items]
  | .between a b c negated => by
    rw [Expr.normal, Expr.render, Expr.render, operandOf_normal, operandOf_normal, operandOf_normal,
      Expr.render_normal a, Expr.render_normal b, Expr.render_normal c]
  | .call name args distinct => by
    rw [Expr.normal, Expr.render, Expr.render, textsOf_normals, renderEach_normals args,
      name.capitals_upper]
  | .star _ | .literal _ | .truth _ | .inQuery .. | .exists .. | .scalar _ | .row .. | .cast ..
  | .coalesce _ | .concat _ | .aggregateText _ | .sorted .. | .window .. | .over ..
  | .jsonExtract .. | .jsonContains .. | .jsonEdge .. | .jsonType .. | .textSearch ..
  | .matches .. | .rowToJson .. | .excluded _ | .raw .. | .image .. | .tuple _ | .foreign _ => rfl

/-- Lists are written like their normal forms. -/
theorem renderEach_normals : ∀ es : List Expr, renderEach d (Expr.normals es) = renderEach d es
  | [] => rfl
  | e :: rest => by
    rw [Expr.normals, renderEach, renderEach, Expr.render_normal e, renderEach_normals rest]

end

end

/-! ## Columns -/

/-- What is written for a column is read back as its normal form. -/
theorem yields_column {table name : Name} (ht : table.isName = true) (hn : name.isText = true) :
    Yields (Operand style (Expr.column table name).normal) (qualified table name) := by
  obtain ⟨s, hs⟩ := Option.isSome_iff_exists.mp hn
  have hname : nameOf name = .ok (Fragment.ofName s) := by rw [nameOf, hs]
  have hplain : name.plainName = .word s := by rw [Expr.plainName, hs]
  unfold qualified Expr.normal Expr.plainTable
  -- the qualifier is written if it is there; otherwise its normal form is none
  split
  next htrue =>
    obtain ⟨t, ht⟩ := Option.isSome_iff_exists.mp (Expr.isText_of_isTrue ht htrue)
    have htable : nameOf table = .ok (Fragment.ofName t) := by rw [nameOf, ht]
    have hplainTable : table.plainName = .word t := by rw [Expr.plainName, ht]
    rw [nameIn, htable, hname, hplain, hplainTable]
    refine yields_ok (operand_columnPieces (some t) s ?_)
    simp [columnPieces, spelt]
  · rw [hname, hplain]
    exact yields_ok (operand_columnPieces none s (Fragment.pieces_ofName s))

/-! ## Legible expressions -/

/-- An expression is legible if each thing that is written for it is read back. -/
structure Legible (style : Style) (e : Expr) : Prop where
  predicate : ∀ w, predicateOf style.dialect e w = w
  operand : Yields (Operand style e.normal) (operandOf e (e.render style.dialect))
  condition :
    Yields (Condition style e.normal) (conditionOf style.dialect e (e.render style.dialect))
  whole : Yields (Whole style e.normal) (e.render style.dialect)

/-- Only a constant is written otherwise where a condition is expected. -/
theorem predicateOf_eq (h : ∀ v, e ≠ .truth v) (d : Dialect) (w : Rendered Fragment) :
    predicateOf d e w = w := by
  cases e with
  | truth v => exact absurd rfl (h v)
  | _ => cases d <;> rfl

/-- A formula that stands without parentheses anywhere is legible if it is read back as an operand.
-/
theorem legible_of_operand (hc : e.isCompound = false) (hl : e.isLogical = false)
    (ht : ∀ v, e ≠ .truth v) (h : Yields (Operand style e.normal) (e.render style.dialect)) :
    Legible style e where
  predicate := predicateOf_eq ht _
  operand := by
    rw [operandOf, hc]
    exact h
  condition := by
    rw [conditionOf, predicateOf_eq ht, hl]
    exact h.mono fun _ hf => hf.condition
  whole := h.mono fun _ hf => hf.condition.whole

/-- A formula that is held together as an operand is legible if it is read back as a condition. -/
theorem legible_of_condition (hc : e.isCompound = true) (hl : e.isLogical = false)
    (ht : ∀ v, e ≠ .truth v) (h : Yields (Condition style e.normal) (e.render style.dialect)) :
    Legible style e where
  predicate := predicateOf_eq ht _
  operand := by
    rw [operandOf, hc]
    exact h.map fun _ hf => hf.whole.parens
  condition := by
    rw [conditionOf, predicateOf_eq ht, hl]
    exact h
  whole := h.mono fun _ hf => hf.whole

/-- What a connective joins is put between parentheses under another connective. -/
theorem legible_of_logical {op : Connective} {first : Expr} {rest : List Expr}
    (h : Yields (Whole style (Expr.logical op first rest).normal)
      ((Expr.logical op first rest).render style.dialect)) :
    Legible style (.logical op first rest) where
  predicate := predicateOf_eq (e := .logical op first rest) nofun _
  operand := h.map fun _ hf => hf.parens
  condition := by
    rw [conditionOf, predicateOf_eq (e := .logical op first rest) nofun]
    exact h.map fun _ hf => hf.parens.condition
  whole := h

/-! ## Lists -/

/-- Items of a list are whole formulas, and are read back as such. -/
theorem yields_items {es : List Expr} (h : ∀ e ∈ es, Legible style e) :
    Yields (Forall₂ (Whole style) (Expr.normals es))
      (textsOf es (renderEach style.dialect es)) := by
  refine yields_textsOf es ?_
  rw [normals_eq_map, renderEach_eq_map, List.forall₂_map_left_iff, List.forall₂_map_right_iff,
    List.forall₂_same]
  exact fun e he => (h e he).whole

/-- Members under a connective are conditions, and are read back as such. -/
theorem yields_conditions {es : List Expr} (h : ∀ e ∈ es, Legible style e) :
    Yields (Forall₂ (Condition style) (Expr.normals es))
      (textsOf es (es.zipWith (conditionOf style.dialect) (renderEach style.dialect es))) := by
  refine yields_textsOf es ?_
  rw [normals_eq_map, renderEach_eq_map, List.zipWith_map_right, List.zipWith_self,
    List.forall₂_map_left_iff, List.forall₂_map_right_iff, List.forall₂_same]
  exact fun e he => (h e he).condition

/-! ## One lemma for each kind of formula -/

theorem legible_not (ha : Legible style a) : Legible style (.not a) :=
  legible_of_condition rfl rfl nofun <| by
    rw [Expr.render, ha.predicate]
    exact ha.operand.bind fun f hf => yields_ok hf.not

theorem legible_isNull (ha : Legible style a) (negated : Bool) :
    Legible style (.isNull a (.switch negated)) :=
  legible_of_condition rfl rfl nofun <| by
    rw [Expr.render]
    exact ha.operand.bind fun f hf => yields_ok (hf.isNull negated)

theorem legible_binary (op : Operator) (ha : Legible style a) (hb : Legible style b) :
    Legible style (.binary op a b) :=
  legible_of_condition rfl rfl nofun <| by
    rw [Expr.render]
    exact ha.operand.bind fun f hf => hb.operand.bind fun g hg => yields_ok (hf.binary op hg)

theorem legible_between (ha : Legible style a) (hb : Legible style b) (hc : Legible style c)
    (negated : Bool) : Legible style (.between a b c (.switch negated)) :=
  legible_of_condition rfl rfl nofun <| by
    rw [Expr.render]
    exact ha.operand.bind fun f hf => hb.operand.bind fun g hg => hc.operand.bind fun h hh =>
      yields_ok (hf.between negated hg hh)

/-- A connective needs two conditions to show. -/
theorem legible_logical (op : Connective) (ha : Legible style a) {rest : List Expr}
    (hrest : ∀ e ∈ rest, Legible style e) (hne : rest ≠ []) :
    Legible style (.logical op a rest) := by
  have conditions := yields_conditions (List.forall_mem_cons.mpr ⟨ha, hrest⟩)
  have hne : Expr.normals rest ≠ [] := by
    rw [normals_eq_map]
    exact fun hnil => hne (List.map_eq_nil_iff.mp hnil)
  refine legible_of_logical ?_
  rw [Expr.render]
  refine conditions.map fun fs hfs => ?_
  cases hfs with
  | cons hf hfs => exact whole_join hf hfs hne

/-- A membership of a row is written in another way, so the operand is none. -/
theorem legible_inList (ha : Legible style a) {items : List Expr}
    (hitems : ∀ e ∈ items, Legible style e) (hrow : a.isRow = false) (hne : items ≠ [])
    (negated : Bool) : Legible style (.inList a items (.switch negated)) :=
  legible_of_condition rfl rfl nofun <| by
    rw [Expr.render, if_neg (by simpa using hne), hrow, if_neg Bool.false_ne_true]
    exact ha.operand.bind fun f hf => (yields_items hitems).bind fun fs hfs =>
      yields_ok (hf.inList negated hfs)

theorem legible_call (name : FunctionName) {args : List Expr}
    (hargs : ∀ e ∈ args, Legible style e) (distinct : Bool) :
    Legible style (.call name args (.switch distinct)) :=
  legible_of_operand rfl rfl nofun <| by
    rw [Expr.render]
    exact (yields_items hargs).bind fun fs hfs => yields_ok (operand_call name distinct hfs)

mutual

/-- **Every formula is legible**: whatever is written for it is read back. -/
theorem legible (style : Style) : ∀ e : Expr, e.All Tree.IsFormula → Legible style e
  | .column _ _, h => legible_of_operand rfl rfl nofun (yields_column h.1 h.2)
  | .literal v, _ => legible_of_operand rfl rfl nofun (yields_ok (operand_literal v))
  | .not a, h => legible_not (legible style a h.2)
  | .isNull a negated, h => by
    obtain ⟨on, rfl⟩ := Expr.eq_switch_of_isSwitch h.1
    exact legible_isNull (legible style a h.2) on
  | .binary op a b, h => legible_binary op (legible style a h.2.1) (legible style b h.2.2)
  | .logical op a rest, h =>
    legible_logical op (legible style a h.2.1) (legibles style rest h.2.2) h.1
  | .inList a items negated, h => by
    obtain ⟨on, rfl⟩ := Expr.eq_switch_of_isSwitch h.1.2.2
    exact legible_inList (legible style a h.2.1) (legibles style items h.2.2) h.1.1 h.1.2.1 on
  | .between a b c negated, h => by
    obtain ⟨on, rfl⟩ := Expr.eq_switch_of_isSwitch h.1
    exact legible_between (legible style a h.2.1) (legible style b h.2.2.1)
      (legible style c h.2.2.2) on
  | .call name args distinct, h => by
    obtain ⟨on, rfl⟩ := Expr.eq_switch_of_isSwitch h.1
    exact legible_call name (legibles style args h.2) on
  | .star _, h | .truth _, h | .rowToJson .., h | .excluded _, h | .image .., h | .foreign _, h =>
    h.elim
  | .inQuery .., h | .exists .., h | .scalar _, h | .row .., h | .cast .., h | .coalesce _, h
  | .concat _, h | .aggregateText _, h | .sorted .., h | .window .., h | .over .., h
  | .jsonExtract .., h | .jsonContains .., h | .jsonEdge .., h | .jsonType .., h
  | .textSearch .., h | .matches .., h | .raw .., h | .tuple _, h => h.1.elim

/-- Every formula of a list is legible. -/
theorem legibles (style : Style) :
    ∀ es : List Expr, allExprs Tree.IsFormula es → ∀ e ∈ es, Legible style e
  | [], _ => nofun
  | e :: rest, h => List.forall_mem_cons.mpr ⟨legible style e h.1, legibles style rest h.2⟩

end

/-! ## Texts -/

namespace Tree.IsFormula

/-- No formula is a raw fragment. -/
theorem isRaw {t : Tree} (h : t.IsFormula) : t.isRaw = false := by
  cases t with
  | select _ => rfl
  | expr e =>
    cases e with
    | raw _ _ _ _ => exact h.elim
    | _ => rfl

/-- Every formula is a text by itself. -/
theorem bare {e : Expr} (h : (Tree.expr e).IsFormula) : e.bare? = none := by
  cases e with
  | raw _ _ _ _ => exact h.elim
  | _ => rfl

end Tree.IsFormula

/-- The text of a formula is what is written for it, with its places spelled out. -/
theorem Expr.toText_eq_map (h : e.bare? = none) :
    e.toText style false = (spelledIn style (e.render style.dialect)).map fun (sql, values) =>
      (.text sql, values) := by
  rw [toText, h]
  rfl

/-- What is written for a formula, and what is read from it. -/
theorem Expr.toText_eq_ok {text : Data} {values : List Value} (h : e.All Tree.IsFormula)
    (ht : e.toText style false = .ok (text, values)) :
    ∃ f, text = .text (f.spell style) ∧ values = f.values ∧
      Fragment.Fits True style ((Tree.expr e).skeleton style.dialect) f ∧
      ReadsAs (readWhole style.dialect) (f.pieces style) e.normal [] := by
  have every : (Tree.expr e).Every Tree.IsFormula := Tree.every_of_all h
  have notRaw : (Tree.expr e).Every fun n => n.isRaw = false := fun n hn => (every n hn).isRaw
  rw [toText_eq_map h.root.bare] at ht
  unfold spelledIn at ht
  cases hf : e.render style.dialect with
  | error err =>
    rw [hf] at ht
    cases ht
  | ok f =>
    rw [hf] at ht
    cases ht
    have read := ((legible style e h).whole f hf).read [] nofun
    rw [List.append_nil] at read
    exact ⟨f, rfl, rfl, walks (.expr e) (fun _ => notRaw) f hf, read⟩

/-- A formula and its normal form have the same text and the same values. -/
theorem Expr.toText_normal (style : Style) (condition : Bool) (e : Expr) :
    e.normal.toText style condition = e.toText style condition := by
  unfold Expr.toText
  simp only [Expr.render_normal, predicateOf_normal, bare_normal]

/-- **Formulas are written without ambiguity.** Two formulas have the same text and bind the same
values just if they have the same normal form. -/
theorem Expr.toText_eq_iff_normal_eq (style : Style) (e₁ e₂ : Expr) (text : Data)
    (values : List Value) (h₁ : e₁.All Tree.IsFormula) (h₂ : e₂.All Tree.IsFormula)
    (ht₁ : e₁.toText style false = .ok (text, values)) :
    e₂.toText style false = .ok (text, values) ↔ e₁.normal = e₂.normal := by
  constructor
  · intro ht₂
    obtain ⟨f, rfl, rfl, hf, read₁⟩ := Expr.toText_eq_ok h₁ ht₁
    obtain ⟨g, htext, hvalues, hg, read₂⟩ := Expr.toText_eq_ok h₂ ht₂
    have pieces := Fragment.pieces_eq hf hg (Data.text.inj htext) hvalues
    rw [pieces] at read₁
    exact read₁.unique read₂
  · intro hnormal
    rw [← Expr.toText_normal, ← hnormal, Expr.toText_normal, ht₁]

/-- A condition with a range next to connectives, and with names that are keywords. -/
def rangeOfWords (function : FunctionName) (table : Name) : Expr :=
  .logical .or (.not (.between (.call function [.column table (.word "word")] (.switch true))
      (.literal (.text "a")) (.literal (.text "z")) (.switch false)))
    [.logical .and (.isNull (.column (.word "t") (.word "not")) (.switch true))
      [.inList (.column .absent (.word "a b")) [.literal .null, .literal (.bool true)]
        (.switch false)]]

/-- The text of the condition. -/
def rangeOfWordsText : String :=
  "NOT (MIN(DISTINCT word) BETWEEN $1 AND $2) OR " ++
    "(t.\"not\" IS NOT NULL AND \"a b\" IN ($3, $4))"

/-- The values that it binds. -/
def rangeOfWordsValues : List Value := [.text "a", .text "z", .null, .bool true]

theorem rangeOfWords_isFormula (function : FunctionName) {table : Name} (h : table.isName = true) :
    (rangeOfWords function table).All Tree.IsFormula :=
  ⟨nofun, ⟨trivial, rfl, ⟨rfl, ⟨h, rfl⟩, trivial⟩, trivial, trivial⟩,
    ⟨nofun, ⟨rfl, rfl, rfl⟩, ⟨⟨rfl, nofun, rfl⟩, ⟨rfl, rfl⟩, trivial, trivial, trivial⟩, trivial⟩,
    trivial⟩

theorem rangeOfWords_toText (function : FunctionName) (table : Name)
    (h : spelledIn (.plain .postgres) ((rangeOfWords function table).render .postgres) =
      .ok (rangeOfWordsText, rangeOfWordsValues)) :
    (rangeOfWords function table).toText (.plain .postgres) false =
      .ok (.text rangeOfWordsText, rangeOfWordsValues) := by
  rw [Expr.toText_eq_map rfl]
  exact congrArg _ h

/-- A name in small letters with an empty table and one in mixed letters with none have the same
text, so they are the same up to what no text shows. -/
theorem normal_rangeOfWords :
    (rangeOfWords ⟨"min", by decide +kernel⟩ (.word "")).normal =
      (rangeOfWords ⟨"Min", by decide +kernel⟩ .absent).normal := by
  have first := rangeOfWords_toText ⟨"min", by decide +kernel⟩ (.word "")
    (eq_ok_of_toOption (by decide +kernel) rfl)
  have second := rangeOfWords_toText ⟨"Min", by decide +kernel⟩ .absent
    (eq_ok_of_toOption (by decide +kernel) rfl)
  exact (Expr.toText_eq_iff_normal_eq (.plain .postgres) _ _ _ _ (rangeOfWords_isFormula _ rfl)
    (rangeOfWords_isFormula _ rfl) first).mp second

end SqlScribe
