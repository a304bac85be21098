import SqlScribe.Proofs.Paging
import SqlScribe.Proofs.Strayed
import SqlScribe.Proofs.TemplateParts

/-!
# What a template is filled with

A raw fragment that is a template is written part by part: plain text as it stands, and in place of
each mark what the first expression bound to its name is written as. `Leaves` says what a part
leaves, and `Fills` what becomes of all of them: the first part that leaves nothing decides about an
error, and otherwise the fragment is that of the parts side by side (`SideBySide`). A name with two
marks leaves its values twice, and an expression without a mark leaves none.

Nothing that was put in is looked at again: the parts are those of the text before anything is
filled in. A raw fragment whose text is no text hands on what it is instead. The null counts as
nothing there; other data cannot be put between texts (`HandsOnData`).
-/

namespace SqlScribe

open Template (WithAlias Splits)

/-! ## What stands for the parts -/

section

variable (d : Dialect) (bindings : List (Name × Expr))

/-- What a part of a template leaves. The null that a raw fragment hands on leaves nothing. -/
inductive Leaves : Template.Part → Fragment → Prop
  | text (cs) : Leaves (.text cs) (Fragment.ofText (String.ofList cs))
  | mark {name e f} : bindingOf bindings name = some e → e.isBlank = false →
      e.render d = .ok f → Leaves (.mark name) f
  | blank {name e f} : bindingOf bindings name = some e → e.isBlank = true →
      e.render d = .ok f → Leaves (.mark name) .empty

/-- Why a mark leaves nothing: no expression is bound to its name, or the first one that is cannot
be written. -/
inductive Refuses (template : String) (name : List Char) : RenderError → Prop
  | unbound : bindingOf bindings name = none →
      Refuses template name (.unboundMark (String.ofList name) template)
  | unwritten {e err} : bindingOf bindings name = some e → e.render d = .error err →
      Refuses template name err

/-- Whether a marked expression hands on data that are no text, and not the null. -/
def HandsOnData (ps : List Template.Part) : Prop :=
  ∃ name e data, .mark name ∈ ps ∧ bindingOf bindings name = some e ∧ e.bare? = some data ∧
    data.isNull = false

end

/-- The texts of fragments one behind the other, behind `n` other values. -/
def spellEach (style : Style) : Nat → List Fragment → String
  | _, [] => ""
  | n, f :: rest => f.spellFrom style n ++ spellEach style (n + f.values.length) rest

/-- Whether a fragment has the values of others, one after the other, and their texts side by side,
in which the numbers of the values go on. -/
structure SideBySide (fs : List Fragment) (f : Fragment) : Prop where
  values : f.values = fs.flatMap (·.values)
  text (style n) : f.spellFrom style n = spellEach style n fs

/-- What the parts of a template leave: a fragment each, or the error of the first that leaves
none. -/
inductive LeaveAll (d : Dialect) (bindings : List (Name × Expr)) (template : String) :
    List Template.Part → Rendered (List Fragment) → Prop
  | fragments {ps fs} : List.Forall₂ (Leaves d bindings) ps fs →
      LeaveAll d bindings template ps (.ok fs)
  | refused {before name after fs err} : List.Forall₂ (Leaves d bindings) before fs →
      Refuses d bindings template name err →
      LeaveAll d bindings template (before ++ .mark name :: after) (.error err)

/-- What becomes of the parts of a template. -/
inductive Fills (d : Dialect) (bindings : List (Name × Expr)) (template : String)
    (ps : List Template.Part) : Rendered Fragment → Prop
  | refused {err} : LeaveAll d bindings template ps (.error err) →
      Fills d bindings template ps (.error err)
  | noText {fs} : LeaveAll d bindings template ps (.ok fs) → HandsOnData bindings ps →
      Fills d bindings template ps unusable
  | written {fs f} : LeaveAll d bindings template ps (.ok fs) → ¬HandsOnData bindings ps →
      SideBySide fs f → Fills d bindings template ps (.ok f)

theorem sideBySide_concat (fs : List Fragment) : SideBySide fs (Fragment.concat fs) where
  values := Fragment.values_concat fs
  text style n := by
    induction fs generalizing n with
    | nil => rfl
    | cons f rest ih =>
      rw [Fragment.concat_cons, Fragment.spellFrom_append, ih, Fragment.size_eq_length, spellEach]

/-! ## Filling -/

section

variable {d : Dialect} {bindings : List (Name × Expr)} {template : String}

/-- A part in front that leaves a fragment. -/
theorem LeaveAll.cons {part : Template.Part} {f : Fragment} {ps : List Template.Part}
    {left : Rendered (List Fragment)} (hpart : Leaves d bindings part f)
    (h : LeaveAll d bindings template ps left) :
    LeaveAll d bindings template (part :: ps) (left.map (f :: ·)) := by
  cases h with
  | fragments hfs => exact .fragments (.cons hpart hfs)
  | @refused before name after fs err hfs herr =>
    show LeaveAll d bindings template ((part :: before) ++ .mark name :: after) _
    exact .refused (.cons hpart hfs) herr

/-- The first part leaves nothing. -/
theorem LeaveAll.head {name : List Char} {err : RenderError} {rest : List Template.Part}
    (h : Refuses d bindings template name err) :
    LeaveAll d bindings template (.mark name :: rest) (.error err) := by
  show LeaveAll d bindings template ([] ++ .mark name :: rest) _
  exact .refused .nil h

theorem exists_leaveAll (d : Dialect) (bindings : List (Name × Expr)) (template : String)
    (ps : List Template.Part) :
    ∃ left, LeaveAll d bindings template ps left ∧
      fillTemplate template (renderBindings d bindings) ps = left.map Fragment.concat := by
  -- on the parts; the first that leaves nothing decides
  induction ps with
  | nil => exact ⟨.ok [], .fragments .nil, rfl⟩
  | cons part rest ih =>
    obtain ⟨left, hleft, hrest⟩ := ih
    cases part with
    | text cs =>
      refine ⟨_, hleft.cons (.text cs), ?_⟩
      rw [fillTemplate, hrest]
      cases left <;> rfl
    | mark name =>
      rw [fillTemplate, boundTo_render, hrest]
      -- the other parts are not looked at if this one leaves nothing
      cases hb : bindingOf bindings name with
      | none => exact ⟨_, .head (.unbound hb), rfl⟩
      | some e =>
        rw [Option.map_some]
        dsimp only
        cases hf : e.render d with
        | error err => exact ⟨_, .head (.unwritten hb hf), rfl⟩
        | ok f =>
          have hpart : Leaves d bindings (.mark name)
              (if e.isBlank then Fragment.empty else f) := by
            split
            next hblank => exact .blank hb hblank hf
            next hblank => exact .mark hb (Bool.eq_false_iff.mpr hblank) hf
          refine ⟨_, hleft.cons hpart, ?_⟩
          cases left <;> rfl

theorem mem_fillings_iff {e : Expr} {ps : List Template.Part} :
    e ∈ fillings (renderBindings d bindings) ps ↔
      ∃ name, .mark name ∈ ps ∧ bindingOf bindings name = some e ∧ e.isBlank = false := by
  induction ps with
  | nil => simp [fillings]
  | cons part rest ih =>
    cases part with
    | text cs => simp [fillings, ih]
    | mark name =>
      -- a mark is filled if something is bound to its name and not absent
      have here : e ∈ (((bindingOf bindings name).map fun e => (e, e.render d)).toList.map
          (·.1)).filter (fun e => !e.isBlank) ↔
          bindingOf bindings name = some e ∧ e.isBlank = false := by
        cases bindingOf bindings name with
        | none => simp
        | some bound =>
          rw [Option.map_some, Option.toList_some, List.map_cons, List.map_nil, List.mem_filter,
            List.mem_singleton, Bool.not_eq_true', Option.some_inj, eq_comm (a := e)]
      rw [fillings, boundTo_render, List.mem_append, here, ih]
      constructor
      · rintro (h | ⟨name', hmem, h⟩)
        · exact ⟨name, List.mem_cons_self, h⟩
        · exact ⟨name', List.mem_cons_of_mem _ hmem, h⟩
      · rintro ⟨name', hmem, h⟩
        rcases List.mem_cons.mp hmem with heq | hmem
        · cases heq
          exact .inl h
        · exact .inr ⟨name', hmem, h⟩

/-- Data count as nothing in a template exactly if they are the null. -/
theorem isBlank_eq_isNull {e : Expr} {data : Data} (h : e.bare? = some data) :
    e.isBlank = data.isNull := by
  rw [Expr.isBlank, h]
  rfl

theorem handsOnData_iff {ps : List Template.Part} :
    HandsOnData bindings ps ↔
      ∃ e ∈ fillings (renderBindings d bindings) ps, e.bare?.isSome = true := by
  constructor
  · rintro ⟨name, e, data, hmem, hb, hdata, hnull⟩
    refine ⟨e, mem_fillings_iff.mpr ⟨name, hmem, hb, ?_⟩, by rw [hdata]; rfl⟩
    rwa [isBlank_eq_isNull hdata]
  · rintro ⟨e, he, hdata⟩
    obtain ⟨name, hmem, hb, hblank⟩ := mem_fillings_iff.mp he
    obtain ⟨data, hdata⟩ := Option.isSome_iff_exists.mp hdata
    exact ⟨name, e, data, hmem, hb, hdata, by rwa [← isBlank_eq_isNull hdata]⟩

/-- What is written for the parts is refused where data are handed on that are no text. -/
theorem fills_of_leaveAll {ps : List Template.Part} {left : Rendered (List Fragment)}
    (h : LeaveAll d bindings template ps left) :
    Fills d bindings template ps (do
      let filled ← left.map Fragment.concat
      requireTexts (fillings (renderBindings d bindings) ps)
      return filled) := by
  cases left with
  | error err => exact .refused h
  | ok fs =>
    by_cases hdata : HandsOnData bindings ps
    · have refused : requireTexts (fillings (renderBindings d bindings) ps) = unusable :=
        if_pos (List.any_eq_true.mpr (handsOnData_iff.mp hdata))
      rw [refused]
      exact .noText h hdata
    · have taken : requireTexts (fillings (renderBindings d bindings) ps) = .ok () :=
        if_neg fun hany => hdata (handsOnData_iff.mpr (List.any_eq_true.mp hany))
      rw [taken]
      exact .written h hdata (sideBySide_concat fs)

theorem plain_eq_of_asText {sql : Data} {s : String} (h : sql.asText? = some s) :
    sql.plain = s := by
  cases sql <;> cases h <;> rfl

/-- **A template is filled part by part.** Its text, with the alias in place of the marks for it,
has certain parts and no others. -/
theorem render_template {sql aliasName template : Name} {s : String} (hsql : sql.asText? = some s)
    (halias : aliasName.isTrue = true → ∃ a, aliasName.asText? = some a)
    (htemplate : template.isTrue = true) (d : Dialect) (bindings : List (Name × Expr)) :
    ∃ t ps, (∀ t', WithAlias aliasName.asText? s t' ↔ t' = t) ∧
      (∀ ps', Splits t ps' ↔ ps' = ps) ∧
      Fills d bindings s ps ((Expr.raw sql aliasName template bindings).render d) := by
  refine ⟨_, _, fun t' => Template.withAlias_iff, fun ps' => Template.splits_iff, ?_⟩
  obtain ⟨left, hleft, hfill⟩ := exists_leaveAll d bindings s
    (Template.parts (Template.withAlias aliasName.asText? s))
  have raw : (Expr.raw sql aliasName template bindings).render d = do
      let filled ← left.map Fragment.concat
      requireTexts (fillings (renderBindings d bindings)
        (Template.parts (Template.withAlias aliasName.asText? s)))
      return filled := by
    rw [Expr.render, rawText, htemplate, Bool.not_true, Bool.and_false, if_neg Bool.false_ne_true,
      rawChars_eq hsql halias, plain_eq_of_asText hsql, ← hfill]
    rfl
  rw [raw]
  exact fills_of_leaveAll hleft

end

/-- Two named expressions. -/
def twoBindings : List (Name × Expr) :=
  [(.word "x", .literal (.int64 1)), (.word "y", .literal (.int64 2))]

/-- A template with two marks of one name. -/
def twoMarks : String := "\x7balias\x7d.a = \x7bexpr:x\x7d + \x7bexpr:x\x7d"

theorem twoMarks_fill :
    ∃ t ps, (∀ t', WithAlias (some "t") twoMarks t' ↔ t' = t) ∧ (∀ ps', Splits t ps' ↔ ps' = ps) ∧
      Fills .postgres twoBindings twoMarks ps
        ((Expr.raw (.word twoMarks) (.word "t") (.switch true) twoBindings).render .postgres) :=
  render_template (Expr.asText?_word twoMarks) (fun _ => ⟨"t", Expr.asText?_word "t"⟩)
    (Expr.isTrue_switch true) .postgres twoBindings

example : ((Expr.raw (.word twoMarks) (.word "t") (.switch true) twoBindings).render
    .postgres).toOption.map (Fragment.spell ⟨.postgres, false⟩) = some "t.a = $1 + $2" := by
  decide +kernel

end SqlScribe
