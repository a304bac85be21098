import SqlScribe.Proofs.Refusal

/-!
# What the setting for quotes changes

A statement is written before any name is quoted, so the setting for quotes meets a fragment that is
already complete. Read as segments, the fragment is one row of fixed texts and names: the places of
the values are texts like the others, because only the dialect says what they look like. Both
settings spell the same row, and differ in the identifiers that they make of the names.

A statement that is refused is refused in both settings, with the same error. Only something that is
no text where a name is declared is reported in the way in which a setting looks at it first.
-/

namespace SqlScribe

/-! ## Segments -/

/-- A segment of a written statement: a fixed text, or a name. -/
inductive Segment where
  | text (s : String)
  | name (n : String)
deriving DecidableEq, Repr

/-- A segment in a style: a text as it stands, a name as the identifier that the style makes of
it. -/
def Segment.spell (style : Style) : Segment → String
  | .text s => s
  | .name n => style.identifier n

/-- Segments in a style, one after the other. -/
def spellAll (style : Style) (segments : List Segment) : String :=
  String.join (segments.map (Segment.spell style))

namespace Fragment

/-- The segments of a fragment behind `n` other values, with the places that a dialect leaves for
its values. -/
def segments (d : Dialect) (n : Nat) : Fragment → List Segment
  | empty => []
  | text s rest => .text s :: rest.segments d n
  | name a rest => .name a :: rest.segments d n
  | slot _ rest => .text (d.placeholder (n + 1)) :: rest.segments d (n + 1)
  | crossed first second rest =>
    first.segments d (n + second.size) ++ second.segments d n ++
      rest.segments d (n + (second.size + first.size))

/-- A fragment is written segment by segment. -/
theorem spellFrom_eq_spellAll (style : Style) (n : Nat) (f : Fragment) :
    f.spellFrom style n = spellAll style (f.segments style.dialect n) := by
  unfold spellFrom spellAll
  induction f generalizing n with
  | empty => rfl
  | text s rest ih | name a rest ih => simp [write, segments, Segment.spell, ih]
  | slot v rest ih => simp [write, segments, Segment.spell, ih]
  | crossed first second rest iha ihb ih =>
    simp [write, segments, iha, ihb, ih, String.append_assoc]

/-- A fragment becomes a query in both settings or in none. Text and names stand in the same
order, and the values are encoded without a look at the text. -/
theorem toQuery_eq (d : Dialect) (f : Fragment) :
    (∃ params, ∀ quoteAll, f.toQuery ⟨d, quoteAll⟩ =
        .ok ⟨d, spellAll ⟨d, quoteAll⟩ (f.segments d 0), f.values, params⟩) ∨
      ∀ quoteAll, f.toQuery ⟨d, quoteAll⟩ = .error (.unsupported d .arrayValue) := by
  cases hp : Dialect.encodeAll d f.values with
  | ok params =>
    refine .inl ⟨params, fun quoteAll => ?_⟩
    have hspell : f.spell ⟨d, quoteAll⟩ = spellAll ⟨d, quoteAll⟩ (f.segments d 0) :=
      spellFrom_eq_spellAll ⟨d, quoteAll⟩ 0 f
    rw [toQuery, hp, hspell]
    rfl
  | error e =>
    obtain rfl := Dialect.encodeAll_error d _ _ hp
    exact .inr fun quoteAll => by rw [toQuery, hp]; rfl

end Fragment

/-! ## Statements -/

section

variable {d : Dialect} {s : Statement}

/-- Whether the parts of a statement have the declared types, as far as a dialect looks at them. -/
structure Statement.IsDeclared (d : Dialect) (s : Statement) : Prop where
  typed : s.IsTyped
  nodes : s.All fun t => t.IsTyped ∧ t.IsFramed
  reworked : ∀ e ∈ s.reworked d, e.isExpr = true ∨ e.isRecord = true

/-- Where the parts of a statement have the declared types, no error is about a part that cannot be
built. -/
theorem Statement.IsDeclared.isFault_eq_false (hs : s.IsDeclared d) {e : RenderError}
    (h : s.render d = .error e) : e.isFault = false := by
  have fitting : (Pairing.alone d).Fitting s :=
    { nodes := hs.nodes
      typed := fun _ => hs.typed
      portable := fun ⟨_, h⟩ => nomatch h
      reworked := fun _ => hs.reworked
      unwrapped := fun h => h.elim }
  have allowed : (Pairing.alone d).Allows e := (Pairing.meets_statement fitting).left h
  cases e with
  | building cause => exact allowed.elim
  | _ => rfl

/-- What goes wrong with a text that cannot be written does not depend on the style. -/
theorem Style.nameFault_of_text (style : Style) {n : Data} {t : String} (h : n.asText? = some t) :
    style.nameFault n = .wrongArgument := by
  have decided : style.quotesName n = .ok (style.quotes t) := by rw [quotesName, h]
  have quoted : style.dialect.quoteName n = .ok (style.dialect.quote t) := by
    rw [Dialect.quoteName, h]
  rw [nameFault, writeName, decided, quoted]
  cases hq : style.quotes t <;> simp [bind, Except.bind, pure, Except.pure]

/-- Every style reports an error in the same way, unless it is about something that is no text where
a name has to be written. -/
theorem RenderError.inStyle_cases (d : Dialect) (e : RenderError) :
    (∃ e', ∀ quoteAll, e.inStyle ⟨d, quoteAll⟩ = e') ∨
      ∃ n : Data, n.asText? = none ∧ e = .building (.unwritable n) := by
  by_cases h : ∃ n, e = .building (.unwritable n)
  · obtain ⟨n, rfl⟩ := h
    cases hn : n.asText? with
    | some t =>
      exact .inl ⟨_, fun quoteAll => congrArg building (Style.nameFault_of_text ⟨d, quoteAll⟩ hn)⟩
    | none => exact .inr ⟨n, hn, rfl⟩
  · refine .inl ⟨e, fun quoteAll => ?_⟩
    cases e with
    | building cause =>
      cases cause with
      | unwritable n => exact absurd ⟨n, rfl⟩ h
      | _ => rfl
    | _ => rfl

end

/-- **The setting for quotes changes identifiers and nothing else.** In a dialect a statement either
becomes a query in both settings, or is refused in both. Two queries have the same bindings and
parameters, and their texts are spelled from one row of segments. Two refusals have the same error,
unless parts of the statement are not of the declared types: then something that is no text may
stand where a name has to be written, and the error is put in the words of the setting. -/
theorem Statement.toQuery_eq_of_quoteAll (d : Dialect) (s : Statement) :
    (∃ segments bindings params, ∀ quoteAll, s.toQuery ⟨d, quoteAll⟩ =
        .ok ⟨d, spellAll ⟨d, quoteAll⟩ segments, bindings, params⟩) ∨
      (∃ e, ∀ quoteAll, s.toQuery ⟨d, quoteAll⟩ = .error e) ∨
      ∃ n : Data, n.asText? = none ∧ ¬s.IsDeclared d ∧ ∀ quoteAll,
        s.toQuery ⟨d, quoteAll⟩ = .error (.building (Style.nameFault ⟨d, quoteAll⟩ n)) := by
  -- the fragment does not know the setting; only its spelling does
  cases hr : s.render d with
  | ok f =>
    have htext : ∀ quoteAll, s.toQuery ⟨d, quoteAll⟩ =
        (f.toQuery ⟨d, quoteAll⟩).mapError (RenderError.inStyle ⟨d, quoteAll⟩) :=
      fun _ => toQuery_of_ok hr
    rcases f.toQuery_eq d with ⟨params, hq⟩ | hq
    · exact .inl ⟨f.segments d 0, f.values, params, fun quoteAll => by rw [htext, hq]; rfl⟩
    · exact .inr (.inl ⟨_, fun quoteAll => by rw [htext, hq]; rfl⟩)
  | error e =>
    have refused : ∀ quoteAll, s.toQuery ⟨d, quoteAll⟩ = .error (e.inStyle ⟨d, quoteAll⟩) :=
      fun _ => toQuery_of_error hr
    -- an error tells of the setting only if a name is no text
    rcases e.inStyle_cases d with ⟨e', same⟩ | ⟨n, hn, rfl⟩
    · exact .inr (.inl ⟨e', fun quoteAll => (refused quoteAll).trans (congrArg _ (same quoteAll))⟩)
    · have stray : ¬s.IsDeclared d := fun hs => Bool.noConfusion (hs.isFault_eq_false hr)
      exact .inr (.inr ⟨n, hn, stray, refused⟩)

/-- A delete from a table that has a keyword as its name. -/
def deleteOrders (condition : Expr) : Statement :=
  .delete ⟨.table ⟨.word "order", .absent, .absent, []⟩, some condition, []⟩

/-- A column as the condition is written in both settings, and the incoming value of a column is
refused in both. -/
theorem toQuery_deleteOrders :
    (∃ segments bindings params, ∀ quoteAll,
        (deleteOrders (.column .absent (.word "id"))).toQuery ⟨.sqlite, quoteAll⟩ =
          .ok ⟨.sqlite, spellAll ⟨.sqlite, quoteAll⟩ segments, bindings, params⟩) ∧
      ∃ e, ∀ quoteAll,
        (deleteOrders (.excluded (.word "id"))).toQuery ⟨.sqlite, quoteAll⟩ = .error e := by
  constructor
  · rcases Statement.toQuery_eq_of_quoteAll .sqlite (deleteOrders (.column .absent (.word "id")))
      with h | ⟨e, he⟩ | ⟨n, -, -, he⟩
    · exact h
    all_goals
      have written : ((deleteOrders (.column .absent (.word "id"))).toQuery
          ⟨.sqlite, false⟩).isOk = true := by decide +kernel
      rw [he] at written
      cases written
  · have declared : (deleteOrders (.excluded (.word "id"))).IsDeclared .sqlite :=
      { typed := ⟨⟨_, rfl, rfl, rfl, rfl, nofun⟩, nofun⟩
        nodes := List.forall_mem_singleton.mpr ⟨rfl, trivial⟩
        reworked := nofun }
    rcases Statement.toQuery_eq_of_quoteAll .sqlite (deleteOrders (.excluded (.word "id")))
      with ⟨_, _, _, h⟩ | h | ⟨_, -, stray, -⟩
    · have refused : ((deleteOrders (.excluded (.word "id"))).toQuery
          ⟨.sqlite, false⟩).isOk = false := by decide +kernel
      rw [h] at refused
      cases refused
    · exact h
    · exact absurd declared stray

/-- The keyword is quoted in any setting. -/
example : ([false, true].map fun quoteAll => spellAll ⟨.sqlite, quoteAll⟩
      [.text "DELETE FROM ", .name "order", .text " WHERE ", .name "id"]) =
    ["DELETE FROM \"order\" WHERE id", "DELETE FROM \"order\" WHERE \"id\""] := by
  decide +kernel

end SqlScribe
