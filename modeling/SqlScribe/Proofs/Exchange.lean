import SqlScribe.PreparedQuery
import SqlScribe.Proofs.PassStatement

/-!
# Exchanged selects

`exchange f` puts `f s` in place of every select `s` of a tree, from the inside out: nested in
expressions, as a member of a union, and as a source of rows. Names and switches are no place for a
select, and what stands in the place of a query or a source and is none is left alone. The roots of
expressions stay as they are (`exchanging`).

The dialects lay out an expression by its kind, and a select by its clauses. They never look into a
nested select, but write it and put it between parentheses. So if `f` gives selects that are written
like the given ones, a statement is written like the statement with its selects exchanged.
-/

namespace SqlScribe

/-- The pass that puts `f s` in place of a select `s`. -/
def exchanging (f : Select → Select) : Pass where
  root _ e := e
  select := f
  stranger := none
  member := some .value

section

variable (f : Select → Select)

/-- An expression with its selects exchanged. -/
abbrev Expr.exchange (e : Expr) : Expr := e.pass (exchanging f) .value

/-- A select, exchanged after those in it. -/
abbrev Select.exchange (s : Select) : Select := s.pass (exchanging f)

/-- A statement with its selects exchanged. -/
abbrev Statement.exchange (s : Statement) : Statement := s.pass (exchanging f)

instance : (exchanging f).KeepsLooks where
  root _ e := .refl e

/-- Exchanging selects changes no expression at its top. -/
theorem tops_exchanging : (exchanging f).Tops fun _ => True where
  role _ _ _ := rfl
  fields _ _ := rfl
  mapFields _ _ _ := rfl
  -- a list is checked for its widths, and these do not change
  rechecked _ e := by
    show e.rechecked = e.rechecked.map id
    cases e.rechecked <;> rfl
  form _ _ := Iff.rfl
  inner _ _ := trivial

theorem leavesReferences_exchanging : (exchanging f).LeavesReferences where
  column _ _ _ := rfl
  star _ _ := rfl
  excluded _ _ := rfl
  image _ _ _ := rfl
  call _ _ _ _ := rfl
  other _ _ h := h

end

/-- Whether a function gives selects that are written like the given ones. -/
def KeepsText (d : Dialect) (f : Select → Select) : Prop := ∀ s, (f s).render d = s.render d

section

variable {d : Dialect} {f : Select → Select}

/-- Selects with the same text change no text. -/
theorem KeepsText.writes (hf : KeepsText d f) : (exchanging f).Writes id d where
  value _ := .refl _
  condition _ := .refl _
  window _ := rfl
  select s := by
    show SameUpTo id ((f s).render d) (s.render d)
    rw [hf]
    exact .refl _
  typeName _ := nofun

/-- **Selects that are written alike can be exchanged anywhere** in a statement. -/
theorem Statement.render_exchange (hf : KeepsText d f) (s : Statement) :
    (s.exchange f).render d = s.render d :=
  (same_render ((tops_exchanging f).rewrites (leavesReferences_exchanging f)) hf.writes s).eq_of_id

theorem Statement.toQuery_exchange {style : Style} (hf : KeepsText style.dialect f)
    (s : Statement) : (s.exchange f).toQuery style = s.toQuery style := by
  rw [Statement.toQuery, Statement.toQuery, s.render_exchange hf]

end

/-! ## What stays of a select

A check of a select asks how many columns it has, whether it is ordered, and for the kinds of its
items. Nested selects do not come into it. -/

namespace Select

variable (f : Select → Select) (s : Select)

/-- Exchanged selects below an item do not make it a star. -/
theorem hasStar_inner : (s.inner (exchanging f)).hasStar = s.hasStar := by
  unfold hasStar
  rw [items_inner, List.any_map]
  congr 1
  funext i
  cases i with
  | mk e aliasName => exact e.isStar_pass (exchanging f) .value

theorem width?_inner : (s.inner (exchanging f)).width? = s.width? := by
  unfold width?
  rw [hasStar_inner, items_inner, List.length_map]

theorem isOrdered_inner : (s.inner (exchanging f)).isOrdered = s.isOrdered := by
  unfold isOrdered
  rw [orderBy_inner, List.isEmpty_map, limit_inner, offset_inner]

end Select

end SqlScribe
