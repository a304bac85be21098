import SqlScribe.PreparedQuery
import SqlScribe.Proofs.Statement

/-!
# Values substitute back

A written statement has one place for each value that it binds, and the places can be found in its
text alone. If texts are put into the places, the text is the one that the same walk writes when it
leaves these texts where it binds the values. So a driver that reads the places finds each value
where it belongs, whatever names and literals the statement holds.

Raw fragments are excluded, since their texts may hold anything.
-/

namespace SqlScribe

open Fragment (Fits)

/-- The text of a statement in a style, with the values that it binds. -/
def Statement.toText (style : Style) (s : Statement) : Rendered (String × List Value) :=
  spelledIn style (s.render style.dialect)

/-- The text of a statement in a style, with its values shown where they are bound. -/
def Statement.shownIn (style : Style) (show' : Value → String) (s : Statement) : Rendered String :=
  ((s.render style.dialect).map (Fragment.showIn style show')).mapError (RenderError.inStyle style)

/-! ## Filling in -/

theorem fill_append (shown : List String) (ts us : List Token) :
    fill shown (ts ++ us) = fill shown ts ++ fill shown us := by
  induction ts using fill.induct with
  | case1 => simp [fill]
  | case2 c rest ih => simp [fill, ih, String.append_assoc]
  | case3 rest ih => simp [fill, ih]
  | case4 k rest ih => simp [fill, ih, String.append_assoc]

theorem fill_chars (shown : List String) (cs : List Char) :
    fill shown (cs.map .char) = String.ofList cs := by
  induction cs with
  | nil => rfl
  | cons c cs ih => rw [List.map_cons, fill, ih, String.ofList_cons]

namespace Fragment

/-- The numbers of the places of a fragment behind `n` other values, in the order of the text. -/
def numbers (n : Nat) : Fragment → List Nat
  | empty => []
  | text _ rest | name _ rest => rest.numbers n
  | slot _ rest => (n + 1) :: rest.numbers (n + 1)
  | crossed first second rest =>
    first.numbers (n + second.size) ++ second.numbers n ++
      rest.numbers (n + (second.size + first.size))

theorem length_numbers (n : Nat) (f : Fragment) : (f.numbers n).length = f.size := by
  induction f generalizing n with
  | empty => rfl
  | text s rest ih | name a rest ih => simpa [numbers, size] using ih n
  | slot v rest ih => simp [numbers, size, ih, Nat.add_comm]
  | crossed a b rest iha ihb ih => simp [numbers, size, iha, ihb, ih, Nat.add_comm, Nat.add_assoc]

theorem filterMap_tokens (style : Style) (n : Nat) (f : Fragment) :
    (f.tokens style n).filterMap Token.number? = f.numbers n := by
  have chars : ∀ cs : List Char, (cs.map Token.char).filterMap Token.number? = [] := by
    intro cs
    rw [List.filterMap_map]
    exact List.filterMap_eq_nil_iff.mpr fun _ _ => rfl
  induction f generalizing n with
  | empty => rfl
  | text s rest ih | name a rest ih => simp [tokens, numbers, chars, ih]
  | slot v rest ih => simp [tokens, numbers, Token.number?, ih]
  | crossed a b rest iha ihb ih => simp [tokens, numbers, iha, ihb, ih]

/-- The tokens of a fragment, filled in with the texts of its values, are the fragment with its
values shown. -/
theorem fill_tokens (style : Style) (show' : Value → String) (f : Fragment)
    (before after : List Value) :
    fill ((before ++ f.values ++ after).map show') (f.tokens style before.length) =
      f.write style (fun _ v => show' v) before.length := by
  -- on the fragment, with the values before and behind it; a place knows its own number
  induction f generalizing before after with
  | empty => rfl
  | text s rest ih | name a rest ih =>
    rw [tokens, fill_append, fill_chars, write, String.ofList_toList]
    exact congrArg _ (ih before after)
  | slot v rest ih =>
    have here : ((before ++ (slot v rest).values ++ after).map show').getD before.length "" =
        show' v := by
      simp [values]
    have behind := ih (before ++ [v]) after
    rw [List.length_append, List.length_singleton, List.append_assoc, List.append_assoc,
      List.singleton_append, ← List.cons_append, ← List.append_assoc] at behind
    rw [tokens, fill, write, here]
    exact congrArg _ behind
  -- here the numbers run against the text: the second part is bound first
  | crossed a b rest iha ihb ih =>
    have first := iha (before ++ b.values) (rest.values ++ after)
    have second := ihb before (a.values ++ rest.values ++ after)
    have behind := ih (before ++ (b.values ++ a.values)) after
    rw [List.length_append, ← size_eq_length] at first
    rw [List.length_append, List.length_append, ← size_eq_length, ← size_eq_length] at behind
    simp only [List.append_assoc] at first second behind
    rw [tokens, fill_append, fill_append, write]
    simp only [values, List.append_assoc]
    rw [first, second, behind]

end Fragment

/-! ## The guarantee -/

/-- A fragment that fits is read back whole. -/
theorem tokensOf_spell {style : Style} {E f : Fragment} (h : Fits True style E f) :
    tokensOf style.dialect (f.spell style) = f.tokens style 0 := by
  have hread := h.reads trivial 0 0 [] (.inr rfl) (separates_nil _)
  rw [List.append_nil] at hread
  rw [SqlScribe.tokensOf]
  refine hread.trans ?_
  simp [scan]

/-- What a written statement was written from. -/
theorem Statement.toText_eq_ok {style : Style} {s : Statement} {sql : String}
    {values : List Value} (h : s.toText style = .ok (sql, values)) :
    ∃ f, s.render style.dialect = .ok f ∧ sql = f.spell style ∧ values = f.values := by
  unfold Statement.toText spelledIn at h
  cases hf : s.render style.dialect with
  | error e => rw [hf] at h; cases h
  | ok f =>
    rw [hf] at h
    cases h
    exact ⟨f, rfl, rfl, rfl⟩

/-- What a finished query was finished from. -/
theorem Statement.toQuery_eq_ok {style : Style} {s : Statement} {q : PreparedQuery}
    (h : s.toQuery style = .ok q) :
    q.dialect = style.dialect ∧ s.toText style = .ok (q.sql, q.bindings) := by
  unfold Statement.toQuery at h
  unfold Statement.toText spelledIn
  cases hf : s.render style.dialect with
  | error e => rw [hf] at h; cases h
  | ok f =>
    rw [hf] at h
    change (Fragment.toQuery style f).mapError _ = _ at h
    unfold Fragment.toQuery at h
    cases hp : Dialect.encodeAll style.dialect f.values with
    | error e => rw [hp] at h; cases h
    | ok params =>
      rw [hp] at h
      cases h
      exact ⟨rfl, rfl⟩

/-- The fragment of a statement without raw fragments fits. -/
theorem Statement.fits_of_render {style : Style} {s : Statement} {f : Fragment}
    (hraw : s.Every fun t => t.isRaw = false) (h : s.render style.dialect = .ok f) :
    Fits True style (skeletons style.dialect (s.trees style.dialect)) f :=
  comes_statement s (fun t ht _ => hraw t ((s.trees_perm style.dialect).mem_iff.mp ht)) f h

/-- **Values substitute back.** For a statement without raw fragments, the texts of its values put
into the places of its text give what the same walk writes when it shows the values. There are as
many places as values. -/
theorem Statement.shownIn_eq_substitute (style : Style) (show' : Value → String) (s : Statement)
    (hraw : s.Every fun t => t.isRaw = false) {sql : String} {values : List Value}
    (h : s.toText style = .ok (sql, values)) :
    s.shownIn style show' = .ok (substitute style.dialect (values.map show') sql) ∧
      (placeNumbers style.dialect sql).length = values.length := by
  obtain ⟨f, hf, rfl, rfl⟩ := Statement.toText_eq_ok h
  have tokens := tokensOf_spell (Statement.fits_of_render hraw hf)
  have filled := Fragment.fill_tokens style show' f [] []
  simp only [List.nil_append, List.append_nil, List.length_nil] at filled
  constructor
  · rw [Statement.shownIn, hf, substitute, tokens, filled]
    rfl
  · rw [placeNumbers, tokens, Fragment.filterMap_tokens, Fragment.length_numbers,
      Fragment.size_eq_length]

/-- An update whose names hold the mark of a place and the quote of MySQL. -/
def markedNames : Statement :=
  .update ⟨.table ⟨.word "t?\x60", .absent, .absent, []⟩,
    [⟨.word "n?", .literal (.text "v")⟩],
    some (.inList (.column .absent (.word "k")) [.literal (.bool true), .literal .null]
      (.switch false)), []⟩

theorem markedNames_toText : markedNames.toText (.plain .mysql) =
    .ok ("UPDATE \x60t?\x60\x60\x60 SET \x60n?\x60 = ? WHERE k IN (?, ?)",
      [.text "v", .bool true, .null]) :=
  eq_ok_of_toOption (by decide +kernel) rfl

theorem markedNames_notRaw : markedNames.Every fun t => t.isRaw = false := by
  have leaf : ∀ v, (Tree.expr (.literal v)).Every fun t => t.isRaw = false := fun v =>
    Tree.every_iff.mpr ⟨rfl, nofun⟩
  have column : (Tree.expr (.column .absent (.word "k"))).Every fun t => t.isRaw = false :=
    Tree.every_iff.mpr ⟨rfl, nofun⟩
  have test : (Tree.expr (.inList (.column .absent (.word "k"))
      [.literal (.bool true), .literal .null] (.switch false))).Every fun t => t.isRaw = false :=
    Tree.every_iff.mpr ⟨rfl, List.forall_mem_cons.mpr ⟨column,
      List.forall_mem_cons.mpr ⟨leaf _, List.forall_mem_singleton.mpr (leaf _)⟩⟩⟩
  exact List.forall_mem_cons.mpr ⟨leaf _, List.forall_mem_singleton.mpr test⟩

/-- Only the places are filled in, not the marks in the names. -/
theorem shownIn_markedNames :
    markedNames.shownIn (.plain .mysql) (fun _ => "x") =
        .ok "UPDATE \x60t?\x60\x60\x60 SET \x60n?\x60 = x WHERE k IN (x, x)" ∧
      (placeNumbers .mysql
        "UPDATE \x60t?\x60\x60\x60 SET \x60n?\x60 = ? WHERE k IN (?, ?)").length = 3 := by
  have h := Statement.shownIn_eq_substitute (.plain .mysql) (fun _ => "x") markedNames
    markedNames_notRaw markedNames_toText
  have filled : substitute .mysql ["x", "x", "x"]
      "UPDATE \x60t?\x60\x60\x60 SET \x60n?\x60 = ? WHERE k IN (?, ?)" =
      "UPDATE \x60t?\x60\x60\x60 SET \x60n?\x60 = x WHERE k IN (x, x)" := by
    decide +kernel
  exact ⟨h.1.trans (congrArg _ filled), h.2⟩

end SqlScribe
