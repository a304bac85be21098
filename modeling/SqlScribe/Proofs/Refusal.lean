import SqlScribe.Proofs.PairedStatement
import SqlScribe.Proofs.Substitution

/-!
# Which statements are refused, and how

A statement that cannot be written is refused with an error that says why. A fault of building is
no such error: it means that a step met something that it was never made for. For a statement with
parts of the declared types none comes up, even if anything stands where an expression is declared,
but for two places: the condition of an upsert, and what SQL Server returns. There the expression is
rebuilt before it is written, and what is neither an expression nor a record cannot be.

A portable statement is refused by all dialects or by none, and not for a lacking feature.
-/

namespace SqlScribe

open Fragment (Fits)

/-! ## Encoding -/

/-- Whether a value is an array. -/
def Value.isArray : Value → Bool
  | .array _ => true
  | _ => false

namespace Dialect

theorem encode_scalar (d : Dialect) {v : Value} (h : v.isArray = false) :
    ∃ data, encode d v = .ok data := by
  cases v with
  | array items => cases h
  | _ => cases d <;> exact ⟨_, rfl⟩

theorem encodeAll_scalars (d : Dialect) {vs : List Value} (h : ∀ v ∈ vs, v.isArray = false) :
    ∃ list, encodeAll d vs = .ok list := by
  induction vs with
  | nil => exact ⟨[], rfl⟩
  | cons v rest ih =>
    obtain ⟨hv, hrest⟩ := List.forall_mem_cons.mp h
    obtain ⟨x, hx⟩ := encode_scalar d hv
    obtain ⟨xs, hxs⟩ := ih hrest
    exact ⟨x :: xs, by rw [encodeAll, hx, hxs]; rfl⟩

mutual

/-- All that encoding refuses are arrays. -/
theorem encode_error (d : Dialect) : ∀ v e, encode d v = .error e → e = .unsupported d .arrayValue
  | .array items, e, h => by
    rw [encode] at h
    split at h
    · cases hs : encodeAll d items with
      | ok list => rw [hs] at h; cases h
      | error e' =>
        rw [hs] at h
        cases h
        exact encodeAll_error d items _ hs
    · exact (Except.error.inj h).symm
  | .null, _, h | .int64 _, _, h | .float64 _, _, h | .text _, _, h | .enum _, _, h | .xml _, _, h
  | .json _, _, h | .bytes _, _, h | .bool _, _, h | .dateTime _, _, h | .date _, _, h
  | .time _, _, h | .uuid _, _, h | .decimal _, _, h => by
    cases d <;> cases h

theorem encodeAll_error (d : Dialect) :
    ∀ vs e, encodeAll d vs = .error e → e = .unsupported d .arrayValue
  | [], _, h => nomatch h
  | v :: rest, e, h => by
    rw [encodeAll] at h
    cases hv : encode d v with
    | error e' =>
      rw [hv] at h
      cases h
      exact encode_error d v _ hv
    | ok x =>
      cases hrest : encodeAll d rest with
      | error e' =>
        rw [hv, hrest] at h
        cases h
        exact encodeAll_error d rest _ hrest
      | ok xs =>
        rw [hv, hrest] at h
        cases h

end

end Dialect

/-! ## A single dialect -/

/-- Whether an error is a fault of building. -/
def RenderError.isFault : RenderError → Bool
  | .building _ => true
  | _ => false

theorem RenderError.inStyle_of_not_isFault (style : Style) {e : RenderError}
    (h : e.isFault = false) : e.inStyle style = e := by
  cases e with
  | building cause => cases h
  | _ => rfl

/-- What can be made of a written statement in a style. -/
theorem Statement.toQuery_of_ok {style : Style} {s : Statement} {f : Fragment}
    (h : s.render style.dialect = .ok f) :
    s.toQuery style = (f.toQuery style).mapError (RenderError.inStyle style) := by
  rw [Statement.toQuery, h]
  rfl

theorem Statement.toQuery_of_error {style : Style} {s : Statement} {e : RenderError}
    (h : s.render style.dialect = .error e) : s.toQuery style = .error (e.inStyle style) := by
  rw [Statement.toQuery, h]
  rfl

/-- A written statement is refused only for an array. -/
theorem Fragment.toQuery_error {style : Style} {f : Fragment} {e : RenderError}
    (h : f.toQuery style = .error e) : e = .unsupported style.dialect .arrayValue := by
  unfold Fragment.toQuery at h
  cases hp : Dialect.encodeAll style.dialect f.values with
  | ok params => rw [hp] at h; cases h
  | error e' =>
    rw [hp] at h
    cases h
    exact Dialect.encodeAll_error _ _ _ hp

/-- **Only a stated refusal leaves a style.** A statement that the constructors accept, with parts
of the declared types and anything where an expression is declared, becomes a query or is refused,
and not for a fault of building. What a dialect rebuilds before it writes it has to be an expression
or a record. -/
theorem Statement.isFault_eq_false_of_toQuery (style : Style) (s : Statement) (hs : s.IsTyped)
    (hnodes : s.All fun t => t.IsTyped ∧ t.IsFramed)
    (hreworked : ∀ e ∈ s.reworked style.dialect, e.isExpr = true ∨ e.isRecord = true) :
    (∃ q, s.toQuery style = .ok q) ∨ ∃ e, s.toQuery style = .error e ∧ e.isFault = false := by
  -- a statement of the right types fits itself in one dialect, so it is twin to itself
  have fitting : (Pairing.alone style.dialect).Fitting s :=
    { nodes := hnodes
      typed := fun _ => hs
      portable := fun ⟨_, h⟩ => nomatch h
      reworked := fun _ => hreworked
      unwrapped := fun h => h.elim }
  have meets := Pairing.meets_statement fitting
  cases hr : s.render style.dialect with
  | ok f =>
    rw [toQuery_of_ok hr]
    cases hq : f.toQuery style with
    | ok q => exact .inl ⟨q, rfl⟩
    | error e =>
      obtain rfl := Fragment.toQuery_error hq
      exact .inr ⟨_, rfl, rfl⟩
  | error e =>
    -- what it allows to fail is no fault
    have hallowed : (Pairing.alone style.dialect).Allows e := meets.left hr
    have hfault : e.isFault = false := by
      cases e with
      | building cause => exact hallowed.elim
      | _ => rfl
    rw [toQuery_of_error hr, RenderError.inStyle_of_not_isFault style hfault]
    exact .inr ⟨e, rfl, hfault⟩

/-- An upsert that assigns the negation of an integer that is no expression. -/
def strayUpsert : Statement :=
  .insert ⟨.table ⟨.word "t", .absent, .absent, []⟩, [.word "a"], .rows [[.literal .null]],
    some (.conflict ⟨[.word "a"], .update [⟨.word "a", .not (.foreign (.int 5))⟩]
      (some (.excluded (.word "a")))⟩), []⟩

theorem strayUpsert_isTyped : strayUpsert.IsTyped where
  target := ⟨_, rfl, rfl, rfl, rfl, nofun⟩
  nonempty := nofun
  columns := List.forall_mem_singleton.mpr rfl
  source := rfl
  conflict := by
    rintro _ ⟨⟩
    exact ⟨List.forall_mem_singleton.mpr rfl, List.forall_mem_singleton.mpr ⟨rfl, rfl⟩⟩
  returning := nofun

/-- What is no expression is refused as such. -/
theorem isFault_strayUpsert : ∃ e, strayUpsert.toQuery (.plain .sqlite) = .error e ∧
    e.isFault = false ∧ e.message? = some "Unsupported expression type for SqliteDialect: int" := by
  have nodes : strayUpsert.All fun t => t.IsTyped ∧ t.IsFramed :=
    List.forall_mem_cons.mpr ⟨⟨trivial, trivial⟩, List.forall_mem_cons.mpr
      ⟨⟨⟨trivial, trivial⟩, trivial, trivial⟩, List.forall_mem_singleton.mpr ⟨rfl, trivial⟩⟩⟩
  have reworked : ∀ e ∈ strayUpsert.reworked .sqlite, e.isExpr = true ∨ e.isRecord = true :=
    List.forall_mem_singleton.mpr (.inl rfl)
  rcases Statement.isFault_eq_false_of_toQuery (.plain .sqlite) strayUpsert strayUpsert_isTyped
    nodes reworked with ⟨q, hq⟩ | ⟨e, he, hfault⟩
  · have refused : (strayUpsert.toQuery (.plain .sqlite)).isOk = false := by decide +kernel
    rw [hq] at refused
    cases refused
  · refine ⟨e, he, hfault, ?_⟩
    have message : ((strayUpsert.toQuery (.plain .sqlite)).map fun _ => ()).mapError
        RenderError.message? =
          .error (some "Unsupported expression type for SqliteDialect: int") := by
      decide +kernel
    rw [he] at message
    exact Except.error.inj message

/-! ## All dialects -/

/-- What is written for portable trees binds no array: every value comes from a literal. -/
theorem Tree.isArray_of_mem_skeleton (d : Dialect) (t : Tree) (h : t.Every IsPortable) :
    ∀ v ∈ (t.skeleton d).values, v.isArray = false := by
  have hroot : t.IsPortable := (every_iff.mp h).1
  have inner : ∀ v ∈ (Fragment.concat ((t.written d).map (skeleton d))).values,
      v.isArray = false := by
    intro v hv
    rw [Fragment.values_concat, List.flatMap_map, List.mem_flatMap] at hv
    obtain ⟨b, hb, hv⟩ := hv
    have := sizeOf_lt_of_mem_written hb
    exact isArray_of_mem_skeleton d b (every_of_mem_written h hb) v hv
  rw [skeleton_eq]
  unfold frame
  split
  next value =>
    refine List.forall_mem_singleton.mpr ?_
    cases value with
    | array items => cases hroot.2
    | _ => rfl
  -- JSON is not portable, so no path and no name of a type is bound
  · cases hroot.1
  · cases hroot.1
  · exact inner
termination_by sizeOf t

theorem Statement.isArray_of_render {d : Dialect} {s : Statement} {f : Fragment}
    (h : s.Every Tree.IsPortable) (hf : s.render d = .ok f) :
    ∀ v ∈ f.values, v.isArray = false := by
  have hfits : Fits False (.plain d) _ f := comes_statement s (fun _ _ hs => hs.elim) f hf
  intro v hv
  rw [← Fragment.values_skeleton, hfits.binds, skeletons, Fragment.values_concat, List.flatMap_map,
    List.mem_flatMap] at hv
  obtain ⟨t, ht, hv⟩ := hv
  exact Tree.isArray_of_mem_skeleton d t (h t ((s.trees_perm d).mem_iff.mp ht)) v hv

/-- Whether a dialect lacks something, or an order of the rows is missing. -/
def RenderError.isLack : RenderError → Bool
  | .unsupported .. | .unordered .. => true
  | _ => false

/-- **Portable statements are written everywhere or nowhere.** A statement that uses only what every
dialect has, is in any two styles written in both or refused in both, and never because a dialect
lacks something or an order is missing. -/
theorem Statement.isOk_toQuery_eq (s : Statement) (hs : s.IsTyped)
    (hnodes : s.All fun t => t.IsTyped ∧ t.IsPortable) (hportable : s.IsPortable) :
    (∀ style style', (s.toQuery style).isOk = (s.toQuery style').isOk) ∧
      ∀ style e, s.toQuery style = .error e → e.isLack = false := by
  -- every dialect is compared with PostgreSQL, and through it with every other
  have meets : ∀ d, (Pairing.portable d).Meets (s.render .postgres) (s.render d) := fun d =>
    Pairing.meets_statement (c := .portable d)
      { nodes := hnodes
        typed := fun _ => hs
        portable := fun _ => hportable
        reworked := fun ⟨_, h⟩ => nomatch h
        unwrapped := fun h => h.elim }
  -- no array is bound, so all values have a representation
  have finished : ∀ style f, s.render style.dialect = .ok f → ∃ q, s.toQuery style = .ok q := by
    intro style f hf
    obtain ⟨params, hp⟩ := Dialect.encodeAll_scalars style.dialect
      (isArray_of_render (fun t ht n hn => (Tree.every_of_all (hnodes t ht) n hn).2) hf)
    exact ⟨_, by rw [toQuery_of_ok hf, Fragment.toQuery, hp]; rfl⟩
  have written : ∀ style, (s.toQuery style).isOk = (s.render style.dialect).isOk := by
    intro style
    cases hr : s.render style.dialect with
    | ok f =>
      obtain ⟨q, hq⟩ := finished style f hr
      rw [hq]
      rfl
    | error e =>
      rw [toQuery_of_error hr]
      rfl
  constructor
  · intro style style'
    rw [written, written, ← (meets style.dialect).isOk_eq, ← (meets style'.dialect).isOk_eq]
  · intro style e he
    cases hr : s.render style.dialect with
    | ok f =>
      obtain ⟨q, hq⟩ := finished style f hr
      cases hq.symm.trans he
    | error e' =>
      have hallowed := (meets style.dialect).right hr
      rw [toQuery_of_error hr] at he
      obtain rfl := Except.error.inj he
      -- lacks are not allowed between dialects, and no other error is one
      cases e' with
      | unsupported | unordered => exact hallowed.elim
      | building cause => cases cause <;> rfl
      | _ => rfl

/-- An upsert about a column that is inserted. -/
def portableUpsert : Statement :=
  .insert ⟨.table ⟨.word "t", .absent, .absent, []⟩, [.word "a", .word "n"],
    .rows [[.literal .null, .literal (.text "v")]],
    some (.conflict ⟨[.word "a"], .update [⟨.word "n", .excluded (.word "n")⟩] none⟩), []⟩

/-- MySQL and SQL Server have forms of their own for it, and still all dialects can write it. -/
theorem isOk_portableUpsert :
    portableUpsert.IsPortable ∧ ∀ style, (portableUpsert.toQuery style).isOk = true := by
  have typed : portableUpsert.IsTyped :=
    { target := ⟨_, rfl, rfl, rfl, rfl, nofun⟩
      nonempty := nofun
      columns := List.forall_mem_cons.mpr ⟨rfl, List.forall_mem_singleton.mpr rfl⟩
      source := rfl
      conflict := by
        rintro _ ⟨⟩
        exact ⟨List.forall_mem_singleton.mpr rfl, List.forall_mem_singleton.mpr ⟨rfl, rfl⟩⟩
      returning := nofun }
  have nodes : portableUpsert.All fun t => t.IsTyped ∧ t.IsPortable :=
    List.forall_mem_cons.mpr ⟨⟨trivial, rfl, rfl⟩, List.forall_mem_cons.mpr
      ⟨⟨trivial, rfl, rfl⟩, List.forall_mem_singleton.mpr ⟨rfl, rfl, rfl⟩⟩⟩
  have portable : portableUpsert.IsPortable := by
    refine ⟨rfl, ?_⟩
    rintro _ ⟨⟩
    exact ⟨nofun, List.forall_mem_singleton.mpr (by decide +kernel), rfl⟩
  refine ⟨portable, fun style => ?_⟩
  rw [(Statement.isOk_toQuery_eq portableUpsert typed nodes portable).1 style (.plain .mssql)]
  decide +kernel

end SqlScribe
