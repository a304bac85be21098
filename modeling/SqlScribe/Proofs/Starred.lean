import SqlScribe.Proofs.Accepted
import SqlScribe.Proofs.Exchange
import SqlScribe.Proofs.Paging

/-!
# Selects without items

A select without items is written with a star. It is written like the select with the one item `*`,
because nothing else of a select depends on its items, but for one thing: where SQL Server has to
order distinct rows by the primary key of their table, it looks for the key among the items. There
the star shows every column, and an empty projection shows none (`Select.refused_of_needsKey`).
-/

namespace SqlScribe

/-- The item that shows all columns. -/
def SelectItem.all : SelectItem := ⟨.star .absent, .absent⟩

namespace Select

/-- Whether a select has a source and no items, and so shows all columns. -/
def isOpen (s : Select) : Bool := s.items.isEmpty && s.source.isSome

/-- A select with a star in place of an empty projection. -/
def starred (s : Select) : Select := if s.isOpen then { s with items := [.all] } else s

/-- Whether distinct rows of a select have to be ordered by a primary key before they are counted:
no order is given, a part of the rows is asked for, and the source is a table with a key. -/
def needsKey (s : Select) : Bool :=
  s.distinct.isTrue && s.orderBy.isEmpty && (s.limit.isSome || s.offset.isSome) &&
    match s.source with
    | some (.table t) => !t.primaryKey.isEmpty
    | _ => false

/-- A select with a star in place of an empty projection, unless SQL Server looks for a primary key
there. -/
def starredIn (d : Dialect) (s : Select) : Select :=
  if d = .mssql && s.needsKey then s else s.starred

end Select

section

variable {d : Dialect}

/-- Steps behind a result are alike if they are for all results that can come. -/
theorem bind_congr_of_yields {ε α β : Type} {P : α → Prop} {x : Except ε α}
    {k k' : α → Except ε β} (hx : Yields P x) (h : ∀ a, P a → k a = k' a) : x >>= k = x >>= k' := by
  cases x with
  | error e => rfl
  | ok a => exact h a (hx a rfl)

/-- An order by a primary key asks for the items only of distinct rows. -/
theorem orderByKey_all {source : Option Source} {distinct : Bool}
    (h : ∀ t, source = some (.table t) → t.primaryKey = [] ∨ distinct = false) :
    orderByKey source [.all] distinct = orderByKey source [] distinct := by
  cases source with
  | none => rfl
  | some o =>
    cases o with
    | table t =>
      rcases h t rfl with hkey | hdistinct
      · simp only [orderByKey, hkey, List.isEmpty_nil, if_true]
      · simp only [orderByKey, hdistinct, Bool.false_and, Bool.false_eq_true, if_false]
    | derived _ _ | other _ => rfl

/-- The clauses for the rows do not tell an empty projection from a star, unless a key is needed. -/
theorem rowClauses_all {source : Option Source} {distinct : Bool} {order : List Fragment}
    {limit offset : Option Nat}
    (h : d = .mssql → (limit.isSome || offset.isSome) = true → order = [] → distinct = true →
      ∀ t, source = some (.table t) → t.primaryKey = []) :
    rowClauses d source [.all] distinct order limit offset =
      rowClauses d source [] distinct order limit offset := by
  unfold rowClauses
  dsimp only
  -- only SQL Server asks for the key, and only of a page without an order
  split
  next hpage =>
    obtain ⟨hd, hpage⟩ := (Bool.and_eq_true _ _).mp hpage
    cases order with
    | cons f rest => rfl
    | nil =>
      rw [orderByKey_all fun t ht => ?_]
      cases distinct with
      | false => exact .inr rfl
      | true => exact .inl (h (of_decide_eq_true hd) hpage rfl rfl t ht)
  · rfl

theorem Select.needsKey_eq_true_iff (s : Select) : s.needsKey = true ↔
    s.distinct.isTrue = true ∧ s.orderBy = [] ∧ (s.limit.isSome || s.offset.isSome) = true ∧
      ∃ t, s.source = some (.table t) ∧ t.primaryKey ≠ [] := by
  unfold needsKey
  simp only [Bool.and_eq_true, List.isEmpty_iff, and_assoc]
  refine and_congr_right fun _ => and_congr_right fun _ => and_congr_right fun _ => ?_
  split
  next t ht =>
    rw [ht]
    simp
  next h => exact iff_of_false Bool.false_ne_true fun ⟨t, ht, _⟩ => h t ht

theorem Select.items_of_isOpen {s : Select} (h : s.isOpen = true) : s.items = [] :=
  List.isEmpty_iff.mp ((Bool.and_eq_true _ _).mp h).1

/-- In front of the clauses for the rows, a star is what is written for an empty projection. -/
theorem Select.headClauses_starred (d : Dialect) (s : Select) :
    s.starred.headClauses d = s.headClauses d := by
  unfold starred
  split
  next hopen =>
    obtain ⟨items, source, joins, filter, groupBy, having, orderBy, limit, offset, distinct⟩ := s
    obtain rfl : items = [] := items_of_isOpen hopen
    rfl
  · rfl

/-- **A select without items is written like the select with a star**, but for SQL Server where it
needs a key. -/
theorem keepsText_starredIn (d : Dialect) : KeepsText d (Select.starredIn d) := by
  intro s
  unfold Select.starredIn
  split
  · rfl
  next hkey =>
  rw [Select.render_eq_headClauses, Select.render_eq_headClauses, Select.headClauses_starred]
  refine bind_congr_of_yields (fun head h => (Select.headClauses_eq_ok h).2) fun head horder => ?_
  unfold Select.starred
  split
  next hopen =>
    have rows : rowClauses d s.source [.all] s.distinct.isTrue head.2 s.limit s.offset =
        rowClauses d s.source s.items s.distinct.isTrue head.2 s.limit s.offset := by
      rw [Select.items_of_isOpen hopen]
      refine rowClauses_all fun hd hpage hnone hdistinct t ht => ?_
      by_contra hne
      refine hkey ((Bool.and_eq_true _ _).mpr ⟨decide_eq_true hd, ?_⟩)
      rw [hnone] at horder
      exact (Select.needsKey_eq_true_iff _).mpr
        ⟨hdistinct, List.forall₂_nil_right_iff.mp horder, hpage, t, ht, hne⟩
    -- the clauses in front of the rows are those of the items, which are all or none
    dsimp only
    rw [rows]
  · rfl

/-- No column is shown by an empty projection. -/
theorem orderByKey_nil {t : Table} (hne : t.primaryKey ≠ [])
    (htexts : ∀ k ∈ t.primaryKey, k.isText = true) :
    ∃ keys, orderByKey (some (.table t)) [] true = .error (.unordered .mssql keys) := by
  obtain ⟨keys, hkeys⟩ := Expr.mapM_asText?_of_isText htexts
  have hidden : hiddenKeys t [] = t.primaryKey := by simp [hiddenKeys]
  refine ⟨keys, ?_⟩
  rw [orderByKey, hidden, hkeys]
  simp [hne]

/-- **An empty projection hides the primary key** where distinct rows have to be ordered by it: such
a select is refused, though the select with a star is written. -/
theorem Select.refused_of_needsKey {s : Select} (hopen : s.isOpen = true)
    (hkey : s.needsKey = true) {f : Fragment} (h : s.starred.render .mssql = .ok f) :
    ∃ keys, s.render .mssql = .error (.unordered .mssql keys) := by
  obtain ⟨hdistinct, hnone, hpage, t, hsource, hne⟩ := (needsKey_eq_true_iff _).mp hkey
  rw [render_eq_headClauses, headClauses_starred, starred, if_pos hopen] at h
  obtain ⟨⟨clauses, order⟩, hhead, h⟩ := bind_eq_ok.mp h
  obtain ⟨rows, hrows, -⟩ := bind_eq_ok.mp h
  obtain rfl := order_of_headClauses hnone hhead
  have unordered := (rowClauses_unordered s.source [.all] hpage).symm.trans hrows
  obtain ⟨_, hkeys, -⟩ := bind_eq_ok.mp unordered
  rw [hsource] at hkeys
  -- the keys are texts, since they were written in the order
  obtain ⟨_, written, ⟨⟩, -, hwritten, -⟩ := orderByKey_eq_ok hkeys
  have each : List.Forall₂ (fun k _ => k.isText = true ∧ True) t.primaryKey written :=
    hwritten.imp fun k f ⟨_, name, _, hk, _⟩ => ⟨Option.isSome_iff_exists.mpr ⟨name, hk⟩, trivial⟩
  have texts : ∀ k ∈ t.primaryKey, k.isText = true := ((List.forall₂_and_left _ _).mp each).1
  obtain ⟨keys, hkeys⟩ := orderByKey_nil hne texts
  refine ⟨keys, ?_⟩
  rw [render_eq_headClauses, hhead, ok_bind]
  dsimp only
  rw [rowClauses_unordered _ _ hpage, hsource, items_of_isOpen hopen, hdistinct, hkeys]
  rfl

end

end SqlScribe
