import Mathlib.Data.List.Infix
import SqlScribe.Expr.Combine
import SqlScribe.Render.Query

/-!
# What the patterns for beginnings, ends and parts match

A pattern is read character by character: `%` stands for any text, `_` for any one character, and
every other character for itself. That is the relation `Like`; nothing takes this meaning away from
a character. `reads` tries the ways in which a pattern can be laid over a text, and finds one if and
only if there is one.

A given text stands in the three patterns as it is, so a `%` or `_` of its own keeps its meaning:
the patterns find a beginning, an end or a part *that the given text matches as a pattern*
(`matches_pattern_iff`). That is the given text itself if and only if it has no such character, and
if it has one, no other pattern could do better (`Place.tells_iff`): in what a pattern matches, each
`%` and each `_` has been stood for by a `%` or `_` of the pattern, which any other character would
have satisfied as well (`Like.map`).
-/

namespace SqlScribe.LikePattern

/-- Whether a character of a pattern stands for others. -/
def IsWild (c : Char) : Prop := c = '%' ∨ c = '_'

instance (c : Char) : Decidable (IsWild c) := inferInstanceAs (Decidable (_ ∨ _))

/-- Whether a text, read as a pattern, stands for nothing but itself. -/
def IsPlain (s : String) : Prop := ∀ c ∈ s.toList, ¬IsWild c

/-- How a pattern matches a text. -/
inductive Like : List Char → List Char → Prop
  | done : Like [] []
  | anyText (skipped : List Char) {pattern s : List Char} (h : Like pattern s) :
    Like ('%' :: pattern) (skipped ++ s)
  | anyChar (c : Char) {pattern s : List Char} (h : Like pattern s) :
    Like ('_' :: pattern) (c :: s)
  | itself {c : Char} (hc : ¬IsWild c) {pattern s : List Char} (h : Like pattern s) :
    Like (c :: pattern) (c :: s)

/-- Lays a pattern over a text, trying for each `%` everything that it can stand for. -/
def reads : List Char → List Char → Bool
  | [], s => s.isEmpty
  | c :: pattern, s =>
    if c = '%' then s.tails.any (reads pattern)
    else
      match s with
      | [] => false
      | first :: rest => (c = '_' || c = first) && reads pattern rest

/-- Whether a pattern matches a text. -/
def Matches (pattern s : String) : Prop := Like pattern.toList s.toList

variable {p q s : List Char} {c : Char}

/-! ## Matching, piece by piece -/

theorem like_nil_iff : Like [] s ↔ s = [] := by
  constructor
  · rintro ⟨⟩
    rfl
  · rintro rfl
    exact .done

theorem like_percent_iff : Like ('%' :: p) s ↔ ∃ rest, rest <:+ s ∧ Like p rest := by
  constructor
  · intro h
    cases h with
    | anyText skipped h => exact ⟨_, List.suffix_append _ _, h⟩
    | itself hc _ => exact absurd (.inl rfl) hc
  · rintro ⟨rest, ⟨skipped, rfl⟩, h⟩
    exact .anyText skipped h

theorem like_cons_iff (hc : c ≠ '%') :
    Like (c :: p) s ↔ ∃ first rest, s = first :: rest ∧ (c = '_' ∨ c = first) ∧ Like p rest := by
  constructor
  · intro h
    cases h with
    | anyText => exact absurd rfl hc
    | anyChar first h => exact ⟨first, _, rfl, .inl rfl, h⟩
    | itself _ h => exact ⟨c, _, rfl, .inr rfl, h⟩
  · rintro ⟨first, rest, rfl, hfirst, h⟩
    by_cases hany : c = '_'
    · rw [hany]
      exact .anyChar first h
    · cases hfirst.resolve_left hany
      exact .itself (fun hwild => hwild.elim hc hany) h

/-- **The pattern is found to match if and only if it does.** -/
theorem reads_iff : reads p s = true ↔ Like p s := by
  induction p generalizing s with
  | nil => rw [reads, List.isEmpty_iff, like_nil_iff]
  | cons c p ih =>
    unfold reads
    by_cases hc : c = '%'
    · rw [if_pos hc, hc, like_percent_iff, List.any_eq_true]
      simp only [List.mem_tails, ih]
    · rw [if_neg hc, like_cons_iff hc]
      cases s with
      | nil => simp
      | cons first rest => simp [ih]

instance (pattern s : String) : Decidable (Matches pattern s) := decidable_of_iff _ reads_iff

/-- Two patterns behind each other match what can be cut into what they match. -/
theorem like_append_iff : Like (p ++ q) s ↔ ∃ u v, s = u ++ v ∧ Like p u ∧ Like q v := by
  constructor
  -- on the pattern: a text that was skipped belongs to the first part
  · induction p generalizing s with
    | nil => exact fun h => ⟨[], s, rfl, .done, h⟩
    | cons c p ih =>
      intro h
      cases h with
      | anyText skipped h =>
        obtain ⟨u, v, rfl, hu, hv⟩ := ih h
        exact ⟨skipped ++ u, v, (List.append_assoc _ _ _).symm, .anyText skipped hu, hv⟩
      | anyChar first h =>
        obtain ⟨u, v, rfl, hu, hv⟩ := ih h
        exact ⟨first :: u, v, rfl, .anyChar first hu, hv⟩
      | itself hc h =>
        obtain ⟨u, v, rfl, hu, hv⟩ := ih h
        exact ⟨c :: u, v, rfl, .itself hc hu, hv⟩
  · rintro ⟨u, v, rfl, hu, hv⟩
    -- on the matching of the first part
    induction hu with
    | done => exact hv
    | anyText skipped _ ih =>
      rw [List.append_assoc]
      exact .anyText skipped ih
    | anyChar first _ ih => exact .anyChar first ih
    | itself hc _ ih => exact .itself hc ih

theorem like_percent (s : List Char) : Like ['%'] s :=
  like_percent_iff.mpr ⟨[], List.nil_suffix, .done⟩

/-- A text that stands for nothing but itself matches itself alone. -/
theorem like_plain_iff (h : ∀ c ∈ p, ¬IsWild c) : Like p s ↔ s = p := by
  induction p generalizing s with
  | nil => exact like_nil_iff
  | cons c p ih =>
    obtain ⟨hc, hp⟩ := List.forall_mem_cons.mp h
    have hne : c ≠ '%' := fun he => hc (.inl he)
    have hne' : c ≠ '_' := fun he => hc (.inr he)
    simp [like_cons_iff hne, ih hp, hne']

/-- **What is matched may have other characters in the places of `%` and `_`.** -/
theorem Like.map {f : Char → Char} (hf : ∀ c, ¬IsWild c → f c = c) (h : Like p s) :
    Like p (s.map f) := by
  induction h with
  | done => exact .done
  | anyText skipped _ ih =>
    rw [List.map_append]
    exact .anyText _ ih
  | anyChar first _ ih => exact .anyChar _ ih
  | itself hc _ ih =>
    rw [List.map_cons, hf _ hc]
    exact .itself hc ih

/-- The comparison binds the pattern behind what its operand binds. -/
theorem render_matchesPattern (d : Dialect) (e : Expr) (pattern : String) :
    (e.matchesPattern pattern).map (Expr.render d) =
      e.operand.map fun left => (operandOf left (left.render d)).map fun l =>
        l ++ " " ++ Operator.like.text ++ " " ++ Fragment.bound (.text pattern) := by
  unfold Expr.matchesPattern Expr.comparison
  cases e.operand with
  | error err => rfl
  | ok left =>
    have bound : (Expr.literal (.text pattern)).render d =
        .ok (Fragment.bound (.text pattern)) := by rw [Expr.render]
    show Except.ok (Expr.render d (.binary .like left (.literal (.text pattern)))) =
      Except.ok ((operandOf left (left.render d)).map _)
    rw [Expr.render, bound]
    cases operandOf left (left.render d) <;> rfl

/-! ## Where a text is looked for -/

/-- Where a text can stand in another. -/
inductive Place where
  | beginning | ending | anywhere

namespace Place

/-- The pattern for a text in a place. -/
def pattern : Place → String → String
  | beginning => startingWith
  | ending => endingWith
  | anywhere => containing

/-- Whether a text stands in its place in another. -/
def Holds : Place → List Char → List Char → Prop
  | beginning => (· <+: ·)
  | ending => (· <:+ ·)
  | anywhere => (· <:+: ·)

instance (place : Place) (p s : List Char) : Decidable (place.Holds p s) :=
  match place with
  | beginning => inferInstanceAs (Decidable (p <+: s))
  | ending => inferInstanceAs (Decidable (p <:+ s))
  | anywhere => inferInstanceAs (Decidable (p <:+: s))

theorem holds_self (place : Place) (s : List Char) : place.Holds s s := by
  cases place with
  | beginning => exact List.prefix_rfl
  | ending => exact List.suffix_rfl
  | anywhere => exact List.infix_rfl

theorem Holds.eq_of_length {place : Place} (h : place.Holds p s) (hlength : p.length = s.length) :
    p = s := by
  cases place with
  | beginning => exact List.IsPrefix.eq_of_length h hlength
  | ending => exact List.IsSuffix.eq_of_length h hlength
  | anywhere => exact List.IsInfix.eq_of_length h hlength

end Place

/-- **The three patterns find what the given text matches.** -/
theorem matches_pattern_iff (place : Place) (given s : String) :
    Matches (place.pattern given) s ↔
      ∃ part, place.Holds part s.toList ∧ Like given.toList part := by
  -- a wildcard at the end takes whatever is behind
  have front (s : List Char) :
      Like (given.toList ++ ['%']) s ↔ ∃ part, part <+: s ∧ Like given.toList part := by
    rw [like_append_iff]
    constructor
    · rintro ⟨u, v, rfl, hu, -⟩
      exact ⟨u, List.prefix_append u v, hu⟩
    · rintro ⟨u, ⟨v, rfl⟩, hu⟩
      exact ⟨u, v, rfl, hu, like_percent v⟩
  cases place with
  | beginning =>
    show Like (startingWith given).toList s.toList ↔ _
    rw [startingWith, String.toList_append]
    exact front _
  | ending =>
    show Like (endingWith given).toList s.toList ↔ _
    rw [endingWith, String.toList_append]
    exact like_percent_iff
  | anywhere =>
    show Like (containing given).toList s.toList ↔ ∃ part, part <:+: s.toList ∧ _
    rw [containing, String.toList_append, String.toList_append, List.append_assoc]
    refine like_percent_iff.trans ?_
    simp only [List.infix_iff_prefix_suffix]
    constructor
    · rintro ⟨rest, hrest, h⟩
      obtain ⟨part, hpart, hlike⟩ := (front rest).mp h
      exact ⟨part, ⟨rest, hpart, hrest⟩, hlike⟩
    · rintro ⟨part, ⟨rest, hpart, hrest⟩, hlike⟩
      exact ⟨rest, hrest, (front rest).mpr ⟨part, hpart, hlike⟩⟩

/-- A text in whose place of `%` and `_` there is a letter. -/
def withLetters (s : List Char) : List Char := s.map fun c => if IsWild c then 'x' else c

theorem withLetters_eq_self (h : withLetters s = s) : ∀ c ∈ s, ¬IsWild c := by
  intro c hc hwild
  obtain ⟨before, behind, rfl⟩ := List.append_of_mem hc
  simp only [withLetters, List.map_append, List.map_cons] at h
  have here := (List.cons.inj (List.append_inj_right h (List.length_map _))).1
  rw [if_pos hwild] at here
  rw [← here] at hwild
  exact absurd hwild (by decide)

/-- **No pattern tells where a text with `%` or `_` stands.** -/
theorem Place.isPlain_of_tells {place : Place} {given pattern : String}
    (h : ∀ s, Matches pattern s ↔ place.Holds given.toList s.toList) : IsPlain given := by
  have matched : Matches pattern given := (h given).mpr (place.holds_self _)
  have changed : Matches pattern (String.ofList (withLetters given.toList)) := by
    unfold Matches
    rw [String.toList_ofList]
    exact matched.map fun c hc => if_neg hc
  have found := (h _).mp changed
  rw [String.toList_ofList] at found
  exact withLetters_eq_self (found.eq_of_length (List.length_map _).symm).symm

theorem Place.tells_of_isPlain (place : Place) {given : String} (h : IsPlain given) (s : String) :
    Matches (place.pattern given) s ↔ place.Holds given.toList s.toList := by
  rw [matches_pattern_iff]
  simp [like_plain_iff h]

/-- **What the three patterns tell.** The comparison binds the pattern behind what its operand
binds. The pattern matches the texts in which something that the given text matches stands in the
place. So it tells where the given text itself stands if and only if that has no `%` and no `_`, and
exactly then there is a pattern that does. -/
theorem Place.tells_iff (place : Place) (given : String) :
    (∀ (d : Dialect) (e : Expr),
      (e.matchesPattern (place.pattern given)).map (Expr.render d) =
        e.operand.map fun left => (operandOf left (left.render d)).map fun l =>
          l ++ " " ++ Operator.like.text ++ " " ++
            Fragment.bound (.text (place.pattern given))) ∧
    (∀ s, Matches (place.pattern given) s ↔
      ∃ part, place.Holds part s.toList ∧ Like given.toList part) ∧
    ((∀ s, Matches (place.pattern given) s ↔ place.Holds given.toList s.toList) ↔
      IsPlain given) ∧
    ((∃ pattern, ∀ s, Matches pattern s ↔ place.Holds given.toList s.toList) ↔
      IsPlain given) := by
  refine ⟨fun d e => render_matchesPattern d e _, matches_pattern_iff place given,
    ⟨isPlain_of_tells, place.tells_of_isPlain⟩, ⟨?_, fun h => ⟨_, place.tells_of_isPlain h⟩⟩⟩
  rintro ⟨pattern, h⟩
  exact isPlain_of_tells h

/-- A text with a percent sign is found in one that it does not stand in, whatever the place. -/
theorem percent_matches_more :
    (Matches (startingWith "5%") "505" ∧ ¬"5%".toList <+: "505".toList) ∧
      (Matches (endingWith "5%") "505" ∧ ¬"5%".toList <:+ "505".toList) ∧
      (Matches (containing "5%") "505" ∧ ¬"5%".toList <:+: "505".toList) := by
  decide

end SqlScribe.LikePattern
