import SqlScribe.Proofs.Outcome

/-!
# Two outcomes side by side

Two runs go together if both have a result, and the results belong to each other, or if both fail in
a way that is allowed. What goes together step by step goes together as a whole, so a claim about
two runs comes down to claims about their steps.

Where only success counts, the steps of the two runs need not even come in the same order: `Tells`
says of one outcome when it is a result, and two outcomes that tell the same go together.
-/

namespace SqlScribe

/-- Whether two outcomes are both results that `R` relates, or both errors that `E` allows. -/
def Paired {ε α β : Type} (R : α → β → Prop) (E : ε → Prop) : Except ε α → Except ε β → Prop
  | .ok a, .ok b => R a b
  | .error e, .error e' => E e ∧ E e'
  | _, _ => False

section

variable {ε α β γ δ : Type} {R R' : α → β → Prop} {S : γ → δ → Prop} {E : ε → Prop}
  {x : Except ε α} {y : Except ε β}

theorem paired_ok {a : α} {b : β} (h : R a b) : Paired (ε := ε) R E (.ok a) (.ok b) := h

theorem paired_error {e e' : ε} (h : E e) (h' : E e') : Paired R E (.error e) (.error e') := ⟨h, h'⟩

/-- An outcome goes together with itself if its result is related to itself, and its error is
allowed. -/
theorem paired_self {R : α → α → Prop} (h : ∀ a, R a a) (he : ∀ e, x = .error e → E e) :
    Paired R E x x := by
  cases x with
  | ok a => exact h a
  | error e => exact ⟨he e rfl, he e rfl⟩

namespace Paired

theorem cases (h : Paired R E x y) :
    (∃ a b, x = .ok a ∧ y = .ok b ∧ R a b) ∨ ∃ e e', x = .error e ∧ y = .error e' ∧ E e ∧ E e' := by
  cases x with
  | ok a =>
    cases y with
    | ok b => exact .inl ⟨a, b, rfl, rfl, h⟩
    | error e' => exact h.elim
  | error e =>
    cases y with
    | ok b => exact h.elim
    | error e' => exact .inr ⟨e, e', rfl, rfl, h⟩

theorem mono (h : Paired R E x y) (hR : ∀ a b, R a b → R' a b) : Paired R' E x y := by
  rcases h.cases with ⟨a, b, rfl, rfl, hab⟩ | ⟨e, e', rfl, rfl, he, he'⟩
  · exact hR a b hab
  · exact ⟨he, he'⟩

theorem bind {f : α → Except ε γ} {g : β → Except ε δ} (h : Paired R E x y)
    (hf : ∀ a b, R a b → Paired S E (f a) (g b)) : Paired S E (x >>= f) (y >>= g) := by
  rcases h.cases with ⟨a, b, rfl, rfl, hab⟩ | ⟨e, e', rfl, rfl, he, he'⟩
  · exact hf a b hab
  · exact ⟨he, he'⟩

theorem map {f : α → γ} {g : β → δ} (h : Paired R E x y) (hf : ∀ a b, R a b → S (f a) (g b)) :
    Paired S E (x.map f) (y.map g) := by
  rcases h.cases with ⟨a, b, rfl, rfl, hab⟩ | ⟨e, e', rfl, rfl, he, he'⟩
  · exact hf a b hab
  · exact ⟨he, he'⟩

/-- A step that only the first run takes must not fail. -/
theorem skip_left {x : Except ε γ} {f : γ → Except ε α} (hx : ∃ a, x = .ok a)
    (h : ∀ a, Paired R E (f a) y) : Paired R E (x >>= f) y := by
  obtain ⟨a, rfl⟩ := hx
  exact h a

/-- Nor must a step that only the second takes. -/
theorem skip_right {y : Except ε γ} {g : γ → Except ε β} (hy : ∃ b, y = .ok b)
    (h : ∀ b, Paired R E x (g b)) : Paired R E x (y >>= g) := by
  obtain ⟨b, rfl⟩ := hy
  exact h b

/-- A step of the second run with a known result. -/
theorem step_right {y : Except ε γ} {g : γ → Except ε β} {b : γ} (hy : y = .ok b)
    (h : Paired R E x (g b)) : Paired R E x (y >>= g) := by
  obtain rfl := hy
  exact h

theorem map_left {f : α → γ} {S : γ → β → Prop} (h : Paired R E x y)
    (hf : ∀ a b, R a b → S (f a) b) : Paired S E (x.map f) y := by
  rcases h.cases with ⟨a, b, rfl, rfl, hab⟩ | ⟨e, e', rfl, rfl, he, he'⟩
  · exact hf a b hab
  · exact ⟨he, he'⟩

/-- What the first outcome yields may be used too. -/
theorem yields {P : α → Prop} (h : Paired R E x y) (hx : Yields P x) :
    Paired (fun a b => R a b ∧ P a) E x y := by
  rcases h.cases with ⟨a, b, rfl, rfl, hab⟩ | ⟨e, e', rfl, rfl, he, he'⟩
  · exact ⟨hab, hx a rfl⟩
  · exact ⟨he, he'⟩

/-- Outcomes that go together are results together. -/
theorem isOk_eq (h : Paired R E x y) : x.isOk = y.isOk := by
  rcases h.cases with ⟨a, b, rfl, rfl, -⟩ | ⟨e, e', rfl, rfl, -⟩ <;> rfl

theorem left {e : ε} (h : Paired R E x y) (hx : x = .error e) : E e := by
  rcases h.cases with ⟨a, b, rfl, rfl, -⟩ | ⟨e₁, e₂, rfl, rfl, he, -⟩
  · cases hx
  · exact Except.error.inj hx ▸ he

theorem right {e : ε} (h : Paired R E x y) (hy : y = .error e) : E e := by
  rcases h.cases with ⟨a, b, rfl, rfl, -⟩ | ⟨e₁, e₂, rfl, rfl, -, he⟩
  · cases hy
  · exact Except.error.inj hy ▸ he

end Paired

theorem paired_allOk {E : RenderError → Prop} {xs : List (Rendered α)} {ys : List (Rendered β)}
    (h : List.Forall₂ (Paired R E) xs ys) :
    Paired (List.Forall₂ R) E (allOk xs) (allOk ys) := by
  induction h with
  | nil => exact paired_ok .nil
  | cons hxy _ ih =>
    exact hxy.bind fun a b hab => ih.bind fun as bs hs => paired_ok (.cons hab hs)

end

/-! ## Success alone -/

/-- Whether an outcome is a result if and only if `P` holds, and an error that `E` allows
otherwise. -/
def Tells {ε α : Type} (E : ε → Prop) (P : Prop) : Except ε α → Prop
  | .ok _ => P
  | .error e => E e ∧ ¬P

section

variable {ε α β : Type} {E : ε → Prop} {P Q : Prop} {x : Except ε α} {y : Except ε β}

/-- Two outcomes that tell the same go together. -/
theorem paired_of_tells (hx : Tells E P x) (hy : Tells E P y) :
    Paired (fun _ _ => True) E x y := by
  cases x with
  | ok a =>
    cases y with
    | ok b => trivial
    | error e' => exact hy.2 hx
  | error e =>
    cases y with
    | ok b => exact hx.2 hy
    | error e' => exact ⟨hx.1, hy.1⟩

/-- The second of two outcomes tells whether the first is a result. -/
theorem Paired.tells {R : α → β → Prop} (h : Paired R E x y) : Tells E (x.isOk = true) y := by
  rcases h.cases with ⟨a, b, rfl, rfl, -⟩ | ⟨e, e', rfl, rfl, -, he'⟩
  · exact rfl
  · exact ⟨he', Bool.false_ne_true⟩

/-- The first tells it too. -/
theorem Paired.tells_left {R : α → β → Prop} (h : Paired R E x y) : Tells E (x.isOk = true) x := by
  rcases h.cases with ⟨a, b, rfl, rfl, -⟩ | ⟨e, e', rfl, rfl, he, -⟩
  · exact rfl
  · exact ⟨he, Bool.false_ne_true⟩

theorem tells_ok (a : α) : Tells E True (.ok a) := trivial

namespace Tells

theorem congr (h : Tells E P x) (hPQ : P ↔ Q) : Tells E Q x := propext hPQ ▸ h

theorem bind {f : α → Except ε β} (hx : Tells E P x) (hf : ∀ a, Tells E Q (f a)) :
    Tells E (P ∧ Q) (x >>= f) := by
  cases x with
  | ok a => exact (hf a).congr (and_iff_right hx).symm
  | error e => exact ⟨hx.1, fun h => hx.2 h.1⟩

theorem map {f : α → β} (hx : Tells E P x) : Tells E P (x.map f) := by
  cases x with
  | ok a => exact hx
  | error e => exact hx

/-- A list of outcomes is a list of results if each is a result. -/
theorem allOk {E : RenderError → Prop} {ι : Type} {P : ι → Prop} {is : List ι}
    {xs : List (Rendered α)} (h : List.Forall₂ (fun i x => Tells E (P i) x) is xs) :
    Tells E (∀ i ∈ is, P i) (SqlScribe.allOk xs) := by
  induction h with
  | nil => exact fun i hi => nomatch hi
  | cons hx _ ih =>
    refine (hx.bind fun a => ih.map).congr ?_
    rw [List.forall_mem_cons]

end Tells

end

end SqlScribe
