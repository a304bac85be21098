import Mathlib.Data.List.Forall2
import SqlScribe.Render.Layout

/-!
# What outcomes yield

An outcome yields only results with a property if every result that it may have has it; an error
yields nothing. The lemmas here carry properties through the steps of writing, so that the proofs
about fragments never look at errors.

Two outcomes agree up to a view of their results if they have the same error, or results with the
same view. Steps that agree one by one agree as a whole.
-/

namespace SqlScribe

/-- Whether an outcome has only results with a property. -/
def Yields {ε α : Type} (P : α → Prop) (x : Except ε α) : Prop := ∀ a, x = .ok a → P a

section

variable {ε α β : Type} {P : α → Prop} {Q : β → Prop}

theorem yields_ok {a : α} (h : P a) : Yields (ε := ε) P (.ok a) := by
  rintro _ ⟨⟩
  exact h

theorem yields_error {e : ε} : Yields P (.error e) := by
  rintro _ ⟨⟩

/-- A pair is the result if its parts are. -/
theorem eq_ok_of_toOption {x : Except ε (α × β)} {a : α} {b : β}
    (ha : x.toOption.map Prod.fst = some a) (hb : x.toOption.map Prod.snd = some b) :
    x = .ok (a, b) := by
  cases x with
  | error e => cases ha
  | ok p =>
    cases ha
    cases hb
    rfl

theorem bind_eq_ok {x : Except ε α} {f : α → Except ε β} {b : β} :
    (x >>= f) = .ok b ↔ ∃ a, x = .ok a ∧ f a = .ok b := by
  cases x <;> simp [bind, Except.bind]

theorem Yields.bind {x : Except ε α} {f : α → Except ε β} (hx : Yields P x)
    (hf : ∀ a, P a → Yields Q (f a)) : Yields Q (x >>= f) := by
  intro b hb
  obtain ⟨a, ha, hb⟩ := bind_eq_ok.mp hb
  exact hf a (hx a ha) b hb

/-- A step whose result does not matter. -/
theorem yields_after {x : Except ε α} {f : α → Except ε β} (h : ∀ a, Yields Q (f a)) :
    Yields Q (x >>= f) :=
  Yields.bind (P := fun _ => True) (fun _ _ => trivial) fun a _ => h a

theorem Yields.map {x : Except ε α} {f : α → β} (hx : Yields P x) (hf : ∀ a, P a → Q (f a)) :
    Yields Q (x.map f) := by
  cases x with
  | ok a => exact yields_ok (hf a (hx a rfl))
  | error e => exact yields_error

theorem Yields.mono {x : Except ε α} {P' : α → Prop} (hx : Yields P x) (h : ∀ a, P a → P' a) :
    Yields P' x := fun a ha => h a (hx a ha)

end

/-! ## Lists of outcomes -/

section

variable {α β : Type} {R : β → α → Prop}

/-- If each step yields the image of what it is taken on, all of them yield the images. -/
theorem yields_mapM {ε : Type} {g : β → α} {step : β → Except ε α} {bs : List β}
    (h : ∀ b ∈ bs, Yields (· = g b) (step b)) : Yields (· = bs.map g) (bs.mapM step) := by
  induction bs with
  | nil => exact yields_ok rfl
  | cons b rest ih =>
    obtain ⟨hb, hrest⟩ := List.forall_mem_cons.mp h
    rw [List.mapM_cons]
    exact hb.bind fun a ha => (ih hrest).bind fun as has =>
      yields_ok (by rw [ha, has, List.map_cons])

/-- If each outcome yields what belongs to its place, the list of the results does. -/
theorem yields_allOk {bs : List β} {ws : List (Rendered α)}
    (h : List.Forall₂ (fun b w => Yields (R b) w) bs ws) :
    Yields (List.Forall₂ R bs) (allOk ws) := by
  induction h with
  | nil => exact yields_ok .nil
  | cons hw _ ih => exact hw.bind fun a ha => ih.bind fun as has => yields_ok (.cons ha has)

theorem yields_textsOf {R : β → Fragment → Prop} {bs : List β} {ws : List (Rendered Fragment)}
    (es : List Expr) (h : List.Forall₂ (fun b w => Yields (R b) w) bs ws) :
    Yields (List.Forall₂ R bs) (textsOf es ws) :=
  (yields_allOk h).bind fun _ hfs => yields_after fun _ => yields_ok hfs

end

/-- What is made of the same items place by place. -/
theorem forall₂_map_same {α β γ : Type} {R : β → γ → Prop} {k : α → β} {k' : α → γ} {as : List α}
    (h : ∀ a ∈ as, R (k a) (k' a)) : List.Forall₂ R (as.map k) (as.map k') := by
  rw [List.forall₂_map_left_iff, List.forall₂_map_right_iff, List.forall₂_same]
  exact h

/-! ## Agreement -/

/-- Whether two outcomes have the same error, or results that look the same through `φ`. -/
def Agree {ε α γ : Type} (φ : α → γ) (x y : Except ε α) : Prop := x.map φ = y.map φ

section

variable {ε α β γ δ : Type} {φ : α → γ} {ψ : β → δ}

theorem Agree.refl (x : Except ε α) : Agree φ x x := rfl

theorem Agree.symm {x y : Except ε α} (h : Agree φ x y) : Agree φ y x := Eq.symm h

theorem Agree.trans {x y z : Except ε α} (h : Agree φ x y) (h' : Agree φ y z) : Agree φ x z :=
  Eq.trans h h'

theorem agree_ok {a b : α} (h : φ a = φ b) : Agree (ε := ε) φ (.ok a) (.ok b) :=
  congrArg Except.ok h

/-- Outcomes that agree are both errors, and the same, or both results. -/
theorem Agree.cases {x y : Except ε α} (h : Agree φ x y) :
    (∃ e, x = .error e ∧ y = .error e) ∨ ∃ a b, x = .ok a ∧ y = .ok b ∧ φ a = φ b := by
  cases x with
  | error e =>
    cases y with
    | error e' => exact .inl ⟨e, rfl, congrArg Except.error (Except.error.inj h).symm⟩
    | ok b => cases h
  | ok a =>
    cases y with
    | error e' => cases h
    | ok b => exact .inr ⟨a, b, rfl, rfl, Except.ok.inj h⟩

theorem Agree.bind {x y : Except ε α} {f g : α → Except ε β} (h : Agree φ x y)
    (hf : ∀ a b, φ a = φ b → Agree ψ (f a) (g b)) : Agree ψ (x >>= f) (y >>= g) := by
  rcases h.cases with ⟨e, rfl, rfl⟩ | ⟨a, b, rfl, rfl, hab⟩
  · exact .refl _
  · exact hf a b hab

/-- Steps that follow the same one. -/
theorem agree_step {x y : Except ε α} {f g : α → Except ε β} (h : x = y)
    (hf : ∀ a, Agree ψ (f a) (g a)) : Agree ψ (x >>= f) (y >>= g) := by
  subst h
  cases x with
  | error e => exact .refl _
  | ok a => exact hf a

theorem agree_after {x : Except ε α} {f g : α → Except ε β} (h : ∀ a, Agree ψ (f a) (g a)) :
    Agree ψ (x >>= f) (x >>= g) :=
  agree_step rfl h

/-- A step that takes a view of what another takes. -/
theorem agree_view {χ : α → α} {x : Except ε α} {f g : α → Except ε β}
    (h : ∀ a, Agree ψ (f (χ a)) (g a)) : Agree ψ (x.map χ >>= f) (x >>= g) := by
  cases x with
  | error e => exact .refl _
  | ok a => exact h a

theorem Agree.map {x y : Except ε α} {f g : α → β} (h : Agree φ x y)
    (hf : ∀ a b, φ a = φ b → ψ (f a) = ψ (g b)) : Agree ψ (x.map f) (y.map g) := by
  rcases h.cases with ⟨e, rfl, rfl⟩ | ⟨a, b, rfl, rfl, hab⟩
  · exact .refl _
  · exact agree_ok (hf a b hab)

/-- Only the error of a step matters if its result is thrown away. -/
theorem Agree.discard_eq {x y : Except ε α} (h : Agree φ x y) : discard x = discard y := by
  rcases h.cases with ⟨e, rfl, rfl⟩ | ⟨a, b, rfl, rfl, -⟩ <;> rfl

theorem agree_allOk {φ : α → γ} {xs ys : List (Rendered α)} (h : List.Forall₂ (Agree φ) xs ys) :
    Agree (List.map φ) (allOk xs) (allOk ys) := by
  -- on both lists; the first error of one is the first error of the other
  induction h with
  | nil => exact .refl _
  | cons hx _ ih =>
    exact hx.bind fun a b hab => ih.bind fun as bs hs => agree_ok (congrArg₂ List.cons hab hs)

end

end SqlScribe
