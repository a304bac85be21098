import SqlScribe.Proofs.Outcome

/-!
# Parts of what is written

A fragment is a part of another if it stands in it as it is: its text and its names in a row, with
its values. Writing never takes a fragment apart, so what a step writes is a part of whatever is
laid out around it.

`Shows` says this of a step: if it has a result, then so have the outcomes that it is laid out from,
and their fragments are parts of the result. There is one rule for each way in which steps are put
together, and one lemma for each layout.
-/

namespace SqlScribe

namespace Fragment

/-- Whether a fragment is a part of another. -/
inductive PartOf (g : Fragment) : Fragment → Prop
  | self : PartOf g g
  | left {f : Fragment} (f' : Fragment) : PartOf g f → PartOf g (f ++ f')
  | right (f : Fragment) {f' : Fragment} : PartOf g f' → PartOf g (f ++ f')
  | first {a : Fragment} (b : Fragment) : PartOf g a → PartOf g (cross a b)
  | second (a : Fragment) {b : Fragment} : PartOf g b → PartOf g (cross a b)

theorem PartOf.trans {f g h : Fragment} (hfg : f.PartOf g) (hgh : g.PartOf h) : f.PartOf h := by
  -- on where the middle one stands in the whole
  induction hgh with
  | self => exact hfg
  | left f' _ ih => exact .left f' ih
  | right f _ ih => exact .right f ih
  | first b _ ih => exact .first b ih
  | second a _ ih => exact .second a ih

/-- What is written for a part stands in what is written for the whole. -/
theorem PartOf.write_eq {f g : Fragment} (h : g.PartOf f) (style : Style)
    (place : Nat → Value → String) (n : Nat) :
    ∃ m before after, f.write style place n = before ++ g.write style place m ++ after := by
  induction h generalizing n with
  | self => exact ⟨n, "", "", by simp⟩
  | left f' _ ih =>
    obtain ⟨m, before, after, hw⟩ := ih n
    exact ⟨m, before, _, by rw [write_append, hw, String.append_assoc]⟩
  | right f _ ih =>
    obtain ⟨m, before, after, hw⟩ := ih (n + f.size)
    exact ⟨m, _, after, by rw [write_append, hw, ← String.append_assoc, ← String.append_assoc]⟩
  | first b _ ih =>
    -- the second part is bound first, so the first one stands behind its values
    obtain ⟨m, before, after, hw⟩ := ih (n + b.size)
    exact ⟨m, before, _, by
      simp only [cross, write, hw, String.append_assoc]; rfl⟩
  | @second a b _ ih =>
    obtain ⟨m, before, after, hw⟩ := ih n
    refine ⟨m, a.write style place (n + b.size) ++ before, after, ?_⟩
    simp [cross, write, hw, String.append_assoc]

/-- Whether a fragment is a part of one of several. -/
def Within (g : Fragment) (fs : List Fragment) : Prop := ∃ f ∈ fs, g.PartOf f

section

variable {f f' g : Fragment} {fs gs : List Fragment}

/-! ## Where parts stand -/

@[grind ←] theorem partOf_self : f.PartOf f := .self

@[grind ←] theorem partOf_left (h : g.PartOf f) : g.PartOf (f ++ f') := .left f' h

@[grind ←] theorem partOf_right (h : g.PartOf f') : g.PartOf (f ++ f') := .right f h

@[grind ←] theorem partOf_parens (h : g.PartOf f) : g.PartOf f.parens := .left _ (.right _ h)

@[grind .] theorem within_nil : ¬Within g [] := by simp [Within]

@[grind =] theorem within_cons : Within g (f :: fs) ↔ g.PartOf f ∨ Within g fs := by simp [Within]

@[grind =] theorem within_append : Within g (fs ++ gs) ↔ Within g fs ∨ Within g gs := by
  simp only [Within, List.mem_append, or_and_right, exists_or]

@[grind →] theorem within_of_mem (h : g ∈ fs) : Within g fs := ⟨g, h, .self⟩

theorem Within.trans (h : Within g fs) (hfs : ∀ f ∈ fs, Within f gs) : Within g gs := by
  obtain ⟨f, hf, hg⟩ := h
  obtain ⟨r, hr, hfr⟩ := hfs f hf
  exact ⟨r, hr, hg.trans hfr⟩

@[grind ←] theorem partOf_join {separator : String} (h : Within g fs) :
    g.PartOf (join separator fs) := by
  obtain ⟨f, hf, hg⟩ := h
  refine hg.trans ?_
  clear hg
  induction fs with
  | nil => cases hf
  | cons a rest ih =>
    cases rest with
    | nil =>
      obtain rfl := List.mem_singleton.mp hf
      exact .self
    | cons b rest =>
      rcases List.mem_cons.mp hf with rfl | hf
      · exact .left _ (.left _ .self)
      · exact .right _ (ih hf)

@[grind ←] theorem partOf_tuple (h : Within g fs) : g.PartOf (tuple fs) :=
  partOf_parens (partOf_join h)

end

end Fragment

open Fragment (PartOf Within)

/-! ## Steps that show their outcomes -/

/-- Whether a step shows some outcomes, beside fragments that are known before it: if it has a
result, then the outcomes have results too, and these and the known fragments are parts of what the
result holds. -/
structure Shows {α : Type} (hold : α → List Fragment) (known : List Fragment)
    (ws : List (Rendered Fragment)) (x : Rendered α) : Prop where
  known : ∀ a, x = .ok a → ∀ g ∈ known, Within g (hold a)
  outcomes : ∀ a, x = .ok a → ∀ w ∈ ws, ∃ g, w = .ok g ∧ Within g (hold a)

/-- The only fragment that a fragment holds is itself. -/
abbrev sole (f : Fragment) : List Fragment := [f]

theorem within_sole {f g : Fragment} : Within g (sole f) ↔ g.PartOf f := by
  simp [Within]

section

variable {α β : Type} {hold : α → List Fragment} {hold' : β → List Fragment}
  {known : List Fragment} {ws vs : List (Rendered Fragment)} {w : Rendered Fragment}

theorem shows_ok {a : α} (h : ∀ g ∈ known, Within g (hold a)) :
    Shows hold known [] (.ok a) where
  known := by rintro _ ⟨⟩; exact h
  outcomes := by rintro _ ⟨⟩ _ ⟨⟩

theorem shows_error {e : RenderError} : Shows hold known ws (.error e) := ⟨nofun, nofun⟩

theorem shows_nothing (x : Rendered α) : Shows hold [] [] x := ⟨nofun, nofun⟩

theorem shows_self : Shows sole [] [w] w where
  known := nofun
  outcomes a ha v hv := by
    obtain rfl := List.mem_singleton.mp hv
    exact ⟨a, ha, a, List.mem_singleton_self a, .self⟩

theorem Shows.bind {x : Rendered α} {f : α → Rendered β} (hx : Shows hold [] ws x)
    (hf : ∀ a, Shows hold' (hold a ++ known) vs (f a)) :
    Shows hold' known (ws ++ vs) (x >>= f) where
  known b hb g hg := by
    obtain ⟨a, -, hb⟩ := bind_eq_ok.mp hb
    exact (hf a).known b hb g (List.mem_append_right _ hg)
  outcomes b hb w hw := by
    obtain ⟨a, ha, hb⟩ := bind_eq_ok.mp hb
    rcases List.mem_append.mp hw with hw | hw
    · obtain ⟨g, hg, hin⟩ := hx.outcomes a ha w hw
      exact ⟨g, hg, hin.trans fun f hf' => (hf a).known b hb f (List.mem_append_left _ hf')⟩
    · exact (hf a).outcomes b hb w hw

/-- The last step of which something is shown. -/
theorem Shows.last {x : Rendered α} {f : α → Rendered β} (hx : Shows hold [] ws x)
    (hf : ∀ a, Shows hold' (hold a ++ known) [] (f a)) : Shows hold' known ws (x >>= f) := by
  rw [← List.append_nil ws]
  exact hx.bind hf

/-- A step that lays out fragments that are known before it. -/
theorem Shows.carry {x : Rendered α} {f : α → Rendered β} {laid : List Fragment}
    (hx : Shows hold laid [] x) (hf : ∀ a, Shows hold' (hold a ++ known) vs (f a)) :
    Shows hold' (laid ++ known) vs (x >>= f) where
  known b hb := by
    obtain ⟨a, ha, hb⟩ := bind_eq_ok.mp hb
    have carried := (hf a).known b hb
    rw [List.forall_mem_append] at carried ⊢
    exact ⟨fun g hg => (hx.known a ha g hg).trans carried.1, carried.2⟩
  outcomes b hb := by
    obtain ⟨a, -, hb⟩ := bind_eq_ok.mp hb
    exact (hf a).outcomes b hb

/-- A step of which nothing is shown. -/
theorem shows_after {x : Rendered α} {f : α → Rendered β} (hf : ∀ a, Shows hold' known vs (f a)) :
    Shows hold' known vs (x >>= f) :=
  have nothing : Shows (fun _ => []) [] [] x := shows_nothing x
  nothing.bind hf

theorem Shows.map {x : Rendered α} {f : α → β} (hx : Shows hold [] ws x)
    (hf : ∀ a, ∀ g ∈ hold a, Within g (hold' (f a))) : Shows hold' [] ws (x.map f) where
  known := nofun
  outcomes b hb w hw := by
    cases hxa : x with
    | error e => rw [hxa] at hb; cases hb
    | ok a =>
      rw [hxa] at hb
      cases hb
      obtain ⟨g, hg, hin⟩ := hx.outcomes a hxa w hw
      exact ⟨g, hg, hin.trans (hf a)⟩

/-- What shows outcomes shows whatever these show. -/
theorem Shows.trans {x : Rendered α} (hx : Shows hold known ws x)
    (h : ∀ v ∈ vs, ∃ w ∈ ws, Shows sole [] [v] w) : Shows hold known vs x where
  known := hx.known
  outcomes a ha v hv := by
    obtain ⟨w, hw, hvw⟩ := h v hv
    obtain ⟨g, hg, hin⟩ := hx.outcomes a ha w hw
    obtain ⟨g', hg', hin'⟩ := hvw.outcomes g hg v (List.mem_singleton_self v)
    exact ⟨g', hg', hin'.trans (List.forall_mem_singleton.mpr hin)⟩

theorem Shows.mono {x : Rendered α} (hx : Shows hold known ws x) (h : ∀ v ∈ vs, v ∈ ws) :
    Shows hold known vs x :=
  hx.trans fun v hv => ⟨v, h v hv, shows_self⟩

/-- A step that shows some outcomes and others shows both. -/
theorem Shows.both {x : Rendered α} (hx : Shows hold known ws x) (hx' : Shows hold known vs x) :
    Shows hold known (ws ++ vs) x where
  known := hx.known
  outcomes a ha := List.forall_mem_append.mpr ⟨hx.outcomes a ha, hx'.outcomes a ha⟩

/-! ## Lists -/

theorem shows_allOk : Shows id [] ws (allOk ws) := by
  induction ws with
  | nil => exact shows_ok nofun
  | cons w rest ih =>
    exact shows_self.bind fun f => ih.last fun fs => shows_ok (by grind)

/-- Steps that are taken one by one. -/
theorem shows_each {ι : Type} {is : List ι} {x : ι → Rendered Fragment}
    {outcomes : ι → List (Rendered Fragment)} (h : ∀ i ∈ is, Shows sole [] (outcomes i) (x i)) :
    Shows id [] (is.flatMap outcomes) (allOk (is.map x)) where
  known := nofun
  outcomes fs hfs w hw := by
    obtain ⟨i, hi, hw⟩ := List.mem_flatMap.mp hw
    obtain ⟨g, hg, hin⟩ := shows_allOk.outcomes fs hfs (x i) (List.mem_map_of_mem hi)
    obtain ⟨g', hg', hin'⟩ := (h i hi).outcomes g hg w hw
    exact ⟨g', hg', hin'.trans (List.forall_mem_singleton.mpr hin)⟩

theorem shows_textsOf (es : List Expr) : Shows id [] ws (textsOf es ws) :=
  shows_allOk.last fun fs => shows_after fun _ => shows_ok (by grind)

end

end SqlScribe
