import Mathlib.Logic.Relation

/-!
# Runs of a transition system

A system is a step relation `step : σ → ε → σ → Prop` on states `σ` with labels `ε`.
`IsRun step s τs` says that the transitions `τs` follow one another from `s`; each
keeps the state before and after it, so that a property of "every state reached" or
of "the state right after every step of one kind" is a statement about the members
of `τs`.

`IsRun.invariant` is the induction rule. `IsRun.invariant_of_cond` is the rule for an
invariant that a step keeps only under a condition. `IsRun.forall_iff` turns a
step-by-step equivalence into one about whole runs : all steps are good iff every step
meets the condition; `IsRun.forall_post_iff` is the case where good steps are those that
lead to good states. `Reachable.simulate` transfers reachability along a
simulation in which one concrete step is matched by any number of abstract steps.
-/

namespace Transition

variable {σ ε σ' ε' : Type*}

/-- One step of a run, with the states around it. -/
structure Step (σ ε : Type*) where
  /-- The state before. -/
  pre : σ
  event : ε
  /-- The state after. -/
  post : σ

/-- The transitions `τs` follow one another from `s`. -/
inductive IsRun (step : σ → ε → σ → Prop) : σ → List (Step σ ε) → Prop
  | nil (s : σ) : IsRun step s []
  | cons {s t : σ} {e : ε} {τs : List (Step σ ε)} :
      step s e t → IsRun step t τs → IsRun step s (⟨s, e, t⟩ :: τs)

/-- `t` is reached from `s` by some steps. -/
def Reachable (step : σ → ε → σ → Prop) : σ → σ → Prop :=
  Relation.ReflTransGen fun s t => ∃ e, step s e t

variable {step : σ → ε → σ → Prop} {s t : σ} {τs : List (Step σ ε)} {τ : Step σ ε}

namespace IsRun

/-- Every transition of a run is a step. -/
theorem step_of_mem (h : IsRun step s τs) (hτ : τ ∈ τs) : step τ.pre τ.event τ.post := by
  induction h with
  | nil => simp at hτ
  | cons hs _ ih =>
    rcases List.mem_cons.mp hτ with rfl | hτ
    · exact hs
    · exact ih hτ

/-- An invariant that every step meeting `C` keeps holds around every transition of
a run whose steps all meet `C`. -/
theorem invariant_of_cond {I : σ → Prop} {C : σ → ε → Prop}
    (hstep : ∀ s e t, I s → C s e → step s e t → I t) (h : IsRun step s τs) (hs : I s)
    (hc : ∀ τ ∈ τs, C τ.pre τ.event) : ∀ τ ∈ τs, I τ.pre ∧ I τ.post := by
  induction h with
  | nil => simp
  | cons hst _ ih =>
    have ht := hstep _ _ _ hs (hc _ List.mem_cons_self) hst
    intro τ hτ
    rcases List.mem_cons.mp hτ with rfl | hτ
    · exact ⟨hs, ht⟩
    · exact ih ht (fun τ h => hc τ (List.mem_cons_of_mem _ h)) τ hτ

/-- An invariant holds around every transition of a run. -/
theorem invariant {I : σ → Prop} (hstep : ∀ s e t, I s → step s e t → I t)
    (h : IsRun step s τs) (hs : I s) : ∀ τ ∈ τs, I τ.pre ∧ I τ.post :=
  h.invariant_of_cond (C := fun _ _ => True) (fun s e t hI _ => hstep s e t hI) hs
    fun _ _ => trivial

/-- If, while `I` holds, a step is good exactly when it meets `C`, and a good step keeps
`I`, then all steps of a run are good exactly when all meet `C`. Nothing is said about
`I` after a step that is not good. -/
theorem forall_iff {I : σ → Prop} {P : σ → ε → σ → Prop} {C : σ → ε → Prop}
    (hiff : ∀ s e t, I s → step s e t → (P s e t ↔ C s e))
    (hkeep : ∀ s e t, I s → step s e t → P s e t → I t) (h : IsRun step s τs) (hs : I s) :
    (∀ τ ∈ τs, P τ.pre τ.event τ.post) ↔ ∀ τ ∈ τs, C τ.pre τ.event := by
  induction h with
  | nil => simp
  | cons hst _ ih =>
    have hone := hiff _ _ _ hs hst
    simp only [List.forall_mem_cons]
    constructor
    · rintro ⟨hP, hrest⟩
      exact ⟨hone.mp hP, (ih (hkeep _ _ _ hs hst hP)).mp hrest⟩
    · rintro ⟨hC, hrest⟩
      have hP := hone.mpr hC
      exact ⟨hP, (ih (hkeep _ _ _ hs hst hP)).mpr hrest⟩

/-- If from a good state a step leads to a good state exactly when it meets `C`, all
states a run reaches are good exactly when all its steps meet `C`. The equivalence
may use an invariant `J` that holds on every run. -/
theorem forall_post_iff {J P : σ → Prop} {C : σ → ε → Prop}
    (hJ : ∀ s e t, J s → step s e t → J t)
    (hiff : ∀ s e t, J s → P s → step s e t → (P t ↔ C s e))
    (h : IsRun step s τs) (hs : J s) (hP : P s) :
    (∀ τ ∈ τs, P τ.post) ↔ ∀ τ ∈ τs, C τ.pre τ.event :=
  h.forall_iff (I := fun s => J s ∧ P s) (P := fun _ _ t => P t)
    (fun s e t hI hst => hiff s e t hI.1 hI.2 hst)
    (fun s e t hI hst hP => ⟨hJ s e t hI.1 hst, hP⟩) ⟨hs, hP⟩

/-- A run of steps of one system is a run of any system that has these steps. -/
theorem mono {step' : σ → ε → σ → Prop} (hsub : ∀ s e t, step s e t → step' s e t)
    (h : IsRun step s τs) : IsRun step' s τs := by
  induction h with
  | nil s => exact .nil s
  | cons hst _ ih => exact .cons (hsub _ _ _ hst) ih

theorem reachable_of_mem (h : IsRun step s τs) (hτ : τ ∈ τs) :
    Reachable step s τ.pre ∧ Reachable step s τ.post := by
  induction h with
  | nil => simp at hτ
  | cons hs _ ih =>
    have h1 := Relation.ReflTransGen.single (r := fun s t => ∃ e, step s e t) ⟨_, hs⟩
    rcases List.mem_cons.mp hτ with rfl | hτ
    · exact ⟨.refl, h1⟩
    · exact ⟨h1.trans (ih hτ).1, h1.trans (ih hτ).2⟩

/-- From every step of a run on, the rest is a run. -/
theorem of_append {us vs : List (Step σ ε)} (h : IsRun step s (us ++ τ :: vs)) :
    step τ.pre τ.event τ.post ∧ IsRun step τ.post vs := by
  induction us generalizing s with
  | nil =>
    cases h with
    | cons hst hvs => exact ⟨hst, hvs⟩
  | cons _ us ih =>
    cases h with
    | cons _ hrest => exact ih hrest

end IsRun

namespace Reachable

theorem refl : Reachable step s s :=
  Relation.ReflTransGen.refl

theorem tail {u : σ} {e : ε} (h : Reachable step s t) (he : step t e u) : Reachable step s u :=
  Relation.ReflTransGen.tail h ⟨e, he⟩

theorem trans {u : σ} (h : Reachable step s t) (h' : Reachable step t u) : Reachable step s u :=
  Relation.ReflTransGen.trans h h'

/-- What a system reaches, any system that has its steps reaches. -/
theorem mono {step' : σ → ε → σ → Prop} (hsub : ∀ s e t, step s e t → step' s e t)
    (h : Reachable step s t) : Reachable step' s t := by
  induction h with
  | refl => exact refl
  | tail _ hst ih =>
    obtain ⟨e, he⟩ := hst
    exact ih.tail (hsub _ _ _ he)

/-- An invariant holds in every reachable state. -/
theorem invariant {I : σ → Prop} (hstep : ∀ s e t, I s → step s e t → I t)
    (h : Reachable step s t) (hs : I s) : I t := by
  induction h with
  | refl => exact hs
  | tail _ hst ih =>
    obtain ⟨e, he⟩ := hst
    exact hstep _ e _ ih he

/-- A concrete system whose steps are matched by abstract runs along `abs` reaches only
states whose abstraction is reachable. `J` is an invariant of the concrete system. -/
theorem simulate {step' : σ' → ε' → σ' → Prop} (abs : σ → σ') {J : σ → Prop}
    (hJ : ∀ s e t, J s → step s e t → J t)
    (hsim : ∀ s e t, J s → step s e t → Reachable step' (abs s) (abs t))
    (h : Reachable step s t) (hs : J s) : J t ∧ Reachable step' (abs s) (abs t) := by
  induction h with
  | refl => exact ⟨hs, .refl⟩
  | tail _ hst ih =>
    obtain ⟨e, he⟩ := hst
    exact ⟨hJ _ e _ ih.1 he, ih.2.trans (hsim _ e _ ih.1 he)⟩

end Reachable

/-! ## Systems given by a partial function -/

/-- The transitions of `next` on the labels `es`, up to the first it refuses. -/
def trace (next : σ → ε → Option σ) : σ → List ε → List (Step σ ε)
  | _, [] => []
  | s, e :: es =>
    match next s e with
    | some t => ⟨s, e, t⟩ :: trace next t es
    | none => []

theorem isRun_trace (next : σ → ε → Option σ) :
    ∀ (es : List ε) (s : σ), IsRun (fun s e t => next s e = some t) s (trace next s es)
  | [], s => .nil s
  | e :: es, s => by
    cases h : next s e with
    | none => simpa [trace, h] using IsRun.nil s
    | some t => simpa [trace, h] using IsRun.cons h (isRun_trace next es t)

/-- The transitions of a trace have the labels given. -/
theorem event_of_getElem?_trace {next : σ → ε → Option σ} {τ : Step σ ε} :
    ∀ {es : List ε} {s : σ} {k : Nat}, (trace next s es)[k]? = some τ → es[k]? = some τ.event
  | [], _, _, h => by simp [trace] at h
  | e :: es, s, k, h => by
    cases hs : next s e with
    | none => simp [trace, hs] at h
    | some t =>
      simp only [trace, hs] at h
      cases k with
      | zero =>
        obtain rfl := Option.some.inj h
        rfl
      | succ k =>
        rw [List.getElem?_cons_succ] at h ⊢
        exact event_of_getElem?_trace h

/-- Performing labels one after the other. -/
theorem reachable_of_foldlM {next : σ → ε → Option σ} : ∀ (es : List ε) {s t : σ},
    es.foldlM next s = some t → Reachable (fun s e t => next s e = some t) s t
  | [], s, t, h => Option.some.inj h ▸ Reachable.refl
  | e :: es, s, t, h => by
    rw [List.foldlM_cons, Option.bind_eq_bind, Option.bind_eq_some_iff] at h
    obtain ⟨u, hu, h⟩ := h
    exact (Reachable.tail Reachable.refl hu).trans (reachable_of_foldlM es h)

theorem forall_mem_trace {next : σ → ε → Option σ} {C : σ → ε → Prop} :
    ∀ {es : List ε} {s : σ}, (∀ e ∈ es, ∀ s, C s e) → ∀ τ ∈ trace next s es, C τ.pre τ.event
  | [], _, _, τ, hτ => by simp [trace] at hτ
  | e :: es, s, h, τ, hτ => by
    unfold trace at hτ
    split at hτ
    · rcases List.mem_cons.mp hτ with rfl | hτ
      · exact h e List.mem_cons_self s
      · exact forall_mem_trace (fun e' he' => h e' (List.mem_cons_of_mem _ he')) τ hτ
    · simp at hτ

end Transition
