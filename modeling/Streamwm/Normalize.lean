import Streamwm.Outcomes

/-!
# Normalizing the outputs

`normalizeOutputs` visits the outputs in order. For one output it keeps the active tag
if the output owns it, else takes the best tag it owns, else claims the first free tag,
else leaves it (`Chosen`, `normalizeOutput_eq`), and then recomputes the focus. A later
iteration never undoes an earlier one : owned tags keep their owner, and an output left
without a tag means that no tag is free. `Normalizing k s s'` says what `k` iterations
from `s` have done, and `normalizeOutputs_spec` that the loop ends without a panic in a
state all of whose outputs are settled.
-/

namespace Streamwm

open Partial

namespace State

variable {s s' s₁ : State} {i j k t u : ℕ} {out : Output}

/-- The output shows a tag it owns, or it owns none and no tag is free. -/
def Settled (s : State) (i : ℕ) : Prop :=
  ∀ t, s.shown i = some t →
    s.tagOwner t = some i ∨ (∀ u, s.tagOwner u ≠ some i) ∧ s.firstFreeTag = none

/-- What `normalizeOutput` does with the tag of an output, before it refocuses. -/
inductive Chosen (s : State) (i : ℕ) (out : Output) : ℕ → State → Prop
  | keep : s.tagOwner out.activeTag = some i → Chosen s i out out.activeTag s
  | best {t : ℕ} : s.tagOwner out.activeTag ≠ some i → s.BestTag i t →
      Chosen s i out t (s.setActiveTag i t)
  | fresh {t : ℕ} : (∀ u, s.tagOwner u ≠ some i) → s.firstFreeTag = some t →
      Chosen s i out t ((s.setTagOutput t i).setActiveTag i t)
  | left : (∀ u, s.tagOwner u ≠ some i) → s.firstFreeTag = none →
      Chosen s i out out.activeTag s

theorem firstFreeTag_congr (hl : s'.tags.length = s.tags.length)
    (ho : ∀ t, s'.tagOwner t = s.tagOwner t) : s'.firstFreeTag = none ↔ s.firstFreeTag = none := by
  have key : ∀ r r' : State, r'.tags.length = r.tags.length →
      (∀ t, r'.tagOwner t = r.tagOwner t) → r.firstFreeTag = none → r'.firstFreeTag = none := by
    intro r r' hl ho h
    by_contra hne
    obtain ⟨t, ht⟩ := Option.ne_none_iff_exists'.mp hne
    obtain ⟨hlt, hnone⟩ := firstFreeTag_eq_some ht
    exact tagOwner_ne_none h (hl ▸ hlt) (by rw [← ho, hnone])
  exact ⟨key s' s hl.symm fun t => (ho t).symm, key s s' hl ho⟩

theorem normalizeOutput_eq (hw : ∀ w ∈ s.windows, w.tag < 32) (ht : s.tags.length ≤ 32)
    (ho : s.outputs[i]? = some out) : ∃ t s₁, Chosen s i out t s₁ ∧
      normalizeOutput i s = some (s₁.setFocusedWindow i
        (s₁.refocusTarget i { out with activeTag := t })) := by
  by_cases hown : s.tagOwner out.activeTag = some i
  · refine ⟨_, s, .keep hown, ?_⟩
    simp [normalizeOutput, ho, hown, refocusOutput_eq ho]
  have hset : ∀ (r : State) (t : ℕ), r.outputs[i]? = some out →
      (r.setActiveTag i t).outputs[i]? = some { out with activeTag := t } := by
    intro r t hr
    simp [getElem?_outputs_setActiveTag, hr]
  obtain ⟨r, hr, hsome, hnone⟩ := bestTagForOutput_spec hw ht ho hown
  cases r with
  | some t =>
    refine ⟨t, _, .best hown (hsome t rfl), ?_⟩
    simp [normalizeOutput, ho, hown, hr, refocusOutput_eq (hset s t ho)]
  | none =>
    cases hfree : s.firstFreeTag with
    | some t =>
      refine ⟨t, _, .fresh (hnone rfl) hfree, ?_⟩
      simp [normalizeOutput, ho, hown, hr, hfree, refocusOutput_eq (hset (s.setTagOutput t i) t ho)]
    | none =>
      refine ⟨_, s, .left (hnone rfl) hfree, ?_⟩
      simp [normalizeOutput, ho, hr, hfree, refocusOutput_eq ho]

namespace Chosen

theorem frame (h : Chosen s i out t s₁) :
    ({ s₁ with tags := s.tags, outputs := s.outputs } : State) = s := by
  cases h <;> rfl

theorem windows (h : Chosen s i out t s₁) : s₁.windows = s.windows := by
  cases h <;> rfl

theorem length_tags (h : Chosen s i out t s₁) : s₁.tags.length = s.tags.length := by
  cases h <;> simp

theorem length_outputs (h : Chosen s i out t s₁) : s₁.outputs.length = s.outputs.length := by
  cases h <;> simp

theorem output (h : Chosen s i out t s₁) (ho : s.outputs[i]? = some out) :
    s₁.outputs[i]? = some { out with activeTag := t } := by
  cases h <;> simp [getElem?_outputs_setActiveTag, ho]

theorem output_ne (h : Chosen s i out t s₁) (hj : i ≠ j) : s₁.outputs[j]? = s.outputs[j]? := by
  cases h <;> simp [getElem?_outputs_setActiveTag, hj]

/-- Owned tags keep their owner. -/
theorem owner (h : Chosen s i out t s₁) (hu : s.tagOwner u = some j) :
    s₁.tagOwner u = some j := by
  cases h with
  | keep _ => exact hu
  | best _ _ => simpa using hu
  | fresh _ hfree =>
    obtain ⟨hlt, hnone⟩ := firstFreeTag_eq_some hfree
    rw [tagOwner_setActiveTag, tagOwner_setTagOutput hlt, if_neg, hu]
    rintro rfl
    simp [hnone] at hu
  | left _ _ => exact hu

/-- A tag with a new owner is the chosen one, and the owner had none. -/
theorem claimed (h : Chosen s i out t s₁) (hu : s₁.tagOwner u = some j) :
    s.tagOwner u = some j ∨ u = t ∧ j = i ∧ ∀ v, s.tagOwner v ≠ some i := by
  cases h with
  | keep _ => exact Or.inl hu
  | best _ _ => exact Or.inl (by simpa using hu)
  | fresh hno hfree =>
    rw [tagOwner_setActiveTag, tagOwner_setTagOutput (firstFreeTag_eq_some hfree).1] at hu
    split_ifs at hu with hut
    · exact Or.inr ⟨hut, (Option.some.inj hu).symm, hno⟩
    · exact Or.inl hu
  | left _ _ => exact Or.inl hu

/-- Without a free tag no ownership changes. -/
theorem owner_of_not_free (h : Chosen s i out t s₁) (hfree : s.firstFreeTag = none) :
    s₁.tagOwner u = s.tagOwner u := by
  cases h with
  | keep _ => rfl
  | best _ _ => rfl
  | fresh _ h => simp [hfree] at h
  | left _ _ => rfl

/-- The output owns the chosen tag, or owns none while none is free. -/
theorem settled (h : Chosen s i out t s₁) : s₁.tagOwner t = some i ∨
    (∀ u, s₁.tagOwner u ≠ some i) ∧ s₁.firstFreeTag = none := by
  cases h with
  | keep h => exact Or.inl h
  | best _ hb => exact Or.inl (by simpa using hb.owned)
  | fresh _ hfree =>
    refine Or.inl ?_
    rw [tagOwner_setActiveTag, tagOwner_setTagOutput (firstFreeTag_eq_some hfree).1, if_pos rfl]
  | left hno hfree => exact Or.inr ⟨hno, hfree⟩

theorem active (h : Chosen s i out t s₁) : t = out.activeTag ∨ s₁.tagOwner t = some i := by
  rcases h.settled with hown | ⟨hno, -⟩
  · exact Or.inr hown
  · cases h with
    | keep _ => exact Or.inl rfl
    | best _ hb => exact absurd (by simpa using hb.owned) (hno t)
    | fresh _ hfree =>
      refine absurd ?_ (hno t)
      rw [tagOwner_setActiveTag, tagOwner_setTagOutput (firstFreeTag_eq_some hfree).1, if_pos rfl]
    | left _ _ => exact Or.inl rfl

theorem eq_of_owner (h : Chosen s i out t s₁) (ho : s.tagOwner out.activeTag = some i) :
    t = out.activeTag := by
  cases h with
  | keep _ => rfl
  | best hn _ => exact absurd ho hn
  | fresh hno _ => exact absurd ho (hno _)
  | left _ _ => rfl

/-- The outputs visited before stay settled. -/
theorem settled_all (h : Chosen s i out t s₁) (ho : s.outputs[i]? = some out)
    (hset : ∀ j < i, s.Settled j) : ∀ j < i + 1, s₁.Settled j := by
  intro j hj a ha
  rcases eq_or_ne i j with rfl | hij
  · have hat : a = t := by
      rw [shown, h.output ho] at ha
      exact (Option.some.inj ha).symm
    rw [hat]
    exact h.settled
  · rw [shown, h.output_ne hij] at ha
    rcases hset j (by omega) a ha with hown | ⟨hno, hnf⟩
    · exact Or.inl (h.owner hown)
    · refine Or.inr ⟨fun u => ?_, ?_⟩
      · rw [h.owner_of_not_free hnf]
        exact hno u
      · exact (firstFreeTag_congr h.length_tags fun u => h.owner_of_not_free hnf).mpr hnf

end Chosen

/-- `s'` is `s` after the iterations for the outputs below `k`. -/
structure Normalizing (k : ℕ) (s s' : State) : Prop where
  frame : ({ s' with tags := s.tags, outputs := s.outputs } : State) = s
  tags : s'.tags.length = s.tags.length
  length : s'.outputs.length = s.outputs.length
  /-- Of an output only the active tag and the focus change. -/
  output : ∀ (j : ℕ) (out : Output), s.outputs[j]? = some out →
    ∃ a x, s'.outputs[j]? = some { out with activeTag := a, focusedWindow := x }
  later : ∀ j, k ≤ j → s'.outputs[j]? = s.outputs[j]?
  /-- Owned tags keep their owner. -/
  owner : ∀ t j, s.tagOwner t = some j → s'.tagOwner t = some j
  /-- Only an output without tags gets one. -/
  claimed : ∀ t j, s'.tagOwner t = some j →
    s.tagOwner t = some j ∨ j < s.outputs.length ∧ ∀ u, s.tagOwner u ≠ some j
  settled : ∀ j, j < k → s'.Settled j
  /-- A new active tag is an owned one. -/
  active : ∀ j t, s'.shown j = some t → s.shown j = some t ∨ s'.tagOwner t = some j
  /-- An output that owns tags, but not its active one, shows the best of them. -/
  best : ∀ j a u, j < k → s.shown j = some a → s.tagOwner a ≠ some j → s.tagOwner u = some j →
    ∃ t, s'.shown j = some t ∧ s.BestTag j t
  /-- An output that owns its active tag still shows it. -/
  kept : ∀ j t, s.shown j = some t → s.tagOwner t = some j → s'.shown j = some t
  /-- It keeps its focused window if that is on this tag. -/
  keptFocus : ∀ j out f w, s.outputs[j]? = some out → s.tagOwner out.activeTag = some j →
    out.focusedWindow = some f → s.findWindow f = some w → w.tag = out.activeTag →
    s'.outputs[j]?.bind (·.focusedWindow) = some f
  /-- The focused window of a visited output is on its active tag. -/
  focus : ∀ j, j < k → ∀ out f, s'.outputs[j]? = some out → out.focusedWindow = some f →
    ∃ w ∈ s'.windows, w.id = f ∧ s'.tagOwner w.tag = some j ∧ w.tag = out.activeTag

namespace Normalizing

theorem start (s : State) : Normalizing 0 s s where
  frame := rfl
  tags := rfl
  length := rfl
  output j out h := ⟨_, _, h⟩
  later _ _ := rfl
  owner _ _ h := h
  claimed _ _ h := Or.inl h
  settled j h := absurd h (Nat.not_lt_zero j)
  active _ _ h := Or.inl h
  best j _ _ h := absurd h (Nat.not_lt_zero j)
  kept _ _ h _ := h
  keptFocus j out f w h _ hf _ _ := by simp [h, hf]
  focus j h := absurd h (Nat.not_lt_zero j)

theorem windows (h : Normalizing k s s') : s'.windows = s.windows := by
  have hw := congrArg State.windows h.frame
  exact hw

theorem focusedOutput (h : Normalizing k s s') : s'.focusedOutput = s.focusedOutput := by
  have hf := congrArg State.focusedOutput h.frame
  exact hf

theorem shown_eq (h : s'.outputs[i]? = some out) : s'.shown i = some out.activeTag := by
  simp [shown, h]

/-- An output that owns a tag, but not its active one, chooses the best of its tags. -/
theorem best_of_chosen (h : Normalizing i s s') (hc : Chosen s' i out t s₁)
    (hown : s.tagOwner out.activeTag ≠ some i) (hu : s.tagOwner u = some i) : s.BestTag i t := by
  have hiff : ∀ v, s'.tagOwner v = some i ↔ s.tagOwner v = some i := fun v =>
    ⟨fun hv => (h.claimed v i hv).resolve_right fun hno => hno.2 u hu, h.owner v i⟩
  have hb : s'.BestTag i t := by
    cases hc with
    | keep hk => exact absurd ((hiff _).mp hk) hown
    | best _ hb => exact hb
    | fresh hno _ => exact absurd ((hiff u).mpr hu) (hno u)
    | left hno _ => exact absurd ((hiff u).mpr hu) (hno u)
  refine ⟨(hiff t).mp hb.owned, fun v hv hocc => ?_⟩
  have hocc' : s'.Occupied v := by rwa [Occupied, h.windows]
  obtain ⟨ht', hle⟩ := hb.first v ((hiff v).mpr hv) hocc'
  exact ⟨by rwa [Occupied, h.windows] at ht', hle⟩

/-- An output that owns its active tag keeps the focus on a window of this tag. -/
theorem refocusTarget_of_chosen (h : Normalizing i s s') (hc : Chosen s' i out t s₁)
    (hown : s.tagOwner out.activeTag = some i) (hf : out.focusedWindow = some f)
    (hfind : s.findWindow f = some w) (htag : w.tag = out.activeTag) :
    s₁.refocusTarget i { out with activeTag := t } = some f := by
  have hta := hc.eq_of_owner (h.owner _ i hown)
  have hfind' : s₁.findWindow f = some w := by
    rw [findWindow, hc.windows, h.windows]
    exact hfind
  refine refocusTarget_keep hf hfind' ?_ (by rw [htag, hta])
  rw [htag]
  exact hc.owner (h.owner _ i hown)

/-- One more iteration. -/
theorem step (h : Normalizing i s s') (hi : i < s.outputs.length)
    (hw : ∀ w ∈ s.windows, w.tag < 32) (ht : s.tags.length ≤ 32) :
    ∃ s'', normalizeOutput i s' = some s'' ∧ Normalizing (i + 1) s s'' := by
  obtain ⟨out, ho⟩ : ∃ out, s.outputs[i]? = some out := ⟨_, List.getElem?_eq_getElem hi⟩
  have ho' : s'.outputs[i]? = some out := by rw [h.later i le_rfl, ho]
  obtain ⟨t, s₁, hc, heq⟩ := normalizeOutput_eq (i := i) (s := s') (by rwa [h.windows])
    (by rwa [h.tags]) ho'
  have hout : ∀ x, (s₁.setFocusedWindow i x).outputs[i]? =
      some { out with activeTag := t, focusedWindow := x } := by
    intro x
    simp [getElem?_outputs_setFocusedWindow, hc.output ho']
  have hne : ∀ x j, i ≠ j → (s₁.setFocusedWindow i x).outputs[j]? = s'.outputs[j]? := by
    intro x j hj
    simp [getElem?_outputs_setFocusedWindow, hj, hc.output_ne hj]
  refine ⟨_, heq, ?_⟩
  generalize hx : s₁.refocusTarget i { out with activeTag := t } = x
  constructor
  case frame =>
    have hframe := congrArg (fun r : State => { r with tags := s.tags, outputs := s.outputs })
      hc.frame
    exact hframe.trans h.frame
  case tags =>
    rw [tags_setFocusedWindow, hc.length_tags, h.tags]
  case length =>
    rw [length_outputs_setFocusedWindow, hc.length_outputs, h.length]
  case output =>
    intro j out' hj
    rcases eq_or_ne i j with rfl | hij
    · obtain rfl : out = out' := Option.some.inj (ho.symm.trans hj)
      exact ⟨_, _, hout x⟩
    · obtain ⟨a, y, ha⟩ := h.output j out' hj
      exact ⟨a, y, by rw [hne x j hij, ha]⟩
  case later =>
    intro j hj
    rw [hne x j (by omega), h.later j (by omega)]
  case owner =>
    intro u j hu
    rw [tagOwner_setFocusedWindow]
    exact hc.owner (h.owner u j hu)
  case claimed =>
    intro u j hu
    rw [tagOwner_setFocusedWindow] at hu
    rcases hc.claimed hu with hu | ⟨-, rfl, hno⟩
    · exact h.claimed u j hu
    · exact Or.inr ⟨hi, fun v hv => hno v (h.owner v j hv)⟩
  case settled =>
    intro j hj a ha
    rw [shown_setFocusedWindow] at ha
    exact hc.settled_all ho' h.settled j hj a ha
  case active =>
    intro j a ha
    rw [tagOwner_setFocusedWindow]
    rcases eq_or_ne i j with rfl | hij
    · obtain rfl : t = a := by
        rw [shown_eq (hout x)] at ha
        exact Option.some.inj ha
      rcases hc.active with rfl | hown
      · exact Or.inl (shown_eq ho)
      · exact Or.inr hown
    · rw [shown, hne x j hij] at ha
      exact (h.active j a ha).imp id fun hown => hc.owner hown
  case best =>
    intro j a u hj ha hown hu
    rcases eq_or_ne i j with rfl | hij
    · obtain rfl : out.activeTag = a := by simpa [shown, ho] using ha
      exact ⟨t, shown_eq (hout x), h.best_of_chosen hc hown hu⟩
    · obtain ⟨t', ht', hb⟩ := h.best j a u (by omega) ha hown hu
      exact ⟨t', by rwa [shown, hne x j hij, ← shown], hb⟩
  case kept =>
    intro j a ha hown
    have ha' := h.kept j a ha hown
    rcases eq_or_ne i j with rfl | hij
    · have hact : out.activeTag = a := by simpa [shown, ho] using ha
      have := hc.eq_of_owner (hact ▸ h.owner a i hown)
      rw [shown_eq (hout x), this, hact]
    · rwa [shown, hne x j hij, ← shown]
  case keptFocus =>
    intro j out' f w hj hown hf hfind htag
    rcases eq_or_ne i j with rfl | hij
    · obtain rfl : out = out' := Option.some.inj (ho.symm.trans hj)
      have hkeep := h.refocusTarget_of_chosen hc hown hf hfind htag
      rw [hout x, ← hx, hkeep]
      rfl
    · rw [hne x j hij]
      exact h.keptFocus j out' f w hj hown hf hfind htag
  case focus =>
    intro j hj out' f hj' hf
    simp only [windows_setFocusedWindow, tagOwner_setFocusedWindow]
    rcases eq_or_ne i j with rfl | hij
    · obtain rfl := Option.some.inj ((hout x).symm.trans hj')
      have hmem := refocusTarget_mem (hx.trans hf)
      exact hmem
    · rw [hne x j hij] at hj'
      obtain ⟨w, hwm, hid, hown, htag⟩ := h.focus j (by omega) out' f hj' hf
      exact ⟨w, hc.windows ▸ hwm, hid, hc.owner hown, htag⟩

end Normalizing

/-- The loop over all outputs does not panic and settles them. -/
theorem exists_normalizing (hw : ∀ w ∈ s.windows, w.tag < 32) (ht : s.tags.length ≤ 32) :
    ∃ s', loop normalizeOutput 0 s.outputs.length s = some s' ∧
      Normalizing s.outputs.length s s' :=
  exists_loop (fun k s' => Normalizing k s s') (fun _ _ hj h => h.step hj hw ht) _ 0 s (by omega)
    (Normalizing.start s)

/-- With outputs left, the result is the settled state the loop ends in. -/
theorem normalizeOutputs_spec (hw : ∀ w ∈ s.windows, w.tag < 32) (ht : s.tags.length ≤ 32)
    (hne : s.outputs ≠ []) : ∃ s', s.normalizeOutputs = some s' ∧
      Normalizing s.outputs.length s.validFocus s' := by
  have hv : s.validFocus.outputs = s.outputs ∧ s.validFocus.windows = s.windows ∧
      s.validFocus.tags = s.tags := by
    unfold validFocus
    split
    · split_ifs <;> exact ⟨rfl, rfl, rfl⟩
    · exact ⟨rfl, rfl, rfl⟩
  obtain ⟨s', h, hn⟩ := exists_normalizing (s := s.validFocus) (by rwa [hv.2.1])
    (by rwa [hv.2.2])
  rw [hv.1] at h hn
  exact ⟨s', by simpa [normalizeOutputs, hne] using h, hn⟩

end State

end Streamwm
