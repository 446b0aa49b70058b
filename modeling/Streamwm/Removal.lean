import Streamwm.Ownership

/-!
# Stable owners, and what removing an output keeps

An output is known by its object, since its index shifts when an earlier one goes.
`ownership_stable` : over a run the output owning a tag changes only in the step that
removes that output; and `Removal` lists what `removeOutput` does to the tags, the
active tags, the focused windows, the focused output and the windows.
-/

namespace Streamwm

open Partial Transition

namespace State

variable {s s' r : State} {i j t : ℕ} {op : Op}

/-- The object of the output owning a tag. -/
def ownerProxy (s : State) (t : ℕ) : Option ObjectId :=
  (s.tagOwner t).bind s.outputProxy

theorem ownerProxy_eq (h : s.tagOwner t = some j) : s.ownerProxy t = s.outputProxy j := by
  rw [ownerProxy, h, Option.bind_some]

theorem Grows.ownerProxy {p : ObjectId} (h : Grows s s') (hp : s.ownerProxy t = some p) :
    s'.ownerProxy t = some p := by
  obtain ⟨j, hj, hp⟩ := Option.bind_eq_some_iff.mp hp
  rw [ownerProxy_eq (h.owner t j hj), h.proxy j p hp]

/-- The output `i` has been removed. -/
structure Removal (i : ℕ) (s s' : State) : Prop where
  windows : s'.windows.map (fun w => (w.proxy, w.id, w.tag)) =
    s.windows.map fun w => (w.proxy, w.id, w.tag)
  /-- The remaining outputs, in order. -/
  length : s'.outputs.length = s.outputs.length - 1
  proxy : ∀ j, s'.outputProxy j = s.outputProxy (oldIndex i j)
  /-- With outputs left, the tags of the others stay theirs. -/
  owner : 1 < s.outputs.length → ∀ t j, j ≠ i → s.tagOwner t = some j →
    s'.tagOwner t = some (newIndex i j)
  /-- With outputs left, its tags go to the first of them. -/
  inherited : 1 < s.outputs.length → ∀ t, s.tagOwner t = some i → s'.tagOwner t = some 0
  /-- An output that owned its active tag still shows it. -/
  shown : 1 < s.outputs.length → ∀ j t, j ≠ i → s.shown j = some t → s.tagOwner t = some j →
    s'.shown (newIndex i j) = some t
  /-- It keeps its focused window if that is on this tag. -/
  focusedWindow : 1 < s.outputs.length → ∀ j out f w, j ≠ i → s.outputs[j]? = some out →
    s.tagOwner out.activeTag = some j → out.focusedWindow = some f → s.findWindow f = some w →
    w.tag = out.activeTag → s'.outputs[newIndex i j]?.bind (·.focusedWindow) = some f
  /-- With outputs left, seat focus stays with its output, or goes to the first. -/
  focusedOutput : 1 < s.outputs.length → ∀ f, s.focusedOutput = some f →
    s'.focusedOutput = some (if f = i then 0 else newIndex i f)
  /-- The last output takes all ownership and the focus with it. -/
  last : s.outputs.length = 1 → (∀ t, s'.tagOwner t = none) ∧ s'.focusedOutput = none

theorem Quiet.windows_map (h : Quiet s s') : s'.windows.map (fun w => (w.proxy, w.id, w.tag)) =
    s.windows.map fun w => (w.proxy, w.id, w.tag) :=
  map_eq_of_forall₂ (fun w w' ⟨hp, hid, htag, _⟩ => by rw [hp, hid, htag]) h.windows

theorem Quiet.focusedWindow (h : Quiet s s') (j : ℕ) :
    s'.outputs[j]?.bind (·.focusedWindow) = s.outputs[j]?.bind (·.focusedWindow) := by
  have hj : (s'.outputs.map Output.sight)[j]? = (s.outputs.map Output.sight)[j]? := by
    rw [h.outputs]
  rw [List.getElem?_map, List.getElem?_map] at hj
  have hbind := congrArg (fun x => x.bind fun p => p.2.2) hj
  rw [Option.bind_map, Option.bind_map] at hbind
  exact hbind

theorem removal_of_last (hi : i < s.outputs.length) (hlen : s.outputs.length = 1) :
    Removal i s { s.dropOutput i with focusedOutput := none } where
  windows := rfl
  length := length_outputs_dropOutput hi
  proxy _ := outputProxy_dropOutput
  owner h := by omega
  inherited h := by omega
  shown h := by omega
  focusedWindow h := by omega
  focusedOutput h := by omega
  last _ := ⟨fun _ => tagOwner_dropOutput_last hlen hi, rfl⟩

theorem removal_of_normalizing (hi : i < s.outputs.length) (hlen : 1 < s.outputs.length)
    (h : Normalizing (s.dropOutput i).outputs.length (s.dropOutput i) r) :
    Removal i s r.clampFloatingWindows := by
  have hq := quiet_clampFloatingWindows r
  have hc := hq.still
  have hold : ∀ j, j ≠ i → oldIndex i (newIndex i j) = j := fun j hj => oldIndex_newIndex hj
  constructor
  · rw [hq.windows_map, h.windows, windows_dropOutput]
  · rw [hc.length, h.length, length_outputs_dropOutput hi]
  · intro j
    rw [hc.proxy, ← outputProxy_dropOutput]
    cases hp : (s.dropOutput i).outputProxy j with
    | some p => exact h.grows.proxy j p hp
    | none =>
      have hge : (s.dropOutput i).outputs.length ≤ j := by simpa [outputProxy] using hp
      rw [← h.length] at hge
      simp [outputProxy, hge]
  · intro _ t j hj ht
    rw [hc.owner]
    exact h.owner t _ (tagOwner_dropOutput_of_ne hi hlen hj ht)
  · intro _ t ht
    rw [hc.owner]
    exact h.owner t 0 (tagOwner_dropOutput_self hi hlen ht)
  · intro _ j t hj hshown ht
    rw [hc.shown]
    refine h.kept _ t ?_ (tagOwner_dropOutput_of_ne hi hlen hj ht)
    rw [shown_dropOutput, hold j hj, hshown]
  · intro _ j out f w hj hout hown hf hfind htag
    rw [hq.focusedWindow]
    refine h.keptFocus _ out f w ?_ (tagOwner_dropOutput_of_ne hi hlen hj hown) hf hfind htag
    rw [getElem?_outputs_dropOutput, hold j hj, hout]
  · intro _ f hf
    have hrest : (s.outputs.eraseIdx i).length ≠ 0 := by
      rw [List.length_eraseIdx_of_lt hi]
      omega
    rw [hq.focusedOutput, h.focusedOutput, focusedOutput_dropOutput, hf, remapFocus]
    simp only [Option.some.injEq, if_neg hrest, Option.map_some, newIndex]
    split_ifs <;> rfl
  · intro h1
    omega

/-- Removing an output of a well-formed state does not panic and keeps the rest. -/
theorem exists_removal (hs : s.WellFormed) (hi : i < s.outputs.length) :
    ∃ s', s.removeOutput i = some s' ∧ Removal i s s' := by
  rcases (show s.outputs.length = 1 ∨ 1 < s.outputs.length by omega) with hlen | hlen
  · exact ⟨_, removeOutput_last hi hlen, removal_of_last hi hlen⟩
  · obtain ⟨r, hr, hn⟩ := removeOutput_spec hs hi hlen
    exact ⟨_, hr, removal_of_normalizing hi hlen hn⟩

/-- The output owning a tag changes only when it is removed. -/
theorem ownerProxy_of_step {p : ObjectId} (hs : s.WellFormed) (h : Op.Step s op s')
    (hp : s.ownerProxy t = some p) : s'.ownerProxy t = some p ∨
      ∃ i, op = .removeOutput i ∧ s.tagOwner t = some i ∧ s.outputProxy i = some p := by
  obtain ⟨j, hj, hproxy⟩ := Option.bind_eq_some_iff.mp hp
  by_cases hop : ∃ i, i < s.outputs.length ∧ op = .removeOutput i
  · obtain ⟨i, hi, rfl⟩ := hop
    rcases eq_or_ne j i with rfl | hij
    · exact Or.inr ⟨j, rfl, hj, hproxy⟩
    have hjlt := hs.owner t j hj
    have hlen : 1 < s.outputs.length := by omega
    obtain ⟨r, hr, hrem⟩ := exists_removal hs hi
    obtain rfl : r = s' := Option.some.inj (hr.symm.trans h)
    refine Or.inl ?_
    rw [ownerProxy_eq (hrem.owner hlen t j hij hj), hrem.proxy, oldIndex_newIndex hij, hproxy]
  · have hgrows := (change_of_step hs h).grows fun i hi hop' => hop ⟨i, hi, hop'⟩
    exact Or.inl (hgrows.ownerProxy hp)

end State

open State

/-- Over every run the output owning a tag changes only in the step that removes it; and
from every reachable state, removing an output keeps what `Removal` lists. -/
theorem ownership_stable (f : ℚ) :
    (∀ τs : List (Step State Op), IsRun Op.Step (State.new f) τs → ∀ τ ∈ τs, ∀ t p,
        τ.pre.ownerProxy t = some p → τ.post.ownerProxy t = some p ∨
          ∃ i, τ.event = .removeOutput i ∧ τ.pre.tagOwner t = some i ∧
            τ.pre.outputProxy i = some p) ∧
      ∀ s, Reachable Op.Step (State.new f) s → ∀ i, i < s.outputs.length →
        ∃ s', s.removeOutput i = some s' ∧ Removal i s s' := by
  constructor
  · intro τs h τ hτ t p hp
    have hwf := (wellFormed_settledAll h τ hτ).1.1
    exact ownerProxy_of_step hwf (h.step_of_mem hτ) hp
  · intro s hs i hi
    have hwf := hs.invariant (fun _ _ _ hw hstep => Op.Step.wellFormed hw hstep) (wellFormed_new f)
    exact exists_removal hwf hi

/-- Three outputs, of which the middle one goes. -/
theorem ownership_stable_three_outputs :
    (∃ s, Reachable Op.Step (State.new 0) s ∧ s.outputs.length = 3 ∧
      ∃ s', s.removeOutput 1 = some s' ∧ Removal 1 s s') ∧
      ∃ τ ∈ trace State.next (State.new 0) [.addOutput 5, .addOutput 6, .addOutput 7,
        .removeOutput 1], τ.pre.ownerProxy 2 = some 7 ∧ (τ.post.ownerProxy 2 = some 7 ∨
          ∃ i, τ.event = .removeOutput i ∧ τ.pre.tagOwner 2 = some i ∧
            τ.pre.outputProxy i = some 7) := by
  constructor
  · obtain ⟨τ, hτ, hlen⟩ : ∃ τ ∈ trace State.next (State.new 0)
        [.addOutput 5, .addOutput 6, .addOutput 7], τ.post.outputs.length = 3 := by decide
    have hreach := ((isRun_next 0 _).reachable_of_mem hτ).2
    exact ⟨τ.post, hreach, hlen, (ownership_stable 0).2 τ.post hreach 1 (by omega)⟩
  · obtain ⟨τ, hτ, howner⟩ : ∃ τ ∈ trace State.next (State.new 0) [.addOutput 5, .addOutput 6,
        .addOutput 7, .removeOutput 1], τ.pre.ownerProxy 2 = some 7 := by decide
    exact ⟨τ, hτ, howner, (ownership_stable 0).1 _ (isRun_next 0 _) τ hτ 2 7 howner⟩

end Streamwm
