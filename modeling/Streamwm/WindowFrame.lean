import Mathlib.Data.List.Nodup
import Streamwm.Change

/-!
# The windows a step keeps

Apart from opening and closing windows, a step keeps every window, with its object and
its id (`Change.windows`). Only the fullscreen block of a manage sequence changes which
fullscreen states count as applied, and a window only moves to a tag with an owner
(`Change.follows`).

So ids stay unique : a new window takes the counter, which no window has (`FreshIds`).
-/

namespace Streamwm

open Partial Transition

/-- The same window, whatever the operations change about it. -/
structure Window.SameId (w w' : Window) : Prop where
  proxy : w'.proxy = w.proxy
  id : w'.id = w.id

/-- The same window with the same applied fullscreen state, on the same tag or on one
that `s` gives an owner. -/
structure Window.Follows (s : State) (w w' : Window) : Prop extends SameId w w' where
  applied : w'.fullscreenApplied = w.fullscreenApplied
  tag : w'.tag = w.tag ∨ s.tagOwner w'.tag ≠ none

theorem Window.Follows.refl (s : State) (w : Window) : Follows s w w :=
  ⟨⟨rfl, rfl⟩, rfl, Or.inl rfl⟩

namespace State

variable {s s' r : State} {i t old : ℕ} {op : Op} {w : Window}

theorem Quiet.sameId (h : Quiet s s') : List.Forall₂ Window.SameId s.windows s'.windows :=
  h.windows.imp fun _ _ h => ⟨h.1, h.2.1⟩

theorem Quiet.follows (h : Quiet s s') (happlied : s.SameApplied s') (r : State) :
    List.Forall₂ (Window.Follows r) s.windows s'.windows :=
  h.windows.mp (fun _ _ hw ha => ⟨⟨hw.1, hw.2.1⟩, ha, Or.inl hw.2.2.1⟩) happlied

/-- The windows stay as they are. -/
theorem follows_of_windows (h : s'.windows = s.windows) (r : State) :
    List.Forall₂ (Window.Follows r) s.windows s'.windows :=
  h ▸ List.forall₂_same.mpr fun w _ => Window.Follows.refl r w

theorem follows_clearFullscreenOnTag (t : ℕ) (r : State) :
    List.Forall₂ (Window.Follows r) s.windows (s.clearFullscreenOnTag t).windows := by
  change List.Forall₂ _ s.windows (s.windows.map _)
  rw [List.forall₂_map_right_iff]
  refine List.forall₂_same.mpr fun w _ => ?_
  split_ifs <;> exact ⟨⟨rfl, rfl⟩, rfl, Or.inl rfl⟩

theorem follows_normalizing {k : ℕ} (h : Normalizing k s r) (r' : State) :
    List.Forall₂ (Window.Follows r') s.windows r.clampFloatingWindows.windows :=
  h.windows ▸ (quiet_clampFloatingWindows r).follows (sameApplied_clampFloatingWindows r) r'

/-- The tag a window is sent to has an owner afterwards. -/
theorem Sends.owned {o : ℕ} (h : Sends o t w s s') : s'.tagOwner t ≠ none := by
  rw [h.owner]
  split_ifs with hif
  · simp
  · exact fun hnone => hif ⟨rfl, hnone⟩

/-- A step that neither opens nor closes a window nor applies fullscreen states. -/
theorem Change.follows (h : Change s op s') (h₁ : ∀ proxy, op ≠ .createWindow proxy)
    (h₂ : ∀ proxy, op ≠ .closeWindow proxy) (h₃ : op ≠ .applyFullscreen) :
    List.Forall₂ (Window.Follows s') s.windows s'.windows := by
  cases h with
  | same _ h => exact follows_of_windows h.windows s'
  | @shows _ _ _ old _ _ h =>
    rcases h.windows with hw | ⟨-, hw⟩
    · exact hw ▸ follows_clearFullscreenOnTag old s'
    · exact follows_of_windows hw s'
  | sendNone _ => exact follows_of_windows rfl s
  | send h =>
    rw [h.windows]
    refine forall₂_modifyFirst (Window.Follows.refl s') (fun w _ => ?_) s.windows
    exact ⟨⟨rfl, rfl⟩, rfl, Or.inr h.owned⟩
  | create proxy => exact absurd rfl (h₁ proxy)
  | close proxy => exact absurd rfl (h₂ proxy)
  | fullscreen wid =>
    refine forall₂_modifyFirst (Window.Follows.refl _) (fun w _ => ?_) s.windows
    exact ⟨⟨rfl, rfl⟩, rfl, Or.inl rfl⟩
  | applyFullscreen _ => exact absurd rfl h₃
  | quiet h happlied => exact h.follows happlied s'
  | @add proxy _ h =>
    have hsame := (validFocus_spec (s.withNewOutput proxy) (by simp [← List.length_pos_iff])).1
    exact follows_of_windows (by rw [h.windows, hsame.windows, windows_withNewOutput]) s'
  | removeNone _ => exact follows_of_windows rfl s
  | removeLast _ _ => exact follows_of_windows rfl _
  | @remove i _ _ _ h => exact follows_normalizing (s := s.dropOutput i) h _
  | geometryNone _ h happlied _ => exact h.follows happlied s'
  | @geometry i g _ _ h => exact follows_normalizing (s := s.setGeometry i g) h _

/-- A step that neither opens nor closes a window keeps them all. -/
theorem Change.windows (h : Change s op s') (h₁ : ∀ proxy, op ≠ .createWindow proxy)
    (h₂ : ∀ proxy, op ≠ .closeWindow proxy) :
    List.Forall₂ Window.SameId s.windows s'.windows := by
  by_cases h₃ : op = .applyFullscreen
  · subst h₃
    cases h with
    | applyFullscreen h => exact h.sameId
    | same hop _ | shows hop _ => exact hop.elim
  · exact (h.follows h₁ h₂ h₃).imp fun _ _ hw => hw.toSameId

/-- Only opening a window takes an id. -/
theorem Change.nextWindowId (h : Change s op s') (h₁ : ∀ proxy, op ≠ .createWindow proxy) :
    s'.nextWindowId = s.nextWindowId := by
  have hclamp : ∀ s : State, s.clampFloatingWindows.nextWindowId = s.nextWindowId := fun s =>
    (quiet_clampFloatingWindows s).nextWindowId
  cases h with
  | same _ h => exact h.nextWindowId
  | shows _ h => exact h.nextWindowId
  | sendNone _ => rfl
  | send h => exact h.nextWindowId
  | create proxy => exact absurd rfl (h₁ proxy)
  | close proxy => rfl
  | fullscreen wid => rfl
  | applyFullscreen h => exact h.nextWindowId
  | quiet h _ => exact h.nextWindowId
  | @add proxy _ h =>
    have hsame := (validFocus_spec (s.withNewOutput proxy) (by simp [← List.length_pos_iff])).1
    rw [h.nextWindowId, hsame.nextWindowId, (seats_withNewOutput proxy).2]
  | removeNone _ => rfl
  | removeLast _ _ => rfl
  | remove _ _ h =>
    rw [hclamp, h.nextWindowId]
    rfl
  | geometryNone _ h _ _ => exact h.nextWindowId
  | geometry _ h =>
    rw [hclamp, h.nextWindowId]
    rfl

/-! ## Ids are unique -/

/-- Window ids are unique and below the counter. -/
structure FreshIds (s : State) : Prop where
  nodup : (s.windows.map (·.id)).Nodup
  lt : ∀ w ∈ s.windows, w.id < s.nextWindowId

theorem freshIds_new (f : ℚ) : (State.new f).FreshIds :=
  ⟨by simp [State.new], by simp [State.new]⟩

theorem FreshIds.create (hs : s.FreshIds) (proxy : ObjectId) : (s.createWindow proxy).FreshIds := by
  refine ⟨?_, fun w hw => ?_⟩
  · change (List.map (·.id) (s.windows ++ [_])).Nodup
    rw [List.map_append, List.nodup_append]
    refine ⟨hs.nodup, by simp, fun a ha b hb => ?_⟩
    obtain ⟨w, hw, rfl⟩ := List.mem_map.mp ha
    rw [List.map_singleton, List.mem_singleton] at hb
    rw [hb]
    exact (hs.lt w hw).ne
  · change w.id < s.nextWindowId + 1
    rcases List.mem_append.mp hw with hw | hw
    · exact (hs.lt w hw).trans (Nat.lt_succ_self _)
    · rw [List.mem_singleton.mp hw]
      exact Nat.lt_succ_self _

/-- Ids stay unique. -/
theorem Change.freshIds (hs : s.FreshIds) (h : Change s op s') : s'.FreshIds := by
  by_cases hcreate : ∃ proxy, op = .createWindow proxy
  · obtain ⟨proxy, rfl⟩ := hcreate
    cases h with
    | create proxy => exact hs.create proxy
    | same hop _ | shows hop _ => exact hop.elim
  by_cases hclose : ∃ proxy, op = .closeWindow proxy
  · obtain ⟨proxy, rfl⟩ := hclose
    cases h with
    | close proxy =>
      exact ⟨hs.nodup.sublist (List.filter_sublist.map _),
        fun w hw => hs.lt w (List.mem_of_mem_filter hw)⟩
    | same hop _ | shows hop _ => exact hop.elim
  have hw := h.windows (fun p hp => hcreate ⟨p, hp⟩) fun p hp => hclose ⟨p, hp⟩
  have hnext := h.nextWindowId fun p hp => hcreate ⟨p, hp⟩
  refine ⟨?_, fun w hmem => ?_⟩
  · rw [map_eq_of_forall₂ (fun _ _ h => h.id) hw]
    exact hs.nodup
  · obtain ⟨v, hv, hid⟩ := exists_of_forall₂ hw hmem
    rw [hnext, hid.id]
    exact hs.lt v hv

/-- A window is found by its id. -/
theorem FreshIds.eq_of_id (hs : s.FreshIds) {v : Window} (hw : w ∈ s.windows) (hv : v ∈ s.windows)
    (h : w.id = v.id) : w = v :=
  List.inj_on_of_nodup_map hs.nodup hw hv h

/-- A window is found by its id. -/
theorem FreshIds.findWindow (hs : s.FreshIds) (hw : w ∈ s.windows) : s.findWindow w.id = some w := by
  obtain ⟨v, hv⟩ := exists_findWindow_id hw
  obtain ⟨hmem, hid⟩ := mem_of_findWindow hv
  rw [hv, hs.eq_of_id hmem hw hid]

/-- Operations give no id twice. -/
theorem FreshIds.of_reachable (hs : s.FreshIds) (hwf : s.WellFormed)
    (h : Reachable Op.Step s s') : s'.FreshIds :=
  (h.invariant (I := fun s => s.WellFormed ∧ s.FreshIds) (fun _ _ _ hs hstep =>
    have hc := change_of_step hs.1 hstep
    ⟨hc.wellFormed hs.1, hc.freshIds hs.2⟩) ⟨hwf, hs⟩).2

theorem reachable_freshIds {f : ℚ} (h : Reachable Op.Step (State.new f) s) : s.FreshIds :=
  (freshIds_new f).of_reachable (wellFormed_new f) h

end State

end Streamwm
