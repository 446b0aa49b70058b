import Streamwm.FloatingBoxes

/-!
# The ledger

The ledger of a state is what the window manager keeps of its dealings with river : for every
window, output and seat the objects it holds for it, and for every window which settings it has
asked for last. The splits are the master fractions of the tags, and resize mode. The operations of
`Streamwm.StateOps` move tags, focus and windows, and leave both alone; that is said here once
for each of them. Outputs that come and go are left to the modules on objects.
-/

namespace Streamwm

open Partial

/-- What is kept of the dealings about a window. -/
structure WindowEntry where
  proxy : ObjectId
  id : ℕ
  node : Option ObjectId
  capsSet : Bool
  ssdApplied : Option Bool
  tiledApplied : Option Bool
  borderApplied : Option (Bool × ℕ × ℕ × ℕ × ℕ)

/-- The objects held for an output. -/
structure OutputEntry where
  proxy : ObjectId
  layer : Option ObjectId
  wlOutput : Option ObjectId

/-- The objects held for a seat. -/
structure SeatEntry where
  proxy : ObjectId
  layer : Option ObjectId
  pointer : Option ObjectId
  cursorShape : Option ObjectId

/-- The entry of a window. -/
def Window.entry (w : Window) : WindowEntry :=
  { proxy := w.proxy, id := w.id, node := w.node, capsSet := w.capsSet, ssdApplied := w.ssdApplied
    tiledApplied := w.tiledApplied, borderApplied := w.borderApplied }

/-- The entry of an output. -/
def Output.entry (o : Output) : OutputEntry :=
  { proxy := o.proxy, layer := o.layer, wlOutput := o.wlOutput }

/-- The entry of a seat. -/
def Seat.entry (t : Seat) : SeatEntry :=
  { proxy := t.proxy, layer := t.layer, pointer := t.pointer, cursorShape := t.cursorShape }

/-- What the window manager keeps of its dealings with river. -/
structure Ledger where
  windows : List WindowEntry
  outputs : List OutputEntry
  seats : List SeatEntry

namespace State

/-- The entries of all windows, outputs and seats. -/
def ledger (s : State) : Ledger :=
  { windows := s.windows.map Window.entry, outputs := s.outputs.map Output.entry
    seats := s.seats.map Seat.entry }

/-- The master fractions of the tags, the one of new tags, and whether they are resized. -/
def splits (s : State) : List ℚ × ℚ × Bool :=
  (s.tags.map (·.masterFraction), s.defaultMasterFraction, s.resizeMode)

/-- The ledger and the splits. -/
def books (s : State) : Ledger × List ℚ × ℚ × Bool :=
  (s.ledger, s.splits)

variable {s s' r : State} {i t : ℕ}

/-! ## Assignments -/

/-- The windows are updated, and no entry of theirs. -/
theorem books_of_windows {ws : List Window} (h : ws.map Window.entry = s.windows.map Window.entry) :
    ({ s with windows := ws } : State).books = s.books := by
  unfold books ledger
  rw [h]
  rfl

/-- The outputs are updated, and no entry of theirs. -/
theorem books_of_outputs {os : List Output} (h : os.map Output.entry = s.outputs.map Output.entry) :
    ({ s with outputs := os } : State).books = s.books := by
  unfold books ledger
  rw [h]
  rfl

/-- The seats are updated, and no entry of theirs. -/
theorem books_of_seats {ts : List Seat} (h : ts.map Seat.entry = s.seats.map Seat.entry) :
    ({ s with seats := ts } : State).books = s.books := by
  unfold books ledger
  rw [h]
  rfl

theorem books_modifyWindow (id : ℕ) {f : Window → Window} (hf : ∀ w, (f w).entry = w.entry) :
    (s.modifyWindow id f).books = s.books :=
  books_of_windows (map_modifyFirst Window.entry hf s.windows)

theorem books_modifySeat (seat : ObjectId) {f : Seat → Seat} (hf : ∀ t, (f t).entry = t.entry) :
    (s.modifySeat seat f).books = s.books :=
  books_of_seats (map_modifyFirst Seat.entry hf s.seats)

theorem books_modifyOutput (p : Output → Bool) {f : Output → Output}
    (hf : ∀ o, (f o).entry = o.entry) : (s.modifyOutput p f).books = s.books :=
  books_of_outputs (map_modifyFirst Output.entry hf s.outputs)

theorem books_setActiveTag : (s.setActiveTag i t).books = s.books :=
  books_of_outputs (map_modify (f := fun o : Output => { o with activeTag := t }) Output.entry
    (fun _ => rfl) s.outputs i)

theorem books_setFocusedWindow {wid : Option ℕ} : (s.setFocusedWindow i wid).books = s.books :=
  books_of_outputs (map_modify (f := fun o : Output => { o with focusedWindow := wid })
    Output.entry (fun _ => rfl) s.outputs i)

/-- To claim a tag leaves its split alone. -/
theorem books_setTagOutput : (s.setTagOutput t i).books = s.books := by
  have hsplits : (s.setTagOutput t i).splits = s.splits :=
    Prod.ext (map_modify (f := fun t : Tag => { t with output := some i }) (·.masterFraction)
      (fun _ => rfl) s.tags t) rfl
  exact Prod.ext rfl hsplits

/-- To leave fullscreen tells river nothing yet. -/
theorem books_clearFullscreenOnTag : (s.clearFullscreenOnTag t).books = s.books := by
  refine books_of_windows ?_
  rw [List.map_map]
  refine List.map_congr_left fun w _ => ?_
  simp only [Function.comp_apply]
  split_ifs <;> rfl

theorem books_setGeometry (g : GeometryEvent) : (s.setGeometry i g).books = s.books :=
  books_of_outputs (map_modify (f := fun o : Output => o.setGeometry g) Output.entry
    (fun o => by cases g <;> rfl) s.outputs i)

/-- Floating windows are moved by their position alone. -/
theorem books_clampFloatingWindows : s.clampFloatingWindows.books = s.books := by
  unfold clampFloatingWindows
  split_ifs
  · rfl
  · refine books_of_windows ?_
    rw [List.map_map]
    refine List.map_congr_left fun w _ => ?_
    obtain ⟨x, y, hw⟩ := s.clampFloatingWindow_moves w
    rw [Function.comp_apply, hw]
    rfl

/-! ## Operations -/

theorem books_refocusOutput (h : s.refocusOutput i = some r) : r.books = s.books := by
  obtain ⟨out, -, hr⟩ := Option.bind_eq_some_iff.mp h
  exact Option.some.inj hr ▸ books_setFocusedWindow

/-- One output is given a tag of its own, or keeps the one it shows. -/
theorem books_normalizeOutput (h : normalizeOutput i s = some r) : r.books = s.books := by
  obtain ⟨out, -, h⟩ := Option.bind_eq_some_iff.mp h
  split_ifs at h
  · obtain ⟨best, -, h⟩ := Option.bind_eq_some_iff.mp h
    split at h
    · exact (books_refocusOutput h).trans books_setActiveTag
    · split at h
      · exact (books_refocusOutput h).trans (books_setActiveTag.trans books_setTagOutput)
      · exact books_refocusOutput h
  · exact books_refocusOutput h

theorem books_normalizeOutputs (h : s.normalizeOutputs = some r) : r.books = s.books := by
  unfold normalizeOutputs at h
  split_ifs at h
  · exact Option.some.inj h ▸ rfl
  · obtain ⟨f, hv⟩ := s.validFocus_frame
    rw [loop_keeps books (fun _ _ _ => books_normalizeOutput) h, hv]
    rfl

/-- A repair after new geometry moves tags and floating windows. -/
theorem books_repairOutputs (h : s.repairOutputs = some r) : r.books = s.books := by
  obtain ⟨n, hn, h⟩ := Option.bind_eq_some_iff.mp h
  exact Option.some.inj h ▸ books_clampFloatingWindows.trans (books_normalizeOutputs hn)

theorem books_activateTag (h : s.activateTag i t = some r) : r.books = s.books := by
  obtain ⟨out, -, h⟩ := Option.bind_eq_some_iff.mp h
  exact (books_refocusOutput h).trans (books_clearFullscreenOnTag.trans books_setActiveTag)

/-- To focus a tag shows it on an output. -/
theorem books_focusTag (h : s.focusTag i t = some r) : r.books = s.books := by
  unfold focusTag at h
  split_ifs at h
  · exact Option.some.inj h ▸ rfl
  · split at h
    · obtain ⟨a, ha, h⟩ := Option.bind_eq_some_iff.mp h
      exact Option.some.inj h ▸ (books_activateTag ha).trans books_setTagOutput
    · split_ifs at h
      all_goals
        obtain ⟨a, ha, h⟩ := Option.bind_eq_some_iff.mp h
        have hbooks := books_activateTag ha
        exact Option.some.inj h ▸ hbooks

theorem books_switchActiveTag (h : s.switchActiveTag i t = some r) : r.books = s.books := by
  unfold switchActiveTag at h
  split at h
  · exact Option.some.inj h ▸ rfl
  · refine (books_refocusOutput h).trans ?_
    split_ifs
    · exact books_clearFullscreenOnTag.trans books_setActiveTag
    · exact books_setActiveTag

theorem books_moveWindow (id : ℕ) : (s.modifyWindow id fun w => { w with tag := t }).books = s.books :=
  books_modifyWindow id fun _ => by rfl

/-- To send a window changes its tag, which is no dealing with river. -/
theorem books_sendFocusedToTag (h : s.sendFocusedToTag i t = some r) : r.books = s.books := by
  unfold sendFocusedToTag at h
  by_cases hlt : s.tags.length ≤ t
  · rw [if_pos hlt] at h
    exact Option.some.inj h ▸ rfl
  · rw [if_neg hlt] at h
    split at h
    · exact Option.some.inj h ▸ rfl
    · split at h
      · exact Option.some.inj h ▸ rfl
      · obtain ⟨a, ha, h⟩ := Option.bind_eq_some_iff.mp h
        have hmoved := (books_refocusOutput ha).trans (books_moveWindow _)
        refine Option.some.inj h ▸ hmoved.trans ?_
        split_ifs
        · exact books_setTagOutput
        · rfl

theorem books_focusWindowOnOutput {changed : Bool}
    (h : s.focusWindowOnOutput i = some (r, changed)) : r.books = s.books := by
  unfold focusWindowOnOutput at h
  split at h
  · obtain ⟨rfl, -⟩ := Prod.mk.inj (Option.some.inj h)
    rfl
  · split at h
    · obtain ⟨rfl, -⟩ := Prod.mk.inj (Option.some.inj h)
      rfl
    · obtain ⟨out, -, h⟩ := Option.bind_eq_some_iff.mp h
      split_ifs at h
      · obtain ⟨rfl, -⟩ := Prod.mk.inj (Option.some.inj h)
        rfl
      · obtain ⟨a, ha, h⟩ := Option.bind_eq_some_iff.mp h
        obtain ⟨rfl, -⟩ := Prod.mk.inj (Option.some.inj h)
        exact (books_switchActiveTag ha).trans books_setFocusedWindow

/-- A window focused by a command brings its tag along. -/
theorem books_commandFocusWindow (h : s.commandFocusWindow i t = some r) : r.books = s.books := by
  unfold commandFocusWindow at h
  split at h
  · exact Option.some.inj h ▸ rfl
  · obtain ⟨a, ha, h⟩ := Option.bind_eq_some_iff.mp h
    have hbooks := books_switchActiveTag ha
    split_ifs at h
    exact Option.some.inj h ▸ books_setFocusedWindow.trans hbooks

theorem books_cycleFocus {next changed : Bool} (h : s.cycleFocus next = some (r, changed)) :
    r.books = s.books := by
  unfold cycleFocus at h
  split at h
  · obtain ⟨rfl, -⟩ := Prod.mk.inj (Option.some.inj h)
    rfl
  · obtain ⟨out, -, h⟩ := Option.bind_eq_some_iff.mp h
    dsimp only at h
    split_ifs at h
    · obtain ⟨rfl, -⟩ := Prod.mk.inj (Option.some.inj h)
      rfl
    all_goals
      obtain ⟨target, -, h⟩ := Option.bind_eq_some_iff.mp h
      obtain ⟨rfl, -⟩ := Prod.mk.inj (Option.some.inj h)
      exact books_setFocusedWindow

/-- A window floats where it was tiled. -/
theorem books_floatFrom {config : Config} (h : s.floatFrom config i = some r) :
    r.books = s.books := by
  obtain ⟨gs, -, h⟩ := Option.bind_eq_some_iff.mp h
  refine Option.some.inj h ▸ books_modifyWindow i fun w => ?_
  split <;> rfl

/-- A resize step leaves the ledger alone. -/
theorem ledger_resizeStep {delta : ℚ} (h : s.resizeStep delta = some r) :
    r.ledger = s.ledger := by
  unfold resizeStep at h
  split_ifs at h
  · split at h
    · obtain ⟨out, -, h⟩ := Option.bind_eq_some_iff.mp h
      exact Option.some.inj h ▸ congrArg Prod.fst books_clearFullscreenOnTag
    · exact Option.some.inj h ▸ rfl
  · exact Option.some.inj h ▸ rfl

end State

end Streamwm
