import Streamwm.DimensionBounds
import Streamwm.Library.Inbox
import Streamwm.Lifecycle
import Streamwm.Phases

/-!
# Sizes, focus and the default layer

River keeps the size it was asked for last for every window, the keyboard focus set last for every
seat, and the layer made the default last. All three can be read off the requests made so far
(`proposedTo`, `focusOf`, `defaultLayer`).

A manage sequence proposes to every shown tiled window its cell and to every floating one its own
size within its hints, and sets the focus of every seat (`settles_onManageStart`). The default
layer is asked for once, and again after an output is gone; so from such a request on it is that
of the first output until an output goes, and it is so after every manage sequence
(`default_layer`).
-/

namespace Streamwm

open Inbox Partial Transition

/-- The window a request proposes a size to. -/
def Request.proposes : Request → Option ObjectId
  | .proposeDimensions w _ _ => some w
  | _ => none

/-- The size after a request that proposes one. -/
def proposal (s : Option (ℕ × ℕ)) : Request → Option (ℕ × ℕ)
  | .proposeDimensions _ width height => some (width, height)
  | _ => s

/-- The size proposed to a window last. -/
def proposedTo (sent : List Request) (w : ObjectId) : Option (ℕ × ℕ) :=
  hear Request.proposes proposal w none sent

/-- The seat a request sets the focus of. -/
def Request.focuses : Request → Option ObjectId
  | .focusWindow t _ | .clearFocus t => some t
  | _ => none

/-- The focus after a request that sets it. -/
def focusing (s : Option ObjectId) : Request → Option ObjectId
  | .focusWindow _ w => some w
  | .clearFocus _ => none
  | _ => s

/-- The keyboard focus of a seat. -/
def focusOf (sent : List Request) (t : ObjectId) : Option ObjectId :=
  hear Request.focuses focusing t none sent

/-- The layer a request makes the default. -/
def Request.defaults : Request → Option Unit
  | .layerSetDefault _ => some ()
  | _ => none

def defaulting (s : Option ObjectId) : Request → Option ObjectId
  | .layerSetDefault layer => some layer
  | _ => s

/-- The default layer. -/
def defaultLayer (sent : List Request) : Option ObjectId :=
  hear Request.defaults defaulting () none sent

namespace State

variable {s : State} {config : Config} {w : Window} {g : Geometry} {gs : List (ℕ × Geometry)}
  {r : Request} {x : ObjectId}

/-! ## Sizes -/

theorem proposes_proposeCell {p : ℕ × Geometry} (hr : r ∈ s.proposeCell p)
    (hx : r.proposes = some x) : ∃ v ∈ s.windows, v.id = p.1 ∧ v.proxy = x ∧
      r = .proposeDimensions x p.2.width p.2.height := by
  unfold proposeCell at hr
  split_ifs at hr
  · cases hr
  · split at hr
    · cases hr
    · next v hv =>
      obtain ⟨hmem, hid⟩ := mem_of_findWindow hv
      split_ifs at hr
      · rw [List.mem_singleton.mp hr] at hx
        cases hx
      · simp only [List.mem_cons, List.not_mem_nil, or_false] at hr
        rcases hr with rfl | rfl
        · cases hx
        · exact ⟨v, hmem, hid, Option.some.inj hx, by rw [Option.some.inj hx]⟩

theorem proposes_proposeFloats (hr : r ∈ s.proposeFloats) (hx : r.proposes = some x) :
    ∃ v ∈ s.windows, v.floating = true ∧ v.proxy = x ∧
      r = .proposeDimensions x v.hintedSize.1 v.hintedSize.2 := by
  obtain ⟨v, hv, hr⟩ := List.mem_flatMap.mp hr
  obtain ⟨hmem, hfl⟩ := List.mem_filter.mp hv
  split_ifs at hr
  · rw [List.mem_singleton.mp hr] at hx ⊢
    exact ⟨v, hmem, hfl, Option.some.inj hx, by rw [Option.some.inj hx]; rfl⟩
  · cases hr

/-- All that is proposed to a floating window is its size. -/
theorem proposes_float (hids : (s.windows.map (·.id)).Nodup)
    (hproxies : (s.windows.map (·.proxy)).Nodup) (hgs : s.computeAll config = some gs)
    (hw : w ∈ s.windows) (hfl : w.floating = true)
    (hr : r ∈ gs.flatMap s.proposeCell ++ s.proposeFloats) (hx : r.proposes = some w.proxy) :
    r = .proposeDimensions w.proxy w.hintedSize.1 w.hintedSize.2 := by
  rcases List.mem_append.mp hr with hr | hr
  · obtain ⟨p, hp, hr⟩ := List.mem_flatMap.mp hr
    obtain ⟨v, hv, hid, hproxy, -⟩ := proposes_proposeCell hr hx
    obtain rfl := List.inj_on_of_nodup_map hproxies hv hw hproxy
    exact absurd (hid ▸ hp : (v.id, p.2) ∈ gs) (not_mem_computeAll hids hgs hw hfl p.2)
  · obtain ⟨v, hv, -, hproxy, hr⟩ := proposes_proposeFloats hr hx
    obtain rfl := List.inj_on_of_nodup_map hproxies hv hw hproxy
    exact hr

/-- All that is proposed to a tiled window is its cell. -/
theorem proposes_cell (hproxies : (s.windows.map (·.proxy)).Nodup) (hw : w ∈ s.windows)
    (hfl : w.floating = false) (hcell : ∀ g', (w.id, g') ∈ gs → g' = g)
    (hr : r ∈ gs.flatMap s.proposeCell ++ s.proposeFloats) (hx : r.proposes = some w.proxy) :
    r = .proposeDimensions w.proxy g.width g.height := by
  rcases List.mem_append.mp hr with hr | hr
  · obtain ⟨p, hp, hr⟩ := List.mem_flatMap.mp hr
    obtain ⟨v, hv, hid, hproxy, hr⟩ := proposes_proposeCell hr hx
    obtain rfl := List.inj_on_of_nodup_map hproxies hv hw hproxy
    rw [hr, hcell p.2 (hid ▸ hp : (v.id, p.2) ∈ gs)]
  · obtain ⟨v, hv, hvfl, hproxy, -⟩ := proposes_proposeFloats hr hx
    obtain rfl := List.inj_on_of_nodup_map hproxies hv hw hproxy
    rw [hfl] at hvfl
    cases hvfl

theorem proposeFloats_tiled (s : State) : s.tiled.proposeFloats = s.proposeFloats := by
  have hfields : ∀ v : Window, v.setTiled.1.floating = v.floating := fun v => by
    obtain ⟨t, ht, -⟩ := v.setTiled_spec
    rw [ht]
  have hfilter : (fun v : Window => v.floating) ∘ (fun v : Window => v.setTiled.1) =
      fun v => v.floating := funext hfields
  unfold proposeFloats tiled
  rw [List.filter_map, hfilter, List.flatMap_map]
  refine List.flatMap_congr fun v _ => ?_
  obtain ⟨t, ht, -⟩ := v.setTiled_spec
  rw [ht]

theorem findWindow_tiled (s : State) (id : ℕ) :
    s.tiled.findWindow id = (s.findWindow id).map fun v => v.setTiled.1 := by
  have hid : (fun v : Window => v.id == id) ∘ (fun v : Window => v.setTiled.1) =
      fun v : Window => v.id == id := by
    funext v
    obtain ⟨t, ht, -⟩ := v.setTiled_spec
    simp only [Function.comp_apply, ht]
  simp only [findWindow, tiled, List.find?_map, hid]

theorem routedWindow_tiled (s : State) :
    s.tiled.routedWindow = s.routedWindow.map (Option.map fun v => v.setTiled.1) := by
  have hactive : s.tiled.activeOutput = s.activeOutput := rfl
  have houtputs : s.tiled.outputs = s.outputs := rfl
  unfold routedWindow
  rw [hactive, houtputs]
  cases s.activeOutput with
  | none => rfl
  | some o =>
    cases ho : s.outputs[o]? with
    | none => simp [ho]
    | some out => cases hf : out.focusedWindow <;> simp [ho, hf, findWindow_tiled]

theorem proposals_tiled (s : State) (gs : List (ℕ × Geometry)) :
    gs.flatMap s.tiled.proposeCell ++ s.tiled.proposeFloats =
      gs.flatMap s.proposeCell ++ s.proposeFloats := by
  rw [funext (proposeCell_tiled s), proposeFloats_tiled]

/-- What is proposed to a tiled window is among the proposals. -/
theorem mem_proposeCell (hids : (s.windows.map (·.id)).Nodup) (hw : w ∈ s.windows)
    (hfs : w.fullscreen = false) (hwidth : g.width ≠ 0) (hheight : g.height ≠ 0) :
    Request.proposeDimensions w.proxy g.width g.height ∈ s.proposeCell (w.id, g) := by
  have hcell : ¬((w.id, g).2.width = 0 ∨ (w.id, g).2.height = 0) := not_or.mpr ⟨hwidth, hheight⟩
  rw [proposeCell, if_neg hcell, AppData.findWindow_of_nodup hids hw]
  simp [hfs]

end State

namespace AppData

variable {d d' : AppData} {r : Request} {w : Window}

/-- What a manage sequence settles : the focus of every seat, the size of every floating window
whose own size is not empty, and that of every shown tiled window that is not fullscreen and whose
cell is not empty. To the others no size is proposed. -/
def Settles (d : AppData) : Prop :=
  ∃ routed gs, d.state.routedWindow = some routed ∧ d.state.computeAll d.config = some gs ∧
    (∀ t ∈ d.state.seats, focusOf d.sent t.proxy = routed.map (·.proxy)) ∧
    ∀ w ∈ d.state.windows,
      (w.floating = true → 0 < w.floatW → 0 < w.floatH → proposedTo d.sent w.proxy =
        some w.hintedSize) ∧
      (w.floating = false → d.state.windowIsVisible w = true → w.fullscreen = false →
        ∃ g, (∀ g', (w.id, g') ∈ gs ↔ g' = g) ∧ (g.width ≠ 0 → g.height ≠ 0 →
          proposedTo d.sent w.proxy = some (g.width, g.height)))

/-- A request of a manage sequence that proposes a size is one of the proposals. -/
theorem proposes_manageRequests {routed : Option Window} {gs : List (ℕ × Geometry)}
    (hr : r ∈ d.manageRequests routed gs ++ [.manageFinish]) {x : ObjectId}
    (hx : r.proposes = some x) :
    r ∈ gs.flatMap d.settled.proposeCell ++ d.settled.proposeFloats := by
  rcases List.mem_append.mp hr with hr | hr
  · obtain ⟨c, hpart, hmem⟩ := part_manageRequests hr
    cases r with
    | proposeDimensions _ _ _ =>
      obtain rfl := Option.some.inj hpart
      exact hmem
    | _ => cases hx
  · rw [List.mem_singleton.mp hr] at hx
    cases hx

theorem focuses_manageRequests {routed : Option Window} {gs : List (ℕ × Geometry)}
    (hr : r ∈ d.manageRequests routed gs ++ [.manageFinish]) {x : ObjectId}
    (hx : r.focuses = some x) : r ∈ d.settled.focusRequests routed := by
  rcases List.mem_append.mp hr with hr | hr
  · obtain ⟨c, hpart, hmem⟩ := part_manageRequests hr
    cases r with
    | focusWindow _ _ | clearFocus _ =>
      obtain rfl := Option.some.inj hpart
      exact hmem
    | _ => cases hx
  · rw [List.mem_singleton.mp hr] at hx
    cases hx

theorem sizes_manageRequests {routed : Option Window} {gs : List (ℕ × Geometry)}
    (hr : r ∈ gs.flatMap d.settled.proposeCell ++ d.settled.proposeFloats) :
    r ∈ d.manageRequests routed gs := by
  unfold manageRequests
  refine List.mem_append_left _ (List.mem_append_left _ (List.mem_append_left _ ?_))
  exact List.mem_append_right _ hr

theorem focus_manageRequests {routed : Option Window} {gs : List (ℕ × Geometry)}
    (hr : r ∈ d.settled.focusRequests routed) : r ∈ d.manageRequests routed gs := by
  unfold manageRequests
  refine List.mem_append_left _ (List.mem_append_left _ (List.mem_append_left _ ?_))
  exact List.mem_append_left _ (List.mem_append_right _ hr)

theorem proxy_setTiled (v : Window) : v.setTiled.1.proxy = v.proxy := by
  obtain ⟨t, ht, -⟩ := v.setTiled_spec
  rw [ht]

/-- A manage sequence settles the focus and the sizes. -/
theorem settles_onManageStart (hids : (d'.state.windows.map (·.id)).Nodup)
    (hproxies : (d'.state.windows.map (·.proxy)).Nodup) (h : d.onManageStart = some d') :
    d'.Settles := by
  obtain ⟨routed, gs, hrouted, hgs, rfl⟩ := onManageStart_eq h
  refine ⟨routed.map fun v => v.setTiled.1, gs, ?_, ?_, fun t ht => ?_, fun w hw => ⟨?_, ?_⟩⟩
  · exact (State.routedWindow_tiled d.settled).trans (congrArg (Option.map _) hrouted)
  · exact (State.computeAll_tiled d.settled d.config).trans hgs
  · unfold focusOf
    rw [hear_append]
    refine hear_const (fun r hr htarget f => ?_) (Or.inr ?_)
    · obtain ⟨t', -, rfl⟩ := List.mem_map.mp (focuses_manageRequests hr htarget)
      cases routed with
      | none => rfl
      | some v => exact congrArg some (proxy_setTiled v).symm
    · refine ⟨_, List.mem_append_left _ (focus_manageRequests (List.mem_map_of_mem ht)), ?_⟩
      cases routed <;> rfl
  · intro hfl hwidth hheight
    unfold proposedTo
    rw [hear_append]
    refine hear_const (fun r hr htarget f => ?_) (Or.inr ?_)
    · have hmem := proposes_manageRequests hr htarget
      rw [← State.proposals_tiled] at hmem
      rw [State.proposes_float hids hproxies (by rw [State.computeAll_tiled, hgs]) hw hfl hmem htarget]
      rfl
    · have hmem := State.mem_proposeFloats hw hfl hwidth hheight
      rw [State.proposeFloats_tiled] at hmem
      exact ⟨_, List.mem_append_left _ (sizes_manageRequests (List.mem_append_right _ hmem)), rfl⟩
  · intro hfl hvisible hfs
    have hgs' : d.settled.tiled.computeAll d.config = some gs := by rw [State.computeAll_tiled, hgs]
    obtain ⟨g, hg⟩ := State.exists_unique_cell hids hgs' hw hfl hvisible
    refine ⟨g, hg, fun hwidth hheight => ?_⟩
    unfold proposedTo
    rw [hear_append]
    refine hear_const (fun r hr htarget f => ?_) (Or.inr ?_)
    · have hmem := proposes_manageRequests hr htarget
      rw [← State.proposals_tiled] at hmem
      rw [State.proposes_cell hproxies hw hfl (fun g' => (hg g').mp) hmem htarget]
      rfl
    · have hmem := State.mem_proposeCell hids hw hfs hwidth hheight
      rw [State.proposeCell_tiled] at hmem
      exact ⟨_, List.mem_append_left _ (sizes_manageRequests (List.mem_append_left _
        (List.mem_flatMap.mpr ⟨_, (hg g).mpr rfl, hmem⟩))), rfl⟩

/-- Outside manage sequences nothing is proposed, no focus set and no layer made the default. -/
theorem unasked_handle (hids : (d.state.windows.map (·.id)).Nodup) {event : Event}
    (hevent : event ≠ .manageStart) (h : d.handle event = some d') : ∃ rs, d'.sent = d.sent ++ rs ∧
      ∀ r ∈ rs, r.proposes = none ∧ r.focuses = none ∧ r.defaults = none := by
  cases hstarts : event.Starts with
  | false =>
    obtain ⟨rs, hrs, hkind⟩ := occasional_handle hids hstarts h
    refine ⟨rs, hrs, fun r hr => ?_⟩
    have hocc := hkind r hr
    cases r <;> first | exact ⟨rfl, rfl, rfl⟩ | cases hocc
  | true =>
    cases event with
    | manageStart => exact absurd rfl hevent
    | renderStart hasClients =>
      obtain ⟨rs, hrs, hkind⟩ := rendering_onRenderStart hids h
      refine ⟨_, hrs, List.forall_mem_append.mpr ⟨fun r hr => ?_,
        List.forall_mem_singleton.mpr ⟨rfl, rfl, rfl⟩⟩⟩
      have hrender := hkind r hr
      cases r <;> first | exact ⟨rfl, rfl, rfl⟩ | cases hrender
    | _ => cases hstarts

/-- What is proposed and where the focus is stays as it is outside manage sequences. -/
theorem settles_handle (hids : (d.state.windows.map (·.id)).Nodup) {event : Event}
    (hevent : event ≠ .manageStart) (h : d.handle event = some d') (x : ObjectId) :
    proposedTo d'.sent x = proposedTo d.sent x ∧ focusOf d'.sent x = focusOf d.sent x := by
  obtain ⟨rs, hrs, hnone⟩ := unasked_handle hids hevent h
  unfold proposedTo focusOf
  rw [hrs, hear_append, hear_append]
  exact ⟨hear_of_not fun r hr => by simp [(hnone r hr).1],
    hear_of_not fun r hr => by simp [(hnone r hr).2.1]⟩

/-! ## The default layer -/

variable {layerShell : Bool}

/-- What is kept of the default layer : every output has a layer if there are layers, and when
one is the default, it is that of the first output. -/
structure LayerKept (layerShell : Bool) (d : AppData) : Prop where
  shell : d.layerShell = layerShell
  layers : ∀ e ∈ d.state.ledger.outputs, e.layer.isSome = layerShell
  told : d.layerDefaultSet = true → defaultLayer d.sent = d.firstLayer ∧ d.firstLayer.isSome

theorem firstLayer_eq (d : AppData) :
    d.firstLayer = (d.state.ledger.outputs.map (·.layer)).head?.join := by
  unfold firstLayer State.ledger
  rw [List.map_map, List.head?_map]
  cases d.state.outputs.head? <;> rfl

theorem defaultLayer_append {sent rs : List Request} (h : ∀ r ∈ rs, r.defaults = none) :
    defaultLayer (sent ++ rs) = defaultLayer sent := by
  unfold defaultLayer
  rw [hear_append]
  exact hear_of_not fun r hr => by simp [h r hr]

theorem defaults_manageRequests {routed : Option Window} {gs : List (ℕ × Geometry)}
    (hr : r ∈ d.manageRequests routed gs ++ [.manageFinish]) (hx : r.defaults = some ()) :
    r ∈ d.layerRequests := by
  rcases List.mem_append.mp hr with hr | hr
  · obtain ⟨c, hpart, hmem⟩ := part_manageRequests hr
    cases r with
    | layerSetDefault _ =>
      obtain rfl := Option.some.inj hpart
      exact hmem
    | _ => cases hx
  · rw [List.mem_singleton.mp hr] at hx
    cases hx

theorem layer_manageRequests {routed : Option Window} {gs : List (ℕ × Geometry)}
    (hr : r ∈ d.layerRequests) : r ∈ d.manageRequests routed gs := by
  unfold manageRequests
  refine List.mem_append_left _ (List.mem_append_left _ (List.mem_append_left _ ?_))
  exact List.mem_append_left _ (List.mem_append_left _ (List.mem_append_right _ hr))

/-- The default layer is kept when no other is asked for and the first output stays. -/
theorem LayerKept.of_told (hd : d.LayerKept layerShell) {rs : List Request} (hsent : d'.sent = d.sent ++ rs)
    (hrs : ∀ r ∈ rs, r.defaults = none) (hshell : d'.layerShell = d.layerShell)
    (hlayers : ∀ e ∈ d'.state.ledger.outputs, e.layer.isSome = layerShell)
    (hfirst : d'.layerDefaultSet = true → d.layerDefaultSet = true ∧
      (d.firstLayer.isSome → d'.firstLayer = d.firstLayer)) : d'.LayerKept layerShell := by
  refine ⟨hshell.trans hd.shell, hlayers, fun h => ?_⟩
  obtain ⟨hset, hsame⟩ := hfirst h
  obtain ⟨htold, hsome⟩ := hd.told hset
  rw [hsame hsome, hsent, defaultLayer_append hrs]
  exact ⟨htold, hsome⟩

theorem LayerKept.of_outputs (hd : d.LayerKept layerShell) {rs : List Request} (hsent : d'.sent = d.sent ++ rs)
    (hrs : ∀ r ∈ rs, r.defaults = none) (hfixed : d'.fixed = d.fixed)
    (houtputs : d'.state.ledger.outputs = d.state.ledger.outputs) : d'.LayerKept layerShell := by
  have hshell : d'.layerShell = d.layerShell := congrArg (·.2.1.2.1) hfixed
  have hset : d'.layerDefaultSet = d.layerDefaultSet := congrArg (·.2.2.2.2.1) hfixed
  refine hd.of_told hsent hrs hshell (fun e he => hd.layers e (houtputs ▸ he)) fun h => ⟨hset ▸ h, ?_⟩
  rw [firstLayer_eq, firstLayer_eq, houtputs]
  exact fun _ => rfl

/-- After a manage sequence the first layer is the default. -/
theorem LayerKept.onManageStart (hd : d.LayerKept layerShell) (h : d.onManageStart = some d') :
    d'.LayerKept layerShell ∧ (d'.firstLayer.isSome → d'.layerDefaultSet = true) := by
  obtain ⟨routed, gs, -, -, rfl⟩ := onManageStart_eq h
  have houtputs : d.settled.tiled.ledger.outputs = d.state.ledger.outputs :=
    congrArg (·.1.outputs) (loop_keeps State.books (fun _ _ _ => State.books_refocusOutput)
      d.state.refocusAll_eq.1)
  have hfirst : ({ d with state := d.settled.tiled } : AppData).firstLayer = d.firstLayer := by
    rw [firstLayer_eq, firstLayer_eq]
    exact congrArg (fun os => (List.map OutputEntry.layer os).head?.join) houtputs
  refine ⟨⟨hd.shell, fun e he => hd.layers e (houtputs ▸ he), fun hset => ?_⟩, fun hsome => ?_⟩
  swap
  · change ({ d with state := d.settled.tiled } : AppData).firstLayer.isSome at hsome
    rw [hfirst] at hsome
    change (d.layerDefaultSet || d.firstLayer.isSome) = true
    rw [hsome, Bool.or_true]
  change defaultLayer (d.sent ++ _) = ({ d with state := d.settled.tiled } : AppData).firstLayer ∧
    ({ d with state := d.settled.tiled } : AppData).firstLayer.isSome
  rw [hfirst]
  unfold defaultLayer
  rw [hear_append]
  cases hbefore : d.layerDefaultSet with
  | true =>
    obtain ⟨htold, hsome⟩ := hd.told hbefore
    refine ⟨?_, hsome⟩
    rw [hear_of_not fun r hr hx => ?_]
    · exact htold
    · have hnone := defaults_manageRequests hr hx
      unfold layerRequests at hnone
      rw [if_pos hbefore] at hnone
      cases hnone
  | false =>
    obtain ⟨layer, hlayer⟩ := Option.isSome_iff_exists.mp
      ((Bool.or_eq_true _ _ ▸ hset).resolve_left (by simp [hbefore]))
    have hasked : d.layerRequests = [.layerSetDefault layer] := by
      unfold layerRequests
      rw [hbefore, hlayer]
      rfl
    rw [hlayer]
    refine ⟨hear_const (fun r hr hx s => ?_) (Or.inr ?_), rfl⟩
    · have hmem := defaults_manageRequests hr hx
      rw [hasked] at hmem
      rw [List.mem_singleton.mp hmem]
      rfl
    · have hmem : Request.layerSetDefault layer ∈ d.layerRequests := hasked ▸ List.mem_cons_self
      exact ⟨_, List.mem_append_left _ (layer_manageRequests hmem), rfl⟩

/-- If there are layers, an output has one. -/
theorem LayerKept.isSome_firstLayer (hd : d.LayerKept true) (houtputs : d.state.outputs ≠ []) :
    d.firstLayer.isSome := by
  obtain ⟨out, outs, hout⟩ := List.exists_cons_of_ne_nil houtputs
  have hmem : out.entry ∈ d.state.ledger.outputs :=
    List.mem_map_of_mem (hout ▸ List.mem_cons_self)
  unfold firstLayer
  rw [hout]
  exact hd.layers out.entry hmem

/-- Every handler keeps the default layer. -/
theorem LayerKept.handle (hids : (d.state.windows.map (·.id)).Nodup) (hd : d.LayerKept layerShell)
    {event : Event} (h : d.handle event = some d') : d'.LayerKept layerShell := by
  have hsends : event ≠ .manageStart →
      ∃ rs, d'.sent = d.sent ++ rs ∧ ∀ r ∈ rs, r.defaults = none := fun hevent => by
    obtain ⟨rs, hrs, hnone⟩ := unasked_handle hids hevent h
    exact ⟨rs, hrs, fun r hr => (hnone r hr).2.2⟩
  cases effect_handle hids h with
  | routine hquiet hroutine _ =>
    obtain ⟨rs, hrs, hnone⟩ := hsends (by rintro rfl; cases hquiet)
    exact hd.of_outputs hrs hnone hroutine.fixed (congrArg Ledger.outputs hroutine.state)
  | newWindow window =>
    obtain ⟨rs, hrs, hnone⟩ := hsends (by simp)
    obtain ⟨hbooks, -, hfixed⟩ := newWindow_spec d window
    exact hd.of_outputs hrs hnone hfixed (congrArg (·.1.outputs) hbooks)
  | closed _ =>
    obtain ⟨rs, hrs, hnone⟩ := hsends (by simp)
    obtain ⟨hbooks, -, hfixed⟩ := windowClosed_spec d _ _
    exact hd.of_outputs hrs hnone hfixed (congrArg (·.1.outputs) hbooks)
  | newOutput h =>
    obtain ⟨rs, hrs, hnone⟩ := hsends (by simp)
    obtain ⟨hbooks, -, hfixed⟩ := newOutput_spec h
    have houtputs : d'.state.ledger.outputs = _ := congrArg (·.1.outputs) hbooks
    have hset : d'.layerDefaultSet = d.layerDefaultSet := congrArg (·.2.2.2.2.1) hfixed
    refine hd.of_told hrs hnone (congrArg (·.2.1.2.1) hfixed) (fun e he => ?_) fun h => ⟨hset ▸ h, ?_⟩
    · rw [houtputs] at he
      rcases List.mem_append.mp he with he | he
      · exact hd.layers e he
      · rw [List.mem_singleton.mp he, newOutputEntry, hd.shell]
        cases layerShell <;> rfl
    · rw [firstLayer_eq, firstLayer_eq, houtputs]
      cases hos : d.state.ledger.outputs with
      | nil => exact fun hsome => absurd hsome Bool.false_ne_true
      | cons e es => exact fun _ => rfl
  | wlOutput output name =>
    obtain ⟨rs, hrs, hnone⟩ := hsends (by simp)
    obtain ⟨hbooks, -, hfixed⟩ := bindWlOutput_spec d output name
    have hlayers : (d.bindWlOutput output name).state.ledger.outputs.map (·.layer) =
        d.state.ledger.outputs.map (·.layer) :=
      (congrArg (·.1.outputs.map OutputEntry.layer) hbooks).trans
        (map_modifyFirst (f := fun e : OutputEntry => { e with wlOutput := some d.nextObject })
          OutputEntry.layer (fun _ => rfl) d.state.ledger.outputs)
    refine hd.of_told hrs hnone rfl (fun e he => ?_) fun h => ⟨h, fun _ => ?_⟩
    · have hmem : e.layer ∈ d.state.ledger.outputs.map (·.layer) :=
        hlayers ▸ List.mem_map_of_mem he
      obtain ⟨e', he', heq⟩ := List.mem_map.mp hmem
      exact heq ▸ hd.layers e' he'
    · rw [firstLayer_eq, firstLayer_eq, hlayers]
  | outputRemoved ho h =>
    obtain ⟨rs, hrs, hnone⟩ := hsends (by simp)
    obtain ⟨hbooks, -, hfixed⟩ := outputRemoved_spec (List.getElem?_eq_some_iff.mp ho).1 h
    have hset : d'.layerDefaultSet = false := congrArg (·.2.2.2.2.1) hfixed
    have houtputs : d'.state.ledger.outputs = _ := congrArg (·.1.outputs) hbooks
    refine hd.of_told hrs hnone (congrArg (·.2.1.2.1) hfixed) (fun e he => ?_) fun h => ?_
    · exact hd.layers e (List.mem_of_mem_eraseIdx (houtputs ▸ he))
    · rw [hset] at h
      cases h
  | newSeat seat =>
    obtain ⟨rs, hrs, hnone⟩ := hsends (by simp)
    obtain ⟨hbooks, -, hfixed⟩ := newSeat_spec d seat
    have hset : (d.newSeat seat).layerDefaultSet = d.layerDefaultSet :=
      congrArg (·.2.2.2.2.1) hfixed
    have houtputs : (d.newSeat seat).state.ledger.outputs = d.state.ledger.outputs :=
      congrArg (·.1.outputs) hbooks
    refine hd.of_told hrs hnone (congrArg (·.2.1.2.1) hfixed) (fun e he => hd.layers e (houtputs ▸ he))
      fun h => ⟨hset ▸ h, fun _ => ?_⟩
    rw [firstLayer_eq, firstLayer_eq, houtputs]
  | wlSeat seat name =>
    obtain ⟨rs, hrs, hnone⟩ := hsends (by simp)
    exact hd.of_told hrs hnone rfl hd.layers fun h => ⟨h, fun _ => rfl⟩
  | seatRemoved seat =>
    obtain ⟨rs, hrs, hnone⟩ := hsends (by simp)
    obtain ⟨hbooks, -, hfixed⟩ := seatRemoved_spec d seat
    have hset : (d.seatRemoved seat).layerDefaultSet = d.layerDefaultSet :=
      congrArg (·.2.2.2.2.1) hfixed
    have houtputs : (d.seatRemoved seat).state.ledger.outputs = d.state.ledger.outputs :=
      congrArg (·.1.outputs) hbooks
    refine hd.of_told hrs hnone (congrArg (·.2.1.2.1) hfixed) (fun e he => hd.layers e (houtputs ▸ he))
      fun h => ⟨hset ▸ h, fun _ => ?_⟩
    rw [firstLayer_eq, firstLayer_eq, houtputs]
  | manageStart h => exact (hd.onManageStart h).1
  | renderStart h =>
    obtain ⟨rs, hrs, hnone⟩ := hsends (by simp)
    obtain ⟨focused, gs, published, -, -, rfl⟩ := onRenderStart_eq hids h
    exact hd.of_told hrs hnone rfl hd.layers fun h => ⟨h, fun _ => rfl⟩

/-- What holds of the layers in every run. -/
def LayersSound (layerShell : Bool) (d : AppData) : Prop :=
  (d.state.WellFormed ∧ d.state.FreshIds) ∧ d.LayerKept layerShell

theorem layersSound_new (config : Config) (xkb layerShell cursorShapeManager : Bool) :
    (new config xkb layerShell cursorShapeManager).LayersSound layerShell :=
  ⟨⟨State.wellFormed_new _, State.freshIds_new _⟩, rfl, fun _ he => absurd he List.not_mem_nil,
    fun hset => absurd hset Bool.false_ne_true⟩

theorem LayersSound.step (hd : d.LayersSound layerShell) {event : Event}
    (h : Step d event d') : d'.LayersSound layerShell := by
  obtain ⟨⟨hwf, hids⟩, hkept⟩ := hd
  obtain ⟨hwf', hreach⟩ := Step.wellFormed hwf h
  exact ⟨⟨hwf', hids.of_reachable hwf hreach⟩, hkept.handle hids.nodup h⟩

/-- A default layer has been asked for between `d` and `d'`. -/
def asksDefault (d d' : AppData) : Bool :=
  (d'.sent.drop d.sent.length).any (·.defaults.isSome)

/-- The event takes an output away. -/
def losesOutput (d : AppData) : Event → Bool
  | .output output .removed => d.state.outputs.any (·.proxy == output)
  | _ => false

/-- After a step that asks for a default layer, one counts as asked for. -/
theorem layerDefaultSet_of_asks (hids : (d.state.windows.map (·.id)).Nodup) {event : Event}
    (h : d.handle event = some d') (hasks : asksDefault d d' = true) : d'.layerDefaultSet = true := by
  obtain ⟨r, hr, hsome⟩ := List.any_eq_true.mp hasks
  obtain ⟨_, hdefaults⟩ := Option.isSome_iff_exists.mp hsome
  by_cases hevent : event = .manageStart
  · rw [hevent] at h
    obtain ⟨routed, gs, -, -, rfl⟩ := onManageStart_eq h
    rw [List.drop_left] at hr
    have hmem := defaults_manageRequests hr hdefaults
    change (d.layerDefaultSet || d.firstLayer.isSome) = true
    cases hset : d.layerDefaultSet with
    | true => rfl
    | false =>
      cases hfirst : d.firstLayer with
      | some layer => rfl
      | none =>
        unfold layerRequests at hmem
        rw [hset, hfirst] at hmem
        cases hmem
  · obtain ⟨rs, hrs, hnone⟩ := unasked_handle hids hevent h
    rw [hrs, List.drop_left] at hr
    rw [(hnone r hr).2.2] at hdefaults
    cases hdefaults

/-- It counts as asked for as long as no output goes. -/
theorem layerDefaultSet_of_keeps (hids : (d.state.windows.map (·.id)).Nodup) {event : Event}
    (h : d.handle event = some d') (hkeeps : d.losesOutput event = false)
    (hset : d.layerDefaultSet = true) : d'.layerDefaultSet = true := by
  have hkept : d'.fixed = d.fixed → d'.layerDefaultSet = true := fun hfixed =>
    (congrArg (·.2.2.2.2.1) hfixed : d'.layerDefaultSet = d.layerDefaultSet).trans hset
  cases effect_handle hids h with
  | routine _ hroutine _ => exact hkept hroutine.fixed
  | newWindow window => exact hkept (newWindow_spec d window).2.2
  | closed _ => exact hkept (windowClosed_spec d _ _).2.2
  | newOutput h =>
    have hfixed := (newOutput_spec h).2.2
    exact (congrArg (·.2.2.2.2.1) hfixed : d'.layerDefaultSet = d.layerDefaultSet).trans hset
  | wlOutput _ _ => exact hset
  | outputRemoved ho _ =>
    exact absurd (beq_self_eq_true _) (List.any_eq_false.mp hkeeps _ (List.mem_of_getElem? ho))
  | newSeat seat =>
    have hfixed := (newSeat_spec d seat).2.2
    exact (congrArg (·.2.2.2.2.1) hfixed :
      (d.newSeat seat).layerDefaultSet = d.layerDefaultSet).trans hset
  | wlSeat _ _ => exact hset
  | seatRemoved seat =>
    have hfixed := (seatRemoved_spec d seat).2.2
    exact (congrArg (·.2.2.2.2.1) hfixed :
      (d.seatRemoved seat).layerDefaultSet = d.layerDefaultSet).trans hset
  | manageStart h =>
    obtain ⟨routed, gs, -, -, rfl⟩ := onManageStart_eq h
    change (d.layerDefaultSet || d.firstLayer.isSome) = true
    rw [hset, Bool.true_or]
  | renderStart h =>
    obtain ⟨focused, gs, published, -, -, rfl⟩ := onRenderStart_eq hids h
    exact hset

/-- In every run the default layer is that of the first output from every request for one on, as
long as no output goes, and whenever one counts as asked for; and so it is after every manage
sequence, if there are layers and an output. -/
theorem default_layer {config : Config} {xkb layerShell cursorShapeManager : Bool}
    {τs : List (Transition.Step AppData Event)}
    (h : IsRun Step (AppData.new config xkb layerShell cursorShapeManager) τs) :
    (∀ us τ vs, τs = us ++ τ :: vs → asksDefault τ.pre τ.post = true →
      (∀ ρ ∈ vs, ρ.pre.losesOutput ρ.event = false) → ∀ ρ ∈ τ :: vs,
        defaultLayer ρ.post.sent = ρ.post.firstLayer ∧ ρ.post.firstLayer.isSome) ∧
    ∀ τ ∈ τs,
      (τ.post.layerDefaultSet = true →
        defaultLayer τ.post.sent = τ.post.firstLayer ∧ τ.post.firstLayer.isSome) ∧
      (τ.event = .manageStart → layerShell = true → τ.post.state.outputs ≠ [] →
        defaultLayer τ.post.sent = τ.post.firstLayer ∧ τ.post.firstLayer.isSome) := by
  have hinv := h.invariant (fun _ _ _ hd hst => LayersSound.step hd hst)
    (layersSound_new _ _ _ _)
  refine ⟨fun us τ vs hτs hasks hkeeps ρ hρ => ?_, fun τ hτ => ?_⟩
  · subst hτs
    obtain ⟨hst, hrest⟩ := h.of_append
    obtain ⟨hpre, hpost⟩ := hinv τ (List.mem_append_right _ List.mem_cons_self)
    have hset := layerDefaultSet_of_asks hpre.1.2.nodup hst hasks
    -- from the request on, one counts as asked for
    have hsince := hrest.invariant_of_cond
      (I := fun d : AppData => d.LayersSound layerShell ∧ d.layerDefaultSet = true)
      (C := fun d event => d.losesOutput event = false)
      (fun d event d' hd hkeeps hst =>
        ⟨hd.1.step hst, layerDefaultSet_of_keeps hd.1.1.2.nodup hst hkeeps hd.2⟩)
      ⟨hpost, hset⟩ hkeeps
    rcases List.mem_cons.mp hρ with rfl | hρ
    · exact hpost.2.told hset
    · obtain ⟨-, hsound, hset⟩ := hsince ρ hρ
      exact hsound.2.told hset
  · obtain ⟨-, -, hpost⟩ := hinv τ hτ
    refine ⟨hpost.told, fun hevent hshell houtputs => hpost.told ?_⟩
    have hmanage : Step τ.pre .manageStart τ.post := hevent ▸ h.step_of_mem hτ
    subst hshell
    exact ((hinv τ hτ).1.2.onManageStart hmanage).2 (hpost.isSome_firstLayer houtputs)

/-- The first output goes, and the second one becomes the default; it stays when one more comes. -/
theorem default_layer_next : ∃ τs, IsRun Step (AppData.new .default false true false) τs ∧
    τs.map (fun τ => defaultLayer τ.post.sent) = [none, none, some 0, some 0, some 1, some 1] ∧
    τs.map (fun τ => asksDefault τ.pre τ.post) = [false, false, true, false, true, false] ∧
    τs.map (fun τ => τ.pre.losesOutput τ.event) = [false, false, false, true, false, false] ∧
    (∀ us τ vs, τs = us ++ τ :: vs → asksDefault τ.pre τ.post = true →
      (∀ ρ ∈ vs, ρ.pre.losesOutput ρ.event = false) → ∀ ρ ∈ τ :: vs,
        defaultLayer ρ.post.sent = ρ.post.firstLayer ∧ ρ.post.firstLayer.isSome) ∧
    ∀ τ ∈ τs, τ.event = .manageStart → τ.post.state.outputs ≠ [] →
      defaultLayer τ.post.sent = τ.post.firstLayer ∧ τ.post.firstLayer.isSome := by
  have hrun := isRun_trace AppData.handle [.newOutput 11, .newOutput 12, .manageStart,
    .output 11 .removed, .manageStart, .newOutput 13] (AppData.new .default false true false)
  obtain ⟨hasked, hmanage⟩ := default_layer hrun
  exact ⟨_, hrun, by decide +kernel, by decide +kernel, by decide +kernel, hasked,
    fun τ hτ hevent => (hmanage τ hτ).2 hevent rfl⟩

end AppData

end Streamwm
