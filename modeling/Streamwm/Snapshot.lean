import Streamwm.Status
import Streamwm.Op

/-!
# What a snapshot contains

When the indices in a state are in range (`InRange`, part of being well formed)
`buildSnapshot` does not panic (`buildSnapshot_spec`). Output `i` of the snapshot lists the
windows whose tag `i` owns, in their order; the bits of its masks are the tag it shows, the
tags it owns and those of them with windows. So the outputs of a snapshot share no tag and
no window (`buildSnapshot_partition`).
-/

namespace Streamwm

open Partial

namespace State

variable {s : State} {i j n k t u : ℕ} {snaps : List OutputSnap} {w : Window} {o : OutputSnap}

/-! ## The loops -/

theorem testBit_one_shiftLeft : (1 <<< t).testBit u = true ↔ u = t := by
  rw [Nat.one_shiftLeft, Nat.testBit_two_pow]
  simp [eq_comm]

theorem updateSnap_eq {f : OutputSnap → OutputSnap} (h : i < snaps.length) :
    ∃ snaps', updateSnap snaps i f = some snaps' ∧ snaps'.length = snaps.length ∧
      ∀ j, snaps'[j]? = (snaps[j]?).map fun o => if i = j then f o else o := by
  refine ⟨_, by simp only [updateSnap, List.getElem?_eq_getElem h]; rfl, by simp, fun j => ?_⟩
  rcases eq_or_ne i j with rfl | hij
  · simp [h]
  · simp [List.getElem?_set_ne hij, hij]

theorem ownTag_spec (tag : Tag) (hk : k < 32) (hn : snaps.length = n) :
    ∃ snaps', ownTag n tag k snaps = some snaps' ∧ snaps'.length = n ∧ ∀ j o, snaps[j]? = some o →
      ∃ mask, snaps'[j]? = some { o with ownedMask := mask } ∧ ∀ u, mask.testBit u = true ↔
        o.ownedMask.testBit u = true ∨ u = k ∧ tag.output = some j := by
  unfold ownTag
  cases htag : tag.output with
  | none => exact ⟨snaps, rfl, hn, fun j o ho => ⟨o.ownedMask, ho, by simp⟩⟩
  | some owner =>
    dsimp only
    split_ifs with hlt
    · obtain ⟨snaps', h', hlen, hget⟩ := updateSnap_eq
        (f := fun o => { o with ownedMask := o.ownedMask ||| 1 <<< k }) (hn.symm ▸ hlt)
      refine ⟨snaps', by simp [shl1_eq hk, h'], hlen.trans hn, fun j o ho => ?_⟩
      rw [hget, ho, Option.map_some]
      rcases eq_or_ne owner j with rfl | hne
      · refine ⟨_, by rw [if_pos rfl], fun u => ?_⟩
        rw [Nat.testBit_or, Bool.or_eq_true, testBit_one_shiftLeft]
        simp
      · exact ⟨o.ownedMask, by rw [if_neg hne], fun u => by simp [hne]⟩
    · refine ⟨snaps, rfl, hn, fun j o ho => ⟨o.ownedMask, ho, fun u => ?_⟩⟩
      have hj : owner ≠ j := by
        rintro rfl
        exact hlt (hn ▸ (List.getElem?_eq_some_iff.mp ho).1)
      simp [hj]

/-- The loop over the tags sets the bits of the tags an output owns. -/
theorem ownedMasks_spec : ∀ (ts : List Tag) (k : ℕ) (snaps : List OutputSnap),
    k + ts.length ≤ 32 → snaps.length = n → ∃ snaps', ownedMasks n ts k snaps = some snaps' ∧
      snaps'.length = n ∧ ∀ j o, snaps[j]? = some o →
        ∃ mask, snaps'[j]? = some { o with ownedMask := mask } ∧ ∀ u, mask.testBit u = true ↔
          o.ownedMask.testBit u = true ∨ ∃ m, u = k + m ∧ ts[m]?.bind (·.output) = some j
  | [], k, snaps, _, hn => ⟨snaps, rfl, hn, fun j o ho => ⟨o.ownedMask, ho, by simp⟩⟩
  | tag :: ts, k, snaps, hk, hn => by
    simp only [List.length_cons] at hk
    obtain ⟨snaps₁, h₁, hlen₁, hget₁⟩ := ownTag_spec tag (show k < 32 by omega) hn
    obtain ⟨snaps', h', hlen', hget'⟩ := ownedMasks_spec ts (k + 1) snaps₁ (by omega) hlen₁
    refine ⟨snaps', by simp [ownedMasks, h₁, h'], hlen', fun j o ho => ?_⟩
    obtain ⟨mask₁, hm₁, hbit₁⟩ := hget₁ j o ho
    obtain ⟨mask, hm, hbit⟩ := hget' j _ hm₁
    refine ⟨mask, hm, fun u => ?_⟩
    rw [hbit, hbit₁, or_assoc]
    refine or_congr_right ⟨?_, ?_⟩
    · rintro (⟨rfl, hout⟩ | ⟨m, rfl, hout⟩)
      · exact ⟨0, rfl, hout⟩
      · exact ⟨m + 1, by omega, hout⟩
    · rintro ⟨m, rfl, hout⟩
      cases m with
      | zero => exact Or.inl ⟨rfl, hout⟩
      | succ m => exact Or.inr ⟨m, by omega, hout⟩

/-- The window as a snapshot lists it. -/
def snapOf (w : Window) : WindowSnap :=
  { id := w.id, appId := w.appId, title := w.title, tag := w.tag }

/-- The windows whose tag output `i` owns. -/
def ownedBy (s : State) (i : ℕ) (w : Window) : Bool :=
  s.tagOwner w.tag == some i

theorem addWindow_spec (hw : w.tag < 32) (hn : snaps.length = n) :
    ∃ snaps', s.addWindow n w snaps = some snaps' ∧ snaps'.length = n ∧ ∀ j o, snaps[j]? = some o →
      ∃ mask, snaps'[j]? = some { o with
          occupiedMask := mask, windows := o.windows ++ ([w].filter (s.ownedBy j)).map snapOf } ∧
        ∀ u, mask.testBit u = true ↔
          o.occupiedMask.testBit u = true ∨ u = w.tag ∧ s.tagOwner w.tag = some j := by
  have hskip : ∀ j (o : OutputSnap), s.tagOwner w.tag ≠ some j → snaps[j]? = some o →
      ∃ mask, snaps[j]? = some { o with
          occupiedMask := mask, windows := o.windows ++ ([w].filter (s.ownedBy j)).map snapOf } ∧
        ∀ u, mask.testBit u = true ↔
          o.occupiedMask.testBit u = true ∨ u = w.tag ∧
            s.tagOwner w.tag = some j := fun j o hne ho =>
    ⟨o.occupiedMask, by simpa [ownedBy, hne] using ho, by simp [hne]⟩
  unfold addWindow
  cases howner : s.tagOwner w.tag with
  | none => exact ⟨snaps, rfl, hn, fun j o => howner ▸ hskip j o (by simp [howner])⟩
  | some owner =>
    dsimp only
    split_ifs with hlt
    · obtain ⟨snaps', h', hlen, hget⟩ := updateSnap_eq (f := fun o =>
        { o with
          occupiedMask := o.occupiedMask ||| 1 <<< w.tag, windows := o.windows ++ [snapOf w] })
        (hn.symm ▸ hlt)
      refine ⟨snaps', by simpa [shl1_eq hw, snapOf] using h', hlen.trans hn, fun j o ho => ?_⟩
      rcases eq_or_ne owner j with rfl | hne
      · refine ⟨o.occupiedMask ||| 1 <<< w.tag, by simp [hget, ho, ownedBy, howner], fun u => ?_⟩
        rw [Nat.testBit_or, Bool.or_eq_true, testBit_one_shiftLeft]
        simp
      · rw [hget, ho, Option.map_some, if_neg hne, ← ho, ← howner]
        exact hskip j o (by simpa [howner] using hne) ho
    · refine ⟨snaps, rfl, hn, fun j o ho => howner ▸ hskip j o ?_ ho⟩
      rintro h
      obtain rfl := Option.some.inj (howner.symm.trans h)
      exact hlt (hn ▸ (List.getElem?_eq_some_iff.mp ho).1)

/-- The loop over the windows lists each at the output that owns its tag. -/
theorem windowSnaps_spec : ∀ (ws : List Window) (snaps : List OutputSnap),
    (∀ w ∈ ws, w.tag < 32) → snaps.length = n → ∃ snaps', s.windowSnaps n ws snaps = some snaps' ∧
      snaps'.length = n ∧ ∀ j o, snaps[j]? = some o →
        ∃ mask, snaps'[j]? = some { o with
            occupiedMask := mask, windows := o.windows ++ (ws.filter (s.ownedBy j)).map snapOf } ∧
          ∀ u, mask.testBit u = true ↔ o.occupiedMask.testBit u = true ∨
            ∃ w ∈ ws, u = w.tag ∧ s.tagOwner w.tag = some j
  | [], snaps, _, hn => ⟨snaps, rfl, hn, fun j o ho => ⟨o.occupiedMask, by simpa using ho, by simp⟩⟩
  | w :: ws, snaps, hw, hn => by
    obtain ⟨snaps₁, h₁, hlen₁, hget₁⟩ := addWindow_spec (s := s) (hw w List.mem_cons_self) hn
    obtain ⟨snaps', h', hlen', hget'⟩ := windowSnaps_spec ws snaps₁
      (fun v hv => hw v (List.mem_cons_of_mem _ hv)) hlen₁
    refine ⟨snaps', by simp [windowSnaps, h₁, h'], hlen', fun j o ho => ?_⟩
    obtain ⟨mask₁, hm₁, hbit₁⟩ := hget₁ j o ho
    obtain ⟨mask, hm, hbit⟩ := hget' j _ hm₁
    refine ⟨mask, ?_, fun u => ?_⟩
    · rw [hm, List.append_assoc, ← List.map_append, ← List.filter_append]
      rfl
    · rw [hbit, hbit₁, or_assoc]
      simp

/-! ## The snapshot -/

/-- There are nine tags, and every index of a tag or an output is in range. -/
structure InRange (s : State) : Prop where
  tags : s.tags.length = numTags
  owner : ∀ t i, s.tagOwner t = some i → i < s.outputs.length
  window : ∀ w ∈ s.windows, w.tag < numTags
  active : ∀ i t, s.shown i = some t → t < numTags
  focused : ∀ i, s.focusedOutput = some i → i < s.outputs.length

theorem WellFormed.inRange (hs : s.WellFormed) : s.InRange :=
  ⟨hs.tags, hs.owner, hs.window, hs.active, hs.focused⟩

theorem InRange.exists_activeOutput (hs : s.InRange) (hne : s.outputs ≠ []) :
    ∃ i, s.activeOutput = some i ∧ i < s.outputs.length := by
  unfold activeOutput
  cases hf : s.focusedOutput with
  | some i => exact ⟨i, rfl, hs.focused i hf⟩
  | none => exact ⟨0, by simp [hne], List.length_pos_of_ne_nil hne⟩

/-- What the snapshot says about output `i`. -/
structure Snaps (s : State) (i : ℕ) (snap : OutputSnap) : Prop where
  active : ∀ t, snap.activeMask.testBit t = true ↔ s.shown i = some t
  owned : ∀ t, snap.ownedMask.testBit t = true ↔ s.tagOwner t = some i
  occupied : ∀ t, snap.occupiedMask.testBit t = true ↔ s.tagOwner t = some i ∧ s.Occupied t
  windows : snap.windows = (s.windows.filter (s.ownedBy i)).map snapOf
  focusedWindow : s.outputs[i]?.map (·.focusedWindow) = some snap.focusedWindow
  focused : snap.focused = decide (s.activeOutput = some i)

theorem outputSnap_spec (hs : s.InRange) (hi : i < s.outputs.length) :
    ∃ snap, s.outputSnap i = some snap ∧ snap.ownedMask = 0 ∧ snap.occupiedMask = 0 ∧
      snap.windows = [] ∧ (∀ t, snap.activeMask.testBit t = true ↔ s.shown i = some t) ∧
      s.outputs[i]?.map (·.focusedWindow) = some snap.focusedWindow ∧
      snap.focused = decide (s.activeOutput = some i) ∧
      s.outputs[i]?.map (fun out => out.name.getD ("output-" ++ toString i)) = some snap.name := by
  have hout := List.getElem?_eq_getElem hi
  have hact : s.outputs[i].activeTag < 32 := by
    have hlt := hs.active i _ (Normalizing.shown_eq hout)
    unfold numTags at hlt
    omega
  refine ⟨_, by
    simp only [outputSnap, hout, Option.bind_eq_bind, Option.bind_some, shl1_eq hact]; rfl,
    rfl, rfl, rfl, fun t => ?_, by rw [hout]; rfl, rfl, by rw [hout]; rfl⟩
  rw [testBit_one_shiftLeft, Normalizing.shown_eq hout, Option.some.injEq, eq_comm]

/-- A snapshot can be built; its entries are those made before the masks and the windows
are known, with these filled in. -/
theorem buildSnapshot_eq (hs : s.InRange) : ∃ (snaps : List OutputSnap) (snap : StatusSnapshot),
    s.buildSnapshot = some snap ∧ snaps.length = s.outputs.length ∧
      snap.outputs.length = s.outputs.length ∧
      snap.focusedOutput = (snaps.find? (·.focused)).map (·.name) ∧
      ∀ i < s.outputs.length, ∃ o₀ o, snaps[i]? = some o₀ ∧ s.outputSnap i = some o₀ ∧
        snap.outputs[i]? = some o ∧ o.name = o₀.name ∧ s.Snaps i o := by
  have htags : s.tags.length ≤ 32 := by
    rw [hs.tags]
    decide
  have hwindow : ∀ w ∈ s.windows, w.tag < 32 := fun w hw => (hs.window w hw).trans (by decide)
  obtain ⟨snaps₀, h₀, hlen₀, hget₀⟩ := exists_mapM_range (f := s.outputSnap) (n := s.outputs.length)
    fun i hi => (outputSnap_spec hs hi).imp fun _ h => h.1
  obtain ⟨snaps₁, h₁, hlen₁, hget₁⟩ := ownedMasks_spec s.tags 0 snaps₀ (by simpa using htags) hlen₀
  obtain ⟨snaps₂, h₂, hlen₂, hget₂⟩ := windowSnaps_spec (s := s) s.windows snaps₁ hwindow hlen₁
  refine ⟨snaps₀, _, by
    simp only [buildSnapshot, h₀, Option.bind_eq_bind, Option.bind_some, h₁, h₂]; rfl,
    hlen₀, hlen₂, rfl, fun i hi => ?_⟩
  obtain ⟨snap, hsnap, hown, hocc, hwin, hact, hfoc, hseat, -⟩ := outputSnap_spec hs hi
  have hfirst : snaps₀[i]? = some snap := (hget₀ i hi).trans hsnap
  obtain ⟨mask₁, hm₁, hbit₁⟩ := hget₁ i snap hfirst
  obtain ⟨mask₂, hm₂, hbit₂⟩ := hget₂ i _ hm₁
  refine ⟨snap, _, hfirst, hsnap, hm₂, rfl, hact, fun t => ?_, fun t => ?_, by simp [hwin], hfoc,
    hseat⟩
  · change mask₁.testBit t = true ↔ _
    rw [hbit₁, hown]
    simp [tagOwner]
  · change mask₂.testBit t = true ↔ _
    rw [hbit₂, hocc]
    constructor
    · rintro (h | ⟨w, hw, rfl, howner⟩)
      · simp at h
      · exact ⟨howner, w, hw, rfl⟩
    · rintro ⟨howner, w, hw, rfl⟩
      exact Or.inr ⟨w, hw, rfl, howner⟩

/-- The snapshot says of every output what the state says. -/
theorem buildSnapshot_spec (hs : s.InRange) : ∃ snap, s.buildSnapshot = some snap ∧
    snap.outputs.length = s.outputs.length ∧
      ∀ i < s.outputs.length, ∃ o, snap.outputs[i]? = some o ∧ s.Snaps i o := by
  obtain ⟨snaps, snap, hsnap, -, hlen, -, hall⟩ := buildSnapshot_eq hs
  refine ⟨snap, hsnap, hlen, fun i hi => ?_⟩
  obtain ⟨o₀, o, -, -, ho, -, hsnaps⟩ := hall i hi
  exact ⟨o, ho, hsnaps⟩

/-! ## Outputs share nothing -/

/-- A tag with windows counts only for its owner. -/
theorem Snaps.occupied_and_owned {o : OutputSnap} (h : s.Snaps i o) :
    o.occupiedMask &&& o.ownedMask = o.occupiedMask := by
  refine Nat.eq_of_testBit_eq fun t => ?_
  rw [Nat.testBit_and, Bool.and_eq_left_iff_imp, h.owned]
  exact fun hocc => ((h.occupied t).mp hocc).1

/-- A tag has one owner. -/
theorem Snaps.owned_and_owned {o o' : OutputSnap} (h : s.Snaps i o) (h' : s.Snaps j o')
    (hne : i ≠ j) : o.ownedMask &&& o'.ownedMask = 0 := by
  refine Nat.eq_of_testBit_eq fun t => ?_
  rw [Nat.testBit_and, Nat.zero_testBit, Bool.and_eq_false_imp, Bool.eq_false_iff, Ne, h.owned,
    h'.owned]
  exact fun hi hj => hne (Option.some.inj (hi.symm.trans hj))

/-- Picking the entries with key `0`, then those with key `1` and so on picks an entry at
most once. -/
theorem perm_flatMap_filter {α : Type*} (key : α → Option ℕ) (l : List α) : ∀ n : ℕ,
    ((List.range n).flatMap fun i => l.filter fun a => key a == some i).Perm
      (l.filter fun a => (key a).any (· < n))
  | 0 => by simp
  | n + 1 => by
    have hsplit := List.filter_append_perm (fun a => (key a).any (· < n))
      (l.filter fun a => (key a).any (· < n + 1))
    rw [List.filter_filter, List.filter_filter] at hsplit
    rw [List.range_succ, List.flatMap_append, List.flatMap_singleton]
    refine ((perm_flatMap_filter key l n).append_right _).trans
      ((List.Perm.of_eq ?_).trans hsplit)
    congr 1
    all_goals
      refine List.filter_congr fun a _ => ?_
      cases key a with
      | none => rfl
      | some k =>
        rw [Bool.eq_iff_iff]
        simp
        omega

theorem flatMap_outputs {snap : StatusSnapshot} (hlen : snap.outputs.length = n)
    {g : ℕ → List WindowSnap} (h : ∀ i o, snap.outputs[i]? = some o → o.windows = g i) :
    snap.outputs.flatMap (·.windows) = (List.range n).flatMap g := by
  have hmap : snap.outputs.map (·.windows) = (List.range n).map g := by
    refine List.ext_getElem (by simp [hlen]) fun i hi hi' => ?_
    rw [List.getElem_map, List.getElem_map, List.getElem_range]
    exact h i _ (List.getElem?_eq_getElem (by simpa using hi))
  rw [List.flatMap, List.flatMap, hmap]

/-- No window is listed twice. -/
theorem subperm_windows {snap : StatusSnapshot} (hlen : snap.outputs.length = n)
    (h : ∀ i o, snap.outputs[i]? = some o → s.Snaps i o) :
    (snap.outputs.flatMap (·.windows)).Subperm (s.windows.map snapOf) := by
  rw [flatMap_outputs hlen fun i o ho => (h i o ho).windows, ← List.map_flatMap]
  have hperm := perm_flatMap_filter (fun w : Window => s.tagOwner w.tag) s.windows n
  exact (hperm.map _).subperm.trans (List.filter_sublist.map _).subperm

/-- The one entry marked as focused is that of the active output. -/
theorem find?_focused (hs : s.InRange) (hlen : snaps.length = s.outputs.length)
    (hget : ∀ i < s.outputs.length, snaps[i]? = s.outputSnap i) {a : ℕ}
    (ha : s.activeOutput = some a) (hlt : a < s.outputs.length) :
    snaps.find? (·.focused) = s.outputSnap a := by
  have hfocused : ∀ i < s.outputs.length, ∀ o, snaps[i]? = some o →
      (o.focused = true ↔ i = a) := by
    intro i hi o ho
    obtain ⟨o', ho', -, -, -, -, -, hfoc, -⟩ := outputSnap_spec hs hi
    obtain rfl := Option.some.inj (ho.symm.trans ((hget i hi).trans ho'))
    rw [hfoc, decide_eq_true_iff, ha, Option.some.injEq, eq_comm]
  have hentry : snaps[a]? = some snaps[a] := List.getElem?_eq_getElem (hlen ▸ hlt)
  rw [← hget a hlt]
  cases hfind : snaps.find? (·.focused) with
  | none =>
    have hnot := List.find?_eq_none.mp hfind _ (List.mem_of_getElem? hentry)
    exact absurd ((hfocused a hlt _ hentry).mpr rfl) hnot
  | some o =>
    obtain ⟨i, ho⟩ := List.mem_iff_getElem?.mp (List.mem_of_find?_eq_some hfind)
    have hi : i < s.outputs.length := hlen ▸ (List.getElem?_eq_some_iff.mp ho).1
    rw [← ho, (hfocused i hi o ho).mp (List.find?_some hfind)]

/-- A snapshot has one entry for each output, in order : its masks are the tags it owns and
those of them with windows, its windows those on these tags. Outputs share no tag and no
window, and one of them is focused. -/
theorem buildSnapshot_partition (hs : s.InRange) : ∃ snap : StatusSnapshot,
    s.buildSnapshot = some snap ∧ snap.outputs.length = s.outputs.length ∧
    (∀ i out (o : OutputSnap), s.outputs[i]? = some out → snap.outputs[i]? = some o →
      o.name = out.name.getD ("output-" ++ toString i) ∧
      (∀ t, o.ownedMask.testBit t = true ↔ s.tagOwner t = some i) ∧
      (∀ t, o.occupiedMask.testBit t = true ↔
        s.tagOwner t = some i ∧ ∃ w ∈ s.windows, w.tag = t) ∧
      o.windows = (s.windows.filter (s.ownedBy i)).map snapOf ∧
      o.occupiedMask &&& o.ownedMask = o.occupiedMask) ∧
    (∀ (i j : ℕ) (o o' : OutputSnap), i ≠ j → snap.outputs[i]? = some o → snap.outputs[j]? = some o' →
      o.ownedMask &&& o'.ownedMask = 0) ∧
    (snap.outputs.flatMap (·.windows)).Subperm (s.windows.map snapOf) ∧
    (s.outputs ≠ [] → ∃ i, ∃ o : OutputSnap, snap.outputs[i]? = some o ∧ o.focused = true ∧
      (∀ (j : ℕ) (o' : OutputSnap), snap.outputs[j]? = some o' → o'.focused = true → j = i) ∧
      snap.focusedOutput = some o.name) := by
  obtain ⟨snaps, snap, hsnap, hlen₀, hlen, hfocused, hall⟩ := buildSnapshot_eq hs
  have hentry : ∀ i o, snap.outputs[i]? = some o →
      ∃ o₀, s.outputSnap i = some o₀ ∧ o.name = o₀.name ∧ s.Snaps i o := by
    intro i o ho
    obtain ⟨o₀, o', -, ho₀, ho', hname, hsnaps⟩ :=
      hall i (hlen ▸ (List.getElem?_eq_some_iff.mp ho).1)
    obtain rfl := Option.some.inj (ho.symm.trans ho')
    exact ⟨o₀, ho₀, hname, hsnaps⟩
  refine ⟨snap, hsnap, hlen, fun i out o hout ho => ?_, fun i j o o' hne ho ho' => ?_, ?_,
    fun hne => ?_⟩
  · obtain ⟨o₀, ho₀, hname, hsnaps⟩ := hentry i o ho
    obtain ⟨o', ho', -, -, -, -, -, -, hname'⟩ :=
      outputSnap_spec hs (List.getElem?_eq_some_iff.mp hout).1
    obtain rfl := Option.some.inj (ho₀.symm.trans ho')
    refine ⟨hname.trans ?_, hsnaps.owned, hsnaps.occupied, hsnaps.windows, ?_⟩
    · rw [hout] at hname'
      exact (Option.some.inj hname').symm
    · exact hsnaps.occupied_and_owned
  · obtain ⟨-, -, -, hsnaps⟩ := hentry i o ho
    obtain ⟨-, -, -, hsnaps'⟩ := hentry j o' ho'
    exact hsnaps.owned_and_owned hsnaps' hne
  · refine subperm_windows hlen fun i o ho => ?_
    obtain ⟨-, -, -, hsnaps⟩ := hentry i o ho
    exact hsnaps
  · obtain ⟨a, ha, hlt⟩ := hs.exists_activeOutput hne
    obtain ⟨o₀, o, -, ho₀, ho, hname, hsnaps⟩ := hall a hlt
    refine ⟨a, o, ho, by rw [hsnaps.focused, ha]; simp, fun j o' ho' hfoc => ?_, ?_⟩
    · obtain ⟨-, -, -, hsnaps'⟩ := hentry j o' ho'
      rw [hsnaps'.focused, decide_eq_true_iff, ha, Option.some.injEq] at hfoc
      exact hfoc.symm
    · have hget : ∀ i < s.outputs.length, snaps[i]? = s.outputSnap i := by
        intro i hi
        obtain ⟨o₁, -, h, h', -⟩ := hall i hi
        exact h.trans h'.symm
      rw [hfocused, find?_focused hs hlen₀ hget ha hlt, ho₀, hname]
      rfl

/-- Two outputs show a tag each, and the only window is on that of the second. -/
theorem buildSnapshot_partition_two : ∃ (s : State) (snap : StatusSnapshot) (o : OutputSnap),
    s.outputs.length = 2 ∧ s.buildSnapshot = some snap ∧ snap.outputs[1]? = some o ∧
      o.ownedMask.testBit 1 = true ∧ o.occupiedMask.testBit 1 = true ∧
      o.windows = s.windows.map snapOf := by
  let s₀ : State := ((State.new (11 / 20)).setTagOutput 0 0).setTagOutput 1 1
  let s : State := { s₀ with
    outputs := [Output.new 1, { Output.new 2 with activeTag := 1 }]
    windows := [Window.new 1 3 1], focusedOutput := some 0 }
  have hs : s.InRange := by
    refine ⟨rfl, fun t i h => ?_, by decide, fun i t h => ?_, fun i h => ?_⟩
    · change s₀.tagOwner t = some i at h
      rw [tagOwner_setTagOutput (by decide), tagOwner_setTagOutput (by decide)] at h
      change i < 2
      split_ifs at h
      · simp at h
        omega
      · simp at h
        omega
      · exact absurd ((wellFormed_new _).owner t i h) (Nat.not_lt_zero i)
    · match i, h with
      | 0, h => exact Option.some.inj h ▸ (by decide)
      | 1, h => exact Option.some.inj h ▸ (by decide)
    · exact Option.some.inj h ▸ (by decide)
  obtain ⟨snap, hsnap, hlen, hall, -⟩ := buildSnapshot_partition hs
  have ho := List.getElem?_eq_getElem (show 1 < snap.outputs.length by rw [hlen]; decide)
  obtain ⟨-, hown, hocc, hwin, -⟩ := hall 1 _ _ rfl ho
  exact ⟨s, snap, _, rfl, hsnap, ho, (hown 1).mpr rfl,
    (hocc 1).mpr ⟨rfl, _, List.mem_cons_self, rfl⟩, hwin⟩

end State

end Streamwm
