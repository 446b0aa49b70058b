import Streamwm.Convergence
import Streamwm.Hub

/-!
# Every subscriber for itself

What one client sees of all the threads is the exchange of one client with the window manager, but
for the snapshots built for others (`feed_moves`). So the snapshots every client gets are in order
(`subscribers_served`), and whether one converges depends on the accesses to its own slot, whatever
the others do (`converged_apart`). The window manager publishes without waiting for any of them,
but for the single accesses they make under a mutex (`publish_waits_for_nobody`).
-/

namespace Streamwm

open Transition

variable {ι σ α : Type*}

namespace Feed

variable {f : Feed σ α}

/-- A snapshot built for others. -/
def tick (f : Feed σ α) : Feed σ α :=
  { f with clock := f.clock + 1 }

theorem edge_tick (hidle : f.wm = .idle) : f.edge ≤ f.tick.edge := by
  have hnone : f.wm.held = none := by rw [hidle]; rfl
  rw [edge_eq_clock hnone, edge_eq_clock (f := f.tick) hnone]
  exact Nat.le_succ f.clock

theorem Ordered.tick (hf : f.Ordered) (hidle : f.wm = .idle) : f.tick.Ordered where
  sorted := hf.sorted
  lt_edge snap hsnap := (hf.lt_edge snap hsnap).trans_le (edge_tick hidle)
  held_lt snap hsnap := Nat.lt_succ_of_lt (hf.held_lt snap hsnap)

theorem Fresh.tick (hf : f.Fresh) (hidle : f.wm = .idle) : f.tick.Fresh :=
  hf.of_wm (by simp [hidle]) f.state (f.clock + 1) f.wm f.request (edge_tick hidle)

end Feed

namespace HubPc

/-- The client whose slot or token is next. -/
def target : HubPc ι α → Option ι
  | .publishing _ _ (entry :: _) | .prodding _ _ entry _ => some entry.2
  | _ => none

end HubPc

namespace Hub

variable [DecidableEq ι] {build : σ → Option α} {h h' : Hub ι σ α} {access : HubAccess ι σ} {i : ι}

/-- The access stores no snapshot that client `i` is about to clear, and sends it no token that it
is about to drain. -/
def KeptFor (h : Hub ι σ α) (i : ι) : HubAccess ι σ → Prop
  | .store => h.wm.target = some i → (h.feed i).answered = false
  | .prod => h.wm.target = some i →
    (h.feed i).client.drains = false ∨ (h.feed i).box.latest = none
  | _ => True

instance (h : Hub ι σ α) (i : ι) : ∀ access : HubAccess ι σ, Decidable (h.KeptFor i access)
  | .store => inferInstanceAs (Decidable (h.wm.target = some i → (h.feed i).answered = false))
  | .prod => inferInstanceAs (Decidable (h.wm.target = some i →
      (h.feed i).client.drains = false ∨ (h.feed i).box.latest = none))
  | .change _ | .check | .build | .lock | .finish | .takeRequest | .reply | .client _ _ | .ask =>
    inferInstanceAs (Decidable True)

/-- What an access is to one client. -/
inductive SeenAs (build : σ → Option α) (h : Hub ι σ α) (i : ι) (access : HubAccess ι σ)
    (f : Feed σ α) : Prop
  | nothing : f = h.feed i → SeenAs build h i access f
  | tick : (h.feed i).wm = .idle → f = (h.feed i).tick → SeenAs build h i access f
  | wm {b : WmAccess σ} : (h.feed i).WmStep build b f →
    (h.KeptFor i access → (h.feed i).Kept (.wm b)) → SeenAs build h i access f
  | client {b : ClientAccess} : (h.feed i).ClientStep b f → SeenAs build h i access f

theorem feed_eq (hstate : h'.state = h.state) (hclock : h'.clock = h.clock)
    (hwm : h'.wm.seenBy i = h.wm.seenBy i) (hregistry : Listed i h'.registry = Listed i h.registry)
    (hrequests : h'.requests.contains (some i) = h.requests.contains (some i))
    (hline : h'.lines i = h.lines i) : h'.feed i = h.feed i := by
  unfold feed
  rw [hstate, hclock, hwm, hregistry, hrequests, hline]

/-- An access of another client. -/
theorem feed_other (hs : h.Sound) {j : ι} {access : ClientAccess} {f : Feed σ α}
    (hf : (h.feed j).ClientStep access f) (hij : i ≠ j) :
    ((h.withFeed j f).enroll j access).feed i = h.feed i := by
  have hline : (h.withFeed j f).lines i = h.lines i := lines_modifyLine_of_ne hij
  cases access with
  | register =>
    refine feed_eq rfl rfl rfl ?_ rfl ?_
    · change Listed i (h.registry ++ [(h.nextId, j)]) = _
      simp [Listed, hij.symm]
    · rw [lines_register, lines_modifyLine_of_ne hij]
      exact hline
  | unregister =>
    refine feed_eq rfl rfl rfl ?_ rfl hline
    change Listed i (h.registry.filter fun e => some e.1 ≠ ((h.withFeed j f).lines j).id) = _
    rw [id_withFeed, Bool.eq_iff_iff, listed_iff, listed_iff]
    constructor
    · rintro ⟨e, he, heq⟩
      exact ⟨e, List.mem_of_mem_filter he, heq⟩
    · rintro ⟨e, he, heq⟩
      refine ⟨e, List.mem_filter.mpr ⟨he, decide_eq_true fun hid => hij ?_⟩, heq⟩
      -- the entry of the client that goes has its id
      have hlisted : Listed j h.registry = true := by
        cases hf with
        | unregister hc => rw [hs.listed, show (h.lines j).client = .leaving from hc]; rfl
      obtain ⟨e', he', howner⟩ := listed_iff.mp hlisted
      rw [← howner, hs.owners e' he', Option.some.injEq] at hid
      rw [← heq, List.inj_on_of_nodup_map hs.ids he he' hid, howner]
  | request =>
    refine feed_eq rfl rfl rfl rfl ?_ hline
    change (h.requests ++ [some j]).contains (some i) = _
    simp [hij]
  | _ => exact feed_eq rfl rfl rfl rfl rfl hline

/-- What belongs to the client after an access of its own. -/
theorem line_enroll {f : Feed σ α} (access : ClientAccess) :
    let line := ((h.withFeed i f).enroll i access).lines i
    line.client = f.client ∧ line.reply = f.reply ∧ line.box = f.box ∧ line.written = f.written ∧
      line.published = f.published := by
  intro line
  have hline : (h.withFeed i f).lines i = { h.lines i with
      client := f.client, reply := f.reply, box := f.box, written := f.written
      published := f.published } := lines_modifyLine_self
  cases access with
  | register => simp [line, lines_register, hline]
  | _ =>
    have hsame : line = (h.withFeed i f).lines i := rfl
    simp [hsame, hline]

theorem listed_append (i : ι) (entries : List (ℕ × ι)) (n : ℕ) :
    Listed i (entries ++ [(n, i)]) = true :=
  listed_iff.mpr ⟨(n, i), List.mem_append_right _ (List.mem_singleton_self _), rfl⟩

/-- An access of the client itself. -/
theorem feed_self (hs : h.Sound) {access : ClientAccess} {f : Feed σ α}
    (hlock : access.locks = false ∨ h.wm.locked = false) (hf : (h.feed i).ClientStep access f) :
    ((h.withFeed i f).enroll i access).feed i = f := by
  obtain ⟨hclient, hreply, hbox, hwritten, hpublished⟩ := line_enroll (h := h) (i := i) (f := f) access
  have hlisted := (hs.client hlock hf).listed i
  unfold feed
  rw [hclient, hreply, hbox, hwritten, hpublished]
  cases hf with
  | register hc =>
    have hregistry : ∀ f, ((h.withFeed i f).enroll i .register).registry =
      h.registry ++ [(h.nextId, i)] := fun _ => rfl
    rw [hregistry, listed_append]
    rfl
  | request hc =>
    have hrequests : ∀ f, ((h.withFeed i f).enroll i .request).requests =
      h.requests ++ [some i] := fun _ => rfl
    rw [hrequests, List.contains_iff_mem.mpr (List.mem_append_right _ (List.mem_singleton_self _))]
    rfl
  | unregister hc =>
    rw [hlisted, hclient]
    rfl
  | _ => rfl

/-! ## What one client sees -/

theorem wm_feed (h : Hub ι σ α) (i : ι) : (h.feed i).wm = h.wm.seenBy i :=
  rfl

theorem listed_cons_self (entry : ℕ × ι) (rest : List (ℕ × ι)) :
    Listed entry.2 (entry :: rest) = true :=
  listed_iff.mpr ⟨entry, List.mem_cons_self, rfl⟩

theorem listed_cons_of_ne {entry : ℕ × ι} (hother : entry.2 ≠ i) (rest : List (ℕ × ι)) :
    Listed i (entry :: rest) = Listed i rest := by
  simp [Listed, hother]

/-- `publish` turns to a client. -/
theorem seenAs_store {snap : Snap α} {kept rest : List (ℕ × ι)} {entry : ℕ × ι}
    (hwm : h.wm = .publishing snap kept (entry :: rest)) (i : ι) :
    SeenAs build h i .store (feed { h.modifyLine entry.2 (.store snap) with
      wm := .prodding snap kept entry rest } i) := by
  rcases eq_or_ne entry.2 i with rfl | hother
  · have hstoring : (h.feed entry.2).wm = .storing snap := by
      rw [wm_feed, hwm]
      exact if_pos (listed_cons_self entry rest)
    have hfeed : feed { h.modifyLine entry.2 (.store snap) with
        wm := .prodding snap kept entry rest } entry.2 = (h.feed entry.2).store snap := by
      simp [feed, Feed.store, HubPc.seenBy, Line.store]
    rw [hfeed]
    exact .wm (.store hstoring) fun hkept => hkept (by rw [hwm]; rfl)
  · refine .nothing (feed_eq rfl rfl ?_ rfl rfl (lines_modifyLine_of_ne hother.symm))
    rw [hwm]
    simp [HubPc.seenBy, hother, listed_cons_of_ne]

theorem seenAs_prod (hs : h.Sound) {snap : Snap α} {kept rest : List (ℕ × ι)} {entry : ℕ × ι}
    (hwm : h.wm = .prodding snap kept entry rest) (i : ι) :
    SeenAs build h i .prod (feed { h.modifyLine entry.2 .prod with
      wm := .publishing snap (kept ++ [entry]) rest } i) := by
  rcases eq_or_ne entry.2 i with rfl | hother
  · have hprodding : (h.feed entry.2).wm = .prodding snap := by
      rw [wm_feed, hwm]
      exact if_pos rfl
    have hfeed : feed { h.modifyLine entry.2 .prod with
        wm := .publishing snap (kept ++ [entry]) rest } entry.2 =
          { h.feed entry.2 with wm := .idle, box := (h.feed entry.2).box.prod } := by
      simp [feed, HubPc.seenBy, Line.prod, hs.not_listed_rest hwm]
    rw [hfeed]
    exact .wm (.prod hprodding) fun hkept => hkept (by rw [hwm]; rfl)
  · refine .nothing (feed_eq rfl rfl ?_ rfl rfl (lines_modifyLine_of_ne hother.symm))
    rw [hwm]
    simp [HubPc.seenBy, hother]

/-- A status request is received. -/
theorem seenAs_takeRequest (hs : h.Sound) {asker : Option ι} {requests : List (Option ι)}
    (hwm : h.wm = .idle) (hrequests : h.requests = asker :: requests) (i : ι) :
    SeenAs build h i .takeRequest (feed { h with wm := .answering asker, requests } i) := by
  by_cases hown : asker = some i
  · subst hown
    have honce : some i ∉ requests := by
      have hcount := hs.once i
      rw [hrequests, List.count_cons_self] at hcount
      exact List.count_eq_zero.mp (Nat.le_zero.mp (Nat.le_of_succ_le_succ hcount))
    have hrequest : (h.feed i).request = true := by
      change h.requests.contains (some i) = true
      rw [hrequests]
      simp
    have hfeed : feed { h with wm := .answering (some i), requests } i =
        { h.feed i with wm := .answering, request := false } := by
      simp [feed, HubPc.seenBy, honce]
    rw [hfeed]
    exact .wm (.takeRequest (by rw [wm_feed, hwm]; rfl) hrequest) fun _ => trivial
  · refine .nothing (feed_eq rfl rfl ?_ rfl ?_ rfl)
    · rw [hwm]
      exact if_neg hown
    · rw [hrequests]
      simp [Ne.symm hown]

theorem seenAs_answer {asker : Option ι} {content : α} (hwm : h.wm = .answering asker)
    (hbuild : build h.state = some content) (i : ι) :
    SeenAs build h i .build (feed { h with
      wm := .replying asker ⟨h.clock, content⟩, clock := h.clock + 1 } i) := by
  by_cases hown : asker = some i
  · subst hown
    have hfeed : feed { h with wm := .replying (some i) ⟨h.clock, content⟩, clock := h.clock + 1 } i =
        { h.feed i with wm := .replying ⟨h.clock, content⟩, clock := h.clock + 1 } := by
      simp [feed, HubPc.seenBy]
    rw [hfeed]
    refine .wm (.answer ?_ hbuild) fun _ => trivial
    rw [wm_feed, hwm]
    exact if_pos rfl
  · have hidle : (h.feed i).wm = .idle := by
      rw [wm_feed, hwm]
      exact if_neg hown
    refine .tick hidle ?_
    rw [wm_feed, hwm] at hidle
    simp [feed, Feed.tick, HubPc.seenBy, hown, hwm]

theorem seenAs_reply {j : ι} {snap : Snap α} (hwm : h.wm = .replying (some j) snap) (i : ι) :
    SeenAs build h i .reply (feed { h.modifyLine j (.answer snap) with wm := .idle } i) := by
  rcases eq_or_ne j i with rfl | hother
  · have hreplying : (h.feed j).wm = .replying snap := by
      rw [wm_feed, hwm]
      exact if_pos rfl
    cases hask : (h.lines j).client.asking with
    | true =>
      have hfeed : feed { h.modifyLine j (.answer snap) with wm := .idle } j =
          { h.feed j with wm := .idle, reply := some snap } := by
        simp [feed, HubPc.seenBy, Line.answer, hask]
      rw [hfeed]
      exact .wm (.reply hreplying hask) fun _ => trivial
    | false =>
      have hfeed : feed { h.modifyLine j (.answer snap) with wm := .idle } j =
          { h.feed j with wm := .idle } := by
        simp [feed, HubPc.seenBy, Line.answer, hask]
      rw [hfeed]
      exact .wm (.noReply hreplying hask) fun _ => trivial
  · refine .nothing (feed_eq rfl rfl ?_ rfl rfl (lines_modifyLine_of_ne hother.symm))
    rw [hwm]
    simp [HubPc.seenBy, hother]

/-- An access is one of the exchange of client `i` with the window manager, or none of its
business. -/
theorem feed_moves (hs : h.Sound) (hm : h.Moves build access h') (i : ι) :
    SeenAs build h i access (h'.feed i) := by
  have hwm {wm : HubPc ι α} (heq : h.wm = wm) : (h.feed i).wm = wm.seenBy i := by
    rw [wm_feed, heq]
  cases hm with
  | change hidle state => exact .wm (.change (hwm hidle) state) fun _ => trivial
  | noClients _ _ => exact .nothing rfl
  | check hidle _ => exact .wm (.check (hwm hidle) true) fun _ => trivial
  | build hchecked hbuild => exact .wm (.build (hwm hchecked) hbuild) fun _ => trivial
  | @lock snap hbuilt =>
    have hfeed : feed { h with wm := .publishing snap [] h.registry } i =
        { h.feed i with wm := if Listed i h.registry then .storing snap else .idle } := rfl
    rw [hfeed]
    split_ifs
    · exact .wm (.lock (hwm hbuilt)) fun _ => trivial
    · exact .wm (.noClient (hwm hbuilt)) fun _ => trivial
  | store hstoring => exact seenAs_store hstoring i
  | prod hprodding _ => exact seenAs_prod hs hprodding i
  | prune hprodding hgone =>
    rw [hs.connected_target hprodding] at hgone
    cases hgone
  | finish hdone =>
    refine .nothing (feed_eq rfl rfl ?_ ?_ rfl rfl)
    · rw [hdone]
      rfl
    · rw [← hs.kept_eq hdone]
  | takeRequest hidle hrequests => exact seenAs_takeRequest hs hidle hrequests i
  | answer hanswering hbuild => exact seenAs_answer hanswering hbuild i
  | reply hreplying => exact seenAs_reply hreplying i
  | replyStatus hreplying =>
    refine .nothing (feed_eq rfl rfl ?_ rfl rfl rfl)
    rw [hreplying]
    simp [HubPc.seenBy]
  | @client j access f hlock hf =>
    rcases eq_or_ne i j with rfl | hij
    · exact .client ((feed_self hs hlock hf).symm ▸ hf)
    · exact .nothing (feed_other hs hf hij)
  | ask =>
    refine .nothing (feed_eq rfl rfl rfl rfl ?_ rfl)
    change (h.requests ++ [none]).contains (some i) = _
    simp

/-! ## Delivery -/

theorem SeenAs.ordered {f : Feed σ α} (hf : SeenAs build h i access f) (hord : (h.feed i).Ordered) :
    f.Ordered := by
  cases hf with
  | nothing heq => exact heq ▸ hord
  | tick hidle heq => exact heq ▸ hord.tick hidle
  | wm hstep _ => exact hord.wmStep hstep
  | client hstep => exact hord.clientStep hstep

theorem SeenAs.fresh {f : Feed σ α} (hf : SeenAs build h i access f) (hord : (h.feed i).Ordered)
    (hfresh : (h.feed i).Fresh) (hkept : h.KeptFor i access) : f.Fresh := by
  cases hf with
  | nothing heq => exact heq ▸ hfresh
  | tick hidle heq => exact heq ▸ hfresh.tick hidle
  | wm hstep hkeeps => exact hfresh.wmStep hord hstep (hkeeps hkept)
  | client hstep => exact hfresh.clientStep hstep

/-- However many clients come and go, those are registered whose threads are between `register` and
`unregister`, each once, so `publish` drops none of them; and each is sent snapshots in the
order in which they were built, none twice. -/
theorem subscribers_served {s : σ} (hreach : Reachable (Step build) (new s) h) :
    (h.registry.map (·.1)).Nodup ∧ (h.registry.map (·.2)).Nodup ∧
      ∀ i, ((∃ e ∈ h.registry, e.2 = i) ↔ (h.lines i).client.enrolled = true) ∧
        (h.lines i).written.Pairwise fun s t => s.stamp < t.stamp := by
  obtain ⟨hs, hord⟩ := hreach.invariant (I := fun h => h.Sound ∧ ∀ i, (h.feed i).Ordered)
    (fun _ _ _ hinv hstep => ⟨hinv.1.step hstep, fun i =>
      (feed_moves hinv.1 (moves_of_next hstep) i).ordered (hinv.2 i)⟩)
    ⟨sound_new s, fun _ => Feed.ordered_new s⟩
  refine ⟨hs.ids, ?_, fun i => ⟨?_, ?_⟩⟩
  · exact List.Nodup.map_on (fun e he e' he' => hs.eq_of_owner he he') hs.ids.of_map
  · rw [← hs.listed i, listed_iff]
  · exact (hord i).sorted.sublist
      ((List.prefix_append _ _).trans (Mailbox.prefix_trail _)).sublist

/-- Two clients come and the first goes again. -/
theorem subscribers_served_two : ∃ h : Hub ℕ State StatusSnapshot,
    Reachable (Step State.buildSnapshot) (new (State.new 0)) h ∧ h.registry = [(1, 5)] ∧
      (h.registry.map (·.1)).Nodup ∧ (h.registry.map (·.2)).Nodup ∧
      ∀ i, ((∃ e ∈ h.registry, e.2 = i) ↔ (h.lines i).client.enrolled = true) ∧
        (h.lines i).written.Pairwise fun s t => s.stamp < t.stamp := by
  have hreach : ∃ h : Hub ℕ State StatusSnapshot,
      Reachable (Step State.buildSnapshot) (new (State.new 0)) h ∧ h.registry = [(1, 5)] :=
    ⟨_, reachable_of_foldlM [.client 3 .register, .client 3 .request, .client 5 .register,
      .client 3 .poke, .ask, .takeRequest, .build, .reply, .client 3 .receive, .client 3 .clear,
      .client 3 .drain, .client 3 .fail, .client 3 .unregister] rfl, rfl⟩
  obtain ⟨h, hh, hregistry⟩ := hreach
  exact ⟨h, hh, hregistry, subscribers_served hh⟩

/-- Whether a client converges depends on the accesses to its own slot and channel only : if no
snapshot is stored for it after its request is answered and before its slot is cleared, and no
token sent to it while it drains, it does, whatever all the others do. -/
theorem converged_apart {s : σ} {τs : List (Transition.Step (Hub ι σ α) (HubAccess ι σ))}
    (hrun : IsRun (Step build) (new s) τs) (i : ι) (hkept : ∀ τ ∈ τs, τ.pre.KeptFor i τ.event) :
    ∀ τ ∈ τs, (τ.pre.feed i).Converged ∧ (τ.post.feed i).Converged := by
  intro τ hτ
  obtain ⟨⟨-, hord, hfresh⟩, -, hord', hfresh'⟩ := hrun.invariant_of_cond
    (I := fun h => h.Sound ∧ (h.feed i).Ordered ∧ (h.feed i).Fresh) (C := fun h a => h.KeptFor i a)
    (fun h a h' hinv hk hstep => by
      obtain ⟨hs, hord, hfresh⟩ := hinv
      have hseen := feed_moves hs (moves_of_next hstep) i
      exact ⟨hs.step hstep, hseen.ordered hord, hseen.fresh hord hfresh hk⟩)
    ⟨sound_new s, Feed.ordered_new s, Feed.fresh_new s⟩ hkept τ hτ
  exact ⟨hfresh.converged hord, hfresh'.converged hord'⟩

/-- A change is published while one client waits and another has not cleared its slot. -/
theorem converged_apart_two :
    ∃ τs : List (Transition.Step (Hub ℕ State StatusSnapshot) (HubAccess ℕ State)),
    IsRun (Step State.buildSnapshot) (new (State.new 0)) τs ∧
      (τs.getLast?.map fun τ => (τ.post.lines 0).written.map (·.content.resizeMode)) =
        some [false, true] ∧
      (τs.getLast?.map fun τ => (τ.post.feed 1).answered) = some true ∧
      ∀ τ ∈ τs, (τ.pre.feed 0).Converged ∧ (τ.post.feed 0).Converged := by
  let accesses : List (HubAccess ℕ State) := [.client 0 .register, .client 0 .request,
    .client 0 .poke, .takeRequest, .build, .reply, .client 0 .receive, .client 0 .clear,
    .client 0 .drain, .client 0 .write, .client 1 .register, .client 1 .request, .client 1 .poke,
    .takeRequest, .build, .reply, .client 1 .receive, .change (State.new 0).toggleResizeMode, .check,
    .build, .lock, .store, .prod, .store, .prod, .finish, .client 0 .recv, .client 0 .take,
    .client 0 .write]
  have hrun := isRun_trace (next State.buildSnapshot) accesses (new (State.new 0))
  exact ⟨_, hrun, rfl, rfl, converged_apart hrun 0 (by decide +kernel)⟩

/-! ## Publishing -/

/-- The accesses of `publish` for `n` entries, and those around them. -/
def publishAccesses (ι σ : Type*) (n : ℕ) : List (HubAccess ι σ) :=
  .lock :: ((List.replicate n [.store, .prod]).flatten ++ [.finish])

/-- `publish` has told these clients, and done nothing else. -/
structure Told (h : Hub ι σ α) (snap : Snap α) (entries : List (ℕ × ι)) (h' : Hub ι σ α) : Prop where
  shared : (h'.state, h'.clock, h'.nextId, h'.registry, h'.requests) =
    (h.state, h.clock, h.nextId, h.registry, h.requests)
  told : ∀ i, Listed i entries = true → h'.lines i = ((h.lines i).store snap).prod
  others : ∀ i, Listed i entries = false → h'.lines i = h.lines i

/-- The loop of `publish`. -/
theorem exists_told {snap : Snap α} : ∀ {rest kept : List (ℕ × ι)} {h : Hub ι σ α}, h.Sound →
    h.wm = .publishing snap kept rest → ∃ h',
      (List.replicate rest.length [HubAccess.store, .prod]).flatten.foldlM (next build) h = some h' ∧
        h'.wm = .publishing snap (kept ++ rest) [] ∧ Told h snap rest h'
  | [], kept, h, _, hwm =>
    ⟨h, rfl, by rw [hwm, List.append_nil], rfl, fun _ hi => (by cases hi), fun _ _ => rfl⟩
  | entry :: rest, kept, h, hs, hwm => by
    obtain ⟨h₁, hstore⟩ : ∃ h₁, h₁ = { h.modifyLine entry.2 (.store snap) with
      wm := .prodding snap kept entry rest } := ⟨_, rfl⟩
    have hstep₁ : h.Step build .store h₁ := by
      unfold Step next
      rw [hwm, hstore]
    have hs₁ := hs.step hstep₁
    have hwm₁ : h₁.wm = .prodding snap kept entry rest := by rw [hstore]
    obtain ⟨h₂, hprod⟩ : ∃ h₂, h₂ = { h₁.modifyLine entry.2 .prod with
      wm := .publishing snap (kept ++ [entry]) rest } := ⟨_, rfl⟩
    have hstep₂ : h₁.Step build .prod h₂ := by
      unfold Step next
      rw [hwm₁]
      dsimp only
      rw [if_pos (hs₁.connected_target hwm₁), hprod]
    obtain ⟨h', hrun, hwm', hshared, htold, hothers⟩ :=
      exists_told (hs₁.step hstep₂) (by rw [hprod])
    have hself : h₂.lines entry.2 = ((h.lines entry.2).store snap).prod := by
      simp [hprod, hstore]
    have hother : ∀ i, entry.2 ≠ i → h₂.lines i = h.lines i := fun i hi => by
      rw [hprod]
      refine (lines_modifyLine_of_ne hi.symm).trans ?_
      rw [hstore]
      exact lines_modifyLine_of_ne hi.symm
    refine ⟨h', ?_, ?_, ?_, fun i hi => ?_, fun i hi => ?_⟩
    · rw [List.length_cons, List.replicate_succ, List.flatten_cons, List.foldlM_append]
      simp only [List.foldlM_cons, List.foldlM_nil, Option.bind_eq_bind]
      rw [show next build h .store = some h₁ from hstep₁, Option.bind_some,
        show next build h₁ .prod = some h₂ from hstep₂, Option.bind_some]
      exact hrun
    · rw [hwm', List.append_assoc]
      rfl
    · rw [hshared, hprod, hstore]
      rfl
    · rcases eq_or_ne entry.2 i with rfl | hi'
      · rw [hothers _ (hs₁.not_listed_rest hwm₁), hself]
      · rw [htold i ((listed_cons_of_ne hi' rest).symm.trans hi), hother i hi']
    · have hi' : entry.2 ≠ i := fun heq => by
        rw [← heq, listed_cons_self] at hi
        cases hi
      rw [hothers i ((listed_cons_of_ne hi' rest).symm.trans hi), hother i hi']

/-- Publishing needs no access of any other thread : from a built snapshot the window manager's
thread performs a number of accesses fixed by the registry, and has told every client in it, and
changed nothing else. What a client does while it holds the registry's mutex or that of its slot
is a single access here, so that the wait for its end does not appear. -/
theorem publish_waits_for_nobody {s : σ} (hreach : Reachable (Step build) (new s) h) {snap : Snap α}
    (hwm : h.wm = .built snap) : ∃ h',
      (publishAccesses ι σ h.registry.length).foldlM (next build) h = some h' ∧
        h'.wm = .idle ∧ Told h snap h.registry h' := by
  have hs := sound_of_reachable hreach
  have hlock : h.Step build .lock { h with wm := .publishing snap [] h.registry } := by
    unfold Step next
    rw [hwm]
  obtain ⟨h', hrun, hwm', hshared, htold, hothers⟩ := exists_told (hs.step hlock) rfl
  refine ⟨{ h' with wm := .idle }, ?_, rfl, hshared, htold, hothers⟩
  have hregistry : h'.registry = h.registry := congrArg (·.2.2.2.1) hshared
  have hfinish : next build h' .finish = some { h' with wm := .idle } := by
    unfold next
    rw [hwm', List.nil_append, ← hregistry]
  unfold publishAccesses
  rw [List.foldlM_cons, show next build h .lock = _ from hlock, Option.bind_eq_bind, Option.bind_some,
    List.foldlM_append, hrun, Option.bind_eq_bind, Option.bind_some, List.foldlM_cons, hfinish]
  rfl

/-- Two clients are told, one of which has only registered. -/
theorem publish_waits_for_nobody_two : ∃ (h h' : Hub ℕ State StatusSnapshot)
    (snap : Snap StatusSnapshot),
    (publishAccesses ℕ State 2).foldlM (next State.buildSnapshot) h = some h' ∧
      h'.wm = .idle ∧ Told h snap h.registry h' := by
  have hreach : ∃ (h : Hub ℕ State StatusSnapshot) (snap : Snap StatusSnapshot),
      Reachable (Step State.buildSnapshot) (new (State.new 0)) h ∧ h.wm = .built snap ∧
        h.registry.length = 2 :=
    ⟨_, _, reachable_of_foldlM [.client 0 .register, .client 0 .request, .client 1 .register,
      .check, .build] rfl, rfl, rfl⟩
  obtain ⟨h, snap, hh, hwm, htwo⟩ := hreach
  obtain ⟨h', hrun, hidle, htold⟩ := publish_waits_for_nobody hh hwm
  rw [htwo] at hrun
  exact ⟨h, h', snap, hrun, hidle, htold⟩

end Hub

end Streamwm
