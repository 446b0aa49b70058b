import Mathlib.Data.List.Infix
import Streamwm.Bindings
import Streamwm.DeliveryOrder

/-!
# What the client ends up with

`Converged` says that a client blocked on its wake channel with no token pending was sent
the newest of its initial snapshot and all that were published for it. A snapshot stored
between the reply to the client's request and the clearing of the slot is discarded, and so
is the token of one that is sent while the client drains its channel; `Kept` is the
condition on an access that neither happens. `Fresh` is the invariant of the runs whose
accesses all meet it.
-/

namespace Streamwm

open Transition Mailbox

variable {σ α : Type*}

namespace ClientPc

/-- The slot is cleared. -/
def cleared : ClientPc α → Bool
  | .draining _ | .greeting _ | .waiting | .woken | .writing _ => true
  | _ => false

/-- The client discards the wake tokens. -/
def drains : ClientPc α → Bool
  | .draining _ => true
  | _ => false

end ClientPc

namespace Feed

theorem exists_of_drains {client : ClientPc α} (h : client.drains = true) :
    ∃ snap, client = .draining snap := by
  cases client <;> simp_all [ClientPc.drains]

variable {build : σ → Option α} {f f' : Feed σ α} {snap : Snap α}
  {access : ClientAccess} {wmAccess : WmAccess σ}

/-- If the client is blocked with no token pending, the last snapshot it was sent is the
newest of the initial one and all that were published, up to the one whose token is still
to be sent. -/
def Converged (f : Feed σ α) : Prop :=
  f.client = .waiting → f.box.wake = false → ∃ initial last, f.written.head? = some initial ∧
    f.written.getLast? = some last ∧ last ∈ initial :: f.published ∧
      ∀ snap ∈ initial :: f.published, snap.stamp ≤ last.stamp ∨ f.wm = .prodding snap

/-- The request of the client is answered, and the slot not yet cleared. -/
def answered (f : Feed σ α) : Bool :=
  match f.client with
  | .requested | .poked => f.reply.isSome
  | .initial _ => true
  | _ => false

/-- The access stores no snapshot that the client is about to clear, and sends no token for a
snapshot in the slot that it is about to drain. -/
def Kept (f : Feed σ α) : Access σ → Prop
  | .wm .store => f.answered = false
  | .wm .prod => f.client.drains = false ∨ f.box.latest = none
  | _ => True

instance : ∀ (f : Feed σ α) (access : Access σ), Decidable (f.Kept access)
  | f, .wm .store => inferInstanceAs (Decidable (f.answered = false))
  | f, .wm .prod => inferInstanceAs (Decidable (f.client.drains = false ∨ f.box.latest = none))
  | _, .wm (.change _) | _, .wm (.check _) | _, .wm .build | _, .wm .lock
  | _, .wm .takeRequest | _, .wm .reply | _, .client _ => inferInstanceAs (Decidable True)

/-! ## The invariant -/

/-- The client was sent a snapshot once it streams and none before, and got no reply before it
asked. -/
def Started (f : Feed σ α) : Prop :=
  match f.client with
  | .start | .registered => f.written = [] ∧ f.reply = none
  | .waiting | .woken | .writing _ => f.written ≠ []
  | .leaving | .gone => True
  | _ => f.written = []

/-- The client was sent, or holds, something as new as all that was published, up to the
snapshot whose token is still to be sent. -/
def Caught (f : Feed σ α) : Prop :=
  ∀ snap ∈ f.published, f.wm = .prodding snap ∨ ∃ t ∈ f.passed, snap.stamp ≤ t.stamp

/-- Once there is an initial snapshot, what the client gets is as new as all that was
published. -/
def Covered (f : Feed σ α) : Prop :=
  f.client.live = true → f.trail ≠ [] →
    ∀ snap ∈ f.published, ∃ t ∈ f.trail, snap.stamp ≤ t.stamp

/-- No snapshot is lost to the client. -/
structure Fresh (f : Feed σ α) : Prop where
  started : f.Started
  published_lt : ∀ snap ∈ f.published, snap.stamp < f.edge
  /-- All but the initial snapshot were published. -/
  tail_published : f.trail.tail ⊆ f.published
  covered : f.Covered
  /-- The client will look at the slot, or need not. -/
  awake : f.client.cleared = true →
    f.box.wake = true ∧ f.client.drains = false ∨ f.client = .woken ∨ f.Caught

/-- A client for which nothing waits has caught up. -/
theorem Covered.caught (hcovered : f.Covered) (hlive : f.client.live = true)
    (hne : f.passed ≠ []) (hpend : f.pending = none) : f.Caught := by
  have htrail : f.trail = f.passed := by rw [trail, hpend, trail_none]
  rw [Covered, htrail] at hcovered
  exact fun snap hsnap => Or.inr (hcovered hlive hne snap hsnap)

theorem Caught.congr (hf : f.Caught) (hwm : f'.wm = f.wm) (hpub : f'.published = f.published)
    (hpassed : f'.passed = f.passed) : f'.Caught := by
  unfold Caught
  rw [hwm, hpub, hpassed]
  exact hf

theorem Fresh.caught_of_draining (hf : f.Fresh) (hc : f.client = .draining snap) : f.Caught := by
  rcases hf.awake (by rw [hc]; rfl) with ⟨-, hdrains⟩ | hwoken | hcaught
  · simp [hc, ClientPc.drains] at hdrains
  · simp [hc] at hwoken
  · exact hcaught

/-! ## The client's thread -/

theorem Started.clientStep (hf : f.Started) (h : f.ClientStep access f') : f'.Started := by
  cases h <;> simp_all [Started]

theorem Covered.clientStep (hf : f.Covered) (h : f.ClientStep access f') : f'.Covered := by
  intro hlive
  rcases h.trail with ⟨hlive', htrail⟩ | ⟨hleft, -⟩
  · rw [htrail, h.wm.2.2]
    exact hf hlive'
  · simp [hlive] at hleft

/-- Once the client has written, it waits for a token if it has not caught up. -/
theorem Fresh.awake_of_write (hf : f.Fresh)
    (hc : f.client = .greeting snap ∨ f.client = .writing snap) :
    f.box.wake = true ∨ ({ f with
      client := .waiting, written := f.written ++ [snap] } : Feed σ α).Caught := by
  have hcleared : f.client.cleared = true := by rcases hc with hc | hc <;> rw [hc] <;> rfl
  rcases hf.awake hcleared with ⟨hwake, -⟩ | hwoken | hcaught
  · exact Or.inl hwake
  · simp [hwoken] at hc
  · refine Or.inr (hcaught.congr rfl rfl ?_)
    rcases hc with hc | hc <;> simp [passed, hc, ClientPc.held]

theorem Fresh.clientStep (hf : f.Fresh) (h : f.ClientStep access f') : f'.Fresh := by
  have hstarted := hf.started.clientStep h
  obtain ⟨hwm, hclock, hpub⟩ := h.wm
  have hcovered := hf.covered.clientStep h
  refine ⟨hstarted, ?_, ?_, hcovered, ?_⟩
  · rw [hpub, edge, hwm, hclock]
    exact hf.published_lt
  · have htail : f'.trail.tail <+: f.trail.tail := by
      simpa using List.IsPrefix.drop h.trail_prefix 1
    exact hpub ▸ List.Subset.trans htail.subset hf.tail_published
  · cases h with
    | clear hc =>
      refine fun _ => Or.inr (Or.inr (hcovered.caught rfl ?_ rfl))
      simp [passed, ClientPc.held]
    | drain hc => exact fun _ => Or.inr (Or.inr ((hf.caught_of_draining hc).congr rfl rfl rfl))
    | drained hc =>
      refine fun _ => Or.inr (Or.inr ((hf.caught_of_draining hc).congr rfl rfl ?_))
      simp [passed, hc, ClientPc.held]
    | greet hc =>
      exact fun _ => (hf.awake_of_write (Or.inl hc)).imp (fun hwake => ⟨hwake, rfl⟩) Or.inr
    | write hc =>
      exact fun _ => (hf.awake_of_write (Or.inr hc)).imp (fun hwake => ⟨hwake, rfl⟩) Or.inr
    | recv hc => exact fun _ => Or.inr (Or.inl rfl)
    | take hc hlatest =>
      refine fun _ => Or.inr (Or.inr (hcovered.caught rfl ?_ rfl))
      simp [passed, ClientPc.held]
    | nothing hc hlatest =>
      have hne : f.written ≠ [] := by simpa [Started] using hstarted
      refine fun _ => Or.inr (Or.inr (hcovered.caught rfl ?_ ?_))
      · simp [passed, ClientPc.held, hne]
      · simp [pending, hlatest]
    | _ => simp [ClientPc.cleared]

/-! ## The window manager's thread -/

/-- An access that is none of `store`, `prod` and `reply`. -/
theorem Fresh.of_wm (hf : f.Fresh) (hprod : ∀ snap, f.wm ≠ .prodding snap) (state : σ) (clock : ℕ)
    (wm : WmPc α) (request : Bool)
    (hedge : f.edge ≤ ({ f with state, clock, wm, request } : Feed σ α).edge) :
    ({ f with state, clock, wm, request } : Feed σ α).Fresh where
  started := hf.started
  published_lt snap hsnap := (hf.published_lt snap hsnap).trans_le hedge
  tail_published := hf.tail_published
  covered := hf.covered
  awake hcleared := (hf.awake hcleared).imp_right fun h => h.imp_right fun hcaught snap hsnap =>
    Or.inr ((hcaught snap hsnap).resolve_left (hprod snap))

/-- As long as the request is not answered, the client gets nothing. -/
theorem Fresh.trail_eq_nil (hf : f.Fresh) (hlive : f.client.live = true)
    (hcleared : f.client.cleared = false) (hans : f.answered = false) : f.trail = [] := by
  have hstarted := hf.started
  cases hc : f.client <;>
    simp_all [Started, answered, ClientPc.live, ClientPc.cleared, Feed.trail, passed, pending,
      ClientPc.held, Mailbox.trail]

theorem pending_of_cleared (h : f.client.cleared = true) : f.pending = f.box.latest := by
  cases hc : f.client <;> simp_all [pending, ClientPc.cleared]

theorem pending_store (h : f.client.cleared = false) : (f.store snap).pending = f.pending := by
  cases hc : f.client <;> simp_all [pending, store, ClientPc.cleared]

theorem trail_store (h : f.client.cleared = false) : (f.store snap).trail = f.trail := by
  rw [trail, trail, pending_store h]
  rfl

theorem Fresh.store (hf : f.Fresh) (hord : f.Ordered) (hwm : f.wm = .storing snap)
    (hans : f.answered = false) : (f.store snap).Fresh := by
  have hheld : f.wm.held = some snap := by rw [hwm]; rfl
  have hle : ∀ t ∈ f.published ++ [snap], t.stamp ≤ snap.stamp := fun t ht => by
    rcases List.mem_append.mp ht with ht | ht
    · exact (edge_eq hheld ▸ hf.published_lt t ht).le
    · rw [List.mem_singleton.mp ht]
  have hlt : ∀ t ∈ f.published ++ [snap], t.stamp < f.clock := fun t ht =>
    (hle t ht).trans_lt (hord.held_lt snap hheld)
  cases hcleared : f.client.cleared with
  | false =>
    have htrail : (f.store snap).trail = f.trail := trail_store hcleared
    refine ⟨hf.started, hlt, ?_, fun hlive hne => ?_, fun h => ?_⟩
    · rw [htrail]
      exact List.subset_append_of_subset_left _ hf.tail_published
    · exact absurd (htrail.trans (hf.trail_eq_nil hlive hcleared hans)) hne
    · simp [Feed.store, hcleared] at h
  | true =>
    have htrail : (f.store snap).trail = Mailbox.trail f.passed (some snap) := by
      rw [trail, pending_of_cleared (f := f.store snap) hcleared]
      rfl
    refine ⟨hf.started, hlt, fun t ht => ?_, fun _ _ t ht => ?_, fun _ => ?_⟩
    · rcases mem_tail_trail_some (htrail ▸ ht) f.pending with ht | rfl
      · exact List.mem_append_left _ (hf.tail_published ht)
      · exact List.mem_append_right _ (List.mem_singleton_self t)
    · rw [htrail]
      exact ⟨snap, by simp [trail_some], hle t ht⟩
    · refine (hf.awake hcleared).imp_right fun h => h.imp_right fun hcaught t ht => ?_
      rcases List.mem_append.mp ht with ht | ht
      · exact Or.inr ((hcaught t ht).resolve_left (by simp [hwm]))
      · rw [List.mem_singleton.mp ht]
        exact Or.inl rfl

theorem Fresh.reply (hf : f.Fresh) (hord : f.Ordered) (hwm : f.wm = .replying snap)
    (hask : f.client.asking = true) :
    ({ f with wm := .idle, reply := some snap } : Feed σ α).Fresh := by
  have hheld : f.wm.held = some snap := by rw [hwm]; rfl
  have htrail : ({ f with wm := .idle, reply := some snap } : Feed σ α).trail = [snap] := by
    have hstarted := hf.started
    cases hc : f.client <;>
      simp_all [Started, ClientPc.asking, Feed.trail, passed, pending, ClientPc.held, Mailbox.trail]
  have hlt : ∀ t ∈ f.published, t.stamp < snap.stamp := fun t ht =>
    edge_eq hheld ▸ hf.published_lt t ht
  refine ⟨?_, fun t ht => (hlt t ht).trans (hord.held_lt snap hheld), ?_, fun _ _ t ht => ?_,
    fun hcleared => ?_⟩
  · have hstarted := hf.started
    cases hc : f.client <;> simp_all [Started, ClientPc.asking]
  · simp [htrail]
  · rw [htrail]
    exact ⟨snap, by simp, (hlt t ht).le⟩
  · cases hc : f.client <;> simp_all [ClientPc.asking, ClientPc.cleared]

theorem Fresh.prod (hf : f.Fresh) (hwm : f.wm = .prodding snap)
    (hkept : f.client.drains = false ∨ f.box.latest = none) :
    ({ f with wm := .idle, box := f.box.prod } : Feed σ α).Fresh where
  started := hf.started
  published_lt := by
    have hedge : ({ f with wm := .idle, box := f.box.prod } : Feed σ α).edge = f.edge := by
      rw [edge_eq_clock (f := f) (by rw [hwm]; rfl)]
      rfl
    exact hedge ▸ hf.published_lt
  tail_published := hf.tail_published
  covered := hf.covered
  awake hcleared := by
    rcases Bool.eq_false_or_eq_true f.client.drains with hdrains | hdrains
    · have hpend : ({ f with wm := .idle, box := f.box.prod } : Feed σ α).pending = none :=
        (pending_of_cleared hcleared).trans (hkept.resolve_left (by simp [hdrains]))
      obtain ⟨t, hc⟩ := exists_of_drains hdrains
      have hcovered : ({ f with wm := .idle, box := f.box.prod } : Feed σ α).Covered := hf.covered
      exact Or.inr (Or.inr (hcovered.caught (by rw [hc]; rfl)
        (by simp [passed, hc, ClientPc.held]) hpend))
    · exact Or.inl ⟨rfl, hdrains⟩

theorem Fresh.wmStep (hf : f.Fresh) (hord : f.Ordered) (h : f.WmStep build wmAccess f')
    (hkept : f.Kept (.wm wmAccess)) : f'.Fresh := by
  have hedge := (h.edge hord.held_lt).1
  cases h with
  | store hwm => exact hf.store hord hwm hkept
  | prod hwm => exact hf.prod hwm hkept
  | reply hwm hask => exact hf.reply hord hwm hask
  | _ => exact hf.of_wm (by simp_all) _ _ _ _ hedge

theorem fresh_new (s : σ) : (new s : Feed σ α).Fresh where
  started := ⟨rfl, rfl⟩
  published_lt := by simp [new]
  tail_published := by simp [trail, passed, pending, new, ClientPc.held, Mailbox.trail]
  covered _ _ _ h := by simp [new] at h
  awake h := by simp [new, ClientPc.cleared] at h

theorem Fresh.step {access : Access σ} (hf : f.Ordered ∧ f.Fresh) (hkept : f.Kept access)
    (h : f.Step build access f') : f'.Ordered ∧ f'.Fresh := by
  refine ⟨hf.1.step h, ?_⟩
  cases access with
  | wm access => exact hf.2.wmStep hf.1 (wmStep_of_next h) hkept
  | client access => exact hf.2.clientStep (clientStep_of_next h)

/-! ## Convergence -/

theorem not_converged {last : Snap α} (hc : f.client = .waiting) (hwake : f.box.wake = false)
    (hidle : f.wm = .idle) (hlast : f.written.getLast? = some last) (hsnap : snap ∈ f.published)
    (hlt : last.stamp < snap.stamp) : ¬f.Converged := fun h => by
  obtain ⟨initial, last', -, hlast', -, hle⟩ := h hc hwake
  obtain rfl := Option.some.inj (hlast.symm.trans hlast')
  rcases hle snap (List.mem_cons_of_mem _ hsnap) with hle | hprod
  · omega
  · simp [hidle] at hprod

theorem Fresh.converged (hord : f.Ordered) (hf : f.Fresh) : f.Converged := by
  intro hc hwake
  have hpassed : f.passed = f.written := by simp [passed, hc, ClientPc.held]
  have hcaught : f.Caught := by
    rcases hf.awake (by rw [hc]; rfl) with ⟨hwake', -⟩ | hwoken | hcaught
    · simp [hwake] at hwake'
    · simp [hc] at hwoken
    · exact hcaught
  have hne : f.written ≠ [] := by simpa [Started, hc] using hf.started
  have hsorted : f.written.Pairwise fun s t => s.stamp < t.stamp :=
    hord.sorted.sublist ((hpassed ▸ prefix_trail f.pending : f.written <+: f.trail)).sublist
  have hlast : ∀ t ∈ f.written, t.stamp ≤ (f.written.getLast hne).stamp := fun t ht =>
    (hsorted.imp le_of_lt).rel_getLast_of_rel_getLast_getLast ht le_rfl
  obtain ⟨initial, rest, hw⟩ := List.exists_cons_of_ne_nil hne
  have htail : rest ⊆ f.trail.tail := by
    rw [trail, hpassed, hw]
    exact (prefix_trail f.pending).subset
  have hsub : f.written ⊆ initial :: f.published := by
    rw [hw]
    exact List.cons_subset_cons initial (List.Subset.trans htail hf.tail_published)
  refine ⟨initial, f.written.getLast hne, by rw [hw]; rfl, List.getLast?_eq_some_getLast hne,
    hsub (List.getLast_mem hne), fun t ht => ?_⟩
  rcases List.mem_cons.mp ht with rfl | ht
  · exact Or.inl (hlast t (hw ▸ List.mem_cons_self))
  · refine (hcaught t ht).symm.imp_left ?_
    rintro ⟨t', ht', hle⟩
    exact hle.trans (hlast t' (hpassed ▸ ht'))

variable (build) in
/-- The two threads can go on, without a further publish, until the client is blocked although a
newer snapshot was published than it was sent. -/
def Stale (f : Feed σ α) : Prop :=
  ∃ g, Reachable (Step build) f g ∧ g.published = f.published ∧ g.wm = .idle ∧ ¬g.Converged

/-- An access that publishes nothing leads there. -/
theorem Stale.of_step {access : Access σ} (h : f.Step build access f')
    (hpublished : f'.published = f.published) (hstale : f'.Stale build) : f.Stale build := by
  obtain ⟨g, hg, hsame, hidle, hstale⟩ := hstale
  exact ⟨g, (Reachable.refl.tail h).trans hg, hsame.trans hpublished, hidle, hstale⟩

variable (build) in
/-- The token of a snapshot in the slot is sent while the client drains its channel : it is
left with the older one it holds. -/
theorem exists_stale_of_draining {last : Snap α} (hc : f.client = .draining last)
    (hidle : f.wm = .idle) (hwake : f.box.wake = true) (hsnap : snap ∈ f.published)
    (hlt : last.stamp < snap.stamp) : f.Stale build := by
  obtain ⟨state, clock, wm, client, registered, request, reply, ⟨latest, wake⟩, written,
    published⟩ := f
  subst hc hidle hwake
  refine ⟨_, reachable_of_foldlM [.client .drain, .client .drain, .client .write] rfl, ?_⟩
  exact ⟨rfl, rfl, not_converged rfl rfl rfl List.getLast?_concat hsnap hlt⟩

variable (build) in
/-- A snapshot is stored after the client's request is answered : the client clears it. -/
theorem exists_stale_of_initial {last : Snap α} (hc : f.client = .initial last)
    (hwm : f.wm = .prodding snap) (hsnap : snap ∈ f.published) (hlt : last.stamp < snap.stamp) :
    f.Stale build := by
  have hprod : f.Step build (.wm .prod) { f with wm := .idle, box := f.box.prod } := by
    simp [Step, next, wmNext, hwm]
  have hclear : ({ f with wm := .idle, box := f.box.prod } : Feed σ α).Step build (.client .clear)
      { f with wm := .idle, client := .draining last, box := f.box.prod.clear } := by
    simp [Step, next, clientNext, hc]
  have hstale := exists_stale_of_draining build
    (f := { f with wm := .idle, client := .draining last, box := f.box.prod.clear })
    rfl rfl rfl hsnap hlt
  exact (hstale.of_step hclear rfl).of_step hprod rfl

variable (build) in
theorem exists_stale_of_poked {last : Snap α} (hc : f.client = .poked)
    (hreply : f.reply = some last) (hwm : f.wm = .prodding snap) (hsnap : snap ∈ f.published)
    (hlt : last.stamp < snap.stamp) : f.Stale build := by
  have hreceive :
      f.Step build (.client .receive) { f with client := .initial last, reply := none } := by
    simp [Step, next, clientNext, hc, hreply]
  have hstale := exists_stale_of_initial build
    (f := { f with client := .initial last, reply := none }) rfl hwm hsnap hlt
  exact hstale.of_step hreceive rfl

variable (build) in
theorem exists_stale_of_answered (hans : f.answered = true)
    (hlast : ∀ t ∈ f.trail, t.stamp < snap.stamp) (hwm : f.wm = .prodding snap)
    (hsnap : snap ∈ f.published) : f.Stale build := by
  cases hc : f.client with
  | initial last =>
    refine exists_stale_of_initial build hc hwm hsnap (hlast last ?_)
    simp [Feed.trail, Mailbox.trail, passed, hc, ClientPc.held]
  | poked =>
    simp only [answered, hc, Option.isSome_iff_exists] at hans
    obtain ⟨last, hreply⟩ := hans
    refine exists_stale_of_poked build hc hreply hwm hsnap (hlast last ?_)
    simp [Feed.trail, Mailbox.trail, pending, hc, hreply]
  | requested =>
    simp only [answered, hc, Option.isSome_iff_exists] at hans
    obtain ⟨last, hreply⟩ := hans
    have hpoke : f.Step build (.client .poke) { f with client := .poked } := by
      simp [Step, next, clientNext, hc]
    have hstale := exists_stale_of_poked build
      (f := { f with client := .poked }) rfl hreply hwm hsnap (hlast last (by
        simp [Feed.trail, Mailbox.trail, pending, hc, hreply]))
    exact hstale.of_step hpoke rfl
  | _ => simp [answered, hc] at hans

/-- An access that is not kept can leave the client with an older snapshot, without a further
publish. -/
theorem exists_stale_of_not_kept {access : Access σ} (hord : f.Ordered) (hf : f.Fresh)
    (h : f.Step build access f') (hlost : ¬f.Kept access) : f'.Stale build := by
  cases access with
  | client access => exact absurd trivial hlost
  | wm access =>
    cases wmStep_of_next h with
    | @store snap hwm =>
      have hans : f.answered = true := by simpa [Kept] using hlost
      have hcleared : f.client.cleared = false := by
        cases hc : f.client <;> simp_all [answered, ClientPc.cleared]
      have htrail : (f.store snap).trail = f.trail := trail_store hcleared
      refine exists_stale_of_answered build hans (fun t ht => ?_) rfl
        (List.mem_append_right _ (List.mem_singleton_self snap))
      exact edge_eq (by rw [hwm]; rfl) ▸ hord.lt_edge t (htrail ▸ ht)
    | @prod snap hwm =>
      obtain ⟨hdrains, hlatest⟩ : f.client.drains = true ∧ f.box.latest ≠ none := by
        simpa [Kept] using hlost
      obtain ⟨last, hc⟩ := exists_of_drains hdrains
      obtain ⟨x, hx⟩ := Option.ne_none_iff_exists'.mp hlatest
      have htrail : f.trail = f.written ++ [last] ++ [x] := by
        simp [Feed.trail, Mailbox.trail, passed, pending, hc, hx, ClientPc.held]
      have hmem : x ∈ f.published := by
        have hstarted : f.written = [] := by simpa [Started, hc] using hf.started
        exact hf.tail_published (by simp [htrail, hstarted])
      have hlt : last.stamp < x.stamp :=
        (List.pairwise_append.mp (htrail ▸ hord.sorted)).2.2 last (by simp) x (by simp)
      exact exists_stale_of_draining build hc rfl rfl hmem hlt
    | _ => exact absurd trivial hlost

/-- In a run in which no snapshot is stored after the client's request is answered and before
its slot is cleared, and no token sent while it drains, the client converges : whenever it is
blocked with no token pending, it was sent the newest snapshot. -/
theorem converged_of_kept {s : σ} {τs : List (Transition.Step (Feed σ α) (Access σ))}
    (h : IsRun (Step build) (new s) τs) (hkept : ∀ τ ∈ τs, τ.pre.Kept τ.event) :
    ∀ τ ∈ τs, τ.pre.Converged ∧ τ.post.Converged := fun τ hτ => by
  have hinv := h.invariant_of_cond (I := fun f => f.Ordered ∧ f.Fresh)
    (fun _ _ _ hf hkept hstep => Fresh.step hf hkept hstep) ⟨ordered_new s, fresh_new s⟩ hkept τ hτ
  exact ⟨hinv.1.2.converged hinv.1.1, hinv.2.2.converged hinv.2.1⟩

/-- The window manager publishes a change while the client waits for one. -/
theorem converged_publish :
    ∃ τs : List (Transition.Step (Feed State StatusSnapshot) (Access State)),
    IsRun (Step State.buildSnapshot) (new (State.new 0)) τs ∧
      (τs.getLast?.map fun τ => τ.post.written.map (·.content.resizeMode)) = some [false, true] ∧
      ∀ τ ∈ τs, τ.pre.Converged ∧ τ.post.Converged := by
  have hrun := isRun_trace (next State.buildSnapshot) [.client .register, .client .request,
    .client .poke, .wm .takeRequest, .wm .build, .wm .reply, .client .receive, .client .clear,
    .client .drain, .client .write, .wm (.change (State.new 0).toggleResizeMode),
    .wm (.check false), .wm .build, .wm .lock, .wm .store, .wm .prod, .client .recv,
    .client .take, .client .write] (new (State.new 0))
  exact ⟨_, hrun, rfl, converged_of_kept hrun (by decide)⟩

/-- The window manager enters resize mode and publishes that before the client has received
the reply to its request : the client shows the old mode, and nothing wakes it. -/
theorem exists_not_converged : ∃ f : Feed State StatusSnapshot,
    Reachable (Step State.buildSnapshot) (new (State.new 0)) f ∧
      (f.wm = .idle ∧ f.client = .waiting ∧ f.box.wake = false ∧ f.box.latest = none) ∧
      f.state.resizeMode = true ∧
      f.written = [⟨0, { focusedOutput := none, resizeMode := false, outputs := [] }⟩] ∧
      f.published = [⟨1, { focusedOutput := none, resizeMode := true, outputs := [] }⟩] ∧
      ¬f.Converged := by
  refine ⟨_, reachable_of_foldlM [.client .register, .client .request, .client .poke,
    .wm .takeRequest, .wm .build, .wm .reply, .wm (.change (State.new 0).toggleResizeMode),
    .wm (.check false), .wm .build, .wm .lock, .wm .store, .wm .prod, .client .receive,
    .client .clear, .client .drain, .client .drain, .client .write] rfl, ?_⟩
  refine ⟨⟨rfl, rfl, rfl, rfl⟩, rfl, rfl, rfl, not_converged rfl rfl rfl rfl
    (List.mem_singleton_self _) ?_⟩
  exact Nat.zero_lt_one

end Feed

end Streamwm
