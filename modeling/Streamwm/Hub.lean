import Mathlib.Data.List.Nodup
import Mathlib.Logic.Function.Basic
import Streamwm.DeliveryOrder

/-!
# All subscribers

`Subscribers` of `src/status.rs` with any number of clients, each with a thread of its own. `publish`
holds the registry while it goes through the entries; for each it writes the slot, sends the
token and keeps the entry unless the receiver is gone. Status requests are answered in the order
they are sent, those of `get_status` among them.

Every client is in the registry exactly while its thread is between `register` and `unregister`,
under an id of its own (`Sound`); so `publish` drops nobody. What one client sees of all this is
its `feed`.
-/

namespace Streamwm

open Transition

variable {ι σ α : Type*}

/-- Where the window manager's thread is. -/
inductive HubPc (ι α : Type*)
  | idle
  | checked
  | built (snap : Snap α)
  /-- `publish` holds the registry and has gone through the entries `kept`. -/
  | publishing (snap : Snap α) (kept rest : List (ℕ × ι))
  /-- `publish` has written the slot of an entry and is about to send its token. -/
  | prodding (snap : Snap α) (kept : List (ℕ × ι)) (entry : ℕ × ι) (rest : List (ℕ × ι))
  /-- A status request was received, of a subscriber or another client. -/
  | answering (asker : Option ι)
  | replying (asker : Option ι) (snap : Snap α)

/-- A client's thread and what it shares with the window manager's. -/
structure Line (α : Type*) where
  /-- The id it was registered with. -/
  id : Option ℕ
  client : ClientPc α
  reply : Option (Snap α)
  box : Mailbox (Snap α)
  written : List (Snap α)
  published : List (Snap α)

def Line.new : Line α :=
  { id := none, client := .start, reply := none, box := .empty, written := [], published := [] }

namespace Line

/-- The slot is written. -/
def store (snap : Snap α) (line : Line α) : Line α :=
  { line with box := line.box.store snap, published := line.published ++ [snap] }

/-- The token is sent. -/
def prod (line : Line α) : Line α :=
  { line with box := line.box.prod }

/-- The status request is answered; the send fails when the client has given up. -/
def answer (snap : Snap α) (line : Line α) : Line α :=
  { line with reply := if line.client.asking then some snap else line.reply }

end Line

/-- The accesses of all threads. -/
inductive HubAccess (ι σ : Type*)
  -- the window manager's thread
  | change (state : σ)
  | check
  | build
  | lock
  | store
  | prod
  /-- The end of `publish`. -/
  | finish
  | takeRequest
  | reply
  -- the clients
  | client (i : ι) (access : ClientAccess)
  /-- A client sends `get_status`. -/
  | ask

namespace ClientPc

/-- The thread is between `register` and `unregister`. -/
def enrolled : ClientPc α → Bool
  | .start | .gone => false
  | _ => true

/-- The thread has sent its status request. -/
def hasAsked : ClientPc α → Bool
  | .start | .registered => false
  | _ => true

end ClientPc

/-- All threads and what they share. -/
structure Hub (ι σ α : Type*) where
  state : σ
  clock : ℕ
  wm : HubPc ι α
  nextId : ℕ
  /-- The ids and clients that are registered. -/
  registry : List (ℕ × ι)
  /-- The status requests that wait to be received. -/
  requests : List (Option ι)
  lines : ι → Line α

/-- The access waits for the registry. -/
def ClientAccess.locks : ClientAccess → Bool
  | .register | .unregister => true
  | _ => false

namespace HubPc

/-- `publish` has the registry locked. -/
def locked : HubPc ι α → Bool
  | .publishing _ _ _ | .prodding _ _ _ _ => true
  | _ => false

end HubPc

namespace HubPc

/-- The entries `publish` goes through. -/
def entries : HubPc ι α → Option (List (ℕ × ι))
  | .publishing _ kept rest => some (kept ++ rest)
  | .prodding _ kept entry rest => some (kept ++ entry :: rest)
  | _ => none

end HubPc

/-- The client is in the list of entries. -/
def Listed [DecidableEq ι] (i : ι) (entries : List (ℕ × ι)) : Bool :=
  entries.any fun e => e.2 = i

namespace HubPc

variable [DecidableEq ι]

/-- What the window manager's thread does about one client. -/
def seenBy (i : ι) : HubPc ι α → WmPc α
  | .idle => .idle
  | .checked => .checked
  | .built snap => .built snap
  | .publishing snap _ rest => if Listed i rest then .storing snap else .idle
  | .prodding snap _ entry rest =>
    if entry.2 = i then .prodding snap else if Listed i rest then .storing snap else .idle
  | .answering asker => if asker = some i then .answering else .idle
  | .replying asker snap => if asker = some i then .replying snap else .idle

end HubPc

namespace Hub

variable [DecidableEq ι]

/-- Nobody has connected. -/
def new (state : σ) : Hub ι σ α :=
  { state, clock := 0, wm := .idle, nextId := 0, registry := [], requests := [],
    lines := fun _ => .new }

variable (build : σ → Option α) (h : Hub ι σ α)

/-- What one client sees. -/
def feed (i : ι) : Feed σ α :=
  { state := h.state, clock := h.clock, wm := h.wm.seenBy i, client := (h.lines i).client
    registered := Listed i h.registry, request := h.requests.contains (some i)
    reply := (h.lines i).reply, box := (h.lines i).box, written := (h.lines i).written
    published := (h.lines i).published }

/-- An update of what belongs to one client. -/
def modifyLine (i : ι) (f : Line α → Line α) : Hub ι σ α :=
  { h with lines := Function.update h.lines i (f (h.lines i)) }

/-- What a client's thread did to what belongs to it. -/
def withFeed (i : ι) (f : Feed σ α) : Hub ι σ α :=
  h.modifyLine i fun line => { line with
    client := f.client, reply := f.reply, box := f.box, written := f.written
    published := f.published }

/-- What an access of a client's thread does to the registry and the requests. -/
def enroll (i : ι) : ClientAccess → Hub ι σ α
  | .register =>
    { h.modifyLine i fun line => { line with id := some h.nextId } with
      registry := h.registry ++ [(h.nextId, i)], nextId := h.nextId + 1 }
  | .request => { h with requests := h.requests ++ [some i] }
  | .unregister =>
    { h with registry := h.registry.filter fun e => some e.1 ≠ (h.lines i).id }
  | _ => h

/-- An access of a client's thread. -/
def clientNext (i : ι) (access : ClientAccess) : Option (Hub ι σ α) :=
  if access.locks && h.wm.locked then none
  else ((h.feed i).clientNext access).map fun f => (h.withFeed i f).enroll i access

/-- The receiver of the tokens exists until the thread of the client ends. -/
def connected (i : ι) : Bool :=
  match (h.lines i).client with
  | .gone => false
  | _ => true

/-- One access. -/
def next (access : HubAccess ι σ) : Option (Hub ι σ α) :=
  match access, h.wm with
  | .client i access, _ => h.clientNext i access
  | .ask, _ => some { h with requests := h.requests ++ [none] }
  | .change state, .idle => some { h with state }
  | .check, .idle => some (if h.registry.isEmpty then h else { h with wm := .checked })
  | .build, .checked =>
    (build h.state).map fun content =>
      { h with wm := .built ⟨h.clock, content⟩, clock := h.clock + 1 }
  | .lock, .built snap => some { h with wm := .publishing snap [] h.registry }
  | .store, .publishing snap kept (entry :: rest) =>
    some { h.modifyLine entry.2 (.store snap) with
      wm := .prodding snap kept entry rest }
  | .prod, .prodding snap kept entry rest =>
    if h.connected entry.2 then
      some { h.modifyLine entry.2 .prod with
        wm := .publishing snap (kept ++ [entry]) rest }
    else some { h with wm := .publishing snap kept rest }
  | .finish, .publishing _ kept [] => some { h with wm := .idle, registry := kept }
  | .takeRequest, .idle =>
    match h.requests with
    | [] => none
    | asker :: requests => some { h with wm := .answering asker, requests }
  | .build, .answering asker =>
    (build h.state).map fun content =>
      { h with wm := .replying asker ⟨h.clock, content⟩, clock := h.clock + 1 }
  | .reply, .replying (some i) snap => some { h.modifyLine i (.answer snap) with wm := .idle }
  | .reply, .replying none _ => some { h with wm := .idle }
  | _, _ => none

/-- One access as a relation. -/
def Step (access : HubAccess ι σ) (h' : Hub ι σ α) : Prop :=
  h.next build access = some h'

/-! ## What an access does -/

/-- The accesses, case by case. -/
inductive Moves : HubAccess ι σ → Hub ι σ α → Prop
  | change (hwm : h.wm = .idle) (state : σ) : Moves (.change state) { h with state }
  | noClients (hwm : h.wm = .idle) (hnone : h.registry = []) : Moves .check h
  | check (hwm : h.wm = .idle) (hsome : h.registry ≠ []) : Moves .check { h with wm := .checked }
  | build {content : α} (hwm : h.wm = .checked) (hbuild : build h.state = some content) :
    Moves .build { h with wm := .built ⟨h.clock, content⟩, clock := h.clock + 1 }
  | lock {snap : Snap α} (hwm : h.wm = .built snap) :
    Moves .lock { h with wm := .publishing snap [] h.registry }
  | store {snap : Snap α} {kept rest : List (ℕ × ι)} {entry : ℕ × ι}
    (hwm : h.wm = .publishing snap kept (entry :: rest)) :
    Moves .store { h.modifyLine entry.2 (.store snap) with
      wm := .prodding snap kept entry rest }
  | prod {snap : Snap α} {kept rest : List (ℕ × ι)} {entry : ℕ × ι}
    (hwm : h.wm = .prodding snap kept entry rest) (hthere : h.connected entry.2 = true) :
    Moves .prod { h.modifyLine entry.2 .prod with
      wm := .publishing snap (kept ++ [entry]) rest }
  | prune {snap : Snap α} {kept rest : List (ℕ × ι)} {entry : ℕ × ι}
    (hwm : h.wm = .prodding snap kept entry rest) (hgone : h.connected entry.2 = false) :
    Moves .prod { h with wm := .publishing snap kept rest }
  | finish {snap : Snap α} {kept : List (ℕ × ι)} (hwm : h.wm = .publishing snap kept []) :
    Moves .finish { h with wm := .idle, registry := kept }
  | takeRequest {asker : Option ι} {requests : List (Option ι)} (hwm : h.wm = .idle)
    (hrequests : h.requests = asker :: requests) :
    Moves .takeRequest { h with wm := .answering asker, requests }
  | answer {asker : Option ι} {content : α} (hwm : h.wm = .answering asker)
    (hbuild : build h.state = some content) :
    Moves .build { h with wm := .replying asker ⟨h.clock, content⟩, clock := h.clock + 1 }
  | reply {i : ι} {snap : Snap α} (hwm : h.wm = .replying (some i) snap) :
    Moves .reply { h.modifyLine i (.answer snap) with wm := .idle }
  | replyStatus {snap : Snap α} (hwm : h.wm = .replying none snap) :
    Moves .reply { h with wm := .idle }
  | client {i : ι} {access : ClientAccess} {f : Feed σ α}
    (hlock : access.locks = false ∨ h.wm.locked = false)
    (hf : (h.feed i).ClientStep access f) :
    Moves (.client i access) ((h.withFeed i f).enroll i access)
  | ask : Moves .ask { h with requests := h.requests ++ [none] }

variable {build h} {h' : Hub ι σ α} {access : HubAccess ι σ}

theorem moves_of_next (hstep : h.next build access = some h') : h.Moves build access h' := by
  unfold next at hstep
  split at hstep
  · unfold clientNext at hstep
    split_ifs at hstep with hlock
    obtain ⟨f, hf, rfl⟩ := Option.map_eq_some_iff.mp hstep
    rw [Bool.and_eq_true, not_and_or, Bool.not_eq_true, Bool.not_eq_true] at hlock
    exact .client hlock (Feed.clientStep_of_next hf)
  · obtain rfl := Option.some.inj hstep
    exact .ask
  · obtain rfl := Option.some.inj hstep
    exact .change ‹_› _
  · obtain rfl := Option.some.inj hstep
    split_ifs with hnone
    · exact .noClients ‹_› (List.isEmpty_iff.mp hnone)
    · exact .check ‹_› (fun hnil => hnone (List.isEmpty_iff.mpr hnil))
  · obtain ⟨content, hbuild, rfl⟩ := Option.map_eq_some_iff.mp hstep
    exact .build ‹_› hbuild
  · obtain rfl := Option.some.inj hstep
    exact .lock ‹_›
  · obtain rfl := Option.some.inj hstep
    exact .store ‹_›
  · split_ifs at hstep with hthere
    · obtain rfl := Option.some.inj hstep
      exact .prod ‹_› hthere
    · obtain rfl := Option.some.inj hstep
      exact .prune ‹_› (Bool.not_eq_true _ ▸ hthere)
  · obtain rfl := Option.some.inj hstep
    exact .finish ‹_›
  · split at hstep
    · cases hstep
    · obtain rfl := Option.some.inj hstep
      exact .takeRequest ‹_› ‹_›
  · obtain ⟨content, hbuild, rfl⟩ := Option.map_eq_some_iff.mp hstep
    exact .answer ‹_› hbuild
  · obtain rfl := Option.some.inj hstep
    exact .reply ‹_›
  · obtain rfl := Option.some.inj hstep
    exact .replyStatus ‹_›
  · cases hstep

/-! ## The registry -/

section

variable {i : ι} {f : Line α → Line α}

@[simp] theorem state_modifyLine : (h.modifyLine i f).state = h.state := rfl
@[simp] theorem clock_modifyLine : (h.modifyLine i f).clock = h.clock := rfl
@[simp] theorem wm_modifyLine : (h.modifyLine i f).wm = h.wm := rfl
@[simp] theorem registry_modifyLine : (h.modifyLine i f).registry = h.registry := rfl
@[simp] theorem requests_modifyLine : (h.modifyLine i f).requests = h.requests := rfl

end

@[simp] theorem lines_modifyLine_self {i : ι} {f : Line α → Line α} :
    (h.modifyLine i f).lines i = f (h.lines i) :=
  Function.update_self ..

theorem lines_modifyLine_of_ne {i j : ι} {f : Line α → Line α} (hij : j ≠ i) :
    (h.modifyLine i f).lines j = h.lines j :=
  Function.update_of_ne hij ..

/-- An update keeps what it keeps of the client it is for. -/
theorem lines_modifyLine {β : Type*} (g : Line α → β) {i : ι} {f : Line α → Line α}
    (hf : g (f (h.lines i)) = g (h.lines i)) (j : ι) :
    g ((h.modifyLine i f).lines j) = g (h.lines j) := by
  rcases eq_or_ne j i with rfl | hij
  · rw [lines_modifyLine_self, hf]
  · rw [lines_modifyLine_of_ne hij]

theorem lines_register (i : ι) : (h.enroll i .register).lines =
    (h.modifyLine i fun line => { line with id := some h.nextId }).lines :=
  rfl

/-- What the registry and the requests say. -/
structure Sound (h : Hub ι σ α) : Prop where
  ids : (h.registry.map (·.1)).Nodup
  fresh : ∀ e ∈ h.registry, e.1 < h.nextId
  owners : ∀ e ∈ h.registry, (h.lines e.2).id = some e.1
  /-- Those are registered whose threads are between `register` and `unregister`. -/
  listed : ∀ i, Listed i h.registry = (h.lines i).client.enrolled
  /-- `publish` goes through the registry as it is. -/
  visiting : ∀ es ∈ h.wm.entries, es = h.registry
  asked : ∀ i, some i ∈ h.requests → (h.lines i).client.hasAsked = true
  once : ∀ i, h.requests.count (some i) ≤ 1

theorem sound_new (s : σ) : (new s : Hub ι σ α).Sound where
  ids := List.nodup_nil
  fresh _ he := absurd he List.not_mem_nil
  owners _ he := absurd he List.not_mem_nil
  listed _ := rfl
  visiting _ hes := absurd hes (Option.not_mem_none _)
  asked _ hi := absurd hi List.not_mem_nil
  once _ := Nat.zero_le 1

theorem listed_iff {i : ι} {es : List (ℕ × ι)} : Listed i es = true ↔ ∃ e ∈ es, e.2 = i := by
  simp [Listed]

/-- A client is registered once. -/
theorem Sound.eq_of_owner (hs : h.Sound) {e e' : ℕ × ι} (he : e ∈ h.registry)
    (he' : e' ∈ h.registry) (howner : e.2 = e'.2) : e = e' := by
  have hid := hs.owners e he
  rw [howner, hs.owners e' he'] at hid
  exact Prod.ext (Option.some.inj hid).symm howner

theorem Sound.connected (hs : h.Sound) {e : ℕ × ι} (he : e ∈ h.registry) :
    h.connected e.2 = true := by
  have henrolled := (hs.listed e.2).symm.trans (listed_iff.mpr ⟨e, he, rfl⟩)
  unfold Hub.connected
  cases hpc : (h.lines e.2).client <;> first | rfl | simp [hpc, ClientPc.enrolled] at henrolled

section

variable {snap : Snap α} {kept rest : List (ℕ × ι)} {entry : ℕ × ι}

/-- `publish` finds the receiver of every client it tells. -/
theorem Sound.connected_target (hs : h.Sound) (hwm : h.wm = .prodding snap kept entry rest) :
    h.connected entry.2 = true := by
  refine hs.connected ?_
  rw [← hs.visiting (kept ++ entry :: rest) (by rw [hwm]; rfl)]
  exact List.mem_append_right _ List.mem_cons_self

/-- At its end `publish` has kept the whole registry. -/
theorem Sound.kept_eq (hs : h.Sound) (hwm : h.wm = .publishing snap kept []) :
    kept = h.registry := by
  have hentries := hs.visiting (kept ++ []) (by rw [hwm]; rfl)
  rwa [List.append_nil] at hentries

/-- The entries `publish` still has to tell are others. -/
theorem Sound.not_listed_rest (hs : h.Sound) (hwm : h.wm = .prodding snap kept entry rest) :
    Listed entry.2 rest = false := by
  have hreg := hs.visiting (kept ++ entry :: rest) (by rw [hwm]; rfl)
  rw [Bool.eq_false_iff]
  intro hlisted
  obtain ⟨e, he, howner⟩ := listed_iff.mp hlisted
  have hmem : e ∈ h.registry := hreg ▸ List.mem_append_right _ (List.mem_cons_of_mem _ he)
  have hentry : entry ∈ h.registry := hreg ▸ List.mem_append_right _ List.mem_cons_self
  have hids := hs.ids
  rw [← hreg, List.map_append, List.map_cons] at hids
  have hnot := (List.nodup_cons.mp (List.nodup_append.mp hids).2.1).1
  exact hnot (hs.eq_of_owner hmem hentry howner ▸ List.mem_map_of_mem he)

end

/-- Accesses that leave the registry, the requests and the program counters of the clients alone
keep all this. -/
theorem Sound.congr (hs : h.Sound) (hregistry : h'.registry = h.registry)
    (hnext : h'.nextId = h.nextId) (hrequests : ∀ i, h'.requests.count (some i) ≤ h.requests.count (some i))
    (hlines : ∀ i, (h'.lines i).id = (h.lines i).id ∧ (h'.lines i).client = (h.lines i).client)
    (hvisiting : ∀ es ∈ h'.wm.entries, es = h.registry) : h'.Sound where
  ids := hregistry ▸ hs.ids
  fresh e he := hnext ▸ hs.fresh e (hregistry ▸ he)
  owners e he := (hlines e.2).1.trans (hs.owners e (hregistry ▸ he))
  listed i := by rw [hregistry, (hlines i).2, hs.listed i]
  visiting es hes := (hvisiting es hes).trans hregistry.symm
  asked i hi := by
    rw [(hlines i).2]
    exact hs.asked i (List.count_pos_iff.mp ((List.count_pos_iff.mpr hi).trans_le (hrequests i)))
  once i := (hrequests i).trans (hs.once i)

/-- What an access does to the program counter of a client. -/
theorem enrolled_of_clientStep {f f' : Feed σ α} {access : ClientAccess}
    (hf : f.ClientStep access f') :
    (access.locks = false ∧ f'.client.enrolled = f.client.enrolled) ∨
      (access = .register ∧ f.client.enrolled = false ∧ f'.client.enrolled = true) ∨
      (access = .unregister ∧ f.client.enrolled = true ∧ f'.client.enrolled = false) := by
  cases hf with
  | register hc => exact Or.inr (Or.inl ⟨rfl, by rw [hc]; rfl, rfl⟩)
  | unregister hc => exact Or.inr (Or.inr ⟨rfl, by rw [hc]; rfl, rfl⟩)
  | fail hc => exact Or.inl ⟨rfl, by rcases hc with hc | hc <;> rw [hc] <;> rfl⟩
  | drain hc _ => exact Or.inl ⟨rfl, rfl⟩
  | request hc | poke hc | receive hc _ | timeout hc _ | clear hc | drained hc _ | greet hc
  | write hc | recv hc _ | take hc _ | nothing hc _ => exact Or.inl ⟨rfl, by rw [hc]; rfl⟩

theorem hasAsked_of_clientStep {f f' : Feed σ α} {access : ClientAccess}
    (hf : f.ClientStep access f') :
    (f.client.hasAsked = true → f'.client.hasAsked = true) ∧
      (access = .request → f.client.hasAsked = false ∧ f'.client.hasAsked = true) := by
  cases hf with
  | request hc => exact ⟨fun _ => rfl, fun _ => ⟨by rw [hc]; rfl, rfl⟩⟩
  | register hc => exact ⟨fun hasked => absurd hasked (by simp [hc, ClientPc.hasAsked]), by simp⟩
  | drain hc _ => exact ⟨fun hasked => hasked, by simp⟩
  | _ => exact ⟨fun _ => rfl, by simp⟩

theorem count_append_of_ne {i j : ι} (hij : j ≠ i) (requests : List (Option ι)) :
    (requests ++ [some i]).count (some j) = requests.count (some j) := by
  rw [List.count_append, List.count_singleton, if_neg (by simpa using hij.symm), Nat.add_zero]

section

variable {i j : ι} {f : Feed σ α} {access : ClientAccess}

theorem id_withFeed : ((h.withFeed i f).lines j).id = (h.lines j).id :=
  lines_modifyLine Line.id rfl j

theorem client_withFeed_self : ((h.withFeed i f).lines i).client = f.client := by
  rw [withFeed, lines_modifyLine_self]

theorem client_withFeed_of_ne (hij : j ≠ i) :
    ((h.withFeed i f).lines j).client = (h.lines j).client := by
  rw [withFeed, lines_modifyLine_of_ne hij]

theorem client_register :
    (((h.withFeed i f).enroll i .register).lines j).client = ((h.withFeed i f).lines j).client := by
  rw [lines_register]
  exact lines_modifyLine Line.client rfl j

theorem hasAsked_withFeed (hf : (h.feed i).ClientStep access f)
    (hj : (h.lines j).client.hasAsked = true) :
    ((h.withFeed i f).lines j).client.hasAsked = true := by
  rcases eq_or_ne j i with rfl | hij
  · rw [client_withFeed_self]
    exact (hasAsked_of_clientStep hf).1 hj
  · rw [client_withFeed_of_ne hij]
    exact hj

omit [DecidableEq ι] in
theorem entries_of_free (hfree : h.wm.locked = false) : h.wm.entries = none := by
  cases hwm : h.wm <;> first | rfl | simp [hwm, HubPc.locked] at hfree

/-- A client that neither comes nor goes keeps the registry sound. -/
theorem Sound.stay (hs : h.Sound) (hf : (h.feed i).ClientStep access f)
    (hlocks : access.locks = false) (henrolled : f.client.enrolled = (h.lines i).client.enrolled) :
    ((h.withFeed i f).enroll i access).Sound := by
  have hlisted : ∀ j, Listed j h.registry = ((h.withFeed i f).lines j).client.enrolled := by
    intro j
    rcases eq_or_ne j i with rfl | hij
    · rw [client_withFeed_self, henrolled, hs.listed]
    · rw [client_withFeed_of_ne hij, hs.listed]
  have hsame : (h.withFeed i f).Sound :=
    ⟨hs.ids, hs.fresh, fun e he => id_withFeed.trans (hs.owners e he), hlisted, hs.visiting,
      fun j hj => hasAsked_withFeed hf (hs.asked j hj), hs.once⟩
  by_cases hreq : access = .request
  · subst hreq
    obtain ⟨hbefore, hafter⟩ := (hasAsked_of_clientStep hf).2 rfl
    have hnot : some i ∉ h.requests := fun hmem => by
      have hasked := hs.asked i hmem
      rw [show (h.lines i).client.hasAsked = false from hbefore] at hasked
      cases hasked
    refine ⟨hsame.ids, hsame.fresh, hsame.owners, hsame.listed, hsame.visiting, fun j hj => ?_,
      fun j => ?_⟩
    · rcases List.mem_append.mp hj with hj | hj
      · exact hsame.asked j hj
      · obtain rfl := Option.some.inj (List.mem_singleton.mp hj)
        exact (congrArg ClientPc.hasAsked client_withFeed_self).trans hafter
    · change (h.requests ++ [some i]).count (some j) ≤ 1
      rcases eq_or_ne j i with rfl | hij
      · rw [List.count_append, List.count_eq_zero.mpr hnot, List.count_singleton_self]
      · exact (count_append_of_ne hij _).trans_le (hs.once j)
  · cases access with
    | register | unregister => cases hlocks
    | request => exact absurd rfl hreq
    | _ => exact hsame

/-- A client that comes is registered under a new id. -/
theorem Sound.register (hs : h.Sound) (hf : (h.feed i).ClientStep .register f)
    (hfree : h.wm.locked = false) (hbefore : (h.lines i).client.enrolled = false)
    (hafter : f.client.enrolled = true) : ((h.withFeed i f).enroll i .register).Sound := by
  have hnew : ∀ e ∈ h.registry, e.2 ≠ i := fun e he heq =>
    Bool.eq_false_iff.mp ((hs.listed i).trans hbefore) (listed_iff.mpr ⟨e, he, heq⟩)
  refine ⟨?_, fun e he => ?_, fun e he => ?_, fun j => ?_, fun es hes => ?_, fun j hj => ?_, hs.once⟩
  · change ((h.registry ++ [(h.nextId, i)]).map (·.1)).Nodup
    rw [List.map_append]
    refine List.Nodup.append hs.ids (List.nodup_singleton _) (List.disjoint_singleton.mpr ?_)
    intro hmem
    obtain ⟨e, he, heq⟩ := List.mem_map.mp hmem
    exact (hs.fresh e he).ne heq
  · change e.1 < h.nextId + 1
    rcases List.mem_append.mp he with he | he
    · exact Nat.lt_succ_of_lt (hs.fresh e he)
    · rw [List.mem_singleton.mp he]
      exact Nat.lt_succ_self _
  · rw [lines_register]
    rcases List.mem_append.mp he with he | he
    · rw [lines_modifyLine_of_ne (hnew e he), id_withFeed]
      exact hs.owners e he
    · rw [List.mem_singleton.mp he, lines_modifyLine_self]
  · rw [client_register]
    change Listed j (h.registry ++ [(h.nextId, i)]) = _
    unfold Listed
    rw [List.any_append, List.any_cons, List.any_nil, Bool.or_false]
    rcases eq_or_ne j i with rfl | hij
    · rw [client_withFeed_self, hafter]
      simp
    · rw [client_withFeed_of_ne hij, ← hs.listed j]
      simp [Listed, hij.symm]
  · exact absurd ((entries_of_free hfree).symm.trans hes) (by simp)
  · rw [client_register]
    exact hasAsked_withFeed hf (hs.asked j hj)

/-- A client that goes takes its entry with it. -/
theorem Sound.unregister (hs : h.Sound) (hf : (h.feed i).ClientStep .unregister f)
    (hfree : h.wm.locked = false) (hbefore : (h.lines i).client.enrolled = true)
    (hafter : f.client.enrolled = false) : ((h.withFeed i f).enroll i .unregister).Sound := by
  obtain ⟨entry, hentry, howner⟩ := listed_iff.mp ((hs.listed i).trans hbefore)
  have hregistry : ((h.withFeed i f).enroll i .unregister).registry =
      h.registry.filter fun e => e.1 ≠ entry.1 := by
    change (h.registry.filter fun e => some e.1 ≠ ((h.withFeed i f).lines i).id) = _
    refine List.filter_congr fun e _ => decide_eq_decide.mpr ?_
    rw [id_withFeed, ← howner, hs.owners entry hentry, ne_eq, Option.some.injEq]
  have hsub : ∀ e ∈ ((h.withFeed i f).enroll i .unregister).registry, e ∈ h.registry :=
    fun e he => List.mem_of_mem_filter (hregistry ▸ he)
  refine ⟨?_, fun e he => hs.fresh e (hsub e he), fun e he => ?_, fun j => ?_, fun es hes => ?_,
    fun j hj => hasAsked_withFeed hf (hs.asked j hj), hs.once⟩
  · rw [hregistry]
    exact hs.ids.sublist (List.filter_sublist.map _)
  · exact id_withFeed.trans (hs.owners e (hsub e he))
  · rw [hregistry]
    change _ = ((h.withFeed i f).lines j).client.enrolled
    rcases eq_or_ne j i with rfl | hij
    · rw [client_withFeed_self, hafter, Bool.eq_false_iff]
      intro hlisted
      obtain ⟨e, he, heq⟩ := listed_iff.mp hlisted
      obtain ⟨he, hid⟩ := List.mem_filter.mp he
      rw [hs.eq_of_owner he hentry (heq.trans howner.symm)] at hid
      simp at hid
    · rw [client_withFeed_of_ne hij, ← hs.listed j, Bool.eq_iff_iff, listed_iff, listed_iff]
      constructor
      · rintro ⟨e, he, heq⟩
        exact ⟨e, List.mem_of_mem_filter he, heq⟩
      · rintro ⟨e, he, heq⟩
        refine ⟨e, List.mem_filter.mpr ⟨he, decide_eq_true fun hid => hij ?_⟩, heq⟩
        rw [← heq, List.inj_on_of_nodup_map hs.ids he hentry hid, howner]
  · exact absurd ((entries_of_free hfree).symm.trans hes) (by simp)

/-- An access of a client keeps the registry sound. -/
theorem Sound.client (hs : h.Sound) (hlock : access.locks = false ∨ h.wm.locked = false)
    (hf : (h.feed i).ClientStep access f) : ((h.withFeed i f).enroll i access).Sound := by
  rcases enrolled_of_clientStep hf with ⟨hlocks, henrolled⟩ | ⟨rfl, hbefore, hafter⟩ |
    ⟨rfl, hbefore, hafter⟩
  · exact hs.stay hf hlocks henrolled
  · exact hs.register hf (hlock.resolve_left (by simp [ClientAccess.locks])) hbefore hafter
  · exact hs.unregister hf (hlock.resolve_left (by simp [ClientAccess.locks])) hbefore hafter

end

/-- A thread moves by its own accesses only. -/
theorem client_of_moves (hm : h.Moves build access h') {i : ι}
    (hother : ∀ a, access ≠ .client i a) : (h'.lines i).client = (h.lines i).client := by
  cases hm with
  | store _ | prod _ _ | reply _ => exact lines_modifyLine Line.client rfl i
  | @client j access f _ _ =>
    have hij : i ≠ j := fun heq => hother access (heq ▸ rfl)
    have hsame : ((h.withFeed j f).lines i).client = (h.lines i).client := client_withFeed_of_ne hij
    cases access with
    | register => exact client_register.trans hsame
    | _ => exact hsame
  | _ => rfl

/-- Every access keeps the registry sound. -/
theorem Sound.step (hs : h.Sound) (hstep : h.Step build access h') : h'.Sound := by
  have hquiet {h₁ : Hub ι σ α} (hregistry : h₁.registry = h.registry)
      (hnext : h₁.nextId = h.nextId) (hrequests : h₁.requests = h.requests)
      (hlines : ∀ i, (h₁.lines i).id = (h.lines i).id ∧ (h₁.lines i).client = (h.lines i).client)
      (hvisiting : ∀ es ∈ h₁.wm.entries, es = h.registry) : h₁.Sound :=
    hs.congr hregistry hnext (fun i => by rw [hrequests]) hlines hvisiting
  have hidle {wm : HubPc ι α} (hwm : wm.entries = none) : ∀ es ∈ wm.entries, es = h.registry :=
    fun es hes => absurd (hwm.symm.trans hes) (by simp)
  have hsame : ∀ i, (h.lines i).id = (h.lines i).id ∧ (h.lines i).client = (h.lines i).client :=
    fun _ => ⟨rfl, rfl⟩
  have hline {h₁ : Hub ι σ α} {i : ι} {f : Line α → Line α}
      (heq : h₁.lines = (h.modifyLine i f).lines) (hid : ∀ line, (f line).id = line.id)
      (hclient : ∀ line, (f line).client = line.client) (j : ι) :
      (h₁.lines j).id = (h.lines j).id ∧ (h₁.lines j).client = (h.lines j).client := by
    rw [heq]
    exact ⟨lines_modifyLine Line.id (hid _) j, lines_modifyLine Line.client (hclient _) j⟩
  cases moves_of_next hstep with
  | noClients _ _ => exact hs
  | change hwm state => exact hquiet rfl rfl rfl hsame hs.visiting
  | check _ _ | build _ _ | answer _ _ | replyStatus _ =>
    exact hquiet rfl rfl rfl hsame (hidle rfl)
  | lock hwm => exact hquiet rfl rfl rfl hsame fun es hes => (Option.some.inj hes).symm
  | store hwm =>
    refine hquiet rfl rfl rfl (hline rfl (fun _ => rfl) fun _ => rfl) fun es hes => ?_
    rw [← Option.some.inj hes]
    exact hs.visiting _ (by rw [hwm]; rfl)
  | prod hwm _ =>
    refine hquiet rfl rfl rfl (hline rfl (fun _ => rfl) fun _ => rfl) fun es hes => ?_
    rw [← Option.some.inj hes, List.append_assoc]
    exact hs.visiting _ (by rw [hwm]; rfl)
  | prune hwm hgone =>
    rw [hs.connected_target hwm] at hgone
    cases hgone
  | finish hwm => exact hquiet (hs.kept_eq hwm) rfl rfl hsame (hidle rfl)
  | takeRequest _ hrequests =>
    refine hs.congr rfl rfl (fun i => ?_) hsame (hidle rfl)
    rw [hrequests]
    exact List.count_le_count_cons
  | reply _ =>
    exact hquiet rfl rfl rfl (hline rfl (fun _ => rfl) fun _ => rfl) (hidle rfl)
  | client hlock hf => exact hs.client hlock hf
  | ask =>
    refine hs.congr rfl rfl (fun i => ?_) hsame hs.visiting
    rw [List.count_append, List.count_singleton]
    simp

theorem sound_of_reachable {s : σ} (hreach : Reachable (Step build) (new s) h) : h.Sound :=
  hreach.invariant (fun _ _ _ hs hstep => hs.step hstep) (sound_new s)

end Hub

end Streamwm
