import Mathlib.Data.List.Nodup
import Mathlib.Logic.Function.Basic

/-!
# Handles

A server keeps at most one live handle for an owner. A client acquires one under a number
it has not used yet, and releases it by that number; acquiring a second handle for an
owner, or releasing a handle that is not live, is an error (`Table.Allows`).

A client that keeps a list of its owners, each with the handle it believes to be live, is
right about the server when the table is that list (`Tracks`). A pass over the list that
acquires handles for owners without one and releases some of the others (`Moves`) makes
only calls the server allows, and leaves the client right (`Tracks.moves`).
-/

set_option linter.unusedSectionVars false

namespace Handles

variable {ι : Type*} [DecidableEq ι]

/-- What a client asks of the server. -/
inductive Call (ι : Type*)
  | acquire (owner : ι) (handle : ℕ)
  | release (handle : ℕ)

/-- The live handle of an owner. -/
abbrev Table (ι : Type*) : Type _ :=
  ι → Option ℕ

namespace Table

variable (t : Table ι)

/-- The server carries out a call. -/
def call : Call ι → Table ι
  | .acquire owner handle => Function.update t owner (some handle)
  | .release handle => fun owner => (t owner).filter (· != handle)

/-- A call that is no error : the owner has no handle and the number is new; the handle is
live. -/
def Allows : Call ι → Prop
  | .acquire owner handle => t owner = none ∧ ∀ other, t other ≠ some handle
  | .release handle => ∃ owner, t owner = some handle

def calls (cs : List (Call ι)) : Table ι :=
  cs.foldl call t

/-- One call after the other. -/
def AllowsAll : Table ι → List (Call ι) → Prop
  | _, [] => True
  | t, c :: cs => t.Allows c ∧ AllowsAll (t.call c) cs

variable {t}

theorem calls_append (cs ds : List (Call ι)) : t.calls (cs ++ ds) = (t.calls cs).calls ds :=
  List.foldl_append

theorem allowsAll_append : ∀ {cs ds : List (Call ι)} {t : Table ι},
    t.AllowsAll (cs ++ ds) ↔ t.AllowsAll cs ∧ (t.calls cs).AllowsAll ds
  | [], _, _ => (iff_of_eq (true_and _)).symm
  | _ :: _, _, _ => (and_congr_right fun _ => allowsAll_append).trans and_assoc.symm

end Table

/-- The table is the client's list, and no live handle has a number from `next` on. -/
structure Tracks (t : Table ι) (next : ℕ) (l : List (ι × Option ℕ)) : Prop where
  nodup : (l.map Prod.fst).Nodup
  known : ∀ p ∈ l, t p.1 = p.2
  unknown : ∀ owner, owner ∉ l.map Prod.fst → t owner = none
  inj : ∀ owner other handle, t owner = some handle → t other = some handle → owner = other
  lt : ∀ owner handle, t owner = some handle → handle < next

/-- What a pass does about one owner, and the calls it makes for it. -/
inductive Move : ℕ → ℕ → ι × Option ℕ → ι × Option ℕ → List (Call ι) → Prop
  | keep {n n' : ℕ} (p : ι × Option ℕ) : n ≤ n' → Move n n' p p []
  | acquire {n n' : ℕ} (owner : ι) : n < n' →
    Move n n' (owner, none) (owner, some n) [.acquire owner n]
  | release {n n' : ℕ} (owner : ι) (handle : ℕ) : n ≤ n' →
    Move n n' (owner, some handle) (owner, none) [.release handle]

/-- A pass over a list of owners. -/
inductive Moves : ℕ → ℕ → List (ι × Option ℕ) → List (ι × Option ℕ) → List (Call ι) → Prop
  | nil (n : ℕ) : Moves n n [] [] []
  | cons {n n' n'' : ℕ} {p q : ι × Option ℕ} {l m : List (ι × Option ℕ)} {cs ds : List (Call ι)} :
    Move n n' p q cs → Moves n' n'' l m ds → Moves n n'' (p :: l) (q :: m) (cs ++ ds)

namespace Tracks

variable {t : Table ι} {n n' : ℕ} {p q : ι × Option ℕ} {l m pre : List (ι × Option ℕ)}
  {cs : List (Call ι)} {owner : ι}

theorem nil : Tracks (fun _ => none : Table ι) n [] :=
  ⟨List.nodup_nil, by simp, fun _ _ => rfl, by simp, by simp⟩

theorem mono (h : Tracks t n l) (hn : n ≤ n') : Tracks t n' l :=
  { h with lt := fun owner handle ht => Nat.lt_of_lt_of_le (h.lt owner handle ht) hn }

/-- The order of the list does not matter. -/
theorem perm (h : Tracks t n l) (hp : l.Perm m) : Tracks t n m := by
  have hmap := hp.map Prod.fst
  refine ⟨hmap.nodup_iff.mp h.nodup, fun p hmem => h.known p (hp.mem_iff.mpr hmem),
    fun owner hmem => h.unknown owner fun hl => hmem (hmap.mem_iff.mp hl), h.inj, h.lt⟩

/-- A new owner has no handle. -/
theorem push (h : Tracks t n l) (hnew : owner ∉ l.map Prod.fst) :
    Tracks t n ((owner, none) :: l) := by
  refine ⟨List.nodup_cons.mpr ⟨hnew, h.nodup⟩, fun p hp => ?_, fun other hother => ?_, h.inj, h.lt⟩
  · rcases List.mem_cons.mp hp with rfl | hp
    · exact h.unknown owner hnew
    · exact h.known p hp
  · exact h.unknown other fun hmem => hother (List.mem_cons_of_mem _ hmem)

/-- An owner without a handle is forgotten. -/
theorem forget (h : Tracks t n ((owner, none) :: l)) : Tracks t n l := by
  refine ⟨(List.nodup_cons.mp h.nodup).2, fun p hp => h.known p (List.mem_cons_of_mem _ hp),
    fun other hother => ?_, h.inj, h.lt⟩
  by_cases heq : other = owner
  · rw [heq]
    exact h.known (owner, none) List.mem_cons_self
  · exact h.unknown other fun hmem => (List.mem_cons.mp hmem).elim heq hother

/-- One owner's handle changes, on both sides. -/
theorem replace {t' : Table ι} {x y : Option ℕ} (h : Tracks t n ((owner, x) :: l))
    (hself : t' owner = y) (hrest : ∀ other, other ≠ owner → t' other = t other)
    (hinj : ∀ a b handle, t' a = some handle → t' b = some handle → a = b)
    (hlt : ∀ a handle, t' a = some handle → handle < n') : Tracks t' n' ((owner, y) :: l) := by
  refine ⟨h.nodup, fun p hp => ?_, fun other hother => ?_, hinj, hlt⟩
  · rcases List.mem_cons.mp hp with rfl | hp
    · exact hself
    · have hmem : p.1 ∈ l.map Prod.fst := List.mem_map_of_mem hp
      rw [hrest p.1 fun heq => (List.nodup_cons.mp h.nodup).1 (heq ▸ hmem)]
      exact h.known p (List.mem_cons_of_mem _ hp)
  · rw [hrest other fun heq => hother (heq ▸ List.mem_cons_self)]
    exact h.unknown other hother

/-- An owner acquires a handle with a new number. -/
theorem acquire (h : Tracks t n ((owner, none) :: l)) (hn : n < n') :
    t.Allows (.acquire owner n) ∧
      Tracks (t.call (.acquire owner n)) n' ((owner, some n) :: l) := by
  have hfree (other : ι) : t other ≠ some n := fun ht => Nat.lt_irrefl n (h.lt other n ht)
  have hrest (other : ι) (hne : other ≠ owner) : t.call (.acquire owner n) other = t other :=
    Function.update_of_ne hne _ _
  have hself : t.call (.acquire owner n) owner = some n := Function.update_self _ _ _
  refine ⟨⟨h.known (owner, none) List.mem_cons_self, hfree⟩,
    h.replace hself hrest (fun a b handle ha hb => ?_) fun other handle ht => ?_⟩
  · by_cases hao : a = owner <;> by_cases hbo : b = owner
    · rw [hao, hbo]
    · rw [hao, hself] at ha
      rw [hrest b hbo] at hb
      exact absurd (hb.trans ha.symm) (hfree b)
    · rw [hbo, hself] at hb
      rw [hrest a hao] at ha
      exact absurd (ha.trans hb.symm) (hfree a)
    · rw [hrest a hao] at ha
      rw [hrest b hbo] at hb
      exact h.inj a b handle ha hb
  · by_cases hother : other = owner
    · rw [hother, hself] at ht
      exact Option.some.inj ht ▸ hn
    · rw [hrest other hother] at ht
      exact Nat.lt_trans (h.lt other handle ht) hn

/-- An owner's handle is released. -/
theorem release {handle : ℕ} (h : Tracks t n ((owner, some handle) :: l)) :
    t.Allows (.release handle) ∧ Tracks (t.call (.release handle)) n ((owner, none) :: l) := by
  have hsome : t owner = some handle := h.known (owner, some handle) List.mem_cons_self
  have hself : t.call (.release handle) owner = none := by
    simp [Table.call, hsome]
  have hrest (other : ι) (hne : other ≠ owner) : t.call (.release handle) other = t other := by
    change (t other).filter _ = t other
    cases ht : t other with
    | none => rfl
    | some handle' =>
      refine Option.filter_some_pos (bne_iff_ne.mpr ?_)
      rintro rfl
      exact hne (h.inj other owner _ ht hsome)
  have hsub (other : ι) (handle' : ℕ) (ht : t.call (.release handle) other = some handle') :
      t other = some handle' := (Option.filter_eq_some_iff.mp ht).1
  exact ⟨⟨owner, hsome⟩, h.replace hself hrest
    (fun a b handle' ha hb => h.inj a b handle' (hsub a handle' ha) (hsub b handle' hb))
    fun other handle' ht => h.lt other handle' (hsub other handle' ht)⟩

/-- An owner is forgotten, its handle released first if it has one. -/
theorem remove (h : Tracks t n l) (hp : p ∈ l) :
    t.AllowsAll (p.2.map Call.release).toList ∧
      Tracks (t.calls (p.2.map Call.release).toList) n (l.filter fun q => q.1 ≠ p.1) := by
  obtain ⟨pre, post, rfl⟩ := List.append_of_mem hp
  have hcons := h.perm List.perm_middle
  have hother : ∀ q ∈ pre ++ post, q.1 ≠ p.1 := fun q hq heq =>
    (List.nodup_cons.mp hcons.nodup).1 (heq ▸ List.mem_map_of_mem hq)
  have hfilter : (pre ++ p :: post).filter (fun q => q.1 ≠ p.1) = pre ++ post := by
    rw [List.filter_append, List.filter_cons_of_neg (by simp), ← List.filter_append]
    exact List.filter_eq_self.mpr (by simpa using hother)
  rw [hfilter]
  obtain ⟨owner, _ | handle⟩ := p
  · exact ⟨trivial, hcons.forget⟩
  · exact ⟨⟨hcons.release.1, trivial⟩, hcons.release.2.forget⟩

/-- What a pass does about one owner keeps the client right. -/
theorem move (h : Tracks t n (p :: l)) (hmove : Move n n' p q cs) :
    t.AllowsAll cs ∧ Tracks (t.calls cs) n' (q :: l) := by
  cases hmove with
  | keep p hn => exact ⟨trivial, h.mono hn⟩
  | acquire owner hn => exact ⟨⟨(h.acquire hn).1, trivial⟩, (h.acquire hn).2⟩
  | release owner handle hn => exact ⟨⟨h.release.1, trivial⟩, h.release.2.mono hn⟩

/-- A pass makes only calls the server allows, and keeps the client right. -/
theorem moves (hmoves : Moves n n' l m cs) : ∀ {pre : List (ι × Option ℕ)} {t : Table ι},
    Tracks t n (pre ++ l) → t.AllowsAll cs ∧ Tracks (t.calls cs) n' (pre ++ m) := by
  induction hmoves with
  | nil n => exact fun h => ⟨trivial, h⟩
  | @cons n n' n'' p q l m cs ds hmove _ ih =>
    intro pre t h
    obtain ⟨hcs, hq⟩ := (h.perm List.perm_middle).move hmove
    have hnext : Tracks (t.calls cs) n' ((pre ++ [q]) ++ l) := by
      rw [List.append_assoc, List.singleton_append]
      exact hq.perm List.perm_middle.symm
    obtain ⟨hds, hm⟩ := ih hnext
    rw [List.append_assoc, List.singleton_append] at hm
    rw [Table.allowsAll_append, Table.calls_append]
    exact ⟨⟨hcs, hds⟩, hm⟩

end Tracks

end Handles
