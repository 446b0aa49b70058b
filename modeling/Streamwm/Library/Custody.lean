import Mathlib.Data.Finset.Basic
import Mathlib.Algebra.BigOperators.Group.List.Basic
import Mathlib.Algebra.Order.Group.Multiset
import Streamwm.Library.Partial

/-!
# Custody of handles

A server keeps the set of live handles; a client makes, uses and destroys them, and holds
handles of its own that it numbers upwards from `n`, while those the server hands out are at
least `base`. A `Deed` is what a request does to one handle. It is allowed when the handle it
uses or destroys is live and the one it creates is not.

`Triple base n H ds n' H'` says that from any server whose live handles include the holdings
`H`, counted once each, the deeds `ds` are allowed and turn `H` into `H'` and nothing else :
a small separation logic, with the multiset sum of holdings for the separating conjunction.
`Triple.frame` is its frame rule, `Triple.seq` composition, and `Triple.flatMap` and
`Triple.zipIdx` are the rules for a loop over holdings of many parts.
-/

namespace Custody

/-- What a request does to a handle. -/
inductive Deed
  | use (x : ℕ)
  | create (x : ℕ)
  | destroy (x : ℕ)
  deriving DecidableEq

/-- The live handles after a deed. -/
def perform (L : Finset ℕ) : Deed → Finset ℕ
  | .use _ => L
  | .create x => insert x L
  | .destroy x => L.erase x

/-- The deed is in order. -/
def Allows (L : Finset ℕ) : Deed → Prop
  | .use x => x ∈ L
  | .create x => x ∉ L
  | .destroy x => x ∈ L

def performAll (L : Finset ℕ) (ds : List Deed) : Finset ℕ :=
  ds.foldl perform L

/-- One deed after the other. -/
def AllowsAll : Finset ℕ → List Deed → Prop
  | _, [] => True
  | L, d :: ds => Allows L d ∧ AllowsAll (perform L d) ds

theorem performAll_append (L : Finset ℕ) (ds es : List Deed) :
    performAll L (ds ++ es) = performAll (performAll L ds) es :=
  List.foldl_append

theorem allowsAll_append {es : List Deed} : ∀ {ds : List Deed} {L : Finset ℕ},
    AllowsAll L (ds ++ es) ↔ AllowsAll L ds ∧ AllowsAll (performAll L ds) es
  | [], _ => (iff_of_eq (true_and _)).symm
  | _ :: _, _ => (and_congr_right fun _ => allowsAll_append).trans and_assoc.symm

/-- The live handles are the holdings `H` and others `F`, and the numbers from `n` on are
free. -/
structure Holds (base n : ℕ) (H F : Multiset ℕ) (L : Finset ℕ) : Prop where
  live : L.val = H + F
  free : ∀ x ∈ L, x < n ∨ base ≤ x

/-- The deeds `ds` are allowed wherever the holdings are `H`, and make them `H'`. -/
def Triple (base n : ℕ) (H : Multiset ℕ) (ds : List Deed) (n' : ℕ) (H' : Multiset ℕ) : Prop :=
  n ≤ n' ∧ (n' ≤ base → ∀ F L, Holds base n H F L →
    AllowsAll L ds ∧ Holds base n' H' F (performAll L ds))

variable {base n n' n'' : ℕ} {H H' H'' F : Multiset ℕ} {L : Finset ℕ} {ds es : List Deed}

theorem Holds.mem (h : Holds base n H F L) {x : ℕ} (hx : x ∈ H) : x ∈ L := by
  rw [← Finset.mem_val, h.live]
  exact Multiset.mem_add.mpr (Or.inl hx)

/-- No handle is held twice. -/
theorem Holds.nodup (h : Holds base n H F L) : H.Nodup := by
  have hnodup := L.nodup
  rw [h.live] at hnodup
  exact (Multiset.nodup_add.mp hnodup).1

theorem Holds.frame {G : Multiset ℕ} (h : Holds base n (H + G) F L) : Holds base n H (G + F) L :=
  ⟨by rw [h.live, add_assoc], h.free⟩

/-- The server hands out a handle. -/
theorem Holds.arrive (h : Holds base n H F L) {x : ℕ} (hx : x ∉ L) (hbase : base ≤ x) :
    Holds base n (x ::ₘ H) F (insert x L) := by
  refine ⟨?_, fun y hy => ?_⟩
  · rw [Finset.insert_val_of_notMem hx, h.live, Multiset.cons_add]
  · rcases Finset.mem_insert.mp hy with rfl | hy
    · exact Or.inr hbase
    · exact h.free y hy

namespace Triple

/-- Numbers may be left out. -/
theorem skip (hn : n ≤ n') : Triple base n H [] n' H :=
  ⟨hn, fun _ _ _ h => ⟨trivial, h.live, fun x hx => (h.free x hx).imp_left fun hlt => by omega⟩⟩

theorem nil : Triple base n H [] n H :=
  skip le_rfl

theorem seq (h : Triple base n H ds n' H') (h' : Triple base n' H' es n'' H'') :
    Triple base n H (ds ++ es) n'' H'' := by
  refine ⟨h.1.trans h'.1, fun hbase F L hL => ?_⟩
  obtain ⟨hds, hL'⟩ := h.2 (h'.1.trans hbase) F L hL
  obtain ⟨hes, hL''⟩ := h'.2 hbase F _ hL'
  rw [allowsAll_append, performAll_append]
  exact ⟨⟨hds, hes⟩, hL''⟩

/-- What is not touched stays. -/
theorem frame (G : Multiset ℕ) (h : Triple base n H ds n' H') :
    Triple base n (H + G) ds n' (H' + G) := by
  refine ⟨h.1, fun hbase F L hL => ?_⟩
  obtain ⟨hds, hL'⟩ := h.2 hbase (G + F) L hL.frame
  exact ⟨hds, by rw [hL'.live, add_assoc], hL'.free⟩

/-- Deeds that only use what is held. -/
theorem uses (h : ∀ d ∈ ds, ∃ x ∈ H, d = .use x) : Triple base n H ds n H := by
  refine ⟨le_rfl, fun _ F L hL => ?_⟩
  induction ds with
  | nil => exact ⟨trivial, hL⟩
  | cons d ds ih =>
    obtain ⟨x, hx, rfl⟩ := h d List.mem_cons_self
    obtain ⟨hds, hL'⟩ := ih fun d' hd' => h d' (List.mem_cons_of_mem _ hd')
    exact ⟨⟨hL.mem hx, hds⟩, hL'⟩

/-- The next number is free. -/
theorem create : Triple base n H [.create n] (n + 1) (n ::ₘ H) := by
  refine ⟨Nat.le_succ n, fun hbase F L hL => ?_⟩
  have hfree : n ∉ L := fun hn => by
    have := hL.free n hn
    omega
  refine ⟨⟨hfree, trivial⟩, ?_, fun x hx => ?_⟩
  · change (insert n L).val = _
    rw [Finset.insert_val_of_notMem hfree, hL.live, Multiset.cons_add]
  · rcases Finset.mem_insert.mp hx with rfl | hx
    · exact Or.inl (Nat.lt_succ_self x)
    · exact (hL.free x hx).imp_left fun hlt => by omega

/-- A handle that is held makes a new one. -/
theorem createFor {x : ℕ} (hx : x ∈ H) :
    Triple base n H [.use x, .create n] (n + 1) (n ::ₘ H) :=
  (uses (List.forall_mem_singleton.mpr ⟨x, hx, rfl⟩)).seq create

/-- A handle that is held makes a new one for every entry of a list. -/
theorem createAll {α : Type*} {x : ℕ} : ∀ {l : List α} {n : ℕ} {H : Multiset ℕ}, x ∈ H →
    Triple base n H ((l.zipIdx n).flatMap fun p => [.use x, .create p.2]) (n + l.length)
      (↑((l.zipIdx n).map (·.2)) + H)
  | [], _, _, _ => by simpa using nil
  | a :: l, n, H, hx => by
    rw [List.zipIdx_cons, List.flatMap_cons, List.map_cons, List.length_cons,
      Nat.add_comm l.length, ← Nat.add_assoc, ← Multiset.cons_coe, Multiset.cons_add,
      ← Multiset.add_cons]
    exact (createFor hx).seq (createAll (Multiset.mem_cons_of_mem hx))

/-- A handle that is held is destroyed. -/
theorem destroy (x : ℕ) : Triple base n (x ::ₘ H) [.destroy x] n H := by
  refine ⟨le_rfl, fun _ F L hL => ⟨⟨hL.mem (Multiset.mem_cons_self x H), trivial⟩, ?_, fun y hy => ?_⟩⟩
  · change (L.erase x).val = _
    rw [Finset.erase_val, hL.live, Multiset.cons_add, Multiset.erase_cons_head]
  · exact hL.free y (Finset.mem_of_mem_erase hy)

/-- Everything held is destroyed. -/
theorem destroyAll (xs : List ℕ) : Triple base n (↑xs + H) (xs.map .destroy) n H := by
  induction xs with
  | nil => simpa using nil
  | cons x xs ih =>
    rw [← Multiset.cons_coe, Multiset.cons_add]
    exact (destroy x).seq ih

/-- A loop over parts, each of which looks after itself. -/
theorem flatMap {α : Type*} {f h : α → Multiset ℕ} {g : α → List Deed} : ∀ {l : List α},
    (∀ a ∈ l, Triple base n (f a) (g a) n (h a)) →
      Triple base n (l.map f).sum (l.flatMap g) n (l.map h).sum
  | [], _ => nil
  | a :: l, hl => by
    rw [List.map_cons, List.sum_cons, List.map_cons, List.sum_cons, List.flatMap_cons]
    have hhead := (hl a List.mem_cons_self).frame (l.map f).sum
    have htail := (flatMap fun b hb => hl b (List.mem_cons_of_mem a hb)).frame (h a)
    rw [add_comm _ (h a), add_comm _ (h a)] at htail
    exact hhead.seq htail

/-- A loop that numbers its steps. -/
theorem zipIdx {α : Type*} {f : α → Multiset ℕ} {g : α → ℕ → List Deed} {h : α → ℕ → Multiset ℕ} :
    ∀ {l : List α} {n : ℕ}, (∀ a ∈ l, ∀ k, Triple base k (f a) (g a k) (k + 1) (h a k)) →
      Triple base n (l.map f).sum ((l.zipIdx n).flatMap fun p => g p.1 p.2) (n + l.length)
        ((l.zipIdx n).map fun p => h p.1 p.2).sum
  | [], _, _ => nil
  | a :: l, n, hl => by
    rw [List.map_cons, List.sum_cons, List.zipIdx_cons, List.map_cons, List.sum_cons,
      List.flatMap_cons, List.length_cons, Nat.add_comm l.length, ← Nat.add_assoc]
    have hhead := (hl a List.mem_cons_self n).frame (l.map f).sum
    have htail := (zipIdx (n := n + 1) fun b hb => hl b (List.mem_cons_of_mem a hb)).frame (h a n)
    rw [add_comm _ (h a n), add_comm _ (h a n)] at htail
    exact hhead.seq htail

end Triple

/-! ## Holdings of many parts -/

section Parts

variable {α : Type*} {f : α → Multiset ℕ} {l : List α}

theorem mem_sum_map {x : ℕ} : x ∈ (l.map f).sum ↔ ∃ a ∈ l, x ∈ f a := by
  induction l with
  | nil => simp
  | cons a l ih => rw [List.map_cons, List.sum_cons, Multiset.mem_add, ih, List.exists_mem_cons_iff]

/-- The parts that satisfy `p` and the others. -/
theorem sum_map_filter (p : α → Bool) (f : α → Multiset ℕ) (l : List α) :
    (l.map f).sum = ((l.filter p).map f).sum + ((l.filter fun a => !p a).map f).sum := by
  rw [← List.sum_append, ← List.map_append]
  exact ((List.filter_append_perm p l).map f).sum_eq.symm

theorem coe_map_filter (p : α → Bool) (k : α → ℕ) (l : List α) : (↑(l.map k) : Multiset ℕ) =
    ↑((l.filter p).map k) + ↑((l.filter fun a => !p a).map k) := by
  rw [Multiset.coe_add, ← List.map_append]
  exact Multiset.coe_eq_coe.mpr ((List.filter_append_perm p l).map k).symm

/-- A part is updated and gets the handles `G`. -/
theorem sum_map_modifyFirst {p : α → Bool} {g : α → α} {G : Multiset ℕ} {a : α}
    (hg : f (g a) = G + f a) : ∀ {l : List α}, l.find? p = some a →
      ((Partial.modifyFirst p g l).map f).sum = G + (l.map f).sum
  | b :: l, h => by
    unfold Partial.modifyFirst
    cases hb : p b with
    | true =>
      rw [List.find?_cons_of_pos hb, Option.some.injEq] at h
      rw [if_pos rfl, List.map_cons, List.sum_cons, List.map_cons, List.sum_cons, h, hg, add_assoc]
    | false =>
      rw [List.find?_cons_of_neg (by simp [hb])] at h
      rw [if_neg Bool.false_ne_true, List.map_cons, List.sum_cons, List.map_cons, List.sum_cons,
        sum_map_modifyFirst hg h, add_left_comm]

/-- Parts that share no handle have different keys. -/
theorem nodup_keys {k : α → ℕ} (hkey : ∀ a, k a ∈ f a) :
    ∀ {l : List α}, (l.map f).sum.Nodup → (l.map k).Nodup
  | [], _ => List.nodup_nil
  | a :: l, h => by
    rw [List.map_cons, List.sum_cons, Multiset.nodup_add] at h
    obtain ⟨-, hl, hdisjoint⟩ := h
    refine List.nodup_cons.mpr ⟨fun hmem => ?_, nodup_keys hkey hl⟩
    obtain ⟨b, hb, hsame⟩ := List.mem_map.mp hmem
    exact Multiset.disjoint_left.mp hdisjoint (hkey a)
      (mem_sum_map.mpr ⟨b, hb, hsame ▸ hkey b⟩)

/-- With different keys, one part has a key. -/
theorem filter_key {k : α → ℕ} {a : α} : ∀ {l : List α}, (l.map k).Nodup → a ∈ l →
    l.filter (fun b => k b == k a) = [a]
  | b :: l, h, ha => by
    obtain ⟨hnot, hl⟩ := List.nodup_cons.mp h
    rcases List.mem_cons.mp ha with rfl | ha
    · have hrest : l.filter (fun c => k c == k a) = [] :=
        List.filter_eq_nil_iff.mpr fun c hc hsame =>
          hnot (List.mem_map.mpr ⟨c, hc, beq_iff_eq.mp hsame⟩)
      rw [List.filter_cons, if_pos (beq_self_eq_true _), hrest]
    · have hne : ¬(k b == k a) = true := fun hsame =>
        hnot (List.mem_map.mpr ⟨a, ha, (beq_iff_eq.mp hsame).symm⟩)
      rw [List.filter_cons, if_neg hne, filter_key hl ha]

/-- With different keys, a search for a key finds the part that has it. -/
theorem find_key {k : α → ℕ} {a : α} (h : (l.map k).Nodup) (ha : a ∈ l) :
    l.find? (fun b => k b == k a) = some a := by
  rw [← List.head?_filter, filter_key h ha]
  rfl

end Parts

end Custody
