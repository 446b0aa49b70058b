import Mathlib.Data.List.Forall2

/-!
# Programs that may panic

A program that can panic is a function into `Option` : `none` is the panic. An index
expression `xs[i]` is `xs[i]?` there.

`loop f i k` is the body `f` run for `i, i + 1, …, i + k - 1`. `exists_loop` is its
invariant rule : a body that does not panic and takes the invariant from `j` to `j + 1`
makes a loop that does not panic and ends with the invariant at the upper bound.

`modifyFirst p f` updates the first entry that satisfies `p`, which is what a search
returning a mutable reference does. `forall₂_modifyFirst` says that a relation that `f`
respects relates the list before with the list after, entry by entry.
-/

namespace Partial

variable {σ α β : Type*}

/-- `for j in i..i + k { f(j) }`. -/
def loop (f : ℕ → σ → Option σ) : ℕ → ℕ → σ → Option σ
  | _, 0, s => some s
  | i, k + 1, s => (f i s).bind (loop f (i + 1) k)

/-- The invariant rule of a loop. -/
theorem exists_loop {f : ℕ → σ → Option σ} {n : ℕ} (I : ℕ → σ → Prop)
    (hstep : ∀ j s, j < n → I j s → ∃ s', f j s = some s' ∧ I (j + 1) s') :
    ∀ (k i : ℕ) (s : σ), i + k = n → I i s → ∃ s', loop f i k s = some s' ∧ I n s'
  | 0, i, s, hk, hI => ⟨s, rfl, by simpa [← hk] using hI⟩
  | k + 1, i, s, hk, hI => by
    obtain ⟨s₁, h₁, hI₁⟩ := hstep i s (by omega) hI
    obtain ⟨s₂, h₂, hI₂⟩ := exists_loop I hstep k (i + 1) s₁ (by omega) hI₁
    exact ⟨s₂, by simp [loop, h₁, h₂], hI₂⟩

/-- A loop that ends keeps what its body keeps. -/
theorem loop_keeps {f : ℕ → σ → Option σ} (g : σ → β)
    (hstep : ∀ j s s', f j s = some s' → g s' = g s) :
    ∀ {k i : ℕ} {s s' : σ}, loop f i k s = some s' → g s' = g s
  | 0, i, s, s', h => Option.some.inj h ▸ rfl
  | k + 1, i, s, s', h => by
    obtain ⟨s₁, h₁, h⟩ := Option.bind_eq_some_iff.mp h
    exact (loop_keeps g hstep h).trans (hstep i s s₁ h₁)

/-- Mapping a function that does not panic does not panic. -/
theorem exists_mapM {f : α → Option β} : ∀ l : List α, (∀ a ∈ l, ∃ b, f a = some b) →
    ∃ bs, l.mapM f = some bs ∧ List.Forall₂ (fun a b => f a = some b) l bs
  | [], _ => ⟨[], rfl, .nil⟩
  | a :: l, h => by
    obtain ⟨b, hb⟩ := h a List.mem_cons_self
    obtain ⟨bs, hbs, hall⟩ := exists_mapM l fun c hc => h c (List.mem_cons_of_mem _ hc)
    exact ⟨b :: bs, by simp [List.mapM_cons, hb, hbs], .cons hb hall⟩

theorem exists_mapM_range {f : ℕ → Option β} {n : ℕ} (h : ∀ i < n, ∃ b, f i = some b) :
    ∃ bs, (List.range n).mapM f = some bs ∧ bs.length = n ∧ ∀ i < n, bs[i]? = f i := by
  obtain ⟨bs, hbs, hall⟩ := exists_mapM (List.range n) fun i hi => h i (List.mem_range.mp hi)
  have hlen : bs.length = n := by simpa using hall.length_eq.symm
  refine ⟨bs, hbs, hlen, fun i hi => ?_⟩
  have hget := hall.get (i := i) (by simpa using hi) (by omega)
  rw [List.getElem?_eq_getElem (by omega)]
  simpa using hget.symm

theorem mapM_congr {f g : α → Option β} : ∀ l : List α, (∀ a ∈ l, f a = g a) → l.mapM f = l.mapM g
  | [], _ => rfl
  | a :: l, h => by
    have hrest := mapM_congr l fun c hc => h c (List.mem_cons_of_mem _ hc)
    rw [List.mapM_cons, List.mapM_cons, h a List.mem_cons_self, hrest]

/-! ## Updating the first match -/

/-- Apply `f` to the first entry satisfying `p`. -/
def modifyFirst (p : α → Bool) (f : α → α) : List α → List α
  | [] => []
  | a :: l => if p a then f a :: l else a :: modifyFirst p f l

/-- A reflexive relation that `f` respects on the entries satisfying `p` relates the
lists before and after, entry by entry. -/
theorem forall₂_modifyFirst {R : α → α → Prop} {p : α → Bool} {f : α → α}
    (hrefl : ∀ a, R a a) (hf : ∀ a, p a = true → R a (f a)) :
    ∀ l : List α, List.Forall₂ R l (modifyFirst p f l)
  | [] => .nil
  | a :: l => by
    unfold modifyFirst
    split
    · next h => exact .cons (hf a h) (List.forall₂_same.mpr fun b _ => hrefl b)
    · exact .cons (hrefl a) (forall₂_modifyFirst hrefl hf l)

/-- A projection that `f` does not change keeps its list of values. -/
theorem map_modifyFirst {p : α → Bool} {f : α → α} (g : α → β) (hg : ∀ a, g (f a) = g a) :
    ∀ l : List α, (modifyFirst p f l).map g = l.map g
  | [] => rfl
  | a :: l => by
    unfold modifyFirst
    split
    · simp [hg]
    · simp [map_modifyFirst g hg l]

/-- An update that a projection carries over is carried over by the projected list. -/
theorem map_modifyFirst_comm {p : β → Bool} {f : α → α} {k : β → β} (g : α → β)
    (hg : ∀ a, g (f a) = k (g a)) :
    ∀ l : List α, (modifyFirst (fun a => p (g a)) f l).map g = modifyFirst p k (l.map g)
  | [] => rfl
  | a :: l => by
    rw [List.map_cons, modifyFirst, modifyFirst]
    split_ifs
    · rw [List.map_cons, hg]
    · rw [List.map_cons, map_modifyFirst_comm g hg l]

theorem map_modify {f : α → α} (g : α → β) (hg : ∀ a, g (f a) = g a) (l : List α) (i : ℕ) :
    (l.modify i f).map g = l.map g := by
  ext j : 1
  rw [List.getElem?_map, List.getElem?_modify, List.getElem?_map]
  cases l[j]? with
  | none => rfl
  | some a => split_ifs <;> simp [hg]

/-- Updating the last entry. -/
theorem modify_concat (f : α → α) (a : α) : ∀ l : List α,
    (l ++ [a]).modify l.length f = l ++ [f a]
  | [] => rfl
  | b :: l => by
    rw [List.cons_append, List.length_cons, List.modify_succ_cons, modify_concat f a l,
      List.cons_append]

/-- Setting what `g` reads at one place. -/
theorem map_modify_const {f : α → α} {g : α → β} {c : β} (hf : ∀ a, g (f a) = c) (l : List α)
    (i : ℕ) : (l.modify i f).map g = (l.map g).set i c := by
  refine List.ext_getElem? fun j => ?_
  rw [List.getElem?_map, List.getElem?_modify, List.getElem?_set', List.getElem?_map]
  by_cases hij : i = j
  · subst hij
    simp only [if_true]
    cases l[i]? with
    | none => rfl
    | some a => exact congrArg some (hf a)
  · simp only [if_neg hij]
    rw [id_map' l[j]?]

/-- What an update of the last entry makes of a projection of the list. -/
theorem map_modify_last {f : α → α} {g : α → β} {l : List α} {m : List β} {b c : β}
    (h : l.map g = m ++ [b]) (hf : ∀ a, g a = b → g (f a) = c) :
    (l.modify (l.length - 1) f).map g = m ++ [c] := by
  obtain ⟨l', r, rfl, rfl, hr⟩ := List.map_eq_append_iff.mp h
  obtain ⟨a, rfl, ha⟩ := List.map_eq_singleton_iff.mp hr
  rw [List.length_append, List.length_singleton, Nat.add_sub_cancel, modify_concat, List.map_append,
    List.map_singleton, hf a ha]

/-- Updating an entry that the update leaves as it is. -/
theorem modify_of_fixed {f : α → α} {l : List α} {i : ℕ} {a : α} (ha : l[i]? = some a)
    (hf : f a = a) : l.modify i f = l := by
  refine List.ext_getElem? fun j => ?_
  rw [List.getElem?_modify]
  rcases eq_or_ne i j with rfl | hne
  · simp [ha, hf]
  · simp [hne]

/-- An entry of the new list is an entry of the old one or the image of one. -/
theorem mem_modifyFirst {p : α → Bool} {f : α → α} {b : α} :
    ∀ {l : List α}, b ∈ modifyFirst p f l → b ∈ l ∨ ∃ a ∈ l, p a = true ∧ b = f a
  | [], h => by simp [modifyFirst] at h
  | a :: l, h => by
    unfold modifyFirst at h
    split at h
    · next hp =>
      rcases List.mem_cons.mp h with rfl | h
      · exact Or.inr ⟨a, by simp, hp, rfl⟩
      · exact Or.inl (by simp [h])
    · rcases List.mem_cons.mp h with rfl | h
      · exact Or.inl (by simp)
      · rcases mem_modifyFirst h with h | ⟨c, hc, hp, rfl⟩
        · exact Or.inl (by simp [h])
        · exact Or.inr ⟨c, by simp [hc], hp, rfl⟩

/-- Elements that are not updated stay. -/
theorem mem_modifyFirst_of_neg {p : α → Bool} {f : α → α} {b : α} (hp : p b = false) :
    ∀ {l : List α}, b ∈ l → b ∈ modifyFirst p f l
  | a :: l, h => by
    unfold modifyFirst
    rcases List.mem_cons.mp h with rfl | h
    · rw [hp]
      exact List.mem_cons_self
    · split_ifs
      · exact List.mem_cons_of_mem _ h
      · exact List.mem_cons_of_mem _ (mem_modifyFirst_of_neg hp h)

/-- With distinct keys, updating the first entry with a key is updating every entry with it. -/
theorem modifyFirst_eq_map [DecidableEq β] {key : α → β} (k : β) (f : α → α) : ∀ {l : List α},
    (l.map key).Nodup →
      modifyFirst (fun a => key a == k) f l = l.map fun a => if key a = k then f a else a
  | [], _ => rfl
  | a :: l, h => by
    obtain ⟨hnot, hl⟩ := List.nodup_cons.mp h
    unfold modifyFirst
    by_cases hk : key a = k
    · have hrest : (l.map fun b => if key b = k then f b else b) = l := by
        refine List.map_congr_left (g := id) (fun b hb => if_neg fun hb' => hnot ?_) |>.trans l.map_id
        exact hk ▸ hb' ▸ List.mem_map_of_mem hb
      simp [hk, hrest]
    · rw [if_neg (by simpa using hk), modifyFirst_eq_map k f hl, List.map_cons, if_neg hk]

theorem modifyFirst_eq_self {p : α → Bool} {f : α → α} :
    ∀ {l : List α}, l.find? p = none → modifyFirst p f l = l
  | [], _ => rfl
  | a :: l, h => by
    have hall := List.find?_eq_none.mp h
    have hl : l.find? p = none := List.find?_eq_none.mpr fun b hb =>
      hall b (List.mem_cons_of_mem _ hb)
    rw [modifyFirst, if_neg (hall a List.mem_cons_self), modifyFirst_eq_self hl]

/-- Only the value of `f` at the entry found matters. -/
theorem modifyFirst_congr {p : α → Bool} {f g : α → α} {a : α} :
    ∀ {l : List α}, l.find? p = some a → f a = g a → modifyFirst p f l = modifyFirst p g l
  | [], h, _ => by simp at h
  | b :: l, h, hfg => by
    unfold modifyFirst
    rw [List.find?_cons] at h
    split at h
    · next hp =>
      obtain rfl := Option.some.inj h
      rw [if_pos hp, if_pos hp, hfg]
    · next hp =>
      rw [if_neg (by simp [hp]), if_neg (by simp [hp]), modifyFirst_congr h hfg]

/-- Only the entry found is updated. -/
theorem mem_modifyFirst_of_find? {p : α → Bool} {f : α → α} {a b : α} :
    ∀ {l : List α}, l.find? p = some a → (b ∈ modifyFirst p f l → b ∈ l ∨ b = f a) ∧
      f a ∈ modifyFirst p f l
  | [], h => by simp at h
  | c :: l, h => by
    unfold modifyFirst
    rw [List.find?_cons] at h
    split at h
    · next hp =>
      obtain rfl := Option.some.inj h
      rw [if_pos hp]
      refine ⟨fun hb => ?_, List.mem_cons_self⟩
      rcases List.mem_cons.mp hb with rfl | hb
      · exact Or.inr rfl
      · exact Or.inl (List.mem_cons_of_mem _ hb)
    · next hp =>
      obtain ⟨h1, h2⟩ := mem_modifyFirst_of_find? (b := b) (f := f) h
      rw [if_neg (by simp [hp])]
      refine ⟨fun hb => ?_, List.mem_cons_of_mem _ h2⟩
      rcases List.mem_cons.mp hb with rfl | hb
      · exact Or.inl List.mem_cons_self
      · exact (h1 hb).imp (List.mem_cons_of_mem _) id

/-- The entry found is the one updated, if the update keeps it a match. -/
theorem find?_modifyFirst {p : α → Bool} {f : α → α} (hf : ∀ a, p a = true → p (f a) = true) :
    ∀ l : List α, (modifyFirst p f l).find? p = (l.find? p).map f
  | [] => rfl
  | a :: l => by
    unfold modifyFirst
    split
    · next hp => rw [List.find?_cons_of_pos (hf a hp), List.find?_cons_of_pos hp, Option.map_some]
    · next hp => rw [List.find?_cons_of_neg hp, List.find?_cons_of_neg hp, find?_modifyFirst hf l]

/-- Two searches that each accept what the other finds find the same. -/
theorem eq_of_find? {p q : α → Bool} {a b : α} :
    ∀ {l : List α}, l.find? p = some a → l.find? q = some b → q a = true → p b = true → a = b
  | [], ha, _, _, _ => by simp at ha
  | c :: l, ha, hb, hqa, hpb => by
    rw [List.find?_cons] at ha hb
    split at ha
    · next hp =>
      obtain rfl := Option.some.inj ha
      rw [hqa] at hb
      exact Option.some.inj hb
    · next hp =>
      split at hb
      · obtain rfl := Option.some.inj hb
        exact absurd hpb (by simp [hp])
      · exact eq_of_find? ha hb hqa hpb

/-! ## Entry-by-entry relations -/

/-- Every entry on the right has one on the left. -/
theorem exists_of_forall₂ {R : α → β → Prop} {l : List α} {m : List β}
    (h : List.Forall₂ R l m) {b : β} (hb : b ∈ m) : ∃ a ∈ l, R a b := by
  induction h with
  | nil => simp at hb
  | cons hab _ ih =>
    rcases List.mem_cons.mp hb with rfl | hb
    · exact ⟨_, by simp, hab⟩
    · obtain ⟨a, ha, hR⟩ := ih hb
      exact ⟨a, by simp [ha], hR⟩

/-- Every round of a fold keeps a preorder. -/
theorem foldl_of_trans {R : σ → σ → Prop} (hrefl : ∀ s, R s s)
    (htrans : ∀ a b c, R a b → R b c → R a c) {f : σ → α → σ} (hf : ∀ s a, R s (f s a)) :
    ∀ (l : List α) (s : σ), R s (l.foldl f s)
  | [], s => hrefl s
  | a :: l, s => htrans _ _ _ (hf s a) (foldl_of_trans hrefl htrans hf l (f s a))

/-- Two lists are related by way of a third. -/
theorem forall₂_trans {R : α → α → Prop} (hR : ∀ a b c, R a b → R b c → R a c) {l m n : List α}
    (h : List.Forall₂ R l m) (h' : List.Forall₂ R m n) : List.Forall₂ R l n := by
  induction h generalizing n with
  | nil => exact h'
  | cons hab _ ih =>
    obtain ⟨c, n', hbc, hn', rfl⟩ := List.forall₂_cons_left_iff.mp h'
    exact .cons (hR _ _ _ hab hbc) (ih hn')

/-- A search finds related entries in related lists. -/
theorem find?_of_forall₂ {R : α → α → Prop} {p : α → Bool} (hp : ∀ a b, R a b → p b = p a)
    {l m : List α} (h : List.Forall₂ R l m) {a : α} (ha : l.find? p = some a) :
    ∃ b, m.find? p = some b ∧ R a b := by
  induction h with
  | nil => simp at ha
  | @cons c b l m hcb _ ih =>
    rw [List.find?_cons] at ha
    rw [List.find?_cons, hp c b hcb]
    cases hc : p c with
    | true =>
      rw [hc] at ha
      exact ⟨b, rfl, Option.some.inj ha ▸ hcb⟩
    | false =>
      rw [hc] at ha
      exact ih ha

/-- A projection that related entries share. -/
theorem map_eq_of_forall₂ {γ : Type*} {R : α → α → Prop} {g : α → γ} {l m : List α}
    (hR : ∀ a b, R a b → g b = g a) (h : List.Forall₂ R l m) : m.map g = l.map g := by
  induction h with
  | nil => rfl
  | cons hab _ ih => rw [List.map_cons, List.map_cons, hR _ _ hab, ih]

end Partial
