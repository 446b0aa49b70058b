import Mathlib.Data.List.Nodup
import Mathlib.Data.List.Perm.Basic

/-!
# Inboxes

Messages are addressed to objects (`target`), and an object changes its value `s` by `f` with
each message it gets. `hear target f k s ms` is the value of object `k` after the messages
`ms`, whoever they are for. Objects do not see one another, so in a loop over entries the
messages of one entry are all an object hears that no other entry writes to (`hear_flatMap`).
-/

namespace Inbox

variable {κ μ σ α : Type*} [DecidableEq κ] {target : μ → Option κ} {f : σ → μ → σ} {k : κ}
  {ms ms' : List μ} {s : σ}

/-- What object `k` makes of the messages. -/
def hear (target : μ → Option κ) (f : σ → μ → σ) (k : κ) (s : σ) (ms : List μ) : σ :=
  ms.foldl (fun s m => if target m = some k then f s m else s) s

theorem hear_append :
    hear target f k s (ms ++ ms') = hear target f k (hear target f k s ms) ms' :=
  List.foldl_append

theorem hear_cons_self {m : μ} (h : target m = some k) :
    hear target f k s (m :: ms) = hear target f k (f s m) ms := by
  unfold hear
  rw [List.foldl_cons, if_pos h]

theorem hear_cons_of_ne {m : μ} (h : target m ≠ some k) :
    hear target f k s (m :: ms) = hear target f k s ms := by
  unfold hear
  rw [List.foldl_cons, if_neg h]

/-- Messages for others change nothing. -/
theorem hear_of_not : ∀ {ms : List μ}, (∀ m ∈ ms, target m ≠ some k) → hear target f k s ms = s
  | [], _ => rfl
  | m :: ms, h => by
    rw [hear_cons_of_ne (h m List.mem_cons_self)]
    exact hear_of_not fun m' hm' => h m' (List.mem_cons_of_mem m hm')

/-- What no message changes stays. -/
theorem hear_keeps {β : Type*} {g : σ → β} : ∀ {ms : List μ} {s : σ},
    (∀ m ∈ ms, target m = some k → ∀ s, g (f s m) = g s) → g (hear target f k s ms) = g s
  | [], _, _ => rfl
  | m :: ms, s, h => by
    have hrest := hear_keeps (s := f s m) fun m' hm' => h m' (List.mem_cons_of_mem m hm')
    by_cases hm : target m = some k
    · rw [hear_cons_self hm, hrest]
      exact h m List.mem_cons_self hm s
    · rw [hear_cons_of_ne hm]
      exact hear_keeps fun m' hm' => h m' (List.mem_cons_of_mem m hm')

/-- An object whose messages all say the same, where `P` holds, has heard that, once it has got
one. -/
theorem hear_const_of {P : σ → Prop} {c : σ} (hc : P c) : ∀ {ms : List μ} {s : σ}, P s →
    (∀ m ∈ ms, target m = some k → ∀ s, P s → f s m = c) →
    s = c ∨ (∃ m ∈ ms, target m = some k) → hear target f k s ms = c
  | [], _, _, _, h => by
    refine h.resolve_right ?_
    rintro ⟨m, hm, -⟩
    cases hm
  | m :: ms, s, hs, hconst, h => by
    have hrest : ∀ m' ∈ ms, target m' = some k → ∀ s, P s → f s m' = c := fun m' hm' =>
      hconst m' (List.mem_cons_of_mem m hm')
    by_cases hm : target m = some k
    · rw [hear_cons_self hm]
      have hhead := hconst m List.mem_cons_self hm s hs
      exact hear_const_of hc (hhead.symm ▸ hc) hrest (Or.inl hhead)
    · rw [hear_cons_of_ne hm]
      refine hear_const_of hc hs hrest (h.imp_right ?_)
      rintro ⟨m', hm', htarget⟩
      rcases List.mem_cons.mp hm' with rfl | hm'
      · exact absurd htarget hm
      · exact ⟨m', hm', htarget⟩

theorem hear_const {c : σ} (hconst : ∀ m ∈ ms, target m = some k → ∀ s, f s m = c)
    (h : s = c ∨ (∃ m ∈ ms, target m = some k)) : hear target f k s ms = c :=
  hear_const_of (P := fun _ => True) trivial trivial (fun m hm htarget s _ => hconst m hm htarget s)
    h

/-- In a loop over entries an object hears the one entry that writes to it. -/
theorem hear_flatMap {g : α → List μ} {a : α} : ∀ {l : List α} {s : σ}, l.Nodup → a ∈ l →
    (∀ b ∈ l, b ≠ a → ∀ m ∈ g b, target m ≠ some k) →
      hear target f k s (l.flatMap g) = hear target f k s (g a)
  | b :: l, s, hl, ha, hother => by
    obtain ⟨hnot, hl⟩ := List.nodup_cons.mp hl
    rw [List.flatMap_cons, hear_append]
    rcases List.mem_cons.mp ha with rfl | ha
    · refine hear_of_not fun m hm => ?_
      obtain ⟨c, hc, hm⟩ := List.mem_flatMap.mp hm
      exact hother c (List.mem_cons_of_mem a hc) (fun h => hnot (h ▸ hc)) m hm
    · have hne : b ≠ a := fun h => hnot (h ▸ ha)
      rw [hear_of_not (hother b List.mem_cons_self hne)]
      exact hear_flatMap hl ha fun c hc => hother c (List.mem_cons_of_mem b hc)

end Inbox
