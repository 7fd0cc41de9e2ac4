import Mathlib.Tactic

/-! # Greedy matching

Edges between two sides are gone through in order, and each is taken that has no end in common with
one taken before (`greedy`).

What is taken is the only set of edges that is `Settled`: no two of them meet, and every other edge
meets one of them that stands before it (`settled_greedy`, `mem_greedy_iff`). So what a greedy
matching is can be said without running it.
-/

namespace Matching

variable {α ι κ : Type} (left : α → ι) (right : α → κ)

/-- The edges have an end in common. -/
def Meets (p c : α) : Prop := left p = left c ∨ right p = right c

instance [DecidableEq ι] [DecidableEq κ] (p c : α) : Decidable (Meets left right p c) :=
  inferInstanceAs (Decidable (_ ∨ _))

/-- The edges of `edges` that are taken after those of `taken`. -/
def takeFrom [DecidableEq ι] [DecidableEq κ] (taken : List α) : List α → List α
  | [] => taken
  | c :: edges =>
    if ∃ p ∈ taken, Meets left right p c then takeFrom taken edges
    else takeFrom (taken ++ [c]) edges

def greedy [DecidableEq ι] [DecidableEq κ] (edges : List α) : List α := takeFrom left right [] edges

/-- No two edges of `M` meet, and every other edge meets one of `M` that stands before it. -/
structure Settled (edges : List α) (M : α → Prop) : Prop where
  apart : ∀ p ∈ edges, ∀ c ∈ edges, M p → M c → Meets left right p c → p = c
  blocked : ∀ before c after, edges = before ++ c :: after → ¬ M c →
    ∃ p ∈ before, M p ∧ Meets left right p c

variable {left right}

theorem Meets.symm {p c : α} (h : Meets left right p c) : Meets left right c p := by
  rcases h with h | h
  · exact Or.inl h.symm
  · exact Or.inr h.symm

section Greedy

variable [DecidableEq ι] [DecidableEq κ]

variable {edges taken : List α}

/-- **The greedy matching is the settled set.** -/
theorem mem_takeFrom_iff {M : α → Prop} (h : Settled left right edges M) {before after : List α}
    (hsplit : edges = before ++ after) (htaken : ∀ c, c ∈ taken ↔ c ∈ before ∧ M c) (c : α) : c ∈
    takeFrom left right taken after ↔ c ∈ edges ∧ M c := by
  induction after generalizing before taken with
  | nil => rw [takeFrom, htaken, hsplit, List.append_nil]
  | cons e after ih =>
    have he : e ∈ edges := hsplit ▸ List.mem_append_right _ (.head _)
    have hnext : edges = (before ++ [e]) ++ after := by rw [hsplit, List.append_assoc]; rfl
    rw [takeFrom]
    by_cases hmet : ∃ p ∈ taken, Meets left right p e
    · rw [if_pos hmet]
      obtain ⟨p, hp, hmeets⟩ := hmet
      obtain ⟨hbefore, hMp⟩ := (htaken p).mp hp
      refine ih hnext fun c => ?_
      rw [htaken, List.mem_append, List.mem_singleton]
      constructor
      · rintro ⟨hc, hMc⟩
        exact ⟨Or.inl hc, hMc⟩
      rintro ⟨hc | rfl, hMc⟩
      · exact ⟨hc, hMc⟩
      · have hpc := h.apart p (hsplit ▸ List.mem_append_left _ hbefore) c he hMp hMc hmeets
        exact ⟨hpc ▸ hbefore, hMc⟩
    · have hM : M e := by
        by_contra hM
        obtain ⟨p, hp, hMp, hmeets⟩ := h.blocked before e after hsplit hM
        exact hmet ⟨p, (htaken p).mpr ⟨hp, hMp⟩, hmeets⟩
      rw [if_neg hmet]
      refine ih hnext fun c => ?_
      rw [List.mem_append, htaken, List.mem_append, List.mem_singleton]
      constructor
      · rintro (⟨hc, hMc⟩ | rfl)
        · exact ⟨Or.inl hc, hMc⟩
        · exact ⟨Or.inr rfl, hM⟩
      · rintro ⟨hc | rfl, hMc⟩
        · exact Or.inl ⟨hc, hMc⟩
        · exact Or.inr rfl

theorem mem_greedy_iff {M : α → Prop} (h : Settled left right edges M) (c : α) :
    c ∈ greedy left right edges ↔ c ∈ edges ∧ M c :=
  mem_takeFrom_iff h (List.nil_append edges).symm (by simp) c

theorem subset_takeFrom (taken edges : List α) : taken ⊆ takeFrom left right taken edges := by
  induction edges generalizing taken with
  | nil => exact fun _ h => h
  | cons e edges ih =>
    intro c hc
    rw [takeFrom]
    split
    · exact ih _ hc
    · exact ih _ (List.mem_append_left _ hc)

theorem takeFrom_append (taken before after : List α) :
    takeFrom left right taken (before ++ after)
      = takeFrom left right (takeFrom left right taken before) after := by
  induction before generalizing taken with
  | nil => rfl
  | cons e before ih =>
    rw [List.cons_append, takeFrom, takeFrom]
    split <;> exact ih _

theorem mem_of_mem_takeFrom {c : α}
    (h : c ∈ takeFrom left right taken edges) : c ∈ taken ∨ c ∈ edges := by
  induction edges generalizing taken with
  | nil => exact Or.inl h
  | cons e edges ih =>
    rw [takeFrom] at h
    split at h
    · exact (ih h).imp_right (List.mem_cons_of_mem _)
    rcases ih h with h | h
    · rcases List.mem_append.mp h with h | h
      · exact Or.inl h
      · exact Or.inr (List.mem_singleton.mp h ▸ List.mem_cons_self)
    · exact Or.inr (List.mem_cons_of_mem _ h)

theorem mem_of_mem_greedy {c : α} (h : c ∈ greedy left right edges) : c ∈ edges :=
  (mem_of_mem_takeFrom h).resolve_left List.not_mem_nil

/-- No two of the taken edges meet. -/
theorem pairwise_takeFrom (edges : List α) (h : taken.Pairwise fun p c => ¬ Meets left right p c) :
    (takeFrom left right taken edges).Pairwise fun p c => ¬ Meets left right p c := by
  induction edges generalizing taken with
  | nil => exact h
  | cons e edges ih =>
    rw [takeFrom]
    by_cases hmet : ∃ p ∈ taken, Meets left right p e
    · rw [if_pos hmet]
      exact ih h
    rw [if_neg hmet]
    refine ih (List.pairwise_append.mpr ⟨h, List.pairwise_singleton _ _, ?_⟩)
    intro p hp c hc hmeets
    rw [List.mem_singleton.mp hc] at hmeets
    exact hmet ⟨p, hp, hmeets⟩

theorem pairwise_greedy (edges : List α) :
    (greedy left right edges).Pairwise fun p c => ¬ Meets left right p c :=
  pairwise_takeFrom edges List.Pairwise.nil

/-- The taken edges have different left ends, and different right ends. -/
theorem nodup_greedy (edges : List α) :
    ((greedy left right edges).map left).Nodup ∧ ((greedy left right edges).map right).Nodup := by
  have h : (greedy left right edges).Pairwise fun p c => ¬ Meets left right p c :=
    pairwise_greedy edges
  constructor
  · rw [List.Nodup, List.pairwise_map]
    exact h.imp fun hapart heq => hapart (Or.inl heq)
  · rw [List.Nodup, List.pairwise_map]
    exact h.imp fun hapart heq => hapart (Or.inr heq)

/-- **What is taken is settled.** -/
theorem settled_greedy : Settled left right edges (· ∈ greedy left right edges) where
  apart := by
    intro p _ c _ hp hc hmeets
    obtain ⟨hleft, hright⟩ : ((greedy left right edges).map left).Nodup ∧
        ((greedy left right edges).map right).Nodup := nodup_greedy edges
    rcases hmeets with heq | heq
    · exact List.inj_on_of_nodup_map hleft hp hc heq
    · exact List.inj_on_of_nodup_map hright hp hc heq
  blocked := by
    intro before c after hsplit hc
    have hrun : greedy left right edges
        = takeFrom left right (takeFrom left right (takeFrom left right [] before) [c]) after := by
      rw [greedy, hsplit, takeFrom_append, ← takeFrom_append _ [c] after]
      rfl
    by_cases hmet : ∃ p ∈ takeFrom left right [] before, Meets left right p c
    · obtain ⟨p, hp, hmeets⟩ := hmet
      refine ⟨p, (mem_of_mem_takeFrom hp).resolve_left List.not_mem_nil, ?_, hmeets⟩
      rw [hrun]
      exact subset_takeFrom _ _ (subset_takeFrom _ _ hp)
    · refine absurd ?_ hc
      rw [hrun, takeFrom, if_neg hmet]
      exact subset_takeFrom _ _ (List.mem_append_right _ (.head _))

end Greedy

/-! ## Sorted edges

Where the edges are sorted, an edge stands before another when it is the smaller one. -/

section Sorted

variable {le : α → α → Prop} {edges : List α} {M : α → Prop}

theorem settled_of_sorted (hsorted : edges.Pairwise le) (hrefl : ∀ a, le a a)
    (hapart : ∀ p ∈ edges, ∀ c ∈ edges, M p → M c → Meets left right p c → p = c)
    (hblocked : ∀ c ∈ edges, ¬ M c → ∃ p ∈ edges, ¬ le c p ∧ M p ∧ Meets left right p c) :
    Settled left right edges M where
  apart := hapart
  blocked := by
    intro before c after hsplit hM
    obtain ⟨p, hp, hless, hMp, hmeets⟩ := hblocked c (hsplit ▸ List.mem_append_right _ (.head _)) hM
    refine ⟨p, ?_, hMp, hmeets⟩
    rw [hsplit, List.pairwise_append, List.pairwise_cons] at hsorted
    rcases List.mem_append.mp (hsplit ▸ hp) with hbefore | hafter
    · exact hbefore
    exfalso
    rcases List.mem_cons.mp hafter with rfl | hafter
    · exact hless (hrefl p)
    · exact hless (hsorted.2.1.1 p hafter)

theorem Settled.exists_le (h : Settled left right edges M) (hsorted : edges.Pairwise le) {c : α}
    (hc : c ∈ edges) (hM : ¬ M c) : ∃ p ∈ edges, le p c ∧ M p ∧ Meets left right p c := by
  obtain ⟨before, after, hsplit⟩ := List.append_of_mem hc
  obtain ⟨p, hp, hMp, hmeets⟩ := h.blocked before c after hsplit hM
  rw [hsplit, List.pairwise_append] at hsorted
  exact ⟨p, hsplit ▸ List.mem_append_left _ hp, hsorted.2.2 p hp c (.head _), hMp, hmeets⟩

end Sorted

end Matching
