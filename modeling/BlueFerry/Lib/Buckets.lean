import Mathlib.Tactic

/-! # Buckets

A list of elements is sorted into buckets by key, in one pass. The first element of a key opens a
bucket (`start`), every later one is merged into it (`merge`), and an element without a key is
passed over. The buckets stand in the order in which they were opened.

`mem_build` describes the result without the pass: there is one bucket for each key, and it is
the fold of its own elements, in their order.
-/

namespace Buckets

variable {ε β κ : Type} [DecidableEq κ]

/-- How elements are sorted into buckets. -/
structure Sorter (ε β κ : Type) where
  keyOf : ε → Option κ
  label : β → κ
  start : κ → ε → β
  merge : ε → β → β
  label_start : ∀ k e, label (start k e) = k
  label_merge : ∀ e b, label (merge e b) = label b

variable (S : Sorter ε β κ)

/-- One element of the pass. -/
def insert (bs : List β) (e : ε) : List β :=
  match S.keyOf e with
  | none => bs
  | some k =>
    if bs.any (fun b => decide (S.label b = k)) then
      bs.map (fun b => if S.label b = k then S.merge e b else b)
    else bs ++ [S.start k e]

/-- The whole pass. -/
def build (es : List ε) : List β := es.foldl (insert S) []

/-- The elements of one key, in order. -/
def elements (es : List ε) (k : κ) : List ε := es.filter (fun e => S.keyOf e = some k)

/-- The bucket of a list of elements of one key. -/
def collect (k : κ) : List ε → Option β
  | [] => none
  | e :: es => some (es.foldl (fun b e => S.merge e b) (S.start k e))

omit [DecidableEq κ] in
theorem label_foldl (es : List ε) (b : β) :
    S.label (es.foldl (fun b e => S.merge e b) b) = S.label b := by
  induction es generalizing b with
  | nil => rfl
  | cons e es ih =>
    rw [List.foldl_cons, ih, S.label_merge]

variable {b : β} {es : List ε}

omit [DecidableEq κ] in
theorem label_collect {k : κ} (h : collect S k es = some b) : S.label b = k := by
  cases es with
  | nil => cases h
  | cons e es =>
    rw [collect, Option.some.injEq] at h
    rw [← h, label_foldl, S.label_start]

omit [DecidableEq κ] in
theorem collect_append {k : κ} (es : List ε) (e : ε) :
    collect S k (es ++ [e]) = some (((collect S k es).map (S.merge e)).getD (S.start k e)) := by
  cases es with
  | nil => rfl
  | cons f es =>
    rw [List.cons_append, collect, collect, List.foldl_append]
    rfl

theorem elements_append (es : List ε) (e : ε) (k : κ) :
    elements S (es ++ [e]) k = elements S es k ++ (if S.keyOf e = some k then [e] else []) := by
  rw [elements, elements, List.filter_append]
  by_cases h : S.keyOf e = some k
  · simp [h]
  · simp [h]

/-- What the pass keeps: the labels are distinct and each key has the fold of its elements. -/
structure Sorted (es : List ε) (bs : List β) : Prop where
  nodup : (bs.map S.label).Nodup
  mem : ∀ b, b ∈ bs ↔ collect S (S.label b) (elements S es (S.label b)) = some b

variable {S}

/-- There is a bucket for a key exactly when an element has it. -/
theorem Sorted.any_iff {bs : List β} (h : Sorted S es bs) (k : κ) :
    bs.any (fun b => decide (S.label b = k)) = true ↔ elements S es k ≠ [] := by
  rw [List.any_eq_true]
  constructor
  · rintro ⟨b, hb, hk⟩
    have hlabel : S.label b = k := of_decide_eq_true hk
    intro hnil
    have hcollect := (h.mem b).mp hb
    rw [hlabel, hnil] at hcollect
    cases hcollect
  intro hne
  rcases List.exists_cons_of_ne_nil hne with ⟨e, rest, hes⟩
  have hcollect : collect S k (elements S es k)
      = some (rest.foldl (fun b e => S.merge e b) (S.start k e)) := by
    rw [hes]
    rfl
  have hlabel := label_collect S hcollect
  refine ⟨_, (h.mem _).mpr ?_, decide_eq_true hlabel⟩
  rw [hlabel]
  exact hcollect

theorem Sorted.insert {bs : List β} (h : Sorted S es bs) (e : ε) :
    Sorted S (es ++ [e]) (insert S bs e) := by
  unfold Buckets.insert
  cases hkey : S.keyOf e with
  | none =>
    refine ⟨h.nodup, ?_⟩
    intro b
    rw [h.mem b, elements_append, hkey]
    simp
  | some k =>
    dsimp only
    have hlabels : ∀ b, S.label (if S.label b = k then S.merge e b else b) = S.label b := by
      intro b
      split
      · exact S.label_merge e b
      · rfl
    have hother : ∀ k', k' ≠ k → elements S (es ++ [e]) k' = elements S es k' := by
      intro k' hne
      rw [elements_append, hkey, if_neg (fun heq => hne (Option.some.inj heq).symm),
        List.append_nil]
    have hsame : elements S (es ++ [e]) k = elements S es k ++ [e] := by
      rw [elements_append, hkey, if_pos rfl]
    by_cases hany : bs.any (fun b => decide (S.label b = k)) = true
    · rw [if_pos hany]
      constructor
      · rw [List.map_map]
        have hcomp : (S.label ∘ fun b => if S.label b = k then S.merge e b else b) = S.label :=
          funext hlabels
        rw [hcomp]
        exact h.nodup
      intro b
      rw [List.mem_map]
      by_cases hb : S.label b = k
      · rw [hb, hsame, collect_append]
        constructor
        · rintro ⟨b', hb', rfl⟩
          have hk : S.label b' = k := (hlabels b').symm.trans hb
          have hcollect := (h.mem b').mp hb'
          rw [hk] at hcollect
          rw [if_pos hk, hcollect]
          rfl
        intro hcollect
        rcases List.any_eq_true.mp hany with ⟨b', hb', hk'⟩
        have hk : S.label b' = k := of_decide_eq_true hk'
        have hcollect' := (h.mem b').mp hb'
        rw [hk] at hcollect'
        rw [hcollect'] at hcollect
        refine ⟨b', hb', ?_⟩
        rw [if_pos hk]
        exact Option.some.inj hcollect
      · rw [hother _ hb, ← h.mem b]
        constructor
        · rintro ⟨b', hb', rfl⟩
          have hne : ¬ S.label b' = k := fun hk => hb ((hlabels b').trans hk)
          rw [if_neg hne]
          exact hb'
        · intro hmem
          exact ⟨b, hmem, if_neg hb⟩
    · rw [if_neg hany]
      have hnil : elements S es k = [] := by
        by_contra hne
        exact hany ((h.any_iff k).mpr hne)
      have hfresh : ∀ b ∈ bs, S.label b ≠ k := by
        intro b hb hk
        exact hany (List.any_eq_true.mpr ⟨b, hb, decide_eq_true hk⟩)
      constructor
      · rw [List.map_append, List.nodup_append]
        refine ⟨h.nodup, List.nodup_singleton _, ?_⟩
        intro a ha a' ha' heq
        rcases List.mem_map.mp ha with ⟨b, hb, rfl⟩
        rw [List.map_singleton, List.mem_singleton, S.label_start] at ha'
        exact hfresh b hb (heq.trans ha')
      intro b
      rw [List.mem_append, List.mem_singleton]
      by_cases hb : S.label b = k
      · rw [hb, hsame, hnil, List.nil_append]
        constructor
        · rintro (hmem | rfl)
          · exact absurd hb (hfresh b hmem)
          · rfl
        · intro hcollect
          exact Or.inr (Option.some.inj hcollect).symm
      rw [hother _ hb, ← h.mem b]
      constructor
      · rintro (hmem | rfl)
        · exact hmem
        · exact absurd (S.label_start k e) hb
      · exact Or.inl

/-- **The pass builds one bucket for each key.** -/
theorem sorted_build (es : List ε) : Sorted S es (build S es) := by
  induction es using List.reverseRecOn with
  | nil =>
    refine ⟨List.nodup_nil, ?_⟩
    intro b
    constructor
    · intro hb
      cases hb
    · intro hcollect
      cases hcollect
  | append_singleton es e ih =>
    have hstep : build S (es ++ [e]) = insert S (build S es) e := by
      rw [build, List.foldl_append]
      rfl
    rw [hstep]
    exact ih.insert e

theorem nodup_build (es : List ε) : ((build S es).map S.label).Nodup := (sorted_build es).nodup

/-- Every bucket is the fold of the elements of its key. -/
theorem exists_fold (hb : b ∈ build S es) : ∃ e rest, elements S es (S.label b) = e :: rest
      ∧ b = rest.foldl (fun b e => S.merge e b) (S.start (S.label b) e) := by
  have hcollect := ((sorted_build es).mem b).mp hb
  cases hes : elements S es (S.label b) with
  | nil =>
    rw [hes] at hcollect
    cases hcollect
  | cons e rest =>
    rw [hes, collect, Option.some.injEq] at hcollect
    exact ⟨e, rest, rfl, hcollect.symm⟩

/-- **Bucket rule.** A bucket was opened by the first element of its key; what the start has, and
every merge of an element of the key keeps, the bucket has. -/
theorem bucket_induction (hb : b ∈ build S es) : ∃ e rest, elements S es (S.label b) = e :: rest ∧
      ∀ P : β → Prop, P (S.start (S.label b) e) →
        (∀ f ∈ rest, S.keyOf f = some (S.label b) → ∀ b', P b' → P (S.merge f b')) → P b := by
  rcases exists_fold hb with ⟨e, rest, hes, heq⟩
  refine ⟨e, rest, hes, ?_⟩
  intro P hstart hmerge
  have hkeys : ∀ f ∈ rest, S.keyOf f = some (S.label b) := by
    intro f hf
    have hmem : f ∈ elements S es (S.label b) := hes ▸ List.mem_cons_of_mem e hf
    exact of_decide_eq_true (List.mem_filter.mp hmem).2
  have hfold : ∀ (l : List ε) (b' : β), (∀ f ∈ l, f ∈ rest) → P b' →
      P (l.foldl (fun b e => S.merge e b) b') := by
    intro l
    induction l with
    | nil =>
      intro b' _ hb'
      exact hb'
    | cons f l ih =>
      intro b' hl hb'
      have hf := hl f (.head _)
      apply ih
      · intro g hg
        exact hl g (List.mem_cons_of_mem f hg)
      · exact hmerge f hf (hkeys f hf) b' hb'
  rw [heq]
  exact hfold rest _ (fun f hf => hf) hstart

/-- Every element with a key is in the bucket of its key. -/
theorem exists_bucket {e : ε} {k : κ} (he : e ∈ es) (hk : S.keyOf e = some k) :
    ∃ b ∈ build S es, S.label b = k := by
  have hne : elements S es k ≠ [] :=
    List.ne_nil_of_mem (List.mem_filter.mpr ⟨he, decide_eq_true hk⟩)
  rcases List.any_eq_true.mp (((sorted_build es).any_iff k).mpr hne) with ⟨b, hb, hlabel⟩
  exact ⟨b, hb, of_decide_eq_true hlabel⟩

/-- Two buckets of one key are the same bucket. -/
theorem eq_of_label {b' : β} (hb : b ∈ build S es) (hb' : b' ∈ build S es)
    (h : S.label b = S.label b') : b = b' := by
  have h₁ := ((sorted_build es).mem b).mp hb
  have h₂ := ((sorted_build es).mem b').mp hb'
  rw [h] at h₁
  exact Option.some.inj (h₁.symm.trans h₂)

end Buckets
