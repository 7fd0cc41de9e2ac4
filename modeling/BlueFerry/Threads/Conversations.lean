import BlueFerry.Lib.Buckets
import BlueFerry.Groups.Rows
import BlueFerry.Threads.Build

/-! # The conversations of a list of rows

The loop of `buildThreads` is the sorting of messages into buckets by their key, so the rules of
`Buckets` describe its result: one conversation for each key, opened by the first message of the
key and extended by each later one. This module makes the connection and states what each step
leaves alone.
-/

namespace BlueFerry.Threads

open BlueFerry.Text
open BlueFerry.Groups

/-! ## What the steps leave alone -/

section Steps

variable {lib : Library} {resolver : Resolver}

section

variable (ev : Event)

section

variable (t : Thread)

@[simp]
theorem key_keepSpelling : (keepSpelling ev t).key = t.key := by
  unfold keepSpelling
  split
  · split <;> rfl
  · rfl

@[simp]
theorem isGroup_keepSpelling : (keepSpelling ev t).isGroup = t.isGroup := by
  unfold keepSpelling
  split
  · split <;> rfl
  · rfl

@[simp]
theorem key_nameAlphanumeric : (nameAlphanumeric lib ev t).key = t.key := by
  unfold nameAlphanumeric
  split <;> rfl

@[simp]
theorem isGroup_nameAlphanumeric : (nameAlphanumeric lib ev t).isGroup = t.isGroup := by
  unfold nameAlphanumeric
  split <;> rfl

@[simp]
theorem aliases_nameAlphanumeric : (nameAlphanumeric lib ev t).aliases = t.aliases := by
  unfold nameAlphanumeric
  split <;> rfl

@[simp]
theorem key_addMessage : (addMessage lib resolver ev t).key = t.key := by
  unfold addMessage
  dsimp only
  split <;> rfl

@[simp]
theorem isGroup_addMessage : (addMessage lib resolver ev t).isGroup = t.isGroup := by
  unfold addMessage
  dsimp only
  split <;> rfl

@[simp]
theorem aliases_addMessage : (addMessage lib resolver ev t).aliases = t.aliases := by
  unfold addMessage
  dsimp only
  split <;> rfl

@[simp]
theorem key_mergeGroup : (mergeGroup resolver ev t).key = t.key := by
  unfold mergeGroup
  dsimp only
  split <;> rfl

@[simp]
theorem isGroup_mergeGroup : (mergeGroup resolver ev t).isGroup = t.isGroup := by
  unfold mergeGroup
  dsimp only
  split <;> rfl

@[simp]
theorem aliases_mergeGroup : (mergeGroup resolver ev t).aliases = t.aliases := by
  unfold mergeGroup
  dsimp only
  split <;> rfl

@[simp]
theorem key_extendThread : (extendThread lib resolver ev t).key = t.key := by
  simp [extendThread]

@[simp]
theorem isGroup_extendThread : (extendThread lib resolver ev t).isGroup = t.isGroup := by
  simp [extendThread]

/-- Only the aliases decide which aliases a spelling is added to. -/
theorem aliases_keepSpelling_congr {t u : Thread} (h : t.aliases = u.aliases) :
    (keepSpelling ev t).aliases = (keepSpelling ev u).aliases := by
  unfold keepSpelling
  rw [h]
  split
  · split
    · rfl
    · exact h
  · exact h

theorem aliases_extendThread :
    (extendThread lib resolver ev t).aliases = (keepSpelling ev t).aliases := by
  rw [extendThread, aliases_addMessage]
  exact aliases_keepSpelling_congr ev (aliases_nameAlphanumeric ev t)

end

end

/-- What a message is merged into: the group's data first, then the message itself. -/
def mergeEvent (lib : Library) (resolver : Resolver) (ev : Event) (t : Thread) : Thread :=
  extendThread lib resolver ev (if isGroupEvent ev then mergeGroup resolver ev t else t)

@[simp]
theorem key_mergeEvent (ev : Event) (t : Thread) : (mergeEvent lib resolver ev t).key = t.key := by
  unfold mergeEvent
  split <;> simp

@[simp]
theorem isGroup_mergeEvent (ev : Event) (t : Thread) :
    (mergeEvent lib resolver ev t).isGroup = t.isGroup := by
  unfold mergeEvent
  split <;> simp

theorem aliases_mergeEvent (ev : Event) (t : Thread) :
    (mergeEvent lib resolver ev t).aliases = (keepSpelling ev t).aliases := by
  unfold mergeEvent
  rw [aliases_extendThread]
  split
  · exact aliases_keepSpelling_congr ev (aliases_mergeGroup ev t)
  · rfl

end Steps

/-! ## The loop as a sorting into buckets -/

/-- The key of a message, none for the rows that no conversation shows. -/
def messageKey (resolver : Resolver) (ev : Event) : Option Str :=
  if ev.kind.isMessage then threadKey resolver ev else none

section

variable (lib : Library) (resolver : Resolver)

/-- How the loop sorts. -/
def sorter : Buckets.Sorter Event Thread Str where
  keyOf := messageKey resolver
  label := Thread.key
  start := fun key ev => extendThread lib resolver ev (openThread resolver key ev)
  merge := mergeEvent lib resolver
  label_start := fun key ev => key_extendThread ev (openThread resolver key ev)
  label_merge := fun ev t => key_mergeEvent ev t

theorem bucket_eq_insert (byKey : List Thread) (ev : Event) :
    bucket lib resolver byKey ev = Buckets.insert (sorter lib resolver) byKey ev := by
  unfold bucket Buckets.insert sorter messageKey
  dsimp only
  by_cases hkind : ev.kind.isMessage = true
  · rw [if_pos hkind]
    simp only [hkind, Bool.not_true, Bool.false_eq_true, if_false]
    cases threadKey resolver ev with
    | none => rfl
    | some key => rfl
  · rw [if_neg hkind]
    simp only [Bool.not_eq_true] at hkind
    simp only [hkind, Bool.not_false, if_true]

theorem threadsByKey_eq_build (correlated : List Event) :
    threadsByKey lib resolver correlated = Buckets.build (sorter lib resolver) correlated := by
  unfold threadsByKey Buckets.build
  congr 1
  funext byKey ev
  exact bucket_eq_insert lib resolver byKey ev

end

/-- The messages of a conversation, in order. -/
def messagesOf (resolver : Resolver) (correlated : List Event) (key : Str) : List Event :=
  correlated.filter (fun ev => messageKey resolver ev = some key)

theorem mem_messagesOf {resolver : Resolver} {correlated : List Event} {key : Str} {ev : Event} :
    ev ∈ messagesOf resolver correlated key ↔
      ev ∈ correlated ∧ messageKey resolver ev = some key := by
  rw [messagesOf, List.mem_filter, decide_eq_true_eq]

section Loop

variable {lib : Library} {resolver : Resolver} {correlated : List Event}

theorem nodup_keys : ((threadsByKey lib resolver correlated).map Thread.key).Nodup := by
  rw [threadsByKey_eq_build]
  exact Buckets.nodup_build (S := sorter lib resolver) correlated

theorem nodup_threadsByKey : (threadsByKey lib resolver correlated).Nodup :=
  List.Nodup.of_map _ nodup_keys

theorem eq_of_key {t u : Thread} (ht : t ∈ threadsByKey lib resolver correlated)
    (hu : u ∈ threadsByKey lib resolver correlated) (h : t.key = u.key) : t = u := by
  rw [threadsByKey_eq_build] at ht hu
  exact Buckets.eq_of_label ht hu h

/-- Every message with a key is in the conversation of its key. -/
theorem exists_thread (lib : Library) {ev : Event} {key : Str} (hev : ev ∈ correlated)
    (hkey : messageKey resolver ev = some key) :
    ∃ t ∈ threadsByKey lib resolver correlated, t.key = key := by
  rw [threadsByKey_eq_build]
  exact Buckets.exists_bucket (S := sorter lib resolver) hev hkey

/-- **Conversation rule.** The first message of its key opens a conversation; what it has then,
and every later message keeps, it has at the end of the loop. -/
theorem thread_induction {t : Thread} (ht : t ∈ threadsByKey lib resolver correlated) :
    ∃ first rest, messagesOf resolver correlated t.key = first :: rest ∧
      ∀ P : Thread → Prop, P (extendThread lib resolver first (openThread resolver t.key first)) →
        (∀ ev ∈ rest, messageKey resolver ev = some t.key →
          ∀ t', P t' → P (mergeEvent lib resolver ev t')) → P t := by
  rw [threadsByKey_eq_build] at ht
  exact Buckets.bucket_induction ht

/-- A conversation is the fold of its messages. -/
theorem thread_fold {t : Thread} (ht : t ∈ threadsByKey lib resolver correlated) :
    ∃ first rest, messagesOf resolver correlated t.key = first :: rest ∧
      t = rest.foldl (fun t' ev => mergeEvent lib resolver ev t')
        (extendThread lib resolver first (openThread resolver t.key first)) := by
  rw [threadsByKey_eq_build] at ht
  exact Buckets.exists_fold ht

end Loop

end BlueFerry.Threads
