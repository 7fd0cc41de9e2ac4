import BlueFerry.Threads.Direct

/-! # What the conversations show

`build_threads` correlates the rows of the history, puts each message into the conversation of its
key, and shows the newest ones of each. On the way no row is lost, moved or taken twice, and none is
shown with another text, time or sender than it was stored with.
-/

namespace BlueFerry.Threads

open BlueFerry.Text
open BlueFerry.Groups

/-- **Correlation changes the group data of the rows only**: as many rows leave as have entered, in
their order, and each message shows the handle, text, time and address of its row. -/
theorem correlation_keeps_rows (lib : Library) (resolver : Resolver) (events : List Stored) :
    List.Forall₂ (fun s e => SameRow s e ∧ (messageOf resolver e).handle = s.handle ∧
        (messageOf resolver e).body = s.body ∧ (messageOf resolver e).timestamp = eventTime s ∧
        (messageOf resolver e).address = (safeEventAddress s).getD [])
      events (correlateGroupEvents lib resolver events) := by
  have hpasses : Passes lib events (fun _ _ => True) := by constructor <;> intros <;> trivial
  refine (hpasses.correlated resolver).imp fun s e h => ?_
  refine ⟨h.1, h.1.field Stored.handle (fun _ => rfl), h.1.field Stored.body (fun _ => rfl),
    h.1.field eventTime (fun _ => rfl), ?_⟩
  exact congrArg (Option.getD · []) h.1.safeEventAddress

theorem shown_settle (lib : Library) (byKey : List Thread) (t : Thread) :
    (settle lib byKey t).messages =
        (inOrder lib t.messages).drop (t.messages.length - maxThreadMessages) ∧
      ((settle lib byKey t).messagesTruncated = true ↔ maxThreadMessages < t.messages.length) := by
  have hsingle : ∀ u : Thread, (settleSingle lib byKey u).messages = u.messages := by
    intro u
    unfold settleSingle
    split
    · rfl
    dsimp only
    split
    · rfl
    · split <;> rfl
  unfold settle inOrder
  simp only [hsingle, List.length_insertionSort, decide_eq_true_eq, true_and]

/-- **No message is lost and none is shown twice.** Every history has one conversation for each key of
its messages, and a conversation shows the newest messages of its key, up to the limit, in order. -/
theorem conversations_complete (lib : Library) (resolver : Resolver) (events : List Stored) :
    ((buildThreads lib resolver events).map Thread.key).Nodup ∧
    (∀ ev ∈ correlateGroupEvents lib resolver events, ∀ key, messageKey resolver ev = some key →
      ∃ t ∈ buildThreads lib resolver events, t.key = key) ∧
    ∀ t ∈ buildThreads lib resolver events,
      let all := (messagesOf resolver (correlateGroupEvents lib resolver events) t.key).map
        (messageOf resolver)
      all ≠ [] ∧ t.messages = (inOrder lib all).drop (all.length - maxThreadMessages) ∧
        (t.messagesTruncated = true ↔ maxThreadMessages < all.length) := by
  refine ⟨?_, fun ev hev key hkey => ?_, fun t ht => ?_⟩
  · unfold buildThreads sortThreads
    rw [((List.perm_insertionSort _ _).map Thread.key).nodup_iff, List.map_map, List.map_map]
    simp only [Function.comp_def, key_settle]
    exact nodup_keys
  · obtain ⟨u, hu, hkey'⟩ := exists_thread lib hev hkey
    refine ⟨_, mem_sortThreads.mpr ⟨_, List.mem_map_of_mem hu, rfl⟩, ?_⟩
    dsimp only
    rw [key_settle, hkey']
  · obtain ⟨s, hs, rfl⟩ := mem_sortThreads.mp ht
    obtain ⟨u, hu, rfl⟩ := List.mem_map.mp hs
    obtain ⟨first, rest, hmessages, -⟩ := thread_fold hu
    dsimp only
    rw [key_settle, ← messages_threadsByKey hu]
    refine ⟨?_, shown_settle lib _ u⟩
    rw [messages_threadsByKey hu, hmessages]
    exact List.cons_ne_nil _ _

end BlueFerry.Threads
