import BlueFerry.Groups.Names
import BlueFerry.Lib.Machine
import BlueFerry.Text.Json

/-! # The spellings that own a key

A roster that was saved under the folded key of a name is found, by `NamedGroupRoutes.route` as by whoever
applies it, only while that name is the one recorded spelling that folds to its key. The key of an unnamed
group shows who is in it.
-/

namespace BlueFerry.Groups

open BlueFerry.Text

variable {lib : Library}

/-! ## Folded keys -/

/-- The roster was saved under the older key of its name. -/
def SavedFolded (lib : Library) (roster : Stored) : Prop :=
  storedName lib roster ≠ [] ∧ roster.groupKey ≠ namedGroupKey lib (storedName lib roster)

/-- `spelling` is that of a recorded name, which folds to `legacy`. -/
def FoldsTo (lib : Library) (names : List Str) (legacy spelling : Str) : Prop :=
  ∃ name ∈ names, name ≠ [] ∧ legacyNamedGroupKey lib name = legacy ∧ nameOf lib name = spelling

namespace NamedGroupRoutes

variable {r : NamedGroupRoutes}

theorem names_addRoute (r : NamedGroupRoutes) (ev : Stored) : (addRoute lib r ev).names = r.names := by
  unfold addRoute
  split
  · rfl
  split
  · rfl
  · split <;> rfl

/-- A roster under a folded key is kept where the key has an owner, and under that name's key. -/
def Owned (lib : Library) (r : NamedGroupRoutes) : Prop :=
  ∀ key roster, (key, roster) ∈ r.routes → SavedFolded lib roster →
    key = namedGroupKey lib (storedName lib roster) ∧ aliases lib r (storedName lib roster) ≠ []

theorem routeKey_owned {ev : Stored} {key : Str} (hkey : routeKey lib r ev = some key)
    (hfolded : SavedFolded lib ev) :
    key = namedGroupKey lib (storedName lib ev) ∧ aliases lib r (storedName lib ev) ≠ [] := by
  unfold routeKey at hkey
  simp only [if_pos hfolded.1] at hkey
  split at hkey
  · nomatch hkey
  · next hnot =>
    exact ⟨(Option.some.inj hkey).symm, fun hnone => hnot ⟨hfolded.2, hnone⟩⟩

theorem Owned.addRoute (h : Owned lib r) (ev : Stored) : Owned lib (addRoute lib r ev) := by
  intro key roster hmem hfolded
  have haliases : ∀ name, aliases lib (NamedGroupRoutes.addRoute lib r ev) name = aliases lib r name := by
    intro name
    unfold aliases namesUnder
    rw [names_addRoute]
  rw [haliases]
  unfold NamedGroupRoutes.addRoute at hmem
  split at hmem
  · exact h key roster hmem hfolded
  split at hmem
  · exact h key roster hmem hfolded
  · next hkey =>
    split at hmem
    · rcases List.mem_cons.mp hmem with heq | hmem
      · obtain ⟨rfl, rfl⟩ := Prod.mk.inj heq
        exact routeKey_owned hkey hfolded
      · exact h key roster hmem hfolded
    · exact h key roster hmem hfolded

variable {events : List Stored} {observedNames : List Str}

theorem owned_ofEvents : Owned lib (ofEvents lib events observedNames) :=
  Machine.always (addRoute lib) (fun _ ev h => h.addRoute ev) events nofun

theorem mem_namesUnder {legacy spelling : Str} :
    spelling ∈ (ofEvents lib events observedNames).namesUnder legacy ↔
      FoldsTo lib (observedNames ++ events.map (storedName lib)) legacy spelling := by
  have hnames : (ofEvents lib events observedNames).names =
      ((observedNames ++ events.map (storedName lib)).filter (· ≠ [])).map
        (fun name => (legacyNamedGroupKey lib name, nameOf lib name)) :=
    Machine.always (P := fun r => r.names = _) (addRoute lib)
      (fun r ev h => (names_addRoute r ev).trans h) events rfl
  unfold namesUnder FoldsTo
  rw [hnames]
  generalize observedNames ++ events.map (storedName lib) = names
  simp [and_assoc]

/-- **The one spelling of a folded key.** -/
theorem foldsTo_iff {key : Str} {roster : Stored}
    (hroute : (ofEvents lib events observedNames).route key = some roster) (h : SavedFolded lib roster) :
    key = namedGroupKey lib (storedName lib roster) ∧ ∀ spelling,
      FoldsTo lib (observedNames ++ events.map (storedName lib))
        (legacyNamedGroupKey lib (storedName lib roster)) spelling ↔
        spelling = nameOf lib (storedName lib roster) := by
  obtain ⟨hkey, howned⟩ := owned_ofEvents key roster (mem_of_lookup hroute) h
  refine ⟨hkey, fun spelling => ?_⟩
  rw [← mem_namesUnder]
  unfold aliases at howned
  dsimp only at howned
  split at howned
  · next hknown =>
    obtain ⟨hsome, hall⟩ := hknown
    constructor
    · exact hall spelling
    · rintro rfl
      obtain ⟨known, hmem⟩ := List.exists_mem_of_ne_nil _ hsome
      exact hall known hmem ▸ hmem
  · exact absurd rfl howned

end NamedGroupRoutes

/-! ## The keys of unnamed groups -/

theorem sorted_eq_iff {xs ys : List Str} : sorted xs = sorted ys ↔ xs.Perm ys := by
  have hperm (values : List Str) : (sorted values).Perm values := List.perm_insertionSort _ values
  have hsorted (values : List Str) : (sorted values).Pairwise (· ≤ ·) :=
    List.pairwise_insertionSort (· ≤ ·) values
  constructor
  · intro heq
    exact (hperm xs).symm.trans (heq ▸ hperm ys)
  · intro hxs
    exact ((hperm xs).trans (hxs.trans (hperm ys).symm)).eq_of_pairwise' (hsorted xs) (hsorted ys)

/-- A digest that is injective, and the one the code takes of these texts. -/
def familyLibrary : Library :=
  let digest (text digest : String) : Equiv.Perm Str := Equiv.swap text.toList digest.toList
  { plainLibrary [] with
    dumps := dumpsList dumpsString
    digest := (digest "Family" "bd2d677b2ed4381b48bb1d0841052c6d076e7d634d5052e85dcbe0b8a0dedd80").trans
      ((digest "family" "d34a569ab7aaa54dacd715ae64953455d86b768846cd0085ef4e9e7471489b7b").trans
        (digest "[\"ann\", \"bob\"]" "d43a02a39f66e1f274c32702c161b385c4e43e9ddc202e7ee30a794b97064d9a")) }

end BlueFerry.Groups
