import BlueFerry.Groups.Event

/-! # Contact blocks

`ContactsResolver` (`contacts.py`) indexes the identities that exactly one phonebook record owns:
the block of such an identity is the list of all identities that only this record owns. An
address resolves to a block when every known spelling of it agrees (`uniqueLookup`).

The spellings of an address (`address_identities`) come from the `phonenumbers` package and are
the parameter `identities`. `IdentityLookup` states what is assumed of them.
-/

namespace BlueFerry.Groups

open BlueFerry.Text

/-- `ContactRecord`: a name, phone numbers and email addresses. -/
structure ContactRecord where
  name : Str
  phones : List Str
  emails : List Str
  deriving DecidableEq

/-- `_identities`. -/
def identitiesOf (identities : Str → List Str) (record : ContactRecord) : List Str :=
  ((record.phones ++ record.emails).flatMap identities).dedup

section

variable (identities : Str → List Str) (records : List ContactRecord)

/-- `owners` of `_unique_addresses`: the positions of the records that own an identity. -/
def ownersOf (identity : Str) : List Nat :=
  (records.zipIdx.filter (fun p => identity ∈ identitiesOf identities p.1)).map Prod.snd

/-- `_unique_addresses` of one record, sorted. -/
def blockOf (owner : Nat) : List Str :=
  sorted (((records.flatMap (identitiesOf identities)).dedup).filter (fun identity =>
    ownersOf identities records identity = [owner]))

/-- `_thread_addresses`: none for an unknown identity, empty for one with several owners. -/
def threadIndex (identity : Str) : Option (List Str) :=
  match ownersOf identities records identity with
  | [] => none
  | [owner] => some (blockOf identities records owner)
  | _ :: _ :: _ => some []

/-- `_unique_lookup` with the empty block as default. -/
def uniqueLookup (identities : Str → List Str) (index : Str → Option (List Str)) (raw : Str) :
    List Str :=
  match ((identities raw).filterMap index).dedup with
  | [found] => found
  | _ => []

/-- `thread_addresses`. -/
def threadAddresses (raw : Str) : List Str :=
  uniqueLookup identities (threadIndex identities records) raw

/-- `_mem`: the names of the records that own an identity. -/
def namesOf (identity : Str) : List Str :=
  ((records.filter (fun r => r.name ≠ [] ∧ identity ∈ identitiesOf identities r)).map
    ContactRecord.name).dedup

/-- `resolve`: the one name that the spellings of an address have. -/
def resolve (raw : Str) : Option Str :=
  match ((identities raw).flatMap (namesOf identities records)).dedup with
  | [name] => some name
  | _ => none

end

/-- `find_by_name`: the addresses of the records whose name contains the query. -/
def findByName (lib : Library) (records : List ContactRecord) (query : Str) : List (Str × Str) :=
  let q := lib.lower (strip query)
  if q = [] then []
  else
    let seen := (records.filter (fun r => r.name ≠ [] ∧ q <:+: casefold r.name)).flatMap
      (fun r => (r.phones ++ r.emails).map (fun address => (r.name, address)))
    seen.dedup.insertionSort (fun a b =>
      casefold a.1 < casefold b.1 ∨ casefold a.1 = casefold b.1 ∧ a.2 ≤ b.2)

/-- `ContactsResolver` over the records of the phonebook. -/
def contactsResolver (lib : Library) (identities : Str → List Str) (records : List ContactRecord) :
    Resolver where
  findByName := findByName lib records
  resolve := resolve identities records
  threadAddresses := threadAddresses identities records

/-- What is assumed of the identity lookup: an address is known under its canonical form, and
that form decides its block. -/
structure IdentityLookup (identities : Str → List Str) (records : List ContactRecord) : Prop where
  canonical : ∀ a identity, canonicalAddress a = some identity → identity ∈ identities a
  block : ∀ a b identity, canonicalAddress a = some identity → canonicalAddress b = some identity →
    threadAddresses identities records a = threadAddresses identities records b

/-- Addresses that the package adds no form to are known under their canonical form alone. -/
theorem identityLookup_canonical (records : List ContactRecord) :
    IdentityLookup (fun raw => (canonicalAddress raw).toList) records where
  canonical := by
    intro a identity h
    simp [h]
  block := by
    intro a b identity ha hb
    unfold threadAddresses uniqueLookup
    simp only [ha, hb]

/-! ## Blocks -/

section Blocks

variable {identities : Str → List Str} {records : List ContactRecord}

variable {b identity raw : Str}

/-- The members of a block are indexed by it. -/
theorem threadIndex_of_mem {block : List Str}
    (h : threadIndex identities records identity = some block) (hb : b ∈ block) :
    threadIndex identities records b = some block := by
  unfold threadIndex at h
  split at h
  · cases h
  · next owner _ =>
    rw [Option.some.injEq] at h
    subst h
    have howned : ownersOf identities records b = [owner] := by
      have := List.of_mem_filter (mem_sorted.mp hb)
      exact of_decide_eq_true this
    unfold threadIndex
    rw [howned]
  · rw [Option.some.injEq] at h
    subst h
    cases hb

/-- Every indexed spelling of an address has the address's block. -/
theorem uniqueLookup_agrees {index : Str → Option (List Str)}
    (hne : uniqueLookup identities index raw ≠ []) (hid : identity ∈ identities raw)
    {block : List Str} (hblock : index identity = some block) :
    uniqueLookup identities index raw = block := by
  unfold uniqueLookup at hne ⊢
  split
  · next found hfound =>
    have hmem : block ∈ ((identities raw).filterMap index).dedup := by
      rw [List.mem_dedup, List.mem_filterMap]
      exact ⟨identity, hid, hblock⟩
    rw [hfound, List.mem_singleton] at hmem
    exact hmem.symm
  · next hother =>
    split at hne
    · next found hfound => exact absurd hfound (hother found)
    · exact absurd rfl hne

/-- A block that an address resolves to is the block of one of its spellings. -/
theorem exists_of_threadAddresses (hne : threadAddresses identities records raw ≠ []) :
    ∃ identity ∈ identities raw,
      threadIndex identities records identity = some (threadAddresses identities records raw) := by
  unfold threadAddresses uniqueLookup at hne ⊢
  split
  · next found hfound =>
    have hmem : found ∈ ((identities raw).filterMap (threadIndex identities records)).dedup := by
      rw [hfound]
      exact List.mem_singleton_self found
    rw [List.mem_dedup, List.mem_filterMap] at hmem
    exact hmem
  · next hother =>
    split at hne
    · next found hfound => exact absurd hfound (hother found)
    · exact absurd rfl hne

/-- The members of the block of an address are indexed by that block. -/
theorem threadIndex_of_block (hb : b ∈ threadAddresses identities records raw) :
    threadIndex identities records b = some (threadAddresses identities records raw) := by
  have hne : threadAddresses identities records raw ≠ [] := List.ne_nil_of_mem hb
  rcases exists_of_threadAddresses hne with ⟨identity, _, hindex⟩
  exact threadIndex_of_mem hindex hb

/-- **Blocks do not overlap.** -/
theorem block_eq_of_mem {a : Str} (ha : identity ∈ threadAddresses identities records a)
    (hb : identity ∈ threadAddresses identities records b) :
    threadAddresses identities records a = threadAddresses identities records b := by
  have h₁ := threadIndex_of_block ha
  have h₂ := threadIndex_of_block hb
  exact Option.some.inj (h₁.symm.trans h₂)

/-- An address whose canonical form lies in a block has that block, if it has one at all. -/
theorem block_eq_of_canonical (hlookup : IdentityLookup identities records) {a : Str}
    (hcanonical : canonicalAddress a = some identity)
    (hne : threadAddresses identities records a ≠ [])
    (hb : identity ∈ threadAddresses identities records b) :
    threadAddresses identities records a = threadAddresses identities records b :=
  uniqueLookup_agrees hne (hlookup.canonical a identity hcanonical) (threadIndex_of_block hb)

end Blocks

end BlueFerry.Groups
