import Mathlib.Data.Finset.Card
import Mathlib.Logic.Relation

/-! Registration of members under keys in a table of limited size. The table has
one entry for a key, whoever registered it, and a member that leaves takes the
entry of its key away. -/
namespace Braidpool.Runtime.Registry
variable {ι κ : Type*}

/-- The members now registered, each with its key, and the keys in the table. -/
structure State (ι κ : Type*) where
  members : Finset (ι × κ)
  keys : Finset κ

def empty : State ι κ := ⟨∅, ∅⟩

section
variable [DecidableEq ι] [DecidableEq κ]

/-- A member may enter while the table is below its capacity and `admissible`
agrees; leaving is always possible. -/
inductive Step (capacity : Nat) (admissible : State ι κ → κ → Prop) : State ι κ → State ι κ → Prop where
  | join {s : State ι κ} (i : ι) (k : κ) (room : s.keys.card < capacity)
      (new : ∀ l, (i, l) ∉ s.members) (ok : admissible s k) :
      Step capacity admissible s ⟨insert (i, k) s.members, insert k s.keys⟩
  | leave {s : State ι κ} (i : ι) (k : κ) (member : (i, k) ∈ s.members) :
      Step capacity admissible s ⟨s.members.erase (i, k), s.keys.erase k⟩

abbrev Steps (capacity : Nat) (admissible : State ι κ → κ → Prop) : State ι κ → State ι κ → Prop :=
  Relation.ReflTransGen (Step capacity admissible)

end

/-- The table respects its capacity, a member is registered once, and every
entry is vouched for by a member. -/
structure Sound [DecidableEq κ] (capacity : Nat) (s : State ι κ) : Prop where
  bounded : s.keys.card ≤ capacity
  unique : ∀ i k l, (i, k) ∈ s.members → (i, l) ∈ s.members → k = l
  vouched : s.keys ⊆ s.members.image Prod.snd

/-- Every member has its entry, and no two members share one. -/
structure Exact (s : State ι κ) : Prop where
  entered : ∀ i k, (i, k) ∈ s.members → k ∈ s.keys
  apart : ∀ i j k, (i, k) ∈ s.members → (j, k) ∈ s.members → i = j

/-- Admission under keys that are not in the table. -/
def Fresh (s : State ι κ) (k : κ) : Prop := k ∉ s.keys

theorem Exact.empty : Exact (empty : State ι κ) :=
  ⟨by simp [Registry.empty], by simp [Registry.empty]⟩

variable [DecidableEq κ]

theorem Sound.empty (capacity : Nat) : Sound capacity (empty : State ι κ) :=
  ⟨Nat.zero_le _, by simp [Registry.empty], by simp [Registry.empty]⟩

/-- There are at least as many members as entries. -/
theorem Sound.card_keys_le {capacity : Nat} {s : State ι κ} (hs : Sound capacity s) :
    s.keys.card ≤ s.members.card :=
  (Finset.card_le_card hs.vouched).trans Finset.card_image_le

/-- With exact entries the membership respects the capacity too. -/
theorem Exact.card_members_le {capacity : Nat} {s : State ι κ} (hx : Exact s) (hs : Sound capacity s) :
    s.members.card ≤ capacity := by
  have hinj : Set.InjOn Prod.snd (s.members : Set (ι × κ)) := by
    rintro ⟨i, k⟩ hi ⟨j, l⟩ hj (rfl : k = l)
    rw [hx.apart i j k hi hj]
  have hsub : s.members.image Prod.snd ⊆ s.keys := by
    intro k hk
    obtain ⟨⟨i, k⟩, hi, rfl⟩ := Finset.mem_image.mp hk
    exact hx.entered i k hi
  calc
    s.members.card = (s.members.image Prod.snd).card := (Finset.card_image_of_injOn hinj).symm
    _ ≤ s.keys.card := Finset.card_le_card hsub
    _ ≤ capacity := hs.bounded

variable [DecidableEq ι]

theorem Sound.step {capacity : Nat} {admissible : State ι κ → κ → Prop} {s t : State ι κ}
    (hs : Sound capacity s) (h : Step capacity admissible s t) : Sound capacity t := by
  cases h with
  | join i k room new ok =>
    refine ⟨(Finset.card_insert_le _ _).trans room, ?_, ?_⟩
    · intro j l m hl hm
      rcases Finset.mem_insert.mp hl with el | ol <;> rcases Finset.mem_insert.mp hm with em | om
      · rw [(Prod.mk.inj el).2, (Prod.mk.inj em).2]
      · obtain ⟨rfl, -⟩ := Prod.mk.inj el
        exact absurd om (new m)
      · obtain ⟨rfl, -⟩ := Prod.mk.inj em
        exact absurd ol (new l)
      · exact hs.unique j l m ol om
    · rw [Finset.image_insert]
      exact Finset.insert_subset_insert _ hs.vouched
  | leave i k member =>
    refine ⟨(Finset.card_erase_le).trans hs.bounded, ?_, ?_⟩
    · intro j l m hl hm
      exact hs.unique j l m (Finset.mem_of_mem_erase hl) (Finset.mem_of_mem_erase hm)
    · intro l hl
      obtain ⟨hne, hl⟩ := Finset.mem_erase.mp hl
      obtain ⟨⟨j, m⟩, hm, rfl⟩ := Finset.mem_image.mp (hs.vouched hl)
      refine Finset.mem_image.mpr ⟨(j, m), Finset.mem_erase.mpr ⟨?_, hm⟩, rfl⟩
      rintro heq
      exact hne (Prod.mk.inj heq).2

theorem Sound.steps {capacity : Nat} {admissible : State ι κ → κ → Prop} {s t : State ι κ}
    (hs : Sound capacity s) (h : Steps capacity admissible s t) : Sound capacity t := by
  induction h with
  | refl => exact hs
  | tail _ h ih => exact ih.step h

/-- A key that a member enters twice leaves the table smaller than the membership. -/
theorem Sound.card_keys_lt {capacity : Nat} {s : State ι κ} (hs : Sound capacity s) {i j : ι} {k : κ}
    (hij : i ≠ j) (hi : (i, k) ∈ s.members) (hj : (j, k) ∈ s.members) :
    s.keys.card < s.members.card := by
  have hsub : s.keys ⊆ (s.members.erase (i, k)).image Prod.snd := by
    intro l hl
    obtain ⟨⟨m, l⟩, hm, rfl⟩ := Finset.mem_image.mp (hs.vouched hl)
    by_cases heq : (m, l) = (i, k)
    · obtain ⟨rfl, rfl⟩ := Prod.mk.inj heq
      exact Finset.mem_image.mpr ⟨(j, l), Finset.mem_erase.mpr ⟨by simpa using hij.symm, hj⟩, rfl⟩
    · exact Finset.mem_image.mpr ⟨(m, l), Finset.mem_erase.mpr ⟨heq, hm⟩, rfl⟩
  calc
    s.keys.card ≤ ((s.members.erase (i, k)).image Prod.snd).card := Finset.card_le_card hsub
    _ ≤ (s.members.erase (i, k)).card := Finset.card_image_le
    _ < s.members.card := Finset.card_erase_lt_of_mem hi

/-- Under fresh admission the entries and the members stay in step. -/
theorem Exact.step {capacity : Nat} {s t : State ι κ} (hs : Exact s) (h : Step capacity Fresh s t) :
    Exact t := by
  cases h with
  | join i k room new ok =>
    constructor
    · intro j l hl
      rcases Finset.mem_insert.mp hl with el | ol
      · obtain ⟨-, rfl⟩ := Prod.mk.inj el
        exact Finset.mem_insert_self _ _
      · exact Finset.mem_insert_of_mem (hs.entered j l ol)
    · intro j m l hj hm
      rcases Finset.mem_insert.mp hj with ej | oj <;> rcases Finset.mem_insert.mp hm with em | om
      · rw [(Prod.mk.inj ej).1, (Prod.mk.inj em).1]
      · obtain ⟨-, rfl⟩ := Prod.mk.inj ej
        exact absurd (hs.entered m l om) ok
      · obtain ⟨-, rfl⟩ := Prod.mk.inj em
        exact absurd (hs.entered j l oj) ok
      · exact hs.apart j m l oj om
  | leave i k member =>
    constructor
    · intro j l hl
      obtain ⟨hne, ol⟩ := Finset.mem_erase.mp hl
      refine Finset.mem_erase.mpr ⟨?_, hs.entered j l ol⟩
      rintro rfl
      exact hne (by rw [hs.apart j i l ol member])
    · intro j m l hj hm
      exact hs.apart j m l (Finset.mem_of_mem_erase hj) (Finset.mem_of_mem_erase hm)

theorem Exact.steps {capacity : Nat} {s t : State ι κ} (hs : Exact s) (h : Steps capacity Fresh s t) :
    Exact t := by
  induction h with
  | refl => exact hs
  | tail _ h ih => exact ih.step h

end Braidpool.Runtime.Registry
