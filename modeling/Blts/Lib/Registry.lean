import Mathlib.Data.List.Basic
import Mathlib.Data.List.Nodup

/-!
# Registries

A registry is a list of entries with distinct keys and a capacity.  Entries are
only ever appended, so the place of an entry is a name for it that stays valid;
an entry may be updated in place as long as its key is left alone.
-/

namespace Blts.Lib

/-- Entries with distinct keys, at most `cap` of them. -/
structure Registry {α κ : Type*} (key : α → κ) (cap : Nat) where
  entries : List α
  nodup : (entries.map key).Nodup
  bound : entries.length ≤ cap

namespace Registry

variable {α κ : Type*} [DecidableEq κ] {key : α → κ} {cap : Nat}

/-- The registry without entries. -/
def empty : Registry key cap where
  entries := []
  nodup := List.nodup_nil
  bound := Nat.zero_le cap

/-- The place of the entry with a key. -/
def find (r : Registry key cap) (k : κ) : Option Nat :=
  r.entries.findIdx? fun x => key x = k

theorem find_eq_none_iff {r : Registry key cap} {k : κ} :
    r.find k = none ↔ ∀ x ∈ r.entries, key x ≠ k := by
  simp [find, List.findIdx?_eq_none_iff]

/-- Keys are distinct, so that a key has one place. -/
theorem find_eq_some_iff {r : Registry key cap} {k : κ} {i : Nat} :
    r.find k = some i ↔ ∃ x, r.entries[i]? = some x ∧ key x = k := by
  unfold find
  rw [List.findIdx?_eq_some_iff_getElem]
  constructor
  · rintro ⟨hi, hkey, _⟩
    exact ⟨r.entries[i], List.getElem?_eq_getElem hi, of_decide_eq_true hkey⟩
  · rintro ⟨x, hx, hkey⟩
    obtain ⟨hi, hget⟩ := List.getElem?_eq_some_iff.mp hx
    refine ⟨hi, decide_eq_true (hget ▸ hkey), fun j hji hj => ?_⟩
    have hj' : key r.entries[j] = k := of_decide_eq_true hj
    have hmap : (r.entries.map key)[i]? = (r.entries.map key)[j]? := by
      rw [List.getElem?_map, List.getElem?_map, List.getElem?_eq_getElem hi,
        List.getElem?_eq_getElem (Nat.lt_trans hji hi), Option.map_some, Option.map_some,
        hj', hget, hkey]
    have hij := (List.getElem?_inj (by simpa using hi) r.nodup).mp hmap
    omega

/-- Append an entry, unless its key is taken or the registry is full. -/
def insert (r : Registry key cap) (x : α) : Option (Registry key cap) :=
  if h : r.entries.length < cap ∧ r.find (key x) = none then
    some {
      entries := r.entries ++ [x]
      nodup := by
        have hnew := find_eq_none_iff.mp h.2
        simpa [List.nodup_append, r.nodup] using fun y hy => hnew y hy
      bound := by
        rw [List.length_append]
        exact h.1 }
  else none

/-- The two ways an insertion is rejected. -/
theorem insert_eq_none_iff {r : Registry key cap} {x : α} :
    r.insert x = none ↔ ¬ (r.entries.length < cap ∧ r.find (key x) = none) := by
  unfold insert
  by_cases h : r.entries.length < cap ∧ r.find (key x) = none
  · rw [dif_pos h]
    exact iff_of_false (Option.some_ne_none _) (not_not_intro h)
  · rw [dif_neg h]
    exact iff_of_true rfl h

theorem entries_insert {r r' : Registry key cap} {x : α}
    (h : r.insert x = some r') : r'.entries = r.entries ++ [x] := by
  unfold insert at h
  split at h <;> cases h
  rfl

/-- What an insertion does to the keys. -/
theorem find_insert {r r' : Registry key cap} {x : α}
    (h : r.insert x = some r') (k : κ) :
    r'.find k = if key x = k then some r.entries.length else r.find k := by
  have hentries := entries_insert h
  by_cases hk : key x = k
  · rw [if_pos hk, find_eq_some_iff]
    exact ⟨x, by rw [hentries, List.getElem?_concat_length], hk⟩
  · rw [if_neg hk]
    simp [find, hentries, List.findIdx?_append, List.findIdx?_cons, hk]

/-- Change an entry without changing its key. -/
def update (r : Registry key cap) (i : Nat) (f : α → α)
    (hf : ∀ x, key (f x) = key x) : Registry key cap where
  entries := r.entries.modify i f
  nodup := by
    have hmap : (r.entries.modify i f).map key = r.entries.map key := by
      apply List.ext_getElem?
      intro j
      rw [List.getElem?_map, List.getElem?_map, List.getElem?_modify]
      split <;> cases r.entries[j]? <;> simp [hf]
    rw [hmap]
    exact r.nodup
  bound := by
    rw [List.length_modify]
    exact r.bound

theorem find_update (r : Registry key cap) (i : Nat) (f : α → α)
    (hf : ∀ x, key (f x) = key x) (k : κ) :
    (r.update i f hf).find k = r.find k := by
  have hplace (j : Nat) : (r.update i f hf).find k = some j ↔ r.find k = some j := by
    rw [find_eq_some_iff, find_eq_some_iff]
    simp only [update, List.getElem?_modify]
    by_cases hij : i = j
    · cases r.entries[j]? <;> simp [hij, hf]
    · cases r.entries[j]? <;> simp [hij]
  exact Option.ext hplace

end Registry

end Blts.Lib
