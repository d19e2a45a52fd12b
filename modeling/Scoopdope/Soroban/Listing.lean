import Mathlib.Data.List.Nodup
import Scoopdope.Soroban.Table

/-!
# Lists kept as an index

A contract that cannot enumerate its storage keeps, for each key, a list of the
items related to it: the tokens of an owner, the courses of a student. A
`Listing` of a relation has the related items of each key, each of them once.

`pushItem` and `removeItem` are what contracts do to the lists in a table: append
an item, and take an item out by its position. `Listing.push` and `Listing.drop` say
which relation is listed afterwards.
-/

namespace Soroban

variable {A B : Type}

section Position

variable [DecidableEq B]

/-- `v.iter().position(|x| x == b)`. -/
def position (v : List B) (b : B) : Option Nat := v.findIdx? fun x => x == b

theorem eraseIdx_position {v : List B} {b : B} {pos : Nat} (h : position v b = some pos) :
    v.eraseIdx pos = v.erase b := by
  have hpos : v.findIdx? (fun x => x == b) = some pos := h
  rw [List.erase_eq_eraseP', List.eraseP_eq_eraseIdx, hpos]

theorem erase_of_position {v : List B} {b : B} (h : position v b = none) : v.erase b = v := by
  have hpos : v.findIdx? (fun x => x == b) = none := h
  rw [List.erase_eq_eraseP', List.eraseP_eq_eraseIdx, hpos]

end Position

section Stored

variable [DecidableEq A]

/-- The list under a key, empty where nothing is stored. -/
def listAt (t : Table A (List B)) (a : A) : List B := (t.get a).getD []

theorem listAt_empty (a : A) : listAt (∅ : Table A (List B)) a = [] := by
  rw [listAt, Table.get_empty]
  rfl

theorem listAt_set (t : Table A (List B)) (a : A) (v : List B) (a' : A) :
    listAt (t.set a v) a' = if a' = a then v else listAt t a' := by
  unfold listAt
  rw [Table.get_set]
  by_cases ha : a' = a
  · simp [ha]
  · simp [ha]

/-- The list is read, or taken to be empty, the item is put at its end, and the list is
written. -/
def pushItem (t : Table A (List B)) (a : A) (b : B) : Table A (List B) :=
  t.set a (listAt t a ++ [b])

theorem listAt_pushItem (t : Table A (List B)) (a : A) (b : B) (a' : A) :
    listAt (pushItem t a b) a' = if a' = a then listAt t a ++ [b] else listAt t a' :=
  listAt_set t a _ a'

variable [DecidableEq B]

/-- Where there is a list and the item is in it, the list is written without it. -/
def removeItem (t : Table A (List B)) (a : A) (b : B) : Table A (List B) :=
  match t.get a with
  | some v =>
    match position v b with
    | some pos => t.set a (v.eraseIdx pos)
    | none => t
  | none => t

theorem listAt_removeItem (t : Table A (List B)) (a : A) (b : B) (a' : A) :
    listAt (removeItem t a b) a' = if a' = a then (listAt t a).erase b else listAt t a' := by
  -- Nothing is written where there is nothing to take out.
  have hkeep : (listAt t a).erase b = listAt t a →
      listAt t a' = if a' = a then (listAt t a).erase b else listAt t a' := by
    intro herase
    split
    · next ha => rw [ha, herase]
    · rfl
  cases hlist : t.get a with
  | none =>
    have hsame : removeItem t a b = t := by simp only [removeItem, hlist]
    rw [hsame]
    exact hkeep (by simp [listAt, hlist])
  | some v =>
    have hv : listAt t a = v := by simp [listAt, hlist]
    cases hpos : position v b with
    | none =>
      have hsame : removeItem t a b = t := by simp only [removeItem, hlist, hpos]
      rw [hsame]
      exact hkeep (by rw [hv, erase_of_position hpos])
    | some pos =>
      have hset : removeItem t a b = t.set a (v.eraseIdx pos) := by
        simp only [removeItem, hlist, hpos]
      rw [hset, listAt_set, hv, eraseIdx_position hpos]

end Stored

/-- The list of each key has the items related to it, each once. -/
structure Listing (list : A → List B) (R : A → B → Prop) : Prop where
  nodup : ∀ a, (list a).Nodup
  mem_iff : ∀ a b, b ∈ list a ↔ R a b

namespace Listing

variable {list : A → List B} {R R' : A → B → Prop}

theorem empty [DecidableEq A] (hR : ∀ a b, ¬ R a b) :
    Listing (listAt (∅ : Table A (List B))) R := by
  refine ⟨fun a => ?_, fun a b => ?_⟩
  · rw [listAt_empty]
    exact List.nodup_nil
  · rw [listAt_empty]
    exact iff_of_false List.not_mem_nil (hR a b)

/-- A listing of a relation that holds of the same pairs. -/
theorem congr (h : Listing list R) (hR : ∀ a b, R' a b ↔ R a b) : Listing list R' := by
  refine ⟨h.nodup, fun a b => ?_⟩
  rw [hR]
  exact h.mem_iff a b

theorem count_eq_one [DecidableEq B] (h : Listing list R) {a : A} {b : B} (hR : R a b) :
    (list a).count b = 1 :=
  List.count_eq_one_of_mem (h.nodup a) ((h.mem_iff a b).mpr hR)

variable [DecidableEq A]

/-- An item that is new to its key is appended. -/
theorem push {t : Table A (List B)} (h : Listing (listAt t) R) {a : A} {b : B}
    (hnew : ¬ R a b) :
    Listing (listAt (pushItem t a b)) fun a' b' => R a' b' ∨ a' = a ∧ b' = b := by
  refine ⟨fun a' => ?_, fun a' b' => ?_⟩
  · rw [listAt_pushItem]
    split
    · refine List.nodup_append.mpr ⟨h.nodup a, List.nodup_singleton b, ?_⟩
      rintro x hx y hy rfl
      rw [List.mem_singleton.mp hy] at hx
      exact hnew ((h.mem_iff a b).mp hx)
    · exact h.nodup a'
  · rw [listAt_pushItem]
    split
    · next ha =>
      subst ha
      rw [List.mem_append, List.mem_singleton, h.mem_iff]
      exact or_congr_right ⟨fun hb => ⟨rfl, hb⟩, fun hb => hb.2⟩
    · next ha =>
      rw [h.mem_iff]
      exact ⟨.inl, fun hor => hor.resolve_right fun hb => ha hb.1⟩

/-- An item is removed from the list of a key. -/
theorem drop [DecidableEq B] {t : Table A (List B)} (h : Listing (listAt t) R) (a : A) (b : B) :
    Listing (listAt (removeItem t a b)) fun a' b' => R a' b' ∧ ¬ (a' = a ∧ b' = b) := by
  refine ⟨fun a' => ?_, fun a' b' => ?_⟩
  · rw [listAt_removeItem]
    split
    · exact (h.nodup a).erase b
    · exact h.nodup a'
  · rw [listAt_removeItem]
    split
    · next ha =>
      subst ha
      rw [(h.nodup a').mem_erase_iff, h.mem_iff]
      constructor
      · rintro ⟨hne, hb⟩
        exact ⟨hb, fun he => hne he.2⟩
      · rintro ⟨hb, hne⟩
        exact ⟨fun he => hne ⟨rfl, he⟩, hb⟩
    · next ha =>
      rw [h.mem_iff]
      exact ⟨fun hb => ⟨hb, fun he => ha he.1⟩, And.left⟩

end Listing

end Soroban
