import Mathlib.Data.List.Nodup
import Scoopdope.Soroban.Listing
import Scoopdope.Soroban.Pages

/-!
# Registries

A contract that gives out the ids 1, 2, ... files a record under each of them and lists, for each
owner, the ids of the records of that owner. `Registered` says that all of it is read off one list,
the records in the order of their ids.

A new record goes under the next id and at the end of its owner's list (`Registered.push`). A
record can be written again as long as its id and its owner stay (`Registered.replace`). What the
readers of such a contract answer follows from `Registered` alone: which ids are in use, which
record is under an id, and the records of an owner in the order they were filed.
-/

namespace Soroban

/-- `get` has the records of `log` under the ids 1, 2, ..., `ids` has the ids of each owner, and
`next` is the first free id. -/
structure Registered {A V : Type} [DecidableEq A] (idOf : V → U64) (owner : V → A)
    (get : U64 → Option V) (ids : A → List U64) (next : Option U64) (log : List V) : Prop where
  filed : Filed 1 get log
  next : ∃ n, next = some n ∧ n.val = 1 + log.length
  numbered : ∀ (k : Nat) v, log[k]? = some v → (idOf v).val = 1 + (k : Int)
  owners : ∀ a, ids a = (log.filter fun v => owner v = a).map idOf

namespace Registered

variable {A V : Type} [DecidableEq A] {idOf : V → U64} {owner : V → A}
  {get get' : U64 → Option V} {ids ids' : A → List U64} {next next' : Option U64} {log : List V}

theorem empty : Registered idOf owner (fun _ => none) (fun _ => []) (some (.lit 1)) [] :=
  ⟨Filed.empty, ⟨.lit 1, rfl, rfl⟩, nofun, fun _ => rfl⟩

/-- The ids in use are those from 1 to below the next id. -/
theorem isSome_iff (h : Registered idOf owner get ids next log) (id : U64) :
    (get id).isSome ↔ 1 ≤ id.val ∧ ∃ n, next = some n ∧ id.val < n.val := by
  obtain ⟨n, hn, hlen⟩ := h.next
  rw [h.filed.isSome_iff, hn]
  constructor
  · rintro ⟨hlo, hlt⟩
    exact ⟨hlo, n, rfl, by omega⟩
  · rintro ⟨hlo, m, hm, hlt⟩
    cases hm
    exact ⟨hlo, by omega⟩

/-- The next id is free. -/
theorem get_next (h : Registered idOf owner get ids next log) {n : U64} (hn : next = some n) :
    get n = none := by
  rw [← Option.not_isSome_iff_eq_none, h.isSome_iff]
  rintro ⟨-, m, hm, hlt⟩
  cases hn.symm.trans hm
  exact lt_irrefl _ hlt

theorem get_of_mem (h : Registered idOf owner get ids next log) {v : V} (hv : v ∈ log) :
    get (idOf v) = some v := by
  obtain ⟨k, hk⟩ := List.mem_iff_getElem?.mp hv
  have hnum := h.numbered k v hk
  exact h.filed.get_of_getElem? (by omega) hk

/-- The place of a record in the list. -/
theorem getElem?_of_get (h : Registered idOf owner get ids next log) {id : U64} {v : V}
    (hv : get id = some v) : log[(id.val - 1).toNat]? = some v ∧ 1 ≤ id.val ∧ idOf v = id := by
  have hget := h.filed id
  rw [hv] at hget
  split at hget
  · next hid =>
    have hlog := hget.symm
    rw [Nat.cast_one] at hlog hid
    refine ⟨hlog, hid, BoundedInt.ext ?_⟩
    have hnum := h.numbered _ v hlog
    omega
  · cases hget

theorem get_iff (h : Registered idOf owner get ids next log) (id : U64) (v : V) :
    get id = some v ↔ v ∈ log ∧ idOf v = id := by
  constructor
  · intro hv
    obtain ⟨hlog, -, hid⟩ := h.getElem?_of_get hv
    exact ⟨List.mem_of_getElem? hlog, hid⟩
  · rintro ⟨hv, rfl⟩
    exact h.get_of_mem hv

/-- No id is given out twice. -/
theorem nodup (h : Registered idOf owner get ids next log) : (log.map idOf).Nodup := by
  refine List.nodup_iff_getElem?_ne_getElem?.mpr fun j k hjk hk heq => ?_
  rw [List.length_map] at hk
  have hj := lt_trans hjk hk
  rw [List.getElem?_map, List.getElem?_map, List.getElem?_eq_getElem hk,
    List.getElem?_eq_getElem hj] at heq
  have hidj := h.numbered j _ (List.getElem?_eq_getElem hj)
  have hidk := h.numbered k _ (List.getElem?_eq_getElem hk)
  have hid := congrArg BoundedInt.val (Option.some.inj heq)
  omega

/-- Looking up the ids of an owner reads the records of that owner. -/
theorem filterMap_ids (h : Registered idOf owner get ids next log) (a : A) :
    (ids a).filterMap get = log.filter fun v => owner v = a := by
  rw [h.owners, List.filterMap_map]
  refine (List.filterMap_congr fun v hv => ?_).trans List.filterMap_some
  exact h.get_of_mem (List.mem_of_mem_filter hv)

/-- A new record, under the next id and at the end of its owner's list. -/
theorem push (h : Registered idOf owner get ids next log) {v : V} {n : U64}
    (hid : next = some (idOf v)) (hnext : next' = some n) (hn : n.val = (idOf v).val + 1)
    (hget : ∀ id, get' id = if id = idOf v then some v else get id)
    (hids : ∀ a, ids' a = if a = owner v then ids a ++ [idOf v] else ids a) :
    Registered idOf owner get' ids' next' (log ++ [v]) := by
  obtain ⟨m, hm, hlen⟩ := h.next
  cases hid.symm.trans hm
  refine ⟨h.filed.push hlen v hget, ⟨n, hnext, ?_⟩, fun k w hk => ?_, fun a => ?_⟩
  · rw [List.length_append, List.length_singleton]
    omega
  · rw [List.getElem?_append] at hk
    split at hk
    · exact h.numbered k w hk
    · next hge =>
      obtain ⟨hzero, hw⟩ := List.getElem?_eq_some_iff.mp hk
      rw [List.length_singleton] at hzero
      rw [List.getElem_singleton] at hw
      rw [← hw]
      omega
  · rw [hids, List.filter_append, List.map_append, ← h.owners]
    by_cases ha : a = owner v
    · simp [ha]
    · simp [ha, Ne.symm ha]

/-- A record written again with the id and the owner it has. -/
theorem replace (h : Registered idOf owner get ids next log) {v w : V}
    (hv : get (idOf v) = some v) (hid : idOf w = idOf v) (howner : owner w = owner v)
    (hget : ∀ id, get' id = if id = idOf v then some w else get id) :
    Registered idOf owner get' ids next (log.set ((idOf v).val - 1).toNat w) := by
  obtain ⟨hlog, hlo, -⟩ := h.getElem?_of_get hv
  obtain ⟨hlt, hat⟩ := List.getElem?_eq_some_iff.mp hlog
  refine ⟨fun id => ?_, ?_, fun k x hk => ?_, fun a => ?_⟩
  · rw [hget, List.getElem?_set, Nat.cast_one]
    by_cases he : id = idOf v
    · rw [if_pos he, he, if_pos hlo, if_pos rfl, if_pos hlt]
    · have hval : id.val ≠ (idOf v).val := fun hv => he (BoundedInt.ext hv)
      rw [if_neg he, h.filed id, Nat.cast_one]
      split
      · rw [if_neg (by omega)]
      · rfl
  · rw [List.length_set]
    exact h.next
  · rw [List.getElem?_set] at hk
    split at hk
    · next heq =>
      subst heq
      cases hk
      rw [hid]
      omega
    · exact h.numbered k x hk
  · -- The ids of an owner are read from the owners and ids of the list, which stay.
    have hkeep : (log.set ((idOf v).val - 1).toNat w).map (fun x => (owner x, idOf x)) =
        log.map fun x => (owner x, idOf x) := by
      refine List.ext_getElem? fun k => ?_
      rw [List.getElem?_map, List.getElem?_map, List.getElem?_set]
      split
      · next heq => rw [← heq, hlog, Option.map_some, Option.map_some, hid, howner]
      · rfl
    have hread : ∀ l : List V, (l.filter fun x => owner x = a).map idOf =
        ((l.map fun x => (owner x, idOf x)).filter fun p => p.1 = a).map Prod.snd := by
      intro l
      rw [List.filter_map, List.map_map]
      rfl
    rw [h.owners, hread, hread, hkeep]

end Registered

end Soroban
