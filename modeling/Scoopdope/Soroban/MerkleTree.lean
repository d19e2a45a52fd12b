import Mathlib.Data.List.Basic

/-!
# Hash trees

Binary trees over a list of entries, for any leaf hash `leaf` and pair hash
`pair`, and the verifier that folds a proof, a list of sibling digests, onto the
digest of a leaf.

`climb_opening`: for a commutative pair hash the siblings on the path of an entry
are a proof of it. `climb_reaches`: if the pair hash can be steered to any
digest, every digest has a proof to every root.
-/

namespace Merkle

variable {E D : Type}

inductive Tree (E : Type)
  | leaf (e : E)
  | node (left right : Tree E)

/-- The entries, from left to right. -/
def Tree.entries : Tree E → List E
  | .leaf e => [e]
  | .node left right => left.entries ++ right.entries

section Hashes

variable (leaf : E → D) (pair : D → D → D)

def Tree.root : Tree E → D
  | .leaf e => leaf e
  | .node left right => pair (left.root) (right.root)

/-- Each entry with the siblings on its path, from the leaf up. -/
def Tree.openings : Tree E → List (E × List D)
  | .leaf e => [(e, [])]
  | .node left right =>
    left.openings.map (fun o => (o.1, o.2 ++ [right.root leaf pair])) ++
      right.openings.map fun o => (o.1, o.2 ++ [left.root leaf pair])

/-- The digest that a proof leads to. -/
def climb (digest : D) (proof : List D) : D := proof.foldl pair digest

variable {leaf pair}

/-- Every entry has an opening. -/
theorem Tree.openings_entries (t : Tree E) :
    (t.openings leaf pair).map Prod.fst = t.entries := by
  induction t with
  | leaf e => rfl
  | node left right hleft hright =>
    rw [openings, entries, List.map_append, List.map_map, List.map_map, ← hleft, ← hright]
    rfl

theorem climb_append (digest sibling : D) (proof : List D) :
    climb pair digest (proof ++ [sibling]) = pair (climb pair digest proof) sibling :=
  List.foldl_concat pair digest sibling proof

/-- The siblings on the path of an entry lead to the root. -/
theorem climb_opening (hcomm : ∀ a b, pair a b = pair b a) {t : Tree E} {o : E × List D}
    (ho : o ∈ t.openings leaf pair) : climb pair (leaf o.1) o.2 = t.root leaf pair := by
  induction t generalizing o with
  | leaf e =>
    rw [List.mem_singleton.mp ho]
    rfl
  | node left right hleft hright =>
    rcases List.mem_append.mp ho with hl | hr
    · obtain ⟨o', ho', rfl⟩ := List.mem_map.mp hl
      rw [climb_append, hleft ho']
      rfl
    · obtain ⟨o', ho', rfl⟩ := List.mem_map.mp hr
      rw [climb_append, hright ho', hcomm]
      rfl

/-- A pair hash that can be steered to any digest proves anything. -/
theorem climb_reaches (hsteer : ∀ a root, ∃ b, pair a b = root) (digest root : D) :
    ∃ proof, climb pair digest proof = root := by
  obtain ⟨sibling, h⟩ := hsteer digest root
  exact ⟨[sibling], h⟩

end Hashes

end Merkle
