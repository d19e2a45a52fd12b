import Mathlib.Algebra.BigOperators.Group.List.Basic
import Mathlib.Algebra.Ring.Int.Defs
import Mathlib.Data.List.Pairwise

/-!
# Ballots

The ballots cast so far, newest first. A ballot is cast by a voter on the
question with an id, for or against, with a weight.

`tally` adds up the weights on one side of a question, `Once` says that nobody
has two ballots on one question, and `Recorded` that a box keeps one vote for each
ballot. A vote can be added where the box has none (`Recorded.cons`).
-/

namespace Voting

structure Ballot (Id Voter : Type) where
  id : Id
  voter : Voter
  support : Bool
  weight : ℤ

variable {Id Voter : Type} [DecidableEq Id]

/-- The weight on one side of a question. -/
def tally (ballots : List (Ballot Id Voter)) (id : Id) (support : Bool) : ℤ :=
  ((ballots.filter fun b => b.id = id ∧ b.support = support).map Ballot.weight).sum

theorem tally_cons (b : Ballot Id Voter) (ballots : List (Ballot Id Voter)) (id : Id)
    (support : Bool) : tally (b :: ballots) id support =
      tally ballots id support + if b.id = id ∧ b.support = support then b.weight else 0 := by
  unfold tally
  rw [List.filter_cons]
  by_cases h : b.id = id ∧ b.support = support
  · rw [if_pos (by simpa using h), if_pos h, List.map_cons, List.sum_cons, Int.add_comm]
  · rw [if_neg (by simpa using h), if_neg h, Int.add_zero]

/-- A question nobody has voted on. -/
theorem tally_eq_zero {ballots : List (Ballot Id Voter)} {id : Id}
    (h : ∀ b ∈ ballots, b.id ≠ id) (support : Bool) : tally ballots id support = 0 := by
  have hnil : (ballots.filter fun b => b.id = id ∧ b.support = support) = [] := by
    rw [List.filter_eq_nil_iff]
    intro b hb
    have := h b hb
    simp [this]
  rw [tally, hnil]
  rfl

omit [DecidableEq Id] in
/-- Nobody has voted twice on one question. -/
def Once (ballots : List (Ballot Id Voter)) : Prop :=
  ballots.Pairwise fun b c => ¬ (b.id = c.id ∧ b.voter = c.voter)

/-- The votes kept are the ballots, one for each voter and question. -/
structure Recorded (vote : Id × Voter → Option Bool) (ballots : List (Ballot Id Voter)) :
    Prop where
  once : Once ballots
  recorded : ∀ id voter support, vote (id, voter) = some support ↔
    ∃ b ∈ ballots, b.id = id ∧ b.voter = voter ∧ b.support = support

omit [DecidableEq Id] in
theorem Recorded.empty : Recorded (fun _ : Id × Voter => none) [] :=
  ⟨List.Pairwise.nil, fun _ _ _ => ⟨nofun, fun ⟨_, hb, _⟩ => absurd hb List.not_mem_nil⟩⟩

variable [DecidableEq Voter] {vote vote' : Id × Voter → Option Bool}
  {ballots : List (Ballot Id Voter)}

theorem Recorded.cons (h : Recorded vote ballots) {b : Ballot Id Voter}
    (hfresh : vote (b.id, b.voter) = none)
    (hvote : ∀ k, vote' k = if k = (b.id, b.voter) then some b.support else vote k) :
    Recorded vote' (b :: ballots) := by
  have hnone : ∀ c ∈ ballots, ¬ (c.id = b.id ∧ c.voter = b.voter) := by
    rintro c hc ⟨hid, hvoter⟩
    have hcast := (h.recorded b.id b.voter c.support).mpr ⟨c, hc, hid, hvoter, rfl⟩
    rw [hfresh] at hcast
    cases hcast
  refine ⟨List.Pairwise.cons (fun c hc he => hnone c hc ⟨he.1.symm, he.2.symm⟩) h.once, ?_⟩
  intro id voter support
  rw [hvote]
  split
  · next he =>
    cases he
    constructor
    · intro hs
      exact ⟨b, List.mem_cons_self, rfl, rfl, Option.some.inj hs⟩
    · rintro ⟨c, hc, hid, hvoter, hs⟩
      rcases List.mem_cons.mp hc with rfl | hc
      · exact congrArg some hs
      · exact absurd ⟨hid, hvoter⟩ (hnone c hc)
  · next he =>
    rw [h.recorded]
    constructor
    · rintro ⟨c, hc, hs⟩
      exact ⟨c, List.mem_cons_of_mem _ hc, hs⟩
    · rintro ⟨c, hc, hid, hvoter, hs⟩
      rcases List.mem_cons.mp hc with rfl | hc
      · exact absurd (by rw [← hid, ← hvoter]) he
      · exact ⟨c, hc, hid, hvoter, hs⟩

end Voting
