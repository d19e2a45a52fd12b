import Scoopdope.Governance.Polls
import Scoopdope.Soroban.History

/-!
# Governance: the tallies

The ballots of a run are the accepted votes, each with the balance that was read
when it was cast. `Polled` ties the storage to them: ids are drawn from the
counter, so that no id is ever used twice or by both kinds; the tallies of a
poll are the tallies of the ballots on its id; the recorded votes are the
ballots, one for each voter and id.
-/

namespace Scoopdope.Governance

open Soroban Voting

variable {Address : Type} [DecidableEq Address]

/-- The ballots cast by the accepted calls of a run, newest first. -/
def ballots (s₀ : Storage Address) : List (Input Address) → List (Ballot U64 Address)
  | [] => []
  | i :: past =>
    match exec (after exec s₀ past) i with
    | .ok _ => (ballotOf (after exec s₀ past) i).toList ++ ballots s₀ past
    | .error _ => ballots s₀ past

/-- The storage holds what the ballots say. -/
structure Polled (s : Storage Address) (cast : List (Ballot U64 Address)) : Prop where
  admin : ∃ admin, s.admin = some admin
  counter : ∃ next, s.nextProposalId = some next ∧
    ∀ kind id p, s.poll kind id = some p → id.val < next.val
  kinds : ∀ kind kind' id p q, s.poll kind id = some p → s.poll kind' id = some q → kind = kind'
  asked : ∀ b ∈ cast, ∃ kind p, s.poll kind b.id = some p
  tallied : ∀ kind id p, s.poll kind id = some p →
    p.votesFor.val = tally cast id true ∧ p.votesAgainst.val = tally cast id false
  once : Once cast
  recorded : ∀ id voter support, s.vote.get (id, voter) = some support ↔
    ∃ b ∈ cast, b.id = id ∧ b.voter = voter ∧ b.support = support

theorem Initialised.polled {timelockLedgers : U32} {s₀ : Storage Address}
    (h : Initialised timelockLedgers s₀) : Polled s₀ [] := by
  obtain ⟨env, admin, tokenContract, h⟩ := h
  obtain ⟨_, _, _, rfl⟩ := initializeContract_ok.mp h
  -- there are no polls, no ballots and no recorded votes
  have hnone : ∀ (s : Storage Address) (kind : Kind) (id : U64) (p : Poll), s.proposal = ∅ →
      s.upgradeProposal = ∅ → s.poll kind id ≠ some p := by
    intro s kind id p hp hu hsome
    cases kind with
    | proposal =>
      rw [Storage.poll, hp, Table.get_empty] at hsome
      cases hsome
    | upgrade =>
      rw [Storage.poll, hu, Table.get_empty] at hsome
      cases hsome
  refine ⟨⟨admin, rfl⟩, ⟨_, rfl, ?_⟩, ?_, fun _ hb => absurd hb List.not_mem_nil, ?_,
    List.Pairwise.nil, ?_⟩
  · intro kind id p hp
    exact absurd hp (hnone _ kind id p rfl rfl)
  · intro kind kind' id p q hp
    exact absurd hp (hnone _ kind id p rfl rfl)
  · intro kind id p hp
    exact absurd hp (hnone _ kind id p rfl rfl)
  · intro id voter support
    constructor
    · intro h
      exact absurd h Table.get_empty_ne_some
    · rintro ⟨b, hb, _⟩
      cases hb

section Steps

variable {s s' : Storage Address} {i : Input Address} {cast : List (Ballot U64 Address)}

/-- A poll under the next id is new: there is none of either kind, and no ballot. -/
theorem Polled.next_fresh (hs : Polled s cast) {id : U64} (hnext : s.nextProposalId = some id) :
    (∀ kind, s.poll kind id = none) ∧ ∀ b ∈ cast, b.id ≠ id := by
  obtain ⟨next, hn, hlt⟩ := hs.counter
  rw [hnext] at hn
  cases hn
  have hnone : ∀ kind, s.poll kind id = none := by
    intro kind
    cases hp : s.poll kind id with
    | none => rfl
    | some p => exact absurd (hlt kind id p hp) (lt_irrefl _)
  refine ⟨hnone, fun b hb he => ?_⟩
  obtain ⟨kind, p, hp⟩ := hs.asked b hb
  rw [he, hnone] at hp
  cases hp

/-- A poll stays under its id. -/
theorem poll_kept {polls : Kind → U64 → Option Poll} {kind k : Kind} {id x : U64} {p q : Poll}
    (h : polls k x = some q) : ∃ q', pollSet polls kind id p k x = some q' := by
  by_cases hk : k = kind ∧ x = id
  · exact ⟨p, if_pos hk⟩
  · exact ⟨q, (if_neg hk).trans h⟩

theorem Polled.opens (hs : Polled s cast) {kind : Kind} {id nextId : U64} {p : Poll}
    (hadmin : ∃ admin, s'.admin = some admin) (hnext : s.nextProposalId = some id)
    (hsucc : nextId.val = id.val + 1) (hnext' : s'.nextProposalId = some nextId)
    (hf : p.votesFor.val = 0) (ha : p.votesAgainst.val = 0)
    (hpoll : s'.poll = pollSet s.poll kind id p) (hvote : s'.vote = s.vote) :
    Polled s' cast := by
  obtain ⟨hnone, hnew⟩ := hs.next_fresh hnext
  obtain ⟨next, hn, hlt⟩ := hs.counter
  rw [hnext] at hn
  cases hn
  refine ⟨hadmin, ⟨nextId, hnext', ?_⟩, ?_, ?_, ?_, hs.once, ?_⟩
  · intro k x q hq
    rw [hpoll] at hq
    rcases pollSet_eq_some hq with ⟨_, rfl, _⟩ | ⟨_, hq⟩
    · omega
    · have := hlt k x q hq
      omega
  · intro k k' x q q' hq hq'
    rw [hpoll] at hq hq'
    rcases pollSet_eq_some hq with ⟨rfl, rfl, _⟩ | ⟨_, hold⟩
    · rcases pollSet_eq_some hq' with ⟨rfl, _, _⟩ | ⟨_, hold'⟩
      · rfl
      · rw [hnone] at hold'
        cases hold'
    · rcases pollSet_eq_some hq' with ⟨_, rfl, _⟩ | ⟨_, hold'⟩
      · rw [hnone] at hold
        cases hold
      · exact hs.kinds k k' x q q' hold hold'
  · intro b hb
    obtain ⟨k, q, hq⟩ := hs.asked b hb
    rw [hpoll]
    exact ⟨k, poll_kept hq⟩
  · intro k x q hq
    rw [hpoll] at hq
    rcases pollSet_eq_some hq with ⟨_, rfl, rfl⟩ | ⟨_, hq⟩
    · rw [hf, ha, tally_eq_zero hnew, tally_eq_zero hnew]
      exact ⟨rfl, rfl⟩
    · exact hs.tallied k x q hq
  · rw [hvote]
    exact hs.recorded

/-- A voter without a recorded vote has no ballot. -/
theorem Polled.no_ballot (hs : Polled s cast) {id : U64} {voter : Address}
    (hfresh : s.vote.get (id, voter) = none) : ∀ b ∈ cast, ¬ (b.id = id ∧ b.voter = voter) := by
  rintro b hb ⟨hid, hvoter⟩
  have hvote := (hs.recorded id voter b.support).mpr ⟨b, hb, hid, hvoter, rfl⟩
  rw [hfresh] at hvote
  cases hvote

/-- The recorded votes with a new one are the ballots with its ballot. -/
theorem Polled.recorded_cons (hs : Polled s cast) {id : U64} {voter : Address}
    (hfresh : s.vote.get (id, voter) = none) (support : Bool) (weight : ℤ) (x : U64) (v : Address)
    (sup : Bool) : (s.vote.set (id, voter) support).get (x, v) = some sup ↔
      ∃ b ∈ ⟨id, voter, support, weight⟩ :: cast, b.id = x ∧ b.voter = v ∧ b.support = sup := by
  rw [Table.get_set]
  split
  · next he =>
    cases he
    constructor
    · intro h
      cases h
      exact ⟨_, List.mem_cons_self, rfl, rfl, rfl⟩
    · rintro ⟨b, hb, hid, hvoter, hsup⟩
      rcases List.mem_cons.mp hb with rfl | hb
      · exact congrArg some hsup
      · exact absurd ⟨hid, hvoter⟩ (hs.no_ballot hfresh b hb)
  · next he =>
    rw [hs.recorded]
    constructor
    · rintro ⟨b, hb, h⟩
      exact ⟨b, List.mem_cons_of_mem _ hb, h⟩
    · rintro ⟨b, hb, hid, hvoter, hsup⟩
      rcases List.mem_cons.mp hb with rfl | hb
      · exact absurd (by rw [← hid, ← hvoter]) he
      · exact ⟨b, hb, hid, hvoter, hsup⟩

theorem Polled.casts (hs : Polled s cast) {kind : Kind} {id : U64} {voter : Address}
    {support : Bool} {balance : I128} {p q : Poll} (hadmin : ∃ admin, s'.admin = some admin)
    (hfresh : s.vote.get (id, voter) = none) (hfound : s.poll kind id = some p)
    (hf : q.votesFor.val = p.votesFor.val + if support = true then balance.val else 0)
    (ha : q.votesAgainst.val = p.votesAgainst.val + if support = false then balance.val else 0)
    (hpoll : s'.poll = pollSet s.poll kind id q)
    (hvote : s'.vote = s.vote.set (id, voter) support)
    (hnext : s'.nextProposalId = s.nextProposalId) :
    Polled s' (⟨id, voter, support, balance.val⟩ :: cast) := by
  obtain ⟨next, hn, hlt⟩ := hs.counter
  refine ⟨hadmin, ⟨next, hnext.trans hn, ?_⟩, ?_, ?_, ?_, ?_, ?_⟩
  · intro k x r hr
    rw [hpoll] at hr
    rcases pollSet_eq_some hr with ⟨_, rfl, _⟩ | ⟨_, hr⟩
    · exact hlt kind x p hfound
    · exact hlt k x r hr
  · intro k k' x r r' hr hr'
    rw [hpoll] at hr hr'
    have hold : ∀ {k r}, pollSet s.poll kind id q k x = some r → ∃ r₀, s.poll k x = some r₀ := by
      intro k r hr
      rcases pollSet_eq_some hr with ⟨rfl, rfl, _⟩ | ⟨_, hr⟩
      · exact ⟨p, hfound⟩
      · exact ⟨r, hr⟩
    obtain ⟨r₀, h₀⟩ := hold hr
    obtain ⟨r₁, h₁⟩ := hold hr'
    exact hs.kinds k k' x r₀ r₁ h₀ h₁
  · intro b hb
    rw [hpoll]
    rcases List.mem_cons.mp hb with rfl | hb
    · exact ⟨kind, q, pollSet_self⟩
    · obtain ⟨k, r, hr⟩ := hs.asked b hb
      exact ⟨k, poll_kept hr⟩
  · intro k x r hr
    rw [hpoll] at hr
    rw [tally_cons, tally_cons]
    rcases pollSet_eq_some hr with ⟨rfl, rfl, rfl⟩ | ⟨hne, hr⟩
    · obtain ⟨hpf, hpa⟩ := hs.tallied k x p hfound
      rw [hf, ha, hpf, hpa]
      cases support <;> simp
    · -- the id has one kind, so another poll has another id
      have hx : id ≠ x := by
        rintro rfl
        exact hne ⟨hs.kinds k kind id r p hr hfound, rfl⟩
      rw [if_neg fun h => hx h.1, if_neg fun h => hx h.1, Int.add_zero, Int.add_zero]
      exact hs.tallied k x r hr
  · exact List.Pairwise.cons
      (fun b hb h => hs.no_ballot hfresh b hb ⟨h.1.symm, h.2.symm⟩) hs.once
  · rw [hvote]
    exact hs.recorded_cons hfresh support balance.val

/-- Every accepted call keeps the storage tied to the ballots. -/
theorem Polled.step (hs : Polled s cast) (h : exec s i = .ok s') :
    Polled s' ((ballotOf s i).toList ++ cast) := by
  obtain ⟨admin, ha⟩ := hs.admin
  have hadmin : ∃ admin, s'.admin = some admin := ⟨admin, (exec_admin ha h).1⟩
  cases exec_effect ha h with
  | opens kind id nextId p next succ next' votesFor votesAgainst poll vote ballot =>
    rw [ballot]
    exact hs.opens hadmin next succ next' votesFor votesAgainst poll vote
  | casts kind id voter support balance p q may ballot found open_ votingEnd votesFor votesAgainst
      poll vote next =>
    rw [ballot]
    exact hs.casts hadmin may.fresh found votesFor votesAgainst poll vote next
  | idle poll vote next ballot =>
    rw [ballot]
    refine ⟨hadmin, ?_, ?_, ?_, ?_, hs.once, ?_⟩
    · rw [next, poll]
      exact hs.counter
    · rw [poll]
      exact hs.kinds
    · rw [poll]
      exact hs.asked
    · rw [poll]
      exact hs.tallied
    · rw [vote]
      exact hs.recorded

/-- After its end an accepted call leaves a poll alone. -/
theorem Polled.closed (hs : Polled s cast) (h : exec s i = .ok s') (kind : Kind) {id : U64}
    {p : Poll} (hp : s.poll kind id = some p) (hend : p.votingEnd.val ≤ i.env.sequence.val) :
    s'.poll kind id = some p := by
  obtain ⟨admin, ha⟩ := hs.admin
  cases exec_effect ha h with
  | opens kind' id' nextId q next succ next' votesFor votesAgainst poll vote ballot =>
    have hnone := (hs.next_fresh next).1 kind
    rw [poll, pollSet, if_neg, hp]
    rintro ⟨_, rfl⟩
    rw [hnone] at hp
    cases hp
  | casts kind' id' voter support balance p' q may ballot found open_ votingEnd votesFor
      votesAgainst poll vote next =>
    rw [poll, pollSet, if_neg, hp]
    rintro ⟨rfl, rfl⟩
    rw [hp] at found
    cases found
    omega
  | idle poll vote next ballot => rw [poll, hp]

end Steps

theorem polled_after {timelockLedgers : U32} {s₀ : Storage Address}
    (h : Initialised timelockLedgers s₀) (past : List (Input Address)) :
    Polled (after exec s₀ past) (ballots s₀ past) := by
  refine after_history (P := fun past s => Polled s (ballots s₀ past)) h.polled ?_ ?_ past
  · rintro past i s s' rfl hs he
    simp only [ballots, he]
    exact hs.step he
  · rintro past i s t rfl hs he
    simp only [ballots, he]
    exact hs

/-- The proposals and upgrade proposals of a storage count exactly the ballots. -/
structure TallyIntegrity (s : Storage Address) (cast : List (Ballot U64 Address)) : Prop where
  proposals : ∀ id r, getProposal s id = some r →
    r.votesFor.val = tally cast id true ∧ r.votesAgainst.val = tally cast id false
  upgrades : ∀ id r, getUpgradeProposal s id = some r →
    r.votesFor.val = tally cast id true ∧ r.votesAgainst.val = tally cast id false
  /-- Each address has at most one ballot on an id. -/
  once : Once cast
  /-- The recorded votes are the ballots. -/
  recorded : ∀ id voter support, s.vote.get (id, voter) = some support ↔
    ∃ b ∈ cast, b.id = id ∧ b.voter = voter ∧ b.support = support
  /-- An id is used by one kind. -/
  kinds : ∀ id r u, getProposal s id = some r → getUpgradeProposal s id ≠ some u

theorem Polled.integrity {s : Storage Address} {cast : List (Ballot U64 Address)}
    (hs : Polled s cast) : TallyIntegrity s cast where
  proposals id r hr := hs.tallied .proposal id r.poll (poll_proposal hr)
  upgrades id r hr := hs.tallied .upgrade id r.poll (poll_upgrade hr)
  once := hs.once
  recorded := hs.recorded
  kinds id r u hr hu :=
    nomatch hs.kinds .proposal .upgrade id r.poll u.poll (poll_proposal hr) (poll_upgrade hu)

/-- The tallies in `s` are the tallies in `s'` of every poll that has ended by the
ledger. -/
structure EndedUnchanged (ledger : U32) (s s' : Storage Address) : Prop where
  proposals : ∀ id r, getProposal s id = some r → r.votingEndLedger.val ≤ ledger.val →
    ∃ r', getProposal s' id = some r' ∧ r'.votesFor = r.votesFor ∧
      r'.votesAgainst = r.votesAgainst
  upgrades : ∀ id r, getUpgradeProposal s id = some r → r.votingEndLedger.val ≤ ledger.val →
    ∃ r', getUpgradeProposal s' id = some r' ∧ r'.votesFor = r.votesFor ∧
      r'.votesAgainst = r.votesAgainst

theorem Polled.ended {s s' : Storage Address} {cast : List (Ballot U64 Address)}
    {i : Input Address} (hs : Polled s cast) (h : exec s i = .ok s') :
    EndedUnchanged i.env.sequence s s' where
  proposals id r hr hend := by
    obtain ⟨r', hr', hpoll⟩ :=
      Option.map_eq_some_iff.mp (hs.closed h .proposal (poll_proposal hr) hend)
    exact ⟨r', hr', congrArg Poll.votesFor hpoll, congrArg Poll.votesAgainst hpoll⟩
  upgrades id r hr hend := by
    obtain ⟨r', hr', hpoll⟩ :=
      Option.map_eq_some_iff.mp (hs.closed h .upgrade (poll_upgrade hr) hend)
    exact ⟨r', hr', congrArg Poll.votesFor hpoll, congrArg Poll.votesAgainst hpoll⟩

/-- In every run from `initialize` the tallies of every proposal and upgrade
proposal are those of the ballots on its id, one for each address with a recorded
vote, and no call changes them from the voting end on. -/
theorem tally_integrity {timelockLedgers : U32} {s₀ : Storage Address}
    (h : Initialised timelockLedgers s₀) (past : List (Input Address)) :
    TallyIntegrity (after exec s₀ past) (ballots s₀ past) ∧
    ∀ i earlier, i :: earlier <:+ past →
      EndedUnchanged i.env.sequence (after exec s₀ earlier) (after exec s₀ (i :: earlier)) := by
  refine ⟨(polled_after h past).integrity, fun i earlier _ => ?_⟩
  cases he : exec (after exec s₀ earlier) i with
  | ok s' =>
    rw [after, apply_ok he]
    exact (polled_after h earlier).ended he
  | error t =>
    rw [after, apply_error he]
    exact ⟨fun id r hr _ => ⟨r, hr, rfl, rfl⟩, fun id r hr _ => ⟨r, hr, rfl, rfl⟩⟩

/-- Holder 2 votes for proposal 1 with 100 and holder 3 against it with 40. -/
def exampleVotes : List (Input Nat) :=
  [exampleInput (.lit 5) [3] (.vote 3 (.lit 1) false),
    exampleInput (.lit 5) [2] (.vote 2 (.lit 1) true),
    exampleInput (.lit 4) [2] (.createProposal 2 "New Course Category" "" (.lit 10))]

theorem tally_integrity_votes : ∃ r,
    getProposal (after exec exampleGovernance exampleVotes) (.lit 1) = some r ∧
      r.votesFor.val = 100 ∧ r.votesAgainst.val = 40 := by
  have hstored : (getProposal (after exec exampleGovernance exampleVotes) (.lit 1)).isSome = true :=
    by decide +kernel
  obtain ⟨r, hr⟩ := Option.isSome_iff_exists.mp hstored
  obtain ⟨hfor, hagainst⟩ :=
    (tally_integrity exampleGovernance_initialised exampleVotes).1.proposals _ r hr
  exact ⟨r, hr, hfor.trans (by decide +kernel), hagainst.trans (by decide +kernel)⟩

end Scoopdope.Governance
