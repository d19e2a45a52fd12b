import Scoopdope.Grants.Steps
import Scoopdope.Soroban.History

/-!
# Grants: what the records say in every reachable storage

* `Indexed`: grants are filed under ids below the counter, and the list of an
  applicant has exactly the ids of its grants, in increasing order.
* `Milestones`: a milestone belongs to the grant it is filed under, its amount is
  positive, and it is released only if its grant is active or completed.
-/

namespace Scoopdope.Grants

open Soroban

variable {Address : Type} [DecidableEq Address]

/-! ## The invariants -/

structure Indexed (s : Storage Address) : Prop where
  below : ∃ next, s.nextGrantId = some next ∧
    ∀ id grant, getGrant s id = some grant → id.val < next.val
  sorted : ∀ a, (getApplicantGrants s a).Pairwise fun x y => x.val < y.val
  listed : ∀ a id, id ∈ getApplicantGrants s a ↔
    ∃ grant, getGrant s id = some grant ∧ grant.applicant = a

/-- Payouts of the grant have begun. -/
def GrantStatus.Begun (status : GrantStatus) : Prop := status = .active ∨ status = .completed

theorem GrantStatus.not_begun {status : GrantStatus}
    (h : status = .pending ∨ status = .approved) : ¬ status.Begun := by
  rintro (rfl | rfl)
  · rcases h with h | h <;> cases h
  · rcases h with h | h <;> cases h

structure Milestones (s : Storage Address) : Prop where
  filed : ∀ grantId idx milestone, getMilestone s grantId idx = some milestone →
    milestone.grantId = grantId ∧ 0 < milestone.amount.val ∧
    ∃ grant, getGrant s grantId = some grant ∧ idx.val < grant.milestoneCount.val
  unreleased : ∀ grantId grant idx milestone, getGrant s grantId = some grant →
    ¬ grant.status.Begun → getMilestone s grantId idx = some milestone →
    milestone.released = false

section Tables

variable {s s' : Storage Address}

omit [DecidableEq Address] in
theorem getGrant_congr (h : s'.grant = s.grant) (id : U64) : getGrant s' id = getGrant s id := by
  rw [getGrant, h]
  rfl

omit [DecidableEq Address] in
theorem getMilestone_congr (h : s'.grantMilestone = s.grantMilestone) (grantId : U64) (idx : U32) :
    getMilestone s' grantId idx = getMilestone s grantId idx := by
  rw [getMilestone, h]
  rfl

theorem getApplicantGrants_congr (h : s'.applicantGrants = s.applicantGrants) (a : Address) :
    getApplicantGrants s' a = getApplicantGrants s a := by
  rw [getApplicantGrants, h]
  rfl

omit [DecidableEq Address] in
theorem getGrant_set {id : U64} {grant : GrantRecord Address}
    (h : s'.grant = s.grant.set id grant) (id' : U64) :
    getGrant s' id' = if id' = id then some grant else getGrant s id' := by
  rw [getGrant, h, Table.get_set]
  rfl

omit [DecidableEq Address] in
theorem getMilestone_set {grantId : U64} {idx : U32} {milestone : MilestoneRecord}
    (h : s'.grantMilestone = s.grantMilestone.set (grantId, idx) milestone) (grantId' : U64)
    (idx' : U32) : getMilestone s' grantId' idx' =
      if grantId' = grantId ∧ idx' = idx then some milestone else getMilestone s grantId' idx' := by
  rw [getMilestone, h, Table.get_set]
  by_cases hkey : grantId' = grantId ∧ idx' = idx
  · obtain ⟨rfl, rfl⟩ := hkey
    rw [if_pos rfl, if_pos ⟨rfl, rfl⟩]
  · rw [if_neg hkey, if_neg fun he => hkey ⟨(Prod.mk.inj he).1, (Prod.mk.inj he).2⟩]
    rfl

/-- A stored grant is replaced by one with the same applicant. -/
theorem Indexed.replace {grantId : U64} {grant grant' : GrantRecord Address} (h : Indexed s)
    (hget : getGrant s grantId = some grant) (happlicant : grant'.applicant = grant.applicant)
    (hgrants : s'.grant = s.grant.set grantId grant')
    (hindex : s'.applicantGrants = s.applicantGrants) (hnext : s'.nextGrantId = s.nextGrantId) :
    Indexed s' := by
  obtain ⟨next, hnext₀, hbelow⟩ := h.below
  have hlists := getApplicantGrants_congr hindex
  refine ⟨⟨next, hnext.trans hnext₀, ?_⟩, ?_, ?_⟩
  · intro id grant₁ hget₁
    rw [getGrant_set hgrants] at hget₁
    split at hget₁
    · next hid =>
      rw [hid]
      exact hbelow grantId grant hget
    · exact hbelow id grant₁ hget₁
  · intro a
    rw [hlists]
    exact h.sorted a
  · intro a id
    rw [hlists, h.listed, getGrant_set hgrants]
    split
    · next hid =>
      rw [hid, hget]
      constructor
      · rintro ⟨_, hg, rfl⟩
        cases hg
        exact ⟨grant', rfl, happlicant⟩
      · rintro ⟨_, hg, rfl⟩
        cases hg
        exact ⟨grant, rfl, happlicant.symm⟩
    · exact Iff.rfl

/-- The ids on the lists are below the next one. -/
theorem Indexed.listed_below (h : Indexed s) {id : U64} (hnext : s.nextGrantId = some id)
    {a : Address} {x : U64} (hx : x ∈ getApplicantGrants s a) : x.val < id.val := by
  obtain ⟨next, hnext₀, hbelow⟩ := h.below
  rw [hnext] at hnext₀
  cases hnext₀
  obtain ⟨grant, hget, _⟩ := (h.listed a x).mp hx
  exact hbelow x grant hget

/-- The next id is not in use. -/
theorem Indexed.fresh (h : Indexed s) {id : U64} (hnext : s.nextGrantId = some id) :
    getGrant s id = none := by
  obtain ⟨next, hnext₀, hbelow⟩ := h.below
  rw [hnext] at hnext₀
  cases hnext₀
  cases hget : getGrant s id with
  | none => rfl
  | some grant => exact absurd (hbelow id grant hget) (lt_irrefl _)

section Add

variable {applicant : Address} {totalAmount : I128} {milestoneCount : U32} {id : U64}
  {grant : GrantRecord Address}

theorem Applied.lists (ha : Applied s s' applicant totalAmount milestoneCount id grant)
    (a : Address) : getApplicantGrants s' a =
      if a = applicant then getApplicantGrants s a ++ [id] else getApplicantGrants s a := by
  rw [getApplicantGrants, ha.index, Table.get_set]
  split
  · next heq =>
    rw [heq]
    rfl
  · rfl

/-- The new id is on the list of its applicant, the others are where they were. -/
theorem Applied.mem_lists (ha : Applied s s' applicant totalAmount milestoneCount id grant)
    (h : Indexed s) (a : Address) (x : U64) : x ∈ getApplicantGrants s' a ↔
      if x = id then a = applicant else x ∈ getApplicantGrants s a := by
  rw [ha.lists]
  by_cases hx : x = id
  · rw [if_pos hx, hx]
    have hout : id ∉ getApplicantGrants s a := fun hmem =>
      absurd (h.listed_below ha.next hmem) (lt_irrefl _)
    split
    · next heq => exact iff_of_true (List.mem_append_right _ (List.mem_singleton.mpr rfl)) heq
    · next hne => exact iff_of_false hout hne
  · rw [if_neg hx]
    split
    · rw [List.mem_append, List.mem_singleton]
      exact or_iff_left hx
    · exact Iff.rfl

/-- A grant is added under the next id. -/
theorem Indexed.add (h : Indexed s)
    (ha : Applied s s' applicant totalAmount milestoneCount id grant) : Indexed s' := by
  obtain ⟨next, hnext, hbelow⟩ := h.below
  rw [ha.next] at hnext
  cases hnext
  obtain ⟨nextId, hnextId, hnext'⟩ := ha.next'
  refine ⟨⟨nextId, hnext', ?_⟩, ?_, ?_⟩
  · intro id' grant₁ hget₁
    rw [getGrant_set ha.grants] at hget₁
    rw [hnextId]
    split at hget₁
    · next hid =>
      rw [hid]
      exact Int.lt_succ _
    · exact (hbelow id' grant₁ hget₁).trans (Int.lt_succ _)
  · intro a
    rw [ha.lists]
    split
    · rw [List.pairwise_append]
      refine ⟨h.sorted a, List.pairwise_singleton _ _, fun x hx y hy => ?_⟩
      rw [List.mem_singleton.mp hy]
      exact h.listed_below ha.next hx
    · exact h.sorted a
  · intro a x
    rw [ha.mem_lists h, getGrant_set ha.grants]
    split
    · constructor
      · rintro rfl
        exact ⟨grant, rfl, ha.applicant_eq⟩
      · rintro ⟨_, hg, rfl⟩
        cases hg
        exact ha.applicant_eq
    · exact h.listed a x

end Add

omit [DecidableEq Address] in
/-- A stored grant is replaced by one with the same milestones, which does not fall
back to a status before payouts. -/
theorem Milestones.replace {grantId : U64} {grant grant' : GrantRecord Address}
    (h : Milestones s) (hget : getGrant s grantId = some grant)
    (hcount : grant'.milestoneCount = grant.milestoneCount)
    (hstatus : grant.status.Begun → grant'.status.Begun)
    (hgrants : s'.grant = s.grant.set grantId grant')
    (hmilestones : s'.grantMilestone = s.grantMilestone) : Milestones s' := by
  have hsame := getMilestone_congr hmilestones
  refine ⟨?_, ?_⟩
  · intro g idx milestone hm
    rw [hsame] at hm
    obtain ⟨hid, hpos, grant₁, hget₁, hidx⟩ := h.filed g idx milestone hm
    refine ⟨hid, hpos, ?_⟩
    rw [getGrant_set hgrants]
    split
    · next hg =>
      rw [hg, hget] at hget₁
      cases hget₁
      rw [← hcount] at hidx
      exact ⟨grant', rfl, hidx⟩
    · exact ⟨grant₁, hget₁, hidx⟩
  · intro g grant₁ idx milestone hget₁ hnot hm
    rw [hsame] at hm
    rw [getGrant_set hgrants] at hget₁
    split at hget₁
    · next hg =>
      cases hget₁
      rw [hg] at hm
      exact h.unreleased grantId grant idx milestone hget (fun hb => hnot (hstatus hb)) hm
    · exact h.unreleased g grant₁ idx milestone hget₁ hnot hm

omit [DecidableEq Address] in
/-- A grant is added, under an id that had none and hence no milestones. -/
theorem Milestones.add {id : U64} {grant : GrantRecord Address} (h : Milestones s)
    (hnone : getGrant s id = none) (hgrants : s'.grant = s.grant.set id grant)
    (hmilestones : s'.grantMilestone = s.grantMilestone) : Milestones s' := by
  have hsame := getMilestone_congr hmilestones
  have hother : ∀ g idx milestone, getMilestone s g idx = some milestone → g ≠ id := by
    rintro g idx milestone hm rfl
    obtain ⟨_, _, grant₁, hget₁, _⟩ := h.filed g idx milestone hm
    rw [hnone] at hget₁
    cases hget₁
  refine ⟨?_, ?_⟩
  · intro g idx milestone hm
    rw [hsame] at hm
    rw [getGrant_set hgrants, if_neg (hother g idx milestone hm)]
    exact h.filed g idx milestone hm
  · intro g grant₁ idx milestone hget₁ hnot hm
    rw [hsame] at hm
    rw [getGrant_set hgrants, if_neg (hother g idx milestone hm)] at hget₁
    exact h.unreleased g grant₁ idx milestone hget₁ hnot hm

omit [DecidableEq Address] in
/-- A milestone is written. -/
theorem Milestones.set {grantId : U64} {idx : U32} {milestone : MilestoneRecord}
    {grant : GrantRecord Address} (h : Milestones s) (hget : getGrant s grantId = some grant)
    (hidx : idx.val < grant.milestoneCount.val) (hid : milestone.grantId = grantId)
    (hpos : 0 < milestone.amount.val)
    (hunreleased : milestone.released = false ∨ grant.status.Begun) (hgrants : s'.grant = s.grant)
    (hmilestones : s'.grantMilestone = s.grantMilestone.set (grantId, idx) milestone) :
    Milestones s' := by
  have hsame := getGrant_congr hgrants
  refine ⟨?_, ?_⟩
  · intro g idx' milestone' hm
    rw [hsame]
    rw [getMilestone_set hmilestones] at hm
    split at hm
    · next hkey =>
      cases hm
      rw [hkey.1, hkey.2]
      exact ⟨hid, hpos, grant, hget, hidx⟩
    · exact h.filed g idx' milestone' hm
  · intro g grant₁ idx' milestone' hget₁ hnot hm
    rw [hsame] at hget₁
    rw [getMilestone_set hmilestones] at hm
    split at hm
    · next hkey =>
      cases hm
      rw [hkey.1, hget] at hget₁
      cases hget₁
      exact hunreleased.resolve_right hnot
    · exact h.unreleased g grant₁ idx' milestone' hget₁ hnot hm

theorem Indexed.congr (h : Indexed s) (hgrants : s'.grant = s.grant)
    (hindex : s'.applicantGrants = s.applicantGrants) (hnext : s'.nextGrantId = s.nextGrantId) :
    Indexed s' := by
  obtain ⟨next, hnext₀, hbelow⟩ := h.below
  refine ⟨⟨next, hnext.trans hnext₀, ?_⟩, ?_, ?_⟩
  · intro id grant hget
    rw [getGrant_congr hgrants] at hget
    exact hbelow id grant hget
  · intro a
    rw [getApplicantGrants_congr hindex]
    exact h.sorted a
  · intro a id
    rw [getApplicantGrants_congr hindex, getGrant_congr hgrants]
    exact h.listed a id

end Tables

/-! ## Runs -/

/-- What every run keeps. -/
structure Filed (admin tokenContract : Address) (s : Storage Address) : Prop where
  admin : s.admin = some admin
  token : s.tokenContract = some tokenContract
  indexed : Indexed s
  milestones : Milestones s

theorem GrantStatus.begun_afterRelease {status : GrantStatus} {all : Bool}
    (h : status = .approved ∨ status = .active) : (status.afterRelease all).Begun := by
  unfold afterRelease
  split
  · exact .inr rfl
  · split
    · exact .inl rfl
    · next hnot => exact .inl (h.resolve_left hnot)

section Runs

variable {admin tokenContract : Address} {s₀ s s' : Storage Address} {i : Input Address}

theorem Initialised.filed (h : Initialised admin tokenContract s₀) :
    Filed admin tokenContract s₀ := by
  obtain ⟨env, peers, h⟩ := h
  obtain ⟨_, _, rfl⟩ := initializeContract_ok h
  refine ⟨rfl, rfl, ⟨⟨.lit 1, rfl, ?_⟩, ?_, ?_⟩, ⟨?_, ?_⟩⟩
  · intro id grant hget
    exact absurd hget Table.get_empty_ne_some
  · intro a
    exact List.Pairwise.nil
  · intro a id
    refine iff_of_false List.not_mem_nil ?_
    rintro ⟨grant, hget, _⟩
    exact absurd hget Table.get_empty_ne_some
  · intro grantId idx milestone hm
    exact absurd hm Table.get_empty_ne_some
  · intro grantId grant idx milestone hget
    exact absurd hget Table.get_empty_ne_some

theorem Filed.step (h : Filed admin tokenContract s) (he : exec s i = .ok s') :
    Filed admin tokenContract s' := by
  cases exec_effect h.admin he with
  | applied applicant title description totalAmount milestoneCount id grant _ ha =>
    exact ⟨ha.setup.admin.trans h.admin, ha.setup.tokenContract.trans h.token, h.indexed.add ha,
      h.milestones.add (h.indexed.fresh ha.next) ha.grants ha.milestones⟩
  | decided grantId status approvedAt grant _ hd =>
    have hnot := GrantStatus.not_begun (.inl hd.pending)
    exact ⟨hd.setup.admin.trans h.admin, hd.setup.tokenContract.trans h.token,
      h.indexed.replace hd.get (by rfl) hd.grants hd.index hd.next,
      h.milestones.replace hd.get (by rfl) (fun hb => absurd hb hnot) hd.grants hd.milestones⟩
  | milestoneSet admin' grantId idx description amount grant _ hmay hm =>
    exact ⟨hm.setup.admin.trans h.admin, hm.setup.tokenContract.trans h.token,
      h.indexed.congr hm.grants hm.index hm.next,
      h.milestones.set hmay.get hmay.idx rfl hmay.pos (.inl rfl) hm.grants hm.milestones⟩
  | paidOut grantId idx transfer grant milestone all _ hp =>
    refine ⟨hp.setup.admin.trans h.admin, hp.setup.tokenContract.trans h.token,
      h.indexed.replace hp.get (by rfl) hp.grants hp.index hp.next, ?_⟩
    -- First the status, which payouts have begun in now, then the milestone.
    obtain ⟨hid, hpos, grant₁, hget₁, hidx⟩ := h.milestones.filed _ _ _ hp.get_milestone
    rw [hp.get] at hget₁
    cases hget₁
    have hbegun : (grant.status.afterRelease all).Begun := GrantStatus.begun_afterRelease hp.open_
    have hgranted : Milestones { s with grant := s'.grant } :=
      h.milestones.replace hp.get (by rfl) (fun _ => hbegun) hp.grants rfl
    have hstored : getGrant { s with grant := s'.grant } grantId =
        some { grant with status := grant.status.afterRelease all } := by
      show s'.grant.get grantId = _
      rw [hp.grants, Table.get_set_self]
    exact hgranted.set hstored hidx
      (show (milestone.paid i.env.timestamp).grantId = grantId from hid) hpos (.inr hbegun) rfl
      hp.milestones

theorem filed_after (h : Initialised admin tokenContract s₀) (past : List (Input Address)) :
    Filed admin tokenContract (after exec s₀ past) :=
  after_invariant h.filed (fun _ _ _ hs he => hs.step he) past

end Runs

end Scoopdope.Grants

/-!
## Grants: the status machine

`Edge` has the five edges of the machine, each with the calls that take it. In
every run a grant starts as pending, moves along the edges only, and keeps its
applicant, total and number of milestones (`status_machine`).
-/

namespace Scoopdope.Grants

open Soroban

variable {Address : Type} [DecidableEq Address]

/-- The status of the grant may move so in this call. -/
inductive Edge (call : Call Address) (grantId : U64) : GrantStatus → GrantStatus → Prop
  | approve (h : call.Decides grantId .approved) : Edge call grantId .pending .approved
  | reject (h : call.Decides grantId .rejected) : Edge call grantId .pending .rejected
  | start (idx : U32) (h : call.Pays grantId idx) : Edge call grantId .approved .active
  | finishAtOnce (idx : U32) (h : call.Pays grantId idx) : Edge call grantId .approved .completed
  | finish (idx : U32) (h : call.Pays grantId idx) : Edge call grantId .active .completed

section Steps

variable {s s' : Storage Address} {i : Input Address} {admin tokenContract : Address}

omit [DecidableEq Address] in
theorem edge_of_decision {call : Call Address} {grantId : U64} {status : GrantStatus}
    (h : call.Decides grantId status) : Edge call grantId .pending status := by
  rcases h with ⟨rfl, ha⟩ | ⟨rfl, hr⟩
  · exact .approve (.inl ⟨rfl, ha⟩)
  · exact .reject (.inr ⟨rfl, hr⟩)

omit [DecidableEq Address] in
/-- A payout leaves the status of an approved or active grant or moves it on. -/
theorem edge_of_payout {call : Call Address} {grantId : U64} {idx : U32} {status : GrantStatus}
    (h : call.Pays grantId idx) (hopen : status = .approved ∨ status = .active) (all : Bool) :
    status.afterRelease all = status ∨ Edge call grantId status (status.afterRelease all) := by
  rcases hopen with rfl | rfl
  · cases all with
    | true => exact .inr (.finishAtOnce idx h)
    | false => exact .inr (.start idx h)
  · cases all with
    | true => exact .inr (.finish idx h)
    | false => exact .inl rfl

/-- What one accepted call does to a stored grant. -/
theorem grant_step (hs : Filed admin tokenContract s) (he : exec s i = .ok s') {id : U64}
    {grant : GrantRecord Address} (hget : getGrant s id = some grant) :
    ∃ grant', getGrant s' id = some grant' ∧ SameTerms grant grant' ∧
      (grant'.status = grant.status ∨ Edge i.call id grant.status grant'.status) := by
  cases exec_effect hs.admin he with
  | applied applicant title description totalAmount milestoneCount id' grant' _ ha =>
    have hne : id ≠ id' := by
      rintro rfl
      rw [hs.indexed.fresh ha.next] at hget
      cases hget
    rw [getGrant_set ha.grants, if_neg hne]
    exact ⟨grant, hget, .refl grant, .inl rfl⟩
  | decided grantId status approvedAt grant' hcall hd =>
    rw [getGrant_set hd.grants]
    split
    · next hid =>
      subst hid
      have hsame := hget.symm.trans hd.get
      cases hsame
      refine ⟨_, rfl, ⟨rfl, rfl, rfl⟩, .inr ?_⟩
      rw [hd.pending]
      exact edge_of_decision hcall
    · exact ⟨grant, hget, .refl grant, .inl rfl⟩
  | milestoneSet admin' grantId idx description amount grant' _ _ hm =>
    rw [getGrant_congr hm.grants]
    exact ⟨grant, hget, .refl grant, .inl rfl⟩
  | paidOut grantId idx transfer grant' milestone all hcall hp =>
    rw [getGrant_set hp.grants]
    split
    · next hid =>
      subst hid
      have hsame := hget.symm.trans hp.get
      cases hsame
      exact ⟨_, rfl, ⟨rfl, rfl, rfl⟩, edge_of_payout hcall hp.open_ all⟩
    · exact ⟨grant, hget, .refl grant, .inl rfl⟩

/-- A grant appears by an application only, as pending and with its terms. -/
theorem grant_appears (hs : Filed admin tokenContract s) (he : exec s i = .ok s') {id : U64}
    {grant : GrantRecord Address} (hnone : getGrant s id = none)
    (hget : getGrant s' id = some grant) :
    grant.status = .pending ∧ ∃ title description, i.call = .applyForGrant grant.applicant title
      description grant.totalAmount grant.milestoneCount := by
  cases exec_effect hs.admin he with
  | applied applicant title description totalAmount milestoneCount id' grant' hcall ha =>
    rw [getGrant_set ha.grants] at hget
    split at hget
    · cases hget
      rw [ha.applicant_eq, ha.total_eq, ha.count_eq]
      exact ⟨ha.pending, title, description, hcall⟩
    · rw [hnone] at hget
      cases hget
  | decided grantId status approvedAt grant' _ hd =>
    rw [getGrant_set hd.grants] at hget
    split at hget
    · next hid =>
      rw [hid, hd.get] at hnone
      cases hnone
    · rw [hnone] at hget
      cases hget
  | milestoneSet admin' grantId idx description amount grant' _ _ hm =>
    rw [getGrant_congr hm.grants, hnone] at hget
    cases hget
  | paidOut grantId idx transfer grant' milestone all _ hp =>
    rw [getGrant_set hp.grants] at hget
    split at hget
    · next hid =>
      rw [hid, hp.get] at hnone
      cases hnone
    · rw [hnone] at hget
      cases hget

/-- Tokens move only in a call that asks for a payout, of an approved or active
grant. -/
theorem transfer_step (hs : Filed admin tokenContract s) (he : exec s i = .ok s') :
    s'.transfers = s.transfers ∨ ∃ grantId idx grant, i.call.Pays grantId idx ∧
      getGrant s grantId = some grant ∧ (grant.status = .approved ∨ grant.status = .active) := by
  cases exec_effect hs.admin he with
  | applied _ _ _ _ _ _ _ _ ha => exact .inl ha.transfers
  | decided _ _ _ _ _ hd => exact .inl hd.transfers
  | milestoneSet _ _ _ _ _ _ _ _ hm => exact .inl hm.transfers
  | paidOut grantId idx _ grant _ _ hcall hp =>
    exact .inr ⟨grantId, idx, grant, hcall, hp.get, hp.open_⟩

end Steps

/-- In every run: one call moves a stored grant along an edge or leaves its status,
and keeps its terms; a new grant is pending; tokens move only for approved and
active grants; and the list of an applicant has exactly the ids of its grants, in
increasing order. -/
theorem status_machine {admin tokenContract : Address} {s₀ : Storage Address}
    (h : Initialised admin tokenContract s₀) (past : List (Input Address)) :
    (∀ i id grant, Accepted exec s₀ past i → getGrant (after exec s₀ past) id = some grant →
      ∃ grant', getGrant (after exec s₀ (i :: past)) id = some grant' ∧ SameTerms grant grant' ∧
        (grant'.status = grant.status ∨ Edge i.call id grant.status grant'.status)) ∧
    (∀ i id grant, Accepted exec s₀ past i → getGrant (after exec s₀ past) id = none →
      getGrant (after exec s₀ (i :: past)) id = some grant →
      grant.status = .pending ∧ ∃ title description, i.call = .applyForGrant grant.applicant title
        description grant.totalAmount grant.milestoneCount) ∧
    (∀ i, Accepted exec s₀ past i →
      (after exec s₀ (i :: past)).transfers = (after exec s₀ past).transfers ∨
      ∃ grantId idx grant, i.call.Pays grantId idx ∧
        getGrant (after exec s₀ past) grantId = some grant ∧
        (grant.status = .approved ∨ grant.status = .active)) ∧
    (∀ a, (getApplicantGrants (after exec s₀ past) a).Pairwise (fun x y => x.val < y.val) ∧
      ∀ id, id ∈ getApplicantGrants (after exec s₀ past) a ↔
        ∃ grant, getGrant (after exec s₀ past) id = some grant ∧ grant.applicant = a) := by
  have hs := filed_after h past
  refine ⟨?_, ?_, ?_, ?_⟩
  · rintro i id grant ⟨s', he⟩ hget
    rw [after, apply_ok he]
    exact grant_step hs he hget
  · rintro i id grant ⟨s', he⟩ hnone hget
    rw [after, apply_ok he] at hget
    exact grant_appears hs he hnone hget
  · rintro i ⟨s', he⟩
    rw [after, apply_ok he]
    exact transfer_step hs he
  · intro a
    exact ⟨hs.indexed.sorted a, hs.indexed.listed a⟩

/-- Contract 2 applies for 1000 in two milestones. -/
def exampleApplication : List (Input Nat) :=
  [exampleInput [2] (.applyForGrant 2 "school" "books" (.lit 1000) (.lit 2))]

def exampleApproval : Input Nat := exampleInput [1] (.approveGrant 1 (.lit 1))

theorem status_machine_approval :
    ∃ grant grant', getGrant (after exec exampleGrants exampleApplication) (.lit 1) = some grant ∧
      getGrant (after exec exampleGrants (exampleApproval :: exampleApplication)) (.lit 1) =
        some grant' ∧ SameTerms grant grant' ∧
      (grant'.status = grant.status ∨
        Edge exampleApproval.call (.lit 1) grant.status grant'.status) := by
  obtain ⟨grant, hget⟩ := Option.isSome_iff_exists.mp
    (show (getGrant (after exec exampleGrants exampleApplication) (.lit 1)).isSome = true by
      decide +kernel)
  obtain ⟨hmoves, _⟩ := status_machine exampleGrants_initialised exampleApplication
  have hok : Accepted exec exampleGrants exampleApplication exampleApproval :=
    accepted_iff.mpr (by decide +kernel)
  exact ⟨grant, (hmoves exampleApproval (.lit 1) grant hok hget).imp fun _ h => ⟨hget, h⟩⟩

end Scoopdope.Grants
