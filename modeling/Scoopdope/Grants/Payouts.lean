import Scoopdope.Grants.Records

/-!
# Grants: what is paid out

`allotted` is what the milestones of a grant come to and `released` what the
released ones come to. `set_milestone` compares neither with the total of the
grant and does not look at the milestone it replaces, so it can set a released
milestone again, or more than the grant has (`Overallots`).

Results:
1. `payout_bounded`: in a run without such calls no grant pays more than its
   total, and no milestone is paid out twice.
2. `payout_unbounded`: with one such call a grant of 1000 pays 1800.
-/

namespace Scoopdope.Grants

open Soroban

variable {Address : Type} [DecidableEq Address]

/-! ## Amounts -/

/-- The amounts of these `transfer_from` calls, added up. -/
def transferred : List (Transfer Address) → Int
  | [] => 0
  | transfer :: rest => transferred rest + transfer.amount.val

/-- What a call sends for the grant. -/
def sentFor (grantId : U64) (s : Storage Address) (i : Input Address) : Int :=
  match i.call with
  | .releaseMilestoneFunds _ id _ =>
    if grantId = id then transferred (apply exec s i).transfers - transferred s.transfers else 0
  | .submitReport _ id _ _ =>
    if grantId = id then transferred (apply exec s i).transfers - transferred s.transfers else 0
  | _ => 0

/-- What a run has sent for the grant. -/
def paidFor (s₀ : Storage Address) (grantId : U64) (past : List (Input Address)) : Int :=
  accumulated exec s₀ (sentFor grantId) past

/-- What the milestone takes of the grant. -/
def allotment (grantId : U64) (milestone : MilestoneRecord) : Int :=
  if milestone.grantId = grantId then milestone.amount.val else 0

def releasedAmount (grantId : U64) (milestone : MilestoneRecord) : Int :=
  if milestone.released = true then allotment grantId milestone else 0

def allotted (s : Storage Address) (grantId : U64) : Int :=
  Table.total (allotment grantId) s.grantMilestone

def released (s : Storage Address) (grantId : U64) : Int :=
  Table.total (releasedAmount grantId) s.grantMilestone

/-- What is stored under the key of the milestone now. -/
def allottedAt (s : Storage Address) (grantId : U64) (idx : U32) : Int :=
  Table.share (allotment grantId) s.grantMilestone (grantId, idx)

/-- No payout is possible any more. -/
def GrantStatus.Closed (status : GrantStatus) : Prop := status = .completed ∨ status = .rejected

/-- The call sets a milestone of a grant that can still be paid out, and the
milestone is released or the milestones then come to more than the grant. -/
def Overallots (s : Storage Address) (i : Input Address) : Prop :=
  ∃ admin grantId idx description amount grant,
    i.call = .setMilestone admin grantId idx description amount ∧
    MaySet i.env s admin grantId idx amount grant ∧ ¬ grant.status.Closed ∧
    ((∃ milestone, getMilestone s grantId idx = some milestone ∧ milestone.released = true) ∨
      grant.totalAmount.val < allotted s grantId - allottedAt s grantId idx + amount.val)

theorem GrantStatus.not_closed {status : GrantStatus} (h : status = .approved ∨ status = .active) :
    ¬ status.Closed := by
  rintro (rfl | rfl)
  · rcases h with h | h <;> cases h
  · rcases h with h | h <;> cases h

theorem GrantStatus.pending_not_closed : ¬ GrantStatus.pending.Closed := by
  rintro (h | h)
  · cases h
  · cases h

section Overallots

variable {s : Storage Address} {i : Input Address}

omit [DecidableEq Address] in
theorem not_overallots_other
    (h : ∀ admin grantId idx description amount,
      i.call ≠ .setMilestone admin grantId idx description amount) : ¬ Overallots s i := by
  rintro ⟨admin, grantId, idx, description, amount, _, hcall, _⟩
  exact h admin grantId idx description amount hcall

omit [DecidableEq Address] in
/-- A milestone that is set for the first time and fits in. -/
theorem not_overallots_set {admin : Address} {grantId : U64} {idx : U32} {description : String}
    {amount : I128} (hcall : i.call = .setMilestone admin grantId idx description amount)
    (hnew : (getMilestone s grantId idx).isSome = false)
    (hroom : (getGrant s grantId).all fun grant =>
      allotted s grantId + amount.val ≤ grant.totalAmount.val) : ¬ Overallots s i := by
  rintro ⟨_, _, _, _, _, grant, hcall', hmay, _, hor⟩
  rw [hcall] at hcall'
  cases hcall'
  have hnone := Option.isNone_iff_eq_none.mp (Option.isSome_eq_false_iff.mp hnew)
  rcases hor with ⟨milestone, hget, _⟩ | hlt
  · rw [hnone] at hget
    cases hget
  · have hat : allottedAt s grantId idx = 0 := by
      rw [allottedAt, Table.share, ← getMilestone, hnone]
      rfl
    rw [hmay.get] at hroom
    have hle := of_decide_eq_true hroom
    omega

end Overallots

/-! ## Sums over the milestones -/

section Sums

variable {s s' : Storage Address} {grantId grantId' : U64} {idx : U32}
  {milestone : MilestoneRecord}

theorem allotment_other (h : milestone.grantId ≠ grantId) : allotment grantId milestone = 0 :=
  if_neg h

theorem releasedAmount_other (h : milestone.grantId ≠ grantId) :
    releasedAmount grantId milestone = 0 := by
  unfold releasedAmount
  split
  · exact allotment_other h
  · rfl

theorem releasedAmount_unreleased (h : milestone.released = false) :
    releasedAmount grantId milestone = 0 := by
  rw [releasedAmount, if_neg (Bool.eq_false_iff.mp h)]

omit [DecidableEq Address] in
theorem sums_congr (h : s'.grantMilestone = s.grantMilestone) (grantId : U64) :
    released s' grantId = released s grantId ∧ allotted s' grantId = allotted s grantId := by
  unfold released allotted
  rw [h]
  exact ⟨rfl, rfl⟩

omit [DecidableEq Address] in
theorem released_le_allotted (h : Milestones s) (grantId : U64) :
    released s grantId ≤ allotted s grantId := by
  refine Table.total_le fun key milestone hget => ?_
  obtain ⟨_, hpos, _⟩ := h.filed key.1 key.2 milestone hget
  have hnonneg : 0 ≤ allotment grantId milestone := by
    unfold allotment
    split
    · exact hpos.le
    · exact le_refl _
  unfold releasedAmount
  split
  · exact le_refl _
  · exact hnonneg

omit [DecidableEq Address] in
/-- A grant that is not there has no milestones. -/
theorem total_eq_zero_of_none (h : Milestones s) (hnone : getGrant s grantId = none)
    {f : MilestoneRecord → Int} (hf : ∀ milestone, milestone.grantId ≠ grantId → f milestone = 0) :
    Table.total f s.grantMilestone = 0 := by
  refine Table.total_eq_zero fun key milestone hget => hf milestone ?_
  obtain ⟨hid, _, grant, hgrant, _⟩ := h.filed key.1 key.2 milestone hget
  intro hsame
  rw [← hid, hsame, hnone] at hgrant
  cases hgrant

omit [DecidableEq Address] in
/-- A milestone that is written counts for its own grant only. -/
theorem total_set_other (h : Milestones s) (hid : milestone.grantId = grantId)
    (hmilestones : s'.grantMilestone = s.grantMilestone.set (grantId, idx) milestone)
    (hne : grantId' ≠ grantId) {f : MilestoneRecord → Int}
    (hf : ∀ milestone, milestone.grantId ≠ grantId' → f milestone = 0) :
    Table.total f s'.grantMilestone = Table.total f s.grantMilestone := by
  have hnew : f milestone = 0 := hf milestone (by rw [hid]; exact hne.symm)
  rw [hmilestones]
  refine Table.total_set_same ?_
  rw [hnew, Table.share]
  cases hget : s.grantMilestone.get (grantId, idx) with
  | none => rfl
  | some old =>
    obtain ⟨hold, _⟩ := h.filed grantId idx old hget
    exact hf old (by rw [hold]; exact hne.symm)

end Sums

/-! ## One call -/

section Steps

variable {s s' : Storage Address} {i : Input Address} {env : Env Address} {grantId : U64}
  {idx : U32} {transfer : Transfer Address} {grant : GrantRecord Address}
  {milestone : MilestoneRecord} {all : Bool}

/-- A payout sends the amount of the milestone for its grant. -/
theorem sentFor_paidOut (hcall : i.call.Pays grantId idx) (he : exec s i = .ok s')
    (hp : PaidOut i.env s s' grantId idx transfer grant milestone all) (grantId' : U64) :
    sentFor grantId' s i = if grantId' = grantId then milestone.amount.val else 0 := by
  have hsent : transferred (apply exec s i).transfers - transferred s.transfers =
      milestone.amount.val := by
    rw [apply_ok he, hp.transfers, transferred, hp.amount]
    omega
  rcases hcall with ⟨admin, hcall⟩ | ⟨applicant, content, hcall⟩
  · simp only [sentFor, hcall, hsent]
  · simp only [sentFor, hcall, hsent]

omit [DecidableEq Address] in
/-- A payout adds its amount to the released ones. -/
theorem released_paidOut (h : Milestones s)
    (hp : PaidOut env s s' grantId idx transfer grant milestone all) :
    released s' grantId = released s grantId + milestone.amount.val := by
  obtain ⟨hid, _⟩ := h.filed grantId idx milestone hp.get_milestone
  have hold : Table.share (releasedAmount grantId) s.grantMilestone (grantId, idx) = 0 := by
    rw [Table.share_of_get hp.get_milestone, releasedAmount_unreleased hp.unreleased]
  have hnew : releasedAmount grantId (milestone.paid env.timestamp) = milestone.amount.val := by
    rw [releasedAmount, if_pos (by rfl)]
    exact if_pos hid
  rw [released, hp.milestones, Table.total_set, hold, hnew, released]
  omega

omit [DecidableEq Address] in
theorem allotted_paidOut (hp : PaidOut env s s' grantId idx transfer grant milestone all) :
    allotted s' grantId = allotted s grantId := by
  rw [allotted, hp.milestones]
  refine Table.total_set_same ?_
  rw [Table.share_of_get hp.get_milestone]
  rfl

/-- What has been paid for the grant is covered by what its milestones may take of it. -/
structure Covered (s : Storage Address) (grantId : U64) (paid : Int) : Prop where
  absent : getGrant s grantId = none → paid = 0
  open_ : ∀ grant, getGrant s grantId = some grant → ¬ grant.status.Closed →
    paid = released s grantId ∧ allotted s grantId ≤ grant.totalAmount.val
  closed : ∀ grant, getGrant s grantId = some grant → grant.status.Closed →
    paid ≤ grant.totalAmount.val

omit [DecidableEq Address] in
theorem Covered.le {paid : Int} (h : Covered s grantId paid) (hs : Milestones s)
    (hget : getGrant s grantId = some grant) : paid ≤ grant.totalAmount.val := by
  by_cases hclosed : grant.status.Closed
  · exact h.closed grant hget hclosed
  · obtain ⟨heq, hle⟩ := h.open_ grant hget hclosed
    rw [heq]
    exact (released_le_allotted hs grantId).trans hle

omit [DecidableEq Address] in
theorem Covered.congr {paid : Int} (h : Covered s grantId paid)
    (hgrant : getGrant s' grantId = getGrant s grantId)
    (hreleased : released s' grantId = released s grantId)
    (hallotted : allotted s' grantId = allotted s grantId) : Covered s' grantId paid := by
  refine ⟨?_, ?_, ?_⟩
  · rw [hgrant]
    exact h.absent
  · rw [hgrant, hreleased, hallotted]
    exact h.open_
  · rw [hgrant]
    exact h.closed

omit [DecidableEq Address] in
/-- The grant is stored anew, with its total. -/
theorem Covered.store {paid : Int} (hs : Milestones s) (hget : getGrant s grantId = some grant)
    (hpaid : paid = released s grantId) (hle : allotted s grantId ≤ grant.totalAmount.val) :
    Covered s grantId paid := by
  refine ⟨?_, ?_, ?_⟩
  · intro hnone
    rw [hget] at hnone
    cases hnone
  · intro grant₁ hget₁ _
    rw [hget] at hget₁
    cases hget₁
    exact ⟨hpaid, hle⟩
  · intro grant₁ hget₁ _
    rw [hget] at hget₁
    cases hget₁
    rw [hpaid]
    exact (released_le_allotted hs grantId).trans hle

variable {admin tokenContract : Address} {paid : Int}

theorem Covered.applied {applicant : Address} {totalAmount : I128} {milestoneCount : U32} {id : U64}
    (h : Covered s grantId paid) (hs : Filed admin tokenContract s) (hs' : Milestones s')
    (ha : Applied s s' applicant totalAmount milestoneCount id grant) :
    Covered s' grantId paid := by
  obtain ⟨hreleased, hallotted⟩ := sums_congr ha.milestones grantId
  by_cases hid : grantId = id
  · have hnone := hs.indexed.fresh ha.next
    rw [← hid] at hnone
    have hzero := total_eq_zero_of_none hs.milestones hnone fun _ => allotment_other
    refine .store hs' (by rw [getGrant_set ha.grants, if_pos hid]) ?_ ?_
    · rw [h.absent hnone, hreleased]
      exact (total_eq_zero_of_none hs.milestones hnone fun _ => releasedAmount_other).symm
    · rw [hallotted, ha.total_eq]
      exact hzero.le.trans ha.pos.le
  · exact h.congr (by rw [getGrant_set ha.grants, if_neg hid]) hreleased hallotted

omit [DecidableEq Address] in
theorem Covered.decided {id : U64} {status : GrantStatus} {approvedAt : U64}
    (h : Covered s grantId paid) (hs' : Milestones s')
    (hd : Decided s s' id status approvedAt grant) : Covered s' grantId paid := by
  obtain ⟨hreleased, hallotted⟩ := sums_congr hd.milestones grantId
  by_cases hid : grantId = id
  · have hopen : ¬ grant.status.Closed := by
      rw [hd.pending]
      exact GrantStatus.pending_not_closed
    obtain ⟨heq, hle⟩ := h.open_ grant (by rw [hid, hd.get]) hopen
    refine .store hs' (by rw [getGrant_set hd.grants, if_pos hid]) ?_ ?_
    · rw [hreleased, heq]
    · rw [hallotted]
      exact hle
  · exact h.congr (by rw [getGrant_set hd.grants, if_neg hid]) hreleased hallotted

omit [DecidableEq Address] in
/-- A milestone is set, of a grant that is closed or in which it was not released
and has room. -/
theorem Covered.milestoneSet {id : U64} {description : String} {amount : I128}
    (h : Covered s grantId paid) (hs : Milestones s) (hs' : Milestones s')
    (hget : getGrant s id = some grant)
    (hm : MilestoneSet s s' id idx (newMilestone id idx description amount))
    (hunreleased : ¬ grant.status.Closed → ∀ milestone, getMilestone s id idx = some milestone →
      milestone.released = false)
    (hroom : ¬ grant.status.Closed →
      allotted s id - allottedAt s id idx + amount.val ≤ grant.totalAmount.val) :
    Covered s' grantId paid := by
  have hgrant := getGrant_congr hm.grants grantId
  by_cases hid : grantId = id
  · subst hid
    by_cases hclosed : grant.status.Closed
    · refine ⟨?_, ?_, ?_⟩
      · intro hnone
        rw [hgrant, hget] at hnone
        cases hnone
      · intro grant₁ hget₁ hopen
        rw [hgrant, hget] at hget₁
        cases hget₁
        exact absurd hclosed hopen
      · rw [hgrant]
        exact h.closed
    · obtain ⟨heq, hle⟩ := h.open_ grant hget hclosed
      have hold : Table.share (releasedAmount grantId) s.grantMilestone (grantId, idx) = 0 := by
        cases hold : s.grantMilestone.get (grantId, idx) with
        | none => rw [Table.share, hold]; rfl
        | some milestone =>
          rw [Table.share_of_get hold]
          exact releasedAmount_unreleased (hunreleased hclosed milestone hold)
      have hnew : allotment grantId (newMilestone grantId idx description amount) = amount.val :=
        if_pos rfl
      refine .store hs' (hgrant.trans hget) ?_ ?_
      · rw [heq, released, released, hm.milestones]
        refine (Table.total_set_same ?_).symm
        rw [hold, releasedAmount_unreleased (by rfl)]
      · rw [allotted, hm.milestones, Table.total_set, hnew]
        exact hroom hclosed
  · refine h.congr hgrant ?_ ?_
    · exact total_set_other hs (by rfl) hm.milestones hid fun _ => releasedAmount_other
    · exact total_set_other hs (by rfl) hm.milestones hid fun _ => allotment_other

omit [DecidableEq Address] in
theorem Covered.paidOut {id : U64} (h : Covered s grantId paid) (hs : Milestones s)
    (hs' : Milestones s') (hp : PaidOut env s s' id idx transfer grant milestone all) :
    Covered s' grantId (paid + if grantId = id then milestone.amount.val else 0) := by
  by_cases hid : grantId = id
  · subst hid
    obtain ⟨heq, hle⟩ := h.open_ grant hp.get (GrantStatus.not_closed hp.open_)
    refine .store hs' (by rw [getGrant_set hp.grants, if_pos rfl]) ?_ ?_
    · rw [if_pos rfl, released_paidOut hs hp, heq]
    · rw [allotted_paidOut hp]
      exact hle
  · obtain ⟨hfiled, _⟩ := hs.filed id idx milestone hp.get_milestone
    rw [if_neg hid, Int.add_zero]
    refine h.congr (by rw [getGrant_set hp.grants, if_neg hid]) ?_ ?_
    · exact total_set_other hs (by exact hfiled) hp.milestones hid fun _ => releasedAmount_other
    · exact total_set_other hs (by exact hfiled) hp.milestones hid fun _ => allotment_other

/-- A call that does not overallot keeps the grant covered. -/
theorem Covered.step (h : Covered s grantId paid) (hs : Filed admin tokenContract s)
    (hnot : ¬ Overallots s i) (he : exec s i = .ok s') :
    Covered s' grantId (paid + sentFor grantId s i) := by
  have hs' := (hs.step he).milestones
  cases exec_effect hs.admin he with
  | applied applicant title description totalAmount milestoneCount id grant hcall ha =>
    have hzero : sentFor grantId s i = 0 := by
      rw [sentFor, hcall]
    rw [hzero, Int.add_zero]
    exact h.applied hs hs' ha
  | decided id status approvedAt grant hcall hd =>
    have hzero : sentFor grantId s i = 0 := by
      rcases hcall with ⟨_, _, hcall⟩ | ⟨_, _, hcall⟩
      · rw [sentFor, hcall]
      · rw [sentFor, hcall]
    rw [hzero, Int.add_zero]
    exact h.decided hs' hd
  | milestoneSet admin' id idx description amount grant hcall hmay hm =>
    have hzero : sentFor grantId s i = 0 := by
      rw [sentFor, hcall]
    rw [hzero, Int.add_zero]
    refine h.milestoneSet hs.milestones hs' hmay.get hm ?_ ?_
    · intro hopen milestone hget
      refine Bool.eq_false_of_not_eq_true fun hr => hnot ?_
      exact ⟨admin', id, idx, description, amount, grant, hcall, hmay, hopen,
        .inl ⟨milestone, hget, hr⟩⟩
    · intro hopen
      refine not_lt.mp fun hlt => hnot ?_
      exact ⟨admin', id, idx, description, amount, grant, hcall, hmay, hopen, .inr hlt⟩
  | paidOut id idx transfer grant milestone all hcall hp =>
    rw [sentFor_paidOut hcall he hp]
    exact h.paidOut hs.milestones hs' hp

/-! ## A milestone once paid out -/

/-- The milestone is released, or its grant takes no payouts any more. -/
def Settled (s : Storage Address) (grantId : U64) (idx : U32) : Prop :=
  (∃ grant, getGrant s grantId = some grant ∧ grant.status.Closed) ∨
  ∃ milestone, getMilestone s grantId idx = some milestone ∧ milestone.released = true

omit [DecidableEq Address] in
theorem PaidOut.settled (hp : PaidOut env s s' grantId idx transfer grant milestone all) :
    Settled s' grantId idx := by
  refine .inr ⟨milestone.paid env.timestamp, ?_, rfl⟩
  rw [getMilestone_set hp.milestones, if_pos ⟨rfl, rfl⟩]

omit [DecidableEq Address] in
theorem PaidOut.not_settled (hp : PaidOut env s s' grantId idx transfer grant milestone all) :
    ¬ Settled s grantId idx := by
  rintro (⟨grant', hget, hclosed⟩ | ⟨milestone', hget, hreleased⟩)
  · rw [hp.get] at hget
    cases hget
    exact GrantStatus.not_closed hp.open_ hclosed
  · rw [hp.get_milestone] at hget
    cases hget
    rw [hp.unreleased] at hreleased
    cases hreleased

/-- A closed grant stays closed. -/
theorem closed_step (hs : Filed admin tokenContract s) (he : exec s i = .ok s')
    (hget : getGrant s grantId = some grant) (hclosed : grant.status.Closed) :
    ∃ grant', getGrant s' grantId = some grant' ∧ grant'.status.Closed := by
  cases exec_effect hs.admin he with
  | applied _ _ _ _ _ id _ _ ha =>
    have hne : grantId ≠ id := by
      rintro rfl
      rw [hs.indexed.fresh ha.next] at hget
      cases hget
    exact ⟨grant, by rw [getGrant_set ha.grants, if_neg hne, hget], hclosed⟩
  | decided id _ _ grant' _ hd =>
    have hne : grantId ≠ id := by
      rintro rfl
      rw [hd.get] at hget
      cases hget
      rw [hd.pending] at hclosed
      exact GrantStatus.pending_not_closed hclosed
    exact ⟨grant, by rw [getGrant_set hd.grants, if_neg hne, hget], hclosed⟩
  | milestoneSet _ _ _ _ _ _ _ _ hm =>
    exact ⟨grant, by rw [getGrant_congr hm.grants, hget], hclosed⟩
  | paidOut id _ _ grant' _ _ _ hp =>
    have hne : grantId ≠ id := by
      rintro rfl
      rw [hp.get] at hget
      cases hget
      exact GrantStatus.not_closed hp.open_ hclosed
    exact ⟨grant, by rw [getGrant_set hp.grants, if_neg hne, hget], hclosed⟩

/-- A call that does not overallot leaves a settled milestone settled. -/
theorem Settled.step (h : Settled s grantId idx) (hs : Filed admin tokenContract s)
    (hnot : ¬ Overallots s i) (he : exec s i = .ok s') : Settled s' grantId idx := by
  rcases h with ⟨grant, hget, hclosed⟩ | ⟨milestone, hget, hreleased⟩
  · exact .inl (closed_step hs he hget hclosed)
  · cases exec_effect hs.admin he with
    | applied _ _ _ _ _ _ _ _ ha =>
      exact .inr ⟨milestone, by rw [getMilestone_congr ha.milestones, hget], hreleased⟩
    | decided _ _ _ _ _ hd =>
      exact .inr ⟨milestone, by rw [getMilestone_congr hd.milestones, hget], hreleased⟩
    | milestoneSet admin' id idx' description amount grant hcall hmay hm =>
      by_cases hkey : grantId = id ∧ idx = idx'
      · obtain ⟨rfl, rfl⟩ := hkey
        by_cases hclosed : grant.status.Closed
        · exact .inl ⟨grant, by rw [getGrant_congr hm.grants, hmay.get], hclosed⟩
        · exact absurd ⟨admin', grantId, idx, description, amount, grant, hcall, hmay, hclosed,
            .inl ⟨milestone, hget, hreleased⟩⟩ hnot
      · exact .inr ⟨milestone, by rw [getMilestone_set hm.milestones, if_neg hkey, hget], hreleased⟩
    | paidOut id idx' transfer grant milestone' all _ hp =>
      by_cases hkey : grantId = id ∧ idx = idx'
      · obtain ⟨rfl, rfl⟩ := hkey
        exact hp.settled
      · exact .inr ⟨milestone, by rw [getMilestone_set hp.milestones, if_neg hkey, hget], hreleased⟩

end Steps

/-! ## Runs -/

section Runs

variable {admin tokenContract : Address} {s₀ : Storage Address}

theorem covered_after (h : Initialised admin tokenContract s₀) (past : List (Input Address))
    (hguard : Guarded (fun earlier i => ¬ Overallots (after exec s₀ earlier) i) past)
    (grantId : U64) : Covered (after exec s₀ past) grantId (paidFor s₀ grantId past) := by
  refine after_history_guarded (P := fun past s => Covered s grantId (paidFor s₀ grantId past))
    ?_ ?_ ?_ past hguard
  · obtain ⟨env, peers, hc⟩ := h
    obtain ⟨_, _, rfl⟩ := initializeContract_ok hc
    refine ⟨fun _ => rfl, ?_, ?_⟩
    · intro grant hget
      exact absurd hget Table.get_empty_ne_some
    · intro grant hget
      exact absurd hget Table.get_empty_ne_some
  · rintro past i s s' _ hnot rfl hp he
    rw [paidFor, accumulated_ok he]
    exact hp.step (filed_after h past) hnot he
  · rintro past i s t _ _ rfl hp he
    rw [paidFor, accumulated_error he]
    exact hp

theorem paid_once (h : Initialised admin tokenContract s₀) {past : List (Input Address)}
    (hguard : Guarded (fun earlier i => ¬ Overallots (after exec s₀ earlier) i) past)
    {grantId : U64} {idx : U32} {i j : Input Address} {e f : List (Input Address)}
    (hi : i :: e <:+ past) (hpi : i.call.Pays grantId idx) (hai : Accepted exec s₀ e i)
    (hj : j :: f <:+ past) (hpj : j.call.Pays grantId idx) (haj : Accepted exec s₀ f j) :
    i :: e = j :: f := by
  refine accepted_once (fun _ i => i.call.Pays grantId idx) (fun s => Settled s grantId idx)
    ?_ ?_ ?_ hi hpi hai hj hpj haj
  · intro s i s' hpays he
    obtain ⟨_, _, _, _, hp⟩ := exec_pays hpays he
    exact hp.settled
  · intro e i s' hsuf hsettled he
    exact hsettled.step (filed_after h e) (hguard.suffix hsuf).1 he
  · intro s i s' hpays hsettled he
    obtain ⟨_, _, _, _, hp⟩ := exec_pays hpays he
    exact hp.not_settled hsettled

/-- In a run without overallotments a grant pays at most its total, and each of its
milestones once. -/
theorem payout_bounded (h : Initialised admin tokenContract s₀) (past : List (Input Address))
    (hguard : Guarded (fun earlier i => ¬ Overallots (after exec s₀ earlier) i) past) :
    (∀ grantId grant, getGrant (after exec s₀ past) grantId = some grant →
      paidFor s₀ grantId past ≤ grant.totalAmount.val) ∧
    ∀ grantId idx i e j f, i :: e <:+ past → i.call.Pays grantId idx → Accepted exec s₀ e i →
      j :: f <:+ past → j.call.Pays grantId idx → Accepted exec s₀ f j → i :: e = j :: f := by
  refine ⟨?_, ?_⟩
  · intro grantId grant hget
    exact (covered_after h past hguard grantId).le (filed_after h past).milestones hget
  · intro grantId idx i e j f hi hpi hai hj hpj haj
    exact paid_once h hguard hi hpi hai hj hpj haj

/-- The milestones are paid out, one on each path. -/
def examplePaid : List (Input Nat) :=
  [exampleInput [2] (.submitReport 2 (.lit 1) (.lit 1) "built"),
    exampleInput [1] (.releaseMilestoneFunds 1 (.lit 1) 0)] ++ exampleSetup

theorem payout_bounded_paid :
    ∃ grant, getGrant (after exec exampleGrants examplePaid) (.lit 1) = some grant ∧
      paidFor exampleGrants (.lit 1) examplePaid ≤ grant.totalAmount.val := by
  obtain ⟨grant, hget⟩ := Option.isSome_iff_exists.mp
    (show (getGrant (after exec exampleGrants examplePaid) (.lit 1)).isSome = true by
      decide +kernel)
  have hguard : Guarded (fun earlier i => ¬ Overallots (after exec exampleGrants earlier) i)
      examplePaid := by
    refine ⟨?_, ?_, ?_, ?_, ?_, ?_, trivial⟩
    · exact not_overallots_other (by rintro _ _ _ _ _ hc; cases hc)
    · exact not_overallots_other (by rintro _ _ _ _ _ hc; cases hc)
    · exact not_overallots_other (by rintro _ _ _ _ _ hc; cases hc)
    · exact not_overallots_set (by rfl) (by decide +kernel) (by decide +kernel)
    · exact not_overallots_set (by rfl) (by decide +kernel) (by decide +kernel)
    · exact not_overallots_other (by rintro _ _ _ _ _ hc; cases hc)
  exact ⟨grant, hget, (payout_bounded exampleGrants_initialised examplePaid hguard).1 _ grant hget⟩

/-- The first milestone is released, set once more and reported. -/
def exampleOverpaid : List (Input Nat) :=
  [exampleInput [2] (.submitReport 2 (.lit 1) 0 "done"),
    exampleInput [1] (.setMilestone 1 (.lit 1) 0 "books" (.lit 900)),
    exampleInput [1] (.releaseMilestoneFunds 1 (.lit 1) 0)] ++ exampleSetup

/-- The grant of 1000 has paid 1800, the first milestone twice. -/
theorem payout_unbounded :
    Initialised 1 9 exampleGrants ∧
    (∃ grant, getGrant (after exec exampleGrants exampleOverpaid) (.lit 1) = some grant ∧
      grant.totalAmount.val < paidFor exampleGrants (.lit 1) exampleOverpaid) ∧
    ∃ i e j f, i :: e <:+ exampleOverpaid ∧ i.call.Pays (.lit 1) 0 ∧
      Accepted exec exampleGrants e i ∧ j :: f <:+ exampleOverpaid ∧ j.call.Pays (.lit 1) 0 ∧
      Accepted exec exampleGrants f j ∧ i :: e ≠ j :: f := by
  refine ⟨exampleGrants_initialised, ?_, ?_⟩
  · obtain ⟨grant, hget, htotal⟩ := Option.map_eq_some_iff.mp
      (show (getGrant (after exec exampleGrants exampleOverpaid) (.lit 1)).map
        (fun grant => grant.totalAmount.val) = some 1000 by decide +kernel)
    refine ⟨grant, hget, ?_⟩
    rw [htotal]
    decide +kernel
  · refine ⟨exampleInput [2] (.submitReport 2 (.lit 1) 0 "done"), exampleOverpaid.drop 1,
      exampleInput [1] (.releaseMilestoneFunds 1 (.lit 1) 0), exampleSetup, List.suffix_refl _,
      .inr ⟨2, "done", rfl⟩, accepted_iff.mpr (by decide +kernel), ?_, .inl ⟨1, rfl⟩,
      accepted_iff.mpr (by decide +kernel), ?_⟩
    · exact (List.suffix_cons _ _).trans (List.suffix_cons _ _)
    · intro heq
      exact absurd (congrArg List.length heq) (by decide)

end Runs

end Scoopdope.Grants
