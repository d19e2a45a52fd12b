import Scoopdope.Grants.Contract

/-!
# Grants: what an accepted call does

From a call that returned, the checks that passed and the storage it wrote. The
two decisions on a pending grant have one effect (`Decided`), and so have the two
ways to pay a milestone out (`PaidOut`).
-/

namespace Scoopdope.Grants

open Soroban

variable {Address : Type}

/-! ## The loop over the milestones -/

section Loop

variable {s : Storage Address} {grantId : U64}

/-- The loop answers whether every milestone is released. -/
theorem allReleased_ok {idxs : List U32} {all : Bool} (h : allReleased s grantId idxs = .ok all) :
    all = true ↔ ∀ idx ∈ idxs, ∃ milestone, getMilestone s grantId idx = some milestone ∧
      milestone.released = true := by
  induction idxs with
  | nil =>
    cases h
    exact iff_of_true rfl fun idx hidx => absurd hidx List.not_mem_nil
  | cons idx rest ih =>
    obtain ⟨milestone, hget, h⟩ := bind_eq_ok.mp h
    rw [expect_eq_ok] at hget
    split at h
    · next hunreleased =>
      cases h
      refine iff_of_false Bool.noConfusion fun hall => ?_
      obtain ⟨milestone', hget', hreleased⟩ := hall idx List.mem_cons_self
      rw [getMilestone, hget] at hget'
      cases hget'
      rw [hunreleased] at hreleased
      cases hreleased
    · next hreleased =>
      rw [ih h, List.forall_mem_cons]
      exact ⟨fun hrest => ⟨⟨milestone, hget, Bool.eq_true_of_not_eq_false hreleased⟩, hrest⟩,
        fun hboth => hboth.2⟩

/-- With every milestone set, the loop gets through. -/
theorem allReleased_of_set {idxs : List U32}
    (h : ∀ idx ∈ idxs, ∃ milestone, getMilestone s grantId idx = some milestone) :
    ∃ all, allReleased s grantId idxs = .ok all := by
  induction idxs with
  | nil => exact ⟨true, rfl⟩
  | cons idx rest ih =>
    obtain ⟨⟨milestone, hget⟩, hrest⟩ := List.forall_mem_cons.mp h
    obtain ⟨all, hall⟩ := ih hrest
    have hexpect : expect (s.grantMilestone.get (grantId, idx)) "Milestone not found" =
        .ok milestone := expect_eq_ok.mpr hget
    rw [allReleased, hexpect, ok_bind]
    split
    · exact ⟨false, rfl⟩
    · exact ⟨all, hall⟩

end Loop

/-! ## Effects -/

/-- The status after a release: `all` says whether every milestone is released. -/
def GrantStatus.afterRelease (status : GrantStatus) (all : Bool) : GrantStatus :=
  if all = true then .completed else if status = .approved then .active else status

/-- What an application fixes for good. -/
structure SameTerms (grant grant' : GrantRecord Address) : Prop where
  applicant : grant'.applicant = grant.applicant
  totalAmount : grant'.totalAmount = grant.totalAmount
  milestoneCount : grant'.milestoneCount = grant.milestoneCount

theorem SameTerms.refl (grant : GrantRecord Address) : SameTerms grant grant := ⟨rfl, rfl, rfl⟩

/-- The keys written once, by `initialize`. -/
structure SameSetup (s s' : Storage Address) : Prop where
  admin : s'.admin = s.admin
  tokenContract : s'.tokenContract = s.tokenContract

variable [DecidableEq Address]

/-- A new grant under the next id, at the end of its applicant's list. -/
structure Applied (s s' : Storage Address) (applicant : Address) (totalAmount : I128)
    (milestoneCount : U32) (id : U64) (grant : GrantRecord Address) : Prop where
  next : s.nextGrantId = some id
  pos : 0 < totalAmount.val
  some_milestone : 0 < milestoneCount.val
  applicant_eq : grant.applicant = applicant
  total_eq : grant.totalAmount = totalAmount
  count_eq : grant.milestoneCount = milestoneCount
  pending : grant.status = .pending
  grants : s'.grant = s.grant.set id grant
  index : s'.applicantGrants =
    s.applicantGrants.set applicant (getApplicantGrants s applicant ++ [id])
  next' : ∃ nextId : U64, nextId.val = id.val + 1 ∧ s'.nextGrantId = some nextId
  milestones : s'.grantMilestone = s.grantMilestone
  transfers : s'.transfers = s.transfers
  setup : SameSetup s s'

/-- The admin decides on a pending grant. -/
structure Decided (s s' : Storage Address) (grantId : U64) (status : GrantStatus)
    (approvedAt : U64) (grant : GrantRecord Address) : Prop where
  get : getGrant s grantId = some grant
  pending : grant.status = .pending
  grants : s'.grant = s.grant.set grantId { grant with status, approvedAt }
  index : s'.applicantGrants = s.applicantGrants
  next : s'.nextGrantId = s.nextGrantId
  milestones : s'.grantMilestone = s.grantMilestone
  transfers : s'.transfers = s.transfers
  setup : SameSetup s s'

/-- The checks of `set_milestone`. -/
structure MaySet (env : Env Address) (s : Storage Address) (admin : Address) (grantId : U64)
    (milestoneIdx : U32) (amount : I128) (grant : GrantRecord Address) : Prop where
  auth : admin ∈ env.auths
  is_admin : s.admin = some admin
  get : getGrant s grantId = some grant
  idx : milestoneIdx.val < grant.milestoneCount.val
  pos : 0 < amount.val

/-- A milestone as `set_milestone` writes it: not released, whatever was stored. -/
def newMilestone (grantId : U64) (milestoneIdx : U32) (description : String) (amount : I128) :
    MilestoneRecord :=
  { grantId, milestoneIdx, description, amount, released := false, releasedAt := 0 }

/-- A milestone marked as released. -/
def MilestoneRecord.paid (milestone : MilestoneRecord) (releasedAt : U64) : MilestoneRecord :=
  { milestone with released := true, releasedAt }

/-- A milestone is paid out: of an approved or active grant, not released before.
`all` says whether every milestone is released now. -/
structure PaidOut (env : Env Address) (s s' : Storage Address) (grantId : U64)
    (milestoneIdx : U32) (transfer : Transfer Address) (grant : GrantRecord Address)
    (milestone : MilestoneRecord) (all : Bool) : Prop where
  get : getGrant s grantId = some grant
  open_ : grant.status = .approved ∨ grant.status = .active
  get_milestone : getMilestone s grantId milestoneIdx = some milestone
  unreleased : milestone.released = false
  loop : allReleased s' grantId grant.milestoneCount.upTo = .ok all
  grants : s'.grant = s.grant.set grantId { grant with status := grant.status.afterRelease all }
  milestones : s'.grantMilestone =
    s.grantMilestone.set (grantId, milestoneIdx) (milestone.paid env.timestamp)
  spender : transfer.spender = env.currentContractAddress
  from_admin : s.admin = some transfer.from_
  token : s.tokenContract = some transfer.tokenContract
  to_applicant : transfer.to_ = grant.applicant
  amount : transfer.amount = milestone.amount
  transfers : s'.transfers = transfer :: s.transfers
  index : s'.applicantGrants = s.applicantGrants
  next : s'.nextGrantId = s.nextGrantId
  setup : SameSetup s s'

/-! ## Entry points -/

section EntryPoints

variable {env : Env Address} {peers : Peers Address} {s s' : Storage Address}

theorem initializeContract_ok {admin tokenContract : Address}
    (h : initializeContract env peers s admin tokenContract = .ok s') :
    s.admin = none ∧ admin ∈ env.auths ∧
      s' = { s with
        admin := some admin
        tokenContract := some tokenContract
        nextGrantId := some (.lit 1) } := by
  simp only [initializeContract, bind_eq_ok, assert_eq_ok, Option.isSome_eq_false_iff,
    Option.isNone_iff_eq_none, Env.requireAuth_eq_ok, pure_eq_ok, exists_const] at h
  obtain ⟨hnone, hauth, _, _, rfl⟩ := h
  exact ⟨hnone, hauth, rfl⟩

theorem applyForGrant_ok {applicant : Address} {title description : String} {totalAmount : I128}
    {milestoneCount : U32} {id : U64}
    (h : applyForGrant env s applicant title description totalAmount milestoneCount =
      .ok (id, s')) :
    applicant ∈ env.auths ∧
      ∃ grant, Applied s s' applicant totalAmount milestoneCount id grant := by
  simp only [applyForGrant, bind_eq_ok, assert_eq_ok, unwrap_eq_ok, Env.requireAuth_eq_ok,
    pure_eq_ok, exists_const, BoundedInt.add_eq_ok, BoundedInt.lit_val, Prod.mk.injEq] at h
  obtain ⟨hauth, hpos, hcount, _, hnext, nextId, hnextId, rfl, rfl⟩ := h
  exact ⟨hauth, _, hnext, hpos, hcount, rfl, rfl, rfl, rfl, rfl, rfl, ⟨nextId, hnextId, rfl⟩, rfl,
    rfl, rfl, rfl⟩

theorem approveGrant_ok {admin : Address} {grantId : U64}
    (h : approveGrant env s admin grantId = .ok s') :
    admin ∈ env.auths ∧ s.admin = some admin ∧
      ∃ approvedAt grant, Decided s s' grantId .approved approvedAt grant := by
  simp only [approveGrant, bind_eq_ok, assert_eq_ok, unwrap_eq_ok, expect_eq_ok,
    Env.requireAuth_eq_ok, pure_eq_ok, exists_const] at h
  obtain ⟨hauth, _, hadmin, rfl, grant, hget, hpending, rfl⟩ := h
  exact ⟨hauth, hadmin, env.timestamp, grant, hget, hpending, rfl, rfl, rfl, rfl, rfl, rfl, rfl⟩

theorem rejectGrant_ok {admin : Address} {grantId : U64}
    (h : rejectGrant env s admin grantId = .ok s') :
    admin ∈ env.auths ∧ s.admin = some admin ∧
      ∃ approvedAt grant, Decided s s' grantId .rejected approvedAt grant := by
  simp only [rejectGrant, bind_eq_ok, assert_eq_ok, unwrap_eq_ok, expect_eq_ok,
    Env.requireAuth_eq_ok, pure_eq_ok, exists_const] at h
  obtain ⟨hauth, _, hadmin, rfl, grant, hget, hpending, rfl⟩ := h
  exact ⟨hauth, hadmin, grant.approvedAt, grant, hget, hpending, rfl, rfl, rfl, rfl, rfl, rfl,
    rfl⟩

/-- `set_milestone` is accepted exactly under its checks, and writes the milestone
and an event. -/
theorem setMilestone_ok {admin : Address} {grantId : U64} {milestoneIdx : U32}
    {description : String} {amount : I128} :
    setMilestone env s admin grantId milestoneIdx description amount = .ok s' ↔
      (∃ grant, MaySet env s admin grantId milestoneIdx amount grant) ∧
      s' = { s with
          grantMilestone := s.grantMilestone.set (grantId, milestoneIdx)
            (newMilestone grantId milestoneIdx description amount) }.publish
        [.symbol "grants", .symbol "milestone"]
        [.u64 grantId, .u32 milestoneIdx, .i128 amount] := by
  simp only [setMilestone, bind_eq_ok, assert_eq_ok, unwrap_eq_ok, expect_eq_ok,
    Env.requireAuth_eq_ok, pure_eq_ok, exists_const]
  constructor
  · rintro ⟨hauth, _, hadmin, rfl, grant, hget, hidx, hpos, rfl⟩
    exact ⟨⟨grant, hauth, hadmin, hget, hidx, hpos⟩, rfl⟩
  · rintro ⟨⟨grant, hauth, hadmin, hget, hidx, hpos⟩, rfl⟩
    exact ⟨hauth, _, hadmin, rfl, grant, hget, hidx, hpos, rfl⟩

omit [DecidableEq Address] in
theorem allReleased_congr (h : s'.grantMilestone = s.grantMilestone) (grantId : U64)
    (idxs : List U32) : allReleased s' grantId idxs = allReleased s grantId idxs := by
  induction idxs with
  | nil => rfl
  | cons idx rest ih => rw [allReleased, allReleased, h, ih]

omit [DecidableEq Address] in
theorem releaseMilestone_ok {grant : GrantRecord Address} {milestone : MilestoneRecord}
    {grantId : U64} {milestoneIdx : U32}
    (h : releaseMilestone env s grant milestone grantId milestoneIdx = .ok s') :
    ∃ all, allReleased s' grantId grant.milestoneCount.upTo = .ok all ∧
      s' = { s with
        grantMilestone :=
          s.grantMilestone.set (grantId, milestoneIdx) (milestone.paid env.timestamp)
        grant := s.grant.set grantId
          { grant with status := grant.status.afterRelease all } } := by
  simp only [releaseMilestone, bind_eq_ok, pure_eq_ok] at h
  obtain ⟨all, hall, rfl⟩ := h
  refine ⟨all, ?_, ?_⟩
  · have hcount : (if grant.status = .approved then { grant with status := .active }
        else grant).milestoneCount = grant.milestoneCount := by
      split <;> rfl
    rw [hcount] at hall
    exact (allReleased_congr (by rfl) grantId _).trans hall
  · have hgrant : (if all = true then
        { (if grant.status = .approved then { grant with status := .active } else grant) with
          status := .completed }
        else if grant.status = .approved then { grant with status := .active } else grant) =
        { grant with status := grant.status.afterRelease all } := by
      unfold GrantStatus.afterRelease
      split
      · split <;> rfl
      · split <;> rfl
    rw [hgrant]
    rfl

omit [DecidableEq Address] in
/-- The statements that the two payout paths share. -/
theorem payout_ok {s₁ : Storage Address} {grant : GrantRecord Address}
    {milestone : MilestoneRecord} {grantId : U64} {milestoneIdx : U32} {admin : Address}
    (hget : getGrant s grantId = some grant)
    (hopen : grant.status = .approved ∨ grant.status = .active)
    (hmilestone : getMilestone s grantId milestoneIdx = some milestone)
    (hunreleased : milestone.released = false) (hadmin : s.admin = some admin)
    (h₁ : releaseMilestone env s grant milestone grantId milestoneIdx = .ok s₁)
    (h₂ : transferToApplicant env peers s₁ admin grant.applicant milestone.amount = .ok s') :
    ∃ transfer all, PaidOut env s s' grantId milestoneIdx transfer grant milestone all := by
  obtain ⟨all, hall, rfl⟩ := releaseMilestone_ok h₁
  simp only [transferToApplicant, bind_eq_ok, unwrap_eq_ok, pure_eq_ok] at h₂
  obtain ⟨tokenContract, htoken, _, _, rfl⟩ := h₂
  exact ⟨⟨tokenContract, env.currentContractAddress, admin, grant.applicant, milestone.amount⟩, all,
    hget, hopen, hmilestone, hunreleased, (allReleased_congr (by rfl) grantId _).trans hall, rfl,
    rfl, rfl, hadmin, htoken, rfl, rfl, rfl, rfl, rfl, rfl, rfl⟩

section PaidOut

variable {grantId : U64} {milestoneIdx : U32} {transfer : Transfer Address}
  {grant : GrantRecord Address} {milestone : MilestoneRecord} {all : Bool}

omit [DecidableEq Address] in
theorem PaidOut.publish
    (h : PaidOut env s s' grantId milestoneIdx transfer grant milestone all)
    (topics data : List (Val Address)) :
    PaidOut env s (s'.publish topics data) grantId milestoneIdx transfer grant milestone all :=
  { h with
    loop := (allReleased_congr (by rfl) grantId _).trans h.loop
    setup := ⟨h.setup.admin, h.setup.tokenContract⟩ }

omit [DecidableEq Address] in
/-- The reports are no part of a payout. -/
theorem PaidOut.reported {reports : Table U64 (List ReportRecord)}
    (h : PaidOut env { s with grantReporting := reports } s' grantId milestoneIdx transfer grant
      milestone all) : PaidOut env s s' grantId milestoneIdx transfer grant milestone all :=
  { h with setup := ⟨h.setup.admin, h.setup.tokenContract⟩ }

end PaidOut

theorem releaseMilestoneFunds_ok {admin : Address} {grantId : U64} {milestoneIdx : U32}
    (h : releaseMilestoneFunds env peers s admin grantId milestoneIdx = .ok s') :
    admin ∈ env.auths ∧ s.admin = some admin ∧ ∃ transfer grant milestone all,
      grant.status = .approved ∧
      PaidOut env s s' grantId milestoneIdx transfer grant milestone all := by
  simp only [releaseMilestoneFunds, bind_eq_ok, assert_eq_ok, unwrap_eq_ok, expect_eq_ok,
    Env.requireAuth_eq_ok, pure_eq_ok, exists_const] at h
  obtain ⟨hauth, _, hadmin, rfl, grant, hget, happroved, milestone, hmilestone, hunreleased, s₁, h₁,
    s₂, h₂, rfl⟩ := h
  obtain ⟨transfer, all, hpaid⟩ :=
    payout_ok hget (.inl happroved) hmilestone hunreleased hadmin h₁ h₂
  exact ⟨hauth, hadmin, transfer, grant, milestone, all, happroved, hpaid.publish _ _⟩

theorem submitReport_ok {applicant : Address} {grantId : U64} {milestoneIdx : U32}
    {content : String}
    (h : submitReport env peers s applicant grantId milestoneIdx content = .ok s') :
    applicant ∈ env.auths ∧ ∃ transfer grant milestone all, grant.applicant = applicant ∧
      PaidOut env s s' grantId milestoneIdx transfer grant milestone all := by
  simp only [submitReport, bind_eq_ok, assert_eq_ok, unwrap_eq_ok, expect_eq_ok,
    Env.requireAuth_eq_ok, pure_eq_ok, exists_const] at h
  obtain ⟨hauth, grant, hget, happlicant, hopen, milestone, hmilestone, hunreleased, s₁, h₁, admin,
    hadmin, s₂, h₂, rfl⟩ := h
  have hadmin₀ : s.admin = some admin := by
    obtain ⟨_, _, rfl⟩ := releaseMilestone_ok h₁
    exact hadmin
  obtain ⟨transfer, all, hpaid⟩ := payout_ok (by exact hget) hopen (by exact hmilestone)
    hunreleased (by exact hadmin₀) h₁ h₂
  exact ⟨hauth, transfer, grant, milestone, all, happlicant,
    (hpaid.reported.publish _ _).publish _ _⟩

end EntryPoints

/-! ## One call -/

/-- A milestone is written, whatever was stored under its key. -/
structure MilestoneSet (s s' : Storage Address) (grantId : U64) (milestoneIdx : U32)
    (milestone : MilestoneRecord) : Prop where
  milestones : s'.grantMilestone = s.grantMilestone.set (grantId, milestoneIdx) milestone
  grants : s'.grant = s.grant
  transfers : s'.transfers = s.transfers
  index : s'.applicantGrants = s.applicantGrants
  next : s'.nextGrantId = s.nextGrantId
  setup : SameSetup s s'

/-- The call decides on the grant. -/
def Call.Decides (call : Call Address) (grantId : U64) (status : GrantStatus) : Prop :=
  (status = .approved ∧ ∃ admin, call = .approveGrant admin grantId) ∨
  (status = .rejected ∧ ∃ admin, call = .rejectGrant admin grantId)

/-- The call asks for the milestone to be paid out. -/
def Call.Pays (call : Call Address) (grantId : U64) (milestoneIdx : U32) : Prop :=
  (∃ admin, call = .releaseMilestoneFunds admin grantId milestoneIdx) ∨
  ∃ applicant content, call = .submitReport applicant grantId milestoneIdx content

/-- What an accepted call of an initialised contract does. -/
inductive Effect (s : Storage Address) (i : Input Address) (s' : Storage Address) : Prop
  | applied (applicant : Address) (title description : String) (totalAmount : I128)
      (milestoneCount : U32) (id : U64) (grant : GrantRecord Address)
      (hcall : i.call = .applyForGrant applicant title description totalAmount milestoneCount)
      (h : Applied s s' applicant totalAmount milestoneCount id grant)
  | decided (grantId : U64) (status : GrantStatus) (approvedAt : U64)
      (grant : GrantRecord Address) (hcall : i.call.Decides grantId status)
      (h : Decided s s' grantId status approvedAt grant)
  | milestoneSet (admin : Address) (grantId : U64) (milestoneIdx : U32) (description : String)
      (amount : I128) (grant : GrantRecord Address)
      (hcall : i.call = .setMilestone admin grantId milestoneIdx description amount)
      (hmay : MaySet i.env s admin grantId milestoneIdx amount grant)
      (h : MilestoneSet s s' grantId milestoneIdx
        (newMilestone grantId milestoneIdx description amount))
  | paidOut (grantId : U64) (milestoneIdx : U32) (transfer : Transfer Address)
      (grant : GrantRecord Address) (milestone : MilestoneRecord) (all : Bool)
      (hcall : i.call.Pays grantId milestoneIdx)
      (h : PaidOut i.env s s' grantId milestoneIdx transfer grant milestone all)

theorem exec_effect {s s' : Storage Address} {i : Input Address} {admin : Address}
    (hadmin : s.admin = some admin) (h : exec s i = .ok s') : Effect s i s' := by
  obtain ⟨env, peers, call⟩ := i
  cases call with
  | initializeContract admin' tokenContract =>
    obtain ⟨hnone, _⟩ := initializeContract_ok h
    rw [hadmin] at hnone
    cases hnone
  | applyForGrant applicant title description totalAmount milestoneCount =>
    obtain ⟨id, hc⟩ := map_snd_eq_ok.mp h
    obtain ⟨_, grant, happlied⟩ := applyForGrant_ok hc
    exact .applied applicant title description totalAmount milestoneCount id grant rfl happlied
  | approveGrant admin' grantId =>
    obtain ⟨_, _, approvedAt, grant, hdecided⟩ := approveGrant_ok h
    exact .decided grantId .approved approvedAt grant (.inl ⟨rfl, admin', rfl⟩) hdecided
  | rejectGrant admin' grantId =>
    obtain ⟨_, _, approvedAt, grant, hdecided⟩ := rejectGrant_ok h
    exact .decided grantId .rejected approvedAt grant (.inr ⟨rfl, admin', rfl⟩) hdecided
  | setMilestone admin' grantId milestoneIdx description amount =>
    obtain ⟨⟨grant, hmay⟩, rfl⟩ := setMilestone_ok.mp h
    exact .milestoneSet admin' grantId milestoneIdx description amount grant rfl hmay
      ⟨rfl, rfl, rfl, rfl, rfl, rfl, rfl⟩
  | releaseMilestoneFunds admin' grantId milestoneIdx =>
    obtain ⟨_, _, transfer, grant, milestone, all, _, hpaid⟩ := releaseMilestoneFunds_ok h
    exact .paidOut grantId milestoneIdx transfer grant milestone all (.inl ⟨admin', rfl⟩) hpaid
  | submitReport applicant grantId milestoneIdx content =>
    obtain ⟨_, transfer, grant, milestone, all, _, hpaid⟩ := submitReport_ok h
    exact .paidOut grantId milestoneIdx transfer grant milestone all
      (.inr ⟨applicant, content, rfl⟩) hpaid

/-- A payout, by either path. -/
theorem exec_pays {s s' : Storage Address} {i : Input Address} {grantId : U64} {idx : U32}
    (hcall : i.call.Pays grantId idx) (he : exec s i = .ok s') :
    ∃ transfer grant milestone all,
      PaidOut i.env s s' grantId idx transfer grant milestone all := by
  obtain ⟨env, peers, call⟩ := i
  rcases hcall with ⟨admin, rfl⟩ | ⟨applicant, content, rfl⟩
  · obtain ⟨_, _, transfer, grant, milestone, all, _, hp⟩ := releaseMilestoneFunds_ok he
    exact ⟨transfer, grant, milestone, all, hp⟩
  · obtain ⟨_, transfer, grant, milestone, all, _, hp⟩ := submitReport_ok he
    exact ⟨transfer, grant, milestone, all, hp⟩

/-! ## The initialised contract -/

/-- The storage after `initialize`. -/
def Initialised (admin tokenContract : Address) (s₀ : Storage Address) : Prop :=
  ∃ env peers, initializeContract env peers (Storage.fresh Address) admin tokenContract = .ok s₀

/-- The grants contract with contract 1 as admin and contract 9 as token. -/
def exampleGrants : Storage Nat :=
  { Storage.fresh Nat with
    admin := some 1
    tokenContract := some 9
    nextGrantId := some (.lit 1) }

/-- A token contract that does what it is asked. -/
def examplePeers : Peers Nat where
  approve _ _ _ _ := .ok ()
  transferFrom _ := .ok ()

theorem exampleGrants_initialised : Initialised 1 9 exampleGrants :=
  ⟨exampleEnv 0 [1], examplePeers, rfl⟩

def exampleInput (auths : List Nat) (call : Call Nat) : Input Nat :=
  ⟨exampleEnv 0 auths, examplePeers, call⟩

/-- Contract 2 applies for 1000 in two milestones and gets them as 900 and 100. -/
def exampleSetup : List (Input Nat) :=
  [exampleInput [1] (.approveGrant 1 (.lit 1)),
    exampleInput [1] (.setMilestone 1 (.lit 1) (.lit 1) "shelves" (.lit 100)),
    exampleInput [1] (.setMilestone 1 (.lit 1) 0 "books" (.lit 900)),
    exampleInput [2] (.applyForGrant 2 "school" "library" (.lit 1000) (.lit 2))]

end Scoopdope.Grants
