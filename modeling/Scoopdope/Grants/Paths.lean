import Scoopdope.Grants.Records

/-!
# Grants: the two payout paths

The milestones of an approved grant are released one after the other, each by
`release_milestone_funds` or by `submit_report`. The first payout makes the grant
active. `submit_report` goes on from there, `release_milestone_funds` does not: it
asks for an approved grant.

So an order of releases pays the grant out in full exactly if every release but
the first is by report (`paths_agree_iff`), and `second_release_refused` is the
shortest order that does not.
-/

namespace Scoopdope.Grants

open Soroban

variable {Address : Type}

/-! ## Orders of releases -/

inductive Path
  | funds
  | report (content : String)

/-- One release: the milestone, the way it is released, and what the call finds. -/
structure Release (Address : Type) where
  idx : U32
  path : Path
  env : Env Address
  peers : Peers Address

/-- The release as a call. -/
def Release.input (r : Release Address) (admin applicant : Address) (grantId : U64) :
    Input Address where
  env := r.env
  peers := r.peers
  call := match r.path with
    | .funds => .releaseMilestoneFunds admin grantId r.idx
    | .report content => .submitReport applicant grantId r.idx content

/-- The address that the path asks for has authorised the call. -/
def Release.Authorised (r : Release Address) (admin applicant : Address) : Prop :=
  match r.path with
  | .funds => admin ∈ r.env.auths
  | .report _ => applicant ∈ r.env.auths

/-- The tokens the release is to move. -/
def Release.payment (r : Release Address)
    (admin tokenContract applicant : Address) (amount : U32 → I128) :
    Transfer Address where
  tokenContract := tokenContract
  spender := r.env.currentContractAddress
  from_ := admin
  to_ := applicant
  amount := amount r.idx

variable [DecidableEq Address]

/-- The releases in their order; none may trap. -/
def releaseAll (admin applicant : Address) (grantId : U64) (s : Storage Address) :
    List (Release Address) → Outcome (Storage Address)
  | [] => pure s
  | r :: rest => do
    let s ← exec s (r.input admin applicant grantId)
    releaseAll admin applicant grantId s rest

/-- Every milestone is paid its amount once, by the releases in their order, and the
grant is completed with every milestone released. -/
structure PaidInFull (s s' : Storage Address) (admin tokenContract : Address) (grantId : U64)
    (grant : GrantRecord Address) (amount : U32 → I128) (order : List (Release Address)) :
    Prop where
  transfers : s'.transfers =
    (order.map fun r => r.payment admin tokenContract grant.applicant amount).reverse ++
      s.transfers
  completed : ∃ grant', getGrant s' grantId = some grant' ∧ SameTerms grant grant' ∧
    grant'.status = .completed
  released : ∀ idx, idx.val < grant.milestoneCount.val → ∃ milestone,
    getMilestone s' grantId idx = some milestone ∧ milestone.amount = amount idx ∧
    milestone.released = true

/-! ## One release -/

/-- Between the releases: these milestones are left. -/
structure Releasing (admin tokenContract : Address) (grantId : U64) (grant₀ : GrantRecord Address)
    (amount : U32 → I128) (status : GrantStatus) (remaining : List U32) (s : Storage Address) :
    Prop where
  admin : s.admin = some admin
  token : s.tokenContract = some tokenContract
  grant : ∃ grant, getGrant s grantId = some grant ∧ SameTerms grant₀ grant ∧ grant.status = status
  milestones : ∀ idx, idx.val < grant₀.milestoneCount.val → ∃ milestone,
    getMilestone s grantId idx = some milestone ∧ milestone.amount = amount idx ∧
    (milestone.released = true ↔ idx ∉ remaining)
  nodup : remaining.Nodup
  valid : ∀ idx ∈ remaining, idx.val < grant₀.milestoneCount.val

/-- The status with these milestones left, after the first release. -/
def statusWith : List U32 → GrantStatus
  | [] => .completed
  | _ :: _ => .active

section Steps

variable {env : Env Address} {peers : Peers Address} {s s' : Storage Address}
  {admin tokenContract : Address} {grantId : U64} {grant₀ grant : GrantRecord Address}
  {milestone : MilestoneRecord} {amount : U32 → I128} {status : GrantStatus} {idx : U32}
  {remaining : List U32} {transfer : Transfer Address} {all : Bool}

omit [DecidableEq Address] in
theorem releaseMilestone_succeeds
    (hset : ∀ k ∈ grant.milestoneCount.upTo, ∃ m, getMilestone s grantId k = some m) :
    ∃ s', releaseMilestone env s grant milestone grantId idx = .ok s' := by
  have hset' : ∀ k ∈ grant.milestoneCount.upTo, ∃ m, getMilestone
      { s with
        grantMilestone :=
          s.grantMilestone.set (grantId, idx) (milestone.paid env.timestamp) }
      grantId k = some m := by
    intro k hk
    rw [getMilestone_set rfl]
    split
    · exact ⟨_, rfl⟩
    · exact hset k hk
  obtain ⟨all, hall⟩ := allReleased_of_set hset'
  have hcount : (if grant.status = .approved then { grant with status := .active }
      else grant).milestoneCount = grant.milestoneCount := by
    split <;> rfl
  rw [← hcount] at hall
  refine ⟨_, bind_eq_ok.mpr ⟨all, hall, rfl⟩⟩

omit [DecidableEq Address] in
/-- The statements that the two paths share go through. -/
theorem payout_succeeds (env : Env Address) (admin : Address)
    (hset : ∀ k ∈ grant.milestoneCount.upTo, ∃ m, getMilestone s grantId k = some m)
    (htoken : s.tokenContract = some tokenContract)
    (hpeers : ∀ transfer, peers.transferFrom transfer = .ok ()) :
    ∃ s₁ s₂, releaseMilestone env s grant milestone grantId idx = .ok s₁ ∧ s₁.admin = s.admin ∧
      transferToApplicant env peers s₁ admin grant.applicant milestone.amount = .ok s₂ := by
  obtain ⟨s₁, h₁⟩ := releaseMilestone_succeeds hset
  have hkept : s₁.tokenContract = s.tokenContract ∧ s₁.admin = s.admin := by
    obtain ⟨_, _, rfl⟩ := releaseMilestone_ok h₁
    exact ⟨rfl, rfl⟩
  have h₂ : ∃ s₂, transferToApplicant env peers s₁ admin grant.applicant milestone.amount =
      .ok s₂ := by
    simp only [transferToApplicant, hkept.1, htoken, unwrap, ok_bind, hpeers]
    exact ⟨_, rfl⟩
  obtain ⟨s₂, h₂⟩ := h₂
  exact ⟨s₁, s₂, h₁, hkept.2, h₂⟩

theorem releaseMilestoneFunds_succeeds (hauth : admin ∈ env.auths) (hadmin : s.admin = some admin)
    (hget : getGrant s grantId = some grant) (happroved : grant.status = .approved)
    (hmilestone : getMilestone s grantId idx = some milestone)
    (hunreleased : milestone.released = false)
    (hset : ∀ k ∈ grant.milestoneCount.upTo, ∃ m, getMilestone s grantId k = some m)
    (htoken : s.tokenContract = some tokenContract)
    (hpeers : ∀ transfer, peers.transferFrom transfer = .ok ()) :
    ∃ s', releaseMilestoneFunds env peers s admin grantId idx = .ok s' := by
  obtain ⟨s₁, s₂, h₁, _, h₂⟩ := payout_succeeds env admin hset htoken hpeers
  simp only [releaseMilestoneFunds, bind_eq_ok, assert_eq_ok, unwrap_eq_ok, expect_eq_ok,
    Env.requireAuth_eq_ok, pure_eq_ok, exists_const]
  exact ⟨_, hauth, admin, hadmin, rfl, grant, hget, happroved, milestone, hmilestone, hunreleased,
    s₁, h₁, s₂, h₂, rfl⟩

theorem submitReport_succeeds (content : String) (hauth : grant.applicant ∈ env.auths)
    (hadmin : s.admin = some admin) (hget : getGrant s grantId = some grant)
    (hopen : grant.status = .approved ∨ grant.status = .active)
    (hmilestone : getMilestone s grantId idx = some milestone)
    (hunreleased : milestone.released = false)
    (hset : ∀ k ∈ grant.milestoneCount.upTo, ∃ m, getMilestone s grantId k = some m)
    (htoken : s.tokenContract = some tokenContract)
    (hpeers : ∀ transfer, peers.transferFrom transfer = .ok ()) :
    ∃ s', submitReport env peers s grant.applicant grantId idx content = .ok s' := by
  let reports := (s.grantReporting.get grantId).getD []
  let report : ReportRecord := ⟨grantId, idx, vecLen reports, content, env.timestamp⟩
  let sr := { s with grantReporting := s.grantReporting.set grantId (reports ++ [report]) }
  obtain ⟨s₁, s₂, h₁, hkept, h₂⟩ := payout_succeeds (s := sr) env admin hset htoken hpeers
  simp only [submitReport, bind_eq_ok, assert_eq_ok, unwrap_eq_ok, expect_eq_ok,
    Env.requireAuth_eq_ok, pure_eq_ok, exists_const]
  exact ⟨_, hauth, grant, hget, rfl, hopen, milestone, hmilestone, hunreleased, s₁, h₁, admin,
    hkept.trans hadmin, s₂, h₂, rfl⟩

variable {r : Release Address} {rest : List U32}

/-- A release succeeds if its path accepts the status of the grant. -/
theorem Releasing.succeeds
    (h : Releasing admin tokenContract grantId grant₀ amount status (r.idx :: rest) s)
    (hopen : status = .approved ∨ status = .active) (hpath : r.path = .funds → status = .approved)
    (hauth : r.Authorised admin grant₀.applicant)
    (hpeers : ∀ transfer, r.peers.transferFrom transfer = .ok ()) :
    ∃ s', exec s (r.input admin grant₀.applicant grantId) = .ok s' := by
  obtain ⟨grant, hget, hterms, rfl⟩ := h.grant
  obtain ⟨milestone, hmilestone, _, hreleased⟩ :=
    h.milestones r.idx (h.valid r.idx List.mem_cons_self)
  have hunreleased : milestone.released = false :=
    Bool.eq_false_of_not_eq_true fun hr => hreleased.mp hr List.mem_cons_self
  have hset : ∀ k ∈ grant.milestoneCount.upTo, ∃ m, getMilestone s grantId k = some m := by
    intro k hk
    rw [hterms.milestoneCount, BoundedInt.mem_upTo] at hk
    obtain ⟨m, hm, _⟩ := h.milestones k hk
    exact ⟨m, hm⟩
  rw [← hterms.applicant] at hauth ⊢
  unfold Release.Authorised at hauth
  unfold exec Release.input
  cases hr : r.path with
  | funds =>
    rw [hr] at hauth
    exact releaseMilestoneFunds_succeeds hauth h.admin hget (hpath hr) hmilestone hunreleased hset
      h.token hpeers
  | report content =>
    rw [hr] at hauth
    exact submitReport_succeeds content hauth h.admin hget hopen hmilestone hunreleased hset h.token
      hpeers

omit [DecidableEq Address] in
theorem Release.input_pays (r : Release Address) (admin applicant : Address) (grantId : U64) :
    (r.input admin applicant grantId).call.Pays grantId r.idx := by
  unfold input
  cases r.path with
  | funds => exact .inl ⟨admin, rfl⟩
  | report content => exact .inr ⟨applicant, content, rfl⟩

/-- Once the grant is active, `release_milestone_funds` is refused. -/
theorem Releasing.refused
    (h : Releasing admin tokenContract grantId grant₀ amount .active remaining s)
    (he : exec s (r.input admin grant₀.applicant grantId) = .ok s') : r.path ≠ .funds := by
  intro hr
  simp only [exec, Release.input, hr] at he
  obtain ⟨_, _, _, grant, _, _, happroved, hp⟩ := releaseMilestoneFunds_ok he
  obtain ⟨grant', hget, _, hactive⟩ := h.grant
  rw [hp.get] at hget
  cases hget
  rw [happroved] at hactive
  cases hactive

omit [DecidableEq Address] in
theorem PaidOut.payment_eq (hp : PaidOut r.env s s' grantId r.idx transfer grant milestone all)
    (hadmin : s.admin = some admin) (htoken : s.tokenContract = some tokenContract)
    (hamount : milestone.amount = amount r.idx) :
    transfer = r.payment admin tokenContract grant.applicant amount := by
  obtain ⟨token, spender, from_, to_, a⟩ := transfer
  have hfrom := hp.from_admin.symm.trans hadmin
  have htoken' := hp.token.symm.trans htoken
  have hspender := hp.spender
  have hto := hp.to_applicant
  have ha := hp.amount.trans hamount
  cases hfrom
  cases htoken'
  cases hspender
  cases hto
  cases ha
  rfl

omit [DecidableEq Address] in
/-- The loop finds every milestone released exactly when none is left. -/
theorem PaidOut.status_eq (hp : PaidOut env s s' grantId idx transfer grant milestone all)
    (hmilestones : ∀ k : U32, k.val < grant.milestoneCount.val → ∃ m,
      getMilestone s' grantId k = some m ∧ (m.released = true ↔ k ∉ rest))
    (hvalid : ∀ k ∈ rest, k.val < grant.milestoneCount.val) :
    grant.status.afterRelease all = statusWith rest := by
  have hall : all = true ↔ rest = [] := by
    rw [allReleased_ok hp.loop, List.eq_nil_iff_forall_not_mem]
    constructor
    · intro hrel k hk
      obtain ⟨m, hm, hiff⟩ := hmilestones k (hvalid k hk)
      obtain ⟨m', hm', hr⟩ := hrel k (BoundedInt.mem_upTo.mpr (hvalid k hk))
      rw [hm] at hm'
      cases hm'
      exact hiff.mp hr hk
    · intro hnone k hk
      obtain ⟨m, hm, hiff⟩ := hmilestones k (BoundedInt.mem_upTo.mp hk)
      exact ⟨m, hm, hiff.mpr (hnone k)⟩
  unfold GrantStatus.afterRelease
  cases rest with
  | nil =>
    rw [if_pos (hall.mpr rfl)]
    rfl
  | cons k rest =>
    rw [if_neg fun ha => List.cons_ne_nil k rest (hall.mp ha)]
    split
    · rfl
    · next hnot => exact hp.open_.resolve_left hnot

/-- A release leaves the rest of the milestones. -/
theorem Releasing.step
    (h : Releasing admin tokenContract grantId grant₀ amount status (r.idx :: rest) s)
    (he : exec s (r.input admin grant₀.applicant grantId) = .ok s') :
    Releasing admin tokenContract grantId grant₀ amount (statusWith rest) rest s' ∧
      s'.transfers = r.payment admin tokenContract grant₀.applicant amount :: s.transfers := by
  obtain ⟨transfer, grant, milestone, all, hp⟩ := exec_pays (r.input_pays admin _ grantId) he
  obtain ⟨grant', hget, hterms, hstatus⟩ := h.grant
  rw [hp.get] at hget
  cases hget
  obtain ⟨milestone', hmilestone, hamount, _⟩ :=
    h.milestones r.idx (h.valid r.idx List.mem_cons_self)
  rw [hp.get_milestone] at hmilestone
  cases hmilestone
  obtain ⟨hnotin, hnodup⟩ := List.nodup_cons.mp h.nodup
  have hvalid : ∀ k ∈ rest, k.val < grant₀.milestoneCount.val := fun k hk =>
    h.valid k (List.mem_cons_of_mem _ hk)
  have hmilestones : ∀ k : U32, k.val < grant₀.milestoneCount.val → ∃ m,
      getMilestone s' grantId k = some m ∧ m.amount = amount k ∧
      (m.released = true ↔ k ∉ rest) := by
    intro k hk
    rw [getMilestone_set hp.milestones]
    by_cases hkey : k = r.idx
    · rw [if_pos ⟨rfl, hkey⟩, hkey]
      exact ⟨_, rfl, hamount, iff_of_true rfl hnotin⟩
    · obtain ⟨m, hm, ham, hrel⟩ := h.milestones k hk
      rw [if_neg fun hc => hkey hc.2]
      refine ⟨m, hm, ham, hrel.trans ?_⟩
      rw [List.mem_cons, not_or]
      exact and_iff_right hkey
  have hstatus' : grant.status.afterRelease all = statusWith rest := by
    refine hp.status_eq ?_ ?_
    · rw [hterms.milestoneCount]
      intro k hk
      obtain ⟨m, hm, _, hiff⟩ := hmilestones k hk
      exact ⟨m, hm, hiff⟩
    · rw [hterms.milestoneCount]
      exact hvalid
  refine ⟨⟨hp.setup.admin.trans h.admin, hp.setup.tokenContract.trans h.token, ?_, hmilestones,
    hnodup, hvalid⟩, ?_⟩
  · rw [getGrant_set hp.grants, if_pos rfl]
    exact ⟨_, rfl, ⟨hterms.applicant, hterms.totalAmount, hterms.milestoneCount⟩, hstatus'⟩
  · rw [hp.transfers, hp.payment_eq h.admin h.token hamount, hterms.applicant]

end Steps

/-! ## Whole orders -/

section Orders

variable {s s' : Storage Address} {admin tokenContract : Address} {grantId : U64}
  {grant : GrantRecord Address} {amount : U32 → I128} {order : List (Release Address)}

omit [DecidableEq Address] in
/-- One release, then an order that pays out what is left. -/
theorem PaidInFull.cons {s₁ : Storage Address} {r : Release Address} {rest : List (Release Address)}
    (hpaid : PaidInFull s₁ s' admin tokenContract grantId grant amount rest)
    (htransfers : s₁.transfers =
      r.payment admin tokenContract grant.applicant amount :: s.transfers) :
    PaidInFull s s' admin tokenContract grantId grant amount (r :: rest) := by
  refine ⟨?_, hpaid.completed, hpaid.released⟩
  rw [hpaid.transfers, htransfers, List.map_cons, List.reverse_cons, List.append_assoc]
  rfl

/-- Reports pay out what is left. -/
theorem reports_succeed
    (h : Releasing admin tokenContract grantId grant amount (statusWith (order.map Release.idx))
      (order.map Release.idx) s)
    (hauth : ∀ r ∈ order, r.Authorised admin grant.applicant)
    (hpeers : ∀ r ∈ order, ∀ transfer, r.peers.transferFrom transfer = .ok ())
    (hpath : ∀ r ∈ order, r.path ≠ .funds) :
    ∃ s', releaseAll admin grant.applicant grantId s order = .ok s' ∧
      PaidInFull s s' admin tokenContract grantId grant amount order := by
  induction order generalizing s with
  | nil =>
    refine ⟨s, rfl, rfl, h.grant, ?_⟩
    intro idx hidx
    obtain ⟨m, hm, ham, hiff⟩ := h.milestones idx hidx
    exact ⟨m, hm, ham, hiff.mpr List.not_mem_nil⟩
  | cons r rest ih =>
    obtain ⟨hauth₁, hauth⟩ := List.forall_mem_cons.mp hauth
    obtain ⟨hpeers₁, hpeers⟩ := List.forall_mem_cons.mp hpeers
    obtain ⟨hpath₁, hpath⟩ := List.forall_mem_cons.mp hpath
    obtain ⟨s₁, h₁⟩ := h.succeeds (.inr rfl) (fun hr => absurd hr hpath₁) hauth₁ hpeers₁
    obtain ⟨hnext, htransfers⟩ := h.step h₁
    obtain ⟨s', hs', hpaid⟩ := ih hnext hauth hpeers hpath
    exact ⟨s', bind_eq_ok.mpr ⟨s₁, h₁, hs'⟩, hpaid.cons htransfers⟩

/-- After the first release only reports succeed. -/
theorem only_reports
    (h : Releasing admin tokenContract grantId grant amount (statusWith (order.map Release.idx))
      (order.map Release.idx) s)
    (he : releaseAll admin grant.applicant grantId s order = .ok s') :
    ∀ r ∈ order, r.path ≠ .funds := by
  induction order generalizing s with
  | nil => exact fun r hr => absurd hr List.not_mem_nil
  | cons r rest ih =>
    obtain ⟨s₁, h₁, hrest⟩ := bind_eq_ok.mp he
    obtain ⟨hnext, _⟩ := h.step h₁
    exact List.forall_mem_cons.mpr ⟨h.refused h₁, ih hnext hrest⟩

/-- The amount of a milestone that is set. -/
def amountOf (s : Storage Address) (grantId : U64) (idx : U32) : I128 :=
  ((getMilestone s grantId idx).map MilestoneRecord.amount).getD 0

/-- An approved grant with its milestones set, before the releases. -/
theorem releasing_of_approved (hs : Filed admin tokenContract s)
    (hget : getGrant s grantId = some grant) (happroved : grant.status = .approved)
    (hset : ∀ idx : U32, idx.val < grant.milestoneCount.val →
      ∃ milestone, getMilestone s grantId idx = some milestone)
    (hperm : (order.map Release.idx).Perm grant.milestoneCount.upTo) :
    Releasing admin tokenContract grantId grant (amountOf s grantId) .approved
      (order.map Release.idx) s := by
  have hnot := GrantStatus.not_begun (.inr happroved)
  refine ⟨hs.admin, hs.token, ⟨grant, hget, .refl grant, happroved⟩, ?_,
    hperm.nodup_iff.mpr (BoundedInt.upTo_nodup _), ?_⟩
  · intro idx hidx
    obtain ⟨milestone, hm⟩ := hset idx hidx
    have hmem : idx ∈ order.map Release.idx := hperm.mem_iff.mpr (BoundedInt.mem_upTo.mpr hidx)
    refine ⟨milestone, hm, ?_, ?_⟩
    · rw [amountOf, hm]
      rfl
    · rw [hs.milestones.unreleased grantId grant idx milestone hget hnot hm]
      exact iff_of_false Bool.noConfusion (not_not_intro hmem)
  · intro idx hidx
    exact BoundedInt.mem_upTo.mp (hperm.mem_iff.mp hidx)

/-- An order of releases of an approved grant succeeds and pays it out in full
exactly if every release after the first is by report. -/
theorem paths_agree_iff {s₀ : Storage Address} (h : Initialised admin tokenContract s₀)
    (past : List (Input Address)) (hget : getGrant (after exec s₀ past) grantId = some grant)
    (happroved : grant.status = .approved) (hcount : 0 < grant.milestoneCount.val)
    (hset : ∀ idx : U32, idx.val < grant.milestoneCount.val →
      ∃ milestone, getMilestone (after exec s₀ past) grantId idx = some milestone)
    (hperm : (order.map Release.idx).Perm grant.milestoneCount.upTo)
    (hauth : ∀ r ∈ order, r.Authorised admin grant.applicant)
    (hpeers : ∀ r ∈ order, ∀ transfer, r.peers.transferFrom transfer = .ok ()) :
    (∃ s', releaseAll admin grant.applicant grantId (after exec s₀ past) order = .ok s' ∧
      PaidInFull (after exec s₀ past) s' admin tokenContract grantId grant
        (amountOf (after exec s₀ past) grantId) order) ↔ ∀ r ∈ order.tail, r.path ≠ .funds := by
  have hstart := releasing_of_approved (filed_after h past) hget happroved hset hperm
  cases order with
  | nil =>
    have hmem : (0 : U32) ∈ grant.milestoneCount.upTo := BoundedInt.mem_upTo.mpr hcount
    exact absurd (hperm.mem_iff.mpr hmem) List.not_mem_nil
  | cons r rest =>
    obtain ⟨hauth₁, hauth⟩ := List.forall_mem_cons.mp hauth
    obtain ⟨hpeers₁, hpeers⟩ := List.forall_mem_cons.mp hpeers
    constructor
    · rintro ⟨s', he, _⟩
      obtain ⟨s₁, h₁, hrest⟩ := bind_eq_ok.mp he
      exact only_reports (hstart.step h₁).1 hrest
    · intro hpath
      obtain ⟨s₁, h₁⟩ := hstart.succeeds (.inl rfl) (fun _ => rfl) hauth₁ hpeers₁
      obtain ⟨hnext, htransfers⟩ := hstart.step h₁
      obtain ⟨s', hs', hpaid⟩ := reports_succeed hnext hauth hpeers hpath
      exact ⟨s', bind_eq_ok.mpr ⟨s₁, h₁, hs'⟩, hpaid.cons htransfers⟩

/-- The milestones of the example grant, released by contract 1 and reported by
contract 2. -/
def exampleOrder (path : Path) : List (Release Nat) :=
  [⟨0, .funds, exampleEnv 0 [1, 2], examplePeers⟩,
    ⟨.lit 1, path, exampleEnv 0 [1, 2], examplePeers⟩]

/-- The setting asks nothing more of the example order. -/
theorem exampleOrder_ready (path : Path) :
    (∃ grant, getGrant (after exec exampleGrants exampleSetup) (.lit 1) = some grant ∧
      grant.status = .approved ∧ grant.milestoneCount = .lit 2 ∧ grant.applicant = 2) ∧
    (∀ idx : U32, idx.val < 2 → ∃ milestone,
      getMilestone (after exec exampleGrants exampleSetup) (.lit 1) idx = some milestone) ∧
    ((exampleOrder path).map Release.idx).Perm (BoundedInt.upTo (.lit 2)) ∧
    (∀ r ∈ exampleOrder path, r.Authorised 1 2) ∧
    ∀ r ∈ exampleOrder path, ∀ transfer, r.peers.transferFrom transfer = .ok () := by
  refine ⟨?_, ?_, ?_, ?_, ?_⟩
  · obtain ⟨grant, hget, hgrant⟩ := Option.map_eq_some_iff.mp
      (show (getGrant (after exec exampleGrants exampleSetup) (.lit 1)).map
        (fun grant => (grant.status, grant.milestoneCount, grant.applicant)) =
          some (.approved, .lit 2, 2) by decide +kernel)
    simp only [Prod.mk.injEq] at hgrant
    exact ⟨grant, hget, hgrant⟩
  · have hset : ∀ idx ∈ BoundedInt.upTo (.lit 2),
        (getMilestone (after exec exampleGrants exampleSetup) (.lit 1) idx).isSome = true := by
      decide +kernel
    intro idx hidx
    exact Option.isSome_iff_exists.mp (hset idx (BoundedInt.mem_upTo.mpr hidx))
  · show [(0 : U32), .lit 1].Perm (BoundedInt.upTo (.lit 2))
    decide +kernel
  · refine List.forall_mem_cons.mpr ⟨?_, List.forall_mem_singleton.mpr ?_⟩
    · exact List.mem_cons_self
    · unfold Release.Authorised
      cases path with
      | funds => exact List.mem_cons_self
      | report content => exact List.mem_cons_of_mem _ List.mem_cons_self
  · exact List.forall_mem_cons.mpr ⟨fun _ => rfl, List.forall_mem_singleton.mpr fun _ => rfl⟩

theorem paths_agree_iff_report :
    ∃ grant s', getGrant (after exec exampleGrants exampleSetup) (.lit 1) = some grant ∧
      releaseAll 1 2 (.lit 1) (after exec exampleGrants exampleSetup)
        (exampleOrder (.report "built")) = .ok s' ∧
      PaidInFull (after exec exampleGrants exampleSetup) s' 1 9 (.lit 1) grant
        (amountOf (after exec exampleGrants exampleSetup) (.lit 1))
        (exampleOrder (.report "built")) := by
  obtain ⟨⟨grant, hget, happroved, hcount, happlicant⟩, hset, hperm, hauth, hpeers⟩ :=
    exampleOrder_ready (.report "built")
  have htail : ∀ r ∈ (exampleOrder (.report "built")).tail, r.path ≠ .funds := by
    refine List.forall_mem_singleton.mpr ?_
    intro hc
    cases hc
  have hagree := (paths_agree_iff exampleGrants_initialised exampleSetup hget happroved
    (by rw [hcount]; decide) (by rw [hcount]; exact hset) (by rw [hcount]; exact hperm)
    (by rw [happlicant]; exact hauth) hpeers).mpr htail
  rw [happlicant] at hagree
  obtain ⟨s', hs'⟩ := hagree
  exact ⟨grant, s', hget, hs'⟩

/-- The second release by `release_milestone_funds` traps, though the order is one
the setting allows. -/
theorem second_release_refused :
    Initialised 1 9 exampleGrants ∧
    (∃ grant, getGrant (after exec exampleGrants exampleSetup) (.lit 1) = some grant ∧
      grant.status = .approved ∧ grant.milestoneCount = .lit 2 ∧ grant.applicant = 2) ∧
    (∀ idx : U32, idx.val < 2 → ∃ milestone,
      getMilestone (after exec exampleGrants exampleSetup) (.lit 1) idx = some milestone) ∧
    ((exampleOrder .funds).map Release.idx).Perm (BoundedInt.upTo (.lit 2)) ∧
    (∀ r ∈ exampleOrder .funds, r.Authorised 1 2) ∧
    (∀ r ∈ exampleOrder .funds, ∀ transfer, r.peers.transferFrom transfer = .ok ()) ∧
    (releaseAll 1 2 (.lit 1) (after exec exampleGrants exampleSetup) (exampleOrder .funds)).map
      (fun _ => ()) = .error (.panic "Grant not approved") := by
  obtain ⟨hgrant, hset, hperm, hauth, hpeers⟩ := exampleOrder_ready .funds
  exact ⟨exampleGrants_initialised, hgrant, hset, hperm, hauth, hpeers, by decide +kernel⟩

end Orders

end Scoopdope.Grants
