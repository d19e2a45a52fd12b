import Scoopdope.ScholarshipFund.Contract
import Scoopdope.Soroban.History

/-!
# Scholarship fund: balance and disbursement

The balance is what was donated less what was distributed, it is never negative, and
only applications that were approved and never rejected are distributed; all of this
holds in every run. But `distribute_scholarship` leaves the application approved, so
it can be distributed again as long as the balance covers it.

`fund_accounted_iff`: the accounting holds and every application is distributed at
most once exactly when no distribution that passes its checks names an application
distributed before.
-/

namespace Scoopdope.ScholarshipFund

open Soroban

variable {Address : Type} [DecidableEq Address]

/-! ## Amounts and events of a run -/

/-- What a call donates. -/
def donated (_ : Storage Address) (i : Env Address × Call Address) : Int :=
  match i.2 with
  | .donate _ amount => amount.val
  | _ => 0

/-- What a call distributes. -/
def distributed (s : Storage Address) (i : Env Address × Call Address) : Int :=
  match i.2 with
  | .distributeScholarship _ appId =>
    match getApplication s appId with
    | some app => app.amountRequested.val
    | none => 0
  | _ => 0

/-- All donor totals together. -/
def donorTotals (s : Storage Address) : Int := Table.total BoundedInt.val s.donorTotal

/-- An accepted approval of the application. -/
def Approves (s₀ : Storage Address) (appId : U64) (earlier : List (Env Address × Call Address))
    (i : Env Address × Call Address) : Prop :=
  Accepted exec s₀ earlier i ∧ ∃ admin, i.2 = .approveApplication admin appId

/-- An accepted rejection of the application. -/
def Rejects (s₀ : Storage Address) (appId : U64) (earlier : List (Env Address × Call Address))
    (i : Env Address × Call Address) : Prop :=
  Accepted exec s₀ earlier i ∧ ∃ admin, i.2 = .rejectApplication admin appId

/-- An accepted distribution of the application. -/
def Distributes (s₀ : Storage Address) (appId : U64)
    (earlier : List (Env Address × Call Address)) (i : Env Address × Call Address) : Prop :=
  Accepted exec s₀ earlier i ∧ ∃ admin, i.2 = .distributeScholarship admin appId

/-- A distribution that passes its checks, of an application distributed before. -/
def Redistributes (s₀ : Storage Address) (earlier : List (Env Address × Call Address))
    (i : Env Address × Call Address) : Prop :=
  ∃ admin appId app, i.2 = .distributeScholarship admin appId ∧
    Distributable i.1 (after exec s₀ earlier) admin appId app ∧
    Occurs (Distributes s₀ appId) earlier

/-! ## One call -/

/-- What holds of every storage of a run. -/
structure Sound (admin : Address) (s : Storage Address) : Prop where
  admin : s.admin = some admin
  below : ∀ id app, getApplication s id = some app → id.val < (applicationCount s).val
  positive : ∀ id app, getApplication s id = some app → 0 < app.amountRequested.val
  nonneg : 0 ≤ (getFundBalance s).val

section Steps

variable {s s' : Storage Address} {i : Env Address × Call Address} {admin : Address}

omit [DecidableEq Address] in
theorem getApplication_congr (h : s'.application = s.application) (id : U64) :
    getApplication s' id = getApplication s id := by
  rw [getApplication, h]
  rfl

omit [DecidableEq Address] in
theorem getApplication_set {appId : U64} {app : ScholarshipApplication Address}
    (h : s'.application = s.application.set appId app) (id : U64) :
    getApplication s' id = if id = appId then some app else getApplication s id := by
  rw [getApplication, h, Table.get_set]
  rfl

omit [DecidableEq Address] in
theorem getFundBalance_of_some {balance : I128} (h : s.fundBalance = some balance) :
    getFundBalance s = balance := by
  rw [getFundBalance, h]
  rfl

omit [DecidableEq Address] in
theorem SameFunds.getFundBalance_eq (h : SameFunds s s') :
    getFundBalance s' = getFundBalance s := by
  rw [getFundBalance, h.fundBalance]
  rfl

omit [DecidableEq Address] in
theorem Sound.fresh (hs : Sound admin s) : getApplication s (applicationCount s) = none := by
  cases hget : getApplication s (applicationCount s) with
  | none => rfl
  | some app => exact absurd (hs.below _ app hget) (lt_irrefl _)

omit [DecidableEq Address] in
/-- A call that touches no application. -/
theorem Sound.keep (hs : Sound admin s) (hadmin : s'.admin = some admin) (h : SameApplications s s')
    (hnonneg : 0 ≤ (getFundBalance s').val) : Sound admin s' := by
  have hcount : applicationCount s' = applicationCount s := by
    rw [applicationCount, h.applicationCount]
    rfl
  refine ⟨hadmin, fun id app hget => ?_, fun id app hget => ?_, hnonneg⟩
  · rw [getApplication_congr h.application] at hget
    rw [hcount]
    exact hs.below id app hget
  · rw [getApplication_congr h.application] at hget
    exact hs.positive id app hget

omit [DecidableEq Address] in
/-- A call that writes one application and leaves the balance. -/
theorem Sound.write (hs : Sound admin s) (hadmin : s'.admin = some admin) {appId : U64}
    {app : ScholarshipApplication Address} (happs : s'.application = s.application.set appId app)
    (hcount : (applicationCount s).val ≤ (applicationCount s').val)
    (hbelow : appId.val < (applicationCount s').val) (hpos : 0 < app.amountRequested.val)
    (h : SameFunds s s') : Sound admin s' := by
  refine ⟨hadmin, fun id app' hget => ?_, fun id app' hget => ?_, ?_⟩
  · rw [getApplication_set happs] at hget
    split at hget
    · next hid =>
      rw [hid]
      exact hbelow
    · exact (hs.below id app' hget).trans_le hcount
  · rw [getApplication_set happs] at hget
    split at hget
    · cases hget
      exact hpos
    · exact hs.positive id app' hget
  · rw [h.getFundBalance_eq]
    exact hs.nonneg

theorem Sound.step (hs : Sound admin s) (he : exec s i = .ok s') : Sound admin s' := by
  have hnonneg := hs.nonneg
  obtain ⟨heffect, hadmin⟩ := exec_effect hs.admin he
  cases heffect with
  | donated donor amount balance donorTotal _ hpos hbalance _ hfund _ h =>
    refine hs.keep hadmin h ?_
    rw [getFundBalance_of_some hfund]
    omega
  | applied student amountRequested count app _ hpos hamount _ hcount happs hnext h =>
    have hcount' : (applicationCount s').val = (applicationCount s).val + 1 := by
      rw [applicationCount, hnext]
      exact hcount
    exact hs.write hadmin happs (by omega) (by omega) (hamount ▸ hpos) h
  | decided appId app status _ hget _ happs hnext h =>
    have hcount : applicationCount s' = applicationCount s := by
      rw [applicationCount, hnext]
      rfl
    have hbelow := hs.below appId app hget
    exact hs.write hadmin happs (hcount ▸ le_refl _) (hcount ▸ hbelow)
      (hs.positive appId app hget) h
  | distributed admin' appId app balance _ hcheck hbalance hfund _ h =>
    have hcovered := hcheck.covered
    refine hs.keep hadmin h ?_
    rw [getFundBalance_of_some hfund]
    omega

/-- What an accepted call adds to the balance and to the donor totals. -/
theorem exec_funds (hadmin : s.admin = some admin) (he : exec s i = .ok s') :
    (getFundBalance s').val = (getFundBalance s).val + donated s i - distributed s i ∧
      donorTotals s' = donorTotals s + donated s i := by
  obtain ⟨heffect, -⟩ := exec_effect hadmin he
  obtain ⟨env, call⟩ := i
  cases heffect with
  | donated donor amount balance donorTotal hcall _ hbalance hdonor hfund hdonors _ =>
    cases hcall
    rw [getFundBalance_of_some hfund, hbalance, donorTotals, hdonors, Table.total_set,
      Table.share_val, hdonor]
    refine ⟨(Int.sub_zero _).symm, ?_⟩
    show _ - (getDonorTotal s donor).val + _ = donorTotals s + amount.val
    rw [donorTotals]
    omega
  | applied student amountRequested count app hcall _ _ _ _ _ _ h =>
    cases hcall
    rw [h.getFundBalance_eq, donorTotals, h.donorTotal]
    refine ⟨?_, (Int.add_zero _).symm⟩
    show _ = _ + 0 - 0
    omega
  | decided appId app status hcall _ _ _ _ h =>
    have hzero : donated s (env, call) = 0 ∧ distributed s (env, call) = 0 := by
      rcases hcall with ⟨admin', hc, _⟩ | ⟨admin', hc, _⟩ <;> cases hc <;> exact ⟨rfl, rfl⟩
    rw [h.getFundBalance_eq, donorTotals, h.donorTotal, hzero.1, hzero.2]
    exact ⟨by omega, (Int.add_zero _).symm⟩
  | distributed admin' appId app balance hcall hcheck hbalance hfund hdonors _ =>
    cases hcall
    rw [getFundBalance_of_some hfund, hbalance, donorTotals, hdonors]
    refine ⟨?_, (Int.add_zero _).symm⟩
    show _ = _ + 0 - (match getApplication s appId with
      | some app => app.amountRequested.val
      | none => 0)
    rw [hcheck.get, Int.add_zero]

/-- An application stays, and its status changes by a decision on a pending one only. -/
theorem application_step (hs : Sound admin s) (he : exec s i = .ok s') {id : U64}
    {app : ScholarshipApplication Address} (hget : getApplication s id = some app) :
    ∃ app', getApplication s' id = some app' ∧
      (app'.status = app.status ∨ app.status = .lit 0 ∧ i.2.Decides id app'.status) := by
  obtain ⟨heffect, -⟩ := exec_effect hs.admin he
  cases heffect with
  | donated _ _ _ _ _ _ _ _ _ _ h =>
    exact ⟨app, (getApplication_congr h.application id).trans hget, .inl rfl⟩
  | applied student amountRequested count app' _ _ _ _ _ happs _ _ =>
    have hne : id ≠ applicationCount s := by
      rintro rfl
      rw [hs.fresh] at hget
      cases hget
    exact ⟨app, by rw [getApplication_set happs, if_neg hne, hget], .inl rfl⟩
  | decided appId app' status hcall hget' hpending happs _ _ =>
    rw [getApplication_set happs]
    by_cases hid : id = appId
    · subst hid
      have hsame := hget.symm.trans hget'
      cases hsame
      exact ⟨_, if_pos rfl, .inr ⟨hpending, hcall⟩⟩
    · exact ⟨app, by rw [if_neg hid, hget], .inl rfl⟩
  | distributed _ _ _ _ _ _ _ _ _ h =>
    exact ⟨app, (getApplication_congr h.application id).trans hget, .inl rfl⟩

/-- An approved application was approved before the call, or by it. -/
theorem approved_from (hadmin : s.admin = some admin) (he : exec s i = .ok s') {id : U64}
    {app : ScholarshipApplication Address} (hget : getApplication s' id = some app)
    (happroved : app.status = .lit 1) :
    (∃ app', getApplication s id = some app' ∧ app'.status = .lit 1) ∨
      ∃ admin', i.2 = .approveApplication admin' id := by
  obtain ⟨heffect, -⟩ := exec_effect hadmin he
  cases heffect with
  | donated _ _ _ _ _ _ _ _ _ _ h =>
    exact .inl ⟨app, (getApplication_congr h.application id).symm.trans hget, happroved⟩
  | applied student amountRequested count app' _ _ _ hstatus _ happs _ _ =>
    rw [getApplication_set happs] at hget
    split at hget
    · cases hget
      rw [hstatus] at happroved
      exact absurd happroved (by decide)
    · exact .inl ⟨app, hget, happroved⟩
  | decided appId app' status hcall _ _ happs _ _ =>
    rw [getApplication_set happs] at hget
    split at hget
    · next hid =>
      cases hget
      subst hid
      rcases hcall with ⟨admin', hcall, _⟩ | ⟨admin', _, hstatus⟩
      · exact .inr ⟨admin', hcall⟩
      · have heq := hstatus.symm.trans happroved
        exact absurd heq (by decide)
    · exact .inl ⟨app, hget, happroved⟩
  | distributed _ _ _ _ _ _ _ _ _ h =>
    exact .inl ⟨app, (getApplication_congr h.application id).symm.trans hget, happroved⟩

/-- A distribution that passes its checks is accepted. -/
theorem distribute_succeeds (hs : Sound admin s) {env : Env Address} {admin' : Address}
    {appId : U64} {app : ScholarshipApplication Address}
    (h : Distributable env s admin' appId app) :
    ∃ s', exec s (env, .distributeScholarship admin' appId) = .ok s' := by
  have hcovered := h.covered
  have hpos := hs.positive appId app h.get
  have hmax := (getFundBalance s).le_hi
  exact ⟨_, distributeScholarship_ok.mpr
    ⟨app, ⟨(getFundBalance s).val - app.amountRequested.val, by omega, by omega⟩, h, rfl, rfl⟩⟩

end Steps

/-! ## Runs -/

section Runs

variable {admin : Address} {s₀ : Storage Address}

theorem Initialised.start (h : Initialised admin s₀) :
    Sound admin s₀ ∧ (getFundBalance s₀).val = 0 ∧ donorTotals s₀ = 0 := by
  obtain ⟨env, h⟩ := h
  obtain ⟨_, _, rfl⟩ := initializeContract_ok.mp h
  refine ⟨⟨rfl, ?_, ?_, le_refl 0⟩, rfl, rfl⟩
  · intro id app hget
    exact absurd hget Table.get_empty_ne_some
  · intro id app hget
    exact absurd hget Table.get_empty_ne_some

theorem sound_after (h : Initialised admin s₀) (past : List (Env Address × Call Address)) :
    Sound admin (after exec s₀ past) :=
  after_invariant h.start.1 (fun _ _ _ hs he => hs.step he) past

/-- The balance and the donor totals of every run. -/
theorem funds_after (h : Initialised admin s₀) (past : List (Env Address × Call Address)) :
    (getFundBalance (after exec s₀ past)).val =
        accumulated exec s₀ donated past - accumulated exec s₀ distributed past ∧
      donorTotals (after exec s₀ past) = accumulated exec s₀ donated past := by
  obtain ⟨_, hbalance, hdonors⟩ := h.start
  refine after_history (P := fun past s =>
    (getFundBalance s).val =
        accumulated exec s₀ donated past - accumulated exec s₀ distributed past ∧
      donorTotals s = accumulated exec s₀ donated past) ⟨hbalance, hdonors⟩ ?_ ?_ past
  · rintro past i s s' rfl ⟨hp, hd⟩ he
    obtain ⟨hp', hd'⟩ := exec_funds (sound_after h past).admin he
    rw [accumulated_ok he, accumulated_ok he]
    exact ⟨by omega, by omega⟩
  · rintro past i s t rfl hp he
    rw [accumulated_error he, accumulated_error he]
    exact hp

/-- From any point of a run on, a decided application stays as it was decided. -/
theorem decided_kept (h : Initialised admin s₀) {earlier past : List (Env Address × Call Address)}
    (hsuf : earlier <:+ past) {id : U64} {app : ScholarshipApplication Address}
    (hget : getApplication (after exec s₀ earlier) id = some app) (hdecided : app.status ≠ .lit 0) :
    ∃ app', getApplication (after exec s₀ past) id = some app' ∧ app'.status = app.status := by
  refine after_kept (P := fun s => ∃ app', getApplication s id = some app' ∧
    app'.status = app.status) hsuf ⟨app, hget, rfl⟩ ?_
  rintro i e s' _ _ ⟨app₁, hget₁, hstatus₁⟩ he
  obtain ⟨app₂, hget₂, hsame | ⟨hpending, _⟩⟩ := application_step (sound_after h e) he hget₁
  · exact ⟨app₂, hget₂, hsame.trans hstatus₁⟩
  · exact absurd (hstatus₁.symm.trans hpending) hdecided

/-- An approved application has been approved. -/
theorem approved_occurs (h : Initialised admin s₀) (past : List (Env Address × Call Address))
    {id : U64} {app : ScholarshipApplication Address}
    (hget : getApplication (after exec s₀ past) id = some app) (happroved : app.status = .lit 1) :
    Occurs (Approves s₀ id) past := by
  refine after_history (P := fun past s => ∀ app, getApplication s id = some app →
    app.status = .lit 1 → Occurs (Approves s₀ id) past) ?_ ?_ ?_ past app hget happroved
  · obtain ⟨env, h⟩ := h
    obtain ⟨_, _, rfl⟩ := initializeContract_ok.mp h
    intro app hget
    exact absurd hget Table.get_empty_ne_some
  · rintro past i s s' rfl hp he app hget happroved
    rcases approved_from (sound_after h past).admin he hget happroved with
      ⟨app', hget', happroved'⟩ | hcall
    · exact (hp app' hget' happroved').cons i
    · exact .head ⟨⟨s', he⟩, hcall⟩
  · rintro past i s t rfl hp _ app hget happroved
    exact (hp app hget happroved).cons i

/-- A distributed application is approved. -/
theorem Distributes.get {id : U64} {e : List (Env Address × Call Address)}
    {i : Env Address × Call Address} (hd : Distributes s₀ id e i) :
    ∃ admin app, i.2 = .distributeScholarship admin id ∧
      Distributable i.1 (after exec s₀ e) admin id app := by
  obtain ⟨⟨s', hs'⟩, admin', hcall⟩ := hd
  rw [exec, hcall] at hs'
  obtain ⟨app, _, hcheck, _⟩ := distributeScholarship_ok.mp hs'
  exact ⟨admin', app, hcall, hcheck⟩

/-- A rejected application is pending when it is rejected. -/
theorem Rejects.get {id : U64} {e : List (Env Address × Call Address)}
    {i : Env Address × Call Address} (hr : Rejects s₀ id e i) :
    (∃ app, getApplication (after exec s₀ e) id = some app ∧ app.status = .lit 0) ∧
      ∃ app, getApplication (after exec s₀ (i :: e)) id = some app ∧ app.status = .lit 2 := by
  obtain ⟨⟨s', hs'⟩, admin', hcall⟩ := hr
  rw [exec, hcall] at hs'
  obtain ⟨app, hget, hpending, hs''⟩ := processApplication_ok
    (show processApplication i.1 _ admin' id "Only admin can reject" (.lit 2) = .ok s' from hs')
  refine ⟨⟨app, hget, hpending⟩, { app with status := .lit 2 }, ?_, rfl⟩
  have he : exec (after exec s₀ e) i = .ok s' := by
    rw [exec, hcall]
    exact hs'
  rw [after, apply_ok he, hs'', getApplication, Table.get_set_self]

/-- No application is both distributed and rejected in a run. -/
theorem distributed_not_rejected (h : Initialised admin s₀) {id : U64}
    {past e f : List (Env Address × Call Address)} {i j : Env Address × Call Address}
    (hi : i :: e <:+ past) (hd : Distributes s₀ id e i) (hj : j :: f <:+ past)
    (hr : Rejects s₀ id f j) : False := by
  obtain ⟨⟨app, hget, hpending⟩, app', hget', hrejected⟩ := hr.get
  obtain ⟨admin', app₁, hcall, hcheck⟩ := hd.get
  have hne : i :: e ≠ j :: f := by
    intro heq
    cases heq
    obtain ⟨_, admin'', hcall'⟩ := hr
    rw [hcall] at hcall'
    cases hcall'
  rcases List.suffix_or_suffix_of_suffix hi hj with hs | hs
  · -- Distributed before it is rejected: it was approved then, and still is.
    have hs := (List.suffix_cons_iff.mp hs).resolve_left hne
    obtain ⟨app₂, hget₂, hstatus⟩ := decided_kept h ((List.suffix_cons i e).trans hs) hcheck.get
      (by rw [hcheck.approved]; decide)
    rw [hget] at hget₂
    cases hget₂
    rw [hpending, hcheck.approved] at hstatus
    exact absurd hstatus (by decide)
  · -- Rejected before it is distributed: it still is rejected then.
    have hs := (List.suffix_cons_iff.mp hs).resolve_left hne.symm
    obtain ⟨app₂, hget₂, hstatus⟩ := decided_kept h hs hget' (by rw [hrejected]; decide)
    rw [hcheck.get] at hget₂
    cases hget₂
    rw [hcheck.approved, hrejected] at hstatus
    exact absurd hstatus (by decide)

/-- In every run the balance is what was donated less what was distributed and is not
negative, the donor totals are what was donated, and what is distributed was approved
and is never rejected. No application is distributed twice exactly when no
distribution that passes its checks names an application distributed before. -/
theorem fund_accounted_iff (h : Initialised admin s₀)
    (past : List (Env Address × Call Address)) :
    ((getFundBalance (after exec s₀ past)).val =
          accumulated exec s₀ donated past - accumulated exec s₀ distributed past ∧
        0 ≤ (getFundBalance (after exec s₀ past)).val ∧
        Table.total BoundedInt.val (after exec s₀ past).donorTotal =
          accumulated exec s₀ donated past ∧
        (∀ appId i earlier, i :: earlier <:+ past → Distributes s₀ appId earlier i →
          Occurs (Approves s₀ appId) earlier ∧ ¬ Occurs (Rejects s₀ appId) past) ∧
        ∀ appId i e j f, i :: e <:+ past → Distributes s₀ appId e i → j :: f <:+ past →
          Distributes s₀ appId f j → i :: e = j :: f) ↔
      Guarded (fun earlier i => ¬ Redistributes s₀ earlier i) past := by
  constructor
  · rintro ⟨-, -, -, -, honce⟩
    refine guarded_iff.mpr ?_
    rintro i e hi ⟨admin', appId, app, hcall, hcheck, j, f, hj, hd⟩
    obtain ⟨env, call⟩ := i
    cases hcall
    have haccepted := distribute_succeeds (sound_after h e) hcheck
    have heq := honce appId _ e j f hi ⟨haccepted, admin', rfl⟩
      (hj.trans ((List.suffix_cons _ e).trans hi)) hd
    have hlen := hj.length_le
    rw [← heq, List.length_cons] at hlen
    omega
  · intro hg
    obtain ⟨hbalance, hdonors⟩ := funds_after h past
    refine ⟨hbalance, (sound_after h past).nonneg, hdonors, ?_, ?_⟩
    · rintro appId i e hi hd
      obtain ⟨_, app, _, hcheck⟩ := hd.get
      refine ⟨approved_occurs h e hcheck.get hcheck.approved, ?_⟩
      rintro ⟨j, f, hj, hr⟩
      exact distributed_not_rejected h hi hd hj hr
    · have hlater : ∀ {appId : U64} {i j : Env Address × Call Address}
          {e f : List (Env Address × Call Address)}, Distributes s₀ appId e i → j :: f <:+ past →
          Distributes s₀ appId f j → i :: e <:+ j :: f → i :: e = j :: f := by
        intro appId i j e f hi hj hd hs
        rcases List.suffix_cons_iff.mp hs with heq | hs
        · exact heq
        · obtain ⟨admin', app, hcall, hcheck⟩ := hd.get
          exact absurd ⟨admin', appId, app, hcall, hcheck, i, e, hs, hi⟩ (hg.suffix hj).1
      intro appId i e j f hi hdi hj hdj
      rcases List.suffix_or_suffix_of_suffix hi hj with hs | hs
      · exact hlater hdi hj hdj hs
      · exact (hlater hdj hi hdi hs).symm

/-- Contract 5 donates 1000, and 400 of it are approved for contract 7. -/
def exampleApproved : List (Env Nat × Call Nat) :=
  [(exampleEnv 0 [1], .approveApplication 1 0),
    (exampleEnv 0 [7], .applyForScholarship 7 (.lit 400)),
    (exampleEnv 0 [5], .donate 5 (.lit 1000))]

def exampleDistribution : Env Nat × Call Nat :=
  (exampleEnv 0 [1], .distributeScholarship 1 0)

theorem fund_accounted_iff_disbursed :
    (getFundBalance (after exec exampleFund (exampleDistribution :: exampleApproved))).val =
      600 := by
  refine ((fund_accounted_iff exampleFund_initialised
    (exampleDistribution :: exampleApproved)).mpr ⟨?_, ?_, ?_, ?_, trivial⟩).1.trans
    (by decide +kernel)
  · rintro ⟨_, _, _, _, _, j, f, hs, _, _, hcall⟩
    have hj := hs.subset List.mem_cons_self
    simp only [exampleApproved, List.mem_cons, List.not_mem_nil, or_false] at hj
    rcases hj with rfl | rfl | rfl <;> cases hcall
  · rintro ⟨_, _, _, hcall, _⟩
    cases hcall
  · rintro ⟨_, _, _, hcall, _⟩
    cases hcall
  · rintro ⟨_, _, _, hcall, _⟩
    cases hcall

/-- The approved 400 are distributed twice, and 200 are left. -/
theorem distributed_twice :
    Initialised 1 exampleFund ∧
    (∃ i e j f, i :: e <:+ exampleDistribution :: exampleDistribution :: exampleApproved ∧
      Distributes exampleFund 0 e i ∧
      j :: f <:+ exampleDistribution :: exampleDistribution :: exampleApproved ∧
      Distributes exampleFund 0 f j ∧ i :: e ≠ j :: f) ∧
    (getFundBalance (after exec exampleFund
      (exampleDistribution :: exampleDistribution :: exampleApproved))).val = 200 := by
  refine ⟨exampleFund_initialised, ?_, by decide +kernel⟩
  refine ⟨exampleDistribution, exampleDistribution :: exampleApproved, exampleDistribution,
    exampleApproved, List.suffix_refl _, ⟨accepted_iff.mpr (by decide +kernel), 1, rfl⟩,
    List.suffix_cons _ _, ⟨accepted_iff.mpr (by decide +kernel), 1, rfl⟩, ?_⟩
  intro heq
  exact absurd (congrArg List.length heq) (by decide)

end Runs

end Scoopdope.ScholarshipFund
