import Mathlib.Data.Finset.Card
import Scoopdope.Soroban.Env
import Scoopdope.Soroban.History
import Scoopdope.Soroban.Table

/-!
# Shared: multisig proposals

`contracts/shared/src/multisig.rs`: proposals that are approved by address and executed
once the threshold is met, under storage keys of their own. The keys `Threshold`, `Admins`
and `ProposalTimeout` are not used there. An execution that is late or short of approvals
returns `false`; every other refusal traps.

The second half has, for each call that returned, the checks that passed and the storage
it wrote.
-/

namespace Scoopdope.Shared.Multisig

open Soroban

structure MultiSigProposal (Address : Type) where
  id : U64
  operation : String
  proposer : Address
  approvals : List Address
  threshold : U32
  createdLedger : U32
  expiresLedger : U32
  executed : Bool

/-- The instance storage of the module. -/
structure Storage (Address : Type) where
  proposal : Table U64 (MultiSigProposal Address)
  nextProposalId : Option U64
  /-- The events published so far, newest first. -/
  events : List (Event Address)

/-- No proposals yet. -/
def Storage.fresh (Address : Type) : Storage Address where
  proposal := ∅
  nextProposalId := none
  events := []

variable {Address : Type}

/-- `env.events().publish(topics, data)`. -/
def Storage.publish (s : Storage Address) (topics data : List (Val Address)) : Storage Address :=
  { s with events := ⟨topics, data⟩ :: s.events }

/-- The id of the next proposal. -/
def nextId (s : Storage Address) : U64 := s.nextProposalId.getD (.lit 1)

def getProposal (s : Storage Address) (proposalId : U64) : Option (MultiSigProposal Address) :=
  s.proposal.get proposalId

variable [DecidableEq Address]

def createProposal (env : Env Address) (s : Storage Address) (operation : String)
    (proposer : Address) (threshold timeoutLedgers : U32) : Outcome (U64 × Storage Address) := do
  env.requireAuth proposer
  let id := nextId s
  let expiresLedger ← env.sequence.add timeoutLedgers
  let proposal : MultiSigProposal Address :=
    { id, operation, proposer, approvals := [], threshold, createdLedger := env.sequence,
      expiresLedger, executed := false }
  let s := { s with proposal := s.proposal.set id proposal }
  let next ← id.add (.lit 1)
  let s := { s with nextProposalId := some next }
  pure (id, s.publish [.symbol "ms_prop"] [.u64 id, .address proposer])

def approveProposal (env : Env Address) (s : Storage Address) (proposalId : U64)
    (approver : Address) : Outcome (Storage Address) := do
  env.requireAuth approver
  let proposal ← expect (getProposal s proposalId) "Proposal not found"
  assert (proposal.executed = false) "Proposal already executed"
  assert (env.sequence < proposal.expiresLedger) "Proposal expired"
  assert (approver ∉ proposal.approvals) "Already approved"
  let proposal := { proposal with approvals := proposal.approvals ++ [approver] }
  let s := { s with proposal := s.proposal.set proposalId proposal }
  pure (s.publish [.symbol "ms_appr"] [.u64 proposalId, .address approver])

omit [DecidableEq Address] in
def executeProposal (env : Env Address) (s : Storage Address) (proposalId : U64) :
    Outcome (Bool × Storage Address) := do
  let proposal ← expect (getProposal s proposalId) "Proposal not found"
  assert (proposal.executed = false) "Already executed"
  if proposal.expiresLedger ≤ env.sequence then
    pure (false, s.publish [.symbol "ms_exp"] [.u64 proposalId])
  else if proposal.threshold ≤ vecLen proposal.approvals then
    let s := { s with proposal := s.proposal.set proposalId { proposal with executed := true } }
    pure (true, s.publish [.symbol "ms_exec"] [.u64 proposalId])
  else pure (false, s)

/-- A call, with its arguments. -/
inductive Call (Address : Type)
  | createProposal (operation : String) (proposer : Address) (threshold timeoutLedgers : U32)
  | approveProposal (proposalId : U64) (approver : Address)
  | executeProposal (proposalId : U64)

/-- One call in its environment: the storage it leaves. -/
def exec (s : Storage Address) (i : Env Address × Call Address) : Outcome (Storage Address) :=
  match i.2 with
  | .createProposal operation proposer threshold timeoutLedgers =>
    (createProposal i.1 s operation proposer threshold timeoutLedgers).map Prod.snd
  | .approveProposal proposalId approver => approveProposal i.1 s proposalId approver
  | .executeProposal proposalId => (executeProposal i.1 s proposalId).map Prod.snd

/-! ## What an accepted call does -/

section Steps

variable {env : Env Address} {s s' : Storage Address} {proposalId : U64}

/-- A new proposal, without approvals, under the next id. -/
theorem createProposal_ok {operation : String} {proposer : Address} {id : U64}
    {threshold timeoutLedgers : U32}
    (h : createProposal env s operation proposer threshold timeoutLedgers = .ok (id, s')) :
    id = nextId s ∧ (nextId s').val = (nextId s).val + 1 ∧
      ∃ proposal : MultiSigProposal Address, proposal.approvals = [] ∧
        proposal.executed = false ∧ s'.proposal = s.proposal.set id proposal := by
  simp only [createProposal, bind_eq_ok, Env.requireAuth_eq_ok, BoundedInt.add_eq_ok, exists_const,
    pure_eq_ok, Prod.mk.injEq] at h
  obtain ⟨_, expiresLedger, _, next, hnext, rfl, rfl⟩ := h
  exact ⟨rfl, hnext, _, rfl, rfl, rfl⟩

theorem approveProposal_ok {approver : Address}
    (h : approveProposal env s proposalId approver = .ok s') :
    approver ∈ env.auths ∧ nextId s' = nextId s ∧
      ∃ proposal, getProposal s proposalId = some proposal ∧ proposal.executed = false ∧
        env.sequence < proposal.expiresLedger ∧ approver ∉ proposal.approvals ∧
        s'.proposal = s.proposal.set proposalId
          { proposal with approvals := proposal.approvals ++ [approver] } := by
  simp only [approveProposal, bind_eq_ok, Env.requireAuth_eq_ok, expect_eq_ok, assert_eq_ok,
    exists_const, pure_eq_ok] at h
  obtain ⟨hauth, proposal, hget, hopen, hexpiry, hnew, rfl⟩ := h
  exact ⟨hauth, rfl, proposal, hget, hopen, hexpiry, hnew, rfl⟩

omit [DecidableEq Address] in
/-- An execution that returns `true` marks the proposal, any other leaves it. -/
theorem executeProposal_ok {executed : Bool}
    (h : executeProposal env s proposalId = .ok (executed, s')) :
    nextId s' = nextId s ∧
      ∃ proposal, getProposal s proposalId = some proposal ∧ proposal.executed = false ∧
        (executed = false ∧ s'.proposal = s.proposal ∨
          executed = true ∧ env.sequence < proposal.expiresLedger ∧
            proposal.threshold ≤ vecLen proposal.approvals ∧
            s'.proposal = s.proposal.set proposalId { proposal with executed := true }) := by
  simp only [executeProposal, bind_eq_ok, expect_eq_ok, assert_eq_ok, exists_const] at h
  obtain ⟨proposal, hget, hopen, h⟩ := h
  split at h
  · cases pure_eq_ok.mp h
    exact ⟨rfl, proposal, hget, hopen, .inl ⟨rfl, rfl⟩⟩
  · next hexpiry =>
    split at h
    · next hthreshold =>
      cases pure_eq_ok.mp h
      exact ⟨rfl, proposal, hget, hopen, .inr ⟨rfl, Int.not_le.mp hexpiry, hthreshold, rfl⟩⟩
    · cases pure_eq_ok.mp h
      exact ⟨rfl, proposal, hget, hopen, .inl ⟨rfl, rfl⟩⟩

end Steps

end Scoopdope.Shared.Multisig

/-!
## Shared: execution of multisig proposals

Ids are given out in order, so a proposal is never replaced, and a record changes only
while it is open: not executed, and before its last ledger. An approval adds an address
that authorised it and is not on the list; an execution that returns `true` closes the
proposal, and so there is one of it. `multisig_safe` puts this together for every run at
ledgers that do not fall.
-/

namespace Scoopdope.Shared.Multisig

open Soroban

variable {Address : Type} [DecidableEq Address]

/-- The ledger of a call is not below the ledgers of the calls before it. -/
def NondecreasingLedgers (past : List (Env Address × Call Address)) : Prop :=
  past.Pairwise fun i j => j.1.sequence.val ≤ i.1.sequence.val

/-- An accepted approval of the proposal, authorised by the approver. -/
def Approves (s₀ : Storage Address) (proposalId : U64) (approver : Address)
    (earlier : List (Env Address × Call Address)) (i : Env Address × Call Address) : Prop :=
  Accepted exec s₀ earlier i ∧ i.2 = .approveProposal proposalId approver ∧ approver ∈ i.1.auths

/-- An execution of the proposal that returns `true`. -/
def Executes (s₀ : Storage Address) (proposalId : U64)
    (earlier : List (Env Address × Call Address)) (i : Env Address × Call Address) : Prop :=
  i.2 = .executeProposal proposalId ∧
    ∃ s', executeProposal i.1 (after exec s₀ earlier) proposalId = .ok (true, s')

/-- Executed, or at a ledger where it has expired. -/
def Closed (proposal : MultiSigProposal Address) (sequence : U32) : Prop :=
  proposal.executed = true ∨ proposal.expiresLedger ≤ sequence

/-- Proposals are stored under ids that have been given out, and nobody is twice on a
list of approvals. -/
structure Sound (s : Storage Address) : Prop where
  below : ∀ id proposal, getProposal s id = some proposal → id.val < (nextId s).val
  nodup : ∀ id proposal, getProposal s id = some proposal → proposal.approvals.Nodup

section Steps

variable {s s' : Storage Address} {env : Env Address}

omit [DecidableEq Address] in
theorem getProposal_set {id : U64} {proposal : MultiSigProposal Address}
    (h : s'.proposal = s.proposal.set id proposal) (id' : U64) :
    getProposal s' id' = if id' = id then some proposal else getProposal s id' := by
  rw [getProposal, h, Table.get_set]
  rfl

/-- What an accepted call does to the proposals: it adds an empty one under a new id, adds
the approver to an open one, marks an open one, or leaves them. -/
inductive Effect (s s' : Storage Address) (i : Env Address × Call Address) : Prop
  | created (proposal : MultiSigProposal Address) (empty : proposal.approvals = [])
      (set : s'.proposal = s.proposal.set (nextId s) proposal)
      (next : (nextId s').val = (nextId s).val + 1)
  | approved (id : U64) (approver : Address) (proposal : MultiSigProposal Address)
      (call : i.2 = .approveProposal id approver) (auth : approver ∈ i.1.auths)
      (get : getProposal s id = some proposal) (stillOpen : ¬ Closed proposal i.1.sequence)
      (new : approver ∉ proposal.approvals)
      (set : s'.proposal = s.proposal.set id
        { proposal with approvals := proposal.approvals ++ [approver] })
      (next : nextId s' = nextId s)
  | executed (id : U64) (proposal : MultiSigProposal Address)
      (call : i.2 = .executeProposal id) (get : getProposal s id = some proposal)
      (stillOpen : ¬ Closed proposal i.1.sequence)
      (set : s'.proposal = s.proposal.set id { proposal with executed := true })
      (next : nextId s' = nextId s)
  | idle (same : s'.proposal = s.proposal) (next : nextId s' = nextId s)

omit [DecidableEq Address] in
theorem not_closed {proposal : MultiSigProposal Address} {sequence : U32}
    (hopen : proposal.executed = false) (hexpiry : sequence < proposal.expiresLedger) :
    ¬ Closed proposal sequence := by
  rintro (hexecuted | hexpired)
  · rw [hopen] at hexecuted
    cases hexecuted
  · exact absurd hexpired (Int.not_le.mpr hexpiry)

theorem exec_effect {i : Env Address × Call Address} (h : exec s i = .ok s') :
    Effect s s' i := by
  obtain ⟨env, call⟩ := i
  cases call with
  | createProposal operation proposer threshold timeoutLedgers =>
    obtain ⟨id, hc⟩ := map_snd_eq_ok.mp h
    obtain ⟨rfl, hnext, proposal, hempty, _, hset⟩ := createProposal_ok hc
    exact .created proposal hempty hset hnext
  | approveProposal proposalId approver =>
    obtain ⟨hauth, hnext, proposal, hget, hopen, hexpiry, hnew, hset⟩ := approveProposal_ok h
    exact .approved proposalId approver proposal rfl hauth hget (not_closed hopen hexpiry) hnew
      hset hnext
  | executeProposal proposalId =>
    obtain ⟨executed, hc⟩ := map_snd_eq_ok.mp h
    obtain ⟨hnext, proposal, hget, hopen, ⟨_, hsame⟩ | ⟨_, hexpiry, _, hset⟩⟩ :=
      executeProposal_ok hc
    · exact .idle hsame hnext
    · exact .executed proposalId proposal rfl hget (not_closed hopen hexpiry) hset hnext

omit [DecidableEq Address] in
theorem Sound.fresh (hs : Sound s) : getProposal s (nextId s) = none := by
  cases hget : getProposal s (nextId s) with
  | none => rfl
  | some proposal => exact absurd (hs.below _ _ hget) (lt_irrefl _)

omit [DecidableEq Address] in
/-- A stored proposal is replaced by one with distinct approvals. -/
theorem Sound.replace (hs : Sound s) {id : U64} {old proposal : MultiSigProposal Address}
    (hold : getProposal s id = some old) (hset : s'.proposal = s.proposal.set id proposal)
    (hnext : nextId s' = nextId s) (hnodup : proposal.approvals.Nodup) : Sound s' := by
  constructor
  · intro id' proposal' hget
    rw [getProposal_set hset] at hget
    rw [hnext]
    split at hget
    · next hid =>
      rw [hid]
      exact hs.below id old hold
    · exact hs.below id' proposal' hget
  · intro id' proposal' hget
    rw [getProposal_set hset] at hget
    split at hget
    · cases hget
      exact hnodup
    · exact hs.nodup id' proposal' hget

theorem Sound.step (hs : Sound s) {i : Env Address × Call Address} (h : exec s i = .ok s') :
    Sound s' := by
  cases exec_effect h with
  | created proposal hempty hset hnext =>
    constructor
    · intro id proposal' hget
      rw [getProposal_set hset] at hget
      rw [hnext]
      split at hget
      · next hid =>
        rw [hid]
        exact Int.lt_succ _
      · exact (hs.below id proposal' hget).trans (Int.lt_succ _)
    · intro id proposal' hget
      rw [getProposal_set hset] at hget
      split at hget
      · cases hget
        rw [hempty]
        exact List.nodup_nil
      · exact hs.nodup id proposal' hget
  | approved id approver proposal _ _ hold _ hnew hset hnext =>
    refine hs.replace hold hset hnext ?_
    refine List.nodup_append.mpr ⟨hs.nodup id proposal hold, List.nodup_singleton _, ?_⟩
    rintro a ha b hb rfl
    rw [List.mem_singleton.mp hb] at ha
    exact hnew ha
  | executed id proposal _ hold _ hset hnext =>
    exact hs.replace hold hset hnext (hs.nodup id proposal hold)
  | idle hsame hnext =>
    constructor
    · intro id proposal hget
      rw [getProposal, hsame] at hget
      rw [hnext]
      exact hs.below id proposal hget
    · intro id proposal hget
      rw [getProposal, hsame] at hget
      exact hs.nodup id proposal hget

/-- A closed record does not change. -/
theorem Sound.closed_kept (hs : Sound s) {i : Env Address × Call Address}
    (h : exec s i = .ok s') {id : U64} {proposal : MultiSigProposal Address}
    (hget : getProposal s id = some proposal) (hclosed : Closed proposal i.1.sequence) :
    getProposal s' id = some proposal := by
  cases exec_effect h with
  | created proposal' _ hset _ =>
    have hne : id ≠ nextId s := by
      rintro rfl
      rw [hs.fresh] at hget
      cases hget
    rw [getProposal_set hset, if_neg hne]
    exact hget
  | approved id' approver proposal' _ _ hold hopen _ hset _ =>
    have hne : id ≠ id' := by
      rintro rfl
      cases hold.symm.trans hget
      exact hopen hclosed
    rw [getProposal_set hset, if_neg hne]
    exact hget
  | executed id' proposal' _ hold hopen hset _ =>
    have hne : id ≠ id' := by
      rintro rfl
      cases hold.symm.trans hget
      exact hopen hclosed
    rw [getProposal_set hset, if_neg hne]
    exact hget
  | idle hsame _ =>
    rw [getProposal, hsame]
    exact hget

end Steps

/-! ## Runs -/

section Runs

variable {past : List (Env Address × Call Address)}

theorem sound_after (past : List (Env Address × Call Address)) :
    Sound (after exec (Storage.fresh Address) past) := by
  refine after_invariant ⟨?_, ?_⟩ (fun s i s' hs he => hs.step he) past
  · intro id proposal hget
    exact absurd hget Table.get_empty_ne_some
  · intro id proposal hget
    exact absurd hget Table.get_empty_ne_some

/-- Whoever is on a list of approvals authorised an approval of that proposal. -/
theorem approvals_occur (past : List (Env Address × Call Address)) :
    ∀ id proposal approver,
      getProposal (after exec (Storage.fresh Address) past) id = some proposal →
      approver ∈ proposal.approvals →
      Occurs (Approves (Storage.fresh Address) id approver) past := by
  refine after_history (P := fun past s => ∀ id proposal approver,
    getProposal s id = some proposal → approver ∈ proposal.approvals →
    Occurs (Approves (Storage.fresh Address) id approver) past) ?_ ?_ ?_ past
  · intro id proposal approver hget
    exact absurd hget Table.get_empty_ne_some
  · rintro past i s s' rfl ih he id proposal approver hget hmem
    cases exec_effect he with
    | created proposal' hempty hset _ =>
      rw [getProposal_set hset] at hget
      split at hget
      · cases hget
        rw [hempty] at hmem
        cases hmem
      · exact (ih id proposal approver hget hmem).cons i
    | approved id' approver' proposal' hcall hauth hold _ _ hset _ =>
      rw [getProposal_set hset] at hget
      split at hget
      · next hid =>
        subst hid
        cases hget
        rcases List.mem_append.mp hmem with hbefore | hadded
        · exact (ih id proposal' approver hold hbefore).cons i
        · rw [List.mem_singleton.mp hadded]
          exact .head ⟨⟨s', he⟩, hcall, hauth⟩
      · exact (ih id proposal approver hget hmem).cons i
    | executed id' proposal' _ hold _ hset _ =>
      rw [getProposal_set hset] at hget
      split at hget
      · next hid =>
        subst hid
        cases hget
        exact (ih id proposal' approver hold hmem).cons i
      · exact (ih id proposal approver hget hmem).cons i
    | idle hsame _ =>
      rw [getProposal, hsame] at hget
      exact (ih id proposal approver hget hmem).cons i
  · intro past i s t _ ih _ id proposal approver hget hmem
    exact (ih id proposal approver hget hmem).cons i

omit [DecidableEq Address] in
theorem NondecreasingLedgers.le {i j : Env Address × Call Address}
    {e f : List (Env Address × Call Address)} (h : NondecreasingLedgers past)
    (hi : i :: e <:+ past) (hj : j :: f <:+ e) : j.1.sequence.val ≤ i.1.sequence.val :=
  (List.pairwise_cons.mp (h.sublist hi.sublist)).1 j (hj.subset List.mem_cons_self)

/-- From the call on at which a record is closed, it stays as it is. -/
theorem closed_frozen (hmono : NondecreasingLedgers past) {i : Env Address × Call Address}
    {e : List (Env Address × Call Address)} (hi : i :: e <:+ past) {id : U64}
    {proposal : MultiSigProposal Address}
    (hget : getProposal (after exec (Storage.fresh Address) e) id = some proposal)
    (hclosed : Closed proposal i.1.sequence) :
    getProposal (after exec (Storage.fresh Address) past) id = some proposal := by
  refine after_kept (P := fun s => getProposal s id = some proposal)
    ((List.suffix_cons i e).trans hi) hget fun j f s' hj hf hkept he => ?_
  refine (sound_after f).closed_kept he hkept ?_
  rcases hclosed with hexecuted | hexpired
  · exact .inl hexecuted
  · -- The call is `i` itself or comes after it.
    refine .inr (Int.le_trans hexpired ?_)
    rcases List.suffix_or_suffix_of_suffix hi hj with hsuf | hsuf
    · rcases List.suffix_cons_iff.mp hsuf with heq | hbefore
      · cases heq
        exact le_refl _
      · exact hmono.le hj hbefore
    · rcases List.suffix_cons_iff.mp hsuf with heq | hbefore
      · cases heq
        exact le_refl _
      · have hlong := hbefore.length_le
        have hshort := hf.length_le
        rw [List.length_cons] at hlong
        omega

omit [DecidableEq Address] in
/-- What an execution that returns `true` finds and leaves. -/
theorem Executes.spends {s s' : Storage Address} {env : Env Address} {id : U64}
    (h : executeProposal env s id = .ok (true, s')) :
    ∃ proposal, getProposal s id = some proposal ∧ proposal.executed = false ∧
      env.sequence < proposal.expiresLedger ∧ proposal.threshold ≤ vecLen proposal.approvals ∧
      getProposal s' id = some { proposal with executed := true } := by
  obtain ⟨_, proposal, hget, hopen, ⟨hfalse, _⟩ | ⟨_, hexpiry, hthreshold, hset⟩⟩ :=
    executeProposal_ok h
  · cases hfalse
  · refine ⟨proposal, hget, hopen, hexpiry, hthreshold, ?_⟩
    rw [getProposal, hset, Table.get_set_self]

/-- A proposal is executed once. -/
theorem executed_once {i j : Env Address × Call Address}
    {e f : List (Env Address × Call Address)} {id : U64} (hi : i :: e <:+ past)
    (hxi : Executes (Storage.fresh Address) id e i) (hj : j :: f <:+ past)
    (hxj : Executes (Storage.fresh Address) id f j) : i :: e = j :: f := by
  have haccepted : ∀ {k : Env Address × Call Address} {g : List (Env Address × Call Address)},
      Executes (Storage.fresh Address) id g k → Accepted exec (Storage.fresh Address) g k := by
    rintro ⟨env, call⟩ g ⟨hcall, s', hs'⟩
    cases hcall
    exact ⟨s', map_snd_eq_ok.mpr ⟨true, hs'⟩⟩
  refine accepted_once
    (fun (s : Storage Address) (k : Env Address × Call Address) =>
      k.2 = .executeProposal id ∧ ∃ s', executeProposal k.1 s id = .ok (true, s'))
    (fun s => ∃ proposal, getProposal s id = some proposal ∧ proposal.executed = true)
    ?_ ?_ ?_ hi hxi (haccepted hxi) hj hxj (haccepted hxj)
  · rintro s ⟨env, call⟩ s' ⟨hcall, s'', hs''⟩ he
    cases hcall
    have hsame : exec s (env, .executeProposal id) = .ok s'' := map_snd_eq_ok.mpr ⟨true, hs''⟩
    cases hsame.symm.trans he
    obtain ⟨proposal, _, _, _, _, hget⟩ := Executes.spends hs''
    exact ⟨_, hget, rfl⟩
  · rintro g k s' _ ⟨proposal, hget, hexecuted⟩ he
    exact ⟨proposal, (sound_after g).closed_kept he hget (.inl hexecuted), hexecuted⟩
  · rintro s k s' ⟨_, s'', hs''⟩ ⟨proposal, hget, hexecuted⟩ _
    obtain ⟨proposal', hget', hopen, _⟩ := Executes.spends hs''
    cases hget.symm.trans hget'
    rw [hexecuted] at hopen
    cases hopen

/-- In every run at ledgers that do not fall: nobody is twice on a list of approvals, and
everybody on it authorised an approval of that proposal; a proposal is executed at most
once, before its last ledger, with at least as many approvers as its threshold; and a
record that is executed or has expired stays as it is. -/
theorem multisig_safe (hmono : NondecreasingLedgers past) :
    (∀ id proposal, getProposal (after exec (Storage.fresh Address) past) id = some proposal →
      proposal.approvals.Nodup ∧ ∀ approver ∈ proposal.approvals,
        Occurs (Approves (Storage.fresh Address) id approver) past) ∧
    (∀ id i e j f, i :: e <:+ past → Executes (Storage.fresh Address) id e i →
      j :: f <:+ past → Executes (Storage.fresh Address) id f j → i :: e = j :: f) ∧
    (∀ id i e, i :: e <:+ past → Executes (Storage.fresh Address) id e i →
      ∃ proposal, getProposal (after exec (Storage.fresh Address) e) id = some proposal ∧
        i.1.sequence.val < proposal.expiresLedger.val ∧
        proposal.threshold.val ≤ proposal.approvals.toFinset.card) ∧
    ∀ id i e proposal, i :: e <:+ past →
      getProposal (after exec (Storage.fresh Address) e) id = some proposal →
      Closed proposal i.1.sequence →
      getProposal (after exec (Storage.fresh Address) past) id = some proposal := by
  refine ⟨fun id proposal hget => ⟨(sound_after past).nodup id proposal hget, ?_⟩, ?_, ?_, ?_⟩
  · intro approver hmem
    exact approvals_occur past id proposal approver hget hmem
  · intro id i e j f hi hxi hj hxj
    exact executed_once hi hxi hj hxj
  · rintro id i e hi ⟨_, s', hs'⟩
    obtain ⟨proposal, hget, _, hexpiry, hthreshold, _⟩ := Executes.spends hs'
    refine ⟨proposal, hget, hexpiry, ?_⟩
    rw [List.toFinset_card_of_nodup ((sound_after e).nodup id proposal hget)]
    have hlen : (vecLen proposal.approvals).val ≤ proposal.approvals.length := by
      show (proposal.approvals.length : Int) % 4294967296 ≤ _
      omega
    exact Int.le_trans hthreshold hlen
  · intro id i e proposal hi hget hclosed
    exact closed_frozen hmono hi hget hclosed

/-- Contracts 5 and 6 approve proposal 1, which has a threshold of 2 and expires at ledger
10; it is executed at ledger 9. -/
def exampleMultisig : List (Env Nat × Call Nat) :=
  [(exampleEnv (.lit 12) [], .executeProposal (.lit 1)),
    (exampleEnv (.lit 9) [], .executeProposal (.lit 1)),
    (exampleEnv (.lit 8) [6], .approveProposal (.lit 1) 6),
    (exampleEnv (.lit 5) [5], .approveProposal (.lit 1) 5),
    (exampleEnv 0 [5], .createProposal "mint" 5 (.lit 2) (.lit 10))]

theorem multisig_safe_executed :
    ∃ proposal,
      getProposal (after exec (Storage.fresh Nat) exampleMultisig) (.lit 1) = some proposal ∧
      proposal.executed = true ∧ proposal.approvals = [5, 6] ∧ proposal.approvals.Nodup := by
  have hmono : NondecreasingLedgers exampleMultisig := by
    unfold NondecreasingLedgers
    decide
  have hstored : (getProposal (after exec (Storage.fresh Nat) exampleMultisig) (.lit 1)).map
      (fun proposal => (proposal.executed, proposal.approvals)) = some (true, [5, 6]) := by
    decide +kernel
  obtain ⟨proposal, hget, hfields⟩ := Option.map_eq_some_iff.mp hstored
  obtain ⟨hexecuted, happrovals⟩ := Prod.mk.inj hfields
  exact ⟨proposal, hget, hexecuted, happrovals, ((multisig_safe hmono).1 _ proposal hget).1⟩

end Runs

end Scoopdope.Shared.Multisig
