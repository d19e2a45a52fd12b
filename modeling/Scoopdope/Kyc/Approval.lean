import Scoopdope.Kyc.Service
import Scoopdope.Soroban.History

/-!
# KYC: whose decision approves

Runs of submissions, of decisions that the provider comes to and of their deliveries, late and in
any order. `handleWebhook` looks up the customer by the alias of the decision and never compares
its session with the one that the latest submission has opened.

`approval_latest_iff`: a customer is approved only if the provider has approved the session of the
latest submission, throughout a run, exactly when no approving decision is delivered for a
customer whose latest session the provider has not approved.
-/

namespace Scoopdope.Kyc

open Async Database Server Learning Soroban

inductive Event
  | submitDocuments (env : Env) (dto : SubmitKycDocumentsDto)
  | upsertCustomer (env : Env) (stellarPublicKey : String) (fields : List (String × String))
  /-- The provider comes to a decision about a session. -/
  | decide (session : Nat) (status : String)
  /-- The provider delivers a decision that it has come to. -/
  | handleWebhook (env : Env) (session : Nat) (status : String)

/-- The customer for whom an event submits documents. -/
def Event.submits : Event → Option String
  | submitDocuments _ dto => some dto.stellarPublicKey
  | upsertCustomer _ stellarPublicKey _ => some stellarPublicKey
  | _ => none

def Session.decided (status : String) (session : Session) : Session :=
  { session with decisions := status :: session.decisions }

/-- The payload with which a decision is delivered. -/
def Session.payload (session : Session) (status : String) : WebhookPayload :=
  ⟨some session.aliasName, session.id, status⟩

section Runs

variable (toUpperCase : String → String)

def next (s : State) : Event → State
  | .submitDocuments env dto => ((submitDocuments dto).run handle env s).2
  | .upsertCustomer env stellarPublicKey fields =>
    ((upsertCustomer stellarPublicKey fields).run handle env s).2
  | .decide session status => { s with sessions := s.sessions.modify session (.decided status) }
  | .handleWebhook env session status =>
    match s.sessions[session]? with
    | none => s
    | some session =>
      if status ∈ session.decisions then
        ((handleWebhook toUpperCase (session.payload status)).run handle env s).2
      else s

def exec (s : State) (i : Event) : Outcome State := .ok (next toUpperCase s i)

/-- The state after a run that starts without customers. -/
abbrev reached (past : List Event) : State := after (exec toUpperCase) State.empty past

/-- The session that the latest submission for a customer has opened, if it has opened one. -/
def latestSession (key : String) : List Event → Option Nat
  | [] => none
  | i :: past =>
    if i.submits = some key then
      if (reached toUpperCase past).sessions.length <
          (reached toUpperCase (i :: past)).sessions.length then
        some (reached toUpperCase past).sessions.length
      else none
    else latestSession key past

/-- A decision that approves. -/
def Approving (status : String) : Prop := mappedStatus (toUpperCase status) = .approved

/-- The provider has approved a session. -/
def ProviderApproved (s : State) (session : Nat) : Prop :=
  ∃ found, s.sessions[session]? = some found ∧ ∃ status ∈ found.decisions,
    Approving toUpperCase status

/-- The provider has approved the session of the latest submission. -/
def LatestApproved (past : List Event) (key : String) : Prop :=
  ∃ session, latestSession toUpperCase key past = some session ∧
    ProviderApproved toUpperCase (reached toUpperCase past) session

/-- No approving decision is delivered for a customer whose latest session is not approved. -/
def NoStaleApproval (past : List Event) (i : Event) : Prop :=
  ∀ env n status session, i = .handleWebhook env n status →
    (reached toUpperCase past).sessions[n]? = some session → status ∈ session.decisions →
    Approving toUpperCase status → session.aliasName ≠ "" →
    (∃ row ∈ (reached toUpperCase past).customers,
      row.data.stellarPublicKey = session.aliasName) →
    LatestApproved toUpperCase past session.aliasName

end Runs

/-! ## What a submission writes -/

variable {env : Env} {s : State} {toUpperCase : String → String} {key : String}

theorem run_query {A : Type} (o : Op) (next : o.answer → Method A) :
    (query o >>= next).run handle env s =
      (next (handle env s o).1).run handle env (handle env s o).2 := rfl

theorem run_findOne {A : Type} (next : Option CustomerRow → Method A) :
    (query (.findOne key) >>= next).run handle env s =
      (next (s.customers.findOne (customers.holds () key))).run handle env s := rfl

theorem isApproved_iff :
    ((isApproved key).run handle env s).1 = .ok true ↔
      ∃ row, s.customers.findOne (customers.holds () key) = some row ∧
        row.data.status = .approved := by
  unfold isApproved
  rw [run_findOne]
  rcases s.customers.findOne (customers.holds () key) with - | row <;> simp

theorem conflict_symm (a b : Customer) : customers.conflict () a b = customers.conflict () b a := by
  simp [eq_comm]

/-- The rows after `saveCustomer`. -/
def written (env : Env) (rows : customers.Rows ()) (found : Option CustomerRow)
    (data : Customer) : customers.Rows () :=
  match found with
  | none => (Schema.insert env.generated rows data).2
  | some row => (Schema.save env.generated rows { row with data }).2

theorem run_saveCustomer (found : Option CustomerRow) (data : Customer) :
    ((saveCustomer found data).run handle env s).2 =
      { s with customers := written env s.customers found data } := by
  obtain ⟨saved, hwrite⟩ : ∃ saved, (writeCustomer found data).run handle env s =
      (.ok saved, { s with customers := written env s.customers found data }) := by
    rcases found with - | row
    · exact ⟨_, rfl⟩
    · exact ⟨_, rfl⟩
  unfold saveCustomer
  rw [Process.run_bind_of_ok hwrite]
  rcases saved with - | saved <;> rfl

theorem key_of_found {rows : customers.Rows ()} {row : CustomerRow}
    (h : rows.findOne (customers.holds () key) = some row) :
    row ∈ rows ∧ row.data.stellarPublicKey = key := by
  obtain ⟨hholds, hrow⟩ := Repository.findOne_some h
  exact ⟨hrow, by simpa using hholds⟩

/-- A customer is found by the key. -/
theorem found_of_mem {rows : customers.Rows ()} (hrows : Schema.Respected rows)
    {row : CustomerRow} (hrow : row ∈ rows) (hkey : row.data.stellarPublicKey = key) :
    rows.findOne (customers.holds () key) = some row := by
  refine Repository.findOne_of_unique hrow (by simpa using hkey) fun other hother hholds => ?_
  by_contra hne
  have hfree := hrows other hother row hrow hne
  simp_all

variable (env) in
/-- A customer who exists is written. -/
theorem written_found {rows : customers.Rows ()} (hrows : Schema.Respected rows)
    {old : CustomerRow} (hold : old ∈ rows) (data : Customer)
    (hkey : data.stellarPublicKey = old.data.stellarPublicKey) :
    written env rows (some old) data = rows.save { old with data, updatedAt := env.now } := by
  have hfree : Schema.conflicts rows ({ old with data, updatedAt := env.now } : CustomerRow) =
      false := by
    refine conflicts_eq_false.mpr fun other hother hne => ?_
    have hother' := hrows other hother old hold hne
    simpa [hkey] using hother'
  have hsaved : (Schema.save env.generated rows { old with data }).1 =
      some { old with data, updatedAt := env.now } := save_some.mpr ⟨rfl, hfree⟩
  rw [written, save_rows, hsaved]

theorem mem_written {rows : customers.Rows ()} (hrows : Schema.Respected rows) {data : Customer}
    (hkey : data.stellarPublicKey = key) {row : CustomerRow}
    (h : row ∈ written env rows (rows.findOne (customers.holds () key)) data) :
    row.data = data ∨ row ∈ rows ∧ row.data.stellarPublicKey ≠ key := by
  rcases hfound : rows.findOne (customers.holds () key) with - | old <;> rw [hfound] at h
  · rcases mem_insert h with hrow | rfl
    · have hmissed := Repository.findOne_eq_none.mp hfound row hrow
      exact .inr ⟨hrow, by simpa using hmissed⟩
    · exact .inl rfl
  · obtain ⟨hold, rfl⟩ := key_of_found hfound
    rw [written_found env hrows hold data hkey] at h
    rcases Repository.mem_save.mp h with rfl | ⟨hrow, hne⟩
    · exact .inl rfl
    · refine .inr ⟨hrow, fun hsame => hne ?_⟩
      have hfound' := found_of_mem hrows hrow hsame
      rw [hfound] at hfound'
      cases hfound'
      rfl

variable (env) in
theorem written_respected {rows : customers.Rows ()} (hrows : Schema.Respected rows)
    (found : Option CustomerRow) (data : Customer) :
    Schema.Respected (written env rows found data) := by
  rcases found with - | row
  · exact hrows.insert conflict_symm data
  · exact hrows.save conflict_symm _

/-- What is left of the customers and the sessions after a submission. -/
structure Submitted (key : String) (s s' : State) : Prop where
  rows : ∀ row ∈ s'.customers,
    row.data.stellarPublicKey = key ∧ row.data.status = .pending ∨
      row ∈ s.customers ∧ row.data.stellarPublicKey ≠ key
  respected : Schema.Respected s'.customers
  sessions : s'.sessions = s.sessions ∨ ∃ session, s'.sessions = s.sessions ++ [session]

theorem pendingCustomer_spec (rows : customers.Rows ()) (key : String) :
    (pendingCustomer key (rows.findOne (customers.holds () key))).stellarPublicKey = key ∧
      (pendingCustomer key (rows.findOne (customers.holds () key))).status = .pending := by
  rcases hfound : rows.findOne (customers.holds () key) with - | row
  · exact ⟨rfl, rfl⟩
  · exact ⟨(key_of_found hfound).2, rfl⟩

variable (env s) in
theorem run_submitToProvider (body : SessionRequest) (customer : Customer) :
    ∃ sent s', (submitToProvider body customer).run handle env s = (.ok sent, s') ∧
      sent.stellarPublicKey = customer.stellarPublicKey ∧ sent.status = customer.status ∧
      s'.customers = s.customers ∧
      (s'.sessions = s.sessions ∨ ∃ session, s'.sessions = s.sessions ++ [session]) := by
  unfold submitToProvider
  rw [Process.env_bind, Process.run_ask]
  by_cases hkey : env.apiKey = ""
  · rw [if_pos hkey]
    exact ⟨customer, s, rfl, rfl, rfl, rfl, .inl rfl⟩
  · rw [if_neg hkey, run_query]
    rcases hanswer : env.provider body with id | status | message <;>
      simp only [handle, hanswer]
    · exact ⟨_, _, rfl, rfl, rfl, rfl, .inr ⟨_, rfl⟩⟩
    · exact ⟨_, _, rfl, rfl, rfl, rfl, .inl rfl⟩
    · exact ⟨_, _, rfl, rfl, rfl, rfl, .inl rfl⟩

theorem submitted_of_pending (hs : Schema.Respected s.customers) (body : SessionRequest)
    {customer : Customer} (hkey : customer.stellarPublicKey = key)
    (hpending : customer.status = .pending) :
    Submitted key s ((submitToProvider body customer >>=
      saveCustomer (s.customers.findOne (customers.holds () key))).run handle env s).2 := by
  obtain ⟨sent, s', hrun, hsent, hstatus, hcustomers, hsessions⟩ :=
    run_submitToProvider env s body customer
  rw [Process.run_bind_of_ok hrun, run_saveCustomer, hcustomers]
  refine ⟨fun row hrow => ?_, written_respected env hs _ _, hsessions⟩
  rcases mem_written hs (hsent.trans hkey) hrow with hdata | hother
  · rw [hdata, hsent, hstatus]
    exact .inl ⟨hkey, hpending⟩
  · exact .inr hother

variable (toUpperCase) in
theorem next_submits (hs : Schema.Respected s.customers) {i : Event} (h : i.submits = some key) :
    Submitted key s (next toUpperCase s i) := by
  cases i with
  | submitDocuments env dto =>
    cases h
    obtain ⟨hkey, hpending⟩ := pendingCustomer_spec s.customers dto.stellarPublicKey
    exact submitted_of_pending hs _ hkey hpending
  | upsertCustomer env stellarPublicKey fields =>
    cases h
    obtain ⟨hkey, hpending⟩ := pendingCustomer_spec s.customers key
    exact submitted_of_pending hs _ hkey hpending
  | decide session status => cases h
  | handleWebhook env session status => cases h

/-! ## What a decision writes -/

/-- The row of a customer with another status. -/
def decidedRow (env : Env) (row : CustomerRow) (status : KycStatus) : CustomerRow :=
  { row with data := { row.data with status }, updatedAt := env.now }

/-- A delivered decision writes the status of the customer who has the alias of its session. -/
inductive Decided (toUpperCase : String → String) (env : Env) (s : State) (session : Session)
    (status : String) : State → Prop
  | ignored (h : session.aliasName = "" ∨
      ∀ row ∈ s.customers, row.data.stellarPublicKey ≠ session.aliasName) :
      Decided toUpperCase env s session status s
  | written (row : CustomerRow) (hrow : row ∈ s.customers) (hnamed : session.aliasName ≠ "")
      (hkey : row.data.stellarPublicKey = session.aliasName) :
      Decided toUpperCase env s session status
        { s with customers :=
            s.customers.save (decidedRow env row (mappedStatus (toUpperCase status))) }

theorem run_handleWebhook (hs : Schema.Respected s.customers) (session : Session)
    (status : String) : Decided toUpperCase env s session status
      ((handleWebhook toUpperCase (session.payload status)).run handle env s).2 := by
  unfold handleWebhook
  rcases halias : truthy (session.payload status).aliasName with - | name
  · refine .ignored (.inl ?_)
    by_contra hne
    cases halias.symm.trans (truthy_eq_some.mpr ⟨rfl, hne⟩)
  · obtain ⟨hname, hne⟩ := truthy_eq_some.mp halias
    cases hname
    dsimp only
    rw [run_findOne]
    rcases hfound : s.customers.findOne (customers.holds () session.aliasName) with - | row
    · refine .ignored (.inr fun row hrow => ?_)
      simpa using Repository.findOne_eq_none.mp hfound row hrow
    · obtain ⟨hrow, hkey⟩ := key_of_found hfound
      dsimp only
      have hsaved (data : Customer) :
          ((saveCustomer (some row) data >>= fun _ => .ret ()).run handle env s).2 = _ :=
        (congrArg Prod.snd (Process.run_map _ _)).trans (run_saveCustomer (some row) data)
      have hrow' := written_found env hs hrow
        { row.data with status := mappedStatus (toUpperCase status) } rfl
      have hdecided : Decided toUpperCase env s session status _ := .written row hrow hne hkey
      rw [decidedRow, ← hrow', ← hsaved] at hdecided
      exact hdecided

variable (toUpperCase) in
/-- What an event that submits nothing does. -/
theorem next_idle (hs : Schema.Respected s.customers) {i : Event} (h : i.submits = none) :
    (∃ n status, i = .decide n status ∧
      next toUpperCase s i = { s with sessions := s.sessions.modify n (.decided status) }) ∨
    ((∀ env n status session, i = .handleWebhook env n status →
      s.sessions[n]? = some session → status ∉ session.decisions) ∧ next toUpperCase s i = s) ∨
    ∃ env n status session, i = .handleWebhook env n status ∧ s.sessions[n]? = some session ∧
      status ∈ session.decisions ∧
      Decided toUpperCase env s session status (next toUpperCase s i) := by
  cases i with
  | submitDocuments env dto => cases h
  | upsertCustomer env stellarPublicKey fields => cases h
  | decide session status => exact .inl ⟨session, status, rfl, rfl⟩
  | handleWebhook env n status =>
    rcases hfound : s.sessions[n]? with - | session
    · refine .inr (.inl ⟨?_, by simp only [next, hfound]⟩)
      rintro _ _ _ session ⟨⟩ hsession
      cases hfound.symm.trans hsession
    · by_cases hmem : status ∈ session.decisions
      · refine .inr (.inr ⟨env, n, status, session, rfl, hfound, hmem, ?_⟩)
        simp only [next, hfound, hmem, if_true]
        exact run_handleWebhook hs session status
      · refine .inr (.inl ⟨?_, by simp only [next, hfound, hmem, if_false]⟩)
        rintro _ _ _ session' ⟨⟩ hsession
        cases hfound.symm.trans hsession
        exact hmem

/-! ## Runs -/

theorem Decided.rows {session : Session} {status : String} {s' : State}
    (hs : Schema.Respected s.customers) (h : Decided toUpperCase env s session status s') :
    s'.sessions = s.sessions ∧ Schema.Respected s'.customers ∧
      ∀ row ∈ s'.customers, row ∈ s.customers ∨
        row.data.stellarPublicKey = session.aliasName ∧ session.aliasName ≠ "" ∧
          (∃ old ∈ s.customers, old.data.stellarPublicKey = session.aliasName) ∧
          row.data.status = mappedStatus (toUpperCase status) := by
  cases h with
  | ignored h => exact ⟨rfl, hs, fun row hrow => .inl hrow⟩
  | written old hold hnamed hkey =>
    refine ⟨rfl, ?_, fun row hrow => ?_⟩
    · have hwritten := written_found env hs hold
        { old.data with status := mappedStatus (toUpperCase status) } rfl
      have hrespected := written_respected env hs (some old)
        { old.data with status := mappedStatus (toUpperCase status) }
      rw [hwritten] at hrespected
      exact hrespected
    · rcases Repository.mem_save.mp hrow with rfl | ⟨hrow, -⟩
      · exact .inr ⟨hkey, hnamed, ⟨old, hold, hkey⟩, rfl⟩
      · exact .inl hrow

theorem Decided.wrote {session : Session} {status : String} {s' : State}
    (h : Decided toUpperCase env s session status s') (hnamed : session.aliasName ≠ "")
    (old : CustomerRow) (hold : old ∈ s.customers)
    (hkey : old.data.stellarPublicKey = session.aliasName) :
    ∃ row ∈ s'.customers, row.data.stellarPublicKey = session.aliasName ∧
      row.data.status = mappedStatus (toUpperCase status) := by
  cases h with
  | ignored h =>
    rcases h with hempty | hnone
    · exact absurd hempty hnamed
    · exact absurd hkey (hnone old hold)
  | written row hrow _ hrowkey =>
    exact ⟨_, Repository.mem_save.mpr (.inl rfl), hrowkey, rfl⟩

theorem next_respected (hs : Schema.Respected s.customers) (i : Event) :
    Schema.Respected (next toUpperCase s i).customers := by
  rcases hsubmits : i.submits with - | key
  · rcases next_idle toUpperCase hs hsubmits with
      ⟨n, status, -, hnext⟩ | ⟨-, hnext⟩ | ⟨env, n, status, session, -, -, -, hdecided⟩
    · rw [hnext]
      exact hs
    · rw [hnext]
      exact hs
    · exact (hdecided.rows hs).2.1
  · exact (next_submits toUpperCase hs hsubmits).respected

theorem reached_respected (past : List Event) :
    Schema.Respected (reached toUpperCase past).customers := by
  refine after_invariant (P := fun s : State => Schema.Respected s.customers) respected_empty
    (fun s i s' hs hexec => ?_) past
  cases hexec
  exact next_respected hs i

theorem approved_iff (past : List Event) :
    ((isApproved key).run handle env (reached toUpperCase past)).1 = .ok true ↔
      ∃ row ∈ (reached toUpperCase past).customers,
        row.data.stellarPublicKey = key ∧ row.data.status = .approved := by
  rw [isApproved_iff]
  constructor
  · rintro ⟨row, hfound, happroved⟩
    obtain ⟨hrow, hkey⟩ := key_of_found hfound
    exact ⟨row, hrow, hkey, happroved⟩
  · rintro ⟨row, hrow, hkey, happroved⟩
    exact ⟨row, found_of_mem (reached_respected past) hrow hkey, happroved⟩

/-- An approval by the provider is never taken back. -/
theorem ProviderApproved.next (hs : Schema.Respected s.customers) (i : Event) {session : Nat}
    (h : ProviderApproved toUpperCase s session) :
    ProviderApproved toUpperCase (next toUpperCase s i) session := by
  obtain ⟨found, hfound, status, hmem, happroving⟩ := h
  have hsame {s' : State} (hsessions : s'.sessions = s.sessions) :
      ProviderApproved toUpperCase s' session :=
    ⟨found, by rw [hsessions]; exact hfound, status, hmem, happroving⟩
  rcases hsubmits : i.submits with - | key
  · rcases next_idle toUpperCase hs hsubmits with
      ⟨n, status', -, hnext⟩ | ⟨-, hnext⟩ | ⟨env, n, status', session', -, -, -, hdecided⟩
    · rw [hnext]
      by_cases hn : n = session
      · refine ⟨found.decided status', ?_, status, List.mem_cons_of_mem _ hmem, happroving⟩
        simp [hn, hfound]
      · refine ⟨found, ?_, status, hmem, happroving⟩
        simp [hn, hfound]
    · rw [hnext]
      exact hsame rfl
    · exact hsame (hdecided.rows hs).1
  · rcases (next_submits toUpperCase hs hsubmits).sessions with
      hsessions | ⟨new, hsessions⟩
    · exact hsame hsessions
    · refine ⟨found, ?_, status, hmem, happroving⟩
      rw [hsessions]
      exact (List.getElem?_append_left (List.getElem?_eq_some_iff.mp hfound).1).trans hfound

theorem LatestApproved.cons {past : List Event} {i : Event}
    (h : LatestApproved toUpperCase past key) (hother : i.submits ≠ some key) :
    LatestApproved toUpperCase (i :: past) key := by
  obtain ⟨session, hlatest, happroved⟩ := h
  refine ⟨session, ?_, happroved.next (reached_respected past) i⟩
  rw [latestSession, if_neg hother]
  exact hlatest

/-- A customer is approved only if the provider has approved the session of the latest
submission. -/
def ApprovedByLatest (toUpperCase : String → String) (past : List Event) : Prop :=
  ∀ env key, ((isApproved key).run handle env (reached toUpperCase past)).1 = .ok true →
    LatestApproved toUpperCase past key

theorem approvedByLatest_iff {past : List Event} :
    ApprovedByLatest toUpperCase past ↔ ∀ row ∈ (reached toUpperCase past).customers,
      row.data.status = .approved → LatestApproved toUpperCase past row.data.stellarPublicKey := by
  constructor
  · intro h row hrow happroved
    let env : Env := ⟨0, "", "", fun _ => .refused 0, id, some⟩
    exact h env _ ((approved_iff past).mpr ⟨row, hrow, rfl, happroved⟩)
  · intro h env key happroved
    obtain ⟨row, hrow, rfl, hstatus⟩ := (approved_iff past).mp happroved
    exact h row hrow hstatus

/-- An event that leaves the rows alone. -/
theorem approvedByLatest_keep {past : List Event} {i : Event}
    (h : ApprovedByLatest toUpperCase past) (hsubmits : i.submits = none)
    (hrows : ∀ row ∈ (reached toUpperCase (i :: past)).customers,
      row ∈ (reached toUpperCase past).customers ∨ row.data.status ≠ .approved) :
    ApprovedByLatest toUpperCase (i :: past) := by
  rw [approvedByLatest_iff] at h ⊢
  intro row hrow happroved
  rcases hrows row hrow with hold | hother
  · refine (h row hold happroved).cons ?_
    rw [hsubmits]
    exact nofun
  · exact absurd happroved hother

theorem approvedByLatest_submits {past : List Event} {i : Event}
    (h : ApprovedByLatest toUpperCase past) (hsubmits : i.submits = some key) :
    ApprovedByLatest toUpperCase (i :: past) := by
  rw [approvedByLatest_iff] at h ⊢
  intro row hrow happroved
  rcases (next_submits toUpperCase (reached_respected past) hsubmits).rows row hrow with
    ⟨-, hpending⟩ | ⟨hold, hne⟩
  · rw [hpending] at happroved
    cases happroved
  · refine (h row hold happroved).cons ?_
    rw [hsubmits]
    exact fun heq => hne (Option.some.inj heq).symm

/-- An approval of the latest session is none that an event without effect on the sessions has
made. -/
theorem LatestApproved.before {past : List Event} {i : Event}
    (h : LatestApproved toUpperCase (i :: past) key) (hsubmits : i.submits = none)
    (hsessions : (reached toUpperCase (i :: past)).sessions =
      (reached toUpperCase past).sessions) : LatestApproved toUpperCase past key := by
  obtain ⟨session, hlatest, found, hfound, happroved⟩ := h
  rw [latestSession, hsubmits, if_neg (by simp)] at hlatest
  rw [hsessions] at hfound
  exact ⟨session, hlatest, found, hfound, happroved⟩

theorem approvedByLatest_delivered {past : List Event} {env : Env} {n : Nat} {status : String}
    {session : Session} (h : ApprovedByLatest toUpperCase past)
    (hsession : (reached toUpperCase past).sessions[n]? = some session)
    (hmem : status ∈ session.decisions)
    (hdecided : Decided toUpperCase env (reached toUpperCase past) session status
      (reached toUpperCase (.handleWebhook env n status :: past))) :
    ApprovedByLatest toUpperCase (.handleWebhook env n status :: past) ↔
      NoStaleApproval toUpperCase past (.handleWebhook env n status) := by
  obtain ⟨hsessions, -, hrows⟩ := hdecided.rows (reached_respected past)
  constructor
  · rintro hafter _ _ _ session' ⟨⟩ hsession' hmem' happroving hnamed ⟨old, hold, hkey⟩
    cases hsession.symm.trans hsession'
    obtain ⟨row, hrow, hrowkey, hstatus⟩ := hdecided.wrote hnamed old hold hkey
    have hlatest := approvedByLatest_iff.mp hafter row hrow (hstatus.trans happroving)
    rw [hrowkey] at hlatest
    exact hlatest.before rfl hsessions
  · intro hguard
    rw [approvedByLatest_iff]
    intro row hrow happroved
    rcases hrows row hrow with hold | ⟨hkey, hnamed, hexists, hstatus⟩
    · refine ((approvedByLatest_iff.mp h) row hold happroved).cons ?_
      exact nofun
    · rw [hkey]
      refine (hguard env n status session rfl hsession hmem ?_ hnamed hexists).cons ?_
      · exact hstatus.symm.trans happroved
      · exact nofun

theorem approvedByLatest_cons {past : List Event} {i : Event}
    (h : ApprovedByLatest toUpperCase past) :
    ApprovedByLatest toUpperCase (i :: past) ↔ NoStaleApproval toUpperCase past i := by
  rcases hsubmits : i.submits with - | key
  · rcases next_idle toUpperCase (reached_respected past) hsubmits with
      ⟨n, status, rfl, hnext⟩ | ⟨hnever, hnext⟩ |
        ⟨env, n, status, session, rfl, hsession, hmem, hdecided⟩
    · refine iff_of_true (approvedByLatest_keep h hsubmits fun row hrow => .inl ?_) nofun
      have hsame : reached toUpperCase (.decide n status :: past) = _ := hnext
      rw [hsame] at hrow
      exact hrow
    · refine iff_of_true (approvedByLatest_keep h hsubmits fun row hrow => .inl ?_) ?_
      · have hsame : reached toUpperCase (i :: past) = _ := hnext
        rw [hsame] at hrow
        exact hrow
      · intro env n status session hi hsession hmem
        exact absurd hmem (hnever env n status session hi hsession)
    · exact approvedByLatest_delivered h hsession hmem hdecided
  · refine iff_of_true (approvedByLatest_submits h hsubmits) ?_
    rintro env n status session rfl
    cases hsubmits

/-- A customer is approved only if the provider has approved the session of the customer's latest
submission, at every point of a run, exactly when no approving decision of the run is delivered
for a customer whose latest session the provider has not approved. -/
theorem approval_latest_iff (toUpperCase : String → String) (past : List Event) :
    (∀ earlier, earlier <:+ past → ApprovedByLatest toUpperCase earlier) ↔
      Guarded (NoStaleApproval toUpperCase) past := by
  refine throughout_iff_guarded ?_ past fun earlier i _ h => approvedByLatest_cons h
  rw [approvedByLatest_iff]
  exact fun row hrow => absurd hrow Repository.not_mem_empty

/-- Documents are submitted twice, and the provider approves the first session late. Newest event
first. -/
def lateDecision : List Event :=
  let env : Env := ⟨0, "row", "key", fun _ => .accepted none, id, some⟩
  let dto : SubmitKycDocumentsDto := ⟨"G", .passport, "https://documents", none⟩
  [ .handleWebhook env 0 "APPROVED", .decide 0 "APPROVED", .submitDocuments env dto,
    .submitDocuments env dto ]

/-- The customer is approved, and the provider has not reviewed the documents of the second
session. -/
theorem approved_by_earlier_session :
    let env : Env := ⟨0, "row", "key", fun _ => .accepted none, id, some⟩
    ((isApproved "G").run handle env (reached id lateDecision)).1 = .ok true ∧
      latestSession id "G" lateDecision = some 1 ∧
      (reached id lateDecision).sessions[1]?.map Session.decisions = some [] ∧
      ¬ ApprovedByLatest id lateDecision := by
  intro env
  have happroved : ((isApproved "G").run handle env (reached id lateDecision)).1 = .ok true := by
    decide +kernel
  have hlatest : latestSession id "G" lateDecision = some 1 := by decide +kernel
  have hundecided : (reached id lateDecision).sessions[1]?.map Session.decisions = some [] := by
    decide +kernel
  refine ⟨happroved, hlatest, hundecided, fun h => ?_⟩
  obtain ⟨session, hsession, found, hfound, status, hmem, -⟩ := h env "G" happroved
  cases hlatest.symm.trans hsession
  rw [hfound, Option.map_some, Option.some.injEq] at hundecided
  rw [hundecided] at hmem
  cases hmem

end Scoopdope.Kyc
