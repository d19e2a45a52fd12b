import Scoopdope.Shared.Steps
import Scoopdope.Soroban.History

/-!
# Shared: who is in charge

`set_governance` and `assign_role` compare their caller with the stored admin.
`initialize` writes the same keys and asks its own `admin` argument only, however
often it is called: unlike the other contracts, this one does not refuse a second
`initialize`.

So the stored admin is in charge of a run exactly if each later `initialize` is one
that it authorised, for an admin that was in charge before (`authority_kept_iff`).
With any other, a stranger takes over (`stranger_initializes`).
-/

namespace Scoopdope.Shared

open Soroban

variable {Address : Type} [DecidableEq Address]

/-! ## Authority over a run -/

/-- The call is authorised by the address that is the stored admin. -/
def ByStoredAdmin (s : Storage Address) (i : Input Address) : Prop :=
  ∃ admin, s.admin = some admin ∧ admin ∈ i.env.auths

/-- The stored admin, governance or some role entry has changed. -/
def AuthorityChanged (s s' : Storage Address) : Prop :=
  s'.admin ≠ s.admin ∨ s'.governance ≠ s.governance ∨ ∃ a, s'.role.get a ≠ s.role.get a

/-- The call is an `assign_role` by the stored admin that makes `a` an admin. -/
def AssignsAdmin (s₀ : Storage Address) (a : Address) (earlier : List (Input Address))
    (i : Input Address) : Prop :=
  ∃ caller, i.call = .assignRole caller a .admin ∧
    (after exec s₀ earlier).admin = some caller ∧ caller ∈ i.env.auths

/-- `a` was the first admin, or was made an admin since. -/
def Entitled (s₀ : Storage Address) (admin : Address) (past : List (Input Address))
    (a : Address) : Prop :=
  a = admin ∨ Occurs (AssignsAdmin s₀ a) past

/-- If the call is one more `initialize` that its admin argument authorises, then
the stored admin authorises it too, and the argument is entitled. -/
def Legitimate (s₀ : Storage Address) (admin : Address) (earlier : List (Input Address))
    (i : Input Address) : Prop :=
  ∀ admin' governance', i.call = .initializeContract admin' governance' → admin' ∈ i.env.auths →
    ByStoredAdmin (after exec s₀ earlier) i ∧ Entitled s₀ admin earlier admin'

/-! ## One call -/

section Steps

variable {s s' : Storage Address} {i : Input Address}

theorem SameAuthority.not_changed (h : SameAuthority s s') : ¬ AuthorityChanged s s' := by
  rintro (hc | hc | ⟨a, hc⟩)
  · exact hc h.admin
  · exact hc h.governance
  · exact hc (by rw [h.role])

theorem hasRole_iff {a : Address} {role : Role} :
    hasRole s a role = true ↔ s.role.get a = some role := by
  unfold hasRole
  cases s.role.get a with
  | none =>
    refine iff_of_false Bool.noConfusion fun h => ?_
    cases h
  | some stored => cases stored <;> cases role <;> decide

/-- What an accepted call does to the authorities. -/
inductive AuthorityEffect (s : Storage Address) (i : Input Address) (s' : Storage Address) : Prop
  | kept (h : SameAuthority s s')
  | initialised (admin governance : Address)
      (hcall : i.call = .initializeContract admin governance) (hauth : admin ∈ i.env.auths)
      (hadmin' : s'.admin = some admin) (hrole : s'.role = s.role.set admin .admin)
  | governanceSet (caller : Address) (hauth : caller ∈ i.env.auths)
      (hadmin : s.admin = some caller) (hadmin' : s'.admin = s.admin) (hrole : s'.role = s.role)
  | roleAssigned (caller target : Address) (role : Role)
      (hcall : i.call = .assignRole caller target role) (hauth : caller ∈ i.env.auths)
      (hadmin : s.admin = some caller) (hadmin' : s'.admin = s.admin)
      (hrole : s'.role = s.role.set target role)

theorem authority_effect (he : exec s i = .ok s') : AuthorityEffect s i s' := by
  cases exec_effect he with
  | initialised admin governance hcall hauth h =>
    exact .initialised admin governance hcall hauth (by rw [h]) (by rw [h])
  | governanceSet caller governance _ hauth hadmin h =>
    exact .governanceSet caller hauth hadmin (by rw [h]) (by rw [h])
  | roleAssigned caller target role hcall hauth hadmin h =>
    refine .roleAssigned caller target role hcall hauth hadmin ?_ ?_
    · rw [h]
      rfl
    · rw [h]
      rfl
  | upgraded newWasmHash _ h => exact .kept h.authority
  | rolledBack _ h => exact .kept h.authority
  | migrated admin _ h => exact .kept h.authority
  | upgradedByAdmin admin newWasmHash _ _ _ _ h =>
    rw [h]
    exact .kept ⟨rfl, rfl, rfl⟩
  | unrelated _ h => exact .kept h.authority

/-- Every call but `initialize` that changes an authority is by the stored admin. -/
theorem changed_by_admin (he : exec s i = .ok s') (hchanged : AuthorityChanged s s') :
    ByStoredAdmin s i ∨ ∃ admin governance, i.call = .initializeContract admin governance ∧
      admin ∈ i.env.auths := by
  cases authority_effect he with
  | kept h => exact absurd hchanged h.not_changed
  | initialised admin governance hcall hauth _ _ => exact .inr ⟨admin, governance, hcall, hauth⟩
  | governanceSet caller hauth hadmin _ _ => exact .inl ⟨caller, hadmin, hauth⟩
  | roleAssigned caller _ _ _ hauth hadmin _ _ => exact .inl ⟨caller, hadmin, hauth⟩

/-- A new admin comes from an `assign_role` by the stored admin or an `initialize`. -/
theorem admin_from (he : exec s i = .ok s') {a : Address} (ha : s'.role.get a = some .admin) :
    s.role.get a = some .admin ∨
      (∃ caller, i.call = .assignRole caller a .admin ∧ s.admin = some caller ∧
        caller ∈ i.env.auths) ∨
      ∃ governance, i.call = .initializeContract a governance ∧ a ∈ i.env.auths := by
  cases authority_effect he with
  | kept h =>
    rw [h.role] at ha
    exact .inl ha
  | initialised admin governance hcall hauth _ hrole =>
    rw [hrole, Table.get_set] at ha
    split at ha
    · next heq =>
      subst heq
      exact .inr (.inr ⟨governance, hcall, hauth⟩)
    · exact .inl ha
  | governanceSet _ _ _ _ hrole =>
    rw [hrole] at ha
    exact .inl ha
  | roleAssigned caller target role hcall hauth hadmin _ hrole =>
    rw [hrole, Table.get_set] at ha
    split at ha
    · next heq =>
      subst heq
      cases ha
      exact .inr (.inl ⟨caller, hcall, hadmin, hauth⟩)
    · exact .inl ha

/-- Whoever authorises an `initialize` for itself becomes the admin. -/
theorem initialize_effect {admin governance : Address}
    (hcall : i.call = .initializeContract admin governance) (hauth : admin ∈ i.env.auths) :
    ∃ s', exec s i = .ok s' ∧ s'.admin = some admin ∧ s'.role.get admin = some .admin := by
  have hok : exec s i = .ok { s with
      admin := some admin
      governance := some governance
      role := s.role.set admin .admin
      currentVersion := some (.lit 1)
      migratedVersion := some (.lit 1) } := by
    rw [exec, hcall]
    exact initializeContract_ok.mpr ⟨hauth, rfl⟩
  exact ⟨_, hok, rfl, Table.get_set_self _ _ _⟩

/-- There is always an admin. -/
theorem admin_step (he : exec s i = .ok s') (h : ∃ admin, s.admin = some admin) :
    ∃ admin, s'.admin = some admin := by
  cases authority_effect he with
  | kept hsame =>
    rw [hsame.admin]
    exact h
  | initialised admin _ _ _ hadmin' _ => exact ⟨admin, hadmin'⟩
  | governanceSet _ _ _ hadmin' _ =>
    rw [hadmin']
    exact h
  | roleAssigned _ _ _ _ _ _ hadmin' _ =>
    rw [hadmin']
    exact h

end Steps

/-! ## Runs -/

section Runs

variable {admin governance : Address} {s₀ : Storage Address}

theorem Initialised.start (h : Initialised admin governance s₀) :
    s₀.admin = some admin ∧ ∀ a, s₀.role.get a = some .admin → a = admin := by
  obtain ⟨env, wasm, hc⟩ := h
  obtain ⟨_, rfl⟩ := initializeContract_ok.mp hc
  refine ⟨rfl, fun a ha => ?_⟩
  have hset : ((∅ : Table Address Role).set admin .admin).get a = some .admin := ha
  rw [Table.get_set] at hset
  split at hset
  · next heq => exact heq
  · exact absurd hset Table.get_empty_ne_some

theorem admin_after (h : Initialised admin governance s₀) (past : List (Input Address)) :
    ∃ admin', (after exec s₀ past).admin = some admin' :=
  after_invariant ⟨admin, h.start.1⟩ (fun _ _ _ hs he => admin_step he hs) past

/-- With legitimate calls only, whoever is an admin is entitled. -/
theorem entitled_after (h : Initialised admin governance s₀) (past : List (Input Address))
    (hlegit : Guarded (Legitimate s₀ admin) past) :
    ∀ a, (after exec s₀ past).role.get a = some .admin → Entitled s₀ admin past a := by
  refine after_history_guarded
    (P := fun past (s : Storage Address) =>
      ∀ a, s.role.get a = some Role.admin → Entitled s₀ admin past a)
    (fun a ha => .inl (h.start.2 a ha)) ?_ ?_ past hlegit
  · rintro past i s s' _ hi rfl hp he a ha
    rcases admin_from he ha with hold | ⟨caller, hcall, hadmin, hauth⟩ | ⟨governance', hcall, hauth⟩
    · exact (hp a hold).imp id (.cons i)
    · exact .inr (.head ⟨caller, hcall, hadmin, hauth⟩)
    · exact (hi a governance' hcall hauth).2.imp id (.cons i)
  · rintro past i s t _ _ rfl hp _ a ha
    exact (hp a ha).imp id (.cons i)

/-- The stored admin is in charge of a run, and every admin entitled, exactly if each
`initialize` in it is legitimate. -/
theorem authority_kept_iff (h : Initialised admin governance s₀) (past : List (Input Address)) :
    ((∀ i earlier, i :: earlier <:+ past →
        AuthorityChanged (after exec s₀ earlier) (after exec s₀ (i :: earlier)) →
        ByStoredAdmin (after exec s₀ earlier) i) ∧
      ∀ earlier a, earlier <:+ past → hasRole (after exec s₀ earlier) a .admin = true →
        Entitled s₀ admin earlier a) ↔
      Guarded (Legitimate s₀ admin) past := by
  constructor
  · rintro ⟨hchanges, hroles⟩
    refine guarded_iff.mpr fun i earlier hs admin' governance' hcall hauth => ?_
    obtain ⟨s', he, hadmin', hrole'⟩ := initialize_effect (s := after exec s₀ earlier) hcall hauth
    refine ⟨?_, ?_⟩
    · obtain ⟨stored, hstored⟩ := admin_after h earlier
      by_cases hsame : stored = admin'
      · exact ⟨stored, hstored, hsame ▸ hauth⟩
      · refine hchanges i earlier hs (.inl ?_)
        rw [after, apply_ok he, hadmin', hstored]
        intro heq
        cases heq
        exact hsame rfl
    · have hrole : hasRole (after exec s₀ (i :: earlier)) admin' .admin = true := by
        rw [hasRole_iff, after, apply_ok he, hrole']
      refine (hroles (i :: earlier) admin' hs hrole).imp id fun ho => ?_
      rcases occurs_cons_iff.mp ho with ⟨caller, hassign, _⟩ | ho
      · rw [hcall] at hassign
        cases hassign
      · exact ho
  · intro hlegit
    refine ⟨?_, ?_⟩
    · intro i earlier hs hchanged
      cases he : exec (after exec s₀ earlier) i with
      | ok s' =>
        rw [after, apply_ok he] at hchanged
        rcases changed_by_admin he hchanged with hby | ⟨admin', governance', hcall, hauth⟩
        · exact hby
        · exact ((hlegit.suffix hs).1 admin' governance' hcall hauth).1
      | error t =>
        rw [after, apply_error he] at hchanged
        exact absurd hchanged (SameAuthority.not_changed ⟨rfl, rfl, rfl⟩)
    · intro earlier a hs hrole
      exact entitled_after h earlier (hlegit.of_suffix hs) a (hasRole_iff.mp hrole)

/-- Contract 1 makes contract 7 an admin and lets it initialise the contract anew. -/
def exampleHandover : List (Input Nat) :=
  [exampleInput [1, 7] (.initializeContract 7 5), exampleInput [1] (.assignRole 1 7 .admin)]

theorem authority_kept_iff_handover :
    hasRole (after exec exampleShared exampleHandover) 7 .admin = true ∧
      Entitled exampleShared 1 exampleHandover 7 := by
  have hrole : hasRole (after exec exampleShared exampleHandover) 7 .admin = true := by
    decide +kernel
  have hlegit : Guarded (Legitimate exampleShared 1) exampleHandover := by
    refine ⟨?_, ?_, trivial⟩
    · intro admin' governance' hcall _
      cases hcall
      exact ⟨⟨1, by decide +kernel, by decide⟩, .inr (.head ⟨1, rfl, by decide +kernel, by decide⟩)⟩
    · intro admin' governance' hcall
      cases hcall
  have hkept := (authority_kept_iff exampleShared_initialised exampleHandover).mpr hlegit
  exact ⟨hrole, hkept.2 exampleHandover 7 (List.suffix_refl _) hrole⟩

/-- Contract 7, which has no role, calls `initialize` for itself. -/
def exampleTakeover : Input Nat := exampleInput [7] (.initializeContract 7 7)

/-- It becomes the admin, without contract 1 having authorised anything. -/
theorem stranger_initializes :
    Initialised 1 5 exampleShared ∧
    AuthorityChanged (after exec exampleShared []) (after exec exampleShared [exampleTakeover]) ∧
    ¬ ByStoredAdmin (after exec exampleShared []) exampleTakeover ∧
    hasRole (after exec exampleShared [exampleTakeover]) 7 .admin = true ∧
    ¬ Entitled exampleShared 1 [exampleTakeover] 7 := by
  refine ⟨exampleShared_initialised, .inl (by decide +kernel), ?_, by decide +kernel, ?_⟩
  · rintro ⟨admin, hadmin, hauth⟩
    cases hadmin
    exact absurd hauth (by decide)
  · rintro (heq | ho)
    · exact absurd heq (by decide)
    · rcases occurs_cons_iff.mp ho with ⟨caller, hcall, _⟩ | ⟨_, _, hs, _⟩
      · cases hcall
      · exact absurd (List.suffix_nil.mp hs) (List.cons_ne_nil _ _)

end Runs

end Scoopdope.Shared
