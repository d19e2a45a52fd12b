import Mathlib.Data.List.Perm.Subperm
import Scoopdope.Credentials.Stages

/-!
# Credentials: issued once

The credential of a user for a course should be issued on the chain once, with one reward of 100
BST. `issue` looks the credential up before it does either, and inserts the row after both: two
callers that have both found nothing both issue, and so does a caller after one whose insertion
failed.

`credentials_issued_once_iff`: at most one credential is issued and at most one reward is minted,
exactly when each request that issues has looked the credential up while the row of every
credential issued so far was stored, and nobody has issued since. Nobody is rewarded without having
issued, nor twice (`Inv`). `credential_issued_twice` is one run of each kind with two of both.
-/

namespace Scoopdope.Credentials

open Async Database Server Learning Soroban

/-! ## Issuances and rewards -/

/-- `findOne` of `issue`, for the user and the course. -/
def looksUp (userId courseId : String) : Request → Bool
  | .query (.findOne .credential condition) => condition = .course userId courseId
  | _ => false

/-- The credential of a course, and not of a bundle. -/
def issues : ChainCall → Bool
  | .issueCredential _ _ metadata => metadata.isSome
  | _ => false

def rewards : ChainCall → Bool
  | .mintReward _ amount => amount = 100
  | _ => false

variable (userId courseId : String)

section Runs

variable {R : Type} [DecidableEq R] (s : State) (past : List (CallEvent Call R))
  (i : CallEvent Call R)

/-- What is reached by a schedule, newest event first. -/
abbrev reached : CallPool Unit Call R := Learning.reached Call.start s past

/-- The request that looks the credential up. -/
def lookupAt : Option R :=
  match (reached s past).performs i with
  | some (r, _, _, q) => if looksUp userId courseId q then some r else none
  | none => none

/-- The requests that have looked the credential up. -/
def lookups : List R := effects (lookupAt userId courseId s) past

/-- The request that issues the credential, with the transaction hash. -/
def issuedAt : Option (R × String) :=
  match succeeded (reached s past) i with
  | some (r, call, txHash) =>
    -- The call names a key and a course: the lookup tells the user.
    if issues call ∧ r ∈ lookups userId courseId s past then some (r, txHash) else none
  | none => none

/-- The credentials that are issued for the user and the course, newest first. -/
def issuances : List (R × String) := effects (issuedAt userId courseId s) past

/-- The request that mints the reward. -/
def rewardedAt : Option R :=
  match succeeded (reached s past) i with
  | some (r, call, _) =>
    if rewards call ∧ r ∈ lookups userId courseId s past then some r else none
  | none => none

/-- The rewards of 100 BST that are minted for the user and the course, newest first. -/
def rewarded : List R := effects (rewardedAt userId courseId s) past

def stages : R → Stage := protocol.stages (system Call.start) .beginning s past

def IssuedOnce : Prop :=
  (issuances userId courseId s past).length ≤ 1 ∧ (rewarded userId courseId s past).length ≤ 1

/-- A credential of the user for the course is stored. -/
def IsStored (s : State) : Prop :=
  ∃ credential ∈ s.tables .credential,
    credential.data.userId = userId ∧ credential.data.courseId = some courseId

/-- The request that issues has looked the credential up after `before`. -/
def Looked (before : List (CallEvent Call R)) : Prop :=
  ∃ r txHash j, issuedAt userId courseId s past i = some (r, txHash) ∧ j :: before <:+ past ∧
    lookupAt userId courseId s before j = some r

/-- Whoever issues has looked the credential up when one was stored for what was issued so far,
and nobody has issued since. -/
def LookedInTime : Prop :=
  InTime (issuedAt userId courseId s) (Looked userId courseId s)
    (fun before => IsStored userId courseId (reached s before).shared) past i

end Runs

variable {userId courseId} {R : Type} [DecidableEq R] {s : State}
  {past : List (CallEvent Call R)} {i : CallEvent Call R} {r : R}

theorem lookupAt_some :
    lookupAt userId courseId s past i = some r ↔
      ∃ around call q, (reached s past).performs i = some (r, around, call, q) ∧
        looksUp userId courseId q = true := by
  unfold lookupAt
  cases (reached s past).performs i with
  | none => simp
  | some moved =>
    obtain ⟨r', around, call, q⟩ := moved
    simp only [Option.ite_none_right_eq_some, Option.some.injEq, Prod.mk.injEq]
    constructor
    · rintro ⟨hlooks, rfl⟩
      exact ⟨around, call, q, ⟨rfl, rfl, rfl, rfl⟩, hlooks⟩
    · rintro ⟨_, _, _, ⟨rfl, rfl, rfl, rfl⟩, hlooks⟩
      exact ⟨hlooks, rfl⟩

theorem issuedAt_some {txHash : String} :
    issuedAt userId courseId s past i = some (r, txHash) ↔
      ∃ call, succeeded (reached s past) i = some (r, call, txHash) ∧ issues call = true ∧
        r ∈ lookups userId courseId s past := by
  unfold issuedAt
  cases succeeded (reached s past) i with
  | none => simp
  | some written =>
    obtain ⟨r', call, txHash'⟩ := written
    simp only [Option.ite_none_right_eq_some, Option.some.injEq, Prod.mk.injEq]
    constructor
    · rintro ⟨⟨hissues, hlooked⟩, rfl, rfl⟩
      exact ⟨call, ⟨rfl, rfl, rfl⟩, hissues, hlooked⟩
    · rintro ⟨_, ⟨rfl, rfl, rfl⟩, hissues, hlooked⟩
      exact ⟨⟨hissues, hlooked⟩, rfl, rfl⟩

theorem rewardedAt_some :
    rewardedAt userId courseId s past i = some r ↔
      ∃ call txHash, succeeded (reached s past) i = some (r, call, txHash) ∧
        rewards call = true ∧ r ∈ lookups userId courseId s past := by
  unfold rewardedAt
  cases succeeded (reached s past) i with
  | none => simp
  | some written =>
    obtain ⟨r', call, txHash⟩ := written
    simp only [Option.ite_none_right_eq_some, Option.some.injEq, Prod.mk.injEq]
    constructor
    · rintro ⟨⟨hrewards, hlooked⟩, rfl⟩
      exact ⟨call, txHash, ⟨rfl, rfl, rfl⟩, hrewards, hlooked⟩
    · rintro ⟨_, _, ⟨rfl, rfl, rfl⟩, hrewards, hlooked⟩
      exact ⟨⟨hrewards, hlooked⟩, rfl⟩

theorem looksUp_harmless {q : Request} (h : Harmless q) : looksUp userId courseId q = false := by
  unfold looksUp
  split
  · next condition =>
    cases condition with
    | course u c => exact h.elim
    | bundle u b => rfl
  · rfl

theorem issues_harmless {c : ChainCall} (h : Harmless (.stellar c)) : issues c = false := by
  cases c with
  | issueCredential key courseId metadata => exact congrArg Option.isSome h
  | _ => rfl

theorem rewards_harmless {c : ChainCall} (h : Harmless (.stellar c)) : rewards c = false := by
  cases c with
  | mintReward key amount => exact decide_eq_false h
  | _ => rfl

/-! ## What is known along a schedule -/

variable (userId courseId s past r) in
/-- What a request in this stage may rely on. -/
def Knows : Stage → Prop
  | .beginning => r ∉ lookups userId courseId s past ∧ r ∉ rewarded userId courseId s past
  | .checked u c =>
    (r ∈ lookups userId courseId s past → u = userId ∧ c = courseId) ∧
      r ∉ rewarded userId courseId s past
  | .issued =>
    (r ∈ lookups userId courseId s past →
        ∃ txHash, (r, txHash) ∈ issuances userId courseId s past) ∧
      r ∉ rewarded userId courseId s past
  | .rewarded => True
  | .finished => True

variable (userId courseId s past) in
structure Inv : Prop where
  once : (rewarded userId courseId s past).Nodup
  issued : ∀ r ∈ rewarded userId courseId s past,
    ∃ txHash, (r, txHash) ∈ issuances userId courseId s past
  stages : ∀ r, Knows userId courseId s past r (stages s past r)

/-! ### What an event does -/

section Moves

variable {r' : R} {around : Surroundings} {call : Call} {q : Request} {c : ChainCall}
  (hperforms : (reached s past).performs i = some (r, around, call, q))

include hperforms in
theorem succeeded_performs {txHash : String}
    (h : succeeded (reached s past) i = some (r', c, txHash)) : r' = r ∧ q = .stellar c := by
  obtain ⟨around', call', hperforms', -, -⟩ := succeeded_some.mp h
  cases hperforms.symm.trans hperforms'
  exact ⟨rfl, rfl⟩

include hperforms in
theorem mem_lookups_cons :
    r' ∈ lookups userId courseId s (i :: past) ↔
      r' = r ∧ looksUp userId courseId q = true ∨ r' ∈ lookups userId courseId s past := by
  unfold lookups
  rw [mem_effects_cons, lookupAt_some, hperforms]
  refine or_congr_left ⟨?_, ?_⟩
  · rintro ⟨_, _, _, heq, hlooks⟩
    cases heq
    exact ⟨rfl, hlooks⟩
  · rintro ⟨rfl, hlooks⟩
    exact ⟨_, _, _, rfl, hlooks⟩

include hperforms in
/-- Only the request that moves is rewarded. -/
theorem mem_rewarded_cons (h : r' ∈ rewarded userId courseId s (i :: past)) :
    (r' = r ∧ ∃ c, q = .stellar c ∧ rewards c = true) ∨ r' ∈ rewarded userId courseId s past := by
  rcases mem_effects_cons.mp h with hnew | hold
  · obtain ⟨c, txHash, hsucceeded, hrewards, -⟩ := rewardedAt_some.mp hnew
    obtain ⟨hr, hq⟩ := succeeded_performs hperforms hsucceeded
    exact .inl ⟨hr, c, hq, hrewards⟩
  · exact .inr hold

theorem issuances_subset :
    issuances userId courseId s past ⊆ issuances userId courseId s (i :: past) :=
  (effects_suffix (List.suffix_cons i past)).subset

include hperforms in
/-- What a request knows when another one moves. -/
theorem knows_other (hother : r' ≠ r) {stage : Stage}
    (h : Knows userId courseId s past r' stage) : Knows userId courseId s (i :: past) r' stage := by
  have hlookups : r' ∈ lookups userId courseId s (i :: past) →
      r' ∈ lookups userId courseId s past := by
    rw [mem_lookups_cons hperforms]
    rintro (⟨hsame, -⟩ | hold)
    · exact absurd hsame hother
    · exact hold
  have hrewarded : r' ∈ rewarded userId courseId s (i :: past) →
      r' ∈ rewarded userId courseId s past := by
    intro hmem
    rcases mem_rewarded_cons hperforms hmem with ⟨hsame, -⟩ | hold
    · exact absurd hsame hother
    · exact hold
  cases stage with
  | beginning => exact ⟨mt hlookups h.1, mt hrewarded h.2⟩
  | checked u c => exact ⟨fun hlooked => h.1 (hlookups hlooked), mt hrewarded h.2⟩
  | issued =>
    refine ⟨fun hlooked => ?_, mt hrewarded h.2⟩
    obtain ⟨txHash, hissued⟩ := h.1 (hlookups hlooked)
    exact ⟨txHash, issuances_subset hissued⟩
  | rewarded => trivial
  | finished => trivial

include hperforms in
/-- What the request that moves knows in its next stage. -/
theorem knows_next {stage : Stage} (hallows : stage.Allows q)
    (h : Knows userId courseId s past r stage) :
    Knows userId courseId s (i :: past) r
      (stage.next q (handle around (reached s past).shared q).1) := by
  have hrewarded (hq : ∀ c, q = .stellar c → rewards c = false) :
      r ∈ rewarded userId courseId s (i :: past) → r ∈ rewarded userId courseId s past := by
    intro hmem
    rcases mem_rewarded_cons hperforms hmem with ⟨-, c, hc, hrewards⟩ | hold
    · rw [hq c hc] at hrewards
      cases hrewards
    · exact hold
  have hlookups (hq : looksUp userId courseId q = false) :
      r ∈ lookups userId courseId s (i :: past) → r ∈ lookups userId courseId s past := by
    rw [mem_lookups_cons hperforms, hq]
    simp
  have hharmless (hq : Harmless q) (c : ChainCall) (hc : q = .stellar c) : rewards c = false :=
    rewards_harmless (hc ▸ hq)
  cases stage with
  | beginning =>
    rcases hallows with hq | ⟨u, c, rfl⟩
    · rw [(next_harmless .beginning ⟨nofun, nofun⟩ hq).2]
      exact ⟨mt (hlookups (looksUp_harmless hq)) h.1, mt (hrewarded (hharmless hq)) h.2⟩
    · rcases (handle around (reached s past).shared
        (.query (.findOne .credential (.course u c)))).1 with x | - | credential
      · trivial
      -- The request has looked nothing up before, so its lookup is this one.
      · refine ⟨fun hmem => ?_, mt (hrewarded nofun) h.2⟩
        rcases (mem_lookups_cons hperforms).mp hmem with ⟨-, hlooks⟩ | hold
        · simpa [looksUp] using hlooks
        · exact absurd hold h.1
      · trivial
  | checked u c =>
    rcases hallows with hq | ⟨key, course, metadata, rfl⟩
    · rw [(next_harmless (.checked u c) ⟨nofun, nofun⟩ hq).2]
      exact ⟨fun hmem => h.1 (hlookups (looksUp_harmless hq) hmem),
        mt (hrewarded (hharmless hq)) h.2⟩
    · rcases hanswer : (handle around (reached s past).shared
        (.stellar (.issueCredential key course (some metadata)))).1 with x | txHash
      · trivial
      · obtain ⟨hfails, rfl⟩ := stellar_answered hanswer
        have hsucceeded := succeeded_some.mpr ⟨around, call, hperforms, hfails, rfl⟩
        refine ⟨fun hmem => ?_, mt (hrewarded ?_) h.2⟩
        · have hissued := issuedAt_some.mpr ⟨_, hsucceeded, rfl, hlookups rfl hmem⟩
          exact ⟨_, mem_effects_cons.mpr (.inl hissued)⟩
        · rintro c ⟨⟩
          rfl
  | issued => trivial
  | rewarded => trivial
  | finished =>
    rw [(next_harmless .finished ⟨nofun, nofun⟩ hallows).2]
    trivial

end Moves

/-- Who mints the reward has issued. -/
theorem Stage.Allows.rewards {stage : Stage} {c : ChainCall} (h : stage.Allows (.stellar c))
    (hrewards : rewards c = true) : stage = .issued := by
  have hharmless (hc : Harmless (.stellar c)) : False := by
    rw [rewards_harmless hc] at hrewards
    cases hrewards
  cases stage with
  | beginning =>
    rcases h with hc | ⟨_, _, hq⟩
    · exact (hharmless hc).elim
    · cases hq
  | checked u course =>
    rcases h with hc | ⟨_, _, _, hq⟩
    · exact (hharmless hc).elim
    · cases hq
      cases hrewards
  | issued => rfl
  | rewarded =>
    obtain ⟨_, hq⟩ := h
    cases hq
  | finished => exact (hharmless h).elim

/-- Who issues has looked a credential up. -/
theorem Stage.Allows.issues {stage : Stage} {c : ChainCall} (h : stage.Allows (.stellar c))
    (hissues : issues c = true) : ∃ u course, stage = .checked u course := by
  have hharmless (hc : Harmless (.stellar c)) : False := by
    rw [issues_harmless hc] at hissues
    cases hissues
  cases stage with
  | beginning =>
    rcases h with hc | ⟨_, _, hq⟩
    · exact (hharmless hc).elim
    · cases hq
  | checked u course => exact ⟨u, course, rfl⟩
  | issued =>
    obtain ⟨_, hq⟩ := h
    cases hq
    cases hissues
  | rewarded =>
    obtain ⟨_, hq⟩ := h
    cases hq
  | finished => exact (hharmless h).elim

theorem allows_of_succeeded {c : ChainCall} {txHash : String}
    (h : succeeded (reached s past) i = some (r, c, txHash)) :
    (stages s past r).Allows (.stellar c) := by
  obtain ⟨around, call, hperforms, -, -⟩ := succeeded_some.mp h
  exact Protocol.allows_of_performs follows_start hperforms

/-- Where no request moves, all know what they knew. -/
theorem knows_idle (hperforms : (reached s past).performs i = none) :
    Knows userId courseId s (i :: past) = Knows userId courseId s past := by
  have hlookups : lookups userId courseId s (i :: past) = lookups userId courseId s past :=
    effects_of_none (by rw [lookupAt, hperforms])
  have hissuances : issuances userId courseId s (i :: past) = issuances userId courseId s past :=
    effects_of_none (by rw [issuedAt, succeeded, hperforms])
  have hrewarded : rewarded userId courseId s (i :: past) = rewarded userId courseId s past :=
    effects_of_none (by rw [rewardedAt, succeeded, hperforms])
  funext r stage
  cases stage <;> simp only [Knows, hlookups, hissuances, hrewarded]

theorem knows_cons (hinv : Inv userId courseId s past) (r : R) :
    Knows userId courseId s (i :: past) r (stages s (i :: past) r) := by
  cases hperforms : (reached s past).performs i with
  | none =>
    have hstages : stages s (i :: past) = stages s past := Protocol.stages_of_none hperforms
    rw [hstages, knows_idle hperforms]
    exact hinv.stages r
  | some moved =>
    obtain ⟨r', around, call, q⟩ := moved
    have hallows : (stages s past r').Allows q :=
      Protocol.allows_of_performs follows_start hperforms
    have hstages : stages s (i :: past) = protocol.note (system Call.start) .beginning
        (reached s past) i (stages s past) := rfl
    rw [hstages, Protocol.note_performs hperforms, Function.update_apply]
    split
    · next hsame =>
      subst hsame
      exact knows_next hperforms hallows (hinv.stages r)
    · next hother => exact knows_other hperforms hother (hinv.stages r)

theorem rewarded_cons (hinv : Inv userId courseId s past) :
    (rewarded userId courseId s (i :: past)).Nodup ∧
      ∀ r ∈ rewarded userId courseId s (i :: past),
        ∃ txHash, (r, txHash) ∈ issuances userId courseId s (i :: past) := by
  have hold (r : R) (h : r ∈ rewarded userId courseId s past) :
      ∃ txHash, (r, txHash) ∈ issuances userId courseId s (i :: past) := by
    obtain ⟨txHash, hissued⟩ := hinv.issued r h
    exact ⟨txHash, issuances_subset hissued⟩
  cases hrewarded : rewardedAt userId courseId s past i with
  | none =>
    unfold rewarded
    rw [effects_of_none hrewarded]
    exact ⟨hinv.once, hold⟩
  | some r =>
    obtain ⟨c, txHash, hsucceeded, hrewards, hlooked⟩ := rewardedAt_some.mp hrewarded
    have hknows := hinv.stages r
    -- A reward is minted right after the credential is issued, and never before.
    rw [(allows_of_succeeded hsucceeded).rewards hrewards] at hknows
    unfold rewarded
    rw [effects_of_some hrewarded]
    refine ⟨List.nodup_cons.mpr ⟨hknows.2, hinv.once⟩, fun r' hr' => ?_⟩
    rcases List.mem_cons.mp hr' with rfl | hr'
    · obtain ⟨txHash, hissued⟩ := hknows.1 hlooked
      exact ⟨txHash, issuances_subset hissued⟩
    · exact hold r' hr'

theorem inv_reached (past : List (CallEvent Call R)) : Inv userId courseId s past := by
  induction past with
  | nil => exact ⟨.nil, nofun, fun _ => ⟨nofun, nofun⟩⟩
  | cons i past ih =>
    obtain ⟨honce, hissued⟩ := rewarded_cons (i := i) ih
    exact ⟨honce, hissued, knows_cons ih⟩

/-! ## Who has looked -/

variable (userId courseId) in
/-- The credential is looked up, and none is found. -/
def FoundNone : (q : Request) → Except HttpException q.value → Prop
  | .query (.findOne .credential condition), answer =>
    condition = .course userId courseId ∧ answer = .ok none
  | _, _ => False

theorem foundNone_of_next {stage : Stage} {q : Request} {answer : Except HttpException q.value}
    (hallows : stage.Allows q) (h : stage.next q answer = .checked userId courseId) :
    stage = .checked userId courseId ∨ FoundNone userId courseId q answer := by
  cases stage with
  | beginning =>
    rcases hallows with hq | ⟨u, c, rfl⟩
    · rw [(next_harmless .beginning ⟨nofun, nofun⟩ hq).2] at h
      cases h
    · rcases answer with x | - | credential
      · cases h
      · cases h
        exact .inr ⟨rfl, rfl⟩
      · cases h
  | checked u c =>
    rcases hallows with hq | ⟨key, course, metadata, rfl⟩
    · rw [(next_harmless (.checked u c) ⟨nofun, nofun⟩ hq).2] at h
      exact .inl h
    · cases answer <;> cases h
  | issued => cases h
  | rewarded => cases h
  | finished =>
    rw [(next_harmless .finished ⟨nofun, nofun⟩ hallows).2] at h
    cases h

/-- Where a lookup finds none, none is stored. -/
theorem none_stored {around : Surroundings} {shared : State}
    (h : (handle around shared (.query (.findOne .credential (.course userId courseId)))).1 =
      .ok none) : ¬ IsStored userId courseId shared := by
  rintro ⟨credential, hmem, huser, hcourse⟩
  have hholds := holds_of_found_none h hmem
  simp [Entity.holds, huser, hcourse] at hholds

/-- Who issues has looked the credential up, at a time when none was stored. -/
theorem looked_of_issuedAt {issued : R × String}
    (h : issuedAt userId courseId s past i = some issued) :
    ∃ before, Looked userId courseId s past i before ∧
      ¬ IsStored userId courseId (reached s before).shared := by
  obtain ⟨r, txHash⟩ := issued
  obtain ⟨c, hsucceeded, hissues, hlooked⟩ := issuedAt_some.mp h
  obtain ⟨u, course, hstage⟩ := (allows_of_succeeded hsucceeded).issues hissues
  have hinv : Inv userId courseId s past := inv_reached past
  have hknows := hinv.stages r
  rw [hstage] at hknows
  obtain ⟨rfl, rfl⟩ := hknows.1 hlooked
  have hstart : Stage.beginning ≠ .checked u course := nofun
  have hanswered : Occurs (Protocol.Answered (system Call.start) s (FoundNone u course) r) past :=
    Protocol.occurs_of_stages (P := protocol) (Q := fun stage => stage = .checked u course)
      follows_start hstart (fun _ _ _ => foundNone_of_next) hstage
  obtain ⟨j, before, hbefore, around, call, q, hlookup, hnone⟩ := hanswered
  unfold FoundNone at hnone
  split at hnone
  · obtain ⟨rfl, hanswer⟩ := hnone
    refine ⟨before, ⟨r, txHash, j, h, hbefore, ?_⟩, none_stored hanswer⟩
    exact lookupAt_some.mpr ⟨around, call, _, hlookup, by simp [looksUp]⟩
  · exact hnone.elim

theorem suffix_of_looked {before : List (CallEvent Call R)}
    (h : Looked userId courseId s past i before) : before <:+ past := by
  obtain ⟨_, _, j, _, hbefore, _⟩ := h
  exact (List.suffix_cons j before).trans hbefore

/-! ## When a credential is issued once -/

/-- Nobody is rewarded who has not issued, nor twice. -/
theorem rewarded_le_issuances (past : List (CallEvent Call R)) :
    (rewarded userId courseId s past).length ≤ (issuances userId courseId s past).length := by
  have hinv : Inv userId courseId s past := inv_reached past
  have hsubset : rewarded userId courseId s past ⊆
      (issuances userId courseId s past).map Prod.fst := by
    intro r hr
    obtain ⟨txHash, hissued⟩ := hinv.issued r hr
    exact List.mem_map.mpr ⟨_, hissued, rfl⟩
  simpa using (List.subperm_of_subset hinv.once hsubset).length_le

/-- In every run of `record` and of the indexer's handler, whatever fails, at most one credential is
issued for the user and the course and at most one reward is minted, exactly when every request
that issues has looked the credential up in time. -/
theorem credentials_issued_once_iff (userId courseId : String) (s : State)
    (schedule : List (CallEvent Call R)) :
    (∀ earlier, earlier <:+ schedule → IssuedOnce userId courseId s earlier) ↔
      Guarded (LookedInTime userId courseId s) schedule := by
  have honce : (∀ earlier, earlier <:+ schedule →
      (issuances userId courseId s earlier).length ≤ 1) ↔
        Guarded (LookedInTime userId courseId s) schedule :=
    at_most_once_iff (fun _ _ _ => suffix_of_looked) (fun _ _ _ => looked_of_issuedAt) schedule
  refine Iff.trans (forall₂_congr fun earlier _ => ?_) honce
  exact and_iff_left_of_imp fun hissuances => (rewarded_le_issuances earlier).trans hissuances

/-! ## Two issuers -/

section Example

/-- Keys and hashes of their own for each request. -/
def exampleAround (name : String) (fails : Request → Option HttpException) : Surroundings where
  now := 0
  key := fun _ _ => "k" ++ name
  hash := fun _ => "tx" ++ name
  fails := fails

/-- The next requests of a call, none of which fails. -/
def exampleSound (r : String) (requests : Nat) : List (CallEvent Call String) :=
  List.replicate requests (.resume r (exampleAround r fun _ => none))

/-- The insertion of a credential fails. -/
def exampleUnsaved (r : String) : CallEvent Call String :=
  .resume r (exampleAround r fun q => match q with
    | .query (.insert .credential _) => some (.internal "connection lost")
    | _ => none)

/-- Progress of 100 percent. -/
def exampleRecord : CallEvent Call String :=
  .call "1" (exampleAround "1" fun _ => none) (.record "u1" ⟨"c1", none, 100⟩ "G1")

/-- The event that the analytics contract has emitted for it. -/
def exampleEvent : CallEvent Call String :=
  .call "2" (exampleAround "2" fun _ => none) (.handleAnalyticsCompleted "G1" "c1")

/-- A user with a key and a course without a KYC gate. -/
def exampleCourse : State :=
  { State.empty with
    users := Repository.empty.save
      (spread (Users.User.default "u1" 0) (Patch.empty.set .stellarPublicKey (some "G1"))) }
    |>.put .course (Repository.empty.save ⟨"c1", 0, 0, {
      title := "Rust", status := .published, isPublished := true, isDeleted := false
      requiresKyc := false, skills := none, maxEnrollment := none }⟩)

/-- `record` inserts no row, and the event is handled afterwards. Newest event first. -/
def exampleReplayed : List (CallEvent Call String) :=
  exampleSound "2" 6 ++ exampleEvent :: exampleUnsaved "1" :: exampleSound "1" 10 ++ [exampleRecord]

/-- The event is handled while `record` awaits the course. Nothing fails. -/
def exampleRacing : List (CallEvent Call String) :=
  exampleSound "1" 4 ++ exampleSound "2" 6 ++ exampleEvent :: exampleSound "1" 7 ++ [exampleRecord]

end Example

/-- In both runs two credentials are issued and two rewards are minted. -/
theorem credential_issued_twice :
    issuances "u1" "c1" exampleCourse exampleReplayed = [("2", "tx2"), ("1", "tx1")] ∧
      rewarded "u1" "c1" exampleCourse exampleReplayed = ["2", "1"] ∧
      ¬ IssuedOnce "u1" "c1" exampleCourse exampleReplayed ∧
      issuances "u1" "c1" exampleCourse exampleRacing = [("1", "tx1"), ("2", "tx2")] ∧
      rewarded "u1" "c1" exampleCourse exampleRacing = ["1", "2"] ∧
      ¬ IssuedOnce "u1" "c1" exampleCourse exampleRacing := by
  have hreplayed : issuances "u1" "c1" exampleCourse exampleReplayed =
      [("2", "tx2"), ("1", "tx1")] := by decide +kernel
  have hracing : issuances "u1" "c1" exampleCourse exampleRacing =
      [("1", "tx1"), ("2", "tx2")] := by decide +kernel
  refine ⟨hreplayed, by decide +kernel, fun h => ?_, hracing, by decide +kernel, fun h => ?_⟩
  · have honce := h.1
    rw [hreplayed] at honce
    exact absurd honce (by decide)
  · have honce := h.1
    rw [hracing] at honce
    exact absurd honce (by decide)

end Scoopdope.Credentials
