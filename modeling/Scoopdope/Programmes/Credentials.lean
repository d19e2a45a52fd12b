import Scoopdope.Programmes.Completions
import Scoopdope.Progress.Recording

/-!
# Programmes: the credentials of completed programmes

What the statements of `BundlesService` and `LearningPathsService` come to in a check
(`BundlesService.lawful`, `LearningPathsService.lawful`), and from that what holds of their runs.

`updateProgress_eq`: the check of `BundlesService` is the method that `ProgressService` calls.
`programmes_credited_iff`: `credited_throughout` of both services.
-/

namespace Scoopdope.Programmes

open Async Database Server Learning Soroban

/-! ## The statements of the services -/

/-- A reward changes neither tables nor users. -/
theorem run_tryReward (around : Surroundings) (s : Learning.State) (key : String) (amount : Nat) :
    ∃ s', (Streaks.tryReward key amount).run handle around s = (.ok (), s') ∧
      s'.tables = s.tables ∧ s'.users = s.users := by
  obtain ⟨s', hrun⟩ : ∃ s', (Streaks.tryReward key amount).run handle around s = (.ok (), s') :=
    Progress.tryReward_ok
  have htables : ((Streaks.tryReward key amount).run handle around s).2.tables = s.tables :=
    run_spares_all fun _ => Progress.only_tryReward trivial
  have husers := Progress.run_users around s (p := Streaks.tryReward key amount)
    (Progress.only_tryReward nofun)
  rw [hrun] at htables husers
  exact ⟨s', hrun, htables, husers⟩

/-- What is made of rows that are found has different keys if it keeps them. -/
theorem pairwise_found {R B : Type} {key : R → String} (t : Repository key) (p : R → Bool)
    {f : R → Option B} {key' : B → String} (hf : ∀ row b, f row = some b → key' b = key row) :
    ((t.find p).filterMap f).Pairwise fun b b' => key' b ≠ key' b' := by
  refine (List.pairwise_map.mp (Repository.nodup_find_keys (t := t) (p := p))).filterMap f ?_
  intro row row' hne b hb b' hb'
  rw [hf row b hb, hf row' b' hb']
  exact hne

section Reading

variable {A : Type}

theorem readsTo_findById {around : Surroundings} (userId : String) :
    ReadsTo (perform around (request (.findUser (.id userId))))
      (around.fails (.findUser (.id userId)) = none) fun s => s.users.get userId := by
  intro s
  dsimp only
  rw [← Progress.findUser_eq]
  exact readsTo_request around (q := .findUser (.id userId)) trivial s

theorem readsTo_learnPath {around : PathSurroundings} {m : Method A} {passes : Prop}
    {value : Learning.State → A} (h : ReadsTo (perform around.learning m) passes value) :
    ReadsTo (learnPath around m) passes fun s => value s.learning := by
  intro s
  have hlearn : learnPath around m s =
      ((perform around.learning m s.learning).1,
        { s with learning := (perform around.learning m s.learning).2 }) := rfl
  rw [hlearn]
  rcases h s.learning with ⟨hpasses, hrun⟩ | ⟨hnot, x, hrun⟩
  · rw [hrun]
    exact .inl ⟨hpasses, rfl⟩
  · rw [hrun]
    exact .inr ⟨hnot, x, rfl⟩

end Reading

/-! ## Bundles -/

namespace BundlesService

/-- The enrollment in a bundle. -/
def ofRow (row : schema.Row .bundleEnrollment) : ProgrammeEnrollment :=
  ⟨row.id, row.data.userId, row.data.bundleId, row.data.completedAt⟩

abbrev Row : Type := schema.Row .bundleEnrollment × Bundle

def passing (around : Surroundings) : Passing Learning.State Row where
  findUnfinished userId := around.fails (.findUnfinishedBundles userId) = none
  findByUser userId := around.fails (.query (.find .enrollment (.user userId))) = none
  save s e :=
    around.fails (.query (.save .bundleEnrollment (completed around e.1))) = none ∧
      Schema.conflicts (s.tables .bundleEnrollment)
        { completed around e.1 with updatedAt := around.now } = false
  findById userId := around.fails (.findUser (.id userId)) = none
  issue s userId e key :=
    let bundleId := e.1.data.bundleId
    let call := ChainCall.issueCredential key ("bundle:" ++ bundleId) none
    let credential := Credentials.ofBundle userId bundleId (around.hash call) key
    around.fails (.query (.findOne .credential (.bundle userId bundleId))) = none ∧
      ((∃ c ∈ s.tables .credential, c.data.userId = userId ∧ c.data.bundleId = some bundleId) ∨
        around.fails (.stellar call) = none ∧
          around.fails (.query (.insert .credential credential)) = none ∧
          (s.tables .credential).get (around.key .credential credential) = none)

def readings : Readings Learning.State Row where
  view s :=
    { enrollments := fun id => ((s.tables .bundleEnrollment).get id).map ofRow
      users := s.users
      credentials := { entry | ∃ c ∈ s.tables .credential,
        c.data.userId = entry.1 ∧ c.data.bundleId = some entry.2 } }
  enrollment e := ofRow e.1
  unfinished s userId :=
    ((s.tables .bundleEnrollment).find
      (schema.holds .bundleEnrollment (.unfinished userId))).filterMap (withBundle s.tables)
  userEnrollments := enrollmentsOf

variable {around : Surroundings} {s : Learning.State} {e : Row} {userId key : String}

theorem of_holds_bundle {c : schema.Row .credential} {bundleId : String} :
    schema.holds .credential (.bundle userId bundleId) c = true ↔
      c.data.userId = userId ∧ c.data.bundleId = some bundleId := by
  change (decide _ && decide _) = true ↔ _
  rw [Bool.and_eq_true, decide_eq_true_iff, decide_eq_true_iff]

theorem view_put_credential (credential : schema.Row .credential)
    (hfresh : (s.tables .credential).get credential.id = none)
    (hbundle : credential.data.bundleId = some e.1.data.bundleId)
    (huser : credential.data.userId = userId) :
    readings.view (s.put .credential ((s.tables .credential).save credential)) =
      (readings.view s).give userId e.1.data.bundleId := by
  refine View.ext ?_ rfl (Set.ext fun entry => ?_)
  · funext id
    change (((s.put .credential _).tables .bundleEnrollment).get id).map ofRow = _
    rw [State.put_tables_ne (show Entity.bundleEnrollment ≠ .credential from nofun)]
    rfl
  · obtain ⟨u, p⟩ := entry
    rw [View.mem_give]
    change (∃ c ∈ (s.put .credential _).tables .credential, c.data.userId = u ∧
      c.data.bundleId = some p) ↔ _
    rw [State.put_tables_self]
    constructor
    · rintro ⟨c, hc, huser', hbundle'⟩
      rcases Repository.mem_save.mp hc with rfl | ⟨hc, -⟩
      · exact .inr ⟨huser'.symm.trans huser, Option.some.inj (hbundle'.symm.trans hbundle)⟩
      · exact .inl ⟨c, hc, huser', hbundle'⟩
    · rintro (⟨c, hc, huser', hbundle'⟩ | ⟨rfl, rfl⟩)
      · refine ⟨c, Repository.mem_save.mpr (.inr ⟨hc, fun hid => ?_⟩), huser', hbundle'⟩
        rw [← hid] at hfresh
        cases hfresh.symm.trans hc
      · exact ⟨credential, Repository.mem_save.mpr (.inl rfl), huser, hbundle⟩

theorem view_put_enrollment :
    readings.view (s.put .bundleEnrollment ((s.tables .bundleEnrollment).save
      { completed around e.1 with updatedAt := around.now })) =
      (readings.view s).mark (readings.enrollment e) around.now := by
  refine View.ext (funext fun id => ?_) rfl ?_
  · change (((s.put .bundleEnrollment _).tables .bundleEnrollment).get id).map ofRow =
      ((readings.view s).mark (readings.enrollment e) around.now).enrollments id
    rw [State.put_tables_self, Repository.get_save]
    split
    next hid =>
      rw [hid]
      exact (View.mark_self (v := readings.view s) (e := readings.enrollment e)).symm
    next hid =>
      exact (View.mark_of_ne (v := readings.view s) (e := readings.enrollment e) hid).symm
  · change { entry | ∃ c ∈ (s.put .bundleEnrollment _).tables .credential, _ } = _
    rw [State.put_tables_ne (show Entity.credential ≠ .bundleEnrollment from nofun)]
    rfl

/-- `save` of a new credential. -/
theorem insert_credential_cases (around : Surroundings) (s : Learning.State)
    (data : Entity.Columns .credential) :
    ((around.fails (.query (.insert .credential data)) = none ∧
        (s.tables .credential).get (around.key .credential data) = none) ∧
      (Learning.insert .credential data).run handle around s =
        (.ok (Schema.inserted around.toGenerated data),
          s.put .credential ((s.tables .credential).save
            (Schema.inserted around.toGenerated data)))) ∨
    ¬ (around.fails (.query (.insert .credential data)) = none ∧
        (s.tables .credential).get (around.key .credential data) = none) ∧
      ∃ x, (Learning.insert .credential data).run handle around s = (.error x, s) := by
  rcases hrun : (Learning.insert .credential data).run handle around s with ⟨x | row, s'⟩
  · obtain rfl : s = s' := (insert_error hrun).symm
    refine .inr ⟨fun h => ?_, x, hrun⟩
    have hconflicts : Schema.conflicts (s.tables .credential)
        (Schema.inserted around.toGenerated data) = false :=
      conflicts_eq_false.mpr fun _ _ _ => rfl
    cases hrun.symm.trans (insert_ok.mpr ⟨h.1, rfl, h.2, hconflicts, rfl⟩)
  · obtain ⟨hpasses, rfl, hfresh, -, rfl⟩ := insert_ok.mp hrun
    exact .inl ⟨⟨hpasses, hfresh⟩, hrun⟩

/-- A credential that is not there is issued, or nothing but the chain is written. -/
theorem newCredential_cases (around : Surroundings) (s : Learning.State) (e : Row) (key : String)
    (call : ChainCall) (credential : String → Credential)
    (huser : ∀ txHash, (credential txHash).userId = userId)
    (hbundle : ∀ txHash, (credential txHash).bundleId = some e.1.data.bundleId) : ∃ s',
    ((around.fails (.stellar call) = none ∧
        around.fails (.query (.insert .credential (credential (around.hash call)))) = none ∧
        (s.tables .credential).get (around.key .credential (credential (around.hash call))) =
          none) ∧
      (∃ c, Process.run handle around s (stellar call >>= fun txHash =>
        Streaks.tryReward key 500 >>= fun _ => Learning.insert .credential (credential txHash)) =
          (.ok c, s')) ∧
      readings.view s' = (readings.view s).give userId e.1.data.bundleId) ∨
    ¬ (around.fails (.stellar call) = none ∧
        around.fails (.query (.insert .credential (credential (around.hash call)))) = none ∧
        (s.tables .credential).get (around.key .credential (credential (around.hash call))) =
          none) ∧
      (∃ x, Process.run handle around s (stellar call >>= fun txHash =>
        Streaks.tryReward key 500 >>= fun _ => Learning.insert .credential (credential txHash)) =
          (.error x, s')) ∧
      readings.view s' = readings.view s := by
  cases hcall : around.fails (.stellar call) with
  | some x =>
    rw [Process.run_bind_of_error (stellar_of_some hcall)]
    exact ⟨s, .inr ⟨nofun, ⟨x, rfl⟩, rfl⟩⟩
  | none =>
    rw [Process.run_bind_of_ok (stellar_of_none hcall)]
    obtain ⟨s₂, hreward, htables, husers⟩ := run_tryReward around
      { s with chain := (call, around.hash call) :: s.chain } key 500
    rw [Process.run_bind_of_ok hreward]
    have hview : readings.view s₂ = readings.view s := by
      unfold readings
      dsimp only
      rw [htables, husers]
    rcases insert_credential_cases around s₂ (credential (around.hash call)) with
      ⟨⟨hinsert, hfresh⟩, hrun⟩ | ⟨hnot, x, hrun⟩
    · have hput := view_put_credential (e := e) (Schema.inserted around.toGenerated _) hfresh
        (hbundle _) (huser _)
      rw [hview] at hput
      rw [htables] at hfresh
      exact ⟨_, .inl ⟨⟨rfl, hinsert, hfresh⟩, ⟨_, hrun⟩, hput⟩⟩
    · rw [htables] at hnot
      exact ⟨s₂, .inr ⟨fun h => hnot h.2, ⟨x, hrun⟩, hview⟩⟩

/-- A credential is found or issued, or nothing but the chain is written. -/
theorem issueBundle_cases (around : Surroundings) (s : Learning.State) (userId : String) (e : Row)
    (key : String) : ∃ s',
    ((passing around).issue s userId e key ∧
      (∃ c, (Credentials.issueBundle userId e.1.data.bundleId key).run handle around s =
        (.ok c, s')) ∧
      readings.view s' = (readings.view s).give userId e.1.data.bundleId) ∨
    ¬ (passing around).issue s userId e key ∧
      (∃ x, (Credentials.issueBundle userId e.1.data.bundleId key).run handle around s =
        (.error x, s')) ∧
      readings.view s' = readings.view s := by
  unfold Credentials.issueBundle
  cases hlookUp : around.fails
    (.query (.findOne .credential (.bundle userId e.1.data.bundleId))) with
  | some x =>
    rw [Process.run_bind_of_error (findOne_of_some hlookUp)]
    exact ⟨s, .inr ⟨fun h => (Option.some_ne_none x) (hlookUp.symm.trans h.1), ⟨x, rfl⟩, rfl⟩⟩
  | none =>
    rw [Process.run_bind_of_ok (findOne_of_none hlookUp)]
    cases hexisting : (s.tables .credential).findOne
      (schema.holds .credential (.bundle userId e.1.data.bundleId)) with
    | some c =>
      obtain ⟨hholds, hc⟩ := Repository.findOne_some hexisting
      have hissued : ∃ c ∈ s.tables .credential, c.data.userId = userId ∧
          c.data.bundleId = some e.1.data.bundleId := ⟨c, hc, of_holds_bundle.mp hholds⟩
      have hgiven : (readings.view s).give userId e.1.data.bundleId = readings.view s :=
        View.give_of_mem hissued
      exact ⟨s, .inl ⟨⟨hlookUp, .inl hissued⟩, ⟨c, rfl⟩, hgiven.symm⟩⟩
    | none =>
      have hmissing : ¬ ∃ c ∈ s.tables .credential, c.data.userId = userId ∧
          c.data.bundleId = some e.1.data.bundleId := by
        rintro ⟨c, hc, hcolumns⟩
        cases (Repository.findOne_eq_none.mp hexisting c hc).symm.trans
          (of_holds_bundle.mpr hcolumns)
      obtain ⟨s', ⟨hpasses, hrun⟩ | ⟨hnot, hrun⟩⟩ := newCredential_cases around s e key
        (.issueCredential key ("bundle:" ++ e.1.data.bundleId) none)
        (fun txHash => Credentials.ofBundle userId e.1.data.bundleId txHash key) (fun _ => rfl)
        fun _ => rfl
      · exact ⟨s', .inl ⟨⟨hlookUp, .inr hpasses⟩, hrun⟩⟩
      · exact ⟨s', .inr ⟨fun h => h.2.elim hmissing hnot, hrun⟩⟩

theorem lawful (around : Surroundings) : Lawful (operations around) (passing around) readings where
  findUnfinished userId := readsTo_request around trivial
  findByUser userId := readsTo_findByUser userId
  findById userId := readsTo_findById userId
  save s e := by
    have hunfold : (operations around).save e s = Process.run handle around s
      (Learning.save .bundleEnrollment (completed around e.1) >>= fun _ => pure ()) := rfl
    rw [hunfold]
    rcases hrun : (Learning.save .bundleEnrollment (completed around e.1)).run handle around s with
      ⟨x | row, s'⟩
    · rw [Process.run_bind_of_error hrun]
      obtain rfl : s = s' := (save_error hrun).symm
      refine .inr ⟨fun h => ?_, x, rfl⟩
      cases hrun.symm.trans (save_ok.mpr ⟨h.1, rfl, h.2, rfl⟩)
    · rw [Process.run_bind_of_ok hrun]
      obtain ⟨hsave, rfl, hconflicts, rfl⟩ := save_ok.mp hrun
      refine .inl ⟨⟨hsave, hconflicts⟩, _, around.now, rfl, view_put_enrollment, fun u key => ?_⟩
      unfold passing
      dsimp only
      rw [State.put_tables_ne (show Entity.credential ≠ .bundleEnrollment from nofun)]
  issue s userId e key := by
    obtain ⟨s', ⟨hpasses, ⟨c, hrun⟩, hview⟩ | ⟨hnot, ⟨x, hrun⟩, hview⟩⟩ :=
      issueBundle_cases around s userId e key
    · exact ⟨s', .inl ⟨hpasses, Process.run_bind_of_ok hrun _, hview⟩⟩
    · exact ⟨s', .inr ⟨hnot, ⟨x, Process.run_bind_of_error hrun _⟩, hview⟩⟩

theorem found : Found readings where
  pending s userId row hrow := by
    obtain ⟨enrollment, henrollment, hbundle⟩ := List.mem_filterMap.mp hrow
    obtain ⟨hstored, hholds⟩ := Repository.mem_find.mp henrollment
    obtain ⟨bundle, -, rfl⟩ := Option.map_eq_some_iff.mp hbundle
    change (decide _ && Option.isNone _) = true at hholds
    rw [Bool.and_eq_true, decide_eq_true_iff, Option.isNone_iff_eq_none] at hholds
    exact ⟨⟨congrArg (Option.map ofRow) hstored, hholds.2⟩, hholds.1⟩
  distinct s userId := by
    refine pairwise_found (s.tables .bundleEnrollment) _ fun row e he => ?_
    obtain ⟨bundle, -, rfl⟩ := Option.map_eq_some_iff.mp he
    rfl

end BundlesService

/-! ## Learning paths -/

namespace LearningPathsService

abbrev Row : Type := ProgrammeEnrollment × Programme

def passing (around : PathSurroundings) : Passing PathState Row where
  findUnfinished _ := around.findUnfinished = none
  findByUser userId := around.learning.fails (.query (.find .enrollment (.user userId))) = none
  save s e := around.save = none ∧ taken s { e.1 with completedAt := some around.now } = false
  findById userId := around.learning.fails (.findUser (.id userId)) = none
  issue s userId e key :=
    around.findExisting = none ∧
      ((∃ c ∈ s.credentials, c.userId = userId ∧ c.learningPathId = e.1.programmeId) ∨
        around.learning.fails
            (.stellar (.issueCredential key ("learning-path:" ++ e.1.programmeId) none)) = none ∧
          around.saveCredential = none ∧ s.credentials.get around.key = none)

def readings : Readings PathState Row where
  view s :=
    { enrollments := s.enrollments.get
      users := s.learning.users
      credentials := { entry | ∃ c ∈ s.credentials,
        c.userId = entry.1 ∧ c.learningPathId = entry.2 } }
  enrollment e := e.1
  unfinished := unfinished
  userEnrollments s := enrollmentsOf s.learning

variable {around : PathSurroundings} {s : PathState} {e : Row} {userId key : String}

theorem view_save (e : ProgrammeEnrollment) (now : Int) :
    readings.view { s with enrollments := s.enrollments.save { e with completedAt := some now } } =
      (readings.view s).mark e now := by
  refine View.ext (funext fun id => ?_) rfl rfl
  change Repository.get (Repository.save _ _) id = _
  rw [Repository.get_save]
  split
  next hid =>
    rw [hid]
    exact View.mark_self.symm
  next hid => exact (View.mark_of_ne (v := readings.view s) (e := e) hid).symm

theorem view_save_credential {credential : PathCredential}
    (hfresh : s.credentials.get credential.id = none) :
    readings.view { s with credentials := s.credentials.save credential } =
      (readings.view s).give credential.userId credential.learningPathId := by
  refine View.ext rfl rfl (Set.ext fun entry => ?_)
  obtain ⟨u, p⟩ := entry
  rw [View.mem_give]
  constructor
  · rintro ⟨c, hc, huser, hpath⟩
    rcases Repository.mem_save.mp hc with rfl | ⟨hc, -⟩
    · exact .inr ⟨huser.symm, hpath.symm⟩
    · exact .inl ⟨c, hc, huser, hpath⟩
  · rintro (⟨c, hc, huser, hpath⟩ | ⟨rfl, rfl⟩)
    · refine ⟨c, Repository.mem_save.mpr (.inr ⟨hc, fun hid => ?_⟩), huser, hpath⟩
      rw [← hid] at hfresh
      cases hfresh.symm.trans hc
    · exact ⟨credential, Repository.mem_save.mpr (.inl rfl), rfl, rfl⟩

theorem ofPath_iff {c : PathCredential} {learningPathId : String} :
    CredentialsService.ofPath userId learningPathId c = true ↔
      c.userId = userId ∧ c.learningPathId = learningPathId := by
  unfold CredentialsService.ofPath
  rw [Bool.and_eq_true, decide_eq_true_iff, decide_eq_true_iff]

section

variable {A : Type} {m : Method A} {learning : Learning.State}

theorem learnPath_of_ok {a : A} (h : m.run handle around.learning s.learning = (.ok a, learning)) :
    learnPath around m s = (.ok a, { s with learning }) := by
  unfold learnPath
  rw [h]

theorem learnPath_of_error {x : HttpException}
    (h : m.run handle around.learning s.learning = (.error x, learning)) :
    learnPath around m s = (.error x, { s with learning }) := by
  unfold learnPath
  rw [h]

end

theorem save_cases (around : PathSurroundings) (s : PathState) (credential : PathCredential) :
    ((around.saveCredential = none ∧ s.credentials.get credential.id = none) ∧
      CredentialsService.save around credential s =
        (.ok credential, { s with credentials := s.credentials.save credential })) ∨
    ¬ (around.saveCredential = none ∧ s.credentials.get credential.id = none) ∧
      ∃ x, CredentialsService.save around credential s = (.error x, s) := by
  unfold CredentialsService.save
  cases around.saveCredential with
  | some x => exact .inr ⟨nofun, x, rfl⟩
  | none =>
    cases s.credentials.get credential.id with
    | some c => exact .inr ⟨nofun, _, rfl⟩
    | none => exact .inl ⟨⟨rfl, rfl⟩, rfl⟩

/-- A credential that is not there is issued, or nothing but the chain is written. -/
theorem newCredential_cases (around : PathSurroundings) (s : PathState) (key : String)
    (call : ChainCall) (credential : String → PathCredential)
    (hkey : ∀ txHash, (credential txHash).id = around.key)
    (huser : ∀ txHash, (credential txHash).userId = userId)
    (hpath : ∀ txHash, (credential txHash).learningPathId = e.1.programmeId) : ∃ s',
    ((around.learning.fails (.stellar call) = none ∧ around.saveCredential = none ∧
        s.credentials.get around.key = none) ∧
      (∃ c, (learnPath around (stellar call) >>= fun txHash =>
        learnPath around (Streaks.tryReward key 750) >>= fun _ =>
          CredentialsService.save around (credential txHash)) s = (.ok c, s')) ∧
      readings.view s' = (readings.view s).give userId e.1.programmeId) ∨
    ¬ (around.learning.fails (.stellar call) = none ∧ around.saveCredential = none ∧
        s.credentials.get around.key = none) ∧
      (∃ x, (learnPath around (stellar call) >>= fun txHash =>
        learnPath around (Streaks.tryReward key 750) >>= fun _ =>
          CredentialsService.save around (credential txHash)) s = (.error x, s')) ∧
      readings.view s' = readings.view s := by
  cases hcall : around.learning.fails (.stellar call) with
  | some x =>
    rw [bind_of_error (learnPath_of_error (stellar_of_some hcall))]
    exact ⟨_, .inr ⟨nofun, ⟨x, rfl⟩, rfl⟩⟩
  | none =>
    rw [bind_of_ok (learnPath_of_ok (stellar_of_none hcall))]
    obtain ⟨learning, hreward, -, husers⟩ := run_tryReward around.learning
      { s.learning with chain := (call, around.learning.hash call) :: s.learning.chain } key 750
    rw [bind_of_ok (learnPath_of_ok hreward)]
    have hview : readings.view { s with learning } = readings.view s := View.ext rfl husers rfl
    rcases save_cases around { s with learning } (credential (around.learning.hash call)) with
      ⟨⟨hsave, hfresh⟩, hrun⟩ | ⟨hnot, x, hrun⟩
    · have hput := view_save_credential hfresh
      rw [hview, huser, hpath] at hput
      rw [hkey] at hfresh
      exact ⟨_, .inl ⟨⟨rfl, hsave, hfresh⟩, ⟨_, hrun⟩, hput⟩⟩
    · rw [hkey] at hnot
      exact ⟨_, .inr ⟨fun h => hnot h.2, ⟨x, hrun⟩, hview⟩⟩

/-- A credential is found or issued, or nothing but the chain is written. -/
theorem issueLearningPath_cases (around : PathSurroundings) (s : PathState) (userId : String)
    (e : Row) (key : String) : ∃ s',
    ((passing around).issue s userId e key ∧
      (∃ c, CredentialsService.issueLearningPath around userId e.1.programmeId key s =
        (.ok c, s')) ∧
      readings.view s' = (readings.view s).give userId e.1.programmeId) ∨
    ¬ (passing around).issue s userId e key ∧
      (∃ x, CredentialsService.issueLearningPath around userId e.1.programmeId key s =
        (.error x, s')) ∧
      readings.view s' = readings.view s := by
  unfold CredentialsService.issueLearningPath
  rcases readsTo_statement around.findExisting (fun s : PathState => s.credentials.findOne
    (CredentialsService.ofPath userId e.1.programmeId)) s with ⟨hlookUp, hrun⟩ | ⟨hnot, x, hrun⟩
  · rw [bind_of_ok hrun]
    dsimp only
    cases hexisting : s.credentials.findOne
      (CredentialsService.ofPath userId e.1.programmeId) with
    | some c =>
      obtain ⟨hholds, hc⟩ := Repository.findOne_some hexisting
      have hissued : ∃ c ∈ s.credentials, c.userId = userId ∧ c.learningPathId = e.1.programmeId :=
        ⟨c, hc, ofPath_iff.mp hholds⟩
      have hgiven : (readings.view s).give userId e.1.programmeId = readings.view s :=
        View.give_of_mem hissued
      exact ⟨s, .inl ⟨⟨hlookUp, .inl hissued⟩, ⟨c, rfl⟩, hgiven.symm⟩⟩
    | none =>
      have hmissing : ¬ ∃ c ∈ s.credentials, c.userId = userId ∧
          c.learningPathId = e.1.programmeId := by
        rintro ⟨c, hc, hcolumns⟩
        cases (Repository.findOne_eq_none.mp hexisting c hc).symm.trans (ofPath_iff.mpr hcolumns)
      obtain ⟨s', ⟨hpasses, hrun⟩ | ⟨hnot, hrun⟩⟩ := newCredential_cases around s key
        (.issueCredential key ("learning-path:" ++ e.1.programmeId) none)
        (fun txHash => ⟨around.key, userId, e.1.programmeId, txHash, key⟩) (fun _ => rfl)
        (fun _ => rfl) fun _ => rfl
      · exact ⟨s', .inl ⟨⟨hlookUp, .inr hpasses⟩, hrun⟩⟩
      · exact ⟨s', .inr ⟨fun h => h.2.elim hmissing hnot, hrun⟩⟩
  · rw [bind_of_error hrun]
    exact ⟨s, .inr ⟨fun h => hnot h.1, ⟨x, rfl⟩, rfl⟩⟩

theorem lawful (around : PathSurroundings) :
    Lawful (operations around) (passing around) readings where
  findUnfinished userId := readsTo_statement _ _
  findByUser userId := readsTo_learnPath (readsTo_findByUser userId)
  findById userId := readsTo_learnPath (readsTo_findById userId)
  save s e := by
    change _ ∧ (∃ s' now, save around _ s = _ ∧ _) ∨ _ ∧ ∃ x, save around _ s = _
    unfold passing save
    cases hsave : around.save with
    | some x => exact .inr ⟨nofun, x, rfl⟩
    | none =>
      dsimp only
      cases htaken : taken s { e.1 with completedAt := some around.now } with
      | true => exact .inr ⟨nofun, _, rfl⟩
      | false =>
        exact .inl ⟨⟨rfl, rfl⟩, _, around.now, rfl, view_save e.1 around.now, fun _ _ => .rfl⟩
  issue s userId e key := by
    obtain ⟨s', ⟨hpasses, ⟨c, hrun⟩, hview⟩ | ⟨hnot, ⟨x, hrun⟩, hview⟩⟩ :=
      issueLearningPath_cases around s userId e key
    · exact ⟨s', .inl ⟨hpasses, bind_of_ok hrun _, hview⟩⟩
    · exact ⟨s', .inr ⟨hnot, ⟨x, bind_of_error hrun _⟩, hview⟩⟩

theorem found : Found readings where
  pending s userId row hrow := by
    obtain ⟨enrollment, henrollment, hpath⟩ := List.mem_filterMap.mp hrow
    obtain ⟨hstored, hholds⟩ := Repository.mem_find.mp henrollment
    obtain ⟨path, -, rfl⟩ := Option.map_eq_some_iff.mp hpath
    rw [Bool.and_eq_true, decide_eq_true_iff, Option.isNone_iff_eq_none] at hholds
    exact ⟨⟨hstored, hholds.2⟩, hholds.1⟩
  distinct s userId := by
    refine pairwise_found s.enrollments _ fun row e he => ?_
    obtain ⟨path, -, rfl⟩ := Option.map_eq_some_iff.mp he
    rfl

end LearningPathsService

/-! ## The two services -/

section Bundles

variable {around : Surroundings}

theorem perform_bind {A B : Type} (m : Method A) (f : A → Method B) :
    perform around (m >>= f) = perform around m >>= fun a => perform around (f a) := by
  funext s
  rcases hrun : perform around m s with ⟨x | a, s'⟩
  · rw [bind_of_error hrun]
    exact Process.run_bind_of_error hrun f
  · rw [bind_of_ok hrun]
    exact Process.run_bind_of_ok hrun f

theorem perform_pure {A : Type} (a : A) : perform around (pure a) = pure a := rfl

theorem finish_eq (userId : String) (e : BundlesService.Row) :
    finish (BundlesService.operations around) userId e =
      perform around (Bundles.finish userId e.1) := by
  have henv : perform around (Bundles.finish userId e.1) =
      perform around (Learning.save .bundleEnrollment (BundlesService.completed around e.1) >>=
        fun _ => request (.findUser (.id userId)) >>= fun user => _) := rfl
  have hsave : (BundlesService.operations around).save e =
      perform around (Learning.save .bundleEnrollment (BundlesService.completed around e.1) >>=
        fun _ => pure ()) := rfl
  unfold finish
  rw [henv, hsave, perform_bind, perform_bind, bind_assoc]
  refine bind_congr fun _ => ?_
  rw [perform_pure, pure_bind, perform_bind]
  refine bind_congr fun user => ?_
  cases Streaks.truthy (user.bind fun user => user .stellarPublicKey) <;> rfl

theorem checkEnrollment_eq (userId courseId : String) (e : BundlesService.Row) :
    checkEnrollment (BundlesService.operations around) userId courseId e =
      perform around (Bundles.updateBundle userId courseId e.1 e.2) := by
  have hcourses : (BundlesService.operations around).courseIds e = e.2.courseIds := rfl
  unfold checkEnrollment Bundles.updateBundle
  rw [hcourses]
  split
  next =>
    rw [perform_bind]
    refine bind_congr fun userEnrollments => ?_
    split
    next => exact finish_eq userId e
    next => exact (perform_pure ()).symm
  next => exact (perform_pure ()).symm

/-- Where all turns of the loop meet the same, a check of `BundlesService` is a call of
`Bundles.updateProgress`. -/
theorem updateProgress_eq (around : Surroundings) (userId courseId : String) :
    BundlesService.updateProgress (fun _ => around) userId courseId =
      perform around (Bundles.updateProgress userId courseId) := by
  unfold BundlesService.updateProgress Programmes.updateProgress Bundles.updateProgress
  rw [perform_bind]
  refine bind_congr fun rows => ?_
  generalize 1 = n
  induction rows generalizing n with
  | nil => rfl
  | cons e rest ih =>
    unfold checkEnrollments Bundles.updateBundles
    rw [perform_bind]
    refine congrArg₂ _ ?_ (funext fun _ => ih (n + 1))
    exact checkEnrollment_eq userId courseId e

end Bundles

/-- Whoever has completed a bundle or a learning path and has a Stellar key has its credential, or
gets it from a later check, all through a run, exactly where in every check what follows a mark goes
through and nobody gets a key who lacks the credential of something completed. -/
theorem programmes_credited_iff
    (bundles : Run BundlesService.operations BundlesService.readings.view)
    (paths : Run LearningPathsService.operations LearningPathsService.readings.view) :
    ((∀ earlier, earlier <:+ bundles.past →
        Credited BundlesService.operations BundlesService.readings.view
          (stateAfter BundlesService.operations bundles.start earlier)) ↔
      Guarded (fun earlier event =>
        Meets BundlesService.operations BundlesService.passing BundlesService.readings
          (stateAfter BundlesService.operations bundles.start earlier) event) bundles.past) ∧
    ((∀ earlier, earlier <:+ paths.past →
        Credited LearningPathsService.operations LearningPathsService.readings.view
          (stateAfter LearningPathsService.operations paths.start earlier)) ↔
      Guarded (fun earlier event =>
        Meets LearningPathsService.operations LearningPathsService.passing
          LearningPathsService.readings
          (stateAfter LearningPathsService.operations paths.start earlier) event) paths.past) :=
  ⟨credited_throughout BundlesService.lawful BundlesService.found bundles,
    credited_throughout LearningPathsService.lawful LearningPathsService.found paths⟩

/-! ## Never issued -/

/-- The one enrollment has no `completedAt`. -/
structure View.Single (v : View) (e : ProgrammeEnrollment) : Prop where
  only : ∀ id other, v.enrollments id = some other → id = e.id ∧ other = e
  unfinished : e.completedAt = none

/-- A table into which one row was saved has that row only. -/
theorem only_of_save {R B : Type} {key : R → String} {row : R} {k : String} {b : B} (f : R → B)
    (h : ((Repository.empty.save row : Repository key).get k).map f = some b) :
    k = key row ∧ b = f row := by
  rw [Repository.get_save] at h
  split at h
  next hk => exact ⟨hk, (Option.some.inj h).symm⟩
  next =>
    rw [Repository.get_empty] at h
    cases h

theorem View.Single.unique {v : View} {e : ProgrammeEnrollment} (h : v.Single e) : v.Unique :=
  fun id id' a a' ha ha' _ _ => (h.only id a ha).1.trans (h.only id' a' ha').1.symm

theorem View.Single.credited {E S Row : Type} {service : E → Operations S Row} {view : S → View}
    {s : S} {e : ProgrammeEnrollment} (h : (view s).Single e) : Credited service view s := by
  rintro u p ⟨⟨id, other, hother, -, -, hcompleted⟩, -⟩
  rw [(h.only id other hother).2] at hcompleted
  exact absurd h.unfinished hcompleted

/-- A user with a key has completed the one course, which is in the bundle that he has. -/
def exampleLearning : Learning.State :=
  { Learning.State.empty with
    users := Repository.empty.save
      (spread (Users.User.default "u1" 0) (Patch.empty.set .stellarPublicKey (some "G1"))) }
    |>.put .enrollment (Repository.empty.save ⟨"c1", 0, 0, {
        userId := "u1", courseId := "c1", completedAt := some 0
        enrolledVersionNumber := none, transactionHash := none }⟩)
    |>.put .bundle (Repository.empty.save ⟨"p1", 0, 0, ⟨["c1"]⟩⟩)
    |>.put .bundleEnrollment (Repository.empty.save ⟨"e1", 0, 0, ⟨"u1", "p1", none⟩⟩)

/-- The same with a learning path. -/
def examplePaths : PathState where
  programmes := Repository.empty.save ⟨"p1", true, ["c1"]⟩
  enrollments := Repository.empty.save ⟨"e1", "u1", "p1", none⟩
  learning := exampleLearning
  credentials := .empty

/-- Nothing fails, or the chain does not answer. -/
def exampleChain (timeout : Bool) : Surroundings :=
  exampleSurroundings (fun q =>
    match q with
    | .stellar _ => if timeout then some (.internal "Timeout") else none
    | _ => none) "k1"

def exampleTurn (timeout : Bool) : PathSurroundings where
  now := 0
  findUnfinished := none
  save := none
  findExisting := none
  saveCredential := none
  key := "k1"
  learning := exampleChain timeout

theorem example_single :
    (BundlesService.readings.view exampleLearning).Single ⟨"e1", "u1", "p1", none⟩ :=
  ⟨fun _ _ => only_of_save BundlesService.ofRow, rfl⟩

theorem example_single_path :
    (LearningPathsService.readings.view examplePaths).Single ⟨"e1", "u1", "p1", none⟩ :=
  ⟨fun _ _ h => only_of_save id (Option.map_eq_some_iff.mpr ⟨_, h, rfl⟩), rfl⟩

/-- One check. -/
def exampleBundles (timeout : Bool) :
    Run BundlesService.operations BundlesService.readings.view where
  start := exampleLearning
  unique := example_single.unique
  credited := example_single.credited
  past := [.check ⟨fun _ => exampleChain timeout, "u1", "c1"⟩]
  others := ⟨nofun, trivial⟩

def examplePathRun (timeout : Bool) :
    Run LearningPathsService.operations LearningPathsService.readings.view where
  start := examplePaths
  unique := example_single_path.unique
  credited := example_single_path.credited
  past := [.check ⟨fun _ => exampleTurn timeout, "u1", "c1"⟩]
  others := ⟨nofun, trivial⟩

/-- Nothing fails. -/
theorem programmes_credited_iff_calm :
    Credited BundlesService.operations BundlesService.readings.view
        (stateAfter BundlesService.operations exampleLearning (exampleBundles false).past) ∧
      Credited LearningPathsService.operations LearningPathsService.readings.view
        (stateAfter LearningPathsService.operations examplePaths (examplePathRun false).past) := by
  obtain ⟨hbundles, hpaths⟩ :=
    programmes_credited_iff (exampleBundles false) (examplePathRun false)
  constructor
  · refine hbundles.mpr ⟨fun _ => ⟨fun _ _ => .inr ?_, fun _ _ => trivial⟩, trivial⟩ _
      (List.suffix_refl _)
    exact ⟨"G1", rfl, rfl, rfl, .inr ⟨rfl, rfl, rfl⟩⟩
  · refine hpaths.mpr ⟨fun _ => ⟨fun _ _ => .inr ?_, fun _ _ => trivial⟩, trivial⟩ _
      (List.suffix_refl _)
    exact ⟨"G1", rfl, rfl, rfl, .inr ⟨rfl, rfl, rfl⟩⟩

/-- The chain does not answer. The programme is completed without its credential, which no later
check issues. The check of the bundle is the one that `ProgressService` calls. -/
theorem credential_never_issued :
    let s := stateAfter BundlesService.operations exampleLearning (exampleBundles true).past
    let s' := stateAfter LearningPathsService.operations examplePaths (examplePathRun true).past
    (perform (exampleChain true) (Bundles.updateProgress "u1" "c1") exampleLearning).2 = s ∧
    ((BundlesService.readings.view s).Due "u1" "p1" ∧
      (∀ later : List (Check Surroundings), ("u1", "p1") ∉ (BundlesService.readings.view
        (stateAfter BundlesService.operations s (later.map .check))).credentials) ∧
      ¬ Credited BundlesService.operations BundlesService.readings.view s) ∧
    ((LearningPathsService.readings.view s').Due "u1" "p1" ∧
      (∀ later : List (Check PathSurroundings), ("u1", "p1") ∉ (LearningPathsService.readings.view
        (stateAfter LearningPathsService.operations s' (later.map .check))).credentials) ∧
      ¬ Credited LearningPathsService.operations LearningPathsService.readings.view s') := by
  intro s s'
  have hmissed : (BundlesService.readings.view s).Missed "u1" "p1" := by
    refine ⟨?_, ⟨⟨"e1", ⟨"e1", "u1", "p1", some 0⟩, rfl, rfl, rfl, nofun⟩, nofun⟩, ?_⟩
    · exact unique_after BundlesService.lawful BundlesService.found (exampleBundles true)
        (List.suffix_refl _)
    · rintro ⟨c, hc, -⟩
      exact Repository.not_mem_empty hc
  have hmissed' : (LearningPathsService.readings.view s').Missed "u1" "p1" := by
    refine ⟨?_, ⟨⟨"e1", ⟨"e1", "u1", "p1", some 0⟩, rfl, rfl, rfl, nofun⟩, nofun⟩, ?_⟩
    · exact unique_after LearningPathsService.lawful LearningPathsService.found
        (examplePathRun true) (List.suffix_refl _)
    · rintro ⟨c, hc, -⟩
      exact Repository.not_mem_empty hc
  have hcheck : (perform (exampleChain true) (Bundles.updateProgress "u1" "c1")
      exampleLearning).2 = s := by
    rw [← updateProgress_eq]
    rfl
  exact ⟨hcheck, View.Missed.denied BundlesService.lawful BundlesService.found hmissed,
    View.Missed.denied LearningPathsService.lawful LearningPathsService.found hmissed'⟩

end Scoopdope.Programmes
