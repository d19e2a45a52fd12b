import Scoopdope.Email.Queue

/-!
# The email queue: how often an email is sent

At most one call of `processQueue` is past the flag: the worker. All others have returned, or wait
for an insertion. The jobs of its round are as they are stored, and nobody else writes them
(`Inv`), so what is stored of a job says how often it was sent (`Recorded`).

`email_delivered_once`: after every schedule, an email was sent successfully at most once and tried
at most three times, no two attempts overlap, and a job that is no longer pending was sent, or
logged where mail is disabled, or has failed three times.
-/

namespace Scoopdope.Email

open Async Database Soroban

variable {R : Type} [DecidableEq R] (config : Config)

abbrev EmailPool (R : Type) : Type := Pool emailInterface Env QueryFailed Unit State Call R

abbrev EmailEvent (R : Type) : Type := Event Env Call R

def reached (start : State) (schedule : List (EmailEvent R)) : EmailPool R :=
  after ((system config).execTurn isSync) (Pool.idle start) schedule

/-- The answers to the attempts to send an email, newest first. -/
def tries (s : State) (id : String) : List Bool :=
  (s.attempts.filter fun attempt => attempt.id = id).map Attempt.succeeded

/-- The request waits for the mail server. -/
def Sending (p : EmailPool R) (r : R) (id : String) : Prop :=
  ∃ call mail k, p.request r = some (call, .await (.sendMail id mail) k)

/-- What has happened to an email. -/
structure DeliveredOnce (p : EmailPool R) (id : String) : Prop where
  once : (tries p.shared id).count true ≤ 1
  thrice : (tries p.shared id).length ≤ maxAttempts
  /-- The attempt under way is not one too many. -/
  underWay : ∀ r, Sending p r id →
    true ∉ tries p.shared id ∧ (tries p.shared id).length < maxAttempts
  apart : ∀ r r', Sending p r id → Sending p r' id → r = r'
  left : ∀ job, p.shared.queue.get id = some job → job.status ≠ .pending →
    job.status = .sent ∧ (true ∈ tries p.shared id ∨ config.enabled = false) ∨
    job.status = .failed ∧ tries p.shared id = [false, false, false]

/-- The attempts so far, by what is stored of the job. -/
def Recorded (tried : List Bool) : Option EmailQueue → Prop
  | none => tried = []
  | some job =>
    match job.status with
    | .pending => job.attempts < maxAttempts ∧ tried = List.replicate job.attempts false
    | .sent => ∃ failures < maxAttempts, tried = true :: List.replicate failures false ∨
        config.enabled = false ∧ tried = List.replicate failures false
    | .failed => tried = List.replicate maxAttempts false

/-! ## The worker -/

/-- What `processQueue` does with the jobs it finds. -/
def findAndSend (now : Nat) : Method Unit := do
  let jobs ← Process.perform (I := emailInterface) (.find now)
  sendAll config jobs

def saveAndGo (job : EmailQueue) (jobs : List EmailQueue) : Method Unit := do
  Process.perform (I := emailInterface) (.save job)
  sendAll config jobs

inductive Stage
  | finding (now : Nat)
  | sending (job : EmailQueue) (jobs : List EmailQueue)
  | saving (job : EmailQueue) (jobs : List EmailQueue)

def Stage.process : Stage → Method Unit
  | .finding now => findAndSend config now
  | .sending job jobs => sendAll config (job :: jobs)
  | .saving job jobs => saveAndGo config job jobs

/-- The jobs are stored like this, pending, and no two are the same. -/
def Batch (s : State) (jobs : List EmailQueue) : Prop :=
  (∀ job ∈ jobs, s.queue.get job.id = some job ∧ job.status = .pending) ∧
    (jobs.map EmailQueue.id).Nodup

/-- What holds in a stage, `id` being the email in question. -/
def Stage.Holds (id : String) (s : State) : Stage → Prop
  | .finding _ => Recorded config (tries s id) (s.queue.get id)
  | .sending job jobs =>
    config.enabled = true ∧ Batch s (job :: jobs) ∧ Recorded config (tries s id) (s.queue.get id)
  | .saving job jobs =>
    Batch s jobs ∧ job.id ∉ jobs.map EmailQueue.id ∧
      (∃ stored, s.queue.get job.id = some stored ∧ stored.status = .pending) ∧
      Recorded config (tries s id) (if id = job.id then some job else s.queue.get id)

/-- Not past the flag. -/
def Resting (process : Method Unit) : Prop :=
  process = .ret () ∨ process = .fail .duplicateKey ∨
    ∃ recipient subject html, process = enqueue recipient subject html

/-- What holds after every schedule, with this worker. -/
structure Inv (id : String) (p : EmailPool R) (worker : Option (R × Stage)) : Prop where
  flag : p.shared.processing = worker.isSome
  works : ∀ r stage, worker = some (r, stage) →
    (∃ call, p.request r = some (call, stage.process config)) ∧ stage.Holds config id p.shared
  rests : ∀ r call process, p.request r = some (call, process) →
    (∀ stage, worker ≠ some (r, stage)) → Resting process
  idle : worker = none → Recorded config (tries p.shared id) (p.shared.queue.get id)

/-! ## What `sendAll` comes to next -/

/-- Whether mail is enabled decides what is waited for next. -/
def nextOfSendAll (env : Env) (s : State) : List EmailQueue → Method Unit × State
  | [] => (.ret (), { s with processing := false })
  | job :: jobs =>
    if config.enabled then (sendAll config (job :: jobs), s)
    else (saveAndGo config (settled env.now (attempted job) (.ok ())) jobs, s)

variable {config} {job : EmailQueue} {jobs : List EmailQueue}

theorem sendAll_enabled (h : config.enabled = true) (job : EmailQueue) (jobs : List EmailQueue) :
    sendAll config (job :: jobs) =
      .await (.sendMail job.id (mailOf config job)) fun answer =>
        saveSettled (attempted job) answer >>= fun _ => sendAll config jobs := by
  have hsend : send config (attempted job) =
      Process.perform (I := emailInterface) (.sendMail job.id (mailOf config job)) := by
    unfold send
    rw [h]
    rfl
  rw [sendAll, sendJob, hsend]
  rfl

theorem sendAll_disabled (h : config.enabled = false) (job : EmailQueue) (jobs : List EmailQueue) :
    sendAll config (job :: jobs) =
      .ask fun env => saveAndGo config (settled env.now (attempted job) (.ok ())) jobs := by
  have hsend : send config (attempted job) = .ret (.ok ()) := by
    unfold send
    rw [h]
    rfl
  rw [sendAll, sendJob, hsend]
  rfl

theorem turn_sendAll (env : Env) (s : State) (jobs : List EmailQueue) :
    (sendAll config jobs).turn isSync handle env s = nextOfSendAll config env s jobs := by
  cases jobs with
  | nil => rfl
  | cons job jobs =>
    rw [nextOfSendAll]
    cases henabled : config.enabled with
    | true =>
      rw [if_pos rfl, sendAll_enabled henabled]
      rfl
    | false =>
      rw [if_neg Bool.false_ne_true, sendAll_disabled henabled]
      rfl

/-! ## What is recorded -/

variable {id : String} {s s' : State}

theorem recorded_pending {tried : List Bool} (hpending : job.status = .pending) :
    Recorded config tried (some job) ↔
      job.attempts < maxAttempts ∧ tried = List.replicate job.attempts false := by
  rw [Recorded, hpending]

theorem id_settled (now : Nat) (job : EmailQueue) (answer : Except String Unit) :
    (settled now job answer).id = job.id := by
  unfold settled
  split
  · rfl
  · split
    · rfl
    · rfl

/-- A pending job that was tried once more. -/
theorem Recorded.settled {tried : List Bool} (h : Recorded config tried (some job))
    (hpending : job.status = .pending) (now : Nat) (answer : Except String Unit) :
    Recorded config (answer.isOk :: tried) (some (settled now (attempted job) answer)) := by
  obtain ⟨hfewer, rfl⟩ := (recorded_pending hpending).mp h
  cases answer with
  | ok u => exact ⟨job.attempts, hfewer, .inl rfl⟩
  | error message =>
    unfold Email.settled
    dsimp only
    split
    · next hlast =>
      have hattempts : job.attempts + 1 = maxAttempts := le_antisymm hfewer hlast
      show _ = List.replicate maxAttempts false
      rw [← hattempts]
      rfl
    · next hmore =>
      refine (recorded_pending ?_).mpr ⟨not_le.mp hmore, rfl⟩
      exact hpending

/-- Where mail is disabled, a pending job is settled without being tried. -/
theorem Recorded.logged {tried : List Bool} (h : Recorded config tried (some job))
    (hpending : job.status = .pending) (hdisabled : config.enabled = false) (now : Nat) :
    Recorded config tried (some (Email.settled now (attempted job) (.ok ()))) := by
  obtain ⟨hfewer, htried⟩ := (recorded_pending hpending).mp h
  exact ⟨job.attempts, hfewer, .inr ⟨hdisabled, htried⟩⟩

/-! ## What the worker does -/

theorem batch_dueJobs (s : State) (now : Nat) : Batch s (dueJobs s.queue now) := by
  have hsorted : ((s.queue.find (isDue now)).mergeSort
      fun a b => decide (a.createdAt ≤ b.createdAt)).Perm (s.queue.find (isDue now)) :=
    List.mergeSort_perm _ _
  constructor
  · intro job hjob
    obtain ⟨hmem, hdue⟩ := Repository.mem_find.mp (hsorted.mem_iff.mp (List.mem_of_mem_take hjob))
    exact ⟨hmem, of_decide_eq_true (Bool.and_eq_true_iff.mp hdue).1⟩
  · refine List.Nodup.sublist ((List.take_sublist 10 _).map EmailQueue.id) ?_
    exact (hsorted.map EmailQueue.id).nodup_iff.mpr Repository.nodup_find_keys

theorem Batch.tail (h : Batch s (job :: jobs)) : Batch s jobs :=
  ⟨fun other hother => h.1 other (List.mem_cons_of_mem job hother), (List.nodup_cons.mp h.2).2⟩

/-- The stage, or the end, that `sendAll` comes to. -/
theorem holds_nextOfSendAll (env : Env) (hbatch : Batch s jobs)
    (hrecorded : Recorded config (tries s id) (s.queue.get id)) :
    (nextOfSendAll config env s jobs = (.ret (), { s with processing := false })) ∨
      ∃ stage : Stage, nextOfSendAll config env s jobs = (stage.process config, s) ∧
        stage.Holds config id s := by
  cases jobs with
  | nil => exact .inl rfl
  | cons job jobs =>
    rw [nextOfSendAll]
    cases henabled : config.enabled with
    | true => exact .inr ⟨.sending job jobs, rfl, henabled, hbatch, hrecorded⟩
    | false =>
      obtain ⟨hstored, hpending⟩ := hbatch.1 job List.mem_cons_self
      refine .inr ⟨.saving (settled env.now (attempted job) (.ok ())) jobs, rfl, hbatch.tail, ?_,
        ⟨job, ?_, hpending⟩, ?_⟩
      · rw [id_settled]
        exact (List.nodup_cons.mp hbatch.2).1
      · rw [id_settled]
        exact hstored
      · rw [id_settled]
        split
        · next hid =>
          rw [hid] at hrecorded ⊢
          have hjob : s.queue.get (attempted job).id = some job := hstored
          rw [hjob] at hrecorded
          exact hrecorded.logged hpending henabled env.now
        · exact hrecorded

theorem tries_cons (attempt : Attempt) (attempts : List Attempt) :
    tries { s with attempts := attempt :: attempts } id =
      if attempt.id = id then attempt.succeeded :: tries { s with attempts } id
      else tries { s with attempts } id := by
  unfold tries
  rw [List.filter_cons]
  by_cases hid : attempt.id = id
  · rw [if_pos (decide_eq_true hid), if_pos hid, List.map_cons]
  · rw [if_neg (by rwa [decide_eq_true_eq]), if_neg hid]

/-- The mail server has answered. -/
theorem Stage.Holds.answered {env : Env} (h : (Stage.sending job jobs).Holds config id s) :
    (Stage.saving (Email.settled env.now (attempted job) env.mail) jobs).Holds config id
      { s with attempts := ⟨job.id, env.mail.isOk⟩ :: s.attempts } := by
  obtain ⟨-, hbatch, hrecorded⟩ := h
  obtain ⟨hstored, hpending⟩ := hbatch.1 job List.mem_cons_self
  refine ⟨hbatch.tail, ?_, ⟨job, ?_, hpending⟩, ?_⟩
  · rw [id_settled]
    exact (List.nodup_cons.mp hbatch.2).1
  · rw [id_settled]
    exact hstored
  · rw [id_settled, tries_cons]
    have hid : (attempted job).id = job.id := rfl
    rw [hid]
    by_cases hjob : job.id = id
    · rw [if_pos hjob, if_pos hjob.symm]
      rw [← hjob, hstored, hjob] at hrecorded
      exact hrecorded.settled hpending env.now env.mail
    · rw [if_neg hjob, if_neg (Ne.symm hjob)]
      exact hrecorded

/-- The job is stored. -/
theorem Stage.Holds.saved (h : (Stage.saving job jobs).Holds config id s) :
    Batch { s with queue := s.queue.save job } jobs ∧
      Recorded config (tries s id) ((s.queue.save job).get id) := by
  obtain ⟨hbatch, hnew, -, hrecorded⟩ := h
  refine ⟨⟨fun other hother => ?_, hbatch.2⟩, ?_⟩
  · obtain ⟨hstored, hpending⟩ := hbatch.1 other hother
    have hne : other.id ≠ job.id := fun hsame => hnew (hsame ▸ List.mem_map_of_mem hother)
    refine ⟨?_, hpending⟩
    show (s.queue.save job).get other.id = some other
    rw [Repository.get_save, if_neg hne]
    exact hstored
  · rw [Repository.get_save]
    exact hrecorded

/-- Another job is enqueued. -/
theorem get_newJob {env : Env} {recipient subject html key : String}
    (hfresh : s.queue.get env.uuid = none) (hkey : (s.queue.get key).isSome = true) :
    (s.queue.save (newJob env recipient subject html)).get key = s.queue.get key := by
  rw [Repository.get_save, if_neg]
  rintro rfl
  have hnone : s.queue.get (newJob env recipient subject html).id = none := hfresh
  rw [hnone] at hkey
  cases hkey

theorem Batch.enqueued {env : Env} {recipient subject html : String} (h : Batch s jobs)
    (hfresh : s.queue.get env.uuid = none) :
    Batch { s with queue := s.queue.save (newJob env recipient subject html) } jobs := by
  refine ⟨fun job hjob => ?_, h.2⟩
  obtain ⟨hstored, hpending⟩ := h.1 job hjob
  refine ⟨?_, hpending⟩
  rw [get_newJob hfresh (by rw [hstored]; rfl)]
  exact hstored

theorem Recorded.enqueued {env : Env} {recipient subject html : String}
    (hfresh : s.queue.get env.uuid = none) (h : Recorded config (tries s id) (s.queue.get id)) :
    Recorded config (tries s id) ((s.queue.save (newJob env recipient subject html)).get id) := by
  cases hid : s.queue.get id with
  | some job =>
    rw [get_newJob hfresh (by rw [hid]; rfl)]
    exact h
  | none =>
    rw [hid] at h
    rw [Repository.get_save]
    split
    · exact (recorded_pending rfl).mpr ⟨Nat.succ_pos 2, h⟩
    · rw [hid]
      exact h

theorem Stage.Holds.enqueued {env : Env} {recipient subject html : String} {stage : Stage}
    (h : stage.Holds config id s) (hfresh : s.queue.get env.uuid = none) :
    stage.Holds config id
      { s with queue := s.queue.save (newJob env recipient subject html) } := by
  cases stage with
  | finding now => exact Recorded.enqueued hfresh h
  | sending job jobs => exact ⟨h.1, h.2.1.enqueued hfresh, Recorded.enqueued hfresh h.2.2⟩
  | saving job jobs =>
    obtain ⟨hbatch, hnew, ⟨stored, hstored, hpending⟩, hrecorded⟩ := h
    refine ⟨hbatch.enqueued hfresh, hnew, ⟨stored, ?_, hpending⟩, ?_⟩
    · show (s.queue.save _).get job.id = some stored
      rw [get_newJob hfresh (by rw [hstored]; rfl)]
      exact hstored
    · by_cases hid : id = job.id
      · rw [if_pos hid] at hrecorded ⊢
        exact hrecorded
      · rw [if_neg hid] at hrecorded ⊢
        exact Recorded.enqueued hfresh hrecorded

/-! ## Schedules -/

section Steps

variable {p p' : EmailPool R} {worker : Option (R × Stage)} {r : R} {call : Call}
  {process : Method Unit} {stage : Stage}

/-- Another request than the worker moves. -/
theorem Inv.rest_moves (h : Inv config id p worker) (hr : ∀ stage, worker ≠ some (r, stage))
    (hprocess : Resting process)
    (hrequest : p'.request = Function.update p.request r (some (call, process)))
    (hflag : p'.shared.processing = p.shared.processing)
    (hholds : ∀ stage : Stage, stage.Holds config id p.shared → stage.Holds config id p'.shared)
    (hidle : Recorded config (tries p.shared id) (p.shared.queue.get id) →
      Recorded config (tries p'.shared id) (p'.shared.queue.get id)) :
    Inv config id p' worker := by
  refine ⟨hflag.trans h.flag, fun r' stage hworker => ?_, fun r' call' process' hr' hne => ?_,
    fun hnone => hidle (h.idle hnone)⟩
  · obtain ⟨⟨call', hcall⟩, hstage⟩ := h.works r' stage hworker
    have hne : r' ≠ r := by
      rintro rfl
      exact hr stage hworker
    refine ⟨⟨call', ?_⟩, hholds stage hstage⟩
    rw [hrequest, Function.update_of_ne hne]
    exact hcall
  · rw [hrequest, Function.update_apply] at hr'
    split at hr'
    · cases hr'
      exact hprocess
    · exact h.rests r' call' process' hr' hne

/-- All but the worker rest, whatever the worker does. -/
theorem Inv.others_rest (h : Inv config id p (some (r, stage)))
    (hrequest : p'.request = Function.update p.request r (some (call, process))) :
    ∀ r' call' process', r' ≠ r → p'.request r' = some (call', process') → Resting process' := by
  intro r' call' process' hne hr'
  rw [hrequest, Function.update_of_ne hne] at hr'
  refine h.rests r' call' process' hr' fun stage' hworker => ?_
  cases hworker
  exact hne rfl

theorem Inv.worker_moves (h : Inv config id p (some (r, stage))) (stage' : Stage)
    (hrequest : p'.request = Function.update p.request r (some (call, stage'.process config)))
    (hflag : p'.shared.processing = true) (hholds : stage'.Holds config id p'.shared) :
    Inv config id p' (some (r, stage')) := by
  refine ⟨hflag, fun r' stage'' hworker => ?_, fun r' call' process' hr' hne => ?_, nofun⟩
  · cases hworker
    exact ⟨⟨call, by rw [hrequest, Function.update_self]⟩, hholds⟩
  · refine h.others_rest hrequest r' call' process' ?_ hr'
    rintro rfl
    exact hne stage' rfl

theorem Inv.worker_ends (h : Inv config id p (some (r, stage)))
    (hrequest : p'.request = Function.update p.request r (some (call, .ret ())))
    (hflag : p'.shared.processing = false)
    (hrecorded : Recorded config (tries p'.shared id) (p'.shared.queue.get id)) :
    Inv config id p' none := by
  refine ⟨hflag, nofun, fun r' call' process' hr' _ => ?_, fun _ => hrecorded⟩
  by_cases hne : r' = r
  · rw [hne, hrequest, Function.update_self] at hr'
    cases hr'
    exact .inl rfl
  · exact h.others_rest hrequest r' call' process' hne hr'

/-- The worker comes to `sendAll`. -/
theorem Inv.worker_sends (h : Inv config id p (some (r, stage))) {env : Env} {s : State}
    (hturn : (sendAll config jobs).turn isSync handle env s = (process, p'.shared))
    (hrequest : p'.request = Function.update p.request r (some (call, process)))
    (hflag : s.processing = true) (hbatch : Batch s jobs)
    (hrecorded : Recorded config (tries s id) (s.queue.get id)) :
    ∃ worker', Inv config id p' worker' := by
  rw [turn_sendAll] at hturn
  rcases holds_nextOfSendAll env hbatch hrecorded with hend | ⟨stage', hnext, hholds⟩
  · obtain ⟨rfl, hshared⟩ := Prod.mk.inj (hend.symm.trans hturn)
    refine ⟨none, h.worker_ends hrequest ?_ ?_⟩
    · rw [← hshared]
    · rw [← hshared]
      exact hrecorded
  · obtain ⟨rfl, hshared⟩ := Prod.mk.inj (hnext.symm.trans hturn)
    refine ⟨some (r, stage'), h.worker_moves stage' hrequest ?_ ?_⟩
    · rw [← hshared]
      exact hflag
    · rw [← hshared]
      exact hholds

theorem Inv.called {env : Env} (h : Inv config id p worker)
    (hfree : p.request r = none)
    (hturn : (call.start config).turn isSync handle env p.shared = (process, p'.shared))
    (hrequest : p'.request = Function.update p.request r (some (call, process))) :
    ∃ worker', Inv config id p' worker' := by
  have hr (stage : Stage) : worker ≠ some (r, stage) := by
    intro hworker
    obtain ⟨⟨call', hcall⟩, -⟩ := h.works r stage hworker
    cases hfree.symm.trans hcall
  cases call with
  | enqueue recipient subject html =>
    obtain ⟨rfl, hshared⟩ := Prod.mk.inj
      (show (enqueue recipient subject html, p.shared) = (process, p'.shared) from hturn)
    refine ⟨worker, h.rest_moves hr (.inr (.inr ⟨recipient, subject, html, rfl⟩)) hrequest ?_ ?_ ?_⟩
    all_goals rw [← hshared]
    · exact fun stage hstage => hstage
    · exact fun hrecorded => hrecorded
  | processQueue =>
    have hflag : (Call.processQueue.start config).turn isSync handle env p.shared =
        (if p.shared.processing then (pure () : Method Unit) else do
          Process.perform (I := emailInterface) (.writeProcessing true)
          let env ← Process.env
          let jobs ← Process.perform (I := emailInterface) (.find env.now)
          sendAll config jobs).turn isSync handle env p.shared := rfl
    rw [hflag, h.flag] at hturn
    cases worker with
    | some working =>
      obtain ⟨rfl, hshared⟩ := Prod.mk.inj
        (show ((.ret () : Method Unit), p.shared) = (process, p'.shared) from hturn)
      refine ⟨some working, h.rest_moves hr (.inl rfl) hrequest ?_ ?_ ?_⟩
      all_goals rw [← hshared]
      · exact fun stage hstage => hstage
      · exact fun hrecorded => hrecorded
    | none =>
      obtain ⟨rfl, hshared⟩ := Prod.mk.inj
        (show (findAndSend config env.now, { p.shared with processing := true }) =
          (process, p'.shared) from hturn)
      refine ⟨some (r, .finding env.now), ?_, ?_, ?_, nofun⟩
      · rw [← hshared]
        rfl
      · intro r' stage hworker
        cases hworker
        refine ⟨⟨.processQueue, by rw [hrequest, Function.update_self]; rfl⟩, ?_⟩
        rw [← hshared]
        exact h.idle rfl
      · intro r' call' process' hr' hne
        rw [hrequest, Function.update_apply] at hr'
        split at hr'
        · next hsame =>
          rw [hsame] at hne
          exact absurd rfl (hne _)
        · exact h.rests r' call' process' hr' nofun

theorem Inv.resumed {env : Env} {o : EmailOp} {k : emailInterface.Answer o → Method Unit}
    (h : Inv config id p worker) (hawaits : p.request r = some (call, .await o k))
    (hturn : (k (handle env p.shared o).1).turn isSync handle env (handle env p.shared o).2 =
      (process, p'.shared))
    (hrequest : p'.request = Function.update p.request r (some (call, process))) :
    ∃ worker', Inv config id p' worker' := by
  by_cases hworker : ∃ stage, worker = some (r, stage)
  · obtain ⟨stage, rfl⟩ := hworker
    obtain ⟨⟨call', hcall⟩, hholds⟩ := h.works r stage rfl
    have hprocess : stage.process config = .await o k :=
      (Prod.mk.inj (Option.some.inj (hcall.symm.trans hawaits))).2
    have hflag : p.shared.processing = true := h.flag
    cases stage with
    | finding now =>
      have hfind : Process.await (I := emailInterface) (.find now)
        (fun jobs => sendAll config jobs) = .await o k := hprocess
      cases hfind
      exact h.worker_sends hturn hrequest hflag (batch_dueJobs p.shared now) hholds
    | sending job jobs =>
      have hsend := (sendAll_enabled hholds.1 job jobs).symm.trans hprocess
      cases hsend
      obtain ⟨rfl, hshared⟩ := Prod.mk.inj
        (show (saveAndGo config (Email.settled env.now (attempted job) env.mail) jobs,
          { p.shared with attempts := ⟨job.id, env.mail.isOk⟩ :: p.shared.attempts }) =
            (process, p'.shared) from hturn)
      refine ⟨_, h.worker_moves (.saving _ jobs) hrequest ?_ ?_⟩
      · rw [← hshared]
        exact hflag
      · rw [← hshared]
        exact hholds.answered
    | saving job jobs =>
      have hsave : Process.await (I := emailInterface) (.save job) (fun _ => sendAll config jobs) =
        .await o k := hprocess
      cases hsave
      exact h.worker_sends hturn hrequest hflag hholds.saved.1 hholds.saved.2
  · have hr (stage : Stage) : worker ≠ some (r, stage) := fun hsome => hworker ⟨stage, hsome⟩
    rcases h.rests r call _ hawaits hr with hdone | hfailed | ⟨recipient, subject, html, henqueue⟩
    · cases hdone
    · cases hfailed
    · have hinsert : Process.await o k =
        .await (I := emailInterface) (.insert recipient subject html) fun inserted =>
          if inserted then pure () else .fail .duplicateKey := henqueue
      cases hinsert
      cases hfresh : p.shared.queue.get env.uuid with
      | none =>
        have hanswer : handle env p.shared (.insert recipient subject html) =
            (true, { p.shared with
              queue := p.shared.queue.save (newJob env recipient subject html) }) := by
          rw [handle, hfresh]
          rfl
        rw [hanswer] at hturn
        obtain ⟨rfl, hshared⟩ := Prod.mk.inj
          (show ((.ret () : Method Unit), { p.shared with
            queue := p.shared.queue.save (newJob env recipient subject html) }) =
              (process, p'.shared) from hturn)
        refine ⟨worker, h.rest_moves hr (.inl rfl) hrequest ?_ ?_ ?_⟩
        all_goals rw [← hshared]
        · exact fun stage hstage => hstage.enqueued hfresh
        · exact Recorded.enqueued hfresh
      | some job =>
        have hanswer : handle env p.shared (.insert recipient subject html) =
            (false, p.shared) := by
          rw [handle, hfresh]
          rfl
        rw [hanswer] at hturn
        obtain ⟨rfl, hshared⟩ := Prod.mk.inj
          (show ((.fail .duplicateKey : Method Unit), p.shared) = (process, p'.shared) from hturn)
        refine ⟨worker, h.rest_moves hr (.inr (.inl rfl)) hrequest ?_ ?_ ?_⟩
        all_goals rw [← hshared]
        · exact fun stage hstage => hstage
        · exact fun hrecorded => hrecorded

end Steps

theorem inv_reached {start : State} (hstart : start.processing = false)
    (hrecorded : Recorded config (tries start id) (start.queue.get id))
    (schedule : List (EmailEvent R)) :
    ∃ worker, Inv config id (reached config start schedule) worker := by
  induction schedule with
  | nil => exact ⟨none, hstart, nofun, nofun, fun _ => hrecorded⟩
  | cons i past ih =>
    obtain ⟨worker, h⟩ := ih
    cases System.turns_of_exec (System.after_execTurn isSync (system config) past i) with
    | called r env call process event free turn request => exact h.called free turn request
    | resumed r env call o k process event awaits turn request =>
      exact h.resumed awaits turn request
    | idle same =>
      have hsame : reached config start (i :: past) = reached config start past := same
      exact ⟨worker, by rwa [hsame]⟩

/-! ## What follows -/

theorem Recorded.bounds {tried : List Bool} {stored : Option EmailQueue}
    (h : Recorded config tried stored) : tried.count true ≤ 1 ∧ tried.length ≤ maxAttempts := by
  have hfailures (n : Nat) : (List.replicate n false).count true = 0 :=
    List.count_eq_zero.mpr fun hmem => Bool.noConfusion (List.eq_of_mem_replicate hmem)
  cases stored with
  | none =>
    rw [show tried = [] from h]
    exact ⟨Nat.zero_le 1, Nat.zero_le _⟩
  | some job =>
    unfold Recorded at h
    dsimp only at h
    split at h
    · obtain ⟨hfewer, rfl⟩ := h
      rw [hfailures, List.length_replicate]
      exact ⟨Nat.zero_le 1, hfewer.le⟩
    · obtain ⟨failures, hfewer, rfl | ⟨-, rfl⟩⟩ := h
      · rw [List.count_cons_self, hfailures, List.length_cons, List.length_replicate]
        exact ⟨le_refl 1, hfewer⟩
      · rw [hfailures, List.length_replicate]
        exact ⟨Nat.zero_le 1, hfewer.le⟩
    · rw [h, hfailures, List.length_replicate]
      exact ⟨Nat.zero_le 1, le_refl _⟩

/-- A job that is no longer pending. -/
theorem Recorded.left {tried : List Bool} (h : Recorded config tried (some job))
    (hleft : job.status ≠ .pending) :
    job.status = .sent ∧ (true ∈ tried ∨ config.enabled = false) ∨
      job.status = .failed ∧ tried = [false, false, false] := by
  unfold Recorded at h
  dsimp only at h
  split at h
  · next hpending => exact absurd hpending hleft
  · next hsent =>
    obtain ⟨failures, -, rfl | ⟨hdisabled, -⟩⟩ := h
    · exact .inl ⟨hsent, .inl List.mem_cons_self⟩
    · exact .inl ⟨hsent, .inr hdisabled⟩
  · next hfailed => exact .inr ⟨hfailed, h⟩

section Consequences

variable {p : EmailPool R} {worker : Option (R × Stage)} {r : R}

omit [DecidableEq R] in
/-- Who waits for the mail server is the worker. -/
theorem Inv.sending (h : Inv config id p worker) {key : String} (hr : Sending p r key) :
    ∃ job jobs, worker = some (r, .sending job jobs) ∧ job.id = key := by
  obtain ⟨call, mail, k, hawaits⟩ := hr
  by_cases hworker : ∃ stage, worker = some (r, stage)
  · obtain ⟨stage, rfl⟩ := hworker
    obtain ⟨⟨call', hcall⟩, hholds⟩ := h.works r stage rfl
    have hprocess : stage.process config = .await (.sendMail key mail) k :=
      (Prod.mk.inj (Option.some.inj (hcall.symm.trans hawaits))).2
    cases stage with
    | finding now => cases hprocess
    | saving job jobs => cases hprocess
    | sending job jobs =>
      have hsend := (sendAll_enabled hholds.1 job jobs).symm.trans hprocess
      cases hsend
      exact ⟨job, jobs, rfl, rfl⟩
  · rcases h.rests r call _ hawaits fun stage hsome => hworker ⟨stage, hsome⟩ with
      hdone | hfailed | ⟨recipient, subject, html, henqueue⟩
    · cases hdone
    · cases hfailed
    · cases henqueue

omit [DecidableEq R] in
/-- What is stored of a job, or about to be. -/
theorem Inv.recorded (h : Inv config id p worker) :
    ∃ stored, Recorded config (tries p.shared id) stored ∧
      ∀ job, p.shared.queue.get id = some job → job.status ≠ .pending → stored = some job := by
  cases worker with
  | none => exact ⟨_, h.idle rfl, fun job hjob _ => hjob⟩
  | some working =>
    obtain ⟨r, stage⟩ := working
    have hholds := (h.works r stage rfl).2
    cases stage with
    | finding now => exact ⟨_, hholds, fun job hjob _ => hjob⟩
    | sending first jobs => exact ⟨_, hholds.2.2, fun job hjob _ => hjob⟩
    | saving first jobs =>
      obtain ⟨-, -, ⟨before, hbefore, hpending⟩, hrecorded⟩ := hholds
      refine ⟨_, hrecorded, fun job hjob hleft => ?_⟩
      split
      · next hid =>
        -- It is pending until it is saved.
        rw [hid, hbefore] at hjob
        cases hjob
        exact absurd hpending hleft
      · exact hjob

omit [DecidableEq R] in
theorem deliveredOnce_of_inv (h : Inv config id p worker) : DeliveredOnce config p id := by
  obtain ⟨stored, hrecorded, hstored⟩ := h.recorded
  refine ⟨hrecorded.bounds.1, hrecorded.bounds.2, fun r hr => ?_, fun r r' hr hr' => ?_,
    fun job hjob hleft => ?_⟩
  · obtain ⟨job, jobs, rfl, rfl⟩ := h.sending hr
    obtain ⟨-, hbatch, htried⟩ := (h.works r _ rfl).2
    obtain ⟨hjob, hpending⟩ := hbatch.1 job List.mem_cons_self
    rw [hjob, recorded_pending hpending] at htried
    obtain ⟨hfewer, htried⟩ := htried
    rw [htried, List.length_replicate]
    exact ⟨fun hmem => Bool.noConfusion (List.eq_of_mem_replicate hmem), hfewer⟩
  · obtain ⟨job, jobs, rfl, -⟩ := h.sending hr
    obtain ⟨job', jobs', hsame, -⟩ := h.sending hr'
    cases hsame
    rfl
  · rw [hstored job hjob hleft] at hrecorded
    exact hrecorded.left hleft

end Consequences

/-- After every schedule an email was delivered at most once, if what was stored of it at the
beginning, if anything, said so. -/
theorem email_delivered_once (config : Config) (start : State) (id : String)
    (hstart : start.processing = false)
    (hrecorded : Recorded config (tries start id) (start.queue.get id))
    (schedule : List (EmailEvent R)) : DeliveredOnce config (reached config start schedule) id := by
  obtain ⟨worker, h⟩ := inv_reached hstart hrecorded schedule
  exact deliveredOnce_of_inv h

def exampleConfig : Config := ⟨true, some "noreply@scoopdope.example"⟩

def exampleStart : State := ⟨.empty, false, []⟩

/-- A first attempt fails. A minute later the mail is sent. -/
def exampleRetry : List (EmailEvent Nat) :=
  [.resume 3 ⟨60003, "", .ok ()⟩, .resume 3 ⟨60002, "", .ok ()⟩, .resume 3 ⟨60001, "", .ok ()⟩,
    .call 3 ⟨60001, "", .ok ()⟩ .processQueue, .resume 2 ⟨1, "", .ok ()⟩,
    .resume 2 ⟨1, "", .error "connection lost"⟩, .resume 2 ⟨1, "", .ok ()⟩,
    .call 2 ⟨1, "", .ok ()⟩ .processQueue, .resume 1 ⟨0, "k", .ok ()⟩,
    .call 1 ⟨0, "k", .ok ()⟩ (.enqueue "u1" "Welcome" "")]

theorem email_delivered_once_retry :
    tries (reached exampleConfig exampleStart exampleRetry).shared "k" = [true, false] ∧
    DeliveredOnce exampleConfig (reached exampleConfig exampleStart exampleRetry) "k" :=
  ⟨by decide +kernel, email_delivered_once exampleConfig exampleStart "k" rfl rfl exampleRetry⟩

/-- An email is enqueued and processed. -/
def exampleProcessed : List (EmailEvent Nat) :=
  [.resume 2 ⟨1, "", .ok ()⟩, .resume 2 ⟨1, "", .ok ()⟩, .call 2 ⟨1, "", .ok ()⟩ .processQueue,
    .resume 1 ⟨0, "k", .ok ()⟩, .call 1 ⟨0, "k", .ok ()⟩ (.enqueue "u1" "Welcome" "")]

/-- Where mail is disabled, a job leaves PENDING without being sent. -/
theorem sent_without_mail :
    ((reached ⟨false, none⟩ exampleStart exampleProcessed).shared.queue.get "k").map
        EmailQueue.status = some .sent ∧
      tries (reached ⟨false, none⟩ exampleStart exampleProcessed).shared "k" = [] := by
  decide +kernel

end Scoopdope.Email
