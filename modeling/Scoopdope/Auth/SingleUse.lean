import Scoopdope.Async.Pool
import Scoopdope.Auth.Service

/-!
# Authentication: tokens are used once

`refresh` and `resetPassword` look a token up that is not marked as used, and mark it later,
with other requests in between. Two requests that have both found a token unmarked both
accept it.

`tokens_single_use_iff`: throughout a schedule no token is accepted twice, exactly when every
request that marks a token finds it still unmarked. `token_used_twice` is a refresh token
that two requests exchange for new tokens.
-/

namespace Scoopdope.Auth.SingleUse

open Async Database Server Soroban Users

inductive Call
  | refresh (rawRefreshToken : String)
  | resetPassword (token newPassword : String)

/-- What a call answers. -/
inductive Answer
  | tokens (pair : TokenPair)
  | reset
deriving DecidableEq

def Call.start (crypto : Crypto) : Call → Service authInterface Answer
  | .refresh rawRefreshToken => do
    let pair ← TokenService.refresh crypto rawRefreshToken
    pure (.tokens pair)
  | .resetPassword token newPassword => do
    AuthService.resetPassword crypto token newPassword
    pure .reset

variable (crypto : Crypto)

def system : System authInterface Env HttpException Answer State Call where
  start := Call.start crypto
  handle := handle

abbrev TokenPool (R : Type) : Type := Pool authInterface Env HttpException Answer State Call R

abbrev TokenEvent (R : Type) : Type := Event Env Call R

variable {R : Type} [DecidableEq R]

/-- What is reached from `s` by a schedule, newest event first. -/
def reached (s : State) (schedule : List (TokenEvent R)) : TokenPool R :=
  after (system crypto).exec (Pool.idle s) schedule

/-- An issued token, by its row. -/
inductive Token
  | refresh (id : String)
  | reset (id : String)
deriving DecidableEq

/-- Is the token marked as used? -/
def marked (s : State) : Token → Option Bool
  | .refresh id => (s.refreshTokens.get id).map RefreshToken.revoked
  | .reset id => (s.resetTokens.get id).map PasswordResetToken.used

/-- The token that an operation marks. -/
def marks : Auth.Op → Option Token
  | .saveRefreshToken token => if token.revoked then some (.refresh token.id) else none
  | .saveResetToken token => if token.used then some (.reset token.id) else none
  | _ => none

def noteAccepted (pool : TokenPool R) (tokens : List (R × Token)) (i : TokenEvent R) :
    List (R × Token) :=
  match pool.performs i with
  | some (r, _, _, o) => ((marks o).map fun token => (r, token)).toList ++ tokens
  | none => tokens

/-- The tokens that have been accepted, each with the request that has accepted it, newest
first. A token is accepted when it is marked. -/
def accepted (s : State) : List (TokenEvent R) → List (R × Token) :=
  traced (system crypto).exec (Pool.idle s) (fun tokens pool i => noteAccepted pool tokens i) []

/-- No token is accepted twice. -/
def AtMostOnce (s : State) (schedule : List (TokenEvent R)) : Prop :=
  ((accepted crypto s schedule).map Prod.snd).Nodup

/-- A request that marks a token finds it unmarked. -/
def FirstToMark (s : State) (earlier : List (TokenEvent R)) (i : TokenEvent R) : Prop :=
  ∀ r env c o token, (reached crypto s earlier).performs i = some (r, env, c, o) →
    marks o = some token → marked (reached crypto s earlier).shared token ≠ some true

/-! ## What an operation does to the marks -/

/-- An operation that marks nothing, and takes no mark away. -/
def Plain : Auth.Op → Prop
  | .saveRefreshToken _ => False
  | .saveResetToken _ => False
  | _ => True

theorem marked_of_marks {env : Env} {s : State} {o : Auth.Op} {token : Token}
    (h : marks o = some token) (other : Token) :
    marked (handle env s o).2 other = if other = token then some true else marked s other := by
  unfold marks at h
  split at h
  · next row =>
    split at h
    · next hrevoked =>
      cases h
      cases other with
      | refresh id =>
        simp only [marked, handle, Repository.get_save, Token.refresh.injEq]
        split
        · rw [Option.map_some, hrevoked]
        · rfl
      | reset id => simp [marked, handle]
    · cases h
  · next row =>
    split at h
    · next hused =>
      cases h
      cases other with
      | refresh id => simp [marked, handle]
      | reset id =>
        simp only [marked, handle, Repository.get_save, Token.reset.injEq]
        split
        · rw [Option.map_some, hused]
        · rfl
    · cases h
  · cases h

theorem marked_of_plain {env : Env} {s : State} {o : Auth.Op} (h : Plain o) (token : Token) :
    marked (handle env s o).2 token = marked s token ∨
      marked s token = none ∧ marked (handle env s o).2 token = some false := by
  cases o with
  | saveRefreshToken row => exact h.elim
  | saveResetToken row => exact h.elim
  | insertRefreshToken tokenHash userId expiresAt =>
    cases token with
    | reset id =>
      left
      unfold handle
      simp only
      split <;> rfl
    | refresh id =>
      unfold handle
      simp only
      split
      · exact .inl rfl
      · next hnew =>
        simp only [marked, Repository.get_save]
        split
        · next hid =>
          right
          rw [hid]
          simp only [Option.not_isSome_iff_eq_none] at hnew
          exact ⟨by rw [hnew, Option.map_none], rfl⟩
        · exact .inl rfl
  | users o => exact .inl (by cases token <;> rfl)
  | findRefreshToken tokenHash => exact .inl rfl
  | findResetToken tokenHash => exact .inl rfl
  | log entry => exact .inl (by cases token <;> rfl)

theorem marks_of_plain {o : Auth.Op} (h : Plain o) : marks o = none := by
  cases o with
  | saveRefreshToken row => exact h.elim
  | saveResetToken row => exact h.elim
  | _ => rfl

/-! ## The points of a request -/

/-- The token is stored, and accepted if it is marked. -/
def Known (shared : State) (tokens : List (R × Token)) (token : Token) : Prop :=
  marked shared token ≠ none ∧
    (marked shared token = some true → token ∈ tokens.map Prod.snd)

/-- Where a request is: it marks the token that it has found, once. -/
inductive Point (crypto : Crypto) (shared : State) (tokens : List (R × Token)) (r : R)
    (c : Call) : Service authInterface Answer → Prop
  | start : Point crypto shared tokens r c (c.start crypto)
  | holding (process : Service authInterface Answer) (token : Token)
      (known : Known shared tokens token)
      (once : process.Once Plain fun o => marks o = some token) :
      Point crypto shared tokens r c process
  | done (process : Service authInterface Answer) (token : Token)
      (accepted : (r, token) ∈ tokens) (only : process.Only Plain) :
      Point crypto shared tokens r c process
  | failed (x : HttpException) : Point crypto shared tokens r c (.fail x)

variable {crypto}

/-- Methods of `UsersService` mark nothing. -/
theorem only_users {A : Type} (p : Service usersInterface A) :
    (p.lift ofUsers).Only Plain :=
  Process.only_lift (fun _ => trivial) p

theorem only_issueTokenPair (userId email role : String) :
    (TokenService.issueTokenPair crypto userId email role).Only Plain := by
  refine fun env => ⟨trivial, fun _ => Process.only_bind trivial fun row => ?_⟩
  exact Process.only_bind (only_orThrow duplicateKey row) fun _ => trivial

/-- `refresh`, once it has found a token. -/
def exchange (crypto : Crypto) (stored : RefreshToken) : Service authInterface TokenPair := do
  let env ← Process.env
  if stored.expiresAt < env.now then .fail (.unauthorized "Refresh token has expired")
  else
    query (.saveRefreshToken { stored with revoked := true })
    let user ← orThrow (.unauthorized "User not found") (← findById stored.userId)
    TokenService.issueTokenPair crypto (user .id) (user .email) (user .role)

theorem once_exchange (stored : RefreshToken) :
    (exchange crypto stored).Once Plain fun o => marks o = some (.refresh stored.id) := by
  intro env
  change Process.Once _ _ (if _ then _ else _ : Service authInterface TokenPair)
  split
  · trivial
  · refine .inl ⟨rfl, fun _ => Process.only_bind trivial fun _ => ?_⟩
    refine Process.only_bind (only_users _) fun user => ?_
    exact Process.only_bind (only_orThrow _ user) fun user => only_issueTokenPair _ _ _

/-- `resetPassword`, once it has found a token. -/
def changePassword (crypto : Crypto) (newPassword : String) (resetToken : PasswordResetToken) :
    Service authInterface Unit := do
  let env ← Process.env
  if resetToken.expiresAt < env.now then .fail (.badRequest "Reset token has expired")
  else
    let passwordHash := crypto.hash (env.random 0) newPassword
    let _ ← update resetToken.userId (Patch.empty.set .passwordHash passwordHash)
    query (.saveResetToken { resetToken with used := true })
    log .passwordResetComplete (some resetToken.userId) true [] none none

theorem once_changePassword (newPassword : String) (resetToken : PasswordResetToken) :
    (changePassword crypto newPassword resetToken).Once Plain fun o =>
      marks o = some (.reset resetToken.id) := by
  intro env
  change Process.Once _ _ (if _ then _ else _ : Service authInterface Unit)
  split
  · trivial
  · refine Process.once_bind (only_users _) fun user => ?_
    exact .inl ⟨rfl, fun _ => ⟨trivial, fun _ => trivial⟩⟩

theorem Call.start_refresh (rawRefreshToken : String) :
    (Call.refresh rawRefreshToken).start crypto =
      .await (.findRefreshToken (crypto.sha256 rawRefreshToken)) fun found =>
        (orThrow (.unauthorized "Invalid or revoked refresh token") found >>=
          exchange crypto) >>= fun pair => pure (.tokens pair) := rfl

theorem Call.start_resetPassword (token newPassword : String) :
    (Call.resetPassword token newPassword).start crypto =
      .await (.findResetToken (crypto.sha256 token)) fun found =>
        (orThrow (.badRequest "Invalid or expired reset token") found >>=
          changePassword crypto newPassword) >>= fun _ => pure .reset := rfl

/-! ## What an event does -/

variable {s : State} {past : List (TokenEvent R)} {i : TokenEvent R}

theorem accepted_cons (past : List (TokenEvent R)) (i : TokenEvent R) :
    accepted crypto s (i :: past) =
      noteAccepted (reached crypto s past) (accepted crypto s past) i := rfl

/-- The marks and the accepted tokens from one point of a schedule to the next. -/
structure Later (shared shared' : State) (tokens tokens' : List (R × Token)) : Prop where
  accepted : tokens ⊆ tokens'
  kept : ∀ token, marked shared token ≠ none → marked shared' token = marked shared token ∨
    marked shared' token = some true ∧ token ∈ tokens'.map Prod.snd
  marks : ∀ token ∈ tokens'.map Prod.snd,
    token ∈ tokens.map Prod.snd ∨ marked shared' token = some true

omit [DecidableEq R] in
theorem Known.later {shared shared' : State} {tokens tokens' : List (R × Token)} {token : Token}
    (h : Known shared tokens token) (hlater : Later shared shared' tokens tokens') :
    Known shared' tokens' token := by
  rcases hlater.kept token h.1 with hsame | ⟨hmarked, haccepted⟩
  · rw [Known, hsame]
    exact ⟨h.1, fun hm => List.map_subset _ hlater.accepted (h.2 hm)⟩
  · rw [Known, hmarked]
    exact ⟨nofun, fun _ => haccepted⟩

omit [DecidableEq R] in
theorem Point.later {shared shared' : State} {tokens tokens' : List (R × Token)} {r : R}
    {c : Call} {process : Service authInterface Answer}
    (h : Point crypto shared tokens r c process) (hlater : Later shared shared' tokens tokens') :
    Point crypto shared' tokens' r c process := by
  cases h with
  | start => exact .start
  | holding _ token known once => exact .holding _ token (known.later hlater) once
  | done _ token accepted only => exact .done _ token (hlater.accepted accepted) only
  | failed x => exact .failed x

omit [DecidableEq R] in
/-- What a request awaits marks nothing, or it marks a known token. -/
theorem Point.awaits {shared : State} {tokens : List (R × Token)} {r : R} {c : Call}
    {o : Auth.Op} {k : o.answer → Service authInterface Answer}
    (h : Point crypto shared tokens r c (.await (I := authInterface) o k)) :
    Plain o ∨ ∃ token, marks o = some token ∧ Known shared tokens token := by
  generalize hprocess : (Process.await (I := authInterface) o k : Service authInterface Answer) =
    process at h
  cases h with
  | start =>
    cases c with
    | refresh raw => rw [Call.start_refresh] at hprocess; cases hprocess; exact .inl trivial
    | resetPassword token new =>
      rw [Call.start_resetPassword] at hprocess; cases hprocess; exact .inl trivial
  | holding _ token known once =>
    subst hprocess
    rcases once with ⟨hmarks, -⟩ | ⟨hplain, -⟩
    · exact .inr ⟨token, hmarks, known⟩
    · exact .inl hplain
  | done _ token accepted only =>
    subst hprocess
    exact .inl only.1
  | failed x => cases hprocess

/-- What holds at every point of a schedule. -/
structure Inv (crypto : Crypto) (s : State) (schedule : List (TokenEvent R)) : Prop where
  marks : ∀ token ∈ (accepted crypto s schedule).map Prod.snd,
    marked (reached crypto s schedule).shared token = some true
  points : ∀ r c process, (reached crypto s schedule).request r = some (c, process) →
    Point crypto (reached crypto s schedule).shared (accepted crypto s schedule) r c process

theorem accepted_of_performs {r : R} {env : Env} {c : Call} {o : Auth.Op}
    (h : (reached crypto s past).performs i = some (r, env, c, o)) :
    accepted crypto s (i :: past) =
      ((marks o).map fun token => (r, token)).toList ++ accepted crypto s past := by
  rw [accepted_cons, noteAccepted, h]

theorem accepted_of_performs_none (h : (reached crypto s past).performs i = none) :
    accepted crypto s (i :: past) = accepted crypto s past := by
  rw [accepted_cons, noteAccepted, h]

theorem Inv.later (h : Inv crypto s past) :
    Later (reached crypto s past).shared (reached crypto s (i :: past)).shared
      (accepted crypto s past) (accepted crypto s (i :: past)) := by
  have hquiet (hnone : (reached crypto s past).performs i = none)
      (hshared : (reached crypto s (i :: past)).shared = (reached crypto s past).shared) :
      Later (reached crypto s past).shared (reached crypto s (i :: past)).shared
        (accepted crypto s past) (accepted crypto s (i :: past)) := by
    rw [accepted_of_performs_none hnone, hshared]
    exact ⟨List.Subset.refl _, fun _ _ => .inl rfl, fun _ htoken => .inl htoken⟩
  cases System.exec_happens (System.after_exec (system crypto) past i) with
  | called r env c event free performs shared request => exact hquiet performs shared
  | idle performs same => exact hquiet performs (congrArg Pool.shared same)
  | resumed r env c o k performs awaits shared request =>
    have hshared : (reached crypto s (i :: past)).shared =
      (handle env (reached crypto s past).shared o).2 := shared
    rw [accepted_of_performs performs, hshared]
    rcases (h.points r c _ awaits).awaits with hplain | ⟨token, hmarks, known⟩
    · rw [marks_of_plain hplain]
      refine ⟨List.Subset.refl _, fun token hstored => ?_, fun _ htoken => .inl htoken⟩
      rcases marked_of_plain hplain token with hsame | ⟨hnone, -⟩
      · exact .inl hsame
      · exact absurd hnone hstored
    · rw [hmarks]
      refine ⟨List.subset_cons_self _ _, fun other _ => ?_, fun other hother => ?_⟩
      · rw [marked_of_marks hmarks]
        split
        · next hsame => exact .inr ⟨rfl, by simp [hsame]⟩
        · exact .inl rfl
      · rcases List.mem_cons.mp hother with rfl | hother
        · exact .inr (by rw [marked_of_marks hmarks, if_pos rfl])
        · exact .inl hother

omit [DecidableEq R] in
/-- A token that is looked up and found is known. -/
theorem known_refresh {shared : State} (tokens : List (R × Token)) {row : RefreshToken}
    {p : RefreshToken → Bool} (h : shared.refreshTokens.findOne p = some row)
    (hp : p row = true → row.revoked = false) : Known shared tokens (.refresh row.id) := by
  obtain ⟨hrow, hget⟩ := Repository.findOne_some h
  have hmarked : marked shared (.refresh row.id) = some false := by
    rw [marked, hget, Option.map_some, hp hrow]
  rw [Known, hmarked]
  exact ⟨nofun, nofun⟩

omit [DecidableEq R] in
theorem known_reset {shared : State} (tokens : List (R × Token)) {row : PasswordResetToken}
    {p : PasswordResetToken → Bool} (h : shared.resetTokens.findOne p = some row)
    (hp : p row = true → row.used = false) : Known shared tokens (.reset row.id) := by
  obtain ⟨hrow, hget⟩ := Repository.findOne_some h
  have hmarked : marked shared (.reset row.id) = some false := by
    rw [marked, hget, Option.map_some, hp hrow]
  rw [Known, hmarked]
  exact ⟨nofun, nofun⟩

omit [DecidableEq R] in
/-- A request that has got an answer, with the mark that it has made, if any. -/
theorem Point.resumes {shared shared' : State} {tokens tokens' : List (R × Token)} {r : R}
    {env : Env} {c : Call} {o : Auth.Op} {k : o.answer → Service authInterface Answer}
    (h : Point crypto shared tokens r c (.await (I := authInterface) o k))
    (hlater : Later shared shared' tokens tokens')
    (hmarks : ∀ token, marks o = some token → (r, token) ∈ tokens') :
    Point crypto shared' tokens' r c ((k (handle env shared o).1).settle env) := by
  generalize hprocess : (Process.await (I := authInterface) o k : Service authInterface Answer) =
    process at h
  cases h with
  | start =>
    cases c with
    | refresh raw =>
      rw [Call.start_refresh] at hprocess
      cases hprocess
      change Point _ _ _ r _ (Process.settle env ((orThrow _ (shared.refreshTokens.findOne _) >>=
        exchange crypto) >>= _))
      cases hfound : shared.refreshTokens.findOne fun token =>
          token.tokenHash = crypto.sha256 raw ∧ token.revoked = false with
      | none => exact .failed _
      | some row =>
        have hknown := known_refresh tokens hfound fun hrow => by simp_all
        refine .holding _ _ (hknown.later hlater) (Process.once_settle env ?_)
        exact Process.once_bind_only (once_exchange row) fun _ => trivial
    | resetPassword token newPassword =>
      rw [Call.start_resetPassword] at hprocess
      cases hprocess
      change Point _ _ _ r _ (Process.settle env ((orThrow _ (shared.resetTokens.findOne _) >>=
        changePassword crypto newPassword) >>= _))
      cases hfound : shared.resetTokens.findOne fun row =>
          row.tokenHash = crypto.sha256 token ∧ row.used = false with
      | none => exact .failed _
      | some row =>
        have hknown := known_reset tokens hfound fun hrow => by simp_all
        refine .holding _ _ (hknown.later hlater) (Process.once_settle env ?_)
        exact Process.once_bind_only (once_changePassword newPassword row) fun _ => trivial
  | holding _ token known once =>
    subst hprocess
    rcases once with ⟨htoken, honly⟩ | ⟨hplain, honce⟩
    · exact .done _ token (hmarks token htoken) (Process.only_settle env (honly _))
    · exact .holding _ token (known.later hlater) (Process.once_settle env (honce _))
  | done _ token accepted only =>
    subst hprocess
    exact .done _ token (hlater.accepted accepted) (Process.only_settle env (only.2 _))
  | failed x => cases hprocess

theorem Inv.step (h : Inv crypto s past) : Inv crypto s (i :: past) := by
  have hlater := h.later (i := i)
  constructor
  · intro token htoken
    rcases hlater.marks token htoken with hbefore | hnow
    · have hmarked := h.marks token hbefore
      rcases hlater.kept token (by rw [hmarked]; exact nofun) with hsame | ⟨hnow, -⟩
      · rw [hsame, hmarked]
      · exact hnow
    · exact hnow
  · refine System.requests_step h.points ?_ ?_ ?_ (System.after_exec _ past i)
    · intro r c process _ _ hpoint
      exact hpoint.later hlater
    · intro r env c _ _
      cases c <;> exact .start
    · intro r env c o k hperforms hr hpoint
      refine hpoint.resumes hlater fun token hmarks => ?_
      rw [accepted_of_performs hperforms, hmarks]
      exact List.mem_cons_self

variable (crypto s) in
theorem inv (schedule : List (TokenEvent R)) : Inv crypto s schedule := by
  induction schedule with
  | nil => exact ⟨nofun, nofun⟩
  | cons i past ih => exact ih.step

/-! ## Single use -/

theorem atMostOnce_cons (h : AtMostOnce crypto s past) :
    AtMostOnce crypto s (i :: past) ↔ FirstToMark crypto s past i := by
  have hinv := inv crypto s past
  rw [AtMostOnce]
  cases hperforms : (reached crypto s past).performs i with
  | none =>
    rw [accepted_of_performs_none hperforms]
    refine iff_of_true h fun r env c o token h => ?_
    rw [hperforms] at h
    cases h
  | some performed =>
    obtain ⟨r, env, c, o⟩ := performed
    rw [accepted_of_performs hperforms]
    cases hmarks : marks o with
    | none =>
      refine iff_of_true h fun r' env' c' o' token h htoken => ?_
      cases hperforms.symm.trans h
      rw [hmarks] at htoken
      cases htoken
    | some token =>
      have hknown : Known (reached crypto s past).shared (accepted crypto s past) token := by
        obtain ⟨k, hr⟩ := System.awaits_of_performs hperforms
        rcases (hinv.points r c _ hr).awaits with hplain | ⟨token', hmarks', known⟩
        · rw [marks_of_plain hplain] at hmarks
          cases hmarks
        · cases hmarks.symm.trans hmarks'
          exact known
      simp only [Option.map_some, Option.toList_some, List.singleton_append, List.map_cons,
        List.nodup_cons]
      constructor
      · rintro ⟨hnew, -⟩ r' env' c' o' token' h htoken hmarked
        cases hperforms.symm.trans h
        cases hmarks.symm.trans htoken
        exact hnew (hknown.2 hmarked)
      · intro hfirst
        exact ⟨fun hold => hfirst r env c o token hperforms hmarks (hinv.marks token hold), h⟩

/-- Throughout a schedule no refresh token and no reset token is accepted twice, exactly
when every request that marks a token as used finds it not yet marked. -/
theorem tokens_single_use_iff (crypto : Crypto) (s : State) (schedule : List (TokenEvent R)) :
    (∀ earlier, earlier <:+ schedule → AtMostOnce crypto s earlier) ↔
      Guarded (FirstToMark crypto s) schedule :=
  throughout_iff_guarded (P := AtMostOnce crypto s) List.nodup_nil schedule
    fun _ _ _ h => atMostOnce_cons h

/-! ## A token that is used twice -/

def exampleCrypto : Crypto :=
  .sample "5f1d5f1d5f1d5f1d5f1d5f1d5f1d5f1d5f1d5f1d5f1d5f1d5f1d5f1d5f1d5f1d"
    "ac36081c687d23267ef3b59ba3c0557a88b592cb909f440927ecf6697d4d6399"

/-- A user with one refresh token. -/
def exampleState : State where
  users := Repository.empty.save (User.default "u" 0)
  refreshTokens := Repository.empty.save
    { id := "t", tokenHash := "ac36081c687d23267ef3b59ba3c0557a88b592cb909f440927ecf6697d4d6399"
      userId := "u", expiresAt := 1, revoked := false, createdAt := 0 }
  resetTokens := .empty
  auditLogs := []

/-- Two requests with the same refresh token, step by step together. Newest event first. -/
def together : List (TokenEvent Bool) :=
  let env (uuid : String) : Env := ⟨0, uuid, fun _ => uuid⟩
  let raw := "5f1d5f1d5f1d5f1d5f1d5f1d5f1d5f1d5f1d5f1d5f1d5f1d5f1d5f1d5f1d5f1d"
  [ .resume true (env "t1"), .resume false (env "t2"), .resume true (env ""),
    .resume false (env ""), .resume true (env ""), .resume false (env ""),
    .resume true (env ""), .resume false (env ""), .call true (env "") (.refresh raw),
    .call false (env "") (.refresh raw) ]

/-- Both requests are answered with new tokens. -/
theorem token_used_twice :
    (∀ r, ((reached exampleCrypto exampleState together).result r).map
        (fun done => done.2.toOption.isSome) = some true) ∧
      accepted exampleCrypto exampleState together =
        [(true, .refresh "t"), (false, .refresh "t")] ∧
      ¬ AtMostOnce exampleCrypto exampleState together := by
  have htwice : accepted exampleCrypto exampleState together =
      [(true, .refresh "t"), (false, .refresh "t")] := by decide +kernel
  refine ⟨by decide +kernel, htwice, fun h => ?_⟩
  rw [AtMostOnce, htwice] at h
  exact absurd h (by decide)

end Scoopdope.Auth.SingleUse
