import UrlShortener.Spec.Auth
import UrlShortener.Proof.Time
import UrlShortener.Runs.Basic

/-!
# Sessions over whole runs

* `step_sessions`, `step_users`: what one operation does to the two tables. It changes rows in place, keeping
  what identifies them, and appends at most one.
* `run_session`, `run_user`: a row that is there stays, with the revocations and deactivations since.
* `session_origin`: every session was issued by an operation of the run.
* `token_active_iff`: when a token is reported active, and that it never becomes so again.
-/

namespace UrlShortener.Auth

open Sql Runs

variable {crypto : Crypto} {sessionLifetime : Int64} {db : AuthDb} {call : AuthCall}

/-! ## Rows -/

/-- What identifies a session and never changes. -/
def SessionRow.ident (row : SessionRow) : Str × Str × Str × Int :=
  (row.id, row.userId, row.tokenHash, row.expiresAt)

/-- What identifies a user and never changes. -/
def UserRow.ident (row : UserRow) : Str × Str := (row.id, row.username)

/-- The operation revokes the session of the row. -/
def AuthOp.Revokes (crypto : Crypto) (op : AuthOp) (row : SessionRow) : Prop :=
  match op with
  | .revokeToken token => crypto.hashToken token = row.tokenHash
  | .revokeAllForUser userId => userId = row.userId
  | _ => False

/-- **A successful `createSession`**: the call, made on `db`, returned the token for the owner. -/
def Issues (crypto : Crypto) (sessionLifetime : Int64) (db : AuthDb) (call : AuthCall) (token : Str)
    (owner : UserCredentials) : Prop :=
  ∃ username plainPassword clientId session, call.op = .createSession username plainPassword clientId ∧
    (AuthBrokerService.createSession crypto sessionLifetime call.env username plainPassword clientId db).1
      = some ⟨true, token, some session, some owner⟩

/-- The row a successful `createSession` inserts. -/
structure SessionRow.IssuedBy (crypto : Crypto) (sessionLifetime : Int64) (db : AuthDb) (call : AuthCall)
    (row : SessionRow) : Prop where
  issues : ∃ owner, Issues crypto sessionLifetime db call call.env.newToken owner ∧ row.userId = owner.id
  tokenHash : row.tokenHash = crypto.hashToken call.env.newToken
  expiresAt : row.expiresAt = toTimeT ((call.env.clock 1).addSeconds sessionLifetime.toInt)
  revokedAt : row.revokedAt = none
  fresh : ∀ r ∈ db.sessions, r.id ≠ row.id ∧ r.tokenHash ≠ row.tokenHash

/-- **What an operation does to the sessions**: rows change in place and keep what identifies them, and at most
one is appended, by a successful `createSession`. -/
structure SessionsEffect (crypto : Crypto) (sessionLifetime : Int64) (db : AuthDb) (call : AuthCall)
    (sessions : Table SessionRow) (f : SessionRow → SessionRow) (new : List SessionRow) : Prop where
  rows : sessions = db.sessions.map f ++ new
  ident : ∀ row, (f row).ident = row.ident
  revokedAt : ∀ row, (f row).revokedAt = none ↔ row.revokedAt = none ∧ ¬ call.op.Revokes crypto row
  new : new = [] ∨ ∃ row, new = [row] ∧ row.IssuedBy crypto sessionLifetime db call

/-- **What an operation does to the users**: only a deactivation of the name takes the flag away, and at most one
row is appended, with a new identifier and a new name. -/
structure UsersEffect (db : AuthDb) (call : AuthCall) (users : Table UserRow) (f : UserRow → UserRow)
    (new : List UserRow) : Prop where
  rows : users = db.users.map f ++ new
  ident : ∀ row, (f row).ident = row.ident
  isActive : ∀ row, (f row).isActive = 1 ↔ row.isActive = 1 ∧ call.op ≠ .deactivateUser row.username
  new : new = [] ∨ ∃ row, new = [row] ∧ ∀ r ∈ db.users, r.id ≠ row.id ∧ r.username ≠ row.username

/-! ## One operation on the sessions -/

theorem SessionsEffect.keep (hop : ∀ row, ¬ call.op.Revokes crypto row) :
    SessionsEffect crypto sessionLifetime db call db.sessions id [] where
  rows := by simp
  ident _ := rfl
  revokedAt row := by simp [hop row]
  new := Or.inl rfl

theorem SessionsEffect.update {cond : SessionRow → Bool} {set : SessionRow → SessionRow}
    (hident : ∀ row, (set row).ident = row.ident)
    (hrevoked : ∀ row, (if cond row then set row else row).revokedAt = none ↔
      row.revokedAt = none ∧ ¬ call.op.Revokes crypto row) :
    SessionsEffect crypto sessionLifetime db call (update cond set db.sessions)
      (fun row => if cond row then set row else row) [] where
  rows := by simp [Sql.update]
  ident row := by
    split
    · exact hident row
    · rfl
  revokedAt := hrevoked
  new := Or.inl rfl

theorem verifyPassword_sessions (now : TimePoint) (username plainPassword : Str) (db : AuthDb) :
    (AuthBrokerService.verifyPassword crypto now username plainPassword db).2.sessions = db.sessions := by
  unfold AuthBrokerService.verifyPassword
  split
  · rfl
  · split
    · rfl
    · split <;> rfl

/-- A session that is inserted. -/
theorem sessionRepository_createSession {id userId tokenHash : Str} {now expiresAt : TimePoint}
    {clientId : Option Str} {db db' : AuthDb} {session : AuthSession}
    (h : AuthSessionRepository.createSession id now userId tokenHash expiresAt clientId db = some (session, db')) :
    db'.users = db.users ∧ ∃ row : SessionRow, db'.sessions = db.sessions ++ [row] ∧
      row.userId = userId ∧ row.tokenHash = tokenHash ∧ row.expiresAt = toTimeT expiresAt ∧
      row.revokedAt = none ∧ ∀ r ∈ db.sessions, r.id ≠ row.id ∧ r.tokenHash ≠ row.tokenHash := by
  unfold AuthSessionRepository.createSession at h
  simp only at h
  split at h
  · cases h
  case h_2 sessions hsql =>
    obtain ⟨-, rfl⟩ := Prod.mk.inj (Option.some.inj h)
    obtain ⟨rfl, hclash⟩ := insert_eq_some hsql
    refine ⟨rfl, _, rfl, rfl, rfl, rfl, rfl, ?_⟩
    intro row hrow
    have hne := hclash row hrow
    simp only [SessionRow.clash, Bool.or_eq_false_iff, beq_eq_false_iff_ne, ne_eq] at hne
    exact ⟨fun h => hne.1 h.symm, fun h => hne.2 h.symm⟩

/-- What `createSession` does to the sessions: it inserts the row of the session it returns, or none. -/
theorem createSession_sessions {username plainPassword : Str} {clientId : Option Str}
    (hop : call.op = .createSession username plainPassword clientId) (crypto : Crypto) (sessionLifetime : Int64)
    (db : AuthDb) :
    let r := AuthBrokerService.createSession crypto sessionLifetime call.env username plainPassword clientId db
    (r.2.sessions = db.sessions ∧ ∀ result, r.1 = some result → result.ok = false) ∨
      ∃ row, r.2.sessions = db.sessions ++ [row] ∧ row.IssuedBy crypto sessionLifetime db call := by
  intro r
  have hsessions : (AuthBrokerService.verifyPassword crypto (call.env.clock 0) username plainPassword db).2.sessions
      = db.sessions := verifyPassword_sessions ..
  cases hverify : AuthBrokerService.verifyPassword crypto (call.env.clock 0) username plainPassword db with
  | mk user db' =>
    rw [hverify] at hsessions
    cases user with
    | none =>
      left
      simp only [r, AuthBrokerService.createSession, hverify]
      refine ⟨hsessions, ?_⟩
      rintro result ⟨⟩
      rfl
    | some user =>
      cases hinsert : AuthSessionRepository.createSession call.env.newId (call.env.clock 2) user.id
          (crypto.hashToken call.env.newToken) ((call.env.clock 1).addSeconds sessionLifetime.toInt) clientId db' with
      | none =>
        left
        simp only [r, AuthBrokerService.createSession, hverify, hinsert]
        refine ⟨hsessions, ?_⟩
        intro result hresult
        cases hresult
      | some result =>
        right
        obtain ⟨session, db''⟩ := result
        have hr : r = (some ⟨true, call.env.newToken, some session, some user⟩, db'') := by
          simp only [r, AuthBrokerService.createSession, hverify, hinsert]
        obtain ⟨-, row, hrows, huser, hhash, hexpires, hrevoked, hfresh⟩ := sessionRepository_createSession hinsert
        rw [hsessions] at hrows hfresh
        have hissues : Issues crypto sessionLifetime db call call.env.newToken user :=
          ⟨username, plainPassword, clientId, session, hop, congrArg Prod.fst hr⟩
        refine ⟨row, ?_, ⟨user, hissues, huser⟩, hhash, hexpires, hrevoked, hfresh⟩
        rw [hr]
        exact hrows

/-- An introspection stamps the session it finds. -/
theorem introspectToken_db (env : AuthEnv) (rawToken : Str) (db : AuthDb) :
    (AuthBrokerService.introspectToken crypto env rawToken db).2
      = (AuthSessionRepository.findByTokenHash (env.clock 0) (crypto.hashToken rawToken) db).2 := by
  unfold AuthBrokerService.introspectToken
  split
  case h_1 h => rw [h]
  case h_2 h =>
    rw [h]
    simp only
    split
    · rfl
    · split <;> rfl

/-- **One operation on the sessions.** -/
theorem step_sessions (crypto : Crypto) (sessionLifetime : Int64) (call : AuthCall) (db : AuthDb) :
    ∃ f new, SessionsEffect crypto sessionLifetime db call (call.step crypto sessionLifetime db).sessions f new := by
  cases hop : call.op with
  | createUser username passwordHash controlSet =>
    have hsame : (call.step crypto sessionLifetime db).sessions = db.sessions := by
      simp only [AuthCall.step, hop, UserCredentialsRepository.createUser]
      split <;> rfl
    rw [hsame]
    exact ⟨id, [], .keep (by simp [hop, AuthOp.Revokes])⟩
  | deactivateUser username =>
    have hsame : (call.step crypto sessionLifetime db).sessions = db.sessions := by
      simp only [AuthCall.step, hop, UserCredentialsRepository.deactivateUser]
    rw [hsame]
    exact ⟨id, [], .keep (by simp [hop, AuthOp.Revokes])⟩
  | createSession username plainPassword clientId =>
    have hstep : call.step crypto sessionLifetime db = (AuthBrokerService.createSession crypto sessionLifetime
        call.env username plainPassword clientId db).2 := by
      simp only [AuthCall.step, hop]
    rw [hstep]
    rcases createSession_sessions hop crypto sessionLifetime db with ⟨hsame, -⟩ | ⟨row, hrow, hissued⟩
    · rw [hsame]
      exact ⟨id, [], .keep (by simp [hop, AuthOp.Revokes])⟩
    · refine ⟨id, [row], ?_, fun _ => rfl, ?_, Or.inr ⟨row, rfl, hissued⟩⟩
      · rw [hrow, List.map_id]
      · intro row
        simp [hop, AuthOp.Revokes]
  | introspectToken rawToken =>
    have hstep : call.step crypto sessionLifetime db
        = (AuthSessionRepository.findByTokenHash (call.env.clock 0) (crypto.hashToken rawToken) db).2 := by
      simp only [AuthCall.step, hop, introspectToken_db]
    rw [hstep]
    unfold AuthSessionRepository.findByTokenHash
    split
    · exact ⟨id, [], .keep (by simp [hop, AuthOp.Revokes])⟩
    · simp only
      split
      · refine ⟨_, [], .update (fun _ => rfl) fun row => ?_⟩
        rw [apply_ite SessionRow.revokedAt, ite_self]
        simp [hop, AuthOp.Revokes]
      · exact ⟨id, [], .keep (by simp [hop, AuthOp.Revokes])⟩
  | revokeToken rawToken =>
    simp only [AuthCall.step, hop, AuthBrokerService.revokeToken, AuthSessionRepository.revokeByTokenHash]
    refine ⟨_, [], .update (fun _ => rfl) fun row => ?_⟩
    by_cases hrow : row.tokenHash = crypto.hashToken rawToken
    · simp [hrow, hop, AuthOp.Revokes]
    · simp [hrow, hop, AuthOp.Revokes, Ne.symm hrow]
  | revokeAllForUser userId =>
    simp only [AuthCall.step, hop, AuthSessionRepository.revokeAllForUser]
    refine ⟨_, [], .update (fun _ => rfl) fun row => ?_⟩
    by_cases hrow : row.userId = userId
    · cases hrevoked : row.revokedAt <;> simp [hrow, hrevoked, hop, AuthOp.Revokes]
    · simp [hrow, hop, AuthOp.Revokes, Ne.symm hrow]

/-! ## One operation on the users -/

theorem UsersEffect.keep (hop : ∀ username, call.op ≠ .deactivateUser username) :
    UsersEffect db call db.users id [] where
  rows := by simp
  ident _ := rfl
  isActive row := by simp [hop row.username]
  new := Or.inl rfl

theorem UsersEffect.update {cond : UserRow → Bool} {set : UserRow → UserRow}
    (hident : ∀ row, (set row).ident = row.ident)
    (hactive : ∀ row, (if cond row then set row else row).isActive = 1 ↔
      row.isActive = 1 ∧ call.op ≠ .deactivateUser row.username) :
    UsersEffect db call (update cond set db.users) (fun row => if cond row then set row else row) [] where
  rows := by simp [Sql.update]
  ident row := by
    split
    · exact hident row
    · rfl
  isActive := hactive
  new := Or.inl rfl

/-- What `verifyPassword` finds and touches. -/
theorem verifyPassword_cases (crypto : Crypto) (now : TimePoint) (username plainPassword : Str) (db : AuthDb) :
    AuthBrokerService.verifyPassword crypto now username plainPassword db = (none, db) ∨
      ∃ row ∈ db.users, row.isActive = 1 ∧
        AuthBrokerService.verifyPassword crypto now username plainPassword db
          = (some (UserCredentialsRepository.buildUserRow row),
            UserCredentialsRepository.touchLastLogin now row.id db) := by
  unfold AuthBrokerService.verifyPassword UserCredentialsRepository.findByUsername
  cases hfirst : first (fun row => row.username == username && row.isActive == 1) db.users with
  | none => exact Or.inl rfl
  | some row =>
    obtain ⟨hrow, hcond⟩ := first_eq_some hfirst
    simp only [Bool.and_eq_true, beq_iff_eq] at hcond
    simp only [Option.map_some]
    split
    · exact Or.inl rfl
    · split
      · exact Or.inl rfl
      · exact Or.inr ⟨row, hrow, hcond.2, rfl⟩

/-- What `createSession` does to the users: it stamps the login of a user it verified. -/
theorem createSession_users (crypto : Crypto) (sessionLifetime : Int64) (env : AuthEnv)
    (username plainPassword : Str) (clientId : Option Str) (db : AuthDb) :
    (AuthBrokerService.createSession crypto sessionLifetime env username plainPassword clientId db).2.users
      = (AuthBrokerService.verifyPassword crypto (env.clock 0) username plainPassword db).2.users := by
  unfold AuthBrokerService.createSession
  split
  case h_1 h => rw [h]
  case h_2 user db' h =>
    rw [h]
    simp only
    split
    · rfl
    case h_2 session db'' hinsert => exact (sessionRepository_createSession hinsert).1

theorem findByTokenHash_users (now : TimePoint) (tokenHash : Str) (db : AuthDb) :
    (AuthSessionRepository.findByTokenHash now tokenHash db).2.users = db.users := by
  unfold AuthSessionRepository.findByTokenHash
  split
  · rfl
  · simp only
    split <;> rfl

/-- **One operation on the users.** -/
theorem step_users (crypto : Crypto) (sessionLifetime : Int64) (call : AuthCall) (db : AuthDb) :
    ∃ f new, UsersEffect db call (call.step crypto sessionLifetime db).users f new := by
  cases hop : call.op with
  | createUser username passwordHash controlSet =>
    simp only [AuthCall.step, hop, UserCredentialsRepository.createUser]
    split
    · exact ⟨id, [], .keep (by simp [hop])⟩
    case h_2 users hsql =>
      obtain ⟨rfl, hclash⟩ := insert_eq_some hsql
      refine ⟨id, [_], by rw [List.map_id], fun _ => rfl, by simp [hop], Or.inr ⟨_, rfl, ?_⟩⟩
      intro row hrow
      have hne := hclash row hrow
      simp only [UserRow.clash, Bool.or_eq_false_iff, beq_eq_false_iff_ne, ne_eq] at hne
      exact ⟨fun h => hne.1 h.symm, fun h => hne.2 h.symm⟩
  | deactivateUser username =>
    simp only [AuthCall.step, hop, UserCredentialsRepository.deactivateUser]
    refine ⟨_, [], .update (fun _ => rfl) fun row => ?_⟩
    by_cases hrow : row.username = username
    · simp [hrow, hop]
    · simp [hrow, hop, Ne.symm hrow]
  | createSession username plainPassword clientId =>
    simp only [AuthCall.step, hop, createSession_users]
    rcases verifyPassword_cases crypto (call.env.clock 0) username plainPassword db with h | ⟨user, -, -, h⟩
    · rw [h]
      exact ⟨id, [], .keep (by simp [hop])⟩
    · rw [h]
      simp only [UserCredentialsRepository.touchLastLogin]
      refine ⟨_, [], .update (fun _ => rfl) fun row => ?_⟩
      rw [apply_ite UserRow.isActive, ite_self]
      simp [hop]
  | introspectToken rawToken =>
    simp only [AuthCall.step, hop, introspectToken_db, findByTokenHash_users]
    exact ⟨id, [], .keep (by simp [hop])⟩
  | revokeToken rawToken =>
    simp only [AuthCall.step, hop, AuthBrokerService.revokeToken, AuthSessionRepository.revokeByTokenHash]
    exact ⟨id, [], .keep (by simp [hop])⟩
  | revokeAllForUser userId =>
    simp only [AuthCall.step, hop, AuthSessionRepository.revokeAllForUser]
    exact ⟨id, [], .keep (by simp [hop])⟩

/-- The owner of an issued session is an active user of the table. -/
theorem Issues.owner {token : Str} {owner : UserCredentials} (h : Issues crypto sessionLifetime db call token owner) :
    token = call.env.newToken ∧ ∃ row ∈ db.users, row.isActive = 1 ∧ row.id = owner.id ∧
      row.username = owner.username := by
  obtain ⟨username, plainPassword, clientId, session, -, hresult⟩ := h
  unfold AuthBrokerService.createSession at hresult
  rcases verifyPassword_cases crypto (call.env.clock 0) username plainPassword db with hv | ⟨row, hrow, hactive, hv⟩
  · rw [hv] at hresult
    cases hresult
  · rw [hv] at hresult
    simp only at hresult
    split at hresult
    · cases hresult
    · simp only [Option.some.injEq, CreateSessionResult.mk.injEq, true_and] at hresult
      obtain ⟨htoken, -, howner⟩ := hresult
      subst howner
      exact ⟨htoken.symm, row, hrow, hactive, rfl, rfl⟩

/-! ## Runs -/

/-- The tables after the calls. -/
abbrev dbAfter (crypto : Crypto) (sessionLifetime : Int64) (calls : List AuthCall) : AuthDb :=
  after (AuthCall.step crypto sessionLifetime) {} calls

theorem dbAfter_append (crypto : Crypto) (sessionLifetime : Int64) (calls rest : List AuthCall) :
    dbAfter crypto sessionLifetime (calls ++ rest)
      = after (AuthCall.step crypto sessionLifetime) (dbAfter crypto sessionLifetime calls) rest :=
  after_append _ calls rest

/-- No two sessions have a token hash in common, and no two users an identifier. -/
structure Apart (db : AuthDb) : Prop where
  sessions : Unique SessionRow.tokenHash db.sessions
  users : Unique UserRow.id db.users

theorem step_apart (crypto : Crypto) (sessionLifetime : Int64) (call : AuthCall) (db : AuthDb) (h : Apart db) :
    Apart (call.step crypto sessionLifetime db) := by
  constructor
  · obtain ⟨f, new, heff⟩ := step_sessions crypto sessionLifetime call db
    have hcolumn : ∀ row, (f row).tokenHash = row.tokenHash := fun row => congrArg (·.2.2.1) (heff.ident row)
    rw [heff.rows]
    exact h.sessions.map_append hcolumn
      (heff.new.imp_right fun ⟨row, hrow, hissued⟩ => ⟨row, hrow, fun r hr => (hissued.fresh r hr).2⟩)
  · obtain ⟨f, new, heff⟩ := step_users crypto sessionLifetime call db
    have hcolumn : ∀ row, (f row).id = row.id := fun row => congrArg Prod.fst (heff.ident row)
    rw [heff.rows]
    exact h.users.map_append hcolumn
      (heff.new.imp_right fun ⟨row, hrow, hfresh⟩ => ⟨row, hrow, fun r hr => (hfresh r hr).1⟩)

theorem run_apart (crypto : Crypto) (sessionLifetime : Int64) (calls : List AuthCall) :
    Apart (dbAfter crypto sessionLifetime calls) := by
  have hempty : Apart {} := ⟨List.nodup_nil, List.nodup_nil⟩
  exact after_invariant (step_apart crypto sessionLifetime) hempty calls

theorem AuthOp.Revokes.congr {op : AuthOp} {row row' : SessionRow} (h : row'.ident = row.ident) :
    op.Revokes crypto row' ↔ op.Revokes crypto row := by
  have hhash : row'.tokenHash = row.tokenHash := congrArg (·.2.2.1) h
  have huser : row'.userId = row.userId := congrArg (·.2.1) h
  cases op <;> simp [AuthOp.Revokes, hhash, huser]

/-- **A session stays**, and is revoked by the first operation that revokes it. -/
theorem run_session {row : SessionRow} (hrow : row ∈ db.sessions) (calls : List AuthCall) :
    ∃ row' ∈ (after (AuthCall.step crypto sessionLifetime) db calls).sessions, row'.ident = row.ident ∧
      (row'.revokedAt = none ↔ row.revokedAt = none ∧ ∀ x ∈ calls, ¬ x.op.Revokes crypto row) := by
  induction calls generalizing db row with
  | nil => exact ⟨row, hrow, rfl, by simp⟩
  | cons call calls ih =>
    obtain ⟨f, new, heff⟩ := step_sessions crypto sessionLifetime call db
    have hmem : f row ∈ (call.step crypto sessionLifetime db).sessions := by
      rw [heff.rows]
      exact List.mem_append_left _ (List.mem_map_of_mem hrow)
    obtain ⟨row', hrow', hident, hrevoked⟩ := ih hmem
    refine ⟨row', hrow', hident.trans (heff.ident row), ?_⟩
    rw [hrevoked, heff.revokedAt]
    simp only [AuthOp.Revokes.congr (heff.ident row), List.forall_mem_cons, and_assoc]

/-- **A user stays**, and is active until the name is deactivated. -/
theorem run_user {row : UserRow} (hrow : row ∈ db.users) (calls : List AuthCall) :
    ∃ row' ∈ (after (AuthCall.step crypto sessionLifetime) db calls).users, row'.ident = row.ident ∧
      (row'.isActive = 1 ↔ row.isActive = 1 ∧ ∀ x ∈ calls, x.op ≠ .deactivateUser row.username) := by
  induction calls generalizing db row with
  | nil => exact ⟨row, hrow, rfl, by simp⟩
  | cons call calls ih =>
    obtain ⟨f, new, heff⟩ := step_users crypto sessionLifetime call db
    have hmem : f row ∈ (call.step crypto sessionLifetime db).users := by
      rw [heff.rows]
      exact List.mem_append_left _ (List.mem_map_of_mem hrow)
    obtain ⟨row', hrow', hident, hactive⟩ := ih hmem
    have hname : (f row).username = row.username := congrArg Prod.snd (heff.ident row)
    refine ⟨row', hrow', hident.trans (heff.ident row), ?_⟩
    rw [hactive, heff.isActive, hname]
    simp only [List.forall_mem_cons, and_assoc]

/-- **Every session was issued** by an operation of the run. -/
theorem session_origin {row : SessionRow} {calls : List AuthCall}
    (hrow : row ∈ (dbAfter crypto sessionLifetime calls).sessions) :
    ∃ before issue between row₀, calls = before ++ issue :: between ∧
      SessionRow.IssuedBy crypto sessionLifetime (dbAfter crypto sessionLifetime before) issue row₀ ∧
      row₀ ∈ (dbAfter crypto sessionLifetime (before ++ [issue])).sessions ∧ row₀.ident = row.ident := by
  induction calls using List.reverseRecOn generalizing row with
  | nil => cases hrow
  | append_singleton calls call ih =>
    obtain ⟨f, new, heff⟩ := step_sessions crypto sessionLifetime call (dbAfter crypto sessionLifetime calls)
    have hstep : dbAfter crypto sessionLifetime (calls ++ [call])
        = call.step crypto sessionLifetime (dbAfter crypto sessionLifetime calls) := dbAfter_append ..
    have hrow' := hrow
    rw [hstep, heff.rows] at hrow'
    rcases List.mem_append.1 hrow' with hold | hnew
    · obtain ⟨r, hr, rfl⟩ := List.mem_map.1 hold
      obtain ⟨before, issue, between, row₀, rfl, hissued, hmem, hident⟩ := ih hr
      exact ⟨before, issue, between ++ [call], row₀, by simp, hissued, hmem, hident.trans (heff.ident r).symm⟩
    · rcases heff.new with rfl | ⟨row₁, rfl, hissued⟩
      · cases hnew
      · obtain rfl := List.mem_singleton.1 hnew
        exact ⟨calls, call, [], row, rfl, hissued, hrow, rfl⟩

/-! ## Introspection -/

theorem isActive_iff (session : AuthSession) (now : TimePoint) :
    session.isActive now = true ↔ session.revokedAt = none ∧ now < session.expiresAt := by
  unfold AuthSession.isActive
  cases session.revokedAt with
  | some time => simp
  | none => simp

theorem findById_isSome (userId : Str) (db : AuthDb) :
    (UserCredentialsRepository.findById userId db).isSome = true ↔
      ∃ user ∈ db.users, user.id = userId ∧ user.isActive = 1 := by
  simp [UserCredentialsRepository.findById, first, List.find?_isSome]

/-- What `findByTokenHash` returns for the row it finds. -/
theorem findByTokenHash_some (now : TimePoint) {tokenHash : Str} {row : SessionRow}
    (h : first (·.tokenHash == tokenHash) db.sessions = some row) :
    ∃ session db', AuthSessionRepository.findByTokenHash now tokenHash db = (some session, db') ∧
      db'.users = db.users ∧ session.userId = row.userId ∧ session.revokedAt = row.revokedAt.map fromTimeT ∧
      session.expiresAt = fromTimeT row.expiresAt := by
  unfold AuthSessionRepository.findByTokenHash
  rw [h]
  simp only
  split
  · exact ⟨_, _, rfl, rfl, rfl, rfl, rfl⟩
  · exact ⟨_, _, rfl, rfl, rfl, rfl, rfl⟩

/-- **What an introspection reports**, from the tables. -/
theorem introspectToken_active (hdb : Apart db) (env : AuthEnv) (token : Str) :
    (AuthBrokerService.introspectToken crypto env token db).1.active = true ↔
      ∃ row ∈ db.sessions, row.tokenHash = crypto.hashToken token ∧ row.revokedAt = none ∧
        env.clock 1 < fromTimeT row.expiresAt ∧ ∃ user ∈ db.users, user.id = row.userId ∧ user.isActive = 1 := by
  cases hfirst : first (·.tokenHash == crypto.hashToken token) db.sessions with
  | none =>
    have hnone := List.find?_eq_none.1 hfirst
    simp only [AuthBrokerService.introspectToken, AuthSessionRepository.findByTokenHash, hfirst]
    refine ⟨nofun, ?_⟩
    rintro ⟨row, hrow, hhash, -⟩
    exact absurd (beq_iff_eq.2 hhash) (hnone row hrow)
  | some row =>
    obtain ⟨hrow, hhash⟩ := first_eq_some hfirst
    rw [beq_iff_eq] at hhash
    obtain ⟨session, db', hfind, husers, huser, hrevoked, hexpires⟩ := findByTokenHash_some (env.clock 0) hfirst
    have hactive : (AuthBrokerService.introspectToken crypto env token db).1.active = true ↔
        session.isActive (env.clock 1) = true ∧
          (UserCredentialsRepository.findById session.userId db').isSome = true := by
      simp only [AuthBrokerService.introspectToken, hfind]
      cases session.isActive (env.clock 1)
      · simp
      · cases UserCredentialsRepository.findById session.userId db' <;> simp
    rw [hactive, isActive_iff, findById_isSome, husers, huser, hrevoked, hexpires, Option.map_eq_none_iff, and_assoc]
    constructor
    · intro h
      exact ⟨row, hrow, hhash, h⟩
    · rintro ⟨row', hrow', hhash', h⟩
      obtain rfl := hdb.sessions.eq_of_column hrow' hrow (hhash'.trans hhash.symm)
      exact h

/-! ## The life of a token -/

/-- The raw tokens of a call: the one it generates, or the one it is given. -/
def AuthCall.tokens (call : AuthCall) : List Str :=
  match call.op with
  | .createSession _ _ _ => [call.env.newToken]
  | .introspectToken token => [token]
  | .revokeToken token => [token]
  | _ => []

/-- The hash tells the tokens of the run apart, and a generated token has not been seen before. -/
structure FreshTokens (crypto : Crypto) (calls : List AuthCall) : Prop where
  collisionFree : ∀ call ∈ calls, ∀ other ∈ calls, ∀ token ∈ call.tokens, ∀ token' ∈ other.tokens,
    crypto.hashToken token = crypto.hashToken token' → token = token'
  fresh : calls.Pairwise fun earlier call => ∀ username plainPassword clientId,
    call.op = .createSession username plainPassword clientId → call.env.newToken ∉ earlier.tokens

/-- The clock shows whole seconds and never goes back from one call to the next. -/
structure SteadyClock (calls : List AuthCall) : Prop where
  whole : ∀ call ∈ calls, ∀ i, (call.env.clock i).toInt % 1000000000 = 0
  monotone : calls.Pairwise fun call later => ∀ i j, call.env.clock i ≤ later.env.clock j

/-- The end of a session created by the call, if any, is a time point. -/
def AuthCall.Fits (sessionLifetime : Int64) (call : AuthCall) : Prop :=
  ∀ username plainPassword clientId, call.op = .createSession username plainPassword clientId →
    -2 ^ 63 ≤ (call.env.clock 1).toInt + sessionLifetime.toInt * 1000000000 ∧
      (call.env.clock 1).toInt + sessionLifetime.toInt * 1000000000 < 2 ^ 63

/-- **The token counts as active** at `now` after the calls: one of them returned it, its life is not over, and
since then it was not revoked, nor the sessions of its owner, nor the owner deactivated. -/
def Alive (crypto : Crypto) (sessionLifetime : Int64) (calls : List AuthCall) (token : Str) (now : TimePoint) : Prop :=
  ∃ earlier issue between owner, calls = earlier ++ issue :: between ∧
    Issues crypto sessionLifetime (dbAfter crypto sessionLifetime earlier) issue token owner ∧
    now.toInt < (issue.env.clock 1).toInt + sessionLifetime.toInt * 1000000000 ∧
    ∀ x ∈ between, x.op ≠ .revokeToken token ∧ x.op ≠ .revokeAllForUser owner.id ∧
      x.op ≠ .deactivateUser owner.username

/-- The expiry that is stored and read back, for whole seconds within the range of a time point. -/
theorem stored_expiry {token : Str} {owner : UserCredentials} (hfits : call.Fits sessionLifetime)
    (hissues : Issues crypto sessionLifetime db call token owner)
    (hwhole : (call.env.clock 1).toInt % 1000000000 = 0) :
    (fromTimeT (toTimeT ((call.env.clock 1).addSeconds sessionLifetime.toInt))).toInt
      = (call.env.clock 1).toInt + sessionLifetime.toInt * 1000000000 := by
  obtain ⟨_, _, _, _, hop, -⟩ := hissues
  obtain ⟨hlow, hhigh⟩ := hfits _ _ _ hop
  have hend := addSeconds_toInt hlow hhigh
  rw [fromTimeT_toTimeT (by omega), hend]

theorem Issues.owner_eq {token token' : Str} {owner owner' : UserCredentials}
    (h : Issues crypto sessionLifetime db call token owner) (h' : Issues crypto sessionLifetime db call token' owner') :
    owner = owner' := by
  obtain ⟨username, plainPassword, clientId, session, hop, hresult⟩ := h
  obtain ⟨username', plainPassword', clientId', session', hop', hresult'⟩ := h'
  obtain ⟨rfl, rfl, rfl⟩ := AuthOp.createSession.inj (hop.symm.trans hop')
  have := Option.some.inj (hresult.symm.trans hresult')
  simp only [CreateSessionResult.mk.injEq, Option.some.injEq] at this
  exact this.2.2.2

/-- A successful `createSession` leaves its row. -/
theorem Issues.row {token : Str} {owner : UserCredentials} (h : Issues crypto sessionLifetime db call token owner) :
    ∃ row ∈ (call.step crypto sessionLifetime db).sessions, row.IssuedBy crypto sessionLifetime db call := by
  obtain ⟨username, plainPassword, clientId, session, hop, hresult⟩ := h
  have hstep : call.step crypto sessionLifetime db = (AuthBrokerService.createSession crypto sessionLifetime
      call.env username plainPassword clientId db).2 := by
    simp only [AuthCall.step, hop]
  rcases createSession_sessions hop crypto sessionLifetime db with ⟨-, hfailed⟩ | ⟨row, hrow, hissued⟩
  · have := hfailed _ hresult
    cases this
  · refine ⟨row, ?_, hissued⟩
    rw [hstep, hrow]
    simp

theorem mem_tokens_of_issues {token : Str} {owner : UserCredentials}
    (h : Issues crypto sessionLifetime db call token owner) : token ∈ call.tokens := by
  have htoken := h.owner.1
  obtain ⟨username, plainPassword, clientId, -, hop, -⟩ := h
  simp [AuthCall.tokens, hop, htoken]

/-- An issued session as it is found later: its row, and the row of its owner. -/
theorem issued_later {issue : AuthCall} {row : SessionRow} {owner : UserCredentials}
    (howner : Issues crypto sessionLifetime db issue issue.env.newToken owner)
    (hrow : row ∈ (issue.step crypto sessionLifetime db).sessions)
    (hissued : SessionRow.IssuedBy crypto sessionLifetime db issue row) (between : List AuthCall) :
    let later := after (AuthCall.step crypto sessionLifetime) db (issue :: between)
    (∃ row' ∈ later.sessions, row'.ident = row.ident ∧
      (row'.revokedAt = none ↔ ∀ x ∈ between, ¬ x.op.Revokes crypto row)) ∧
    ∃ user ∈ later.users, user.id = owner.id ∧
      (user.isActive = 1 ↔ ∀ x ∈ between, x.op ≠ .deactivateUser owner.username) := by
  intro later
  constructor
  · obtain ⟨row', hrow', hident, hrevoked⟩ := run_session hrow between
    refine ⟨row', hrow', hident, ?_⟩
    rw [hrevoked]
    simp [hissued.revokedAt]
  · obtain ⟨-, user, huser, hactive, hid, hname⟩ := howner.owner
    obtain ⟨user', huser', hident, hactive'⟩ : ∃ user' ∈ later.users, user'.ident = user.ident ∧ _ :=
      run_user huser (issue :: between)
    have hid' : user'.id = user.id := congrArg Prod.fst hident
    refine ⟨user', huser', hid'.trans hid, ?_⟩
    obtain ⟨username, plainPassword, clientId, session, hop, -⟩ := howner
    rw [hactive', hname, List.forall_mem_cons]
    simp [hactive, hop]

theorem SessionRow.of_ident {row row' : SessionRow} (h : row.ident = row'.ident) :
    row.userId = row'.userId ∧ row.tokenHash = row'.tokenHash ∧ row.expiresAt = row'.expiresAt := by
  simp only [SessionRow.ident, Prod.mk.injEq] at h
  exact h.2

/-- The operations that revoke the session of a token, where its hash stands for the token. -/
theorem revokes_iff {x : AuthCall} {row : SessionRow} {token : Str}
    (hhash : ∀ t ∈ x.tokens, crypto.hashToken t = crypto.hashToken token → t = token)
    (hrow : row.tokenHash = crypto.hashToken token) :
    x.op.Revokes crypto row ↔ x.op = .revokeToken token ∨ x.op = .revokeAllForUser row.userId := by
  constructor
  · intro hrevokes
    cases hop : x.op with
    | revokeToken t =>
      rw [hop] at hrevokes
      obtain rfl : t = token := hhash t (by simp [AuthCall.tokens, hop]) (hrevokes.trans hrow)
      exact .inl rfl
    | revokeAllForUser userId =>
      rw [hop] at hrevokes
      exact .inr (congrArg _ hrevokes)
    | _ =>
      rw [hop] at hrevokes
      exact hrevokes.elim
  · rintro (hop | hop) <;> rw [hop]
    · exact hrow.symm
    · exact rfl

/-- **A token is reported active exactly while it is alive.** -/
theorem introspect_alive {before : List AuthCall} {call : AuthCall} {token : Str}
    (hfresh : FreshTokens crypto (before ++ [call])) (hop : call.op = .introspectToken token)
    (hwhole : ∀ x ∈ before, (x.env.clock 1).toInt % 1000000000 = 0) (hfits : ∀ x ∈ before, x.Fits sessionLifetime) :
    (AuthBrokerService.introspectToken crypto call.env token (dbAfter crypto sessionLifetime before)).1.active = true ↔
      Alive crypto sessionLifetime before token (call.env.clock 1) := by
  have hapart := run_apart crypto sessionLifetime before
  have htoken : token ∈ call.tokens := by simp [AuthCall.tokens, hop]
  -- the hash of a token of the run stands for the token
  have hhash : ∀ x ∈ before, ∀ t ∈ x.tokens, crypto.hashToken t = crypto.hashToken token → t = token :=
    fun x hx t ht => hfresh.collisionFree x (by simp [hx]) call (by simp) t ht token htoken
  rw [introspectToken_active hapart]
  constructor
  · rintro ⟨row, hrow, hrowhash, hrevoked, hnow, user, huser, huserid, hactive⟩
    obtain ⟨earlier, issue, between, row₀, rfl, hissued, hrow₀, hident⟩ := session_origin hrow
    obtain ⟨hid, hhash₀, hexpires⟩ := SessionRow.of_ident hident
    have hmem : issue ∈ earlier ++ issue :: between := by simp
    obtain ⟨owner, hissues, howner⟩ := hissued.issues
    have hnew : issue.env.newToken = token := by
      refine hhash issue hmem _ (mem_tokens_of_issues hissues) ?_
      rw [← hissued.tokenHash, hhash₀, hrowhash]
    rw [dbAfter_append] at hrow huser hapart hrow₀
    obtain ⟨⟨row', hrow', hident', hrevoked'⟩, user', huser', hid', hactive'⟩ :=
      issued_later hissues hrow₀ hissued between
    -- the rows found are the rows of the issued session
    obtain rfl : row' = row :=
      hapart.sessions.eq_of_column hrow' hrow (congrArg (·.2.2.1) (hident'.trans hident))
    obtain rfl : user' = user := by
      refine hapart.users.eq_of_column huser' huser ?_
      rw [hid', huserid, ← hid, howner]
    have hsince := hrevoked'.1 hrevoked
    refine ⟨earlier, issue, between, owner, rfl, hnew ▸ hissues, ?_, ?_⟩
    · rw [Int64.lt_iff_toInt_lt, ← hexpires, hissued.expiresAt,
        stored_expiry (hfits issue hmem) hissues (hwhole issue hmem)] at hnow
      exact hnow
    · intro x hx
      have hnot := hsince x hx
      rw [revokes_iff (hhash x (by simp [hx])) (hhash₀.trans hrowhash), not_or, howner] at hnot
      exact ⟨hnot.1, hnot.2, hactive'.1 hactive x hx⟩
  · rintro ⟨earlier, issue, between, owner, rfl, hissues, hnow, hsince⟩
    have hmem : issue ∈ earlier ++ issue :: between := by simp
    obtain ⟨row₀, hrow₀, hissued⟩ := hissues.row
    obtain ⟨owner', hissues', howner⟩ := hissued.issues
    obtain rfl := hissues.owner_eq hissues'
    have hnew : token = issue.env.newToken := hissues.owner.1
    obtain ⟨⟨row, hrow, hident, hrevoked⟩, user, huser, hid, hactive⟩ :=
      issued_later hissues' hrow₀ hissued between
    obtain ⟨hid₀, hhash₀, hexpires⟩ := SessionRow.of_ident hident
    have hrowhash : row₀.tokenHash = crypto.hashToken token := by rw [hissued.tokenHash, hnew]
    rw [dbAfter_append]
    refine ⟨row, hrow, hhash₀.trans hrowhash, hrevoked.2 ?_, ?_, user, huser, ?_,
      hactive.2 fun x hx => (hsince x hx).2.2⟩
    · intro x hx
      rw [revokes_iff (hhash x (by simp [hx])) hrowhash, not_or, howner]
      exact ⟨(hsince x hx).1, (hsince x hx).2.1⟩
    · rw [Int64.lt_iff_toInt_lt, hexpires, hissued.expiresAt,
        stored_expiry (hfits issue hmem) hissues (hwhole issue hmem)]
      exact hnow
    · rw [hid, hid₀, howner]

/-- A part of the run at its front. -/
theorem FreshTokens.front {calls rest : List AuthCall} (h : FreshTokens crypto (calls ++ rest)) :
    FreshTokens crypto calls where
  collisionFree call hcall other hother :=
    h.collisionFree call (List.mem_append_left _ hcall) other (List.mem_append_left _ hother)
  fresh := (List.pairwise_append.1 h.fresh).1

/-- **When a token is active.** In every run with fresh tokens and a steady clock in whole seconds, where every
session created ends at a time point: an introspection reports the token active exactly when one of the calls
before returned it, its life is not over, and since then it was not revoked, nor the sessions of its owner,
nor the owner deactivated; and a token that was reported inactive is never reported active again. -/
theorem token_active_iff (crypto : Crypto) (sessionLifetime : Int64) (calls : List AuthCall)
    (hfresh : FreshTokens crypto calls) (hclock : SteadyClock calls) (hfits : ∀ call ∈ calls, call.Fits sessionLifetime)
    (token : Str) :
    (∀ before call rest, calls = before ++ call :: rest → call.op = .introspectToken token →
      ((AuthBrokerService.introspectToken crypto call.env token
          (dbAfter crypto sessionLifetime before)).1.active = true ↔
        Alive crypto sessionLifetime before token (call.env.clock 1))) ∧
      ∀ before call between later rest, calls = before ++ call :: (between ++ later :: rest) →
        call.op = .introspectToken token → later.op = .introspectToken token →
        (AuthBrokerService.introspectToken crypto call.env token
          (dbAfter crypto sessionLifetime before)).1.active = false →
        (AuthBrokerService.introspectToken crypto later.env token
          (dbAfter crypto sessionLifetime (before ++ call :: between))).1.active = false := by
  have halive : ∀ before call rest, calls = before ++ call :: rest → call.op = .introspectToken token →
      ((AuthBrokerService.introspectToken crypto call.env token
          (dbAfter crypto sessionLifetime before)).1.active = true ↔
        Alive crypto sessionLifetime before token (call.env.clock 1)) := by
    rintro before call rest rfl hop
    have hsub : ∀ x ∈ before, x ∈ before ++ call :: rest := fun x hx => List.mem_append_left _ hx
    have hfront : FreshTokens crypto (before ++ [call] ++ rest) := by simpa using hfresh
    exact introspect_alive hfront.front hop (fun x hx => hclock.whole x (hsub x hx) 1) fun x hx => hfits x (hsub x hx)
  refine ⟨halive, ?_⟩
  rintro before call between later rest rfl hop hop' hinactive
  rw [Bool.eq_false_iff] at hinactive ⊢
  intro hactive
  refine hinactive ((halive before call _ rfl hop).2 ?_)
  obtain ⟨earlier, issue, since, owner, hsplit, hissues, hnow, hsince⟩ :=
    (halive (before ++ call :: between) later rest (by simp) hop').1 hactive
  have hle : call.env.clock 1 ≤ later.env.clock 1 := by
    have := (List.pairwise_append.1 hclock.monotone).2.1
    exact (List.pairwise_cons.1 this).1 later (by simp) 1 1
  have hother : issue ≠ call := by
    rintro rfl
    obtain ⟨_, _, _, _, hissue, -⟩ := hissues
    rw [hop] at hissue
    cases hissue
  -- the token was given to the first introspection, so it was issued before it
  rcases List.append_eq_append_iff.1 hsplit with ⟨mid, hearlier, htail⟩ | ⟨mid, hbefore, htail⟩
  · cases mid with
    | nil => exact absurd (List.cons.inj htail).1.symm hother
    | cons x mid =>
      obtain ⟨rfl, -⟩ := List.cons.inj htail
      have htoken := hissues.owner.1
      obtain ⟨username, plainPassword, clientId, _, hissue, -⟩ := hissues
      have hfront : FreshTokens crypto (before ++ call :: between ++ later :: rest) := by simpa using hfresh
      have hpairs := hfront.front.fresh
      rw [hsplit, hearlier] at hpairs
      have hnot := (List.pairwise_append.1 hpairs).2.2 call (by simp) issue (by simp) _ _ _ hissue
      exact absurd (by simp [AuthCall.tokens, hop, htoken]) hnot
  · cases mid with
    | nil => exact absurd (List.cons.inj htail).1 hother
    | cons x mid =>
      obtain ⟨rfl, rfl⟩ := List.cons.inj htail
      refine ⟨earlier, issue, mid, owner, hbefore, hissues, ?_, ?_⟩
      · rw [Int64.le_iff_toInt_le] at hle
        omega
      · intro y hy
        exact hsince y (List.mem_append_left _ hy)

/-- A hasher that keeps passwords and tokens as they are. -/
def plainCrypto : Crypto := ⟨fun plainPassword passwordHash => plainPassword == passwordHash, id⟩

/-- A user logs in at second 1000 and shows the token at the second given. -/
def sampleRun (second : Int) : List AuthCall :=
  [⟨.createUser "ann" "pw" .user, ⟨fun _ => fromTimeT 1000, "u1", []⟩⟩,
    ⟨.createSession "ann" "pw" none, ⟨fun _ => fromTimeT 1000, "s1", "t"⟩⟩,
    ⟨.introspectToken "t", ⟨fun _ => fromTimeT second, [], []⟩⟩]

/-- The state of the token of `sampleRun` when it is shown. -/
def shownActive (sessionLifetime : Int64) (second : Int) : Bool :=
  (AuthBrokerService.introspectToken plainCrypto ⟨fun _ => fromTimeT second, [], []⟩ "t"
    (dbAfter plainCrypto sessionLifetime ((sampleRun second).take 2))).1.active

/-- A session of one minute, shown after half a minute. -/
theorem token_active_iff_sample :
    shownActive 60 1030 = true ∧ Alive plainCrypto 60 ((sampleRun 1030).take 2) "t" (fromTimeT 1030) := by
  have hactive : shownActive 60 1030 = true := by decide +kernel
  have hfresh : FreshTokens plainCrypto (sampleRun 1030) :=
    ⟨fun _ _ _ _ _ _ _ _ h => h, by simp [sampleRun, AuthCall.tokens]⟩
  have hclock : SteadyClock (sampleRun 1030) := by
    constructor
    · simp only [sampleRun, List.forall_mem_cons]
      exact ⟨fun _ => by decide, fun _ => by decide, fun _ => by decide, by simp⟩
    · simp only [sampleRun, List.pairwise_cons, List.forall_mem_cons]
      refine ⟨⟨fun _ _ => ?_, fun _ _ => ?_, by simp⟩, ⟨fun _ _ => ?_, by simp⟩, by simp⟩ <;> decide
  have hfits : ∀ call ∈ sampleRun 1030, call.Fits 60 := by
    simp only [sampleRun, List.forall_mem_cons, AuthCall.Fits]
    refine ⟨fun _ _ _ _ => ?_, fun _ _ _ _ => ?_, fun _ _ _ _ => ?_, by simp⟩ <;> decide
  have h := (token_active_iff plainCrypto 60 (sampleRun 1030) hfresh hclock hfits "t").1
    ((sampleRun 1030).take 2) _ [] rfl rfl
  exact ⟨hactive, h.1 hactive⟩

/-- **A session of 10000000000 seconds is over at once**: the end of the session is past the last time point and
wraps to a time before the epoch. -/
theorem long_session_inactive :
    shownActive 10000000000 1000 = false ∧
      Alive plainCrypto 10000000000 ((sampleRun 1000).take 2) "t" (fromTimeT 1000) := by
  refine ⟨by decide +kernel, (sampleRun 1000).take 1,
    ⟨.createSession "ann" "pw" none, ⟨fun _ => fromTimeT 1000, "s1", "t"⟩⟩, [], _, rfl,
    ⟨"ann", "pw", none, _, rfl, rfl⟩, by decide, by simp⟩

end UrlShortener.Auth
