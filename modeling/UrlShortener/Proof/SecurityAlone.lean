import UrlShortener.Calls.Effects
import UrlShortener.Proof.Bootstrap
import UrlShortener.Spec.Security

/-!
# The security services, one caller alone

The functions of `auth_broker_service.cpp` and `first_admin_bootstrap.cpp` have two models: operations on the two tables
(`AuthBrokerService`, `BootstrapProg`), and programs of single statements that may throw and that write the audit log
(`Broker`, `createFirstAdmin`). Here the second refines the first.

* `Returns`: a program that runs alone and is not ended by an exception; `returns_bind` takes it apart.
* `verifyPassword_alone`, `createSession_alone`, `introspectToken_alone`, `revokeToken_alone`, `createFirstAdmin_alone`:
  **a call that returns gives what the operation gives and leaves the tables as the operation does**, with readings of
  the clock and random bytes of the run.
-/

namespace UrlShortener.Auth

open Calls Security

variable {fate : ℕ → Fate} {crypto : SecurityCrypto} {sessionLifetime : Int64} {db db' : SecurityDb} {α β : Type}

/-! ## Programs that return -/

/-- Alone, the program returns `r` and leaves `db'`. -/
def Returns (fate : ℕ → Fate) (p : Security α) (db : SecurityDb) (r : α) (db' : SecurityDb) : Prop :=
  Prog.run (Statement.handle fate) (p : Prog Statement Statement.Answer (Except SecurityError α)) db = (.ok r, db')

/-- An exception in the first part would have ended the whole. -/
theorem returns_bind {p : Security α} {f : α → Security β} {b : β} (h : Returns fate (p >>= f) db b db') :
    ∃ a db₁, Returns fate p db a db₁ ∧ Returns fate (f a) db₁ b db' := by
  unfold Returns at h
  rw [bindE] at h
  change Prog.run _ ((p : Prog Statement Statement.Answer (Except SecurityError α)) >>= afterE f) db = _ at h
  rw [Prog.run_bind] at h
  generalize hp : Prog.run (Statement.handle fate) (p : Prog Statement Statement.Answer _) db = ended at h
  obtain ⟨result, db₁⟩ := ended
  cases result with
  | error e => cases h
  | ok a => exact ⟨a, db₁, hp, h⟩

theorem returns_pure {a b : α} (h : Returns fate (pure a) db b db') : a = b ∧ db = db' := by
  cases h
  exact ⟨rfl, rfl⟩

/-- A statement that does not throw is executed. -/
theorem returns_run {c : Statement} {a : c.Value} (h : Returns fate (run c) db a db') :
    c.execute (fate db.calls) { db with calls := db.calls + 1 } = (.ok a, db') := by
  have hhandle : c.handle fate db = (.ok a, db') := h
  unfold Statement.handle at hhandle
  dsimp only at hhandle
  split at hhandle
  · cases hhandle
  · exact hhandle

/-- The log is apart from the tables. -/
theorem returns_append {entry : AuditEntry} {u : Unit} (h : Returns fate (auditAppend entry) db u db') :
    db'.auth = db.auth := by
  have hrun := returns_run h
  simp only [Statement.execute] at hrun
  split at hrun
  · cases hrun
    rfl
  · cases hrun

/-- An entry of the log, and then the answer. -/
theorem returns_logged {entry : AuditEntry} {a b : α}
    (h : Returns fate (auditAppend entry >>= fun _ => pure a) db b db') : a = b ∧ db'.auth = db.auth := by
  obtain ⟨_, db₁, hlog, h⟩ := returns_bind h
  obtain ⟨rfl, rfl⟩ := returns_pure h
  exact ⟨rfl, returns_append hlog⟩

/-! ## The broker -/

/-- Readings of the clock and random bytes of the run: the numbers are those of its statements. -/
def envOf (fate : ℕ → Fate) (clock : ℕ → ℕ) (id token : ℕ) : AuthEnv :=
  ⟨fun i => (fate (clock i)).now, (fate id).bytes, (fate token).bytes⟩

/-- `verifyPassword` alone is the operation. -/
theorem verifyPassword_alone {username plainPassword : Str} {r : Option UserCredentials}
    (h : Returns fate (Broker.verifyPassword crypto username plainPassword) db r db') :
    ∃ n, AuthBrokerService.verifyPassword crypto.toCrypto (fate n).now username plainPassword db.auth
      = (r, db'.auth) := by
  unfold Broker.verifyPassword at h
  obtain ⟨found, db₁, hfound, h⟩ := returns_bind h
  cases returns_run hfound
  refine ⟨db.calls + 1, ?_⟩
  unfold AuthBrokerService.verifyPassword
  cases hname : UserCredentialsRepository.findByUsername username db.auth with
  | none =>
    rw [hname] at h
    obtain ⟨rfl, hauth⟩ := returns_logged h
    rw [hauth]
  | some user =>
    rw [hname] at h
    dsimp only at h ⊢
    split at h
    · next hactive =>
      obtain ⟨rfl, hauth⟩ := returns_logged h
      rw [if_pos hactive, hauth]
    · next hactive =>
      rw [if_neg hactive]
      split at h
      · next hpassword =>
        obtain ⟨rfl, hauth⟩ := returns_logged h
        rw [if_pos hpassword, hauth]
      · next hpassword =>
        obtain ⟨_, db₂, htouch, h⟩ := returns_bind h
        cases returns_run htouch
        obtain ⟨rfl, hauth⟩ := returns_logged h
        rw [if_neg hpassword, hauth]

/-- So is `createSession`. -/
theorem createSession_alone {username plainPassword : Str} {clientId : Option Str} {r : CreateSessionResult}
    (h : Returns fate (Broker.createSession crypto sessionLifetime username plainPassword clientId) db r db') :
    ∃ clock id token,
      AuthBrokerService.createSession crypto.toCrypto sessionLifetime (envOf fate clock id token) username plainPassword
        clientId db.auth = (some r, db'.auth) := by
  unfold Broker.createSession at h
  obtain ⟨verified, db₁, hverified, h⟩ := returns_bind h
  obtain ⟨n, hverify⟩ := verifyPassword_alone hverified
  cases verified with
  | none =>
    refine ⟨fun _ => n, 0, 0, ?_⟩
    obtain ⟨rfl, hauth⟩ := returns_logged h
    simp only [AuthBrokerService.createSession, envOf, hverify, hauth]
  | some user =>
    -- the token, the clock and the row are three statements
    obtain ⟨rawToken, db₂, htoken, h⟩ := returns_bind (show Returns fate (Broker.openSession _ _ _ _ _) _ _ _ from h)
    obtain ⟨now, db₃, hnow, h⟩ := returns_bind h
    cases returns_run htoken
    cases returns_run hnow
    obtain ⟨session, db₄, hcreated, h⟩ := returns_bind h
    obtain ⟨rfl, hauth⟩ := returns_logged h
    have hrow := returns_run hcreated
    simp only [Statement.execute] at hrow
    let clock : ℕ → ℕ
      | 0 => n
      | 1 => db₁.calls + 1
      | _ => db₁.calls + 2
    have hfirst : (envOf fate clock (db₁.calls + 2) db₁.calls).clock 0 = (fate n).now := rfl
    refine ⟨clock, db₁.calls + 2, db₁.calls, ?_⟩
    simp only [AuthBrokerService.createSession, hfirst, hverify]
    split at hrow
    · next session' auth hinsert =>
      cases hrow
      have hcreate : AuthSessionRepository.createSession (envOf fate clock (db₁.calls + 2) db₁.calls).newId
          ((envOf fate clock (db₁.calls + 2) db₁.calls).clock 2) user.id
          (crypto.hashToken (envOf fate clock (db₁.calls + 2) db₁.calls).newToken)
          (((envOf fate clock (db₁.calls + 2) db₁.calls).clock 1).addSeconds sessionLifetime.toInt) clientId db₁.auth
            = some (session, auth) := hinsert
      rw [hcreate, hauth]
      rfl
    · cases hrow

theorem findByTokenHash_alone {tokenHash : Str} {r : Option AuthSession}
    (h : Returns fate (findByTokenHash tokenHash) db r db') :
    ∃ n, AuthSessionRepository.findByTokenHash (fate n).now tokenHash db.auth = (r, db'.auth) := by
  unfold findByTokenHash at h
  obtain ⟨found, db₁, hfound, h⟩ := returns_bind h
  cases returns_run hfound
  refine ⟨db.calls + 1, ?_⟩
  unfold AuthSessionRepository.findByTokenHash
  cases hrow : Sql.first (·.tokenHash == tokenHash) db.auth.sessions with
  | none =>
    simp only [hrow, Option.map_none] at h
    obtain ⟨rfl, rfl⟩ := returns_pure h
    rfl
  | some row =>
    simp only [hrow, Option.map_some] at h
    obtain ⟨now, db₂, hnow, h⟩ := returns_bind h
    cases returns_run hnow
    split at h
    · next hactive =>
      obtain ⟨_, db₃, htouch, h⟩ := returns_bind h
      cases returns_run htouch
      obtain ⟨rfl, rfl⟩ := returns_pure h
      dsimp only
      rw [if_pos hactive]
      rfl
    · next hactive =>
      obtain ⟨rfl, rfl⟩ := returns_pure h
      dsimp only
      rw [if_neg hactive]

/-- So is `introspectToken`. -/
theorem introspectToken_alone {rawToken : Str} {r : IntrospectResult}
    (h : Returns fate (Broker.introspectToken crypto rawToken) db r db') :
    ∃ clock, AuthBrokerService.introspectToken crypto.toCrypto (envOf fate clock 0 0) rawToken db.auth
      = (r, db'.auth) := by
  unfold Broker.introspectToken at h
  obtain ⟨found, db₁, hfound, h⟩ := returns_bind h
  obtain ⟨n, hfind⟩ := findByTokenHash_alone hfound
  let clock : ℕ → ℕ
    | 0 => n
    | _ => db₁.calls
  have hfirst : (envOf fate clock 0 0).clock 0 = (fate n).now := rfl
  have hsecond : (envOf fate clock 0 0).clock 1 = (fate db₁.calls).now := rfl
  refine ⟨clock, ?_⟩
  simp only [AuthBrokerService.introspectToken, hfirst, hsecond, hfind]
  cases found with
  | none =>
    obtain ⟨rfl, hauth⟩ := returns_logged h
    rw [hauth]
  | some session =>
    obtain ⟨now, db₂, hnow, h⟩ := returns_bind h
    cases returns_run hnow
    dsimp only
    split at h
    · next hended =>
      obtain ⟨rfl, hauth⟩ := returns_logged h
      rw [if_pos hended, hauth]
    · next hactive =>
      obtain ⟨user, db₃, huser, h⟩ := returns_bind h
      cases returns_run huser
      rw [if_neg hactive]
      cases hid : UserCredentialsRepository.findById session.userId db₁.auth with
      | none =>
        rw [hid] at h
        obtain ⟨rfl, hauth⟩ := returns_logged h
        rw [hauth]
      | some user =>
        rw [hid] at h
        obtain ⟨rfl, hauth⟩ := returns_logged h
        rw [hauth]

/-- So is `revokeToken`. -/
theorem revokeToken_alone {rawToken : Str} {u : Unit} (h : Returns fate (Broker.revokeToken crypto rawToken) db u db') :
    ∃ clock, AuthBrokerService.revokeToken crypto.toCrypto (envOf fate clock 0 0) rawToken db.auth = db'.auth := by
  unfold Broker.revokeToken at h
  obtain ⟨_, db₁, hrevoke, h⟩ := returns_bind h
  cases returns_run hrevoke
  exact ⟨fun _ => db.calls, (returns_append h).symm⟩

/-! ## The first administrator -/

/-- The program of two statements, where there is no administrator and the row is inserted. -/
theorem bootstrap_run {hashPassword : Str → Str} {c : FirstAdminCall} {auth auth' : AuthDb} {user : UserCredentials}
    (hadmin : UserCredentialsRepository.activeAdminExists auth = false)
    (hcreate : UserCredentialsRepository.createUser c.env c.username (hashPassword c.plainPassword) .admin auth
      = (some user, auth')) :
    (BootstrapProg.createFirstAdmin hashPassword c).run UserStatement.handle auth = (.ok user, auth') := by
  have hask : (BootstrapProg.createFirstAdmin hashPassword c).run UserStatement.handle auth =
      (if UserCredentialsRepository.activeAdminExists auth then .ret (.error .adminAlreadyExists)
        else BootstrapProg.insertAdmin hashPassword c : BootstrapProg _).run UserStatement.handle auth := rfl
  rw [hask, hadmin, if_neg Bool.false_ne_true, insertAdmin_eq]
  exact congrArg (Prod.map (fun user => user.elim (Except.error BootstrapError.insertFailed) Except.ok) id) hcreate

/-- `createFirstAdmin` alone is the program of two statements. -/
theorem createFirstAdmin_alone {username plainPassword : Str} {user : UserCredentials}
    (h : Returns fate (createFirstAdmin crypto username plainPassword) db user db') :
    ∃ salt clock id,
      (BootstrapProg.createFirstAdmin (crypto.hashWithSalt salt) ⟨envOf fate clock id 0, username, plainPassword⟩).run
        UserStatement.handle db.auth = (.ok user, db'.auth) := by
  unfold createFirstAdmin at h
  obtain ⟨known, db₁, hknown, h⟩ := returns_bind h
  cases returns_run hknown
  cases hadmin : UserCredentialsRepository.activeAdminExists db.auth with
  | true =>
    rw [hadmin] at h
    obtain ⟨_, db₂, -, h⟩ := returns_bind h
    cases h
  | false =>
    rw [hadmin] at h
    obtain ⟨passwordHash, db₂, hhash, h⟩ := returns_bind h
    obtain ⟨salt, db₃, hsalt, hhash⟩ := returns_bind hhash
    cases returns_run hsalt
    obtain ⟨rfl, rfl⟩ := returns_pure hhash
    obtain ⟨created, db₄, hcreated, h⟩ := returns_bind h
    obtain ⟨rfl, hauth⟩ := returns_logged h
    have hrow := returns_run hcreated
    simp only [Statement.execute] at hrow
    refine ⟨(fate (db.calls + 1)).bytes, fun _ => db.calls + 2, db.calls + 2, ?_⟩
    split at hrow
    · next user auth hinsert =>
      cases hrow
      rw [hauth]
      exact bootstrap_run hadmin hinsert
    · cases hrow

end UrlShortener.Auth
