import UrlShortener.Proof.SignOut
import Mathlib.Algebra.BigOperators.Group.Finset.Piecewise
import Mathlib.Algebra.BigOperators.Pi
import Mathlib.Data.Nat.Cast.Order.Ring
import Mathlib.Algebra.BigOperators.Ring.Finset

/-!
# What the audit log tells

Callers take turns on one database, one statement at a time, and any statement may throw.

* `price`, `gain`: an entry for a new session or a new user is paid for by the row it tells of. A caller that has
  inserted the row and not yet the entry is in debt.
* `program_settles`: every program pays for its entries, one for one.
* `audit_accounts`: **rows and entries differ by the callers in between**, and by those whose entry was lost.
* `users_change_by_admins_only`: without a guard of an administrator nobody changes the users.
-/

namespace UrlShortener.Auth

open Sql Calls Security

/-! ## Prices and gains -/

/-- What an entry tells of: a new session, or a new user. -/
def recorded (action : AuditAction) (result : AuditResult) : ℤ × ℤ :=
  match action, result with
  | .sessionCreate, .success => (1, 0)
  | .userCreate, .success => (0, 1)
  | .firstAdminCreate, .success => (0, 1)
  | _, _ => (0, 0)

namespace Statement

/-- What has to be there before the statement. -/
def price : Statement → ℤ × ℤ
  | append entry => recorded entry.action entry.result
  | _ => 0

/-- What the statement adds to the rows that no entry tells of. -/
def gain : (c : Statement) → c.Answer → ℤ × ℤ
  | createSession _ _ _ _, .ok _ => (1, 0)
  | createUser _ _ _, .ok _ => (0, 1)
  | append entry, .ok _ => -recorded entry.action entry.result
  | _, _ => 0

end Statement

/-- The rows that no entry of the log tells of. -/
def unrecorded (db : SecurityDb) : ℤ × ℤ :=
  ((db.auth.sessions.length : ℤ), (db.auth.users.length : ℤ)) -
    (db.auditLog.map fun row => recorded row.action row.result).sum

theorem update_length {R : Type} (cond : R → Bool) (set : R → R) (table : Table R) :
    (update cond set table).length = table.length := List.length_map _

theorem handle_gain (fate : ℕ → Fate) (c : Statement) (db : SecurityDb) :
    unrecorded (c.handle fate db).2 = unrecorded db + c.gain (c.handle fate db).1 := by
  have hdoes := handle_does fate c db
  generalize c.handle fate db = r at hdoes ⊢
  cases hdoes with
  | throws => cases c <;> exact (add_zero _).symm
  | createUser user hinsert =>
    obtain ⟨rfl, -⟩ := insert_eq_some hinsert
    simp only [unrecorded, Statement.gain, List.length_append, List.length_singleton]
    refine Prod.ext ?_ ?_
    · simp
    · simp; omega
  | createSession session hinsert =>
    obtain ⟨rfl, -⟩ := insert_eq_some hinsert
    simp only [unrecorded, Statement.gain, List.length_append, List.length_singleton]
    refine Prod.ext ?_ ?_
    · simp; omega
    · simp
  | append hinsert haction hresult =>
    obtain ⟨rfl, -⟩ := insert_eq_some hinsert
    simp only [unrecorded, Statement.gain, List.map_append, List.map_singleton, List.sum_append, List.sum_singleton,
      haction, hresult]
    abel
  | keeps _ hkeeps =>
    -- an update changes no number of rows
    cases c with
    | createUser | createSession | append => cases hkeeps
    | deactivateUser | touchLastLogin | touchLastUsed | revokeByTokenHash | revokeAllForUser =>
      simp only [unrecorded, Statement.execute, UserCredentialsRepository.deactivateUser,
        UserCredentialsRepository.touchLastLogin, AuthSessionRepository.revokeByTokenHash,
        AuthSessionRepository.revokeAllForUser, update_length, Statement.gain, add_zero]
    | _ => exact (add_zero _).symm

/-! ## Programs that pay -/

/-- The entry that a caller is about to make, or whose insert threw. -/
def dueEntry {α : Type} : Prog Statement Statement.Answer (Except SecurityError α) → Option AuditEntry
  | .call (.append entry) _ => some entry
  | .ret (.error (.thrown (.append entry))) => some entry
  | _ => none

/-- What the caller owes. A program that has come to its normal end with `a` is continued by one that owes
`due a`. -/
def debt {α : Type} (due : α → ℤ × ℤ) : Prog Statement Statement.Answer (Except SecurityError α) → ℤ × ℤ
  | .ret (.ok a) => due a
  | .ret (.error (.thrown c)) => c.price
  | .ret (.error _) => 0
  | .call c _ => c.price

/-- The program begins with a debt of `n` and pays along every path. -/
structure Pays {α : Type} (n : ℤ × ℤ) (due : α → ℤ × ℤ) (p : Security α) : Prop where
  start : debt due p = n
  settles : Prog.Settles Statement.Possible Statement.gain (debt due) (p : Prog Statement Statement.Answer _)

theorem pays_throw {α : Type} {due : α → ℤ × ℤ} {e : SecurityError} (h : ∀ c, e ≠ .thrown c) :
    Pays (α := α) 0 due (throw e) := by
  refine ⟨?_, trivial⟩
  cases e with
  | thrown c => exact absurd rfl (h c)
  | accessDenied message => rfl
  | adminAlreadyExists => rfl

theorem pays_run (c : Statement) (due : c.Value → ℤ × ℤ) (h : ∀ a, due a = c.price + c.gain (.ok a)) :
    Pays c.price due (Security.run c) := by
  refine ⟨rfl, fun x hx => ⟨?_, ?_⟩⟩
  · cases x with
    | ok a => exact h a
    | error e =>
      rw [hx e rfl]
      cases c <;> exact (add_zero _).symm
  · cases x <;> trivial

theorem Pays.bind {α β : Type} {n : ℤ × ℤ} {due : α → ℤ × ℤ} {due' : β → ℤ × ℤ} {p : Security α} {f : α → Security β}
    (hp : Pays n due p) (hf : ∀ a, Pays (due a) due' (f a)) : Pays n due' (p >>= f) := by
  -- what the whole program owes is what its first part owes
  have hdebt : ∀ q : Prog Statement Statement.Answer (Except SecurityError α),
      debt due' (q.bind (afterE f)) = debt due q := by
    intro q
    cases q with
    | ret r =>
      cases r with
      | ok a => exact (hf a).start
      | error e => cases e <;> rfl
    | call c k => rfl
  have hsettles : ∀ q : Prog Statement Statement.Answer (Except SecurityError α),
      q.Settles Statement.Possible Statement.gain (debt due) →
      (q.bind (afterE f)).Settles Statement.Possible Statement.gain (debt due') := by
    intro q hq
    induction q with
    | ret r =>
      cases r with
      | ok a => exact (hf a).settles
      | error e => trivial
    | call c k ih =>
      intro x hx
      obtain ⟨hstep, hrest⟩ := hq x hx
      refine ⟨?_, ih x hrest⟩
      rw [hdebt, hstep]
      rfl
  rw [bindE]
  exact ⟨(hdebt p).trans hp.start, hsettles p hp.settles⟩

/-! ## The services -/

/-- The caller owes nothing, neither before nor after. -/
abbrev Even {α : Type} (p : Security α) : Prop := Pays 0 (fun _ => 0) p

theorem even_run {c : Statement} (hprice : c.price = 0) (hgain : ∀ a, c.gain (.ok a) = 0) : Even (Security.run c) := by
  have h := pays_run c (fun _ => 0) fun a => by rw [hprice, hgain, add_zero]
  rwa [hprice] at h

theorem even_append {entry : AuditEntry} (h : recorded entry.action entry.result = 0) : Even (auditAppend entry) :=
  even_run h fun _ => (congrArg Neg.neg h).trans neg_zero

/-- An entry that is paid for. -/
theorem pays_append {entry : AuditEntry} {n : ℤ × ℤ} (h : recorded entry.action entry.result = n) :
    Pays n (fun _ => 0) (auditAppend entry) := by
  subst h
  exact pays_run (.append entry) (fun _ => 0) fun _ => (add_neg_cancel _).symm

theorem even_pure {α : Type} (a : α) : Even (pure a : Security α) := ⟨rfl, trivial⟩

theorem Pays.then_pure {α β : Type} {n : ℤ × ℤ} {p : Security α} (hp : Pays n (fun _ => 0) p) (f : α → β) :
    Pays n (fun _ => 0) (p >>= fun a => pure (f a)) := hp.bind fun a => even_pure (f a)

theorem verifyPassword_even (crypto : SecurityCrypto) (username plainPassword : Str) :
    Even (Broker.verifyPassword crypto username plainPassword) := by
  have hfailure : ∀ entry : AuditEntry, recorded entry.action entry.result = 0 → Even (do
      auditAppend entry
      return (none : Option UserCredentials)) := fun entry h => (even_append h).then_pure _
  refine (even_run rfl fun _ => rfl).bind fun found => ?_
  cases found with
  | none => exact hfailure _ rfl
  | some user =>
    dsimp only
    split
    · exact hfailure _ rfl
    · split
      · exact hfailure _ rfl
      · exact (even_run rfl fun _ => rfl).bind fun _ => (even_append rfl).then_pure _

theorem openSession_even (crypto : SecurityCrypto) (sessionLifetime : Int64) (username : Str) (user : UserCredentials)
    (clientId : Option Str) : Even (Broker.openSession crypto sessionLifetime username user clientId) := by
  refine (even_run rfl fun _ => rfl).bind fun rawToken => (even_run rfl fun _ => rfl).bind fun now => ?_
  -- from the row to its entry the caller is in debt
  refine (pays_run (.createSession _ _ _ _) (fun _ => (1, 0)) fun _ => rfl).bind fun session => ?_
  refine (pays_append ?_).then_pure _
  rfl

theorem createSession_even (crypto : SecurityCrypto) (sessionLifetime : Int64) (username plainPassword : Str)
    (clientId : Option Str) : Even (Broker.createSession crypto sessionLifetime username plainPassword clientId) := by
  refine (verifyPassword_even crypto username plainPassword).bind fun verified => ?_
  cases verified with
  | none => exact (even_append rfl).then_pure _
  | some user => exact openSession_even crypto sessionLifetime username user clientId

theorem refuse_even : Even Broker.refuse := (even_append rfl).then_pure _

theorem introspectToken_even (crypto : SecurityCrypto) (rawToken : Str) :
    Even (Broker.introspectToken crypto rawToken) := by
  have hfind : Even (findByTokenHash (crypto.hashToken rawToken)) := by
    refine (even_run rfl fun _ => rfl).bind fun found => ?_
    cases found with
    | none => exact even_pure _
    | some session =>
      refine (even_run rfl fun _ => rfl).bind fun now => ?_
      split
      · exact (even_run rfl fun _ => rfl).then_pure _
      · exact even_pure _
  refine hfind.bind fun found => ?_
  cases found with
  | none => exact refuse_even
  | some session =>
    refine (even_run rfl fun _ => rfl).bind fun now => ?_
    split
    · exact refuse_even
    · refine (even_run rfl fun _ => rfl).bind fun found => ?_
      cases found with
      | none => exact refuse_even
      | some user => exact (even_append rfl).then_pure _

theorem requireUserManagement_even (guard : ControlSet) : Even (requireUserManagement guard) := by
  cases guard with
  | admin => exact even_pure ()
  | user => exact pays_throw nofun

theorem hashPassword_even (crypto : SecurityCrypto) (plainPassword : Str) : Even (hashPassword crypto plainPassword) :=
  (even_run rfl fun _ => rfl).then_pure _

/-- A new user and the entry that tells of them. -/
theorem insertUser_even (username passwordHash : Str) (controlSet : ControlSet) {entry : UserCredentials → AuditEntry}
    (h : ∀ user, recorded (entry user).action (entry user).result = (0, 1)) : Even (do
      let user : UserCredentials ← Security.run (.createUser username passwordHash controlSet)
      auditAppend (entry user)
      return user) := by
  refine (pays_run (.createUser _ _ _) (fun _ => (0, 1)) fun _ => rfl).bind fun user => ?_
  exact (pays_append (h user)).then_pure _

/-- **Every program pays for its entries.** -/
theorem program_settles (crypto : SecurityCrypto) (sessionLifetime : Int64) (op : SecurityOp) :
    Even (op.program crypto sessionLifetime) := by
  cases op with
  | verifyPassword username plainPassword => exact (verifyPassword_even crypto username plainPassword).then_pure _
  | createSession username plainPassword clientId =>
    exact (createSession_even crypto sessionLifetime username plainPassword clientId).then_pure _
  | introspectToken rawToken => exact (introspectToken_even crypto rawToken).then_pure _
  | revokeToken rawToken =>
    have hrevoke : Even (Broker.revokeToken crypto rawToken) :=
      (even_run rfl fun _ => rfl).bind fun _ => even_append rfl
    exact hrevoke.then_pure _
  | revokeAllForUser userId => exact (even_run rfl fun _ => rfl).then_pure _
  | createUser guard username plainPassword controlSet =>
    have hcreate : Even (UserManagement.createUser crypto guard username plainPassword controlSet) :=
      (requireUserManagement_even guard).bind fun _ => (hashPassword_even crypto plainPassword).bind fun passwordHash =>
        insertUser_even username passwordHash controlSet fun _ => rfl
    exact hcreate.then_pure _
  | listUsers guard =>
    have hlist : Even (UserManagement.listUsers guard) :=
      (requireUserManagement_even guard).bind fun _ => even_run (c := .listUsers) rfl fun _ => rfl
    exact hlist.then_pure _
  | deactivateUser guard username =>
    have hdeactivate : Even (UserManagement.deactivateUser guard username) :=
      (requireUserManagement_even guard).bind fun _ => (even_run rfl fun _ => rfl).bind fun _ => even_append rfl
    exact hdeactivate.then_pure _
  | createFirstAdmin username plainPassword =>
    have hcreate : Even (createFirstAdmin crypto username plainPassword) := by
      refine (even_run rfl fun _ => rfl).bind fun known => ?_
      split
      · exact (even_append rfl).bind fun _ => pays_throw nofun
      · exact (hashPassword_even crypto plainPassword).bind fun passwordHash =>
          insertUser_even username passwordHash .admin fun _ => rfl
    exact hcreate.then_pure _

/-! ## Rows and entries -/

/-- The entry tells of one of the actions, and that it succeeded. -/
def tells (actions : List AuditAction) (action : AuditAction) (result : AuditResult) : Bool :=
  actions.contains action && result == .success

/-- The entries of the log that tell of one of the actions. -/
def logged (actions : List AuditAction) (auditLog : Table AuditRow) : ℕ :=
  count (fun row => tells actions row.action row.result) auditLog

/-- The caller has yet to log one of the actions, or failed to. -/
def isDue {α : Type} (actions : List AuditAction) (p : Prog Statement Statement.Answer (Except SecurityError α)) :
    Bool :=
  (dueEntry p).any fun entry => tells actions entry.action entry.result

/-- The actions that insert a session. -/
abbrev sessionActions : List AuditAction := [.sessionCreate]

/-- The actions that insert a user. -/
abbrev userActions : List AuditAction := [.userCreate, .firstAdminCreate]

theorem recorded_eq (action : AuditAction) (result : AuditResult) :
    recorded action result
      = (((tells sessionActions action result).toNat : ℤ), ((tells userActions action result).toNat : ℤ)) := by
  cases action <;> cases result <;> rfl

theorem sum_recorded (auditLog : Table AuditRow) :
    (auditLog.map fun row => recorded row.action row.result).sum
      = ((logged sessionActions auditLog : ℤ), (logged userActions auditLog : ℤ)) := by
  induction auditLog with
  | nil => rfl
  | cons row auditLog ih =>
    rw [List.map_cons, List.sum_cons, ih, recorded_eq, Prod.mk_add_mk]
    unfold logged count
    rw [List.countP_cons, List.countP_cons]
    cases tells sessionActions row.action row.result <;> cases tells userActions row.action row.result <;>
      simp <;> omega

theorem debt_eq {α : Type} (p : Prog Statement Statement.Answer (Except SecurityError α)) :
    debt (fun _ => 0) p = (((isDue sessionActions p).toNat : ℤ), ((isDue userActions p).toNat : ℤ)) := by
  cases p with
  | call c k =>
    cases c with
    | append entry => exact recorded_eq _ _
    | _ => rfl
  | ret r =>
    cases r with
    | ok a => rfl
    | error e =>
      cases e with
      | thrown c =>
        cases c with
        | append entry => exact recorded_eq _ _
        | _ => rfl
      | _ => rfl

theorem sum_toNat {ι : Type} [Fintype ι] (due : ι → Bool) :
    ∑ i, ((due i).toNat : ℤ) = (Finset.univ.filter fun i => due i = true).card := by
  rw [Finset.card_filter, Nat.cast_sum]
  refine Finset.sum_congr rfl fun i _ => ?_
  cases due i <;> rfl

section Callers

variable {ι : Type} [DecidableEq ι]

/-- **The audit log accounts for every session and every user.** At every moment of every schedule of callers, with
statements failing anywhere, the sessions are as many as the log tells of, with those of callers that have inserted one
and are about to log it or could not; and so are the users. -/
theorem audit_accounts [Fintype ι] (crypto : SecurityCrypto) (sessionLifetime : Int64) (ops : ι → SecurityOp)
    (fate : ℕ → Fate) (db : SecurityDb) (schedule : List ι) :
    let P := (securityPool crypto sessionLifetime ops db).interleave (Statement.handle fate) schedule
    P.state.auth.sessions.length + logged sessionActions db.auditLog
        = db.auth.sessions.length + logged sessionActions P.state.auditLog
          + (Finset.univ.filter fun i => isDue sessionActions (P.prog i) = true).card ∧
      P.state.auth.users.length + logged userActions db.auditLog
        = db.auth.users.length + logged userActions P.state.auditLog
          + (Finset.univ.filter fun i => isDue userActions (P.prog i) = true).card := by
  intro P
  have hprogram := fun i => program_settles crypto sessionLifetime (ops i)
  have hbooks := Pool.interleave_settles unrecorded (handle_gain fate) (handle_possible fate)
    (fun _ : ι => debt fun _ => 0) (P := securityPool crypto sessionLifetime ops db) (fun i => (hprogram i).settles)
    schedule
  have hnone : ∑ i, debt (fun _ => 0) ((securityPool crypto sessionLifetime ops db).prog i) = 0 :=
    Finset.sum_eq_zero fun i _ => (hprogram i).start
  rw [hnone, sub_zero] at hbooks
  simp only [debt_eq, unrecorded, sum_recorded] at hbooks
  have hsessions := congrArg Prod.fst hbooks
  have husers := congrArg Prod.snd hbooks
  simp only [Prod.fst_sub, Prod.snd_sub, Prod.fst_sum, Prod.snd_sum, sum_toNat] at hsessions husers
  have hstate : (securityPool crypto sessionLifetime ops db).state = db := rfl
  rw [hstate] at hsessions husers
  simp only [P]
  constructor
  · omega
  · omega

/-! ## Who changes the users -/

/-- The call does not come with the guard of an administrator. -/
def SecurityOp.Unprivileged : SecurityOp → Prop
  | .createUser guard _ _ _ => guard ≠ .admin
  | .deactivateUser guard _ => guard ≠ .admin
  | _ => True

/-- The call is meant to change the users. -/
def SecurityOp.ChangesUsers : SecurityOp → Prop
  | .createUser _ _ _ _ => True
  | .deactivateUser _ _ => True
  | .createFirstAdmin _ _ => True
  | _ => False

/-- Statements that insert no user and deactivate none. -/
def Harmless : Statement → Prop
  | .createUser _ _ _ => False
  | .deactivateUser _ => False
  | _ => True

/-- An administrator is found. -/
def FindsAdmin : (c : Statement) → c.Answer → Prop
  | .activeAdminExists, x => x ≠ .ok false
  | _, _ => True

/-- A user apart from the time of the last login. -/
def UserRow.account (row : UserRow) : UserRow := { row with lastLoginAt := none }

/-- The accounts are as they were, one of an active administrator among them. -/
def SameAccounts (accounts : List UserRow) (db : SecurityDb) : Prop :=
  db.auth.users.map UserRow.account = accounts ∧ ∃ row ∈ accounts, row.controlSet = .admin ∧ row.isActive = 1

theorem SameAccounts.handle {accounts : List UserRow} {db : SecurityDb} (fate : ℕ → Fate) {c : Statement}
    (hc : Harmless c) (h : SameAccounts accounts db) : SameAccounts accounts (c.handle fate db).2 := by
  refine ⟨?_, h.2⟩
  rw [← h.1]
  have hdoes := handle_does fate c db
  generalize c.handle fate db = r at hdoes ⊢
  cases hdoes with
  | throws | createSession | append => rfl
  | createUser => cases hc
  | keeps _ hkeeps =>
    cases c with
    | createUser | deactivateUser => cases hc
    | createSession | append => cases hkeeps
    | touchLastLogin userId =>
      show (update _ _ db.auth.users).map _ = _
      unfold update
      rw [List.map_map]
      refine List.map_congr_left fun row _ => ?_
      simp only [Function.comp_apply]
      split <;> rfl
    | _ => rfl

theorem SameAccounts.finds {accounts : List UserRow} {db : SecurityDb} (fate : ℕ → Fate) (c : Statement)
    (h : SameAccounts accounts db) : FindsAdmin c (c.handle fate db).1 := by
  cases c with
  | activeAdminExists =>
    intro hfalse
    rcases handle_cases fate .activeAdminExists db with hh | hh <;> rw [hh] at hfalse
    · cases hfalse
    · obtain ⟨row, hrow, hadmin, hactive⟩ := h.2
      rw [← h.1] at hrow
      obtain ⟨user, huser, rfl⟩ := List.mem_map.1 hrow
      have hexists : UserCredentialsRepository.activeAdminExists db.auth = true := by
        refine decide_eq_true (List.countP_pos_iff.2 ⟨user, huser, ?_⟩)
        rw [Bool.and_eq_true, beq_iff_eq, beq_iff_eq]
        exact ⟨hadmin, hactive⟩
      have hmissing : UserCredentialsRepository.activeAdminExists db.auth = false := Except.ok.inj hfalse
      rw [hexists] at hmissing
      cases hmissing
  | _ => trivial

/-- Only harmless statements are made. -/
abbrev OnlyHarmless {α : Type} (p : Security α) : Prop := ConfinedE Harmless FindsAdmin (fun _ => True) anyError p

theorem harmless_run {c : Statement} (h : Harmless c) : OnlyHarmless (Security.run c) :=
  confined_run h (fun _ _ => trivial) fun _ _ => trivial

theorem OnlyHarmless.andThen {α β : Type} {p : Security α} {f : α → Security β} (hp : OnlyHarmless p)
    (hf : ∀ a, OnlyHarmless (f a)) : OnlyHarmless (p >>= f) := hp.bind fun a _ => hf a

theorem onlyHarmless_pure {α : Type} (a : α) : OnlyHarmless (pure a : Security α) := confinedE_pure trivial

theorem onlyHarmless_append (entry : AuditEntry) : OnlyHarmless (auditAppend entry) := harmless_run trivial

theorem verifyPassword_harmless (crypto : SecurityCrypto) (username plainPassword : Str) :
    OnlyHarmless (Broker.verifyPassword crypto username plainPassword) := by
  have hfailure : ∀ entry : AuditEntry, OnlyHarmless (do
      auditAppend entry
      return (none : Option UserCredentials)) := fun entry => (onlyHarmless_append entry).andThen fun _ =>
    onlyHarmless_pure _
  refine OnlyHarmless.andThen (harmless_run trivial) fun found => ?_
  cases found with
  | none => exact hfailure _
  | some user =>
    dsimp only
    split
    · exact hfailure _
    · split
      · exact hfailure _
      · exact (harmless_run (c := .touchLastLogin user.id) trivial).andThen fun _ =>
          (onlyHarmless_append _).andThen fun _ => onlyHarmless_pure _

theorem createSession_harmless (crypto : SecurityCrypto) (sessionLifetime : Int64) (username plainPassword : Str)
    (clientId : Option Str) :
    OnlyHarmless (Broker.createSession crypto sessionLifetime username plainPassword clientId) := by
  refine (verifyPassword_harmless crypto username plainPassword).andThen fun verified => ?_
  cases verified with
  | none => exact (onlyHarmless_append _).andThen fun _ => onlyHarmless_pure _
  | some user =>
    refine (harmless_run (c := .randomBytes) trivial).andThen fun rawToken => ?_
    refine (harmless_run (c := .now) trivial).andThen fun now => ?_
    refine (harmless_run (c := .createSession _ _ _ _) trivial).andThen fun session => ?_
    exact (onlyHarmless_append _).andThen fun _ => onlyHarmless_pure _

theorem refuse_harmless : OnlyHarmless Broker.refuse := (onlyHarmless_append _).andThen fun _ => onlyHarmless_pure _

theorem introspectToken_harmless (crypto : SecurityCrypto) (rawToken : Str) :
    OnlyHarmless (Broker.introspectToken crypto rawToken) := by
  have hfind : OnlyHarmless (findByTokenHash (crypto.hashToken rawToken)) := by
    refine (harmless_run (c := .selectSession _) trivial).andThen fun found => ?_
    cases found with
    | none => exact onlyHarmless_pure _
    | some session =>
      refine (harmless_run (c := .now) trivial).andThen fun now => ?_
      split
      · exact (harmless_run (c := .touchLastUsed _ _) trivial).andThen fun _ => onlyHarmless_pure _
      · exact onlyHarmless_pure _
  refine hfind.andThen fun found => ?_
  cases found with
  | none => exact refuse_harmless
  | some session =>
    refine (harmless_run (c := .now) trivial).andThen fun now => ?_
    split
    · exact refuse_harmless
    · refine (harmless_run (c := .findById _) trivial).andThen fun found => ?_
      cases found with
      | none => exact refuse_harmless
      | some user => exact (onlyHarmless_append _).andThen fun _ => onlyHarmless_pure _

/-- `createFirstAdmin` is refused, since an administrator is found. -/
theorem createFirstAdmin_refused (crypto : SecurityCrypto) (username plainPassword : Str) :
    ConfinedE Harmless FindsAdmin (fun _ => False) anyError (createFirstAdmin crypto username plainPassword) := by
  refine ConfinedE.bind (Q := fun known : Bool => known = true)
    (confined_run (c := .activeAdminExists) trivial (fun known h => ?_) fun _ _ => trivial) fun known hknown => ?_
  · cases known with
    | true => rfl
    | false => exact absurd rfl h
  · subst hknown
    exact (onlyHarmless_append _).bind fun _ _ => confinedE_throw trivial

/-- The guard of a user is refused. -/
theorem requireUserManagement_refused {guard : ControlSet} (h : guard ≠ .admin) :
    ConfinedE Harmless FindsAdmin (fun _ => False) anyError (requireUserManagement guard) := by
  cases guard with
  | admin => exact absurd rfl h
  | user => exact confinedE_throw trivial

/-- **A call without the guard of an administrator** makes harmless statements only, and fails if it was meant to change
the users. -/
theorem program_unprivileged (crypto : SecurityCrypto) (sessionLifetime : Int64) {op : SecurityOp}
    (hop : op.Unprivileged) :
    ConfinedE Harmless FindsAdmin (fun _ => ¬op.ChangesUsers) anyError (op.program crypto sessionLifetime) := by
  cases op with
  | verifyPassword username plainPassword =>
    exact (verifyPassword_harmless crypto username plainPassword).bind fun _ _ => confinedE_pure id
  | createSession username plainPassword clientId =>
    exact (createSession_harmless crypto sessionLifetime username plainPassword clientId).bind fun _ _ =>
      confinedE_pure id
  | introspectToken rawToken => exact (introspectToken_harmless crypto rawToken).bind fun _ _ => confinedE_pure id
  | revokeToken rawToken =>
    have hrevoke : OnlyHarmless (Broker.revokeToken crypto rawToken) :=
      (harmless_run (c := .revokeByTokenHash _) trivial).andThen fun _ => onlyHarmless_append _
    exact hrevoke.bind fun _ _ => confinedE_pure id
  | revokeAllForUser userId =>
    exact (harmless_run (c := .revokeAllForUser userId) trivial).bind fun _ _ => confinedE_pure id
  | createUser guard username plainPassword controlSet =>
    have hrefused : ConfinedE Harmless FindsAdmin (fun _ => False) anyError
        (UserManagement.createUser crypto guard username plainPassword controlSet) :=
      (requireUserManagement_refused hop).bind fun _ h => h.elim
    exact hrefused.bind fun _ h => h.elim
  | listUsers guard =>
    have hlist : OnlyHarmless (UserManagement.listUsers guard) := by
      cases guard with
      | admin => exact (onlyHarmless_pure ()).andThen fun _ => harmless_run (c := .listUsers) trivial
      | user => exact confinedE_throw trivial
    exact hlist.bind fun _ _ => confinedE_pure id
  | deactivateUser guard username =>
    have hrefused : ConfinedE Harmless FindsAdmin (fun _ => False) anyError
        (UserManagement.deactivateUser guard username) :=
      (requireUserManagement_refused hop).bind fun _ h => h.elim
    exact hrefused.bind fun _ h => h.elim
  | createFirstAdmin username plainPassword =>
    exact (createFirstAdmin_refused crypto username plainPassword).bind fun _ h => h.elim

/-- **Only administrators change the users.** Where there is an active administrator and no caller comes with the guard
of one, the accounts stay as they are along every schedule, apart from the times of the last logins. Every call that is
meant to change them fails, the creation of a first administrator too. -/
theorem users_change_by_admins_only (crypto : SecurityCrypto) (sessionLifetime : Int64) (ops : ι → SecurityOp)
    (hops : ∀ i, (ops i).Unprivileged) (fate : ℕ → Fate) (db : SecurityDb)
    (hadmin : ∃ row ∈ db.auth.users, row.controlSet = .admin ∧ row.isActive = 1) (schedule : List ι) :
    let P := (securityPool crypto sessionLifetime ops db).interleave (Statement.handle fate) schedule
    P.state.auth.users.map UserRow.account = db.auth.users.map UserRow.account ∧
      ∀ i r, (ops i).ChangesUsers → P.prog i ≠ .ret (.ok r) := by
  intro P
  have hstart : SameAccounts (db.auth.users.map UserRow.account)
      (securityPool crypto sessionLifetime ops db).state := by
    obtain ⟨row, hrow, hset, hactive⟩ := hadmin
    exact ⟨rfl, row.account, List.mem_map_of_mem hrow, hset, hactive⟩
  have hprog : ∀ i, ((securityPool crypto sessionLifetime ops db).prog i).Confined Harmless FindsAdmin
      (Ends (fun _ => ¬(ops i).ChangesUsers) anyError) :=
    fun i => program_unprivileged crypto sessionLifetime (hops i)
  have hstable : ∀ c db', Harmless c → SameAccounts (db.auth.users.map UserRow.account) db' →
      SameAccounts (db.auth.users.map UserRow.account) (Statement.handle fate c db').2 :=
    fun c db' hc h => h.handle fate hc
  obtain ⟨hsame, hconfined⟩ := Pool.interleave_confined _ hstable (fun c db' h => h.finds fate c) hstart hprog schedule
  refine ⟨hsame.1, fun i r hchanges hret => ?_⟩
  have hi := hconfined i
  rw [hret] at hi
  exact hi hchanges

/-- Two who try to become administrators. -/
def sampleIntruders (i : Bool) : SecurityOp :=
  if i then .createUser .user "eve" "pw" .admin else .createFirstAdmin "eve" "pw"

theorem sampleIntruders_fail :
    let P := (securityPool sampleCrypto 3600 sampleIntruders sampleSecurityDb).interleave (Statement.handle sampleFate)
      [false, true, false, true]
    P.state.auth.users.map UserRow.account = sampleSecurityDb.auth.users.map UserRow.account ∧
      ∀ i r, (sampleIntruders i).ChangesUsers → P.prog i ≠ .ret (.ok r) := by
  refine users_change_by_admins_only sampleCrypto 3600 sampleIntruders ?_ sampleFate sampleSecurityDb
    ⟨_, List.mem_singleton_self _, rfl, rfl⟩ _
  intro i
  cases i with
  | false => trivial
  | true => exact nofun

end Callers

end UrlShortener.Auth
